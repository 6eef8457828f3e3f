import ContractInspector.Proofs.Contract.Wrapping
import ContractInspector.Proofs.Issue.Branching
import ContractInspector.Proofs.Issue.Storing
import ContractInspector.Proofs.Text.Stripping

/-! Disclosing what a constructor assigns. An assignment to a ledger field is reported for a constructor exactly
if it stores a parameter outside of what is disclosed. Once all that it stores is disclosed it is not reported
any more, and the assignments behind other semicolons are reported as before (`disclosing_silences`), unless
they belong to a constructor among whose parameters the disclosed text stands (`lost_nested`). -/
namespace ContractInspector.Issue

open Contract (CodeBlock LedgerItem Scan Scanned)
open Source (Balanced Block Span Wrapping maskAll)
open Text (Match Pattern StandsAt isBlank isWord slice)

variable {wrapping : Wrapping} {source name head text lead part rest value : List Char} {low high n m : Nat}
  {scan : Scan} {block : CodeBlock} {item : LedgerItem} {issue : Issue} {found : Match} {parens : Block}

/-- The names of the parameters of a constructor. -/
def paramNames (block : CodeBlock) : List String :=
  ((block.params.map paramName).filter (!·.isEmpty)).map String.ofList

/-- The issue of an assignment of a parameter to a ledger field, at an offset of the source. -/
def storeIssue (scan : Scan) (item : LedgerItem) (n : Nat) (param : String) : Issue where
  kind := .undisclosedConstructorParam
  message := "Constructor parameter '" ++ param ++ "' is assigned to ledger field '" ++ item.name ++
    "' without disclose()"
  suggestion := "Wrap the parameter: `" ++ item.name ++ " = disclose(" ++ param ++ ");`"
  line := scan.lines.lineOf n

/-- What is reported for an assignment of a constructor to a ledger field. -/
def store? (scan : Scan) (block : CodeBlock) (item : LedgerItem) (found : Match) : Option Issue :=
  (firstUsed? (paramNames block) (withoutDisclosed (found.text 1))).map
    (storeIssue scan item (block.bodyStart + found.start.offset))

/-- An issue is reported for the assignment of a constructor to a ledger field at an offset of the source. -/
def Reports (scan : Scan) (block : CodeBlock) (item : LedgerItem) (n : Nat) (issue : Issue) : Prop :=
  ∃ found ∈ (assignment item.name.toList).matchesIn (bodyOf scan block),
    block.bodyStart + found.start.offset = n ∧ store? scan block item found = some issue

/-- A parameter is written as its name, a colon and its type. -/
structure Declares (param name : String) : Prop where
  named : Named name
  split : ∃ front gap type, param.toList = front ++ (name.toList ++ (gap ++ ':' :: type)) ∧
    (∀ c ∈ front, isBlank c = true) ∧ ∀ c ∈ gap, isBlank c = true

/-- A piece of a source is assigned to a name that stands at an offset, and is going to be disclosed. -/
structure Assigned (wrapping : Wrapping) (name : List Char) (n : Nat) : Prop where
  word : wrapping.word = "disclose".toList
  begins : ∃ lead head, maskAll wrapping.front = lead ++ head ∧ lead.length = n ∧
    lead.getLast?.any joins = false ∧ Setter name head
  ended : wrapping.rest.head? = some ';'
  single : ';' ∉ wrapping.piece
  shown : maskAll wrapping.piece = wrapping.piece
  quoteless : ∀ c ∈ wrapping.piece, Source.isQuote c = false
  plain : wrapping.piece.head?.any (fun c => c == '=' || c == '>') = false
  balanced : Balanced '(' ')' wrapping.piece

/-- The body of a constructor holds the assignment of a piece, and no other assignment to the name in front of
it without a semicolon between the two. -/
structure Holds (wrapping : Wrapping) (name : List Char) (n : Nat) (block : CodeBlock) : Prop where
  above : block.bodyStart ≤ n
  below : wrapping.front.length + wrapping.piece.length < block.bodyEnd
  first : ∀ m, block.bodyStart ≤ m → m < n → (∃ head, Stores name head (maskAll wrapping.before) m) →
    ';' ∈ slice (maskAll wrapping.before) m n

/-- A constructor of a source, with the match that it is read from and the block of its parameters. -/
structure Constructs (source : List Char) (found : Match) (parens : Block) (block : CodeBlock) : Prop where
  among : found ∈ (Scanned.ofSource source).matchesOf Contract.Forms.constructor
  parameters : (Scanned.ofSource source).blockOf? found = some parens
  read : (Scanned.ofSource source).constructor? found = some block

/-- A piece does not stand between some parentheses. -/
def Spares (wrapping : Wrapping) (parens : Block) : Prop :=
  parens.closing < wrapping.front.length ∨ wrapping.front.length ≤ parens.opening

/-- A semicolon stands between two offsets of a text. -/
def Parted (text : List Char) (n m : Nat) : Prop :=
  ';' ∈ slice text n m ∨ ';' ∈ slice text m n

section Reporting

theorem undisclosedConstructorParam_eq (scan : Scan) : undisclosedConstructorParam scan =
    scan.constructors.flatMap fun block => scan.declared.ledgerItems.flatMap fun item =>
      ((assignment item.name.toList).matchesIn (bodyOf scan block)).filterMap (store? scan block item) := rfl

/-- The issues of the rule are those reported for the constructors and fields of a contract. -/
theorem mem_filter_detect_iff : issue ∈ (detect scan).filter (·.kind = .undisclosedConstructorParam) ↔
    ∃ block ∈ scan.constructors, ∃ item ∈ scan.declared.ledgerItems, ∃ n, Reports scan block item n issue := by
  have listed : (undisclosedConstructorParam, Kind.undisclosedConstructorParam) ∈ ruleKinds := by simp [ruleKinds]
  rw [(perm_filter_detect scan listed).mem_iff]
  simp only [undisclosedConstructorParam_eq, List.mem_flatMap, List.mem_filterMap, Reports]
  refine exists_congr fun block => and_congr_right fun _ => exists_congr fun item => and_congr_right fun _ => ?_
  constructor
  · rintro ⟨found, member, same⟩
    exact ⟨_, found, member, rfl, same⟩
  · rintro ⟨_, found, member, -, same⟩
    exact ⟨found, member, same⟩

theorem exists_constructs (member : block ∈ (Contract.scan source).constructors) :
    ∃ found parens, Constructs source found parens block := by
  obtain ⟨found, among, read⟩ := List.mem_filterMap.mp member
  obtain ⟨parens, parameters, -⟩ := Option.bind_eq_some_iff.mp read
  exact ⟨found, parens, among, parameters, read⟩

theorem Constructs.mem (constructs : Constructs source found parens block) :
    block ∈ (Contract.scan source).constructors :=
  List.mem_filterMap.mpr ⟨found, constructs.among, constructs.read⟩

theorem window_of_mem (member : block ∈ (Contract.scan source).constructors) :
    Window (maskAll source) block.bodyStart block.bodyEnd := by
  obtain ⟨kind, found, matched, body⟩ := Scanned.exists_bodyOf? (List.mem_append_right _ member)
  have formed := Scanned.wellFormed_of_bodyOf? matched body
  exact ⟨formed.positive, formed.ordered, formed.opens, formed.closes⟩

/-- What is reported for an assignment is read off the source. -/
theorem reports_iff (member : block ∈ (Contract.scan source).constructors) (named : Named item.name) :
    Reports (Contract.scan source) block item n issue ↔
      ∃ value, StoredIn item.name.toList (maskAll source) block.bodyStart block.bodyEnd n value ∧
        (firstUsed? (paramNames block) (withoutDisclosed value)).map
          (storeIssue (Contract.scan source) item n) = some issue := by
  have window := window_of_mem member
  have body : bodyOf (Contract.scan source) block = slice (maskAll source) block.bodyStart block.bodyEnd := by
    rw [bodyOf, Text.Indexed.slice, Text.Indexed.drop_eq]
    rfl
  simp only [← exists_match_iff window named.1 named.2, Reports, body]
  constructor
  · rintro ⟨found, among, rfl, same⟩
    exact ⟨_, ⟨found, among, rfl, rfl⟩, same⟩
  · rintro ⟨_, ⟨found, among, rfl, rfl⟩, same⟩
    exact ⟨found, among, rfl, same⟩

theorem paramName_of_declares {param name : String} (declares : Declares param name) :
    paramName param = name.toList := by
  obtain ⟨front, gap, type, split, blank, blank'⟩ := declares.split
  obtain ⟨nonempty, letters⟩ := declares.named
  have free : ':' ∉ front ++ (name.toList ++ gap) := by
    have inFront : ':' ∉ front := fun member => absurd (blank ':' member) (by decide)
    have inName : ':' ∉ name.toList := fun member => absurd (letters ':' member) (by decide)
    have inGap : ':' ∉ gap := fun member => absurd (blank' _ member) (by decide)
    simp [inFront, inName, inGap]
  have cut : param.toList.takeWhile (· ≠ ':') = front ++ (name.toList ++ gap) := by
    rw [split, ← List.append_assoc name.toList, ← List.append_assoc]
    exact (Text.spans_ne_iff.mpr ⟨free, by simp⟩).takeWhile
  have visible {c : Char} (letter : isWord c = true) : isBlank c = false := Text.isBlank_of_isWord letter
  rw [paramName, cut, Text.strip_append_left blank, Text.strip_append_blanks blank']
  refine Text.strip_eq_self ?_ ?_
  · cases first : name.toList.head? with
    | none => rfl
    | some c => exact visible (letters c (List.mem_of_mem_head? first))
  · cases last : name.toList.getLast? with
    | none => rfl
    | some c => exact visible (letters c (List.mem_of_getLast? last))

theorem paramNames_eq {names : List String} (declared : List.Forall₂ Declares block.params names) :
    paramNames block = names := by
  rw [paramNames]
  generalize block.params = params at declared
  induction declared with
  | nil => rfl
  | cons first _ ih =>
    rw [List.map_cons, paramName_of_declares first, List.filter_cons_of_pos, List.map_cons, ih, String.ofList_toList]
    simpa using first.named.1

theorem named_of_declared {names params : List String} (declared : List.Forall₂ Declares params names) :
    ∀ name ∈ names, Named name := by
  induction declared with
  | nil => simp
  | cons first _ ih => exact List.forall_mem_cons.mpr ⟨first.named, ih⟩

end Reporting

section Places

theorem head_append_semicolon (plain : part.head?.any (fun c => c == '=' || c == '>') = false) (rest : List Char) :
    (part ++ ';' :: rest).head?.any (fun c => c == '=' || c == '>') = false := by
  cases part with
  | nil => rfl
  | cons c part => exact plain

theorem stores_of_split (setter : Setter name head) (whole : lead.getLast?.any joins = false)
    (plain : text.head?.any (fun c => c == '=' || c == '>') = false) :
    Stores name head (lead ++ head ++ text) lead.length := by
  refine ⟨setter, (Text.standsAt_iff setter.ne_nil).mpr ⟨lead, text, List.append_assoc _ _ _, rfl, whole⟩, ?_⟩
  rwa [← List.length_append, List.drop_left]

theorem upToSemicolon_of_split (single : ';' ∉ part) (ends : rest.head? = some ';')
    (below : lead.length + part.length < high) :
    upToSemicolon (slice (lead ++ (part ++ rest)) lead.length high) = part := by
  have here : (lead ++ (part ++ rest))[lead.length + part.length]? = some ';' := by
    rw [List.getElem?_append_right (Nat.le_add_right _ _), Nat.add_sub_cancel_left,
      List.getElem?_append_right (Nat.le_refl _), Nat.sub_self, ← List.head?_eq_getElem?, ends]
  rw [upToSemicolon_slice here (Nat.le_add_right _ _) below, slice, List.drop_left, Nat.add_sub_cancel_left,
    List.take_left, upToSemicolon, List.takeWhile_eq_self_iff]
  intro c member
  exact decide_eq_true (ne_of_mem_of_not_mem member single)

theorem StoredIn.value_eq (stored : StoredIn name text low high n value) (stores : Stores name head text n) :
    value = upToSemicolon (slice text (n + head.length) high) := by
  obtain ⟨head', storesToo, rfl⟩ := stored.stores
  rw [stores.setter.unique storesToo.setter stores.stands.here storesToo.stands.here]

/-- A text that is nothing but a call is disclosed as a whole. -/
theorem calls_callOf {inner : List Char} (balanced : Balanced '(' ')' inner) :
    Calls (callOf [] inner) [⟨0, (callOf [] inner).length - 1⟩] := by
  have nothing : ∀ n, ¬OpensAt [] n := fun n opens => absurd opens.longer (by decide)
  have calls := @Calls.call [] [] inner [] [] nofun rfl nofun balanced (.none nothing)
  simpa only [List.nil_append, List.append_nil, List.length_nil, List.map_nil] using calls

variable (assigned : Assigned wrapping name n)
include assigned

namespace Assigned

theorem fits : wrapping.Fits where
  assigned := by
    obtain ⟨lead, head, split, -, -, setter⟩ := assigned.begins
    obtain ⟨stem, rfl, -⟩ := setter.exists_stem
    rw [split, ← List.append_assoc, List.getLast?_concat]
  ended := assigned.ended
  letters := by
    rw [assigned.word]
    decide
  shown := assigned.shown
  quoteless := assigned.quoteless

theorem exists_beginning : ∃ lead head, maskAll wrapping.front = lead ++ head ∧ lead.length = n ∧
    lead.getLast?.any joins = false ∧ Setter name head ∧ n + head.length = wrapping.front.length := by
  obtain ⟨lead, head, split, rfl, whole, setter⟩ := assigned.begins
  refine ⟨lead, head, split, rfl, whole, setter, ?_⟩
  rw [← List.length_append, ← split]
  exact wrapping.length_front_masked

theorem lt_front : n < wrapping.front.length := by
  obtain ⟨lead, head, -, -, -, setter, length⟩ := assigned.exists_beginning
  have positive := List.length_pos_iff.mpr setter.ne_nil
  omega

/-- What the assignment stores, for what stands behind its operator. -/
theorem exists_stores {part : List Char} (single : ';' ∉ part)
    (plain : part.head?.any (fun c => c == '=' || c == '>') = false) :
    ∃ head, Stores name head (maskAll wrapping.front ++ (part ++ maskAll wrapping.rest)) n ∧
      ∀ high, wrapping.front.length + part.length < high →
        upToSemicolon (slice (maskAll wrapping.front ++ (part ++ maskAll wrapping.rest)) (n + head.length) high) =
          part := by
  obtain ⟨lead, head, split, rfl, whole, setter, length⟩ := assigned.exists_beginning
  obtain ⟨rest, behind⟩ := List.head?_eq_some_iff.mp assigned.fits.seated.ended
  change maskAll wrapping.rest = _ at behind
  rw [split, behind]
  refine ⟨head, stores_of_split setter whole (head_append_semicolon plain rest), fun high below => ?_⟩
  rw [← List.length_append]
  refine upToSemicolon_of_split single rfl ?_
  rw [List.length_append]
  omega

theorem not_semicolon : ';' ∉ wrapping.call := by
  have word : ';' ∉ wrapping.word := assigned.fits.not_mem_word (by decide)
  simp [Wrapping.call, word, assigned.single]

theorem maskAll_call : maskAll wrapping.call = wrapping.call := by
  have masked := assigned.fits.mask_call true []
  have none : Source.mask true [] = [] := List.length_eq_zero_iff.mp (Source.length_mask true [])
  rwa [none, List.append_nil] at masked

/-- Everything that the call holds is disclosed. -/
theorem calls_call : Calls wrapping.call [⟨0, wrapping.call.length - 1⟩] := by
  have call : wrapping.call = callOf [] wrapping.piece := by
    rw [Wrapping.call, assigned.word]
    rfl
  rw [call]
  exact calls_callOf assigned.balanced

theorem not_occursIn_call {param : String} (named : Named param) :
    (identifier param.toList).occursIn (withoutDisclosed wrapping.call) = false := by
  have balanced := wrapping.balanced_call assigned.balanced
    ⟨assigned.fits.not_mem_word (by decide), assigned.fits.not_mem_word (by decide)⟩
  obtain ⟨spans, calls, uses⟩ := exists_uses assigned.maskAll_call balanced
  obtain rfl := calls.unique assigned.calls_call
  rw [Bool.eq_false_iff, ne_eq, uses _ named.1 named.2]
  rintro ⟨k, occurs, outside⟩
  have positive := List.length_pos_iff.mpr named.1
  have inside := occurs.here.length_le
  rw [List.length_drop] at inside
  rcases outside _ List.mem_cons_self with front | behind
  · dsimp only at front
    omega
  · dsimp only at behind
    omega

end Assigned

end Places

section Moving

variable (assigned : Assigned wrapping name n)
include assigned

namespace Assigned

/-- Behind the operator of the assignment stands no part of another operator. -/
theorem next_plain : (maskAll wrapping.before)[wrapping.front.length]?.any (fun c => c == '=' || c == '>') = false := by
  obtain ⟨rest, behind⟩ := List.head?_eq_some_iff.mp assigned.fits.seated.ended
  have split : maskAll wrapping.before = maskAll wrapping.front ++ (wrapping.piece ++ ';' :: rest) := by
    rw [assigned.fits.masked_before, ← behind]
    rfl
  have length : (maskAll wrapping.front).length = wrapping.front.length := wrapping.length_front_masked
  rw [split, ← length, List.getElem?_append_right (Nat.le_refl _), Nat.sub_self, ← List.head?_eq_getElem?]
  exact head_append_semicolon assigned.plain rest

/-- Assignments stand where the wrapping has moved them. -/
theorem stores_place {name head : List Char} : Stores name head (maskAll wrapping.after) (wrapping.place m) ↔
    Stores name head (maskAll wrapping.before) m := by
  have seated := assigned.fits.seated
  have nextPlain := assigned.next_plain
  have semicolon := seated.before_rest
  rw [wrapping.length_front_masked] at semicolon
  rw [assigned.fits.masked_before] at nextPlain
  rw [assigned.fits.masked_after, assigned.fits.masked_before, ← Wrapping.place_masked]
  have stands_iff (setter : Setter name head) : StandsAt joins head wrapping.masked.after (wrapping.masked.place m) ↔
      StandsAt joins head wrapping.masked.before m :=
    seated.standsAt_place setter.ne_nil setter.not_mem_dropLast (setter.not_mem (by decide) (by decide))
      (setter.not_mem (by decide) (by decide)) (by decide) (by decide)
  have next (setter : Setter name head) := seated.next_place (n := m) setter.ne_nil setter.not_mem_dropLast
    (setter.not_mem (by decide) (by decide))
  constructor
  · rintro ⟨setter, stands, plain⟩
    have there := (stands_iff setter).mp stands
    refine ⟨setter, there, ?_⟩
    rw [List.head?_drop] at plain ⊢
    rcases next setter there.here with same | ⟨front, -⟩ | ⟨piece, -⟩
    · rwa [same] at plain
    · rw [front, wrapping.length_front_masked]
      exact nextPlain
    · rw [piece, wrapping.length_front_masked, semicolon]
      rfl
  · rintro ⟨setter, stands, plain⟩
    refine ⟨setter, (stands_iff setter).mpr stands, ?_⟩
    rw [List.head?_drop] at plain ⊢
    rcases next setter stands.here with same | ⟨-, front⟩ | ⟨-, -, piece⟩
    · rwa [same]
    · rw [front, Wrapping.masked, assigned.word]
      rfl
    · rw [piece]
      rfl

/-- A place that a semicolon parts from the assignment has the semicolon behind it and in front of the piece,
or lies behind the piece. -/
theorem parted_cases (parted : Parted (maskAll wrapping.before) n m) :
    (∃ s, m ≤ s ∧ s < wrapping.front.length ∧ (maskAll wrapping.before)[s]? = some ';') ∨
      wrapping.front.length + wrapping.piece.length < m := by
  obtain ⟨lead, head, split, rfl, -, setter, length⟩ := assigned.exists_beginning
  have inFront := assigned.lt_front
  rcases parted with behind | ahead
  · obtain ⟨s, above, below, here⟩ := Text.mem_slice_iff.mp behind
    refine .inr (Nat.lt_of_le_of_lt ?_ below)
    by_contra inside
    have whole : maskAll wrapping.before = lead ++ (head ++ wrapping.piece ++ maskAll wrapping.rest) := by
      have masked : maskAll wrapping.before = maskAll wrapping.front ++ (wrapping.piece ++ maskAll wrapping.rest) :=
        assigned.fits.masked_before
      rw [masked, split, List.append_assoc, List.append_assoc]
    have within : s - lead.length < (head ++ wrapping.piece).length := by
      rw [List.length_append]
      omega
    rw [whole, List.getElem?_append_right above, List.getElem?_append_left within] at here
    rcases List.mem_append.mp (List.mem_of_getElem? here) with inHead | inPiece
    · exact setter.not_mem (by decide) (by decide) inHead
    · exact assigned.single inPiece
  · obtain ⟨s, above, below, here⟩ := Text.mem_slice_iff.mp ahead
    exact .inl ⟨s, above, by omega, here⟩

/-- Behind another semicolon the same is stored as before. -/
theorem upToSemicolon_place {name head : List Char} (stores : Stores name head (maskAll wrapping.before) m)
    (parted : Parted (maskAll wrapping.before) n m) (below : m < high) :
    upToSemicolon (slice (maskAll wrapping.after) (wrapping.place m + head.length) (wrapping.place high)) =
      upToSemicolon (slice (maskAll wrapping.before) (m + head.length) high) := by
  have length := wrapping.length_front_masked
  have moved (distance first last : Nat)
      (each : ∀ k, first ≤ k → k < last → wrapping.place k = k + distance) :
      slice (maskAll wrapping.after) (first + distance) (last + distance) =
        slice (maskAll wrapping.before) first last := by
    rw [assigned.fits.masked_after, assigned.fits.masked_before]
    refine wrapping.masked.slice_place distance fun k above under => ?_
    rw [Wrapping.place_masked, each k above under]
  rcases assigned.parted_cases parted with ⟨s, above, front, here⟩ | behind
  · have kept {k : Nat} (under : k ≤ s) : wrapping.place k = k := Wrapping.place_front (by omega)
    have within : m + head.length ≤ s := by
      by_contra beyond
      have inside : s - m < head.length := by omega
      have char := Text.getElem?_of_standing stores.stands.here inside
      rw [Nat.add_sub_cancel' above, here, Option.some.injEq] at char
      exact stores.setter.not_mem (by decide) (by decide) (char ▸ List.getElem_mem inside)
    rw [kept above]
    rcases Nat.lt_or_ge s high with passes | ends
    · have there : (maskAll wrapping.after)[s]? = some ';' := by
        rw [assigned.fits.masked_before, ← wrapping.masked.getElem?_place, Wrapping.place_masked, kept (Nat.le_refl s),
          ← assigned.fits.masked_after] at here
        exact here
      have passesThere : s < wrapping.place high := Nat.lt_of_lt_of_le passes (Wrapping.le_place high)
      rw [upToSemicolon_slice there within passesThere, upToSemicolon_slice here within passes]
      exact congrArg upToSemicolon (moved 0 _ _ fun k _ under => kept (Nat.le_of_lt under))
    · rw [kept ends]
      exact congrArg upToSemicolon (moved 0 _ _ fun k _ under => kept (by omega))
  · have shifted {k : Nat} (above : m ≤ k) : wrapping.place k = k + (wrapping.word.length + 2) := by
      rw [Wrapping.place, if_neg (by omega), if_neg (by omega)]
    rw [shifted (Nat.le_refl m), shifted (Nat.le_of_lt below), Nat.add_right_comm]
    exact congrArg upToSemicolon (moved _ _ _ fun k above _ => shifted (by omega))

/-- What is stored behind another semicolon is stored where the wrapping has moved it. -/
theorem storedIn_place {name : List Char} (window : Window (maskAll wrapping.before) low high)
    (stored : StoredIn name (maskAll wrapping.before) low high m value)
    (parted : Parted (maskAll wrapping.before) n m) :
    StoredIn name (maskAll wrapping.after) (wrapping.place (low - 1) + 1) (wrapping.place high)
      (wrapping.place m) value := by
  have seated := assigned.fits.seated
  obtain ⟨⟨head, stores, rfl⟩, above, below, first⟩ := stored
  have positive := window.positive
  have before : low - 1 < m := by omega
  refine ⟨⟨head, assigned.stores_place.mpr stores, (assigned.upToSemicolon_place stores parted below).symm⟩,
    Wrapping.place_lt before, Wrapping.place_lt below, fun k aboveThere beforeThere earlier => ?_⟩
  obtain ⟨head', earlier⟩ := earlier
  obtain ⟨d, others, shape, ends, noParen⟩ := earlier.setter.exists_first
  have standing := earlier.stands
  rw [shape, assigned.fits.masked_after] at standing
  obtain ⟨j, rfl⟩ := seated.exists_place_of_standsAt earlier.setter.nonempty earlier.setter.letters ends
    (fun c letter => by rw [joins, letter, Bool.or_true]) (.inr noParen) standing
  rw [Wrapping.place_masked] at aboveThere beforeThere earlier ⊢
  have parts := first j (Nat.le_of_pred_lt (Wrapping.lt_of_place_lt aboveThere)) (Wrapping.lt_of_place_lt beforeThere)
    ⟨head', assigned.stores_place.mp earlier⟩
  rw [assigned.fits.masked_before] at parts
  have moved := (wrapping.masked.mem_slice_place ⟨seated.not_mem_word (by decide), by decide, by decide⟩).mpr parts
  rwa [Wrapping.place_masked, Wrapping.place_masked, ← assigned.fits.masked_after] at moved

theorem moved_mem (constructs : Constructs wrapping.before found parens block) (spares : Spares wrapping parens) :
    block.moved wrapping ∈ (Contract.scan wrapping.after).constructors := by
  obtain ⟨moved, among, -, -, read⟩ := Scanned.constructor_place assigned.fits assigned.balanced constructs.among
    constructs.parameters constructs.read spares
  exact List.mem_filterMap.mpr ⟨moved, among, read⟩

/-- What has been declared as a ledger field is still declared. -/
theorem exists_item (member : item ∈ (Contract.scan wrapping.before).declared.ledgerItems) :
    ∃ moved ∈ (Contract.scan wrapping.after).declared.ledgerItems, moved.name = item.name := by
  obtain ⟨found, among, rfl⟩ := List.mem_map.mp member
  have masked : found ∈ Contract.Forms.ledgerItem.matchesIn (maskAll wrapping.before) := among
  rw [assigned.fits.masked_before] at masked
  obtain ⟨moved, there, name⟩ := Contract.item_place assigned.fits.seated masked
  rw [← assigned.fits.masked_after] at there
  exact ⟨_, List.mem_map.mpr ⟨moved, there, rfl⟩, congrArg String.ofList name⟩

/-- The parameters of a constructor stand in front of its body. -/
theorem spares (holds : Holds wrapping name n block) (constructs : Constructs wrapping.before found parens block) :
    Spares wrapping parens := by
  obtain ⟨parens', brace, parameters, start, le, -, -⟩ :=
    @Scanned.paired_of_bodyOf? _ _ _ .constructor constructs.among constructs.read
  obtain rfl := Option.some.inj (constructs.parameters.symm.trans parameters)
  have above := holds.above
  have inFront := assigned.lt_front
  exact .inl (by omega)

/-- The assignment is reported for a constructor exactly if it stores a parameter that is not disclosed. -/
theorem exists_reports_iff (member : block ∈ (Contract.scan wrapping.before).constructors)
    (holds : Holds wrapping name n block) {names : List String}
    (declared : List.Forall₂ Declares block.params names) (named : Named item.name) (same : item.name.toList = name) :
    ∃ spans, Calls wrapping.piece spans ∧
      ((∃ issue, Reports (Contract.scan wrapping.before) block item n issue) ↔ Exposes names spans wrapping.piece) := by
  have masked : maskAll wrapping.before = maskAll wrapping.front ++ (wrapping.piece ++ maskAll wrapping.rest) :=
    assigned.fits.masked_before
  obtain ⟨head, stores, value⟩ := assigned.exists_stores assigned.single assigned.plain
  rw [← masked] at stores value
  have inFront := assigned.lt_front
  have inBody := holds.below
  have stored : StoredIn name (maskAll wrapping.before) block.bodyStart block.bodyEnd n wrapping.piece :=
    ⟨⟨head, stores, (value _ holds.below).symm⟩, holds.above, by omega, holds.first⟩
  obtain ⟨spans, calls, uses⟩ := exists_uses assigned.shown assigned.balanced
  refine ⟨spans, calls, ?_⟩
  have used : (firstUsed? names (withoutDisclosed wrapping.piece)).isSome ↔ Exposes names spans wrapping.piece := by
    rw [firstUsed?_isSome_iff]
    exact exists_congr fun param => and_congr_right fun among =>
      uses _ (named_of_declared declared param among).1 (named_of_declared declared param among).2
  simp only [reports_iff member named, paramNames_eq declared, ← used, Option.isSome_iff_exists, same]
  constructor
  · rintro ⟨issue, other, storedThere, reported⟩
    obtain ⟨param, first, -⟩ := Option.map_eq_some_iff.mp reported
    rw [storedThere.value_eq stores, value _ holds.below] at first
    exact ⟨param, first⟩
  · rintro ⟨param, first⟩
    exact ⟨_, _, stored, by rw [first]; rfl⟩

/-- Once it is disclosed, the assignment is not reported. -/
theorem not_reported (holds : Holds wrapping name n block)
    (member : block.moved wrapping ∈ (Contract.scan wrapping.after).constructors) {names : List String}
    (declared : List.Forall₂ Declares block.params names) (named : Named item.name) (same : item.name.toList = name) :
    ¬Reports (Contract.scan wrapping.after) (block.moved wrapping) item n issue := by
  have masked : maskAll wrapping.after = maskAll wrapping.front ++ (wrapping.call ++ maskAll wrapping.rest) :=
    assigned.fits.masked_after
  have plain : wrapping.call.head?.any (fun c => c == '=' || c == '>') = false := by
    rw [Wrapping.call, assigned.word]
    rfl
  obtain ⟨head, stores, value⟩ := assigned.exists_stores assigned.not_semicolon plain
  rw [← masked] at stores value
  have below : wrapping.front.length + wrapping.call.length < (block.moved wrapping).bodyEnd := by
    have below := holds.below
    change _ < wrapping.place block.bodyEnd
    rw [Wrapping.length_call, Wrapping.place, if_neg (by omega), if_neg (by omega)]
    omega
  rw [reports_iff member named, same]
  rintro ⟨other, storedThere, reported⟩
  obtain ⟨param, first, -⟩ := Option.map_eq_some_iff.mp reported
  have among : param ∈ names := by
    have found := List.mem_of_find?_eq_some first
    rwa [← paramNames_eq declared]
  have used := List.find?_some first
  rw [storedThere.value_eq stores, value _ below,
    assigned.not_occursIn_call (named_of_declared declared param among)] at used
  contradiction

/-- What is reported behind another semicolon is reported where the wrapping has moved it. -/
theorem reports_place (constructs : Constructs wrapping.before found parens block) (spares : Spares wrapping parens)
    (member : item ∈ (Contract.scan wrapping.before).declared.ledgerItems)
    (parted : Parted (maskAll wrapping.before) n m)
    (reported : Reports (Contract.scan wrapping.before) block item m issue) :
    ∃ moved ∈ (Contract.scan wrapping.after).declared.ledgerItems, moved.name = item.name ∧
      Reports (Contract.scan wrapping.after) (block.moved wrapping) moved (wrapping.place m) issue := by
  obtain ⟨value, stored, named⟩ := (reports_iff constructs.mem (named_ledgerItem member)).mp reported
  obtain ⟨moved, declared, same⟩ := assigned.exists_item member
  have storedThere := assigned.storedIn_place (window_of_mem constructs.mem) stored parted
  have issues (param : String) : storeIssue (Contract.scan wrapping.after) moved (wrapping.place m) param =
      storeIssue (Contract.scan wrapping.before) item m param := by
    have line := Scanned.lineOf_place assigned.fits m
    rw [storeIssue, storeIssue, same]
    congr 1
  refine ⟨moved, declared, same, (reports_iff (assigned.moved_mem constructs spares) (named_ledgerItem declared)).mpr
    ⟨value, same ▸ storedThere, ?_⟩⟩
  rw [← named]
  exact congrArg (Option.map · _) (funext issues)

end Assigned

end Moving

/-- Disclosing what is assigned to a ledger field silences the assignment. It was reported for a constructor
exactly if it stored one of its parameters outside of what is disclosed, it is not reported any more, and
the issues of assignments that a semicolon parts from it stay the same, for all constructors among whose
parameters the disclosed text does not stand. -/
theorem disclosing_silences (assigned : Assigned wrapping name n) :
    let before := Contract.scan wrapping.before
    let after := Contract.scan wrapping.after
    (∀ scan ∈ [before, after], ∀ issue, issue ∈ (detect scan).filter (·.kind = .undisclosedConstructorParam) ↔
      ∃ block ∈ scan.constructors, ∃ item ∈ scan.declared.ledgerItems, ∃ n, Reports scan block item n issue) ∧
    (∀ block ∈ before.constructors, Holds wrapping name n block →
      ∀ names, List.Forall₂ Declares block.params names →
        (∀ item ∈ before.declared.ledgerItems, item.name.toList = name →
          ∃ spans, Calls wrapping.piece spans ∧
            ((∃ issue, Reports before block item n issue) ↔ Exposes names spans wrapping.piece)) ∧
        block.moved wrapping ∈ after.constructors ∧
        ∀ item ∈ after.declared.ledgerItems, item.name.toList = name →
          ∀ issue, ¬Reports after (block.moved wrapping) item n issue) ∧
      ∀ found parens block, Constructs wrapping.before found parens block → Spares wrapping parens →
        block.moved wrapping ∈ after.constructors ∧
        ∀ item ∈ before.declared.ledgerItems, ∀ m issue, Parted (maskAll wrapping.before) n m →
          Reports before block item m issue → ∃ moved ∈ after.declared.ledgerItems, moved.name = item.name ∧
            Reports after (block.moved wrapping) moved (wrapping.place m) issue := by
  intro before after
  refine ⟨fun scan _ issue => mem_filter_detect_iff, ?_, ?_⟩
  · intro block member holds names declared
    obtain ⟨found, parens, constructs⟩ := exists_constructs member
    have there := assigned.moved_mem constructs (assigned.spares holds constructs)
    refine ⟨fun item field same => ?_, there, fun item field same issue => ?_⟩
    · exact assigned.exists_reports_iff member holds declared (named_ledgerItem field) same
    · exact assigned.not_reported holds there declared (named_ledgerItem field) same
  · intro found parens block constructs spares
    refine ⟨assigned.moved_mem constructs spares, fun item field m issue parted reported => ?_⟩
    exact assigned.reports_place constructs spares field parted reported

section Instances

theorem Stores.first_char (stores : Stores name head text n) : text[n]? = name.head? := by
  obtain ⟨d, others, shape, -, -⟩ := stores.setter.exists_first
  obtain ⟨c, letters, rfl⟩ := List.exists_cons_of_ne_nil stores.setter.nonempty
  have here := @Text.getElem?_of_standing _ _ _ 0 stores.stands.here (by simp [shape])
  simpa [shape] using here

theorem setter_spaced : Setter ['f'] ['f', ' ', '='] :=
  ⟨⟨[' '], ['='], rfl, by decide, by decide⟩, by decide, by decide⟩

/-- Two fields, each of which is assigned a parameter. -/
def twoFields : Wrapping where
  front := "ledger f: A; ledger g: A; constructor(a: A, b: B) \x7b f =".toList
  piece := " a".toList
  rest := "; g = b; \x7d".toList
  word := "disclose".toList

theorem assigned_twoFields : Assigned twoFields ['f'] 52 where
  word := rfl
  begins := ⟨"ledger f: A; ledger g: A; constructor(a: A, b: B) \x7b ".toList, _,
    (Source.maskAll_plain (by decide)).trans (by decide +kernel), by decide, by decide, setter_spaced⟩
  ended := by decide
  single := by decide
  shown := Source.maskAll_plain (by decide)
  quoteless := by decide
  plain := by decide
  balanced := Source.balanced_of_free (by decide)

/-- The first assignment is reported, and once it is disclosed, only the second one is. -/
theorem disclosing_silences_first :
    let block : CodeBlock := ⟨.constructor, "constructor", ["a: A", "b: B"], false, 1, 51, 66⟩
    let f : LedgerItem := ⟨"f", "A", false, false, 1⟩
    let g : LedgerItem := ⟨"g", "A", false, false, 1⟩
    Assigned twoFields ['f'] 52 ∧ block ∈ (Contract.scan twoFields.before).constructors ∧
      (∃ issue, Reports (Contract.scan twoFields.before) block f 52 issue) ∧
      (∀ issue, ¬Reports (Contract.scan twoFields.after) (block.moved twoFields) f 52 issue) ∧
      ∃ moved ∈ (Contract.scan twoFields.after).declared.ledgerItems, moved.name = g.name ∧
        Reports (Contract.scan twoFields.after) (block.moved twoFields) moved 69
          (storeIssue (Contract.scan twoFields.before) g 59 "b") := by
  intro block f g
  obtain ⟨-, silenced, kept⟩ := disclosing_silences assigned_twoFields
  have member : block ∈ (Contract.scan twoFields.before).constructors := by decide +kernel
  have fields : (Contract.scan twoFields.before).declared.ledgerItems = [f, g] := by decide +kernel
  have first : f ∈ (Contract.scan twoFields.before).declared.ledgerItems := fields ▸ List.mem_cons_self
  have second : g ∈ (Contract.scan twoFields.before).declared.ledgerItems :=
    fields ▸ List.mem_cons_of_mem f List.mem_cons_self
  have still : f ∈ (Contract.scan twoFields.after).declared.ledgerItems := by decide +kernel
  have masked : maskAll twoFields.before = twoFields.before := Source.maskAll_plain (by decide)
  have holds : Holds twoFields ['f'] 52 block := by
    refine ⟨by decide, by decide, fun m above below earlier => ?_⟩
    obtain ⟨head, stores⟩ := earlier
    obtain rfl : m = 51 := Nat.le_antisymm (Nat.le_of_lt_succ below) above
    rw [masked] at stores
    exact absurd stores.first_char (by decide)
  have declared : List.Forall₂ Declares block.params ["a", "b"] :=
    .cons ⟨⟨by decide, by decide⟩, [], [], " A".toList, by decide, nofun, nofun⟩
      (.cons ⟨⟨by decide, by decide⟩, [], [], " B".toList, by decide, nofun, nofun⟩ .nil)
  obtain ⟨reported, -, silent⟩ := silenced block member holds _ declared
  have named : f.name.toList = ['f'] := by decide
  obtain ⟨spans, calls, exactly⟩ := reported f first named
  have undisclosed : ∀ n, ¬OpensAt twoFields.piece n := fun n opens => absurd opens.longer (by decide)
  obtain rfl := calls.unique (.none undisclosed)
  have exposed : Exposes ["a", "b"] [] twoFields.piece :=
    ⟨"a", by decide, 1, ⟨by decide, rfl, rfl⟩, nofun⟩
  obtain ⟨found, parens, constructs⟩ := exists_constructs member
  have parted : Parted (maskAll twoFields.before) 52 59 := by
    rw [masked]
    exact .inl (by decide)
  have reportedSecond : Reports (Contract.scan twoFields.before) block g 59
      (storeIssue (Contract.scan twoFields.before) g 59 "b") := by
    unfold Reports
    decide +kernel
  have spares := assigned_twoFields.spares holds constructs
  exact ⟨assigned_twoFields, member, exactly.mpr exposed, silent f still named,
    (kept found parens block constructs spares).2 g second 59 _ parted reportedSecond⟩

/-- An assignment that stands among the parameters of a constructor inside of another one. -/
def nested : Wrapping where
  front := "ledger f: A; ledger g: A; constructor(a: A) \x7b constructor(b: f =".toList
  piece := " a, c: T".toList
  rest := ";) \x7b g = c; \x7d \x7d".toList
  word := "disclose".toList

/-- Disclosing what is assigned among the parameters of a constructor takes some of the parameters away, and with
them an issue behind another semicolon. -/
theorem lost_nested :
    let outer : CodeBlock := ⟨.constructor, "constructor", ["a: A"], false, 1, 45, 86⟩
    let inner : CodeBlock := ⟨.constructor, "constructor", ["b: f = a", "c: T;"], false, 1, 76, 84⟩
    let f : LedgerItem := ⟨"f", "A", false, false, 1⟩
    let g : LedgerItem := ⟨"g", "A", false, false, 1⟩
    Assigned nested ['f'] 61 ∧ f ∈ (Contract.scan nested.before).declared.ledgerItems ∧
      outer ∈ (Contract.scan nested.before).constructors ∧ Holds nested ['f'] 61 outer ∧
      List.Forall₂ Declares outer.params ["a"] ∧
      inner ∈ (Contract.scan nested.before).constructors ∧
      g ∈ (Contract.scan nested.before).declared.ledgerItems ∧ Parted (maskAll nested.before) 61 77 ∧
      Reports (Contract.scan nested.before) inner g 77 (storeIssue (Contract.scan nested.before) g 77 "c") ∧
      undisclosedConstructorParam (Contract.scan nested.after) = [] := by
  intro outer inner f g
  have assigned : Assigned nested ['f'] 61 := {
    word := rfl
    begins := ⟨"ledger f: A; ledger g: A; constructor(a: A) \x7b constructor(b: ".toList, _,
      (Source.maskAll_plain (by decide)).trans (by decide +kernel), by decide, by decide, setter_spaced⟩
    ended := by decide
    single := by decide
    shown := Source.maskAll_plain (by decide)
    quoteless := by decide
    plain := by decide
    balanced := Source.balanced_of_free (by decide) }
  have masked : maskAll nested.before = nested.before := Source.maskAll_plain (by decide)
  have elsewhere : ∀ m < 61, 45 ≤ m → nested.before[m]? ≠ some 'f' := by decide +kernel
  have holds : Holds nested ['f'] 61 outer := by
    refine ⟨by decide, by decide, fun m above below earlier => ?_⟩
    obtain ⟨head, stores⟩ := earlier
    rw [masked] at stores
    exact absurd stores.first_char (elsewhere m below above)
  have declared : List.Forall₂ Declares outer.params ["a"] :=
    .cons ⟨⟨by decide, by decide⟩, [], [], " A".toList, by decide, nofun, nofun⟩ .nil
  have parted : Parted (maskAll nested.before) 61 77 := by
    rw [masked]
    exact .inl (by decide)
  have reported : Reports (Contract.scan nested.before) inner g 77
      (storeIssue (Contract.scan nested.before) g 77 "c") := by
    unfold Reports
    decide +kernel
  have fields : (Contract.scan nested.before).declared.ledgerItems = [f, g] := by decide +kernel
  have constructors : (Contract.scan nested.before).constructors = [outer, inner] := by decide +kernel
  rw [fields, constructors]
  exact ⟨assigned, by simp, by simp, holds, declared, by simp, by simp, parted, reported, by decide +kernel⟩

end Instances

end ContractInspector.Issue
