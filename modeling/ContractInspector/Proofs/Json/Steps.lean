import ContractInspector.Proofs.Json.Characters
import ContractInspector.Proofs.Json.Numbers

/-! What the readers of JSON texts do with blanks, words, and the ends of containers. A member of an object
is an element of it, as an item is one of an array; the `cases_` lemmas say what a reader has met when it
succeeds, the others what it does when it meets that. -/
namespace ContractInspector.Json

open Text (Cursor)

variable {cursor reached : Cursor} {text rest gap : List Char} {fuel depth : Nat}

section Gaps

theorem rest_skipOnto (holds : Char → Bool) (before : Option Char) (text : List Char) (offset : Nat) :
    (Cursor.skipOnto holds before text offset).rest = text.dropWhile holds := by
  induction text generalizing before offset with
  | nil => rfl
  | cons c text ih =>
    rw [Cursor.skipOnto, List.dropWhile_cons]
    split
    · exact ih (some c) (offset + 1)
    · rfl

theorem rest_skipSpace (cursor : Cursor) :
    (skipSpace cursor).rest = cursor.rest.dropWhile isSpace :=
  rest_skipOnto isSpace cursor.before cursor.rest cursor.offset

theorem exists_gap (cursor : Cursor) :
    ∃ gap, IsGap gap ∧ cursor.rest = gap ++ (skipSpace cursor).rest := by
  refine ⟨cursor.rest.takeWhile isSpace, (Text.spans_takeWhile isSpace cursor.rest).inside, ?_⟩
  rw [rest_skipSpace, List.takeWhile_append_dropWhile]

/-- All blanks are skipped that stand in front of something else. -/
theorem rest_skipSpace_gap (isGap : IsGap gap) (here : cursor.rest = gap ++ rest)
    (visible : ∀ c ∈ rest.head?, isSpace c = false) : (skipSpace cursor).rest = rest := by
  have spans : Text.Spans isSpace gap rest := ⟨isGap, visible⟩
  rw [rest_skipSpace, here, spans.dropWhile]

end Gaps

section Atoms

theorem skip?_iff {part : List Char} : (∃ reached, cursor.skip? part = some reached ∧ reached.rest = rest) ↔
    cursor.rest = part ++ rest := by
  induction part generalizing cursor with
  | nil => simp [Cursor.skip?]
  | cons c part ih =>
    rw [Cursor.skip?]
    cases here : cursor.rest with
    | nil => simp
    | cons d others =>
      dsimp only
      by_cases same : c = d
      · rw [if_pos same, ih, same]
        simp
      · rw [if_neg same]
        simp [Ne.symm same]

/-- A number could start here. -/
def startsNumber : List Char → Bool
  | '-' :: c :: _ => isAsciiDigit c
  | c :: _ => isAsciiDigit c
  | [] => false

theorem IsNumber.start {dialect : Dialect} (isNumber : IsNumber dialect text) :
    ∃ sign c others, (sign = [] ∨ sign = ['-']) ∧ isAsciiDigit c = true ∧ text = sign ++ c :: others := by
  obtain ⟨isSign, isWhole, -, -, -⟩ := isNumber
  obtain ⟨c, others, rfl⟩ := List.exists_cons_of_ne_nil isWhole.nonempty
  exact ⟨_, c, _, isSign, isWhole.digits c List.mem_cons_self, rfl⟩

theorem startsNumber_number {dialect : Dialect} (isNumber : IsNumber dialect text) (rest : List Char) :
    startsNumber (text ++ rest) = true := by
  obtain ⟨sign, c, others, isSign, digit, rfl⟩ := isNumber.start
  rcases isSign with rfl | rfl
  · change startsNumber (c :: (others ++ rest)) = true
    unfold startsNumber
    split
    next same =>
      obtain ⟨rfl, -⟩ := List.cons.inj same
      contradiction
    next same =>
      obtain ⟨rfl, -⟩ := List.cons.inj same
      exact digit
    next none => contradiction
  · exact digit

theorem startsNumber_word {word : String} (known : word ∈ Dialect.readable.words) (rest : List Char) :
    startsNumber (word.toList ++ rest) = false := by
  simp [Dialect.readable] at known
  rcases known with rfl | rfl | rfl | rfl | rfl | rfl <;> rfl

theorem known_of_mem {word : String} {value : Value} (member : (word, value) ∈ words) :
    word ∈ Dialect.readable.words :=
  (List.mem_map.mpr ⟨_, member, rfl⟩ : word ∈ words.map Prod.fst)

theorem sound_readAtom : Sound readAtom (Spells .readable depth .value) := by
  intro cursor value reached read
  rw [readAtom] at read
  split at read
  next found =>
    obtain ⟨rfl⟩ := read
    obtain ⟨⟨word, meaning⟩, member, passes⟩ := List.exists_of_findSome?_eq_some found
    obtain ⟨behind, skipped, same⟩ := Option.map_eq_some_iff.mp passes
    obtain ⟨rfl, rfl⟩ := Prod.mk.inj same
    exact ⟨word.toList, .word (known_of_mem member), skip?_iff.mp ⟨behind, skipped, rfl⟩⟩
  next =>
    obtain ⟨text, isNumber, here⟩ := sound_readNumber cursor value reached read
    exact ⟨text, .number isNumber, here⟩

theorem takes_word {word : String} (known : word ∈ Dialect.readable.words) : Takes readAtom word.toList := by
  intro cursor rest here _
  obtain ⟨before, text, offset⟩ := cursor
  cases here
  simp [Dialect.readable] at known
  rcases known with rfl | rfl | rfl | rfl | rfl | rfl
  all_goals exact ⟨_, _, rfl, rfl⟩

theorem takes_readAtom (isNumber : IsNumber .readable text) : Takes readAtom text := by
  intro cursor rest here ends
  rw [readAtom]
  split
  next found =>
    -- what a number starts with, no word starts with
    obtain ⟨⟨word, meaning⟩, member, passes⟩ := List.exists_of_findSome?_eq_some found
    obtain ⟨behind, skipped, -⟩ := Option.map_eq_some_iff.mp passes
    have same := here.symm.trans (skip?_iff.mp ⟨behind, skipped, rfl⟩)
    have number := startsNumber_number isNumber rest
    rw [same, startsNumber_word (known_of_mem member)] at number
    contradiction
  next => exact takes_number isNumber cursor rest here ends

end Atoms

section Containers

/-- What is left starts with one character. -/
theorem starts_once {left one two : List Char} {c d : Char} (here : left = c :: one) (same : left = d :: two) :
    c = d ∧ one = two :=
  List.cons.inj (here.symm.trans same)

/-- What the reader makes of an element. -/
abbrev Container.Element : Container → Type
  | array => Value
  | object => Text.Wide × Value

def Container.empty : Container → Value
  | array => .array []
  | object => .object []

/-- A member of an object. -/
def readMember (fuel depth : Nat) (cursor : Cursor) : Read (Text.Wide × Value) :=
  match cursor.rest with
  | '"' :: rest =>
    match readCharacters cursor.offset rest (cursor.offset + 1) [] with
    | .error fault => .error fault
    | .ok (name, reached) =>
      let reached := skipSpace reached
      match reached.rest with
      | ':' :: rest =>
        (readValue fuel depth (skipSpace (reached.advance ':' rest 1))).map fun (value, reached) =>
          ((name, value), reached)
      | _ => .error (.malformed .colon reached.offset)
  | _ => .error (.malformed .name cursor.offset)

theorem readMember_eq {name : Text.Wide} {after : List Char} (here : cursor.rest = '"' :: rest)
    (named : readCharacters cursor.offset rest (cursor.offset + 1) [] = .ok (name, reached))
    (colon : (skipSpace reached).rest = ':' :: after) : readMember fuel depth cursor =
      (readValue fuel depth (skipSpace ((skipSpace reached).advance ':' after 1))).map
        fun (value, reached) => ((name, value), reached) := by
  unfold readMember
  split
  next rest same =>
    obtain rfl := (starts_once here same).2
    rw [named]
    dsimp only
    split
    next same =>
      obtain rfl := (starts_once colon same).2
      rfl
    next other => exact absurd colon (other _)
  next other => exact absurd here (other _)

theorem cases_readMember {member : Text.Wide × Value}
    (read : readMember fuel depth cursor = .ok (member, reached)) :
    ∃ rest behind after, cursor.rest = '"' :: rest ∧
      readCharacters cursor.offset rest (cursor.offset + 1) [] = .ok (member.1, behind) ∧
      (skipSpace behind).rest = ':' :: after ∧
      readValue fuel depth (skipSpace ((skipSpace behind).advance ':' after 1)) =
        .ok (member.2, reached) := by
  unfold readMember at read
  split at read
  next rest here =>
    split at read
    next => contradiction
    next name behind named =>
      dsimp only at read
      split at read
      next after colon =>
        cases valued : readValue fuel depth (skipSpace ((skipSpace behind).advance ':' after 1)) with
        | error fault =>
          rw [valued] at read
          contradiction
        | ok found =>
          rw [valued] at read
          obtain ⟨rfl, rfl⟩ := Prod.mk.inj (Except.ok.inj read)
          exact ⟨rest, behind, after, here, named, colon, valued⟩
      next => contradiction
  next => contradiction

theorem readMembers_eq {member : Text.Wide × Value}
    (read : readMember fuel depth cursor = .ok (member, reached)) (members : List (Text.Wide × Value)) :
    readMembers (fuel + 1) depth cursor members =
      match (skipSpace reached).rest with
      | '}' :: rest =>
        .ok (Value.ofMembers (member :: members).reverse, (skipSpace reached).advance '}' rest 1)
      | ',' :: rest =>
        readMembers fuel depth (skipSpace ((skipSpace reached).advance ',' rest 1)) (member :: members)
      | _ => .error (.malformed .comma (skipSpace reached).offset) := by
  obtain ⟨rest, behind, after, here, named, colon, valued⟩ := cases_readMember read
  rw [readMembers]
  split
  next same =>
    obtain rfl := (starts_once here same).2
    rw [named]
    dsimp only
    split
    next same =>
      obtain rfl := (starts_once colon same).2
      rewrite [valued]
      rfl
    next other => exact absurd colon (other _)
  next other => exact absurd here (other _)

def readElement (fuel depth : Nat) : (container : Container) → Cursor → Read container.Element
  | .array => readValue fuel depth
  | .object => readMember fuel depth

/-- The elements of a container from the next one on. -/
def readElements (fuel depth : Nat) : (container : Container) → List container.Element → Cursor → Read Value
  | .array => fun items cursor => readItems fuel depth cursor items
  | .object => fun members cursor => readMembers fuel depth cursor members

variable {container : Container} {elements : List container.Element} {value : Value}

theorem cases_readElements
    (read : readElements (fuel + 1) depth container elements cursor = .ok (value, reached)) :
    ∃ element behind, readElement fuel depth container cursor = .ok (element, behind) ∧
      ((skipSpace behind).rest = container.closing :: reached.rest ∨
        ∃ rest, (skipSpace behind).rest = ',' :: rest ∧
          readElements fuel depth container (element :: elements)
            (skipSpace ((skipSpace behind).advance ',' rest 1)) = .ok (value, reached)) := by
  cases container with
  | array =>
    change readItems _ _ _ _ = _ at read
    rw [readItems] at read
    split at read
    next => contradiction
    next item behind found =>
      refine ⟨item, behind, found, ?_⟩
      dsimp only at read
      split at read
      next rest here =>
        obtain ⟨-, rfl⟩ := Prod.mk.inj (Except.ok.inj read)
        exact .inl here
      next rest here => exact .inr ⟨rest, here, read⟩
      next => contradiction
  | object =>
    change readMembers _ _ _ _ = _ at read
    rw [readMembers] at read
    split at read
    next rest here =>
      split at read
      next => contradiction
      next name behind named =>
        dsimp only at read
        split at read
        next after colon =>
          split at read
          next => contradiction
          next value behind valued =>
            refine ⟨(name, value), behind, ?_, ?_⟩
            · exact (readMember_eq here named colon).trans (by rw [valued]; rfl)
            · split at read
              next rest here =>
                obtain ⟨-, rfl⟩ := Prod.mk.inj (Except.ok.inj read)
                exact .inl here
              next rest here => exact .inr ⟨rest, here, read⟩
              next => contradiction
        next => contradiction
    next => contradiction

/-- The last element of a container is followed by its end. -/
theorem readElements_last {element : container.Element} {behind : Cursor}
    (read : readElement fuel depth container cursor = .ok (element, behind))
    (closes : (skipSpace behind).rest = container.closing :: rest) :
    ∃ value reached, readElements (fuel + 1) depth container elements cursor = .ok (value, reached) ∧
      reached.rest = rest := by
  cases container with
  | array =>
    change ∃ value reached, readItems _ _ _ _ = _ ∧ _
    rw [readItems, show readValue fuel depth cursor = _ from read]
    dsimp only
    split
    next same => exact ⟨_, _, rfl, (starts_once same closes).2⟩
    next same => exact absurd (starts_once same closes).1 (by decide)
    next other _ => exact absurd closes (other _)
  | object =>
    change ∃ value reached, readMembers _ _ _ _ = _ ∧ _
    rw [readMembers_eq read]
    split
    next same => exact ⟨_, _, rfl, (starts_once same closes).2⟩
    next same => exact absurd (starts_once same closes).1 (by decide)
    next other _ => exact absurd closes (other _)

theorem readElements_more {element : container.Element} {behind : Cursor}
    (read : readElement fuel depth container cursor = .ok (element, behind))
    (comma : (skipSpace behind).rest = ',' :: rest) :
    readElements (fuel + 1) depth container elements cursor =
      readElements fuel depth container (element :: elements)
        (skipSpace ((skipSpace behind).advance ',' rest 1)) := by
  cases container with
  | array =>
    change readItems _ _ _ _ = _
    rw [readItems, show readValue fuel depth cursor = _ from read]
    dsimp only
    split
    next same => exact absurd (starts_once same comma).1 (by decide)
    next same =>
      obtain rfl := (starts_once same comma).2
      rfl
    next _ other => exact absurd comma (other _)
  | object =>
    change readMembers _ _ _ _ = _
    rw [readMembers_eq read]
    split
    next same => exact absurd (starts_once same comma).1 (by decide)
    next same =>
      obtain rfl := (starts_once same comma).2
      rfl
    next _ other => exact absurd comma (other _)

/-- What a value that is read starts with. -/
theorem cases_readValue (read : readValue (fuel + 1) depth cursor = .ok (value, reached)) :
    (∃ rest text, cursor.rest = '"' :: rest ∧
        readCharacters cursor.offset rest (cursor.offset + 1) [] = .ok (text, reached)) ∨
      (∃ container rest inside, depth = inside + 1 ∧ cursor.rest = container.opening :: rest ∧
        ((skipSpace (cursor.advance container.opening rest 1)).rest =
            container.closing :: reached.rest ∨
          readElements fuel inside container [] (skipSpace (cursor.advance container.opening rest 1)) =
            .ok (value, reached))) ∨
      readAtom cursor = .ok (value, reached) := by
  rw [readValue] at read
  split at read
  next rest here =>
    cases named : readCharacters cursor.offset rest (cursor.offset + 1) [] with
    | error fault =>
      rw [named] at read
      contradiction
    | ok found =>
      rw [named] at read
      obtain ⟨-, rfl⟩ := Prod.mk.inj (Except.ok.inj read)
      exact .inl ⟨rest, found.1, here, named⟩
  next rest here =>
    split at read
    next => contradiction
    next positive =>
      refine .inr (.inl ⟨.array, rest, depth - 1, (Nat.succ_pred positive).symm, here, ?_⟩)
      dsimp only at read
      split at read
      next after closes =>
        obtain ⟨-, rfl⟩ := Prod.mk.inj (Except.ok.inj read)
        exact .inl closes
      next => exact .inr read
  next rest here =>
    split at read
    next => contradiction
    next positive =>
      refine .inr (.inl ⟨.object, rest, depth - 1, (Nat.succ_pred positive).symm, here, ?_⟩)
      dsimp only at read
      split at read
      next after closes =>
        obtain ⟨-, rfl⟩ := Prod.mk.inj (Except.ok.inj read)
        exact .inl closes
      next => exact .inr read
  next => exact .inr (.inr read)

theorem readValue_text {text : Text.Wide} (here : cursor.rest = '"' :: rest)
    (read : readCharacters cursor.offset rest (cursor.offset + 1) [] = .ok (text, reached)) :
    readValue (fuel + 1) depth cursor = .ok (.text text, reached) := by
  rw [readValue]
  split
  next same =>
    obtain rfl := (starts_once here same).2
    rw [read]
    rfl
  next same => exact absurd (starts_once here same).1 (by decide)
  next same => exact absurd (starts_once here same).1 (by decide)
  next other _ _ => exact absurd here (other _)

/-- A container is empty or has elements. -/
theorem readValue_container (here : cursor.rest = container.opening :: rest) :
    readValue (fuel + 1) (depth + 1) cursor =
      let first := skipSpace (cursor.advance container.opening rest 1)
      if first.rest.head? = some container.closing then
        .ok (container.empty, first.advance container.closing first.rest.tail 1)
      else readElements fuel depth container [] first := by
  cases container with
  | array =>
    rw [readValue]
    split
    next same => exact absurd (starts_once here same).1 (by decide)
    next same =>
      obtain rfl := (starts_once here same).2
      rw [if_neg (Nat.succ_ne_zero depth)]
      dsimp only
      split
      next closes => simp [Container.opening, Container.closing, Container.empty, closes]
      next other =>
        rw [if_neg]
        · rfl
        · intro closes
          obtain ⟨after, closes⟩ := List.head?_eq_some_iff.mp closes
          exact other after closes
    next same => exact absurd (starts_once here same).1 (by decide)
    next _ other _ => exact absurd here (other _)
  | object =>
    rw [readValue]
    split
    next same => exact absurd (starts_once here same).1 (by decide)
    next same => exact absurd (starts_once here same).1 (by decide)
    next same =>
      obtain rfl := (starts_once here same).2
      rw [if_neg (Nat.succ_ne_zero depth)]
      dsimp only
      split
      next closes => simp [Container.opening, Container.closing, Container.empty, closes]
      next other =>
        rw [if_neg]
        · rfl
        · intro closes
          obtain ⟨after, closes⟩ := List.head?_eq_some_iff.mp closes
          exact other after closes
    next _ _ other => exact absurd here (other _)

/-- Anything else is a word or a number. -/
theorem readValue_atom (other : ∀ c ∈ cursor.rest.head?, c ≠ '"' ∧ c ≠ '[' ∧ c ≠ '{') :
    readValue (fuel + 1) depth cursor = readAtom cursor := by
  rw [readValue]
  split
  next here => exact absurd rfl (other '"' (by rw [here]; rfl)).1
  next here => exact absurd rfl (other '[' (by rw [here]; rfl)).2.1
  next here => exact absurd rfl (other '{' (by rw [here]; rfl)).2.2
  next => rfl

end Containers

end ContractInspector.Json
