import ContractInspector.Proofs.Issue.Assigning
import ContractInspector.Proofs.Text.Standing

/-! What assignments store. An assignment stores what stands behind its operator, up to the next semicolon, so
the first one behind a semicolon is found. The assignments found in a body are read off the text around it
(`exists_match_iff`). -/
namespace ContractInspector.Issue

open Text (Match Pattern StandsAt isBlank isWord placeAt slice)

variable {name head text value : List Char} {c : Char} {low high n m : Nat} {found : Match}

/-- The beginning of an assignment: a name, blanks and an operator. -/
structure Setter (name head : List Char) : Prop where
  split : ∃ gap operator, head = name ++ (gap ++ operator) ∧ (∀ c ∈ gap, isBlank c = true) ∧
    operator ∈ operators
  nonempty : name ≠ []
  letters : ∀ c ∈ name, isWord c = true

/-- An assignment to a name stands at an offset of a text, with its beginning. -/
structure Stores (name head text : List Char) (n : Nat) : Prop where
  setter : Setter name head
  stands : StandsAt joins head text n
  plain : (text.drop (n + head.length)).head?.any (fun c => c == '=' || c == '>') = false

/-- A text up to its first semicolon. -/
def upToSemicolon (text : List Char) : List Char :=
  text.takeWhile (· ≠ ';')

/-- A part of a text between two braces. -/
structure Window (text : List Char) (low high : Nat) : Prop where
  positive : 1 ≤ low
  ordered : low ≤ high
  opens : text[low - 1]? = some '{'
  closes : text[high]? = some '}'

/-- In a part of a text, an assignment to a name stands at an offset of the text, no other one stands in
front of it without a semicolon between the two, and the assignment stores a value. -/
structure StoredIn (name text : List Char) (low high n : Nat) (value : List Char) : Prop where
  stores : ∃ head, Stores name head text n ∧ value = upToSemicolon (slice text (n + head.length) high)
  above : low ≤ n
  below : n < high
  first : ∀ m, low ≤ m → m < n → (∃ head, Stores name head text m) → ';' ∈ slice text m n

section Beginning

theorem Setter.exists_stem (setter : Setter name head) : ∃ stem, head = stem ++ ['='] ∧
    ∀ c ∈ stem, isWord c = true ∨ isBlank c = true ∨ c = '+' ∨ c = '-' := by
  obtain ⟨gap, operator, rfl, blank, among⟩ := setter.split
  obtain ⟨sign, rfl, signs⟩ : ∃ sign, operator = sign ++ ['='] ∧ ∀ c ∈ sign, c = '+' ∨ c = '-' := by
    simp only [operators, List.mem_cons, List.not_mem_nil, or_false] at among
    rcases among with rfl | rfl | rfl
    · exact ⟨[], rfl, by simp⟩
    · exact ⟨['+'], rfl, by simp⟩
    · exact ⟨['-'], rfl, by simp⟩
  refine ⟨name ++ (gap ++ sign), by simp, fun c member => ?_⟩
  rcases List.mem_append.mp member with inName | member
  · exact .inl (setter.letters c inName)
  rcases List.mem_append.mp member with inGap | inSign
  · exact .inr (.inl (blank c inGap))
  · exact .inr (.inr (signs c inSign))

theorem Setter.not_mem_stem {stem : List Char} (chars : ∀ c ∈ stem, isWord c = true ∨ isBlank c = true ∨
    c = '+' ∨ c = '-') (other : isWord c = false ∧ isBlank c = false ∧ c ≠ '+' ∧ c ≠ '-') : c ∉ stem := by
  intro member
  obtain ⟨noWord, visible, noPlus, noMinus⟩ := other
  rcases chars c member with letter | blank | plus | minus
  · exact nomatch noWord.symm.trans letter
  · exact nomatch visible.symm.trans blank
  · exact noPlus plus
  · exact noMinus minus

theorem Setter.not_mem (setter : Setter name head) (equals : c ≠ '=')
    (other : isWord c = false ∧ isBlank c = false ∧ c ≠ '+' ∧ c ≠ '-') : c ∉ head := by
  obtain ⟨stem, rfl, chars⟩ := setter.exists_stem
  rw [List.mem_append, List.mem_singleton, not_or]
  exact ⟨not_mem_stem chars other, equals⟩

/-- The equals sign stands at the end only. -/
theorem Setter.not_mem_dropLast (setter : Setter name head) : '=' ∉ head.dropLast := by
  obtain ⟨stem, rfl, chars⟩ := setter.exists_stem
  rw [List.dropLast_concat]
  exact not_mem_stem chars (by decide)

theorem Setter.ne_nil (setter : Setter name head) : head ≠ [] := by
  obtain ⟨stem, rfl, -⟩ := setter.exists_stem
  simp

/-- Behind its name an assignment goes on with something that is no part of a name. -/
theorem Setter.exists_first (setter : Setter name head) :
    ∃ d others, head = name ++ d :: others ∧ isWord d = false ∧ d ≠ '(' := by
  obtain ⟨gap, operator, rfl, blank, among⟩ := setter.split
  cases gap with
  | nil =>
    have each : ∀ operator ∈ operators, operator ≠ [] ∧ operator.head?.any (fun d => isWord d || d == '(') = false := by
      decide
    obtain ⟨nonempty, first⟩ := each operator among
    obtain ⟨d, others, rfl⟩ := List.exists_cons_of_ne_nil nonempty
    exact ⟨d, others, rfl, by simpa using first⟩
  | cons d gap =>
    have isBlank := blank d List.mem_cons_self
    refine ⟨d, gap ++ operator, rfl, Text.isWord_of_isBlank isBlank, ?_⟩
    rintro rfl
    contradiction

/-- There is one beginning at most at a place. -/
theorem Setter.unique {name' head' : List Char} (setter : Setter name head) (other : Setter name' head')
    (here : head <+: text) (here' : head' <+: text) : head = head' := by
  obtain ⟨stem, rfl, chars⟩ := setter.exists_stem
  obtain ⟨stem', rfl, chars'⟩ := other.exists_stem
  obtain ⟨rest, rfl⟩ := here
  obtain ⟨rest', same⟩ := here'
  have spans {stem : List Char} (chars : ∀ c ∈ stem, isWord c = true ∨ isBlank c = true ∨ c = '+' ∨ c = '-')
      (rest : List Char) : Text.Spans (· ≠ '=') stem ('=' :: rest) :=
    Text.spans_ne_iff.mpr ⟨Setter.not_mem_stem chars (by decide), by simp⟩
  rw [List.append_assoc, List.append_assoc] at same
  obtain ⟨stems, -⟩ := (spans chars' rest').unique (spans chars rest) same
  rw [stems]

end Beginning

section Found

theorem Stores.inside (stores : Stores name head text n) : n + head.length ≤ text.length := by
  have longer := stores.stands.here.length_le
  have positive := List.length_pos_iff.mpr stores.setter.ne_nil
  rw [List.length_drop] at longer
  omega

/-- Where an assignment stands, it is found, with what it stores. -/
theorem exists_match_of_stores (stores : Stores name head text n) :
    ∃ found, (assignment name).matchAt? (placeAt text n) = some found ∧
      found.text 1 = upToSemicolon (text.drop (n + head.length)) := by
  obtain ⟨front, rest, rfl, rfl, whole⟩ := (Text.standsAt_iff stores.setter.ne_nil).mp stores.stands
  have plain := stores.plain
  obtain ⟨gap, operator, rfl, blank, among⟩ := stores.setter.split
  rw [← List.drop_drop, List.drop_left, List.drop_left] at plain ⊢
  have halves : upToSemicolon rest ++ rest.dropWhile (· ≠ ';') = rest := List.takeWhile_append_dropWhile
  obtain ⟨inside, ends⟩ := Text.spans_ne_iff.mp (Text.spans_takeWhile (· ≠ ';') rest)
  rw [← halves] at plain
  have taken : (assignment name).Takes front _ _ [] _ := takes_assignment whole blank among plain inside ends
  have matched := Pattern.matchAt?_of_takes taken
  have split : name ++ gap ++ operator ++ upToSemicolon rest ++ rest.dropWhile (· ≠ ';') =
      name ++ (gap ++ operator) ++ rest := by
    rw [List.append_assoc _ (upToSemicolon rest), halves, List.append_assoc name]
  rw [split] at matched
  rw [Text.placeAt_length]
  refine ⟨_, matched, ?_⟩
  rw [Match.text, Match.text?_eq_lookup]
  simp

/-- Where an assignment is found, it stands. -/
theorem exists_stores_of_match (nonempty : name ≠ []) (letters : ∀ c ∈ name, isWord c = true)
    (inside : n ≤ text.length) (matched : (assignment name).matchAt? (placeAt text n) = some found) :
    ∃ head, Stores name head text n ∧ found.text 1 = upToSemicolon (text.drop (n + head.length)) := by
  obtain ⟨operator, front, behind, rfl, rfl, between⟩ := (exists_matchAt?_iff inside).mp ⟨found, matched⟩
  obtain ⟨gap, rest, rfl, blank, plain⟩ := between.split
  have setter : Setter name (name ++ (gap ++ operator)) :=
    ⟨⟨gap, operator, rfl, blank, between.operator⟩, nonempty, letters⟩
  have split : name ++ (gap ++ (operator ++ rest)) = name ++ (gap ++ operator) ++ rest := by simp
  rw [split] at matched ⊢
  have stores : Stores name (name ++ (gap ++ operator)) (front ++ (name ++ (gap ++ operator) ++ rest))
      front.length := by
    refine ⟨setter, (Text.standsAt_iff setter.ne_nil).mpr ⟨front, rest, rfl, rfl, between.whole⟩, ?_⟩
    rwa [← List.drop_drop, List.drop_left, List.drop_left]
  obtain ⟨other, matchedToo, value⟩ := exists_match_of_stores stores
  obtain rfl := Option.some.inj (matched.symm.trans matchedToo)
  exact ⟨_, stores, value⟩

theorem runsTo_assignment (letters : ∀ c ∈ name, isWord c = true) : (assignment name).RunsTo ';' where
  solid := by simp [assignment, Pattern.solid_append, Pattern.word, Pattern.solid]
  unread := by
    have named : ';' ∉ name := fun member => absurd (letters ';' member) (by decide)
    simp [assignment, Pattern.reads_append, Pattern.word, Pattern.space, Pattern.reads, named,
      show isBlank ';' = false by decide]
  stops := Pattern.Stops.append (Pattern.Stops.capture (Pattern.stops_many ';') 1) _

end Found

section Windows

/-- A part of a text with a semicolon in it goes on behind the semicolon. -/
theorem upToSemicolon_slice (here : text[m]? = some ';') (above : n ≤ m) (below : m < high) :
    upToSemicolon (slice text n high) = upToSemicolon (slice text n m) := by
  have next : (slice text m high).head? = text[m]? := Text.head?_slice below
  rw [here, List.head?_eq_some_iff] at next
  obtain ⟨rest, behind⟩ := next
  have total : high - n = (m - n) + (high - m) := by omega
  have parts : slice text n high = slice text n m ++ ';' :: rest := by
    rw [← behind, slice, total, List.take_add, List.drop_drop, Nat.add_sub_cancel' above]
    rfl
  rw [parts, upToSemicolon, upToSemicolon, List.takeWhile_append]
  split
  · next free =>
    rw [List.takeWhile_cons_of_neg (by simp), List.append_nil, (List.takeWhile_prefix _).eq_of_length free]
  · rfl

variable (window : Window text low high)
include window

theorem Window.inside : high < text.length :=
  (List.getElem?_eq_some_iff.mp window.closes).1

theorem Window.length_slice : (slice text low high).length = high - low := by
  have inside := window.inside
  rw [slice, List.length_take, List.length_drop]
  omega

/-- In front of a place in a window, the text reads as the window does. -/
theorem Window.getLast?_take (holds : Char → Bool) (brace : holds '{' = false) (below : low + n ≤ high) :
    ((slice text low high).take n).getLast?.any holds = (text.take (low + n)).getLast?.any holds := by
  have inside := window.inside
  cases n with
  | zero =>
    have positive := window.positive
    have before : low - 1 < text.length := by omega
    have here : (text.take low).getLast? = text[low - 1]? := by
      rw [← Text.getLast?_take_succ before, Nat.sub_add_cancel positive]
    rw [Nat.add_zero, here, window.opens, Option.any_some, brace]
    rfl
  | succ n =>
    have short : n < (slice text low high).length := by
      rw [window.length_slice]
      omega
    rw [← Nat.add_assoc, Text.getLast?_take_succ short, Text.getLast?_take_succ (by omega), slice,
      List.getElem?_take, if_pos (by omega), List.getElem?_drop]

/-- What does not hold the closing brace does not reach over it. -/
theorem Window.reach_le (here : head <+: text.drop n) (noCloser : '}' ∉ head) (below : n < high) :
    n + head.length ≤ high := by
  by_contra beyond
  have within : high - n < head.length := by omega
  have closer := Text.getElem?_of_standing here within
  rw [Nat.add_sub_cancel' (Nat.le_of_lt below), window.closes, Option.some.injEq] at closer
  exact noCloser (closer ▸ List.getElem_mem within)

/-- The assignments of a window are those of the text that stand in it. -/
theorem stores_slice_iff : Stores name head (slice text low high) n ↔
    Stores name head text (low + n) ∧ low + n < high := by
  have length := window.length_slice
  have ordered := window.ordered
  -- behind the beginning of an assignment the text reads as the window does
  have next (within : low + n + head.length ≤ high) :
      ((slice text low high).drop (n + head.length)).head?.any (fun c => c == '=' || c == '>') =
        (text.drop (low + n + head.length)).head?.any fun c => c == '=' || c == '>' := by
    rw [Text.drop_slice, ← Nat.add_assoc]
    rcases Nat.lt_or_eq_of_le within with inside | last
    · rw [Text.head?_slice inside, List.head?_drop]
    · rw [last, List.head?_drop, window.closes, slice, Nat.sub_self]
      rfl
  constructor
  · intro stores
    have reach := stores.inside
    have positive := List.length_pos_iff.mpr stores.setter.ne_nil
    have within : low + n + head.length ≤ high := by omega
    refine ⟨⟨stores.setter, ⟨?_, ?_⟩, next within ▸ stores.plain⟩, by omega⟩
    · have here := stores.stands.here
      rw [Text.drop_slice] at here
      exact here.trans (List.take_prefix _ _)
    · rw [← window.getLast?_take joins (by decide) (by omega)]
      exact stores.stands.whole
  · rintro ⟨stores, below⟩
    have within := window.reach_le stores.stands.here (stores.setter.not_mem (by decide) (by decide)) below
    refine ⟨stores.setter, ⟨?_, ?_⟩, next within ▸ stores.plain⟩
    · rw [Text.drop_slice, slice, List.prefix_take_iff]
      exact ⟨stores.stands.here, by omega⟩
    · rw [window.getLast?_take joins (by decide) (by omega)]
      exact stores.stands.whole

/-- The assignments found in a window, and what they store, are read off the text around it. -/
theorem exists_match_iff (nonempty : name ≠ []) (letters : ∀ c ∈ name, isWord c = true) :
    (∃ found ∈ (assignment name).matchesIn (slice text low high),
        low + found.start.offset = n ∧ found.text 1 = value) ↔ StoredIn name text low high n value := by
  have length := window.length_slice
  have runs := runsTo_assignment letters
  constructor
  · rintro ⟨found, member, rfl, rfl⟩
    obtain ⟨m, inside, matched, first⟩ := runs.mem_matchesIn_iff.mp member
    obtain ⟨rfl, -⟩ := Pattern.fits_of_matchAt? matched
    obtain ⟨head, stores, read⟩ := exists_stores_of_match nonempty letters inside matched
    obtain ⟨stands, below⟩ := (stores_slice_iff window).mp stores
    rw [Text.drop_slice, ← Nat.add_assoc] at read
    refine ⟨⟨head, stands, read⟩, Nat.le_add_right _ _, below, fun k above before earlier => ?_⟩
    obtain ⟨k, rfl⟩ := Nat.exists_eq_add_of_le above
    obtain ⟨head', earlier⟩ := earlier
    obtain ⟨other, matchedThere, -⟩ :=
      exists_match_of_stores ((stores_slice_iff window).mpr ⟨earlier, by omega⟩)
    have parted := first k (by omega) (by rw [matchedThere]; rfl)
    rwa [Text.slice_slice (by omega)] at parted
  · rintro ⟨⟨head, stores, rfl⟩, above, below, first⟩
    obtain ⟨m, rfl⟩ := Nat.exists_eq_add_of_le above
    obtain ⟨found, matched, read⟩ := exists_match_of_stores ((stores_slice_iff window).mpr ⟨stores, below⟩)
    rw [Text.drop_slice, ← Nat.add_assoc] at read
    have start := (Pattern.fits_of_matchAt? matched).1
    refine ⟨found, runs.mem_matchesIn_iff.mpr ⟨m, by omega, matched, fun k before earlier => ?_⟩, by rw [start], read⟩
    obtain ⟨other, matchedThere⟩ := Option.isSome_iff_exists.mp earlier
    obtain ⟨head', earlier, -⟩ := exists_stores_of_match nonempty letters (by omega) matchedThere
    rw [Text.slice_slice (by omega)]
    exact first _ (Nat.le_add_right _ _) (by omega) ⟨head', ((stores_slice_iff window).mp earlier).1⟩

end Windows

end ContractInspector.Issue
