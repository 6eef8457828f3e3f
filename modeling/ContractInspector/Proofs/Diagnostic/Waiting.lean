import ContractInspector.Proofs.Diagnostic.Rendering

/-! Markers read line by line. A marker with nothing behind it on its line waits for what it says: blank
lines are passed, and the next visible line is its message, even where that line has a marker of its
own. `exists_entries` says that all markers of some output are read in this way, and `answered_iff_noneWaits` that
every line which announces something is answered exactly if none of them stands behind a marker that
waits. -/
namespace ContractInspector.Diagnostic

open Text (Match Pattern Spells isBlank placeAt strip)

variable {word : String} {text line part front written gap said message output source : List Char}
  {lines : List (List Char)} {waiting : Option Nat} {n : Nat} {entry : List Char × Nat}

/-- What stands behind a word and a colon that start a text. -/
def behind? : (letters text : List Char) → Option (List Char)
  | [], ':' :: rest => some rest
  | letter :: letters, c :: rest =>
    if Text.sameLetter letter c then behind? letters rest else none
  | _, _ => none

/-- What stands on a line behind the first marker in it. -/
def said? (word : String) : List Char → Option (List Char)
  | [] => none
  | c :: line => (behind? word.toList (c :: line)).or (said? word line)

/-- What a line announces: the visible text behind the first marker in it. -/
def message? (word : String) (line : List Char) : Option (List Char) :=
  ((said? word line).map strip).filter (! ·.isEmpty)

/-- What a line announces, with its row. -/
def announcement? (word : String) (place : List Char × Nat) : Option (List Char × Nat) :=
  (message? word place.1).map (·, place.2)

/-- What the lines of some output announce, in order. -/
def announced (word : String) (output : List Char) : List (List Char × Nat) :=
  (Text.lines output).zipIdx.filterMap (announcement? word)

section Reading

/-- The row of the marker that waits behind a line, if one does. -/
def next? (word : String) (waiting : Option Nat) (row : Nat) (line : List Char) : Option Nat :=
  match waiting with
  | some first => if line.all isBlank then some first else none
  | none => if (said? word line).isSome && (message? word line).isNone then some row else none

/-- What is said on a line, with the row of the marker that says it. -/
def uttered? (word : String) (waiting : Option Nat) (row : Nat) (line : List Char) :
    Option (List Char × Nat) :=
  match waiting with
  | some first => if line.all isBlank then none else some (strip line, first)
  | none => announcement? word (line, row)

/-- What is said on some lines, read one by one. -/
def read (word : String) : Option Nat → Nat → List (List Char) → List (List Char × Nat)
  | _, _, [] => []
  | waiting, row, line :: lines =>
    (uttered? word waiting row line).toList ++ read word (next? word waiting row line) (row + 1) lines

/-- The row of the marker that waits behind some lines, if one does. -/
def waiting? (word : String) : Option Nat → Nat → List (List Char) → Option Nat
  | waiting, _, [] => waiting
  | waiting, row, line :: lines => waiting? word (next? word waiting row line) (row + 1) lines

/-- No marker waits in front of a line that announces something. -/
def NoneWaits (word : String) (output : List Char) : Prop :=
  ∀ entry ∈ announced word output, waiting? word none 0 ((Text.lines output).take entry.2) = none

end Reading

section Words

/-- The letters of a word are neither blanks nor colons. -/
def Lettered (word : String) : Prop :=
  ∀ letter ∈ word.toList, ∀ c, isBlank c = true ∨ c = ':' → Text.sameLetter letter c = false

theorem lettered_of_points (letters : ∀ letter ∈ word.toList, ∀ n ∈ ':'.toNat :: Text.blankPoints,
    Text.sameLetter letter (Char.ofNat n) = false) : Lettered word := by
  rintro letter inWord c (blank | rfl)
  · have each : ∀ n ∈ Text.blankPoints, Text.sameLetter letter (Char.ofNat n) = false :=
      fun n member => letters letter inWord n (List.mem_cons_of_mem _ member)
    exact @Text.forall_blank (fun c => Text.sameLetter letter c = false) each c blank
  · exact letters letter inWord _ List.mem_cons_self

theorem lettered_error : Lettered "error" :=
  lettered_of_points (by decide +kernel)

theorem lettered_warning : Lettered "warning" :=
  lettered_of_points (by decide +kernel)

theorem Lettered.not_mem (lettered : Lettered word) (spells : Spells word written) {c : Char}
    (other : isBlank c = true ∨ c = ':') : c ∉ written :=
  spells.not_mem fun letter inWord => lettered letter inWord c other

theorem behind?_eq_some_iff {letters : List Char} : behind? letters text = some said ↔
    ∃ written, text = written ++ ':' :: said ∧
      List.Forall₂ (fun letter c => Text.sameLetter letter c = true) letters written := by
  fun_induction behind? letters text with
  | case1 rest =>
    simp only [List.forall₂_nil_left_iff, Option.some.injEq]
    constructor
    · rintro rfl
      exact ⟨[], rfl, rfl⟩
    · rintro ⟨_, same, rfl⟩
      exact (List.cons.inj same).2
  | case2 letter letters c rest held ih =>
    rw [ih]
    constructor
    · rintro ⟨written, rfl, spelled⟩
      exact ⟨c :: written, rfl, .cons held spelled⟩
    · rintro ⟨_, same, spelled⟩
      cases spelled with
      | cons _ spelled =>
        obtain ⟨-, rfl⟩ := List.cons.inj same
        exact ⟨_, rfl, spelled⟩
  | case3 letter letters c rest other =>
    refine iff_of_false nofun ?_
    rintro ⟨_, same, spelled⟩
    cases spelled with
    | cons held =>
      obtain ⟨rfl, -⟩ := List.cons.inj same
      exact other held
  | case4 letters text first second =>
    refine iff_of_false nofun ?_
    rintro ⟨written, rfl, spelled⟩
    cases spelled with
    | nil => exact first said rfl rfl
    | cons => exact second _ _ _ _ rfl rfl

theorem behind?_word : behind? word.toList text = some said ↔
    ∃ written, text = written ++ ':' :: said ∧ Spells word written :=
  behind?_eq_some_iff

/-- A marker does not reach over the end of a line. -/
theorem behind?_line (lettered : Lettered word) (absent : behind? word.toList part = none)
    (rest : List Char) : behind? word.toList (part ++ '\n' :: rest) = none := by
  refine Option.eq_none_iff_forall_ne_some.mpr fun said here => ?_
  obtain ⟨written, split, spells⟩ := behind?_word.mp here
  have grouped : part ++ '\n' :: rest = (written ++ [':']) ++ said := by simpa using split
  have inLine : '\n' ∉ written ++ [':'] := by
    simpa using lettered.not_mem spells (.inl (by decide))
  obtain ⟨left, rfl, -⟩ := Text.ends_before grouped inLine
  have found : behind? word.toList (written ++ [':'] ++ left) = some left :=
    behind?_word.mpr ⟨written, by simp, spells⟩
  rw [absent] at found
  contradiction

theorem behind?_nil (word : String) : behind? word.toList [] = none := by
  cases word.toList <;> rfl

/-- No marker stands in a part of a text. -/
def Unmarked (word : String) (part tail : List Char) : Prop :=
  ∀ before after, part = before ++ after → after ≠ [] → behind? word.toList (after ++ tail) = none

theorem unmarked_of_said? (absent : said? word line = none) (tail : List Char)
    (ends : ∀ part, behind? word.toList part = none → behind? word.toList (part ++ tail) = none) :
    Unmarked word line tail := by
  induction line with
  | nil =>
    intro before after same nonempty
    exact absurd (List.append_eq_nil_iff.mp same.symm).2 nonempty
  | cons c line ih =>
    obtain ⟨here, later⟩ := Option.or_eq_none_iff.mp absent
    intro before after same nonempty
    cases before with
    | nil =>
      rw [← List.nil_append after, ← same]
      exact ends _ here
    | cons d before => exact ih later before after (List.cons.inj same).2 nonempty

/-- A line up to the first marker in it. -/
theorem exists_of_said? (found : said? word line = some said) :
    ∃ front written, line = front ++ (written ++ ':' :: said) ∧ Spells word written ∧
      ∀ tail, (∀ part, behind? word.toList part = none → behind? word.toList (part ++ tail) = none) →
        Unmarked word front (written ++ ':' :: (said ++ tail)) := by
  induction line with
  | nil => contradiction
  | cons c line ih =>
    rcases Option.or_eq_some_iff.mp found with here | ⟨absent, later⟩
    · obtain ⟨written, split, spells⟩ := behind?_word.mp here
      refine ⟨[], written, split, spells, fun tail _ before after same nonempty => ?_⟩
      exact absurd (List.append_eq_nil_iff.mp same.symm).2 nonempty
    · obtain ⟨front, written, rfl, spells, unmarked⟩ := ih later
      refine ⟨c :: front, written, rfl, spells, fun tail ends before after same nonempty => ?_⟩
      cases before with
      | nil =>
        obtain rfl : c :: front = after := same
        simpa using ends _ absent
      | cons d before => exact unmarked tail ends before after (List.cons.inj same).2 nonempty

theorem matchAt?_of_behind? (absent : behind? word.toList text = none) :
    (marker word).matchAt? (.between front text) = none := by
  apply matchAt?_of_unspelled
  intro written rest same spells
  have found : behind? word.toList text = some rest := behind?_word.mpr ⟨written, same, spells⟩
  exact nomatch absent.symm.trans found

theorem Unmarked.passes {tail : List Char} (unmarked : Unmarked word part tail) (front : List Char) :
    (marker word).Passes (front ++ (part ++ tail)) front.length (front ++ part).length := by
  apply Pattern.passes_part
  intro before after split nonempty
  exact matchAt?_of_behind? (unmarked before after split nonempty)

end Words

section Entries

theorem entries_nil (word : String) : entries word [] = [] := by
  have absent : (marker word).matchAt? (.between [] []) = none :=
    matchAt?_of_behind? (behind?_nil word)
  have place : placeAt [] 0 = .between [] [] := Text.placeAt_length [] []
  rw [entries, Pattern.matchesIn_eq_matchesAt, Pattern.matchesAt_zero, place, absent]
  rfl

theorem unmarked_newline (lettered : Lettered word) (text : List Char) :
    Unmarked word ['\n'] text := by
  intro before after split nonempty
  rcases List.append_eq_singleton_iff.mp split.symm with ⟨-, rfl⟩ | ⟨-, none⟩
  · exact behind?_line lettered (behind?_nil word) text
  · exact absurd none nonempty

theorem Unmarked.entries {tail : List Char} (unmarked : Unmarked word part tail) :
    entries word (part ++ tail) =
      (entries word tail).map fun entry => (entry.1, entry.2 + part.count '\n') :=
  entries_append (unmarked.passes [])

/-- A marker with only blanks behind it says nothing. -/
theorem silent_of_blank (lettered : Lettered word) (spells : Spells word written)
    (blank : ∀ c ∈ gap, isBlank c = true) (member : entry ∈ entries word (written ++ ':' :: gap)) :
    entry.1 = [] := by
  obtain ⟨found, among, rfl⟩ := List.mem_map.mp member
  obtain ⟨before, other, blanks, message, rest, marked⟩ := exists_marked among
  have split : written ++ ':' :: gap = (before ++ other) ++ ':' :: (blanks ++ (message ++ rest)) := by
    simpa using marked.split
  have colon : ':' ∉ gap := fun inGap => absurd (blank ':' inGap) (by decide)
  have inWord : ':' ∉ written := lettered.not_mem spells (.inr rfl)
  -- The only colon is the one behind the word, so what is said stands in the gap.
  obtain ⟨left, -, said⟩ := Text.ends_before split.symm inWord
  have within : gap = blanks ++ (message ++ rest) := by
    cases left with
    | nil => exact (List.cons.inj said).2
    | cons c left =>
      obtain ⟨-, rfl⟩ := List.cons.inj said
      exact absurd (List.mem_append_right left List.mem_cons_self) colon
  refine (Source.strip_eq_nil _).mpr fun c inMessage => blank c ?_
  rw [marked.text_eq] at inMessage
  rw [within]
  simp [inMessage]

/-- A marker with something visible behind it on the same or a later line says that line. -/
theorem exists_match_waiting (spells : Spells word written) (blank : ∀ c ∈ gap, isBlank c = true)
    (inLine : '\n' ∉ line) (shown : ∃ c ∈ line, isBlank c = false) {rest : List Char}
    (ends : EndsLine rest) :
    ∃ here, (marker word).matchAt? (placeAt (written ++ ':' :: (gap ++ line) ++ rest) 0) = some here ∧
      here.stop.offset = (written ++ ':' :: (gap ++ line)).length ∧
      row (written ++ ':' :: (gap ++ line) ++ rest) here = (strip line, 0) := by
  obtain ⟨lead, c, message, rfl, leading, visible⟩ := Text.exists_visible shown
  have blanks : ∀ c ∈ gap ++ lead, isBlank c = true :=
    List.forall_mem_append.mpr ⟨blank, leading⟩
  have taken : (marker word).Takes [] (written ++ [':'] ++ (gap ++ lead) ++ c :: message) rest [] _ :=
    takes_marker spells blanks (by simpa using visible) (List.cons_ne_nil _ _)
      (fun member => inLine (List.mem_append_right lead member)) ends
  have same : written ++ [':'] ++ (gap ++ lead) ++ c :: message =
      written ++ ':' :: (gap ++ (lead ++ c :: message)) := by simp
  have matched := Pattern.matchAt?_of_takes taken
  rw [same, ← Text.placeAt_length] at matched
  refine ⟨_, matched, rfl, ?_⟩
  rw [row, Source.LineIndex.lineOf_ofText, Text.strip_append_left leading]
  simp [Match.text, Match.text?, Match.capture?]

/-- All entries of a waiting marker: what the next visible line says, and what is read behind it. -/
theorem entries_waiting (lettered : Lettered word) (spells : Spells word written)
    (blank : ∀ c ∈ gap, isBlank c = true) (inLine : '\n' ∉ line)
    (shown : ∃ c ∈ line, isBlank c = false) (text : List Char) :
    entries word (written ++ ':' :: (gap ++ (line ++ '\n' :: text))) =
      (strip line, 0) ::
        (entries word text).map fun entry => (entry.1, entry.2 + (gap.count '\n' + 1)) := by
  obtain ⟨here, matched, stop, entry⟩ := exists_match_waiting spells blank inLine shown
    (show EndsLine ('\n' :: text) by simp [EndsLine])
  let front := written ++ ':' :: (gap ++ line) ++ ['\n']
  have same : front ++ text = written ++ ':' :: (gap ++ line) ++ '\n' :: text := by simp [front]
  have lines : front.count '\n' = gap.count '\n' + 1 := by
    have inWord : written.count '\n' = 0 :=
      List.count_eq_zero.mpr (lettered.not_mem spells (.inl (by decide)))
    have inRest : line.count '\n' = 0 := List.count_eq_zero.mpr inLine
    simp [front, inWord, inRest]
  have passes : (marker word).Passes (front ++ text) here.stop.offset front.length := by
    have behind := (unmarked_newline lettered text).passes (written ++ ':' :: (gap ++ line))
    rwa [← List.append_assoc, ← stop] at behind
  have found := @entries_append_of_match _ front text _ (by rwa [same])
    (by rw [stop]; exact List.length_pos_iff.mpr (by simp)) (by rw [stop]; simp [front]) passes
  rw [same, entry, lines] at found
  simpa using found

theorem entries_waiting_last (spells : Spells word written) (blank : ∀ c ∈ gap, isBlank c = true)
    (inLine : '\n' ∉ line) (shown : ∃ c ∈ line, isBlank c = false) :
    entries word (written ++ ':' :: (gap ++ line)) = [(strip line, 0)] := by
  obtain ⟨here, matched, stop, entry⟩ := exists_match_waiting spells blank inLine shown
    (show EndsLine [] by simp [EndsLine])
  have found := entries_append_of_match matched (by rw [stop]; exact List.length_pos_iff.mpr (by simp)) (Nat.le_of_eq stop)
    (fun n low high => absurd high (by omega))
  rwa [entry, entries_nil, List.append_nil] at found

end Entries

section Following

/-- Some entries are those that are read on some lines, apart from entries that say nothing. -/
def Reads (word : String) (waiting : Option Nat) (n : Nat) (lines : List (List Char))
    (found : List (List Char × Nat)) : Prop :=
  ∃ silent, found = read word waiting n lines ++ silent ∧ ∀ entry ∈ silent, entry.1 = []

variable {found : List (List Char × Nat)}

theorem next?_add (word : String) (waiting : Option Nat) (n k : Nat) (line : List Char) :
    next? word (waiting.map (· + k)) (n + k) line = (next? word waiting n line).map (· + k) := by
  cases waiting <;> simp only [next?, Option.map_none, Option.map_some] <;> split <;> rfl

theorem uttered?_add (word : String) (waiting : Option Nat) (n k : Nat) (line : List Char) :
    uttered? word (waiting.map (· + k)) (n + k) line =
      (uttered? word waiting n line).map fun entry => (entry.1, entry.2 + k) := by
  cases waiting with
  | none => simp [uttered?, announcement?, Function.comp_def]
  | some first =>
    simp only [uttered?, Option.map_some]
    split <;> rfl

theorem read_add (word : String) (waiting : Option Nat) (n k : Nat) (lines : List (List Char)) :
    read word (waiting.map (· + k)) (n + k) lines =
      (read word waiting n lines).map fun entry => (entry.1, entry.2 + k) := by
  induction lines generalizing waiting n with
  | nil => simp [read]
  | cons line lines ih =>
    rw [read, read, next?_add, uttered?_add, Nat.add_right_comm, ih, List.map_append]
    cases uttered? word waiting n line <;> rfl

theorem Reads.add (reads : Reads word none 0 lines found) (k : Nat) :
    Reads word none k lines (found.map fun entry => (entry.1, entry.2 + k)) := by
  obtain ⟨silent, rfl, mute⟩ := reads
  have moved := read_add word none 0 k lines
  rw [Option.map_none, Nat.zero_add] at moved
  refine ⟨_, by rw [List.map_append, ← moved], fun entry member => ?_⟩
  obtain ⟨other, among, rfl⟩ := List.mem_map.mp member
  exact mute other among

theorem Reads.blank {first : Nat} (blank : line.all isBlank = true)
    (reads : Reads word (some first) (n + 1) lines found) :
    Reads word (some first) n (line :: lines) found := by
  obtain ⟨silent, rfl, mute⟩ := reads
  exact ⟨silent, by simp [read, uttered?, next?, blank], mute⟩

theorem Reads.visible {first : Nat} (shown : line.all isBlank = false)
    (reads : Reads word none (n + 1) lines found) :
    Reads word (some first) n (line :: lines) ((strip line, first) :: found) := by
  obtain ⟨silent, rfl, mute⟩ := reads
  exact ⟨silent, by simp [read, uttered?, next?, shown], mute⟩

theorem Reads.unmarked (absent : said? word line = none)
    (reads : Reads word none (n + 1) lines found) : Reads word none n (line :: lines) found := by
  obtain ⟨silent, rfl, mute⟩ := reads
  exact ⟨silent, by simp [read, uttered?, next?, announcement?, message?, absent], mute⟩

theorem message?_of_said? (here : said? word line = some said) :
    message? word line = if said.all isBlank then none else some (strip said) := by
  have empty : (strip said).isEmpty = said.all isBlank := by
    rw [Bool.eq_iff_iff, List.isEmpty_iff, Source.strip_eq_nil, List.all_eq_true]
  rw [message?, here, Option.map_some, Option.filter_some, empty]
  cases said.all isBlank <;> rfl

/-- A line with a marker is read as if the marker waited in front of what it says. -/
theorem read_of_said? (here : said? word line = some said) (n : Nat) (lines : List (List Char)) :
    read word none n (line :: lines) = read word (some n) n (said :: lines) := by
  simp only [read, next?, uttered?, announcement?, here, message?_of_said? here]
  cases said.all isBlank <;> rfl

/-- The entries of a text, and those of a text behind a marker that waits, are those that are read on
its lines. -/
structure Follows (word : String) (text : List Char) : Prop where
  alone : Reads word none 0 (Text.lines text) (entries word text)
  behind : ∀ {written gap : List Char}, Spells word written → (∀ c ∈ gap, isBlank c = true) →
    Reads word (some 0) (gap.count '\n') (Text.lines text)
      (entries word (written ++ ':' :: (gap ++ text)))

theorem exists_visible (shown : line.all isBlank = false) : ∃ c ∈ line, isBlank c = false := by
  simpa using shown

theorem behind_line (lettered : Lettered word) (inLine : '\n' ∉ line) (follows : Follows word text)
    (spells : Spells word written) (blank : ∀ c ∈ gap, isBlank c = true) :
    Reads word (some 0) (gap.count '\n') (line :: Text.lines text)
      (entries word (written ++ ':' :: (gap ++ (line ++ '\n' :: text)))) := by
  cases shown : line.all isBlank with
  | true =>
    have blanks : ∀ c ∈ gap ++ (line ++ ['\n']), isBlank c = true := by
      have newline : isBlank '\n' = true := by decide
      have inGap := List.all_eq_true.mp shown
      simp only [List.forall_mem_append, List.forall_mem_singleton]
      exact ⟨blank, inGap, newline⟩
    have reads := follows.behind spells blanks
    have lines : (gap ++ (line ++ ['\n'])).count '\n' = gap.count '\n' + 1 := by
      simp [List.count_eq_zero.mpr inLine]
    have same : gap ++ (line ++ ['\n']) ++ text = gap ++ (line ++ '\n' :: text) := by simp
    rw [lines, same] at reads
    exact reads.blank shown
  | false =>
    rw [entries_waiting lettered spells blank inLine (exists_visible shown)]
    exact (follows.alone.add (gap.count '\n' + 1)).visible shown

theorem behind_last (lettered : Lettered word) (inLine : '\n' ∉ line) (spells : Spells word written)
    (blank : ∀ c ∈ gap, isBlank c = true) :
    Reads word (some 0) (gap.count '\n') [line] (entries word (written ++ ':' :: (gap ++ line))) := by
  cases shown : line.all isBlank with
  | true =>
    have blanks : ∀ c ∈ gap ++ line, isBlank c = true :=
      List.forall_mem_append.mpr ⟨blank, List.all_eq_true.mp shown⟩
    exact ⟨_, by simp [read, uttered?, shown], fun _ => silent_of_blank lettered spells blanks⟩
  | false =>
    rw [entries_waiting_last spells blank inLine (exists_visible shown)]
    exact ⟨[], by simp [read, uttered?, shown], nofun⟩

/-- A line is read like what it says, and what it says is read behind its marker. -/
theorem alone_of_behind {others : List (List Char)} {tail : List Char} (inLine : '\n' ∉ line)
    (ends : ∀ part, behind? word.toList part = none → behind? word.toList (part ++ tail) = none)
    (unmarked : Reads word none 1 others (entries word tail))
    (behind : ∀ {said written : List Char}, '\n' ∉ said → Spells word written →
      Reads word (some 0) 0 (said :: others) (entries word (written ++ ':' :: (said ++ tail)))) :
    Reads word none 0 (line :: others) (entries word (line ++ tail)) := by
  cases here : said? word line with
  | none =>
    have shift : line.count '\n' = 0 := List.count_eq_zero.mpr inLine
    rw [(unmarked_of_said? here tail ends).entries, shift]
    simpa using unmarked.unmarked here
  | some said =>
    obtain ⟨front, written, rfl, spells, absent⟩ := exists_of_said? here
    have inSaid : '\n' ∉ said := fun member => inLine (by simp [member])
    have shift : front.count '\n' = 0 :=
      List.count_eq_zero.mpr fun member => inLine (List.mem_append_left _ member)
    have same : front ++ (written ++ ':' :: said) ++ tail =
        front ++ (written ++ ':' :: (said ++ tail)) := by simp
    obtain ⟨silent, split, mute⟩ := behind inSaid spells
    rw [same, (absent tail ends).entries, shift]
    exact ⟨silent, by simpa [read_of_said? here] using split, mute⟩

theorem follows_last (lettered : Lettered word) (inLine : '\n' ∉ line) : Follows word line := by
  have lines := Text.lines_of_not_mem inLine
  constructor
  case alone =>
    have alone := @alone_of_behind word line [] [] inLine (by simp)
      ⟨[], by simp [entries_nil, read], nofun⟩ fun inSaid spells => by
        have nothing : ∀ c ∈ ([] : List Char), isBlank c = true := nofun
        simpa using behind_last lettered inSaid spells nothing
    rw [List.append_nil] at alone
    rwa [lines]
  case behind =>
    intro written gap spells blank
    rw [lines]
    exact behind_last lettered inLine spells blank

theorem follows_line (lettered : Lettered word) (inLine : '\n' ∉ line) (follows : Follows word text) :
    Follows word (line ++ '\n' :: text) := by
  have lines := Text.lines_cons inLine text
  constructor
  case alone =>
    have newline : entries word ('\n' :: text) = _ := (unmarked_newline lettered text).entries
    rw [lines]
    refine alone_of_behind inLine (fun part absent => behind?_line lettered absent text) ?_ ?_
    · rw [newline]
      exact follows.alone.add 1
    · intro said written inSaid spells
      have nothing : ∀ c ∈ ([] : List Char), isBlank c = true := nofun
      exact behind_line lettered inSaid follows spells nothing
  case behind =>
    intro written gap spells blank
    rw [lines]
    exact behind_line lettered inLine follows spells blank

/-- The entries of some output are those that are read line by line, and some that say nothing. -/
theorem exists_entries (lettered : Lettered word) (output : List Char) :
    Reads word none 0 (Text.lines output) (entries word output) := by
  have follows : Follows word output := by
    induction output using Text.lines_induction with
    | last line inLine => exact follows_last lettered inLine
    | cons line text inLine ih => exact follows_line lettered inLine ih
  exact follows.alone

end Following

section Announcing

theorem mem_announced : entry ∈ announced word output ↔
    ∃ line, (Text.lines output)[entry.2]? = some line ∧ message? word line = some entry.1 := by
  simp only [announced, announcement?, List.mem_filterMap, Prod.exists,
    List.mk_mem_zipIdx_iff_getElem?, Option.map_eq_some_iff]
  constructor
  · rintro ⟨line, row, here, message, announces, rfl⟩
    exact ⟨line, here, announces⟩
  · rintro ⟨line, here, announces⟩
    exact ⟨line, entry.2, here, entry.1, announces, rfl⟩

theorem next?_eq_some {first : Nat} (next : next? word waiting n line = some first) :
    waiting = some first ∨ (waiting = none ∧ first = n) := by
  cases waiting with
  | none =>
    rw [next?] at next
    split at next
    · exact .inr ⟨rfl, (Option.some.inj next).symm⟩
    · contradiction
  | some other =>
    rw [next?] at next
    split at next
    · exact .inl next
    · contradiction

theorem uttered?_eq_some (spoken : uttered? word waiting n line = some entry) :
    waiting = some entry.2 ∨ (waiting = none ∧ entry.2 = n) := by
  cases waiting with
  | none =>
    obtain ⟨message, -, rfl⟩ := Option.map_eq_some_iff.mp spoken
    exact .inr ⟨rfl, rfl⟩
  | some first =>
    rw [uttered?] at spoken
    split at spoken
    · contradiction
    · obtain rfl := Option.some.inj spoken
      exact .inl rfl

/-- What is said stands on the row of the marker that waits, or further down; on the row of the line
that is read next, it does so only if no marker waits. -/
theorem row_of_mem_read (member : entry ∈ read word waiting n lines) :
    waiting = some entry.2 ∨ (n ≤ entry.2 ∧ (entry.2 = n → waiting = none)) := by
  induction lines generalizing waiting n with
  | nil => contradiction
  | cons line lines ih =>
    rcases List.mem_append.mp member with here | later
    · rcases uttered?_eq_some (Option.mem_toList.mp here) with same | ⟨none, same⟩
      · exact .inl same
      · exact .inr ⟨Nat.le_of_eq same.symm, fun _ => none⟩
    · rcases ih later with next | ⟨below, -⟩
      · rcases next?_eq_some next with same | ⟨none, same⟩
        · exact .inl same
        · exact .inr ⟨Nat.le_of_eq same.symm, fun _ => none⟩
      · exact .inr ⟨Nat.le_of_succ_le below, fun same => absurd below (by omega)⟩

/-- Where something is said on its own row, no marker waits in front of it. -/
theorem waiting?_of_mem_read (above : ∀ first, waiting = some first → first < n) {i : Nat}
    (member : (message, n + i) ∈ read word waiting n lines) :
    waiting? word waiting n (lines.take i) = none := by
  induction lines generalizing waiting n i with
  | nil => contradiction
  | cons line lines ih =>
    cases i with
    | zero =>
      rcases row_of_mem_read member with same | ⟨-, none⟩
      · exact absurd (above n same) (Nat.lt_irrefl n)
      · exact none rfl
    | succ i =>
      rcases List.mem_append.mp member with here | later
      · rcases uttered?_eq_some (Option.mem_toList.mp here) with same | ⟨-, same⟩
        · exact absurd (above _ same) (by simp)
        · exact absurd same (by simp)
      · rw [← Nat.add_assoc, Nat.add_right_comm] at later
        refine ih (fun first next => ?_) later
        rcases next?_eq_some next with same | ⟨-, rfl⟩
        · exact Nat.lt_succ_of_lt (above first same)
        · exact Nat.lt_succ_self _

/-- Where no marker waits in front of lines that announce something, all of it is read, in order. -/
theorem sublist_read (free : ∀ i line message, lines[i]? = some line →
      message? word line = some message → waiting? word waiting n (lines.take i) = none) :
    ((lines.zipIdx n).filterMap (announcement? word)).Sublist (read word waiting n lines) := by
  induction lines generalizing waiting n with
  | nil => exact List.nil_sublist _
  | cons line lines ih =>
    have others := ih fun i line message here announces =>
      free (i + 1) line message here announces
    rw [List.zipIdx_cons]
    cases announces : message? word line with
    | none =>
      have head : announcement? word (line, n) = none := by rw [announcement?, announces]; rfl
      rw [List.filterMap_cons_none head]
      exact others.trans (List.sublist_append_right _ _)
    | some message =>
      obtain rfl : waiting = none := free 0 line message rfl announces
      have head : announcement? word (line, n) = some (message, n) := by
        rw [announcement?, announces]
        rfl
      rw [List.filterMap_cons_some head, read, uttered?, head]
      exact others.cons_cons _

theorem waiting?_of_mem (lettered : Lettered word) (announces : entry ∈ announced word output)
    (member : entry ∈ entries word output) :
    waiting? word none 0 ((Text.lines output).take entry.2) = none := by
  obtain ⟨message, i⟩ := entry
  obtain ⟨line, -, isMessage⟩ := mem_announced.mp announces
  obtain ⟨silent, split, mute⟩ := exists_entries lettered output
  rw [split] at member
  rcases List.mem_append.mp member with spoken | unspoken
  · rw [← Nat.zero_add i] at spoken
    have above : ∀ first, (none : Option Nat) = some first → first < 0 := nofun
    exact waiting?_of_mem_read above spoken
  · obtain ⟨-, shown⟩ := Option.filter_eq_some_iff.mp isMessage
    exact absurd (mute _ unspoken) (by simpa using shown)

/-- All that is announced is among the entries, in order, exactly if no marker waits in front of it. -/
theorem announced_sublist_iff (lettered : Lettered word) :
    (announced word output).Sublist (entries word output) ↔ NoneWaits word output := by
  constructor
  · intro within entry announces
    exact waiting?_of_mem lettered announces (within.subset announces)
  · intro free
    obtain ⟨silent, split, -⟩ := exists_entries lettered output
    rw [split]
    refine (sublist_read fun i line message here announces => ?_).trans (List.sublist_append_left _ _)
    exact free (message, i) (mem_announced.mpr ⟨line, here, announces⟩)

end Announcing

section Answering

/-- The location of each marker of some output can be read. -/
def Located (output : List Char) : Prop :=
  ∀ marker ∈ markers output, ∃ location, marker.location? (Text.lines output).toArray = .ok location

/-- A diagnostic is the one of a line that announces something: it has its message, and its location is
looked for on that line first. -/
structure Answers (output source : List Char) (entry : List Char × Nat)
    (diagnostic : ContractInspector.Diagnostic) : Prop where
  message : diagnostic.message = String.ofList entry.1
  marked : ∃ marker ∈ markers output, marker.message = entry.1 ∧ marker.row = entry.2 ∧
    (marker.regions (Text.lines output).toArray).head? = (Text.lines output)[entry.2]? ∧
    marker.diagnostic (Text.lines output).toArray ((Text.lines source).map String.ofList).toArray =
      .ok diagnostic

/-- Each line that announces an error has a diagnostic of its own, and each line that announces a
warning a warning of its own, in order. -/
structure Answered (output source : List Char) : Prop where
  errors : ∃ found, errors output source = .ok found ∧
    List.SublistForall₂ (Answers output source) (announced "error" output) found
  warnings : warnings output = (entries "warning" output).map (fun entry => String.ofList entry.1) ∧
    (announced "warning" output).Sublist (entries "warning" output)

variable {diagnostic : ContractInspector.Diagnostic} {marker : Marker}
  {found : List ContractInspector.Diagnostic}

theorem exists_related {α β : Type} {relation : α → β → Prop} {items : List α} {results : List β}
    (each : List.Forall₂ relation items results) {item : α} (member : item ∈ items) :
    ∃ result ∈ results, relation item result := by
  induction each with
  | nil => contradiction
  | @cons first result items results related each ih =>
    rcases List.mem_cons.mp member with rfl | later
    · exact ⟨result, List.mem_cons_self, related⟩
    · obtain ⟨other, among, others⟩ := ih later
      exact ⟨other, List.mem_cons_of_mem result among, others⟩

/-- A relation of all items holds of some of them, in order. -/
theorem sublistForall₂_of_sublist {α β : Type} {relation : α → β → Prop} {some items : List α}
    {results : List β} (within : some.Sublist items) (each : List.Forall₂ relation items results) :
    List.SublistForall₂ relation some results := by
  induction within generalizing results with
  | slnil => exact .nil
  | cons item _ ih =>
    cases each with
    | cons _ each => exact .cons_right (ih each)
  | cons_cons item _ ih =>
    cases each with
    | cons related each => exact .cons related (ih each)

theorem map_markers (output : List Char) :
    (markers output).map (fun marker => (marker.message, marker.row)) = entries "error" output :=
  map_withNeighbours (rows output)

/-- The diagnostics that are reported are those of the markers, unless there is none. -/
theorem errors_eq_ok_iff : errors output source = .ok found ↔
    ∃ results, List.Forall₂ (fun (marker : Marker) result =>
        marker.diagnostic (Text.lines output).toArray
          ((Text.lines source).map String.ofList).toArray = .ok result) (markers output) results ∧
      found = if results.isEmpty then fallback output else results := by
  simp only [← mapM_eq_ok_iff]
  rw [errors]
  cases (markers output).mapM fun (marker : Marker) =>
    marker.diagnostic (Text.lines output).toArray ((Text.lines source).map String.ofList).toArray with
  | error fault =>
    constructor
    · intro same
      contradiction
    · rintro ⟨_, same, _⟩
      contradiction
  | ok results =>
    constructor
    · intro same
      exact ⟨results, rfl, (Except.ok.inj same).symm⟩
    · rintro ⟨_, same, rfl⟩
      obtain rfl := Except.ok.inj same
      rfl

theorem Answered.located (answered : Answered output source) : Located output := by
  obtain ⟨found, reads, -⟩ := answered.errors
  obtain ⟨results, each, -⟩ := errors_eq_ok_iff.mp reads
  intro marker member
  obtain ⟨result, -, one⟩ := exists_related each member
  rw [Marker.diagnostic] at one
  cases located : marker.location? (Text.lines output).toArray with
  | error fault => simp [located, Except.map] at one
  | ok location => exact ⟨location, rfl⟩

theorem Answered.noneWaits_error (answered : Answered output source) : NoneWaits "error" output := by
  obtain ⟨found, -, own⟩ := answered.errors
  obtain ⟨diagnostics, each, -⟩ := List.sublistForall₂_iff.mp own
  intro entry announces
  obtain ⟨diagnostic, -, answers⟩ := exists_related each announces
  obtain ⟨marker, member, message, row, -⟩ := answers.marked
  have among : (marker.message, marker.row) ∈ entries "error" output := by
    rw [← map_markers]
    exact List.mem_map_of_mem member
  rw [message, row] at among
  exact waiting?_of_mem lettered_error announces among

theorem Answered.noneWaits_warning (answered : Answered output source) : NoneWaits "warning" output :=
  (announced_sublist_iff lettered_warning).mp answered.warnings.2

theorem answers_of_marker (member : marker ∈ markers output)
    (announces : (marker.message, marker.row) ∈ announced "error" output)
    (reads : marker.diagnostic (Text.lines output).toArray
      ((Text.lines source).map String.ofList).toArray = .ok diagnostic) :
    Answers output source (marker.message, marker.row) diagnostic := by
  obtain ⟨line, here, -⟩ := mem_announced.mp announces
  refine ⟨message_of_diagnostic reads, marker, member, rfl, rfl, ?_, reads⟩
  rw [Marker.regions, here, Array.getD_eq_getD_getElem?, List.getElem?_toArray, here]
  rfl

theorem warnings_eq (output : List Char) : warnings output =
    (entries "warning" output).map fun entry => String.ofList entry.1 := by
  rw [warnings, entries, List.map_map]
  rfl

/-- Where all locations can be read, what is announced among the entries is reported. -/
theorem exists_errors_of_sublist (located : Located output) (source : List Char)
    (within : (announced "error" output).Sublist (entries "error" output)) :
    ∃ found, errors output source = .ok found ∧
      List.SublistForall₂ (Answers output source) (announced "error" output) found := by
  let sourceLines := ((Text.lines source).map String.ofList).toArray
  have each : ∀ marker ∈ markers output, ∃ result,
      marker.diagnostic (Text.lines output).toArray sourceLines = .ok result := by
    intro marker member
    obtain ⟨location, reads⟩ := located marker member
    rw [Marker.diagnostic, reads]
    exact ⟨_, rfl⟩
  obtain ⟨results, reads, -⟩ := exists_mapM each
  have related := mapM_eq_ok_iff.mp reads
  refine ⟨_, errors_eq_ok_iff.mpr ⟨results, related, rfl⟩, ?_⟩
  rw [← map_markers] at within
  obtain ⟨own, among, same⟩ := List.sublist_map_iff.mp within
  obtain ⟨ownResults, ownRelated, inResults⟩ :=
    List.sublistForall₂_iff.mp (sublistForall₂_of_sublist among related)
  have answers : List.Forall₂ (Answers output source) (announced "error" output) ownResults := by
    rw [same, List.forall₂_map_left_iff]
    refine ((List.forall₂_and_left own ownResults).mpr ⟨fun marker member => member, ownRelated⟩).imp ?_
    rintro marker result ⟨member, reads⟩
    exact answers_of_marker (among.subset member) (same ▸ List.mem_map_of_mem member) reads
  refine List.sublistForall₂_iff.mpr ⟨ownResults, answers, ?_⟩
  cases results with
  | nil =>
    rw [List.sublist_nil.mp inResults]
    exact List.nil_sublist _
  | cons first others => exact inResults

/-- Every line that announces something is answered, in order and on its own row, exactly if the
locations can be read and no marker waits in front of such a line. -/
theorem answered_iff_noneWaits (output source : List Char) : Answered output source ↔
    Located output ∧ NoneWaits "error" output ∧ NoneWaits "warning" output := by
  constructor
  · intro answered
    exact ⟨answered.located, answered.noneWaits_error, answered.noneWaits_warning⟩
  · rintro ⟨located, noError, noWarning⟩
    have errors := (announced_sublist_iff lettered_error).mpr noError
    have warnings := (announced_sublist_iff lettered_warning).mpr noWarning
    exact ⟨exists_errors_of_sublist located source errors, warnings_eq output, warnings⟩

/-- A marker that waits swallows the line below it, for errors and for warnings. -/
theorem not_answered_waiting :
    ¬Answered "error:\nerror: x".toList "a".toList ∧
      ¬Answered "warning:\nwarning: x".toList "a".toList := by
  constructor
  · intro answered
    have free := answered.noneWaits_error (['x'], 1) (by decide)
    exact absurd free (by decide)
  · intro answered
    have free := answered.noneWaits_warning (['x'], 1) (by decide)
    exact absurd free (by decide)

end Answering

end ContractInspector.Diagnostic
