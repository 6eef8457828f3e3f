import ContractInspector.Proofs.Diagnostic.Reporting
import ContractInspector.Proofs.Source.Numbering

/-! Compiler output in its usual form, one announcing line and one message line for each error.
`errors_render` says that each error is read back as it was written, with the lines around it. -/
namespace ContractInspector.Diagnostic

open Text (Match Pattern Spells isBlank placeAt strip maxDigits)

/-- A line behind its number, if there is one with that number. -/
def shown? (lines : List (List Char)) (n : Nat) : Option String :=
  if n = 0 then none
  else lines[n - 1]?.map fun line => toString n ++ ": " ++ String.ofList line

/-- A line that exists with its neighbours, as far as these exist, too. -/
def context? (source : List Char) (n : Nat) : Option String :=
  let lines := Text.lines source
  if (shown? lines n).isNone then none
  else some (Text.join "\n" ([n - 1, n, n + 1].filterMap (shown? lines)))

/-- The line above a message with its path, line and column. -/
def announcement (path : List Char) (line column : Nat) : List Char :=
  ("Exception: ".toList ++ path) ++
    ' ' :: (inWords (Nat.toDigits 10 line) (Nat.toDigits 10 column) ++ [':'])

/-- An error that the compiler reports. What stands around its location holds no other location, and
the path no marker. -/
structure Report where
  path : List Char
  line : Nat
  column : Nat
  message : List Char
  path_inLine : '\n' ∉ path
  path_unmarked : markerWord.occursIn path = false
  path_unlocated : locationPattern.occursIn ("Exception: ".toList ++ path) = false
  message_ne_nil : message ≠ []
  message_inLine : '\n' ∉ message
  message_first : message.head?.any isBlank = false
  message_last : message.getLast?.any isBlank = false
  message_unlocated : locationPattern.occursIn ("  parse error: ".toList ++ message) = false

namespace Report

variable (report : Report)

def location : List Char :=
  inWords (Nat.toDigits 10 report.line) (Nat.toDigits 10 report.column)

def header : List Char :=
  ("Exception: ".toList ++ report.path) ++ ' ' :: (report.location ++ [':'])

def body : List Char :=
  "  parse error: ".toList ++ report.message

/-- The two lines of a report. -/
def text : List Char :=
  report.header ++ '\n' :: (report.body ++ ['\n'])

def diagnostic (source : List Char) : ContractInspector.Diagnostic where
  location := some ⟨report.line, some report.column⟩
  message := String.ofList report.message
  severity := .error
  sourceContext := context? source report.line

/-- The location of a report, as it is read back. -/
def place : Except Text.LongNumber Location := do
  let line ← Text.readDecimal (Nat.toDigits 10 report.line)
  let column ← Text.readDecimal (Nat.toDigits 10 report.column)
  return ⟨line, some column⟩

/-- What is read back from a report. -/
def read (source : List Char) : Except Text.LongNumber ContractInspector.Diagnostic :=
  report.place.map fun place =>
    { report.diagnostic source with location := some place, sourceContext := context? source place.line }

/-- The numbers of a report have few enough digits. -/
def Short : Prop :=
  report.line < 10 ^ maxDigits ∧ report.column < 10 ^ maxDigits

end Report

def render (reports : List Report) : List Char :=
  reports.flatMap Report.text

section Context

variable {α β : Type}

theorem map_zipIdx_take_two (items : List α) (shown : α × Nat → β) :
    (items.take 2).zipIdx.map shown =
      [0, 1].filterMap fun i => items[i]?.map fun item => shown (item, i) := by
  rcases items with _ | ⟨first, _ | ⟨second, others⟩⟩ <;> rfl

theorem map_zipIdx_take_three (items : List α) (shown : α × Nat → β) :
    (items.take 3).zipIdx.map shown =
      [0, 1, 2].filterMap fun i => items[i]?.map fun item => shown (item, i) := by
  rcases items with _ | ⟨first, _ | ⟨second, _ | ⟨third, others⟩⟩⟩ <;> rfl

theorem shown?_succ (lines : List (List Char)) (n : Nat) :
    shown? lines (n + 1) = lines[n]?.map fun line => toString (n + 1) ++ ": " ++ String.ofList line := rfl

theorem shown?_eq_none_iff (lines : List (List Char)) (n : Nat) :
    shown? lines n = none ↔ n = 0 ∨ lines.length < n := by
  cases n with
  | zero => simp [shown?]
  | succ n =>
    rw [shown?_succ, Option.map_eq_none_iff, List.getElem?_eq_none_iff]
    omega

/-- The first line has no line above it. -/
theorem sourceContext?_eq (source : List Char) (n : Nat) :
    sourceContext? ((Text.lines source).map String.ofList).toArray n = context? source n := by
  rw [sourceContext?, context?]
  generalize Text.lines source = lines
  simp only [Option.isNone_iff_eq_none, shown?_eq_none_iff]
  by_cases outside : n = 0 ∨ lines.length < n
  · rw [if_pos (by simp; omega), if_pos outside]
  · obtain ⟨m, rfl⟩ := Nat.exists_eq_add_one.mpr (show 0 < n by omega)
    rw [if_neg (by simp; omega), if_neg outside]
    simp only [Int.toNat_natCast, List.extract_toArray, List.extract_eq_take_drop]
    congr 2
    cases m with
    | zero =>
      have above : shown? lines (0 + 1 - 1) = none := rfl
      rw [List.filterMap_cons_none above, show 0 + 1 + 1 - (0 + 1 - 2) = 2 from rfl,
        map_zipIdx_take_two]
      simp only [List.getElem?_drop, List.getElem?_map, Option.map_map]
      rfl
    | succ m =>
      have three : m + 1 + 1 + 1 - (m + 1 + 1 - 2) = 3 := by omega
      rw [three, map_zipIdx_take_three]
      simp only [List.getElem?_drop, List.getElem?_map, Option.map_map]
      rfl

end Context

section Lines

variable (report : Report)

theorem digits_toDigits (n : Nat) : Digits (Nat.toDigits 10 n) :=
  ⟨Nat.toDigits_ne_nil, fun _ member => Text.isDigit_of_mem_toDigits member⟩

theorem not_mem_spaced {c : Char} {word number unit other : List Char} (space : c ≠ ' ')
    (inWord : c ∉ word) (inNumber : c ∉ number) (inUnit : c ∉ unit) (inOther : c ∉ other) :
    c ∉ spaced word number unit other := by
  simp [spaced, space, inWord, inNumber, inUnit, inOther]

theorem newline_not_mem_digits (n : Nat) : '\n' ∉ Nat.toDigits 10 n :=
  (digits_toDigits n).not_mem (by decide)

theorem newline_not_mem_announcement {path : List Char} {line column : Nat} (inPath : '\n' ∉ path) :
    '\n' ∉ announcement path line column := by
  have location : '\n' ∉ inWords (Nat.toDigits 10 line) (Nat.toDigits 10 column) :=
    not_mem_spaced (by decide) (by decide) (newline_not_mem_digits _) (by decide)
      (newline_not_mem_digits _)
  have announced : '\n' ∉ "Exception: ".toList := by decide
  unfold announcement
  generalize "Exception: ".toList = opening at announced ⊢
  simp [announced, inPath, location]

theorem newline_not_mem_header : '\n' ∉ report.header :=
  newline_not_mem_announcement report.path_inLine

theorem newline_not_mem_body : '\n' ∉ report.body := by
  have announced : '\n' ∉ "  parse error: ".toList := by decide
  unfold Report.body
  generalize "  parse error: ".toList = announcement at announced ⊢
  simp [announced, report.message_inLine]

theorem lines_render (reports : List Report) :
    Text.lines (render reports) =
      (reports.flatMap fun report => [report.header, report.body]) ++ [[]] := by
  induction reports with
  | nil => rfl
  | cons report reports ih =>
    have split : render (report :: reports) =
        report.header ++ '\n' :: (report.body ++ '\n' :: render reports) := by
      simp [render, Report.text]
    rw [split, Text.lines_cons (newline_not_mem_header report),
      Text.lines_cons (newline_not_mem_body report), ih]
    rfl

end Lines

section Rows

variable (report : Report)

theorem not_letter_of_mem_digits {c : Char} {n : Nat} (member : c ∈ Nat.toDigits 10 n) :
    Text.sameLetter 'e' c = false := by
  have each : ∀ c ∈ "0123456789".toList, Text.sameLetter 'e' c = false := by decide
  exact each c (Text.mem_of_mem_toDigits member)

/-- What stands in front of a marker: words and numbers that spaces separate. -/
def leadOf (announcement path word line unit column opening : List Char) : List Char :=
  (announcement ++ [' ']) ++ ((path ++ [' ']) ++ ((word ++ [' ']) ++
    ((line ++ ' ' :: (unit ++ ' ' :: (column ++ [':', '\n', ' ', ' ']))) ++ (opening ++ [' ']))))

theorem leadOf_eq (announcement path word line unit column opening marked : List Char) :
    ((announcement ++ [' ']) ++ path ++ ' ' :: (spaced word line unit column ++ [':'])) ++
        '\n' :: ([' ', ' '] ++ opening ++ ' ' :: marked) =
      leadOf announcement path word line unit column opening ++ marked := by
  simp [leadOf, spaced]

theorem count_leadOf {announcement path word line unit column opening : List Char}
    (others : ∀ part ∈ [announcement, path, word, line, unit, column, opening], '\n' ∉ part) :
    (leadOf announcement path word line unit column opening).count '\n' = 1 := by
  simp only [← List.count_eq_zero, List.forall_mem_cons] at others
  simp [leadOf, others]

theorem quiet_leadOf {announcement path word line unit column opening : List Char}
    (words : ∀ part ∈ [announcement, path, word, opening], markerWord.occursIn part = false)
    (others : ∀ part ∈ [line, unit, column], ∀ c ∈ part, Text.sameLetter 'e' c = false)
    (tail : List Char) : Quiet (leadOf announcement path word line unit column opening) tail := by
  simp only [List.forall_mem_cons] at words
  obtain ⟨announcement_quiet, path_quiet, word_quiet, opening_quiet, -⟩ := words
  refine quiet_append (quiet_space announcement_quiet _) ?_
  refine quiet_append (quiet_space path_quiet _) ?_
  refine quiet_append (quiet_space word_quiet _) ?_
  refine quiet_append (quiet_of_free ?_ _) (quiet_space opening_quiet _)
  have ends : ∀ c ∈ [' ', ':', '\n'], Text.sameLetter 'e' c = false := by decide
  simp only [List.forall_mem_cons] at others ends
  simp only [List.forall_mem_append, List.forall_mem_cons]
  exact ⟨others.1, ends.1, others.2.1, ends.1, others.2.2.1, ends.2.1, ends.2.2.1, ends.1, ends.1, by simp⟩

theorem count_announced {path : List Char} (inLine : '\n' ∉ path) (line column : Nat) :
    (leadOf "Exception:".toList path "line".toList (Nat.toDigits 10 line) "char".toList
      (Nat.toDigits 10 column) "parse".toList).count '\n' = 1 := by
  have words : '\n' ∉ "Exception:".toList ∧ '\n' ∉ "line".toList ∧ '\n' ∉ "char".toList ∧
    '\n' ∉ "parse".toList := by decide
  refine count_leadOf ?_
  simp only [List.forall_mem_cons]
  exact ⟨words.1, inLine, words.2.1, newline_not_mem_digits _, words.2.2.1,
    newline_not_mem_digits _, words.2.2.2, by simp⟩

theorem quiet_announced {path : List Char} (unmarked : markerWord.occursIn path = false)
    (line column : Nat) (tail : List Char) :
    Quiet (leadOf "Exception:".toList path "line".toList (Nat.toDigits 10 line) "char".toList
      (Nat.toDigits 10 column) "parse".toList) tail := by
  refine quiet_leadOf ?_ ?_ tail
  · have words : markerWord.occursIn "Exception:".toList = false ∧
      markerWord.occursIn "line".toList = false ∧ markerWord.occursIn "parse".toList = false := by decide
    simp only [List.forall_mem_cons]
    exact ⟨words.1, unmarked, words.2.1, words.2.2, by simp⟩
  · have unit : ∀ c ∈ "char".toList, Text.sameLetter 'e' c = false := by decide
    simp only [List.forall_mem_cons]
    exact ⟨fun c => not_letter_of_mem_digits, unit, fun c => not_letter_of_mem_digits, by simp⟩

/-- What stands in front of the marker of a report. -/
def Report.lead : List Char :=
  leadOf "Exception:".toList report.path "line".toList (Nat.toDigits 10 report.line) "char".toList
    (Nat.toDigits 10 report.column) "parse".toList

/-- The marker of a report. -/
def Report.marked : List Char :=
  "error".toList ++ [':'] ++ [' '] ++ report.message

theorem text_eq : report.text = report.lead ++ (report.marked ++ ['\n']) := by
  have announced : "Exception: ".toList = "Exception:".toList ++ [' '] := by decide
  have said : ("  parse error: ".toList ++ report.message) ++ ['\n'] =
      [' ', ' '] ++ "parse".toList ++ ' ' :: (report.marked ++ ['\n']) := by rfl
  let text (announcement body : List Char) : List Char :=
    (announcement ++ report.path ++ ' ' :: (report.location ++ [':'])) ++ '\n' :: body
  have split := leadOf_eq "Exception:".toList report.path "line".toList (Nat.toDigits 10 report.line)
    "char".toList (Nat.toDigits 10 report.column) "parse".toList (report.marked ++ ['\n'])
  exact (congrArg₂ text announced said).trans split

theorem count_lead : report.lead.count '\n' = 1 :=
  count_announced report.path_inLine report.line report.column

theorem quiet_lead (tail : List Char) : Quiet report.lead tail :=
  quiet_announced report.path_unmarked report.line report.column tail

theorem blind_marker (word : String) (last : Option Char) : (marker word).Blind last := by
  have looks : (marker word).lookbehinds = [] := by
    simp only [marker, Pattern.lookbehinds_append, Pattern.lookbehinds_anyCase]
    rfl
  intro holds member
  rw [looks] at member
  contradiction

theorem row_behind (front : List Char) (text : List Char) (found : Match) :
    row (front ++ text) (found.behind front) =
      ((row text found).1, (row text found).2 + front.count '\n') := by
  have numbered := Source.LineIndex.lineOf_append front text found.start.offset
  have first := Source.LineIndex.lineOf_ofText text found.start.offset
  have line : (Source.LineIndex.ofText (front ++ text)).lineOf (found.behind front).start.offset =
      (Source.LineIndex.ofText text).lineOf found.start.offset + front.count '\n' := numbered
  rw [row, row, line, Text.Match.text_behind, first]
  congr 1
  omega

theorem entries_append_of_match {word : String} {front text : List Char} {here : Match}
    (matched : (marker word).matchAt? (placeAt (front ++ text) 0) = some here)
    (forward : 0 < here.stop.offset) (inside : here.stop.offset ≤ front.length)
    (passes : (marker word).Passes (front ++ text) here.stop.offset front.length) :
    entries word (front ++ text) = row (front ++ text) here ::
      (entries word text).map fun entry => (entry.1, entry.2 + front.count '\n') := by
  rw [entries, Pattern.matchesIn_append_of_match (blind_marker word _) matched forward inside passes,
    entries, List.map_cons, List.map_map, List.map_map]
  congr 2
  funext found
  exact row_behind front text found

theorem entries_append {word : String} {front text : List Char}
    (passes : (marker word).Passes (front ++ text) 0 front.length) : entries word (front ++ text) =
      (entries word text).map fun entry => (entry.1, entry.2 + front.count '\n') := by
  rw [entries, Pattern.matchesIn_append (blind_marker word _) passes, entries, List.map_map,
    List.map_map]
  congr 1
  funext found
  exact row_behind front text found

theorem rows_append_of_match {front text : List Char} {here : Match}
    (matched : errorMarker.matchAt? (placeAt (front ++ text) 0) = some here)
    (forward : 0 < here.stop.offset) (inside : here.stop.offset ≤ front.length)
    (passes : errorMarker.Passes (front ++ text) here.stop.offset front.length) :
    rows (front ++ text) = row (front ++ text) here ::
      (rows text).map fun entry => (entry.1, entry.2 + front.count '\n') :=
  entries_append_of_match matched forward inside passes

theorem rows_append {front text : List Char}
    (passes : errorMarker.Passes (front ++ text) 0 front.length) :
    rows (front ++ text) = (rows text).map fun entry => (entry.1, entry.2 + front.count '\n') :=
  entries_append passes

theorem head_message : ∀ c, report.message.head? = some c → isBlank c = false := by
  intro c first
  have visible := report.message_first
  rwa [first] at visible

theorem exists_match {written message : List Char} (spells : Spells "error" written)
    (visible : ∀ c, message.head? = some c → isBlank c = false) (nonempty : message ≠ [])
    (inLine : '\n' ∉ message) (rest : List Char) :
    ∃ here, errorMarker.matchAt? (placeAt (written ++ [':'] ++ [' '] ++ message ++ '\n' :: rest) 0) =
        some here ∧ here.start.offset = 0 ∧
      here.stop.offset = (written ++ [':'] ++ [' '] ++ message).length ∧ here.text 1 = message := by
  have taken : errorMarker.Takes [] (written ++ [':'] ++ [' '] ++ message) ('\n' :: rest) [] _ :=
    takes_marker spells (by decide) visible nonempty inLine (by simp [EndsLine])
  have matched := Pattern.matchAt?_of_takes taken
  exact ⟨_, matched, rfl, rfl, by simp [Match.text, Match.text?, Match.capture?]⟩

theorem newline_not_mem_marked : '\n' ∉ report.marked := by
  have word : '\n' ∉ "error".toList := by decide
  unfold Report.marked
  generalize "error".toList = written at word ⊢
  simp [word, report.message_inLine]

theorem rows_marked_append (rest : List Char) :
    rows ((report.marked ++ ['\n']) ++ rest) =
      (report.message, 0) :: (rows rest).map fun entry => (entry.1, entry.2 + 1) := by
  obtain ⟨here, matched, start, stop, said⟩ := exists_match (Text.spells_self "error")
    (head_message report) report.message_ne_nil report.message_inLine rest
  have grouped : report.marked ++ '\n' :: rest = (report.marked ++ ['\n']) ++ rest := by simp
  have nonempty : 0 < report.marked.length := List.length_pos_of_mem (List.mem_append_right _
    (List.head_mem report.message_ne_nil))
  have passes : errorMarker.Passes ((report.marked ++ ['\n']) ++ rest) report.marked.length
      (report.marked ++ ['\n']).length := by
    have quiet : Quiet ['\n'] rest := quiet_of_free (by decide) rest
    have passed := quiet.passes report.marked
    rwa [← List.append_assoc] at passed
  have ends : (report.marked ++ ['\n']).count '\n' = 1 := by
    rw [List.count_append, List.count_eq_zero.mpr (newline_not_mem_marked report)]
    rfl
  change errorMarker.matchAt? (placeAt (report.marked ++ '\n' :: rest) 0) = some here at matched
  change here.stop.offset = report.marked.length at stop
  rw [grouped] at matched
  rw [← stop] at passes nonempty
  have first := Source.LineIndex.lineOf_ofText ((report.marked ++ ['\n']) ++ rest) 0
  rw [rows_append_of_match matched nonempty (by rw [stop]; simp) passes, ends, row, said, start,
    Text.strip_eq_self report.message_first report.message_last, first]
  rfl

theorem rows_text_append (rest : List Char) :
    rows (report.text ++ rest) =
      (report.message, 1) :: (rows rest).map fun entry => (entry.1, entry.2 + 2) := by
  have front : errorMarker.Passes (report.lead ++ ((report.marked ++ ['\n']) ++ rest)) 0
      report.lead.length := (quiet_lead report ((report.marked ++ ['\n']) ++ rest)).passes []
  rw [text_eq, List.append_assoc, rows_append front, rows_marked_append, count_lead]
  simp

theorem rows_nil : rows [] = [] := by decide

/-- The messages of reports stand on every second line. -/
theorem getElem?_rows (reports : List Report) (i : Nat) :
    (rows (render reports))[i]? = reports[i]?.map fun report => (report.message, 2 * i + 1) := by
  induction reports generalizing i with
  | nil => simp [render, rows_nil]
  | cons report reports ih =>
    have split : render (report :: reports) = report.text ++ render reports := rfl
    rw [split, rows_text_append]
    cases i with
    | zero => rfl
    | succ i =>
      rw [List.getElem?_cons_succ, List.getElem?_cons_succ, List.getElem?_map, ih, Option.map_map]
      rfl

end Rows

section Reading

variable {reports : List Report} {report : Report} {i : Nat}

theorem length_lines_render (reports : List Report) :
    (Text.lines (render reports)).length = 2 * reports.length + 1 := by
  rw [lines_render]
  induction reports with
  | nil => rfl
  | cons report reports ih => simp_all; omega

theorem getElem?_lines_render (here : reports[i]? = some report) :
    (Text.lines (render reports))[2 * i]? = some report.header ∧
      (Text.lines (render reports))[2 * i + 1]? = some report.body := by
  rw [lines_render]
  induction reports generalizing i with
  | nil => contradiction
  | cons first reports ih =>
    cases i with
    | zero =>
      obtain rfl := Option.some.inj here
      exact ⟨rfl, rfl⟩
    | succ i => exact ih here

theorem getElem?_lines_render_last (reports : List Report) :
    (Text.lines (render reports))[2 * reports.length]? = some [] := by
  rw [lines_render]
  induction reports with
  | nil => rfl
  | cons report reports ih => exact ih

/-- The marker that is found for a report. -/
def markerOf (reports : List Report) (i : Nat) (report : Report) : Marker :=
  ⟨report.message, 2 * i + 1, if i = 0 then none else some (2 * (i - 1) + 1),
    reports[i + 1]?.map fun _ => 2 * (i + 1) + 1⟩

theorem getElem?_markers (here : reports[i]? = some report) :
    (markers (render reports))[i]? = some (markerOf reports i report) := by
  have previous : (if i = 0 then none else (rows (render reports))[i - 1]?.map (·.2)) =
      if i = 0 then none else some (2 * (i - 1) + 1) := by
    split
    · rfl
    · have before : i - 1 < reports.length := by
        have inside := List.getElem?_eq_some_iff.mp here |>.1
        omega
      rw [getElem?_rows, List.getElem?_eq_getElem before]
      rfl
  rw [markers_eq, getElem?_withNeighbours, previous, getElem?_rows, getElem?_rows, here, markerOf]
  cases reports[i + 1]? <;> rfl

theorem isHeader_announcement (path : List Char) (line column : Nat) :
    isHeader (announcement path line column) = true := by
  have ends : (announcement path line column).reverse = ':' ::
      (("Exception: ".toList ++ path) ++
        ' ' :: inWords (Nat.toDigits 10 line) (Nat.toDigits 10 column)).reverse := by
    unfold announcement
    generalize "Exception: ".toList = announced
    simp
  rw [isHeader, ends]
  rfl

theorem isHeader_header (report : Report) : isHeader report.header = true :=
  isHeader_announcement report.path report.line report.column

theorem extract_one {lines : List (List Char)} {line : List Char} (here : lines[i]? = some line) :
    (lines.toArray.extract i (i + 1)).toList = [line] := by
  obtain ⟨inside, rfl⟩ := List.getElem?_eq_some_iff.mp here
  rw [List.extract_toArray, List.extract_eq_take_drop, Nat.add_sub_cancel_left,
    List.drop_eq_getElem_cons inside]
  rfl

/-- Only a line end stands between a report and the next one. -/
theorem tail_markerOf (here : reports[i]? = some report) :
    ['\n'].intercalate ((markerOf reports i report).tail (Text.lines (render reports)).toArray) = [] := by
  rw [Marker.tail, markerOf]
  cases next : reports[i + 1]? with
  | none =>
    have last : reports.length = i + 1 := by
      have inside := List.getElem?_eq_some_iff.mp here |>.1
      have outside := List.getElem?_eq_none_iff.mp next
      omega
    have empty := getElem?_lines_render_last reports
    have size : (Text.lines (render reports)).toArray.size = 2 * reports.length + 1 :=
      length_lines_render reports
    simp only [Option.map_none, size, last] at empty ⊢
    rw [show 2 * i + 1 + 1 = 2 * (i + 1) by omega, extract_one empty]
    rfl
  | some report =>
    have header := (getElem?_lines_render next).1
    simp only [Option.map_some]
    rw [show 2 * i + 1 + 1 = 2 * (i + 1) by omega, extract_one header]
    simp [isHeader_header]

theorem header?_markerOf (here : reports[i]? = some report) :
    (markerOf reports i report).header? (Text.lines (render reports)).toArray =
      some report.header := by
  have above : (Text.lines (render reports)).toArray[2 * i]? = some report.header := by
    rw [List.getElem?_toArray]
    exact (getElem?_lines_render here).1
  have before : (markerOf reports i report).previous.all (· < 2 * i) = true := by
    rw [markerOf]
    split
    · rfl
    · simp
      omega
  change (if (markerOf reports i report).previous.all (· < 2 * i) then _ else none) = _
  rw [if_pos before, above, Option.filter_some, if_pos (isHeader_header report)]

theorem regions_markerOf (here : reports[i]? = some report) :
    (markerOf reports i report).regions (Text.lines (render reports)).toArray =
      [report.body, [], report.header] := by
  have line : (Text.lines (render reports)).toArray.getD (2 * i + 1) [] = report.body := by
    rw [Array.getD_eq_getD_getElem?, List.getElem?_toArray, (getElem?_lines_render here).2]
    rfl
  rw [Marker.regions, header?_markerOf here, tail_markerOf here]
  exact congrArg (fun first => [first, [], report.header]) line

theorem locate?_header (report : Report) : locate? report.header = report.place.map some := by
  have located : locationText? report.header = _ :=
    locationText?_behind report.path_unlocated (digits_toDigits report.line)
      (digits_toDigits report.column) (ends_colon [])
  rw [locate?, located, Report.place]
  cases line : Text.readDecimal (Nat.toDigits 10 report.line) with
  | error number => simp only [line]; rfl
  | ok n =>
    cases column : Text.readDecimal (Nat.toDigits 10 report.column) with
    | error number => simp only [line, column]; rfl
    | ok m => simp only [line, column]; rfl

theorem location?_markerOf (here : reports[i]? = some report) :
    (markerOf reports i report).location? (Text.lines (render reports)).toArray =
      report.place.map some := by
  have empty : locate? [] = .ok none := locate?_of_unlocated (by decide)
  have body : locate? report.body = .ok none := locate?_of_unlocated report.message_unlocated
  rw [Marker.location?, regions_markerOf here, locateIn?, body, locateIn?, empty, locateIn?,
    locate?_header]
  cases report.place <;> rfl

theorem diagnostic_markerOf (here : reports[i]? = some report) (source : List Char) :
    (markerOf reports i report).diagnostic (Text.lines (render reports)).toArray
        ((Text.lines source).map String.ofList).toArray = report.read source := by
  rw [Marker.diagnostic, location?_markerOf here, Report.read]
  cases report.place with
  | error number => rfl
  | ok place =>
    let diagnostic (context : Option String) : ContractInspector.Diagnostic :=
      ⟨some place, String.ofList report.message, .error, context⟩
    exact congrArg (Except.ok <| diagnostic ·) (sourceContext?_eq source place.line)

end Reading

section Errors

variable (source : List Char) (reports : List Report)

theorem mapM_eq_ok_iff {α β ε : Type} {items : List α} {results : List β} {read : α → Except ε β} :
    items.mapM read = .ok results ↔
      List.Forall₂ (fun item result => read item = .ok result) items results := by
  induction items generalizing results with
  | nil =>
    rw [List.forall₂_nil_left_iff, List.mapM_nil]
    exact ⟨fun same => (Except.ok.inj same).symm, fun same => same ▸ rfl⟩
  | cons item items ih =>
    rw [List.mapM_cons, List.forall₂_cons_left_iff]
    cases first : read item with
    | error fault => simp [bind, Except.bind]
    | ok result =>
      cases others : items.mapM read with
      | error fault => simp [bind, Except.bind, ← ih, others]
      | ok found => simp [bind, Except.bind, ← ih, others, pure, Except.pure, eq_comm]

theorem map_diagnostic_markers :
    (markers (render reports)).map (·.diagnostic (Text.lines (render reports)).toArray
      ((Text.lines source).map String.ofList).toArray) = reports.map (·.read source) := by
  refine List.ext_getElem? fun i => ?_
  rw [List.getElem?_map, List.getElem?_map]
  cases here : reports[i]? with
  | none =>
    have outside : (rows (render reports))[i]? = none := by
      rw [getElem?_rows, here]
      rfl
    rw [markers_eq, getElem?_withNeighbours, outside]
    rfl
  | some report =>
    rw [getElem?_markers here, Option.map_some, diagnostic_markerOf here, Option.map_some]

theorem mapM_markers :
    (markers (render reports)).mapM (·.diagnostic (Text.lines (render reports)).toArray
      ((Text.lines source).map String.ofList).toArray) = reports.mapM (·.read source) := by
  have reads := congrArg (List.mapM id) (map_diagnostic_markers source reports)
  rwa [List.mapM_map, List.mapM_map] at reads

/-- The errors in the usual output are those that it was made of, as far as they are read. -/
theorem errors_render_eq : errors (render reports) source = reports.mapM (·.read source) := by
  rw [errors, mapM_markers]
  cases read : reports.mapM (·.read source) with
  | error number => rfl
  | ok found =>
    cases reports with
    | nil =>
      obtain rfl := Except.ok.inj read
      rfl
    | cons report reports =>
      have each := mapM_eq_ok_iff.mp read
      obtain ⟨first, others, -, -, rfl⟩ := List.forall₂_cons_left_iff.mp each
      rfl

theorem Report.read_eq_ok_iff (report : Report) :
    report.read source = .ok (report.diagnostic source) ↔ report.Short := by
  rw [Report.read, Report.place, Report.Short]
  by_cases line : report.line < 10 ^ maxDigits
  · rw [Text.readDecimal_toDigits line]
    by_cases column : report.column < 10 ^ maxDigits
    · rw [Text.readDecimal_toDigits column]
      exact iff_of_true rfl ⟨line, column⟩
    · rw [Text.readDecimal_toDigits_long column]
      exact iff_of_false (fun same => nomatch same) (fun both => column both.2)
  · rw [Text.readDecimal_toDigits_long line]
    exact iff_of_false (fun same => nomatch same) (fun both => line both.1)

/-- Reports with short numbers, and no others, are read back as they were written. -/
theorem errors_render :
    errors (render reports) source = .ok (reports.map (·.diagnostic source)) ↔
      ∀ report ∈ reports, report.Short := by
  rw [errors_render_eq, mapM_eq_ok_iff, List.forall₂_map_right_iff, List.forall₂_same]
  simp only [Report.read_eq_ok_iff]

/-- A report of the first line that is not read. -/
def farReport : Report where
  path := ['p']
  line := 10 ^ maxDigits
  column := 1
  message := ['x']
  path_inLine := by decide
  path_unmarked := by decide
  path_unlocated := by decide
  message_ne_nil := by decide
  message_inLine := by decide
  message_first := by decide
  message_last := by decide
  message_unlocated := by decide

theorem errors_render_far : ∃ fault, errors (render [farReport]) ['a'] = .error fault := by
  rw [errors_render_eq, List.mapM_cons, Report.read, Report.place, farReport,
    Text.readDecimal_toDigits_long (Nat.lt_irrefl _)]
  exact ⟨_, rfl⟩

end Errors

end ContractInspector.Diagnostic
