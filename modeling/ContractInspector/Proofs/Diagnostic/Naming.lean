import ContractInspector.Proofs.Diagnostic.Path
import ContractInspector.Proofs.Diagnostic.Rendering
import ContractInspector.Proofs.Guard.Filename

/-! Compiler output about one file with a safe name, in its two forms. Both are read as one error;
`reported_iff` says when its location is the one that stands behind the name. -/
namespace ContractInspector.Diagnostic

open Guard (IsContractName)
open Text (Match Pattern isDigit maxDigits placeAt strip)

variable {output source directory name message said : List Char} {line column n : Nat}

/-- A message behind a path and its line and column. -/
def colonForm (path : List Char) (line column : Nat) (message : List Char) : List Char :=
  path ++ (([':'] ++ Nat.toDigits 10 line ++ [':'] ++ Nat.toDigits 10 column) ++
    (": error: ".toList ++ message))

/-- A message below a path and its line and column in words. -/
def wordForm (path : List Char) (line column : Nat) (message : List Char) : List Char :=
  announcement path line column ++ '\n' :: ("  parse error: ".toList ++ message)

/-- Some output is read as one error at a line and a column. -/
def Reported (output source : List Char) (line column : Nat) : Prop :=
  ∃ diagnostic, errors output source = .ok [diagnostic] ∧
    diagnostic.location = some ⟨line, some column⟩

/-- The numbers behind a name are those that are read, as there is no other location in it and they are
short, or as the first one in it is the same. -/
def Recovered (name : List Char) (line column : Nat) : Prop :=
  (locationPattern.occursIn name = false ∧ line < 10 ^ maxDigits ∧ column < 10 ^ maxDigits) ∨
    locate? name = .ok (some ⟨line, some column⟩)

section Rows

theorem matchesAt_end (output : List Char) : errorMarker.matchesAt output output.length 0 [] = [] := by
  have none : errorMarker.matchAt? (.between output []) = none :=
    matchAt?_of_not_starts (not_starts_of_colonless List.not_mem_nil)
  have place := Text.placeAt_length output []
  rw [List.append_nil] at place
  rw [Pattern.matchesAt_zero, place, none, Option.elim_none, if_neg (Nat.lt_irrefl _)]
  rfl

theorem marked_line (inLine : '\n' ∉ message) {found : Match}
    (member : found ∈ errorMarker.matchesIn ("error: ".toList ++ message))
    (start : found.start.offset = 0) :
    found.stop.offset = ("error: ".toList ++ message).length ∧ strip (found.text 1) = strip message := by
  obtain ⟨front, written, gap, shown, rest, marked⟩ := exists_marked member
  obtain rfl : front = [] := List.eq_nil_of_length_eq_zero (marked.start.symm.trans start)
  have split : "error".toList ++ ':' :: (' ' :: message) =
      written ++ ':' :: (gap ++ (shown ++ rest)) := marked.split
  obtain ⟨letters, behind⟩ := List.append_inj split marked.spells.length_eq
  have said : ' ' :: message = gap ++ (shown ++ rest) := (List.cons.inj behind).2
  obtain rfl : rest = [] := by
    cases rest with
    | nil => rfl
    | cons c rest =>
      have within : '\n' ∈ ' ' :: message := by
        rw [said, marked.ends c rfl]
        simp
      exact absurd (List.mem_of_ne_of_mem (by decide) within) inLine
  constructor
  · rw [marked.stop, marked.split]
    simp
    omega
  · have blank : ∀ c ∈ [' '], Text.isBlank c = true := by decide
    rw [marked.text_eq, ← Text.strip_append_left marked.blank, ← List.append_nil shown, ← said]
    exact Text.strip_append_left blank message

/-- A line that starts with a marker is one match. -/
theorem exists_matchesIn_error (inLine : '\n' ∉ message) :
    ∃ here, errorMarker.matchesIn ("error: ".toList ++ message) = [here] ∧ here.start.offset = 0 ∧
      strip (here.text 1) = strip message := by
  -- The space behind the colon is something to say, even in front of an empty message.
  have inSaid : '\n' ∉ ' ' :: message := by simpa using inLine
  obtain ⟨here, matched⟩ : ∃ here,
      errorMarker.matchAt? (.between [] ("error: ".toList ++ message)) = some here := by
    have found := exists_matchAt?_marker (Text.spells_self "error") (List.cons_ne_nil _ _) inSaid [] []
    rwa [List.append_nil] at found
  rw [← Text.placeAt_length, List.nil_append, List.length_nil] at matched
  have start := (Pattern.fits_of_matchAt? matched).1
  obtain ⟨found, member, rfl | ⟨before, -⟩⟩ := Pattern.exists_mem_matchesIn (Nat.zero_le _) matched
  · obtain ⟨stop, said⟩ := marked_line inLine member start
    have one := Pattern.matchesAt_found matched (by rw [stop]; simp) (Nat.le_of_eq stop)
    rw [stop, matchesAt_end, ← Pattern.matchesIn_eq_matchesAt] at one
    exact ⟨found, one, start, said⟩
  · exact absurd before (Nat.not_lt_zero _)

theorem rows_error (inLine : '\n' ∉ message) :
    rows ("error: ".toList ++ message) = [(strip message, 0)] := by
  obtain ⟨here, matched, start, said⟩ := exists_matchesIn_error inLine
  have first := Source.LineIndex.lineOf_ofText ("error: ".toList ++ message) 0
  rw [rows, matched, List.map_singleton, row, said, start, first]
  rfl

theorem rows_behind {lead : List Char} (quiet : ∀ tail, Quiet lead tail) (inLine : '\n' ∉ message) :
    rows (lead ++ ("error: ".toList ++ message)) = [(strip message, lead.count '\n')] := by
  have passes : errorMarker.Passes (lead ++ ("error: ".toList ++ message)) 0 lead.length :=
    (quiet ("error: ".toList ++ message)).passes []
  rw [rows_append passes, rows_error inLine, List.map_singleton, Nat.zero_add]

end Rows

section Errors

theorem markers_of_rows (one : rows output = [(said, n)]) :
    markers output = [⟨said, n, none, none⟩] := by
  rw [markers_eq, one]
  rfl

/-- With one marker, the location decides whether anything is returned. -/
theorem exists_errors_of_rows (one : rows output = [(said, n)]) (source : List Char) :
    (∃ found, errors output source = .ok found) ↔
      ∃ location, Marker.location? ⟨said, n, none, none⟩ (Text.lines output).toArray = .ok location := by
  rw [errors, markers_of_rows one, List.mapM_cons, List.mapM_nil, Marker.diagnostic]
  cases Marker.location? ⟨said, n, none, none⟩ (Text.lines output).toArray with
  | error number => simp [Except.map, bind, Except.bind]
  | ok location => simp [Except.map, bind, Except.bind, pure, Except.pure]

theorem reported_iff_of_rows (one : rows output = [(said, n)]) :
    Reported output source line column ↔
      Marker.location? ⟨said, n, none, none⟩ (Text.lines output).toArray =
        .ok (some ⟨line, some column⟩) := by
  rw [Reported, errors, markers_of_rows one, List.mapM_cons, List.mapM_nil, Marker.diagnostic]
  cases located : Marker.location? ⟨said, n, none, none⟩ (Text.lines output).toArray with
  | error number => simp [Except.map, bind, Except.bind]
  | ok location => simp [Except.map, bind, Except.bind, pure, Except.pure, eq_comm]

theorem locate?_congr {first second : List Char} (same : locationText? first = locationText? second) :
    locate? first = locate? second := by
  rw [locate?, locate?, same]

theorem locate?_eq_ok_iff {text : List Char}
    (found : locationText? text = some (Nat.toDigits 10 line, some (Nat.toDigits 10 column))) :
    locate? text = .ok (some ⟨line, some column⟩) ↔ line < 10 ^ maxDigits ∧ column < 10 ^ maxDigits := by
  rw [locate?, found]
  by_cases short : line < 10 ^ maxDigits
  · by_cases shortColumn : column < 10 ^ maxDigits
    · simp only [Text.readDecimal_toDigits short, Text.readDecimal_toDigits shortColumn]
      exact iff_of_true rfl ⟨short, shortColumn⟩
    · simp only [Text.readDecimal_toDigits short, Text.readDecimal_toDigits_long shortColumn]
      constructor
      · intro same
        cases same
      · intro both
        exact absurd both.2 shortColumn
  · simp only [Text.readDecimal_toDigits_long short]
    constructor
    · intro same
      cases same
    · intro both
      exact absurd both.1 short

theorem locate?_iff_recovered {text : List Char}
    (inside : locationPattern.occursIn name = true → locationText? text = locationText? name)
    (behind : locationPattern.occursIn name = false →
      locationText? text = some (Nat.toDigits 10 line, some (Nat.toDigits 10 column))) :
    locate? text = .ok (some ⟨line, some column⟩) ↔ Recovered name line column := by
  rw [Recovered]
  cases located : locationPattern.occursIn name with
  | true => simp [locate?_congr (inside located)]
  | false => simp [locate?_eq_ok_iff (behind located), locate?_of_unlocated located]

end Errors

section Forms

theorem unmarked_path (unmarked : markerWord.occursIn directory = false) (named : IsContractName name) :
    markerWord.occursIn (directory ++ '/' :: name) = false := by
  have colonless : ':' ∉ name ++ [] := by
    rw [List.append_nil]
    exact named.not_mem (by decide)
  rw [List.append_cons]
  exact unmarked_of_quiet
    (quiet_append (quiet_mark unmarked (by decide) (by decide) _) (quiet_of_colonless colonless))

theorem newline_not_mem_path (inDirectory : '\n' ∉ directory) (named : IsContractName name) :
    '\n' ∉ directory ++ '/' :: name := by
  have inName : '\n' ∉ name := named.not_mem (by decide)
  simp [inDirectory, inName]

/-- A marker that starts in the name of a contract does not reach beyond the dot of the extension, and
none starts behind it. -/
theorem quiet_name {numbers : List Char} (named : IsContractName name)
    (free : ∀ c ∈ numbers, Text.sameLetter 'e' c = false) (tail : List Char) :
    Quiet (name ++ numbers) tail := by
  obtain ⟨stem, rfl⟩ := named.contract
  have colonless : ':' ∉ stem := by
    intro member
    exact named.not_mem (by decide) (List.mem_append_left _ member)
  have extension : ∀ c ∈ "compact".toList, Text.sameLetter 'e' c = false := by decide
  have split : stem ++ Language.fileExtension.toList ++ numbers =
      (stem ++ ['.']) ++ ("compact".toList ++ numbers) := by simp [fileExtension_eq]
  rw [split]
  apply quiet_append (quiet_mark (unmarked_of_colonless colonless) (by decide) (by decide) _)
  exact quiet_of_free (List.forall_mem_append.mpr ⟨extension, free⟩) tail

theorem rows_colonForm (inDirectory : '\n' ∉ directory)
    (unmarked : markerWord.occursIn directory = false) (named : IsContractName name)
    (inLine : '\n' ∉ message) :
    rows (colonForm (directory ++ '/' :: name) line column message) = [(strip message, 0)] := by
  let numbers := [':'] ++ Nat.toDigits 10 line ++ [':'] ++ Nat.toDigits 10 column ++ [':', ' ']
  let lead := (directory ++ ['/']) ++ (name ++ numbers)
  have split : colonForm (directory ++ '/' :: name) line column message =
      lead ++ ("error: ".toList ++ message) := by simp [colonForm, lead, numbers]
  have free : ∀ c ∈ numbers, Text.sameLetter 'e' c = false := by
    have digits : ∀ n, ∀ c ∈ Nat.toDigits 10 n, Text.sameLetter 'e' c = false := fun n c =>
      not_letter_of_mem_digits
    simp only [numbers, List.forall_mem_append]
    exact ⟨⟨⟨⟨by decide, digits line⟩, by decide⟩, digits column⟩, by decide⟩
  have quiet : ∀ tail, Quiet lead tail := fun tail =>
    quiet_append (quiet_mark unmarked (by decide) (by decide) _) (quiet_name named free tail)
  have inLead : '\n' ∉ lead := by
    have inName : '\n' ∉ name := named.not_mem (by decide)
    simp [lead, numbers, inDirectory, inName, newline_not_mem_digits]
  rw [split, rows_behind quiet inLine, List.count_eq_zero.mpr inLead]

theorem wordForm_eq (path : List Char) (line column : Nat) (message : List Char) :
    wordForm path line column message =
      leadOf "Exception:".toList path "line".toList (Nat.toDigits 10 line) "char".toList
        (Nat.toDigits 10 column) "parse".toList ++ ("error: ".toList ++ message) := by
  have announced : "Exception: ".toList = "Exception:".toList ++ [' '] := by decide
  have said : "  parse error: ".toList ++ message =
      [' ', ' '] ++ "parse".toList ++ ' ' :: ("error: ".toList ++ message) := by simp
  let text (announcement body : List Char) : List Char :=
    (announcement ++ path ++ ' ' :: (inWords (Nat.toDigits 10 line) (Nat.toDigits 10 column) ++ [':'])) ++
      '\n' :: body
  have split := leadOf_eq "Exception:".toList path "line".toList (Nat.toDigits 10 line) "char".toList
    (Nat.toDigits 10 column) "parse".toList ("error: ".toList ++ message)
  exact (congrArg₂ text announced said).trans split

theorem rows_wordForm (inDirectory : '\n' ∉ directory)
    (unmarked : markerWord.occursIn directory = false) (named : IsContractName name)
    (inLine : '\n' ∉ message) :
    rows (wordForm (directory ++ '/' :: name) line column message) = [(strip message, 1)] := by
  have quiet := quiet_announced (unmarked_path unmarked named) line column
  rw [wordForm_eq, rows_behind quiet inLine, count_announced (newline_not_mem_path inDirectory named)]

end Forms

section Regions

theorem locate?_nil : locate? [] = .ok none :=
  locate?_of_unlocated (by decide)

theorem location?_line {text : List Char} (inLine : '\n' ∉ text) :
    Marker.location? ⟨said, 0, none, none⟩ (Text.lines text).toArray = locate? text := by
  have regions : Marker.regions ⟨said, 0, none, none⟩ [text].toArray = [text, []] := rfl
  rw [Text.lines_of_not_mem inLine, Marker.location?, regions, locateIn?, locateIn?, locate?_nil]
  cases locate? text with
  | error number => rfl
  | ok location => cases location <;> rfl

/-- The location of a marker below a line that announces it is looked for there last. -/
theorem location?_below {header body : List Char} (inHeader : '\n' ∉ header) (inBody : '\n' ∉ body)
    (ends : isHeader header = true) (unlocated : locationPattern.occursIn body = false) :
    Marker.location? ⟨said, 1, none, none⟩ (Text.lines (header ++ '\n' :: body)).toArray =
      locate? header := by
  have above : Marker.header? ⟨said, 1, none, none⟩ [header, body].toArray =
      (some header).filter isHeader := rfl
  have regions : Marker.regions ⟨said, 1, none, none⟩ [header, body].toArray = [body, [], header] := by
    rw [Marker.regions, above, Option.filter_some, if_pos ends]
    rfl
  rw [Text.lines_cons inHeader, Text.lines_of_not_mem inBody, Marker.location?, regions, locateIn?,
    locate?_of_unlocated unlocated, locateIn?, locate?_nil, locateIn?, locateIn?]
  cases locate? header with
  | error number => rfl
  | ok location => cases location <;> rfl

/-- Of a path behind a silent text only the name counts. -/
theorem locationText?_path {front : List Char} (silent : Silent front)
    (unlocated : locationPattern.occursIn directory = false) (tail : List Char) :
    locationText? (front ++ (directory ++ '/' :: name) ++ tail) = locationText? (name ++ tail) := by
  rw [List.append_assoc, silent.locationText?, List.append_cons, List.append_assoc,
    (silent_directory unlocated).locationText?]

theorem occursIn_path {front : List Char} (silent : Silent front)
    (unlocated : locationPattern.occursIn directory = false) :
    locationPattern.occursIn (front ++ (directory ++ '/' :: name)) = locationPattern.occursIn name := by
  rw [silent.occursIn, List.append_cons, (silent_directory unlocated).occursIn]

theorem silent_nil : Silent [] :=
  ⟨rfl, fun _ _ _ below => absurd below (Nat.not_lt_zero _)⟩

theorem silent_exception : Silent "Exception: ".toList := by
  have shut : Shut "Exception: ".toList := by decide
  exact shut.silent (by decide)

theorem silent_parse : Silent "  parse error: ".toList := by
  have shut : Shut "  parse error: ".toList := by decide
  exact shut.silent (by decide)

theorem newline_not_mem_colonForm {path : List Char} (inPath : '\n' ∉ path) (inLine : '\n' ∉ message) :
    '\n' ∉ colonForm path line column message := by
  simp [colonForm, inPath, inLine, newline_not_mem_digits]

theorem reported_colonForm_iff (inDirectory : '\n' ∉ directory)
    (unmarked : markerWord.occursIn directory = false)
    (unlocated : locationPattern.occursIn directory = false) (named : IsContractName name)
    (inLine : '\n' ∉ message) (source : List Char) :
    Reported (colonForm (directory ++ '/' :: name) line column message) source line column ↔
      Recovered name line column := by
  have inForm : '\n' ∉ colonForm (directory ++ '/' :: name) line column message :=
    newline_not_mem_colonForm (newline_not_mem_path inDirectory named) inLine
  have path : ∀ tail, locationText? ([] ++ (directory ++ '/' :: name) ++ tail) =
      locationText? (name ++ tail) := locationText?_path silent_nil unlocated
  rw [List.nil_append] at path
  have colon : ": error: ".toList = ':' :: " error: ".toList := by decide
  have ends : ∀ c, (": error: ".toList ++ message).head? = some c → isDigit c = false := by
    rw [colon]
    exact ends_colon _
  rw [reported_iff_of_rows (rows_colonForm inDirectory unmarked named inLine), location?_line inForm]
  unfold colonForm
  generalize ": error: ".toList ++ message = said at ends ⊢
  apply locate?_iff_recovered
  · intro located
    rw [path]
    exact locationText?_name named.contract located _
  · intro alone
    rw [path]
    exact locationText?_colons named.contract alone (digits_toDigits line) (digits_toDigits column) ends

theorem reported_wordForm_iff (inDirectory : '\n' ∉ directory)
    (unmarked : markerWord.occursIn directory = false)
    (unlocated : locationPattern.occursIn directory = false) (named : IsContractName name)
    (inLine : '\n' ∉ message) (quiet : locationPattern.occursIn message = false)
    (source : List Char) :
    Reported (wordForm (directory ++ '/' :: name) line column message) source line column ↔
      Recovered name line column := by
  have inHeader : '\n' ∉ announcement (directory ++ '/' :: name) line column :=
    newline_not_mem_announcement (newline_not_mem_path inDirectory named)
  have inBody : '\n' ∉ "  parse error: ".toList ++ message := by simp [inLine]
  have body : locationPattern.occursIn ("  parse error: ".toList ++ message) = false :=
    (silent_parse.occursIn message).trans quiet
  rw [reported_iff_of_rows (rows_wordForm inDirectory unmarked named inLine), wordForm,
    location?_below inHeader inBody (isHeader_announcement _ _ _) body]
  apply locate?_iff_recovered
  · intro located
    exact (locationText?_path silent_exception unlocated _).trans
      (locationText?_name named.contract located _)
  · intro alone
    exact locationText?_behind ((occursIn_path silent_exception unlocated).trans alone)
      (digits_toDigits line) (digits_toDigits column) (ends_colon [])

end Regions

/-- Behind any file with a safe name, in a directory without locations and markers, the line and the
column are read back in both forms unless the name itself holds another location, or a number is too
long. -/
theorem reported_iff (filename : Option String) (line column : Nat) (source : List Char)
    (inDirectory : '\n' ∉ directory) (unmarked : markerWord.occursIn directory = false)
    (unlocated : locationPattern.occursIn directory = false) (inLine : '\n' ∉ message)
    (quiet : locationPattern.occursIn message = false) :
    (Reported (colonForm (directory ++ '/' :: (Guard.sanitizeFilename filename).toList) line column
        message) source line column ↔
      Recovered (Guard.sanitizeFilename filename).toList line column) ∧
    (Reported (wordForm (directory ++ '/' :: (Guard.sanitizeFilename filename).toList) line column
        message) source line column ↔
      Recovered (Guard.sanitizeFilename filename).toList line column) := by
  have named := Guard.isContractName_sanitizeFilename filename
  constructor
  · exact reported_colonForm_iff inDirectory unmarked unlocated named inLine source
  · exact reported_wordForm_iff inDirectory unmarked unlocated named inLine quiet source

theorem recovered_short (unlocated : locationPattern.occursIn name = false) (line_short : line < 10)
    (column_short : column < 10) : Recovered name line column := by
  have long : 10 ^ 1 ≤ 10 ^ maxDigits := Nat.pow_le_pow_right (by decide) (by decide)
  exact .inl ⟨unlocated, Nat.lt_of_lt_of_le line_short long, Nat.lt_of_lt_of_le column_short long⟩

theorem reported_iff_plain :
    Reported (colonForm ("/tmp".toList ++ '/' :: (Guard.sanitizeFilename (some "a.compact")).toList) 8 1
        ['x']) ['a'] 8 1 ∧
      Reported (wordForm ("/tmp".toList ++ '/' :: (Guard.sanitizeFilename (some "a.compact")).toList) 8 1
        ['x']) ['a'] 8 1 := by
  have both := reported_iff (some "a.compact") 8 1 ['a'] (by decide) (by decide)
    (by decide : locationPattern.occursIn "/tmp".toList = false) (by decide : '\n' ∉ ['x']) (by decide)
  have recovered : Recovered (Guard.sanitizeFilename (some "a.compact")).toList 8 1 :=
    recovered_short (by decide) (by decide) (by decide)
  exact ⟨both.1.mpr recovered, both.2.mpr recovered⟩

/-- A name may look like a location. -/
theorem not_reported_line5 :
    ¬Reported (colonForm ("/tmp".toList ++ '/' :: (Guard.sanitizeFilename (some "line5.compact")).toList)
      8 1 ['x']) ['a'] 8 1 := by
  have named := Guard.isContractName_sanitizeFilename (some "line5.compact")
  rw [reported_colonForm_iff (by decide) (by decide) (by decide) named (by decide)]
  rintro (⟨unlocated, -⟩ | other)
  · exact absurd unlocated (by decide)
  · have first : locate? (Guard.sanitizeFilename (some "line5.compact")).toList = .ok (some ⟨5, none⟩) := by
      decide
    rw [first] at other
    contradiction

end ContractInspector.Diagnostic
