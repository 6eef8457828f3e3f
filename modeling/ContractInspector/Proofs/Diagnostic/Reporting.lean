import ContractInspector.Proofs.Diagnostic.Locating
import ContractInspector.Proofs.Diagnostic.Marking
import ContractInspector.Proofs.Source.Comments
import ContractInspector.Proofs.Text.Lines

/-! From compiler output to diagnostics. Every marker is looked at with its neighbours
(`getElem?_withNeighbours`) in parts of the output (`region_within`), and each of them makes one
diagnostic. -/
namespace ContractInspector.Diagnostic

open Text (isBlank strip)

variable {output source region : List Char} {marker : Marker}

theorem length_withNeighbours (found : List (List Char × Nat)) :
    (withNeighbours found).length = found.length := by
  simp [withNeighbours]
  omega

theorem getElem?_withNeighbours (found : List (List Char × Nat)) (i : Nat) :
    (withNeighbours found)[i]? = found[i]?.map fun entry =>
      ⟨entry.1, entry.2, if i = 0 then none else found[i - 1]?.map (·.2), found[i + 1]?.map (·.2)⟩ := by
  rcases Nat.lt_or_ge i found.length with inside | outside
  · have next : (((found.drop 1).map fun entry => some entry.2) ++ [none])[i]? =
        some (found[i + 1]?.map (·.2)) := by
      rcases Nat.lt_or_ge (i + 1) found.length with more | last
      · rw [List.getElem?_append_left (by simp; omega)]
        simp [List.getElem?_eq_getElem more]
      · have end_eq : i - ((found.drop 1).map fun entry => some entry.2).length = 0 := by
          simp
          omega
        rw [List.getElem?_append_right (by simp; omega), List.getElem?_eq_none last, end_eq]
        rfl
    have previous : (none :: found.map fun entry => some entry.2)[i]? =
        some (if i = 0 then none else found[i - 1]?.map (·.2)) := by
      cases i with
      | zero => rfl
      | succ i =>
        have before : i < found.length := by omega
        simp [List.getElem?_eq_getElem before]
    have here := List.getElem?_eq_getElem inside
    have beside := (List.getElem?_zip_eq_some (z := (_, _))).mpr ⟨previous, next⟩
    have together := (List.getElem?_zip_eq_some (z := (_, _))).mpr ⟨here, beside⟩
    rw [withNeighbours, List.getElem?_map, together, here]
    rfl
  · have ends : (withNeighbours found).length ≤ i := by rwa [length_withNeighbours]
    rw [List.getElem?_eq_none outside, List.getElem?_eq_none ends]
    rfl

theorem map_withNeighbours (found : List (List Char × Nat)) :
    (withNeighbours found).map (fun marker => (marker.message, marker.row)) = found := by
  refine List.ext_getElem? fun i => ?_
  rw [List.getElem?_map, getElem?_withNeighbours, Option.map_map]
  exact congrFun Option.map_id _

/-- The message of a match with the row on which it starts. -/
def row (output : List Char) (found : Text.Match) : List Char × Nat :=
  (strip (found.text 1), (Source.LineIndex.ofText output).lineOf found.start.offset - 1)

/-- What the markers of some output say, each with its row. -/
def entries (word : String) (output : List Char) : List (List Char × Nat) :=
  ((Diagnostic.marker word).matchesIn output).map (row output)

def rows (output : List Char) : List (List Char × Nat) :=
  (errorMarker.matchesIn output).map (row output)

theorem markers_eq (output : List Char) : markers output = withNeighbours (rows output) := rfl

theorem extract_within {lines : List (List Char)} (start stop : Nat) :
    (lines.toArray.extract start stop).toList <:+: lines := by
  rw [Array.toList_extract, List.extract_eq_take_drop]
  exact (List.take_prefix _ _).isInfix.trans (List.drop_suffix _ _).isInfix

theorem region_within (member : region ∈ marker.regions (Text.lines output).toArray) :
    region <:+: output := by
  rw [Marker.regions] at member
  rcases List.mem_append.mp member with first | above
  · rcases List.mem_cons.mp first with rfl | first
    · rw [Array.getD_eq_getD_getElem?, List.getElem?_toArray]
      cases here : (Text.lines output)[marker.row]? with
      | none => exact List.nil_infix
      | some line => exact Text.line_within (List.mem_of_getElem? here)
    · obtain rfl := List.mem_singleton.mp first
      refine Text.intercalate_lines_within ?_
      rw [Marker.tail]
      cases marker.next with
      | none => exact extract_within _ _
      | some next =>
        simp only
        split
        · exact (List.dropLast_prefix _).isInfix.trans (extract_within _ _)
        · exact extract_within _ _
  · have here := Option.mem_toList.mp above
    rw [Marker.header?] at here
    split at here
    · contradiction
    · split at here
      · obtain ⟨found, -⟩ := Option.filter_eq_some_iff.mp here
        rw [List.getElem?_toArray] at found
        exact Text.line_within (List.mem_of_getElem? found)
      · contradiction

theorem exists_mapM {α β ε : Type} {items : List α} {read : α → Except ε β}
    (reads : ∀ item ∈ items, ∃ result, read item = .ok result) :
    ∃ results, items.mapM read = .ok results ∧ results.length = items.length ∧
      ∀ item ∈ items, ∃ result ∈ results, read item = .ok result := by
  induction items with
  | nil => exact ⟨[], rfl, rfl, by simp⟩
  | cons item items ih =>
    obtain ⟨⟨result, readsFirst⟩, others⟩ := List.forall_mem_cons.mp reads
    obtain ⟨results, readsOthers, length, each⟩ := ih others
    refine ⟨result :: results, ?_, by rw [List.length_cons, length, List.length_cons], ?_⟩
    · rw [List.mapM_cons, readsFirst, readsOthers]
      rfl
    · refine List.forall_mem_cons.mpr ⟨⟨result, List.mem_cons_self, readsFirst⟩, ?_⟩
      intro other member
      obtain ⟨found, among, readsOther⟩ := each other member
      exact ⟨found, List.mem_cons_of_mem _ among, readsOther⟩

/-- The output has no number with more digits than are read. -/
def Readable (output : List Char) : Prop :=
  ∀ digits, Digits digits → digits <:+: output → digits.length ≤ Text.maxDigits

theorem exists_diagnostic (readable : Readable output) (marker : Marker) (sourceLines : Array String) :
    ∃ found, marker.diagnostic (Text.lines output).toArray sourceLines = .ok found := by
  have short : ∀ region ∈ marker.regions (Text.lines output).toArray, ∀ digits, Digits digits →
      digits <:+: region → digits.length ≤ Text.maxDigits := by
    intro region member digits some within
    exact readable digits some (within.trans (region_within member))
  obtain ⟨location, located⟩ := exists_locateIn? short
  rw [Marker.diagnostic, Marker.location?, located]
  exact ⟨_, rfl⟩

theorem message_of_diagnostic {lines : Array (List Char)} {sourceLines : Array String}
    {found : ContractInspector.Diagnostic}
    (reads : marker.diagnostic lines sourceLines = .ok found) :
    found.message = String.ofList marker.message := by
  rw [Marker.diagnostic] at reads
  cases located : marker.location? lines with
  | error number => simp [located, Except.map] at reads
  | ok location =>
    rw [located] at reads
    obtain rfl := Except.ok.inj reads
    rfl

theorem mem_markers {found : Text.Match} (member : found ∈ errorMarker.matchesIn output) :
    ∃ marker ∈ markers output, marker.message = strip (found.text 1) := by
  obtain ⟨i, inside, rfl⟩ := List.getElem_of_mem member
  have here : (rows output)[i]? = some (row output (errorMarker.matchesIn output)[i]) := by
    rw [rows, List.getElem?_map, List.getElem?_eq_getElem inside]
    rfl
  have entry := getElem?_withNeighbours (rows output) i
  rw [here, ← markers_eq] at entry
  exact ⟨_, List.mem_of_getElem? entry, rfl⟩

/-- Output in which a marker stands is not blank. -/
theorem visible_of_mem {found : Text.Match} (member : found ∈ errorMarker.matchesIn output) :
    ∃ c ∈ output, isBlank c = false := by
  obtain ⟨front, written, gap, message, rest, marked⟩ := exists_marked member
  obtain ⟨c, letters, rfl, letter⟩ := exists_first marked.spells
  refine ⟨c, ?_, not_isBlank_of_letter letter⟩
  rw [marked.split]
  simp

theorem fallback_eq_nil_iff (output : List Char) :
    fallback output = [] ↔ ∀ c ∈ output, isBlank c = true := by
  rw [← Source.strip_eq_nil, fallback]
  cases strip output <;> simp

/-- What is reported for some readable output: nothing if it is blank, and what each marker says. -/
theorem exists_errors (readable : Readable output) (source : List Char) :
    ∃ found, errors output source = .ok found ∧
      (found = [] ↔ ∀ c ∈ output, isBlank c = true) ∧
      ∀ said, Announces "error" output said → (∃ c ∈ said, isBlank c = false) →
        ∃ diagnostic ∈ found, strip said <:+ diagnostic.message.toList := by
  let sourceLines := ((Text.lines source).map String.ofList).toArray
  obtain ⟨results, reads, length, each⟩ := exists_mapM fun marker (_ : marker ∈ markers output) =>
    exists_diagnostic readable marker sourceLines
  have spoken : ∀ said, Announces "error" output said → (∃ c ∈ said, isBlank c = false) →
      ∃ diagnostic ∈ results, strip said <:+ diagnostic.message.toList := by
    intro said announces shown
    obtain ⟨found, member, suffix⟩ := exists_message announces shown
    obtain ⟨marker, among, message⟩ := mem_markers member
    obtain ⟨diagnostic, reported, readsOne⟩ := each marker among
    refine ⟨diagnostic, reported, ?_⟩
    rwa [message_of_diagnostic readsOne, message, String.toList_ofList]
  rw [markers_eq, length_withNeighbours, rows, List.length_map] at length
  have found : errors output source =
      .ok (if results.isEmpty then fallback output else results) := by
    rw [errors, reads]
    rfl
  cases results with
  | nil =>
    refine ⟨fallback output, found, fallback_eq_nil_iff output, ?_⟩
    intro said announces shown
    obtain ⟨diagnostic, none, -⟩ := spoken said announces shown
    contradiction
  | cons first others =>
    refine ⟨first :: others, found, ?_, spoken⟩
    have some : errorMarker.matchesIn output ≠ [] := by
      intro none
      rw [none] at length
      contradiction
    obtain ⟨c, member, shown⟩ := visible_of_mem (List.getLast_mem some)
    refine iff_of_false (List.cons_ne_nil _ _) fun blank => ?_
    exact absurd (blank c member) (by simp [shown])

end ContractInspector.Diagnostic
