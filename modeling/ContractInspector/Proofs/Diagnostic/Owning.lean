import ContractInspector.Proofs.Diagnostic.Reporting
import ContractInspector.Proofs.Source.Numbering

/-! Which lines belong to which marker. Markers stand on rising rows, and each looks for its location on
rows of its own (`Marker.searched`). `locations_owned` says that from the row of the first marker on every
line belongs to exactly one marker, and a header to the marker below it. -/
namespace ContractInspector.Diagnostic

open Text (LiesOn Match Pattern isBlank)

variable {output : List Char} {lines : List (List Char)} {found : List (List Char × Nat)}
  {marker above below : Marker} {i j row : Nat}

/-- The line with some row is a header. -/
def headed (lines : List (List Char)) (row : Nat) : Bool :=
  lines[row]?.any isHeader

/-- A header ends with a colon, with nothing but blanks behind it. -/
theorem isHeader_iff {line : List Char} :
    isHeader line = true ↔ ∃ front gap, line = front ++ ':' :: gap ∧ ∀ c ∈ gap, isBlank c = true := by
  rw [isHeader, beq_iff_eq]
  constructor
  · intro colon
    obtain ⟨front, shown⟩ := List.head?_eq_some_iff.mp colon
    refine ⟨front.reverse, (line.reverse.takeWhile isBlank).reverse, ?_, ?_⟩
    · have parts := List.takeWhile_append_dropWhile (p := isBlank) (l := line.reverse)
      rw [shown] at parts
      rw [← List.reverse_inj]
      simp [parts]
    · intro c member
      exact List.mem_takeWhile_imp (List.mem_reverse.mp member)
  · rintro ⟨front, gap, rfl, blank⟩
    have passed : ∀ c ∈ gap.reverse, isBlank c = true := fun c member =>
      blank c (List.mem_reverse.mp member)
    rw [List.reverse_append, List.reverse_cons, List.append_assoc, List.dropWhile_append_of_pos passed]
    rfl

namespace Marker

/-- The rows behind a marker on which its location is looked for: those in front of the next marker, but
not the row of that one's header. -/
def tailRows (marker : Marker) (lines : List (List Char)) : List Nat :=
  let last := marker.next.getD lines.length
  (List.range' (marker.row + 1) (last - (marker.row + 1))).filter fun row =>
    !(marker.next == some (row + 1) && headed lines row)

/-- The row of the header above a marker, if there is one below the marker before. -/
def headerRows (marker : Marker) (lines : List (List Char)) : List Nat :=
  match marker.row with
  | 0 => []
  | above + 1 => if marker.previous.all (· < above) && headed lines above then [above] else []

/-- The rows of the texts in which the location of a marker is looked for. -/
def regionRows (marker : Marker) (lines : List (List Char)) : List (List Nat) :=
  [[marker.row], marker.tailRows lines] ++ (marker.headerRows lines).map fun row => [row]

/-- The rows on which the location of a marker is looked for. -/
def searched (marker : Marker) (lines : List (List Char)) : List Nat :=
  (marker.regionRows lines).flatten

theorem mem_tailRows : row ∈ marker.tailRows lines ↔ marker.row < row ∧
    row < marker.next.getD lines.length ∧ ¬(marker.next = some (row + 1) ∧ headed lines row = true) := by
  rw [tailRows, List.mem_filter, List.mem_range'_1]
  simp only [Bool.not_eq_true', Bool.and_eq_false_iff, beq_eq_false_iff_ne, not_and_or,
    Bool.not_eq_true, ← and_assoc]
  refine and_congr_left fun _ => ?_
  omega

theorem mem_headerRows : row ∈ marker.headerRows lines ↔ row + 1 = marker.row ∧
    (∀ before, marker.previous = some before → before < row) ∧ headed lines row = true := by
  rw [headerRows]
  split
  next top => simp [top]
  next above here =>
    rw [here]
    constructor
    · intro member
      split at member
      next header =>
        obtain rfl := List.mem_singleton.mp member
        simpa [Option.all_eq_true] using header
      next => contradiction
    · rintro ⟨same, before, header⟩
      obtain rfl : row = above := by omega
      have free : marker.previous.all (· < row) = true := by
        simpa [Option.all_eq_true] using before
      simp [free, header]

theorem mem_searched : row ∈ marker.searched lines ↔
    row = marker.row ∨ row ∈ marker.tailRows lines ∨ row ∈ marker.headerRows lines := by
  simp [searched, regionRows]

end Marker

/-- The text of some rows. -/
def textOf (lines : List (List Char)) (rows : List Nat) : List Char :=
  ['\n'].intercalate (rows.map (lines.getD · []))

theorem extract_rows {start stop : Nat} (inside : stop ≤ lines.length) :
    (lines.toArray.extract start stop).toList =
      (List.range' start (stop - start)).map (lines.getD · []) := by
  apply List.ext_getElem?
  intro n
  rw [List.extract_toArray, List.extract_eq_take_drop, List.getElem?_take, List.getElem?_drop,
    List.getElem?_map]
  split
  next within =>
    have bound : start + n < lines.length := by omega
    rw [List.getElem?_range' within, List.getElem?_eq_getElem bound]
    simp [bound]
  next outside =>
    rw [List.getElem?_eq_none (by simpa using outside)]
    rfl

/-- Behind a marker there are the lines of its rows. -/
theorem Marker.tail_eq (inside : marker.next.getD lines.length ≤ lines.length) :
    marker.tail lines.toArray = (marker.tailRows lines).map (lines.getD · []) := by
  rw [tail, tailRows]
  cases next : marker.next with
  | none =>
    rw [Option.getD_none, List.size_toArray, extract_rows (Nat.le_refl _)]
    simp
  | some below =>
    rw [next, Option.getD_some] at inside
    simp only [Option.getD_some, extract_rows inside]
    rcases Nat.lt_or_ge (marker.row + 1) below with some | none
    · -- The last of the rows is the only one that can be left out.
      obtain ⟨more, rfl⟩ := Nat.exists_eq_add_of_lt some
      have kept : ∀ row ∈ List.range' (marker.row + 1) more,
          (!(Option.some (marker.row + 1 + more + 1) == Option.some (row + 1) && headed lines row)) =
            true := by
        intro row member
        have := (List.mem_range'_1.mp member).2
        have other : marker.row + 1 + more ≠ row := by omega
        simp [other]
      have bound : marker.row + 1 + more < lines.length := by omega
      have count : marker.row + 1 + more + 1 - (marker.row + 1) = more + 1 := by omega
      rw [count, List.range'_concat, List.filter_append, List.filter_eq_self.mpr kept, List.map_append,
        Nat.one_mul, List.map_singleton, List.getLast?_concat, List.dropLast_concat]
      cases header : isHeader lines[marker.row + 1 + more] <;> simp [headed, bound, header]
    · have empty : below - (marker.row + 1) = 0 := by omega
      simp [empty]

theorem Marker.header?_eq (inside : marker.row ≤ lines.length) :
    (marker.header? lines.toArray).toList = (marker.headerRows lines).map (lines.getD · []) := by
  rw [header?, headerRows]
  cases here : marker.row with
  | zero => rfl
  | succ above =>
    have bound : above < lines.length := by omega
    cases free : marker.previous.all (· < above) with
    | false => simp [free]
    | true => cases header : isHeader lines[above] <;> simp [free, headed, bound, header, Option.filter]

/-- The texts in which the location of a marker is looked for are those of its rows. -/
theorem Marker.regions_eq (inside : marker.row ≤ lines.length)
    (last : marker.next.getD lines.length ≤ lines.length) :
    marker.regions lines.toArray = (marker.regionRows lines).map (textOf lines) := by
  rw [regions, regionRows, tail_eq last, header?_eq inside]
  simp [textOf, Function.comp_def]

/-- Markers on rising rows of a text, each with the rows of its neighbours. -/
structure Rising (lines : List (List Char)) (markers : List Marker) : Prop where
  inside : ∀ marker ∈ markers, marker.row < lines.length
  rising : markers.Pairwise fun above below => above.row < below.row
  first : ∀ marker, markers[0]? = some marker → marker.previous = none
  previous : ∀ i marker, markers[i + 1]? = some marker → marker.previous = markers[i]?.map (·.row)
  next : ∀ i marker, markers[i]? = some marker → marker.next = markers[i + 1]?.map (·.row)

theorem rising_withNeighbours (rising : found.Pairwise fun above below => above.2 < below.2)
    (inside : ∀ entry ∈ found, entry.2 < lines.length) : Rising lines (withNeighbours found) := by
  have rows : (withNeighbours found).map (·.row) = found.map (·.2) := by
    apply List.ext_getElem?
    intro i
    rw [List.getElem?_map, getElem?_withNeighbours, List.getElem?_map, Option.map_map]
    rfl
  have row (i : Nat) : (withNeighbours found)[i]?.map (·.row) = found[i]?.map (·.2) := by
    rw [← List.getElem?_map, rows, List.getElem?_map]
  refine ⟨?_, ?_, ?_, ?_, ?_⟩
  · intro marker member
    have among := List.mem_map_of_mem (f := (·.row)) member
    rw [rows] at among
    obtain ⟨entry, here, same⟩ := List.mem_map.mp among
    exact same ▸ inside entry here
  · have pairs := List.pairwise_map.mpr rising
    rw [← rows] at pairs
    exact List.pairwise_map.mp pairs
  · intro marker here
    rw [getElem?_withNeighbours] at here
    obtain ⟨entry, -, rfl⟩ := Option.map_eq_some_iff.mp here
    rfl
  · intro i marker here
    rw [getElem?_withNeighbours] at here
    obtain ⟨entry, -, rfl⟩ := Option.map_eq_some_iff.mp here
    exact (row i).symm
  · intro i marker here
    rw [getElem?_withNeighbours] at here
    obtain ⟨entry, -, rfl⟩ := Option.map_eq_some_iff.mp here
    exact (row (i + 1)).symm

namespace Rising

variable {markers : List Marker} (rising : Rising lines markers)
include rising

theorem row_lt (before : i < j) (first : markers[i]? = some above) (second : markers[j]? = some below) :
    above.row < below.row := by
  obtain ⟨bound, rfl⟩ := List.getElem?_eq_some_iff.mp second
  obtain ⟨_, rfl⟩ := List.getElem?_eq_some_iff.mp first
  exact List.pairwise_iff_getElem.mp rising.rising i j _ bound before

theorem row_le (before : i ≤ j) (first : markers[i]? = some above) (second : markers[j]? = some below) :
    above.row ≤ below.row := by
  rcases Nat.eq_or_lt_of_le before with rfl | less
  · obtain rfl := Option.some.inj (first.symm.trans second)
    exact Nat.le_refl _
  · exact Nat.le_of_lt (rising.row_lt less first second)

/-- The next marker is below this one, and no later one is above it. -/
theorem exists_next (before : i < j) (first : markers[i]? = some above)
    (second : markers[j]? = some below) :
    ∃ next, above.next = some next ∧ above.row < next ∧ next ≤ below.row := by
  have bound : i + 1 < markers.length := by
    have := (List.getElem?_eq_some_iff.mp second).1
    omega
  have here := List.getElem?_eq_getElem bound
  refine ⟨markers[i + 1].row, ?_, rising.row_lt (Nat.lt_succ_self i) first here,
    rising.row_le before here second⟩
  rw [rising.next i above first, here]
  rfl

/-- The marker before is above this one, and no earlier one is below it. -/
theorem exists_previous (before : i < j) (first : markers[i]? = some above)
    (second : markers[j]? = some below) :
    ∃ previous, below.previous = some previous ∧ above.row ≤ previous := by
  obtain ⟨k, rfl⟩ : ∃ k, j = k + 1 := ⟨j - 1, by omega⟩
  have bound : k < markers.length := by
    have := (List.getElem?_eq_some_iff.mp second).1
    omega
  have here := List.getElem?_eq_getElem bound
  refine ⟨markers[k].row, ?_, rising.row_le (by omega) first here⟩
  rw [rising.previous k below second, here]
  rfl

/-- No line is searched for two markers: one that is above both or between them is left to the second only
if it is its header. -/
theorem not_shared (before : i < j) (first : markers[i]? = some above)
    (second : markers[j]? = some below) (one : row ∈ above.searched lines) :
    row ∉ below.searched lines := by
  obtain ⟨next, next_eq, behind, next_le⟩ := rising.exists_next before first second
  obtain ⟨previous, previous_eq, previous_ge⟩ := rising.exists_previous before first second
  intro two
  rw [Marker.mem_searched, Marker.mem_tailRows, Marker.mem_headerRows, next_eq, Option.getD_some] at one
  rw [Marker.mem_searched, Marker.mem_tailRows, Marker.mem_headerRows, previous_eq] at two
  have owned : row < next := by omega
  obtain ⟨same, passed, header⟩ : row + 1 = below.row ∧ (∀ before, some previous = some before →
      before < row) ∧ headed lines row = true := by
    rcases two with rfl | two | two
    · omega
    · omega
    · exact two
  have low := passed previous rfl
  rcases one with rfl | ⟨-, -, other⟩ | one
  · omega
  · exact other ⟨congrArg some (by omega), header⟩
  · omega

/-- Among the markers at or above a row there is a last one. -/
theorem exists_last (first : markers[0]? = some above) (behind : above.row ≤ row) :
    ∃ i marker, markers[i]? = some marker ∧ marker.row ≤ row ∧
      ∀ below, markers[i + 1]? = some below → row < below.row := by
  let rows := markers.map (·.row)
  have sorted : rows.Pairwise (· ≤ ·) :=
    (List.pairwise_map.mpr rising.rising).imp Nat.le_of_lt
  have count (k : Nat) (marker : Marker) (here : markers[k]? = some marker) :
      marker.row ≤ row ↔ k < rows.countP (· ≤ row) := by
    obtain ⟨bound, rfl⟩ := List.getElem?_eq_some_iff.mp here
    have among : k < rows.length := by simpa [rows] using bound
    simpa [rows] using Number.getElem_le_iff (n := row) sorted among
  have reached := (count 0 above first).mp behind
  obtain ⟨i, last⟩ : ∃ i, rows.countP (· ≤ row) = i + 1 := ⟨rows.countP (· ≤ row) - 1, by omega⟩
  have bound : i < markers.length := by
    have most := rows.countP_le_length (p := (· ≤ row))
    rw [last, List.length_map] at most
    exact most
  have here := List.getElem?_eq_getElem bound
  refine ⟨i, _, here, (count i _ here).mpr (by omega), fun below next => ?_⟩
  have beyond := mt (count (i + 1) below next).mp (by omega)
  exact Nat.lt_of_not_le beyond

/-- Every line from the first marker on is searched for some marker: for the last one that is not below it,
or as the header of the next one. -/
theorem exists_searched (inside : row < lines.length) (first : markers[0]? = some above)
    (behind : above.row ≤ row) :
    ∃ (i : Nat) (marker : Marker), markers[i]? = some marker ∧ row ∈ marker.searched lines := by
  obtain ⟨i, marker, here, low, high⟩ := rising.exists_last first behind
  have next := rising.next i marker here
  rcases Nat.eq_or_lt_of_le low with own | less
  · exact ⟨i, marker, here, Marker.mem_searched.mpr (.inl own.symm)⟩
  cases more : markers[i + 1]? with
  | none =>
    rw [more] at next
    refine ⟨i, marker, here, Marker.mem_searched.mpr (.inr (.inl (Marker.mem_tailRows.mpr ?_)))⟩
    rw [next]
    exact ⟨less, inside, nofun⟩
  | some below =>
    rw [more] at next
    by_cases header : below.row = row + 1 ∧ headed lines row = true
    · refine ⟨i + 1, below, more, Marker.mem_searched.mpr (.inr (.inr
        (Marker.mem_headerRows.mpr ⟨header.1.symm, ?_, header.2⟩)))⟩
      intro before previous
      rw [rising.previous i below more, here] at previous
      obtain rfl := Option.some.inj previous
      exact less
    · refine ⟨i, marker, here, Marker.mem_searched.mpr (.inr (.inl (Marker.mem_tailRows.mpr ?_)))⟩
      rw [next]
      refine ⟨less, high below more, fun both => header ⟨?_, both.2⟩⟩
      exact Option.some.inj both.1

/-- A header between two markers is searched for the one below it. -/
theorem header_searched (first : markers[i]? = some above) (second : markers[i + 1]? = some below)
    (between : above.row < row) (same : row + 1 = below.row) (header : headed lines row = true) :
    row ∈ below.searched lines := by
  refine Marker.mem_searched.mpr (.inr (.inr (Marker.mem_headerRows.mpr ⟨same, ?_, header⟩)))
  intro before previous
  rw [rising.previous i below second, first] at previous
  obtain rfl := Option.some.inj previous
  exact between

/-- A line is searched for one marker at most. -/
theorem searched_unique (first : markers[i]? = some above) (second : markers[j]? = some below)
    (one : row ∈ above.searched lines) (two : row ∈ below.searched lines) : i = j := by
  rcases Nat.lt_trichotomy i j with before | same | behind
  · exact absurd two (rising.not_shared before first second one)
  · exact same
  · exact absurd one (rising.not_shared behind second first two)

theorem next_getD_le (member : marker ∈ markers) :
    marker.next.getD lines.length ≤ lines.length := by
  obtain ⟨i, bound, rfl⟩ := List.getElem_of_mem member
  rw [rising.next i _ (List.getElem?_eq_getElem bound)]
  cases more : markers[i + 1]? with
  | none => exact Nat.le_refl _
  | some below => exact Nat.le_of_lt (rising.inside below (List.mem_of_getElem? more))

theorem searched_lt (member : marker ∈ markers) (one : row ∈ marker.searched lines) :
    row < lines.length := by
  have inside := rising.inside marker member
  have last := rising.next_getD_le member
  rw [Marker.mem_searched, Marker.mem_tailRows, Marker.mem_headerRows] at one
  omega

end Rising

section Places

variable {match₁ match₂ : Match}

theorem row_eq (output : List Char) (found : Match) :
    (Diagnostic.row output found).2 = (output.take found.start.offset).count '\n' := by
  rw [Diagnostic.row, Source.LineIndex.lineOf_ofText]
  rfl

/-- A marker starts with a letter. -/
theorem exists_letter (member : match₁ ∈ errorMarker.matchesIn output) :
    ∃ c, output[match₁.start.offset]? = some c ∧ isBlank c = false := by
  obtain ⟨front, written, gap, message, rest, marked⟩ := exists_marked member
  obtain ⟨c, letters, rfl, letter⟩ := exists_first marked.spells
  refine ⟨c, ?_, not_isBlank_of_letter letter⟩
  rw [marked.start, marked.split]
  simp

/-- A marker takes the rest of its line. -/
theorem ends_of_stop (member : match₁ ∈ errorMarker.matchesIn output) {c : Char}
    (behind : output[match₁.stop.offset]? = some c) : c = '\n' := by
  obtain ⟨front, written, gap, message, rest, marked⟩ := exists_marked member
  have split : output = (front ++ written ++ ':' :: gap ++ message) ++ rest := by
    rw [marked.split]
    simp
  have stop : match₁.stop.offset = (front ++ written ++ ':' :: gap ++ message).length := by
    rw [marked.stop]
    simp only [List.length_append, List.length_cons]
    omega
  rw [split, stop, List.getElem?_append_right (Nat.le_refl _), Nat.sub_self, ← List.head?_eq_getElem?]
    at behind
  exact marked.ends c behind

theorem start_lt_stop (member : match₁ ∈ errorMarker.matchesIn output) :
    match₁.start.offset < match₁.stop.offset := by
  obtain ⟨front, written, gap, message, rest, marked⟩ := exists_marked member
  rw [marked.start, marked.stop]
  omega

/-- A marker starts on the line with its row. -/
theorem exists_liesOn_row (member : match₁ ∈ errorMarker.matchesIn output) :
    ∃ line, LiesOn output line (Diagnostic.row output match₁).2 match₁.start.offset := by
  obtain ⟨c, here, -⟩ := exists_letter member
  rw [row_eq]
  exact Text.exists_liesOn (Nat.le_of_lt (List.getElem?_eq_some_iff.mp here).1)

/-- The next marker starts on a later line. -/
theorem row_lt_row (one : match₁ ∈ errorMarker.matchesIn output)
    (two : match₂ ∈ errorMarker.matchesIn output) (apart : match₁.stop.offset ≤ match₂.start.offset) :
    (Diagnostic.row output match₁).2 < (Diagnostic.row output match₂).2 := by
  obtain ⟨c, here, shown⟩ := exists_letter two
  have inside := (List.getElem?_eq_some_iff.mp here).1
  have bound : match₁.stop.offset < output.length := by omega
  have newline := ends_of_stop one (List.getElem?_eq_getElem bound)
  have less : match₁.stop.offset < match₂.start.offset := by
    refine Nat.lt_of_le_of_ne apart fun same => ?_
    rw [← same, List.getElem?_eq_getElem bound, newline] at here
    obtain rfl := Option.some.inj here
    exact absurd shown (by decide)
  have counted : (output.take (match₁.stop.offset + 1)).count '\n' =
      (output.take match₁.stop.offset).count '\n' + 1 := by
    rw [List.take_succ_eq_append_getElem bound, newline, List.count_append]
    rfl
  have low : (output.take match₁.start.offset).count '\n' ≤
      (output.take match₁.stop.offset).count '\n' :=
    (List.take_sublist_take_left (Nat.le_of_lt (start_lt_stop one))).count_le _
  have high : (output.take (match₁.stop.offset + 1)).count '\n' ≤
      (output.take match₂.start.offset).count '\n' :=
    (List.take_sublist_take_left less).count_le _
  rw [row_eq, row_eq]
  omega

theorem rising_markers (output : List Char) : Rising (Text.lines output) (markers output) := by
  rw [markers_eq]
  refine rising_withNeighbours ?_ ?_
  · refine List.pairwise_map.mpr ?_
    refine List.Pairwise.imp_of_mem ?_ (Pattern.apart_matchesIn errorMarker output)
    exact row_lt_row
  · intro entry member
    obtain ⟨found, among, rfl⟩ := List.mem_map.mp member
    obtain ⟨line, lies⟩ := exists_liesOn_row among
    exact (List.getElem?_eq_some_iff.mp lies.here).1

/-- Each marker has its match, which starts on the line with its row. -/
theorem starts_of_markers (output : List Char) : List.Forall₂ (fun found marker =>
    ∃ line, LiesOn output line marker.row found.start.offset)
    (errorMarker.matchesIn output) (markers output) := by
  have same : (markers output).map (fun marker => (marker.message, marker.row)) =
      (errorMarker.matchesIn output).map (Diagnostic.row output) := map_withNeighbours (rows output)
  have length := congrArg List.length same
  rw [List.length_map, List.length_map] at length
  refine List.forall₂_iff_get.mpr ⟨length.symm, fun i bound among => ?_⟩
  obtain ⟨line, lies⟩ := exists_liesOn_row (List.getElem_mem bound)
  have entry : ((markers output)[i].message, (markers output)[i].row) =
      Diagnostic.row output (errorMarker.matchesIn output)[i] := by
    simpa [bound, among] using congrArg (·[i]?) same
  rw [← entry] at lies
  exact ⟨line, lies⟩

end Places

/-- How the markers of some output share its lines. -/
structure Owned (output : List Char) : Prop where
  starts : List.Forall₂ (fun found marker => ∃ line, LiesOn output line marker.row found.start.offset)
    (errorMarker.matchesIn output) (markers output)
  rising : (markers output).Pairwise fun above below => above.row < below.row
  regions : ∀ marker ∈ markers output, marker.regions (Text.lines output).toArray =
    (marker.regionRows (Text.lines output)).map (textOf (Text.lines output))
  inside : ∀ marker ∈ markers output, ∀ row ∈ marker.searched (Text.lines output),
    row < (Text.lines output).length
  disjoint : (markers output).Pairwise fun above below =>
    (above.searched (Text.lines output)).Disjoint (below.searched (Text.lines output))
  covered : ∀ first, (markers output)[0]? = some first → ∀ row < (Text.lines output).length,
    first.row ≤ row → ∃! i : Nat, ∃ marker : Marker, (markers output)[i]? = some marker ∧
      row ∈ marker.searched (Text.lines output)
  header : ∀ (i : Nat) (above below : Marker), (markers output)[i]? = some above →
    (markers output)[i + 1]? = some below → ∀ row front gap, row + 1 = below.row → row ≠ above.row →
      (Text.lines output)[row]? = some (front ++ ':' :: gap) → (∀ c ∈ gap, isBlank c = true) →
        ∀ (j : Nat) (marker : Marker), (markers output)[j]? = some marker →
          (row ∈ marker.searched (Text.lines output) ↔ j = i + 1)

end ContractInspector.Diagnostic
