import ContractInspector.Compiler.Output

/-! What a bounded reader keeps of a pipe. What it holds after some text does not depend on the pieces in
which the text came (`Keeps.feed`), so a pipe is read to the same end however it is cut
(`drain_capped`). -/
namespace ContractInspector.Compiler

variable {limit : Nat} {given rest text piece : List Char} {reader : BoundedReader}
  {pipe : List Reading} {deeds : List Deed}

/-- A reader holds what fits of the text that it was given. -/
structure Keeps (limit : Nat) (given : List Char) (reader : BoundedReader) : Prop where
  limit_eq : reader.limit = limit
  text_eq : reader.text = given.take limit
  size_eq : reader.size = min limit given.length
  overflowed_iff : reader.overflowed = true ↔ limit < given.length

theorem keeps_nil (limit : Nat) : Keeps limit [] { limit } := by
  refine ⟨rfl, ?_, ?_, ?_⟩
  · rw [List.take_nil]
    rfl
  · exact (Nat.min_zero limit).symm
  · exact iff_of_false Bool.false_ne_true (Nat.not_lt_zero limit)

/-- The text that is kept is that of the pieces, last first. -/
theorem text_cons (reader : BoundedReader) (piece : List Char) (limit size : Nat) (overflowed : Bool) :
    BoundedReader.text ⟨limit, piece :: reader.pieces, size, overflowed⟩ = reader.text ++ piece := by
  simp [BoundedReader.text]

namespace Keeps

/-- A piece more, while there is room, or the first that does not fit. -/
theorem feed (keeps : Keeps limit given reader) (fits : given.length ≤ limit) (piece : List Char) :
    Keeps limit (given ++ piece) (reader.feed piece) := by
  have text : reader.text = given := by rw [keeps.text_eq, List.take_of_length_le fits]
  have size : reader.size = given.length := by rw [keeps.size_eq, Nat.min_eq_right fits]
  have length : (given ++ piece).length = given.length + piece.length := List.length_append
  rw [BoundedReader.feed, keeps.limit_eq, size]
  by_cases exceeds : limit < given.length + piece.length
  · rw [if_pos exceeds]
    refine ⟨rfl, ?_, ?_, ?_⟩
    · rw [text_cons, text, List.take_append, List.take_of_length_le fits]
    · rw [length]
      exact (Nat.min_eq_left (Nat.le_of_lt exceeds)).symm
    · rw [length]
      exact iff_of_true rfl exceeds
  · have within : given.length + piece.length ≤ limit := Nat.le_of_not_lt exceeds
    rw [if_neg exceeds]
    refine ⟨rfl, ?_, ?_, ?_⟩
    · rw [text_cons, text, List.take_of_length_le (by rwa [length])]
    · rw [length]
      exact (Nat.min_eq_right within).symm
    · rw [length]
      exact keeps.overflowed_iff.trans (iff_of_false (Nat.not_lt_of_le fits) exceeds)

/-- Behind a text that did not fit, nothing changes what is kept. -/
theorem append (keeps : Keeps limit given reader) (exceeds : limit < given.length) (rest : List Char) :
    Keeps limit (given ++ rest) reader := by
  have longer : limit < (given ++ rest).length := by
    rw [List.length_append]
    omega
  refine ⟨keeps.limit_eq, ?_, ?_, ?_⟩
  · rw [keeps.text_eq, List.take_append_of_le_length (Nat.le_of_lt exceeds)]
  · rw [keeps.size_eq, Nat.min_eq_left (Nat.le_of_lt exceeds), Nat.min_eq_left (Nat.le_of_lt longer)]
  · exact iff_of_true (keeps.overflowed_iff.mpr exceeds) longer

end Keeps

/-- The text that a pipe gives up to its end. -/
def received : List Reading → List Char
  | [] => []
  | .fault :: _ => []
  | .piece text :: others => if text.isEmpty then [] else text ++ received others

/-- What a reader does with a pipe: it reads while there is room, kills the compiler after the piece that
does not fit, and closes the pipe. -/
structure Drainage (limit : Nat) (given text : List Char) (pipe : List Reading) (deeds : List Deed)
    (pieces : List (List Char)) (last : Reading) : Prop where
  deeds_eq : deeds = (pieces.map fun piece => .read (.piece piece)) ++
    .read last :: if limit < (given ++ text).length then [.kill] else []
  fits : (given ++ pieces.flatten).length ≤ limit
  reads : pieces.map .piece ++ [last] <+: pipe ++ [.piece []]

/-- A pipe that gives nothing more is at its end. -/
theorem drainage_end (fits : given.length ≤ limit) {last : Reading}
    (here : [last] <+: pipe ++ [.piece []]) :
    Drainage limit given [] pipe [.read last] [] last := by
  rw [← List.append_nil given] at fits
  refine ⟨?_, fits, here⟩
  rw [if_neg (Nat.not_lt_of_le fits)]
  rfl

/-- The first piece that does not fit is the last one. -/
theorem drainage_overflow (fits : given.length ≤ limit) (exceeds : limit < (given ++ piece).length)
    (rest : List Char) (others : List Reading) :
    Drainage limit given (piece ++ rest) (.piece piece :: others) [.read (.piece piece), .kill] []
      (.piece piece) := by
  have longer : limit < (given ++ (piece ++ rest)).length := by
    simp only [List.length_append] at exceeds ⊢
    omega
  refine ⟨?_, by simpa using fits, ⟨others ++ [.piece []], rfl⟩⟩
  rw [if_pos longer]
  rfl

/-- One piece more in front. -/
theorem Drainage.cons {pieces : List (List Char)} {last : Reading}
    (drainage : Drainage limit (given ++ piece) rest pipe deeds pieces last) :
    Drainage limit given (piece ++ rest) (.piece piece :: pipe) (.read (.piece piece) :: deeds)
      (piece :: pieces) last := by
  refine ⟨?_, ?_, ?_⟩
  · rw [drainage.deeds_eq, List.append_assoc]
    rfl
  · simpa using drainage.fits
  · exact (List.prefix_cons_inj _).mpr drainage.reads

/-- A run of a reader from what it holds. -/
theorem readAll_run (keeps : Keeps limit given reader) (fits : given.length ≤ limit)
    (pipe : List Reading) :
    Keeps limit (given ++ received pipe) (reader.readAll pipe).1 ∧
      ∃ pieces last, Drainage limit given (received pipe) pipe (reader.readAll pipe).2 pieces last := by
  induction pipe generalizing given reader with
  | nil =>
    rw [received, List.append_nil]
    exact ⟨keeps, [], .piece [], drainage_end fits List.prefix_rfl⟩
  | cons reading others ih =>
    cases reading with
    | fault =>
      rw [received, List.append_nil]
      exact ⟨keeps, [], .fault, drainage_end fits ⟨others ++ [.piece []], rfl⟩⟩
    | piece text =>
      rw [received, BoundedReader.readAll]
      by_cases empty : text.isEmpty = true
      · rw [if_pos empty, if_pos empty, List.append_nil]
        exact ⟨keeps, [], .piece text, drainage_end fits ⟨others ++ [.piece []], rfl⟩⟩
      · rw [if_neg empty, if_neg empty, ← List.append_assoc]
        have fed := keeps.feed fits text
        by_cases exceeds : limit < (given ++ text).length
        · rw [if_pos (fed.overflowed_iff.mpr exceeds)]
          exact ⟨fed.append exceeds _, [], .piece text, drainage_overflow fits exceeds _ others⟩
        · rw [if_neg (mt fed.overflowed_iff.mp exceeds)]
          obtain ⟨kept, pieces, last, drainage⟩ := ih fed (Nat.le_of_not_lt exceeds)
          exact ⟨kept, text :: pieces, last, drainage.cons⟩

/-- A way to cut a text into pieces, none of them empty. -/
structure Cutting (text : List Char) where
  pieces : List (List Char)
  nonempty : ∀ piece ∈ pieces, piece ≠ []
  flatten_eq : pieces.flatten = text

/-- The readings of a pipe that gives the pieces and then ends. -/
def Cutting.readings (cut : Cutting text) : List Reading :=
  cut.pieces.map .piece

theorem Cutting.received_readings (cut : Cutting text) : received cut.readings = text := by
  obtain ⟨pieces, nonempty, rfl⟩ := cut
  rw [readings]
  induction pieces with
  | nil => rfl
  | cons piece pieces ih =>
    obtain ⟨first, others⟩ := List.forall_mem_cons.mp nonempty
    rw [List.map_cons, received, if_neg (by simpa using first), ih others, List.flatten_cons]

/-- What becomes of a pipe that gives a text: the reader keeps what fits; it kills the compiler if something
does not fit, and then reads no more; and the pipe is closed in the end. -/
structure Capped (limit : Nat) (text : List Char) (result : BoundedReader × List Deed) : Prop where
  text_eq : result.1.text = text.take limit
  overflowed_iff : result.1.overflowed = true ↔ limit < text.length
  killed : result.2.count .kill = if limit < text.length then 1 else 0
  silent : ∀ before after, result.2 = before ++ .kill :: after → ∀ given, .read given ∉ after
  closed : ∃ others, result.2 = others ++ [.close] ∧ .close ∉ others

/-- Reads in front of anything else are in front of what kills the compiler. -/
theorem read_not_mem {reads ending before after : List Deed} (alive : .kill ∉ reads)
    (silent : ∀ given, .read given ∉ ending) (split : reads ++ ending = before ++ .kill :: after)
    (given : Reading) : .read given ∉ after := by
  rcases List.append_eq_append_iff.mp split with ⟨more, -, rfl⟩ | ⟨more, rfl, same⟩
  · exact fun member => silent given (List.mem_append_right more (List.mem_cons_of_mem _ member))
  · cases more with
    | nil =>
      rw [List.nil_append] at same
      exact fun member => silent given (same ▸ List.mem_cons_of_mem _ member)
    | cons deed more =>
      obtain ⟨rfl, -⟩ := List.cons.inj same
      exact absurd (List.mem_append_right before List.mem_cons_self) alive

theorem drain_eq (reader : BoundedReader) (pipe : List Reading) :
    reader.drain pipe = ((reader.readAll pipe).1, (reader.readAll pipe).2 ++ [.close]) := rfl

/-- What is kept of a pipe does not depend on the pieces in which its text is read. -/
theorem drain_capped (limit : Nat) (text : List Char) (cut : Cutting text) :
    Capped limit text (BoundedReader.drain { limit } cut.readings) := by
  obtain ⟨keeps, pieces, last, drainage⟩ := readAll_run (keeps_nil limit) (Nat.zero_le limit) cut.readings
  have deeds := drainage.deeds_eq
  rw [List.nil_append, cut.received_readings] at keeps deeds
  rw [drain_eq, deeds]
  refine ⟨keeps.text_eq, keeps.overflowed_iff, ?_, ?_, _, rfl, ?_⟩
  · by_cases exceeds : limit < text.length <;> simp [exceeds, List.count_eq_zero]
  · intro before after split
    let reads := pieces.map (fun piece => Deed.read (.piece piece)) ++ [.read last]
    let ending := (if limit < text.length then [Deed.kill] else []) ++ [.close]
    have parts : reads ++ ending = before ++ .kill :: after := by
      rw [← split]
      simp [reads, ending]
    refine read_not_mem (by simp [reads]) ?_ parts
    intro given
    by_cases exceeds : limit < text.length <;> simp [ending, exceeds]
  · by_cases exceeds : limit < text.length <;> simp [exceeds]

end ContractInspector.Compiler
