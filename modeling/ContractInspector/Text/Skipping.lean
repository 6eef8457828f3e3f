import ContractInspector.Text.Search

/-! Searching with plans loses nothing. `run_eq_none` says that a pattern has no match at a place that
its starts do not allow, `run_plan` that a plan has the matches of its pattern, and `search?_eq` and
`matchesIn_eq` that a search finds what trying the pattern at every place finds. -/
namespace ContractInspector.Text

/-- A continuation has no answer where the text behind does not start as it should. -/
def Refuses {α : Type} (follow : Starts) (next : Cursor → List Capture → Option α) : Prop :=
  ∀ reached captured, follow.allow reached.rest = false → next reached captured = none

namespace Starts

theorem allowChar_tabulate (starts : Starts) (wanted : Bool) (c : Char) :
    (starts.tabulate wanted).allowChar c = starts.allowChar c := by
  cases wanted with
  | false => rfl
  | true =>
    simp only [tabulate, if_true, allowChar]
    split
    · next answer found =>
      obtain ⟨bound, rfl⟩ := Array.getElem?_eq_some_iff.1 found
      simp [Char.ofNat_toNat]
    · rfl

theorem empty_tabulate (starts : Starts) (wanted : Bool) :
    (starts.tabulate wanted).empty = starts.empty := by
  cases wanted <;> rfl

theorem allow_tabulate (starts : Starts) (wanted : Bool) (rest : List Char) :
    (starts.tabulate wanted).allow rest = starts.allow rest := by
  cases rest with
  | nil => exact starts.empty_tabulate wanted
  | cons c rest => exact starts.allowChar_tabulate wanted c

theorem allow_anything (rest : List Char) : anything.allow rest = true := by
  cases rest <;> simp [allow, allowChar, anything]

theorem allow_ofClass (holds : Char → Bool) (rest : List Char) :
    (ofClass holds).allow rest = rest.head?.any holds := by
  cases rest <;> simp [allow, allowChar, ofClass]

theorem allow_or (first second : Starts) (rest : List Char) :
    (first.or second).allow rest = (first.allow rest || second.allow rest) := by
  cases rest <;> simp [allow, allowChar, Starts.or]

end Starts

namespace Cursor

variable {α : Type} {holds : Char → Bool} {follow : Starts}

/-- The places that are reached, and those of them behind which the text starts as it should. -/
theorem exists_places (holds : Char → Bool) (before : Option Char) (rest : List Char)
    (offset : Nat) : ∃ places : List Cursor,
      (∀ passed, stopsOnto holds before rest offset passed = places ++ passed) ∧
      ∀ follow passed, endsOnto holds follow before rest offset passed =
        places.filter (fun reached => follow.allow reached.rest) ++ passed := by
  induction rest generalizing before offset with
  | nil =>
    refine ⟨[⟨before, [], offset⟩], fun passed => rfl, fun follow passed => ?_⟩
    by_cases h : follow.empty <;> simp [endsOnto, Starts.allow, h]
  | cons c rest ih =>
    obtain ⟨places, stops, ends⟩ := ih (some c) (offset + 1)
    by_cases hc : holds c
    · refine ⟨places ++ [⟨before, c :: rest, offset⟩], fun passed => ?_, fun follow passed => ?_⟩
      · simp [stopsOnto, hc, stops]
      · by_cases h : follow.allowChar c <;> simp [endsOnto, Starts.allow, h, hc, ends]
    · refine ⟨[⟨before, c :: rest, offset⟩], fun passed => ?_, fun follow passed => ?_⟩
      · simp [stopsOnto, hc]
      · by_cases h : follow.allowChar c <;> simp [endsOnto, Starts.allow, h, hc]

theorem findSome?_filter {accept : Cursor → Option α}
    (refuses : ∀ reached : Cursor, follow.allow reached.rest = false → accept reached = none)
    (places : List Cursor) :
    (places.filter fun reached => follow.allow reached.rest).findSome? accept =
      places.findSome? accept := by
  induction places with
  | nil => rfl
  | cons place places ih =>
    by_cases h : follow.allow place.rest
    · simp [h, List.findSome?_cons, ih]
    · simp [h, ih, refuses place (by simpa using h)]

theorem findSome?_endsOnto {accept : Cursor → Option α}
    (refuses : ∀ reached : Cursor, follow.allow reached.rest = false → accept reached = none)
    (cursor : Cursor) :
    (endsOnto holds follow cursor.before cursor.rest cursor.offset []).findSome? accept =
      (cursor.stops holds).findSome? accept := by
  obtain ⟨places, reached, ends⟩ :=
    exists_places holds cursor.before cursor.rest cursor.offset
  rw [stops, reached, ends, List.append_nil, List.append_nil, findSome?_filter refuses]

theorem firstEnd_eq {accept : Cursor → Option α}
    (refuses : ∀ reached : Cursor, follow.allow reached.rest = false → accept reached = none)
    (before : Option Char) (rest : List Char) (offset : Nat) :
    firstEnd holds follow accept before rest offset =
      (stopsOnto holds before rest offset []).reverse.findSome? accept := by
  induction rest generalizing before offset with
  | nil =>
    by_cases h : follow.empty
    · simp [firstEnd, stopsOnto, h]
    · have silent := refuses ⟨before, [], offset⟩ (by simpa [Starts.allow] using h)
      simp [firstEnd, stopsOnto, h, silent]
  | cons c rest ih =>
    obtain ⟨places, reached, -⟩ := exists_places holds (some c) rest (offset + 1)
    have here : (if follow.allowChar c then accept ⟨before, c :: rest, offset⟩ else none) =
        accept ⟨before, c :: rest, offset⟩ := by
      by_cases h : follow.allowChar c
      · simp [h]
      · have silent := refuses ⟨before, c :: rest, offset⟩ (by simpa [Starts.allow] using h)
        simp [h, silent]
    simp only [firstEnd, here, stopsOnto]
    cases answer : accept ⟨before, c :: rest, offset⟩ with
    | none => by_cases hc : holds c <;> simp [hc, ih, reached, answer]
    | some found => by_cases hc : holds c <;> simp [hc, reached, answer]

end Cursor

namespace Pattern

variable {α : Type}

/-- A pattern has no match at a place that its next character rules out. -/
theorem run_eq_none (pattern : Pattern) {follow : Starts}
    {next : Cursor → List Capture → Option α} (refuses : Refuses follow next)
    {cursor : Cursor} (ruledOut : (pattern.starts follow).allow cursor.rest = false)
    (captures : List Capture) : pattern.run cursor captures next = none := by
  induction pattern generalizing follow next cursor captures with
  | empty => exact refuses cursor captures ruledOut
  | char holds =>
    rcases cursor with ⟨before, _ | ⟨c, rest⟩, offset⟩
    · rfl
    · simp only [starts, Starts.allow_ofClass, List.head?_cons, Option.any_some] at ruledOut
      simp [run, ruledOut]
  | text part =>
    rcases part with _ | ⟨p, part⟩
    · exact refuses cursor captures ruledOut
    · rcases cursor with ⟨before, _ | ⟨c, rest⟩, offset⟩
      · rfl
      · simp only [starts, Starts.allow_ofClass, List.head?_cons, Option.any_some,
          beq_eq_false_iff_ne] at ruledOut
        simp [run, Cursor.skip?, ruledOut]
  | andThen first second first_ih second_ih =>
    exact first_ih (fun reached captured h => second_ih refuses h captured) ruledOut captures
  | orElse first second first_ih second_ih =>
    simp only [starts, Starts.allow_or, Bool.or_eq_false_iff] at ruledOut
    simp [run, first_ih refuses ruledOut.1 captures, second_ih refuses ruledOut.2 captures]
  | optional body ih =>
    simp only [starts, Starts.allow_or, Bool.or_eq_false_iff] at ruledOut
    simp [run, ih refuses ruledOut.1 captures, refuses cursor captures ruledOut.2]
  | many holds | fewest holds =>
    simp only [starts, Starts.allow_or, Starts.allow_ofClass, Bool.or_eq_false_iff] at ruledOut
    have silent := refuses cursor captures ruledOut.2
    rcases cursor with ⟨before, _ | ⟨c, rest⟩, offset⟩ <;>
      simp_all [run, Cursor.stops, Cursor.stopsOnto]
  | capture slot body ih =>
    exact ih (fun reached captured h => refuses reached _ h) ruledOut captures
  | wordBoundary | notAfter | notBefore =>
    have silent := refuses cursor captures ruledOut
    simp [run, silent]

/-- A plan has the matches of its pattern, as long as the continuation has no answer where the text
behind does not start as the plan was told. -/
theorem run_plan (pattern : Pattern) (tabulated : Bool) {follow : Starts}
    {next : Cursor → List Capture → Option α} (refuses : Refuses follow next)
    (cursor : Cursor) (captures : List Capture) :
    (pattern.plan tabulated follow).run cursor captures next =
      pattern.run cursor captures next := by
  induction pattern generalizing follow next cursor captures with
  | empty | char | text | wordBoundary | notAfter | notBefore => rfl
  | andThen first second first_ih second_ih =>
    have refused : Refuses (second.starts follow) fun reached captured =>
        second.run reached captured next :=
      fun reached captured h => second.run_eq_none refuses h captured
    have same : (fun reached captured => (second.plan tabulated follow).run reached captured next) =
        fun reached captured => second.run reached captured next := by
      funext reached captured
      exact second_ih refuses reached captured
    simp only [plan, Plan.run, run, same]
    exact first_ih refused cursor captures
  | orElse first second first_ih second_ih =>
    simp only [plan, Plan.run, run, first_ih refuses cursor captures]
    cases first.run cursor captures next with
    | none => exact second_ih refuses cursor captures
    | some answer => rfl
  | optional body ih =>
    have same := ih refuses cursor captures
    cases found : body.run cursor captures next <;> simp [plan, Plan.run, run, same, found]
  | many holds =>
    exact Cursor.findSome?_endsOnto
      (fun reached h => refuses reached captures (by rwa [Starts.allow_tabulate] at h)) cursor
  | fewest holds =>
    exact Cursor.firstEnd_eq
      (fun reached h => refuses reached captures (by rwa [Starts.allow_tabulate] at h)) _ _ _
  | capture slot body ih =>
    exact ih (fun reached captured h => refuses reached _ h) cursor captures

theorem refuses_anything (next : Cursor → List Capture → Option α) :
    Refuses .anything next := by
  intro reached captured h
  simp [Starts.allow_anything] at h

/-- A searcher finds at a place what its pattern matches there. -/
theorem matchAt?_searcher (pattern : Pattern) (startsTabulated planTabulated : Bool) :
    (pattern.searcher startsTabulated planTabulated).matchAt? =
      fun before rest offset => pattern.matchAt? ⟨before, rest, offset⟩ := by
  funext before rest offset
  simp only [Searcher.matchAt?, searcher, Starts.allow_tabulate]
  split
  · exact pattern.run_plan planTabulated (refuses_anything _) _ _
  · next h => exact (pattern.run_eq_none (refuses_anything _) (by simpa using h) []).symm

/-- A search finds the first place at which the pattern matches. -/
theorem search?_eq (pattern : Pattern) (text : List Char) :
    pattern.search? text =
      searchFrom? (fun before rest offset => pattern.matchAt? ⟨before, rest, offset⟩) none text 0 := by
  rw [search?, searcherFor, matchAt?_searcher]

theorem matchesIn_eq (pattern : Pattern) (text : List Char) :
    pattern.matchesIn text =
      matchesOnto (fun before rest offset => pattern.matchAt? ⟨before, rest, offset⟩) none 0 text 0
        [] := by
  rw [matchesIn, searcherFor, matchAt?_searcher]

end Pattern

end ContractInspector.Text
