import ContractInspector.Proofs.Compiler.Compiling

/-! The order of what a compilation asks. Each request has a place, and all but those of the search are made
once at most. -/
namespace ContractInspector.Compiler

open Guard (ContractSource)

/-- The place of a request in a compilation. -/
def Request.place : Request → Nat
  | .probe _ => 0
  | .makeStaging => 1
  | .makeDirectory _ => 2
  | .writeFile _ _ => 3
  | .start _ _ _ _ => 4
  | .watch _ _ => 5
  | .kill => 6
  | .remove _ => 7

def Request.Precedes (earlier later : Request) : Prop :=
  earlier.place < later.place ∨ earlier.place = 0 ∧ later.place = 0

/-- The requests come in the order of their places, and only those of the search share one. -/
def Ordered (history : List Exchange) : Prop :=
  history.Pairwise fun earlier later => earlier.request.Precedes later.request

namespace Ordered

variable {history front back : List Exchange} {exchange other : Exchange}

theorem append (ordered : Ordered front) (place : Nat) (rest : Ordered back)
    (below : ∀ exchange ∈ front, exchange.request.place < place)
    (above : ∀ exchange ∈ back, place ≤ exchange.request.place) : Ordered (front ++ back) := by
  refine List.pairwise_append.mpr ⟨ordered, rest, fun earlier first later second => ?_⟩
  exact Or.inl (Nat.lt_of_lt_of_le (below earlier first) (above later second))

theorem mem_front (ordered : Ordered (front ++ exchange :: back))
    (member : other ∈ front ++ exchange :: back)
    (before : other.request.place < exchange.request.place) : other ∈ front := by
  obtain ⟨-, behind, -⟩ := List.pairwise_append.mp ordered
  rcases List.mem_append.mp member with within | rest
  · exact within
  · rcases List.mem_cons.mp rest with rfl | later
    · omega
    · rcases (List.pairwise_cons.mp behind).1 other later with precedes | ⟨none, -⟩ <;> omega

theorem mem_back (ordered : Ordered (front ++ exchange :: back))
    (member : other ∈ front ++ exchange :: back)
    (behind : exchange.request.place < other.request.place) : other ∈ back := by
  obtain ⟨-, -, across⟩ := List.pairwise_append.mp ordered
  rcases List.mem_append.mp member with within | rest
  · rcases across other within exchange List.mem_cons_self with precedes | ⟨none, -⟩ <;> omega
  · rcases List.mem_cons.mp rest with rfl | later
    · omega
    · exact later

theorem eq_of_place_eq (ordered : Ordered history) (first : exchange ∈ history)
    (second : other ∈ history) (same : exchange.request.place = other.request.place)
    (late : exchange.request.place ≠ 0) : exchange = other := by
  obtain ⟨front, back, rfl⟩ := List.append_of_mem first
  obtain ⟨-, behind, across⟩ := List.pairwise_append.mp ordered
  rcases List.mem_append.mp second with before | rest
  · rcases across other before exchange List.mem_cons_self with precedes | ⟨none, -⟩ <;> omega
  · rcases List.mem_cons.mp rest with rfl | after
    · rfl
    · rcases (List.pairwise_cons.mp behind).1 other after with precedes | ⟨none, -⟩ <;> omega

/-- No place but that of the search is taken twice. -/
theorem countP_le_one (ordered : Ordered history) {asked : Exchange → Bool} {place : Nat}
    (placed : ∀ exchange, asked exchange = true → exchange.request.place = place) (late : place ≠ 0) :
    history.countP asked ≤ 1 := by
  induction history with
  | nil => exact Nat.zero_le _
  | cons exchange later ih =>
    obtain ⟨first, rest⟩ := List.pairwise_cons.mp ordered
    rw [List.countP_cons]
    split
    · next here =>
      have none : later.countP asked = 0 := by
        refine List.countP_eq_zero.mpr fun other member there => ?_
        have same := placed other there
        rcases first other member with precedes | ⟨none, -⟩
        · have place := placed exchange here
          omega
        · exact late ((placed exchange here).symm.trans none)
      omega
    · exact ih rest

end Ordered

variable {settings : Settings} {search : SearchPath} {source : ContractSource} {compiler : Identity}
variable {staging : String} {exchanges : List Exchange} {outcome : Except Failure Run}

theorem InStaging.between (compiled : InStaging settings compiler staging source exchanges outcome) :
    ∀ exchange ∈ exchanges, 1 < exchange.request.place ∧ exchange.request.place < 7 := by
  cases compiled <;> simp [Request.place, starting, watching]

theorem InStaging.ordered (compiled : InStaging settings compiler staging source exchanges outcome) :
    Ordered exchanges := by
  cases compiled <;> simp [Ordered, Request.Precedes, Request.place, starting, watching]

theorem Searched.place_eq {taken : Option Identity}
    (searched : Searched settings search exchanges taken) :
    ∀ exchange ∈ exchanges, exchange.request.place = 0 := by
  intro exchange member
  obtain ⟨path, probe⟩ := searched.probing exchange member
  rw [probe, Request.place]

theorem Searched.ordered {taken : Option Identity}
    (searched : Searched settings search exchanges taken) : Ordered exchanges := by
  refine List.pairwise_of_forall_mem_list fun earlier first later second => ?_
  exact Or.inr ⟨searched.place_eq earlier first, searched.place_eq later second⟩

theorem Course.ordered (course : Course settings search source exchanges outcome) :
    Ordered exchanges := by
  cases course with
  | unfound searched => exact searched.ordered
  | @unstaged _ _ _ reply searched failed =>
    refine searched.ordered.append 1 (List.pairwise_singleton _ _) ?_ ?_
    · exact fun exchange member => Nat.lt_one_iff.mpr (searched.place_eq exchange member)
    · simp [Request.place]
  | @staged _ within _ staging _ searched compiled =>
    have ends : Ordered (within ++ [⟨.remove staging, ()⟩]) := by
      refine compiled.ordered.append 7 (List.pairwise_singleton _ _) ?_ ?_
      · exact fun exchange member => (compiled.between exchange member).2
      · simp [Request.place]
    have behind : ∀ exchange ∈ within ++ [(⟨.remove staging, ()⟩ : Exchange)],
        1 < exchange.request.place := by
      refine List.forall_mem_append.mpr ⟨fun exchange member => (compiled.between exchange member).1, ?_⟩
      simp [Request.place]
    refine searched.ordered.append 1 (List.pairwise_cons.mpr ⟨?_, ends⟩) ?_ ?_
    · exact fun exchange member => Or.inl (behind exchange member)
    · exact fun exchange member => Nat.lt_one_iff.mpr (searched.place_eq exchange member)
    · refine List.forall_mem_cons.mpr ⟨Nat.le_refl 1, ?_⟩
      exact fun exchange member => Nat.le_of_lt (behind exchange member)

end ContractInspector.Compiler
