import ContractInspector.Proofs.Compiler.Ordering

/-! What holds of every run of a compilation: a staging directory comes behind a compiler that was vetted
and is gone at the end, and a process that takes too long or writes too much is killed and gives no
result. -/
namespace ContractInspector.Compiler

open Guard (ContractSource)
open Host (Reply)
open Text (Wide)

variable {α β : Type}

/-- The outcome is a failure that is the affair of `concern`. -/
def Refuses (concern : Concern) (outcome : Except Failure α) : Prop :=
  ∃ failure, outcome = .error failure ∧ failure.refusal.report.concern = concern

namespace Request

/-- The program that a request starts. -/
def started? : Request → Option String
  | .start program _ _ _ => some program
  | _ => none

/-- The path of the directory or file that a request makes. -/
def made? : Request → Option Wide
  | .makeDirectory path | .writeFile path _ => some path
  | _ => none

theorem place_of_started? {request : Request} {program : String}
    (started : request.started? = some program) : request.place = 4 := by
  cases request with
  | start => rfl
  | _ => contradiction

theorem place_of_made? {request : Request} {path : Wide} (made : request.made? = some path) :
    1 < request.place ∧ request.place < 7 := by
  cases request with
  | makeDirectory => simp [place]
  | writeFile => simp [place]
  | _ => contradiction

end Request

/-- Behind the search, the host did not do what it was asked for. -/
def Exchange.fails : Exchange → Bool
  | ⟨.makeStaging, reply⟩ => (reply : Reply String).fails
  | ⟨.makeDirectory _, reply⟩ | ⟨.writeFile _ _, reply⟩ | ⟨.start _ _ _ _, reply⟩ =>
    (reply : Reply Unit).fails
  | ⟨.watch _ _, reply⟩ => (reply : Reply Watched).fails
  | ⟨.probe _, _⟩ | ⟨.kill, _⟩ | ⟨.remove _, _⟩ => false

/-- What a watch that did not fail has seen, with the limit for the outputs. -/
def Exchange.seen? : Exchange → Option (Nat × Watched)
  | ⟨.watch _ limit, reply⟩ =>
    match (reply : Reply Watched) with
    | .done watched => some (limit, watched)
    | .failed _ | .broke _ => none
  | _ => none

/-- A request was made. -/
def Asks (history : List Exchange) (request : Request) : Prop :=
  ∃ exchange ∈ history, exchange.request = request

/-- What was asked of the host, in order, is safe for the host, and the outcome tells what happened. -/
structure Safe (settings : Settings) (history : List Exchange) (outcome : Except Failure α) : Prop where
  /-- A staging directory is asked for once at most. -/
  stagedOnce : history.countP (fun exchange => exchange.request = .makeStaging) ≤ 1
  /-- It is asked for if and only if a compiler is found whose version is accepted. -/
  staged : Asks history .makeStaging ↔ ∃ compiler, Vetted history compiler
  /-- The compiler is found before. -/
  vetted : ∀ {front back reply}, history = front ++ ⟨.makeStaging, reply⟩ :: back →
    ∃ compiler, Vetted front compiler
  /-- What else is made has a name without slashes in the staging directory. -/
  inside : ∀ exchange ∈ history, ∀ path, exchange.request.made? = some path →
    ∃ staging name, ⟨.makeStaging, Reply.done staging⟩ ∈ history ∧ '/' ∉ name.shown.toList ∧
      path = inDirectory staging name
  /-- The last request removes the staging directory that was made, and there is no other one. -/
  removed : ∀ staging, ⟨.makeStaging, Reply.done staging⟩ ∈ history ↔
    ∃ front, history = front ++ [⟨.remove staging, ()⟩]
  /-- A process is started once at most. -/
  startedOnce : history.countP (fun exchange => exchange.request.started?.isSome) ≤ 1
  /-- It is one of the compiler that was found. -/
  started : ∀ {front exchange back program}, history = front ++ exchange :: back →
    exchange.request.started? = some program →
      ∃ compiler, Vetted front compiler ∧ program = compiler.path
  /-- If there is a staging directory and nothing fails, a process is watched. -/
  watched : ∀ staging, ⟨.makeStaging, Reply.done staging⟩ ∈ history →
    (∃ exchange ∈ history, exchange.fails = true) ∨
      ∃ watched, ⟨watching settings, Reply.done watched⟩ ∈ history
  /-- It is watched for the time and with the limit that are set. -/
  limited : ∀ exchange ∈ history, ∀ time limit, exchange.request = .watch time limit →
    time = settings.compileTimeout ∧ limit = settings.maxCompilerOutput.toNat
  /-- A process is killed behind the watch, if and only if it is overdue or writes too much. -/
  killed : ∀ {front back time limit watched},
    history = front ++ ⟨.watch time limit, Reply.done watched⟩ :: back →
      (Asks back .kill ↔ watched.IsOverdue ∨ watched.Overflows limit)
  /-- There is a result if and only if a process was watched that was neither. -/
  returned : (∃ result, outcome = .ok result) ↔
    ∃ time limit watched, ⟨.watch time limit, Reply.done watched⟩ ∈ history ∧
      ¬ (watched.IsOverdue ∨ watched.Overflows limit)
  /-- A process that is overdue gives a timeout. -/
  timedOut : ∀ {time limit watched}, ⟨.watch time limit, Reply.done watched⟩ ∈ history →
    watched.IsOverdue → Refuses .timeout outcome
  /-- A process that writes too much in time is a matter of the system. -/
  overflowed : ∀ {time limit watched}, ⟨.watch time limit, Reply.done watched⟩ ∈ history →
    ¬ watched.IsOverdue → watched.Overflows limit → Refuses .system outcome
  /-- So is a host that does not do what it is asked for. -/
  failed : ∀ exchange ∈ history, exchange.fails = true → Refuses .system outcome

variable {settings : Settings} {search : SearchPath} {source : ContractSource} {compiler : Identity}
variable {staging : String} {exchanges probes within : List Exchange} {exchange : Exchange}
variable {outcome : Except Failure Run}

section Reply

variable {reply : Reply β} {onFault : Host.Fault → Refusal} {failure : Failure}

theorem refuses_system_of_outcome (failed : reply.outcome onFault = .error failure)
    (host : ∀ fault, (onFault fault).report.concern = .system) :
    Refuses .system (.error failure : Except Failure α) := by
  refine ⟨failure, rfl, ?_⟩
  cases reply with
  | done answer => contradiction
  | failed fault =>
    cases failed
    exact host fault
  | broke accident =>
    cases failed
    rfl

end Reply

namespace InStaging

variable (compiled : InStaging settings compiler staging source within outcome)
include compiled

theorem made : ∀ exchange ∈ within, ∀ path, exchange.request.made? = some path →
    path = outputDirectory staging ∨ path = stagedPath staging source := by
  cases compiled <;> simp [Request.made?, starting, watching]

theorem started : ∀ exchange ∈ within, ∀ program, exchange.request.started? = some program →
    program = compiler.path := by
  cases compiled <;> simp [Request.started?, starting, watching]

theorem limited : ∀ exchange ∈ within, ∀ time limit, exchange.request = .watch time limit →
    time = settings.compileTimeout ∧ limit = settings.maxCompilerOutput.toNat := by
  cases compiled <;> simp +contextual [starting, watching, eq_comm]

theorem watched_or_fails : (∃ exchange ∈ within, exchange.fails = true) ∨
    ∃ watched, ⟨watching settings, Reply.done watched⟩ ∈ within := by
  cases compiled with
  | unmade made failed =>
    exact Or.inl ⟨_, List.Mem.head _, Reply.fails_of_outcome failed⟩
  | unwritten written failed =>
    exact Or.inl ⟨_, List.Mem.tail _ (List.Mem.head _), Reply.fails_of_outcome failed⟩
  | unstarted started failed =>
    exact Or.inl ⟨_, List.Mem.tail _ (List.Mem.tail _ (List.Mem.head _)),
      Reply.fails_of_outcome failed⟩
  | unwatched watched failed =>
    exact Or.inl ⟨_, List.Mem.tail _ (List.Mem.tail _ (List.Mem.tail _ (List.Mem.head _))),
      Reply.fails_of_outcome failed⟩
  | killed watched judged => exact Or.inr ⟨watched, by simp⟩
  | returned watched judged => exact Or.inr ⟨watched, by simp⟩

theorem refuses_of_fails : ∀ exchange ∈ within, exchange.fails = true → Refuses .system outcome := by
  cases compiled with
  | unmade made failed => exact fun _ _ _ => refuses_system_of_outcome failed fun _ => rfl
  | unwritten written failed => exact fun _ _ _ => refuses_system_of_outcome failed fun _ => rfl
  | unstarted started failed => exact fun _ _ _ => refuses_system_of_outcome failed fun _ => rfl
  | unwatched watched failed => exact fun _ _ _ => refuses_system_of_outcome failed fun _ => rfl
  | killed watched judged => simp [Exchange.fails, Reply.fails, starting, watching]
  | returned watched judged => simp [Exchange.fails, Reply.fails, starting, watching]

/-- What was seen of the process decides on the outcome, and a kill goes with a failure. -/
theorem decided : ∀ exchange ∈ within, ∀ limit watched, exchange.seen? = some (limit, watched) →
    limit = settings.maxCompilerOutput.toNat ∧
      outcome = watched.judged settings compiler ∧
      (Asks within .kill ↔ ¬ ∃ run, watched.judged settings compiler = .ok run) := by
  cases compiled with
  | unmade made failed => simp [Exchange.seen?]
  | unwritten written failed => simp [Exchange.seen?]
  | unstarted started failed => simp [Exchange.seen?, starting]
  | unwatched watched failed =>
    cases watched with
    | done watched => contradiction
    | failed fault => simp [Exchange.seen?, starting, watching]
    | broke accident => simp [Exchange.seen?, starting, watching]
  | killed watched judged =>
    simp [Exchange.seen?, Asks, starting, watching, judged]
  | returned watched judged =>
    simp [Exchange.seen?, Asks, starting, watching, judged]

end InStaging

theorem Vetted.front {front back : List Exchange} (ordered : Ordered (front ++ exchange :: back))
    (vetted : Vetted (front ++ exchange :: back) compiler) (behind : 0 < exchange.request.place) :
    Vetted front compiler := by
  obtain ⟨⟨finished, member, version⟩, accepted⟩ := vetted
  exact ⟨⟨finished, ordered.mem_front member behind, version⟩, accepted⟩

theorem Vetted.append (vetted : Vetted exchanges compiler) (later : List Exchange) :
    Vetted (exchanges ++ later) compiler := by
  obtain ⟨⟨finished, member, version⟩, accepted⟩ := vetted
  exact ⟨⟨finished, List.mem_append_left _ member, version⟩, accepted⟩

theorem Searched.not_fails {taken : Option Identity}
    (searched : Searched settings search probes taken) (member : exchange ∈ probes) :
    exchange.fails = false := by
  obtain ⟨request, answer⟩ := exchange
  obtain ⟨path, rfl⟩ := searched.probing _ member
  rfl

/-- A request between the one for the staging directory and its removal is made in the directory. -/
theorem mem_within {taken : Option Identity} {made : Reply String}
    (searched : Searched settings search probes taken)
    (member : exchange ∈ probes ++ ⟨.makeStaging, made⟩ :: (within ++ [⟨.remove staging, ()⟩]))
    (after : 1 < exchange.request.place) (before : exchange.request.place < 7) :
    exchange ∈ within := by
  rcases List.mem_append.mp member with probe | rest
  · rw [searched.place_eq exchange probe] at after
    contradiction
  · rcases List.mem_cons.mp rest with rfl | rest
    · exact absurd after (Nat.lt_irrefl 1)
    · rcases List.mem_append.mp rest with inside | last
      · exact inside
      · rw [List.mem_singleton.mp last] at before
        exact absurd before (Nat.lt_irrefl 7)

theorem mem_of_within {made : Exchange} (member : exchange ∈ within) :
    exchange ∈ probes ++ made :: (within ++ [⟨.remove staging, ()⟩]) :=
  List.mem_append_right _ (List.mem_cons_of_mem _ (List.mem_append_left _ member))

namespace Course

variable (course : Course settings search source exchanges outcome)
include course

/-- What is asked behind the request for a staging directory is asked with the directory there. -/
theorem exists_staged (member : exchange ∈ exchanges) (after : 1 < exchange.request.place) :
    ∃ probes within compiler staging, Searched settings search probes (some compiler) ∧
      InStaging settings compiler staging source within outcome ∧
      exchanges = probes ++ ⟨.makeStaging, Reply.done staging⟩ :: (within ++ [⟨.remove staging, ()⟩]) := by
  cases course with
  | unfound searched =>
    rw [searched.place_eq exchange member] at after
    contradiction
  | unstaged searched failed =>
    rcases List.mem_append.mp member with probe | made
    · rw [searched.place_eq exchange probe] at after
      contradiction
    · rw [List.mem_singleton.mp made] at after
      exact absurd after (Nat.lt_irrefl 1)
  | staged searched compiled => exact ⟨_, _, _, _, searched, compiled, rfl⟩

/-- A staging directory that was made is there for the rest, and it is the one that is removed. -/
theorem exists_staged_of_made (made : ⟨.makeStaging, Reply.done staging⟩ ∈ exchanges) :
    ∃ probes within compiler, Searched settings search probes (some compiler) ∧
      InStaging settings compiler staging source within outcome ∧
      exchanges = probes ++ ⟨.makeStaging, Reply.done staging⟩ :: (within ++ [⟨.remove staging, ()⟩]) := by
  have ordered := course.ordered
  cases course with
  | unfound searched => exact absurd (searched.place_eq _ made) Nat.one_ne_zero
  | @unstaged _ _ _ reply searched failed =>
    have same := ordered.eq_of_place_eq made (List.mem_append_right _ List.mem_cons_self) rfl
      Nat.one_ne_zero
    cases same
    contradiction
  | staged searched compiled =>
    have same := ordered.eq_of_place_eq made (List.mem_append_right _ List.mem_cons_self) rfl
      Nat.one_ne_zero
    cases same
    exact ⟨_, _, _, searched, compiled, rfl⟩

theorem exists_within (member : exchange ∈ exchanges) (after : 1 < exchange.request.place)
    (before : exchange.request.place < 7) :
    ∃ probes within compiler staging, Searched settings search probes (some compiler) ∧
      InStaging settings compiler staging source within outcome ∧
      exchanges = probes ++ ⟨.makeStaging, Reply.done staging⟩ :: (within ++ [⟨.remove staging, ()⟩]) ∧
      exchange ∈ within := by
  obtain ⟨probes, within, compiler, staging, searched, compiled, rfl⟩ :=
    course.exists_staged member after
  exact ⟨probes, within, compiler, staging, searched, compiled, rfl,
    mem_within searched member after before⟩

/-- The process that was watched decides on the outcome and on the kill. -/
theorem decided {time : Number.Seconds} {limit : Nat} {watched : Watched}
    (seen : ⟨.watch time limit, Reply.done watched⟩ ∈ exchanges) :
    limit = settings.maxCompilerOutput.toNat ∧
      (∃ compiler, outcome = watched.judged settings compiler) ∧
      (Asks exchanges .kill ↔ watched.IsOverdue ∨ watched.Overflows limit) := by
  obtain ⟨probes, within, compiler, staging, searched, compiled, rfl, member⟩ :=
    course.exists_within seen (by decide : 1 < 5) (by decide : 5 < 7)
  obtain ⟨rfl, judged, killed⟩ := compiled.decided _ member limit watched rfl
  refine ⟨rfl, ⟨compiler, judged⟩, ?_⟩
  rw [Watched.judged_isOk_iff, Classical.not_not] at killed
  rw [← killed]
  refine exists_congr fun exchange => and_congr_left fun kill => ⟨fun member => ?_, mem_of_within⟩
  apply mem_within searched member
  · rw [kill]
    decide
  · rw [kill]
    decide

theorem staged_iff : Asks exchanges .makeStaging ↔ ∃ compiler, Vetted exchanges compiler := by
  cases course with
  | unfound searched =>
    refine iff_of_false ?_ ?_
    · rintro ⟨exchange, member, made⟩
      have place := searched.place_eq exchange member
      rw [made] at place
      exact absurd place Nat.one_ne_zero
    · rintro ⟨compiler, vetted⟩
      have taken := (searched.vetted compiler).mpr vetted
      contradiction
  | @unstaged _ compiler _ reply searched failed =>
    refine iff_of_true ⟨_, List.mem_append_right _ List.mem_cons_self, rfl⟩ ⟨compiler, ?_⟩
    exact ((searched.vetted compiler).mp rfl).append _
  | @staged _ _ compiler _ _ searched compiled =>
    refine iff_of_true ⟨_, List.mem_append_right _ List.mem_cons_self, rfl⟩ ⟨compiler, ?_⟩
    exact ((searched.vetted compiler).mp rfl).append _

/-- What is made in the host, but for the staging directory, is made in it. -/
theorem made (inOne : '/' ∉ source.filename.shown.toList) (member : exchange ∈ exchanges) {path : Wide}
    (made : exchange.request.made? = some path) :
    ∃ staging name, ⟨.makeStaging, Reply.done staging⟩ ∈ exchanges ∧ '/' ∉ name.shown.toList ∧
      path = inDirectory staging name := by
  obtain ⟨after, before⟩ := Request.place_of_made? made
  obtain ⟨probes, within, compiler, staging, searched, compiled, rfl, inside⟩ :=
    course.exists_within member after before
  rcases compiled.made exchange inside path made with rfl | rfl
  · exact ⟨staging, "output", List.mem_append_right _ List.mem_cons_self, by decide, rfl⟩
  · exact ⟨staging, source.filename, List.mem_append_right _ List.mem_cons_self, inOne, rfl⟩

/-- The staging directory is removed at the end, and no other directory is. -/
theorem made_iff_removed : ⟨.makeStaging, Reply.done staging⟩ ∈ exchanges ↔
    ∃ front, exchanges = front ++ [⟨.remove staging, ()⟩] := by
  constructor
  · intro made
    obtain ⟨probes, within, compiler, -, -, rfl⟩ := course.exists_staged_of_made made
    refine ⟨probes ++ ⟨.makeStaging, Reply.done staging⟩ :: within, ?_⟩
    rw [List.append_assoc, List.cons_append]
  · rintro ⟨front, split⟩
    have removed : ⟨.remove staging, ()⟩ ∈ exchanges := by
      rw [split]
      exact List.mem_append_right _ List.mem_cons_self
    obtain ⟨probes, within, compiler, directory, -, -, rfl⟩ :=
      course.exists_staged removed (by decide : 1 < 7)
    have last : ⟨.remove directory, ()⟩ ∈
        probes ++ ⟨.makeStaging, Reply.done directory⟩ :: (within ++ [⟨.remove directory, ()⟩]) := by
      simp
    cases course.ordered.eq_of_place_eq removed last rfl (by decide : 7 ≠ 0)
    exact List.mem_append_right _ List.mem_cons_self

theorem started {program : String} (member : exchange ∈ exchanges)
    (starts : exchange.request.started? = some program) :
    ∃ compiler, Vetted exchanges compiler ∧ program = compiler.path := by
  have place := Request.place_of_started? starts
  obtain ⟨probes, within, compiler, staging, searched, compiled, rfl, inside⟩ :=
    course.exists_within member (by omega) (by omega)
  exact ⟨compiler, ((searched.vetted compiler).mp rfl).append _,
    compiled.started exchange inside program starts⟩

theorem limited {time : Number.Seconds} {limit : Nat} (member : exchange ∈ exchanges)
    (watches : exchange.request = .watch time limit) :
    time = settings.compileTimeout ∧ limit = settings.maxCompilerOutput.toNat := by
  have place : exchange.request.place = 5 := by rw [watches, Request.place]
  obtain ⟨probes, within, compiler, staging, searched, compiled, rfl, inside⟩ :=
    course.exists_within member (by omega) (by omega)
  exact compiled.limited exchange inside time limit watches

theorem refuses_of_fails :
    ∀ exchange ∈ exchanges, exchange.fails = true → Refuses .system outcome := by
  intro exchange member fails
  cases course with
  | unfound searched =>
    rw [searched.not_fails member] at fails
    contradiction
  | unstaged searched failed => exact refuses_system_of_outcome failed fun _ => rfl
  | staged searched compiled =>
    rcases List.mem_append.mp member with probe | rest
    · rw [searched.not_fails probe] at fails
      contradiction
    · rcases List.mem_cons.mp rest with rfl | rest
      · contradiction
      · rcases List.mem_append.mp rest with inside | last
        · exact compiled.refuses_of_fails exchange inside fails
        · rw [List.mem_singleton.mp last] at fails
          contradiction

theorem watched_or_fails (made : ⟨.makeStaging, Reply.done staging⟩ ∈ exchanges) :
    (∃ exchange ∈ exchanges, exchange.fails = true) ∨
      ∃ watched, ⟨watching settings, Reply.done watched⟩ ∈ exchanges := by
  obtain ⟨probes, within, compiler, searched, compiled, rfl⟩ := course.exists_staged_of_made made
  rcases compiled.watched_or_fails with ⟨exchange, member, fails⟩ | ⟨watched, member⟩
  · exact Or.inl ⟨exchange, mem_of_within member, fails⟩
  · exact Or.inr ⟨watched, mem_of_within member⟩

theorem isOk_iff : (∃ run, outcome = .ok run) ↔
    ∃ time limit watched, ⟨.watch time limit, Reply.done watched⟩ ∈ exchanges ∧
      ¬ (watched.IsOverdue ∨ watched.Overflows limit) := by
  constructor
  · rintro ⟨run, rfl⟩
    obtain ⟨watched, seen⟩ : ∃ watched, ⟨watching settings, Reply.done watched⟩ ∈ exchanges := by
      cases course with
      | staged searched compiled =>
        rcases compiled.watched_or_fails with ⟨exchange, member, fails⟩ | ⟨watched, member⟩
        · obtain ⟨_, impossible, -⟩ := compiled.refuses_of_fails exchange member fails
          contradiction
        · exact ⟨watched, mem_of_within member⟩
    obtain ⟨-, ⟨compiler, judged⟩, -⟩ := course.decided seen
    exact ⟨_, _, watched, seen, Watched.judged_isOk_iff.mp ⟨run, judged.symm⟩⟩
  · rintro ⟨time, limit, watched, seen, sound⟩
    obtain ⟨rfl, ⟨compiler, judged⟩, -⟩ := course.decided seen
    rw [judged]
    exact Watched.judged_isOk_iff.mpr sound

theorem nonempty_iff : exchanges ≠ [] ↔ choices settings search false ≠ [] := by
  have chosen {probes : List Exchange} {compiler : Identity}
      (searched : Searched settings search probes (some compiler)) :
      choices settings search false ≠ [] := by
    intro none
    rw [searched.asked.mpr none] at searched
    exact not_identified_nil ((searched.vetted compiler).mp rfl).1
  cases course with
  | unfound searched => exact not_congr searched.asked
  | unstaged searched failed => exact iff_of_true (by simp) (chosen searched)
  | staged searched compiled => exact iff_of_true (by simp) (chosen searched)

/-- Every course of a compilation is safe. -/
theorem safe (inOne : '/' ∉ source.filename.shown.toList) : Safe settings exchanges outcome where
  stagedOnce := by
    refine course.ordered.countP_le_one (fun exchange staged => ?_) Nat.one_ne_zero
    rw [of_decide_eq_true staged]
    rfl
  staged := course.staged_iff
  vetted := by
    rintro front back reply rfl
    obtain ⟨compiler, vetted⟩ :=
      course.staged_iff.mp ⟨_, List.mem_append_right _ List.mem_cons_self, rfl⟩
    exact ⟨compiler, vetted.front course.ordered Nat.zero_lt_one⟩
  inside := fun exchange member path => course.made inOne member
  removed := fun staging => course.made_iff_removed
  startedOnce := by
    refine course.ordered.countP_le_one (fun exchange starts => ?_) (by decide : 4 ≠ 0)
    obtain ⟨program, started⟩ := Option.isSome_iff_exists.mp starts
    exact Request.place_of_started? started
  started := by
    rintro front exchange back program rfl starts
    obtain ⟨compiler, vetted, same⟩ :=
      course.started (List.mem_append_right _ List.mem_cons_self) starts
    have place := Request.place_of_started? starts
    exact ⟨compiler, vetted.front course.ordered (by omega), same⟩
  watched := fun staging => course.watched_or_fails
  limited := fun exchange member time limit => course.limited member
  killed := by
    rintro front back time limit watched rfl
    obtain ⟨-, -, killed⟩ := course.decided (List.mem_append_right _ List.mem_cons_self)
    rw [← killed]
    refine exists_congr fun exchange => and_congr_left fun kill => ?_
    constructor
    · exact fun member => List.mem_append_right _ (List.mem_cons_of_mem _ member)
    · intro member
      apply course.ordered.mem_back member
      rw [kill]
      exact (by decide : 5 < 6)
  returned := course.isOk_iff
  timedOut := by
    intro time limit watched seen overdue
    obtain ⟨-, ⟨compiler, judged⟩, -⟩ := course.decided seen
    rw [judged, Watched.judged_of_isOverdue overdue]
    exact ⟨_, rfl, rfl⟩
  overflowed := by
    intro time limit watched seen punctual overflows
    obtain ⟨rfl, ⟨compiler, judged⟩, -⟩ := course.decided seen
    rw [judged, Watched.judged_of_overflows punctual overflows]
    exact ⟨_, rfl, rfl⟩
  failed := course.refuses_of_fails

end Course

/-- Where nothing is asked there is no harm. -/
theorem safe_nil (failure : Failure) : Safe settings [] (.error failure : Except Failure α) where
  stagedOnce := Nat.zero_le 1
  staged := by
    refine iff_of_false ?_ ?_
    · rintro ⟨_, ⟨⟩, -⟩
    · rintro ⟨compiler, identified, -⟩
      exact not_identified_nil identified
  vetted := by simp
  inside := by simp
  removed := by simp
  startedOnce := Nat.zero_le 1
  started := by simp
  watched := by simp
  limited := by simp
  killed := by simp
  returned := by simp
  timedOut := by simp
  overflowed := by simp
  failed := by simp

theorem Refuses.map {concern : Concern} {outcome : Except Failure α}
    (refuses : Refuses concern outcome) (f : α → β) : Refuses concern (outcome.map f) := by
  obtain ⟨failure, rfl, affair⟩ := refuses
  exact ⟨failure, rfl, affair⟩

theorem Safe.map {outcome : Except Failure α} (safe : Safe settings exchanges outcome) (f : α → β) :
    Safe settings exchanges (outcome.map f) where
  stagedOnce := safe.stagedOnce
  staged := safe.staged
  vetted := safe.vetted
  inside := safe.inside
  removed := safe.removed
  startedOnce := safe.startedOnce
  started := safe.started
  watched := safe.watched
  limited := safe.limited
  killed := safe.killed
  returned := by
    rw [← safe.returned]
    cases outcome <;> simp [Except.map]
  timedOut := fun seen overdue => (safe.timedOut seen overdue).map f
  overflowed := fun seen punctual overflows => (safe.overflowed seen punctual overflows).map f
  failed := fun exchange member fails => (safe.failed exchange member fails).map f

end ContractInspector.Compiler
