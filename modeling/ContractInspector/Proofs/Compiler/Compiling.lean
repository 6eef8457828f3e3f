import ContractInspector.Compiler.Run
import ContractInspector.Proofs.Compiler.Selecting

/-! The courses that a compilation can take. It asks candidates for their versions, makes a staging
directory for the first one that is accepted, and removes the directory at the end, however far it got in
between. -/
namespace ContractInspector.Compiler

open Guard (ContractSource)
open Host (Reply)
open Text (Wide)

variable {settings : Settings} {search : SearchPath} {source : ContractSource} {compiler : Identity}
variable {staging : String} {exchanges : List Exchange}

/-! ### The compilation in a staging directory -/

namespace Watched

/-- The process did not end in time. -/
def IsOverdue (watched : Watched) : Prop :=
  watched.status = none

/-- One of the outputs of the process is over the limit. -/
def Overflows (limit : Nat) (watched : Watched) : Prop :=
  ((readOutput limit watched.output).overflowed || (readOutput limit watched.errors).overflowed) = true

/-- What comes of a process that was watched. One that was not done in time is judged by that, whatever
it wrote. -/
def judged (settings : Settings) (compiler : Identity) (watched : Watched) : Except Failure Run :=
  let limit := settings.maxCompilerOutput.toNat
  let output := readOutput limit watched.output
  let errors := readOutput limit watched.errors
  match watched.status with
  | none => .error (.refused (.timedOut settings.compileTimeout compiler))
  | some status =>
    if output.overflowed || errors.overflowed then
      .error (.refused (.tooMuchOutput settings.maxCompilerOutput compiler))
    else .ok ⟨compiler, status, String.ofList output.text, String.ofList errors.text⟩

variable {watched : Watched}

theorem judged_of_isOverdue (overdue : watched.IsOverdue) :
    watched.judged settings compiler =
      .error (.refused (.timedOut settings.compileTimeout compiler)) := by
  rw [judged, show watched.status = none from overdue]

theorem judged_of_overflows (punctual : ¬ watched.IsOverdue)
    (overflows : watched.Overflows settings.maxCompilerOutput.toNat) :
    watched.judged settings compiler =
      .error (.refused (.tooMuchOutput settings.maxCompilerOutput compiler)) := by
  obtain ⟨status, ended⟩ := Option.ne_none_iff_exists'.mp punctual
  rw [judged, ended]
  exact if_pos overflows

theorem exists_judged_of_fits (punctual : ¬ watched.IsOverdue)
    (fits : ¬ watched.Overflows settings.maxCompilerOutput.toNat) :
    ∃ run, watched.judged settings compiler = .ok run := by
  obtain ⟨status, ended⟩ := Option.ne_none_iff_exists'.mp punctual
  rw [judged, ended]
  exact ⟨_, if_neg fits⟩

theorem judged_isOk_iff : (∃ run, watched.judged settings compiler = .ok run) ↔
    ¬ (watched.IsOverdue ∨ watched.Overflows settings.maxCompilerOutput.toNat) := by
  constructor
  · rintro ⟨run, judged⟩ (overdue | overflows)
    · rw [judged_of_isOverdue overdue] at judged
      contradiction
    · by_cases overdue : watched.IsOverdue
      · rw [judged_of_isOverdue overdue] at judged
        contradiction
      · rw [judged_of_overflows overdue overflows] at judged
        contradiction
  · intro sound
    exact exists_judged_of_fits (fun overdue => sound (Or.inl overdue))
      fun overflows => sound (Or.inr overflows)

end Watched

section InStaging

variable (settings : Settings) (compiler : Identity) (staging : String) (source : ContractSource)

/-- The directory for the files of the compiler. -/
def outputDirectory : Wide := inDirectory staging "output"

/-- The place of the source. -/
def stagedPath : Wide := inDirectory staging source.filename

/-- The request for the compiler to be started. -/
def starting : Request :=
  let place := target staging (stagedPath staging source) source.origin
  .start compiler.path place.1 (outputDirectory staging) place.2

/-- The request for the process to be watched. -/
def watching : Request :=
  .watch settings.compileTimeout settings.maxCompilerOutput.toNat

/-- The courses of a compilation in its staging directory. -/
inductive InStaging : List Exchange → Except Failure Run → Prop
  | unmade {failure : Failure} (made : Reply Unit) (failed : made.outcome stagingFailure = .error failure) :
      InStaging [⟨.makeDirectory (outputDirectory staging), made⟩] (.error failure)
  | unwritten {failure : Failure} (written : Reply Unit)
      (failed : written.outcome writeFailure = .error failure) :
      InStaging [⟨.makeDirectory (outputDirectory staging), Reply.done ()⟩,
        ⟨.writeFile (stagedPath staging source) source.text, written⟩] (.error failure)
  | unstarted {failure : Failure} (started : Reply Unit)
      (failed : started.outcome (startFailure compiler.path) = .error failure) :
      InStaging [⟨.makeDirectory (outputDirectory staging), Reply.done ()⟩,
        ⟨.writeFile (stagedPath staging source) source.text, Reply.done ()⟩,
        ⟨starting compiler staging source, started⟩] (.error failure)
  | unwatched {failure : Failure} (watched : Reply Watched)
      (failed : watched.outcome (.unexpected ·.details) = .error failure) :
      InStaging [⟨.makeDirectory (outputDirectory staging), Reply.done ()⟩,
        ⟨.writeFile (stagedPath staging source) source.text, Reply.done ()⟩,
        ⟨starting compiler staging source, Reply.done ()⟩,
        ⟨watching settings, watched⟩] (.error failure)
  | killed {failure : Failure} (watched : Watched)
      (judged : watched.judged settings compiler = .error failure) :
      InStaging [⟨.makeDirectory (outputDirectory staging), Reply.done ()⟩,
        ⟨.writeFile (stagedPath staging source) source.text, Reply.done ()⟩,
        ⟨starting compiler staging source, Reply.done ()⟩,
        ⟨watching settings, Reply.done watched⟩, ⟨.kill, ()⟩] (.error failure)
  | returned {run : Run} (watched : Watched) (judged : watched.judged settings compiler = .ok run) :
      InStaging [⟨.makeDirectory (outputDirectory staging), Reply.done ()⟩,
        ⟨.writeFile (stagedPath staging source) source.text, Reply.done ()⟩,
        ⟨starting compiler staging source, Reply.done ()⟩,
        ⟨watching settings, Reply.done watched⟩] (.ok run)

end InStaging

/-- Staging fails at the directory or at the file, or comes to both. -/
theorem ends_stage {outcome : Except Failure Wide}
    (ends : (stage staging source).run.Ends exchanges outcome) :
    (∃ (made : Reply Unit) (failure : Failure), made.outcome stagingFailure = .error failure ∧
        exchanges = [⟨.makeDirectory (outputDirectory staging), made⟩] ∧ outcome = .error failure) ∨
      (∃ (written : Reply Unit) (failure : Failure), written.outcome writeFailure = .error failure ∧
        exchanges = [⟨.makeDirectory (outputDirectory staging), Reply.done ()⟩,
          ⟨.writeFile (stagedPath staging source) source.text, written⟩] ∧ outcome = .error failure) ∨
      exchanges = [⟨.makeDirectory (outputDirectory staging), Reply.done ()⟩,
        ⟨.writeFile (stagedPath staging source) source.text, Reply.done ()⟩] ∧
        outcome = .ok (stagedPath staging source) := by
  obtain ⟨made, _, rfl, ⟨failure, failed, rfl, rfl⟩ | ⟨_, done, writing⟩⟩ :=
    Attempt.ends_request_bind_iff.mp ends
  · exact Or.inl ⟨made, failure, failed, rfl, rfl⟩
  · obtain rfl := Reply.eq_done_of_outcome done
    obtain ⟨written, _, rfl, ⟨failure, failed, rfl, rfl⟩ | ⟨_, done, last⟩⟩ :=
      Attempt.ends_request_bind_iff.mp writing
    · exact Or.inr (Or.inl ⟨written, failure, failed, rfl, rfl⟩)
    · obtain rfl := Reply.eq_done_of_outcome done
      obtain ⟨rfl, rfl⟩ := Procedure.ends_done_iff.mp last
      exact Or.inr (Or.inr ⟨rfl, rfl⟩)

theorem inStaging_of_ends {outcome : Except Failure Run}
    (ends : (compileIn settings compiler staging source).run.Ends exchanges outcome) :
    InStaging settings compiler staging source exchanges outcome := by
  rcases Attempt.ends_bind_iff.mp ends with ⟨failure, staged, rfl⟩ | ⟨_, later, _, staged, compiling, rfl⟩
  · rcases ends_stage staged with ⟨made, _, failed, rfl, same⟩ | ⟨written, _, failed, rfl, same⟩ |
      ⟨-, impossible⟩
    · cases same
      exact .unmade made failed
    · cases same
      exact .unwritten written failed
    · contradiction
  · rcases ends_stage staged with ⟨_, _, -, -, impossible⟩ | ⟨_, _, -, -, impossible⟩ | ⟨rfl, same⟩
    · contradiction
    · contradiction
    · cases same
      obtain ⟨started, _, rfl, ⟨_, failed, rfl, rfl⟩ | ⟨_, done, running⟩⟩ :=
        Attempt.ends_request_bind_iff.mp compiling
      · exact .unstarted started failed
      · obtain rfl := Reply.eq_done_of_outcome done
        obtain ⟨watched, _, rfl, ⟨_, failed, rfl, rfl⟩ | ⟨seen, done, judging⟩⟩ :=
          Attempt.ends_request_bind_iff.mp running
        · exact .unwatched watched failed
        · obtain rfl := Reply.eq_done_of_outcome done
          split at judging
          · next overdue =>
            obtain ⟨_, _, rfl, last⟩ := Procedure.ends_ask_iff.mp judging
            obtain ⟨rfl, rfl⟩ := Procedure.ends_done_iff.mp last
            exact .killed seen (Watched.judged_of_isOverdue overdue)
          · next status ended =>
            have punctual : ¬ seen.IsOverdue := by
              rw [Watched.IsOverdue, ended]
              nofun
            dsimp only at judging
            split at judging
            · next overflows =>
              obtain ⟨_, _, rfl, last⟩ := Procedure.ends_ask_iff.mp judging
              obtain ⟨rfl, rfl⟩ := Procedure.ends_done_iff.mp last
              exact .killed seen (Watched.judged_of_overflows punctual overflows)
            · next fits =>
              obtain ⟨rfl, rfl⟩ := Procedure.ends_done_iff.mp judging
              refine .returned seen ?_
              rw [Watched.judged, ended]
              exact if_neg fits

/-! ### The search for the compiler -/

/-- The program at the path of the compiler was asked for its version and told it. -/
def Identified (history : List Exchange) (compiler : Identity) : Prop :=
  ∃ finished, ⟨.probe compiler.path, Reply.done finished⟩ ∈ history ∧
    answeredVersion? finished = .ok (some compiler.version)

/-- A compiler was found whose version is accepted. -/
def Vetted (history : List Exchange) (compiler : Identity) : Prop :=
  Identified history compiler ∧ checkVersion compiler = .ok ()

theorem identified_cons_iff {path : String} {reply : Reply Finished} :
    Identified (⟨.probe path, reply⟩ :: exchanges) compiler ↔
      compiler.path = path ∧ read? reply = .ok (some compiler.version) ∨
        Identified exchanges compiler := by
  constructor
  · rintro ⟨finished, member, version⟩
    rcases List.mem_cons.mp member with same | later
    · cases same
      exact Or.inl ⟨rfl, version⟩
    · exact Or.inr ⟨finished, later, version⟩
  · rintro (⟨rfl, version⟩ | ⟨finished, later, version⟩)
    · cases reply with
      | done finished => exact ⟨finished, List.mem_cons_self, version⟩
      | failed fault => nomatch (version : Except.ok none = _)
      | broke accident => nomatch (version : Except.error _ = _)
    · exact ⟨finished, List.mem_cons_of_mem _ later, version⟩

theorem not_identified_nil : ¬ Identified [] compiler := by
  rintro ⟨finished, member, -⟩
  cases member

/-- What a search among candidates asks, and what it finds: the compiler that was identified. -/
structure Sought (paths : List String) (exchanges : List Exchange)
    (outcome : Except Failure (Option Identity)) : Prop where
  probing : ∀ exchange ∈ exchanges, ∃ path, exchange.request = .probe path
  asked : exchanges = [] ↔ paths = []
  found : ∀ compiler, outcome = .ok (some compiler) ↔ Identified exchanges compiler

theorem ends_probe {path : String} {outcome : Except Failure (Option String)}
    (ends : (probe path).run.Ends exchanges outcome) :
    ∃ reply : Reply Finished, exchanges = [⟨.probe path, reply⟩] ∧ outcome = read? reply := by
  rw [probe_run] at ends
  obtain ⟨reply, _, rfl, last⟩ := Procedure.ends_ask_iff.mp ends
  obtain ⟨rfl, rfl⟩ := Procedure.ends_done_iff.mp last
  exact ⟨reply, rfl, rfl⟩

/-- The search asks the first candidate, and then the others if it reads no version and does not fail. -/
theorem ends_selectCompiler_cons {path : String} {others : List String}
    {outcome : Except Failure (Option Identity)}
    (ends : (selectCompiler false (path :: others)).run.Ends exchanges outcome) :
    ∃ (reply : Reply Finished) (later : List Exchange), exchanges = ⟨.probe path, reply⟩ :: later ∧
      ((∃ failure, read? reply = .error failure ∧ later = [] ∧ outcome = .error failure) ∨
        (∃ version, read? reply = .ok (some version) ∧ later = [] ∧
          outcome = .ok (some ⟨path, version⟩)) ∨
        read? reply = .ok none ∧ (selectCompiler false others).run.Ends later outcome) := by
  rw [selectCompiler, if_neg (by simp)] at ends
  rcases Attempt.ends_bind_iff.mp ends with ⟨failure, probed, rfl⟩ |
    ⟨_, later, version?, probed, rest, rfl⟩
  · obtain ⟨reply, rfl, read⟩ := ends_probe probed
    exact ⟨reply, [], rfl, Or.inl ⟨failure, read.symm, rfl, rfl⟩⟩
  · obtain ⟨reply, rfl, read⟩ := ends_probe probed
    cases version? with
    | some version =>
      obtain ⟨rfl, rfl⟩ := Procedure.ends_done_iff.mp rest
      exact ⟨reply, [], rfl, Or.inr (Or.inl ⟨version, read.symm, rfl, rfl⟩)⟩
    | none => exact ⟨reply, later, rfl, Or.inr (Or.inr ⟨read.symm, rest⟩)⟩

theorem sought_of_ends {paths : List String} {outcome : Except Failure (Option Identity)}
    (ends : (selectCompiler false paths).run.Ends exchanges outcome) :
    Sought paths exchanges outcome := by
  induction paths generalizing exchanges with
  | nil =>
    obtain ⟨rfl, rfl⟩ := Procedure.ends_done_iff.mp ends
    exact ⟨List.forall_mem_nil _, iff_of_true rfl rfl,
      fun compiler => iff_of_false nofun not_identified_nil⟩
  | cons path others ih =>
    obtain ⟨reply, later, rfl, course⟩ := ends_selectCompiler_cons ends
    refine ⟨?_, iff_of_false nofun nofun, fun compiler => ?_⟩
    · refine List.forall_mem_cons.mpr ⟨⟨path, rfl⟩, ?_⟩
      rcases course with ⟨_, -, rfl, -⟩ | ⟨_, -, rfl, -⟩ | ⟨-, rest⟩
      · exact List.forall_mem_nil _
      · exact List.forall_mem_nil _
      · exact (ih rest).probing
    · rw [identified_cons_iff]
      rcases course with ⟨failure, read, rfl, rfl⟩ | ⟨version, read, rfl, rfl⟩ | ⟨read, rest⟩
      · rw [read]
        exact iff_of_false nofun (not_or_intro nofun not_identified_nil)
      · rw [read, or_iff_left not_identified_nil]
        constructor
        · rintro ⟨⟩
          exact ⟨rfl, rfl⟩
        · rintro ⟨rfl, same⟩
          cases same
          rfl
      · rw [read, (ih rest).found compiler, or_iff_right nofun]

/-! ### The whole compilation -/

/-- A search among the candidates of the settings, and the compiler that is taken, if one is. -/
structure Searched (settings : Settings) (search : SearchPath) (exchanges : List Exchange)
    (taken : Option Identity) : Prop where
  probing : ∀ exchange ∈ exchanges, ∃ path, exchange.request = .probe path
  asked : exchanges = [] ↔ choices settings search false = []
  vetted : ∀ compiler, taken = some compiler ↔ Vetted exchanges compiler

/-- The courses of a compilation: no compiler is taken, there is no staging directory, or there is one and
it is removed at the end. -/
inductive Course (settings : Settings) (search : SearchPath) (source : ContractSource) :
    List Exchange → Except Failure Run → Prop
  | unfound {probes : List Exchange} {failure : Failure} (searched : Searched settings search probes none) :
      Course settings search source probes (.error failure)
  | unstaged {probes : List Exchange} {compiler : Identity} {failure : Failure} {reply : Reply String}
      (searched : Searched settings search probes (some compiler))
      (failed : reply.outcome stagingFailure = .error failure) :
      Course settings search source (probes ++ [⟨.makeStaging, reply⟩]) (.error failure)
  | staged {probes within : List Exchange} {compiler : Identity} {staging : String}
      {outcome : Except Failure Run} (searched : Searched settings search probes (some compiler))
      (compiled : InStaging settings compiler staging source within outcome) :
      Course settings search source
        (probes ++ ⟨.makeStaging, Reply.done staging⟩ :: (within ++ [⟨.remove staging, ()⟩])) outcome

theorem Sought.searched {taken : Identity}
    (sought : Sought (choices settings search false) exchanges (.ok (some taken)))
    (accepted : checkVersion taken = .ok ()) : Searched settings search exchanges (some taken) := by
  refine ⟨sought.probing, sought.asked, fun compiler => ?_⟩
  constructor
  · rintro ⟨⟩
    exact ⟨(sought.found taken).mp rfl, accepted⟩
  · rintro ⟨identified, -⟩
    exact Except.ok.inj ((sought.found compiler).mpr identified)

theorem Sought.searched_none {found : Except Failure (Option Identity)}
    (sought : Sought (choices settings search false) exchanges found)
    (untaken : ∀ compiler, found = .ok (some compiler) → checkVersion compiler ≠ .ok ()) :
    Searched settings search exchanges none := by
  refine ⟨sought.probing, sought.asked, fun compiler => iff_of_false nofun ?_⟩
  rintro ⟨identified, accepted⟩
  exact untaken compiler ((sought.found compiler).mpr identified) accepted

/-- A search fails, finds nothing, or finds a compiler. -/
theorem ends_locate {outcome : Except Failure Identity}
    (ends : (locate settings search false).run.Ends exchanges outcome) :
    (∃ failure, outcome = .error failure ∧ Searched settings search exchanges none) ∨
      ∃ compiler, outcome = .ok compiler ∧
        Sought (choices settings search false) exchanges (.ok (some compiler)) := by
  rcases Attempt.ends_bind_iff.mp ends with ⟨failure, selected, rfl⟩ |
    ⟨_, later, compiler?, selected, rest, rfl⟩
  · exact Or.inl ⟨failure, rfl, (sought_of_ends selected).searched_none nofun⟩
  · have sought := sought_of_ends selected
    cases compiler? with
    | none =>
      obtain ⟨rfl, rfl⟩ := Procedure.ends_done_iff.mp rest
      rw [List.append_nil]
      exact Or.inl ⟨_, rfl, sought.searched_none nofun⟩
    | some compiler =>
      obtain ⟨rfl, rfl⟩ := Procedure.ends_done_iff.mp rest
      rw [List.append_nil]
      exact Or.inr ⟨compiler, rfl, sought⟩

theorem course_of_ends {outcome : Except Failure Run}
    (ends : (compile settings search source).run.Ends exchanges outcome) :
    Course settings search source exchanges outcome := by
  rcases Attempt.ends_bind_iff.mp ends with ⟨failure, located, rfl⟩ |
    ⟨probes, _, compiler, located, checking, rfl⟩
  · rcases ends_locate located with ⟨_, -, searched⟩ | ⟨_, impossible, -⟩
    · exact .unfound searched
    · contradiction
  · rcases ends_locate located with ⟨_, impossible, -⟩ | ⟨_, same, sought⟩
    · contradiction
    · cases same
      rcases Attempt.ends_settled_bind_iff.mp checking with ⟨failure, refused, rfl, rfl⟩ |
        ⟨_, accepted, staging⟩
      · rw [List.append_nil]
        refine .unfound (sought.searched_none ?_)
        rintro _ ⟨⟩ accepted
        rw [refused] at accepted
        contradiction
      · obtain ⟨reply, _, rfl, ⟨failure, failed, rfl, rfl⟩ | ⟨directory, done, ending⟩⟩ :=
          Attempt.ends_request_bind_iff.mp staging
        · exact .unstaged (sought.searched accepted) failed
        · obtain rfl := Reply.eq_done_of_outcome done
          obtain ⟨within, _, compiled, removing, rfl⟩ := Attempt.ends_ending_iff.mp ending
          obtain ⟨_, _, rfl, last⟩ := Procedure.ends_ask_iff.mp removing
          obtain ⟨rfl, -⟩ := Procedure.ends_done_iff.mp last
          exact .staged (sought.searched accepted) (inStaging_of_ends compiled)

end ContractInspector.Compiler
