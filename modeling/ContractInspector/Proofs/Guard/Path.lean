import ContractInspector.Guard.Path
import ContractInspector.Proofs.Machine.Resolving
import ContractInspector.Proofs.Text.Lines

/-! Which Unix paths the guard lets through. What a path leads to is kept out of the directories of the
system, unless it is written with two leading slashes: so are paths that a loop of links keeps from
being resolved. A path that cannot be resolved is no matter of security to the guard. -/
namespace ContractInspector.Guard

open Text (Wide)
open UnixPath (Doubled InSystem Resolved form isAbsolute isDenied)

variable {files : Host.FileView} {path real : Wide}

/-- An absolute path without two dots in a row that ends in the extension of contracts. -/
structure Proper (absolute : Bool) (path : List Char) : Prop where
  absolute : absolute = true
  straight : ¬ ['.', '.'] <:+: path
  contract : Language.fileExtension.toList <:+ path

theorem pathProblem?_eq_none_iff (absolute : Bool) (path : List Char) :
    pathProblem? absolute path = none ↔ Proper absolute path := by
  rw [pathProblem?]
  constructor
  · intro nothing
    split at nothing
    · contradiction
    · next isAbsolute =>
      split at nothing
      · contradiction
      · next straight =>
        split at nothing
        · contradiction
        · next contract =>
          rw [Bool.not_eq_true', Bool.not_eq_false] at isAbsolute contract
          exact ⟨isAbsolute, mt (Text.contains_iff _ _).mpr straight, List.isSuffixOf_iff_suffix.mp contract⟩
  · rintro ⟨isAbsolute, straight, contract⟩
    rw [isAbsolute, if_neg (by decide), if_neg (mt (Text.contains_iff _ _).mp straight),
      List.isSuffixOf_iff_suffix.mpr contract]
    rfl

/-- A Unix path is proper, as it shows. -/
abbrev ProperUnix (path : Wide) : Prop :=
  Proper (isAbsolute path.shown.toList) path.shown.toList

theorem ProperUnix.nonempty (proper : ProperUnix path) : path.isEmpty = false := by
  cases path with
  | plain text =>
    rw [Wide.isEmpty, Bool.eq_false_iff, ne_eq, String.isEmpty_iff]
    rintro rfl
    exact absurd proper.absolute (by decide)
  | halved front half back => rfl

/-- The path as it is written, or what it leads to, is denied. -/
def denies (path real : Wide) : Bool :=
  isDenied (form path.shown.toList) || isDenied real.shown.toList

/-- What the guard of Unix paths answers, on all of them. -/
theorem checkUnixPath_cases (files : Host.FileView) (path : Wide) :
    (¬ ProperUnix path ∧ ∃ problem, checkUnixPath files path = .error (.refused (.badPath problem))) ∨
    (ProperUnix path ∧ ∃ accident, files.realPath path = .error accident ∧
      checkUnixPath files path = .error (.broken accident)) ∨
    (ProperUnix path ∧ ∃ real, files.realPath path = .ok real ∧ denies path real = true ∧
      checkUnixPath files path = .error (.refused (.badPath .systemDirectory))) ∨
    (ProperUnix path ∧ ∃ real, files.realPath path = .ok real ∧ denies path real = false ∧
      checkUnixPath files path = .ok real) := by
  rw [checkUnixPath]
  cases found : pathProblem? (isAbsolute path.shown.toList) path.shown.toList with
  | some problem =>
    have improper : ¬ ProperUnix path := by
      rw [ProperUnix, ← pathProblem?_eq_none_iff, found]
      nofun
    exact Or.inl ⟨improper, problem, rfl⟩
  | none =>
    have proper : ProperUnix path := (pathProblem?_eq_none_iff _ _).mp found
    apply Or.inr
    cases resolution : files.realPath path with
    | error accident => exact Or.inl ⟨proper, accident, rfl, rfl⟩
    | ok real =>
      apply Or.inr
      cases denied : denies path real with
      | true => exact Or.inl ⟨proper, real, rfl, denied, if_pos denied⟩
      | false => exact Or.inr ⟨proper, real, rfl, denied, if_neg (Bool.eq_false_iff.mp denied)⟩

theorem checkUnixPath_eq_ok (accepted : checkUnixPath files path = .ok real) :
    ProperUnix path ∧ denies path real = false ∧ files.realPath path = .ok real := by
  rcases checkUnixPath_cases files path with ⟨-, problem, answer⟩ | ⟨-, accident, -, answer⟩ |
    ⟨-, real, -, -, answer⟩ | ⟨proper, real, resolution, passed, answer⟩
  all_goals
    rw [answer] at accepted
    cases accepted
  exact ⟨proper, passed, resolution⟩

/-- What the guard of Unix paths is there for. It lets through what is safe, as what it leads to, and
nothing else, and it says that what it refuses is a matter of security. -/
structure Guarded (files : Host.FileView) (path : Wide) : Prop where
  sound : ∀ real, checkUnixPath files path = .ok real →
    ProperUnix path ∧ files.realPath path = .ok real ∧ ¬ InSystem real.shown.toList
  complete : ProperUnix path → ¬ InSystem (form path.shown.toList) →
    ∀ real, files.realPath path = .ok real → ¬ InSystem real.shown.toList →
      checkUnixPath files path = .ok real
  secure : ∀ failure, checkUnixPath files path = .error failure →
    failure.refusal.report.concern = .security

/-- A path leads, behind two slashes, into a directory of the system, and as it is written it is in
none, or behind two slashes too. -/
structure Escapes (path real : Wide) : Prop where
  unseen : InSystem path.shown.toList → Doubled path.shown.toList
  doubled : Doubled real.shown.toList
  inSystem : InSystem real.shown.toList

theorem denies_iff (resolved : Resolved real.shown.toList) : denies path real = true ↔
    (¬ Doubled path.shown.toList ∧ InSystem path.shown.toList) ∨
      (¬ Doubled real.shown.toList ∧ InSystem real.shown.toList) := by
  rw [denies, Bool.or_eq_true, UnixPath.isDenied_form_iff, resolved.isDenied_iff]

/-- Neither form of an escaping path is denied. -/
theorem Escapes.not_denied (resolved : Resolved real.shown.toList) (escapes : Escapes path real) :
    denies path real = false := by
  rw [← Bool.not_eq_true, denies_iff resolved]
  rintro (⟨single, inSystem⟩ | ⟨single, -⟩)
  · exact single (escapes.unseen inSystem)
  · exact single escapes.doubled

/-- A path of which no form is denied escapes, or leads to no directory of the system. -/
theorem escapes_or_not_inSystem (resolved : Resolved real.shown.toList)
    (passed : denies path real = false) : Escapes path real ∨ ¬ InSystem real.shown.toList := by
  rw [← Bool.not_eq_true, denies_iff resolved, not_or] at passed
  by_cases inSystem : InSystem real.shown.toList
  · have doubled : Doubled real.shown.toList :=
      Decidable.byContradiction fun single => passed.2 ⟨single, inSystem⟩
    have unseen : InSystem path.shown.toList → Doubled path.shown.toList := fun below =>
      Decidable.byContradiction fun single => passed.1 ⟨single, below⟩
    exact Or.inl ⟨unseen, doubled, inSystem⟩
  · exact Or.inr inSystem

/-- A refusal is in order if the path is not proper, or has a form in a directory of the system. -/
theorem guarded_of_refused {problem : PathProblem}
    (answer : checkUnixPath files path = .error (.refused (.badPath problem)))
    (due : ProperUnix path → ∀ real, files.realPath path = .ok real →
      InSystem (form path.shown.toList) ∨ InSystem real.shown.toList) : Guarded files path := by
  constructor
  · intro real accepted
    rw [answer] at accepted
    contradiction
  · intro proper outside real resolution realOutside
    exact absurd (due proper real resolution) (not_or_intro outside realOutside)
  · intro failure refused
    rw [answer] at refused
    cases refused
    rfl

theorem guarded_iff_of_accepted (accepted : checkUnixPath files path = .ok real) :
    Guarded files path ↔ ¬ InSystem real.shown.toList := by
  obtain ⟨proper, -, resolution⟩ := checkUnixPath_eq_ok accepted
  constructor
  · intro guarded
    exact (guarded.sound real accepted).2.2
  · intro outside
    constructor
    · intro other answer
      obtain rfl := Except.ok.inj (accepted.symm.trans answer)
      exact ⟨proper, resolution, outside⟩
    · intro _ _ other same _
      obtain rfl := Except.ok.inj (resolution.symm.trans same)
      exact accepted
    · intro failure refused
      rw [accepted] at refused
      contradiction

/-- The guard of Unix paths keeps its word on a path unless the path is proper and cannot be resolved, or is
proper and escapes. -/
theorem guarded_iff (resolved : ∀ real, files.realPath path = .ok real → Resolved real.shown.toList) :
    Guarded files path ↔ ¬ (ProperUnix path ∧ ((∃ accident, files.realPath path = .error accident) ∨
      ∃ real, files.realPath path = .ok real ∧ Escapes path real)) := by
  rcases checkUnixPath_cases files path with ⟨improper, problem, answer⟩ |
    ⟨proper, accident, resolution, answer⟩ | ⟨proper, real, resolution, denied, answer⟩ |
    ⟨proper, real, resolution, passed, answer⟩
  · rw [iff_true_right fun bad => improper bad.1]
    exact guarded_of_refused answer fun proper => absurd proper improper
  · rw [iff_false_right (not_not_intro ⟨proper, Or.inl ⟨accident, resolution⟩⟩)]
    intro guarded
    have secure : Concern.system = .security := guarded.secure _ answer
    contradiction
  · have stays : ¬ Escapes path real := by
      intro escapes
      rw [escapes.not_denied (resolved real resolution)] at denied
      contradiction
    rw [resolution, iff_true_right (by simpa using fun _ => stays)]
    apply guarded_of_refused answer
    intro _ other same
    obtain rfl := Except.ok.inj (resolution.symm.trans same)
    rw [denies_iff (resolved real resolution), ← UnixPath.inSystem_form] at denied
    exact denied.imp And.right And.right
  · rw [guarded_iff_of_accepted answer, not_iff_not]
    constructor
    · intro inSystem
      have escapes := (escapes_or_not_inSystem (resolved real resolution) passed).resolve_right
        (not_not_intro inSystem)
      exact ⟨proper, Or.inr ⟨real, resolution, escapes⟩⟩
    · rintro ⟨-, ⟨accident, broke⟩ | ⟨other, same, escapes⟩⟩
      · rw [resolution] at broke
        contradiction
      · obtain rfl := Except.ok.inj (resolution.symm.trans same)
        exact escapes.inSystem

/-- A computer with a link that leads to itself. -/
def looping : Machine.Computer where
  tree := ⟨[(["tmp"], .directory 0o755), (["tmp", "loop"], .link "loop")]⟩
  temporary := "/tmp"

/-- What is left of the path behind the link starts with two slashes. -/
def loopingPath : Wide := "/tmp/loop///etc/x.compact"

def nullPath : Wide := "/etc/a\x00.compact"

theorem guarded_iff_loop :
    (∀ real, looping.files.realPath loopingPath = .ok real → Resolved real.shown.toList) ∧
      (Guarded looping.files loopingPath ↔ ¬ (ProperUnix loopingPath ∧
        ((∃ accident, looping.files.realPath loopingPath = .error accident) ∨
          ∃ real, looping.files.realPath loopingPath = .ok real ∧ Escapes loopingPath real))) :=
  ⟨looping.faithful_files.resolved _, guarded_iff (looping.faithful_files.resolved _)⟩

/-- A path through the loop comes out in a directory of the system, and a null character is no matter of
security. -/
theorem not_guarded_loop : ¬ Guarded looping.files loopingPath ∧ ¬ Guarded looping.files nullPath := by
  constructor
  · intro guarded
    have accepted : checkUnixPath looping.files loopingPath = .ok (.plain "//etc/x.compact") := by
      decide +kernel
    exact (guarded.sound _ accepted).2.2 (by decide)
  · intro guarded
    have broken : checkUnixPath looping.files nullPath = .error (.broken .nullInPath) := by
      decide +kernel
    exact absurd (guarded.secure _ broken) (by decide)

-- Behind the loop the null character is not looked at.
example : checkUnixPath looping.files (.plain "/tmp/loop/a\x00.compact") =
    .ok (.plain "/tmp/loop/a\x00.compact") := by
  decide +kernel

end ContractInspector.Guard
