import ContractInspector.Proofs.Guard.Filename
import ContractInspector.Tool.Outline
import ContractInspector.Tool.Validation

/-! Whose affair it is that an input is not resolved. It is a matter of the user or of security, unless
something happens that no refusal describes: to code that has no bytes, to a proper path on the way through
its links, or to a file that is let through. Both tools say the same of it. -/
namespace ContractInspector

open Guard (ContractSource Input ProperUnix checkSize checkUnixPath inlineSource readSource resolve)
open Json (Value)
open Text (Unencodable Wide)

variable {settings : Settings} {files : Host.FileView} {input : Input} {failure : Failure}
variable {accident : Accident}

/-- A refusal that is a matter of the user or of security. -/
def Failure.BlamesInput (failure : Failure) : Prop :=
  ∃ refusal, failure = .refused refusal ∧
    (refusal.report.concern = .user ∨ refusal.report.concern = .security)

theorem Failure.BlamesInput.ne_system (blamed : failure.BlamesInput) :
    failure.refusal.report.concern ≠ .system := by
  obtain ⟨refusal, rfl, concern⟩ := blamed
  intro system
  rcases concern with user | security
  · exact absurd (user.symm.trans system) (by decide)
  · exact absurd (security.symm.trans system) (by decide)

namespace Guard

/-- Code is sent without a path, or a path without code. What is empty counts as missing. -/
def Input.OnlyCode (input : Input) (code : Wide) : Prop :=
  input.code = some code ∧ input.filePath.filter (!·.isEmpty) = none

def Input.OnlyPath (input : Input) (path : Wide) : Prop :=
  input.code.filter (!·.isEmpty) = none ∧ input.filePath = some path

/-- Something happens to an input that no refusal describes. -/
inductive Input.Breaks (files : Host.FileView) (input : Input) : Accident → Prop
  /-- Code has no bytes, since it holds a half of a surrogate pair. -/
  | code {code : Wide} {fault : Unencodable} (only : input.OnlyCode code)
      (halved : code.characters = .error fault) : Breaks files input (.unencodable fault)
  /-- A path that passes all checks of its text cannot be resolved. -/
  | path {path : Wide} {accident : Accident} (only : input.OnlyPath path) (proper : ProperUnix path)
      (unresolved : files.realPath path = .error accident) : Breaks files input accident
  /-- What a path is resolved to passes all checks, and cannot be read at all. -/
  | file {path real : Wide} {accident : Accident} (only : input.OnlyPath path)
      (checked : checkUnixPath files path = .ok real) (unread : files.read real = .broke accident) :
      Breaks files input accident

theorem checkUnixPath_error {path : Wide} (refused : checkUnixPath files path = .error failure) :
    failure.BlamesInput ∨ ∃ accident, failure = .broken accident ∧ ProperUnix path ∧
      files.realPath path = .error accident := by
  rcases checkUnixPath_cases files path with ⟨-, problem, answer⟩ | ⟨proper, accident, unresolved, answer⟩ |
    ⟨-, real, -, -, answer⟩ | ⟨-, real, -, -, answer⟩
  all_goals
    rw [answer] at refused
    cases refused
  · exact Or.inl ⟨_, rfl, Or.inr rfl⟩
  · exact Or.inr ⟨accident, rfl, proper, unresolved⟩
  · exact Or.inl ⟨_, rfl, Or.inr rfl⟩

theorem checkUnixPath_of_unresolved {path : Wide} (proper : ProperUnix path)
    (unresolved : files.realPath path = .error accident) :
    checkUnixPath files path = .error (.broken accident) := by
  rw [checkUnixPath, (pathProblem?_eq_none_iff _ _).mpr proper, unresolved]

theorem cases_of_bind_eq_error {α β : Type} {first : Except Failure α}
    {next : α → Except Failure β} (refused : (first >>= next) = .error failure) :
    first = .error failure ∨ ∃ value, first = .ok value ∧ next value = .error failure := by
  cases first with
  | error failure => exact Or.inl (congrArg Except.error (Except.error.inj refused))
  | ok value => exact Or.inr ⟨value, rfl, refused⟩

theorem checkSize_error {limit : Int} {text : List Char}
    (refused : checkSize limit text = .error failure) : failure.BlamesInput := by
  rw [checkSize] at refused
  split at refused
  · cases refused
    exact ⟨_, rfl, Or.inl rfl⟩
  · contradiction

theorem inlineSource_error {code : Wide} {filename : Option Wide}
    (refused : inlineSource settings code filename = .error failure) :
    failure.BlamesInput ∨ ∃ fault, failure = .broken (.unencodable fault) ∧
      code.characters = .error fault := by
  rw [inlineSource] at refused
  split at refused
  · next fault halved =>
    cases refused
    exact Or.inr ⟨fault, rfl, halved⟩
  · apply Or.inl
    rcases cases_of_bind_eq_error refused with large | ⟨_, -, refused⟩
    · exact checkSize_error large
    · split at refused
      · cases refused
        exact ⟨_, rfl, Or.inl rfl⟩
      · contradiction

/-- What happens to a file behind the check of its path is a matter of the user, if it can be read. -/
theorem readSource_error {given : Wide} (refused : readSource settings files given = .error failure) :
    failure.BlamesInput ∨ ∃ accident, failure = .broken accident ∧
      ((ProperUnix given ∧ files.realPath given = .error accident) ∨
        ∃ real, checkUnixPath files given = .ok real ∧ files.read real = .broke accident) := by
  rcases cases_of_bind_eq_error refused with unchecked | ⟨real, checked, refused⟩
  · refine (checkUnixPath_error unchecked).imp_right ?_
    rintro ⟨accident, same, unresolved⟩
    exact ⟨accident, same, Or.inl unresolved⟩
  · split at refused
    · cases refused
      exact Or.inl ⟨_, rfl, Or.inl rfl⟩
    · next accident unread =>
      cases refused
      exact Or.inr ⟨accident, rfl, Or.inr ⟨real, checked, unread⟩⟩
    · apply Or.inl
      split at refused
      · cases refused
        exact ⟨_, rfl, Or.inl rfl⟩
      · dsimp only at refused
        split at refused
        · cases refused
          exact ⟨_, rfl, Or.inl rfl⟩
        · rcases cases_of_bind_eq_error refused with large | ⟨_, -, refused⟩
          · exact checkSize_error large
          · contradiction

theorem resolve_error (refused : resolve settings files input = .error failure) :
    failure.BlamesInput ∨ ∃ accident, failure = .broken accident ∧ input.Breaks files accident := by
  rw [resolve] at refused
  split at refused
  · cases refused
    exact Or.inl ⟨_, rfl, Or.inl rfl⟩
  · next path codeless given =>
    have only : input.OnlyPath path := ⟨codeless, (Option.filter_eq_some_iff.mp given).1⟩
    refine (readSource_error refused).imp_right ?_
    rintro ⟨accident, same, ⟨proper, unresolved⟩ | ⟨real, checked, unread⟩⟩
    · exact ⟨accident, same, .path only proper unresolved⟩
    · exact ⟨accident, same, .file only checked unread⟩
  · next code given pathless =>
    have only : input.OnlyCode code := ⟨(Option.filter_eq_some_iff.mp given).1, pathless⟩
    refine (inlineSource_error refused).imp_right ?_
    rintro ⟨fault, same, halved⟩
    exact ⟨_, same, .code only halved⟩
  · cases refused
    exact Or.inl ⟨_, rfl, Or.inl rfl⟩

theorem resolve_of_onlyPath {path : Wide} (only : input.OnlyPath path) (proper : ProperUnix path) :
    resolve settings files input = readSource settings files path := by
  obtain ⟨codeless, named⟩ := only
  have given : input.filePath.filter (!·.isEmpty) = some path := by
    rw [named]
    simp [Option.filter, proper.nonempty]
  rw [resolve, codeless, given]

theorem resolve_of_breaks (breaks : input.Breaks files accident) :
    resolve settings files input = .error (.broken accident) := by
  cases breaks with
  | @code code fault only halved =>
    obtain ⟨named, pathless⟩ := only
    have given : input.code.filter (!·.isEmpty) = some code := by
      rw [named]
      cases code with
      | plain text => contradiction
      | halved front half back => rfl
    rw [resolve, given, pathless]
    dsimp only
    rw [inlineSource, halved]
  | path only proper unresolved =>
    rw [resolve_of_onlyPath only proper, readSource, checkUnixPath_of_unresolved proper unresolved]
    rfl
  | file only checked unread =>
    rw [resolve_of_onlyPath only (checkUnixPath_eq_ok checked).1, readSource, checked]
    simp only [bind, Except.bind, unread]

end Guard

namespace Tool

variable {payload : Value}

/-- The result of a tool is a failure that is the affair of `concern`. -/
def Reports (concern : Concern) (result : Value) : Prop :=
  result.member? "errorType" = some (.text concern.name)

theorem reports_outlineFailure (refusal : Refusal) :
    Reports refusal.report.concern (outlineFailure refusal) := by
  rw [Reports, outlineFailure, Value.member?]
  rfl

theorem reports_validationFailure (refusal : Refusal) :
    Reports refusal.report.concern (validationFailure refusal) := by
  rw [Reports, validationFailure, Value.member?]
  rfl

theorem outlineResult_of_error (read : Input.ofJson payload = .ok input)
    (refused : resolve settings files input = .error failure) :
    outlineResult settings files payload = outlineFailure failure.refusal := by
  have failed : outline settings files payload = .error failure := by
    rw [outline, read]
    change (resolve settings files input >>= _) = _
    rw [refused]
    rfl
  rw [outlineResult, failed]

/-- Nothing is asked of the host for an input that is not resolved. -/
theorem validationResult_of_error (search : Compiler.SearchPath)
    (read : Input.ofJson payload = .ok input)
    (refused : resolve settings files input = .error failure) :
    validationResult settings search files payload =
      .done (validationFailure failure.refusal) := by
  have failed : (validate settings search files payload).run = .done (.error failure) := by
    rw [validate, read]
    change (Compiler.Attempt.settled (resolve settings files input) >>= _ : Compiler.Attempt _).run = _
    rw [refused]
    rfl
  rw [validationResult, failed]
  rfl

/-- An input is resolved, or refused as a matter of the user or of security. -/
def Answered (outcome : Except Failure ContractSource) : Prop :=
  (∃ source, outcome = .ok source) ∨ ∃ failure, outcome = .error failure ∧ failure.BlamesInput

/-- Every input is resolved or refused as a matter of the user or of security, unless something happens to it
that no refusal describes. Of an input that is not resolved both tools report the same concern, which is that
of the system in just these cases. -/
theorem answered_iff (search : Compiler.SearchPath) (read : Input.ofJson payload = .ok input) :
    (Answered (resolve settings files input) ↔ ¬ ∃ accident, input.Breaks files accident) ∧
      ∀ failure, resolve settings files input = .error failure →
        let concern := failure.refusal.report.concern
        (concern = .system ↔ ∃ accident, failure = .broken accident ∧ input.Breaks files accident) ∧
          Reports concern (outlineResult settings files payload) ∧
          ∃ result, validationResult settings search files payload = .done result ∧
            Reports concern result := by
  constructor
  · constructor
    · rintro (⟨source, accepted⟩ | ⟨failure, refused, blamed⟩) ⟨accident, breaks⟩
      · rw [Guard.resolve_of_breaks breaks] at accepted
        contradiction
      · rw [Guard.resolve_of_breaks breaks] at refused
        cases refused
        exact blamed.ne_system rfl
    · intro sound
      cases outcome : resolve settings files input with
      | ok source => exact Or.inl ⟨source, rfl⟩
      | error failure =>
        have blamed := (Guard.resolve_error outcome).resolve_right fun ⟨accident, _, breaks⟩ =>
          sound ⟨accident, breaks⟩
        exact Or.inr ⟨failure, rfl, blamed⟩
  · intro failure refused
    refine ⟨⟨fun system => ?_, ?_⟩, ?_, _, validationResult_of_error search read refused,
      reports_validationFailure _⟩
    · exact (Guard.resolve_error refused).resolve_left fun blamed => blamed.ne_system system
    · rintro ⟨accident, rfl, -⟩
      rfl
    · rw [outlineResult_of_error read refused]
      exact reports_outlineFailure _

-- Code that ends in a half of a surrogate pair cannot even be measured.
example : resolve {} ⟨.ok, fun _ => .done []⟩ ⟨some (.halved "a" 0 []), none, none⟩ =
    .error (.broken (.unencodable ⟨0, 1, 1⟩)) := by
  rfl

/-- A computer without files. -/
def bare : Machine.Computer where
  tree := ⟨[]⟩
  temporary := "/tmp"

/-- A payload that gives the path of a file. -/
def pathPayload (path : Wide) : Value := .object [("filePath", .text path)]

theorem ofJson_pathPayload (path : Wide) :
    Input.ofJson (pathPayload path) = .ok ⟨none, some path, none⟩ := by
  rfl

/-- The file is not there, which both tools report as a matter of the user. -/
theorem answered_iff_missing :
    Input.ofJson (pathPayload "/a.compact") = .ok ⟨none, some "/a.compact", none⟩ ∧
      Answered (resolve {} bare.files ⟨none, some "/a.compact", none⟩) := by
  have checked : checkUnixPath bare.files "/a.compact" = .ok (.plain "/a.compact") := by decide +kernel
  have absent : bare.files.read "/a.compact" =
      .failed (Host.Cause.fault .noEntry (.plain "/a.compact")) := by
    have place := bare.tree.place_entry "/a.compact" "a.compact" rfl rfl (by decide) (by decide) nofun
    apply Machine.Computer.read_of_error rfl
    rw [Machine.FileTree.read, Machine.FileTree.find, place]
    rfl
  have sound : ¬ ∃ accident, (⟨none, some "/a.compact", none⟩ : Input).Breaks bare.files accident := by
    rintro ⟨accident, breaks⟩
    cases breaks with
    | code only halved => cases only.1
    | path only proper unresolved =>
      cases only.2
      rw [(Guard.checkUnixPath_eq_ok checked).2.2] at unresolved
      contradiction
    | file only checkedToo unread =>
      cases only.2
      cases checked.symm.trans checkedToo
      rw [absent] at unread
      contradiction
  exact ⟨ofJson_pathPayload _,
    (answered_iff bare.search (ofJson_pathPayload "/a.compact")).1.mpr sound⟩

/-- A path in a directory of the system, with the null character in it, is no matter of security: both
tools report that the system has failed. -/
theorem not_answered_null :
    ¬ Answered (resolve {} bare.files ⟨none, some "/etc/a\x00.compact", none⟩) ∧
      Reports .system (outlineResult {} bare.files (pathPayload "/etc/a\x00.compact")) ∧
      ∃ result, validationResult {} bare.search bare.files (pathPayload "/etc/a\x00.compact") =
        .done result ∧ Reports .system result := by
  have unchecked : checkUnixPath bare.files "/etc/a\x00.compact" = .error (.broken .nullInPath) := by
    decide +kernel
  have refused : resolve {} bare.files ⟨none, some "/etc/a\x00.compact", none⟩ =
      .error (.broken .nullInPath) := by
    change readSource {} bare.files "/etc/a\x00.compact" = _
    rw [readSource, unchecked]
    rfl
  refine ⟨?_, ?_, _, validationResult_of_error _ (ofJson_pathPayload _) refused,
    reports_validationFailure _⟩
  · rw [refused]
    rintro (⟨source, accepted⟩ | ⟨failure, same, ⟨refusal, other, -⟩⟩)
    · contradiction
    · cases same
      contradiction
  · rw [outlineResult_of_error (ofJson_pathPayload _) refused]
    exact reports_outlineFailure _

end Tool

end ContractInspector
