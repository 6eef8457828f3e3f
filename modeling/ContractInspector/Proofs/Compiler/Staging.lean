import ContractInspector.Compiler.Run
import ContractInspector.Proofs.Guard.Filename

/-! Staging a source: a new directory for the compiler's files and, beside it, the source under its
filename. That needs a filename apart from the directory's, which code that was sent always has. -/
namespace ContractInspector.Compiler

open Guard (ContractSource Input)
open Guard.UnixPath (Faithful IsEntry basename)
open Host.Unix (isAbsolute opened)
open Text (Wide)

variable {staging : String} {source : ContractSource}

/-- Make a directory and then, if it could be made, write a text to a file. The file is the result, if it
could be written. -/
def makeThenWrite (directory file : Wide) (text : List Char) : Procedure (Except Failure Wide) :=
  .ask (.makeDirectory directory) fun
    | .failed fault => .done (.error (.refused (stagingFailure fault)))
    | .broke accident => .done (.error (.broken accident))
    | .done _ => .ask (.writeFile file text) fun
      | .failed fault => .done (.error (.refused (writeFailure fault)))
      | .broke accident => .done (.error (.broken accident))
      | .done _ => .done (.ok file)

theorem stage_run (staging : String) (source : ContractSource) : (stage staging source).run =
    makeThenWrite (inDirectory staging "output") (inDirectory staging source.filename) source.text := by
  apply congrArg (Procedure.ask _)
  funext reply
  cases reply with
  | failed fault => rfl
  | broke accident => rfl
  | done _ =>
    apply congrArg (Procedure.ask _)
    funext reply
    cases reply <;> rfl

theorem inDirectory_eq {name : Wide} (inOne : '/' ∉ name.shown.toList) (directory : String) :
    inDirectory directory name = opened directory ++ name := by
  have relative : ¬ isAbsolute name.shown = true := fun starts =>
    inOne (List.mem_of_mem_head? (beq_iff_eq.mp starts))
  rw [inDirectory, if_neg relative]

theorem append_right_inj {front name other : Wide} (same : front ++ name = front ++ other) :
    name = other := by
  have points := congrArg Wide.toList same
  rw [Wide.toList_append, Wide.toList_append, List.append_right_inj] at points
  exact Wide.toList_injective points

/-- A source that can be put beside the compiler's files: its filename names an entry, ends in the
extension of contracts and is not that of the directory. Staging makes the directory in the staging directory,
and then it writes the text into the staging directory itself, under the filename. -/
structure Stageable (source : ContractSource) : Prop where
  entry : IsEntry source.filename.shown.toList
  contract : Language.fileExtension.toList <:+ source.filename.shown.toList
  apart : source.filename ≠ "output"
  staged : ∀ staging, (stage staging source).run =
    makeThenWrite (opened staging ++ "output") (opened staging ++ source.filename) source.text
  fresh : ∀ staging, (opened staging : Wide) ++ source.filename ≠ opened staging ++ "output"

theorem stageable_of_contract (entry : IsEntry source.filename.shown.toList)
    (contract : Language.fileExtension.toList <:+ source.filename.shown.toList) : Stageable source := by
  have apart : source.filename ≠ "output" := by
    intro same
    rw [same] at contract
    exact absurd contract (by decide)
  refine ⟨entry, contract, apart, ?_, ?_⟩
  · intro staging
    rw [stage_run, inDirectory_eq entry.inOne, inDirectory_eq (by decide)]
  · exact fun staging same => apart (append_right_inj same)

/-- Code that was sent can always be staged, and a file if the path that it was found at, not only the
path that was given, ends in the extension of contracts. In any case the filename names an entry. -/
theorem resolve_stageable_iff {files : Host.FileView} {settings : Settings} {input : Input}
    (faithful : Faithful files) (accepted : Guard.resolve settings files input = .ok source) :
    IsEntry source.filename.shown.toList ∧ (Stageable source ↔ source.origin = .inline ∨
      ∃ path directory, source.origin = .file path directory ∧
        Language.fileExtension.toList <:+ path.shown.toList) := by
  rcases Guard.resolve_cases accepted with ⟨inline, filename⟩ |
    ⟨given, real, bytes, checked, readable, filename, file⟩
  · have entry := Guard.isEntry_sanitizeFilename (input.filename.map (·.shown))
    have contract := Guard.fileExtension_suffix_sanitizeFilename (input.filename.map (·.shown))
    rw [← Wide.shown_plain (Guard.sanitizeFilename _), ← filename] at entry contract
    exact ⟨entry, iff_of_true (stageable_of_contract entry contract) (Or.inl inline)⟩
  · obtain ⟨-, -, resolution⟩ := Guard.checkUnixPath_eq_ok checked
    have resolved := faithful.resolved given real resolution
    obtain ⟨entry, front, path⟩ := resolved.exists_basename (faithful.root real bytes readable)
    have named : source.filename.shown.toList = basename real.shown.toList := by
      rw [filename, Guard.shown_fileName]
    rw [← named] at entry path
    refine ⟨entry, ?_⟩
    rw [file]
    constructor
    · intro stageable
      refine Or.inr ⟨real, _, rfl, ?_⟩
      rw [path]
      exact (Guard.suffix_basename_iff (by decide)).mpr stageable.contract
    · rintro (inline | ⟨other, directory, origin, contract⟩)
      · contradiction
      · cases origin
        rw [path] at contract
        exact stageable_of_contract entry ((Guard.suffix_basename_iff (by decide)).mp contract)

/-- A computer with a link to an empty file that has the name of the directory. -/
def linked : Machine.Computer where
  tree := ⟨[(["output"], .file [] 0o644), (["a.compact"], .link "output")]⟩
  temporary := "/tmp"

def linkedInput : Input := ⟨none, some "/a.compact", none⟩

def linkedSource : ContractSource := ⟨[], "output", .file "/output" "/"⟩

theorem read_linked : linked.files.read "/output" = .done [] := by
  have place := linked.tree.place_entry "/output" "output" rfl rfl (by decide) (by decide) nofun
  apply Machine.Computer.read_of_ok rfl
  rw [Machine.FileTree.read, Machine.FileTree.find, place]
  rfl

theorem resolve_linked : Guard.resolve {} linked.files linkedInput = .ok linkedSource := by
  have checked : Guard.checkUnixPath linked.files "/a.compact" = .ok (.plain "/output") := by
    decide +kernel
  have decoded : Text.Utf8.decode [] = .ok [] := by
    rw [Text.Utf8.decode, Text.Utf8.decodeOnto]
    rfl
  change Guard.readSource {} linked.files "/a.compact" = _
  simp only [Guard.readSource, checked, bind, Except.bind, read_linked, decoded]
  rfl

theorem resolve_stageable_iff_linked :
    Faithful linked.files ∧ Guard.resolve {} linked.files linkedInput = .ok linkedSource ∧
      IsEntry linkedSource.filename.shown.toList ∧
      (Stageable linkedSource ↔ linkedSource.origin = .inline ∨
        ∃ path directory, linkedSource.origin = .file path directory ∧
          Language.fileExtension.toList <:+ path.shown.toList) :=
  ⟨linked.faithful_files, resolve_linked,
    resolve_stageable_iff linked.faithful_files resolve_linked⟩

/-- The file behind the link is accepted, but where it would be staged the directory is. -/
theorem not_stageable_linked :
    ¬ ∀ source, Guard.resolve {} linked.files linkedInput = .ok source → Stageable source := by
  intro always
  exact (always linkedSource resolve_linked).apart rfl

end ContractInspector.Compiler
