import ContractInspector.Guard.Resolve
import ContractInspector.Proofs.Guard.Path
import ContractInspector.Proofs.Text.Wide

/-! The filenames of sources. The name of code that was sent is always safe. A file has the last
component of the path that its own path leads to, which need not end like the path that was given. -/
namespace ContractInspector.Guard

open Text (Wide)
open UnixPath (Faithful IsEntry Resolved basename components fileName)

variable {files : Host.FileView} {settings : Settings} {input : Input} {source : ContractSource}

theorem isFilenameChar_default : ∀ c ∈ Language.defaultFilename.toList, isFilenameChar c = true := by
  decide

theorem fileExtension_suffix_default :
    Language.fileExtension.toList <:+ Language.defaultFilename.toList := by
  decide

theorem isFilenameChar_sanitizeFilename (filename : Option String) :
    ∀ c ∈ (sanitizeFilename filename).toList, isFilenameChar c = true := by
  intro c member
  rw [sanitizeFilename] at member
  split at member
  · rw [String.toList_ofList] at member
    obtain ⟨given, -, rfl⟩ := List.mem_map.mp member
    split
    · assumption
    · decide
  · exact isFilenameChar_default c member

theorem fileExtension_suffix_sanitizeFilename (filename : Option String) :
    Language.fileExtension.toList <:+ (sanitizeFilename filename).toList := by
  rw [sanitizeFilename]
  split
  · next ends =>
    rw [String.toList_ofList]
    exact List.isSuffixOf_iff_suffix.mp ends
  · exact fileExtension_suffix_default

/-- A name that is given to a contract: it has no other characters than filenames may have, and ends in
the extension of contracts. -/
structure IsContractName (name : List Char) : Prop where
  safe : ∀ c ∈ name, isFilenameChar c = true
  contract : Language.fileExtension.toList <:+ name

theorem isContractName_sanitizeFilename (filename : Option String) :
    IsContractName (sanitizeFilename filename).toList :=
  ⟨isFilenameChar_sanitizeFilename filename, fileExtension_suffix_sanitizeFilename filename⟩

theorem IsContractName.not_mem {name : List Char} {c : Char} (named : IsContractName name)
    (other : isFilenameChar c = false) : c ∉ name := by
  intro member
  rw [named.safe c member] at other
  contradiction

/-- A text without slashes that ends in the extension of contracts names an entry. -/
theorem isEntry_of_suffix {name : List Char} (inOne : '/' ∉ name)
    (contract : Language.fileExtension.toList <:+ name) : IsEntry name := by
  have long : 8 ≤ name.length := contract.length_le
  refine ⟨⟨?_, inOne, ?_⟩, ?_⟩
  · rintro rfl
    contradiction
  · rintro rfl
    exact absurd long (by decide)
  · rintro rfl
    exact absurd long (by decide)

theorem isEntry_sanitizeFilename (filename : Option String) :
    IsEntry (sanitizeFilename filename).toList := by
  have named := isContractName_sanitizeFilename filename
  exact isEntry_of_suffix (named.not_mem (by decide)) named.contract

/-- What ends a path ends its last component, if it has no slash. -/
theorem suffix_basename_iff {front name ending : List Char} (inOne : '/' ∉ ending) :
    ending <:+ front ++ '/' :: name ↔ ending <:+ name := by
  constructor
  · intro whole
    have last : '/' :: name <:+ front ++ '/' :: name := List.suffix_append front _
    rcases List.suffix_or_suffix_of_suffix whole last with within | beyond
    · rcases List.suffix_cons_iff.mp within with rfl | within
      · exact absurd List.mem_cons_self inOne
      · exact within
    · exact absurd (beyond.subset List.mem_cons_self) inOne
  · intro within
    exact within.trans ((List.suffix_cons '/' name).trans (List.suffix_append front _))

theorem exists_of_bind_eq_ok {α β : Type} {first : Except Failure α} {next : α → Except Failure β}
    {result : β} (accepted : (first >>= next) = .ok result) :
    ∃ value, first = .ok value ∧ next value = .ok result := by
  cases first with
  | error failure => contradiction
  | ok value => exact ⟨value, rfl, accepted⟩

theorem basename_suffix (path : List Char) : basename path <:+ path := by
  have reversed := (List.takeWhile_prefix (· != '/') : _ <+: path.reverse).reverse
  rwa [List.reverse_reverse] at reversed

/-- The last component of a path shows as that of what the path shows. -/
theorem shown_fileName (path : Wide) : (fileName path).shown.toList = basename path.shown.toList := by
  rw [fileName, Wide.toList_shown, Wide.toList_drop, List.map_drop, ← Wide.toList_shown]
  exact (List.suffix_iff_eq_drop.mp (basename_suffix _)).symm

theorem readSource_cases {given : Wide} (accepted : readSource settings files given = .ok source) :
    ∃ real bytes, checkUnixPath files given = .ok real ∧ files.read real = .done bytes ∧
      source.filename = fileName real ∧ source.origin = .file real (UnixPath.directory real) := by
  obtain ⟨real, checked, accepted⟩ := exists_of_bind_eq_ok accepted
  split at accepted
  · contradiction
  · contradiction
  · next bytes readable =>
    refine ⟨real, bytes, checked, readable, ?_⟩
    split at accepted
    · contradiction
    · dsimp only at accepted
      split at accepted
      · contradiction
      · obtain ⟨_, -, accepted⟩ := exists_of_bind_eq_ok accepted
        cases accepted
        exact ⟨rfl, rfl⟩

theorem inlineSource_cases {code : Wide} {filename : Option Wide}
    (accepted : inlineSource settings code filename = .ok source) :
    source.origin = .inline ∧ source.filename = sanitizeFilename (filename.map (·.shown)) := by
  rw [inlineSource] at accepted
  split at accepted
  · contradiction
  · obtain ⟨_, -, accepted⟩ := exists_of_bind_eq_ok accepted
    split at accepted
    · contradiction
    · cases accepted
      exact ⟨rfl, rfl⟩

/-- A source is the code that was sent, under a safe filename, or the file that the given path leads
to. -/
theorem resolve_cases (accepted : resolve settings files input = .ok source) :
    (source.origin = .inline ∧ source.filename = sanitizeFilename (input.filename.map (·.shown))) ∨
      ∃ given real bytes, checkUnixPath files given = .ok real ∧ files.read real = .done bytes ∧
        source.filename = fileName real ∧ source.origin = .file real (UnixPath.directory real) := by
  rw [resolve] at accepted
  split at accepted
  · contradiction
  · next path _ _ => exact Or.inr ⟨path, readSource_cases accepted⟩
  · exact Or.inl (inlineSource_cases accepted)
  · contradiction

end ContractInspector.Guard
