import ContractInspector.Proofs.Guard.Path
import ContractInspector.Proofs.Text.LowerCase

/-! Which Windows paths the guard lets through. Every spelling of a directory of the system is found
out, but only in paths without a prefix: behind the prefix of an extended-length or device path nothing
is denied. -/
namespace ContractInspector.Guard.WindowsPath

variable {path text part other : List Char}

/-- A part has no characters but those of a path and backslashes. -/
def Within (path part : List Char) : Prop :=
  ∀ c ∈ part, c ∈ path ∨ c = '\\'

theorem within_append (one : Within path part) (two : Within path other) :
    Within path (part ++ other) := by
  intro c member
  rcases List.mem_append.mp member with member | member
  · exact one c member
  · exact two c member

theorem within_of_sublist (within : Within path part) (sublist : other.Sublist part) :
    Within path other :=
  fun c member => within c (sublist.subset member)

theorem within_backslash (within : Within path part) : Within path ('\\' :: part) := by
  intro c member
  rcases List.mem_cons.mp member with same | member
  · exact Or.inr same
  · exact within c member

theorem within_self (path : List Char) : Within path path :=
  fun _ member => Or.inl member

theorem within_trans (one : Within path part) (two : Within part other) : Within path other :=
  fun c member => (two c member).elim (one c) Or.inr

theorem within_splitExtended (path : List Char) :
    Within path (splitExtended path).1 ∧ Within path (splitExtended path).2 := by
  have whole := within_self path
  rw [splitExtended]
  split
  · have rest := within_of_sublist whole (List.drop_sublist 4 path)
    dsimp only
    split
    · exact ⟨within_of_sublist whole (List.take_sublist 7 path),
        within_backslash (within_of_sublist rest (List.drop_sublist 3 _))⟩
    · exact ⟨within_of_sublist whole (List.take_sublist 4 path), rest⟩
  · exact ⟨nofun, whole⟩

theorem within_splitShare {share relative : List Char} (found : splitShare? path = some (share, relative)) :
    Within path share ∧ Within path relative := by
  have body := within_of_sublist (within_self path) (List.drop_sublist 2 path)
  rw [splitShare?] at found
  dsimp only at found
  split at found
  · contradiction
  · split at found
    · contradiction
    · cases found
      have machine := within_of_sublist body (List.takeWhile_sublist (· != '\\'))
      have behind := within_of_sublist body
        (List.drop_sublist ((List.takeWhile (· != '\\') (path.drop 2)).length + 1) _)
      have directory := within_of_sublist behind (List.takeWhile_sublist (· != '\\'))
      constructor
      · exact within_append (within_append (within_backslash (within_backslash nofun)) machine)
          (within_backslash directory)
      · exact within_of_sublist behind (List.drop_sublist _ _)

theorem within_split (path : List Char) :
    Within path (split path).1 ∧ Within path (split path).2.1 ∧ Within path (split path).2.2 := by
  obtain ⟨start, rest⟩ := within_splitExtended path
  have slash : Within path ['\\'] := within_backslash nofun
  rw [split]
  generalize splitExtended path = extended at start rest
  obtain ⟨front, behind⟩ := extended
  dsimp only at start rest ⊢
  split
  · next share relative found =>
    obtain ⟨inShare, inRelative⟩ := within_splitShare found
    refine ⟨within_append start ?_, slash, within_trans rest inRelative⟩
    split
    · exact within_trans rest inShare
    · exact within_of_sublist (within_trans rest inShare) (List.drop_sublist 1 share)
  · have rooted : ∀ letter after : List Char, letter.Sublist behind → after.Sublist behind →
        ∀ parts, (if after.head? = some '\\' then
          (front ++ letter, ['\\'], after.dropWhile (· == '\\')) else (front ++ letter, [], after)) = parts →
        Within path parts.1 ∧ Within path parts.2.1 ∧ Within path parts.2.2 := by
      rintro letter after inLetter inAfter parts rfl
      have drive := within_append start (within_of_sublist rest inLetter)
      have back := within_of_sublist rest inAfter
      split
      · exact ⟨drive, slash, within_of_sublist back (List.dropWhile_sublist _)⟩
      · exact ⟨drive, nofun, back⟩
    have whole := List.Sublist.refl behind
    split
    · next c after _ =>
      split
      · have letter : [c, ':'].Sublist (c :: ':' :: after) :=
          ((List.nil_sublist after).cons_cons ':').cons_cons c
        exact rooted [c, ':'] after letter (((List.Sublist.refl after).cons ':').cons c) _ rfl
      · exact rooted [] _ (List.nil_sublist _) whole _ rfl
    · exact rooted [] _ (List.nil_sublist _) whole _ rfl

/-- The text of a path has no characters but those of what it was read from, and backslashes. -/
theorem within_text (path : List Char) : Within (withBackslashes path) (ofText path).text := by
  obtain ⟨drive, root, relative⟩ := within_split (withBackslashes path)
  apply within_append (within_append drive root)
  intro c member
  rcases Text.mem_intercalate member with same | ⟨piece, kept, inPiece⟩
  · exact Or.inr same
  · have within := Text.piece_within (List.mem_filter.mp kept).1
    exact relative c (within.sublist.subset inPiece)

theorem slash_not_mem_withBackslashes (path : List Char) : '/' ∉ withBackslashes path := by
  intro member
  obtain ⟨c, -, same⟩ := List.mem_map.mp member
  split at same
  · contradiction
  · next differs => exact differs same

theorem withBackslashes_eq (inside : '/' ∉ text) : withBackslashes text = text := by
  rw [withBackslashes]
  apply (List.map_congr_left _).trans (List.map_id text)
  intro c member
  rw [if_neg (ne_of_mem_of_not_mem member inside), id_def]

theorem slash_not_mem_text (path : List Char) : '/' ∉ (ofText path).text := by
  intro member
  rcases within_text path '/' member with inside | same
  · exact slash_not_mem_withBackslashes path inside
  · contradiction

/-- A path that is, but for case, a directory of the system or below one, or starts like the paths of
installed programs. -/
def InSystem (text : List Char) : Prop :=
  programDirectories.toList <+: text.map Char.toLower ∨
    ∃ directory ∈ systemDirectories, text.map Char.toLower = directory.toList ∨
      directory.toList ++ ['\\'] <+: text.map Char.toLower

instance (text : List Char) : Decidable (InSystem text) :=
  inferInstanceAs (Decidable (_ ∨ ∃ directory ∈ systemDirectories, _))

theorem isDenied_iff (inside : '/' ∉ text) : isDenied text = true ↔ InSystem text := by
  have plain : ∀ directory ∈ systemDirectories, ∀ c ∈ directory.toList ++ ['\\'], Text.Plain c := by
    decide
  rw [isDenied, withBackslashes_eq inside, Bool.or_eq_true, List.any_eq_true, InSystem,
    List.isPrefixOf_iff_prefix, Text.prefix_lower_iff (by decide) (by decide)]
  apply or_congr_right
  apply exists_congr
  intro directory
  apply and_congr_right
  intro member
  rw [Bool.or_eq_true, beq_iff_eq, List.isPrefixOf_iff_prefix]
  exact Text.lower_below_iff (plain directory member) (by decide) text

/-- The prefix of an extended-length path or of a device. -/
def Prefixed (text : List Char) : Prop :=
  "\\\\?\\".toList <+: text ∨ "\\\\.\\".toList <+: text

instance (text : List Char) : Decidable (Prefixed text) :=
  inferInstanceAs (Decidable (_ ∨ _))

/-- A path without its prefix. -/
def unprefixed (text : List Char) : List Char :=
  if Prefixed text then text.drop 4 else text

theorem not_inSystem_of_prefixed (isPrefixed : Prefixed text) : ¬ InSystem text := by
  have slash : ∃ rest, text = '\\' :: rest := by
    rcases isPrefixed with ⟨rest, split⟩ | ⟨rest, split⟩
    · exact ⟨_, split.symm⟩
    · exact ⟨_, split.symm⟩
  obtain ⟨rest, rfl⟩ := slash
  have named : ∀ directory ∈ systemDirectories, directory.toList.head? = some 'c' := by decide
  rw [InSystem, List.map_cons]
  rintro (⟨more, below⟩ | ⟨directory, member, same | ⟨more, below⟩⟩)
  · exact absurd (List.cons.inj below).1 (by decide)
  · have first := named directory member
    rw [← same, List.head?_cons] at first
    exact absurd first (by decide)
  · have first := named directory member
    obtain ⟨c, others, text⟩ : ∃ c others, directory.toList = c :: others :=
      List.exists_cons_of_ne_nil (by rintro nothing; rw [nothing] at first; contradiction)
    rw [text] at first below
    rw [Option.some.inj first] at below
    exact absurd (List.cons.inj below).1 (by decide)

theorem checkWindowsPath_eq_ok_iff {real : String} :
    checkWindowsPath path = .ok real ↔ Proper (ofText path).isAbsolute path ∧
      ¬ InSystem (ofText path).text ∧ real = String.ofList (ofText path).text := by
  rw [← isDenied_iff (slash_not_mem_text path), ← pathProblem?_eq_none_iff]
  delta checkWindowsPath
  dsimp only
  cases pathProblem? (ofText path).isAbsolute path with
  | some problem => simp
  | none =>
    cases isDenied (ofText path).text with
    | true => simp
    | false => simp [eq_comm]

/-- A path that is let through leads to no directory of the system, with or without its prefix. -/
def Kept (path : List Char) : Prop :=
  ∀ real, checkWindowsPath path = .ok real → ¬ InSystem (unprefixed real.toList)

/-- Whatever its spelling, a path is kept unless it is a proper one with a prefix, behind which it is in
a directory of the system. -/
theorem kept_iff (path : List Char) :
    Kept path ↔ ¬ (Proper (ofText path).isAbsolute path ∧ Prefixed (ofText path).text ∧
      InSystem ((ofText path).text.drop 4)) := by
  constructor
  · rintro kept ⟨proper, isPrefixed, inSystem⟩
    have accepted := checkWindowsPath_eq_ok_iff.mpr
      ⟨proper, not_inSystem_of_prefixed isPrefixed, rfl⟩
    apply kept _ accepted
    rwa [String.toList_ofList, unprefixed, if_pos isPrefixed]
  · intro good real accepted inSystem
    obtain ⟨proper, outside, rfl⟩ := checkWindowsPath_eq_ok_iff.mp accepted
    rw [String.toList_ofList, unprefixed] at inSystem
    split at inSystem
    · next isPrefixed => exact good ⟨proper, isPrefixed, inSystem⟩
    · exact outside inSystem

/-- An extended-length path and the path of a device lead where the same path without its prefix may
not. -/
theorem not_kept_prefixed :
    ¬ Kept "\\\\?\\C:\\Windows\\x.compact".toList ∧
      ¬ Kept "//./c:/WINDOWS/./x.compact".toList := by
  constructor
  · intro kept
    have accepted : checkWindowsPath "\\\\?\\C:\\Windows\\x.compact".toList =
        .ok "\\\\?\\C:\\Windows\\x.compact" := by
      rfl
    exact kept _ accepted (by decide)
  · intro kept
    have accepted : checkWindowsPath "//./c:/WINDOWS/./x.compact".toList =
        .ok "\\\\.\\c:\\WINDOWS\\x.compact" := by
      rfl
    exact kept _ accepted (by decide)

end ContractInspector.Guard.WindowsPath
