import ContractInspector.Machine.Computer
import ContractInspector.Proofs.Guard.UnixPath
import ContractInspector.Proofs.Text.Wide

/-! What a tree of files resolves a path to. If nothing comes in between it is an absolute path in its form,
also where a loop of links ends the search. -/
namespace ContractInspector.Machine

open Guard.UnixPath (IsEntry)
open Text (Point Wide)
open Text.Point (map_shown_eq_iff mem_map_shown_iff)

namespace FileTree

/-- All names on a way are those of entries. -/
def Straight (trail : Trail) : Prop :=
  ∀ name ∈ trail, IsEntry (name.map Point.shown)

/-- Where links are known to lead, the ways are straight. -/
def StraightLinks (known : Resolved) : Prop :=
  ∀ link ∈ known, ∀ trail, link.2 = some trail → Straight trail

/-- The outcome of a search, if it comes to an end: a straight way. -/
def Settled : Except Unresolved (Trail × Resolved) → Prop
  | .ok (trail, known) => Straight trail ∧ StraightLinks known
  | .error _ => True

variable {tree : FileTree} {here : Trail} {known : Resolved}

theorem straight_cons {name : Written} (entry : IsEntry (name.map Point.shown)) (straight : Straight here) :
    Straight (name :: here) := by
  intro other member
  rcases List.mem_cons.mp member with rfl | member
  · exact entry
  · exact straight other member

/-- A link is followed from the root or from where it is. -/
theorem straight_start {target : String} (straight : Straight here) :
    Straight (if isAbsolute target then [] else here) := by
  split
  · exact nofun
  · exact straight

theorem straight_drop (straight : Straight here) (n : Nat) : Straight (here.drop n) :=
  fun name member => straight name (List.mem_of_mem_drop member)

theorem straightLinks_cons {link : Trail × Option Trail} (straightKnown : StraightLinks known)
    (straight : ∀ trail, link.2 = some trail → Straight trail) : StraightLinks (link :: known) := by
  intro other member trail leads
  rcases List.mem_cons.mp member with rfl | member
  · exact straight trail leads
  · exact straightKnown other member trail leads

theorem straight_of_lookup {there : Trail} {trail : Trail} (straight : StraightLinks known)
    (found : known.lookup there = some (some trail)) : Straight trail := by
  obtain ⟨front, back, split, -⟩ := List.lookup_eq_some_iff.mp found
  exact straight _ (split ▸ List.mem_append_right front List.mem_cons_self) trail rfl

/-- A name without slashes names an entry, if it is neither empty nor made of dots. -/
theorem isEntry_of_written {name : Written} (inOne : slash ∉ name)
    (named : ¬ (name.isEmpty || name = [dot]) = true) (ne_up : name ≠ [dot, dot]) :
    IsEntry (name.map Point.shown) := by
  rw [Bool.or_eq_true, not_or, List.isEmpty_iff, decide_eq_true_eq] at named
  refine ⟨⟨mt List.map_eq_nil_iff.mp named.1, ?_, ?_⟩, ?_⟩
  · rwa [mem_map_shown_iff (by decide)]
  · rw [ne_eq, map_shown_eq_iff (by decide)]
    exact named.2
  · rw [ne_eq, map_shown_eq_iff (by decide)]
    exact ne_up

theorem slash_not_mem_takeWhile (path : Written) : slash ∉ path.takeWhile (· ≠ slash) := fun member =>
  of_decide_eq_true (List.all_eq_true.mp List.all_takeWhile slash member) rfl

/-- Each step of a search keeps its way and its known links straight, and so does the whole search. -/
theorem settled_resolveFrom (height fuel : Nat) (path : Written) (straight : Straight here)
    (straightKnown : StraightLinks known) : Settled (tree.resolveFrom height fuel here path known) := by
  fun_induction resolveFrom tree height fuel here path known with
  | case1 => trivial
  | case2 => exact ⟨straight, straightKnown⟩
  | case3 fuel here c path known name behind passed ih => exact ih straight straightKnown
  | case4 fuel here c path known name behind named up ih => exact ih (straight_drop straight 1) straightKnown
  | case5 => trivial
  | case6 fuel here c path known name behind named notUp there _ target link place leads ih =>
    exact ih (straight_of_lookup straightKnown leads) straightKnown
  | case7 => trivial
  | case8 => trivial
  | case9 fuel here c path known name behind named notUp there _ target link new start text place after ends
      ihTarget ih =>
    have inner := ihTarget (straight_start straight) (straightLinks_cons straightKnown nofun)
    rw [ends] at inner
    apply ih inner.1
    apply straightLinks_cons inner.2
    rintro trail ⟨⟩
    exact inner.1
  | case10 fuel here c path known name behind named notUp there _ noLink ih =>
    have entry := isEntry_of_written (slash_not_mem_takeWhile _) named notUp
    exact ih (straight_cons entry straight) straightKnown

theorem mem_walked {α : Type} {stays goesUp : α → Bool} {names : List α} {name : α}
    (member : name ∈ walked stays goesUp names) :
    name ∈ names ∧ ¬ stays name = true ∧ ¬ goesUp name = true := by
  have step : ∀ rest done : List α, name ∈ rest.foldl (fun done name =>
      if stays name then done else if goesUp name then done.dropLast else done ++ [name]) done →
      name ∈ done ∨ name ∈ rest ∧ ¬ stays name = true ∧ ¬ goesUp name = true := by
    intro rest
    induction rest with
    | nil => exact fun done member => Or.inl member
    | cons next rest ih =>
      intro done member
      rw [List.foldl_cons] at member
      rcases ih _ member with early | ⟨late, named⟩
      · split at early
        · exact Or.inl early
        · next moves =>
          split at early
          · exact Or.inl ((List.dropLast_sublist done).subset early)
          · next notUp =>
            rcases List.mem_append.mp early with early | same
            · exact Or.inl early
            · rw [List.mem_singleton.mp same]
              exact Or.inr ⟨List.mem_cons_self, moves, notUp⟩
      · exact Or.inr ⟨List.mem_cons_of_mem next late, named⟩
  exact (step names [] member).resolve_left List.not_mem_nil

theorem straight_normalized (path : Written) : Straight (normalized (path.splitOn slash)) := by
  intro name member
  obtain ⟨piece, named, notUp⟩ := mem_walked member
  exact isEntry_of_written (Text.not_mem_of_mem_splitOn piece) named (mt decide_eq_true notUp)

/-- Entries below a root make a resolved path. -/
theorem resolved_entries (path : List Char) {names : List Written} (entries : Straight names) :
    Guard.UnixPath.Resolved
      (Guard.UnixPath.root path ++ ['/'].intercalate (names.map (List.map Point.shown))) := by
  apply Guard.UnixPath.resolved_below
  intro text member
  obtain ⟨name, entry, rfl⟩ := List.mem_map.mp member
  exact entries name entry

theorem resolved_realPath (tree : FileTree) (path real : Wide) (ends : tree.realPath [] path = .ok real) :
    Guard.UnixPath.Resolved real.shown.toList := by
  rw [realPath] at ends
  split at ends
  · next trail known found =>
    cases ends
    have settled : Settled (.ok (trail, known)) := by
      rw [← found]
      exact settled_resolveFrom _ _ _ (by split <;> nofun) nofun
    rw [Wide.toList_shown, Wide.toList_ofList, writtenPath, List.map_cons, Text.map_shown_intercalate]
    exact resolved_entries [] fun name member => settled.1 name (List.mem_reverse.mp member)
  · next left _ =>
    cases ends
    rw [Wide.toList_shown, Wide.toList_ofList, normalForm, List.map_append, Text.map_shown_intercalate,
      List.map_map]
    have entries := resolved_entries (left.map Point.shown) (straight_normalized left)
    simpa [Function.comp_def] using entries
  · contradiction

theorem mem_namesOf {path name : String} (member : name ∈ namesOf path) (ne_dot : name ≠ ".") :
    name.toList ≠ [] ∧ name.toList ∈ Text.splitAt '/' path.toList := by
  have split : name ∈ ((Text.splitAt '/' path.toList).filter (!·.isEmpty)).map String.ofList := by
    rw [namesOf] at member
    split at member
    · rcases List.mem_append.mp member with member | dot
      · exact member
      · exact absurd (List.mem_singleton.mp dot) ne_dot
    · exact member
  obtain ⟨text, kept, same⟩ := List.mem_map.mp split
  obtain ⟨piece, nonempty⟩ := List.mem_filter.mp kept
  rw [← same, String.toList_ofList]
  rw [Bool.not_eq_true', List.isEmpty_eq_false_iff] at nonempty
  exact ⟨nonempty, piece⟩

/-- A path of one name leads to what the root has under this name, unless that is a link. -/
theorem place_entry (path name : String) (absolute : isAbsolute path = true) (named : namesOf path = [name])
    (short : path.utf8ByteSize ≤ maxPath ∧ name.utf8ByteSize ≤ maxName) (entry : name ≠ "." ∧ name ≠ "..")
    (direct : ∀ target, tree.node? [name] ≠ some (.link target)) :
    tree.place [] path true = .ok ⟨[name], tree.node? [name]⟩ := by
  have nonempty : path.isEmpty = false := by
    rw [Bool.eq_false_iff, ne_eq, String.isEmpty_iff]
    rintro rfl
    exact absurd absolute (by decide)
  rw [place, nonempty, if_neg (by decide), if_neg (Nat.not_lt_of_le short.1), if_pos absolute, named, follow]
  change (if name = "." then _ else _) = _
  rw [if_neg entry.1, if_neg entry.2, if_neg (Nat.not_lt_of_le short.2), List.nil_append]
  cases here : tree.node? [name] with
  | none => simp only [here, List.isEmpty_nil, if_true]
  | some node =>
    cases node with
    | link target => exact absurd here (direct target)
    | _ => simp only [follow, here]

theorem follow_dots (followLast : Bool) (links : Nat) {names : Names}
    (dots : ∀ name ∈ names, name = ".") :
    tree.follow followLast links [] names = .ok ⟨[], some (.directory 0o755)⟩ := by
  induction names with
  | nil =>
    rw [follow]
    rfl
  | cons name names ih =>
    have dot := dots name List.mem_cons_self
    rw [follow, dot]
    exact ih fun name member => dots name (List.mem_cons_of_mem _ member)

/-- A path without components leads to the root, or nowhere. -/
theorem find_root {path : String} (nothing : Guard.UnixPath.components path.toList = []) :
    (∃ cause, tree.find [] path = .error cause) ∨
      tree.find [] path = .ok ([], .directory 0o755) := by
  have dots : ∀ name ∈ namesOf path, name = "." := by
    intro name member
    apply Decidable.byContradiction
    intro ne_dot
    obtain ⟨nonempty, piece⟩ := mem_namesOf member ne_dot
    have kept := Guard.UnixPath.mem_components_iff.mpr
      ⟨piece, nonempty, fun same => ne_dot (String.toList_inj.mp same)⟩
    rw [nothing] at kept
    exact List.not_mem_nil kept
  rw [find, place, ite_self, follow_dots true maxLinks dots]
  split
  · next cause _ => exact Or.inl ⟨cause, rfl⟩
  · next names node found =>
    split at found
    · contradiction
    · split at found
      · contradiction
      · cases found
        exact Or.inr rfl
  · next names found =>
    split at found
    · contradiction
    · split at found
      · contradiction
      · cases found

end FileTree

/-- A path that shows no components is made of slashes and dots. -/
theorem eq_plain_of_components {path : Wide} (nothing : Guard.UnixPath.components path.shown.toList = []) :
    ∃ text, path = .plain text := by
  cases path with
  | plain text => exact ⟨text, rfl⟩
  | halved front half back =>
    have shows : '\ufffd' ∈ (Wide.halved front half back).shown.toList := by
      rw [Wide.toList_shown]
      exact List.mem_map.mpr ⟨.lone half, List.mem_append_right _ List.mem_cons_self, rfl⟩
    obtain ⟨name, piece, member⟩ := Text.exists_mem_splitAt shows (show '\ufffd' ≠ '/' by decide)
    have ne_dot : name ≠ ['.'] := by
      rintro rfl
      exact absurd (List.mem_singleton.mp member) (by decide)
    have kept := Guard.UnixPath.mem_components_iff.mpr ⟨piece, List.ne_nil_of_mem member, ne_dot⟩
    rw [nothing] at kept
    exact absurd kept List.not_mem_nil

theorem eq_of_handed_plain {text name : String} (given : handed text = .ok name) : name = text := by
  rw [handed, handedAt] at given
  split at given
  · contradiction
  · split at given
    · contradiction
    · exact (Except.ok.inj given).symm

section Reading

variable {computer : Computer} {path : String} (given : handed path = .ok path)
include given

theorem Computer.read_of_ok {content : List UInt8}
    (readable : computer.tree.read [] path = .ok content) : computer.files.read path = .done content := by
  change computer.read path = _
  rw [read, given]
  dsimp only
  rw [readable]

theorem Computer.read_of_error {cause : Host.Cause} (unreadable : computer.tree.read [] path = .error cause) :
    computer.files.read path = .failed (cause.fault path) := by
  change computer.read path = _
  rw [read, given]
  dsimp only
  rw [unreadable]

end Reading

/-- The files of a computer give resolved paths, and its root is a directory. -/
theorem Computer.faithful_files (computer : Computer) :
    Guard.UnixPath.Faithful computer.files where
  resolved := computer.tree.resolved_realPath
  root path bytes readable nothing := by
    obtain ⟨text, rfl⟩ := eq_plain_of_components nothing
    rw [Wide.shown_plain] at nothing
    have fails : ∃ cause, computer.tree.read [] text = .error cause := by
      rcases FileTree.find_root nothing with ⟨cause, found⟩ | found
      · exact ⟨cause, by rw [FileTree.read, found]⟩
      · exact ⟨.isDirectory, by rw [FileTree.read, found]⟩
    obtain ⟨cause, fails⟩ := fails
    change computer.read text = _ at readable
    rw [read] at readable
    split at readable
    · contradiction
    · next name given =>
      rw [eq_of_handed_plain given, fails] at readable
      contradiction

end ContractInspector.Machine
