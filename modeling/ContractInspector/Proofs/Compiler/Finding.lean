import ContractInspector.Machine.Computer
import ContractInspector.Proofs.Text.Lines
import Mathlib.Data.List.DropRight
import Mathlib.Data.List.Nodup
import Mathlib.Data.List.TakeWhile
import Mathlib.Data.Prod.Lex
import Mathlib.Order.Bounds.Basic
import Mathlib.Order.WellFounded

/-! Where compilers are looked for. A search goes over places, each an entry of the search path with an
extension, and each step keeps a listing of what has arisen so far (`Listing.step`). So in the end the
executable files among the paths that arise are listed, each once and in the order of the places at which
they arise first (`candidates_in_search_order`). -/
namespace ContractInspector.Machine

/-- A node that is a regular file and may be executed: a file with the permission for someone, or a program
of the system. -/
inductive Node.Runs : Node → Prop
  | file (content : List UInt8) {mode : Nat} (permitted : mode &&& 0o111 ≠ 0) : Runs (.file content mode)
  | program (name : String) : Runs (.program name)

theorem FileTree.isExecutableNode_iff (node : Node) : isExecutableNode node = true ↔ node.Runs := by
  constructor
  · intro runs
    cases node with
    | file content mode => exact .file content (by simpa [isExecutableNode] using runs)
    | program name => exact .program name
    | directory mode => contradiction
    | link target => contradiction
    | sink => contradiction
  · rintro (⟨content, permitted⟩ | name)
    · simpa [isExecutableNode] using permitted
    · rfl

/-- A path leads, over all links on its way, to a regular file that may be executed. No path with the null
character does. -/
structure FileTree.LeadsToExecutable (tree : FileTree) (path : String) : Prop where
  found : ∃ names node, tree.find [] path = .ok (names, node) ∧ node.Runs
  noNull : '\x00' ∉ path.toList

theorem FileTree.isExecutable_iff (tree : FileTree) (path : String) :
    tree.isExecutable [] path = true ↔ tree.LeadsToExecutable path := by
  have null_iff : path.contains '\x00' = true ↔ '\x00' ∈ path.toList := by simp
  rw [isExecutable]
  split
  · next names node found =>
    rw [Bool.and_eq_true, isExecutableNode_iff, Bool.not_eq_true', ← Bool.not_eq_true, null_iff]
    constructor
    · exact fun ⟨runs, noNull⟩ => ⟨⟨names, node, found, runs⟩, noNull⟩
    · rintro ⟨⟨names', node', same, runs⟩, noNull⟩
      rw [found] at same
      cases same
      exact ⟨runs, noNull⟩
  · next cause fails =>
    refine iff_of_false Bool.false_ne_true ?_
    rintro ⟨⟨names, node, found, -⟩, -⟩
    rw [fails] at found
    contradiction

end ContractInspector.Machine

namespace ContractInspector.Compiler

/-- The positions of an entry of the search path and of an extension. Of two places the one with the earlier
entry is the earlier one. -/
abbrev Place := Nat ×ₗ Nat

/-- The first place at which a path arises. -/
def FirstAt (arises : Place → String → Prop) (place : Place) (path : String) : Prop :=
  IsLeast {place | arises place path} place

/-- A list of the executable files among the paths that arise at places: each once, in the order of the
places at which they arise first. -/
structure Listing (arises : Place → String → Prop) (isExecutable : String → Bool)
    (found : List String) : Prop where
  nodup : found.Nodup
  mem_iff : ∀ path, path ∈ found ↔ isExecutable path = true ∧ ∃ place, arises place path
  ordered : found.Pairwise fun path other =>
    ∃ place later, FirstAt arises place path ∧ FirstAt arises later other ∧ place < later

/-- One step of a search: a path is put behind those that have been found, unless it is one of them or no
executable file. -/
def enlist (isExecutable : String → Bool) (found : List String) (path : String) : List String :=
  if !found.contains path && isExecutable path then found ++ [path] else found

theorem candidates_eq (search : SearchPath) (binary : String) (windows : Bool) :
    candidates search binary windows =
      (searched search binary windows).foldl (enlist search.isExecutable) [] := rfl

/-- A search that goes on lists what a search of the rest alone lists, without what was found before. -/
theorem foldl_enlist (isExecutable : String → Bool) (found paths : List String) :
    paths.foldl (enlist isExecutable) found =
      found ++ (paths.foldl (enlist isExecutable) []).filter (!found.contains ·) := by
  -- From the right: both searches are the same but for the last path, which is new to both, one or none.
  induction paths using List.reverseRecOn with
  | nil => simp
  | append_singleton paths path ih =>
    rw [List.foldl_append, List.foldl_append, ih, List.foldl_cons, List.foldl_nil, List.foldl_cons,
      List.foldl_nil]
    generalize paths.foldl (enlist isExecutable) [] = further
    by_cases before : path ∈ found <;> by_cases again : path ∈ further <;>
      cases runs : isExecutable path <;> simp [enlist, before, again, runs]

section Listing

variable {arises : Place → String → Prop} {isExecutable : String → Bool} {found other : List String}
  {place first : Place} {path new : String}

theorem exists_firstAt (here : arises place path) : ∃ first, FirstAt arises first path := by
  obtain ⟨first, among, least⟩ := wellFounded_lt.has_min {place | arises place path} ⟨place, here⟩
  exact ⟨first, among, fun later there => not_lt.mp (least later there)⟩

/-- What arises, with a path at one place more. -/
def also (arises : Place → String → Prop) (place : Place) (path : String) : Place → String → Prop :=
  fun there text => arises there text ∨ there = place ∧ text = path

theorem exists_also_iff : (∃ there, also arises place new there path) ↔
    (∃ there, arises there path) ∨ path = new := by
  unfold also
  rw [exists_or, exists_eq_left]

/-- What arises at a later place does not change where a path arises first. -/
theorem FirstAt.extend (firstAt : FirstAt arises first path) (later : first < place) (new : String) :
    FirstAt (also arises place new) first path := by
  refine ⟨Or.inl firstAt.1, ?_⟩
  rintro there (earlier | ⟨rfl, -⟩)
  · exact firstAt.2 earlier
  · exact later.le

theorem firstAt_new (unseen : ¬ ∃ there, arises there new) : FirstAt (also arises place new) place new := by
  refine ⟨Or.inr ⟨rfl, rfl⟩, ?_⟩
  rintro there (here | ⟨rfl, -⟩)
  · exact absurd ⟨there, here⟩ unseen
  · exact le_rfl

namespace Listing

theorem nil (isExecutable : String → Bool) : Listing (fun _ _ => False) isExecutable [] := by
  refine ⟨List.nodup_nil, fun path => ?_, List.Pairwise.nil⟩
  exact iff_of_false List.not_mem_nil fun ⟨_, _, never⟩ => never

/-- No two lists are listings of the same. -/
theorem unique (listing : Listing arises isExecutable found)
    (listing' : Listing arises isExecutable other) : found = other := by
  have same : found.Perm other := by
    rw [List.perm_ext_iff_of_nodup listing.nodup listing'.nodup]
    exact fun path => (listing.mem_iff path).trans (listing'.mem_iff path).symm
  refine List.Perm.eq_of_pairwise ?_ listing.ordered listing'.ordered same
  rintro path text - - ⟨place, later, first, second, before⟩ ⟨place', later', first', second', before'⟩
  rw [IsLeast.unique first second', IsLeast.unique second first'] at before
  exact absurd before' before.asymm

section Step

variable (listing : Listing arises isExecutable found)
  (behind : ∀ earlier text, arises earlier text → earlier < place)
include listing behind

theorem ordered_also (new : String) : found.Pairwise fun path other =>
    ∃ first later, FirstAt (also arises place new) first path ∧
      FirstAt (also arises place new) later other ∧ first < later := by
  refine listing.ordered.imp ?_
  rintro path other ⟨first, later, one, two, before⟩
  exact ⟨first, later, one.extend (behind _ _ one.1) new, two.extend (behind _ _ two.1) new, before⟩

/-- A path that is new is listed behind the others. -/
theorem append (unlisted : new ∉ found) (runs : isExecutable new = true) :
    Listing (also arises place new) isExecutable (found ++ [new]) := by
  have unseen : ¬ ∃ there, arises there new :=
    fun seen => unlisted ((listing.mem_iff new).mpr ⟨runs, seen⟩)
  refine ⟨?_, fun path => ?_, ?_⟩
  · refine List.nodup_append.mpr ⟨listing.nodup, List.nodup_singleton new, ?_⟩
    rintro path among _ last rfl
    exact unlisted (List.mem_singleton.mp last ▸ among)
  · rw [List.mem_append, List.mem_singleton, listing.mem_iff, exists_also_iff, and_or_left]
    exact or_congr_right ⟨fun same => ⟨same ▸ runs, same⟩, And.right⟩
  · refine List.pairwise_append.mpr ⟨listing.ordered_also behind new, List.pairwise_singleton _ new, ?_⟩
    intro path among _ last
    obtain rfl := List.mem_singleton.mp last
    obtain ⟨-, there, here⟩ := (listing.mem_iff path).mp among
    obtain ⟨first, firstAt⟩ := exists_firstAt here
    exact ⟨first, place, firstAt.extend (behind _ _ firstAt.1) _, firstAt_new unseen, behind _ _ firstAt.1⟩

/-- A path that is listed, or no executable file, changes nothing. -/
theorem pass (passed : isExecutable new = true → new ∈ found) :
    Listing (also arises place new) isExecutable found := by
  refine ⟨listing.nodup, fun path => ?_, listing.ordered_also behind new⟩
  rw [listing.mem_iff, exists_also_iff]
  refine and_congr_right fun runs => ⟨Or.inl, ?_⟩
  rintro (seen | rfl)
  · exact seen
  · exact ((listing.mem_iff path).mp (passed runs)).2

/-- One step keeps a listing. -/
theorem step (new : String) : Listing (also arises place new) isExecutable (enlist isExecutable found new) := by
  rw [enlist]
  split
  · next kept =>
    obtain ⟨unlisted, runs⟩ : new ∉ found ∧ isExecutable new = true := by simpa using kept
    exact listing.append behind unlisted runs
  · next passed =>
    refine listing.pass behind fun runs => Classical.byContradiction fun unlisted => passed ?_
    simp [unlisted, runs]

end Step

/-- A run over places in their order keeps a listing. -/
theorem run {items : List (String × Place)} (listing : Listing arises isExecutable found)
    (behind : ∀ earlier text, arises earlier text → ∀ item ∈ items, earlier < item.2)
    (sorted : items.Pairwise (·.2 < ·.2)) :
    Listing (fun place path => arises place path ∨ (path, place) ∈ items) isExecutable
      ((items.map Prod.fst).foldl (enlist isExecutable) found) := by
  induction items generalizing arises found with
  | nil => simpa using listing
  | cons item items ih =>
    obtain ⟨first, others⟩ := List.pairwise_cons.mp sorted
    have stepped := listing.step (fun earlier text here => behind earlier text here item List.mem_cons_self)
      item.1
    have later : ∀ earlier text, also arises item.2 item.1 earlier text → ∀ other ∈ items,
        earlier < other.2 := by
      rintro earlier text (here | ⟨rfl, -⟩) other among
      · exact behind earlier text here other (List.mem_cons_of_mem item among)
      · exact first other among
    -- What has arisen is carried along, so the invariant is that of all items up to here.
    have same : (fun place path => arises place path ∨ (path, place) ∈ item :: items) =
        fun place path => also arises item.2 item.1 place path ∨ (path, place) ∈ items := by
      funext place path
      rw [List.mem_cons, also, or_assoc, Prod.ext_iff, and_comm]
    rw [same]
    exact ih stepped later others

end Listing

end Listing

namespace SearchPath

/-- The entries of the search path, with the empty ones. -/
def entries (search : SearchPath) : List (List Char) :=
  Text.splitAt search.style.separator search.path.toList

/-- The extensions that Windows runs, as they are listed and with the empty ones. -/
def listed (search : SearchPath) : List (List Char) :=
  Text.splitAt ';' (search.extensions.getD defaultExtensions).toList

/-- The search path with more entries at its end. -/
def extended (search : SearchPath) (more : String) : SearchPath :=
  { search with path := search.path ++ String.singleton search.style.separator ++ more }

theorem entries_extended (search : SearchPath) (more : String) :
    (search.extended more).entries = search.entries ++ { search with path := more }.entries := by
  have text : (search.extended more).path.toList =
      search.path.toList ++ search.style.separator :: more.toList := by
    simp [extended]
  rw [entries, text, Text.splitAt_eq]
  simp only [extended, entries, Text.splitAt_eq, List.splitOn_append_cons_self]

end SearchPath

/-- The extensions that are tried for a binary, at their positions. Windows tries what it lists, in lower
case, behind no extension if the binary has one of its own as the host writes names; elsewhere there are no
extensions. -/
inductive ExtensionAt (search : SearchPath) (binary : String) : (windows : Bool) → Nat → String → Prop
  | plain : ExtensionAt search binary false 0 ""
  | own (has : search.style.hasExtension binary = true) : ExtensionAt search binary true 0 ""
  | listed {n : Nat} {text : List Char} (here : search.listed[n]? = some text) (nonempty : text ≠ []) :
      ExtensionAt search binary true (n + 1) (String.ofList (Text.lower text))

/-- A path arises at a place if it is that of the binary, with the extension there, in the directory that the
entry there names. An empty entry names none. -/
inductive ArisesAt (search : SearchPath) (binary : String) (windows : Bool) : Place → String → Prop
  | intro {i j : Nat} {directory : List Char} {extension : String}
      (entry : search.entries[i]? = some directory) (nonempty : directory ≠ [])
      (applies : ExtensionAt search binary windows j extension) :
      ArisesAt search binary windows (toLex (i, j))
        (search.style.join (String.ofList directory) (binary ++ extension))

/-- On Unix a binary with an extension has, in its last component, a dot behind something other than dots. -/
def HasExtension (binary : String) : Prop :=
  ∃ front c stem extension, binary.toList = front ++ c :: (stem ++ '.' :: extension) ∧ c ≠ '.' ∧
    '/' ∉ c :: (stem ++ '.' :: extension)

theorem dot_mem_dropWhile_iff {name : List Char} : '.' ∈ name.dropWhile (· == '.') ↔
    ∃ front c stem extension, name = front ++ c :: (stem ++ '.' :: extension) ∧ c ≠ '.' := by
  constructor
  · intro dot
    obtain ⟨c, rest, behind⟩ := List.exists_cons_of_ne_nil (List.ne_nil_of_mem dot)
    have ne_dot : c ≠ '.' := by
      have stops := List.head?_dropWhile_not (· == '.') name
      simpa [behind] using stops
    rw [behind] at dot
    obtain ⟨stem, extension, rfl⟩ := List.append_of_mem ((List.mem_cons.mp dot).resolve_left ne_dot.symm)
    refine ⟨name.takeWhile (· == '.'), c, stem, extension, ?_, ne_dot⟩
    rw [← behind, List.takeWhile_append_dropWhile]
  · rintro ⟨front, c, stem, extension, rfl, ne_dot⟩
    have stops : (c == '.') = false := by simpa using ne_dot
    rw [List.dropWhile_append]
    split <;> simp [stops]

theorem rtakeWhile_append {name : List Char} (inOne : '/' ∉ name) (front : List Char) :
    (front ++ name).rtakeWhile (· != '/') = front.rtakeWhile (· != '/') ++ name := by
  have passes : ∀ c ∈ name.reverse, (c != '/') = true := by
    intro c member
    rw [bne_iff_ne]
    rintro rfl
    exact inOne (List.mem_reverse.mp member)
  rw [List.rtakeWhile, List.reverse_append, List.takeWhile_append_of_pos passes, List.reverse_append,
    List.reverse_reverse, ← List.rtakeWhile]

theorem hasExtension_iff (binary : String) :
    Host.Unix.hasExtension binary = true ↔ HasExtension binary := by
  let name := binary.toList.rtakeWhile (· != '/')
  have has_iff : Host.Unix.hasExtension binary = true ↔ '.' ∈ name.dropWhile (· == '.') := List.contains_iff_mem
  rw [has_iff, dot_mem_dropWhile_iff]
  constructor
  · rintro ⟨front, c, stem, extension, split, ne_dot⟩
    refine ⟨binary.toList.rdropWhile (· != '/') ++ front, c, stem, extension, ?_, ne_dot, fun slash => ?_⟩
    · rw [List.append_assoc, ← split, List.rdropWhile_append_rtakeWhile]
    · have among : '/' ∈ name := split ▸ List.mem_append_right front slash
      exact absurd (List.mem_rtakeWhile_imp among) (by decide)
  · rintro ⟨front, c, stem, extension, text, ne_dot, inOne⟩
    refine ⟨front.rtakeWhile (· != '/'), c, stem, extension, ?_, ne_dot⟩
    rw [← rtakeWhile_append inOne, ← text]

/-- The texts that are not empty, with their positions. -/
def numbered (texts : List (List Char)) : List (List Char × Nat) :=
  texts.zipIdx.filter (!·.1.isEmpty)

theorem map_fst_numbered (texts : List (List Char)) :
    (numbered texts).map Prod.fst = texts.filter (!·.isEmpty) := by
  conv_rhs => rw [← List.zipIdx_map_fst 0 texts, List.filter_map]
  rfl

theorem mem_numbered_iff {texts : List (List Char)} {text : List Char} {n : Nat} :
    (text, n) ∈ numbered texts ↔ texts[n]? = some text ∧ text ≠ [] := by
  rw [numbered, List.mem_filter, List.mk_mem_zipIdx_iff_getElem?]
  simp

theorem pairwise_numbered (texts : List (List Char)) : (numbered texts).Pairwise (·.2 < ·.2) := by
  apply List.Pairwise.filter
  apply List.pairwise_map.mp
  rw [List.zipIdx_map_snd]
  exact List.pairwise_lt_range' 1

variable {search : SearchPath} {binary : String} {windows : Bool}

/-- The extensions that are tried, with their positions. -/
def numberedExtensions (search : SearchPath) (binary : String) (windows : Bool) : List (String × Nat) :=
  if windows then
    (if search.style.hasExtension binary then [("", 0)] else []) ++
      (numbered search.listed).map fun entry => (String.ofList (Text.lower entry.1), entry.2 + 1)
  else [("", 0)]

theorem map_fst_numberedExtensions (search : SearchPath) (binary : String) (windows : Bool) :
    (numberedExtensions search binary windows).map Prod.fst = extensionsFor search binary windows := by
  rw [numberedExtensions, extensionsFor, ← SearchPath.listed, ← map_fst_numbered]
  cases windows with
  | false => rfl
  | true =>
    dsimp only
    rw [if_pos rfl, if_pos rfl, List.map_append, List.map_map, List.map_map]
    cases search.style.hasExtension binary <;> rfl

theorem mem_numberedExtensions_iff {extension : String} {n : Nat} :
    (extension, n) ∈ numberedExtensions search binary windows ↔
      ExtensionAt search binary windows n extension := by
  rw [numberedExtensions]
  constructor
  · intro member
    cases windows with
    | false =>
      cases List.mem_singleton.mp member
      exact .plain
    | true =>
      rcases List.mem_append.mp member with own | listed
      · split at own
        · next has =>
          cases List.mem_singleton.mp own
          exact .own has
        · exact absurd own List.not_mem_nil
      · obtain ⟨⟨text, i⟩, among, same⟩ := List.mem_map.mp listed
        cases same
        obtain ⟨here, nonempty⟩ := mem_numbered_iff.mp among
        exact .listed here nonempty
  · intro applies
    cases applies with
    | plain => exact List.mem_singleton_self _
    | own has =>
      rw [if_pos rfl, if_pos has]
      exact List.mem_append_left _ List.mem_cons_self
    | listed here nonempty =>
      refine List.mem_append_right _ (List.mem_map.mpr ?_)
      exact ⟨_, mem_numbered_iff.mpr ⟨here, nonempty⟩, rfl⟩

theorem pairwise_numberedExtensions (search : SearchPath) (binary : String) (windows : Bool) :
    (numberedExtensions search binary windows).Pairwise (·.2 < ·.2) := by
  rw [numberedExtensions]
  split
  · refine List.pairwise_append.mpr ⟨?_, ?_, ?_⟩
    · split
      · exact List.pairwise_singleton _ _
      · exact List.Pairwise.nil
    · exact List.pairwise_map.mpr ((pairwise_numbered _).imp Nat.succ_lt_succ)
    · intro own first listed later
      obtain ⟨entry, -, rfl⟩ := List.mem_map.mp later
      split at first
      · cases List.mem_singleton.mp first
        exact Nat.succ_pos entry.2
      · exact absurd first List.not_mem_nil
  · exact List.pairwise_singleton _ _

/-- The paths to try, with the places at which they arise. -/
def placed (search : SearchPath) (binary : String) (windows : Bool) : List (String × Place) :=
  (numbered search.entries).flatMap fun entry =>
    (numberedExtensions search binary windows).map fun extension =>
      (search.style.join (String.ofList entry.1) (binary ++ extension.1), toLex (entry.2, extension.2))

theorem map_fst_placed (search : SearchPath) (binary : String) (windows : Bool) :
    (placed search binary windows).map Prod.fst = searched search binary windows := by
  rw [placed, searched, ← SearchPath.entries, ← map_fst_numbered, ← map_fst_numberedExtensions,
    List.map_flatMap, List.flatMap_map]
  simp only [List.map_map, Function.comp_def]

theorem mem_placed_iff {path : String} {place : Place} :
    (path, place) ∈ placed search binary windows ↔ ArisesAt search binary windows place path := by
  rw [placed, List.mem_flatMap]
  constructor
  · rintro ⟨⟨directory, i⟩, entry, member⟩
    obtain ⟨⟨extension, j⟩, applies, same⟩ := List.mem_map.mp member
    cases same
    obtain ⟨here, nonempty⟩ := mem_numbered_iff.mp entry
    exact .intro here nonempty (mem_numberedExtensions_iff.mp applies)
  · rintro ⟨here, nonempty, applies⟩
    refine ⟨_, mem_numbered_iff.mpr ⟨here, nonempty⟩, List.mem_map.mpr ?_⟩
    exact ⟨_, mem_numberedExtensions_iff.mpr applies, rfl⟩

theorem pairwise_placed (search : SearchPath) (binary : String) (windows : Bool) :
    (placed search binary windows).Pairwise (·.2 < ·.2) := by
  refine List.pairwise_flatMap.mpr ⟨fun entry _ => ?_, ?_⟩
  · refine List.pairwise_map.mpr ((pairwise_numberedExtensions search binary windows).imp ?_)
    exact fun before => Prod.Lex.toLex_lt_toLex.mpr (Or.inr ⟨rfl, before⟩)
  · refine (pairwise_numbered search.entries).imp ?_
    intro entry later before first among second amongLater
    obtain ⟨extension, -, rfl⟩ := List.mem_map.mp among
    obtain ⟨extension', -, rfl⟩ := List.mem_map.mp amongLater
    exact Prod.Lex.toLex_lt_toLex.mpr (Or.inl before)

theorem listing_candidates (search : SearchPath) (binary : String) (windows : Bool) :
    Listing (ArisesAt search binary windows) search.isExecutable (candidates search binary windows) := by
  have ran := (Listing.nil search.isExecutable).run (fun _ _ never => never.elim)
    (pairwise_placed search binary windows)
  simpa only [false_or, mem_placed_iff, map_fst_placed, ← candidates_eq] using ran

theorem searched_extended (search : SearchPath) (binary : String) (windows : Bool) (more : String) :
    searched (search.extended more) binary windows =
      searched search binary windows ++ searched { search with path := more } binary windows := by
  have entries := search.entries_extended more
  rw [searched, ← SearchPath.entries, entries, List.filter_append, List.flatMap_append]
  rfl

/-- The candidates are the only listing of the executable files at the paths that arise, and entries that are
added at the end of the search path only add candidates at the end, however the host writes paths. On a
computer, which writes them as Unix does, the executable files are those of its tree. -/
theorem candidates_in_search_order (search : SearchPath) (binary : String) (windows : Bool) :
    (∀ found, found = candidates search binary windows ↔
      Listing (ArisesAt search binary windows) search.isExecutable found) ∧
    (∀ more, candidates (search.extended more) binary windows = candidates search binary windows ++
      (candidates { search with path := more } binary windows).filter
        (!(candidates search binary windows).contains ·)) ∧
    ∀ computer : Machine.Computer,
      (computer.search.style.hasExtension binary = true ↔ HasExtension binary) ∧
      ∀ path, path ∈ candidates computer.search binary windows ↔
        computer.tree.LeadsToExecutable path ∧
          ∃ place, ArisesAt computer.search binary windows place path := by
  refine ⟨fun found => ⟨?_, fun listing => listing.unique (listing_candidates search binary windows)⟩,
    fun more => ?_, fun computer => ⟨hasExtension_iff binary, fun path => ?_⟩⟩
  · rintro rfl
    exact listing_candidates search binary windows
  · rw [candidates_eq, searched_extended, List.foldl_append, foldl_enlist]
    rfl
  · rw [(listing_candidates computer.search binary windows).mem_iff]
    exact and_congr_left fun _ => computer.tree.isExecutable_iff path

-- An entry may be empty, repeated or spelled in two ways.
example : candidates ⟨.unix, "/b:/a/::/a:/b", some ".EXE;;.exe;.cmd", (· ≠ "/b/compact.cmd")⟩ "compact"
    true = ["/b/compact.exe", "/a/compact.exe", "/a/compact.cmd"] := by
  rfl

-- Where entries stand between semicolons, a colon belongs to one.
example : candidates ⟨⟨';', fun directory name => directory ++ "\\" ++ name, fun _ => false⟩,
    "C:\\a;C:\\b", none, (·.endsWith ".exe")⟩ "compact" true = ["C:\\a\\compact.exe", "C:\\b\\compact.exe"] := by
  decide +kernel

end ContractInspector.Compiler
