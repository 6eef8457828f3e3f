import ContractInspector.Guard.UnixPath
import ContractInspector.Host.Reply
import ContractInspector.Proofs.Text.Lines
import ContractInspector.Proofs.Text.Spans

/-! The components of Unix paths. A path in its form has the components of the path it was made of, and
whether it is in a directory of the system depends on the first of them alone. -/
namespace ContractInspector.Guard.UnixPath

variable {path name : List Char} {names : List (List Char)}

/-- The name of an entry of a directory, or two dots. -/
structure IsName (name : List Char) : Prop where
  nonempty : name ≠ []
  inOne : '/' ∉ name
  ne_dot : name ≠ ['.']

/-- The name of an entry of a directory. -/
structure IsEntry (name : List Char) : Prop extends IsName name where
  ne_up : name ≠ ['.', '.']

theorem mem_components_iff :
    name ∈ components path ↔ name ∈ Text.splitAt '/' path ∧ name ≠ [] ∧ name ≠ ['.'] := by
  rw [components, List.mem_filter, Bool.and_eq_true, Bool.not_eq_true', List.isEmpty_eq_false_iff,
    bne_iff_ne]

theorem isName_of_mem (member : name ∈ components path) : IsName name := by
  obtain ⟨piece, nonempty, ne_dot⟩ := mem_components_iff.mp member
  exact ⟨nonempty, Text.not_mem_of_mem_splitAt piece, ne_dot⟩

theorem components_slash (path : List Char) : components ('/' :: path) = components path := by
  have split : Text.splitAt '/' ('/' :: path) = [] :: Text.splitAt '/' path := by
    rw [Text.splitAt_eq, Text.splitAt_eq]
    exact List.splitOn_append_cons_self_of_not_mem List.not_mem_nil path
  rw [components, split]
  rfl

theorem components_intercalate (named : ∀ name ∈ names, IsName name) :
    components (['/'].intercalate names) = names := by
  by_cases nothing : names = []
  · rw [nothing]
    rfl
  · rw [components, Text.splitAt_intercalate (fun name member => (named name member).inOne) nothing,
      List.filter_eq_self]
    intro name member
    have isName := named name member
    rw [Bool.and_eq_true, Bool.not_eq_true', List.isEmpty_eq_false_iff, bne_iff_ne]
    exact ⟨isName.nonempty, isName.ne_dot⟩

theorem root_cases (path : List Char) : root path = ['/'] ∨ root path = ['/', '/'] := by
  rw [root]
  split
  · exact Or.inr rfl
  · exact Or.inl rfl

theorem components_below (names : List Char) :
    components (root path ++ names) = components names := by
  rcases root_cases path with single | double
  · rw [single]
    exact components_slash names
  · rw [double]
    exact (components_slash _).trans (components_slash names)

theorem components_form (path : List Char) : components (form path) = components path := by
  rw [form, components_below]
  exact components_intercalate fun name member => isName_of_mem member

/-- What follows the root starts with no slash. -/
theorem head?_intercalate_ne (named : ∀ name ∈ names, IsName name) :
    (['/'].intercalate names).head? ≠ some '/' := by
  cases names with
  | nil => simp
  | cons first others =>
    have isName := named first List.mem_cons_self
    obtain ⟨c, rest, text⟩ := List.exists_cons_of_ne_nil isName.nonempty
    have differs : c ≠ '/' := by
      rintro rfl
      exact isName.inOne (text ▸ List.mem_cons_self)
    rw [text, List.intercalate_cons_cons_left]
    simpa using differs

theorem root_below (path : List Char) (named : ∀ name ∈ names, IsName name) :
    root (root path ++ ['/'].intercalate names) = root path := by
  have starts := head?_intercalate_ne named
  generalize ['/'].intercalate names = text at starts
  have stops : text.takeWhile (· == '/') = [] := by
    cases text with
    | nil => rfl
    | cons c rest => simpa [List.takeWhile_cons] using starts
  rcases root_cases path with single | double
  · rw [single, root]
    simp [stops]
  · rw [double, root]
    simp [stops]

/-- A path is in a directory of the system if its first component names one. -/
def InSystem (path : List Char) : Prop :=
  ∃ directory ∈ systemDirectories, (components path).head? = some directory.toList

instance (path : List Char) : Decidable (InSystem path) :=
  inferInstanceAs (Decidable (∃ directory ∈ systemDirectories, _))

theorem inSystem_form : InSystem (form path) ↔ InSystem path := by
  rw [InSystem, components_form, InSystem]

/-- Two leading slashes, and no more than two. -/
def Doubled (path : List Char) : Prop :=
  root path = ['/', '/']

instance (path : List Char) : Decidable (Doubled path) :=
  inferInstanceAs (Decidable (_ = _))

/-- A name ends at the first slash, or where the text ends. -/
theorem takeWhile_name (inOne : '/' ∉ name) {rest : List Char}
    (ends : ∀ c, rest.head? = some c → c = '/') : (name ++ rest).takeWhile (· != '/') = name :=
  (Text.spans_bne_iff.mpr ⟨inOne, ends⟩).takeWhile

theorem takeWhile_name_self (inOne : '/' ∉ name) : name.takeWhile (· != '/') = name := by
  have whole := @takeWhile_name _ inOne [] nofun
  rwa [List.append_nil] at whole

theorem takeWhile_intercalate {first : List Char} (inOne : '/' ∉ first) (others : List (List Char)) :
    (['/'].intercalate (first :: others)).takeWhile (· != '/') = first := by
  cases others with
  | nil =>
    rw [List.intercalate_singleton]
    exact takeWhile_name_self inOne
  | cons second others =>
    rw [List.intercalate_cons_cons, List.append_assoc]
    exact takeWhile_name inOne (by simp)

/-- The text of a path below one slash is that of a directory, or below it, if its first component is
the name of the directory. -/
theorem head?_eq_iff (named : ∀ name ∈ names, IsName name) {directory : List Char}
    (inOne : '/' ∉ directory) (nonempty : directory ≠ []) :
    names.head? = some directory ↔ ['/'].intercalate names = directory ∨
      directory ++ ['/'] <+: ['/'].intercalate names := by
  cases names with
  | nil => simpa using nonempty.symm
  | cons first others =>
    have starts := takeWhile_intercalate (named first List.mem_cons_self).inOne others
    rw [List.head?_cons, Option.some.injEq]
    constructor
    · rintro rfl
      cases others with
      | nil => exact Or.inl List.intercalate_singleton
      | cons second others =>
        apply Or.inr
        rw [List.intercalate_cons_cons]
        exact List.prefix_append _ _
    · rintro (same | ⟨rest, below⟩)
      · rw [← starts, same]
        exact takeWhile_name_self inOne
      · rw [← starts, ← below, List.append_assoc]
        exact takeWhile_name inOne (by simp)

theorem systemDirectory_isName {directory : String} (member : directory ∈ systemDirectories) :
    '/' ∉ directory.toList ∧ directory.toList ≠ [] := by
  revert directory
  decide

/-- Behind two slashes nothing is denied. Behind one, the first component decides. -/
theorem isDenied_form_iff : isDenied (form path) = true ↔ ¬ Doubled path ∧ InSystem path := by
  have named : ∀ name ∈ components path, IsName name := fun _ member => isName_of_mem member
  have starts := head?_intercalate_ne named
  rw [isDenied, List.any_eq_true]
  rcases root_cases path with single | double
  · have notDoubled : ¬ Doubled path := by
      rw [Doubled, single]
      decide
    rw [form, single, and_iff_right notDoubled]
    constructor
    · rintro ⟨directory, member, denied⟩
      obtain ⟨inOne, nonempty⟩ := systemDirectory_isName member
      rw [Bool.or_eq_true, beq_iff_eq, List.isPrefixOf_iff_prefix] at denied
      refine ⟨directory, member, (head?_eq_iff named inOne nonempty).mpr ?_⟩
      simpa using denied
    · rintro ⟨directory, member, first⟩
      obtain ⟨inOne, nonempty⟩ := systemDirectory_isName member
      refine ⟨directory, member, ?_⟩
      rw [Bool.or_eq_true, beq_iff_eq, List.isPrefixOf_iff_prefix]
      simpa using (head?_eq_iff named inOne nonempty).mp first
  · rw [form, double]
    constructor
    · rintro ⟨directory, member, denied⟩
      obtain ⟨inOne, nonempty⟩ := systemDirectory_isName member
      obtain ⟨c, rest, text⟩ := List.exists_cons_of_ne_nil nonempty
      rw [Bool.or_eq_true, beq_iff_eq, List.isPrefixOf_iff_prefix, text] at denied
      have same : c = '/' := by
        rcases denied with same | below
        · exact (List.cons.inj (List.cons.inj same).2).1.symm
        · exact (List.cons_prefix_cons.mp (List.cons_prefix_cons.mp below).2).1
      exact absurd (text ▸ same ▸ List.mem_cons_self) inOne
    · rintro ⟨single, -⟩
      exact absurd double single

/-- An absolute path in its form, without two dots as a component. -/
structure Resolved (path : List Char) : Prop where
  absolute : isAbsolute path = true
  formed : form path = path
  ne_up : ['.', '.'] ∉ components path

theorem resolved_below (path : List Char) (entries : ∀ name ∈ names, IsEntry name) :
    Resolved (root path ++ ['/'].intercalate names) where
  absolute := by
    rcases root_cases path with single | double
    · rw [single]
      rfl
    · rw [double]
      rfl
  formed := by
    have named : ∀ name ∈ names, IsName name := fun name member => (entries name member).toIsName
    rw [form, root_below path named, components_below, components_intercalate named]
  ne_up := by
    rw [components_below, components_intercalate fun name member => (entries name member).toIsName]
    exact fun member => (entries _ member).ne_up rfl

/-- A file system that gives resolved paths, and whose root is no file. -/
structure Faithful (files : Host.FileView) : Prop where
  resolved : ∀ path real, files.realPath path = .ok real → Resolved real.shown.toList
  root : ∀ path bytes, files.read path = .done bytes → components path.shown.toList ≠ []

theorem Resolved.isDenied_iff (resolved : Resolved path) :
    isDenied path = true ↔ ¬ Doubled path ∧ InSystem path := by
  have denied : isDenied (form path) = true ↔ ¬ Doubled path ∧ InSystem path := isDenied_form_iff
  rwa [resolved.formed] at denied

theorem basename_append (inOne : '/' ∉ name) (front : List Char) :
    basename (front ++ '/' :: name) = name := by
  have reversed : '/' ∉ name.reverse := mt List.mem_reverse.mp inOne
  rw [basename, List.reverse_append, List.reverse_cons, List.append_assoc,
    takeWhile_name reversed (by simp), List.reverse_reverse]

/-- The last component of a path stands behind a slash. -/
theorem form_eq_append {init : List (List Char)} (split : components path = init ++ [name]) :
    ∃ front, form path = front ++ '/' :: name := by
  have rooted : ∃ front, root path = front ++ ['/'] := by
    rcases root_cases path with single | double
    · exact ⟨[], single⟩
    · exact ⟨['/'], double⟩
  obtain ⟨front, rooted⟩ := rooted
  rw [form, split, rooted]
  by_cases nothing : init = []
  · refine ⟨front, ?_⟩
    simp [nothing]
  · refine ⟨front ++ '/' :: ['/'].intercalate init, ?_⟩
    rw [Text.intercalate_append nothing (List.cons_ne_nil name []), List.intercalate_singleton]
    simp

/-- The last component of a resolved path is its basename. -/
theorem Resolved.exists_basename (resolved : Resolved path) (nonempty : components path ≠ []) :
    IsEntry (basename path) ∧ ∃ front, path = front ++ '/' :: basename path := by
  obtain ⟨init, name, split⟩ := (List.eq_nil_or_concat (components path)).resolve_left nonempty
  rw [List.concat_eq_append] at split
  have member : name ∈ components path := split ▸ List.mem_append_right init (List.mem_singleton_self name)
  have isName := isName_of_mem member
  obtain ⟨front, text⟩ := form_eq_append split
  rw [resolved.formed] at text
  have base : basename path = name := by rw [text, basename_append isName.inOne]
  rw [base]
  exact ⟨⟨isName, fun up => resolved.ne_up (up ▸ member)⟩, front, text⟩

end ContractInspector.Guard.UnixPath
