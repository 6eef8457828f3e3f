import ContractInspector.Proofs.Contract.Header
import ContractInspector.Proofs.Contract.Preamble

/-! Scanning is the inverse of writing. A line in front of a source adds to its scan what the line says
(`scan_line`), so from a contract that is written line by line exactly its version, its imports and its
declarations are read, each with its line (`scan_document`). -/
namespace ContractInspector.Contract

open Source (maskAll stripComments)

section Structures

variable (first second : Structure)

theorem Structure.append_eq : first ++ second =
    { circuits := first.circuits ++ second.circuits
      witnesses := first.witnesses ++ second.witnesses
      ledgerItems := first.ledgerItems ++ second.ledgerItems
      types := first.types ++ second.types
      structs := first.structs ++ second.structs
      enums := first.enums ++ second.enums } := rfl

theorem Structure.none_append : Structure.none ++ first = first := rfl

theorem Structure.append_behind (front : List Char) :
    (first ++ second).behind front = first.behind front ++ second.behind front := by
  simp only [append_eq, behind, List.map_append]

/-- A text of one line moves no declaration to another line. -/
theorem Structure.behind_of_inLine {front : List Char} (inLine : '\n' ∉ front) :
    first.behind front = first := by
  have none := List.count_eq_zero.mpr inLine
  have circuits : Circuit.behind front = id := funext fun circuit => by simp [Circuit.behind, none]
  have witnesses : Witness.behind front = id := funext fun witness => by simp [Witness.behind, none]
  have ledgerItems : LedgerItem.behind front = id := funext fun item => by simp [LedgerItem.behind, none]
  have types : TypeAlias.behind front = id := funext fun type => by simp [TypeAlias.behind, none]
  have structs : Struct.behind front = id := funext fun struct => by simp [Struct.behind, none]
  have enums : Enumeration.behind front = id := funext fun enum => by simp [Enumeration.behind, none]
  simp only [behind, circuits, witnesses, ledgerItems, types, structs, enums, List.map_id]

end Structures

section Lines

/-- What a line declares. -/
def Line.declarations : Line → Nat → Structure
  | .declared declaration, line => declaration.declared line
  | _, _ => Structure.none

/-- A line that starts with no keyword of a declaration declares nothing. -/
theorem declared_other {line : Line} (tail : List Char)
    (others : ∀ keyword ∈ ["circuit", "witness", "ledger", "type", "struct", "enum"], keyword ∉ line.heads) :
    (scan (line.text ++ tail)).declared = (scan tail).declared.behind line.text := by
  have behind := line.behind tail
  have adds {form : Text.Pattern} {keyword : String} (isSought : Sought form [keyword])
      (listed : keyword ∈ ["circuit", "witness", "ledger", "type", "struct", "enum"]) :=
    @Line.adds_other line tail form [keyword] isSought (by simpa using others keyword listed)
  have circuits := behind.circuits (adds sought_circuit (by decide))
  have witnesses := behind.witnesses (adds sought_witness (by decide))
  have ledgerItems := behind.ledgerItems (adds sought_ledgerItem (by decide))
  have types := behind.types (adds sought_typeAlias (by decide))
  have structs := behind.structs (adds sought_struct (by decide))
  have enums := behind.enums (adds sought_enumeration (by decide))
  simp only [scan, Structure.behind, circuits, witnesses, ledgerItems, types, structs, enums]
  simp [Function.comp_def]

theorem declared_line (line : Line) (tail : List Char) :
    (scan (line.text ++ tail)).declared = line.declarations 1 ++ (scan tail).declared.behind line.text := by
  cases line with
  | pragma pragma => exact declared_other tail (by simp [Line.heads])
  | imported target => cases target <;> exact declared_other tail (by simp [Line.heads])
  | declared declaration =>
    have declared : (scan (declaration.text ++ tail)).declared =
        declaration.declared 1 ++ (scan tail).declared.behind declaration.text := by
      simp only [scan, Structure.append_eq, Structure.behind, circuits_written, witnesses_written,
        ledgerItems_written, types_written, structs_written, enums_written]
    exact declared

/-- A line in front of a source adds to the scan what the line scans. -/
theorem scan_line (line : Line) (tail : List Char) :
    (scan (line.text ++ tail)).languageVersion = line.version?.or (scan tail).languageVersion ∧
      (scan (line.text ++ tail)).imports = line.targets ++ (scan tail).imports ∧
      (scan (line.text ++ tail)).declared = line.declarations 1 ++ (scan tail).declared := by
  have uncommented : stripComments (line.text ++ tail) = line.text ++ stripComments tail :=
    line.mask_text false tail
  refine ⟨?_, ?_, ?_⟩
  · change versionIn? (stripComments (line.text ++ tail)) = _
    rw [uncommented, versionIn?_line]
    rfl
  · change importsIn (stripComments (line.text ++ tail)) = _
    rw [uncommented, importsIn_line]
    rfl
  · rw [declared_line, Structure.behind_of_inLine _ line.newline_not_mem_text]

end Lines

section Documents

/-- Lines one below the other. A newline may end the last one, too. -/
def written (lines : List Line) (isClosed : Bool) : List Char :=
  ['\n'].intercalate (lines.map Line.text) ++ if isClosed then ['\n'] else []

/-- What some lines declare, the first of which has a number. -/
def declaredFrom : Nat → List Line → Structure
  | _, [] => Structure.none
  | n, line :: lines => line.declarations n ++ declaredFrom (n + 1) lines

/-- What a source says is what some lines say, the first of which has a number. -/
structure ScansTo (source : List Char) (first : Nat) (lines : List Line) : Prop where
  languageVersion : (scan source).languageVersion = lines.findSome? Line.version?
  imports : (scan source).imports = lines.flatMap Line.targets
  declared : (scan source).declared = declaredFrom first lines

theorem Line.declarations_behind (line : Line) (n : Nat) :
    (line.declarations n).behind ['\n'] = line.declarations (n + 1) := by
  cases line with
  | declared declaration =>
    obtain ⟨isExported, name, content⟩ := declaration
    cases content <;> rfl
  | _ => rfl

theorem declaredFrom_behind (n : Nat) (lines : List Line) :
    (declaredFrom n lines).behind ['\n'] = declaredFrom (n + 1) lines := by
  induction lines generalizing n with
  | nil => rfl
  | cons line lines ih =>
    rw [declaredFrom, Structure.append_behind, line.declarations_behind, ih]
    rfl

/-- Lines that declare nothing only move the declarations below them. -/
theorem declaredFrom_append {front : List Line} (quiet : ∀ line ∈ front, ∀ n, line.declarations n = Structure.none)
    (n : Nat) (lines : List Line) : declaredFrom n (front ++ lines) = declaredFrom (n + front.length) lines := by
  induction front generalizing n with
  | nil => rfl
  | cons line front ih =>
    obtain ⟨here, others⟩ := List.forall_mem_cons.mp quiet
    rw [List.cons_append, declaredFrom, here, Structure.none_append, ih others, List.length_cons, Nat.add_assoc,
      Nat.add_comm 1]

variable {source : List Char} {lines : List Line}

theorem scansTo_below {n : Nat} (scans : ScansTo source n lines) : ScansTo ('\n' :: source) (n + 1) lines := by
  have moved := scan_header (.blank (by decide) .nil : Source.Header ['\n']) source
  constructor
  case languageVersion => exact moved.languageVersion.trans scans.languageVersion
  case imports => exact moved.imports.trans scans.imports
  case declared =>
    rw [← declaredFrom_behind, ← scans.declared]
    exact moved.declared

theorem scansTo_line (line : Line) (scans : ScansTo source 2 lines) : ScansTo (line.text ++ source) 1 (line :: lines) := by
  obtain ⟨version, imports, declared⟩ := scan_line line source
  constructor
  case languageVersion =>
    rw [version, scans.languageVersion, List.findSome?_cons]
    cases line.version? <;> rfl
  case imports => rw [imports, scans.imports, List.flatMap_cons]
  case declared =>
    rw [declared, scans.declared]
    rfl

theorem scansTo_nil (n : Nat) : ScansTo [] n [] := by
  have languageVersion : (scan []).languageVersion = none := by decide +kernel
  have imports : (scan []).imports = [] := by decide +kernel
  have declared : (scan []).declared = Structure.none := by decide +kernel
  exact ⟨languageVersion, imports, declared⟩

/-- A scan of lines says what the lines say. -/
theorem scansTo_written (lines : List Line) (isClosed : Bool) : ScansTo (written lines isClosed) 1 lines := by
  have ending (n : Nat) : ScansTo (if isClosed then ['\n'] else []) (n + 1) [] := by
    cases isClosed with
    | false => exact scansTo_nil (n + 1)
    | true => exact scansTo_below (scansTo_nil n)
  induction lines with
  | nil => exact ending 0
  | cons line lines ih =>
    cases lines with
    | nil =>
      have text : written [line] isClosed = line.text ++ if isClosed then ['\n'] else [] := by
        simp [written]
      rw [text]
      exact scansTo_line line (ending 1)
    | cons next lines =>
      have text : written (line :: next :: lines) isClosed =
          line.text ++ '\n' :: written (next :: lines) isClosed := by
        simp [written]
      rw [text]
      exact scansTo_line line (scansTo_below ih)

/-- A contract: an optional pragma, imports, and declarations. -/
structure Document where
  pragma : Option Pragma
  imports : List Import
  declarations : List Declaration

namespace Document

def preamble (document : Document) : List Line :=
  document.pragma.toList.map .pragma ++ document.imports.map .imported

def text (document : Document) (isClosed : Bool) : List Char :=
  written (document.preamble ++ document.declarations.map .declared) isClosed

end Document

/-- Scanning a contract that is written line by line gives back its version, its imports and its
declarations, each declaration with its line. -/
theorem scan_document (document : Document) (isClosed : Bool) :
    (scan (document.text isClosed)).languageVersion =
        document.pragma.map (fun pragma => String.ofList pragma.version) ∧
      (scan (document.text isClosed)).imports = document.imports.map Import.target ∧
      (scan (document.text isClosed)).declared =
        declaredFrom (document.preamble.length + 1) (document.declarations.map .declared) := by
  have scans := scansTo_written (document.preamble ++ document.declarations.map .declared) isClosed
  refine ⟨?_, ?_, ?_⟩
  · have imported : (document.imports.map Line.imported).findSome? Line.version? = none := by
      simp [List.findSome?_eq_none_iff, Line.version?]
    have declared : (document.declarations.map Line.declared).findSome? Line.version? = none := by
      simp [List.findSome?_eq_none_iff, Line.version?]
    refine scans.languageVersion.trans ?_
    rw [Document.preamble, List.findSome?_append, List.findSome?_append, imported, declared, Option.or_none,
      Option.or_none]
    cases document.pragma <;> rfl
  · have pragmas : (document.pragma.toList.map Line.pragma).flatMap Line.targets = [] := by
      simp [Line.targets]
    have declared : (document.declarations.map Line.declared).flatMap Line.targets = [] := by
      simp [Line.targets]
    refine scans.imports.trans ?_
    rw [Document.preamble, List.flatMap_append, List.flatMap_append, pragmas, declared, List.nil_append,
      List.append_nil, List.flatMap_map]
    exact List.map_eq_flatMap.symm
  · have quiet : ∀ line ∈ document.preamble, ∀ n, line.declarations n = Structure.none := by
      intro line member n
      rcases List.mem_append.mp member with inPragma | inImports
      · obtain ⟨pragma, -, rfl⟩ := List.mem_map.mp inPragma
        rfl
      · obtain ⟨target, -, rfl⟩ := List.mem_map.mp inImports
        rfl
    refine scans.declared.trans ?_
    rw [declaredFrom_append quiet, Nat.add_comm]

end Documents

end ContractInspector.Contract
