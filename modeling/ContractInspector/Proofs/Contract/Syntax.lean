import ContractInspector.Proofs.Source.Plain
import ContractInspector.Proofs.Source.Splitting
import ContractInspector.Proofs.Text.Words

/-! Contracts of one-line declarations, and how they are written. Names are words that are no keywords,
so the text of a type or a parameter is an item of a list in which no keyword stands (`Piece`). -/
namespace ContractInspector.Contract

open Source (Carried Item Plain separated)
open Text (isBlank isWord words)

/-- The words that a contract is written with. -/
def keywords : List String :=
  ["export", "pure", "sealed", "circuit", "witness", "ledger", "type", "struct", "enum", "constructor",
    "pragma", "import", "include"]

/-- A word that is no keyword. -/
structure Ident where
  letters : List Char
  nonempty : letters ≠ []
  word : ∀ c ∈ letters, isWord c = true
  free : ∀ keyword ∈ keywords, letters ≠ keyword.toList

def Ident.name (ident : Ident) : String :=
  String.ofList ident.letters

inductive TypeExpr where
  | named (name : Ident)
  | applied (name : Ident) (arguments : List TypeExpr)
  | tuple (parts : List TypeExpr)

mutual

def TypeExpr.text : TypeExpr → List Char
  | .named name => name.letters
  | .applied name arguments => name.letters ++ '<' :: (separated (textsOf arguments) ++ ['>'])
  | .tuple parts => '[' :: (separated (textsOf parts) ++ [']'])

def textsOf : List TypeExpr → List (List Char)
  | [] => []
  | type :: types => type.text :: textsOf types

end

/-- A name with its type. -/
structure Param where
  name : Ident
  type : TypeExpr

def Param.text (param : Param) : List Char :=
  param.name.letters ++ ':' :: ' ' :: param.type.text

section Pieces

variable {text other : List Char} {c : Char}

/-- The characters that stand between the names of types and parameters. -/
def typeMarks : List Char :=
  [' ', ',', ':', '<', '>', '[', ']']

/-- A text of words and of the marks of types. -/
def Tame (text : List Char) : Prop :=
  ∀ c ∈ text, isWord c = true ∨ c ∈ typeMarks

/-- No keyword is among the words of a text. -/
def Free (text : List Char) : Prop :=
  ∀ keyword ∈ keywords, keyword.toList ∉ words text

structure Piece (text : List Char) : Prop where
  tame : Tame text
  free : Free text
  item : Item text

theorem Tame.not_mem (tame : Tame text) (noWord : isWord c = false) (noMark : c ∉ typeMarks) : c ∉ text := by
  intro member
  rcases tame c member with word | mark
  · rw [noWord] at word
    contradiction
  · exact noMark mark

theorem plain_of_not_mem (outside : ∀ mark ∈ ['"', '\'', '`', '/'], mark ∉ text) : Plain text := by
  intro c member
  refine ⟨Bool.eq_false_iff.mpr fun quote => ?_, ?_⟩
  · rcases Source.isQuote_iff.mp quote with rfl | rfl | rfl
    · exact outside _ (by decide) member
    · exact outside _ (by decide) member
    · exact outside _ (by decide) member
  · rintro rfl
    exact outside _ (by decide) member

theorem Tame.plain (tame : Tame text) : Plain text := by
  refine plain_of_not_mem fun mark listed => tame.not_mem ?_ ?_ <;> revert mark <;> decide

theorem tame_append (one : Tame text) (two : Tame other) : Tame (text ++ other) :=
  List.forall_mem_append.mpr ⟨one, two⟩

theorem tame_mark (mark : c ∈ typeMarks) (tame : Tame text) : Tame (c :: text) :=
  List.forall_mem_cons.mpr ⟨.inr mark, tame⟩

theorem free_append (noWord : isWord c = false) (one : Free text) (two : Free other) :
    Free (text ++ c :: other) := by
  intro keyword member within
  rw [Text.words_append_cons noWord] at within
  rcases List.mem_append.mp within with first | second
  · exact one keyword member first
  · exact two keyword member second

theorem free_behind (noWord : isWord c = false) (free : Free (c :: text)) : Free text := by
  intro keyword member within
  refine free keyword member ?_
  rw [← List.nil_append (c :: text), Text.words_append_cons noWord]
  exact List.mem_append_right _ within

theorem free_append_of_head (one : Free text) (two : Free other)
    (starts : other.head?.any isWord = false) : Free (text ++ other) := by
  cases other with
  | nil => rwa [List.append_nil]
  | cons c other => exact free_append starts one (free_behind starts two)

theorem free_nil : Free [] := by
  have none : words [] = [[]] := rfl
  rw [Free, none]
  decide

theorem free_mark (noWord : isWord c = false) (free : Free text) : Free (c :: text) :=
  free_append noWord free_nil free

theorem separated_cons_cons (first second : List Char) (others : List (List Char)) :
    separated (first :: second :: others) = first ++ ',' :: ' ' :: separated (second :: others) := by
  simp [separated]

theorem tame_separated {items : List (List Char)} (tame : ∀ item ∈ items, Tame item) :
    Tame (separated items) := by
  induction items with
  | nil => exact fun c member => nomatch member
  | cons item items ih =>
    obtain ⟨here, others⟩ := List.forall_mem_cons.mp tame
    cases items with
    | nil => simpa [separated] using here
    | cons next items =>
      rw [separated_cons_cons]
      exact tame_append here (tame_mark (by decide) (tame_mark (by decide) (ih others)))

theorem free_separated {items : List (List Char)} (free : ∀ item ∈ items, Free item) :
    Free (separated items) := by
  induction items with
  | nil => exact free_nil
  | cons item items ih =>
    obtain ⟨here, others⟩ := List.forall_mem_cons.mp free
    cases items with
    | nil => simpa [separated] using here
    | cons next items =>
      rw [separated_cons_cons]
      exact free_append (by decide) here (free_mark (by decide) (ih others))

theorem carried_separated {items : List (List Char)} (carried : ∀ item ∈ items, Carried false item) :
    Carried true (separated items) := by
  induction items with
  | nil => exact Source.carried_nil
  | cons item items ih =>
    obtain ⟨here, others⟩ := List.forall_mem_cons.mp carried
    cases items with
    | nil => simpa [separated] using here.inBrackets true
    | cons next items =>
      rw [separated_cons_cons]
      have comma : Carried true [','] := Source.carried_char (by decide) fun _ => rfl
      have space : Carried true [' '] := Source.carried_char (by decide) fun _ => rfl
      exact Source.carried_append (here.inBrackets true)
        (Source.carried_append comma (Source.carried_append space (ih others)))

end Pieces

section Names

variable (ident : Ident)

theorem Ident.carried {nested : Bool} : Carried nested ident.letters := by
  refine Source.carried_plain fun c member => ?_
  have word := ident.word c member
  refine ⟨fun mark => ?_, ?_⟩
  · have marks : ∀ mark ∈ Source.splitMarks, isWord mark = false := by decide
    rw [marks c mark] at word
    contradiction
  · rintro rfl
    contradiction

theorem Ident.tame : Tame ident.letters :=
  fun c member => .inl (ident.word c member)

theorem Ident.freeText : Free ident.letters := by
  intro keyword member within
  rw [Text.words_of_isWord ident.word] at within
  exact ident.free keyword member (List.mem_singleton.mp within).symm

theorem Ident.visible : ∀ c ∈ ident.letters, isBlank c = false :=
  fun c member => Text.isBlank_of_isWord (ident.word c member)

theorem Ident.first (rest : List Char) : (ident.letters ++ rest).head?.any isBlank = false := by
  obtain ⟨c, letters, same⟩ := List.exists_cons_of_ne_nil ident.nonempty
  rw [same]
  exact ident.visible c (same ▸ List.mem_cons_self)

theorem Ident.piece : Piece ident.letters where
  tame := ident.tame
  free := ident.freeText
  item :=
    { carried := ident.carried
      nonempty := ident.nonempty
      first := by simpa using ident.first []
      last := by
        rw [List.getLast?_eq_some_getLast ident.nonempty]
        exact ident.visible _ (List.getLast_mem ident.nonempty) }

end Names

section Types

theorem last_append_concat (front : List Char) {c : Char} (visible : isBlank c = false) :
    (front ++ [c]).getLast?.any isBlank = false := by
  rw [List.getLast?_concat]
  exact visible

mutual

theorem TypeExpr.piece : (type : TypeExpr) → Piece type.text
  | .named name => by
    rw [TypeExpr.text]
    exact name.piece
  | .applied name arguments => by
    have pieces := piece_textsOf arguments
    rw [TypeExpr.text]
    constructor
    case tame =>
      exact tame_append name.tame (tame_mark (by decide)
        (tame_append (tame_separated fun text member => (pieces text member).tame)
          (tame_mark (by decide) fun c member => nomatch member)))
    case free =>
      exact free_append (by decide) name.freeText
        (free_append (by decide) (free_separated fun text member => (pieces text member).free) free_nil)
    case item =>
      constructor
      case carried =>
        exact Source.carried_append name.carried (Source.carried_bracketed (by decide)
          (carried_separated fun text member => (pieces text member).item.carried))
      case nonempty => simp
      case first => exact name.first _
      case last =>
        have grouped : name.letters ++ '<' :: (separated (textsOf arguments) ++ ['>']) =
            (name.letters ++ '<' :: separated (textsOf arguments)) ++ ['>'] := by simp
        rw [grouped]
        exact last_append_concat _ (by decide)
  | .tuple parts => by
    have pieces := piece_textsOf parts
    rw [TypeExpr.text]
    constructor
    case tame =>
      exact tame_mark (by decide)
        (tame_append (tame_separated fun text member => (pieces text member).tame)
          (tame_mark (by decide) fun c member => nomatch member))
    case free =>
      exact free_mark (by decide)
        (free_append (by decide) (free_separated fun text member => (pieces text member).free) free_nil)
    case item =>
      constructor
      case carried =>
        exact Source.carried_bracketed (by decide)
          (carried_separated fun text member => (pieces text member).item.carried)
      case nonempty => simp
      case first => rfl
      case last =>
        rw [← List.cons_append]
        exact last_append_concat _ (by decide)

theorem piece_textsOf : (types : List TypeExpr) → ∀ text ∈ textsOf types, Piece text
  | [] => fun text member => by simp [textsOf] at member
  | type :: types => by
    rw [textsOf, List.forall_mem_cons]
    exact ⟨type.piece, piece_textsOf types⟩

end

theorem Param.piece (param : Param) : Piece param.text := by
  have type := param.type.piece
  rw [Param.text]
  constructor
  case tame => exact tame_append param.name.tame (tame_mark (by decide) (tame_mark (by decide) type.tame))
  case free =>
    exact free_append (by decide) param.name.freeText (free_mark (by decide) type.free)
  case item =>
    constructor
    case carried =>
      have colon : Carried false [':'] := Source.carried_char (by decide) (by decide)
      have space : Carried false [' '] := Source.carried_char (by decide) (by decide)
      exact Source.carried_append param.name.carried
        (Source.carried_append colon (Source.carried_append space type.item.carried))
    case nonempty => simp
    case first => exact param.name.first _
    case last =>
      rw [List.getLast?_append_of_ne_nil _ (by simp), List.getLast?_cons_cons,
        List.getLast?_cons_of_ne_nil type.item.nonempty]
      exact type.item.last

end Types

end ContractInspector.Contract
