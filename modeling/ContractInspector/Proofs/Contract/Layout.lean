import ContractInspector.Proofs.Contract.Lines
import ContractInspector.Proofs.Source.Comments

/-! Types and parameters in any layout: their tokens, with blanks between them as anybody likes. However it
is laid out, a type shows its tokens (`visible_spaced`), and no keyword stands in it (`TypeExpr.loose`). -/
namespace ContractInspector.Contract

open Source (Plain separated visible)
open Text (isBlank isWord)

/-- Blanks and nothing else. -/
def Blank (text : List Char) : Prop :=
  ∀ c ∈ text, isBlank c = true

instance (text : List Char) : Decidable (Blank text) :=
  inferInstanceAs (Decidable (∀ c ∈ text, isBlank c = true))

/-- Tokens in a text, each with the blanks behind it. -/
inductive Spaced : List (List Char) → List Char → Prop where
  | nil : Spaced [] []
  | cons {token blanks rest : List Char} {tokens : List (List Char)} : Blank blanks →
      Spaced tokens rest → Spaced (token :: tokens) (token ++ (blanks ++ rest))

/-- The tokens of a list whose items commas separate. -/
def listed : List (List (List Char)) → List (List Char)
  | [] => []
  | [tokens] => tokens
  | tokens :: next :: others => tokens ++ [','] :: listed (next :: others)

mutual

/-- The tokens of a type. -/
def TypeExpr.tokens : TypeExpr → List (List Char)
  | .named name => [name.letters]
  | .applied name arguments => name.letters :: ['<'] :: (listed (tokensOf arguments) ++ [['>']])
  | .tuple parts => ['['] :: (listed (tokensOf parts) ++ [[']']])

def tokensOf : List TypeExpr → List (List (List Char))
  | [] => []
  | type :: types => type.tokens :: tokensOf types

end

def Param.tokens (param : Param) : List (List Char) :=
  param.name.letters :: [':'] :: param.type.tokens

variable {text front back blanks : List Char} {tokens others : List (List Char)} {c : Char}

namespace Spaced

theorem cons_iff {token : List Char} : Spaced (token :: tokens) text ↔
    ∃ blanks rest, text = token ++ (blanks ++ rest) ∧ Blank blanks ∧ Spaced tokens rest := by
  constructor
  · rintro ⟨⟩
    exact ⟨_, _, rfl, ‹_›, ‹_›⟩
  · rintro ⟨blanks, rest, rfl, blank, spaced⟩
    exact .cons blank spaced

theorem exists_append (spaced : Spaced (tokens ++ others) text) :
    ∃ front back, text = front ++ back ∧ Spaced tokens front ∧ Spaced others back := by
  induction tokens generalizing text with
  | nil => exact ⟨[], text, rfl, .nil, spaced⟩
  | cons token tokens ih =>
    obtain ⟨blanks, rest, rfl, blank, spaced⟩ := cons_iff.mp spaced
    obtain ⟨front, back, rfl, first, last⟩ := ih spaced
    exact ⟨token ++ (blanks ++ front), back, by simp, .cons blank first, last⟩

theorem eq_blank {token : List Char} (spaced : Spaced [token] text) :
    ∃ blanks, text = token ++ blanks ∧ Blank blanks := by
  obtain ⟨blanks, rest, rfl, blank, ⟨⟩⟩ := cons_iff.mp spaced
  exact ⟨blanks, by rw [List.append_nil], blank⟩

end Spaced

section Visible

theorem visible_append (front back : List Char) : visible (front ++ back) = visible front ++ visible back :=
  List.filter_append front back

theorem visible_blank (blank : Blank blanks) : visible blanks = [] :=
  List.filter_eq_nil_iff.mpr fun c member => by simp [blank c member]

theorem visible_mark (shown : isBlank c = false) (text : List Char) :
    visible (c :: text) = c :: visible text :=
  List.filter_cons_of_pos (by simp [shown])

/-- Without its blanks, a text is its tokens without theirs. -/
theorem visible_spaced (spaced : Spaced tokens text) : visible text = visible tokens.flatten := by
  induction spaced with
  | nil => rfl
  | cons blank _ ih =>
    rw [visible_append, visible_append, visible_blank blank, ih, List.flatten_cons, visible_append]
    rfl

theorem visible_listed {items : List (List (List Char))} {texts : List (List Char)}
    (same : items.map (visible ·.flatten) = texts.map visible) :
    visible (listed items).flatten = visible (separated texts) := by
  induction items generalizing texts with
  | nil =>
    obtain rfl := List.map_eq_nil_iff.mp same.symm
    rfl
  | cons item items ih =>
    obtain ⟨first, texts, rfl, here, behind⟩ := List.map_eq_cons_iff.mp same.symm
    have later := ih behind.symm
    cases items with
    | nil =>
      obtain rfl := List.map_eq_nil_iff.mp behind
      simpa [listed, separated] using here.symm
    | cons next items =>
      obtain ⟨second, texts, rfl, -⟩ := List.map_eq_cons_iff.mp behind
      rw [listed, List.flatten_append, List.flatten_cons, visible_append, List.singleton_append,
        visible_mark (by decide), later, separated_cons_cons, visible_append, visible_mark (by decide), here]
      rfl

mutual

/-- A type shows its tokens. -/
theorem TypeExpr.visible_tokens : (type : TypeExpr) → visible type.tokens.flatten = visible type.text
  | .named name => by rw [TypeExpr.tokens, TypeExpr.text, List.flatten_singleton]
  | .applied name arguments => by
    have arguments := visible_listed (visible_tokensOf arguments)
    rw [TypeExpr.tokens, TypeExpr.text, List.flatten_cons, List.flatten_cons, List.flatten_append,
      List.flatten_singleton, List.singleton_append, visible_append, visible_append,
      visible_mark (by decide), visible_mark (by decide), visible_append, visible_append, arguments]
  | .tuple parts => by
    have parts := visible_listed (visible_tokensOf parts)
    rw [TypeExpr.tokens, TypeExpr.text, List.flatten_cons, List.flatten_append, List.flatten_singleton,
      List.singleton_append, visible_mark (by decide), visible_mark (by decide), visible_append,
      visible_append, parts]

theorem visible_tokensOf : (types : List TypeExpr) →
    (tokensOf types).map (visible ·.flatten) = (textsOf types).map visible
  | [] => rfl
  | type :: types => by
    rw [tokensOf, textsOf, List.map_cons, List.map_cons, type.visible_tokens, visible_tokensOf types]

end

end Visible

section Loose

variable {marks : List Char}

/-- Code of words, marks and blanks, without a keyword. -/
structure Loose (marks text : List Char) : Prop where
  chars : ∀ c ∈ text, isWord c = true ∨ c ∈ marks ∨ isBlank c = true
  free : Free text

namespace Loose

theorem not_mem (loose : Loose marks text) (noWord : isWord c = false) (noMark : c ∉ marks)
    (shown : isBlank c = false) : c ∉ text := by
  intro member
  rcases loose.chars c member with word | mark | blank
  · rw [noWord] at word
    contradiction
  · exact noMark mark
  · rw [shown] at blank
    contradiction

theorem plain (loose : Loose lineMarks text) : Plain text := by
  refine plain_of_not_mem fun mark listed => loose.not_mem ?_ ?_ ?_ <;> revert mark <;> decide

theorem within (loose : Loose typeMarks text) : Loose lineMarks text :=
  ⟨fun c member => (loose.chars c member).imp_right (Or.imp_left (List.mem_append_left _)), loose.free⟩

theorem append (one : Loose marks front) (two : Loose marks back) (starts : back.head?.any isWord = false) :
    Loose marks (front ++ back) :=
  ⟨List.forall_mem_append.mpr ⟨one.chars, two.chars⟩, free_append_of_head one.free two.free starts⟩

theorem behindMark (loose : Loose marks text) (mark : c ∈ marks) (noWord : isWord c = false) :
    Loose marks (c :: text) :=
  ⟨List.forall_mem_cons.mpr ⟨.inr (.inl mark), loose.chars⟩, free_mark noWord loose.free⟩

theorem behindBlanks (loose : Loose marks text) (blank : Blank blanks) : Loose marks (blanks ++ text) := by
  induction blanks with
  | nil => exact loose
  | cons c blanks ih =>
    obtain ⟨here, others⟩ := List.forall_mem_cons.mp blank
    have behind := ih others
    exact ⟨List.forall_mem_cons.mpr ⟨.inr (.inr here), behind.chars⟩,
      free_mark (Text.isWord_of_isBlank here) behind.free⟩

end Loose

theorem loose_nil : Loose marks [] :=
  ⟨by simp, free_nil⟩

theorem Blank.loose (blank : Blank blanks) : Loose marks blanks := by
  have loose := (@loose_nil marks).behindBlanks blank
  rwa [List.append_nil] at loose

theorem Ident.loose (ident : Ident) : Loose marks ident.letters :=
  ⟨fun c member => .inl (ident.word c member), ident.freeText⟩

theorem Blank.head (blank : Blank blanks) (starts : text.head?.any isWord = false) :
    (blanks ++ text).head?.any isWord = false := by
  cases blanks with
  | nil => exact starts
  | cons c blanks => exact Text.isWord_of_isBlank (blank c List.mem_cons_self)

theorem loose_listed {items : List (List (List Char))}
    (loose : ∀ tokens ∈ items, ∀ text, Spaced tokens text → Loose typeMarks text)
    (spaced : Spaced (listed items) text) : Loose typeMarks text := by
  induction items generalizing text with
  | nil =>
    obtain ⟨⟩ := spaced
    exact loose_nil
  | cons item items ih =>
    obtain ⟨here, others⟩ := List.forall_mem_cons.mp loose
    cases items with
    | nil => exact here text spaced
    | cons next items =>
      obtain ⟨front, back, rfl, first, later⟩ := spaced.exists_append
      obtain ⟨blanks, rest, rfl, blank, later⟩ := Spaced.cons_iff.mp later
      have behind := ((ih others later).behindBlanks blank).behindMark (show ',' ∈ typeMarks by decide) (by decide)
      exact (here front first).append behind (by rfl)

theorem loose_bracketed {items : List (List (List Char))} {opener closer : Char}
    (loose : ∀ tokens ∈ items, ∀ text, Spaced tokens text → Loose typeMarks text)
    (marks : opener ∈ typeMarks ∧ closer ∈ typeMarks) (noWord : isWord opener = false ∧ isWord closer = false)
    (spaced : Spaced ([opener] :: (listed items ++ [[closer]])) text) :
    Loose typeMarks text ∧ text.head?.any isWord = false := by
  obtain ⟨blanks, rest, rfl, blank, spaced⟩ := Spaced.cons_iff.mp spaced
  obtain ⟨front, back, rfl, inner, last⟩ := spaced.exists_append
  obtain ⟨blanks', rfl, blank'⟩ := last.eq_blank
  have closing : Loose typeMarks (front ++ closer :: blanks') :=
    (loose_listed loose inner).append (blank'.loose.behindMark marks.2 noWord.2) noWord.2
  exact ⟨(closing.behindBlanks blank).behindMark marks.1 noWord.1, noWord.1⟩

mutual

theorem TypeExpr.loose : (type : TypeExpr) → ∀ text, Spaced type.tokens text → Loose typeMarks text
  | .named name, text, spaced => by
    obtain ⟨blanks, rfl, blank⟩ := (show Spaced [name.letters] text from spaced).eq_blank
    have starts := blank.head (show ([] : List Char).head?.any isWord = false from rfl)
    rw [List.append_nil] at starts
    exact name.loose.append blank.loose starts
  | .applied name arguments, text, spaced => by
    obtain ⟨blanks, rest, rfl, blank, spaced⟩ := Spaced.cons_iff.mp spaced
    obtain ⟨loose, starts⟩ := loose_bracketed (loose_tokensOf arguments) (by decide) (by decide) spaced
    exact name.loose.append (loose.behindBlanks blank) (blank.head starts)
  | .tuple parts, text, spaced => (loose_bracketed (loose_tokensOf parts) (by decide) (by decide) spaced).1

theorem loose_tokensOf : (types : List TypeExpr) → ∀ tokens ∈ tokensOf types, ∀ text,
    Spaced tokens text → Loose typeMarks text
  | [] => fun tokens member => by simp [tokensOf] at member
  | type :: types => by
    rw [tokensOf, List.forall_mem_cons]
    exact ⟨type.loose, loose_tokensOf types⟩

end

theorem Param.loose (param : Param) (text : List Char) (spaced : Spaced param.tokens text) :
    Loose typeMarks text := by
  obtain ⟨blanks, rest, rfl, blank, spaced⟩ := Spaced.cons_iff.mp spaced
  obtain ⟨blanks', rest, rfl, blank', spaced⟩ := Spaced.cons_iff.mp spaced
  have typed := ((param.type.loose _ spaced).behindBlanks blank').behindMark (show ':' ∈ typeMarks by decide)
    (by decide)
  exact param.name.loose.append (typed.behindBlanks blank) (blank.head (by rfl))

/-- A type starts with a visible character. -/
theorem TypeExpr.starts (type : TypeExpr) (spaced : Spaced type.tokens text) :
    ∃ c rest, text = c :: rest ∧ isBlank c = false := by
  have named (name : Ident) (rest : List Char) : ∃ c others, name.letters ++ rest = c :: others ∧
      isBlank c = false := by
    obtain ⟨c, letters, same⟩ := List.exists_cons_of_ne_nil name.nonempty
    exact ⟨c, letters ++ rest, by rw [same, List.cons_append],
      name.visible c (same ▸ List.mem_cons_self)⟩
  cases type with
  | named name | applied name _ =>
    rw [TypeExpr.tokens] at spaced
    obtain ⟨blanks, rest, rfl, -⟩ := Spaced.cons_iff.mp spaced
    exact named name _
  | tuple parts =>
    rw [TypeExpr.tokens] at spaced
    obtain ⟨blanks, rest, rfl, -⟩ := Spaced.cons_iff.mp spaced
    exact ⟨'[', _, rfl, by decide⟩

end Loose

end ContractInspector.Contract
