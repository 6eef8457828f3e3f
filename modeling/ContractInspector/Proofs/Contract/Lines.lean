import ContractInspector.Contract.Declaration
import ContractInspector.Proofs.Contract.Syntax

/-! The lines of a contract: a pragma, imports, and declarations that take one line each. All words of a
line that are keywords stand at its head (`Line.headed`), also where its path is blanked. -/
namespace ContractInspector.Contract

open Source (Carried Item Plain separated)
open Text (isBlank isWord words)
open Text.Pattern (Marked marked_append)

/-- What a declaration says of its name. -/
inductive Content where
  | circuit (isPure : Bool) (params : List Param) (type : TypeExpr)
  | witness (params : Option (List Param)) (type : TypeExpr)
  | ledgerItem (isSealed : Bool) (type : TypeExpr)
  | typeAlias (definition : TypeExpr)
  | struct (fields : List Param)
  | enumeration (variants : List Ident)

structure Declaration where
  isExported : Bool
  name : Ident
  content : Content

/-- A modifier with the space behind it, if it is set. -/
def flag (word : String) (isSet : Bool) : List Char :=
  if isSet then word.toList ++ [' '] else []

namespace Content

def modifier : Content → List Char
  | circuit isPure _ _ => flag "pure" isPure
  | ledgerItem isSealed _ => flag "sealed" isSealed
  | _ => []

def keyword : Content → String
  | circuit .. => "circuit"
  | witness .. => "witness"
  | ledgerItem .. => "ledger"
  | typeAlias _ => "type"
  | struct _ => "struct"
  | enumeration _ => "enum"

/-- What stands behind the name. -/
def body : Content → List Char
  | circuit _ params type =>
    '(' :: (separated (params.map Param.text) ++ ')' :: ':' :: ' ' :: (type.text ++ [' ', '{', '}']))
  | witness none type => ':' :: ' ' :: (type.text ++ [';'])
  | witness (some params) type =>
    '(' :: (separated (params.map Param.text) ++ ')' :: ':' :: ' ' :: (type.text ++ [';']))
  | ledgerItem _ type => ':' :: ' ' :: (type.text ++ [';'])
  | typeAlias definition => ' ' :: '=' :: ' ' :: (definition.text ++ [';'])
  | struct fields => ' ' :: '{' :: ' ' :: (separated (fields.map Param.text) ++ [' ', '}'])
  | enumeration variants => ' ' :: '{' :: ' ' :: (separated (variants.map Ident.letters) ++ [' ', '}'])

end Content

/-- What stands in front of the name. -/
def Declaration.lead (declaration : Declaration) : List Char :=
  flag "export" declaration.isExported ++
    (declaration.content.modifier ++ (declaration.content.keyword.toList ++ [' ']))

def Declaration.text (declaration : Declaration) : List Char :=
  declaration.lead ++ (declaration.name.letters ++ declaration.content.body)

/-- A path of an included file. -/
structure Path where
  letters : List Char
  nonempty : letters ≠ []
  plain : ∀ c ∈ letters, isWord c = true ∨ c ∈ ['.', '/', '-']

inductive Import where
  | module (name : Ident)
  | file (path : Path)

def Import.text : Import → List Char
  | module name => "import".toList ++ ' ' :: (name.letters ++ [';'])
  | file path => "include".toList ++ ' ' :: '"' :: (path.letters ++ ['"', ';'])

inductive Comparison where
  | greaterEqual | greater | lessEqual | less | equal | compatible

def Comparison.text : Comparison → List Char
  | greaterEqual => ['>', '=']
  | greater => ['>']
  | lessEqual => ['<', '=']
  | less => ['<']
  | equal => ['=', '=']
  | compatible => ['~']

structure Pragma where
  comparison : Option Comparison
  version : List Char
  nonempty : version ≠ []
  numeric : ∀ c ∈ version, c ∈ "0123456789.".toList

def Pragma.compared (pragma : Pragma) : List Char :=
  (pragma.comparison.map fun comparison => comparison.text ++ [' ']).getD []

def Pragma.text (pragma : Pragma) : List Char :=
  "pragma".toList ++ ' ' :: ("language_version".toList ++
    ' ' :: (pragma.compared ++ (pragma.version ++ [';'])))

inductive Line where
  | pragma (pragma : Pragma)
  | imported (target : Import)
  | declared (declaration : Declaration)

namespace Line

def text : Line → List Char
  | .pragma written => written.text
  | .imported target => target.text
  | .declared declaration => declaration.text

/-- A line with its path blanked. -/
def masked : Line → List Char
  | .imported (.file path) =>
    "include".toList ++ ' ' :: '"' :: (path.letters.map Source.blanked ++ ['"', ';'])
  | line => line.text

/-- The keywords that a line may start with. -/
def heads : Line → List String
  | .pragma _ => ["pragma"]
  | .imported (.module _) => ["import"]
  | .imported (.file _) => ["include"]
  | .declared declaration => ["export", "pure", "sealed", declaration.content.keyword]

end Line

section Words

variable {part other : List Char} {allowed : List String} {c : Char} {word : String}

/-- All keywords among the words of a text are allowed ones. -/
def Heads (allowed : List String) (part : List Char) : Prop :=
  ∀ keyword ∈ keywords, keyword.toList ∈ words part → keyword ∈ allowed

theorem Free.heads (free : Free part) : Heads allowed part :=
  fun keyword member within => absurd within (free keyword member)

theorem letters_of_keyword : ∀ keyword ∈ keywords, ∀ d ∈ keyword.toList, isWord d = true := by
  decide

theorem heads_word (letters : ∀ d ∈ word.toList, isWord d = true) (isAllowed : word ∈ keywords → word ∈ allowed)
    (heads : Heads allowed part) : Heads allowed (word.toList ++ ' ' :: part) := by
  intro keyword member within
  rw [Text.words_append_cons (by decide), Text.words_of_isWord letters] at within
  rcases List.mem_cons.mp within with same | behind
  · obtain rfl := String.toList_injective same
    exact isAllowed member
  · exact heads keyword member behind

theorem heads_flag (member : word ∈ keywords) (isAllowed : word ∈ allowed) (isSet : Bool)
    (heads : Heads allowed part) : Heads allowed (flag word isSet ++ part) := by
  cases isSet with
  | false => exact heads
  | true =>
    rw [flag, if_pos rfl, List.append_assoc]
    exact heads_word (letters_of_keyword word member) (fun _ => isAllowed) heads

/-- The characters that stand between the names of a line. -/
def lineMarks : List Char :=
  typeMarks ++ ['(', ')', '{', '}', ';', '=']

/-- Code of one line without a keyword. -/
structure Inert (part : List Char) : Prop where
  plain : Plain part
  free : Free part
  inLine : '\n' ∉ part

theorem isWord_lineMark : ∀ mark ∈ lineMarks, isWord mark = false := by
  decide

theorem plain_lineMark : ∀ mark ∈ lineMarks, Source.isQuote mark = false ∧ mark ≠ '/' ∧ mark ≠ '\n' := by
  decide

theorem inert_nil : Inert [] :=
  ⟨by simp [Plain], free_nil, by simp⟩

theorem inert_append (mark : c ∈ lineMarks) (one : Inert part) (two : Inert other) :
    Inert (part ++ c :: other) := by
  obtain ⟨noQuote, noSlash, noNewline⟩ := plain_lineMark c mark
  constructor
  case plain => exact Source.plain_append one.plain (List.forall_mem_cons.mpr ⟨⟨noQuote, noSlash⟩, two.plain⟩)
  case free => exact free_append (isWord_lineMark c mark) one.free two.free
  case inLine => simp [one.inLine, two.inLine, Ne.symm noNewline]

theorem inert_mark (mark : c ∈ lineMarks) (inert : Inert part) : Inert (c :: part) :=
  inert_append mark inert_nil inert

theorem Tame.inert (tame : Tame part) (free : Free part) : Inert part :=
  ⟨tame.plain, free, tame.not_mem (by decide) (by decide)⟩

theorem Piece.inert (piece : Piece part) : Inert part :=
  piece.tame.inert piece.free

theorem inert_separated {items : List (List Char)} (pieces : ∀ item ∈ items, Piece item) :
    Inert (separated items) :=
  (tame_separated fun item member => (pieces item member).tame).inert
    (free_separated fun item member => (pieces item member).free)

/-- Such code that ends with a mark. -/
structure Closing (part : List Char) : Prop extends Inert part where
  marked : Marked part

theorem closing_last (mark : c ∈ lineMarks) (visible : isBlank c = false) (inert : Inert part) :
    Closing (part ++ [c]) :=
  ⟨inert_append mark inert inert_nil, c, List.getLast?_concat, isWord_lineMark c mark, visible⟩

theorem closing_append (mark : c ∈ lineMarks) (one : Inert part) (two : Closing other) :
    Closing (part ++ c :: other) :=
  ⟨inert_append mark one two.toInert, marked_append part (marked_append [c] two.marked)⟩

theorem closing_mark (mark : c ∈ lineMarks) (closing : Closing part) : Closing (c :: part) :=
  closing_append mark inert_nil closing

/-- What stands behind a character of such code that belongs to no word. -/
theorem Closing.behind (closing : Closing (part ++ c :: other)) (noWord : isWord c = false)
    (nonempty : other ≠ []) : Closing other := by
  constructor
  case toInert =>
    constructor
    case plain => exact fun d member => closing.plain d (by simp [member])
    case free =>
      intro keyword member within
      refine closing.free keyword member ?_
      rw [Text.words_append_cons noWord]
      exact List.mem_append_right _ within
    case inLine => exact fun member => closing.inLine (by simp [member])
  case marked =>
    obtain ⟨mark, last, others⟩ := closing.marked
    rw [List.getLast?_append_of_ne_nil _ (by simp), List.getLast?_cons_of_ne_nil nonempty] at last
    exact ⟨mark, last, others⟩

end Words

section Bodies

theorem piece_params {params : List Param} : ∀ item ∈ params.map Param.text, Piece item := by
  intro item member
  obtain ⟨param, -, rfl⟩ := List.mem_map.mp member
  exact param.piece

theorem piece_variants {variants : List Ident} : ∀ item ∈ variants.map Ident.letters, Piece item := by
  intro item member
  obtain ⟨variant, -, rfl⟩ := List.mem_map.mp member
  exact variant.piece

theorem closing_typed (type : TypeExpr) : Closing (':' :: ' ' :: (type.text ++ [';'])) :=
  closing_mark (by decide) (closing_mark (by decide)
    (closing_last (by decide) (by decide) type.piece.inert))

theorem closing_members {items : List (List Char)} (pieces : ∀ item ∈ items, Piece item) :
    Closing (' ' :: (separated items ++ [' ', '}'])) := by
  have brace : Closing ['}'] := closing_last (by decide) (by decide) inert_nil
  exact closing_mark (by decide) (closing_append (by decide) (inert_separated pieces) brace)

theorem closing_params {params : List Param} {back : List Char} (closing : Closing back) :
    Closing (separated (params.map Param.text) ++ ')' :: back) :=
  closing_append (by decide) (inert_separated piece_params) closing

theorem Content.closing_body (content : Content) : Closing content.body := by
  cases content with
  | circuit isPure params type =>
    have braces : Closing ['{', '}'] :=
      closing_mark (by decide) (closing_last (by decide) (by decide) inert_nil)
    have typed : Closing (':' :: ' ' :: (type.text ++ ' ' :: ['{', '}'])) :=
      closing_mark (by decide) (closing_mark (by decide) (closing_append (by decide) type.piece.inert braces))
    exact closing_mark (by decide) (closing_params typed)
  | witness params type =>
    cases params with
    | none => exact closing_typed type
    | some params => exact closing_mark (by decide) (closing_params (closing_typed type))
  | ledgerItem isSealed type => exact closing_typed type
  | typeAlias definition =>
    have defined : Closing (definition.text ++ [';']) :=
      closing_last (by decide) (by decide) definition.piece.inert
    exact closing_mark (by decide) (closing_mark (by decide) (closing_mark (by decide) defined))
  | struct fields =>
    exact closing_mark (by decide) (closing_mark (by decide) (closing_members piece_params))
  | enumeration variants =>
    exact closing_mark (by decide) (closing_mark (by decide) (closing_members piece_variants))

end Bodies

section Texts

variable {part : List Char}

theorem free_of_isAlpha (noLetter : ∀ c ∈ part, c.isAlpha = false) : Free part := by
  intro keyword member within
  have letters : ∀ keyword ∈ keywords, ∃ c ∈ keyword.toList, c.isAlpha = true := by decide
  obtain ⟨c, letter, isLetter⟩ := letters keyword member
  rw [noLetter c (Text.subset_of_mem_words within letter)] at isLetter
  contradiction

theorem tame_of_isWord (word : ∀ c ∈ part, isWord c = true) : Tame part :=
  fun c member => .inl (word c member)

theorem tame_word {word : String} (member : word ∈ keywords) : Tame (word.toList ++ [' ']) :=
  tame_append (tame_of_isWord (letters_of_keyword word member)) (by simp [Tame, typeMarks])

theorem tame_flag {word : String} (member : word ∈ keywords) (isSet : Bool) : Tame (flag word isSet) := by
  cases isSet with
  | false => simp [flag, Tame]
  | true => exact tame_word member

theorem mask_word {word : String} (member : word ∈ keywords) (literals : Bool) (rest : List Char) :
    Source.mask literals (word.toList ++ ' ' :: rest) = word.toList ++ ' ' :: Source.mask literals rest := by
  have masked := Source.mask_plain (tame_word member).plain literals rest
  rwa [List.append_assoc, List.append_assoc] at masked

namespace Content

variable (content : Content)

theorem keyword_mem : content.keyword ∈ keywords := by
  cases content <;> simp [keyword, keywords]

theorem head_body : content.body.head?.any isWord = false := by
  rcases content with _ | ⟨_ | _, _⟩ | _ | _ | _ | _ <;> rfl

theorem tame_modifier : Tame content.modifier := by
  cases content with
  | circuit isPure _ _ => exact tame_flag (by decide) isPure
  | ledgerItem isSealed _ => exact tame_flag (by decide) isSealed
  | _ => simp [modifier, Tame]

theorem heads_modifier {allowed : List String} (among : ["pure", "sealed"] ⊆ allowed)
    (heads : Heads allowed part) : Heads allowed (content.modifier ++ part) := by
  cases content with
  | circuit isPure _ _ => exact heads_flag (by decide) (among (by decide)) isPure heads
  | ledgerItem isSealed _ => exact heads_flag (by decide) (among (by decide)) isSealed heads
  | _ => exact heads

end Content

theorem closing_named (name : Ident) {body : List Char} (closing : Closing body)
    (starts : body.head?.any isWord = false) : Closing (name.letters ++ body) := by
  have letters := name.piece.inert
  cases body with
  | nil =>
    obtain ⟨mark, last, -⟩ := closing.marked
    contradiction
  | cons c rest =>
    constructor
    case toInert =>
      constructor
      case plain => exact Source.plain_append letters.plain closing.plain
      case free => exact free_append_of_head letters.free closing.free starts
      case inLine =>
        rw [List.mem_append, not_or]
        exact ⟨letters.inLine, closing.inLine⟩
    case marked => exact marked_append _ closing.marked

namespace Declaration

variable (declaration : Declaration)

theorem tame_lead : Tame declaration.lead := by
  exact tame_append (tame_flag (by decide) _) (tame_append declaration.content.tame_modifier
    (tame_word declaration.content.keyword_mem))

theorem closing_named : Closing (declaration.name.letters ++ declaration.content.body) :=
  Contract.closing_named _ declaration.content.closing_body declaration.content.head_body

theorem heads_text :
    Heads ["export", "pure", "sealed", declaration.content.keyword] declaration.text := by
  rw [text, lead]
  simp only [List.append_assoc, List.singleton_append]
  refine heads_flag (by decide) (by simp) _ (declaration.content.heads_modifier (by simp) ?_)
  exact heads_word (letters_of_keyword _ declaration.content.keyword_mem) (by simp)
    declaration.closing_named.free.heads

end Declaration

/-- The characters that stand behind the words of a pragma. -/
def versionMarks : List Char :=
  "0123456789.><=~ ;".toList

namespace Pragma

variable (pragma : Pragma)

theorem mem_versionMarks : ∀ c ∈ pragma.compared ++ (pragma.version ++ [';']), c ∈ versionMarks := by
  have compares : ∀ c ∈ pragma.compared, c ∈ versionMarks := by
    unfold compared
    rcases pragma.comparison with _ | ⟨_ | _⟩ <;> decide
  have numeric : ∀ c ∈ "0123456789.".toList, c ∈ versionMarks := by decide
  refine List.forall_mem_append.mpr ⟨compares, List.forall_mem_append.mpr ⟨?_, by decide⟩⟩
  exact fun c member => numeric c (pragma.numeric c member)

theorem closing : Closing (pragma.compared ++ (pragma.version ++ [';'])) := by
  have among := pragma.mem_versionMarks
  constructor
  case toInert =>
    constructor
    case plain =>
      have plain : ∀ c ∈ versionMarks, Source.isQuote c = false ∧ c ≠ '/' := by decide
      exact fun c member => plain c (among c member)
    case free =>
      have noLetter : ∀ c ∈ versionMarks, c.isAlpha = false := by decide
      exact free_of_isAlpha fun c member => noLetter c (among c member)
    case inLine => exact fun member => absurd (among _ member) (by decide)
  case marked =>
    rw [← List.append_assoc]
    exact ⟨';', List.getLast?_concat, by decide, by decide⟩

theorem text_eq : pragma.text = ("pragma".toList ++ ' ' :: ("language_version".toList ++ [' '])) ++
    (pragma.compared ++ (pragma.version ++ [';'])) := by
  have regroup (word other rest : List Char) :
      word ++ ' ' :: (other ++ ' ' :: rest) = (word ++ ' ' :: (other ++ [' '])) ++ rest := by simp
  exact regroup _ _ _

omit pragma in
theorem tame_words : Tame ("pragma".toList ++ ' ' :: ("language_version".toList ++ [' '])) := by
  unfold Tame
  decide

end Pragma

theorem closing_module (name : Ident) : Closing (name.letters ++ [';']) :=
  closing_last (by decide) (by decide) name.piece.inert

namespace Path

variable (path : Path)

theorem free_quoted : Free ('"' :: (path.letters.map Source.blanked ++ ['"', ';'])) := by
  refine free_of_isAlpha (List.forall_mem_cons.mpr ⟨by decide, List.forall_mem_append.mpr ⟨?_, by decide⟩⟩)
  intro c member
  obtain ⟨d, -, rfl⟩ := List.mem_map.mp member
  rcases Source.blanked_eq d with same | same <;> rw [same] <;> decide

theorem ne_of_mem {c d : Char} (member : c ∈ path.letters) (noWord : isWord d = false)
    (other : d ∉ ['.', '/', '-']) : c ≠ d := by
  rintro rfl
  rcases path.plain c member with word | mark
  · rw [noWord] at word
    contradiction
  · exact other mark

theorem inside : Source.Inside '"' path.letters := by
  have noQuote : ∀ c ∈ path.letters, c ≠ '"' ∧ c ≠ '\\' := fun c member =>
    ⟨path.ne_of_mem member (by decide) (by decide), path.ne_of_mem member (by decide) (by decide)⟩
  generalize path.letters = letters at noQuote
  induction letters with
  | nil => exact .nil
  | cons c letters ih =>
    obtain ⟨⟨noQuote, noEscape⟩, others⟩ := List.forall_mem_cons.mp noQuote
    exact .plain noQuote noEscape (ih others)

theorem mask_quoted (literals : Bool) (tail : List Char) :
    Source.mask literals ('"' :: (path.letters ++ '"' :: ';' :: tail)) =
      '"' :: ((if literals then path.letters.map Source.blanked else path.letters) ++
        '"' :: ';' :: Source.mask literals tail) := by
  have quoted : Source.Reads ('"' :: (path.letters ++ '"' :: (';' :: tail))) _ (';' :: tail) :=
    .literal (by decide) path.inside
  have semicolon : Source.mask literals (';' :: tail) = ';' :: Source.mask literals tail :=
    Source.mask_code literals (by decide) (fun slash => absurd slash (by decide))
  rw [quoted.mask, semicolon]
  simp [Source.Lexeme.masked]

end Path

namespace Line

variable (line : Line)

theorem heads_masked : Heads line.heads line.masked := by
  cases line with
  | pragma pragma =>
    exact heads_word (by decide) (fun _ => List.mem_cons_self)
      (heads_word (by decide) (fun member => absurd member (by decide)) pragma.closing.free.heads)
  | imported target =>
    cases target with
    | module name =>
      exact heads_word (by decide) (fun _ => List.mem_cons_self) (closing_module name).free.heads
    | file path => exact heads_word (by decide) (fun _ => List.mem_cons_self) path.free_quoted.heads
  | declared declaration => exact declaration.heads_text

theorem marked_masked : Marked line.masked := by
  cases line with
  | pragma pragma =>
    have split : (Line.pragma pragma).masked = pragma.text := rfl
    rw [split, pragma.text_eq]
    exact marked_append _ pragma.closing.marked
  | imported target =>
    cases target with
    | module name => exact marked_append _ (marked_append [' '] (closing_module name).marked)
    | file path =>
      exact marked_append _ (marked_append [' ', '"'] (marked_append _ ⟨';', rfl, by decide, by decide⟩))
  | declared declaration => exact marked_append _ declaration.closing_named.marked

theorem newline_not_mem_text : '\n' ∉ line.text := by
  have noNewline {part : List Char} (tame : Tame part) : '\n' ∉ part :=
    tame.not_mem (by decide) (by decide)
  have word {word : String} {rest : List Char} (member : word ∈ keywords) (behind : '\n' ∉ rest) :
      '\n' ∉ word.toList ++ ' ' :: rest := by
    have first := noNewline (tame_word member)
    simp only [List.mem_append, List.mem_cons, not_or] at first ⊢
    exact ⟨first.1, first.2.1, behind⟩
  cases line with
  | pragma pragma =>
    have split : (Line.pragma pragma).text = pragma.text := rfl
    rw [split, pragma.text_eq, List.mem_append, not_or]
    exact ⟨noNewline Pragma.tame_words, pragma.closing.inLine⟩
  | imported target =>
    cases target with
    | module name => exact word (by decide) (closing_module name).inLine
    | file path =>
      refine word (by decide) ?_
      have inPath : '\n' ∉ path.letters := fun member =>
        path.ne_of_mem member (by decide) (by decide) rfl
      simp [inPath]
  | declared declaration =>
    rw [text, Declaration.text, List.mem_append, not_or]
    exact ⟨noNewline declaration.tame_lead, declaration.closing_named.inLine⟩

theorem mask_text (literals : Bool) (tail : List Char) : Source.mask literals (line.text ++ tail) =
    (if literals then line.masked else line.text) ++ Source.mask literals tail := by
  have unchanged (plain : Plain line.text) (same : line.masked = line.text) :
      Source.mask literals (line.text ++ tail) =
        (if literals then line.masked else line.text) ++ Source.mask literals tail := by
    rw [same, ite_self, Source.mask_plain plain]
  cases line with
  | pragma pragma =>
    refine unchanged ?_ rfl
    have split : (Line.pragma pragma).text = pragma.text := rfl
    rw [split, pragma.text_eq]
    exact Source.plain_append Pragma.tame_words.plain pragma.closing.plain
  | imported target =>
    cases target with
    | module name =>
      refine unchanged ?_ rfl
      have word : Plain ("import".toList ++ [' ']) := (tame_word (by decide)).plain
      have plain := Source.plain_append word (closing_module name).plain
      rwa [List.append_assoc] at plain
    | file path =>
      have regroup (word path tail : List Char) : (word ++ ' ' :: '"' :: (path ++ ['"', ';'])) ++ tail =
          word ++ ' ' :: '"' :: (path ++ '"' :: ';' :: tail) := by simp
      have word := mask_word (show "include" ∈ keywords by decide) literals
        ('"' :: (path.letters ++ '"' :: ';' :: tail))
      rw [path.mask_quoted, ← regroup] at word
      cases literals <;> exact word.trans (regroup _ _ _).symm
  | declared declaration =>
    exact unchanged (Source.plain_append declaration.tame_lead.plain declaration.closing_named.plain) rfl

end Line

end Texts

end ContractInspector.Contract
