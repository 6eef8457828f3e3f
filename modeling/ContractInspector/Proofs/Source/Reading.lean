import ContractInspector.Proofs.Text.Spans
import ContractInspector.Source.Mask

/-! The lexical rules of contract source as a relation, and the reader as its exact decision:
`read_iff` says that a lexeme is read where the rules find it, whatever stands behind it. -/
namespace ContractInspector.Source

/-- Contents that do not close a literal: a backslash takes the character behind it along. -/
inductive Inside (quote : Char) : List Char → Prop where
  | nil : Inside quote []
  | escaped {c : Char} {rest : List Char} : Inside quote rest → Inside quote ('\\' :: c :: rest)
  | plain {c : Char} {rest : List Char} : c ≠ quote → c ≠ '\\' → Inside quote rest →
      Inside quote (c :: rest)

/-- Contents that reach the end of the source. A backslash at the very end stands alone. -/
def Unclosed (quote : Char) (contents : List Char) : Prop :=
  Inside quote contents ∨ ∃ front, contents = front ++ ['\\'] ∧ Inside quote front

/-- No end of a block comment occurs in the text. -/
def EndFree : List Char → Prop
  | [] => True
  | c :: rest => (c = '*' → rest.head? ≠ some '/') ∧ EndFree rest

/-- A text starts with a lexeme, behind which the rest stands. -/
inductive Reads : List Char → Lexeme → List Char → Prop where
  | code {c : Char} {after : List Char} : isQuote c = false →
      (c = '/' → after.head? ≠ some '/' ∧ after.head? ≠ some '*') →
      Reads (c :: after) (.code c) after
  | lineComment {body after : List Char} : '\n' ∉ body →
      (after = [] ∨ after.head? = some '\n') →
      Reads ('/' :: '/' :: (body ++ after)) (.comment ('/' :: '/' :: body)) after
  | blockComment {body after : List Char} : EndFree body →
      Reads ('/' :: '*' :: (body ++ '*' :: '/' :: after))
        (.comment ('/' :: '*' :: (body ++ ['*', '/']))) after
  | openComment {body : List Char} : EndFree body →
      Reads ('/' :: '*' :: body) (.comment ('/' :: '*' :: body)) []
  | literal {quote : Char} {contents after : List Char} : isQuote quote = true →
      Inside quote contents →
      Reads (quote :: (contents ++ quote :: after)) (.literal quote contents true) after
  | openLiteral {quote : Char} {contents : List Char} : isQuote quote = true →
      Unclosed quote contents →
      Reads (quote :: contents) (.literal quote contents false) []

theorem isQuote_iff {c : Char} : isQuote c = true ↔ c = '"' ∨ c = '\'' ∨ c = '`' := by
  simp [isQuote, or_assoc]

theorem quote_ne_backslash {quote : Char} (isQuoted : isQuote quote = true) : quote ≠ '\\' := by
  rcases isQuote_iff.mp isQuoted with rfl | rfl | rfl <;> decide

section Literals

variable {quote : Char}

theorem readLiteral_escape (quote c : Char) (rest seen : List Char) :
    readLiteral quote ('\\' :: c :: rest) seen = readLiteral quote rest (c :: '\\' :: seen) := by
  rw [readLiteral]

theorem readLiteral_step {c : Char} {rest : List Char} (plain : c = '\\' → rest = [])
    (seen : List Char) :
    readLiteral quote (c :: rest) seen =
      if c = quote then ⟨seen.reverse, true, rest⟩ else readLiteral quote rest (c :: seen) := by
  rw [readLiteral]
  intro d tail first same
  simp [plain first] at same

/-- Contents that do not close a literal are passed, whatever stands behind them. -/
theorem readLiteral_passes {contents : List Char} (inside : Inside quote contents)
    (rest seen : List Char) :
    readLiteral quote (contents ++ rest) seen = readLiteral quote rest (contents.reverse ++ seen) := by
  induction inside generalizing seen with
  | nil => rfl
  | escaped _ ih =>
    rw [List.cons_append, List.cons_append, readLiteral_escape, ih]
    simp
  | plain different lone _ ih =>
    rw [List.cons_append, readLiteral_step (fun same => absurd same lone), if_neg different, ih]
    simp

theorem readLiteral_closed {contents : List Char} (inside : Inside quote contents)
    (escape : quote ≠ '\\') (after seen : List Char) :
    readLiteral quote (contents ++ quote :: after) seen =
      ⟨seen.reverse ++ contents, true, after⟩ := by
  rw [readLiteral_passes inside, readLiteral_step (fun same => absurd same escape), if_pos rfl]
  simp

theorem readLiteral_unclosed {contents : List Char} (unclosed : Unclosed quote contents)
    (escape : quote ≠ '\\') (seen : List Char) :
    readLiteral quote contents seen = ⟨seen.reverse ++ contents, false, []⟩ := by
  rcases unclosed with inside | ⟨front, rfl, inside⟩
  · have passed := readLiteral_passes inside [] seen
    rw [List.append_nil] at passed
    simp [passed, readLiteral]
  · rw [readLiteral_passes inside, readLiteral_step (fun _ => rfl), if_neg (Ne.symm escape)]
    simp [readLiteral]

theorem Unclosed.escaped {c : Char} {rest : List Char} (unclosed : Unclosed quote rest) :
    Unclosed quote ('\\' :: c :: rest) := by
  rcases unclosed with inside | ⟨front, rfl, inside⟩
  · exact .inl (.escaped inside)
  · exact .inr ⟨'\\' :: c :: front, rfl, .escaped inside⟩

theorem Unclosed.plain {c : Char} {rest : List Char} (different : c ≠ quote) (lone : c ≠ '\\')
    (unclosed : Unclosed quote rest) : Unclosed quote (c :: rest) := by
  rcases unclosed with inside | ⟨front, rfl, inside⟩
  · exact .inl (.plain different lone inside)
  · exact .inr ⟨c :: front, rfl, .plain different lone inside⟩

/-- Behind an opening quote there is one of two things: contents and their closing quote, or
contents that reach the end. -/
theorem closed_or_unclosed (quote : Char) : ∀ text : List Char,
    (∃ contents after, text = contents ++ quote :: after ∧ Inside quote contents) ∨
      Unclosed quote text
  | [] => .inr (.inl .nil)
  | c :: rest => by
    by_cases closes : c = quote
    · exact .inl ⟨[], rest, by simp [closes], .nil⟩
    by_cases escape : c = '\\'
    · cases rest with
      | nil => exact .inr (.inr ⟨[], by simp [escape], .nil⟩)
      | cons d rest =>
        rcases closed_or_unclosed quote rest with ⟨contents, after, rfl, inside⟩ | unclosed
        · exact .inl ⟨'\\' :: d :: contents, after, by simp [escape], .escaped inside⟩
        · exact .inr (escape ▸ unclosed.escaped)
    · rcases closed_or_unclosed quote rest with ⟨contents, after, rfl, inside⟩ | unclosed
      · exact .inl ⟨c :: contents, after, rfl, .plain closes escape inside⟩
      · exact .inr (unclosed.plain closes escape)

end Literals

section Comments

theorem readBlockComment_step {c : Char} {rest : List Char}
    (more : c = '*' → rest.head? ≠ some '/') (seen : List Char) :
    readBlockComment (c :: rest) seen = readBlockComment rest (c :: seen) := by
  rw [readBlockComment]
  intro tail first same
  exact more first (by simp [same])

theorem readBlockComment_closed {body : List Char} (endFree : EndFree body)
    (after seen : List Char) :
    readBlockComment (body ++ '*' :: '/' :: after) seen =
      (seen.reverse ++ (body ++ ['*', '/']), after) := by
  induction body generalizing seen with
  | nil => simp [readBlockComment]
  | cons c body ih =>
    have more : c = '*' → (body ++ '*' :: '/' :: after).head? ≠ some '/' := by
      intro first
      cases body with
      | nil => simp
      | cons d body => simpa using endFree.1 first
    rw [List.cons_append, readBlockComment_step more, ih endFree.2]
    simp

theorem readBlockComment_open {body : List Char} (endFree : EndFree body) (seen : List Char) :
    readBlockComment body seen = (seen.reverse ++ body, []) := by
  induction body generalizing seen with
  | nil => simp [readBlockComment]
  | cons c body ih =>
    rw [readBlockComment_step endFree.1, ih endFree.2]
    simp

/-- Either a block comment ends for the first time somewhere, or it never does. -/
theorem ended_or_endFree (text : List Char) :
    (∃ body after, text = body ++ '*' :: '/' :: after ∧ EndFree body) ∨ EndFree text := by
  induction text with
  | nil => exact .inr trivial
  | cons c rest ih =>
    by_cases ends : c = '*' ∧ rest.head? = some '/'
    · obtain ⟨rfl, slash⟩ := ends
      obtain ⟨after, rfl⟩ := List.head?_eq_some_iff.mp slash
      exact .inl ⟨[], after, rfl, trivial⟩
    · have more : c = '*' → rest.head? ≠ some '/' := fun first slash => ends ⟨first, slash⟩
      rcases ih with ⟨body, after, rfl, endFree⟩ | endFree
      · refine .inl ⟨c :: body, after, rfl, fun first => ?_, endFree⟩
        cases body with
        | nil => simp
        | cons d body => simpa using more first
      · exact .inr ⟨more, endFree⟩

theorem takeWhile_line {body after : List Char} (inLine : '\n' ∉ body)
    (ends : after = [] ∨ after.head? = some '\n') :
    (body ++ after).takeWhile (· ≠ '\n') = body ∧ (body ++ after).dropWhile (· ≠ '\n') = after := by
  have spans : Text.Spans (· ≠ '\n') body after := by
    refine Text.spans_ne_iff.mpr ⟨inLine, fun c first => ?_⟩
    rcases ends with rfl | newline
    · contradiction
    · exact Option.some.inj (first.symm.trans newline)
  exact ⟨spans.takeWhile, spans.dropWhile⟩

end Comments

namespace Reads

variable {text after : List Char} {lexeme : Lexeme}

theorem read (reads : Reads text lexeme after) :
    ∃ c rest, text = c :: rest ∧ Lexeme.read c rest = (lexeme, after) := by
  cases reads with
  | @code c _ notQuote slash =>
    refine ⟨c, after, rfl, ?_⟩
    simp only [Lexeme.read, notQuote, Bool.false_eq_true, if_false]
    by_cases isSlash : c = '/'
    · obtain ⟨noLine, noBlock⟩ := slash isSlash
      rw [if_pos isSlash]
      split <;> simp_all
    · rw [if_neg isSlash]
  | @lineComment body _ inLine ends =>
    refine ⟨'/', '/' :: (body ++ after), rfl, ?_⟩
    obtain ⟨taken, dropped⟩ := @takeWhile_line ('/' :: body) after (by simpa using inLine) ends
    rw [List.cons_append] at taken dropped
    simp only [Lexeme.read, show isQuote '/' = false from rfl, Bool.false_eq_true, if_false,
      if_true, taken, dropped]
  | @blockComment body _ endFree =>
    refine ⟨'/', '*' :: (body ++ '*' :: '/' :: after), rfl, ?_⟩
    simp [Lexeme.read, show isQuote '/' = false from rfl, readBlockComment_closed endFree]
  | @openComment body endFree =>
    refine ⟨'/', '*' :: body, rfl, ?_⟩
    simp [Lexeme.read, show isQuote '/' = false from rfl, readBlockComment_open endFree]
  | @literal quote contents _ isQuoted inside =>
    refine ⟨quote, contents ++ quote :: after, rfl, ?_⟩
    simp [Lexeme.read, isQuoted, readLiteral_closed inside (quote_ne_backslash isQuoted)]
  | @openLiteral quote contents isQuoted unclosed =>
    refine ⟨quote, contents, rfl, ?_⟩
    simp [Lexeme.read, isQuoted, readLiteral_unclosed unclosed (quote_ne_backslash isQuoted)]

theorem total (c : Char) (rest : List Char) : ∃ lexeme after, Reads (c :: rest) lexeme after := by
  by_cases quoted : isQuote c = true
  · rcases closed_or_unclosed c rest with ⟨contents, after, rfl, inside⟩ | unclosed
    · exact ⟨_, _, .literal quoted inside⟩
    · exact ⟨_, _, .openLiteral quoted unclosed⟩
  have notQuote : isQuote c = false := by simpa using quoted
  by_cases line : c = '/' ∧ rest.head? = some '/'
  · obtain ⟨rfl, slash⟩ := line
    obtain ⟨tail, rfl⟩ := List.head?_eq_some_iff.mp slash
    obtain ⟨body, after, rfl, spans⟩ := Text.exists_spans (· ≠ '\n') tail
    obtain ⟨inLine, ends⟩ := Text.spans_ne_iff.mp spans
    refine ⟨_, after, .lineComment inLine ?_⟩
    cases after with
    | nil => exact .inl rfl
    | cons d behind => exact .inr (congrArg some (ends d rfl))
  by_cases block : c = '/' ∧ rest.head? = some '*'
  · obtain ⟨rfl, star⟩ := block
    obtain ⟨tail, rfl⟩ := List.head?_eq_some_iff.mp star
    rcases ended_or_endFree tail with ⟨body, after, rfl, endFree⟩ | endFree
    · exact ⟨_, _, .blockComment endFree⟩
    · exact ⟨_, _, .openComment endFree⟩
  · exact ⟨_, _, .code notQuote fun slash =>
      ⟨fun next => line ⟨slash, next⟩, fun next => block ⟨slash, next⟩⟩⟩

end Reads

theorem read_iff {c : Char} {rest after : List Char} {lexeme : Lexeme} :
    Lexeme.read c rest = (lexeme, after) ↔ Reads (c :: rest) lexeme after := by
  constructor
  · intro read
    obtain ⟨found, behind, reads⟩ := Reads.total c rest
    obtain ⟨_, _, same, other⟩ := reads.read
    cases same
    cases read.symm.trans other
    exact reads
  · intro reads
    obtain ⟨_, _, same, read⟩ := reads.read
    cases same
    exact read

end ContractInspector.Source
