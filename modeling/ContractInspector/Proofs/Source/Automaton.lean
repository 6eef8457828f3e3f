import ContractInspector.Proofs.Source.Masking

/-! Masking by an automaton that reads one character at a time and says of each what it is part of.
`mask_eq_zipWith` says that masking blanks the characters of comments, and of the contents of literals if
these are masked, and keeps every other character. -/
namespace ContractInspector.Source

/-- What a character is part of. The quotes of a literal and the newline behind a line comment are
code. -/
inductive Part where
  | code
  | comment
  | contents
deriving DecidableEq

/-- Where the automaton stands. -/
inductive Mode where
  | code
  /-- Behind a slash of which the next character says whether it opens a comment. -/
  | slash
  | lineComment
  /-- In a block comment, behind a star inside it or not. -/
  | blockComment (starred : Bool)
  /-- In a literal, behind a backslash that takes the next character along or not. -/
  | literal (quote : Char) (escaped : Bool)

namespace Mode

/-- Behind a character of code. -/
def behind (c : Char) : Mode :=
  if isQuote c then literal c false else code

/-- Read a character: what is now known of the characters read, and where the automaton stands. -/
def step : Mode → Char → List Part × Mode
  | code, c => if c = '/' then ([], slash) else ([.code], behind c)
  | slash, c =>
    if c = '/' then ([.comment, .comment], lineComment)
    else if c = '*' then ([.comment, .comment], blockComment false)
    else ([.code, .code], behind c)
  | lineComment, c => if c = '\n' then ([.code], code) else ([.comment], lineComment)
  | blockComment starred, c =>
    ([.comment], if starred && c = '/' then code else blockComment (c = '*'))
  | literal quote escaped, c =>
    if escaped then ([.contents], literal quote false)
    else if c = quote then ([.code], code)
    else ([.contents], literal quote (c = '\\'))

/-- What the characters of a text are part of when the automaton reads it from a mode on. -/
def parts : Mode → List Char → List Part
  | slash, [] => [.code]
  | _, [] => []
  | mode, c :: rest => (mode.step c).1 ++ (mode.step c).2.parts rest

end Mode

/-- What the characters of a text are part of. -/
def parts (text : List Char) : List Part :=
  Mode.code.parts text

/-- A character of some part as masking shows it. -/
def Part.shown (literals : Bool) : Part → Char → Char
  | code, c => c
  | comment, c => blanked c
  | contents, c => if literals then blanked c else c

/-- What the characters of a lexeme are part of. -/
def Lexeme.parts : Lexeme → List Part
  | code _ => [.code]
  | comment text => List.replicate text.length .comment
  | literal _ contents closed =>
    .code :: (List.replicate contents.length .contents ++ if closed then [.code] else [])

variable {text after : List Char} {lexeme : Lexeme}

namespace Mode

theorem parts_cons (mode : Mode) (c : Char) (rest : List Char) :
    mode.parts (c :: rest) = (mode.step c).1 ++ (mode.step c).2.parts rest := by
  cases mode <;> rfl

theorem parts_lineComment {body : List Char} (inLine : '\n' ∉ body)
    (ends : after = [] ∨ after.head? = some '\n') :
    lineComment.parts (body ++ after) = List.replicate body.length .comment ++ code.parts after := by
  induction body with
  | nil =>
    rcases ends with rfl | newline
    · rfl
    · obtain ⟨tail, rfl⟩ := List.head?_eq_some_iff.mp newline
      rfl
  | cons c body ih =>
    rw [List.mem_cons, not_or] at inLine
    rw [List.cons_append, parts_cons, step, if_neg (Ne.symm inLine.1), ih inLine.2]
    rfl

/-- No star inside the comment ends it, as no slash stands behind one. -/
theorem parts_blockComment {body : List Char} (endFree : EndFree body) (starred : Bool)
    (more : starred = true → body.head? ≠ some '/') (rest : List Char) :
    ∃ last, (blockComment starred).parts (body ++ rest) =
      List.replicate body.length .comment ++ (blockComment last).parts rest := by
  induction body generalizing starred with
  | nil => exact ⟨starred, rfl⟩
  | cons c body ih =>
    have inside : (starred && decide (c = '/')) = false := by
      cases starred with
      | false => rfl
      | true => simpa using more rfl
    obtain ⟨last, later⟩ := ih endFree.2 _ (fun star => endFree.1 (of_decide_eq_true star))
    refine ⟨last, ?_⟩
    rw [List.cons_append, parts_cons, step, inside, if_neg Bool.false_ne_true, later]
    rfl

theorem parts_inside {quote : Char} {contents : List Char} (inside : Inside quote contents)
    (escape : quote ≠ '\\') (rest : List Char) :
    (literal quote false).parts (contents ++ rest) =
      List.replicate contents.length .contents ++ (literal quote false).parts rest := by
  induction inside with
  | nil => rfl
  | escaped _ ih =>
    rw [List.cons_append, List.cons_append, parts_cons, parts_cons, step, if_neg Bool.false_ne_true,
      if_neg (Ne.symm escape)]
    exact congrArg ([.contents, .contents] ++ ·) ih
  | plain different lone _ ih =>
    rw [List.cons_append, parts_cons, step, if_neg Bool.false_ne_true, if_neg different,
      decide_eq_false lone, ih]
    rfl

theorem parts_unclosed {quote : Char} {contents : List Char} (unclosed : Unclosed quote contents)
    (escape : quote ≠ '\\') :
    (literal quote false).parts contents = List.replicate contents.length .contents := by
  rcases unclosed with inside | ⟨front, rfl, inside⟩
  · simpa [parts] using parts_inside inside escape []
  · rw [parts_inside inside escape, parts_cons, step, if_neg Bool.false_ne_true,
      if_neg (Ne.symm escape), List.length_append, List.replicate_add]
    rfl

/-- A slash that opens no comment is known for code when the next character is read. -/
theorem parts_slash (noComment : after.head? ≠ some '/' ∧ after.head? ≠ some '*') :
    slash.parts after = .code :: code.parts after := by
  cases after with
  | nil => rfl
  | cons c rest =>
    have notSlash : c ≠ '/' := fun same => noComment.1 (congrArg some same)
    have notStar : c ≠ '*' := fun same => noComment.2 (congrArg some same)
    rw [parts_cons, parts_cons, step, step, if_neg notSlash, if_neg notStar, if_neg notSlash]
    rfl

theorem parts_quote {quote : Char} (isQuoted : isQuote quote = true) (rest : List Char) :
    code.parts (quote :: rest) = .code :: (literal quote false).parts rest := by
  have notSlash : quote ≠ '/' := by
    rintro rfl
    contradiction
  rw [parts_cons, step, if_neg notSlash, behind, if_pos isQuoted]
  rfl

end Mode

/-- The automaton finds each lexeme of a text, and stands in code behind it. -/
theorem Reads.parts (reads : Reads text lexeme after) :
    Mode.code.parts text = lexeme.parts ++ Mode.code.parts after := by
  cases reads with
  | @code c _ notQuote noComment =>
    by_cases isSlash : c = '/'
    · subst isSlash
      exact Mode.parts_slash (noComment rfl)
    · rw [Mode.parts_cons, Mode.step, if_neg isSlash, Mode.behind, notQuote,
        if_neg Bool.false_ne_true]
      rfl
  | lineComment inLine ends =>
    exact congrArg ([.comment, .comment] ++ ·) (Mode.parts_lineComment inLine ends)
  | @blockComment body _ endFree =>
    obtain ⟨last, inside⟩ :=
      Mode.parts_blockComment endFree false nofun ('*' :: '/' :: after)
    have ends : (Mode.blockComment last).parts ('*' :: '/' :: after) =
        [.comment, .comment] ++ Mode.code.parts after := by
      cases last <;> rfl
    have length : List.replicate (body ++ ['*', '/']).length Part.comment =
        List.replicate body.length .comment ++ [.comment, .comment] := by
      rw [List.length_append, List.replicate_add]
      rfl
    rw [ends, ← List.append_assoc, ← length] at inside
    exact congrArg ([.comment, .comment] ++ ·) inside
  | @openComment body endFree =>
    obtain ⟨last, inside⟩ := Mode.parts_blockComment endFree false nofun []
    rw [List.append_nil] at inside
    exact congrArg ([.comment, .comment] ++ ·) inside
  | @literal quote contents _ isQuoted inside =>
    have closes : (Mode.literal quote false).parts (quote :: after) =
        .code :: Mode.code.parts after := by
      rw [Mode.parts_cons, Mode.step, if_neg Bool.false_ne_true, if_pos rfl]
      rfl
    rw [Mode.parts_quote isQuoted,
      Mode.parts_inside inside (quote_ne_backslash isQuoted), closes]
    simp [Lexeme.parts]
  | openLiteral isQuoted unclosed =>
    rw [Mode.parts_quote isQuoted, Mode.parts_unclosed unclosed (quote_ne_backslash isQuoted)]
    simp [Lexeme.parts, Mode.parts]

theorem Lexeme.length_parts (lexeme : Lexeme) : lexeme.parts.length = lexeme.source.length := by
  cases lexeme with
  | code c => rfl
  | comment text => simp [parts, source]
  | literal quote contents closed => cases closed <;> simp [parts, source]

@[simp]
theorem length_parts (text : List Char) : (parts text).length = text.length := by
  induction text using lexing_induction with
  | nil => rfl
  | @reads text lexeme after reads ih =>
    rw [parts, reads.parts, List.length_append, lexeme.length_parts, ← parts, ih, reads.source,
      List.length_append]

theorem zipWith_replicate_left (part : Part) (literals : Bool) (text : List Char) :
    List.zipWith (Part.shown literals) (List.replicate text.length part) text =
      text.map (part.shown literals) := by
  induction text with
  | nil => rfl
  | cons c text ih => exact congrArg (_ :: ·) ih

theorem Lexeme.masked_eq_zipWith (literals : Bool) (lexeme : Lexeme) :
    lexeme.masked literals = List.zipWith (Part.shown literals) lexeme.parts lexeme.source := by
  cases lexeme with
  | code c => rfl
  | comment text => exact (zipWith_replicate_left .comment literals text).symm
  | literal quote contents closed =>
    have shown : List.zipWith (Part.shown literals)
        (List.replicate contents.length .contents ++ if closed then [.code] else [])
        (contents ++ if closed then [quote] else []) =
          (if literals then contents.map blanked else contents) ++ if closed then [quote] else [] := by
      have kept : contents.map (Part.contents.shown false) = contents := List.map_id contents
      rw [List.zipWith_append List.length_replicate, zipWith_replicate_left]
      cases literals with
      | false => cases closed <;> simp [kept, Part.shown]
      | true => cases closed <;> rfl
    exact congrArg (quote :: ·) shown.symm

/-- Masking shows every character as the automaton says: those of comments as blanks, those between the
quotes of a literal as blanks if literals are masked, and all others as they are. A masked text has as many
characters as its source, and its newlines in the same places. -/
theorem mask_eq_zipWith (literals : Bool) (text : List Char) :
    mask literals text = List.zipWith (Part.shown literals) (parts text) text ∧
      (parts text).length = text.length ∧ (mask literals text).length = text.length ∧
      ∀ n : Nat, (mask literals text)[n]? = some '\n' ↔ text[n]? = some '\n' := by
  refine ⟨?_, length_parts text, length_mask literals text, ?_⟩
  · induction text using lexing_induction with
    | nil => simp
    | @reads text lexeme after reads ih =>
      have split : parts text = lexeme.parts ++ parts after := reads.parts
      rw [reads.mask, ih, split, lexeme.masked_eq_zipWith, ← List.zipWith_append lexeme.length_parts,
        ← reads.source]
  · intro n
    have newline (c? : Option Char) : c? = some '\n' ↔ c?.map (· == '\n') = some true := by
      simp
    have same := congrArg (·[n]?) (blanks_mask literals text).newlines
    simp only [List.getElem?_map] at same
    rw [newline, same, ← newline]

-- The star that opens a comment does not end it, and a backslash at the end takes nothing along.
example : parts "/*/ */'\\".toList =
    [.comment, .comment, .comment, .comment, .comment, .comment, .code, .contents] := by
  decide

end ContractInspector.Source
