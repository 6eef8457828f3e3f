import ContractInspector.Machine.Shell.Bindings

/-! Tokens of shell scripts: words with their expansions, operators and line ends. -/
namespace ContractInspector.Machine.Shell

inductive Lack where
  | quote
  | backquote
  | brace
  | bracket
deriving DecidableEq

def Lack.message : Lack → String
  | quote => "Unterminated quoted string"
  | backquote => "EOF in backquote substitution"
  | brace => "Missing '\x7d'"
  | bracket => "end of file unexpected (expecting \")\")"

inductive Token where
  | word (word : Word)
  | operator (text : String)
  /-- A number directly before a redirection. -/
  | descriptor (number : Nat)
  | newline
  /-- A quote or bracket that is never closed. -/
  | unclosed (lack : Lack)
  | finish
deriving DecidableEq

/-- Characters that end a word unless they are quoted. -/
def isMeta (c : Char) : Bool :=
  [' ', '\t', '\n', ';', '&', '|', '<', '>', '(', ')'].contains c

/-- A text and what is left of the script, or nothing if its end is missing. -/
abbrev Taken := Option (ByteText × ByteText)

def takeQuoted (quote : Char) : ByteText → (seen : ByteText) → Taken
  | [], _ => none
  | c :: rest, seen =>
    if c = quote then some (seen.reverse, rest) else takeQuoted quote rest (c :: seen)

/-- The text up to the bracket that closes `depth + 1` open ones. Brackets between quotes are not
counted; single quotes count as quotes only if `single` is set. -/
def takeBracketed (single : Bool) (opener closer : Char) :
    (quote : Option Char) → (depth : Nat) → ByteText → (seen : ByteText) → Taken
  | _, _, [], _ => none
  | some '\'', depth, c :: rest, seen =>
    takeBracketed single opener closer (if c = '\'' then none else some '\'') depth rest (c :: seen)
  | quote, depth, '\\' :: c :: rest, seen =>
    takeBracketed single opener closer quote depth rest (c :: '\\' :: seen)
  | some quote, depth, c :: rest, seen =>
    let quote := if c = quote then none else some quote
    takeBracketed single opener closer quote depth rest (c :: seen)
  | none, depth, c :: rest, seen =>
    if (single && c = '\'') || c = '"' then
      takeBracketed single opener closer (some c) depth rest (c :: seen)
    else if c = opener then takeBracketed single opener closer none (depth + 1) rest (c :: seen)
    else if c = closer then
      match depth with
      | 0 => some (seen.reverse, rest)
      | depth + 1 => takeBracketed single opener closer none depth rest (c :: seen)
    else takeBracketed single opener closer none depth rest (c :: seen)

def isSpecial (c : Char) : Bool :=
  ['#', '?', '$', '*', '@', '!', '-'].contains c

/-- The operators behind a variable in braces, the longer ones first. -/
def modifiers : List String :=
  [":-", ":=", ":?", ":+", "##", "%%", "-", "=", "?", "+", "#", "%"]

def takeName? : ByteText → Option (String × ByteText)
  | [] => none
  | c :: rest =>
    if isNameStart c then
      some (String.ofList (c :: rest.takeWhile isNameChar), rest.dropWhile isNameChar)
    else if c.isDigit then
      some (String.ofList (c :: rest.takeWhile Char.isDigit), rest.dropWhile Char.isDigit)
    else if isSpecial c then some (String.singleton c, rest)
    else none

def bracedPiece (inside : ByteText) : Piece :=
  match inside with
  | ['#'] => .variable "#"
  | '#' :: name =>
    match takeName? name with
    | some (name, []) => .length name
    | _ => .wrong
  | _ =>
    match takeName? inside with
    | none => .wrong
    | some (name, []) => .variable name
    | some (name, rest) =>
      match modifiers.find? fun operator => operator.toList.isPrefixOf rest with
      | some operator => .modified name operator (rest.drop operator.length)
      | none => .wrong

/-- The expansion behind a dollar sign on a line, or the dollar sign itself. -/
def takeDollar (double : Bool) (line : Nat) (rest : ByteText) : Except Lack (Piece × ByteText) :=
  match rest with
  | '(' :: '(' :: inside =>
    match takeBracketed true '(' ')' none 1 inside [] with
    | some (expression, rest) => .ok (.arithmetic expression.dropLast, rest)
    | none => .error .bracket
  | '(' :: inside =>
    match takeBracketed true '(' ')' none 0 inside [] with
    | some (script, rest) => .ok (.substitution line script, rest)
    | none => .error .bracket
  | '{' :: inside =>
    match takeBracketed (!double) '{' '}' none 0 inside [] with
    | some (inside, rest) => .ok (bracedPiece inside, rest)
    | none => .error .brace
  | c :: digits =>
    if c.isDigit then .ok (.variable (String.singleton c), digits)
    else
      match takeName? rest with
      | some (name, rest) => .ok (.variable name, rest)
      | none => .ok (.text ['$'], rest)
  | [] => .ok (.text ['$'], [])

/-- The script between backquotes: a backslash before a backquote, a dollar sign or a backslash is
dropped. -/
def unescapeBackquoted : ByteText → ByteText
  | [] => []
  | '\\' :: c :: rest =>
    if c = '`' || c = '$' || c = '\\' then c :: unescapeBackquoted rest
    else '\\' :: c :: unescapeBackquoted rest
  | c :: rest => c :: unescapeBackquoted rest

/-- The text up to a backquote that no backslash stands before. -/
def takeBackquoted : ByteText → (seen : ByteText) → Taken
  | [], _ => none
  | '\\' :: c :: rest, seen => takeBackquoted rest (c :: '\\' :: seen)
  | c :: rest, seen =>
    if c = '`' then some (unescapeBackquoted seen.reverse, rest)
    else takeBackquoted rest (c :: seen)

/-- Add a character to the parts of a word, which are in reverse order and whose texts are
reversed. -/
def addChar (quoted : Bool) (c : Char) : Word → Word
  | ⟨before, .text chars⟩ :: parts =>
    if before = quoted then ⟨quoted, .text (c :: chars)⟩ :: parts
    else ⟨quoted, .text [c]⟩ :: ⟨before, .text chars⟩ :: parts
  | parts => ⟨quoted, .text [c]⟩ :: parts

def finishWord (parts : Word) : Word :=
  parts.reverse.map fun part =>
    match part.piece with
    | .text chars => ⟨part.quoted, .text chars.reverse⟩
    | _ => part

/-- Read a word that starts on a line; `double` is set between double quotes, and `whole` if nothing
but the end of the text ends the word. The parts so far are in reverse order. -/
def takeWord (whole : Bool) :
    (fuel : Nat) → (double : Bool) → (line : Nat) → ByteText → Word →
      Except Lack (Word × ByteText)
  | 0, _, _, _, _ => .error .quote
  | _ + 1, double, _, [], parts => if double then .error .quote else .ok (finishWord parts, [])
  | fuel + 1, double, line, c :: rest, parts =>
    if c = '"' then
      takeWord whole fuel (!double) line rest
        (if double then parts else ⟨true, .text []⟩ :: parts)
    else if c = '\'' && !double then
      match takeQuoted '\'' rest [] with
      | some (chars, rest) =>
        takeWord whole fuel double (line + chars.count '\n') rest
          (⟨true, .text chars.reverse⟩ :: parts)
      | none => .error .quote
    else if c = '\\' then
      match rest with
      | [] => takeWord whole fuel double line [] (addChar double '\\' parts)
      | '\n' :: rest => takeWord whole fuel double (line + 1) rest parts
      | d :: rest =>
        let kept := double && !(['$', '`', '"', '\\'].contains d)
        let parts := if kept then addChar true '\\' parts else parts
        takeWord whole fuel double line rest (addChar true d parts)
    else if c = '$' then
      match takeDollar double line rest with
      | .ok (.text chars, rest) =>
        takeWord whole fuel double line rest
          (chars.foldl (fun parts c => addChar double c parts) parts)
      | .ok (.variable name, rest) =>
        takeWord whole fuel double line rest (⟨double, .variable name⟩ :: parts)
      | .ok (piece, behind) =>
        let passed := rest.count '\n' - behind.count '\n'
        takeWord whole fuel double (line + passed) behind (⟨double, piece⟩ :: parts)
      | .error lack => .error lack
    else if c = '`' then
      match takeBackquoted rest [] with
      | some (script, behind) =>
        let passed := rest.count '\n' - behind.count '\n'
        takeWord whole fuel double (line + passed) behind
          (⟨double, .substitution 1 script⟩ :: parts)
      | none => .error .backquote
    else if !double && !whole && isMeta c then .ok (finishWord parts, c :: rest)
    else
      takeWord whole fuel double (if c = '\n' then line + 1 else line) rest (addChar double c parts)

def operators : List String :=
  ["<<-", "&&", "||", ";;", "<<", ">>", ">&", "<&", ">|", "<", ">", ";", "&", "|", "(", ")"]

/-- A word that is a number directly before a redirection. -/
def descriptor? (word : Word) (rest : ByteText) : Option Nat :=
  match word.plain?, rest with
  | some digits, c :: _ => if c = '<' || c = '>' then digits.toNat? else none
  | _, _ => none

/-- A text for a place between double quotes, in which double quotes mean nothing. -/
def protectQuotes : ByteText → ByteText
  | [] => []
  | '\\' :: c :: rest =>
    if c = '"' then '\\' :: '\\' :: '\\' :: '"' :: protectQuotes rest
    else '\\' :: c :: protectQuotes rest
  | c :: rest => if c = '"' then '\\' :: '"' :: protectQuotes rest else c :: protectQuotes rest

/-- The lines up to one that is the delimiter, and what is behind it. Without a delimiter the
document ends with the script. -/
def takeDocument (delimiter : ByteText) (stripped : Bool) : List ByteText →
    ByteText × List ByteText
  | [] => ([], [])
  | line :: lines =>
    let line := if stripped then line.dropWhile (· == '\t') else line
    if line = delimiter then ([], lines)
    else
      let (document, behind) := takeDocument delimiter stripped lines
      (if lines.isEmpty then line else line ++ '\n' :: document, behind)

/-- The text of a word as it is written, and whether a part of it is quoted. -/
def Word.literal (word : Word) : ByteText × Bool :=
  (word.flatMap fun part =>
    match part.piece with
    | .text chars => chars
    | _ => [], word.any (·.quoted))

/-- A document that a script holds as an input: the word for it, the script without it, and the
number of its lines. `rest` starts with the word that ends the document, which starts on a line. -/
def takeInput (stripped : Bool) (line : Nat) (rest : ByteText) :
    Except Lack (Word × ByteText × Nat) := do
  let start := rest.dropWhile fun c => c == ' ' || c == '\t'
  let (word, after) ← takeWord false (start.length + 2) false line start []
  let (delimiter, quoted) := word.literal
  let front := after.takeWhile (· ≠ '\n')
  let lines := Text.splitAt '\n' (after.drop (front.length + 1))
  let (document, behind) := takeDocument delimiter stripped lines
  let count := lines.length - behind.length
  let behind := front ++ '\n' :: ['\n'].intercalate behind
  if quoted then return ([⟨true, .text document⟩], behind, count)
  else
    let inside := '"' :: protectQuotes document ++ ['"']
    let (word, _) ← takeWord true (inside.length + 2) false line inside []
    return (word, behind, count)

/-- The tokens of a script with the lines on which they start, behind `found`, which holds earlier
ones, last first. A word may start only where `line` is; behind its end `owed` lines of documents
are passed over. -/
def tokensOnto : (fuel : Nat) → ByteText → (line owed : Nat) → (found : List (Token × Nat)) →
    List (Token × Nat)
  | 0, _, line, _, found => ((.finish, line) :: found).reverse
  | _ + 1, [], line, _, found => ((.finish, line) :: found).reverse
  | fuel + 1, c :: rest, line, owed, found =>
    if c = ' ' || c = '\t' then tokensOnto fuel rest line owed found
    else if c = '\\' && rest.head? = some '\n' then
      tokensOnto fuel (rest.drop 1) (line + 1) owed found
    else if c = '#' then tokensOnto fuel (rest.dropWhile (· ≠ '\n')) line owed found
    else if c = '\n' then
      tokensOnto fuel rest (line + owed + 1) 0 ((.newline, line) :: found)
    else
      match operators.find? fun operator => operator.toList.isPrefixOf (c :: rest) with
      | some "<<" | some "<<-" =>
        let stripped := (rest.drop 1).head? = some '-'
        let after := rest.drop (if stripped then 2 else 1)
        let delimiter? := (after.dropWhile fun c => c == ' ' || c == '\t').head?
        if delimiter?.all isMeta then
          tokensOnto fuel after line owed ((.operator "<<", line) :: found)
        else
          match takeInput stripped (line + owed + 1) after with
          | .error lack => ((.unclosed lack, line) :: found).reverse
          | .ok (word, rest, count) =>
            tokensOnto fuel rest line (owed + count)
              ((.word word, line) :: (.operator "<<", line) :: found)
      | some operator =>
        let after := (c :: rest).drop operator.length
        tokensOnto fuel after line owed ((.operator operator, line) :: found)
      | none =>
        match takeWord false (rest.length + 2) false line (c :: rest) [] with
        | .error lack => ((.unclosed lack, line + rest.count '\n') :: found).reverse
        | .ok (word, after) =>
          let passed := (c :: rest).take (rest.length + 1 - after.length)
          let token :=
            match descriptor? word after with
            | some number => .descriptor number
            | none => .word word
          tokensOnto fuel after (line + passed.count '\n') owed ((token, line) :: found)

/-- The tokens of a script that starts on a line, each with its line. The last one is `finish` or
`unclosed`. -/
def tokens (line : Nat) (script : ByteText) : List (Token × Nat) :=
  tokensOnto (script.length + 1) script line 0 []

end ContractInspector.Machine.Shell
