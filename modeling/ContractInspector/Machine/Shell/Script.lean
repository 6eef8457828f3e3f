import ContractInspector.Machine.Shell.Token

/-! Reading scripts: the commands that the tokens of a script spell. Each line is read for itself,
so that the lines before one with a mistake are run. -/
namespace ContractInspector.Machine.Shell

abbrev Tokens := List (Token × Nat)

/-- A mistake in a script, with its line. -/
abbrev Mistake := Nat × String

namespace Script

/-- The words that stand for the structure of commands where a command may start. -/
def reserved : List String :=
  ["if", "then", "elif", "else", "fi", "while", "until", "do", "done", "for", "case", "esac",
    "\x7b", "\x7d", "!"]

def closers : List String :=
  ["then", "elif", "else", "fi", "do", "done", "esac", "\x7d"]

def keyword? : Tokens → Option String
  | (.word word, _) :: _ => word.plain?.filter reserved.contains
  | _ => none

def lineOf : Tokens → Nat
  | (_, line) :: _ => line
  | [] => 0

/-- What an operator connects, if it is a redirection. -/
def direction? : String → Option Direction
  | "<" => some .input
  | ">" => some .output
  | ">|" => some .overwrite
  | ">>" => some .append
  | ">&" => some .duplicate
  | "<&" => some .duplicate
  | "<<" => some .document
  | _ => none

def Token.shown : Token → String
  | .word word =>
    match word.plain?.filter reserved.contains with
    | some text => "\"" ++ text ++ "\" unexpected"
    | none => "word unexpected"
  | .operator text =>
    if (direction? text).isSome then "redirection unexpected" else "\"" ++ text ++ "\" unexpected"
  | .descriptor _ => "redirection unexpected"
  | .newline => "newline unexpected"
  | .unclosed lack => lack.message
  | .finish => "end of file unexpected"

/-- The mistake that the front of the script is not what is expected there. -/
def unexpected {α : Type} (expected : Option String) (tokens : Tokens) :
    Except Mistake (α × Tokens) :=
  match tokens with
  | (.unclosed lack, line) :: _ => .error (line, lack.message)
  | (token, line) :: _ =>
    let hint := (expected.map fun word => " (expecting \"" ++ word ++ "\")").getD ""
    .error (line, Token.shown token ++ hint)
  | [] => .error (0, Token.shown .finish)

def skipNewlines : Tokens → Tokens
  | (.newline, _) :: rest => skipNewlines rest
  | tokens => tokens

def isEnd (tokens : Tokens) : Bool :=
  match tokens with
  | [] => true
  | (.finish, _) :: _ | (.unclosed _, _) :: _ => true
  | (.operator text, _) :: _ => text == ")" || text == ";;"
  | _ => (keyword? tokens).any closers.contains

def expect (word : String) (tokens : Tokens) : Except Mistake (Unit × Tokens) :=
  if keyword? tokens = some word then .ok ((), tokens.drop 1) else unexpected (some word) tokens

def expectOperator (text : String) (tokens : Tokens) : Except Mistake (Unit × Tokens) :=
  match tokens with
  | (.operator found, _) :: rest =>
    if found = text then .ok ((), rest) else unexpected (some text) tokens
  | _ => unexpected (some text) tokens

def redirect? (tokens : Tokens) : Option (Except Mistake (Redirect × Tokens)) :=
  let read (descriptor : Option Nat) (rest : Tokens) :
      Option (Except Mistake (Redirect × Tokens)) :=
    match rest with
    | (.operator text, _) :: rest =>
      (direction? text).map fun direction =>
        let usual := if text.toList.head? = some '<' then 0 else 1
        match rest with
        | (.word word, _) :: rest => .ok (⟨descriptor.getD usual, direction, word⟩, rest)
        | _ => unexpected none rest
    | _ => none
  match tokens with
  | (.descriptor number, _) :: rest => read (some number) rest
  | _ => read none tokens

def redirects : (fuel : Nat) → Tokens → Except Mistake (List Redirect × Tokens)
  | 0, tokens => .ok ([], tokens)
  | fuel + 1, tokens =>
    match redirect? tokens with
    | none => .ok ([], tokens)
    | some (.error mistake) => .error mistake
    | some (.ok (redirect, rest)) => do
      let (others, rest) ← redirects fuel rest
      return (redirect :: others, rest)

/-- A word that assigns to a variable, as the variable and the word for its value. -/
def assignment? (word : Word) : Option (String × Word) :=
  match word with
  | ⟨false, .text chars⟩ :: parts =>
    match takeName? chars with
    | some (name, '=' :: value) =>
      if (name.toList.head?.map isNameStart).getD false then
        some (name, if value.isEmpty then parts else ⟨false, .text value⟩ :: parts)
      else none
    | _ => none
  | _ => none

/-- The special commands of the shell, which no function may be named like. -/
def specials : List String :=
  [".", ":", "break", "continue", "eval", "exec", "exit", "export", "local", "readonly", "return",
    "set", "shift", "times", "trap", "unset"]

def functionName? (word : Word) : Option String :=
  word.plain?.filter fun name => isName name.toList && !specials.contains name

/-- What a simple command consists of, each list in reverse order. -/
structure Simple where
  assignments : List (String × Word) := []
  words : List Word := []
  redirects : List Redirect := []

def simple : (fuel : Nat) → Simple → Tokens → Except Mistake (Simple × Tokens)
  | 0, parts, tokens => .ok (parts, tokens)
  | fuel + 1, parts, tokens =>
    match redirect? tokens with
    | some (.error mistake) => .error mistake
    | some (.ok (redirect, rest)) =>
      simple fuel { parts with redirects := redirect :: parts.redirects } rest
    | none =>
      match tokens with
      | (.word word, _) :: rest =>
        match if parts.words.isEmpty then assignment? word else none with
        | some assigned =>
          simple fuel { parts with assignments := assigned :: parts.assignments } rest
        | none => simple fuel { parts with words := word :: parts.words } rest
      | (.unclosed _, _) :: _ => unexpected none tokens
      | _ => .ok (parts, tokens)

def wordsHere : Tokens → List Word × Tokens
  | (.word word, _) :: rest =>
    let (words, rest) := wordsHere rest
    (word :: words, rest)
  | tokens => ([], tokens)

/-- Patterns with bars between them, and the bracket behind them. -/
def patterns : (fuel : Nat) → Tokens → Except Mistake (List Word × Tokens)
  | 0, tokens => unexpected none tokens
  | fuel + 1, tokens =>
    match tokens with
    | (.word word, _) :: (.operator "|", _) :: rest => do
      let (others, rest) ← patterns fuel rest
      return (word :: others, rest)
    | (.word word, _) :: (.operator ")", _) :: rest => .ok ([word], rest)
    | (.word _, _) :: rest => unexpected (some ")") rest
    | _ => unexpected (some ")") tokens

def skipSeparator : Tokens → Tokens
  | (.operator ";", _) :: rest => skipNewlines rest
  | tokens => skipNewlines tokens

mutual

def list : (fuel : Nat) → Tokens → Except Mistake (Command × Tokens)
  | 0, tokens => unexpected none tokens
  | fuel + 1, tokens =>
    let tokens := skipNewlines tokens
    if isEnd tokens then .ok (.nothing, tokens)
    else do
      let (first, rest) ← item fuel tokens
      let (others, rest) ← list fuel rest
      return (.sequence first others, rest)

/-- A chain of pipelines with what separates it from the next one. -/
def item : (fuel : Nat) → Tokens → Except Mistake (Command × Tokens)
  | 0, tokens => unexpected none tokens
  | fuel + 1, tokens => do
    let (first, rest) ← chain fuel tokens
    match rest with
    | (.operator ";", _) :: rest => return (first, rest)
    | (.operator "&", _) :: rest => return (.background first, rest)
    | (.newline, _) :: _ => return (first, rest)
    | _ => if isEnd rest then return (first, rest) else unexpected none rest

/-- A list of commands that may not be empty. -/
def body : (fuel : Nat) → Tokens → Except Mistake (Command × Tokens)
  | 0, tokens => unexpected none tokens
  | fuel + 1, tokens =>
    if isEnd (skipNewlines tokens) then unexpected none (skipNewlines tokens)
    else list fuel tokens

/-- Pipelines with `&&` and `||` between them. -/
def chain : (fuel : Nat) → Tokens → Except Mistake (Command × Tokens)
  | 0, tokens => unexpected none tokens
  | fuel + 1, tokens => do
    let (first, rest) ← pipeline fuel tokens
    chainFrom fuel first rest

def chainFrom : (fuel : Nat) → (first : Command) → Tokens → Except Mistake (Command × Tokens)
  | 0, _, tokens => unexpected none tokens
  | fuel + 1, first, tokens =>
    match tokens with
    | (.operator "&&", _) :: rest => do
      let (second, rest) ← pipeline fuel (skipNewlines rest)
      chainFrom fuel (.both first second) rest
    | (.operator "||", _) :: rest => do
      let (second, rest) ← pipeline fuel (skipNewlines rest)
      chainFrom fuel (.either first second) rest
    | _ => .ok (first, tokens)

def pipeline : (fuel : Nat) → Tokens → Except Mistake (Command × Tokens)
  | 0, tokens => unexpected none tokens
  | fuel + 1, tokens =>
    if keyword? tokens = some "!" then
      let rest := tokens.drop 1
      if keyword? rest = some "!" then unexpected none rest
      else do
        let (inner, rest) ← pipeline fuel rest
        return (.negated inner, rest)
    else do
      let (first, rest) ← command fuel tokens
      match rest with
      | (.operator "|", _) :: rest =>
        let (others, rest) ← pipeline fuel (skipNewlines rest)
        return (.pipe first others, rest)
      | _ => return (first, rest)

def command : (fuel : Nat) → Tokens → Except Mistake (Command × Tokens)
  | 0, tokens => unexpected none tokens
  | fuel + 1, tokens =>
    match compound? fuel tokens with
    | some parsed => do
      let (body, rest) ← parsed
      let (found, rest) ← redirects fuel rest
      return (.located (lineOf tokens)
        (if found.isEmpty then body else .redirected body found), rest)
    | none =>
      match tokens with
      | (.word name, line) :: (.operator "(", _) :: rest =>
        if (assignment? name).isSome then unexpected none (tokens.drop 1)
        else
          match rest with
          | (.operator ")", _) :: rest =>
            match functionName? name with
            | some name => do
              let (body, rest) ← command fuel (skipNewlines rest)
              return (.define name body, rest)
            | none => .error (line, "Bad function name")
          | _ => unexpected (some ")") rest
      | _ => do
        let (parts, rest) ← simple fuel {} tokens
        if parts.words.isEmpty && parts.assignments.isEmpty && parts.redirects.isEmpty then
          unexpected none tokens
        else
          return (.simple (lineOf tokens) parts.assignments.reverse parts.words.reverse
            parts.redirects.reverse, rest)

/-- A command that starts with a reserved word or a bracket. -/
def compound? : (fuel : Nat) → Tokens → Option (Except Mistake (Command × Tokens))
  | 0, _ => none
  | fuel + 1, tokens =>
    match tokens with
    | (.operator "(", _) :: rest => some do
      let (inner, rest) ← body fuel rest
      let ((), rest) ← expectOperator ")" rest
      return (.subshell inner, rest)
    | _ =>
      let rest := tokens.drop 1
      match keyword? tokens with
      | some "\x7b" => some do
        let (inner, rest) ← body fuel rest
        let ((), rest) ← expect "\x7d" rest
        return (inner, rest)
      | some "if" => some (choice fuel rest)
      | some "while" => some (loop fuel false rest)
      | some "until" => some (loop fuel true rest)
      | some "for" => some (each fuel rest)
      | some "case" => some (select fuel rest)
      | some word => if word = "!" then none else some (unexpected none tokens)
      | none => none

def choice : (fuel : Nat) → Tokens → Except Mistake (Command × Tokens)
  | 0, tokens => unexpected none tokens
  | fuel + 1, tokens => do
    let (condition, rest) ← body fuel tokens
    let ((), rest) ← expect "then" rest
    let (yes, rest) ← body fuel rest
    match keyword? rest with
    | some "elif" =>
      let (no, rest) ← choice fuel (rest.drop 1)
      return (.choice condition yes no, rest)
    | some "else" =>
      let (no, rest) ← body fuel (rest.drop 1)
      let ((), rest) ← expect "fi" rest
      return (.choice condition yes no, rest)
    | _ =>
      let ((), rest) ← expect "fi" rest
      return (.choice condition yes .nothing, rest)

def loop : (fuel : Nat) → (negative : Bool) → Tokens → Except Mistake (Command × Tokens)
  | 0, _, tokens => unexpected none tokens
  | fuel + 1, negative, tokens => do
    let (condition, rest) ← body fuel tokens
    let ((), rest) ← expect "do" rest
    let (inner, rest) ← body fuel rest
    let ((), rest) ← expect "done" rest
    return (.loop negative condition inner, rest)

def each : (fuel : Nat) → Tokens → Except Mistake (Command × Tokens)
  | 0, tokens => unexpected none tokens
  | fuel + 1, tokens =>
    match tokens with
    | (.word name, line) :: rest =>
      match name.plain?.filter (isName ·.toList) with
      | none => .error (line, "Bad for loop variable")
      | some name => do
        let everything : Word := [⟨true, .variable "@"⟩]
        let (words, rest) :=
          match skipNewlines rest with
          | (.word word, line) :: behind =>
            if word.plain? = some "in" then wordsHere behind
            else ([everything], (.word word, line) :: behind)
          | rest => ([everything], rest)
        let ((), rest) ← expect "do" (skipSeparator rest)
        let (inner, rest) ← body fuel rest
        let ((), rest) ← expect "done" rest
        return (.each name words inner, rest)
    | (_, line) :: _ => .error (line, "Bad for loop variable")
    | [] => unexpected none tokens

def select : (fuel : Nat) → Tokens → Except Mistake (Command × Tokens)
  | 0, tokens => unexpected none tokens
  | fuel + 1, tokens =>
    match tokens with
    | (.word word, _) :: rest =>
      match skipNewlines rest with
      | (.word follower, line) :: rest =>
        if follower.plain? = some "in" then do
          let (cases, rest) ← branches fuel (skipNewlines rest)
          return (.select word cases, rest)
        else unexpected (some "in") ((.word follower, line) :: rest)
      | rest => unexpected (some "in") rest
    | _ => unexpected none tokens

def branches : (fuel : Nat) → Tokens → Except Mistake (List (List Word × Command) × Tokens)
  | 0, tokens => unexpected none tokens
  | fuel + 1, tokens =>
    if keyword? tokens = some "esac" then .ok ([], tokens.drop 1)
    else do
      let start :=
        match tokens with
        | (.operator "(", _) :: rest => rest
        | _ => tokens
      let (words, rest) ← patterns fuel start
      let (inner, rest) ← list fuel rest
      match rest with
      | (.operator ";;", _) :: rest =>
        let (others, rest) ← branches fuel (skipNewlines rest)
        return ((words, inner) :: others, rest)
      | _ =>
        if keyword? rest = some "esac" then return ([(words, inner)], rest.drop 1)
        else unexpected (some ";;") rest

end

def lineItems : (fuel : Nat) → Tokens → Except Mistake (Command × Tokens)
  | 0, tokens => unexpected none tokens
  | fuel + 1, tokens =>
    match tokens with
    | (.newline, _) :: rest => .ok (.nothing, rest)
    | (.finish, _) :: _ | [] => .ok (.nothing, tokens)
    | _ =>
      if isEnd tokens then unexpected none tokens
      else do
        let (first, rest) ← item fuel tokens
        let (others, rest) ← lineItems fuel rest
        return (.sequence first others, rest)

end Script

/-- What has not been read of a script. `bound` is at least the number of its tokens. -/
structure Unread where
  tokens : Tokens
  bound : Nat

namespace Unread

/-- A script that starts on a line. -/
def ofText (line : Nat) (script : ByteText) : Unread :=
  let tokens := Shell.tokens line script
  ⟨tokens, tokens.length⟩

/-- The tokens of a text in the place of the first word, if the word stands for it. Each word is
replaced once at most. -/
def replaceFirst (shorthands : Bindings) : (fuel : Nat) → (seen : List String) → Tokens → Tokens
  | 0, _, tokens => tokens
  | fuel + 1, seen, tokens =>
    match tokens with
    | (.word word, line) :: rest =>
      match word.plain? with
      | none => tokens
      | some name =>
        match if seen.contains name then none else shorthands.lookup name with
        | none => tokens
        | some text =>
          let inside := (Shell.tokens line text).dropLast.map fun (token, _) => (token, line)
          replaceFirst shorthands fuel (name :: seen) (inside ++ rest)
    | _ => tokens

/-- The commands of the next line, and what is behind it. A line with a mistake is the last one. -/
def next? (shorthands : Bindings) (unread : Unread) : Option (Command × Unread) :=
  match replaceFirst shorthands (shorthands.length + 1) [] unread.tokens with
  | [] | (.finish, _) :: _ => none
  | tokens =>
    match Script.lineItems (20 * unread.bound + 20 * shorthands.length + 20) tokens with
    | .ok (read, rest) => some (read, ⟨rest, unread.bound⟩)
    | .error (line, message) => some (.faulty line message, ⟨[], 0⟩)

end Unread

end ContractInspector.Machine.Shell
