import ContractInspector.Text.Utf8

/-! Commands of the shell language. Texts of the shell are sequences of bytes, each written as the
character of the same number. -/
namespace ContractInspector.Machine.Shell

/-- A sequence of bytes, as characters below 256. -/
abbrev ByteText := List Char

namespace ByteText

def ofBytes (bytes : List UInt8) : ByteText :=
  bytes.map fun byte => Char.ofNat byte.toNat

def toBytes (text : ByteText) : List UInt8 :=
  text.map fun c => c.toNat.toUInt8

/-- The bytes of a text in UTF-8. -/
def ofString (text : String) : ByteText :=
  ofBytes (Text.Utf8.encode text.toList)

/-- The text that the bytes spell in UTF-8. -/
def toString (text : ByteText) : String :=
  String.ofList (Text.Utf8.repair (toBytes text))

end ByteText

/-- A piece of a word. -/
inductive Piece where
  | text (chars : ByteText)
  | variable (name : String)
  /-- A variable with an operator and a word, such as `$\{name:-word}` without the backslash. -/
  | modified (name : String) (operator : String) (word : ByteText)
  | length (name : String)
  /-- The output of a script, which starts on a line. -/
  | substitution (line : Nat) (script : ByteText)
  | arithmetic (expression : ByteText)
  /-- An expansion that is not written correctly. -/
  | wrong
deriving DecidableEq

/-- A piece, and whether it stands between quotes. -/
structure Part where
  quoted : Bool
  piece : Piece
deriving DecidableEq

abbrev Word := List Part

/-- The text of a word that has no quotes and nothing to expand. -/
def Word.plain? : Word → Option String
  | [⟨false, .text chars⟩] => some (String.ofList chars)
  | _ => none

inductive Direction where
  | input
  | output
  /-- Write a file even if files that are there are to be kept. -/
  | overwrite
  | append
  | duplicate
  /-- The input is the target itself. -/
  | document
deriving DecidableEq

/-- Connect a descriptor with a file, or with another descriptor. -/
structure Redirect where
  descriptor : Nat
  direction : Direction
  target : Word

inductive Command where
  | nothing
  /-- A command that starts on a line. -/
  | located (line : Nat) (body : Command)
  | simple (line : Nat) (assignments : List (String × Word)) (words : List Word)
      (redirects : List Redirect)
  | sequence (first second : Command)
  /-- The second command if the first one succeeds. -/
  | both (first second : Command)
  /-- The second command if the first one fails. -/
  | either (first second : Command)
  | negated (body : Command)
  | pipe (first second : Command)
  | subshell (body : Command)
  | background (body : Command)
  | redirected (body : Command) (redirects : List Redirect)
  | choice (condition yes no : Command)
  /-- Repeat the body as long as the condition succeeds, or fails if `negative` is set. -/
  | loop (negative : Bool) (condition body : Command)
  | each (name : String) (words : List Word) (body : Command)
  /-- The first command whose patterns fit the word. -/
  | select (word : Word) (cases : List (List Word × Command))
  | define (name : String) (body : Command)
  /-- A part of the script that is not written correctly. -/
  | faulty (line : Nat) (message : String)

end ContractInspector.Machine.Shell
