import ContractInspector.Text.Cursor

/-! Patterns over texts and their matches. A pattern is tried at a place with a continuation that
stands for what must follow; among several ways to match, alternatives are tried from left to
right, `many` and `optional` prefer the longer way and `fewest` the shorter one. -/
namespace ContractInspector.Text

inductive Pattern where
  | empty
  | char (holds : Char → Bool)
  | text (part : List Char)
  | andThen (first second : Pattern)
  /-- One pattern or else another. -/
  | orElse (first second : Pattern)
  | optional (body : Pattern)
  | many (holds : Char → Bool)
  | fewest (holds : Char → Bool)
  /-- The pattern, remembered under a number. -/
  | capture (slot : Nat) (body : Pattern)
  | wordBoundary
  /-- A place not directly after a character of a class. -/
  | notAfter (holds : Char → Bool)
  | notBefore (holds : Char → Bool)

/-- A remembered part: its number, the text from its start on, and its two offsets. -/
structure Capture where
  slot : Nat
  rest : List Char
  start : Nat
  stop : Nat

namespace Capture

def text (capture : Capture) : List Char :=
  capture.rest.take (capture.stop - capture.start)

end Capture

/-- An occurrence of a pattern, with its latest capture first. -/
structure Match where
  start : Cursor
  stop : Cursor
  captures : List Capture

namespace Match

def capture? (found : Match) (slot : Nat) : Option Capture :=
  found.captures.find? (·.slot == slot)

def text? (found : Match) (slot : Nat) : Option (List Char) :=
  (found.capture? slot).map Capture.text

def text (found : Match) (slot : Nat) : List Char :=
  (found.text? slot).getD []

end Match

namespace Pattern

/-- One pattern and then another, as a chain whose links are no chains. -/
def append : Pattern → Pattern → Pattern
  | andThen first second, last => andThen first (second.append last)
  | first, last => andThen first last

instance : Append Pattern := ⟨append⟩

def word (part : String) : Pattern :=
  text part.toList

/-- These letters, in either case. -/
def anyCase (part : String) : Pattern :=
  part.toList.foldr (fun c following => char (sameLetter c) ++ following) empty

def oneOrMore (holds : Char → Bool) : Pattern :=
  char holds ++ many holds

def gap : Pattern :=
  oneOrMore isBlank

def space : Pattern :=
  many isBlank

def keyword (part : String) : Pattern :=
  wordBoundary ++ word part ++ wordBoundary

/-- Try a pattern at a place, with what was captured before and a continuation. -/
def run {α : Type} : Pattern → Cursor → List Capture → (Cursor → List Capture → Option α) →
    Option α
  | empty, cursor, captures, next => next cursor captures
  | char holds, cursor, captures, next =>
    match cursor.rest with
    | [] => none
    | c :: rest => if holds c then next (cursor.advance c rest 1) captures else none
  | text part, cursor, captures, next =>
    match cursor.skip? part with
    | none => none
    | some reached => next reached captures
  | andThen first second, cursor, captures, next =>
    first.run cursor captures fun reached captured => second.run reached captured next
  | orElse first second, cursor, captures, next =>
    match first.run cursor captures next with
    | some answer => some answer
    | none => second.run cursor captures next
  | optional body, cursor, captures, next =>
    match body.run cursor captures next with
    | some answer => some answer
    | none => next cursor captures
  | many holds, cursor, captures, next =>
    (cursor.stops holds).findSome? fun reached => next reached captures
  | fewest holds, cursor, captures, next =>
    (cursor.stops holds).reverse.findSome? fun reached => next reached captures
  | capture slot body, cursor, captures, next =>
    body.run cursor captures fun reached captured =>
      next reached (⟨slot, cursor.rest, cursor.offset, reached.offset⟩ :: captured)
  | wordBoundary, cursor, captures, next =>
    if cursor.atWordBoundary then next cursor captures else none
  | notAfter holds, cursor, captures, next =>
    if cursor.isAfter holds then none else next cursor captures
  | notBefore holds, cursor, captures, next =>
    if cursor.isBefore holds then none else next cursor captures

/-- The preferred match that starts at a place. -/
def matchAt? (pattern : Pattern) (cursor : Cursor) : Option Match :=
  pattern.run cursor [] fun reached captures => some ⟨cursor, reached, captures⟩

end Pattern

end ContractInspector.Text
