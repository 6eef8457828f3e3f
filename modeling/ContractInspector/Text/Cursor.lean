import ContractInspector.Text.Basic

/-! A place in a text: the character before it, the text after it, and its offset. -/
namespace ContractInspector.Text

structure Cursor where
  before : Option Char
  rest : List Char
  offset : Nat

namespace Cursor

def start (text : List Char) : Cursor :=
  ⟨none, text, 0⟩

/-- The place behind `count` characters of which `last` is the last one. -/
def advance (cursor : Cursor) (last : Char) (rest : List Char) (count : Nat) : Cursor :=
  ⟨some last, rest, cursor.offset + count⟩

/-- The place behind the characters `part`, if they stand here. -/
def skip? (cursor : Cursor) : List Char → Option Cursor
  | [] => some cursor
  | c :: part =>
    match cursor.rest with
    | [] => none
    | d :: rest => if c = d then skip? ⟨some d, rest, cursor.offset + 1⟩ part else none

/-- The places reached by passing characters of a class one by one, the farthest first; `passed`
holds the ones found so far. -/
def stopsOnto (holds : Char → Bool) (before : Option Char) :
    List Char → Nat → List Cursor → List Cursor
  | [], offset, passed => ⟨before, [], offset⟩ :: passed
  | c :: rest, offset, passed =>
    let reached := ⟨before, c :: rest, offset⟩ :: passed
    if holds c then stopsOnto holds (some c) rest (offset + 1) reached else reached

/-- The places reached by passing any number of characters of a class, the farthest first. -/
def stops (cursor : Cursor) (holds : Char → Bool) : List Cursor :=
  stopsOnto holds cursor.before cursor.rest cursor.offset []

/-- The place behind all characters of a class. -/
def skipOnto (holds : Char → Bool) (before : Option Char) : List Char → Nat → Cursor
  | [], offset => ⟨before, [], offset⟩
  | c :: rest, offset =>
    if holds c then skipOnto holds (some c) rest (offset + 1) else ⟨before, c :: rest, offset⟩

def skipWhile (cursor : Cursor) (holds : Char → Bool) : Cursor :=
  skipOnto holds cursor.before cursor.rest cursor.offset

def isAfter (cursor : Cursor) (holds : Char → Bool) : Bool :=
  cursor.before.any holds

def isBefore (cursor : Cursor) (holds : Char → Bool) : Bool :=
  cursor.rest.head?.any holds

def atWordBoundary (cursor : Cursor) : Bool :=
  cursor.isAfter isWord != cursor.isBefore isWord

end Cursor

end ContractInspector.Text
