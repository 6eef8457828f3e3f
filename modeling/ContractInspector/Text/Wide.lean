import ContractInspector.Text.Basic

/-! Texts in which halves of surrogate pairs may stand alone. JSON can write them, and a path whose bytes
are not UTF-8 is shown with them, but they have no bytes in UTF-8. -/
namespace ContractInspector.Text

/-- Half of a surrogate pair, counted from the first one. -/
abbrev Half := Fin 0x800

/-- What stands at one place of a wide text. -/
inductive Point where
  | char (c : Char)
  | lone (half : Half)
deriving DecidableEq

namespace Point

instance : Coe Char Point := ⟨char⟩

/-- The number of the first half. -/
def firstHalf : Nat := 0xd800

def ofNat (n : Nat) : Point :=
  if h : firstHalf ≤ n ∧ n < firstHalf + 0x800 then lone ⟨n - firstHalf, by omega⟩ else char (Char.ofNat n)

def number : Point → Nat
  | char c => c.toNat
  | lone half => firstHalf + half

instance : Hashable Point := ⟨fun point => hash point.number⟩

def isHalf : Point → Bool
  | char _ => false
  | lone _ => true

/-- The character that is shown: the replacement character for a half. -/
def shown : Point → Char
  | char c => c
  | lone _ => '\ufffd'

end Point

/-- A text that may hold halves. One that does is parted at the first of them. -/
inductive Wide where
  | plain (text : String)
  | halved (front : String) (half : Half) (back : List Point)
deriving DecidableEq, Hashable

/-- The part of a text that has no bytes: its first half, its offset and its length. -/
structure Unencodable where
  first : Half
  offset : Nat
  length : Nat
deriving DecidableEq

namespace Wide

instance : Coe String Wide := ⟨plain⟩

def isEmpty : Wide → Bool
  | plain text => text.isEmpty
  | halved _ _ _ => false

def isPlain : Wide → Bool
  | plain _ => true
  | halved _ _ _ => false

def toList : Wide → List Point
  | plain text => text.toList.map .char
  | halved front half back => front.toList.map .char ++ .lone half :: back

/-- The text of some points behind `seen`, which holds earlier characters, last first. -/
def ofListOnto : List Point → (seen : List Char) → Wide
  | [], seen => plain (String.ofList seen.reverse)
  | .char c :: rest, seen => ofListOnto rest (c :: seen)
  | .lone half :: rest, seen => halved (String.ofList seen.reverse) half rest

def ofList (points : List Point) : Wide :=
  ofListOnto points []

/-- The text with the replacement character in the place of each half. -/
def shown : Wide → String
  | plain text => text
  | text => String.ofList (text.toList.map Point.shown)

def append : Wide → Wide → Wide
  | plain text, plain other => plain (text ++ other)
  | plain text, halved front half back => halved (text ++ front) half back
  | halved front half back, other => halved front half (back ++ other.toList)

instance : Append Wide := ⟨append⟩

def take (text : Wide) (n : Nat) : Wide :=
  ofList (text.toList.take n)

def drop (text : Wide) (n : Nat) : Wide :=
  ofList (text.toList.drop n)

/-- The characters of a text without halves. -/
def characters : Wide → Except Unencodable String
  | plain text => .ok text
  | halved front half back =>
    .error ⟨half, front.length, 1 + (back.takeWhile Point.isHalf).length⟩

end Wide

end ContractInspector.Text
