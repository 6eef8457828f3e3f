import ContractInspector.Host.Reply

/-! Paths as they are handed to a computer. A half of a surrogate pair may stand for a byte; other halves
and the null character cannot be handed over. -/
namespace ContractInspector.Machine

open Text (Half Point Unencodable Wide)

/-- The byte that a half stands for. -/
def byte? (half : Half) : Option UInt8 :=
  if 0x480 ≤ half.val ∧ half.val < 0x500 then some (UInt8.ofNat (half.val - 0x400)) else none

/-- The first part of a text that stands for no bytes. The text starts at an offset. -/
def unencodable? : List Point → (offset : Nat) → Option Unencodable
  | [], _ => none
  | .char _ :: rest, offset => unencodable? rest (offset + 1)
  | .lone half :: rest, offset =>
    if (byte? half).isSome then unencodable? rest (offset + 1)
    else some ⟨half, offset, 1 + (rest.takeWhile Point.isHalf).length⟩

def bytesAt : Point → List UInt8
  | .char c => Text.Utf8.encode [c]
  | .lone half => (byte? half).toList

/-- A path in characters, as a computer reads it. Bytes that are not UTF-8 are read as the replacement
character. -/
def spelled : Wide → String
  | .plain text => text
  | path => String.ofList (Text.Utf8.repair (path.toList.flatMap bytesAt))

/-- Hand over a path that starts at an offset of a longer one. -/
def handedAt (offset : Nat) (path : Wide) : Except Accident String :=
  match unencodable? path.toList offset with
  | some fault => .error (.unencodable fault)
  | none => if path.toList.contains '\x00' then .error .nullInPath else .ok (spelled path)

/-- Hand over a path. -/
def handed (path : Wide) : Except Accident String :=
  handedAt 0 path

end ContractInspector.Machine
