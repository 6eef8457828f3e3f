import ContractInspector.Text.Basic

/-! Texts as UTF-8 bytes. Reading stops at the first malformed part, or puts the replacement
character in the place of each one. A malformed part is as long as it could have begun a
character. -/
namespace ContractInspector.Text.Utf8

inductive Cause where
  | start
  | continuation
  | endOfData
deriving DecidableEq

def Cause.message : Cause → String
  | start => "invalid start byte"
  | continuation => "invalid continuation byte"
  | endOfData => "unexpected end of data"

/-- A malformed part: its first byte, its offset and its length. -/
structure Fault where
  cause : Cause
  first : UInt8
  offset : Nat
  length : Nat
deriving DecidableEq

def Fault.message (fault : Fault) : String :=
  let place :=
    if fault.length = 1 then
      "byte 0x" ++ String.ofList (hexadecimalByte fault.first) ++ " in position " ++
        toString fault.offset
    else
      "bytes in position " ++ toString fault.offset ++ "-" ++
        toString (fault.offset + fault.length - 1)
  "'utf-8' codec can't decode " ++ place ++ ": " ++ fault.cause.message
where
  hexadecimalByte (byte : UInt8) : List Char :=
    [Nat.digitChar (byte.toNat / 16), Nat.digitChar (byte.toNat % 16)]

/-- The bytes that may follow a first byte, as ranges, and the bits that the first byte
contributes. The second range leaves out overlong forms, surrogates and numbers past the last
character. -/
def expected? (first : Nat) : Option (Nat × List (Nat × Nat)) :=
  let more := (0x80, 0xbf)
  if first < 0x80 then some (first, [])
  else if first < 0xc2 then none
  else if first < 0xe0 then some (first - 0xc0, [more])
  else if first < 0xf0 then
    let second := if first = 0xe0 then (0xa0, 0xbf) else if first = 0xed then (0x80, 0x9f) else more
    some (first - 0xe0, [second, more])
  else if first < 0xf5 then
    let second := if first = 0xf0 then (0x90, 0xbf) else if first = 0xf4 then (0x80, 0x8f) else more
    some (first - 0xf0, [second, more, more])
  else none

/-- A character, or the length of a malformed part. -/
inductive Piece where
  | char (c : Char)
  | malformed (cause : Cause) (length : Nat)

/-- Read the bytes in the expected ranges behind the `read` first ones, which spell `bits`. -/
def continued : (ranges : List (Nat × Nat)) → (bits read : Nat) → List UInt8 → Piece × List UInt8
  | [], bits, _, rest => (.char (Char.ofNat bits), rest)
  | _ :: _, _, read, [] => (.malformed .endOfData read, [])
  | (low, high) :: ranges, bits, read, byte :: rest =>
    if low ≤ byte.toNat && byte.toNat ≤ high then
      continued ranges (bits * 64 + (byte.toNat - 0x80)) (read + 1) rest
    else (.malformed .continuation read, byte :: rest)

/-- Read one piece that starts with a byte. -/
def next (first : UInt8) (rest : List UInt8) : Piece × List UInt8 :=
  match expected? first.toNat with
  | none => (.malformed .start 1, rest)
  | some (bits, ranges) => continued ranges bits 1 rest

theorem continued_rest_length (ranges : List (Nat × Nat)) (bits read : Nat) (bytes : List UInt8) :
    (continued ranges bits read bytes).2.length ≤ bytes.length := by
  fun_induction continued ranges bits read bytes with
  | case1 => simp
  | case2 => simp
  | case3 low high ranges bits read byte rest _ ih => simp only [List.length_cons]; omega
  | case4 => simp

theorem next_rest_length (first : UInt8) (rest : List UInt8) :
    (next first rest).2.length ≤ rest.length := by
  unfold next
  split
  · exact Nat.le_refl _
  · exact continued_rest_length _ _ _ _

/-- The text of some bytes, or their first malformed part; `seen` holds the characters before
`offset`, last first. -/
def decodeOnto (bytes : List UInt8) (offset : Nat) (seen : List Char) :
    Except Fault (List Char) :=
  match bytes with
  | [] => .ok seen.reverse
  | first :: rest =>
    match (next first rest).1 with
    | .char c => decodeOnto (next first rest).2 (offset + c.utf8Size) (c :: seen)
    | .malformed cause length => .error ⟨cause, first, offset, length⟩
  termination_by bytes.length
  decreasing_by
    have := next_rest_length first rest
    simp only [List.length_cons]
    omega

/-- The text of some bytes, or their first malformed part. -/
def decode (bytes : List UInt8) : Except Fault (List Char) :=
  decodeOnto bytes 0 []

/-- The text of some bytes behind `seen`, which holds earlier characters, last first. -/
def repairOnto (bytes : List UInt8) (seen : List Char) : List Char :=
  match bytes with
  | [] => seen.reverse
  | first :: rest =>
    let c :=
      match (next first rest).1 with
      | .char c => c
      | .malformed _ _ => '\ufffd'
    repairOnto (next first rest).2 (c :: seen)
  termination_by bytes.length
  decreasing_by
    have := next_rest_length first rest
    simp only [List.length_cons]
    omega

/-- The text of some bytes, with the replacement character in the place of malformed parts. -/
def repair (bytes : List UInt8) : List Char :=
  repairOnto bytes []

def encode (text : List Char) : List UInt8 :=
  text.flatMap String.utf8EncodeChar

end ContractInspector.Text.Utf8

namespace ContractInspector.Text

/-- A text with every line end written as a newline, behind `seen`, which holds earlier characters,
last first. -/
def newlinesOnto : List Char → (seen : List Char) → List Char
  | [], seen => seen.reverse
  | '\r' :: '\n' :: rest, seen => newlinesOnto rest ('\n' :: seen)
  | c :: rest, seen => newlinesOnto rest ((if c = '\r' then '\n' else c) :: seen)

/-- A text with every line end, `\r\n` or `\r`, written as a newline. -/
def withNewlines (text : List Char) : List Char :=
  newlinesOnto text []

end ContractInspector.Text
