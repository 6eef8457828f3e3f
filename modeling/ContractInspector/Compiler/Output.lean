import ContractInspector.Text.Utf8

/-! The output of a compiler, read piece by piece into a buffer of bounded size. -/
namespace ContractInspector.Compiler

/-- What a read from a pipe gives: some text, which is empty at the end, or a fault because the pipe was
closed. -/
inductive Reading where
  | piece (text : List Char)
  | fault
deriving DecidableEq

/-- What a reader does with its pipe, and with the compiler behind it. -/
inductive Deed where
  | read (given : Reading)
  | kill
  | close
deriving DecidableEq

/-- A reader that keeps at most `limit` characters. `pieces` holds what was kept, last first. -/
structure BoundedReader where
  limit : Nat
  pieces : List (List Char) := []
  size : Nat := 0
  overflowed : Bool := false

namespace BoundedReader

def text (reader : BoundedReader) : List Char :=
  reader.pieces.reverse.flatten

/-- Keep a piece, or as much of it as fits. -/
def feed (reader : BoundedReader) (piece : List Char) : BoundedReader :=
  if reader.limit < reader.size + piece.length then
    { reader with
      pieces := piece.take (reader.limit - reader.size) :: reader.pieces
      size := reader.limit
      overflowed := true }
  else
    { reader with
      pieces := piece :: reader.pieces
      size := reader.size + piece.length }

/-- Read until the pipe ends or is closed, or until a piece does not fit: then the compiler is killed. -/
def readAll (reader : BoundedReader) : List Reading → BoundedReader × List Deed
  | [] => (reader, [.read (.piece [])])
  | .fault :: _ => (reader, [.read .fault])
  | .piece text :: others =>
    -- An empty piece is the end.
    if text.isEmpty then (reader, [.read (.piece text)])
    else
      let fed := reader.feed text
      if fed.overflowed then (fed, [.read (.piece text), .kill])
      else
        let (last, deeds) := fed.readAll others
        (last, .read (.piece text) :: deeds)

def drain (reader : BoundedReader) (readings : List Reading) : BoundedReader × List Deed :=
  let (last, deeds) := reader.readAll readings
  (last, deeds ++ [.close])

end BoundedReader

def pieceLength : Nat := 64 * 1024

/-- A text in pieces of a positive length; the last one may be shorter. -/
def pieces (length : Nat) (positive : 0 < length) (text : List Char) : List (List Char) :=
  match text with
  | [] => []
  | c :: rest =>
    (c :: rest).take length :: pieces length positive ((c :: rest).drop length)
  termination_by text.length
  decreasing_by
    simp only [List.length_drop, List.length_cons]
    omega

/-- Read the bytes of an output as text: malformed parts are replaced, line ends are newlines, and
at most `limit` characters are kept. -/
def readOutput (limit : Nat) (bytes : List UInt8) : BoundedReader :=
  let text := Text.withNewlines (Text.Utf8.repair bytes)
  (BoundedReader.drain { limit } ((pieces pieceLength (by decide) text).map .piece)).1

end ContractInspector.Compiler
