import ContractInspector.Diagnostic.Location
import ContractInspector.Language.Catalogue
import ContractInspector.Source.Lines

/-! Compiler output as diagnostics. Each `error:` marker owns its own line, the lines behind it up
to the next marker, and a header line directly above it; its location is looked for there, in this
order. Output that is not recognised becomes one diagnostic without a location. -/
namespace ContractInspector.Diagnostic

open Text (Pattern)

inductive Severity where
  | error
  | warning
deriving DecidableEq

def Severity.name : Severity → String
  | error => "error"
  | warning => "warning"

end ContractInspector.Diagnostic

namespace ContractInspector

structure Diagnostic where
  location : Option Diagnostic.Location
  message : String
  severity : Diagnostic.Severity
  sourceContext : Option String
deriving DecidableEq

end ContractInspector

namespace ContractInspector.Diagnostic

open Text (Pattern)

/-- A word with a colon, in either case, and the text behind it up to the end of a line. -/
def marker (word : String) : Pattern :=
  .anyCase word ++ .word ":" ++ .space ++ .capture 1 (.oneOrMore (· != '\n'))

def errorMarker : Pattern := marker "error"

def warningMarker : Pattern := marker "warning"

def isQuote (c : Char) : Bool :=
  c == '\'' || c == '"' || c == '`'

/-- What the compiler expected, and what it found instead; quotes around them are not captured. -/
def expectation : Pattern :=
  let quote := Pattern.optional (.char isQuote)
  let isWanted (c : Char) : Bool := !isQuote c && c != ','
  .anyCase "expected" ++ .gap ++ quote ++ .capture 1 (.char isWanted ++ .fewest isWanted) ++
    quote ++ .optional (.word ",") ++ .space ++ .orElse (.anyCase "found") (.anyCase "got") ++
    .gap ++ quote ++ .capture 2 (.oneOrMore fun c => !isQuote c) ++ quote

/-- A line and its neighbours, each as its number and its text. There is none for a line that the
source does not have. -/
def sourceContext? (sourceLines : Array String) (line : Int) : Option String :=
  if line < 1 || (sourceLines.size : Int) < line then none
  else
    let first := line.toNat - 2
    let shown := (sourceLines.extract first (line.toNat + 1)).toList
    some (Text.join "\n" (shown.zipIdx.map fun (text, index) =>
      toString (first + index + 1) ++ ": " ++ text))

/-- A line that announces the message below it ends with a colon. -/
def isHeader (line : List Char) : Bool :=
  (line.reverse.dropWhile Text.isBlank).head? == some ':'

/-- The markers of some output with the row on which each stands, and the rows of its neighbours. -/
structure Marker where
  message : List Char
  row : Nat
  previous : Option Nat
  next : Option Nat

/-- Give each row its neighbours. -/
def withNeighbours (found : List (List Char × Nat)) : List Marker :=
  let previous := none :: found.map fun entry => some entry.2
  let next := (found.drop 1).map (fun entry => some entry.2) ++ [none]
  (found.zip (previous.zip next)).map fun ((message, row), (previous, next)) =>
    ⟨message, row, previous, next⟩

def markers (output : List Char) : List Marker :=
  let index := Source.LineIndex.ofText output
  withNeighbours ((errorMarker.matchesIn output).map fun found =>
    (Text.strip (found.text 1), index.lineOf found.start.offset - 1))

namespace Marker

/-- The lines behind a marker that belong to it: those before the next marker, or all, but not the
header of the next marker. -/
def tail (marker : Marker) (lines : Array (List Char)) : List (List Char) :=
  match marker.next with
  | none => (lines.extract (marker.row + 1) lines.size).toList
  | some next =>
    let between := (lines.extract (marker.row + 1) next).toList
    if between.getLast?.any isHeader then between.dropLast else between

/-- The header above a marker, if there is one and it is not the row of the marker before. -/
def header? (marker : Marker) (lines : Array (List Char)) : Option (List Char) :=
  match marker.row with
  | 0 => none
  | above + 1 =>
    if marker.previous.all (· < above) then (lines[above]?).filter isHeader else none

/-- The texts in which the location of a marker is looked for, in order. -/
def regions (marker : Marker) (lines : Array (List Char)) : List (List Char) :=
  [lines.getD marker.row [], ['\n'].intercalate (marker.tail lines)] ++
    (marker.header? lines).toList

def location? (marker : Marker) (lines : Array (List Char)) :
    Except Text.LongNumber (Option Location) :=
  locateIn? (marker.regions lines)

def diagnostic (marker : Marker) (lines : Array (List Char)) (sourceLines : Array String) :
    Except Text.LongNumber Diagnostic :=
  (marker.location? lines).map fun location =>
    { location
      message := String.ofList marker.message
      severity := .error
      sourceContext := location.bind fun place => sourceContext? sourceLines place.line }

end Marker

/-- The suggestion for a message that tells what was expected. -/
def expectationHint? (message : List Char) : Option String :=
  (expectation.search? message).map fun found =>
    let part (slot : Nat) := String.ofList (Text.strip (found.text slot))
    "Expected \"" ++ part 1 ++ "\" but found \"" ++ part 2 ++ "\". Check your syntax."

/-- The hints for the terms that some output mentions. -/
def termHints (output : List Char) : List String :=
  (Language.outputHints.filter fun hint => Text.contains hint.term.toList output).map (·.suggestion)

/-- At most this many characters of output that is not recognised are kept. -/
def fallbackLength : Nat := 500

/-- The one diagnostic of output without markers, unless it is blank. -/
def fallback (output : List Char) : List Diagnostic :=
  let message := Text.strip output
  if message.isEmpty then []
  else [⟨none, String.ofList (message.take fallbackLength), .error, none⟩]

def errors (output source : List Char) : Except Text.LongNumber (List Diagnostic) := do
  let outputLines := (Text.lines output).toArray
  let sourceLines := ((Text.lines source).map String.ofList).toArray
  let found ← (markers output).mapM (·.diagnostic outputLines sourceLines)
  return if found.isEmpty then fallback output else found

def suggestions (output : List Char) : List String :=
  (markers output).filterMap (fun marker => expectationHint? marker.message) ++ termHints output

def warnings (output : List Char) : List String :=
  (warningMarker.matchesIn output).map fun found => String.ofList (Text.strip (found.text 1))

end ContractInspector.Diagnostic
