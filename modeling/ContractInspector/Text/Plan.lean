import ContractInspector.Text.Pattern

/-! Plans: patterns that are made ready for long texts. Where a pattern may stop in several places,
its plan knows which characters can come next, and tries no other places. -/
namespace ContractInspector.Text

/-- How a text may start: whether it may be empty, and with which characters it may start. `ascii`
holds the answers for the first characters that it has entries for. -/
structure Starts where
  empty : Bool
  char : Char → Bool
  ascii : Array Bool := #[]

namespace Starts

def allowChar (starts : Starts) (c : Char) : Bool :=
  match starts.ascii[c.toNat]? with
  | some answer => answer
  | none => starts.char c

def allow (starts : Starts) : List Char → Bool
  | [] => starts.empty
  | c :: _ => starts.allowChar c

def anything : Starts :=
  ⟨true, fun _ => true, #[]⟩

def ofClass (holds : Char → Bool) : Starts :=
  ⟨false, holds, #[]⟩

def or (first second : Starts) : Starts :=
  ⟨first.empty || second.empty, fun c => first.allowChar c || second.allowChar c, #[]⟩

/-- The same texts, with the answers for ASCII characters in a table if that is wanted. -/
def tabulate (starts : Starts) (wanted : Bool) : Starts :=
  if wanted then
    ⟨starts.empty, starts.allowChar,
      Array.ofFn fun n : Fin 128 => starts.allowChar (Char.ofNat n)⟩
  else starts

end Starts

namespace Cursor

/-- The places reached by passing characters of a class one by one, the farthest first, as far as
the text behind them starts in one of some ways; `passed` holds the ones found so far. -/
def endsOnto (holds : Char → Bool) (starts : Starts) (before : Option Char) :
    List Char → Nat → List Cursor → List Cursor
  | [], offset, passed => if starts.empty then ⟨before, [], offset⟩ :: passed else passed
  | c :: rest, offset, passed =>
    let reached :=
      if starts.allowChar c then ⟨before, c :: rest, offset⟩ :: passed else passed
    if holds c then endsOnto holds starts (some c) rest (offset + 1) reached else reached

/-- The first answer at the places reached by passing characters of a class, the nearest first, as
far as the text behind them starts in one of some ways. -/
def firstEnd {α : Type} (holds : Char → Bool) (starts : Starts) (accept : Cursor → Option α)
    (before : Option Char) : List Char → Nat → Option α
  | [], offset => if starts.empty then accept ⟨before, [], offset⟩ else none
  | c :: rest, offset =>
    let answer? := if starts.allowChar c then accept ⟨before, c :: rest, offset⟩ else none
    match answer? with
    | some answer => some answer
    | none => if holds c then firstEnd holds starts accept (some c) rest (offset + 1) else none

end Cursor

/-- A pattern, with what can follow wherever it may stop in several places. -/
inductive Plan where
  | empty
  | char (holds : Char → Bool)
  | text (part : List Char)
  | andThen (first second : Plan)
  | orElse (first second : Plan)
  | optional (body : Plan)
  | many (holds : Char → Bool) (follow : Starts)
  | fewest (holds : Char → Bool) (follow : Starts)
  | capture (slot : Nat) (body : Plan)
  | wordBoundary
  | notAfter (holds : Char → Bool)
  | notBefore (holds : Char → Bool)

/-- Try a plan at a place, with what was captured before and a continuation. -/
def Plan.run {α : Type} : Plan → Cursor → List Capture → (Cursor → List Capture → Option α) →
    Option α
  | empty, cursor, captures, next => next cursor captures
  | char holds, cursor, captures, next =>
    match cursor.rest with
    | [] => none
    | c :: rest => if holds c then next (cursor.advance c rest 1) captures else none
  | text part, cursor, captures, next =>
    match cursor.skip? part with
    | none => none
    | some reached => next reached captures
  | andThen first second, cursor, captures, next =>
    first.run cursor captures fun reached captured => second.run reached captured next
  | orElse first second, cursor, captures, next =>
    match first.run cursor captures next with
    | some answer => some answer
    | none => second.run cursor captures next
  | optional body, cursor, captures, next =>
    match body.run cursor captures next with
    | some answer => some answer
    | none => next cursor captures
  | many holds follow, cursor, captures, next =>
    (Cursor.endsOnto holds follow cursor.before cursor.rest cursor.offset []).findSome?
      fun reached => next reached captures
  | fewest holds follow, cursor, captures, next =>
    Cursor.firstEnd holds follow (fun reached => next reached captures) cursor.before cursor.rest
      cursor.offset
  | capture slot body, cursor, captures, next =>
    body.run cursor captures fun reached captured =>
      next reached (⟨slot, cursor.rest, cursor.offset, reached.offset⟩ :: captured)
  | wordBoundary, cursor, captures, next =>
    if cursor.atWordBoundary then next cursor captures else none
  | notAfter holds, cursor, captures, next =>
    if cursor.isAfter holds then none else next cursor captures
  | notBefore holds, cursor, captures, next =>
    if cursor.isBefore holds then none else next cursor captures

namespace Pattern

/-- How a text may start that a pattern fits and behind that something that starts as `follow`
tells. -/
def starts : Pattern → (follow : Starts) → Starts
  | empty, follow => follow
  | char holds, _ => .ofClass holds
  | text [], follow => follow
  | text (p :: _), _ => .ofClass (p == ·)
  | andThen first second, follow => first.starts (second.starts follow)
  | orElse first second, follow => (first.starts follow).or (second.starts follow)
  | optional body, follow => (body.starts follow).or follow
  | many holds, follow => (Starts.ofClass holds).or follow
  | fewest holds, follow => (Starts.ofClass holds).or follow
  | capture _ body, follow => body.starts follow
  | wordBoundary, follow => follow
  | notAfter _, follow => follow
  | notBefore _, follow => follow

/-- The plan of a pattern behind which a text starts as `follow` tells. -/
def plan (tabulated : Bool) : Pattern → (follow : Starts) → Plan
  | empty, _ => .empty
  | char holds, _ => .char holds
  | text part, _ => .text part
  | andThen first second, follow =>
    .andThen (first.plan tabulated (second.starts follow)) (second.plan tabulated follow)
  | orElse first second, follow =>
    .orElse (first.plan tabulated follow) (second.plan tabulated follow)
  | optional body, follow => .optional (body.plan tabulated follow)
  | many holds, follow => .many holds (follow.tabulate tabulated)
  | fewest holds, follow => .fewest holds (follow.tabulate tabulated)
  | capture slot body, follow => .capture slot (body.plan tabulated follow)
  | wordBoundary, _ => .wordBoundary
  | notAfter holds, _ => .notAfter holds
  | notBefore holds, _ => .notBefore holds

end Pattern

end ContractInspector.Text
