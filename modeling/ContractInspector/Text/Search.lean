import ContractInspector.Text.Plan

/-! Searching for the matches of a pattern. Places at which the next character rules out a match are
passed over. -/
namespace ContractInspector.Text

/-- A pattern that is ready for searching: its plan, and how its matches start. -/
structure Searcher where
  plan : Plan
  starts : Starts

namespace Searcher

/-- The preferred match that starts at a place, if by the next character there may be one. -/
def matchAt? (searcher : Searcher) (before : Option Char) (rest : List Char) (offset : Nat) :
    Option Match :=
  if searcher.starts.allow rest then
    searcher.plan.run ⟨before, rest, offset⟩ [] fun reached captures =>
      some ⟨⟨before, rest, offset⟩, reached, captures⟩
  else none

end Searcher

/-- The first match at or behind a place; `matchAt?` gives the match at a place. -/
@[specialize]
def searchFrom? (matchAt? : Option Char → List Char → Nat → Option Match)
    (before : Option Char) : List Char → Nat → Option Match
  | [], offset => matchAt? before [] offset
  | c :: rest, offset =>
    match matchAt? before (c :: rest) offset with
    | some found => some found
    | none => searchFrom? matchAt? (some c) rest (offset + 1)

/-- The matches at or behind a place, added before `found`, which holds earlier ones, last first.
The next `covered` characters belong to the match before; `matchAt?` gives the match at a place. -/
@[specialize]
def matchesOnto (matchAt? : Option Char → List Char → Nat → Option Match)
    (before : Option Char) : (covered : Nat) → List Char → Nat → List Match → List Match
  | _ + 1, [], _, found => found.reverse
  | 0, [], offset, found => ((matchAt? before [] offset).toList ++ found).reverse
  | covered + 1, c :: rest, offset, found =>
    matchesOnto matchAt? (some c) covered rest (offset + 1) found
  | 0, c :: rest, offset, found =>
    match matchAt? before (c :: rest) offset with
    | some here =>
      let covered := here.stop.offset - offset - 1
      matchesOnto matchAt? (some c) covered rest (offset + 1) (here :: found)
    | none => matchesOnto matchAt? (some c) 0 rest (offset + 1) found

namespace Pattern

/-- A pattern made ready for searching, with tables for how its matches start and for how they go
on, as far as they are wanted. -/
def searcher (pattern : Pattern) (startsTabulated planTabulated : Bool) : Searcher :=
  ⟨pattern.plan planTabulated .anything, (pattern.starts .anything).tabulate startsTabulated⟩

/-- A pattern made ready for searching in a text: tables are for long texts. -/
def searcherFor (pattern : Pattern) (text : List Char) : Searcher :=
  pattern.searcher (!(text.drop 256).isEmpty) (!(text.drop 4096).isEmpty)

def search? (pattern : Pattern) (text : List Char) : Option Match :=
  searchFrom? (pattern.searcherFor text).matchAt? none text 0

def occursIn (pattern : Pattern) (text : List Char) : Bool :=
  (pattern.search? text).isSome

/-- The matches in a text from left to right, each starting at or behind the end of the one before
it; behind an empty match the search goes on at the next character. -/
def matchesIn (pattern : Pattern) (text : List Char) : List Match :=
  matchesOnto (pattern.searcherFor text).matchAt? none 0 text 0 []

end Pattern

end ContractInspector.Text
