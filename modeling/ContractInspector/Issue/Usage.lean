import ContractInspector.Source.Block
import ContractInspector.Text.Names
import ContractInspector.Text.Search

/-! How names are used in code: whole identifiers, assignments, locals bound to witness calls, and
uses outside of `disclose` calls. -/
namespace ContractInspector.Issue

open Text (Pattern)

/-- A dot or a letter of a word: what makes a following name a part of something else. -/
def joins (c : Char) : Bool :=
  c == '.' || Text.isWord c

/-- A name as a whole identifier that is not a member of something. -/
def identifier (name : List Char) : Pattern :=
  .notAfter joins ++ .text name ++ .wordBoundary

/-- An assignment to a name, plain or with an increment; its right-hand side, up to the next
semicolon, is captured. Comparisons and arrows are no assignments. -/
def assignment (name : List Char) : Pattern :=
  .notAfter joins ++ .text name ++ .space ++ .optional (.char fun c => c == '+' || c == '-') ++
    .word "=" ++ .notBefore (fun c => c == '=' || c == '>') ++
    .capture 1 (.many fun c => c != ';')

def disclosure : Pattern :=
  .wordBoundary ++ .word "disclose" ++ .space ++ .word "("

def disclosureSearcher : Text.Searcher :=
  disclosure.searcher true true

/-- The text from a place on with every `disclose` call blanked, up to the first one that never
closes, behind the texts in `done`, which are in reverse order. The fuel bounds the number of
calls. -/
def withoutDisclosedFrom : (fuel : Nat) → Text.Cursor → (done : List (List Char)) → List Char
  | 0, cursor, done => (cursor.rest :: done).reverse.flatten
  | fuel + 1, cursor, done =>
    let matchAt? := disclosureSearcher.matchAt?
    match Text.searchFrom? matchAt? cursor.before cursor.rest cursor.offset with
    | none => (cursor.rest :: done).reverse.flatten
    | some found =>
      match Source.blockFrom? (found.stop.offset - 1) ('(' :: found.stop.rest) with
      | none => (cursor.rest :: done).reverse.flatten
      | some block =>
        let start := found.start.offset
        let stop := block.closing + 1
        let kept := cursor.rest.take (start - cursor.offset)
        let after := found.stop.rest.drop (stop - found.stop.offset)
        -- What stands before the next call is a blank, not the closing parenthesis.
        withoutDisclosedFrom fuel ⟨some ' ', after, stop⟩
          (List.replicate (stop - start) ' ' :: kept :: done)

/-- The text with every `disclose` call blanked, so that what it wraps is no longer a use. -/
def withoutDisclosed (text : List Char) : List Char :=
  withoutDisclosedFrom (text.length + 1) (.start text) []

/-- A local bound to a call: the local and the called name are captured. -/
def boundCall : Pattern :=
  .wordBoundary ++ .word "const" ++ .gap ++ .capture 1 (.oneOrMore Text.isWord) ++
    .optional (.space ++ .word ":" ++ .space ++ .oneOrMore fun c => c != '=' && c != ';') ++
    .space ++ .word "=" ++ .space ++ .capture 2 (.oneOrMore Text.isWord) ++ .space ++ .word "("

def bindings (body : List Char) (witnesses : Std.HashSet String) : List (String × Nat) :=
  (boundCall.matchesIn body).filterMap fun found =>
    if witnesses.contains (String.ofList (found.text 2)) then
      some (String.ofList (found.text 1), found.start.offset)
    else none

/-- The locals bound to a call of one of the witnesses, each with the offset of its first such
binding, in source order. -/
def witnessBound (body : List Char) (witnesses : List String) : List (String × Nat) :=
  Text.firstOfEach (bindings body (.ofList witnesses))

def paramName (param : String) : List Char :=
  Text.strip (param.toList.takeWhile (· ≠ ':'))

end ContractInspector.Issue
