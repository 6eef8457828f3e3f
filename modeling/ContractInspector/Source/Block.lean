import ContractInspector.Source.Lexeme

/-! Balanced blocks: the text between an opening delimiter and the closing one that belongs to it.
Only delimiters of the same kind that stand in code are counted. -/
namespace ContractInspector.Source

/-- The offsets of the two delimiters, and the text between them. -/
structure Block where
  opening : Nat
  closing : Nat
  body : List Char

/-- The delimiter that closes what a delimiter opens. -/
def closerOf? : Char → Option Char
  | '{' => some '}'
  | '(' => some ')'
  | '[' => some ']'
  | _ => none

/-- The length of a lexeme in the source. -/
def Lexeme.length : Lexeme → Nat
  | code _ => 1
  | comment text => text.length
  | literal _ contents closed => contents.length + (if closed then 2 else 1)

/-- The offset of the delimiter that closes a block, when `inner` blocks inside it are open and
the text from `offset` on is `text`. -/
def closingFrom (opener closer : Char) (inner offset : Nat) (text : List Char) : Option Nat :=
  match text with
  | [] => none
  | c :: rest =>
    let after := (Lexeme.read c rest).2
    match (Lexeme.read c rest).1 with
    | .code _ =>
      if c = opener then closingFrom opener closer (inner + 1) (offset + 1) after
      else if c = closer then
        if inner = 0 then some offset
        else closingFrom opener closer (inner - 1) (offset + 1) after
      else closingFrom opener closer inner (offset + 1) after
    | lexeme => closingFrom opener closer inner (offset + lexeme.length) after
  termination_by text.length
  decreasing_by
    all_goals
      have := Lexeme.read_rest_length c rest
      simp only [List.length_cons]
      omega

/-- The block opened by the first character of a text that starts at an offset. There is none if
that is no opening delimiter or nothing closes it. -/
def blockFrom? (start : Nat) (text : List Char) : Option Block :=
  match text with
  | [] => none
  | opener :: rest =>
    match closerOf? opener with
    | none => none
    | some closer =>
      (closingFrom opener closer 0 (start + 1) rest).map fun closing =>
        ⟨start, closing, rest.take (closing - (start + 1))⟩

/-- The block opened by the delimiter at an offset of a text. -/
def blockAt? (text : List Char) (start : Nat) : Option Block :=
  blockFrom? start (text.drop start)

end ContractInspector.Source
