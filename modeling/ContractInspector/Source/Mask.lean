import ContractInspector.Source.Lexeme

/-! Masked source: comments, and if wanted the contents of literals, become spaces. Newlines and
quotes stay, so lines and offsets are those of the source. -/
namespace ContractInspector.Source

/-- A space in the place of a character, unless it is a newline. -/
def blanked (c : Char) : Char :=
  if c = '\n' then '\n' else ' '

/-- A lexeme with its comment text blanked, and its literal contents if `literals` is set. -/
def Lexeme.masked (literals : Bool) : Lexeme → List Char
  | code c => [c]
  | comment text => text.map blanked
  | literal quote contents closed =>
    quote :: (if literals then contents.map blanked else contents) ++
      (if closed then [quote] else [])

/-- The source with comments, and if `literals` is set the contents of literals, blanked. -/
def mask (literals : Bool) (text : List Char) : List Char :=
  (lexemes text).flatMap (Lexeme.masked literals)

/-- The source with comments and the contents of literals blanked. -/
def maskAll (text : List Char) : List Char :=
  mask true text

/-- The source with comments blanked. -/
def stripComments (text : List Char) : List Char :=
  mask false text

end ContractInspector.Source
