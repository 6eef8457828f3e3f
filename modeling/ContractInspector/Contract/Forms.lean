import ContractInspector.Text.Search

/-! The forms of declarations in masked source, as patterns. A declaration may start with modifiers,
which are captured apart from its name. -/
namespace ContractInspector.Contract.Forms

open Text (Pattern)

/-- The captures of a declaration form. -/
def exported : Nat := 1

def modifier : Nat := 2

def name : Nat := 3

def payload : Nat := 4

/-- An optional modifier keyword with the blanks behind it. -/
def modified (slot : Nat) (word : String) : Pattern :=
  .optional (.capture slot (.word word) ++ .gap)

def named : Pattern :=
  .capture name (.oneOrMore Text.isWord)

/-- Optional type parameters between angle brackets, free of the `excluded` characters. -/
def typeParams (excluded : List Char) : Pattern :=
  .optional (.word "<" ++ .many (fun c => !excluded.contains c) ++ .word ">" ++ .space)

/-- At least one character that is none of the `excluded` ones. -/
def upTo (excluded : List Char) : Pattern :=
  .oneOrMore fun c => !excluded.contains c

/-- A circuit up to its opening parenthesis. -/
def circuit : Pattern :=
  .wordBoundary ++ modified exported "export" ++ modified modifier "pure" ++ .word "circuit" ++
    .gap ++ named ++ .space ++ typeParams ['<', '>', '('] ++ .word "("

/-- A witness up to its parameters or its colon. -/
def witness : Pattern :=
  .wordBoundary ++ modified exported "export" ++ .word "witness" ++ .gap ++ named ++ .space ++
    typeParams ['<', '>', '(', ':']

def ledgerItem : Pattern :=
  .wordBoundary ++ modified exported "export" ++ modified modifier "sealed" ++ .word "ledger" ++
    .gap ++ named ++ .space ++ .word ":" ++ .space ++ .capture payload (upTo [';'])

def typeAlias : Pattern :=
  .wordBoundary ++ modified exported "export" ++ .word "type" ++ .gap ++ named ++ .space ++
    typeParams ['=', ';'] ++ .word "=" ++ .space ++ .capture payload (upTo [';'])

def struct : Pattern :=
  .wordBoundary ++ modified exported "export" ++ .word "struct" ++ .gap ++ named ++ .space ++
    typeParams ['{', ';'] ++ .word "\x7b"

def enumeration : Pattern :=
  .wordBoundary ++ modified exported "export" ++ .word "enum" ++ .gap ++ named ++ .space ++
    .word "\x7b"

def constructor : Pattern :=
  .wordBoundary ++ .word "constructor" ++ .space ++ .word "("

def returnType : Pattern :=
  .space ++ .word ":" ++ .space ++ .capture payload (upTo ['{', '\n', ';'])

/-- The type of a witness, behind its name or its parameters. -/
def witnessType : Pattern :=
  .space ++ .word ":" ++ .space ++ .capture payload (upTo [';'])

/-- The pragma with its version. A comparison is optional. -/
def pragma : Pattern :=
  .wordBoundary ++ .word "pragma" ++ .gap ++ .word "language_version" ++ .space ++
    .optional (.orElse (.word ">" ++ .optional (.word "="))
      (.orElse (.word "<" ++ .optional (.word "="))
        (.orElse (.word "==") (.word "~")))) ++
    .space ++ .capture payload (.oneOrMore fun c => Text.isDigit c || c == '.')

def importTarget : Pattern :=
  .orElse (.wordBoundary ++ .word "import" ++ .gap ++ named)
    (.wordBoundary ++ .word "include" ++ .gap ++ .word "\"" ++ .capture payload (upTo ['"']) ++
      .word "\"")

end ContractInspector.Contract.Forms
