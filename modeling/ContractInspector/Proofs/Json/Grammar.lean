import ContractInspector.Json.Reader

/-! The grammar of JSON texts. Dialects differ in the words that stand for values, and in how long whole
numbers may be. -/
namespace ContractInspector.Json

/-- What stands between the parts of a text. -/
def IsGap (text : List Char) : Prop :=
  ∀ c ∈ text, isSpace c = true

structure IsDigits (text : List Char) : Prop where
  nonempty : text ≠ []
  digits : ∀ c ∈ text, isAsciiDigit c = true

/-- The digits in front of a decimal point. No zero stands in front of others. -/
structure IsWhole (text : List Char) : Prop extends IsDigits text where
  zero : text.head? = some '0' → text = ['0']

inductive IsFraction : List Char → Prop
  | absent : IsFraction []
  | present {digits : List Char} (isDigits : IsDigits digits) : IsFraction ('.' :: digits)

inductive IsExponent : List Char → Prop
  | absent : IsExponent []
  | present {e : Char} {sign digits : List Char} (letter : e = 'e' ∨ e = 'E')
      (signed : sign = [] ∨ sign = ['+'] ∨ sign = ['-']) (isDigits : IsDigits digits) :
      IsExponent (e :: sign ++ digits)

/-- Four hexadecimal digits. -/
def IsUnit (text : List Char) : Prop :=
  text.length = 4 ∧ ∀ c ∈ text, (hexDigit? c).isSome

/-- The characters between two quotes. -/
inductive IsCharacters : List Char → Prop
  | nil : IsCharacters []
  | plain {c : Char} {rest : List Char} (quote : c ≠ '"') (backslash : c ≠ '\\') (control : 32 ≤ c.toNat)
      (others : IsCharacters rest) : IsCharacters (c :: rest)
  | escape {c : Char} {rest : List Char} (known : (simpleEscape? c).isSome)
      (others : IsCharacters rest) : IsCharacters ('\\' :: c :: rest)
  | unit {digits rest : List Char} (isUnit : IsUnit digits) (others : IsCharacters rest) :
      IsCharacters ('\\' :: 'u' :: (digits ++ rest))

inductive IsText : List Char → Prop
  | text {body : List Char} (characters : IsCharacters body) : IsText ('"' :: (body ++ ['"']))

/-- What JSON texts can differ in. -/
structure Dialect where
  /-- The words that stand for values. -/
  words : List String
  /-- The digits may stand for a whole number. -/
  Fits : List Char → Prop

namespace Dialect

/-- The standard. -/
def standard : Dialect :=
  ⟨["null", "true", "false"], fun _ => True⟩

/-- What the reader takes: more words, and whole numbers up to some length. -/
def readable : Dialect :=
  ⟨["null", "true", "false", "NaN", "Infinity", "-Infinity"],
    fun digits => digits.length ≤ Text.maxDigits⟩

end Dialect

inductive IsNumber (dialect : Dialect) : List Char → Prop
  | number {sign whole fraction exponent : List Char} (signed : sign = [] ∨ sign = ['-'])
      (isWhole : IsWhole whole) (isFraction : IsFraction fraction) (isExponent : IsExponent exponent)
      (fits : fraction = [] → exponent = [] → dialect.Fits whole) :
      IsNumber dialect (sign ++ (whole ++ (fraction ++ exponent)))

/-- What a part of a text is: a value, a member of an object, or the elements of a container up to its
end. -/
inductive Form where
  | value
  | member
  | elements (container : Container)

namespace Container

def opening : Container → Char
  | array => '['
  | object => '{'

def closing : Container → Char
  | array => ']'
  | object => '}'

def element : Container → Form
  | array => .value
  | object => .member

end Container

/-- A part of a text, in which containers stand inside one another at most `depth` deep. -/
inductive Spells (dialect : Dialect) : (depth : Nat) → Form → List Char → Prop
  | word {depth : Nat} {word : String} (known : word ∈ dialect.words) :
      Spells dialect depth .value word.toList
  | number {depth : Nat} {text : List Char} (isNumber : IsNumber dialect text) :
      Spells dialect depth .value text
  | text {depth : Nat} {text : List Char} (isText : IsText text) : Spells dialect depth .value text
  | empty {depth : Nat} {gap : List Char} (container : Container) (isGap : IsGap gap) :
      Spells dialect (depth + 1) .value (container.opening :: (gap ++ [container.closing]))
  | container {depth : Nat} {gap elements : List Char} (container : Container) (isGap : IsGap gap)
      (inside : Spells dialect depth (.elements container) elements) :
      Spells dialect (depth + 1) .value (container.opening :: (gap ++ elements))
  | member {depth : Nat} {name before after value : List Char} (isName : IsText name)
      (isBefore : IsGap before) (isAfter : IsGap after) (isValue : Spells dialect depth .value value) :
      Spells dialect depth .member (name ++ (before ++ ':' :: (after ++ value)))
  | last {depth : Nat} {container : Container} {element gap : List Char}
      (isLast : Spells dialect depth container.element element) (isGap : IsGap gap) :
      Spells dialect depth (.elements container) (element ++ (gap ++ [container.closing]))
  | more {depth : Nat} {container : Container} {element before after others : List Char}
      (isFirst : Spells dialect depth container.element element) (isBefore : IsGap before)
      (isAfter : IsGap after) (areOthers : Spells dialect depth (.elements container) others) :
      Spells dialect depth (.elements container) (element ++ (before ++ ',' :: (after ++ others)))

/-- A whole text of a dialect. -/
inductive IsJson (dialect : Dialect) (depth : Nat) : List Char → Prop
  | json {front value back : List Char} (isFront : IsGap front)
      (isValue : Spells dialect depth .value value) (isBack : IsGap back) :
      IsJson dialect depth (front ++ (value ++ back))

end ContractInspector.Json
