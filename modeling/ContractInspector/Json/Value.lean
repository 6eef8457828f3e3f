import ContractInspector.Number.Binary64
import ContractInspector.Text.Names
import ContractInspector.Text.Quoted
import Std.Data.HashMap

/-! JSON values. Whole numbers are exact, other numbers have 53 binary places, and the members of
an object keep the order in which their names first appeared. -/
namespace ContractInspector.Json

inductive Value where
  | null
  | bool (value : Bool)
  | integer (value : Int)
  | real (value : Number.Binary64)
  | text (value : Text.Wide)
  | array (items : List Value)
  | object (members : List (Text.Wide × Value))

namespace Value

/-- The member of an object with a name. -/
def member? : Value → String → Option Value
  | object members, name => members.lookup (.plain name)
  | _, _ => none

/-- The object that some members written one after another make: a name that comes again keeps its
place and gets the later value. -/
def ofMembers (members : List (Text.Wide × Value)) : Value :=
  let latest : Std.HashMap Text.Wide Value :=
    members.foldl (fun latest entry => latest.insert entry.1 entry.2) ∅
  object ((Text.firstOfEach members).map fun entry =>
    (entry.1, latest.getD entry.1 entry.2))

/-- An object without the members whose value is missing. -/
def present (members : List (String × Option Value)) : Value :=
  object (members.filterMap fun entry => entry.2.map (.plain entry.1, ·))

def ofNat (n : Nat) : Value :=
  integer n

def texts (items : List String) : Value :=
  array (items.map fun (item : String) => text item)

/-- A text, or null if there is none. -/
def textOrNull (value : Option String) : Value :=
  (value.map fun (value : String) => text value).getD null

def natOrNull (value : Option Nat) : Value :=
  (value.map ofNat).getD null

/-- The word for the kind of a value in messages. -/
def kind : Value → String
  | null => "NoneType"
  | bool _ => "bool"
  | integer _ => "int"
  | real _ => "float"
  | text _ => "str"
  | array _ => "list"
  | object _ => "dict"

mutual

/-- No text in a value holds a half of a surrogate pair. -/
def isPlain : Value → Bool
  | text value => value.isPlain
  | array items => arePlain items
  | object members => membersPlain members
  | _ => true

def arePlain : List Value → Bool
  | [] => true
  | item :: items => item.isPlain && arePlain items

def membersPlain : List (Text.Wide × Value) → Bool
  | [] => true
  | (name, value) :: members => name.isPlain && value.isPlain && membersPlain members

end

mutual

/-- A value inside another one, as messages show it. -/
def inner : Value → String
  | null => "None"
  | bool value => if value then "True" else "False"
  | integer value => toString value
  | real value => value.text
  | text value => Text.quoted value
  | array items => "[" ++ Text.join ", " (innerItems items []) ++ "]"
  | object members => "\x7b" ++ Text.join ", " (innerMembers members []) ++ "\x7d"

/-- The texts of some items, behind those in `done`, which are in reverse order. -/
def innerItems : List Value → (done : List String) → List String
  | [], done => done.reverse
  | item :: items, done => innerItems items (item.inner :: done)

/-- The texts of some members, behind those in `done`, which are in reverse order. -/
def innerMembers : List (Text.Wide × Value) → (done : List String) → List String
  | [], done => done.reverse
  | (name, value) :: members, done =>
    innerMembers members ((Text.quoted name ++ ": " ++ value.inner) :: done)

end

/-- A value as messages show it: a text as it is, anything else as inside another value. -/
def shown : Value → Text.Wide
  | text value => value
  | value => value.inner

end Value

end ContractInspector.Json
