import ContractInspector.Machine.Shell.Command

/-! Permissions of files: octal numbers, and descriptions of changes such as `u+x,go=r`. -/
namespace ContractInspector.Machine.Permissions

open Shell (ByteText)

def full : Nat := 0o777

/-- The permissions that are in the first number and not in the second one. -/
def without (mode others : Nat) : Nat :=
  mode - (mode &&& others)

/-- The permissions of a class of users that a letter names. -/
def scopeOf (letter : Char) : Nat :=
  match letter with
  | 'u' => 0o700
  | 'g' => 0o070
  | 'o' => 0o007
  | _ => full

/-- The permissions that a letter grants to everyone, for a file that has some already. -/
def granted (mode : Nat) (letter : Char) : Option Nat :=
  match letter with
  | 'r' => some 0o444
  | 'w' => some 0o222
  | 'x' => some 0o111
  | 'X' => some (if mode &&& 0o111 = 0 then 0 else 0o111)
  | 's' | 't' => some 0
  | 'u' => some (mode / 64 * 0o111)
  | 'g' => some (mode / 8 % 8 * 0o111)
  | 'o' => some (mode % 8 * 0o111)
  | _ => none

def isSign (c : Char) : Bool :=
  c == '+' || c == '-' || c == '='

/-- Carry out signs with the letters behind them on the permissions of some classes of users. The
fuel bounds the number of signs. -/
def afterSigns? (scope allowed : Nat) : (fuel : Nat) → ByteText → Nat → Option Nat
  | 0, _, _ => none
  | _ + 1, [], mode => some mode
  | fuel + 1, sign :: text, mode =>
    let letters := text.takeWhile fun c => !isSign c
    let change? := letters.foldlM (fun bits letter => (granted mode letter).map (bits ||| ·)) 0
    match change? with
    | none => none
    | some change =>
      let change := change &&& allowed
      let mode :=
        if sign = '+' then mode ||| change
        else if sign = '-' then without mode change
        else without mode scope ||| change
      afterSigns? scope allowed fuel (text.drop letters.length) mode

/-- What one clause of a description makes of permissions. One that names no users keeps to those
that `mask` leaves. -/
def clause? (mask : Nat) (text : ByteText) (mode : Nat) : Option Nat :=
  let users := text.takeWhile fun c => ['u', 'g', 'o', 'a'].contains c
  let signs := text.drop users.length
  if !signs.head?.any isSign then none
  else
    let scope := if users.isEmpty then full else users.foldl (fun bits c => bits ||| scopeOf c) 0
    let allowed := if users.isEmpty then without full mask else scope
    afterSigns? scope allowed (signs.length + 1) signs mode

def changed? (mask : Nat) (description : ByteText) (mode : Nat) : Option Nat :=
  if !description.isEmpty && description.all fun c => '0' ≤ c && c ≤ '7' then
    some ((description.foldl (fun n c => 8 * n + (c.toNat - '0'.toNat)) 0) &&& 0o7777)
  else (Text.splitAt ',' description).foldlM (fun mode text => clause? mask text mode) mode

end ContractInspector.Machine.Permissions
