import ContractInspector.Machine.Program.Basic
import ContractInspector.Machine.Shell.Format

/-! The programs that write, cut and change texts. -/
namespace ContractInspector.Machine.Program

open Host (Cause)
open Shell (ByteText)

def cat (call : Call) : Effect :=
  let paths := if call.options.2.isEmpty then [['-']] else call.options.2
  let effect := call.forEach paths fun effect path =>
    match call.contents path with
    | .ok text => effect.print text
    | .error cause =>
      call.complain effect 1 (ByteText.toString path ++ ": " ++ cause.text)
  { effect with readsInput := paths.contains ['-'] }

def counts (options : List Char) (text : ByteText) : List Nat :=
  let isBlank (c : Char) : Bool := [' ', '\t', '\n', '\r', '\x0b', '\x0c'].contains c
  let words := (text.foldl (fun (count, inside) c =>
    if isBlank c then (count, false) else (if inside then count else count + 1, true))
    ((0, false) : Nat × Bool)).1
  let all := options.isEmpty
  (if all || options.contains 'l' then [text.count '\n'] else []) ++
    (if all || options.contains 'w' then [words] else []) ++
    (if all || options.contains 'c' then [text.length] else [])

/-- Count lines, words and bytes. The counts have one width, which the sizes of the files give; what
is not read from a file has no size. -/
def wc (call : Call) : Effect :=
  let (options, paths) := call.options
  let row (width : Nat) (numbers : List Nat) (name : ByteText) : ByteText :=
    let padded := numbers.map fun n =>
      let digits := (toString n).toList
      List.replicate (width - digits.length) ' ' ++ digits
    [' '].intercalate (padded ++ if name.isEmpty then [] else [name]) ++ ['\n']
  if paths.isEmpty then
    let numbers := counts options call.input
    let width :=
      if numbers.length = 1 then 1
      else if call.hasFileInput then (toString call.input.length).length
      else 7
    { call.prints (row width numbers []) with readsInput := true }
  else
    let sizes := paths.map fun path =>
      match call.contents path with
      | .ok text => text.length
      | .error _ => 0
    let isSingle := paths.length = 1 && (counts options []).length = 1
    let width := if isSingle then 1 else (toString (sizes.foldl (· + ·) 0)).length
    let (effect, total) := paths.foldl (fun (effect, total) path =>
      match call.contents path with
      | .ok text =>
        let numbers := counts options text
        (effect.print (row width numbers path), List.zipWith (· + ·) total numbers)
      | .error cause =>
        (call.complain effect 1 (ByteText.toString path ++ ": " ++ cause.text), total))
      (call.done 0, (counts options []).map fun _ => 0)
    if paths.length = 1 then effect else effect.print (row width total "total".toList)

/-- The lines of a text, each with its line end. -/
def linesOf (text : ByteText) : List ByteText :=
  let pieces := Text.splitAt '\n' text
  let ended := pieces.dropLast.map (· ++ ['\n'])
  match pieces.getLast? with
  | some [] | none => ended
  | some last => ended ++ [last]

/-- How many lines or bytes to take, and whether they are lines, and the paths. -/
def amount (arguments : List ByteText) : Nat × Bool × List ByteText :=
  let number (text : ByteText) : Nat := (Shell.Arithmetic.numberIn 10 text).getD 0
  match arguments with
  | ['-', 'n'] :: count :: paths => (number count, true, paths)
  | ['-', 'c'] :: count :: paths => (number count, false, paths)
  | ('-' :: 'n' :: count) :: paths => (number count, true, paths)
  | ('-' :: 'c' :: count) :: paths => (number count, false, paths)
  | ('-' :: count) :: paths =>
    if !count.isEmpty && count.all Char.isDigit then (number count, true, paths)
    else (10, true, arguments)
  | _ => (10, true, arguments)

/-- Write the first or the last lines or bytes of files. -/
def part (call : Call) (atEnd : Bool) : Effect :=
  let (count, areLines, paths) := amount call.arguments
  let cut {α : Type} (items : List α) : List α :=
    if atEnd then items.drop (items.length - count) else items.take count
  let paths := if paths.isEmpty then [['-']] else paths
  let effect := call.forEach paths fun effect path =>
    match call.contents path with
    | .ok text => effect.print (if areLines then (cut (linesOf text)).flatten else cut text)
    | .error cause =>
      call.complain effect 1
        ("cannot open " ++ Call.quoted path ++ " for reading: " ++ cause.text)
  { effect with readsInput := paths.contains ['-'] }

def seq (call : Call) : Effect :=
  let numbers := call.arguments.filterMap Shell.Arithmetic.number?
  let (first, step, last) :=
    match numbers with
    | [last] => (1, 1, last)
    | [first, last] => (first, 1, last)
    | [first, step, last] => (first, step, last)
    | _ => ((1 : Int), (1 : Int), (0 : Int))
  let count := if step = 0 then 0 else ((last - first).fdiv step + 1).toNat
  call.prints ((List.range count).flatMap fun (n : Nat) =>
    (toString (first + step * (n : Int))).toList ++ ['\n'])

/-- Write arguments with blanks between them; escapes are written out only on demand. -/
def echo (call : Call) : Effect :=
  let isOption (argument : ByteText) : Bool :=
    argument.head? == some '-' && 1 < argument.length &&
      (argument.drop 1).all fun c => c == 'n' || c == 'e' || c == 'E'
  let options := (call.arguments.takeWhile isOption).flatten
  let text := [' '].intercalate (call.arguments.dropWhile isOption)
  let (text, ended) :=
    if options.contains 'e' then Shell.Format.escaped (text.length + 1) text else (text, false)
  call.prints (if ended || options.contains 'n' then text else text ++ ['\n'])

def printf (call : Call) : Effect :=
  match call.arguments with
  | [] => call.misused 1 "missing operand"
  | format :: arguments =>
    let (text, mistakes, _) := Shell.Format.print format arguments
    mistakes.foldl (fun effect mistake => call.complain effect 1 mistake) (call.prints text)

end ContractInspector.Machine.Program
