import ContractInspector.Machine.Shell.Command

/-! Signals: their numbers, their names, and what they do. -/
namespace ContractInspector.Machine.Shell.Signal

/-- The names of the signals from number 1 on. Number 16 has none. -/
def names : List String :=
  ["HUP", "INT", "QUIT", "ILL", "TRAP", "ABRT", "BUS", "FPE", "KILL", "USR1", "SEGV", "USR2",
    "PIPE", "ALRM", "TERM", "16", "CHLD", "CONT", "STOP", "TSTP", "TTIN", "TTOU", "URG", "XCPU",
    "XFSZ", "VTALRM", "PROF", "WINCH", "IO", "PWR", "SYS"]

/-- The least and the greatest number of a signal for use in real time. -/
def leastRealTime : Nat := 34

def greatest : Nat := 64

/-- The name of a signal for use in real time: its distance from the nearer end. -/
def realTimeName (number : Nat) : String :=
  if number = leastRealTime then "RTMIN"
  else if number = greatest then "RTMAX"
  else if 2 * number ≤ leastRealTime + greatest then
    "RTMIN+" ++ toString (number - leastRealTime)
  else "RTMAX-" ++ toString (greatest - number)

/-- The name of a signal, or its number if it has no name; the end of the shell counts as number
0. -/
def name (number : Nat) : String :=
  if number = 0 then "EXIT"
  else if leastRealTime ≤ number then realTimeName number
  else names[number - 1]?.getD (toString number)

/-- The number of a signal that is given by its number or its name, in either case. -/
def number? (text : ByteText) : Option Nat :=
  if !text.isEmpty && text.all Char.isDigit then
    let number := text.foldl (fun n c => 10 * n + (c.toNat - '0'.toNat)) 0
    if number ≤ greatest then some number else none
  else
    (List.range (greatest + 1)).find? fun number =>
      (name number).toList == text.map Char.toUpper

def isHarmless (signal : Nat) : Bool :=
  [0, 17, 18, 19, 20, 21, 22, 23, 28].contains signal

/-- What the shell reports about a program that a signal has ended. -/
def report? (signal : Nat) : Option String :=
  [(1, "Hangup"), (3, "Quit"), (4, "Illegal instruction"), (5, "Trace/breakpoint trap"),
    (6, "Aborted"), (7, "Bus error"), (8, "Floating point exception"), (9, "Killed"),
    (10, "User defined signal 1"), (11, "Segmentation fault"), (12, "User defined signal 2"),
    (14, "Alarm clock"), (15, "Terminated"), (16, "Stack fault"), (24, "CPU time limit exceeded"),
    (25, "File size limit exceeded"), (26, "Virtual timer expired"),
    (27, "Profiling timer expired"), (29, "I/O possible"), (30, "Power failure"),
    (31, "Bad system call"), (32, "Unknown signal 32"), (33, "Unknown signal 33")].lookup signal <|>
  if leastRealTime ≤ signal then
    some ("Real-time signal " ++ toString (signal - leastRealTime))
  else none

end ContractInspector.Machine.Shell.Signal
