import ContractInspector.Machine.Shell.Command

/-! Options: the ones of the shell itself, and the reading of the options of its commands. -/
namespace ContractInspector.Machine.Shell.Options

/-- The options of the shell in the order in which they are listed, each with its letter if it has
one. -/
def all : List (String × Option Char) :=
  [("errexit", some 'e'), ("noglob", some 'f'), ("ignoreeof", some 'I'), ("interactive", some 'i'),
    ("monitor", some 'm'), ("noexec", some 'n'), ("stdin", some 's'), ("xtrace", some 'x'),
    ("verbose", some 'v'), ("vi", some 'V'), ("emacs", some 'E'), ("noclobber", some 'C'),
    ("allexport", some 'a'), ("notify", some 'b'), ("nounset", some 'u'), ("privileged", some 'p'),
    ("nolog", none), ("debug", none)]

def letters : List Char :=
  all.filterMap (·.2)

/-- The letters of some options as they are listed. -/
def shown (options : List Char) : List Char :=
  letters.reverse.filter options.contains

/-- A table of the options with their states. -/
def table (options : List Char) : ByteText :=
  let row (entry : String × Option Char) : ByteText :=
    let padding := List.replicate (16 - entry.1.length) ' '
    entry.1.toList ++ padding ++
      (if entry.2.any options.contains then "on\n" else "off\n").toList
  "Current option settings\n".toList ++ all.flatMap row

/-- Commands that bring back the states of the options. -/
def commands (options : List Char) : ByteText :=
  all.flatMap fun entry =>
    ((if entry.2.any options.contains then "set -o " else "set +o ") ++ entry.1 ++ "\n").toList

/-- The option letters at the front of some arguments and the arguments behind them, or the first
letter that is not allowed. -/
def take (allowed : List Char) : List ByteText → Except Char (List Char × List ByteText)
  | ['-', '-'] :: others => .ok ([], others)
  | ('-' :: c :: more) :: others =>
    match (c :: more).find? fun letter => !allowed.contains letter with
    | some wrong => .error wrong
    | none => do
      let (letters, rest) ← take allowed others
      return (c :: more ++ letters, rest)
  | others => .ok ([], others)

end ContractInspector.Machine.Shell.Options
