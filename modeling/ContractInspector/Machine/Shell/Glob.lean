import ContractInspector.Machine.FileTree
import ContractInspector.Machine.Shell.Command

/-! Patterns of the shell: they fit texts and the names of files. -/
namespace ContractInspector.Machine.Shell

/-- A character of a pattern, and whether it stands for itself. -/
abbrev GlobText := List (Char × Bool)

inductive Glob where
  | char (c : Char)
  | anyChar
  | anyText
  /-- A character in one of some ranges, or in none of them if `negated` is set. -/
  | oneOf (negated : Bool) (ranges : List (Char × Char))
deriving DecidableEq

namespace Glob

/-- The ranges of a named class of characters. -/
def classRanges : String → List (Char × Char)
  | "alpha" => [('A', 'Z'), ('a', 'z')]
  | "digit" => [('0', '9')]
  | "alnum" => [('0', '9'), ('A', 'Z'), ('a', 'z')]
  | "upper" => [('A', 'Z')]
  | "lower" => [('a', 'z')]
  | "space" => [('\t', '\r'), (' ', ' ')]
  | "blank" => [('\t', '\t'), (' ', ' ')]
  | "punct" => [('!', '/'), (':', '@'), ('[', '`'), ('{', '~')]
  | "print" => [(' ', '~')]
  | "graph" => [('!', '~')]
  | "cntrl" => [('\x00', '\x1f'), ('\x7f', '\x7f')]
  | "xdigit" => [('0', '9'), ('A', 'F'), ('a', 'f')]
  | _ => []

/-- The ranges of the named class whose name starts here, and what is behind it. -/
def takeClass? (text : GlobText) : Option (List (Char × Char) × GlobText) :=
  let name := (text.map (·.1)).takeWhile Char.isAlpha
  match text.drop name.length with
  | (':', _) :: (']', _) :: behind => some (classRanges (String.ofList name), behind)
  | _ => none

/-- The ranges up to a closing bracket. A bracket that comes first stands for itself. -/
def takeRanges : (fuel : Nat) → (isFirst : Bool) → GlobText →
    Option (List (Char × Char) × GlobText)
  | 0, _, _ => none
  | _ + 1, _, [] => none
  | fuel + 1, _, ('[', false) :: (':', false) :: named =>
    match takeClass? named with
    | some (found, behind) =>
      (takeRanges fuel false behind).map fun (ranges, rest) => (found ++ ranges, rest)
    | none =>
      (takeRanges fuel false ((':', false) :: named)).map fun (ranges, rest) =>
        (('[', '[') :: ranges, rest)
  | fuel + 1, isFirst, (c, literal) :: ('-', false) :: (upper, isLiteral) :: behind =>
    if c = ']' && !literal && !isFirst then some ([], ('-', false) :: (upper, isLiteral) :: behind)
    else if upper = ']' && !isLiteral then some ([(c, c), ('-', '-')], behind)
    else (takeRanges fuel false behind).map fun (ranges, rest) => ((c, upper) :: ranges, rest)
  | fuel + 1, isFirst, (c, literal) :: rest =>
    if c = ']' && !literal && !isFirst then some ([], rest)
    else (takeRanges fuel false rest).map fun (ranges, rest) => ((c, c) :: ranges, rest)

def ofText : (fuel : Nat) → GlobText → List Glob
  | 0, _ => []
  | _ + 1, [] => []
  | fuel + 1, (c, literal) :: rest =>
    if literal then .char c :: ofText fuel rest
    else if c = '*' then .anyText :: ofText fuel rest
    else if c = '?' then .anyChar :: ofText fuel rest
    else if c = '[' then
      let (negated, inside) :=
        match rest with
        | ('!', false) :: behind => (true, behind)
        | _ => (false, rest)
      match takeRanges (inside.length + 1) true inside with
      | some (ranges, rest) => .oneOf negated ranges :: ofText fuel rest
      | none => .char c :: ofText fuel rest
    else .char c :: ofText fuel rest

def fits : List Glob → ByteText → Bool
  | [], text => text.isEmpty
  | .anyText :: pattern, text => fitsBehind pattern text
  | _ :: _, [] => false
  | .char c :: pattern, d :: text => c == d && fits pattern text
  | .anyChar :: pattern, _ :: text => fits pattern text
  | .oneOf negated ranges :: pattern, c :: text =>
    (ranges.any (fun range => range.1 ≤ c && c ≤ range.2)) != negated && fits pattern text
where
  /-- A pattern fits an end of the text. -/
  fitsBehind (pattern : List Glob) : ByteText → Bool
    | [] => fits pattern []
    | c :: text => fits pattern (c :: text) || fitsBehind pattern text

end Glob

/-- A text may stand for the names of files. -/
def isGlob (text : GlobText) : Bool :=
  text.contains ('*', false) || text.contains ('?', false) ||
    (text.contains ('[', false) && text.contains (']', false))

def GlobText.plain (text : GlobText) : ByteText :=
  text.map (·.1)

def globNames (text : GlobText) : List GlobText :=
  text.foldr (fun (c, literal) names =>
    if c = '/' then [] :: names
    else
      match names with
      | name :: others => ((c, literal) :: name) :: others
      | [] => [[(c, literal)]]) [[]]

/-- The paths that fit a pattern of names behind a path that has been walked, sorted. -/
def matchingPaths (tree : FileTree) (directory : Names) :
    (walked : ByteText) → (names : List GlobText) → List ByteText
  | _, [] => []
  | walked, name :: names =>
    let here := if walked.isEmpty then "." else ByteText.toString walked
    let found : List ByteText :=
      if isGlob name then
        let pattern := Glob.ofText name.length name
        let visible := (name.head?.map (·.1)) = some '.'
        match tree.find directory here with
        | .ok (place, .directory _) =>
          (("." :: ".." :: tree.entries place).map ByteText.ofString).filter fun entry =>
            (visible || entry.head? != some '.') && Glob.fits pattern entry
        | _ => []
      else [name.plain]
    found.flatMap fun entry =>
      let path := walked ++ entry
      if names.isEmpty then
        match tree.place directory (ByteText.toString path) false with
        | .ok ⟨_, some _⟩ => [path]
        | _ => []
      else matchingPaths tree directory (path ++ ['/']) names

/-- The paths that a text stands for: the ones that fit it, or itself if it is no pattern or fits
none. -/
def globbed (tree : FileTree) (directory : Names) (text : GlobText) : List ByteText :=
  if !isGlob text then [text.plain]
  else
    let found := matchingPaths tree directory [] (globNames text)
    if found.isEmpty then [text.plain] else found

end ContractInspector.Machine.Shell
