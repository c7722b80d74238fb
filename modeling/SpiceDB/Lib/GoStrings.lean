import Mathlib.Data.List.Basic

namespace GoStrings

/-- `unicode.IsSpace`: the Latin-1 spaces and the other runes of Unicode's White_Space. -/
def isSpace (c : Char) : Bool :=
  [0x09, 0x0A, 0x0B, 0x0C, 0x0D, 0x20, 0x85, 0xA0, 0x1680, 0x2028, 0x2029, 0x202F, 0x205F,
    0x3000].contains c.toNat || (0x2000 ≤ c.toNat && c.toNat ≤ 0x200A)

def trimSpace (s : String) : String :=
  String.ofList ((s.toList.dropWhile isSpace).reverse.dropWhile isSpace).reverse

def hasPrefix (s t : String) : Bool := t.toList.isPrefixOf s.toList

/-- `strings.TrimPrefix`: one occurrence at most. -/
def trimPrefix (s t : String) : String :=
  if hasPrefix s t then String.ofList (s.toList.drop t.length) else s

def hasSuffix (s t : String) : Bool := t.toList.isSuffixOf s.toList

/-- `strings.TrimSuffix`: one occurrence at most. -/
def trimSuffix (s t : String) : String :=
  if hasSuffix s t then String.ofList (s.toList.take (s.length - t.length)) else s

def containsRune (s : String) (r : Char) : Bool := s.toList.contains r

/-- `len` of a string, in bytes. -/
def len (s : String) : ℕ := s.utf8ByteSize

def join (elems : List String) (sep : String) : String := sep.intercalate elems

/-- `strings.Cut` at a one-rune separator: the text before and after its first occurrence, and
whether there is one; without one, the whole text and the empty string. -/
def cut (s : String) (sep : Char) : String × String × Bool :=
  match s.toList.span (· ≠ sep) with
  | (before, _ :: after) => (String.ofList before, String.ofList after, true)
  | (before, []) => (String.ofList before, "", false)

/-- `dropCR`: a carriage return at the end of a line goes. -/
def dropCR (line : List Char) : List Char :=
  if line.getLast? = some '\r' then line.dropLast else line

/-- The lines a `bufio.Scanner` splitting with `ScanLines` reads: the text between newlines,
each without a final carriage return, and the last only when it is not empty. Tokens longer
than the scanner's buffer are left out. -/
def scanLines (s : String) : List String :=
  let lines := s.toList.splitOn '\n'
  let lines := if lines.getLast? = some [] then lines.dropLast else lines
  lines.map fun line => String.ofList (dropCR line)

end GoStrings
