import Mathlib.Data.Rat.Floor
import Mathlib.Data.List.Sort
import SpiceDB.Core.Struct

namespace SpiceDB.Caveats

def formatBool (b : Bool) : String := if b then "true" else "false"

/-- The integer nearest to a nonnegative rational, ties to even, as `strconv` rounds an exact
decimal. -/
def roundHalfEven (q : ℚ) : ℕ :=
  let f := ⌊q⌋.toNat
  let r := q - f
  if r < 1 / 2 then f
  else if 1 / 2 < r then f + 1
  else if f % 2 = 0 then f else f + 1

/-- The fractional part of a fixed-point number with six decimals, zero-padded. -/
def sixDigits (n : ℕ) : String :=
  let s := toString n
  String.ofList (List.replicate (6 - s.length) '0') ++ s

/-- `strconv.FormatFloat(v, 'f', 6, 64)` on a finite value. -/
def formatFloat6 (q : ℚ) : String :=
  let n := roundHalfEven (|q| * 10 ^ 6)
  (if q < 0 then "-" else "") ++ toString (n / 10 ^ 6) ++ "." ++ sixDigits (n % 10 ^ 6)

/-- `shouldEscape(c, encodePathSegment)` of net/url. -/
def shouldEscapePathSegment (c : UInt8) : Bool :=
  let n := c.toNat
  if ('a'.toNat ≤ n ∧ n ≤ 'z'.toNat) ∨ ('A'.toNat ≤ n ∧ n ≤ 'Z'.toNat) ∨
      ('0'.toNat ≤ n ∧ n ≤ '9'.toNat) then false
  else if n ∈ ['-'.toNat, '_'.toNat, '.'.toNat, '~'.toNat] then false
  else if n ∈ ['$'.toNat, '&'.toNat, '+'.toNat, ','.toNat, '/'.toNat, ':'.toNat, ';'.toNat,
      '='.toNat, '?'.toNat, '@'.toNat] then
    n = '/'.toNat || n = ';'.toNat || n = ','.toNat || n = '?'.toNat
  else true

/-- An upper-case hexadecimal digit. -/
def upperhex (n : ℕ) : Char := if n < 10 then Char.ofNat (48 + n) else Char.ofNat (55 + n)

/-- `url.PathEscape`: every byte that a path segment may not hold becomes `%XX`. -/
def pathEscape (s : String) : String :=
  String.join (s.toUTF8.toList.map fun c =>
    if shouldEscapePathSegment c then
      String.ofList ['%', upperhex (c.toNat / 16), upperhex (c.toNat % 16)]
    else String.singleton (Char.ofNat c.toNat))

/-- The rendered fields of a struct, key by key, in ascending key order (`sort.Strings`; on
valid UTF-8 the byte order is the order of code points). -/
def joinSortedFields (rendered : List (String × String)) : String :=
  String.join ((rendered.map Prod.fst).insertionSort (· ≤ ·) |>.map fun key =>
    "\x60" ++ key ++ "\x60:" ++ ((rendered.lookup key).getD "") ++ ",\n")

mutual
def appendValue : Value → String
  | .boolValue b => formatBool b
  | .listValue values => appendValues values
  | .nullValue => "null"
  | .numberValue n => formatFloat6 n
  | .stringValue s => "\x60" ++ pathEscape s ++ "\x60"
  | .structValue fields => "\x7b" ++ joinSortedFields (appendFields fields) ++ "\x7d"

/-- The elements of a list value, each followed by a comma. -/
def appendValues : List Value → String
  | [] => ""
  | value :: values => appendValue value ++ "," ++ appendValues values

/-- Each field's key with its rendered value. -/
def appendFields : List (String × Value) → List (String × String)
  | [] => []
  | (key, value) :: fields => (key, appendValue value) :: appendFields fields
end

/-- `StableContextStringForHashing`: a `nil` context renders empty. -/
def stableContextStringForHashing : Option Struct → String
  | none => ""
  | some context => joinSortedFields (appendFields context.fields)

end SpiceDB.Caveats
