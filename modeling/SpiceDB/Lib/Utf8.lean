import Mathlib.Data.List.Basic
import Mathlib.Data.Int.Notation

namespace Utf8

/-- `utf8.RuneError`, U+FFFD. -/
def runeError : ℤ := 0xFFFD

/-- The width of the sequence a first byte starts and the range of its second byte (`first`
and `acceptRanges`); `none` for ASCII and for the bytes no sequence starts with. -/
def sequenceStart (b : ℕ) : Option (ℕ × ℕ × ℕ) :=
  if 0xC2 ≤ b ∧ b ≤ 0xDF then some (2, 0x80, 0xBF)
  else if b = 0xE0 then some (3, 0xA0, 0xBF)
  else if 0xE1 ≤ b ∧ b ≤ 0xEC then some (3, 0x80, 0xBF)
  else if b = 0xED then some (3, 0x80, 0x9F)
  else if 0xEE ≤ b ∧ b ≤ 0xEF then some (3, 0x80, 0xBF)
  else if b = 0xF0 then some (4, 0x90, 0xBF)
  else if 0xF1 ≤ b ∧ b ≤ 0xF3 then some (4, 0x80, 0xBF)
  else if b = 0xF4 then some (4, 0x80, 0x8F)
  else none

/-- A continuation byte, `locb` to `hicb`. -/
def isContinuation (b : ℕ) : Bool := 0x80 ≤ b && b ≤ 0xBF

def decodeRune : List ℕ → ℤ × ℕ
  | [] => (runeError, 0)
  | s0 :: rest =>
    if s0 < 0x80 then ((s0 : ℤ), 1) else
    match sequenceStart s0 with
    | none => (runeError, 1)
    | some (size, lo, hi) =>
      if rest.length + 1 < size then (runeError, 1) else
      match rest with
      | s1 :: rest =>
        if s1 < lo ∨ hi < s1 then (runeError, 1)
        else if size ≤ 2 then (((s0 % 0x20 * 0x40 + s1 % 0x40 : ℕ) : ℤ), 2) else
        match rest with
        | s2 :: rest =>
          if !isContinuation s2 then (runeError, 1)
          else if size ≤ 3 then
            (((s0 % 0x10 * 0x1000 + s1 % 0x40 * 0x40 + s2 % 0x40 : ℕ) : ℤ), 3) else
          match rest with
          | s3 :: _ =>
            if !isContinuation s3 then (runeError, 1)
            else (((s0 % 0x08 * 0x40000 + s1 % 0x40 * 0x1000 + s2 % 0x40 * 0x40 + s3 % 0x40 : ℕ) : ℤ),
              4)
          | [] => (runeError, 1)
        | [] => (runeError, 1)
      | [] => (runeError, 1)

theorem decodeRune_ascii {b : ℕ} (hb : b < 0x80) (rest : List ℕ) :
    decodeRune (b :: rest) = ((b : ℤ), 1) := by
  simp [decodeRune, hb]

/-- `string(r)`, as `utf8.EncodeRune` writes it: `RuneError` for a value that is no Unicode
scalar value. -/
def encodeRune (r : ℤ) : List ℕ :=
  if r < 0 ∨ 0x10FFFF < r ∨ (0xD800 ≤ r ∧ r ≤ 0xDFFF) then [0xEF, 0xBF, 0xBD]
  else
    let n := r.toNat
    if n ≤ 0x7F then [n]
    else if n ≤ 0x7FF then [0xC0 + n / 0x40, 0x80 + n % 0x40]
    else if n ≤ 0xFFFF then [0xE0 + n / 0x1000, 0x80 + n / 0x40 % 0x40, 0x80 + n % 0x40]
    else [0xF0 + n / 0x40000, 0x80 + n / 0x1000 % 0x40, 0x80 + n / 0x40 % 0x40, 0x80 + n % 0x40]

/-- The bytes of a string. -/
def bytesOf (s : String) : List ℕ := s.toUTF8.toList.map UInt8.toNat

end Utf8
