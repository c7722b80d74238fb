import Mathlib

namespace Base64

/-- `decodeMap`: the value of a character of the alphabet. -/
def decodeChar (c : Char) : Option ℕ :=
  if 'A' ≤ c ∧ c ≤ 'Z' then some (c.toNat - 'A'.toNat)
  else if 'a' ≤ c ∧ c ≤ 'z' then some (c.toNat - 'a'.toNat + 26)
  else if '0' ≤ c ∧ c ≤ '9' then some (c.toNat - '0'.toNat + 52)
  else if c = '+' then some 62
  else if c = '/' then some 63
  else none

/-- `encodeStd`: the character of a value below 64. -/
def encodeChar (v : ℕ) : Char :=
  if v < 26 then Char.ofNat ('A'.toNat + v)
  else if v < 52 then Char.ofNat ('a'.toNat + (v - 26))
  else if v < 62 then Char.ofNat ('0'.toNat + (v - 52))
  else if v = 62 then '+'
  else '/'

def encodeToString : List ℕ → List Char
  | [] => []
  | [b0] => [encodeChar (b0 / 4), encodeChar (b0 % 4 * 16), '=', '=']
  | [b0, b1] =>
    [encodeChar (b0 / 4), encodeChar (b0 % 4 * 16 + b1 / 16), encodeChar (b1 % 16 * 4), '=']
  | b0 :: b1 :: b2 :: rest =>
    encodeChar (b0 / 4) :: encodeChar (b0 % 4 * 16 + b1 / 16) ::
      encodeChar (b1 % 16 * 4 + b2 / 64) :: encodeChar (b2 % 64) :: encodeToString rest

/-- `CorruptInputError`: the offset of the byte at fault. -/
structure CorruptInputError where
  offset : ℕ
  deriving DecidableEq, Repr

/-- The bytes a quantum of two to four values gives: one less than its values. -/
def quantumBytes (values : List ℕ) : List ℕ :=
  let val := values.getD 0 0 * 2 ^ 18 + values.getD 1 0 * 2 ^ 12 + values.getD 2 0 * 2 ^ 6 +
    values.getD 3 0
  [val / 2 ^ 16 % 256, val / 2 ^ 8 % 256, val % 256].take (values.length - 1)

def isNewline (c : Char) : Bool := c = '\n' || c = '\r'

/-- After the padding only newlines may follow; `si` is the offset of `rest`. -/
def afterPadding (si : ℕ) (rest : List Char) (out : List ℕ) : Except CorruptInputError (List ℕ) :=
  let skipped := (rest.takeWhile isNewline).length
  if skipped < rest.length then .error ⟨si + skipped⟩ else .ok out

/-- `Decode` from offset `si`, with the values `quantum` of the quantum under way. -/
def decodeFrom : ℕ → List ℕ → List Char → Except CorruptInputError (List ℕ)
  | _, [], [] => .ok []
  | si, quantum, [] => .error ⟨si - quantum.length⟩
  | si, quantum, c :: cs =>
    match decodeChar c with
    | some v =>
      if quantum.length = 3 then
        (quantumBytes (quantum ++ [v]) ++ ·) <$> decodeFrom (si + 1) [] cs
      else decodeFrom (si + 1) (quantum ++ [v]) cs
    | none =>
      if isNewline c then decodeFrom (si + 1) quantum cs
      else if c ≠ '=' then .error ⟨si⟩
      else if quantum.length < 2 then .error ⟨si⟩
      else if quantum.length = 2 then
        -- a second `=` is due, after newlines
        let skipped := (cs.takeWhile isNewline).length
        match cs.drop skipped with
        | [] => .error ⟨si + 1 + cs.length⟩
        | d :: ds =>
          if d ≠ '=' then .error ⟨si + skipped⟩
          else afterPadding (si + 2 + skipped) ds (quantumBytes quantum)
      else afterPadding (si + 1) cs (quantumBytes quantum)

def decodeString (s : List Char) : Except CorruptInputError (List ℕ) := decodeFrom 0 [] s

theorem decodeChar_encodeChar : ∀ v, v < 64 → decodeChar (encodeChar v) = some v := by
  decide

theorem decodeChar_ne_none {v : ℕ} (hv : v < 64) : decodeChar (encodeChar v) ≠ none := by
  rw [decodeChar_encodeChar v hv]
  exact Option.some_ne_none v

theorem decodeChar_pad : decodeChar '=' = none := rfl

theorem quantumBytes_three {b0 b1 b2 : ℕ} (h0 : b0 < 256) (h1 : b1 < 256) (h2 : b2 < 256) :
    quantumBytes [b0 / 4, b0 % 4 * 16 + b1 / 16, b1 % 16 * 4 + b2 / 64, b2 % 64] =
      [b0, b1, b2] := by
  simp only [quantumBytes, List.getD_cons_zero, List.getD_cons_succ, List.length_cons,
    List.length_nil]
  simp only [List.take_succ_cons, List.take_zero, List.cons.injEq, and_true]
  omega

theorem quantumBytes_two {b0 b1 : ℕ} (h0 : b0 < 256) (h1 : b1 < 256) :
    quantumBytes [b0 / 4, b0 % 4 * 16 + b1 / 16, b1 % 16 * 4] = [b0, b1] := by
  simp only [quantumBytes, List.getD_cons_zero, List.getD_cons_succ, List.getD_nil,
    List.length_cons, List.length_nil]
  simp only [List.take_succ_cons, List.take_zero, List.cons.injEq, and_true]
  omega

theorem quantumBytes_one {b0 : ℕ} (h0 : b0 < 256) :
    quantumBytes [b0 / 4, b0 % 4 * 16] = [b0] := by
  simp only [quantumBytes, List.getD_cons_zero, List.getD_cons_succ, List.getD_nil,
    List.length_cons, List.length_nil]
  simp only [List.take_succ_cons, List.take_zero, List.cons.injEq, and_true]
  omega

theorem afterPadding_nil (si : ℕ) (out : List ℕ) : afterPadding si [] out = .ok out := rfl

/-- Decoding the text of bytes gives them back, from any offset. -/
theorem decodeFrom_encodeToString (bytes : List ℕ) (hbytes : ∀ b ∈ bytes, b < 256) (si : ℕ) :
    decodeFrom si [] (encodeToString bytes) = .ok bytes := by
  induction bytes using encodeToString.induct generalizing si with
  | case1 => rfl
  | case2 b0 =>
    have h0 := hbytes b0 (by simp)
    simp only [encodeToString, decodeFrom, decodeChar_encodeChar _ (by omega : b0 / 4 < 64),
      decodeChar_encodeChar _ (by omega : b0 % 4 * 16 < 64), decodeChar_pad]
    simp [isNewline, quantumBytes_one h0, afterPadding_nil]
  | case3 b0 b1 =>
    have h0 := hbytes b0 (by simp)
    have h1 := hbytes b1 (by simp)
    simp only [encodeToString, decodeFrom,
      decodeChar_encodeChar _ (by omega : b0 / 4 < 64),
      decodeChar_encodeChar _ (by omega : b0 % 4 * 16 + b1 / 16 < 64),
      decodeChar_encodeChar _ (by omega : b1 % 16 * 4 < 64), decodeChar_pad]
    simp [isNewline, quantumBytes_two h0 h1, afterPadding_nil]
  | case4 b0 b1 b2 rest ih =>
    have h0 := hbytes b0 (by simp)
    have h1 := hbytes b1 (by simp)
    have h2 := hbytes b2 (by simp)
    have hrest : ∀ b ∈ rest, b < 256 := fun b hb => hbytes b (by simp [hb])
    simp only [encodeToString, decodeFrom,
      decodeChar_encodeChar _ (by omega : b0 / 4 < 64),
      decodeChar_encodeChar _ (by omega : b0 % 4 * 16 + b1 / 16 < 64),
      decodeChar_encodeChar _ (by omega : b1 % 16 * 4 + b2 / 64 < 64),
      decodeChar_encodeChar _ (by omega : b2 % 64 < 64)]
    simp [ih hrest, quantumBytes_three h0 h1 h2]

theorem decodeString_encodeToString (bytes : List ℕ) (hbytes : ∀ b ∈ bytes, b < 256) :
    decodeString (encodeToString bytes) = .ok bytes :=
  decodeFrom_encodeToString bytes hbytes 0

theorem plain_of_isDigit {c : Char} (h : c.isDigit) : c ≠ '=' ∧ isNewline c = false := by
  have hrange := Char.isDigit_iff_toNat.1 h
  refine ⟨?_, ?_⟩
  · rintro rfl
    simp at hrange
  · simp only [isNewline, Bool.or_eq_false_iff, decide_eq_false_iff_not]
    constructor <;> rintro rfl <;> simp at hrange

/-- Text with no newline and no padding is rejected when one of its characters is out of the
alphabet, or when its characters, after the `quantum` under way, do not fill whole quanta. -/
theorem decodeFrom_error {cs : List Char} (hcs : ∀ c ∈ cs, c ≠ '=' ∧ isNewline c = false) :
    ∀ (si : ℕ) (quantum : List ℕ), quantum.length < 4 →
      (∃ c ∈ cs, decodeChar c = none) ∨ (quantum.length + cs.length) % 4 ≠ 0 →
      ∃ e, decodeFrom si quantum cs = .error e := by
  induction cs with
  | nil =>
    intro si quantum _ hbad
    simp only [List.not_mem_nil, false_and, exists_false, false_or, List.length_nil,
      Nat.add_zero] at hbad
    cases quantum with
    | nil => simp at hbad
    | cons v vs => exact ⟨_, rfl⟩
  | cons c cs ih =>
    intro si quantum hquantum hbad
    have ⟨hpad, hnewline⟩ := hcs c (by simp)
    have hcs' : ∀ d ∈ cs, d ≠ '=' ∧ isNewline d = false := fun d hd => hcs d (by simp [hd])
    cases hc : decodeChar c with
    | none =>
      -- out of the alphabet: rejected where it stands
      exact ⟨⟨si⟩, by simp [decodeFrom, hc, hnewline, hpad]⟩
    | some v =>
      -- in the alphabet: the fault is further on
      have hbad' : (∃ d ∈ cs, decodeChar d = none) ∨
          (quantum.length + 1 + cs.length) % 4 ≠ 0 := by
        rcases hbad with ⟨d, hd, hnone⟩ | hcount
        · rcases List.mem_cons.1 hd with rfl | hd
          · rw [hc] at hnone
            cases hnone
          · exact .inl ⟨d, hd, hnone⟩
        · right
          simpa [Nat.add_assoc, Nat.add_comm 1] using hcount
      by_cases hthree : quantum.length = 3
      · obtain ⟨e, he⟩ := ih hcs' (si + 1) [] (by simp)
          (by rcases hbad' with h | h; exact .inl h; right; simp; omega)
        exact ⟨e, by simp [decodeFrom, hc, hthree, he]⟩
      · obtain ⟨e, he⟩ := ih hcs' (si + 1) (quantum ++ [v]) (by simp; omega)
          (by simpa using hbad')
        exact ⟨e, by simp [decodeFrom, hc, hthree, he]⟩

end Base64
