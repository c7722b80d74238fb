import Mathlib

namespace Strconv

/-- The cause a `*NumError` carries. -/
inductive NumError where
  | errSyntax
  | errRange
  deriving DecidableEq, Repr

def maxUint64 : ℕ := 2 ^ 64 - 1

/-- The loop of `ParseUint` in base 10, with largest value `maxVal`. In Go the sum can wrap past
`2^64`, which `n1 < n` catches; here it is past `maxVal`. -/
def parseUintLoop (maxVal : ℕ) : ℕ → List Char → Except NumError ℕ
  | n, [] => .ok n
  | n, c :: cs =>
    if !c.isDigit then .error .errSyntax
    -- the cutoff is the least `n` whose product with the base overflows
    else if maxUint64 / 10 + 1 ≤ n then .error .errRange
    else if maxVal < n * 10 + (c.toNat - '0'.toNat) then .error .errRange
    else parseUintLoop maxVal (n * 10 + (c.toNat - '0'.toNat)) cs

def parseUint (s : List Char) (bitSize : ℕ) : Except NumError ℕ :=
  if s = [] then .error .errSyntax else parseUintLoop (2 ^ bitSize - 1) 0 s

/-- `ParseInt(s, 10, bitSize)`: a sign, `ParseUint` on the rest, then the range of `bitSize`
bits. A range error of `ParseUint` comes with its largest value, which is past the cutoff, so
it is a range error of `ParseInt` too. -/
def parseInt (s : List Char) (bitSize : ℕ) : Except NumError ℤ :=
  match s with
  | [] => .error .errSyntax
  | c :: rest =>
    let neg := c = '-'
    match parseUint (if c = '+' ∨ c = '-' then rest else c :: rest) bitSize with
    | .error err => .error err
    | .ok un =>
      if !neg ∧ 2 ^ (bitSize - 1) ≤ un then .error .errRange
      else if neg ∧ 2 ^ (bitSize - 1) < un then .error .errRange
      else .ok (if neg then -(un : ℤ) else un)

def formatInt (i : ℤ) : List Char :=
  if i < 0 then '-' :: Nat.toDigits 10 i.natAbs else Nat.toDigits 10 i.toNat

theorem le_ofDigitChars (cs : List Char) (n : ℕ) : n ≤ Nat.ofDigitChars 10 cs n := by
  rw [Nat.ofDigitChars_eq_ofDigitChars_zero]
  have : 1 ≤ 10 ^ cs.length := Nat.one_le_pow _ _ (by decide)
  calc n ≤ 10 ^ cs.length * n := Nat.le_mul_of_pos_left n this
    _ ≤ _ := Nat.le_add_right _ _

/-- On digits the loop computes their value, when that value is at most `maxVal`. -/
theorem parseUintLoop_digits {maxVal : ℕ} (hmax : maxVal ≤ maxUint64) :
    ∀ (cs : List Char) (n : ℕ), (∀ c ∈ cs, c.isDigit) → Nat.ofDigitChars 10 cs n ≤ maxVal →
      parseUintLoop maxVal n cs = .ok (Nat.ofDigitChars 10 cs n) := by
  intro cs
  induction cs with
  | nil => intro n _ _; rfl
  | cons c cs ih =>
    intro n hdigits hval
    have hc : c.isDigit = true := hdigits c List.mem_cons_self
    rw [Nat.ofDigitChars_cons] at hval ⊢
    -- the next partial value is at most the whole value, so no check fails
    have hnext := le_ofDigitChars cs (10 * n + (c.toNat - '0'.toNat))
    have hcut : ¬ maxUint64 / 10 + 1 ≤ n := by
      simp only [maxUint64] at hmax ⊢
      omega
    have hle : ¬ maxVal < n * 10 + (c.toNat - '0'.toNat) := by omega
    rw [parseUintLoop, if_neg (by simp [hc]), if_neg hcut, if_neg hle, Nat.mul_comm n 10]
    exact ih _ (fun d hd => hdigits d (List.mem_cons_of_mem c hd)) hval

/-- What the loop accepts is digits, and it returns their value, which is at most `maxVal`. -/
theorem of_parseUintLoop_eq_ok {maxVal : ℕ} :
    ∀ (cs : List Char) (n v : ℕ), n ≤ maxVal → parseUintLoop maxVal n cs = .ok v →
      (∀ c ∈ cs, c.isDigit) ∧ v = Nat.ofDigitChars 10 cs n ∧ v ≤ maxVal := by
  intro cs
  induction cs with
  | nil =>
    intro n v hn h
    cases h
    exact ⟨by simp, rfl, hn⟩
  | cons c cs ih =>
    intro n v _ h
    rw [parseUintLoop] at h
    by_cases hc : c.isDigit = true
    · rw [if_neg (by simp [hc])] at h
      by_cases hcut : maxUint64 / 10 + 1 ≤ n
      · rw [if_pos hcut] at h
        cases h
      · rw [if_neg hcut] at h
        by_cases hle : maxVal < n * 10 + (c.toNat - '0'.toNat)
        · rw [if_pos hle] at h
          cases h
        · rw [if_neg hle] at h
          obtain ⟨hdigits, hv, hmax⟩ := ih _ v (by omega) h
          refine ⟨?_, ?_, hmax⟩
          · intro d hd
            rcases List.mem_cons.1 hd with rfl | hd
            · exact hc
            · exact hdigits d hd
          · rw [hv, Nat.ofDigitChars_cons, Nat.mul_comm 10 n]
    · rw [if_pos (by simp [hc])] at h
      cases h

theorem parseUint_digits {s : List Char} {bitSize : ℕ} (hbits : bitSize ≤ 64) (hs : s ≠ [])
    (hdigits : ∀ c ∈ s, c.isDigit) (hval : Nat.ofDigitChars 10 s 0 < 2 ^ bitSize) :
    parseUint s bitSize = .ok (Nat.ofDigitChars 10 s 0) := by
  have hmax : 2 ^ bitSize - 1 ≤ maxUint64 := by
    have := Nat.pow_le_pow_right (n := 2) (by decide) hbits
    simp only [maxUint64]
    omega
  rw [parseUint, if_neg hs]
  exact parseUintLoop_digits hmax s 0 hdigits (by omega)

theorem of_parseUint_eq_ok {s : List Char} {bitSize v : ℕ} (h : parseUint s bitSize = .ok v) :
    s ≠ [] ∧ (∀ c ∈ s, c.isDigit) ∧ v = Nat.ofDigitChars 10 s 0 ∧ v < 2 ^ bitSize := by
  unfold parseUint at h
  split at h
  · cases h
  · rename_i hs
    obtain ⟨hdigits, hv, hmax⟩ := of_parseUintLoop_eq_ok s 0 v (Nat.zero_le _) h
    have := Nat.one_le_two_pow (n := bitSize)
    exact ⟨hs, hdigits, hv, by omega⟩

theorem parseInt_digits {s : List Char} {bitSize : ℕ} (hbits : bitSize ≤ 64) (hs : s ≠ [])
    (hdigits : ∀ c ∈ s, c.isDigit) (hval : Nat.ofDigitChars 10 s 0 < 2 ^ (bitSize - 1)) :
    parseInt s bitSize = .ok (Nat.ofDigitChars 10 s 0) := by
  obtain ⟨c, rest, rfl⟩ := List.exists_cons_of_ne_nil hs
  have hc := hdigits c List.mem_cons_self
  -- a digit is no sign
  have hplus : c ≠ '+' := by rintro rfl; simp at hc
  have hminus : c ≠ '-' := by rintro rfl; simp at hc
  have hfits : Nat.ofDigitChars 10 (c :: rest) 0 < 2 ^ bitSize :=
    Nat.lt_of_lt_of_le hval (Nat.pow_le_pow_right (by decide) (Nat.sub_le _ _))
  simp only [parseInt, hplus, hminus, or_self, if_false,
    parseUint_digits hbits hs hdigits hfits, Nat.not_le.2 hval]
  simp

/-- Text of digits that `ParseInt` accepts reads as its value, which fits in `bitSize - 1` bits. -/
theorem of_parseInt_digits_eq_ok {s : List Char} {bitSize : ℕ} {v : ℤ} (hs : s ≠ [])
    (hdigits : ∀ c ∈ s, c.isDigit) (h : parseInt s bitSize = .ok v) :
    v = Nat.ofDigitChars 10 s 0 ∧ Nat.ofDigitChars 10 s 0 < 2 ^ (bitSize - 1) := by
  obtain ⟨c, rest, rfl⟩ := List.exists_cons_of_ne_nil hs
  have hc := hdigits c List.mem_cons_self
  have hplus : c ≠ '+' := by rintro rfl; simp at hc
  have hminus : c ≠ '-' := by rintro rfl; simp at hc
  simp only [parseInt, hplus, hminus, or_self, if_false] at h
  split at h
  · cases h
  · rename_i un hun
    obtain ⟨-, -, hval, -⟩ := of_parseUint_eq_ok hun
    subst hval
    by_cases hcut : 2 ^ (bitSize - 1) ≤ Nat.ofDigitChars 10 (c :: rest) 0
    · simp [hcut] at h
    · simp only [hcut, decide_false, Bool.not_false, and_false, if_false, false_and,
        Except.ok.injEq] at h
      exact ⟨h.symm, Nat.not_le.1 hcut⟩

theorem isDigit_replicate_zero (n : ℕ) : ∀ c ∈ List.replicate n '0', c.isDigit := by
  intro c hc
  rw [(List.mem_replicate.1 hc).2]
  rfl

theorem toDigits_isDigit (n : ℕ) : ∀ c ∈ Nat.toDigits 10 n, c.isDigit :=
  fun _ hc => Nat.isDigit_of_mem_toDigits (by decide) (by decide) hc

/-- `FormatInt` and `ParseInt` are inverse on the integers of `bitSize` bits. -/
theorem parseInt_formatInt {i : ℤ} {bitSize : ℕ} (hbits : 1 ≤ bitSize ∧ bitSize ≤ 64)
    (hlo : -(2 ^ (bitSize - 1) : ℤ) ≤ i) (hhi : i < 2 ^ (bitSize - 1)) :
    parseInt (formatInt i) bitSize = .ok i := by
  have hpow : ((2 ^ (bitSize - 1) : ℕ) : ℤ) = 2 ^ (bitSize - 1) := by push_cast; rfl
  by_cases hneg : i < 0
  · have habs : i.natAbs ≤ 2 ^ (bitSize - 1) := by omega
    have hfits : Nat.ofDigitChars 10 (Nat.toDigits 10 i.natAbs) 0 < 2 ^ bitSize := by
      rw [Nat.ofDigitChars_ten_toDigits]
      have : 2 ^ (bitSize - 1) < 2 ^ bitSize := Nat.pow_lt_pow_right (by decide) (by omega)
      omega
    have hdigits : parseUint (Nat.toDigits 10 i.natAbs) bitSize = .ok i.natAbs := by
      rw [parseUint_digits hbits.2 Nat.toDigits_ne_nil (toDigits_isDigit _) hfits,
        Nat.ofDigitChars_ten_toDigits]
    simp only [formatInt, if_pos hneg, parseInt, or_true, if_true, hdigits]
    simp only [decide_true, Bool.not_true, Bool.false_eq_true, false_and, if_false, true_and,
      Nat.not_lt.2 habs, Except.ok.injEq]
    omega
  · have hval : Nat.ofDigitChars 10 (Nat.toDigits 10 i.toNat) 0 < 2 ^ (bitSize - 1) := by
      rw [Nat.ofDigitChars_ten_toDigits]
      omega
    rw [formatInt, if_neg hneg, parseInt_digits hbits.2 Nat.toDigits_ne_nil (toDigits_isDigit _)
      hval, Nat.ofDigitChars_ten_toDigits]
    simp only [Except.ok.injEq]
    omega

/-- What `ParseInt` accepts is signs and digits. -/
theorem mem_of_parseInt_eq_ok {s : List Char} {bitSize : ℕ} {v : ℤ}
    (h : parseInt s bitSize = .ok v) : ∀ c ∈ s, c.isDigit ∨ c = '+' ∨ c = '-' := by
  cases s with
  | nil => cases h
  | cons c rest =>
    simp only [parseInt] at h
    split at h
    · cases h
    · rename_i un hun
      obtain ⟨-, hdigits, -, -⟩ := of_parseUint_eq_ok hun
      intro d hd
      by_cases hsign : c = '+' ∨ c = '-'
      · rw [if_pos hsign] at hdigits
        rcases List.mem_cons.1 hd with rfl | hd
        · exact .inr hsign
        · exact .inl (hdigits d hd)
      · rw [if_neg hsign] at hdigits
        exact .inl (hdigits d hd)

/-- What `ParseInt` returns fits in `bitSize` bits. -/
theorem range_of_parseInt_eq_ok {s : List Char} {bitSize : ℕ} {v : ℤ}
    (h : parseInt s bitSize = .ok v) :
    -(2 ^ (bitSize - 1) : ℤ) ≤ v ∧ v < 2 ^ (bitSize - 1) := by
  cases s with
  | nil => cases h
  | cons c rest =>
    simp only [parseInt] at h
    split at h
    · cases h
    · have hpow : (2 : ℤ) ^ (bitSize - 1) = ((2 ^ (bitSize - 1) : ℕ) : ℤ) := by push_cast; rfl
      have hm : 1 ≤ 2 ^ (bitSize - 1) := Nat.one_le_two_pow
      rw [hpow]
      generalize 2 ^ (bitSize - 1) = m at h hm
      by_cases hc : c = '-'
      · simp only [hc, decide_true, Bool.not_true, Bool.false_eq_true, false_and, if_false,
          true_and, if_true] at h
        split_ifs at h with hlt
        cases h
        omega
      · simp only [hc, decide_false, Bool.not_false, true_and, false_and, if_false] at h
        split_ifs at h with hle
        cases h
        omega

/-- The number `d…d` or `d…d.d…d` denotes. -/
def unsignedDecimalValue (s : List Char) : ℚ :=
  match s.splitOn '.' with
  | [whole] => Nat.ofDigitChars 10 whole 0
  | [whole, fraction] =>
    Nat.ofDigitChars 10 whole 0 + (Nat.ofDigitChars 10 fraction 0 : ℚ) / 10 ^ fraction.length
  | _ => 0

/-- The number decimal text denotes, after an optional `-`. -/
def decimalValue : List Char → ℚ
  | '-' :: rest => -unsignedDecimalValue rest
  | s => unsignedDecimalValue s

theorem decimalValue_of_head_ne {c : Char} {rest : List Char} (hc : c ≠ '-') :
    decimalValue (c :: rest) = unsignedDecimalValue (c :: rest) := by
  simp [decimalValue, hc]

theorem unsignedDecimalValue_whole {whole : List Char} (hwhole : '.' ∉ whole) :
    unsignedDecimalValue whole = Nat.ofDigitChars 10 whole 0 := by
  rw [unsignedDecimalValue, List.splitOn_eq_singleton hwhole]

theorem unsignedDecimalValue_point {whole fraction : List Char} (hwhole : '.' ∉ whole)
    (hfraction : '.' ∉ fraction) :
    unsignedDecimalValue (whole ++ '.' :: fraction) =
      Nat.ofDigitChars 10 whole 0 + (Nat.ofDigitChars 10 fraction 0 : ℚ) / 10 ^ fraction.length := by
  rw [unsignedDecimalValue, List.splitOn_append_cons_self_of_not_mem hwhole,
    List.splitOn_eq_singleton hfraction]

theorem not_mem_point_of_isDigit {s : List Char} (hdigits : ∀ c ∈ s, c.isDigit) : '.' ∉ s :=
  fun h => by simpa using hdigits '.' h

theorem formatInt_of_nonneg {i : ℤ} (hi : 0 ≤ i) : formatInt i = Nat.toDigits 10 i.toNat := by
  rw [formatInt, if_neg (by omega)]

theorem decimalValue_toDigits_append (n : ℕ) (rest : List Char) :
    decimalValue (Nat.toDigits 10 n ++ rest) = unsignedDecimalValue (Nat.toDigits 10 n ++ rest) := by
  obtain ⟨c, cs, hcons⟩ := List.exists_cons_of_ne_nil (Nat.toDigits_ne_nil (b := 10) (n := n))
  have hc : c ≠ '-' := by
    rintro rfl
    simpa using toDigits_isDigit n '-' (by simp [hcons])
  rw [hcons, List.cons_append, decimalValue_of_head_ne hc]

theorem natCast_toNat {i : ℤ} (hi : 0 ≤ i) : ((i.toNat : ℕ) : ℚ) = i := by
  nth_rewrite 2 [← Int.toNat_of_nonneg hi]
  norm_cast

theorem decimalValue_formatInt {i : ℤ} (hi : 0 ≤ i) : decimalValue (formatInt i) = i := by
  rw [formatInt_of_nonneg hi, ← List.append_nil (Nat.toDigits 10 i.toNat),
    decimalValue_toDigits_append, List.append_nil,
    unsignedDecimalValue_whole (not_mem_point_of_isDigit (toDigits_isDigit _)),
    Nat.ofDigitChars_ten_toDigits, natCast_toNat hi]

theorem decimalValue_formatInt_point {i : ℤ} (hi : 0 ≤ i) {fraction : List Char}
    (hfraction : ∀ c ∈ fraction, c.isDigit) :
    decimalValue (formatInt i ++ '.' :: fraction) =
      i + (Nat.ofDigitChars 10 fraction 0 : ℚ) / 10 ^ fraction.length := by
  rw [formatInt_of_nonneg hi, decimalValue_toDigits_append,
    unsignedDecimalValue_point (not_mem_point_of_isDigit (toDigits_isDigit _))
      (not_mem_point_of_isDigit hfraction),
    Nat.ofDigitChars_ten_toDigits, natCast_toNat hi]

end Strconv
