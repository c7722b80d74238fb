import SpiceDB.Lib.Strconv
import Mathlib.Algebra.Order.Field.Rat
import Mathlib.Data.Prod.Lex
import Mathlib.Algebra.Order.Field.Basic
import Mathlib.Tactic.Linarith
import Mathlib.Tactic.Positivity
import Mathlib.Tactic.GCongr

namespace SpiceDB.Datastore.Revisions

open Strconv

def logicalClockLength : ℕ := 10

/-- `uint32(math.Pow10(logicalClockLength + 1))`: the float `10^11` is past the range of
`uint32`, and the conversion keeps its low 32 bits, as on amd64. -/
def logicalClockOffset : ℕ := 10 ^ (logicalClockLength + 1) % 2 ^ 32

theorem logicalClockOffset_eq : logicalClockOffset = 1215752192 := by decide

structure HLCRevision where
  time : ℤ
  logicalclock : ℕ
  deriving DecidableEq, Repr

/-- `zeroHLC`, which stands for `datastore.NoRevision` in the comparisons. -/
def zeroHLC : HLCRevision := ⟨0, 0⟩

/-- The errors of `parseHLCRevisionString`; the second is raised by `MustBugf`. -/
inductive HLCError where
  | invalidRevisionString (revisionStr : String)
  | unexpectedLogicalClockSize (size : ℕ) (revisionStr : String)
  deriving DecidableEq, Repr

/-- `len` of a piece of text: its bytes. -/
def byteLength (s : List Char) : ℕ := (s.map Char.utf8Size).sum

def parseHLCRevisionString (revisionStr : String) : Except HLCError HLCRevision :=
  match revisionStr.toList.splitOn '.' with
  | [timestampStr] =>
    -- no decimal point: the text is a timestamp
    match parseInt timestampStr 64 with
    | .error _ => .error (.invalidRevisionString revisionStr)
    | .ok timestamp => .ok ⟨timestamp, 0⟩
  | [timestampStr, logicalStr] =>
    match parseInt timestampStr 64 with
    | .error _ => .error (.invalidRevisionString revisionStr)
    | .ok timestamp =>
      if logicalClockLength < byteLength logicalStr then
        .error (.unexpectedLogicalClockSize (byteLength logicalStr) revisionStr)
      else
        let paddedLogicalClockStr :=
          logicalStr ++ List.replicate (logicalClockLength - byteLength logicalStr) '0'
        match parseInt paddedLogicalClockStr 32 with
        | .error _ => .error (.invalidRevisionString revisionStr)
        | .ok logicalclock =>
          .ok ⟨timestamp, ((logicalclock % 2 ^ 32).toNat + logicalClockOffset) % 2 ^ 32⟩
  | _ => .error (.invalidRevisionString revisionStr)

/-- `HLCRevisionFromString`: the revision `parseHLCRevisionString` returns is an
`HLCRevision`, so the type assertion holds. -/
def hlcRevisionFromString (revisionStr : String) : Except HLCError HLCRevision :=
  parseHLCRevisionString revisionStr

/-- A panic of `strings.Repeat`, given a negative count. -/
inductive Panic where
  | negativeRepeatCount
  deriving DecidableEq, Repr

namespace HLCRevision

def equal (hlc : HLCRevision) (rhs : Option HLCRevision) : Bool :=
  let rhsHLC := rhs.getD zeroHLC
  hlc.time = rhsHLC.time && hlc.logicalclock = rhsHLC.logicalclock

def greaterThan (hlc : HLCRevision) (rhs : Option HLCRevision) : Bool :=
  let rhsHLC := rhs.getD zeroHLC
  hlc.time > rhsHLC.time || (hlc.time = rhsHLC.time && hlc.logicalclock > rhsHLC.logicalclock)

def lessThan (hlc : HLCRevision) (rhs : Option HLCRevision) : Bool :=
  let rhsHLC := rhs.getD zeroHLC
  hlc.time < rhsHLC.time || (hlc.time = rhsHLC.time && hlc.logicalclock < rhsHLC.logicalclock)

def string (hlc : HLCRevision) : Except Panic String :=
  if hlc.logicalclock = 0 then .ok (String.ofList (formatInt hlc.time))
  else
    let logicalClockString := formatInt ((hlc.logicalclock : ℤ) - logicalClockOffset)
    if logicalClockLength < byteLength logicalClockString then .error .negativeRepeatCount
    else .ok (String.ofList (formatInt hlc.time ++ '.' ::
      (List.replicate (logicalClockLength - byteLength logicalClockString) '0' ++
        logicalClockString)))

end HLCRevision

/-- The digits after the point, padded on the right to `logicalClockLength`. -/
def padded (logicalStr : List Char) : List Char :=
  logicalStr ++ List.replicate (logicalClockLength - logicalStr.length) '0'

/-- The value of the padded digits after the point. -/
def paddedValue (logicalStr : List Char) : ℕ := Nat.ofDigitChars 10 (padded logicalStr) 0

theorem isDigit_padded {logicalStr : List Char} (hdigits : ∀ c ∈ logicalStr, c.isDigit) :
    ∀ c ∈ padded logicalStr, c.isDigit := by
  intro c hc
  rcases List.mem_append.1 hc with hc | hc
  · exact hdigits c hc
  · exact isDigit_replicate_zero _ c hc

theorem padded_ne_nil (logicalStr : List Char) : padded logicalStr ≠ [] := by
  simp only [padded, ne_eq, List.append_eq_nil_iff, List.replicate_eq_nil_iff, not_and]
  intro hnil
  simp [hnil, logicalClockLength]

theorem utf8Size_of_isDigit {c : Char} (hc : c.isDigit) : c.utf8Size = 1 := by
  rw [Char.isDigit_iff_toNat] at hc
  have h9 : '9'.toNat = 57 := rfl
  rw [Char.utf8Size_eq_one_iff, UInt32.le_iff_toNat_le]
  show c.toNat ≤ 127
  omega

theorem byteLength_of_isDigit {s : List Char} (hdigits : ∀ c ∈ s, c.isDigit) :
    byteLength s = s.length := by
  induction s with
  | nil => rfl
  | cons c cs ih =>
    simp only [byteLength, List.map_cons, List.sum_cons, List.length_cons] at ih ⊢
    rw [utf8Size_of_isDigit (hdigits c List.mem_cons_self),
      ih fun d hd => hdigits d (List.mem_cons_of_mem c hd)]
    omega

theorem point_not_mem_of_parseInt {s : List Char} {bitSize : ℕ} {v : ℤ}
    (h : parseInt s bitSize = .ok v) : '.' ∉ s := by
  intro hmem
  rcases mem_of_parseInt_eq_ok h '.' hmem with hd | hd | hd <;> simp at hd

/-- What a successful parse read: a timestamp alone, or a timestamp and at most ten bytes after
the point whose padding reads as `logicalclock`, which the revision keeps shifted by the offset
modulo `2^32`. -/
theorem parseHLCRevisionString_eq_ok {revisionStr : String} {hlc : HLCRevision}
    (h : parseHLCRevisionString revisionStr = .ok hlc) :
    (∃ timestampStr, revisionStr.toList.splitOn '.' = [timestampStr] ∧
      parseInt timestampStr 64 = .ok hlc.time ∧ hlc.logicalclock = 0) ∨
    (∃ timestampStr logicalStr logicalclock,
      revisionStr.toList.splitOn '.' = [timestampStr, logicalStr] ∧
      parseInt timestampStr 64 = .ok hlc.time ∧ byteLength logicalStr ≤ logicalClockLength ∧
      parseInt (logicalStr ++ List.replicate (logicalClockLength - byteLength logicalStr) '0') 32 =
        .ok logicalclock ∧
      hlc.logicalclock = ((logicalclock % 2 ^ 32).toNat + logicalClockOffset) % 2 ^ 32) := by
  unfold parseHLCRevisionString at h
  split at h
  · rename_i timestampStr hsplit
    split at h
    · cases h
    · rename_i timestamp htime
      cases h
      exact .inl ⟨timestampStr, hsplit, htime, rfl⟩
  · rename_i timestampStr logicalStr hsplit
    split at h
    · cases h
    · rename_i timestamp htime
      split at h
      · cases h
      · rename_i hlen
        dsimp only at h
        split at h
        · cases h
        · rename_i logicalclock hlogical
          cases h
          exact .inr ⟨timestampStr, logicalStr, logicalclock, hsplit, htime, Nat.not_lt.1 hlen,
            hlogical, rfl⟩
  · cases h

theorem parseHLCRevisionString_timestamp {timestampStr : List Char} {timestamp : ℤ}
    (h : parseInt timestampStr 64 = .ok timestamp) :
    parseHLCRevisionString (String.ofList timestampStr) = .ok ⟨timestamp, 0⟩ := by
  simp [parseHLCRevisionString, List.splitOn_eq_singleton (point_not_mem_of_parseInt h), h]

theorem parseHLCRevisionString_fraction {timestampStr logicalStr : List Char} {timestamp : ℤ}
    (htime : parseInt timestampStr 64 = .ok timestamp) (hdigits : ∀ c ∈ logicalStr, c.isDigit)
    (hlen : logicalStr.length ≤ logicalClockLength) (hval : paddedValue logicalStr < 2 ^ 31) :
    parseHLCRevisionString (String.ofList (timestampStr ++ '.' :: logicalStr)) =
      .ok ⟨timestamp, paddedValue logicalStr + logicalClockOffset⟩ := by
  have hsplit : (timestampStr ++ '.' :: logicalStr).splitOn '.' = [timestampStr, logicalStr] := by
    rw [List.splitOn_append_cons_self_of_not_mem (point_not_mem_of_parseInt htime),
      List.splitOn_eq_singleton (not_mem_point_of_isDigit hdigits)]
  have hbytes := byteLength_of_isDigit hdigits
  have hlogical : parseInt (padded logicalStr) 32 = .ok (paddedValue logicalStr) :=
    parseInt_digits (by decide) (padded_ne_nil logicalStr) (isDigit_padded hdigits) hval
  have hoffset := logicalClockOffset_eq
  simp only [parseHLCRevisionString, String.toList_ofList, hsplit, htime, hbytes,
    Nat.not_lt.2 hlen, if_false]
  rw [← padded, hlogical]
  simp only [Except.ok.injEq, HLCRevision.mk.injEq, true_and]
  omega

/-- The revisions printing reads back: an `int64` timestamp, and no logical clock or one past
the offset by less than `2^31`, which is what a fraction of digits parses to. -/
structure HLCRevision.Canonical (hlc : HLCRevision) : Prop where
  time_ge : -(2 ^ 63 : ℤ) ≤ hlc.time
  time_lt : hlc.time < 2 ^ 63
  logicalclock : hlc.logicalclock = 0 ∨
    logicalClockOffset ≤ hlc.logicalclock ∧ hlc.logicalclock < logicalClockOffset + 2 ^ 31

theorem byteLength_toDigits (n : ℕ) : byteLength (Nat.toDigits 10 n) = (Nat.toDigits 10 n).length :=
  byteLength_of_isDigit (toDigits_isDigit n)

/-- The ten digits printed after the point for a logical clock `d` past the offset. -/
def fractionDigits (d : ℕ) : List Char :=
  List.replicate (logicalClockLength - (Nat.toDigits 10 d).length) '0' ++ Nat.toDigits 10 d

theorem length_toDigits_le {d : ℕ} (hd : d < 2 ^ 31) :
    (Nat.toDigits 10 d).length ≤ logicalClockLength :=
  (Nat.length_toDigits_le_iff (by decide) (by decide)).2 (by simp only [logicalClockLength]; omega)

theorem string_zero {hlc : HLCRevision} (h : hlc.logicalclock = 0) :
    hlc.string = .ok (String.ofList (formatInt hlc.time)) := by
  simp [HLCRevision.string, h]

theorem string_fraction {hlc : HLCRevision} {d : ℕ} (hd : d < 2 ^ 31)
    (h : hlc.logicalclock = d + logicalClockOffset) :
    hlc.string = .ok (String.ofList (formatInt hlc.time ++ '.' :: fractionDigits d)) := by
  have hoffset := logicalClockOffset_eq
  have hne : hlc.logicalclock ≠ 0 := by omega
  have hformat : formatInt ((hlc.logicalclock : ℤ) - logicalClockOffset) = Nat.toDigits 10 d := by
    rw [formatInt, if_neg (by omega)]
    congr
    omega
  have hlen := length_toDigits_le hd
  simp only [HLCRevision.string, hne, if_false, hformat, byteLength_toDigits, Nat.not_lt.2 hlen,
    fractionDigits]

theorem isDigit_fractionDigits (d : ℕ) : ∀ c ∈ fractionDigits d, c.isDigit := by
  intro c hc
  rcases List.mem_append.1 hc with hc | hc
  · exact isDigit_replicate_zero _ c hc
  · exact toDigits_isDigit d c hc

theorem length_fractionDigits {d : ℕ} (hd : d < 2 ^ 31) :
    (fractionDigits d).length = logicalClockLength := by
  have := length_toDigits_le hd
  simp only [fractionDigits, List.length_append, List.length_replicate]
  omega

theorem ofDigitChars_fractionDigits (d : ℕ) : Nat.ofDigitChars 10 (fractionDigits d) 0 = d := by
  rw [fractionDigits, Nat.ofDigitChars_append, Nat.ofDigitChars_replicate_zero, Nat.mul_zero,
    Nat.ofDigitChars_ten_toDigits]

theorem paddedValue_fractionDigits {d : ℕ} (hd : d < 2 ^ 31) : paddedValue (fractionDigits d) = d := by
  rw [paddedValue, padded, length_fractionDigits hd, Nat.sub_self, List.replicate_zero,
    List.append_nil, ofDigitChars_fractionDigits]

theorem parse_string {hlc : HLCRevision} (hc : hlc.Canonical) :
    ∃ s, hlc.string = .ok s ∧ parseHLCRevisionString s = .ok hlc := by
  have htime : parseInt (formatInt hlc.time) 64 = .ok hlc.time :=
    parseInt_formatInt (by decide) hc.time_ge hc.time_lt
  rcases hc.logicalclock with hzero | ⟨hge, hlt⟩
  · refine ⟨_, string_zero hzero, ?_⟩
    rw [parseHLCRevisionString_timestamp htime, ← hzero]
  · obtain ⟨d, hd⟩ : ∃ d, hlc.logicalclock = d + logicalClockOffset :=
      ⟨hlc.logicalclock - logicalClockOffset, by omega⟩
    have hdlt : d < 2 ^ 31 := by omega
    refine ⟨_, string_fraction hdlt hd, ?_⟩
    rw [parseHLCRevisionString_fraction htime (isDigit_fractionDigits d)
      (length_fractionDigits hdlt).le (by rw [paddedValue_fractionDigits hdlt]; exact hdlt),
      paddedValue_fractionDigits hdlt, ← hd]

/-- A revision parsed from a text whose part after the point is digits is one printing reads
back. -/
theorem canonical_of_parse {revisionStr : String} {hlc : HLCRevision}
    (h : parseHLCRevisionString revisionStr = .ok hlc)
    (hdigits : ∀ c ∈ (revisionStr.toList.splitOn '.').getD 1 [], c.isDigit) : hlc.Canonical := by
  rcases parseHLCRevisionString_eq_ok h with
    ⟨timestampStr, -, htime, hzero⟩ | ⟨timestampStr, logicalStr, logicalclock, hsplit, htime, hlen,
      hlogical, hclock⟩
  · have := range_of_parseInt_eq_ok htime
    exact ⟨this.1, this.2, .inl hzero⟩
  · have hrange := range_of_parseInt_eq_ok htime
    rw [hsplit] at hdigits
    have hlogicalDigits : ∀ c ∈ logicalStr, c.isDigit := hdigits
    -- the padded text is digits, so it reads as a natural number below 2^31
    rw [byteLength_of_isDigit hlogicalDigits, ← padded] at hlogical
    obtain ⟨hv, hlt⟩ := of_parseInt_digits_eq_ok (padded_ne_nil _) (isDigit_padded hlogicalDigits)
      hlogical
    have hoffset := logicalClockOffset_eq
    refine ⟨hrange.1, hrange.2, .inr ?_⟩
    rw [hclock, hv]
    simp only [Nat.add_one_sub_one] at hlt
    omega

namespace HLCRevision

/-- The pair the comparisons order lexicographically. -/
def key (hlc : HLCRevision) : ℤ ×ₗ ℕ := toLex (hlc.time, hlc.logicalclock)

theorem lessThan_iff {h₁ h₂ : HLCRevision} :
    h₁.lessThan (some h₂) = true ↔ h₁.key < h₂.key := by
  simp [lessThan, key, Prod.Lex.toLex_lt_toLex]

theorem greaterThan_iff {h₁ h₂ : HLCRevision} :
    h₁.greaterThan (some h₂) = true ↔ h₂.key < h₁.key := by
  simp only [greaterThan, Option.getD_some, key, Prod.Lex.toLex_lt_toLex, gt_iff_lt,
    Bool.or_eq_true, Bool.and_eq_true, decide_eq_true_eq]
  constructor <;> rintro (h | ⟨h, h'⟩) <;> first | exact .inl h | exact .inr ⟨h.symm, h'⟩

theorem equal_iff {h₁ h₂ : HLCRevision} : h₁.equal (some h₂) = true ↔ h₁ = h₂ := by
  cases h₁
  cases h₂
  simp [equal]

theorem key_injective : Function.Injective key := by
  rintro ⟨t₁, l₁⟩ ⟨t₂, l₂⟩ h
  simp only [key, toLex_inj, Prod.mk.injEq] at h
  rw [h.1, h.2]

/-- The fraction the digits after the point denote. -/
def fraction (hlc : HLCRevision) : ℚ :=
  if hlc.logicalclock = 0 then 0
  else ((hlc.logicalclock - logicalClockOffset : ℕ) : ℚ) / 10 ^ logicalClockLength

/-- The number the text of a revision denotes. -/
def decimal (hlc : HLCRevision) : ℚ := hlc.time + hlc.fraction

theorem fraction_nonneg (hlc : HLCRevision) : 0 ≤ hlc.fraction := by
  unfold fraction
  split
  · exact le_rfl
  · exact div_nonneg (Nat.cast_nonneg _) (pow_nonneg (by norm_num) _)

theorem fraction_lt_one {hlc : HLCRevision} (hc : hlc.Canonical) : hlc.fraction < 1 := by
  unfold fraction
  split
  · exact zero_lt_one
  · rename_i hne
    have hlt : hlc.logicalclock - logicalClockOffset < 10 ^ logicalClockLength := by
      have := hc.logicalclock.resolve_left hne
      simp only [logicalClockLength]
      omega
    rw [div_lt_one (pow_pos (by norm_num) _)]
    exact_mod_cast hlt

/-- A larger logical clock denotes a larger fraction, but for no logical clock against the
offset, which both denote 0. -/
theorem fraction_lt_of_lt {h₁ h₂ : HLCRevision} (hc₁ : h₁.Canonical) (hc₂ : h₂.Canonical)
    (hlt : h₁.logicalclock < h₂.logicalclock) :
    h₁.fraction < h₂.fraction ∨
      h₁.logicalclock = 0 ∧ h₂.logicalclock = logicalClockOffset := by
  have hge₂ : logicalClockOffset ≤ h₂.logicalclock :=
    (hc₂.logicalclock.resolve_left (by omega)).1
  by_cases hzero : h₁.logicalclock = 0
  · by_cases hoff : h₂.logicalclock = logicalClockOffset
    · exact .inr ⟨hzero, hoff⟩
    · left
      simp only [fraction, hzero, if_true, if_neg (show h₂.logicalclock ≠ 0 by omega)]
      have : 0 < h₂.logicalclock - logicalClockOffset := by omega
      exact div_pos (Nat.cast_pos.2 this) (pow_pos (by norm_num) _)
  · left
    have hge₁ := (hc₁.logicalclock.resolve_left hzero).1
    simp only [fraction, hzero, if_false, if_neg (show h₂.logicalclock ≠ 0 by omega)]
    have : h₁.logicalclock - logicalClockOffset < h₂.logicalclock - logicalClockOffset := by
      omega
    gcongr

theorem fraction_le_of_le {h₁ h₂ : HLCRevision} (hc₁ : h₁.Canonical) (hc₂ : h₂.Canonical)
    (hle : h₁.logicalclock ≤ h₂.logicalclock) : h₁.fraction ≤ h₂.fraction := by
  rcases Nat.lt_or_eq_of_le hle with hlt | heq
  · rcases fraction_lt_of_lt hc₁ hc₂ hlt with h | ⟨hzero, hoff⟩
    · exact h.le
    · simp only [HLCRevision.fraction, hzero, hoff, if_true, Nat.sub_self, Nat.cast_zero,
      zero_div, le_refl, ite_self]
  · rw [HLCRevision.fraction, HLCRevision.fraction, heq]

theorem decimal_le_of_key_le {h₁ h₂ : HLCRevision} (hc₁ : h₁.Canonical) (hc₂ : h₂.Canonical)
    (hle : h₁.key ≤ h₂.key) : h₁.decimal ≤ h₂.decimal := by
  rw [key, key, Prod.Lex.toLex_le_toLex] at hle
  rcases hle with htime | ⟨htime, hclock⟩
  · -- the fraction is below 1, so a later timestamp wins
    have hstep : (h₁.time : ℚ) + 1 ≤ h₂.time := by exact_mod_cast htime
    have := fraction_lt_one hc₁
    have := fraction_nonneg h₂
    simp only [decimal]
    linarith
  · dsimp only at htime hclock
    have := fraction_le_of_le hc₁ hc₂ hclock
    simp only [decimal, htime]
    linarith

end HLCRevision

/-- A revision parsed from a text whose part after the point is digits prints to a text that
parses back to it. -/
theorem hlcRevisionFromString_string {revisionStr : String} {hlc : HLCRevision}
    (h : hlcRevisionFromString revisionStr = .ok hlc)
    (hdigits : ∀ c ∈ (revisionStr.toList.splitOn '.').getD 1 [], c.isDigit) :
    ∃ s, hlc.string = .ok s ∧ hlcRevisionFromString s = .ok hlc :=
  parse_string (canonical_of_parse h hdigits)

/-- `5.0000000003` is read, printed and read back. -/
theorem hlcRevisionFromString_string_at_five :
    let revisionStr := String.ofList (['5'] ++ '.' :: (List.replicate 9 '0' ++ ['3']))
    hlcRevisionFromString revisionStr = .ok ⟨5, 3 + logicalClockOffset⟩ ∧
      (∀ c ∈ (revisionStr.toList.splitOn '.').getD 1 [], c.isDigit) ∧
      ∃ s, (⟨5, 3 + logicalClockOffset⟩ : HLCRevision).string = .ok s ∧
        hlcRevisionFromString s = .ok ⟨5, 3 + logicalClockOffset⟩ := by
  intro revisionStr
  have hpadded : paddedValue (List.replicate 9 '0' ++ ['3']) = 3 := by decide
  have hfraction : ∀ c ∈ List.replicate 9 '0' ++ ['3'], c.isDigit := by
    intro c hc
    rcases List.mem_append.1 hc with hc | hc
    · exact isDigit_replicate_zero 9 c hc
    · rw [List.mem_singleton.1 hc]
      rfl
  have h : hlcRevisionFromString revisionStr = .ok ⟨5, 3 + logicalClockOffset⟩ := by
    have hparse := @parseHLCRevisionString_fraction ['5'] (List.replicate 9 '0' ++ ['3']) 5 rfl
      hfraction (by decide) (by rw [hpadded]; decide)
    rw [hpadded] at hparse
    exact hparse
  have hdigits : ∀ c ∈ (revisionStr.toList.splitOn '.').getD 1 [], c.isDigit := by
    have hsplit : (['5'] ++ '.' :: (List.replicate 9 '0' ++ ['3'])).splitOn '.' =
        [['5'], List.replicate 9 '0' ++ ['3']] := by
      rw [List.splitOn_append_cons_self_of_not_mem (by decide),
        List.splitOn_eq_singleton (not_mem_point_of_isDigit hfraction)]
    rw [String.toList_ofList, hsplit]
    exact hfraction
  exact ⟨h, hdigits, hlcRevisionFromString_string h hdigits⟩

/-- The text of a revision printing reads back, with a non-negative timestamp, denotes its
`decimal`. -/
theorem decimalValue_string {hlc : HLCRevision} {s : String} (hc : hlc.Canonical)
    (ht : 0 ≤ hlc.time) (hs : hlc.string = .ok s) : decimalValue s.toList = hlc.decimal := by
  rcases hc.logicalclock with hzero | ⟨hge, hlt⟩
  · rw [string_zero hzero, Except.ok.injEq] at hs
    subst hs
    rw [String.toList_ofList, decimalValue_formatInt ht, HLCRevision.decimal,
      HLCRevision.fraction, if_pos hzero, add_zero]
  · obtain ⟨d, hd⟩ : ∃ d, hlc.logicalclock = d + logicalClockOffset :=
      ⟨_, (Nat.sub_add_cancel hge).symm⟩
    have hdlt : d < 2 ^ 31 := by omega
    rw [string_fraction hdlt hd, Except.ok.injEq] at hs
    subst hs
    have hne : hlc.logicalclock ≠ 0 := by
      have := logicalClockOffset_eq
      omega
    rw [String.toList_ofList, decimalValue_formatInt_point ht (isDigit_fractionDigits d),
      length_fractionDigits hdlt, ofDigitChars_fractionDigits, HLCRevision.decimal,
      HLCRevision.fraction, if_neg hne, hd, Nat.add_sub_cancel]

/-- A timestamp `t` and `t.0` parse to two revisions whose texts denote the same number, yet the
first is less than the second and not equal to it. -/
theorem hlc_equal_decimals_ordered {timestampStr : List Char} {timestamp : ℤ}
    (htime : parseInt timestampStr 64 = .ok timestamp) (hpos : 0 ≤ timestamp) :
    hlcRevisionFromString (String.ofList timestampStr) = .ok ⟨timestamp, 0⟩ ∧
    hlcRevisionFromString (String.ofList (timestampStr ++ ['.', '0'])) =
      .ok ⟨timestamp, logicalClockOffset⟩ ∧
    HLCRevision.string ⟨timestamp, 0⟩ = .ok (String.ofList (formatInt timestamp)) ∧
    HLCRevision.string ⟨timestamp, logicalClockOffset⟩ =
      .ok (String.ofList (formatInt timestamp ++ '.' :: List.replicate 10 '0')) ∧
    decimalValue (formatInt timestamp) =
      decimalValue (formatInt timestamp ++ '.' :: List.replicate 10 '0') ∧
    HLCRevision.lessThan ⟨timestamp, 0⟩ (some ⟨timestamp, logicalClockOffset⟩) = true ∧
    HLCRevision.equal ⟨timestamp, 0⟩ (some ⟨timestamp, logicalClockOffset⟩) = false := by
  have hoffset := logicalClockOffset_eq
  have hzeros : fractionDigits 0 = List.replicate 10 '0' := by decide
  have hpadded : paddedValue ['0'] = 0 := by decide
  refine ⟨parseHLCRevisionString_timestamp htime, ?_, string_zero rfl, ?_, ?_, ?_, ?_⟩
  · have h : parseHLCRevisionString (String.ofList (timestampStr ++ ['.', '0'])) =
        .ok ⟨timestamp, paddedValue ['0'] + logicalClockOffset⟩ :=
      parseHLCRevisionString_fraction htime (isDigit_replicate_zero 1) (by decide)
        (by rw [hpadded]; decide)
    rwa [hpadded, Nat.zero_add] at h
  · rw [string_fraction (d := 0) (by decide) (Nat.zero_add _).symm, hzeros]
  · rw [decimalValue_formatInt hpos, decimalValue_formatInt_point hpos (isDigit_replicate_zero 10),
      Nat.ofDigitChars_replicate_zero, Nat.mul_zero]
    simp
  · simp [HLCRevision.lessThan, hoffset]
  · simp [HLCRevision.equal, hoffset]

theorem hlc_equal_decimals_ordered_at_five :
    parseInt ['5'] 64 = .ok 5 ∧ (0 : ℤ) ≤ 5 ∧
    hlcRevisionFromString "5" = .ok ⟨5, 0⟩ ∧
    hlcRevisionFromString "5.0" = .ok ⟨5, logicalClockOffset⟩ ∧
    HLCRevision.string ⟨5, 0⟩ = .ok (String.ofList (formatInt 5)) ∧
    HLCRevision.string ⟨5, logicalClockOffset⟩ =
      .ok (String.ofList (formatInt 5 ++ '.' :: List.replicate 10 '0')) ∧
    decimalValue (formatInt 5) = decimalValue (formatInt 5 ++ '.' :: List.replicate 10 '0') ∧
    HLCRevision.lessThan ⟨5, 0⟩ (some ⟨5, logicalClockOffset⟩) = true ∧
    HLCRevision.equal ⟨5, 0⟩ (some ⟨5, logicalClockOffset⟩) = false :=
  ⟨rfl, by decide, hlc_equal_decimals_ordered (show parseInt ['5'] 64 = .ok 5 from rfl) (by decide)⟩

end SpiceDB.Datastore.Revisions
