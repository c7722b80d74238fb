import Mathlib.Data.List.Basic
import Mathlib.Data.Int.Notation
import Mathlib.Tactic.Ring
import Mathlib.Tactic.NormNum
import SpiceDB.Lib.Except

namespace Protowire

/-- The errors of `protohelpers` and `io` that the readers return. -/
inductive ProtoError where
  /-- `ErrIntOverflow`: a varint of more than ten bytes. -/
  | errIntOverflow
  /-- `io.ErrUnexpectedEOF`. -/
  | errUnexpectedEOF
  /-- `ErrInvalidLength`: a negative length, or an index that wrapped. -/
  | errInvalidLength
  /-- `ErrUnexpectedEndOfGroup`. -/
  | errUnexpectedEndOfGroup
  /-- `proto: illegal wireType %d`. -/
  | illegalWireType (wireType : ℕ)
  /-- `proto: <message>: wiretype end group for non-group`. -/
  | wiretypeEndGroupForNonGroup (message : String)
  /-- `proto: <message>: illegal tag %d (wire type %d)`. -/
  | illegalTag (message : String) (fieldNum : ℤ) (wire : ℕ)
  /-- `proto: wrong wireType = %d for field <field>`. -/
  | wrongWireType (wireType : ℕ) (field : String)
  deriving DecidableEq, Repr

/-- The varint loop, from bit `shift` on with the bits `acc` read so far: the value as the bits
of a `uint64`, and how many bytes it took. The seven bits of a byte land above those read, so
the code's `|` is a sum; bits past the 64th are lost. -/
def readVarint (shift acc : ℕ) : List ℕ → Except ProtoError (ℕ × ℕ)
  | bs =>
    if 64 ≤ shift then .error .errIntOverflow
    else match bs with
      | [] => .error .errUnexpectedEOF
      | b :: rest =>
        let acc := (acc + b % 128 * 2 ^ shift) % 2 ^ 64
        if b < 128 then .ok (acc, 1)
        else (fun r => (r.1, r.2 + 1)) <$> readVarint (shift + 7) acc rest

/-- The varint of a value, front to back: the loop the generated code inlines for packed fields. -/
def encodeVarint (v : ℕ) : List ℕ :=
  if v < 128 then [v] else (v % 128 + 128) :: encodeVarint (v / 128)
termination_by v
decreasing_by omega

theorem encodeVarint_of_lt {v : ℕ} (hv : v < 128) : encodeVarint v = [v] := by
  rw [encodeVarint, if_pos hv]

theorem encodeVarint_of_ge {v : ℕ} (hv : 128 ≤ v) :
    encodeVarint v = (v % 128 + 128) :: encodeVarint (v / 128) := by
  rw [encodeVarint, if_neg (by omega)]

theorem encodeVarint_ne_nil (v : ℕ) : encodeVarint v ≠ [] := by
  by_cases hv : v < 128
  · simp [encodeVarint_of_lt hv]
  · simp [encodeVarint_of_ge (by omega : 128 ≤ v)]

theorem lt_of_mem_encodeVarint {v : ℕ} : ∀ {b}, b ∈ encodeVarint v → b < 256 := by
  induction v using Nat.strong_induction_on with
  | _ v ih =>
    intro b hb
    by_cases hv : v < 128
    · rw [encodeVarint_of_lt hv, List.mem_singleton] at hb
      omega
    · rw [encodeVarint_of_ge (by omega), List.mem_cons] at hb
      rcases hb with hb | hb
      · omega
      · exact ih (v / 128) (by omega) hb

theorem length_encodeVarint_pos (v : ℕ) : 0 < (encodeVarint v).length :=
  List.length_pos_iff.2 (encodeVarint_ne_nil v)

theorem readVarint_last {shift acc b : ℕ} (rest : List ℕ) (hshift : shift < 64) (hb : b < 128) :
    readVarint shift acc (b :: rest) = .ok ((acc + b * 2 ^ shift) % 2 ^ 64, 1) := by
  rw [readVarint, if_neg (by omega)]
  simp [Nat.mod_eq_of_lt hb, hb]

theorem readVarint_more {shift acc b : ℕ} (rest : List ℕ) (hshift : shift < 64) (hb : 128 ≤ b) :
    readVarint shift acc (b :: rest) =
      (fun r => (r.1, r.2 + 1)) <$>
        readVarint (shift + 7) ((acc + b % 128 * 2 ^ shift) % 2 ^ 64) rest := by
  rw [readVarint, if_neg (by omega)]
  simp [show ¬b < 128 by omega]

/-- The varint of `v`, read from bit `shift` on above the bits `acc`, adds `v` there: the loop
reads back what `EncodeVarint` writes, whatever follows. The induction is on `v`, one byte of
seven bits at a time; `acc + v * 2 ^ shift` stays the value read in the end. -/
theorem readVarint_encodeVarint (rest : List ℕ) :
    ∀ (v shift acc : ℕ), shift < 64 → acc < 2 ^ shift → acc + v * 2 ^ shift < 2 ^ 64 →
      readVarint shift acc (encodeVarint v ++ rest) =
        .ok (acc + v * 2 ^ shift, (encodeVarint v).length) := by
  intro v
  induction v using Nat.strong_induction_on with
  | _ v ih =>
    intro shift acc hshift hacc hsum
    by_cases hv : v < 128
    · rw [encodeVarint_of_lt hv, List.singleton_append, readVarint_last rest hshift hv,
        Nat.mod_eq_of_lt hsum]
      rfl
    · -- a byte of the low seven bits, then the varint of the rest one place up
      have hsplit : v = v % 128 + 128 * (v / 128) := (Nat.mod_add_div v 128).symm
      have hpow : 2 ^ (shift + 7) = 128 * 2 ^ shift := by rw [pow_add]; ring
      have hacc' : acc + v % 128 * 2 ^ shift < 2 ^ (shift + 7) := by
        have : v % 128 * 2 ^ shift ≤ 127 * 2 ^ shift :=
          Nat.mul_le_mul_right _ (by omega)
        omega
      have hsum' : acc + v % 128 * 2 ^ shift + v / 128 * 2 ^ (shift + 7) =
          acc + v * 2 ^ shift := by
        rw [hpow]
        nth_rewrite 3 [hsplit]
        ring
      have hshift' : shift + 7 < 64 := by
        have hone : 2 ^ (shift + 7) ≤ v / 128 * 2 ^ (shift + 7) :=
          Nat.le_mul_of_pos_left _ (by omega)
        have : 2 ^ (shift + 7) < 2 ^ 64 := by omega
        exact (Nat.pow_lt_pow_iff_right (by norm_num)).1 this
      have hlow : (acc + (v % 128 + 128) % 128 * 2 ^ shift) % 2 ^ 64 =
          acc + v % 128 * 2 ^ shift := by
        rw [Nat.add_mod_right, Nat.mod_mod, Nat.mod_eq_of_lt (by omega)]
      rw [encodeVarint_of_ge (by omega), List.cons_append,
        readVarint_more _ hshift (by omega), hlow,
        ih (v / 128) (by omega) (shift + 7) _ hshift' hacc' (by omega), hsum']
      simp

theorem readVarint_encodeVarint_of_lt {v : ℕ} (hv : v < 2 ^ 64) (rest : List ℕ) :
    readVarint 0 0 (encodeVarint v ++ rest) = .ok (v, (encodeVarint v).length) := by
  have h := readVarint_encodeVarint rest v 0 0 (by norm_num) (by norm_num) (by simpa using hv)
  simpa using h

theorem readVarint_tag {tag : ℕ} (htag : tag < 128) (rest : List ℕ) :
    readVarint 0 0 (tag :: rest) = .ok (tag, 1) := by
  rw [readVarint_last rest (by norm_num) htag]
  simp only [pow_zero, mul_one, zero_add]
  rw [Nat.mod_eq_of_lt (by omega)]

theorem drop_add_of_drop_eq_append {α : Type _} {dAtA xs rest : List α} {i : ℕ}
    (h : dAtA.drop i = xs ++ rest) : dAtA.drop (i + xs.length) = rest := by
  rw [← List.drop_drop, h, List.drop_left]

/-- The functions of vtprotobuf's `protohelpers` that generated code calls: `Skip`, the bytes
`EncodeVarint` writes for a value, and `SizeOfVarint`. -/
structure Protohelpers where
  skip : List ℕ → Except ProtoError ℕ
  encodeVarint : ℕ → List ℕ
  sizeOfVarint : ℕ → ℕ

/-- `EncodeVarint` writes the varint the generated code's loop reads back, in bytes, and
`SizeOfVarint` is the length of the varint of the inlined loop. -/
structure Protohelpers.VarintLaws (ph : Protohelpers) : Prop where
  readVarint_encodeVarint : ∀ v, v < 2 ^ 64 → ∀ rest,
    readVarint 0 0 (ph.encodeVarint v ++ rest) = .ok (v, (ph.encodeVarint v).length)
  lt_of_mem_encodeVarint : ∀ v, ∀ b ∈ ph.encodeVarint v, b < 256
  sizeOfVarint_eq : ∀ v, v < 2 ^ 64 → ph.sizeOfVarint v = (Protowire.encodeVarint v).length

/-- `Skip` reads a group that ends right after it starts, whatever its field numbers, as its two
tags. -/
def Protohelpers.SkipsEmptyGroup (ph : Protohelpers) : Prop :=
  ∀ dAtA start n stop m, readVarint 0 0 dAtA = .ok (start, n) → start % 8 = 3 →
    readVarint 0 0 (dAtA.drop n) = .ok (stop, m) → stop % 8 = 4 → ph.skip dAtA = .ok (n + m)

/-- A varint is a byte or more, and ten bytes at most. -/
theorem readVarint_length_le :
    ∀ (bs : List ℕ) (shift acc v n : ℕ), readVarint shift acc bs = .ok (v, n) →
      1 ≤ n ∧ n ≤ bs.length ∧ 7 * n + shift ≤ 70
  | [], shift, acc, v, n, h => by
    rw [readVarint] at h
    split_ifs at h
  | b :: rest, shift, acc, v, n, h => by
    by_cases hshift : 64 ≤ shift
    · rw [readVarint, if_pos hshift] at h
      cases h
    by_cases hb : b < 128
    · rw [readVarint_last rest (by omega) hb] at h
      cases h
      simp
      omega
    · -- one more byte, read on from seven bits up
      rw [readVarint_more rest (by omega) (by omega)] at h
      simp only [Functor.map, Except.map] at h
      split at h
      · cases h
      · rename_i r hrest
        cases h
        have := readVarint_length_le rest (shift + 7) _ r.1 r.2 hrest
        simp
        omega

/-- One record of `Skip`'s loop: the index after the record's value and the group depth after
it, from the index after its tag. -/
def skipValue (dAtA : List ℕ) (wireType iNdEx depth : ℕ) : Except ProtoError (ℕ × ℕ) :=
  match wireType with
  | 0 => (fun r => (iNdEx + r.2, depth)) <$> readVarint 0 0 (dAtA.drop iNdEx)
  | 1 => .ok (iNdEx + 8, depth)
  | 2 => do
    let (length, n) ← readVarint 0 0 (dAtA.drop iNdEx)
    -- `length` is an `int`: its 64th bit is its sign
    if 2 ^ 63 ≤ length then .error .errInvalidLength else .ok (iNdEx + n + length, depth)
  | 3 => .ok (iNdEx, depth + 1)
  | 4 => if depth = 0 then .error .errUnexpectedEndOfGroup else .ok (iNdEx, depth - 1)
  | 5 => .ok (iNdEx + 4, depth)
  | wireType => .error (.illegalWireType wireType)

/-- `Skip`'s loop `for iNdEx < l`. Every turn reads a tag of a byte or more, so `l` turns take
the index to `l`: with `fuel = l - iNdEx` the fuel lasts as long as the loop. -/
def skipLoop (dAtA : List ℕ) : ℕ → ℕ → ℕ → Except ProtoError ℕ
  | 0, _, _ => .error .errUnexpectedEOF
  | fuel + 1, iNdEx, depth =>
    if dAtA.length ≤ iNdEx then .error .errUnexpectedEOF
    else do
      let (wire, n) ← readVarint 0 0 (dAtA.drop iNdEx)
      let (iNdEx, depth) ← skipValue dAtA (wire % 8) (iNdEx + n) depth
      if 2 ^ 63 ≤ iNdEx then .error .errInvalidLength
      else if depth = 0 then .ok iNdEx
      else skipLoop dAtA fuel iNdEx depth

/-- `protohelpers.Skip`: the length of the first record, a group with the records in it. -/
def skip (dAtA : List ℕ) : Except ProtoError ℕ := skipLoop dAtA dAtA.length 0 0

theorem skipLoop_emptyGroup {dAtA : List ℕ} {start n stop m fuel : ℕ}
    (hstart : readVarint 0 0 dAtA = .ok (start, n)) (hgroup : start % 8 = 3)
    (hstop : readVarint 0 0 (dAtA.drop n) = .ok (stop, m)) (hend : stop % 8 = 4) (hfuel : 2 ≤ fuel)
    (hlen : n < dAtA.length) : skipLoop dAtA fuel 0 0 = .ok (n + m) := by
  obtain ⟨fuel, rfl⟩ : ∃ f, fuel = f + 2 := ⟨fuel - 2, by omega⟩
  have hn := (readVarint_length_le _ 0 0 start n hstart).2.2
  have hm := (readVarint_length_le _ 0 0 stop m hstop).2.2
  -- the start tag opens the group
  have hopen : skipValue dAtA (start % 8) (0 + n) 0 = .ok (n, 1) := by
    rw [hgroup, Nat.zero_add]
    rfl
  -- the stop tag closes it
  have hclose : skipValue dAtA (stop % 8) (n + m) 1 = .ok (n + m, 0) := by
    rw [hend]
    rfl
  rw [skipLoop, if_neg (by omega), List.drop_zero, hstart, Except.ok_bind]
  dsimp only
  rw [hopen, Except.ok_bind]
  dsimp only
  rw [if_neg (by omega), if_neg (by omega), skipLoop, if_neg (by omega), hstop, Except.ok_bind]
  dsimp only
  rw [hclose, Except.ok_bind]
  dsimp only
  rw [if_neg (by omega), if_pos rfl]

/-- vtprotobuf v0.6.0, the version src/go.mod pins: `Skip` as above. -/
def vtprotobuf : Protohelpers := ⟨skip, encodeVarint, fun v => (encodeVarint v).length⟩

theorem vtprotobuf_skipsEmptyGroup : vtprotobuf.SkipsEmptyGroup := by
  intro dAtA start n stop m hstart hgroup hstop hend
  -- the stop tag is read after the start tag, so the input holds both
  have hn := (readVarint_length_le _ 0 0 start n hstart).1
  have hm := readVarint_length_le _ 0 0 stop m hstop
  have hlen : n < dAtA.length := by
    have := hm.2.1
    simp only [List.length_drop] at this
    omega
  exact skipLoop_emptyGroup hstart hgroup hstop hend (by omega) hlen

theorem vtprotobuf_varintLaws : vtprotobuf.VarintLaws where
  readVarint_encodeVarint _ hv rest := readVarint_encodeVarint_of_lt hv rest
  lt_of_mem_encodeVarint _ _ hb := lt_of_mem_encodeVarint hb
  sizeOfVarint_eq _ _ := rfl

end Protowire
