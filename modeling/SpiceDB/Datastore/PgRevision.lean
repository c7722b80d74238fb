import SpiceDB.Lib.Except
import SpiceDB.Lib.Base64
import SpiceDB.Lib.Protowire
import SpiceDB.Lib.Strconv
import SpiceDB.Datastore.PgSnapshot

namespace SpiceDB.Datastore.Postgres

open Protowire Base64 Strconv

namespace Implv1

variable (ph : Protohelpers)

structure PostgresRevision where
  xmin : UInt64
  relativeXmax : Int64
  relativeXips : List Int64
  unknownFields : List ℕ
  deriving DecidableEq, Repr

def PostgresRevision.empty : PostgresRevision := ⟨0, 0, [], []⟩

/-- `int32(x)` of a `uint64`: its low 32 bits, signed. -/
def int32Of (x : ℕ) : ℤ :=
  if x % 2 ^ 32 < 2 ^ 31 then (x % 2 ^ 32 : ℕ) else (x % 2 ^ 32 : ℕ) - 2 ^ 32

/-- The loop `for iNdEx < postIndex` of a packed `RelativeXips`. Each value takes a byte or
more, so `postIndex - iNdEx` turns are enough. -/
def readPacked (dAtA : List ℕ) (postIndex : ℕ) :
    ℕ → ℕ → List Int64 → Except ProtoError (ℕ × List Int64)
  | 0, iNdEx, xips => .ok (iNdEx, xips)
  | fuel + 1, iNdEx, xips =>
    if postIndex ≤ iNdEx then .ok (iNdEx, xips)
    else do
      let (v, n) ← readVarint 0 0 (dAtA.drop iNdEx)
      readPacked dAtA postIndex fuel (iNdEx + n) (xips ++ [(UInt64.ofNat v).toInt64])

/-- One turn of `UnmarshalVT`'s loop, from the index of a tag: the index after the field and
the message with the field read. -/
def unmarshalField (dAtA : List ℕ) (iNdEx : ℕ) (m : PostgresRevision) :
    Except ProtoError (ℕ × PostgresRevision) := do
  let preIndex := iNdEx
  let (wire, n) ← readVarint 0 0 (dAtA.drop iNdEx)
  let iNdEx := iNdEx + n
  let fieldNum := int32Of (wire / 8)
  let wireType := wire % 8
  if wireType = 4 then throw (.wiretypeEndGroupForNonGroup "PostgresRevision")
  if fieldNum ≤ 0 then throw (.illegalTag "PostgresRevision" fieldNum wire)
  if fieldNum = 1 then
    if wireType ≠ 0 then throw (.wrongWireType wireType "Xmin")
    let (v, n) ← readVarint 0 0 (dAtA.drop iNdEx)
    pure (iNdEx + n, { m with xmin := UInt64.ofNat v })
  else if fieldNum = 2 then
    if wireType ≠ 0 then throw (.wrongWireType wireType "RelativeXmax")
    let (v, n) ← readVarint 0 0 (dAtA.drop iNdEx)
    pure (iNdEx + n, { m with relativeXmax := (UInt64.ofNat v).toInt64 })
  else if fieldNum = 3 then
    if wireType = 0 then
      let (v, n) ← readVarint 0 0 (dAtA.drop iNdEx)
      pure (iNdEx + n, { m with relativeXips := m.relativeXips ++ [(UInt64.ofNat v).toInt64] })
    else if wireType = 2 then
      let (packedLen, n) ← readVarint 0 0 (dAtA.drop iNdEx)
      let iNdEx := iNdEx + n
      -- `packedLen` and `postIndex` are `int`s
      if 2 ^ 63 ≤ packedLen then throw .errInvalidLength
      let postIndex := iNdEx + packedLen
      if 2 ^ 63 ≤ postIndex then throw .errInvalidLength
      if dAtA.length < postIndex then throw .errUnexpectedEOF
      let (iNdEx, xips) ← readPacked dAtA postIndex packedLen iNdEx m.relativeXips
      pure (iNdEx, { m with relativeXips := xips })
    else throw (.wrongWireType wireType "RelativeXips")
  else
    -- an unknown field is kept whole, tag and all
    let skippy ← ph.skip (dAtA.drop preIndex)
    if 2 ^ 63 ≤ preIndex + skippy then throw .errInvalidLength
    if dAtA.length < preIndex + skippy then throw .errUnexpectedEOF
    pure (preIndex + skippy,
      { m with unknownFields := m.unknownFields ++ (dAtA.drop preIndex).take skippy })

/-- `UnmarshalVT`'s loop `for iNdEx < l` and the check after it. Every field takes a byte or
more, so `l` turns are enough. -/
def unmarshalLoop (dAtA : List ℕ) : ℕ → ℕ → PostgresRevision → Except ProtoError PostgresRevision
  | 0, iNdEx, m => if dAtA.length < iNdEx then .error .errUnexpectedEOF else .ok m
  | fuel + 1, iNdEx, m =>
    if iNdEx < dAtA.length then do
      let (iNdEx, m) ← unmarshalField ph dAtA iNdEx m
      unmarshalLoop dAtA fuel iNdEx m
    else if dAtA.length < iNdEx then .error .errUnexpectedEOF
    else .ok m

/-- `UnmarshalVT`, into the message `m`. -/
def PostgresRevision.unmarshalVT (m : PostgresRevision) (dAtA : List ℕ) :
    Except ProtoError PostgresRevision :=
  unmarshalLoop ph dAtA dAtA.length 0 m

/-- The packed `RelativeXips`: each as the varint of its `uint64` bits, by the loop the code
inlines. -/
def encodePacked (relativeXips : List Int64) : List ℕ :=
  relativeXips.flatMap fun num => encodeVarint num.toUInt64.toNat

/-- `MarshalVT`. `MarshalToSizedBufferVT` fills the buffer from its end, the unknown fields
first; front to back that is the fields in order, each left out at its zero value. -/
def PostgresRevision.marshalVT (m : PostgresRevision) : List ℕ :=
  let pksize2 := (m.relativeXips.map fun num => ph.sizeOfVarint num.toUInt64.toNat).sum
  (if m.xmin ≠ 0 then 0x8 :: ph.encodeVarint m.xmin.toNat else []) ++
  (if m.relativeXmax ≠ 0 then 0x10 :: ph.encodeVarint m.relativeXmax.toUInt64.toNat else []) ++
  (if m.relativeXips ≠ [] then 0x1a :: ph.encodeVarint pksize2 ++ encodePacked m.relativeXips else []) ++
  m.unknownFields

section RoundTrip

variable {ph : Protohelpers} {dAtA rest : List ℕ} {i : ℕ} {m : PostgresRevision}

theorem ofNat_toNat_toInt64 (x : Int64) : Int64.ofNat x.toUInt64.toNat = x := by
  rw [← UInt64.toInt64_ofNat', UInt64.ofNat_toNat, Int64.toInt64_toUInt64]

theorem unmarshalField_xmin (hph : ph.VarintLaws) {x : UInt64}
    (hdrop : dAtA.drop i = (0x8 :: ph.encodeVarint x.toNat) ++ rest) :
    unmarshalField ph dAtA i m =
      .ok (i + (0x8 :: ph.encodeVarint x.toNat).length, { m with xmin := x }) := by
  have htail : dAtA.drop (i + 1) = ph.encodeVarint x.toNat ++ rest :=
    drop_add_of_drop_eq_append (show dAtA.drop i = [0x8] ++ (ph.encodeVarint x.toNat ++ rest) from hdrop)
  simp [unmarshalField, hdrop, htail, readVarint_tag, hph.readVarint_encodeVarint _ x.toNat_lt, int32Of]
  omega

theorem unmarshalField_relativeXmax (hph : ph.VarintLaws) {x : Int64}
    (hdrop : dAtA.drop i = (0x10 :: ph.encodeVarint x.toUInt64.toNat) ++ rest) :
    unmarshalField ph dAtA i m =
      .ok (i + (0x10 :: ph.encodeVarint x.toUInt64.toNat).length, { m with relativeXmax := x }) := by
  have htail : dAtA.drop (i + 1) = ph.encodeVarint x.toUInt64.toNat ++ rest :=
    drop_add_of_drop_eq_append
      (show dAtA.drop i = [0x10] ++ (ph.encodeVarint x.toUInt64.toNat ++ rest) from hdrop)
  simp [unmarshalField, hdrop, htail, readVarint_tag,
    hph.readVarint_encodeVarint _ x.toUInt64.toNat_lt, int32Of, ofNat_toNat_toInt64]
  omega

theorem length_le_length_encodePacked (xs : List Int64) : xs.length ≤ (encodePacked xs).length := by
  induction xs with
  | nil => simp [encodePacked]
  | cons x xs ih =>
    have := length_encodeVarint_pos x.toUInt64.toNat
    simp only [encodePacked, List.flatMap_cons, List.length_append, List.length_cons] at ih ⊢
    omega

theorem sum_sizeOfVarint (hph : ph.VarintLaws) (xs : List Int64) :
    (xs.map fun num => ph.sizeOfVarint num.toUInt64.toNat).sum = (encodePacked xs).length := by
  induction xs with
  | nil => simp [encodePacked]
  | cons x xs ih =>
    simp only [List.map_cons, List.sum_cons, ih, hph.sizeOfVarint_eq _ x.toUInt64.toNat_lt]
    simp [encodePacked]

/-- The packed loop reads the values back, on to the end of the packed bytes; one value takes
a turn of fuel. -/
theorem readPacked_encodePacked (xs : List Int64) :
    ∀ (fuel i : ℕ) (acc : List Int64), dAtA.drop i = encodePacked xs ++ rest → xs.length ≤ fuel →
      readPacked dAtA (i + (encodePacked xs).length) fuel i acc =
        .ok (i + (encodePacked xs).length, acc ++ xs) := by
  induction xs with
  | nil =>
    intro fuel i acc _ _
    cases fuel <;> simp [readPacked, encodePacked]
  | cons x xs ih =>
    intro fuel i acc hdrop hfuel
    obtain ⟨fuel, rfl⟩ : ∃ f, fuel = f + 1 := ⟨fuel - 1, by simp at hfuel; omega⟩
    have hsplit : encodePacked (x :: xs) = encodeVarint x.toUInt64.toNat ++ encodePacked xs := by
      simp [encodePacked]
    rw [hsplit, List.append_assoc] at hdrop
    have hnext := drop_add_of_drop_eq_append hdrop
    have hpos := length_encodeVarint_pos x.toUInt64.toNat
    have hrec := ih fuel (i + (encodeVarint x.toUInt64.toNat).length)
      (acc ++ [x]) hnext (by simpa using hfuel)
    rw [hsplit, List.length_append, readPacked, if_neg (by omega), hdrop,
      readVarint_encodeVarint_of_lt x.toUInt64.toNat_lt, Except.ok_bind]
    simp only [UInt64.ofNat_toNat, Int64.toInt64_toUInt64]
    rw [← Nat.add_assoc, hrec, List.append_assoc, List.singleton_append]

theorem unmarshalField_relativeXips (hph : ph.VarintLaws) {xs : List Int64} (hbound : dAtA.length < 2 ^ 63)
    (hdrop : dAtA.drop i =
      (0x1a :: ph.encodeVarint (encodePacked xs).length ++ encodePacked xs) ++ rest) :
    unmarshalField ph dAtA i m =
      .ok (i + (0x1a :: ph.encodeVarint (encodePacked xs).length ++ encodePacked xs).length,
        { m with relativeXips := m.relativeXips ++ xs }) := by
  have hlen := congrArg List.length hdrop
  simp only [List.length_drop, List.length_append, List.length_cons] at hlen
  have htail : dAtA.drop (i + 1) =
      ph.encodeVarint (encodePacked xs).length ++ (encodePacked xs ++ rest) :=
    drop_add_of_drop_eq_append (show dAtA.drop i =
      [0x1a] ++ (ph.encodeVarint (encodePacked xs).length ++ (encodePacked xs ++ rest)) by simpa using hdrop)
  have hpacked := drop_add_of_drop_eq_append htail
  have hread := readPacked_encodePacked xs (encodePacked xs).length
    (i + 1 + (ph.encodeVarint (encodePacked xs).length).length) m.relativeXips hpacked
    (length_le_length_encodePacked xs)
  simp [unmarshalField, hdrop, htail, readVarint_tag,
    hph.readVarint_encodeVarint _ (show (encodePacked xs).length < 2 ^ 64 by omega), int32Of]
  rw [if_neg (by omega), if_neg (by omega), if_neg (by omega), hread, Except.ok_bind]
  congr 2
  omega

theorem unmarshalLoop_end (fuel : ℕ) (m : PostgresRevision) :
    unmarshalLoop ph dAtA fuel dAtA.length m = .ok m := by
  cases fuel <;> simp [unmarshalLoop]

theorem unmarshalLoop_step {i' : ℕ} {m' : PostgresRevision} (hlt : i < dAtA.length)
    (h : unmarshalField ph dAtA i m = .ok (i', m')) (fuel : ℕ) :
    unmarshalLoop ph dAtA (fuel + 1) i m = unmarshalLoop ph dAtA fuel i' m' := by
  rw [unmarshalLoop, if_pos hlt, h, Except.ok_bind]

theorem unmarshalLoop_optional {e : List ℕ} {m' : PostgresRevision} {fuel : ℕ}
    (hdrop : dAtA.drop i = e ++ rest) (hfuel : dAtA.length - i ≤ fuel)
    (hskip : e = [] → m' = m) (hread : e ≠ [] → unmarshalField ph dAtA i m = .ok (i + e.length, m')) :
    ∃ fuel', dAtA.length - (i + e.length) ≤ fuel' ∧
      unmarshalLoop ph dAtA fuel i m = unmarshalLoop ph dAtA fuel' (i + e.length) m' := by
  by_cases he : e = []
  · subst he
    rw [hskip rfl]
    exact ⟨fuel, by simpa using hfuel, by simp⟩
  · have hlen := congrArg List.length hdrop
    have hpos : 0 < e.length := List.length_pos_iff.2 he
    simp only [List.length_drop, List.length_append] at hlen
    obtain ⟨fuel, rfl⟩ : ∃ f, fuel = f + 1 := ⟨fuel - 1, by omega⟩
    exact ⟨fuel, by omega, unmarshalLoop_step (by omega) (hread he) fuel⟩

theorem lt_of_mem_encodePacked {xs : List Int64} {b : ℕ} (hb : b ∈ encodePacked xs) : b < 256 := by
  obtain ⟨x, -, hx⟩ := List.mem_flatMap.1 hb
  exact lt_of_mem_encodeVarint hx

/-- What `MarshalVT` writes is bytes. -/
theorem lt_of_mem_marshalVT (hph : ph.VarintLaws) (hunknown : m.unknownFields = []) {b : ℕ}
    (hb : b ∈ m.marshalVT ph) : b < 256 := by
  simp only [PostgresRevision.marshalVT, hunknown, List.append_nil, List.mem_append] at hb
  -- each present field is a tag byte and varints; an absent one has no bytes
  rcases hb with (hb | hb) | hb <;> split_ifs at hb <;>
    simp only [List.mem_cons, List.mem_append, List.not_mem_nil] at hb
  · rcases hb with rfl | hb
    · norm_num
    · exact hph.lt_of_mem_encodeVarint _ _ hb
  · rcases hb with rfl | hb
    · norm_num
    · exact hph.lt_of_mem_encodeVarint _ _ hb
  · rcases hb with (rfl | hb) | hb
    · norm_num
    · exact hph.lt_of_mem_encodeVarint _ _ hb
    · exact lt_of_mem_encodePacked hb

/-- `UnmarshalVT` into the empty message reads back every message `MarshalVT` writes, but its
unknown fields, as long as the bytes fit Go's `int` indices. -/
theorem unmarshalVT_marshalVT (hph : ph.VarintLaws) (hunknown : m.unknownFields = [])
    (hbound : (m.marshalVT ph).length < 2 ^ 63) :
    PostgresRevision.empty.unmarshalVT ph (m.marshalVT ph) = .ok m := by
  obtain ⟨xmin, relativeXmax, relativeXips, unknownFields⟩ := m
  subst hunknown
  -- the fields' encodings, each empty at its field's zero value
  set e₁ : List ℕ := if xmin ≠ 0 then 0x8 :: ph.encodeVarint xmin.toNat else [] with he₁
  set e₂ : List ℕ :=
    if relativeXmax ≠ 0 then 0x10 :: ph.encodeVarint relativeXmax.toUInt64.toNat else [] with he₂
  set e₃ : List ℕ := if relativeXips ≠ [] then
    0x1a :: ph.encodeVarint (encodePacked relativeXips).length ++ encodePacked relativeXips
    else [] with he₃
  set dAtA := PostgresRevision.marshalVT ph ⟨xmin, relativeXmax, relativeXips, []⟩ with hdAtA
  have hdata : dAtA = e₁ ++ (e₂ ++ e₃) := by
    simp only [dAtA, PostgresRevision.marshalVT, sum_sizeOfVarint hph, List.append_nil, List.append_assoc]
    rfl
  have hlen : dAtA.length = e₁.length + e₂.length + e₃.length := by
    simp [hdata, Nat.add_assoc]
  -- field 1, from the start with the fuel the loop is given
  obtain ⟨f₁, hf₁, hl₁⟩ := unmarshalLoop_optional
    (show dAtA.drop 0 = e₁ ++ (e₂ ++ e₃) by rw [hdata, List.drop_zero])
    (show dAtA.length - 0 ≤ dAtA.length by omega)
    (show e₁ = [] → (⟨xmin, 0, [], []⟩ : PostgresRevision) = PostgresRevision.empty by
      intro h
      by_cases hx : xmin = 0
      · rw [hx]; rfl
      · simp [e₁, hx] at h)
    (fun h => by
      have hx : xmin ≠ 0 := fun hx => h (by simp [e₁, hx])
      have hdrop : dAtA.drop 0 = (0x8 :: ph.encodeVarint xmin.toNat) ++ (e₂ ++ e₃) := by
        rw [hdata, List.drop_zero, he₁, if_pos hx]
      rw [unmarshalField_xmin hph hdrop, he₁, if_pos hx]
      rfl)
  -- field 2, after field 1
  obtain ⟨f₂, hf₂, hl₂⟩ := unmarshalLoop_optional
    (show dAtA.drop (0 + e₁.length) = e₂ ++ e₃ by
      rw [Nat.zero_add, hdata, List.drop_left])
    hf₁
    (show e₂ = [] → (⟨xmin, relativeXmax, [], []⟩ : PostgresRevision) = ⟨xmin, 0, [], []⟩ by
      intro h
      by_cases hx : relativeXmax = 0
      · rw [hx]
      · simp [e₂, hx] at h)
    (fun h => by
      have hx : relativeXmax ≠ 0 := fun hx => h (by simp [e₂, hx])
      have hdrop : dAtA.drop (0 + e₁.length) =
          (0x10 :: ph.encodeVarint relativeXmax.toUInt64.toNat) ++ e₃ := by
        rw [Nat.zero_add, hdata, List.drop_left, he₂, if_pos hx]
      rw [unmarshalField_relativeXmax hph hdrop, he₂, if_pos hx])
  -- field 3, the packed in-progress ids, after both
  obtain ⟨f₃, -, hl₃⟩ := unmarshalLoop_optional
    (show dAtA.drop (0 + e₁.length + e₂.length) = e₃ ++ [] by
      rw [Nat.zero_add, hdata, ← List.drop_drop, List.drop_left, List.drop_left, List.append_nil])
    hf₂
    (show e₃ = [] → (⟨xmin, relativeXmax, relativeXips, []⟩ : PostgresRevision) =
        ⟨xmin, relativeXmax, [], []⟩ by
      intro h
      by_cases hx : relativeXips = []
      · rw [hx]
      · simp [e₃, hx] at h)
    (fun h => by
      have hx : relativeXips ≠ [] := fun hx => h (by simp [e₃, hx])
      have hdrop : dAtA.drop (0 + e₁.length + e₂.length) =
          (0x1a :: ph.encodeVarint (encodePacked relativeXips).length ++ encodePacked relativeXips) ++
            [] := by
        rw [Nat.zero_add, hdata, ← List.drop_drop, List.drop_left, List.drop_left, List.append_nil,
          he₃, if_pos hx]
      rw [unmarshalField_relativeXips hph hbound hdrop, he₃, if_pos hx]
      rfl)
  have hend : 0 + e₁.length + e₂.length + e₃.length = dAtA.length := by omega
  rw [PostgresRevision.unmarshalVT, hl₁, hl₂, hl₃, hend, unmarshalLoop_end]

end RoundTrip

end Implv1

structure PostgresRevision where
  snapshot : PgSnapshot
  deriving DecidableEq, Repr

/-- The errors of parsing a revision. Each is wrapped as `invalid revision format: %w`, but
`deltaTooLarge`. -/
inductive RevisionError where
  /-- base64's `illegal base64 data at input byte %d`. -/
  | base64 (err : CorruptInputError)
  /-- The message's decoding failed. -/
  | proto (err : ProtoError)
  /-- `wrong number of components %d != 1 or 2`. -/
  | wrongNumberOfComponents (n : ℕ)
  /-- `strconv.ParseUint` failed. -/
  | strconv (err : NumError)
  /-- `received revision delta in excess of that expected; are you sure you're not passing a
  ZedToken from an incompatible datastore?` -/
  | deltaTooLarge
  deriving DecidableEq, Repr

def maxLegacyXIPDelta : UInt64 := 1000

section Parse

variable (ph : Protohelpers)

def parseRevisionProto (revisionStr : String) : Except RevisionError PostgresRevision := do
  let protoBytes ← (decodeString revisionStr.toList).mapError .base64
  let decoded ← (Implv1.PostgresRevision.empty.unmarshalVT ph protoBytes).mapError .proto
  let xminInt := decoded.xmin.toInt64
  let xips := decoded.relativeXips.map fun relativeXip => (xminInt + relativeXip).toUInt64
  pure ⟨⟨decoded.xmin, (xminInt + decoded.relativeXmax).toUInt64, xips⟩⟩

/-- `parseRevisionDecimal`: `xid` or `xid.xmin`, taken as a snapshot just past `xid`. -/
def parseRevisionDecimal (revisionStr : String) : Except RevisionError PostgresRevision := do
  let components := revisionStr.toList.splitOn '.'
  if components.length ≠ 1 ∧ components.length ≠ 2 then
    throw (.wrongNumberOfComponents components.length)
  let xid ← (parseUint (components.headD []) 64).mapError .strconv
  let xid := UInt64.ofNat xid
  let xmax := xid + 1
  let xmin ← if components.length = 2 then do
      let xminCandidate ← (parseUint (components.getD 1 []) 64).mapError .strconv
      pure (if UInt64.ofNat xminCandidate < xid then UInt64.ofNat xminCandidate else xid + 1)
    else pure (xid + 1)
  if xmax > xmin then
    if xmax - xmin > maxLegacyXIPDelta then throw .deltaTooLarge
    pure ⟨⟨xmin, xmax, PgSnapshot.inProgressRun xmin xid⟩⟩
  else pure ⟨⟨xmin, xmax, []⟩⟩

/-- `ParseRevisionString`: the message form first, the decimal form when it fails. -/
def parseRevisionString (revisionStr : String) : Except RevisionError PostgresRevision :=
  match parseRevisionProto ph revisionStr with
  | .ok rev => .ok rev
  | .error err =>
    match parseRevisionDecimal revisionStr with
    | .ok decimalRev => .ok decimalRev
    | .error _ => .error err

/-- `MarshalBinary`: `xmax` and the in-progress ids relative to `xmin`. -/
def PostgresRevision.marshalBinary (pr : PostgresRevision) : List ℕ :=
  let xminInt := pr.snapshot.xmin.toInt64
  Implv1.PostgresRevision.marshalVT ph
    { xmin := pr.snapshot.xmin
      relativeXmax := pr.snapshot.xmax.toInt64 - xminInt
      relativeXips := pr.snapshot.xipList.map fun xip => xip.toInt64 - xminInt
      unknownFields := [] }

def PostgresRevision.string (pr : PostgresRevision) : String :=
  String.ofList (encodeToString (pr.marshalBinary ph))

end Parse

theorem toUInt64_toInt64_add_sub (xmin x : UInt64) :
    (xmin.toInt64 + (x.toInt64 - xmin.toInt64)).toUInt64 = x := by
  rw [Int64.toUInt64_add, Int64.toUInt64_sub, UInt64.toUInt64_toInt64, UInt64.toUInt64_toInt64]
  grind

/-- `parseRevisionProto` reads back the text `String` writes, whatever the snapshot, as long as
its message fits Go's `int` indices. -/
theorem parseRevisionProto_string {ph : Protohelpers} (hph : ph.VarintLaws) (pr : PostgresRevision)
    (hbound : (pr.marshalBinary ph).length < 2 ^ 63) : parseRevisionProto ph (pr.string ph) = .ok pr := by
  obtain ⟨⟨xmin, xmax, xipList⟩⟩ := pr
  have hbytes : ∀ b ∈ PostgresRevision.marshalBinary ph ⟨⟨xmin, xmax, xipList⟩⟩, b < 256 :=
    fun _ hb => Implv1.lt_of_mem_marshalVT hph rfl hb
  have hdecode : decodeString (PostgresRevision.string ph ⟨⟨xmin, xmax, xipList⟩⟩).toList =
      .ok (PostgresRevision.marshalBinary ph ⟨⟨xmin, xmax, xipList⟩⟩) := by
    rw [PostgresRevision.string, String.toList_ofList, decodeString_encodeToString _ hbytes]
  have hmessage := Implv1.unmarshalVT_marshalVT hph rfl hbound
  have hxips : (xipList.map fun xip => xip.toInt64 - xmin.toInt64).map
      (fun relativeXip => (xmin.toInt64 + relativeXip).toUInt64) = xipList := by
    rw [List.map_map]
    exact List.map_id'' (fun xip => toUInt64_toInt64_add_sub xmin xip) xipList
  rw [parseRevisionProto, hdecode]
  simp only [Except.mapError, Except.ok_bind]
  rw [PostgresRevision.marshalBinary, hmessage]
  simp only [Except.ok_bind, toUInt64_toInt64_add_sub, hxips]
  rfl

/-- `ParseRevisionString` reads back the text `String` writes, for every `protohelpers` whose
`EncodeVarint` and `SizeOfVarint` agree with the wire format. -/
theorem parseRevisionString_string {ph : Protohelpers} (hph : ph.VarintLaws) (pr : PostgresRevision)
    (hbound : (pr.marshalBinary ph).length < 2 ^ 63) : parseRevisionString ph (pr.string ph) = .ok pr := by
  rw [parseRevisionString, parseRevisionProto_string hph pr hbound]

/-- The snapshot `1001:1004:1001,1003` of `MarshalBinary`'s comment, written as `0:3:0,2`
relative to its `xmin`. -/
theorem parseRevisionString_string_at_comment :
    vtprotobuf.VarintLaws ∧ (PostgresRevision.marshalBinary vtprotobuf ⟨⟨1001, 1004, [1001, 1003]⟩⟩).length < 2 ^ 63 ∧
    parseRevisionString vtprotobuf (PostgresRevision.string vtprotobuf ⟨⟨1001, 1004, [1001, 1003]⟩⟩) =
      .ok ⟨⟨1001, 1004, [1001, 1003]⟩⟩ :=
  ⟨vtprotobuf_varintLaws, by decide +kernel, parseRevisionString_string vtprotobuf_varintLaws _ (by decide +kernel)⟩

/-- A legacy revision that has a point, or whose length is not a multiple of four, is not
base64, so `ParseRevisionString` reads it as `parseRevisionDecimal` does, whatever
`protohelpers` is. -/
theorem parseRevisionString_eq_decimal (ph : Protohelpers) {revisionStr : String} {rev : PostgresRevision}
    (hchars : ∀ c ∈ revisionStr.toList, c.isDigit ∨ c = '.')
    (hshape : '.' ∈ revisionStr.toList ∨ revisionStr.toList.length % 4 ≠ 0)
    (hdecimal : parseRevisionDecimal revisionStr = .ok rev) :
    parseRevisionString ph revisionStr = .ok rev := by
  have hplain : ∀ c ∈ revisionStr.toList, c ≠ '=' ∧ isNewline c = false := by
    intro c hc
    rcases hchars c hc with hdigit | rfl
    · exact plain_of_isDigit hdigit
    · decide
  obtain ⟨e, he⟩ := decodeFrom_error hplain 0 [] (by simp)
    (by
      rcases hshape with hpoint | hlength
      · exact .inl ⟨'.', hpoint, rfl⟩
      · exact .inr (by simpa using hlength))
  have hproto : parseRevisionProto ph revisionStr = .error (.base64 e) := by
    rw [parseRevisionProto, decodeString, he]
    rfl
  rw [parseRevisionString, hproto, hdecimal]

/-- `10.5`, the revision just past transaction 10 with `xmin` 5, has a point. -/
theorem parseRevisionString_eq_decimal_at_point :
    (∀ c ∈ "10.5".toList, c.isDigit ∨ c = '.') ∧ '.' ∈ "10.5".toList ∧
    parseRevisionDecimal "10.5" = .ok ⟨⟨5, 11, [5, 6, 7, 8, 9]⟩⟩ ∧
    parseRevisionString vtprotobuf "10.5" = .ok ⟨⟨5, 11, [5, 6, 7, 8, 9]⟩⟩ :=
  have hall : "10.5".toList.all (fun c => c.isDigit || c = '.') = true := by decide
  have hchars : ∀ c ∈ "10.5".toList, c.isDigit ∨ c = '.' := fun c hc => by
    simpa using List.all_eq_true.1 hall c hc
  have hpoint : '.' ∈ "10.5".toList := by decide
  have hdecimal : parseRevisionDecimal "10.5" = .ok ⟨⟨5, 11, [5, 6, 7, 8, 9]⟩⟩ := by
    decide +kernel
  ⟨hchars, hpoint, hdecimal, parseRevisionString_eq_decimal vtprotobuf hchars (.inl hpoint) hdecimal⟩

theorem unmarshalVT_emptyGroup {ph : Protohelpers} (hskip : ph.SkipsEmptyGroup) :
    Implv1.PostgresRevision.empty.unmarshalVT ph [0xdb, 0x4d, 0x74] = .ok ⟨0, 0, [], [0xdb, 0x4d, 0x74]⟩ := by
  -- the tag 9947 is field 1243, wire type 3; the tag 116 has wire type 4
  have hstart : readVarint 0 0 [0xdb, 0x4d, 0x74] = .ok (9947, 2) := by decide +kernel
  have hstop : readVarint 0 0 ([0xdb, 0x4d, 0x74].drop 2) = .ok (116, 1) := by decide +kernel
  have hskipped : ph.skip [0xdb, 0x4d, 0x74] = .ok 3 := hskip _ _ _ _ _ hstart rfl hstop rfl
  have hfield : Implv1.unmarshalField ph [0xdb, 0x4d, 0x74] 0 Implv1.PostgresRevision.empty =
      .ok (3, ⟨0, 0, [], [0xdb, 0x4d, 0x74]⟩) := by
    simp [Implv1.unmarshalField, hstart, Implv1.int32Of, hskipped, Implv1.PostgresRevision.empty]
  rw [Implv1.PostgresRevision.unmarshalVT, show [0xdb, 0x4d, 0x74].length = 2 + 1 from rfl,
    Implv1.unmarshalLoop_step (by decide) hfield]
  exact Implv1.unmarshalLoop_end 2 _

/-- The digits `2010` are base64 for the bytes `db 4d 74`: a tag of field 1243 with wire type
3, a group's start, and a tag of wire type 4 that ends it. `UnmarshalVT` keeps the group as an
unknown field and succeeds, so `ParseRevisionString` never tries the decimal form, which reads
the revision just past transaction 2010. This holds for every `Skip` that reads an empty group
as its two tags, as vtprotobuf's does. -/
theorem parse_revision_string_shadows_decimal (ph : Protohelpers) (hskip : ph.SkipsEmptyGroup) :
    decodeString "2010".toList = .ok [0xdb, 0x4d, 0x74] ∧
    parseRevisionDecimal "2010" = .ok ⟨⟨2011, 2011, []⟩⟩ ∧
    parseRevisionString ph "2010" = .ok ⟨⟨0, 0, []⟩⟩ := by
  have hdecode : decodeString "2010".toList = .ok [0xdb, 0x4d, 0x74] := by decide +kernel
  have hdecimal : parseRevisionDecimal "2010" = .ok ⟨⟨2011, 2011, []⟩⟩ := by decide +kernel
  refine ⟨hdecode, hdecimal, ?_⟩
  rw [parseRevisionString, parseRevisionProto, hdecode]
  simp only [Except.mapError, Except.ok_bind]
  rw [unmarshalVT_emptyGroup hskip]
  rfl

theorem parse_revision_string_shadows_decimal_at_vtprotobuf :
    vtprotobuf.SkipsEmptyGroup ∧ decodeString "2010".toList = .ok [0xdb, 0x4d, 0x74] ∧
    parseRevisionDecimal "2010" = .ok ⟨⟨2011, 2011, []⟩⟩ ∧
    parseRevisionString vtprotobuf "2010" = .ok ⟨⟨0, 0, []⟩⟩ :=
  ⟨vtprotobuf_skipsEmptyGroup, parse_revision_string_shadows_decimal vtprotobuf vtprotobuf_skipsEmptyGroup⟩

end SpiceDB.Datastore.Postgres
