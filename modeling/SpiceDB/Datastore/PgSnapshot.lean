import Mathlib
import SpiceDB.Lib.BinarySearch

namespace SpiceDB.Datastore.Postgres

open Slices

/-- `pgSnapshot`; its `xipList` "must always be sorted". -/
structure PgSnapshot where
  xmin : UInt64
  xmax : UInt64
  xipList : List UInt64
  deriving DecidableEq, Repr

inductive ComparisonResult where
  | equal
  | lt
  | gt
  | concurrent
  deriving DecidableEq, Repr

namespace PgSnapshot

/-- `txVisible`: whether the transaction had ended when the snapshot was taken. -/
def txVisible (s : PgSnapshot) (txid : UInt64) : Bool :=
  if txid < s.xmin then true
  else if txid ≥ s.xmax then false
  else !(binarySearch s.xipList txid).2

def anyTXVisible (s : PgSnapshot) (first : UInt64) (others : List UInt64) : Bool :=
  s.txVisible first || others.any s.txVisible

/-- `compare`: a side "has more info" when it sees the other's `xmax` or one of the other's
in-progress ids. -/
def compare (s rhs : PgSnapshot) : ComparisonResult :=
  let rhsHasMoreInfo := rhs.anyTXVisible s.xmax s.xipList
  let lhsHasMoreInfo := s.anyTXVisible rhs.xmax rhs.xipList
  if rhsHasMoreInfo && lhsHasMoreInfo then .concurrent
  else if rhsHasMoreInfo then .lt
  else if lhsHasMoreInfo then .gt
  else .equal

def equal (s rhs : PgSnapshot) : Bool := s.compare rhs == .equal

def greaterThan (s rhs : PgSnapshot) : Bool := s.compare rhs == .gt

def lessThan (s rhs : PgSnapshot) : Bool := s.compare rhs == .lt

/-- The ids `for newIP := newIP; newIP < bound; newIP++` appends, in order. -/
def inProgressRun (newIP bound : UInt64) : List UInt64 :=
  if h : newIP < bound then newIP :: inProgressRun (newIP + 1) bound else []
termination_by bound.toNat - newIP.toNat
decreasing_by
  have hlt := UInt64.lt_iff_toNat_lt.1 h
  have hbound := bound.toNat_lt_size
  have hnext : (newIP + 1).toNat = newIP.toNat + 1 := by
    simp only [UInt64.toNat_add, UInt64.toNat_one, UInt64.size] at *
    omega
  omega

/-- The start of `markComplete`, "adjust the xmax and running tx if necessary": a
transaction at or past `xmax` moves `xmax` past it, and the ids from the old `xmax` up to it
become in progress. -/
def extendXmax (s : PgSnapshot) (txid : UInt64) : PgSnapshot :=
  if txid ≥ s.xmax then ⟨s.xmin, txid + 1, s.xipList ++ inProgressRun s.xmax (txid + 1)⟩ else s

/-- The end of `markComplete`, "adjust the xmin if necessary": `xmin` moves to the first
in-progress id, or to `xmax` when none is left. -/
def adjustXmin (s : PgSnapshot) : PgSnapshot :=
  match s.xipList with
  | [] => ⟨s.xmax, s.xmax, []⟩
  | first :: rest => ⟨first, s.xmax, first :: rest⟩

def markComplete (s : PgSnapshot) (txid : UInt64) : PgSnapshot :=
  if txid < s.xmin then s
  else
    let newSnapshot := s.extendXmax txid
    let search := binarySearch newSnapshot.xipList txid
    adjustXmin { newSnapshot with
      xipList := if search.2 then newSnapshot.xipList.eraseIdx search.1 else newSnapshot.xipList }

/-- The start of `markInProgress`: the transaction joins the in-progress ids, in order, and
lowers `xmin` to itself when it is below it. -/
def addInProgress (s : PgSnapshot) (txid : UInt64) : PgSnapshot :=
  if txid < s.xmin then ⟨txid, s.xmax, txid :: s.xipList⟩
  else
    let search := binarySearch s.xipList txid
    if !search.2 then { s with xipList := s.xipList.insertIdx search.1 txid } else s

/-- The loop of `markInProgress` that counts the in-progress ids at the end of the list that
run up to `xmax`: it reads the list from its end, comparing `xipList[len-1-numToDrop]` with
`xmax - uint64(numToDrop) - 1`. -/
def numToDrop (xmax : UInt64) (n : ℕ) : List UInt64 → ℕ
  | [] => n
  | x :: rest => if x ≠ xmax - UInt64.ofNat n - 1 then n else numToDrop xmax (n + 1) rest

/-- The end of `markInProgress`, "adjust the xmax if necessary": the in-progress ids that run
up to `xmax` are dropped, and `xmax` lowered to the first of them. -/
def adjustXmax (s : PgSnapshot) : PgSnapshot :=
  let startingXipLen := s.xipList.length
  let dropped := numToDrop s.xmax 0 s.xipList.reverse
  if dropped > 0 then
    -- the index is in range, as `dropped ≤ startingXipLen`
    ⟨s.xmin, s.xipList.getD (startingXipLen - dropped) 0, s.xipList.take (startingXipLen - dropped)⟩
  else s

def markInProgress (s : PgSnapshot) (txid : UInt64) : PgSnapshot :=
  if txid ≥ s.xmax then s else (s.addInProgress txid).adjustXmax

/-- A snapshot as postgres hands it out: the in-progress ids increase strictly and lie in
`[xmin, xmax)`, and `xmin ≤ xmax`. -/
structure WellFormed (s : PgSnapshot) : Prop where
  sorted : s.xipList.Pairwise (· < ·)
  xmin_le : ∀ x ∈ s.xipList, s.xmin ≤ x
  lt_xmax : ∀ x ∈ s.xipList, x < s.xmax
  xmin_le_xmax : s.xmin ≤ s.xmax

/-- The transactions a snapshot sees. -/
def vis (s : PgSnapshot) : Set UInt64 := {x | s.txVisible x = true}

variable {s : PgSnapshot} {t x : UInt64}

theorem wellFormed_of_check (hsorted : s.xipList.Pairwise (· < ·))
    (hrange : (s.xipList.all fun x => decide (s.xmin ≤ x) && decide (x < s.xmax)) = true)
    (hle : s.xmin ≤ s.xmax) : s.WellFormed := by
  simp only [List.all_eq_true, Bool.and_eq_true, decide_eq_true_eq] at hrange
  exact ⟨hsorted, fun x hx => (hrange x hx).1, fun x hx => (hrange x hx).2, hle⟩

theorem txVisible_iff (hs : s.WellFormed) : s.txVisible x = true ↔ x < s.xmax ∧ x ∉ s.xipList := by
  unfold txVisible
  by_cases hmin : x < s.xmin
  · have hnot : x ∉ s.xipList := fun hx => Std.not_lt.2 (hs.xmin_le x hx) hmin
    simp [hmin, hnot, Std.lt_of_lt_of_le hmin hs.xmin_le_xmax]
  · by_cases hmax : x ≥ s.xmax
    · simp [hmin, hmax, Std.not_lt.2 hmax]
    · -- in `[xmin, xmax)` the binary search decides
      have hfound : (binarySearch s.xipList x).2 = true ↔ x ∈ s.xipList :=
        binarySearch_found_iff (hs.sorted.imp Std.le_of_lt)
      simp [hmin, hmax, ← hfound, Std.not_le.1 hmax]

theorem mem_vis (hs : s.WellFormed) : x ∈ s.vis ↔ x < s.xmax ∧ x ∉ s.xipList :=
  txVisible_iff hs

theorem vis_eq_of_wellFormed {s' : PgSnapshot} (hs : s.WellFormed) (hs' : s'.WellFormed)
    (hxmax : s'.xmax = s.xmax) (hxip : s'.xipList = s.xipList) : s'.vis = s.vis := by
  ext y
  rw [mem_vis hs, mem_vis hs', hxmax, hxip]

theorem toNat_add_one_of_lt {a b : UInt64} (h : a < b) : (a + 1).toNat = a.toNat + 1 := by
  have hlt := UInt64.lt_iff_toNat_lt.1 h
  have hb := b.toNat_lt_size
  simp only [UInt64.toNat_add, UInt64.toNat_one, UInt64.size] at *
  omega

theorem mem_inProgressRun {a b y : UInt64} : y ∈ inProgressRun a b ↔ a ≤ y ∧ y < b := by
  fun_induction inProgressRun a b with
  | case1 a h ih =>
    rw [List.mem_cons, ih]
    have hnext := toNat_add_one_of_lt h
    simp only [UInt64.le_iff_toNat_le, UInt64.lt_iff_toNat_lt, ← UInt64.toNat_inj, hnext] at h ⊢
    omega
  | case2 a h =>
    simp only [List.not_mem_nil, false_iff, not_and]
    exact fun hay hyb => h (Std.lt_of_le_of_lt hay hyb)

theorem pairwise_inProgressRun (a b : UInt64) : (inProgressRun a b).Pairwise (· < ·) := by
  fun_induction inProgressRun a b with
  | case1 a h ih =>
    rw [List.pairwise_cons]
    refine ⟨fun y hy => ?_, ih⟩
    -- every later id is at least `a + 1`, which does not wrap
    have hle := UInt64.le_iff_toNat_le.1 (mem_inProgressRun.1 hy).1
    rw [toNat_add_one_of_lt h] at hle
    exact UInt64.lt_iff_toNat_lt.2 (by omega)
  | case2 a h => exact List.Pairwise.nil

section Complete

variable (ht : t.toNat < 2 ^ 64 - 1)
include ht

theorem lt_add_one_self : t < t + 1 := by
  have hnext : (t + 1).toNat = t.toNat + 1 := by
    simp only [UInt64.toNat_add, UInt64.toNat_one]
    omega
  exact UInt64.lt_iff_toNat_lt.2 (by omega)

theorem lt_add_one_iff : x < t + 1 ↔ x ≤ t := by
  have hnext : (t + 1).toNat = t.toNat + 1 := by
    simp only [UInt64.toNat_add, UInt64.toNat_one]
    omega
  rw [UInt64.lt_iff_toNat_lt, UInt64.le_iff_toNat_le, hnext]
  omega

theorem lt_xmax_extendXmax : t < (s.extendXmax t).xmax := by
  unfold extendXmax
  split
  · exact lt_add_one_self ht
  · exact Std.not_le.1 ‹_›

theorem wellFormed_extendXmax (hs : s.WellFormed) : (s.extendXmax t).WellFormed := by
  unfold extendXmax
  split
  · rename_i hmax
    have hlt := lt_add_one_self ht
    refine ⟨?_, fun x hx => ?_, fun x hx => ?_, ?_⟩
    · -- the old ids are below `xmax`, the appended ones from it on
      refine List.pairwise_append.2 ⟨hs.sorted, pairwise_inProgressRun _ _, fun a ha b hb => ?_⟩
      exact Std.lt_of_lt_of_le (hs.lt_xmax a ha) (mem_inProgressRun.1 hb).1
    · rcases List.mem_append.1 hx with hx | hx
      · exact hs.xmin_le x hx
      · exact Std.le_trans hs.xmin_le_xmax (mem_inProgressRun.1 hx).1
    · rcases List.mem_append.1 hx with hx | hx
      · exact Std.lt_trans (Std.lt_of_lt_of_le (hs.lt_xmax x hx) hmax) hlt
      · exact (mem_inProgressRun.1 hx).2
    · exact Std.le_of_lt (Std.lt_of_le_of_lt (Std.le_trans hs.xmin_le_xmax hmax) hlt)
  · exact hs

/-- Making the ids from `xmax` up to the transaction in progress changes nothing visible. -/
theorem vis_extendXmax (hs : s.WellFormed) : (s.extendXmax t).vis = s.vis := by
  ext y
  rw [mem_vis (wellFormed_extendXmax ht hs), mem_vis hs]
  unfold extendXmax
  split
  · rename_i hmax
    simp only [List.mem_append, mem_inProgressRun, lt_add_one_iff ht]
    constructor
    · rintro ⟨_, hnot⟩
      exact ⟨Std.not_le.1 fun hle => hnot (.inr ⟨hle, by grind⟩), fun hy => hnot (.inl hy)⟩
    · rintro ⟨hy, hnot⟩
      refine ⟨Std.le_of_lt (Std.lt_of_lt_of_le hy hmax), ?_⟩
      rintro (hin | ⟨hle, _⟩)
      · exact hnot hin
      · exact Std.not_lt.2 hle hy
  · rfl

end Complete

/-- Deleting a transaction below `xmax` from the in-progress ids, if it is there, keeps a
snapshot well-formed and makes the transaction visible. -/
theorem wellFormed_vis_deleteFound (hs : s.WellFormed) (ht : t < s.xmax) :
    let search := binarySearch s.xipList t
    let deleted : PgSnapshot :=
      { s with xipList := if search.2 then s.xipList.eraseIdx search.1 else s.xipList }
    deleted.WellFormed ∧ deleted.vis = insert t s.vis := by
  intro search deleted
  have hsorted : s.xipList.Pairwise (· ≤ ·) := hs.sorted.imp Std.le_of_lt
  have hmem : ∀ y, y ∈ deleted.xipList ↔ y ∈ s.xipList ∧ y ≠ t := by
    intro y
    show y ∈ (if search.2 then _ else _) ↔ _
    split
    · exact mem_eraseIdx_binarySearch hs.sorted ‹_›
    · have hnotmem : t ∉ s.xipList := fun h => ‹¬_› ((binarySearch_found_iff hsorted).2 h)
      exact ⟨fun hy => ⟨hy, fun h => hnotmem (h ▸ hy)⟩, And.left⟩
  have hsub : deleted.xipList.Sublist s.xipList := by
    show List.Sublist (if search.2 then s.xipList.eraseIdx search.1 else s.xipList) s.xipList
    split
    · exact List.eraseIdx_sublist _ _
    · exact List.Sublist.refl _
  have hwf : deleted.WellFormed := ⟨hs.sorted.sublist hsub, fun y hy => hs.xmin_le y (hsub.subset hy),
    fun y hy => hs.lt_xmax y (hsub.subset hy), hs.xmin_le_xmax⟩
  refine ⟨hwf, ?_⟩
  ext y
  rw [Set.mem_insert_iff, mem_vis hwf, mem_vis hs, hmem, show deleted.xmax = s.xmax from rfl]
  by_cases hyt : y = t
  · subst hyt
    simp [ht]
  · simp [hyt]

theorem wellFormed_adjustXmin (hs : s.WellFormed) : s.adjustXmin.WellFormed := by
  unfold adjustXmin
  split
  · exact ⟨List.Pairwise.nil, by simp, by simp, Std.le_refl _⟩
  · rename_i first rest hxip
    have hsorted : (first :: rest).Pairwise (· < ·) := hxip ▸ hs.sorted
    have hfirst : first < s.xmax := hs.lt_xmax first (hxip ▸ List.mem_cons_self)
    refine ⟨hsorted, fun y hy => ?_, fun y hy => hs.lt_xmax y (hxip ▸ hy), Std.le_of_lt hfirst⟩
    -- a strictly increasing list starts at its least element
    rcases List.mem_cons.1 hy with rfl | hy
    · exact Std.le_refl _
    · exact Std.le_of_lt ((List.pairwise_cons.1 hsorted).1 y hy)

theorem vis_adjustXmin (hs : s.WellFormed) : s.adjustXmin.vis = s.vis := by
  refine vis_eq_of_wellFormed hs (wellFormed_adjustXmin hs) ?_ ?_
  · unfold adjustXmin
    split <;> rfl
  · unfold adjustXmin
    split <;> exact ‹s.xipList = _›.symm

theorem markComplete_spec (ht : t.toNat < 2 ^ 64 - 1) (hs : s.WellFormed) :
    (s.markComplete t).WellFormed ∧ (s.markComplete t).vis = insert t s.vis := by
  unfold markComplete
  split
  · rename_i hmin
    -- below `xmin` the transaction is already visible
    have hvis : t ∈ s.vis := (mem_vis hs).2 ⟨Std.lt_of_lt_of_le hmin hs.xmin_le_xmax,
      fun hmem => Std.not_lt.2 (hs.xmin_le t hmem) hmin⟩
    exact ⟨hs, (Set.insert_eq_of_mem hvis).symm⟩
  · have hext := wellFormed_extendXmax ht hs
    obtain ⟨hdel, hdelvis⟩ := wellFormed_vis_deleteFound hext (lt_xmax_extendXmax ht)
    refine ⟨wellFormed_adjustXmin hdel, ?_⟩
    rw [vis_adjustXmin hdel, hdelvis, vis_extendXmax ht hs]

/-- What the loop of `markInProgress` counts: every id it passes, the `i`-th from the end, is
`xmax - i - 1`. -/
theorem numToDrop_spec (m : UInt64) : ∀ (R : List UInt64) (k : ℕ),
    k ≤ numToDrop m k R ∧ numToDrop m k R ≤ k + R.length ∧
      ∀ i (hi : i < R.length), k + i < numToDrop m k R → R[i] = m - UInt64.ofNat (k + i) - 1
  | [], k => by simp [numToDrop]
  | x :: rest, k => by
    unfold numToDrop
    split
    · exact ⟨Nat.le_refl _, Nat.le_add_right _ _, fun i _ hi => absurd hi (by omega)⟩
    · rename_i hx
      obtain ⟨hle, hlen, hrun⟩ := numToDrop_spec m rest (k + 1)
      refine ⟨by omega, by simp only [List.length_cons]; omega, fun i hi hlt => ?_⟩
      cases i with
      | zero => simpa using hx
      | succ j =>
        have hj := hrun j (by simpa using hi) (by omega)
        rw [show k + 1 + j = k + (j + 1) by omega] at hj
        simpa using hj

theorem length_le_toNat {L : List UInt64} {m : UInt64} (hsorted : L.Pairwise (· < ·))
    (hlt : ∀ x ∈ L, x < m) : L.length ≤ m.toNat := by
  have hnodup : (L.map UInt64.toNat).Nodup :=
    List.Nodup.map (fun _ _ h => UInt64.toNat_inj.1 h) (hsorted.imp Std.ne_of_lt)
  have hsub : L.map UInt64.toNat ⊆ List.range m.toNat := by
    intro n hn
    obtain ⟨x, hx, rfl⟩ := List.mem_map.1 hn
    exact List.mem_range.2 (UInt64.lt_iff_toNat_lt.1 (hlt x hx))
  simpa using hnodup.length_le_of_subset hsub

theorem toNat_sub_ofNat_sub_one {m : UInt64} {i : ℕ} (hi : i + 1 ≤ m.toNat) :
    (m - UInt64.ofNat i - 1).toNat = m.toNat - i - 1 := by
  have hm := m.toNat_lt_size
  simp only [UInt64.toNat_sub, UInt64.toNat_ofNat', UInt64.toNat_one, UInt64.size] at *
  omega

/-- The ids `markInProgress` drops run down from `xmax` without a gap: the one at `j` is
`xmax - (len - j)`. -/
theorem toNat_dropped {L : List UInt64} {m : UInt64} (hsorted : L.Pairwise (· < ·))
    (hlt : ∀ x ∈ L, x < m) {j : ℕ} (hj : j < L.length)
    (hdropped : L.length - numToDrop m 0 L.reverse ≤ j) :
    (L[j]).toNat + (L.length - j) = m.toNat := by
  obtain ⟨-, hlen, hrun⟩ := numToDrop_spec m L.reverse 0
  simp only [List.length_reverse, Nat.zero_add] at hlen hrun
  have hcount := length_le_toNat hsorted hlt
  -- `j` is the `(len - 1 - j)`-th id from the end
  have hat := hrun (L.length - 1 - j) (by omega) (by omega)
  have hrev : L.length - 1 - j < L.reverse.length := by simp only [List.length_reverse]; omega
  have hidx : L.reverse[L.length - 1 - j] = L[j] := by
    rw [List.getElem_reverse]
    congr 1
    omega
  rw [hidx] at hat
  rw [hat, toNat_sub_ofNat_sub_one (by omega)]
  omega

/-- Dropping the in-progress ids that run up to `xmax` and lowering `xmax` to the first of
them changes nothing visible. -/
theorem wellFormed_vis_adjustXmax (hs : s.WellFormed) :
    s.adjustXmax.WellFormed ∧ s.adjustXmax.vis = s.vis := by
  obtain ⟨xmin, m, L⟩ := s
  obtain ⟨hsorted, hmin, hlt, hle⟩ := hs
  unfold adjustXmax
  dsimp only at hsorted hmin hlt hle ⊢
  split
  · rename_i hpos
    obtain ⟨-, hlen, -⟩ := numToDrop_spec m L.reverse 0
    simp only [List.length_reverse, Nat.zero_add] at hlen
    generalize hn : numToDrop m 0 L.reverse = n at hpos hlen
    have hp : L.length - n < L.length := by omega
    rw [List.getD_eq_getElem _ _ hp]
    -- the new `xmax` is the first dropped id, `xmax - n`
    have hfirst := toNat_dropped hsorted hlt hp (by omega)
    have hbelow : ∀ j (hj : j < L.length), j < L.length - n → L[j] < L[L.length - n] :=
      fun j hj hjp => List.pairwise_iff_getElem.1 hsorted j _ hj hp hjp
    have hwf : WellFormed ⟨xmin, L[L.length - n], L.take (L.length - n)⟩ := by
      refine ⟨hsorted.sublist (List.take_sublist _ _),
        fun y hy => hmin y (List.mem_of_mem_take hy), fun y hy => ?_, hmin _ (List.getElem_mem hp)⟩
      obtain ⟨j, hj, rfl⟩ := List.mem_take_iff_getElem.1 hy
      exact hbelow j (by omega) (by omega)
    refine ⟨hwf, ?_⟩
    ext y
    rw [mem_vis hwf, mem_vis ⟨hsorted, hmin, hlt, hle⟩]
    dsimp only
    constructor
    · rintro ⟨hy, hnot⟩
      refine ⟨Std.lt_trans hy (hlt _ (List.getElem_mem hp)), fun hyL => ?_⟩
      obtain ⟨j, hj, rfl⟩ := List.mem_iff_getElem.1 hyL
      by_cases hjp : j < L.length - n
      · exact hnot (List.mem_take_iff_getElem.2 ⟨j, by omega, rfl⟩)
      · -- a dropped id is not below the new `xmax`
        exact Std.not_lt.2 (getElem_le_of_le (hsorted.imp Std.le_of_lt) (by omega) hj) hy
    · rintro ⟨hy, hnot⟩
      refine ⟨Std.not_le.1 fun hge => ?_, fun hyt => hnot (List.mem_of_mem_take hyt)⟩
      -- every id from `xmax - n` up to `xmax` is dropped, hence in progress
      have hge' := UInt64.le_iff_toNat_le.1 hge
      have hy' := UInt64.lt_iff_toNat_lt.1 hy
      have hidx : L.length - (m.toNat - y.toNat) < L.length := by omega
      have hat := toNat_dropped hsorted hlt hidx (by omega)
      have hyeq : L[L.length - (m.toNat - y.toNat)] = y := UInt64.toNat_inj.1 (by omega)
      exact hnot (hyeq ▸ List.getElem_mem hidx)
  · exact ⟨⟨hsorted, hmin, hlt, hle⟩, rfl⟩

/-- Adding a transaction below `xmax` to the in-progress ids keeps a snapshot well-formed and
hides just that transaction. -/
theorem wellFormed_vis_addInProgress (hs : s.WellFormed) (ht : t < s.xmax) :
    (s.addInProgress t).WellFormed ∧ (s.addInProgress t).vis = s.vis \ {t} := by
  have hsorted : s.xipList.Pairwise (· ≤ ·) := hs.sorted.imp Std.le_of_lt
  unfold addInProgress
  split
  · rename_i hmin
    -- below `xmin`: prepended, and the new `xmin`
    have hwf : WellFormed ⟨t, s.xmax, t :: s.xipList⟩ := by
      refine ⟨List.pairwise_cons.2 ⟨fun y hy => Std.lt_of_lt_of_le hmin (hs.xmin_le y hy), hs.sorted⟩,
        fun y hy => ?_, fun y hy => ?_, Std.le_of_lt ht⟩
      · rcases List.mem_cons.1 hy with rfl | hy
        · exact Std.le_refl _
        · exact Std.le_of_lt (Std.lt_of_lt_of_le hmin (hs.xmin_le y hy))
      · rcases List.mem_cons.1 hy with rfl | hy
        · exact ht
        · exact hs.lt_xmax y hy
    refine ⟨hwf, ?_⟩
    ext y
    rw [Set.mem_sdiff, mem_vis hwf, mem_vis hs, Set.mem_singleton_iff, List.mem_cons]
    tauto
  · rename_i hmin
    dsimp only
    split
    · rename_i hnotfound
      -- in `[xmin, xmax)` and not there: inserted in order
      have hnotmem : t ∉ s.xipList := fun h => by
        simp [(binarySearch_found_iff hsorted).2 h] at hnotfound
      have hmem : ∀ y, y ∈ s.xipList.insertIdx (binarySearch s.xipList t).1 t ↔ y = t ∨ y ∈ s.xipList :=
        fun y => mem_insertIdx_binarySearch hs.sorted
      have hwf : WellFormed { s with xipList := s.xipList.insertIdx (binarySearch s.xipList t).1 t } := by
        refine ⟨pairwise_insertIdx_binarySearch hs.sorted hnotmem, fun y hy => ?_, fun y hy => ?_,
          hs.xmin_le_xmax⟩
        · rcases (hmem y).1 hy with rfl | hy
          · exact Std.not_lt.1 hmin
          · exact hs.xmin_le y hy
        · rcases (hmem y).1 hy with rfl | hy
          · exact ht
          · exact hs.lt_xmax y hy
      refine ⟨hwf, ?_⟩
      ext y
      rw [Set.mem_sdiff, mem_vis hwf, mem_vis hs, Set.mem_singleton_iff]
      show y < s.xmax ∧ y ∉ s.xipList.insertIdx _ t ↔ _
      rw [hmem]
      tauto
    · rename_i hfound
      -- already in progress, so already hidden
      have hmem : t ∈ s.xipList := (binarySearch_found_iff hsorted).1 (by simpa using hfound)
      have hnot : t ∉ s.vis := fun h => ((mem_vis hs).1 h).2 hmem
      exact ⟨hs, (Set.sdiff_singleton_eq_self hnot).symm⟩

theorem markInProgress_spec (hs : s.WellFormed) :
    (s.markInProgress t).WellFormed ∧ (s.markInProgress t).vis = s.vis \ {t} := by
  unfold markInProgress
  split
  · rename_i hmax
    have hnot : t ∉ s.vis := fun h => Std.not_lt.2 hmax ((mem_vis hs).1 h).1
    exact ⟨hs, (Set.sdiff_singleton_eq_self hnot).symm⟩
  · obtain ⟨hadd, haddvis⟩ := wellFormed_vis_addInProgress hs (Std.not_le.1 ‹_›)
    obtain ⟨hadj, hadjvis⟩ := wellFormed_vis_adjustXmax hadd
    exact ⟨hadj, hadjvis.trans haddvis⟩

/-- On a well-formed snapshot, `markComplete t` sees exactly what it saw and `t`, and
`markInProgress t` exactly what it saw but `t`; both stay well-formed. -/
theorem markComplete_markInProgress_exact (s : PgSnapshot) (t : UInt64) (hs : s.WellFormed)
    (ht : t.toNat < 2 ^ 64 - 1) :
    (s.markComplete t).WellFormed ∧ (s.markComplete t).vis = insert t s.vis ∧
      (s.markInProgress t).WellFormed ∧ (s.markInProgress t).vis = s.vis \ {t} :=
  ⟨(markComplete_spec ht hs).1, (markComplete_spec ht hs).2, (markInProgress_spec hs).1,
    (markInProgress_spec hs).2⟩

/-- `5:7:5`, with 5 in progress, marked complete and in progress at 5. -/
theorem markComplete_markInProgress_exact_at_five :
    (PgSnapshot.mk 5 7 [5]).WellFormed ∧ (5 : UInt64).toNat < 2 ^ 64 - 1 ∧
      ((PgSnapshot.mk 5 7 [5]).markComplete 5).WellFormed ∧
      ((PgSnapshot.mk 5 7 [5]).markComplete 5).vis = insert 5 (PgSnapshot.mk 5 7 [5]).vis ∧
      ((PgSnapshot.mk 5 7 [5]).markInProgress 5).WellFormed ∧
      ((PgSnapshot.mk 5 7 [5]).markInProgress 5).vis = (PgSnapshot.mk 5 7 [5]).vis \ {5} := by
  have hs : (PgSnapshot.mk 5 7 [5]).WellFormed :=
    wellFormed_of_check (by decide) (by decide) (by decide)
  have ht : (5 : UInt64).toNat < 2 ^ 64 - 1 := by decide
  exact ⟨hs, ht, markComplete_markInProgress_exact _ _ hs ht⟩

theorem anyTXVisible_eq_true_iff {first : UInt64} {others : List UInt64} :
    s.anyTXVisible first others = true ↔ ∃ x ∈ first :: others, s.txVisible x = true := by
  simp [anyTXVisible]

theorem anyTXVisible_eq_false_of_vis_subset {rhs : PgSnapshot} (hs : s.WellFormed)
    (hsub : rhs.vis ⊆ s.vis) : rhs.anyTXVisible s.xmax s.xipList = false := by
  refine Bool.eq_false_iff.2 fun h => ?_
  obtain ⟨x, hx, hvis⟩ := anyTXVisible_eq_true_iff.1 h
  have hseen := (mem_vis hs).1 (hsub hvis)
  rcases List.mem_cons.1 hx with rfl | hx
  · exact Std.lt_irrefl hseen.1
  · exact hseen.2 hx

/-- `compare` never contradicts visibility: when `b` sees no more than `a` it does not answer
`lt` or `concurrent`, and when `a` sees no more than `b` it does not answer `gt` or
`concurrent`. So snapshots that see the same compare `equal`. -/
theorem compare_respects_vis {a b : PgSnapshot} (ha : a.WellFormed) (hb : b.WellFormed) :
    (b.vis ⊆ a.vis → a.compare b = .equal ∨ a.compare b = .gt) ∧
      (a.vis ⊆ b.vis → a.compare b = .equal ∨ a.compare b = .lt) := by
  unfold compare
  constructor
  · intro hsub
    simp only [anyTXVisible_eq_false_of_vis_subset ha hsub, Bool.false_and, Bool.false_eq_true,
      if_false]
    split <;> simp
  · intro hsub
    simp only [anyTXVisible_eq_false_of_vis_subset hb hsub, Bool.and_false, Bool.false_eq_true,
      if_false]
    split <;> simp

/-- `5:5:` against `5:7:5`, each seeing no more than the other in one direction. -/
theorem compare_respects_vis_five_seven :
    (PgSnapshot.mk 5 5 []).WellFormed ∧ (PgSnapshot.mk 5 7 [5]).WellFormed ∧
      ((PgSnapshot.mk 5 7 [5]).vis ⊆ (PgSnapshot.mk 5 5 []).vis →
        (PgSnapshot.mk 5 5 []).compare ⟨5, 7, [5]⟩ = .equal ∨
          (PgSnapshot.mk 5 5 []).compare ⟨5, 7, [5]⟩ = .gt) ∧
      ((PgSnapshot.mk 5 5 []).vis ⊆ (PgSnapshot.mk 5 7 [5]).vis →
        (PgSnapshot.mk 5 5 []).compare ⟨5, 7, [5]⟩ = .equal ∨
          (PgSnapshot.mk 5 5 []).compare ⟨5, 7, [5]⟩ = .lt) := by
  have ha : (PgSnapshot.mk 5 5 []).WellFormed :=
    wellFormed_of_check (by decide) (by decide) (by decide)
  have hb : (PgSnapshot.mk 5 7 [5]).WellFormed :=
    wellFormed_of_check (by decide) (by decide) (by decide)
  exact ⟨ha, hb, compare_respects_vis ha hb⟩

/-- `5:5:` has seen every transaction below 5; `5:7:5` has seen 6 end as well. `compare` asks
only whether `5:7:5` sees 5, the other's `xmax`, and whether `5:5:` sees 7 or 5. Neither does,
so `Equal` holds though the second snapshot sees strictly more. -/
theorem equal_though_rhs_sees_more :
    let a : PgSnapshot := ⟨5, 5, []⟩
    let b : PgSnapshot := ⟨5, 7, [5]⟩
    a.WellFormed ∧ b.WellFormed ∧ a.equal b = true ∧ a.vis ⊂ b.vis := by
  intro a b
  have ha : a.WellFormed := wellFormed_of_check (by decide) (by decide) (by decide)
  have hb : b.WellFormed := wellFormed_of_check (by decide) (by decide) (by decide)
  refine ⟨ha, hb, by decide +kernel, fun y hy => ?_, fun hsub => ?_⟩
  · -- what `5:5:` sees is below 5, so neither 5 nor past 7
    obtain ⟨hy, -⟩ := (mem_vis ha).1 hy
    refine (mem_vis hb).2 ⟨Std.lt_trans hy (by decide), fun h => ?_⟩
    rw [List.mem_singleton] at h
    subst h
    exact Std.lt_irrefl hy
  · -- 6 is seen by the second only
    have h6 : (6 : UInt64) ∈ b.vis := (mem_vis hb).2 ⟨by decide, by decide⟩
    exact absurd ((mem_vis ha).1 (hsub h6)).1 (by decide)

end PgSnapshot

end SpiceDB.Datastore.Postgres
