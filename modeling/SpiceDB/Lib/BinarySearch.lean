import Mathlib.Data.List.InsertIdx
import Mathlib.Data.List.Nodup

namespace Slices

section Search

variable {f : ℕ → Bool} {n : ℕ}

/-- The loop of `sort.Search` over the window `[i, j)`, with `h := (i + j) / 2`. -/
def searchLoop (f : ℕ → Bool) (i j : ℕ) : ℕ :=
  if i < j then
    if !f ((i + j) / 2) then searchLoop f ((i + j) / 2 + 1) j else searchLoop f i ((i + j) / 2)
  else i
termination_by j - i

def search (n : ℕ) (f : ℕ → Bool) : ℕ := searchLoop f 0 n

/-- `pos` is where `f` turns true below `n`. -/
structure IsFirst (n : ℕ) (f : ℕ → Bool) (pos : ℕ) : Prop where
  le : pos ≤ n
  false_of_lt : ∀ k, k < pos → f k = false
  true_of_le : ∀ k, pos ≤ k → k < n → f k = true

/-- The loop keeps its invariant and ends with the window empty, where `f` turns true. -/
theorem searchLoop_isFirst (hmono : ∀ a b, a ≤ b → b < n → f a = true → f b = true)
    {i j : ℕ} (hj : j ≤ n) (hij : i ≤ j) (hlow : ∀ k, k < i → f k = false)
    (hhigh : ∀ k, j ≤ k → k < n → f k = true) : IsFirst n f (searchLoop f i j) := by
  fun_induction searchLoop f i j with
  | case1 i j hlt hfalse ih =>
    -- `f` is false at the midpoint, so everywhere before it
    refine ih (by omega) (by omega) (fun k hk => ?_) hhigh
    cases hk' : f k with
    | false => rfl
    | true =>
      have := hmono k ((i + j) / 2) (by omega) (by omega) hk'
      simp_all
  | case2 i j hlt htrue ih =>
    -- `f` is true at the midpoint, so everywhere after it
    refine ih (by omega) (by omega) hlow fun k hk hkn => hmono _ k hk hkn ?_
    simpa using htrue
  | case3 i j hge =>
    have hji : i = j := by omega
    subst hji
    exact ⟨hj, hlow, hhigh⟩

theorem search_isFirst (hmono : ∀ a b, a ≤ b → b < n → f a = true → f b = true) :
    IsFirst n f (search n f) :=
  searchLoop_isFirst hmono (Nat.le_refl n) (Nat.zero_le n) (fun _ hk => absurd hk (Nat.not_lt_zero _))
    (fun _ hk hkn => absurd hkn (Nat.not_lt_of_le hk))

/-- The search returns the point where `f` turns true, wherever that is. -/
theorem search_eq {p : ℕ} (hp : p ≤ n) (hlow : ∀ k, k < p → f k = false)
    (hhigh : ∀ k, p ≤ k → k < n → f k = true) : search n f = p := by
  have hmono : ∀ a b, a ≤ b → b < n → f a = true → f b = true := by
    intro a b hab hb ha
    by_cases hbp : b < p
    · rw [hlow a (by omega)] at ha
      cases ha
    · exact hhigh b (by omega) hb
  have hfirst : IsFirst n f (search n f) := search_isFirst hmono
  have hle : search n f ≤ n := hfirst.le
  -- both points are where `f` turns true
  rcases Nat.lt_trichotomy (search n f) p with hlt | heq | hgt
  · have htrue := hfirst.true_of_le (search n f) (Nat.le_refl _) (by omega)
    rw [hlow _ hlt] at htrue
    cases htrue
  · exact heq
  · have hfalse := hfirst.false_of_lt p hgt
    rw [hhigh p (Nat.le_refl p) (by omega)] at hfalse
    cases hfalse

/-- `slices.BinarySearchFunc`: the loop with `f(h) = cmp(x[h], target) >= 0`, and whether
`cmp` finds the target at the position it returns. -/
def binarySearchFunc {α β : Type*} (x : List α) (target : β) (cmp : α → β → Ordering) : ℕ × Bool :=
  let i := search x.length fun h =>
    match x[h]? with
    | some v => cmp v target != .lt
    | none => true
  (i, if h : i < x.length then cmp x[i] target == .eq else false)

theorem binarySearchFunc_eq {α β : Type*} {x : List α} {target : β} {cmp : α → β → Ordering}
    {p : ℕ} (hp : p < x.length) (hlow : ∀ k (hk : k < x.length), k < p → cmp x[k] target = .lt)
    (hhigh : ∀ k (hk : k < x.length), p ≤ k → cmp x[k] target ≠ .lt) :
    binarySearchFunc x target cmp = (p, cmp x[p] target == .eq) := by
  unfold binarySearchFunc
  rw [search_eq (Nat.le_of_lt hp) (fun k hk => ?_) (fun k hpk hk => ?_)]
  · simp [hp]
  · simp [List.getElem?_eq_getElem (Nat.lt_trans hk hp), hlow k _ hk]
  · simp [List.getElem?_eq_getElem hk, hhigh k hk hpk]

end Search

variable {α : Type*} [LE α] [LT α] [Std.IsLinearOrder α] [Std.LawfulOrderLT α]
  [DecidableLT α] [DecidableEq α]

/-- Whether `BinarySearch`'s loop moves down at `h`: `!(x[h] < target)`. -/
def notBelow (x : List α) (target : α) (h : ℕ) : Bool :=
  match x[h]? with
  | some v => !decide (v < target)
  | none => true

/-- `slices.BinarySearch`: where `target` is or would be inserted, and whether it is there. -/
def binarySearch (x : List α) (target : α) : ℕ × Bool :=
  let i := search x.length (notBelow x target)
  (i, if h : i < x.length then decide (x[i] = target) else false)

/-- `pos` is the lower bound of `target` in `x`: what stands before it is smaller, what
stands from it on is not. -/
structure IsLowerBound (x : List α) (target : α) (pos : ℕ) : Prop where
  le_length : pos ≤ x.length
  lt_target : ∀ k (hk : k < x.length), k < pos → x[k] < target
  target_le : ∀ k (hk : k < x.length), pos ≤ k → target ≤ x[k]

section Sorted

variable {x : List α} {target : α}

omit [LT α] [Std.LawfulOrderLT α] [DecidableLT α] [DecidableEq α] in
theorem getElem_le_of_le (hx : x.Pairwise (· ≤ ·)) {a b : ℕ} (hab : a ≤ b) (hb : b < x.length) :
    x[a] ≤ x[b] := by
  rcases Nat.lt_or_eq_of_le hab with hab | rfl
  · exact List.pairwise_iff_getElem.1 hx a b (by omega) hb hab
  · exact Std.le_refl _

omit [DecidableEq α] in
theorem notBelow_eq_true_iff {h : ℕ} (hh : h < x.length) :
    notBelow x target h = true ↔ target ≤ x[h] := by
  simp [notBelow, List.getElem?_eq_getElem hh, Std.not_lt]

omit [DecidableEq α] in
theorem notBelow_mono (hx : x.Pairwise (· ≤ ·)) :
    ∀ a b, a ≤ b → b < x.length → notBelow x target a = true → notBelow x target b = true := by
  intro a b hab hb ha
  rw [notBelow_eq_true_iff (by omega)] at ha
  rw [notBelow_eq_true_iff hb]
  exact Std.le_trans ha (getElem_le_of_le hx hab hb)

theorem binarySearch_isLowerBound (hx : x.Pairwise (· ≤ ·)) :
    IsLowerBound x target (binarySearch x target).1 := by
  have hfirst : IsFirst x.length (notBelow x target) (search x.length (notBelow x target)) :=
    search_isFirst (notBelow_mono hx)
  refine ⟨hfirst.le, fun k hk hlt => ?_, fun k hk hle => ?_⟩
  · have hfalse := hfirst.false_of_lt k hlt
    exact Std.not_le.1 fun hle => by simp [(notBelow_eq_true_iff hk).2 hle] at hfalse
  · exact (notBelow_eq_true_iff hk).1 (hfirst.true_of_le k hle hk)

/-- On a sorted list `BinarySearch` finds exactly the members. -/
theorem binarySearch_found_iff (hx : x.Pairwise (· ≤ ·)) :
    (binarySearch x target).2 = true ↔ target ∈ x := by
  have hbound : IsLowerBound x target (binarySearch x target).1 := binarySearch_isLowerBound hx
  generalize hpos : binarySearch x target = result at hbound ⊢
  obtain ⟨pos, found⟩ := result
  have hfound : found = if h : pos < x.length then decide (x[pos] = target) else false := by
    simp only [binarySearch, Prod.mk.injEq] at hpos
    rw [← hpos.1, ← hpos.2]
  subst hfound
  constructor
  · intro h
    split at h
    · exact List.mem_iff_getElem.2 ⟨pos, ‹_›, of_decide_eq_true h⟩
    · cases h
  · intro hmem
    obtain ⟨k, hk, hxk⟩ := List.mem_iff_getElem.1 hmem
    -- the member sits at or after the lower bound, and nothing between them is larger
    have hposk : pos ≤ k := Nat.le_of_not_lt fun hlt =>
      Std.lt_irrefl (hxk ▸ hbound.lt_target k hk hlt)
    have hpos : pos < x.length := by omega
    have hle : x[pos] ≤ target := hxk ▸ getElem_le_of_le hx hposk hk
    simpa [hpos] using Std.le_antisymm hle (hbound.target_le pos hpos (Nat.le_refl _))

end Sorted

omit [LE α] [LT α] [Std.IsLinearOrder α] [Std.LawfulOrderLT α] [DecidableLT α] [DecidableEq α] in
/-- Inserting `a` at a position with smaller elements before it and larger ones after it
keeps a list sorted by `R`. -/
theorem pairwise_insertIdx {R : α → α → Prop} {a : α} :
    ∀ {n : ℕ} {l : List α}, l.Pairwise R →
      (∀ k (hk : k < l.length), k < n → R l[k] a) →
      (∀ k (hk : k < l.length), n ≤ k → R a l[k]) → (l.insertIdx n a).Pairwise R
  | 0, l, hl, _, hhigh => by
    rw [List.insertIdx_zero, List.pairwise_cons]
    refine ⟨fun y hy => ?_, hl⟩
    obtain ⟨k, hk, rfl⟩ := List.mem_iff_getElem.1 hy
    exact hhigh k hk (Nat.zero_le k)
  | _ + 1, [], _, _, _ => by simp
  | n + 1, b :: l, hl, hlow, hhigh => by
    rw [List.insertIdx_succ_cons, List.pairwise_cons]
    obtain ⟨hb, hl⟩ := List.pairwise_cons.1 hl
    refine ⟨fun y hy => ?_, pairwise_insertIdx hl (fun k hk hkn => ?_) (fun k hk hnk => ?_)⟩
    · rcases List.eq_or_mem_of_mem_insertIdx hy with rfl | hy
      · exact hlow 0 (by simp) (Nat.succ_pos n)
      · exact hb y hy
    · have h := hlow (k + 1) (by simpa using hk) (by omega)
      rwa [List.getElem_cons_succ] at h
    · have h := hhigh (k + 1) (by simpa using hk) (by omega)
      rwa [List.getElem_cons_succ] at h

section StrictlySorted

variable {x : List α} {target : α}

theorem pairwise_insertIdx_binarySearch (hx : x.Pairwise (· < ·)) (hnotmem : target ∉ x) :
    (x.insertIdx (binarySearch x target).1 target).Pairwise (· < ·) := by
  have hbound : IsLowerBound x target (binarySearch x target).1 :=
    binarySearch_isLowerBound (hx.imp Std.le_of_lt)
  refine pairwise_insertIdx hx hbound.lt_target fun k hk hposk => ?_
  have hne : target ≠ x[k] := fun heq => hnotmem (heq ▸ List.getElem_mem hk)
  exact Std.lt_of_le_of_ne (hbound.target_le k hk hposk) hne

theorem mem_insertIdx_binarySearch (hx : x.Pairwise (· < ·)) {y : α} :
    y ∈ x.insertIdx (binarySearch x target).1 target ↔ y = target ∨ y ∈ x :=
  List.mem_insertIdx (binarySearch_isLowerBound (hx.imp Std.le_of_lt)).le_length

/-- Deleting at the position of a target that is found removes just the target. -/
theorem mem_eraseIdx_binarySearch (hx : x.Pairwise (· < ·))
    (hfound : (binarySearch x target).2 = true) {y : α} :
    y ∈ x.eraseIdx (binarySearch x target).1 ↔ y ∈ x ∧ y ≠ target := by
  have hsorted : x.Pairwise (· ≤ ·) := hx.imp Std.le_of_lt
  have hbound : IsLowerBound x target (binarySearch x target).1 := binarySearch_isLowerBound hsorted
  have hmem := (binarySearch_found_iff hsorted).1 hfound
  -- the lower bound of a member is its index
  have hpos : (binarySearch x target).1 < x.length := by
    obtain ⟨k, hk, hxk⟩ := List.mem_iff_getElem.1 hmem
    exact Nat.lt_of_le_of_lt (Nat.le_of_not_lt fun hlt =>
      Std.lt_irrefl (hxk ▸ hbound.lt_target k hk hlt)) hk
  have hat : x[(binarySearch x target).1] = target := by
    have h := hfound
    simp only [binarySearch] at h hpos ⊢
    rw [dif_pos hpos] at h
    exact of_decide_eq_true h
  have hnodup : x.Nodup := hx.imp Std.ne_of_lt
  rw [← List.Nodup.erase_getElem hnodup _ hpos, hat, List.Nodup.mem_erase_iff hnodup, and_comm]

end StrictlySorted

end Slices
