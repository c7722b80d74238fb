import Mathlib.Data.List.Basic

namespace Heap

variable {α : Type _}

/-- A fresh cell holding `a`, at the reference `cells.length`. -/
def alloc (cells : List α) (a : α) : List α := cells ++ [a]

/-- Every cell of `cells` is in `cells'`, with the same content. -/
def Extends (cells cells' : List α) : Prop :=
  cells.length ≤ cells'.length ∧ ∀ r < cells.length, cells'[r]? = cells[r]?

theorem getElem?_alloc_self (cells : List α) (a : α) : (alloc cells a)[cells.length]? = some a :=
  List.getElem?_concat_length

theorem length_alloc (cells : List α) (a : α) : (alloc cells a).length = cells.length + 1 := by
  simp [alloc]

theorem Extends.refl (cells : List α) : Extends cells cells :=
  ⟨Nat.le_refl _, fun _ _ => rfl⟩

theorem Extends.trans {cells cells' cells'' : List α} (h : Extends cells cells')
    (h' : Extends cells' cells'') : Extends cells cells'' := by
  refine ⟨Nat.le_trans h.1 h'.1, fun r hr => ?_⟩
  rw [h'.2 r (Nat.lt_of_lt_of_le hr h.1), h.2 r hr]

theorem extends_alloc (cells : List α) (a : α) : Extends cells (alloc cells a) := by
  refine ⟨by simp [alloc], fun r hr => ?_⟩
  exact List.getElem?_append_left hr

theorem Extends.set {cells cells' : List α} (h : Extends cells cells') {r : ℕ}
    (hr : cells.length ≤ r) (a : α) : Extends cells (cells'.set r a) := by
  refine ⟨by simpa using h.1, fun r' hr' => ?_⟩
  rw [List.getElem?_set, if_neg (by omega), h.2 r' hr']

theorem Extends.modify {cells cells' : List α} (h : Extends cells cells') {r : ℕ}
    (hr : cells.length ≤ r) (f : α → α) : Extends cells (cells'.modify r f) := by
  refine ⟨by simpa using h.1, fun r' hr' => ?_⟩
  have hne : r ≠ r' := by omega
  rw [List.getElem?_modify, h.2 r' hr']
  simp [hne]

theorem getElem?_set_self {cells : List α} {r : ℕ} (hr : r < cells.length) (a : α) :
    (cells.set r a)[r]? = some a := by
  simp [hr]

theorem getElem?_foldl_modify {γ : Type _} (r : ℕ) (f : γ → α → α) :
    ∀ (l : List γ) (cells : List α),
      (l.foldl (fun cells e => cells.modify r (f e)) cells)[r]? =
        cells[r]?.map fun a => l.foldl (fun a e => f e a) a
  | [], cells => by simp
  | e :: l, cells => by
    rw [List.foldl_cons, getElem?_foldl_modify r f l, List.getElem?_modify]
    cases cells[r]? <;> simp

theorem length_foldl_modify {γ : Type _} (r : ℕ) (f : γ → α → α) :
    ∀ (l : List γ) (cells : List α),
      (l.foldl (fun cells e => cells.modify r (f e)) cells).length = cells.length
  | [], _ => rfl
  | e :: l, cells => by
    rw [List.foldl_cons, length_foldl_modify r f l, List.length_modify]

theorem Extends.foldl_modify {γ : Type _} {cells : List α} {r : ℕ} (hr : cells.length ≤ r)
    (f : γ → α → α) : ∀ (l : List γ) (cells' : List α), Extends cells cells' →
      Extends cells (l.foldl (fun cells e => cells.modify r (f e)) cells')
  | [], _, h => h
  | e :: l, _, h => Extends.foldl_modify hr f l _ (h.modify hr (f e))

end Heap
