import Mathlib.Logic.Relation
import Mathlib.Data.Finset.Card

namespace Cycles

variable {α : Type _} {r : α → α → Prop}

theorem not_transGen_self_of_acc {a : α} (h : Acc (flip r) a) : ¬Relation.TransGen r a a := by
  induction h with
  | intro a _ ih =>
    intro hcycle
    -- the cycle through `a` goes on through its first step `b`, which is on it as well
    obtain ⟨b, hab, hba⟩ := Relation.TransGen.head'_iff.1 hcycle
    exact ih b hab (Relation.TransGen.tail' hba hab)

theorem transGen_iterate {f : α → α} {a : α} (hstep : ∀ k, r (f^[k] a) (f^[k + 1] a)) :
    ∀ {i j : ℕ}, i < j → Relation.TransGen r (f^[i] a) (f^[j] a)
  | i, j + 1, hij => by
    rcases Nat.lt_succ_iff_lt_or_eq.1 hij with hlt | rfl
    · exact (transGen_iterate hstep hlt).tail (hstep j)
    · exact .single (hstep i)

/-- A nonempty finite set that `r` never leaves holds a cycle: a path inside it longer than it
is visits some element twice. -/
theorem exists_transGen_self_of_closed {l : List α} (hne : l ≠ [])
    (hclosed : ∀ a ∈ l, ∃ b ∈ l, r a b) : ∃ a, Relation.TransGen r a a := by
  classical
  obtain ⟨a₀, ha₀⟩ := List.exists_mem_of_ne_nil l hne
  -- a successor inside `l` for each of its elements
  let f : α → α := fun a => if h : a ∈ l then Classical.choose (hclosed a h) else a
  have hf : ∀ a ∈ l, f a ∈ l ∧ r a (f a) := fun a ha => by
    simp only [f, dif_pos ha]
    exact Classical.choose_spec (hclosed a ha)
  have hmem : ∀ k, f^[k] a₀ ∈ l := by
    intro k
    induction k with
    | zero => exact ha₀
    | succ k ih =>
      rw [Function.iterate_succ_apply']
      exact (hf _ ih).1
  have hstep : ∀ k, r (f^[k] a₀) (f^[k + 1] a₀) := fun k => by
    rw [Function.iterate_succ_apply']
    exact (hf _ (hmem k)).2
  -- more indices than elements: two iterates meet
  obtain ⟨i, -, j, -, hij, hmeet⟩ := Finset.exists_ne_map_eq_of_card_lt_of_maps_to
    (s := Finset.range (l.toFinset.card + 1)) (t := l.toFinset) (f := fun k => f^[k] a₀)
    (by simp) (fun k _ => List.mem_toFinset.2 (hmem k))
  rcases Nat.lt_or_gt_of_ne hij with hlt | hlt
  · have hpath := transGen_iterate hstep hlt
    rw [← hmeet] at hpath
    exact ⟨_, hpath⟩
  · have hpath := transGen_iterate hstep hlt
    rw [hmeet] at hpath
    exact ⟨_, hpath⟩

end Cycles
