import Mathlib.Data.List.Basic

namespace Delimited

variable {α : Type*}

/-- A field ending at the first `d` is determined by the text. -/
theorem append_cons_inj {d : α} :
    ∀ {a b x y : List α}, d ∉ a → d ∉ b → a ++ d :: x = b ++ d :: y → a = b ∧ x = y
  | [], [], _, _, _, _, h => ⟨rfl, by simpa using h⟩
  | [], c :: b, _, _, _, hb, h => by
    obtain ⟨rfl, -⟩ := List.cons.inj h
    exact absurd List.mem_cons_self hb
  | c :: a, [], _, _, ha, _, h => by
    obtain ⟨rfl, -⟩ := List.cons.inj h.symm
    exact absurd List.mem_cons_self ha
  | c :: a, c' :: b, _, _, ha, hb, h => by
    simp only [List.cons_append, List.cons.injEq] at h
    obtain ⟨rfl, htail⟩ := h
    obtain ⟨rfl, rfl⟩ := append_cons_inj (List.not_mem_of_not_mem_cons ha)
      (List.not_mem_of_not_mem_cons hb) htail
    exact ⟨rfl, rfl⟩

theorem append_cons_inj_right {d : α} {a b x y : List α} (hx : d ∉ x) (hy : d ∉ y)
    (h : a ++ d :: x = b ++ d :: y) : a = b ∧ x = y := by
  have hrev : x.reverse ++ d :: a.reverse = y.reverse ++ d :: b.reverse := by
    simpa using congrArg List.reverse h
  obtain ⟨hxy, hab⟩ := append_cons_inj (by simpa using hx) (by simpa using hy) hrev
  exact ⟨List.reverse_injective hab, List.reverse_injective hxy⟩

/-- Items each followed by `d`, as Go writes a list with a separator after every item. -/
def terminated (d : α) : List (List α) → List α
  | [] => []
  | item :: items => item ++ d :: terminated d items

/-- An item that neither holds the separator nor starts with the terminator. -/
def Plain (d e : α) (item : List α) : Prop := d ∉ item ∧ item.head? ≠ some e

/-- Terminated items followed by `e` are determined by the text when no item holds `d` or
starts with `e`. -/
theorem terminated_append_cons_inj {d e : α} (hde : d ≠ e) :
    ∀ {xs ys : List (List α)} {x y : List α}, (∀ item ∈ xs, Plain d e item) →
      (∀ item ∈ ys, Plain d e item) → terminated d xs ++ e :: x = terminated d ys ++ e :: y →
      xs = ys ∧ x = y
  | [], [], _, _, _, _, h => ⟨rfl, by simpa [terminated] using h⟩
  | [], item :: ys, _, _, _, hy, h => by
    -- the terminator would start the first item, or be its separator
    have hplain := hy item List.mem_cons_self
    cases item with
    | nil => exact absurd (List.cons.inj h).1.symm hde
    | cons c rest => exact absurd (by simpa using (List.cons.inj h).1.symm) hplain.2
  | item :: xs, [], _, _, hx, _, h => by
    have hplain := hx item List.mem_cons_self
    cases item with
    | nil => exact absurd (List.cons.inj h).1 hde
    | cons c rest => exact absurd (by simpa using (List.cons.inj h).1) hplain.2
  | item :: xs, item' :: ys, _, _, hx, hy, h => by
    simp only [terminated, List.append_assoc, List.cons_append] at h
    obtain ⟨rfl, hrest⟩ := append_cons_inj (hx item List.mem_cons_self).1
      (hy item' List.mem_cons_self).1 h
    obtain ⟨rfl, rfl⟩ := terminated_append_cons_inj hde (fun i hi => hx i (List.mem_cons_of_mem _ hi))
      (fun i hi => hy i (List.mem_cons_of_mem _ hi)) hrest
    exact ⟨rfl, rfl⟩

theorem mem_intercalate_singleton {sep c : α} :
    ∀ {pieces : List (List α)}, c ∈ [sep].intercalate pieces → c = sep ∨ ∃ piece ∈ pieces, c ∈ piece
  | [], h => by simp at h
  | [piece], h => .inr ⟨piece, List.mem_singleton_self _, by simpa using h⟩
  | piece :: next :: pieces, h => by
    rw [List.intercalate_cons_cons] at h
    rcases List.mem_append.1 h with h | h
    · rcases List.mem_append.1 h with h | h
      · exact .inr ⟨piece, List.mem_cons_self, h⟩
      · exact .inl (List.mem_singleton.1 h)
    · rcases mem_intercalate_singleton h with h | ⟨p, hp, hc⟩
      · exact .inl h
      · exact .inr ⟨p, List.mem_cons_of_mem _ hp, hc⟩

end Delimited
