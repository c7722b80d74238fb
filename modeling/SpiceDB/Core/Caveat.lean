import SpiceDB.Core.Struct

namespace SpiceDB

/-- `core.ContextualizedCaveat`: a caveat name applied to a context. -/
structure ContextualizedCaveat where
  caveatName : String
  context : Struct
deriving DecidableEq

inductive Operation where
  | OR
  | AND
  | NOT
deriving DecidableEq, Repr

inductive CaveatExpression where
  | caveat (c : ContextualizedCaveat)
  | operation (op : Operation) (children : List CaveatExpression)

namespace CaveatExpression

mutual
/-- The generated `EqualVT` comparison of two expressions. -/
def equalVT : CaveatExpression → CaveatExpression → Bool
  | .caveat c, .caveat d => c == d
  | .operation o xs, .operation p ys => o == p && equalVTChildren xs ys
  | _, _ => false

/-- `EqualVT` on the repeated `children` field. -/
def equalVTChildren : List CaveatExpression → List CaveatExpression → Bool
  | [], [] => true
  | x :: xs, y :: ys => equalVT x y && equalVTChildren xs ys
  | _, _ => false
end

mutual
theorem eq_of_equalVT : ∀ {a b : CaveatExpression}, equalVT a b = true → a = b
  | .caveat c, .caveat d, h => by simpa [equalVT] using h
  | .operation o xs, .operation p ys, h => by
    simp only [equalVT, Bool.and_eq_true, beq_iff_eq] at h
    rw [h.1, eq_of_equalVTChildren h.2]
  | .caveat _, .operation _ _, h | .operation _ _, .caveat _, h => by simp [equalVT] at h

theorem eq_of_equalVTChildren :
    ∀ {xs ys : List CaveatExpression}, equalVTChildren xs ys = true → xs = ys
  | [], [], _ => rfl
  | x :: xs, y :: ys, h => by
    simp only [equalVTChildren, Bool.and_eq_true] at h
    rw [eq_of_equalVT h.1, eq_of_equalVTChildren h.2]
  | [], _ :: _, h | _ :: _, [], h => by simp [equalVTChildren] at h
end

mutual
theorem equalVT_refl : ∀ a : CaveatExpression, equalVT a a = true
  | .caveat c => by simp [equalVT]
  | .operation o xs => by simpa [equalVT] using equalVTChildren_refl xs

theorem equalVTChildren_refl : ∀ xs : List CaveatExpression, equalVTChildren xs xs = true
  | [] => rfl
  | x :: xs => by simp [equalVTChildren, equalVT_refl x, equalVTChildren_refl xs]
end

@[simp] theorem equalVT_iff {a b : CaveatExpression} : equalVT a b = true ↔ a = b :=
  ⟨eq_of_equalVT, fun h => h ▸ equalVT_refl a⟩

instance : DecidableEq CaveatExpression := fun a b =>
  decidable_of_iff (equalVT a b = true) equalVT_iff

end CaveatExpression

end SpiceDB
