import Mathlib

namespace Condition

section Negation

variable {α : Type*} [BooleanAlgebra α]

/-- Negation: the absent becomes unconditional, the unconditional absent, and a truth table
its complement. -/
def neg : WithBot (WithTop α) → WithBot (WithTop α)
  | none => ⊤
  | some none => ⊥
  | some (some a) => ((aᶜ : α) : WithTop α)

@[simp] theorem neg_bot : neg (⊥ : WithBot (WithTop α)) = ⊤ := rfl

@[simp] theorem neg_top : neg (⊤ : WithBot (WithTop α)) = ⊥ := rfl

@[simp] theorem neg_coe_coe (a : α) :
    neg (((a : WithTop α) : WithBot (WithTop α))) = ((aᶜ : α) : WithTop α) := rfl

/-- Negation turns joins into meets. -/
theorem neg_sup (x y : WithBot (WithTop α)) : neg (x ⊔ y) = neg x ⊓ neg y := by
  induction x using WithBot.recBotCoe with
  | bot => simp
  | coe x =>
    induction y using WithBot.recBotCoe with
    | bot => simp
    | coe y =>
      induction x using WithTop.recTopCoe with
      | top => simp
      | coe x =>
        induction y using WithTop.recTopCoe with
        | top => simp
        | coe y =>
          rw [← WithBot.coe_sup, ← WithTop.coe_sup, neg_coe_coe, neg_coe_coe, neg_coe_coe,
            compl_sup, WithTop.coe_inf, WithBot.coe_inf]

theorem neg_anti {x y : WithBot (WithTop α)} (h : x ≤ y) : neg y ≤ neg x := by
  rw [← sup_of_le_right h, neg_sup]
  exact inf_le_left

end Negation

section Evaluation

variable {V : Type*}

/-- A condition on truth tables over `V`, at the point `v`: the absent is false, the
unconditional true, and a truth table its value at `v`. -/
def evalAt (v : V) : WithBot (WithTop (V → Bool)) → Bool
  | none => false
  | some none => true
  | some (some f) => f v

@[simp] theorem evalAt_bot (v : V) : evalAt v ⊥ = false := rfl

@[simp] theorem evalAt_top (v : V) : evalAt v ⊤ = true := rfl

@[simp] theorem evalAt_coe_coe (v : V) (f : V → Bool) :
    evalAt v (((f : WithTop (V → Bool)) : WithBot (WithTop (V → Bool)))) = f v := rfl

@[simp] theorem evalAt_sup (v : V) (x y : WithBot (WithTop (V → Bool))) :
    evalAt v (x ⊔ y) = (evalAt v x || evalAt v y) := by
  induction x using WithBot.recBotCoe with
  | bot => simp
  | coe x =>
    induction y using WithBot.recBotCoe with
    | bot => simp
    | coe y =>
      induction x using WithTop.recTopCoe with
      | top => simp
      | coe x =>
        induction y using WithTop.recTopCoe with
        | top => simp
        | coe y => rw [← WithBot.coe_sup, ← WithTop.coe_sup, evalAt_coe_coe, evalAt_coe_coe,
            evalAt_coe_coe, Pi.sup_apply, Bool.max_eq_or]

@[simp] theorem evalAt_inf (v : V) (x y : WithBot (WithTop (V → Bool))) :
    evalAt v (x ⊓ y) = (evalAt v x && evalAt v y) := by
  induction x using WithBot.recBotCoe with
  | bot => simp
  | coe x =>
    induction y using WithBot.recBotCoe with
    | bot => simp
    | coe y =>
      induction x using WithTop.recTopCoe with
      | top => simp
      | coe x =>
        induction y using WithTop.recTopCoe with
        | top => simp
        | coe y => rw [← WithBot.coe_inf, ← WithTop.coe_inf, evalAt_coe_coe, evalAt_coe_coe,
            evalAt_coe_coe, Pi.inf_apply, Bool.min_eq_and]

@[simp] theorem evalAt_neg (v : V) (x : WithBot (WithTop (V → Bool))) :
    evalAt v (neg x) = !evalAt v x := by
  induction x using WithBot.recBotCoe with
  | bot => rfl
  | coe x =>
    induction x using WithTop.recTopCoe with
    | top => rfl
    | coe x => rfl

theorem evalAt_of_le (v : V) {x y : WithBot (WithTop (V → Bool))} (h : x ≤ y)
    (hx : evalAt v x = true) : evalAt v y = true := by
  rw [← sup_of_le_right h, evalAt_sup, hx, Bool.true_or]

end Evaluation

section CrossInf

variable {β : Type*} [DistribLattice β]

/-- The cross meet of `a` and `b` against `x` and `y`: `a` meets `b` or `y`, `b` meets `x`. -/
def crossInf (a b x y : β) : β := a ⊓ b ⊔ a ⊓ y ⊔ b ⊓ x

theorem crossInf_comm (a b x y : β) : crossInf a b x y = crossInf b a y x := by
  unfold crossInf
  rw [inf_comm a b, sup_right_comm]

theorem crossInf_assoc (a b c x y z : β) :
    crossInf a (crossInf b c y z) x (y ⊓ z) = crossInf (crossInf a b x y) c (x ⊓ y) z := by
  simp only [crossInf, inf_sup_left, inf_sup_right]
  ac_rfl

theorem crossInf_self (a x : β) : crossInf a a x x = a := by
  simp [crossInf]

theorem crossInf_sup_inf (a b x y : β) : crossInf a b x y ⊔ x ⊓ y = (a ⊔ x) ⊓ (b ⊔ y) := by
  simp only [crossInf, inf_sup_left, inf_sup_right]
  ac_rfl

end CrossInf

end Condition
