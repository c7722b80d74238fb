import SpiceDB.Caveats.Run

namespace SpiceDB.Caveats

open CaveatExpression

def wrapCaveat : Option ContextualizedCaveat → Option CaveatExpression
  | none => none
  | some c => some (.caveat c)

def caveatOr : Option CaveatExpression → Option CaveatExpression → Option CaveatExpression
  | none, second => second
  | first, none => first
  | some first, some second =>
    if first.equalVT second then some first else some (.operation .OR [first, second])

def shortcircuitedOr (first second : Option CaveatExpression) : Option CaveatExpression :=
  if first.isNone || second.isNone then none else caveatOr first second

def caveatAnd : Option CaveatExpression → Option CaveatExpression → Option CaveatExpression
  | none, second => second
  | first, none => first
  | some first, some second =>
    if first.equalVT second then some first else some (.operation .AND [first, second])

def caveatInvert : Option CaveatExpression → Option CaveatExpression
  | none => none
  | some ce => some (.operation .NOT [ce])

def caveatSub (caveat subtracted : Option CaveatExpression) : Option CaveatExpression :=
  match caveat, subtracted with
  | none, _ => caveatInvert subtracted
  | some _, none => caveat
  | some c, some s => some (.operation .AND [c, .operation .NOT [s]])

variable (v : Valuation)

@[simp] theorem evalCaveat_wrapCaveat_some (c : ContextualizedCaveat) :
    evalCaveat v (wrapCaveat (some c)) = v c := rfl

@[simp] theorem caveatOr_none_left (e : Option CaveatExpression) : caveatOr none e = e := rfl

@[simp] theorem caveatOr_none_right (e : Option CaveatExpression) : caveatOr e none = e := by
  cases e <;> rfl

theorem evalCaveat_caveatOr_some (a b : CaveatExpression) :
    evalCaveat v (caveatOr (some a) (some b)) = (run v a || run v b) := by
  by_cases h : a = b
  · subst h
    simp [caveatOr]
  · simp [caveatOr, h]

@[simp] theorem isSome_caveatOr (a b : Option CaveatExpression) :
    (caveatOr a b).isSome = (a.isSome || b.isSome) := by
  cases a <;> cases b <;> simp [caveatOr]
  split <;> rfl

/-- `ShortcircuitedOr` is exactly `||` when `nil` means `true`. -/
@[simp] theorem evalCaveat_shortcircuitedOr (a b : Option CaveatExpression) :
    evalCaveat v (shortcircuitedOr a b) = (evalCaveat v a || evalCaveat v b) := by
  cases a <;> cases b <;> simp [shortcircuitedOr, evalCaveat_caveatOr_some]

theorem shortcircuitedOr_eq_none {a b : Option CaveatExpression} :
    shortcircuitedOr a b = none ↔ a = none ∨ b = none := by
  cases a <;> cases b <;> simp [shortcircuitedOr, caveatOr]
  split <;> simp

/-- `And` is exactly `&&` when `nil` means `true`. -/
@[simp] theorem evalCaveat_caveatAnd (a b : Option CaveatExpression) :
    evalCaveat v (caveatAnd a b) = (evalCaveat v a && evalCaveat v b) := by
  cases a with
  | none => simp [caveatAnd]
  | some a =>
    cases b with
    | none => simp [caveatAnd]
    | some b =>
      by_cases h : a = b
      · subst h
        simp [caveatAnd]
      · simp [caveatAnd, h]

theorem caveatAnd_eq_none {a b : Option CaveatExpression} :
    caveatAnd a b = none ↔ a = none ∧ b = none := by
  cases a <;> cases b <;> simp [caveatAnd]
  split <;> simp

@[simp] theorem caveatInvert_none : caveatInvert none = none := rfl

/-- `Invert` of a present expression is its negation. -/
@[simp] theorem evalCaveat_caveatInvert_some (a : CaveatExpression) :
    evalCaveat v (caveatInvert (some a)) = !run v a := by
  simp [caveatInvert]

theorem evalCaveat_caveatOr_caveatInvert (a : Option CaveatExpression) (b : CaveatExpression) :
    evalCaveat v (caveatOr (caveatInvert a) (some b)) = (!evalCaveat v a || run v b) := by
  cases a with
  | none => simp
  | some a => simp [caveatInvert, evalCaveat_caveatOr_some]

/-- `Subtract` of a present expression conjoins its negation. -/
@[simp] theorem evalCaveat_caveatSub_some (a : Option CaveatExpression) (s : CaveatExpression) :
    evalCaveat v (caveatSub a (some s)) = (evalCaveat v a && !run v s) := by
  cases a <;> simp [caveatSub]

end SpiceDB.Caveats
