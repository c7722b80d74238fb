import SpiceDB.Core.Caveat

namespace SpiceDB.Caveats

/-- A truth value for every contextualized caveat. -/
abbrev Valuation := ContextualizedCaveat → Bool

mutual
/-- The result of fully evaluating an expression under a valuation. -/
def run (v : Valuation) : CaveatExpression → Bool
  | .caveat c => v c
  | .operation .AND cs => runAnd v cs
  | .operation .OR cs => runOr v cs
  | .operation .NOT cs => runNot v cs

/-- The `AND` loop: `boolResult` starts at `true`. -/
def runAnd (v : Valuation) : List CaveatExpression → Bool
  | [] => true
  | c :: cs => run v c && runAnd v cs

/-- The `OR` loop: `boolResult` starts at `false`. -/
def runOr (v : Valuation) : List CaveatExpression → Bool
  | [] => false
  | c :: cs => run v c || runOr v cs

/-- The `NOT` loop returns at its first child; with no child it returns `false`. -/
def runNot (v : Valuation) : List CaveatExpression → Bool
  | [] => false
  | c :: _ => !run v c
end

/-- The value of an optional expression, where `nil` stands for `true`. -/
def evalCaveat (v : Valuation) : Option CaveatExpression → Bool
  | none => true
  | some e => run v e

@[simp] theorem evalCaveat_none (v : Valuation) : evalCaveat v none = true := rfl

@[simp] theorem evalCaveat_some (v : Valuation) (e : CaveatExpression) :
    evalCaveat v (some e) = run v e := rfl

@[simp] theorem run_and_pair (v : Valuation) (a b : CaveatExpression) :
    run v (.operation .AND [a, b]) = (run v a && run v b) := by
  simp [run, runAnd]

@[simp] theorem run_or_pair (v : Valuation) (a b : CaveatExpression) :
    run v (.operation .OR [a, b]) = (run v a || run v b) := by
  simp [run, runOr]

@[simp] theorem run_not_single (v : Valuation) (a : CaveatExpression) :
    run v (.operation .NOT [a]) = !run v a := by
  simp [run, runNot]

end SpiceDB.Caveats
