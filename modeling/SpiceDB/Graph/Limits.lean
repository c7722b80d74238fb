import SpiceDB.Core.Tuple

namespace SpiceDB.Graph

/-- `limitTracker`. The `uint32` limit is a natural number: it is only ever lowered, and never
below 0. -/
structure LimitTracker where
  hasLimit : Bool
  currentLimit : ℕ
deriving DecidableEq, Repr

/-- `newLimitTracker`: a limit of 0 is none. -/
def newLimitTracker (optionalLimit : ℕ) : LimitTracker :=
  { currentLimit := optionalLimit, hasLimit := decide (0 < optionalLimit) }

namespace LimitTracker

def clone (lt : LimitTracker) : LimitTracker :=
  { currentLimit := lt.currentLimit, hasLimit := lt.hasLimit }

/-- `prepareForPublishing`: whether one more result may be published, and the tracker after. -/
def prepareForPublishing (lt : LimitTracker) : Bool × LimitTracker :=
  if !lt.hasLimit then (true, lt)
  else if lt.currentLimit = 0 then (false, lt)
  else if lt.currentLimit = 1 then (true, { lt with currentLimit := 0 })
  else (true, { lt with currentLimit := lt.currentLimit - 1 })

def markAlreadyPublished (lt : LimitTracker) (count : ℕ) : Except String LimitTracker :=
  if !lt.hasLimit then .ok lt
  else if count > lt.currentLimit then
    .error (mustBugf ("given published count of " ++ toString count ++
      " exceeds the remaining limit of " ++ toString lt.currentLimit))
  else .ok { lt with currentLimit := lt.currentLimit - count }

def hasExhaustedLimit (lt : LimitTracker) : Bool := lt.hasLimit && lt.currentLimit == 0

/-- The loop that publishes `results` in order while `prepareForPublishing` allows: what it
published, the tracker after, and whether a result was refused. It is the loop of
`completedTaskIndex` over a child stream's results, and of a handler over the results it
finds. -/
def publishAll {Q : Type _} (lt : LimitTracker) : List Q → List Q × LimitTracker × Bool
  | [] => ([], lt, false)
  | r :: rs =>
    match lt.prepareForPublishing with
    | (false, lt') => ([], lt', true)
    | (true, lt') =>
      let (published, lt'', refused) := lt'.publishAll rs
      (r :: published, lt'', refused)

/-- What a tracker lets through of `results`: the first `currentLimit` of them, or all. -/
def truncate {Q : Type _} (lt : LimitTracker) (results : List Q) : List Q :=
  if lt.hasLimit then results.take lt.currentLimit else results

/-- The tracker after `count` results were published through it. -/
def afterPublishing (lt : LimitTracker) (count : ℕ) : LimitTracker :=
  if lt.hasLimit then { lt with currentLimit := lt.currentLimit - count } else lt

/-- `lt` lets through no more than `lt'`: what a tracker becomes as results are published. -/
def Le (lt lt' : LimitTracker) : Prop :=
  lt.hasLimit = lt'.hasLimit ∧ lt.currentLimit ≤ lt'.currentLimit

variable {Q : Type _}

@[simp] theorem clone_eq (lt : LimitTracker) : lt.clone = lt := rfl

@[simp] theorem hasLimit_afterPublishing (lt : LimitTracker) (count : ℕ) :
    (lt.afterPublishing count).hasLimit = lt.hasLimit := by
  unfold afterPublishing
  split <;> rfl

@[simp] theorem afterPublishing_zero (lt : LimitTracker) : lt.afterPublishing 0 = lt := by
  unfold afterPublishing
  split <;> rfl

theorem afterPublishing_afterPublishing (lt : LimitTracker) (a b : ℕ) :
    (lt.afterPublishing a).afterPublishing b = lt.afterPublishing (a + b) := by
  rcases lt with ⟨_ | _, n⟩ <;> simp [afterPublishing, Nat.sub_sub]

theorem hasExhaustedLimit_afterPublishing (lt : LimitTracker) (count : ℕ) :
    (lt.afterPublishing count).hasExhaustedLimit = true ↔
      lt.hasLimit = true ∧ lt.currentLimit ≤ count := by
  rcases lt with ⟨_ | _, n⟩ <;> simp [afterPublishing, hasExhaustedLimit]
  omega

theorem prepareForPublishing_eq (lt : LimitTracker) :
    lt.prepareForPublishing =
      if lt.hasExhaustedLimit then (false, lt) else (true, lt.afterPublishing 1) := by
  rcases lt with ⟨_ | _, _ | _ | n⟩ <;> rfl

theorem markAlreadyPublished_eq (lt : LimitTracker) (count : ℕ) :
    lt.markAlreadyPublished count =
      if lt.hasLimit ∧ lt.currentLimit < count then
        .error (mustBugf ("given published count of " ++ toString count ++
          " exceeds the remaining limit of " ++ toString lt.currentLimit))
      else .ok (lt.afterPublishing count) := by
  unfold markAlreadyPublished afterPublishing
  cases lt.hasLimit <;> simp

theorem truncate_of_exhausted {lt : LimitTracker} (h : lt.hasExhaustedLimit = true)
    (results : List Q) : lt.truncate results = [] := by
  simp only [hasExhaustedLimit, Bool.and_eq_true, beq_iff_eq] at h
  simp [truncate, h.1, h.2]

theorem length_truncate_le (lt : LimitTracker) (results : List Q) :
    lt.hasLimit = true → (lt.truncate results).length ≤ lt.currentLimit := by
  intro h
  simp only [truncate, h, if_true, List.length_take]
  exact Nat.min_le_left _ _

theorem truncate_append (lt : LimitTracker) (xs ys : List Q) :
    lt.truncate (xs ++ ys) = lt.truncate xs ++ (lt.afterPublishing xs.length).truncate ys := by
  rcases lt with ⟨_ | _, n⟩ <;> simp [truncate, afterPublishing, List.take_append]

theorem truncate_cons_of_not_exhausted {lt : LimitTracker} (h : lt.hasExhaustedLimit = false)
    (r : Q) (rs : List Q) : lt.truncate (r :: rs) = r :: (lt.afterPublishing 1).truncate rs := by
  have happ := truncate_append lt [r] rs
  have hr : lt.truncate [r] = [r] := by
    rcases lt with ⟨_ | _, _ | n⟩
    · rfl
    · rfl
    · simp [hasExhaustedLimit] at h
    · simp [truncate]
  rwa [hr, List.length_singleton, List.singleton_append] at happ

/-- The loop over `prepareForPublishing` publishes what the tracker lets through, lowers it by
as much, and refuses a result exactly when there were more than the limit. -/
theorem publishAll_eq (lt : LimitTracker) (results : List Q) :
    lt.publishAll results =
      (lt.truncate results, lt.afterPublishing (lt.truncate results).length,
        lt.hasLimit && decide (lt.currentLimit < results.length)) := by
  induction results generalizing lt with
  | nil => simp [publishAll, truncate]
  | cons r rs ih =>
    cases hex : lt.hasExhaustedLimit
    · -- one result goes through, and the rest meet a tracker with one less
      rw [publishAll, prepareForPublishing_eq, if_neg (by simp [hex])]
      dsimp only
      rw [ih, truncate_cons_of_not_exhausted hex, afterPublishing_afterPublishing,
        List.length_cons, Nat.add_comm 1]
      rcases lt with ⟨_ | _, _ | n⟩ <;> simp_all [afterPublishing, hasExhaustedLimit]
    · rw [publishAll, prepareForPublishing_eq, if_pos hex, truncate_of_exhausted hex]
      simp only [hasExhaustedLimit, Bool.and_eq_true, beq_iff_eq] at hex
      simp [hex.1, hex.2]

theorem hasExhaustedLimit_publishAll {lt : LimitTracker} {results : List Q}
    (h : (lt.publishAll results).2.2 = true) : (lt.publishAll results).2.1.hasExhaustedLimit = true := by
  rw [publishAll_eq] at h ⊢
  simp only [Bool.and_eq_true, decide_eq_true_eq] at h
  rw [hasExhaustedLimit_afterPublishing]
  simp [truncate, h.1, Nat.min_eq_left h.2.le]

theorem Le.refl (lt : LimitTracker) : lt.Le lt := ⟨rfl, Nat.le_refl _⟩

theorem Le.trans {a b c : LimitTracker} (hab : a.Le b) (hbc : b.Le c) : a.Le c :=
  ⟨hab.1.trans hbc.1, Nat.le_trans hab.2 hbc.2⟩

theorem le_afterPublishing (lt : LimitTracker) (count : ℕ) : (lt.afterPublishing count).Le lt := by
  unfold afterPublishing
  split
  · exact ⟨rfl, Nat.sub_le _ _⟩
  · exact Le.refl lt

theorem hasExhaustedLimit_of_le {a b : LimitTracker} (h : a.Le b)
    (hb : b.hasExhaustedLimit = true) : a.hasExhaustedLimit = true := by
  simp only [hasExhaustedLimit, Bool.and_eq_true, beq_iff_eq] at hb ⊢
  exact ⟨h.1 ▸ hb.1, Nat.le_zero.1 (hb.2 ▸ h.2)⟩

theorem truncate_truncate_of_le {a b : LimitTracker} (h : a.Le b) (results : List Q) :
    a.truncate (b.truncate results) = a.truncate results := by
  unfold truncate
  rw [h.1]
  cases b.hasLimit
  · rfl
  · simp [List.take_take, Nat.min_eq_left h.2]

theorem truncate_eq_of_le {a b : LimitTracker} (h : a.Le b) {xs ys : List Q}
    (heq : b.truncate xs = b.truncate ys) : a.truncate xs = a.truncate ys := by
  rw [← truncate_truncate_of_le h xs, heq, truncate_truncate_of_le h]

theorem truncate_of_not_exhausted {lt : LimitTracker} {results : List Q}
    (h : (lt.afterPublishing (lt.truncate results).length).hasExhaustedLimit = false) :
    lt.truncate results = results := by
  rw [← Bool.not_eq_true, hasExhaustedLimit_afterPublishing] at h
  unfold truncate at h ⊢
  cases hl : lt.hasLimit
  · rfl
  · simp only [hl, true_and, if_true, List.length_take, not_le] at h ⊢
    exact List.take_of_length_le (by omega)

theorem truncate_eq_self {lt : LimitTracker} {results : List Q}
    (h : (lt.afterPublishing results.length).hasExhaustedLimit = false) :
    lt.truncate results = results := by
  rw [← Bool.not_eq_true, hasExhaustedLimit_afterPublishing] at h
  unfold truncate
  split
  · rename_i hl
    simp only [hl, true_and, not_le] at h
    exact List.take_of_length_le h.le
  · rfl

theorem truncate_eq_of_isPrefix {lt : LimitTracker} {xs ys : List Q} (hpre : xs <+: ys)
    (h : (lt.afterPublishing (lt.truncate xs).length).hasExhaustedLimit = true) :
    lt.truncate xs = lt.truncate ys := by
  rw [hasExhaustedLimit_afterPublishing] at h
  obtain ⟨zs, rfl⟩ := hpre
  unfold truncate at h ⊢
  simp only [h.1, if_true, List.length_take] at h ⊢
  rw [List.take_append_of_le_length (by omega)]

theorem hasExhaustedLimit_newLimitTracker (limit : ℕ) :
    (newLimitTracker limit).hasExhaustedLimit = false := by
  simp only [newLimitTracker, hasExhaustedLimit, Bool.and_eq_false_iff, decide_eq_false_iff_not,
    beq_eq_false_iff_ne]
  omega

theorem truncate_newLimitTracker (limit : ℕ) (results : List Q) :
    (newLimitTracker limit).truncate results =
      results.take (if limit = 0 then results.length else limit) := by
  unfold truncate newLimitTracker
  by_cases h : limit = 0 <;> simp [h, Nat.pos_iff_ne_zero]

end LimitTracker

end SpiceDB.Graph
