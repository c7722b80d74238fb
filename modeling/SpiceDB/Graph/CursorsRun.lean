import SpiceDB.Graph.Cursors

namespace SpiceDB.Graph

open LimitTracker ParallelLimitedIndexedStream

variable {Q : Type _}

theorem take_succ_flatten (rs : List (List Q)) {k : ℕ} (hk : k < rs.length) :
    (rs.take (k + 1)).flatten = (rs.take k).flatten ++ rs.getD k [] := by
  rw [List.take_add_one, List.flatten_append, List.getD_eq_getElem?_getD,
    List.getElem?_eq_getElem hk]
  simp

theorem parent_of_truncate_take (rs : List (List Q)) (lt0 : LimitTracker) {par : List Q} {k : ℕ}
    (hpar : par = lt0.truncate (rs.take k).flatten) :
    ((lt0.afterPublishing par.length).hasExhaustedLimit = true →
        par = lt0.truncate rs.flatten) ∧
      ((lt0.afterPublishing par.length).hasExhaustedLimit = false →
        par = (rs.take k).flatten) := by
  subst hpar
  have hpre : (rs.take k).flatten <+: rs.flatten :=
    ⟨(rs.drop k).flatten, by rw [← List.flatten_append, List.take_append_drop]⟩
  exact ⟨truncate_eq_of_isPrefix hpre, truncate_of_not_exhausted⟩

theorem ne_of_update_eq {α β : Type _} [DecidableEq α] {f : α → β} {i j : α} {p q : β}
    (h : Function.update f i p j = q) (hpq : p ≠ q) : j ≠ i := by
  rintro rfl
  exact hpq (by rwa [Function.update_self] at h)

theorem eq_of_update_eq {α β : Type _} [DecidableEq α] {f : α → β} {i j : α} {p q : β}
    (h : Function.update f i p j = q) (hpq : p ≠ q) : f j = q := by
  rwa [Function.update_of_ne (ne_of_update_eq h hpq)] at h

theorem ne_of_completed {f : ℕ → Bool} {i j : ℕ} (hj : f j = true) (hi : f i = false) : j ≠ i := by
  rintro rfl
  rw [hi] at hj
  cases hj

namespace TaskRun

/-- The results of task `j` are held: its handler has published them, and it may have
completed. -/
def Holds (s : TaskRun Q) (j : ℕ) : Prop :=
  s.phases j = .ran ∨ s.stream.completedTaskIndexes j = true

theorem Holds.ne {s : TaskRun Q} {i j : ℕ} (hj : s.Holds j) (hp : s.phases i ≠ .ran)
    (hdone : s.stream.completedTaskIndexes i = false) : j ≠ i := by
  rintro rfl
  rcases hj with hj | hj
  · exact hp hj
  · exact ne_of_completed hj hdone rfl

section Invariant

variable (rs : List (List Q)) (lt0 : LimitTracker)

/-- What the tasks and their stream keep at every event and at every turn of the publishing
loop, when task `j`'s handler publishes what its limits let through of `rs[j]` and the cursor's
limits start at `lt0`. -/
structure Consistent (s : TaskRun Q) : Prop where
  streamCount_eq : s.stream.streamCount = rs.length
  err_eq : s.err = none
  hasLimit_eq : s.stream.limits.hasLimit = lt0.hasLimit
  pending_of_le : ∀ j, rs.length ≤ j → s.phases j = .pending
  finished_of_completed : ∀ j, s.stream.completedTaskIndexes j = true → s.phases j = .finished
  completed_of_lt : ∀ j < s.stream.toPublishTaskIndex, s.stream.completedTaskIndexes j = true
  toPublishTaskIndex_le : s.stream.toPublishTaskIndex ≤ rs.length
  /-- a task's limits were cloned from the cursor's, and the first task's before they changed -/
  opened_le : ∀ j l, s.phases j = .opened l → s.stream.limits.Le l ∧ (j = 0 → l = lt0)
  opened_childStreams : ∀ j l, 0 < j → s.phases j = .opened l → s.stream.childStreams j = []
  held_childStreams : ∀ j, s.stream.toPublishTaskIndex ≤ j → 0 < j → s.Holds j →
    s.stream.limits.truncate (s.stream.childStreams j) = s.stream.limits.truncate (rs.getD j [])
  /-- before the first task's results are counted -/
  first : s.stream.toPublishTaskIndex = 0 → s.stream.limits = lt0 ∧
    s.stream.publishedCount = s.stream.parentStream.length ∧
    (s.Holds 0 → s.stream.parentStream = lt0.truncate (rs.getD 0 [])) ∧
    (¬s.Holds 0 → s.stream.parentStream = [])
  /-- after -/
  published : 0 < s.stream.toPublishTaskIndex →
    s.stream.limits = lt0.afterPublishing s.stream.parentStream.length ∧
    (s.stream.limits.hasExhaustedLimit = false →
      s.stream.parentStream = (rs.take s.stream.toPublishTaskIndex).flatten)
  exhausted : s.stream.limits.hasExhaustedLimit = true →
    s.stream.parentStream = lt0.truncate rs.flatten
  canceled_exhausted : ∀ j, s.stream.canceledContexts j = true →
    s.stream.limits.hasExhaustedLimit = true
  finished_exhausted : ∀ j, s.phases j = .finished →
    s.stream.completedTaskIndexes j = true ∨ s.stream.limits.hasExhaustedLimit = true

/-- What the tasks and their stream keep between events: the publishing loop has gone as far
as the completed tasks allow. -/
structure Inv (s : TaskRun Q) : Prop extends Consistent rs lt0 s where
  advanced : s.stream.limits.hasExhaustedLimit = false →
    s.stream.toPublishTaskIndex < rs.length →
    s.stream.completedTaskIndexes s.stream.toPublishTaskIndex = false

variable {rs lt0}

theorem Consistent.lt_of_completed {s : TaskRun Q} (h : Consistent rs lt0 s) {j : ℕ}
    (hj : s.stream.completedTaskIndexes j = true) : j < rs.length := by
  by_contra hle
  have hpend := h.pending_of_le j (Nat.le_of_not_lt hle)
  rw [h.finished_of_completed j hj] at hpend
  cases hpend

theorem Consistent.lt_of_ne_pending {s : TaskRun Q} (h : Consistent rs lt0 s) {j : ℕ}
    (hj : s.phases j ≠ .pending) : j < rs.length := by
  by_contra hle
  exact hj (h.pending_of_le j (Nat.le_of_not_lt hle))

theorem Consistent.not_completed {s : TaskRun Q} (h : Consistent rs lt0 s) {j : ℕ}
    (hj : s.phases j ≠ .finished) : s.stream.completedTaskIndexes j = false := by
  by_contra hc
  exact hj (h.finished_of_completed j (by simpa using hc))

theorem Consistent.toPublishTaskIndex_eq_zero {s : TaskRun Q} (h : Consistent rs lt0 s)
    (h0 : s.phases 0 ≠ .finished) : s.stream.toPublishTaskIndex = 0 := by
  by_contra hne
  have := h.completed_of_lt 0 (Nat.pos_of_ne_zero hne)
  rw [h.not_completed h0] at this
  cases this

theorem inv_init {stream : ParallelLimitedIndexedStream Q}
    (hstream : newParallelLimitedIndexedStream lt0 rs.length = .ok stream) :
    Inv rs lt0 (init stream) := by
  unfold newParallelLimitedIndexedStream at hstream
  split at hstream
  · cases hstream
  · cases hstream
    refine
      { streamCount_eq := rfl, err_eq := rfl, hasLimit_eq := rfl,
        pending_of_le := fun _ _ => rfl, finished_of_completed := fun _ h => (by cases h),
        completed_of_lt := fun _ h => (by cases h), toPublishTaskIndex_le := Nat.zero_le _,
        opened_le := fun _ _ h => (by cases h),
        opened_childStreams := fun _ _ _ h => (by cases h),
        held_childStreams := ?_, first := ?_, published := fun h => (by cases h),
        exhausted := fun h => (truncate_of_exhausted h _).symm,
        canceled_exhausted := fun _ h => (by cases h),
        finished_exhausted := fun _ h => (by cases h), advanced := fun _ _ => rfl }
    · rintro j - - (h | h) <;> cases h
    · intro _
      refine ⟨rfl, rfl, ?_, fun _ => rfl⟩
      rintro (h | h) <;> cases h

/-- A task that goes on to `checked`, or finishes once the limits are exhausted, without having
completed, keeps the invariant. -/
theorem Inv.setPhase {s : TaskRun Q} (h : Inv rs lt0 s) {i : ℕ} {p : TaskPhase}
    (hi : i < rs.length) (hdone : s.stream.completedTaskIndexes i = false)
    (hp : p = .checked ∨ (p = .finished ∧ s.stream.limits.hasExhaustedLimit = true))
    (hran : s.phases i = .ran → s.stream.limits.hasExhaustedLimit = true) :
    Inv rs lt0 { s with phases := Function.update s.phases i p } := by
  have hnotran : p ≠ .ran := by rcases hp with rfl | ⟨rfl, -⟩ <;> simp
  have hnotopened : ∀ l, p ≠ .opened l := by rcases hp with rfl | ⟨rfl, -⟩ <;> simp
  -- no task becomes held, and the only one that stops being held is `i`, once exhausted
  have hholds : ∀ j, Holds { s with phases := Function.update s.phases i p } j → s.Holds j := by
    rintro j (hj | hj)
    · exact Or.inl (eq_of_update_eq hj hnotran)
    · exact Or.inr hj
  have hholds' : ∀ j, s.Holds j → Holds { s with phases := Function.update s.phases i p } j ∨
      s.stream.limits.hasExhaustedLimit = true := by
    rintro j (hj | hj)
    · by_cases hji : j = i
      · subst hji
        exact Or.inr (hran hj)
      · exact Or.inl (Or.inl (by simpa [Function.update_of_ne hji] using hj))
    · exact Or.inl (Or.inr hj)
  refine { h with
    pending_of_le := fun j hj => ?_, finished_of_completed := fun j hj => ?_,
    opened_le := fun j l hj => ?_, opened_childStreams := fun j l hj0 hj => ?_,
    held_childStreams := fun j hP hj0 hj => h.held_childStreams j hP hj0 (hholds j hj),
    first := fun hP => ?_, finished_exhausted := fun j hj => ?_ }
  · simp only [Function.update_of_ne (show j ≠ i by omega)]
    exact h.pending_of_le j hj
  · simp only [Function.update_of_ne (ne_of_completed hj hdone)]
    exact h.finished_of_completed j hj
  · exact h.opened_le j l (eq_of_update_eq hj (hnotopened l))
  · exact h.opened_childStreams j l hj0 (eq_of_update_eq hj (hnotopened l))
  · obtain ⟨hl, hc, h1, h2⟩ := h.first hP
    refine ⟨hl, hc, fun hh => h1 (hholds 0 hh), fun hh => ?_⟩
    by_cases h0 : s.Holds 0
    · -- the first task stopped being held: the limits, still the initial ones, are exhausted
      rcases hholds' 0 h0 with h0' | hex
      · exact absurd h0' hh
      · rw [h1 h0, truncate_of_exhausted (hl ▸ hex)]
    · exact h2 h0
  · by_cases hji : j = i
    · subst hji
      simp only [Function.update_self] at hj
      rcases hp with rfl | ⟨-, hex⟩
      · cases hj
      · exact Or.inr hex
    · simp only [Function.update_of_ne hji] at hj
      exact h.finished_exhausted j hj

/-- `forTaskIndex` gives a checked task the cursor's limits and a new stream. -/
theorem Inv.forTask {s : TaskRun Q} (h : Inv rs lt0 s) {i : ℕ} (hp : s.phases i = .checked) :
    Inv rs lt0 { s with stream := (s.stream.forTaskIndex i).1,
                        phases := Function.update s.phases i (.opened s.stream.limits) } := by
  have hi : i < rs.length := h.lt_of_ne_pending (by simp [hp])
  have hdone : s.stream.completedTaskIndexes i = false := h.not_completed (by simp [hp])
  -- the task `i` was not held, and is not: the held tasks stay the same
  have hholds : ∀ j, Holds
      { s with stream := (s.stream.forTaskIndex i).1,
               phases := Function.update s.phases i (.opened s.stream.limits) } j ↔ s.Holds j := by
    intro j
    by_cases hji : j = i
    · subst hji
      simp [Holds, hp, hdone]
    · simp [Holds, hji]
  refine
    { streamCount_eq := by simpa using h.streamCount_eq, err_eq := h.err_eq,
      hasLimit_eq := by simpa using h.hasLimit_eq,
      pending_of_le := fun j hj => ?_, finished_of_completed := fun j hj => ?_,
      completed_of_lt := by simpa using h.completed_of_lt,
      toPublishTaskIndex_le := by simpa using h.toPublishTaskIndex_le,
      opened_le := fun j l hj => ?_, opened_childStreams := fun j l hj0 hj => ?_,
      held_childStreams := fun j hP hj0 hj => ?_, first := fun hP => ?_,
      published := by simpa using h.published, exhausted := by simpa using h.exhausted,
      canceled_exhausted := by simpa using h.canceled_exhausted,
      finished_exhausted := fun j hj => ?_, advanced := by simpa using h.advanced }
  · simp only [Function.update_of_ne (show j ≠ i by omega)]
    exact h.pending_of_le j hj
  · simp only [completedTaskIndexes_forTaskIndex] at hj
    simp only [Function.update_of_ne (ne_of_completed hj hdone)]
    exact h.finished_of_completed j hj
  · by_cases hji : j = i
    · subst hji
      simp only [Function.update_self, TaskPhase.opened.injEq] at hj
      subst hj
      refine ⟨by simpa using Le.refl _, fun hj0 => ?_⟩
      -- the first task is not finished, so the cursor's limits are still the initial ones
      subst hj0
      exact (h.first (h.toPublishTaskIndex_eq_zero (by simp [hp]))).1
    · simp only [Function.update_of_ne hji] at hj
      simpa using h.opened_le j l hj
  · by_cases hji : j = i
    · subst hji
      exact childStreams_forTaskIndex_self _ _ (Nat.pos_iff_ne_zero.1 hj0)
    · simp only [Function.update_of_ne hji] at hj
      rw [childStreams_forTaskIndex_of_ne _ _ hji]
      exact h.opened_childStreams j l hj0 hj
  · have hji := ((hholds j).1 hj).ne (by simp [hp]) hdone
    simp only [limits_forTaskIndex]
    rw [childStreams_forTaskIndex_of_ne _ _ hji]
    exact h.held_childStreams j (by simpa using hP) hj0 ((hholds j).1 hj)
  · simp only [toPublishTaskIndex_forTaskIndex] at hP
    obtain ⟨hl, hc, h1, h2⟩ := h.first hP
    refine ⟨by simpa using hl, ?_, fun hh => by simpa using h1 ((hholds 0).1 hh),
      fun hh => by simpa using h2 (fun h0 => hh ((hholds 0).2 h0))⟩
    rw [publishedCount_forTaskIndex, parentStream_forTaskIndex]
    split
    · -- the first task gets a new counting stream, and has streamed nothing yet
      rename_i hi0
      subst hi0
      rw [h2 (fun h0 => by rcases h0 with h0 | h0 <;> simp_all)]
      rfl
    · exact hc
  · by_cases hji : j = i
    · subst hji
      simp at hj
    · simp only [Function.update_of_ne hji] at hj
      simpa using h.finished_exhausted j hj

/-- A handler publishes `out`, which its limits truncate as its task's results: the first task
to the parent, and then no more than its limits let through, every other one into its
collecting stream. -/
theorem Inv.handle {s : TaskRun Q} (h : Inv rs lt0 s) {i : ℕ} {l : LimitTracker}
    (hp : s.phases i = .opened l) {out : List Q} (hout : l.truncate out = l.truncate (rs.getD i []))
    (hfits : i = 0 → l.truncate out = out) :
    Inv rs lt0
      { s with stream := s.stream.publishToTask i out,
               phases := Function.update s.phases i .ran } := by
  have hi : i < rs.length := h.lt_of_ne_pending (by simp [hp])
  have hdone : s.stream.completedTaskIndexes i = false := h.not_completed (by simp [hp])
  obtain ⟨hle, hl0⟩ := h.opened_le i l hp
  -- the task `i` becomes held, and no other changes
  have hholds : ∀ j, Holds
      { s with stream := s.stream.publishToTask i out,
               phases := Function.update s.phases i .ran } j ↔ j = i ∨ s.Holds j := by
    intro j
    by_cases hji : j = i
    · subst hji
      simp [Holds]
    · simp [Holds, hji]
  -- the first task streams to the parent only while its results are not counted
  have hfirst : i = 0 → s.stream.toPublishTaskIndex = 0 := by
    rintro rfl
    exact h.toPublishTaskIndex_eq_zero (by simp [hp])
  have hnot0 : i = 0 → ¬s.Holds 0 := by
    rintro rfl (h0 | h0)
    · rw [hp] at h0
      cases h0
    · rw [hdone] at h0
      cases h0
  refine
    { streamCount_eq := by simpa using h.streamCount_eq, err_eq := h.err_eq,
      hasLimit_eq := by simpa using h.hasLimit_eq,
      pending_of_le := fun j hj => ?_, finished_of_completed := fun j hj => ?_,
      completed_of_lt := by simpa using h.completed_of_lt,
      toPublishTaskIndex_le := by simpa using h.toPublishTaskIndex_le,
      opened_le := fun j l' hj => ?_, opened_childStreams := fun j l' hj0 hj => ?_,
      held_childStreams := fun j hP hj0 hj => ?_, first := fun hP => ?_,
      published := fun hP => ?_, exhausted := fun hex => ?_,
      canceled_exhausted := by simpa using h.canceled_exhausted,
      finished_exhausted := fun j hj => ?_, advanced := by simpa using h.advanced }
  · simp only [Function.update_of_ne (show j ≠ i by omega)]
    exact h.pending_of_le j hj
  · simp only [completedTaskIndexes_publishToTask] at hj
    simp only [Function.update_of_ne (ne_of_completed hj hdone)]
    exact h.finished_of_completed j hj
  · simpa using h.opened_le j l' (eq_of_update_eq hj (by simp))
  · rw [childStreams_publishToTask_of_ne _ _ _ (ne_of_update_eq hj (by simp))]
    exact h.opened_childStreams j l' hj0 (eq_of_update_eq hj (by simp))
  · simp only [limits_publishToTask]
    rcases (hholds j).1 hj with rfl | hjs
    · -- the collected results agree with the task's under its own limits, above the cursor's
      rw [childStreams_publishToTask_self _ _ _ (Nat.pos_iff_ne_zero.1 hj0),
        h.opened_childStreams j l hj0 hp, List.nil_append]
      exact truncate_eq_of_le hle hout
    · rw [childStreams_publishToTask_of_ne _ _ _ (hjs.ne (by simp [hp]) hdone)]
      exact h.held_childStreams j (by simpa using hP) hj0 hjs
  · simp only [toPublishTaskIndex_publishToTask] at hP
    obtain ⟨hl, hc, h1, h2⟩ := h.first hP
    rw [limits_publishToTask, publishedCount_publishToTask, parentStream_publishToTask]
    by_cases hi0 : i = 0
    · subst hi0
      have hpar := h2 (hnot0 rfl)
      refine ⟨hl, ?_, fun _ => ?_, fun hh => absurd ((hholds 0).2 (Or.inl rfl)) hh⟩
      · simp [hc, hpar]
      · rw [hpar, List.nil_append, ← hfits rfl, hout, hl0 rfl, if_pos rfl]
    · simp only [if_neg hi0]
      refine ⟨hl, hc, fun hh => h1 ?_, fun hh => h2 fun h0 => hh ((hholds 0).2 (Or.inr h0))⟩
      rcases (hholds 0).1 hh with h0 | h0
      · exact absurd h0.symm hi0
      · exact h0
  · have hi0 : i ≠ 0 := by
      rintro rfl
      rw [toPublishTaskIndex_publishToTask, hfirst rfl] at hP
      cases hP
    simpa [parentStream_publishToTask, hi0] using h.published (by simpa using hP)
  · rw [parentStream_publishToTask]
    simp only [limits_publishToTask] at hex
    split
    · -- the first task streamed while the limits were the initial ones, which let nothing through
      rename_i hi0
      subst hi0
      obtain ⟨hl, -, -, h2⟩ := h.first (hfirst rfl)
      rw [h2 (hnot0 rfl), List.nil_append, ← hfits rfl, hl0 rfl, truncate_of_exhausted (hl ▸ hex),
        truncate_of_exhausted (hl ▸ hex)]
    · exact h.exhausted hex
  · simpa using h.finished_exhausted j (eq_of_update_eq hj (by simp))

theorem Consistent.cancel {s : TaskRun Q} (h : Consistent rs lt0 s)
    (hex : s.stream.limits.hasExhaustedLimit = true) :
    Consistent rs lt0 { s with stream := s.stream.cancelRemainingDispatches } :=
  { h with canceled_exhausted := fun _ _ => hex }

/-- A task whose handler has published its results is marked completed and finished. -/
theorem Inv.markCompleted {s : TaskRun Q} (h : Inv rs lt0 s) {i : ℕ} (hp : s.phases i = .ran) :
    Consistent rs lt0
      { stream := { s.stream with
                    completedTaskIndexes := Function.update s.stream.completedTaskIndexes i true },
        phases := Function.update s.phases i .finished, err := s.err } := by
  have hi : i < rs.length := h.lt_of_ne_pending (by simp [hp])
  -- the task `i` was held as ran and is held as completed
  have hholds : ∀ j, Holds
      { stream := { s.stream with
                    completedTaskIndexes := Function.update s.stream.completedTaskIndexes i true },
        phases := Function.update s.phases i .finished, err := s.err } j ↔ s.Holds j := by
    intro j
    by_cases hji : j = i
    · subst hji
      simp [Holds, hp]
    · simp [Holds, hji]
  refine { h.toConsistent with
    pending_of_le := fun j hj => ?_, finished_of_completed := fun j hj => ?_,
    completed_of_lt := fun j hj => ?_, opened_le := fun j l hj => ?_,
    opened_childStreams := fun j l hj0 hj => ?_,
    held_childStreams := fun j hP hj0 hj => h.held_childStreams j hP hj0 ((hholds j).1 hj),
    first := fun hP => ?_, finished_exhausted := fun j hj => ?_ }
  · simp only [Function.update_of_ne (show j ≠ i by omega)]
    exact h.pending_of_le j hj
  · by_cases hji : j = i
    · subst hji
      simp
    · simp only [Function.update_of_ne hji] at hj ⊢
      exact h.finished_of_completed j hj
  · by_cases hji : j = i
    · subst hji
      simp
    · simp only [Function.update_of_ne hji]
      exact h.completed_of_lt j hj
  · exact h.opened_le j l (eq_of_update_eq hj (by simp))
  · exact h.opened_childStreams j l hj0 (eq_of_update_eq hj (by simp))
  · obtain ⟨hl, hc, h1, h2⟩ := h.first hP
    exact ⟨hl, hc, fun hh => h1 ((hholds 0).1 hh), fun hh => h2 fun h0 => hh ((hholds 0).2 h0)⟩
  · by_cases hji : j = i
    · subst hji
      simp
    · simp only [Function.update_of_ne hji] at hj ⊢
      exact h.finished_exhausted j hj

/-- The loop's turn at the first task, once it completed: its count is within the limits, which
were the initial ones, and the parent then holds what they let through of the first task's
results. -/
theorem Consistent.publishFirst {s : TaskRun Q} (h : Consistent rs lt0 s)
    (hP : s.stream.toPublishTaskIndex = 0)
    (hc : s.stream.completedTaskIndexes s.stream.toPublishTaskIndex = true) :
    ∃ ls', s.stream.publishFirst = .ok ls' ∧ ls'.toPublishTaskIndex = 0 ∧
      Consistent rs lt0 { s with stream := { ls' with toPublishTaskIndex := 1 } } := by
  rw [hP] at hc
  obtain ⟨hl, hcount, h1, -⟩ := h.first hP
  have hpar := h1 (Or.inr hc)
  have hn : 0 < rs.length := h.lt_of_completed hc
  have hle : (lt0.afterPublishing s.stream.parentStream.length).Le lt0 := le_afterPublishing _ _
  -- the first task's results are those of the tasks before 1
  have hpar1 : s.stream.parentStream = lt0.truncate (rs.take 1).flatten := by
    rw [take_succ_flatten rs hn, List.take_zero, List.flatten_nil, List.nil_append, hpar]
  obtain ⟨hex1, hnex1⟩ := parent_of_truncate_take rs lt0 hpar1
  rw [publishFirst_eq_ok _ (fun hlim => hcount ▸ hpar ▸ hl ▸ length_truncate_le _ _ (hl ▸ hlim))]
  -- the limits after the turn: the initial ones less what the parent holds
  have hlim : s.stream.limits.afterPublishing s.stream.publishedCount =
      lt0.afterPublishing s.stream.parentStream.length := by
    rw [hl, hcount]
  -- the stream after the turn, before the dispatches are canceled
  have h' : Consistent rs lt0
      { s with stream := { s.stream with
                           limits := s.stream.limits.afterPublishing s.stream.publishedCount,
                           toPublishTaskIndex := 1 } } := by
    refine { h with
      hasLimit_eq := by simpa using h.hasLimit_eq, completed_of_lt := fun j hj => ?_,
      toPublishTaskIndex_le := hn, opened_le := fun j l hj => ?_,
      held_childStreams := fun j _ hj0 hj => ?_,
      first := fun h10 => absurd h10 Nat.one_ne_zero, published := fun _ => ⟨hlim, ?_⟩,
      exhausted := ?_,
      canceled_exhausted := fun j hj => ?_, finished_exhausted := fun j hj => ?_ }
    · rw [Nat.lt_one_iff.1 hj]
      exact hc
    · obtain ⟨hjl, hj0⟩ := h.opened_le j l hj
      exact ⟨hlim ▸ hle.trans (hl ▸ hjl), hj0⟩
    · exact hlim ▸ truncate_eq_of_le hle (hl ▸ h.held_childStreams j (hP ▸ Nat.zero_le j) hj0 hj)
    · exact hlim ▸ hnex1
    · exact hlim ▸ hex1
    · exact hlim ▸ hasExhaustedLimit_of_le hle (hl ▸ h.canceled_exhausted j hj)
    · rcases h.finished_exhausted j hj with hj | hj
      · exact Or.inl hj
      · exact Or.inr (hlim ▸ hasExhaustedLimit_of_le hle (hl ▸ hj))
  split
  · rename_i hex
    exact ⟨_, rfl, hP, h'.cancel hex⟩
  · exact ⟨_, rfl, hP, h'⟩

/-- The loop's turn at a later completed task: the limits go down by what the parent gains,
and the parent then holds what the initial limits let through of the results of the tasks up
to this one, which is all of them until the limits are exhausted. -/
theorem Consistent.publishChild_parent {s : TaskRun Q} (h : Consistent rs lt0 s)
    (hP : 0 < s.stream.toPublishTaskIndex)
    (hc : s.stream.completedTaskIndexes s.stream.toPublishTaskIndex = true) :
    s.stream.publishChild.1.limits = lt0.afterPublishing s.stream.publishChild.1.parentStream.length ∧
      (s.stream.publishChild.1.limits.hasExhaustedLimit = true →
        s.stream.publishChild.1.parentStream = lt0.truncate rs.flatten) ∧
      (s.stream.publishChild.1.limits.hasExhaustedLimit = false →
        s.stream.publishChild.1.parentStream = (rs.take (s.stream.toPublishTaskIndex + 1)).flatten) := by
  obtain ⟨hlim, hnex⟩ := h.published hP
  rw [publishChild_eq]
  dsimp only
  cases hex : s.stream.limits.hasExhaustedLimit
  · -- the parent gains what the limits let through of the task's results
    rw [h.held_childStreams _ le_rfl hP (Or.inr hc)]
    have hpar := hnex hex
    have hpar' : s.stream.parentStream ++ s.stream.limits.truncate (rs.getD s.stream.toPublishTaskIndex []) =
        lt0.truncate (rs.take (s.stream.toPublishTaskIndex + 1)).flatten := by
      have hfirst : lt0.truncate (rs.take s.stream.toPublishTaskIndex).flatten =
          (rs.take s.stream.toPublishTaskIndex).flatten :=
        truncate_eq_self (by rw [← hpar, ← hlim]; exact hex)
      rw [take_succ_flatten rs (h.lt_of_completed hc), truncate_append, hfirst, ← hpar, ← hlim]
    have hlim' : s.stream.limits.afterPublishing
        (s.stream.limits.truncate (rs.getD s.stream.toPublishTaskIndex [])).length =
        lt0.afterPublishing (s.stream.parentStream ++
          s.stream.limits.truncate (rs.getD s.stream.toPublishTaskIndex [])).length := by
      rw [hlim, afterPublishing_afterPublishing, List.length_append]
    rw [hlim']
    exact ⟨rfl, parent_of_truncate_take rs lt0 hpar'⟩
  · -- the limits let nothing more through
    rw [truncate_of_exhausted hex, List.append_nil, List.length_nil, afterPublishing_zero]
    exact ⟨hlim, h.exhausted, fun hnex' => absurd hex (by simp [hnex'])⟩

/-- A later task's turn that a refusal ends leaves the limits exhausted, and the loop stops
there. -/
theorem Consistent.publishChild_refused {s : TaskRun Q} (h : Consistent rs lt0 s)
    (hP : 0 < s.stream.toPublishTaskIndex)
    (hc : s.stream.completedTaskIndexes s.stream.toPublishTaskIndex = true)
    (hr : s.stream.publishChild.2 = true) :
    Inv rs lt0 { s with stream := s.stream.publishChild.1.cancelRemainingDispatches } := by
  have hex := hasExhaustedLimit_publishChild _ hr
  have hle := limits_publishChild_le s.stream
  obtain ⟨hlim, hpar, -⟩ := h.publishChild_parent hP hc
  have h' : Consistent rs lt0 { s with stream := s.stream.publishChild.1 } := by
    refine { h with
      streamCount_eq := by simpa using h.streamCount_eq,
      hasLimit_eq := hle.1.trans h.hasLimit_eq, completed_of_lt := by simpa using h.completed_of_lt,
      toPublishTaskIndex_le := by simpa using h.toPublishTaskIndex_le,
      opened_le := fun j l hj => ?_, opened_childStreams := by simpa using h.opened_childStreams,
      held_childStreams := fun j _ _ _ => by rw [truncate_of_exhausted hex, truncate_of_exhausted hex],
      first := fun hP0 => absurd hP (by simpa using hP0.le),
      published := fun _ => ⟨hlim, fun hnex => absurd hex (by rw [Bool.not_eq_true]; exact hnex)⟩,
      exhausted := hpar, canceled_exhausted := fun _ _ => hex,
      finished_exhausted := fun _ _ => Or.inr hex }
    obtain ⟨hjl, hj0⟩ := h.opened_le j l hj
    exact ⟨hle.trans hjl, hj0⟩
  exact { h'.cancel hex with advanced := fun hnex => absurd hex (by rw [Bool.not_eq_true]; exact hnex) }

/-- A later task's turn that publishes all its collected results moves the loop on to the next
task. -/
theorem Consistent.publishChild_advance {s : TaskRun Q} (h : Consistent rs lt0 s)
    (hP : 0 < s.stream.toPublishTaskIndex)
    (hc : s.stream.completedTaskIndexes s.stream.toPublishTaskIndex = true) :
    Consistent rs lt0
      { s with stream := { s.stream.publishChild.1 with
          childStreams := Function.update s.stream.publishChild.1.childStreams
            s.stream.publishChild.1.toPublishTaskIndex [],
          toPublishTaskIndex := s.stream.publishChild.1.toPublishTaskIndex + 1 } } := by
  have hle := limits_publishChild_le s.stream
  have hn := h.lt_of_completed hc
  obtain ⟨hlim, hpar, hnpar⟩ := h.publishChild_parent hP hc
  refine { h with
    streamCount_eq := by simpa using h.streamCount_eq, hasLimit_eq := hle.1.trans h.hasLimit_eq,
    completed_of_lt := fun j hj => ?_, toPublishTaskIndex_le := hn,
    opened_le := fun j l hj => ?_, opened_childStreams := fun j l hj0 hj => ?_,
    held_childStreams := fun j hPj hj0 hj => ?_, first := fun hP0 => by simp at hP0,
    published := fun _ => ⟨hlim, by simpa using hnpar⟩, exhausted := hpar,
    canceled_exhausted := fun j hj => hasExhaustedLimit_of_le hle (h.canceled_exhausted j hj),
    finished_exhausted := fun j hj => ?_ }
  · simp only [toPublishTaskIndex_publishChild, completedTaskIndexes_publishChild] at hj ⊢
    rcases Nat.lt_succ_iff_lt_or_eq.1 hj with hj | rfl
    · exact h.completed_of_lt j hj
    · exact hc
  · obtain ⟨hjl, hj0⟩ := h.opened_le j l hj
    exact ⟨hle.trans hjl, hj0⟩
  · -- an opened task is not the completed one just published
    have hji : j ≠ s.stream.toPublishTaskIndex := by
      rintro rfl
      rw [h.finished_of_completed _ hc] at hj
      cases hj
    simp only [toPublishTaskIndex_publishChild, childStreams_publishChild,
      Function.update_of_ne hji]
    exact h.opened_childStreams j l hj0 hj
  · simp only [toPublishTaskIndex_publishChild] at hPj
    simp only [toPublishTaskIndex_publishChild, childStreams_publishChild,
      Function.update_of_ne (show j ≠ s.stream.toPublishTaskIndex by omega)]
    exact truncate_eq_of_le hle (h.held_childStreams j (by omega) hj0 hj)
  · rcases h.finished_exhausted j hj with hj | hj
    · exact Or.inl hj
    · exact Or.inr (hasExhaustedLimit_of_le hle hj)

/-- The loop of `completedTaskIndex`, given a turn for every task from `toPublishTaskIndex` on,
returns no error and goes as far as the completed tasks allow. The induction is on the turns
left, and each turn keeps `Consistent`. -/
theorem Consistent.publishCompleted :
    ∀ (fuel : ℕ) (s : TaskRun Q), Consistent rs lt0 s →
      rs.length - s.stream.toPublishTaskIndex < fuel →
      (s.stream.publishCompleted fuel).2 = none ∧
        Inv rs lt0 { s with stream := (s.stream.publishCompleted fuel).1 }
  | 0, _, _, hfuel => absurd hfuel (Nat.not_lt_zero _)
  | fuel + 1, s, h, hfuel => by
    unfold ParallelLimitedIndexedStream.publishCompleted
    cases hc : s.stream.completedTaskIndexes s.stream.toPublishTaskIndex
    · -- the loop stops at the first task that has not completed
      exact ⟨rfl, { h with advanced := fun _ _ => hc }⟩
    · simp only [Bool.not_true, Bool.false_eq_true, if_false]
      by_cases hP : s.stream.toPublishTaskIndex = 0
      · obtain ⟨ls', hfirst, hP', h'⟩ := h.publishFirst hP (by rw [hc])
        have hn := h.lt_of_completed hc
        have hfuel' : rs.length - 1 < fuel := by omega
        rw [if_pos hP, hfirst]
        dsimp only
        rw [hP']
        exact Consistent.publishCompleted fuel _ h' hfuel'
      · have hP0 : 0 < s.stream.toPublishTaskIndex := Nat.pos_of_ne_zero hP
        have hn := h.lt_of_completed hc
        rw [if_neg hP]
        cases hr : s.stream.publishChild.2
        · rw [show s.stream.publishChild = (s.stream.publishChild.1, false) by rw [← hr]]
          dsimp only
          have hfuel' : rs.length - (s.stream.toPublishTaskIndex + 1) < fuel := by omega
          exact Consistent.publishCompleted fuel _ (h.publishChild_advance hP0 hc) hfuel'
        · rw [show s.stream.publishChild = (s.stream.publishChild.1, true) by rw [← hr]]
          exact ⟨rfl, h.publishChild_refused hP0 hc hr⟩

/-- `completedTaskIndex` keeps the invariant and returns no error. -/
theorem Inv.complete {s : TaskRun Q} (h : Inv rs lt0 s) {i : ℕ} (hp : s.phases i = .ran) :
    Inv rs lt0
      { stream := (s.stream.completedTaskIndex i).1,
        phases := Function.update s.phases i .finished,
        err := s.err <|> (s.stream.completedTaskIndex i).2 } := by
  have h' := h.markCompleted hp
  unfold completedTaskIndex
  dsimp only
  split
  · rename_i hex
    exact { h'.cancel hex with
      err_eq := by simp [h.err_eq],
      advanced := fun hnex => absurd hex (by rw [Bool.not_eq_true]; exact hnex) }
  · have hfuel : rs.length - s.stream.toPublishTaskIndex < s.stream.streamCount + 1 := by
      rw [h.streamCount_eq]
      omega
    obtain ⟨herr, hinv⟩ := Consistent.publishCompleted _ _ h' hfuel
    exact { hinv with err_eq := by simp [h.err_eq, herr] }

/-- Every event keeps the invariant, when what each handler publishes is truncated by its
limits as its task's results, and the first task publishes no more than the initial limits let
through. -/
theorem Inv.step {task : ℕ → LimitTracker → List Q}
    (htask : ∀ i (l : LimitTracker), l.truncate (task i l) = l.truncate (rs.getD i []))
    (hfirst : lt0.truncate (task 0 lt0) = task 0 lt0) {s s' : TaskRun Q} (h : Inv rs lt0 s)
    {e : TaskEvent} (hs : s.step task e = some s') : Inv rs lt0 s' := by
  cases e with
  | start i =>
    obtain ⟨hi, hp, rfl⟩ := step_start.1 hs
    refine h.setPhase (h.streamCount_eq ▸ hi) (h.not_completed (by simp [hp])) ?_ (by simp [hp])
    split
    · exact Or.inr ⟨rfl, ‹_›⟩
    · exact Or.inl rfl
  | forTask i =>
    obtain ⟨hp, rfl⟩ := step_forTask.1 hs
    exact h.forTask hp
  | handle i =>
    obtain ⟨l, hp, rfl⟩ := step_handle.1 hs
    -- the first task was given the initial limits
    refine h.handle hp (htask i l) fun hi0 => ?_
    subst hi0
    rw [(h.opened_le 0 l hp).2 rfl]
    exact hfirst
  | complete i =>
    obtain ⟨hp, rfl⟩ := step_complete.1 hs
    exact h.complete hp
  | cancel i =>
    obtain ⟨hp, hc, rfl⟩ := step_cancel.1 hs
    -- the runner has kept no error, so this stream canceled the task: the limits are exhausted
    have hex : s.stream.limits.hasExhaustedLimit = true := by
      rcases hc with hc | hc
      · exact h.canceled_exhausted i hc
      · simp [h.err_eq] at hc
    have hnp : s.phases i ≠ .pending := by
      rcases hp with hp | ⟨l, hp⟩ <;> simp [hp]
    have hnf : s.phases i ≠ .finished := by
      rcases hp with hp | ⟨l, hp⟩ <;> simp [hp]
    exact h.setPhase (h.lt_of_ne_pending hnp) (h.not_completed hnf) (Or.inr ⟨rfl, hex⟩)
      fun _ => hex
  | drop i =>
    obtain ⟨-, -, herr, -⟩ := step_drop.1 hs
    simp [h.err_eq] at herr

theorem inv_run {task : ℕ → LimitTracker → List Q}
    (htask : ∀ i (l : LimitTracker), l.truncate (task i l) = l.truncate (rs.getD i []))
    (hfirst : lt0.truncate (task 0 lt0) = task 0 lt0) {stream : ParallelLimitedIndexedStream Q}
    (hstream : newParallelLimitedIndexedStream lt0 rs.length = .ok stream) {events : List TaskEvent}
    {s : TaskRun Q} (hrun : Schedule.run (step task) (init stream) events = some s) :
    Inv rs lt0 s :=
  Schedule.run_invariant (Inv rs lt0) (fun _ _ _ h hs => h.step htask hfirst hs) events _ _
    (inv_init hstream) hrun

/-- Once every task has finished, the parent holds what the initial limits let through of all
the results, in order, and no error was returned. -/
theorem Inv.result {s : TaskRun Q} (h : Inv rs lt0 s) (hn : 0 < rs.length)
    (hfin : s.allFinished = true) :
    s.err = none ∧ s.stream.parentStream = lt0.truncate rs.flatten := by
  refine ⟨h.err_eq, ?_⟩
  cases hex : s.stream.limits.hasExhaustedLimit
  · -- every task completed, so the publishing loop went past the last one
    have hdone : ∀ j < rs.length, s.stream.completedTaskIndexes j = true := by
      intro j hj
      have hf : s.phases j = .finished := by
        simp only [allFinished, List.all_eq_true, List.mem_range, beq_iff_eq,
          h.streamCount_eq] at hfin
        exact hfin j hj
      rcases h.finished_exhausted j hf with hc | hc
      · exact hc
      · rw [hex] at hc
        cases hc
    have hP : s.stream.toPublishTaskIndex = rs.length := by
      by_contra hne
      have hlt := Nat.lt_of_le_of_ne h.toPublishTaskIndex_le hne
      have hnot := h.advanced hex hlt
      rw [hdone _ hlt] at hnot
      cases hnot
    obtain ⟨hlim, hnex⟩ := h.published (hP ▸ hn)
    have hpar := hnex hex
    rw [hP, List.take_length] at hpar
    rw [hpar]
    exact (truncate_eq_self (by rw [← hpar, ← hlim]; exact hex)).symm
  · exact h.exhausted hex

end Invariant

end TaskRun

variable {T : Type _}

theorem truncate_runTask {handler : T → LimitTracker → List Q} {results : T → List Q}
    (hhandler : ∀ item (limits : LimitTracker), (limits.publishAll (handler item limits)).1 = (limits.publishAll (results item)).1)
    (itemsToRun : List T) (i : ℕ) (l : LimitTracker) :
    l.truncate (runTask itemsToRun handler i l) = l.truncate ((itemsToRun.map results).getD i []) := by
  unfold runTask
  rw [List.getD_eq_getElem?_getD, List.getElem?_map]
  cases itemsToRun[i]? with
  | none => simp [truncate]
  | some item => simpa [publishAll_eq] using hhandler item l

theorem limitedHandler_publishes (results : T → List Q) (item : T) (limits : LimitTracker) :
    (limits.publishAll (limitedHandler results item limits)).1 = (limits.publishAll (results item)).1 ∧
      (limits.publishAll (limitedHandler results item limits)).1 = limitedHandler results item limits := by
  simp only [limitedHandler, publishAll_eq]
  exact ⟨truncate_truncate_of_le (Le.refl limits) _, truncate_truncate_of_le (Le.refl limits) _⟩

/-- Ordered limited publication: when what each handler publishes is, up to what its limits let
through, its item's results, and the first task, which streams straight to the parent, publishes
no more than the limit lets through, every schedule under which all the tasks finish publishes
to the parent the first `limit` results of the items from the starting index on, in the items'
order (all of them when `limit` is 0), and returns no error; and every schedule the tasks can
take goes on to one under which they all finish. -/
theorem withParallelizedStreamingIterableInCursor_publishes [ToString T] (items : List T)
    (results : T → List Q) (handler : T → LimitTracker → List Q) (limit : ℕ) (startingIndex : ℤ)
    (hstart : 0 ≤ startingIndex ∧ startingIndex ≤ items.length)
    (hhandler : ∀ item (limits : LimitTracker), (limits.publishAll (handler item limits)).1 = (limits.publishAll (results item)).1)
    (hfirst : ∀ item, items[startingIndex.toNat]? = some item →
      ((newLimitTracker limit).publishAll (handler item (newLimitTracker limit))).1 =
        handler item (newLimitTracker limit)) :
    (∀ events out err,
      withParallelizedStreamingIterableInCursor startingIndex items (newLimitTracker limit)
          handler events = some (out, err) →
        err = none ∧
          out = ((items.drop startingIndex.toNat).flatMap results).take
            (if limit = 0 then ((items.drop startingIndex.toNat).flatMap results).length
              else limit)) ∧
    (∀ stream events s,
      newParallelLimitedIndexedStream (newLimitTracker limit)
          (items.drop startingIndex.toNat).length = .ok stream →
      runTasks stream (items.drop startingIndex.toNat) handler events = some s →
      ∃ more, (withParallelizedStreamingIterableInCursor startingIndex items
          (newLimitTracker limit) handler (events ++ more)).isSome) := by
  have hvalid : ¬(startingIndex < 0 ∨ (items.length : ℤ) < startingIndex) := by omega
  refine ⟨fun events out err h => ?_, fun stream events s hstream hrun => ?_⟩
  · rw [← truncate_newLimitTracker, List.flatMap_def]
    unfold withParallelizedStreamingIterableInCursor at h
    rw [if_neg hvalid] at h
    dsimp only at h
    split at h
    · -- no item from the starting index on: nothing to publish
      rename_i hlen
      cases h
      simp [List.length_eq_zero_iff.1 hlen, truncate]
    · rename_i hlen
      unfold withInternalParallelizedStreamingIterableInCursor at h
      split at h
      · rename_i err' hstream
        rw [newParallelLimitedIndexedStream, if_neg hlen] at hstream
        cases hstream
      · rename_i stream hstream
        obtain ⟨s, hrun, hres⟩ := Option.bind_eq_some_iff.1 h
        unfold TaskRun.result at hres
        split at hres
        · rename_i hfin
          cases hres
          rw [← List.length_map results] at hstream
          -- the first task runs the item at the starting index
          have hfirstTask : (newLimitTracker limit).truncate
              (runTask (items.drop startingIndex.toNat) handler 0 (newLimitTracker limit)) =
              runTask (items.drop startingIndex.toNat) handler 0 (newLimitTracker limit) := by
            unfold runTask
            rw [List.getElem?_drop, Nat.add_zero]
            cases hitem : items[startingIndex.toNat]? with
            | none => simp [truncate]
            | some item => simpa [publishAll_eq] using hfirst item hitem
          have hinv := TaskRun.inv_run (truncate_runTask hhandler _) hfirstTask hstream hrun
          exact hinv.result (by simpa using Nat.pos_of_ne_zero hlen) hfin
        · cases hres
  · obtain ⟨more, hmore⟩ := exists_withInternalParallelizedStreamingIterableInCursor_of_runTasks
      hstream hrun
    refine ⟨more, ?_⟩
    unfold withParallelizedStreamingIterableInCursor
    rw [if_neg hvalid]
    dsimp only
    split
    · rfl
    · exact hmore

/-- The handler of the cursor tests, which ignores its limits, under a limit of 5: the first
task's two results fit, and the parent gets the first five results in order. -/
theorem withParallelizedStreamingIterableInCursor_publishes_with_limit :
    (∀ (item : ℕ) (limits : LimitTracker),
      (limits.publishAll ((fun item _ => [item * 10, item * 10 + 1]) item limits)).1 =
        (limits.publishAll [item * 10, item * 10 + 1]).1) ∧
      (∀ item, ([10, 20, 30, 40, 50] : List ℕ)[(0 : ℤ).toNat]? = some item →
        ((newLimitTracker 5).publishAll [item * 10, item * 10 + 1]).1 = [item * 10, item * 10 + 1]) ∧
      ∀ events out err,
        withParallelizedStreamingIterableInCursor (0 : ℤ) [10, 20, 30, 40, 50] (newLimitTracker 5)
            (fun item _ => [item * 10, item * 10 + 1]) events = some (out, err) →
          err = none ∧ out = [100, 101, 200, 201, 300] := by
  have hfirst : ∀ item, ([10, 20, 30, 40, 50] : List ℕ)[(0 : ℤ).toNat]? = some item →
      ((newLimitTracker 5).publishAll [item * 10, item * 10 + 1]).1 = [item * 10, item * 10 + 1] := by
    intro item hitem
    cases hitem
    decide
  refine ⟨fun _ _ => rfl, hfirst, fun events out err h => ?_⟩
  obtain ⟨herr, hout⟩ := (withParallelizedStreamingIterableInCursor_publishes [10, 20, 30, 40, 50]
    (fun item : ℕ => [item * 10, item * 10 + 1]) (fun item _ => [item * 10, item * 10 + 1]) 5 0
    (by decide) (fun _ _ => rfl) hfirst).1 events out err h
  exact ⟨herr, by rw [hout]; rfl⟩

/- The second task completes first and waits; the first then streams two results, and the one
result the limit has left is the second task's first. -/
example : withParallelizedStreamingIterableInCursor (1 : ℤ) [0, 1, 2] (newLimitTracker 3)
    (limitedHandler fun i : ℕ => [i, i + 10])
    [.start 1, .forTask 1, .handle 1, .complete 1, .start 0, .forTask 0, .handle 0, .complete 0] =
    some ([1, 11, 2], none) := by
  decide

/-- A handler that publishes past its limits: with a limit of 1, the first task streams its two
results straight to the parent, and `markAlreadyPublished` fails. -/
theorem withParallelizedStreamingIterableInCursor_over_limit :
    withParallelizedStreamingIterableInCursor (0 : ℤ) [(0 : ℕ)] (newLimitTracker 1)
        (fun _ _ => [(1 : ℕ), 2]) [.start 0, .forTask 0, .handle 0, .complete 0] =
      some ([1, 2], some "BUG: given published count of 2 exceeds the remaining limit of 1") := by
  decide

end SpiceDB.Graph
