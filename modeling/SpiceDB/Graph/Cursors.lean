import Mathlib.Logic.Function.Basic
import SpiceDB.Graph.Limits
import SpiceDB.Lib.Schedule

namespace SpiceDB.Graph

open LimitTracker

variable {T Q : Type _}

/-- `parallelLimitedIndexedStream`. Its maps from task index are functions, with an absent entry
empty or `false`. -/
structure ParallelLimitedIndexedStream (Q : Type _) where
  /-- `ci.limits`, the limits of the cursor, which every task checks before it starts -/
  limits : LimitTracker
  /-- what the parent stream received -/
  parentStream : List Q
  streamCount : ℕ
  toPublishTaskIndex : ℕ
  /-- `countingStream.PublishedCount()` -/
  publishedCount : ℕ
  /-- the results in each `CollectingDispatchStream` -/
  childStreams : ℕ → List Q
  /-- the indices with an entry in `childContextCancels` -/
  childContextCancels : ℕ → Bool
  /-- the contexts canceled with `errCanceledBecauseFulfilled` -/
  canceledContexts : ℕ → Bool
  completedTaskIndexes : ℕ → Bool

def newParallelLimitedIndexedStream (limits : LimitTracker) (streamCount : ℕ) :
    Except String (ParallelLimitedIndexedStream Q) :=
  if streamCount = 0 then .error (mustBugf "got invalid stream count")
  else .ok
    { limits, parentStream := [], streamCount, toPublishTaskIndex := 0, publishedCount := 0,
      childStreams := fun _ => [], childContextCancels := fun _ => false,
      canceledContexts := fun _ => false, completedTaskIndexes := fun _ => false }

namespace ParallelLimitedIndexedStream

/-- `forTaskIndex`: the stream with the task's context registered, and the limits of the task,
cloned from the cursor's. The first task streams through a new counting stream, every other one
into a new collecting stream. -/
def forTaskIndex (ls : ParallelLimitedIndexedStream Q) (index : ℕ) :
    ParallelLimitedIndexedStream Q × LimitTracker :=
  let childLimits := ls.limits.clone
  let ls := { ls with childContextCancels := Function.update ls.childContextCancels index true }
  if index = 0 then ({ ls with publishedCount := 0 }, childLimits)
  else ({ ls with childStreams := Function.update ls.childStreams index [] }, childLimits)

/-- A task's handler publishing `results` to the stream `forTaskIndex` gave it: the counting
stream of the first task, which publishes to the parent, or the task's collecting stream. -/
def publishToTask (ls : ParallelLimitedIndexedStream Q) (index : ℕ) (results : List Q) :
    ParallelLimitedIndexedStream Q :=
  if index = 0 then
    { ls with parentStream := ls.parentStream ++ results,
              publishedCount := ls.publishedCount + results.length }
  else { ls with childStreams := Function.update ls.childStreams index (ls.childStreams index ++ results) }

def cancelRemainingDispatches (ls : ParallelLimitedIndexedStream Q) :
    ParallelLimitedIndexedStream Q :=
  { ls with canceledContexts := fun i => ls.canceledContexts i || ls.childContextCancels i }

/-- The turn of `completedTaskIndex`'s loop at the first task, whose results went straight to
the parent: their count comes off the limits, and the remaining dispatches are canceled if
that exhausts them. -/
def publishFirst (ls : ParallelLimitedIndexedStream Q) :
    Except String (ParallelLimitedIndexedStream Q) :=
  match ls.limits.markAlreadyPublished ls.publishedCount with
  | .error err => .error err
  | .ok limits =>
    let ls := { ls with limits }
    .ok (if limits.hasExhaustedLimit then ls.cancelRemainingDispatches else ls)

/-- The turn of `completedTaskIndex`'s loop at a later task: its collected results go to the
parent while `prepareForPublishing` allows; and whether it refused one. -/
def publishChild (ls : ParallelLimitedIndexedStream Q) : ParallelLimitedIndexedStream Q × Bool :=
  let (published, limits, refused) := ls.limits.publishAll (ls.childStreams ls.toPublishTaskIndex)
  ({ ls with limits, parentStream := ls.parentStream ++ published }, refused)

/-- The loop of `completedTaskIndex`, which publishes the results of the completed tasks from
`toPublishTaskIndex` on, and the error it returns. `fuel` bounds its turns: `streamCount + 1`
turns are enough, since only tasks below `streamCount` complete. -/
def publishCompleted : ℕ → ParallelLimitedIndexedStream Q → ParallelLimitedIndexedStream Q × Option String
  | 0, ls => (ls, none)
  | fuel + 1, ls =>
    if !ls.completedTaskIndexes ls.toPublishTaskIndex then (ls, none)
    else if ls.toPublishTaskIndex = 0 then
      match ls.publishFirst with
      | .error err => (ls, some err)
      | .ok ls => publishCompleted fuel { ls with toPublishTaskIndex := ls.toPublishTaskIndex + 1 }
    else
      match ls.publishChild with
      | (ls, true) => (ls.cancelRemainingDispatches, none)
      | (ls, false) =>
        publishCompleted fuel
          { ls with childStreams := Function.update ls.childStreams ls.toPublishTaskIndex [],
                    toPublishTaskIndex := ls.toPublishTaskIndex + 1 }

def completedTaskIndex (ls : ParallelLimitedIndexedStream Q) (index : ℕ) :
    ParallelLimitedIndexedStream Q × Option String :=
  let ls := { ls with completedTaskIndexes := Function.update ls.completedTaskIndexes index true }
  if ls.limits.hasExhaustedLimit then (ls.cancelRemainingDispatches, none)
  else publishCompleted (ls.streamCount + 1) ls

section Fields

variable (ls : ParallelLimitedIndexedStream Q) (i : ℕ)

@[simp] theorem forTaskIndex_snd : (ls.forTaskIndex i).2 = ls.limits := by
  unfold forTaskIndex
  split <;> rfl

@[simp] theorem limits_forTaskIndex : (ls.forTaskIndex i).1.limits = ls.limits := by
  unfold forTaskIndex
  split <;> rfl

@[simp] theorem parentStream_forTaskIndex : (ls.forTaskIndex i).1.parentStream = ls.parentStream := by
  unfold forTaskIndex
  split <;> rfl

@[simp] theorem streamCount_forTaskIndex : (ls.forTaskIndex i).1.streamCount = ls.streamCount := by
  unfold forTaskIndex
  split <;> rfl

@[simp] theorem toPublishTaskIndex_forTaskIndex :
    (ls.forTaskIndex i).1.toPublishTaskIndex = ls.toPublishTaskIndex := by
  unfold forTaskIndex
  split <;> rfl

@[simp] theorem canceledContexts_forTaskIndex :
    (ls.forTaskIndex i).1.canceledContexts = ls.canceledContexts := by
  unfold forTaskIndex
  split <;> rfl

@[simp] theorem completedTaskIndexes_forTaskIndex :
    (ls.forTaskIndex i).1.completedTaskIndexes = ls.completedTaskIndexes := by
  unfold forTaskIndex
  split <;> rfl

theorem publishedCount_forTaskIndex :
    (ls.forTaskIndex i).1.publishedCount = if i = 0 then 0 else ls.publishedCount := by
  unfold forTaskIndex
  split <;> rfl

theorem childStreams_forTaskIndex :
    (ls.forTaskIndex i).1.childStreams =
      if i = 0 then ls.childStreams else Function.update ls.childStreams i [] := by
  unfold forTaskIndex
  split <;> rfl

theorem childStreams_forTaskIndex_of_ne {j : ℕ} (hji : j ≠ i) :
    (ls.forTaskIndex i).1.childStreams j = ls.childStreams j := by
  rw [childStreams_forTaskIndex]
  split
  · rfl
  · exact Function.update_of_ne hji _ _

theorem childStreams_forTaskIndex_self (hi : i ≠ 0) : (ls.forTaskIndex i).1.childStreams i = [] := by
  rw [childStreams_forTaskIndex, if_neg hi, Function.update_self]

variable (results : List Q)

@[simp] theorem limits_publishToTask : (ls.publishToTask i results).limits = ls.limits := by
  unfold publishToTask
  split <;> rfl

@[simp] theorem streamCount_publishToTask :
    (ls.publishToTask i results).streamCount = ls.streamCount := by
  unfold publishToTask
  split <;> rfl

@[simp] theorem toPublishTaskIndex_publishToTask :
    (ls.publishToTask i results).toPublishTaskIndex = ls.toPublishTaskIndex := by
  unfold publishToTask
  split <;> rfl

@[simp] theorem canceledContexts_publishToTask :
    (ls.publishToTask i results).canceledContexts = ls.canceledContexts := by
  unfold publishToTask
  split <;> rfl

@[simp] theorem completedTaskIndexes_publishToTask :
    (ls.publishToTask i results).completedTaskIndexes = ls.completedTaskIndexes := by
  unfold publishToTask
  split <;> rfl

theorem parentStream_publishToTask :
    (ls.publishToTask i results).parentStream =
      if i = 0 then ls.parentStream ++ results else ls.parentStream := by
  unfold publishToTask
  split <;> rfl

theorem publishedCount_publishToTask :
    (ls.publishToTask i results).publishedCount =
      if i = 0 then ls.publishedCount + results.length else ls.publishedCount := by
  unfold publishToTask
  split <;> rfl

theorem childStreams_publishToTask :
    (ls.publishToTask i results).childStreams =
      if i = 0 then ls.childStreams
      else Function.update ls.childStreams i (ls.childStreams i ++ results) := by
  unfold publishToTask
  split <;> rfl

theorem childStreams_publishToTask_of_ne {j : ℕ} (hji : j ≠ i) :
    (ls.publishToTask i results).childStreams j = ls.childStreams j := by
  rw [childStreams_publishToTask]
  split
  · rfl
  · exact Function.update_of_ne hji _ _

theorem childStreams_publishToTask_self (hi : i ≠ 0) :
    (ls.publishToTask i results).childStreams i = ls.childStreams i ++ results := by
  rw [childStreams_publishToTask, if_neg hi, Function.update_self]

end Fields

theorem publishFirst_eq_ok (ls : ParallelLimitedIndexedStream Q)
    (hcount : ls.limits.hasLimit = true → ls.publishedCount ≤ ls.limits.currentLimit) :
    ls.publishFirst =
      .ok (if (ls.limits.afterPublishing ls.publishedCount).hasExhaustedLimit then
          { ls with limits := ls.limits.afterPublishing ls.publishedCount }.cancelRemainingDispatches
        else { ls with limits := ls.limits.afterPublishing ls.publishedCount }) := by
  unfold publishFirst
  rw [markAlreadyPublished_eq, if_neg (fun h => absurd (hcount h.1) (Nat.not_le.2 h.2))]

theorem publishChild_eq (ls : ParallelLimitedIndexedStream Q) :
    ls.publishChild =
      ({ ls with
          limits := ls.limits.afterPublishing
            (ls.limits.truncate (ls.childStreams ls.toPublishTaskIndex)).length,
          parentStream := ls.parentStream ++ ls.limits.truncate (ls.childStreams ls.toPublishTaskIndex) },
        ls.limits.hasLimit &&
          decide (ls.limits.currentLimit < (ls.childStreams ls.toPublishTaskIndex).length)) := by
  unfold publishChild
  rw [publishAll_eq]

theorem streamCount_publishFirst {ls ls' : ParallelLimitedIndexedStream Q}
    (h : ls.publishFirst = .ok ls') : ls'.streamCount = ls.streamCount := by
  unfold publishFirst at h
  split at h
  · cases h
  · cases h
    split <;> rfl

section PublishChild

variable (ls : ParallelLimitedIndexedStream Q)

@[simp] theorem streamCount_publishChild : ls.publishChild.1.streamCount = ls.streamCount := rfl

@[simp] theorem toPublishTaskIndex_publishChild :
    ls.publishChild.1.toPublishTaskIndex = ls.toPublishTaskIndex := rfl

@[simp] theorem childStreams_publishChild : ls.publishChild.1.childStreams = ls.childStreams := rfl

@[simp] theorem canceledContexts_publishChild :
    ls.publishChild.1.canceledContexts = ls.canceledContexts := rfl

@[simp] theorem completedTaskIndexes_publishChild :
    ls.publishChild.1.completedTaskIndexes = ls.completedTaskIndexes := rfl

theorem limits_publishChild_le : ls.publishChild.1.limits.Le ls.limits := by
  rw [publishChild_eq]
  exact le_afterPublishing _ _

theorem hasExhaustedLimit_publishChild (h : ls.publishChild.2 = true) :
    ls.publishChild.1.limits.hasExhaustedLimit = true :=
  hasExhaustedLimit_publishAll h

end PublishChild

theorem streamCount_publishCompleted :
    ∀ (fuel : ℕ) (ls : ParallelLimitedIndexedStream Q),
      (publishCompleted fuel ls).1.streamCount = ls.streamCount
  | 0, _ => rfl
  | fuel + 1, ls => by
    unfold publishCompleted
    split
    · rfl
    · split
      · split
        · rfl
        · rename_i ls' h
          rw [streamCount_publishCompleted fuel]
          have hcount := streamCount_publishFirst h
          exact hcount
      · split
        · rename_i ls' h
          have hcount := streamCount_publishChild ls
          rw [h] at hcount
          exact hcount
        · rename_i ls' h
          rw [streamCount_publishCompleted fuel]
          have hcount := streamCount_publishChild ls
          rw [h] at hcount
          exact hcount

theorem streamCount_completedTaskIndex (ls : ParallelLimitedIndexedStream Q) (i : ℕ) :
    (ls.completedTaskIndex i).1.streamCount = ls.streamCount := by
  unfold completedTaskIndex
  dsimp only
  split
  · rfl
  · exact streamCount_publishCompleted _ _

end ParallelLimitedIndexedStream

/-- Where one task of the runner is. -/
inductive TaskPhase where
  /-- not yet picked by the runner -/
  | pending
  /-- past its check of the cursor's limits -/
  | checked
  /-- given its stream and these limits by `forTaskIndex` -/
  | opened (limits : LimitTracker)
  /-- its handler has published its results -/
  | ran
  | finished
deriving DecidableEq, Repr

/-- An event of one task. -/
inductive TaskEvent where
  /-- the runner picks the task, which returns at once if the cursor's limits are exhausted -/
  | start (index : ℕ)
  /-- `forTaskIndex` -/
  | forTask (index : ℕ)
  /-- the handler publishes its results -/
  | handle (index : ℕ)
  /-- the handler returns, and the task calls `completedTaskIndex` -/
  | complete (index : ℕ)
  /-- the handler fails on its canceled context -/
  | cancel (index : ℕ)
  /-- the runner, canceled by an error, drops a task it has not picked -/
  | drop (index : ℕ)
deriving DecidableEq, Repr

/-- The tasks of `withInternalParallelizedStreamingIterableInCursor` and their stream. -/
structure TaskRun (Q : Type _) where
  stream : ParallelLimitedIndexedStream Q
  phases : ℕ → TaskPhase
  /-- the error the runner keeps: the first one a task returned -/
  err : Option String

namespace TaskRun

/-- The tasks before the runner starts. -/
def init (stream : ParallelLimitedIndexedStream Q) : TaskRun Q :=
  { stream, phases := fun _ => .pending, err := none }

/-- One event; `none` when the task is not where the event can happen. `task index limits` is
what the handler of the task `index` publishes with `limits`. -/
def step (task : ℕ → LimitTracker → List Q) (s : TaskRun Q) : TaskEvent → Option (TaskRun Q)
  | .start i =>
    if i < s.stream.streamCount ∧ s.phases i = .pending then
      let phase := if s.stream.limits.hasExhaustedLimit then TaskPhase.finished else .checked
      some { s with phases := Function.update s.phases i phase }
    else none
  | .forTask i =>
    if s.phases i = .checked then
      let (stream, limits) := s.stream.forTaskIndex i
      some { s with stream, phases := Function.update s.phases i (.opened limits) }
    else none
  | .handle i =>
    match s.phases i with
    | .opened limits =>
      some { s with stream := s.stream.publishToTask i (task i limits),
                    phases := Function.update s.phases i .ran }
    | _ => none
  | .complete i =>
    if s.phases i = .ran then
      let (stream, err) := s.stream.completedTaskIndex i
      some { stream, phases := Function.update s.phases i .finished, err := s.err <|> err }
    else none
  | .cancel i =>
    -- the task ignores the error when this stream canceled it because the limits were reached;
    -- otherwise the runner was canceled by an earlier error, which it keeps
    match s.phases i with
    | .opened _ | .ran =>
      if s.stream.canceledContexts i || s.err.isSome then
        some { s with phases := Function.update s.phases i .finished }
      else none
    | _ => none
  | .drop i =>
    if i < s.stream.streamCount ∧ s.phases i = .pending ∧ s.err.isSome then
      some { s with phases := Function.update s.phases i .finished }
    else none

/-- Whether every task has finished. -/
def allFinished (s : TaskRun Q) : Bool :=
  (List.range s.stream.streamCount).all fun i => s.phases i == .finished

/-- What `StartAndWait` returns to: what was published to the parent stream and the error, once
every task has finished. -/
def result (s : TaskRun Q) : Option (List Q × Option String) :=
  if s.allFinished then some (s.stream.parentStream, s.err) else none

end TaskRun

namespace TaskRun

section Steps

variable {task : ℕ → LimitTracker → List Q} {s s' : TaskRun Q} {i : ℕ}

theorem step_start : s.step task (.start i) = some s' ↔
    i < s.stream.streamCount ∧ s.phases i = .pending ∧
      s' = { s with
        phases := Function.update s.phases i
          (if s.stream.limits.hasExhaustedLimit then .finished else .checked) } := by
  simp only [step]
  split
  · rename_i h
    constructor
    · intro hs
      exact ⟨h.1, h.2, (Option.some.inj hs).symm⟩
    · rintro ⟨-, -, rfl⟩
      rfl
  · simp_all

theorem step_forTask : s.step task (.forTask i) = some s' ↔
    s.phases i = .checked ∧
      s' = { s with stream := (s.stream.forTaskIndex i).1,
                    phases := Function.update s.phases i (.opened s.stream.limits) } := by
  simp only [step]
  split
  · simp_all [eq_comm]
  · simp_all

theorem step_handle : s.step task (.handle i) = some s' ↔
    ∃ l, s.phases i = .opened l ∧
      s' = { s with stream := s.stream.publishToTask i (task i l),
                    phases := Function.update s.phases i .ran } := by
  simp only [step]
  split
  · rename_i l hl
    constructor
    · intro h
      exact ⟨l, hl, (Option.some.inj h).symm⟩
    · rintro ⟨l', hl', rfl⟩
      rw [hl] at hl'
      cases hl'
      rfl
  · rename_i hnot
    simp only [reduceCtorEq, false_iff, not_exists, not_and]
    intro l hl
    exact absurd hl (hnot l)

theorem step_complete : s.step task (.complete i) = some s' ↔
    s.phases i = .ran ∧
      s' = { stream := (s.stream.completedTaskIndex i).1,
             phases := Function.update s.phases i .finished,
             err := s.err <|> (s.stream.completedTaskIndex i).2 } := by
  simp only [step]
  split
  · simp_all [eq_comm]
  · simp_all

theorem step_cancel : s.step task (.cancel i) = some s' ↔
    (s.phases i = .ran ∨ ∃ l, s.phases i = .opened l) ∧
      (s.stream.canceledContexts i = true ∨ s.err.isSome = true) ∧
      s' = { s with phases := Function.update s.phases i .finished } := by
  simp only [step]
  split
  · rename_i l hl
    split
    · rename_i hc
      constructor
      · intro hs
        exact ⟨Or.inr ⟨l, hl⟩, by simpa using hc, (Option.some.inj hs).symm⟩
      · rintro ⟨-, -, rfl⟩
        rfl
    · rename_i hc
      simp only [Bool.or_eq_true] at hc
      simp [hc]
  · rename_i hl
    split
    · rename_i hc
      constructor
      · intro hs
        exact ⟨Or.inl hl, by simpa using hc, (Option.some.inj hs).symm⟩
      · rintro ⟨-, -, rfl⟩
        rfl
    · rename_i hc
      simp only [Bool.or_eq_true] at hc
      simp [hc]
  · rename_i hopened hran
    simp only [reduceCtorEq, false_iff, not_and]
    rintro (hr | ⟨l, hl⟩)
    · exact absurd hr hran
    · exact absurd hl (hopened l)

theorem step_drop : s.step task (.drop i) = some s' ↔
    i < s.stream.streamCount ∧ s.phases i = .pending ∧ s.err.isSome = true ∧
      s' = { s with phases := Function.update s.phases i .finished } := by
  simp only [step]
  split
  · rename_i h
    constructor
    · intro hs
      exact ⟨h.1, h.2.1, h.2.2, (Option.some.inj hs).symm⟩
    · rintro ⟨-, -, -, rfl⟩
      rfl
  · rename_i h
    simp only [reduceCtorEq, false_iff]
    rintro ⟨hi, hp, herr, -⟩
    exact h ⟨hi, hp, herr⟩

end Steps

end TaskRun

/-- The task of `withInternalParallelizedStreamingIterableInCursor` for the item at `index`. -/
def runTask (itemsToRun : List T) (handler : T → LimitTracker → List Q) (index : ℕ)
    (limits : LimitTracker) : List Q :=
  match itemsToRun[index]? with
  | some item => handler item limits
  | none => []

/-- The tasks of `itemsToRun` after the schedule `events`, from the stream `stream`; `none`
when the tasks cannot take it. -/
def runTasks (stream : ParallelLimitedIndexedStream Q) (itemsToRun : List T)
    (handler : T → LimitTracker → List Q) (events : List TaskEvent) : Option (TaskRun Q) :=
  Schedule.run (TaskRun.step (runTask itemsToRun handler)) (TaskRun.init stream) events

/-- `withInternalParallelizedStreamingIterableInCursor` under the schedule `events`: what it
published to the parent stream and the error it returns, or `none` for a schedule the tasks
cannot take or that leaves a task unfinished. -/
def withInternalParallelizedStreamingIterableInCursor (limits : LimitTracker) (itemsToRun : List T)
    (handler : T → LimitTracker → List Q) (events : List TaskEvent) :
    Option (List Q × Option String) :=
  match newParallelLimitedIndexedStream limits itemsToRun.length with
  | .error err => some ([], some err)
  | .ok stream => (runTasks stream itemsToRun handler events).bind TaskRun.result

/-- Go's `%v` of a slice. -/
def formatItems [ToString T] (items : List T) : String :=
  "[" ++ " ".intercalate (items.map toString) ++ "]"

/-- `withParallelizedStreamingIterableInCursor` under the schedule `events`, from the starting
index the cursor holds. -/
def withParallelizedStreamingIterableInCursor [ToString T] (startingIndex : ℤ) (items : List T)
    (limits : LimitTracker) (handler : T → LimitTracker → List Q) (events : List TaskEvent) :
    Option (List Q × Option String) :=
  if startingIndex < 0 ∨ items.length < startingIndex then
    some ([], some (mustBugf ("invalid cursor in withParallelizedStreamingIterableInCursor: " ++
      "found starting index " ++ toString startingIndex ++ " for items " ++ formatItems items)))
  else
    let itemsToRun := items.drop startingIndex.toNat
    if itemsToRun.length = 0 then some ([], none)
    else withInternalParallelizedStreamingIterableInCursor limits itemsToRun handler events

/-- A handler that publishes `results item` through its limits, asking `prepareForPublishing`
before each result and stopping at the first refusal, as the handlers of
`reachableresources.go` do. -/
def limitedHandler (results : T → List Q) (item : T) (limits : LimitTracker) : List Q :=
  (limits.publishAll (results item)).1

/-- How many events a task is from finishing. -/
def TaskPhase.rank : TaskPhase → ℕ
  | .pending => 4
  | .checked => 3
  | .opened _ => 2
  | .ran => 1
  | .finished => 0

namespace TaskRun

/-- How many events the tasks are from all finishing. -/
def remaining (s : TaskRun Q) : ℕ := ∑ j ∈ Finset.range s.stream.streamCount, (s.phases j).rank

theorem remaining_lt {s s' : TaskRun Q} {i : ℕ} {p : TaskPhase} (hi : i < s.stream.streamCount)
    (hcount : s'.stream.streamCount = s.stream.streamCount)
    (hphases : s'.phases = Function.update s.phases i p) (hlt : p.rank < (s.phases i).rank) :
    s'.remaining < s.remaining := by
  unfold remaining
  rw [hcount, hphases]
  refine Schedule.sum_rank_lt hi (by simpa using hlt) fun j => ?_
  by_cases hj : j = i
  · subst hj
    simpa using hlt.le
  · simp [Function.update_of_ne hj]

/-- Every task that has not finished has an event that takes it a step on. -/
theorem exists_step_of_allFinished_eq_false (task : ℕ → LimitTracker → List Q) {s : TaskRun Q}
    (h : s.allFinished = false) :
    ∃ e s', s.step task e = some s' ∧ s'.remaining < s.remaining := by
  obtain ⟨i, hi, hne⟩ : ∃ i < s.stream.streamCount, s.phases i ≠ .finished := by
    simpa [allFinished] using h
  cases hp : s.phases i with
  | pending =>
    refine ⟨.start i, _, step_start.2 ⟨hi, hp, rfl⟩, remaining_lt hi rfl rfl ?_⟩
    rw [hp]
    split <;> simp [TaskPhase.rank]
  | checked =>
    exact ⟨.forTask i, _, step_forTask.2 ⟨hp, rfl⟩,
      remaining_lt hi (by simp) rfl (by simp [hp, TaskPhase.rank])⟩
  | opened l =>
    exact ⟨.handle i, _, step_handle.2 ⟨l, hp, rfl⟩,
      remaining_lt hi (by simp) rfl (by simp [hp, TaskPhase.rank])⟩
  | ran =>
    exact ⟨.complete i, _, step_complete.2 ⟨hp, rfl⟩,
      remaining_lt hi (ParallelLimitedIndexedStream.streamCount_completedTaskIndex _ _) rfl (by simp [hp, TaskPhase.rank])⟩
  | finished => exact absurd hp hne

theorem exists_run_allFinished (task : ℕ → LimitTracker → List Q) (s : TaskRun Q) :
    ∃ events s', Schedule.run (step task) s events = some s' ∧ s'.allFinished = true :=
  Schedule.exists_run_finished remaining (fun s => s.allFinished = true)
    (fun _ h => exists_step_of_allFinished_eq_false task (Bool.eq_false_iff.2 h)) s

end TaskRun

theorem exists_withInternalParallelizedStreamingIterableInCursor_of_runTasks
    {limits : LimitTracker} {itemsToRun : List T} {handler : T → LimitTracker → List Q}
    {stream : ParallelLimitedIndexedStream Q} {events : List TaskEvent} {s : TaskRun Q}
    (hstream : newParallelLimitedIndexedStream limits itemsToRun.length = .ok stream)
    (hrun : runTasks stream itemsToRun handler events = some s) :
    ∃ more, (withInternalParallelizedStreamingIterableInCursor limits itemsToRun handler
      (events ++ more)).isSome := by
  obtain ⟨more, s', hmore, hfin⟩ := TaskRun.exists_run_allFinished (runTask itemsToRun handler) s
  refine ⟨more, ?_⟩
  have hall : runTasks stream itemsToRun handler (events ++ more) = some s' := by
    rw [runTasks, Schedule.run_append, ← runTasks, hrun, Option.bind_some, hmore]
  simp [withInternalParallelizedStreamingIterableInCursor, hstream, hall, TaskRun.result, hfin]

end SpiceDB.Graph
