import Mathlib.Data.List.Dedup
import SpiceDB.Datastore.Changes

namespace SpiceDB.Datastore.Common

section Revisions

variable {R : Type _} [LinearOrder R] (content : WatchContent)

/-- The tracked calls of `calls` at the revision `r`, in order. -/
def callsAt (calls : List (ChangeCall R)) (r : R) : List (ChangeCall R) :=
  calls.filter fun c => c.watched content && decide (c.rev = r)

/-- The revisions that received a tracked call, in increasing order. -/
def revisionsOf (calls : List (ChangeCall R)) : List R :=
  ((calls.filter (·.watched content)).map (·.rev)).dedup.insertionSort (· ≤ ·)

/-- What the change set reads back for the revision `r` after the calls `calls`. -/
def changesAt (calls : List (ChangeCall R)) (r : R) : RevisionChanges R :=
  (recordOf r (callsAt content calls r)).asRevisionChanges

variable {content}

theorem callsAt_eq_nil_iff {calls : List (ChangeCall R)} {r : R} :
    callsAt content calls r = [] ↔ ∀ c ∈ calls, c.watched content = true → c.rev ≠ r := by
  simp [callsAt, List.filter_eq_nil_iff]

theorem mem_revisionsOf {calls : List (ChangeCall R)} {r : R} :
    r ∈ revisionsOf content calls ↔ ∃ c ∈ calls, c.watched content = true ∧ c.rev = r := by
  simp [revisionsOf, List.mem_dedup, and_assoc]

theorem mem_revisionsOf_iff_callsAt {calls : List (ChangeCall R)} {r : R} :
    r ∈ revisionsOf content calls ↔ callsAt content calls r ≠ [] := by
  rw [mem_revisionsOf, ne_eq, callsAt_eq_nil_iff]
  simp

theorem sortedLT_revisionsOf (calls : List (ChangeCall R)) :
    (revisionsOf content calls).SortedLT := by
  rw [List.sortedLT_iff_nodup_and_sortedLE]
  exact ⟨(List.perm_insertionSort _ _).nodup_iff.mpr (List.nodup_dedup _),
    List.sortedLE_insertionSort⟩

theorem eq_revisionsOf {calls : List (ChangeCall R)} {l : List R} (hl : l.SortedLT)
    (hmem : ∀ r, r ∈ l ↔ r ∈ revisionsOf content calls) : l = revisionsOf content calls :=
  hl.eq_of_mem_iff (sortedLT_revisionsOf calls) hmem

theorem revisionsOf_filter (calls : List (ChangeCall R)) (Q : R → Bool) :
    revisionsOf content (calls.filter fun c => Q c.rev) = (revisionsOf content calls).filter Q := by
  symm
  apply eq_revisionsOf
  · exact (List.sortedLT_iff_pairwise.mp (sortedLT_revisionsOf calls)).filter Q |>.sortedLT
  · intro r
    simp only [List.mem_filter, mem_revisionsOf]
    constructor
    · rintro ⟨⟨c, hc, hw, rfl⟩, hq⟩
      exact ⟨c, ⟨hc, hq⟩, hw, rfl⟩
    · rintro ⟨c, ⟨hc, hq⟩, hw, rfl⟩
      exact ⟨⟨c, hc, hw, rfl⟩, hq⟩

theorem callsAt_filter (calls : List (ChangeCall R)) (Q : R → Bool) (r : R) :
    callsAt content (calls.filter fun c => Q c.rev) r =
      if Q r then callsAt content calls r else [] := by
  unfold callsAt
  rw [List.filter_filter]
  split
  · apply List.filter_congr
    intro c _
    by_cases hr : c.rev = r
    · subst hr
      simp [*]
    · simp [hr]
  · rw [List.filter_eq_nil_iff]
    intro c _ h
    simp only [Bool.and_eq_true, decide_eq_true_eq] at h
    obtain ⟨⟨_, rfl⟩, hq⟩ := h
    simp_all

theorem callsAt_append (calls calls' : List (ChangeCall R)) (r : R) :
    callsAt content (calls ++ calls') r = callsAt content calls r ++ callsAt content calls' r :=
  List.filter_append ..

theorem callsAt_concat (calls : List (ChangeCall R)) (c : ChangeCall R) (r : R) :
    callsAt content (calls ++ [c]) r =
      if c.watched content = true ∧ c.rev = r then callsAt content calls r ++ [c]
      else callsAt content calls r := by
  rw [callsAt_append]
  by_cases h : c.watched content = true ∧ c.rev = r
  · simp [callsAt, h]
  · rw [if_neg h]
    have hc : (c.watched content && decide (c.rev = r)) = false := by simpa using h
    simp [callsAt, hc]

theorem changesAt_filter (calls : List (ChangeCall R)) {Q : R → Bool} {r : R} (hq : Q r = true) :
    changesAt content (calls.filter fun c => Q c.rev) r = changesAt content calls r := by
  rw [changesAt, changesAt, callsAt_filter, if_pos hq]

end Revisions

section Tracks

variable {R K : Type _} [LinearOrder R] [DecidableEq K] {content : WatchContent}
  {keyFunc : R → K} {calls : List (ChangeCall R)} {ch : Changes R K} {Q : R → Bool}

/-- The change set `ch` holds the records that the calls `calls` write: under the key of each
revision that received a tracked call, the record of the calls at it, and under no other key
anything. -/
structure Tracks (content : WatchContent) (keyFunc : R → K) (calls : List (ChangeCall R))
    (ch : Changes R K) : Prop where
  content_eq : ch.content = content
  keyFunc_eq : ch.keyFunc = keyFunc
  lookup_keyFunc : ∀ r, ch.records.lookup (keyFunc r) =
    if callsAt content calls r = [] then none else some (recordOf r (callsAt content calls r))
  key_rev : ∀ k record, ch.records.lookup k = some record → k = keyFunc record.rev

theorem tracks_newChanges : Tracks content keyFunc [] (newChanges keyFunc content) where
  content_eq := rfl
  keyFunc_eq := rfl
  lookup_keyFunc _ := rfl
  key_rev _ _ h := by cases h

theorem Tracks.getD_lookup (h : Tracks content keyFunc calls ch) (r : R) :
    (ch.records.lookup (keyFunc r)).getD (ChangeRecord.new r) =
      recordOf r (callsAt content calls r) := by
  rw [h.lookup_keyFunc]
  split
  · rename_i hnil
    rw [hnil]
    rfl
  · rfl

section Injective

variable (hinj : Function.Injective keyFunc)

include hinj

/-- One call keeps what the change set holds in step with the calls. -/
theorem Tracks.apply (h : Tracks content keyFunc calls ch) (c : ChangeCall R) :
    Tracks content keyFunc (calls ++ [c]) (ch.apply c).1 := by
  rw [Changes.apply_fst, h.content_eq]
  split
  · rename_i hw
    refine ⟨h.content_eq, h.keyFunc_eq, fun r => ?_, fun k record hk => ?_⟩
    · rw [Changes.updateRecord_records, h.keyFunc_eq]
      by_cases hr : c.rev = r
      · -- the call's own revision gets its write on top of the record so far
        subst hr
        have hcalls : callsAt content (calls ++ [c]) c.rev = callsAt content calls c.rev ++ [c] := by
          rw [callsAt_concat, if_pos ⟨hw, rfl⟩]
        rw [AList.lookup_insert, hcalls, if_neg (by simp), h.getD_lookup, recordOf_concat]
      · have hk : keyFunc r ≠ keyFunc c.rev := fun he => hr (hinj he).symm
        have hcalls : callsAt content (calls ++ [c]) r = callsAt content calls r := by
          rw [callsAt_concat, if_neg fun h' => hr h'.2]
        rw [AList.lookup_insert_ne hk, hcalls, h.lookup_keyFunc]
    · rw [Changes.updateRecord_records, h.keyFunc_eq] at hk
      by_cases hkc : k = keyFunc c.rev
      · subst hkc
        rw [AList.lookup_insert] at hk
        cases hk
        rw [ChangeCall.rev_write, h.getD_lookup, rev_recordOf]
      · rw [AList.lookup_insert_ne hkc] at hk
        exact h.key_rev k record hk
  · rename_i hw
    refine ⟨h.content_eq, h.keyFunc_eq, fun r => ?_, h.key_rev⟩
    have hcalls : callsAt content (calls ++ [c]) r = callsAt content calls r := by
      rw [callsAt_concat, if_neg fun h' => hw h'.1]
    rw [hcalls, h.lookup_keyFunc]

theorem Tracks.foldl_apply (h : Tracks content keyFunc calls ch) (cs : List (ChangeCall R)) :
    Tracks content keyFunc (calls ++ cs) (cs.foldl (fun ch c => (ch.apply c).1) ch) := by
  induction cs generalizing calls ch with
  | nil => simpa using h
  | cons c cs ih =>
    have hstep := ih (h.apply hinj c)
    rwa [List.append_assoc, List.singleton_append] at hstep

end Injective

theorem Tracks.removeAllChangesBefore (h : Tracks content keyFunc calls ch) (b : R) :
    Tracks content keyFunc (calls.filter fun c => decide (b ≤ c.rev))
      (ch.removeAllChangesBefore b) := by
  refine ⟨h.content_eq, h.keyFunc_eq, fun r => ?_, fun k record hk => ?_⟩
  · simp only [Changes.removeAllChangesBefore]
    rw [AList.lookup_filter, h.lookup_keyFunc, callsAt_filter calls fun r => decide (b ≤ r)]
    by_cases hb : b ≤ r
    · by_cases hc : callsAt content calls r = [] <;> simp [hb, hc, rev_recordOf, not_lt.mpr hb]
    · by_cases hc : callsAt content calls r = [] <;> simp [hb, hc, rev_recordOf, lt_of_not_ge hb]
  · simp only [Changes.removeAllChangesBefore] at hk
    rw [AList.lookup_filter] at hk
    exact h.key_rev k record (Option.eq_some_of_filter_eq_some hk)

/-- The revisions of the records within a bound: the tracked revisions within it. -/
theorem Tracks.mem_revs_iff (h : Tracks content keyFunc calls ch) (P : R → Bool) (r : R) :
    r ∈ (ch.records.entries.filter fun e => P e.2.rev).map (·.2.rev) ↔
      r ∈ (revisionsOf content calls).filter P := by
  rw [List.mem_map, List.mem_filter, mem_revisionsOf_iff_callsAt]
  constructor
  · rintro ⟨e, he, rfl⟩
    obtain ⟨hmem, hp⟩ := List.mem_filter.mp he
    have hl : ch.records.lookup e.1 = some e.2 := AList.mem_lookup_iff.mpr hmem
    rw [h.key_rev e.1 e.2 hl, h.lookup_keyFunc] at hl
    refine ⟨fun hnil => ?_, hp⟩
    rw [if_pos hnil] at hl
    cases hl
  · rintro ⟨hne, hp⟩
    have hl := h.lookup_keyFunc r
    rw [if_neg hne] at hl
    refine ⟨⟨keyFunc r, recordOf r (callsAt content calls r)⟩,
      List.mem_filter.mpr ⟨AList.mem_lookup_iff.mp hl, ?_⟩, rev_recordOf _ _⟩
    rw [rev_recordOf]
    exact hp

/-- The records read back in increasing order of revision, when the keys compare as their
revisions do. -/
theorem Tracks.revisionChanges_eq (h : Tracks content keyFunc calls ch) (lessThanFunc : K → K → Bool)
    (hless : ∀ a b, lessThanFunc (keyFunc a) (keyFunc b) = true ↔ a < b) (bound : Option R) :
    ch.revisionChanges lessThanFunc bound =
      ((revisionsOf content calls).filter fun r => bound.all fun b => decide (r < b)).map
        (changesAt content calls) := by
  set P : R → Bool := fun r => bound.all fun b => decide (r < b)
  set E := ch.records.entries.filter fun e => P e.2.rev
  -- each record sits under the key of its revision
  have hkeys : E.map (·.1) = (E.map (·.2.rev)).map keyFunc := by
    rw [List.map_map]
    apply List.map_congr_left
    intro e he
    exact h.key_rev e.1 e.2 (AList.mem_lookup_iff.mpr (List.mem_filter.mp he).1)
  have hnodup : (E.map (·.2.rev)).Nodup := by
    apply List.Nodup.of_map keyFunc
    rw [← hkeys]
    exact (List.filter_sublist.map _).nodup ch.records.nodupKeys
  -- sorting the keys sorts the revisions, which are the tracked ones within the bound
  have hrevs : (E.map (·.2.rev)).insertionSort (· ≤ ·) = (revisionsOf content calls).filter P := by
    apply List.SortedLT.eq_of_mem_iff
    · rw [List.sortedLT_iff_nodup_and_sortedLE]
      exact ⟨(List.perm_insertionSort _ _).nodup_iff.mpr hnodup, List.sortedLE_insertionSort⟩
    · exact ((List.sortedLT_iff_pairwise.mp (sortedLT_revisionsOf calls)).filter P).sortedLT
    · intro r
      rw [List.mem_insertionSort]
      exact h.mem_revs_iff P r
  have hsorted := List.insertionSort_map_of_lt_iff keyFunc lessThanFunc hless (E.map (·.2.rev))
  rw [← hkeys, hrevs] at hsorted
  simp only [Changes.revisionChanges]
  rw [hsorted, List.filterMap_map, ← List.filterMap_eq_map]
  apply List.filterMap_congr
  intro r hr
  have hne := mem_revisionsOf_iff_callsAt.mp (List.mem_filter.mp hr).1
  simp only [Function.comp, h.lookup_keyFunc, if_neg hne, Option.map_some]
  rfl

theorem Tracks.revisionChanges_filter (h : Tracks content keyFunc (calls.filter fun c => Q c.rev) ch)
    (lessThanFunc : K → K → Bool)
    (hless : ∀ a b, lessThanFunc (keyFunc a) (keyFunc b) = true ↔ a < b) (bound : Option R) :
    ch.revisionChanges lessThanFunc bound =
      (((revisionsOf content calls).filter Q).filter fun r => bound.all fun b => decide (r < b)).map
        (changesAt content calls) := by
  rw [h.revisionChanges_eq lessThanFunc hless, revisionsOf_filter]
  apply List.map_congr_left
  intro r hr
  exact changesAt_filter calls (List.mem_filter.mp (List.mem_filter.mp hr).1).2

end Tracks

/-- A step of a watch loop: a call, or taking out the changes below a bound, as CockroachDB's
loop does at each resolved timestamp. -/
inductive WatchStep (R : Type _) where
  | call (c : ChangeCall R)
  | filterAndRemove (boundRev : R)

section Watch

variable {R K : Type _} [LinearOrder R] [DecidableEq K]

/-- The calls among the steps, in order. -/
def WatchStep.callsOf : List (WatchStep R) → List (ChangeCall R)
  | [] => []
  | .call c :: steps => c :: callsOf steps
  | .filterAndRemove _ :: steps => callsOf steps

/-- At or above the last bound, if there was one. -/
def atOrAbove (last : Option R) (r : R) : Bool := last.all fun b => decide (b ≤ r)

/-- The bounds do not decrease, and each call is at or above the last bound before it. -/
def boundsOrdered : Option R → List (WatchStep R) → Bool
  | _, [] => true
  | last, .call c :: steps => atOrAbove last c.rev && boundsOrdered last steps
  | last, .filterAndRemove boundRev :: steps =>
    atOrAbove last boundRev && boundsOrdered (some boundRev) steps

/-- The steps one after another, with what each `FilterAndRemoveRevisionChanges` hands out,
in order; the first error of a call ends the loop. -/
def Changes.drive (lessThanFunc : K → K → Bool) :
    Changes R K → List (WatchStep R) → Except String (Changes R K × List (RevisionChanges R))
  | ch, [] => pure (ch, [])
  | ch, .call c :: steps =>
    match ch.apply c with
    | (ch, none) => ch.drive lessThanFunc steps
    | (_, some err) => throw err
  | ch, .filterAndRemove boundRev :: steps => do
    let (changes, ch) := ch.filterAndRemoveRevisionChanges lessThanFunc boundRev
    let (ch, rest) ← ch.drive lessThanFunc steps
    pure (ch, changes ++ rest)

theorem atOrAbove_of_le {last : Option R} {b r : R} (hb : atOrAbove last b = true) (hbr : b ≤ r) :
    atOrAbove last r = true := by
  cases last with
  | none => rfl
  | some a => simpa [atOrAbove] using le_trans (by simpa [atOrAbove] using hb) hbr

theorem atOrAbove_of_boundsOrdered :
    ∀ (steps : List (WatchStep R)) (last : Option R), boundsOrdered last steps = true →
      ∀ c ∈ WatchStep.callsOf steps, atOrAbove last c.rev = true
  | [], _, _, _, hc => by cases hc
  | .call c' :: steps, last, h, c, hc => by
    simp only [boundsOrdered, Bool.and_eq_true] at h
    rcases List.mem_cons.mp hc with rfl | hc
    · exact h.1
    · exact atOrAbove_of_boundsOrdered steps last h.2 c hc
  | .filterAndRemove b :: steps, last, h, c, hc => by
    simp only [boundsOrdered, Bool.and_eq_true] at h
    have hbc := atOrAbove_of_boundsOrdered steps (some b) h.2 c hc
    exact atOrAbove_of_le h.1 (by simpa [atOrAbove] using hbc)

variable {content : WatchContent}

/-- Below a bound that the later calls do not go under, the revisions and their changes are
those of the earlier calls. -/
theorem revisionsOf_append_below {pre rest : List (ChangeCall R)} {b : R}
    (hrest : ∀ c ∈ rest, b ≤ c.rev) (Q : R → Bool) :
    ((revisionsOf content (pre ++ rest)).filter Q).filter (fun r => decide (r < b)) =
      ((revisionsOf content pre).filter Q).filter (fun r => decide (r < b)) := by
  have hrest' : rest.filter (fun c => decide (c.rev < b)) = [] :=
    List.filter_eq_nil_iff.mpr fun c hc => by simpa using hrest c hc
  rw [List.filter_filter, List.filter_filter, ← revisionsOf_filter, ← revisionsOf_filter]
  congr 1
  rw [List.filter_append]
  conv_rhs => rw [← List.append_nil (List.filter _ pre)]
  congr 1
  rw [List.filter_eq_nil_iff]
  intro c hc
  have := hrest c hc
  simp only [Bool.and_eq_true, decide_eq_true_eq, not_and]
  exact fun hlt => absurd hlt (not_lt.mpr this)

theorem changesAt_append_below {pre rest : List (ChangeCall R)} {b r : R}
    (hrest : ∀ c ∈ rest, b ≤ c.rev) (hr : r < b) :
    changesAt content (pre ++ rest) r = changesAt content pre r := by
  have hnil : callsAt content rest r = [] :=
    callsAt_eq_nil_iff.mpr fun c hc _ hcr => absurd (hcr ▸ hrest c hc) (not_le.mpr hr)
  rw [changesAt, changesAt, callsAt_append, hnil, List.append_nil]

theorem filter_atOrAbove_split {L : List R} (hL : L.Pairwise (· ≤ ·)) {last : Option R} {b : R}
    (hb : atOrAbove last b = true) :
    (L.filter (atOrAbove last)).filter (fun r => decide (r < b)) ++ L.filter (atOrAbove (some b)) =
      L.filter (atOrAbove last) := by
  conv_rhs => rw [← List.filter_lt_append_filter_le b (hL.filter (atOrAbove last))]
  congr 1
  rw [List.filter_filter]
  apply List.filter_congr
  intro r _
  by_cases hbr : b ≤ r
  · rw [atOrAbove_of_le hb hbr]
    simp [atOrAbove, hbr]
  · simp [atOrAbove, hbr]

section Drive

variable {keyFunc : R → K} (hinj : Function.Injective keyFunc) (lessThanFunc : K → K → Bool)
  (hless : ∀ a b, lessThanFunc (keyFunc a) (keyFunc b) = true ↔ a < b)

include hinj hless

/-- A watch loop over ordered bounds hands out, followed by what is left at its end, the
changes of all the calls at or above the bound it started from. The induction is on the
steps, with the calls so far `pre` and the last bound `last`: the change set holds the calls
so far at or above it. -/
theorem Tracks.drive :
    ∀ (steps : List (WatchStep R)) (pre : List (ChangeCall R)) (last : Option R)
      (ch : Changes R K),
      Tracks content keyFunc (pre.filter fun c => atOrAbove last c.rev) ch →
      boundsOrdered last steps = true → (∀ c ∈ WatchStep.callsOf steps, c.valid) →
      ∃ ch' out, ch.drive lessThanFunc steps = .ok (ch', out) ∧
        out ++ ch'.asRevisionChanges lessThanFunc =
          ((revisionsOf content (pre ++ WatchStep.callsOf steps)).filter (atOrAbove last)).map
            (changesAt content (pre ++ WatchStep.callsOf steps))
  | [], pre, last, ch, h, _, _ => by
    refine ⟨ch, [], rfl, ?_⟩
    rw [List.nil_append, Changes.asRevisionChanges, h.revisionChanges_filter lessThanFunc hless,
      WatchStep.callsOf, List.append_nil]
    simp
  | .call c :: steps, pre, last, ch, h, hord, hvalid => by
    simp only [boundsOrdered, Bool.and_eq_true] at hord
    have happly : ch.apply c = ((ch.apply c).1, none) :=
      Prod.ext rfl (Changes.apply_snd_of_valid ch (hvalid c List.mem_cons_self))
    -- the call is at or above the last bound, so the change set holds it
    have h' : Tracks content keyFunc ((pre ++ [c]).filter fun c => atOrAbove last c.rev)
        (ch.apply c).1 := by
      rw [List.filter_append, List.filter_singleton, hord.1]
      exact h.apply hinj c
    obtain ⟨ch', out, hdrive, hout⟩ := Tracks.drive steps (pre ++ [c]) last _ h' hord.2
      fun c' hc' => hvalid c' (List.mem_cons_of_mem c hc')
    refine ⟨ch', out, ?_, ?_⟩
    · rw [Changes.drive, happly]
      exact hdrive
    · rw [hout, WatchStep.callsOf, List.append_assoc, List.singleton_append]
  | .filterAndRemove b :: steps, pre, last, ch, h, hord, hvalid => by
    simp only [boundsOrdered, Bool.and_eq_true] at hord
    -- what is left is the calls so far at or above the new bound
    have h' : Tracks content keyFunc (pre.filter fun c => atOrAbove (some b) c.rev)
        (ch.removeAllChangesBefore b) := by
      have hrem := h.removeAllChangesBefore b
      rwa [List.filter_filter, List.filter_congr fun c _ => ?_] at hrem
      by_cases hbc : b ≤ c.rev
      · rw [atOrAbove_of_le hord.1 hbc]
        simp [atOrAbove, hbc]
      · simp [atOrAbove, hbc]
    obtain ⟨ch', out, hdrive, hout⟩ := Tracks.drive steps pre (some b) _ h' hord.2 hvalid
    have hrest : ∀ c ∈ WatchStep.callsOf steps, b ≤ c.rev := fun c hc => by
      simpa [atOrAbove] using atOrAbove_of_boundsOrdered steps (some b) hord.2 c hc
    refine ⟨ch', ch.revisionChanges lessThanFunc (some b) ++ out, ?_, ?_⟩
    · simp only [Changes.drive, Changes.filterAndRemoveRevisionChanges, hdrive]
      rfl
    · -- what is handed out now is below the new bound, where the later calls do not reach
      have hsorted : (revisionsOf content (pre ++ WatchStep.callsOf steps)).SortedLT :=
        sortedLT_revisionsOf _
      have hsplit := filter_atOrAbove_split hsorted.sortedLE.pairwise hord.1
      rw [List.append_assoc, hout, h.revisionChanges_filter lessThanFunc hless, WatchStep.callsOf,
        ← hsplit, List.map_append]
      simp only [Option.all_some]
      rw [revisionsOf_append_below hrest]
      congr 1
      apply List.map_congr_left
      intro r hr
      exact (changesAt_append_below hrest (by simpa using (List.mem_filter.mp hr).2)).symm

end Drive

end Watch

section Coalescing

variable {R K : Type _} [LinearOrder R] [DecidableEq K]

theorem changes_coalesce_in_revision_order (content : WatchContent) (keyFunc : R → K)
    (hinj : Function.Injective keyFunc) (lessThanFunc : K → K → Bool)
    (hless : ∀ a b, lessThanFunc (keyFunc a) (keyFunc b) = true ↔ a < b)
    (calls : List (ChangeCall R)) (hcalls : ∀ c ∈ calls, c.valid) :
    ∃ ch, (newChanges keyFunc content).run calls = .ok ch ∧
      ((ch.asRevisionChanges lessThanFunc).map (·.revision)).SortedLT ∧
      (∀ r, r ∈ (ch.asRevisionChanges lessThanFunc).map (·.revision) ↔
        ∃ c ∈ calls, c.watched content = true ∧ c.rev = r) ∧
      (∀ rc ∈ ch.asRevisionChanges lessThanFunc,
        Coalesced (callsAt content calls rc.revision) rc) ∧
      ∀ steps : List (WatchStep R), WatchStep.callsOf steps = calls →
        boundsOrdered none steps = true →
        ∃ ch' out, (newChanges keyFunc content).drive lessThanFunc steps = .ok (ch', out) ∧
          out ++ ch'.asRevisionChanges lessThanFunc = ch.asRevisionChanges lessThanFunc := by
  have h₀ : Tracks content keyFunc [] (newChanges keyFunc content) := tracks_newChanges
  have h := h₀.foldl_apply hinj calls
  rw [List.nil_append] at h
  -- the change set reads back as the records of the tracked revisions, in order
  have hout : (calls.foldl (fun ch c => (ch.apply c).1) (newChanges keyFunc content)).asRevisionChanges
      lessThanFunc = (revisionsOf content calls).map (changesAt content calls) := by
    rw [Changes.asRevisionChanges, h.revisionChanges_eq lessThanFunc hless]
    simp
  have hrevs : ((revisionsOf content calls).map (changesAt content calls)).map (·.revision) =
      revisionsOf content calls := by
    rw [List.map_map]
    conv_rhs => rw [← List.map_id (revisionsOf content calls)]
    exact List.map_congr_left fun r _ => rev_recordOf r _
  refine ⟨_, Changes.run_of_valid _ calls hcalls, ?_, ?_, ?_, ?_⟩
  · rw [hout, hrevs]
    exact sortedLT_revisionsOf calls
  · intro r
    rw [hout, hrevs, mem_revisionsOf]
  · intro rc hrc
    rw [hout, List.mem_map] at hrc
    obtain ⟨r, -, rfl⟩ := hrc
    rw [show (changesAt content calls r).revision = r from rev_recordOf r _]
    exact coalesced_recordOf r _
  · -- the loop over the steps hands out, with what it leaves, the one read at the end
    intro steps hsteps hord
    obtain ⟨ch', out, hdrive, hout'⟩ := Tracks.drive hinj lessThanFunc hless steps [] none _
      tracks_newChanges hord (hsteps ▸ hcalls)
    refine ⟨ch', out, hdrive, ?_⟩
    rw [hout', hout, List.nil_append, hsteps,
      List.filter_eq_self.mpr fun r _ => (rfl : atOrAbove none r = true)]

theorem changes_coalesce_in_revision_order_at_touch_then_delete :
    let tpl : RelationTuple := ⟨⟨"document", "readme", "viewer"⟩, ⟨"user", "alice", "..."⟩, none⟩
    let calls : List (ChangeCall ℕ) := [.addRelationshipChange 2 tpl .TOUCH,
      .addRelationshipChange 1 tpl .DELETE, .addRelationshipChange 2 tpl .DELETE,
      .addDeletedNamespace 1 "folder"]
    Function.Injective (id : ℕ → ℕ) ∧ (∀ a b : ℕ, decide (id a < id b) = true ↔ a < b) ∧
      (∀ c ∈ calls, c.valid) ∧
      ∃ ch, (newChanges id 3).run calls = .ok ch ∧
        ((ch.asRevisionChanges fun a b => decide (a < b)).map (·.revision)).SortedLT ∧
        ∀ rc ∈ ch.asRevisionChanges fun a b => decide (a < b),
          Coalesced (callsAt 3 calls rc.revision) rc := by
  intro tpl calls
  have hinj : Function.Injective (id : ℕ → ℕ) := Function.injective_id
  have hless : ∀ a b : ℕ, decide (id a < id b) = true ↔ a < b := fun a b => by simp
  have hcalls : ∀ c ∈ calls, c.valid := by decide
  obtain ⟨ch, hrun, hsorted, -, hcoalesced, -⟩ :=
    changes_coalesce_in_revision_order 3 id hinj (fun a b => decide (a < b)) hless calls hcalls
  exact ⟨hinj, hless, hcalls, ch, hrun, hsorted, hcoalesced⟩

end Coalescing

end SpiceDB.Datastore.Common
