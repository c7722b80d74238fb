import Mathlib.Data.List.AList
import SpiceDB.Caveats.Builder
import SpiceDB.Core.Tuple
import SpiceDB.Core.Dispatch
import SpiceDB.Lib.AList

namespace SpiceDB.Graph

open Caveats

/-- `CheckResultsMap`: the caveat expression of each resource id found. -/
abbrev CheckResultsMap := AList fun _ : String => Option CaveatExpression

/-- The membership `AsCheckResultsMap` gives an expression. -/
def membershipOf : Option CaveatExpression → Membership
  | none => .MEMBER
  | some _ => .CAVEATED_MEMBER

structure MembershipSet where
  membersByID : AList fun _ : String => Option CaveatExpression
  hasDeterminedMember : Bool

def newMembershipSet : MembershipSet := ⟨∅, false⟩

namespace MembershipSet

/-- `addMember`: a determined member stays so, a new determined member is recorded as such,
and two caveats of one resource are joined by `Or`. -/
def addMember (ms : MembershipSet) (resourceId : String) (caveatExpr : Option CaveatExpression) :
    MembershipSet :=
  match ms.membersByID.lookup resourceId with
  | none => ⟨ms.membersByID.insert resourceId caveatExpr, ms.hasDeterminedMember || caveatExpr.isNone⟩
  | some none => ms
  | some (some existing) =>
    match caveatExpr with
    | none => ⟨ms.membersByID.insert resourceId none, true⟩
    | some _ => { ms with membersByID := ms.membersByID.insert resourceId (caveatOr (some existing) caveatExpr) }

def addDirectMember (ms : MembershipSet) (resourceId : String) (caveat : Option ContextualizedCaveat) :
    MembershipSet :=
  ms.addMember resourceId (wrapCaveat caveat)

/-- `AddMemberViaRelationship`: the caveat of the relationship followed, and that of the
result it led to. -/
def addMemberViaRelationship (ms : MembershipSet) (resourceId : String)
    (resourceCaveatExpression : Option CaveatExpression) (parentRelationship : RelationTuple) : MembershipSet :=
  ms.addMember resourceId (caveatAnd (wrapCaveat parentRelationship.caveat) resourceCaveatExpression)

def unionWith (ms : MembershipSet) (resultsMap : CheckResultsMap) : MembershipSet :=
  resultsMap.entries.foldl (fun ms entry => ms.addMember entry.1 entry.2) ms

/-- `IntersectWith`: the members not in the results are dropped, and the caveats of the others
are joined by `And`. -/
def intersectWith (ms : MembershipSet) (resultsMap : CheckResultsMap) : MembershipSet :=
  let kept : AList fun _ : String => Option CaveatExpression :=
    ⟨ms.membersByID.entries.filter fun entry => entry.1 ∈ resultsMap,
      ms.membersByID.nodupKeys.sublist List.filter_sublist⟩
  resultsMap.entries.foldl (fun (ms : MembershipSet) entry =>
    match ms.membersByID.lookup entry.1 with
    | none => ms
    | some existing =>
      if existing.isNone ∧ entry.2.isNone then { ms with hasDeterminedMember := true }
      else { ms with membersByID := ms.membersByID.insert entry.1 (caveatAnd existing entry.2) })
    ⟨kept, false⟩

/-- `Subtract`: a member found without caveat in the results is removed, one found with a
caveat keeps the negation of it. -/
def subtract (ms : MembershipSet) (resultsMap : CheckResultsMap) : MembershipSet :=
  ms.membersByID.entries.foldl (fun (acc : MembershipSet) entry =>
    match resultsMap.lookup entry.1 with
    | some none => { acc with membersByID := acc.membersByID.erase entry.1 }
    | some (some details) =>
      { acc with membersByID := acc.membersByID.insert entry.1 (caveatSub entry.2 (some details)) }
    | none => if entry.2.isNone then { acc with hasDeterminedMember := true } else acc)
    { ms with hasDeterminedMember := false }

def hasConcreteResourceId (ms : MembershipSet) (resourceId : String) : Bool :=
  ms.membersByID.lookup resourceId = some none

def isEmpty (ms : MembershipSet) : Bool :=
  ms.membersByID.entries.isEmpty

def asCheckResultsMap (ms : MembershipSet) : CheckResultsMap :=
  ms.membersByID

/-- `IntersectWith` keeps a member exactly when the results have it, under both caveats. -/
theorem lookup_intersectWith (ms : MembershipSet) (resultsMap : CheckResultsMap) (resourceId : String) :
    (ms.intersectWith resultsMap).membersByID.lookup resourceId =
      match resultsMap.lookup resourceId with
      | some details => (ms.membersByID.lookup resourceId).map fun existing => caveatAnd existing details
      | none => none := by
  -- the loop touches only the map, and at each step only the key it visits
  let step := fun (m : AList fun _ : String => Option CaveatExpression) (entry : Σ _ : String, Option CaveatExpression) =>
    match m.lookup entry.1 with
    | none => m
    | some existing =>
      if existing.isNone ∧ entry.2.isNone then m else m.insert entry.1 (caveatAnd existing entry.2)
  let kept : AList fun _ : String => Option CaveatExpression :=
    ⟨ms.membersByID.entries.filter fun entry => entry.1 ∈ resultsMap,
      ms.membersByID.nodupKeys.sublist List.filter_sublist⟩
  have hloop : (ms.intersectWith resultsMap).membersByID = resultsMap.entries.foldl step kept := by
    refine (List.foldl_hom MembershipSet.membersByID fun (x : MembershipSet) entry => ?_).symm
    simp only [step]
    split <;> [rfl; split <;> rfl]
  have hkept : kept.lookup resourceId =
      if resourceId ∈ resultsMap then ms.membersByID.lookup resourceId else none := by
    simpa using AList.lookup_filter_key ms.membersByID (fun k => decide (k ∈ resultsMap)) resourceId
  rw [hloop, AList.lookup_foldl_local step (fun entry old => old.map fun existing => caveatAnd existing entry.2)
    resultsMap.entries resultsMap.nodupKeys ?self ?other kept resourceId]
  · cases hresult : resultsMap.lookup resourceId with
    | none =>
      have hnot : resourceId ∉ resultsMap := by simpa [AList.lookup_eq_none] using hresult
      simp [AList.lookup] at hresult
      simp [hresult, hkept, hnot]
    | some details =>
      have hmem : resourceId ∈ resultsMap := AList.lookup_isSome.1 (by simp [hresult])
      simp only [AList.lookup] at hresult
      simp [hresult, hkept, hmem]
  case self =>
    intro entry _ m
    simp only [step]
    cases hm : m.lookup entry.1 with
    | none => simp [hm]
    | some existing =>
      by_cases hnone : existing.isNone ∧ entry.2.isNone
      · obtain ⟨hexisting, hentry⟩ := hnone
        simp [Option.isNone_iff_eq_none.1 hexisting, Option.isNone_iff_eq_none.1 hentry, hm, caveatAnd]
      · have hcaveated : ¬(existing = none ∧ entry.2 = none) := by simpa using hnone
        simp [hcaveated, AList.lookup_insert]
  case other =>
    intro entry _ m a ha
    simp only [step]
    split
    · rfl
    · split
      · rfl
      · exact AList.lookup_insert_ne ha

end MembershipSet

/-- Whether the results have `resourceId` under a caveat that holds in `v`. -/
def isMember (v : Valuation) (members : CheckResultsMap) (resourceId : String) : Bool :=
  (members.lookup resourceId).any (evalCaveat v)

namespace MembershipSet

/-- The flag says whether some resource is a member without caveat. -/
def DeterminedFlag (ms : MembershipSet) : Prop :=
  ms.hasDeterminedMember = true ↔ ∃ resourceId, ms.membersByID.lookup resourceId = some none

theorem lookup_addMember_ne (ms : MembershipSet) {resourceId a : String}
    (caveatExpr : Option CaveatExpression) (ha : a ≠ resourceId) :
    (ms.addMember resourceId caveatExpr).membersByID.lookup a = ms.membersByID.lookup a := by
  unfold addMember
  split
  · exact AList.lookup_insert_ne ha
  · rfl
  · split
    · exact AList.lookup_insert_ne ha
    · exact AList.lookup_insert_ne ha

theorem isMember_addMember_self (v : Valuation) (ms : MembershipSet) (resourceId : String)
    (caveatExpr : Option CaveatExpression) :
    isMember v (ms.addMember resourceId caveatExpr).membersByID resourceId =
      (isMember v ms.membersByID resourceId || evalCaveat v caveatExpr) := by
  unfold addMember isMember
  cases hexisting : ms.membersByID.lookup resourceId with
  | none => simp [AList.lookup_insert]
  | some existing =>
    cases existing with
    | none => simp [hexisting]
    | some existing =>
      cases caveatExpr with
      | none => simp [AList.lookup_insert]
      | some added => simp [AList.lookup_insert, evalCaveat_caveatOr_some]

theorem isMember_addMember (v : Valuation) (ms : MembershipSet) (resourceId : String)
    (caveatExpr : Option CaveatExpression) (a : String) :
    isMember v (ms.addMember resourceId caveatExpr).membersByID a =
      (isMember v ms.membersByID a || (decide (resourceId = a) && evalCaveat v caveatExpr)) := by
  by_cases ha : resourceId = a
  · subst ha
    simp [isMember_addMember_self]
  · simp only [isMember, lookup_addMember_ne ms caveatExpr (Ne.symm ha), ha, decide_false,
      Bool.false_and, Bool.or_false]

theorem exists_lookup_insert_eq_none_iff (m : CheckResultsMap) (resourceId : String)
    (c : Option CaveatExpression) :
    (∃ a, (m.insert resourceId c).lookup a = some none) ↔
      c = none ∨ ∃ a, a ≠ resourceId ∧ m.lookup a = some none := by
  constructor
  · rintro ⟨a, ha⟩
    by_cases h : a = resourceId
    · subst h
      rw [AList.lookup_insert] at ha
      exact .inl (Option.some.inj ha)
    · exact .inr ⟨a, h, by rwa [AList.lookup_insert_ne h] at ha⟩
  · rintro (rfl | ⟨a, h, ha⟩)
    · exact ⟨resourceId, AList.lookup_insert _⟩
    · exact ⟨a, by rwa [AList.lookup_insert_ne h]⟩

theorem exists_lookup_eq_none_iff_ne {m : CheckResultsMap} {resourceId : String}
    (h : m.lookup resourceId ≠ some none) :
    (∃ a, m.lookup a = some none) ↔ ∃ a, a ≠ resourceId ∧ m.lookup a = some none :=
  ⟨fun ⟨a, ha⟩ => ⟨a, fun hr => h (hr ▸ ha), ha⟩, fun ⟨a, _, ha⟩ => ⟨a, ha⟩⟩

theorem DeterminedFlag.addMember {ms : MembershipSet} (h : ms.DeterminedFlag) (resourceId : String)
    (caveatExpr : Option CaveatExpression) : (ms.addMember resourceId caveatExpr).DeterminedFlag := by
  unfold DeterminedFlag at h ⊢
  unfold MembershipSet.addMember
  cases hexisting : ms.membersByID.lookup resourceId with
  | none =>
    -- a new resource: the flag is raised when it comes without caveat
    have hold := exists_lookup_eq_none_iff_ne
      (show ms.membersByID.lookup resourceId ≠ some none by rw [hexisting]; simp)
    simp only [Bool.or_eq_true, exists_lookup_insert_eq_none_iff, h, hold,
      Option.isNone_iff_eq_none]
    exact or_comm
  | some existing =>
    cases existing with
    | none => exact h
    | some existing =>
      have hold := exists_lookup_eq_none_iff_ne
        (show ms.membersByID.lookup resourceId ≠ some none by rw [hexisting]; simp)
      cases caveatExpr with
      | none =>
        simp only [exists_lookup_insert_eq_none_iff, true_or]
      | some added =>
        -- two caveats join into a caveat, so the flag stands as it was
        have hjoined : caveatOr (some existing) (some added) ≠ none := by
          simp [← Option.isSome_iff_ne_none]
        simp only [exists_lookup_insert_eq_none_iff, hjoined, false_or, h, hold]

theorem isMember_foldl_addMember (v : Valuation) (a : String) :
    ∀ (l : List (Σ _ : String, Option CaveatExpression)) (ms : MembershipSet),
      isMember v (l.foldl (fun ms entry => ms.addMember entry.1 entry.2) ms).membersByID a =
        (isMember v ms.membersByID a || l.any fun entry => decide (entry.1 = a) && evalCaveat v entry.2)
  | [], ms => by simp
  | entry :: l, ms => by
    rw [List.foldl_cons, isMember_foldl_addMember v a l, isMember_addMember, List.any_cons, Bool.or_assoc]

theorem isMember_unionWith (v : Valuation) (ms : MembershipSet) (resultsMap : CheckResultsMap) (a : String) :
    isMember v (ms.unionWith resultsMap).membersByID a =
      (isMember v ms.membersByID a || isMember v resultsMap a) := by
  rw [unionWith, isMember_foldl_addMember, AList.any_entries_eq_lookup]
  rfl

theorem DeterminedFlag.unionWith {ms : MembershipSet} (h : ms.DeterminedFlag) (resultsMap : CheckResultsMap) :
    (ms.unionWith resultsMap).DeterminedFlag := by
  unfold MembershipSet.unionWith
  exact List.foldlRecOn (motive := DeterminedFlag) _ _ h fun ms hms entry _ => hms.addMember entry.1 entry.2

theorem isMember_intersectWith (v : Valuation) (ms : MembershipSet) (resultsMap : CheckResultsMap)
    (a : String) :
    isMember v (ms.intersectWith resultsMap).membersByID a =
      (isMember v ms.membersByID a && isMember v resultsMap a) := by
  simp only [isMember, lookup_intersectWith]
  cases resultsMap.lookup a with
  | none => simp
  | some details =>
    cases ms.membersByID.lookup a with
    | none => simp
    | some existing => simp

/-- `IntersectWith` raises the flag where both sides have a resource without caveat, and
leaves it down otherwise. -/
theorem determinedFlag_intersectWith (ms : MembershipSet) (resultsMap : CheckResultsMap) :
    (ms.intersectWith resultsMap).DeterminedFlag := by
  have hflag : (ms.intersectWith resultsMap).hasDeterminedMember =
      resultsMap.entries.any fun entry =>
        decide (ms.membersByID.lookup entry.1 = some none) && entry.2.isNone := by
    unfold intersectWith
    rw [AList.foldl_flag_local MembershipSet.membersByID MembershipSet.hasDeterminedMember _
      (fun entry found => decide (found = some none) && entry.2.isNone) resultsMap.entries
      resultsMap.nodupKeys ?other ?flag]
    · -- the loop starts from the members the results have, and visits only those
      rw [Bool.false_or]
      apply Bool.eq_iff_iff.mpr
      simp only [List.any_eq_true]
      refine exists_congr fun entry => and_congr_right fun hentry => ?_
      have hmem : entry.1 ∈ resultsMap := AList.mem_keys.mpr (List.mem_keys_of_mem hentry)
      have hkept := AList.lookup_filter_key ms.membersByID (fun k => decide (k ∈ resultsMap)) entry.1
      simp only [hmem, decide_true, if_true] at hkept
      simp [hkept]
    case other =>
      intro entry _ s a ha
      split
      · rfl
      · split
        · rfl
        · exact AList.lookup_insert_ne ha
    case flag =>
      intro entry _ s
      split
      · rename_i hnone
        simp [hnone]
      · rename_i existing hexisting
        split
        · rename_i hboth
          simp [hexisting, Option.isNone_iff_eq_none.mp hboth.1, hboth.2]
        · rename_i hboth
          simp only [hexisting, Option.some.injEq]
          simp only [Option.isNone_iff_eq_none] at hboth
          by_cases hnone : existing = none
          · have hentry : entry.2 ≠ none := fun h => hboth ⟨hnone, h⟩
            simp [hnone, Option.isNone_iff_eq_none, hentry]
          · simp [hnone]
  unfold DeterminedFlag
  rw [hflag, List.any_eq_true]
  constructor
  · rintro ⟨⟨a, details⟩, hentry, hboth⟩
    simp only [Bool.and_eq_true, decide_eq_true_eq, Option.isNone_iff_eq_none] at hboth
    refine ⟨a, ?_⟩
    rw [lookup_intersectWith, AList.mem_lookup_iff.mpr hentry]
    simp [hboth.1, hboth.2, caveatAnd]
  · rintro ⟨a, ha⟩
    rw [lookup_intersectWith] at ha
    cases hresult : resultsMap.lookup a with
    | none => simp [hresult] at ha
    | some details =>
      rw [hresult] at ha
      obtain ⟨existing, hexisting, hand⟩ := Option.map_eq_some_iff.1 ha
      obtain ⟨rfl, rfl⟩ := caveatAnd_eq_none.1 hand
      exact ⟨⟨a, none⟩, AList.mem_lookup_iff.mp hresult, by simp [hexisting]⟩

/-- `Subtract` removes a member the results have without caveat, conjoins the negation of
the results' caveat otherwise, and keeps a member the results lack. -/
theorem lookup_subtract (ms : MembershipSet) (resultsMap : CheckResultsMap) (a : String) :
    (ms.subtract resultsMap).membersByID.lookup a =
      match ms.membersByID.lookup a with
      | none => none
      | some existing =>
        match resultsMap.lookup a with
        | some none => none
        | some (some details) => some (caveatSub existing (some details))
        | none => some existing := by
  -- the loop touches only the map, and at each step only the member it visits
  let step := fun (m : CheckResultsMap) (entry : Σ _ : String, Option CaveatExpression) =>
    match resultsMap.lookup entry.1 with
    | some none => m.erase entry.1
    | some (some details) => m.insert entry.1 (caveatSub entry.2 (some details))
    | none => m
  have hloop : (ms.subtract resultsMap).membersByID =
      ms.membersByID.entries.foldl step ms.membersByID := by
    refine (List.foldl_hom MembershipSet.membersByID fun (x : MembershipSet) entry => ?_).symm
    simp only [step]
    split <;> [rfl; rfl; split <;> rfl]
  rw [hloop, AList.lookup_foldl_local step (fun entry old =>
      match resultsMap.lookup entry.1 with
      | some none => none
      | some (some details) => some (caveatSub entry.2 (some details))
      | none => old) ms.membersByID.entries ms.membersByID.nodupKeys ?self ?other]
  · rw [show ms.membersByID.entries.dlookup a = ms.membersByID.lookup a from rfl]
    cases hms : ms.membersByID.lookup a with
    | none => rfl
    | some existing => rfl
  case self =>
    intro entry _ m
    simp only [step]
    split
    · exact AList.lookup_erase _ _
    · exact AList.lookup_insert _
    · rfl
  case other =>
    intro entry _ m a ha
    simp only [step]
    split
    · exact AList.lookup_erase_ne ha
    · exact AList.lookup_insert_ne ha
    · rfl

theorem isMember_subtract (v : Valuation) (ms : MembershipSet) (resultsMap : CheckResultsMap) (a : String) :
    isMember v (ms.subtract resultsMap).membersByID a =
      (isMember v ms.membersByID a && !isMember v resultsMap a) := by
  simp only [isMember, lookup_subtract]
  cases ms.membersByID.lookup a with
  | none => rfl
  | some existing =>
    cases resultsMap.lookup a with
    | none => simp
    | some details =>
      cases details with
      | none => simp
      | some details => simp

/-- `Subtract` raises the flag for a member without caveat that the results lack, and leaves
it down otherwise. -/
theorem determinedFlag_subtract (ms : MembershipSet) (resultsMap : CheckResultsMap) :
    (ms.subtract resultsMap).DeterminedFlag := by
  have hflag : (ms.subtract resultsMap).hasDeterminedMember =
      ms.membersByID.entries.any fun entry => (resultsMap.lookup entry.1).isNone && entry.2.isNone := by
    unfold subtract
    rw [AList.foldl_flag_local MembershipSet.membersByID MembershipSet.hasDeterminedMember _
      (fun entry _ => (resultsMap.lookup entry.1).isNone && entry.2.isNone) ms.membersByID.entries
      ms.membersByID.nodupKeys ?other ?flag]
    · exact Bool.false_or _
    case other =>
      intro entry _ s a ha
      split
      · exact AList.lookup_erase_ne ha
      · exact AList.lookup_insert_ne ha
      · split <;> rfl
    case flag =>
      intro entry _ s
      split
      · rename_i hresult
        simp [hresult]
      · rename_i hresult
        simp [hresult]
      · rename_i hresult
        split
        · rename_i hnone
          simp [hresult, hnone]
        · rename_i hnone
          simp [hresult, hnone]
  unfold DeterminedFlag
  rw [hflag, List.any_eq_true]
  constructor
  · rintro ⟨⟨a, existing⟩, hentry, hboth⟩
    simp only [Bool.and_eq_true, Option.isNone_iff_eq_none] at hboth
    obtain ⟨hresult, rfl⟩ := hboth
    exact ⟨a, by rw [lookup_subtract, AList.mem_lookup_iff.mpr hentry, hresult]⟩
  · rintro ⟨a, ha⟩
    rw [lookup_subtract] at ha
    cases hms : ms.membersByID.lookup a with
    | none => simp [hms] at ha
    | some existing =>
      rw [hms] at ha
      -- a negated caveat is a caveat, so only a member the results lack stays without one
      cases hresult : resultsMap.lookup a with
      | none =>
        rw [hresult] at ha
        refine ⟨⟨a, existing⟩, AList.mem_lookup_iff.mp hms, ?_⟩
        simp [hresult, Option.some.inj ha]
      | some details =>
        rw [hresult] at ha
        cases details with
        | none => cases ha
        | some details => cases existing <;> simp [caveatSub, caveatInvert] at ha

end MembershipSet

/-- The calls that make up a membership set's life. -/
inductive MembershipOp where
  | addDirectMember (resourceId : String) (caveat : Option ContextualizedCaveat)
  | addMemberViaRelationship (resourceId : String) (resourceCaveatExpression : Option CaveatExpression)
      (parentRelationship : RelationTuple)
  | unionWith (resultsMap : CheckResultsMap)
  | intersectWith (resultsMap : CheckResultsMap)
  | subtract (resultsMap : CheckResultsMap)

/-- A call made on a set. -/
def MembershipOp.apply (ms : MembershipSet) : MembershipOp → MembershipSet
  | .addDirectMember resourceId caveat => ms.addDirectMember resourceId caveat
  | .addMemberViaRelationship resourceId resourceCaveatExpression parentRelationship =>
    ms.addMemberViaRelationship resourceId resourceCaveatExpression parentRelationship
  | .unionWith resultsMap => ms.unionWith resultsMap
  | .intersectWith resultsMap => ms.intersectWith resultsMap
  | .subtract resultsMap => ms.subtract resultsMap

namespace MembershipSet

theorem determinedFlag_newMembershipSet : newMembershipSet.DeterminedFlag := by
  simp [DeterminedFlag, newMembershipSet, AList.lookup_empty]

theorem DeterminedFlag.apply {ms : MembershipSet} (h : ms.DeterminedFlag) :
    ∀ op : MembershipOp, (op.apply ms).DeterminedFlag
  | .addDirectMember resourceId _ => h.addMember resourceId _
  | .addMemberViaRelationship resourceId _ _ => h.addMember resourceId _
  | .unionWith resultsMap => h.unionWith resultsMap
  | .intersectWith resultsMap => determinedFlag_intersectWith ms resultsMap
  | .subtract resultsMap => determinedFlag_subtract ms resultsMap

theorem determinedFlag_run (ops : List MembershipOp) :
    (ops.foldl MembershipOp.apply newMembershipSet).DeterminedFlag :=
  List.foldlRecOn (motive := DeterminedFlag) ops _ determinedFlag_newMembershipSet
    fun _ hms op _ => hms.apply op

/-- Over every sequence of calls from `NewMembershipSet`, `hasDeterminedMember` says whether
some resource is a member without caveat; and for every set, union, intersection and
subtraction of results are `||`, `&&` and `&& !` of membership. -/
theorem membershipSet_flag_and_semantics :
    (∀ ops : List MembershipOp, (ops.foldl MembershipOp.apply newMembershipSet).DeterminedFlag) ∧
    ∀ (v : Valuation) (ms : MembershipSet) (resultsMap : CheckResultsMap) (resourceId : String),
      isMember v (ms.unionWith resultsMap).membersByID resourceId =
          (isMember v ms.membersByID resourceId || isMember v resultsMap resourceId) ∧
      isMember v (ms.intersectWith resultsMap).membersByID resourceId =
          (isMember v ms.membersByID resourceId && isMember v resultsMap resourceId) ∧
      isMember v (ms.subtract resultsMap).membersByID resourceId =
          (isMember v ms.membersByID resourceId && !isMember v resultsMap resourceId) :=
  ⟨determinedFlag_run, fun v ms resultsMap resourceId =>
    ⟨isMember_unionWith v ms resultsMap resourceId, isMember_intersectWith v ms resultsMap resourceId,
      isMember_subtract v ms resultsMap resourceId⟩⟩

end MembershipSet

/-- Every resource the results report, under a caveat that holds in `v`, has `P`. -/
def ResultsSound (v : Valuation) (P : String → Prop) (results : CheckResultsMap) : Prop :=
  ∀ resourceId caveatExpr, results.lookup resourceId = some caveatExpr →
    evalCaveat v caveatExpr = true → P resourceId

section Sound

variable {v : Valuation} {P Q : String → Prop}

theorem resultsSound_empty : ResultsSound v P ∅ := by
  intro resourceId caveatExpr h
  simp [AList.lookup_empty] at h

theorem ResultsSound.mono {results : CheckResultsMap} (himp : ∀ resourceId, P resourceId → Q resourceId)
    (h : ResultsSound v P results) : ResultsSound v Q results :=
  fun resourceId caveatExpr hlookup heval => himp resourceId (h resourceId caveatExpr hlookup heval)

theorem ResultsSound.of_mem {results : CheckResultsMap} (h : ResultsSound v P results)
    {entry : Σ _ : String, Option CaveatExpression} (hentry : entry ∈ results.entries)
    (heval : evalCaveat v entry.2 = true) : P entry.1 :=
  h entry.1 entry.2 (AList.mem_lookup_iff.2 hentry) heval

/-- Adding a member keeps the results sound when the new caveat implies the property. -/
theorem resultsSound_addMember {ms : MembershipSet} {resourceId : String} {caveatExpr : Option CaveatExpression}
    (hms : ResultsSound v P ms.membersByID) (hnew : evalCaveat v caveatExpr = true → P resourceId) :
    ResultsSound v P (ms.addMember resourceId caveatExpr).membersByID := by
  -- the entry of the resource is replaced, every other one kept
  have hinsert : ∀ e, (evalCaveat v e = true → P resourceId) →
      ResultsSound v P (ms.membersByID.insert resourceId e) := by
    intro e he a e' ha heval
    by_cases h : a = resourceId
    · subst h
      rw [AList.lookup_insert] at ha
      cases ha
      exact he heval
    · rw [AList.lookup_insert_ne h] at ha
      exact hms a e' ha heval
  unfold MembershipSet.addMember
  cases hexisting : ms.membersByID.lookup resourceId with
  | none => exact hinsert caveatExpr hnew
  | some existing =>
    cases existing with
    | none => exact hms
    | some existing =>
      cases caveatExpr with
      | none => exact hinsert none hnew
      | some added =>
        refine hinsert _ fun heval => ?_
        -- the joined caveat holds when the old one or the new one does
        rw [evalCaveat_caveatOr_some, Bool.or_eq_true] at heval
        rcases heval with hold | hadd
        · exact hms resourceId (some existing) hexisting hold
        · exact hnew hadd

theorem resultsSound_foldl_addMember {α : Type} (key : α → String) (expr : α → Option CaveatExpression)
    (l : List α) (hl : ∀ x ∈ l, evalCaveat v (expr x) = true → P (key x)) :
    ∀ ms : MembershipSet, ResultsSound v P ms.membersByID →
      ResultsSound v P (l.foldl (fun ms x => ms.addMember (key x) (expr x)) ms).membersByID := by
  intro ms hms
  exact List.foldlRecOn (motive := fun ms : MembershipSet => ResultsSound v P ms.membersByID) l _ hms
    fun ms hms x hx => resultsSound_addMember hms (hl x hx)

theorem resultsSound_unionWith {ms : MembershipSet} {results : CheckResultsMap}
    (hms : ResultsSound v P ms.membersByID) (hresults : ResultsSound v P results) :
    ResultsSound v P (ms.unionWith results).membersByID := by
  unfold MembershipSet.unionWith
  exact resultsSound_foldl_addMember (fun entry => entry.1) (fun entry => entry.2) results.entries
    (fun _ hentry heval => hresults.of_mem hentry heval) ms hms

theorem resultsSound_intersectWith {ms : MembershipSet} {results : CheckResultsMap}
    (hms : ResultsSound v P ms.membersByID) (hresults : ResultsSound v Q results) :
    ResultsSound v (fun resourceId => P resourceId ∧ Q resourceId) (ms.intersectWith results).membersByID := by
  intro resourceId caveatExpr hlookup heval
  rw [MembershipSet.lookup_intersectWith] at hlookup
  cases hdetails : results.lookup resourceId with
  | none => simp [hdetails] at hlookup
  | some details =>
    rw [hdetails] at hlookup
    obtain ⟨existing, hexisting, rfl⟩ := Option.map_eq_some_iff.1 hlookup
    rw [evalCaveat_caveatAnd, Bool.and_eq_true] at heval
    exact ⟨hms resourceId existing hexisting heval.1, hresults resourceId details hdetails heval.2⟩

end Sound

end SpiceDB.Graph
