import Mathlib.Data.List.AList
import Mathlib.Data.List.Sort
import SpiceDB.Lib.Cycle
import SpiceDB.Core.Schema

namespace SpiceDB.Namespace

/-- The maps `computePermissionAliases` keeps. -/
structure AliasState where
  aliases : AList fun _ : String => String
  done : List String
  unresolvedAliases : AList fun _ : String => String

/-- The target of a relation whose rewrite is a union of exactly one computed userset. -/
def aliasTarget (rel : Relation) : Option String :=
  match rel.usersetRewrite with
  | some (.union [.computedUserset relation]) => some relation
  | _ => none

/-- One relation of the first loop. -/
def recordRelation (ns : NamespaceDefinition) (state : AliasState) (rel : Relation) : AliasState :=
  match aliasTarget rel with
  | none => { state with done := rel.name :: state.done }
  | some aliasedPermOrRel =>
    -- an alias of a relation is resolved at once
    if !ns.isPermission aliasedPermOrRel then
      { state with done := rel.name :: state.done,
                   aliases := state.aliases.insert rel.name aliasedPermOrRel }
    else { state with unresolvedAliases := state.unresolvedAliases.insert rel.name aliasedPermOrRel }

/-- One unresolved alias of a round: resolved when its target is done. -/
def resolveAlias (state : AliasState) (relName aliasedPermission : String) : AliasState :=
  if aliasedPermission ∈ state.done then
    { aliases := state.aliases.insert relName ((state.aliases.lookup aliasedPermission).getD aliasedPermission),
      done := relName :: state.done,
      unresolvedAliases := state.unresolvedAliases.erase relName }
  else state

/-- One round of the second loop, visiting the unresolved aliases in the order `order` lists
them: Go ranges over the map in an order the runtime picks afresh for every round. -/
def resolveRound (order : List (Σ _ : String, String) → List (Σ _ : String, String)) (state : AliasState) :
    AliasState :=
  (order state.unresolvedAliases.entries).foldl (fun state entry => resolveAlias state entry.1 entry.2) state

def permissionsCycleErr (nsName : String) (permissionNames : List String) : String :=
  "under definition \x60" ++ nsName ++ "\x60, there exists a cycle in permissions: " ++
    ", ".intercalate permissionNames

/-- The second loop; every round but the last resolves an alias, so the number of unresolved
aliases bounds the rounds. -/
def resolveAliases (order : List (Σ _ : String, String) → List (Σ _ : String, String)) (nsName : String) :
    ℕ → AliasState → Except String (AList fun _ : String => String)
  | 0, state => pure state.aliases
  | fuel + 1, state =>
    if state.unresolvedAliases.entries.isEmpty then pure state.aliases
    else
      let next := resolveRound order state
      if next.unresolvedAliases.entries.length = state.unresolvedAliases.entries.length then
        throw (permissionsCycleErr nsName (state.unresolvedAliases.keys.insertionSort (· ≤ ·)))
      else resolveAliases order nsName fuel next

/-- `computePermissionAliases`, its rounds visiting the unresolved aliases in the order `order`
lists them. -/
def computePermissionAliases (order : List (Σ _ : String, String) → List (Σ _ : String, String))
    (ns : NamespaceDefinition) : Except String (AList fun _ : String => String) :=
  let state := ns.relation.foldl (recordRelation ns) ⟨∅, [], ∅⟩
  resolveAliases order ns.name (state.unresolvedAliases.entries.length + 1) state

/-- The alias target of the relation named `p`, when it is an alias. -/
def targetOf (ns : NamespaceDefinition) (p : String) : Option String :=
  (ns.relation.find? (·.name = p)).bind aliasTarget

/-- `p` is an alias of the permission `q`: the aliases the rounds of the second loop resolve. -/
def AliasStep (ns : NamespaceDefinition) (p q : String) : Prop :=
  targetOf ns p = some q ∧ ns.isPermission q = true

/-- `v` ends the alias chain from `p`: the chain goes on through aliases of permissions, and ends
at the first target that is not a permission, or at a permission that is not an alias. -/
inductive ChainEnd (ns : NamespaceDefinition) : String → String → Prop where
  | relation {p q : String} : targetOf ns p = some q → ns.isPermission q = false → ChainEnd ns p q
  | permission {p q : String} : AliasStep ns p q → targetOf ns q = none → ChainEnd ns p q
  | step {p q v : String} : AliasStep ns p q → ChainEnd ns q v → ChainEnd ns p v

section Chains

variable {ns : NamespaceDefinition}

theorem AliasStep.target_eq {p q q' : String} (h : AliasStep ns p q) (h' : targetOf ns p = some q') :
    q' = q := by
  rw [h.1] at h'
  exact (Option.some.inj h').symm

theorem ChainEnd.exists_target {p v : String} : ChainEnd ns p v → ∃ t, targetOf ns p = some t
  | .relation h _ => ⟨_, h⟩
  | .permission h _ => ⟨_, h.1⟩
  | .step h _ => ⟨_, h.1⟩

/-- A chain has one end. -/
theorem ChainEnd.unique {p v w : String} (hv : ChainEnd ns p v) (hw : ChainEnd ns p w) : v = w := by
  induction hv generalizing w with
  | relation htarget hperm =>
    cases hw with
    | relation htarget' _ => exact Option.some.inj (htarget.symm.trans htarget')
    | permission hstep _ | step hstep _ =>
      obtain rfl := hstep.target_eq htarget
      simp [hstep.2] at hperm
  | permission hstep hnone =>
    cases hw with
    | relation htarget' hperm' =>
      obtain rfl := hstep.target_eq htarget'
      simp [hstep.2] at hperm'
    | permission hstep' _ => exact (hstep.target_eq hstep'.1).symm
    | step hstep' hrest =>
      obtain rfl := hstep.target_eq hstep'.1
      obtain ⟨t, ht⟩ := hrest.exists_target
      simp [hnone] at ht
  | step hstep hrest ih =>
    cases hw with
    | relation htarget' hperm' =>
      obtain rfl := hstep.target_eq htarget'
      simp [hstep.2] at hperm'
    | permission hstep' hnone =>
      obtain rfl := hstep.target_eq hstep'.1
      obtain ⟨t, ht⟩ := hrest.exists_target
      simp [hnone] at ht
    | step hstep' hrest' =>
      obtain rfl := hstep.target_eq hstep'.1
      exact ih hrest'

theorem ChainEnd.end_plain {p v : String} (h : ChainEnd ns p v) :
    ns.isPermission v = false ∨ targetOf ns v = none := by
  induction h with
  | relation _ hperm => exact .inl hperm
  | permission _ hnone => exact .inr hnone
  | step _ _ ih => exact ih

theorem mem_names_of_targetOf {p t : String} (h : targetOf ns p = some t) :
    p ∈ ns.relation.map (·.name) := by
  obtain ⟨rel, hfind, -⟩ := Option.bind_eq_some_iff.1 h
  exact List.mem_map.2 ⟨rel, List.mem_of_find?_eq_some hfind, by simpa using List.find?_some hfind⟩

theorem mem_names_of_isPermission {q : String} (h : ns.isPermission q = true) :
    q ∈ ns.relation.map (·.name) := by
  unfold NamespaceDefinition.isPermission at h
  cases hfind : ns.relation.find? (·.name = q) with
  | none => simp [hfind] at h
  | some rel =>
    exact List.mem_map.2 ⟨rel, List.mem_of_find?_eq_some hfind, by simpa using List.find?_some hfind⟩

end Chains

/-- What holds of the maps once the first loop is over, and after every alias resolved: the
unresolved aliases are those of permissions not done, every relation is done or one of them,
and the aliases recorded are the ends of the chains of the relations done, which all end. -/
structure AliasState.Inv (ns : NamespaceDefinition) (state : AliasState) : Prop where
  unresolved : ∀ p q, state.unresolvedAliases.lookup p = some q ↔ AliasStep ns p q ∧ p ∉ state.done
  placed : ∀ p ∈ ns.relation.map (·.name), p ∈ state.done ∨ ∃ q, AliasStep ns p q
  aliases : ∀ p v, state.aliases.lookup p = some v ↔ p ∈ state.done ∧ ChainEnd ns p v
  resolved : ∀ p ∈ state.done, ∀ t, targetOf ns p = some t → ∃ v, ChainEnd ns p v
  ends : ∀ p ∈ state.done, Acc (flip (AliasStep ns)) p

section Resolve

variable {ns : NamespaceDefinition} {state : AliasState}

/-- Resolving an unresolved alias keeps the invariant. -/
theorem AliasState.Inv.resolveAlias {p q : String} (hinv : state.Inv ns)
    (hlookup : state.unresolvedAliases.lookup p = some q) : (resolveAlias state p q).Inv ns := by
  obtain ⟨hstep, hnotdone⟩ := (hinv.unresolved p q).1 hlookup
  unfold SpiceDB.Namespace.resolveAlias
  split_ifs with hq
  swap
  · exact hinv
  -- the alias recorded for `p` ends its chain
  have hend : ∀ v, ChainEnd ns p v ↔ v = (state.aliases.lookup q).getD q := by
    cases hq' : state.aliases.lookup q with
    | some w =>
      have hw := ((hinv.aliases q w).1 hq').2
      intro v
      exact ⟨fun h => h.unique (.step hstep hw), fun h => h ▸ .step hstep hw⟩
    | none =>
      have hnone : targetOf ns q = none := by
        cases ht : targetOf ns q with
        | none => rfl
        | some t =>
          obtain ⟨v, hv⟩ := hinv.resolved q hq t ht
          rw [(hinv.aliases q v).2 ⟨hq, hv⟩] at hq'
          cases hq'
      intro v
      exact ⟨fun h => h.unique (.permission hstep hnone), fun h => h ▸ .permission hstep hnone⟩
  refine ⟨fun p' q' => ?_, fun p' hp' => ?_, fun p' v => ?_, fun p' hp' t ht => ?_, fun p' hp' => ?_⟩
  · by_cases hp : p' = p
    · subst hp
      simp [AList.lookup_erase]
    · rw [AList.lookup_erase_ne hp, hinv.unresolved, List.mem_cons, or_iff_right hp]
  · rcases hinv.placed p' hp' with hdone | hmore
    · exact .inl (List.mem_cons_of_mem _ hdone)
    · exact .inr hmore
  · by_cases hp : p' = p
    · subst hp
      rw [AList.lookup_insert, Option.some.injEq, hend]
      simp [eq_comm]
    · rw [AList.lookup_insert_ne hp, hinv.aliases, List.mem_cons, or_iff_right hp]
  · rcases List.mem_cons.1 hp' with rfl | hdone
    · exact ⟨_, (hend _).2 rfl⟩
    · exact hinv.resolved p' hdone t ht
  · rcases List.mem_cons.1 hp' with rfl | hdone
    · -- `p` steps only to `q`, which is done
      refine Acc.intro _ fun y hy => ?_
      obtain rfl := hstep.target_eq hy.1
      exact hinv.ends _ hq
    · exact hinv.ends p' hdone

theorem lookup_resolveAlias_ne {p q p' : String} (hp : p' ≠ p) :
    (resolveAlias state p q).unresolvedAliases.lookup p' = state.unresolvedAliases.lookup p' := by
  unfold SpiceDB.Namespace.resolveAlias
  split_ifs
  · exact AList.lookup_erase_ne hp
  · rfl

theorem AliasState.Inv.foldl_resolveAlias :
    ∀ (entries : List (Σ _ : String, String)) (state : AliasState), state.Inv ns →
      entries.NodupKeys → (∀ e ∈ entries, state.unresolvedAliases.lookup e.1 = some e.2) →
      (entries.foldl (fun state entry => SpiceDB.Namespace.resolveAlias state entry.1 entry.2)
        state).Inv ns
  | [], _, hinv, _, _ => hinv
  | e :: entries, state, hinv, hnodup, hlookup => by
    rw [List.nodupKeys_cons] at hnodup
    refine AliasState.Inv.foldl_resolveAlias entries _
      (hinv.resolveAlias (hlookup e (by simp))) hnodup.2 fun e' he' => ?_
    have hne : e'.1 ≠ e.1 := fun h => hnodup.1 (h ▸ List.mem_keys_of_mem he')
    rw [lookup_resolveAlias_ne hne]
    exact hlookup e' (List.mem_cons_of_mem _ he')

theorem length_resolveAlias_le (p q : String) :
    (resolveAlias state p q).unresolvedAliases.entries.length ≤
      state.unresolvedAliases.entries.length := by
  unfold SpiceDB.Namespace.resolveAlias
  split_ifs
  · show (state.unresolvedAliases.erase p).entries.length ≤ _
    have h := congrArg List.length (AList.keys_erase p state.unresolvedAliases)
    have hle := List.length_erase_le (l := state.unresolvedAliases.keys) (a := p)
    simp only [AList.keys, List.keys, List.length_map] at h hle
    omega
  · exact le_rfl

theorem length_foldl_resolveAlias_le :
    ∀ (entries : List (Σ _ : String, String)) (state : AliasState),
      (entries.foldl (fun state entry => resolveAlias state entry.1 entry.2) state).unresolvedAliases.entries.length ≤
        state.unresolvedAliases.entries.length
  | [], _ => le_rfl
  | e :: entries, _ =>
    (length_foldl_resolveAlias_le entries _).trans (length_resolveAlias_le e.1 e.2)

/-- A round that leaves as many unresolved aliases as it found resolved none: no target of an
entry was done. -/
theorem not_done_of_length_foldl_resolveAlias :
    ∀ (entries : List (Σ _ : String, String)) (state : AliasState),
      (∀ e ∈ entries, state.unresolvedAliases.lookup e.1 = some e.2) →
      (entries.foldl (fun state entry => resolveAlias state entry.1 entry.2) state).unresolvedAliases.entries.length =
        state.unresolvedAliases.entries.length →
      ∀ e ∈ entries, e.2 ∉ state.done
  | [], _, _, _ => by simp
  | e :: entries, state, hlookup, hlength => by
    have he := hlookup e (by simp)
    have hkey : e.1 ∈ state.unresolvedAliases.keys :=
      AList.mem_keys.1 (AList.lookup_isSome.1 (by rw [he]; rfl))
    by_cases hdone : e.2 ∈ state.done
    · -- resolving `e` leaves fewer aliases, and the rest of the round none more
      exfalso
      have hlt : (resolveAlias state e.1 e.2).unresolvedAliases.entries.length <
          state.unresolvedAliases.entries.length := by
        unfold SpiceDB.Namespace.resolveAlias
        rw [if_pos hdone]
        show (state.unresolvedAliases.erase e.1).entries.length < _
        have h := congrArg List.length (AList.keys_erase e.1 state.unresolvedAliases)
        rw [List.length_erase_of_mem hkey] at h
        have hpos := List.length_pos_of_mem hkey
        simp only [AList.keys, List.keys, List.length_map] at h hpos
        omega
      have := length_foldl_resolveAlias_le entries (resolveAlias state e.1 e.2)
      rw [List.foldl_cons] at hlength
      omega
    · have hsame : resolveAlias state e.1 e.2 = state := by
        unfold SpiceDB.Namespace.resolveAlias
        rw [if_neg hdone]
      rw [List.foldl_cons, hsame] at hlength
      intro e' he'
      rcases List.mem_cons.1 he' with rfl | he'
      · exact hdone
      · exact not_done_of_length_foldl_resolveAlias entries state
          (fun e'' he'' => hlookup e'' (List.mem_cons_of_mem _ he'')) hlength e' he'

theorem AliasState.Inv.not_acc_of_stuck (hinv : state.Inv ns)
    (hstuck : ∀ p q, state.unresolvedAliases.lookup p = some q → q ∉ state.done) {p : String}
    (hacc : Acc (flip (AliasStep ns)) p) : ∀ q, state.unresolvedAliases.lookup p = some q → False := by
  induction hacc with
  | intro p _ ih =>
    intro q hp
    have hstep := ((hinv.unresolved p q).1 hp).1
    have hq := hstuck p q hp
    obtain hdone | ⟨r, hqr⟩ := hinv.placed q (mem_names_of_isPermission hstep.2)
    · exact hq hdone
    · exact ih q hstep r ((hinv.unresolved q r).2 ⟨hqr, hq⟩)

/-- The aliases a round that resolves nothing leaves unresolved are the relations whose alias
chain never ends. -/
theorem AliasState.Inv.mem_keys_of_stuck (hinv : state.Inv ns)
    (hstuck : ∀ p q, state.unresolvedAliases.lookup p = some q → q ∉ state.done) (p : String) :
    p ∈ state.unresolvedAliases.keys ↔ p ∈ ns.relation.map (·.name) ∧ ¬Acc (flip (AliasStep ns)) p := by
  constructor
  · intro hp
    obtain ⟨q, hq⟩ := Option.isSome_iff_exists.1 (AList.lookup_isSome.2 (AList.mem_keys.2 hp))
    exact ⟨mem_names_of_targetOf ((hinv.unresolved p q).1 hq).1.1,
      fun hacc => hinv.not_acc_of_stuck hstuck hacc q hq⟩
  · rintro ⟨hname, hacc⟩
    have hnotdone : p ∉ state.done := fun hdone => hacc (hinv.ends p hdone)
    obtain hdone | ⟨q, hstep⟩ := hinv.placed p hname
    · exact absurd hdone hnotdone
    · refine AList.mem_keys.1 (AList.lookup_isSome.1 ?_)
      rw [(hinv.unresolved p q).2 ⟨hstep, hnotdone⟩]
      rfl

/-- The second loop from a state of the invariant, with a round of fuel for each unresolved
alias and one more, and rounds in any order: it reports a cycle of aliases of permissions,
naming in order the relations whose alias chain never ends, or ends with every alias
resolved. -/
theorem resolveAliases_spec {order : List (Σ _ : String, String) → List (Σ _ : String, String)}
    (horder : ∀ entries, (order entries).Perm entries) (name : String) :
    ∀ (fuel : ℕ) (state : AliasState), state.Inv ns →
      state.unresolvedAliases.entries.length < fuel →
      (∃ keys, resolveAliases order name fuel state = .error (permissionsCycleErr name keys) ∧
          (∃ p, Relation.TransGen (AliasStep ns) p p) ∧ keys.Pairwise (· < ·) ∧
          ∀ p, p ∈ keys ↔ p ∈ ns.relation.map (·.name) ∧ ¬Acc (flip (AliasStep ns)) p) ∨
        ∃ final : AliasState, final.Inv ns ∧ final.unresolvedAliases.entries = [] ∧
          resolveAliases order name fuel state = .ok final.aliases
  | 0, _, _, hfuel => absurd hfuel (Nat.not_lt_zero _)
  | fuel + 1, state, hinv, hfuel => by
    rw [resolveAliases]
    by_cases hempty : state.unresolvedAliases.entries.isEmpty
    · exact .inr ⟨state, hinv, List.isEmpty_iff.1 hempty, by rw [if_pos hempty]; rfl⟩
    rw [if_neg hempty]
    -- the round visits each unresolved alias once, in its own order
    have hlookup : ∀ e ∈ order state.unresolvedAliases.entries,
        state.unresolvedAliases.lookup e.1 = some e.2 :=
      fun e he => AList.mem_lookup_iff.2 ((horder _).mem_iff.1 he)
    have hnext : (resolveRound order state).Inv ns :=
      hinv.foldl_resolveAlias _ state ((List.perm_nodupKeys (horder _)).2 state.unresolvedAliases.nodupKeys)
        hlookup
    by_cases hstuck : (resolveRound order state).unresolvedAliases.entries.length =
        state.unresolvedAliases.entries.length
    · -- a round resolved nothing: the unresolved aliases never leave themselves
      rw [if_pos hstuck]
      have hnotdone := not_done_of_length_foldl_resolveAlias _ state hlookup hstuck
      have hstuck' : ∀ p q, state.unresolvedAliases.lookup p = some q → q ∉ state.done :=
        fun p q hq => hnotdone ⟨p, q⟩ ((horder _).mem_iff.2 (AList.mem_lookup_iff.1 hq))
      refine .inl ⟨_, rfl, ?_, ?_, fun p => by rw [List.mem_insertionSort]; exact hinv.mem_keys_of_stuck hstuck' p⟩
      · refine Cycles.exists_transGen_self_of_closed (l := state.unresolvedAliases.keys)
          (fun h => hempty (by simpa [AList.keys, List.keys] using h)) fun p hp => ?_
        obtain ⟨q, hq⟩ := Option.isSome_iff_exists.1 (AList.lookup_isSome.2 (AList.mem_keys.2 hp))
        have hstep := ((hinv.unresolved p q).1 hq).1
        have hq' : q ∉ state.done := hstuck' p q hq
        obtain hdone | ⟨r, hqr⟩ := hinv.placed q (mem_names_of_isPermission hstep.2)
        · exact absurd hdone hq'
        · refine ⟨q, AList.mem_keys.1 (AList.lookup_isSome.1 ?_), hstep⟩
          rw [(hinv.unresolved q r).2 ⟨hqr, hq'⟩]
          rfl
      · -- sorted, and without repeats as the keys of a map
        have hnodup : (state.unresolvedAliases.keys.insertionSort (· ≤ ·)).Nodup :=
          (List.perm_insertionSort _ _).nodup_iff.2 (AList.keys_nodup _)
        exact ((List.pairwise_insertionSort _ _).and hnodup).imp fun h => lt_of_le_of_ne h.1 h.2
    · rw [if_neg hstuck]
      have hlt : (resolveRound order state).unresolvedAliases.entries.length <
          state.unresolvedAliases.entries.length :=
        lt_of_le_of_ne (length_foldl_resolveAlias_le _ state) hstuck
      exact resolveAliases_spec horder name fuel (resolveRound order state) hnext (by omega)

end Resolve

section Record

variable {ns : NamespaceDefinition}

/-- What the first loop has done after the relations `pre`: the aliases of permissions among
them are unresolved, the others done, and the aliases of what is not a permission recorded. -/
structure RecordInv (ns : NamespaceDefinition) (pre : List Relation) (state : AliasState) : Prop where
  unresolved : ∀ p q, state.unresolvedAliases.lookup p = some q ↔
    p ∈ pre.map (·.name) ∧ AliasStep ns p q
  done : ∀ p, p ∈ state.done ↔ p ∈ pre.map (·.name) ∧ ¬∃ q, AliasStep ns p q
  aliases : ∀ p v, state.aliases.lookup p = some v ↔
    p ∈ pre.map (·.name) ∧ targetOf ns p = some v ∧ ns.isPermission v = false

theorem find?_name_of_mem : ∀ {l : List Relation} {rel : Relation}, (l.map (·.name)).Nodup →
    rel ∈ l → l.find? (·.name = rel.name) = some rel
  | [], _, _, hrel => absurd hrel List.not_mem_nil
  | r :: l, rel, hnodup, hrel => by
    rw [List.map_cons, List.nodup_cons] at hnodup
    rcases List.mem_cons.1 hrel with rfl | hrel
    · exact List.find?_cons_of_pos (by simp)
    · have hne : r.name ≠ rel.name := fun h => hnodup.1 (h ▸ List.mem_map_of_mem hrel)
      rw [List.find?_cons_of_neg (by simpa using hne)]
      exact find?_name_of_mem hnodup.2 hrel

theorem targetOf_of_mem (hnames : (ns.relation.map (·.name)).Nodup) {rel : Relation}
    (hrel : rel ∈ ns.relation) : targetOf ns rel.name = aliasTarget rel := by
  rw [targetOf, find?_name_of_mem hnames hrel, Option.bind_some]

theorem mem_names_append {pre : List Relation} {rel : Relation} {p : String} :
    p ∈ (pre ++ [rel]).map (·.name) ↔ p ∈ pre.map (·.name) ∨ p = rel.name := by
  simp [eq_comm]

/-- The first loop's step on a relation not met before keeps its invariant. -/
theorem RecordInv.recordRelation (hnames : (ns.relation.map (·.name)).Nodup) {pre : List Relation}
    {state : AliasState} {rel : Relation} (hrel : rel ∈ ns.relation)
    (hfresh : rel.name ∉ pre.map (·.name)) (hinv : RecordInv ns pre state) :
    RecordInv ns (pre ++ [rel]) (SpiceDB.Namespace.recordRelation ns state rel) := by
  have htarget := targetOf_of_mem hnames hrel
  have hstep : ∀ q, AliasStep ns rel.name q ↔ aliasTarget rel = some q ∧ ns.isPermission q = true :=
    fun q => by rw [AliasStep, htarget]
  -- the lookups and memberships of the other relations are those of the invariant
  have hunres : state.unresolvedAliases.lookup rel.name = none := by
    cases h : state.unresolvedAliases.lookup rel.name with
    | none => rfl
    | some q => exact absurd ((hinv.unresolved _ q).1 h).1 hfresh
  have hnotdone : rel.name ∉ state.done := fun h => hfresh ((hinv.done _).1 h).1
  have hnoalias : state.aliases.lookup rel.name = none := by
    cases h : state.aliases.lookup rel.name with
    | none => rfl
    | some v => exact absurd ((hinv.aliases _ v).1 h).1 hfresh
  unfold SpiceDB.Namespace.recordRelation
  cases h : aliasTarget rel with
  | none =>
    have hno : ∀ q, ¬AliasStep ns rel.name q := fun q hq => by simp [(hstep q).1 hq |>.1] at h
    refine ⟨fun p q => ?_, fun p => ?_, fun p v => ?_⟩
    · by_cases hp : p = rel.name
      · subst hp
        simp [hunres, hno]
      · simp [hinv.unresolved, hp]
    · by_cases hp : p = rel.name
      · subst hp
        simp [hno]
      · simp [hinv.done, hp]
    · by_cases hp : p = rel.name
      · subst hp
        simp [hnoalias, htarget, h]
      · simp [hinv.aliases, hp]
  | some t =>
    by_cases hperm : ns.isPermission t = true
    · -- an alias of a permission waits for the rounds
      have hyes : AliasStep ns rel.name t := (hstep t).2 ⟨h, hperm⟩
      refine ⟨fun p q => ?_, fun p => ?_, fun p v => ?_⟩ <;> simp only [hperm, Bool.not_true,
        Bool.false_eq_true, if_false]
      · by_cases hp : p = rel.name
        · subst hp
          rw [AList.lookup_insert, Option.some.injEq]
          exact ⟨fun hq => ⟨mem_names_append.2 (.inr rfl), hq ▸ hyes⟩,
            fun ⟨_, hq⟩ => (hyes.target_eq hq.1).symm⟩
        · rw [AList.lookup_insert_ne hp, hinv.unresolved]
          simp [hp]
      · by_cases hp : p = rel.name
        · subst hp
          simp only [hnotdone, false_iff, not_and, not_not]
          exact fun _ => ⟨t, hyes⟩
        · simp [hinv.done, hp]
      · by_cases hp : p = rel.name
        · subst hp
          simp only [hnoalias, htarget, h, reduceCtorEq, false_iff, not_and, Option.some.injEq]
          rintro _ rfl
          simp [hperm]
        · simp [hinv.aliases, hp]
    · -- an alias of what is not a permission is resolved at once
      have hno : ∀ q, ¬AliasStep ns rel.name q := fun q hq => by
        obtain ⟨hq, hq'⟩ := (hstep q).1 hq
        rw [h, Option.some.injEq] at hq
        subst hq
        exact hperm hq'
      refine ⟨fun p q => ?_, fun p => ?_, fun p v => ?_⟩ <;> simp only [hperm, Bool.not_false,
        if_true]
      · by_cases hp : p = rel.name
        · subst hp
          simp [hunres, hno]
        · simp [hinv.unresolved, hp]
      · by_cases hp : p = rel.name
        · subst hp
          simp [hno]
        · simp [hinv.done, hp]
      · by_cases hp : p = rel.name
        · subst hp
          rw [AList.lookup_insert, Option.some.injEq, htarget, h, Option.some.injEq]
          exact ⟨fun hv => ⟨mem_names_append.2 (.inr rfl), hv, by simpa [hv] using hperm⟩,
            fun hv => hv.2.1⟩
        · rw [AList.lookup_insert_ne hp, hinv.aliases]
          simp [hp]

theorem RecordInv.nil : RecordInv ns [] ⟨∅, [], ∅⟩ :=
  ⟨by simp, by simp, by simp⟩

theorem RecordInv.foldl (hnames : (ns.relation.map (·.name)).Nodup) :
    ∀ (rest pre : List Relation) (state : AliasState), pre ++ rest = ns.relation →
      RecordInv ns pre state →
        RecordInv ns ns.relation (rest.foldl (SpiceDB.Namespace.recordRelation ns) state)
  | [], pre, state, hsplit, hinv => by
    rw [List.append_nil] at hsplit
    exact hsplit ▸ hinv
  | rel :: rest, pre, state, hsplit, hinv => by
    have hrel : rel ∈ ns.relation := hsplit ▸ List.mem_append_right _ List.mem_cons_self
    have hfresh : rel.name ∉ pre.map (·.name) := by
      rw [← hsplit, List.map_append, List.map_cons, List.nodup_append] at hnames
      exact fun h => hnames.2.2 _ h _ List.mem_cons_self rfl
    exact RecordInv.foldl hnames rest (pre ++ [rel]) _ (by simpa using hsplit)
      (hinv.recordRelation hnames hrel hfresh)

/-- Once every relation is recorded, the state is one of the second loop's invariant. -/
theorem RecordInv.inv {state : AliasState} (hinv : RecordInv ns ns.relation state) :
    state.Inv ns := by
  -- a relation is done when it has no alias step
  have hdone : ∀ p, p ∈ state.done ↔ p ∈ ns.relation.map (·.name) ∧ ¬∃ q, AliasStep ns p q :=
    hinv.done
  refine ⟨fun p q => ?_, fun p hp => ?_, fun p v => ?_, fun p hp t ht => ?_, fun p hp => ?_⟩
  · rw [hinv.unresolved, hdone]
    exact ⟨fun ⟨hp, hstep⟩ => ⟨hstep, fun h => h.2 ⟨q, hstep⟩⟩,
      fun ⟨hstep, _⟩ => ⟨mem_names_of_targetOf hstep.1, hstep⟩⟩
  · by_cases hstep : ∃ q, AliasStep ns p q
    · exact .inr hstep
    · exact .inl ((hdone p).2 ⟨hp, hstep⟩)
  · rw [hinv.aliases, hdone]
    constructor
    · rintro ⟨hp, htarget, hperm⟩
      refine ⟨⟨hp, fun ⟨q, hstep⟩ => ?_⟩, .relation htarget hperm⟩
      obtain rfl := hstep.target_eq htarget
      simp [hstep.2] at hperm
    · rintro ⟨⟨hp, hnostep⟩, hend⟩
      cases hend with
      | relation htarget hperm => exact ⟨hp, htarget, hperm⟩
      | permission hstep _ | step hstep _ => exact absurd ⟨_, hstep⟩ hnostep
  · have hnostep := ((hdone p).1 hp).2
    refine ⟨t, .relation ht ?_⟩
    cases hperm : ns.isPermission t with
    | false => rfl
    | true => exact absurd ⟨t, ht, hperm⟩ hnostep
  · have hnostep := ((hdone p).1 hp).2
    exact Acc.intro _ fun q hstep => absurd ⟨q, hstep⟩ hnostep

theorem inv_foldl_recordRelation (hnames : (ns.relation.map (·.name)).Nodup) :
    (ns.relation.foldl (recordRelation ns) ⟨∅, [], ∅⟩).Inv ns :=
  (RecordInv.foldl hnames ns.relation [] _ rfl RecordInv.nil).inv

end Record

section Resolved

variable {ns : NamespaceDefinition} {state : AliasState}

theorem AliasState.Inv.mem_done (hinv : state.Inv ns) (hempty : state.unresolvedAliases.entries = [])
    {p : String} (hp : p ∈ ns.relation.map (·.name)) : p ∈ state.done := by
  rcases hinv.placed p hp with hdone | ⟨q, hstep⟩
  · exact hdone
  · -- an alias of a permission not done would still be unresolved
    by_contra hnotdone
    have hlookup := (hinv.unresolved p q).2 ⟨hstep, hnotdone⟩
    simp [AList.lookup, hempty] at hlookup

theorem AliasState.Inv.not_transGen_self (hinv : state.Inv ns)
    (hempty : state.unresolvedAliases.entries = []) (p : String) :
    ¬Relation.TransGen (AliasStep ns) p p := by
  intro hcycle
  obtain ⟨q, hstep, -⟩ := Relation.TransGen.head'_iff.1 hcycle
  have hdone := hinv.mem_done hempty (mem_names_of_targetOf hstep.1)
  exact Cycles.not_transGen_self_of_acc (hinv.ends p hdone) hcycle

theorem AliasState.Inv.lookup_aliases (hinv : state.Inv ns)
    (hempty : state.unresolvedAliases.entries = []) (p v : String) :
    state.aliases.lookup p = some v ↔ ChainEnd ns p v := by
  rw [hinv.aliases]
  refine ⟨And.right, fun hend => ⟨hinv.mem_done hempty ?_, hend⟩⟩
  obtain ⟨t, ht⟩ := hend.exists_target
  exact mem_names_of_targetOf ht

end Resolved

theorem isPermission_of_targetOf {ns : NamespaceDefinition}
    (hkind : ∀ rel ∈ ns.relation, aliasTarget rel ≠ none → rel.kind = .PERMISSION)
    {p t : String} (h : targetOf ns p = some t) : ns.isPermission p = true := by
  obtain ⟨rel, hfind, htarget⟩ := Option.bind_eq_some_iff.1 h
  have hkind' := hkind rel (List.mem_of_find?_eq_some hfind) (by simp [htarget])
  simp [NamespaceDefinition.isPermission, hfind, hkind']

theorem computePermissionAliases_of_resolved {order : List (Σ _ : String, String) → List (Σ _ : String, String)}
    {ns : NamespaceDefinition} (h : (ns.relation.foldl (recordRelation ns) ⟨∅, [], ∅⟩).unresolvedAliases.entries = []) :
    computePermissionAliases order ns = .ok (ns.relation.foldl (recordRelation ns) ⟨∅, [], ∅⟩).aliases := by
  simp only [computePermissionAliases]
  rw [resolveAliases, if_pos (by rw [h]; rfl)]
  rfl

theorem lookup_computePermissionAliases {order : List (Σ _ : String, String) → List (Σ _ : String, String)}
    (horder : ∀ entries, (order entries).Perm entries) {ns : NamespaceDefinition}
    (hnames : (ns.relation.map (·.name)).Nodup) {aliases : AList fun _ : String => String}
    (haliases : computePermissionAliases order ns = .ok aliases) (p v : String) :
    aliases.lookup p = some v ↔ ChainEnd ns p v := by
  rcases resolveAliases_spec horder ns.name _ _ (inv_foldl_recordRelation hnames) (Nat.lt_succ_self _) with
    ⟨keys, herr, -⟩ | ⟨final, hinv, hempty, hfinal⟩
  · exact absurd (herr.symm.trans haliases) (by simp)
  · obtain rfl : final.aliases = aliases := by
      simpa [computePermissionAliases, hfinal] using haliases
    exact hinv.lookup_aliases hempty p v

theorem permission_aliases_resolve_chains (order : List (Σ _ : String, String) → List (Σ _ : String, String))
    (horder : ∀ entries, (order entries).Perm entries) (ns : NamespaceDefinition)
    (hnames : (ns.relation.map (·.name)).Nodup) :
    ((∃ keys, computePermissionAliases order ns = .error (permissionsCycleErr ns.name keys)) ↔
        ∃ p, Relation.TransGen (AliasStep ns) p p) ∧
      (∀ err, computePermissionAliases order ns = .error err → ∃ keys, err = permissionsCycleErr ns.name keys ∧
        keys.Pairwise (· < ·) ∧ ∀ p, p ∈ keys ↔ p ∈ ns.relation.map (·.name) ∧ ¬Acc (flip (AliasStep ns)) p) ∧
      (∀ aliases, computePermissionAliases order ns = .ok aliases →
        ∀ p v, aliases.lookup p = some v ↔ ChainEnd ns p v) ∧
      ((∀ rel ∈ ns.relation, aliasTarget rel ≠ none → rel.kind = .PERMISSION) →
        ∀ aliases, computePermissionAliases order ns = .ok aliases → ∀ p v, aliases.lookup p = some v →
          ns.isPermission p = true ∧ aliases.lookup v = none) := by
  have hspec := resolveAliases_spec horder ns.name _ _ (inv_foldl_recordRelation hnames)
    (Nat.lt_succ_self _)
  have hok : ∀ aliases, computePermissionAliases order ns = .ok aliases →
      ∀ p v, aliases.lookup p = some v ↔ ChainEnd ns p v :=
    fun _ haliases => lookup_computePermissionAliases horder hnames haliases
  refine ⟨⟨fun ⟨keys, herr⟩ => ?_, fun ⟨p, hcycle⟩ => ?_⟩, fun err herr => ?_, hok,
    fun hkind aliases haliases p v h => ?_⟩
  · rcases hspec with ⟨_, _, hcycle, -⟩ | ⟨final, _, _, hfinal⟩
    · exact hcycle
    · exact absurd (hfinal.symm.trans herr) (by simp)
  · rcases hspec with ⟨keys, herr, -⟩ | ⟨final, hinv, hempty, -⟩
    · exact ⟨keys, herr⟩
    · exact absurd hcycle (hinv.not_transGen_self hempty p)
  · rcases hspec with ⟨keys, herr', -, hsorted, hkeys⟩ | ⟨final, _, _, hfinal⟩
    · exact ⟨keys, Except.error.inj (herr.symm.trans herr'), hsorted, hkeys⟩
    · exact absurd (hfinal.symm.trans herr) (by simp)
  · have hend := (hok aliases haliases p v).1 h
    obtain ⟨t, ht⟩ := hend.exists_target
    refine ⟨isPermission_of_targetOf hkind ht, ?_⟩
    -- the end is not an alias: it is no permission, or has no target
    cases hv : aliases.lookup v with
    | none => rfl
    | some w =>
      obtain ⟨t', ht'⟩ := ((hok aliases haliases v w).1 hv).exists_target
      rcases hend.end_plain with hperm | hnone
      · simp [isPermission_of_targetOf hkind ht'] at hperm
      · simp [hnone] at ht'

theorem permission_aliases_resolve_chains_at_document :
    let document : NamespaceDefinition := ⟨"document", [⟨"viewer", none, some [], .RELATION, ""⟩,
      ⟨"view", some (.union [.computedUserset "viewer"]), none, .PERMISSION, ""⟩,
      ⟨"read", some (.union [.computedUserset "view"]), none, .PERMISSION, ""⟩]⟩
    (∀ entries : List (Σ _ : String, String), (id entries).Perm entries) ∧
      (document.relation.map (·.name)).Nodup ∧
      ∀ aliases, computePermissionAliases id document = .ok aliases →
        ∀ p v, aliases.lookup p = some v ↔ ChainEnd document p v := by
  intro document
  have hnames : (document.relation.map (·.name)).Nodup := by simp [document]
  exact ⟨fun _ => List.Perm.refl _, hnames,
    (permission_aliases_resolve_chains id (fun _ => List.Perm.refl _) document hnames).2.2.1⟩

/-- A namespace of relations of no kind, as one written before relations carried their kind,
has no permissions: every alias is resolved in the first loop, to its own target. In
`a = b`, `b = c` the alias of `a` is `b`, itself a key, and `a` is no permission. -/
theorem legacy_aliases_stop_after_one_step :
    let legacy : NamespaceDefinition := ⟨"legacy", [
      ⟨"a", some (.union [.computedUserset "b"]), none, .UNKNOWN_KIND, ""⟩,
      ⟨"b", some (.union [.computedUserset "c"]), none, .UNKNOWN_KIND, ""⟩,
      ⟨"c", none, some [], .UNKNOWN_KIND, ""⟩]⟩
    (∀ order : List (Σ _ : String, String) → List (Σ _ : String, String),
      (computePermissionAliases order legacy).map (fun aliases => (aliases.lookup "a", aliases.lookup "b")) =
        .ok (some "b", some "c")) ∧ legacy.isPermission "a" = false := by
  intro legacy
  refine ⟨fun order => ?_, by decide +kernel⟩
  -- the first loop resolves every alias, so no round runs
  rw [computePermissionAliases_of_resolved (by decide +kernel)]
  decide +kernel

end SpiceDB.Namespace
