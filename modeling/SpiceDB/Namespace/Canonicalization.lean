import SpiceDB.Lib.Bdd
import SpiceDB.Lib.Except
import SpiceDB.Lib.AList
import SpiceDB.Core.Tuple
import SpiceDB.Namespace.Aliasing

namespace SpiceDB.Namespace

open TruthTable

def computedKeyPrefix : String := "%"

/-- `bddVarMap`: the alias map, and the variable of each relation and arrow key. -/
structure BddVarMap where
  aliasMap : AList fun _ : String => String
  varMap : AList fun _ : String => ℕ

namespace BddVarMap

def getArrow (bvm : BddVarMap) (tuplesetName relName : String) : Except String ℕ :=
  let key := tuplesetName ++ "->" ++ relName
  match bvm.varMap.lookup key with
  | some index => pure index
  | none => throw (mustBugf ("missing arrow key " ++ key ++ " in varMap"))

/-- `Nil`: the variable after every relation and arrow. -/
def nil (bvm : BddVarMap) : ℕ := bvm.varMap.entries.length

/-- `Get` with a bound on the alias chain. The source recurses without one; a chain longer
than the alias map repeats an alias and never ends there, and fails here. -/
def getWithFuel (bvm : BddVarMap) : ℕ → String → Except String ℕ
  | 0, relName => throw ("alias chain of " ++ relName ++ " does not end")
  | fuel + 1, relName =>
    match bvm.aliasMap.lookup relName with
    | some aliased => bvm.getWithFuel fuel aliased
    | none =>
      match bvm.varMap.lookup relName with
      | some index => pure index
      | none => throw (mustBugf ("missing key " ++ relName ++ " in varMap"))

/-- `Get`: the variable of a relation, through its alias. -/
def get (bvm : BddVarMap) (relName : String) : Except String ℕ :=
  bvm.getWithFuel (bvm.aliasMap.entries.length + 1) relName

/-- `Len`: one variable more than the map, for `nil`. -/
def len (bvm : BddVarMap) : ℕ := bvm.varMap.entries.length + 1

end BddVarMap

mutual
/-- The arrow keys of a rewrite in the order `WalkRewrite` visits them. -/
def arrowKeys : UsersetRewrite → List String
  | .union child => arrowKeysAll child
  | .intersection child => arrowKeysAll child
  | .exclusion child => arrowKeysAll child

/-- The arrow keys of a list of children, each child before the rewrite under it. -/
def arrowKeysAll : List SetOperationChild → List String
  | [] => []
  | .tupleToUserset tupleset computed :: rest => (tupleset ++ "->" ++ computed) :: arrowKeysAll rest
  | .usersetRewrite rewrite :: rest => arrowKeys rewrite ++ arrowKeysAll rest
  | _ :: rest => arrowKeysAll rest
end

/-- An arrow key gets the next variable unless it has one. -/
def addArrowKey (varMap : AList fun _ : String => ℕ) (key : String) : AList fun _ : String => ℕ :=
  if key ∈ varMap then varMap else varMap.insert key varMap.entries.length

/-- `buildBddVarMap`: each relation that is not an alias gets the next variable (its name is
written over any earlier entry), then each new arrow key of its rewrite. -/
def buildBddVarMap (relations : List Relation) (aliasMap : AList fun _ : String => String) :
    BddVarMap :=
  let varMap := relations.foldl (fun varMap rel =>
    if rel.name ∈ aliasMap then varMap
    else
      let varMap := varMap.insert rel.name varMap.entries.length
      match rel.usersetRewrite with
      | none => varMap
      | some rewrite => (arrowKeys rewrite).foldl addArrowKey varMap) ∅
  ⟨aliasMap, varMap⟩

variable {Node : Type}

mutual
/-- `convertRewriteToBdd`, over the diagram `bdd` of the `rudd` library. -/
def convertRewriteToBdd (bdd : Bdd Node) (varMap : BddVarMap) : UsersetRewrite → Except String Node
  | .union child => convertToBdd bdd varMap bdd.or (fun _ varIndex => bdd.ithvar varIndex) 0 [] child
  | .intersection child => convertToBdd bdd varMap bdd.and (fun _ varIndex => bdd.ithvar varIndex) 0 [] child
  | .exclusion child =>
    convertToBdd bdd varMap bdd.and
      (fun childIndex varIndex => if childIndex = 0 then bdd.ithvar varIndex else bdd.nithvar varIndex)
      0 [] child

/-- The body of `convertToBdd`'s loop for one child. A nested rewrite is built on its own and
is not passed to the builder. -/
def convertChildToBdd (bdd : Bdd Node) (varMap : BddVarMap) (builder : ℕ → ℕ → Node)
    (index : ℕ) : SetOperationChild → Except String Node
  | .xThis => throw (mustBugf "use of _this is disallowed")
  | .computedUserset relation => do
    let cuIndex ← varMap.get relation
    pure (builder index cuIndex)
  | .usersetRewrite rewrite => convertRewriteToBdd bdd varMap rewrite
  | .tupleToUserset tupleset computed => do
    let arrowIndex ← varMap.getArrow tupleset computed
    pure (builder index arrowIndex)
  | .xNil => pure (builder index varMap.nil)

/-- `convertToBdd`: the loop over the children from `index` on, `values` holding the nodes of
the children before it. -/
def convertToBdd (bdd : Bdd Node) (varMap : BddVarMap) (combiner : List Node → Node)
    (builder : ℕ → ℕ → Node) (index : ℕ) (values : List Node) :
    List SetOperationChild → Except String Node
  | [] => pure (combiner values)
  | child :: rest => do
    let node ← convertChildToBdd bdd varMap builder index child
    convertToBdd bdd varMap combiner builder (index + 1) (values ++ [node]) rest
end

/-- The cache key of one relation in `computeCanonicalCacheKeys`' loop; `hexHash` is the FNV-64a
hash of the printed node, hex-encoded. -/
def cacheKeyOf (bdd : Bdd Node) (varMap : BddVarMap) (hexHash : String → String) (rel : Relation) :
    Except String String :=
  match rel.usersetRewrite with
  -- a relation without a rewrite is keyed by its name
  | none => pure rel.name
  | some rewrite => do
    let node ← convertRewriteToBdd bdd varMap rewrite
    pure (computedKeyPrefix ++ hexHash (bdd.print node))

/-- `computeCanonicalCacheKeys`; `newBdd` is `rudd.New`. -/
def computeCanonicalCacheKeys (ns : NamespaceDefinition) (aliasMap : AList fun _ : String => String)
    (newBdd : ℕ → Bdd Node) (hexHash : String → String) : Except String (AList fun _ : String => String) :=
  let varMap := buildBddVarMap ns.relation aliasMap
  if varMap.len = 0 then pure ∅
  else
    let bdd := newBdd varMap.len
    ns.relation.foldlM (fun cacheKeys rel => do
      let key ← cacheKeyOf bdd varMap hexHash rel
      pure (cacheKeys.insert rel.name key)) ∅

/-- The aliases and cache keys `AnnotateNamespace` records on a namespace's relations. -/
def annotateNamespace (order : List (Σ _ : String, String) → List (Σ _ : String, String))
    (ns : NamespaceDefinition) (newBdd : ℕ → Bdd Node) (hexHash : String → String) :
    Except String ((AList fun _ : String => String) × (AList fun _ : String => String)) := do
  let aliases ← computePermissionAliases order ns
  let cacheKeys ← computeCanonicalCacheKeys ns aliases newBdd hexHash
  pure (aliases, cacheKeys)

/-- The value of an atom when the diagram's variables have the values `v`: a relation or an
arrow reads its variable (and is false when it has none), `nil` reads the variable after
them. -/
def atomValue (varMap : BddVarMap) (v : ℕ → Bool) : Atom → Bool
  | .relation name =>
    match varMap.get name with
    | .ok index => v index
    | .error _ => false
  | .arrow tupleset computed =>
    match varMap.getArrow tupleset computed with
    | .ok index => v index
    | .error _ => false
  | .nil => v varMap.nil

mutual
/-- Every exclusion in the rewrite has only leaves after its first child. -/
def excludesLeaves : UsersetRewrite → Bool
  | .union child => excludesLeavesAll child
  | .intersection child => excludesLeavesAll child
  | .exclusion child => excludesLeavesAll child && (child.drop 1).all fun c => !c.isRewrite

/-- `excludesLeaves` of every nested rewrite among the children. -/
def excludesLeavesAll : List SetOperationChild → Bool
  | [] => true
  | .usersetRewrite rewrite :: rest => excludesLeaves rewrite && excludesLeavesAll rest
  | _ :: rest => excludesLeavesAll rest
end

section Meaning

variable {bdd : Bdd Node} {varnum : ℕ} {meaning : Node → (ℕ → Bool) → Bool} (varMap : BddVarMap)

/-- The function the loop builds for child `index` when the builder gives child `i` the value of
its variable through `sign i`: a nested rewrite is built on its own and does not go through the
sign. -/
def childMeaning (sign : ℕ → Bool → Bool) (index : ℕ) :
    SetOperationChild → (ℕ → Bool) → Bool
  | .usersetRewrite rewrite => fun v => rewrite.denote (atomValue varMap v)
  | child => fun v => sign index (child.denote (atomValue varMap v))

/-- Nested rewrites below some children convert to nodes that mean what they denote. -/
def RewritesConvert (bdd : Bdd Node) (varnum : ℕ) (meaning : Node → (ℕ → Bool) → Bool)
    (children : List SetOperationChild) : Prop :=
  ∀ rewrite, .usersetRewrite rewrite ∈ children → ∀ node,
    convertRewriteToBdd bdd varMap rewrite = .ok node →
      ∀ v, meaning node v = rewrite.denote (atomValue varMap (restrict varnum v))

/-- The builder gives child `i` a node meaning the value of its variable through `sign i`. -/
def BuilderMeans (meaning : Node → (ℕ → Bool) → Bool) (varnum : ℕ) (builder : ℕ → ℕ → Node)
    (sign : ℕ → Bool → Bool) : Prop :=
  ∀ childIndex varIndex v, meaning (builder childIndex varIndex) v = sign childIndex (restrict varnum v varIndex)

theorem RewritesConvert.cons_leaf {child : SetOperationChild} {rest : List SetOperationChild}
    (hleaf : child.isRewrite = false) (h : RewritesConvert varMap bdd varnum meaning rest) :
    RewritesConvert varMap bdd varnum meaning (child :: rest) := by
  intro rewrite hmem
  rcases List.mem_cons.1 hmem with heq | hmem
  · simp [← heq, SetOperationChild.isRewrite] at hleaf
  · exact h rewrite hmem

theorem unsigned_builderMeans (hbdd : bdd.Lawful varnum meaning) :
    BuilderMeans meaning varnum (fun _ varIndex => bdd.ithvar varIndex) fun _ b => b :=
  fun _ varIndex v => hbdd.meaning_ithvar varIndex v

theorem exclusion_builderMeans (hbdd : bdd.Lawful varnum meaning) :
    BuilderMeans meaning varnum
      (fun childIndex varIndex => if childIndex = 0 then bdd.ithvar varIndex else bdd.nithvar varIndex)
      fun childIndex b => if childIndex = 0 then b else !b := by
  intro childIndex varIndex v
  by_cases h : childIndex = 0 <;> simp [h, hbdd.meaning_ithvar, hbdd.meaning_nithvar]

/-- One child converts to a node meaning what the child stands for. -/
theorem convertChildToBdd_meaning {builder : ℕ → ℕ → Node} {sign : ℕ → Bool → Bool}
    (hbuilder : BuilderMeans meaning varnum builder sign) {index : ℕ} {child : SetOperationChild}
    {node : Node} (hrewrite : RewritesConvert varMap bdd varnum meaning [child])
    (h : convertChildToBdd bdd varMap builder index child = .ok node) (v : ℕ → Bool) :
    meaning node v = childMeaning varMap sign index child (restrict varnum v) := by
  cases child with
  | xThis => cases h
  | computedUserset relation =>
    obtain ⟨cuIndex, hget, hnode⟩ := Except.bind_eq_ok.1 h
    cases hnode
    simp [hbuilder index cuIndex v, childMeaning, SetOperationChild.denote, atomValue, hget]
  | tupleToUserset tupleset computed =>
    obtain ⟨arrowIndex, hget, hnode⟩ := Except.bind_eq_ok.1 h
    cases hnode
    simp [hbuilder index arrowIndex v, childMeaning, SetOperationChild.denote, atomValue, hget]
  | usersetRewrite rewrite => exact hrewrite rewrite List.mem_cons_self node h v
  | xNil =>
    cases h
    simp [hbuilder index varMap.nil v, childMeaning, SetOperationChild.denote, atomValue]

/-- The loop combines what its children's nodes mean. -/
theorem convertToBdd_meaning {combiner : List Node → Node} (combine : List Bool → Bool)
    (hcombiner : ∀ nodes v, meaning (combiner nodes) v = combine (nodes.map fun node => meaning node v))
    {builder : ℕ → ℕ → Node} {sign : ℕ → Bool → Bool} (hbuilder : BuilderMeans meaning varnum builder sign) :
    ∀ (children : List SetOperationChild) (index : ℕ) (values : List Node) (node : Node),
      RewritesConvert varMap bdd varnum meaning children →
      convertToBdd bdd varMap combiner builder index values children = .ok node → ∀ v,
      meaning node v = combine (values.map (fun node => meaning node v) ++
        (children.zipIdx index).map fun p => childMeaning varMap sign p.2 p.1 (restrict varnum v))
  | [], index, values, node, _, h, v => by
    cases h
    simp [hcombiner]
  | child :: rest, index, values, node, hrewrite, h, v => by
    obtain ⟨childNode, hchild, hrest⟩ := Except.bind_eq_ok.1 h
    have hhead := convertChildToBdd_meaning varMap hbuilder
      (fun rewrite hmem => hrewrite rewrite (by simp_all)) hchild v
    rw [convertToBdd_meaning combine hcombiner hbuilder rest (index + 1) _ node
      (fun rewrite hmem => hrewrite rewrite (List.mem_cons_of_mem child hmem)) hrest v]
    simp [hhead]

theorem map_childMeaning_unsigned (children : List SetOperationChild) (index : ℕ) (w : ℕ → Bool) :
    (children.zipIdx index).map (fun p => childMeaning varMap (fun _ b => b) p.2 p.1 w) =
      children.map fun child => child.denote (atomValue varMap w) := by
  induction children generalizing index with
  | nil => rfl
  | cons child rest ih =>
    rw [List.zipIdx_cons, List.map_cons, List.map_cons, ih (index + 1)]
    cases child <;> rfl

theorem map_childMeaning_excluded (children : List SetOperationChild) (index : ℕ) (w : ℕ → Bool)
    (hleaves : children.all fun c => !c.isRewrite) :
    (children.zipIdx (index + 1)).map
        (fun p => childMeaning varMap (fun i b => if i = 0 then b else !b) p.2 p.1 w) =
      children.map fun child => !child.denote (atomValue varMap w) := by
  induction children generalizing index with
  | nil => rfl
  | cons child rest ih =>
    simp only [List.all_cons, Bool.and_eq_true] at hleaves
    rw [List.zipIdx_cons, List.map_cons, List.map_cons, ih (index + 1) hleaves.2]
    cases child <;> simp_all [childMeaning, SetOperationChild.isRewrite]

mutual
/-- A rewrite whose exclusions exclude only leaves converts to a node meaning what the rewrite
denotes, its atoms read through the variable map. -/
theorem convertRewriteToBdd_meaning (hbdd : bdd.Lawful varnum meaning) :
    ∀ (rewrite : UsersetRewrite) (node : Node), excludesLeaves rewrite = true →
      convertRewriteToBdd bdd varMap rewrite = .ok node →
      ∀ v, meaning node v = rewrite.denote (atomValue varMap (restrict varnum v))
  | .union child, node, hleaves, h, v => by
    rw [convertRewriteToBdd] at h
    rw [convertToBdd_meaning varMap (fun bs => bs.any id) hbdd.meaning_or_map (unsigned_builderMeans hbdd) child 0 [] node
      (rewritesConvert_of_excludesLeavesAll hbdd child hleaves) h v, List.map_nil, List.nil_append,
      map_childMeaning_unsigned]
    simp [UsersetRewrite.denote, denoteAny_eq_any]
  | .intersection child, node, hleaves, h, v => by
    rw [convertRewriteToBdd] at h
    rw [convertToBdd_meaning varMap (fun bs => bs.all id) hbdd.meaning_and_map (unsigned_builderMeans hbdd) child 0 [] node
      (rewritesConvert_of_excludesLeavesAll hbdd child hleaves) h v, List.map_nil, List.nil_append,
      map_childMeaning_unsigned]
    simp [UsersetRewrite.denote, denoteAll_eq_all]
  | .exclusion child, node, hleaves, h, v => by
    simp only [excludesLeaves, Bool.and_eq_true] at hleaves
    rw [convertRewriteToBdd] at h
    rw [convertToBdd_meaning varMap (fun bs => bs.all id) hbdd.meaning_and_map (exclusion_builderMeans hbdd) child 0 [] node
      (rewritesConvert_of_excludesLeavesAll hbdd child hleaves.1) h v, List.map_nil, List.nil_append]
    cases child with
    | nil => simp [UsersetRewrite.denote]
    | cons first rest =>
      -- the first child is read as it is, every later one (a leaf) negated
      have hfirst : childMeaning varMap (fun i b => if i = 0 then b else !b) 0 first =
          fun w => first.denote (atomValue varMap w) := by
        cases first <;> rfl
      rw [List.zipIdx_cons, List.map_cons, map_childMeaning_excluded varMap rest 0 _ hleaves.2, hfirst]
      simp [UsersetRewrite.denote, denoteAny_eq_any, List.not_any_eq_all_not]

/-- Below children whose exclusions exclude only leaves, every nested rewrite converts to a node
meaning what it denotes. -/
theorem rewritesConvert_of_excludesLeavesAll (hbdd : bdd.Lawful varnum meaning) :
    ∀ (children : List SetOperationChild), excludesLeavesAll children = true →
      RewritesConvert varMap bdd varnum meaning children
  | [], _ => by simp [RewritesConvert]
  | .usersetRewrite rewrite :: rest, hleaves => by
    simp only [excludesLeavesAll, Bool.and_eq_true] at hleaves
    intro nested hmem node h
    rcases List.mem_cons.1 hmem with heq | hmem
    · have hsame : nested = rewrite := SetOperationChild.usersetRewrite.inj heq
      subst hsame
      exact convertRewriteToBdd_meaning hbdd nested node hleaves.1 h
    · exact rewritesConvert_of_excludesLeavesAll hbdd rest hleaves.2 nested hmem node h
  | .xThis :: rest, hleaves =>
    (rewritesConvert_of_excludesLeavesAll hbdd rest hleaves).cons_leaf varMap rfl
  | .computedUserset _ :: rest, hleaves =>
    (rewritesConvert_of_excludesLeavesAll hbdd rest hleaves).cons_leaf varMap rfl
  | .tupleToUserset _ _ :: rest, hleaves =>
    (rewritesConvert_of_excludesLeavesAll hbdd rest hleaves).cons_leaf varMap rfl
  | .xNil :: rest, hleaves =>
    (rewritesConvert_of_excludesLeavesAll hbdd rest hleaves).cons_leaf varMap rfl
end

end Meaning

theorem len_pos (varMap : BddVarMap) : 0 < varMap.len := Nat.succ_pos _

theorem computeCanonicalCacheKeys_ok (ns : NamespaceDefinition) (aliasMap : AList fun _ : String => String)
    (newBdd : ℕ → Bdd Node) (hexHash : String → String)
    (hkeys : ∀ rel ∈ ns.relation, ∃ key, cacheKeyOf (newBdd (buildBddVarMap ns.relation aliasMap).len)
      (buildBddVarMap ns.relation aliasMap) hexHash rel = .ok key) :
    ∃ keys, computeCanonicalCacheKeys ns aliasMap newBdd hexHash = .ok keys := by
  rw [computeCanonicalCacheKeys, if_neg (len_pos _).ne']
  exact AList.foldlM_insert_ok (·.name) _ ns.relation ∅ hkeys

theorem lookup_computeCanonicalCacheKeys {ns : NamespaceDefinition}
    {aliasMap : AList fun _ : String => String} {newBdd : ℕ → Bdd Node} {hexHash : String → String}
    {keys : AList fun _ : String => String} (hnames : (ns.relation.map (·.name)).Nodup)
    (h : computeCanonicalCacheKeys ns aliasMap newBdd hexHash = .ok keys) {rel : Relation}
    (hrel : rel ∈ ns.relation) :
    ∃ key, cacheKeyOf (newBdd (buildBddVarMap ns.relation aliasMap).len) (buildBddVarMap ns.relation aliasMap)
      hexHash rel = .ok key ∧ keys.lookup rel.name = some key := by
  rw [computeCanonicalCacheKeys, if_neg (len_pos _).ne'] at h
  exact AList.lookup_foldlM_insert (·.name) _ ns.relation ∅ keys hnames h rel hrel

theorem cacheKeyOf_some {bdd : Bdd Node} {varMap : BddVarMap} {hexHash : String → String} {rel : Relation}
    {rewrite : UsersetRewrite} {key : String} (hrewrite : rel.usersetRewrite = some rewrite)
    (h : cacheKeyOf bdd varMap hexHash rel = .ok key) :
    ∃ node, convertRewriteToBdd bdd varMap rewrite = .ok node ∧
      key = computedKeyPrefix ++ hexHash (bdd.print node) := by
  rw [cacheKeyOf, hrewrite] at h
  obtain ⟨node, hnode, hkey⟩ := Except.bind_eq_ok.1 h
  cases hkey
  exact ⟨node, hnode, rfl⟩

/-- Two permissions of a namespace with distinct relation names whose rewrites build the same
node share a key. -/
theorem lookup_computeCanonicalCacheKeys_eq {ns : NamespaceDefinition}
    {aliasMap : AList fun _ : String => String} {newBdd : ℕ → Bdd Node} {hexHash : String → String}
    {keys : AList fun _ : String => String} (hnames : (ns.relation.map (·.name)).Nodup)
    (h : computeCanonicalCacheKeys ns aliasMap newBdd hexHash = .ok keys) {p q : Relation}
    (hp : p ∈ ns.relation) (hq : q ∈ ns.relation) {rp rq : UsersetRewrite}
    (hrp : p.usersetRewrite = some rp) (hrq : q.usersetRewrite = some rq)
    (hsame : let varMap := buildBddVarMap ns.relation aliasMap
      convertRewriteToBdd (newBdd varMap.len) varMap rp = convertRewriteToBdd (newBdd varMap.len) varMap rq) :
    keys.lookup p.name = keys.lookup q.name := by
  obtain ⟨keyp, hkeyp, hlookupp⟩ := lookup_computeCanonicalCacheKeys hnames h hp
  obtain ⟨keyq, hkeyq, hlookupq⟩ := lookup_computeCanonicalCacheKeys hnames h hq
  obtain ⟨np, hconvp, rfl⟩ := cacheKeyOf_some hrp hkeyp
  obtain ⟨nq, hconvq, rfl⟩ := cacheKeyOf_some hrq hkeyq
  have hpq : np = nq := Except.ok.inj (hconvp.symm.trans (hsame.trans hconvq))
  rw [hlookupp, hlookupq, hpq]

/-- Canonical keys are sound and complete for permissions whose exclusions exclude only leaves,
over a diagram library whose printed nodes are canonical and a hash without collisions: two such
permissions of a namespace with distinct relation names share a key exactly when their rewrites
agree under every assignment of the diagram's variables, atoms read through the variable map. -/
theorem canonicalCacheKey_eq_iff {ns : NamespaceDefinition} {aliasMap : AList fun _ : String => String}
    {newBdd : ℕ → Bdd Node} {meaning : Node → (ℕ → Bool) → Bool} {hexHash : String → String}
    {keys : AList fun _ : String => String}
    (hbdd : (newBdd (buildBddVarMap ns.relation aliasMap).len).Lawful (buildBddVarMap ns.relation aliasMap).len
      meaning)
    (hhash : Function.Injective hexHash) (hnames : (ns.relation.map (·.name)).Nodup)
    (h : computeCanonicalCacheKeys ns aliasMap newBdd hexHash = .ok keys) {p q : Relation}
    (hp : p ∈ ns.relation) (hq : q ∈ ns.relation) {rp rq : UsersetRewrite}
    (hrp : p.usersetRewrite = some rp) (hrq : q.usersetRewrite = some rq)
    (hleavesp : excludesLeaves rp = true) (hleavesq : excludesLeaves rq = true) :
    let varMap := buildBddVarMap ns.relation aliasMap
    keys.lookup p.name = keys.lookup q.name ↔
      ∀ v, rp.denote (atomValue varMap (restrict varMap.len v)) = rq.denote (atomValue varMap (restrict varMap.len v)) := by
  intro varMap
  obtain ⟨keyp, hkeyp, hlookupp⟩ := lookup_computeCanonicalCacheKeys hnames h hp
  obtain ⟨keyq, hkeyq, hlookupq⟩ := lookup_computeCanonicalCacheKeys hnames h hq
  obtain ⟨np, hconvp, rfl⟩ := cacheKeyOf_some hrp hkeyp
  obtain ⟨nq, hconvq, rfl⟩ := cacheKeyOf_some hrq hkeyq
  have hmeaningp := convertRewriteToBdd_meaning varMap hbdd rp np hleavesp hconvp
  have hmeaningq := convertRewriteToBdd_meaning varMap hbdd rq nq hleavesq hconvq
  -- equal keys are equally printed nodes, which mean one function
  rw [hlookupp, hlookupq, Option.some_inj, String.append_right_inj, hhash.eq_iff, hbdd.print_eq_iff]
  simp only [hmeaningp, hmeaningq, restrict_restrict]
  exact Iff.rfl

/-- Over truth tables hashed as they are printed, `viewer + owner` and `owner + viewer` share a
key, as they denote one function. -/
theorem canonicalCacheKey_eq_iff_of_union_swapped :
    let userRelation := fun name => Relation.mk name none (some [⟨"user", .relation ellipsis, none⟩]) .RELATION ""
    let ns : NamespaceDefinition := ⟨"document", [userRelation "viewer", userRelation "owner",
      ⟨"p", some (.union [.computedUserset "viewer", .computedUserset "owner"]), none, .PERMISSION, ""⟩,
      ⟨"q", some (.union [.computedUserset "owner", .computedUserset "viewer"]), none, .PERMISSION, ""⟩]⟩
    ∃ keys, computeCanonicalCacheKeys ns ∅ Bdd.truthTables id = .ok keys ∧
      (keys.lookup "p" = keys.lookup "q" ↔ ∀ v,
        (UsersetRewrite.union [.computedUserset "viewer", .computedUserset "owner"]).denote
            (atomValue (buildBddVarMap ns.relation ∅) (restrict (buildBddVarMap ns.relation ∅).len v)) =
          (UsersetRewrite.union [.computedUserset "owner", .computedUserset "viewer"]).denote
            (atomValue (buildBddVarMap ns.relation ∅) (restrict (buildBddVarMap ns.relation ∅).len v))) := by
  intro userRelation ns
  obtain ⟨keys, hkeys⟩ := Except.isOk_iff.1
    (show (computeCanonicalCacheKeys ns ∅ Bdd.truthTables id).isOk = true by decide +kernel)
  exact ⟨keys, hkeys, canonicalCacheKey_eq_iff (Bdd.truthTables_lawful _) Function.injective_id
    (by decide +kernel) hkeys (show ns.relation[2] ∈ ns.relation by simp)
    (show ns.relation[3] ∈ ns.relation by simp) rfl rfl rfl rfl⟩

/-- An exclusion of a nested union is keyed as the intersection with it: its nested rewrite is
appended without being negated, so `viewer - (owner + editor)` and `viewer & (owner + editor)`
are built by the same calls of the diagram library, and get one canonical key whatever the
library and the hash, though they differ when `viewer` and `owner` hold and `editor` does not. -/
theorem canonicalCacheKeys_conflate_excluded_union
    (order : List (Σ _ : String, String) → List (Σ _ : String, String)) (newBdd : ℕ → Bdd Node)
    (hexHash : String → String) :
    let excludedUnion : UsersetRewrite := .exclusion [.computedUserset "viewer",
      .usersetRewrite (.union [.computedUserset "owner", .computedUserset "editor"])]
    let intersectedUnion : UsersetRewrite := .intersection [.computedUserset "viewer",
      .usersetRewrite (.union [.computedUserset "owner", .computedUserset "editor"])]
    let userRelation := fun name => Relation.mk name none (some [⟨"user", .relation ellipsis, none⟩]) .RELATION ""
    let ns : NamespaceDefinition := ⟨"document", [userRelation "viewer", userRelation "owner",
      userRelation "editor", ⟨"p", some excludedUnion, none, .PERMISSION, ""⟩,
      ⟨"q", some intersectedUnion, none, .PERMISSION, ""⟩]⟩
    let atoms := fun atom => decide (atom = .relation "viewer") || decide (atom = .relation "owner")
    ∃ aliases keys, annotateNamespace order ns newBdd hexHash = .ok (aliases, keys) ∧
      keys.lookup "p" = keys.lookup "q" ∧ (keys.lookup "p").isSome ∧
      excludedUnion.denote atoms = false ∧ intersectedUnion.denote atoms = true := by
  intro excludedUnion intersectedUnion userRelation ns atoms
  -- no permission of the namespace is an alias
  have haliases : computePermissionAliases order ns = .ok ∅ := by
    rw [computePermissionAliases_of_resolved (by decide +kernel)]
    exact congrArg Except.ok (AList.ext (by decide +kernel))
  let varMap := buildBddVarMap ns.relation ∅
  let bdd := newBdd varMap.len
  have hviewer : varMap.get "viewer" = .ok 0 := by decide +kernel
  have howner : varMap.get "owner" = .ok 1 := by decide +kernel
  have heditor : varMap.get "editor" = .ok 2 := by decide +kernel
  -- both rewrites build the conjunction of `viewer` with the union, unnegated
  have hexcluded : convertRewriteToBdd bdd varMap excludedUnion =
      .ok (bdd.and [bdd.ithvar 0, bdd.or [bdd.ithvar 1, bdd.ithvar 2]]) := by
    simp [excludedUnion, convertRewriteToBdd, convertToBdd, convertChildToBdd, hviewer, howner, heditor]
  have hintersected : convertRewriteToBdd bdd varMap intersectedUnion =
      .ok (bdd.and [bdd.ithvar 0, bdd.or [bdd.ithvar 1, bdd.ithvar 2]]) := by
    simp [intersectedUnion, convertRewriteToBdd, convertToBdd, convertChildToBdd, hviewer, howner, heditor]
  have hkeys : ∀ rel ∈ ns.relation, ∃ key, cacheKeyOf bdd varMap hexHash rel = .ok key := by
    intro rel hrel
    simp only [ns, List.mem_cons, List.not_mem_nil, or_false] at hrel
    rcases hrel with rfl | rfl | rfl | rfl | rfl
    · exact ⟨_, rfl⟩
    · exact ⟨_, rfl⟩
    · exact ⟨_, rfl⟩
    · exact ⟨_, by rw [cacheKeyOf]; exact Except.bind_eq_ok.2 ⟨_, hexcluded, rfl⟩⟩
    · exact ⟨_, by rw [cacheKeyOf]; exact Except.bind_eq_ok.2 ⟨_, hintersected, rfl⟩⟩
  obtain ⟨keys, hcomputed⟩ := computeCanonicalCacheKeys_ok ns ∅ newBdd hexHash hkeys
  have hnames : (ns.relation.map (·.name)).Nodup := by decide +kernel
  have hp : ns.relation[3] ∈ ns.relation := by simp
  refine ⟨∅, keys, ?_, ?_, ?_, by decide +kernel, by decide +kernel⟩
  · rw [annotateNamespace, haliases, Except.ok_bind, hcomputed]
    rfl
  · exact lookup_computeCanonicalCacheKeys_eq hnames hcomputed hp
      (show ns.relation[4] ∈ ns.relation by simp) rfl rfl (hexcluded.trans hintersected.symm)
  · obtain ⟨keyp, _, hlookupp⟩ := lookup_computeCanonicalCacheKeys hnames hcomputed hp
    rw [show "p" = ns.relation[3].name from rfl, hlookupp]
    rfl

end SpiceDB.Namespace
