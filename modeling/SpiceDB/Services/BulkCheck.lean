import Mathlib.Data.List.AList
import SpiceDB.Caveats.ContextHash
import SpiceDB.Core.Tuple
import SpiceDB.Core.Dispatch

namespace SpiceDB.Services

open Caveats

structure ObjectReference where
  objectType : String
  objectId : String
deriving DecidableEq

structure SubjectReference where
  object : ObjectReference
  optionalRelation : String
deriving DecidableEq

structure CheckBulkPermissionsRequestItem where
  resource : ObjectReference
  permission : String
  subject : SubjectReference
  context : Option Struct
deriving DecidableEq

/-- `computed.CheckParameters`. The caveat context is the request's struct (the Go map is
its `AsMap`); the revision, depth and debugging option, the same for every item of one
request, are left out. -/
structure CheckParameters where
  resourceType : RelationReference
  subject : ObjectAndRelation
  caveatContext : Option Struct
deriving DecidableEq

inductive Permissionship where
  | NO_PERMISSION
  | HAS_PERMISSION
  | CONDITIONAL_PERMISSION
deriving DecidableEq

/-- The response of a pair: an item with its permissionship and the context a caveat still
needs, or an error status. -/
inductive PairResponse where
  | item (permissionship : Permissionship) (missingRequiredContext : Option (List String))
  | error (status : String)
deriving DecidableEq

structure CheckBulkPermissionsPair where
  request : CheckBulkPermissionsRequestItem
  response : PairResponse
deriving DecidableEq

/-- The services a bulk check calls. -/
structure BulkCheckEnv where
  digest : String → String
  minimizeLatencyBytes : String
  protoSize : Struct → ℕ
  checkNamespaceAndRelations : CheckParameters → Except String Unit
  computeBulkCheck : CheckParameters → List String → Except String (String → ResourceCheckResult)
  isStatus : String → Bool

def maxBulkCheckCount : ℕ := 10000

/-- `MaxBulkCheckDispatchChunkSize`, that is `datastore.FilterMaximumIDCount`. -/
def maxBulkCheckDispatchChunkSize : ℕ := 100

/-- The argument values `computeCallHash` accepts. -/
inductive CallArgument where
  | string (s : String)
  | int (n : ℤ)
  | uint32 (n : UInt32)
  | struct (s : Option Struct)

/-- The string `computeCallHash` stores for an argument. -/
def CallArgument.render : CallArgument → String
  | .string s => s
  | .int n => toString n
  | .uint32 n => toString n.toNat
  | .struct s => stableContextStringForHashing s

variable (env : BulkCheckEnv)

/-- `computeAPICallHash`: the digest of the API name and of every argument, in key order. -/
def computeAPICallHash (apiName : String) (arguments : List (String × String)) : String :=
  env.digest (apiName ++ ":" ++ String.join ((arguments.map Prod.fst).insertionSort (· ≤ ·) |>.map
    fun key => key ++ ":" ++ (arguments.lookup key).getD "" ++ ";"))

/-- `computeCallHash`; `consistency` is the marshalled consistency, `none` for `nil`. -/
def computeCallHash (apiName : String) (consistency : Option String)
    (arguments : List (String × CallArgument)) : Except String String := do
  let stringArguments ← arguments.foldlM (fun stringArguments argument =>
      if argument.1 = "consistency" then
        throw (mustBugf "cannot specify consistency in the arguments")
      else pure ((argument.1, argument.2.render) :: stringArguments))
    [("consistency", consistency.getD env.minimizeLatencyBytes)]
  pure (computeAPICallHash env apiName stringArguments)

def computeCheckBulkPermissionsItemHashWithoutResourceID (req : CheckBulkPermissionsRequestItem) :
    Except String String :=
  computeCallHash env "v1.checkbulkpermissionsrequestitem" none
    [("resource-type", .string req.resource.objectType),
     ("permission", .string req.permission),
     ("subject-type", .string req.subject.object.objectType),
     ("subject-id", .string req.subject.object.objectId),
     ("subject-relation", .string req.subject.optionalRelation),
     ("context", .struct req.context)]

def computeCheckBulkPermissionsItemHash (req : CheckBulkPermissionsRequestItem) :
    Except String String :=
  computeCallHash env "v1.checkbulkpermissionsrequestitem" none
    [("resource-type", .string req.resource.objectType),
     ("resource-id", .string req.resource.objectId),
     ("permission", .string req.permission),
     ("subject-type", .string req.subject.object.objectType),
     ("subject-id", .string req.subject.object.objectId),
     ("subject-relation", .string req.subject.optionalRelation),
     ("context", .struct req.context)]

def normalizeSubjectRelation (sub : SubjectReference) : String :=
  if sub.optionalRelation = "" then ellipsis else sub.optionalRelation

def denormalizeSubjectRelation (relation : String) : String :=
  if relation = ellipsis then "" else relation

/-- `GetCaveatContext`: a context larger than a positive limit is refused. -/
def getCaveatContext (caveatCtx : Option Struct) (maxCaveatContextSize : ℕ) :
    Except String (Option Struct) :=
  match caveatCtx with
  | none => pure none
  | some context =>
    let size := env.protoSize context
    if 0 < maxCaveatContextSize ∧ maxCaveatContextSize < size then
      throw s!"request caveat context should have less than {maxCaveatContextSize} bytes but had {size}"
    else pure (some context)

def checkParametersFromCheckBulkPermissionsRequestItem (bc : CheckBulkPermissionsRequestItem)
    (caveatContext : Option Struct) : CheckParameters :=
  ⟨⟨bc.resource.objectType, bc.permission⟩,
    ⟨bc.subject.object.objectType, bc.subject.object.objectId, normalizeSubjectRelation bc.subject⟩,
    caveatContext⟩

structure GroupedCheckParameters where
  params : CheckParameters
  resourceIDs : List String

/-- `groupItems`: the first item of a hash fixes the group's parameters, and later items only
add their resource id. -/
def groupItems (maxCaveatContextSize : ℕ) (items : List CheckBulkPermissionsRequestItem) :
    Except String (AList (fun _ : String => GroupedCheckParameters)) :=
  items.foldlM (fun res item => do
    let hash ← computeCheckBulkPermissionsItemHashWithoutResourceID env item
    match res.lookup hash with
    | none =>
      let caveatContext ← getCaveatContext env item.context maxCaveatContextSize
      pure (res.insert hash
        ⟨checkParametersFromCheckBulkPermissionsRequestItem item caveatContext,
          [item.resource.objectId]⟩)
    | some group =>
      pure (res.insert hash { group with resourceIDs := group.resourceIDs ++ [item.resource.objectId] }))
    ∅

/-- `requestItemFromResourceAndParameters`: an empty context is sent as none. -/
def requestItemFromResourceAndParameters (params : CheckParameters) (resourceID : String) :
    CheckBulkPermissionsRequestItem :=
  ⟨⟨params.resourceType.«namespace», resourceID⟩, params.resourceType.relation,
    ⟨⟨params.subject.«namespace», params.subject.objectId⟩,
      denormalizeSubjectRelation params.subject.relation⟩,
    params.caveatContext.filter fun context => !context.fields.isEmpty⟩

/-- `pairItemFromCheckResult` with `checkResultToAPITypes`. -/
def pairItemFromCheckResult (checkResult : ResourceCheckResult) : PairResponse :=
  match checkResult.membership with
  | .MEMBER => .item .HAS_PERMISSION none
  | .CAVEATED_MEMBER => .item .CONDITIONAL_PERMISSION (some checkResult.missingExprFields)
  | .NOT_MEMBER => .item .NO_PERMISSION none

/-- `computed.ComputeCheck`: the computed check of one resource. -/
def computeCheck (params : CheckParameters) (resourceID : String) : Except String ResourceCheckResult :=
  (env.computeBulkCheck params [resourceID]).map fun results => results resourceID

/-- The multimap from full item hash to the indexes of the items with that hash. -/
abbrev ItemIndexByHash := AList (fun _ : String => List ℕ)

def ItemIndexByHash.add (m : ItemIndexByHash) (hash : String) (index : ℕ) : ItemIndexByHash :=
  m.insert hash ((m.lookup hash).getD [] ++ [index])

/-- `addPair`: the pair is stored at every index whose item has the pair's request's hash. -/
def addPair (itemIndexByHash : ItemIndexByHash) (orderedPairs : List (Option CheckBulkPermissionsPair))
    (pair : CheckBulkPermissionsPair) : Except String (List (Option CheckBulkPermissionsPair)) := do
  let pairItemHash ← computeCheckBulkPermissionsItemHash env pair.request
  match itemIndexByHash.lookup pairItemHash with
  | none => throw (mustBugf "missing expected item hash")
  | some found => pure (found.foldl (fun pairs index => pairs.set index (some pair)) orderedPairs)

/-- The pairs of one chunk of a group, each rebuilt from the group's parameters. -/
def addPairsFor (itemIndexByHash : ItemIndexByHash) (params : CheckParameters)
    (resourceIDs : List String) (response : String → PairResponse)
    (orderedPairs : List (Option CheckBulkPermissionsPair)) :
    Except String (List (Option CheckBulkPermissionsPair)) :=
  resourceIDs.foldlM (fun pairs resourceID =>
    addPair env itemIndexByHash pairs
      ⟨requestItemFromResourceAndParameters params resourceID, response resourceID⟩) orderedPairs

/-- `appendResultsForError`: an error that is not a gRPC status fails the whole request. -/
def appendResultsForError (itemIndexByHash : ItemIndexByHash) (params : CheckParameters)
    (resourceIDs : List String) (err : String) (orderedPairs : List (Option CheckBulkPermissionsPair)) :
    Except String (List (Option CheckBulkPermissionsPair)) :=
  if env.isStatus err then
    addPairsFor env itemIndexByHash params resourceIDs (fun _ => .error err) orderedPairs
  else throw err

/-- One task of the runner: check one chunk of a group and store its pairs. -/
def checkChunk (itemIndexByHash : ItemIndexByHash) (orderedPairs : List (Option CheckBulkPermissionsPair))
    (params : CheckParameters) (resourceIDs : List String) :
    Except String (List (Option CheckBulkPermissionsPair)) :=
  match env.checkNamespaceAndRelations params with
  | .error err => appendResultsForError env itemIndexByHash params resourceIDs err orderedPairs
  | .ok () =>
    match env.computeBulkCheck params resourceIDs with
    | .error err => appendResultsForError env itemIndexByHash params resourceIDs err orderedPairs
    | .ok results =>
      addPairsFor env itemIndexByHash params resourceIDs
        (fun resourceID => pairItemFromCheckResult (results resourceID)) orderedPairs

/-- `bulkChecker.checkBulkPermissions`: the pairs in item order, `none` where none was
stored. -/
def checkBulkPermissions (maxCaveatContextSize : ℕ) (items : List CheckBulkPermissionsRequestItem) :
    Except String (List (Option CheckBulkPermissionsPair)) := do
  let itemCount := items.length
  if maxBulkCheckCount < itemCount then
    throw s!"check count of {itemCount} is greater than maximum allowed of {maxBulkCheckCount}"
  let itemIndexByHash ← items.zipIdx.foldlM (fun m itemAndIndex => do
      let itemHash ← computeCheckBulkPermissionsItemHash env itemAndIndex.1
      pure (m.add itemHash itemAndIndex.2)) (∅ : ItemIndexByHash)
  let groupedItems ← groupItems env maxCaveatContextSize items
  let tasks := groupedItems.entries.flatMap fun group =>
    (forEachChunk maxBulkCheckDispatchChunkSize group.2.resourceIDs).map fun resourceIDs =>
      (group.2.params, resourceIDs)
  tasks.foldlM (fun orderedPairs task => checkChunk env itemIndexByHash orderedPairs task.1 task.2)
    (List.replicate itemCount none)

/-- The value of a number field `x` of a context exceeds `0.0000000015`. -/
def xExceedsThreshold (context : Option Struct) : Bool :=
  match context.bind fun context => context.fields.lookup "x" with
  | some (.numberValue x) => decide (3 / 2000000000 < x)
  | _ => false

/-- A datastore on which every namespace exists and the subject holds the permission under a
caveat `x > 0.0000000015` on every resource; the digest is the identity, which no two
different inputs share. -/
def caveatedPermissionEnv : BulkCheckEnv where
  digest := id
  minimizeLatencyBytes := ""
  protoSize := fun _ => 0
  checkNamespaceAndRelations := fun _ => .ok ()
  computeBulkCheck := fun params _ => .ok fun _ =>
    if xExceedsThreshold params.caveatContext then ⟨.MEMBER, []⟩ else ⟨.NOT_MEMBER, []⟩
  isStatus := fun _ => true

/-- Two items that differ in the resource and in a context number below the sixth decimal
(`2^-30` and `2^-29`): the second pair carries the first item's context and its answer, while
a check of the second item with its own context has the permission. -/
theorem checkBulkPermissions_answers_with_first_context :
    checkBulkPermissions caveatedPermissionEnv 0
        [⟨⟨"document", "d1"⟩, "view", ⟨⟨"user", "tom"⟩, ""⟩, some ⟨[("x", .numberValue (1 / 2 ^ 30))]⟩⟩,
         ⟨⟨"document", "d2"⟩, "view", ⟨⟨"user", "tom"⟩, ""⟩, some ⟨[("x", .numberValue (1 / 2 ^ 29))]⟩⟩] =
      .ok [some ⟨⟨⟨"document", "d1"⟩, "view", ⟨⟨"user", "tom"⟩, ""⟩,
              some ⟨[("x", .numberValue (1 / 2 ^ 30))]⟩⟩, .item .NO_PERMISSION none⟩,
           some ⟨⟨⟨"document", "d2"⟩, "view", ⟨⟨"user", "tom"⟩, ""⟩,
              some ⟨[("x", .numberValue (1 / 2 ^ 30))]⟩⟩, .item .NO_PERMISSION none⟩] ∧
    (computeCheck caveatedPermissionEnv
        (checkParametersFromCheckBulkPermissionsRequestItem
          ⟨⟨"document", "d2"⟩, "view", ⟨⟨"user", "tom"⟩, ""⟩, some ⟨[("x", .numberValue (1 / 2 ^ 29))]⟩⟩
          (some ⟨[("x", .numberValue (1 / 2 ^ 29))]⟩)) "d2").map pairItemFromCheckResult =
      .ok (.item .HAS_PERMISSION none) := by
  constructor
  · decide +kernel
  · decide +kernel

/-- The loop of `computeCallHash` reads each argument only through its key and the string it
renders. -/
theorem foldlM_render_congr (step : List (String × String) → String × CallArgument →
      Except String (List (String × String)))
    (hstep : ∀ acc argument, step acc argument = if argument.1 = "consistency" then
      throw (mustBugf "cannot specify consistency in the arguments")
      else pure ((argument.1, argument.2.render) :: acc)) :
    ∀ (args₁ args₂ : List (String × CallArgument)) (acc : List (String × String)),
      args₁.map (fun argument => (argument.1, argument.2.render)) =
        args₂.map (fun argument => (argument.1, argument.2.render)) →
      args₁.foldlM step acc = args₂.foldlM step acc
  | [], [], _, _ => rfl
  | a₁ :: args₁, a₂ :: args₂, acc, h => by
    simp only [List.map_cons, List.cons.injEq, Prod.mk.injEq] at h
    obtain ⟨⟨hkey, hrender⟩, hrest⟩ := h
    simp only [List.foldlM_cons, hstep, hkey, hrender]
    split
    · rfl
    · exact foldlM_render_congr step hstep args₁ args₂ _ hrest
  | [], _ :: _, _, h | _ :: _, [], _, h => by simp at h

theorem computeCallHash_congr (apiName : String) (consistency : Option String)
    {args₁ args₂ : List (String × CallArgument)}
    (h : args₁.map (fun argument => (argument.1, argument.2.render)) =
      args₂.map (fun argument => (argument.1, argument.2.render))) :
    computeCallHash env apiName consistency args₁ = computeCallHash env apiName consistency args₂ := by
  unfold computeCallHash
  rw [foldlM_render_congr _ (fun _ _ => rfl) args₁ args₂ _ h]

theorem computeCheckBulkPermissionsItemHash_eq_of_context (req : CheckBulkPermissionsRequestItem)
    {c₁ c₂ : Option Struct} (h : stableContextStringForHashing c₁ = stableContextStringForHashing c₂) :
    computeCheckBulkPermissionsItemHash env { req with context := c₁ } =
      computeCheckBulkPermissionsItemHash env { req with context := c₂ } :=
  computeCallHash_congr env _ _ (by simp [CallArgument.render, h])

/-- Two contexts whose numbers differ in the seventh decimal render alike, so no digest of the
bulk-check item hash tells them apart. -/
theorem itemHash_conflates_seventh_decimal :
    let c₁ : Struct := ⟨[("a", .numberValue (10000001 / 10 ^ 7))]⟩
    let c₂ : Struct := ⟨[("a", .numberValue (10000002 / 10 ^ 7))]⟩
    c₁ ≠ c₂ ∧ stableContextStringForHashing (some c₁) = stableContextStringForHashing (some c₂) ∧
      ∀ (env : BulkCheckEnv) (req : CheckBulkPermissionsRequestItem),
        computeCheckBulkPermissionsItemHash env { req with context := some c₁ } =
          computeCheckBulkPermissionsItemHash env { req with context := some c₂ } := by
  intro c₁ c₂
  have hrender : stableContextStringForHashing (some c₁) = stableContextStringForHashing (some c₂) := by
    decide +kernel
  exact ⟨by decide +kernel, hrender,
    fun env req => computeCheckBulkPermissionsItemHash_eq_of_context env req hrender⟩

end SpiceDB.Services
