import SpiceDB.Core.Schema
import SpiceDB.Lib.Except
import SpiceDB.Lib.GoStrings

namespace SpiceDB.Schemadsl

open GoStrings

/-- `core.Metadata`, as `namespace.GetComments` reads it: the doc comments, in order. -/
structure Metadata where
  comments : List String
deriving DecidableEq, Repr

/-- `core.Relation` with its metadata. -/
structure DocumentedRelation where
  relation : Relation
  metadata : Metadata

/-- `core.NamespaceDefinition` with the metadata of the definition and its relations. -/
structure DocumentedNamespace where
  name : String
  relation : List DocumentedRelation
  metadata : Metadata

/-- The namespace definition without its metadata. -/
def DocumentedNamespace.definition (ns : DocumentedNamespace) : NamespaceDefinition :=
  ⟨ns.name, ns.relation.map (·.relation)⟩

/-- What decoding a caveat's expression gives: `DeserializeCaveat` fails, `ExprString` fails, or
the expression's text. -/
inductive CaveatSource where
  | undecodable (err : String)
  | unprintable (err : String)
  | printed (exprString : String)

/-- `core.CaveatDefinition`: each parameter with what `DecodeParameterType` and `String()`
give for its type. -/
structure CaveatDefinition where
  name : String
  parameterTypes : List (String × Except String String)
  expression : CaveatSource
  metadata : Metadata

inductive SchemaDefinition where
  | caveat (def_ : CaveatDefinition)
  | «namespace» (def_ : DocumentedNamespace)

structure SourceGenerator where
  buf : List Char
  indentationLevel : ℕ
  hasNewline : Bool
  hasBlankline : Bool
  hasIssue : Bool
  hasNewScope : Bool
deriving DecidableEq, Repr

namespace SourceGenerator

/-- The generator every `Generate*Source` starts with. -/
def init : SourceGenerator := ⟨[], 0, true, true, false, true⟩

/-- One rune of `append`: a newline ends the line, any other rune is written after the
indentation a new line needs. -/
def appendRune (sg : SourceGenerator) (currentRune : Char) : SourceGenerator :=
  if currentRune = '\n' then
    { sg with hasBlankline := sg.hasBlankline || sg.hasNewline, buf := sg.buf ++ ['\n'], hasNewline := true }
  else
    let sg := { sg with hasBlankline := false, hasNewScope := false }
    let sg := if sg.hasNewline then
        { sg with buf := sg.buf ++ List.replicate sg.indentationLevel '\t', hasNewline := false }
      else sg
    { sg with buf := sg.buf ++ [currentRune] }

def append (sg : SourceGenerator) (value : String) : SourceGenerator :=
  value.toList.foldl appendRune sg

def appendLine (sg : SourceGenerator) : SourceGenerator := sg.append "\n"

def ensureBlankLineOrNewScope (sg : SourceGenerator) : SourceGenerator :=
  if !sg.hasBlankline && !sg.hasNewScope then sg.appendLine else sg

def indent (sg : SourceGenerator) : SourceGenerator :=
  { sg with indentationLevel := sg.indentationLevel + 1 }

def dedent (sg : SourceGenerator) : SourceGenerator :=
  { sg with indentationLevel := sg.indentationLevel - 1 }

def appendIssue (sg : SourceGenerator) (description : String) : SourceGenerator :=
  { (((sg.append "/* ").append description).append " */") with hasIssue := true }

def markNewScope (sg : SourceGenerator) : SourceGenerator := { sg with hasNewScope := true }

end SourceGenerator

open SourceGenerator

def maxSingleLineCommentLength : ℕ := 70

/-- `appendComment`: a block comment is printed on one line when it is short and has no
newline, and otherwise one line of its text a line; a line comment is printed after `// `. -/
def appendComment (sg : SourceGenerator) (comment : String) : SourceGenerator :=
  if hasPrefix comment "/*" then
    let stripped := trimSpace comment
    let (sg, stripped) :=
      if hasPrefix stripped "/**" then (sg.append "/**", trimPrefix stripped "/**")
      else (sg.append "/*", trimPrefix stripped "/*")
    let stripped := trimSpace (trimSuffix stripped "*/")
    let requireMultiline := len stripped > maxSingleLineCommentLength || containsRune stripped '\n'
    if requireMultiline then
      let sg := (scanLines stripped).foldl (fun sg line =>
        ((sg.append " * ").append (trimSpace (trimPrefix (trimSpace line) "*"))).appendLine) sg.appendLine
      (sg.append " */").appendLine
    else
      (((sg.append " ").append (trimSpace (trimPrefix (trimSpace stripped) "*"))).append " */").appendLine
  else if hasPrefix comment "//" then
    ((sg.append "// ").append (trimSpace (trimPrefix (trimSpace comment) "//"))).appendLine
  else sg

def emitComments (sg : SourceGenerator) (metadata : Metadata) : SourceGenerator :=
  let sg := if metadata.comments.length > 0 then sg.ensureBlankLineOrNewScope else sg
  metadata.comments.foldl appendComment sg

mutual
/-- `graph.HasThis`: some child, at any depth, is `_this`. -/
def hasThis : UsersetRewrite → Bool
  | .union child | .intersection child | .exclusion child => anyHasThis child

def anyHasThis : List SetOperationChild → Bool
  | [] => false
  | .xThis :: _ => true
  | .usersetRewrite rewrite :: rest => hasThis rewrite || anyHasThis rest
  | _ :: rest => anyHasThis rest
end

mutual
/-- `isAllUnion`: a union whose nested rewrites are all unions, at any depth. -/
def isAllUnion : UsersetRewrite → Bool
  | .union child => allChildrenUnion child
  | _ => false

def allChildrenUnion : List SetOperationChild → Bool
  | [] => true
  | .usersetRewrite rewrite :: rest => isAllUnion rewrite && allChildrenUnion rest
  | _ :: rest => allChildrenUnion rest
end

mutual
def emitRewrite (sg : SourceGenerator) : UsersetRewrite → SourceGenerator
  | .union child => emitRewriteOps sg child "+" 0
  | .intersection child => emitRewriteOps sg child "&" 0
  | .exclusion child => emitRewriteOps sg child "-" 0

/-- `emitRewriteOps` from the child at `index`. -/
def emitRewriteOps (sg : SourceGenerator) : List SetOperationChild → String → ℕ → SourceGenerator
  | [], _, _ => sg
  | child :: rest, op, index =>
    let sg := if index > 0 then sg.append (" " ++ op ++ " ") else sg
    emitRewriteOps (emitSetOpChild sg child) rest op (index + 1)

def emitSetOpChild (sg : SourceGenerator) : SetOperationChild → SourceGenerator
  | .usersetRewrite rewrite =>
    -- only unions print without parentheses
    if isAllUnion rewrite then emitRewrite sg rewrite
    else (emitRewrite (sg.append "(") rewrite).append ")"
  | .xThis => sg.appendIssue "_this unsupported here. Please rewrite into a relation and permission"
  | .xNil => sg.append "nil"
  | .computedUserset relation => sg.append relation
  | .tupleToUserset tuplesetRelation computedUsersetRelation =>
    ((sg.append tuplesetRelation).append "->").append computedUsersetRelation
end

def generatorEllipsis : String := "..."

def emitAllowedRelation (sg : SourceGenerator) (allowedRelation : AllowedRelation) : SourceGenerator :=
  let sg := sg.append allowedRelation.«namespace»
  let sg := if allowedRelation.getRelation ≠ "" ∧ allowedRelation.getRelation ≠ generatorEllipsis then
      (sg.append "#").append allowedRelation.getRelation
    else sg
  let sg := if allowedRelation.isPublicWildcard then sg.append ":*" else sg
  match allowedRelation.requiredCaveat with
  | some caveatName => (sg.append " with ").append caveatName
  | none => sg

/-- `emitRelation`; `HasThis` fails only on a child of a kind the model does not have. -/
def emitRelation (sg : SourceGenerator) (documented : DocumentedRelation) : SourceGenerator :=
  let relation := documented.relation
  let hasThis := relation.usersetRewrite.any hasThis
  let isPermission := relation.usersetRewrite.isSome && !hasThis
  let sg := emitComments sg documented.metadata
  let sg := sg.append (if isPermission then "permission " else "relation ")
  let sg := sg.append relation.name
  let sg := if !isPermission then
      let sg := sg.append ": "
      match relation.typeInformation with
      | none | some [] => sg.appendIssue "missing allowed types"
      | some allowedRelations =>
        (allowedRelations.zipIdx.foldl (fun sg (allowedRelation, index) =>
          emitAllowedRelation (if index > 0 then sg.append " | " else sg) allowedRelation) sg)
    else sg
  let sg := match relation.usersetRewrite with
    | some rewrite => emitRewrite (sg.append " = ") rewrite
    | none => sg
  sg.appendLine

def emitNamespace (sg : SourceGenerator) (ns : DocumentedNamespace) : SourceGenerator :=
  let sg := emitComments sg ns.metadata
  let sg := (sg.append "definition ").append ns.name
  if ns.relation.length = 0 then sg.append " {}"
  else
    let sg := ((sg.append " \x7b").appendLine.indent).markNewScope
    let sg := ns.relation.foldl emitRelation sg
    sg.dedent.append "\x7d"

/-- `emitCaveat`: the parameters in the order of their names. -/
def emitCaveat (sg : SourceGenerator) (caveat : CaveatDefinition) : Except String SourceGenerator := do
  let sg := emitComments sg caveat.metadata
  let sg := ((sg.append "caveat ").append caveat.name).append "("
  let parameterNames := (caveat.parameterTypes.map (·.1)).mergeSort fun a b => decide (a ≤ b)
  let sg ← parameterNames.zipIdx.foldlM (fun sg (paramName, index) => do
    let sg := if index > 0 then sg.append ", " else sg
    let decoded ← match (caveat.parameterTypes.lookup paramName).getD (.error "") with
      | .error err => throw ("invalid parameter type on caveat: " ++ err)
      | .ok decoded => pure decoded
    pure (((sg.append paramName).append " ").append decoded)) sg
  let sg := ((((sg.append ")").append " \x7b").appendLine).indent).markNewScope
  match caveat.parameterTypes.mapM (·.2) with
  | .error err => throw ("invalid caveat parameters: " ++ err)
  | .ok _ =>
    match caveat.expression with
    | .undecodable err => throw ("invalid caveat expression bytes: " ++ err)
    | .unprintable err => throw ("invalid caveat expression: " ++ err)
    | .printed exprString => pure (((sg.append (trimSpace exprString)).appendLine.dedent).append "\x7d")

/-- `GenerateSource`: the text and whether it was printed without issue. -/
def generateSource (ns : DocumentedNamespace) : String × Bool :=
  let sg := emitNamespace init ns
  (String.ofList sg.buf, !sg.hasIssue)

def generateCaveatSource (caveat : CaveatDefinition) : Except String (String × Bool) := do
  let sg ← emitCaveat init caveat
  pure (String.ofList sg.buf, !sg.hasIssue)

/-- The body of `GenerateSchema`'s loop: one definition printed. -/
def generateDefinition : SchemaDefinition → Except String (String × Bool)
  | .caveat def_ => generateCaveatSource def_
  | .namespace def_ => pure (generateSource def_)

/-- `GenerateSchema`: the definitions printed in order, a blank line between two; the first
error ends it. -/
def generateSchema (definitions : List SchemaDefinition) : Except String (String × Bool) := do
  let generated ← definitions.mapM generateDefinition
  pure (join (generated.map (·.1)) "\n\n", generated.all (·.2))

/-- `normalizeComment` (compiler/translator.go): each line trimmed. -/
def normalizeComment (value : String) : String :=
  join ((scanLines value).map trimSpace) "\n"

/-- Printing a block comment drops a star that leads its text, so formatting is not idempotent.
The translator keeps the doc comment `/* ** a */` of a definition as it is, and it prints as
`/* * a */`; that comment, kept in turn, prints as `/* a */`. -/
theorem generateSchema_drops_leading_star :
    normalizeComment "/* ** a */" = "/* ** a */" ∧ normalizeComment "/* * a */" = "/* * a */" ∧
      generateSchema [.namespace ⟨"user", [], ⟨["/* ** a */"]⟩⟩] =
        .ok ("/* * a */\ndefinition user {}", true) ∧
      generateSchema [.namespace ⟨"user", [], ⟨["/* * a */"]⟩⟩] = .ok ("/* a */\ndefinition user {}", true) :=
  ⟨by decide +kernel, by decide +kernel, rfl, rfl⟩

/-- The issue `emitSetOpChild` reports for a child itself, nested rewrites apart. -/
def childHasThis : SetOperationChild → Bool
  | .xThis => true
  | .usersetRewrite rewrite => hasThis rewrite
  | _ => false

theorem anyHasThis_cons (child : SetOperationChild) (rest : List SetOperationChild) :
    anyHasThis (child :: rest) = (childHasThis child || anyHasThis rest) := by
  cases child <;> simp [anyHasThis, childHasThis]

/-- What makes `emitRelation` report an issue: a relation without allowed types, or `_this` in
its rewrite. -/
def relationHasIssue (relation : Relation) : Bool :=
  match relation.usersetRewrite with
  | some rewrite => hasThis rewrite
  | none => (relation.typeInformation.getD []).isEmpty

namespace SourceGenerator

@[simp] theorem appendRune_hasIssue (sg : SourceGenerator) (c : Char) : (sg.appendRune c).hasIssue = sg.hasIssue := by
  unfold appendRune
  split
  · rfl
  · dsimp only
    split <;> rfl

@[simp] theorem append_hasIssue (sg : SourceGenerator) (value : String) : (sg.append value).hasIssue = sg.hasIssue := by
  unfold append
  generalize value.toList = runes
  induction runes generalizing sg with
  | nil => rfl
  | cons c rest ih => rw [List.foldl_cons, ih, appendRune_hasIssue]

@[simp] theorem appendLine_hasIssue (sg : SourceGenerator) : sg.appendLine.hasIssue = sg.hasIssue :=
  append_hasIssue sg "\n"

@[simp] theorem ensureBlankLineOrNewScope_hasIssue (sg : SourceGenerator) :
    sg.ensureBlankLineOrNewScope.hasIssue = sg.hasIssue := by
  unfold ensureBlankLineOrNewScope
  split <;> simp

@[simp] theorem indent_hasIssue (sg : SourceGenerator) : sg.indent.hasIssue = sg.hasIssue := rfl

@[simp] theorem dedent_hasIssue (sg : SourceGenerator) : sg.dedent.hasIssue = sg.hasIssue := rfl

@[simp] theorem markNewScope_hasIssue (sg : SourceGenerator) : sg.markNewScope.hasIssue = sg.hasIssue := rfl

@[simp] theorem appendIssue_hasIssue (sg : SourceGenerator) (description : String) :
    (sg.appendIssue description).hasIssue = true := rfl

end SourceGenerator

theorem foldl_hasIssue {α : Type} (f : SourceGenerator → α → SourceGenerator)
    (hf : ∀ sg a, (f sg a).hasIssue = sg.hasIssue) :
    ∀ (items : List α) (sg : SourceGenerator), (items.foldl f sg).hasIssue = sg.hasIssue
  | [], _ => rfl
  | a :: rest, sg => by rw [List.foldl_cons, foldl_hasIssue f hf rest, hf]

@[simp] theorem appendComment_hasIssue (sg : SourceGenerator) (comment : String) :
    (appendComment sg comment).hasIssue = sg.hasIssue := by
  unfold appendComment
  split
  · -- the opener, the text on one line or several, and the closer are all appended
    dsimp only
    split <;> split <;> simp [foldl_hasIssue]
  · split <;> simp

@[simp] theorem emitComments_hasIssue (sg : SourceGenerator) (metadata : Metadata) :
    (emitComments sg metadata).hasIssue = sg.hasIssue := by
  unfold emitComments
  rw [foldl_hasIssue _ appendComment_hasIssue]
  split <;> simp

@[simp] theorem emitAllowedRelation_hasIssue (sg : SourceGenerator) (allowedRelation : AllowedRelation) :
    (emitAllowedRelation sg allowedRelation).hasIssue = sg.hasIssue := by
  unfold emitAllowedRelation
  dsimp only
  split <;> split <;> split <;> simp

mutual
theorem emitRewrite_hasIssue (sg : SourceGenerator) :
    ∀ rewrite : UsersetRewrite, (emitRewrite sg rewrite).hasIssue = (sg.hasIssue || hasThis rewrite)
  | .union child => by rw [emitRewrite, emitRewriteOps_hasIssue, hasThis]
  | .intersection child => by rw [emitRewrite, emitRewriteOps_hasIssue, hasThis]
  | .exclusion child => by rw [emitRewrite, emitRewriteOps_hasIssue, hasThis]

theorem emitRewriteOps_hasIssue (sg : SourceGenerator) :
    ∀ (children : List SetOperationChild) (op : String) (index : ℕ),
      (emitRewriteOps sg children op index).hasIssue = (sg.hasIssue || anyHasThis children)
  | [], _, _ => by simp [emitRewriteOps, anyHasThis]
  | child :: rest, op, index => by
    rw [emitRewriteOps, emitRewriteOps_hasIssue, emitSetOpChild_hasIssue, anyHasThis_cons, Bool.or_assoc]
    split <;> simp

theorem emitSetOpChild_hasIssue (sg : SourceGenerator) :
    ∀ child : SetOperationChild, (emitSetOpChild sg child).hasIssue = (sg.hasIssue || childHasThis child)
  | .usersetRewrite rewrite => by
    rw [emitSetOpChild, childHasThis]
    split
    · exact emitRewrite_hasIssue sg rewrite
    · rw [append_hasIssue, emitRewrite_hasIssue, append_hasIssue]
  | .xThis => by simp [emitSetOpChild, childHasThis]
  | .xNil => by simp [emitSetOpChild, childHasThis]
  | .computedUserset _ => by simp [emitSetOpChild, childHasThis]
  | .tupleToUserset _ _ => by simp [emitSetOpChild, childHasThis]
end

/-- The allowed types of a relation that is not a permission print without issue, where it has some. -/
theorem emitAllowedRelations_hasIssue (sg : SourceGenerator) (typeInformation : Option (List AllowedRelation)) :
    (match typeInformation with
      | none | some [] => sg.appendIssue "missing allowed types"
      | some allowedRelations =>
        allowedRelations.zipIdx.foldl (fun sg (allowedRelation, index) =>
          emitAllowedRelation (if index > 0 then sg.append " | " else sg) allowedRelation) sg).hasIssue =
      (sg.hasIssue || (typeInformation.getD []).isEmpty) := by
  split
  · simp
  · simp
  · rename_i allowedRelations hne
    have hnonempty : allowedRelations.isEmpty = false := by
      rw [List.isEmpty_eq_false_iff]
      exact hne
    rw [foldl_hasIssue _ (fun sg item => by obtain ⟨_, index⟩ := item; dsimp only; split <;> simp)]
    simp [hnonempty]

theorem emitRelation_hasIssue (sg : SourceGenerator) (documented : DocumentedRelation) :
    (emitRelation sg documented).hasIssue = (sg.hasIssue || relationHasIssue documented.relation) := by
  unfold emitRelation relationHasIssue
  dsimp only
  cases hrewrite : documented.relation.usersetRewrite with
  | none =>
    -- a relation: only its allowed types can be missing
    simp only [Option.any_none, Option.isSome_none, Bool.false_and, Bool.not_false, if_true,
      appendLine_hasIssue]
    rw [emitAllowedRelations_hasIssue]
    simp
  | some rewrite =>
    cases hthis : hasThis rewrite with
    | false =>
      -- a permission: its rewrite is printed alone
      simp [hthis, emitRewrite_hasIssue]
    | true =>
      -- `_this` makes it a relation, and is reported where the rewrite prints it
      simp [hthis, emitRewrite_hasIssue]

theorem foldl_emitRelation_hasIssue :
    ∀ (relations : List DocumentedRelation) (sg : SourceGenerator),
      (relations.foldl emitRelation sg).hasIssue =
        (sg.hasIssue || relations.any fun documented => relationHasIssue documented.relation)
  | [], sg => by simp
  | documented :: rest, sg => by
    rw [List.foldl_cons, foldl_emitRelation_hasIssue rest, emitRelation_hasIssue, List.any_cons, Bool.or_assoc]

theorem emitNamespace_hasIssue (sg : SourceGenerator) (ns : DocumentedNamespace) :
    (emitNamespace sg ns).hasIssue =
      (sg.hasIssue || ns.relation.any fun documented => relationHasIssue documented.relation) := by
  unfold emitNamespace
  dsimp only
  split
  · rename_i hempty
    rw [List.length_eq_zero_iff.1 hempty]
    simp
  · simp [foldl_emitRelation_hasIssue]

theorem generateSource_ok (ns : DocumentedNamespace) :
    (generateSource ns).2 = !ns.relation.any fun documented => relationHasIssue documented.relation := by
  simp [generateSource, emitNamespace_hasIssue, init]

theorem emitCaveat_hasIssue {sg sg' : SourceGenerator} {caveat : CaveatDefinition}
    (h : emitCaveat sg caveat = .ok sg') : sg'.hasIssue = sg.hasIssue := by
  unfold emitCaveat at h
  obtain ⟨sg₁, hparams, h⟩ := Except.bind_eq_ok.1 h
  -- the parameters are appended one by one, and never with an issue
  have hsg₁ : sg₁.hasIssue = sg.hasIssue := by
    refine Except.foldlM_invariant (fun sg₁ => sg₁.hasIssue = sg.hasIssue) ?_ _ _ _ (by simp) hparams
    intro sg₂ item sg₃ hsg₂ hstep
    obtain ⟨paramName, index⟩ := item
    dsimp only at hstep
    split at hstep
    · simp at hstep
    · rw [Except.pure_eq_ok, Except.ok_bind, Except.pure_eq_ok, Except.ok.injEq] at hstep
      subst hstep
      split <;> simpa using hsg₂
  -- then the expression, where nothing fails
  dsimp only at h
  split at h
  · simp at h
  · split at h
    · simp at h
    · simp at h
    · rw [Except.pure_eq_ok, Except.ok.injEq] at h
      subst h
      simp [hsg₁]

/-- What `GenerateSchema` reports of one definition: a caveat prints without issue, a
namespace as `generateSource_ok` says. -/
def definitionOk : SchemaDefinition → Bool
  | .caveat _ => true
  | .namespace ns => !ns.relation.any fun documented => relationHasIssue documented.relation

theorem generateDefinition_ok {definition : SchemaDefinition} {text : String} {ok : Bool}
    (h : generateDefinition definition = .ok (text, ok)) : ok = definitionOk definition := by
  cases definition with
  | caveat caveat =>
    obtain ⟨sg, hemit, h⟩ := Except.bind_eq_ok.1 h
    cases h
    simp [definitionOk, emitCaveat_hasIssue hemit, init]
  | «namespace» ns =>
    cases h
    exact generateSource_ok ns

/-- `GenerateSchema` reports an issue exactly for a relation without allowed types or a rewrite
with `_this`, in any of the namespaces. -/
theorem generateSchema_ok {definitions : List SchemaDefinition} {text : String} {ok : Bool}
    (h : generateSchema definitions = .ok (text, ok)) : ok = definitions.all definitionOk := by
  obtain ⟨generated, hgenerated, hresult⟩ := Except.bind_eq_ok.1 h
  rw [Except.pure_eq_ok, Except.ok.injEq, Prod.mk.injEq] at hresult
  rw [← hresult.2]
  -- each definition's flag is the one it printed with
  have hall := Except.forall₂_of_mapM_eq_ok hgenerated
  clear h hgenerated hresult
  induction hall with
  | nil => rfl
  | cons hhead _ ih =>
    rw [List.all_cons, List.all_cons, ih, ← generateDefinition_ok hhead]

/-- A relation declared without allowed types prints with an issue. -/
theorem generateSchema_ok_missing_types :
    generateSchema [.namespace ⟨"doc", [⟨⟨"viewer", none, none, .RELATION, ""⟩, ⟨[]⟩⟩], ⟨[]⟩⟩] =
        .ok ("definition doc \x7b\n\trelation viewer: /* missing allowed types */\n\x7d", false) ∧
      false = [SchemaDefinition.namespace ⟨"doc", [⟨⟨"viewer", none, none, .RELATION, ""⟩, ⟨[]⟩⟩], ⟨[]⟩⟩].all
        definitionOk :=
  have hprinted : generateSchema [.namespace ⟨"doc", [⟨⟨"viewer", none, none, .RELATION, ""⟩, ⟨[]⟩⟩], ⟨[]⟩⟩] =
      .ok ("definition doc \x7b\n\trelation viewer: /* missing allowed types */\n\x7d", false) := by
    decide +kernel
  ⟨hprinted, generateSchema_ok hprinted⟩

end SpiceDB.Schemadsl
