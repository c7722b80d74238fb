import Mathlib.Data.List.Sort
import Mathlib.Data.String.Basic
import SpiceDB.Lib.Delimited
import SpiceDB.Graph.Check
import SpiceDB.Graph.ReachableResources

namespace SpiceDB.Dispatch.Keys

open SpiceDB.Graph Delimited

section Validation

def isLower (c : Char) : Bool := 'a' ≤ c && c ≤ 'z'

def isUpper (c : Char) : Bool := 'A' ≤ c && c ≤ 'Z'

def isDigitChar (c : Char) : Bool := '0' ≤ c && c ≤ '9'

/-- `[a-z][a-z0-9_]{1,n}[a-z0-9]`, on one segment of a name. -/
def matchesNameSegment (n : ℕ) : List Char → Bool
  | first :: rest =>
    isLower first && 2 ≤ rest.length && rest.length ≤ n + 1 &&
      rest.dropLast.all (fun c => isLower c || isDigitChar c || c = '_') &&
      (rest.getLast?.map fun c => isLower c || isDigitChar c).getD false
  | [] => false

/-- `namespaceNameExpr`, `([a-z][a-z0-9_]{1,61}[a-z0-9]/)*[a-z][a-z0-9_]{1,62}[a-z0-9]`: the
segments between the `/`s, which no segment can hold. -/
def validNamespaceName (s : String) : Bool :=
  let segments := s.toList.splitOn '/'
  segments.dropLast.all (matchesNameSegment 61) &&
    (segments.getLast?.map (matchesNameSegment 62)).getD false

/-- `relationExpr`, or `...` for a subject relation. -/
def validSubjectRelation (s : String) : Bool := matchesNameSegment 62 s.toList || s = ellipsis

/-- `resourceIDExpr`: `[a-zA-Z0-9/_|\-=+]{1,}`. -/
def validResourceID (s : String) : Bool :=
  !s.toList.isEmpty && s.toList.all fun c =>
    isLower c || isUpper c || isDigitChar c || c ∈ ['/', '_', '|', '-', '=', '+']

/-- `subjectIDExpr`: a resource id, or `*`. -/
def validSubjectID (s : String) : Bool := validResourceID s || s = "*"

/-- A relation reference whose names match. -/
def validRelationReference (rr : RelationReference) : Bool :=
  validNamespaceName rr.«namespace» && validSubjectRelation rr.relation

/-- An object and relation whose names and id match. -/
def validObjectAndRelation (onr : ObjectAndRelation) : Bool :=
  validNamespaceName onr.«namespace» && validSubjectID onr.objectId &&
    validSubjectRelation onr.relation

end Validation

inductive CachePrefix where
  | checkViaRelationPrefix
  | checkViaCanonicalPrefix
  | lookupPrefix
  | expandPrefix
  | reachableResourcesPrefix
  | lookupSubjectsPrefix
  deriving DecidableEq, Repr

/-- The text of a `cachePrefix`. -/
def CachePrefix.toString : CachePrefix → String
  | .checkViaRelationPrefix => "cr"
  | .checkViaCanonicalPrefix => "cc"
  | .lookupPrefix => "l"
  | .expandPrefix => "e"
  | .reachableResourcesPrefix => "rr"
  | .lookupSubjectsPrefix => "ls"

/-- `dispatch.v1.Cursor`: its sections (its dispatch version is not hashed). -/
structure Cursor where
  sections : List String
  deriving DecidableEq, Repr

/-- The sections of an optional cursor; `nil` has none. -/
def cursorSections (cursor : Option Cursor) : List String := (cursor.map Cursor.sections).getD []

/-- The number of a `DispatchCheckRequest_ResultsSetting`. -/
def resultsSettingValue : ResultsSetting → ℕ
  | .REQUIRE_ALL_RESULTS => 0
  | .ALLOW_SINGLE_RESULT => 1

/-- A `hashableValue` of the four keys below. -/
inductive HashableValue where
  | relationReference (rr : RelationReference)
  | resultSetting (resultsSetting : ResultsSetting)
  | ids (ids : List String)
  | onr (onr : ObjectAndRelation)
  | limit (limit : UInt32)
  | cursor (cursor : Option Cursor)

/-- The strings `AppendToHash` writes. -/
def HashableValue.appendToHash : HashableValue → List String
  | .relationReference rr => [rr.«namespace» ++ "#" ++ rr.relation]
  | .resultSetting setting => [String.singleton (Char.ofNat (resultsSettingValue setting))]
  | .ids idList => (idList.insertionSort (· ≤ ·)).flatMap fun id => [id, ","]
  | .onr object => [object.«namespace», ":", object.objectId, "#", object.relation]
  | .limit n => if n > 0 then [toString n.toNat] else []
  | .cursor c => (cursorSections c).flatMap fun cursorSection => [cursorSection, ","]

/-- The strings `dispatchCacheKeyHash` writes to its hasher; the key is their hash. -/
def dispatchCacheKeyHash (cachePrefix : CachePrefix) (atRevision : String)
    (args : List HashableValue) : List String :=
  [cachePrefix.toString, "/"] ++ args.flatMap (fun arg => arg.appendToHash ++ ["@"]) ++ [atRevision]

def checkRequestToKey (req : CheckRequest) (atRevision : String) : List String :=
  dispatchCacheKeyHash .checkViaRelationPrefix atRevision
    [.relationReference req.resourceRelation, .ids req.resourceIds, .onr req.subject,
      .resultSetting req.resultsSetting]

/-- `dispatch.DispatchExpandRequest`: its resource (the expansion mode is not hashed). -/
structure ExpandRequest where
  resourceAndRelation : ObjectAndRelation
  deriving DecidableEq, Repr

def expandRequestToKey (req : ExpandRequest) (atRevision : String) : List String :=
  dispatchCacheKeyHash .expandPrefix atRevision [.onr req.resourceAndRelation]

/-- `reachableResourcesRequestToKey`, with the cursor and limit the request carries. -/
def reachableResourcesRequestToKey (req : ReachableResourcesRequest) (optionalCursor : Option Cursor)
    (optionalLimit : UInt32) (atRevision : String) : List String :=
  dispatchCacheKeyHash .reachableResourcesPrefix atRevision
    [.relationReference req.resourceRelation, .relationReference req.subjectRelation,
      .ids req.subjectIds, .cursor optionalCursor, .limit optionalLimit]

/-- `dispatch.DispatchLookupSubjectsRequest`, its metadata left out. -/
structure LookupSubjectsRequest where
  resourceRelation : RelationReference
  resourceIds : List String
  subjectRelation : RelationReference
  deriving DecidableEq, Repr

def lookupSubjectsRequestToKey (req : LookupSubjectsRequest) (atRevision : String) : List String :=
  dispatchCacheKeyHash .lookupSubjectsPrefix atRevision
    [.relationReference req.resourceRelation, .relationReference req.subjectRelation,
      .ids req.resourceIds]

section Characters

/-- The characters of names and ids, `[a-zA-Z0-9/_|\-=+.*]`. -/
def keyChar (c : Char) : Bool :=
  isLower c || isUpper c || isDigitChar c || c ∈ ['/', '_', '|', '-', '=', '+', '.', '*']

/-- Text of name and id characters only. -/
def KeyText (s : String) : Prop := ∀ c ∈ s.toList, keyChar c = true

theorem keyText_of_all {s : String} (h : s.toList.all keyChar = true) : KeyText s :=
  fun c hc => List.all_eq_true.1 h c hc

theorem keyChar_of_nameChar {c : Char} (h : (isLower c || isDigitChar c || c = '_') = true) :
    keyChar c = true := by
  simp only [Bool.or_eq_true, decide_eq_true_eq] at h
  rcases h with (h | h) | rfl
  · simp [keyChar, h]
  · simp [keyChar, h]
  · decide

theorem keyText_of_matchesNameSegment {n : ℕ} :
    ∀ {l : List Char}, matchesNameSegment n l = true → ∀ c ∈ l, keyChar c = true
  | [], h => by simp [matchesNameSegment] at h
  | first :: rest, h => by
    simp only [matchesNameSegment, Bool.and_eq_true, decide_eq_true_eq, List.all_eq_true] at h
    obtain ⟨⟨⟨⟨hfirst, hlen⟩, -⟩, hmiddle⟩, hlast⟩ := h
    have hne : rest ≠ [] := by rintro rfl; simp at hlen
    rw [List.getLast?_eq_some_getLast hne, Option.map_some, Option.getD_some] at hlast
    intro c hc
    -- the first character, one of the middle ones, or the last
    rw [← List.dropLast_append_getLast hne] at hc
    rw [List.mem_cons, List.mem_append, List.mem_singleton] at hc
    rcases hc with rfl | hc | rfl
    · simp [keyChar, hfirst]
    · exact keyChar_of_nameChar (hmiddle c hc)
    · exact keyChar_of_nameChar (by rw [hlast, Bool.true_or])

theorem keyText_of_validNamespaceName {s : String} (h : validNamespaceName s = true) :
    KeyText s := by
  simp only [validNamespaceName, Bool.and_eq_true, List.all_eq_true] at h
  obtain ⟨hinit, hlast⟩ := h
  have hne := List.splitOn_ne_nil '/' s.toList
  rw [List.getLast?_eq_some_getLast hne, Option.map_some, Option.getD_some] at hlast
  have hsplit : ['/'].intercalate (s.toList.splitOn '/') = s.toList := List.intercalate_splitOn '/'
  intro c hc
  -- a character of the name is a `/` or in one of the segments
  rw [← hsplit] at hc
  rcases mem_intercalate_singleton hc with rfl | ⟨segment, hsegment, hc⟩
  · decide
  · rw [← List.dropLast_append_getLast hne, List.mem_append, List.mem_singleton] at hsegment
    rcases hsegment with hsegment | rfl
    · exact keyText_of_matchesNameSegment (hinit segment hsegment) c hc
    · exact keyText_of_matchesNameSegment hlast c hc

theorem keyText_of_validSubjectRelation {s : String} (h : validSubjectRelation s = true) :
    KeyText s := by
  simp only [validSubjectRelation, Bool.or_eq_true, decide_eq_true_eq] at h
  rcases h with h | rfl
  · exact keyText_of_matchesNameSegment h
  · exact keyText_of_all (by decide)

theorem keyText_of_validResourceID {s : String} (h : validResourceID s = true) : KeyText s := by
  simp only [validResourceID, Bool.and_eq_true, List.all_eq_true] at h
  intro c hc
  have hchar := h.2 c hc
  simp only [keyChar, Bool.or_eq_true, decide_eq_true_eq, List.mem_cons] at hchar ⊢
  tauto

theorem keyText_of_validSubjectID {s : String} (h : validSubjectID s = true) : KeyText s := by
  simp only [validSubjectID, Bool.or_eq_true, decide_eq_true_eq] at h
  rcases h with h | rfl
  · exact keyText_of_validResourceID h
  · exact keyText_of_all (by decide)

end Characters

section Fields

/-- The characters an argument writes. -/
def HashableValue.text (arg : HashableValue) : List Char := arg.appendToHash.flatMap String.toList

theorem KeyText.not_mem {s : String} (hs : KeyText s) {d : Char} (hd : keyChar d = false) :
    d ∉ s.toList :=
  fun hmem => by simp [hs d hmem] at hd

theorem KeyText.append_cons_inj {a b : String} {d : Char} {x y : List Char} (ha : KeyText a)
    (hb : KeyText b) (hd : keyChar d = false) (h : a.toList ++ d :: x = b.toList ++ d :: y) :
    a = b ∧ x = y := by
  obtain ⟨hab, rfl⟩ := Delimited.append_cons_inj (ha.not_mem hd) (hb.not_mem hd) h
  exact ⟨String.toList_injective hab, rfl⟩

theorem KeyText.plain {s : String} (hs : KeyText s) : Plain ',' '@' s.toList :=
  ⟨hs.not_mem (by decide), fun hhead => hs.not_mem (by decide) (List.mem_of_mem_head? hhead)⟩

theorem toList_flatMap_comma (items : List String) :
    (items.flatMap fun item => [item, ","]).flatMap String.toList =
      terminated ',' (items.map String.toList) := by
  induction items with
  | nil => rfl
  | cons item items ih => simp [terminated, ← ih]

theorem toList_join_dispatchCacheKeyHash (cachePrefix : CachePrefix) (atRevision : String)
    (args : List HashableValue) :
    (String.join (dispatchCacheKeyHash cachePrefix atRevision args)).toList =
      cachePrefix.toString.toList ++ '/' ::
        (terminated '@' (args.map HashableValue.text) ++ atRevision.toList) := by
  have hargs : ((args.flatMap fun arg => arg.appendToHash ++ ["@"]).flatMap String.toList) =
      terminated '@' (args.map HashableValue.text) := by
    induction args with
    | nil => rfl
    | cons arg args ih => simp [terminated, HashableValue.text, ← ih]
  simp [dispatchCacheKeyHash, String.toList_join, hargs]

theorem text_relationReference (rr : RelationReference) :
    (HashableValue.relationReference rr).text =
      rr.«namespace».toList ++ '#' :: rr.relation.toList := by
  simp [HashableValue.text, HashableValue.appendToHash]

theorem text_resultSetting (setting : ResultsSetting) :
    (HashableValue.resultSetting setting).text = [Char.ofNat (resultsSettingValue setting)] := by
  simp [HashableValue.text, HashableValue.appendToHash]

theorem text_ids (ids : List String) :
    (HashableValue.ids ids).text = terminated ',' ((ids.insertionSort (· ≤ ·)).map String.toList) :=
  toList_flatMap_comma _

theorem text_onr (onr : ObjectAndRelation) :
    (HashableValue.onr onr).text =
      onr.«namespace».toList ++ ':' :: (onr.objectId.toList ++ '#' :: onr.relation.toList) := by
  simp [HashableValue.text, HashableValue.appendToHash]

theorem text_limit (n : UInt32) :
    (HashableValue.limit n).text = if n > 0 then n.toNat.repr.toList else [] := by
  by_cases hn : n > 0 <;> simp [HashableValue.text, HashableValue.appendToHash, hn]

theorem text_cursor (cursor : Option Cursor) :
    (HashableValue.cursor cursor).text = terminated ',' ((cursorSections cursor).map String.toList) :=
  toList_flatMap_comma _

theorem relationReference_text_inj {rr₁ rr₂ : RelationReference} {x y : List Char}
    (h₁ : validRelationReference rr₁ = true) (h₂ : validRelationReference rr₂ = true)
    (h : (HashableValue.relationReference rr₁).text ++ '@' :: x =
      (HashableValue.relationReference rr₂).text ++ '@' :: y) : rr₁ = rr₂ ∧ x = y := by
  obtain ⟨ns₁, rel₁⟩ := rr₁
  obtain ⟨ns₂, rel₂⟩ := rr₂
  simp only [validRelationReference, Bool.and_eq_true] at h₁ h₂
  simp only [text_relationReference, List.append_assoc, List.cons_append] at h
  obtain ⟨rfl, hrelation⟩ := (keyText_of_validNamespaceName h₁.1).append_cons_inj
    (keyText_of_validNamespaceName h₂.1) (by decide) h
  obtain ⟨rfl, rfl⟩ := (keyText_of_validSubjectRelation h₁.2).append_cons_inj
    (keyText_of_validSubjectRelation h₂.2) (by decide) hrelation
  exact ⟨rfl, rfl⟩

theorem resultSetting_text_inj {setting₁ setting₂ : ResultsSetting} {x y : List Char}
    (h : (HashableValue.resultSetting setting₁).text ++ '@' :: x =
      (HashableValue.resultSetting setting₂).text ++ '@' :: y) : setting₁ = setting₂ ∧ x = y := by
  simp only [text_resultSetting, List.singleton_append, List.cons.injEq, true_and] at h
  obtain ⟨hchar, rfl⟩ := h
  -- `string(0)` and `string(1)` are different characters
  refine ⟨?_, rfl⟩
  revert hchar
  cases setting₁ <;> cases setting₂ <;> decide

theorem ids_text_inj {ids₁ ids₂ : List String} {x y : List Char}
    (h₁ : ∀ id ∈ ids₁, KeyText id) (h₂ : ∀ id ∈ ids₂, KeyText id)
    (h : (HashableValue.ids ids₁).text ++ '@' :: x = (HashableValue.ids ids₂).text ++ '@' :: y) :
    ids₁.insertionSort (· ≤ ·) = ids₂.insertionSort (· ≤ ·) ∧ x = y := by
  -- the sorted ids are the ids, so each is a plain item
  have hplain : ∀ ids : List String, (∀ id ∈ ids, KeyText id) →
      ∀ item ∈ (ids.insertionSort (· ≤ ·)).map String.toList, Plain ',' '@' item := by
    intro ids hids item hitem
    obtain ⟨id, hid, rfl⟩ := List.mem_map.1 hitem
    exact (hids id ((List.perm_insertionSort _ ids).mem_iff.1 hid)).plain
  rw [text_ids, text_ids] at h
  obtain ⟨hsorted, rfl⟩ := terminated_append_cons_inj (by decide) (hplain ids₁ h₁) (hplain ids₂ h₂) h
  exact ⟨List.map_injective_iff.2 (fun _ _ => String.toList_injective) hsorted, rfl⟩

theorem onr_text_inj {onr₁ onr₂ : ObjectAndRelation} {x y : List Char}
    (h₁ : validObjectAndRelation onr₁ = true) (h₂ : validObjectAndRelation onr₂ = true)
    (h : (HashableValue.onr onr₁).text ++ '@' :: x = (HashableValue.onr onr₂).text ++ '@' :: y) :
    onr₁ = onr₂ ∧ x = y := by
  obtain ⟨ns₁, id₁, rel₁⟩ := onr₁
  obtain ⟨ns₂, id₂, rel₂⟩ := onr₂
  simp only [validObjectAndRelation, Bool.and_eq_true] at h₁ h₂
  simp only [text_onr, List.append_assoc, List.cons_append] at h
  obtain ⟨rfl, hid⟩ := (keyText_of_validNamespaceName h₁.1.1).append_cons_inj
    (keyText_of_validNamespaceName h₂.1.1) (by decide) h
  obtain ⟨rfl, hrelation⟩ := (keyText_of_validSubjectID h₁.1.2).append_cons_inj
    (keyText_of_validSubjectID h₂.1.2) (by decide) hid
  obtain ⟨rfl, rfl⟩ := (keyText_of_validSubjectRelation h₁.2).append_cons_inj
    (keyText_of_validSubjectRelation h₂.2) (by decide) hrelation
  exact ⟨rfl, rfl⟩

theorem at_not_mem_text_limit (n : UInt32) : '@' ∉ (HashableValue.limit n).text := by
  rw [text_limit]
  split
  · intro hmem
    rw [Nat.toList_repr] at hmem
    have hdigit := Nat.isDigit_of_mem_toDigits (by decide) (by decide) hmem
    revert hdigit
    decide
  · simp

/-- A limit of 0 writes nothing, any other its decimal digits. -/
theorem text_limit_injective {n₁ n₂ : UInt32}
    (h : (HashableValue.limit n₁).text = (HashableValue.limit n₂).text) : n₁ = n₂ := by
  have hdigits : ∀ n : UInt32, n.toNat.repr.toList ≠ [] := fun n => by
    rw [Nat.toList_repr]
    exact Nat.toDigits_ne_nil
  rw [text_limit, text_limit] at h
  by_cases hn₁ : n₁ > 0 <;> by_cases hn₂ : n₂ > 0 <;> simp only [hn₁, hn₂, if_true, if_false] at h
  · rw [Nat.toList_repr, Nat.toList_repr] at h
    apply UInt32.toNat_inj.1
    calc n₁.toNat = Nat.ofDigitChars 10 (Nat.toDigits 10 n₁.toNat) 0 :=
          Nat.ofDigitChars_ten_toDigits.symm
      _ = Nat.ofDigitChars 10 (Nat.toDigits 10 n₂.toNat) 0 := by rw [h]
      _ = n₂.toNat := Nat.ofDigitChars_ten_toDigits
  · exact absurd h (hdigits n₁)
  · exact absurd h.symm (hdigits n₂)
  · rw [gt_iff_lt, UInt32.pos_iff_ne_zero, not_not] at hn₁ hn₂
    rw [hn₁, hn₂]

theorem limit_text_inj {n₁ n₂ : UInt32} {x y : List Char}
    (h : (HashableValue.limit n₁).text ++ '@' :: x = (HashableValue.limit n₂).text ++ '@' :: y) :
    n₁ = n₂ ∧ x = y := by
  obtain ⟨htext, rfl⟩ := Delimited.append_cons_inj (at_not_mem_text_limit n₁)
    (at_not_mem_text_limit n₂) h
  exact ⟨text_limit_injective htext, rfl⟩

theorem cursor_text_inj {cursor₁ cursor₂ : Option Cursor} {x y : List Char}
    (h₁ : ∀ s ∈ cursorSections cursor₁, Plain ',' '@' s.toList)
    (h₂ : ∀ s ∈ cursorSections cursor₂, Plain ',' '@' s.toList)
    (h : (HashableValue.cursor cursor₁).text ++ '@' :: x =
      (HashableValue.cursor cursor₂).text ++ '@' :: y) :
    cursorSections cursor₁ = cursorSections cursor₂ ∧ x = y := by
  have hplain : ∀ sections : List String, (∀ s ∈ sections, Plain ',' '@' s.toList) →
      ∀ item ∈ sections.map String.toList, Plain ',' '@' item := by
    intro sections hsections item hitem
    obtain ⟨s, hs, rfl⟩ := List.mem_map.1 hitem
    exact hsections s hs
  rw [text_cursor, text_cursor] at h
  obtain ⟨hsections, rfl⟩ := terminated_append_cons_inj (by decide) (hplain _ h₁) (hplain _ h₂) h
  exact ⟨List.map_injective_iff.2 (fun _ _ => String.toList_injective) hsections, rfl⟩

end Fields

section Requests

/-- A check request whose names and ids match the expressions of pkg/tuple. -/
structure ValidCheckRequest (req : CheckRequest) : Prop where
  resourceRelation : validRelationReference req.resourceRelation = true
  resourceIds : ∀ id ∈ req.resourceIds, validResourceID id = true
  subject : validObjectAndRelation req.subject = true

/-- A reachable resources request whose names and ids match. -/
structure ValidReachableResourcesRequest (req : ReachableResourcesRequest) : Prop where
  resourceRelation : validRelationReference req.resourceRelation = true
  subjectRelation : validRelationReference req.subjectRelation = true
  subjectIds : ∀ id ∈ req.subjectIds, validSubjectID id = true

/-- A lookup subjects request whose names and ids match. -/
structure ValidLookupSubjectsRequest (req : LookupSubjectsRequest) : Prop where
  resourceRelation : validRelationReference req.resourceRelation = true
  resourceIds : ∀ id ∈ req.resourceIds, validResourceID id = true
  subjectRelation : validRelationReference req.subjectRelation = true

/-- Cursor sections as the dispatcher writes them, relationship strings and numbers: none
holds a `,` or starts with `@`. -/
def PlainSections (cursor : Option Cursor) : Prop :=
  ∀ s ∈ cursorSections cursor, Plain ',' '@' s.toList

theorem appendToHash_ids_perm {ids₁ ids₂ : List String} (h : ids₁.Perm ids₂) :
    (HashableValue.ids ids₁).appendToHash = (HashableValue.ids ids₂).appendToHash := by
  have hsorted : ids₁.insertionSort (· ≤ ·) = ids₂.insertionSort (· ≤ ·) := by
    apply List.Perm.eq_of_sortedLE List.sortedLE_insertionSort List.sortedLE_insertionSort
    exact (List.perm_insertionSort _ ids₁).trans (h.trans (List.perm_insertionSort _ ids₂).symm)
  simp only [HashableValue.appendToHash, hsorted]

theorem checkRequestToKey_join_eq_iff {req₁ req₂ : CheckRequest} {rev₁ rev₂ : String}
    (h₁ : ValidCheckRequest req₁) (h₂ : ValidCheckRequest req₂) :
    String.join (checkRequestToKey req₁ rev₁) = String.join (checkRequestToKey req₂ rev₂) ↔
      rev₁ = rev₂ ∧ req₁.resourceRelation = req₂.resourceRelation ∧
        req₁.resourceIds.insertionSort (· ≤ ·) = req₂.resourceIds.insertionSort (· ≤ ·) ∧
        req₁.subject = req₂.subject ∧ req₁.resultsSetting = req₂.resultsSetting := by
  constructor
  · intro h
    -- read the fields back from the left, the revision is what remains
    have htext := congrArg String.toList h
    simp only [checkRequestToKey, toList_join_dispatchCacheKeyHash, List.map_cons, List.map_nil,
      terminated, List.append_assoc, List.cons_append, List.nil_append, List.append_cancel_left_eq,
      List.cons.injEq, true_and] at htext
    obtain ⟨hrelation, htext⟩ := relationReference_text_inj h₁.resourceRelation
      h₂.resourceRelation htext
    obtain ⟨hids, htext⟩ := ids_text_inj (fun id hid => keyText_of_validResourceID
      (h₁.resourceIds id hid)) (fun id hid => keyText_of_validResourceID (h₂.resourceIds id hid)) htext
    obtain ⟨hsubject, htext⟩ := onr_text_inj h₁.subject h₂.subject htext
    obtain ⟨hsetting, htext⟩ := resultSetting_text_inj htext
    exact ⟨String.toList_injective htext, hrelation, hids, hsubject, hsetting⟩
  · rintro ⟨rfl, hrelation, hids, hsubject, hsetting⟩
    simp [checkRequestToKey, dispatchCacheKeyHash, HashableValue.appendToHash, hrelation, hids,
      hsubject, hsetting]

theorem reachableResourcesRequestToKey_join_eq_iff {req₁ req₂ : ReachableResourcesRequest}
    {cursor₁ cursor₂ : Option Cursor} {limit₁ limit₂ : UInt32} {rev₁ rev₂ : String}
    (h₁ : ValidReachableResourcesRequest req₁) (h₂ : ValidReachableResourcesRequest req₂)
    (hcursor₁ : PlainSections cursor₁) (hcursor₂ : PlainSections cursor₂) :
    String.join (reachableResourcesRequestToKey req₁ cursor₁ limit₁ rev₁) =
        String.join (reachableResourcesRequestToKey req₂ cursor₂ limit₂ rev₂) ↔
      rev₁ = rev₂ ∧ req₁.resourceRelation = req₂.resourceRelation ∧
        req₁.subjectRelation = req₂.subjectRelation ∧
        req₁.subjectIds.insertionSort (· ≤ ·) = req₂.subjectIds.insertionSort (· ≤ ·) ∧
        cursorSections cursor₁ = cursorSections cursor₂ ∧ limit₁ = limit₂ := by
  constructor
  · intro h
    have htext := congrArg String.toList h
    simp only [reachableResourcesRequestToKey, toList_join_dispatchCacheKeyHash, List.map_cons,
      List.map_nil, terminated, List.append_assoc, List.cons_append, List.nil_append,
      List.append_cancel_left_eq, List.cons.injEq, true_and] at htext
    obtain ⟨hresource, htext⟩ := relationReference_text_inj h₁.resourceRelation
      h₂.resourceRelation htext
    obtain ⟨hsubject, htext⟩ := relationReference_text_inj h₁.subjectRelation
      h₂.subjectRelation htext
    obtain ⟨hids, htext⟩ := ids_text_inj (fun id hid => keyText_of_validSubjectID
      (h₁.subjectIds id hid)) (fun id hid => keyText_of_validSubjectID (h₂.subjectIds id hid)) htext
    obtain ⟨hsections, htext⟩ := cursor_text_inj hcursor₁ hcursor₂ htext
    obtain ⟨hlimit, htext⟩ := limit_text_inj htext
    exact ⟨String.toList_injective htext, hresource, hsubject, hids, hsections, hlimit⟩
  · rintro ⟨rfl, hresource, hsubject, hids, hsections, rfl⟩
    simp [reachableResourcesRequestToKey, dispatchCacheKeyHash, HashableValue.appendToHash,
      hresource, hsubject, hids, hsections]

theorem lookupSubjectsRequestToKey_join_eq_iff {req₁ req₂ : LookupSubjectsRequest}
    {rev₁ rev₂ : String} (h₁ : ValidLookupSubjectsRequest req₁)
    (h₂ : ValidLookupSubjectsRequest req₂) :
    String.join (lookupSubjectsRequestToKey req₁ rev₁) =
        String.join (lookupSubjectsRequestToKey req₂ rev₂) ↔
      rev₁ = rev₂ ∧ req₁.resourceRelation = req₂.resourceRelation ∧
        req₁.subjectRelation = req₂.subjectRelation ∧
        req₁.resourceIds.insertionSort (· ≤ ·) = req₂.resourceIds.insertionSort (· ≤ ·) := by
  constructor
  · intro h
    have htext := congrArg String.toList h
    simp only [lookupSubjectsRequestToKey, toList_join_dispatchCacheKeyHash, List.map_cons,
      List.map_nil, terminated, List.append_assoc, List.cons_append, List.nil_append,
      List.append_cancel_left_eq, List.cons.injEq, true_and] at htext
    obtain ⟨hresource, htext⟩ := relationReference_text_inj h₁.resourceRelation
      h₂.resourceRelation htext
    obtain ⟨hsubject, htext⟩ := relationReference_text_inj h₁.subjectRelation
      h₂.subjectRelation htext
    obtain ⟨hids, htext⟩ := ids_text_inj (fun id hid => keyText_of_validResourceID
      (h₁.resourceIds id hid)) (fun id hid => keyText_of_validResourceID (h₂.resourceIds id hid)) htext
    exact ⟨String.toList_injective htext, hresource, hsubject, hids⟩
  · rintro ⟨rfl, hresource, hsubject, hids⟩
    simp [lookupSubjectsRequestToKey, dispatchCacheKeyHash, HashableValue.appendToHash,
      hresource, hsubject, hids]

theorem expandRequestToKey_join_eq_iff {req₁ req₂ : ExpandRequest} {rev₁ rev₂ : String}
    (h₁ : validObjectAndRelation req₁.resourceAndRelation = true)
    (h₂ : validObjectAndRelation req₂.resourceAndRelation = true) :
    String.join (expandRequestToKey req₁ rev₁) = String.join (expandRequestToKey req₂ rev₂) ↔
      rev₁ = rev₂ ∧ req₁.resourceAndRelation = req₂.resourceAndRelation := by
  constructor
  · intro h
    have htext := congrArg String.toList h
    simp only [expandRequestToKey, toList_join_dispatchCacheKeyHash, List.map_cons, List.map_nil,
      terminated, List.append_assoc, List.cons_append, List.nil_append, List.append_cancel_left_eq,
      List.cons.injEq, true_and] at htext
    obtain ⟨hresource, htext⟩ := onr_text_inj h₁ h₂ htext
    exact ⟨String.toList_injective htext, hresource⟩
  · rintro ⟨rfl, hresource⟩
    simp [expandRequestToKey, hresource]

theorem checkRequestToKey_perm (req : CheckRequest) {ids : List String} (rev : String)
    (h : ids.Perm req.resourceIds) :
    checkRequestToKey { req with resourceIds := ids } rev = checkRequestToKey req rev := by
  simp only [checkRequestToKey, dispatchCacheKeyHash, List.flatMap_cons, appendToHash_ids_perm h]

theorem reachableResourcesRequestToKey_perm (req : ReachableResourcesRequest) {ids : List String}
    (cursor : Option Cursor) (limit : UInt32) (rev : String) (h : ids.Perm req.subjectIds) :
    reachableResourcesRequestToKey { req with subjectIds := ids } cursor limit rev =
      reachableResourcesRequestToKey req cursor limit rev := by
  simp only [reachableResourcesRequestToKey, dispatchCacheKeyHash, List.flatMap_cons,
    appendToHash_ids_perm h]

theorem lookupSubjectsRequestToKey_perm (req : LookupSubjectsRequest) {ids : List String}
    (rev : String) (h : ids.Perm req.resourceIds) :
    lookupSubjectsRequestToKey { req with resourceIds := ids } rev =
      lookupSubjectsRequestToKey req rev := by
  simp only [lookupSubjectsRequestToKey, dispatchCacheKeyHash, List.flatMap_cons,
    appendToHash_ids_perm h]

/-- The text the hasher is given determines the revision and every hashed field, the ids up to
their order, when names and ids match the expressions of pkg/tuple and cursor sections hold
no `,` and start with no `@`; reordering the ids gives the same strings. -/
theorem dispatch_keys_separate_requests :
    (∀ (req₁ req₂ : CheckRequest) (rev₁ rev₂ : String),
      ValidCheckRequest req₁ → ValidCheckRequest req₂ →
      (String.join (checkRequestToKey req₁ rev₁) = String.join (checkRequestToKey req₂ rev₂) ↔
        rev₁ = rev₂ ∧ req₁.resourceRelation = req₂.resourceRelation ∧
          req₁.resourceIds.insertionSort (· ≤ ·) = req₂.resourceIds.insertionSort (· ≤ ·) ∧
          req₁.subject = req₂.subject ∧ req₁.resultsSetting = req₂.resultsSetting)) ∧
    (∀ (req₁ req₂ : ReachableResourcesRequest) (cursor₁ cursor₂ : Option Cursor)
      (limit₁ limit₂ : UInt32) (rev₁ rev₂ : String),
      ValidReachableResourcesRequest req₁ → ValidReachableResourcesRequest req₂ →
      PlainSections cursor₁ → PlainSections cursor₂ →
      (String.join (reachableResourcesRequestToKey req₁ cursor₁ limit₁ rev₁) =
          String.join (reachableResourcesRequestToKey req₂ cursor₂ limit₂ rev₂) ↔
        rev₁ = rev₂ ∧ req₁.resourceRelation = req₂.resourceRelation ∧
          req₁.subjectRelation = req₂.subjectRelation ∧
          req₁.subjectIds.insertionSort (· ≤ ·) = req₂.subjectIds.insertionSort (· ≤ ·) ∧
          cursorSections cursor₁ = cursorSections cursor₂ ∧ limit₁ = limit₂)) ∧
    (∀ (req₁ req₂ : LookupSubjectsRequest) (rev₁ rev₂ : String),
      ValidLookupSubjectsRequest req₁ → ValidLookupSubjectsRequest req₂ →
      (String.join (lookupSubjectsRequestToKey req₁ rev₁) =
          String.join (lookupSubjectsRequestToKey req₂ rev₂) ↔
        rev₁ = rev₂ ∧ req₁.resourceRelation = req₂.resourceRelation ∧
          req₁.subjectRelation = req₂.subjectRelation ∧
          req₁.resourceIds.insertionSort (· ≤ ·) = req₂.resourceIds.insertionSort (· ≤ ·))) ∧
    (∀ (req₁ req₂ : ExpandRequest) (rev₁ rev₂ : String),
      validObjectAndRelation req₁.resourceAndRelation = true →
      validObjectAndRelation req₂.resourceAndRelation = true →
      (String.join (expandRequestToKey req₁ rev₁) = String.join (expandRequestToKey req₂ rev₂) ↔
        rev₁ = rev₂ ∧ req₁.resourceAndRelation = req₂.resourceAndRelation)) ∧
    (∀ (req : CheckRequest) (ids : List String) (rev : String), ids.Perm req.resourceIds →
      checkRequestToKey { req with resourceIds := ids } rev = checkRequestToKey req rev) ∧
    (∀ (req : ReachableResourcesRequest) (ids : List String) (cursor : Option Cursor)
      (limit : UInt32) (rev : String), ids.Perm req.subjectIds →
      reachableResourcesRequestToKey { req with subjectIds := ids } cursor limit rev =
        reachableResourcesRequestToKey req cursor limit rev) ∧
    (∀ (req : LookupSubjectsRequest) (ids : List String) (rev : String), ids.Perm req.resourceIds →
      lookupSubjectsRequestToKey { req with resourceIds := ids } rev =
        lookupSubjectsRequestToKey req rev) :=
  ⟨fun _ _ _ _ h₁ h₂ => checkRequestToKey_join_eq_iff h₁ h₂,
    fun _ _ _ _ _ _ _ _ h₁ h₂ hcursor₁ hcursor₂ =>
      reachableResourcesRequestToKey_join_eq_iff h₁ h₂ hcursor₁ hcursor₂,
    fun _ _ _ _ h₁ h₂ => lookupSubjectsRequestToKey_join_eq_iff h₁ h₂,
    fun _ _ _ _ h₁ h₂ => expandRequestToKey_join_eq_iff h₁ h₂,
    fun req _ rev h => checkRequestToKey_perm req rev h,
    fun req _ cursor limit rev h => reachableResourcesRequestToKey_perm req cursor limit rev h,
    fun req _ rev h => lookupSubjectsRequestToKey_perm req rev h⟩

/-- Two valid check requests that differ in their results setting only get different keys. -/
theorem dispatch_keys_separate_results_setting :
    ValidCheckRequest ⟨⟨"document", "view"⟩, ["doc1"], ⟨"user", "alice", "..."⟩,
        .REQUIRE_ALL_RESULTS⟩ ∧
      ValidCheckRequest ⟨⟨"document", "view"⟩, ["doc1"], ⟨"user", "alice", "..."⟩,
        .ALLOW_SINGLE_RESULT⟩ ∧
      String.join (checkRequestToKey ⟨⟨"document", "view"⟩, ["doc1"], ⟨"user", "alice", "..."⟩,
          .REQUIRE_ALL_RESULTS⟩ "7") ≠
        String.join (checkRequestToKey ⟨⟨"document", "view"⟩, ["doc1"], ⟨"user", "alice", "..."⟩,
          .ALLOW_SINGLE_RESULT⟩ "7") := by
  have hvalid : ∀ setting, ValidCheckRequest ⟨⟨"document", "view"⟩, ["doc1"],
      ⟨"user", "alice", "..."⟩, setting⟩ := fun _ =>
    ⟨by dsimp only; decide, by dsimp only; decide, by dsimp only; decide⟩
  refine ⟨hvalid _, hvalid _, fun h => ?_⟩
  have hfields := (dispatch_keys_separate_requests.1 _ _ "7" "7" (hvalid _) (hvalid _)).1 h
  simp at hfields

/-- Cursor sections are not checked: the one section `a,b` and the two sections `a` and `b`
write the same text, for a valid request. -/
theorem cursor_sections_collide :
    ValidReachableResourcesRequest ⟨⟨"document", "view"⟩, ⟨"user", "..."⟩, ["alice"]⟩ ∧
      cursorSections (some ⟨["a,b"]⟩) ≠ cursorSections (some ⟨["a", "b"]⟩) ∧
      String.join (reachableResourcesRequestToKey ⟨⟨"document", "view"⟩, ⟨"user", "..."⟩,
          ["alice"]⟩ (some ⟨["a,b"]⟩) 0 "7") =
        String.join (reachableResourcesRequestToKey ⟨⟨"document", "view"⟩, ⟨"user", "..."⟩,
          ["alice"]⟩ (some ⟨["a", "b"]⟩) 0 "7") :=
  ⟨⟨by decide, by decide, by decide⟩, by decide, by decide⟩

end Requests

end SpiceDB.Dispatch.Keys
