import Mathlib.Data.List.TakeWhile
import Seaplane.Lib.Yaml

/-!
The variants of a CRD for the feature sets.

The generator walks the YAML tree of a base CRD once. It takes every key below the first
`properties` for a part of a field path, but for `properties`, `items` and `additionalProperties`
themselves, and takes out the entries whose path is registered as hidden or behind a gate that the
feature set does not enable. Which keys really are field names depends on where they stand in the
schema.
-/

namespace Seaplane.Codegen

open Lib Lib.Yaml

/-! ### Feature gates -/

inductive FeatureStage where
  | ga
  | techPreview
  | devPreview
  deriving DecidableEq

def FeatureStage.toNat : FeatureStage → ℕ
  | .ga => 0
  | .techPreview => 1
  | .devPreview => 2

/-- A feature set is a string in the source; those of another text are kept apart. -/
inductive FeatureSet where
  | default
  | techPreviewNoUpgrade
  | devPreviewNoUpgrade
  | other (text : String)
  deriving DecidableEq

def FeatureSet.maxStage : FeatureSet → FeatureStage
  | .default => .ga
  | .techPreviewNoUpgrade => .techPreview
  | .devPreviewNoUpgrade => .devPreview
  | .other _ => .ga

def FeatureSet.includes (fs : FeatureSet) (stage : FeatureStage) : Bool :=
  stage.toNat ≤ fs.maxStage.toNat

/-- `SeaplaneFeatureGates`, without the descriptions. -/
def seaplaneFeatureGates : List (String × FeatureStage) :=
  [("SeaplaneEtcdConfig", .ga),
   ("SeaplaneAutoScaling", .techPreview),
   ("SeaplaneSecretEncryption", .techPreview),
   ("SeaplaneCustomDNS", .devPreview),
   ("SeaplaneKubeletAdvanced", .techPreview),
   ("SeaplaneMachineConfig", .techPreview)]

def isGateEnabled (gate : String) (fs : FeatureSet) : Bool :=
  match seaplaneFeatureGates.lookup gate with
  | none => false
  | some stage => fs.includes stage

/-! ### The field registry -/

/-- A write mode is a string in the source; those of another text are kept apart. -/
inductive WriteMode where
  | «mutable»
  | immutable
  | serviceSet
  | other (text : String)
  deriving DecidableEq

structure FieldMeta where
  writeMode : WriteMode
  featureGate : String := ""
  hidden : Bool := false
  deriving DecidableEq

def FieldMeta.hiddenFromPublicAPI (m : FieldMeta) : Bool :=
  m.hidden && m.writeMode != .«mutable»

abbrev TypedFieldRegistry := String → Option (String → Option FieldMeta)

structure CRDVariantGenerator where
  fieldRegistry : TypedFieldRegistry
  resourceType : String

namespace CRDVariantGenerator

variable (g : CRDVariantGenerator) (fs : FeatureSet)

def shouldIncludeField (fieldPath : String) : Bool :=
  match g.fieldRegistry g.resourceType with
  | none => true
  | some fieldsForType =>
    match fieldsForType fieldPath with
    | none => true
    | some m =>
      if m.hiddenFromPublicAPI then false
      else if m.featureGate != "" then isGateEnabled m.featureGate fs
      else true

/-! ### The walk -/

/-- `filterContext`; the feature set does not change on the way. -/
structure FilterContext where
  inSchema : Bool
  fieldPath : String
  deriving DecidableEq

def FilterContext.start : FilterContext := ⟨false, ""⟩

def isStructuralWrapper (fieldName : String) : Bool :=
  fieldName == "items" || fieldName == "additionalProperties"

def FilterContext.enter (ctx : FilterContext) (fieldName : String) : FilterContext :=
  if !ctx.inSchema && fieldName == "properties" then { ctx with inSchema := true }
  else if ctx.inSchema && fieldName != "properties" && !isStructuralWrapper fieldName then
    { ctx with
      fieldPath :=
        if ctx.fieldPath == "" then fieldName else ctx.fieldPath ++ "." ++ fieldName }
  else ctx

/-- The path that is looked up in the registry for a key, if any. -/
def FilterContext.lookedUp (ctx : FilterContext) (fieldName : String) : Option String :=
  let ctx := ctx.enter fieldName
  if ctx.inSchema && fieldName != "properties" && ctx.fieldPath != "" then some ctx.fieldPath
  else none

def drops (ctx : FilterContext) (fieldName : String) : Bool :=
  match ctx.lookedUp fieldName with
  | none => false
  | some path => !g.shouldIncludeField fs path

/-- `filterCRDNode`: a mapping loses the entries that are left out, and the walk goes on in the
values of the others and in the elements of sequences. -/
def filterCRDNode (ctx : FilterContext) (node : Yaml) : Yaml :=
  prune FilterContext.enter (g.drops fs) ctx node

/-- The tree that `GenerateVariant` writes. -/
def generateVariant (crd : Yaml) : Yaml := g.filterCRDNode fs .start crd

/-! ### What the keys are -/

/-- What a node of a CRD is: a part around the schemas, a schema of a field, the fields of a schema,
a list of required fields, or the value of another keyword. -/
inductive Role where
  | envelope
  | schema (field : List String)
  | fields (field : List String)
  | required
  | data
  deriving DecidableEq

def Role.enter : Role → String → Role
  | .envelope, k => if k = "openAPIV3Schema" then .schema [] else .envelope
  | .schema field, k =>
    if k = "properties" then .fields field
    else if k = "items" ∨ k = "additionalProperties" then .schema field
    else if k = "required" then .required
    else .data
  | .fields field, k => .schema (field ++ [k])
  | .required, _ => .required
  | .data, _ => .data

def roleAt (l : List Step) : Role := within Role.enter .envelope l

/-- The path under which a field is registered. -/
def dotted (field : List String) : String := ".".intercalate field

/-- Registered as hidden, or behind a gate that is not enabled. -/
def Unavailable (field : List String) : Prop :=
  ∃ fieldsForType m, g.fieldRegistry g.resourceType = some fieldsForType ∧
    fieldsForType (dotted field) = some m ∧
      (m.hiddenFromPublicAPI = true ∨ m.featureGate ≠ "" ∧ isGateEnabled m.featureGate fs = false)

/-- Neither the place nor a field around it is unavailable. -/
def Available (l : List Step) : Prop :=
  ∀ m k field, m ++ [.key k] <+: l → roleAt m = .fields field →
    ¬ g.Unavailable fs (field ++ [k])

def HasProperty (schema : Yaml) (name : String) : Prop :=
  (schema.follow [.key "properties", .key name]).isSome

def Requires (schema : Yaml) (name : String) : Prop :=
  ∃ i, schema.follow [.key "required", .index i] = some (.scalar name)

/-- The variant is the base without the fields that are not available, and their names in the
`required` lists. -/
structure Exact (base variant : Yaml) : Prop where
  property : ∀ l k field, roleAt l = .fields field →
    ((variant.follow (l ++ [.key k])).isSome ↔
      (base.follow (l ++ [.key k])).isSome ∧ g.Available fs (l ++ [.key k]))
  keyword : ∀ l, roleAt l.dropLast ≠ .required → g.Available fs l →
    (variant.follow l).map shape = (base.follow l).map shape
  required : ∀ l field s s', roleAt l = .schema field → base.follow l = some s →
    variant.follow l = some s' →
      ∀ name, Requires s' name ↔ Requires s name ∧ HasProperty s' name

def keysOf (l : List Step) : List String :=
  l.filterMap fun s => match s with
    | .key k => some k
    | .index _ => none

/-- The keys on the way to a place below the first `properties`, but for the three keywords, and
without empty ones at the start. -/
def trail (l : List Step) : List String :=
  (((keysOf l).dropWhile (· != "properties")).filter fun k =>
    k != "properties" && !isStructuralWrapper k).dropWhile (· == "")

/-- The trail to an entry is registered like a field that is not available. -/
structure Marked (l : List Step) (k : String) : Prop where
  key : k ≠ "properties"
  trail : trail (l ++ [.key k]) ≠ []
  unavailable : g.Unavailable fs (CRDVariantGenerator.trail (l ++ [.key k]))

/-- The registry says the same of a field and of the trail to it, and nothing of the trails to other
entries; and required fields are there and available. -/
structure WellRegistered (base : Yaml) : Prop where
  fields : ∀ l k field, (base.follow (l ++ [.key k])).isSome → g.Available fs l →
    roleAt l = .fields field → (g.Marked fs l k ↔ g.Unavailable fs (field ++ [k]))
  others : ∀ l k, (base.follow (l ++ [.key k])).isSome → g.Available fs l →
    roleAt l ≠ .required → (∀ field, roleAt l ≠ .fields field) → ¬ g.Marked fs l k
  required : ∀ l field s, roleAt l = .schema field → base.follow l = some s → g.Available fs l →
    ∀ name, Requires s name → HasProperty s name ∧ ¬ g.Unavailable fs (field ++ [name])

/-! ### Places -/

lemma roleAt_key (l : List Step) (k : String) : roleAt (l ++ [.key k]) = (roleAt l).enter k := by
  rw [roleAt, within_append]
  rfl

lemma roleAt_index (l : List Step) (i : ℕ) : roleAt (l ++ [.index i]) = roleAt l := by
  rw [roleAt, within_append]
  rfl

variable {l : List Step} {k name : String} {base s : Yaml} {field : List String}

lemma roleAt_of_dropLast (h : roleAt l.dropLast = .required) : roleAt l = .required := by
  induction l using List.reverseRecOn with
  | nil => exact h
  | append_singleton l s _ =>
    rw [List.dropLast_concat] at h
    cases s with
    | key k => rw [roleAt_key, h, Role.enter]
    | index i => rw [roleAt_index, h]

variable {g fs}

lemma Available.nil : g.Available fs [] := by
  intro m k field h
  simp at h

lemma available_key :
    g.Available fs (l ++ [.key k]) ↔
      g.Available fs l ∧ ¬ ∃ field, roleAt l = .fields field ∧ g.Unavailable fs (field ++ [k]) := by
  constructor
  · intro h
    refine ⟨fun m k' field hm => h m k' field (hm.trans (List.prefix_append l _)), ?_⟩
    rintro ⟨field, hrole, hun⟩
    exact h l k field List.prefix_rfl hrole hun
  · rintro ⟨hl, hk⟩ m k' field hm hrole hun
    rcases List.prefix_concat_iff.mp hm with heq | hm
    · obtain ⟨rfl, hs⟩ := List.append_inj' heq rfl
      cases hs
      exact hk ⟨field, hrole, hun⟩
    · exact hl m k' field hm hrole hun

lemma available_index {i : ℕ} : g.Available fs (l ++ [.index i]) ↔ g.Available fs l := by
  constructor
  · intro h m k field hm
    exact h m k field (hm.trans (List.prefix_append l _))
  · intro h m k field hm
    rcases List.prefix_concat_iff.mp hm with heq | hm
    · obtain ⟨-, hs⟩ := List.append_inj' heq rfl
      cases hs
    · exact h m k field hm

/-! ### The trail is what is looked up -/

lemma dotted_concat {field : List String} (h : field ≠ []) (k : String) :
    dotted (field ++ [k]) = dotted field ++ "." ++ k := by
  induction field with
  | nil => exact absurd rfl h
  | cons a field ih =>
    unfold dotted at ih ⊢
    cases field with
    | nil => simp [String.intercalate_cons_cons]
    | cons b field =>
      rw [List.cons_append, List.cons_append, String.intercalate_cons_cons, ← List.cons_append,
        ih (List.cons_ne_nil b field), String.intercalate_cons_cons]
      simp only [String.append_assoc]

lemma dotted_ne_empty {field : List String} (h : field ≠ []) (hhead : field.head? ≠ some "") :
    dotted field ≠ "" := by
  obtain ⟨a, field, rfl⟩ := List.exists_cons_of_ne_nil h
  have ha : a ≠ "" := fun ha => hhead (congrArg some ha)
  unfold dotted
  cases field with
  | nil => simpa using ha
  | cons b field =>
    rw [String.intercalate_cons_cons]
    simp [ha]

lemma trail_head (l : List Step) : (trail l).head? ≠ some "" := by
  intro h
  have hhead := List.head?_dropWhile_not (· == "") (((keysOf l).dropWhile
    (· != "properties")).filter fun k => k != "properties" && !isStructuralWrapper k)
  rw [show List.dropWhile _ _ = trail l from rfl, h] at hhead
  simp at hhead

lemma dotted_trail : dotted (trail l) = "" ↔ trail l = [] := by
  constructor
  · intro h
    by_contra hne
    exact dotted_ne_empty hne (trail_head l) h
  · intro h
    rw [h]
    rfl

lemma keysOf_key (l : List Step) (k : String) : keysOf (l ++ [.key k]) = keysOf l ++ [k] := by
  simp [keysOf]

lemma below_properties (h : "properties" ∉ keysOf l) :
    (keysOf l).dropWhile (· != "properties") = [] := by
  rw [List.dropWhile_eq_nil_iff]
  intro k hk
  simpa using fun heq : k = "properties" => h (heq ▸ hk)

lemma trail_eq_nil (h : "properties" ∉ keysOf l) : trail l = [] := by
  rw [trail, below_properties h]
  rfl

/-- A key below the first `properties` that is no keyword is put on the trail. -/
lemma trail_key (l : List Step) (k : String) : trail (l ++ [.key k]) =
    if "properties" ∈ keysOf l ∧ k ≠ "properties" ∧ isStructuralWrapper k = false ∧
      (trail l = [] → k ≠ "") then trail l ++ [k] else trail l := by
  by_cases hin : "properties" ∈ keysOf l
  · have hsome : ((keysOf l).dropWhile (· != "properties")).isEmpty = false := by
      rw [Bool.eq_false_iff, ne_eq, List.isEmpty_iff, List.dropWhile_eq_nil_iff]
      intro h
      simpa using h _ hin
    have hstep : trail (l ++ [.key k]) =
        if k ≠ "properties" ∧ isStructuralWrapper k = false then
          if trail l = [] then [k].dropWhile (· == "") else trail l ++ [k]
        else trail l := by
      rw [trail, keysOf_key, List.dropWhile_append, hsome, if_neg Bool.false_ne_true,
        List.filter_append, List.filter_cons, List.filter_nil]
      by_cases hk : k ≠ "properties" ∧ isStructuralWrapper k = false
      · rw [if_pos hk, if_pos (by simp [hk]), List.dropWhile_append]
        simp only [List.isEmpty_iff]
        rfl
      · rw [if_neg hk, if_neg (by simpa using hk), List.append_nil]
        rfl
    rw [hstep]
    by_cases hnil : trail l = [] <;> by_cases hempty : k = "" <;> simp [hin, hnil, hempty]
  · rw [if_neg fun h => hin h.1, trail_eq_nil hin, trail, keysOf_key, List.dropWhile_append,
      below_properties hin]
    by_cases hk : k = "properties" <;> simp [hk]

lemma within_start (l : List Step) : within FilterContext.enter .start l =
    ⟨decide ("properties" ∈ keysOf l), dotted (trail l)⟩ := by
  induction l using List.reverseRecOn with
  | nil => rfl
  | append_singleton l s ih =>
    cases s with
    | index i =>
      rw [within_append, ih]
      simp [within, keysOf, trail]
    | key k =>
      rw [within_append, ih, trail_key, keysOf_key]
      simp only [within, FilterContext.enter]
      by_cases hin : "properties" ∈ keysOf l
      · by_cases hk : k ≠ "properties" ∧ isStructuralWrapper k = false
        · by_cases hnil : trail l = []
          · by_cases hempty : k = "" <;> simp [hin, hk, hnil, hempty, dotted]
          · simp [hin, hk, hnil, dotted_trail, dotted_concat hnil]
        · have hkey : k = "properties" ∨ isStructuralWrapper k = true := by
            rwa [not_and_or, not_not, Bool.not_eq_false] at hk
          rcases hkey with hkey | hkey <;> simp [hin, hkey]
      · by_cases hk : k = "properties"
        · simp [hin, hk]
        · simp [hin, hk, Ne.symm hk]

/-- **The walk** looks up the trail to an entry. -/
lemma lookedUp_iff {path : String} : (within FilterContext.enter .start l).lookedUp k = some path ↔
    k ≠ "properties" ∧ trail (l ++ [.key k]) ≠ [] ∧ path = dotted (trail (l ++ [.key k])) := by
  have hctx := within_start (l ++ [.key k])
  rw [within_append] at hctx
  unfold FilterContext.lookedUp
  rw [show (within FilterContext.enter .start l).enter k = _ from hctx]
  have hin (htrail : trail (l ++ [.key k]) ≠ []) : "properties" ∈ keysOf (l ++ [.key k]) := by
    by_contra hout
    exact htrail (trail_eq_nil hout)
  simp only [Option.ite_none_right_eq_some, Bool.and_eq_true, decide_eq_true_eq, bne_iff_ne, ne_eq,
    dotted_trail, Option.some_inj]
  grind

lemma shouldIncludeField_iff {field : List String} :
    g.shouldIncludeField fs (dotted field) = false ↔ g.Unavailable fs field := by
  unfold shouldIncludeField Unavailable
  cases g.fieldRegistry g.resourceType with
  | none => simp
  | some fieldsForType =>
    cases hm : fieldsForType (dotted field) with
    | none => simp [hm]
    | some m => cases hhidden : m.hiddenFromPublicAPI <;> simp [hm, hhidden]

lemma drops_iff : g.drops fs (within FilterContext.enter .start l) k = true ↔ g.Marked fs l k := by
  unfold drops
  cases hpath : (within FilterContext.enter .start l).lookedUp k with
  | none =>
    refine iff_of_false (by simp) fun h => ?_
    rw [lookedUp_iff.mpr ⟨h.key, h.trail, rfl⟩] at hpath
    cases hpath
  | some path =>
    obtain ⟨hk, htrail, rfl⟩ := lookedUp_iff.mp hpath
    rw [Bool.not_eq_true', shouldIncludeField_iff]
    exact ⟨fun h => ⟨hk, htrail, h⟩, fun h => h.unavailable⟩

/-! ### The walk against the roles -/

/-- An entry has been left out on the way to the place. -/
def lost (g : CRDVariantGenerator) (fs : FeatureSet) (l : List Step) : Bool :=
  along FilterContext.enter (g.drops fs) .start l

lemma lost_key :
    g.lost fs (l ++ [.key k]) = true ↔
      g.lost fs l = true ∨ g.Marked fs l k := by
  rw [lost, along_key, Bool.or_eq_true, drops_iff]
  rfl

lemma lost_index {i : ℕ} : g.lost fs (l ++ [.index i]) = g.lost fs l :=
  along_index ..

lemma isSome_follow_variant :
    ((g.generateVariant fs base).follow l).isSome ↔ g.lost fs l = false ∧ (base.follow l).isSome :=
  isSome_follow_prune ..

lemma follow_variant (h : g.lost fs l = false) :
    (g.generateVariant fs base).follow l =
      (base.follow l).map (g.filterCRDNode fs (within FilterContext.enter .start l)) := by
  refine (follow_prune ..).trans (if_neg ?_)
  rw [lost] at h
  simp [h]

lemma shape_follow_variant (h : g.lost fs l = false) :
    ((g.generateVariant fs base).follow l).map shape = (base.follow l).map shape := by
  rw [follow_variant h, Option.map_map]
  exact congrArg (Option.map · _) (funext fun y => shape_prune _ y)

lemma follow_variant_eq_scalar {t : String} (h : g.lost fs l = false) :
    (g.generateVariant fs base).follow l = some (.scalar t) ↔ base.follow l = some (.scalar t) := by
  rw [follow_variant h]
  cases base.follow l with
  | none => simp
  | some y => cases y <;> simp [filterCRDNode, prune]

lemma requires_iff {y : Yaml} (hs : y.follow l = some s) :
    Requires s name ↔
      ∃ i, y.follow (l ++ [.key "required"] ++ [.index i]) = some (.scalar name) := by
  simp only [Requires, List.append_assoc, follow_append y l, hs]
  rfl

lemma hasProperty_iff {y : Yaml} (hs : y.follow l = some s) :
    HasProperty s name ↔ (y.follow (l ++ [.key "properties"] ++ [.key name])).isSome := by
  rw [HasProperty, List.append_assoc, follow_append y l, hs]
  rfl

lemma requires_variant {s' : Yaml} (hbase : base.follow l = some s)
    (hvar : (g.generateVariant fs base).follow l = some s')
    (hkept : (base.follow (l ++ [.key "required"])).isSome →
      g.lost fs (l ++ [.key "required"]) = false) : Requires s' name ↔ Requires s name := by
  rw [requires_iff hbase, requires_iff hvar]
  cases hlost : g.lost fs (l ++ [.key "required"]) with
  | false => exact exists_congr fun i => follow_variant_eq_scalar (lost_index.trans hlost)
  | true =>
    have hno : ¬ (base.follow (l ++ [.key "required"])).isSome := by
      intro h
      rw [hkept h] at hlost
      cases hlost
    constructor
    · rintro ⟨i, hi⟩
      have hsome := isSome_follow_of_append (Option.isSome_of_mem hi)
      exact absurd (isSome_follow_variant.mp hsome).2 hno
    · rintro ⟨i, hi⟩
      exact absurd (isSome_follow_of_append (Option.isSome_of_mem hi)) hno

/-! ### When the variant is exact -/

lemma roleAt_dropLast_of_schema (h : roleAt l = .schema field) : roleAt l.dropLast ≠ .required := by
  intro hd
  rw [roleAt_of_dropLast hd] at h
  cases h

lemma roleAt_properties (h : roleAt l = .schema field) :
    roleAt (l ++ [.key "properties"]) = .fields field := by
  rw [roleAt_key, h]
  rfl

lemma available_keyword (h : roleAt l = .schema field) (ha : g.Available fs l) (k : String) :
    g.Available fs (l ++ [.key k]) := by
  refine available_key.mpr ⟨ha, ?_⟩
  rintro ⟨field', hf, -⟩
  rw [h] at hf
  cases hf

lemma WellRegistered.marked_iff (h : g.WellRegistered fs base)
    (hl : (base.follow (l ++ [.key k])).isSome) (ha : g.Available fs l)
    (hrole : roleAt l ≠ .required) :
    g.Marked fs l k ↔ ∃ field, roleAt l = .fields field ∧ g.Unavailable fs (field ++ [k]) := by
  by_cases hfield : ∃ field, roleAt l = .fields field
  · obtain ⟨field, hfield⟩ := hfield
    rw [h.fields l k field hl ha hfield]
    constructor
    · exact fun hun => ⟨field, hfield, hun⟩
    · rintro ⟨field', hfield', hun⟩
      rw [hfield] at hfield'
      cases hfield'
      exact hun
  · refine iff_of_false (h.others l k hl ha hrole fun field hf => hfield ⟨field, hf⟩) ?_
    rintro ⟨field, hf, -⟩
    exact hfield ⟨field, hf⟩

lemma WellRegistered.lost_iff (h : g.WellRegistered fs base) (hl : (base.follow l).isSome)
    (hrole : roleAt l.dropLast ≠ .required) : g.lost fs l = true ↔ ¬ g.Available fs l := by
  induction l using List.reverseRecOn with
  | nil => simp [lost, along, Available.nil]
  | append_singleton l s ih =>
    rw [List.dropLast_concat] at hrole
    have ih := ih (isSome_follow_of_append hl) (fun hd => hrole (roleAt_of_dropLast hd))
    cases s with
    | key k =>
      rw [lost_key, ih, available_key, not_and_or, not_not]
      by_cases ha : g.Available fs l
      · rw [h.marked_iff hl ha hrole]
      · simp [ha]
    | index i => rw [lost_index, ih, available_index]

lemma WellRegistered.kept_iff (h : g.WellRegistered fs base) (hl : (base.follow l).isSome)
    (hrole : roleAt l.dropLast ≠ .required) : g.lost fs l = false ↔ g.Available fs l := by
  rw [← Bool.not_eq_true, h.lost_iff hl hrole, not_not]

lemma WellRegistered.exact (h : g.WellRegistered fs base) :
    g.Exact fs base (g.generateVariant fs base) := by
  have hprop : ∀ l k field, roleAt l = .fields field →
      (((g.generateVariant fs base).follow (l ++ [.key k])).isSome ↔
        (base.follow (l ++ [.key k])).isSome ∧ g.Available fs (l ++ [.key k])) := by
    intro l k field hrole
    have hreq : roleAt (l ++ [Step.key k]).dropLast ≠ .required := by
      rw [List.dropLast_concat, hrole]
      simp
    rw [isSome_follow_variant, and_comm]
    exact and_congr_right fun hbase => h.kept_iff hbase hreq
  refine ⟨hprop, fun l hreq ha => ?_, fun l field s s' hrole hbase hvar name => ?_⟩
  · cases hbase : base.follow l with
    | none =>
      have hnone : ¬ ((g.generateVariant fs base).follow l).isSome := by
        simp [isSome_follow_variant, hbase]
      rw [Option.not_isSome_iff_eq_none.mp hnone]
    | some y =>
      have hsome : (base.follow l).isSome := by
        rw [hbase]
        rfl
      rw [← hbase]
      exact shape_follow_variant ((h.kept_iff hsome hreq).mpr ha)
  · have hsome := isSome_follow_variant.mp (Option.isSome_of_mem hvar)
    have ha := (h.kept_iff hsome.2 (roleAt_dropLast_of_schema hrole)).mp hsome.1
    have hkept (hb : (base.follow (l ++ [.key "required"])).isSome) :
        g.lost fs (l ++ [.key "required"]) = false := by
      refine (h.kept_iff hb ?_).mpr (available_keyword hrole ha _)
      rw [List.dropLast_concat, hrole]
      simp
    rw [requires_variant hbase hvar hkept]
    refine ⟨fun hr => ⟨hr, ?_⟩, And.left⟩
    obtain ⟨hhas, hun⟩ := h.required l field s hrole hbase ha name hr
    rw [hasProperty_iff hvar, hprop _ _ field (roleAt_properties hrole), ← hasProperty_iff hbase]
    refine ⟨hhas, available_key.mpr ⟨available_keyword hrole ha _, ?_⟩⟩
    rintro ⟨field', hf, hun'⟩
    rw [roleAt_properties hrole] at hf
    cases hf
    exact hun hun'

lemma Exact.kept (h : g.Exact fs base (g.generateVariant fs base)) (hl : (base.follow l).isSome)
    (hrole : roleAt l.dropLast ≠ .required) (ha : g.Available fs l) : g.lost fs l = false := by
  have hshape := congrArg Option.isSome (h.keyword l hrole ha)
  rw [Option.isSome_map, Option.isSome_map, hl] at hshape
  exact (isSome_follow_variant.mp hshape).1

lemma Exact.marked_iff (h : g.Exact fs base (g.generateVariant fs base))
    (hl : (base.follow (l ++ [.key k])).isSome) (ha : g.Available fs l)
    (hrole : roleAt l ≠ .required) :
    g.Marked fs l k ↔ ∃ field, roleAt l = .fields field ∧ g.Unavailable fs (field ++ [k]) := by
  have hkept := h.kept (isSome_follow_of_append hl) (fun hd => hrole (roleAt_of_dropLast hd)) ha
  have hkey := @lost_key g fs l k
  rw [hkept] at hkey
  have havail := @available_key g fs l k
  constructor
  · intro hpath
    by_contra hno
    have hk := h.kept hl (by rwa [List.dropLast_concat]) (havail.mpr ⟨ha, hno⟩)
    rw [hkey.mpr (.inr hpath)] at hk
    cases hk
  · rintro ⟨field, hf, hun⟩
    have hgone : ¬ ((g.generateVariant fs base).follow (l ++ [.key k])).isSome := by
      rw [h.property l k field hf]
      rintro ⟨-, ha'⟩
      exact (havail.mp ha').2 ⟨field, hf, hun⟩
    rw [isSome_follow_variant, and_iff_left hl, Bool.not_eq_false, hkey] at hgone
    simpa using hgone

lemma Exact.required_available (h : g.Exact fs base (g.generateVariant fs base))
    (hrole : roleAt l = .schema field) (hbase : base.follow l = some s) (ha : g.Available fs l)
    (hr : Requires s name) : HasProperty s name ∧ ¬ g.Unavailable fs (field ++ [name]) := by
  have hkept := h.kept (Option.isSome_of_mem hbase) (roleAt_dropLast_of_schema hrole) ha
  obtain ⟨s', hvar⟩ := Option.isSome_iff_exists.mp
    (isSome_follow_variant.mpr ⟨hkept, Option.isSome_of_mem hbase⟩)
  have hlist (hb : (base.follow (l ++ [.key "required"])).isSome) :
      g.lost fs (l ++ [.key "required"]) = false := by
    refine h.kept hb ?_ (available_keyword hrole ha _)
    rw [List.dropLast_concat, hrole]
    simp
  have hhas := ((h.required l field s s' hrole hbase hvar name).mp
    ((requires_variant hbase hvar hlist).mpr hr)).2
  have hfields := roleAt_properties hrole
  rw [hasProperty_iff hvar, h.property _ _ field hfields] at hhas
  refine ⟨(hasProperty_iff hbase).mpr hhas.1, fun hun => ?_⟩
  exact (available_key.mp hhas.2).2 ⟨field, hfields, hun⟩

/-- The variant for a feature set is exact if and only if the registry says of the trails what it
says of the fields, and the required fields are available. -/
theorem exact_iff_wellRegistered (g : CRDVariantGenerator) (fs : FeatureSet) (base : Yaml) :
    g.Exact fs base (g.generateVariant fs base) ↔ g.WellRegistered fs base := by
  constructor
  · intro h
    refine ⟨fun l k field hl ha hfield => ?_, fun l k hl ha hrole hno hmarked => ?_,
      fun l field s hrole hbase ha name hr => h.required_available hrole hbase ha hr⟩
    · rw [h.marked_iff hl ha (by simp [hfield]), hfield]
      simp
    · obtain ⟨field, hfield, -⟩ := (h.marked_iff hl ha hrole).mp hmarked
      exact hno field hfield
  · intro h
    exact h.exact

/-- Three fields of Clusters that the service sets and clients do not see. -/
def servicePaths (path : String) : Option FieldMeta :=
  if path = "spec.creatorARN" ∨ path = "spec.items" ∨ path = "spec.type" then
    some { writeMode := .serviceSet, hidden := true }
  else none

def serviceFields : CRDVariantGenerator where
  fieldRegistry kind := if kind = "Cluster" then some servicePaths else none
  resourceType := "Cluster"

def specPlace : List Step :=
  [.key "spec", .key "versions", .index 0, .key "schema", .key "openAPIV3Schema",
    .key "properties", .key "spec"]

/-- The schema of a `spec` that has the three fields, one of them required. -/
def serviceSpec : Yaml :=
  .mapping [("type", .scalar "object"),
    ("required", .sequence [.scalar "creatorARN"]),
    ("properties", .mapping [("creatorARN", .mapping [("type", .scalar "string")]),
      ("items", .mapping [("type", .scalar "array")]),
      ("type", .mapping [("type", .scalar "string")])])]

def serviceCRD : Yaml :=
  .mapping [("kind", .scalar "CustomResourceDefinition"),
    ("spec", .mapping [("versions", .sequence [.mapping [("name", .scalar "v1alpha1"),
      ("schema", .mapping [("openAPIV3Schema", .mapping [("type", .scalar "object"),
        ("properties", .mapping [("spec", serviceSpec)])])])]])])]

/-- In the variant the field `items` is still there, the `type` of the `spec` is gone, and a field
that is gone is still required. -/
theorem variant_inexact :
    let variant := serviceFields.generateVariant .default serviceCRD
    (variant.follow (specPlace ++ [.key "properties"] ++ [.key "items"])).isSome ∧
      (variant.follow (specPlace ++ [.key "type"])).isSome = false ∧
      (variant.follow (specPlace ++ [.key "properties"] ++ [.key "creatorARN"])).isSome = false ∧
      (variant.follow (specPlace ++ [.key "required"] ++ [.index 0])).map shape =
        some (.scalar "creatorARN") ∧
      ¬ serviceFields.Exact .default serviceCRD variant := by
  intro variant
  have hitems : (variant.follow (specPlace ++ [.key "properties"] ++ [.key "items"])).isSome := by
    decide +kernel
  refine ⟨hitems, by decide +kernel, by decide +kernel, by decide +kernel, fun h => ?_⟩
  have havail := ((h.property _ _ ["spec"] (by decide)).mp hitems).2
  refine havail (specPlace ++ [.key "properties"]) "items" ["spec"] List.prefix_rfl (by decide) ?_
  exact ⟨servicePaths, { writeMode := .serviceSet, hidden := true }, by simp [serviceFields],
    by decide, .inl (by decide)⟩

end CRDVariantGenerator

end Seaplane.Codegen
