import Seaplane.Lib.Fallible
import Seaplane.Lib.GoShape

/-!
Keeping what the platform sets.

An update is merged into the stored spec; then the values at the paths that are service-set are
taken back from the stored one. Both specs are read into maps, so their numbers become doubles, and
the candidate is rebuilt from its map if anything had to be taken back, which brings back required
fields. The paths come from a Go map, so their order is arbitrary. A spec is given by the document
it marshals to.
-/

namespace Seaplane.Api.Preserve

open Lib Json SortedMap

inductive WriteMode where
  | mutable
  | immutable
  | serviceSet
  deriving DecidableEq

structure FeatureGateWriteMode where
  featureGate : String
  writeMode : WriteMode

structure FieldMeta where
  writeMode : WriteMode
  featureGateAwareWriteModes : List FeatureGateWriteMode

abbrev Members := List (String × Json)

def lookupPath (m : Members) (keys : List String) : Option Json := follow keys (.obj m)

def specMap (spec : Members) : Except String Members :=
  match toFloatsMembers .negZero spec with
  | some m => .ok m
  | none => .error "json: cannot unmarshal number into Go value of type float64"

section Preserve

variable (enabled : String → Bool)

end Preserve

/-! ### One path is written -/

variable {v : Json} {got' : Members} {order : Registry}

section SetPath

/-- Whatever is on the way to a path is an object, null or nothing. -/
def Passable (keys : List String) (m : Members) : Prop :=
  ∀ ks ls, keys = ks ++ ls → ls ≠ [] → ∀ v, lookupPath m ks = some v → v.isObj = true ∨ v = .null

/-- What the kind of value at a path is once a value was written at `keys`. -/
def kindAfter (value : Option Json) (keys ks : List String) (m : Members) : Option Json :=
  if keys <+: ks then value.bind (kind (ks.drop keys.length))
  else if ks <+: keys ∧ value.isSome then some (.obj [])
  else kind ks (.obj m)

variable {value : Option Json} {key : String} {keys ks : List String} {m child child' : Members}

end SetPath

/-! ### All paths are written -/

variable {m stored want got : Members} {p ks : List String}

section Loop

variable {enabled : String → Bool} {registry fields : Registry} {want got got0 : Members}
  {done : List (List String)} {keys ks : List String}

/-- What kind of value belongs at a path: the stored one at and below what is service-set, an object
above what is stored there, and elsewhere the merged one. -/
def belongs (paths : List (List String)) (stored merged : Members) (ks : List String) :
    Option Json :=
  if ∃ p ∈ paths, p <+: ks then kind ks (.obj stored)
  else if ∃ p ∈ paths, ks <+: p ∧ (lookupPath stored p).isSome then some (.obj [])
  else kind ks (.obj merged)

/-- The map with the values at some paths taken from another one. -/
def Overlay (done : List (List String)) (want got0 got : Members) : Prop :=
  ∀ ks, kind ks (.obj got) = belongs done want got0 ks

lemma kind_above (hle : ks <+: keys) (hne : ¬keys <+: ks)
    (h : (lookupPath m keys).isSome) : kind ks (.obj m) = some (.obj []) := by
  obtain ⟨ls, rfl⟩ := hle
  refine kind_of_follow (fun hls => hne ?_) h
  simp [hls]

lemma kind_below (hle : keys <+: ks) :
    kind ks (.obj m) = (lookupPath m keys).bind (kind (ks.drop keys.length)) := by
  obtain ⟨ls, rfl⟩ := hle
  rw [List.drop_left, kind, follow_append, lookupPath]
  cases follow keys (.obj m) <;> rfl

lemma Overlay.cons (h : Overlay done want got0 got)
    (hkind : ∀ ks, kind ks (.obj got') = kindAfter (lookupPath want keys) keys ks got) :
    Overlay (keys :: done) want got0 got' := by
  intro ks
  rw [hkind, kindAfter, belongs]
  simp only [List.exists_mem_cons_iff]
  by_cases hle : keys <+: ks
  · rw [if_pos hle, if_pos (.inl hle), ← kind_below hle]
  · rw [if_neg hle]
    by_cases hup : ks <+: keys ∧ (lookupPath want keys).isSome = true
    · rw [if_pos hup]
      split
      · exact (kind_above hup.1 hle hup.2).symm
      · rw [if_pos (.inl hup)]
    · rw [if_neg hup, h ks, belongs]
      simp only [hle, hup, false_or]

lemma Overlay.congr {done' : List (List String)} (h : Overlay done want got0 got)
    (hmem : ∀ p, p ∈ done ↔ p ∈ done') : Overlay done' want got0 got := by
  intro ks
  rw [h ks]
  simp only [belongs, hmem]

end Loop

/-! ### What the update is -/

section Exact

variable {enabled : String → Bool} {registry : Registry} {paths : List (List String)}
  {fields : GoFields}

/-- A spec of the type. -/
abbrev Spec (fields : GoFields) :=
  {m : Members // (obj m).canonical = true ∧ fields.rebuild m = some m}

abbrev specType (fields : GoFields) : GoShape := .struct false fields

/-- No path goes into what is decoded as a whole. -/
def AlongFields (fields : GoFields) (paths : List (List String)) : Prop :=
  ∀ ks ls, ks ++ ls ∈ paths → ls ≠ [] → ∀ zero hz accepts,
    (specType fields).typeAt ks ≠ some (.value zero hz accepts)

/-- The value is the same after it was read: its numbers are doubles. -/
def Survives (v : Json) : Prop := toFloats .negZero v = some v

/-- The service-set paths have the stored values, and every leaf that is not at or below one of them
is as merged; null above a service-set path means that the object is not there. -/
structure Preserved (paths : List (List String)) (stored merged result : Members) : Prop where
  kept : ∀ p ∈ paths, lookupPath result p = lookupPath stored p
  frame : ∀ ks v, (¬∃ p ∈ paths, p <+: ks) → v.isObj = false →
    (v = .null → ¬∃ p ∈ paths, ks <+: p) →
    (lookupPath result ks = some v ↔ lookupPath merged ks = some v)

/-- Nothing of a value that appears at a place counts: its leaves are nulls above service-set paths,
and no such path leads to anything in it. -/
structure Unseen (paths : List (List String)) (place : List String) (v : Json) : Prop where
  leaves : ∀ ls w, follow ls v = some w → w.isObj = false →
    w = .null ∧ ∃ p ∈ paths, place ++ ls <+: p
  paths : ∀ ls, place ++ ls ∈ paths → follow ls v = none

/-- No object that belongs in the update lacks a required field with a zero value that counts. -/
def Complete (fields : GoFields) (paths : List (List String)) (stored merged : Members) : Prop :=
  ∀ ks f z, (specType fields).required ks f = some z →
    belongs paths stored merged ks = some (.obj []) →
    belongs paths stored merged (ks ++ [f]) = none → Unseen paths (ks ++ [f]) z

/-- The stored service-set values survive being read, as do the merged ones elsewhere. -/
structure Lossless (paths : List (List String)) (stored merged : Members) : Prop where
  stored : ∀ p ∈ paths, ∀ v, lookupPath stored p = some v → Survives v
  merged : ∀ ks v, (¬∃ p ∈ paths, p <+: ks) → v.isObj = false → lookupPath merged ks = some v →
    Survives v

variable {spec : Members}

lemma specMap_ok (h : specMap spec = .ok m) : toFloats .negZero (.obj spec) = some (.obj m) := by
  unfold specMap at h
  split at h
  · next m' hm' =>
    cases h
    rw [toFloats, hm']
    rfl
  · cases h

lemma lookup_specMap (h : specMap spec = .ok m) (ks : List String) :
    Option.Rel (Reads .negZero) (lookupPath spec ks) (lookupPath m ks) :=
  follow_toFloats rfl (specMap_ok h)

lemma read_eq_iff {v w : Option Json} (h : Option.Rel (Reads .negZero) v w) :
    w = v ↔ ∀ u, v = some u → Survives u := by
  cases h with
  | none => simp
  | some hread =>
    rw [Option.some_inj]
    constructor
    · rintro rfl u hu
      cases hu
      exact hread
    · intro hsurvives
      exact Option.some.inj (hread.symm.trans (hsurvives _ rfl))

lemma Overlay.leaf {done : List (List String)} (h : Overlay done want got got')
    (hpass : ∀ p ∈ done, (lookupPath want p).isSome → Passable p got)
    (hapart : ¬∃ p ∈ done, p <+: ks) (hv : v.isObj = false)
    (hnull : v = .null → ¬∃ p ∈ done, ks <+: p) :
    lookupPath got' ks = some v ↔ lookupPath got ks = some v := by
  have hkind := h ks
  rw [belongs, if_neg hapart] at hkind
  split at hkind
  · next hup =>
    -- an object is there now, and nothing but an object or null was
    obtain ⟨p, hp, ⟨ls, rfl⟩, hsome⟩ := hup
    refine iff_of_false (fun hnow => ?_) (fun hwas => ?_)
    · rw [(kind_eq_leaf hv).mpr hnow] at hkind
      cases hkind
      cases hv
    · have hls : ls ≠ [] := by
        rintro rfl
        rw [List.append_nil] at hp
        exact hapart ⟨ks, hp, List.prefix_rfl⟩
      rcases hpass _ hp hsome ks ls rfl hls v hwas with hvobj | hvnull
      · rw [hv] at hvobj
        cases hvobj
      · exact hnull hvnull ⟨_, hp, List.prefix_append ks ls⟩
  · rw [lookupPath, lookupPath, ← kind_eq_leaf hv, ← kind_eq_leaf hv, hkind]

lemma belongs_below {merged : Members} (hp : p ∈ paths)
    (hle : p <+: ks) : belongs paths stored merged ks = kind ks (.obj stored) :=
  if_pos ⟨p, hp, hle⟩

lemma above_of_value (halong : AlongFields fields paths) {q : List String} {zero : Json}
    {hz : zero.canonical = true} {accepts : Json → Bool}
    (htype : (specType fields).typeAt q = some (.value zero hz accepts)) (hp : p ∈ paths)
    (hle : q <+: p) : q = p := by
  obtain ⟨ls, rfl⟩ := hle
  by_contra hne
  refine halong q ls hp ?_ zero hz accepts htype
  rintro rfl
  exact hne (List.append_nil q).symm

section Follow

variable {want got : Members} {ks p : List String} (h : Overlay paths want got got')
  (hgot' : (obj got').canonical = true)
include h hgot'

lemma Overlay.follow_below (hwant : (obj want).canonical = true) (hp : p ∈ paths)
    (hle : p <+: ks) : follow ks (.obj got') = follow ks (.obj want) :=
  follow_eq_of_kind hgot' hwant fun ls =>
    (h _).trans (belongs_below hp (hle.trans (List.prefix_append ks ls)))

lemma Overlay.follow_value (hgot : (obj got).canonical = true) (halong : AlongFields fields paths)
    {zero : Json} {hz : zero.canonical = true} {accepts : Json → Bool}
    (htype : (specType fields).typeAt ks = some (.value zero hz accepts))
    (hapart : ¬∃ p ∈ paths, p <+: ks) : follow ks (.obj got') = follow ks (.obj got) := by
  have habove : ¬∃ p ∈ paths, ks <+: p := by
    rintro ⟨p, hp, hle⟩
    exact hapart ⟨p, hp, (above_of_value halong htype hp hle).symm ▸ List.prefix_rfl⟩
  refine follow_eq_of_kind hgot' hgot fun ls => (h _).trans ((if_neg ?_).trans (if_neg ?_))
  · rintro ⟨p, hp, hle⟩
    rcases List.prefix_or_prefix_of_prefix hle (List.prefix_append ks ls) with hle | hle
    · exact hapart ⟨p, hp, hle⟩
    · exact habove ⟨p, hp, hle⟩
  · rintro ⟨p, hp, hle, -⟩
    exact habove ⟨p, hp, (List.prefix_append ks ls).trans hle⟩

end Follow

section Rebuilt

variable {stored merged want got result : Members} {ks p : List String}

lemma Lossless.preserved {stored merged want got : Members} (hl : Lossless paths stored merged)
    (h : Overlay paths want got got') (hwant : specMap stored = .ok want)
    (hgot : specMap merged = .ok got) (hcanonical : (obj want).canonical = true)
    (hcanonical' : (obj got').canonical = true)
    (hpass : ∀ p ∈ paths, (lookupPath want p).isSome → Passable p got) :
    Preserved paths stored merged got' := by
  refine ⟨fun p hp => ?_, fun ks v hapart hv hnull => ?_⟩
  · rw [lookupPath, h.follow_below hcanonical' hcanonical hp List.prefix_rfl]
    exact (read_eq_iff (lookup_specMap hwant p)).mpr (hl.stored p hp)
  · rw [h.leaf hpass hapart hv hnull]
    have hrel := lookup_specMap hgot ks
    constructor
    · intro hread
      rw [hread] at hrel
      generalize hu : lookupPath merged ks = u at hrel
      cases hrel with
      | @some u _ huv =>
        have hleaf : u.isObj = false := (isObj_toFloats rfl huv).symm.trans hv
        have hsurvives := hl.merged ks u hapart hleaf hu
        rw [Option.some.inj (huv.symm.trans hsurvives)]
    · intro hv'
      rw [hv'] at hrel
      generalize hu : lookupPath got ks = u at hrel
      cases hrel with
      | some hvu =>
        have hsurvives := hl.merged ks v hapart hv hv'
        rw [Option.some.inj (hvu.symm.trans hsurvives)]

end Rebuilt

lemma Spec.conforms (spec : Spec fields) : (specType fields).Conforms (.obj spec.1) := by
  refine GoShape.conforms_of_rebuild ?_
  rw [GoShape.rebuild, spec.2.2]
  rfl

/-- A spec lacks no required field. -/
lemma Spec.required_ne_none (spec : Spec fields) {f : String} {z : Json}
    (hz : (specType fields).required ks f = some z)
    (hobj : kind ks (.obj spec.1) = some (.obj [])) :
    kind (ks ++ [f]) (.obj spec.1) ≠ none := by
  intro hnone
  have hrebuild : (specType fields).rebuild (.obj spec.1) = some (.obj spec.1) := by
    rw [GoShape.rebuild, spec.2.2]
    rfl
  have hfollow : follow (ks ++ [f]) (.obj spec.1) = none := Option.map_eq_none_iff.mp hnone
  have hthere := (GoShape.follow_rebuild spec.conforms hrebuild hfollow (v := z)).mpr
    ⟨ks, f, [], z, rfl, hz, hobj, hnone, rfl⟩
  rw [hfollow] at hthere
  cases hthere

section Typed

variable {stored merged : Spec fields} {result : Members} {ks p : List String}
  (hcanonical : (obj got').canonical = true) (hoverlay : Overlay paths stored.1 merged.1 got')

/-- A member of a spec's struct is of a field. -/
lemma Spec.field_of_follow (spec : Spec fields) {isPtr : Bool} {inner : GoFields} {k : String}
    {w : Json} (htype : (specType fields).typeAt ks = some (.struct isPtr inner))
    (hw : follow (ks ++ [k]) (.obj spec.1) = some w) :
    ∃ o u, inner.field k = some (o, u) ∧ u.omits o w = false := by
  rw [follow_append] at hw
  obtain ⟨v, hv, hw⟩ := Option.bind_eq_some_iff.mp hw
  rcases spec.conforms ks _ v htype hv with ⟨rfl, -⟩ | ⟨ms, rfl, hfields⟩
  · cases hw
  · refine hfields k w ?_
    obtain ⟨w', hw', hw⟩ := Option.bind_eq_some_iff.mp hw
    rw [hw', Option.some.inj hw]

include hcanonical hoverlay in
/-- A member of the map's structs is of a field, too. -/
lemma field_of_follow (halong : AlongFields fields paths) {isPtr : Bool} {inner : GoFields}
    {k : String} {w : Json} (htype : (specType fields).typeAt ks = some (.struct isPtr inner))
    (hw : follow (ks ++ [k]) (.obj got') = some w) :
    ∃ o u, inner.field k = some (o, u) ∧ u.omits o w = false := by
  by_cases hbelow : ∃ p ∈ paths, p <+: ks ++ [k]
  · obtain ⟨p, hp, hle⟩ := hbelow
    rw [hoverlay.follow_below hcanonical stored.2.1 hp hle] at hw
    exact stored.field_of_follow htype hw
  · have hk := hoverlay (ks ++ [k])
    rw [kind, hw, Option.map_some, belongs, if_neg hbelow] at hk
    -- the type of the field tells how much of the value has to be as it was
    have hfield {spec : Spec fields} {w' : Json}
        (hw' : follow (ks ++ [k]) (.obj spec.1) = some w') (hshape : shape w = shape w')
        (hvalue : ∀ zero hz accepts,
          (specType fields).typeAt (ks ++ [k]) = some (.value zero hz accepts) → w = w') :
        ∃ o u, inner.field k = some (o, u) ∧ u.omits o w = false := by
      obtain ⟨o, u, hu, ho⟩ := spec.field_of_follow htype hw'
      refine ⟨o, u, hu, ?_⟩
      cases u with
      | value zero hz accepts =>
        rw [hvalue zero hz accepts (by rw [GoShape.typeAt_concat htype, hu]; rfl)]
        exact ho
      | struct => rw [GoShape.omits_struct hshape, ho]
    split at hk
    · next habove =>
      obtain ⟨p, hp, hle, hsome⟩ := habove
      have hne : ¬p <+: ks ++ [k] := fun hge => hbelow ⟨p, hp, hge⟩
      obtain ⟨w', hw', hobj⟩ := Option.map_eq_some_iff.mp (kind_above hle hne hsome)
      refine hfield hw' ((Option.some.inj hk).trans hobj.symm) fun zero hz accepts hvalue => ?_
      exact absurd ((above_of_value halong hvalue hp hle).symm ▸ List.prefix_rfl) hne
    · obtain ⟨w', hw', hshape⟩ := Option.map_eq_some_iff.mp hk.symm
      refine hfield hw' hshape.symm fun zero hz accepts hvalue => ?_
      have hsame := hoverlay.follow_value hcanonical merged.2.1 halong hvalue hbelow
      rw [hw, hw'] at hsame
      exact Option.some.inj hsame

include hcanonical hoverlay in
/-- The map has what the type of a spec admits, though fields may be missing. -/
lemma Overlay.conforms (halong : AlongFields fields paths) :
    (specType fields).Conforms (.obj got') := by
  intro ks u v hu hv
  by_cases hbelow : ∃ p ∈ paths, p <+: ks
  · obtain ⟨p, hp, hle⟩ := hbelow
    rw [hoverlay.follow_below hcanonical stored.2.1 hp hle] at hv
    exact stored.conforms ks u v hu hv
  · cases u with
    | value zero hz accepts =>
      rw [hoverlay.follow_value hcanonical merged.2.1 halong hu hbelow] at hv
      exact merged.conforms ks _ v hu hv
    | struct isPtr inner =>
      have hk := hoverlay ks
      rw [kind, hv, Option.map_some, belongs, if_neg hbelow] at hk
      have hobj (hshape : shape v = .obj []) : (GoShape.struct isPtr inner).Admits v := by
        cases v with
        | obj ms =>
          refine .inr ⟨ms, rfl, fun k w hw => ?_⟩
          refine field_of_follow hcanonical hoverlay halong hu ?_
          rw [follow_append, hv, Option.bind_some, follow, hw]
          rfl
        | _ => cases hshape
      split at hk
      · exact hobj (Option.some.inj hk)
      · obtain ⟨v', hv', hshape⟩ := Option.map_eq_some_iff.mp hk.symm
        rcases merged.conforms ks _ v' hu hv' with ⟨rfl, hptr⟩ | ⟨ms, rfl, -⟩
        · exact .inl ⟨(shape_eq_leaf rfl).mp hshape.symm, hptr⟩
        · exact hobj hshape.symm

section Result

variable (hconforms : (specType fields).Conforms (.obj got'))
  (hresult : fields.rebuild got' = some result)

include hresult in
lemma rebuild_spec : (specType fields).rebuild (.obj got') = some (.obj result) := by
  rw [GoShape.rebuild, hresult]
  rfl

include hoverlay in
/-- A required field is missing in the map only above or apart from service-set paths. -/
lemma apart_of_missing {f : String} {z : Json} (hz : (specType fields).required ks f = some z)
    (hobj : kind ks (.obj got') = some (.obj [])) (hnone : kind (ks ++ [f]) (.obj got') = none) :
    ¬∃ p ∈ paths, p <+: ks := by
  rintro ⟨p, hp, hle⟩
  rw [hoverlay, belongs_below hp hle] at hobj
  rw [hoverlay, belongs_below hp (hle.trans (List.prefix_append ks [f]))] at hnone
  exact stored.required_ne_none hz hobj hnone

include hcanonical hoverlay hconforms hresult in
lemma Complete.preserved (h : Complete fields paths stored.1 merged.1)
    (hpreserved : Preserved paths stored.1 merged.1 got') :
    Preserved paths stored.1 merged.1 result := by
  have hrebuild := rebuild_spec hresult
  refine ⟨fun p hp => ?_, fun ks v hapart hv hnull => ?_⟩
  · refine follow_eq_of_kind (GoFields.canonical_rebuild hcanonical hresult) stored.2.1 fun ls => ?_
    have hbelow := hoverlay (p ++ ls)
    rw [belongs_below hp (List.prefix_append p ls)] at hbelow
    rw [← hbelow]
    cases hwas : follow (p ++ ls) (.obj got') with
    | some v => exact GoShape.kind_rebuild hconforms hrebuild (by rw [hwas]; rfl)
    | none =>
      rw [kind, kind, hwas, Option.map_none, Option.map_eq_none_iff]
      by_contra hsome
      obtain ⟨v, hthere⟩ := Option.ne_none_iff_exists'.mp hsome
      obtain ⟨ks, f, ls', z, heq, hz, hobj, hnone, hv⟩ :=
        (GoShape.follow_rebuild hconforms hrebuild hwas).mp hthere
      -- the field is above the path, since the stored value lacks none
      have hle : ks ++ [f] <+: p := by
        have hks : ks ++ [f] <+: p ++ ls := ⟨ls', by rw [heq, List.append_assoc]; rfl⟩
        rcases List.prefix_or_prefix_of_prefix hks (List.prefix_append p ls) with hle | hle
        · exact hle
        · rcases List.prefix_concat_iff.mp hle with rfl | hle
          · exact List.prefix_rfl
          · exact absurd ⟨p, hp, hle⟩ (apart_of_missing hoverlay hz hobj hnone)
      obtain ⟨ls1, rfl⟩ := hle
      have hls : ls' = ls1 ++ ls := by simpa using heq.symm
      rw [hoverlay] at hobj hnone
      rw [hls, follow_append, (h ks f z hz hobj hnone).paths ls1 hp] at hv
      cases hv
  · rw [← hpreserved.frame ks v hapart hv hnull, lookupPath, lookupPath]
    cases hwas : follow ks (.obj got') with
    | some w =>
      rw [← hwas, ← kind_eq_leaf hv, ← kind_eq_leaf hv,
        GoShape.kind_rebuild hconforms hrebuild (by rw [hwas]; rfl)]
    | none =>
      refine iff_of_false (fun hthere => ?_) (Option.some_ne_none v).symm
      obtain ⟨ks, f, ls, z, rfl, hz, hobj, hnone, hw⟩ :=
        (GoShape.follow_rebuild hconforms hrebuild hwas).mp hthere
      rw [hoverlay] at hobj hnone
      obtain ⟨rfl, p, hp, hle⟩ := (h ks f z hz hobj hnone).leaves ls v hw hv
      rw [List.append_assoc] at hle
      exact hnull rfl ⟨p, hp, hle⟩

end Result

end Typed

def account : Members := [("accountId", .str "123456789012")]

end Exact

end Seaplane.Api.Preserve
