import Seaplane.Db.Marks
import Seaplane.Db.Relay
import Seaplane.Lib.GoType

/-!
Objects filled from rows.

`populateObject` writes the metadata of a row into an object and decodes the two documents of the
row over the fields the object has. A fresh object shows the row. An object that was used before
keeps whatever is not written: a deletion timestamp, a field whose document is empty, the members
a document does not mention.
-/

namespace Seaplane.Db

open Lib

/-! ### Objects -/

structure ManagedFieldsEntry where
  manager : String
  operation : String
  apiVersion : String
  time : Option Time
  fieldsType : String
  fieldsV1 : Option Json
  subresource : String

structure ObjectMeta where
  name : String
  generateName : String
  ns : String
  selfLink : String
  uid : UidText
  resourceVersion : String
  generation : ℤ
  creationTimestamp : Option Time
  deletionTimestamp : Option Time
  deletionGracePeriodSeconds : Option ℤ
  labels : Option (String → Option String)
  annotations : Option (String → Option String)
  ownerReferences : Option (List OwnerReference)
  finalizers : Option (List String)
  managedFields : Option (List ManagedFieldsEntry)

def ObjectMeta.zero : ObjectMeta :=
  { name := "", generateName := "", ns := "", selfLink := "", uid := .empty, resourceVersion := "",
    generation := 0, creationTimestamp := none, deletionTimestamp := none,
    deletionGracePeriodSeconds := none, labels := none, annotations := none,
    ownerReferences := none, finalizers := none, managedFields := none }

/-- A registered type, by those of its fields `Spec` and `Status`. -/
structure Kind (σ τ : Type) where
  spec : GoType σ
  status : GoType τ

structure Instance (σ τ : Type) where
  gvk : String
  objectMeta : ObjectMeta
  spec : σ
  status : τ

variable {σ τ : Type}

/-- What `scheme.New` returns. -/
def Kind.new (K : Kind σ τ) : Instance σ τ := ⟨"", .zero, K.spec.zero, K.status.zero⟩

/-- A type that keeps its spec and status as they are. -/
def Kind.raw : Kind Json Json := ⟨.whole .null some, .whole .null some⟩

/-- The two objects show the same metadata, spec and status. -/
def Kind.Same (K : Kind σ τ) (o o' : Instance σ τ) : Prop :=
  o.objectMeta = o'.objectMeta ∧ K.spec.same o.spec o'.spec ∧ K.status.same o.status o'.status

/-! ### The metadata column -/

abbrev OwnerReferenceFields :=
  String × String × String × String × Option Bool × Option Bool × Unit

def ownerReferenceType : GoType OwnerReferenceFields :=
  .struct <| .cons "apiVersion" .string <| .cons "kind" .string <| .cons "name" .string <|
    .cons "uid" .string <| .cons "controller" (.ptr .bool) <|
    .cons "blockOwnerDeletion" (.ptr .bool) .nil

def ownerReference : OwnerReferenceFields → OwnerReference
  | (apiVersion, kind, name, uid, controller, blockOwnerDeletion, ()) =>
    { apiVersion, kind, name, uid, controller, blockOwnerDeletion }

def storedMetadataType : GoType (Option (String → Option String) ×
    Option (String → Option String) × GoType.Slice OwnerReferenceFields × GoType.Slice String ×
    ℤ × Unit) :=
  .struct <| .cons "labels" (.map .string) <| .cons "annotations" (.map .string) <|
    .cons "ownerReferences" (.slice ownerReferenceType) <| .cons "finalizers" (.slice .string) <|
    .cons "generation" .int64 .nil

/-- `json.Unmarshal` of the column into a new value. -/
def unmarshalMetadata (j : Json) : Option (Option (String → Option String) ×
    Option (String → Option String) × Option (List OwnerReference) × Option (List String) × ℤ) :=
  (storedMetadataType.decode j storedMetadataType.zero).map
    fun (labels, annotations, owners, finalizers, generation, ()) =>
      (labels, annotations, owners.elems.map (·.map ownerReference), finalizers.elems, generation)

/-! ### Filling an object -/

def populateObjectMeta (m : ObjectMeta) (k : Key) (r : Row) : ObjectMeta :=
  let m := { m with
    name := k.name
    ns := k.ns
    uid := .uid r.uid
    resourceVersion := .ofList (formatInt r.objectVersion)
    creationTimestamp := some r.createdAt }
  let m := match r.deletionTimestamp with
    | some t => { m with deletionTimestamp := some t }
    | none => m
  match unmarshalMetadata r.metadata with
  | some (labels, annotations, ownerReferences, finalizers, generation) =>
    { m with labels, annotations, ownerReferences, finalizers, generation }
  | none => m

/-- One of the two documents is decoded into its field; an empty one is skipped. -/
def inject {α : Type} (t : GoType α) (doc : Json) (field : α) : Option α :=
  if doc = .obj [] then some field else t.decode doc field

def injectSpecStatus (K : Kind σ τ) (o : Instance σ τ) (spec status : Json) :
    Option (Instance σ τ) := do
  let spec ← inject K.spec spec o.spec
  let status ← inject K.status status o.status
  return { o with spec, status }

def populateObject (K : Kind σ τ) (dst : Instance σ τ) (k : Key) (r : Row) :
    Option (Instance σ τ) :=
  injectSpecStatus K
    { dst with objectMeta := populateObjectMeta dst.objectMeta k r, gvk := k.gvk } r.spec r.status

def resourceToObject (K : Kind σ τ) (k : Key) (r : Row) : Option (Instance σ τ) :=
  populateObject K K.new k r

/-- `Get` with the object it fills. -/
def getInto (K : Kind σ τ) (k : Key) (dst : Instance σ τ) :
    DbProg (Except ClientError (Instance σ τ)) := do
  match ← perform (.selectRow k) with
  | none => return .error .notFound
  | some r =>
    if isFullyDeleted r then return .error .notFound
    else
      match populateObject K dst k r with
      | some o => return .ok o
      | none => return .error (.other "unmarshal")

/-! ### What is left of an old object -/

/-- Nothing of the old value of a field is left once the document was injected. -/
def Replaced {α : Type} (t : GoType α) (doc : Json) (field : α) : Prop :=
  if doc = .obj [] then t.same field t.zero else ¬t.keeps [doc] field

/-- What the old metadata must be for nothing of it to be left. -/
structure ObjectMeta.Replaced (m : ObjectMeta) (r : Row) : Prop where
  generateName : m.generateName = ""
  selfLink : m.selfLink = ""
  gracePeriod : m.deletionGracePeriodSeconds = none
  managedFields : m.managedFields = none
  deletion : r.deletionTimestamp = none → m.deletionTimestamp = none
  -- a metadata document that does not decode leaves the five fields as they are
  metadata : unmarshalMetadata r.metadata = none → m.labels = none ∧ m.annotations = none ∧
    m.ownerReferences = none ∧ m.finalizers = none ∧ m.generation = 0

/-- What the old object must be for nothing of it to be left. -/
structure Kind.Replaced (K : Kind σ τ) (dst : Instance σ τ) (r : Row) : Prop where
  objectMeta : dst.objectMeta.Replaced r
  spec : Db.Replaced K.spec r.spec dst.spec
  status : Db.Replaced K.status r.status dst.status

lemma populateObjectMeta_eq_iff (m : ObjectMeta) (k : Key) (r : Row) :
    populateObjectMeta m k r = populateObjectMeta .zero k r ↔ m.Replaced r := by
  obtain ⟨name, generateName, ns, selfLink, uid, resourceVersion, generation, creationTimestamp,
    deletionTimestamp, grace, labels, annotations, owners, finalizers, managed⟩ := m
  constructor
  · intro h
    unfold populateObjectMeta at h
    constructor <;> cases hd : r.deletionTimestamp <;> cases hm : unmarshalMetadata r.metadata <;>
      simp_all [ObjectMeta.zero]
  · rintro ⟨hgen, hself, hgrace, hman, hdel, hmeta⟩
    unfold populateObjectMeta
    cases hd : r.deletionTimestamp <;> cases hm : unmarshalMetadata r.metadata <;>
      simp_all [ObjectMeta.zero]

lemma inject_isSome {α : Type} {t : GoType α} {doc : Json} {v w : α} (v' : α)
    (h : inject t doc v = some w) : ∃ w', inject t doc v' = some w' := by
  unfold inject at h ⊢
  split
  · exact ⟨v', rfl⟩
  · next hdoc =>
    rw [if_neg hdoc] at h
    exact Option.isSome_iff_exists.mp (t.total doc v v' (Option.isSome_of_eq_some h))

lemma inject_same_iff {α : Type} {t : GoType α} {doc : Json} {v w w' : α}
    (h : inject t doc t.zero = some w) (h' : inject t doc v = some w') :
    t.same w' w ↔ Replaced t doc v := by
  unfold inject at h h'
  unfold Replaced
  by_cases hdoc : doc = .obj []
  · rw [if_pos hdoc] at h h' ⊢
    cases h
    cases h'
    rfl
  · rw [if_neg hdoc] at h h' ⊢
    exact t.decodes_one h h'

variable {K : Kind σ τ} {o dst : Instance σ τ} {k : Key} {r : Row}

lemma injectSpecStatus_some {o' : Instance σ τ} {spec status : Json}
    (h : injectSpecStatus K o spec status = some o') :
    ∃ s u, inject K.spec spec o.spec = some s ∧ inject K.status status o.status = some u ∧
      o' = { o with spec := s, status := u } := by
  obtain ⟨s, hs, h⟩ := Option.bind_eq_some_iff.mp h
  obtain ⟨u, hu, h⟩ := Option.bind_eq_some_iff.mp h
  cases h
  exact ⟨s, u, hs, hu, rfl⟩

/-- A row that can be shown by one object can be shown by a new one, and the two show the same
if and only if nothing of the old object is left. -/
lemma populateObject_same_iff (h : populateObject K dst k r = some o) :
    ∃ fresh, resourceToObject K k r = some fresh ∧ (K.Same o fresh ↔ K.Replaced dst r) := by
  obtain ⟨s, u, hs, hu, rfl⟩ := injectSpecStatus_some h
  obtain ⟨s', hs'⟩ := inject_isSome K.spec.zero hs
  obtain ⟨u', hu'⟩ := inject_isSome K.status.zero hu
  refine ⟨⟨k.gvk, populateObjectMeta .zero k r, s', u'⟩, ?_, ?_⟩
  · unfold resourceToObject populateObject injectSpecStatus
    simp only [Kind.new, hs', hu', Option.bind_eq_bind, Option.bind_some]
    rfl
  · unfold Kind.Same
    rw [populateObjectMeta_eq_iff, inject_same_iff hs' hs, inject_same_iff hu' hu]
    exact ⟨fun h => ⟨h.1, h.2.1, h.2.2⟩, fun h => ⟨h.1, h.2, h.3⟩⟩

/-- A new object keeps nothing, whatever the row. -/
lemma Kind.replaced_new {fresh : Instance σ τ} (h : resourceToObject K k r = some fresh) :
    K.Replaced K.new r := by
  obtain ⟨fresh', hfresh, hsame⟩ := populateObject_same_iff h
  rw [h] at hfresh
  cases hfresh
  exact hsame.mp ⟨rfl, K.spec.refl _, K.status.refl _⟩

/-! ### DNS reservations -/

section

variable (parseTime : String → Option Time)

def timeType : GoType (Option Time) := .whole none fun
  | .null => some none
  | .str s => (parseTime s).map some
  | _ => none

abbrev ConditionFields := String × String × ℤ × Option Time × String × String × Unit

def conditionType : GoType ConditionFields :=
  .struct <| .cons "type" .string <| .cons "status" .string <|
    .cons "observedGeneration" .int64 <| .cons "lastTransitionTime" (timeType parseTime) <|
    .cons "reason" .string <| .cons "message" .string .nil

def dnsReservationSpecType : GoType (String × Unit) :=
  .struct <| .cons "clusterDeletionPolicy" .string .nil

abbrev DNSReservationStatusFields :=
  GoType.Slice ConditionFields × String × String × String × ℤ × Unit

def dnsReservationStatusType : GoType DNSReservationStatusFields :=
  .struct <| .cons "conditions" (.slice (conditionType parseTime)) <| .cons "phase" .string <|
    .cons "baseDomain" .string <| .cons "internalHostedClusterName" .string <|
    .cons "observedGeneration" .int64 .nil

def dnsReservationKind : Kind (String × Unit) DNSReservationStatusFields :=
  ⟨dnsReservationSpecType, dnsReservationStatusType parseTime⟩

end

/-! ### Reads into used objects -/

lemma eval_getInto {ch : Choice} {d d' : Database}
    (h : (getInto K k dst).eval Database.exec ch d = some (.ok o, d')) :
    ∃ r, d.table.lookup k = some r ∧ populateObject K dst k r = some o := by
  unfold getInto at h
  simp only [Prog.bind_eq, Prog.call_bind] at h
  rw [Prog.eval_op (show Database.exec (.selectRow k) ch d = some (_, _) from rfl)] at h
  cases hk : d.table.lookup k with
  | none =>
    simp only [hk] at h
    cases h
  | some r =>
    refine ⟨r, rfl, ?_⟩
    simp only [hk] at h
    split at h
    · cases h
    · cases hp : populateObject K dst k r with
      | none =>
        rw [hp] at h
        cases h
      | some o' =>
        rw [hp] at h
        cases h
        rfl

/-- After a successful Get the object shows what a fresh one would if and only if nothing of its
old content was of the kind that is left. -/
theorem get_independent_of_destination_iff (K : Kind σ τ) (k : Key) (dst o : Instance σ τ)
    (ch : Choice) (d d' : Database)
    (h : (getInto K k dst).eval Database.exec ch d = some (.ok o, d')) :
    ∃ r fresh, d.table.lookup k = some r ∧ resourceToObject K k r = some fresh ∧
      (K.Same o fresh ↔ K.Replaced dst r) := by
  obtain ⟨r, hk, hp⟩ := eval_getInto h
  obtain ⟨fresh, hfresh, hsame⟩ := populateObject_same_iff hp
  exact ⟨r, fresh, hk, hfresh, hsame⟩

def reservationAt (name : String) : Key :=
  ⟨"seaplane.io/v1alpha1/DNSReservation", "account-1", name⟩

/-- A reservation that has its domain and is being deleted. -/
def dyingReservation : Row :=
  { uid := 1, txidStamp := 5, objectVersion := 3
    spec := .obj [("clusterDeletionPolicy", .str "Retain")]
    status := .obj [("phase", .str "Ready"), ("baseDomain", .str "f7a3.0.openshiftapps.com")]
    metadata := .obj [("finalizers", .arr [.str "seaplane.io/dnsreservation"]),
      ("generation", .num 1)]
    deletionTimestamp := some 40, createdAt := 10, updatedAt := 40 }

def newReservation : Row :=
  { uid := 2, txidStamp := 6, objectVersion := 1
    spec := .obj [("clusterDeletionPolicy", .str "Retain")]
    status := .obj []
    metadata := .obj [("generation", .num 1)]
    deletionTimestamp := none, createdAt := 50, updatedAt := 50 }

def twoReservations : Database :=
  { nextXid := 7, running := [], horizon := ∅
    table := [⟨reservationAt "a", dyingReservation⟩, ⟨reservationAt "b", newReservation⟩].toAList
    hist := [(reservationAt "b", newReservation), (reservationAt "a", dyingReservation)] }

theorem get_independent_of_destination_iff_new :
    ∃ o fresh, (getInto (dnsReservationKind fun _ => none) (reservationAt "b")
        (dnsReservationKind fun _ => none).new).eval Database.exec ⟨60, 3, []⟩ twoReservations =
          some (.ok o, twoReservations) ∧
      resourceToObject (dnsReservationKind fun _ => none) (reservationAt "b") newReservation =
        some fresh ∧ (dnsReservationKind fun _ => none).Same o fresh := by
  have h : (getInto (dnsReservationKind fun _ => none) (reservationAt "b")
      (dnsReservationKind fun _ => none).new).eval Database.exec ⟨60, 3, []⟩ twoReservations =
        some (.ok _, twoReservations) := rfl
  obtain ⟨r, fresh, hk, hfresh, hsame⟩ := get_independent_of_destination_iff _ _ _ _ _ _ _ h
  cases hk
  exact ⟨_, fresh, h, hfresh, hsame.mpr (Kind.replaced_new hfresh)⟩

/-- One object is used for two Gets: the second reservation appears with the domain of the first,
and as being deleted. -/
theorem get_keeps_old_content :
    ∃ o o' fresh, (getInto (dnsReservationKind fun _ => none) (reservationAt "a")
        (dnsReservationKind fun _ => none).new).eval Database.exec ⟨60, 3, []⟩ twoReservations =
          some (.ok o, twoReservations) ∧
      (getInto (dnsReservationKind fun _ => none) (reservationAt "b") o).eval Database.exec
        ⟨60, 3, []⟩ twoReservations = some (.ok o', twoReservations) ∧
      resourceToObject (dnsReservationKind fun _ => none) (reservationAt "b") newReservation =
        some fresh ∧
      fresh.objectMeta.deletionTimestamp = none ∧ fresh.status.2.2.1 = "" ∧
      o'.objectMeta.deletionTimestamp = some 40 ∧
      o'.status.2.2.1 = "f7a3.0.openshiftapps.com" :=
  ⟨_, _, _, rfl, rfl, rfl, rfl, rfl, rfl, rfl⟩

/-! ### Resource versions -/

/-- What Create leaves in the object, besides the generation it sets before the write. -/
def created (o : Instance σ τ) (gvk : String) (r : WriteResult) (now : Time) : Instance σ τ :=
  { o with
    gvk
    objectMeta := { o.objectMeta with
      uid := .uid r.uid
      resourceVersion := .ofList (formatInt r.objectVersion)
      creationTimestamp := some now } }

def updated (o : Instance σ τ) (r : WriteResult) : Instance σ τ :=
  { o with
    objectMeta := { o.objectMeta with resourceVersion := .ofList (formatInt r.objectVersion) } }

lemma populateObjectMeta_resourceVersion (m : ObjectMeta) (k : Key) (r : Row) :
    (populateObjectMeta m k r).resourceVersion = .ofList (formatInt r.objectVersion) := by
  unfold populateObjectMeta
  cases r.deletionTimestamp <;> cases unmarshalMetadata r.metadata <;> rfl

lemma populateObject_objectMeta (h : populateObject K dst k r = some o) :
    o.objectMeta = populateObjectMeta dst.objectMeta k r := by
  obtain ⟨s, u, -, -, rfl⟩ := injectSpecStatus_some h
  rfl

lemma RV.parse_toString_zero {w : ℕ} (hw : w < 2 ^ 64) :
    RV.parse (RV.mk 0 w).toString = .ok ⟨0, w⟩ := by
  have hdigits : ∀ c ∈ formatUint w, c.isDigit := fun c => isDigit_of_mem_formatUint
  have hparse := parseWatermark_formatUint 0 hw
  obtain ⟨c, cs, hcs⟩ := List.exists_cons_of_ne_nil (formatUint_ne_nil w)
  have ho : c ≠ 'o' := by
    rintro rfl
    have := hdigits 'o' (by rw [hcs]; exact List.mem_cons_self)
    simp [Char.isDigit] at this
  rw [hcs] at hparse
  simp [RV.parse, RV.toString, hcs, ho, hparse]

lemma parseResourceVersion_plain {v : ℤ} (h1 : -2 ^ 63 ≤ v) (h2 : v < 2 ^ 63) :
    parseResourceVersion (.ofList (formatInt v)) = some v := by
  have hne : String.ofList (formatInt v) ≠ "" := by
    intro h
    have hnil := String.ofList_eq_empty_iff.mp h
    cases v with
    | ofNat n => exact formatUint_ne_nil n hnil
    | negSucc n => cases hnil
  rw [parseResourceVersion, if_neg hne, String.toList_ofList, parseInt64_formatInt h1 h2]

lemma parseResourceVersion_composite {rv : RV} (h0 : 0 < rv.objectVersion)
    (h1 : rv.objectVersion < 2 ^ 63) (h2 : rv.watermark < 2 ^ 64) :
    parseResourceVersion rv.toString = some rv.objectVersion := by
  have htext : rv.toString =
      .ofList ('o' :: formatInt rv.objectVersion ++ ';' :: formatUint rv.watermark) := by
    rw [RV.toString, if_pos h0]
  have hne : rv.toString ≠ "" := by
    intro h
    have hnil := String.ofList_eq_empty_iff.mp (htext.symm.trans h)
    cases hnil
  -- it starts with a letter, so it is not taken for a plain version
  have hplain : parseInt64 rv.toString.toList = none := by
    rw [htext, String.toList_ofList]
    rfl
  rw [parseResourceVersion, if_neg hne, hplain, RV.parse_toString h0 h1 h2]
  exact if_neg h0.ne'

/-- Resource versions parse back to what they were written from, and every object that was read,
written or relayed names the version of its row. -/
theorem resource_version_round_trip (v : Int64) (hv : 1 ≤ v.toInt) (w : UInt64) :
    RV.parse (RV.mk v.toInt w.toNat).toString = .ok ⟨v.toInt, w.toNat⟩ ∧
    RV.parse (RV.mk 0 w.toNat).toString = .ok ⟨0, w.toNat⟩ ∧
    (∀ (K : Kind σ τ) (dst o : Instance σ τ) (k : Key) (r : Row), r.objectVersion = v.toInt →
      populateObject K dst k r = some o →
      parseResourceVersion o.objectMeta.resourceVersion = some v.toInt) ∧
    (∀ (K : Kind σ τ) (o : Instance σ τ) (k : Key) (r : Row), r.objectVersion = v.toInt →
      resourceToObject K k r = some o →
      parseResourceVersion o.objectMeta.resourceVersion = some v.toInt) ∧
    (∀ (o : Instance σ τ) (gvk : String) (r : WriteResult) (now : Time),
      r.objectVersion = v.toInt →
      parseResourceVersion (created o gvk r now).objectMeta.resourceVersion = some v.toInt) ∧
    (∀ (o : Instance σ τ) (r : WriteResult), r.objectVersion = v.toInt →
      parseResourceVersion (updated o r).objectMeta.resourceVersion = some v.toInt) ∧
    ∀ (relay : Relay) (e : Event) (q : List Event) (ev : WatchEvent),
      relay.advance e = ⟨v.toInt, w.toNat⟩ → (relay.forward e q).relayed.getLast? = some ev →
      parseResourceVersion ev.resourceVersion = some v.toInt := by
  have h0 : 0 < v.toInt := hv
  have h1 : v.toInt < 2 ^ 63 := v.toInt_lt
  have h2 : w.toNat < 2 ^ 64 := w.toNat_lt
  have hplain : ∀ n, n = v.toInt → parseResourceVersion (.ofList (formatInt n)) = some v.toInt := by
    rintro n rfl
    exact parseResourceVersion_plain (by omega) h1
  have hread : ∀ (K : Kind σ τ) (dst o : Instance σ τ) (k : Key) (r : Row),
      r.objectVersion = v.toInt → populateObject K dst k r = some o →
      parseResourceVersion o.objectMeta.resourceVersion = some v.toInt := by
    intro K dst o k r hr h
    rw [populateObject_objectMeta h, populateObjectMeta_resourceVersion]
    exact hplain _ hr
  refine ⟨RV.parse_toString h0 h1 h2, RV.parse_toString_zero h2, hread, ?_, ?_, ?_, ?_⟩
  · intro K o k r hr h
    exact hread K K.new o k r hr h
  · intro o gvk r now hr
    exact hplain _ hr
  · intro o r hr
    exact hplain _ hr
  · intro relay e q ev hadv hlast
    rw [Relay.forward, hadv, List.getLast?_append] at hlast
    cases hlast
    exact parseResourceVersion_composite h0 h1 h2

theorem resource_version_round_trip_seven :
    parseResourceVersion "7" = some 7 ∧ parseResourceVersion "o7;1234" = some 7 ∧
      RV.parse "o7;1234" = .ok ⟨7, 1234⟩ ∧ RV.parse "1234" = .ok ⟨0, 1234⟩ := by
  obtain ⟨hparse, hzero, -, -, -, hupdated, hrelay⟩ :=
    @resource_version_round_trip Unit Unit 7 (by decide) 1234
  refine ⟨?_, ?_, hparse, hzero⟩
  · exact hupdated ⟨"", .zero, (), ()⟩ ⟨9, 7, 1, true⟩ rfl
  · exact hrelay (.start 1234)
      ⟨.modified, reservationAt "a", { dyingReservation with objectVersion := 7 }⟩
      [] _ rfl rfl

end Seaplane.Db
