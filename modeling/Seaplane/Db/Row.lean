import Seaplane.Lib.Json
import Seaplane.Lib.Sql

/-!
Rows of `kubernetes_resources` and the metadata document they carry.

A row is live while it has no deletion timestamp, dying while it has one and still carries
finalizers, and a tombstone after that. The tombstone test is written in four places of the
source, three times in SQL and once in Go; on metadata that the client wrote they agree.
-/

namespace Seaplane.Db

open Lib

structure Key where
  gvk : String
  ns : String
  name : String
  deriving DecidableEq, Repr

/-- Values of `gen_random_uuid()`. -/
abbrev Uid := ℕ

/-- Timestamps, in microseconds. -/
abbrev Time := ℤ

structure Row where
  uid : Uid
  txidStamp : ℕ
  objectVersion : ℤ
  spec : Json
  status : Json
  metadata : Json
  deletionTimestamp : Option Time
  createdAt : Time
  updatedAt : Time
  deriving DecidableEq

/-- The SQL value of `metadata->'finalizers'`. -/
def Row.finalizers (r : Row) : Option Json := r.metadata.get? "finalizers"

/-- The filter of `List`: live rows and rows whose finalizers are not the empty array. -/
def Row.listed (r : Row) : Bool :=
  (Truth.or (.isNull r.deletionTimestamp)
    (.cmp r.finalizers fun f => !f.jsonbEq (.arr []))).holds

/-- The filter of `readCurrentResource`. -/
def Row.current (r : Row) : Bool :=
  (Truth.or (.isNull r.deletionTimestamp)
    (.and (.isNotNull r.finalizers) (.cmp r.finalizers fun f => !f.jsonbEq (.arr [])))).holds

/-- The tombstone test of revival and compaction. -/
def Row.tombstone (r : Row) : Bool :=
  (Truth.and (.isNotNull r.deletionTimestamp)
    (.or (.isNull r.finalizers) (.cmp r.finalizers fun f => f.jsonbEq (.arr [])))).holds

lemma Row.listed_eq (r : Row) : r.listed = !r.tombstone := by
  unfold Row.listed Row.tombstone
  cases r.deletionTimestamp <;> cases r.finalizers <;> simp

lemma Row.current_eq (r : Row) : r.current = !r.tombstone := by
  unfold Row.current Row.tombstone
  cases r.deletionTimestamp <;> cases r.finalizers <;> simp

/-! ### Stored metadata -/

structure OwnerReference where
  apiVersion : String
  kind : String
  name : String
  uid : String
  controller : Option Bool
  blockOwnerDeletion : Option Bool
  deriving DecidableEq

structure StoredMetadata where
  labels : List (String × String)
  annotations : List (String × String)
  ownerReferences : List OwnerReference
  finalizers : List String
  generation : Int64
  deriving DecidableEq

/-- A member with `omitempty`. -/
def omitempty (k : String) (empty : Bool) (v : Json) : List (String × Json) :=
  if empty then [] else [(k, v)]

/-- A pointer member with `omitempty`. -/
def omitnil (k : String) (v : Option Json) : List (String × Json) :=
  v.toList.map (k, ·)

def stringMap (m : List (String × String)) : Json := .obj (m.map fun e => (e.1, .str e.2))

def OwnerReference.toJson (o : OwnerReference) : Json :=
  .obj ([("apiVersion", .str o.apiVersion), ("kind", .str o.kind), ("name", .str o.name),
    ("uid", .str o.uid)] ++ omitnil "controller" (o.controller.map .bool) ++
    omitnil "blockOwnerDeletion" (o.blockOwnerDeletion.map .bool))

/-- `json.Marshal` of the stored metadata. -/
def StoredMetadata.toJson (m : StoredMetadata) : Json :=
  .obj (omitempty "labels" m.labels.isEmpty (stringMap m.labels) ++
    omitempty "annotations" m.annotations.isEmpty (stringMap m.annotations) ++
    omitempty "ownerReferences" m.ownerReferences.isEmpty
      (.arr (m.ownerReferences.map OwnerReference.toJson)) ++
    omitempty "finalizers" m.finalizers.isEmpty (.arr (m.finalizers.map .str)) ++
    omitempty "generation" (m.generation == 0) (.num m.generation.toInt))

/-- A string field; null leaves the zero value. -/
def readString : Json → Option String
  | .str s => some s
  | .null => some ""
  | _ => none

def readStrings : Json → Option (List String)
  | .arr xs => xs.mapM readString
  | .null => some []
  | _ => none

def readStringMap : Json → Option (List (String × String))
  | .obj ms => ms.mapM fun m => (readString m.2).map (m.1, ·)
  | .null => some []
  | _ => none

def readBool : Json → Option (Option Bool)
  | .bool b => some (some b)
  | .null => some none
  | _ => none

/-- An int64 field: other numbers are an error. -/
def readInt : Json → Option Int64
  | .num q =>
    if q.den = 1 ∧ -2 ^ 63 ≤ q.num ∧ q.num < 2 ^ 63 then some (.ofInt q.num) else none
  | .negZero => some 0
  | .null => some 0
  | _ => none

def readField {α : Type} (k : String) (zero : α) (read : Json → Option α) (j : Json) : Option α :=
  match j.get? k with
  | none => some zero
  | some v => read v

def OwnerReference.ofJson (j : Json) : Option OwnerReference := do
  let apiVersion ← readField "apiVersion" "" readString j
  let kind ← readField "kind" "" readString j
  let name ← readField "name" "" readString j
  let uid ← readField "uid" "" readString j
  let controller ← readField "controller" none readBool j
  let blockOwnerDeletion ← readField "blockOwnerDeletion" none readBool j
  return { apiVersion, kind, name, uid, controller, blockOwnerDeletion }

def readOwnerReferences : Json → Option (List OwnerReference)
  | .arr xs => xs.mapM OwnerReference.ofJson
  | .null => some []
  | _ => none

/-- `json.Unmarshal` into the stored metadata. -/
def StoredMetadata.ofJson (j : Json) : Option StoredMetadata := do
  let labels ← readField "labels" [] readStringMap j
  let annotations ← readField "annotations" [] readStringMap j
  let ownerReferences ← readField "ownerReferences" [] readOwnerReferences j
  let finalizers ← readField "finalizers" [] readStrings j
  let generation ← readField "generation" 0 readInt j
  return { labels, annotations, ownerReferences, finalizers, generation }

/-- Whether the metadata of a row names a finalizer, as Go reads it. -/
def hasFinalizers (metadata : Json) : Bool :=
  match StoredMetadata.ofJson metadata with
  | some m => !m.finalizers.isEmpty
  | none => false

def isFullyDeleted (r : Row) : Bool := r.deletionTimestamp.isSome && !hasFinalizers r.metadata

/-! ### Metadata round trip -/

@[simp] lemma lastMember_omitempty (k l : String) (e : Bool) (v : Json) :
    Json.lastMember k (omitempty l e v) = if l = k ∧ e = false then some v else none := by
  cases e <;> simp [omitempty, Json.lastMember]

@[simp] lemma lastMember_omitnil (k l : String) (v : Option Json) :
    Json.lastMember k (omitnil l v) = if l = k then v else none := by
  cases v <;> simp [omitnil, Json.lastMember]

lemma mapM_map_some {α β : Type} (f : α → β) (g : β → Option α) (h : ∀ a, g (f a) = some a)
    (l : List α) : (l.map f).mapM g = some l := by
  induction l with
  | nil => rfl
  | cons a l ih => simp only [List.map_cons, List.mapM_cons, h, ih]; rfl

lemma OwnerReference.ofJson_toJson (o : OwnerReference) :
    OwnerReference.ofJson o.toJson = some o := by
  obtain ⟨a, k, n, u, c, b⟩ := o
  cases c <;> cases b <;>
    simp [OwnerReference.ofJson, OwnerReference.toJson, readField, Json.get?,
      Json.lastMember_append,
      Json.lastMember, readString, readBool]

lemma readStringMap_stringMap (m : List (String × String)) : readStringMap (stringMap m) = some m :=
  mapM_map_some (fun e : String × String => (e.1, Json.str e.2)) _ (fun _ => rfl) m

lemma readStrings_map (l : List String) : readStrings (.arr (l.map .str)) = some l :=
  mapM_map_some Json.str readString (fun _ => rfl) l

lemma readInt_num (n : Int64) : readInt (.num n.toInt) = some n := by
  have h := n.le_toInt
  have h' := n.toInt_lt
  simp only [readInt, Rat.den_intCast, Rat.num_intCast, Int64.ofInt_toInt]
  simp [h, h', -Int.reduceNeg, -Int.reducePow]

lemma readOwnerReferences_map (l : List OwnerReference) :
    readOwnerReferences (.arr (l.map OwnerReference.toJson)) = some l :=
  mapM_map_some _ _ OwnerReference.ofJson_toJson l

lemma StoredMetadata.ofJson_toJson (m : StoredMetadata) :
    StoredMetadata.ofJson m.toJson = some m := by
  obtain ⟨ls, as, os, fs, g⟩ := m
  have hl : readField "labels" [] readStringMap (toJson ⟨ls, as, os, fs, g⟩) = some ls := by
    cases ls <;>
      simp [readField, toJson, Json.get?, Json.lastMember_append, readStringMap_stringMap]
  have ha : readField "annotations" [] readStringMap (toJson ⟨ls, as, os, fs, g⟩) = some as := by
    cases as <;>
      simp [readField, toJson, Json.get?, Json.lastMember_append, readStringMap_stringMap]
  have ho : readField "ownerReferences" [] readOwnerReferences
      (toJson ⟨ls, as, os, fs, g⟩) = some os := by
    cases os <;> simp [readField, toJson, Json.get?, Json.lastMember_append,
      readOwnerReferences_map, -List.map_cons]
  have hf : readField "finalizers" [] readStrings (toJson ⟨ls, as, os, fs, g⟩) = some fs := by
    cases fs <;> simp [readField, toJson, Json.get?, Json.lastMember_append,
      readStrings_map, -List.map_cons]
  have hg : readField "generation" 0 readInt (toJson ⟨ls, as, os, fs, g⟩) = some g := by
    by_cases h : g = 0 <;>
      simp [readField, toJson, Json.get?, Json.lastMember_append, readInt_num, h]
  simp [StoredMetadata.ofJson, hl, ha, ho, hf, hg]

/-! ### The four tombstone tests agree -/

def Row.ClientWritten (r : Row) : Prop := ∃ m : StoredMetadata, r.metadata = m.toJson

lemma finalizers_toJson (m : StoredMetadata) : m.toJson.get? "finalizers" =
    if m.finalizers = [] then none else some (.arr (m.finalizers.map .str)) := by
  cases h : m.finalizers <;> simp [StoredMetadata.toJson, Json.get?, Json.lastMember_append, h]

lemma Row.ClientWritten.isFullyDeleted_eq {r : Row} (h : r.ClientWritten) :
    isFullyDeleted r = r.tombstone := by
  obtain ⟨m, hm⟩ := h
  have hf : r.finalizers =
      if m.finalizers = [] then none else some (.arr (m.finalizers.map .str)) := by
    rw [Row.finalizers, hm, finalizers_toJson]
  have hh : hasFinalizers r.metadata = !m.finalizers.isEmpty := by
    simp [hasFinalizers, hm, StoredMetadata.ofJson_toJson]
  unfold isFullyDeleted Row.tombstone
  rw [hf, hh]
  cases hm : m.finalizers <;> simp [Json.jsonbEq, Json.equiv, Json.equivList]

end Seaplane.Db
