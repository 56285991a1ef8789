import Mathlib.Data.List.AList
import Seaplane.Kube.Store

/-!
The DynamoDB tables between the operator and the kube-appliers, and the operator's write cache.

The operator writes desires into the specs tables of a management cluster and reads reports from
its status tables; the kube-applier of the management cluster does the inverse. A report says
which item it is about: it carries that item's update time. Reads are strongly consistent. `log`
records the operator's writes and the reports it has read, the latest first; nothing the programs
do reads it.

Two assumptions are built in. *Hashes are injective*: the cache compares specs by `specHash`, here
by themselves. *Document IDs are injective*: the UUID of `NewDocumentID` is here its arguments.
-/

namespace Seaplane.Dynamo

open Lib
open Kube (Fault)

/-- The arguments of `NewDocumentID`, in place of the UUID. -/
structure DocumentID where
  taskKey : String
  group : String
  version : String
  resource : String
  ns : String
  name : String
  deriving DecidableEq, Repr

inductive Table where
  | applyDesires
  | readDesires
  deriving DecidableEq, Repr

/-- A document of a management cluster's tables. -/
structure DocKey where
  mc : String
  table : Table
  id : DocumentID
  deriving DecidableEq, Repr

structure ResourceReference where
  group : String
  version : String
  resource : String
  ns : String
  name : String
  deriving DecidableEq

inductive ApplyDesireType where
  | serverSideApply
  | delete
  deriving DecidableEq

structure ApplyDesireSpec where
  type : ApplyDesireType
  managementCluster : String
  clusterID : String
  targetItem : ResourceReference
  serverSideApply : Option Json
  deriving DecidableEq

structure ReadDesireSpec where
  managementCluster : String
  clusterID : String
  targetItem : ResourceReference
  deriving DecidableEq

inductive DesireSpec where
  | apply (s : ApplyDesireSpec)
  | read (s : ReadDesireSpec)
  deriving DecidableEq

def DesireSpec.isDelete : DesireSpec → Bool
  | .apply s => s.type == .delete
  | .read _ => false

/-- An item of a specs table; update times are in whole seconds. -/
structure Item where
  spec : DesireSpec
  updateTime : ℤ
  deriving DecidableEq

/-- The kube-applier's report on an item, with its Successful condition. -/
structure ApplyDesireStatus where
  item : Item
  successful : Option Bool
  deriving DecidableEq

def ApplyDesireStatus.observedDesireUpdateTime (s : ApplyDesireStatus) : ℤ := s.item.updateTime

inductive Entry where
  | put (k : DocKey) (i : Item)
  | told (k : DocKey) (s : ApplyDesireStatus)

structure Tables where
  specs : AList fun _ : DocKey => Item
  applyStatus : AList fun _ : DocKey => ApplyDesireStatus
  /-- `KubeContent` of the read statuses. -/
  readStatus : AList fun _ : DocKey => Json
  /-- The operator's cache: what it last wrote or found. -/
  cache : AList fun _ : DocKey => Item
  log : List Entry

def Tables.empty : Tables := ⟨∅, ∅, ∅, ∅, []⟩

inductive StatusErr where
  | notFound
  | other
  deriving DecidableEq

inductive Op where
  | cacheLoad (k : DocKey)
  | cacheStore (k : DocKey) (i : Item)
  | cacheDelete (k : DocKey)
  | getItem (k : DocKey)
  | putItem (k : DocKey) (i : Item)
  | deleteItem (k : DocKey)
  | getApplyStatus (k : DocKey)
  | getReadStatus (k : DocKey)
  /-- The kube-applier reports on an item it has found in the specs table. -/
  | report (k : DocKey) (s : ApplyDesireStatus)
  /-- The kube-applier reports what it has read. -/
  | observe (k : DocKey) (content : Json)
  /-- The operator restarts. -/
  | resetCache

abbrev Op.Res : Op → Type
  | .cacheLoad _ => Option Item
  | .getItem _ => Except Unit (Option Item)
  | .putItem _ _ | .deleteItem _ => Except Unit Unit
  | .getApplyStatus _ => Except StatusErr ApplyDesireStatus
  | .getReadStatus _ => Except StatusErr Json
  | .cacheStore _ _ | .cacheDelete _ | .report _ _ | .observe _ _ | .resetCache => Unit

variable {o : Op} {d d' : Tables} {k : DocKey}

namespace Tables

/-- The item was put under the key at some time. -/
def wrote (d : Tables) (k : DocKey) (i : Item) : Bool :=
  d.log.any fun e => match e with
    | .put k' i' => k' == k && i' == i
    | .told _ _ => false

def put (d : Tables) (k : DocKey) (i : Item) : Tables :=
  { d with specs := d.specs.insert k i, log := .put k i :: d.log }

/-- A call; any call to DynamoDB may fail, a write also after it had its effect. -/
def exec (o : Op) (f : Fault) (d : Tables) : Option (o.Res × Tables) :=
  match o with
  | .cacheLoad k => some (d.cache.lookup k, d)
  | .cacheStore k i => some ((), { d with cache := d.cache.insert k i })
  | .cacheDelete k => some ((), { d with cache := d.cache.erase k })
  | .getItem k =>
    match f with
    | .none => some (.ok (d.specs.lookup k), d)
    | _ => some (.error (), d)
  | .putItem k i =>
    match f with
    | .none => some (.ok (), d.put k i)
    | .lost => some (.error (), d.put k i)
    | _ => some (.error (), d)
  | .deleteItem k =>
    match f with
    | .none => some (.ok (), { d with specs := d.specs.erase k })
    | .lost => some (.error (), { d with specs := d.specs.erase k })
    | _ => some (.error (), d)
  | .getApplyStatus k =>
    match f with
    | .none =>
      match d.applyStatus.lookup k with
      | none => some (.error .notFound, d)
      | some s => some (.ok s, { d with log := .told k s :: d.log })
    | _ => some (.error .other, d)
  | .getReadStatus k =>
    match f with
    | .none =>
      match d.readStatus.lookup k with
      | none => some (.error .notFound, d)
      | some c => some (.ok c, d)
    | _ => some (.error .other, d)
  | .report k s =>
    if d.wrote k s.item then some ((), { d with applyStatus := d.applyStatus.insert k s }) else none
  | .observe k c => some ((), { d with readStatus := d.readStatus.insert k c })
  | .resetCache => some ((), { d with cache := ∅ })

inductive Did (d : Tables) : Op → Tables → Prop where
  | nothing (o : Op) : Did d o d
  | cacheStore (k : DocKey) (i : Item) :
      Did d (.cacheStore k i) { d with cache := d.cache.insert k i }
  | cacheDelete (k : DocKey) : Did d (.cacheDelete k) { d with cache := d.cache.erase k }
  | put (k : DocKey) (i : Item) : Did d (.putItem k i) (d.put k i)
  | delete (k : DocKey) : Did d (.deleteItem k) { d with specs := d.specs.erase k }
  | told {k : DocKey} {s : ApplyDesireStatus} (h : d.applyStatus.lookup k = some s) :
      Did d (.getApplyStatus k) { d with log := .told k s :: d.log }
  | report {k : DocKey} {s : ApplyDesireStatus} (h : d.wrote k s.item) :
      Did d (.report k s) { d with applyStatus := d.applyStatus.insert k s }
  | observe (k : DocKey) (c : Json) :
      Did d (.observe k c) { d with readStatus := d.readStatus.insert k c }
  | resetCache : Did d .resetCache { d with cache := ∅ }

variable {f : Fault} {i : Item}

lemma did_exec {r : o.Res} (h : exec o f d = some (r, d')) : d.Did o d' := by
  cases o with
  | cacheLoad k => cases h; exact .nothing _
  | cacheStore k i => cases h; exact .cacheStore k i
  | cacheDelete k => cases h; exact .cacheDelete k
  | getItem k => cases f <;> (cases h; exact .nothing _)
  | putItem k i =>
    cases f with
    | none | lost => cases h; exact .put k i
    | failed | refused => cases h; exact .nothing _
  | deleteItem k =>
    cases f with
    | none | lost => cases h; exact .delete k
    | failed | refused => cases h; exact .nothing _
  | getApplyStatus k =>
    simp only [exec] at h
    split at h
    · split at h
      · cases h; exact .nothing _
      · next hs => cases h; exact .told hs
    · cases h; exact .nothing _
  | getReadStatus k =>
    simp only [exec] at h
    split at h
    · split at h <;> (cases h; exact .nothing _)
    · cases h; exact .nothing _
  | report k s =>
    simp only [exec] at h
    split at h
    · next hs => cases h; exact .report hs
    · cases h
  | observe k c => cases h; exact .observe k c
  | resetCache => cases h; exact .resetCache

lemma exec_putItem {r : Except Unit Unit} (h : exec (.putItem k i) f d = some (r, d')) :
    d' = d.put k i ∧ (r = .ok () ∨ r = .error () ∧ f = .lost) ∨ d' = d ∧ r = .error () := by
  cases f <;> cases h <;> simp

lemma exec_deleteItem {r : Except Unit Unit} (h : exec (.deleteItem k) f d = some (r, d')) :
    d' = { d with specs := d.specs.erase k } ∧ (r = .ok () ∨ r = .error () ∧ f = .lost) ∨
      d' = d ∧ r = .error () := by
  cases f <;> cases h <;> simp

/-! ### One document -/

@[simp] lemma wrote_put {k' : DocKey} {i' : Item} :
    (d.put k i).wrote k' i' ↔ (k = k' ∧ i = i') ∨ d.wrote k' i' := by
  simp [wrote, put]

lemma Did.log_subset (h : d.Did o d') : d.log ⊆ d'.log := by
  cases h with
  | put | told => exact List.subset_cons_self _ _
  | _ => exact List.Subset.refl _

lemma Did.wrote_mono (h : d.Did o d') (hw : d.wrote k i) : d'.wrote k i := by
  cases h with
  | put => exact wrote_put.mpr (.inr hw)
  | told => simpa [wrote] using hw
  | _ => exact hw

lemma Did.wrote_new (h : d.Did o d') (hw : d'.wrote k i) : d.wrote k i ∨ o = .putItem k i := by
  cases h with
  | put k' i' =>
    rcases wrote_put.mp hw with ⟨rfl, rfl⟩ | hw
    · exact .inr rfl
    · exact .inl hw
  | told => exact .inl (by simpa [wrote] using hw)
  | _ => exact .inl hw

end Tables

/-- The call may change the item or the cache entry of the document. -/
def Op.touches (k : DocKey) : Op → Bool
  | .cacheStore k' _ | .cacheDelete k' | .putItem k' _ | .deleteItem k' => k' == k
  | .resetCache => true
  | _ => false

lemma Tables.Did.frame (h : d.Did o d') (hk : o.touches k = false) :
    d'.specs.lookup k = d.specs.lookup k ∧ d'.cache.lookup k = d.cache.lookup k := by
  cases h with
  | cacheStore k' i =>
    have hne : k ≠ k' := by rintro rfl; simp [Op.touches] at hk
    exact ⟨rfl, AList.lookup_insert_ne hne⟩
  | cacheDelete k' =>
    have hne : k ≠ k' := by rintro rfl; simp [Op.touches] at hk
    exact ⟨rfl, AList.lookup_erase_ne hne⟩
  | put k' i =>
    have hne : k ≠ k' := by rintro rfl; simp [Op.touches] at hk
    exact ⟨AList.lookup_insert_ne hne, rfl⟩
  | delete k' =>
    have hne : k ≠ k' := by rintro rfl; simp [Op.touches] at hk
    exact ⟨AList.lookup_erase_ne hne, rfl⟩
  | resetCache => simp [Op.touches] at hk
  | _ => exact ⟨rfl, rfl⟩

end Seaplane.Dynamo
