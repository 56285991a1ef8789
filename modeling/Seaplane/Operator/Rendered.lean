import Seaplane.Db.Convert

/-!
Snapshots of rendered resources, written through the client.

The operator writes a rendered object over the one that is stored: it reads the row, takes over its
UUID and version, and leaves the rest of the rendered object as it is. The generation is part of
that rest. Create stores generation 1 and an Update with another spec the next one, but an Update
with the same spec stores what the rendered object carries.
-/

namespace Seaplane.Operator.Rendered

open Lib Db

variable {σ τ : Type}

/-- A rendered object as the client marshals it. Its type reads its own documents. -/
structure RenderedObject (K : Kind σ τ) where
  object : Object
  spec_decodes : (inject K.spec object.spec K.spec.zero).isSome
  status_decodes : (inject K.status object.status K.status.zero).isSome

/-- `labels[name] = value`, on labels in the order in which they are marshalled. -/
def setLabel (name value : String) : List (String × String) → List (String × String)
  | [] => [(name, value)]
  | l :: ls =>
    if l.1 = name then (name, value) :: ls
    else if name < l.1 then (name, value) :: l :: ls
    else l :: setLabel name value ls

/-- Where a snapshot is stored, and the labels it gets there. -/
structure Storage where
  ns : String
  name : String
  labels : List (String × String)

def snapshotOf (desired : Object) (s : Storage) : Object :=
  { desired with
    key := ⟨desired.key.gvk, s.ns, s.name⟩
    metadata := { desired.metadata with
      labels := s.labels.foldl (fun ls l => setLabel l.1 l.2 ls) desired.metadata.labels } }

inductive Verb where
  | get
  | create
  | update
  deriving DecidableEq

/-- The error `"<verb> rendered resource <namespace>/<name>: <cause>"`. -/
structure UpsertError where
  verb : Verb
  ns : String
  name : String
  cause : ClientError

def noOptions : Options := ⟨[], none, none, none⟩

def finish (verb : Verb) (s : Storage) (a : Db.Outcome) : Except UpsertError Unit :=
  match a.result with
  | .error e => .error ⟨verb, s.ns, s.name, e⟩
  | .ok _ => .ok ()

def upsertRenderedResource (K : Kind σ τ) (desired : RenderedObject K) (s : Storage) :
    DbProg (Except UpsertError Unit) := do
  let snapshot := snapshotOf desired.object s
  match ← getInto K snapshot.key K.new with
  | .error .notFound => return finish .create s (← create send noOptions snapshot)
  | .error e => return .error ⟨.get, s.ns, s.name, e⟩
  | .ok current =>
    return finish .update s (← update send noOptions { snapshot with
      uid := current.objectMeta.uid
      resourceVersion := current.objectMeta.resourceVersion })

/-! ### The calls run alone -/

section Alone

variable {d : Database} {r : Row} {o : Object} {p : WriteParams} (ch : Choice)

/-- The arguments of an Update over the row it has read. -/
def updateParams (r : Row) (o : Object) : WriteParams :=
  { statusOnly := false, key := o.key, expectedVersion := r.objectVersion
    expectedUid := some r.uid, forceWrite := false, spec := o.spec, status := none
    metadata := some (updatedMetadata r o).toJson, deletionTs := r.deletionTimestamp }

/-- Nothing was written and nobody is told of anything. -/
def Unchanged (d d' : Database) : Prop := d'.table = d.table ∧ d'.hist = d.hist

def Written (d d' : Database) (k : Key) (r : Row) : Prop :=
  d'.table = d.table.insert k r ∧ d'.hist = (k, r) :: d.hist

lemma Written.not_unchanged {d d' : Database} {k : Key} {r : Row} (h : Written d d' k r) :
    ¬Unchanged d d' := by
  intro hu
  have hlen := congrArg List.length (h.2.symm.trans hu.2)
  simp at hlen

lemma eval_readCurrent {k : Key} (hk : d.table.lookup k = some r) :
    (readCurrentResource k).eval Database.exec ch d = some ((some r).filter Row.current, d) := by
  have h : Database.exec (.selectRow k) ch d = some (some r, d) := by rw [Database.exec, hk]
  refine (Prog.eval_op h).trans ?_
  simp only [Prog.ret_bind, Prog.pure_eq, Prog.eval_ret]

/-- An Update with the UUID and the version of the row comes to the procedure, unless the row is a
tombstone. -/
lemma eval_update (hk : d.table.lookup o.key = some r) (hpos : 0 < r.objectVersion)
    (hlt : r.objectVersion < 2 ^ 63) :
    (update send noOptions { o with
      uid := .uid r.uid
      resourceVersion := .ofList (formatInt r.objectVersion) }).eval Database.exec ch d =
    if r.tombstone then some (⟨.error .notFound, false⟩, d)
    else (send (updateParams r o)).eval Database.exec ch d := by
  have hparse := parseResourceVersion_plain (by omega) hlt
  have hread := eval_readCurrent ch hk
  simp only [update, withExpected, noOptions, rejectDryRun, List.isEmpty_nil, if_true, hparse,
    parseObjectUID, Prog.bind_eq]
  rw [if_neg (by simp), Prog.eval_bind hread]
  cases ht : r.tombstone with
  | true =>
    rw [Option.filter_some_neg (by simp [Row.current_eq, ht]), if_pos rfl]
    rfl
  | false =>
    rw [Option.filter_some_pos (by simp [Row.current_eq, ht]), if_neg Bool.false_ne_true]
    simp only [Option.any_some, bne_self_eq_false, Bool.false_eq_true, if_false,
      if_neg hpos.ne', updateParams, updatedMetadata]

def updatedRow (r : Row) (o : Object) (x : ℕ) (now : Time) : Row :=
  { r with
    txidStamp := x, objectVersion := r.objectVersion + 1, spec := o.spec
    metadata := (updatedMetadata r o).toJson, updatedAt := now }

/-- The transaction of the next call has begun. -/
abbrev begun (d : Database) : Database :=
  { d with nextXid := d.nextXid + 1, running := d.nextXid :: d.running }

lemma eval_send {a : Except SqlState WriteRow} {d' : Database}
    (h : (pgctlWrite p).eval Database.exec ch d = some (a, d')) :
    (send p).eval Database.exec ch d = some (outcomeOf a, d') := by
  rw [send_eq, Prog.eval_bind h, Prog.eval_ret]

lemma eval_send_suppressed (hv : 0 < p.expectedVersion) (hforce : p.forceWrite = false)
    (hk : d.table.lookup p.key = some r) (hm : p.matches? r) (hs : p.suppressed r) :
    ∃ a w d', (send p).eval Database.exec ch d = some (a, d') ∧ a.result = .ok w ∧
      Unchanged d d' := by
  have hend : Database.exec (.endTx d.nextXid) ch (begun d) =
      some ((), { begun d with running := (d.nextXid :: d.running).erase d.nextXid }) :=
    if_pos List.mem_cons_self
  have hproc := eval_pgctlWrite (p := p) (d := d) ch
  rw [if_pos (by simp [hv, hforce]), hk] at hproc
  simp only [suppressOr, hm, hs, Bool.not_true, Bool.false_eq_true, if_false, if_true,
    Prog.bind_eq, Prog.call_bind] at hproc
  rw [Prog.eval_op hend] at hproc
  exact ⟨_, _, _, eval_send ch hproc, rfl, rfl, rfl⟩

lemma eval_send_written {r' : Row} (hwhole : p.statusOnly = false) (hv : 0 < p.expectedVersion)
    (hforce : p.forceWrite = false) (hk : d.table.lookup p.key = some r) (hm : p.matches? r)
    (hs : p.suppressed r = false) (hr' : p.objectUpdated d.nextXid ch.now r = some r') :
    ∃ a w d', (send p).eval Database.exec ch d = some (a, d') ∧ a.result = .ok w ∧
      Written d d' p.key r' := by
  have hupd : Database.exec (.updateObject d.nextXid p) ch (begun d) =
      some (.row r'.uid r'.objectVersion, (begun d).commitRow d.nextXid p.key r') := by
    rw [Database.exec, if_pos List.mem_cons_self, Database.update, hk, Option.filter_some_pos hm]
    simp only [hr']
  have hproc := eval_pgctlWrite (p := p) (d := d) ch
  rw [if_pos (by simp [hv, hforce]), hk] at hproc
  simp only [suppressOr, hm, hs, Bool.not_true, Bool.false_eq_true, if_false, upsert, hwhole,
    if_neg hv.ne', Prog.bind_eq, Prog.call_bind] at hproc
  rw [Prog.eval_op hupd] at hproc
  exact ⟨_, _, _, eval_send ch hproc, rfl, rfl, rfl⟩

/-- The row holds the object, with this generation and this mark. -/
structure Stored (o : Object) (g : Int64) (mark : Option Time) (r : Row) : Prop where
  spec : r.spec = o.spec
  metadata : r.metadata = { o.metadata with generation := g }.toJson
  mark : r.deletionTimestamp = mark

lemma stored_updatedRow (r : Row) (o : Object) (x : ℕ) (now : Time) :
    Stored o (updatedMetadata r o).generation r.deletionTimestamp (updatedRow r o x now) := by
  refine ⟨rfl, ?_, rfl⟩
  unfold updatedRow updatedMetadata
  split <;> rfl

def createParams (o : Object) : WriteParams :=
  { statusOnly := false, key := o.key, expectedVersion := 0, expectedUid := none
    forceWrite := false, spec := o.spec, status := o.status
    metadata := some { o.metadata with generation := 1 }.toJson, deletionTs := none }

def createdRow (o : Object) (x : ℕ) (now : Time) (uid : Uid) : Row :=
  { uid, txidStamp := x, objectVersion := 1, spec := o.spec, status := o.status
    metadata := { o.metadata with generation := 1 }.toJson
    deletionTimestamp := none, createdAt := now, updatedAt := now }

lemma stored_createdRow (o : Object) (x : ℕ) (now : Time) (uid : Uid) :
    Stored o 1 none (createdRow o x now uid) := ⟨rfl, rfl, rfl⟩

lemma eval_upsert_vacant (hf : d.fresh ch.uuid)
    (hk : ∀ r, d.table.lookup o.key = some r → r.tombstone) :
    (upsert d.nextXid (createParams o)).eval Database.exec ch (begun d) =
      some (.ok ⟨ch.uuid, 1, d.nextXid, true⟩,
        (begun d).commitRow d.nextXid o.key (createdRow o d.nextXid ch.now ch.uuid)) := by
  have hrun : d.nextXid ∈ (begun d).running ∧ (begun d).fresh ch.uuid := ⟨List.mem_cons_self, hf⟩
  unfold upsert
  simp only [createParams, Bool.false_eq_true, if_false, if_true, Prog.bind_eq, Prog.call_bind]
  cases hrow : d.table.lookup o.key with
  | none =>
    have hins : Database.exec (.insertRow d.nextXid (createParams o)) ch (begun d) =
        some (.row ch.uuid 1,
          (begun d).commitRow d.nextXid o.key (createdRow o d.nextXid ch.now ch.uuid)) := by
      rw [Database.exec, if_pos hrun]
      simp only [WriteParams.inserted, createParams, Option.bind_eq_bind, Option.bind_some,
        Option.pure_def, Database.insert, hrow]
      rfl
    exact Prog.eval_op hins
  | some r =>
    have hins : Database.exec (.insertRow d.nextXid (createParams o)) ch (begun d) =
        some (.uniqueViolation, begun d) := by
      rw [Database.exec, if_pos hrun]
      simp only [WriteParams.inserted, createParams, Option.bind_eq_bind, Option.bind_some,
        Option.pure_def, Database.insert, hrow]
    have hrev : Database.exec (.reviveRow d.nextXid (createParams o)) ch (begun d) =
        some (.row ch.uuid 1,
          (begun d).commitRow d.nextXid o.key (createdRow o d.nextXid ch.now ch.uuid)) := by
      rw [Database.exec, if_pos hrun, Database.update]
      simp only [createParams, hrow, Option.filter_some_pos (hk r hrow)]
      rfl
    exact (Prog.eval_op hins).trans (Prog.eval_op hrev)

lemma eval_create_vacant (ho : o.Creatable noOptions) (hf : d.fresh ch.uuid)
    (hk : ∀ r, d.table.lookup o.key = some r → r.tombstone) :
    ∃ a w d', (create send noOptions o).eval Database.exec ch d = some (a, d') ∧
      a.result = .ok w ∧
      Written d d' o.key (createdRow o d.nextXid ch.now ch.uuid) := by
  have hproc := eval_pgctlWrite (p := createParams o) (d := d) ch
  rw [if_neg (by simp [createParams]), eval_upsert_vacant ch hf hk] at hproc
  have hcreate : create send noOptions o = send (createParams o) := by
    simp only [create, show rejectDryRun noOptions = none from rfl, if_neg ho.2]
    rfl
  rw [hcreate]
  exact ⟨_, _, _, eval_send ch hproc, rfl, rfl, rfl⟩

section Get

variable {K : Kind σ τ} {k : Key}

lemma eval_getInto_vacant (hk : ∀ r, d.table.lookup k = some r → isFullyDeleted r) :
    (getInto K k K.new).eval Database.exec ch d = some (.error .notFound, d) := by
  unfold getInto
  simp only [Prog.bind_eq, Prog.call_bind]
  rw [Prog.eval_op (show Database.exec (.selectRow k) ch d = some (_, _) from rfl)]
  cases hrow : d.table.lookup k with
  | none => rfl
  | some r =>
    simp only [hk r hrow, if_true]
    rfl

lemma eval_getInto_found (hk : d.table.lookup k = some r) (hfull : isFullyDeleted r = false) :
    (getInto K k K.new).eval Database.exec ch d =
      some ((resourceToObject K k r).elim (.error (.other "unmarshal")) .ok, d) := by
  unfold getInto
  simp only [Prog.bind_eq, Prog.call_bind]
  rw [Prog.eval_op (show Database.exec (.selectRow k) ch d = some (_, _) from rfl)]
  simp only [hk, hfull, Bool.false_eq_true, if_false, resourceToObject]
  cases populateObject K K.new k r <;> rfl

lemma resourceToObject_of_decodes (hs : (inject K.spec r.spec K.spec.zero).isSome)
    (ht : (inject K.status r.status K.status.zero).isSome) :
    ∃ o, resourceToObject K k r = some o := by
  obtain ⟨s, hs⟩ := Option.isSome_iff_exists.mp hs
  obtain ⟨t, ht⟩ := Option.isSome_iff_exists.mp ht
  unfold resourceToObject populateObject injectSpecStatus
  simp only [Kind.new, hs, ht, Option.bind_eq_bind, Option.bind_some]
  exact ⟨_, rfl⟩

lemma resourceToObject_status {o : Instance σ τ} (h : resourceToObject K k r = some o) :
    (inject K.status r.status K.status.zero).isSome := by
  obtain ⟨s, t, -, ht, -⟩ := injectSpecStatus_some h
  exact Option.isSome_of_eq_some ht

lemma resourceToObject_identity {o : Instance σ τ} (h : resourceToObject K k r = some o) :
    o.objectMeta.uid = .uid r.uid ∧
      o.objectMeta.resourceVersion = .ofList (formatInt r.objectVersion) := by
  rw [populateObject_objectMeta h]
  refine ⟨?_, populateObjectMeta_resourceVersion _ _ _⟩
  unfold populateObjectMeta
  cases r.deletionTimestamp <;> cases unmarshalMetadata r.metadata <;> rfl

end Get

end Alone

/-! ### The first call and the second -/

section Upsert

variable {K : Kind σ τ} {desired : RenderedObject K} {s : Storage} {d d' : Database} {r : Row}
  (ch : Choice)

lemma eval_upsert_create {a : Db.Outcome}
    (hk : ∀ r, d.table.lookup (snapshotOf desired.object s).key = some r → isFullyDeleted r)
    (h : (create send noOptions (snapshotOf desired.object s)).eval Database.exec ch d =
      some (a, d')) :
    (upsertRenderedResource K desired s).eval Database.exec ch d =
      some (finish .create s a, d') := by
  unfold upsertRenderedResource
  simp only [Prog.bind_eq]
  rw [Prog.eval_bind (eval_getInto_vacant ch hk)]
  simp only
  rw [Prog.eval_bind h]
  rfl

variable (hk : d.table.lookup (snapshotOf desired.object s).key = some r)
  (hfull : isFullyDeleted r = false)
include hk hfull

lemma eval_upsert_unread (hread : resourceToObject K (snapshotOf desired.object s).key r = none) :
    (upsertRenderedResource K desired s).eval Database.exec ch d =
      some (.error ⟨.get, s.ns, s.name, .other "unmarshal"⟩, d) := by
  have hget := eval_getInto_found (K := K) ch hk hfull
  rw [hread] at hget
  unfold upsertRenderedResource
  simp only [Prog.bind_eq]
  rw [Prog.eval_bind hget]
  rfl

variable {current : Instance σ τ}
  (hread : resourceToObject K (snapshotOf desired.object s).key r = some current)
include hread

lemma eval_upsert_update {a : Db.Outcome}
    (h : (update send noOptions { snapshotOf desired.object s with
      uid := .uid r.uid
      resourceVersion := .ofList (formatInt r.objectVersion) }).eval Database.exec ch d =
        some (a, d')) :
    (upsertRenderedResource K desired s).eval Database.exec ch d =
      some (finish .update s a, d') := by
  have hget := eval_getInto_found (K := K) ch hk hfull
  rw [hread] at hget
  obtain ⟨huid, hrv⟩ := resourceToObject_identity hread
  unfold upsertRenderedResource
  simp only [Prog.bind_eq]
  rw [Prog.eval_bind hget]
  simp only [Option.elim_some, huid, hrv]
  rw [Prog.eval_bind h]
  rfl

/-- A row is stored: the snapshot goes over it, unless it is there already. -/
lemma eval_upsert_over (hpos : 0 < r.objectVersion) (hlt : r.objectVersion < 2 ^ 63)
    (htomb : r.tombstone = false) :
    ∃ d', (upsertRenderedResource K desired s).eval Database.exec ch d = some (.ok (), d') ∧
      if (updateParams r (snapshotOf desired.object s)).suppressed r then Unchanged d d'
      else Written d d' (snapshotOf desired.object s).key
        (updatedRow r (snapshotOf desired.object s) d.nextXid ch.now) := by
  have hupdate := eval_update ch hk hpos hlt
  rw [if_neg (by simp [htomb])] at hupdate
  have hm : (updateParams r (snapshotOf desired.object s)).matches? r = true := by
    simp [WriteParams.matches?, updateParams]
  cases hsup : (updateParams r (snapshotOf desired.object s)).suppressed r with
  | true =>
    obtain ⟨a, w, d', hsend, ha, hu⟩ := eval_send_suppressed ch hpos rfl hk hm hsup
    have hcall := eval_upsert_update ch hk hfull hread (hupdate.trans hsend)
    rw [finish, ha] at hcall
    exact ⟨d', hcall, hu⟩
  | false =>
    obtain ⟨a, w, d', hsend, ha, hw⟩ := eval_send_written ch rfl hpos rfl hk hm hsup rfl
    have hcall := eval_upsert_update ch hk hfull hread (hupdate.trans hsend)
    rw [finish, ha] at hcall
    exact ⟨d', hcall, hw⟩

end Upsert

section Settling

variable {o : Object} {g g' : Int64} {mark : Option Time} {r : Row}

lemma generation_toJson (m : StoredMetadata) : m.toJson.get? "generation" =
    if m.generation = 0 then none else some (.num m.generation.toInt) := by
  by_cases h : m.generation = 0 <;>
    simp [StoredMetadata.toJson, Json.get?, Json.lastMember_append, h]

lemma jsonbEq_generation {m m' : StoredMetadata} (h : m.toJson.jsonbEq m'.toJson = true) :
    m.generation = m'.generation := by
  have hmembers : (m.toJson.get? "generation" = none ∧ m'.toJson.get? "generation" = none) ∨
      ∃ v w, m.toJson.get? "generation" = some v ∧ m'.toJson.get? "generation" = some w ∧
        v.equiv true w = true := Json.equiv_get? "generation" h
  rw [generation_toJson, generation_toJson] at hmembers
  rcases hmembers with ⟨hz, hz'⟩ | ⟨v, w, hv, hw, heq⟩
  · rw [ite_eq_left_iff] at hz hz'
    have h0 : m.generation = 0 := by_contra fun hne => nomatch hz hne
    have h0' : m'.generation = 0 := by_contra fun hne => nomatch hz' hne
    rw [h0, h0']
  · rw [Option.ite_none_left_eq_some] at hv hw
    obtain ⟨-, hv⟩ := hv
    obtain ⟨-, hw⟩ := hw
    cases hv
    cases hw
    simp only [Json.equiv, beq_iff_eq, Int.cast_inj] at heq
    exact Int64.toInt_inj.mp heq

lemma Stored.isFullyDeleted_eq (h : Stored o g mark r) :
    isFullyDeleted r = (mark.isSome && o.metadata.finalizers.isEmpty) := by
  simp [isFullyDeleted, h.mark, h.metadata, hasFinalizers, StoredMetadata.ofJson_toJson]

lemma Stored.tombstone_eq (h : Stored o g mark r) :
    r.tombstone = (mark.isSome && o.metadata.finalizers.isEmpty) := by
  rw [← Row.ClientWritten.isFullyDeleted_eq ⟨_, h.metadata⟩, h.isFullyDeleted_eq]

/-- What is stored is what the next Update would store if and only if it has the generation of the
object itself. -/
lemma Stored.suppressed_iff (h : Stored o g mark r) :
    (updateParams r o).suppressed r = true ↔
      g = o.metadata.generation ∧ o.spec.goEqual o.spec = true := by
  have hgen : currentGeneration r.metadata = g := by
    simp [currentGeneration, h.metadata, StoredMetadata.ofJson_toJson]
  have hne : g ≠ g + 1 := fun hg => absurd (Int64.left_eq_add.mp hg) (by decide)
  have hsup : (updateParams r o).suppressed r =
      r.metadata.jsonbEq (updatedMetadata r o).toJson := by
    simp [WriteParams.suppressed, updateParams, eqParam, h.spec, Json.jsonbEq_refl]
  rw [hsup, updatedMetadata, h.spec, hgen, h.metadata]
  split
  · next hgo =>
    rw [and_iff_left hgo]
    refine ⟨fun heq => jsonbEq_generation heq, fun hg => ?_⟩
    rw [hg]
    exact Json.jsonbEq_refl _
  · next hgo =>
    refine iff_of_false (fun heq => hne (jsonbEq_generation heq)) fun hand => hgo hand.2

lemma updatedMetadata_generation_eq {r : Row} {o : Object} :
    (updatedMetadata r o).generation = o.metadata.generation ↔
      r.spec.goEqual o.spec = true ∨ currentGeneration r.metadata + 1 = o.metadata.generation := by
  unfold updatedMetadata
  split <;> simp [*]

/-- When the second of two calls changes nothing. Where nothing is stored, Create stores generation
1; an Update over another spec stores the next generation, over the same spec the object's own. -/
def Settles (o : Object) (row : Option Row) : Prop :=
  match row.filter fun r => !isFullyDeleted r with
  | none => o.metadata.generation = 1 ∧ o.spec.goEqual o.spec = true
  | some r =>
    -- the first call already finds what it would write
    (updateParams r o).suppressed r = true ∨
      -- or it completes a deletion, so that the second one is a Create
      if r.deletionTimestamp.isSome ∧ o.metadata.finalizers = [] then ¬o.Creatable noOptions
      else (r.spec.goEqual o.spec = true ∨
          currentGeneration r.metadata + 1 = o.metadata.generation) ∧
        o.spec.goEqual o.spec = true

end Settling

section Second

variable {K : Kind σ τ} {desired : RenderedObject K} {s : Storage} {d : Database} {r : Row}
  {g : Int64} {mark : Option Time} (ch : Choice)

lemma eval_create_refused {o : Object} (ho : ¬o.Creatable noOptions) :
    ∃ e, (create send noOptions o).eval Database.exec ch d = some (⟨.error e, false⟩, d) := by
  have hname : o.key.name = "" ∧ o.generateName ≠ "" := by
    by_contra hn
    exact ho ⟨rfl, hn⟩
  simp only [create, show rejectDryRun noOptions = none from rfl, if_pos hname]
  exact ⟨_, rfl⟩

lemma eval_upsert_stored (h : Stored (snapshotOf desired.object s) g mark r)
    (hk : d.table.lookup (snapshotOf desired.object s).key = some r) (hpos : 0 < r.objectVersion)
    (hlt : r.objectVersion < 2 ^ 63) (hst : (inject K.status r.status K.status.zero).isSome)
    (hf : d.fresh ch.uuid) :
    ∃ a d', (upsertRenderedResource K desired s).eval Database.exec ch d = some (a, d') ∧
      (Unchanged d d' ↔
        if mark.isSome ∧ (snapshotOf desired.object s).metadata.finalizers = [] then
          ¬(snapshotOf desired.object s).Creatable noOptions
        else g = (snapshotOf desired.object s).metadata.generation ∧
          (snapshotOf desired.object s).spec.goEqual (snapshotOf desired.object s).spec =
            true) := by
  generalize ho : snapshotOf desired.object s = o at *
  by_cases hdel : mark.isSome ∧ o.metadata.finalizers = []
  · have hfull : isFullyDeleted r = true := by simp [h.isFullyDeleted_eq, hdel]
    have htomb : r.tombstone = true := by simp [h.tombstone_eq, hdel]
    have hrow : ∀ r', d.table.lookup o.key = some r' → r' = r := by
      intro r' hr'
      rw [hk] at hr'
      exact (Option.some.inj hr').symm
    rw [if_pos hdel]
    by_cases hc : o.Creatable noOptions
    · obtain ⟨a, w, d', hcreate, -, hw⟩ := eval_create_vacant ch hc hf fun r' hr' => by
        rw [hrow r' hr', htomb]
      refine ⟨_, d', eval_upsert_create ch ?_ (ho ▸ hcreate), ?_⟩
      · intro r' hr'
        rw [ho] at hr'
        rw [hrow r' hr', hfull]
      · exact iff_of_false hw.not_unchanged (not_not_intro hc)
    · obtain ⟨e, hcreate⟩ := eval_create_refused (d := d) ch hc
      refine ⟨_, d, eval_upsert_create ch ?_ (ho ▸ hcreate), ?_⟩
      · intro r' hr'
        rw [ho] at hr'
        rw [hrow r' hr', hfull]
      · exact iff_of_true ⟨rfl, rfl⟩ hc
  · have hfull : isFullyDeleted r = false := by
      rw [h.isFullyDeleted_eq]
      simpa using hdel
    have htomb : r.tombstone = false := by
      rw [h.tombstone_eq]
      simpa using hdel
    have hspec : (inject K.spec r.spec K.spec.zero).isSome := by
      rw [h.spec, ← ho]
      exact desired.spec_decodes
    obtain ⟨current, hread⟩ := resourceToObject_of_decodes (k := o.key) hspec hst
    subst ho
    obtain ⟨d', hcall, heffect⟩ := eval_upsert_over ch hk hfull hread hpos hlt htomb
    refine ⟨_, d', hcall, ?_⟩
    rw [if_neg hdel, ← h.suppressed_iff]
    split at heffect
    · next hsup => exact iff_of_true heffect hsup
    · next hsup => exact iff_of_false heffect.not_unchanged hsup

/-- **Re-rendering is a no-op** if and only if what the first call found settles it. -/
theorem rerender_noop_iff {es : List (ℕ × Seen Op Op.Res)} {c : LossyConf}
    (h : lossy.Hist ⟨.empty, []⟩ es c) (K : Kind σ τ) (desired : RenderedObject K) (s : Storage)
    (ch ch' : Choice) (d : Database)
    (hbig : ∀ r, c.store.table.lookup (snapshotOf desired.object s).key = some r →
      r.objectVersion + 1 < 2 ^ 63)
    (hf : c.store.fresh ch.uuid) (hf' : d.fresh ch'.uuid)
    (hfirst : (upsertRenderedResource K desired s).eval Database.exec ch c.store =
      some (.ok (), d)) :
    ∃ a d', (upsertRenderedResource K desired s).eval Database.exec ch' d = some (a, d') ∧
      (Unchanged d d' ↔ Settles (snapshotOf desired.object s)
        (c.store.table.lookup (snapshotOf desired.object s).key)) := by
  have hd := recorded_run h
  by_cases hvacant : ∀ r, c.store.table.lookup (snapshotOf desired.object s).key = some r →
      isFullyDeleted r = true
  · -- the first call was a Create
    have hnone : (c.store.table.lookup (snapshotOf desired.object s).key).filter
        (fun r => !isFullyDeleted r) = none :=
      Option.filter_eq_none_iff.mpr fun r hr => by simp [hvacant r hr]
    by_cases hc : (snapshotOf desired.object s).Creatable noOptions
    · have htomb : ∀ r, c.store.table.lookup (snapshotOf desired.object s).key = some r →
          r.tombstone = true := by
        intro r hr
        rw [← (hd.client _ (hd.historic.mem _ _ hr)).isFullyDeleted_eq]
        exact hvacant r hr
      obtain ⟨a, w, d1, hcreate, ha, htable, -⟩ := eval_create_vacant ch hc hf htomb
      rw [eval_upsert_create ch hvacant hcreate, finish, ha] at hfirst
      cases hfirst
      obtain ⟨a', d', hcall, hiff⟩ := eval_upsert_stored (K := K) ch' (stored_createdRow _ _ _ _)
        (by rw [htable, AList.lookup_insert]) one_pos
        (show (1 : ℤ) < 2 ^ 63 by decide) desired.status_decodes hf'
      refine ⟨a', d', hcall, hiff.trans ?_⟩
      rw [Settles, hnone, if_neg (by simp), eq_comm]
    · obtain ⟨e, hcreate⟩ := eval_create_refused (d := c.store) ch hc
      rw [eval_upsert_create ch hvacant hcreate] at hfirst
      cases hfirst
  · -- the first call was an Update
    obtain ⟨r, hk, hfull⟩ := not_forall₂.mp hvacant
    have hfull : isFullyDeleted r = false := Bool.eq_false_iff.mpr hfull
    have hpos : 0 < r.objectVersion := hd.historic.pos _ (hd.historic.mem _ _ hk)
    have hlt : r.objectVersion < 2 ^ 63 := by
      have := hbig r hk
      omega
    have htomb : r.tombstone = false := by
      rw [← (hd.client _ (hd.historic.mem _ _ hk)).isFullyDeleted_eq]
      exact hfull
    cases hread : resourceToObject K (snapshotOf desired.object s).key r with
    | none =>
      rw [eval_upsert_unread ch hk hfull hread] at hfirst
      cases hfirst
    | some current =>
      obtain ⟨d1, hcall, heffect⟩ := eval_upsert_over ch hk hfull hread hpos hlt htomb
      rw [hcall] at hfirst
      cases hfirst
      rw [hk, Settles, Option.filter_some_pos (by simp [hfull])]
      simp only
      split at heffect
      · -- it wrote nothing, and neither does the second
        next hsup =>
        obtain ⟨d', hcall', heffect'⟩ := eval_upsert_over (d := d) ch'
          (by rw [heffect.1, hk]) hfull hread hpos hlt htomb
        rw [if_pos hsup] at heffect'
        exact ⟨_, d', hcall', iff_of_true heffect' (.inl hsup)⟩
      · next hsup =>
        have hstatus : (inject K.status r.status K.status.zero).isSome :=
          resourceToObject_status hread
        obtain ⟨a', d', hcall', hiff⟩ := eval_upsert_stored (K := K) ch'
          (stored_updatedRow r _ _ _) (by rw [heffect.1, AList.lookup_insert])
          (show 0 < r.objectVersion + 1 by omega) (hbig r hk) hstatus hf'
        rw [updatedMetadata_generation_eq] at hiff
        exact ⟨a', d', hcall', hiff.trans (or_iff_right hsup).symm⟩

end Second

/-- A rendered HostedCluster that carries this generation. -/
def hostedCluster (generation : Int64) : RenderedObject Kind.raw where
  object :=
    { key := ⟨"hypershift.openshift.io/v1beta1/HostedCluster", "uid-1", "c1"⟩, generateName := ""
      uid := .empty, resourceVersion := "", metadata := ⟨[], [], [], [], generation⟩
      spec := .obj [("infraID", .str "c1")], status := .obj [] }
  spec_decodes := rfl
  status_decodes := rfl

def byCluster : Storage :=
  ⟨"account-1", "c1", [("seaplane.io/rendered-namespace", "uid-1"),
    ("seaplane.io/rendered-name", "c1")]⟩

/-- The state of the store after a call that succeeds. -/
def upserted (generation : Int64) (ch : Choice) (d : Database) : Option Database :=
  match (upsertRenderedResource Kind.raw (hostedCluster generation) byCluster).eval
      Database.exec ch d with
  | some (.ok (), d') => some d'
  | _ => none

lemma eval_of_upserted {generation : Int64} {ch : Choice} {d d' : Database}
    (h : upserted generation ch d = some d') :
    (upsertRenderedResource Kind.raw (hostedCluster generation) byCluster).eval
      Database.exec ch d = some (.ok (), d') := by
  unfold upserted at h
  split at h
  · next heq =>
    cases h
    exact heq
  · cases h

/-- An object that carries the generation of a Create settles. -/
theorem rerender_noop_iff_created : ∃ d a d', upserted 1 ⟨0, 7, []⟩ .empty = some d ∧
    (upsertRenderedResource Kind.raw (hostedCluster 1) byCluster).eval Database.exec ⟨1, 8, []⟩ d =
      some (a, d') ∧ Unchanged d d' := by
  have hrun : (upserted 1 ⟨0, 7, []⟩ .empty).any (fun d => d.fresh 8) = true := by decide +kernel
  simp only [Option.any_eq_true] at hrun
  obtain ⟨d, hd, hf⟩ := hrun
  obtain ⟨a, d', hcall, hiff⟩ := rerender_noop_iff (.start) Kind.raw (hostedCluster 1) byCluster
    ⟨0, 7, []⟩ ⟨1, 8, []⟩ d (fun _ hr => nomatch hr) rfl hf (eval_of_upserted hd)
  exact ⟨d, a, d', hd, hcall, hiff.mpr ⟨rfl, by decide +kernel⟩⟩

/-- The operator's objects carry none: rendered once it has version 1 and generation 1, rendered
again version 2, generation 0 and another stamp. -/
theorem rerender_writes : ∃ d d' r r', upserted 0 ⟨0, 7, []⟩ .empty = some d ∧
    upserted 0 ⟨1, 8, []⟩ d = some d' ∧
    d.table.lookup (snapshotOf (hostedCluster 0).object byCluster).key = some r ∧
    d'.table.lookup (snapshotOf (hostedCluster 0).object byCluster).key = some r' ∧
    r.objectVersion = 1 ∧ r.generation = 1 ∧ r'.objectVersion = 2 ∧ r'.generation = 0 ∧
    r.txidStamp < r'.txidStamp := by
  have hrun : (upserted 0 ⟨0, 7, []⟩ .empty).any (fun d => (upserted 0 ⟨1, 8, []⟩ d).any fun d' =>
      (d.table.lookup (snapshotOf (hostedCluster 0).object byCluster).key).any fun r =>
      (d'.table.lookup (snapshotOf (hostedCluster 0).object byCluster).key).any fun r' =>
        decide (r.objectVersion = 1 ∧ r.generation = 1 ∧ r'.objectVersion = 2 ∧
          r'.generation = 0 ∧ r.txidStamp < r'.txidStamp)) = true := by decide +kernel
  simp only [Option.any_eq_true, decide_eq_true_eq] at hrun
  obtain ⟨d, hd, d', hd', r, hr, r', hr', hrows⟩ := hrun
  exact ⟨d, d', r, r', hd, hd', hr, hr', hrows⟩

end Seaplane.Operator.Rendered
