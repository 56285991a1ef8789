import Seaplane.Db.Conduct
import Seaplane.Db.Relay
import Seaplane.Lib.Chronicle

/-!
The deletion mark and the generation of a stored object, over every run of the clients.

The mark is a column that every write of the whole object sets anew. An Update takes it from the
row it has read and a Delete without a version keeps what it finds, but a Delete that names a
version writes the caller's copy and its own clock. The generation is a member of the metadata
document; an Update raises the stored one where Go's comparison sees another spec, and stores the
caller's where it does not.
-/

namespace Seaplane.Db

open Lib Database

/-! ### The states of a row -/

inductive Lifecycle where
  | live
  | dying
  | tombstone
  deriving DecidableEq

def Row.lifecycle (r : Row) : Lifecycle :=
  if r.deletionTimestamp.isNone then .live
  else if hasFinalizers r.metadata then .dying
  else .tombstone

section

variable {r : Row} {d : Database} {k : Key}

lemma Row.isFullyDeleted_lifecycle : isFullyDeleted r = (r.lifecycle == .tombstone) := by
  unfold isFullyDeleted Row.lifecycle
  cases r.deletionTimestamp <;> cases hasFinalizers r.metadata <;> rfl

lemma Row.ClientWritten.tombstone_lifecycle (h : r.ClientWritten) :
    r.tombstone = (r.lifecycle == .tombstone) := by
  rw [← h.isFullyDeleted_eq, Row.isFullyDeleted_lifecycle]

lemma relayType_deleted : relayType ⟨eventType r, k, r⟩ = .deleted ↔ isFullyDeleted r = true := by
  unfold relayType eventType isFullyDeleted
  cases r.deletionTimestamp with
  | some t => cases hasFinalizers r.metadata <;> simp
  | none => by_cases hv : r.objectVersion = 1 <;> simp [hv]

lemma eval_get (ch : Choice) (hk : d.table.lookup k = some r) :
    (get k).eval exec ch d =
      some (if isFullyDeleted r then ⟨.error .notFound, false⟩ else ⟨.ok (.row r), false⟩, d) := by
  unfold get
  simp only [Prog.bind_eq, Prog.call_bind]
  rw [Prog.eval_op (show exec (.selectRow k) ch d = some (_, _) from rfl)]
  simp only [hk]
  cases isFullyDeleted r <;> rfl

end

/-! ### Creating over a stored row -/

section

variable {p : WriteParams} {d : Database} {r : Row} {x : ℕ} (ch : Choice)

/-- What a Create that finds a row ends with. -/
def overRow (x : ℕ) (uuid : Uid) (r : Row) : Except SqlState WriteRow :=
  if r.tombstone then .ok ⟨uuid, 1, x, true⟩ else .error .P0003

lemma eval_upsert_create (hx : x ∈ d.running) (hf : d.fresh ch.uuid)
    (hwhole : p.statusOnly = false) (hv : p.expectedVersion = 0) (hs : p.spec.isSome)
    (hst : p.status.isSome) (hm : p.metadata.isSome) (hk : d.table.lookup p.key = some r) :
    ∃ d', (upsert x p).eval exec ch d = some (overRow x ch.uuid r, d') := by
  obtain ⟨spec, hspec⟩ := Option.isSome_iff_exists.mp hs
  obtain ⟨status, hstatus⟩ := Option.isSome_iff_exists.mp hst
  obtain ⟨metadata, hmetadata⟩ := Option.isSome_iff_exists.mp hm
  have hins : exec (.insertRow x p) ch d = some (.uniqueViolation, d) := by
    simp [exec, hx, hf, WriteParams.inserted, hspec, hstatus, hmetadata, Database.insert,
      hk]
  unfold upsert
  simp only [hwhole, hv, Bool.false_eq_true, if_false, if_true, Prog.bind_eq, Prog.call_bind]
  rw [Prog.eval_op hins]
  unfold overRow
  cases ht : r.tombstone with
  | true =>
    have hrev : ∃ d', exec (.reviveRow x p) ch d = some (.row ch.uuid 1, d') := by
      rw [exec, if_pos ⟨hx, hf⟩, Database.update, hk, Option.filter_some_pos ht]
      simp only [WriteParams.revived, hspec, hmetadata]
      exact ⟨_, rfl⟩
    obtain ⟨d', hrev⟩ := hrev
    exact ⟨d', Prog.eval_op hrev⟩
  | false =>
    have hrev : exec (.reviveRow x p) ch d = some (.noRow, d) := by
      rw [exec, if_pos ⟨hx, hf⟩, update_miss hk ht]
    obtain ⟨d', hd', -⟩ := eval_raiseException ch .P0003 hx
    exact ⟨d', (Prog.eval_op hrev).trans hd'⟩

lemma eval_send_create (hf : d.fresh ch.uuid) (hwhole : p.statusOnly = false)
    (hv : p.expectedVersion = 0) (hs : p.spec.isSome) (hst : p.status.isSome)
    (hm : p.metadata.isSome) (hk : d.table.lookup p.key = some r) :
    ∃ d', (send p).eval exec ch d = some
      (if r.tombstone then ⟨.ok (.result ⟨d.nextXid, 1, ch.uuid, true⟩), true⟩
        else ⟨.error .alreadyExists, false⟩, d') := by
  have hx : d.nextXid ∈ d.nextXid :: d.running := List.mem_cons_self
  obtain ⟨d', hd'⟩ := eval_upsert_create
    (d := { d with nextXid := d.nextXid + 1, running := d.nextXid :: d.running })
    ch hx hf hwhole hv hs hst hm hk
  have hproc : (pgctlWrite p).eval exec ch d = some (overRow d.nextXid ch.uuid r, d') := by
    rw [eval_pgctlWrite, if_neg (by simp [hv]), hd']
  refine ⟨d', ?_⟩
  rw [send_eq, Prog.eval_bind hproc]
  unfold overRow
  cases r.tombstone <;> rfl

/-- The Create is not refused before it reaches the procedure. -/
def Object.Creatable (opts : Options) (o : Object) : Prop :=
  opts.dryRun = [] ∧ ¬(o.key.name = "" ∧ o.generateName ≠ "")

lemma eval_create {opts : Options} {o : Object} (ho : o.Creatable opts) (hf : d.fresh ch.uuid)
    (hk : d.table.lookup o.key = some r) :
    ∃ d', (create send opts o).eval exec ch d = some
      (if r.tombstone then ⟨.ok (.result ⟨d.nextXid, 1, ch.uuid, true⟩), true⟩
        else ⟨.error .alreadyExists, false⟩, d') := by
  have hdry : rejectDryRun opts = none := by simp [rejectDryRun, ho.1]
  simp only [create, hdry, if_neg ho.2]
  exact eval_send_create ch hf rfl rfl rfl rfl rfl hk

end

/-! ### One classification of the stored rows -/

section

variable {es : List (ℕ × Seen Op Op.Res)} {c c' : LossyConf} {i : ℕ} {k : Key} {r0 r : Row}
  {t : Thread Op Op.Res (Call × Option Cut) Outcome}

lemma removed_act (h : lossy.Hist ⟨.empty, []⟩ es c) (hi : c.pool[i]? = some t)
    (ha : lossy.Act i c c') (hk : c.store.table.lookup k = some r)
    (hgone : c'.store.table.lookup k = none) : (∃ cfg, t.label.1 = .compact cfg) ∧ r.tombstone := by
  obtain ⟨-, -, hcommit⟩ := conduct_act h hi ha
  have hne : c'.store.table.lookup k ≠ some r := by
    rw [hgone]
    simp
  rcases hcommit.row hk hne with ⟨_, _, r', -, hr', -⟩ | ⟨cfg, hl, -, ht⟩ | ⟨r', _, hr', -⟩
  · cases hgone.symm.trans hr'
  · exact ⟨⟨cfg, hl⟩, ht⟩
  · cases hgone.symm.trans hr'

/-- **All tombstone tests agree**: on every row that the clients can bring about, the filters of
List and of the client's own read, Go's test, the relay's report, the condition of the revival and
the condition of the compaction tell tombstones from the other rows in the same way. So Get does
not find the row exactly when Create may take its key, List shows it exactly when Get does, and no
statement takes it away while List shows it. -/
theorem tombstone_tests_agree (h : lossy.Hist ⟨.empty, []⟩ es c)
    (hk : c.store.table.lookup k = some r) :
    (r.listed = (r.lifecycle != .tombstone) ∧ r.current = (r.lifecycle != .tombstone) ∧
      isFullyDeleted r = (r.lifecycle == .tombstone) ∧
      (relayType ⟨eventType r, k, r⟩ = .deleted ↔ r.lifecycle = .tombstone) ∧
      r.tombstone = (r.lifecycle == .tombstone) ∧
      ∀ (cfg : CompactConfig) (now : Time), cfg.eligible now r = (r.lifecycle == .tombstone &&
        r.deletionTimestamp.any fun t => max t r.updatedAt < now - cfg.cutoff * 1000000)) ∧
    (∀ ch, (get k).eval Database.exec ch c.store = some
      (if r.lifecycle = .tombstone then ⟨.error .notFound, false⟩ else ⟨.ok (.row r), false⟩,
        c.store)) ∧
    (∀ (hashtext : Hash) (cfg : WatchConfig), cfg.inScope hashtext k →
      ((k, r) ∈ (list hashtext cfg c.store).resources ↔ r.lifecycle ≠ .tombstone)) ∧
    (∀ (ch : Choice) (opts : Options) (o : Object), o.Creatable opts → o.key = k →
      c.store.fresh ch.uuid → ∃ d', (create send opts o).eval Database.exec ch c.store = some
        (if r.lifecycle = .tombstone then
          ⟨.ok (.result ⟨c.store.nextXid, 1, ch.uuid, true⟩), true⟩
        else ⟨.error .alreadyExists, false⟩, d')) ∧
    ∀ c' i, lossy.Act i c c' → c'.store.table.lookup k = none → r.lifecycle = .tombstone := by
  have hd := recorded_run h
  have htomb : r.tombstone = (r.lifecycle == .tombstone) :=
    (hd.client _ (hd.historic.mem _ _ hk)).tombstone_lifecycle
  have hiff : r.tombstone = true ↔ r.lifecycle = .tombstone := by rw [htomb, beq_iff_eq]
  have hfull : isFullyDeleted r = true ↔ r.lifecycle = .tombstone := by
    rw [Row.isFullyDeleted_lifecycle, beq_iff_eq]
  refine ⟨⟨?_, ?_, Row.isFullyDeleted_lifecycle, ?_, htomb, fun cfg now => ?_⟩,
    fun ch => ?_, fun hashtext cfg hscope => ?_, fun ch opts o ho hkey hf => ?_,
    fun c' i ha hgone => ?_⟩
  · rw [Row.listed_eq, htomb]
    rfl
  · rw [Row.current_eq, htomb]
    rfl
  · rw [relayType_deleted, hfull]
  · rw [CompactConfig.eligible, htomb]
  · rw [eval_get ch hk]
    simp only [hfull]
  · have hlisted : r.listed = true ↔ r.lifecycle ≠ .tombstone := by
      rw [Row.listed_eq, Bool.not_eq_true', ← Bool.not_eq_true, hiff]
    rw [list, mem_query]
    simp only [hk, hscope, hlisted, true_and]
  · subst hkey
    obtain ⟨d', hd'⟩ := eval_create ch ho hf hk
    simp only [hiff] at hd'
    exact ⟨d', hd'⟩
  · cases ha with
    | mk hi hx => exact hiff.mp (removed_act h hi (.mk hi hx) hk hgone).2

/-- The object is created and deleted, over connections that hold. -/
def lossyDeletion : List (System.Event Choice (Call × Option Cut)) :=
  [.spawn (.create plainOptions (plainObject .empty ""), none), .act 0 ⟨0, 0, []⟩,
   .act 0 ⟨0, 7, []⟩,
   .spawn (.delete plainOptions (plainObject .empty "") 1, none), .act 1 ⟨0, 0, []⟩,
   .act 1 ⟨0, 0, []⟩, .act 1 ⟨0, 0, []⟩, .act 1 ⟨0, 0, []⟩]

/-- After it Get does not find the object, and another may be created. -/
theorem tombstone_tests_agree_deleted : ∃ (es : List (ℕ × Seen Op Op.Res)) (c : LossyConf)
    (r : Row), lossy.Hist ⟨.empty, []⟩ es c ∧
      c.store.table.lookup ⟨"g/v1/K", "ns", "a"⟩ = some r ∧ r.lifecycle = .tombstone ∧
      (∀ ch, (get ⟨"g/v1/K", "ns", "a"⟩).eval Database.exec ch c.store =
        some (⟨.error .notFound, false⟩, c.store)) ∧
      ∃ d', (create send plainOptions (plainObject .empty "")).eval Database.exec ⟨0, 8, []⟩
        c.store = some (⟨.ok (.result ⟨c.store.nextXid, 1, 8, true⟩), true⟩, d') := by
  have hrun : (lossy.recordIf (fun _ _ _ _ => true) lossyDeletion ([], ⟨.empty, []⟩)).any (fun h =>
      (h.2.store.table.lookup ⟨"g/v1/K", "ns", "a"⟩).any (·.lifecycle == .tombstone) &&
        h.2.store.fresh 8) = true := by decide +kernel
  obtain ⟨es, c, hc, hobs⟩ := System.HistIf.observed (fun _ _ _ _ _ => trivial) hrun
  simp only [Bool.and_eq_true, Option.any_eq_true, beq_iff_eq] at hobs
  obtain ⟨⟨r, hr, ht⟩, hf⟩ := hobs
  obtain ⟨-, hget, -, hcreate, -⟩ := tombstone_tests_agree hc hr
  simp only [ht, if_true] at hget hcreate
  exact ⟨es, c, r, hc, hr, ht, hget, hcreate ⟨0, 8, []⟩ _ _ ⟨rfl, by decide⟩ rfl hf⟩

end

/-! ### Deletion within an incarnation -/

variable {d : Database} {k : Key} {r0 r : Row}

section

variable {es : List (ℕ × Seen Op Op.Res)} {c : LossyConf}

/-- The calls of clients whose objects were read from the store. -/
def Reading (l : Call × Option Cut) (_ : Op) (_ : Choice) (d : Database) : Prop := l.1.ReadFrom d

def Call.readsFrom (l : Call) (d : Database) : Bool :=
  l.object.all fun o =>
    match parseResourceVersion o.resourceVersion, parseObjectUID o.uid with
    | some v, some (some u) =>
      v == 0 || d.hist.any fun e => e.1 == o.key && e.2.uid == u && e.2.objectVersion == v
    | _, _ => true

lemma Call.readFrom_of {l : Call} (h : l.readsFrom d = true) : l.ReadFrom d := by
  intro o v u hp hv
  simp only [Call.readsFrom, hp.object, Option.all_some, hp.version, hp.uid, Bool.or_eq_true,
    beq_iff_eq, hv, false_or, List.any_eq_true, Bool.and_eq_true] at h
  obtain ⟨⟨k, r⟩, he, ⟨hkey, hu⟩, hver⟩ := h
  exact ⟨r, hkey ▸ he, hu, hver⟩

lemma reading_of (l : Call × Option Cut) (o : Op) (x : Choice) (d : Database)
    (h : l.1.readsFrom d = true) : Reading l o x d := Call.readFrom_of h

lemma Call.Rewrites.marked {l : Call} (h : l.Rewrites r0 k r0 r)
    (hm : r0.deletionTimestamp.isSome) : r.deletionTimestamp.isSome := by
  cases h with
  | status _ _ _ _ mark | update _ _ _ _ _ _ _ mark => rwa [mark]
  | mark _ _ _ live => simp [live] at hm
  | overwrite _ _ _ _ _ _ _ mark => simp [mark]

lemma tombstone_of {m : StoredMetadata} (hmeta : r.metadata = m.toJson)
    (hf : m.finalizers = []) (hm : r.deletionTimestamp.isSome) : r.tombstone := by
  have hc : r.ClientWritten := ⟨m, hmeta⟩
  rw [← hc.isFullyDeleted_eq, isFullyDeleted, hm, hmeta]
  simp [hasFinalizers, StoredMetadata.ofJson_toJson, hf]

/-- **Deletion is irreversible**: along every incarnation a state after a marked one is marked; and
an Update that replaces a marked row by one without finalizers leaves a tombstone, which neither
Get nor List returns. -/
theorem deletion_irreversible (h : lossy.HistIf Reading ⟨.empty, []⟩ es c) :
    c.store.Along (fun r r' => r.deletionTimestamp.isSome → r'.deletionTimestamp.isSome) ∧
    ∀ (c' : LossyConf) (i : ℕ) (t : Thread Op Op.Res (Call × Option Cut) Outcome) (opts : Options)
      (o : Object) (k : Key) (r0 : Row), c.pool[i]? = some t → t.label.1 = .update opts o →
      lossy.Act i c c' → c.store.table.lookup k = some r0 → r0.deletionTimestamp.isSome →
      c'.store.table.lookup k ≠ some r0 → o.metadata.finalizers = [] →
      ∃ r, c'.store.table.lookup k = some r ∧ r.uid = r0.uid ∧ r.tombstone ∧
        (∀ ch, (get k).eval Database.exec ch c'.store =
          some (⟨.error .notFound, false⟩, c'.store)) ∧
        ∀ (hashtext : Hash) (cfg : WatchConfig) (r' : Row),
          (k, r') ∉ (list hashtext cfg c'.store).resources := by
  refine ⟨along_run (fun _ _ _ _ h => h) (fun _ => id)
    (fun _ _ _ hstep hprev hm => hstep.marked (hprev hm)) h, ?_⟩
  intro c' i t opts o k r0 hi hl ha hk hm hne hf
  rcases reading_act (fun _ _ _ _ h => h) h hi ha hk hne with
    ⟨_, _, _, hl', -⟩ | ⟨_, hl', -⟩ | ⟨r, hr, hu, -, hstep⟩
  · cases hl.symm.trans hl'
  · cases hl.symm.trans hl'
  have hmark := hstep.marked hm
  rw [hl] at hstep
  cases hstep with
  | status call | mark call | overwrite call => cases call
  | update call _ _ _ _ _ metadata _ =>
    cases call
    have hfin : (updatedMetadata r0 o).finalizers = [] := by
      unfold updatedMetadata
      split <;> exact hf
    have htomb := tombstone_of metadata hfin hmark
    have hfull : isFullyDeleted r = true :=
      (Row.ClientWritten.isFullyDeleted_eq ⟨_, metadata⟩).trans htomb
    refine ⟨r, hr, hu, htomb, fun ch => ?_, fun hashtext cfg r' hmem => ?_⟩
    · rw [eval_get ch hr, hfull]
      rfl
    · obtain ⟨hr', -, hlisted⟩ := mem_query.mp hmem
      cases hr.symm.trans hr'
      rw [Row.listed_eq, htomb] at hlisted
      cases hlisted

def guardedObject (uid : UidText) (resourceVersion : String) (finalizers : List String) : Object :=
  { plainObject uid resourceVersion with metadata := ⟨[], [], [], finalizers, 1⟩ }

/-- An object with a finalizer is created and deleted, and a call on it is about to write. -/
def dyingThen (l : Call) : List (System.Event Choice (Call × Option Cut)) :=
  [.spawn (.create plainOptions (guardedObject .empty "" ["f"]), none), .act 0 ⟨0, 0, []⟩,
   .act 0 ⟨0, 7, []⟩,
   .spawn (.delete plainOptions (plainObject .empty "") 1, none), .act 1 ⟨0, 0, []⟩,
   .act 1 ⟨0, 0, []⟩, .act 1 ⟨0, 0, []⟩, .act 1 ⟨0, 0, []⟩,
   .spawn (l, none), .act 2 ⟨0, 0, []⟩, .act 2 ⟨0, 0, []⟩, .act 2 ⟨0, 0, []⟩]

/-- The Update that removes the finalizer ends the object. -/
theorem deletion_irreversible_finalized : ∃ (es : List (ℕ × Seen Op Op.Res)) (c c' : LossyConf)
    (r0 r : Row), lossy.HistIf Reading ⟨.empty, []⟩ es c ∧ lossy.Act 2 c c' ∧
      c.store.table.lookup ⟨"g/v1/K", "ns", "a"⟩ = some r0 ∧ r0.lifecycle = .dying ∧
      c'.store.table.lookup ⟨"g/v1/K", "ns", "a"⟩ = some r ∧ r.tombstone ∧
      ∀ ch, (get ⟨"g/v1/K", "ns", "a"⟩).eval Database.exec ch c'.store =
        some (⟨.error .notFound, false⟩, c'.store) := by
  obtain ⟨es, c, c', t, hc, ht, hl, ha, hobs⟩ := System.HistIf.observed_act (M := lossy)
    (s := .empty) (i := 2) (x := ⟨0, 0, []⟩) reading_of (fun c c' =>
      (c.store.table.lookup ⟨"g/v1/K", "ns", "a"⟩).any fun r0 => r0.lifecycle == .dying &&
        decide (c'.store.table.lookup ⟨"g/v1/K", "ns", "a"⟩ ≠ some r0))
    (show (System.spawned (dyingThen (.update plainOptions
      (guardedObject (.uid 7) "2" []))))[2]? = some _ from rfl) (by decide +kernel)
  simp only [Option.any_eq_true, Bool.and_eq_true, beq_iff_eq, decide_eq_true_eq] at hobs
  obtain ⟨r0, hr0, hdying, hne⟩ := hobs
  have hmarked : r0.deletionTimestamp.isSome := by
    unfold Row.lifecycle at hdying
    cases hm : r0.deletionTimestamp with
    | none => simp [hm] at hdying
    | some t => rfl
  obtain ⟨r, hr, -, htomb, hget, -⟩ := (deletion_irreversible hc).2 c' 2 t _ _ _ r0 ht
    (congrArg Prod.fst hl) ha hr0 hmarked hne rfl
  exact ⟨es, c, c', r0, r, hc, ha, hr0, hdying, hr, htomb, hget⟩

end

/-! ### The generation -/

def Row.generation (r : Row) : ℤ := (currentGeneration r.metadata).toInt

lemma generation_of {m : StoredMetadata} (h : r.metadata = m.toJson) :
    r.generation = m.generation.toInt := by
  rw [Row.generation, h, currentGeneration, StoredMetadata.ofJson_toJson]

def Row.respecified (r0 : Row) (spec : Json) : Bool := !r0.spec.jsonbEq spec

/-- The generation counts the change from `r0` to `r`: an Update with another spec raises it by
one, and nothing else changes it. -/
def Call.Counted (l : Call) (r0 r : Row) : Prop :=
  match l with
  | .update _ _ => r.generation = if r0.respecified r.spec then r0.generation + 1 else r0.generation
  | _ => r.generation = r0.generation

/-- When it does: where Go sees no change of the spec the caller's own generation has to be the
right one, where it sees one there has to be one (and a next generation), and a Delete that names a
version has to bring the stored generation along. -/
def Call.CountsSpec (l : Call) (r0 : Row) : Prop :=
  match l with
  | .update _ o =>
    if r0.spec.goEqual o.spec then
      o.metadata.generation.toInt =
        if r0.respecified o.spec then r0.generation + 1 else r0.generation
    else r0.respecified o.spec ∧ r0.generation < 2 ^ 63 - 1
  | .delete _ o _ => parseResourceVersion o.resourceVersion = some 0 ∨
      o.metadata.generation.toInt = r0.generation
  | _ => True

lemma toInt_succ (g : Int64) :
    (g + 1).toInt = if g.toInt < 2 ^ 63 - 1 then g.toInt + 1 else -2 ^ 63 := by
  have hlo := g.le_toInt
  have hhi := g.toInt_lt
  have h1 : (1 : Int64).toInt = 1 := by decide
  rw [Int64.toInt_add, h1, Int.bmod_def]
  split <;> split <;> omega

lemma generation_updated {o : Object} (h : r.metadata = (updatedMetadata r0 o).toJson) :
    r.generation = if r0.spec.goEqual o.spec then o.metadata.generation.toInt
      else if r0.generation < 2 ^ 63 - 1 then r0.generation + 1 else -2 ^ 63 := by
  rw [generation_of h, updatedMetadata]
  split
  · rfl
  · exact toInt_succ _

lemma Call.Rewrites.counted_iff {l : Call} (h : l.Rewrites r0 k r0 r)
    (hpos : 0 < r0.objectVersion) : l.Counted r0 r ↔ l.CountsSpec r0 := by
  cases h with
  | status call _ _ metadata =>
    subst call
    simp only [Call.Counted, Call.CountsSpec, Row.generation, metadata]
  | mark call _ unversioned _ _ _ metadata =>
    subst call
    simp only [Call.Counted, Call.CountsSpec, Row.generation, metadata, unversioned, true_or]
  | @overwrite opts o now call _ version _ _ _ metadata =>
    subst call
    have hne : parseResourceVersion o.resourceVersion ≠ some 0 := by
      rw [version]
      exact fun h0 => hpos.ne' (Option.some.inj h0)
    simp only [Call.Counted, Call.CountsSpec, generation_of metadata, hne, false_or]
  | @update opts o call _ _ _ spec _ metadata =>
    subst call
    simp only [Call.Counted, Call.CountsSpec, generation_updated metadata, spec]
    have hle : -2 ^ 63 ≤ r0.generation := (currentGeneration r0.metadata).le_toInt
    split
    · rfl
    · cases r0.respecified o.spec with
      | false =>
        simp only [Bool.false_eq_true, if_false, false_and, iff_false]
        split <;> omega
      | true =>
        simp only [if_true, true_and]
        split <;> omega

section

variable {es : List (ℕ × Seen Op Op.Res)} {c : LossyConf}

/-- The calls of such clients, when every change that a call could make to the row whose version
and UUID it presents is one that the generation counts. -/
def Counting (l : Call × Option Cut) (o : Op) (x : Choice) (d : Database) : Prop :=
  Reading l o x d ∧ ∀ obj r0, l.1.Presents obj r0.objectVersion r0.uid →
    d.table.lookup obj.key = some r0 → l.1.CountsSpec r0

lemma Call.Rewrites.generation_le {l : Call}
    (h : l.Rewrites r0 k r0 r) (hd : Recorded d) (hk : d.table.lookup k = some r0)
    (hl : ∀ obj, l.Presents obj r0.objectVersion r0.uid → obj.key = k → l.CountsSpec r0) :
    r0.generation ≤ r.generation := by
  have hpos : 0 < r0.objectVersion := hd.historic.pos _ (hd.historic.mem _ _ hk)
  have hcounts : l.CountsSpec r0 := by
    cases h with
    | status call => exact call ▸ trivial
    | mark call _ unversioned => exact call ▸ .inl unversioned
    | update call key version named | overwrite call key version named =>
      exact hl _ ⟨by rw [call]; rfl, version, by rw [named]; rfl⟩ key
  have hcounted := (h.counted_iff hpos).mpr hcounts
  unfold Call.Counted at hcounted
  split at hcounted
  · split at hcounted <;> omega
  · omega

/-- **The generation counts spec changes** exactly when the Go comparison and the caller's own
generation let it; and along every incarnation of a run in which they always do it never falls. -/
theorem generation_counts (es : List (ℕ × Seen Op Op.Res)) (c : LossyConf) :
    (∀ (c' : LossyConf) (i : ℕ) (t : Thread Op Op.Res (Call × Option Cut) Outcome) (k : Key)
      (r0 r : Row), lossy.HistIf Reading ⟨.empty, []⟩ es c → c.pool[i]? = some t →
      lossy.Act i c c' → c.store.table.lookup k = some r0 → c'.store.table.lookup k = some r →
      r ≠ r0 → r.uid = r0.uid → (t.label.1.Counted r0 r ↔ t.label.1.CountsSpec r0)) ∧
    (lossy.HistIf Counting ⟨.empty, []⟩ es c →
      c.store.Along fun r r' => r.generation ≤ r'.generation) := by
  refine ⟨fun c' i t k r0 r h hi ha hk hk' hne hu => ?_, fun h => ?_⟩
  · have hd := recorded_run h
    have hpos : 0 < r0.objectVersion := hd.historic.pos _ (hd.historic.mem _ _ hk)
    have hne' : c'.store.table.lookup k ≠ some r0 := by
      rw [hk']
      exact fun he => hne (Option.some.inj he)
    rcases reading_act (fun _ _ _ _ h => h) h hi ha hk hne' with
      ⟨_, _, r', -, hr', hf⟩ | ⟨_, -, hnone, -⟩ | ⟨r', hr', -, -, hstep⟩
    · -- a new incarnation has a UUID of its own
      cases hk'.symm.trans hr'
      have hf : ∀ e ∈ c.store.hist, e.2.uid ≠ r.uid := by simpa [Database.fresh] using hf
      exact absurd hu.symm (hf _ (hd.historic.mem _ _ hk))
    · cases hk'.symm.trans hnone
    · cases hk'.symm.trans hr'
      exact hstep.counted_iff hpos
  · refine along_run (fun _ _ _ _ h => h.1) (fun _ => le_rfl) ?_ h
    intro l o x d k r0 r r' hd hok hk hstep hprev
    refine le_trans hprev (hstep.generation_le hd hk fun obj hp hkey => ?_)
    subst hkey
    exact hok.2 obj r0 hp hk

instance (l : Call) (r0 : Row) : Decidable (l.CountsSpec r0) :=
  match l with
  | .update _ o => inferInstanceAs (Decidable (if r0.spec.goEqual o.spec then _ = _ else _ ∧ _))
  | .delete _ _ _ => inferInstanceAs (Decidable (_ ∨ _))
  | .get _ | .create _ _ | .statusUpdate _ _ | .compact _ => inferInstanceAs (Decidable True)

def countsFrom (l : Call × Option Cut) (d : Database) : Bool :=
  l.1.readsFrom d && l.1.object.all fun o => (d.table.lookup o.key).all (l.1.CountsSpec ·)

lemma counting_of (l : Call × Option Cut) (o : Op) (x : Choice) (d : Database)
    (h : countsFrom l d = true) : Counting l o x d := by
  simp only [countsFrom, Bool.and_eq_true] at h
  refine ⟨Call.readFrom_of h.1, fun obj r0 hp hk => ?_⟩
  simpa [hp.object, hk] using h.2

/-- An object is created, and an Update of it is about to write. -/
def createdThen (l : Call) : List (System.Event Choice (Call × Option Cut)) :=
  [.spawn (.create plainOptions (plainObject .empty ""), none), .act 0 ⟨0, 0, []⟩,
   .act 0 ⟨0, 7, []⟩,
   .spawn (l, none), .act 1 ⟨0, 0, []⟩, .act 1 ⟨0, 0, []⟩, .act 1 ⟨0, 0, []⟩]

def respecify : Call :=
  .update plainOptions { plainObject (.uid 7) "1" with spec := .obj [("replicas", .num 2)] }

/-- It raises the generation by one. -/
theorem generation_counts_respecified : ∃ (es : List (ℕ × Seen Op Op.Res)) (c c' : LossyConf)
    (r0 r : Row), lossy.HistIf Counting ⟨.empty, []⟩ es c ∧ lossy.Act 1 c c' ∧
      c.store.table.lookup ⟨"g/v1/K", "ns", "a"⟩ = some r0 ∧
      c'.store.table.lookup ⟨"g/v1/K", "ns", "a"⟩ = some r ∧ r0.respecified r.spec ∧
      r.generation = r0.generation + 1 ∧
      c.store.Along fun r r' => r.generation ≤ r'.generation := by
  obtain ⟨es, c, c', t, hc, ht, hl, ha, hobs⟩ := System.HistIf.observed_act (M := lossy)
    (s := .empty) (i := 1) (x := ⟨0, 0, []⟩) counting_of (fun c c' =>
      (c.store.table.lookup ⟨"g/v1/K", "ns", "a"⟩).any fun r0 =>
        (c'.store.table.lookup ⟨"g/v1/K", "ns", "a"⟩).any fun r =>
          decide (r ≠ r0) && r.uid == r0.uid && r0.respecified r.spec &&
            decide (respecify.CountsSpec r0))
    (show (System.spawned (createdThen respecify))[1]? = some _ from rfl) (by decide +kernel)
  simp only [Option.any_eq_true, Bool.and_eq_true, beq_iff_eq, decide_eq_true_eq] at hobs
  obtain ⟨r0, hr0, r, hr, ⟨⟨hne, hu⟩, hspec⟩, hcounts⟩ := hobs
  have hreading : lossy.HistIf Reading ⟨.empty, []⟩ es c := hc.mono fun _ _ _ _ h => h.1
  have hcall : t.label.1 = respecify := congrArg Prod.fst hl
  have hcounted := ((generation_counts es c).1 c' 1 t _ r0 r hreading ht ha hr0 hr hne hu).mpr
    (hcall ▸ hcounts)
  rw [hcall] at hcounted
  refine ⟨es, c, c', r0, r, hc, ha, hr0, hr, hspec, ?_, (generation_counts es c).2 hc⟩
  simpa only [respecify, Call.Counted, hspec, if_true] using hcounted

/-- An Update of the labels, of an object whose generation was not filled in. -/
def relabel : Call :=
  .update plainOptions { plainObject (.uid 7) "1" with metadata := ⟨[("a", "b")], [], [], [], 0⟩ }

/-- It stores the caller's generation: the spec stays and the generation falls from 1 to 0. -/
theorem relabelled_generation_falls : ∃ (es : List (ℕ × Seen Op Op.Res)) (c c' : LossyConf)
    (t : Thread Op Op.Res (Call × Option Cut) Outcome) (r0 r : Row),
    lossy.HistIf Reading ⟨.empty, []⟩ es c ∧ c.pool[1]? = some t ∧ t.label.1 = relabel ∧
      lossy.Act 1 c c' ∧ c.store.table.lookup ⟨"g/v1/K", "ns", "a"⟩ = some r0 ∧
      c'.store.table.lookup ⟨"g/v1/K", "ns", "a"⟩ = some r ∧ r.uid = r0.uid ∧
      r.spec = r0.spec ∧ r0.generation = 1 ∧ r.generation = 0 ∧ ¬relabel.Counted r0 r := by
  obtain ⟨es, c, c', t, hc, ht, hl, ha, hobs⟩ := System.HistIf.observed_act (M := lossy)
    (s := .empty) (i := 1) (x := ⟨0, 0, []⟩) reading_of (fun c c' =>
      (c.store.table.lookup ⟨"g/v1/K", "ns", "a"⟩).any fun r0 =>
        (c'.store.table.lookup ⟨"g/v1/K", "ns", "a"⟩).any fun r =>
          r.uid == r0.uid && r.spec == r0.spec && r0.generation == 1 && r.generation == 0)
    (show (System.spawned (createdThen relabel))[1]? = some _ from rfl) (by decide +kernel)
  simp only [Option.any_eq_true, Bool.and_eq_true, beq_iff_eq] at hobs
  obtain ⟨r0, hr0, r, hr, ⟨⟨hu, hspec⟩, h1⟩, h0⟩ := hobs
  refine ⟨es, c, c', t, r0, r, hc, ht, congrArg Prod.fst hl, ha, hr0, hr, hu, hspec, h1, h0, ?_⟩
  simp only [relabel, Call.Counted, h1, h0]
  split <;> omega

end

/-! ### What a Delete leaves alone -/

/-- A member is the same in both documents, as a JSON value. -/
def sameMember (m : String) (j j' : Json) : Bool :=
  match j.get? m, j'.get? m with
  | none, none => true
  | some a, some b => a.jsonbEq b
  | _, _ => false

/-- The content of a row that a Delete has no business with. -/
structure Row.SameContent (r0 : Row) (spec status metadata : Json) : Prop where
  spec : r0.spec.jsonbEq spec
  status : r0.status.jsonbEq status
  members : ∀ m ∈ ["labels", "annotations", "finalizers", "generation"],
    sameMember m r0.metadata metadata

/-- From `r0` to `r` only the mark was set, and nothing where it was set before. -/
structure Row.Framed (r0 r : Row) : Prop where
  content : r0.SameContent r.spec r.status r.metadata
  marked : r.deletionTimestamp.isSome
  dying : r0.deletionTimestamp.isSome → r = r0

lemma sameMember_refl (m : String) (j : Json) : sameMember m j j = true := by
  unfold sameMember
  cases j.get? m with
  | none => rfl
  | some a => exact Json.jsonbEq_refl a

lemma Row.SameContent.refl (r : Row) : r.SameContent r.spec r.status r.metadata :=
  ⟨Json.jsonbEq_refl _, Json.jsonbEq_refl _, fun _ _ => sameMember_refl _ _⟩

lemma jsonbEq_nonempty {x : Json} {xs : List Json} {j : Json}
    (h : (Json.arr (x :: xs)).jsonbEq j = true) : j.jsonbEq (.arr []) = false := by
  cases j with
  | arr ys =>
    cases ys with
    | nil => simp [Json.jsonbEq, Json.equiv, Json.equivList] at h
    | cons y ys => simp [Json.jsonbEq, Json.equiv, Json.equivList]
  | _ => simp [Json.jsonbEq, Json.equiv] at h

lemma Row.Framed.not_tombstone (h : r0.Framed r) (hc : r0.ClientWritten)
    (hf : hasFinalizers r0.metadata) : r.tombstone = false := by
  obtain ⟨m, hm⟩ := hc
  have hfs : m.finalizers ≠ [] := by
    simpa [hasFinalizers, hm, StoredMetadata.ofJson_toJson] using hf
  have hsame := h.content.members "finalizers" (by simp)
  obtain ⟨f, fs, hcons⟩ := List.exists_cons_of_ne_nil hfs
  simp only [sameMember, hm, finalizers_toJson, hcons, List.map_cons, reduceCtorEq, if_false]
    at hsame
  unfold Row.tombstone Row.finalizers
  cases hr : r.metadata.get? "finalizers" with
  | none => simp [hr] at hsame
  | some j =>
    rw [hr] at hsame
    have hj := jsonbEq_nonempty hsame
    cases r.deletionTimestamp <;> simp [hj]

/-- When a Delete leaves the rest alone: it names no version, or the object is live and the
caller's copy has the stored content. -/
def Object.DeletesOnly (o : Object) (r0 : Row) : Prop :=
  parseResourceVersion o.resourceVersion = some 0 ∨
    r0.deletionTimestamp = none ∧ r0.SameContent o.spec o.status o.metadata.toJson

lemma Call.Rewrites.framed_iff {opts : Options} {o : Object} {now : Time} {current : Row}
    (h : Call.Rewrites (.delete opts o now) current k r0 r) (hpos : 0 < r0.objectVersion)
    (hv : r.objectVersion = r0.objectVersion + 1) : r0.Framed r ↔ o.DeletesOnly r0 := by
  cases h with
  | status call | update call => cases call
  | mark call _ unversioned live spec status metadata mark =>
    cases call
    refine iff_of_true ⟨?_, by simp [mark], by simp [live]⟩ (.inl unversioned)
    rw [spec, status, metadata]
    exact .refl r0
  | overwrite call _ version _ spec status metadata mark =>
    cases call
    have hne : parseResourceVersion o.resourceVersion ≠ some 0 := by
      rw [version]
      exact fun h0 => hpos.ne' (Option.some.inj h0)
    constructor
    · intro hf
      refine .inr ⟨?_, spec ▸ status ▸ metadata ▸ hf.content⟩
      -- a row that was marked before has got another version all the same
      cases hm : r0.deletionTimestamp with
      | none => rfl
      | some t =>
        have hsame := hf.dying (by simp [hm])
        rw [hsame] at hv
        omega
    · rintro (h0 | ⟨hlive, hsame⟩)
      · exact absurd h0 hne
      · refine ⟨?_, by simp [mark], by simp [hlive]⟩
        rw [spec, status, metadata]
        exact hsame

section

variable {es : List (ℕ × Seen Op Op.Res)} {c : LossyConf} {i : ℕ} {opts : Options} {o : Object}
  {now : Time} {t : Thread Op Op.Res (Call × Option Cut) Outcome}

/-- At this moment the Delete replaces the row of its key by a marked one of the same incarnation;
nothing but the mark has changed exactly if the Delete only deletes, and then an object with
finalizers is dying. -/
structure Object.Deletes (o : Object) (m : Moment Op Op.Res Database) (r0 r : Row) : Prop where
  stored : m.before.table.lookup o.key = some r0
  table : m.after.table = m.before.table.insert o.key r
  uid : r.uid = r0.uid
  version : r.objectVersion = r0.objectVersion + 1
  marked : r.deletionTimestamp.isSome
  framed : r0.Framed r ↔ o.DeletesOnly r0
  dying : r0.Framed r → hasFinalizers r0.metadata → r.lifecycle = .dying

/-- At this moment the Delete finds the row of its key marked. -/
structure Object.FindsMarked (o : Object) (m : Moment Op Op.Res Database) (r : Row) : Prop where
  stored : m.before.table.lookup o.key = some r
  marked : r.deletionTimestamp.isSome

lemma Call.Rewrites.deletes {opts : Options} {o : Object} {now : Time}
    {current : Row} (h : Call.Rewrites (.delete opts o now) current k r0 r) (hd : Recorded d)
    (hk : d.table.lookup k = some r0) :
    k = o.key ∧ r.deletionTimestamp.isSome ∧
      (r0.Framed r → hasFinalizers r0.metadata → r.lifecycle = .dying) := by
  have hmem := hd.historic.mem _ _ hk
  obtain ⟨hkey, hmarked, hclient⟩ :
      k = o.key ∧ r.deletionTimestamp.isSome ∧ r.ClientWritten := by
    cases h with
    | status call | update call => cases call
    | mark call key _ _ _ _ metadata mark =>
      cases call
      obtain ⟨m, hm⟩ := hd.client _ hmem
      exact ⟨key.symm, by simp [mark], m, metadata.trans hm⟩
    | overwrite call key _ _ _ _ metadata mark =>
      cases call
      exact ⟨key.symm, by simp [mark], _, metadata⟩
  refine ⟨hkey, hmarked, fun hf hfin => ?_⟩
  have hlive := hf.not_tombstone (hd.client _ hmem) hfin
  rw [hclient.tombstone_lifecycle] at hlive
  unfold Row.lifecycle at hlive ⊢
  cases hm : r.deletionTimestamp with
  | none => simp [hm] at hmarked
  | some t => cases hfin : hasFinalizers r.metadata <;> simp_all

variable {ms later earlier : List (Moment Op Op.Res Database)} {m : Moment Op Op.Res Database}

lemma deletes_of_changed (h : lossy.Chronicle (fun _ _ _ _ => True) ⟨.empty, []⟩ ms c)
    (hi : c.pool[i]? = some t) (hl : t.label.1 = .delete opts o now)
    (hm : System.momentsOf i ms = later ++ m :: earlier) (hne : m.after.table ≠ m.before.table) :
    ∃ r0 r, o.Deletes m r0 r := by
  obtain ⟨⟨es, c1, c2, t1, hrun, -, ht1, hlabel, hact, hbefore, hafter⟩, -⟩ :=
    h.moment (fun _ _ _ _ _ _ => trivial) guards_lossy hi hm
  obtain ⟨hd, -, hcommit⟩ := conduct_act hrun ht1 hact
  rw [hlabel, hl, hbefore, hafter] at hcommit
  rw [hbefore] at hd
  cases hcommit with
  | none table => exact absurd table hne
  | created call | compacted call => cases call
  | @rewritten k r0 r current stored uid version table _ _ step =>
    obtain ⟨rfl, hmarked, hdying⟩ := step.deletes hd stored
    have hpos := hd.historic.pos _ (hd.historic.mem _ _ stored)
    exact ⟨r0, r, stored, table, uid, version, hmarked, step.framed_iff hpos version, hdying⟩

/-- A statement that reports a row has put it into the table, where it was not before. -/
lemma table_of_wrote {d' : Database} {op : Op} {a : op.Res} {ch : Choice} {u : Uid} {v : ℤ}
    (hd : d.Historic) (hx : exec op ch d = some (a, d')) (hw : wrote op a = some (u, v)) :
    ∃ k r, d'.table = d.table.insert k r ∧ r.uid = u ∧ r.objectVersion = v ∧
      d.table.lookup k ≠ some r := by
  have hnew : ∀ {x : ℕ} {k : Key} {r : Row}, x ∈ d.running → r.txidStamp = x →
      d.table.lookup k ≠ some r := fun hrun hstamp hk =>
    hd.stamp_ne (hd.mem _ _ hk) hrun hstamp
  cases op with
  | currentXactId | selectRow _ | endTx _ | compact _ _ => cases hw
  | insertRow x p =>
    rcases exec_insertRow hx with ⟨-, hno⟩ | ⟨r, hr, ⟨rfl, -⟩, rfl⟩
    · exact absurd (Dml.written_eq_some hw) (hno u v)
    · cases hw
      exact ⟨p.key, r, rfl, rfl, hr.version, hnew hr.running hr.stamp⟩
  | reviveRow x p =>
    rcases exec_reviveRow hx with ⟨-, hno⟩ | ⟨r, hr, ⟨rfl, -⟩, rfl⟩
    · exact absurd (Dml.written_eq_some hw) (hno u v)
    · cases hw
      exact ⟨p.key, r, rfl, rfl, hr.version, hnew hr.running hr.stamp⟩
  | updateStatus x p =>
    rcases exec_updateStatus hx with ⟨-, hno⟩ | ⟨r0, r, hr, ⟨rfl, -⟩, rfl⟩
    · exact absurd (Dml.written_eq_some hw) (hno u v)
    · cases hw
      exact ⟨p.key, r, rfl, rfl, rfl, hnew hr.running hr.stamp⟩
  | updateObject x p =>
    rcases exec_updateObject hx with ⟨-, hno⟩ | ⟨r0, r, hr, ⟨rfl, -⟩, rfl⟩
    · exact absurd (Dml.written_eq_some hw) (hno u v)
    · cases hw
      exact ⟨p.key, r, rfl, rfl, rfl, hnew hr.running hr.stamp⟩

lemma table_of_still (h : lossy.Chronicle (fun _ _ _ _ => True) ⟨.empty, []⟩ ms c)
    (hi : c.pool[i]? = some t) (hm : System.momentsOf i ms = later ++ m :: earlier)
    (hstill : changes m.seen.1 m.seen.2 = false) : m.after.table = m.before.table := by
  obtain ⟨-, -, x, -, hx⟩ := h.moment (fun _ _ _ _ _ _ => trivial) guards_lossy hi hm
  by_contra hne
  rw [changes_of_table_ne hx hne] at hstill
  cases hstill

section

variable (h : lossy.Chronicle (fun _ _ _ _ => True) ⟨.empty, []⟩ ms c) (hi : c.pool[i]? = some t)
  (hl : t.label.1 = .delete opts o now) {u : Uid} {v : ℤ}
include h hi hl

lemma deletes_of_written
    (hs : t.label.1.Settled ((System.momentsOf i ms).map Moment.seen) u v true) :
    ∃ m earlier r0 r, System.momentsOf i ms = m :: earlier ∧ o.Deletes m r0 r ∧ u = r.uid ∧
      v = r.objectVersion ∧ ∀ m' ∈ earlier, m'.after.table = m'.before.table := by
  generalize htr : (System.momentsOf i ms).map Moment.seen = tr at hs
  cases hs with
  | @written tr op a _ _ row still =>
    obtain ⟨m, earlier, hms, hseen, rfl⟩ := List.map_eq_cons_iff.mp htr
    have hlast : System.momentsOf i ms = [] ++ m :: earlier := hms
    obtain ⟨⟨es, c1, _, _, hrun, -, -, -, -, hbefore, -⟩, -, x, -, hx⟩ :=
      h.moment (fun _ _ _ _ _ _ => trivial) guards_lossy hi hlast
    have hd := (recorded_run hrun).historic
    rw [hbefore] at hd
    obtain ⟨k, r, htable, rfl, rfl, hnew⟩ := table_of_wrote hd hx (by rw [hseen]; exact row)
    have hk : m.after.table.lookup k = some r := by rw [htable, AList.lookup_insert]
    -- the row that was put there is the one of the key
    obtain ⟨r0, r', hdel⟩ := deletes_of_changed h hi hl hlast fun heq => hnew (heq ▸ hk)
    have hr : r = r' := by
      rw [hdel.table] at hk
      by_cases hkey : k = o.key
      · rw [hkey, AList.lookup_insert] at hk
        exact (Option.some.inj hk).symm
      · rw [AList.lookup_insert_ne hkey] at hk
        exact absurd hk hnew
    refine ⟨m, earlier, r0, r', hms, hdel, by rw [hr], by rw [hr], fun m' hm' => ?_⟩
    obtain ⟨later, rest, hsplit⟩ := List.append_of_mem hm'
    rw [hsplit, ← List.cons_append] at hms
    exact table_of_still h hi hms (still m'.seen (List.mem_map_of_mem hm'))

lemma marked_of_suppressed
    (hs : t.label.1.Settled ((System.momentsOf i ms).map Moment.seen) u v false) :
    (∃ m ∈ System.momentsOf i ms, ∃ r, o.FindsMarked m r ∧ u = r.uid ∧ v = r.objectVersion) ∧
      ∀ m ∈ System.momentsOf i ms, m.after.table = m.before.table := by
  generalize htr : (System.momentsOf i ms).map Moment.seen = tr at hs
  cases hs with
  | @suppressed tr p r sends read named same still =>
    subst htr
    refine ⟨?_, fun m hm => ?_⟩
    · obtain ⟨m, hm, hseen⟩ := List.mem_map.mp read
      obtain ⟨later, earlier, hsplit⟩ := List.append_of_mem hm
      obtain ⟨-, -, x, -, hx⟩ := h.moment (fun _ _ _ _ _ _ => trivial) guards_lossy hi hsplit
      have hstored : m.before.table.lookup p.key = some r := by
        rw [hseen] at hx
        exact (Prod.mk.inj (Option.some.inj hx)).1
      rw [hl] at sends
      have hkey : p.key = o.key ∧ p.statusOnly = false ∧ p.deletionTs.isSome := by
        cases sends with
        | mark key whole _ _ _ _ _ _ _ _ mark | overwrite key whole _ _ _ _ _ _ _ mark =>
          exact ⟨key, whole, by simp [mark]⟩
      obtain ⟨hkey, hwhole, hmark⟩ := hkey
      simp only [WriteParams.suppressed, hwhole, Bool.false_eq_true, if_false, Bool.and_eq_true,
        beq_iff_eq] at same
      exact ⟨m, hm, r, ⟨hkey ▸ hstored, by rw [same.2]; exact hmark⟩, rfl, rfl⟩
    · obtain ⟨later, earlier, hsplit⟩ := List.append_of_mem hm
      exact table_of_still h hi hsplit (still m.seen (List.mem_map_of_mem hm))

end

/-- **A Delete touches only the mark** exactly when it names no version, or the object is live and
the caller's copy has the stored content. Whatever runs beside it, wherever a Delete changes the
table it replaces the row of its key. One that succeeds with a change has done so once, with its
last statement, and reports the row it has written. One that succeeds without a change has found
the row of its key marked, reports that row, and has left everything as it was. -/
theorem delete_touches_mark (h : lossy.Chronicle (fun _ _ _ _ => True) ⟨.empty, []⟩ ms c)
    (hi : c.pool[i]? = some t) (hl : t.label.1 = .delete opts o now) :
    (∀ m ∈ System.momentsOf i ms, m.after.table ≠ m.before.table → ∃ r0 r, o.Deletes m r0 r) ∧
    ∀ a x, t.prog = .ret a → a.result = .ok x → ∃ w, x = .result w ∧
      (w.changed = true → ∃ m earlier r0 r, System.momentsOf i ms = m :: earlier ∧
        o.Deletes m r0 r ∧ w.uid = r.uid ∧ w.objectVersion = r.objectVersion ∧
        ∀ m' ∈ earlier, m'.after.table = m'.before.table) ∧
      (w.changed = false → (∃ m ∈ System.momentsOf i ms, ∃ r, o.FindsMarked m r ∧
        w.uid = r.uid ∧ w.objectVersion = r.objectVersion) ∧
        ∀ m ∈ System.momentsOf i ms, m.after.table = m.before.table) := by
  refine ⟨fun m hm hne => ?_, fun a x ht hx => ?_⟩
  · obtain ⟨later, earlier, hsplit⟩ := List.append_of_mem hm
    exact deletes_of_changed h hi hl hsplit hne
  obtain ⟨l, p⟩ := t
  cases ht
  have hret := h.returned (fun _ _ _ _ _ _ => trivial) guards_lossy hi
  obtain ⟨w, rfl, hsettled⟩ := hret (by rw [show l.1 = _ from hl]; rfl) x hx
  obtain ⟨txid, version, uid, changed⟩ := w
  refine ⟨_, rfl, ?_, ?_⟩
  · rintro rfl
    exact deletes_of_written h hi hl hsettled
  · rintro rfl
    exact marked_of_suppressed h hi hl hsettled

/-- An object with a finalizer is created, and a call on it takes `n` steps. -/
def guardedThen (l : Call) (n : ℕ) : List (System.Event Choice (Call × Option Cut)) :=
  [.spawn (.create plainOptions (guardedObject .empty "" ["f"]), none), .act 0 ⟨0, 0, []⟩,
   .act 0 ⟨0, 7, []⟩, .spawn (l, none)] ++ List.replicate n (.act 1 ⟨0, 0, []⟩)

/-- The call has succeeded with a change. -/
def succeeded (t : Thread Op Op.Res (Call × Option Cut) Outcome) : Bool :=
  match t.prog with
  | .ret ⟨.ok (.result w), _⟩ => w.changed
  | _ => false

/-- A Delete without a version, of a copy that has nothing of the stored object. -/
theorem delete_touches_mark_unversioned : ∃ (ms : List (Moment Op Op.Res Database)) (c : LossyConf)
    (t : Thread Op Op.Res (Call × Option Cut) Outcome) (a : Outcome) (w : WriteResult)
    (m : Moment Op Op.Res Database) (r0 r : Row),
    lossy.Chronicle (fun _ _ _ _ => True) ⟨.empty, []⟩ ms c ∧ c.pool[1]? = some t ∧
      t.prog = .ret a ∧ a.result = .ok (.result w) ∧ w.changed = true ∧
      (plainObject .empty "").Deletes m r0 r ∧ w.objectVersion = r.objectVersion ∧
      r0.Framed r ∧ r.lifecycle = .dying := by
  have hrun : (lossy.chronicleIf (fun _ _ _ _ => true)
      (guardedThen (.delete plainOptions (plainObject .empty "") 1) 4) ([], ⟨.empty, []⟩)).any
      (fun h => h.2.pool[1]?.any succeeded &&
        (System.momentsOf 1 h.1).head?.any fun m => (m.before.table.lookup
          (plainObject .empty "").key).any fun r0 => hasFinalizers r0.metadata) = true := by
    decide +kernel
  obtain ⟨⟨ms, c⟩, hrec, hobs⟩ := (Option.any_eq_true _ _).mp hrun
  have hc : lossy.Chronicle (fun _ _ _ _ => True) ⟨.empty, []⟩ ms c :=
    .record (fun _ _ _ _ _ => trivial) .start hrec
  obtain ⟨t, ht, hl⟩ := System.recordIf_thread (show (System.spawned
    (guardedThen (.delete plainOptions (plainObject .empty "") 1) 4))[1]? = some _ from rfl)
    (System.recordIf_of_chronicleIf hrec)
  simp only [ht, Option.any_some, Bool.and_eq_true] at hobs
  obtain ⟨hret, hfin⟩ := hobs
  unfold succeeded at hret
  split at hret
  · next w changed hprog =>
    obtain ⟨_, hw, hchanged, -⟩ :=
      (delete_touches_mark hc ht (congrArg Prod.fst hl)).2 _ _ hprog rfl
    cases hw
    obtain ⟨m, earlier, r0, r, hms, hdel, -, hv, -⟩ := hchanged hret
    have hf := hdel.framed.mpr (.inl rfl)
    rw [hms, List.head?_cons, Option.any_some, hdel.stored, Option.any_some] at hfin
    exact ⟨ms, c, t, _, w, m, r0, r, hc, ht, hprog, rfl, hret, hdel, hv, hf, hdel.dying hf hfin⟩
  · cases hret

/-- A Delete with the version and UUID of the object, of a copy without its finalizer. -/
def deleteBare : Call := .delete plainOptions (guardedObject (.uid 7) "1" []) 1

/-- It takes the finalizer away, and makes the object a tombstone at once. -/
theorem versioned_delete_drops_finalizers : ∃ (es : List (ℕ × Seen Op Op.Res)) (c c' : LossyConf)
    (t : Thread Op Op.Res (Call × Option Cut) Outcome) (r0 r : Row),
    lossy.Hist ⟨.empty, []⟩ es c ∧ c.pool[1]? = some t ∧ t.label.1 = deleteBare ∧
      lossy.Act 1 c c' ∧ c.store.table.lookup ⟨"g/v1/K", "ns", "a"⟩ = some r0 ∧
      hasFinalizers r0.metadata ∧ r0.lifecycle = .live ∧
      c'.store.table.lookup ⟨"g/v1/K", "ns", "a"⟩ = some r ∧ r.lifecycle = .tombstone ∧
      ¬r0.Framed r := by
  obtain ⟨es, c, c', t, hc, ht, hl, ha, hobs⟩ := System.HistIf.observed_act (M := lossy)
    (s := .empty) (i := 1) (x := ⟨0, 0, []⟩) (fun _ _ _ _ (_ : true = true) => trivial) (fun c c' =>
      (c.store.table.lookup ⟨"g/v1/K", "ns", "a"⟩).any fun r0 =>
        (c'.store.table.lookup ⟨"g/v1/K", "ns", "a"⟩).any fun r => hasFinalizers r0.metadata &&
          r0.lifecycle == .live && r.lifecycle == .tombstone && r.tombstone)
    (show (System.spawned (guardedThen deleteBare 2))[1]? = some _ from rfl) (by decide +kernel)
  simp only [Option.any_eq_true, Bool.and_eq_true, beq_iff_eq] at hobs
  obtain ⟨r0, hr0, r, hr, ⟨⟨hfin, hlive⟩, hend⟩, htomb⟩ := hobs
  refine ⟨es, c, c', t, r0, r, hc, ht, congrArg Prod.fst hl, ha, hr0, hfin, hlive, hr, hend,
    fun hf => ?_⟩
  have hd := recorded_run hc
  have hnot := hf.not_tombstone (hd.client _ (hd.historic.mem _ _ hr0)) hfin
  rw [htomb] at hnot
  cases hnot

end

end Seaplane.Db
