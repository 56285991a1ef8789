import Mathlib.Data.List.AList
import Seaplane.Db.Row
import Seaplane.Lib.Mvcc

/-!
The database: transactions, the table and the compaction horizon, and the statements that the
stored procedure, the reader and the compactor issue.

A write transaction takes its identifier first and changes at most one row with its last
statement, so a statement that changes a row also commits: it locks the latest committed row,
re-checks its condition there and no other transaction can come between the two. A statement
that finds nothing to change leaves the transaction open. `hist` records every row ever
committed, the newest first; nothing the program does reads it.
-/

namespace Seaplane.Db

open Lib

abbrev Table := AList fun _ : Key => Row

/-- The committed state, and the transactions that have not ended. -/
structure Database where
  nextXid : ℕ
  running : List ℕ
  table : Table
  horizon : AList fun _ : String => ℕ
  hist : List (Key × Row)

/-- A fresh database; Postgres hands out identifiers from 3 on. -/
def Database.empty : Database := ⟨3, [], ∅, ∅, []⟩

/-- The arguments of `pgctl_write`. -/
structure WriteParams where
  statusOnly : Bool
  key : Key
  expectedVersion : ℤ
  expectedUid : Option Uid
  forceWrite : Bool
  spec : Option Json
  status : Option Json
  metadata : Option Json
  deletionTs : Option Time

namespace WriteParams

variable (p : WriteParams) (x : ℕ) (now : Time)

/-- The version and incarnation condition of the two UPDATE statements. -/
def matches? (r : Row) : Bool :=
  r.objectVersion == p.expectedVersion && p.expectedUid.all (r.uid == ·)

/-- The row of the INSERT; none when a NOT NULL column gets NULL. -/
def inserted (uid : Uid) : Option Row := do
  let spec ← p.spec
  let status ← p.status
  let metadata ← p.metadata
  return { uid, txidStamp := x, objectVersion := 1, spec, status, metadata,
           deletionTimestamp := p.deletionTs, createdAt := now, updatedAt := now }

def revived (uid : Uid) : Option Row := do
  let spec ← p.spec
  let metadata ← p.metadata
  return { uid, txidStamp := x, objectVersion := 1, spec, status := p.status.getD (.obj []),
           metadata, deletionTimestamp := none, createdAt := now, updatedAt := now }

def statusUpdated (r : Row) : Option Row := do
  let status ← p.status
  return { r with txidStamp := x, objectVersion := r.objectVersion + 1, status, updatedAt := now }

/-- The row after a write of the whole object. -/
def objectUpdated (r : Row) : Option Row := do
  let spec ← p.spec
  let metadata ← p.metadata
  return { r with txidStamp := x, objectVersion := r.objectVersion + 1, spec,
                  status := p.status.getD r.status, metadata, deletionTimestamp := p.deletionTs,
                  updatedAt := now }

end WriteParams

/-- `compaction.Config`: how long tombstones survive, in nanoseconds. -/
structure CompactConfig where
  retention : ℤ

/-- The cutoff interval, in whole seconds; 24 hours by default. -/
def CompactConfig.cutoff (c : CompactConfig) : ℤ :=
  if c.retention = 0 then 24 * 60 * 60 else c.retention.tdiv 1000000000

/-- The rows a compaction at `now` may delete. -/
def CompactConfig.eligible (c : CompactConfig) (now : Time) (r : Row) : Bool :=
  r.tombstone && r.deletionTimestamp.any fun t => max t r.updatedAt < now - c.cutoff * 1000000

/-! ### Statements -/

/-- What a statement that changes a row reports. -/
inductive Dml where
  | row (uid : Uid) (version : ℤ)
  | noRow
  | uniqueViolation
  | notNullViolation
  deriving DecidableEq

inductive Op where
  /-- `pg_current_xact_id()`: the transaction gets its identifier. -/
  | currentXactId
  /-- A SELECT by primary key. -/
  | selectRow (k : Key)
  | insertRow (x : ℕ) (p : WriteParams)
  | reviveRow (x : ℕ) (p : WriteParams)
  | updateStatus (x : ℕ) (p : WriteParams)
  | updateObject (x : ℕ) (p : WriteParams)
  /-- The transaction ends without having changed a row. -/
  | endTx (x : ℕ)
  | compact (x : ℕ) (c : CompactConfig)

abbrev Op.Res : Op → Type
  | .currentXactId => ℕ
  | .selectRow _ => Option Row
  | .insertRow .. | .reviveRow .. | .updateStatus .. | .updateObject .. => Dml
  | .endTx _ => Unit
  | .compact .. => ℕ

/-- The key of the row that a statement writes. -/
def Op.target : Op → Option Key
  | .insertRow _ p | .reviveRow _ p | .updateStatus _ p | .updateObject _ p => some p.key
  | .currentXactId | .selectRow _ | .endTx _ | .compact .. => none

/-- The transaction in which a statement runs. -/
def Op.transaction : Op → Option ℕ
  | .insertRow x _ | .reviveRow x _ | .updateStatus x _ | .updateObject x _ | .endTx x
  | .compact x _ => some x
  | .currentXactId | .selectRow _ => none

/-- What the environment decides: the transaction's time, the next UUID, and the rows that a
compaction's own snapshot does not show it yet. -/
structure Choice where
  now : Time
  uuid : Uid
  missed : List Key

variable {x : ℕ} {a : Dml} {p : WriteParams} {ch : Choice}

namespace Database

section

variable (d : Database) (x : ℕ) (k : Key)

def commitRow (r : Row) : Database :=
  { d with running := d.running.erase x, table := d.table.insert k r, hist := (k, r) :: d.hist }

/-- No row was ever committed under this UUID: `gen_random_uuid()` never repeats. -/
def fresh (u : Uid) : Bool := d.hist.all fun e => e.2.uid != u

def compacted (c : CompactConfig) (ch : Choice) : List (Key × Row) :=
  (d.table.entries.filter fun e => c.eligible ch.now e.2 && !ch.missed.contains e.1).map
    fun e => (e.1, e.2)

/-- Raise the horizon of a row's kind to its stamp. -/
def raise (h : AList fun _ : String => ℕ) (e : Key × Row) : AList fun _ : String => ℕ :=
  h.insert e.1.gvk (max ((h.lookup e.1.gvk).getD 0) e.2.txidStamp)

def commitCompact (del : List (Key × Row)) : Database :=
  { d with
    running := d.running.erase x
    table := del.foldl (fun t e => t.erase e.1) d.table
    horizon := del.foldl raise d.horizon }

/-- An UPDATE of the row of a key: it takes the row that satisfies `cond` to `set`. -/
def update (cond : Row → Bool) (set : Row → Option Row) : Dml × Database :=
  match (d.table.lookup k).filter cond with
  | none => (.noRow, d)
  | some r =>
    match set r with
    | none => (.notNullViolation, d)
    | some r' => (.row r'.uid r'.objectVersion, d.commitRow x k r')

/-- An INSERT: NOT NULL columns are checked before the primary key. -/
def insert : Option Row → Dml × Database
  | none => (.notNullViolation, d)
  | some r =>
    match d.table.lookup k with
    | some _ => (.uniqueViolation, d)
    | none => (.row r.uid r.objectVersion, d.commitRow x k r)

end

/-- The meaning of the statements; a transaction that is not running cannot issue one, and a
statement that draws a UUID draws a fresh one. -/
def exec : (o : Op) → Choice → Database → Option (o.Res × Database)
  | .currentXactId, _, d =>
    some (d.nextXid, { d with nextXid := d.nextXid + 1, running := d.nextXid :: d.running })
  | .selectRow k, _, d => some (d.table.lookup k, d)
  | .insertRow x p, ch, d =>
    if x ∈ d.running ∧ d.fresh ch.uuid then some (d.insert x p.key (p.inserted x ch.now ch.uuid))
    else none
  | .reviveRow x p, ch, d =>
    if x ∈ d.running ∧ d.fresh ch.uuid then
      some (d.update x p.key Row.tombstone fun _ => p.revived x ch.now ch.uuid)
    else none
  | .updateStatus x p, ch, d =>
    if x ∈ d.running then some (d.update x p.key p.matches? (p.statusUpdated x ch.now)) else none
  | .updateObject x p, ch, d =>
    if x ∈ d.running then some (d.update x p.key p.matches? (p.objectUpdated x ch.now)) else none
  | .endTx x, _, d =>
    if x ∈ d.running then some ((), { d with running := d.running.erase x }) else none
  | .compact x c, ch, d =>
    if x ∈ d.running then
      some ((d.compacted c ch).length, d.commitCompact x (d.compacted c ch))
    else none

def Step (d d' : Database) : Prop := ∃ o ch r, exec o ch d = some (r, d')

/-! ### What a statement can do -/

variable {d d' : Database}

lemma update_cases {k : Key} {cond : Row → Bool} {set : Row → Option Row}
    (h : d.update x k cond set = (a, d')) :
    (d' = d ∧ (a = .noRow ∨ a = .notNullViolation)) ∨
    ∃ r r', d.table.lookup k = some r ∧ cond r ∧ set r = some r' ∧
      a = .row r'.uid r'.objectVersion ∧ d' = d.commitRow x k r' := by
  unfold update at h
  cases hk : (d.table.lookup k).filter cond with
  | none => rw [hk] at h; cases h; exact .inl ⟨rfl, .inl rfl⟩
  | some r =>
    obtain ⟨h1, h2⟩ := Option.filter_eq_some_iff.mp hk
    rw [hk] at h
    cases hs : set r with
    | none => simp only [hs] at h; cases h; exact .inl ⟨rfl, .inr rfl⟩
    | some r' => simp only [hs] at h; cases h; exact .inr ⟨r, r', h1, h2, hs, rfl, rfl⟩

lemma insert_cases {k : Key} {o : Option Row} (h : d.insert x k o = (a, d')) :
    (d' = d ∧ (a = .uniqueViolation ∨ a = .notNullViolation)) ∨
    ∃ r, d.table.lookup k = none ∧ o = some r ∧ a = .row r.uid r.objectVersion ∧
      d' = d.commitRow x k r := by
  unfold insert at h
  cases o with
  | none => simp_all
  | some r => cases hk : d.table.lookup k <;> simp_all

/-- The row `r` that transaction `x` creates for `p`, where there was none or a tombstone. -/
structure Created (d : Database) (x : ℕ) (p : WriteParams) (r : Row) : Prop where
  running : x ∈ d.running
  stamp : r.txidStamp = x
  vacant : ∀ r0, d.table.lookup p.key = some r0 → r0.tombstone
  fresh : d.fresh r.uid
  version : r.objectVersion = 1
  metadata : p.metadata = some r.metadata

/-- The row `r` with which transaction `x` replaces the row `r0` that `p` matches. -/
structure Replaced (d : Database) (x : ℕ) (p : WriteParams) (r0 r : Row) : Prop where
  running : x ∈ d.running
  stamp : r.txidStamp = x
  row : d.table.lookup p.key = some r0
  matched : p.matches? r0
  uid : r.uid = r0.uid
  version : r.objectVersion = r0.objectVersion + 1
  metadata : p.metadata = some r.metadata ∨ r.metadata = r0.metadata

lemma exec_insertRow (h : exec (.insertRow x p) ch d = some (a, d')) :
    (d' = d ∧ ∀ u v, a ≠ .row u v) ∨ ∃ r, Created d x p r ∧
      (a = .row r.uid 1 ∧ r.deletionTimestamp = p.deletionTs) ∧ d' = d.commitRow x p.key r := by
  obtain ⟨⟨hx, hu⟩, h⟩ := Option.ite_none_right_eq_some.mp h
  rcases insert_cases (Option.some.inj h) with ⟨rfl, ha⟩ | ⟨r, hk, hr, ha, rfl⟩
  · exact .inl ⟨rfl, by rcases ha with rfl | rfl <;> simp⟩
  · simp only [WriteParams.inserted, Option.pure_def, Option.bind_eq_bind,
      Option.bind_eq_some_iff, Option.some.injEq] at hr
    obtain ⟨_, -, _, -, _, hm, rfl⟩ := hr
    exact .inr ⟨_, ⟨hx, rfl, by simp [hk], hu, rfl, hm⟩, ⟨ha, rfl⟩, rfl⟩

lemma exec_reviveRow (h : exec (.reviveRow x p) ch d = some (a, d')) :
    (d' = d ∧ ∀ u v, a ≠ .row u v) ∨ ∃ r, Created d x p r ∧
      (a = .row r.uid 1 ∧ r.deletionTimestamp = none) ∧ d' = d.commitRow x p.key r := by
  obtain ⟨⟨hx, hu⟩, h⟩ := Option.ite_none_right_eq_some.mp h
  rcases update_cases (Option.some.inj h) with ⟨rfl, ha⟩ | ⟨r0, r, hk, ht, hr, ha, rfl⟩
  · exact .inl ⟨rfl, by rcases ha with rfl | rfl <;> simp⟩
  · simp only [WriteParams.revived, Option.pure_def, Option.bind_eq_bind,
      Option.bind_eq_some_iff, Option.some.injEq] at hr
    obtain ⟨_, -, _, hm, rfl⟩ := hr
    exact .inr ⟨_, ⟨hx, rfl, by simp [hk, ht], hu, rfl, hm⟩, ⟨ha, rfl⟩, rfl⟩

lemma update_matched {set : Row → Option Row}
    (hx : x ∈ d.running) (h : d.update x p.key p.matches? set = (a, d'))
    (hset : ∀ {r0 r}, set r0 = some r → r.txidStamp = x ∧ r.uid = r0.uid ∧
      r.objectVersion = r0.objectVersion + 1 ∧
        (p.metadata = some r.metadata ∨ r.metadata = r0.metadata)) :
    (d' = d ∧ ∀ u v, a ≠ .row u v) ∨ ∃ r0 r, Replaced d x p r0 r ∧
      (a = .row r.uid r.objectVersion ∧ set r0 = some r) ∧ d' = d.commitRow x p.key r := by
  rcases update_cases h with ⟨rfl, ha⟩ | ⟨r0, r, hk, hp, hr, ha, rfl⟩
  · exact .inl ⟨rfl, by rcases ha with rfl | rfl <;> simp⟩
  · obtain ⟨hs, hu, hv, hm⟩ := hset hr
    exact .inr ⟨r0, r, ⟨hx, hs, hk, hp, hu, hv, hm⟩, ⟨ha, hr⟩, rfl⟩

lemma exec_updateStatus (h : exec (.updateStatus x p) ch d = some (a, d')) :
    (d' = d ∧ ∀ u v, a ≠ .row u v) ∨ ∃ r0 r, Replaced d x p r0 r ∧
      (a = .row r.uid r.objectVersion ∧ p.statusUpdated x ch.now r0 = some r) ∧
        d' = d.commitRow x p.key r := by
  obtain ⟨hx, h⟩ := Option.ite_none_right_eq_some.mp h
  refine update_matched hx (Option.some.inj h) fun hr => ?_
  obtain ⟨_, -, hr⟩ := Option.bind_eq_some_iff.mp hr
  cases hr
  exact ⟨rfl, rfl, rfl, .inr rfl⟩

lemma exec_updateObject (h : exec (.updateObject x p) ch d = some (a, d')) :
    (d' = d ∧ ∀ u v, a ≠ .row u v) ∨ ∃ r0 r, Replaced d x p r0 r ∧
      (a = .row r.uid r.objectVersion ∧ p.objectUpdated x ch.now r0 = some r) ∧
        d' = d.commitRow x p.key r := by
  obtain ⟨hx, h⟩ := Option.ite_none_right_eq_some.mp h
  refine update_matched hx (Option.some.inj h) fun hr => ?_
  simp only [WriteParams.objectUpdated, Option.pure_def, Option.bind_eq_bind,
    Option.bind_eq_some_iff, Option.some.injEq] at hr
  obtain ⟨_, -, _, hm, rfl⟩ := hr
  exact ⟨rfl, rfl, rfl, .inl hm⟩

section

variable {o : Op} {ch : Choice} {a : o.Res} (h : exec o ch d = some (a, d')) (x : ℕ)
  (p : WriteParams)
include h

lemma exec_create (ho : o = .insertRow x p ∨ o = .reviveRow x p) :
    d' = d ∨ ∃ r, Created d x p r ∧ (p.deletionTs = none → r.deletionTimestamp = none) ∧
      d' = d.commitRow x p.key r := by
  rcases ho with rfl | rfl
  · rcases exec_insertRow h with ⟨hd, -⟩ | ⟨r, hr, ⟨-, ht⟩, hd⟩
    · exact .inl hd
    · exact .inr ⟨r, hr, ht.trans, hd⟩
  · rcases exec_reviveRow h with ⟨hd, -⟩ | ⟨r, hr, ⟨-, ht⟩, hd⟩
    · exact .inl hd
    · exact .inr ⟨r, hr, fun _ => ht, hd⟩

lemma exec_replace (ho : o = .updateStatus x p ∨ o = .updateObject x p) :
    d' = d ∨ ∃ r0 r, Replaced d x p r0 r ∧ d' = d.commitRow x p.key r := by
  rcases ho with rfl | rfl
  · rcases exec_updateStatus h with ⟨hd, -⟩ | ⟨r0, r, hr, -, hd⟩
    · exact .inl hd
    · exact .inr ⟨r0, r, hr, hd⟩
  · rcases exec_updateObject h with ⟨hd, -⟩ | ⟨r0, r, hr, -, hd⟩
    · exact .inl hd
    · exact .inr ⟨r0, r, hr, hd⟩

end

inductive Effect (d : Database) : Database → Prop where
  | refl : Effect d d
  | begin : Effect d { d with nextXid := d.nextXid + 1, running := d.nextXid :: d.running }
  | finish (x : ℕ) : Effect d { d with running := d.running.erase x }
  | create (x : ℕ) (p : WriteParams) (r : Row) (h : Created d x p r) :
      Effect d (d.commitRow x p.key r)
  | replace (x : ℕ) (p : WriteParams) (r0 r : Row) (h : Replaced d x p r0 r) :
      Effect d (d.commitRow x p.key r)
  | compact (x : ℕ) (c : CompactConfig) (ch : Choice) :
      Effect d (d.commitCompact x (d.compacted c ch))

lemma exec_effect {o : Op} {a : o.Res} (h : exec o ch d = some (a, d')) : Effect d d' := by
  cases o with
  | currentXactId => cases h; exact .begin
  | selectRow k => cases h; exact .refl
  | insertRow x p | reviveRow x p =>
    rcases exec_create h x p (by simp) with rfl | ⟨r, hr, -, rfl⟩
    · exact .refl
    · exact .create x p r hr
  | updateStatus x p | updateObject x p =>
    rcases exec_replace h x p (by simp) with rfl | ⟨r0, r, hr, rfl⟩
    · exact .refl
    · exact .replace x p r0 r hr
  | endTx x =>
    obtain ⟨-, h⟩ := Option.ite_none_right_eq_some.mp h
    cases h
    exact .finish x
  | compact x c =>
    obtain ⟨-, h⟩ := Option.ite_none_right_eq_some.mp h
    cases h
    exact .compact x c ch

end Database

end Seaplane.Db
