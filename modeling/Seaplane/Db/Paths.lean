import Seaplane.Db.Tombstone

/-!
The two write paths: one call of the stored procedure, and the statements of the multi-statement
path one after another.

What a write does to the row of its key is stated once, with the content check that may suppress
it as a parameter. Each path refines this meaning with a check of its own: the procedure compares
JSONB values and timestamps in microseconds and leaves out a status that was not given, Go compares
values read as doubles and timestamps in nanoseconds, and never finds an absent status equal. So
the paths agree on a request exactly when their checks agree on the row it names. A document that
the store does not accept ends the procedure's call at once, the other path only at its upsert.
-/

namespace Seaplane.Db

open Lib Database

/-! ### Requests -/

structure Target where
  key : Key
  expectedVersion : ℤ
  expectedUid : Option Uid
  forceWrite : Bool

/-- The requests of the writer; timestamps are Go's, in nanoseconds. -/
inductive WriteRequest where
  | write (t : Target) (spec status metadata : Option Json) (deletionTimestamp : Option ℤ)
  | writeStatus (t : Target) (status : Option Json)
  | writeObject (t : Target) (spec metadata : Option Json) (deletionTimestamp : Option ℤ)

namespace WriteRequest

/-- The arguments of the procedure; a timestamp is cut to microseconds. -/
def params : WriteRequest → WriteParams
  | .write t spec status metadata ts =>
    { statusOnly := false, key := t.key, expectedVersion := t.expectedVersion
      expectedUid := t.expectedUid, forceWrite := t.forceWrite, spec, status, metadata
      deletionTs := ts.map (· / 1000) }
  | .writeStatus t status =>
    { statusOnly := true, key := t.key, expectedVersion := t.expectedVersion
      expectedUid := t.expectedUid, forceWrite := t.forceWrite, spec := none, status
      metadata := none, deletionTs := none }
  | .writeObject t spec metadata ts =>
    { statusOnly := false, key := t.key, expectedVersion := t.expectedVersion
      expectedUid := t.expectedUid, forceWrite := t.forceWrite, spec, status := none, metadata
      deletionTs := ts.map (· / 1000) }

/-- A write of a part of the object needs a version, whichever path it takes. -/
def refused : WriteRequest → Option WriteError
  | .write .. => none
  | .writeStatus t _ => if t.expectedVersion = 0 then
      some (.other "WriteStatus requires ExpectedVersion > 0: object must exist") else none
  | .writeObject t .. => if t.expectedVersion = 0 then
      some (.other "WriteObject requires ExpectedVersion > 0: object must exist") else none

end WriteRequest

/-! ### The stored procedure -/

section Programs

-- The documents that JSONB's input function accepts.
variable (storable : Json → Bool)

/-- The documents among the arguments are all accepted. -/
def WriteParams.encodes (p : WriteParams) : Bool :=
  p.spec.all storable && p.status.all storable && p.metadata.all storable

def WriteRequest.storedProc (q : WriteRequest) : DbProg (Except WriteError WriteResult) :=
  match q.refused with
  | some e => return .error e
  | none =>
    if q.params.encodes storable then callStoredProc q.params
    else return .error (.other "stored proc: invalid input for type json")

/-! ### The statements one by one -/

/-- `JSONEqual` of a stored document and one of the request; an absent one is never equal. -/
def jsonEqual (stored : Json) (given : Option Json) : Bool := given.any fun j => stored.goEqual j

/-- `timeEqual` of a stored timestamp and one of the request. -/
def timeEqual : Option Time → Option ℤ → Bool
  | none, none => true
  | some t, some ns => t * 1000 == ns
  | _, _ => false

/-- The content checkers of the three requests. -/
def WriteRequest.isContentEqual (q : WriteRequest) (r : Row) : Bool :=
  match q with
  | .write _ spec status metadata ts => jsonEqual r.spec spec && jsonEqual r.status status &&
      jsonEqual r.metadata metadata && timeEqual r.deletionTimestamp ts
  | .writeStatus _ status => jsonEqual r.status status
  | .writeObject _ spec metadata ts =>
      jsonEqual r.spec spec && jsonEqual r.metadata metadata && timeEqual r.deletionTimestamp ts

/-- What follows a statement that was to change the row: its result, or the error of the step. -/
def scanned (missing : WriteError) (step : String) : Dml → Except WriteError (Uid × ℤ)
  | .row uid version => .ok (uid, version)
  | .noRow => .error missing
  | .uniqueViolation => .error (.other (step ++ ": duplicate key value"))
  | .notNullViolation => .error (.other (step ++ ": null value in column"))

def WriteRequest.upsert (q : WriteRequest) (x : ℕ) : DbProg (Except WriteError (Uid × ℤ)) :=
  match q with
  | .write t .. =>
    if t.expectedVersion = 0 then do
      let a : Dml ← perform (.insertRow x q.params)
      match a with
      | .uniqueViolation => do
        return scanned .alreadyExists "tombstone revival" (← perform (.reviveRow x q.params))
      | a => return scanned .alreadyExists "create resource" a
    else do return scanned .conflict "update resource" (← perform (.updateObject x q.params))
  | .writeStatus .. => do
    return scanned .conflict "update status" (← perform (.updateStatus x q.params))
  | .writeObject .. => do
    return scanned .conflict "update spec" (← perform (.updateObject x q.params))

/-- The transaction once the suppression check is over: its identifier, the upsert and the commit,
or the rollback. -/
def WriteRequest.commit (q : WriteRequest) : DbProg (Except WriteError WriteResult) := do
  let x ← perform .currentXactId
  if q.params.encodes storable then
    match ← q.upsert x with
    | .error e => do
      perform (.endTx x)
      return .error e
    | .ok (uid, version) => return .ok ⟨x, version, uid, true⟩
  else do
    perform (.endTx x)
    return .error (.other "upsert: invalid input for type json")

/-- The suppression check of the multi-statement path, on the row it read. -/
def WriteRequest.checkExisting (q : WriteRequest) :
    Option Row → DbProg (Except WriteError WriteResult)
  | none => q.commit storable
  | some r =>
    if r.objectVersion != q.params.expectedVersion || q.params.expectedUid.any (r.uid != ·) then
      return .error .conflict
    else if q.isContentEqual r then return .ok ⟨0, r.objectVersion, r.uid, false⟩
    else q.commit storable

/-- `execWriteInner`, with hooks that do nothing. -/
def WriteRequest.multiStatement (q : WriteRequest) : DbProg (Except WriteError WriteResult) :=
  match q.refused with
  | some e => return .error e
  | none =>
    if !q.params.forceWrite ∧ 0 < q.params.expectedVersion then do
      q.checkExisting storable (← perform (.selectRow q.params.key))
    else q.commit storable

end Programs

/-! ### The meaning of a write -/

/-- The content of a row: all but its stamps. A UUID of its own is none. -/
structure Content where
  uid : Option Uid
  version : ℤ
  spec : Json
  status : Json
  metadata : Json
  deletionTimestamp : Option Time

/-- The row has the content; its UUID was not there before if it is one of its own. -/
structure Content.Of (c : Content) (d : Database) (r : Row) : Prop where
  version : r.objectVersion = c.version
  spec : r.spec = c.spec
  status : r.status = c.status
  metadata : r.metadata = c.metadata
  mark : r.deletionTimestamp = c.deletionTimestamp
  uid : c.uid = some r.uid ∨ c.uid = none ∧ d.fresh r.uid

inductive PathOutcome where
  | conflict
  | alreadyExists
  | suppressed (version : ℤ)
  | changed (version : ℤ)
  | failed
  deriving DecidableEq

def pathOutcome : Except WriteError WriteResult → PathOutcome
  | .ok r => if r.changed then .changed r.objectVersion else .suppressed r.objectVersion
  | .error .conflict => .conflict
  | .error .alreadyExists => .alreadyExists
  | .error (.ambiguousCommit _ _) | .error (.other _) => .failed

/-- The content an upsert leaves, or its error. -/
def WriteParams.effect (p : WriteParams) (stored : Option Row) : Except SqlState Content :=
  if p.statusOnly then
    if p.expectedVersion = 0 then .error .P0004
    else
      match stored.filter p.matches?, p.status with
      | none, _ => .error .P0002
      | some _, none => .error .notNullViolation
      | some r, some status => .ok
          ⟨some r.uid, r.objectVersion + 1, r.spec, status, r.metadata, r.deletionTimestamp⟩
  else if p.expectedVersion = 0 then
    match p.spec, p.status, p.metadata, stored with
    | some spec, some status, some metadata, none =>
      .ok ⟨none, 1, spec, status, metadata, p.deletionTs⟩
    | some spec, some status, some metadata, some r =>
      if r.tombstone then .ok ⟨none, 1, spec, status, metadata, none⟩ else .error .P0003
    | _, _, _, _ => .error .notNullViolation
  else
    match stored.filter p.matches?, p.spec, p.metadata with
    | none, _, _ => .error .P0002
    | some r, some spec, some metadata => .ok ⟨some r.uid, r.objectVersion + 1, spec,
        p.status.getD r.status, metadata, p.deletionTs⟩
    | some _, _, _ => .error .notNullViolation

/-- What a write reports and the content it leaves, if it leaves another. -/
abbrev Meaning := PathOutcome × Option Content

def meaningOf : Except SqlState Content → Meaning
  | .ok c => (.changed c.version, some c)
  | .error .P0002 => (.conflict, none)
  | .error .P0003 => (.alreadyExists, none)
  | .error .P0004 | .error .notNullViolation => (.failed, none)

/-- The write looks at the row before it writes. -/
abbrev WriteParams.Looks (p : WriteParams) : Prop := !p.forceWrite ∧ 0 < p.expectedVersion

/-- The meaning of a write whose content check is `check`; `upserted` is that of its upsert. -/
def WriteParams.meaning (p : WriteParams) (check : Row → Bool) (upserted : Meaning)
    (stored : Option Row) : Meaning :=
  if p.Looks then
    match stored with
    | none => upserted
    | some r =>
      if !p.matches? r then (.conflict, none)
      else if check r then (.suppressed r.objectVersion, none)
      else upserted
  else upserted

/-- Run alone, the program reports and leaves what it should under the key. -/
def Refines (k : Key) (d : Database) (ch : Choice)
    (m : DbProg (Except WriteError WriteResult)) (w : Meaning) : Prop :=
  ∃ a d', m.eval exec ch d = some (a, d') ∧ pathOutcome a = w.1 ∧
    match w.2 with
    | none => d'.table = d.table
    | some c => ∃ r, d'.table = d.table.insert k r ∧ c.Of d r

variable {m : DbProg (Except WriteError WriteResult)}

section Refinement

variable {p : WriteParams} {d : Database} {ch : Choice} {x : ℕ}

def Upserts (p : WriteParams) (x : ℕ) (d : Database) (ch : Choice) : Prop :=
  ∃ a d', (upsert x p).eval exec ch d = some (a, d') ∧
    match p.effect (d.table.lookup p.key) with
    | .error e => a = .error e ∧ d'.table = d.table
    | .ok c => ∃ r, a = .ok ⟨r.uid, c.version, x, true⟩ ∧ d'.table = d.table.insert p.key r ∧
        c.Of d r

lemma upserts_raise {e : SqlState} (hx : x ∈ d.running)
    (he : p.effect (d.table.lookup p.key) = .error e)
    (h : (upsert x p).eval exec ch d = (raiseException x e).eval exec ch d) : Upserts p x d ch := by
  obtain ⟨d', hd', ht⟩ := eval_raiseException ch e hx
  refine ⟨_, d', h.trans hd', ?_⟩
  rw [he]
  exact ⟨rfl, ht⟩

lemma upserts_row {c : Content} {r : Row} (he : p.effect (d.table.lookup p.key) = .ok c)
    (hr : c.Of d r) (h : (upsert x p).eval exec ch d =
      some (.ok ⟨r.uid, r.objectVersion, x, true⟩, d.commitRow x p.key r)) : Upserts p x d ch := by
  refine ⟨_, _, h, ?_⟩
  rw [he]
  exact ⟨r, by rw [hr.version], rfl, hr⟩

/-- The content of a row that keeps its UUID. -/
def Row.content (r : Row) : Content :=
  ⟨some r.uid, r.objectVersion, r.spec, r.status, r.metadata, r.deletionTimestamp⟩

lemma Row.content_of (r : Row) : r.content.Of d r := ⟨rfl, rfl, rfl, rfl, rfl, .inl rfl⟩

lemma upserts_update {f : Row → Option Row} (hx : x ∈ d.running)
    (h : ∀ a d', d.update x p.key p.matches? f = (a, d') → (upsert x p).eval exec ch d =
      (returning x .P0002 a).eval exec ch d')
    (heff : p.effect (d.table.lookup p.key) =
      match (d.table.lookup p.key).filter p.matches? with
      | none => .error .P0002
      | some r =>
        match f r with
        | none => .error .notNullViolation
        | some r' => .ok r'.content) : Upserts p x d ch := by
  cases hf : (d.table.lookup p.key).filter p.matches? with
  | none =>
    simp only [hf] at heff
    have hupd : d.update x p.key p.matches? f = (.noRow, d) := by rw [Database.update, hf]
    exact upserts_raise hx heff (h _ _ hupd)
  | some r =>
    cases hset : f r with
    | none =>
      simp only [hf, hset] at heff
      have hupd : d.update x p.key p.matches? f = (.notNullViolation, d) := by
        simp only [Database.update, hf, hset]
      exact upserts_raise hx heff (h _ _ hupd)
    | some r' =>
      simp only [hf, hset] at heff
      have hupd : d.update x p.key p.matches? f =
          (.row r'.uid r'.objectVersion, d.commitRow x p.key r') := by
        simp only [Database.update, hf, hset]
      exact upserts_row heff r'.content_of (h _ _ hupd)

lemma upserts_status (hx : x ∈ d.running) (hs : p.statusOnly = true) : Upserts p x d ch := by
  by_cases hv : p.expectedVersion = 0
  · have heff : p.effect (d.table.lookup p.key) = .error .P0004 := by
      simp only [WriteParams.effect, hs, hv, if_true]
    refine upserts_raise hx heff ?_
    simp only [upsert, hs, hv, if_true]
  refine upserts_update (f := p.statusUpdated x ch.now) hx (fun a d' hupd => ?_) ?_
  · have hexec : exec (.updateStatus x p) ch d = some (a, d') := by
      rw [exec, if_pos hx, hupd]
    simp only [upsert, hs, hv, if_true, if_false, Prog.bind_eq, Prog.call_bind]
    exact Prog.eval_op hexec
  · simp only [WriteParams.effect, hs, hv, if_true, if_false]
    cases (d.table.lookup p.key).filter p.matches? with
    | none => rfl
    | some r => cases hst : p.status <;> simp [WriteParams.statusUpdated, hst, Row.content]

lemma upserts_object (hx : x ∈ d.running) (hs : p.statusOnly = false)
    (hv : p.expectedVersion ≠ 0) : Upserts p x d ch := by
  refine upserts_update (f := p.objectUpdated x ch.now) hx (fun a d' hupd => ?_) ?_
  · have hexec : exec (.updateObject x p) ch d = some (a, d') := by
      rw [exec, if_pos hx, hupd]
    simp only [upsert, hs, hv, Bool.false_eq_true, if_false, Prog.bind_eq, Prog.call_bind]
    exact Prog.eval_op hexec
  · simp only [WriteParams.effect, hs, hv, Bool.false_eq_true, if_false]
    cases (d.table.lookup p.key).filter p.matches? with
    | none => rfl
    | some r =>
      cases hspec : p.spec <;> cases hmeta : p.metadata <;>
        simp [WriteParams.objectUpdated, hspec, hmeta, Row.content]

lemma upserts_create (hx : x ∈ d.running) (hf : d.fresh ch.uuid) (hs : p.statusOnly = false)
    (hv : p.expectedVersion = 0) : Upserts p x d ch := by
  have hins : ∀ a d', d.insert x p.key (p.inserted x ch.now ch.uuid) = (a, d') →
      exec (.insertRow x p) ch d = some (a, d') := fun a d' h => by
    rw [exec, if_pos ⟨hx, hf⟩, h]
  have hprog : upsert x p = .op (.insertRow x p) fun a : Dml =>
      match a with
      | .uniqueViolation => .op (.reviveRow x p) (returning x .P0003)
      | a => returning x .P0003 a := by
    simp only [upsert, hs, hv, Bool.false_eq_true, if_false, if_true]
    rfl
  have heff : p.effect (d.table.lookup p.key) =
      match p.spec, p.status, p.metadata, d.table.lookup p.key with
      | some spec, some status, some metadata, none =>
        .ok ⟨none, 1, spec, status, metadata, p.deletionTs⟩
      | some spec, some status, some metadata, some r =>
        if r.tombstone then .ok ⟨none, 1, spec, status, metadata, none⟩ else .error .P0003
      | _, _, _, _ => .error .notNullViolation := by
    simp only [WriteParams.effect, hs, hv, Bool.false_eq_true, if_false, if_true]
  have hnull : p.inserted x ch.now ch.uuid = none →
      p.effect (d.table.lookup p.key) = .error .notNullViolation → Upserts p x d ch := by
    intro hset heff
    refine upserts_raise hx heff ?_
    rw [hprog, Prog.eval_op (hins .notNullViolation d (by rw [hset, Database.insert]))]
    rfl
  cases hspec : p.spec with
  | none => exact hnull (by simp [WriteParams.inserted, hspec]) (by rw [heff]; simp only [hspec])
  | some spec =>
  cases hst : p.status with
  | none =>
    exact hnull (by simp [WriteParams.inserted, hst]) (by rw [heff]; simp only [hspec, hst])
  | some status =>
  cases hmeta : p.metadata with
  | none =>
    exact hnull (by simp [WriteParams.inserted, hmeta])
      (by rw [heff]; simp only [hspec, hst, hmeta])
  | some metadata =>
  simp only [hspec, hst, hmeta] at heff
  have hset : p.inserted x ch.now ch.uuid = some ⟨ch.uuid, x, 1, spec, status, metadata,
      p.deletionTs, ch.now, ch.now⟩ := by
    simp [WriteParams.inserted, hspec, hst, hmeta]
  cases hk : d.table.lookup p.key with
  | none =>
    simp only [hk] at heff
    have hans : d.insert x p.key (p.inserted x ch.now ch.uuid) = (.row ch.uuid 1,
        d.commitRow x p.key ⟨ch.uuid, x, 1, spec, status, metadata, p.deletionTs, ch.now,
          ch.now⟩) := by
      simp only [hset, Database.insert, hk]
    refine upserts_row (r := ⟨ch.uuid, x, 1, spec, status, metadata, p.deletionTs, ch.now, ch.now⟩)
      (hk ▸ heff) ⟨rfl, rfl, rfl, rfl, rfl, .inr ⟨rfl, hf⟩⟩ ?_
    rw [hprog, Prog.eval_op (hins _ _ hans)]
    rfl
  | some r =>
    simp only [hk] at heff
    have hans : d.insert x p.key (p.inserted x ch.now ch.uuid) = (.uniqueViolation, d) := by
      simp only [hset, Database.insert, hk]
    have hstep : (upsert x p).eval exec ch d =
        (Prog.op (.reviveRow x p) (returning x .P0003)).eval exec ch d := by
      rw [hprog, Prog.eval_op (hins _ _ hans)]
    cases ht : r.tombstone with
    | false =>
      rw [ht] at heff
      have hrev : exec (.reviveRow x p) ch d = some (.noRow, d) := by
        rw [exec, if_pos ⟨hx, hf⟩, update_miss hk ht]
      exact upserts_raise hx (hk ▸ heff) (hstep.trans (Prog.eval_op hrev))
    | true =>
      rw [ht] at heff
      have hset' : p.revived x ch.now ch.uuid = some ⟨ch.uuid, x, 1, spec, status, metadata, none,
          ch.now, ch.now⟩ := by
        simp [WriteParams.revived, hspec, hst, hmeta]
      have hrev : exec (.reviveRow x p) ch d = some (.row ch.uuid 1, d.commitRow x p.key
          ⟨ch.uuid, x, 1, spec, status, metadata, none, ch.now, ch.now⟩) := by
        rw [exec, if_pos ⟨hx, hf⟩, Database.update, hk, Option.filter_some_pos ht]
        simp only [hset']
      refine upserts_row (r := ⟨ch.uuid, x, 1, spec, status, metadata, none, ch.now, ch.now⟩)
        (hk ▸ heff) ⟨rfl, rfl, rfl, rfl, rfl, .inr ⟨rfl, hf⟩⟩ ?_
      rw [hstep, Prog.eval_op hrev]
      rfl

/-- **The upsert of the procedure**, run alone, leaves the content that it should. -/
theorem upserts (hx : x ∈ d.running) (hf : d.fresh ch.uuid) : Upserts p x d ch := by
  cases hs : p.statusOnly with
  | true => exact upserts_status hx hs
  | false =>
    by_cases hv : p.expectedVersion = 0
    · exact upserts_create hx hf hs hv
    · exact upserts_object hx hs hv

/-- What the writer makes of the procedure's answer. -/
def storedResult : Except SqlState WriteRow → Except WriteError WriteResult
  | .error e => .error (mapStoredProcError e)
  | .ok r => .ok ⟨if r.changed then r.txid else 0, r.version, r.uid, r.changed⟩

lemma callStoredProc_eq :
    callStoredProc p = (pgctlWrite p).bind fun a => .ret (storedResult a) := by
  unfold callStoredProc
  simp only [Prog.bind_eq]
  congr 1
  funext a
  rcases a with (_ | _ | _ | _) | ⟨u, v, x, _ | _⟩ <;> rfl

/-- The database once the transaction has its identifier. -/
def Database.begun (d : Database) : Database :=
  { d with nextXid := d.nextXid + 1, running := d.nextXid :: d.running }

lemma refines_upsert (hf : d.fresh ch.uuid)
    (hm : ∀ {a d'}, (upsert d.nextXid p).eval exec ch d.begun = some (a, d') →
      ∃ b, m.eval exec ch d = some (b, d') ∧ pathOutcome b = pathOutcome (storedResult a)) :
    Refines p.key d ch m (meaningOf (p.effect (d.table.lookup p.key))) := by
  have hx : d.nextXid ∈ d.begun.running := List.mem_cons_self
  obtain ⟨a, d', heval, hspec⟩ := upserts (p := p) (d := d.begun) hx hf
  obtain ⟨b, hb, hout⟩ := hm heval
  refine ⟨b, d', hb, ?_⟩
  have htable : d.begun.table = d.table := rfl
  rw [hout]
  rw [htable] at hspec
  cases he : p.effect (d.table.lookup p.key) with
  | error e =>
    rw [he] at hspec
    obtain ⟨rfl, ht⟩ := hspec
    cases e <;> exact ⟨rfl, ht⟩
  | ok c =>
    rw [he] at hspec
    obtain ⟨r, rfl, ht, hc⟩ := hspec
    exact ⟨rfl, r, ht, hc.version, hc.spec, hc.status, hc.metadata, hc.mark, hc.uid⟩

lemma refines_stay {k : Key} {o : PathOutcome} {a : Except WriteError WriteResult} {d' : Database}
    (h : m.eval exec ch d = some (a, d')) (ho : pathOutcome a = o) (ht : d'.table = d.table) :
    Refines k d ch m (o, none) :=
  ⟨a, d', h, ho, ht⟩

lemma refines_callStoredProc (hf : d.fresh ch.uuid) :
    Refines p.key d ch (callStoredProc p) (p.meaning p.suppressed
      (meaningOf (p.effect (d.table.lookup p.key))) (d.table.lookup p.key)) := by
  have hx : d.nextXid ∈ d.nextXid :: d.running := List.mem_cons_self
  have hupsert : ∀ {m : DbProg (Except SqlState WriteRow)},
      (pgctlWrite p).eval exec ch d = m.eval exec ch d.begun →
      m = upsert d.nextXid p → Refines p.key d ch (callStoredProc p)
        (meaningOf (p.effect (d.table.lookup p.key))) := by
    rintro m hm rfl
    refine refines_upsert hf fun {a d'} ha => ⟨storedResult a, ?_, rfl⟩
    rw [callStoredProc_eq, Prog.eval_bind (hm.trans ha)]
    rfl
  have hproc := eval_pgctlWrite (p := p) (d := d) ch
  unfold WriteParams.meaning
  by_cases hlooks : p.Looks
  · rw [if_pos hlooks] at hproc
    rw [if_pos hlooks]
    cases hk : d.table.lookup p.key with
    | none =>
      rw [hk] at hproc hupsert
      exact hupsert hproc rfl
    | some r =>
      cases hm : p.matches? r with
      | false =>
        have hv : p.expectedVersion ≠ 0 := by
          have := hlooks.2
          omega
        obtain ⟨d', hd', ht⟩ := eval_pgctlWrite_miss ch hv hk hm
        simp only [hm, Bool.not_false, if_true]
        refine refines_stay (a := .error .conflict) ?_ rfl ht
        rw [callStoredProc_eq, Prog.eval_bind hd']
        rfl
      | true =>
        rw [hk] at hproc hupsert
        simp only [hm, Bool.not_true, Bool.false_eq_true, if_false]
        cases hsup : p.suppressed r with
        | true =>
          have hend : (pgctlWrite p).eval exec ch d = some
              (.ok ⟨r.uid, r.objectVersion, 0, false⟩,
                { d.begun with running := d.begun.running.erase d.nextXid }) := by
            rw [hproc]
            simp only [suppressOr, hm, hsup, Bool.not_true, Bool.false_eq_true, if_false, if_true]
            exact Prog.eval_op (if_pos hx)
          have hcall := Prog.eval_bind (f := fun a => .ret (storedResult a)) hend
          rw [← callStoredProc_eq] at hcall
          exact refines_stay hcall rfl rfl
        | false =>
          simp only [Bool.false_eq_true, if_false]
          refine hupsert hproc ?_
          simp only [suppressOr, hm, hsup, Bool.not_true, Bool.false_eq_true, if_false]
  · rw [if_neg hlooks] at hproc
    rw [if_neg hlooks]
    exact hupsert hproc rfl

/-! ### The statements one by one -/

variable {storable : Json → Bool} {q : WriteRequest}

lemma commit_eq (he : q.params.encodes storable = true) (hr : q.refused = none) :
    ((q.commit storable).bind fun b => .ret (pathOutcome b)) =
      .op .currentXactId fun x => (upsert x q.params).bind fun a =>
        .ret (pathOutcome (storedResult a)) := by
  unfold WriteRequest.commit
  simp only [Prog.bind_eq, Prog.call_bind, Prog.op_bind, he, if_true]
  congr 1
  funext x
  cases q with
  | write t spec status metadata ts =>
    by_cases hv : t.expectedVersion = 0
    · simp only [WriteRequest.upsert, upsert, WriteRequest.params, hv, if_true, Bool.false_eq_true,
        if_false, Prog.bind_eq, Prog.call_bind, Prog.op_bind]
      congr 1
      funext a
      cases a with
      | uniqueViolation =>
        simp only [Prog.op_bind]
        congr 1
        funext b
        cases b <;> rfl
      | _ => rfl
    · simp only [WriteRequest.upsert, upsert, WriteRequest.params, hv, Bool.false_eq_true, if_false,
        Prog.bind_eq, Prog.call_bind, Prog.op_bind]
      congr 1
      funext a
      cases a <;> rfl
  | writeStatus t status =>
    have hv : t.expectedVersion ≠ 0 := by
      intro h0
      simp [WriteRequest.refused, h0] at hr
    simp only [WriteRequest.upsert, upsert, WriteRequest.params, hv, if_true, if_false,
      Prog.bind_eq, Prog.call_bind, Prog.op_bind]
    congr 1
    funext a
    cases a <;> rfl
  | writeObject t spec metadata ts =>
    have hv : t.expectedVersion ≠ 0 := by
      intro h0
      simp [WriteRequest.refused, h0] at hr
    simp only [WriteRequest.upsert, upsert, WriteRequest.params, hv, Bool.false_eq_true, if_false,
      Prog.bind_eq, Prog.call_bind, Prog.op_bind]
    congr 1
    funext a
    cases a <;> rfl

/-- The end of a transaction whose documents the store does not accept. -/
def unencoded : Meaning := (.failed, none)

lemma refines_commit (hf : d.fresh ch.uuid) (hr : q.refused = none) :
    Refines q.params.key d ch (q.commit storable)
      (if q.params.encodes storable then meaningOf (q.params.effect (d.table.lookup q.params.key))
        else unencoded) := by
  have hxid : exec .currentXactId ch d = some (d.nextXid, d.begun) := rfl
  cases he : q.params.encodes storable with
  | true =>
    refine refines_upsert hf fun {a d'} ha => Prog.eval_bind_ret ?_
    rw [commit_eq he hr, Prog.eval_op hxid, Prog.eval_bind ha]
    rfl
  | false =>
    have hx : d.nextXid ∈ d.begun.running := List.mem_cons_self
    have hend : exec (.endTx d.nextXid) ch d.begun =
        some ((), { d.begun with running := d.begun.running.erase d.nextXid }) := if_pos hx
    have heval : (q.commit storable).eval exec ch d = some
        (.error (.other "upsert: invalid input for type json"),
          { d.begun with running := d.begun.running.erase d.nextXid }) := by
      unfold WriteRequest.commit
      simp only [Prog.bind_eq, Prog.call_bind, he, Bool.false_eq_true, if_false]
      rw [Prog.eval_op hxid, Prog.eval_op hend]
      rfl
    exact refines_stay heval rfl rfl

lemma refines_multiStatement (hf : d.fresh ch.uuid) (hr : q.refused = none) :
    Refines q.params.key d ch (q.multiStatement storable) (q.params.meaning q.isContentEqual
      (if q.params.encodes storable then meaningOf (q.params.effect (d.table.lookup q.params.key))
        else unencoded) (d.table.lookup q.params.key)) := by
  have hcommit : Refines q.params.key d ch (q.commit storable) _ := refines_commit hf hr
  unfold WriteRequest.multiStatement WriteParams.meaning
  simp only [hr]
  by_cases hlooks : q.params.Looks
  · rw [if_pos hlooks, if_pos hlooks]
    have hsel : exec (.selectRow q.params.key) ch d =
        some (d.table.lookup q.params.key, d) := rfl
    -- the rest of the program is run where the read has left the database
    have hstep : ∀ {w : Meaning}, Refines q.params.key d ch
        (q.checkExisting storable (d.table.lookup q.params.key)) w →
        Refines q.params.key d ch (do
          q.checkExisting storable (← perform (.selectRow q.params.key))) w := by
      rintro w ⟨a, d', ha, hrest⟩
      exact ⟨a, d', (Prog.eval_op hsel).trans ha, hrest⟩
    refine hstep ?_
    cases hk : d.table.lookup q.params.key with
    | none =>
      rw [hk] at hcommit
      exact hcommit
    | some r =>
      rw [hk] at hcommit
      have hmatch : (r.objectVersion != q.params.expectedVersion ||
          q.params.expectedUid.any (r.uid != ·)) = !q.params.matches? r := by
        unfold WriteParams.matches?
        cases q.params.expectedUid <;> simp [bne, Bool.not_and]
      simp only [WriteRequest.checkExisting, hmatch]
      cases q.params.matches? r with
      | false => exact refines_stay rfl rfl rfl
      | true =>
        cases hc : q.isContentEqual r with
        | true => exact refines_stay rfl rfl rfl
        | false => exact hcommit
  · rw [if_neg hlooks, if_neg hlooks]
    exact hcommit

lemma refines_storedProc (hf : d.fresh ch.uuid) (hr : q.refused = none) :
    Refines q.params.key d ch (q.storedProc storable)
      (if q.params.encodes storable then q.params.meaning q.params.suppressed
        (meaningOf (q.params.effect (d.table.lookup q.params.key))) (d.table.lookup q.params.key)
        else unencoded) := by
  unfold WriteRequest.storedProc
  simp only [hr]
  cases q.params.encodes storable with
  | true => exact refines_callStoredProc hf
  | false => exact refines_stay rfl rfl rfl

end Refinement

/-! ### The paths agree -/

/-- The same content, up to stamps and to UUIDs that were not there before. -/
structure Row.Alike (d : Database) (r r' : Row) : Prop where
  version : r.objectVersion = r'.objectVersion
  spec : r.spec = r'.spec
  status : r.status = r'.status
  metadata : r.metadata = r'.metadata
  mark : r.deletionTimestamp = r'.deletionTimestamp
  uid : r.uid = r'.uid ∨ d.fresh r.uid ∧ d.fresh r'.uid

/-- Both paths, each run alone on `d` with choices of its own, report the same and leave the same
rows. -/
def PathsAgree (storable : Json → Bool) (q : WriteRequest) (d : Database)
    (ch ch' : Choice) : Prop :=
  ∃ a d1 a' d2, (q.storedProc storable).eval exec ch d = some (a, d1) ∧
    (q.multiStatement storable).eval exec ch' d = some (a', d2) ∧
    pathOutcome a = pathOutcome a' ∧
    ∀ k, Option.Rel (Row.Alike d) (d1.table.lookup k) (d2.table.lookup k)

/-- When they do: on the row that the request names, Go's comparison says what that of JSONB values
says; and where the store does not accept some document, the row is the one that is expected and
Go finds it different. -/
def ChecksAgree (storable : Json → Bool) (q : WriteRequest) (d : Database) : Prop :=
  q.refused = none → q.params.Looks → ∀ r, d.table.lookup q.params.key = some r →
    if q.params.encodes storable then
      q.params.matches? r → q.isContentEqual r = q.params.suppressed r
    else q.params.matches? r ∧ q.isContentEqual r = false

section Agreement

variable {storable : Json → Bool} {q : WriteRequest} {d : Database} {ch ch' : Choice}

lemma Row.Alike.refl (r : Row) : r.Alike d r := ⟨rfl, rfl, rfl, rfl, rfl, .inl rfl⟩

lemma Content.Of.alike {c : Content} {r r' : Row} (h : c.Of d r) (h' : c.Of d r') :
    r.Alike d r' := by
  refine ⟨h.version.trans h'.version.symm, h.spec.trans h'.spec.symm,
    h.status.trans h'.status.symm, h.metadata.trans h'.metadata.symm, h.mark.trans h'.mark.symm, ?_⟩
  rcases h.uid with hu | ⟨hu, hf⟩ <;> rcases h'.uid with hu' | ⟨hu', hf'⟩
  · exact .inl (Option.some.inj (hu.symm.trans hu'))
  · cases hu.symm.trans hu'
  · cases hu.symm.trans hu'
  · exact .inr ⟨hf, hf'⟩

lemma rel_refl (o : Option Row) : Option.Rel (Row.Alike d) o o := by
  cases o with
  | none => exact .none
  | some r => exact .some (.refl r)

lemma Refines.alike {k : Key} {m' : DbProg (Except WriteError WriteResult)} {w : Meaning}
    (h : Refines k d ch m w) (h' : Refines k d ch' m' w) :
    ∃ a d1 a' d2, m.eval exec ch d = some (a, d1) ∧
      m'.eval exec ch' d = some (a', d2) ∧ pathOutcome a = pathOutcome a' ∧
      ∀ k, Option.Rel (Row.Alike d) (d1.table.lookup k) (d2.table.lookup k) := by
  obtain ⟨a, d1, ha, ho, ht⟩ := h
  obtain ⟨a', d2, ha', ho', ht'⟩ := h'
  refine ⟨a, d1, a', d2, ha, ha', ho.trans ho'.symm, fun k' => ?_⟩
  obtain ⟨o, c⟩ := w
  cases c with
  | none =>
    rw [show d1.table = d.table from ht, show d2.table = d.table from ht']
    exact rel_refl _
  | some c =>
    obtain ⟨r, ht, hr⟩ := ht
    obtain ⟨r', ht', hr'⟩ := ht'
    rw [ht, ht']
    by_cases hk : k' = k
    · subst hk
      rw [AList.lookup_insert, AList.lookup_insert]
      exact .some (hr.alike hr')
    · rw [AList.lookup_insert_ne hk, AList.lookup_insert_ne hk]
      exact rel_refl _

lemma meaningOf_ne_suppressed (e : Except SqlState Content) (v : ℤ) :
    (meaningOf e).1 ≠ .suppressed v := by
  rcases e with (_ | _ | _ | _) | c <;> simp [meaningOf]

lemma meanings_eq {u : Meaning} (hr : q.refused = none) (h : ChecksAgree storable q d) :
    (if q.params.encodes storable then
      q.params.meaning q.params.suppressed u (d.table.lookup q.params.key) else unencoded) =
    q.params.meaning q.isContentEqual (if q.params.encodes storable then u else unencoded)
      (d.table.lookup q.params.key) := by
  unfold WriteParams.meaning
  by_cases hlooks : q.params.Looks
  · simp only [if_pos hlooks]
    cases hk : d.table.lookup q.params.key with
    | none => rfl
    | some r =>
      have hchecks := h hr hlooks r hk
      cases he : q.params.encodes storable with
      | true =>
        simp only [he, if_true] at hchecks ⊢
        cases hm : q.params.matches? r with
        | false => rfl
        | true => rw [hchecks hm]
      | false =>
        simp only [he, Bool.false_eq_true, if_false] at hchecks ⊢
        simp only [hchecks.1, hchecks.2, Bool.not_true, Bool.false_eq_true, if_false]
  · simp only [if_neg hlooks]

lemma checks_of_meanings {u : Meaning} (hu : ∀ v, u.1 ≠ .suppressed v)
    (h : (if q.params.encodes storable then
      q.params.meaning q.params.suppressed u (d.table.lookup q.params.key) else unencoded).1 =
    (q.params.meaning q.isContentEqual (if q.params.encodes storable then u else unencoded)
      (d.table.lookup q.params.key)).1) : ChecksAgree storable q d := by
  intro _ hlooks r hk
  unfold WriteParams.meaning at h
  simp only [if_pos hlooks, hk] at h
  cases he : q.params.encodes storable with
  | true =>
    simp only [he, if_true] at h ⊢
    intro hm
    simp only [hm, Bool.not_true, Bool.false_eq_true, if_false] at h
    cases hs : q.params.suppressed r <;> cases hc : q.isContentEqual r <;>
      simp only [hs, hc, Bool.false_eq_true, if_false, if_true] at h ⊢
    · exact absurd h (hu _)
    · exact absurd h.symm (hu _)
  | false =>
    simp only [he, Bool.false_eq_true, if_false] at h ⊢
    cases hm : q.params.matches? r with
    | false => simp [hm, unencoded] at h
    | true =>
      cases hc : q.isContentEqual r with
      | false => exact ⟨rfl, rfl⟩
      | true => simp [hm, hc, unencoded] at h

/-- **The two write paths are equivalent** on exactly those requests on which their content checks
agree: run alone on any table they report the same outcome with the same version, and leave the
same rows up to stamps and fresh UUIDs. -/
theorem paths_agree_iff (storable : Json → Bool) (q : WriteRequest) (d : Database) (ch ch' : Choice)
    (hf : d.fresh ch.uuid) (hf' : d.fresh ch'.uuid) :
    PathsAgree storable q d ch ch' ↔ ChecksAgree storable q d := by
  cases hr : q.refused with
  | some e =>
    refine iff_of_true ⟨.error e, d, .error e, d, ?_, ?_, rfl, fun k => rel_refl _⟩ ?_
    · simp only [WriteRequest.storedProc, hr]
      rfl
    · simp only [WriteRequest.multiStatement, hr]
      rfl
    · intro h
      rw [hr] at h
      cases h
  | none =>
    have hstored : Refines _ d ch (q.storedProc storable) _ := refines_storedProc hf hr
    have hmulti : Refines _ d ch' (q.multiStatement storable) _ := refines_multiStatement hf' hr
    constructor
    · rintro ⟨a, d1, a', d2, ha, ha', hout, -⟩
      obtain ⟨b, _, hb, ho, -⟩ := hstored
      obtain ⟨b', _, hb', ho', -⟩ := hmulti
      cases ha.symm.trans hb
      cases ha'.symm.trans hb'
      exact checks_of_meanings (meaningOf_ne_suppressed _) (ho.symm.trans (hout.trans ho'))
    · intro h
      rw [← meanings_eq hr h] at hmulti
      exact hstored.alike hmulti

/-- A table with one object of version 1 and UUID 7. -/
def oneRow : Database :=
  let k : Key := ⟨"g/v1/K", "ns", "a"⟩
  let r : Row := ⟨7, 3, 1, .obj [], .obj [], .obj [], none, 0, 0⟩
  ⟨4, [], (∅ : Table).insert k r, ∅, [(k, r)]⟩

/-- A Write of the object with this spec and this status, if any. -/
def writeOne (spec : Json) (status : Option Json) : WriteRequest :=
  .write ⟨⟨"g/v1/K", "ns", "a"⟩, 1, some 7, false⟩ spec status (some (.obj [])) none

/-- A spec with an integer that no double is. -/
def largeSpec : Json := .obj [("n", .num (2 ^ 53 + 1))]

/-- On a new spec the paths agree, whatever it holds. -/
theorem paths_agree_large : PathsAgree (fun _ => true) (writeOne largeSpec (some (.obj []))) oneRow
    ⟨1, 8, []⟩ ⟨2, 9, []⟩ := by
  refine (paths_agree_iff _ _ _ _ _ (by decide +kernel) (by decide +kernel)).mpr ?_
  intro _ _ r hr
  have hrow : oneRow.table.lookup ⟨"g/v1/K", "ns", "a"⟩ =
      some ⟨7, 3, 1, .obj [], .obj [], .obj [], none, 0, 0⟩ := by decide +kernel
  cases hrow.symm.trans hr
  rw [if_pos (by decide +kernel)]
  intro _
  decide +kernel

/-- Without a status the procedure suppresses a write that the other path makes. -/
theorem nil_status_paths_differ : ¬PathsAgree (fun _ => true) (writeOne (.obj []) none) oneRow
    ⟨1, 8, []⟩ ⟨2, 9, []⟩ := by
  rintro ⟨a, d1, a', d2, ha, ha', hout, -⟩
  have hstored : (((writeOne (.obj []) none).storedProc fun _ => true).eval exec
      ⟨1, 8, []⟩ oneRow).map (pathOutcome ·.1) = some (.suppressed 1) := by decide +kernel
  have hmulti : (((writeOne (.obj []) none).multiStatement fun _ => true).eval exec
      ⟨2, 9, []⟩ oneRow).map (pathOutcome ·.1) = some (.changed 2) := by decide +kernel
  rw [ha] at hstored
  rw [ha'] at hmulti
  have hs : pathOutcome a = .suppressed 1 := Option.some.inj hstored
  have hm : pathOutcome a' = .changed 2 := Option.some.inj hmulti
  rw [hs, hm] at hout
  cases hout

end Agreement

end Seaplane.Db
