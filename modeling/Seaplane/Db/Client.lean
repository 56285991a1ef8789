import Seaplane.Db.Proc
import Seaplane.Db.ResourceVersion

/-!
The writer and the client: Get, Create, Update, Status().Update, Delete and Compact as programs
over the database's statements.

How the procedure is reached is a parameter of the client's methods: `send` calls it and maps its
errors, or loses the connection on the way (see the module on ambiguous commits).
-/

namespace Seaplane.Db

open Lib

/-- The text in `metadata.uid`. -/
inductive UidText where
  | empty
  | invalid
  | uid (u : Uid)
  deriving DecidableEq

/-- What the client reads of an object; `spec` and `status` are the marshalled fields. -/
structure Object where
  key : Key
  generateName : String
  uid : UidText
  resourceVersion : String
  metadata : StoredMetadata
  spec : Json
  status : Json

inductive ClientError where
  | notFound
  | conflict
  | alreadyExists
  | badRequest (msg : String)
  | other (msg : String)
  deriving DecidableEq

inductive WriteError where
  | conflict
  | alreadyExists
  | ambiguousCommit (k : Key) (txid : ℕ)
  | other (msg : String)

structure WriteResult where
  txid : ℕ
  objectVersion : ℤ
  uid : Uid
  changed : Bool

/-! ### The writer -/

def mapStoredProcError : SqlState → WriteError
  | .P0002 => .conflict
  | .P0003 => .alreadyExists
  | .P0004 => .other "WriteStatus requires ExpectedVersion > 0: object must exist"
  | .notNullViolation => .other "stored proc: null value in column violates not-null constraint"

def callStoredProc (p : WriteParams) : DbProg (Except WriteError WriteResult) := do
  match ← pgctlWrite p with
  | .error e => return .error (mapStoredProcError e)
  | .ok r =>
    if !r.changed then return .ok ⟨0, r.version, r.uid, false⟩
    else return .ok ⟨r.txid, r.version, r.uid, true⟩

/-- The connection of a writer; one that failed is closed, and answers no query. -/
inductive Conn where
  | alive
  | closed

/-- The row that carries a transaction's stamp, if it still does; or the error of the query. -/
def readBack (conn : Conn) (k : Key) (txid : ℕ) : DbProg (Except String (Option Row)) :=
  match conn with
  | .alive => do return .ok ((← perform (.selectRow k)).filter (·.txidStamp == txid))
  | .closed => return .error "read-back: conn closed"

/-- What a call ended with: the procedure's result, a row it read, or the number of rows that a
compaction deleted. -/
inductive Written where
  | result (r : WriteResult)
  | row (r : Row)
  | deleted (n : ℕ)

/-- `conn` is the connection of the writer, on which the read-back runs. -/
def mapWriteError (conn : Conn) : WriteError → DbProg (Except ClientError Written)
  | .alreadyExists => return .error .alreadyExists
  | .conflict => return .error .conflict
  | .ambiguousCommit k txid => do
    match ← readBack conn k txid with
    | .error e => return .error (.other ("ambiguous commit + read-back failed: " ++ e))
    | .ok none => return .error .conflict
    | .ok (some r) => return .ok (.row r)
  | .other msg => return .error (.other msg)

/-- The end of a call: what the client reports, and whether its transaction changed the row. -/
structure Outcome where
  result : Except ClientError Written
  changed : Bool

abbrev Send := WriteParams → DbProg Outcome

/-- The procedure over a connection that holds. -/
def send (p : WriteParams) : DbProg Outcome := do
  match ← callStoredProc p with
  | .ok r => return ⟨.ok (.result r), r.changed⟩
  | .error e => return ⟨← mapWriteError .alive e, false⟩

def fail (e : ClientError) : DbProg Outcome := return ⟨.error e, false⟩

/-! ### The client -/

/-- The version a resource version names; 0 for none. -/
def parseResourceVersion (s : String) : Option ℤ :=
  if s = "" then some 0
  else
    match parseInt64 s.toList with
    | some v => some v
    | none =>
      match RV.parse s with
      | .ok rv => if rv.objectVersion = 0 then none else some rv.objectVersion
      | .error _ => none

def parseObjectUID : UidText → Option (Option Uid)
  | .empty => some none
  | .invalid => none
  | .uid u => some (some u)

def currentGeneration (metadata : Json) : Int64 :=
  match StoredMetadata.ofJson metadata with
  | some m => m.generation
  | none => 0

def readCurrentResource (k : Key) : DbProg (Option Row) := do
  return (← perform (.selectRow k)).filter Row.current

def get (k : Key) : DbProg Outcome := do
  match ← perform (.selectRow k) with
  | none => fail .notFound
  | some r => if isFullyDeleted r then fail .notFound else return ⟨.ok (.row r), false⟩

/-- Options the client refuses: a dry run, and on deletes three more. -/
structure Options where
  dryRun : List String
  propagationPolicy : Option String
  preconditions : Option String
  gracePeriodSeconds : Option ℤ

def rejectDryRun (opts : Options) : Option ClientError :=
  if opts.dryRun.isEmpty then none else some (.other "pgruntime: DryRun not supported")

def rejectUnsupportedDeleteOpts (opts : Options) : Option ClientError :=
  if !opts.dryRun.isEmpty then some (.other "pgruntime: DryRun not supported")
  else if opts.propagationPolicy.isSome then
    some (.other "pgruntime: PropagationPolicy not supported — use finalizers for cleanup")
  else if opts.preconditions.isSome then
    some (.other "pgruntime: Preconditions not supported — use ResourceVersion on the object")
  else if opts.gracePeriodSeconds.isSome then
    some (.other ("pgruntime: GracePeriodSeconds not supported" ++
      " — handle graceful shutdown in your reconciler"))
  else none

/-- The checks that come first in every call that changes an existing object. -/
def withExpected (refused : Option ClientError) (o : Object)
    (k : ℤ → Option Uid → DbProg Outcome) : DbProg Outcome :=
  match refused with
  | some e => fail e
  | none =>
    match parseResourceVersion o.resourceVersion with
    | none => fail (.other "parse resource version")
    | some v =>
      match parseObjectUID o.uid with
      | none => fail (.other "parse UID")
      | some uid => k v uid

variable (send : Send)

def create (opts : Options) (o : Object) : DbProg Outcome :=
  match rejectDryRun opts with
  | some e => fail e
  | none =>
    if o.key.name = "" ∧ o.generateName ≠ "" then
      fail (.other ("pgruntime: GenerateName not supported" ++
        " — set Name explicitly before Create()"))
    else
      send {
        statusOnly := false, key := o.key, expectedVersion := 0, expectedUid := none
        forceWrite := false, spec := o.spec, status := o.status
        metadata := some { o.metadata with generation := 1 }.toJson, deletionTs := none }

def update (opts : Options) (o : Object) : DbProg Outcome :=
  withExpected (rejectDryRun opts) o fun v uid =>
    if 0 < v ∧ uid = none then fail (.badRequest "metadata.uid is required for updates")
    else do
      match ← readCurrentResource o.key with
      | none => fail .notFound
      | some current =>
        if uid.any (current.uid != ·) then fail .conflict
        else
          let metadata :=
            if current.spec.goEqual o.spec then o.metadata
            else { o.metadata with generation := currentGeneration current.metadata + 1 }
          if v = 0 then
            fail (.other "WriteObject requires ExpectedVersion > 0: object must exist")
          else
            send {
              statusOnly := false, key := o.key, expectedVersion := v, expectedUid := uid
              forceWrite := false, spec := o.spec, status := none, metadata := some metadata.toJson
              deletionTs := current.deletionTimestamp }

/-- `now` is the client's clock. -/
def delete (opts : Options) (o : Object) (now : Time) : DbProg Outcome :=
  withExpected (rejectUnsupportedDeleteOpts opts) o fun v uid =>
    if v = 0 then do
      match ← readCurrentResource o.key with
      | none => fail .notFound
      | some current =>
        if uid.any (current.uid != ·) then fail .conflict
        else
          send {
            statusOnly := false, key := o.key, expectedVersion := current.objectVersion
            expectedUid := some current.uid, forceWrite := false, spec := current.spec
            status := current.status, metadata := current.metadata
            deletionTs := some (current.deletionTimestamp.getD now) }
    else
      match uid with
      | none => fail (.badRequest "metadata.uid is required when deleting with resourceVersion")
      | some uid =>
        send {
          statusOnly := false, key := o.key, expectedVersion := v, expectedUid := some uid
          forceWrite := false, spec := o.spec, status := o.status,
          metadata := some o.metadata.toJson
          deletionTs := some now }

def statusUpdate (opts : Options) (o : Object) : DbProg Outcome :=
  withExpected (rejectDryRun opts) o fun v uid =>
    match uid with
    | none => fail (.badRequest "metadata.uid is required for status updates")
    | some uid =>
      if v = 0 then fail (.other "WriteStatus requires ExpectedVersion > 0: object must exist")
      else
        send {
          statusOnly := true, key := o.key, expectedVersion := v, expectedUid := some uid
          forceWrite := false, spec := none, status := o.status, metadata := none
          deletionTs := none }

def compact (c : CompactConfig) : DbProg Outcome := do
  let x ← perform .currentXactId
  let n ← perform (.compact x c)
  return ⟨.ok (.deleted n), n != 0⟩

end Seaplane.Db
