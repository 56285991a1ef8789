import Seaplane.Lib.GoJson
import Seaplane.Operator.Render

/-!
The Manifest controller, and what runs on the Manifests.

A Manifest names resources that the operator wants on a management cluster. The controller writes
an ApplyDesire for each of them, and a ReadDesire for those that are watched; what was read back is
kept in the status, and from there the controller knows what it may have to clean up.

The calls of one reconcile that the controller makes from several goroutines go one after another
here, which makes no difference as long as their documents are different ones.
-/

namespace Seaplane.Operator.Manifests

open Lib Kube Fleet Dynamo

/-- The name of a Manifest; Kubernetes allows no slash in it. -/
structure NamespacedName where
  ns : String
  name : String
  plain_ns : '/' ∉ ns.toList
  plain_name : '/' ∉ name.toList
  deriving DecidableEq

abbrev NamespacedName.key (n : NamespacedName) : Key := ⟨.manifest, n.ns, n.name⟩

abbrev Manifest := Object .manifest

/-! ### What a Manifest wants -/

def manifestFinalizer : String := "seaplane.io/manifest"

def manifestTaskKey : String := "seaplane-manifest"

/-- `manifestScopedTaskKey`. -/
def manifestScopedTaskKey (n : NamespacedName) : String :=
  manifestTaskKey ++ "/" ++ n.ns ++ "/" ++ n.name

inductive MetaErr where
  | unmarshal
  /-- "content missing metadata.name" -/
  | missingName
  /-- "content missing apiVersion" -/
  | missingAPIVersion
  deriving DecidableEq

structure ContentMeta where
  apiVersion : String := ""
  name : String := ""
  ns : String := ""

def ContentMeta.unmarshal : Json → Option ContentMeta :=
  GoJson.decodeStruct member {}
where
  member (m : ContentMeta) (key : String) (v : Json) : Option ContentMeta :=
    if GoJson.sameName key "apiVersion" then
      (GoJson.decodeString m.apiVersion v).map fun s => { m with apiVersion := s }
    else if GoJson.sameName key "metadata" then GoJson.decodeStruct metadata m v
    else some m
  metadata (m : ContentMeta) (key : String) (v : Json) : Option ContentMeta :=
    if GoJson.sameName key "name" then
      (GoJson.decodeString m.name v).map fun s => { m with name := s }
    else if GoJson.sameName key "namespace" then
      (GoJson.decodeString m.ns v).map fun s => { m with ns := s }
    else some m

/-- `strings.SplitN(apiVersion, "/", 2)`, as group and version. -/
def splitAPIVersion (apiVersion : String) : String × String :=
  match apiVersion.toList.span (· != '/') with
  | (_, []) => ("", apiVersion)
  | (group, _ :: version) => (String.ofList group, String.ofList version)

/-- `extractResourceMeta`: the resource a template stands for. -/
def extractResourceMeta (t : ResourceTemplate) : Except MetaErr Resource :=
  match ContentMeta.unmarshal t.content with
  | none => .error .unmarshal
  | some m =>
    if m.name = "" then .error .missingName
    else if m.apiVersion = "" then .error .missingAPIVersion
    else
      let gv := splitAPIVersion m.apiVersion
      .ok ⟨gv.1, gv.2, t.resource, m.name, m.ns, t.content⟩

section

variable (n : NamespacedName)

/-- The document of an ApplyDesire of the Manifest. -/
def applyKey (mc : String) (m : Resource) : DocKey :=
  ⟨mc, .applyDesires, m.documentID (manifestScopedTaskKey n)⟩

/-- The document of a ReadDesire of the Manifest. -/
def readKey (mc : String) (m : Resource) : DocKey :=
  ⟨mc, .readDesires, m.documentID (manifestScopedTaskKey n ++ "-read")⟩

def applyItem (mc : String) (m : Resource) : DocKey × DesireSpec :=
  (applyKey n mc m, m.serverSideApply mc n.name)

def deleteItem (mc : String) (m : Resource) : DocKey × DesireSpec :=
  (applyKey n mc m, m.delete mc n.name)

def readItem (mc : String) (m : Resource) : DocKey × DesireSpec :=
  (readKey n mc m, m.read mc n.name)

/-! ### The controller -/

def resourceOf (rs : ResourceStatus) : Resource :=
  ⟨rs.group, rs.version, rs.resource, rs.name, rs.ns, .null⟩

/-- The orphans among the recorded resources are removed; errors are logged. -/
def deleteOrphans (mc : String) (currentDocIDs : List DocKey) :
    List ResourceStatus → FleetProg Unit
  | [] => return ()
  | rs :: rest => do
    if currentDocIDs.contains (applyKey n mc (resourceOf rs)) then
      deleteOrphans mc currentDocIDs rest
    else do
      let _ ← deleteDesireSpec (applyKey n mc (resourceOf rs))
      let _ ← deleteDesireSpec (readKey n mc (resourceOf rs))
      deleteOrphans mc currentDocIDs rest

variable (m : Manifest)

/-- `cleanupOrphanedDesires`. -/
def cleanupOrphanedDesires (currentDocIDs : List DocKey) : FleetProg Unit :=
  if m.generation = m.status.observedGeneration then return ()
  else deleteOrphans n m.spec.managementCluster currentDocIDs m.status.resourceStatuses

/-- The status recorded of a resource that was read back. -/
def resourceStatus (m : Resource) (read : Except StatusErr Json) : Option ResourceStatus :=
  (read.toOption.bind (GoJson.decodeRaw "status")).map fun status =>
    ⟨m.resource, m.name, m.ns, m.group, m.version, status⟩

/-- `collectResourceStatuses`. -/
def collectResourceStatuses (mc : String) : List Resource → FleetProg (List ResourceStatus)
  | [] => return []
  | m :: ms => do
    let read ← dynamo (.getReadStatus (readKey n mc m))
    let rest ← collectResourceStatuses mc ms
    return (resourceStatus m read).toList ++ rest

def reconciledStatus (synced : Condition) (statuses : List ResourceStatus) : ManifestStatus where
  conditions := setStatusCondition m.status.conditions synced
  phase := if synced.status then .applied else .syncing
  appliedResources := m.spec.resources.length
  observedGeneration := m.generation
  resourceStatuses := if statuses.isEmpty then m.status.resourceStatuses else statuses

/-- The desires are written: what was read back is collected, the reports are checked, and the
status is recorded. -/
def recordStatus (watched : List Resource) (entries : List DesireStatusEntry) :
    FleetProg Outcome := do
  let statuses ← collectResourceStatuses n m.spec.managementCluster watched
  let synced ← checkApplyDesireStatuses entries
  match ← updateStatus n.key { m with status := reconciledStatus m synced statuses } with
  | .error _ => return .failed
  | .ok _ => return if !synced.status || !watched.isEmpty then .requeue else .done

/-- The ReadDesires of the watched resources, and what follows. -/
def reconcileReads (entries : List DesireStatusEntry) : FleetProg Outcome :=
  match m.spec.watched.mapM extractResourceMeta with
  | .error _ => return .failed
  | .ok watched => do
    match ← upsertDesires (watched.map (readItem n m.spec.managementCluster)) with
    | .error _ => return .failed
    | .ok _ => recordStatus n m watched entries

/-- The reconcile of a Manifest that has its finalizer. -/
def reconcileSpec : FleetProg Outcome :=
  match m.spec.resources.mapM extractResourceMeta with
  | .error _ => return .failed
  | .ok resources => do
    let mc := m.spec.managementCluster
    match ← upsertDesires (resources.map (applyItem n mc)) with
    | .error _ => return .failed
    | .ok entries => do
      cleanupOrphanedDesires n m (resources.map (applyKey n mc))
      reconcileReads n m entries

/-- A status write whose error is logged. The Manifest goes on with what was stored, or with what
was not. -/
def setStatus (status : ManifestStatus) : FleetProg Manifest := do
  match ← updateStatus n.key { m with status := status } with
  | .error _ => return { m with status := status }
  | .ok m' => return m'

/-- `setPhase`. -/
def setPhase (phase : ManifestPhase) : FleetProg Manifest :=
  if m.status.phase = phase then return m
  else setStatus n m { m.status with phase := phase, observedGeneration := m.generation }

/-- `setSyncedCondition`. -/
def setSyncedCondition (cond : Condition) : FleetProg Manifest :=
  setStatus n m { m.status with conditions := setStatusCondition m.status.conditions cond }

/-- The desires are switched to deletions, up to the first error. -/
def upsertDeletes (mc : String) :
    List ResourceTemplate → FleetProg (Option (List (Resource × DesireStatusEntry)))
  | [] => return some []
  | t :: ts =>
    match extractResourceMeta t with
    | .error _ => return none
    | .ok m => do
      match ← upsertDesire (deleteItem n mc m).1 (deleteItem n mc m).2 with
      | .error _ => return none
      | .ok u => do
        let rest ← upsertDeletes mc ts
        return rest.map ((m, ⟨applyKey n mc m, u.updateTime⟩) :: ·)

/-- The resources are gone: their documents and the finalizer are removed. -/
def finishDelete (keys : List DocKey) : FleetProg Outcome := do
  -- errors are logged
  let _ ← deleteDesireSpecs keys
  match ← update n.key { m with finalizers := m.finalizers.filter (· != manifestFinalizer) } with
  | .error _ => return .failed
  | .ok _ => return .done

/-- The documents of a Manifest that is deleted. -/
def deletedKeys (spec : ManifestSpec) (resources : List Resource) : List DocKey :=
  resources.map (applyKey n spec.managementCluster) ++
    spec.watched.filterMap fun t =>
      ((extractResourceMeta t).toOption.map (readKey n spec.managementCluster))

/-- `reconcileDelete`. -/
def reconcileDelete : FleetProg Outcome :=
  if !m.finalizers.contains manifestFinalizer then return .done
  else do
    let m ← setPhase n m .deleting
    match ← upsertDeletes n m.spec.managementCluster m.spec.resources with
    | none => return .failed
    | some entries => do
      let synced ← checkApplyDesireStatuses (entries.map (·.2))
      let m ← setSyncedCondition n m synced
      if !synced.status then return .requeue
      else finishDelete n m (deletedKeys n m.spec (entries.map (·.1)))

/-- `Reconcile`. -/
def reconcile : FleetProg Outcome := do
  match ← get n.key with
  | .error .notFound => return .done
  | .error _ => return .failed
  | .ok m =>
    if m.deleting then reconcileDelete n m
    else if !m.finalizers.contains manifestFinalizer then do
      match ← update n.key { m with finalizers := m.finalizers ++ [manifestFinalizer] } with
      | .error _ => return .failed
      | .ok _ => return .done
    else reconcileSpec n m

end

/-! ### The system -/

inductive Task where
  | reconcile (n : NamespacedName)
  /-- A reconcile that ends after some of its operations, with the operator. -/
  | crash (n : NamespacedName) (after : ℕ)
  /-- The operator restarts. -/
  | restart
  | create (n : NamespacedName) (spec : ManifestSpec)
  | setSpec (n : NamespacedName) (spec : ManifestSpec)
  | delete (n : NamespacedName)
  /-- An applier reports on a desire. -/
  | report (k : DocKey) (s : ApplyDesireStatus)
  /-- An applier reports what it has read. -/
  | observe (k : DocKey) (content : Json)

namespace Task

def code : Task → FleetProg Unit
  | reconcile n => (Manifests.reconcile n).bind fun _ => .ret ()
  | crash n after => ((Manifests.reconcile n).cut after).bind fun _ => dynamo .resetCache
  | restart => dynamo .resetCache
  | create n spec => (Fleet.create n.key { spec := spec }).bind fun _ => .ret ()
  | setSpec n spec => do
    match ← get n.key with
    | .error _ => return ()
    | .ok m => do
      let _ ← update n.key { m with spec := spec }
      return ()
  | delete n => (Fleet.delete n.key { spec := ⟨"", []⟩ }).bind fun _ => .ret ()
  | report k s => dynamo (.report k s)
  | observe k content => dynamo (.observe k content)

/-- The task is the reconcile of the Manifest. -/
def reconciles (n : NamespacedName) : Task → Bool
  | reconcile n' | crash n' _ => n' == n
  | _ => false

/-- A Manifest is reconciled by one worker at a time. -/
def excl : Task → Task → Bool
  | reconcile n, l | crash n _, l => l.reconciles n
  | _, _ => false

end Task

def controllers : System Fleet.Op Fleet.Op.Res State Fleet.Choice Task Unit where
  exec := Fleet.exec
  code := Task.code
  excl := Task.excl

abbrev TaskConf := Conf Fleet.Op Fleet.Op.Res State Task Unit

def start : TaskConf := ⟨.empty, []⟩

end Seaplane.Operator.Manifests
