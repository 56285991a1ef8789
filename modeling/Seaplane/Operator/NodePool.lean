import Seaplane.Operator.Render

/-!
The NodePool and the Placement controllers.
-/

namespace Seaplane.Operator

open Lib Kube Fleet Dynamo

/-! ### NodePools -/

def nodePoolFinalizer : String := "seaplane.io/nodepool"

inductive ParentErr where
  /-- `errNodePoolClusterOwnerMissing`. -/
  | ownerMissing
  | store (e : Err)
  deriving DecidableEq

/-- The controller, if it is a Cluster and has a UID. -/
def clusterControllerOwner (np : Object .nodePool) : Option OwnerReference :=
  np.controller.filter fun owner => owner.kind == "Cluster" && owner.uid != ""

/-- `parentCluster`: the Cluster the pool names, with its name. -/
def parentCluster (ns : String) (np : Object .nodePool) :
    FleetProg (Except ParentErr (String × Object .cluster)) :=
  match clusterControllerOwner np with
  | none => return .error .ownerMissing
  | some owner => do
    match ← get ⟨.cluster, ns, owner.name⟩ with
    | .error e => return .error (.store e)
    | .ok cluster =>
      if cluster.uid ≠ owner.uid then return .error (.store .notFound)
      else return .ok (owner.name, cluster)

section

variable (p : Params) (ns name : String)

abbrev poolKey : Key := ⟨.nodePool, ns, name⟩

/-- `setPhase`. -/
def setNodePoolPhase (np : Object .nodePool) (phase : String) : FleetProg Unit :=
  if np.status.phase = phase then return ()
  else do
    let _ ← updateLatestStatus (poolKey ns name) true fun latest =>
      if latest.status.phase = phase then none else some { latest.status with phase := phase }
    return ()

/-- `setSyncedCondition`. -/
def setNodePoolSyncedCondition (cond : Condition) : FleetProg Unit := do
  let _ ← updateLatestStatus (poolKey ns name) true fun latest =>
    some { latest.status with conditions := setStatusCondition latest.status.conditions cond }
  return ()

/-- The status after a report: the Ready condition and the replicas that were read back. -/
def nodePoolFeedback (synced : Condition) (feedback : Option NodePoolFeedback)
    (status : NodePoolStatus) : NodePoolStatus :=
  let ready := (feedback.elim [] (·.conditions)).filter (·.type == "Ready")
  let conditions := ready.foldl setStatusCondition (setStatusCondition status.conditions synced)
  { conditions := conditions
    replicas := feedback.elim status.replicas (·.replicas)
    phase := if isStatusConditionTrue conditions "Ready" then "Ready" else status.phase }

/-- `updateStatusFromDynamo`. -/
def updateNodePoolStatusFromDynamo (entry : DesireStatusEntry) (readKey : DocKey) :
    FleetProg Unit := do
  let synced ← checkApplyDesireStatuses [entry]
  let readStatus ← dynamo (.getReadStatus readKey)
  let feedback := readStatus.toOption.bind p.readNodePool
  let _ ← updateLatestStatus (poolKey ns name) true fun latest =>
    some (nodePoolFeedback synced feedback latest.status)
  return ()

/-- After the reconcile the phase is at least Provisioning. -/
def settleNodePoolPhase : FleetProg Outcome := do
  match ← get (poolKey ns name) with
  | .error _ => return .failed
  | .ok np =>
    if np.status.phase = "" ∨ np.status.phase = "WaitingForCluster" then do
      setNodePoolPhase ns name np "Provisioning"
      return .requeue
    else return .requeue

/-- The desires of a pool whose Cluster is placed. -/
def applyNodePool (mc clusterUID : String) (m : Resource) : FleetProg Outcome := do
  match ← upsertRenderedResource ⟨.renderedNodePool, ns, name⟩
      { labels := renderedLabels m, spec := m.object } with
  | .error _ => return .failed
  | .ok () =>
    let applied ← upsertDesire (m.applyKey mc) (m.serverSideApply mc clusterUID)
    let read ← upsertDesire (m.readKey mc) (m.read mc clusterUID)
    match applied, read with
    | .ok r, .ok _ =>
      updateNodePoolStatusFromDynamo p ns name ⟨m.applyKey mc, r.updateTime⟩ (m.readKey mc)
      settleNodePoolPhase ns name
    | _, _ => return .failed

/-- The last part of `reconcileDelete`. -/
def releaseNodePool : FleetProg Outcome := do
  match ← deleteRenderedResource ⟨.renderedNodePool, ns, name⟩ { spec := .null } with
  | .error _ => return .failed
  | .ok () =>
    match ← removeFinalizer (poolKey ns name) nodePoolFinalizer with
    | .error _ => return .failed
    | .ok () => return .done

/-- Both desire specs are removed, the second also when the first fails. -/
def deleteNodePoolSpecs (mc : String) (m : Resource) : FleetProg (Except Unit Unit) := do
  let applied ← deleteDesireSpec (m.applyKey mc)
  let read ← deleteDesireSpec (m.readKey mc)
  return applied.bind fun _ => read

/-- The desire is switched to Delete in place; the specs go when the deletion is confirmed. -/
def withdrawNodePool (mc clusterUID : String) (m : Resource) : FleetProg Outcome := do
  match ← upsertDesire (m.applyKey mc) (m.delete mc clusterUID) with
  | .error _ => return .failed
  | .ok r =>
    let deleteSynced ← checkApplyDesireStatuses [⟨m.applyKey mc, r.updateTime⟩]
    setNodePoolSyncedCondition ns name deleteSynced
    if !deleteSynced.status then return .requeue
    else
      match ← deleteNodePoolSpecs mc m with
      | .error _ => return .failed
      | .ok () => releaseNodePool ns name

/-- `reconcileDelete`. -/
def reconcileNodePoolDelete (np : Object .nodePool) : FleetProg Outcome :=
  if !np.finalizers.contains nodePoolFinalizer then return .done
  else do
    setNodePoolPhase ns name np "Deleting"
    match ← parentCluster ns np with
    | .error (.store .notFound) | .error .ownerMissing => releaseNodePool ns name
    | .error (.store _) => return .failed
    | .ok (clusterName, cluster) =>
      match cluster.status.placementRef with
      | none => releaseNodePool ns name
      | some ref =>
        match nodePoolResource p name np clusterName cluster with
        | none => return .failed
        | some m => withdrawNodePool ns name ref.managementCluster cluster.uid m

def awaitCluster (np : Object .nodePool) : FleetProg Outcome := do
  setNodePoolPhase ns name np "WaitingForCluster"
  return .requeue

/-- `NodePoolReconciler.Reconcile`. -/
def reconcileNodePool : FleetProg Outcome := do
  match ← get (poolKey ns name) with
  | .error .notFound => return .done
  | .error _ => return .failed
  | .ok np =>
    if np.deleting then reconcileNodePoolDelete p ns name np
    else if !np.finalizers.contains nodePoolFinalizer then
      match ← update (poolKey ns name)
          { np with finalizers := np.finalizers ++ [nodePoolFinalizer] } with
      | .error .notFound => return .done
      | .error _ => return .failed
      | .ok _ => return .done
    else
      match ← parentCluster ns np with
      | .error (.store .notFound) => awaitCluster ns name np
      | .error _ => return .failed
      | .ok (clusterName, cluster) =>
        if cluster.deleting then awaitCluster ns name np
        else
          match cluster.status.placementRef with
          | none => return .requeue
          | some ref =>
            match nodePoolResource p name np clusterName cluster with
            | none => return .failed
            | some m => applyNodePool p ns name ref.managementCluster cluster.uid m

end

/-! ### Placements -/

def placementName (clusterName : String) : String := clusterName ++ ".placement"

abbrev placementKey (ns clusterName : String) : Key := ⟨.placement, ns, placementName clusterName⟩

/-- The first management cluster that is not one of the end-to-end tests. -/
def selectManagementCluster : FleetProg (Except Err String) := do
  match ← list .managementCluster {} with
  | .error e => return .error e
  | .ok items =>
    match items.find? (fun i => !"test-mc".toList.isPrefixOf i.name.toList) with
    | none => return .error .other
    | some i => return .ok i.name

section

variable (ns name : String)

/-- The Placement of a Cluster, created if there is none; none when it came into being meanwhile. -/
def ensurePlacement (cluster : Object .cluster) :
    FleetProg (Except Err (Option (Object .placement))) := do
  match ← get (placementKey ns name) with
  | .ok placement => return .ok (some placement)
  | .error .notFound =>
    match ← selectManagementCluster with
    | .error e => return .error e
    | .ok mc =>
      match ← create (placementKey ns name)
          { labels := [(clusterUIDLabel, cluster.uid)],
            controller := some ⟨"Cluster", name, cluster.uid⟩,
            spec := { clusterName := name, managementCluster := mc } } with
      | .ok placement => return .ok (some placement)
      | .error .alreadyExists => return .ok none
      | .error e => return .error e
  | .error e => return .error e

def bindPlacement (placement : Object .placement) : FleetProg (Except Err Unit) :=
  if placement.status.phase = "Bound" then return .ok ()
  else
    updateLatestStatus (placementKey ns name) true fun latest =>
      if latest.status.phase = "Bound" then none
      else some
        { phase := "Bound"
          conditions := setStatusCondition latest.status.conditions ⟨"Bound", true, "Assigned"⟩ }

def referToPlacement (cluster : Object .cluster) (mc : String) : FleetProg (Except Err Unit) :=
  if cluster.status.placementRef = some ⟨placementName name, mc⟩ then return .ok ()
  else
    updateLatestStatus ⟨.cluster, ns, name⟩ true fun latest =>
      some { latest.status with placementRef := some ⟨placementName name, mc⟩ }

/-- `PlacementReconciler.Reconcile`. -/
def reconcilePlacement : FleetProg Outcome := do
  match ← get ⟨.cluster, ns, name⟩ with
  | .error .notFound => return .done
  | .error _ => return .failed
  | .ok cluster =>
    if cluster.deleting then return .done
    else
      match ← ensurePlacement ns name cluster with
      | .error _ => return .failed
      | .ok none => return .requeue
      | .ok (some placement) =>
        match ← bindPlacement ns name placement with
        | .error _ => return .failed
        | .ok () =>
          match ← referToPlacement ns name cluster placement.spec.managementCluster with
          | .error _ => return .failed
          | .ok () => return .done

end

end Seaplane.Operator
