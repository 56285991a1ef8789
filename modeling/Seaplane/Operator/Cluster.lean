import Seaplane.Operator.NodePool

/-!
The Cluster controller.
-/

namespace Seaplane.Operator

open Lib Kube Fleet Dynamo

def clusterFinalizer : String := "seaplane.io/cluster"

/-! ### What a Cluster refers to -/

/-- `listByMetadataUID`: by the UID index, or the whole namespace where there is none. -/
def listByMetadataUID (kind : Kind) (ns uid : String) :
    FleetProg (Except Err (List (Item kind))) := do
  match ← list kind { ns := some ns, uid := some uid } with
  | .error .badRequest => list kind { ns := some ns }
  | r => return r

/-- `getOidcConfigByUID` and `getDNSReservationByUID`. -/
def getByUID (kind : Kind) (accountID uid : String) : FleetProg (Except Err (Item kind)) := do
  match ← listByMetadataUID kind (accountNamespace accountID) uid with
  | .error e => return .error e
  | .ok items =>
    match items.find? (·.object.uid == uid) with
    | none => return .error .notFound
    | some i => return .ok i

section

variable (cluster : Object .cluster)

/-- The account of a Cluster, from its spec or its label. -/
def accountOf : String :=
  if cluster.spec.accountID = "" then cluster.labels.value accountIDLabel
  else cluster.spec.accountID

/-- `oidcSigningKeyExternal`: the OidcConfig the Cluster names is unmanaged. -/
def oidcSigningKeyExternal : FleetProg (Except Err Bool) :=
  let accountID := cluster.labels.value accountIDLabel
  if cluster.spec.oidcConfigID = "" ∨ accountID = "" then return .ok false
  else do
    match ← getByUID .oidcConfig accountID cluster.spec.oidcConfigID with
    | .error .notFound => return .ok false
    | .error e => return .error e
    | .ok oc => return .ok (oc.object.spec.type == "unmanaged")

/-- `releaseOidcConfigClaim`. -/
def releaseOidcConfigClaim : FleetProg (Except Err Unit) :=
  let accountID := cluster.labels.value accountIDLabel
  if accountID = "" then return .ok ()
  else retryOnConflict isConflict (attempt accountID) defaultRetries
where
  attempt (accountID : String) : FleetProg (Except Err Unit) := do
    match ← getByUID .oidcConfig accountID cluster.spec.oidcConfigID with
    | .error e => return if e == .notFound then .ok () else .error e
    | .ok oc =>
      if oc.object.labels.value claimedByClusterUIDLabel ≠ cluster.uid then return .ok ()
      else
        match ← update oc.key
            { oc.object with labels := oc.object.labels.without claimedByClusterUIDLabel } with
        | .error e => return .error e
        | .ok _ => return .ok ()

/-- The Cluster has claimed the OidcConfig it names, if it names one. -/
def oidcClaimConfirmed (accountID : String) :
    FleetProg (Except Err Bool) :=
  if cluster.spec.oidcConfigID = "" then return .ok true
  else do
    match ← getByUID .oidcConfig accountID cluster.spec.oidcConfigID with
    | .error .notFound => return .ok false
    | .error e => return .error e
    | .ok oc => return .ok (oc.object.labels.value claimedByClusterUIDLabel == cluster.uid)

/-- `confirmedDNSReservation`: the domain, once every claim is the Cluster's. -/
def confirmedDNSReservation : FleetProg (Except Err (Option String)) :=
  let accountID := accountOf cluster
  if accountID = "" ∨ cluster.spec.dnsReservationID = "" ∨ cluster.uid = "" then return .ok none
  else do
    match ← getByUID .dnsReservation accountID cluster.spec.dnsReservationID with
    | .error .notFound => return .ok none
    | .error e => return .error e
    | .ok i =>
      let r := i.object
      if r.deleting ∨ r.labels.value claimedByClusterUIDLabel ≠ cluster.uid ∨
          r.status.phase ≠ "Ready" ∨ r.status.baseDomain = "" ∨
          r.status.internalHostedClusterName = "" then return .ok none
      else
        match ← oidcClaimConfirmed cluster accountID with
        | .error e => return .error e
        | .ok confirmed => return .ok (if confirmed then some r.status.baseDomain else none)

end

/-! ### Before the placement -/

section

variable (p : Params) (ns name : String) (cluster : Object .cluster)

abbrev clusterKey : Key := ⟨.cluster, ns, name⟩

/-- `setPhase`. -/
def setClusterPhase (phase : String) : FleetProg Unit :=
  if cluster.status.phase = phase then return ()
  else do
    let _ ← updateLatestStatus (clusterKey ns name) true fun latest =>
      if latest.status.phase = phase then none else some { latest.status with phase := phase }
    return ()

/-- `setSyncedCondition`. -/
def setClusterSyncedCondition (cond : Condition) : FleetProg Unit := do
  let _ ← updateLatestStatus (clusterKey ns name) true fun latest =>
    some { latest.status with conditions := setStatusCondition latest.status.conditions cond }
  return ()

/-- The name of the HostedCluster: from the reservation, or the Cluster's own; none on an error. -/
def resolveHostedClusterName : FleetProg (Option String) :=
  if cluster.spec.dnsReservationID = "" then return some name
  else if accountOf cluster = "" then return none
  else do
    match ← getByUID .dnsReservation (accountOf cluster) cluster.spec.dnsReservationID with
    | .error _ => return none
    | .ok i => return some i.object.status.internalHostedClusterName

/-- `ensureHostedClusterName`; none when the reconcile goes on. -/
def ensureHostedClusterName : FleetProg (Option Outcome) :=
  if cluster.spec.hostedClusterName ≠ "" ∧
      cluster.spec.hostedClusterName ≠ hostedClusterNamePending then return none
  else do
    match ← resolveHostedClusterName name cluster with
    | none => return some .failed
    | some hcName =>
      if hcName = "" then return some .failed
      else
        match ← update (clusterKey ns name)
            { cluster with spec := { cluster.spec with hostedClusterName := hcName } } with
        | .error _ => return some .failed
        | .ok _ => return some .done

def automaticDNSReservationName (clusterUID : Uid) : String := "auto-dns-" ++ clusterUID

def legacyAutomaticDNSReservationName (clusterName : String) (clusterUID : Uid) : String :=
  clusterName ++ "-auto-dns-" ++ clusterUID

/-- The automatic reservation of a Cluster, created if there is none. -/
def automaticDNSReservation (accountID : String) (clusterUID : Uid) :
    FleetProg (Except Err (Object .dnsReservation)) := do
  let k : Key :=
    ⟨.dnsReservation, accountNamespace accountID, automaticDNSReservationName clusterUID⟩
  match ← get k with
  | .ok r => return .ok r
  | .error .notFound =>
    match ← get ⟨.dnsReservation, accountNamespace accountID,
        legacyAutomaticDNSReservationName name clusterUID⟩ with
    | .ok r => return .ok r
    | .error .notFound =>
      match ← create k
          { labels := [(accountIDLabel, accountID), (claimedByClusterUIDLabel, clusterUID)],
            spec := { clusterDeletionPolicy := "Delete" } } with
      | .ok r => return .ok r
      | .error .alreadyExists => get k
      | .error e => return .error e
    | .error e => return .error e
  | .error e => return .error e

/-- `ensureAutomaticDNSReservation`. -/
def ensureAutomaticDNSReservation : FleetProg Outcome :=
  if accountOf cluster = "" ∨ cluster.uid = "" then return .failed
  else do
    match ← automaticDNSReservation name (accountOf cluster) cluster.uid with
    | .error _ => return .failed
    | .ok r =>
      if r.labels.value accountIDLabel ≠ accountOf cluster ∨
          r.labels.value claimedByClusterUIDLabel ≠ cluster.uid ∨ r.uid = "" then return .failed
      else
        match ← update (clusterKey ns name)
            { cluster with spec := { cluster.spec with dnsReservationID := r.uid } } with
        | .error .notFound => return .done
        | .error _ => return .failed
        | .ok _ => return .done

def claimConfirmationTimeout : Time := 10 * 60 * second

/-- The timeout is recorded; the state it is recorded in is answered. -/
def recordClaimTimeout : FleetProg (Except Err (Object .cluster)) :=
  retryOnConflict isConflict attempt defaultRetries
where
  attempt : FleetProg (Except Err (Object .cluster)) := do
    match ← get (clusterKey ns name) with
    | .error e => return .error e
    | .ok latest =>
      if latest.deleting then return .ok latest
      else
        updateStatus (clusterKey ns name)
          { latest with
            status :=
              { latest.status with
                conditions := setStatusCondition latest.status.conditions
                  ⟨"Degraded", true, "ClaimConfirmationTimedOut"⟩ } }

/-- `deleteClusterWithUnconfirmedClaims`. -/
def deleteClusterWithUnconfirmedClaims : FleetProg Outcome := do
  match ← recordClaimTimeout ns name with
  | .error .notFound => return .done
  | .error _ => return .failed
  | .ok latest =>
    if latest.deleting then return .done
    else
      match ← delete (clusterKey ns name) latest with
      | .ok () | .error .notFound => return .done
      | .error _ => return .failed

/-- The claims of a Cluster are not confirmed: wait, or give up after a while. -/
def awaitClaims : FleetProg Outcome :=
  if cluster.status.phase = "" ∧ !isZero cluster.creationTimestamp then do
    let t ← now
    if claimConfirmationTimeout ≤ t - cluster.creationTimestamp then
      deleteClusterWithUnconfirmedClaims ns name
    else return .requeue
  else return .requeue

/-- `persistBaseDomain`. -/
def persistBaseDomain (baseDomain : String) : FleetProg Outcome := do
  match ← updateLatestStatus (clusterKey ns name) false fun latest =>
      some { latest.status with baseDomain := baseDomain } with
  | .error _ => return .failed
  | .ok () => return .done

/-- `reconcileDNSReservation`: the domain, or where the reconcile ends. -/
def reconcileDNSReservation : FleetProg (Except Outcome String) :=
  if cluster.spec.dnsReservationID = "" then do
    return .error (← ensureAutomaticDNSReservation ns name cluster)
  else do
    match ← confirmedDNSReservation cluster with
    | .error _ => return .error .failed
    | .ok none => return .error (← awaitClaims ns name cluster)
    | .ok (some baseDomain) =>
      if cluster.status.baseDomain ≠ baseDomain then
        return .error (← persistBaseDomain ns name baseDomain)
      else return .ok baseDomain

/-- `deleteIfExpired`; none when the reconcile goes on. -/
def deleteIfExpired : FleetProg (Option Outcome) :=
  match cluster.spec.expirationTimestamp with
  | none => return none
  | some expiration => do
    let t ← now
    if isZero expiration ∨ t ≤ expiration then return none
    else
      match ← delete (clusterKey ns name) cluster with
      | .ok () | .error .notFound => return some .done
      | .error _ => return some .failed

/-! ### A placed Cluster -/

/-- The ApplyDesires of the resources. -/
def applyItems (mc : String) (spec : Resource → DesireSpec) (ms : List Resource) :
    List (DocKey × DesireSpec) := ms.map fun m => (m.applyKey mc, spec m)

/-- `CheckApplyDesireStatuses`, if there is anything to check. -/
def checkEntries (entries : List DesireStatusEntry) : FleetProg (Option Condition) :=
  if entries.isEmpty then return none
  else do return some (← checkApplyDesireStatuses entries)

def clusterFeedback (synced : Option Condition) (feedback : Option HostedClusterFeedback)
    (status : ClusterStatus) : ClusterStatus :=
  let read := (feedback.elim [] (·.conditions)).filter
    fun c => c.type == "Available" || c.type == "Degraded"
  let conditions :=
    read.foldl setStatusCondition
      (synced.elim status.conditions (setStatusCondition status.conditions))
  { status with
    conditions := conditions
    controlPlaneEndpoint :=
      (feedback.bind (·.controlPlaneEndpoint)).getD status.controlPlaneEndpoint
    version := (feedback.bind (·.version)).getD status.version
    phase :=
      if isStatusConditionTrue conditions "Available" &&
          !isStatusConditionTrue conditions "Degraded" then "Ready"
      else if status.phase = "" ∨ status.phase = "WaitingForPlacement" then "Provisioning"
      else status.phase }

/-- `updateStatusFromDynamo`. -/
def updateClusterStatusFromDynamo (entries : List DesireStatusEntry) (readKey : DocKey) :
    FleetProg Unit := do
  let readStatus ← dynamo (.getReadStatus readKey)
  let synced ← checkEntries entries
  let feedback := readStatus.toOption.bind p.readHostedCluster
  let _ ← updateLatestStatus (clusterKey ns name) true fun latest =>
    some (clusterFeedback synced feedback latest.status)
  return ()

/-- The snapshot of the HostedCluster among the resources. -/
def upsertRenderedHostedCluster (resources : List Resource) : FleetProg (Except Err Unit) :=
  match resources.find? (·.resource == "hostedclusters") with
  | none => return .ok ()
  | some m =>
    upsertRenderedResource ⟨.hostedCluster, ns, name⟩
      { labels := renderedLabels m, spec := m.object }

def applyCluster (mc : String) (cluster : Object .cluster) (resources : List Resource) :
    FleetProg Outcome := do
  let hc := hostedClusterResource cluster.uid (hostedClusterName name cluster.spec) .null
  let applied ← upsertDesires (applyItems mc (·.serverSideApply mc cluster.uid) resources)
  let read ← upsertDesire (hc.readKey mc) (hc.read mc cluster.uid)
  match read, applied with
  | .ok _, .ok entries =>
    updateClusterStatusFromDynamo p ns name entries (hc.readKey mc)
    return .requeue
  | _, _ => return .failed

/-- `reconcilePlacedCluster`. -/
def reconcilePlacedCluster (mc baseDomain : String) :
    FleetProg Outcome := do
  match ← oidcSigningKeyExternal cluster with
  | .error _ => return .failed
  | .ok external =>
    match clusterResources p name cluster external baseDomain with
    | none => return .failed
    | some resources =>
      match ← upsertRenderedHostedCluster ns name resources with
      | .error _ => return .failed
      | .ok () => applyCluster p ns name mc cluster resources

/-! ### Deletion -/

/-- The listed objects that are not being deleted are; an error ends it. -/
def deleteListed {kind : Kind} (skipDeleting : Bool) :
    List (Item kind) → FleetProg (Except Err Unit)
  | [] => return .ok ()
  | i :: is =>
    if skipDeleting && i.object.deleting then deleteListed skipDeleting is
    else do
      match ← delete i.key i.object with
      | .ok () | .error .notFound => deleteListed skipDeleting is
      | .error e => return .error e

/-- `releaseDNSReservationClaim`. -/
def releaseDNSReservationClaim (reservation : Item .dnsReservation) (clusterUID : Uid) :
    FleetProg (Except Err Unit) :=
  retryOnConflict isConflict attempt defaultRetries
where
  attempt : FleetProg (Except Err Unit) := do
    match ← get reservation.key with
    | .error e => return if e == .notFound then .ok () else .error e
    | .ok latest =>
      if latest.uid ≠ reservation.object.uid ∨
          latest.labels.value claimedByClusterUIDLabel ≠ clusterUID then return .ok ()
      else
        match ← update reservation.key
            { latest with labels := latest.labels.without claimedByClusterUIDLabel } with
        | .error e => return .error e
        | .ok _ => return .ok ()

/-- What happens to a reservation when its Cluster goes; older automatic ones have no policy. -/
def deletionPolicy (clusterUID : Uid) (r : Item .dnsReservation) : String :=
  if r.object.spec.clusterDeletionPolicy = "" ∧
      r.name = legacyAutomaticDNSReservationName name clusterUID then "Delete"
  else r.object.spec.clusterDeletionPolicy

/-- The claimed reservations are released or deleted; none when all of them were released. -/
def releaseReservations (clusterUID : Uid) :
    List (Item .dnsReservation) → FleetProg (Option Outcome)
  | [] => return none
  | r :: rs =>
    if r.object.deleting then return some .requeue
    else if deletionPolicy name clusterUID r ≠ "Delete" then do
      match ← releaseDNSReservationClaim r clusterUID with
      | .error _ => return some .failed
      | .ok () => releaseReservations clusterUID rs
    else do
      match ← delete r.key r.object with
      | .ok () | .error .notFound => return some .requeue
      | .error _ => return some .failed

/-- The claim on the OidcConfig the Cluster names is given up. -/
def releaseOidcConfig : FleetProg (Except Err Unit) :=
  if cluster.spec.oidcConfigID = "" then return .ok () else releaseOidcConfigClaim cluster

def claimedReservations :
    FleetProg (Except Err (List (Item .dnsReservation))) :=
  if cluster.uid = "" then return .ok []
  else
    list .dnsReservation
      { ns := some (accountNamespace (accountOf cluster)),
        labels := [(claimedByClusterUIDLabel, cluster.uid)] }

/-- The last part of `cleanupAndRemoveFinalizer`: nothing of the Cluster is left but its claims. -/
def releaseCluster : FleetProg Outcome := do
  match ← releaseOidcConfig cluster with
  | .error _ => return .failed
  | .ok () =>
    match ← claimedReservations cluster with
    | .error _ => return .failed
    | .ok reservations =>
      match ← releaseReservations name cluster.uid reservations with
      | some o => return o
      | none =>
        match ← removeFinalizer (clusterKey ns name) clusterFinalizer with
        | .error _ => return .failed
        | .ok () => return .done

/-- `cleanupAndRemoveFinalizer`. -/
def cleanupAndRemoveFinalizer : FleetProg Outcome := do
  let owned : Selector := { labels := [(clusterUIDLabel, cluster.uid)] }
  match ← list .nodePool owned with
  | .error _ => return .failed
  | .ok (np :: nps) =>
    match ← deleteListed true (np :: nps) with
    | .error _ => return .failed
    | .ok () => return .requeue
  | .ok [] =>
    match ← list .placement owned with
    | .error _ => return .failed
    | .ok (pl :: pls) =>
      match ← deleteListed false (pl :: pls) with
      | .error _ => return .failed
      | .ok () => return .requeue
    | .ok [] => releaseCluster ns name cluster

def finishClusterDelete : FleetProg Outcome := do
  match ← deleteRenderedResource ⟨.hostedCluster, ns, name⟩ { spec := .null } with
  | .error _ => return .failed
  | .ok () => cleanupAndRemoveFinalizer ns name cluster

/-- The desires are switched to Delete in place; when all deletions are confirmed and the NodePools
are gone, the specs are removed. -/
def withdrawCluster (mc : String) (cluster : Object .cluster) (resources : List Resource)
    (pendingNodePools : ℕ) : FleetProg Outcome := do
  match ← upsertDesires (applyItems mc (·.delete mc cluster.uid) resources) with
  | .error _ => return .failed
  | .ok entries =>
    let synced ← checkApplyDesireStatuses entries
    setClusterSyncedCondition ns name synced
    if !synced.status then return .requeue
    else if 0 < pendingNodePools then return .requeue
    else
      let hc := hostedClusterResource cluster.uid (hostedClusterName name cluster.spec) .null
      match ← deleteDesireSpecs (hc.readKey mc :: resources.map (·.applyKey mc)) with
      | .error _ => return .failed
      | .ok () => finishClusterDelete ns name cluster

/-- The management cluster of a Cluster that is being deleted, "" when it was never placed. -/
def placedOn : FleetProg String :=
  match cluster.status.placementRef with
  | some ref => return ref.managementCluster
  | none => do
    match ← get (placementKey ns name) with
    | .error _ => return ""
    | .ok placement => return placement.spec.managementCluster

/-- The deletion of a Cluster on its management cluster. -/
def deletePlacedCluster (mc : String) (cluster : Object .cluster) : FleetProg Outcome := do
  match ← list .nodePool { labels := [(clusterUIDLabel, cluster.uid)] } with
  | .error _ => return .failed
  | .ok nodePools =>
    match ← deleteListed true nodePools with
    | .error _ => return .failed
    | .ok () =>
      match ← oidcSigningKeyExternal cluster with
      | .error _ => return .failed
      | .ok external =>
        match clusterResources p name cluster external cluster.status.baseDomain with
        | none => return .failed
        | some resources => withdrawCluster ns name mc cluster resources nodePools.length

/-- `reconcileDelete`. -/
def reconcileClusterDelete : FleetProg Outcome :=
  if !cluster.finalizers.contains clusterFinalizer then return .done
  else do
    setClusterPhase ns name cluster "Deleting"
    let mc ← placedOn ns name cluster
    if mc = "" then finishClusterDelete ns name cluster
    else deletePlacedCluster p ns name mc cluster

/-- The reconcile of a Cluster whose domain is known. -/
def reconcileAssignedCluster (baseDomain : String) :
    FleetProg Outcome := do
  match ← deleteIfExpired ns name cluster with
  | some o => return o
  | none =>
    match ← get (placementKey ns name) with
    | .error .notFound => do
      setClusterPhase ns name cluster "WaitingForPlacement"
      return .requeue
    | .error _ => return .failed
    | .ok placement =>
      if placement.status.phase ≠ "Bound" then return .requeue
      else reconcilePlacedCluster p ns name cluster placement.spec.managementCluster baseDomain

/-- `ClusterReconciler.Reconcile`. -/
def reconcileCluster : FleetProg Outcome := do
  match ← get (clusterKey ns name) with
  | .error .notFound => return .done
  | .error _ => return .failed
  | .ok cluster =>
    if cluster.deleting then reconcileClusterDelete p ns name cluster
    else if !cluster.finalizers.contains clusterFinalizer then
      match ← update (clusterKey ns name)
          { cluster with finalizers := cluster.finalizers ++ [clusterFinalizer] } with
      | .error .notFound => return .done
      | .error _ => return .failed
      | .ok _ => return .done
    else
      match ← ensureHostedClusterName ns name cluster with
      | some o => return o
      | none =>
        match ← reconcileDNSReservation ns name cluster with
        | .error o => return o
        | .ok baseDomain => reconcileAssignedCluster p ns name cluster baseDomain

end

end Seaplane.Operator
