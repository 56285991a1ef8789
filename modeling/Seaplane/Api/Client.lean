import Seaplane.Fleet.System

/-!
The API server's store client: reads and writes in the namespace of the caller's account.

What these functions and the handlers compute from a request body or from a spec alone, without a
look at the store, is a parameter of the model.
-/

namespace Seaplane.Api

open Kube Fleet
open Lib (Json)

/-- What is computed from a request or a spec alone. The checks say that nothing was found. -/
structure Params where
  /-- A time in `time.RFC3339Nano`. -/
  formatTime : Time → String
  parseTime : String → Option Time
  spotTerminationQueueIndexName : String → String → String
  /-- `FieldValidator.ValidateUpdate` on Clusters. -/
  validateClusterUpdate : Json → ClusterSpec → Bool
  /-- `MergeSpecJSON` on Clusters. -/
  mergeClusterSpec : ClusterSpec → Json → Option ClusterSpec
  /-- `FieldValidator.PreserveServiceSet` on Clusters: the candidate, then the stored spec. -/
  preserveClusterSpec : ClusterSpec → ClusterSpec → Option ClusterSpec
  /-- `FieldValidator.ValidateUpdate` on NodePools, with `validateNodePoolReplicas`. -/
  validateNodePoolUpdate : Json → NodePoolSpec → Bool
  mergeNodePoolSpec : NodePoolSpec → Json → Option NodePoolSpec
  preserveNodePoolSpec : NodePoolSpec → NodePoolSpec → Option NodePoolSpec
  validateCustomerAWSTags : StringMap → Bool
  validateClusterAWSTagBudget : StringMap → Bool
  validateNodePoolAWSTagBudget : StringMap → StringMap → Bool
  /-- `ValidateSpotTerminationHandlerQueueURL`: the URL, its region and the URLs in use. -/
  validateQueueURL : String → String → List String → Bool
  /-- `isValidLabel`. -/
  isValidLabel : String → Option String → Bool
  /-- Each component of a NodePool name is a DNS label. -/
  isDNS1123Label : String → Bool
  /-- `defaultClusterExpiration`, none when it is not positive. -/
  defaultClusterExpiration : Option Time
  /-- The issuer URL under `oidcIssuerBaseURL`, none without one. -/
  managedIssuerURL : Option (Uid → String)
  /-- `normalizeIssuerURL`, none when the URL is not valid. -/
  normalizeIssuerURL : String → Option String
  issuerURLIndexName : String → String

/-- Checks that find nothing, and bodies that are the new release. -/
def Params.lenient : Params where
  formatTime _ := ""
  parseTime _ := none
  spotTerminationQueueIndexName _ url := url
  validateClusterUpdate _ _ := true
  mergeClusterSpec spec body := some { spec with release := body }
  preserveClusterSpec candidate _ := some candidate
  validateNodePoolUpdate _ _ := true
  mergeNodePoolSpec spec body := some { spec with release := body }
  preserveNodePoolSpec candidate _ := some candidate
  validateCustomerAWSTags _ := true
  validateClusterAWSTagBudget _ := true
  validateNodePoolAWSTagBudget _ _ := true
  validateQueueURL _ _ _ := true
  isValidLabel _ _ := true
  isDNS1123Label _ := true
  defaultClusterExpiration := none
  managedIssuerURL := some ("https://oidc/" ++ ·)
  normalizeIssuerURL := some
  issuerURLIndexName := id

abbrev clusterKey (account name : String) : Key := ⟨.cluster, accountNamespace account, name⟩
abbrev nodePoolKey (account name : String) : Key := ⟨.nodePool, accountNamespace account, name⟩

/-- A snapshot that a write may carry: it has a version, and it is the caller's. -/
def validateOwnedSnapshot {kind : Kind} (account ns name : String) (o : Object kind) : Bool :=
  0 < o.resourceVersion && account != "" && ns == accountNamespace account && name != "" &&
    (o.labels.lookup accountIDLabel).all (· == account)

/-- `UpdateCluster`, `UpdateNodePool`, `UpdateDNSReservation`, `UpdateOidcConfigObject`. -/
def updateOwned (account : String) (k : Key) (o : Object k.kind) :
    FleetProg (Except Err (Object k.kind)) :=
  if validateOwnedSnapshot account k.ns k.name o then update k o else return .error .other

/-- `DeleteClusterObject`, `DeleteNodePoolObject`, `DeleteOidcConfigObject`. -/
def deleteOwned (account : String) (k : Key) (o : Object k.kind) : FleetProg (Except Err Unit) :=
  if validateOwnedSnapshot account k.ns k.name o then delete k o else return .error .other

def listClusters (account : String) : FleetProg (Except Err (List (Item .cluster))) :=
  list .cluster { ns := some (accountNamespace account) }

def listNodePools (account clusterUID : String) : FleetProg (Except Err (List (Item .nodePool))) :=
  list .nodePool
    { ns := some (accountNamespace account),
      labels := if clusterUID = "" then [] else [(clusterUIDLabel, clusterUID)] }

/-- The first object of a kind with a UID in the account. -/
def getByUID (kind : Kind) (account uid : String) : FleetProg (Except Err (Item kind)) := do
  match ← list kind { ns := some (accountNamespace account), uid := some uid } with
  | .error e => return .error e
  | .ok [] => return .error .notFound
  | .ok (i :: _) => return .ok i

/-! ### Reservations of Spot termination queues -/

def queueReservationsNamespace : String := "spot-termination-queue-reservations"
abbrev queueKey (name : String) : Key := ⟨.index, queueReservationsNamespace, name⟩
def queueOwnerLabel : String := "seaplane.io/spot-termination-queue-owner"
def queueClaimedAt : String := "seaplane.io/spot-termination-queue-claimed-at"

def spotQueueOwnerKey (clusterName : String) : String := "cluster-" ++ clusterName

/-- The Cluster an owner label names; none when it has another form. -/
def spotQueueOwnerName (label : String) : Option String :=
  if "cluster-".toList.isPrefixOf label.toList then
    let name := String.ofList (label.toList.drop 8)
    if name = "" then none else some name
  else none

def clusterUsesSpotTerminationQueue (c : Object .cluster) (queueURL : String) : Bool :=
  c.spec.aws.any (·.terminationHandlerQueueURL == queueURL)

def spotQueueClaimTimeout : Time := 10 * 60 * 1000000000

def spotQueueClaimExpired (p : Params) (i : Object .index) : FleetProg Bool :=
  match p.parseTime (i.annotations.value queueClaimedAt) with
  | none => return false
  | some claimedAt => do
    let t ← now
    return decide (t - claimedAt > spotQueueClaimTimeout)

/-- A claim that was never followed by a Cluster is removed after a while. -/
def reclaimSpotTerminationQueue (k : Key) (existing : Object k.kind)
    (expired : FleetProg Bool) : FleetProg (Option (Except Err Bool)) := do
  if ← expired then
    match ← delete k existing with
    | .ok () | .error .notFound | .error .conflict => return none
    | .error e => return some (.error e)
  else return some (.error .alreadyExists)

/-- One round of `ClaimSpotTerminationQueue`; none when the loop goes on. -/
def claimSpotTerminationQueueRound (p : Params) (account queueURL clusterName : String) :
    FleetProg (Option (Except Err Bool)) := do
  let k := queueKey (p.spotTerminationQueueIndexName account queueURL)
  let t ← now
  let reservation : Object .index :=
    { labels := [(queueOwnerLabel, spotQueueOwnerKey clusterName)],
      annotations := [(queueClaimedAt, p.formatTime t)], spec := () }
  match ← create k reservation with
  | .ok _ => return some (.ok true)
  | .error .alreadyExists =>
    match ← get k with
    | .error .notFound => return none
    | .error e => return some (.error e)
    | .ok existing =>
      if existing.labels.value queueOwnerLabel = spotQueueOwnerKey clusterName then do
        let t ← now
        match ← update k
            { existing with
              annotations := existing.annotations.set queueClaimedAt (p.formatTime t) } with
        | .error .conflict => return none
        | .error e => return some (.error e)
        | .ok _ => return some (.ok false)
      else
        match spotQueueOwnerName (existing.labels.value queueOwnerLabel) with
        | none => return some (.error .alreadyExists)
        | some ownerName =>
          match ← get (clusterKey account ownerName) with
          | .ok owner =>
            if clusterUsesSpotTerminationQueue owner queueURL then
              return some (.error .alreadyExists)
            else reclaimSpotTerminationQueue k existing (spotQueueClaimExpired p existing)
          | .error .notFound =>
            reclaimSpotTerminationQueue k existing (spotQueueClaimExpired p existing)
          | .error e => return some (.error e)
  | .error e => return some (.error e)

/-- Reserve a queue for a Cluster; the answer says whether this call created the reservation. -/
def claimSpotTerminationQueue (p : Params) (account queueURL clusterName : String) :
    ℕ → FleetProg (Except Err Bool)
  -- every round that goes on has met an existing reservation
  | 0 => return .error .alreadyExists
  | n + 1 => do
    match ← claimSpotTerminationQueueRound p account queueURL clusterName with
    | some r => return r
    | none => claimSpotTerminationQueue p account queueURL clusterName n

/-- Give up a reservation that the Cluster still owns and does not use. -/
def releaseSpotTerminationQueue (p : Params) (account queueURL clusterName : String) :
    FleetProg (Except Err Unit) := do
  let k := queueKey (p.spotTerminationQueueIndexName account queueURL)
  match ← get k with
  | .error .notFound => return .ok ()
  | .error e => return .error e
  | .ok reservation =>
    if reservation.labels.value queueOwnerLabel ≠ spotQueueOwnerKey clusterName then
      return .error .other
    else
      match ← get (clusterKey account clusterName) with
      | .ok owner =>
        if clusterUsesSpotTerminationQueue owner queueURL then return .ok () else drop k reservation
      | .error .notFound => drop k reservation
      | .error e => return .error e
where
  drop (k : Key) (reservation : Object k.kind) : FleetProg (Except Err Unit) := do
    match ← delete k reservation with
    | .error .notFound => return .ok ()
    | r => return r

end Seaplane.Api
