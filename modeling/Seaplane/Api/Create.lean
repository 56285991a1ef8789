import Seaplane.Api.Handlers

/-!
The handlers that create Clusters, NodePools, OidcConfigs and DNSReservations.

The requests are those whose body has been decoded; those for Clusters and NodePools have also
passed the checks of their fields.
-/

namespace Seaplane.Api

open Kube Fleet
open Lib (Json)

def clusterCleanupFinalizer : String := "seaplane.io/cluster"

section

variable (p : Params) (account name : String) (annotations : StringMap)

def customerAnnotations : StringMap :=
  annotations.filter fun e => !"seaplane.io/".toList.isPrefixOf e.1.toList

/-- The error of `validateCreateLabels`. -/
def validateCreateLabels (labels : StringMap) : Option APIError :=
  if !(customerAnnotations labels).all (fun e => p.isValidLabel e.1 (some e.2)) then
    some .labelSyntax
  else if maxCustomerLabels < (customerAnnotations labels).length then some .labelLimit
  else none

/-- A create candidate is in the caller's account. -/
def validateOwnedCandidate {kind : Kind} (account ns : String) (o : Object kind)
    (specAccountID : String) : Bool :=
  account != "" && ns == accountNamespace account && o.labels.value accountIDLabel == account &&
    (specAccountID == "" || specAccountID == account)

/-! ### Claims of a new Cluster -/

/-- A resource that Clusters claim: its kind, whether it is ready, and its errors. -/
structure Claimable where
  kind : Kind
  ready : Object kind → Bool
  notFound : APIError
  notReady : APIError
  inUse : APIError
  lookupFailed : APIError

def dnsReservationReady (r : Object .dnsReservation) : Bool :=
  !r.deleting && r.status.phase == "Ready" && r.status.baseDomain != "" &&
    r.status.internalHostedClusterName != ""

def oidcConfigUsable (oc : Object .oidcConfig) : Bool :=
  oc.status.phase != "Error" && (oc.spec.type != "unmanaged" || oc.status.phase == "Ready")

def claimableDNSReservation : Claimable where
  kind := .dnsReservation
  ready := dnsReservationReady
  notFound := .clusterCreateDNSReservationNotFound
  notReady := .clusterCreateDNSReservationNotReady
  inUse := .clusterCreateDNSReservationInUse
  lookupFailed := .clusterCreateFailed

def claimableOidcConfig : Claimable where
  kind := .oidcConfig
  ready := oidcConfigUsable
  notFound := .clusterCreateOidcConfigNotFound
  notReady := .clusterCreateOidcConfigNotReady
  inUse := .clusterCreateOidcConfigInUse
  lookupFailed := .clusterCreateOidcConfigLookupFailed

/-- `resolveDNSReservation` and `resolveOidcConfig`; none when nothing is referred to. -/
def resolve (c : Claimable) (account uid : String) :
    FleetProg (Except APIError (Option (Item c.kind))) :=
  if uid = "" then return .ok none
  else do
    match ← getByUID c.kind account uid with
    | .error .notFound => return .error c.notFound
    | .error _ => return .error c.lookupFailed
    | .ok i =>
      if i.object.uid ≠ uid then return .error c.notFound
      else if !c.ready i.object then return .error c.notReady
      else if i.object.labels.value claimedByClusterUIDLabel ≠ "" then return .error c.inUse
      else return .ok (some i)

/-- One attempt of `claimResource`: none when the claim holds. -/
def claimOnce (c : Claimable) (account uid : String) (clusterUID : Uid) :
    FleetProg (Except Err (Option APIError)) := do
  match ← getByUID c.kind account uid with
  | .error .notFound => return .ok (some c.notFound)
  | .error e => return .error e
  | .ok i =>
    let claimedBy := i.object.labels.value claimedByClusterUIDLabel
    if i.object.uid ≠ uid then return .ok (some c.notFound)
    else if claimedBy = clusterUID then return .ok none
    else if claimedBy ≠ "" then return .ok (some c.inUse)
    else if !c.ready i.object then return .ok (some c.notReady)
    else
      match ← updateOwned account i.key
          { i.object with labels := i.object.labels.set claimedByClusterUIDLabel clusterUID } with
      | .error e => return .error e
      | .ok _ => return .ok none

/-- `claimDNSReservation` and `claimOidcConfig`. -/
def claimResource (c : Claimable) (account uid : String) (clusterUID : Uid) :
    FleetProg (Option APIError) := do
  match ← retryOnConflict (· == Err.conflict) (claimOnce c account uid clusterUID)
      defaultRetries with
  | .error _ => return some c.lookupFailed
  | .ok r => return r

/-- The claim of what a Cluster refers to, if it does. -/
def claimReference (c : Claimable) (account : String) (clusterUID : Uid) :
    Option (Item c.kind) → FleetProg (Option APIError)
  | none => return none
  | some i => claimResource c account i.object.uid clusterUID

/-- `UpdateOidcConfigLastUsedTimestamp`. -/
def updateOidcConfigLastUsedTimestamp (uid : String) : FleetProg Unit := do
  let t ← now
  match ← getByUID .oidcConfig account uid with
  | .error _ => return ()
  | .ok i =>
    let _ ← updateStatus i.key
      { i.object with status := { i.object.status with lastUsedTimestamp := some t } }
    return ()

/-! ### Clusters -/

/-- `updateManagedIssuerURL`. -/
def updateManagedIssuerURL (account name : String) (clusterUID : Uid) (issuerURL : String) :
    FleetProg (Except Err Unit) :=
  retryOnConflict (· == Err.conflict) attempt defaultRetries
where
  attempt : FleetProg (Except Err Unit) := do
    match ← get (clusterKey account name) with
    | .error e => return .error e
    | .ok cluster =>
      if cluster.uid ≠ clusterUID then return .error .other
      else
        match ← updateOwned account (clusterKey account name)
            { cluster with spec := { cluster.spec with issuerURL := issuerURL } } with
        | .error e => return .error e
        | .ok _ => return .ok ()

/-- `deleteClusterForCleanup`. -/
def deleteClusterForCleanup (account name : String) (clusterUID : Uid) : FleetProg Unit := do
  let _ ← retryOnConflict (· == Err.conflict) attempt defaultRetries
  return ()
where
  attempt : FleetProg (Except Err Unit) := do
    match ← get (clusterKey account name) with
    | .error e => return if e == .notFound then .ok () else .error e
    | .ok current =>
      if current.uid ≠ clusterUID then return .ok ()
      else deleteOwned account (clusterKey account name) current

/-- A managed issuer URL is set when the Cluster has no OidcConfig. -/
def setManagedIssuerURL (clusterUID : Uid) (oidcConfig : Option (Item .oidcConfig)) :
    FleetProg (Except Err Unit) :=
  match oidcConfig, p.managedIssuerURL with
  | none, some issuerURL => updateManagedIssuerURL account name clusterUID (issuerURL clusterUID)
  | _, _ => return .ok ()

/-- `completeClusterCreate`; an error leaves the Cluster marked for deletion. -/
def completeClusterCreate (p : Params) (account name : String) (cluster : Object .cluster)
    (reservation : Option (Item .dnsReservation)) (oidcConfig : Option (Item .oidcConfig)) :
    FleetProg (Option APIError) := do
  match ← setManagedIssuerURL p account name cluster.uid oidcConfig with
  | .error _ => giveUp .clusterCreateFailed
  | .ok () =>
    match ← claimReference claimableDNSReservation account cluster.uid reservation with
    | some e => giveUp e
    | none =>
      match ← claimReference claimableOidcConfig account cluster.uid oidcConfig with
      | some e => giveUp e
      | none =>
        markUsed
        let _ ← get (clusterKey account name)
        return none
where
  giveUp (e : APIError) : FleetProg (Option APIError) := do
    deleteClusterForCleanup account name cluster.uid
    return some e
  markUsed : FleetProg Unit :=
    match oidcConfig with
    | none => return ()
    | some i => updateOidcConfigLastUsedTimestamp account i.object.uid

/-- `authorizeReferences`. -/
def authorizeReferences (account : String) (reservation : Option (Item .dnsReservation))
    (oidcConfig : Option (Item .oidcConfig)) : FleetProg (Except Response Unit) := do
  match ← reference (reservation.map fun i =>
      (.describeDNSReservation, dnsReservationResource (accountNamespace account) i.object)) with
  | .error r => return .error r
  | .ok () =>
    reference (oidcConfig.map fun i =>
      (.describeOIDCConfig, oidcConfigResource (accountNamespace account) i.object))
where
  reference : Option (Action × Resource) → FleetProg (Except Response Unit)
    | none => return .ok ()
    | some (a, r) => authorizeResource a r []

/-- The queue of a new Cluster is checked against those in use. -/
def checkRequestedQueue (spec : ClusterSpec) : FleetProg (Except APIError Unit) :=
  if (terminationHandlerQueue spec).1 = "" then return .ok ()
  else do
    match ← listClusters account with
    | .error _ => return .error .clusterCreateNameCheck
    | .ok existing =>
      if p.validateQueueURL (terminationHandlerQueue spec).1 (terminationHandlerQueue spec).2
          (terminationHandlerQueueURLs existing "")
      then return .ok ()
      else return .error .clusterValidation

/-- The queue of a new Cluster is reserved; the answer says whether a reservation was created. -/
def claimRequestedQueue (spec : ClusterSpec) : FleetProg (Except APIError Bool) :=
  if (terminationHandlerQueue spec).1 = "" then return .ok false
  else do
    match ← claimSpotTerminationQueue p account (terminationHandlerQueue spec).1 name 5 with
    | .error .alreadyExists => return .error .clusterValidation
    | .error _ => return .error .clusterCreateFailed
    | .ok created => return .ok created

/-- The reservation is given up when the creation fails. -/
def releaseRequestedQueue (spec : ClusterSpec) (created : Bool) : FleetProg Unit :=
  if created then do
    let _ ← releaseSpotTerminationQueue p account (terminationHandlerQueue spec).1 name
    return ()
  else return ()

/-- The expiration of a new Cluster, with the default. -/
def defaultExpiration (spec : ClusterSpec) : FleetProg (Option Time) :=
  match p.defaultClusterExpiration, spec.expirationTimestamp with
  | some d, none => do return some ((← now) + d)
  | _, e => return e

def newCluster (spec : ClusterSpec) (expiration : Option Time)
    (reservation : Option (Item .dnsReservation)) (oidcConfig : Option (Item .oidcConfig)) :
    Object .cluster where
  labels := [(accountIDLabel, account)]
  annotations := customerAnnotations annotations
  finalizers := [clusterCleanupFinalizer]
  spec :=
    { spec with
      accountID := account
      expirationTimestamp := expiration
      hostedClusterName := reservation.elim name (·.object.status.internalHostedClusterName)
      issuerURL := oidcConfig.elim spec.issuerURL (·.object.spec.issuerUrl) }

/-- `ClusterHandler.Create`, from the reservation of the queue on. -/
def storeCluster (cr : Object .cluster) (reservation : Option (Item .dnsReservation))
    (oidcConfig : Option (Item .oidcConfig)) : FleetProg Response := do
  match ← claimRequestedQueue p account name cr.spec with
  | .error e => return .error e
  | .ok created =>
    if !validateOwnedCandidate account (accountNamespace account) cr cr.spec.accountID then do
      releaseRequestedQueue p account name cr.spec created
      return .error .clusterCreateFailed
    else
      match ← create (clusterKey account name) cr with
      | .error e => do
        releaseRequestedQueue p account name cr.spec created
        return .error
          (if e == .alreadyExists then .clusterCreateNameConflict else .clusterCreateFailed)
      | .ok stored =>
        match ← completeClusterCreate p account name stored reservation oidcConfig with
        | some e => do
          releaseRequestedQueue p account name cr.spec created
          return .error e
        | none => return .status 201

/-- `ClusterHandler.Create`. -/
def createCluster (spec : ClusterSpec) : FleetProg Response :=
  match validateCreateLabels p annotations with
  | some e => return .error e
  | none => do
    let candidate : Object .cluster :=
      { labels := [(accountIDLabel, account)], annotations := customerAnnotations annotations,
        spec := spec }
    match ← authorizeResource .createCluster
        (candidateResource (clusterResource candidate) name) [] with
    | .error r => return r
    | .ok () =>
      match ← resolve claimableDNSReservation account spec.dnsReservationID with
      | .error e => return .error e
      | .ok reservation =>
        match ← resolve claimableOidcConfig account spec.oidcConfigID with
        | .error e => return .error e
        | .ok oidcConfig =>
          match ← authorizeReferences account reservation oidcConfig with
          | .error r => return r
          | .ok () =>
            match ← checkRequestedQueue p account spec with
            | .error e => return .error e
            | .ok () => do
              let expiration ← defaultExpiration p spec
              storeCluster p account name
                (newCluster account name annotations spec expiration reservation oidcConfig)
                reservation oidcConfig

/-! ### NodePools -/

/-- The NodePool to be stored, under the parent that was read. -/
def newNodePool (clusterName : String) (cluster : Object .cluster) (annotations : StringMap)
    (spec : NodePoolSpec) : Object .nodePool where
  labels := [(clusterUIDLabel, cluster.uid), (accountIDLabel, account)]
  annotations := customerAnnotations annotations
  controller := some ⟨"Cluster", clusterName, cluster.uid⟩
  spec := { spec with accountID := account, clusterName := clusterName }

/-- `requireOwnedCluster`. -/
def requireOwnedCluster (np : Object .nodePool) : FleetProg (Except Err Unit) :=
  match np.controller with
  | none => return .error .notFound
  | some parent =>
    if parent.kind ≠ "Cluster" ∨ parent.uid = "" ∨ np.labels.value clusterUIDLabel ≠ parent.uid then
      return .error .notFound
    else do
      match ← get (clusterKey account parent.name) with
      | .error e => return .error e
      | .ok cluster =>
        if cluster.uid ≠ parent.uid then return .error .notFound else return .ok ()

/-- `CreateNodePool`. -/
def storeNodePool (np : Object .nodePool) : FleetProg (Except Err Unit) :=
  if !validateOwnedCandidate account (accountNamespace account) np np.spec.accountID then
    return .error .other
  else do
    match ← requireOwnedCluster account np with
    | .error e => return .error e
    | .ok () =>
      match ← create (nodePoolKey account name) np with
      | .error e => return .error e
      | .ok _ => return .ok ()

/-- `authorizeNodePool` on a pool that is not stored yet. -/
def authorizeNodePoolCreate (np : Object .nodePool) : FleetProg (Except Response Unit) := do
  match ← nodePoolResource account np with
  | .error _ => return .error .authzError
  | .ok resource => authorizeResource .createNodePool (candidateResource resource name) []

/-- `NodePoolHandler.Create`. -/
def createNodePool (spec : NodePoolSpec) : FleetProg Response :=
  match parseNodePoolName p name with
  | none => return .error .nodePoolCreateInvalidName
  | some (clusterName, _) => do
    match ← get (clusterKey account clusterName) with
    | .error .notFound => return .error .nodePoolCreateClusterNotFound
    | .error _ => return .error .nodePoolCreateClusterCheck
    | .ok cluster =>
      if cluster.deleting then return .error .nodePoolCreateClusterDeleting
      else if !p.validateNodePoolAWSTagBudget cluster.spec.tags spec.tags then
        return .error .nodePoolValidation
      else
        match validateCreateLabels p annotations with
        | some e => return .error e
        | none =>
          let np := newNodePool account clusterName cluster annotations spec
          match ← authorizeNodePoolCreate account name np with
          | .error r => return r
          | .ok () =>
            match ← storeNodePool account name np with
            | .error .alreadyExists => return .error .nodePoolCreateNameConflict
            | .error _ => return .error .nodePoolCreateFailed
            | .ok () => return .status 201

/-! ### OidcConfigs and DNSReservations -/

/-- A part of a DNS name: letters, digits and hyphens, no hyphen at either end. -/
def isDNS1123Part (part : List Char) : Bool :=
  let alphanumeric (c : Char) := ('a' ≤ c && c ≤ 'z') || ('0' ≤ c && c ≤ '9')
  part.head?.any alphanumeric && part.getLast?.any alphanumeric &&
    part.all fun c => alphanumeric c || c == '-'

/-- `ValidateResourceName`: a DNS subdomain. -/
def validateResourceName : Bool :=
  name.length ≤ 253 && (name.toList.splitOn '.').all isDNS1123Part

/-- The fields of an OidcConfig that a customer writes. -/
structure OidcConfigBody where
  type : String
  issuerUrl : String := ""
  secretArn : String := ""
  installerRoleArn : String := ""
  deriving DecidableEq

/-- The checks of the fields; an error, or the issuer URL as it is written. -/
def checkOidcConfigBody (body : OidcConfigBody) (issuerID : String) : Except APIError String :=
  if body.type = "" then .error .oidcConfigCreateMissingFields
  else if body.type ≠ "managed" ∧ body.type ≠ "unmanaged" then .error .oidcConfigCreateInvalidType
  else if body.type = "managed" ∧ (body.secretArn ≠ "" ∨ body.installerRoleArn ≠ "") then
    .error .oidcConfigCreateInvalidFields
  else if body.type = "unmanaged" ∧
      (body.secretArn = "" ∨ body.installerRoleArn = "" ∨ body.issuerUrl = "") then
    .error .oidcConfigCreateInvalidFields
  else
    match if body.type = "managed" then p.managedIssuerURL.map (· issuerID)
        else some body.issuerUrl with
    | none => .error .oidcConfigCreateIssuerNotConfigured
    | some url =>
      match p.normalizeIssuerURL url with
      | none => .error .oidcConfigCreateInvalidIssuerUrl
      | some url => .ok url

def newOidcConfig (body : OidcConfigBody) (issuerUrl : String) : Object .oidcConfig where
  labels := [(accountIDLabel, account)]
  annotations := customerAnnotations annotations
  spec :=
    { type := body.type, issuerUrl := issuerUrl, secretArn := body.secretArn,
      installerRoleArn := body.installerRoleArn, accountID := account }

/-- `CreateOidcConfig` and its response. -/
def storeOidcConfig (cr : Object .oidcConfig) : FleetProg Response :=
  if !validateOwnedCandidate account (accountNamespace account) cr "" then
    return .error .oidcConfigCreateFailed
  else do
    match ← create (Served.oidcConfig.key account name) cr with
    | .error .alreadyExists => return .error .oidcConfigCreateNameConflict
    | .error _ => return .error .oidcConfigCreateFailed
    | .ok _ => return .status 201

/-- `OidcConfigHandler.Create`; `issuerID` is the identifier it generates. -/
def createOidcConfig (body : OidcConfigBody) (issuerID : String) : FleetProg Response :=
  if name = "" then return .error .oidcConfigCreateMissingFields
  else if !validateResourceName name then return .error .oidcConfigCreateInvalidName
  else
    match checkOidcConfigBody p body issuerID with
    | .error e => return .error e
    | .ok issuerUrl =>
      match validateCreateLabels p annotations with
      | some e => return .error e
      | none => do
        let cr := newOidcConfig account annotations body issuerUrl
        match ← authorizeResource .createOIDCConfig
            (candidateResource (oidcConfigResource (accountNamespace account) cr) name) [] with
        | .error r => return r
        | .ok () =>
          -- an early answer; the operator's Index decides
          match ← get ⟨.index, "oidc-issuer-reservations", p.issuerURLIndexName issuerUrl⟩ with
          | .ok _ => return .error .oidcConfigCreateDuplicateIssuerUrl
          | .error _ => storeOidcConfig account name cr

def newDNSReservation : Object .dnsReservation where
  labels := [(accountIDLabel, account)]
  annotations := customerAnnotations annotations
  spec := {}
  status := { phase := "Pending" }

/-- `CreateDNSReservation` and its response. -/
def storeDNSReservation (reservation : Object .dnsReservation) : FleetProg Response :=
  if !validateOwnedCandidate account (accountNamespace account) reservation "" then
    return .error .dnsReservationCreateFailed
  else do
    match ← create (Served.dnsReservation.key account name) reservation with
    | .error .alreadyExists => return .error .dnsReservationCreateNameConflict
    | .error _ => return .error .dnsReservationCreateFailed
    | .ok _ => return .status 201

/-- `DNSReservationHandler.Create`. -/
def createDNSReservation : FleetProg Response :=
  if name = "" then return .error .dnsReservationCreateMissingName
  else if !validateResourceName name then return .error .dnsReservationCreateInvalidName
  else
    match validateCreateLabels p annotations with
    | some e => return .error e
    | none => do
      let reservation := newDNSReservation account annotations
      match ← authorizeResource .createDNSReservation
          (candidateResource (dnsReservationResource (accountNamespace account) reservation) name)
          [] with
      | .error r => return r
      | .ok () => storeDNSReservation account name reservation

end

end Seaplane.Api
