import Seaplane.Api.Client

/-!
The handlers that change existing objects: updates of Clusters and NodePools, label patches and
deletes of Clusters, NodePools, OidcConfigs and DNSReservations.

An attempt at an update reads the object, asks the authorizer, computes the candidate, asks the
authorizer again with the actions the change needs, and writes; after a conflict the whole attempt
is made again.
-/

namespace Seaplane.Api

open Kube Fleet
open Lib (Json)

/-- The error responses, by their names in the source. -/
inductive APIError where
  | clusterUpdateInvalidBody
  | clusterUpdateMissingFields
  | clusterUpdateNotFound
  | clusterUpdateFailed
  | clusterUpdateInvalidSpec
  | clusterUpdateConflict
  | clusterValidation
  | clusterDeleteNotFound
  | clusterDeleteFailed
  | nodePoolUpdateInvalidBody
  | nodePoolUpdateMissingFields
  | nodePoolUpdateNotFound
  | nodePoolUpdateFailed
  | nodePoolUpdateInvalidSpec
  | nodePoolUpdateConflict
  | nodePoolValidation
  | nodePoolDeleteNotFound
  | nodePoolDeleteFailed
  | oidcConfigCreateMissingFields
  | oidcConfigCreateInvalidName
  | oidcConfigCreateInvalidType
  | oidcConfigCreateInvalidFields
  | oidcConfigCreateIssuerNotConfigured
  | oidcConfigCreateInvalidIssuerUrl
  | oidcConfigCreateDuplicateIssuerUrl
  | oidcConfigCreateNameConflict
  | oidcConfigCreateFailed
  | oidcConfigDeleteNotFound
  | oidcConfigDeleteFailed
  | oidcConfigDeleteInUse
  | dnsReservationCreateMissingName
  | dnsReservationCreateInvalidName
  | dnsReservationCreateNameConflict
  | dnsReservationCreateFailed
  | dnsReservationDeleteNotFound
  | dnsReservationDeleteFailed
  | dnsReservationDeleteClaimed
  | clusterCreateNameCheck
  | clusterCreateNameConflict
  | clusterCreateFailed
  | clusterCreateDNSReservationNotFound
  | clusterCreateDNSReservationNotReady
  | clusterCreateDNSReservationInUse
  | clusterCreateOidcConfigNotFound
  | clusterCreateOidcConfigNotReady
  | clusterCreateOidcConfigInUse
  | clusterCreateOidcConfigLookupFailed
  | nodePoolCreateInvalidName
  | nodePoolCreateClusterNotFound
  | nodePoolCreateClusterCheck
  | nodePoolCreateClusterDeleting
  | nodePoolCreateNameConflict
  | nodePoolCreateFailed
  | labelBody
  | labelSyntax
  | labelLimit
  | labelNotFound
  | labelFailed
  | resourceConflict
  deriving DecidableEq, Repr

inductive Response where
  | status (code : ℕ)
  | error (e : APIError)
  /-- `writeAuthzDenied`. -/
  | denied (a : Action)
  /-- `writeResourceAuthzError`. -/
  | authzError
  deriving DecidableEq, Repr

/-- Why an attempt ends without a result: its response is written, or the caller may retry. -/
inductive Stop where
  | responded (r : Response)
  | conflict
  deriving DecidableEq

def Stop.isConflict : Stop → Bool
  | .responded _ => false
  | .conflict => true

def respond {α : Type} (e : APIError) : FleetProg (Except Stop α) :=
  return .error (.responded (.error e))

/-! ### Authorization -/

/-- The authorizer must allow every action on the resource. -/
def authorizeAll (resource : Resource) : List Action → FleetProg (Except Response Unit)
  | [] => return .ok ()
  | a :: as => do
    match ← check a resource with
    | .allowed => authorizeAll resource as
    | .denied => return .error (.denied a)
    | .failed => return .error .authzError

def authorizeResource (operation : Action) (resource : Resource) (additional : List Action) :
    FleetProg (Except Response Unit) := authorizeAll resource (operation :: additional)

/-- The resource of a NodePool; a pool without its current owned parent reads as not found. -/
def nodePoolResource (account : String) (np : Object .nodePool) :
    FleetProg (Except Err Resource) :=
  match np.controller with
  | none => return .error .notFound
  | some owner =>
    if owner.kind ≠ "Cluster" ∨ owner.uid = "" ∨ np.labels.value clusterUIDLabel ≠ owner.uid then
      return .error .notFound
    else do
      match ← get (clusterKey account owner.name) with
      | .error e => return .error e
      | .ok parent =>
        if parent.uid ≠ owner.uid then return .error .notFound
        else return .ok (nodePoolResourceOf np parent)

/-- `authorizeNodePool` on a pool that was loaded. -/
def authorizeNodePool (account : String) (operation : Action) (notFound : APIError)
    (np : Object .nodePool) (additional : List Action) : FleetProg (Except Response Unit) := do
  match ← nodePoolResource account np with
  | .error .notFound => return .error (.error notFound)
  | .error _ => return .error .authzError
  | .ok resource => authorizeResource operation resource additional

/-! ### Updates -/

def supplied (spec : Json) (field : String) : Bool :=
  match spec with
  | .obj ms => ms.any (·.1 == field)
  | _ => false

/-- `rawSpec` has no member. -/
def emptySpec : Json → Bool
  | .obj [] | .null => true
  | _ => false

def isObject : Json → Bool
  | .obj _ | .null => true
  | _ => false

/-- `strings.HasPrefix(name, cluster + ".")`. -/
def isChildName (cluster name : String) : Bool := (cluster ++ ".").toList.isPrefixOf name.toList

section

variable (p : Params) (account name : String)

def validateUpdatedClusterTags (cluster : Object .cluster) : FleetProg (Except APIError Unit) :=
  if !p.validateCustomerAWSTags cluster.spec.tags ||
      !p.validateClusterAWSTagBudget cluster.spec.tags
  then return .error .clusterValidation
  else do
    match ← listNodePools account cluster.uid with
    | .error _ => return .error .clusterUpdateFailed
    | .ok nodePools =>
      if nodePools.all fun np =>
          (np.object.spec.clusterName != name && !isChildName name np.name) ||
            p.validateNodePoolAWSTagBudget cluster.spec.tags np.object.spec.tags
      then return .ok ()
      else return .error .clusterValidation

/-- The tags are looked at when the request supplies them. -/
def checkClusterTags (spec : Json) (candidate : Object .cluster) :
    FleetProg (Except APIError Unit) :=
  if supplied spec "tags" then validateUpdatedClusterTags p account name candidate
  else return .ok ()

def terminationHandlerQueue (spec : ClusterSpec) : String × String :=
  match spec.aws with
  | none => ("", "")
  | some aws => (aws.terminationHandlerQueueURL, aws.region)

/-- The queues of the account's other Clusters. -/
def terminationHandlerQueueURLs (clusters : List (Item .cluster)) (excludeName : String) :
    List String :=
  clusters.filterMap fun c =>
    if excludeName ≠ "" ∧ c.name = excludeName then none
    else if (terminationHandlerQueue c.object.spec).1 = "" then none
    else some (terminationHandlerQueue c.object.spec).1

/-- An update that changes the queue reserves the new one. -/
def claimChangedQueue (old candidate : ClusterSpec) : FleetProg (Except APIError Unit) :=
  let (queueURL, region) := terminationHandlerQueue candidate
  if terminationHandlerQueue old ≠ (queueURL, region) ∧ queueURL ≠ "" then do
    match ← listClusters account with
    | .error _ => return .error .clusterUpdateFailed
    | .ok existing =>
      if !p.validateQueueURL queueURL region (terminationHandlerQueueURLs existing name) then
        return .error .clusterValidation
      else
        match ← claimSpotTerminationQueue p account queueURL name 5 with
        | .error .alreadyExists => return .error .clusterValidation
        | .error _ => return .error .clusterUpdateFailed
        | .ok _ => return .ok ()
  else return .ok ()

/-- `ClusterHandler.updateOnce`. -/
def updateClusterOnce (p : Params) (account name : String) (spec : Json) :
    FleetProg (Except Stop (Object .cluster)) := do
  match ← get (clusterKey account name) with
  | .error .notFound => respond .clusterUpdateNotFound
  | .error _ => respond .clusterUpdateFailed
  | .ok cr =>
    -- authorized before validation, so that a caller without the right learns no field details
    match ← authorizeResource .updateCluster (clusterResource cr) [] with
    | .error r => return .error (.responded r)
    | .ok () =>
      if !p.validateClusterUpdate spec cr.spec then respond .clusterValidation
      else
        match p.mergeClusterSpec cr.spec spec with
        | none => respond .clusterUpdateInvalidSpec
        | some merged =>
          match p.preserveClusterSpec merged cr.spec with
          | none => respond .clusterUpdateFailed
          | some preserved => writeCandidate cr { cr with spec := preserved }
where
  /-- The second half: the candidate is known. -/
  writeCandidate (cr candidate : Object .cluster) : FleetProg (Except Stop (Object .cluster)) := do
    match ← authorizeResource .updateCluster (clusterResource cr)
        (clusterUpdateActions cr.spec candidate.spec) with
    | .error r => return .error (.responded r)
    | .ok () =>
      match ← checkClusterTags p account name spec candidate with
      | .error e => respond e
      | .ok () =>
        match ← claimChangedQueue p account name cr.spec candidate.spec with
        | .error e => respond e
        | .ok () =>
          match ← updateOwned account (clusterKey account name) candidate with
          | .error .conflict => return .error .conflict
          | .error .notFound => respond .clusterUpdateNotFound
          | .error _ => respond .clusterUpdateFailed
          | .ok updated => return .ok updated

/-- The response of an update after its last attempt. -/
def answer {α : Type} (conflict : APIError) : Except Stop α → Response
  | .ok _ => .status 200
  | .error (.responded r) => r
  | .error .conflict => .error conflict

/-- `ClusterHandler.Update`. -/
def updateCluster (spec : Option Json) : FleetProg Response :=
  match spec with
  | none => return .error .clusterUpdateMissingFields
  | some spec =>
    if !isObject spec then return .error .clusterUpdateInvalidBody
    else if emptySpec spec then return .error .clusterUpdateMissingFields
    else do
      return answer .clusterUpdateConflict
        (← retryOnConflict Stop.isConflict (updateClusterOnce p account name spec) defaultRetries)

/-- `ParseNodePoolName`: exactly one dot, and DNS labels around it. -/
def parseNodePoolName : Option (String × String) :=
  (cutDot name).filter fun ab =>
    !ab.2.toList.contains '.' && p.isDNS1123Label ab.1 && p.isDNS1123Label ab.2

/-- The pool's tags, and its budget under the tags of its parent. -/
def validateUpdatedNodePoolTags (np : Object .nodePool) : FleetProg (Except APIError Unit) :=
  if !p.validateCustomerAWSTags np.spec.tags then return .error .nodePoolValidation
  else
    let parentName := (parseNodePoolName p name).map (·.1)
    match if np.spec.clusterName = "" then parentName else some np.spec.clusterName with
    | none => return .error .nodePoolValidation
    | some clusterName => do
      match ← get (clusterKey account clusterName) with
      | .error .notFound => return .error .nodePoolValidation
      | .error _ => return .error .nodePoolUpdateFailed
      | .ok cluster =>
        if p.validateNodePoolAWSTagBudget cluster.spec.tags np.spec.tags then return .ok ()
        else return .error .nodePoolValidation

def checkNodePoolTags (spec : Json) (candidate : Object .nodePool) :
    FleetProg (Except APIError Unit) :=
  if supplied spec "tags" then validateUpdatedNodePoolTags p account name candidate
  else return .ok ()

/-- `NodePoolHandler.updateOnce`. -/
def updateNodePoolOnce (p : Params) (account name : String) (spec : Json) :
    FleetProg (Except Stop (Object .nodePool)) := do
  match ← get (nodePoolKey account name) with
  | .error .notFound => respond .nodePoolUpdateNotFound
  | .error _ => respond .nodePoolUpdateFailed
  | .ok cr =>
    match ← authorizeNodePool account .updateNodePool .nodePoolUpdateNotFound cr [] with
    | .error r => return .error (.responded r)
    | .ok () =>
      if !p.validateNodePoolUpdate spec cr.spec then respond .nodePoolValidation
      else
        match p.mergeNodePoolSpec cr.spec spec with
        | none => respond .nodePoolUpdateInvalidSpec
        | some merged =>
          match p.preserveNodePoolSpec merged cr.spec with
          | none => respond .nodePoolUpdateFailed
          | some preserved => writeCandidate cr { cr with spec := preserved }
where
  writeCandidate (cr candidate : Object .nodePool) :
      FleetProg (Except Stop (Object .nodePool)) := do
    match ← authorizeNodePool account .updateNodePool .nodePoolUpdateNotFound cr
        (nodePoolUpdateActions cr.spec candidate.spec) with
    | .error r => return .error (.responded r)
    | .ok () =>
      match ← checkNodePoolTags p account name spec candidate with
      | .error e => respond e
      | .ok () =>
        match ← updateOwned account (nodePoolKey account name) candidate with
        | .error .conflict => return .error .conflict
        | .error .notFound => respond .nodePoolUpdateNotFound
        | .error _ => respond .nodePoolUpdateFailed
        | .ok updated => return .ok updated

/-- `NodePoolHandler.Update`. -/
def updateNodePool (spec : Option Json) : FleetProg Response :=
  match spec with
  | none => return .error .nodePoolUpdateInvalidBody
  | some spec =>
    if !isObject spec then return .error .nodePoolUpdateInvalidBody
    else if emptySpec spec then return .error .nodePoolUpdateMissingFields
    else do
      return answer .nodePoolUpdateConflict
        (← retryOnConflict Stop.isConflict (updateNodePoolOnce p account name spec) defaultRetries)

/-! ### Label patches -/

/-- The kinds whose objects have labels and deletes of their own. -/
inductive Served where
  | cluster
  | nodePool
  | oidcConfig
  | dnsReservation
  deriving DecidableEq, Repr

abbrev Served.kind : Served → Kind
  | .cluster => .cluster
  | .nodePool => .nodePool
  | .oidcConfig => .oidcConfig
  | .dnsReservation => .dnsReservation

abbrev Served.key (t : Served) (account name : String) : Key :=
  ⟨t.kind, accountNamespace account, name⟩

def loadResource : (t : Served) → Object t.kind → FleetProg (Except Err Resource)
  | .cluster, o => return .ok (clusterResource o)
  | .nodePool, o => nodePoolResource account o
  | .oidcConfig, o => return .ok (oidcConfigResource (accountNamespace account) o)
  | .dnsReservation, o => return .ok (dnsReservationResource (accountNamespace account) o)

/-- A patch maps keys to new values or to null. -/
abbrev Patch := List (String × Option String)

def applyLabelPatch (stored : StringMap) (patch : Patch) : StringMap :=
  patch.foldl (fun m e => match e.2 with
    | none => m.without e.1
    | some v => m.set e.1 v) stored

def Patch.sets (patch : Patch) : Bool := patch.any (·.2.isSome)
def Patch.removes (patch : Patch) : Bool := patch.any (·.2.isNone)

/-- The base action of a patch and what it needs besides. -/
def Patch.actions (patch : Patch) : Action × List Action :=
  (if patch.sets then .labelResource else .unlabelResource,
    if patch.sets && patch.removes then [.unlabelResource] else [])

def maxCustomerLabels : ℕ := 50

/-- One attempt of `resourceLabels`; `uid` is what an earlier attempt has found, or "". The UID
found goes on to the next attempt. -/
def labelOnce (t : Served) (patch : Patch) (uid : Uid) : FleetProg (Except Stop Unit × Uid) := do
  match ← get (t.key account name) with
  | .error .notFound =>
    let e : APIError := if uid = "" then .labelNotFound else .resourceConflict
    return (.error (.responded (.error e)), uid)
  | .error _ => return (.error (.responded (.error .labelFailed)), uid)
  | .ok obj =>
    if uid ≠ "" ∧ obj.uid ≠ uid then return (.error (.responded (.error .resourceConflict)), uid)
    else
      match ← loadResource account t obj with
      | .error .notFound => return (.error (.responded (.error .labelNotFound)), obj.uid)
      | .error _ => return (.error (.responded .authzError), obj.uid)
      | .ok snapshot =>
        match ← authorizeResource patch.actions.1 snapshot patch.actions.2 with
        | .error r => return (.error (.responded r), obj.uid)
        | .ok () =>
          let tags := applyLabelPatch obj.annotations patch
          if tags.equal obj.annotations then return (.ok (), obj.uid)
          else if maxCustomerLabels < tags.length then
            return (.error (.responded (.error .labelLimit)), obj.uid)
          else
            match ← updateOwned account (t.key account name) { obj with annotations := tags } with
            | .ok _ => return (.ok (), obj.uid)
            | .error .conflict => return (.error .conflict, obj.uid)
            | .error .notFound => return (.error (.responded (.error .resourceConflict)), obj.uid)
            | .error _ => return (.error (.responded (.error .labelFailed)), obj.uid)

/-- The attempts of `resourceLabels`. -/
def labelAttempts (account name : String) (t : Served) (patch : Patch) :
    ℕ → Uid → FleetProg (Except Stop Unit)
  | 0, uid => do return (← labelOnce account name t patch uid).1
  | n + 1, uid => do
    match ← labelOnce account name t patch uid with
    | (.error .conflict, uid) => labelAttempts account name t patch n uid
    | (r, _) => return r

/-- `resourceLabels` on a PATCH. -/
def resourceLabels (t : Served) (patch : Patch) : FleetProg Response :=
  if patch.isEmpty then return .error .labelBody
  else if !patch.all fun e => p.isValidLabel e.1 e.2 then return .error .labelSyntax
  else do
    match ← labelAttempts account name t patch defaultRetries "" with
    | .ok () => return .status 204
    | .error (.responded r) => return r
    | .error .conflict => return .error .resourceConflict

/-! ### Deletes -/

/-- `ClusterHandler.Delete`. -/
def deleteCluster : FleetProg Response := do
  match ← get (clusterKey account name) with
  | .error .notFound => return .error .clusterDeleteNotFound
  | .error _ => return .error .clusterDeleteFailed
  | .ok cr =>
    match ← authorizeResource .deleteCluster (clusterResource cr) [] with
    | .error r => return r
    | .ok () =>
      match ← deleteOwned account (clusterKey account name) cr with
      | .ok () => return .status 202
      | .error .conflict => return .error .resourceConflict
      | .error .notFound => return .error .clusterDeleteNotFound
      | .error _ => return .error .clusterDeleteFailed

/-- `NodePoolHandler.Delete`. -/
def deleteNodePool : FleetProg Response := do
  match ← get (nodePoolKey account name) with
  | .error .notFound => return .error .nodePoolDeleteNotFound
  | .error _ => return .error .nodePoolDeleteFailed
  | .ok cr =>
    match ← authorizeNodePool account .deleteNodePool .nodePoolDeleteNotFound cr [] with
    | .error r => return r
    | .ok () =>
      match ← deleteOwned account (nodePoolKey account name) cr with
      | .ok () => return .status 202
      | .error .conflict => return .error .resourceConflict
      | .error .notFound => return .error .nodePoolDeleteNotFound
      | .error _ => return .error .nodePoolDeleteFailed

/-- `OidcConfigHandler.Delete`: a config that a Cluster has claimed stays. -/
def deleteOidcConfig : FleetProg Response := do
  match ← get (Served.oidcConfig.key account name) with
  | .error .notFound => return .error .oidcConfigDeleteNotFound
  | .error _ => return .error .oidcConfigDeleteFailed
  | .ok oc =>
    match ← authorizeResource .deleteOIDCConfig
        (oidcConfigResource (accountNamespace account) oc) [] with
    | .error r => return r
    | .ok () =>
      if oc.labels.value claimedByClusterUIDLabel ≠ "" then return .error .oidcConfigDeleteInUse
      else
        match ← deleteOwned account (Served.oidcConfig.key account name) oc with
        | .ok () => return .status 202
        | .error .notFound => return .error .oidcConfigDeleteNotFound
        | .error .conflict => return .error .oidcConfigDeleteInUse
        | .error _ => return .error .oidcConfigDeleteFailed

/-- One attempt of `DNSReservationHandler.Delete`. -/
def deleteDNSReservationOnce : FleetProg (Except Stop Unit) := do
  match ← get (Served.dnsReservation.key account name) with
  | .error .notFound => respond .dnsReservationDeleteNotFound
  | .error _ => respond .dnsReservationDeleteFailed
  | .ok reservation =>
    match ← authorizeResource .deleteDNSReservation
        (dnsReservationResource (accountNamespace account) reservation) [] with
    | .error r => return .error (.responded r)
    | .ok () =>
      if reservation.labels.value claimedByClusterUIDLabel ≠ "" then
        respond .dnsReservationDeleteClaimed
      else
        match ← delete (Served.dnsReservation.key account name) reservation with
        | .ok () => return .ok ()
        | .error .conflict => return .error .conflict
        | .error .notFound => respond .dnsReservationDeleteNotFound
        | .error _ => respond .dnsReservationDeleteFailed

/-- `DNSReservationHandler.Delete`. -/
def deleteDNSReservation : FleetProg Response := do
  match ← retryOnConflict Stop.isConflict (deleteDNSReservationOnce account name)
      defaultRetries with
  | .ok () => return .status 202
  | .error (.responded r) => return r
  | .error .conflict => return .error .dnsReservationDeleteFailed

end

/-! ### Requests -/

/-- The requests that change an existing object. -/
inductive Request where
  | updateCluster (account name : String) (spec : Option Json)
  | updateNodePool (account name : String) (spec : Option Json)
  | label (account name : String) (t : Served) (patch : Patch)
  | delete (account name : String) (t : Served)
  deriving DecidableEq

def Request.code (p : Params) : Request → FleetProg Response
  | .updateCluster account name spec => Api.updateCluster p account name spec
  | .updateNodePool account name spec => Api.updateNodePool p account name spec
  | .label account name t patch => resourceLabels p account name t patch
  | .delete account name .cluster => deleteCluster account name
  | .delete account name .nodePool => deleteNodePool account name
  | .delete account name .oidcConfig => deleteOidcConfig account name
  | .delete account name .dnsReservation => deleteDNSReservation account name

end Seaplane.Api
