import Seaplane.Operator.Desires

/-!
The resources the operator wants on a management cluster, and what its controllers share: the
documents of a resource, status writes on the latest state of an object, finalizers, and the
snapshots of rendered resources.

What a rendered resource contains is a parameter; its name, its kind and its presence are not.
-/

namespace Seaplane.Operator

open Lib Kube Fleet Dynamo

/-- What `updateStatusFromDynamo` takes from a HostedCluster that was read back. -/
structure HostedClusterFeedback where
  conditions : List Condition
  controlPlaneEndpoint : Option Json
  version : Option String

structure NodePoolFeedback where
  conditions : List Condition
  replicas : Option ℤ

/-- The contents of the rendered resources, the decoding of what is read back, and what else the
controllers compute without a look at the store. -/
structure Params where
  /-- The HostedCluster of a Cluster; none when its spec cannot be converted. -/
  hostedCluster : String → Object .cluster → Bool → String → Option Json
  /-- Another resource of a Cluster, by its name. -/
  clusterContent : String → Object .cluster → String → Json
  /-- The HyperShift NodePool; none when its spec cannot be converted. -/
  nodePool : String → Object .nodePool → Object .cluster → Option Json
  readHostedCluster : Json → Option HostedClusterFeedback
  readNodePool : Json → Option NodePoolFeedback
  /-- `IssuerURLIndexName`, the digest of the URL. -/
  issuerURLIndexName : String → String
  /-- `ValidateRSAPrivateKey` finds nothing wrong. -/
  validateRSAPrivateKey : String → Bool
  baseDomainSuffix : String

/-! ### Rendering -/

structure Resource where
  group : String
  version : String
  resource : String
  name : String
  ns : String
  object : Json

def Resource.reference (m : Resource) : ResourceReference :=
  ⟨m.group, m.version, m.resource, m.ns, m.name⟩

def taskKey : String := "seaplane-operator"

def Resource.documentID (task : String) (m : Resource) : DocumentID :=
  ⟨task, m.group, m.version, m.resource, m.ns, m.name⟩

/-- The document of a resource's ApplyDesire. -/
def Resource.applyKey (mc : String) (m : Resource) : DocKey :=
  ⟨mc, .applyDesires, m.documentID taskKey⟩

def Resource.readKey (mc : String) (m : Resource) : DocKey :=
  ⟨mc, .readDesires, m.documentID (taskKey ++ "-read")⟩

def Resource.serverSideApply (mc clusterID : String) (m : Resource) : DesireSpec :=
  .apply ⟨.serverSideApply, mc, clusterID, m.reference, some m.object⟩

def Resource.delete (mc clusterID : String) (m : Resource) : DesireSpec :=
  .apply ⟨.delete, mc, clusterID, m.reference, none⟩

def Resource.read (mc clusterID : String) (m : Resource) : DesireSpec :=
  .read ⟨mc, clusterID, m.reference⟩

def hostedClusterNamePending : String := "uid-pending"

/-- `HostedClusterName`: the name the platform has assigned, or the Cluster's own. -/
def hostedClusterName (name : String) (spec : ClusterSpec) : String :=
  if spec.hostedClusterName ≠ "" ∧ spec.hostedClusterName ≠ hostedClusterNamePending then
    spec.hostedClusterName
  else name

def managementNamespace (clusterUID : String) : String := "cluster-" ++ clusterUID

def hostedClusterResource (uid hcName : String) (object : Json) : Resource :=
  ⟨"hypershift.openshift.io", "v1beta1", "hostedclusters", hcName, managementNamespace uid, object⟩

/-- `ClusterResources`. -/
def clusterResources (p : Params) (name : String) (cluster : Object .cluster)
    (oidcSigningKeyExternal : Bool) (baseDomain : String) : Option (List Resource) :=
  let ns := managementNamespace cluster.uid
  let hcName := hostedClusterName name cluster.spec
  if cluster.uid = "" ∨ hcName = "" then none
  else
    (p.hostedCluster name cluster oidcSigningKeyExternal baseDomain).map fun hc =>
      let content (n : String) := p.clusterContent n cluster baseDomain
      [⟨"", "v1", "namespaces", ns, "", content ns⟩,
       ⟨"", "v1", "configmaps", "cluster-config", ns, content "cluster-config"⟩,
       ⟨"external-secrets.io", "v1", "externalsecrets", "pull-secret", ns, content "pull-secret"⟩,
       ⟨"cert-manager.io", "v1", "certificates", "api-serving-cert", ns,
         content "api-serving-cert"⟩,
       hostedClusterResource cluster.uid hcName hc,
       ⟨"", "v1", "secrets", "ssh-key", ns, content "ssh-key"⟩] ++
      (if cluster.spec.additionalTrustBundle.isSome then
        [⟨"", "v1", "configmaps", "additional-trust-bundle", ns,
          content "additional-trust-bundle"⟩] else []) ++
      (if oidcSigningKeyExternal then
        [⟨"external-secrets.io", "v1", "externalsecrets", "oidc-signing-key", ns,
          content "oidc-signing-key"⟩] else [])

/-- The child's part of a NodePool name `<cluster>.<child>`. -/
def childName (clusterName poolName : String) : Option String :=
  ((cutDot poolName).filter fun ab =>
    ab.1 == clusterName && ab.2 != "" && !ab.2.toList.contains '.').map (·.2)

/-- The HyperShift NodePool of a Cluster as a resource. -/
def nodePoolResourceNamed (uid child : String) (object : Json) : Resource :=
  ⟨"hypershift.openshift.io", "v1beta1", "nodepools", child, managementNamespace uid, object⟩

/-- `NodePoolResource`. -/
def nodePoolResource (p : Params) (poolName : String) (np : Object .nodePool)
    (clusterName : String) (cluster : Object .cluster) : Option Resource :=
  if cluster.uid = "" ∨ hostedClusterName clusterName cluster.spec = "" then none
  else
    (childName clusterName poolName).bind fun child =>
      (p.nodePool child np cluster).map (nodePoolResourceNamed cluster.uid child)

/-! ### What the controllers share -/

inductive Outcome where
  | done
  | requeue
  | failed
  deriving DecidableEq, Repr

def isConflict (e : Err) : Bool := e == .conflict

/-- Write a status computed from the latest state of an object, again after a conflict. Nothing is
written when the function returns none. -/
def updateLatestStatus (k : Key) (ignoreMissing : Bool)
    (f : Object k.kind → Option (Status k.kind)) : FleetProg (Except Err Unit) :=
  retryOnConflict isConflict attempt defaultRetries
where
  attempt : FleetProg (Except Err Unit) := do
    match ← get k with
    | .error e => return if ignoreMissing && e == .notFound then .ok () else .error e
    | .ok latest =>
      match f latest with
      | none => return .ok ()
      | some status =>
        match ← updateStatus k { latest with status := status } with
        | .error e => return .error e
        | .ok _ => return .ok ()

/-- Remove a finalizer from the latest state of an object, again after a conflict. -/
def removeFinalizer (k : Key) (finalizer : String) : FleetProg (Except Err Unit) :=
  retryOnConflict isConflict attempt defaultRetries
where
  attempt : FleetProg (Except Err Unit) := do
    match ← get k with
    | .error e => return if e == .notFound then .ok () else .error e
    | .ok latest =>
      if latest.finalizers.contains finalizer then
        match ← update k
            { latest with finalizers := latest.finalizers.filter (· != finalizer) } with
        | .error e => return .error e
        | .ok _ => return .ok ()
      else return .ok ()

/-- `upsertRenderedResource` under the given key. -/
def upsertRenderedResource (k : Key) (snapshot : Object k.kind) :
    FleetProg (Except Err Unit) := do
  match ← get k with
  | .error .notFound =>
    match ← create k snapshot with
    | .error e => return .error e
    | .ok _ => return .ok ()
  | .error e => return .error e
  | .ok current =>
    match ← update k
        { snapshot with uid := current.uid, resourceVersion := current.resourceVersion } with
    | .error e => return .error e
    | .ok _ => return .ok ()

/-- The labels of a snapshot say where the resource itself goes. -/
def renderedLabels (m : Resource) : StringMap :=
  [("seaplane.io/rendered-namespace", m.ns), ("seaplane.io/rendered-name", m.name)]

/-- `deleteRenderedResource`: by name, whatever version is stored. -/
def deleteRenderedResource (k : Key) (named : Object k.kind) : FleetProg (Except Err Unit) := do
  match ← delete k named with
  | .error .notFound => return .ok ()
  | r => return r

end Seaplane.Operator
