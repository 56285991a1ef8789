import Seaplane.Kube.Object

/-!
What the API server asks its authorizer: an action on a resource. The authorizer itself (the
policies, the evaluation) is not modelled; it answers as it likes.
-/

namespace Seaplane.Api

open Kube

inductive Action where
  | createCluster
  | updateCluster
  | updateClusterConfig
  | updateClusterVersion
  | deleteCluster
  | createNodePool
  | updateNodePool
  | scaleNodePool
  | updateNodePoolVersion
  | deleteNodePool
  | createOIDCConfig
  | describeOIDCConfig
  | deleteOIDCConfig
  | createDNSReservation
  | describeDNSReservation
  | deleteDNSReservation
  | labelResource
  | unlabelResource
  deriving DecidableEq, Repr

inductive ResourceKind where
  | cluster
  | nodePool
  | oidcConfig
  | dnsReservation
  deriving DecidableEq, Repr

structure ParentCluster where
  id : String
  accountID : String
  labels : StringMap
  deriving DecidableEq

/-- `authz.Resource`. -/
structure Resource where
  kind : ResourceKind
  id : String
  accountID : String
  labels : StringMap
  parentCluster : Option ParentCluster := none
  deriving DecidableEq

/-- The outcome of `Prepared.Check`; an error counts as a denial but is not one. -/
inductive Decision where
  | allowed
  | denied
  | failed
  deriving DecidableEq, Repr

/-- Creation is authorized before the store assigns a UID. -/
def candidateResource (r : Resource) (name : String) : Resource := { r with id := name }

def clusterResource (cr : Object .cluster) : Resource where
  kind := .cluster
  id := cr.uid
  accountID := cr.labels.value accountIDLabel
  labels := cr.annotations

/-- The resource of a NodePool under the parent that was read for it. -/
def nodePoolResourceOf (np : Object .nodePool) (parent : Object .cluster) : Resource where
  kind := .nodePool
  id := np.uid
  accountID := np.labels.value accountIDLabel
  labels := np.annotations
  parentCluster := some ⟨parent.uid, parent.labels.value accountIDLabel, parent.annotations⟩

/-- The account of an account namespace, or "". -/
def namespaceAccount (ns : String) : String :=
  if "account-".toList.isPrefixOf ns.toList then String.ofList (ns.toList.drop 8) else ""

def oidcConfigResource (ns : String) (oc : Object .oidcConfig) : Resource where
  kind := .oidcConfig
  id := oc.uid
  accountID := namespaceAccount ns
  labels := oc.annotations

def dnsReservationResource (ns : String) (res : Object .dnsReservation) : Resource where
  kind := .dnsReservation
  id := res.uid
  accountID := namespaceAccount ns
  labels := res.annotations

/-- The actions an update needs beyond `updateCluster`: it compares the stored spec with the
candidate to be written. -/
def clusterUpdateActions (old candidate : ClusterSpec) : List Action :=
  (if old.configuration ≠ candidate.configuration then [.updateClusterConfig] else []) ++
  if old.release ≠ candidate.release ∨
      old.controlPlaneUpgradePolicy ≠ candidate.controlPlaneUpgradePolicy
  then [.updateClusterVersion] else []

/-- The actions an update needs beyond `updateNodePool`. -/
def nodePoolUpdateActions (old candidate : NodePoolSpec) : List Action :=
  (if old.replicas ≠ candidate.replicas ∨ old.autoScaling ≠ candidate.autoScaling
   then [.scaleNodePool] else []) ++
  if old.release ≠ candidate.release then [.updateNodePoolVersion] else []

end Seaplane.Api
