import Seaplane.Lib.Json

/-!
The objects the API server and the operator keep in the store.

An object has a kind, a namespace and a name, the metadata the two programs read, and a spec and
a status of its kind. Of each spec and status the fields some modelled function reads or writes
stand by their names; `rest` holds the other fields of the spec.
-/

namespace Seaplane.Kube

open Lib

/-- Nanoseconds since the epoch. -/
abbrev Time := ℤ

abbrev Uid := String

inductive Kind where
  | cluster
  | nodePool
  | placement
  | oidcConfig
  | dnsReservation
  | index
  | managementCluster
  | manifest
  /-- The snapshot of a rendered HostedCluster. -/
  | hostedCluster
  /-- The snapshot of a rendered HyperShift NodePool. -/
  | renderedNodePool
  deriving DecidableEq, Repr

structure Key where
  kind : Kind
  ns : String
  name : String
  deriving DecidableEq, Repr

/-! ### String maps -/

/-- A Go `map[string]string`. -/
abbrev StringMap := List (String × String)

namespace StringMap

/-- `m[k]`. -/
def value (m : StringMap) (k : String) : String := (m.lookup k).getD ""

/-- `delete(m, k)`. -/
def without (m : StringMap) (k : String) : StringMap := m.filter (·.1 != k)

/-- `m[k] = v`. -/
def set (m : StringMap) (k v : String) : StringMap := (k, v) :: m.without k

/-- `maps.Equal`. -/
def equal (m n : StringMap) : Bool := (m ++ n).all fun e => m.lookup e.1 == n.lookup e.1

lemma lookup_without_ne {k k' : String} (h : k ≠ k') (m : StringMap) :
    (m.without k).lookup k' = m.lookup k' := by
  induction m with
  | nil => rfl
  | cons e m ih =>
    obtain ⟨a, b⟩ := e
    unfold without at ih ⊢
    by_cases ha : a = k
    · subst ha
      rw [List.filter_cons_of_neg (by simp), ih, List.lookup_cons,
        beq_eq_false_iff_ne.mpr (Ne.symm h)]
    · rw [List.filter_cons_of_pos (by simpa using ha), List.lookup_cons, List.lookup_cons, ih]

@[simp] lemma value_set (m : StringMap) (k v : String) : (m.set k v).value k = v := by
  simp [value, set]

lemma value_without_ne {k k' : String} (h : k ≠ k') (m : StringMap) :
    (m.without k).value k' = m.value k' := by
  rw [value, lookup_without_ne h, value]

@[simp] lemma value_without (m : StringMap) (k : String) : (m.without k).value k = "" := by
  have hnone : (m.without k).lookup k = none := by
    rw [List.lookup_eq_none_iff]
    intro e he
    have hne : e.1 ≠ k := by simpa using (List.mem_filter.mp he).2
    exact bne_iff_ne.mpr (Ne.symm hne)
  rw [value, hnone]
  rfl

end StringMap

/-! ### Specs and statuses -/

structure AWSPlatformSpec where
  terminationHandlerQueueURL : String := ""
  region : String := ""
  deriving DecidableEq

structure ClusterSpec where
  accountID : String := ""
  hostedClusterName : String := ""
  dnsReservationID : String := ""
  oidcConfigID : String := ""
  issuerURL : String := ""
  additionalTrustBundle : Option String := none
  expirationTimestamp : Option Time := none
  controlPlaneUpgradePolicy : Json := .null
  /-- `hostedCluster.configuration`. -/
  configuration : Json := .null
  /-- `hostedCluster.release`. -/
  release : Json := .null
  /-- `hostedCluster.platform.aws`. -/
  aws : Option AWSPlatformSpec := none
  tags : StringMap := []
  rest : Json := .null
  deriving DecidableEq

structure NodePoolSpec where
  accountID : String := ""
  /-- `nodePool.clusterName`. -/
  clusterName : String := ""
  /-- `nodePool.replicas`. -/
  replicas : Option ℤ := none
  /-- `nodePool.autoScaling`. -/
  autoScaling : Json := .null
  /-- `nodePool.release`. -/
  release : Json := .null
  tags : StringMap := []
  rest : Json := .null
  deriving DecidableEq

structure PlacementSpec where
  clusterName : String := ""
  managementCluster : String := ""
  deriving DecidableEq

structure OidcConfigSpec where
  type : String := ""
  issuerUrl : String := ""
  secretArn : String := ""
  installerRoleArn : String := ""
  accountID : String := ""
  deriving DecidableEq

structure DNSReservationSpec where
  clusterDeletionPolicy : String := ""
  deriving DecidableEq

structure ResourceTemplate where
  resource : String
  content : Json
  watch : Bool := false
  deriving DecidableEq

structure ManifestSpec where
  managementCluster : String
  resources : List ResourceTemplate
  deriving DecidableEq

def ManifestSpec.watched (s : ManifestSpec) : List ResourceTemplate := s.resources.filter (·.watch)

def ResourceTemplate.json (t : ResourceTemplate) : Json :=
  .obj ([("resource", .str t.resource), ("content", t.content)] ++
    if t.watch then [("watch", .bool true)] else [])

def ManifestSpec.json (s : ManifestSpec) : Json :=
  .obj [("managementCluster", .str s.managementCluster),
    ("resources", .arr (s.resources.map ResourceTemplate.json))]

structure Condition where
  type : String
  status : Bool
  reason : String
  deriving DecidableEq

/-- `meta.SetStatusCondition`. -/
def setStatusCondition (cs : List Condition) (c : Condition) : List Condition :=
  if cs.any (·.type == c.type) then cs.map fun d => if d.type = c.type then c else d
  else cs ++ [c]

/-- `meta.RemoveStatusCondition`. -/
def removeStatusCondition (cs : List Condition) (type : String) : List Condition :=
  cs.filter (·.type != type)

/-- `meta.IsStatusConditionTrue`. -/
def isStatusConditionTrue (cs : List Condition) (type : String) : Bool :=
  (cs.find? (·.type == type)).any (·.status)

structure PlacementReference where
  name : String
  managementCluster : String
  deriving DecidableEq

structure ClusterStatus where
  phase : String := ""
  placementRef : Option PlacementReference := none
  baseDomain : String := ""
  conditions : List Condition := []
  controlPlaneEndpoint : Json := .null
  version : String := ""
  deriving DecidableEq

structure NodePoolStatus where
  phase : String := ""
  conditions : List Condition := []
  replicas : Option ℤ := none
  deriving DecidableEq

structure PlacementStatus where
  phase : String := ""
  conditions : List Condition := []
  deriving DecidableEq

structure OidcConfigStatus where
  conditions : List Condition := []
  phase : String := ""
  thumbprint : String := ""
  lastUsedTimestamp : Option Time := none
  deriving DecidableEq

structure DNSReservationStatus where
  phase : String := ""
  baseDomain : String := ""
  internalHostedClusterName : String := ""
  conditions : List Condition := []
  deriving DecidableEq

inductive ManifestPhase where
  | unset
  | syncing
  | applied
  | deleting
  deriving DecidableEq

structure ResourceStatus where
  resource : String
  name : String
  ns : String
  group : String
  version : String
  status : Json
  deriving DecidableEq

structure ManifestStatus where
  conditions : List Condition := []
  phase : ManifestPhase := .unset
  appliedResources : ℕ := 0
  observedGeneration : ℕ := 0
  resourceStatuses : List ResourceStatus := []
  deriving DecidableEq

/-- The type of an object's `spec`. -/
abbrev Spec : Kind → Type
  | .cluster => ClusterSpec
  | .nodePool => NodePoolSpec
  | .placement => PlacementSpec
  | .oidcConfig => OidcConfigSpec
  | .dnsReservation => DNSReservationSpec
  | .manifest => ManifestSpec
  | .index | .managementCluster => Unit
  | .hostedCluster | .renderedNodePool => Json

/-- The type of an object's `status`. -/
abbrev Status : Kind → Type
  | .cluster => ClusterStatus
  | .nodePool => NodePoolStatus
  | .placement => PlacementStatus
  | .oidcConfig => OidcConfigStatus
  | .dnsReservation => DNSReservationStatus
  | .manifest => ManifestStatus
  | .index | .managementCluster | .hostedCluster | .renderedNodePool => Unit

instance instDecidableEqSpec : (kind : Kind) → DecidableEq (Spec kind)
  | .cluster => inferInstanceAs (DecidableEq ClusterSpec)
  | .nodePool => inferInstanceAs (DecidableEq NodePoolSpec)
  | .placement => inferInstanceAs (DecidableEq PlacementSpec)
  | .oidcConfig => inferInstanceAs (DecidableEq OidcConfigSpec)
  | .dnsReservation => inferInstanceAs (DecidableEq DNSReservationSpec)
  | .manifest => inferInstanceAs (DecidableEq ManifestSpec)
  | .index | .managementCluster => inferInstanceAs (DecidableEq Unit)
  | .hostedCluster | .renderedNodePool => inferInstanceAs (DecidableEq Json)

instance instDecidableEqStatus : (kind : Kind) → DecidableEq (Status kind)
  | .cluster => inferInstanceAs (DecidableEq ClusterStatus)
  | .nodePool => inferInstanceAs (DecidableEq NodePoolStatus)
  | .placement => inferInstanceAs (DecidableEq PlacementStatus)
  | .oidcConfig => inferInstanceAs (DecidableEq OidcConfigStatus)
  | .dnsReservation => inferInstanceAs (DecidableEq DNSReservationStatus)
  | .manifest => inferInstanceAs (DecidableEq ManifestStatus)
  | .index | .managementCluster | .hostedCluster | .renderedNodePool =>
    inferInstanceAs (DecidableEq Unit)

/-- What a new object of the kind has for a status. -/
def Status.empty : (kind : Kind) → Status kind
  | .cluster => {}
  | .nodePool => {}
  | .placement => {}
  | .oidcConfig => {}
  | .dnsReservation => {}
  | .manifest => {}
  | .index | .managementCluster | .hostedCluster | .renderedNodePool => ()

/-! ### Objects -/

/-- The owner reference with `controller: true`, as `metav1.GetControllerOf` returns it. -/
structure OwnerReference where
  kind : String
  name : String
  uid : Uid
  deriving DecidableEq

/-- An object as a client holds it: what it read, or what it is about to write. -/
structure Object (kind : Kind) where
  /-- Empty before the store has assigned one. -/
  uid : Uid := ""
  /-- Zero before the store has assigned one. -/
  resourceVersion : ℕ := 0
  /-- Counts the specs of a Manifest; it is read of no other kind. -/
  generation : ℕ := 0
  labels : StringMap := []
  annotations : StringMap := []
  controller : Option OwnerReference := none
  finalizers : List String := []
  /-- The deletion timestamp is set. -/
  deleting : Bool := false
  creationTimestamp : Time := 0
  spec : Spec kind
  status : Status kind := Status.empty kind
  deriving DecidableEq

/-- An object of a list, with its namespace and name. -/
structure Item (kind : Kind) where
  ns : String
  name : String
  object : Object kind

def Item.key {kind : Kind} (i : Item kind) : Key := ⟨kind, i.ns, i.name⟩

def accountIDLabel : String := "seaplane.io/account-id"
def clusterUIDLabel : String := "seaplane.io/cluster-uid"
def claimedByClusterUIDLabel : String := "seaplane.io/claimed-by-cluster-uid"
def ownerUIDLabel : String := "seaplane.io/owner-uid"

def accountNamespace (accountID : String) : String := "account-" ++ accountID

/-- `strings.Cut(name, ".")`, none without a dot. -/
def cutDot (name : String) : Option (String × String) :=
  match name.toList.span (· != '.') with
  | (_, []) => none
  | (a, _ :: b) => some (String.ofList a, String.ofList b)

end Seaplane.Kube
