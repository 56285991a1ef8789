import Seaplane.Operator.Render

/-!
The DNSReservation controller.

A reservation owns an Index of the DNS shard: its label is the reservation's UID, and its name is
the first label of the reservation's base domain.
-/

namespace Seaplane.Operator

open Lib Kube Fleet

def dnsReservationFinalizer : String := "seaplane.io/dnsreservation"

def defaultDNSShard : String := "0"

def dnsShardNamespace (shard : String) : String := "dns-shard-" ++ shard ++ "-reservations"

abbrev dnsIndexKey (indexName : String) : Key :=
  ⟨.index, dnsShardNamespace defaultDNSShard, indexName⟩

/-- The base domain of a reservation that owns the Index. -/
def baseDomainOf (p : Params) (indexName : String) : String :=
  indexName ++ "." ++ defaultDNSShard ++ "." ++ p.baseDomainSuffix

/-! ### Indexes -/

/-- `listOwnedIndexes`. -/
def listOwnedIndexes (uid : Uid) : FleetProg (Except Err (List (Item .index))) :=
  list .index { labels := [(ownerUIDLabel, uid)] }

/-- The Indexes of the shard among those listed; the owned ones of other namespaces are deleted. -/
def dropMisplaced (uid : Uid) : List (Item .index) → FleetProg (Except Err (List (Item .index)))
  | [] => return .ok []
  | i :: is =>
    if i.object.labels.value ownerUIDLabel ≠ uid then dropMisplaced uid is
    else if i.ns ≠ dnsShardNamespace defaultDNSShard then do
      match ← delete i.key i.object with
      | .ok () | .error .notFound => dropMisplaced uid is
      | .error e => return .error e
    else do
      match ← dropMisplaced uid is with
      | .error e => return .error e
      | .ok expected => return .ok (i :: expected)

def firstByName : List (Item .index) → Option (Item .index)
  | [] => none
  | i :: is =>
    match firstByName is with
    | none => some i
    | some j => if j.name < i.name then some j else some i

/-- `recoverOwnedIndex`. -/
def recoverOwnedIndex (uid : Uid) : FleetProg (Except Err (Option (Item .index))) := do
  match ← listOwnedIndexes uid with
  | .error e => return .error e
  | .ok items =>
    match ← dropMisplaced uid items with
    | .error e => return .error e
    | .ok expected => return .ok (firstByName expected)

def recoverCreated (uid : Uid) : FleetProg (Except Unit (Option (Item .index))) := do
  match ← recoverOwnedIndex uid with
  | .error _ => return .error ()
  | .ok none => return .error ()
  | .ok (some i) => return .ok (some i)

/-- The attempts of `allocateIndex`; none when every prefix was taken. -/
def allocateAttempts (accountID : String) (uid : Uid) :
    ℕ → FleetProg (Except Unit (Option (Item .index)))
  | 0 => return .ok none
  | n + 1 => do
    match ← infra .randomDNSPrefix with
    | .error _ => return .error ()
    | .ok generated =>
      match ← create (dnsIndexKey generated)
          { labels := [(accountIDLabel, accountID), (ownerUIDLabel, uid)], spec := () } with
      | .ok _ => recoverCreated uid
      | .error .alreadyExists =>
        match ← get (dnsIndexKey generated) with
        | .error _ => return .error ()
        | .ok existing =>
          if existing.labels.value ownerUIDLabel ≠ uid then allocateAttempts accountID uid n
          else recoverCreated uid
      | .error _ => return .error ()

/-- `allocateIndex`. -/
def allocateIndex (reservation : Object .dnsReservation) :
    FleetProg (Except Unit (Option (Item .index))) :=
  let accountID := reservation.labels.value accountIDLabel
  if accountID = "" then return .error () else allocateAttempts accountID reservation.uid 5

/-- Owned Indexes other than one are deleted; an error ends it. -/
def deleteOwnedIndexes (uid : Uid) (spared : Item .index → Bool) :
    List (Item .index) → FleetProg (Except Err Unit)
  | [] => return .ok ()
  | i :: is =>
    if i.object.labels.value ownerUIDLabel ≠ uid ∨ spared i then deleteOwnedIndexes uid spared is
    else do
      match ← delete i.key i.object with
      | .ok () | .error .notFound => deleteOwnedIndexes uid spared is
      | .error e => return .error e

/-- `deleteDuplicateOwnedIndexes`. -/
def deleteDuplicateOwnedIndexes (uid : Uid) (canonical : Item .index) :
    FleetProg (Except Err Unit) := do
  match ← listOwnedIndexes uid with
  | .error e => return .error e
  | .ok items =>
    deleteOwnedIndexes uid (fun i => i.ns == canonical.ns && i.name == canonical.name) items

/-! ### The status -/

/-- `isAutomaticDNSReservation`. -/
def isAutomaticDNSReservation (name : String) (r : Object .dnsReservation) : Bool :=
  let clusterUID := r.labels.value claimedByClusterUIDLabel
  r.spec.clusterDeletionPolicy == "Delete" ||
    clusterUID != "" && (name == "auto-dns-" ++ clusterUID ||
      ("-auto-dns-" ++ clusterUID).toList.isSuffixOf name.toList)

/-- `MaxClusterNameLengthWithoutDNSReservation`: what a DNS label leaves beside the namespace. -/
def maxClusterNameLength : ℕ := 63 - "cluster-".length - 36 - 1

/-- `HostedClusterNameFromDNSReservation`. -/
def hostedClusterNameFromDNSReservation (uid : Uid) : String :=
  let kept := (uid.toList.map Char.toLower).filter fun c =>
    ('a' ≤ c && c ≤ 'z') || ('0' ≤ c && c ≤ '9')
  let suffix := String.ofList (kept.take (maxClusterNameLength - "hc-".length))
  if suffix = "" then "" else "hc-" ++ suffix

/-- The name of the HostedCluster of the Cluster with the UID, if it is listed. -/
def claimingHostedClusterName (clusterUID : Uid) (clusters : List (Item .cluster)) :
    Option String :=
  (clusters.find? (·.object.uid == clusterUID)).map fun c => hostedClusterName c.name c.object.spec

/-- `resolveInternalHostedClusterName`. -/
def resolveInternalHostedClusterName (ns name : String) (r : Object .dnsReservation) :
    FleetProg (Except Err String) :=
  let clusterUID := r.labels.value claimedByClusterUIDLabel
  if !isAutomaticDNSReservation name r then
    if hostedClusterNameFromDNSReservation r.uid = "" then return .error .other
    else return .ok (hostedClusterNameFromDNSReservation r.uid)
  else if clusterUID = "" then return .error .other
  else do
    match ← list .cluster { ns := some ns } with
    | .error e => return .error e
    | .ok clusters =>
      match claimingHostedClusterName clusterUID clusters with
      | none => return .error .other
      | some n => return .ok n

/-- The status that records an allocation, or that there is none. -/
def reservationStatus (phase baseDomain internalName : String) (failed : Bool)
    (status : DNSReservationStatus) : DNSReservationStatus where
  phase := phase
  baseDomain := baseDomain
  internalHostedClusterName := internalName
  conditions :=
    if failed then
      setStatusCondition status.conditions ⟨"Ready", false, "PrefixAllocationFailed"⟩
    else removeStatusCondition status.conditions "Ready"

section

variable (p : Params) (ns name : String)

abbrev dnsReservationKey : Key := ⟨.dnsReservation, ns, name⟩

/-- `updateReservationStatus`. -/
def updateReservationStatus (uid : Uid) (phase baseDomain : String) (failed : Bool) :
    FleetProg (Except Err Unit) :=
  retryOnConflict isConflict attempt defaultRetries
where
  attempt : FleetProg (Except Err Unit) := do
    match ← get (dnsReservationKey ns name) with
    | .error e => return if e == .notFound then .ok () else .error e
    | .ok latest =>
      if latest.uid ≠ uid ∨ latest.deleting then return .ok ()
      else
        match ← resolveInternalHostedClusterName ns name latest with
        | .error e => return .error e
        | .ok internalName =>
          let status := reservationStatus phase baseDomain internalName failed latest.status
          if status = latest.status then return .ok ()
          else
            match ← updateStatus (dnsReservationKey ns name) { latest with status := status } with
            | .error e => return .error e
            | .ok _ => return .ok ()

/-! ### The reconcile -/

/-- The finalizer is removed from the latest state of the reservation with the UID. -/
def removeReservationFinalizer (uid : Uid) : FleetProg (Except Err Unit) :=
  retryOnConflict isConflict attempt defaultRetries
where
  attempt : FleetProg (Except Err Unit) := do
    match ← get (dnsReservationKey ns name) with
    | .error e => return if e == .notFound then .ok () else .error e
    | .ok latest =>
      if latest.uid ≠ uid ∨ !latest.finalizers.contains dnsReservationFinalizer then return .ok ()
      else
        match ← update (dnsReservationKey ns name)
            { latest with
              finalizers := latest.finalizers.filter (· != dnsReservationFinalizer) } with
        | .error e => return .error e
        | .ok _ => return .ok ()

/-- `reconcileDelete`. -/
def reconcileDNSReservationDelete (uid : Uid) : FleetProg Outcome := do
  match ← listOwnedIndexes uid with
  | .error _ => return .failed
  | .ok items =>
    match ← deleteOwnedIndexes uid (fun _ => false) items with
    | .error _ => return .failed
    | .ok () =>
      match ← listOwnedIndexes uid with
      | .error _ => return .failed
      | .ok (_ :: _) => return .requeue
      | .ok [] =>
        match ← removeReservationFinalizer ns name uid with
        | .error _ => return .failed
        | .ok () => return .done

/-- The Index of a reservation, recovered or allocated; none when every prefix was taken. -/
def ensureIndex (reservation : Object .dnsReservation) :
    FleetProg (Except Unit (Option (Item .index))) := do
  match ← recoverOwnedIndex reservation.uid with
  | .error _ => return .error ()
  | .ok (some i) => return .ok (some i)
  | .ok none => allocateIndex reservation

def settleReservation (uid : Uid) (index : Item .index) : FleetProg Outcome := do
  match ← deleteDuplicateOwnedIndexes uid index with
  | .error _ => return .failed
  | .ok () =>
    match ← updateReservationStatus ns name uid "Ready" (baseDomainOf p index.name) false with
    | .error _ => return .failed
    | .ok () => return .requeue

/-- `DNSReservationReconciler.Reconcile`. -/
def reconcileReservation : FleetProg Outcome := do
  match ← get (dnsReservationKey ns name) with
  | .error .notFound => return .done
  | .error _ => return .failed
  | .ok reservation =>
    if reservation.deleting then reconcileDNSReservationDelete ns name reservation.uid
    else if !reservation.finalizers.contains dnsReservationFinalizer then
      match ← update (dnsReservationKey ns name)
          { reservation with
            finalizers := reservation.finalizers ++ [dnsReservationFinalizer] } with
      | .error .notFound => return .done
      | .error _ => return .failed
      | .ok _ => return .done
    else if reservation.uid = "" ∨ p.baseDomainSuffix = "" then return .failed
    else
      match ← ensureIndex reservation with
      | .error () => return .failed
      | .ok none =>
        match ← updateReservationStatus ns name reservation.uid "Pending" "" true with
        | .error _ => return .failed
        | .ok () => return .requeue
      | .ok (some index) => settleReservation p ns name reservation.uid index

end

end Seaplane.Operator
