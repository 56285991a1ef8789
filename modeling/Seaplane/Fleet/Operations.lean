import Seaplane.Fleet.LifecycleClusters
import Seaplane.Fleet.ResourceReconciles

/-!
Every operation of a run.

What each task may do after what it has seen is said by `Tends` for Clusters, NodePools, Placements
and documents, and by the protocol of the resources for all other objects and the signing keys.
Here both hold of whole runs, whoever runs along with whom.
-/

namespace Seaplane.Fleet

open Lib Kube Operator

section

variable {p : Params} (es : List (ℕ × Event)) (c : FleetConf)

/-- Each operation is one that its task may perform after what it has seen. -/
def Obeys (A : Task → List Event → Op → Prop) : Prop :=
  ∀ i l m e tr, c.pool[i]? = some ⟨l, m⟩ → e :: tr <:+ System.own i es → A l.task tr e.1

variable {es c} (h : (fleet p).Hist idle es c)
include h

/-- **Clusters, NodePools, Placements and documents are tended** in every run. -/
theorem operations_tend : Obeys es c (Tends p.operator) :=
  fun _ _ _ _ _ => h.logged (fun _ _ _ _ _ _ => trivial) (guards_caller (tends_task p))

/-- So are **OidcConfigs, DNSReservations, indexes and signing keys**. -/
theorem operations_follow : Obeys es c fun t => (resources p.operator t).Follows :=
  fun _ _ _ _ _ => h.logged (fun _ _ _ _ _ _ => trivial) (guards_caller guards_resources)

end

/-! ### Runs that end with a deletion -/

/-- Operations of a task that all go through; what it creates gets the UID. -/
def through (uid : Uid) (n : ℕ) : List Choice := List.replicate n { uid := uid, now := second }

/-- The desires that withdraw a Cluster from its management cluster. -/
def withdrawals (uid : Uid) : List (Dynamo.DocKey × Dynamo.DesireSpec) :=
  applyItems "mc" (·.delete "mc" uid)
    ((clusterResources sample.operator "x" { uid := uid, spec := {} } false "").getD [])

/-- A Cluster is placed and deleted; its desires are reported as done, and it goes. -/
def clusterLife : List (System.Event Choice Caller) :=
  performs 0 (.register "" "mc") (through "mc" 1) ++
  performs 1 (.createCluster "1" "x" [] {}) (through "x" 5) ++
  performs 2 (.reconcile .placement "account-1" "x") (through "p" 8) ++
  performs 3 (.request (.delete "1" "x" .cluster)) (through "" 3) ++
  performs 4 (.reconcile .cluster "account-1" "x") (through "" 42) ++
  ((withdrawals "x").zipIdx 5).flatMap (fun (it, i) =>
    performs i (.report it.1 ⟨⟨it.2, 1⟩, some true⟩) (through "" 1)) ++
  performs 11 (.reconcile .cluster "account-1" "x") (through "" 34) ++
  performs 12 (.reconcile .cluster "account-1" "x") (through "" 60)

theorem operations_tend_deleted : ∃ es c, (fleet sample).Hist idle es c ∧
    (∃ e ∈ es, e.2.1.writes = some (placementKey "account-1" "x")) ∧
    (∃ e ∈ es, e.2.1.document = true) ∧
    c.store.store.find (placementKey "account-1" "x") = none ∧
    c.store.store.find (Api.clusterKey "1" "x") = none ∧ Obeys es c (Tends sample.operator) := by
  have hrun : ((fleet sample).recordIf (fun _ _ _ _ => true) clusterLife ([], idle)).any
      (fun h => decide ((∃ e ∈ h.1, e.2.1.writes = some (placementKey "account-1" "x")) ∧
        (∃ e ∈ h.1, e.2.1.document = true) ∧
        h.2.store.store.find (placementKey "account-1" "x") = none ∧
        h.2.store.store.find (Api.clusterKey "1" "x") = none)) = true := by
    decide +kernel
  obtain ⟨es, c, h, hobs⟩ := System.HistIf.observed (fun _ _ _ _ _ => trivial) hrun
  obtain ⟨hplaced, hdocs, hp, hc⟩ := of_decide_eq_true hobs
  exact ⟨es, c, h, hplaced, hdocs, hp, hc, operations_tend h⟩

/-- An OidcConfig with a key and a DNSReservation are set up, and deleted. -/
def resourceLives : List (System.Event Choice Caller) :=
  performs 0 (.createOidcConfig "1" "a" [] ⟨"unmanaged", "i", "s", "r"⟩ "a") (through "a" 3) ++
  performs 1 (.reconcile .oidcConfig "account-1" "a") (through "" 2) ++
  performs 2 (.reconcile .oidcConfig "account-1" "a") (through "i" 10) ++
  performs 3 (.createDNSReservation "1" "d" []) (through "d" 2) ++
  performs 4 (.reconcile .dnsReservation "account-1" "d") (through "" 2) ++
  performs 5 (.reconcile .dnsReservation "account-1" "d") (through "n" 8) ++
  performs 6 (.request (.delete "1" "a" .oidcConfig)) (through "" 3) ++
  performs 7 (.reconcile .oidcConfig "account-1" "a") (through "" 6) ++
  performs 8 (.request (.delete "1" "d" .dnsReservation)) (through "" 3) ++
  performs 9 (.reconcile .dnsReservation "account-1" "d") (through "" 6)

theorem operations_follow_deleted : ∃ es c, (fleet sample).Hist idle es c ∧
    (∃ e ∈ es, e.2.1.writes = some (oidcConfigKey "account-1" "a")) ∧
    (∃ e ∈ es, e.2.1.secret = true) ∧
    c.store.store.find (oidcConfigKey "account-1" "a") = none ∧
    c.store.store.find ⟨.dnsReservation, "account-1", "d"⟩ = none ∧
    Obeys es c fun t => (resources sample.operator t).Follows := by
  have hrun : ((fleet sample).recordIf (fun _ _ _ _ => true) resourceLives ([], idle)).any
      (fun h => decide ((∃ e ∈ h.1, e.2.1.writes = some (oidcConfigKey "account-1" "a")) ∧
        (∃ e ∈ h.1, e.2.1.secret = true) ∧
        h.2.store.store.find (oidcConfigKey "account-1" "a") = none ∧
        h.2.store.store.find ⟨.dnsReservation, "account-1", "d"⟩ = none)) = true := by
    decide +kernel
  obtain ⟨es, c, h, hobs⟩ := System.HistIf.observed (fun _ _ _ _ _ => trivial) hrun
  obtain ⟨hwritten, hsecret, ha, hd⟩ := of_decide_eq_true hobs
  exact ⟨es, c, h, hwritten, hsecret, ha, hd, operations_follow h⟩

end Seaplane.Fleet
