import Seaplane.Api.Handlers

/-!
The parts of requests that write nothing but reservations of Spot termination queues.
-/

namespace Seaplane.Api

open Lib Kube Fleet

/-- Reads and questions are among the operations. -/
structure Reading (B : Fleet.Op → Prop) : Prop where
  get (k : Key) : B (.kube (.get k))
  list (kind : Kind) (sel : Selector) : B (.kube (.list kind sel))
  check (a : Action) (r : Resource) : B (.check a r)
  now : B .now

structure Queueing (B : Fleet.Op → Prop) : Prop extends Reading B where
  create (n : String) (o : Object .index) : B (.kube (.create (queueKey n) o))
  update (n : String) (o : Object .index) : B (.kube (.update (queueKey n) o))
  delete (n : String) (o : Object .index) : B (.kube (.delete (queueKey n) o))

variable {B : Fleet.Op → Prop} {p : Params} {account name : String}

section

variable (h : Reading B)
include h

lemma always_checkClusterTags {spec : Json} {o : Object .cluster} :
    (checkClusterTags p account name spec o).Always fun o _ => B o := by
  unfold checkClusterTags validateUpdatedClusterTags
  split
  · split
    · trivial
    refine .call (h.list _ _) fun r => ?_
    split
    · trivial
    · split <;> trivial
  · trivial

lemma always_checkNodePoolTags {spec : Json} {o : Object .nodePool} :
    (checkNodePoolTags p account name spec o).Always fun o _ => B o := by
  unfold checkNodePoolTags validateUpdatedNodePoolTags
  split
  · split
    · trivial
    simp only
    generalize (if o.spec.clusterName = "" then _ else _ : Option String) = clusterName
    cases clusterName with
    | none => trivial
    | some clusterName =>
      refine .call (h.get _) fun r => ?_
      split
      · trivial
      · trivial
      · split <;> trivial
  · trivial

lemma always_spotQueueClaimExpired {i : Object .index} :
    (spotQueueClaimExpired p i).Always fun o _ => B o := by
  unfold spotQueueClaimExpired
  split
  · trivial
  · exact ⟨h.now, fun _ => trivial⟩

end

variable {queueURL : String}

section

variable (h : Queueing B)
include h

lemma always_reclaimSpotTerminationQueue {n : String} {o : Object .index}
    {expired : FleetProg Bool} (he : expired.Always fun o _ => B o) :
    (reclaimSpotTerminationQueue (queueKey n) o expired).Always fun o _ => B o := by
  refine he.seq fun b => ?_
  split
  · refine .call (h.delete _ _) fun r => ?_
    split <;> trivial
  · trivial

lemma always_claimSpotTerminationQueueRound :
    (claimSpotTerminationQueueRound p account queueURL name).Always fun o _ => B o := by
  refine .call h.now fun t => .call (h.create _ _) fun r => ?_
  split
  · trivial
  · refine .call (h.get _) fun r => ?_
    split
    · trivial
    · trivial
    · next existing =>
      have hreclaim : (reclaimSpotTerminationQueue
          (queueKey (p.spotTerminationQueueIndexName account queueURL)) existing
          (spotQueueClaimExpired p existing)).Always fun o _ => B o :=
        always_reclaimSpotTerminationQueue h (always_spotQueueClaimExpired h.toReading)
      split
      · refine .call h.now fun t => .call (h.update _ _) fun r => ?_
        split <;> trivial
      · split
        · trivial
        refine .call (h.get _) fun r => ?_
        split
        · split
          · trivial
          · exact hreclaim
        · exact hreclaim
        · trivial
  · trivial

lemma always_claimSpotTerminationQueue (n : ℕ) :
    (claimSpotTerminationQueue p account queueURL name n).Always fun o _ => B o := by
  induction n with
  | zero => trivial
  | succ n ih =>
    refine (always_claimSpotTerminationQueueRound h).seq fun r => ?_
    split
    · trivial
    · exact ih

lemma always_releaseSpotTerminationQueue :
    (releaseSpotTerminationQueue p account queueURL name).Always fun o _ => B o := by
  have hdrop : ∀ {o : Object .index}, (releaseSpotTerminationQueue.drop
      (queueKey (p.spotTerminationQueueIndexName account queueURL)) o).Always fun o _ => B o := by
    intro o
    refine .call (h.delete _ _) fun r => ?_
    split <;> trivial
  refine .call (h.get _) fun r => ?_
  split
  · trivial
  · trivial
  split
  · trivial
  refine .call (h.get _) fun r => ?_
  split
  · split
    · trivial
    · exact hdrop
  · exact hdrop
  · trivial

lemma always_claimChangedQueue {old candidate : ClusterSpec} :
    (claimChangedQueue p account name old candidate).Always fun o _ => B o := by
  unfold claimChangedQueue
  simp only
  split
  · refine .call (h.list _ _) fun r => ?_
    split
    · trivial
    split
    · trivial
    · exact (always_claimSpotTerminationQueue h 5).next (by rintro ⟨⟩ <;> trivial) .ret
  · trivial

end

/-! ### Requests that make attempts -/

section

variable {A : List Event → Fleet.Op → Prop} (tr : List Event) {body : Option Json}

lemma guards_updateCluster
    (h : ∀ {spec : Json} (tr), (updateClusterOnce p account name spec).Guards Any A Done tr) :
    (updateCluster p account name body).Guards Any A Done tr := by
  unfold updateCluster
  split
  · trivial
  split
  · trivial
  split
  · trivial
  · exact (guards_attempts h _ tr).bind fun _ _ _ => trivial

lemma guards_updateNodePool
    (h : ∀ {spec : Json} (tr), (updateNodePoolOnce p account name spec).Guards Any A Done tr) :
    (updateNodePool p account name body).Guards Any A Done tr := by
  unfold updateNodePool
  split
  · trivial
  split
  · trivial
  split
  · trivial
  · exact (guards_attempts h _ tr).bind fun _ _ _ => trivial

lemma guards_resourceLabels {t : Served} {patch : Patch}
    (h : ∀ {uid : Uid} (tr), (labelOnce account name t patch uid).Guards Any A Done tr) :
    (resourceLabels p account name t patch).Guards Any A Done tr := by
  have hattempts : ∀ n uid tr, (labelAttempts account name t patch n uid).Guards Any A Done tr := by
    intro n
    induction n with
    | zero => exact fun uid tr => (h tr).bind fun _ _ _ => trivial
    | succ n ih =>
      refine fun uid tr => (h tr).bind fun tr' r _ => ?_
      split
      · exact ih _ tr'
      · trivial
  unfold resourceLabels
  split
  · trivial
  split
  · trivial
  · exact (hattempts _ _ tr).bind (by rintro _ (⟨⟨⟩⟩ | _) _ <;> trivial)

end

end Seaplane.Api
