import Seaplane.Api.Queues
import Seaplane.Fleet.Callers

/-!
Which objects the parts of the programs write.

`Spares W` says that a program changes nothing beyond the limits `W`. Each function has one lemma,
with what it may change as hypotheses; its callers use the lemma and never unfold it.
-/

namespace Seaplane.Fleet

open Lib Kube

/-- The program changes nothing beyond the limits. -/
abbrev Spares (W : Limits) {α : Type} (m : FleetProg α) : Prop :=
  m.Always fun o _ => Within W o

variable {W : Limits} {α : Type}

lemma spares_get {k : Key} : Spares W (get k) := ⟨within_get, fun _ => trivial⟩

lemma spares_list {kind : Kind} {sel : Selector} : Spares W (list kind sel) :=
  ⟨within_list, fun _ => trivial⟩

lemma spares_write {k : Key} {op : Op} (hw : op.writes = some k) (hk : W.object k) :
    Spares W (perform op) := ⟨within_write hw hk, fun _ => trivial⟩

lemma spares_retry {ε : Type} {isConflict : ε → Bool} {attempt : FleetProg (Except ε α)}
    (h : Spares W attempt) (n : ℕ) : Spares W (retryOnConflict isConflict attempt n) := by
  induction n with
  | zero => exact h
  | succ n ih =>
    refine h.seq fun r => ?_
    split
    · trivial
    split
    · exact ih
    · trivial

/-! ### The API server -/

variable {np : Object .nodePool} {k : Key} {o : Object k.kind} {kind : Kind} {uid : Uid}

section Api

open Api

variable {p : Api.Params} {account name : String}

lemma spares_authorizeAll {res : Api.Resource} (as : List Action) :
    Spares W (authorizeAll res as) := by
  induction as with
  | nil => trivial
  | cons a as ih =>
    refine .call within_check fun r => ?_
    split
    · exact ih
    · trivial
    · trivial

lemma spares_authorizeResource {operation : Action} {res : Api.Resource} {as : List Action} :
    Spares W (authorizeResource operation res as) := spares_authorizeAll _

lemma spares_nodePoolResource : Spares W (Api.nodePoolResource account np) := by
  unfold Api.nodePoolResource
  split
  · trivial
  split
  · trivial
  refine spares_get.next .ret fun _ => ?_
  dsimp only
  split <;> trivial

lemma spares_authorizeNodePool {operation : Action} {notFound : APIError} {as : List Action} :
    Spares W (authorizeNodePool account operation notFound np as) := by
  exact spares_nodePoolResource.next (by rintro ⟨⟩ <;> trivial) fun _ => spares_authorizeResource

lemma spares_updateOwned (h : W.object k) : Spares W (updateOwned account k o) := by
  unfold updateOwned
  split
  · exact ⟨within_write rfl h, fun _ => trivial⟩
  · trivial

lemma spares_deleteOwned (h : W.object k) : Spares W (deleteOwned account k o) := by
  unfold deleteOwned
  split
  · exact ⟨within_write rfl h, fun _ => trivial⟩
  · trivial

lemma spares_getByUID : Spares W (Api.getByUID kind account uid) := by
  refine .call within_list fun r => ?_
  split <;> trivial

/-! Queue reservations. -/

lemma reading_within : Reading (Within W) :=
  ⟨fun _ => within_get, fun _ _ => within_list, fun _ _ => within_check, within_now⟩

variable (hq : ∀ n, W.object (queueKey n))
include hq

lemma queueing_within : Queueing (Within W) where
  toReading := reading_within
  create n _ := within_write rfl (hq n)
  update n _ := within_write rfl (hq n)
  delete n _ := within_write rfl (hq n)

variable {spec : ClusterSpec}

lemma spares_claimRequestedQueue : Spares W (claimRequestedQueue p account name spec) := by
  unfold claimRequestedQueue
  split
  · trivial
  · exact (always_claimSpotTerminationQueue (queueing_within hq) 5).next
      (by rintro ⟨⟩ <;> trivial) .ret

lemma spares_releaseRequestedQueue {created : Bool} :
    Spares W (releaseRequestedQueue p account name spec created) := by
  unfold releaseRequestedQueue
  split
  · exact (always_releaseSpotTerminationQueue (queueing_within hq)).seq fun _ => trivial
  · trivial

omit hq

/-! Updates and deletes. -/

include hq in
lemma spares_updateCluster {spec : Option Json} (hc : W.object (clusterKey account name)) :
    Spares W (Api.updateCluster p account name spec) := by
  have hwrite : ∀ {spec : Json} {cr candidate : Object .cluster},
      Spares W (updateClusterOnce.writeCandidate p account name spec cr candidate) := by
    intro spec cr candidate
    refine spares_authorizeResource.next .ret fun _ => ?_
    refine (always_checkClusterTags reading_within).next .ret fun _ => ?_
    refine (always_claimChangedQueue (queueing_within hq)).next .ret fun _ => ?_
    exact (spares_updateOwned hc).next (by rintro ⟨⟩ <;> trivial) .ret
  have honce : ∀ {spec : Json}, Spares W (updateClusterOnce p account name spec) := by
    intro spec
    refine spares_get.next (by rintro ⟨⟩ <;> trivial) fun _ => ?_
    refine spares_authorizeResource.next .ret fun _ => ?_
    dsimp only
    split
    · trivial
    split
    · trivial
    split
    · trivial
    · exact hwrite
  unfold Api.updateCluster
  split
  · trivial
  split
  · trivial
  split
  · trivial
  · exact (spares_retry honce _).seq fun _ => trivial

lemma spares_updateNodePool {spec : Option Json} (hn : W.object (nodePoolKey account name)) :
    Spares W (Api.updateNodePool p account name spec) := by
  have hwrite : ∀ {spec : Json} {cr candidate : Object .nodePool},
      Spares W (updateNodePoolOnce.writeCandidate p account name spec cr candidate) := by
    intro spec cr candidate
    refine spares_authorizeNodePool.next .ret fun _ => ?_
    refine (always_checkNodePoolTags reading_within).next .ret fun _ => ?_
    exact (spares_updateOwned hn).next (by rintro ⟨⟩ <;> trivial) .ret
  have honce : ∀ {spec : Json}, Spares W (updateNodePoolOnce p account name spec) := by
    intro spec
    refine spares_get.next (by rintro ⟨⟩ <;> trivial) fun _ => ?_
    refine spares_authorizeNodePool.next .ret fun _ => ?_
    dsimp only
    split
    · trivial
    split
    · trivial
    split
    · trivial
    · exact hwrite
  unfold Api.updateNodePool
  split
  · trivial
  split
  · trivial
  split
  · trivial
  · exact (spares_retry honce _).seq fun _ => trivial

lemma spares_loadResource {t : Served} {o : Object t.kind} :
    Spares W (loadResource account t o) := by
  cases t with
  | nodePool => exact spares_nodePoolResource
  | cluster | oidcConfig | dnsReservation => trivial

lemma spares_deleteCluster (h : W.object (clusterKey account name)) :
    Spares W (deleteCluster account name) := by
  refine spares_get.next (by rintro ⟨⟩ <;> trivial) fun _ => ?_
  refine spares_authorizeResource.next .ret fun _ => ?_
  exact (spares_deleteOwned h).next (by rintro ⟨⟩ <;> trivial) .ret

lemma spares_deleteNodePool (h : W.object (nodePoolKey account name)) :
    Spares W (deleteNodePool account name) := by
  refine spares_get.next (by rintro ⟨⟩ <;> trivial) fun _ => ?_
  refine spares_authorizeNodePool.next .ret fun _ => ?_
  exact (spares_deleteOwned h).next (by rintro ⟨⟩ <;> trivial) .ret

/-! Creation. -/

lemma spares_authorizeReferences {reservation : Option (Item .dnsReservation)}
    {oidcConfig : Option (Item .oidcConfig)} :
    Spares W (authorizeReferences account reservation oidcConfig) := by
  have href : ∀ {q : Option (Action × Api.Resource)},
      Spares W (authorizeReferences.reference q) := by
    intro q
    cases q with
    | none => trivial
    | some q => exact spares_authorizeResource
  exact href.next .ret fun _ => href

lemma spares_checkRequestedQueue : Spares W (checkRequestedQueue p account spec) := by
  unfold checkRequestedQueue
  split
  · trivial
  refine spares_list.next .ret fun _ => ?_
  dsimp only
  split <;> trivial

lemma spares_defaultExpiration : Spares W (defaultExpiration p spec) := by
  unfold defaultExpiration
  split
  · exact ⟨within_now, fun _ => trivial⟩
  · trivial

lemma spares_setManagedIssuerURL {oidcConfig : Option (Item .oidcConfig)}
    (h : W.object (clusterKey account name)) :
    Spares W (setManagedIssuerURL p account name uid oidcConfig) := by
  have hattempt : ∀ {url : String},
      Spares W (updateManagedIssuerURL.attempt account name uid url) := by
    refine spares_get.next .ret fun _ => ?_
    dsimp only
    split
    · trivial
    · exact (spares_updateOwned h).next .ret .ret
  unfold setManagedIssuerURL
  split
  · exact spares_retry hattempt _
  · trivial

lemma spares_deleteClusterForCleanup (h : W.object (clusterKey account name)) :
    Spares W (deleteClusterForCleanup account name uid) := by
  have hattempt : Spares W (deleteClusterForCleanup.attempt account name uid) := by
    refine spares_get.next .ret fun _ => ?_
    dsimp only
    split
    · trivial
    · exact spares_deleteOwned h
  exact (spares_retry hattempt _).seq fun _ => trivial

lemma spares_requireOwnedCluster : Spares W (requireOwnedCluster account np) := by
  unfold requireOwnedCluster
  split
  · trivial
  split
  · trivial
  refine spares_get.next .ret fun _ => ?_
  dsimp only
  split <;> trivial

lemma spares_storeNodePool (h : W.object (nodePoolKey account name)) :
    Spares W (storeNodePool account name np) := by
  unfold storeNodePool
  split
  · trivial
  refine spares_requireOwnedCluster.next .ret fun _ => ?_
  exact .next (spares_write rfl h) .ret .ret

lemma spares_authorizeNodePoolCreate : Spares W (authorizeNodePoolCreate account name np) := by
  exact spares_nodePoolResource.next .ret fun _ => spares_authorizeResource

lemma spares_createNodePool {annotations : StringMap} {spec : NodePoolSpec}
    (h : W.object (nodePoolKey account name)) :
    Spares W (createNodePool p account name annotations spec) := by
  unfold createNodePool
  split
  · trivial
  refine spares_get.next (by rintro ⟨⟩ <;> trivial) fun _ => ?_
  dsimp only
  split
  · trivial
  split
  · trivial
  split
  · trivial
  refine spares_authorizeNodePoolCreate.next .ret fun _ => ?_
  exact (spares_storeNodePool h).next (by rintro ⟨⟩ <;> trivial) .ret

end Api

/-! ### The operator -/

section Operator

open Operator

variable {p : Operator.Params} {ns name : String}

lemma spares_upsertDesire {k : Dynamo.DocKey} {spec : Dynamo.DesireSpec} (hd : W.documents) :
    Spares W (upsertDesire k spec) := always_upsertDesire (fun _ _ => within_dynamo hd) within_now

lemma spares_deleteDesireSpec {k : Dynamo.DocKey} (hd : W.documents) :
    Spares W (deleteDesireSpec k) := always_deleteDesireSpec (within_dynamo hd) (within_dynamo hd)

lemma spares_checkApplyDesireStatuses {entries : List DesireStatusEntry} :
    Spares W (checkApplyDesireStatuses entries) :=
  always_checkApplyDesireStatuses fun _ => within_read rfl

lemma spares_updateLatestStatus {ignoreMissing : Bool} {f : Object k.kind → Option (Status k.kind)}
    (h : W.object k) : Spares W (updateLatestStatus k ignoreMissing f) := by
  have hattempt : Spares W (updateLatestStatus.attempt k ignoreMissing f) := by
    refine spares_get.next .ret fun _ => ?_
    dsimp only
    split
    · trivial
    · exact .next (spares_write rfl h) .ret .ret
  exact spares_retry hattempt _

lemma spares_removeFinalizer {finalizer : String} (h : W.object k) :
    Spares W (removeFinalizer k finalizer) := by
  have hattempt : Spares W (removeFinalizer.attempt k finalizer) := by
    refine spares_get.next .ret fun _ => ?_
    dsimp only
    split
    · exact .next (spares_write rfl h) .ret .ret
    · trivial
  exact spares_retry hattempt _

lemma spares_upsertRenderedResource (h : W.object k) : Spares W (upsertRenderedResource k o) := by
  refine .call within_get fun r => ?_
  split
  · exact .next (spares_write rfl h) .ret .ret
  · trivial
  · exact .next (spares_write rfl h) .ret .ret

lemma spares_deleteRenderedResource (h : W.object k) : Spares W (deleteRenderedResource k o) := by
  exact .next (spares_write rfl h) (by rintro ⟨⟩ <;> trivial) .ret

/-! NodePools. -/

variable {mc : String} {c : Object .cluster}

lemma spares_parentCluster : Spares W (parentCluster ns np) := by
  unfold parentCluster
  split
  · trivial
  refine spares_get.next .ret fun _ => ?_
  dsimp only
  split <;> trivial

section NodePool

variable (hd : W.documents) (h : W.object (poolKey ns name))
  (hr : W.object ⟨.renderedNodePool, ns, name⟩)
include h

lemma spares_setNodePoolPhase {phase : String} : Spares W (setNodePoolPhase ns name np phase) := by
  unfold setNodePoolPhase
  split
  · trivial
  · exact (spares_updateLatestStatus h).seq fun _ => trivial

lemma spares_updateNodePoolStatusFromDynamo {entry : DesireStatusEntry} {readKey : Dynamo.DocKey} :
    Spares W (updateNodePoolStatusFromDynamo p ns name entry readKey) := by
  unfold updateNodePoolStatusFromDynamo
  refine spares_checkApplyDesireStatuses.seq fun synced => ?_
  refine .call (within_read rfl) fun r => ?_
  exact (spares_updateLatestStatus h).seq fun _ => trivial

lemma spares_setNodePoolSyncedCondition {cond : Condition} :
    Spares W (setNodePoolSyncedCondition ns name cond) := by
  unfold setNodePoolSyncedCondition
  exact (spares_updateLatestStatus h).seq fun _ => trivial

lemma spares_awaitCluster : Spares W (awaitCluster ns name np) :=
  (spares_setNodePoolPhase h).seq fun _ => trivial

include hr

lemma spares_releaseNodePool : Spares W (releaseNodePool ns name) := by
  refine (spares_deleteRenderedResource hr).next .ret fun _ => ?_
  exact (spares_removeFinalizer h).next .ret .ret

include hd

lemma spares_applyNodePool {uid : String} {m : Operator.Resource} :
    Spares W (applyNodePool p ns name mc uid m) := by
  refine (spares_upsertRenderedResource hr).next .ret fun _ => ?_
  refine (spares_upsertDesire hd).seq fun r => (spares_upsertDesire hd).seq fun r' => ?_
  split
  · refine (spares_updateNodePoolStatusFromDynamo h).seq fun _ => ⟨within_get, fun r => ?_⟩
    simp only [Prog.ret_bind]
    split
    · trivial
    split
    · exact (spares_setNodePoolPhase h).seq fun _ => trivial
    · trivial
  · trivial

lemma spares_withdrawNodePool {uid : String} {m : Operator.Resource} :
    Spares W (withdrawNodePool ns name mc uid m) := by
  refine (spares_upsertDesire hd).next .ret fun _ => ?_
  refine spares_checkApplyDesireStatuses.seq fun synced =>
    (spares_setNodePoolSyncedCondition h).seq fun _ => ?_
  split
  · trivial
  have hspecs : Spares W (deleteNodePoolSpecs mc m) :=
    (spares_deleteDesireSpec hd).seq fun _ => (spares_deleteDesireSpec hd).seq fun _ => trivial
  exact hspecs.next .ret fun _ => spares_releaseNodePool h hr

lemma spares_reconcileNodePoolDelete : Spares W (reconcileNodePoolDelete p ns name np) := by
  unfold reconcileNodePoolDelete
  split
  · trivial
  refine (spares_setNodePoolPhase h).seq fun _ => spares_parentCluster.seq fun r => ?_
  split
  · exact spares_releaseNodePool h hr
  · exact spares_releaseNodePool h hr
  · trivial
  split
  · exact spares_releaseNodePool h hr
  split
  · trivial
  · exact spares_withdrawNodePool hd h hr

lemma spares_reconcileNodePool : Spares W (reconcileNodePool p ns name) := by
  refine spares_get.next (by rintro ⟨⟩ <;> trivial) fun _ => ?_
  dsimp only
  split
  · exact spares_reconcileNodePoolDelete hd h hr
  split
  · exact .next (spares_write rfl h) (by rintro ⟨⟩ <;> trivial) .ret
  · refine spares_parentCluster.seq fun r => ?_
    split
    · exact spares_awaitCluster h
    · trivial
    split
    · exact spares_awaitCluster h
    split
    · trivial
    split
    · trivial
    · exact spares_applyNodePool hd h hr

end NodePool

/-! Placements. -/

lemma spares_ensurePlacement (h : W.object (placementKey ns name)) :
    Spares W (ensurePlacement ns name c) := by
  have hselect : Spares W selectManagementCluster := by
    refine spares_list.next .ret fun _ => ?_
    dsimp only
    split <;> trivial
  refine .call within_get fun r => ?_
  split
  · trivial
  · refine hselect.seq fun r => ?_
    split
    · trivial
    · exact .next (spares_write rfl h) (by rintro ⟨⟩ <;> trivial) .ret
  · trivial

lemma spares_reconcilePlacement (h : W.object (placementKey ns name))
    (hc : W.object ⟨.cluster, ns, name⟩) : Spares W (reconcilePlacement ns name) := by
  have hbind : ∀ {pl : Object .placement}, Spares W (bindPlacement ns name pl) := by
    intro pl
    unfold bindPlacement
    split
    · trivial
    · exact spares_updateLatestStatus h
  have hrefer : ∀ {c : Object .cluster} {mc : String},
      Spares W (referToPlacement ns name c mc) := by
    intro c mc
    unfold referToPlacement
    split
    · trivial
    · exact spares_updateLatestStatus hc
  refine spares_get.next (by rintro ⟨⟩ <;> trivial) fun _ => ?_
  dsimp only
  split
  · trivial
  refine (spares_ensurePlacement h).seq fun r => ?_
  split
  · trivial
  · trivial
  refine hbind.seq fun r => ?_
  split
  · trivial
  · exact hrefer.next .ret .ret

/-! Clusters: the parts that write nothing but the Cluster and its snapshot. -/

lemma spares_listByMetadataUID : Spares W (listByMetadataUID kind ns uid) := by
  refine .call within_list fun r => ?_
  split
  · exact ⟨within_list, fun _ => trivial⟩
  · trivial

lemma spares_operator_getByUID {accountID uid : String} :
    Spares W (Operator.getByUID kind accountID uid) := by
  refine spares_listByMetadataUID.next .ret fun _ => ?_
  dsimp only
  split <;> trivial

lemma spares_oidcSigningKeyExternal : Spares W (oidcSigningKeyExternal c) := by
  unfold oidcSigningKeyExternal
  simp only
  split
  · trivial
  · exact spares_operator_getByUID.next (by rintro ⟨⟩ <;> trivial) .ret

lemma spares_confirmedDNSReservation : Spares W (confirmedDNSReservation c) := by
  have hoidc : ∀ {accountID : String}, Spares W (oidcClaimConfirmed c accountID) := by
    intro accountID
    unfold oidcClaimConfirmed
    split
    · trivial
    · exact spares_operator_getByUID.next (by rintro ⟨⟩ <;> trivial) .ret
  unfold confirmedDNSReservation
  simp only
  split
  · trivial
  refine spares_operator_getByUID.next (by rintro ⟨⟩ <;> trivial) fun _ => ?_
  dsimp only
  split
  · trivial
  · exact hoidc.next .ret .ret

section Cluster

variable (hc : W.object (Operator.clusterKey ns name)) (hd : W.documents)
  (hr : W.object ⟨.hostedCluster, ns, name⟩)
include hc

lemma spares_setClusterPhase {phase : String} : Spares W (setClusterPhase ns name c phase) := by
  unfold setClusterPhase
  split
  · trivial
  · exact (spares_updateLatestStatus hc).seq fun _ => trivial

lemma spares_setClusterSyncedCondition {cond : Condition} :
    Spares W (setClusterSyncedCondition ns name cond) := by
  unfold setClusterSyncedCondition
  exact (spares_updateLatestStatus hc).seq fun _ => trivial

lemma spares_ensureHostedClusterName : Spares W (ensureHostedClusterName ns name c) := by
  have hresolve : Spares W (resolveHostedClusterName name c) := by
    unfold resolveHostedClusterName
    split
    · trivial
    split
    · trivial
    · exact spares_operator_getByUID.next .ret .ret
  unfold ensureHostedClusterName
  split
  · trivial
  refine hresolve.seq fun r => ?_
  split
  · trivial
  split
  · trivial
  · exact .next (spares_write rfl hc) .ret .ret

lemma spares_deleteClusterWithUnconfirmedClaims :
    Spares W (deleteClusterWithUnconfirmedClaims ns name) := by
  have hattempt : Spares W (recordClaimTimeout.attempt ns name) := by
    refine spares_get.next .ret fun _ => ?_
    dsimp only
    split
    · trivial
    · exact ⟨within_write rfl hc, fun _ => trivial⟩
  have hrecord : Spares W (recordClaimTimeout ns name) := spares_retry hattempt _
  refine hrecord.next (by rintro ⟨⟩ <;> trivial) fun _ => ?_
  dsimp only
  split
  · trivial
  · exact .next (spares_write rfl hc) (by rintro ⟨⟩ <;> trivial) .ret

lemma spares_awaitClaims : Spares W (awaitClaims ns name c) := by
  unfold awaitClaims
  split
  · refine .call within_now fun t => ?_
    split
    · exact spares_deleteClusterWithUnconfirmedClaims hc
    · trivial
  · trivial

variable {baseDomain : String}

lemma spares_persistBaseDomain : Spares W (persistBaseDomain ns name baseDomain) := by
  unfold persistBaseDomain
  exact (spares_updateLatestStatus hc).next .ret .ret

lemma spares_deleteIfExpired : Spares W (deleteIfExpired ns name c) := by
  unfold deleteIfExpired
  split
  · trivial
  refine .call within_now fun t => ?_
  split
  · trivial
  · exact .next (spares_write rfl hc) (by rintro ⟨⟩ <;> trivial) .ret

include hd

omit hc in
lemma spares_upsertDesires {items : List (Dynamo.DocKey × Dynamo.DesireSpec)} :
    Spares W (upsertDesires items) := always_upsertDesires fun _ _ => spares_upsertDesire hd

omit hc hd in
lemma spares_checkEntries {entries : List DesireStatusEntry} : Spares W (checkEntries entries) := by
  unfold checkEntries
  split
  · trivial
  · exact spares_checkApplyDesireStatuses.seq fun _ => trivial

lemma spares_applyCluster {resources : List Operator.Resource} :
    Spares W (applyCluster p ns name mc c resources) := by
  refine (spares_upsertDesires hd).seq fun applied =>
    (spares_upsertDesire hd).seq fun read => ?_
  split
  · exact (show Spares W (updateClusterStatusFromDynamo p ns name _ _) from
      ⟨within_read rfl, fun _ => spares_checkEntries.seq fun _ =>
        (spares_updateLatestStatus hc).seq fun _ => trivial⟩).seq fun _ => trivial
  · trivial

include hr

lemma spares_reconcilePlacedCluster :
    Spares W (reconcilePlacedCluster p ns name c mc baseDomain) := by
  have hsnapshot : ∀ {resources : List Operator.Resource},
      Spares W (upsertRenderedHostedCluster ns name resources) := by
    intro resources
    unfold upsertRenderedHostedCluster
    split
    · trivial
    · exact spares_upsertRenderedResource hr
  refine spares_oidcSigningKeyExternal.next .ret fun _ => ?_
  dsimp only
  split
  · trivial
  exact hsnapshot.next .ret fun _ => spares_applyCluster hc hd

lemma spares_reconcileAssignedCluster :
    Spares W (reconcileAssignedCluster p ns name c baseDomain) := by
  refine (spares_deleteIfExpired hc).seq fun r => ?_
  split
  · trivial
  refine .call within_get fun r => ?_
  split
  · exact (spares_setClusterPhase hc).seq fun _ => trivial
  · trivial
  split
  · trivial
  · exact spares_reconcilePlacedCluster hc hd hr

end Cluster

lemma spares_placedOn : Spares W (placedOn ns name c) := by
  unfold placedOn
  split
  · trivial
  · exact spares_get.next .ret .ret

lemma spares_deleteListed {skipDeleting : Bool} (h : ∀ k : Key, k.kind = kind → W.object k)
    (is : List (Item kind)) : Spares W (deleteListed skipDeleting is) := by
  induction is with
  | nil => trivial
  | cons i is ih =>
    unfold deleteListed
    split
    · exact ih
    refine .call (within_write rfl (h i.key rfl)) fun r => ?_
    split
    · exact ih
    · exact ih
    · trivial

end Operator

end Seaplane.Fleet
