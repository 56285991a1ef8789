import Seaplane.Fleet.Footprint

/-!
What the programs that deal with OidcConfigs and DNSReservations may change.
-/

namespace Seaplane.Fleet

open Lib Kube

variable {W : Limits}

/-! ### The API server -/

section Api

open Api

variable {p : Api.Params} {account name : String}

lemma spares_resolve {c : Claimable} {uid : Uid} : Spares W (resolve c account uid) := by
  unfold resolve
  split
  · trivial
  refine spares_getByUID.next (by rintro ⟨⟩ <;> trivial) fun _ => ?_
  dsimp only
  split
  · trivial
  split
  · trivial
  · split <;> trivial

lemma spares_claimReference {c : Claimable} {uid : Uid} {i : Option (Item c.kind)}
    (h : ∀ k : Key, k.kind = c.kind → W.object k) : Spares W (claimReference c account uid i) := by
  have honce : ∀ {v : Uid}, Spares W (claimOnce c account v uid) := by
    intro v
    refine spares_getByUID.next (by rintro ⟨⟩ <;> trivial) fun _ => ?_
    dsimp only
    split
    · trivial
    split
    · trivial
    split
    · trivial
    split
    · trivial
    · exact (spares_updateOwned (h _ rfl)).next .ret .ret
  cases i with
  | none => trivial
  | some i =>
    exact (spares_retry honce _).next .ret .ret

lemma spares_markUsed {i : Option (Item .oidcConfig)}
    (h : ∀ k : Key, k.kind = .oidcConfig → W.object k) :
    Spares W (completeClusterCreate.markUsed account i) := by
  unfold completeClusterCreate.markUsed
  split
  · trivial
  refine ⟨within_now, fun t => ?_⟩
  exact spares_getByUID.next .ret fun _ => ⟨within_write rfl (h _ rfl), fun _ => trivial⟩

lemma spares_createOidcConfig {annotations : StringMap} {body : OidcConfigBody} {issuerID : String}
    (h : W.object (Served.oidcConfig.key account name)) :
    Spares W (createOidcConfig p account name annotations body issuerID) := by
  unfold createOidcConfig
  split
  · trivial
  split
  · trivial
  split
  · trivial
  split
  · trivial
  refine spares_authorizeResource.next .ret fun _ => ?_
  refine .call within_get fun r => ?_
  split
  · trivial
  unfold storeOidcConfig
  split
  · trivial
  · refine .call (within_write rfl h) fun r => ?_
    split <;> trivial

lemma spares_createDNSReservation {annotations : StringMap}
    (h : W.object (Served.dnsReservation.key account name)) :
    Spares W (createDNSReservation p account name annotations) := by
  unfold createDNSReservation
  split
  · trivial
  split
  · trivial
  split
  · trivial
  refine spares_authorizeResource.seq fun r => ?_
  split
  · trivial
  unfold storeDNSReservation
  split
  · trivial
  · refine .call (within_write rfl h) fun r => ?_
    split <;> trivial

lemma spares_deleteOidcConfig (h : W.object (Served.oidcConfig.key account name)) :
    Spares W (deleteOidcConfig account name) := by
  refine spares_get.next (by rintro ⟨⟩ <;> trivial) fun _ => ?_
  refine spares_authorizeResource.next .ret fun _ => ?_
  dsimp only
  split
  · trivial
  · exact (spares_deleteOwned h).next (by rintro ⟨⟩ <;> trivial) .ret

lemma spares_deleteDNSReservation (h : W.object (Served.dnsReservation.key account name)) :
    Spares W (deleteDNSReservation account name) := by
  have honce : Spares W (deleteDNSReservationOnce account name) := by
    refine spares_get.next (by rintro ⟨⟩ <;> trivial) fun _ => ?_
    refine spares_authorizeResource.next .ret fun _ => ?_
    dsimp only
    split
    · trivial
    · exact .next (spares_write rfl h) (by rintro ⟨⟩ <;> trivial) .ret
  exact (spares_retry honce _).next (by rintro ⟨⟩ <;> trivial) .ret

end Api

/-! ### Clusters -/

section Operator

open Operator

variable {p : Operator.Params} {ns name : String}

section Cluster

variable (hr : ∀ k : Key, k.kind = .dnsReservation → W.object k)
include hr

lemma spares_automaticDNSReservation {accountID : String} {uid : Uid} :
    Spares W (automaticDNSReservation name accountID uid) := by
  refine .call within_get fun r => ?_
  split
  · trivial
  · refine .call within_get fun r => ?_
    split
    · trivial
    · refine .call (within_write rfl (hr _ rfl)) fun r => ?_
      split
      · trivial
      · exact ⟨within_get, fun _ => trivial⟩
      · trivial
    · trivial
  · trivial

end Cluster

/-! ### OidcConfigs -/

section OidcConfig

variable {oc : Object .oidcConfig}

lemma spares_isReferencedByCluster : Spares W (isReferencedByCluster oc) := by
  exact spares_list.next .ret .ret

lemma spares_privateKeyExists {account configID : String} :
    Spares W (privateKeyExists account configID) := by
  refine .call (within_infra nofun) fun r => ?_
  split <;> trivial

variable (hk : W.secrets) (h : W.object (oidcConfigKey ns name))
  (hi : W.object (issuerURLKey p oc.spec.issuerUrl))

include hk in
lemma spares_storePrivateKey {account configID value : String} :
    Spares W (storePrivateKey account configID value) := by
  refine ⟨within_infra fun _ => hk, fun r => ?_⟩
  simp only [Prog.ret_bind]
  split
  · trivial
  · refine ⟨within_infra fun _ => hk, fun r => ?_⟩
    simp only [Prog.ret_bind]
    split <;> trivial
  · trivial

include hk in
lemma spares_deleteStoredKey : Spares W (deleteStoredKey name oc) := by
  unfold deleteStoredKey
  split
  · refine ⟨within_infra fun _ => hk, fun r => ?_⟩
    simp only [Prog.ret_bind]
    split <;> trivial
  · trivial

include h

lemma spares_setReadyCondition {reason : String} : Spares W (setReadyCondition ns name reason) := by
  unfold setReadyCondition
  exact (spares_updateLatestStatus h).seq fun _ => trivial

lemma spares_setReadyConditionAndPhase {reason phase : String} :
    Spares W (setReadyConditionAndPhase ns name reason phase) := by
  unfold setReadyConditionAndPhase
  exact (spares_updateLatestStatus h).seq fun _ => trivial

lemma spares_markPending : Spares W (markPending ns name oc) := by
  unfold markPending
  split
  · unfold setOidcConfigPhase
    split
    · trivial
    · exact (spares_updateLatestStatus h).seq fun _ => trivial
  · trivial

lemma spares_checkReadiness {onFailure : FleetProg Outcome} (hf : Spares W onFailure) :
    Spares W (checkReadiness ns name oc onFailure) := by
  refine .call (within_infra nofun) fun r => ?_
  split
  · exact hf
  · exact (spares_updateLatestStatus h).next .ret .ret

include hk in
lemma spares_copyPrivateKey : Spares W (copyPrivateKey p ns name oc) := by
  refine spares_privateKeyExists.seq fun r => ?_
  split
  · trivial
  · trivial
  refine .call (within_infra nofun) fun r => ?_
  split
  · exact (spares_setReadyCondition h).seq fun _ => trivial
  split
  · exact (spares_setReadyConditionAndPhase h).seq fun _ => trivial
  refine (spares_storePrivateKey hk).seq fun r => ?_
  split
  · exact (spares_setReadyCondition h).seq fun _ => trivial
  · trivial

include hi

lemma spares_reserveIssuerURLIndex : Spares W (reserveIssuerURLIndex p ns name oc) := by
  refine .call (within_write rfl hi) fun r => ?_
  split
  · trivial
  · refine .call within_get fun r => ?_
    split
    · trivial
    split
    · exact (spares_setReadyConditionAndPhase h).seq fun _ => trivial
    · trivial
  · trivial

omit h in
lemma spares_deleteIssuerURLIndex : Spares W (deleteIssuerURLIndex p oc) := by
  refine spares_get.next .ret fun _ => ?_
  dsimp only
  split
  · trivial
  · exact .next (spares_write rfl hi) .ret .ret

lemma spares_reconcileManaged : Spares W (reconcileManaged p ns name oc) := by
  have hawait : ∀ {reason : String}, Spares W (awaitIssuer ns name reason) :=
    (spares_setReadyConditionAndPhase h).seq fun _ => trivial
  refine (spares_markPending h).seq fun _ => (spares_reserveIssuerURLIndex h hi).next .ret
    fun _ => ?_
  refine spares_isReferencedByCluster.seq fun r => ?_
  split
  · trivial
  · exact hawait
  · exact spares_checkReadiness h hawait

include hk in
lemma spares_reconcileUnmanaged : Spares W (reconcileUnmanaged p ns name oc) := by
  have hfail : Spares W (issuerFailed ns name) :=
    (spares_setReadyConditionAndPhase h).seq fun _ => trivial
  refine (spares_markPending h).seq fun _ => (spares_reserveIssuerURLIndex h hi).next .ret
    fun _ => ?_
  refine (spares_copyPrivateKey hk h).seq fun r => ?_
  split
  · trivial
  · exact spares_checkReadiness h hfail

include hk in
lemma spares_reconcileOidcConfigDelete : Spares W (reconcileOidcConfigDelete p ns name oc) := by
  unfold reconcileOidcConfigDelete
  split
  · trivial
  refine (spares_deleteStoredKey hk).next .ret fun _ => ?_
  refine (spares_deleteIssuerURLIndex hi).next .ret fun _ => ?_
  exact (spares_removeFinalizer h).next .ret .ret

omit hi in
lemma spares_reconcileOidcConfig (hk : W.secrets)
    (hi : ∀ n, W.object ⟨.index, oidcIssuerReservationsNamespace, n⟩) :
    Spares W (reconcileOidcConfig p ns name) := by
  refine spares_get.next (by rintro ⟨⟩ <;> trivial) fun _ => ?_
  dsimp only
  split
  · exact spares_reconcileOidcConfigDelete hk h (hi _)
  split
  · exact .next (spares_write rfl h) (by rintro ⟨⟩ <;> trivial) .ret
  · split
    · exact spares_reconcileManaged h (hi _)
    split
    · exact spares_reconcileUnmanaged hk h (hi _)
    · exact (spares_setReadyConditionAndPhase h).seq fun _ => trivial

end OidcConfig

/-! ### DNSReservations -/

section DNSReservation

variable {uid : Uid}

lemma spares_listOwnedIndexes : Spares W (listOwnedIndexes uid) := ⟨within_list, fun _ => trivial⟩

lemma spares_updateReservationStatus {phase baseDomain : String} {failed : Bool}
    (h : W.object (dnsReservationKey ns name)) :
    Spares W (updateReservationStatus ns name uid phase baseDomain failed) := by
  have hresolve : ∀ {r : Object .dnsReservation},
      Spares W (resolveInternalHostedClusterName ns name r) := by
    intro r
    unfold resolveInternalHostedClusterName
    dsimp only
    split
    · split <;> trivial
    split
    · trivial
    refine spares_list.next .ret fun _ => ?_
    dsimp only
    split <;> trivial
  have hattempt : Spares W
      (updateReservationStatus.attempt ns name uid phase baseDomain failed) := by
    refine spares_get.next .ret fun _ => ?_
    dsimp only
    split
    · trivial
    refine hresolve.next .ret fun _ => ?_
    dsimp only
    split
    · trivial
    · exact .next (spares_write rfl h) .ret .ret
  exact spares_retry hattempt _

lemma spares_removeReservationFinalizer (h : W.object (dnsReservationKey ns name)) :
    Spares W (removeReservationFinalizer ns name uid) := by
  have hattempt : Spares W (removeReservationFinalizer.attempt ns name uid) := by
    refine spares_get.next .ret fun _ => ?_
    dsimp only
    split
    · trivial
    · exact .next (spares_write rfl h) .ret .ret
  exact spares_retry hattempt _

variable (hi : ∀ k : Key, k.kind = .index → W.object k)
include hi

lemma spares_dropMisplaced (is : List (Item .index)) : Spares W (dropMisplaced uid is) := by
  induction is with
  | nil => trivial
  | cons i is ih =>
    unfold dropMisplaced
    split
    · exact ih
    split
    · refine .call (within_write rfl (hi _ rfl)) fun r => ?_
      split
      · exact ih
      · exact ih
      · trivial
    · exact ih.next .ret .ret

lemma spares_recoverOwnedIndex : Spares W (recoverOwnedIndex uid) := by
  refine spares_listOwnedIndexes.next .ret fun _ => ?_
  exact (spares_dropMisplaced hi _).next .ret .ret

lemma spares_allocateAttempts {accountID : String} (n : ℕ) :
    Spares W (allocateAttempts accountID uid n) := by
  have hrecover : Spares W (recoverCreated uid) := by
    refine (spares_recoverOwnedIndex hi).seq fun r => ?_
    split <;> trivial
  induction n with
  | zero => trivial
  | succ n ih =>
    refine .call (within_infra nofun) fun r => ?_
    split
    · trivial
    refine .call (within_write rfl (hi _ rfl)) fun r => ?_
    split
    · exact hrecover
    · refine .call within_get fun r => ?_
      split
      · trivial
      split
      · exact ih
      · exact hrecover
    · trivial

lemma spares_ensureIndex {res : Object .dnsReservation} : Spares W (ensureIndex res) := by
  refine (spares_recoverOwnedIndex hi).seq fun r => ?_
  split
  · trivial
  · trivial
  unfold allocateIndex
  dsimp only
  split
  · trivial
  · exact spares_allocateAttempts hi 5

lemma spares_deleteOwnedIndexes {spared : Item .index → Bool} (is : List (Item .index)) :
    Spares W (deleteOwnedIndexes uid spared is) := by
  induction is with
  | nil => trivial
  | cons i is ih =>
    unfold deleteOwnedIndexes
    split
    · exact ih
    refine .call (within_write rfl (hi _ rfl)) fun r => ?_
    split
    · exact ih
    · exact ih
    · trivial

variable (h : W.object (dnsReservationKey ns name))
include h

lemma spares_reconcileDNSReservationDelete :
    Spares W (reconcileDNSReservationDelete ns name uid) := by
  refine spares_listOwnedIndexes.next .ret fun _ => ?_
  refine (spares_deleteOwnedIndexes hi _).next .ret fun _ => ?_
  refine spares_listOwnedIndexes.seq fun r => ?_
  split
  · trivial
  · trivial
  · refine (spares_removeReservationFinalizer h).seq fun r => ?_
    split <;> trivial

lemma spares_settleReservation {index : Item .index} :
    Spares W (settleReservation p ns name uid index) := by
  have hdup : Spares W (deleteDuplicateOwnedIndexes uid index) := by
    exact spares_listOwnedIndexes.next .ret fun _ => spares_deleteOwnedIndexes hi _
  refine hdup.next .ret fun _ => ?_
  exact (spares_updateReservationStatus h).next .ret .ret

lemma spares_reconcileReservation : Spares W (reconcileReservation p ns name) := by
  refine spares_get.next (by rintro ⟨⟩ <;> trivial) fun _ => ?_
  dsimp only
  split
  · exact spares_reconcileDNSReservationDelete hi h
  split
  · exact .next (spares_write rfl h) (by rintro ⟨⟩ <;> trivial) .ret
  · split
    · trivial
    refine (spares_ensureIndex hi).seq fun r => ?_
    split
    · trivial
    · refine (spares_updateReservationStatus h).seq fun r => ?_
      split <;> trivial
    · exact spares_settleReservation hi h

end DNSReservation

end Operator

end Seaplane.Fleet
