import Seaplane.Fleet.LifecycleReconciles

/-!
The reconcile of a Cluster tends the managed objects and the documents, and with it every task does.
-/

namespace Seaplane.Fleet

open Lib Kube Operator
open Dynamo (DocKey DesireSpec)

variable {p : Operator.Params} {t : Task} {ns name : String} {tr : List Event} {c : Object .cluster}

/-! ### Lookups -/

variable {baseDomain : String}

section Lookup

variable {A : List Event → Op → Prop} (hA : ∀ tr o, Modest tr o → A tr o)
include hA

lemma guards_listByMetadataUID {kind : Kind} {uid : String} (tr : List Event) :
    (listByMetadataUID kind ns uid).Guards Any A (fun tr' r => Extends NoDoc tr tr' ∧
      ∃ sel, (⟨.kube (.list kind sel), r⟩ : Event) ∈ tr' ∧
        (sel = { ns := some ns, uid := some uid } ∨ sel = { ns := some ns })) tr := by
  refine guards_idle hA trivial .refl fun r h1 => ?_
  split
  · refine ⟨hA _ _ (.inl trivial), fun r' _ => ⟨h1.cons (by simp) (by simp), _, ?_, .inr rfl⟩⟩
    exact List.mem_cons_self
  · exact ⟨h1, _, List.mem_cons_self, .inl rfl⟩

lemma guards_lookup {kind : Kind} {accountID uid : String} (tr : List Event) :
    (Operator.getByUID kind accountID uid).Guards Any A (fun tr' r => Extends NoDoc tr tr' ∧
      (∀ i, r = .ok i → Listed tr' (accountNamespace accountID) uid i) ∧
      (r = .error .notFound → Missing tr' kind (accountNamespace accountID) uid)) tr := by
  refine (guards_listByMetadataUID hA tr).bind fun tr1 r h1 => ?_
  obtain ⟨h1, sel, hm, hsel⟩ := h1
  have hns : sel.ns = some (accountNamespace accountID) := by
    rcases hsel with rfl | rfl <;> rfl
  split
  · next e =>
    refine ⟨h1, by simp, fun he => ⟨sel, _, hm, hsel, .inl ?_⟩⟩
    exact congrArg _ (Except.error.inj he)
  · next items =>
    split
    · next hnone =>
      refine ⟨h1, by simp, fun _ => ⟨sel, _, hm, hsel, .inr ⟨items, rfl, fun i hi => ?_⟩⟩⟩
      simpa using List.find?_eq_none.mp hnone i hi
    · next i hfind =>
      refine ⟨h1, ?_, by simp⟩
      rintro j ⟨⟩
      refine ⟨by simpa using List.find?_some hfind, sel, items, hm, hns, ?_⟩
      exact List.mem_of_find?_eq_some hfind

lemma guards_oidcSigningKeyExternal (tr : List Event) :
    (oidcSigningKeyExternal c).Guards Any A (fun tr' r => Extends NoDoc tr tr' ∧
      ∀ b, r = .ok b → FoundExternal tr' c b) tr := by
  unfold oidcSigningKeyExternal
  dsimp only
  split
  · next h =>
    refine ⟨.refl, ?_⟩
    rintro b ⟨⟩
    exact h.imp id .inl
  · refine (guards_lookup hA tr).bind fun tr1 r h1 => ?_
    split
    · refine ⟨h1.1, ?_⟩
      rintro b ⟨⟩
      exact .inr (.inr (.inl (h1.2.2 rfl)))
    · exact ⟨h1.1, by simp⟩
    · next i =>
      refine ⟨h1.1, ?_⟩
      rintro b ⟨⟩
      have hi := h1.2.1 i rfl
      by_cases hty : i.object.spec.type = "unmanaged"
      · rw [hty]
        exact ⟨i, hi, hty⟩
      · rw [beq_eq_false_iff_ne.mpr hty]
        exact .inr (.inr (.inr ⟨i, hi, hty⟩))

lemma guards_placedOn (tr : List Event) :
    (placedOn ns name c).Guards Any A (fun tr' mc => Extends NoDoc tr tr' ∧
      FoundPlace tr' ns name c mc) tr := by
  unfold placedOn
  split
  · next ref href => exact ⟨.refl, .inl ⟨ref, href, rfl⟩⟩
  · next href =>
    refine guards_idle hA trivial .refl fun r h1 => ?_
    split
    · exact ⟨h1, .inr ⟨href, _, List.mem_cons_self, .inl ⟨_, rfl, rfl⟩⟩⟩
    · exact ⟨h1, .inr ⟨href, _, List.mem_cons_self, .inr ⟨_, rfl, rfl⟩⟩⟩

/-! ### Phases and conditions -/

lemma modest_setClusterPhase {phase : String} (tr : List Event) :
    (setClusterPhase ns name c phase).Guards Any A (fun tr' _ => Extends NoDoc tr tr') tr := by
  unfold setClusterPhase
  split
  · exact .refl
  refine (guards_updateLatestStatus hA (fun s st hst => ?_) tr).bind fun _ _ h => h
  split at hst
  · cases hst
  · cases hst; rfl

lemma modest_setClusterSyncedCondition {cond : Condition} (tr : List Event) :
    (setClusterSyncedCondition ns name cond).Guards Any A
      (fun tr' _ => Extends NoDoc tr tr') tr := by
  unfold setClusterSyncedCondition
  refine (guards_updateLatestStatus hA (fun s st hst => ?_) tr).bind fun _ _ h => h
  cases hst; rfl

/-! ### Before the placement -/

lemma modest_ensureHostedClusterName (hk : Known tr (Operator.clusterKey ns name) c) :
    (ensureHostedClusterName ns name c).Guards Any A
      (fun tr' r => r = none → Extends NoDoc tr tr') tr := by
  have hresolve : Spares Unmanaged (resolveHostedClusterName name c) := by
    unfold resolveHostedClusterName
    split
    · trivial
    split
    · trivial
    · refine spares_operator_getByUID.seq fun r => ?_
      split <;> trivial
  unfold ensureHostedClusterName
  split
  · exact fun _ => .refl
  refine (guards_unmanaged hA hresolve tr).bind fun tr1 r h1 => ?_
  split
  · exact nofun
  split
  · exact nofun
  refine .call (hA _ _ (.inr (keeps_spec (hk.mono h1.subset) _))) fun r _ _ => ?_
  split <;> exact nofun

lemma modest_ensureAutomaticDNSReservation (hk : Known tr (Operator.clusterKey ns name) c) :
    (ensureAutomaticDNSReservation ns name c).Guards Any A Done tr := by
  have hauto : Spares Unmanaged (automaticDNSReservation name (accountOf c) c.uid) :=
    spares_automaticDNSReservation (unmanaged_of_kind rfl)
  unfold ensureAutomaticDNSReservation
  split
  · trivial
  refine (guards_unmanaged hA hauto tr).next .ret fun tr1 _ h1 => ?_
  dsimp only
  split
  · trivial
  refine .call (hA _ _ (.inr (keeps_spec (hk.mono h1.subset) _))) fun r _ _ => ?_
  split <;> trivial

lemma guards_recordClaimTimeout (tr : List Event) :
    (recordClaimTimeout ns name).Guards Any A
      (fun tr' r => ∀ o, r = .ok o → Known tr' (Operator.clusterKey ns name) o) tr := by
  refine guards_retry (P := fun _ => True) (fun tr1 _ => ?_) _ trivial
  refine guards_idle hA trivial .refl fun r _ => ?_
  split
  · exact ⟨by simp, fun _ _ _ => trivial⟩
  · next latest _ =>
    have hk : Known (⟨.kube (.get (Operator.clusterKey ns name)), .ok latest⟩ :: tr1)
        (Operator.clusterKey ns name) latest := known_get List.mem_cons_self
    split
    · refine ⟨?_, fun _ _ _ => trivial⟩
      rintro o ⟨⟩
      exact hk
    · refine ⟨hA _ _ (.inr ⟨latest, hk, rfl, rfl⟩), fun r _ => ⟨?_, fun _ _ _ => trivial⟩⟩
      rintro o rfl
      exact ⟨_, _, List.mem_cons_self, rfl⟩

lemma modest_awaitClaims (tr : List Event) : (awaitClaims ns name c).Guards Any A Done tr := by
  unfold awaitClaims
  split
  · refine guards_idle hA trivial .refl fun time _ => ?_
    split
    · refine (guards_recordClaimTimeout hA _).bind fun tr1 r h1 => ?_
      split
      · trivial
      · trivial
      · next latest =>
        split
        · trivial
        refine .call (hA _ _ (.inr ⟨by simp, h1 latest rfl⟩)) fun r _ _ => ?_
        split <;> trivial
    · trivial
  · trivial

lemma modest_persistBaseDomain (tr : List Event) :
    (persistBaseDomain ns name baseDomain).Guards Any A Done tr := by
  unfold persistBaseDomain
  refine (guards_updateLatestStatus hA (fun s st hst => ?_) tr).bind fun tr1 r _ => ?_
  · cases hst; rfl
  · split <;> trivial

lemma modest_reconcileDNSReservation (hk : Known tr (Operator.clusterKey ns name) c) :
    (reconcileDNSReservation ns name c).Guards Any A
      (fun tr' r => ∀ b, r = .ok b → Extends NoDoc tr tr') tr := by
  unfold reconcileDNSReservation
  split
  · exact (modest_ensureAutomaticDNSReservation hA hk).bind fun _ _ _ => nofun
  have hconf : (confirmedDNSReservation c).Guards Any A (fun tr' _ => Extends NoDoc tr tr') tr :=
    spares_confirmedDNSReservation.guards (B := Within Unmanaged) .refl
      (fun tr o _ ho => hA tr o (.inl (idle_of_within ho)))
      fun _ _ r he ho => (idle_of_within ho).extends he r
  refine hconf.bind fun tr1 r h1 => ?_
  split
  · exact nofun
  · exact (modest_awaitClaims hA _).bind fun _ _ _ => nofun
  split
  · exact (modest_persistBaseDomain hA _).bind fun _ _ _ => nofun
  · exact fun _ _ => h1

lemma modest_deleteIfExpired (hk : Known tr (Operator.clusterKey ns name) c) :
    (deleteIfExpired ns name c).Guards Any A (fun tr' r => r = none → Extends NoDoc tr tr') tr := by
  unfold deleteIfExpired
  split
  · exact fun _ => .refl
  refine guards_idle hA trivial .refl fun time h1 => ?_
  split
  · exact fun _ => h1
  refine .call (hA _ _ (.inr ⟨by simp, hk.mono h1.subset⟩)) fun r _ _ => ?_
  split <;> exact nofun

end Lookup

/-! ### A placed Cluster -/

section Documents

variable {kd : DocKey} {i : Dynamo.Item}

lemma tends_load : Tends p t tr (.dynamo (.cacheLoad kd)) :=
  ⟨trivial, by rintro d ⟨⟩; exact .load kd⟩

lemma tends_put (h : Writes p t tr kd i.spec) (hs : Stamped tr i) :
    Tends p t tr (.dynamo (.putItem kd i)) := ⟨trivial, by rintro d ⟨⟩; exact .put h hs⟩

lemma tends_store (h : Writes p t tr kd i.spec) (hs : Held tr kd i) :
    Tends p t tr (.dynamo (.cacheStore kd i)) := ⟨trivial, by rintro d ⟨⟩; exact .store h hs⟩

end Documents

lemma tends_updateClusterStatusFromDynamo {entries : List DesireStatusEntry} {readKey : DocKey}
    (tr : List Event) :
    (updateClusterStatusFromDynamo p ns name entries readKey).Guards Any (Tends p t) Done tr := by
  unfold updateClusterStatusFromDynamo
  refine guards_idle tends_modest rfl .refl fun r _ => ?_
  refine (tends_idle spares_checkEntries _).bind fun tr1 synced _ => ?_
  refine (guards_updateLatestStatus (k := Operator.clusterKey ns name) tends_modest
    (fun s st hst => ?_) _).bind fun _ _ _ => trivial
  cases hst; rfl

section Live

variable (ht : t = .reconcile .cluster ns name) (hs : Subject ⟨.cluster, ns, name⟩ tr c)
  (hl : c.deleting = false) (hf : clusterFinalizer ∈ c.finalizers) {pl : Object .placement}
  (hp : Known tr (placementKey ns name) pl)
include ht hs hl hf hp

lemma tends_applyCluster {external : Bool} {rs : List Resource} (he : FoundExternal tr c external)
    (hrs : clusterResources p name c external baseDomain = some rs) :
    (applyCluster p ns name pl.spec.managementCluster c rs).Guards Any (Tends p t) Done tr := by
  have hw : ∀ tr' it, it ∈ applyItems pl.spec.managementCluster
        (·.serverSideApply pl.spec.managementCluster c.uid) rs → Extends AllDocs tr tr' →
      Writes p t tr' it.1 it.2 := by
    intro tr' it hit h
    obtain ⟨m, hm, rfl⟩ := List.mem_map.mp hit
    exact .cluster ht (hs.extend h) hl hf (hp.mono h.subset) (he.mono h.subset) hrs hm
  refine (guards_upsertDesires tends_modest (fun _ _ _ => tends_load) ?_ ?_ .refl).bind
    fun tr1 applied h1 => ?_
  · exact fun tr' it i hm h hi hst => tends_put (hi ▸ hw tr' it hm h) hst
  · exact fun tr' it i hm h hi hheld => tends_store (hi ▸ hw tr' it hm h) hheld
  · have hr : ∀ {D : DocKey → Prop} tr', Extends D tr1 tr' →
        Writes p t tr' ((hostedClusterOf name c).readKey pl.spec.managementCluster)
          ((hostedClusterOf name c).read pl.spec.managementCluster c.uid) := fun tr' h =>
      have h' : Extends AllDocs tr tr' := h1.trans (h.imp fun _ _ => trivial)
      .clusterRead ht (hs.extend h') hl hf (hp.mono h'.subset)
    refine (guards_upsertDesire tends_modest tends_load ?_ ?_).bind fun tr2 read h2 => ?_
    · exact fun tr' i h hi hst => tends_put (hi ▸ hr tr' h) hst
    · exact fun tr' i h hi hheld => tends_store (hi ▸ hr tr' h) hheld
    · split
      · exact (tends_updateClusterStatusFromDynamo tr2).bind fun _ _ _ => trivial
      · trivial

lemma tends_reconcilePlacedCluster :
    (reconcilePlacedCluster p ns name c pl.spec.managementCluster baseDomain).Guards Any
      (Tends p t) Done tr := by
  refine (guards_oidcSigningKeyExternal tends_modest tr).bind fun tr1 r h1 => ?_
  split
  · trivial
  · next external =>
    split
    · trivial
    · next rs hrs =>
      have hsnapshot : Spares Unmanaged (upsertRenderedHostedCluster ns name rs) := by
        unfold upsertRenderedHostedCluster
        split
        · trivial
        · exact spares_upsertRenderedResource rfl
      refine (tends_idle hsnapshot tr1).bind fun tr2 r h2 => ?_
      have h12 := h1.1.trans h2
      split
      · trivial
      · exact tends_applyCluster ht (hs.extend h12) hl hf (hp.mono h12.subset)
          ((h1.2 _ rfl).mono h2.subset) hrs

end Live

lemma tends_reconcileAssignedCluster (ht : t = .reconcile .cluster ns name)
    (hs : Subject ⟨.cluster, ns, name⟩ tr c) (hl : c.deleting = false)
    (hf : clusterFinalizer ∈ c.finalizers) :
    (reconcileAssignedCluster p ns name c baseDomain).Guards Any (Tends p t) Done tr := by
  refine (modest_deleteIfExpired tends_modest (known_get hs.mem)).bind fun tr1 r h1 => ?_
  split
  · trivial
  have hs1 := hs.extend (h1 rfl)
  refine guards_idle tends_modest trivial .refl fun r h2 => ?_
  split
  · exact (modest_setClusterPhase tends_modest _).bind fun _ _ _ => trivial
  · trivial
  split
  · trivial
  · exact tends_reconcilePlacedCluster ht (hs1.extend h2) hl hf (known_get List.mem_cons_self)

/-! ### Deletion -/

section Claims

variable {A : List Event → Op → Prop} (hA : ∀ tr o, Modest tr o → A tr o)
include hA

lemma modest_releaseOidcConfig (tr : List Event) :
    (releaseOidcConfig c).Guards Any A (fun tr' r => Extends NoDoc tr tr' ∧
      (r = .ok () → ConfigReleased tr' c)) tr := by
  unfold releaseOidcConfig
  split
  · next h => exact ⟨.refl, fun _ => .inl h⟩
  unfold releaseOidcConfigClaim
  dsimp only
  split
  · next h => exact ⟨.refl, fun _ => .inr (.inl h)⟩
  refine guards_retry (P := Extends NoDoc tr) (fun tr1 h1 => ?_) _ .refl
  refine (guards_lookup hA tr1).bind fun tr2 r h2 => ?_
  have h12 := h1.trans h2.1
  split
  · next e =>
    refine ⟨⟨h12, fun hr => .inr (.inr (.inl (h2.2.2 ?_)))⟩, fun _ _ _ => h12⟩
    split at hr
    · next he => rw [beq_iff_eq.mp he]
    · cases hr
  · next i =>
    have hi := h2.2.1 i rfl
    split
    · next hne =>
      exact ⟨⟨h12, fun _ => .inr (.inr (.inr (.inl ⟨i, hi, hne⟩)))⟩, fun _ _ _ => h12⟩
    · refine guards_idle hA rfl h12 fun r h3 => ?_
      cases r with
      | error => exact ⟨⟨h3, nofun⟩, fun _ _ _ => h3⟩
      | ok w =>
        refine ⟨⟨h3, fun _ => .inr (.inr (.inr (.inr
          ⟨i.ns, i.name, _, w, List.mem_cons_self, hi.1, ?_⟩)))⟩, nofun⟩
        exact StringMap.value_without _ _

lemma modest_releaseDNSReservationClaim {i : Item .dnsReservation} {uid : Uid} (tr : List Event) :
    (releaseDNSReservationClaim i uid).Guards Any A (fun tr' r => Extends NoDoc tr tr' ∧
      (r = .ok () → ReservationReleased tr' i uid)) tr := by
  refine guards_retry (P := Extends NoDoc tr) (fun tr1 h1 => ?_) _ .refl
  refine guards_idle hA trivial h1 fun r h2 => ?_
  split
  · next e =>
    refine ⟨⟨h2, fun hr => .inl ?_⟩, fun _ _ _ => h2⟩
    split at hr
    · next he =>
      rw [beq_iff_eq.mp he]
      exact List.mem_cons_self
    · cases hr
  · next latest =>
    split
    · next hne =>
      exact ⟨⟨h2, fun _ => .inr (.inl ⟨latest, List.mem_cons_self, hne⟩)⟩, fun _ _ _ => h2⟩
    · next heq =>
      refine guards_idle hA rfl h2 fun r h3 => ?_
      cases r with
      | error => exact ⟨⟨h3, nofun⟩, fun _ _ _ => h3⟩
      | ok w =>
        refine ⟨⟨h3, fun _ => .inr (.inr ⟨_, w, List.mem_cons_self, ?_, ?_⟩)⟩, nofun⟩
        · exact not_not.mp (not_or.mp heq).1
        · exact StringMap.value_without _ _

lemma modest_releaseReservations {uid : Uid} (is : List (Item .dnsReservation)) (tr : List Event) :
    (releaseReservations name uid is).Guards Any A (fun tr' r => Extends NoDoc tr tr' ∧
      (r = none → ∀ i ∈ is, ReservationReleased tr' i uid)) tr := by
  induction is generalizing tr with
  | nil => exact ⟨.refl, by simp⟩
  | cons i is ih =>
    unfold releaseReservations
    split
    · exact ⟨.refl, fun hr => by cases hr⟩
    split
    · refine (modest_releaseDNSReservationClaim hA tr).bind fun tr1 r h1 => ?_
      split
      · exact ⟨h1.1, fun hr => by cases hr⟩
      refine (ih tr1).post fun tr2 r h2 => ⟨h1.1.trans h2.1, fun hr j hj => ?_⟩
      rcases List.mem_cons.mp hj with rfl | hj
      · exact (h1.2 rfl).mono h2.1.subset
      · exact h2.2 hr j hj
    · refine guards_idle hA rfl .refl fun r h1 => ?_
      split <;> exact ⟨h1, fun hr => by cases hr⟩

end Claims

section Dying

variable (ht : t = .reconcile .cluster ns name) (hs : Subject ⟨.cluster, ns, name⟩ tr c)
  (hd : c.deleting = true) (hf : clusterFinalizer ∈ c.finalizers) (hn : ∀ e ∈ tr, ¬Updates e)
include ht hs hd hf

include hn in
lemma tends_releaseCluster (hdocs : DocsGone p tr ns name c)
    (hpools : (⟨.kube (.list .nodePool (ofCluster c.uid)), .ok []⟩ : Event) ∈ tr)
    (hplace : (⟨.kube (.list .placement (ofCluster c.uid)), .ok []⟩ : Event) ∈ tr) :
    (releaseCluster ns name c).Guards Any (Tends p t) Done tr := by
  refine (modest_releaseOidcConfig tends_modest tr).next .ret fun tr1 _ h1 => ?_
  have hclaimed : (claimedReservations c).Guards Any (Tends p t) (fun tr' r =>
      Extends NoDoc tr1 tr' ∧ ∀ items, r = .ok items → c.uid = "" ∨
        (⟨.kube (.list .dnsReservation
          { ns := some (accountNamespace (accountOf c)),
            labels := [(claimedByClusterUIDLabel, c.uid)] }), .ok items⟩ : Event) ∈ tr') tr1 := by
    unfold claimedReservations
    split
    · next hu => exact ⟨.refl, fun _ _ => .inl hu⟩
    refine ⟨tends_modest _ _ (.inl trivial), fun r _ => ⟨?_, ?_⟩⟩
    · exact Extends.refl.cons (by simp) (by simp)
    · rintro items rfl
      exact .inr List.mem_cons_self
  refine hclaimed.next .ret fun tr2 _ h2 => ?_
  next items =>
  refine (modest_releaseReservations tends_modest items tr2).bind fun tr3 r h3 => ?_
  split
  · trivial
  have h13 := h1.1.trans (h2.1.trans h3.1)
  refine (guards_removeFinalizer tends_modest fun tr' s h hk _ => ?_).bind fun tr4 r _ => ?_
  · have h' := h13.trans h
    have h3' := h3.1.trans h
    have hres : ReservationsReleased tr' c := by
      rcases h2.2 items rfl with hu | hm
      · exact .inl hu
      · exact .inr ⟨items, h3'.subset hm, fun i hi => (h3.2 rfl i hi).mono h.subset⟩
    have hclean : ClusterCleaned p tr' ns name c :=
      { docs := hdocs.extend h'
        pools := h'.subset hpools
        placements := h'.subset hplace
        config := (h1.2 rfl).mono (h2.1.trans h3').subset
        reservations := hres
        first := noUpdates_extends h' hn }
    exact ⟨fun _ => ⟨s, hk, rfl, rfl, .dropCluster ht (hs.extend h') hd hf hclean⟩, nofun⟩
  · split <;> trivial

include hn in
lemma tends_cleanupAndRemoveFinalizer (hdocs : DocsGone p tr ns name c) :
    (cleanupAndRemoveFinalizer ns name c).Guards Any (Tends p t) Done tr := by
  refine guards_idle tends_modest trivial .refl fun r h1 => ?_
  split
  · trivial
  · next np nps =>
    refine (guards_deleteListed (np :: nps) .refl fun tr' i hi h => ?_).bind fun tr2 r _ => ?_
    · refine tends_modest _ _ (.inr ⟨by simp [Item.key], ?_⟩)
      exact (known_listed List.mem_cons_self hi).mono h.subset
    · split <;> trivial
  · refine guards_idle tends_modest trivial h1 fun r h2 => ?_
    split
    · trivial
    · next pl pls =>
      refine (guards_deleteListed (pl :: pls) .refl fun tr' i hi h => ?_).bind fun tr3 r _ => ?_
      · have h' := h2.trans h
        refine ⟨fun _ => ⟨(known_listed List.mem_cons_self hi).mono h.subset, ?_⟩,
          fun _ hr => by cases hr⟩
        exact .placement ht (hs.extend h') hd hf (hdocs.extend h')
      · split <;> trivial
    · refine tends_releaseCluster ht (hs.extend h2) hd hf (noUpdates_extends h2 hn)
        (hdocs.extend h2) ?_ List.mem_cons_self
      exact List.mem_cons_of_mem _ List.mem_cons_self

include hn in
lemma tends_finishClusterDelete (hdocs : DocsGone p tr ns name c) :
    (finishClusterDelete ns name c).Guards Any (Tends p t) Done tr := by
  refine (tends_idle (spares_deleteRenderedResource rfl) tr).next .ret fun tr1 _ h1 => ?_
  exact tends_cleanupAndRemoveFinalizer ht (hs.extend h1) hd hf (noUpdates_extends h1 hn)
    (hdocs.extend h1)

include hn in
lemma tends_withdrawCluster {mc : String} {external : Bool} {rs : List Resource} {pending : ℕ}
    (hmc : FoundPlace tr ns name c mc) (he : FoundExternal tr c external)
    (hrs : clusterResources p name c external c.status.baseDomain = some rs) :
    (withdrawCluster ns name mc c rs pending).Guards Any (Tends p t) Done tr := by
  have hw : ∀ tr' it, it ∈ applyItems mc (·.delete mc c.uid) rs → Extends AllDocs tr tr' →
      Writes p t tr' it.1 it.2 := by
    intro tr' it hit h
    obtain ⟨m, hm, rfl⟩ := List.mem_map.mp hit
    exact .clusterDelete ht (hs.extend h) hd hf (hmc.mono h.subset) (he.mono h.subset) hrs hm
  refine (guards_upsertDesires tends_modest (fun _ _ _ => tends_load) ?_ ?_ .refl).bind
    fun tr1 r h1 => ?_
  · exact fun tr' it i hm h hi hst => tends_put (hi ▸ hw tr' it hm h) hst
  · exact fun tr' it i hm h hi hheld => tends_store (hi ▸ hw tr' it hm h) hheld
  · split
    · trivial
    · next entries =>
      refine (guards_checkApplyDesireStatuses tends_modest entries tr1).bind fun tr2 synced h2 => ?_
      refine (modest_setClusterSyncedCondition tends_modest tr2).bind fun tr3 _ h3 => ?_
      have h13 : Extends AllDocs tr tr3 := h1.trans (h2.1.trans h3).of_noDoc
      split
      · trivial
      split
      · trivial
      have hr : ∀ tr' kd, kd ∈ clusterDocs mc name c rs → Extends NoDoc tr3 tr' →
          Removes p t tr' kd := fun tr' kd hkd h =>
        have h' : Extends AllDocs tr tr' := h13.trans h.of_noDoc
        .cluster ht (hs.extend h') hd hf (hmc.mono h'.subset) hrs hkd
      refine (guards_deleteDesireSpecs (clusterDocs mc name c rs)
        (fun tr' kd hkd h => ⟨trivial, by rintro d ⟨⟩; exact .delete (hr tr' kd hkd h)⟩)
        (fun tr' kd hkd h => ⟨trivial, by rintro d ⟨⟩; exact .forget (hr tr' kd hkd h)⟩)
        .refl).bind fun tr4 r h4 => ?_
      have h14 : Extends AllDocs tr tr4 := h13.trans h4.1.of_noDoc
      split
      · trivial
      · refine tends_finishClusterDelete ht (hs.extend h14) hd hf (noUpdates_extends h14 hn)
          ⟨mc, hmc.mono h14.subset, .inr ⟨external, rs, he.mono h14.subset, hrs, h4.2 rfl⟩⟩

include hn in
lemma tends_reconcileClusterDelete :
    (reconcileClusterDelete p ns name c).Guards Any (Tends p t) Done tr := by
  unfold reconcileClusterDelete
  split
  · trivial
  refine (modest_setClusterPhase tends_modest tr).bind fun tr1 _ h1 => ?_
  refine (guards_placedOn tends_modest tr1).bind fun tr2 mc h2 => ?_
  have h12 := h1.trans h2.1
  have hn2 := noUpdates_extends h12 hn
  split
  · next hmc =>
    exact tends_finishClusterDelete ht (hs.extend h12) hd hf hn2 ⟨mc, h2.2, .inl hmc⟩
  · unfold deletePlacedCluster
    refine guards_idle tends_modest trivial h12 fun r h3 => ?_
    split
    · trivial
    · next pools =>
      refine (guards_deleteListed pools .refl fun tr' i hi h => ?_).bind fun tr4 r h4 => ?_
      · refine tends_modest _ _ (.inr ⟨by simp [Item.key], ?_⟩)
        exact (known_listed List.mem_cons_self hi).mono h.subset
      · split
        · trivial
        refine (guards_oidcSigningKeyExternal tends_modest tr4).bind fun tr5 r h5 => ?_
        have h25 := h4.trans h5.1
        have h15 := h3.trans h25
        split
        · trivial
        split
        · trivial
        · next rs hrs =>
          refine tends_withdrawCluster ht (hs.extend h15) hd hf (noUpdates_extends h15 hn)
            (h2.2.mono ?_) (h5.2 _ rfl) hrs
          exact List.Subset.trans (List.subset_cons_self _ _) h25.subset

end Dying

lemma tends_reconcileCluster :
    (reconcileCluster p ns name).Guards Any (Tends p (.reconcile .cluster ns name)) Done [] := by
  refine guards_idle tends_modest trivial .refl fun r _ => ?_
  split
  · trivial
  · trivial
  · next c _ =>
    have hs : Subject ⟨.cluster, ns, name⟩ [⟨.kube (.get ⟨.cluster, ns, name⟩), .ok c⟩] c := rfl
    split
    · next hd =>
      by_cases hf : clusterFinalizer ∈ c.finalizers
      · refine tends_reconcileClusterDelete rfl hs hd hf ?_
        rintro e he ⟨k, o, r, rfl, -⟩
        cases List.mem_singleton.mp he
      · unfold reconcileClusterDelete
        rw [if_pos (by simpa using hf)]
        trivial
    · next hl =>
      split
      · next hf =>
        refine ⟨⟨fun _ => ⟨c, known_get List.mem_cons_self, rfl, rfl, .guardCluster rfl ?_⟩, nofun⟩,
          fun r _ => ?_⟩
        · simpa using hf
        · simp only [Prog.ret_bind]
          split <;> trivial
      · next hf =>
        refine (modest_ensureHostedClusterName tends_modest (known_get hs.mem)).bind
          fun tr1 r h1 => ?_
        split
        · trivial
        have hs1 := hs.extend (h1 rfl)
        refine (modest_reconcileDNSReservation tends_modest (known_get hs1.mem)).bind
          fun tr2 r h2 => ?_
        split
        · trivial
        · exact tends_reconcileAssignedCluster rfl (hs1.extend (h2 _ rfl)) (by simpa using hl)
            (by simpa using hf)

/-! ### All tasks -/

theorem tends_task (p : Params) (t : Task) :
    (t.code p).Guards Any (Tends p.operator t) Done [] := by
  have hidle : ∀ {α : Type} {t : Task} {m : FleetProg α} {f : α → Reply}, Spares Unmanaged m →
      (m.bind fun a => .ret (f a)).Guards Any (Tends p.operator t) Done [] :=
    fun hm => (tends_idle hm []).bind fun _ _ _ => trivial
  cases t with
  | request r => exact (modest_request tends_modest r []).bind fun _ _ _ => trivial
  | createCluster => exact tends_createCluster.bind fun _ _ _ => trivial
  | createNodePool => exact (tends_createNodePool []).bind fun _ _ _ => trivial
  | createOidcConfig => exact hidle (spares_createOidcConfig rfl)
  | createDNSReservation => exact hidle (spares_createDNSReservation rfl)
  | reconcile c ns name =>
    cases c with
    | cluster => exact tends_reconcileCluster.bind fun _ _ _ => trivial
    | nodePool => exact tends_reconcileNodePool.bind fun _ _ _ => trivial
    | placement => exact tends_reconcilePlacement.bind fun _ _ _ => trivial
    | oidcConfig => exact hidle (spares_reconcileOidcConfig rfl trivial fun _ => rfl)
    | dnsReservation => exact hidle (spares_reconcileReservation (unmanaged_of_kind rfl) rfl)
  | register ns name => exact hidle ⟨within_write rfl rfl, fun _ => trivial⟩
  | report k s =>
    exact ⟨⟨trivial, by rintro d ⟨⟩; exact .report k s⟩, fun _ _ => trivial⟩
  | observe k content =>
    exact ⟨⟨trivial, by rintro d ⟨⟩; exact .observe k content⟩, fun _ _ => trivial⟩
  | restart => exact ⟨⟨trivial, by rintro d ⟨⟩; exact .reset⟩, fun _ _ => trivial⟩

end Seaplane.Fleet
