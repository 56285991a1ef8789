import Seaplane.Fleet.Lifecycle

/-!
Requests write back the managed objects they have read, delete them, and create Clusters and
NodePools; a request creates at most one Cluster.
-/

namespace Seaplane.Fleet

open Lib Kube Api

variable {p : Operator.Params} {q : Api.Params} {t : Task} {account name : String}

/-- More was seen, and no Cluster was created. -/
structure Onward (tr tr' : List Event) : Prop where
  subset : tr ⊆ tr'
  first : NoCluster tr → NoCluster tr'

namespace Onward

variable {tr tr' tr'' : List Event}

lemma refl : Onward tr tr := ⟨List.Subset.refl tr, id⟩

lemma trans (h : Onward tr tr') (h' : Onward tr' tr'') : Onward tr tr'' :=
  ⟨List.Subset.trans h.subset h'.subset, h'.first ∘ h.first⟩

lemma cons {o : Op} {r : o.Res} (h : Onward tr tr')
    (ho : ∀ k w, o = .kube (.create k w) → k.kind ≠ .cluster) : Onward tr (⟨o, r⟩ :: tr') := by
  refine ⟨List.Subset.trans h.subset (List.subset_cons_self _ _), fun hn e he => ?_⟩
  rcases List.mem_cons.mp he with rfl | he
  · rintro ⟨k, w, hk, hkind⟩
    exact ho k w hk hkind
  · exact h.first hn e he

end Onward

/-! ### Requests that create nothing managed -/

section Modest

variable {A : List Event → Op → Prop} (hA : ∀ tr o, Modest tr o → A tr o) (tr : List Event)
include hA

lemma guards_unmanaged {α : Type} {m : FleetProg α} (hm : Spares Unmanaged m) (tr : List Event) :
    m.Guards Any A (fun tr' _ => Onward tr tr') tr := by
  refine hm.guards .refl (fun tr o _ ho => hA tr o (.inl (idle_of_within ho))) ?_
  intro tr' o r h ho
  refine h.cons ?_
  rintro k w rfl hk
  have hf : managed k.kind = false := ho.object k rfl
  rw [hk] at hf
  cases hf

lemma guards_updateOwned {k : Key} {o : Object k.kind} {tr : List Event}
    (h : Keeps tr (.kube (.update k o))) :
    (updateOwned account k o).Guards Any A (fun tr' _ => Onward tr tr') tr := by
  unfold updateOwned
  split
  · exact ⟨hA _ _ (.inr h), fun _ _ => Onward.refl.cons (by simp)⟩
  · exact .refl

lemma guards_deleteOwned {k : Key} {o : Object k.kind} {tr : List Event}
    (h : Keeps tr (.kube (.delete k o))) :
    (deleteOwned account k o).Guards Any A (fun tr' _ => Onward tr tr') tr := by
  unfold deleteOwned
  split
  · exact ⟨hA _ _ (.inr h), fun _ _ => Onward.refl.cons (by simp)⟩
  · exact .refl

lemma modest_updateClusterOnce {spec : Json} (tr : List Event) :
    (updateClusterOnce q account name spec).Guards Any A Done tr := by
  have hwrite : ∀ {cr : Object .cluster} {preserved : ClusterSpec} {tr : List Event},
      Known tr (Api.clusterKey account name) cr →
        (updateClusterOnce.writeCandidate q account name spec cr
          { cr with spec := preserved }).Guards Any A Done tr := by
    intro cr preserved tr hk
    refine (guards_unmanaged hA spares_authorizeResource tr).next .ret fun tr1 _ h1 => ?_
    refine (guards_unmanaged hA (always_checkClusterTags reading_within) _).next .ret
      fun tr2 _ h2 => ?_
    refine (guards_unmanaged hA (always_claimChangedQueue (queueing_within fun _ => rfl)) tr2).bind
      fun tr3 r h3 => ?_
    split
    · trivial
    have hk3 := hk.mono (h1.trans (h2.trans h3)).subset
    exact (guards_updateOwned hA (keeps_spec hk3 preserved)).bind
      (by rintro _ (⟨⟨⟩⟩ | _) _ <;> trivial)
  refine guards_idle hA trivial .refl fun r _ => ?_
  split
  · trivial
  · trivial
  refine (guards_unmanaged hA spares_authorizeResource _).next .ret fun tr1 _ h1 => ?_
  dsimp only
  split
  · trivial
  split
  · trivial
  split
  · trivial
  · exact hwrite (known_get (h1.subset List.mem_cons_self))

lemma modest_updateNodePoolOnce {spec : Json} (tr : List Event) :
    (updateNodePoolOnce q account name spec).Guards Any A Done tr := by
  have hwrite : ∀ {cr : Object .nodePool} {preserved : NodePoolSpec} {tr : List Event},
      Known tr (Api.nodePoolKey account name) cr →
        (updateNodePoolOnce.writeCandidate q account name spec cr
          { cr with spec := preserved }).Guards Any A Done tr := by
    intro cr preserved tr hk
    refine (guards_unmanaged hA spares_authorizeNodePool tr).next .ret fun tr1 _ h1 => ?_
    refine (guards_unmanaged hA (always_checkNodePoolTags reading_within) _).next .ret
      fun tr2 _ h2 => ?_
    have hk2 := hk.mono (h1.trans h2).subset
    exact (guards_updateOwned hA (keeps_spec hk2 preserved)).bind
      (by rintro _ (⟨⟨⟩⟩ | _) _ <;> trivial)
  refine guards_idle hA trivial .refl fun r _ => ?_
  split
  · trivial
  · trivial
  refine (guards_unmanaged hA spares_authorizeNodePool _).next .ret fun tr1 _ h1 => ?_
  dsimp only
  split
  · trivial
  split
  · trivial
  split
  · trivial
  · exact hwrite (known_get (h1.subset List.mem_cons_self))

lemma modest_labelOnce {served : Served} {patch : Patch} {uid : Uid} :
    (labelOnce account name served patch uid).Guards Any A Done tr := by
  refine guards_idle hA trivial .refl fun r _ => ?_
  split
  · trivial
  · trivial
  · next obj _ =>
    split
    · trivial
    refine (guards_unmanaged hA spares_loadResource _).next
      (by rintro _ ⟨⟩ <;> trivial) fun tr1 _ h1 => ?_
    refine (guards_unmanaged hA spares_authorizeResource _).next .ret fun tr2 _ h2 => ?_
    dsimp only
    split
    · trivial
    split
    · trivial
    have hk : Known tr2 (served.key account name) obj :=
      known_get ((h1.trans h2).subset List.mem_cons_self)
    exact (guards_updateOwned hA ⟨obj, hk, rfl⟩).bind
      (by rintro _ (⟨⟨⟩⟩ | _) _ <;> trivial)

lemma modest_deleteCluster : (deleteCluster account name).Guards Any A Done tr := by
  refine guards_idle hA trivial .refl fun r _ => ?_
  split
  · trivial
  · trivial
  refine (guards_unmanaged hA spares_authorizeResource _).next .ret fun tr1 _ h1 => ?_
  have hk := known_get (h1.subset List.mem_cons_self)
  exact (guards_deleteOwned hA ⟨by simp, hk⟩).bind (by rintro _ (⟨⟨⟩⟩ | _) _ <;> trivial)

lemma modest_deleteNodePool : (deleteNodePool account name).Guards Any A Done tr := by
  refine guards_idle hA trivial .refl fun r _ => ?_
  split
  · trivial
  · trivial
  refine (guards_unmanaged hA spares_authorizeNodePool _).next .ret fun tr1 _ h1 => ?_
  have hk := known_get (h1.subset List.mem_cons_self)
  exact (guards_deleteOwned hA ⟨by simp, hk⟩).bind (by rintro _ (⟨⟨⟩⟩ | _) _ <;> trivial)

lemma modest_request (r : Request) (tr : List Event) : (r.code q).Guards Any A Done tr := by
  have hdone : ∀ {m : FleetProg Response}, Spares Unmanaged m → m.Guards Any A Done tr :=
    fun hm => (guards_unmanaged hA hm tr).post fun _ _ _ => trivial
  cases r with
  | updateCluster account name spec => exact guards_updateCluster tr (modest_updateClusterOnce hA)
  | updateNodePool account name spec =>
    exact guards_updateNodePool tr (modest_updateNodePoolOnce hA)
  | label account name served patch =>
    exact guards_resourceLabels tr fun tr => modest_labelOnce hA tr
  | delete account name served =>
    cases served with
    | cluster => exact modest_deleteCluster hA tr
    | nodePool => exact modest_deleteNodePool hA tr
    | oidcConfig => exact hdone (spares_deleteOidcConfig rfl)
    | dnsReservation => exact hdone (spares_deleteDNSReservation rfl)

/-! ### The creation of a Cluster -/

lemma modest_setManagedIssuerURL {uid : Uid} {oidcConfig : Option (Item .oidcConfig)} :
    (setManagedIssuerURL q account name uid oidcConfig).Guards Any A Done tr := by
  have hattempt : ∀ {url : String} tr,
      (updateManagedIssuerURL.attempt account name uid url).Guards Any A Done tr := by
    intro url tr
    refine guards_idle hA trivial .refl fun r _ => ?_
    split
    · trivial
    split
    · trivial
    refine (guards_updateOwned hA (keeps_spec (known_get List.mem_cons_self) _)).bind
      fun tr1 r _ => ?_
    split <;> trivial
  unfold setManagedIssuerURL
  split
  · exact guards_attempts hattempt _ tr
  · trivial

lemma modest_deleteClusterForCleanup {uid : Uid} :
    (deleteClusterForCleanup account name uid).Guards Any A Done tr := by
  have hattempt : ∀ tr,
      (deleteClusterForCleanup.attempt account name uid).Guards Any A Done tr := by
    intro tr
    refine guards_idle hA trivial .refl fun r _ => ?_
    split
    · trivial
    split
    · trivial
    · exact (guards_deleteOwned hA ⟨by simp, known_get List.mem_cons_self⟩).post
        fun _ _ _ => trivial
  exact (guards_attempts hattempt _ tr).bind fun _ _ _ => trivial

lemma modest_completeClusterCreate {c : Object .cluster}
    {reservation : Option (Item .dnsReservation)} {oidcConfig : Option (Item .oidcConfig)}
    (tr : List Event) :
    (completeClusterCreate q account name c reservation oidcConfig).Guards Any A Done tr := by
  have hgive : ∀ e tr, (completeClusterCreate.giveUp account name c e).Guards Any A Done tr :=
    fun e tr => (modest_deleteClusterForCleanup hA tr).bind fun _ _ _ => trivial
  refine (modest_setManagedIssuerURL hA tr).bind fun tr1 r _ => ?_
  split
  · exact hgive _ _
  refine (guards_unmanaged hA (spares_claimReference (c := claimableDNSReservation)
    (unmanaged_of_kind rfl)) tr1).bind fun tr2 r _ => ?_
  split
  · exact hgive _ _
  refine (guards_unmanaged hA (spares_claimReference (c := claimableOidcConfig)
    (unmanaged_of_kind rfl)) tr2).bind fun tr3 r _ => ?_
  split
  · exact hgive _ _
  refine (guards_unmanaged hA (spares_markUsed (unmanaged_of_kind rfl)) tr3).bind
    fun tr4 _ _ => ?_
  exact ⟨hA _ _ (.inl trivial), fun _ _ => trivial⟩

end Modest

lemma tends_createCluster {annotations : StringMap} {spec : ClusterSpec} :
    (createCluster q account name annotations spec).Guards Any
      (Tends p (.createCluster account name annotations spec)) Done [] := by
  have hA := tends_modest (p := p) (t := .createCluster account name annotations spec)
  have hstart : NoCluster ([] : List Event) := by simp [NoCluster]
  unfold createCluster
  split
  · trivial
  refine (guards_unmanaged hA spares_authorizeResource []).next .ret fun tr1 _ h1 => ?_
  refine (guards_unmanaged hA spares_resolve tr1).next .ret fun tr2 _ h2 => ?_
  next reservation =>
  refine (guards_unmanaged hA spares_resolve tr2).next .ret fun tr3 _ h3 => ?_
  next oidcConfig =>
  refine (guards_unmanaged hA spares_authorizeReferences tr3).next .ret fun tr4 _ h4 => ?_
  refine (guards_unmanaged hA spares_checkRequestedQueue tr4).next .ret fun tr5 _ h5 => ?_
  refine (guards_unmanaged hA spares_defaultExpiration tr5).bind fun tr6 e h6 => ?_
  have h16 := h1.trans (h2.trans (h3.trans (h4.trans (h5.trans h6))))
  have hrelease : ∀ {created e' tr'}, (do
        releaseRequestedQueue q account name (newCluster account name annotations spec e
          reservation oidcConfig).spec created
        return Response.error e' : FleetProg Response).Guards Any
      (Tends p (.createCluster account name annotations spec)) Done tr' :=
    (guards_unmanaged hA (spares_releaseRequestedQueue fun _ => rfl) _).bind
      fun _ _ _ => trivial
  refine (guards_unmanaged hA (spares_claimRequestedQueue fun _ => rfl) tr6).bind
    fun tr7 r h7 => ?_
  split
  · trivial
  split
  · exact hrelease
  refine ⟨⟨fun _ => .cluster rfl ((h16.trans h7).first hstart) rfl, nofun⟩,
    fun r _ => ?_⟩
  cases r with
  | error => exact hrelease
  | ok c =>
    refine (modest_completeClusterCreate hA _).bind fun tr8 r _ => ?_
    split
    · exact hrelease
    · trivial

/-! ### The creation of a NodePool -/

lemma guards_requireOwnedCluster {A : List Event → Op → Prop} (hA : ∀ tr o, Modest tr o → A tr o)
    {np : Object .nodePool} (tr : List Event) :
    (requireOwnedCluster account np).Guards Any A (fun tr' r => tr ⊆ tr' ∧
      (r = .ok () → ∃ owner, np.controller = some owner ∧ owner.uid ≠ "")) tr := by
  unfold requireOwnedCluster
  split
  · exact ⟨List.Subset.refl tr, nofun⟩
  · next owner hown =>
    split
    · exact ⟨List.Subset.refl tr, nofun⟩
    · next hne =>
      push Not at hne
      refine ⟨hA _ _ (.inl trivial), fun r _ => ?_⟩
      have hsub := List.subset_cons_self
        (⟨.kube (.get (Api.clusterKey account owner.name)), r⟩ : Event) tr
      simp only [Prog.ret_bind]
      split
      · exact ⟨hsub, nofun⟩
      split
      · exact ⟨hsub, nofun⟩
      · exact ⟨hsub, fun _ => ⟨owner, hown, hne.2.1⟩⟩

lemma tends_createNodePool {annotations : StringMap} {spec : NodePoolSpec} (tr : List Event) :
    (createNodePool q account name annotations spec).Guards Any
      (Tends p (.createNodePool account name annotations spec)) Done tr := by
  have hA := tends_modest (p := p) (t := .createNodePool account name annotations spec)
  unfold createNodePool
  split
  · trivial
  · next clusterName child hname =>
    refine guards_idle hA trivial .refl fun r _ => ?_
    split
    · trivial
    · trivial
    · next c _ =>
      split
      · trivial
      · next hlive =>
        split
        · trivial
        split
        · trivial
        refine (guards_unmanaged hA spares_authorizeNodePoolCreate _).next .ret fun tr1 _ h1 => ?_
        have hstore : (storeNodePool account name
            (newNodePool account clusterName c annotations spec)).Guards Any
            (Tends p (.createNodePool account name annotations spec)) Done tr1 := by
          unfold storeNodePool
          split
          · trivial
          refine (guards_requireOwnedCluster hA tr1).next .ret fun tr2 _ h2 => ?_
          obtain ⟨owner, hown, hne⟩ := h2.2 rfl
          cases hown
          refine ⟨⟨fun _ => .nodePool rfl (known_get ?_) (by simpa using hlive) hne rfl,
            nofun⟩, fun r _ => ?_⟩
          · exact h2.1 (h1.subset List.mem_cons_self)
          · simp only [Prog.ret_bind]
            split <;> trivial
        exact hstore.bind (by rintro _ (⟨⟨⟩⟩ | _) _ <;> trivial)

end Seaplane.Fleet
