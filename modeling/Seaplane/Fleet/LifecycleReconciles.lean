import Seaplane.Fleet.LifecycleRequests

/-!
Reconciles tend the managed objects and the documents: what a reconcile writes rests on the state of
its object that it has read first, and it gives up the finalizer at the very end.
-/

namespace Seaplane.Fleet

open Lib Kube Operator
open Dynamo (DocKey DesireSpec)

variable {p : Operator.Params} {t : Task} {ns name : String} {tr : List Event}

lemma noUpdates_extends {D : DocKey → Prop} {tr tr' : List Event} (h : Extends D tr tr')
    (hn : ∀ e ∈ tr, ¬Updates e) : ∀ e ∈ tr', ¬Updates e := by
  obtain ⟨es, rfl, he⟩ := h
  intro e hm
  rcases List.mem_append.mp hm with hm | hm
  · exact (he e hm).2
  · exact hn e hm

/-! ### Placements -/

section Placement

variable {c : Object .cluster} (ht : t = .reconcile .placement ns name)
  (hs : Subject ⟨.cluster, ns, name⟩ tr c) (hl : c.deleting = false)
include ht hs hl

lemma tends_ensurePlacement :
    (ensurePlacement ns name c).Guards Any (Tends p t) (fun tr' r => Extends NoDoc tr tr' ∧
      ∀ pl, r = .ok (some pl) → Known tr' (placementKey ns name) pl) tr := by
  have hA := tends_modest (p := p) (t := t)
  refine guards_idle hA trivial .refl fun r h1 => ?_
  split
  · refine ⟨h1, ?_⟩
    rintro pl ⟨⟩
    exact known_get List.mem_cons_self
  · have hselect : Spares Unmanaged selectManagementCluster := by
      refine .call within_list fun r => ?_
      split
      · trivial
      · split <;> trivial
    refine (tends_idle hselect _).bind fun tr2 r h2 => ?_
    have h12 := h1.trans h2
    split
    · exact ⟨h12, nofun⟩
    refine .call ⟨fun _ => .placement ht (hs.extend h12) hl rfl rfl rfl, nofun⟩ fun r _ _ => ?_
    have h3 := h12.cons (o := .kube (.create (placementKey ns name) _)) (r := r)
      (by simp) (by simp)
    split
    · refine ⟨h3, ?_⟩
      rintro pl ⟨⟩
      exact ⟨_, _, List.mem_cons_self, rfl⟩
    · exact ⟨h3, nofun⟩
    · exact ⟨h3, nofun⟩
  · exact ⟨h1, nofun⟩

lemma tends_referToPlacement {pl : Object .placement} (hp : Known tr (placementKey ns name) pl) :
    (referToPlacement ns name c pl.spec.managementCluster).Guards Any (Tends p t) Done tr := by
  unfold referToPlacement
  split
  · trivial
  refine (guards_latestStatus tends_modest fun tr' s st h hk hst => ?_).post fun _ _ _ => trivial
  cases hst
  exact ⟨fun _ => ⟨s, hk, rfl, rfl, .refer ht (hs.extend h) hl (hp.mono h.subset)⟩, nofun⟩

end Placement

lemma tends_reconcilePlacement :
    (reconcilePlacement ns name).Guards Any (Tends p (.reconcile .placement ns name)) Done [] := by
  have hA := tends_modest (p := p) (t := .reconcile .placement ns name)
  refine guards_idle hA trivial .refl fun r _ => ?_
  split
  · trivial
  · trivial
  · next c _ =>
    split
    · trivial
    · next hl =>
      have hs : Subject ⟨.cluster, ns, name⟩ [⟨.kube (.get ⟨.cluster, ns, name⟩), .ok c⟩] c := rfl
      have hl' : c.deleting = false := by simpa using hl
      refine (tends_ensurePlacement rfl hs hl').bind fun tr1 r h1 => ?_
      split
      · trivial
      · trivial
      · next pl =>
        have hbind : (bindPlacement ns name pl).Guards Any
            (Tends p (.reconcile .placement ns name)) (fun tr' _ => Extends NoDoc tr1 tr') tr1 := by
          unfold bindPlacement
          split
          · exact .refl
          · exact guards_updateLatestStatus hA (fun _ _ _ => rfl) tr1
        refine hbind.bind fun tr2 r h2 => ?_
        split
        · trivial
        have hp := (h1.2 pl rfl).mono h2.subset
        refine (tends_referToPlacement rfl (hs.extend (h1.1.trans h2)) hl' hp).bind
          fun tr3 r _ => ?_
        split <;> trivial

/-! ### NodePools -/

lemma guards_parentCluster {A : List Event → Op → Prop} (hA : ∀ tr o, Modest tr o → A tr o)
    {np : Object .nodePool} (tr : List Event) :
    (parentCluster ns np).Guards Any A (fun tr' r => Extends NoDoc tr tr' ∧
      (∀ cn c, r = .ok (cn, c) → ParentRead tr' ns np cn c) ∧
      (r = .error .ownerMissing ∨ r = .error (.store .notFound) → ParentMissing tr' ns np)) tr := by
  unfold parentCluster
  split
  · next hown => exact ⟨.refl, by simp, fun _ => .inl hown⟩
  · next owner hown =>
    refine guards_idle hA trivial .refl fun r h1 => ?_
    split
    · next e =>
      refine ⟨h1, by simp, fun h => .inr ⟨owner, _, hown, List.mem_cons_self, .inl ?_⟩⟩
      rcases h with h | h
      · cases h
      · cases h; rfl
    · next c =>
      split
      · next hne =>
        exact ⟨h1, by simp, fun _ => .inr ⟨owner, _, hown, List.mem_cons_self, .inr ⟨c, rfl, hne⟩⟩⟩
      · next heq =>
        refine ⟨h1, ?_, by simp⟩
        rintro cn c' ⟨⟩
        refine ⟨?_, List.mem_cons_self⟩
        -- the owner is a Cluster, by the check of its kind
        have hkind : owner.kind = "Cluster" := by
          obtain ⟨-, hf⟩ := Option.filter_eq_some_iff.mp hown
          simp only [Bool.and_eq_true, beq_iff_eq] at hf
          exact hf.1
        rw [hown, ← hkind, not_not.mp heq]

section NodePool

variable {np : Object .nodePool} {cn : String} {c : Object .cluster} {ref : PlacementReference}
  {m : Resource} (ht : t = .reconcile .nodePool ns name)

lemma tends_setNodePoolPhase {phase : String} (tr : List Event) :
    (setNodePoolPhase ns name np phase).Guards Any (Tends p t)
      (fun tr' _ => Extends NoDoc tr tr') tr := by
  unfold setNodePoolPhase
  split
  · exact .refl
  · exact (guards_updateLatestStatus tends_modest (fun _ _ _ => rfl) tr).bind fun _ _ h => h

lemma tends_awaitCluster (tr : List Event) :
    (awaitCluster ns name np).Guards Any (Tends p t) Done tr :=
  (tends_setNodePoolPhase tr).bind fun _ _ _ => trivial

include ht in
lemma tends_releaseNodePool (hs : Subject ⟨.nodePool, ns, name⟩ tr np) (hd : np.deleting = true)
    (hf : nodePoolFinalizer ∈ np.finalizers)
    (hc : ∀ tr', Extends NoDoc tr tr' → PoolCleaned p tr' ns name np) :
    (releaseNodePool ns name).Guards Any (Tends p t) Done tr := by
  refine (tends_idle (spares_deleteRenderedResource rfl) tr).next .ret fun tr1 _ h1 => ?_
  refine (guards_removeFinalizer tends_modest fun tr' s h hk hm => ?_).bind fun tr2 r _ => ?_
  · have h' := h1.trans h
    exact ⟨fun _ => ⟨s, hk, rfl, rfl, .dropPool ht (hs.extend h') hd hf (hc tr' h') hm⟩, nofun⟩
  · split <;> trivial

include ht in
lemma tends_withdrawNodePool (hs : Subject ⟨.nodePool, ns, name⟩ tr np) (hd : np.deleting = true)
    (hf : nodePoolFinalizer ∈ np.finalizers) (hpar : ParentRead tr ns np cn c)
    (href : c.status.placementRef = some ref) (hm : nodePoolResource p name np cn c = some m) :
    (withdrawNodePool ns name ref.managementCluster c.uid m).Guards Any (Tends p t) Done tr := by
  have hw : ∀ tr', Extends (· = m.applyKey ref.managementCluster) tr tr' → Writes p t tr'
      (m.applyKey ref.managementCluster) (m.delete ref.managementCluster c.uid) :=
    fun tr' h => .poolDelete ht (hs.extend h) hd hf (hpar.mono h.subset) href hm
  refine (guards_upsertDesire tends_modest ?_ ?_ ?_).bind fun tr1 r h1 => ?_
  · exact ⟨trivial, by rintro d ⟨⟩; exact .load _⟩
  · intro tr' i h hi hst
    refine ⟨trivial, ?_⟩
    rintro d ⟨⟩
    exact .put (hi ▸ hw tr' h) hst
  · intro tr' i h hi hheld
    refine ⟨trivial, ?_⟩
    rintro d ⟨⟩
    exact .store (hi ▸ hw tr' h) hheld
  · split
    · trivial
    · next u =>
      obtain ⟨i, hi, hu, hheld⟩ := h1.held u rfl
      refine (guards_checkApplyDesireStatuses tends_modest _ tr1).bind fun tr2 synced h2 => ?_
      have hset : (setNodePoolSyncedCondition ns name synced).Guards Any (Tends p t)
          (fun tr' _ => Extends NoDoc tr2 tr') tr2 := by
        unfold setNodePoolSyncedCondition
        exact (guards_updateLatestStatus tends_modest (fun _ _ _ => rfl) tr2).bind fun _ _ h => h
      refine hset.bind fun tr3 _ h3 => ?_
      split
      · trivial
      · next hsync =>
        have hrep : Reported tr2 ⟨m.applyKey ref.managementCluster, u.updateTime⟩ :=
          h2.2 (by simpa using hsync) _ (List.mem_singleton.mpr rfl)
        have h13 := h2.1.trans h3
        have hconf : ∀ tr', Extends NoDoc tr3 tr' → Confirmed tr'
            (m.applyKey ref.managementCluster) (m.delete ref.managementCluster c.uid) := by
          intro tr' h
          refine ⟨i, hi, (h13.trans h).since id hheld, ?_⟩
          rw [hu]
          exact hrep.mono (h3.trans h).subset
        have hext : ∀ tr', Extends NoDoc tr3 tr' →
            Extends (· = m.applyKey ref.managementCluster) tr tr' :=
          fun tr' h => h1.extend.trans (h13.trans h).of_noDoc
        have hr : ∀ tr' kd, Extends NoDoc tr3 tr' →
            (kd = m.applyKey ref.managementCluster ∨ kd = m.readKey ref.managementCluster) →
              Removes p t tr' kd := fun tr' kd h hkd =>
          .pool ht (hs.extend (hext tr' h)) hd hf (hpar.mono (hext tr' h).subset) href hm
            (hconf tr' h) hkd
        have hdel : ∀ tr' kd, Extends NoDoc tr3 tr' →
            (kd = m.applyKey ref.managementCluster ∨ kd = m.readKey ref.managementCluster) →
              Tends p t tr' (.dynamo (.deleteItem kd)) := fun tr' kd h hkd =>
          ⟨trivial, by rintro d ⟨⟩; exact .delete (hr tr' kd h hkd)⟩
        have hforget : ∀ tr' kd, Extends NoDoc tr3 tr' →
            (kd = m.applyKey ref.managementCluster ∨ kd = m.readKey ref.managementCluster) →
              Tends p t tr' (.dynamo (.cacheDelete kd)) := fun tr' kd h hkd =>
          ⟨trivial, by rintro d ⟨⟩; exact .forget (hr tr' kd h hkd)⟩
        unfold deleteNodePoolSpecs
        refine Prog.Guards.bind (R := fun tr' r => Extends NoDoc tr3 tr' ∧ (r = .ok () →
          Cleared tr' (m.applyKey ref.managementCluster) ∧
            Cleared tr' (m.readKey ref.managementCluster))) ?_ ?_
        · refine (guards_deleteDesireSpec (hdel _ _ .refl (.inl rfl)) fun r => ?_).bind
            fun tr4 r4 h4 => ?_
          · exact hforget _ _ (Extends.refl.cons (by simp) (by simp)) (.inl rfl)
          · refine (guards_deleteDesireSpec (hdel _ _ h4.1 (.inr rfl)) fun r => ?_).bind
              fun tr5 r5 h5 => ⟨h4.1.trans h5.1, fun hr5 => ?_⟩
            · exact hforget _ _ (h4.1.cons (by simp) (by simp)) (.inr rfl)
            · cases r4 with
              | error => cases hr5
              | ok => exact ⟨h5.1.since id (h4.2.1 rfl), h5.2.1 hr5⟩
        · intro tr6 r6 h6
          cases r6 with
          | error => trivial
          | ok =>
            obtain ⟨happ, hread⟩ := h6.2 rfl
            refine tends_releaseNodePool ht (hs.extend (hext _ h6.1)) hd hf fun tr' h => ?_
            have h' := h6.1.trans h
            exact .withdrawn (hpar.mono (hext _ h').subset) href hm (hconf _ h') (h.since id happ)
              (h.since id hread)

include ht in
lemma tends_reconcileNodePoolDelete (hs : Subject ⟨.nodePool, ns, name⟩ tr np)
    (hd : np.deleting = true) :
    (reconcileNodePoolDelete p ns name np).Guards Any (Tends p t) Done tr := by
  unfold reconcileNodePoolDelete
  split
  · trivial
  · next hf =>
    have hf' : nodePoolFinalizer ∈ np.finalizers := by simpa using hf
    refine (tends_setNodePoolPhase tr).bind fun tr1 _ h1 => ?_
    refine (guards_parentCluster tends_modest tr1).bind fun tr2 r h2 => ?_
    have hs2 := hs.extend (h1.trans h2.1)
    split
    · have hmiss := h2.2.2 (.inr rfl)
      exact tends_releaseNodePool ht hs2 hd hf' fun tr' h => .missing (hmiss.mono h.subset)
    · have hmiss := h2.2.2 (.inl rfl)
      exact tends_releaseNodePool ht hs2 hd hf' fun tr' h => .missing (hmiss.mono h.subset)
    · trivial
    · next cn c =>
      have hpar := h2.2.1 cn c rfl
      split
      · next href =>
        exact tends_releaseNodePool ht hs2 hd hf' fun tr' h => .unplaced (hpar.mono h.subset) href
      · next ref href =>
        split
        · trivial
        · next m hm => exact tends_withdrawNodePool ht hs2 hd hf' hpar href hm

include ht in
lemma tends_applyNodePool (hs : Subject ⟨.nodePool, ns, name⟩ tr np) (hl : np.deleting = false)
    (hf : nodePoolFinalizer ∈ np.finalizers) (hpar : ParentRead tr ns np cn c)
    (href : c.status.placementRef = some ref) (hm : nodePoolResource p name np cn c = some m) :
    (applyNodePool p ns name ref.managementCluster c.uid m).Guards Any (Tends p t) Done tr := by
  have hput : ∀ {tr' kd i}, Writes p t tr' kd i.spec → Stamped tr' i →
      Tends p t tr' (.dynamo (.putItem kd i)) :=
    fun hw hst => ⟨trivial, by rintro d ⟨⟩; exact .put hw hst⟩
  have hstore : ∀ {tr' kd i}, Writes p t tr' kd i.spec → Held tr' kd i →
      Tends p t tr' (.dynamo (.cacheStore kd i)) :=
    fun hw hheld => ⟨trivial, by rintro d ⟨⟩; exact .store hw hheld⟩
  have hload : ∀ tr' kd, Tends p t tr' (.dynamo (.cacheLoad kd)) :=
    fun tr' kd => ⟨trivial, by rintro d ⟨⟩; exact .load _⟩
  refine (tends_idle (spares_upsertRenderedResource rfl) tr).next .ret fun tr1 _ h1 => ?_
  have happly : ∀ tr', Extends AllDocs tr tr' → Writes p t tr' (m.applyKey ref.managementCluster)
      (m.serverSideApply ref.managementCluster c.uid) :=
    fun tr' h => .pool ht (hs.extend h) hl hf (hpar.mono h.subset) href hm
  have hread : ∀ tr', Extends AllDocs tr tr' → Writes p t tr' (m.readKey ref.managementCluster)
      (m.read ref.managementCluster c.uid) :=
    fun tr' h => .poolRead ht (hs.extend h) hl hf (hpar.mono h.subset) href hm
  have hall1 : ∀ {D : DocKey → Prop} {tr'}, Extends D tr1 tr' → Extends AllDocs tr tr' :=
    fun h => h1.of_noDoc.trans (h.imp fun _ _ => trivial)
  refine (guards_upsertDesire tends_modest (hload _ _) ?_ ?_).bind fun tr2 r2 h2 => ?_
  · exact fun tr' i h hi hst => hput (hi ▸ happly tr' (hall1 h)) hst
  · exact fun tr' i h hi hheld => hstore (hi ▸ happly tr' (hall1 h)) hheld
  · have hall2 : ∀ {tr'}, Extends (· = m.readKey ref.managementCluster) tr2 tr' →
        Extends AllDocs tr tr' := fun h => (hall1 h2.extend).trans (h.imp fun _ _ => trivial)
    refine (guards_upsertDesire tends_modest (hload _ _) ?_ ?_).bind fun tr3 r3 h3 => ?_
    · exact fun tr' i h hi hst => hput (hi ▸ hread tr' (hall2 h)) hst
    · exact fun tr' i h hi hheld => hstore (hi ▸ hread tr' (hall2 h)) hheld
    · split
      · have hfeedback : ∀ {entry readKey tr'},
            (updateNodePoolStatusFromDynamo p ns name entry readKey).Guards Any (Tends p t)
              Done tr' := by
          intro entry readKey tr'
          unfold updateNodePoolStatusFromDynamo
          refine (guards_checkApplyDesireStatuses tends_modest _ tr').bind fun tr4 _ _ => ?_
          refine guards_idle tends_modest rfl .refl fun r _ => ?_
          exact (guards_updateLatestStatus (k := poolKey ns name) tends_modest (fun _ _ _ => rfl)
            _).bind fun _ _ _ => trivial
        refine hfeedback.bind fun tr4 _ _ => ?_
        refine guards_idle tends_modest trivial .refl fun r _ => ?_
        split
        · trivial
        split
        · exact (tends_setNodePoolPhase _).bind fun _ _ _ => trivial
        · trivial
      · trivial

end NodePool

lemma tends_reconcileNodePool :
    (reconcileNodePool p ns name).Guards Any (Tends p (.reconcile .nodePool ns name)) Done [] := by
  have hA := tends_modest (p := p) (t := .reconcile .nodePool ns name)
  refine guards_idle hA trivial .refl fun r _ => ?_
  split
  · trivial
  · trivial
  · next np _ =>
    have hs : Subject ⟨.nodePool, ns, name⟩ [⟨.kube (.get ⟨.nodePool, ns, name⟩), .ok np⟩] np := rfl
    split
    · next hd => exact tends_reconcileNodePoolDelete rfl hs hd
    · next hl =>
      split
      · next hf =>
        refine ⟨⟨fun _ => ⟨np, known_get List.mem_cons_self, rfl, rfl, .guardPool rfl ?_⟩, nofun⟩,
          fun r _ => ?_⟩
        · simpa using hf
        · simp only [Prog.ret_bind]
          split <;> trivial
      · next hf =>
        refine (guards_parentCluster hA _).bind fun tr1 r h1 => ?_
        split
        · exact tends_awaitCluster _
        · trivial
        · next cn c =>
          split
          · exact tends_awaitCluster _
          split
          · trivial
          · next ref href =>
            split
            · trivial
            · next m hm =>
              exact tends_applyNodePool rfl (hs.extend h1.1) (by simpa using hl)
                (by simpa using hf) (h1.2.1 cn c rfl) href hm

end Seaplane.Fleet
