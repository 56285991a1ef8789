import Seaplane.Api.Queues

/-!
No change without permission.

API requests that update, label or delete objects run together with anything else that uses the
store: other requests, controllers, each of their calls at any moment. Whatever object such a
request changes, the state it replaces is the one for which the authorizer allowed what the
request did, in the attempt that did it.
-/

namespace Seaplane.Api

open Lib Kube Fleet

/-! ### Attempts -/

/-- The kinds of objects the requests are about. -/
def isServed : Kind → Bool
  | .cluster | .nodePool | .oidcConfig | .dnsReservation => true
  | _ => false

def isConflict {α : Type} : Except Err α → Bool
  | .error .conflict => true
  | _ => false

/-- The write met a conflict: what follows is another attempt. -/
def retried : Event → Bool
  | ⟨.kube (.update k _), r⟩ => isServed k.kind && isConflict r
  | ⟨.kube (.delete k _), r⟩ => isServed k.kind && isConflict r
  | _ => false

def attempt (tr : List Event) : List Event := tr.takeWhile fun e => !retried e

lemma attempt_cons {e : Event} {tr : List Event} (h : retried e = false) :
    attempt (e :: tr) = e :: attempt tr := by simp [attempt, h]

/-! ### What a request needs -/

def deleteAction : Served → Action
  | .cluster => .deleteCluster
  | .nodePool => .deleteNodePool
  | .oidcConfig => .deleteOIDCConfig
  | .dnsReservation => .deleteDNSReservation

namespace Request

def key : Request → Key
  | updateCluster account name _ => clusterKey account name
  | updateNodePool account name _ => nodePoolKey account name
  | label account name t _ | delete account name t => t.key account name

/-- The base action: update, label or unlabel, delete. -/
def action : Request → Action
  | updateCluster _ _ _ => .updateCluster
  | updateNodePool _ _ _ => .updateNodePool
  | label _ _ _ patch => if patch.sets then .labelResource else .unlabelResource
  | delete _ _ t => deleteAction t

def updatesSpec : Request → Bool
  | updateCluster _ _ _ | updateNodePool _ _ _ => true
  | label _ _ _ _ | delete _ _ _ => false

/-- What a request needs to be allowed when it replaces one spec of its object by another: its base
action, a specialised one for what differs, and both actions of a patch that sets and removes. -/
inductive Needs : Request → (kind : Kind) → Spec kind → Spec kind → Action → Prop where
  | base {req : Request} {kind : Kind} {old new : Spec kind} : Needs req kind old new req.action
  | clusterConfig {account name : String} {body : Option Json} {old new : ClusterSpec}
      (differs : old.configuration ≠ new.configuration) :
      Needs (.updateCluster account name body) .cluster old new .updateClusterConfig
  | clusterVersion {account name : String} {body : Option Json} {old new : ClusterSpec}
      (differs : old.release ≠ new.release ∨
        old.controlPlaneUpgradePolicy ≠ new.controlPlaneUpgradePolicy) :
      Needs (.updateCluster account name body) .cluster old new .updateClusterVersion
  | scaling {account name : String} {body : Option Json} {old new : NodePoolSpec}
      (differs : old.replicas ≠ new.replicas ∨ old.autoScaling ≠ new.autoScaling) :
      Needs (.updateNodePool account name body) .nodePool old new .scaleNodePool
  | nodePoolVersion {account name : String} {body : Option Json} {old new : NodePoolSpec}
      (differs : old.release ≠ new.release) :
      Needs (.updateNodePool account name body) .nodePool old new .updateNodePoolVersion
  | sets {account name : String} {t : Served} {patch : Patch} {kind : Kind} {old new : Spec kind}
      (sets : ∃ e ∈ patch, e.2 ≠ none) :
      Needs (.label account name t patch) kind old new .labelResource
  | removes {account name : String} {t : Served} {patch : Patch} {kind : Kind}
      {old new : Spec kind} (removes : ∃ e ∈ patch, e.2 = none) :
      Needs (.label account name t patch) kind old new .unlabelResource

section

variable {account name : String} {body : Option Json} {a : Action}

lemma Needs.of_updateCluster {old new : ClusterSpec}
    (h : Needs (.updateCluster account name body) .cluster old new a) :
    a ∈ Action.updateCluster :: clusterUpdateActions old new := by
  cases h with
  | base => exact List.mem_cons_self
  | clusterConfig differs | clusterVersion differs => simp [clusterUpdateActions, differs]

lemma Needs.of_updateNodePool {old new : NodePoolSpec}
    (h : Needs (.updateNodePool account name body) .nodePool old new a) :
    a ∈ Action.updateNodePool :: nodePoolUpdateActions old new := by
  cases h with
  | base => exact List.mem_cons_self
  | scaling differs | nodePoolVersion differs => simp [nodePoolUpdateActions, differs]

lemma Needs.of_label {t : Served} {patch : Patch} {kind : Kind} {old new : Spec kind}
    (h : Needs (.label account name t patch) kind old new a) :
    a ∈ patch.actions.1 :: patch.actions.2 := by
  cases h with
  | base => exact List.mem_cons_self
  | sets sets =>
    obtain ⟨e, he, hv⟩ := sets
    have hs : patch.sets = true := List.any_eq_true.mpr ⟨e, he, Option.isSome_iff_ne_none.mpr hv⟩
    simp [Patch.actions, hs]
  | removes removes =>
    obtain ⟨e, he, hv⟩ := removes
    have hr : patch.removes = true := List.any_eq_true.mpr ⟨e, he, Option.isNone_iff_eq_none.mpr hv⟩
    by_cases hs : patch.sets = true <;> simp [Patch.actions, hs, hr]

lemma Needs.of_delete {t : Served} {kind : Kind} {old new : Spec kind}
    (h : Needs (.delete account name t) kind old new a) : a ∈ [deleteAction t] := by
  cases h
  exact List.mem_cons_self

end

end Request

def ResourceKind.stored : ResourceKind → Kind
  | cluster => .cluster
  | nodePool => .nodePool
  | oidcConfig => .oidcConfig
  | dnsReservation => .dnsReservation

/-- The account of an object is on a label of Clusters and NodePools, and otherwise in the
namespace. -/
def Belongs (account : String) (k : Key) (s : Object k.kind) : Prop :=
  if k.kind = .cluster ∨ k.kind = .nodePool then s.labels.value accountIDLabel = account
  else k.ns = accountNamespace account

/-- The controller of a NodePool is a Cluster, and a state of that Cluster was read. -/
def Parent (seen : List Event) (k : Key) (s : Object k.kind) (parent : Object .cluster) : Prop :=
  ∃ owner, s.controller = some owner ∧ owner.kind = "Cluster" ∧ parent.uid = owner.uid ∧
    s.labels.value clusterUIDLabel = owner.uid ∧
    ⟨.kube (.get ⟨.cluster, k.ns, owner.name⟩), .ok parent⟩ ∈ seen

/-- The resource stands for the object, and that of a NodePool for its parent too. -/
structure Describes (seen : List Event) (k : Key) (s : Object k.kind) (r : Resource) : Prop where
  kind : r.kind.stored = k.kind
  uid : r.id = s.uid
  account : Belongs r.accountID k s
  labels : r.labels = s.annotations
  parent : k.kind = .nodePool → ∃ parent, Parent seen k s parent ∧
    r.parentCluster = some ⟨parent.uid, parent.labels.value accountIDLabel, parent.annotations⟩

variable {seen : List Event} {k : Key} {s : Object k.kind}

lemma Describes.mono {seen' : List Event} (h : seen ⊆ seen') {r : Resource}
    (hr : Describes seen k s r) : Describes seen' k s r := by
  obtain ⟨hkind, hu, ha, hl, hp⟩ := hr
  refine ⟨hkind, hu, ha, hl, fun hk => ?_⟩
  obtain ⟨parent, ⟨owner, hc, ho, hu, hl, hm⟩, hr⟩ := hp hk
  exact ⟨parent, ⟨owner, hc, ho, hu, hl, h hm⟩, hr⟩

section

variable {account name : String}

lemma describes_cluster {cr : Object .cluster} :
    Describes seen (clusterKey account name) cr (clusterResource cr) :=
  ⟨rfl, rfl, rfl, rfl, nofun⟩

lemma belongs_namespace {k : Key} {s : Object k.kind} (hk : k.kind ≠ .cluster ∧ k.kind ≠ .nodePool)
    (hns : k.ns = accountNamespace account) : Belongs (namespaceAccount k.ns) k s := by
  rw [Belongs, if_neg (by simp [hk]), hns]
  simp [namespaceAccount, accountNamespace]

lemma describes_oidcConfig {oc : Object .oidcConfig} :
    Describes seen (Served.oidcConfig.key account name) oc
      (oidcConfigResource (accountNamespace account) oc) :=
  ⟨rfl, rfl, belongs_namespace ⟨nofun, nofun⟩ rfl, rfl, nofun⟩

lemma describes_dnsReservation {res : Object .dnsReservation} :
    Describes seen (Served.dnsReservation.key account name) res
      (dnsReservationResource (accountNamespace account) res) :=
  ⟨rfl, rfl, belongs_namespace ⟨nofun, nofun⟩ rfl, rfl, nofun⟩

end

/-- The authorizer allowed all that is needed on a state of the request's object that was read. -/
structure Approved (req : Request) (seen : List Event) {k : Key} (s : Object k.kind)
    (needs : Action → Prop) : Prop where
  about : k = req.key
  read : ⟨.kube (.get k), .ok s⟩ ∈ seen
  allowed : ∃ res, Describes seen k s res ∧
    ∀ a, needs a → (⟨.check a res, .allowed⟩ : Event) ∈ seen

lemma Approved.mono {req : Request} {seen' : List Event} {needs : Action → Prop}
    (ha : Approved req seen s needs) (h : seen ⊆ seen') : Approved req seen' s needs := by
  obtain ⟨hk, hr, res, hres, hall⟩ := ha
  exact ⟨hk, h hr, res, hres.mono h, fun a hm => h (hall a hm)⟩

lemma Approved.imp {req : Request} {needs needs' : Action → Prop} (h : Approved req seen s needs)
    (himp : ∀ a, needs' a → needs a) : Approved req seen s needs' := by
  obtain ⟨hk, hr, res, hres, hall⟩ := h
  exact ⟨hk, hr, res, hres, fun a hm => hall a (himp a hm)⟩

/-- What a request may do on the strength of what it has seen: reads and questions at any time;
reservations of queues once its base action is allowed; and a write of its object that is an
approved state but for its annotations and its spec. -/
def Lawful (req : Request) (tr : List Event) : Fleet.Op → Prop
  | .kube (.get _) | .kube (.list _ _) | .check _ _ | .now => True
  | .kube (.create k _) => k.kind = .index ∧ Based
  | .kube (.update k o) => k.kind = .index ∧ Based ∨
      ∃ s : Object k.kind, o = { s with annotations := o.annotations, spec := o.spec } ∧
        (req.updatesSpec = false → o.spec = s.spec) ∧
        Approved req (attempt tr) s (req.Needs k.kind s.spec o.spec)
  | .kube (.delete k o) => k.kind = .index ∧ Based ∨
      Approved req (attempt tr) o (req.Needs k.kind o.spec o.spec)
  | .kube (.updateStatus _ _) | .dynamo _ | .infra _ => False
where
  /-- The base action is allowed. -/
  Based : Prop := ∃ (k : Key) (s : Object k.kind), Approved req (attempt tr) s (· = req.action)

/-! ### Questions and reservations -/

section

variable {req : Request} {tr : List Event}

lemma guards_authorizeAll (res : Resource) (as : List Action) (tr : List Event) :
    (authorizeAll res as).Guards Any (Lawful req) (fun tr' r => attempt tr ⊆ attempt tr' ∧
      (r = .ok () → ∀ a ∈ as, (⟨.check a res, .allowed⟩ : Event) ∈ attempt tr')) tr := by
  induction as generalizing tr with
  | nil => exact ⟨List.Subset.refl _, by simp⟩
  | cons a as ih =>
    refine ⟨trivial, fun d _ => ?_⟩
    have hc : attempt (⟨.check a res, d⟩ :: tr) = ⟨.check a res, d⟩ :: attempt tr :=
      attempt_cons rfl
    have hsub : attempt tr ⊆ attempt (⟨.check a res, d⟩ :: tr) := by
      rw [hc]; exact List.subset_cons_self _ _
    cases d with
    | denied | failed => exact ⟨hsub, by simp⟩
    | allowed =>
      refine (ih _).post fun tr' r h => ⟨List.Subset.trans hsub h.1, fun hr b hb => ?_⟩
      rcases List.mem_cons.mp hb with rfl | hb
      · exact h.1 (by rw [hc]; exact List.mem_cons_self)
      · exact h.2 hr b hb

lemma guards_nodePoolResource (account name : String) (np : Object .nodePool) (tr : List Event) :
    (nodePoolResource account np).Guards Any (Lawful req) (fun tr' r => attempt tr ⊆ attempt tr' ∧
      ∀ res, r = .ok res → Describes (attempt tr') (nodePoolKey account name) np res) tr := by
  unfold nodePoolResource
  split
  · exact ⟨List.Subset.refl _, by simp⟩
  · next owner ho =>
    split
    · exact ⟨List.Subset.refl _, by simp⟩
    · next hown =>
      simp only [not_or, not_not] at hown
      refine ⟨trivial, fun r _ => ?_⟩
      set e : Event := ⟨.kube (.get (clusterKey account owner.name)), r⟩ with he
      have hc : attempt (e :: tr) = e :: attempt tr := attempt_cons rfl
      have hsub : attempt tr ⊆ attempt (e :: tr) := by
        rw [hc]; exact List.subset_cons_self _ _
      cases r with
      | error e => exact ⟨hsub, by simp⟩
      | ok parent =>
        simp only [Prog.ret_bind]
        split
        · exact ⟨hsub, by simp⟩
        · next hu =>
          refine ⟨hsub, fun res hres => ?_⟩
          cases hres
          exact ⟨rfl, rfl, rfl, rfl, fun _ => ⟨parent,
            ⟨owner, ho, hown.1, not_not.mp hu, hown.2.2, by rw [hc]; exact List.mem_cons_self⟩,
            rfl⟩⟩

/-- The outcome of asking: nothing seen is lost, and if everything was allowed, it was for a
resource that stands for the object. -/
def Asked (tr : List Event) {k : Key} (s : Object k.kind) (as : List Action) (tr' : List Event)
    (r : Except Response Unit) : Prop :=
  attempt tr ⊆ attempt tr' ∧ (r = .ok () → ∃ res, Describes (attempt tr') k s res ∧
    ∀ a ∈ as, (⟨.check a res, .allowed⟩ : Event) ∈ attempt tr')

variable {as : List Action}

lemma guards_authorizeResource {a : Action} {res : Resource}
    (hres : Describes (attempt tr) k s res) :
    (authorizeResource a res as).Guards Any (Lawful req) (Asked tr s (a :: as)) tr :=
  (guards_authorizeAll res (a :: as) tr).post fun _ _ h =>
    ⟨h.1, fun hr => ⟨res, hres.mono h.1, h.2 hr⟩⟩

lemma guards_authorizeNodePool {account : String} (name : String) {a : Action} {e : APIError}
    {np : Object .nodePool} :
    (authorizeNodePool account a e np as).Guards Any (Lawful req)
      (Asked (k := nodePoolKey account name) tr np (a :: as)) tr := by
  refine (guards_nodePoolResource account name np tr).bind fun tr1 r1 h1 => ?_
  cases r1 with
  | error e => cases e <;> exact ⟨h1.1, by simp⟩
  | ok res =>
    refine (guards_authorizeResource (h1.2 res rfl)).post fun tr' r h => ?_
    exact ⟨List.Subset.trans h1.1 h.1, h.2⟩

lemma Asked.approved (req : Request) {tr' : List Event}
    (h : Asked tr s (req.action :: as) tr' (.ok ())) (hk : k = req.key)
    (hr : ⟨.kube (.get k), .ok s⟩ ∈ attempt tr) :
    Approved req (attempt tr') s (· ∈ req.action :: as) :=
  ⟨hk, h.1 hr, h.2 rfl⟩

def Quiet : Fleet.Op → Prop
  | .kube (.get _) | .kube (.list _ _) | .check _ _ | .now => True
  | .kube (.create k _) | .kube (.update k _) | .kube (.delete k _) => k.kind = .index
  | .kube (.updateStatus _ _) | .dynamo _ | .infra _ => False

lemma Quiet.retried {o : Fleet.Op} (h : Quiet o) (r : o.Res) : Api.retried ⟨o, r⟩ = false := by
  cases o with
  | kube o =>
    cases o with
    | update k o | delete k o =>
      have hk : k.kind = .index := h
      simp [Api.retried, isServed, hk]
    | _ => rfl
  | _ => rfl

lemma Approved.quiet {α : Type} {m : FleetProg α}
    (hs : Approved req (attempt tr) s (· ∈ req.action :: as)) (hm : m.Always fun o _ => Quiet o) :
    m.Guards Any (Lawful req) (fun tr' _ => attempt tr ⊆ attempt tr') tr := by
  refine hm.guards (List.Subset.refl _) ?_ ?_
  · intro tr' o hsub ho
    have hb : ∃ (k : Key) (s : Object k.kind), Approved req (attempt tr') s (· = req.action) :=
      ⟨k, s, (hs.mono hsub).imp fun a ha => ha ▸ List.mem_cons_self⟩
    cases o with
    | kube o =>
      cases o with
      | get | list => trivial
      | create => exact ⟨ho, hb⟩
      | update | delete => exact .inl ⟨ho, hb⟩
      | updateStatus => exact ho
    | dynamo | infra => exact ho
    | check | now => trivial
  · intro tr' o r hsub ho
    rw [attempt_cons (ho.retried r)]
    exact List.Subset.trans hsub (List.subset_cons_self _ _)

end

section

variable {p : Params} {account name : String} {req : Request} {tr : List Event} {as : List Action}

lemma quiet_reading : Reading Quiet :=
  ⟨fun _ => trivial, fun _ _ => trivial, fun _ _ => trivial, trivial⟩

lemma quiet_queueing : Queueing Quiet :=
  ⟨quiet_reading, fun _ _ => rfl, fun _ _ => rfl, fun _ _ => rfl⟩

/-! ### The handlers -/

lemma guards_updateOwned {o : Object k.kind}
    (ho : o = { s with annotations := o.annotations, spec := o.spec })
    (hs : req.updatesSpec = false → o.spec = s.spec)
    (ha : Approved req (attempt tr) s (· ∈ req.action :: as))
    (hneeds : ∀ a, req.Needs k.kind s.spec o.spec a → a ∈ req.action :: as) :
    (updateOwned account k o).Guards Any (Lawful req) Done tr := by
  unfold updateOwned
  split
  · exact ⟨.inr ⟨s, ho, hs, ha.imp hneeds⟩, fun _ _ => trivial⟩
  · trivial

lemma guards_deleteOwned {o : Object k.kind}
    (ha : Approved req (attempt tr) o (· ∈ req.action :: as))
    (hneeds : ∀ a, req.Needs k.kind o.spec o.spec a → a ∈ req.action :: as) :
    (deleteOwned account k o).Guards Any (Lawful req) Done tr := by
  unfold deleteOwned
  split
  · exact ⟨.inr (ha.imp hneeds), fun _ _ => trivial⟩
  · trivial

lemma guards_get : (get k).Guards Any (Lawful req)
    (fun tr' r => (⟨.kube (.get k), r⟩ : Event) ∈ attempt tr') tr := by
  refine ⟨trivial, fun r _ => ?_⟩
  show _ ∈ attempt _
  rw [attempt_cons rfl]
  exact List.mem_cons_self

variable {body : Option Json} {spec : Json} {t : Served}

lemma guards_writeClusterCandidate {cr : Object .cluster} {new : ClusterSpec}
    (hr : ⟨.kube (.get (clusterKey account name)), .ok cr⟩ ∈ attempt tr) :
    (updateClusterOnce.writeCandidate p account name spec cr { cr with spec := new }).Guards Any
      (Lawful (.updateCluster account name body)) Done tr := by
  refine (guards_authorizeResource
    (k := clusterKey account name) describes_cluster).next .ret fun tr1 _ h1 => ?_
  have ha := h1.approved (.updateCluster account name body) rfl hr
  refine (ha.quiet (always_checkClusterTags quiet_reading)).next .ret fun tr2 _ h2 => ?_
  refine ((ha.mono h2).quiet (always_claimChangedQueue quiet_queueing)).next .ret fun tr3 _ h3 => ?_
  exact (guards_updateOwned (s := cr) rfl (by simp [Request.updatesSpec]) ((ha.mono h2).mono h3)
    fun _ => Request.Needs.of_updateCluster).bind (by rintro _ (⟨⟨⟩⟩ | _) _ <;> trivial)

lemma guards_updateClusterOnce (tr : List Event) :
    (updateClusterOnce p account name spec).Guards Any
      (Lawful (.updateCluster account name body)) Done tr := by
  refine guards_get.next (by rintro _ ⟨⟩ <;> trivial) fun tr0 cr h0 => ?_
  refine (guards_authorizeResource
    (k := clusterKey account name) describes_cluster).next .ret fun tr1 _ h1 => ?_
  dsimp only
  split
  · trivial
  split
  · trivial
  split
  · trivial
  · exact guards_writeClusterCandidate (h1.1 h0)

lemma guards_writeNodePoolCandidate {cr : Object .nodePool} {new : NodePoolSpec}
    (hr : ⟨.kube (.get (nodePoolKey account name)), .ok cr⟩ ∈ attempt tr) :
    (updateNodePoolOnce.writeCandidate p account name spec cr { cr with spec := new }).Guards Any
      (Lawful (.updateNodePool account name body)) Done tr := by
  refine (guards_authorizeNodePool name).next .ret fun tr1 _ h1 => ?_
  have ha := h1.approved (.updateNodePool account name body) rfl hr
  refine (ha.quiet (always_checkNodePoolTags quiet_reading)).next .ret fun tr2 _ h2 => ?_
  exact (guards_updateOwned (s := cr) rfl (by simp [Request.updatesSpec]) (ha.mono h2)
    fun _ => Request.Needs.of_updateNodePool).bind (by rintro _ (⟨⟨⟩⟩ | _) _ <;> trivial)

lemma guards_updateNodePoolOnce (tr : List Event) :
    (updateNodePoolOnce p account name spec).Guards Any
      (Lawful (.updateNodePool account name body)) Done tr := by
  refine guards_get.next (by rintro _ ⟨⟩ <;> trivial) fun tr0 cr h0 => ?_
  refine (guards_authorizeNodePool name).next .ret fun tr1 _ h1 => ?_
  dsimp only
  split
  · trivial
  split
  · trivial
  split
  · trivial
  · exact guards_writeNodePoolCandidate (h1.1 h0)

lemma guards_loadResource (name : String) {o : Object t.kind} :
    (loadResource account t o).Guards Any (Lawful req) (fun tr' r => attempt tr ⊆ attempt tr' ∧
      ∀ res, r = .ok res → Describes (attempt tr') (t.key account name) o res) tr := by
  cases t with
  | nodePool => exact guards_nodePoolResource account name o tr
  | cluster => exact ⟨List.Subset.refl _, fun res h => Except.ok.inj h ▸ describes_cluster⟩
  | oidcConfig => exact ⟨List.Subset.refl _, fun res h => Except.ok.inj h ▸ describes_oidcConfig⟩
  | dnsReservation =>
    exact ⟨List.Subset.refl _, fun res h => Except.ok.inj h ▸ describes_dnsReservation⟩

lemma guards_labelOnce {patch : Patch} {uid : Uid} (tr : List Event) :
    (labelOnce account name t patch uid).Guards Any (Lawful (.label account name t patch))
      Done tr := by
  refine guards_get.next (by rintro _ ⟨⟩ <;> trivial) fun tr0 obj h0 => ?_
  dsimp only
  split
  · trivial
  refine (guards_loadResource name).next (by rintro _ ⟨⟩ <;> trivial) fun tr1 res h1 => ?_
  refine (guards_authorizeResource (h1.2 res rfl)).next .ret fun tr2 _ h2 => ?_
  have ha := h2.approved (.label account name t patch) rfl (h1.1 h0)
  dsimp only
  split
  · trivial
  split
  · trivial
  exact (guards_updateOwned (s := obj)
    (o := { obj with annotations := applyLabelPatch obj.annotations patch })
    rfl (fun _ => rfl) ha fun _ => Request.Needs.of_label).bind
      (by rintro _ (⟨⟨⟩⟩ | _) _ <;> trivial)

lemma guards_deleteCluster :
    (deleteCluster account name).Guards Any (Lawful (.delete account name .cluster)) Done tr := by
  refine guards_get.next (by rintro _ ⟨⟩ <;> trivial) fun tr0 cr h0 => ?_
  refine (guards_authorizeResource
    (k := clusterKey account name) describes_cluster).next .ret fun tr1 _ h1 => ?_
  have ha := h1.approved (.delete account name .cluster) rfl h0
  exact (guards_deleteOwned ha fun _ => Request.Needs.of_delete).bind
    (by rintro _ (⟨⟨⟩⟩ | _) _ <;> trivial)

lemma guards_deleteNodePool :
    (deleteNodePool account name).Guards Any (Lawful (.delete account name .nodePool)) Done tr := by
  refine guards_get.next (by rintro _ ⟨⟩ <;> trivial) fun tr0 cr h0 => ?_
  refine (guards_authorizeNodePool name).next .ret fun tr1 _ h1 => ?_
  have ha := h1.approved (.delete account name .nodePool) rfl h0
  exact (guards_deleteOwned ha fun _ => Request.Needs.of_delete).bind
    (by rintro _ (⟨⟨⟩⟩ | _) _ <;> trivial)

lemma guards_deleteOidcConfig :
    (deleteOidcConfig account name).Guards Any (Lawful (.delete account name .oidcConfig))
      Done tr := by
  refine guards_get.next (by rintro _ ⟨⟩ <;> trivial) fun tr0 oc h0 => ?_
  refine (guards_authorizeResource
    (k := Served.oidcConfig.key account name) describes_oidcConfig).next .ret fun tr1 _ h1 => ?_
  have ha := h1.approved (.delete account name .oidcConfig) rfl h0
  simp only
  split
  · trivial
  · exact (guards_deleteOwned ha fun _ => Request.Needs.of_delete).bind
      (by rintro _ (⟨⟨⟩⟩ | _) _ <;> trivial)

lemma guards_deleteDNSReservationOnce (tr : List Event) :
    (deleteDNSReservationOnce account name).Guards Any
      (Lawful (.delete account name .dnsReservation)) Done tr := by
  refine guards_get.next (by rintro _ ⟨⟩ <;> trivial) fun tr0 reservation h0 => ?_
  refine (guards_authorizeResource (k := Served.dnsReservation.key account name)
    describes_dnsReservation).next .ret fun tr1 _ h1 => ?_
  have ha := h1.approved (.delete account name .dnsReservation) rfl h0
  simp only
  split
  · trivial
  · refine ⟨.inr (ha.imp fun _ => Request.Needs.of_delete), fun r _ => ?_⟩
    rcases r with (_ | _ | _ | _ | _) | _ <;> trivial

theorem guards_code (req : Request) : (req.code p).Guards Any (Lawful req) Done [] := by
  cases req with
  | updateCluster account name body => exact guards_updateCluster _ guards_updateClusterOnce
  | updateNodePool account name body => exact guards_updateNodePool _ guards_updateNodePoolOnce
  | label account name t patch => exact guards_resourceLabels _ guards_labelOnce
  | delete account name t =>
    cases t with
    | cluster => exact guards_deleteCluster
    | nodePool => exact guards_deleteNodePool
    | oidcConfig => exact guards_deleteOidcConfig
    | dnsReservation =>
      refine (guards_attempts guards_deleteDNSReservationOnce _ _).bind fun _ r _ => ?_
      rcases r with (_ | _) | _ <;> trivial

end

/-! ### Runs -/

/-- Who uses the store: a request, or anyone else with any single call. -/
inductive Caller where
  | request (r : Request)
  | other (o : Fleet.Op)

/-- API requests together with every other user of the store. -/
def requests (p : Params) : System Fleet.Op Fleet.Op.Res State Fleet.Choice Caller Unit where
  exec := Fleet.exec
  code
    | .request r => (r.code p).bind fun _ => .ret ()
    | .other o => (perform o).bind fun _ => .ret ()
  excl _ _ := False

def idle : Conf Fleet.Op Fleet.Op.Res State Caller Unit := ⟨.empty, []⟩

/-- What each caller may do: a request what is lawful for it, and the others anything. -/
def Allowed : Caller → List Event → Fleet.Op → Prop
  | .request r => Lawful r
  | .other _ => fun _ _ => True

lemma guards_requests (p : Params) (l : Caller) :
    ((requests p).code l).Guards Any (Allowed l) Done [] := by
  cases l with
  | request r => exact (guards_code r).bind fun _ _ _ => trivial
  | other o => exact ⟨trivial, fun _ _ => trivial⟩

variable {p : Params} {es : List (ℕ × Event)} {c c' : Conf Fleet.Op Fleet.Op.Res State Caller Unit}

/-- **No change without permission.** Whatever an update, a label patch or a delete changes, in any
run: an object other than a queue reservation is the object the request is about; the state
replaced is one the request has read and was allowed to replace, in the same attempt, with
everything that the difference to the spec written asks for. A queue is reserved only after the
base action was allowed. -/
theorem change_authorized (h : (requests p).Hist idle es c) {i : ℕ} {req : Request}
    {prog : Prog Fleet.Op Fleet.Op.Res Unit} (hi : c.pool[i]? = some ⟨.request req, prog⟩)
    (ha : (requests p).Act i c c') {k : Key} (hne : c'.store.store.find k ≠ c.store.store.find k) :
    (k.kind ≠ .index → k = req.key ∧ ∃ s w : Object k.kind, c.store.store.find k = some s ∧
      c'.store.store = c.store.store.commit k w ∧
      w.uid = s.uid ∧ w.resourceVersion = s.resourceVersion + 1 ∧
      (req.updatesSpec = false → w.spec = s.spec) ∧
      Approved req (attempt (System.own i es)) s (req.Needs k.kind s.spec w.spec)) ∧
    (k.kind = .index → ∃ (k : Key) (s : Object k.kind),
      Approved req (attempt (System.own i es)) s (· = req.action)) := by
  obtain ⟨hsane, hinf⟩ := informed_all rfl h
  have hg := h.guards (fun _ _ _ _ _ _ => trivial) (guards_requests p) hi
  cases ha with
  | @mk s s' pool l o f x r hj hx =>
    cases hi.symm.trans hj
    have hlaw : Lawful req (System.own i es) o := hg.1
    have hold : ∀ {k : Key} {t : Object k.kind} {needs : Action → Prop},
        Approved req (attempt (System.own i es)) t needs → ⟨k, t⟩ ∈ s.store.hist := fun h =>
      hinf i _ _ (known_get (List.takeWhile_subset _ h.read))
    rcases store_eq_or_kube hx with he | ⟨o, rfl⟩
    · rw [he] at hne; exact absurd rfl hne
    · have hdid := Store.did_exec (exec_kube hx).1
      -- the object that changed is the one the call was about
      have hkey : ∀ {k' : Key} {t : Object k'.kind}, s'.store = s.store.commit k' t → k = k' := by
        intro k' t ht
        by_contra hk
        rw [ht] at hne
        exact hne (Store.find_commit_ne hk)
      generalize hd : s'.store = d' at hdid hne hkey ⊢
      cases hdid with
      | nothing => exact absurd rfl hne
      | @create k' t x hv hf =>
        obtain rfl := hkey rfl
        exact ⟨fun hk => absurd hlaw.1 hk, fun _ => hlaw.2⟩
      | @update k' t t0 hs hu hv =>
        obtain rfl := hkey rfl
        rcases hlaw with ⟨hk, hb⟩ | ⟨t1, ho, hspec, hap⟩
        · exact ⟨fun h => absurd hk h, fun _ => hb⟩
        · obtain rfl := hsane.replaces hs (hold hap) (hu.trans (by rw [ho])) (hv.trans (by rw [ho]))
          exact ⟨fun _ => ⟨hap.about, t0, _, hs, rfl, rfl, rfl, hspec, hap⟩,
            fun _ => ⟨k, t0, hap.imp fun _ ha => ha ▸ .base⟩⟩
      | updateStatus => exact absurd hlaw id
      | @mark k' t t0 hs hz hl =>
        obtain rfl := hkey rfl
        rcases hlaw with ⟨hk, hb⟩ | hap
        · exact ⟨fun h => absurd hk h, fun _ => hb⟩
        · exact absurd hz (hsane.named (hold hap)).2.ne'
      | @delete k' t t0 hs hu hv =>
        obtain rfl := hkey rfl
        rcases hlaw with ⟨hk, hb⟩ | hap
        · exact ⟨fun h => absurd hk h, fun _ => hb⟩
        · obtain rfl := hsane.replaces hs (hold hap) hu hv
          exact ⟨fun _ => ⟨hap.about, t0, _, hs, rfl, rfl, rfl, fun _ => rfl, hap⟩,
            fun _ => ⟨k, t0, hap.imp fun _ ha => ha ▸ .base⟩⟩

def releaseRequest : Request := .updateCluster "1" "a" (some (.obj [("image", .str "v2")]))

/-- A Cluster is created, and a request to change its release comes as far as its write. -/
def releaseSchedule : List (System.Event Fleet.Choice Caller) :=
  [.spawn (.other (.kube (.create (clusterKey "1" "a") { spec := {} }))), .act 0 { uid := "u" },
   .spawn (.request releaseRequest), .act 1 {}, .act 1 {}, .act 1 {}, .act 1 {}]

/-- The release of a Cluster is changed, with the permission to change its version. -/
theorem change_authorized_release :
    ∃ (es : List (ℕ × Event)) (c c' : Conf Fleet.Op Fleet.Op.Res State Caller Unit)
      (s w : Object .cluster), (requests .lenient).Hist idle es c ∧
      (requests .lenient).Act 1 c c' ∧
      c.store.store.find (clusterKey "1" "a") = some s ∧
      c'.store.store.find (clusterKey "1" "a") = some w ∧
      s.spec.release ≠ w.spec.release ∧
      Approved releaseRequest (attempt (System.own 1 es)) (k := clusterKey "1" "a") s
        (· ∈ [.updateCluster, .updateClusterVersion]) := by
  have hrun : ((requests .lenient).runSchedule releaseSchedule idle).bind (fun c =>
      ((requests .lenient).next (.act 1 {}) c).map fun c' =>
        ((c.pool[1]?).bind fun t => match t.label with
          | .request r => some r
          | .other _ => none,
        (c.store.store.find (clusterKey "1" "a")).bind fun s =>
          (c'.store.store.find (clusterKey "1" "a")).map fun w =>
            decide (s.spec.release ≠ w.spec.release))) =
      some (some releaseRequest, some true) := by
    decide +kernel
  obtain ⟨c, hc, hnext⟩ := Option.bind_eq_some_iff.mp hrun
  obtain ⟨c', hc', hobs⟩ := Option.map_eq_some_iff.mp hnext
  obtain ⟨hl, hsw⟩ := Prod.mk.inj hobs
  obtain ⟨⟨l, prog⟩, hi, hl⟩ := Option.bind_eq_some_iff.mp hl
  obtain ⟨s, hs, hsw⟩ := Option.bind_eq_some_iff.mp hsw
  obtain ⟨w, hw, hsw⟩ := Option.map_eq_some_iff.mp hsw
  have hne := of_decide_eq_true hsw
  obtain ⟨es, hes⟩ := (System.run_of_schedule hc).hist
  have hact := System.act_of_next hc'
  cases l with
  | other => cases hl
  | request r =>
    cases hl
    have hch : c'.store.store.find (clusterKey "1" "a") ≠
        c.store.store.find (clusterKey "1" "a") := by
      rw [hs, hw]
      intro h
      cases h
      exact hne rfl
    obtain ⟨-, s', w', hs', hw', -, -, -, hap⟩ := (change_authorized hes hi hact hch).1 (by decide)
    cases hs.symm.trans hs'
    rw [hw'] at hw
    cases (Store.find_commit_some hw).1
    refine ⟨es, c, c', s, w, hes, hact, hs, hw' ▸ hw, hne, hap.imp fun a ha => ?_⟩
    rcases List.mem_pair.mp ha with rfl | rfl
    · exact .base
    · exact .clusterVersion (.inl hne)

end Seaplane.Api
