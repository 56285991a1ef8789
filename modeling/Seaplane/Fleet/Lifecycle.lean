import Seaplane.Fleet.Resources
import Seaplane.Fleet.ResourceFootprint
import Seaplane.Operator.Conduct

/-!
What the programs do to Clusters, NodePools and Placements, and to the documents in DynamoDB.

A Cluster has a finalizer from its creation on, a NodePool from its first reconcile on. The
finalizer goes when the reconcile of the deletion has seen that nothing is left: the documents are
removed, and for a Cluster also its NodePools, its Placement and its claims.
-/

namespace Seaplane.Fleet

open Lib Kube Operator
open Dynamo (DocKey DesireSpec)

/-! ### What was seen -/

def MakesCluster (e : Event) : Prop :=
  ∃ (k : Key) (o : Object k.kind), e.1 = .kube (.create k o) ∧ k.kind = .cluster

/-- The program has asked for no Cluster to be created. -/
def NoCluster (tr : List Event) : Prop := ∀ e ∈ tr, ¬MakesCluster e

/-- A List by the UID has not shown the object. -/
def Missing (tr : List Event) (kind : Kind) (ns uid : String) : Prop :=
  ∃ sel r, (⟨.kube (.list kind sel), r⟩ : Event) ∈ tr ∧
    (sel = { ns := some ns, uid := some uid } ∨ sel = { ns := some ns }) ∧
    (r = .error .notFound ∨ ∃ items, r = .ok items ∧ ∀ i ∈ items, i.object.uid ≠ uid)

/-- A List of the account has shown the object with the UID. -/
def Listed (tr : List Event) {kind : Kind} (ns uid : String) (i : Item kind) : Prop :=
  i.object.uid = uid ∧ ∃ sel items, (⟨.kube (.list kind sel), .ok items⟩ : Event) ∈ tr ∧
    sel.ns = some ns ∧ i ∈ items

/-- What `oidcSigningKeyExternal` has seen for its answer. -/
def FoundExternal (tr : List Event) (c : Object .cluster) : Bool → Prop
  | true => ∃ i : Item .oidcConfig,
      Listed tr (accountNamespace (c.labels.value accountIDLabel)) c.spec.oidcConfigID i ∧
        i.object.spec.type = "unmanaged"
  | false => c.spec.oidcConfigID = "" ∨ c.labels.value accountIDLabel = "" ∨
      Missing tr .oidcConfig (accountNamespace (c.labels.value accountIDLabel))
        c.spec.oidcConfigID ∨
      ∃ i : Item .oidcConfig,
        Listed tr (accountNamespace (c.labels.value accountIDLabel)) c.spec.oidcConfigID i ∧
          i.object.spec.type ≠ "unmanaged"

/-- What `placedOn` has seen for its answer. -/
def FoundPlace (tr : List Event) (ns name : String) (c : Object .cluster) (mc : String) : Prop :=
  (∃ ref, c.status.placementRef = some ref ∧ mc = ref.managementCluster) ∨
    c.status.placementRef = none ∧ ∃ r, (⟨.kube (.get (placementKey ns name)), r⟩ : Event) ∈ tr ∧
      ((∃ e, r = .error e ∧ mc = "") ∨ ∃ pl, r = .ok pl ∧ mc = pl.spec.managementCluster)

/-- The pool's Cluster was read, under the name the pool has for it. -/
def ParentRead (tr : List Event) (ns : String) (np : Object .nodePool) (cn : String)
    (c : Object .cluster) : Prop :=
  clusterControllerOwner np = some ⟨"Cluster", cn, c.uid⟩ ∧
    (⟨.kube (.get ⟨.cluster, ns, cn⟩), .ok c⟩ : Event) ∈ tr

def ParentMissing (tr : List Event) (ns : String) (np : Object .nodePool) : Prop :=
  clusterControllerOwner np = none ∨ ∃ owner r, clusterControllerOwner np = some owner ∧
    (⟨.kube (.get ⟨.cluster, ns, owner.name⟩), r⟩ : Event) ∈ tr ∧
    (r = .error .notFound ∨ ∃ c, r = .ok c ∧ c.uid ≠ owner.uid)

/-- The claim of the Cluster on the config it names was given up, or found to be none. -/
def ConfigReleased (tr : List Event) (c : Object .cluster) : Prop :=
  c.spec.oidcConfigID = "" ∨ c.labels.value accountIDLabel = "" ∨
    Missing tr .oidcConfig (accountNamespace (c.labels.value accountIDLabel)) c.spec.oidcConfigID ∨
    (∃ i : Item .oidcConfig,
      Listed tr (accountNamespace (c.labels.value accountIDLabel)) c.spec.oidcConfigID i ∧
        claimOf i.object ≠ c.uid) ∨
    ∃ (ns name : String) (o w : Object .oidcConfig),
      (⟨.kube (.update ⟨.oidcConfig, ns, name⟩ o), .ok w⟩ : Event) ∈ tr ∧
        o.uid = c.spec.oidcConfigID ∧ claimOf o = ""

/-- The Cluster's claim on a listed reservation was given up, or found to be none. -/
def ReservationReleased (tr : List Event) (i : Item .dnsReservation) (clusterUID : Uid) : Prop :=
  (⟨.kube (.get i.key), .error .notFound⟩ : Event) ∈ tr ∨
    (∃ o, (⟨.kube (.get i.key), .ok o⟩ : Event) ∈ tr ∧
      (o.uid ≠ i.object.uid ∨ claimOf o ≠ clusterUID)) ∨
    ∃ o w, (⟨.kube (.update i.key o), .ok w⟩ : Event) ∈ tr ∧ o.uid = i.object.uid ∧ claimOf o = ""

/-- All reservations that the Cluster had claimed were released. -/
def ReservationsReleased (tr : List Event) (c : Object .cluster) : Prop :=
  c.uid = "" ∨ ∃ items, (⟨.kube (.list .dnsReservation
      { ns := some (accountNamespace (accountOf c)),
        labels := [(claimedByClusterUIDLabel, c.uid)] }), .ok items⟩ : Event) ∈ tr ∧
    ∀ i ∈ items, ReservationReleased tr i c.uid

/-- The desire was last written under the key, and a report on it counts as synced. -/
def Confirmed (tr : List Event) (kd : DocKey) (spec : DesireSpec) : Prop :=
  ∃ i, i.spec = spec ∧ Held tr kd i ∧ Reported tr ⟨kd, i.updateTime⟩

/-- The resource of a Cluster's HostedCluster, without its content. -/
def hostedClusterOf (name : String) (c : Object .cluster) : Resource :=
  hostedClusterResource c.uid (hostedClusterName name c.spec) .null

/-- The documents of a Cluster that is rendered to some resources. -/
def clusterDocs (mc name : String) (c : Object .cluster) (rs : List Resource) : List DocKey :=
  (hostedClusterOf name c).readKey mc :: rs.map (·.applyKey mc)

section

variable (p : Operator.Params) (tr : List Event) (ns name : String)

/-- The documents of a Cluster were removed, on the management cluster that was found for it. -/
def DocsGone (c : Object .cluster) : Prop :=
  ∃ mc, FoundPlace tr ns name c mc ∧ (mc = "" ∨ ∃ external rs, FoundExternal tr c external ∧
    clusterResources p name c external c.status.baseDomain = some rs ∧
    ∀ kd ∈ clusterDocs mc name c rs, Cleared tr kd)

/-- The objects of a kind that belong to the Cluster. -/
abbrev ofCluster (uid : Uid) : Selector := { labels := [(clusterUIDLabel, uid)] }

/-- Nothing of the Cluster is left, and nothing managed was updated before. -/
structure ClusterCleaned (c : Object .cluster) : Prop where
  docs : DocsGone p tr ns name c
  pools : (⟨.kube (.list .nodePool (ofCluster c.uid)), .ok []⟩ : Event) ∈ tr
  placements : (⟨.kube (.list .placement (ofCluster c.uid)), .ok []⟩ : Event) ∈ tr
  config : ConfigReleased tr c
  reservations : ReservationsReleased tr c
  first : ∀ e ∈ tr, ¬Updates e

/-- Nothing of the pool is left, or there was nothing to look after. -/
inductive PoolCleaned (np : Object .nodePool) : Prop
  | missing (h : ParentMissing tr ns np)
  | unplaced {cn : String} {c : Object .cluster} (parent : ParentRead tr ns np cn c)
      (unplaced : c.status.placementRef = none)
  | withdrawn {cn : String} {c : Object .cluster} {ref : PlacementReference} {m : Resource}
      (parent : ParentRead tr ns np cn c) (placed : c.status.placementRef = some ref)
      (rendered : nodePoolResource p name np cn c = some m)
      (confirmed : Confirmed tr (m.applyKey ref.managementCluster)
        (m.delete ref.managementCluster c.uid))
      (applied : Cleared tr (m.applyKey ref.managementCluster))
      (read : Cleared tr (m.readKey ref.managementCluster))

end

/-! ### The objects -/

section

variable (p : Operator.Params) (t : Task) (tr : List Event)

inductive CreatesManaged : (k : Key) → Object k.kind → Prop
  | cluster {account name : String} {annotations : StringMap} {spec : ClusterSpec}
      {expiration : Option Time} {reservation : Option (Item .dnsReservation)}
      {oidcConfig : Option (Item .oidcConfig)} {o : Object .cluster}
      (task : t = .createCluster account name annotations spec) (first : NoCluster tr)
      (new : o = Api.newCluster account name annotations spec expiration reservation oidcConfig) :
      CreatesManaged (Api.clusterKey account name) o
  | nodePool {account name cn : String} {annotations : StringMap} {spec : NodePoolSpec}
      {c : Object .cluster} {o : Object .nodePool}
      (task : t = .createNodePool account name annotations spec)
      (parent : Known tr (Api.clusterKey account cn) c) (live : c.deleting = false)
      (named : c.uid ≠ "") (new : o = Api.newNodePool account cn c annotations spec) :
      CreatesManaged (Api.nodePoolKey account name) o
  | placement {ns name mc : String} {c : Object .cluster} {o : Object .placement}
      (task : t = .reconcile .placement ns name) (subject : Subject ⟨.cluster, ns, name⟩ tr c)
      (live : c.deleting = false) (labels : o.labels = [(clusterUIDLabel, c.uid)])
      (spec : o.spec = { clusterName := name, managementCluster := mc })
      (unfinalized : o.finalizers = []) : CreatesManaged (placementKey ns name) o

inductive UpdatesManaged : (k : Key) → Object k.kind → Object k.kind → Prop
  | respec {k : Key} {s o : Object k.kind}
      (same : o = { s with annotations := o.annotations, spec := o.spec }) : UpdatesManaged k s o
  | guardCluster {ns name : String} {s : Object .cluster}
      (task : t = .reconcile .cluster ns name) (missing : clusterFinalizer ∉ s.finalizers) :
      UpdatesManaged ⟨.cluster, ns, name⟩ s
        { s with finalizers := s.finalizers ++ [clusterFinalizer] }
  | guardPool {ns name : String} {s : Object .nodePool}
      (task : t = .reconcile .nodePool ns name) (missing : nodePoolFinalizer ∉ s.finalizers) :
      UpdatesManaged ⟨.nodePool, ns, name⟩ s
        { s with finalizers := s.finalizers ++ [nodePoolFinalizer] }
  | dropCluster {ns name : String} {c s : Object .cluster}
      (task : t = .reconcile .cluster ns name) (subject : Subject ⟨.cluster, ns, name⟩ tr c)
      (dying : c.deleting = true) (guarded : clusterFinalizer ∈ c.finalizers)
      (cleaned : ClusterCleaned p tr ns name c) :
      UpdatesManaged ⟨.cluster, ns, name⟩ s
        { s with finalizers := s.finalizers.filter (· != clusterFinalizer) }
  | dropPool {ns name : String} {np s : Object .nodePool}
      (task : t = .reconcile .nodePool ns name) (subject : Subject ⟨.nodePool, ns, name⟩ tr np)
      (dying : np.deleting = true) (guarded : nodePoolFinalizer ∈ np.finalizers)
      (cleaned : PoolCleaned p tr ns name np) (present : nodePoolFinalizer ∈ s.finalizers) :
      UpdatesManaged ⟨.nodePool, ns, name⟩ s
        { s with finalizers := s.finalizers.filter (· != nodePoolFinalizer) }

inductive ReportsManaged : (k : Key) → Object k.kind → Status k.kind → Prop
  | keep {k : Key} {s : Object k.kind} {st : Status k.kind}
      (ref : refOf k.kind st = refOf k.kind s.status) : ReportsManaged k s st
  | refer {ns name : String} {c s : Object .cluster} {pl : Object .placement}
      (task : t = .reconcile .placement ns name) (subject : Subject ⟨.cluster, ns, name⟩ tr c)
      (live : c.deleting = false) (placed : Known tr (placementKey ns name) pl) :
      ReportsManaged ⟨.cluster, ns, name⟩ s
        { s.status with
          placementRef := some ⟨placementName name, pl.spec.managementCluster⟩ }

inductive DeletesManaged : (k : Key) → Object k.kind → Prop
  | other {k : Key} {s : Object k.kind} (kind : k.kind ≠ .placement) : DeletesManaged k s
  | placement {ns name pns pname : String} {c : Object .cluster} {s : Object .placement}
      (task : t = .reconcile .cluster ns name) (subject : Subject ⟨.cluster, ns, name⟩ tr c)
      (dying : c.deleting = true) (guarded : clusterFinalizer ∈ c.finalizers)
      (docs : DocsGone p tr ns name c) : DeletesManaged ⟨.placement, pns, pname⟩ s

/-- What a task may do to Clusters, NodePools and Placements. -/
def lifecycle : Protocol where
  scope k := managed k.kind
  create tr := CreatesManaged t tr
  update tr := UpdatesManaged p t tr
  status tr := ReportsManaged t tr
  delete tr := DeletesManaged p t tr
  secret _ _ := True

/-! ### The documents -/

/-- Which desires a task may write, and where. -/
inductive Writes : DocKey → DesireSpec → Prop
  | cluster {ns name baseDomain : String} {c : Object .cluster} {pl : Object .placement}
      {external : Bool} {rs : List Resource} {m : Resource}
      (task : t = .reconcile .cluster ns name) (subject : Subject ⟨.cluster, ns, name⟩ tr c)
      (live : c.deleting = false) (guarded : clusterFinalizer ∈ c.finalizers)
      (placed : Known tr (placementKey ns name) pl) (found : FoundExternal tr c external)
      (rendered : clusterResources p name c external baseDomain = some rs) (mem : m ∈ rs) :
      Writes (m.applyKey pl.spec.managementCluster)
        (m.serverSideApply pl.spec.managementCluster c.uid)
  | clusterRead {ns name : String} {c : Object .cluster} {pl : Object .placement}
      (task : t = .reconcile .cluster ns name) (subject : Subject ⟨.cluster, ns, name⟩ tr c)
      (live : c.deleting = false) (guarded : clusterFinalizer ∈ c.finalizers)
      (placed : Known tr (placementKey ns name) pl) :
      Writes ((hostedClusterOf name c).readKey pl.spec.managementCluster)
        ((hostedClusterOf name c).read pl.spec.managementCluster c.uid)
  | clusterDelete {ns name mc : String} {c : Object .cluster} {external : Bool} {rs : List Resource}
      {m : Resource} (task : t = .reconcile .cluster ns name)
      (subject : Subject ⟨.cluster, ns, name⟩ tr c) (dying : c.deleting = true)
      (guarded : clusterFinalizer ∈ c.finalizers) (placed : FoundPlace tr ns name c mc)
      (found : FoundExternal tr c external)
      (rendered : clusterResources p name c external c.status.baseDomain = some rs)
      (mem : m ∈ rs) : Writes (m.applyKey mc) (m.delete mc c.uid)
  | pool {ns name cn : String} {np : Object .nodePool} {c : Object .cluster}
      {ref : PlacementReference} {m : Resource} (task : t = .reconcile .nodePool ns name)
      (subject : Subject ⟨.nodePool, ns, name⟩ tr np) (live : np.deleting = false)
      (guarded : nodePoolFinalizer ∈ np.finalizers) (parent : ParentRead tr ns np cn c)
      (placed : c.status.placementRef = some ref)
      (rendered : nodePoolResource p name np cn c = some m) :
      Writes (m.applyKey ref.managementCluster) (m.serverSideApply ref.managementCluster c.uid)
  | poolRead {ns name cn : String} {np : Object .nodePool} {c : Object .cluster}
      {ref : PlacementReference} {m : Resource} (task : t = .reconcile .nodePool ns name)
      (subject : Subject ⟨.nodePool, ns, name⟩ tr np) (live : np.deleting = false)
      (guarded : nodePoolFinalizer ∈ np.finalizers) (parent : ParentRead tr ns np cn c)
      (placed : c.status.placementRef = some ref)
      (rendered : nodePoolResource p name np cn c = some m) :
      Writes (m.readKey ref.managementCluster) (m.read ref.managementCluster c.uid)
  | poolDelete {ns name cn : String} {np : Object .nodePool} {c : Object .cluster}
      {ref : PlacementReference} {m : Resource} (task : t = .reconcile .nodePool ns name)
      (subject : Subject ⟨.nodePool, ns, name⟩ tr np) (dying : np.deleting = true)
      (guarded : nodePoolFinalizer ∈ np.finalizers) (parent : ParentRead tr ns np cn c)
      (placed : c.status.placementRef = some ref)
      (rendered : nodePoolResource p name np cn c = some m) :
      Writes (m.applyKey ref.managementCluster) (m.delete ref.managementCluster c.uid)

inductive Removes : DocKey → Prop
  | cluster {ns name mc : String} {c : Object .cluster} {external : Bool} {rs : List Resource}
      {kd : DocKey} (task : t = .reconcile .cluster ns name)
      (subject : Subject ⟨.cluster, ns, name⟩ tr c) (dying : c.deleting = true)
      (guarded : clusterFinalizer ∈ c.finalizers) (placed : FoundPlace tr ns name c mc)
      (rendered : clusterResources p name c external c.status.baseDomain = some rs)
      (mem : kd ∈ clusterDocs mc name c rs) : Removes kd
  | pool {ns name cn : String} {np : Object .nodePool} {c : Object .cluster}
      {ref : PlacementReference} {m : Resource} {kd : DocKey}
      (task : t = .reconcile .nodePool ns name) (subject : Subject ⟨.nodePool, ns, name⟩ tr np)
      (dying : np.deleting = true) (guarded : nodePoolFinalizer ∈ np.finalizers)
      (parent : ParentRead tr ns np cn c) (placed : c.status.placementRef = some ref)
      (rendered : nodePoolResource p name np cn c = some m)
      (confirmed : Confirmed tr (m.applyKey ref.managementCluster)
        (m.delete ref.managementCluster c.uid))
      (mem : kd = m.applyKey ref.managementCluster ∨ kd = m.readKey ref.managementCluster) :
      Removes kd

/-- What a task may do to the documents and the cache. -/
inductive Documents : Dynamo.Op → Prop
  | read {o : Dynamo.Op} (h : isRead o = true) : Documents o
  | load (kd : DocKey) : Documents (.cacheLoad kd)
  | put {kd : DocKey} {i : Dynamo.Item} (h : Writes p t tr kd i.spec) (stamped : Stamped tr i) :
      Documents (.putItem kd i)
  | store {kd : DocKey} {i : Dynamo.Item} (h : Writes p t tr kd i.spec) (held : Held tr kd i) :
      Documents (.cacheStore kd i)
  | delete {kd : DocKey} (h : Removes p t tr kd) : Documents (.deleteItem kd)
  | forget {kd : DocKey} (h : Removes p t tr kd) : Documents (.cacheDelete kd)
  | report (kd : DocKey) (st : Dynamo.ApplyDesireStatus) : Documents (.report kd st)
  | observe (kd : DocKey) (content : Json) : Documents (.observe kd content)
  | reset : Documents .resetCache

/-- What a task may do to managed objects and documents. -/
structure Tends (o : Op) : Prop where
  objects : (lifecycle p t).Follows tr o
  documents : ∀ d, o = .dynamo d → Documents p t tr d

end

/-! ### What was seen grows -/

variable {kind : Kind} {c : Object .cluster}

variable {ns : String}

section

variable {tr tr' : List Event} (ht : tr ⊆ tr')
include ht

lemma Missing.mono {uid : String} (h : Missing tr kind ns uid) : Missing tr' kind ns uid := by
  obtain ⟨sel, r, hm, hrest⟩ := h
  exact ⟨sel, r, ht hm, hrest⟩

lemma Listed.mono {uid : String} {i : Item kind} (h : Listed tr ns uid i) :
    Listed tr' ns uid i := by
  obtain ⟨hu, sel, items, hm, hrest⟩ := h
  exact ⟨hu, sel, items, ht hm, hrest⟩

lemma FoundExternal.mono {b : Bool} (h : FoundExternal tr c b) : FoundExternal tr' c b := by
  cases b with
  | true =>
    obtain ⟨i, hi, hrest⟩ := h
    exact ⟨i, hi.mono ht, hrest⟩
  | false =>
    rcases h with h | h | h | ⟨i, hi, hrest⟩
    · exact .inl h
    · exact .inr (.inl h)
    · exact .inr (.inr (.inl (h.mono ht)))
    · exact .inr (.inr (.inr ⟨i, hi.mono ht, hrest⟩))

lemma FoundPlace.mono {name mc : String} (h : FoundPlace tr ns name c mc) :
    FoundPlace tr' ns name c mc := by
  rcases h with h | ⟨hn, r, hm, hrest⟩
  · exact .inl h
  · exact .inr ⟨hn, r, ht hm, hrest⟩

lemma ParentRead.mono {cn : String} {np : Object .nodePool} (h : ParentRead tr ns np cn c) :
    ParentRead tr' ns np cn c := ⟨h.1, ht h.2⟩

lemma ParentMissing.mono {np : Object .nodePool} (h : ParentMissing tr ns np) :
    ParentMissing tr' ns np := by
  rcases h with h | ⟨owner, r, ho, hm, hrest⟩
  · exact .inl h
  · exact .inr ⟨owner, r, ho, ht hm, hrest⟩

lemma ConfigReleased.mono (h : ConfigReleased tr c) : ConfigReleased tr' c := by
  rcases h with h | h | h | ⟨i, hi, hrest⟩ | ⟨ns, name, o, w, hm, hrest⟩
  · exact .inl h
  · exact .inr (.inl h)
  · exact .inr (.inr (.inl (h.mono ht)))
  · exact .inr (.inr (.inr (.inl ⟨i, hi.mono ht, hrest⟩)))
  · exact .inr (.inr (.inr (.inr ⟨ns, name, o, w, ht hm, hrest⟩)))

lemma ReservationReleased.mono {i : Item .dnsReservation} {uid : Uid}
    (h : ReservationReleased tr i uid) : ReservationReleased tr' i uid := by
  rcases h with h | ⟨o, hm, hrest⟩ | ⟨o, w, hm, hrest⟩
  · exact .inl (ht h)
  · exact .inr (.inl ⟨o, ht hm, hrest⟩)
  · exact .inr (.inr ⟨o, w, ht hm, hrest⟩)

end

lemma Cleared.extend {D : DocKey → Prop} {tr tr' : List Event} {kd : DocKey} (h : Cleared tr kd)
    (he : Extends D tr tr') (hk : ¬D kd) : Cleared tr' kd := he.since hk h

lemma DocsGone.extend {p : Operator.Params} {tr tr' : List Event} {name : String}
    (h : DocsGone p tr ns name c) (he : Extends NoDoc tr tr') : DocsGone p tr' ns name c := by
  obtain ⟨mc, hmc, hdocs⟩ := h
  refine ⟨mc, hmc.mono he.subset, hdocs.imp id ?_⟩
  rintro ⟨external, rs, hext, hrs, hcl⟩
  exact ⟨external, rs, hext.mono he.subset, hrs, fun kd hkd => Cleared.extend (hcl kd hkd) he id⟩

/-! ### Modest programs -/

section

variable {p : Operator.Params} {t : Task}

lemma tends_modest (tr : List Event) (o : Op) (h : Modest tr o) : Tends p t tr o := by
  rcases h with h | h
  · refine ⟨?_, ?_⟩
    · cases o with
      | kube o =>
        cases o with
        | get | list => trivial
        | create k o | update k o | updateStatus k o | delete k o =>
          intro hk
          rw [show (lifecycle p t).scope k = false from h] at hk
          cases hk
      | infra i => exact fun _ => trivial
      | dynamo | check | now => trivial
    · rintro d rfl
      exact .read h
  · cases o with
    | kube o =>
      refine ⟨?_, nofun⟩
      cases o with
      | get | list | create => exact h.elim
      | update k o =>
        obtain ⟨s, hs, ho⟩ := h
        refine fun _ => ⟨s, hs, ?_, ?_, .respec ho⟩
        · rw [ho]
        · rw [ho]
      | updateStatus k o =>
        obtain ⟨s, hs, ho, href⟩ := h
        refine fun _ => ⟨s, hs, ?_, ?_, .keep href⟩
        · rw [ho]
        · rw [ho]
      | delete k o => exact fun _ => ⟨h.2, .other h.1⟩
    | dynamo | infra | check | now => exact h.elim

/-- Objects that are not managed, and secrets. -/
abbrev Unmanaged : Limits := ⟨fun k => managed k.kind = false, False, True⟩

lemma unmanaged_of_kind (h : managed kind = false) (k : Key) (hk : k.kind = kind) :
    Unmanaged.object k := by
  show managed k.kind = false
  rw [hk, h]

lemma idle_of_within {o : Op} (h : Within Unmanaged o) : Idle o := by
  cases o with
  | kube o =>
    cases o with
    | get | list => trivial
    | create k o | update k o | updateStatus k o | delete k o => exact h.object k rfl
  | dynamo d =>
    by_contra hd
    exact h.documents (by simpa [Op.document, Idle] using hd)
  | infra | check | now => trivial

lemma tends_idle {α : Type} {m : FleetProg α} (hm : Spares Unmanaged m) (tr : List Event) :
    m.Guards Any (Tends p t) (fun tr' _ => Extends NoDoc tr tr') tr :=
  hm.guards .refl (fun tr o _ ho => tends_modest tr o (.inl (idle_of_within ho)))
    fun _ _ r he ho => (idle_of_within ho).extends he r

end

end Seaplane.Fleet
