import Seaplane.Fleet.Footprint
import Seaplane.Fleet.Protocol

/-!
What the programs do to OidcConfigs, DNSReservations, their Indexes and private keys.

A Cluster claims an OidcConfig or a DNSReservation with a label. An OidcConfig reserves its issuer
URL, and a DNSReservation its base domain, with an Index that it owns by its UID.
-/

namespace Seaplane.Fleet

open Lib Kube Operator

def claimOf {kind : Kind} (o : Object kind) : Uid := o.labels.value claimedByClusterUIDLabel

def ownerOf {kind : Kind} (o : Object kind) : Uid := o.labels.value ownerUIDLabel

def claimable : Kind → Bool
  | .oidcConfig | .dnsReservation => true
  | _ => false

/-- Claimable objects and Indexes, but for the reservations of queues. -/
def isResource (k : Key) : Bool :=
  claimable k.kind || k.kind == .index && k.ns != Api.queueReservationsNamespace

/-! ### What was seen -/

def Made (tr : List Event) (account name : String) (cr c : Object .cluster) : Prop :=
  (⟨.kube (.create (Api.clusterKey account name) cr), .ok c⟩ : Event) ∈ tr

/-- The program has reserved the issuer URL for the config, or found that it is. -/
def Reserved (p : Operator.Params) (tr : List Event) (issuerURL : String) (uid : Uid) : Prop :=
  (∃ w i, (⟨.kube (.create (issuerURLKey p issuerURL) w), .ok i⟩ : Event) ∈ tr ∧ ownerOf w = uid) ∨
    ∃ i, (⟨.kube (.get (issuerURLKey p issuerURL)), .ok i⟩ : Event) ∈ tr ∧ ownerOf i = uid

/-- The event may have created an Index of the DNS shard. -/
def CreatesIndex (e : Event) : Prop :=
  ∃ n w r, e = ⟨.kube (.create (dnsIndexKey n) w), r⟩ ∧ r ≠ .error .alreadyExists

/-- The event shows that the reservation owns no Index of the DNS shard. -/
def ListsNone (uid : Uid) (e : Event) : Prop :=
  ∃ items, e = ⟨.kube (.list .index { labels := [(ownerUIDLabel, uid)] }), .ok items⟩ ∧
    ∀ i ∈ items, i.ns = dnsShardNamespace defaultDNSShard → ownerOf i.object ≠ uid

/-- The reservation owned no Index of the DNS shard when it was last looked at. -/
def Vacant (tr : List Event) (uid : Uid) : Prop := Since CreatesIndex (ListsNone uid) tr

/-- The Index of the DNS shard was listed as the reservation's. -/
def Owns (tr : List Event) (uid : Uid) (n : String) : Prop :=
  ∃ sel items i, (⟨.kube (.list .index sel), .ok items⟩ : Event) ∈ tr ∧ i ∈ items ∧
    i.key = dnsIndexKey n ∧ ownerOf i.object = uid

def Claimed (tr : List Event) (kind : Kind) (uid clusterUID : Uid) : Prop :=
  ∃ (k : Key) (s : Object k.kind), k.kind = kind ∧ s.uid = uid ∧ claimOf s = clusterUID ∧
    (Known tr k s ∨ ∃ o, (⟨.kube (.update k s), .ok o⟩ : Event) ∈ tr)

/-- The secret was deleted, or found missing. -/
def KeyDeleted (tr : List Event) (name : String) : Prop :=
  ∃ r, (⟨.infra (.deleteSecret name), r⟩ : Event) ∈ tr ∧ (r = .ok () ∨ r = .error .notFound)

/-! ### The protocol -/

section

variable (p : Operator.Params) (t : Task) (tr : List Event)

inductive CreatesResource : (k : Key) → Object k.kind → Prop
  | config {account name : String} {annotations : StringMap} {body : Api.OidcConfigBody}
      {issuerID : String} {o : Object .oidcConfig}
      (task : t = .createOidcConfig account name annotations body issuerID)
      (valid : Api.validateResourceName name) (account_eq : o.spec.accountID = account)
      (unclaimed : claimOf o = "") (unfinalized : o.finalizers = []) (status : o.status = {}) :
      CreatesResource ⟨.oidcConfig, accountNamespace account, name⟩ o
  | reservation {account name : String} {annotations : StringMap} {o : Object .dnsReservation}
      (task : t = .createDNSReservation account name annotations)
      (unclaimed : claimOf o = "") (phase : o.status.phase = "Pending") :
      CreatesResource ⟨.dnsReservation, accountNamespace account, name⟩ o
  /-- A Cluster without a reservation gets one of its own, claimed from the start. -/
  | automatic {ns name : String} {c : Object .cluster} {o : Object .dnsReservation}
      (task : t = .reconcile .cluster ns name) (subject : Subject ⟨.cluster, ns, name⟩ tr c)
      (live : c.deleting = false) (guarded : clusterFinalizer ∈ c.finalizers)
      (claimed : claimOf o = c.uid) (status : o.status = {}) :
      CreatesResource
        ⟨.dnsReservation, accountNamespace (accountOf c), automaticDNSReservationName c.uid⟩ o
  | issuer {ns name : String} {oc : Object .oidcConfig} {w : Object .index}
      (task : t = .reconcile .oidcConfig ns name) (subject : Subject ⟨.oidcConfig, ns, name⟩ tr oc)
      (live : oc.deleting = false) (guarded : oidcConfigFinalizer ∈ oc.finalizers)
      (owner : ownerOf w = oc.uid) : CreatesResource (issuerURLKey p oc.spec.issuerUrl) w
  | index {ns name n : String} {res : Object .dnsReservation} {w : Object .index}
      (task : t = .reconcile .dnsReservation ns name)
      (subject : Subject ⟨.dnsReservation, ns, name⟩ tr res) (live : res.deleting = false)
      (named : res.uid ≠ "") (vacant : Vacant tr res.uid) (owner : ownerOf w = res.uid) :
      CreatesResource (dnsIndexKey n) w

inductive UpdatesResource : (k : Key) → Object k.kind → Object k.kind → Prop
  | annotate {k : Key} {s : Object k.kind} (annotations : StringMap) :
      UpdatesResource k s { s with annotations := annotations }
  | addFinalizer {k : Key} {s : Object k.kind} (finalizer : String)
      (task : k.kind = .oidcConfig ∧ t = .reconcile .oidcConfig k.ns k.name ∨
        k.kind = .dnsReservation ∧ t = .reconcile .dnsReservation k.ns k.name) :
      UpdatesResource k s { s with finalizers := s.finalizers ++ [finalizer] }
  | dropConfig {ns name : String} {oc s : Object .oidcConfig}
      (task : t = .reconcile .oidcConfig ns name) (subject : Subject ⟨.oidcConfig, ns, name⟩ tr oc)
      (dying : oc.deleting = true) (guarded : oidcConfigFinalizer ∈ oc.finalizers)
      (key : oc.spec.type = "unmanaged" → KeyDeleted tr (secretName oc.spec.accountID name)) :
      UpdatesResource ⟨.oidcConfig, ns, name⟩ s
        { s with finalizers := s.finalizers.filter (· != oidcConfigFinalizer) }
  | dropReservation {ns name : String} {res s : Object .dnsReservation}
      (task : t = .reconcile .dnsReservation ns name)
      (subject : Subject ⟨.dnsReservation, ns, name⟩ tr res) (dying : res.deleting = true)
      (same : s.uid = res.uid) :
      UpdatesResource ⟨.dnsReservation, ns, name⟩ s
        { s with finalizers := s.finalizers.filter (· != dnsReservationFinalizer) }
  /-- The creation of a Cluster claims what the Cluster names. -/
  | claim {account name : String} {annotations : StringMap} {spec : ClusterSpec}
      {cr c : Object .cluster} {k : Key} {s : Object k.kind}
      (task : t = .createCluster account name annotations spec) (made : Made tr account name cr c)
      (place : k.ns = accountNamespace account) (listed : LookedUp tr k s)
      (named : k.kind = .oidcConfig ∧ s.uid = cr.spec.oidcConfigID ∨
        k.kind = .dnsReservation ∧ s.uid = cr.spec.dnsReservationID ∧ s.deleting = false)
      (free : claimOf s = "") :
      UpdatesResource k s { s with labels := s.labels.set claimedByClusterUIDLabel c.uid }
  /-- The cleanup of a Cluster releases what the Cluster has claimed. -/
  | release {ns name : String} {c : Object .cluster} {k : Key} {s : Object k.kind}
      (task : t = .reconcile .cluster ns name) (subject : Subject ⟨.cluster, ns, name⟩ tr c)
      (dying : c.deleting = true) (claimed : claimOf s = c.uid) :
      UpdatesResource k s { s with labels := s.labels.without claimedByClusterUIDLabel }

inductive ReportsResource : (k : Key) → Object k.kind → Status k.kind → Prop
  | used {ns name : String} {s : Object .oidcConfig} (time : Option Time) :
      ReportsResource ⟨.oidcConfig, ns, name⟩ s { s.status with lastUsedTimestamp := time }
  | unready {ns name : String} {s : Object .oidcConfig} {st : OidcConfigStatus}
      (task : t = .reconcile .oidcConfig ns name)
      (phase : st.phase ≠ "Ready" ∨ st.phase = s.status.phase) :
      ReportsResource ⟨.oidcConfig, ns, name⟩ s st
  | ready {ns name : String} {oc s : Object .oidcConfig} {st : OidcConfigStatus}
      (task : t = .reconcile .oidcConfig ns name) (subject : Subject ⟨.oidcConfig, ns, name⟩ tr oc)
      (live : oc.deleting = false) (guarded : oidcConfigFinalizer ∈ oc.finalizers)
      (reserved : Reserved p tr oc.spec.issuerUrl oc.uid) :
      ReportsResource ⟨.oidcConfig, ns, name⟩ s st
  | allocated {ns name n : String} {res s : Object .dnsReservation} {st : DNSReservationStatus}
      (task : t = .reconcile .dnsReservation ns name)
      (subject : Subject ⟨.dnsReservation, ns, name⟩ tr res) (live : res.deleting = false)
      (same : s.uid = res.uid) (alive : s.deleting = false) (owns : Owns tr res.uid n)
      (phase : st.phase = "Ready") (domain : st.baseDomain = baseDomainOf p n) :
      ReportsResource ⟨.dnsReservation, ns, name⟩ s st
  | unallocated {ns name : String} {res s : Object .dnsReservation} {st : DNSReservationStatus}
      (task : t = .reconcile .dnsReservation ns name)
      (subject : Subject ⟨.dnsReservation, ns, name⟩ tr res) (live : res.deleting = false)
      (same : s.uid = res.uid) (alive : s.deleting = false) (vacant : Vacant tr res.uid)
      (phase : st.phase ≠ "Ready") : ReportsResource ⟨.dnsReservation, ns, name⟩ s st

inductive DeletesResource : (k : Key) → Object k.kind → Prop
  /-- A customer deletes what no Cluster has claimed. -/
  | requested {account name : String} {served : Api.Served} {k : Key} {s : Object k.kind}
      (task : t = .request (.delete account name served)) (at_key : k = served.key account name)
      (free : claimOf s = "") : DeletesResource k s
  | withCluster {ns name rns rname : String} {c : Object .cluster} {s : Object .dnsReservation}
      (task : t = .reconcile .cluster ns name) (subject : Subject ⟨.cluster, ns, name⟩ tr c)
      (dying : c.deleting = true) : DeletesResource ⟨.dnsReservation, rns, rname⟩ s
  | issuer {ns name : String} {oc : Object .oidcConfig} {s : Object .index}
      (task : t = .reconcile .oidcConfig ns name) (subject : Subject ⟨.oidcConfig, ns, name⟩ tr oc)
      (dying : oc.deleting = true) (owner : ownerOf s = oc.uid) :
      DeletesResource (issuerURLKey p oc.spec.issuerUrl) s
  | index {ns name ins n : String} {res : Object .dnsReservation} {s : Object .index}
      (task : t = .reconcile .dnsReservation ns name)
      (subject : Subject ⟨.dnsReservation, ns, name⟩ tr res) (owner : ownerOf s = res.uid)
      (why : res.deleting = true ∨ ins ≠ dnsShardNamespace defaultDNSShard ∨
        ∃ n', Owns tr res.uid n' ∧ n' ≠ n) : DeletesResource ⟨.index, ins, n⟩ s

/-- The key of an unmanaged config is stored while the config is live, and deleted with it. -/
inductive TouchesKey : Infra.Op → Prop
  | create {ns name value : String} {oc : Object .oidcConfig}
      (task : t = .reconcile .oidcConfig ns name) (subject : Subject ⟨.oidcConfig, ns, name⟩ tr oc)
      (live : oc.deleting = false) (guarded : oidcConfigFinalizer ∈ oc.finalizers)
      (unmanaged : oc.spec.type = "unmanaged") (valid : p.validateRSAPrivateKey value) :
      TouchesKey (.createSecret (secretName oc.spec.accountID name) value)
  | overwrite {ns name value : String} {oc : Object .oidcConfig}
      (task : t = .reconcile .oidcConfig ns name) (subject : Subject ⟨.oidcConfig, ns, name⟩ tr oc)
      (live : oc.deleting = false) (guarded : oidcConfigFinalizer ∈ oc.finalizers)
      (unmanaged : oc.spec.type = "unmanaged") (valid : p.validateRSAPrivateKey value) :
      TouchesKey (.putSecretValue (secretName oc.spec.accountID name) value)
  | delete {ns name : String} {oc : Object .oidcConfig} (task : t = .reconcile .oidcConfig ns name)
      (subject : Subject ⟨.oidcConfig, ns, name⟩ tr oc) (dying : oc.deleting = true) :
      TouchesKey (.deleteSecret (secretName oc.spec.accountID name))

end

def resources (p : Operator.Params) (t : Task) : Protocol where
  scope := isResource
  create tr := CreatesResource p t tr
  update tr := UpdatesResource t tr
  status tr := ReportsResource p t tr
  delete tr := DeletesResource p t tr
  secret tr := TouchesKey p t tr

/-- The program does nothing more to the resources. -/
abbrev Follow (p : Operator.Params) (t : Task) {α : Type} (m : FleetProg α)
    (Q : List Event → α → Prop) (tr : List Event) : Prop :=
  m.Guards Any (resources p t).Follows Q tr

/-! ### What was seen grows -/

variable {uid : Uid} {k : Key} {d : Store}

variable {tr tr' : List Event}

lemma Claimed.mono {kind : Kind} {clusterUID : Uid}
    (h : Claimed tr kind uid clusterUID) (ht : tr ⊆ tr') : Claimed tr' kind uid clusterUID := by
  obtain ⟨k, s, hk, hu, hc, hs | ⟨o, ho⟩⟩ := h
  · exact ⟨k, s, hk, hu, hc, .inl (hs.mono ht)⟩
  · exact ⟨k, s, hk, hu, hc, .inr ⟨o, ht ho⟩⟩

lemma Reserved.mono {p : Operator.Params} {issuerURL : String}
    (h : Reserved p tr issuerURL uid) (ht : tr ⊆ tr') : Reserved p tr' issuerURL uid := by
  rcases h with ⟨w, i, hm, ho⟩ | ⟨i, hm, ho⟩
  · exact .inl ⟨w, i, ht hm, ho⟩
  · exact .inr ⟨i, ht hm, ho⟩

lemma Owns.mono {n : String} (h : Owns tr uid n) (ht : tr ⊆ tr') : Owns tr' uid n := by
  obtain ⟨sel, items, i, hm, hi, hk, ho⟩ := h
  exact ⟨sel, items, i, ht hm, hi, hk, ho⟩

lemma Subject.suffix {s : Object k.kind} (h : Subject k tr s)
    (ht : tr <:+ tr') : Subject k tr' s := by
  obtain ⟨es, rfl⟩ := ht
  exact h.append es

/-- No Index of the DNS shard was created in between. -/
def Quiet (tr tr' : List Event) : Prop := ∃ es, tr' = es ++ tr ∧ ∀ e ∈ es, ¬CreatesIndex e

namespace Quiet

variable {tr tr' tr'' : List Event}

lemma refl : Quiet tr tr := ⟨[], rfl, by simp⟩

lemma trans (h : Quiet tr tr') (h' : Quiet tr' tr'') : Quiet tr tr'' := by
  obtain ⟨es, rfl, he⟩ := h
  obtain ⟨es', rfl, he'⟩ := h'
  refine ⟨es' ++ es, by simp, fun e hm => ?_⟩
  rcases List.mem_append.mp hm with hm | hm
  · exact he' e hm
  · exact he e hm

lemma cons {e : Event} (h : Quiet tr tr') (he : ¬CreatesIndex e) : Quiet tr (e :: tr') :=
  h.trans ⟨[e], rfl, by simpa using he⟩

lemma suffix (h : Quiet tr tr') : tr <:+ tr' := by
  obtain ⟨es, rfl, -⟩ := h
  exact List.suffix_append es tr

lemma vacant (h : Quiet tr tr') (hv : Vacant tr uid) : Vacant tr' uid := by
  obtain ⟨es, rfl, he⟩ := h
  exact hv.append he

end Quiet

lemma not_createsIndex {o : Op} {r : o.Res} (h : ∀ k w, o ≠ .kube (.create k w)) :
    ¬CreatesIndex ⟨o, r⟩ := by
  rintro ⟨n, w, r', he, -⟩
  exact h _ _ (congrArg Sigma.fst he)

/-! ### Parts of programs -/

lemma guards_retries {ε α : Type} {isConflict : ε → Bool} {attempt : FleetProg (Except ε α)}
    {A : List Event → Op → Prop} {Q : List Event → Except ε α → Prop}
    (h : ∀ tr1, tr <:+ tr1 → attempt.Guards Any A (fun tr' r => tr <:+ tr' ∧ Q tr' r) tr1)
    (n : ℕ) : (retryOnConflict isConflict attempt n).Guards Any A
      (fun tr' r => tr <:+ tr' ∧ Q tr' r) tr :=
  guards_retry (P := (tr <:+ ·))
    (fun tr1 h1 => (h tr1 h1).post fun _ _ h => ⟨h, fun _ _ _ => h.1⟩) n
    (List.suffix_refl tr)

section

variable {p : Operator.Params} {t : Task}

/-- Objects that are none of the resources, and documents. -/
abbrev Apart : Limits := ⟨fun k => isResource k = false, True, False⟩

lemma guards_apart {α : Type} {m : FleetProg α} (hm : Spares Apart m) (tr : List Event) :
    Follow p t m (fun tr' _ => tr <:+ tr') tr :=
  Protocol.guards_within (P := resources p t) hm tr

lemma apart_of_kind {kind : Kind} (h : claimable kind = false) (h' : kind ≠ .index) (k : Key)
    (hk : k.kind = kind) : Apart.object k := by
  show isResource k = false
  simp [isResource, hk, h, h']

end

/-! ### The owners of Indexes -/

def ownerAt (d : Store) (k : Key) : Option Uid := (d.find k).map ownerOf

lemma ownerAt_eq_some {u : Uid} :
    ownerAt d k = some u ↔ ∃ i, d.find k = some i ∧ ownerOf i = u := Option.map_eq_some_iff

lemma ownerAt_congr {d' : Store} (h : d'.find k = d.find k) : ownerAt d' k = ownerAt d k := by
  unfold ownerAt
  rw [h]

section

variable {p : Operator.Params} {t : Task} {tr : List Event}

/-- The owner of an Index before and after a write. -/
inductive OwnerStep (p : Operator.Params) (t : Task) (tr : List Event) (k : Key) :
    Option Uid → Option Uid → Prop
  | create {o : Object k.kind} (h : CreatesResource p t tr k o) :
      OwnerStep p t tr k none (some (ownerOf o))
  | keep (u : Option Uid) : OwnerStep p t tr k u u
  | drop {s : Object k.kind} (h : DeletesResource p t tr k s) :
      OwnerStep p t tr k (some (ownerOf s)) none

lemma UpdatesResource.index_inv {s o : Object k.kind} (h : UpdatesResource t tr k s o)
    (hk : k.kind = .index) : ownerOf o = ownerOf s ∧ (o.finalizers = [] → s.finalizers = []) := by
  cases h with
  | annotate => exact ⟨rfl, id⟩
  | addFinalizer _ task => rcases task with ⟨hk', -⟩ | ⟨hk', -⟩ <;> cases hk.symm.trans hk'
  | dropConfig | dropReservation => cases hk
  | claim _ _ _ _ named _ => rcases named with ⟨hk', -⟩ | ⟨hk', -⟩ <;> cases hk.symm.trans hk'
  | release => exact ⟨StringMap.value_without_ne (by decide) _, id⟩

lemma ownerStep_write {op : Op} {new : Object k.kind} (hs : d.Sane)
    (h : (resources p t).Write tr d op k new) (hk : k.kind = .index) :
    OwnerStep p t tr k (ownerAt d k) (ownerAt (d.commit k new) k) := by
  unfold ownerAt
  cases h with
  | @create _ o x vacant fresh h =>
    have hafter : ownerOf (Store.created x o) = ownerOf o := rfl
    rw [vacant, Store.find_commit_kept (by simp [Store.created]), Option.map_some, hafter]
    exact .create h
  | @update _ s o stored known h =>
    obtain ⟨howner, hfin⟩ := h.index_inv hk
    have hafter : ownerOf (Store.next (Store.updated s o)) = ownerOf s := howner
    have hkept : ¬((Store.next (Store.updated s o)).deleting ∧
        (Store.next (Store.updated s o)).finalizers = []) :=
      fun hgone => hs.kept stored ⟨hgone.1, hfin hgone.2⟩
    rw [stored, Store.find_commit_kept hkept, Option.map_some, Option.map_some, hafter]
    exact .keep _
  | status _ _ _ h => cases h <;> cases hk
  | @delete _ s stored known h =>
    rw [stored, Store.find_commit_self]
    split
    · exact .drop h
    · exact .keep _

/-- A step writes an object of a kind, or leaves those alone and writes at most one Index of a
namespace. -/
lemma index_step {o : Op} {x : Choice} {s s' : State} {r : o.Res} (kind : Kind) {ns0 : String}
    (hkind : ∀ ns name, isResource ⟨kind, ns, name⟩ = true)
    (hindex : ∀ n, isResource ⟨.index, ns0, n⟩ = true) (hs : s.store.Sane) (hi : Informed tr s)
    (hf : (resources p t).Follows tr o) (hx : exec o x s = some (r, s')) :
    (∃ ns name, ∃ new : Object kind, (resources p t).Write tr s.store o ⟨kind, ns, name⟩ new ∧
      s'.store = s.store.commit ⟨kind, ns, name⟩ new) ∨
    (Protocol.SameKind kind s.store s'.store ∧ ∃ n, (∀ n' ≠ n,
      ownerAt s'.store ⟨.index, ns0, n'⟩ = ownerAt s.store ⟨.index, ns0, n'⟩) ∧
        OwnerStep p t tr ⟨.index, ns0, n⟩ (ownerAt s.store ⟨.index, ns0, n⟩)
          (ownerAt s'.store ⟨.index, ns0, n⟩)) := by
  rcases Protocol.step hs hi hf hx with hsame | ⟨⟨kind', ns, name⟩, new, -, hw, hst⟩
  · have hown := fun n => ownerAt_congr (hsame ⟨.index, ns0, n⟩ (hindex n)).1
    refine .inr ⟨fun ns name => hsame ⟨kind, ns, name⟩ (hkind ns name), "", fun n _ => hown n, ?_⟩
    rw [hown]
    exact .keep _
  by_cases hk : kind' = kind
  · subst hk
    exact .inl ⟨ns, name, new, hw, hst⟩
  have hown : ∀ n, (⟨.index, ns0, n⟩ : Key) ≠ ⟨kind', ns, name⟩ →
      ownerAt s'.store ⟨.index, ns0, n⟩ = ownerAt s.store ⟨.index, ns0, n⟩ := by
    intro n hn
    rw [hst]
    exact ownerAt_congr (Store.find_commit_ne hn)
  refine .inr ⟨hst ▸ Protocol.sameKind_commit hk, name, fun n hn => hown n (by simp [hn]), ?_⟩
  by_cases he : (⟨.index, ns0, name⟩ : Key) = ⟨kind', ns, name⟩
  · cases he
    rw [hst]
    exact ownerStep_write hs hw rfl
  · rw [hown name he]
    exact .keep _

end

end Seaplane.Fleet
