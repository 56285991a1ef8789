import Seaplane.Fleet.BaseDomains

/-!
One issuer URL, one Ready OidcConfig.

The Indexes of issuer URLs are a map from the digests of the URLs to the UIDs of the configs that
have reserved them. A config that is Ready and live has its URL reserved. While a reconcile of a
live config goes on, the config keeps its finalizer, so what is stored under its name is the very
config the reconcile has read.
-/

namespace Seaplane.Fleet

open Lib Kube Operator

/-- The Index of an issuer URL with the digest. -/
abbrev issuerKey (n : String) : Key := ⟨.index, oidcIssuerReservationsNamespace, n⟩

/-- The config that has reserved the URL with the digest. -/
def reserver (s : State) (n : String) : Option Uid := ownerAt s.store (issuerKey n)

lemma isResource_issuer (n : String) : isResource (issuerKey n) = true := by
  have hne : oidcIssuerReservationsNamespace ≠ Api.queueReservationsNamespace := by decide
  simp [isResource, claimable, hne]

/-! ### What a step does to the URLs -/

variable {k : Key} {n : String}

variable {x : Choice}

section

variable {p : Operator.Params} {t : Task} {tr : List Event}

/-- Who has reserved a URL before and after a write of its Index. -/
inductive URLStep (p : Operator.Params) (t : Task) (tr : List Event) (n : String) :
    Option Uid → Option Uid → Prop
  | reserve {ns name : String} {oc : Object .oidcConfig} (task : t = .reconcile .oidcConfig ns name)
      (subject : Subject ⟨.oidcConfig, ns, name⟩ tr oc)
      (digest : p.issuerURLIndexName oc.spec.issuerUrl = n) : URLStep p t tr n none (some oc.uid)
  | keep (u : Option Uid) : URLStep p t tr n u u
  | release {ns name : String} {oc : Object .oidcConfig} (task : t = .reconcile .oidcConfig ns name)
      (subject : Subject ⟨.oidcConfig, ns, name⟩ tr oc) (dying : oc.deleting = true) :
      URLStep p t tr n (some oc.uid) none
  /-- A reservation deletes what it owns in other namespaces. -/
  | misplaced {ns name : String} {res : Object .dnsReservation}
      (task : t = .reconcile .dnsReservation ns name)
      (subject : Subject ⟨.dnsReservation, ns, name⟩ tr res) : URLStep p t tr n (some res.uid) none

lemma CreatesResource.issuer_inv {o : Object k.kind} (h : CreatesResource p t tr k o)
    (hk : k.kind = .index) (hns : k.ns = oidcIssuerReservationsNamespace) :
    ∃ ns name, ∃ oc : Object .oidcConfig, t = .reconcile .oidcConfig ns name ∧
      Subject ⟨.oidcConfig, ns, name⟩ tr oc ∧ p.issuerURLIndexName oc.spec.issuerUrl = k.name ∧
        ownerOf o = oc.uid := by
  cases h with
  | config | reservation | automatic => cases hk
  | issuer task subject _ _ owner => exact ⟨_, _, _, task, subject, rfl, owner⟩
  | index => exact absurd hns.symm issuer_ne_shard

lemma DeletesResource.issuer_inv {s : Object k.kind} (h : DeletesResource p t tr k s)
    (hk : k.kind = .index) :
    (∃ ns name, ∃ oc : Object .oidcConfig, t = .reconcile .oidcConfig ns name ∧
      Subject ⟨.oidcConfig, ns, name⟩ tr oc ∧ oc.deleting = true ∧ ownerOf s = oc.uid) ∨
    ∃ ns name, ∃ res : Object .dnsReservation, t = .reconcile .dnsReservation ns name ∧
      Subject ⟨.dnsReservation, ns, name⟩ tr res ∧ ownerOf s = res.uid := by
  cases h with
  | @requested account name served k s task at_key free =>
    subst at_key
    cases served <;> cases hk
  | withCluster => cases hk
  | issuer task subject dying owner => exact .inl ⟨_, _, _, task, subject, dying, owner⟩
  | index task subject owner _ => exact .inr ⟨_, _, _, task, subject, owner⟩

lemma OwnerStep.url {b a : Option Uid} (h : OwnerStep p t tr (issuerKey n) b a) :
    URLStep p t tr n b a := by
  cases h with
  | create h =>
    obtain ⟨ns, name, oc, task, subject, digest, owner⟩ := h.issuer_inv rfl rfl
    rw [owner]
    exact .reserve task subject digest
  | keep => exact .keep _
  | drop h =>
    rcases h.issuer_inv rfl with ⟨ns, name, oc, task, subject, dying, owner⟩ |
      ⟨ns, name, res, task, subject, owner⟩
    · rw [owner]
      exact .release task subject dying
    · rw [owner]
      exact .misplaced task subject

/-- A new state of a config, after the state it replaces. -/
inductive ConfigStep (p : Operator.Params) (t : Task) (tr : List Event) (ns name : String)
    (s new : Object .oidcConfig) : Prop
  | unready (phase : new.status.phase ≠ "Ready" ∨ new.status.phase = s.status.phase)
      (guard : oidcConfigFinalizer ∈ s.finalizers → oidcConfigFinalizer ∈ new.finalizers)
  | ready {oc : Object .oidcConfig} (task : t = .reconcile .oidcConfig ns name)
      (subject : Subject ⟨.oidcConfig, ns, name⟩ tr oc) (live : oc.deleting = false)
      (guarded : oidcConfigFinalizer ∈ oc.finalizers)
      (reserved : Reserved p tr oc.spec.issuerUrl oc.uid)
      (guard : oidcConfigFinalizer ∈ s.finalizers → oidcConfigFinalizer ∈ new.finalizers)
  | drop {oc : Object .oidcConfig} (task : t = .reconcile .oidcConfig ns name)
      (subject : Subject ⟨.oidcConfig, ns, name⟩ tr oc) (dying : oc.deleting = true)
      (phase : new.status.phase = s.status.phase)

/-- What a step does to URLs and configs: it may write one Index or one config. -/
inductive IssuerStep (p : Operator.Params) (t : Task) (tr : List Event) (s s' : State) : Prop
  | url (n : String) (step : URLStep p t tr n (reserver s n) (reserver s' n))
      (others : ∀ n' ≠ n, reserver s' n' = reserver s n')
      (same : Protocol.SameKind .oidcConfig s.store s'.store)
  | created {ns name : String} {new : Object .oidcConfig}
      (commit : s'.store = s.store.commit (oidcConfigKey ns name) new)
      (urls : ∀ n, reserver s' n = reserver s n)
      (vacant : s.store.find (oidcConfigKey ns name) = none) (fresh : s.store.fresh new.uid)
      (phase : new.status.phase ≠ "Ready")
  | replaced {ns name : String} {s0 new : Object .oidcConfig}
      (commit : s'.store = s.store.commit (oidcConfigKey ns name) new)
      (urls : ∀ n, reserver s' n = reserver s n)
      (stored : s.store.find (oidcConfigKey ns name) = some s0) (uid : new.uid = s0.uid)
      (spec : new.spec = s0.spec) (dying : s0.deleting → new.deleting)
      (step : ConfigStep p t tr ns name s0 new)

lemma issuerStep_config {s s' : State} {ns name : String} {op : Op} {new : Object k.kind}
    (h : (resources p t).Write tr s.store op k new) (hst : s'.store = s.store.commit k new)
    (hk : k = oidcConfigKey ns name) : IssuerStep p t tr s s' := by
  have hn : ∀ n, reserver s' n = reserver s n := by
    intro n
    refine ownerAt_congr ?_
    rw [hst]
    exact Store.find_commit_ne (by simp [hk])
  cases h with
  | @create _ o x vacant fresh h =>
    subst hk
    refine .created hst hn vacant fresh ?_
    show o.status.phase ≠ "Ready"
    cases h with
    | config _ _ _ _ _ status => rw [status]; decide
  | @update _ s0 o stored known h =>
    subst hk
    have hspec : o.spec = s0.spec := by cases h <;> rfl
    refine .replaced hst hn stored rfl hspec id ?_
    cases h with
    | annotate | claim | release => exact .unready (.inr rfl) id
    | addFinalizer => exact .unready (.inr rfl) (List.mem_append_left _)
    | dropConfig task subject dying => exact .drop task subject dying rfl
  | @status _ s0 o st _ stored known h =>
    subst hk
    refine .replaced hst hn stored rfl rfl id ?_
    cases h with
    | used => exact .unready (.inr rfl) id
    | unready _ phase => exact .unready phase id
    | ready task subject live guarded reserved =>
      exact .ready task subject live guarded reserved id
  | @delete _ s0 stored known h =>
    subst hk
    exact .replaced hst hn stored rfl rfl (fun _ => rfl) (.unready (.inr rfl) id)

/-- What happens to one URL, whatever is written. -/
lemma IssuerStep.urlStep {s s' : State} (h : IssuerStep p t tr s s') (n : String) :
    URLStep p t tr n (reserver s n) (reserver s' n) := by
  cases h with
  | created _ urls | replaced _ urls => rw [urls]; exact .keep _
  | url n1 step others _ =>
    by_cases hne : n = n1
    · exact hne ▸ step
    · rw [others n hne]; exact .keep _

theorem issuer_step {o : Op} {s s' : State} {r : o.Res} (hs : s.store.Sane)
    (hi : Informed tr s) (hf : (resources p t).Follows tr o) (hx : exec o x s = some (r, s')) :
    IssuerStep p t tr s s' := by
  rcases index_step .oidcConfig (fun _ _ => rfl) isResource_issuer hs hi hf hx with
    ⟨ns, name, new, hw, hst⟩ | ⟨same, n, others, step⟩
  · exact issuerStep_config hw hst rfl
  · exact .url n step.url others same

end

/-! ### The invariant -/

/-- The spec of a config never changes; who has reserved a URL is a config with that URL; a config
that is Ready and live has reserved its URL. -/
structure IssuerBook (p : Operator.Params) (s : State) : Prop where
  spec {ns name : String} {o o' : Object .oidcConfig} :
    ⟨oidcConfigKey ns name, o⟩ ∈ s.store.hist → ⟨oidcConfigKey ns name, o'⟩ ∈ s.store.hist →
      o.uid = o'.uid → o.spec = o'.spec
  owned {n : String} {u : Uid} : reserver s n = some u → ∃ ns name, ∃ o : Object .oidcConfig,
    ⟨oidcConfigKey ns name, o⟩ ∈ s.store.hist ∧ o.uid = u ∧
      p.issuerURLIndexName o.spec.issuerUrl = n
  ready {ns name : String} {r : Object .oidcConfig} :
    s.store.find (oidcConfigKey ns name) = some r → r.deleting = false →
      r.status.phase = "Ready" → reserver s (p.issuerURLIndexName r.spec.issuerUrl) = some r.uid

/-- What a reconcile of a live config knows: the config is still stored under its name, and its URL
is reserved once the reconcile has seen to that. -/
def Guarding (p : Operator.Params) (t : Task) (tr : List Event) (s : State) : Prop :=
  ∀ (ns name : String) (oc : Object .oidcConfig), t = .reconcile .oidcConfig ns name →
    Subject ⟨.oidcConfig, ns, name⟩ tr oc → oc.deleting = false →
    oidcConfigFinalizer ∈ oc.finalizers →
      (∃ r, s.store.find (oidcConfigKey ns name) = some r ∧ r.uid = oc.uid ∧
        oidcConfigFinalizer ∈ r.finalizers) ∧
      (Reserved p tr oc.spec.issuerUrl oc.uid →
        reserver s (p.issuerURLIndexName oc.spec.issuerUrl) = some oc.uid)

section

variable {p : Operator.Params} {t : Task} {tr : List Event} {s s' : State}

lemma issuerBook_empty : IssuerBook p State.empty := by
  constructor <;> simp [State.empty, Store.empty, reserver, ownerAt, Store.find]

lemma not_dying {ns name ns' name' : String} {oc r : Object .oidcConfig} (hs : s.store.Sane)
    (hi : Informed tr s) (hr : s.store.find (oidcConfigKey ns name) = some r)
    (hl : r.deleting = false) (subject : Subject ⟨.oidcConfig, ns', name'⟩ tr oc)
    (dying : oc.deleting = true) : oc.uid ≠ r.uid := by
  intro hu
  have hmem := hi _ _ (known_get subject.mem)
  have hk := hs.home hmem (hs.recorded hr) hu
  cases hk
  have := (hs.latest hr hmem hu).2 dying
  rw [hl] at this
  cases this

/-- A URL that a live config has reserved stays reserved, unless its own deletion is at work. -/
lemma URLStep.kept {u : Uid} {a b : Option Uid} (step : URLStep p t tr n b a) (hb : b = some u)
    (hrelease : ∀ (ns name : String) (oc : Object .oidcConfig),
      t = .reconcile .oidcConfig ns name → Subject ⟨.oidcConfig, ns, name⟩ tr oc →
        oc.deleting = true → oc.uid ≠ u)
    (hmisplaced : ∀ (ns name : String) (res : Object .dnsReservation),
      Subject ⟨.dnsReservation, ns, name⟩ tr res → res.uid ≠ u) : a = some u := by
  cases step with
  | reserve => cases hb
  | keep => exact hb
  | release task subject dying =>
    exact absurd (Option.some.inj hb) (hrelease _ _ _ task subject dying)
  | misplaced task subject => exact absurd (Option.some.inj hb) (hmisplaced _ _ _ subject)

lemma reservation_ne_config {ns name ns' name' : String} {res : Object .dnsReservation}
    {oc : Object .oidcConfig} (hs : s.store.Sane) (hi : Informed tr s)
    (subject : Subject ⟨.dnsReservation, ns, name⟩ tr res)
    (ho : ⟨oidcConfigKey ns' name', oc⟩ ∈ s.store.hist) : res.uid ≠ oc.uid := by
  intro hu
  cases hs.home (hi _ _ (known_get subject.mem)) ho hu

section

variable {o : Op} {x : Choice} {r : o.Res} {ns name : String} {oc : Object .oidcConfig}
  (hs : s.store.Sane) (hi : Informed tr s) (hf : (resources p t).Follows tr o)
  (hx : exec o x s = some (r, s'))
include hs hi hf hx

lemma guarded_kept (hdrop : ∀ oc' : Object .oidcConfig, t = .reconcile .oidcConfig ns name →
      Subject ⟨.oidcConfig, ns, name⟩ tr oc' → oc'.deleting = false)
    (h : ∃ r, s.store.find (oidcConfigKey ns name) = some r ∧ r.uid = oc.uid ∧
      oidcConfigFinalizer ∈ r.finalizers) :
    ∃ r, s'.store.find (oidcConfigKey ns name) = some r ∧ r.uid = oc.uid ∧
      oidcConfigFinalizer ∈ r.finalizers := by
  obtain ⟨r0, hr0, hu0, hg0⟩ := h
  cases issuer_step hs hi hf hx with
  | url n step others same =>
    rw [(same ns name).1]
    exact ⟨r0, hr0, hu0, hg0⟩
  | @created ns' name' new commit urls vacant fresh phase =>
    have hne : oidcConfigKey ns name ≠ oidcConfigKey ns' name' := by
      intro he
      cases he
      cases vacant.symm.trans hr0
    rw [commit, Store.find_commit_ne hne]
    exact ⟨r0, hr0, hu0, hg0⟩
  | @replaced ns' name' s0 new commit urls stored uid spec dying step =>
    by_cases hk : oidcConfigKey ns name = oidcConfigKey ns' name'
    · cases hk
      cases stored.symm.trans hr0
      have hg : oidcConfigFinalizer ∈ new.finalizers := by
        cases step with
        | unready _ guard | ready _ _ _ _ _ guard => exact guard hg0
        | drop task subject dying =>
          rw [hdrop _ task subject] at dying
          cases dying
      refine ⟨new, ?_, uid.trans hu0, hg⟩
      rw [commit]
      exact Store.find_commit_kept fun hgone => by rw [hgone.2] at hg; cases hg
    · rw [commit, Store.find_commit_ne hk]
      exact ⟨r0, hr0, hu0, hg0⟩

lemma reserved_kept {u : Uid} (h : reserver s n = some u)
    (hrelease : ∀ (ns name : String) (oc : Object .oidcConfig),
      t = .reconcile .oidcConfig ns name → Subject ⟨.oidcConfig, ns, name⟩ tr oc →
        oc.deleting = true → oc.uid ≠ u)
    (hconfig : ∃ ns name, ∃ o : Object .oidcConfig, ⟨oidcConfigKey ns name, o⟩ ∈ s.store.hist ∧
      o.uid = u) : reserver s' n = some u := by
  refine ((issuer_step hs hi hf hx).urlStep n).kept h hrelease fun ns name res subject => ?_
  obtain ⟨ns', name', o, ho, rfl⟩ := hconfig
  exact reservation_ne_config hs hi subject ho

end

lemma IssuerBook.step {o : Op} {r : o.Res} (h : IssuerBook p s) (hs : s.store.Sane)
    (hi : Informed tr s) (hT : Guarding p t tr s) (hf : (resources p t).Follows tr o)
    (hx : exec o x s = some (r, s')) : IssuerBook p s' := by
  have hstep := issuer_step hs hi hf hx
  refine ⟨?_, ?_, ?_⟩
  · cases hstep with
    | url n step others same =>
      intro ns name o o' ho ho' hu
      exact h.spec (((same ns name).2 o).mp ho) (((same ns name).2 o').mp ho') hu
    | created commit urls vacant fresh phase =>
      intro ns' name' o o' ho ho' hu
      rw [commit] at ho ho'
      rcases Store.mem_hist_commit.mp ho with ho | ho <;>
        rcases Store.mem_hist_commit.mp ho' with ho' | ho'
      · cases ho; cases ho'; rfl
      · cases ho
        exact absurd hu.symm (Store.fresh_ne fresh ho')
      · cases ho'
        exact absurd hu (Store.fresh_ne fresh ho)
      · exact h.spec ho ho' hu
    | replaced commit urls stored uid spec dying step =>
      have hmem := hs.recorded stored
      intro ns' name' o o' ho ho' hu
      rw [commit] at ho ho'
      rcases Store.mem_hist_commit.mp ho with ho | ho <;>
        rcases Store.mem_hist_commit.mp ho' with ho' | ho'
      · cases ho; cases ho'; rfl
      · cases ho
        exact spec.trans (h.spec hmem ho' (uid.symm.trans hu))
      · cases ho'
        exact (h.spec ho hmem (hu.trans uid)).trans spec.symm
      · exact h.spec ho ho' hu
  · intro n u hu
    have step := hstep.urlStep n
    generalize hb : reserver s n = b at step
    rw [hu] at step
    generalize ha : some u = a at step
    cases step with
    | @reserve ns name oc task subject digest =>
      cases ha
      exact ⟨ns, name, oc, hist_exec hx (hi _ _ (known_get subject.mem)), rfl, digest⟩
    | keep =>
      obtain ⟨ns, name, o, ho, hrest⟩ := h.owned (hb.trans ha.symm)
      exact ⟨ns, name, o, hist_exec hx ho, hrest⟩
    | release | misplaced => cases ha
  · cases hstep with
    | url n step others same =>
      intro ns name r hr hl hp
      rw [(same ns name).1] at hr
      refine reserved_kept hs hi hf hx (h.ready hr hl hp) ?_ ⟨ns, name, r, hs.recorded hr, rfl⟩
      exact fun ns' name' oc _ subject dying => not_dying hs hi hr hl subject dying
    | @created ns name new commit urls vacant fresh phase =>
      intro ns' name' r hr hl hp
      rw [urls]
      rw [commit] at hr
      by_cases hk : oidcConfigKey ns' name' = oidcConfigKey ns name
      · cases hk
        exact absurd ((Store.find_commit_some hr).1 ▸ hp) phase
      · rw [Store.find_commit_ne hk] at hr
        exact h.ready hr hl hp
    | @replaced ns name s0 new commit urls stored uid spec dying step =>
      intro ns' name' r hr hl hp
      rw [urls]
      rw [commit] at hr
      by_cases hk : oidcConfigKey ns' name' = oidcConfigKey ns name
      · cases hk
        obtain rfl := (Store.find_commit_some hr).1
        have hl0 : s0.deleting = false := by
          by_contra hd
          rw [dying (by simpa using hd)] at hl
          cases hl
        rw [spec, uid]
        cases step with
        | unready phase _ =>
          rcases phase with hne | he
          · exact absurd hp hne
          · exact h.ready stored hl0 (he ▸ hp)
        | ready task subject live guarded reserved _ =>
          -- what is stored is the config the reconcile has read
          obtain ⟨⟨r0, hr0, hu0, -⟩, hres⟩ := hT _ _ _ task subject live guarded
          cases stored.symm.trans hr0
          rw [hu0, h.spec (hs.recorded stored) (hi _ _ (known_get subject.mem)) hu0]
          exact hres reserved
        | drop _ _ _ phase => exact h.ready stored hl0 (phase ▸ hp)
      · rw [Store.find_commit_ne hk] at hr
        exact h.ready hr hl hp

lemma reserver_of_created {w i : Object .index}
    (hx : exec (.kube (.create (issuerKey n) w)) x s = some (.ok i, s')) :
    reserver s' n = some (ownerOf w) := by
  obtain ⟨-, -, rfl, hd⟩ := Store.exec_create (exec_kube hx).1
  rw [reserver, ownerAt, hd, Store.find_commit_kept (by simp [Store.created])]
  rfl

lemma reserver_of_found {i : Object .index}
    (hx : exec (.kube (.get (issuerKey n))) x s = some (.ok i, s')) :
    reserver s' n = some (ownerOf i) := by
  obtain ⟨hfind, hd⟩ := Store.exec_get (exec_kube hx).1
  rw [reserver, ownerAt, hd, hfind]
  rfl

lemma Guarding.own {o : Op} {r : o.Res} (h : Guarding p t tr s) (hs : s.store.Sane)
    (hi : Informed tr s) (hf : (resources p t).Follows tr o) (hx : exec o x s = some (r, s')) :
    Guarding p t (⟨o, r⟩ :: tr) s' := by
  intro ns name oc task subject live guarded
  by_cases htr : tr = []
  · -- the reconcile has only read its subject
    subst htr
    have he : (⟨o, r⟩ : Event) = ⟨.kube (.get (oidcConfigKey ns name)), .ok oc⟩ :=
      Option.some.inj subject
    cases he
    obtain ⟨hfind, hd⟩ := Store.exec_get (exec_kube hx).1
    refine ⟨⟨oc, by rw [hd]; exact hfind, rfl, guarded⟩, ?_⟩
    rintro (⟨w, i, hm, -⟩ | ⟨i, hm, -⟩) <;> cases List.mem_singleton.mp hm
  · have hsub := subject.tail htr
    obtain ⟨hstored, hres⟩ := h ns name oc task hsub live guarded
    -- the reconcile does not delete
    have hunique : ∀ (ns' name' : String) (oc' : Object .oidcConfig),
        t = .reconcile .oidcConfig ns' name' → Subject ⟨.oidcConfig, ns', name'⟩ tr oc' →
          oc'.deleting = false := by
      intro ns' name' oc' task' subject'
      cases task.symm.trans task'
      rw [subject'.unique hsub]
      exact live
    refine ⟨guarded_kept hs hi hf hx (hunique ns name) hstored, fun hr => ?_⟩
    have hold : Reserved p tr oc.spec.issuerUrl oc.uid →
        reserver s' (p.issuerURLIndexName oc.spec.issuerUrl) = some oc.uid := by
      intro hr
      refine reserved_kept hs hi hf hx (hres hr) ?_
        ⟨ns, name, oc, hi _ _ (known_get hsub.mem), rfl⟩
      intro ns' name' oc' task' subject' dying
      rw [hunique ns' name' oc' task' subject'] at dying
      cases dying
    rcases hr with ⟨w, i, hm, ho⟩ | ⟨i, hm, ho⟩
    · rcases List.mem_cons.mp hm with he | hm
      · cases he
        rw [reserver_of_created hx, ho]
      · exact hold (.inl ⟨w, i, hm, ho⟩)
    · rcases List.mem_cons.mp hm with he | hm
      · cases he
        rw [reserver_of_found hx, ho]
      · exact hold (.inr ⟨i, hm, ho⟩)

lemma Guarding.other {l l' : Caller} {tr' : List Event} {o : Op} {r : o.Res}
    (he : l.excl .oidcConfig l' = false) (h : Guarding p l.task tr s) (hs : s.store.Sane)
    (hi : Informed tr s) (hi' : Informed tr' s) (hf : (resources p l'.task).Follows tr' o)
    (hx : exec o x s = some (r, s')) : Guarding p l.task tr s' := by
  intro ns name oc task subject live guarded
  obtain ⟨hstored, hres⟩ := h ns name oc task subject live guarded
  refine ⟨guarded_kept hs hi' hf hx (fun oc' task' _ => ?_) hstored, fun hr => ?_⟩
  · rw [Caller.excl_reconcile task task'] at he
    cases he
  · refine reserved_kept hs hi' hf hx (hres hr) ?_
      ⟨ns, name, oc, hi _ _ (known_get subject.mem), rfl⟩
    intro ns' name' oc' task' subject' _
    exact (subjects_ne he hs hi hi' task task' subject subject').symm

end

theorem issuer_outline {p : Params} {ok : Caller → Op → Choice → State → Prop} :
    (serial .oidcConfig p).Outline ok (fun l => (resources p.operator l.task).Follows)
      (fun _ _ _ => True) (fun s => s.store.Sane ∧ IssuerBook p.operator s)
      (fun l tr s => Informed tr s ∧ Guarding p.operator l.task tr s)
      (fun _ (_ : PEmpty) => False) (fun _ _ => True) := by
  refine fleet_outline (Caller.excl_symm _) follows_resources ?_ ?_ ?_
  · intro t s _ ns name oc _ hsub
    cases hsub
  · intro l tr o x s s' r hs hi hI hT hA _ hx
    exact ⟨hI.step hs hi hT hA hx, hT.own hs hi hA hx⟩
  · intro l l' tr tr' o x s s' r he hs hi hi' _ hT _ hA _ hx
    exact hT.other he hs hi hi' hA hx

/-- The issuer URLs that configs have or have had. -/
def urlsInUse (s : State) : Set String :=
  { url | ∃ ns name, ∃ o : Object .oidcConfig, ⟨oidcConfigKey ns name, o⟩ ∈ s.store.hist ∧
    o.spec.issuerUrl = url }

/-- **One issuer URL, one Ready OidcConfig**, as long as no two reconciles of one config overlap.
The Index of a URL is owned by one UID, that of a config with the URL; whoever removes it reconciles
the deletion of the config that owns it; and two live configs that are Ready have different URLs. -/
theorem issuer_urls_unique {p : Params} {es : List (ℕ × Event)}
    {c : FleetConf} (h : (serial .oidcConfig p).Hist idle es c)
    (hinj : Set.InjOn p.operator.issuerURLIndexName (urlsInUse c.store)) :
    (∀ url ∈ urlsInUse c.store, ∀ i, c.store.store.find (issuerURLKey p.operator url) = some i →
      ∃! u, ownerOf i = u ∧ ∃ ns name, ∃ o : Object .oidcConfig,
        ⟨oidcConfigKey ns name, o⟩ ∈ c.store.store.hist ∧ o.uid = u ∧ o.spec.issuerUrl = url) ∧
    (∀ (i : ℕ) t c' (n : String) (idx : Object .index), c.pool[i]? = some t →
      (serial .oidcConfig p).Act i c c' → c.store.store.find (issuerKey n) = some idx →
      c'.store.store.find (issuerKey n) = none → ∃ ns name, ∃ oc : Object .oidcConfig,
        t.label.task = .reconcile .oidcConfig ns name ∧
        Subject ⟨.oidcConfig, ns, name⟩ (System.own i es) oc ∧ oc.deleting = true ∧
        ownerOf idx = oc.uid) ∧
    (∀ (ns name ns' name' : String) (r r' : Object .oidcConfig),
      c.store.store.find (oidcConfigKey ns name) = some r →
      c.store.store.find (oidcConfigKey ns' name') = some r' →
      r.deleting = false → r'.deleting = false → r.status.phase = "Ready" →
      r'.status.phase = "Ready" → r.spec.issuerUrl = r'.spec.issuerUrl →
        ns = ns' ∧ name = name') := by
  have h0 : State.empty.store.Sane ∧ IssuerBook p.operator State.empty :=
    ⟨Store.sane_empty, issuerBook_empty⟩
  obtain ⟨hs, hI⟩ := (issuer_outline.holds h0 (fun _ => trivial) h).1
  refine ⟨?_, ?_, ?_⟩
  · intro url hurl i hi
    have hres : reserver c.store (p.operator.issuerURLIndexName url) = some (ownerOf i) :=
      ownerAt_eq_some.mpr ⟨i, hi, rfl⟩
    obtain ⟨ns, name, o, ho, hu, hd⟩ := hI.owned hres
    have hsame : o.spec.issuerUrl = url := hinj ⟨ns, name, o, ho, rfl⟩ hurl hd
    exact ⟨ownerOf i, ⟨rfl, ns, name, o, ho, hu, hsame⟩, fun u hu => hu.1.symm⟩
  · intro i t c' n idx ht hact hidx hgone
    obtain ⟨o, x, r, -, ⟨hi, -⟩, hA, hx⟩ := issuer_outline.act h0 (fun _ => trivial) h ht hact
    have hb : reserver c.store n = some (ownerOf idx) := ownerAt_eq_some.mpr ⟨idx, hidx, rfl⟩
    have ha : reserver c'.store n = none := by rw [reserver, ownerAt, hgone]; rfl
    have step := (issuer_step hs hi hA hx).urlStep n
    rw [ha] at step
    generalize hb' : reserver c.store n = b at step
    generalize hnone : (none : Option Uid) = a at step
    cases step with
    | reserve => cases hnone
    | keep => rw [hb, ← hnone] at hb'; cases hb'
    | release task subject dying =>
      exact ⟨_, _, _, task, subject, dying, Option.some.inj (hb.symm.trans hb')⟩
    | misplaced task subject =>
      -- the owner is a config, not a reservation
      obtain ⟨ns, name, o, ho, hu, -⟩ := hI.owned hb'
      exact absurd hu.symm (reservation_ne_config hs hi subject ho)
  · intro ns name ns' name' r r' hr hr' hl hl' hp hp' hurl
    have h1 := hI.ready hr hl hp
    have h2 := hI.ready hr' hl' hp'
    rw [hurl] at h1
    have hk := hs.home (hs.recorded hr) (hs.recorded hr') (Option.some.inj (h1.symm.trans h2))
    cases hk
    exact ⟨rfl, rfl⟩

/-- Two configs with one issuer URL; the first has reserved it when the second comes. -/
def conflictingConfigs : List (System.Event Choice Caller) :=
  performs 0 (.createOidcConfig "1" "a" [] ⟨"unmanaged", "https://x", "arn:s", "arn:r"⟩ "")
    [{}, {}, { uid := "ca" }] ++
  performs 1 (.createOidcConfig "1" "b" [] ⟨"unmanaged", "https://x", "arn:s", "arn:r"⟩ "")
    [{}, {}, { uid := "cb" }] ++
  performs 2 (.reconcile .oidcConfig "account-1" "a") [{}, {}] ++
  performs 3 (.reconcile .oidcConfig "account-1" "b") [{}, {}] ++
  performs 4 (.reconcile .oidcConfig "account-1" "a")
    [{}, {}, {}, { uid := "i" }, {}, { text := "key" }, {}, {}, {}, {}] ++
  performs 5 (.reconcile .oidcConfig "account-1" "b") [{}, {}, {}, {}, {}, {}, {}]

/-- Of two configs with one URL, one is Ready and the other is not. -/
theorem issuer_url_of_two : ∃ (es : List (ℕ × Event)) (c : FleetConf) (r r' : Object .oidcConfig),
      (serial .oidcConfig sample).Hist idle es c ∧
      c.store.store.find (oidcConfigKey "account-1" "a") = some r ∧
      c.store.store.find (oidcConfigKey "account-1" "b") = some r' ∧
      r.spec.issuerUrl = "https://x" ∧ r'.spec.issuerUrl = "https://x" ∧
      r.status.phase = "Ready" ∧ r'.status.phase ≠ "Ready" := by
  have hrun : ((serial .oidcConfig sample).runSchedule conflictingConfigs idle).bind (fun c =>
      (c.store.store.find (oidcConfigKey "account-1" "a")).bind fun r =>
        (c.store.store.find (oidcConfigKey "account-1" "b")).map fun r' =>
          ((r.status.phase, r.spec.issuerUrl, r.deleting), r'.spec.issuerUrl, r'.deleting)) =
      some (("Ready", "https://x", false), "https://x", false) := by
    decide +kernel
  obtain ⟨c, hc, hobs⟩ := Option.bind_eq_some_iff.mp hrun
  obtain ⟨r, hr, hobs⟩ := Option.bind_eq_some_iff.mp hobs
  obtain ⟨r', hr', hobs⟩ := Option.map_eq_some_iff.mp hobs
  simp only [Prod.mk.injEq] at hobs
  obtain ⟨⟨hp, hu, hl⟩, hu', hl'⟩ := hobs
  obtain ⟨es, hes⟩ := (System.run_of_schedule hc).hist
  refine ⟨es, c, r, r', hes, hr, hr', hu, hu', hp, fun hp' => ?_⟩
  have hsame := (issuer_urls_unique hes Function.injective_id.injOn).2.2 _ _ _ _ r r' hr hr' hl hl'
    hp hp' (hu.trans hu'.symm)
  exact absurd hsame.2 (by decide)

/-- A reconcile of config a reserves its URL. Before it goes on, the config is deleted, another
reconcile cleans up after it, and a config with another URL takes its name. Then comes config b with
that URL. -/
def replacedConfig : List (System.Event Choice Caller) :=
  performs 0 (.createOidcConfig "1" "a" [] ⟨"unmanaged", "https://x", "arn:s", "arn:r"⟩ "")
    [{}, {}, { uid := "ca" }] ++
  performs 1 (.reconcile .oidcConfig "account-1" "a") [{}, {}] ++
  performs 2 (.reconcile .oidcConfig "account-1" "a") [{}, {}, {}, { uid := "i" }] ++
  performs 3 (.request (.delete "1" "a" .oidcConfig)) [{}, {}, {}] ++
  performs 4 (.reconcile .oidcConfig "account-1" "a") [{}, {}, {}, {}, {}, {}] ++
  performs 5 (.createOidcConfig "1" "a" [] ⟨"unmanaged", "https://y", "arn:s", "arn:r"⟩ "")
    [{}, {}, { uid := "ca'" }] ++
  [.act 2 {}, .act 2 { text := "key" }, .act 2 {}, .act 2 {}, .act 2 {}, .act 2 {}] ++
  performs 6 (.createOidcConfig "1" "b" [] ⟨"unmanaged", "https://y", "arn:s", "arn:r"⟩ "")
    [{}, {}, { uid := "cb" }] ++
  performs 7 (.reconcile .oidcConfig "account-1" "b") [{}, {}] ++
  performs 8 (.reconcile .oidcConfig "account-1" "b")
    [{}, {}, {}, { uid := "j" }, {}, { text := "key" }, {}, {}, {}, {}]

/-- Two reconciles of config a overlap, and two live configs are Ready with one URL. -/
theorem issuer_url_shared : ∃ (es : List (ℕ × Event)) (c : FleetConf) (r r' : Object .oidcConfig),
      (fleet sample).Hist idle es c ∧
      c.store.store.find (oidcConfigKey "account-1" "a") = some r ∧
      c.store.store.find (oidcConfigKey "account-1" "b") = some r' ∧
      r.deleting = false ∧ r'.deleting = false ∧
      r.status.phase = "Ready" ∧ r'.status.phase = "Ready" ∧
      r.spec.issuerUrl = "https://y" ∧ r'.spec.issuerUrl = "https://y" := by
  have hrun : ((fleet sample).runSchedule replacedConfig idle).bind (fun c =>
      (c.store.store.find (oidcConfigKey "account-1" "a")).bind fun r =>
        (c.store.store.find (oidcConfigKey "account-1" "b")).map fun r' =>
          ((r.deleting, r'.deleting), (r.status.phase, r'.status.phase),
            r.spec.issuerUrl, r'.spec.issuerUrl)) =
      some ((false, false), ("Ready", "Ready"), "https://y", "https://y") := by
    decide +kernel
  obtain ⟨c, hc, hobs⟩ := Option.bind_eq_some_iff.mp hrun
  obtain ⟨r, hr, hobs⟩ := Option.bind_eq_some_iff.mp hobs
  obtain ⟨r', hr', hobs⟩ := Option.map_eq_some_iff.mp hobs
  simp only [Prod.mk.injEq] at hobs
  obtain ⟨⟨hl, hl'⟩, ⟨hp, hp'⟩, hu, hu'⟩ := hobs
  obtain ⟨es, hes⟩ := (System.run_of_schedule hc).hist
  exact ⟨es, c, r, r', hes, hr, hr', hl, hl', hp, hp', hu, hu'⟩

end Seaplane.Fleet
