import Seaplane.Fleet.ResourceReconciles

/-!
Base domains are unique and stable.

The Indexes of the DNS shard are a map from names to the UIDs of the reservations that own them. A
reservation owns at most one name, one that is Ready and live owns the first label of its base
domain, and a reconcile of a live reservation knows which name it owns.
-/

namespace Seaplane.Fleet

open Lib Kube Operator

def holder (s : State) (n : String) : Option Uid := ownerAt s.store (dnsIndexKey n)

/-! ### What a step does to the names -/

variable {n ns : String} {o : Op} {x : Choice}

section

variable {p : Operator.Params} {t : Task} {tr : List Event}

/-- The owner of a name before and after a write of its Index. -/
inductive NameStep (t : Task) (tr : List Event) (n : String) : Option Uid → Option Uid → Prop
  | allocate {ns name : String} {res : Object .dnsReservation}
      (task : t = .reconcile .dnsReservation ns name)
      (subject : Subject ⟨.dnsReservation, ns, name⟩ tr res) (live : res.deleting = false)
      (vacant : Vacant tr res.uid) : NameStep t tr n none (some res.uid)
  | keep (u : Option Uid) : NameStep t tr n u u
  | drop {ns name : String} {res : Object .dnsReservation}
      (task : t = .reconcile .dnsReservation ns name)
      (subject : Subject ⟨.dnsReservation, ns, name⟩ tr res)
      (why : res.deleting = true ∨ ∃ n', Owns tr res.uid n' ∧ n' ≠ n) :
      NameStep t tr n (some res.uid) none

lemma issuer_ne_shard : oidcIssuerReservationsNamespace ≠ dnsShardNamespace defaultDNSShard := by
  decide

lemma isResource_index (n : String) : isResource (dnsIndexKey n) = true := by
  have hne : dnsShardNamespace defaultDNSShard ≠ Api.queueReservationsNamespace := by decide
  simp [isResource, claimable, hne]

variable {k : Key}

lemma CreatesResource.index_inv {o : Object k.kind} (h : CreatesResource p t tr k o)
    (hk : k.kind = .index) (hns : k.ns ≠ oidcIssuerReservationsNamespace) :
    ∃ ns name, ∃ res : Object .dnsReservation, t = .reconcile .dnsReservation ns name ∧
      Subject ⟨.dnsReservation, ns, name⟩ tr res ∧ res.deleting = false ∧ Vacant tr res.uid ∧
        ownerOf o = res.uid := by
  cases h with
  | config | reservation | automatic => cases hk
  | issuer => exact absurd rfl hns
  | index task subject live _ vacant owner => exact ⟨_, _, _, task, subject, live, vacant, owner⟩

lemma DeletesResource.index_inv {s : Object k.kind} (h : DeletesResource p t tr k s)
    (hk : k.kind = .index) (hns : k.ns = dnsShardNamespace defaultDNSShard) :
    ∃ ns name, ∃ res : Object .dnsReservation, t = .reconcile .dnsReservation ns name ∧
      Subject ⟨.dnsReservation, ns, name⟩ tr res ∧ ownerOf s = res.uid ∧
        (res.deleting = true ∨ ∃ n', Owns tr res.uid n' ∧ n' ≠ k.name) := by
  cases h with
  | @requested account name served k s task at_key free =>
    subst at_key
    cases served <;> cases hk
  | withCluster => cases hk
  | issuer => exact absurd hns issuer_ne_shard
  | index task subject owner why =>
    rcases why with hd | hne | hdup
    · exact ⟨_, _, _, task, subject, owner, .inl hd⟩
    · exact absurd hns hne
    · exact ⟨_, _, _, task, subject, owner, .inr hdup⟩

lemma OwnerStep.name {b a : Option Uid} (h : OwnerStep p t tr (dnsIndexKey n) b a) :
    NameStep t tr n b a := by
  cases h with
  | create h =>
    obtain ⟨ns, name, res, task, subject, live, vacant, owner⟩ :=
      h.index_inv rfl issuer_ne_shard.symm
    rw [owner]
    exact .allocate task subject live vacant
  | keep => exact .keep _
  | drop h =>
    obtain ⟨ns, name, res, task, subject, owner, why⟩ := h.index_inv rfl rfl
    rw [owner]
    exact .drop task subject why

/-- A new state of a reservation, after the state it replaces. -/
inductive ReservationStep (p : Operator.Params) (t : Task) (tr : List Event)
    (s new : Object .dnsReservation) : Prop
  | keep (status : new.status = s.status)
  | allocated {ns name n : String} {res : Object .dnsReservation}
      (task : t = .reconcile .dnsReservation ns name)
      (subject : Subject ⟨.dnsReservation, ns, name⟩ tr res) (live : res.deleting = false)
      (same : s.uid = res.uid) (owns : Owns tr res.uid n)
      (phase : new.status.phase = "Ready") (domain : new.status.baseDomain = baseDomainOf p n)
  | unallocated {ns name : String} {res : Object .dnsReservation}
      (task : t = .reconcile .dnsReservation ns name)
      (subject : Subject ⟨.dnsReservation, ns, name⟩ tr res) (live : res.deleting = false)
      (same : s.uid = res.uid) (vacant : Vacant tr res.uid) (phase : new.status.phase ≠ "Ready")

/-- What a step does to names and reservations: it may write one Index or one reservation. -/
inductive DomainStep (p : Operator.Params) (t : Task) (tr : List Event) (s s' : State) : Prop
  | name (n : String) (step : NameStep t tr n (holder s n) (holder s' n))
      (others : ∀ n' ≠ n, holder s' n' = holder s n')
      (same : Protocol.SameKind .dnsReservation s.store s'.store)
  | created {ns name : String} {new : Object .dnsReservation}
      (commit : s'.store = s.store.commit (dnsReservationKey ns name) new)
      (names : ∀ n, holder s' n = holder s n) (fresh : s.store.fresh new.uid)
      (phase : new.status.phase ≠ "Ready")
  | replaced {ns name : String} {s0 new : Object .dnsReservation}
      (commit : s'.store = s.store.commit (dnsReservationKey ns name) new)
      (names : ∀ n, holder s' n = holder s n)
      (stored : s.store.find (dnsReservationKey ns name) = some s0) (uid : new.uid = s0.uid)
      (version : new.resourceVersion = s0.resourceVersion + 1)
      (dying : s0.deleting → new.deleting) (step : ReservationStep p t tr s0 new)

lemma domainStep_reservation {s s' : State} {name : String} {op : Op} {new : Object k.kind}
    (h : (resources p t).Write tr s.store op k new) (hst : s'.store = s.store.commit k new)
    (hk : k = dnsReservationKey ns name) : DomainStep p t tr s s' := by
  have hn : ∀ n, holder s' n = holder s n := by
    intro n
    refine ownerAt_congr ?_
    rw [hst]
    exact Store.find_commit_ne (by simp [hk])
  cases h with
  | @create _ o x vacant fresh h =>
    subst hk
    refine .created hst hn fresh ?_
    show o.status.phase ≠ "Ready"
    cases h with
    | reservation _ _ phase => rw [phase]; decide
    | automatic _ _ _ _ _ status => rw [status]; decide
  | @update _ s0 o stored known h =>
    subst hk
    exact .replaced hst hn stored rfl rfl id (.keep rfl)
  | @status _ s0 o st _ stored known h =>
    subst hk
    refine .replaced hst hn stored rfl rfl id ?_
    cases h with
    | allocated task subject live same _ owns phase domain =>
      exact .allocated task subject live same owns phase domain
    | unallocated task subject live same _ vacant phase =>
      exact .unallocated task subject live same vacant phase
  | @delete _ s0 stored known h =>
    subst hk
    exact .replaced hst hn stored rfl rfl (fun _ => rfl) (.keep rfl)

/-- What happens to one name, whatever is written. -/
lemma DomainStep.nameStep {s s' : State} (h : DomainStep p t tr s s') (n : String) :
    NameStep t tr n (holder s n) (holder s' n) := by
  cases h with
  | created _ names | replaced _ names => rw [names]; exact .keep _
  | name n1 step others _ =>
    by_cases hne : n = n1
    · exact hne ▸ step
    · rw [others n hne]; exact .keep _

theorem domain_step {s s' : State} {r : o.Res} (hs : s.store.Sane) (hi : Informed tr s)
    (hf : (resources p t).Follows tr o) (hx : exec o x s = some (r, s')) :
    DomainStep p t tr s s' := by
  rcases index_step .dnsReservation (fun _ _ => rfl) isResource_index hs hi hf hx with
    ⟨ns, name, new, hw, hst⟩ | ⟨same, n, others, step⟩
  · exact domainStep_reservation hw hst rfl
  · exact .name n step.name others same

end

/-! ### The invariant -/

/-- A reservation owns at most one name; one that is Ready and live owns its base domain; a domain
that was recorded stays while the reservation is live. -/
structure Allotment (p : Operator.Params) (s : State) : Prop where
  single {n n' : String} {u : Uid} : holder s n = some u → holder s n' = some u → n = n'
  ready {ns name : String} {r : Object .dnsReservation} :
    s.store.find (dnsReservationKey ns name) = some r → r.deleting = false →
      r.status.phase = "Ready" →
        ∃ n, holder s n = some r.uid ∧ r.status.baseDomain = baseDomainOf p n
  stable {ns name : String} {o o' : Object .dnsReservation} :
    ⟨dnsReservationKey ns name, o⟩ ∈ s.store.hist → ⟨dnsReservationKey ns name, o'⟩ ∈ s.store.hist →
      o.uid = o'.uid → o.resourceVersion ≤ o'.resourceVersion → o.status.phase = "Ready" →
        o'.deleting = false → o'.status.phase = "Ready" ∧ o'.status.baseDomain = o.status.baseDomain

/-- What a reconcile of a live reservation knows of its name. -/
def Allotted (t : Task) (tr : List Event) (s : State) : Prop :=
  ∀ (ns name : String) (res : Object .dnsReservation), t = .reconcile .dnsReservation ns name →
    Subject ⟨.dnsReservation, ns, name⟩ tr res → res.deleting = false →
      (∀ n, Owns tr res.uid n → holder s n = some res.uid) ∧
        (Vacant tr res.uid → ∀ n, holder s n ≠ some res.uid)

section

variable {p : Operator.Params} {t : Task} {tr : List Event} {s s' : State}

lemma allotment_empty : Allotment p State.empty := by
  constructor <;> simp [State.empty, Store.empty, holder, ownerAt, Store.find]

lemma Allotment.dying_of_drop {name : String} {res : Object .dnsReservation} (h : Allotment p s)
    (hT : Allotted t tr s) (task : t = .reconcile .dnsReservation ns name)
    (subject : Subject ⟨.dnsReservation, ns, name⟩ tr res) (hn : holder s n = some res.uid)
    (why : res.deleting = true ∨ ∃ n', Owns tr res.uid n' ∧ n' ≠ n) : res.deleting = true := by
  rcases why with hd | ⟨n', ho, hne⟩
  · exact hd
  · by_contra hl
    have hn' := (hT ns name res task subject (Bool.eq_false_iff.mpr hl)).1 n' ho
    exact hne (h.single hn' hn)

lemma Allotment.name (h : Allotment p s) (hs : s.store.Sane) (hi : Informed tr s)
    (hT : Allotted t tr s) (step : NameStep t tr n (holder s n) (holder s' n))
    (others : ∀ n' ≠ n, holder s' n' = holder s n')
    (same : Protocol.SameKind .dnsReservation s.store s'.store) : Allotment p s' := by
  generalize hb : holder s n = b at step
  generalize ha : holder s' n = a at step
  -- who owns a name owned it before, or owned none and has got the one that is written
  have hown : ∀ {n' u}, holder s' n' = some u →
      holder s n' = some u ∨ n' = n ∧ ∀ n, holder s n ≠ some u := by
    intro n' u hu
    by_cases hne : n' = n
    · subst hne
      cases step with
      | allocate task subject live vacant =>
        cases ha.symm.trans hu
        exact .inr ⟨rfl, (hT _ _ _ task subject live).2 vacant⟩
      | keep => exact .inl (hb.trans (ha.symm.trans hu))
      | drop => cases ha.symm.trans hu
    · exact .inl (others _ hne ▸ hu)
  refine ⟨?_, ?_, ?_⟩
  · intro n1 n2 u h1 h2
    rcases hown h1 with h1 | ⟨rfl, hnone⟩ <;> rcases hown h2 with h2 | ⟨rfl, hnone⟩
    · exact h.single h1 h2
    · exact absurd h1 (hnone n1)
    · exact absurd h2 (hnone n2)
    · rfl
  · intro ns name r hr hl hp
    rw [(same ns name).1] at hr
    obtain ⟨n0, hn0, hd⟩ := h.ready hr hl hp
    refine ⟨n0, ?_, hd⟩
    by_cases hne : n0 = n
    · subst hne
      cases step with
      | allocate => rw [hb] at hn0; cases hn0
      | keep u => exact ha.trans (hb.symm.trans hn0)
      | @drop ns' name' res task subject why =>
        -- the reservation would be the one that is being deleted
        have hdy := h.dying_of_drop hT task subject hb why
        have hmem := hi _ _ (known_get subject.mem)
        have hu : res.uid = r.uid := Option.some.inj (hb.symm.trans hn0)
        have hk := hs.home hmem (hs.recorded hr) hu
        cases hk
        have := (hs.latest hr hmem hu).2 hdy
        rw [hl] at this
        cases this
    · rw [others n0 hne]
      exact hn0
  · intro ns name o o' ho ho' hu hv hp hl
    exact h.stable (((same ns name).2 o).mp ho) (((same ns name).2 o').mp ho') hu hv hp hl

lemma Allotment.created {name : String} {new : Object .dnsReservation} (h : Allotment p s)
    (commit : s'.store = s.store.commit (dnsReservationKey ns name) new)
    (names : ∀ n, holder s' n = holder s n) (fresh : s.store.fresh new.uid)
    (phase : new.status.phase ≠ "Ready") : Allotment p s' := by
  refine ⟨?_, ?_, ?_⟩
  · intro n n' u h1 h2
    exact h.single (names n ▸ h1) (names n' ▸ h2)
  · intro ns' name' r hr hl hp
    simp only [names]
    rw [commit] at hr
    by_cases hk : dnsReservationKey ns' name' = dnsReservationKey ns name
    · cases hk
      exact absurd ((Store.find_commit_some hr).1 ▸ hp) phase
    · rw [Store.find_commit_ne hk] at hr
      exact h.ready hr hl hp
  · intro ns' name' o o' ho ho' hu hv hp hl
    rw [commit] at ho ho'
    rcases Store.mem_hist_commit.mp ho with ho | ho
    · cases ho
      exact absurd hp phase
    · rcases Store.mem_hist_commit.mp ho' with ho' | ho'
      · cases ho'
        exact absurd hu (Store.fresh_ne fresh ho)
      · exact h.stable ho ho' hu hv hp hl

lemma Allotment.replaced {name : String} {s0 new : Object .dnsReservation} (h : Allotment p s)
    (hs : s.store.Sane) (hT : Allotted t tr s)
    (commit : s'.store = s.store.commit (dnsReservationKey ns name) new)
    (names : ∀ n, holder s' n = holder s n)
    (stored : s.store.find (dnsReservationKey ns name) = some s0) (uid : new.uid = s0.uid)
    (version : new.resourceVersion = s0.resourceVersion + 1) (dying : s0.deleting → new.deleting)
    (step : ReservationStep p t tr s0 new) : Allotment p s' := by
  have hlive : new.deleting = false → s0.deleting = false := by
    intro hl
    by_contra hd
    rw [dying (by simpa using hd)] at hl
    cases hl
  refine ⟨?_, ?_, ?_⟩
  · intro n n' u h1 h2
    exact h.single (names n ▸ h1) (names n' ▸ h2)
  · intro ns' name' r hr hl hp
    simp only [names]
    rw [commit] at hr
    by_cases hk : dnsReservationKey ns' name' = dnsReservationKey ns name
    · cases hk
      obtain rfl := (Store.find_commit_some hr).1
      cases step with
      | keep status =>
        rw [uid, status]
        exact h.ready stored (hlive hl) (status ▸ hp)
      | allocated task subject live same owns phase domain =>
        refine ⟨_, ?_, domain⟩
        rw [uid, same]
        exact (hT _ _ _ task subject live).1 _ owns
      | unallocated _ _ _ _ _ phase => exact absurd hp phase
    · rw [Store.find_commit_ne hk] at hr
      exact h.ready hr hl hp
  · intro ns' name' o o' ho ho' hu hv hp hl
    rw [commit] at ho ho'
    rcases Store.mem_hist_commit.mp ho' with ho' | ho'
    · cases ho'
      rcases Store.mem_hist_commit.mp ho with ho | ho
      · cases ho
        exact ⟨hp, rfl⟩
      · -- the state that is replaced has the domain
        have hu0 : o.uid = s0.uid := hu.trans uid
        obtain ⟨hp0, hd0⟩ := h.stable ho (hs.recorded stored) hu0 (hs.latest stored ho hu0).1 hp
          (hlive hl)
        obtain ⟨n0, hn0, hb0⟩ := h.ready stored (hlive hl) hp0
        cases step with
        | keep status => rw [status]; exact ⟨hp0, hd0⟩
        | allocated task subject live same owns phase domain =>
          have hn := (hT _ _ _ task subject live).1 _ owns
          rw [← same] at hn
          rw [domain, ← hd0, hb0, h.single hn hn0]
          exact ⟨phase, rfl⟩
        | unallocated task subject live same vacant phase =>
          rw [same] at hn0
          exact absurd hn0 ((hT _ _ _ task subject live).2 vacant n0)
    · rcases Store.mem_hist_commit.mp ho with ho | ho
      · -- no earlier state has the new version
        cases ho
        have := (hs.latest stored ho' (hu.symm.trans uid)).1
        omega
      · exact h.stable ho ho' hu hv hp hl

lemma createsIndex_of_gain {r : o.Res} (hx : exec o x s = some (r, s')) (hb : holder s n = none)
    (ha : holder s' n ≠ none) : CreatesIndex ⟨o, r⟩ := by
  have hchange : s'.store.find (dnsIndexKey n) ≠ s.store.find (dnsIndexKey n) :=
    fun he => ha ((ownerAt_congr he).trans hb)
  have hfind : s.store.find (dnsIndexKey n) = none := Option.map_eq_none_iff.mp hb
  rcases store_eq_or_kube hx with he | ⟨o, rfl⟩
  · rw [he] at hchange; exact absurd rfl hchange
  · have hx' := (exec_kube hx).1
    have hdid := Store.did_exec hx'
    generalize s'.store = d' at hdid hx' hchange
    cases hdid with
    | nothing => exact absurd rfl hchange
    | @create k w y hv hfr =>
      by_cases hk : k = dnsIndexKey n
      · subst hk
        refine ⟨n, w, r, rfl, ?_⟩
        rintro rfl
        rw [Store.exec_alreadyExists hx'] at hchange
        exact hchange rfl
      · exact absurd (Store.find_commit_ne (Ne.symm hk)) hchange
    | @update k w t ht | @updateStatus k w t ht | @mark k w t ht | @delete k w t ht =>
      by_cases hk : k = dnsIndexKey n
      · subst hk
        rw [ht] at hfind
        cases hfind
      · exact absurd (Store.find_commit_ne (Ne.symm hk)) hchange

lemma holder_of_listed {sel : Selector} {items : List (Item .index)} {i : Item .index}
    (hx : exec (.kube (.list .index sel)) x s = some (.ok items, s')) (hi : i ∈ items)
    (hk : i.key = dnsIndexKey n) : holder s' n = some (ownerOf i.object) := by
  obtain ⟨rfl, hd⟩ := Store.exec_list (exec_kube hx).1
  obtain ⟨ns, name, o⟩ := i
  simp only [Item.key, Key.mk.injEq, true_and] at hk
  obtain ⟨rfl, rfl⟩ := hk
  have hfind : s.store.find (dnsIndexKey name) = some o := (Store.mem_items.mp hi).1
  rw [holder, ownerAt, hd, hfind]
  rfl

lemma not_holder_of_listsNone {r : o.Res} {u : Uid} (hu : u ≠ "") (hx : exec o x s = some (r, s'))
    (hl : ListsNone u ⟨o, r⟩) (n : String) : holder s' n ≠ some u := by
  obtain ⟨items, he, hnone⟩ := hl
  cases he
  obtain ⟨rfl, hd⟩ := Store.exec_list (exec_kube hx).1
  intro hh
  obtain ⟨i, hi, ho⟩ := ownerAt_eq_some.mp hh
  rw [hd] at hi
  have hsel : i.labels.lookup ownerUIDLabel = some u := by
    unfold ownerOf StringMap.value at ho
    cases hlook : i.labels.lookup ownerUIDLabel with
    | none => rw [hlook] at ho; exact absurd ho.symm hu
    | some v => rw [hlook] at ho; exact congrArg some ho
  refine hnone ⟨_, n, i⟩ (Store.mem_items.mpr ⟨hi, ?_⟩) rfl ho
  simp [Selector.selects, hsel]

lemma Allotted.own {r : o.Res} (h : Allotted t tr s) (hI : Allotment p s) (hs : s.store.Sane)
    (hi : Informed tr s) (hf : (resources p t).Follows tr o) (hx : exec o x s = some (r, s')) :
    Allotted t (⟨o, r⟩ :: tr) s' := by
  intro ns name res task subject live
  by_cases htr : tr = []
  · -- the reconcile has only read its subject
    subst htr
    have he : (⟨o, r⟩ : Event) = ⟨.kube (.get (dnsReservationKey ns name)), .ok res⟩ :=
      Option.some.inj subject
    rw [he]
    refine ⟨?_, ?_⟩
    · rintro n ⟨sel, items, i, hm, -⟩
      cases List.mem_singleton.mp hm
    · rintro (⟨items, hl, -⟩ | ⟨-, hf⟩)
      · cases hl
      · cases hf
  · have hsub := subject.tail htr
    obtain ⟨ho, hv⟩ := h ns name res task hsub live
    have hu : res.uid ≠ "" := (hs.named (hi _ _ (known_get hsub.mem))).1
    have hstep := (domain_step hs hi hf hx).nameStep
    refine ⟨?_, ?_⟩
    · rintro n ⟨sel, items, i, hm, hii, hk, how⟩
      rcases List.mem_cons.mp hm with he | hm
      · cases he
        rw [holder_of_listed hx hii hk, how]
      · have hn := ho n ⟨sel, items, i, hm, hii, hk, how⟩
        have step := hstep n
        generalize hb : holder s n = b at step hn
        generalize holder s' n = a at step
        cases step with
        | allocate => cases hn
        | keep => exact hn
        | drop task' subject' why =>
          cases task.symm.trans task'
          cases subject'.unique hsub
          rw [hI.dying_of_drop h task hsub hb why] at live
          cases live
    · rintro (hl | ⟨hnc, hvac⟩) n
      · exact not_holder_of_listsNone hu hx hl n
      · have hn := hv hvac n
        have step := hstep n
        generalize hb : holder s n = b at step hn
        generalize ha : holder s' n = a at step
        cases step with
        | allocate => exact absurd (createsIndex_of_gain hx hb (by rw [ha]; simp)) hnc
        | keep => exact hn
        | drop => exact nofun

lemma Allotted.other {l l' : Caller} {tr' : List Event} {r : o.Res}
    (he : l.excl .dnsReservation l' = false)
    (h : Allotted l.task tr s) (hs : s.store.Sane) (hi : Informed tr s) (hi' : Informed tr' s)
    (hf : (resources p l'.task).Follows tr' o) (hx : exec o x s = some (r, s')) :
    Allotted l.task tr s' := by
  intro ns name res task subject live
  obtain ⟨ho, hv⟩ := h ns name res task subject live
  -- the other reconcile works on another reservation
  have hiff : ∀ n, holder s' n = some res.uid ↔ holder s n = some res.uid := by
    intro n
    have step := (domain_step hs hi' hf hx).nameStep n
    generalize holder s n = b at step
    generalize holder s' n = a at step
    cases step with
    | keep => rfl
    | allocate task' subject' | drop task' subject' =>
      have hne := subjects_ne he hs hi hi' task task' subject subject'
      simp [Ne.symm hne]
  exact ⟨fun n hn => (hiff n).mpr (ho n hn), fun hvac n hn => hv hvac n ((hiff n).mp hn)⟩

lemma Allotment.step {r : o.Res} (h : Allotment p s) (hs : s.store.Sane) (hi : Informed tr s)
    (hT : Allotted t tr s) (hf : (resources p t).Follows tr o) (hx : exec o x s = some (r, s')) :
    Allotment p s' := by
  cases domain_step hs hi hf hx with
  | name n step others same => exact h.name hs hi hT step others same
  | created commit names fresh phase => exact h.created commit names fresh phase
  | replaced commit names stored uid version dying step =>
    exact h.replaced hs hT commit names stored uid version dying step

end

theorem allotment_of_run {p : Params} {c : FleetConf} (h : (serial .dnsReservation p).Run idle c) :
    c.store.store.Sane ∧ Allotment p.operator c.store := by
  obtain ⟨es, hes⟩ := h.hist
  refine (System.Outline.holds
    (fleet_outline (T := Allotted) (Caller.excl_symm _) follows_resources ?_ ?_ ?_)
    ⟨Store.sane_empty, allotment_empty⟩ (fun _ => trivial) hes).1
  · intro t s _ ns name res _ hsub
    cases hsub
  · intro l tr o x s s' r hs hi hI hT hA _ hx
    exact ⟨hI.step hs hi hT hA hx, hT.own hI hs hi hA hx⟩
  · intro l l' tr tr' o x s s' r he hs hi hi' _ hT _ hA _ hx
    exact hT.other he hs hi hi' hA hx

lemma baseDomainOf_injective (p : Operator.Params) : Function.Injective (baseDomainOf p) := by
  intro n n' h
  simpa [baseDomainOf] using h

/-- **Base domains are unique and stable.** Two live reservations that are Ready have different base
domains, and the base domain of a reservation that was Ready is the same in all its later states
while it is live. -/
theorem base_domains_unique_and_stable {p : Params}
    {c : FleetConf} (h : (serial .dnsReservation p).Run idle c) :
    (∀ (ns name ns' name' : String) (r r' : Object .dnsReservation),
      c.store.store.find (dnsReservationKey ns name) = some r →
      c.store.store.find (dnsReservationKey ns' name') = some r' →
      r.deleting = false → r'.deleting = false → r.status.phase = "Ready" →
      r'.status.phase = "Ready" → r.status.baseDomain = r'.status.baseDomain →
        ns = ns' ∧ name = name') ∧
    (∀ (ns name : String) (o o' : Object .dnsReservation),
      ⟨dnsReservationKey ns name, o⟩ ∈ c.store.store.hist →
      ⟨dnsReservationKey ns name, o'⟩ ∈ c.store.store.hist → o.uid = o'.uid →
      o.resourceVersion ≤ o'.resourceVersion → o.status.phase = "Ready" → o'.deleting = false →
        o'.status.baseDomain = o.status.baseDomain) := by
  obtain ⟨hs, hI⟩ := allotment_of_run h
  refine ⟨?_, ?_⟩
  · intro ns name ns' name' r r' hr hr' hl hl' hp hp' hb
    obtain ⟨n, hn, hd⟩ := hI.ready hr hl hp
    obtain ⟨n', hn', hd'⟩ := hI.ready hr' hl' hp'
    -- one name has one owner, and one UID is at one key
    obtain rfl := baseDomainOf_injective p.operator (hd.symm.trans (hb.trans hd'))
    have hu : r.uid = r'.uid := Option.some.inj (hn.symm.trans hn')
    have hk := hs.home (hs.recorded hr) (hs.recorded hr') hu
    cases hk
    exact ⟨rfl, rfl⟩
  · intro ns name o o' ho ho' hu hv hp hl
    exact (hI.stable ho ho' hu hv hp hl).2

/-- Two reservations; the second is offered the prefix of the first before it gets its own. -/
def reserveTwo : List (System.Event Choice Caller) :=
  performs 0 (.createDNSReservation "1" "a" []) [{}, { uid := "ra" }] ++
  performs 1 (.createDNSReservation "1" "b" []) [{}, { uid := "rb" }] ++
  performs 2 (.reconcile .dnsReservation "account-1" "a") [{}, {}] ++
  performs 3 (.reconcile .dnsReservation "account-1" "b") [{}, {}] ++
  performs 4 (.reconcile .dnsReservation "account-1" "a")
    [{}, {}, { text := "x" }, { uid := "i" }, {}, {}, {}, {}] ++
  performs 5 (.reconcile .dnsReservation "account-1" "b")
    [{}, {}, { text := "x" }, {}, {}, { text := "y" }, { uid := "j" }, {}, {}, {}, {}]

/-- Two reservations that are Ready, and their base domains differ. -/
theorem base_domains_of_two : ∃ (c : FleetConf)
    (r r' : Object .dnsReservation), (serial .dnsReservation sample).Run idle c ∧
      c.store.store.find (dnsReservationKey "account-1" "a") = some r ∧
      c.store.store.find (dnsReservationKey "account-1" "b") = some r' ∧
      r.status.phase = "Ready" ∧ r'.status.phase = "Ready" ∧
      r.status.baseDomain = "x.0.example.com" ∧ r'.status.baseDomain ≠ r.status.baseDomain := by
  have hrun : ((serial .dnsReservation sample).runSchedule reserveTwo idle).bind (fun c =>
      (c.store.store.find (dnsReservationKey "account-1" "a")).bind fun r =>
        (c.store.store.find (dnsReservationKey "account-1" "b")).map fun r' =>
          ((r.status.phase, r.status.baseDomain, r.deleting), r'.status.phase, r'.deleting)) =
      some (("Ready", "x.0.example.com", false), "Ready", false) := by
    decide +kernel
  obtain ⟨c, hc, hobs⟩ := Option.bind_eq_some_iff.mp hrun
  obtain ⟨r, hr, hobs⟩ := Option.bind_eq_some_iff.mp hobs
  obtain ⟨r', hr', hobs⟩ := Option.map_eq_some_iff.mp hobs
  simp only [Prod.mk.injEq] at hobs
  obtain ⟨⟨hp, hb, hl⟩, hp', hl'⟩ := hobs
  have hreach := System.run_of_schedule hc
  refine ⟨c, r, r', hreach, hr, hr', hp, hp', hb, fun he => ?_⟩
  have hsame := (base_domains_unique_and_stable hreach).1 _ _ _ _ r r' hr hr' hl hl' hp hp' he.symm
  exact absurd hsame.2 (by decide)

end Seaplane.Fleet
