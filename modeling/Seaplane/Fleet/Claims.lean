import Seaplane.Fleet.LifecycleClusters
import Seaplane.Fleet.ResourceReconciles

/-!
Claims of OidcConfigs and DNSReservations.

A claim is a label with the UID of a Cluster. Every write of the object replaces a state that was
read, so a claim is written over an empty label and given up by the cleanup of its own Cluster. What
this means for two creates is read off the states an object has had: a claim lasts in all later ones
until its Cluster is being deleted.
-/

namespace Seaplane.Fleet

open Lib Kube Operator

/-! ### What a step does to claims -/

variable {k : Key} {o : Op} {x : Choice} {s s' : State} {r : o.Res} {u : Uid}

section

variable {p : Operator.Params} {t : Task} {tr : List Event}

/-- A new state of a claimable object, after the state it replaces. -/
inductive ClaimStep (t : Task) (tr : List Event) (k : Key) (s new : Object k.kind) : Prop
  | keep (same : claimOf new = claimOf s)
  | claim {account name : String} {annotations : StringMap} {spec : ClusterSpec}
      {cr c : Object .cluster}
      (task : t = .createCluster account name annotations spec) (made : Made tr account name cr c)
      (place : k.ns = accountNamespace account) (listed : LookedUp tr k s)
      (named : k.kind = .oidcConfig ∧ s.uid = cr.spec.oidcConfigID ∨
        k.kind = .dnsReservation ∧ s.uid = cr.spec.dnsReservationID ∧ s.deleting = false)
      (free : claimOf s = "") (claimed : claimOf new = c.uid)
  | release {ns name : String} {c : Object .cluster} (task : t = .reconcile .cluster ns name)
      (subject : Subject ⟨.cluster, ns, name⟩ tr c) (dying : c.deleting = true)
      (claimed : claimOf s = c.uid) (free : claimOf new = "")

/-- What a step does to claimable objects: it may write one of them. -/
inductive Claiming (t : Task) (tr : List Event) (s s' : State) : Prop
  | none (same : ∀ k : Key, claimable k.kind → s'.store.find k = s.store.find k ∧
      ∀ o, (⟨k, o⟩ ∈ s'.store.hist ↔ ⟨k, o⟩ ∈ s.store.hist))
  | created {k : Key} {new : Object k.kind} (kind : claimable k.kind = true)
      (commit : s'.store = s.store.commit k new) (vacant : s.store.find k = .none)
      (fresh : s.store.fresh new.uid) (claim : claimOf new = "" ∨ ∃ ns name,
        ∃ c : Object .cluster, t = .reconcile .cluster ns name ∧
          Subject ⟨.cluster, ns, name⟩ tr c ∧ c.deleting = false ∧
          clusterFinalizer ∈ c.finalizers ∧ claimOf new = c.uid ∧
          k = ⟨.dnsReservation, accountNamespace (accountOf c), automaticDNSReservationName c.uid⟩)
  | replaced {k : Key} {s0 new : Object k.kind} (kind : claimable k.kind = true)
      (commit : s'.store = s.store.commit k new) (stored : s.store.find k = some s0)
      (uid : new.uid = s0.uid) (version : new.resourceVersion = s0.resourceVersion + 1)
      (dying : s0.deleting → new.deleting) (step : ClaimStep t tr k s0 new)

lemma CreatesResource.claim_inv {o : Object k.kind} (h : CreatesResource p t tr k o)
    (hk : claimable k.kind = true) : claimOf o = "" ∨ ∃ ns name, ∃ c : Object .cluster,
      t = .reconcile .cluster ns name ∧ Subject ⟨.cluster, ns, name⟩ tr c ∧ c.deleting = false ∧
      clusterFinalizer ∈ c.finalizers ∧ claimOf o = c.uid ∧
      k = ⟨.dnsReservation, accountNamespace (accountOf c), automaticDNSReservationName c.uid⟩ := by
  cases h with
  | config _ _ _ unclaimed | reservation _ unclaimed => exact .inl unclaimed
  | automatic task subject live guarded claimed =>
    exact .inr ⟨_, _, _, task, subject, live, guarded, claimed, rfl⟩
  | issuer | index => cases hk

lemma claimStep_write {d : Store} {op : Op} {s0 new : Object k.kind}
    (h : (resources p t).Write tr d op k new) (hs0 : d.find k = some s0) :
    ClaimStep t tr k s0 new := by
  cases h with
  | create _ vacant => cases vacant.symm.trans hs0
  | @update _ s o stored _ h =>
    cases stored.symm.trans hs0
    cases h with
    | annotate | addFinalizer | dropConfig | dropReservation => exact .keep rfl
    | claim task made place listed named free =>
      exact .claim task made place listed named free (StringMap.value_set _ _ _)
    | release task subject dying claimed =>
      exact .release task subject dying claimed (StringMap.value_without _ _)
  | status _ stored | delete stored =>
    cases stored.symm.trans hs0
    exact .keep rfl

theorem claiming_step (hs : s.store.Sane) (hi : Informed tr s) (hf : (resources p t).Follows tr o)
    (hx : exec o x s = some (r, s')) : Claiming t tr s s' := by
  rcases Protocol.step hs hi hf hx with hsame | ⟨k, new, -, hw, hst⟩
  · refine .none fun k hk => hsame k ?_
    show isResource k = true
    simp [isResource, hk]
  · cases hk : claimable k.kind with
    | false =>
      refine .none fun k' hk' => ?_
      have hne : k' ≠ k := by
        rintro rfl
        rw [hk] at hk'
        cases hk'
      rw [hst]
      refine ⟨Store.find_commit_ne hne, fun o' => ?_⟩
      rw [Store.mem_hist_commit]
      exact ⟨fun h => h.resolve_left fun he => hne (congrArg Sigma.fst he), .inr⟩
    | true =>
      rcases hw.change with ⟨vacant, fresh, -, -⟩ | ⟨s0, stored, uid, version, dying⟩
      · refine .created hk hst vacant fresh ?_
        cases hw with
        | create _ _ _ h => exact h.claim_inv hk
        | update stored | status _ stored | delete stored => cases vacant.symm.trans stored
      · exact .replaced hk hst stored uid version dying (claimStep_write hw stored)

lemma Claiming.along {R : (k : Key) → Object k.kind → Object k.kind → Prop}
    (h : Claiming t tr s s') (hs : s.store.Sane)
    (hR : s.store.Along fun k o o' => claimable k.kind → R k o o') (hrefl : ∀ k o, R k o o)
    (hstep : ∀ {k : Key} {s0 new o : Object k.kind}, s.store.find k = some s0 →
      ⟨k, o⟩ ∈ s.store.hist → o.uid = s0.uid → R k o s0 → ClaimStep t tr k s0 new → R k o new) :
    s'.store.Along fun k o o' => claimable k.kind → R k o o' := by
  cases h with
  | none same =>
    intro k o o' ho ho' hu hv hk
    exact hR (((same k hk).2 o).mp ho) (((same k hk).2 o').mp ho') hu hv hk
  | created kind commit vacant fresh claim =>
    rw [commit]
    exact hR.created fresh fun _ => hrefl _ _
  | replaced kind commit stored uid version dying step =>
    rw [commit]
    refine hR.replaced hs stored uid version (fun _ => hrefl _ _) fun o ho hu h _ => ?_
    exact hstep stored ho hu (h kind) step

end

/-! ### A claim lasts -/

/-- The Cluster with the UID is being deleted, or gone. -/
def Dead (d : Store) (u : Uid) : Prop :=
  ∃ ns name, ∃ c : Object .cluster, ⟨⟨.cluster, ns, name⟩, c⟩ ∈ d.hist ∧ c.uid = u ∧
    c.deleting = true

/-- A claim lasts in all later states of the object, unless its Cluster is being deleted. -/
def Lasting (d : Store) : Prop :=
  d.Along fun k o o' => claimable k.kind → claimOf o ≠ "" →
    claimOf o' = claimOf o ∨ Dead d (claimOf o)

variable {t : Task} {tr : List Event} {i : ℕ} {account name : String}

lemma Lasting.step {p : Operator.Params} (h : Lasting s.store)
    (hs : s.store.Sane) (hi : Informed tr s) (hf : (resources p t).Follows tr o)
    (hx : exec o x s = some (r, s')) : Lasting s'.store := by
  have hdead : ∀ {u}, Dead s.store u → Dead s'.store u := by
    rintro u ⟨ns, name, c, hc, hrest⟩
    exact ⟨ns, name, c, hist_exec hx hc, hrest⟩
  have hR : s.store.Along fun k o o' => claimable k.kind → claimOf o ≠ "" →
      claimOf o' = claimOf o ∨ Dead s'.store (claimOf o) :=
    h.imp fun k o o' h hk hne => (h hk hne).imp id hdead
  refine (claiming_step hs hi hf hx).along hs hR (fun k o _ => .inl rfl) ?_
  intro k s0 new o stored ho hu hR step hne
  rcases hR hne with hsame | hdead
  · cases step with
    | keep same => exact .inl (same.trans hsame)
    | claim _ _ _ _ _ free => exact absurd (hsame.symm.trans free) hne
    | release task subject dying claimed free =>
      refine .inr ⟨_, _, _, hist_exec hx (hi _ _ (known_get subject.mem)), ?_, dying⟩
      exact claimed.symm.trans hsame
  · exact .inr hdead

theorem claims_outline {p : Params} {ok : Caller → Op → Choice → State → Prop} :
    (fleet p).Outline ok (fun l => (resources p.operator l.task).Follows) (fun _ _ _ => True)
      (fun s => s.store.Sane ∧ Lasting s.store) (fun _ tr s => Informed tr s ∧ True)
      (fun _ (_ : PEmpty) => False) (fun _ _ => True) := by
  refine fleet_outline (T := fun _ _ _ => True) (fun _ _ => rfl) follows_resources
    (fun _ => trivial) ?_ ?_
  · intro l tr o x s s' r hs hi hI _ hA _ hx
    exact ⟨hI.step hs hi hA hx, trivial⟩
  · intros
    trivial

/-! ### Creates that report success -/

section

variable {p : Params} {ok : Caller → Op → Choice → State → Prop} {es : List (ℕ × Event)}
  {c : FleetConf} (h : (fleet p).HistIf ok idle es c)
include h

lemma returned {A : Task → List Event → Op → Prop} {Q : Task → List Event → Reply → Prop}
    (hg : ∀ t : Task, (t.code p).Guards Any (A t) (Q t) []) {l : Caller} {a : Reply}
    (hi : c.pool[i]? = some ⟨l, .ret (some a)⟩) : Q l.task (System.own i es) a :=
  h.guards (fun _ _ _ _ _ _ => trivial) (guards_caller hg) hi a rfl

lemma made_unique {t : Thread Op Op.Res Caller (Option Reply)} {cr cr' cl cl' : Object .cluster}
    (hi : c.pool[i]? = some t) (hm : Made (System.own i es) account name cr cl)
    (hm' : Made (System.own i es) account name cr' cl') : cr = cr' ∧ cl = cl' := by
  -- of two creations, one was seen by the time of the other
  have hfirst : ∀ {e : Event} {tr : List Event}, e :: tr <:+ System.own i es → MakesCluster e →
      NoCluster tr := by
    rintro ⟨o, r⟩ tr he ⟨k, w, ho, hk⟩
    have hA := h.logged (fun _ _ _ _ _ _ => trivial) (guards_caller (tends_task p)) hi he
    cases ho
    have hcreate : CreatesManaged t.label.task tr k w := by
      refine hA.objects ?_
      show managed k.kind = true
      rw [hk]; rfl
    cases hcreate with
    | cluster _ first _ => exact first
    | nodePool | placement => cases hk
  have hmakes : ∀ {cr cl : Object .cluster}, MakesCluster
      ⟨.kube (.create (Api.clusterKey account name) cr), .ok cl⟩ := ⟨_, _, rfl, rfl⟩
  obtain ⟨es1, tr1, h1⟩ := List.append_of_mem hm
  obtain ⟨es2, tr2, h2⟩ := List.append_of_mem hm'
  have hs1 : _ :: tr1 <:+ System.own i es := ⟨es1, h1.symm⟩
  have hs2 : _ :: tr2 <:+ System.own i es := ⟨es2, h2.symm⟩
  rcases List.suffix_or_suffix_of_suffix hs1 hs2 with hs | hs
  · rcases List.suffix_cons_iff.mp hs with he | hs
    · cases he
      exact ⟨rfl, rfl⟩
    · exact absurd hmakes (hfirst hs2 hmakes _ (hs.subset List.mem_cons_self))
  · rcases List.suffix_cons_iff.mp hs with he | hs
    · cases he
      exact ⟨rfl, rfl⟩
    · exact absurd hmakes (hfirst hs1 hmakes _ (hs.subset List.mem_cons_self))

lemma claimed_hist {kind : Kind} {uid : Uid}
    (hc : Claimed (System.own i es) kind uid u) : ∃ (k : Key) (o : Object k.kind),
      k.kind = kind ∧ ⟨k, o⟩ ∈ c.store.store.hist ∧ o.uid = uid ∧ claimOf o = u := by
  obtain ⟨-, hinf⟩ := informed_all rfl h
  obtain ⟨k, s, hk, hu, hcl, hs | ⟨w, hw⟩⟩ := hc
  · exact ⟨k, s, hk, hinf i k s hs, hu, hcl⟩
  · have hans := h.answered (E := fun e => ∀ (k : Key) (o w : Object k.kind),
      e = ⟨.kube (.update k o), .ok w⟩ → w.uid = o.uid ∧ w.labels = o.labels) ?_ _
      (System.mem_of_mem_own hw) k s w rfl
    · refine ⟨k, w, hk, hinf i k w ⟨_, _, hw, rfl⟩, hans.1.trans hu, ?_⟩
      rw [claimOf, hans.2]
      exact hcl
    · rintro o x s r s' hx k o' w he
      cases he
      exact Store.exec_update (exec_kube hx).1

end

/-- The `i`-th program is a create that has reported success, for the Cluster. -/
def CreateSucceeded (es : List (ℕ × Event)) (c : FleetConf) (i : ℕ)
    (account name : String) (spec : ClusterSpec) (cl : Object .cluster) : Prop :=
  ∃ l annotations cr, c.pool[i]? = some ⟨l, .ret (some (.response (.status 201)))⟩ ∧
    l.task = .createCluster account name annotations spec ∧
    Made (System.own i es) account name cr cl

/-- The Cluster is stored and not being deleted. -/
def Live (s : State) (account name : String) (cl : Object .cluster) : Prop :=
  ∃ r, s.store.find (Api.clusterKey account name) = some r ∧ r.uid = cl.uid ∧ r.deleting = false

/-- The UID a Cluster refers to, by the kind of the object. -/
def referenceOf (spec : ClusterSpec) : Kind → Uid
  | .oidcConfig => spec.oidcConfigID
  | .dnsReservation => spec.dnsReservationID
  | _ => ""

section

variable {p : Params} {ok : Caller → Op → Choice → State → Prop} {es : List (ℕ × Event)}
  {c : FleetConf} {i : ℕ} {account name : String}
  {spec : ClusterSpec} {cl : Object .cluster} {kind : Kind}

lemma CreateSucceeded.claimed (h : (fleet p).HistIf ok idle es c)
    (hc : CreateSucceeded es c i account name spec cl) (hk : claimable kind = true)
    (hne : referenceOf spec kind ≠ "") :
    Claimed (System.own i es) kind (referenceOf spec kind) cl.uid := by
  obtain ⟨l, annotations, cr, hi, ht, hm⟩ := hc
  have hret : Returns l.task (System.own i es) (.response (.status 201)) :=
    returned h guards_resources hi
  rw [ht] at hret
  obtain ⟨cr', cl', hm', -, -, ho, hd⟩ := hret rfl
  obtain ⟨-, rfl⟩ := made_unique h hi hm hm'
  cases kind with
  | oidcConfig => exact ho hne
  | dnsReservation => exact hd hne
  | _ => cases hk

lemma Live.not_dead (hs : c.store.store.Sane) (hl : Live c.store account name cl) :
    ¬Dead c.store.store cl.uid := by
  rintro ⟨ns, n, d, hd, hu, hdel⟩
  obtain ⟨r, hr, hru, hlive⟩ := hl
  have hur : d.uid = r.uid := hu.trans hru.symm
  have hk := hs.home hd (hs.recorded hr) hur
  cases hk
  have := (hs.latest hr hd hur).2 hdel
  rw [hlive] at this
  cases this

/-- A create that has reported success for a live Cluster holds its claims from some state of the
object on. -/
lemma CreateSucceeded.holds (h : (fleet p).HistIf ok idle es c)
    (hc : CreateSucceeded es c i account name spec cl) (hl : Live c.store account name cl)
    (hk : claimable kind = true) (hne : referenceOf spec kind ≠ "") :
    ∃ (k : Key) (o : Object k.kind), k.kind = kind ∧ ⟨k, o⟩ ∈ c.store.store.hist ∧
      o.uid = referenceOf spec kind ∧ ∀ o', ⟨k, o'⟩ ∈ c.store.store.hist → o'.uid = o.uid →
        o.resourceVersion ≤ o'.resourceVersion → claimOf o' = cl.uid := by
  have h0 : State.empty.store.Sane ∧ Lasting State.empty.store :=
    ⟨Store.sane_empty, Store.Along.empty⟩
  obtain ⟨hs, hlast⟩ := (claims_outline.holds h0 (fun _ => trivial) h).1
  obtain ⟨k, o, hkind, ho, hu, hclaim⟩ := claimed_hist h (hc.claimed h hk hne)
  refine ⟨k, o, hkind, ho, hu, fun o' ho' hu' hv => ?_⟩
  have hcl : cl.uid ≠ "" := by
    obtain ⟨r, hr, hru, -⟩ := hl
    rw [← hru]
    exact (hs.named (hs.recorded hr)).1
  rcases hlast ho ho' hu'.symm hv (by rw [hkind]; exact hk) (by rw [hclaim]; exact hcl) with h | h
  · exact h.trans hclaim
  · rw [hclaim] at h
    exact absurd h (hl.not_dead hs)

end

/-- **Claims are exclusive.** A step leaves the claim of an object as it is, or claims what nobody
has for the Cluster its create has stored, or gives up the claim of the Cluster whose deletion it
reconciles. What a live Cluster refers to is claimed by it once its create has reported success, and
two such Clusters refer to different objects. -/
theorem claims_exclusive {p : Params} {es : List (ℕ × Event)}
    {c : FleetConf} (h : (fleet p).Hist idle es c) :
    (∀ (i : ℕ) t c' (k : Key) (s s' : Object k.kind), claimable k.kind = true →
      c.pool[i]? = some t → (fleet p).Act i c c' → c.store.store.find k = some s →
      c'.store.store.find k = some s' → s'.uid = s.uid →
        claimOf s' = claimOf s ∨
        (claimOf s = "" ∧ ∃ account name annotations spec, ∃ cr cl : Object .cluster,
          t.label.task = .createCluster account name annotations spec ∧
          Made (System.own i es) account name cr cl ∧ claimOf s' = cl.uid) ∨
        (claimOf s' = "" ∧ ∃ ns name, ∃ cl : Object .cluster,
          t.label.task = .reconcile .cluster ns name ∧
          Subject ⟨.cluster, ns, name⟩ (System.own i es) cl ∧ cl.deleting = true ∧
          claimOf s = cl.uid)) ∧
    (∀ (i : ℕ) account name spec (cl : Object .cluster) (k : Key) (o : Object k.kind),
      CreateSucceeded es c i account name spec cl → Live c.store account name cl →
      claimable k.kind = true → c.store.store.find k = some o → o.uid = referenceOf spec k.kind →
        claimOf o = cl.uid) ∧
    (∀ (i j : ℕ) account name account' name' spec spec' (cl cl' : Object .cluster) (kind : Kind),
      CreateSucceeded es c i account name spec cl → Live c.store account name cl →
      CreateSucceeded es c j account' name' spec' cl' → Live c.store account' name' cl' →
      cl.uid ≠ cl'.uid → claimable kind = true → referenceOf spec kind ≠ "" →
        referenceOf spec kind ≠ referenceOf spec' kind) := by
  have h0 : State.empty.store.Sane ∧ Lasting State.empty.store :=
    ⟨Store.sane_empty, Store.Along.empty⟩
  obtain ⟨hs, -⟩ := (claims_outline.holds h0 (fun _ => trivial) h).1
  refine ⟨?_, ?_, ?_⟩
  · intro i t c' k s s' hk ht hact hfind hfind' hu
    obtain ⟨o, x, r, -, ⟨hi, -⟩, hA, hx⟩ := claims_outline.act h0 (fun _ => trivial) h ht hact
    cases claiming_step hs hi hA hx with
    | none same =>
      rw [(same k hk).1, hfind] at hfind'
      cases hfind'
      exact .inl rfl
    | @created k' new kind commit vacant fresh claim =>
      have hne : k ≠ k' := by
        rintro rfl
        cases vacant.symm.trans hfind
      rw [commit, Store.find_commit_ne hne, hfind] at hfind'
      cases hfind'
      exact .inl rfl
    | @replaced k' s0 new kind commit stored uid version dying step =>
      by_cases hkk : k = k'
      · subst hkk
        cases stored.symm.trans hfind
        rw [commit] at hfind'
        obtain rfl := (Store.find_commit_some hfind').1
        cases step with
        | keep same => exact .inl same
        | claim task made _ _ _ free claimed =>
          exact .inr (.inl ⟨free, _, _, _, _, _, _, task, made, claimed⟩)
        | release task subject dying claimed free =>
          exact .inr (.inr ⟨free, _, _, _, task, subject, dying, claimed⟩)
      · rw [commit, Store.find_commit_ne hkk, hfind] at hfind'
        cases hfind'
        exact .inl rfl
  · intro i account name spec cl k o hc hl hk ho hu
    have hne : referenceOf spec k.kind ≠ "" := hu ▸ (hs.named (hs.recorded ho)).1
    obtain ⟨k', o', -, ho', hu', hlater⟩ := hc.holds h hl hk hne
    have hoo : o'.uid = o.uid := hu'.trans hu.symm
    have hkk := hs.home ho' (hs.recorded ho) hoo
    subst hkk
    exact hlater o (hs.recorded ho) hoo.symm (hs.latest ho ho' hoo).1
  · intro i j account name account' name' spec spec' cl cl' kind hc hl hc' hl' hne hk hr he
    obtain ⟨k, o, -, ho, hu, hlater⟩ := hc.holds h hl hk hr
    obtain ⟨k', o', -, ho', hu', hlater'⟩ := hc'.holds h hl' hk (he ▸ hr)
    have hoo : o.uid = o'.uid := by rw [hu, hu', he]
    have hkk := hs.home ho ho' hoo
    subst hkk
    -- the later of the two states has both claims
    rcases Nat.le_total o.resourceVersion o'.resourceVersion with hv | hv
    · exact hne ((hlater o' ho' hoo.symm hv).symm.trans (hlater' o' ho' rfl le_rfl))
    · exact hne ((hlater o ho rfl le_rfl).symm.trans (hlater' o ho hoo hv))

/-- The Cluster that an event has stored: by whom, where, and with which UID. -/
def madeCluster : ℕ × Event → Option (ℕ × String × String × Uid)
  | (i, ⟨.kube (.create ⟨.cluster, ns, name⟩ _), .ok cl⟩) => some (i, ns, name, cl.uid)
  | _ => none

lemma made_of_madeCluster {es : List (ℕ × Event)}
    (h : (i, accountNamespace account, name, u) ∈ es.filterMap madeCluster) :
    ∃ cr cl, Made (System.own i es) account name cr cl ∧ cl.uid = u := by
  obtain ⟨⟨j, o, r⟩, he, hm⟩ := List.mem_filterMap.mp h
  unfold madeCluster at hm
  split at hm
  · next heq =>
    cases heq
    cases hm
    exact ⟨_, _, System.mem_own he, rfl⟩
  · cases hm

lemma createSucceeded_of {es : List (ℕ × Event)} {c : FleetConf} {annotations : StringMap}
    {spec : ClusterSpec} (hr : replyOf c i = some (.response (.status 201)))
    (ht : taskOf c i = some (.createCluster account name annotations spec))
    (hm : (i, accountNamespace account, name, u) ∈ es.filterMap madeCluster) :
    ∃ cl, CreateSucceeded es c i account name spec cl ∧ cl.uid = u := by
  obtain ⟨l, hi, htask⟩ := returned_of_replyOf hr ht
  obtain ⟨cr, cl, hmade, hu⟩ := made_of_madeCluster hm
  exact ⟨cl, ⟨l, annotations, cr, hi, htask, hmade⟩, hu⟩

lemma live_of {cl : Object .cluster}
    (h : (s.store.find (Api.clusterKey account name)).any
      (fun r => r.uid == u && !r.deleting) = true)
    (hu : cl.uid = u) : Live s account name cl := by
  obtain ⟨r, hr, hobs⟩ := (Option.any_eq_true _ _).mp h
  simp only [Bool.and_eq_true, beq_iff_eq, Bool.not_eq_true'] at hobs
  exact ⟨r, hr, hobs.1.trans hu.symm, hobs.2⟩

/-- The operations of a create that claims a config. -/
def claimingCreate (uid : Uid) : List Choice :=
  [{}, {}, {}, { uid := uid }, {}, {}, { now := second }, {}, {}, {}]

/-- Two configs, a Cluster for each of them, and a third Cluster that refers to a claimed config. -/
def rivalClusters : List (System.Event Choice Caller) :=
  performs 0 (.createOidcConfig "1" "a" [] ⟨"managed", "", "", ""⟩ "a") [{}, {}, { uid := "ca" }] ++
  performs 1 (.createOidcConfig "1" "b" [] ⟨"managed", "", "", ""⟩ "b") [{}, {}, { uid := "cb" }] ++
  performs 2 (.createCluster "1" "x" [] { oidcConfigID := "ca" }) (claimingCreate "cx") ++
  performs 3 (.createCluster "1" "y" [] { oidcConfigID := "cb" }) (claimingCreate "cy") ++
  performs 4 (.createCluster "1" "z" [] { oidcConfigID := "ca" }) [{}, {}]

/-- The config a live Cluster refers to is claimed by it, and another create is told so. -/
theorem claims_exclusive_of_two : ∃ (es : List (ℕ × Event))
    (c : FleetConf) (cl cl' : Object .cluster)
    (o : Object .oidcConfig), (fleet sample).Hist idle es c ∧
      CreateSucceeded es c 2 "1" "x" { oidcConfigID := "ca" } cl ∧ Live c.store "1" "x" cl ∧
      CreateSucceeded es c 3 "1" "y" { oidcConfigID := "cb" } cl' ∧ Live c.store "1" "y" cl' ∧
      replyOf c 4 = some (.response (.error .clusterCreateOidcConfigInUse)) ∧
      c.store.store.find (oidcConfigKey "account-1" "a") = some o ∧ claimOf o = cl.uid := by
  have hrun : ((fleet sample).recordIf (fun _ _ _ _ => true) rivalClusters ([], idle)).any
      (fun h => decide ((replyOf h.2 2 = some (.response (.status 201)) ∧
        replyOf h.2 3 = some (.response (.status 201)) ∧
        replyOf h.2 4 = some (.response (.error .clusterCreateOidcConfigInUse))) ∧
        (taskOf h.2 2 = some (.createCluster "1" "x" [] { oidcConfigID := "ca" }) ∧
          taskOf h.2 3 = some (.createCluster "1" "y" [] { oidcConfigID := "cb" })) ∧
        h.1.filterMap madeCluster = [(3, "account-1", "y", "cy"), (2, "account-1", "x", "cx")] ∧
        (h.2.store.store.find (Api.clusterKey "1" "x")).any
          (fun r => r.uid == "cx" && !r.deleting) ∧
        (h.2.store.store.find (Api.clusterKey "1" "y")).any
          (fun r => r.uid == "cy" && !r.deleting) ∧
        (h.2.store.store.find (oidcConfigKey "account-1" "a")).any (·.uid == "ca"))) = true := by
    decide +kernel
  obtain ⟨es, c, h, hobs⟩ := System.HistIf.observed (fun _ _ _ _ _ => trivial) hrun
  obtain ⟨⟨hr, hr', hin⟩, ⟨ht, ht'⟩, hm, hx, hy, ha⟩ := of_decide_eq_true hobs
  obtain ⟨cl, hc, hu⟩ := createSucceeded_of (u := "cx") hr ht (by rw [hm]; decide)
  obtain ⟨cl', hc', hu'⟩ := createSucceeded_of (u := "cy") hr' ht' (by rw [hm]; decide)
  have hl : Live c.store "1" "x" cl := live_of hx hu
  obtain ⟨o, ho, hid⟩ := (Option.any_eq_true _ _).mp ha
  refine ⟨es, c, cl, cl', o, h, hc, hl, hc', live_of hy hu', hin, ho, ?_⟩
  exact (claims_exclusive h).2.1 2 _ _ _ cl (oidcConfigKey "account-1" "a") o hc hl rfl ho
    (eq_of_beq hid)

/-! ### Claim and delete -/

/-- A create that looks up an OidcConfig does not find it free and being deleted. Whether a
DNSReservation is being deleted is checked by the create. -/
def LooksUpLive (t : Task) (o : Op) (s : State) : Prop :=
  ∀ account name annotations spec sel, t = .createCluster account name annotations spec →
    o = .kube (.list .oidcConfig sel) → ∀ i ∈ s.store.items .oidcConfig sel,
      claimOf i.object = "" → i.object.deleting = false

def looksUpLive (t : Task) (o : Op) (s : State) : Bool :=
  match t, o with
  | .createCluster _ _ _ _, .kube (.list .oidcConfig sel) =>
    (s.store.items .oidcConfig sel).all fun i => claimOf i.object != "" || !i.object.deleting
  | _, _ => true

lemma looksUpLive_of (h : looksUpLive t o s = true) : LooksUpLive t o s := by
  rintro account name annotations spec sel rfl rfl i hi hfree
  have hone := List.all_eq_true.mp h i hi
  simpa [hfree] using hone

/-- The configs a create has seen free were not being deleted. -/
def SawLive (t : Task) (tr : List Event) : Prop :=
  ∀ account name annotations spec, t = .createCluster account name annotations spec →
    ∀ (k : Key) (o : Object k.kind), k.kind = .oidcConfig → LookedUp tr k o → claimOf o = "" →
      o.deleting = false

/-- What nobody has claimed when it is deleted is not claimed later. -/
def Unclaimable (d : Store) : Prop :=
  d.Along fun k o o' => claimable k.kind → o.deleting → claimOf o = "" → claimOf o' = ""

section

variable {p : Params}

lemma SawLive.cons (h : SawLive t tr) (hok : LooksUpLive t o s)
    (hx : exec o x s = some (r, s')) : SawLive t (⟨o, r⟩ :: tr) := by
  rintro account name annotations spec rfl ⟨kind, ns, n⟩ w rfl ⟨sel, items, hm, hi⟩ hfree
  rcases List.mem_cons.mp hm with he | hm
  · cases he
    obtain ⟨rfl, -⟩ := Store.exec_list (exec_kube hx).1
    exact hok account name annotations spec sel rfl rfl _ hi hfree
  · exact h account name annotations spec rfl _ w rfl ⟨sel, items, hm, hi⟩ hfree

lemma Unclaimable.step (h : Unclaimable s.store) (hs : s.store.Sane)
    (hi : Informed tr s) (hT : SawLive t tr) (hf : (resources p.operator t).Follows tr o)
    (hx : exec o x s = some (r, s')) : Unclaimable s'.store := by
  refine (claiming_step hs hi hf hx).along hs h (fun k o _ hfree => hfree) ?_
  intro k s0 new o stored ho hu hR step hdel hfree
  have hdel0 : s0.deleting = true := (hs.latest stored ho hu).2 hdel
  cases step with
  | keep same => exact same.trans (hR hdel hfree)
  | release _ _ _ _ free => exact free
  | claim task made place listed named free claimed =>
    -- what is stored is what the create has looked up
    have hlive : s0.deleting = false := by
      rcases named with ⟨hk, -⟩ | ⟨-, -, hlive⟩
      · exact hT _ _ _ _ task k s0 hk listed free
      · exact hlive
    rw [hdel0] at hlive
    cases hlive

theorem unclaimable_outline : (fleet p).Outline (fun l o _ s => LooksUpLive l.task o s)
    (fun l => (resources p.operator l.task).Follows) (fun _ _ _ => True)
      (fun s => s.store.Sane ∧ Unclaimable s.store)
      (fun l tr s => Informed tr s ∧ SawLive l.task tr)
      (fun _ (_ : PEmpty) => False) (fun _ _ => True) := by
  refine fleet_outline (T := fun t tr _ => SawLive t tr) (fun _ _ => rfl) follows_resources
    ?_ ?_ ?_
  · rintro t s - account name annotations spec - k o - ⟨_, _, hm, -⟩
    cases hm
  · intro l tr o x s s' r hs hi hI hT hA hok hx
    exact ⟨hI.step hs hi hT hA hx, hT.cons hok hx⟩
  · intro l l' tr tr' o x s s' r _ _ _ _ _ hT _ _ _ _
    exact hT

variable {ok : Caller → Op → Choice → State → Prop} {es : List (ℕ × Event)} {c : FleetConf}

lemma deleted_hist (h : (fleet p).HistIf ok idle es c) {e : ℕ × Event} (he : e ∈ es)
    {o : Object k.kind} (hv : 0 < o.resourceVersion) (heq : e.2 = ⟨.kube (.delete k o), .ok ()⟩) :
    ∃ w, ⟨k, w⟩ ∈ c.store.store.hist ∧ w.uid = o.uid ∧
      w.resourceVersion = o.resourceVersion + 1 ∧ w.deleting = true ∧ w.labels = o.labels := by
  have hshown := h.shown (I := fun _ => True)
    (E := fun e s => e = ⟨.kube (.delete k o), .ok ()⟩ → ∃ w, ⟨k, w⟩ ∈ s.store.hist ∧
      w.uid = o.uid ∧ w.resourceVersion = o.resourceVersion + 1 ∧ w.deleting = true ∧
        w.labels = o.labels)
    trivial (fun _ _ => trivial) ?_ ?_
  · exact hshown.2 e he heq
  · rintro _ x s r s' - hx ⟨⟩
    exact Store.exec_delete (exec_kube hx).1 hv
  · intro e op x s r s' _ hE hx heq
    obtain ⟨w, hw, hrest⟩ := hE heq
    exact ⟨w, hist_exec hx hw, hrest⟩

lemma DeletesResource.unclaimed {q : Operator.Params} {s : Object k.kind} {r : Api.Request}
    (h : DeletesResource q t tr k s) (ht : t = .request r) : claimOf s = "" := by
  cases h with
  | requested _ _ free => exact free
  | withCluster task | issuer task | index task =>
    rw [task] at ht
    cases ht

lemma accepted_hist (h : (fleet p).HistIf ok idle es c) {l : Caller} {served : Api.Served}
    (hi : c.pool[i]? = some ⟨l, .ret (some (.response (.status 202)))⟩)
    (ht : l.task = .request (.delete account name served)) (hk : claimable served.kind = true) :
    ∃ o w : Object served.kind,
      (⟨.kube (.delete (served.key account name) o), .ok ()⟩ : Event) ∈ System.own i es ∧
      ⟨served.key account name, o⟩ ∈ c.store.store.hist ∧
      ⟨served.key account name, w⟩ ∈ c.store.store.hist ∧ claimOf o = "" ∧ claimOf w = "" ∧
      w.uid = o.uid ∧ w.resourceVersion = o.resourceVersion + 1 ∧ w.deleting = true := by
  obtain ⟨hs, hinf⟩ := informed_all rfl h
  have hret : Returns l.task (System.own i es) (.response (.status 202)) :=
    returned h guards_resources hi
  rw [ht] at hret
  obtain ⟨o, hdel⟩ := hret _ rfl hk rfl
  obtain ⟨es1, tr, hown⟩ := List.append_of_mem hdel
  have hsuf : ⟨.kube (.delete (served.key account name) o), .ok ()⟩ :: tr <:+ System.own i es :=
    ⟨es1, hown.symm⟩
  have hA := h.logged (fun _ _ _ _ _ _ => trivial) (guards_caller follows_resources) hi hsuf
  obtain ⟨hknown, hd⟩ := hA (by simp [resources, isResource, hk])
  have hfree : claimOf o = "" := hd.unclaimed ht
  have hsub : tr ⊆ System.own i es := fun e he => hsuf.subset (List.mem_cons_of_mem _ he)
  have ho := hinf i (served.key account name) o (hknown.mono hsub)
  obtain ⟨w, hw, hu, hv, hdying, hlabels⟩ :=
    deleted_hist h (System.mem_of_mem_own hdel) (hs.named ho).2 rfl
  refine ⟨o, w, hdel, ho, hw, hfree, ?_, hu, hv, hdying⟩
  rw [claimOf, hlabels]
  exact hfree

end

/-- **Claim and delete exclude each other**, as long as no create looks up a free config that is
being deleted: the state that a request has deleted with success was not claimed, and no later state
of that incarnation is. -/
theorem claim_delete_exclusive {p : Params} {es : List (ℕ × Event)} {c : FleetConf}
    (h : (fleet p).HistIf (fun l o _ s => LooksUpLive l.task o s) idle es c) {i : ℕ} {l : Caller}
    {account name : String} {served : Api.Served}
    (hi : c.pool[i]? = some ⟨l, .ret (some (.response (.status 202)))⟩)
    (ht : l.task = .request (.delete account name served)) (hk : claimable served.kind = true) :
    ∃ o w : Object served.kind,
      (⟨.kube (.delete (served.key account name) o), .ok ()⟩ : Event) ∈ System.own i es ∧
      ⟨served.key account name, o⟩ ∈ c.store.store.hist ∧
      ⟨served.key account name, w⟩ ∈ c.store.store.hist ∧ w.uid = o.uid ∧
      w.resourceVersion = o.resourceVersion + 1 ∧ w.deleting = true ∧
      ∀ v : Object served.kind, ⟨served.key account name, v⟩ ∈ c.store.store.hist →
        v.uid = o.uid → o.resourceVersion ≤ v.resourceVersion → claimOf v = "" := by
  have h0 : State.empty.store.Sane ∧ Unclaimable State.empty.store :=
    ⟨Store.sane_empty, Store.Along.empty⟩
  obtain ⟨hs, hI⟩ := (unclaimable_outline.holds h0 (fun _ => trivial) h).1
  obtain ⟨o, w, hacc, ho, hw, hfree, hfree', hu, hv, hdel⟩ := accepted_hist h hi ht hk
  refine ⟨o, w, hacc, ho, hw, hu, hv, hdel, fun v hvm hvu hle => ?_⟩
  rcases Nat.eq_or_lt_of_le hle with heq | hlt
  · rw [hs.unique hvm ho hvu heq.symm]
    exact hfree
  · exact hI hw hvm (hu.trans hvu.symm) (by rw [hv]; exact hlt) hk hdel hfree'

/-- A config that is deleted, and another one that is claimed. -/
def deleteAndClaim : List (System.Event Choice Caller) :=
  performs 0 (.createOidcConfig "1" "a" [] ⟨"managed", "", "", ""⟩ "a") [{}, {}, { uid := "ca" }] ++
  performs 1 (.createOidcConfig "1" "b" [] ⟨"managed", "", "", ""⟩ "b") [{}, {}, { uid := "cb" }] ++
  performs 2 (.reconcile .oidcConfig "account-1" "a") [{}, {}] ++
  performs 3 (.request (.delete "1" "a" .oidcConfig)) [{}, {}, {}] ++
  performs 4 (.createCluster "1" "x" [] { oidcConfigID := "cb" }) (claimingCreate "cx")

/-- A config that was deleted unclaimed stays so. -/
theorem claim_delete_of_config : ∃ (es : List (ℕ × Event)) (c : FleetConf) (r : Object .oidcConfig),
      (fleet sample).HistIf (fun l o _ s => LooksUpLive l.task o s) idle es c ∧
      replyOf c 3 = some (.response (.status 202)) ∧ replyOf c 4 = some (.response (.status 201)) ∧
      c.store.store.find (oidcConfigKey "account-1" "a") = some r ∧ r.deleting = true ∧
      claimOf r = "" := by
  have hrun : ((fleet sample).recordIf (fun l o _ s => looksUpLive l.task o s) deleteAndClaim
      ([], idle)).any (fun h => decide ((replyOf h.2 3 = some (.response (.status 202)) ∧
        taskOf h.2 3 = some (.request (.delete "1" "a" .oidcConfig)) ∧
        replyOf h.2 4 = some (.response (.status 201))) ∧
        (h.2.store.store.find (oidcConfigKey "account-1" "a")).any
          (fun r => r.uid == "ca" && r.deleting) ∧
        h.2.store.store.hist.all
          (fun e => e.1 != oidcConfigKey "account-1" "a" || e.2.uid == "ca"))) = true := by
    decide +kernel
  obtain ⟨es, c, h, hobs⟩ :=
    System.HistIf.observed (fun _ _ _ _ hok => looksUpLive_of hok) hrun
  obtain ⟨⟨hr, ht, hr'⟩, hfind, hall⟩ := of_decide_eq_true hobs
  obtain ⟨r, hfind, hrobs⟩ := (Option.any_eq_true _ _).mp hfind
  rw [Bool.and_eq_true, beq_iff_eq] at hrobs
  obtain ⟨l, hi, htask⟩ := returned_of_replyOf hr ht
  obtain ⟨o, w, -, ho, -, -, -, -, hfree⟩ := claim_delete_exclusive h hi htask rfl
  have hu : o.uid = "ca" := by
    have he := List.all_eq_true.mp hall _ ho
    simpa [Api.Served.key, accountNamespace] using he
  have hs := (informed_all rfl h).1
  refine ⟨es, c, r, h, hr, hr', hfind, hrobs.2, ?_⟩
  have hru : r.uid = o.uid := hrobs.1.trans hu.symm
  exact hfree r (hs.recorded hfind) hru (hs.latest hfind ho hru.symm).1

/-- A config whose deletion was accepted, and a create that refers to it. -/
def claimAfterDelete : List (System.Event Choice Caller) :=
  performs 0 (.createOidcConfig "1" "a" [] ⟨"managed", "", "", ""⟩ "a") [{}, {}, { uid := "ca" }] ++
  performs 1 (.reconcile .oidcConfig "account-1" "a") [{}, {}] ++
  performs 2 (.request (.delete "1" "a" .oidcConfig)) [{}, {}, {}] ++
  performs 3 (.createCluster "1" "x" [] { oidcConfigID := "ca" }) (claimingCreate "cx")

/-- The create succeeds: it does not look at the deletion of a config. -/
theorem deleted_config_claimed : ∃ (es : List (ℕ × Event))
    (c : FleetConf) (w v : Object .oidcConfig),
      (fleet sample).Hist idle es c ∧
      taskOf c 2 = some (.request (.delete "1" "a" .oidcConfig)) ∧
      replyOf c 2 = some (.response (.status 202)) ∧
      replyOf c 3 = some (.response (.status 201)) ∧
      ⟨oidcConfigKey "account-1" "a", w⟩ ∈ c.store.store.hist ∧ w.deleting = true ∧
      claimOf w = "" ∧ c.store.store.find (oidcConfigKey "account-1" "a") = some v ∧
      v.uid = w.uid ∧ w.resourceVersion < v.resourceVersion ∧ claimOf v = "cx" := by
  have hrun : ((fleet sample).recordIf (fun _ _ _ _ => true) claimAfterDelete ([], idle)).any
      (fun h => decide ((taskOf h.2 2 = some (.request (.delete "1" "a" .oidcConfig)) ∧
        replyOf h.2 2 = some (.response (.status 202)) ∧
        replyOf h.2 3 = some (.response (.status 201))) ∧
        h.2.store.store.hist.any (fun w => decide (w.1 = oidcConfigKey "account-1" "a" ∧
          w.2.deleting = true ∧ claimOf w.2 = "" ∧ w.2.uid = "ca" ∧ w.2.resourceVersion = 3)) ∧
        (h.2.store.store.find (oidcConfigKey "account-1" "a")).any (fun v =>
          decide (v.uid = "ca" ∧ claimOf v = "cx" ∧ v.resourceVersion = 5)))) = true := by
    decide +kernel
  obtain ⟨es, c, h, hobs⟩ := System.HistIf.observed (fun _ _ _ _ _ => trivial) hrun
  obtain ⟨⟨ht, hr, hr'⟩, hw, hv⟩ := of_decide_eq_true hobs
  obtain ⟨⟨k, w⟩, hw, hwobs⟩ := List.any_eq_true.mp hw
  obtain ⟨rfl, hdel, hfree, huw, hvw⟩ := of_decide_eq_true hwobs
  obtain ⟨v, hv, hvobs⟩ := (Option.any_eq_true _ _).mp hv
  obtain ⟨huv, hclaim, hvv⟩ := of_decide_eq_true hvobs
  refine ⟨es, c, w, v, h, ht, hr, hr', hw, hdel, hfree, hv, huv.trans huw.symm, ?_, hclaim⟩
  rw [hvv]
  exact hvw.trans_lt (by decide)

end Seaplane.Fleet
