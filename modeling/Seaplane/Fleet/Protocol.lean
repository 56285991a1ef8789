import Seaplane.Fleet.Callers

/-!
Protocols: what a program may do to the objects of some keys, on the strength of what it has seen.

Every write but a creation carries the identity of a state that the program has seen, so it replaces
that very state. A protocol says which creations, updates, status updates and deletes are allowed,
as relations between the state that was seen and what is written; `step` turns a call that follows
the protocol into what it does to the store.
-/

namespace Seaplane.Fleet

open Lib Kube

variable {o : Op} {x : Choice} {s s' : State}

theorem fleet_outline {p : Params} {excl : Caller → Caller → Bool}
    {ok : Caller → Op → Choice → State → Prop} {A : Task → List Event → Op → Prop}
    {I : State → Prop} {T : Task → List Event → State → Prop} (symm : ∀ l l', excl l l' = excl l' l)
    (guards : ∀ t : Task, (t.code p).Guards Any (A t) Done [])
    (start : ∀ {t : Task} {s : State}, I s → T t [] s)
    (own : ∀ {l : Caller} {tr : List Event} {o : Op} {x : Choice} {s s' : State} {r : o.Res},
      s.store.Sane → Informed tr s → I s → T l.task tr s → A l.task tr o → ok l o x s →
        exec o x s = some (r, s') → I s' ∧ T l.task (⟨o, r⟩ :: tr) s')
    (other : ∀ {l l' : Caller} {tr tr' : List Event} {o : Op} {x : Choice} {s s' : State}
      {r : o.Res}, excl l l' = false → s.store.Sane → Informed tr s → Informed tr' s → I s →
        T l.task tr s → T l'.task tr' s → A l'.task tr' o → ok l' o x s →
          exec o x s = some (r, s') → T l.task tr s') :
    (fleetWith excl p).Outline ok (fun l => A l.task) (fun _ _ _ => True)
      (fun s => s.store.Sane ∧ I s) (fun l tr s => Informed tr s ∧ T l.task tr s)
      (fun _ (_ : PEmpty) => False) (fun _ _ => True) := by
  refine System.Outline.plain ?_ symm ?_ ?_ ?_
  · exact fun l => (guards_caller guards l).post fun _ _ _ => trivial
  · exact fun hI => ⟨informed_nil _, start hI.2⟩
  · intro l tr o x s s' r hI hT hA hok hx
    obtain ⟨hI', hT'⟩ := own hI.1 hT.1 hI.2 hT.2 hA hok hx
    exact ⟨⟨hI.1.change (store_change hx), hI'⟩, hT.1.own hI.1 hx, hT'⟩
  · intro l l' tr tr' o x s s' r he hI hT hT' hA hok hx
    exact ⟨hT.1.other hx, other he hI.1 hT.1 hT'.1 hI.2 hT.2 hT'.2 hA hok hx⟩

lemma subjects_ne {l l' : Caller} {c : Controller} {kind : Kind} {ns name ns' name' : String}
    {tr tr' : List Event} {o o' : Object kind} (he : l.excl c l' = false) (hs : s.store.Sane)
    (hi : Informed tr s) (hi' : Informed tr' s) (hl : l.task = .reconcile c ns name)
    (hl' : l'.task = .reconcile c ns' name') (ho : Subject ⟨kind, ns, name⟩ tr o)
    (ho' : Subject ⟨kind, ns', name'⟩ tr' o') : o.uid ≠ o'.uid := by
  intro hu
  have hk := hs.home (hi _ _ (known_get ho.mem)) (hi' _ _ (known_get ho'.mem)) hu
  cases hk
  rw [Caller.excl_reconcile hl hl'] at he
  cases he

/-! ### Protocols -/

/-- What may be done to the objects of some keys, and to the secrets. The states are those that were
seen; an update comes with the object it carries, a status update with the new status. -/
structure Protocol where
  scope : Key → Bool
  create : List Event → (k : Key) → Object k.kind → Prop
  update : List Event → (k : Key) → Object k.kind → Object k.kind → Prop
  status : List Event → (k : Key) → Object k.kind → Status k.kind → Prop
  delete : List Event → (k : Key) → Object k.kind → Prop
  secret : List Event → Infra.Op → Prop

namespace Protocol

variable {P : Protocol} {tr : List Event}

def Follows (P : Protocol) (tr : List Event) : Op → Prop
  | .kube (.create k o) => P.scope k → P.create tr k o
  | .kube (.update k o) => P.scope k → ∃ s, Known tr k s ∧ o.uid = s.uid ∧
      o.resourceVersion = s.resourceVersion ∧ P.update tr k s o
  | .kube (.updateStatus k o) => P.scope k → ∃ s, Known tr k s ∧ o.uid = s.uid ∧
      o.resourceVersion = s.resourceVersion ∧ P.status tr k s o.status
  | .kube (.delete k o) => P.scope k → Known tr k o ∧ P.delete tr k o
  | .infra i => Op.secret (.infra i) → P.secret tr i
  | _ => True

/-- The objects outside the protocol, and all documents. -/
abbrev outside (P : Protocol) : Limits := ⟨fun k => P.scope k = false, True, False⟩

lemma follows_within (h : Within P.outside o) : P.Follows tr o := by
  cases o with
  | kube o =>
    cases o with
    | get | list => trivial
    | create k o | update k o | updateStatus k o | delete k o =>
      intro hk
      rw [h.object k rfl] at hk
      cases hk
  | infra i => exact fun hs => (h.secrets hs).elim
  | dynamo | check | now => trivial

/-- A call and the new state of the object it writes, as the protocol allows it. -/
inductive Write (P : Protocol) (tr : List Event) (d : Store) : Op → (k : Key) → Object k.kind → Prop
  | create {k : Key} {o : Object k.kind} (x : Kube.Choice) (vacant : d.find k = none)
      (fresh : d.fresh x.uid) (h : P.create tr k o) :
      Write P tr d (.kube (.create k o)) k (Store.created x o)
  | update {k : Key} {s o : Object k.kind} (stored : d.find k = some s) (known : Known tr k s)
      (h : P.update tr k s o) :
      Write P tr d (.kube (.update k o)) k (Store.next (Store.updated s o))
  | status {k : Key} {s o : Object k.kind} {st : Status k.kind} (carries : o.status = st)
      (stored : d.find k = some s) (known : Known tr k s) (h : P.status tr k s st) :
      Write P tr d (.kube (.updateStatus k o)) k (Store.next { s with status := st })
  | delete {k : Key} {s : Object k.kind} (stored : d.find k = some s) (known : Known tr k s)
      (h : P.delete tr k s) :
      Write P tr d (.kube (.delete k s)) k (Store.next { s with deleting := true })

variable {d : Store} {k : Key}

lemma Write.change {new : Object k.kind} (h : P.Write tr d o k new) :
    (d.find k = none ∧ d.fresh new.uid ∧ new.resourceVersion = 1 ∧ new.deleting = false) ∨
      ∃ s, d.find k = some s ∧ new.uid = s.uid ∧ new.resourceVersion = s.resourceVersion + 1 ∧
        (s.deleting → new.deleting) := by
  cases h with
  | create x vacant fresh _ => exact .inl ⟨vacant, fresh, rfl, rfl⟩
  | update stored | status _ stored => exact .inr ⟨_, stored, rfl, rfl, id⟩
  | delete stored => exact .inr ⟨_, stored, rfl, rfl, fun _ => rfl⟩

/-- The objects of the protocol are as they were. -/
def Same (P : Protocol) (d d' : Store) : Prop :=
  ∀ k, P.scope k → d'.find k = d.find k ∧ ∀ o, (⟨k, o⟩ ∈ d'.hist ↔ ⟨k, o⟩ ∈ d.hist)

lemma Same.refl (d : Store) : P.Same d d := fun _ _ => ⟨rfl, fun _ => Iff.rfl⟩

lemma same_commit {o : Object k.kind} (hk : P.scope k = false) : P.Same d (d.commit k o) := by
  intro k' hk'
  have hne : k' ≠ k := by
    rintro rfl
    rw [hk] at hk'
    cases hk'
  refine ⟨Store.find_commit_ne hne, fun o' => ?_⟩
  rw [Store.mem_hist_commit]
  refine ⟨fun h => ?_, .inr⟩
  rcases h with h | h
  · exact absurd (congrArg Sigma.fst h) hne
  · exact h

/-- The objects of a kind, and all their states, are as they were. -/
def SameKind (kind : Kind) (d d' : Store) : Prop := ∀ ns name,
  d'.find ⟨kind, ns, name⟩ = d.find ⟨kind, ns, name⟩ ∧
    ∀ o, (⟨⟨kind, ns, name⟩, o⟩ ∈ d'.hist ↔ ⟨⟨kind, ns, name⟩, o⟩ ∈ d.hist)

lemma sameKind_commit {kind : Kind} {o : Object k.kind} (hk : k.kind ≠ kind) :
    SameKind kind d (d.commit k o) := by
  intro ns name
  have hne : (⟨kind, ns, name⟩ : Key) ≠ k := by
    rintro rfl
    exact hk rfl
  refine ⟨Store.find_commit_ne hne, fun o' => ?_⟩
  rw [Store.mem_hist_commit]
  exact ⟨fun h => h.resolve_left fun he => hne (congrArg Sigma.fst he), .inr⟩

/-- A call that follows the protocol leaves its objects alone, or writes one of them as the protocol
allows. -/
theorem step {r : o.Res} (hs : s.store.Sane) (hi : Informed tr s) (hf : P.Follows tr o)
    (hx : exec o x s = some (r, s')) :
    P.Same s.store s'.store ∨ ∃ k new, P.scope k = true ∧ P.Write tr s.store o k new ∧
      s'.store = s.store.commit k new := by
  rcases store_eq_or_kube hx with he | ⟨o, rfl⟩
  · rw [he]; exact .inl (Same.refl _)
  · have hdid := Store.did_exec (exec_kube hx).1
    generalize s'.store = d' at hdid
    cases hdid with
    | nothing => exact .inl (Same.refl _)
    | @create k o x hv hfr =>
      cases hk : P.scope k with
      | false => exact .inl (same_commit hk)
      | true => exact .inr ⟨k, _, hk, .create x hv hfr (hf hk), rfl⟩
    | @update k o t ht hu hv =>
      cases hk : P.scope k with
      | false => exact .inl (same_commit hk)
      | true =>
        obtain ⟨t', hkn, hu', hv', hup⟩ := hf hk
        obtain rfl := hs.replaces ht (hi _ _ hkn) (hu.trans hu') (hv.trans hv')
        exact .inr ⟨k, _, hk, .update ht hkn hup, rfl⟩
    | @updateStatus k o t ht hu hv =>
      cases hk : P.scope k with
      | false => exact .inl (same_commit hk)
      | true =>
        obtain ⟨t', hkn, hu', hv', hst⟩ := hf hk
        obtain rfl := hs.replaces ht (hi _ _ hkn) (hu.trans hu') (hv.trans hv')
        exact .inr ⟨k, _, hk, .status rfl ht hkn hst, rfl⟩
    | @mark k o t ht hz =>
      cases hk : P.scope k with
      | false => exact .inl (same_commit hk)
      | true =>
        -- what was seen has a version
        have := (hs.named (hi _ _ (hf hk).1)).2
        omega
    | @delete k o t ht hu hv =>
      cases hk : P.scope k with
      | false => exact .inl (same_commit hk)
      | true =>
        obtain ⟨hkn, hdel⟩ := hf hk
        obtain rfl := hs.replaces ht (hi _ _ hkn) hu hv
        exact .inr ⟨k, _, hk, .delete ht hkn hdel, rfl⟩

lemma guards_within {α : Type} {m : FleetProg α} (hm : m.Always fun o _ => Within P.outside o)
    (tr : List Event) : m.Guards Any P.Follows (fun tr' _ => tr <:+ tr') tr :=
  hm.guards (List.suffix_refl tr) (fun _ _ _ ho => follows_within ho)
    fun _ _ _ he _ => he.trans (List.suffix_cons _ _)

end Protocol

end Seaplane.Fleet
