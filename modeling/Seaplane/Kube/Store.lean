import Mathlib.Data.List.AList
import Seaplane.Kube.Object
import Seaplane.Lib.Trace

/-!
The store as its clients see it: Get, List, Create, Update, Status().Update and Delete, each of
them one atomic step.

An Update, a Status().Update and a Delete that carries a resource version replace an object only
if it still has the version and the UID they carry. An object that is being deleted goes when its
last finalizer goes. Any call may fail before it has an effect; a write may also fail after it.
`hist` records every object state ever committed, the newest first; nothing the programs do reads
it.
-/

namespace Seaplane.Kube

open Lib

/-- The current objects, and every state ever committed. -/
structure Store where
  objects : AList fun k : Key => Object k.kind
  hist : List ((k : Key) × Object k.kind)

namespace Store

def empty : Store := ⟨∅, []⟩

def find (d : Store) (k : Key) : Option (Object k.kind) := d.objects.lookup k

/-- The object's new state; one that is being deleted and has no finalizer left is gone. -/
def commit (d : Store) (k : Key) (o : Object k.kind) : Store where
  objects :=
    if o.deleting && o.finalizers.isEmpty then d.objects.erase k else d.objects.insert k o
  hist := ⟨k, o⟩ :: d.hist

end Store

structure Selector where
  ns : Option String := none
  /-- `client.MatchingLabels`. -/
  labels : StringMap := []
  /-- `client.MatchingFields` with `metadata.uid`. -/
  uid : Option Uid := none

def Selector.selects {kind : Kind} (sel : Selector) (ns : String) (o : Object kind) : Bool :=
  sel.ns.all (ns == ·) && sel.labels.all (fun e => o.labels.lookup e.1 == some e.2) &&
    sel.uid.all (o.uid == ·)

namespace Store

/-- The objects of a kind that a selector selects. -/
def items (d : Store) (kind : Kind) (sel : Selector) : List (Item kind) :=
  d.objects.entries.filterMap fun e =>
    if h : e.1.kind = kind then
      let o : Object kind := h ▸ e.2
      if sel.selects e.1.ns o then some ⟨e.1.ns, e.1.name, o⟩ else none
    else none

end Store

inductive Err where
  | notFound
  | conflict
  | alreadyExists
  | badRequest
  | other
  deriving DecidableEq, Repr

inductive Op where
  | get (k : Key)
  | list (kind : Kind) (sel : Selector)
  | create (k : Key) (o : Object k.kind)
  | update (k : Key) (o : Object k.kind)
  | updateStatus (k : Key) (o : Object k.kind)
  | delete (k : Key) (o : Object k.kind)

abbrev Op.Res : Op → Type
  | .get k | .create k _ | .update k _ | .updateStatus k _ => Except Err (Object k.kind)
  | .list kind _ => Except Err (List (Item kind))
  | .delete _ _ => Except Err Unit

def Op.fail : (o : Op) → Err → o.Res
  | .get _, e | .list _ _, e | .create _ _, e | .update _ _, e | .updateStatus _ _, e
  | .delete _ _, e => .error e

/-- The calls that can meet a conflict: those that replace a state. -/
def Op.replaces : Op → Bool
  | .update _ _ | .updateStatus _ _ | .delete _ _ => true
  | _ => false

inductive Fault where
  | none
  /-- An error, and nothing was done. -/
  | failed
  /-- A conflict, and nothing was done: the row changed between the client's read and its write. -/
  | refused
  /-- An error although the write was committed: the connection was lost, and with it the client's
  read-back. -/
  | lost
  deriving DecidableEq, Repr

/-- What a call does not decide: the UID of a new object, the clock, and what goes wrong. -/
structure Choice where
  uid : Uid := ""
  now : Time := 0
  fault : Fault := .none

variable {d : Store} {k : Key} {o : Op}

namespace Store

/-- A UID that no object has ever had. -/
def fresh (d : Store) (uid : Uid) : Bool := uid != "" && d.hist.all (·.2.uid != uid)

variable {kind : Kind}

/-- The stored object as a new one is created. -/
def created (x : Choice) (o : Object kind) : Object kind :=
  { o with uid := x.uid, resourceVersion := 1, generation := 1, deleting := false,
           creationTimestamp := x.now }

/-- A Manifest gets a new generation with a spec that is not equal as `JSONEqual` sees it. -/
def nextGeneration : {kind : Kind} → Object kind → Spec kind → ℕ
  | .manifest, s, spec =>
    if spec = s.spec ∨ Json.goEqual s.spec.json spec.json then s.generation
    else s.generation + 1
  | _, s, _ => s.generation

@[simp] lemma nextGeneration_self (s : Object kind) : nextGeneration s s.spec = s.generation := by
  cases kind with
  | manifest => exact if_pos (.inl rfl)
  | _ => rfl

/-- The stored object with what an Update writes. -/
def updated (s o : Object kind) : Object kind :=
  { s with labels := o.labels, annotations := o.annotations, controller := o.controller,
           finalizers := o.finalizers, spec := o.spec, generation := nextGeneration s o.spec }

def next (s : Object kind) : Object kind := { s with resourceVersion := s.resourceVersion + 1 }

def attempt (x : Choice) (d : Store) : (o : Op) → Option (o.Res × Store)
  | .get k =>
    match d.find k with
    | none => some (.error .notFound, d)
    | some s => some (.ok s, d)
  | .list kind sel => some (.ok (d.items kind sel), d)
  | .create k o =>
    match d.find k with
    | some _ => some (.error .alreadyExists, d)
    | none =>
      if d.fresh x.uid then some (.ok (created x o), d.commit k (created x o)) else none
  | .update k o =>
    if 0 < o.resourceVersion ∧ o.uid = "" then some (.error .badRequest, d)
    else
      match d.find k with
      | none => some (.error .notFound, d)
      | some s =>
        if o.uid ≠ "" ∧ s.uid ≠ o.uid then some (.error .conflict, d)
        else if o.resourceVersion = 0 then some (.error .other, d)
        else if s.resourceVersion ≠ o.resourceVersion then some (.error .conflict, d)
        -- a write that changes nothing is suppressed
        else if updated s o = s then some (.ok s, d)
        else some (.ok (next (updated s o)), d.commit k (next (updated s o)))
  | .updateStatus k o =>
    if o.uid = "" then some (.error .badRequest, d)
    else if o.resourceVersion = 0 then some (.error .other, d)
    else
      match d.find k with
      | none => some (.error .conflict, d)
      | some s =>
        if s.uid ≠ o.uid ∨ s.resourceVersion ≠ o.resourceVersion then some (.error .conflict, d)
        else if o.status = s.status then some (.ok s, d)
        else
          some (.ok (next { s with status := o.status }),
            d.commit k (next { s with status := o.status }))
  | .delete k o =>
    if o.resourceVersion = 0 then
      match d.find k with
      | none => some (.error .notFound, d)
      | some s =>
        if o.uid ≠ "" ∧ s.uid ≠ o.uid then some (.error .conflict, d)
        else if s.deleting then some (.ok (), d)
        else some (.ok (), d.commit k (next { s with deleting := true }))
    else if o.uid = "" then some (.error .badRequest, d)
    else
      match d.find k with
      | none => some (.error .conflict, d)
      | some s =>
        if s.uid ≠ o.uid ∨ s.resourceVersion ≠ o.resourceVersion then some (.error .conflict, d)
        else
          some (.ok (), d.commit k
            (next { updated s o with
              status := o.status, generation := o.generation, deleting := true }))

def exec (o : Op) (x : Choice) (d : Store) : Option (o.Res × Store) :=
  match x.fault with
  | .none => d.attempt x o
  | .failed => some (o.fail .other, d)
  | .refused => if o.replaces then some (o.fail .conflict, d) else none
  | .lost => (d.attempt x o).map fun rd => (o.fail .other, rd.2)

/-! ### What a call can do -/

inductive Did (d : Store) : Op → Store → Prop where
  | nothing (o : Op) : Did d o d
  | create {k : Key} {o : Object k.kind} (x : Choice) (vacant : d.find k = none)
      (fresh : d.fresh x.uid) : Did d (.create k o) (d.commit k (created x o))
  | update {k : Key} {o s : Object k.kind} (stored : d.find k = some s) (uid : s.uid = o.uid)
      (version : s.resourceVersion = o.resourceVersion) :
      Did d (.update k o) (d.commit k (next (updated s o)))
  | updateStatus {k : Key} {o s : Object k.kind} (stored : d.find k = some s) (uid : s.uid = o.uid)
      (version : s.resourceVersion = o.resourceVersion) :
      Did d (.updateStatus k o) (d.commit k (next { s with status := o.status }))
  | mark {k : Key} {o s : Object k.kind} (stored : d.find k = some s)
      (unversioned : o.resourceVersion = 0) (live : s.deleting = false) :
      Did d (.delete k o) (d.commit k (next { s with deleting := true }))
  | delete {k : Key} {o s : Object k.kind} (stored : d.find k = some s) (uid : s.uid = o.uid)
      (version : s.resourceVersion = o.resourceVersion) :
      Did d (.delete k o)
        (d.commit k (next { updated s o with
          status := o.status, generation := o.generation, deleting := true }))

variable {x : Choice} {d' : Store}

/-- An Update that goes through is refused, changes nothing, or replaces the state it carries the
identity of. -/
lemma attempt_update {o : Object k.kind} {r : Except Err (Object k.kind)}
    (h : d.attempt x (.update k o) = some (r, d')) : (d' = d ∧ ∃ e, r = .error e) ∨
      ∃ s, d.find k = some s ∧ s.uid = o.uid ∧ s.resourceVersion = o.resourceVersion ∧
        ((updated s o = s ∧ r = .ok s ∧ d' = d) ∨
          (r = .ok (next (updated s o)) ∧ d' = d.commit k (next (updated s o)))) := by
  simp only [attempt] at h
  split at h
  · cases h; exact .inl ⟨rfl, _, rfl⟩
  · next hb =>
    split at h
    · cases h; exact .inl ⟨rfl, _, rfl⟩
    · next s hs =>
      split at h
      · cases h; exact .inl ⟨rfl, _, rfl⟩
      · next hu =>
        split at h
        · cases h; exact .inl ⟨rfl, _, rfl⟩
        · next hz =>
          -- a version without a UID was refused
          have huid : s.uid = o.uid := by
            by_contra hne
            exact hu ⟨fun he => hb ⟨Nat.pos_of_ne_zero hz, he⟩, hne⟩
          split at h
          · cases h; exact .inl ⟨rfl, _, rfl⟩
          · next hv =>
            refine .inr ⟨s, hs, huid, not_not.mp hv, ?_⟩
            split at h
            · next hsame => cases h; exact .inl ⟨hsame, rfl, rfl⟩
            · cases h; exact .inr ⟨rfl, rfl⟩

lemma did_attempt {r : o.Res} (h : d.attempt x o = some (r, d')) : d.Did o d' := by
  cases o with
  | get k =>
    simp only [attempt] at h
    split at h <;> (cases h; exact .nothing _)
  | list kind sel =>
    cases h
    exact .nothing _
  | create k o =>
    simp only [attempt] at h
    split at h
    · cases h; exact .nothing _
    · split at h
      · next hv hf => cases h; exact .create x hv hf
      · cases h
  | update k o =>
    rcases attempt_update h with ⟨rfl, -⟩ | ⟨s, hs, hu, hv, ⟨-, -, rfl⟩ | ⟨-, rfl⟩⟩
    · exact .nothing _
    · exact .nothing _
    · exact .update hs hu hv
  | updateStatus k o =>
    simp only [attempt] at h
    split at h
    · cases h; exact .nothing _
    · split at h
      · cases h; exact .nothing _
      · split at h
        · cases h; exact .nothing _
        · next s hs =>
          split at h
          · cases h; exact .nothing _
          · next hm =>
            obtain ⟨hu, hv⟩ := not_or.mp hm
            split at h
            · cases h; exact .nothing _
            · cases h; exact .updateStatus hs (not_not.mp hu) (not_not.mp hv)
  | delete k o =>
    simp only [attempt] at h
    split at h
    · next hz =>
      split at h
      · cases h; exact .nothing _
      · next s hs =>
        split at h
        · cases h; exact .nothing _
        · split at h
          · cases h; exact .nothing _
          · next hl => cases h; exact .mark hs hz (Bool.eq_false_iff.mpr hl)
    · split at h
      · cases h; exact .nothing _
      · split at h
        · cases h; exact .nothing _
        · next s hs =>
          split at h
          · cases h; exact .nothing _
          · next hm =>
            obtain ⟨hu, hv⟩ := not_or.mp hm
            cases h
            exact .delete hs (not_not.mp hu) (not_not.mp hv)

lemma exec_faults {r : o.Res} (h : exec o x d = some (r, d')) :
    d.attempt x o = some (r, d') ∨ (r = o.fail .conflict ∧ d' = d) ∨
      (r = o.fail .other ∧ (d' = d ∨ ∃ r', d.attempt x o = some (r', d'))) := by
  simp only [exec] at h
  split at h
  · exact .inl h
  · cases h; exact .inr (.inr ⟨rfl, .inl rfl⟩)
  · split at h
    · cases h; exact .inr (.inl ⟨rfl, rfl⟩)
    · cases h
  · obtain ⟨⟨r', d1⟩, h1, h2⟩ := Option.map_eq_some_iff.mp h
    cases h2
    exact .inr (.inr ⟨rfl, .inr ⟨r', h1⟩⟩)

theorem did_exec {r : o.Res} (h : exec o x d = some (r, d')) : d.Did o d' := by
  rcases exec_faults h with h | ⟨-, rfl⟩ | ⟨-, rfl | ⟨r', h⟩⟩
  · exact did_attempt h
  · exact .nothing _
  · exact .nothing _
  · exact did_attempt h

/-! ### The invariant of the store -/

lemma find_commit_ne {k' : Key} {o : Object k.kind} (h : k' ≠ k) :
    (d.commit k o).find k' = d.find k' := by
  simp only [find, commit]
  split
  · exact AList.lookup_erase_ne h
  · exact AList.lookup_insert_ne h

lemma find_commit_self {o : Object k.kind} :
    (d.commit k o).find k = if o.deleting && o.finalizers.isEmpty then none else some o := by
  simp only [find, commit]
  split
  · exact AList.lookup_erase _ _
  · exact AList.lookup_insert _

lemma find_commit_some {o s : Object k.kind}
    (h : (d.commit k o).find k = some s) : s = o ∧ ¬(o.deleting ∧ o.finalizers = []) := by
  rw [find_commit_self] at h
  split at h
  · cases h
  · next hd =>
    cases h
    simpa using hd

lemma find_commit_kept {o : Object k.kind}
    (h : ¬(o.deleting ∧ o.finalizers = [])) : (d.commit k o).find k = some o := by
  rw [find_commit_self]
  exact if_neg (by simpa using h)

/-- What a step may do to the store, whichever call it was. -/
inductive Change (d : Store) : Store → Prop where
  | none : Change d d
  | created {k : Key} {o : Object k.kind} (vacant : d.find k = .none) (fresh : d.fresh o.uid)
      (version : o.resourceVersion = 1) (live : o.deleting = false) : Change d (d.commit k o)
  | replaced {k : Key} {s s' : Object k.kind} (stored : d.find k = some s) (uid : s'.uid = s.uid)
      (version : s'.resourceVersion = s.resourceVersion + 1)
      (dying : s.deleting → s'.deleting) : Change d (d.commit k s')

lemma Did.change (h : d.Did o d') : d.Change d' := by
  cases h with
  | nothing => exact .none
  | create x hv hf => exact .created hv hf rfl rfl
  | update hs | updateStatus hs => exact .replaced hs rfl rfl id
  | mark hs | delete hs => exact .replaced hs rfl rfl fun _ => rfl

/-- A UID belongs to one object, and with a version to one state of it. -/
structure Sane (d : Store) : Prop where
  recorded {k : Key} {s : Object k.kind} : d.find k = some s → ⟨k, s⟩ ∈ d.hist
  named {k : Key} {o : Object k.kind} : ⟨k, o⟩ ∈ d.hist → o.uid ≠ "" ∧ 0 < o.resourceVersion
  home {k k' : Key} {o : Object k.kind} {o' : Object k'.kind} :
    ⟨k, o⟩ ∈ d.hist → ⟨k', o'⟩ ∈ d.hist → o.uid = o'.uid → k = k'
  unique {k : Key} {o o' : Object k.kind} : ⟨k, o⟩ ∈ d.hist → ⟨k, o'⟩ ∈ d.hist → o.uid = o'.uid →
    o.resourceVersion = o'.resourceVersion → o = o'
  latest {k : Key} {s o : Object k.kind} : d.find k = some s → ⟨k, o⟩ ∈ d.hist → o.uid = s.uid →
    o.resourceVersion ≤ s.resourceVersion ∧ (o.deleting → s.deleting)
  kept {k : Key} {s : Object k.kind} : d.find k = some s → ¬(s.deleting ∧ s.finalizers = [])

lemma sane_empty : empty.Sane := by
  constructor <;> simp [empty, find]

lemma mem_hist_commit {k' : Key} {o : Object k.kind} {o' : Object k'.kind} :
    ⟨k', o'⟩ ∈ (d.commit k o).hist ↔
      (⟨k', o'⟩ : (k : Key) × Object k.kind) = ⟨k, o⟩ ∨ ⟨k', o'⟩ ∈ d.hist := List.mem_cons

lemma fresh_ne {o : Object k.kind} {uid : Uid} (h : d.fresh uid)
    (ho : ⟨k, o⟩ ∈ d.hist) : o.uid ≠ uid := by
  simp only [fresh, Bool.and_eq_true, List.all_eq_true, bne_iff_ne] at h
  exact h.2 _ ho

lemma Sane.change (hd : d.Sane) (h : d.Change d') : d'.Sane := by
  cases h with
  | none => exact hd
  | @created k o hv hf h1 hl =>
    have hne : ∀ {k' : Key} {o' : Object k'.kind}, ⟨k', o'⟩ ∈ d.hist → o'.uid ≠ o.uid :=
      fun h => fresh_ne hf h
    have hkeep : ∀ {k' : Key} {s : Object k'.kind}, (d.commit k o).find k' = some s →
        (⟨k', s⟩ : (k : Key) × Object k.kind) = ⟨k, o⟩ ∨ d.find k' = some s := by
      intro k' s hs
      by_cases hk : k' = k
      · subst hk; exact .inl (by rw [(find_commit_some hs).1])
      · rw [find_commit_ne hk] at hs; exact .inr hs
    refine ⟨?_, ?_, ?_, ?_, ?_, ?_⟩
    · intro k' s hs
      rcases hkeep hs with h | h
      · exact List.mem_cons.mpr (.inl h)
      · exact List.mem_cons_of_mem _ (hd.recorded h)
    · intro k' o' ho
      rcases mem_hist_commit.mp ho with h | h
      · cases h
        simp only [fresh, Bool.and_eq_true, bne_iff_ne] at hf
        exact ⟨hf.1, by omega⟩
      · exact hd.named h
    · intro k1 k2 o1 o2 h1' h2' hu
      rcases mem_hist_commit.mp h1' with h | h <;> rcases mem_hist_commit.mp h2' with h' | h'
      · cases h; cases h'; rfl
      · cases h; exact absurd hu.symm (hne h')
      · cases h'; exact absurd hu (hne h)
      · exact hd.home h h' hu
    · intro k1 o1 o2 h1' h2' hu hv'
      rcases mem_hist_commit.mp h1' with h | h <;> rcases mem_hist_commit.mp h2' with h' | h'
      · cases h; cases h'; rfl
      · cases h; exact absurd hu.symm (hne h')
      · cases h'; exact absurd hu (hne h)
      · exact hd.unique h h' hu hv'
    · intro k' s o' hs ho hu
      rcases hkeep hs with h | h <;> rcases mem_hist_commit.mp ho with h' | h'
      · cases h; cases h'; exact ⟨le_rfl, id⟩
      · cases h; exact absurd hu (hne h')
      · cases h'; exact absurd hu.symm (hne (hd.recorded h))
      · exact hd.latest h h' hu
    · intro k' s hs
      rcases hkeep hs with h | h
      · cases h; simp [hl]
      · exact hd.kept h
  | @replaced k s s' hs hu hv hdy =>
    have hkeep : ∀ {k' : Key} {t : Object k'.kind}, (d.commit k s').find k' = some t →
        (⟨k', t⟩ : (k : Key) × Object k.kind) = ⟨k, s'⟩ ∧ ¬(s'.deleting ∧ s'.finalizers = []) ∨
          k' ≠ k ∧ d.find k' = some t := by
      intro k' t ht
      by_cases hk : k' = k
      · subst hk; exact .inl ⟨by rw [(find_commit_some ht).1], (find_commit_some ht).2⟩
      · rw [find_commit_ne hk] at ht; exact .inr ⟨hk, ht⟩
    have hmem := hd.recorded hs
    refine ⟨?_, ?_, ?_, ?_, ?_, ?_⟩
    · intro k' t ht
      rcases hkeep ht with ⟨h, -⟩ | ⟨-, h⟩
      · exact List.mem_cons.mpr (.inl h)
      · exact List.mem_cons_of_mem _ (hd.recorded h)
    · intro k' o' ho
      rcases mem_hist_commit.mp ho with h | h
      · cases h; rw [hu, hv]; exact ⟨(hd.named hmem).1, by omega⟩
      · exact hd.named h
    · intro k1 k2 o1 o2 h1 h2 hu'
      rcases mem_hist_commit.mp h1 with h | h <;> rcases mem_hist_commit.mp h2 with h' | h'
      · cases h; cases h'; rfl
      · cases h; exact hd.home hmem h' (hu ▸ hu')
      · cases h'; exact hd.home h hmem (hu ▸ hu')
      · exact hd.home h h' hu'
    · -- the new state has a version that no state of the object had before
      have hnew : ∀ {o : Object k.kind}, ⟨k, o⟩ ∈ d.hist → o.uid = s'.uid →
          o.resourceVersion ≠ s'.resourceVersion := by
        intro o ho huo
        have := (hd.latest hs ho (huo.trans hu)).1
        omega
      intro k1 o1 o2 h1 h2 hu' hv'
      rcases mem_hist_commit.mp h1 with h | h <;> rcases mem_hist_commit.mp h2 with h' | h'
      · cases h; cases h'; rfl
      · cases h; exact absurd hv'.symm (hnew h' hu'.symm)
      · cases h'; exact absurd hv' (hnew h hu')
      · exact hd.unique h h' hu' hv'
    · intro k' t o' ht ho hu'
      rcases hkeep ht with ⟨h, -⟩ | ⟨hk, h⟩ <;> rcases mem_hist_commit.mp ho with h' | h'
      · cases h; cases h'; exact ⟨le_rfl, id⟩
      · cases h
        obtain ⟨hle, hdel⟩ := hd.latest hs h' (hu'.trans hu)
        exact ⟨by omega, fun h => hdy (hdel h)⟩
      · cases h'; exact absurd rfl hk
      · exact hd.latest h h' hu'
    · intro k' t ht
      rcases hkeep ht with ⟨h, hl⟩ | ⟨-, h⟩
      · cases h; exact hl
      · exact hd.kept h

/-! ### What an answer shows -/

lemma mem_items {kind : Kind} {sel : Selector} {i : Item kind} :
    i ∈ d.items kind sel ↔ d.find i.key = some i.object ∧ sel.selects i.ns i.object := by
  simp only [items, List.mem_filterMap, find]
  constructor
  · rintro ⟨⟨⟨kind', ns, name⟩, o⟩, he, hi⟩
    split at hi
    · next hk =>
      simp only at hk
      subst hk
      simp only at hi
      split at hi
      · next hsel => cases hi; exact ⟨AList.mem_lookup_iff.mpr he, hsel⟩
      · cases hi
    · cases hi
  · rintro ⟨he, hsel⟩
    exact ⟨⟨i.key, i.object⟩, AList.mem_lookup_iff.mp he, by simp [Item.key, hsel]⟩

def Shows (k : Key) (s : Object k.kind) : (o : Op) → o.Res → Prop
  | .get k', .ok t | .create k' _, .ok t | .update k' _, .ok t | .updateStatus k' _, .ok t =>
    (⟨k', t⟩ : (k : Key) × Object k.kind) = ⟨k, s⟩
  | .list _ _, .ok items =>
    ∃ i ∈ items, (⟨i.key, i.object⟩ : (k : Key) × Object k.kind) = ⟨k, s⟩
  | _, _ => False

lemma exec_shows {r : o.Res} {s : Object k.kind}
    (h : exec o x d = some (r, d')) (hs : Shows k s o r) : d.attempt x o = some (r, d') := by
  have hfail : ∀ e, ¬Shows k s o (o.fail e) := by
    intro e
    cases o <;> exact id
  rcases exec_faults h with h | ⟨rfl, -⟩ | ⟨rfl, -⟩
  · exact h
  · exact absurd hs (hfail _)
  · exact absurd hs (hfail _)

lemma exec_list {kind : Kind} {sel : Selector} {items : List (Item kind)}
    (h : exec (.list kind sel) x d = some (.ok items, d')) : items = d.items kind sel ∧ d' = d := by
  rcases exec_faults h with h | ⟨h, -⟩ | ⟨h, -⟩
  · cases h
    exact ⟨rfl, rfl⟩
  · cases h
  · cases h

lemma exec_get {s : Object k.kind}
    (h : exec (.get k) x d = some (.ok s, d')) : d.find k = some s ∧ d' = d := by
  have ha := exec_shows (o := .get k) h (show Shows k s (.get k) (.ok s) from rfl)
  simp only [attempt] at ha
  split at ha
  · cases ha
  · next ht => cases ha; exact ⟨ht, rfl⟩

lemma exec_create {o : Object k.kind} {s : Object k.kind}
    (h : exec (.create k o) x d = some (.ok s, d')) :
    d.find k = none ∧ d.fresh x.uid ∧ s = created x o ∧ d' = d.commit k s := by
  have ha := exec_shows (o := .create k o) h (show Shows k s (.create k o) (.ok s) from rfl)
  simp only [attempt] at ha
  split at ha
  · cases ha
  · next hv =>
    split at ha
    · next hf => cases ha; exact ⟨hv, hf, rfl, rfl⟩
    · cases ha

lemma exec_update {o w : Object k.kind}
    (h : exec (.update k o) x d = some (.ok w, d')) : w.uid = o.uid ∧ w.labels = o.labels := by
  have ha := exec_shows (o := .update k o) h (show Shows k w (.update k o) (.ok w) from rfl)
  rcases attempt_update ha with ⟨-, e, he⟩ | ⟨s, -, hu, -, ⟨hsame, hw, -⟩ | ⟨hw, -⟩⟩
  · cases he
  · cases hw
    exact ⟨hu, (congrArg Object.labels hsame).symm⟩
  · cases hw
    exact ⟨hu, rfl⟩

lemma exec_delete {o : Object k.kind}
    (h : exec (.delete k o) x d = some (.ok (), d')) (hv : 0 < o.resourceVersion) :
    ∃ w, ⟨k, w⟩ ∈ d'.hist ∧ w.uid = o.uid ∧ w.resourceVersion = o.resourceVersion + 1 ∧
      w.deleting = true ∧ w.labels = o.labels := by
  have ha : d.attempt x (.delete k o) = some (.ok (), d') := by
    rcases exec_faults h with h | ⟨h, -⟩ | ⟨h, -⟩
    · exact h
    · cases h
    · cases h
  simp only [attempt] at ha
  rw [if_neg (by omega)] at ha
  split at ha
  · cases ha
  · split at ha
    · cases ha
    · split at ha
      · cases ha
      · next hm =>
        obtain ⟨hu, hver⟩ := not_or.mp hm
        cases ha
        refine ⟨_, List.mem_cons_self, not_not.mp hu, ?_, rfl, rfl⟩
        exact congrArg (· + 1) (not_not.mp hver)

lemma exec_alreadyExists {o : Object k.kind}
    (h : exec (.create k o) x d = some (.error .alreadyExists, d')) : d' = d := by
  rcases exec_faults h with h | ⟨h, -⟩ | ⟨h, -⟩
  · simp only [attempt] at h
    split at h
    · cases h
      rfl
    · split at h <;> cases h
  · cases h
  · cases h

lemma Sane.shown (hd : d.Sane) {r : o.Res} {s : Object k.kind}
    (h : exec o x d = some (r, d')) (hs : Shows k s o r) : ⟨k, s⟩ ∈ d'.hist := by
  have ha := exec_shows h hs
  cases o with
  | get k' =>
    simp only [attempt] at ha
    split at ha
    · cases ha; exact absurd hs id
    · next t ht => cases ha; exact hs ▸ hd.recorded ht
  | list kind sel =>
    cases ha
    obtain ⟨i, hi, he⟩ := hs
    exact he ▸ hd.recorded (mem_items.mp hi).1
  | create k' o =>
    simp only [attempt] at ha
    split at ha
    · cases ha; exact absurd hs id
    · split at ha
      · cases ha; exact hs ▸ List.mem_cons_self
      · cases ha
  | update k' o =>
    rcases attempt_update ha with ⟨-, e, rfl⟩ | ⟨t, ht, -, -, ⟨-, rfl, rfl⟩ | ⟨rfl, rfl⟩⟩
    · exact absurd hs id
    · exact hs ▸ hd.recorded ht
    · exact hs ▸ List.mem_cons_self
  | updateStatus k' o =>
    simp only [attempt] at ha
    split at ha
    · cases ha; exact absurd hs id
    · split at ha
      · cases ha; exact absurd hs id
      · split at ha
        · cases ha; exact absurd hs id
        · next t ht =>
          split at ha
          · cases ha; exact absurd hs id
          · split at ha
            · cases ha; exact hs ▸ hd.recorded ht
            · cases ha; exact hs ▸ List.mem_cons_self
  | delete k' o => exact absurd hs id

lemma Sane.replaces (hd : d.Sane) {s o : Object k.kind}
    (hs : d.find k = some s) (ho : ⟨k, o⟩ ∈ d.hist) (hu : s.uid = o.uid)
    (hv : s.resourceVersion = o.resourceVersion) : s = o :=
  hd.unique (hd.recorded hs) ho hu hv

lemma Change.hist_mono (h : d.Change d') {e : (k : Key) × Object k.kind}
    (he : e ∈ d.hist) : e ∈ d'.hist := by
  cases h with
  | none => exact he
  | created | replaced => exact List.mem_cons_of_mem _ he

/-! ### The states of one object -/

/-- The relation holds between every state of an object and its later ones. -/
def Along (R : (k : Key) → Object k.kind → Object k.kind → Prop) (d : Store) : Prop :=
  ∀ ⦃k : Key⦄ ⦃o o' : Object k.kind⦄, ⟨k, o⟩ ∈ d.hist → ⟨k, o'⟩ ∈ d.hist → o.uid = o'.uid →
    o.resourceVersion ≤ o'.resourceVersion → R k o o'

namespace Along

variable {R R' : (k : Key) → Object k.kind → Object k.kind → Prop} {d : Store} {k : Key}

lemma empty : Along R Store.empty := by
  intro k o o' ho
  cases ho

lemma imp (h : Along R d) (hR : ∀ k o o', R k o o' → R' k o o') : Along R' d :=
  fun _ _ _ ho ho' hu hv => hR _ _ _ (h ho ho' hu hv)

lemma created (h : Along R d) {o : Object k.kind} (fresh : d.fresh o.uid) (hR : R k o o) :
    Along R (d.commit k o) := by
  intro k' o1 o2 h1 h2 hu hv
  rcases mem_hist_commit.mp h1 with h1 | h1 <;> rcases mem_hist_commit.mp h2 with h2 | h2
  · cases h1; cases h2; exact hR
  · cases h1; exact absurd hu.symm (fresh_ne fresh h2)
  · cases h2; exact absurd hu (fresh_ne fresh h1)
  · exact h h1 h2 hu hv

lemma replaced (h : Along R d) (hd : d.Sane) {s s' : Object k.kind} (stored : d.find k = some s)
    (uid : s'.uid = s.uid) (version : s'.resourceVersion = s.resourceVersion + 1)
    (hR : R k s' s') (hstep : ∀ o, ⟨k, o⟩ ∈ d.hist → o.uid = s.uid → R k o s → R k o s') :
    Along R (d.commit k s') := by
  have hmem := hd.recorded stored
  intro k' o1 o2 h1 h2 hu hv
  rcases mem_hist_commit.mp h1 with h1 | h1 <;> rcases mem_hist_commit.mp h2 with h2 | h2
  · cases h1; cases h2; exact hR
  · cases h1
    have := (hd.latest stored h2 (hu.symm.trans uid)).1
    omega
  · cases h2
    have hu1 := hu.trans uid
    exact hstep o1 h1 hu1 (h h1 hmem hu1 (hd.latest stored h1 hu1).1)
  · exact h h1 h2 hu hv

end Along

end Store

end Seaplane.Kube
