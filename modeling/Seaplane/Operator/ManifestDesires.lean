import Seaplane.Lib.Fallible
import Seaplane.Operator.Manifest

/-!
The desires of a Manifest follow its spec.

A reconcile writes the desires its spec asks for, and removes those it finds in the status and no
longer in the spec. It records the generation as observed although it may not know all desires
written before, and although a removal may have failed. What it does know is enough as long as a
change of the spec leaves every document to be either written or removed, and writes go as they are
answered.
-/

namespace Seaplane.Operator.Manifests

open Lib Kube Fleet Dynamo

/-! ### The documents of a Manifest -/

section

variable (n : NamespacedName)

def owned (k : DocKey) : Bool :=
  match k.table with
  | .applyDesires => k.id.taskKey == manifestScopedTaskKey n
  | .readDesires => k.id.taskKey == manifestScopedTaskKey n ++ "-read"

/-- The desires of the resources the templates stand for. -/
def itemsOf (item : Resource → DocKey × DesireSpec) (ts : List ResourceTemplate) :
    List (DocKey × DesireSpec) :=
  ts.filterMap fun t => (extractResourceMeta t).toOption.map item

def derived (spec : ManifestSpec) : List (DocKey × DesireSpec) :=
  itemsOf (applyItem n spec.managementCluster) spec.resources ++
    itemsOf (readItem n spec.managementCluster) spec.watched

/-- The documents of the desires derived from a spec. -/
def wanted (spec : ManifestSpec) : List DocKey := (derived n spec).map (·.1)

/-- The documents of recorded resources that are not in the spec. -/
def orphansOf (spec : ManifestSpec) (statuses : List ResourceStatus) : List DocKey :=
  (statuses.filter fun rs =>
    !(wanted n spec).contains (applyKey n spec.managementCluster (resourceOf rs))).flatMap fun rs =>
      [applyKey n spec.managementCluster (resourceOf rs),
       readKey n spec.managementCluster (resourceOf rs)]

/-- The documents that a reconcile of the Manifest removes. -/
def orphans (m : Manifest) : List DocKey :=
  if m.generation = m.status.observedGeneration then []
  else orphansOf n m.spec m.status.resourceStatuses

/-- The documents that a reconcile of the Manifest writes or removes. -/
def seenTo (m : Manifest) : List DocKey := wanted n m.spec ++ orphans n m

/-- **The desires follow the spec**: those derived from it are written, and of the Manifest's other
documents there is none but deletions. -/
structure Follows (spec : ManifestSpec) (d : Tables) : Prop where
  written {k : DocKey} {ds : DesireSpec} : (k, ds) ∈ derived n spec →
    ∃ i, d.specs.lookup k = some i ∧ i.spec = ds
  others {k : DocKey} {i : Dynamo.Item} : owned n k → k ∉ wanted n spec →
    d.specs.lookup k = some i → i.spec.isDelete

/-- Every document that a reconcile of the one would have seen to, one of the other does. -/
def leavesNone (m m' : Manifest) : Bool := (seenTo n m).all (seenTo n m').contains

end

variable {n' : NamespacedName} {spec : ManifestSpec} {o : Fleet.Op} {α : Type} {p : FleetProg α}

variable {k : DocKey} {item : Resource → DocKey × DesireSpec} {ds : DesireSpec} {m : Manifest}
  {d : Dynamo.Op} {n : NamespacedName} {s : State}

section

variable {n : NamespacedName}

lemma scoped_inj (h : manifestScopedTaskKey n = manifestScopedTaskKey n') : n = n' := by
  have hl := congrArg String.toList h
  have hsep : "/".toList = ['/'] := rfl
  simp only [manifestScopedTaskKey, String.toList_append, hsep, List.append_assoc,
    List.append_cancel_left_eq, List.cons_append, List.nil_append, List.cons.injEq, true_and] at hl
  obtain ⟨h1, -, h2⟩ :=
    (List.append_cons_inj_of_notMem n'.plain_ns n'.plain_name).mp hl.symm
  obtain ⟨ns, name, _, _⟩ := n
  obtain ⟨ns', name', _, _⟩ := n'
  cases String.toList_injective h1
  cases String.toList_injective h2
  rfl

lemma owned_unique (h : owned n k) (h' : owned n' k) : n = n' := by
  unfold owned at h h'
  split at h
  · next ht =>
    rw [ht] at h'
    exact scoped_inj ((beq_iff_eq.mp h).symm.trans (beq_iff_eq.mp h'))
  · next ht =>
    rw [ht] at h'
    have hl := (beq_iff_eq.mp h).symm.trans (beq_iff_eq.mp h')
    exact scoped_inj (String.append_left_inj _ |>.mp hl)

lemma owned_applyKey (mc : String) (m : Resource) : owned n (applyKey n mc m) := by
  simp [owned, applyKey, Resource.documentID]

lemma owned_readKey (mc : String) (m : Resource) : owned n (readKey n mc m) := by
  simp [owned, readKey, Resource.documentID]

variable {ts : List ResourceTemplate}

lemma mem_itemsOf {a : DocKey × DesireSpec} :
    a ∈ itemsOf item ts ↔ ∃ t ∈ ts, ∃ m, extractResourceMeta t = .ok m ∧ item m = a := by
  unfold itemsOf
  rw [List.mem_filterMap]
  refine exists_congr fun t => and_congr_right fun _ => ?_
  cases extractResourceMeta t with
  | error e | ok m => simp [Except.toOption]

lemma mem_keys :
    k ∈ (itemsOf item ts).map (·.1) ↔
      ∃ t ∈ ts, ∃ m, extractResourceMeta t = .ok m ∧ (item m).1 = k := by
  rw [List.mem_map]
  constructor
  · rintro ⟨a, ha, rfl⟩
    obtain ⟨t, ht, m, hm, rfl⟩ := mem_itemsOf.mp ha
    exact ⟨t, ht, m, hm, rfl⟩
  · rintro ⟨t, ht, m, hm, rfl⟩
    exact ⟨_, mem_itemsOf.mpr ⟨t, ht, m, hm, rfl⟩, rfl⟩

lemma mem_wanted : k ∈ wanted n spec ↔
    (∃ t ∈ spec.resources, ∃ m, extractResourceMeta t = .ok m ∧
      applyKey n spec.managementCluster m = k) ∨
    ∃ t ∈ spec.watched, ∃ m, extractResourceMeta t = .ok m ∧
      readKey n spec.managementCluster m = k := by
  unfold wanted derived
  rw [List.map_append, List.mem_append]
  exact or_congr mem_keys mem_keys

lemma owned_of_wanted (h : k ∈ wanted n spec) : owned n k := by
  rcases mem_wanted.mp h with ⟨t, -, m, -, rfl⟩ | ⟨t, -, m, -, rfl⟩
  · exact owned_applyKey _ m
  · exact owned_readKey _ m

lemma mem_wanted_of_derived (h : (k, ds) ∈ derived n spec) :
    k ∈ wanted n spec := List.mem_map.mpr ⟨_, h, rfl⟩

end

/-! ### What an operation does -/

section

variable {n : NamespacedName} {x : Fleet.Choice} {s s' : State}

end

/-! ### What is always so -/

/-- A Manifest is not being deleted, its spec names every document once, and every document there is
will be seen to; before it is created there is none. -/
structure Inv (n : NamespacedName) (s : State) : Prop where
  absent {k : DocKey} : s.store.find n.key = none → owned n k → s.tables.specs.lookup k = none
  alive {m : Manifest} : s.store.find n.key = some m → m.deleting = false
  distinct {m : Manifest} : s.store.find n.key = some m → (wanted n m.spec).Nodup
  seen {m : Manifest} {k : DocKey} {i : Dynamo.Item} : s.store.find n.key = some m → owned n k →
    s.tables.specs.lookup k = some i → k ∈ seenTo n m

/-- The cache holds what the table holds, except for some documents. -/
def Coherent (n : NamespacedName) (except : List DocKey) (s : State) : Prop :=
  ∀ k, owned n k → k ∉ except → ∀ i, s.tables.cache.lookup k = some i →
    s.tables.specs.lookup k = some i

structure Supersedes (n : NamespacedName) (m m' : Manifest) : Prop where
  alive : m'.deleting = m.deleting
  later : m.resourceVersion < m'.resourceVersion
  distinct : (wanted n m'.spec).Nodup
  seen {k : DocKey} : k ∈ seenTo n m → k ∈ seenTo n m'

inductive Edited (n : NamespacedName) (old new : Option Manifest) : Prop where
  | none (h : new = old)
  | created {m : Manifest} (h0 : old = none) (h1 : new = some m) (alive : m.deleting = false)
      (distinct : (wanted n m.spec).Nodup)
  | superseded {m m' : Manifest} (h0 : old = some m) (h1 : new = some m') (h : Supersedes n m m')

/-- What happens to a Manifest and its documents outside its own reconciles. -/
structure Disturbed (n : NamespacedName) (s s' : State) : Prop where
  specs {k : DocKey} : owned n k →
    s'.tables.specs.lookup k = s.tables.specs.lookup k
  cache {k : DocKey} {i : Dynamo.Item} : owned n k → s'.tables.cache.lookup k = some i →
    s.tables.cache.lookup k = some i
  manifest : Edited n (s.store.find n.key) (s'.store.find n.key)

section

variable {n : NamespacedName} {x : Fleet.Choice} {s s' : State}

lemma inv_of_find (hm : s.store.find n.key = some m) (alive : m.deleting = false)
    (distinct : (wanted n m.spec).Nodup)
    (seen : ∀ {k i}, owned n k → s.tables.specs.lookup k = some i → k ∈ seenTo n m) : Inv n s := by
  refine ⟨fun hf => ?_, fun hf => ?_, fun hf => ?_, fun hf hk hi => ?_⟩ <;> cases hm.symm.trans hf
  · exact alive
  · exact distinct
  · exact seen hk hi

lemma Inv.disturb (h : Inv n s) (hd : Disturbed n s s') : Inv n s' := by
  cases hd.manifest with
  | none hm =>
    refine ⟨fun hf hk => ?_, fun hf => ?_, fun hf => ?_, fun hf hk hi => ?_⟩
    · rw [hd.specs hk]
      exact h.absent (hm ▸ hf) hk
    · exact h.alive (hm ▸ hf)
    · exact h.distinct (hm ▸ hf)
    · rw [hd.specs hk] at hi
      exact h.seen (hm ▸ hf) hk hi
  | created h0 h1 alive distinct =>
    refine inv_of_find h1 alive distinct fun hk hi => ?_
    rw [hd.specs hk, h.absent h0 hk] at hi
    cases hi
  | superseded h0 h1 hs =>
    refine inv_of_find h1 (hs.alive.trans (h.alive h0)) hs.distinct fun hk hi => ?_
    rw [hd.specs hk] at hi
    exact hs.seen (h.seen h0 hk hi)

lemma Coherent.disturb {except : List DocKey} (h : Coherent n except s) (hd : Disturbed n s s') :
    Coherent n except s' := by
  intro k hk hne i hi
  rw [hd.specs hk]
  exact h k hk hne i (hd.cache hk hi)

lemma Disturbed.same (hs : s'.store = s.store) (ht : s'.tables = s.tables) : Disturbed n s s' :=
  ⟨fun _ => by rw [ht], fun _ hi => by rwa [ht] at hi, .none (by rw [hs])⟩

lemma Disturbed.did (hs : s'.store = s.store) (hd : s.tables.Did d s'.tables)
    (ht : ∀ k, owned n k → d.touches k = false) : Disturbed n s s' :=
  ⟨fun hk => (hd.frame (ht _ hk)).1, fun hk hi => (hd.frame (ht _ hk)).2 ▸ hi, .none (by rw [hs])⟩

lemma Supersedes.updated {m' : Manifest} (hn : (wanted n m'.spec).Nodup)
    (hl : leavesNone n m (Store.updated m m')) :
    Supersedes n m (Store.next (Store.updated m m')) := by
  refine ⟨rfl, Nat.lt_succ_self _, hn, fun {k} hk => ?_⟩
  exact List.contains_iff_mem.mp (List.all_eq_true.mp hl k hk)

/-- What is done outside the reconciles of the Manifest. -/
def Outside (n : NamespacedName) : Fleet.Op → Prop
  | .kube op => ∀ m, op ≠ .updateStatus n.key m
  | .dynamo d => d = .resetCache ∨ ∀ k, owned n k → d.touches k = false
  | _ => True

end

/-! ### What a reconcile knows -/

/-- The Manifest that was read is the stored one, or an earlier state of it. -/
structure Later (n : NamespacedName) (m0 m : Manifest) : Prop where
  version : m0.resourceVersion ≤ m.resourceVersion
  same : m.resourceVersion = m0.resourceVersion → m = m0
  seen {k : DocKey} : k ∈ seenTo n m0 → k ∈ seenTo n m

/-- The reconcile of `m0` has written the documents of one list and removed those of another. -/
structure Holding (n : NamespacedName) (m0 : Manifest) (written removed except : List DocKey)
    (s : State) : Prop where
  later : ∃ m, s.store.find n.key = some m ∧ Later n m0 m
  written {k : DocKey} : k ∈ written → owned n k ∧
    ∃ i, s.tables.specs.lookup k = some i ∧ (k, i.spec) ∈ derived n m0.spec
  removed {k : DocKey} : k ∈ removed → owned n k ∧ s.tables.specs.lookup k = none
  cache : Coherent n except s

section

variable {n : NamespacedName} {m0 m : Manifest} {W R E : List DocKey} {k : DocKey}
  {i : Dynamo.Item} {x : Fleet.Choice} {s s' : State}

lemma Later.supersede {m' : Manifest} (h : Later n m0 m) (hs : Supersedes n m m') :
    Later n m0 m' := by
  have hlt := hs.later
  have hle := h.version
  refine ⟨by omega, fun heq => ?_, fun hk => hs.seen (h.seen hk)⟩
  omega

lemma Holding.disturb (h : Holding n m0 W R E s) (hd : Disturbed n s s') :
    Holding n m0 W R E s' := by
  obtain ⟨m, hf, hl⟩ := h.later
  refine ⟨?_, fun hk => ?_, fun hk => ?_, h.cache.disturb hd⟩
  · cases hd.manifest with
    | none hm => exact ⟨m, hm.trans hf, hl⟩
    | created h0 => cases h0.symm.trans hf
    | superseded h0 h1 hs =>
      cases h0.symm.trans hf
      exact ⟨_, h1, hl.supersede hs⟩
  · obtain ⟨ho, i, hi, hder⟩ := h.written hk
    exact ⟨ho, i, (hd.specs ho).trans hi, hder⟩
  · obtain ⟨ho, hn⟩ := h.removed hk
    exact ⟨ho, (hd.specs ho).trans hn⟩

lemma Holding.stable : Stable (Inv n) (Disturbed n) (Holding n m0 W R E) :=
  fun _ _ _ _ hd h => h.disturb hd

lemma Holding.mono {W' R' : List DocKey} (h : Holding n m0 W R E s) (hw : W' ⊆ W) (hr : R' ⊆ R) :
    Holding n m0 W' R' E s :=
  ⟨h.later, fun hk => h.written (hw hk), fun hk => h.removed (hr hk), h.cache⟩

lemma Holding.also (h : Holding n m0 W R E s) (hk : s.tables.specs.lookup k = some i)
    (hd : (k, i.spec) ∈ derived n m0.spec) : Holding n m0 (k :: W) R E s := by
  refine ⟨h.later, fun {k'} hk' => ?_, h.removed, h.cache⟩
  rcases List.mem_cons.mp hk' with rfl | hk'
  · exact ⟨owned_of_wanted (mem_wanted_of_derived hd), i, hk, hd⟩
  · exact h.written hk'

lemma Holding.gone (h : Holding n m0 W R E s) (ho : owned n k)
    (hk : s.tables.specs.lookup k = none) : Holding n m0 W (k :: R) E s := by
  refine ⟨h.later, h.written, fun {k'} hk' => ?_, h.cache⟩
  rcases List.mem_cons.mp hk' with rfl | hk'
  · exact ⟨ho, hk⟩
  · exact h.removed hk'

/-! ### The steps of a reconcile -/

/-- Nothing but one document changes. -/
structure Near (k : DocKey) (s s' : State) : Prop where
  store : s'.store = s.store
  frame {k' : DocKey} : k' ≠ k → s'.tables.specs.lookup k' = s.tables.specs.lookup k' ∧
    s'.tables.cache.lookup k' = s.tables.cache.lookup k'

lemma Inv.write (hI : Inv n s) (h : Holding n m0 W R E s) (hn : Near k s s')
    (hk : ∀ i, s'.tables.specs.lookup k = some i →
      (∃ j, s.tables.specs.lookup k = some j) ∨ k ∈ seenTo n m0) : Inv n s' := by
  obtain ⟨m, hf, hl⟩ := h.later
  refine inv_of_find (hn.store ▸ hf) (hI.alive hf) (hI.distinct hf) fun {k' i} ho hi => ?_
  by_cases hkk : k' = k
  · subst hkk
    rcases hk i hi with ⟨j, hj⟩ | hk
    · exact hI.seen hf ho hj
    · exact hl.seen hk
  · rw [(hn.frame hkk).1] at hi
    exact hI.seen hf ho hi

end

/-- The stored Manifest is the one that was read. -/
def current (stored read : Manifest) : Bool :=
  stored.uid == read.uid && stored.resourceVersion == read.resourceVersion

/-- A status that is written over the one that was read is recorded where the desires follow the
spec. -/
def Records (n : NamespacedName) (o : Fleet.Op) (s s' : State) : Prop :=
  ∀ m0, o = .kube (.updateStatus n.key m0) → (s.store.find n.key).any (current · m0) →
    ∀ m, s'.store.find n.key = some m → Follows n m.spec s'.tables

lemma Outside.records {s' : State} (h : Outside n o) : Records n o s s' := by
  rintro m0 rfl
  exact absurd rfl (h m0)

section

variable {n : NamespacedName} {m0 : Manifest} {W R : List DocKey} {k : DocKey} {ds : DesireSpec}

variable {Q : α → State → Prop}

lemma Coherent.stable {E : List DocKey} : Stable (Inv n) (Disturbed n) (Coherent n E) :=
  fun _ _ _ _ hd h => h.disturb hd

lemma Inv.replace {m' : Manifest} {s' : State} (hI : Inv n s) (ht : s'.tables = s.tables)
    (hm : s.store.find n.key = some m) (hm' : s'.store.find n.key = some m')
    (hdel : m'.deleting = m.deleting) (hspec : m'.spec = m.spec)
    (hseen : ∀ {k i}, owned n k → s.tables.specs.lookup k = some i → k ∈ seenTo n m') :
    Inv n s' := by
  refine inv_of_find hm' (hdel.trans (hI.alive hm)) ?_ fun hk hi => ?_
  · rw [hspec]
    exact hI.distinct hm
  · rw [ht] at hi
    exact hseen hk hi

end

/-! ### The reconciles of other Manifests -/

/-- The operation is about the Manifest and its documents only. -/
def About (n : NamespacedName) : Fleet.Op → Prop
  | .kube op => ∀ k m, op = .updateStatus k m → k = n.key
  | .dynamo d => ∀ k, d.touches k = true → owned n k
  | _ => True

lemma About.outside (h : About n' o) (hn : n' ≠ n) : Outside n o := by
  cases o with
  | kube op =>
    intro m he
    obtain ⟨ns, name, _, _⟩ := n
    obtain ⟨ns', name', _, _⟩ := n'
    cases h _ m he
    exact hn rfl
  | dynamo d =>
    refine .inr fun k hk => ?_
    by_contra ht
    exact hn (owned_unique (h k (by simpa using ht)) hk)
  | infra | check | now => trivial

section

variable {n : NamespacedName} {k : DocKey}

end

/-! ### All tasks -/

section

variable {n : NamespacedName} {l : Task}

variable {es : List (ℕ × Event)} {c c' : TaskConf}

/-- The `i`-th task, in its step from `c` to `c'`, writes a status over the one that it was computed
from, and the Manifest, now `m`, has its generation recorded as observed. -/
def Recorded (n : NamespacedName) (i : ℕ) (c c' : TaskConf) (m : Manifest) :
    Prop :=
  controllers.Act i c c' ∧
  (∃ l m0 f, c.pool[i]? = some ⟨l, .op (.kube (.updateStatus n.key m0)) f⟩ ∧
    (c.store.store.find n.key).any (current · m0)) ∧
  c'.store.store.find n.key = some m ∧ m.status.observedGeneration = m.generation

end

/-! ### Runs -/

def writes (n : NamespacedName) (t : Thread Fleet.Op Fleet.Op.Res Task Unit) : Option Manifest :=
  match t.prog with
  | .op (.kube (.updateStatus ⟨.manifest, ns, name⟩ m0)) _ =>
    if ns = n.ns ∧ name = n.name then some m0 else none
  | _ => none

/-- The Manifest as a task records it with its next step. -/
def recorded (n : NamespacedName) (i : ℕ) (c : TaskConf) :
    Option (Manifest × Tables) :=
  ((c.pool[i]?).bind (writes n)).bind fun m0 =>
    if (c.store.store.find n.key).any (current · m0) then
      (controllers.next (.act i {}) c).bind fun c' => (c'.store.store.find n.key).bind fun m =>
        if m.status.observedGeneration = m.generation then some (m, c'.store.tables) else none
    else none

/-- The `i`-th task with its first operations, all of which go through. -/
def does (i : ℕ) (l : Task) (ops : ℕ) : List (System.Event Fleet.Choice Task) :=
  .spawn l :: List.replicate ops (.act i { uid := "u", now := second })

end Seaplane.Operator.Manifests
