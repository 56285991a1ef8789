import Seaplane.Operator.Manifest

/-!
The IDs of the documents the operator writes, and the router of their status events.

A document ID is the hash of a task key and the resource the document is about, joined by slashes.
The task key says who wrote it: one for all Clusters and NodePools, whose resources lie in a
namespace of their own, and one for each Manifest; documents of reads have a suffix after it. The
router knows a document by its ID only.
-/

namespace Seaplane.Operator.Documents

open Kube Dynamo Operator.Manifests

/-! ### What is hashed -/

/-- Who writes a document: a Cluster, a NodePool of a Cluster, or a Manifest. -/
inductive Owner where
  | cluster (uid : Uid)
  | nodePool (clusterUID : Uid) (child : String)
  | manifest (n : NamespacedName)
  deriving DecidableEq

/-- A document: whose it is, whether it applies or reads, and what it is about. -/
structure Desire where
  owner : Owner
  table : Table
  target : ResourceReference
  deriving DecidableEq

def Owner.taskKey : Owner → String
  | .cluster _ | .nodePool _ _ => Operator.taskKey
  | .manifest n => manifestScopedTaskKey n

def Desire.taskKey (d : Desire) : String :=
  match d.table with
  | .applyDesires => d.owner.taskKey
  | .readDesires => d.owner.taskKey ++ "-read"

/-- What `NewDocumentID` hashes. -/
def documentInput (taskKey : String) (t : ResourceReference) : String :=
  taskKey ++ "/" ++ t.group ++ "/" ++ t.version ++ "/" ++ t.resource ++ "/" ++ t.ns ++ "/" ++ t.name

def Desire.input (d : Desire) : String := documentInput d.taskKey d.target

/-- No part of a resource's name has a slash. -/
structure Plain (t : ResourceReference) : Prop where
  group : '/' ∉ t.group.toList
  version : '/' ∉ t.version.toList
  resource : '/' ∉ t.resource.toList
  ns : '/' ∉ t.ns.toList
  name : '/' ∉ t.name.toList

/-- The documents the operator can write. A Cluster applies what `ClusterResources` renders and
reads its HostedCluster, a NodePool applies and reads the one it renders, a Manifest anything. -/
def Desire.Written (d : Desire) : Prop :=
  match d.owner, d.table with
  | .cluster uid, .applyDesires => ∃ (p : Params) (name : String) (cluster : Object .cluster)
      (external : Bool) (baseDomain : String) (ms : List Resource) (m : Resource),
      cluster.uid = uid ∧ clusterResources p name cluster external baseDomain = some ms ∧ m ∈ ms ∧
        d.target = m.reference
  | .cluster uid, .readDesires =>
    ∃ hcName, d.target = (hostedClusterResource uid hcName .null).reference
  | .nodePool uid child, _ => d.target = (nodePoolResourceNamed uid child .null).reference
  | .manifest _, _ => True

/-! ### The parts are read off what is hashed -/

lemma append_slash_inj {x x' y y' : List Char} (hy : '/' ∉ y) (hy' : '/' ∉ y')
    (h : x ++ '/' :: y = x' ++ '/' :: y') : x = x' ∧ y = y' := by
  rcases List.append_eq_append_iff.mp h with ⟨z, rfl, hz⟩ | ⟨z, rfl, hz⟩
  · cases z with
    | nil => simpa using hz
    | cons c z =>
      obtain ⟨-, rfl⟩ := List.cons.inj hz
      exact absurd (List.mem_append_right z List.mem_cons_self) hy
  · cases z with
    | nil => simpa [eq_comm] using hz
    | cons c z =>
      obtain ⟨-, rfl⟩ := List.cons.inj hz
      exact absurd (List.mem_append_right z List.mem_cons_self) hy'

lemma slash_inj {x x' y y' : String} (hy : '/' ∉ y.toList) (hy' : '/' ∉ y'.toList)
    (h : x ++ "/" ++ y = x' ++ "/" ++ y') : x = x' ∧ y = y' := by
  have hl := congrArg String.toList h
  have hsep : "/".toList = ['/'] := rfl
  simp only [String.toList_append, hsep, List.append_assoc, List.cons_append, List.nil_append] at hl
  obtain ⟨hx, hy⟩ := append_slash_inj hy hy' hl
  exact ⟨String.toList_injective hx, String.toList_injective hy⟩

variable {t : ResourceReference} {n n' : NamespacedName} {x y : Desire} {k k' : Table} {o : Owner}

lemma documentInput_inj {k k' : String} {t' : ResourceReference} (ht : Plain t) (ht' : Plain t')
    (h : documentInput k t = documentInput k' t') : k = k' ∧ t = t' := by
  unfold documentInput at h
  obtain ⟨h, hname⟩ := slash_inj ht.name ht'.name h
  obtain ⟨h, hns⟩ := slash_inj ht.ns ht'.ns h
  obtain ⟨h, hresource⟩ := slash_inj ht.resource ht'.resource h
  obtain ⟨h, hversion⟩ := slash_inj ht.version ht'.version h
  obtain ⟨h, hgroup⟩ := slash_inj ht.group ht'.group h
  refine ⟨h, ?_⟩
  obtain ⟨g, v, r, ns, name⟩ := t
  obtain ⟨g', v', r', ns', name'⟩ := t'
  simp only at hname hns hresource hversion hgroup
  subst hname hns hresource hversion hgroup
  rfl

/-! ### Task keys -/

lemma not_mem_append_read {s : String} (h : '/' ∉ s.toList) : '/' ∉ (s ++ "-read").toList := by
  rw [String.toList_append, List.mem_append, not_or]
  exact ⟨h, by decide⟩

lemma scoped_append_inj {suffix suffix' : String} (hs : '/' ∉ (n.name ++ suffix).toList)
    (hs' : '/' ∉ (n'.name ++ suffix').toList)
    (h : manifestScopedTaskKey n ++ suffix = manifestScopedTaskKey n' ++ suffix') :
    n.ns = n'.ns ∧ n.name ++ suffix = n'.name ++ suffix' := by
  have hkey : ∀ (m : NamespacedName) (t : String), manifestScopedTaskKey m ++ t =
      manifestTaskKey ++ "/" ++ m.ns ++ "/" ++ (m.name ++ t) := by
    intro m t
    exact String.append_assoc
  rw [hkey, hkey] at h
  obtain ⟨h, hname⟩ := slash_inj hs hs' h
  exact ⟨(slash_inj n.plain_ns n'.plain_ns h).2, hname⟩

lemma namespacedName_ext (hns : n.ns = n'.ns) (hname : n.name = n'.name) : n = n' := by
  cases n
  cases n'
  cases hns
  cases hname
  rfl

lemma append_right_inj {s s' t : String} (h : s ++ t = s' ++ t) : s = s' := by
  have hl := congrArg String.toList h
  rw [String.toList_append, String.toList_append, List.append_left_inj] at hl
  exact String.toList_injective hl

lemma append_read_ne (s : String) : s ++ "-read" ≠ s := by
  intro h
  have hlen := congrArg String.length h
  have hread : "-read".length = 5 := by decide
  rw [String.length_append, hread] at hlen
  omega

lemma scoped_append_ne {suffix k : String} (hk : '/' ∉ k.toList) :
    manifestScopedTaskKey n ++ suffix ≠ k := by
  rintro rfl
  refine hk ?_
  simp [manifestScopedTaskKey]

/-- The first reads what the second, a Manifest of that name with the suffix, applies. -/
def Shadows (x y : Desire) : Prop :=
  ∃ n n' : NamespacedName, x.owner = .manifest n ∧ y.owner = .manifest n' ∧ n'.ns = n.ns ∧
    n'.name = n.name ++ "-read" ∧ x.table = .readDesires ∧ y.table = .applyDesires ∧
    x.target = y.target

lemma Shadows.input_eq (h : Shadows x y) : x.input = y.input := by
  obtain ⟨n, n', hx, hy, hns, hname, htx, hty, ht⟩ := h
  have hkey : manifestScopedTaskKey n ++ "-read" = manifestScopedTaskKey n' := by
    unfold manifestScopedTaskKey
    rw [hns, hname, ← String.append_assoc]
  simp only [Desire.input, Desire.taskKey, htx, hty, hx, hy, Owner.taskKey, hkey, ht]

lemma Shadows.ne (h : Shadows x y) : x ≠ y := by
  rintro rfl
  obtain ⟨n, n', -, -, -, -, htx, hty, -⟩ := h
  cases htx.symm.trans hty

lemma manifest_input_eq
    (h : (Desire.mk (.manifest n) k t).taskKey = (Desire.mk (.manifest n') k' t).taskKey) :
    (n = n' ∧ k = k') ∨ Shadows ⟨.manifest n, k, t⟩ ⟨.manifest n', k', t⟩ ∨
      Shadows ⟨.manifest n', k', t⟩ ⟨.manifest n, k, t⟩ := by
  have happ (m : NamespacedName) : manifestScopedTaskKey m = manifestScopedTaskKey m ++ "" := by
    simp
  have hplain (m : NamespacedName) : '/' ∉ (m.name ++ "").toList := by simpa using m.plain_name
  have hread (m : NamespacedName) := not_mem_append_read m.plain_name
  cases k <;> cases k' <;> simp only [Desire.taskKey, Owner.taskKey] at h
  case applyDesires.applyDesires =>
    rw [happ n, happ n'] at h
    obtain ⟨hns, hname⟩ := scoped_append_inj (hplain n) (hplain n') h
    exact .inl ⟨namespacedName_ext hns (append_right_inj hname), rfl⟩
  case applyDesires.readDesires =>
    rw [happ n] at h
    obtain ⟨hns, hname⟩ := scoped_append_inj (hplain n) (hread n') h
    exact .inr (.inr ⟨n', n, rfl, rfl, hns, by simpa using hname, rfl, rfl, rfl⟩)
  case readDesires.applyDesires =>
    rw [happ n'] at h
    obtain ⟨hns, hname⟩ := scoped_append_inj (hread n) (hplain n') h
    exact .inr (.inl ⟨n, n', rfl, rfl, hns.symm, by simpa using hname.symm, rfl, rfl, rfl⟩)
  case readDesires.readDesires =>
    obtain ⟨hns, hname⟩ := scoped_append_inj (hread n) (hread n') h
    exact .inl ⟨namespacedName_ext hns (append_right_inj hname), rfl⟩

/-! ### The operator's own documents -/

lemma managementNamespace_inj {u u' : Uid} (h : managementNamespace u = managementNamespace u') :
    u = u' := by
  have hl := congrArg String.toList h
  simp only [managementNamespace, String.toList_append, List.append_cancel_left_eq] at hl
  exact String.toList_injective hl

/-- Where the resources of a Cluster are: in its namespace, or they are that namespace. None of them
is a NodePool. -/
def AtHome (uid : Uid) (t : ResourceReference) : Prop :=
  t.resource ≠ "nodepools" ∧
    (t.ns = managementNamespace uid ∨ t.ns = "" ∧ t.name = managementNamespace uid)

lemma managementNamespace_ne_empty (u : Uid) : managementNamespace u ≠ "" := by
  intro h
  have hl := congrArg String.toList h
  simp [managementNamespace] at hl

lemma AtHome.uid_eq {u u' : Uid} (h : AtHome u t) (h' : AtHome u' t) : u = u' := by
  obtain ⟨-, hns | ⟨hns, hname⟩⟩ := h <;> obtain ⟨-, hns' | ⟨hns', hname'⟩⟩ := h'
  · exact managementNamespace_inj (hns.symm.trans hns')
  · exact absurd (hns.symm.trans hns') (managementNamespace_ne_empty u)
  · exact absurd (hns'.symm.trans hns) (managementNamespace_ne_empty u')
  · exact managementNamespace_inj (hname.symm.trans hname')

lemma atHome_clusterResources {p : Params} {name : String} {cluster : Object .cluster}
    {external : Bool} {baseDomain : String} {ms : List Resource} {m : Resource}
    (hms : clusterResources p name cluster external baseDomain = some ms) (hm : m ∈ ms) :
    AtHome cluster.uid m.reference := by
  simp only [clusterResources] at hms
  split at hms
  · cases hms
  · obtain ⟨hc, -, rfl⟩ := Option.map_eq_some_iff.mp hms
    simp only [List.mem_append, List.mem_cons, List.not_mem_nil, or_false] at hm
    have named {r : Resource} (hr : r.resource ≠ "nodepools")
        (hns : r.ns = managementNamespace cluster.uid) : AtHome cluster.uid r.reference :=
      ⟨hr, .inl hns⟩
    rcases hm with (((rfl | rfl | rfl | rfl | rfl | rfl) | hm) | hm)
    · exact ⟨by simp [Resource.reference], .inr ⟨rfl, rfl⟩⟩
    iterate 3 exact named (by simp) rfl
    · exact named (by simp [hostedClusterResource]) rfl
    · exact named (by simp) rfl
    all_goals
      split at hm
      · obtain rfl := List.mem_singleton.mp hm
        exact named (by simp) rfl
      · cases hm

lemma Desire.Written.atHome {uid : Uid} (h : (Desire.mk (.cluster uid) k t).Written) :
    AtHome uid t := by
  cases k with
  | applyDesires =>
    obtain ⟨p, name, cluster, external, baseDomain, ms, m, rfl, hms, hm, ht⟩ := h
    change t = m.reference at ht
    subst ht
    exact atHome_clusterResources hms hm
  | readDesires =>
    obtain ⟨hcName, ht⟩ := h
    change t = _ at ht
    subst ht
    exact ⟨by simp [Resource.reference, hostedClusterResource], .inl rfl⟩

lemma Desire.Written.of_nodePool {uid : Uid} {child : String}
    (h : (Desire.mk (.nodePool uid child) k t).Written) :
    t.resource = "nodepools" ∧ t.ns = managementNamespace uid ∧ t.name = child := by
  have ht : t = (nodePoolResourceNamed uid child .null).reference := by
    cases k <;> exact h
  subst ht
  exact ⟨rfl, rfl, rfl⟩

def Owner.own : Owner → Bool
  | .cluster _ | .nodePool _ _ => true
  | .manifest _ => false

lemma Owner.own_taskKey (ho : o.own = true) : o.taskKey = Operator.taskKey := by
  cases o with
  | cluster uid | nodePool uid child => rfl
  | manifest n => cases ho

lemma Owner.exists_of_not_own (ho : o.own = false) : ∃ n, o = .manifest n := by
  cases o with
  | cluster uid | nodePool uid child => cases ho
  | manifest n => exact ⟨n, rfl⟩

lemma own_eq {o' : Owner} (ho : o.own = true) (ho' : o'.own = true) (h : (Desire.mk o k t).Written)
    (h' : (Desire.mk o' k' t).Written) : o = o' := by
  cases o with
  | manifest n => cases ho
  | cluster uid =>
    cases o' with
    | manifest n => cases ho'
    | cluster uid' => rw [h.atHome.uid_eq h'.atHome]
    | nodePool uid' child' => exact absurd h'.of_nodePool.1 h.atHome.1
  | nodePool uid child =>
    obtain ⟨hr, hns, hname⟩ := h.of_nodePool
    cases o' with
    | manifest n => cases ho'
    | cluster uid' => exact absurd hr h'.atHome.1
    | nodePool uid' child' =>
      obtain ⟨-, hns', hname'⟩ := h'.of_nodePool
      rw [managementNamespace_inj (hns.symm.trans hns'), hname.symm.trans hname']

lemma own_table_eq {o' : Owner} (ho : o.own = true) (ho' : o'.own = true)
    (h : (Desire.mk o k t).taskKey = (Desire.mk o' k' t).taskKey) : k = k' := by
  simp only [Desire.taskKey, Owner.own_taskKey ho, Owner.own_taskKey ho'] at h
  cases k <;> cases k'
  · rfl
  · exact absurd h.symm (append_read_ne _)
  · exact absurd h (append_read_ne _)
  · rfl

lemma own_ne_manifest (ho : o.own = true) :
    (Desire.mk (.manifest n) k' t).taskKey ≠ (Desire.mk o k t).taskKey := by
  have hplain : '/' ∉ (Desire.mk o k t).taskKey.toList := by
    cases k <;> simp only [Desire.taskKey, Owner.own_taskKey ho] <;> decide
  cases k' with
  | applyDesires =>
    intro h
    exact scoped_append_ne hplain (String.append_empty.trans h)
  | readDesires => exact scoped_append_ne hplain

/-- What the operator can write is told apart by what is hashed, but for a Manifest's reads and what
the Manifest named so with the suffix applies. -/
lemma input_eq_iff (hx : x.Written) (hy : y.Written) (hpx : Plain x.target) (hpy : Plain y.target) :
    x.input = y.input ↔ x = y ∨ Shadows x y ∨ Shadows y x := by
  constructor
  · intro h
    obtain ⟨hk, ht⟩ := documentInput_inj hpx hpy h
    obtain ⟨o, k, t⟩ := x
    obtain ⟨o', k', t'⟩ := y
    change t = t' at ht
    subst ht
    -- By the owners: the operator's own, a Manifest and one of these, or two Manifests.
    cases ho : o.own <;> cases ho' : o'.own
    · obtain ⟨n, rfl⟩ := Owner.exists_of_not_own ho
      obtain ⟨n', rfl⟩ := Owner.exists_of_not_own ho'
      rcases manifest_input_eq hk with ⟨rfl, rfl⟩ | h | h
      · exact .inl rfl
      · exact .inr (.inl h)
      · exact .inr (.inr h)
    · obtain ⟨n, rfl⟩ := Owner.exists_of_not_own ho
      exact absurd hk (own_ne_manifest ho')
    · obtain ⟨n', rfl⟩ := Owner.exists_of_not_own ho'
      exact absurd hk.symm (own_ne_manifest ho)
    · rw [own_eq ho ho' hx hy, own_table_eq ho ho' hk]
      exact .inl rfl
  · rintro (rfl | h | h)
    · rfl
    · exact h.input_eq
    · exact h.input_eq.symm

/-! ### The event router -/

/-- The controller that is to run, and on what. -/
inductive Channel where
  | cluster
  | nodePool
  | manifest
  deriving DecidableEq

structure EventTarget where
  channel : Channel
  ns : String
  name : String
  deriving DecidableEq

/-- `EventRouter`: where the events of a document go. -/
abbrev EventRouter := String → Option EventTarget

namespace EventRouter

def new : EventRouter := fun _ => none

def register (r : EventRouter) (docID : String) (target : EventTarget) : EventRouter :=
  Function.update r docID (some target)

def deregister (r : EventRouter) (docID : String) : EventRouter :=
  Function.update r docID none

def lookup (r : EventRouter) (docID : String) : Option EventTarget := r docID

end EventRouter

section Routing

-- The hash, and the Kubernetes name of the Cluster with a UID.
variable (newSHA1 : String → String) (home : Uid → String × String)

def Desire.docID (d : Desire) : String := newSHA1 d.input

/-- The one to reconcile when the document's status changes. -/
def Owner.eventTarget : Owner → EventTarget
  | .cluster uid => ⟨.cluster, (home uid).1, (home uid).2⟩
  | .nodePool uid child => ⟨.nodePool, (home uid).1, (home uid).2 ++ "." ++ child⟩
  | .manifest n => ⟨.manifest, n.ns, n.name⟩

/-- What a controller does with the router. Only the Manifests' reads are taken out. -/
inductive Route where
  | register (d : Desire)
  | deregister (d : Desire)
  deriving DecidableEq

def Route.Of (written : Set Desire) : Route → Prop
  | .register d => d ∈ written
  | .deregister d => d ∈ written ∧ d.owner.own = false ∧ d.table = .readDesires

def route (r : EventRouter) : Route → EventRouter
  | .register d => r.register (d.docID newSHA1) (d.owner.eventTarget home)
  | .deregister d => r.deregister (d.docID newSHA1)

/-- What became of a document's route if it is its own owner that decides. -/
def ownRoute (x : Desire) (o : Option EventTarget) : Route → Option EventTarget
  | .register d => if d = x then some (x.owner.eventTarget home) else o
  | .deregister d => if d = x then none else o

/-- Document IDs tell the documents apart, and each document's events go where its own owner wants
them. -/
structure Unambiguous (written : Set Desire) : Prop where
  input_ne : ∀ x ∈ written, ∀ y ∈ written, x ≠ y → x.input ≠ y.input
  lookup_eq : ∀ rs : List Route, (∀ a ∈ rs, a.Of written) → ∀ x ∈ written,
    (rs.foldl (route newSHA1 home) .new).lookup (x.docID newSHA1) =
      rs.foldl (ownRoute home x) none

variable {newSHA1} {home}

lemma lookup_route {r : EventRouter} {a : Route}
    (h : ∀ d, a = .register d ∨ a = .deregister d → d ≠ x → d.docID newSHA1 ≠ x.docID newSHA1) :
    (route newSHA1 home r a).lookup (x.docID newSHA1) =
      ownRoute home x (r.lookup (x.docID newSHA1)) a := by
  cases a with
  | register d =>
    by_cases hd : d = x
    · subst hd
      simp [route, ownRoute, EventRouter.register, EventRouter.lookup]
    · have hne := (h d (.inl rfl) hd).symm
      simp [route, ownRoute, EventRouter.register, EventRouter.lookup, hd,
        Function.update_of_ne hne]
  | deregister d =>
    by_cases hd : d = x
    · subst hd
      simp [route, ownRoute, EventRouter.deregister, EventRouter.lookup]
    · have hne := (h d (.inr rfl) hd).symm
      simp [route, ownRoute, EventRouter.deregister, EventRouter.lookup, hd,
        Function.update_of_ne hne]

lemma lookup_foldl_route {rs : List Route}
    (h : ∀ a ∈ rs, ∀ d, a = .register d ∨ a = .deregister d → d ≠ x →
      d.docID newSHA1 ≠ x.docID newSHA1) (r : EventRouter) :
    (rs.foldl (route newSHA1 home) r).lookup (x.docID newSHA1) =
      rs.foldl (ownRoute home x) (r.lookup (x.docID newSHA1)) := by
  induction rs generalizing r with
  | nil => rfl
  | cons a rs ih =>
    rw [List.foldl_cons, List.foldl_cons, ih fun b hb => h b (List.mem_cons_of_mem a hb),
      lookup_route (h a List.mem_cons_self)]

/-- The documents that controllers write to a management cluster are told apart, and their events
reach their own owners, if and only if no Manifest is watched where the Manifest named after it is
applied. -/
theorem unambiguous_iff (hash : Function.Injective newSHA1) (written : Set Desire)
    (hw : ∀ x ∈ written, x.Written ∧ Plain x.target) :
    Unambiguous newSHA1 home written ↔ ∀ x ∈ written, ∀ y ∈ written, ¬ Shadows x y := by
  constructor
  · intro h x hx y hy hs
    exact h.input_ne x hx y hy hs.ne hs.input_eq
  · intro h
    have hne : ∀ x ∈ written, ∀ y ∈ written, x ≠ y → x.input ≠ y.input := by
      intro x hx y hy hxy heq
      rcases (input_eq_iff (hw x hx).1 (hw y hy).1 (hw x hx).2 (hw y hy).2).mp heq with
        heq | hs | hs
      · exact hxy heq
      · exact h x hx y hy hs
      · exact h y hy x hx hs
    refine ⟨hne, fun rs hrs x hx => lookup_foldl_route (fun a ha d hd hdx heq => ?_) _⟩
    have hdw : d ∈ written := by
      rcases hd with rfl | rfl
      · exact hrs _ ha
      · exact (hrs _ ha).1
    exact hne d hdw x hx hdx (hash heq)

/-- A Cluster's read of its HostedCluster and a Manifest of any name. -/
theorem unambiguous_iff_cluster :
    Unambiguous id (fun _ => ("default", "prod"))
      {⟨.cluster "u1", .readDesires, (hostedClusterResource "u1" "prod" .null).reference⟩,
        ⟨.manifest ⟨"default", "app-read", by decide, by decide⟩, .applyDesires,
          ⟨"", "v1", "configmaps", "web", "settings"⟩⟩} := by
  refine (unambiguous_iff Function.injective_id _ ?_).mpr ?_
  · rintro x (rfl | rfl)
    · exact ⟨⟨"prod", rfl⟩, by constructor <;> decide⟩
    · exact ⟨trivial, by constructor <;> decide⟩
  · rintro x (rfl | rfl) y (rfl | rfl) ⟨n, n', hx, hy, -, -, htx, hty, -⟩
    · cases hx
    · cases hx
    · cases hy
    · cases htx

/-- What the Manifest `app` watches. -/
def watched : Desire :=
  ⟨.manifest ⟨"default", "app", by decide, by decide⟩, .readDesires,
    ⟨"", "v1", "configmaps", "web", "settings"⟩⟩

/-- The same resource as the Manifest `app-read` applies it. -/
def appliedNext : Desire :=
  ⟨.manifest ⟨"default", "app-read", by decide, by decide⟩, .applyDesires,
    ⟨"", "v1", "configmaps", "web", "settings"⟩⟩

/-- Both Manifests register the one resource: the events of what `app` reads go to `app-read`, and
when `app` is deleted `app-read` hears nothing of its own document. -/
theorem watched_misrouted :
    watched ≠ appliedNext ∧ watched.Written ∧ appliedNext.Written ∧ Plain watched.target ∧
      watched.input = appliedNext.input ∧
      ∀ (newSHA1 : String → String) (home : Uid → String × String),
        let r := route newSHA1 home (route newSHA1 home .new (.register watched))
          (.register appliedNext)
        r.lookup (watched.docID newSHA1) = some ⟨.manifest, "default", "app-read"⟩ ∧
          (route newSHA1 home r (.deregister watched)).lookup (appliedNext.docID newSHA1) =
            none := by
  have hin : watched.input = appliedNext.input := by decide
  refine ⟨by decide, trivial, trivial, by constructor <;> decide, hin, fun newSHA1 home => ?_⟩
  have hid : watched.docID newSHA1 = appliedNext.docID newSHA1 := congrArg newSHA1 hin
  constructor
  · rw [hid]
    exact Function.update_self ..
  · rw [← hid]
    exact Function.update_self ..

end Routing

end Seaplane.Operator.Documents
