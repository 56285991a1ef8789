import Mathlib.Data.List.Infix
import Seaplane.Kube.Object
import Seaplane.Lib.Fallible

/-!
The silences of a cluster.

The controller keeps one silence per cluster in the Alertmanager while the cluster is installed or
deleted. Every call of the Alertmanager may fail, and one that failed may have taken effect. The
programs below are the reconcile over these calls; what counts is each state of the Alertmanager
that it passes through.
-/

namespace Seaplane.Operator.Silence

open Lib Kube

/-! ### The Alertmanager -/

inductive Reason where
  | installing
  | deleting
  deriving DecidableEq

def Reason.text : Reason → String
  | .installing => "installing"
  | .deleting => "deleting"

structure Matcher where
  name : String
  value : String
  isRegex : Bool
  isEqual : Bool
  deriving DecidableEq

structure ClusterIdentity where
  ns : String
  name : String

/-- Times are in nanoseconds. -/
structure PostableSilence where
  matchers : List Matcher
  startsAt : ℤ
  endsAt : ℤ
  createdBy : String
  comment : String
  deriving DecidableEq

structure GettableSilence extends PostableSilence where
  id : String
  state : String
  deriving DecidableEq

/-- `CreatedBy`. -/
def createdBy : String := "seaplane-silence-reconciler"

def hour : ℤ := 3600 * 1000000000

def defaultTTL : ℤ := 6 * hour

def renewBefore : ℤ := 1 * hour

inductive Op where
  | list (identity : ClusterIdentity)
  | create (silence : PostableSilence)
  | expire (id : String)

abbrev Op.Res : Op → Type
  | .list _ => Except Unit (List GettableSilence)
  | .create _ => Except Unit String
  | .expire _ => Except Unit Unit

/-- How a call ends: one that failed may have taken effect. -/
inductive Outcome where
  | done
  | failed (took : Bool)

/-- What the environment decides about a call: how it ends, and the ID of a new silence. -/
structure Choice where
  outcome : Outcome
  id : String

/-- The silences of the Alertmanager; those that were expired stay for a while. -/
abbrev Alertmanager := List GettableSilence

/-- The silence is one of the controller's for this cluster, and it is active. -/
def GettableSilence.managed (identity : ClusterIdentity) (s : GettableSilence) : Bool :=
  s.matchers.contains ⟨"namespace", identity.ns, false, true⟩ &&
    s.matchers.contains ⟨"name", identity.name, false, true⟩ &&
      s.createdBy == createdBy && s.state == "active"

def PostableSilence.posted (p : PostableSilence) (id : String) : GettableSilence :=
  { p with id, state := "active" }

def GettableSilence.expired (id : String) (s : GettableSilence) : GettableSilence :=
  if s.id = id then { s with state := "expired" } else s

/-- One call, with the state after it. A new silence gets an ID that is not in use. -/
def exec : (o : Op) → Choice → Alertmanager → Option (o.Res × Alertmanager)
  | .list identity, x, a =>
    match x.outcome with
    | .done => some (.ok (a.filter (·.managed identity)), a)
    | .failed _ => some (.error (), a)
  | .create p, x, a =>
    if a.any (·.id == x.id) then none
    else
      match x.outcome with
      | .done => some (.ok x.id, p.posted x.id :: a)
      | .failed took => some (.error (), if took then p.posted x.id :: a else a)
  | .expire id, x, a =>
    match x.outcome with
    | .done => some (.ok (), a.map (·.expired id))
    | .failed took => some (.error (), if took then a.map (·.expired id) else a)

/-! ### The controller -/

def intentForCluster (cluster : Object .cluster) : Option Reason :=
  if cluster.deleting ∨ cluster.status.phase = "Deleting" then some .deleting
  else if cluster.status.phase = "WaitingForPlacement" ∨ cluster.status.phase = "Provisioning" then
    some .installing
  else none

def installExemptAlerts : List String := ["HCPInstallTimeout15m"]

section

variable (identity : ClusterIdentity)

def buildPostableSilence (reason : Reason) (now ttl : ℤ) : PostableSilence where
  matchers :=
    [⟨"namespace", identity.ns, false, true⟩, ⟨"name", identity.name, false, true⟩] ++
      if reason = .installing then installExemptAlerts.map (⟨"alertname", ·, false, false⟩) else []
  startsAt := now
  endsAt := now + ttl
  createdBy := createdBy
  comment := "lifecycle=" ++ reason.text ++ " namespace=" ++ identity.ns ++ " name=" ++
    identity.name

def needsRenewal (s : GettableSilence) (now : ℤ) : Bool :=
  s.state == "active" && decide (s.endsAt - now < renewBefore)

def matchesReason (s : GettableSilence) (reason : Reason) : Bool :=
  decide (("lifecycle=" ++ reason.text).toList <:+: s.comment.toList)

inductive Requeue where
  | none
  | retryDelay
  | interval
  deriving DecidableEq

abbrev SilenceProg := Prog Op Op.Res

def list : SilenceProg (Except Unit (List GettableSilence)) :=
  Prog.call (Op.list identity)

def create (silence : PostableSilence) : SilenceProg (Except Unit String) :=
  Prog.call (Op.create silence)

def expire (id : String) : SilenceProg (Except Unit Unit) := Prog.call (Op.expire id)

def expireAll : List GettableSilence → SilenceProg (Except Unit Unit)
  | [] => return .ok ()
  | s :: silences => do
    match ← expire s.id with
    | .error e => return .error e
    | .ok () => expireAll silences

def createSilence (reason : Reason) (now : ℤ) : SilenceProg (Except Unit String) :=
  create (buildPostableSilence identity reason now defaultTTL)

/-- The silence is the only one and has the right reason. -/
def converged (existing : List GettableSilence) (reason : Reason) : Option GettableSilence :=
  match existing with
  | [s] => if matchesReason s reason then some s else none
  | _ => none

/-- `SilenceReconciler.Reconcile`, once the silences have been listed. -/
def converge (cluster : Object .cluster) (now : ℤ) (existing : List GettableSilence) :
    SilenceProg Requeue :=
  match intentForCluster cluster with
  | none => do
    match ← expireAll existing with
    | .error _ => return .retryDelay
    | .ok () => return .none
  | some reason =>
    match converged existing reason with
    | some matched =>
      if needsRenewal matched now then do
        -- the replacement comes first, so that alerts stay suppressed
        match ← createSilence identity reason now with
        | .error _ => return .retryDelay
        | .ok _ =>
          match ← expire matched.id with
          | .error _ => return .retryDelay
          | .ok () => return .interval
      else return .interval
    | none => do
      match ← expireAll existing with
      | .error _ => return .retryDelay
      | .ok () =>
        match ← createSilence identity reason now with
        | .error _ => return .retryDelay
        | .ok _ => return .interval

/-- `SilenceReconciler.Reconcile`, once the cluster has been read. -/
def reconcile (cluster : Object .cluster) (now : ℤ) : SilenceProg Requeue := do
  match ← list identity with
  | .error _ => return .retryDelay
  | .ok existing => converge identity cluster now existing

/-! ### What is silenced when -/

/-- At `t` an active silence of the controller covers the cluster. -/
def Silenced (t : ℤ) (a : Alertmanager) : Prop :=
  ∃ s ∈ a, s.managed identity = true ∧ t < s.endsAt

def found (a : Alertmanager) : List GettableSilence :=
  a.filter (·.managed identity)

end

variable {identity : ClusterIdentity} {reason : Reason} {now t : ℤ} {a a' : Alertmanager}
  {s : GettableSilence} {id : String}

lemma managed_posted : ((buildPostableSilence identity reason now defaultTTL).posted id).managed
    identity = true := by
  simp [GettableSilence.managed, PostableSilence.posted, buildPostableSilence]

lemma not_managed_expired (h : s.id = id) : (s.expired id).managed identity = false := by
  simp [GettableSilence.expired, GettableSilence.managed, h]

lemma expired_of_ne (h : s.id ≠ id) : s.expired id = s := if_neg h

lemma managed_of_expired (h : (s.expired id).managed identity = true) :
    s.id ≠ id ∧ s.managed identity = true := by
  by_cases hid : s.id = id
  · rw [not_managed_expired hid] at h
    cases h
  · rw [expired_of_ne hid] at h
    exact ⟨hid, h⟩

lemma Silenced.cons (h : Silenced identity t a) (s : GettableSilence) :
    Silenced identity t (s :: a) := by
  obtain ⟨s', hs, h⟩ := h
  exact ⟨s', List.mem_cons_of_mem s hs, h⟩

/-! ### One silence with the right reason -/

lemma silenced_create {p : PostableSilence} {x : Choice} {r : Except Unit String}
    (hx : exec (.create p) x a = some (r, a')) (h : Silenced identity t a) :
    Silenced identity t a' := by
  simp only [exec] at hx
  split at hx
  · cases hx
  · split at hx
    · cases hx
      exact h.cons _
    · next took _ =>
      cases hx
      cases took with
      | true => exact h.cons _
      | false => exact h

lemma covers_create {x : Choice} {id' : String}
    (hx : exec (.create (buildPostableSilence identity reason now defaultTTL)) x a =
      some (.ok id', a')) (hs : s ∈ a) (hrenew : needsRenewal s now = true) (ht : t < s.endsAt) :
    ∃ s' ∈ a', s'.id ≠ s.id ∧ s'.managed identity = true ∧ t < s'.endsAt := by
  simp only [exec] at hx
  split at hx
  · cases hx
  · next hid =>
    split at hx
    · cases hx
      refine ⟨_, List.mem_cons_self, ?_, managed_posted, ?_⟩
      · intro heq
        refine hid (List.any_eq_true.mpr ⟨s, hs, ?_⟩)
        exact beq_iff_eq.mpr heq.symm
      · have hlt := of_decide_eq_true (Bool.and_eq_true_iff.mp hrenew).2
        show t < now + defaultTTL
        unfold defaultTTL
        unfold renewBefore hour at hlt
        unfold hour
        omega
    · cases hx

lemma silenced_expire {x : Choice} {r : Except Unit Unit}
    (hx : exec (.expire id) x a = some (r, a'))
    (h : ∃ s' ∈ a, s'.id ≠ id ∧ s'.managed identity = true ∧ t < s'.endsAt) :
    Silenced identity t a' := by
  obtain ⟨s', hs, hid, hm, ht⟩ := h
  have hexpired : Silenced identity t (a.map (·.expired id)) := by
    refine ⟨s', List.mem_map.mpr ⟨s', hs, expired_of_ne hid⟩, hm, ht⟩
  simp only [exec] at hx
  split at hx
  · cases hx
    exact hexpired
  · next took _ =>
    cases hx
    cases took with
    | true => exact hexpired
    | false => exact ⟨s', hs, hm, ht⟩

lemma converged_eq {existing : List GettableSilence} (h : converged existing reason = some s) :
    existing = [s] ∧ matchesReason s reason = true := by
  unfold converged at h
  split at h
  · split at h
    · next hm =>
      cases h
      exact ⟨rfl, hm⟩
    · cases h
  · cases h

lemma silenced_of_converged {cluster : Object .cluster}
    (hi : intentForCluster cluster = some reason)
    (hc : converged (found identity a) reason = some s)
    (h : Prog.Visits exec (reconcile identity cluster now) a a') (ht : t < s.endsAt) :
    Silenced identity t a' := by
  have hs : s ∈ found identity a := by
    rw [(converged_eq hc).1]
    exact List.mem_singleton.mpr rfl
  obtain ⟨hmem, hmanaged⟩ := List.mem_filter.mp hs
  have hstart : Silenced identity t a := ⟨s, hmem, hmanaged, ht⟩
  obtain rfl | ⟨x, r, a1, hx, h⟩ := Prog.visits_op h
  · exact hstart
  · change exec (.list identity) x a = some (r, a1) at hx
    simp only [exec] at hx
    split at hx
    · cases hx
      change Prog.Visits exec (converge identity cluster now (found identity a)) a a' at h
      simp only [converge, hi, hc] at h
      split at h
      · next hrenew =>
        obtain rfl | ⟨x, r, a2, hx, h⟩ := Prog.visits_op h
        · exact hstart
        · cases r with
          | error e =>
            obtain rfl := Prog.visits_ret h
            exact silenced_create hx hstart
          | ok id =>
            have hcover := covers_create hx hmem hrenew ht
            obtain rfl | ⟨x, r, a3, hx', h⟩ := Prog.visits_op h
            · obtain ⟨s', hs', -, hm, ht'⟩ := hcover
              exact ⟨s', hs', hm, ht'⟩
            · have hlast := silenced_expire hx' hcover
              cases r with
              | error _ | ok _ =>
                obtain rfl := Prog.visits_ret h
                exact hlast
      · obtain rfl := Prog.visits_ret h
        exact hstart
    · cases hx
      obtain rfl := Prog.visits_ret h
      exact hstart

/-! ### Anything else -/

def allDone : Choice := ⟨.done, ""⟩

lemma evals_expireAll (silences : List GettableSilence) (a : Alertmanager) : ∃ xs a',
    Prog.Evals exec xs (expireAll silences) a (.ok ()) a' ∧
      ∀ s ∈ a', s.managed identity = true → s ∈ a ∧ ∀ s' ∈ silences, s.id ≠ s'.id := by
  induction silences generalizing a with
  | nil => exact ⟨[], a, .ret, fun s hs _ => ⟨hs, fun s' hs' => by cases hs'⟩⟩
  | cons s silences ih =>
    obtain ⟨xs, a', hrun, hleft⟩ := ih (a.map (·.expired s.id))
    refine ⟨allDone :: xs, a', .op rfl hrun, ?_⟩
    intro s1 hs1 hm
    obtain ⟨hmem, hids⟩ := hleft s1 hs1 hm
    obtain ⟨s0, hs0, rfl⟩ := List.mem_map.mp hmem
    obtain ⟨hne, -⟩ := managed_of_expired hm
    rw [expired_of_ne hne] at hids ⊢
    exact ⟨hs0, List.forall_mem_cons.mpr ⟨hne, hids⟩⟩

lemma unsilenced_of_not_converged {cluster : Object .cluster}
    (hi : intentForCluster cluster = some reason)
    (hc : converged (found identity a) reason = none) : ∃ a',
      Prog.Visits exec (reconcile identity cluster now) a a' ∧ ∀ t, ¬Silenced identity t a' := by
  obtain ⟨xs, a', hrun, hleft⟩ := @evals_expireAll identity (found identity a) a
  refine ⟨a', ?_, ?_⟩
  · have hrest : Prog.Visits exec (converge identity cluster now (found identity a)) a a' := by
      simp only [converge, hi, hc]
      exact hrun.visits .here
    have hlist : exec (.list identity) allDone a = some (.ok (found identity a), a) := rfl
    exact .op hlist hrest
  · rintro t ⟨s, hs, hm, -⟩
    obtain ⟨hmem, hids⟩ := hleft s hs hm
    exact hids s (List.mem_filter.mpr ⟨hmem, hm⟩) rfl

/-- **When a silenced cluster stays silenced.** Whatever fails, the cluster is silenced in every
state the reconcile passes through, until the last of the silences that were found ends, exactly
where one silence was found and it has the right reason. -/
theorem silenced_throughout_iff {identity : ClusterIdentity} {cluster : Object .cluster}
    {reason : Reason} {now : ℤ} {a : Alertmanager} (hi : intentForCluster cluster = some reason)
    (hsome : ∃ s ∈ found identity a, now < s.endsAt) :
    (∀ a', Prog.Visits exec (reconcile identity cluster now) a a' → ∀ t, now ≤ t →
      (∃ s ∈ found identity a, t < s.endsAt) → Silenced identity t a') ↔
        ∃ s, found identity a = [s] ∧ matchesReason s reason = true := by
  constructor
  · intro h
    cases hc : converged (found identity a) reason with
    | some s => exact ⟨s, converged_eq hc⟩
    | none =>
      obtain ⟨a', hvisit, hnone⟩ := unsilenced_of_not_converged hi hc
      exact absurd (h a' hvisit now le_rfl hsome) (hnone now)
  · rintro ⟨s, hfound, hm⟩ a' hvisit t - ⟨s', hs', ht⟩
    have hc : converged (found identity a) reason = some s := by
      rw [hfound, converged, if_pos hm]
    rw [hfound, List.mem_singleton] at hs'
    subst hs'
    exact silenced_of_converged hi hc hvisit ht

def provisioning : Object .cluster :=
  { spec := ({} : ClusterSpec), status := { phase := "Provisioning" : ClusterStatus } }

/-- The cluster `c` in the namespace `cluster-1`. -/
def first : ClusterIdentity := ⟨"cluster-1", "c"⟩

/-- Its silence for the installation, from the start of time on. -/
def installSilence : GettableSilence :=
  (buildPostableSilence first .installing 0 defaultTTL).posted "s1"

/-- The silence for the installation is renewed without a gap. -/
theorem silenced_throughout_iff_renewal :
    found first [installSilence] = [installSilence] ∧
      needsRenewal installSilence (5 * hour + 1) = true ∧
        ∀ a', Prog.Visits exec (reconcile first provisioning (5 * hour + 1)) [installSilence] a' →
          Silenced first (5 * hour + 1) a' := by
  have hfound : found first [installSilence] = [installSilence] := by decide
  have hsome : ∃ s ∈ found first [installSilence], 5 * hour + 1 < s.endsAt := by
    rw [hfound]
    exact ⟨installSilence, List.mem_singleton.mpr rfl, by decide⟩
  have hi : intentForCluster provisioning = some .installing := by decide
  have hm : matchesReason installSilence .installing = true := by decide +kernel
  refine ⟨hfound, by decide, fun a' h => ?_⟩
  exact (silenced_throughout_iff hi hsome).mpr ⟨installSilence, hfound, hm⟩ a' h _ le_rfl hsome

/-- When the cluster is deleted the silence for its installation goes before the new one comes. -/
theorem silence_gap_on_deletion :
    ∃ a', Prog.Visits exec (reconcile first { provisioning with deleting := true } hour)
      [installSilence] a' ∧ Silenced first hour [installSilence] ∧ ¬Silenced first hour a' := by
  have hi : intentForCluster { provisioning with deleting := true } = some .deleting := by decide
  have hfound : found first [installSilence] = [installSilence] := by decide
  have hc : converged (found first [installSilence]) .deleting = none := by
    rw [hfound]
    decide +kernel
  obtain ⟨a', hvisit, hnone⟩ := @unsilenced_of_not_converged first .deleting hour
    [installSilence] { provisioning with deleting := true } hi hc
  exact ⟨a', hvisit, ⟨installSilence, List.mem_singleton.mpr rfl, by decide, by decide⟩, hnone hour⟩

end Seaplane.Operator.Silence
