import Seaplane.Api.Create
import Seaplane.Fleet.Conduct
import Seaplane.Operator.Cluster
import Seaplane.Operator.DNSReservation
import Seaplane.Operator.OidcConfig

/-!
All programs of the API server and of the operator on one store.

Any number of requests and reconciles are in progress at a time, and any of them may stop for good
between two operations. Nobody waits for another, unless a controller works on an object with one
reconcile at a time.
-/

namespace Seaplane.Fleet

open Lib Kube

/-- What the programs compute without a look at the store. -/
structure Params where
  api : Api.Params
  operator : Operator.Params

inductive Controller where
  | cluster
  | nodePool
  | placement
  | oidcConfig
  | dnsReservation
  deriving DecidableEq, Repr

inductive Task where
  | request (r : Api.Request)
  | createCluster (account name : String) (annotations : StringMap) (spec : ClusterSpec)
  | createNodePool (account name : String) (annotations : StringMap) (spec : NodePoolSpec)
  | createOidcConfig (account name : String) (annotations : StringMap) (body : Api.OidcConfigBody)
      (issuerID : String)
  | createDNSReservation (account name : String) (annotations : StringMap)
  | reconcile (c : Controller) (ns name : String)
  /-- A management cluster is registered. -/
  | register (ns name : String)
  /-- A kube-applier reports on an item. -/
  | report (k : Dynamo.DocKey) (s : Dynamo.ApplyDesireStatus)
  /-- A kube-applier reports what it has read. -/
  | observe (k : Dynamo.DocKey) (content : Json)
  /-- The operator restarts: its cache is empty. -/
  | restart
  deriving DecidableEq

inductive Reply where
  | response (r : Api.Response)
  | outcome (o : Operator.Outcome)
  | none
  deriving DecidableEq

def Controller.code (p : Operator.Params) (ns name : String) :
    Controller → FleetProg Operator.Outcome
  | cluster => Operator.reconcileCluster p ns name
  | nodePool => Operator.reconcileNodePool p ns name
  | placement => Operator.reconcilePlacement ns name
  | oidcConfig => Operator.reconcileOidcConfig p ns name
  | dnsReservation => Operator.reconcileReservation p ns name

def answering (m : FleetProg Api.Response) : FleetProg Reply := m.bind fun r => .ret (.response r)

def Task.code (p : Params) : Task → FleetProg Reply
  | request r => answering (r.code p.api)
  | createCluster account name annotations spec =>
    answering (Api.createCluster p.api account name annotations spec)
  | createNodePool account name annotations spec =>
    answering (Api.createNodePool p.api account name annotations spec)
  | createOidcConfig account name annotations body issuerID =>
    answering (Api.createOidcConfig p.api account name annotations body issuerID)
  | createDNSReservation account name annotations =>
    answering (Api.createDNSReservation p.api account name annotations)
  | reconcile c ns name => (c.code p.operator ns name).bind fun o => .ret (.outcome o)
  | register ns name =>
    (create ⟨.managementCluster, ns, name⟩ { spec := () }).bind fun _ => .ret .none
  | report k s => (perform (.dynamo (.report k s))).bind fun _ => .ret .none
  | observe k content => (perform (.dynamo (.observe k content))).bind fun _ => .ret .none
  | restart => (perform (.dynamo .resetCache)).bind fun _ => .ret .none

/-- A task, and after how many operations it stops, if it does. -/
structure Caller where
  task : Task
  stops : Option ℕ := none

def Caller.code (p : Params) (l : Caller) : FleetProg (Option Reply) :=
  match l.stops with
  | none => (l.task.code p).bind fun r => .ret (some r)
  | some n => (l.task.code p).cut n

/-- The object of a reconcile by the controller. -/
def Task.subject (c : Controller) : Task → Option (String × String)
  | reconcile c' ns name => if c' = c then some (ns, name) else none
  | _ => none

/-- Two reconciles of one object by the controller. -/
def Caller.excl (c : Controller) (l l' : Caller) : Bool :=
  (l.task.subject c).isSome && l.task.subject c == l'.task.subject c

lemma Caller.excl_symm (c : Controller) (l l' : Caller) : l.excl c l' = l'.excl c l := by
  unfold Caller.excl
  by_cases h : l.task.subject c = l'.task.subject c
  · rw [h]
  · rw [beq_eq_false_iff_ne.mpr h, beq_eq_false_iff_ne.mpr (Ne.symm h), Bool.and_false,
      Bool.and_false]

lemma Caller.excl_reconcile {l l' : Caller} {c : Controller} {ns name : String}
    (h : l.task = .reconcile c ns name) (h' : l'.task = .reconcile c ns name) :
    l.excl c l' = true := by
  simp [Caller.excl, Task.subject, h, h']

def fleetWith (excl : Caller → Caller → Bool) (p : Params) :
    System Op Op.Res State Choice Caller (Option Reply) where
  exec := exec
  code := Caller.code p
  excl := excl

/-- All tasks may overlap. -/
abbrev fleet (p : Params) : System Op Op.Res State Choice Caller (Option Reply) :=
  fleetWith (fun _ _ => false) p

/-- No two reconciles of one object by the controller overlap. -/
abbrev serial (c : Controller) (p : Params) :
    System Op Op.Res State Choice Caller (Option Reply) := fleetWith (Caller.excl c) p

abbrev FleetConf := Conf Op Op.Res State Caller (Option Reply)

def idle : FleetConf := ⟨.empty, []⟩

lemma guards_caller {p : Params} {A : Task → List Event → Op → Prop}
    {Q : Task → List Event → Reply → Prop} (h : ∀ t : Task, (t.code p).Guards Any (A t) (Q t) [])
    (l : Caller) : (Caller.code p l).Guards Any (A l.task)
      (fun tr r => ∀ a, r = some a → Q l.task tr a) [] := by
  unfold Caller.code
  split
  · exact (h l.task).bind fun tr a ha b hb => Option.some.inj hb ▸ ha
  · exact (h l.task).cut _

/-! ### What a program leaves alone -/

def Op.writes : Op → Option Key
  | .kube (.create k _) | .kube (.update k _) | .kube (.updateStatus k _) | .kube (.delete k _) =>
    some k
  | _ => none

def Op.secret : Op → Bool
  | .infra (.createSecret _ _) | .infra (.putSecretValue _ _) | .infra (.deleteSecret _) => true
  | _ => false

/-- The call may change a document, or the cache. -/
def Op.document : Op → Bool
  | .dynamo d => !isRead d
  | _ => false

/-- What may be changed: some objects, and the documents and the secrets or none of them. -/
structure Limits where
  object : Key → Prop
  documents : Prop
  secrets : Prop

/-- The call changes nothing beyond the limits. -/
structure Within (W : Limits) (o : Op) : Prop where
  object k : o.writes = some k → W.object k
  documents : o.document = true → W.documents
  secrets : o.secret = true → W.secrets

section

variable {W : Limits} {k : Key} {o : Object k.kind}

@[simp] lemma within_get : Within W (.kube (.get k)) := ⟨nofun, nofun, nofun⟩
@[simp] lemma within_list {kind : Kind} {sel : Selector} : Within W (.kube (.list kind sel)) :=
  ⟨nofun, nofun, nofun⟩
@[simp] lemma within_check {a : Api.Action} {r : Api.Resource} : Within W (.check a r) :=
  ⟨nofun, nofun, nofun⟩
@[simp] lemma within_now : Within W .now := ⟨nofun, nofun, nofun⟩

lemma within_dynamo {d : Dynamo.Op} (h : W.documents) : Within W (.dynamo d) :=
  ⟨nofun, fun _ => h, nofun⟩

lemma within_read {d : Dynamo.Op} (h : isRead d = true) : Within W (.dynamo d) :=
  ⟨nofun, fun hd => by simp [Op.document, h] at hd, nofun⟩

lemma within_infra {i : Infra.Op} (h : Op.secret (.infra i) = true → W.secrets) :
    Within W (.infra i) := ⟨nofun, nofun, h⟩

lemma within_write {op : Op} (hw : op.writes = some k) (hk : W.object k) : Within W op := by
  refine ⟨fun k' h => ?_, fun hd => ?_, fun hs => ?_⟩
  · rw [hw] at h
    exact Option.some.inj h ▸ hk
  · cases op with
    | dynamo => cases hw
    | kube | infra | check | now => cases hd
  · cases op with
    | infra => cases hw
    | kube | dynamo | check | now => cases hs

end

/-! ### Single tasks -/

/-- A task is started as the `i`-th program and performs operations. -/
def performs (i : ℕ) (t : Task) (xs : List Choice) : List (System.Event Choice Caller) :=
  .spawn ⟨t, none⟩ :: xs.map (.act i)

/-- What the `i`-th program has returned. -/
def replyOf (c : FleetConf) (i : ℕ) : Option Reply :=
  c.pool[i]?.bind fun t =>
    match t.prog with
    | .ret r => r
    | .op _ _ => none

/-- The task of the `i`-th program. -/
def taskOf (c : FleetConf) (i : ℕ) : Option Task :=
  c.pool[i]?.map (·.label.task)

lemma returned_of_replyOf {c : FleetConf} {i : ℕ} {r : Reply} {t : Task} (h : replyOf c i = some r)
    (ht : taskOf c i = some t) : ∃ l, c.pool[i]? = some ⟨l, .ret (some r)⟩ ∧ l.task = t := by
  obtain ⟨⟨l, prog⟩, hi, hr⟩ := Option.bind_eq_some_iff.mp h
  cases prog with
  | op => cases hr
  | ret a =>
    obtain rfl : a = some r := hr
    refine ⟨l, hi, ?_⟩
    rw [taskOf, hi] at ht
    exact Option.some.inj ht

/-- Checks that find nothing, and values that say what they were computed from. -/
def sample : Params where
  api := .lenient
  operator :=
    { hostedCluster := fun _ _ _ _ => some .null
      clusterContent := fun _ _ _ => .null
      nodePool := fun _ _ _ => some .null
      readHostedCluster := fun _ => none
      readNodePool := fun _ => none
      issuerURLIndexName := id
      validateRSAPrivateKey := fun _ => true
      baseDomainSuffix := "example.com" }

end Seaplane.Fleet
