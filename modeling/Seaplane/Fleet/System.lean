import Seaplane.Api.Authz
import Seaplane.Dynamo.Tables
import Seaplane.Infra.Secrets
import Seaplane.Kube.Store
import Seaplane.Lib.Trace

/-!
What the programs of the API server and of the operator run on: the object store, the DynamoDB
tables, Secrets Manager and the other services of the operator, the authorizer and the clock.
-/

namespace Seaplane.Fleet

open Lib Kube

structure State where
  store : Store
  tables : Dynamo.Tables
  secrets : Infra.Secrets

def State.empty : State := ⟨.empty, .empty, ∅⟩

inductive Op where
  | kube (o : Kube.Op)
  | dynamo (o : Dynamo.Op)
  | infra (o : Infra.Op)
  | check (a : Api.Action) (r : Api.Resource)
  | now

abbrev Op.Res : Op → Type
  | .kube o => o.Res
  | .dynamo o => o.Res
  | .infra o => o.Res
  | .check _ _ => Api.Decision
  | .now => Time

structure Choice extends Kube.Choice where
  decision : Api.Decision := .allowed
  /-- What comes from outside: another account's secret, a thumbprint, a random number. -/
  text : String := ""

def second : Time := 1000000000

def exec (o : Op) (x : Choice) (s : State) : Option (o.Res × State) :=
  match o with
  | .kube o =>
    (Store.exec o x.toChoice s.store).map fun rd =>
      (rd.1, { s with store := rd.2 })
  | .dynamo o =>
    (Dynamo.Tables.exec o x.fault s.tables).map fun rd => (rd.1, { s with tables := rd.2 })
  | .infra o =>
    some ((Infra.exec o x.fault x.text s.secrets).1,
      { s with secrets := (Infra.exec o x.fault x.text s.secrets).2 })
  | .check _ _ => some (x.decision, s)
  -- the clock is past the first second of Go's zero time
  | .now => if second ≤ x.now then some (x.now, s) else none

abbrev FleetProg (α : Type) := Prog Op Op.Res α

/-- An operation of a program, with its answer. -/
abbrev Event := Seen Op Op.Res

abbrev Any : (o : Op) → o.Res → Prop := fun _ _ => True

abbrev Done {α : Type} : List Event → α → Prop := fun _ _ => True

/-! ### The operations as programs -/

def perform (o : Op) : FleetProg o.Res := Prog.call o

def get (k : Key) : FleetProg (Except Err (Object k.kind)) := perform (.kube (.get k))

def list (kind : Kind) (sel : Selector) : FleetProg (Except Err (List (Item kind))) :=
  perform (.kube (.list kind sel))

def create (k : Key) (o : Object k.kind) : FleetProg (Except Err (Object k.kind)) :=
  perform (.kube (.create k o))

def update (k : Key) (o : Object k.kind) : FleetProg (Except Err (Object k.kind)) :=
  perform (.kube (.update k o))

/-- `Status().Update`. -/
def updateStatus (k : Key) (o : Object k.kind) : FleetProg (Except Err (Object k.kind)) :=
  perform (.kube (.updateStatus k o))

def delete (k : Key) (o : Object k.kind) : FleetProg (Except Err Unit) :=
  perform (.kube (.delete k o))

def check (a : Api.Action) (r : Api.Resource) : FleetProg Api.Decision := perform (.check a r)

def infra (o : Infra.Op) : FleetProg o.Res := perform (.infra o)

/-- `time.Now()`. -/
def now : FleetProg Time := perform .now

variable {α : Type} {tr : List Event}

@[simp] lemma now_bind (f : Time → FleetProg α) : now.bind f = .op .now f := rfl

/-- `retry.RetryOnConflict`: another attempt after a conflict, at most `n` times. -/
def retryOnConflict {ε α : Type} (isConflict : ε → Bool) (attempt : FleetProg (Except ε α)) :
    ℕ → FleetProg (Except ε α)
  | 0 => attempt
  | n + 1 => do
    match ← attempt with
    | .ok a => return .ok a
    | .error e => if isConflict e then retryOnConflict isConflict attempt n else return .error e

/-- `retry.DefaultRetry` makes five attempts. -/
def defaultRetries : ℕ := 4

/-- What an attempt may do when it begins under `P`, all attempts may do together, if `P` holds
again after a conflict. -/
lemma guards_retry {ε : Type} {isConflict : ε → Bool} {attempt : FleetProg (Except ε α)}
    {V : (o : Op) → o.Res → Prop} {A : List Event → Op → Prop} {P : List Event → Prop}
    {Q : List Event → Except ε α → Prop} (h : ∀ tr, P tr → attempt.Guards V A
      (fun tr' r => Q tr' r ∧ ∀ e, r = .error e → isConflict e → P tr') tr)
    (n : ℕ) (hP : P tr) :
    (retryOnConflict isConflict attempt n).Guards V A Q tr := by
  induction n generalizing tr with
  | zero => exact (h tr hP).post fun _ _ h => h.1
  | succ n ih =>
    refine (h tr hP).bind fun tr' r hr => ?_
    split
    · exact hr.1
    split
    · next hc => exact ih (hr.2 _ rfl hc)
    · exact hr.1

/-- What every attempt may do from wherever it begins, all attempts may do together. -/
lemma guards_attempts {ε : Type} {isConflict : ε → Bool} {attempt : FleetProg (Except ε α)}
    {V : (o : Op) → o.Res → Prop} {A : List Event → Op → Prop}
    {Q : List Event → Except ε α → Prop} (h : ∀ tr, attempt.Guards V A Q tr) (n : ℕ)
    (tr : List Event) : (retryOnConflict isConflict attempt n).Guards V A Q tr :=
  guards_retry (P := fun _ => True)
    (fun tr _ => (h tr).post fun _ _ h => ⟨h, fun _ _ _ => trivial⟩) n trivial

/-! ### What an operation can do -/

variable {x : Choice} {s s' : State}

lemma exec_kube {o : Kube.Op} {r : o.Res} (h : exec (.kube o) x s = some (r, s')) :
    Store.exec o x.toChoice s.store = some (r, s'.store) ∧ s'.tables = s.tables := by
  obtain ⟨⟨r', d⟩, h1, h2⟩ := Option.map_eq_some_iff.mp h
  cases h2
  exact ⟨h1, rfl⟩

lemma exec_infra {o : Infra.Op} {r : o.Res} (h : exec (.infra o) x s = some (r, s')) :
    Infra.exec o x.fault x.text s.secrets = (r, s'.secrets) ∧ s'.store = s.store ∧
      s'.tables = s.tables := by
  cases h
  exact ⟨rfl, rfl, rfl⟩

lemma exec_dynamo {o : Dynamo.Op} {r : o.Res} (h : exec (.dynamo o) x s = some (r, s')) :
    Dynamo.Tables.exec o x.fault s.tables = some (r, s'.tables) ∧ s'.store = s.store := by
  obtain ⟨⟨r', d⟩, h1, h2⟩ := Option.map_eq_some_iff.mp h
  cases h2
  exact ⟨h1, rfl⟩

lemma exec_check {a : Api.Action} {r : Api.Resource} {d : Api.Decision}
    (h : exec (.check a r) x s = some (d, s')) : s' = s := by
  cases h
  rfl

lemma exec_now {t : Time} (h : exec .now x s = some (t, s')) : s' = s ∧ second ≤ t := by
  simp only [exec] at h
  split at h
  · next ht => cases h; exact ⟨rfl, ht⟩
  · cases h

lemma store_eq_or_kube {o : Op} {r : o.Res} (h : exec o x s = some (r, s')) :
    s'.store = s.store ∨ ∃ o', o = .kube o' := by
  cases o with
  | kube o => exact .inr ⟨o, rfl⟩
  | dynamo o => exact .inl (exec_dynamo h).2
  | infra o => exact .inl (exec_infra h).2.1
  | check a r => exact .inl (by rw [exec_check h])
  | now => exact .inl (by rw [(exec_now h).1])

lemma store_change {o : Op} {r : o.Res} (h : exec o x s = some (r, s')) :
    s.store.Change s'.store := by
  rcases store_eq_or_kube h with he | ⟨o, rfl⟩
  · rw [he]; exact .none
  · exact (Store.did_exec (exec_kube h).1).change

lemma hist_exec {o : Op} {r : o.Res} (hx : exec o x s = some (r, s'))
    {e : (k : Key) × Object k.kind} (he : e ∈ s.store.hist) : e ∈ s'.store.hist :=
  (store_change hx).hist_mono he

/-! ### What was seen was stored -/

/-- The program has seen the object in this state. -/
def Known (tr : List Event) (k : Key) (s : Object k.kind) : Prop :=
  ∃ o r, (⟨.kube o, r⟩ : Event) ∈ tr ∧ Store.Shows k s o r

lemma Known.mono {tr' : List Event} {k : Key} {s : Object k.kind} (h : Known tr k s)
    (ht : tr ⊆ tr') : Known tr' k s := by
  obtain ⟨o, r, hm, hs⟩ := h
  exact ⟨o, r, ht hm, hs⟩

lemma known_get {k : Key} {s : Object k.kind}
    (h : (⟨.kube (.get k), .ok s⟩ : Event) ∈ tr) : Known tr k s := ⟨_, _, h, rfl⟩

lemma known_listed {kind : Kind} {sel : Selector} {items : List (Item kind)}
    (h : (⟨.kube (.list kind sel), .ok items⟩ : Event) ∈ tr) {i : Item kind} (hi : i ∈ items) :
    Known tr i.key i.object := ⟨_, _, h, i, hi, rfl⟩

/-- The program has seen the object in this state, among those it has listed. -/
def LookedUp (tr : List Event) (k : Key) (s : Object k.kind) : Prop :=
  ∃ sel items, (⟨.kube (.list k.kind sel), .ok items⟩ : Event) ∈ tr ∧ ⟨k.ns, k.name, s⟩ ∈ items

lemma LookedUp.known {k : Key} {s : Object k.kind} (h : LookedUp tr k s) : Known tr k s := by
  obtain ⟨sel, items, hm, hi⟩ := h
  exact known_listed hm hi

/-- Every state the program has seen was stored at some time. -/
def Informed (tr : List Event) (s : State) : Prop :=
  ∀ (k : Key) (o : Object k.kind), Known tr k o → ⟨k, o⟩ ∈ s.store.hist

lemma informed_nil (s : State) : Informed [] s := by
  rintro k o ⟨_, _, hm, -⟩
  cases hm

lemma Informed.other {o : Op} {r : o.Res} (h : Informed tr s)
    (hx : exec o x s = some (r, s')) : Informed tr s' :=
  fun k o hk => hist_exec hx (h k o hk)

lemma Informed.own {o : Op} {r : o.Res} (h : Informed tr s) (hs : s.store.Sane)
    (hx : exec o x s = some (r, s')) : Informed (⟨o, r⟩ :: tr) s' := by
  rintro k w ⟨ko, kr, hm, hsh⟩
  rcases List.mem_cons.mp hm with he | hm
  · obtain ⟨rfl, hr⟩ := Sigma.mk.inj he
    cases hr
    exact hs.shown (exec_kube hx).1 hsh
  · exact hist_exec hx (h k w ⟨ko, kr, hm, hsh⟩)

/-- In every run of programs on these services. -/
lemma informed_all {L : Type} {M : System Op Op.Res State Choice L α} (hM : M.exec = exec)
    {ok : L → Op → Choice → State → Prop} {es : List (ℕ × Event)}
    {c : Conf Op Op.Res State L α} (h : M.HistIf ok ⟨.empty, []⟩ es c) :
    c.store.store.Sane ∧ ∀ i, Informed (System.own i es) c.store := by
  have hshown := h.shown (I := fun s => s.store.Sane) (E := fun e s => Informed [e] s)
    Store.sane_empty (fun hs hx => hs.change (store_change (hM ▸ hx)))
    (fun hs hx => (informed_nil _).own hs (hM ▸ hx)) fun _ he hx => he.other (hM ▸ hx)
  refine ⟨hshown.1, fun i k w hk => ?_⟩
  obtain ⟨o, r, hm, hsh⟩ := hk
  exact hshown.2 _ (System.mem_of_mem_own hm) k w ⟨o, r, List.mem_singleton.mpr rfl, hsh⟩

end Seaplane.Fleet
