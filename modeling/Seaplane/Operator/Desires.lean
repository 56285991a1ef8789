import Seaplane.Fleet.System

/-!
The operator's DynamoDB client, and the check of the kube-applier's reports.

The operator upserts and checks several documents at once, from as many goroutines; here they go
one after another. The documents are different ones, so their order does not matter.
-/

namespace Seaplane.Operator

open Lib Kube Fleet Dynamo

def dynamo (o : Dynamo.Op) : FleetProg o.Res := perform (.dynamo o)

structure UpsertResult where
  changed : Bool
  updateTime : ℤ

/-- The part of `upsertDesire` that goes to DynamoDB. -/
def upsertMissed (k : DocKey) (spec : DesireSpec) : FleetProg (Except Unit UpsertResult) := do
  match ← dynamo (.getItem k) with
  | .error _ => return .error ()
  | .ok existing =>
    match existing.filter (·.spec = spec) with
    | some i => do
      dynamo (.cacheStore k i)
      return .ok ⟨false, i.updateTime⟩
    | none => do
      let t ← now
      -- truncated to seconds, as the stored value is
      let i : Dynamo.Item := ⟨spec, t / second⟩
      match ← dynamo (.putItem k i) with
      | .error _ => return .error ()
      | .ok _ => do
        dynamo (.cacheStore k i)
        return .ok ⟨true, i.updateTime⟩

/-- `upsertDesire`: write a desire unless it is there already. -/
def upsertDesire (k : DocKey) (spec : DesireSpec) : FleetProg (Except Unit UpsertResult) := do
  let cached ← dynamo (.cacheLoad k)
  match cached.filter (·.spec = spec) with
  | some i => return .ok ⟨false, i.updateTime⟩
  | none => upsertMissed k spec

/-- `DeleteDesireSpec`. -/
def deleteDesireSpec (k : DocKey) : FleetProg (Except Unit Unit) := do
  match ← dynamo (.deleteItem k) with
  | .error _ => return .error ()
  | .ok _ => do
    dynamo (.cacheDelete k)
    return .ok ()

/-- The specs of several documents are removed; a failure does not stop the others. -/
def deleteDesireSpecs : List DocKey → FleetProg (Except Unit Unit)
  | [] => return .ok ()
  | k :: ks => do
    let r ← deleteDesireSpec k
    let rest ← deleteDesireSpecs ks
    return r.bind fun _ => rest

structure DesireStatusEntry where
  key : DocKey
  desireUpdateTime : ℤ

/-- The desires are written, all of them; the entries, if all writes succeed. -/
def upsertDesires : List (DocKey × DesireSpec) → FleetProg (Except Unit (List DesireStatusEntry))
  | [] => return .ok []
  | (k, spec) :: items => do
    let r ← upsertDesire k spec
    let rest ← upsertDesires items
    return r.bind fun u => rest.map (⟨k, u.updateTime⟩ :: ·)

/-! ### Reports -/

inductive Sync where
  | synced
  | failed
  | awaiting
  deriving DecidableEq

/-- Go's `time.IsZero`; times count from there. -/
def isZero (t : ℤ) : Bool := t == 0

def syncOf (e : DesireStatusEntry) : Except StatusErr ApplyDesireStatus → Sync
  | .error .notFound => .awaiting
  | .error .other => .failed
  | .ok s =>
    if !isZero e.desireUpdateTime && decide (s.observedDesireUpdateTime < e.desireUpdateTime) then
      .awaiting
    else
      match s.successful with
      | none => .awaiting
      | some true => .synced
      | some false => .failed

lemma syncOf_synced {e : DesireStatusEntry} {st : ApplyDesireStatus}
    (h : syncOf e (.ok st) = .synced) : st.successful = some true ∧
      (e.desireUpdateTime ≠ 0 → e.desireUpdateTime ≤ st.item.updateTime) := by
  simp only [syncOf] at h
  split at h
  · cases h
  · next hobs =>
    split at h
    · cases h
    · next hs =>
      refine ⟨hs, fun hne => ?_⟩
      by_contra hlt
      refine hobs ?_
      simp only [isZero, beq_eq_false_iff_ne.mpr hne, Bool.not_false, Bool.true_and]
      exact decide_eq_true (by simpa [ApplyDesireStatus.observedDesireUpdateTime] using hlt)
    · cases h

def getStatuses : List DesireStatusEntry → FleetProg (List Sync)
  | [] => return []
  | e :: es => do
    let r ← dynamo (.getApplyStatus e.key)
    let rest ← getStatuses es
    return syncOf e r :: rest

def conditionSynced : String := "Synced"

def syncedCondition (statuses : List Sync) : Condition :=
  if statuses.contains .failed then ⟨conditionSynced, false, "SyncFailed"⟩
  else if statuses.all (· == .synced) then ⟨conditionSynced, true, "AllSynced"⟩
  else ⟨conditionSynced, false, "AwaitingSync"⟩

/-- `CheckApplyDesireStatuses`. -/
def checkApplyDesireStatuses (entries : List DesireStatusEntry) : FleetProg Condition := do
  return syncedCondition (← getStatuses entries)

lemma syncedCondition_status {statuses : List Sync} (h : (syncedCondition statuses).status) :
    ∀ s ∈ statuses, s = .synced := by
  unfold syncedCondition at h
  split at h
  · cases h
  · split at h
    · next hall => simpa using hall
    · cases h

/-! ### Which documents they are about -/

section

variable {B : Fleet.Op → Prop} {k : DocKey}

/-- What the operations on the document satisfy, and the clock, the write of its desire does. -/
lemma always_upsertDesire (hd : ∀ d : Dynamo.Op, (∀ k', d.touches k' = true → k' = k) →
    B (.dynamo d)) (hnow : B .now) {spec : DesireSpec} :
    (upsertDesire k spec).Always fun o _ => B o := by
  have hread : ∀ d : Dynamo.Op, (∀ k', d.touches k' = false) → B (.dynamo d) :=
    fun d h => hd d fun k' hk => absurd hk (by simp [h k'])
  have hwrite : ∀ d : Dynamo.Op, (∀ k', d.touches k' = (k == k')) → B (.dynamo d) :=
    fun d h => hd d fun k' hk => (beq_iff_eq.mp (h k' ▸ hk)).symm
  refine .call (hread _ fun _ => rfl) fun r => ?_
  split
  · trivial
  refine .call (hread _ fun _ => rfl) fun r => ?_
  split
  · trivial
  split
  · exact ⟨hwrite _ fun _ => rfl, fun _ => trivial⟩
  refine ⟨hnow, fun t => ⟨hwrite _ fun _ => rfl, fun r => ?_⟩⟩
  simp only [Prog.ret_bind]
  split
  · trivial
  · exact ⟨hwrite _ fun _ => rfl, fun _ => trivial⟩

lemma always_deleteDesireSpec (hdel : B (.dynamo (.deleteItem k)))
    (hcache : B (.dynamo (.cacheDelete k))) : (deleteDesireSpec k).Always fun o _ => B o :=
  .call hdel fun r => by cases r <;> first | trivial | exact ⟨hcache, fun _ => trivial⟩

lemma always_upsertDesires {items : List (DocKey × DesireSpec)}
    (h : ∀ it ∈ items, (upsertDesire it.1 it.2).Always fun o _ => B o) :
    (upsertDesires items).Always fun o _ => B o := by
  induction items with
  | nil => trivial
  | cons it items ih =>
    refine (h it List.mem_cons_self).seq fun _ => ?_
    exact (ih fun it' h' => h it' (List.mem_cons_of_mem it h')).seq fun _ => trivial

lemma always_deleteDesireSpecs {ks : List DocKey}
    (h : ∀ k ∈ ks, (deleteDesireSpec k).Always fun o _ => B o) :
    (deleteDesireSpecs ks).Always fun o _ => B o := by
  induction ks with
  | nil => trivial
  | cons k ks ih =>
    refine (h k List.mem_cons_self).seq fun _ => ?_
    exact (ih fun k' h' => h k' (List.mem_cons_of_mem k h')).seq fun _ => trivial

lemma always_checkApplyDesireStatuses {es : List DesireStatusEntry}
    (h : ∀ k, B (.dynamo (.getApplyStatus k))) :
    (checkApplyDesireStatuses es).Always fun o _ => B o := by
  have hget : (getStatuses es).Always fun o _ => B o := by
    induction es with
    | nil => trivial
    | cons e es ih => exact ⟨h _, fun r => ih.seq fun _ => trivial⟩
  exact hget.seq fun _ => trivial

end

end Seaplane.Operator
