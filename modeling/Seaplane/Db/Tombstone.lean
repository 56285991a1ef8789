import Seaplane.Db.Calls

/-!
What the client's calls do to a row that is fully deleted.

Get, Update and an unversioned Delete look at the row first and find it gone. A status write, and
a Delete with a version, go straight to the procedure, which compares version and UUID only: a
caller that holds the version of the completed deletion still changes the tombstone.
-/

namespace Seaplane.Db

open Lib Database

/-! ### The procedure run alone -/

section Alone

variable {p : WriteParams} {d : Database} {r : Row} {x : ℕ} (ch : Choice)

lemma eval_raiseException (e : SqlState) (hx : x ∈ d.running) :
    ∃ d', (raiseException x e).eval exec ch d = some (.error e, d') ∧
      d'.table = d.table :=
  ⟨_, Prog.eval_op (if_pos hx), rfl⟩

lemma update_miss {k : Key} {cond : Row → Bool} {set : Row → Option Row}
    (hk : d.table.lookup k = some r) (hc : cond r = false) :
    d.update x k cond set = (.noRow, d) := by
  rw [Database.update, hk, Option.filter_some_neg (by simp [hc])]

lemma eval_pgctlWrite :
    (pgctlWrite p).eval exec ch d =
      (if !p.forceWrite ∧ 0 < p.expectedVersion then suppressOr d.nextXid p (d.table.lookup p.key)
        else upsert d.nextXid p).eval exec ch
        { d with nextXid := d.nextXid + 1, running := d.nextXid :: d.running } := by
  simp only [pgctlWrite, Prog.bind_eq, Prog.call_bind]
  rw [Prog.eval_op (show exec .currentXactId ch d = some (_, _) from rfl)]
  split
  · exact Prog.eval_op (show exec (.selectRow p.key) ch _ = some (_, _) from rfl)
  · rfl

/-- The call gives a value for every column it sets. -/
structure WriteParams.Complete (p : WriteParams) : Prop where
  status : p.statusOnly → p.status.isSome
  spec : ¬ p.statusOnly → p.spec.isSome
  metadata : ¬ p.statusOnly → p.metadata.isSome

variable (hx : x ∈ d.running) (hv : p.expectedVersion ≠ 0) (hp : p.Complete)
  (hk : d.table.lookup p.key = some r)
include hv hk

include hx in
lemma eval_upsert_miss (hm : p.matches? r = false) :
    ∃ d', (upsert x p).eval exec ch d = some (.error .P0002, d') ∧ d'.table = d.table := by
  unfold upsert
  simp only [if_neg hv]
  split
  · have h : exec (.updateStatus x p) ch d = some (.noRow, d) := by
      rw [exec, if_pos hx, update_miss hk hm]
    exact (Prog.eval_op h) ▸ eval_raiseException ch .P0002 hx
  · have h : exec (.updateObject x p) ch d = some (.noRow, d) := by
      rw [exec, if_pos hx, update_miss hk hm]
    exact (Prog.eval_op h) ▸ eval_raiseException ch .P0002 hx

lemma eval_pgctlWrite_miss (hm : p.matches? r = false) :
    ∃ d', (pgctlWrite p).eval exec ch d = some (.error .P0002, d') ∧ d'.table = d.table := by
  rw [eval_pgctlWrite]
  have hx : d.nextXid ∈ d.nextXid :: d.running := List.mem_cons_self
  split
  · simp only [hk, suppressOr, hm, Bool.not_false, if_true]
    exact eval_raiseException ch .P0002 hx
  · exact eval_upsert_miss ch hx hv hk hm

end Alone

/-! ### The calls run alone -/

variable {refused : Option ClientError} {o : Object} {v : ℤ} {opts : Options} {e : ClientError}

variable {k : ℤ → Option Uid → DbProg Outcome}

namespace Call

/-- The key of a call that reads or changes one object. -/
def target : Call → Option Key
  | .get k => some k
  | .update _ o | .statusUpdate _ o | .delete _ o _ => some o.key
  | .create .. | .compact _ => none

/-- A status write or a Delete that presents the version and UUID of the row. -/
def names : Call → Row → Bool
  | .statusUpdate _ o, r | .delete _ o _, r =>
    parseResourceVersion o.resourceVersion == some r.objectVersion && o.uid == .uid r.uid
  | .get _, _ | .create .., _ | .update .., _ | .compact _, _ => false

end Call

section Frozen

variable {d d' : Database} {k : Key} {r : Row} {l : Call} {ch : Choice} {a : Outcome}

variable {u : Uid}

lemma matches_iff {p : WriteParams} (hu : p.expectedUid = some u) :
    p.matches? r = true ↔ p.expectedVersion = r.objectVersion ∧ u = r.uid := by
  simp only [WriteParams.matches?, hu, Option.all_some, Bool.and_eq_true, beq_iff_eq]
  exact and_congr eq_comm eq_comm

lemma Object.uid_of_parse (h : parseObjectUID o.uid = some (some u)) : o.uid = .uid u := by
  cases hu : o.uid with
  | empty | invalid => rw [hu] at h; cases h
  | uid u' => rw [hu] at h; cases h; rfl

def deletion : List (System.Event Choice Call) := recreation.take 8

lemma deleted : ∃ (c : ClientConf) (r : Row), clients.Reachable (· = .empty) c ∧
    c.store.table.lookup ⟨"g/v1/K", "ns", "a"⟩ = some r ∧ r.tombstone ∧ r.objectVersion = 2 ∧
    r.uid = 7 := by
  have hrun : (clients.runSchedule deletion ⟨.empty, []⟩).map (fun c =>
      (c.store.table.lookup ⟨"g/v1/K", "ns", "a"⟩).map fun r =>
        (r.tombstone, r.objectVersion, r.uid)) = some (some (true, 2, 7)) := by decide +kernel
  obtain ⟨c, hc, hobs⟩ := Option.map_eq_some_iff.mp hrun
  obtain ⟨r, hr, hobs⟩ := Option.map_eq_some_iff.mp hobs
  simp only [Prod.mk.injEq] at hobs
  exact ⟨c, r, ⟨.empty, rfl, System.run_of_schedule hc⟩, hr, hobs⟩

end Frozen

end Seaplane.Db
