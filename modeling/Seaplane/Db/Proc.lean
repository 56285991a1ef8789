import Seaplane.Db.History
import Seaplane.Lib.RelyGuarantee

/-!
The stored procedure `pgctl_write`, statement by statement.

Under READ COMMITTED the suppression read and the final statement see the database at different
moments, so the procedure is a program over the database's statements.
-/

namespace Seaplane.Db

open Lib Database

abbrev DbProg := Prog Op Op.Res

abbrev perform (o : Op) : DbProg o.Res := Prog.call o

inductive SqlState where
  /-- Conflict. -/
  | P0002
  /-- Already exists. -/
  | P0003
  /-- A status write needs a version. -/
  | P0004
  | notNullViolation
  deriving DecidableEq

/-- The row `pgctl_write` returns. -/
structure WriteRow where
  uid : Uid
  version : ℤ
  txid : ℕ
  changed : Bool
  deriving DecidableEq

/-- Equality with a parameter that may be NULL, as a condition. -/
def eqParam (a : Json) (p : Option Json) : Bool := p.any fun b => a.jsonbEq b

/-- The content of the row is what the call would write. -/
def WriteParams.suppressed (p : WriteParams) (r : Row) : Bool :=
  if p.statusOnly then eqParam r.status p.status
  else eqParam r.spec p.spec && (p.status.isNone || eqParam r.status p.status) &&
    eqParam r.metadata p.metadata && r.deletionTimestamp == p.deletionTs

/-- RAISE EXCEPTION: the transaction is rolled back. -/
def raiseException (x : ℕ) (e : SqlState) : DbProg (Except SqlState WriteRow) := do
  perform (.endTx x)
  return .error e

/-- What follows the statement that was to change the row. -/
def returning (x : ℕ) (missing : SqlState) : Dml → DbProg (Except SqlState WriteRow)
  | .row uid version => return .ok ⟨uid, version, x, true⟩
  | .noRow => raiseException x missing
  | .uniqueViolation | .notNullViolation => raiseException x .notNullViolation

def upsert (x : ℕ) (p : WriteParams) : DbProg (Except SqlState WriteRow) :=
  if p.statusOnly then
    if p.expectedVersion = 0 then raiseException x .P0004
    else do returning x .P0002 (← perform (.updateStatus x p))
  else if p.expectedVersion = 0 then do
    let a : Dml ← perform (.insertRow x p)
    match a with
    | .uniqueViolation => returning x .P0003 (← perform (.reviveRow x p))
    | a => returning x .P0003 a
  else do returning x .P0002 (← perform (.updateObject x p))

/-- The suppression check on the row it read. -/
def suppressOr (x : ℕ) (p : WriteParams) : Option Row → DbProg (Except SqlState WriteRow)
  | none => upsert x p
  | some r =>
    if !p.matches? r then raiseException x .P0002
    else if p.suppressed r then do
      perform (.endTx x)
      return .ok ⟨r.uid, r.objectVersion, 0, false⟩
    else upsert x p

def pgctlWrite (p : WriteParams) : DbProg (Except SqlState WriteRow) := do
  let x ← perform .currentXactId
  if !p.forceWrite ∧ 0 < p.expectedVersion then
    suppressOr x p (← perform (.selectRow p.key))
  else upsert x p

/-! ### What the procedure can do -/

/-- The statements the procedure issues when called with `p`. -/
def WriteParams.Issues (p : WriteParams) : Op → Prop
  | .currentXactId | .selectRow _ | .endTx _ => True
  | .insertRow _ q | .reviveRow _ q => q = p ∧ p.expectedVersion = 0
  | .updateStatus _ q | .updateObject _ q => q = p ∧ p.expectedVersion ≠ 0
  | .compact .. => False

/-- What a call with `p` can do to the table. -/
inductive WriteParams.Wrote (p : WriteParams) (d d' : Database) : Prop where
  | same (h : d'.table = d.table)
  | created (x : ℕ) (r : Row) (hv : p.expectedVersion = 0) (hr : d.Created x p r)
      (h : d'.table = d.table.insert p.key r)
  | replaced (x : ℕ) (r0 r : Row) (hv : p.expectedVersion ≠ 0) (hr : d.Replaced x p r0 r)
      (h : d'.table = d.table.insert p.key r)

variable {p : WriteParams} {d d' : Database}

lemma exec_wrote {o : Op} {ch : Choice} {a : o.Res} (ho : p.Issues o)
    (h : exec o ch d = some (a, d')) : p.Wrote d d' := by
  cases o with
  | currentXactId | selectRow k => cases h; exact .same rfl
  | endTx x =>
    obtain ⟨-, h⟩ := Option.ite_none_right_eq_some.mp h
    cases h
    exact .same rfl
  | compact x c => cases ho
  | insertRow x q | reviveRow x q =>
    obtain ⟨rfl, hv⟩ := ho
    rcases exec_create h x q (by simp) with rfl | ⟨r, hr, -, rfl⟩
    · exact .same rfl
    · exact .created x r hv hr rfl
  | updateStatus x q | updateObject x q =>
    obtain ⟨rfl, hv⟩ := ho
    rcases exec_replace h x q (by simp) with rfl | ⟨r0, r, hr, rfl⟩
    · exact .same rfl
    · exact .replaced x r0 r hv hr rfl

/-- What holds of the database while only the client writes to it. -/
structure Database.Inv (d : Database) : Prop where
  sane : d.Sane
  historic : d.Historic
  client : ∀ k r, d.table.lookup k = some r → r.ClientWritten

/-- The metadata in `p`, if any, was marshalled by the client. -/
def WriteParams.ClientWritten (p : WriteParams) : Prop :=
  ∀ m, p.metadata = some m → ∃ sm : StoredMetadata, m = sm.toJson

lemma Database.Inv.exec {o : Op} {ch : Choice} {a : o.Res} (hd : d.Inv) (ho : p.Issues o)
    (hp : p.ClientWritten) (h : exec o ch d = some (a, d')) : d'.Inv := by
  refine ⟨hd.sane.step ⟨o, ch, a, h⟩, hd.historic.step ⟨o, ch, a, h⟩, ?_⟩
  have insert : ∀ r : Row, r.ClientWritten → d'.table = d.table.insert p.key r →
      ∀ k r', d'.table.lookup k = some r' → r'.ClientWritten := by
    intro r hr ht k r' hk
    rw [ht] at hk
    by_cases hkey : k = p.key
    · subst hkey
      rw [AList.lookup_insert] at hk
      cases hk
      exact hr
    · rw [AList.lookup_insert_ne hkey] at hk
      exact hd.client k r' hk
  cases exec_wrote ho h with
  | same ht => rw [ht]; exact hd.client
  | created x r _ hr ht => exact insert r (hp _ hr.metadata) ht
  | replaced x r0 r _ hr ht =>
    refine insert r ?_ ht
    rcases hr.metadata with hm | hm
    · exact hp _ hm
    · obtain ⟨sm, hsm⟩ := hd.client _ _ hr.row
      exact ⟨sm, hm.trans hsm⟩

/-! ### The procedure among other calls -/

/-- What other calls may do between two statements of this one. -/
def Disturbed (d d' : Database) : Prop := d' = d ∨ d.Step d'

/-- The UUID was committed once, and now the key has another one, or the same at a later
version; or there is a version without a UUID. A version of 0 stands for none. -/
def Stale (k : Key) (uid : Option Uid) (v : ℤ) (d : Database) : Prop :=
  match uid with
  | some u => (∃ e ∈ d.hist, e.2.uid = u) ∧
      ∀ r, d.table.lookup k = some r → r.uid = u → v ≠ 0 ∧ v < r.objectVersion
  | none => v ≠ 0

lemma Stale.disturb {k : Key} {uid : Option Uid} {v : ℤ} (h : Stale k uid v d)
    (hd : Disturbed d d') : Stale k uid v d' := by
  cases uid with
  | none => exact h
  | some u =>
    obtain ⟨⟨e, he, heu⟩, hrow⟩ := h
    rcases hd with rfl | ⟨o, ch, a, hx⟩
    · exact ⟨⟨e, he, heu⟩, hrow⟩
    cases exec_effect hx with
    | refl | begin | finish x => exact ⟨⟨e, he, heu⟩, hrow⟩
    | create x p r hr =>
      refine ⟨⟨e, List.mem_cons_of_mem _ he, heu⟩, fun r' hk hu => ?_⟩
      rw [lookup_commitRow] at hk
      split at hk
      · cases hk
        have hf := hr.fresh
        simp only [Database.fresh, List.all_eq_true, bne_iff_ne] at hf
        exact absurd (heu.trans hu.symm) (hf e he)
      · exact hrow r' hk hu
    | replace x p r0 r hr =>
      refine ⟨⟨e, List.mem_cons_of_mem _ he, heu⟩, fun r' hk hu => ?_⟩
      rw [lookup_commitRow] at hk
      split at hk
      · rename_i hkey
        cases hk
        have h0 := hrow r0 (hkey ▸ hr.row) (hr.uid.symm.trans hu)
        have hv := hr.version
        exact ⟨h0.1, by omega⟩
      · exact hrow r' hk hu
    | compact x c ch =>
      refine ⟨⟨e, he, heu⟩, fun r hk hu => ?_⟩
      rcases lookup_commitCompact d x c ch k with h1 | ⟨h1, -⟩
      · exact hrow r (h1 ▸ hk) hu
      · rw [h1] at hk; cases hk

lemma Stale.matches {v : ℤ} {r : Row} (h : Stale p.key p.expectedUid v d) (hd : d.Inv)
    (hv : p.expectedVersion = v) (huid : 0 < v → p.expectedUid.isSome)
    (hk : d.table.lookup p.key = some r) : p.matches? r = false := by
  rw [Bool.eq_false_iff]
  intro hm
  simp only [WriteParams.matches?, Bool.and_eq_true, beq_iff_eq] at hm
  have hpos := hd.historic.pos _ (hd.historic.mem _ _ hk)
  cases hu : p.expectedUid with
  | some u =>
    rw [hu] at h hm
    have := (h.2 r hk (by simpa using hm.2)).2
    omega
  | none =>
    -- versions are positive, and a positive one needs a UUID
    have := huid (by simp only at hpos; omega)
    simp [hu] at this

section Sat

-- `C` says that the call was stale when it began.
variable {C : Prop}
  (hC : C → p.expectedVersion ≠ 0 ∧ (0 < p.expectedVersion → p.expectedUid.isSome))
  (hp : p.ClientWritten) {G : Op → Database → Database → Prop}
  (hG : ∀ o d d', p.Issues o → d.Step d' → G o d d')

end Sat

end Seaplane.Db
