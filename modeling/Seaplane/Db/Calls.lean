import Seaplane.Db.Client

/-!
Any number of clients at once: what their calls can do to the table, and what becomes of a call
that presents a version or a UUID that is no longer current.
-/

namespace Seaplane.Db

open Lib Database

inductive Call where
  | get (k : Key)
  | create (opts : Options) (o : Object)
  | update (opts : Options) (o : Object)
  | statusUpdate (opts : Options) (o : Object)
  | delete (opts : Options) (o : Object) (now : Time)
  | compact (c : CompactConfig)

/-- The version and UUID a call goes on with, unless it is refused for its form. -/
def expected (refused : Option ClientError) (o : Object) : Option (ℤ × Option Uid) :=
  if refused.isSome then none
  else do
    let v ← parseResourceVersion o.resourceVersion
    let uid ← parseObjectUID o.uid
    return (v, uid)

variable {o : Object} {f : Option Row → DbProg Outcome}

namespace Call

def code (send : Send) : Call → DbProg Outcome
  | .get k => Db.get k
  | .create opts o => Db.create send opts o
  | .update opts o => Db.update send opts o
  | .statusUpdate opts o => Db.statusUpdate send opts o
  | .delete opts o now => Db.delete send opts o now
  | .compact c => Db.compact c

/-- The object whose version and UUID the call presents. -/
def object : Call → Option Object
  | .update _ o | .statusUpdate _ o | .delete _ o _ => some o
  | _ => none

/-- The call names version `v` (0 for none), and the UUID if its object has one. -/
structure Names (l : Call) (o : Object) (v : ℤ) (uid : Option Uid) : Prop where
  object : l.object = some o
  version : parseResourceVersion o.resourceVersion = some v
  uid : parseObjectUID o.uid = some uid

/-- The call names version `v` and UUID `u`. -/
abbrev Presents (l : Call) (o : Object) (v : ℤ) (u : Uid) : Prop := l.Names o v (some u)

end Call

/-- The arguments with which a call on the object changes an existing row: the version and UUID
the object has, or those the call read if it has none. -/
structure Object.Expects (o : Object) (p : WriteParams) : Prop where
  key : p.key = o.key
  version : p.expectedVersion ≠ 0
  uid : 0 < p.expectedVersion → p.expectedUid.isSome
  presented : ∃ v uid, parseResourceVersion o.resourceVersion = some v ∧
    parseObjectUID o.uid = some uid ∧ (v ≠ 0 → p.expectedVersion = v) ∧
    (uid.isSome → p.expectedUid = uid)

namespace Call

/-- The arguments with which a call may reach the procedure. -/
def Writes : Call → WriteParams → Prop
  | .create _ o, p => p.key = o.key ∧ p.expectedVersion = 0
  | .update _ o, p | .statusUpdate _ o, p | .delete _ o _, p => o.Expects p
  | .get _, _ | .compact _, _ => False

def Issues (l : Call) (o : Op) : Prop :=
  (∃ k, o = .selectRow k) ∨ (∃ p, l.Writes p ∧ p.Issues o) ∨
    ∃ c, l = .compact c ∧ (o = .currentXactId ∨ ∃ x, o = .compact x c)

end Call

def clients : System Op Op.Res Database Choice Call Outcome where
  exec := exec
  code := Call.code send
  excl _ _ := false

/-! ### One call -/

/-- The end of a call whose connection holds. -/
def outcomeOf : Except SqlState WriteRow → Outcome
  | .error .P0002 => ⟨.error .conflict, false⟩
  | .error .P0003 => ⟨.error .alreadyExists, false⟩
  | .error .P0004 =>
    ⟨.error (.other "WriteStatus requires ExpectedVersion > 0: object must exist"), false⟩
  | .error .notNullViolation =>
    ⟨.error (.other "stored proc: null value in column violates not-null constraint"), false⟩
  | .ok r =>
    ⟨.ok (.result ⟨if r.changed then r.txid else 0, r.version, r.uid, r.changed⟩), r.changed⟩

lemma send_eq (p : WriteParams) : send p = (pgctlWrite p).bind fun a => .ret (outcomeOf a) := by
  unfold send callStoredProc
  simp only [Prog.bind_eq, Prog.bind_assoc]
  congr 1
  funext a
  rcases a with (_ | _ | _ | _) | ⟨u, v, x, _ | _⟩ <;> rfl

variable {p : WriteParams}

section Sat

-- `C` says that the call was stale when it began.
variable {C : Prop} {l : Call} {u : Option Uid} {v : ℤ}

variable {k : Key} {opts : Options}

lemma Call.Writes.uid (hl : l.Writes p) (hv : 0 < p.expectedVersion) : p.expectedUid.isSome := by
  cases l with
  | create opts o => exact absurd hl.2 (by omega)
  | get k | compact c => exact hl.elim
  | update opts o | statusUpdate opts o | delete opts o now => exact Object.Expects.uid hl hv

end Sat

/-! ### All calls -/

def Dml.isRow : Dml → Bool
  | .row _ _ => true
  | .noRow | .uniqueViolation | .notNullViolation => false

/-- The statement changed the table, by its answer. -/
def changes : (o : Op) → o.Res → Bool
  | .insertRow .., a | .reviveRow .., a | .updateStatus .., a | .updateObject .., a => Dml.isRow a
  | .compact .., n => n != 0
  | .currentXactId, _ | .selectRow _, _ | .endTx _, _ => false

lemma Dml.eq_row {a : Dml} (h : a.isRow) : ∃ u v, a = .row u v := by
  cases a with
  | row u v => exact ⟨u, v, rfl⟩
  | noRow | uniqueViolation | notNullViolation => cases h

lemma changes_of_table_ne {d d' : Database} {o : Op} {ch : Choice} {a : o.Res}
    (hx : exec o ch d = some (a, d')) (ht : d'.table ≠ d.table) : changes o a := by
  cases o with
  | currentXactId | selectRow k => cases hx; exact absurd rfl ht
  | endTx x =>
    obtain ⟨-, hx⟩ := Option.ite_none_right_eq_some.mp hx
    cases hx
    exact absurd rfl ht
  | insertRow x q =>
    rcases exec_insertRow hx with ⟨rfl, -⟩ | ⟨r, -, ⟨rfl, -⟩, -⟩
    · exact absurd rfl ht
    · rfl
  | reviveRow x q =>
    rcases exec_reviveRow hx with ⟨rfl, -⟩ | ⟨r, -, ⟨rfl, -⟩, -⟩
    · exact absurd rfl ht
    · rfl
  | updateStatus x q =>
    rcases exec_updateStatus hx with ⟨rfl, -⟩ | ⟨r0, r, -, ⟨rfl, -⟩, -⟩
    · exact absurd rfl ht
    · rfl
  | updateObject x q =>
    rcases exec_updateObject hx with ⟨rfl, -⟩ | ⟨r0, r, -, ⟨rfl, -⟩, -⟩
    · exact absurd rfl ht
    · rfl
  | compact x c =>
    obtain ⟨-, hx⟩ := Option.ite_none_right_eq_some.mp hx
    cases hx
    refine bne_iff_ne.mpr fun h => ?_
    rw [List.length_eq_zero_iff] at h
    rw [h] at ht
    exact ht rfl

/-- A statement that changes the table is the call's last: the call has succeeded. -/
def Decides : (o : Op) → (o.Res → DbProg Outcome) → Prop
  | .insertRow x _, k | .reviveRow x _, k | .updateStatus x _, k | .updateObject x _, k =>
    ∀ u v, k (Dml.row u v) = .ret ⟨.ok (.result ⟨x, v, u, true⟩), true⟩
  | .compact _ _, k => ∀ n : ℕ, k n = .ret ⟨.ok (.deleted n), n != 0⟩
  | .currentXactId, _ | .selectRow _, _ | .endTx _, _ => True

def Returns : (o : Op) → (o.Res → DbProg (Except SqlState WriteRow)) → Prop
  | .insertRow x _, k | .reviveRow x _, k | .updateStatus x _, k | .updateObject x _, k =>
    ∀ u v, k (Dml.row u v) = .ret (.ok ⟨u, v, x, true⟩)
  | .compact _ _, _ => False
  | .currentXactId, _ | .selectRow _, _ | .endTx _, _ => True

def Call.writes : Call → Bool
  | .create .. | .update .. | .statusUpdate .. | .delete .. => true
  | .get _ | .compact _ => false

/-- How a call changes the table with a statement. -/
inductive Call.Changed (d d' : Database) : Call → Op → Prop where
  /-- A row under a fresh UUID, at version 1, where there was none or a tombstone. -/
  | created {opts : Options} {obj : Object} {o : Op} (x : ℕ) (p : WriteParams) (r : Row)
      (ho : o = .insertRow x p ∨ o = .reviveRow x p)
      (hover : ∀ r0, d.table.lookup obj.key = some r0 → r0.tombstone)
      (hfresh : d.fresh r.uid) (hv : r.objectVersion = 1)
      (ht : d'.table = d.table.insert obj.key r) : Changed d d' (.create opts obj) o
  /-- The row of exactly the version and UUID expected, which gets the next version. -/
  | replaced {l : Call} {obj : Object} {o : Op} (x : ℕ) (p : WriteParams) (r0 r : Row)
      (hl : l.object = some obj) (ho : o = .updateStatus x p ∨ o = .updateObject x p)
      (hp : obj.Expects p) (hrow : d.table.lookup obj.key = some r0)
      (hver : r0.objectVersion = p.expectedVersion) (huid : p.expectedUid = some r0.uid)
      (hu : r.uid = r0.uid) (hv : r.objectVersion = p.expectedVersion + 1)
      (ht : d'.table = d.table.insert obj.key r) : Changed d d' l o
  /-- Some tombstones are gone. -/
  | compacted {c : CompactConfig} {x : ℕ}
      (h : ∀ k, d'.table.lookup k = d.table.lookup k ∨
        d'.table.lookup k = none ∧ ∀ r, d.table.lookup k = some r → r.tombstone) :
      Changed d d' (.compact c) (.compact x c)

section Changes

variable {l : Call} {o : Op} {d d' : Database} {ch : Choice} {a : o.Res}

lemma Call.Writes.created {x : ℕ} {r : Row} (hl : l.Writes p) (hv : p.expectedVersion = 0)
    (ho : o = .insertRow x p ∨ o = .reviveRow x p) (hr : d.Created x p r)
    (ht : d'.table = d.table.insert p.key r) : l.Changed d d' o := by
  cases l with
  | create opts obj =>
    obtain ⟨hk, -⟩ := hl
    exact .created x p r ho (hk ▸ hr.vacant) hr.fresh hr.version (hk ▸ ht)
  | get k | compact c => exact hl.elim
  | update opts obj | statusUpdate opts obj | delete opts obj now => exact absurd hv hl.version

lemma Call.Writes.replaced {x : ℕ} {r0 r : Row} (hd : d.Inv) (hl : l.Writes p)
    (hv : p.expectedVersion ≠ 0) (ho : o = .updateStatus x p ∨ o = .updateObject x p)
    (hr : d.Replaced x p r0 r) (ht : d'.table = d.table.insert p.key r) : l.Changed d d' o := by
  obtain ⟨obj, hobj, hp⟩ : ∃ obj, l.object = some obj ∧ obj.Expects p := by
    cases l with
    | create opts obj => exact absurd hl.2 hv
    | get k | compact c => exact hl.elim
    | update opts obj | statusUpdate opts obj | delete opts obj now => exact ⟨obj, rfl, hl⟩
  have hm := hr.matched
  simp only [WriteParams.matches?, Bool.and_eq_true, beq_iff_eq] at hm
  -- committed versions are positive, so the call had to name a UUID
  have hpos := hd.historic.pos _ (hd.historic.mem _ _ hr.row)
  have huid : p.expectedUid = some r0.uid := by
    obtain ⟨u, hu⟩ := Option.isSome_iff_exists.mp (hp.uid (by simp only at hpos; omega))
    rw [hu] at hm ⊢
    rw [beq_iff_eq.mp hm.2]
  have hver : r.objectVersion = p.expectedVersion + 1 := by rw [hr.version, hm.1]
  exact .replaced x p r0 r hobj ho hp (hp.key ▸ hr.row) hm.1 huid hr.uid hver (hp.key ▸ ht)

lemma Call.Issues.changed (hd : d.Inv) (hi : l.Issues o)
    (hx : exec o ch d = some (a, d')) (ht : d'.table ≠ d.table) : l.Changed d d' o := by
  rcases hi with ⟨k, rfl⟩ | ⟨p, hl, hp⟩ | ⟨c, rfl, rfl | ⟨x, rfl⟩⟩
  · cases hx; exact absurd rfl ht
  · cases o with
    | currentXactId | selectRow k => cases hx; exact absurd rfl ht
    | endTx x =>
      obtain ⟨-, hx⟩ := Option.ite_none_right_eq_some.mp hx
      cases hx
      exact absurd rfl ht
    | compact x c => cases hp
    | insertRow x q | reviveRow x q =>
      obtain ⟨rfl, hv⟩ := hp
      rcases exec_create hx x q (by simp) with rfl | ⟨r, hr, -, rfl⟩
      · exact absurd rfl ht
      · exact hl.created hv (by simp) hr rfl
    | updateStatus x q | updateObject x q =>
      obtain ⟨rfl, hv⟩ := hp
      rcases exec_replace hx x q (by simp) with rfl | ⟨r0, r, hr, rfl⟩
      · exact absurd rfl ht
      · exact hl.replaced hd hv (by simp) hr rfl
  · cases hx; exact absurd rfl ht
  · obtain ⟨-, hx⟩ := Option.ite_none_right_eq_some.mp hx
    cases hx
    refine .compacted fun k => ?_
    rcases lookup_commitCompact d x c ch k with h | ⟨h, r, hr, htomb, -⟩
    · exact .inl h
    · refine .inr ⟨h, fun r' hr' => ?_⟩
      rw [hr] at hr'
      cases hr'
      exact htomb

lemma Decides.success {k : o.Res → DbProg Outcome} (hk : Decides o k) (ha : changes o a) :
    ∃ w, k a = .ret ⟨.ok w, true⟩ := by
  cases o with
  | currentXactId | selectRow k | endTx x => cases ha
  | insertRow x q | reviveRow x q | updateStatus x q | updateObject x q =>
    obtain ⟨u, v, rfl⟩ := Dml.eq_row ha; exact ⟨_, hk u v⟩
  | compact x c => exact ⟨.deleted a, by rw [hk, show (a != 0) = true from ha]⟩

end Changes

section Runs

abbrev ClientConf := Conf Op Op.Res Database Call Outcome

variable {c c' c'' : ClientConf}

/-- An object without a version, with this UUID. -/
def plainObject (uid : UidText) (resourceVersion : String) : Object :=
  ⟨⟨"g/v1/K", "ns", "a"⟩, "", uid, resourceVersion, ⟨[], [], [], [], 0⟩, .obj [], .obj []⟩

def plainOptions : Options := ⟨[], none, none, none⟩

/-- The object is created, deleted and created again. -/
def recreation : List (System.Event Choice Call) :=
  [.spawn (.create plainOptions (plainObject .empty "")), .act 0 ⟨0, 0, []⟩, .act 0 ⟨0, 7, []⟩,
   .spawn (.delete plainOptions (plainObject .empty "") 1), .act 1 ⟨0, 0, []⟩, .act 1 ⟨0, 0, []⟩,
   .act 1 ⟨0, 0, []⟩, .act 1 ⟨0, 0, []⟩,
   .spawn (.create plainOptions (plainObject .empty "")), .act 2 ⟨0, 0, []⟩, .act 2 ⟨0, 8, []⟩,
   .act 2 ⟨0, 8, []⟩]

end Runs

end Seaplane.Db
