import Seaplane.Db.Ambiguous
import Seaplane.Db.Tombstone
import Seaplane.Lib.Trace

/-!
What a call asks the procedure to write, and what becomes of the row.

Whether or not its connection holds, every statement of a call that can change a row carries the
arguments of one call of the procedure. They come from the caller's object and from the row the
call has read first. A statement that changes a row replaces the very version and incarnation it
names, so a row that was read at that version is the row that is replaced.
-/

namespace Seaplane.Db

open Lib Database

abbrev Log := List (Seen Op Op.Res)

def Read (tr : Log) (k : Key) (r : Row) : Prop := ⟨.selectRow k, some r⟩ ∈ tr

/-- The metadata an Update stores over the row it has read. -/
def updatedMetadata (current : Row) (o : Object) : StoredMetadata :=
  if current.spec.goEqual o.spec then o.metadata
  else { o.metadata with generation := currentGeneration current.metadata + 1 }

/-- The arguments with which a call that has seen `tr` may reach the procedure. -/
inductive Call.Sends (tr : Log) (p : WriteParams) : Call → Prop where
  | create {opts : Options} {o : Object} (key : p.key = o.key) (whole : p.statusOnly = false)
      (version : p.expectedVersion = 0) (mark : p.deletionTs = none)
      (metadata : p.metadata = some { o.metadata with generation := 1 }.toJson) :
      Sends tr p (.create opts o)
  | update {opts : Options} {o : Object} {current : Row} (key : p.key = o.key)
      (whole : p.statusOnly = false)
      (version : parseResourceVersion o.resourceVersion = some p.expectedVersion)
      (named : p.expectedVersion ≠ 0) (uid : parseObjectUID o.uid = some p.expectedUid)
      (incarnation : 0 < p.expectedVersion → p.expectedUid = some current.uid)
      (read : Read tr o.key current) (spec : p.spec = some o.spec) (status : p.status = none)
      (metadata : p.metadata = some (updatedMetadata current o).toJson)
      (mark : p.deletionTs = current.deletionTimestamp) : Sends tr p (.update opts o)
  | mark {opts : Options} {o : Object} {now : Time} {current : Row} (key : p.key = o.key)
      (whole : p.statusOnly = false) (unforced : p.forceWrite = false)
      (unversioned : parseResourceVersion o.resourceVersion = some 0)
      (read : Read tr o.key current) (version : p.expectedVersion = current.objectVersion)
      (uid : p.expectedUid = some current.uid) (spec : p.spec = some current.spec)
      (status : p.status = some current.status) (metadata : p.metadata = some current.metadata)
      (mark : p.deletionTs = some (current.deletionTimestamp.getD now)) :
      Sends tr p (.delete opts o now)
  | overwrite {opts : Options} {o : Object} {now : Time} (key : p.key = o.key)
      (whole : p.statusOnly = false)
      (version : parseResourceVersion o.resourceVersion = some p.expectedVersion)
      (versioned : p.expectedVersion ≠ 0) (uid : parseObjectUID o.uid = some p.expectedUid)
      (named : p.expectedUid ≠ none) (spec : p.spec = some o.spec)
      (status : p.status = some o.status) (metadata : p.metadata = some o.metadata.toJson)
      (mark : p.deletionTs = some now) : Sends tr p (.delete opts o now)
  | status {opts : Options} {o : Object} (key : p.key = o.key) (part : p.statusOnly = true)
      (named : p.expectedVersion ≠ 0) (status : p.status = some o.status) :
      Sends tr p (.statusUpdate opts o)

/-- The suppression check was made, and did not end the call. -/
def Call.Checked (l : Call) (tr : Log) (p : WriteParams) : Prop :=
  p.forceWrite = false → 0 < p.expectedVersion →
    (∃ r, Read tr p.key r ∧ p.matches? r ∧ p.suppressed r = false) ∨
    ∃ tr', (⟨.selectRow p.key, none⟩ :: tr').Sublist tr ∧ l.Sends tr' p

/-- The statements a call may issue, given what it has seen. -/
def Call.Allowed (l : Call) (tr : Log) : Op → Prop
  | .insertRow _ p | .reviveRow _ p => l.Sends tr p ∧ p.statusOnly = false ∧ p.expectedVersion = 0
  | .updateStatus _ p => l.Sends tr p ∧ p.statusOnly = true
  | .updateObject _ p => l.Sends tr p ∧ p.statusOnly = false ∧ p.expectedVersion ≠ 0 ∧
      l.Checked tr p
  | .compact _ _ => ∃ c, l = .compact c
  | .currentXactId | .selectRow _ | .endTx _ => True

variable {k : Key} {r r0 : Row} {opts : Options} {now : Time}

section

variable {l : Call} {tr tr' : Log} {p : WriteParams}

lemma Read.mono (h : Read tr k r) (hs : tr.Sublist tr') : Read tr' k r :=
  hs.subset h

lemma Call.Sends.mono (h : l.Sends tr p) (hs : tr.Sublist tr') : l.Sends tr' p := by
  cases h with
  | create key whole version mark metadata => exact .create key whole version mark metadata
  | update key whole version named uid incarnation read spec status metadata mark =>
    exact .update key whole version named uid incarnation (read.mono hs) spec status metadata mark
  | mark key whole unforced unversioned read version uid spec status metadata mark =>
    exact .mark key whole unforced unversioned (read.mono hs) version uid spec status metadata mark
  | overwrite key whole version versioned uid named spec status metadata mark =>
    exact .overwrite key whole version versioned uid named spec status metadata mark
  | status key part named status => exact .status key part named status

end

/-! ### The procedure -/

abbrev AnyAnswer : (o : Op) → o.Res → Prop := fun _ _ => True

/-- None of the statements has changed the table. -/
def Still (tr : Log) : Prop := ∀ e ∈ tr, changes e.1 e.2 = false

lemma still_nil : Still [] := by simp [Still]

lemma Still.cons {tr : Log} {o : Op} {a : o.Res} (h : Still tr) (ha : changes o a = false) :
    Still (⟨o, a⟩ :: tr) := by
  rintro e (_ | ⟨_, he⟩)
  · exact ha
  · exact h e he

def Dml.written : Dml → Option (Uid × ℤ)
  | .row u v => some (u, v)
  | .noRow | .uniqueViolation | .notNullViolation => none

lemma Dml.written_eq_some {a : Dml} {u : Uid} {v : ℤ} (h : a.written = some (u, v)) :
    a = .row u v := by
  cases a with
  | row => cases h; rfl
  | noRow | uniqueViolation | notNullViolation => cases h

/-- The row that a statement reports to have written. -/
def wrote : (o : Op) → o.Res → Option (Uid × ℤ)
  | .insertRow .., a | .reviveRow .., a | .updateStatus .., a | .updateObject .., a =>
    Dml.written a
  | .currentXactId, _ | .selectRow _, _ | .endTx _, _ | .compact .., _ => none

/-- What a call has seen when the procedure reports the UUID and the version of a row: it has just
written the row, or has read it and would write the same. -/
inductive Call.Settled (l : Call) : Log → Uid → ℤ → Bool → Prop where
  | written {tr : Log} {o : Op} {a : o.Res} {u : Uid} {v : ℤ} (row : wrote o a = some (u, v))
      (still : Still tr) : Settled l (⟨o, a⟩ :: tr) u v true
  | suppressed {tr : Log} {p : WriteParams} {r : Row} (sends : l.Sends tr p)
      (read : Read tr p.key r) (named : p.matches? r) (same : p.suppressed r) (still : Still tr) :
      Settled l tr r.uid r.objectVersion false

/-- The procedure goes on as the call allows, and returns what the call has seen. -/
abbrev Call.Runs (l : Call) (tr : Log) (m : DbProg (Except SqlState WriteRow)) : Prop :=
  m.Guards AnyAnswer l.Allowed
    (fun tr a => ∀ w, a = .ok w → l.Settled tr w.uid w.version w.changed) tr

variable {m : DbProg (Except SqlState WriteRow)} {o : Object}

section

variable {l : Call} {tr tr' : Log} {p : WriteParams}

lemma guards_raiseException (x : ℕ) (e : SqlState) : l.Runs tr (raiseException x e) :=
  ⟨trivial, fun _ _ => nofun⟩

lemma guards_returning (x : ℕ) (e : SqlState) {o : Op} {a : o.Res} {b : Dml} (hs : Still tr)
    (hrow : ∀ u v, b = .row u v → wrote o a = some (u, v)) :
    l.Runs (⟨o, a⟩ :: tr) (returning x e b) := by
  cases b with
  | row u v =>
    rintro w ⟨⟩
    exact .written (hrow u v rfl) hs
  | noRow => exact guards_raiseException x e
  | uniqueViolation | notNullViolation => exact guards_raiseException x _

lemma guards_upsert (x : ℕ) (hs : l.Sends tr p) (hc : l.Checked tr p) (hq : Still tr) :
    l.Runs tr (upsert x p) := by
  unfold upsert
  split
  next hpart =>
    split
    · exact guards_raiseException x _
    · refine ⟨⟨hs, hpart⟩, fun a _ => guards_returning x _ hq ?_⟩
      rintro u v rfl
      rfl
  next hwhole =>
    have hwhole : p.statusOnly = false := by simpa using hwhole
    split
    next h0 =>
      refine .call ⟨hs, hwhole, h0⟩ fun a _ _ => ?_
      split
      · refine ⟨⟨hs.mono (List.sublist_cons_self _ _), hwhole, h0⟩, fun a _ => ?_⟩
        refine guards_returning x _ (hq.cons rfl) ?_
        rintro u v rfl
        rfl
      · refine guards_returning x _ hq ?_
        rintro u v rfl
        rfl
    next h0 =>
      refine ⟨⟨hs, hwhole, h0, hc⟩, fun a _ => guards_returning x _ hq ?_⟩
      rintro u v rfl
      rfl

lemma guards_pgctlWrite (hs : l.Sends tr p) (hq : Still tr) : l.Runs tr (pgctlWrite p) := by
  refine .call trivial fun x _ _ => ?_
  have hs1 := hs.mono (List.sublist_cons_self ⟨.currentXactId, x⟩ tr)
  have hq1 : Still (⟨.currentXactId, x⟩ :: tr) := hq.cons rfl
  split
  next hcheck =>
    refine .call trivial fun a _ _ => ?_
    have hs2 := hs1.mono (List.sublist_cons_self ⟨.selectRow p.key, a⟩ _)
    have hq2 : Still (⟨.selectRow p.key, a⟩ :: ⟨.currentXactId, x⟩ :: tr) := hq1.cons rfl
    cases a with
    | none =>
      exact guards_upsert x hs2 (fun _ _ => .inr ⟨_, List.Sublist.refl _, hs1⟩) hq2
    | some r =>
      simp only [suppressOr]
      split
      · exact guards_raiseException x _
      next hm =>
        have hm : p.matches? r = true := by simpa using hm
        split
        next hsup =>
          refine ⟨trivial, fun a _ => ?_⟩
          rintro w ⟨⟩
          refine .suppressed (p := p) (hs2.mono (List.sublist_cons_self _ _)) ?_ hm hsup
            (hq2.cons rfl)
          exact List.mem_cons_of_mem _ List.mem_cons_self
        next hsup =>
          have hsup : p.suppressed r = false := by simpa using hsup
          exact guards_upsert x hs2 (fun _ _ => .inl ⟨r, List.mem_cons_self, hm, hsup⟩) hq2
  next hcheck =>
    refine guards_upsert x hs1 (fun hf hv => absurd ⟨?_, hv⟩ hcheck) hq1
    simp [hf]

/-- A call that reports success has seen the row that it reports. -/
def Call.Reports (l : Call) (tr : Log) (a : Outcome) : Prop :=
  l.writes → ∀ x, a.result = .ok x →
    ∃ w, x = .result w ∧ l.Settled tr w.uid w.objectVersion w.changed

/-- The program does what the call allows, and reports what it has seen. -/
abbrev Call.Behaves (l : Call) (tr : Log) (m : DbProg Outcome) : Prop :=
  Still tr → m.Guards AnyAnswer l.Allowed l.Reports tr

lemma guards_send (hs : l.Sends tr p) : l.Behaves tr (send p) := by
  intro hq
  rw [send_eq]
  refine (guards_pgctlWrite hs hq).bind fun tr' a ha _ x hx => ?_
  rcases a with (_ | _ | _ | _) | r
  · cases hx
  · cases hx
  · cases hx
  · cases hx
  · cases hx
    exact ⟨_, rfl, ha r rfl⟩

lemma guards_cutOff (n : ℕ) (x : Option ℕ) (h : l.Runs tr m) :
    (cutOff n x m).Guards AnyAnswer l.Allowed (fun _ _ => True) tr := by
  induction n generalizing x m tr with
  | zero =>
    cases m with
    | ret a => trivial
    | op o k =>
      cases x with
      | none => trivial
      | some x => exact ⟨trivial, fun _ _ => trivial⟩
  | succ n ih =>
    cases m with
    | ret a => trivial
    | op o k => cases o <;> exact ⟨h.1, fun r hr => ih _ (h.2 r hr)⟩

lemma guards_performed (cut : Cut) (h : l.Runs tr m) :
    (cut.performed m).Guards AnyAnswer l.Allowed (fun _ _ => True) tr := by
  cases cut with
  | goesOn => exact h.bind fun _ _ _ => trivial
  | rollsBack n => exact guards_cutOff n none h

lemma guards_sendLost (cut : Cut) (hs : l.Sends tr p) : l.Behaves tr (sendLost cut p) :=
  fun hq => (guards_performed cut (guards_pgctlWrite hs hq)).bind fun _ _ _ _ => nofun

end

/-! ### The calls -/

section

variable {l : Call} {tr : Log} {send : Send}

lemma guards_fail (e : ClientError) : l.Behaves tr (fail e) := fun _ _ => nofun

lemma guards_withExpected {refused : Option ClientError}
    {k : ℤ → Option Uid → DbProg Outcome} (hk : ∀ v uid,
      parseResourceVersion o.resourceVersion = some v → parseObjectUID o.uid = some uid →
        l.Behaves tr (k v uid)) : l.Behaves tr (withExpected refused o k) := by
  unfold withExpected
  split
  · exact guards_fail _
  split
  · exact guards_fail _
  next hv =>
    split
    · exact guards_fail _
    next hu => exact hk _ _ hv hu

lemma guards_readCurrentResource {f : Option Row → DbProg Outcome}
    (hnone : ∀ tr, l.Behaves tr (f none))
    (hsome : ∀ tr r, Read tr k r → l.Behaves tr (f (some r))) :
    l.Behaves tr ((readCurrentResource k).bind f) := by
  refine fun hq => ⟨trivial, fun a _ => ?_⟩
  simp only [Prog.ret_bind, Prog.pure_eq]
  cases h : a.filter Row.current with
  | none => exact hnone _ (hq.cons rfl)
  | some r =>
    obtain ⟨ha, -⟩ := Option.filter_eq_some_iff.mp h
    subst ha
    exact hsome _ r List.mem_cons_self (hq.cons rfl)

variable (hsend : ∀ {tr p}, l.Sends tr p → l.Behaves tr (send p))
include hsend

lemma guards_create (hl : l = .create opts o) : l.Behaves tr (create send opts o) := by
  subst hl
  unfold create
  split
  · exact guards_fail _
  split
  · exact guards_fail _
  · exact hsend (.create rfl rfl rfl rfl rfl)

lemma guards_update (hl : l = .update opts o) : l.Behaves tr (update send opts o) := by
  subst hl
  refine guards_withExpected fun v uid hv huid => ?_
  split
  · exact guards_fail _
  next hneed =>
    refine guards_readCurrentResource (fun _ => guards_fail _) fun tr current hread => ?_
    simp only
    split
    · exact guards_fail _
    next hsame =>
      split
      · exact guards_fail _
      next h0 =>
        refine hsend (.update rfl rfl hv h0 huid (fun hpos => ?_) hread rfl rfl ?_ rfl)
        · cases uid with
          | none => exact absurd ⟨hpos, rfl⟩ hneed
          | some u =>
            have hu : current.uid = u := by simpa using hsame
            rw [hu]
        · rw [updatedMetadata]

lemma guards_delete (hl : l = .delete opts o now) : l.Behaves tr (delete send opts o now) := by
  subst hl
  refine guards_withExpected fun v uid hv huid => ?_
  split
  next h0 =>
    subst h0
    refine guards_readCurrentResource (fun _ => guards_fail _) fun tr current hread => ?_
    simp only
    split
    · exact guards_fail _
    · exact hsend (.mark rfl rfl rfl hv hread rfl rfl rfl rfl rfl rfl)
  next h0 =>
    split
    · exact guards_fail _
    · exact hsend (.overwrite rfl rfl hv h0 huid (by simp) rfl rfl rfl rfl)

lemma guards_statusUpdate (hl : l = .statusUpdate opts o) :
    l.Behaves tr (statusUpdate send opts o) := by
  subst hl
  refine guards_withExpected fun v uid hv huid => ?_
  split
  · exact guards_fail _
  split
  · exact guards_fail _
  next h0 => exact hsend (.status rfl rfl h0 rfl)

lemma guards_code : l.Behaves tr (l.code send) := by
  cases l with
  | get k =>
    refine fun _ => .call trivial fun a _ _ => ?_
    split
    · exact nofun
    split
    · exact nofun
    · exact nofun
  | create opts o => exact guards_create hsend rfl
  | update opts o => exact guards_update hsend rfl
  | statusUpdate opts o => exact guards_statusUpdate hsend rfl
  | delete opts o now => exact guards_delete hsend rfl
  | compact c => exact fun _ => ⟨trivial, fun x _ => ⟨⟨c, rfl⟩, fun n _ => nofun⟩⟩

end

lemma guards_lossy (l : Call × Option Cut) :
    (lossy.code l).Guards AnyAnswer l.1.Allowed l.1.Reports [] := by
  obtain ⟨l, cut⟩ := l
  cases cut with
  | none => exact guards_code guards_send still_nil
  | some cut => exact guards_code (guards_sendLost cut) still_nil

/-! ### What becomes of a row -/

/-- How a call that has read the row `current` replaces the row `r0` of the key by `r`, of the same
incarnation. -/
inductive Call.Rewrites (l : Call) (current : Row) (k : Key) (r0 r : Row) : Prop where
  | status {opts : Options} {o : Object} (call : l = .statusUpdate opts o) (key : o.key = k)
      (spec : r.spec = r0.spec) (metadata : r.metadata = r0.metadata)
      (mark : r.deletionTimestamp = r0.deletionTimestamp)
  /-- An Update takes the mark, and where the spec has changed the generation, from the row it has
  read, which need not be the row it replaces. -/
  | update {opts : Options} {o : Object} (call : l = .update opts o) (key : o.key = k)
      (version : parseResourceVersion o.resourceVersion = some r0.objectVersion)
      (named : o.uid = .uid r0.uid) (spec : r.spec = o.spec) (status : r.status = r0.status)
      (metadata : r.metadata = (updatedMetadata current o).toJson)
      (mark : r.deletionTimestamp = current.deletionTimestamp)
  | mark {opts : Options} {o : Object} {now : Time} (call : l = .delete opts o now)
      (key : o.key = k) (unversioned : parseResourceVersion o.resourceVersion = some 0)
      (live : r0.deletionTimestamp = none) (spec : r.spec = r0.spec) (status : r.status = r0.status)
      (metadata : r.metadata = r0.metadata) (mark : r.deletionTimestamp = some now)
  | overwrite {opts : Options} {o : Object} {now : Time} (call : l = .delete opts o now)
      (key : o.key = k) (version : parseResourceVersion o.resourceVersion = some r0.objectVersion)
      (named : o.uid = .uid r0.uid) (spec : r.spec = o.spec) (status : r.status = o.status)
      (metadata : r.metadata = o.metadata.toJson) (mark : r.deletionTimestamp = some now)

/-- What a statement of a call that has seen `tr` does to the rows. -/
inductive Call.Commit (l : Call) (tr : Log) (d d' : Database) : Prop where
  | none (table : d'.table = d.table) (hist : d'.hist = d.hist)
  | created {opts : Options} {o : Object} {r : Row} (call : l = .create opts o)
      (vacant : ∀ r0, d.table.lookup o.key = some r0 → r0.tombstone) (fresh : d.fresh r.uid)
      (version : r.objectVersion = 1)
      (metadata : r.metadata = { o.metadata with generation := 1 }.toJson)
      (mark : r.deletionTimestamp = Option.none) (table : d'.table = d.table.insert o.key r)
      (hist : d'.hist = (o.key, r) :: d.hist)
  | rewritten {k : Key} {r0 r current : Row} (stored : d.table.lookup k = some r0)
      (uid : r.uid = r0.uid) (version : r.objectVersion = r0.objectVersion + 1)
      (table : d'.table = d.table.insert k r) (hist : d'.hist = (k, r) :: d.hist)
      (read : current = r0 ∨ Read tr k current ∧ current.uid = r0.uid)
      (step : l.Rewrites current k r0 r)
  | compacted {c : CompactConfig} (call : l = .compact c) (hist : d'.hist = d.hist)
      (table : ∀ k, d'.table.lookup k = d.table.lookup k ∨ d'.table.lookup k = Option.none ∧
        ∀ r, d.table.lookup k = some r → r.tombstone)

/-- What is so of the rows while only the client writes them. -/
structure Recorded (d : Database) : Prop where
  historic : d.Historic
  client : ∀ e ∈ d.hist, e.2.ClientWritten

/-- What a call knows from what it has seen: a row that it has read was committed, and the
incarnation it has read is gone once it has found no row. -/
structure Knows (tr : Log) (d : Database) : Prop where
  read {k : Key} {r : Row} : Read tr k r → (k, r) ∈ d.hist
  gone {k : Key} {r r0 : Row} : List.Sublist [⟨.selectRow k, none⟩, ⟨.selectRow k, some r⟩] tr →
    d.table.lookup k = some r0 → r0.uid ≠ r.uid

section

variable {l : Call} {tr : Log} {d d' : Database} {ch : Choice} {p : WriteParams} {x : ℕ}

lemma Database.Historic.named (hd : d.Historic) (hk : d.table.lookup p.key = some r0)
    (hm : p.matches? r0) (hr : (p.key, r) ∈ d.hist) (hv : p.expectedVersion = r.objectVersion)
    (hu : p.expectedUid = some r.uid) : r0 = r := by
  obtain ⟨hv0, hu0⟩ := (matches_iff hu).mp hm
  exact congrArg Prod.snd
    (hd.content (p.key, r0) (hd.mem _ _ hk) (p.key, r) hr hu0.symm (hv0.symm.trans hv))

lemma Call.Checked.live (hc : Call.Checked (.delete opts o now) tr p) (hd : Recorded d)
    (hT : Knows tr d) (hwhole : p.statusOnly = false) (hf : p.forceWrite = false)
    (hzero : parseResourceVersion o.resourceVersion = some 0) (hk : d.table.lookup p.key = some r)
    (hv : p.expectedVersion = r.objectVersion) (hu : p.expectedUid = some r.uid)
    (hspec : p.spec = some r.spec) (hstatus : p.status = some r.status)
    (hmeta : p.metadata = some r.metadata)
    (hmark : p.deletionTs = some (r.deletionTimestamp.getD now)) : r.deletionTimestamp = none := by
  cases ht : r.deletionTimestamp with
  | none => rfl
  | some t =>
    have hpos : 0 < p.expectedVersion := by
      have := hd.historic.pos _ (hd.historic.mem _ _ hk)
      simp only at this
      omega
    have hm : p.matches? r := (matches_iff hu).mpr ⟨hv, rfl⟩
    rcases hc hf hpos with ⟨r', hread, hm', hsup⟩ | ⟨tr', hsub, hsends⟩
    · -- the check has read this very row
      obtain ⟨hv', hu'⟩ := (matches_iff hu).mp hm'
      have hr' : r = r' := hd.historic.named hk hm (hT.read hread) hv' (hu' ▸ hu)
      have hsame : p.suppressed r = true := by
        simp [WriteParams.suppressed, hwhole, hspec, hstatus, hmeta, hmark, ht, eqParam,
          Json.jsonbEq_refl]
      rw [← hr', hsame] at hsup
      cases hsup
    · -- the incarnation was gone by then
      cases hsends with
      | overwrite _ _ version versioned =>
        rw [hzero] at version
        exact absurd (Option.some.inj version).symm versioned
      | @mark _ _ _ current key _ _ _ read _ uid =>
        have hpair : List.Sublist [⟨.selectRow p.key, none⟩, ⟨.selectRow p.key, some current⟩] tr :=
          ((List.singleton_sublist.mpr (key ▸ read)).cons_cons _).trans hsub
        have hne := hT.gone hpair hk
        rw [hu] at uid
        exact absurd (Option.some.inj uid) hne

lemma Call.Sends.rewrites (hs : l.Sends tr p) (hd : Recorded d) (hT : Knows tr d)
    (hc : l.Checked tr p) (hwhole : p.statusOnly = false) (hv : p.expectedVersion ≠ 0)
    (hk : d.table.lookup p.key = some r0) (hm : p.matches? r0)
    (hr : p.objectUpdated x ch.now r0 = some r) : ∃ current,
      (current = r0 ∨ Read tr p.key current ∧ current.uid = r0.uid) ∧
        l.Rewrites current p.key r0 r := by
  have hver : r0.objectVersion = p.expectedVersion := by
    simp only [WriteParams.matches?, Bool.and_eq_true, beq_iff_eq] at hm
    exact hm.1
  cases hs with
  | create _ _ version => exact absurd version hv
  | status _ part =>
    rw [hwhole] at part
    cases part
  | @update _ _ current key _ version named uid incarnation read spec status metadata mark =>
    have hpos : 0 < p.expectedVersion := by
      have := hd.historic.pos _ (hd.historic.mem _ _ hk)
      simp only at this
      omega
    have hu := incarnation hpos
    simp only [WriteParams.objectUpdated, spec, metadata, status, Option.bind_eq_bind,
      Option.bind_some, Option.pure_def, Option.some.injEq] at hr
    subst hr
    have hsame := ((matches_iff hu).mp hm).2
    refine ⟨current, .inr ⟨key ▸ read, hsame⟩, ?_⟩
    refine .update rfl key.symm (hver ▸ version) ?_ rfl rfl rfl mark
    rw [← hsame]
    exact Object.uid_of_parse (hu ▸ uid)
  | mark key _ unforced unversioned read version uid spec status metadata mark =>
    have hsame := hd.historic.named hk hm (key ▸ hT.read read) version uid
    subst hsame
    have hlive := hc.live hd hT hwhole unforced unversioned hk version uid spec status metadata mark
    simp only [WriteParams.objectUpdated, spec, metadata, status, Option.bind_eq_bind,
      Option.bind_some, Option.pure_def, Option.some.injEq] at hr
    subst hr
    refine ⟨r0, .inl rfl, .mark rfl key.symm unversioned hlive rfl rfl rfl ?_⟩
    rw [mark, hlive]
    rfl
  | @overwrite _ o _ key _ version versioned uid named spec status metadata mark =>
    obtain ⟨u, hu⟩ := Option.ne_none_iff_exists'.mp named
    have hsame := ((matches_iff hu).mp hm).2
    have hobj : o.uid = .uid r0.uid := hsame ▸ Object.uid_of_parse (hu ▸ uid)
    simp only [WriteParams.objectUpdated, spec, metadata, status, Option.bind_eq_bind,
      Option.bind_some, Option.pure_def, Option.some.injEq] at hr
    subst hr
    exact ⟨r0, .inl rfl, .overwrite rfl key.symm (hver ▸ version) hobj rfl rfl rfl mark⟩

lemma Call.Sends.rewrites_status (hs : l.Sends tr p) (hpart : p.statusOnly = true)
    (hr : p.statusUpdated x ch.now r0 = some r) : l.Rewrites r0 p.key r0 r := by
  cases hs with
  | status key _ _ status =>
    simp only [WriteParams.statusUpdated, status, Option.bind_eq_bind, Option.bind_some,
      Option.pure_def, Option.some.injEq] at hr
    subst hr
    exact .status rfl key.symm rfl rfl rfl
  | create _ whole | update _ whole | mark _ whole | overwrite _ whole =>
    rw [hpart] at whole
    cases whole

lemma Call.Sends.created (hs : l.Sends tr p) (hwhole : p.statusOnly = false)
    (hv : p.expectedVersion = 0) (hd : Recorded d) (hT : Knows tr d) (hr : d.Created x p r)
    (hmark : r.deletionTimestamp = p.deletionTs ∨ r.deletionTimestamp = none)
    (htable : d'.table = d.table.insert p.key r) (hhist : d'.hist = (p.key, r) :: d.hist) :
    l.Commit tr d d' := by
  cases hs with
  | create key _ _ mark metadata =>
    rw [key] at htable hhist
    refine .created rfl (key ▸ hr.vacant) hr.fresh hr.version ?_ ?_ htable hhist
    · exact Option.some.inj (hr.metadata.symm.trans metadata)
    · rcases hmark with h | h
      · exact h.trans mark
      · exact h
  | update _ _ _ named => exact absurd hv named
  | mark key _ _ _ read version =>
    have := hd.historic.pos _ (hT.read read)
    simp only at this
    omega
  | overwrite _ _ _ versioned => exact absurd hv versioned
  | status _ part =>
    rw [hwhole] at part
    cases part

/-- **What a statement of a call does**: nothing, a new incarnation, a new state of the incarnation
that the call names, or the end of some tombstones. -/
theorem commit_step {o : Op} {a : o.Res} (hd : Recorded d) (hT : Knows tr d) (hA : l.Allowed tr o)
    (hx : exec o ch d = some (a, d')) : l.Commit tr d d' := by
  cases o with
  | currentXactId | selectRow k => cases hx; exact .none rfl rfl
  | endTx x =>
    obtain ⟨-, hx⟩ := Option.ite_none_right_eq_some.mp hx
    cases hx
    exact .none rfl rfl
  | insertRow x p =>
    rcases exec_insertRow hx with ⟨rfl, -⟩ | ⟨r, hr, ⟨-, hmark⟩, rfl⟩
    · exact .none rfl rfl
    · exact hA.1.created hA.2.1 hA.2.2 hd hT hr (.inl hmark) rfl rfl
  | reviveRow x p =>
    rcases exec_reviveRow hx with ⟨rfl, -⟩ | ⟨r, hr, ⟨-, hmark⟩, rfl⟩
    · exact .none rfl rfl
    · exact hA.1.created hA.2.1 hA.2.2 hd hT hr (.inr hmark) rfl rfl
  | updateStatus x p =>
    rcases exec_updateStatus hx with ⟨rfl, -⟩ | ⟨r0, r, h, ⟨-, hr⟩, rfl⟩
    · exact .none rfl rfl
    · exact .rewritten h.row h.uid h.version rfl rfl (.inl rfl) (hA.1.rewrites_status hA.2 hr)
  | updateObject x p =>
    rcases exec_updateObject hx with ⟨rfl, -⟩ | ⟨r0, r, h, ⟨-, hr⟩, rfl⟩
    · exact .none rfl rfl
    · obtain ⟨hs, hwhole, h0, hc⟩ := hA
      obtain ⟨current, hread, hstep⟩ := hs.rewrites hd hT hc hwhole h0 h.row h.matched hr
      exact .rewritten h.row h.uid h.version rfl rfl hread hstep
  | compact x c =>
    obtain ⟨cfg, hcall⟩ := hA
    obtain ⟨-, hx⟩ := Option.ite_none_right_eq_some.mp hx
    cases hx
    refine .compacted hcall rfl fun k => ?_
    rcases lookup_commitCompact d x c ch k with h | ⟨h, r, hr, htomb, -⟩
    · exact .inl h
    · refine .inr ⟨h, fun r' hr' => ?_⟩
      cases hr.symm.trans hr'
      exact htomb

end

/-! ### Runs -/

section

variable {l : Call} {tr tr' : Log} {d d' : Database} {ch : Choice} {o : Op} {a : o.Res}

/-- What becomes of a stored row: it stays, or the statement was a Create's (under a fresh UUID), a
compaction's, or one that replaces it. -/
lemma Call.Commit.row (h : l.Commit tr d d') (hk : d.table.lookup k = some r0)
    (hne : d'.table.lookup k ≠ some r0) :
    (∃ opts o r, l = .create opts o ∧ d'.table.lookup k = some r ∧ d.fresh r.uid) ∨
    (∃ c, l = .compact c ∧ d'.table.lookup k = Option.none ∧ r0.tombstone) ∨
    ∃ r current, d'.table.lookup k = some r ∧ r.uid = r0.uid ∧
      r.objectVersion = r0.objectVersion + 1 ∧
      (current = r0 ∨ Read tr k current ∧ current.uid = r0.uid) ∧ l.Rewrites current k r0 r := by
  have touched : ∀ {k' : Key} {r : Row}, d'.table = d.table.insert k' r → k' = k := by
    intro k' r ht
    by_contra hkey
    rw [ht, AList.lookup_insert_ne (Ne.symm hkey)] at hne
    exact hne hk
  cases h with
  | none table => exact absurd (table ▸ hk) hne
  | compacted call _ table =>
    rcases table k with hsame | ⟨hnone, htomb⟩
    · exact absurd (hsame.trans hk) hne
    · exact .inr (.inl ⟨_, call, hnone, htomb r0 hk⟩)
  | @created opts o r call _ fresh _ _ _ table =>
    obtain rfl := touched table
    exact .inl ⟨opts, o, r, call, by rw [table, AList.lookup_insert], fresh⟩
  | @rewritten k' old r current stored uid version table _ read step =>
    obtain rfl := touched table
    cases stored.symm.trans hk
    exact .inr (.inr ⟨r, current, by rw [table, AList.lookup_insert], uid, version, read, step⟩)

lemma Call.Commit.recorded (h : l.Commit tr d d') (hd : Recorded d) (hs : d.Step d') :
    Recorded d' := by
  refine ⟨hd.historic.step hs, ?_⟩
  cases h with
  | none _ hist | compacted _ hist _ =>
    rw [hist]
    exact hd.client
  | created _ _ _ _ metadata _ _ hist =>
    rw [hist]
    exact List.forall_mem_cons.mpr ⟨⟨_, metadata⟩, hd.client⟩
  | rewritten stored _ _ _ hist _ step =>
    rw [hist]
    refine List.forall_mem_cons.mpr ⟨?_, hd.client⟩
    obtain ⟨sm, hsm⟩ := hd.client _ (hd.historic.mem _ _ stored)
    cases step with
    | status _ _ _ metadata => exact ⟨sm, metadata.trans hsm⟩
    | update _ _ _ _ _ _ metadata => exact ⟨_, metadata⟩
    | mark _ _ _ _ _ _ metadata => exact ⟨sm, metadata.trans hsm⟩
    | overwrite _ _ _ _ _ _ metadata => exact ⟨_, metadata⟩

lemma Knows.step (h : Knows tr d) (hx : exec o ch d = some (a, d')) : Knows tr d' := by
  refine ⟨fun hr => hist_step hx (h.read hr), fun {k r r0} hsub hk => ?_⟩
  have hmem : (k, r) ∈ d.hist :=
    h.read (hsub.subset (List.mem_cons_of_mem _ List.mem_cons_self))
  cases exec_effect hx with
  | refl | begin | finish x => exact h.gone hsub hk
  | create x p new hr =>
    rw [lookup_commitRow] at hk
    split at hk
    · cases hk
      have hf := hr.fresh
      simp only [Database.fresh, List.all_eq_true, bne_iff_ne] at hf
      exact (hf _ hmem).symm
    · exact h.gone hsub hk
  | replace x p old new hr =>
    rw [lookup_commitRow] at hk
    split at hk
    · next hkey =>
      cases hk
      rw [hr.uid]
      exact h.gone hsub (hkey ▸ hr.row)
    · exact h.gone hsub hk
  | compact x c ch' =>
    rcases lookup_commitCompact d x c ch' k with h1 | ⟨h1, -⟩
    · exact h.gone hsub (h1 ▸ hk)
    · rw [h1] at hk
      cases hk

lemma Knows.own (h : Knows tr d) (hd : Recorded d) (hx : exec o ch d = some (a, d')) :
    Knows (⟨o, a⟩ :: tr) d' := by
  have h' := h.step hx
  refine ⟨fun {k r} hr => ?_, fun {k r r0} hsub hk => ?_⟩
  · rcases List.mem_cons.mp hr with he | hr
    · cases he
      simp only [exec, Option.some.injEq, Prod.mk.injEq] at hx
      obtain ⟨hrow, rfl⟩ := hx
      exact hd.historic.mem k r hrow
    · exact h'.read hr
  · cases hsub with
    | cons _ hsub => exact h'.gone hsub hk
    | cons_cons _ hsub =>
      -- there is no row at this moment
      simp only [exec, Option.some.injEq, Prod.mk.injEq] at hx
      obtain ⟨hrow, rfl⟩ := hx
      cases hrow.symm.trans hk

lemma guards_allowed (l : Call × Option Cut) :
    (lossy.code l).Guards AnyAnswer l.1.Allowed (fun _ _ => True) [] :=
  (guards_lossy l).post fun _ _ _ => trivial

theorem conduct_outline {ok : Call × Option Cut → Op → Choice → Database → Prop} :
    lossy.Outline ok (fun l => l.1.Allowed) (fun _ _ _ => True) Recorded (fun _ tr d => Knows tr d)
      (fun _ (_ : PEmpty) => False) (fun _ _ => True) := by
  refine System.Outline.plain guards_allowed (fun _ _ => rfl) ?_ ?_ ?_
  · exact fun hd => ⟨by simp [Read], by simp⟩
  · intro l tr o x s s' r hd hT hA _ hx
    exact ⟨(commit_step hd hT hA hx).recorded hd ⟨_, _, _, hx⟩, hT.own hd hx⟩
  · intro l l' tr tr' o x s s' r _ _ hT _ _ _ hx
    exact hT.step hx

end

section

variable {ok : Call × Option Cut → Op → Choice → Database → Prop} {es : List (ℕ × Seen Op Op.Res)}
  {c c' : LossyConf} {i : ℕ} {t : Thread Op Op.Res (Call × Option Cut) Outcome}

lemma recorded_empty : Recorded .empty :=
  ⟨historic_empty, by simp [Database.empty]⟩

/-- In every run, whatever the calls do between each other's statements, each statement does what
its call may do. -/
theorem conduct_act (h : lossy.HistIf ok ⟨.empty, []⟩ es c) (hi : c.pool[i]? = some t)
    (ha : lossy.Act i c c') : Recorded c.store ∧ Knows (System.own i es) c.store ∧
      t.label.1.Commit (System.own i es) c.store c'.store := by
  obtain ⟨o, x, r, hd, hT, hA, hx⟩ :=
    conduct_outline.act recorded_empty (fun _ => trivial) h hi ha
  exact ⟨hd, hT, commit_step hd hT hA hx⟩

lemma recorded_run (h : lossy.HistIf ok ⟨.empty, []⟩ es c) : Recorded c.store :=
  (conduct_outline.holds recorded_empty (fun _ => trivial) h).1

end

/-! ### Objects read from the store -/

/-- The version and UUID that the call presents are those of a committed row. -/
def Call.ReadFrom (l : Call) (d : Database) : Prop :=
  ∀ o v u, l.Presents o v u → v ≠ 0 → ∃ r, (o.key, r) ∈ d.hist ∧ r.uid = u ∧ r.objectVersion = v

/-- What the call has read of that incarnation is not older than what it presents. -/
def Call.ReadsLate (l : Call) (tr : Log) : Prop :=
  ∀ o v u r, l.Presents o v u → v ≠ 0 → Read tr o.key r → r.uid = u → v ≤ r.objectVersion

section

variable {l : Call} {tr : Log} {d d' : Database} {ch : Choice}

lemma Call.ReadsLate.own {o : Op} {a : o.Res} (h : l.ReadsLate tr) (hd : Recorded d)
    (hl : l.ReadFrom d) (hx : exec o ch d = some (a, d')) : l.ReadsLate (⟨o, a⟩ :: tr) := by
  intro obj v u r hp hv hr hu
  rcases List.mem_cons.mp hr with he | hr
  · cases he
    simp only [exec, Option.some.injEq, Prod.mk.injEq] at hx
    obtain ⟨hrow, rfl⟩ := hx
    obtain ⟨r', hr', hu', hv'⟩ := hl obj v u hp hv
    rw [← hv']
    exact hd.historic.top _ _ hrow _ hr' (hu'.trans hu.symm)
  · exact h obj v u r hp hv hr hu

lemma Call.Rewrites.exact {current : Row} (h : l.Rewrites current k r0 r) (hd : Recorded d)
    (hT : Knows tr d) (hl : l.ReadsLate tr) (hk : d.table.lookup k = some r0)
    (hread : current = r0 ∨ Read tr k current ∧ current.uid = r0.uid) : l.Rewrites r0 k r0 r := by
  rcases hread with rfl | ⟨hread, huid⟩
  · exact h
  cases h with
  | status call key spec metadata mark => exact .status call key spec metadata mark
  | mark call key unversioned live spec status metadata mark =>
    exact .mark call key unversioned live spec status metadata mark
  | overwrite call key version named spec status metadata mark =>
    exact .overwrite call key version named spec status metadata mark
  | @update opts o call key version named spec status metadata mark =>
    have hmem := hT.read hread
    have hpos := hd.historic.pos _ (hd.historic.mem _ _ hk)
    simp only at hpos
    have hle : r0.objectVersion ≤ current.objectVersion := by
      refine hl o _ _ current ⟨by rw [call]; rfl, version, ?_⟩ (by omega) (key ▸ hread) huid
      rw [named]
      rfl
    have hge : current.objectVersion ≤ r0.objectVersion := hd.historic.top k r0 hk _ hmem huid
    have hsame : current = r0 := congrArg Prod.snd
      (hd.historic.content _ hmem (k, r0) (hd.historic.mem _ _ hk) huid (le_antisymm hge hle))
    subst hsame
    exact .update call key version named spec status metadata mark

end

/-- A relation between the states of one incarnation, the earlier first. -/
def Database.Along (R : Row → Row → Prop) (d : Database) : Prop :=
  ∀ e ∈ d.hist, ∀ e' ∈ d.hist, e.2.uid = e'.2.uid → e.2.objectVersion ≤ e'.2.objectVersion →
    R e.2 e'.2

section

variable {R : Row → Row → Prop} {l : Call} {tr : Log} {d d' : Database}

lemma Call.Commit.along (h : l.Commit tr d d') (hd : Recorded d) (hR : d.Along R)
    (hrefl : ∀ r, R r r) (hstep : ∀ {k r0 r r' current}, d.table.lookup k = some r0 →
      (current = r0 ∨ Read tr k current ∧ current.uid = r0.uid) → l.Rewrites current k r0 r →
        R r' r0 → R r' r) : d'.Along R := by
  cases h with
  | none _ hist | compacted _ hist _ =>
    rw [Database.Along, hist]
    exact hR
  | @created _ _ r _ _ fresh _ _ _ _ hist =>
    have hfresh : ∀ e ∈ d.hist, e.2.uid ≠ r.uid := by simpa [Database.fresh] using fresh
    rw [Database.Along, hist]
    intro e he e' he' hu hv
    rcases List.mem_cons.mp he with rfl | he <;> rcases List.mem_cons.mp he' with rfl | he'
    · exact hrefl _
    · exact absurd hu.symm (hfresh e' he')
    · exact absurd hu (hfresh e he)
    · exact hR e he e' he' hu hv
  | rewritten stored uid version _ hist read step =>
    have htop := hd.historic.top _ _ stored
    rw [Database.Along, hist]
    intro e he e' he' hu hv
    rcases List.mem_cons.mp he with rfl | he <;> rcases List.mem_cons.mp he' with rfl | he'
    · exact hrefl _
    · have := htop e' he' (hu.symm.trans uid)
      simp only at hv
      omega
    · -- every earlier state comes before the one that was replaced
      have hu0 : e.2.uid = _ := hu.trans uid
      exact hstep stored read step
        (hR e he _ (hd.historic.mem _ _ stored) hu0 (htop e he hu0))
    · exact hR e he e' he' hu hv

end

section

variable {ok : Call × Option Cut → Op → Choice → Database → Prop} {es : List (ℕ × Seen Op Op.Res)}
  {c c' : LossyConf} (hok : ∀ l o x d, ok l o x d → l.1.ReadFrom d)
include hok

theorem reading_outline {J : Database → Prop}
    (hJ : ∀ {l : Call × Option Cut} {tr o x d d'}, Recorded d → Knows tr d → l.1.ReadsLate tr →
      ok l o x d → l.1.Commit tr d d' → J d → J d') :
    lossy.Outline ok (fun l => l.1.Allowed) (fun _ _ _ => True) (fun d => Recorded d ∧ J d)
      (fun l tr d => Knows tr d ∧ l.1.ReadsLate tr) (fun _ (_ : PEmpty) => False)
      (fun _ _ => True) := by
  refine System.Outline.plain guards_allowed (fun _ _ => rfl) ?_ ?_ ?_
  · exact fun _ => ⟨⟨by simp [Read], by simp⟩, fun _ _ _ _ _ _ h => by cases h⟩
  · intro l tr o x s s' r ⟨hd, hinv⟩ ⟨hT, hl⟩ hA hokx hx
    have hcommit := commit_step hd hT hA hx
    refine ⟨⟨hcommit.recorded hd ⟨_, _, _, hx⟩, hJ hd hT hl hokx hcommit hinv⟩, hT.own hd hx, ?_⟩
    exact hl.own hd (hok _ _ _ _ hokx) hx
  · intro l l' tr tr' o x s s' r _ _ hT _ _ _ hx
    exact ⟨hT.1.step hx, hT.2⟩

theorem reading_act (h : lossy.HistIf ok ⟨.empty, []⟩ es c) {i : ℕ}
    {t : Thread Op Op.Res (Call × Option Cut) Outcome} (hi : c.pool[i]? = some t)
    (ha : lossy.Act i c c') (hk : c.store.table.lookup k = some r0)
    (hne : c'.store.table.lookup k ≠ some r0) :
    (∃ opts o r, t.label.1 = .create opts o ∧ c'.store.table.lookup k = some r ∧
      c.store.fresh r.uid) ∨
    (∃ cfg, t.label.1 = .compact cfg ∧ c'.store.table.lookup k = none ∧ r0.tombstone) ∨
    ∃ r, c'.store.table.lookup k = some r ∧ r.uid = r0.uid ∧
      r.objectVersion = r0.objectVersion + 1 ∧ t.label.1.Rewrites r0 k r0 r := by
  have houtline := reading_outline (J := fun _ => True) hok fun _ _ _ _ _ _ => trivial
  obtain ⟨o, x, a, ⟨hd, -⟩, ⟨hT, hl⟩, hA, hx⟩ :=
    houtline.act ⟨recorded_empty, trivial⟩ (fun _ => trivial) h hi ha
  rcases (commit_step hd hT hA hx).row hk hne with
    hcreate | hcompact | ⟨r, current, hr, hu, hv, hread, hstep⟩
  · exact .inl hcreate
  · exact .inr (.inl hcompact)
  · exact .inr (.inr ⟨r, hr, hu, hv, hstep.exact hd hT hl hk hread⟩)

theorem along_run {R : Row → Row → Prop} (hrefl : ∀ r, R r r)
    (hstep : ∀ {l : Call × Option Cut} {o x d k r0 r r'}, Recorded d → ok l o x d →
      d.table.lookup k = some r0 → l.1.Rewrites r0 k r0 r → R r' r0 → R r' r)
    (h : lossy.HistIf ok ⟨.empty, []⟩ es c) : c.store.Along R := by
  have houtline := reading_outline (J := fun d => d.Along R) hok
    fun hd hT hl hokx hcommit hR => hcommit.along hd hR hrefl fun stored read step hprev =>
      hstep hd hokx stored (step.exact hd hT hl stored read) hprev
  have h0 : Recorded .empty ∧ Database.empty.Along R :=
    ⟨recorded_empty, by simp [Database.Along, Database.empty]⟩
  exact (houtline.holds h0 (fun _ => trivial) h).1.2

end

end Seaplane.Db
