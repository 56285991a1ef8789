import Mathlib.Data.List.Sort
import Seaplane.Db.Refine

/-!
`List` and the watcher's poll, and what a reader sees that follows one by the other.

Both read one snapshot, which is the committed state together with its `xmin`. The watcher
starts at the watermark of a list and each poll delivers every row stamped above its own
watermark, so a row can be delivered more than once; the fold by key below does not mind.
-/

namespace Seaplane.Db

open Lib

structure ShardSpec where
  mod : ℤ
  owned : List ℤ

structure WatchConfig where
  gvk : String
  shard : Option ShardSpec

/-- Postgres' `hashtext`. -/
abbrev Hash := String → ℤ

variable (hashtext : Hash)

def ShardSpec.clause (s : ShardSpec) (ns : String) : Bool :=
  s.owned.contains ((hashtext ns).natAbs % s.mod)

variable (cfg : WatchConfig)

/-- The rows the queries of a configuration range over. -/
def WatchConfig.inScope (k : Key) : Bool :=
  k.gvk == cfg.gvk && cfg.shard.all fun s => s.clause hashtext k.ns

/-- A SELECT over the rows in scope, in the order of their stamps. -/
def Database.query (d : Database) (cfg : WatchConfig) (cond : Row → Bool) : List (Key × Row) :=
  ((d.table.entries.filter fun e => cfg.inScope hashtext e.1 && cond e.2).map
    fun e => (e.1, e.2)).insertionSort fun a b => a.2.txidStamp ≤ b.2.txidStamp

structure ListResult where
  resources : List (Key × Row)
  watermark : ℕ

def list (d : Database) : ListResult where
  resources := d.query hashtext cfg Row.listed
  watermark := if 0 < d.xmin then d.xmin - 1 else 0

inductive EventType where
  | added
  | modified
  | deleted
  deriving DecidableEq

structure Event where
  type : EventType
  key : Key
  row : Row

def eventType (r : Row) : EventType :=
  if r.deletionTimestamp.isSome then .deleted
  else if r.objectVersion = 1 then .added
  else .modified

inductive WatchError where
  | gone
  deriving DecidableEq

/-- One poll at watermark `hwm`: its events and the next watermark. -/
def pollAll (hwm : ℕ) (d : Database) : Except WatchError (List Event × ℕ) :=
  if (d.horizon.lookup cfg.gvk).any (hwm < ·) then .error .gone
  else .ok
    ((d.query hashtext cfg fun r => hwm < r.txidStamp).map fun e => ⟨eventType e.2, e.1, e.2⟩,
      if 0 < d.xmin ∧ hwm < d.xmin - 1 then d.xmin - 1 else hwm)

/-! ### Folding by key -/

/-- A tombstone removes its key, any other row sets it. -/
def applyRow (view : Table) (e : Key × Row) : Table :=
  if e.2.tombstone then view.erase e.1 else view.insert e.1 e.2

def applyEvents (view : Table) (evs : List Event) : Table :=
  (evs.map fun e => (e.key, e.row)).foldl applyRow view

/-- A reader: its watcher's watermark and what the delivered rows fold to. -/
structure Reader where
  hwm : ℕ
  view : Table

def Reader.start (l : ListResult) : Reader := ⟨l.watermark, l.resources.foldl applyRow ∅⟩

structure Followed where
  db : Database
  reader : Option Reader

/-- Any statement of any transaction, the list that starts the reader, or one of its polls. -/
inductive Followed.Step (cfg : WatchConfig) : Followed → Followed → Prop where
  | db {d d' : Database} {r : Option Reader} (h : d.Step d') : Step cfg ⟨d, r⟩ ⟨d', r⟩
  | list {d : Database} : Step cfg ⟨d, none⟩ ⟨d, some (.start (list hashtext cfg d))⟩
  | poll {d : Database} {r : Reader} {evs : List Event} {hwm : ℕ}
      (h : pollAll hashtext cfg r.hwm d = .ok (evs, hwm)) :
      Step cfg ⟨d, some r⟩ ⟨d, some ⟨hwm, applyEvents r.view evs⟩⟩

def visible (d : Database) (k : Key) : Option Row :=
  if cfg.inScope hashtext k then (d.table.lookup k).filter Row.listed else none

/-! ### What a query returns -/

variable {hashtext} {cfg} {d : Database}

lemma mem_query {cond : Row → Bool} {e : Key × Row} : e ∈ d.query hashtext cfg cond ↔
    d.table.lookup e.1 = some e.2 ∧ cfg.inScope hashtext e.1 ∧ cond e.2 := by
  obtain ⟨k, r⟩ := e
  simp only [Database.query, List.mem_insertionSort, List.mem_map, List.mem_filter,
    Bool.and_eq_true, Prod.mk.injEq]
  constructor
  · rintro ⟨e, ⟨h1, h2, h3⟩, rfl, rfl⟩
    exact ⟨AList.mem_lookup_iff.mpr h1, h2, h3⟩
  · rintro ⟨h1, h2, h3⟩
    exact ⟨⟨k, r⟩, ⟨AList.mem_lookup_iff.mp h1, h2, h3⟩, rfl, rfl⟩

lemma lookup_applyRow (view : Table) (e : Key × Row) (k : Key) : (applyRow view e).lookup k =
    if k = e.1 then Mvcc.alive Row.tombstone (some e.2) else view.lookup k := by
  unfold applyRow Mvcc.alive
  by_cases hk : k = e.1
  · subst hk
    cases h : e.2.tombstone <;> simp [h, Option.filter]
  · cases h : e.2.tombstone <;> simp [hk]

lemma lookup_foldl_of_not_mem {es : List (Key × Row)} {k : Key} (h : ∀ e ∈ es, e.1 ≠ k)
    (view : Table) : (es.foldl applyRow view).lookup k = view.lookup k := by
  induction es generalizing view with
  | nil => rfl
  | cons e es ih =>
    rw [List.foldl_cons, ih (fun e' he' => h e' (List.mem_cons_of_mem e he')), lookup_applyRow,
      if_neg (Ne.symm (h e List.mem_cons_self))]

lemma lookup_foldl_of_mem {es : List (Key × Row)} {k : Key} {r : Row} (hm : (k, r) ∈ es)
    (hu : ∀ e ∈ es, e.1 = k → e.2 = r) (view : Table) :
    (es.foldl applyRow view).lookup k = Mvcc.alive Row.tombstone (some r) := by
  induction es generalizing view with
  | nil => simp at hm
  | cons e es ih =>
    rw [List.foldl_cons]
    by_cases hes : (k, r) ∈ es
    · exact ih hes (fun e' he' => hu e' (List.mem_cons_of_mem e he')) _
    · have he : e = (k, r) := ((List.mem_cons.mp hm).resolve_right hes).symm
      subst he
      rw [lookup_foldl_of_not_mem, lookup_applyRow, if_pos rfl]
      rintro ⟨k', r'⟩ he' rfl
      exact hes (hu _ (List.mem_cons_of_mem _ he') rfl ▸ he')

lemma lookup_foldl_query (cond : Row → Bool) (view : Table) (k : Key) :
    ((d.query hashtext cfg cond).foldl applyRow view).lookup k =
      match (d.table.lookup k).filter fun r => cfg.inScope hashtext k && cond r with
      | some r => Mvcc.alive Row.tombstone (some r)
      | none => view.lookup k := by
  cases h : (d.table.lookup k).filter fun r => cfg.inScope hashtext k && cond r with
  | some r =>
    obtain ⟨h1, h2⟩ := Option.filter_eq_some_iff.mp h
    refine lookup_foldl_of_mem (mem_query.mpr ⟨h1, by simpa using h2⟩) ?_ view
    rintro ⟨k', r'⟩ he rfl
    exact Option.some.inj ((mem_query.mp he).1.symm.trans h1)
  | none =>
    refine lookup_foldl_of_not_mem ?_ view
    rintro ⟨k', r'⟩ he rfl
    obtain ⟨h1, h2, h3⟩ := mem_query.mp he
    simp [h1, h2, h3, Option.filter] at h

/-! ### The reader's invariant -/

/-- The reader has seen all it may forget: its watermark is a floor, and below it the view is
up to date. -/
structure Reader.Follows (hashtext : Hash) (cfg : WatchConfig) (d : Database) (r : Reader) :
    Prop where
  floor : d.toMvcc.Floor r.hwm
  caught : d.toMvcc.CaughtUp Row.txidStamp Row.tombstone r.hwm (fun k => r.view.lookup k)
    fun k => cfg.inScope hashtext k
  outside : ∀ k, ¬ cfg.inScope hashtext k → r.view.lookup k = none

lemma Reader.Follows.step {r : Reader} {d' : Database} (hr : r.Follows hashtext cfg d)
    (h : d.Step d') : r.Follows hashtext cfg d' where
  floor := h.lift (fun _ => hr.floor.step) hr.floor
  caught := h.lift (fun _ => hr.caught.step hr.floor) hr.caught
  outside := hr.outside

lemma alive_last (hd : d.Sane) {k : Key} (hk : cfg.inScope hashtext k) :
    Mvcc.alive Row.tombstone (d.last k) = visible hashtext cfg d k := by
  have h := hd.purged.alive_row k
  rw [visible, if_pos hk, funext Row.listed_eq]
  exact h.symm

lemma Database.Sane.floor_xmin (hd : d.Sane) : d.toMvcc.Floor (d.xmin - 1) := by
  have h := hd.xmin_pos
  exact Mvcc.floor_iff.mpr (by rw [Database.toMvcc_xmin]; omega)

lemma visible_start (k : Key) :
    (Reader.start (list hashtext cfg d)).view.lookup k = visible hashtext cfg d k := by
  simp only [Reader.start, list, lookup_foldl_query, visible]
  cases hk : cfg.inScope hashtext k with
  | false => cases h : d.table.lookup k <;> simp [Option.filter]
  | true =>
    simp only [Bool.true_and, if_true]
    cases h : (d.table.lookup k).filter Row.listed with
    | none => rfl
    | some r =>
      have hr : r.listed := (Option.filter_eq_some_iff.mp h).2
      rw [Row.listed_eq] at hr
      simp [Mvcc.alive, Option.filter, hr]

lemma follows_start (hd : d.Sane) :
    (Reader.start (list hashtext cfg d)).Follows hashtext cfg d where
  floor := by
    have h := hd.xmin_pos
    simpa [Reader.start, list, show 0 < d.xmin by omega] using hd.floor_xmin
  caught k hk := .inr ((visible_start k).trans (alive_last hd hk).symm)
  outside k hk := by simp [visible_start, visible, hk]

lemma not_gone {hwm hwm' : ℕ} {evs : List Event}
    (h : pollAll hashtext cfg hwm d = .ok (evs, hwm')) :
    Database.horizonOf d.horizon cfg.gvk ≤ hwm ∧
    evs = (d.query hashtext cfg fun r => hwm < r.txidStamp).map
      (fun e => ⟨eventType e.2, e.1, e.2⟩) ∧
    hwm' = if 0 < d.xmin ∧ hwm < d.xmin - 1 then d.xmin - 1 else hwm := by
  unfold pollAll at h
  split at h
  · cases h
  · rename_i hc
    cases h
    refine ⟨?_, rfl, rfl⟩
    unfold Database.horizonOf
    cases hl : d.horizon.lookup cfg.gvk <;> simp_all

lemma Reader.Follows.poll {r : Reader} {evs : List Event} {hwm : ℕ} (hd : d.Sane)
    (hr : r.Follows hashtext cfg d) (h : pollAll hashtext cfg r.hwm d = .ok (evs, hwm)) :
    (∀ k, (applyEvents r.view evs).lookup k = visible hashtext cfg d k) ∧
      Reader.Follows hashtext cfg d ⟨hwm, applyEvents r.view evs⟩ := by
  obtain ⟨hh, rfl, rfl⟩ := not_gone h
  set q := d.query hashtext cfg fun r' => r.hwm < r'.txidStamp
  have hq : applyEvents r.view (q.map fun e => ⟨eventType e.2, e.1, e.2⟩) =
      q.foldl applyRow r.view := by
    simp [applyEvents, Function.comp_def]
  have hin : ∀ k, cfg.inScope hashtext k →
      (q.foldl applyRow r.view).lookup k = Mvcc.alive Row.tombstone (d.last k) := by
    intro k hk
    refine hr.caught.poll (fun k => (q.foldl applyRow r.view).lookup k) hd.purged ?_ ?_ ?_ hk
    · intro k hk
      have hg : k.gvk = cfg.gvk := by simp_all [WatchConfig.inScope]
      simpa [Database.toMvcc, hg] using hh
    · intro k r' hk hrow hlt
      have : (d.table.lookup k).filter
          (fun r' => cfg.inScope hashtext k && decide (r.hwm < r'.txidStamp)) = some r' :=
        Option.filter_eq_some_iff.mpr ⟨hrow, by simp [hk, hlt]⟩
      simp only [q, lookup_foldl_query, this]
    · intro k hk hle
      have : (d.table.lookup k).filter
          (fun r' => cfg.inScope hashtext k && decide (r.hwm < r'.txidStamp)) = none := by
        refine Option.filter_eq_none_iff.mpr fun r' hr' => ?_
        simp [Nat.not_lt.mpr (hle r' hr')]
      simp only [q, lookup_foldl_query, this]
  have hout : ∀ k, ¬ cfg.inScope hashtext k → (q.foldl applyRow r.view).lookup k = none := by
    intro k hk
    have : (d.table.lookup k).filter
        (fun r' => cfg.inScope hashtext k && decide (r.hwm < r'.txidStamp)) = none :=
      Option.filter_eq_none_iff.mpr fun r' _ => by simp [hk]
    simp only [q, lookup_foldl_query, this, hr.outside k hk]
  rw [hq]
  refine ⟨fun k => ?_, ?_, fun k hk => .inr (hin k hk), hout⟩
  · by_cases hk : cfg.inScope hashtext k
    · exact (hin k hk).trans (alive_last hd hk)
    · simp [hout k hk, visible, hk]
  · dsimp only
    split
    · exact hd.floor_xmin
    · exact hr.floor

/-- What holds in every state of the database and its reader. -/
def Followed.Good (hashtext : Hash) (cfg : WatchConfig) (s : Followed) : Prop :=
  s.db.Sane ∧ ∀ r, s.reader = some r → r.Follows hashtext cfg s.db

lemma Followed.Good.step {s s' : Followed} (hs : s.Good hashtext cfg)
    (h : Followed.Step hashtext cfg s s') : s'.Good hashtext cfg := by
  obtain ⟨hd, hr⟩ := hs
  cases h with
  | db h => exact ⟨hd.step h, fun r hr' => (hr r hr').step h⟩
  | list => exact ⟨hd, by rintro r ⟨⟩; exact follows_start hd⟩
  | poll h => exact ⟨hd, by rintro r ⟨⟩; exact ((hr _ rfl).poll hd h).2⟩

lemma Followed.good_of_run {s : Followed}
    (h : Relation.ReflTransGen (Followed.Step hashtext cfg) ⟨.empty, none⟩ s) :
    s.Good hashtext cfg := by
  induction h with
  | refl => exact ⟨Database.sane_empty, by simp⟩
  | tail _ h ih => exact ih.step h

/-- **Complete handoff**: after every poll that is not refused, what the reader has folded
together is exactly the live and dying rows of the snapshot of that poll, however transactions,
compactions, the list and the polls were interleaved. -/
theorem list_watch_complete {d : Database} {r : Reader}
    (h : Relation.ReflTransGen (Followed.Step hashtext cfg) ⟨.empty, none⟩ ⟨d, some r⟩) :
    pollAll hashtext cfg r.hwm d = .error .gone ∨
    ∃ evs hwm, pollAll hashtext cfg r.hwm d = .ok (evs, hwm) ∧
      ∀ k, (applyEvents r.view evs).lookup k = visible hashtext cfg d k := by
  obtain ⟨hd, hr⟩ := Followed.good_of_run h
  cases hp : pollAll hashtext cfg r.hwm d with
  | error e => cases e; exact .inl rfl
  | ok p => exact .inr ⟨p.1, p.2, rfl, ((hr r rfl).poll hd hp).1⟩

def sampleParams : WriteParams :=
  ⟨false, ⟨"g/v1/K", "ns", "a"⟩, 0, none, false, some (.obj []), some (.obj []), some (.obj []),
    none⟩

/-- The database after that create, with transaction 3 and UUID 7. -/
def sampleDb : Database :=
  ⟨4, [], AList.singleton sampleParams.key
    ⟨7, 3, 1, .obj [], .obj [], .obj [], none, 0, 0⟩, ∅,
    [(sampleParams.key, ⟨7, 3, 1, .obj [], .obj [], .obj [], none, 0, 0⟩)]⟩

/-- A reader that listed the empty database sees the object created after its list. -/
theorem list_watch_complete_create :
    ∃ evs hwm, pollAll (fun _ => 0) ⟨"g/v1/K", none⟩ 2 sampleDb = .ok (evs, hwm) ∧
      ((applyEvents ∅ evs).lookup sampleParams.key).map Row.uid = some 7 := by
  have h : Relation.ReflTransGen (Followed.Step (fun _ => 0) ⟨"g/v1/K", none⟩)
      ⟨.empty, none⟩ ⟨sampleDb, some ⟨2, ∅⟩⟩ :=
    ((Relation.ReflTransGen.refl.tail .list).tail
      (.db ⟨.currentXactId, ⟨0, 7, []⟩, 3, rfl⟩)).tail
      (.db ⟨.insertRow 3 sampleParams, ⟨0, 7, []⟩, .row 7 1, rfl⟩)
  rcases list_watch_complete h with hg | ⟨evs, hwm, hp, hv⟩
  · cases hg
  · exact ⟨evs, hwm, hp, by rw [hv]; rfl⟩

end Seaplane.Db
