import Seaplane.Db.Store

/-!
The database refines the abstract multi-version store.

The abstraction forgets what the rows hold. Every statement is a step of the abstract store or
leaves it as it is, so what holds along the abstract steps holds along the database's.
-/

namespace Seaplane.Db.Database

open Lib

def last (d : Database) (k : Key) : Option Row := (d.hist.find? (·.1 = k)).map (·.2)

/-- The compaction horizon of a kind; 0 before any compaction. -/
def horizonOf (h : AList fun _ : String => ℕ) (gvk : String) : ℕ := (h.lookup gvk).getD 0

def toMvcc (d : Database) : Mvcc Key Row where
  nextXid := d.nextXid
  running := d.running
  row k := d.table.lookup k
  last := d.last
  horizon k := horizonOf d.horizon k.gvk

@[simp] lemma last_commitRow (d : Database) (x : ℕ) (k k' : Key) (r : Row) :
    (d.commitRow x k r).last k' = if k' = k then some r else d.last k' := by
  by_cases h : k' = k
  · simp [last, commitRow, h]
  · simp [last, commitRow, h, Ne.symm h]

@[simp] lemma lookup_commitRow (d : Database) (x : ℕ) (k k' : Key) (r : Row) :
    (d.commitRow x k r).table.lookup k' = if k' = k then some r else d.table.lookup k' := by
  by_cases h : k' = k
  · subst h; simp [commitRow]
  · simp [commitRow, h]

/-! ### Compaction -/

lemma lookup_foldl_erase (del : List (Key × Row)) (t : Table) (k : Key) :
    (del.foldl (fun t e => t.erase e.1) t).lookup k =
      if k ∈ del.map (·.1) then none else t.lookup k := by
  induction del generalizing t with
  | nil => simp
  | cons e del ih =>
    rw [List.foldl_cons, ih]
    by_cases h : e.1 = k
    · subst h; simp
    · have hm : k ∈ (e :: del).map (·.1) ↔ k ∈ del.map (·.1) := by simp [Ne.symm h]
      rw [AList.lookup_erase_ne (Ne.symm h), if_congr hm rfl rfl]

lemma horizonOf_raise (h : AList fun _ : String => ℕ) (e : Key × Row) (g : String) :
    horizonOf (raise h e) g =
      if g = e.1.gvk then max (horizonOf h g) e.2.txidStamp else horizonOf h g := by
  by_cases hg : g = e.1.gvk
  · subst hg; simp [horizonOf, raise]
  · simp [horizonOf, raise, hg]

lemma horizonOf_le_foldl (del : List (Key × Row)) (h : AList fun _ : String => ℕ) (g : String) :
    horizonOf h g ≤ horizonOf (del.foldl raise h) g := by
  induction del generalizing h with
  | nil => exact le_rfl
  | cons e del ih =>
    refine le_trans ?_ (ih (raise h e))
    rw [horizonOf_raise]
    split
    · exact le_max_left _ _
    · exact le_rfl

lemma stamp_le_horizon {del : List (Key × Row)} {e : Key × Row} (he : e ∈ del)
    (h : AList fun _ : String => ℕ) : e.2.txidStamp ≤ horizonOf (del.foldl raise h) e.1.gvk := by
  induction del generalizing h with
  | nil => simp at he
  | cons e' del ih =>
    rcases List.mem_cons.mp he with rfl | he
    · refine le_trans ?_ (horizonOf_le_foldl del (raise h e) _)
      simp [horizonOf_raise]
    · exact ih he _

variable {d d' : Database}

lemma mem_compacted {c : CompactConfig} {ch : Choice} {e : Key × Row} (h : e ∈ d.compacted c ch) :
    d.table.lookup e.1 = some e.2 ∧ e.2.tombstone := by
  simp only [compacted, List.mem_map, List.mem_filter, Bool.and_eq_true,
    CompactConfig.eligible] at h
  obtain ⟨e', ⟨he, ⟨ht, -⟩, -⟩, rfl⟩ := h
  exact ⟨AList.mem_lookup_iff.mpr he, ht⟩

lemma lookup_commitCompact (d : Database) (x : ℕ) (c : CompactConfig) (ch : Choice) (k : Key) :
    (d.commitCompact x (d.compacted c ch)).table.lookup k = d.table.lookup k ∨
    ((d.commitCompact x (d.compacted c ch)).table.lookup k = none ∧
      ∃ r, d.table.lookup k = some r ∧ r.tombstone ∧
        r.txidStamp ≤ horizonOf (d.commitCompact x (d.compacted c ch)).horizon k.gvk) := by
  simp only [commitCompact, lookup_foldl_erase]
  split
  · rename_i h
    obtain ⟨e, he, rfl⟩ := List.mem_map.mp h
    obtain ⟨h1, h2⟩ := mem_compacted he
    exact .inr ⟨rfl, e.2, h1, h2, stamp_le_horizon he _⟩
  · exact .inl rfl

/-! ### Refinement -/

/-- **Refinement**: what a statement does, the abstract store does in at most one step. -/
theorem Effect.toMvcc (h : Effect d d') :
    d'.toMvcc = d.toMvcc ∨
      Mvcc.Step Row.txidStamp Row.tombstone d.toMvcc d'.toMvcc := by
  have commit : ∀ x k (r : Row), x ∈ d.running → r.txidStamp = x →
      Mvcc.Step Row.txidStamp Row.tombstone d.toMvcc (d.commitRow x k r).toMvcc := by
    intro x k r hx hr
    convert Mvcc.Step.write d.toMvcc x k r hx hr using 1
    simp only [Database.toMvcc, Mvcc.mk.injEq]
    refine ⟨rfl, rfl, ?_, ?_, rfl⟩ <;> funext k' <;>
      simp [Function.update_apply]
  cases h with
  | refl => exact .inl rfl
  | begin => exact .inr (.begin d.toMvcc)
  | finish x => exact .inr (.finish d.toMvcc x)
  | create x p r h | replace x p r0 r h => exact .inr (commit x p.key r h.running h.stamp)
  | compact x c ch =>
    exact .inr (.purge d.toMvcc x _ _ (lookup_commitCompact d x c ch)
      fun k => horizonOf_le_foldl _ _ _)

lemma Step.lift {P : Mvcc Key Row → Prop} (h : d.Step d')
    (hP : ∀ m', Mvcc.Step Row.txidStamp Row.tombstone d.toMvcc m' → P m') (h0 : P d.toMvcc) :
    P d'.toMvcc := by
  obtain ⟨o, ch, a, h⟩ := h
  rcases (exec_effect h).toMvcc with h | h
  · rwa [h]
  · exact hP _ h

/-- What holds of the database in every reachable state: rows are removed only below the
horizon, and no transaction has an identifier below 3. -/
structure Sane (d : Database) : Prop where
  purged : d.toMvcc.Purged Row.txidStamp Row.tombstone
  floor : d.toMvcc.Floor 2

lemma sane_empty : empty.Sane := by
  refine ⟨fun k => .inl rfl, ?_, ?_⟩ <;> simp [toMvcc, empty]

lemma Sane.step (hs : d.Sane) (h : d.Step d') : d'.Sane :=
  ⟨h.lift (fun _ => hs.purged.step) hs.purged, h.lift (fun _ => hs.floor.step) hs.floor⟩

/-- The lowest running identifier, as `pg_snapshot_xmin` reports it. -/
def xmin (d : Database) : ℕ := d.running.foldr min d.nextXid

lemma toMvcc_xmin (d : Database) : d.toMvcc.xmin = d.xmin := rfl

lemma Sane.xmin_pos (h : d.Sane) : 2 < d.xmin := Mvcc.floor_iff.mp h.floor

end Seaplane.Db.Database
