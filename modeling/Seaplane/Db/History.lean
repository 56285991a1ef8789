import Seaplane.Db.Refine

/-!
The history of committed rows.

A transaction identifier stamps at most one row, a UUID belongs to one key, and within one UUID
the versions of the committed rows strictly increase. So a committed row is known by its stamp,
and its content by its UUID and version.
-/

namespace Seaplane.Db.Database

/-- What holds of the history in every reachable state. -/
structure Historic (d : Database) : Prop where
  nodup : (d.hist.map (·.2.txidStamp) ++ d.running).Nodup
  lt : ∀ x ∈ d.hist.map (·.2.txidStamp) ++ d.running, x < d.nextXid
  mem : ∀ k r, d.table.lookup k = some r → (k, r) ∈ d.hist
  pos : ∀ e ∈ d.hist, 1 ≤ e.2.objectVersion
  uid_key : ∀ e ∈ d.hist, ∀ e' ∈ d.hist, e.2.uid = e'.2.uid → e.1 = e'.1
  content : ∀ e ∈ d.hist, ∀ e' ∈ d.hist, e.2.uid = e'.2.uid →
    e.2.objectVersion = e'.2.objectVersion → e = e'
  top : ∀ k r, d.table.lookup k = some r → ∀ e ∈ d.hist, e.2.uid = r.uid →
    e.2.objectVersion ≤ r.objectVersion

lemma historic_empty : empty.Historic := by
  constructor <;> simp [empty]

variable {d d' : Database} {o : Op}

/-- Committing a row keeps the history in order when the row opens a new UUID or goes on from
the top of its own. -/
lemma Historic.commitRow (h : d.Historic) {x : ℕ} {k : Key} {r : Row}
    (hx : x ∈ d.running) (hr : r.txidStamp = x) (hpos : 1 ≤ r.objectVersion)
    (hkey : ∀ e ∈ d.hist, e.2.uid = r.uid → e.1 = k)
    (hver : ∀ e ∈ d.hist, e.2.uid = r.uid → e.2.objectVersion < r.objectVersion) :
    (d.commitRow x k r).Historic := by
  have hperm : (r.txidStamp :: (d.hist.map (·.2.txidStamp) ++ d.running.erase x)).Perm
      (d.hist.map (·.2.txidStamp) ++ d.running) := by
    rw [hr]
    exact List.perm_middle.symm.trans ((List.perm_cons_erase hx).symm.append_left _)
  refine ⟨?_, ?_, ?_, ?_, ?_, ?_, ?_⟩
  · exact hperm.nodup_iff.mpr h.nodup
  · intro y hy
    exact h.lt y (hperm.mem_iff.mp hy)
  · intro k' r' hk
    rw [lookup_commitRow] at hk
    split at hk
    · rename_i he; cases hk; cases he; exact List.mem_cons_self
    · exact List.mem_cons_of_mem _ (h.mem k' r' hk)
  · exact List.forall_mem_cons.mpr ⟨hpos, h.pos⟩
  · rintro e he e' he' hu
    rcases List.mem_cons.mp he with rfl | he <;> rcases List.mem_cons.mp he' with rfl | he'
    · rfl
    · exact (hkey e' he' hu.symm).symm
    · exact hkey e he hu
    · exact h.uid_key e he e' he' hu
  · rintro e he e' he' hu hv
    rcases List.mem_cons.mp he with rfl | he <;> rcases List.mem_cons.mp he' with rfl | he'
    · rfl
    · exact absurd (hver e' he' hu.symm) (by simp only at hv; omega)
    · exact absurd (hver e he hu) (by simp only at hv; omega)
    · exact h.content e he e' he' hu hv
  · intro k' r' hk e he hu
    rw [lookup_commitRow] at hk
    split at hk
    · cases hk
      rcases List.mem_cons.mp he with rfl | he
      · exact le_rfl
      · exact (hver e he hu).le
    · rename_i hne
      rcases List.mem_cons.mp he with rfl | he
      · -- the row of another key cannot carry the UUID of the new row
        exact absurd (hkey _ (h.mem k' r' hk) hu.symm) hne
      · exact h.top k' r' hk e he hu

lemma Historic.effect (h : d.Historic) (he : Effect d d') : d'.Historic := by
  have erase : ∀ x, (d.hist.map (·.2.txidStamp) ++ d.running.erase x).Sublist
      (d.hist.map (·.2.txidStamp) ++ d.running) := fun x =>
    (List.Sublist.refl _).append List.erase_sublist
  cases he with
  | refl => exact h
  | begin =>
    refine { h with nodup := ?_, lt := ?_ }
    · refine List.perm_middle.nodup_iff.mpr (List.nodup_cons.mpr ⟨?_, h.nodup⟩)
      exact fun hm => absurd (h.lt _ hm) (lt_irrefl _)
    · intro y hy
      rcases List.mem_cons.mp (List.perm_middle.mem_iff.mp hy) with rfl | hy
      · exact Nat.lt_succ_self _
      · exact Nat.lt_succ_of_lt (h.lt y hy)
  | finish x =>
    exact { h with
      nodup := h.nodup.sublist (erase x)
      lt := fun y hy => h.lt y ((erase x).subset hy) }
  | create x p r hc =>
    have hfresh : ∀ e ∈ d.hist, e.2.uid ≠ r.uid := by simpa [fresh] using hc.fresh
    exact h.commitRow hc.running hc.stamp hc.version.ge (fun e he hu => absurd hu (hfresh e he))
      (fun e he hu => absurd hu (hfresh e he))
  | replace x p r0 r hr =>
    have hv := hr.version
    refine h.commitRow hr.running hr.stamp ?_ ?_ ?_
    · have := h.pos _ (h.mem p.key r0 hr.row)
      simp only at this
      omega
    · intro e he hu'
      exact h.uid_key e he _ (h.mem p.key r0 hr.row) (hu'.trans hr.uid)
    · intro e he hu'
      have := h.top p.key r0 hr.row e he (hu'.trans hr.uid)
      omega
  | compact x c ch =>
    have hsub : ∀ k r, (d.commitCompact x (d.compacted c ch)).table.lookup k = some r →
        d.table.lookup k = some r := by
      intro k r hk
      rcases lookup_commitCompact d x c ch k with h1 | ⟨h1, -⟩
      · exact h1 ▸ hk
      · rw [h1] at hk; cases hk
    exact { h with
      nodup := h.nodup.sublist (erase x)
      lt := fun y hy => h.lt y ((erase x).subset hy)
      mem := fun k r hk => h.mem k r (hsub k r hk)
      top := fun k r hk => h.top k r (hsub k r hk) }

lemma Historic.step (h : d.Historic) (hs : d.Step d') : d'.Historic := by
  obtain ⟨o, ch, a, hs⟩ := hs
  exact h.effect (exec_effect hs)

lemma hist_step {ch : Choice} {a : o.Res}
    (hx : exec o ch d = some (a, d')) {e : Key × Row} (he : e ∈ d.hist) : e ∈ d'.hist := by
  cases exec_effect hx with
  | refl | begin | finish x | compact x c ch => exact he
  | create x p r _ | replace x p _ r _ => exact List.mem_cons_of_mem _ he

/-- What a statement leaves as it is: the rows of other keys, unless they are compacted, and other
transactions. -/
structure Frame (o : Op) (d d' : Database) : Prop where
  lookup {k : Key} (hk : o.target ≠ some k) : d'.table.lookup k = d.table.lookup k ∨
    d'.table.lookup k = none ∧ ∃ r, d.table.lookup k = some r ∧ r.tombstone
  hist {k : Key} {r : Row} (hk : o.target ≠ some k) (h : (k, r) ∈ d'.hist) : (k, r) ∈ d.hist
  running {x : ℕ} (hx : o.transaction ≠ some x) (h : x ∈ d.running) : x ∈ d'.running

lemma Frame.refl : Frame o d d :=
  ⟨fun _ => .inl rfl, fun _ h => h, fun _ h => h⟩

lemma mem_running_erase {x x' : ℕ} (hx : o.transaction = some x)
    (hx' : o.transaction ≠ some x') (h : x' ∈ d.running) : x' ∈ d.running.erase x := by
  refine (List.mem_erase_of_ne ?_).mpr h
  rintro rfl
  exact hx' hx

lemma frame_commitRow {x : ℕ} {k : Key} {r : Row}
    (hk : o.target = some k) (hx : o.transaction = some x) : Frame o d (d.commitRow x k r) where
  lookup {k'} hk' := by
    rw [lookup_commitRow, if_neg]
    · exact .inl rfl
    · rintro rfl
      exact hk' hk
  hist {k' r'} hk' h := by
    rcases List.mem_cons.mp h with heq | h
    · cases heq
      exact absurd hk hk'
    · exact h
  running := mem_running_erase hx

lemma exec_frame {ch : Choice} {a : o.Res} (h : exec o ch d = some (a, d')) : Frame o d d' := by
  cases o with
  | currentXactId =>
    cases h
    exact ⟨fun _ => .inl rfl, fun _ h => h, fun _ h => List.mem_cons_of_mem _ h⟩
  | selectRow k =>
    cases h
    exact .refl
  | insertRow x p | reviveRow x p =>
    rcases exec_create h x p (by simp) with rfl | ⟨r, -, -, rfl⟩
    · exact .refl
    · exact frame_commitRow rfl rfl
  | updateStatus x p | updateObject x p =>
    rcases exec_replace h x p (by simp) with rfl | ⟨r0, r, -, rfl⟩
    · exact .refl
    · exact frame_commitRow rfl rfl
  | endTx x =>
    cases (Option.ite_none_right_eq_some.mp h).2
    exact ⟨fun _ => .inl rfl, fun _ h => h, mem_running_erase rfl⟩
  | compact x c =>
    cases (Option.ite_none_right_eq_some.mp h).2
    refine ⟨fun {k} _ => ?_, fun _ h => h, mem_running_erase rfl⟩
    rcases lookup_commitCompact d x c ch k with hk | ⟨hk, r, hr, ht, -⟩
    · exact .inl hk
    · exact .inr ⟨hk, r, hr, ht⟩

lemma Historic.stamp_inj (h : d.Historic) {e e' : Key × Row} (he : e ∈ d.hist)
    (he' : e' ∈ d.hist) (hs : e.2.txidStamp = e'.2.txidStamp) : e = e' :=
  List.inj_on_of_nodup_map (List.nodup_append.mp h.nodup).1 he he' hs

lemma Historic.stamp_ne (h : d.Historic) {e : Key × Row} (he : e ∈ d.hist) {x : ℕ}
    (hx : x ∈ d.running) : e.2.txidStamp ≠ x :=
  (List.nodup_append.mp h.nodup).2.2 _ (List.mem_map_of_mem he) _ hx

end Seaplane.Db.Database
