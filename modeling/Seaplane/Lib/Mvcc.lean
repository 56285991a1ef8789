import Mathlib.Logic.Function.Basic
import Mathlib.Tactic.Common

/-!
Multi-version stores in the abstract: rows stamped with the identifier of the transaction that
wrote them, deletion of dead rows behind a horizon, and readers that follow the store by stamp.

Identifiers are handed out in increasing order, but transactions finish in any order, so a row
with a small stamp can appear after a row with a large one. A reader may therefore only forget
what lies below a *floor*: a number that no transaction still to finish can write.
-/

namespace Seaplane.Lib

/-- The store as a reader of any later moment may need it: `last` remembers the last row
written under a key even when the row itself has been purged. -/
structure Mvcc (K R : Type) where
  nextXid : ℕ
  running : List ℕ
  row : K → Option R
  last : K → Option R
  horizon : K → ℕ

namespace Mvcc

variable {K R : Type} [DecidableEq K] (stamp : R → ℕ) (dead : R → Bool)

def xmin (m : Mvcc K R) : ℕ := m.running.foldr min m.nextXid

/-- One step of the store: a transaction begins, finishes without a write, writes one row, or
purges dead rows and raises the horizon above them. -/
inductive Step : Mvcc K R → Mvcc K R → Prop where
  | begin (m : Mvcc K R) :
      Step m { m with nextXid := m.nextXid + 1, running := m.nextXid :: m.running }
  | finish (m : Mvcc K R) (x : ℕ) : Step m { m with running := m.running.erase x }
  | write (m : Mvcc K R) (x : ℕ) (k : K) (r : R) (hx : x ∈ m.running) (hr : stamp r = x) :
      Step m { m with
        running := m.running.erase x
        row := Function.update m.row k (some r)
        last := Function.update m.last k (some r) }
  | purge (m : Mvcc K R) (x : ℕ) (row' : K → Option R) (h' : K → ℕ)
      (hrow : ∀ k, row' k = m.row k ∨ (row' k = none ∧ ∃ r, m.row k = some r ∧ dead r ∧
        stamp r ≤ h' k))
      (hh : ∀ k, m.horizon k ≤ h' k) :
      Step m { m with running := m.running.erase x, row := row', horizon := h' }

/-- The row of a key is the last one written, unless that one was dead and has been purged
below the horizon. -/
def Purged (m : Mvcc K R) : Prop :=
  ∀ k, m.row k = m.last k ∨
    (m.row k = none ∧ ∃ r, m.last k = some r ∧ dead r ∧ stamp r ≤ m.horizon k)

/-- No transaction still to finish can write at or below `h`. -/
def Floor (m : Mvcc K R) (h : ℕ) : Prop := h < m.nextXid ∧ ∀ x ∈ m.running, h < x

variable {stamp dead} {m m' : Mvcc K R}

lemma Purged.step (hp : m.Purged stamp dead) (h : Step stamp dead m m') : m'.Purged stamp dead := by
  cases h with
  | begin | finish x => exact hp
  | write x k r hx hr =>
    intro k'
    by_cases hk : k' = k
    · subst hk; exact .inl (by simp)
    · simpa [hk] using hp k'
  | purge x row' h' hrow hh =>
    intro k
    rcases hp k with h1 | ⟨h1, r, h2, h3, h4⟩
    · rcases hrow k with h5 | ⟨h5, r, h6, h7⟩
      · exact .inl (h5.trans h1)
      · exact .inr ⟨h5, r, h1 ▸ h6, h7⟩
    · rcases hrow k with h5 | ⟨-, r', h6, -⟩
      · exact .inr ⟨h5.trans h1, r, h2, h3, Nat.le_trans h4 (hh k)⟩
      · simp [h1] at h6

lemma Floor.step {f : ℕ} (hf : m.Floor f) (h : Step stamp dead m m') : m'.Floor f := by
  cases h with
  | begin =>
    refine ⟨Nat.lt_succ_of_lt hf.1, ?_⟩
    intro x hx
    rcases List.mem_cons.mp hx with rfl | hx
    · exact hf.1
    · exact hf.2 x hx
  | finish x | write x | purge x => exact ⟨hf.1, fun y hy => hf.2 y (List.mem_of_mem_erase hy)⟩

/-- A last row that is new since a floor was set carries a stamp above it. -/
lemma Floor.last {f : ℕ} (hf : m.Floor f) (h : Step stamp dead m m') (k : K) :
    m'.last k = m.last k ∨ ∃ r, m'.last k = some r ∧ f < stamp r := by
  cases h with
  | begin | finish x | purge x => exact .inl rfl
  | write x k' r hx hr =>
    by_cases hk : k = k'
    · subst hk; exact .inr ⟨r, by simp, hr ▸ hf.2 x hx⟩
    · exact .inl (by simp [hk])

omit [DecidableEq K] in
lemma floor_iff {f : ℕ} : m.Floor f ↔ f < m.xmin := by
  unfold Floor xmin
  induction m.running with
  | nil => simp
  | cons x l ih =>
    simp only [List.forall_mem_cons, List.foldr_cons, Nat.lt_min, ← ih]
    exact ⟨fun h => ⟨h.2.1, h.1, h.2.2⟩, fun h => ⟨h.2.1, h.1, h.2.2⟩⟩

/-! ### Readers that follow the store -/

/-- What a reader shows for a row: nothing when it is dead. -/
def alive (dead : R → Bool) (o : Option R) : Option R := o.filter fun r => !dead r

/-- A view that shows every last row stamped at or below `h`. -/
def CaughtUp (stamp : R → ℕ) (dead : R → Bool) (m : Mvcc K R) (h : ℕ) (view : K → Option R)
    (scope : K → Prop) : Prop :=
  ∀ k, scope k → (∃ r, m.last k = some r ∧ h < stamp r) ∨ view k = alive dead (m.last k)

/-- Behind a floor a view stays caught up whatever the store does. -/
lemma CaughtUp.step {h : ℕ} {view : K → Option R} {scope : K → Prop}
    (hc : m.CaughtUp stamp dead h view scope) (hf : m.Floor h) (hs : Step stamp dead m m') :
    m'.CaughtUp stamp dead h view scope := by
  intro k hk
  rcases hf.last hs k with he | hr
  · simpa [he] using hc k hk
  · exact .inl hr

omit [DecidableEq K] in
lemma Purged.alive_row (hp : m.Purged stamp dead) (k : K) :
    alive dead (m.row k) = alive dead (m.last k) := by
  rcases hp k with h1 | ⟨h1, r, h2, h3, -⟩
  · rw [h1]
  · simp [alive, h1, h2, h3, Option.filter]

omit [DecidableEq K] in
/-- **Catching up**: a reader that is not behind the horizon and takes every row above `h` shows
every last row. -/
lemma CaughtUp.poll {h : ℕ} {view : K → Option R} (view' : K → Option R) {scope : K → Prop}
    (hc : m.CaughtUp stamp dead h view scope) (hp : m.Purged stamp dead)
    (hh : ∀ k, scope k → m.horizon k ≤ h)
    (hnew : ∀ k r, scope k → m.row k = some r → h < stamp r → view' k = alive dead (some r))
    (hold : ∀ k, scope k → (∀ r, m.row k = some r → stamp r ≤ h) → view' k = view k)
    {k : K} (hk : scope k) : view' k = alive dead (m.last k) := by
  rcases hp k with h1 | ⟨h1, r, h2, -, h4⟩
  · by_cases hr : ∃ r, m.row k = some r ∧ h < stamp r
    · obtain ⟨r, hr, hlt⟩ := hr
      rw [hnew k r hk hr hlt, ← h1, hr]
    · rw [hold k hk fun r h2 => Nat.le_of_not_lt fun hlt => hr ⟨r, h2, hlt⟩]
      exact (hc k hk).resolve_left fun ⟨r, h2, hlt⟩ => hr ⟨r, h1.trans h2, hlt⟩
  · -- the last row was purged, so it lies below the horizon and had been seen
    rw [hold k hk (by simp [h1])]
    refine (hc k hk).resolve_left ?_
    rintro ⟨r', h2', hlt⟩
    cases h2.symm.trans h2'
    exact absurd (hh k hk) (by omega)

end Mvcc

end Seaplane.Lib
