import Seaplane.Lib.Trace

/-!
Runs with the store before and after each operation.

A history says what the programs of a run have seen. A chronicle keeps the store around each
operation as well, so that it can be said which operations of a program changed something.
-/

namespace Seaplane.Lib

variable {Op : Type} {Res : Op → Type} {σ χ L α : Type}

/-- One operation of a run: whose it was, what it saw, and the store around it. -/
structure Moment (Op : Type) (Res : Op → Type) (σ : Type) where
  thread : ℕ
  seen : Seen Op Res
  before : σ
  after : σ

namespace System

/-- A run from `c0` with all its moments, the latest first, in which every operation meets a
condition on its caller, the choice and the store before it. -/
inductive Chronicle (M : System Op Res σ χ L α) (ok : L → Op → χ → σ → Prop)
    (c0 : Conf Op Res σ L α) : List (Moment Op Res σ) → Conf Op Res σ L α → Prop where
  | start : Chronicle M ok c0 [] c0
  | spawn {ms : List (Moment Op Res σ)} {c : Conf Op Res σ L α} (l : L)
      (h : Chronicle M ok c0 ms c) (ha : M.admits l c) :
      Chronicle M ok c0 ms { c with pool := c.pool ++ [⟨l, M.code l⟩] }
  | act {ms : List (Moment Op Res σ)} {s s' : σ} {pool : List (Thread Op Res L α)} {i : ℕ} {l : L}
      {o : Op} {k : Res o → Prog Op Res α} {x : χ} {r : Res o} (h : Chronicle M ok c0 ms ⟨s, pool⟩)
      (hi : pool[i]? = some ⟨l, .op o k⟩) (hok : ok l o x s) (hx : M.exec o x s = some (r, s')) :
      Chronicle M ok c0 (⟨i, ⟨o, r⟩, s, s'⟩ :: ms) ⟨s', pool.set i ⟨l, k r⟩⟩

def history (ms : List (Moment Op Res σ)) : List (ℕ × Seen Op Res) :=
  ms.map fun m => (m.thread, m.seen)

/-- The moments of the `i`-th program. -/
def momentsOf (i : ℕ) (ms : List (Moment Op Res σ)) : List (Moment Op Res σ) :=
  ms.filter (·.thread = i)

lemma own_history (i : ℕ) (ms : List (Moment Op Res σ)) :
    own i (history ms) = (momentsOf i ms).map Moment.seen := by
  induction ms with
  | nil => rfl
  | cons m ms ih =>
    unfold history momentsOf at ih ⊢
    by_cases hi : m.thread = i
    · subst hi
      simp [ih]
    · rw [List.map_cons, own_cons_ne hi, ih, List.filter_cons_of_neg (by simpa using hi)]

variable {M : System Op Res σ χ L α} {ok : L → Op → χ → σ → Prop} {c0 c c' : Conf Op Res σ L α}
  {ms : List (Moment Op Res σ)}

lemma Chronicle.hist (h : M.Chronicle ok c0 ms c) : M.HistIf ok c0 (history ms) c := by
  induction h with
  | start => exact .start
  | spawn l _ ha ih => exact ih.spawn l ha
  | act _ hi hok hx ih => exact ih.act hi hok hx

lemma Chronicle.lt_length {s : σ} (h : M.Chronicle ok ⟨s, []⟩ ms c) :
    ∀ m ∈ ms, m.thread < c.pool.length := fun m hm =>
  h.hist.lt_length (m.thread, m.seen) (List.mem_map.mpr ⟨m, hm, rfl⟩)

section

variable {s : σ} {V : (o : Op) → Res o → Prop} {A : L → List (Seen Op Res) → Op → Prop}
  {Q : L → List (Seen Op Res) → α → Prop} (h : M.Chronicle ok ⟨s, []⟩ ms c)
  (hV : ∀ o x s r s', M.exec o x s = some (r, s') → V o r)
  (hg : ∀ l, (M.code l).Guards V (A l) (Q l) []) {i : ℕ}
include h hV hg

/-- What a moment of a program is, given the moments before it: it is a step after the run up to
it, the operation was allowed, it met the condition, and what it did is what the store does. -/
theorem Chronicle.moment {t : Thread Op Res L α} (ht : c.pool[i]? = some t)
    {later earlier : List (Moment Op Res σ)} {m : Moment Op Res σ}
    (hm : momentsOf i ms = later ++ m :: earlier) :
    (∃ es c1 c2 t1, M.HistIf ok ⟨s, []⟩ es c1 ∧ own i es = earlier.map Moment.seen ∧
      c1.pool[i]? = some t1 ∧ t1.label = t.label ∧ M.Act i c1 c2 ∧ c1.store = m.before ∧
      c2.store = m.after) ∧
    A t.label (earlier.map Moment.seen) m.seen.1 ∧
    ∃ x, ok t.label m.seen.1 x m.before ∧
      M.exec m.seen.1 x m.before = some (m.seen.2, m.after) := by
  induction h generalizing i t later with
  | start => simp at ht
  | @spawn ms c l h ha ih =>
    rcases getElem?_concat ht with ht | ⟨rfl, rfl⟩
    · exact ih ht hm
    · -- a program that has just been admitted has no moments
      have hnone : momentsOf c.pool.length ms = [] := by
        refine List.filter_eq_nil_iff.mpr fun m' hm' => ?_
        have := h.lt_length m' hm'
        simpa using Nat.ne_of_lt this
      rw [hnone] at hm
      simp at hm
  | @act ms s1 s2 pool j l o k x r h hi hok hx ih =>
    rcases getElem?_of_set hi ht with ⟨rfl, rfl⟩ | ⟨hij, ht⟩
    · have hcons : momentsOf j (⟨j, ⟨o, r⟩, s1, s2⟩ :: ms) =
          ⟨j, ⟨o, r⟩, s1, s2⟩ :: momentsOf j ms := by simp [momentsOf]
      rw [hcons] at hm
      cases later with
      | nil =>
        obtain ⟨rfl, rfl⟩ := List.cons.inj hm
        have hguards := h.hist.guards hV hg hi
        rw [own_history] at hguards
        exact ⟨⟨_, _, _, _, h.hist, own_history j ms, hi, rfl, .mk hi hx, rfl, rfl⟩, hguards.1, x,
          hok, hx⟩
      | cons m' later =>
        obtain ⟨-, hm⟩ := List.cons.inj hm
        have hrest := ih hi hm
        exact hrest
    · have hskip : momentsOf i (⟨j, ⟨o, r⟩, s1, s2⟩ :: ms) = momentsOf i ms := by
        simp [momentsOf, hij]
      rw [hskip] at hm
      exact ih ht hm

theorem Chronicle.returned {l : L} {a : α} (ht : c.pool[i]? = some ⟨l, .ret a⟩) :
    Q l ((momentsOf i ms).map Moment.seen) a := by
  have hguards := h.hist.guards hV hg ht
  rw [own_history] at hguards
  exact hguards

end

/-! ### Schedules -/

variable (M) in
/-- A schedule that meets a condition, with its moments. -/
def chronicleIf (ok : L → Op → χ → σ → Bool) : List (Event χ L) →
    List (Moment Op Res σ) × Conf Op Res σ L α → Option (List (Moment Op Res σ) × Conf Op Res σ L α)
  | [], h => some h
  | .spawn l :: sched, h => if M.admits l h.2 then
      chronicleIf ok sched (h.1, { h.2 with pool := h.2.pool ++ [⟨l, M.code l⟩] }) else none
  | .act i x :: sched, h =>
    match h.2.pool[i]? with
    | some ⟨l, .op o k⟩ =>
      if ok l o x h.2.store then
        match M.exec o x h.2.store with
        | some (r, s) => chronicleIf ok sched
            (⟨i, ⟨o, r⟩, h.2.store, s⟩ :: h.1, ⟨s, h.2.pool.set i ⟨l, k r⟩⟩)
        | none => none
      else none
    | _ => none

lemma Chronicle.record {okb : L → Op → χ → σ → Bool} (hok : ∀ l o x s, okb l o x s → ok l o x s)
    {ms' : List (Moment Op Res σ)} (h : M.Chronicle ok c0 ms c) {sched : List (Event χ L)}
    (hs : M.chronicleIf okb sched (ms, c) = some (ms', c')) : M.Chronicle ok c0 ms' c' := by
  induction sched generalizing c ms with
  | nil => cases hs; exact h
  | cons e sched ih =>
    obtain ⟨s, pool⟩ := c
    cases e with
    | spawn l =>
      simp only [chronicleIf] at hs
      split at hs
      · exact ih (h.spawn l ‹_›) hs
      · cases hs
    | act i x =>
      simp only [chronicleIf] at hs
      split at hs
      · next l o k hi =>
        split at hs
        · next hm =>
          split at hs
          · exact ih (h.act hi (hok _ _ _ _ hm) ‹_›) hs
          · cases hs
        · cases hs
      · cases hs

lemma recordIf_of_chronicleIf {okb : L → Op → χ → σ → Bool} {sched : List (Event χ L)}
    {ms' : List (Moment Op Res σ)} (hs : M.chronicleIf okb sched (ms, c) = some (ms', c')) :
    M.recordIf okb sched (history ms, c) = some (history ms', c') := by
  induction sched generalizing c ms with
  | nil => cases hs; rfl
  | cons e sched ih =>
    cases e with
    | spawn l =>
      simp only [chronicleIf, recordIf] at hs ⊢
      split at hs
      · rw [if_pos ‹_›]
        exact ih hs
      · cases hs
    | act i x =>
      simp only [chronicleIf, recordIf] at hs ⊢
      split at hs
      · next hi =>
        split at hs
        · next hm =>
          split at hs
          · next hx =>
            simp only [hi, if_pos hm, hx]
            exact ih hs
          · cases hs
        · cases hs
      · cases hs

lemma Chronicle.observed {okb : L → Op → χ → σ → Bool} (hok : ∀ l o x s, okb l o x s → ok l o x s)
    {sched : List (Event χ L)} {f : List (Moment Op Res σ) × Conf Op Res σ L α → Bool}
    (hs : (M.chronicleIf okb sched ([], c0)).any f = true) :
    ∃ ms c, M.Chronicle ok c0 ms c ∧ f (ms, c) = true := by
  obtain ⟨⟨ms, c⟩, hrec, hf⟩ := (Option.any_eq_true _ _).mp hs
  exact ⟨ms, c, Chronicle.record hok .start hrec, hf⟩

end System

end Seaplane.Lib
