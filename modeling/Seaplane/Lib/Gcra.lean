import Mathlib.Algebra.Order.Ring.Int
import Mathlib.Tactic.Linarith

/-!
The generic cell rate algorithm.

One number is kept: the theoretical arrival time of the next event, absent when there was none. An
event conforms when it does not come earlier than the tolerance allows, `burst` events at once and
then one for each interval; a conforming event moves the arrival time by one interval.
-/

namespace Seaplane.Lib

/-- The interval between two events, and how many may come at once. -/
structure Gcra where
  interval : ℤ
  burst : ℤ

namespace Gcra

/-- The theoretical arrival time of an event at `now`: never in the past. -/
def arrival (now : ℤ) : Option ℤ → ℤ
  | none => now
  | some tat => max now tat

/-- How long an event at `now` is after the earliest time it is allowed; negative if before. -/
def slack (g : Gcra) (now : ℤ) (tat : Option ℤ) : ℤ :=
  now - (arrival now tat + g.interval - g.interval * g.burst)

def Conforms (g : Gcra) (now : ℤ) (tat : Option ℤ) : Prop := 0 ≤ g.slack now tat

instance (g : Gcra) (now : ℤ) (tat : Option ℤ) : Decidable (g.Conforms now tat) :=
  inferInstanceAs (Decidable (_ ≤ _))

def next (g : Gcra) (now : ℤ) (tat : Option ℤ) : Option ℤ :=
  if g.Conforms now tat then some (arrival now tat + g.interval) else tat

variable {g : Gcra} {now t : ℤ} {tat : Option ℤ}

lemma le_arrival (now : ℤ) (tat : Option ℤ) : now ≤ arrival now tat := by
  cases tat with
  | none => exact le_rfl
  | some a => exact le_max_left _ _

@[simp] lemma arrival_some (now a : ℤ) : arrival now (some a) = max now a := rfl

lemma arrival_mono (tat : Option ℤ) (h : t ≤ now) : arrival t tat ≤ arrival now tat := by
  cases tat with
  | none => exact h
  | some a => exact max_le_max h le_rfl

lemma conforms_iff : g.Conforms now tat ↔
    arrival now tat + g.interval ≤ now + g.interval * g.burst := by
  unfold Conforms slack
  constructor <;> intro h <;> linarith

/-! ### The rate -/

/-- Since `t` there were `n` events that count, the last of them no later than `t + T`. -/
structure Counted (g : Gcra) (t T : ℤ) (n : ℕ) (tat : Option ℤ) : Prop where
  moved : t + n * g.interval ≤ arrival t tat
  bound : n * g.interval ≤ T + g.interval * g.burst

variable {T : ℤ} {n : ℕ}

lemma counted_zero (h : 0 ≤ g.interval) (hb : 0 ≤ g.burst) (hT : 0 ≤ T) : g.Counted t T 0 tat := by
  have hmul : 0 ≤ g.interval * g.burst := mul_nonneg h hb
  refine ⟨?_, ?_⟩
  · simpa using le_arrival t tat
  · simpa using add_nonneg hT hmul

lemma Counted.event (h : g.Counted t T n tat) (hc : g.Conforms now tat) (h1 : t ≤ now)
    (h2 : now ≤ t + T) : g.Counted t T (n + 1) (g.next now tat) := by
  have hmove : t + n * g.interval ≤ arrival now tat := h.moved.trans (arrival_mono tat h1)
  have hle : arrival now tat + g.interval ≤ now + g.interval * g.burst := conforms_iff.mp hc
  refine ⟨?_, ?_⟩
  · rw [next, if_pos hc, arrival_some]
    refine le_trans ?_ (le_max_right _ _)
    push_cast
    linarith
  · push_cast
    linarith

lemma Counted.skip (h : g.Counted t T n tat) (hi : 0 ≤ g.interval) :
    g.Counted t T n (g.next now tat) := by
  unfold next
  split
  · refine ⟨h.moved.trans ?_, h.bound⟩
    rw [arrival_some]
    cases tat with
    | none => exact le_max_left _ _
    | some a =>
      have ha : a ≤ arrival now (some a) := le_max_right _ _
      exact max_le_max le_rfl (by linarith)
  · exact h

lemma Counted.le (h : g.Counted t T n tat) (hi : 0 < g.interval) :
    (n : ℤ) ≤ g.burst + T / g.interval := by
  have hle : n * g.interval ≤ (g.burst + T / g.interval + 1) * g.interval - 1 := by
    have hdiv := Int.lt_ediv_add_one_mul_self T hi
    have hb := h.bound
    linarith
  by_contra hlt
  have hge : g.burst + T / g.interval + 1 ≤ (n : ℤ) := by omega
  have := mul_le_mul_of_nonneg_right hge hi.le
  linarith

/-! ### Events at one instant -/

lemma slack_next (hc : g.Conforms now tat) (hi : 0 ≤ g.interval) :
    g.slack now (g.next now tat) = g.slack now tat - g.interval := by
  have hle : now ≤ arrival now tat + g.interval := by
    have := le_arrival now tat
    linarith
  rw [next, if_pos hc, slack, slack, arrival_some, max_eq_right hle]
  linarith

/-- How many events conform at the same instant. -/
def room (g : Gcra) (now : ℤ) (tat : Option ℤ) : ℕ :=
  ((g.slack now tat + g.interval) / g.interval).toNat

lemma room_next (hc : g.Conforms now tat) (hi : 0 < g.interval) :
    g.room now tat = g.room now (g.next now tat) + 1 := by
  have hslack : 0 ≤ g.slack now tat := hc
  have hdiv : (g.slack now tat + g.interval) / g.interval = g.slack now tat / g.interval + 1 :=
    Int.add_ediv_of_dvd_right dvd_rfl |>.trans (by rw [Int.ediv_self hi.ne'])
  have hnonneg : 0 ≤ g.slack now tat / g.interval := Int.ediv_nonneg hslack hi.le
  unfold room
  rw [slack_next hc hi.le, sub_add_cancel, hdiv]
  omega

lemma room_eq_zero (hc : ¬g.Conforms now tat) (hi : 0 < g.interval) : g.room now tat = 0 := by
  have hslack : g.slack now tat < 0 := not_le.mp hc
  have hdiv : (g.slack now tat + g.interval) / g.interval < 1 :=
    Int.ediv_lt_of_lt_mul hi (by linarith)
  unfold room
  omega

lemma room_after (hc : g.Conforms now tat) (hi : 0 < g.interval) :
    (g.room now (g.next now tat) : ℤ) = g.slack now tat / g.interval := by
  have hslack : 0 ≤ g.slack now tat := hc
  unfold room
  rw [slack_next hc hi.le, sub_add_cancel, Int.toNat_of_nonneg (Int.ediv_nonneg hslack hi.le)]

lemma slack_le : g.slack now tat ≤ g.interval * (g.burst - 1) := by
  have := le_arrival now tat
  unfold slack
  linarith

/-! ### An event that was turned away -/

lemma conforms_later (hi : 0 ≤ g.interval) (hb : 1 ≤ g.burst) (hd : ¬g.Conforms now tat) (t : ℤ) :
    g.Conforms t tat ↔ now - g.slack now tat ≤ t := by
  have hone : g.interval ≤ g.interval * g.burst := le_mul_of_one_le_right hi hb
  have hgt : now + g.interval * g.burst < arrival now tat + g.interval :=
    not_le.mp fun hle => hd (conforms_iff.mpr hle)
  rw [conforms_iff, slack]
  cases tat with
  | none =>
    have : arrival now none = now := rfl
    linarith
  | some a =>
    have ha : arrival now (some a) = a := by
      rcases le_total now a with hle | hle
      · exact max_eq_right hle
      · rw [arrival_some, max_eq_left hle] at hgt
        linarith
    rw [ha] at hgt ⊢
    rw [arrival_some]
    rcases le_total t a with hle | hle
    · rw [max_eq_right hle]
      constructor <;> intro h' <;> linarith
    · rw [max_eq_left hle]
      constructor <;> intro _ <;> linarith

/-! ### What may be forgotten -/

/-- From `now` on there is no difference between the two. -/
def Alike (now : ℤ) (tat tat' : Option ℤ) : Prop := ∀ t, now ≤ t → arrival t tat = arrival t tat'

lemma Alike.later {tat' : Option ℤ} (h : Alike now tat tat') (ht : now ≤ t) : Alike t tat tat' :=
  fun u hu => h u (ht.trans hu)

lemma alike_none {a : ℤ} (h : a < now) : Alike now (some a) none := by
  intro t ht
  rw [arrival_some, max_eq_left (by linarith)]
  rfl

end Gcra

end Seaplane.Lib
