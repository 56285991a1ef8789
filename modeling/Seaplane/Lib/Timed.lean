import Mathlib.Data.Int.Notation
import Mathlib.Data.List.Basic

/-!
Machines whose events happen at times, and Go's timer.

A run records its events with the time of each; the clock never goes back. A timer goes off by
itself, so every operation on it first looks at the clock. Its channel has one slot, and what is in
it stays there until it is received: `Stop` and `Reset` alone leave it.
-/

namespace Seaplane.Lib.Timed

section Machine

variable {S E : Type}

def clock (t0 : ℤ) : List (ℤ × E) → ℤ
  | [] => t0
  | (t, _) :: _ => t

/-- A run from `s0` at time `t0`, with its events, the latest first. -/
inductive Run (step : ℤ → E → S → Option S) (s0 : S) (t0 : ℤ) : List (ℤ × E) → S → Prop where
  | start : Run step s0 t0 [] s0
  | event {es : List (ℤ × E)} {s s' : S} {t : ℤ} {e : E} (h : Run step s0 t0 es s)
      (ht : clock t0 es ≤ t) (hs : step t e s = some s') : Run step s0 t0 ((t, e) :: es) s'

variable {step : ℤ → E → S → Option S} {s0 s : S} {t0 : ℤ} {es : List (ℤ × E)}

lemma Run.invariant (I : List (ℤ × E) → S → Prop) (h0 : I [] s0)
    (hstep : ∀ es s t e s', I es s → clock t0 es ≤ t → step t e s = some s' → I ((t, e) :: es) s')
    (h : Run step s0 t0 es s) : I es s := by
  induction h with
  | start => exact h0
  | event _ ht hs ih => exact hstep _ _ _ _ _ ih ht hs

lemma Run.le_clock (h : Run step s0 t0 es s) : ∀ x ∈ es, x.1 ≤ clock t0 es := by
  induction h with
  | start => simp
  | event _ ht _ ih =>
    refine List.forall_mem_cons.mpr ⟨Int.le_refl _, fun x hx => ?_⟩
    exact Int.le_trans (ih x hx) ht

/-- The run with the given events, the latest first, if there is one. -/
def replay (step : ℤ → E → S → Option S) (s0 : S) (t0 : ℤ) : List (ℤ × E) → Option S
  | [] => some s0
  | (t, e) :: es =>
    if clock t0 es ≤ t then (replay step s0 t0 es).bind (step t e) else none

lemma run_of_replay (h : replay step s0 t0 es = some s) : Run step s0 t0 es s := by
  induction es generalizing s with
  | nil =>
    cases h
    exact .start
  | cons x es ih =>
    obtain ⟨t, e⟩ := x
    rw [replay] at h
    split at h
    · next ht =>
      obtain ⟨s1, hs1, hs⟩ := Option.bind_eq_some_iff.mp h
      exact .event (ih hs1) ht hs
    · cases h

end Machine

/-! ### The timer -/

structure Timer where
  /-- The time at which it goes off. -/
  armed : Option ℤ
  /-- The slot of its channel: the time at which it went off. -/
  chan : Option ℤ
  deriving DecidableEq

namespace Timer

def elapse (now : ℤ) (t : Timer) : Timer :=
  match t.armed with
  | some due => if due ≤ now then ⟨none, some (t.chan.getD due)⟩ else t
  | none => t

/-- `time.NewTimer`. -/
def new (now d : ℤ) : Timer := ⟨some (now + d), none⟩

/-- `Stop`, with its answer: whether the timer was still to go off. -/
def stop (t : Timer) : Bool × Timer := (t.armed.isSome, { t with armed := none })

def drain (t : Timer) : Timer := { t with chan := none }

def reset (now d : ℤ) (t : Timer) : Timer := { t with armed := some (now + d) }

/-- The timer is stopped, its channel emptied if it had gone off already, and set again. -/
def restart (now d : ℤ) (t : Timer) : Timer :=
  let (active, stopped) := (t.elapse now).stop
  (if active then stopped else stopped.drain).reset now d

/-- A timer that nothing was received from before is set as a new one, whether or not it has gone
off meanwhile. -/
lemma restart_eq {t : Timer} (h : t.armed = none ∨ t.chan = none) (now d : ℤ) :
    t.restart now d = new now d := by
  obtain ⟨armed, chan⟩ := t
  unfold restart elapse stop drain reset new
  cases armed with
  | none => rfl
  | some due =>
    have hchan : chan = none := by simpa using h
    by_cases hdue : due ≤ now <;> simp [hdue, hchan]

end Timer

end Seaplane.Lib.Timed
