import Mathlib.Algebra.Order.Ring.Int
import Seaplane.Lib.Fallible

/-!
Arithmetic on 64-bit integers.

An operation is computed on unbounded integers, and an `Arith` says what becomes of its result. The
machine keeps it modulo `2 ^ 64`, or, for the difference of two times, at the nearest end of the
range. The checked arithmetic stops where the machine would lose something. Code written over an
`Arith` runs on all of them, and what the checked one computes the others compute too.
-/

namespace Seaplane.Lib.Machine

inductive Fault where
  | divideByZero
  | overflow
  deriving DecidableEq

/-- The values of an `int64`. -/
def InRange (x : ℤ) : Prop := -2 ^ 63 ≤ x ∧ x < 2 ^ 63

instance (x : ℤ) : Decidable (InRange x) := inferInstanceAs (Decidable (_ ∧ _))

/-- The value of an `int64` that is `x` modulo `2 ^ 64`. -/
def wrap (x : ℤ) : ℤ := (x + 2 ^ 63) % 2 ^ 64 - 2 ^ 63

/-- The value of an `int64` that is nearest to `x`. -/
def saturate (x : ℤ) : ℤ := max (-2 ^ 63) (min x (2 ^ 63 - 1))

lemma wrap_of_inRange {x : ℤ} (h : InRange x) : wrap x = x := by
  unfold InRange at h
  unfold wrap
  omega

lemma saturate_of_inRange {x : ℤ} (h : InRange x) : saturate x = x := by
  unfold InRange at h
  unfold saturate
  omega

/-- What becomes of the result of an operation on integers, and of the difference of two times. -/
structure Arith where
  int : ℤ → Except Fault ℤ
  span : ℤ → Except Fault ℤ

def go : Arith := ⟨fun x => .ok (wrap x), fun x => .ok (saturate x)⟩

/-- The machine, stopped where it would lose something. -/
def checked : Arith where
  int x := if InRange x then .ok x else .error .overflow
  span x := if InRange x then .ok x else .error .overflow

def unbounded : Arith := ⟨.ok, .ok⟩

namespace Arith

/-- A quotient, rounded towards zero. -/
def quot (A : Arith) (x y : ℤ) : Except Fault ℤ :=
  if y = 0 then .error .divideByZero else A.int (x.tdiv y)

/-- What `A` computes `B` computes as well. -/
structure Within (A B : Arith) : Prop where
  int : ∀ {x v}, A.int x = .ok v → B.int x = .ok v
  span : ∀ {x v}, A.span x = .ok v → B.span x = .ok v

variable {A B : Arith} {x y v : ℤ}

lemma Within.quot (h : A.Within B) (hv : A.quot x y = .ok v) : B.quot x y = .ok v := by
  unfold Arith.quot at hv ⊢
  split at hv
  · cases hv
  · next hy =>
    rw [if_neg hy]
    exact h.int hv

end Arith

section Checked

variable {x y v : ℤ}

@[simp] lemma checked_int_eq : checked.int x = .ok v ↔ InRange x ∧ v = x := by
  unfold checked
  dsimp only
  split
  · next h => simp [h, eq_comm]
  · next h => simp [h]

@[simp] lemma checked_span_eq : checked.span x = .ok v ↔ InRange x ∧ v = x := checked_int_eq

@[simp] lemma checked_quot_eq :
    checked.quot x y = .ok v ↔ y ≠ 0 ∧ InRange (x.tdiv y) ∧ v = x.tdiv y := by
  unfold Arith.quot
  split
  · next h => simp [h]
  · next h => simp [h]

lemma checked_within_go : checked.Within go where
  int h := by
    obtain ⟨hx, rfl⟩ := checked_int_eq.mp h
    exact congrArg Except.ok (wrap_of_inRange hx)
  span h := by
    obtain ⟨hx, rfl⟩ := checked_span_eq.mp h
    exact congrArg Except.ok (saturate_of_inRange hx)

lemma checked_within_unbounded : checked.Within unbounded where
  int h := congrArg Except.ok (checked_int_eq.mp h).2.symm
  span h := congrArg Except.ok (checked_span_eq.mp h).2.symm

lemma InRange.tdiv (hx : InRange x) (h0 : 0 ≤ x) (hy : 0 ≤ y) : InRange (x.tdiv y) := by
  have habs := Int.natAbs_tdiv_le_natAbs x y
  have hnonneg := Int.tdiv_nonneg h0 hy
  obtain ⟨hlo, hhi⟩ := hx
  exact ⟨by omega, by omega⟩

end Checked

end Seaplane.Lib.Machine
