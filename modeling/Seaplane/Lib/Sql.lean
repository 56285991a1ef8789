import Mathlib.Tactic.Common

/-!
The three-valued logic of SQL conditions: a comparison with NULL is neither true nor false, and
a WHERE clause selects the rows on which its condition is true.
-/

namespace Seaplane.Lib

/-- A truth value; `none` is unknown. -/
abbrev Truth := Option Bool

namespace Truth

def or : Truth → Truth → Truth
  | some true, _ => some true
  | _, some true => some true
  | some false, some false => some false
  | _, _ => none

def and : Truth → Truth → Truth
  | some false, _ => some false
  | _, some false => some false
  | some true, some true => some true
  | _, _ => none

def not (t : Truth) : Truth := t.map (!·)

/-- `COALESCE(t, FALSE)`. -/
def orFalse (t : Truth) : Truth := some (t.getD false)

/-- A comparison, unknown when its left side is NULL. -/
def cmp {α : Type} (a : Option α) (p : α → Bool) : Truth := a.map p

def isNull {α : Type} (a : Option α) : Truth := some a.isNone

def isNotNull {α : Type} (a : Option α) : Truth := some a.isSome

def holds (t : Truth) : Bool := t == some true

@[simp] lemma holds_or (a b : Truth) : (or a b).holds = (a.holds || b.holds) := by
  rcases a with _ | _ | _ <;> rcases b with _ | _ | _ <;> rfl

@[simp] lemma holds_and (a b : Truth) : (and a b).holds = (a.holds && b.holds) := by
  rcases a with _ | _ | _ <;> rcases b with _ | _ | _ <;> rfl

@[simp] lemma holds_not_orFalse (t : Truth) : (not (orFalse t)).holds = !t.holds := by
  rcases t with _ | _ | _ <;> rfl

@[simp] lemma holds_isNull {α : Type} (a : Option α) : (isNull a).holds = a.isNone := by
  cases a <;> rfl

@[simp] lemma holds_isNotNull {α : Type} (a : Option α) : (isNotNull a).holds = a.isSome := by
  cases a <;> rfl

@[simp] lemma holds_cmp {α : Type} (a : Option α) (p : α → Bool) : (cmp a p).holds = a.any p := by
  cases a with
  | none => rfl
  | some a => cases h : p a <;> simp [cmp, holds, h]

end Truth

end Seaplane.Lib
