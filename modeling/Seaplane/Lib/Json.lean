import Mathlib.Data.Int.Log
import Mathlib.Data.Rat.Floor
import Mathlib.Tactic.Common

/-!
JSON values.

An object keeps its members in the order of the text, repeated keys included; which of two
members of one key counts is the reader's business. The text `-0` is a value of its own, since a
reader of doubles tells it from `0`. `jsonbEq` is the equality of a store that keeps the last
member of each key, no order and no sign of zero; `goEqual` is the equality of a reader that takes
every number as a double.
-/

namespace Seaplane.Lib

inductive Json where
  | null
  | bool (b : Bool)
  | num (q : ℚ)
  | negZero
  | str (s : String)
  | arr (xs : List Json)
  | obj (ms : List (String × Json))
  deriving Inhabited

namespace Json

mutual

def beq : Json → Json → Bool
  | .null, .null => true
  | .bool a, .bool b => a == b
  | .num p, .num q => p == q
  | .negZero, .negZero => true
  | .str s, .str t => s == t
  | .arr xs, .arr ys => beqList xs ys
  | .obj ms, .obj ns => beqMembers ms ns
  | _, _ => false

def beqList : List Json → List Json → Bool
  | [], [] => true
  | x :: xs, y :: ys => beq x y && beqList xs ys
  | _, _ => false

def beqMembers : List (String × Json) → List (String × Json) → Bool
  | [], [] => true
  | (k, v) :: ms, (l, w) :: ns => k == l && beq v w && beqMembers ms ns
  | _, _ => false

end

mutual

lemma beq_iff : ∀ a b : Json, beq a b = true ↔ a = b
  | .null, b => by cases b <;> simp [beq]
  | .bool _, b => by cases b <;> simp [beq]
  | .num _, b => by cases b <;> simp [beq]
  | .negZero, b => by cases b <;> simp [beq]
  | .str _, b => by cases b <;> simp [beq]
  | .arr xs, b => by cases b <;> simp [beq, beqList_iff xs]
  | .obj ms, b => by cases b <;> simp [beq, beqMembers_iff ms]

lemma beqList_iff : ∀ xs ys : List Json, beqList xs ys = true ↔ xs = ys
  | [], ys => by cases ys <;> simp [beqList]
  | x :: xs, ys => by cases ys <;> simp [beqList, beq_iff x, beqList_iff xs]

lemma beqMembers_iff : ∀ ms ns : List (String × Json), beqMembers ms ns = true ↔ ms = ns
  | [], ns => by cases ns <;> simp [beqMembers]
  | (k, v) :: ms, ns => by
    cases ns with
    | nil => simp [beqMembers]
    | cons n ns => simp [beqMembers, beq_iff v, beqMembers_iff ms, Prod.ext_iff]

end

instance : DecidableEq Json := fun a b => decidable_of_iff _ (beq_iff a b)

def lastMember (k : String) : List (String × Json) → Option Json
  | [] => none
  | (l, v) :: ms => (lastMember k ms).or (if l = k then some v else none)

def get? (k : String) : Json → Option Json
  | .obj ms => lastMember k ms
  | _ => none

mutual

/-- Equality of values: members are compared by key, the last of each key counting. Whether the two
zeros are equal is a parameter. -/
def equiv (zeros : Bool) : Json → Json → Bool
  | .null, .null => true
  | .bool a, .bool b => a == b
  | .num p, .num q => p == q
  | .negZero, .negZero => true
  | .num q, .negZero | .negZero, .num q => zeros && q == 0
  | .str s, .str t => s == t
  | .arr xs, .arr ys => equivList zeros xs ys
  | .obj ms, .obj ns => equivSub zeros ms ns && ns.all fun n => ms.any fun m => m.1 == n.1
  | _, _ => false

def equivList (zeros : Bool) : List Json → List Json → Bool
  | [], [] => true
  | x :: xs, y :: ys => equiv zeros x y && equivList zeros xs ys
  | _, _ => false

def equivSub (zeros : Bool) : List (String × Json) → List (String × Json) → Bool
  | [], _ => true
  | (k, v) :: ms, ns =>
    equivSub zeros ms ns && ((ms.any fun m => m.1 == k) ||
      match lastMember k ns with
      | some w => equiv zeros v w
      | none => false)

end

def jsonbEq (a b : Json) : Bool := equiv true a b

lemma lastMember_append (k : String) (ms ns : List (String × Json)) :
    lastMember k (ms ++ ns) = (lastMember k ns).or (lastMember k ms) := by
  induction ms with
  | nil => simp [lastMember]
  | cons m ms ih => simp [lastMember, ih, Option.or_assoc]

variable {k : String} {ms : List (String × Json)}

lemma lastMember_eq_none (h : (ms.any fun m => m.1 == k) = false) : lastMember k ms = none := by
  induction ms with
  | nil => rfl
  | cons m ms ih =>
    simp only [List.any_cons, Bool.or_eq_false_iff, beq_eq_false_iff_ne] at h
    rw [lastMember, ih h.2, if_neg h.1]
    rfl

mutual

lemma equiv_refl (z : Bool) : ∀ a : Json, a.equiv z a = true
  | .null => by simp [equiv]
  | .bool _ => by simp [equiv]
  | .num _ => by simp [equiv]
  | .negZero => by simp [equiv]
  | .str _ => by simp [equiv]
  | .arr xs => by simp [equiv, equivList_refl z xs]
  | .obj ms => by
    have h := equivSub_append z ms []
    rw [List.nil_append] at h
    simp only [equiv, h, Bool.true_and, List.all_eq_true, List.any_eq_true]
    exact fun m hm => ⟨m, hm, beq_self_eq_true _⟩

lemma equivList_refl (z : Bool) : ∀ xs : List Json, equivList z xs xs = true
  | [] => by simp [equivList]
  | x :: xs => by simp [equivList, equiv_refl z x, equivList_refl z xs]

lemma equivSub_append (z : Bool) : ∀ ms ns : List (String × Json), equivSub z ms (ns ++ ms) = true
  | [], _ => by simp [equivSub]
  | (k, v) :: ms, ns => by
    have h := equivSub_append z ms (ns ++ [(k, v)])
    rw [List.append_assoc, List.singleton_append] at h
    rw [equivSub, h, Bool.true_and]
    cases hk : ms.any fun m => m.1 == k with
    | true => rfl
    | false =>
      -- no later member has the key, so this one counts
      have hlast : lastMember k (ns ++ (k, v) :: ms) = some v := by
        rw [lastMember_append, lastMember, lastMember_eq_none hk, if_pos rfl]
        rfl
      rw [hlast]
      exact equiv_refl z v

end

lemma jsonbEq_refl (a : Json) : a.jsonbEq a = true := equiv_refl true a

lemma lastMember_isSome : (lastMember k ms).isSome = ms.any fun m => m.1 == k := by
  induction ms with
  | nil => rfl
  | cons m ms ih =>
    rw [lastMember, Option.isSome_or, ih, List.any_cons, Bool.or_comm]
    by_cases h : m.1 = k <;> simp [h]

lemma equivSub_lastMember {z : Bool} {ns : List (String × Json)} {v : Json}
    (h : equivSub z ms ns = true) (hv : lastMember k ms = some v) :
    ∃ w, lastMember k ns = some w ∧ v.equiv z w = true := by
  induction ms with
  | nil => cases hv
  | cons m ms ih =>
    obtain ⟨l, u⟩ := m
    simp only [equivSub, Bool.and_eq_true, Bool.or_eq_true] at h
    cases hlast : lastMember k ms with
    | some v' =>
      rw [lastMember, hlast] at hv
      cases hv
      exact ih h.1 hlast
    | none =>
      rw [lastMember, hlast, Option.none_or, Option.ite_none_right_eq_some] at hv
      obtain ⟨rfl, hu⟩ := hv
      cases hu
      -- no later member has the key, so this one was compared
      have hany : (ms.any fun m => m.1 == l) = false := by
        rw [← lastMember_isSome, hlast]
        rfl
      have hcmp := h.2
      rw [hany] at hcmp
      cases hw : lastMember l ns with
      | none => simp [hw] at hcmp
      | some w =>
        rw [hw] at hcmp
        exact ⟨w, rfl, hcmp.resolve_left Bool.false_ne_true⟩

lemma equiv_get? {z : Bool} {ns : List (String × Json)} (k : String)
    (h : (Json.obj ms).equiv z (.obj ns) = true) :
    (lastMember k ms = none ∧ lastMember k ns = none) ∨
      ∃ v w, lastMember k ms = some v ∧ lastMember k ns = some w ∧ v.equiv z w = true := by
  simp only [equiv, Bool.and_eq_true] at h
  cases hv : lastMember k ms with
  | some v =>
    obtain ⟨w, hw, heq⟩ := equivSub_lastMember h.1 hv
    exact .inr ⟨v, w, rfl, hw, heq⟩
  | none =>
    refine .inl ⟨rfl, ?_⟩
    have hnone : (ms.any fun m => m.1 == k) = false := by
      rw [← lastMember_isSome, hv]
      rfl
    refine lastMember_eq_none (List.any_eq_false.mpr fun n hn hk => ?_)
    have hms := List.all_eq_true.mp h.2 n hn
    rw [beq_iff_eq.mp hk, hnone] at hms
    cases hms

/-! ### Numbers read as doubles -/

/-- The nearest integer, ties to even. -/
def roundHalfEven (q : ℚ) : ℤ :=
  let f := ⌊q⌋
  let d := q - f
  if d < 1 / 2 then f else if 1 / 2 < d then f + 1 else if f % 2 = 0 then f else f + 1

/-- The double nearest to a number, or none when it is out of range. -/
def float64 (q : ℚ) : Option ℚ :=
  if q = 0 then some 0
  else
    let ulp : ℚ := 2 ^ max (Int.log 2 |q| - 52) (-1074)
    let r := roundHalfEven (q / ulp) * ulp
    if |r| < 2 ^ 1024 then some r else none

/-- A number read as a double; a negative one may come out as `-0`. -/
def readFloat (q : ℚ) : Option Json :=
  (float64 q).map fun r => if r = 0 ∧ q < 0 then .negZero else .num r

mutual

/-- A value read with every number as a double; none when some number is out of range. What `-0` is
read as is a parameter, since a store without it writes `0`. -/
def toFloats (zero : Json) : Json → Option Json
  | .num q => readFloat q
  | .negZero => some zero
  | .arr xs => (toFloatsList zero xs).map .arr
  | .obj ms => (toFloatsMembers zero ms).map .obj
  | j => some j

def toFloatsList (zero : Json) : List Json → Option (List Json)
  | [] => some []
  | x :: xs => (toFloats zero x).bind fun y => (toFloatsList zero xs).map (y :: ·)

def toFloatsMembers (zero : Json) : List (String × Json) → Option (List (String × Json))
  | [] => some []
  | (k, v) :: ms => (toFloats zero v).bind fun w => (toFloatsMembers zero ms).map ((k, w) :: ·)

end

/-- Equality of a stored value and a text after both are read into untyped values and written out
again. -/
def goEqual (stored given : Json) : Bool :=
  match toFloats (.num 0) stored, toFloats .negZero given with
  | some a, some b => equiv false a b
  | _, _ => false

end Json

end Seaplane.Lib
