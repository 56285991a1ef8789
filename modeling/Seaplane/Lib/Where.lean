import Seaplane.Lib.Json
import Seaplane.Lib.Sql
import Seaplane.Lib.Strconv

/-!
Conditions of WHERE clauses over text and JSONB columns, with numbered placeholders.

Evaluation may fail: a placeholder without an argument of its type, or a text that is cast to a
number and is none. A condition that does not fail is true, false or unknown.
-/

namespace Seaplane.Lib.Where

/-- A value bound to a placeholder; `object` is a document whose members are strings. -/
inductive Arg where
  | text (s : String)
  | object (ms : List (String × String))
  | bigint (n : ℤ)
  deriving DecidableEq

/-- `$i`, counted from 1. -/
def param (args : List Arg) : ℕ → Option Arg
  | 0 => none
  | i + 1 => args[i]?

def textParam (args : List Arg) (i : ℕ) : Option String :=
  match param args i with
  | some (.text s) => some s
  | _ => none

def objectParam (args : List Arg) (i : ℕ) : Option (List (String × String)) :=
  match param args i with
  | some (.object ms) => some ms
  | _ => none

/-- The placeholders from `$i` on are bound to the values. -/
def Bound (args : List Arg) (i : ℕ) (as : List Arg) : Prop :=
  ∀ j (h : j < as.length), param args (i + j) = some as[j]

lemma bound_of_append (before as after : List Arg) :
    Bound (before ++ as ++ after) (before.length + 1) as := by
  intro j hj
  rw [show before.length + 1 + j = before.length + j + 1 by omega, param, List.append_assoc,
    List.getElem?_append_right (by omega), List.getElem?_append_left (by omega),
    show before.length + j - before.length = j by omega]
  exact List.getElem?_eq_getElem hj

variable {as : List Arg} {cs : List Char}

variable {args : List Arg}

lemma bound_append {bs : List Arg} {i : ℕ} :
    Bound args i (as ++ bs) ↔ Bound args i as ∧ Bound args (i + as.length) bs := by
  constructor
  · intro h
    refine ⟨fun j hj => ?_, fun j hj => ?_⟩
    · have hj' := h j (by rw [List.length_append]; omega)
      rwa [List.getElem_append_left hj] at hj'
    · have hj' := h (as.length + j) (by rw [List.length_append]; omega)
      rw [List.getElem_append_right (by omega)] at hj'
      simpa [Nat.add_assoc] using hj'
  · rintro ⟨has, hbs⟩ j hj
    rw [List.length_append] at hj
    by_cases hlt : j < as.length
    · rw [List.getElem_append_left hlt]
      exact has j hlt
    · have hj' := hbs (j - as.length) (by omega)
      rw [show i + as.length + (j - as.length) = i + j by omega] at hj'
      rw [List.getElem_append_right (by omega)]
      exact hj'

lemma bound_cons {a : Arg} {i : ℕ} :
    Bound args i (a :: as) ↔ param args i = some a ∧ Bound args (i + 1) as := by
  rw [← List.singleton_append, bound_append]
  refine and_congr_left fun _ => ⟨fun h => h 0 (by simp), fun h j hj => ?_⟩
  obtain rfl : j = 0 := by simpa using hj
  exact h

lemma textParam_of_bound {s : String} {i : ℕ} (h : Bound args i (.text s :: as)) :
    textParam args i = some s := by
  rw [textParam, (bound_cons.mp h).1]

/-- The pattern `^[+-]?[0-9]+$`. -/
def signedDigits : List Char → Bool
  | '+' :: cs | '-' :: cs => (parseDigits cs).isSome
  | cs => (parseDigits cs).isSome

/-- The input function of `bigint`. What it makes of other texts than signed decimals is open. -/
structure BigintInput where
  read : List Char → Option ℤ
  decimal : ∀ cs, signedDigits cs → read cs = parseInt64 cs

lemma signedDigits_of_parseInt64 {n : ℤ} (h : parseInt64 cs = some n) : signedDigits cs := by
  have digits : ∀ {ds : List Char}, (parseDigits ds = none → False) → (parseDigits ds).isSome := by
    intro ds hds
    exact Option.isSome_iff_ne_none.mpr hds
  unfold parseInt64 at h
  split at h
  · refine digits fun hd => ?_
    rw [hd] at h
    cases h
  · refine digits fun hd => ?_
    rw [hd] at h
    cases h
  · next hminus hplus =>
    unfold signedDigits
    split
    · next ds => exact absurd rfl (hplus ds)
    · next ds => exact absurd rfl (hminus ds)
    refine digits fun hd => ?_
    rw [hd] at h
    cases h

lemma BigintInput.read_of_parseInt64 (pg : BigintInput) {n : ℤ} (h : parseInt64 cs = some n) :
    pg.read cs = some n := by
  rw [pg.decimal cs (signedDigits_of_parseInt64 h), h]

lemma BigintInput.tests_iff (pg : BigintInput) :
    (signedDigits cs ∧ (pg.read cs).isSome) ↔ (parseInt64 cs).isSome := by
  constructor
  · rintro ⟨hs, hr⟩
    rwa [pg.decimal cs hs] at hr
  · intro h
    obtain ⟨n, hn⟩ := Option.isSome_iff_exists.mp h
    exact ⟨signedDigits_of_parseInt64 hn, Option.isSome_of_eq_some (pg.read_of_parseInt64 hn)⟩

/-- A JSONB value: a column, or a member of one. -/
inductive JsonExpr (C : Type) where
  | column (c : C)
  | field (e : JsonExpr C) (name : String)

/-- A text: a column, or a member of a JSONB value, its name given or bound. -/
inductive TextExpr (C D : Type) where
  | column (d : D)
  | field (e : JsonExpr C) (name : String)
  | fieldAt (e : JsonExpr C) (i : ℕ)

inductive Cond (C D : Type) where
  | true
  | false
  | eq (a : TextExpr C D) (i : ℕ)
  | ne (a : TextExpr C D) (i : ℕ)
  | contains (e : JsonExpr C) (i : ℕ)
  | hasKey (e : JsonExpr C) (i : ℕ)
  | isSignedDigits (a : TextExpr C D)
  | isBigint (a : TextExpr C D)
  | lt (a : TextExpr C D) (i : ℕ)
  | gt (a : TextExpr C D) (i : ℕ)
  | and (c d : Cond C D)
  | or (c d : Cond C D)
  | notCoalesce (c : Cond C D)
  | caseWhen (c t : Cond C D)

def Cond.joinOr {C D : Type} (c : Cond C D) (cs : List (Cond C D)) : Cond C D := cs.foldl .or c

/-- A row: its JSONB and its text columns, and how other values than strings are written as text. -/
structure View (C D : Type) where
  json : C → Json
  text : D → String
  render : Json → String
  bigint : BigintInput

section Eval

variable {C D : Type} (v : View C D) (args : List Arg)

def JsonExpr.eval : JsonExpr C → Option Json
  | .column c => some (v.json c)
  | .field e name => e.eval.bind (·.get? name)

/-- A JSONB value as text; null is NULL. -/
def asText : Json → Option String
  | .null => none
  | .str s => some s
  | j => some (v.render j)

/-- The outer option is failure, the inner one NULL. -/
def TextExpr.eval : TextExpr C D → Option (Option String)
  | .column d => some (some (v.text d))
  | .field e name => some ((e.eval v).bind fun j => (j.get? name).bind (asText v))
  | .fieldAt e i => do
    let name ← textParam args i
    return (e.eval v).bind fun j => (j.get? name).bind (asText v)

def containsMembers (ms : List (String × String)) (j : Json) : Bool :=
  (j matches .obj _) && ms.all fun m => j.get? m.1 == some (.str m.2)

/-- The text is a key of the object, an element of the array or the string itself. -/
def hasTopLevel (key : String) : Json → Bool
  | .obj ms => ms.any (·.1 == key)
  | .arr xs => xs.any (· == .str key)
  | .str s => s == key
  | _ => false

def compareBigint (p : ℤ → ℤ → Bool) (a : Option String) (b : String) : Option Truth := do
  let n ← v.bigint.read b.toList
  match a with
  | none => return none
  | some a =>
    let m ← v.bigint.read a.toList
    return some (p m n)

@[simp] def Cond.eval : Cond C D → Option Truth
  | .true => some (some Bool.true)
  | .false => some (some Bool.false)
  | .eq a i => do
    let s ← textParam args i
    return Truth.cmp (← a.eval v args) (· == s)
  | .ne a i => do
    let s ← textParam args i
    return Truth.cmp (← a.eval v args) (· != s)
  | .contains e i => do return Truth.cmp (e.eval v) (containsMembers (← objectParam args i))
  | .hasKey e i => do return Truth.cmp (e.eval v) (hasTopLevel (← textParam args i))
  | .isSignedDigits a => do return Truth.cmp (← a.eval v args) (signedDigits ·.toList)
  | .isBigint a => do return Truth.cmp (← a.eval v args) fun s => (v.bigint.read s.toList).isSome
  | .lt a i => do compareBigint v (· < ·) (← a.eval v args) (← textParam args i)
  | .gt a i => do compareBigint v (· > ·) (← a.eval v args) (← textParam args i)
  | .and c d => do return Truth.and (← c.eval) (← d.eval)
  | .or c d => do return Truth.or (← c.eval) (← d.eval)
  | .notCoalesce c => do return Truth.not (Truth.orFalse (← c.eval))
  -- the branch is evaluated only where the test holds
  | .caseWhen c t => do
    let b ← c.eval
    if b = some Bool.true then t.eval else return some Bool.false

/-- The condition is evaluated without failure and selects the row if and only if `P` holds. -/
def Cond.Means (c : Cond C D) (P : Prop) : Prop := ∃ t, c.eval v args = some t ∧ (t.holds ↔ P)

def Cond.Holds (c : Cond C D) : Prop := c.eval v args = some (some Bool.true)

variable {v args}

variable {c : Cond C D} {P Q : Prop}

lemma Cond.Means.holds_iff (h : c.Means v args P) : c.Holds v args ↔ P := by
  obtain ⟨t, ht, hP⟩ := h
  rw [Cond.Holds, ht, ← hP]
  simp [Truth.holds]

lemma Cond.Means.or {d : Cond C D} (hc : c.Means v args P) (hd : d.Means v args Q) :
    (Cond.or c d).Means v args (P ∨ Q) := by
  obtain ⟨s, hs, hP⟩ := hc
  obtain ⟨t, ht, hQ⟩ := hd
  refine ⟨Truth.or s t, by rw [Cond.eval, hs, ht]; rfl, ?_⟩
  rw [Truth.holds_or, Bool.or_eq_true, hP, hQ]

lemma means_joinOr {α : Type} {f : α → Cond C D} {P : α → Prop} {xs : List α}
    (hc : c.Means v args Q) (h : ∀ x ∈ xs, (f x).Means v args (P x)) :
    (c.joinOr (xs.map f)).Means v args (Q ∨ ∃ x ∈ xs, P x) := by
  induction xs generalizing c Q with
  | nil => simpa [Cond.joinOr] using hc
  | cons x xs ih =>
    have hx := hc.or (h x List.mem_cons_self)
    have hrest := ih hx fun y hy => h y (List.mem_cons_of_mem x hy)
    have hiff : (Q ∨ ∃ y ∈ x :: xs, P y) ↔ (Q ∨ P x) ∨ ∃ y ∈ xs, P y := by
      simp only [List.mem_cons, exists_eq_or_imp, or_assoc]
    obtain ⟨t, ht, hQ⟩ := hrest
    exact ⟨t, ht, hQ.trans hiff.symm⟩

lemma Cond.Means.notCoalesce (h : c.Means v args P) : (Cond.notCoalesce c).Means v args (¬P) := by
  obtain ⟨t, ht, hP⟩ := h
  refine ⟨Truth.not (Truth.orFalse t), by rw [Cond.eval, ht]; rfl, ?_⟩
  rw [Truth.holds_not_orFalse, ← hP]
  simp

lemma Cond.Means.and {d : Cond C D} (hc : c.Means v args P) (hd : d.Means v args Q) :
    (Cond.and c d).Means v args (P ∧ Q) := by
  obtain ⟨s, hs, hP⟩ := hc
  obtain ⟨t, ht, hQ⟩ := hd
  refine ⟨Truth.and s t, by rw [Cond.eval, hs, ht]; rfl, ?_⟩
  rw [Truth.holds_and, Bool.and_eq_true, hP, hQ]

lemma Cond.Means.caseWhen {t : Cond C D} (hc : c.Means v args P) (ht : P → t.Means v args Q) :
    (Cond.caseWhen c t).Means v args (P ∧ Q) := by
  obtain ⟨s, hs, hP⟩ := hc
  by_cases hp : P
  · have htrue : s = some Bool.true := by simpa [Truth.holds] using hP.mpr hp
    obtain ⟨u, hu, hQ⟩ := ht hp
    refine ⟨u, ?_, by rw [hQ, and_iff_right hp]⟩
    rw [Cond.eval, hs, htrue]
    exact hu
  · have hfalse : s ≠ some Bool.true := fun h => hp (hP.mp (by simp [Truth.holds, h]))
    refine ⟨some Bool.false, ?_, by simp [Truth.holds, hp]⟩
    rw [Cond.eval, hs]
    exact if_neg hfalse

lemma means_isSignedDigits {a : TextExpr C D} {x : Option String} (h : a.eval v args = some x) :
    (Cond.isSignedDigits a).Means v args (x.any fun s => signedDigits s.toList) := by
  refine ⟨_, by rw [Cond.eval, h]; rfl, ?_⟩
  rw [Truth.holds_cmp]

lemma means_isBigint {a : TextExpr C D} {x : Option String} (h : a.eval v args = some x) :
    (Cond.isBigint a).Means v args (x.any fun s => (v.bigint.read s.toList).isSome) := by
  refine ⟨_, by rw [Cond.eval, h]; rfl, ?_⟩
  rw [Truth.holds_cmp]

section Numbers

variable {a : TextExpr C D} {i : ℕ} {s u : String} {n b : ℤ}

variable (ha : a.eval v args = some (some s)) (hi : textParam args i = some u)
  (hn : v.bigint.read s.toList = some n) (hb : v.bigint.read u.toList = some b)

include hn hb in
lemma compareBigint_eq (p : ℤ → ℤ → Bool) :
    compareBigint v p (some s) u = some (some (p n b)) := by
  simp [compareBigint, hn, hb]

include ha hi hn hb

lemma means_lt : (Cond.lt a i).Means v args (n < b) := by
  refine ⟨some (decide (n < b)), ?_, by simp [Truth.holds]⟩
  rw [Cond.eval, ha, hi]
  exact compareBigint_eq hn hb (· < ·)

lemma means_gt : (Cond.gt a i).Means v args (n > b) := by
  refine ⟨some (decide (n > b)), ?_, by simp [Truth.holds]⟩
  rw [Cond.eval, ha, hi]
  exact compareBigint_eq hn hb (· > ·)

end Numbers

lemma Cond.Means.congr (h : c.Means v args P) (hPQ : P ↔ Q) : c.Means v args Q := by
  obtain ⟨t, ht, hP⟩ := h
  exact ⟨t, ht, hP.trans hPQ⟩

end Eval

end Seaplane.Lib.Where
