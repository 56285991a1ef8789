import Mathlib.Data.List.Induction
import Mathlib.Tactic.Common

/-!
YAML trees, and walks that take out mapping entries on the way down.

A place in a tree is a list of steps, into the value of a key or to an element of a sequence. A walk
carries a context along; at each key it decides by the context whether the entry is dropped. What is
at a place afterwards depends on the decisions along that place only.
-/

namespace Seaplane.Lib

/-- A tree. Of a scalar only its text is kept. -/
inductive Yaml where
  | scalar (text : String)
  | sequence (xs : List Yaml)
  | mapping (ms : List (String × Yaml))

namespace Yaml

inductive Step where
  | key (k : String)
  | index (i : ℕ)
  deriving DecidableEq

def child : Yaml → Step → Option Yaml
  | .mapping ms, .key k => ms.lookup k
  | .sequence xs, .index i => xs[i]?
  | _, _ => none

def follow (y : Yaml) : List Step → Option Yaml
  | [] => some y
  | s :: l => (y.child s).bind fun z => z.follow l

inductive Shape where
  | scalar (text : String)
  | sequence
  | mapping
  deriving DecidableEq

def shape : Yaml → Shape
  | .scalar t => .scalar t
  | .sequence _ => .sequence
  | .mapping _ => .mapping

lemma follow_append (y : Yaml) (l m : List Step) :
    y.follow (l ++ m) = (y.follow l).bind fun z => z.follow m := by
  induction l generalizing y with
  | nil => rfl
  | cons s l ih =>
    rw [List.cons_append, follow, follow, Option.bind_assoc]
    exact congrArg _ (funext fun z => ih z)

lemma isSome_follow_of_append {y : Yaml} {l m : List Step} (h : (y.follow (l ++ m)).isSome) :
    (y.follow l).isSome := by
  rw [follow_append] at h
  cases hl : y.follow l with
  | none => simp [hl] at h
  | some z => rfl

/-! ### Contexts along a place -/

section Context

variable {C : Type} (enter : C → String → C)

def within (c : C) : List Step → C
  | [] => c
  | .key k :: l => within (enter c k) l
  | .index _ :: l => within c l

/-- Some key along the place is one of those. -/
def along (p : C → String → Bool) (c : C) : List Step → Bool
  | [] => false
  | .key k :: l => p c k || along p (enter c k) l
  | .index _ :: l => along p c l

variable {enter}

lemma within_append (c : C) (l m : List Step) :
    within enter c (l ++ m) = within enter (within enter c l) m := by
  induction l generalizing c with
  | nil => rfl
  | cons s l ih =>
    cases s with
    | key k => exact ih (enter c k)
    | index i => exact ih c

lemma along_append (p : C → String → Bool) (c : C) (l m : List Step) :
    along enter p c (l ++ m) = (along enter p c l || along enter p (within enter c l) m) := by
  induction l generalizing c with
  | nil => rfl
  | cons s l ih =>
    cases s with
    | key k =>
      rw [List.cons_append, along, along, ih, within, Bool.or_assoc]
    | index i => exact ih c

@[simp] lemma along_key (p : C → String → Bool) (c : C) (l : List Step) (k : String) :
    along enter p c (l ++ [.key k]) = (along enter p c l || p (within enter c l) k) := by
  rw [along_append, along, along, Bool.or_false]

@[simp] lemma along_index (p : C → String → Bool) (c : C) (l : List Step) (i : ℕ) :
    along enter p c (l ++ [.index i]) = along enter p c l := by
  rw [along_append, along, along, Bool.or_false]

end Context

/-! ### Walks -/

section Prune

variable {C : Type} (enter : C → String → C) (drop : C → String → Bool)

mutual

/-- Take out the entries that are dropped, and walk through the values of the others in the context
of their keys. The elements of a sequence are all kept. -/
def prune (c : C) : Yaml → Yaml
  | .scalar t => .scalar t
  | .sequence xs => .sequence (pruneList c xs)
  | .mapping ms => .mapping (pruneMembers c ms)

def pruneList (c : C) : List Yaml → List Yaml
  | [] => []
  | x :: xs => prune c x :: pruneList c xs

def pruneMembers (c : C) : List (String × Yaml) → List (String × Yaml)
  | [] => []
  | (k, v) :: ms =>
    if drop c k then pruneMembers c ms else (k, prune (enter c k) v) :: pruneMembers c ms

end

variable {enter drop}

@[simp] lemma shape_prune (c : C) (y : Yaml) : (prune enter drop c y).shape = y.shape := by
  cases y <;> rfl

lemma getElem?_pruneList (c : C) (xs : List Yaml) (i : ℕ) :
    (pruneList enter drop c xs)[i]? = xs[i]?.map (prune enter drop c) := by
  induction xs generalizing i with
  | nil => rfl
  | cons x xs ih =>
    cases i with
    | zero => rfl
    | succ i => exact ih i

lemma lookup_pruneMembers (c : C) (ms : List (String × Yaml)) (k : String) :
    (pruneMembers enter drop c ms).lookup k =
      if drop c k then none else (ms.lookup k).map (prune enter drop (enter c k)) := by
  induction ms with
  | nil => simp [pruneMembers]
  | cons m ms ih =>
    obtain ⟨l, v⟩ := m
    rw [pruneMembers]
    by_cases hl : k = l
    · subst hl
      by_cases hd : drop c k = true
      · rw [if_pos hd, ih, if_pos hd, if_pos hd]
      · rw [if_neg hd, if_neg hd]
        simp
    · have hbeq : (k == l) = false := beq_false_of_ne hl
      by_cases hd : drop c l = true
      · rw [if_pos hd, ih]
        simp [List.lookup_cons, hbeq]
      · rw [if_neg hd]
        simp only [List.lookup_cons, hbeq]
        exact ih

lemma follow_prune (c : C) (y : Yaml) (l : List Step) :
    (prune enter drop c y).follow l =
      if along enter drop c l then none
      else (y.follow l).map (prune enter drop (within enter c l)) := by
  induction l generalizing c y with
  | nil => rfl
  | cons s l ih =>
    cases s with
    | key k =>
      cases y with
      | scalar t | sequence xs => simp [follow, prune, child]
      | mapping ms =>
        simp only [follow, prune, child, along, within, lookup_pruneMembers]
        by_cases hd : drop c k = true
        · simp [hd]
        · cases hv : ms.lookup k with
          | none => simp [hd]
          | some v => simp [hd, ih]
    | index i =>
      cases y with
      | scalar t | mapping ms => simp [follow, prune, child]
      | sequence xs =>
        simp only [follow, prune, child, along, within, getElem?_pruneList]
        by_cases ha : along enter drop c l = true <;> cases hv : xs[i]? <;> simp [ha, ih]

lemma isSome_follow_prune (c : C) (y : Yaml) (l : List Step) :
    ((prune enter drop c y).follow l).isSome ↔
      along enter drop c l = false ∧ (y.follow l).isSome := by
  rw [follow_prune]
  cases along enter drop c l <;> simp

end Prune

end Yaml

end Seaplane.Lib
