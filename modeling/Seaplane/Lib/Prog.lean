import Mathlib.Logic.Relation
import Mathlib.Tactic.Common

/-!
Straight-line programs over atomic operations on a shared store, and their interleavings.

A program is a tree of operations: each node performs one operation and goes on with its
answer. A pool runs any number of programs at once; a step either admits a new program or lets
one program of the pool perform its next operation. What an operation may do beside its
arguments (a clock, a random value, a failure) is a choice the environment makes.
-/

namespace Seaplane.Lib

/-- A program over the operations `Op`, whose answers have the types `Res`. -/
inductive Prog (Op : Type) (Res : Op → Type) (α : Type) where
  | ret (a : α)
  | op (o : Op) (k : Res o → Prog Op Res α)

namespace Prog

variable {Op : Type} {Res : Op → Type} {α β : Type}

/-- Sequencing: the second program goes on where the first returns. -/
def bind : Prog Op Res α → (α → Prog Op Res β) → Prog Op Res β
  | .ret a, f => f a
  | .op o k, f => .op o fun r => (k r).bind f

instance : Monad (Prog Op Res) where
  pure := .ret
  bind := .bind

/-- Perform one operation and return its answer. -/
def call (o : Op) : Prog Op Res (Res o) := .op o .ret

@[simp] lemma pure_eq (a : α) : (pure a : Prog Op Res α) = .ret a := rfl
@[simp] lemma bind_eq (p : Prog Op Res α) (f : α → Prog Op Res β) : p >>= f = p.bind f := rfl
@[simp] lemma ret_bind (a : α) (f : α → Prog Op Res β) :
    (Prog.ret a : Prog Op Res α).bind f = f a := rfl
@[simp] lemma op_bind (o : Op) (k : Res o → Prog Op Res α) (f : α → Prog Op Res β) :
    (Prog.op o k).bind f = .op o fun r => (k r).bind f := rfl
@[simp] lemma call_bind (o : Op) (f : Res o → Prog Op Res β) :
    (call o : Prog Op Res (Res o)).bind f = .op o f := rfl

lemma bind_assoc {γ : Type} (p : Prog Op Res α) (f : α → Prog Op Res β)
    (g : β → Prog Op Res γ) : (p.bind f).bind g = p.bind fun a => (f a).bind g := by
  induction p with
  | ret a => rfl
  | op o k ih => exact congrArg (Prog.op o) (funext ih)

def finished : Prog Op Res α → Bool
  | .ret _ => true
  | .op _ _ => false

/-- The value the program has returned, if it has. -/
def result : Prog Op Res α → Option α
  | .ret a => some a
  | .op _ _ => none

end Prog

namespace Prog

variable {Op : Type} {Res : Op → Type} {α β σ χ : Type}

/-- Every operation the program can come to satisfies `φ` together with what follows it. -/
def Always (φ : (o : Op) → (Res o → Prog Op Res α) → Prop) : Prog Op Res α → Prop
  | .ret _ => True
  | .op o k => φ o k ∧ ∀ r, (k r).Always φ

variable {p : Prog Op Res α}

lemma Always.bind {φ : (o : Op) → (Res o → Prog Op Res α) → Prop}
    {ψ : (o : Op) → (Res o → Prog Op Res β) → Prop} {f : α → Prog Op Res β} (h : p.Always φ)
    (hop : ∀ o k, φ o k → ψ o fun r => (k r).bind f) (hf : ∀ a, (f a).Always ψ) :
    (p.bind f).Always ψ := by
  induction p with
  | ret a => exact hf a
  | op o k ih => exact ⟨hop o k h.1, fun r => ih r (h.2 r)⟩

/-- The program run alone, with one choice for all its operations. -/
def eval (exec : (o : Op) → χ → σ → Option (Res o × σ)) (x : χ) : Prog Op Res α → σ → Option (α × σ)
  | .ret a, s => some (a, s)
  | .op o k, s => (exec o x s).bind fun rs => (k rs.1).eval exec x rs.2

section Eval

variable {exec : (o : Op) → χ → σ → Option (Res o × σ)} {x : χ} {s : σ}

@[simp] lemma eval_ret (a : α) : (Prog.ret a : Prog Op Res α).eval exec x s = some (a, s) := rfl

variable {s' : σ}

lemma eval_op {o : Op} {k : Res o → Prog Op Res α} {r : Res o} (h : exec o x s = some (r, s')) :
    (Prog.op o k).eval exec x s = (k r).eval exec x s' := by
  rw [eval, h, Option.bind_some]

lemma eval_bind {f : α → Prog Op Res β} {a : α} (h : p.eval exec x s = some (a, s')) :
    (p.bind f).eval exec x s = (f a).eval exec x s' := by
  induction p generalizing s with
  | ret b => cases h; rfl
  | op o k ih =>
    obtain ⟨⟨r, s1⟩, h1, h2⟩ := Option.bind_eq_some_iff.mp h
    rw [op_bind, eval_op h1]
    exact ih r h2

lemma eval_bind_ret {f : α → β} {b : β}
    (h : (p.bind fun a => .ret (f a)).eval exec x s = some (b, s')) :
    ∃ a, p.eval exec x s = some (a, s') ∧ f a = b := by
  induction p generalizing s with
  | ret a => cases h; exact ⟨a, rfl, rfl⟩
  | op o k ih =>
    obtain ⟨⟨r, s1⟩, h1, h2⟩ := Option.bind_eq_some_iff.mp h
    obtain ⟨a, ha, hb⟩ := ih r h2
    exact ⟨a, (eval_op h1).trans ha, hb⟩

end Eval

end Prog

/-! ### Pools of programs -/

/-- A running program with the request it was started for. -/
structure Thread (Op : Type) (Res : Op → Type) (L α : Type) where
  label : L
  prog : Prog Op Res α

/-- The shared store and the programs started so far. -/
structure Conf (Op : Type) (Res : Op → Type) (σ L α : Type) where
  store : σ
  pool : List (Thread Op Res L α)

/-- What runs on the store: the meaning of the operations, the program of every request, and
which requests are never in progress at the same time. -/
structure System (Op : Type) (Res : Op → Type) (σ χ L α : Type) where
  exec : (o : Op) → χ → σ → Option (Res o × σ)
  code : L → Prog Op Res α
  excl : L → L → Bool

namespace System

variable {Op : Type} {Res : Op → Type} {σ χ L α : Type}
variable (M : System Op Res σ χ L α)

/-- A request is admitted when nothing it excludes is in progress. -/
def admits (l : L) (c : Conf Op Res σ L α) : Bool :=
  c.pool.all fun t => t.prog.finished || !M.excl t.label l

/-- The `i`-th program of the pool performs its next operation. -/
inductive Act (i : ℕ) : Conf Op Res σ L α → Conf Op Res σ L α → Prop where
  | mk {s s' : σ} {pool : List (Thread Op Res L α)} {l : L} {o : Op}
      {k : Res o → Prog Op Res α} {x : χ} {r : Res o}
      (hi : pool[i]? = some ⟨l, .op o k⟩) (hx : M.exec o x s = some (r, s')) :
      Act i ⟨s, pool⟩ ⟨s', pool.set i ⟨l, k r⟩⟩

inductive Step : Conf Op Res σ L α → Conf Op Res σ L α → Prop where
  | spawn {c : Conf Op Res σ L α} (l : L) (h : M.admits l c) :
      Step c { c with pool := c.pool ++ [⟨l, M.code l⟩] }
  | act {c c' : Conf Op Res σ L α} (i : ℕ) (h : M.Act i c c') : Step c c'

abbrev Run : Conf Op Res σ L α → Conf Op Res σ L α → Prop := Relation.ReflTransGen M.Step

/-- What is reached from the empty pool on a store that satisfies `init`. -/
def Reachable (init : σ → Prop) (c : Conf Op Res σ L α) : Prop :=
  ∃ s, init s ∧ M.Run ⟨s, []⟩ c

variable {M}

variable {init : σ → Prop} {c c' : Conf Op Res σ L α}

lemma Reachable.invariant (I : Conf Op Res σ L α → Prop) (h : M.Reachable init c)
    (h0 : ∀ s, init s → I ⟨s, []⟩) (hs : ∀ c c', I c → M.Step c c' → I c') : I c := by
  obtain ⟨s, hi, hr⟩ := h
  induction hr with
  | refl => exact h0 s hi
  | tail _ h ih => exact hs _ _ ih h

lemma Reachable.trans (h : M.Reachable init c) (hr : M.Run c c') : M.Reachable init c' := by
  obtain ⟨s, hi, h⟩ := h
  exact ⟨s, hi, h.trans hr⟩

lemma Run.ret (h : M.Run c c') {i : ℕ} {l : L} {a : α} (hi : c.pool[i]? = some ⟨l, .ret a⟩) :
    c'.pool[i]? = some ⟨l, .ret a⟩ := by
  induction h with
  | refl => exact hi
  | tail _ hs ih =>
    cases hs with
    | spawn l' _ => rw [List.getElem?_append_left (List.getElem?_eq_some_iff.mp ih).1]; exact ih
    | act j h =>
      cases h with
      | mk hj hx =>
        have hne : j ≠ i := by rintro rfl; cases hj.symm.trans ih
        rw [List.getElem?_set_ne hne]
        exact ih

lemma Reachable.always (h : M.Reachable init c) {φ : L → (o : Op) → (Res o → Prog Op Res α) → Prop}
    (hφ : ∀ l, (M.code l).Always (φ l)) : ∀ t ∈ c.pool, t.prog.Always (φ t.label) := by
  refine h.invariant (fun c => ∀ t ∈ c.pool, t.prog.Always (φ t.label)) (by simp) ?_
  intro c c' hc hs
  cases hs with
  | spawn l _ =>
    intro t ht
    rcases List.mem_append.mp ht with ht | ht
    · exact hc t ht
    · rw [List.mem_singleton.mp ht]; exact hφ l
  | act i h =>
    cases h with
    | mk hi hx =>
      intro t ht
      rcases List.mem_or_eq_of_mem_set ht with ht | rfl
      · exact hc t ht
      · exact (hc _ (List.mem_of_getElem? hi)).2 _

lemma Reachable.preserved {B : Op → Prop} {I : σ → Prop} (h : M.Reachable init c)
    (hB : ∀ l, (M.code l).Always fun o _ => B o) (h0 : ∀ s, init s → I s)
    (hI : ∀ {o x s r s'}, B o → I s → M.exec o x s = some (r, s') → I s') : I c.store := by
  obtain ⟨s, hs, hr⟩ := h
  induction hr with
  | refl => exact h0 s hs
  | @tail c1 c2 h1 h2 ih =>
    cases h2 with
    | spawn l _ => exact ih
    | act i h =>
      cases h with
      | mk hi hx =>
        have hops := Reachable.always ⟨s, hs, h1⟩ hB
        exact hI (hops _ (List.mem_of_getElem? hi)).1 ih hx

/-! ### Schedules -/

inductive Event (χ L : Type) where
  | spawn (l : L)
  | act (i : ℕ) (x : χ)

variable (M)

/-- The step one decision leads to, if it is possible. -/
def next : Event χ L → Conf Op Res σ L α → Option (Conf Op Res σ L α)
  | .spawn l, c => if M.admits l c then some { c with pool := c.pool ++ [⟨l, M.code l⟩] } else none
  | .act i x, c =>
    match c.pool[i]? with
    | some ⟨l, .op o k⟩ =>
      match M.exec o x c.store with
      | some (r, s') => some ⟨s', c.pool.set i ⟨l, k r⟩⟩
      | none => none
    | _ => none

def runSchedule : List (Event χ L) → Conf Op Res σ L α → Option (Conf Op Res σ L α)
  | [], c => some c
  | e :: es, c => (M.next e c).bind (runSchedule es)

variable {M}

lemma act_of_next {i : ℕ} {x : χ} (h : M.next (.act i x) c = some c') : M.Act i c c' := by
  obtain ⟨s, pool⟩ := c
  simp only [next] at h
  split at h
  · split at h
    · cases h; exact .mk ‹_› ‹_›
    · cases h
  · cases h

lemma step_of_next {e : Event χ L} (h : M.next e c = some c') : M.Step c c' := by
  cases e with
  | spawn l =>
    simp only [next] at h
    split at h
    · cases h; exact .spawn l ‹_›
    · cases h
  | act i x => exact .act i (act_of_next h)

lemma run_of_schedule {es : List (Event χ L)} (h : M.runSchedule es c = some c') : M.Run c c' := by
  induction es generalizing c with
  | nil => cases h; exact .refl
  | cons e es ih =>
    obtain ⟨c1, h1, h2⟩ := Option.bind_eq_some_iff.mp h
    exact .head (step_of_next h1) (ih h2)

end System

end Seaplane.Lib
