import Seaplane.Lib.RelyGuarantee

/-!
What a program has seen, and what it does on the strength of it.

`Guards` says that along a program every operation is allowed by the operations performed before
it and their answers. It is a property of the program alone. A run of the pool keeps the history
of all operations; what one program has seen is its part of that history, so in a run every
operation is allowed by what its own program has seen so far. An `Outline` says what a program
knows of the store from what it has seen, and that the other programs leave that knowledge alone.
-/

namespace Seaplane.Lib

variable {Op : Type} {Res : Op → Type} {σ χ L α β : Type}

abbrev Seen (Op : Type) (Res : Op → Type) := (o : Op) × Res o

variable {tr : List (Seen Op Res)}

namespace Prog

/-- Along the program every operation is allowed by what was seen before it, the latest first, as
long as the answers satisfy `V`; where the program returns, `Q` relates what was seen and the
value. -/
def Guards (V : (o : Op) → Res o → Prop) (A : List (Seen Op Res) → Op → Prop)
    (Q : List (Seen Op Res) → α → Prop) : List (Seen Op Res) → Prog Op Res α → Prop
  | tr, .ret a => Q tr a
  | tr, .op o k => A tr o ∧ ∀ r, V o r → Guards V A Q (⟨o, r⟩ :: tr) (k r)

variable {V : (o : Op) → Res o → Prop} {A : List (Seen Op Res) → Op → Prop}

variable {p : Prog Op Res α} {B : Op → Prop}

lemma Guards.imp {A' : List (Seen Op Res) → Op → Prop} {Q Q' : List (Seen Op Res) → α → Prop}
    (h : p.Guards V A Q tr) (hA : ∀ tr o, A tr o → A' tr o) (hQ : ∀ tr a, Q tr a → Q' tr a) :
    p.Guards V A' Q' tr := by
  induction p generalizing tr with
  | ret a => exact hQ tr a h
  | op o k ih => exact ⟨hA tr o h.1, fun r hr => ih r (h.2 r hr)⟩

lemma Guards.bind {Q : List (Seen Op Res) → β → Prop} {R : List (Seen Op Res) → α → Prop}
    {f : α → Prog Op Res β} (h : p.Guards V A R tr) (hf : ∀ tr a, R tr a → (f a).Guards V A Q tr) :
    (p.bind f).Guards V A Q tr := by
  induction p generalizing tr with
  | ret a => exact hf tr a h
  | op o k ih => exact ⟨h.1, fun r hr => ih r (h.2 r hr)⟩

lemma Guards.post {Q Q' : List (Seen Op Res) → α → Prop} (h : p.Guards V A Q tr)
    (hQ : ∀ tr a, Q tr a → Q' tr a) : p.Guards V A Q' tr := h.imp (fun _ _ h => h) hQ

lemma Guards.next {ε : Type} {p : Prog Op Res (Except ε α)} {f : Except ε α → Prog Op Res β}
    {Q : List (Seen Op Res) → β → Prop} {R : List (Seen Op Res) → Except ε α → Prop}
    (h : p.Guards V A R tr) (he : ∀ tr e, (f (.error e)).Guards V A Q tr)
    (hf : ∀ tr a, R tr (.ok a) → (f (.ok a)).Guards V A Q tr) : (p.bind f).Guards V A Q tr := by
  refine h.bind fun tr r hr => ?_
  cases r with
  | ok a => exact hf tr a hr
  | error e => exact he tr e

lemma Guards.ret {g : α → β} (tr : List (Seen Op Res)) (a : α) :
    (Prog.ret (g a)).Guards V A (fun _ _ => True) tr := trivial

lemma Guards.call {Q : List (Seen Op Res) → α → Prop} {o : Op} {f : Res o → Prog Op Res α}
    (h : A tr o) (hf : ∀ r, V o r → tr <:+ ⟨o, r⟩ :: tr → (f r).Guards V A Q (⟨o, r⟩ :: tr)) :
    ((Prog.call o).bind f).Guards V A Q tr :=
  ⟨h, fun r hr => hf r hr (List.suffix_cons _ _)⟩

lemma Always.seq {f : α → Prog Op Res β} (h : p.Always fun o _ => B o)
    (hf : ∀ a, (f a).Always fun o _ => B o) :
    (p.bind f).Always fun o _ => B o := h.bind (fun _ _ h => h) hf

lemma Always.imp {B' : Op → Prop} (h : p.Always fun o _ => B o) (hB : ∀ o, B o → B' o) :
    p.Always fun o _ => B' o := by
  induction p with
  | ret a => trivial
  | op o k ih => exact ⟨hB o h.1, fun r => ih r (h.2 r)⟩

lemma Always.call {o : Op} {f : Res o → Prog Op Res α} (h : B o)
    (hf : ∀ r, (f r).Always fun o _ => B o) : ((Prog.call o).bind f).Always fun o _ => B o :=
  ⟨h, hf⟩

lemma Always.next {ε : Type} {p : Prog Op Res (Except ε α)} {f : Except ε α → Prog Op Res β}
    (h : p.Always fun o _ => B o) (he : ∀ e, (f (.error e)).Always fun o _ => B o)
    (hf : ∀ a, (f (.ok a)).Always fun o _ => B o) : (p.bind f).Always fun o _ => B o := by
  refine h.seq fun r => ?_
  cases r with
  | ok a => exact hf a
  | error e => exact he e

lemma Always.ret {g : α → β} (a : α) : (Prog.ret (g a) : Prog Op Res β).Always fun o _ => B o :=
  trivial

/-- A program that performs only operations of one sort keeps what they keep, and is allowed what
they are allowed under it. -/
lemma Always.guards {P : List (Seen Op Res) → Prop} (h : p.Always fun o _ => B o) (hP : P tr)
    (hA : ∀ tr o, P tr → B o → A tr o) (hs : ∀ tr o r, P tr → B o → P (⟨o, r⟩ :: tr)) :
    p.Guards V A (fun tr _ => P tr) tr := by
  induction p generalizing tr with
  | ret a => exact hP
  | op o k ih => exact ⟨hA tr o hP h.1, fun r _ => ih r (h.2 r) (hs tr o r hP h.1)⟩

/-- The program comes to its end after `n` operations, wherever it is then; it has returned nothing
unless it was done before. -/
def cut : ℕ → Prog Op Res α → Prog Op Res (Option α)
  | _, .ret a => .ret (some a)
  | 0, .op _ _ => .ret none
  | n + 1, .op o k => .op o fun r => (k r).cut n

lemma Guards.cut {Q : List (Seen Op Res) → α → Prop} (h : p.Guards V A Q tr) (n : ℕ) :
    (p.cut n).Guards V A (fun tr r => ∀ a, r = some a → Q tr a) tr := by
  induction p generalizing tr n with
  | ret a =>
    have hq : Q tr a := h
    cases n <;> exact fun b hb => Option.some.inj hb ▸ hq
  | op o k ih =>
    cases n with
    | zero => exact fun _ hb => by cases hb
    | succ n => exact ⟨h.1, fun r hr => ih r (h.2 r hr) n⟩

lemma Always.cut (h : p.Always fun o _ => B o) (n : ℕ) : (p.cut n).Always fun o _ => B o := by
  induction p generalizing n with
  | ret a => cases n <;> trivial
  | op o k ih =>
    cases n with
    | zero => trivial
    | succ n => exact ⟨h.1, fun r => ih r (h.2 r) n⟩

lemma Sat.cut {exec : (o : Op) → χ → σ → Option (Res o × σ)} {I : σ → Prop} {R : σ → σ → Prop}
    {G : Op → σ → σ → Prop} {Q : α → σ → Prop} {P : σ → Prop} (h : p.Sat exec I R G Q P) (n : ℕ) :
    (p.cut n).Sat exec I R G (fun _ _ => True) P := by
  induction p generalizing P n with
  | ret a => cases n <;> exact fun _ _ _ => trivial
  | op o k ih =>
    cases n with
    | zero => exact fun _ _ _ => trivial
    | succ n =>
      intro s hI hp x r s' hx
      obtain ⟨hI', hg, P', hst, hp', hk⟩ := h s hI hp x r s' hx
      exact ⟨hI', hg, P', hst, hp', ih r hk n⟩

end Prog

/-- Something happened, and nothing that ends it has happened since; the latest comes first. -/
def Since {β : Type} (ends : β → Prop) (P : β → Prop) : List β → Prop
  | [] => False
  | e :: tr => P e ∨ ¬ends e ∧ Since ends P tr

lemma Since.append {β : Type} {ends P : β → Prop} {tr : List β} (h : Since ends P tr) {es : List β}
    (he : ∀ e ∈ es, ¬ends e) : Since ends P (es ++ tr) := by
  induction es with
  | nil => exact h
  | cons e es ih =>
    exact .inr ⟨he e List.mem_cons_self, ih fun e' h' => he e' (List.mem_cons_of_mem e h')⟩

namespace System

/-! ### Histories -/

/-- A run from `c0` with everything its programs have seen, the latest first, in which every
operation meets a condition on its caller, the choice and the store before it. -/
inductive HistIf (M : System Op Res σ χ L α) (ok : L → Op → χ → σ → Prop)
    (c0 : Conf Op Res σ L α) : List (ℕ × Seen Op Res) → Conf Op Res σ L α → Prop where
  | start : HistIf M ok c0 [] c0
  | spawn {es : List (ℕ × Seen Op Res)} {c : Conf Op Res σ L α} (l : L) (h : HistIf M ok c0 es c)
      (ha : M.admits l c) : HistIf M ok c0 es { c with pool := c.pool ++ [⟨l, M.code l⟩] }
  | act {es : List (ℕ × Seen Op Res)} {s s' : σ} {pool : List (Thread Op Res L α)} {i : ℕ} {l : L}
      {o : Op} {k : Res o → Prog Op Res α} {x : χ} {r : Res o} (h : HistIf M ok c0 es ⟨s, pool⟩)
      (hi : pool[i]? = some ⟨l, .op o k⟩) (hok : ok l o x s) (hx : M.exec o x s = some (r, s')) :
      HistIf M ok c0 (⟨i, o, r⟩ :: es) ⟨s', pool.set i ⟨l, k r⟩⟩

/-- A run from `c0` with everything its programs have seen. -/
abbrev Hist (M : System Op Res σ χ L α) (c0 : Conf Op Res σ L α) :
    List (ℕ × Seen Op Res) → Conf Op Res σ L α → Prop := M.HistIf (fun _ _ _ _ => True) c0

/-- What the `i`-th program has seen. -/
def own (i : ℕ) (es : List (ℕ × Seen Op Res)) : List (Seen Op Res) :=
  es.filterMap fun e => if e.1 = i then some e.2 else none

@[simp] lemma own_cons_self (i : ℕ) (e : Seen Op Res) (es : List (ℕ × Seen Op Res)) :
    own i (⟨i, e⟩ :: es) = e :: own i es := by simp [own]

variable {i : ℕ} {e : Seen Op Res} {s : σ} {t : Thread Op Res L α} {okb : L → Op → χ → σ → Bool}
  {sched : List (Event χ L)} {es' : List (ℕ × Seen Op Res)}

lemma own_cons_ne {j : ℕ} (h : j ≠ i) (e : Seen Op Res) (es : List (ℕ × Seen Op Res)) :
    own i (⟨j, e⟩ :: es) = own i es := by simp [own, h]

lemma mem_own {es : List (ℕ × Seen Op Res)} (h : (i, e) ∈ es) :
    e ∈ own i es := List.mem_filterMap.mpr ⟨(i, e), h, if_pos rfl⟩

lemma mem_of_mem_own {es : List (ℕ × Seen Op Res)} (h : e ∈ own i es) : (i, e) ∈ es := by
  obtain ⟨⟨j, e'⟩, hm, he⟩ := List.mem_filterMap.mp h
  split at he
  · next hj =>
    cases he
    subst hj
    exact hm
  · cases he

variable {M : System Op Res σ χ L α} {ok : L → Op → χ → σ → Prop} {c0 c c' : Conf Op Res σ L α}
  {es : List (ℕ × Seen Op Res)}

lemma Run.hist (h : M.Run c0 c) : ∃ es, M.Hist c0 es c := by
  induction h with
  | refl => exact ⟨[], .start⟩
  | tail _ hs ih =>
    obtain ⟨es, he⟩ := ih
    cases hs with
    | spawn l ha => exact ⟨es, he.spawn l ha⟩
    | act i h =>
      cases h with
      | mk hi hx => exact ⟨_, he.act hi trivial hx⟩

lemma HistIf.mono {ok' : L → Op → χ → σ → Prop} (h : M.HistIf ok c0 es c)
    (hok : ∀ l o x s, ok l o x s → ok' l o x s) : M.HistIf ok' c0 es c := by
  induction h with
  | start => exact .start
  | spawn l _ ha ih => exact ih.spawn l ha
  | act _ hi h1 hx ih => exact ih.act hi (hok _ _ _ _ h1) hx

variable (M) in
/-- The system whose operations go through only if they meet a condition. -/
def restrict (ok : Op → χ → σ → Bool) : System Op Res σ χ L α :=
  { M with exec := fun o x s => if ok o x s then M.exec o x s else none }

lemma restrict_exec {ok : Op → χ → σ → Bool} {o : Op} {x : χ} (h : ok o x s = true) :
    (M.restrict ok).exec o x s = M.exec o x s := if_pos h

lemma HistIf.restrict {ok : Op → χ → σ → Bool}
    (h : M.HistIf (fun _ o x s => ok o x s = true) c0 es c) : (M.restrict ok).Run c0 c := by
  induction h with
  | start => exact .refl
  | spawn l _ ha ih => exact ih.tail (.spawn l ha)
  | act _ hi hok hx ih => exact ih.tail (.act _ (.mk hi ((restrict_exec hok).trans hx)))

lemma HistIf.invariant {I : σ → Prop} (h : M.HistIf ok c0 es c) (h0 : I c0.store)
    (hs : ∀ {l o x s r s'}, I s → ok l o x s → M.exec o x s = some (r, s') → I s') : I c.store := by
  induction h with
  | start => exact h0
  | spawn _ _ _ ih => exact ih
  | act _ _ hok hx ih => exact hs ih hok hx

lemma HistIf.lt_length (h : M.HistIf ok ⟨s, []⟩ es c) : ∀ e ∈ es, e.1 < c.pool.length := by
  induction h with
  | start => simp
  | spawn l _ _ ih =>
    intro e he
    have := ih e he
    simp only [List.length_append, List.length_singleton]
    omega
  | act _ hi _ _ ih =>
    intro e he
    simp only [List.length_set]
    rcases List.mem_cons.mp he with rfl | he
    · exact (List.getElem?_eq_some_iff.mp hi).1
    · exact ih e he

lemma HistIf.own_length (h : M.HistIf ok ⟨s, []⟩ es c) : own c.pool.length es = [] := by
  refine List.filterMap_eq_nil_iff.mpr fun e he => if_neg ?_
  have := h.lt_length e he
  omega

section

variable {V : (o : Op) → Res o → Prop} {A : L → List (Seen Op Res) → Op → Prop}
  {Q : L → List (Seen Op Res) → α → Prop} (h : M.HistIf ok ⟨s, []⟩ es c)
  (hV : ∀ o x s r s', M.exec o x s = some (r, s') → V o r)
  (hg : ∀ l, (M.code l).Guards V (A l) (Q l) []) (ht : c.pool[i]? = some t)
include h hV hg ht

theorem HistIf.guards : t.prog.Guards V (A t.label) (Q t.label) (own i es) := by
  induction h generalizing i t with
  | start => simp at ht
  | @spawn es c l h ha ih =>
    rcases getElem?_concat ht with ht | ⟨rfl, rfl⟩
    · exact ih ht
    · rw [h.own_length]
      exact hg l
  | @act es s s' pool j l o k x r h hi _ hx ih =>
    rcases getElem?_of_set hi ht with ⟨rfl, rfl⟩ | ⟨hij, ht⟩
    · rw [own_cons_self]
      exact (ih hi).2 r (hV o x s r s' hx)
    · rw [own_cons_ne hij]
      exact ih ht

theorem HistIf.logged (he : e :: tr <:+ own i es) : A t.label tr e.1 := by
  induction h generalizing i t with
  | start => simp at ht
  | @spawn es c l h ha ih =>
    rcases getElem?_concat ht with ht | ⟨rfl, rfl⟩
    · exact ih ht he
    · rw [h.own_length] at he
      cases List.suffix_nil.mp he
  | @act es s s' pool j l o k x r h hi _ hx ih =>
    rcases getElem?_of_set hi ht with ⟨rfl, rfl⟩ | ⟨hij, ht⟩
    · rw [own_cons_self] at he
      rcases List.suffix_cons_iff.mp he with he | he
      · cases he
        exact (h.guards hV hg hi).1
      · have hA := ih hi he
        exact hA
    · rw [own_cons_ne hij] at he
      exact ih ht he

end

lemma HistIf.separate (h : M.HistIf ok ⟨s, []⟩ es c) (hsymm : ∀ l l', M.excl l l' = M.excl l' l) :
    M.Separate c.pool := by
  induction h with
  | start => simp [Separate]
  | spawn l _ ha ih => exact ih.spawn hsymm ha
  | act _ hi _ _ ih => exact ih.act hi _

lemma HistIf.shown {I : σ → Prop} {E : Seen Op Res → σ → Prop} (h : M.HistIf ok c0 es c)
    (h0 : I c0.store) (hI : ∀ {o x s r s'}, I s → M.exec o x s = some (r, s') → I s')
    (hE : ∀ {o x s r s'}, I s → M.exec o x s = some (r, s') → E ⟨o, r⟩ s')
    (hk : ∀ {e o x s r s'}, I s → E e s → M.exec o x s = some (r, s') → E e s') :
    I c.store ∧ ∀ e ∈ es, E e.2 c.store := by
  induction h with
  | start => exact ⟨h0, by simp⟩
  | spawn _ _ _ ih => exact ih
  | act _ _ _ hx ih =>
    refine ⟨hI ih.1 hx, fun e he => ?_⟩
    rcases List.mem_cons.mp he with rfl | he
    · exact hE ih.1 hx
    · exact hk ih.1 (ih.2 e he) hx

lemma HistIf.answered {E : Seen Op Res → Prop} (h : M.HistIf ok c0 es c)
    (hE : ∀ {o x s r s'}, M.exec o x s = some (r, s') → E ⟨o, r⟩) : ∀ e ∈ es, E e.2 :=
  (h.shown (I := fun _ => True) (E := fun e _ => E e) trivial (fun _ _ => trivial)
    (fun _ hx => hE hx) fun _ he _ => he).2

lemma HistIf.settled (h : M.HistIf ok ⟨s, []⟩ es c) {j : ℕ} {t' : Thread Op Res L α} (hij : i < j)
    (hi : c.pool[i]? = some t) (hj : c.pool[j]? = some t') (hx : M.excl t.label t'.label = true) :
    t.prog.finished = true := by
  induction h generalizing i j t t' with
  | start => simp at hi
  | @spawn es c l h ha ih =>
    rcases getElem?_concat hj with hj' | ⟨rfl, rfl⟩
    · rw [List.getElem?_append_left
        (Nat.lt_trans hij (List.getElem?_eq_some_iff.mp hj').1)] at hi
      exact ih hij hi hj' hx
    · rw [List.getElem?_append_left hij] at hi
      have := List.all_eq_true.mp ha t (List.mem_of_getElem? hi)
      simpa [hx] using this
  | @act es s s' pool m l o k x r h hm _ _ ih =>
    obtain ⟨u, hu, hl, hf⟩ := getElem?_of_act hm hi
    obtain ⟨u', hu', hl', -⟩ := getElem?_of_act hm hj
    exact hf (ih hij hu hu' (by rw [hl, hl']; exact hx))

/-! ### Outlines -/

/-- What every program may do, given what it has seen; what it then knows of the store; and that
its own operations and those of the programs it does not exclude keep this. A program may also own
parts of the store: what is known of a part while nobody who owns it is in progress holds when a
program that owns it starts, and again when it returns. -/
structure Outline {K : Type} (M : System Op Res σ χ L α) (ok : L → Op → χ → σ → Prop)
    (A : L → List (Seen Op Res) → Op → Prop) (Q : L → List (Seen Op Res) → α → Prop)
    (I : σ → Prop) (T : L → List (Seen Op Res) → σ → Prop) (owns : L → K → Prop)
    (N : K → σ → Prop) : Prop where
  guards l : (M.code l).Guards (fun _ _ => True) (A l) (Q l) []
  symm l l' : M.excl l l' = M.excl l' l
  alone {l l' : L} {k : K} : owns l k → owns l' k → M.excl l l' = true
  start {l : L} {s : σ} : I s → (∀ k, owns l k → N k s) → T l [] s
  own {l : L} {tr : List (Seen Op Res)} {o : Op} {x : χ} {s s' : σ} {r : Res o} :
    I s → T l tr s → A l tr o → ok l o x s → M.exec o x s = some (r, s') →
      I s' ∧ T l (⟨o, r⟩ :: tr) s'
  other {l l' : L} {tr tr' : List (Seen Op Res)} {o : Op} {x : χ} {s s' : σ} {r : Res o} :
    M.excl l l' = false → I s → T l tr s → T l' tr' s → A l' tr' o → ok l' o x s →
      M.exec o x s = some (r, s') → T l tr s'
  keep {l : L} {k : K} {tr : List (Seen Op Res)} {o : Op} {x : χ} {s s' : σ} {r : Res o} :
    ¬owns l k → I s → T l tr s → N k s → A l tr o → ok l o x s → M.exec o x s = some (r, s') →
      N k s'
  finish {l : L} {k : K} {tr : List (Seen Op Res)} {a : α} {s : σ} :
    owns l k → I s → T l tr s → Q l tr a → N k s

namespace Outline

variable {K : Type} {A : L → List (Seen Op Res) → Op → Prop}
  {Q : L → List (Seen Op Res) → α → Prop} {I : σ → Prop}
  {T : L → List (Seen Op Res) → σ → Prop} {owns : L → K → Prop} {N : K → σ → Prop}

lemma plain (guards : ∀ l, (M.code l).Guards (fun _ _ => True) (A l) (fun _ _ => True) [])
    (symm : ∀ l l', M.excl l l' = M.excl l' l) (start : ∀ {l s}, I s → T l [] s)
    (own : ∀ {l : L} {tr : List (Seen Op Res)} {o : Op} {x : χ} {s s' : σ} {r : Res o},
      I s → T l tr s → A l tr o → ok l o x s → M.exec o x s = some (r, s') →
        I s' ∧ T l (⟨o, r⟩ :: tr) s')
    (other : ∀ {l l' : L} {tr tr' : List (Seen Op Res)} {o : Op} {x : χ} {s s' : σ} {r : Res o},
      M.excl l l' = false → I s → T l tr s → T l' tr' s → A l' tr' o → ok l' o x s →
        M.exec o x s = some (r, s') → T l tr s') :
    M.Outline ok A (fun _ _ _ => True) I T (fun _ (_ : PEmpty) => False) (fun _ _ => True) where
  guards := guards
  symm := symm
  alone h := h.elim
  start hI _ := start hI
  own := own
  other := other
  keep _ _ _ _ _ _ _ := trivial
  finish h := h.elim

variable (ho : M.Outline ok A Q I T owns N) (h0 : I s) (hN : ∀ k, N k s)
  (h : M.HistIf ok ⟨s, []⟩ es c)
include ho h

lemma allowed {l : L} {o : Op} {f : Res o → Prog Op Res α}
    (hi : c.pool[i]? = some ⟨l, .op o f⟩) : A l (System.own i es) o :=
  (h.guards (fun _ _ _ _ _ _ => trivial) ho.guards hi).1

include h0 hN

/-- In every state reached the invariant holds, every program in progress knows what it should of
the store, and so does everyone of the parts nobody in progress owns. -/
theorem holds : I c.store ∧
      (∀ (i : ℕ) t, c.pool[i]? = some t → t.prog.finished = false →
        T t.label (System.own i es) c.store) ∧
      ∀ k, (∀ t ∈ c.pool, owns t.label k → t.prog.finished = true) → N k c.store := by
  induction h with
  | start => exact ⟨h0, by simp, fun k _ => hN k⟩
  | @spawn es c l h ha ih =>
    obtain ⟨hI, hT, hK⟩ := ih
    refine ⟨hI, fun i t hi hf => ?_, fun k hk => hK k fun t ht => hk t (List.mem_append_left _ ht)⟩
    rcases getElem?_concat hi with hi | ⟨rfl, rfl⟩
    · exact hT i t hi hf
    · rw [h.own_length]
      refine ho.start hI fun k hk => hK k fun t ht hkt => ?_
      have := List.all_eq_true.mp ha t ht
      simpa [ho.alone hkt hk] using this
  | @act es s s' pool j l o f x r h hj hok hx ih =>
    obtain ⟨hI, hT, hK⟩ := ih
    have hA := ho.allowed h hj
    have hTj : T l (System.own j es) s := hT j _ hj rfl
    obtain ⟨hI', hT'⟩ := ho.own hI hTj hA hok hx
    have hlt : j < pool.length := (List.getElem?_eq_some_iff.mp hj).1
    refine ⟨hI', fun i t hi hf => ?_, fun k hk => ?_⟩
    · rcases getElem?_of_set hj hi with ⟨rfl, rfl⟩ | ⟨hij, hi⟩
      · rw [own_cons_self]
        exact hT'
      · rw [own_cons_ne hij]
        refine ho.other ?_ hI (hT i t hi hf) hTj hA hok hx
        -- both are in progress, so neither excludes the other
        rcases h.separate ho.symm i j t _ (Ne.symm hij) hi hj with h | h | h
        · rw [hf] at h; cases h
        · cases h
        · exact h
    · by_cases hlk : owns l k
      · -- its owner has just returned
        have hfin := hk ⟨l, f r⟩ (List.mem_iff_getElem?.mpr ⟨j, List.getElem?_set_self hlt⟩) hlk
        have hQ := (h.act hj hok hx).guards (fun _ _ _ _ _ _ => trivial) ho.guards
          (List.getElem?_set_self hlt)
        cases hp : f r with
        | op => rw [hp] at hfin; cases hfin
        | ret a =>
          rw [hp, own_cons_self] at hQ
          exact ho.finish hlk hI' hT' hQ
      · refine ho.keep hlk hI hTj (hK k fun t ht hkt => ?_) hA hok hx
        obtain ⟨i, hi⟩ := List.mem_iff_getElem?.mp ht
        by_cases hij : j = i
        · subst hij
          cases hj.symm.trans hi
          exact absurd hkt hlk
        · exact hk t (List.mem_iff_getElem?.mpr ⟨i, by rw [List.getElem?_set_ne hij]; exact hi⟩) hkt

theorem act (hi : c.pool[i]? = some t) (ha : M.Act i c c') :
    ∃ o x r, I c.store ∧ T t.label (System.own i es) c.store ∧
      A t.label (System.own i es) o ∧ M.exec o x c.store = some (r, c'.store) := by
  cases ha with
  | mk hj hx =>
    cases hj.symm.trans hi
    obtain ⟨hI, hT, -⟩ := ho.holds h0 hN h
    exact ⟨_, _, _, hI, hT i _ hi rfl, ho.allowed h hi, hx⟩

/-- What holds when a program returns, and the programs it does not exclude keep, holds as long as
nothing it excludes is started. -/
theorem post {P : L → α → σ → Prop} (ret : ∀ {l tr a s}, I s → T l tr s → Q l tr a → P l a s)
    (kept : ∀ {l l' : L} {a : α} {tr' : List (Seen Op Res)} {o : Op} {x : χ} {s s' : σ} {r : Res o},
      M.excl l l' = false → I s → P l a s → T l' tr' s → A l' tr' o → ok l' o x s →
        M.exec o x s = some (r, s') → P l a s') {l : L} {a : α} (hi : c.pool[i]? = some ⟨l, .ret a⟩)
    (hx : ∀ j t, i < j → c.pool[j]? = some t → M.excl l t.label = false) : P l a c.store := by
  induction h with
  | start => simp at hi
  | @spawn es c l' h ha ih =>
    obtain ⟨hI, hT, hK⟩ := ho.holds h0 hN h
    rcases getElem?_concat hi with hi' | ⟨rfl, hl⟩
    · refine ih hi' fun j t hj ht => hx j t hj ?_
      rw [List.getElem?_append_left (List.getElem?_eq_some_iff.mp ht).1]
      exact ht
    · -- it has returned at once
      obtain ⟨rfl, hret⟩ := Thread.mk.inj hl
      have hQ := (h.spawn l ha).guards (fun _ _ _ _ _ _ => trivial) ho.guards hi
      rw [h.own_length] at hQ
      refine ret hI (ho.start hI fun k hk => hK k fun t ht hkt => ?_) hQ
      have := List.all_eq_true.mp ha t ht
      simpa [ho.alone hkt hk] using this
  | @act es s s' pool j l' o f x r h hj hok hx' ih =>
    obtain ⟨hI, hT, -⟩ := ho.holds h0 hN h
    have hA := ho.allowed h hj
    have hTj : T l' (System.own j es) s := hT j _ hj rfl
    by_cases hij : j = i
    · subst hij
      have hQ := (h.act hj hok hx').guards (fun _ _ _ _ _ _ => trivial) ho.guards hi
      rw [own_cons_self] at hQ
      rw [List.getElem?_set_self (List.getElem?_eq_some_iff.mp hj).1] at hi
      obtain ⟨rfl, -⟩ := Thread.mk.inj (Option.some.inj hi)
      obtain ⟨hI', hT'⟩ := ho.own hI hTj hA hok hx'
      exact ret hI' hT' hQ
    · rw [List.getElem?_set_ne hij] at hi
      have hlater : ∀ (m : ℕ) t, i < m → pool[m]? = some t → M.excl l t.label = false := by
        intro m t hm ht
        by_cases hmj : j = m
        · subst hmj
          cases hj.symm.trans ht
          exact hx j ⟨l', f r⟩ hm (List.getElem?_set_self (List.getElem?_eq_some_iff.mp hj).1)
        · exact hx m t hm (by rw [List.getElem?_set_ne hmj]; exact ht)
      -- what it excludes has returned before it was started, or is started after it
      have hexcl : ∀ (m : ℕ) t, m ≠ i → pool[m]? = some t → t.prog.finished = false →
          M.excl l t.label = false := by
        intro m t hm ht hf
        rcases Nat.lt_or_gt_of_ne hm with hlt | hgt
        · by_contra he
          have he' : M.excl t.label l = true := by
            rw [ho.symm]; simpa using he
          rw [h.settled hlt ht hi he'] at hf
          cases hf
        · exact hlater m t hgt ht
      exact kept (hexcl j _ hij hj rfl) hI (ih hi hlater) hTj hA hok hx'

end Outline

/-! ### Schedules that meet a condition -/

variable (M) in
/-- A schedule that meets a condition, with everything that is seen on the way. -/
def recordIf (ok : L → Op → χ → σ → Bool) : List (Event χ L) →
    List (ℕ × Seen Op Res) × Conf Op Res σ L α → Option (List (ℕ × Seen Op Res) × Conf Op Res σ L α)
  | [], h => some h
  | .spawn l :: sched, h => if M.admits l h.2 then
      recordIf ok sched (h.1, { h.2 with pool := h.2.pool ++ [⟨l, M.code l⟩] }) else none
  | .act i x :: sched, h =>
    match h.2.pool[i]? with
    | some ⟨l, .op o k⟩ =>
      if ok l o x h.2.store then
        match M.exec o x h.2.store with
        | some (r, s) => recordIf ok sched (⟨i, o, r⟩ :: h.1, ⟨s, h.2.pool.set i ⟨l, k r⟩⟩)
        | none => none
      else none
    | _ => none

lemma HistIf.record (hok : ∀ l o x s, okb l o x s → ok l o x s) (h : M.HistIf ok c0 es c)
    (hs : M.recordIf okb sched (es, c) = some (es', c')) : M.HistIf ok c0 es' c' := by
  induction sched generalizing c es with
  | nil => cases hs; exact h
  | cons e sched ih =>
    obtain ⟨s, pool⟩ := c
    cases e with
    | spawn l =>
      simp only [recordIf] at hs
      split at hs
      · exact ih (h.spawn l ‹_›) hs
      · cases hs
    | act i x =>
      simp only [recordIf] at hs
      split at hs
      · next l o k hi =>
        split at hs
        · next hm =>
          split at hs
          · exact ih (h.act hi (hok _ _ _ _ hm) ‹_›) hs
          · cases hs
        · cases hs
      · cases hs

lemma HistIf.append {ok' : L → Op → χ → σ → Prop} (hok : ∀ l o x s, ok' l o x s → ok l o x s)
    (h : M.HistIf ok c0 es c) (h' : M.HistIf ok' c es' c') : M.HistIf ok c0 (es' ++ es) c' := by
  induction h' with
  | start => exact h
  | spawn l _ ha ih => exact ih.spawn l ha
  | act _ hi hm hx ih => exact ih.act hi (hok _ _ _ _ hm) hx

lemma HistIf.observed (hok : ∀ l o x s, okb l o x s → ok l o x s)
    {f : List (ℕ × Seen Op Res) × Conf Op Res σ L α → Bool}
    (hs : (M.recordIf okb sched ([], c0)).any f = true) :
    ∃ es c, M.HistIf ok c0 es c ∧ f (es, c) = true := by
  obtain ⟨⟨es, c⟩, hrec, hf⟩ := (Option.any_eq_true _ _).mp hs
  exact ⟨es, c, HistIf.record hok .start hrec, hf⟩

def spawned : List (Event χ L) → List L
  | [] => []
  | .spawn l :: sched => l :: spawned sched
  | .act _ _ :: sched => spawned sched

lemma recordIf_labels (hs : M.recordIf okb sched (es, c) = some (es', c')) :
    c'.pool.map Thread.label = c.pool.map Thread.label ++ spawned sched := by
  induction sched generalizing c es with
  | nil => cases hs; simp [spawned]
  | cons e sched ih =>
    cases e with
    | spawn l =>
      simp only [recordIf] at hs
      split at hs
      · rw [ih hs, spawned]
        simp
      · cases hs
    | act i x =>
      simp only [recordIf] at hs
      split at hs
      · next l o k hi =>
        split at hs
        · split at hs
          · -- an operation leaves the labels as they are
            obtain ⟨hlt, hget⟩ := List.getElem?_eq_some_iff.mp hi
            have hlt' : i < (c.pool.map Thread.label).length := by simpa using hlt
            have hlabel : (c.pool.map Thread.label)[i] = l := by simp [hget]
            rw [ih hs, spawned, List.map_set, ← hlabel, List.set_getElem_self]
          · cases hs
        · cases hs
      · cases hs

lemma recordIf_thread {l : L} (hl : (spawned sched)[i]? = some l)
    (hs : M.recordIf okb sched ([], ⟨s, []⟩) = some (es, c)) :
    ∃ t, c.pool[i]? = some t ∧ t.label = l := by
  have hmap : (c.pool.map Thread.label)[i]? = some l := by
    rw [recordIf_labels hs]
    exact hl
  rw [List.getElem?_map] at hmap
  exact Option.map_eq_some_iff.mp hmap

lemma HistIf.observed_act (hok : ∀ l o x s, okb l o x s → ok l o x s) {x : χ} {l : L}
    (f : Conf Op Res σ L α → Conf Op Res σ L α → Bool) (hl : (spawned sched)[i]? = some l)
    (hs : (M.recordIf okb sched ([], ⟨s, []⟩)).any
      (fun h => (M.next (.act i x) h.2).any (f h.2)) = true) :
    ∃ es c c' t, M.HistIf ok ⟨s, []⟩ es c ∧ c.pool[i]? = some t ∧ t.label = l ∧ M.Act i c c' ∧
      f c c' = true := by
  obtain ⟨⟨es, c⟩, hrec, hf⟩ := (Option.any_eq_true _ _).mp hs
  obtain ⟨c', hnext, hf⟩ := (Option.any_eq_true _ _).mp hf
  obtain ⟨t, ht, hlabel⟩ := recordIf_thread hl hrec
  exact ⟨es, c, c', t, HistIf.record hok .start hrec, ht, hlabel, act_of_next hnext, hf⟩

end System

end Seaplane.Lib
