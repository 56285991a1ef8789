import Seaplane.Lib.Prog

/-!
Programs that stop at their first error, and programs run alone.

`ExceptT` sequences programs whose value may be an error. `Meets` is what such a program is known
to do: the operations it performs, and the values it returns, given what the operations answer.
`Evals` is the meaning of a program that nothing else disturbs, with a choice of the environment
for each of its operations.
-/

namespace Seaplane.Lib

variable {Op : Type} {Res : Op → Type} {α β γ ι ε σ χ : Type}

abbrev Fallible (Op : Type) (Res : Op → Type) (ε α : Type) := ExceptT ε (Prog Op Res) α

variable {e : ε} {f : α → Except ε β} {b : β} {c : Prop} {a : α} {l : List α} {bs : List β}
  {s s' s1 : σ} {xs : List χ}

lemma except_bind_ok {e : Except ε α} (h : (e >>= f) = .ok b) : ∃ a, e = .ok a ∧ f a = .ok b := by
  cases e with
  | ok a => exact ⟨a, rfl, h⟩
  | error e => cases h

lemma except_unless_ok [Decidable c] {f : PUnit → Except ε β} {k : Except ε β}
    (h : (if c then throw e >>= f else k) = .ok b) : ¬c ∧ k = .ok b := by
  split at h
  · cases h
  · exact ⟨‹_›, h⟩

lemma except_foldlM_inv {f : γ → ι → Except ε γ} {l : List ι} {c c' : γ} (I : List ι → γ → Prop)
    (h0 : I [] c) (hf : ∀ pre i c c', I pre c → f c i = .ok c' → I (pre ++ [i]) c')
    (h : l.foldlM f c = .ok c') : I l c' := by
  have hgen : ∀ (post pre : List ι) (c : γ), I pre c → post.foldlM f c = .ok c' →
      I (pre ++ post) c' := by
    intro post
    induction post with
    | nil => intro pre c hc h; cases h; rwa [List.append_nil]
    | cons i post ih =>
      intro pre c hc h
      rw [List.foldlM_cons] at h
      obtain ⟨c1, h1, h⟩ := except_bind_ok h
      have := ih (pre ++ [i]) c1 (hf pre i c c1 hc h1) h
      rwa [List.append_assoc] at this
  exact hgen l [] c h0 h

lemma except_mapError_ok {δ : Type} {e : Except ε α} {f : ε → δ} (h : e.mapError f = .ok a) :
    e = .ok a := by
  cases e with
  | ok b => cases h; rfl
  | error e => cases h

lemma except_mapM_ok (h : l.mapM f = .ok bs) : List.Forall₂ (fun a b => f a = .ok b) l bs := by
  induction l generalizing bs with
  | nil => cases h; exact .nil
  | cons a l ih =>
    rw [List.mapM_cons] at h
    obtain ⟨b, hb, h⟩ := except_bind_ok h
    obtain ⟨bs', hbs, h⟩ := except_bind_ok h
    cases h
    exact .cons hb (ih hbs)

lemma except_mapM_of_forall₂ (h : List.Forall₂ (fun a b => f a = .ok b) l bs) :
    l.mapM f = .ok bs := by
  induction h with
  | nil => rfl
  | cons ha _ ih => rw [List.mapM_cons, ha, ih]; rfl

lemma except_mapM_mem (h : l.mapM f = .ok bs) : b ∈ bs ↔ ∃ a ∈ l, f a = .ok b := by
  induction except_mapM_ok h with
  | nil => simp
  | @cons a b' l bs ha hl ih =>
    have ih := ih (except_mapM_of_forall₂ hl)
    simp [ih, ha, eq_comm]

lemma except_mapM_exists (h : ∀ a ∈ l, ∃ b, f a = .ok b) : ∃ bs, l.mapM f = .ok bs := by
  induction l with
  | nil => exact ⟨[], rfl⟩
  | cons a l ih =>
    obtain ⟨b, hb⟩ := h a List.mem_cons_self
    obtain ⟨bs, hbs⟩ := ih fun a' ha' => h a' (List.mem_cons_of_mem a ha')
    exact ⟨b :: bs, by rw [List.mapM_cons, hb, hbs]; rfl⟩

/-! ### Two computations side by side -/

/-- The same error, or values that are alike. -/
inductive SameOutcome (R : α → α → Prop) : Except ε α → Except ε α → Prop where
  | ok {a b : α} (h : R a b) : SameOutcome R (.ok a) (.ok b)
  | error {e : ε} : SameOutcome R (.error e) (.error e)

lemma sameOutcome_bind {R : α → α → Prop} {e : Except ε β} {f g : β → Except ε α}
    (h : ∀ b, e = .ok b → SameOutcome R (f b) (g b)) : SameOutcome R (e >>= f) (e >>= g) := by
  cases e with
  | ok b => exact h b rfl
  | error e => exact .error

namespace Fallible

/-- What a computation without operations gives. -/
def ofExcept (e : Except ε α) : Fallible Op Res ε α := ExceptT.mk (.ret e)

end Fallible

namespace Prog

/-- As long as the answers satisfy `V`, every operation satisfies `B` and every value returned
without an error satisfies `Q`. -/
def Meets (V : (o : Op) → Res o → Prop) (B : Op → Prop) (Q : α → Prop) :
    Prog Op Res (Except ε α) → Prop
  | .ret (.ok a) => Q a
  | .ret (.error _) => True
  | .op o k => B o ∧ ∀ r, V o r → (k r).Meets V B Q

variable {V : (o : Op) → Res o → Prop} {B : Op → Prop}

variable {p : Prog Op Res (Except ε α)}

lemma Meets.always {Q : α → Prop} (h : p.Meets (fun _ _ => True) B Q) :
    p.Always fun o _ => B o := by
  induction p with
  | ret a => trivial
  | op o k ih => exact ⟨h.1, fun r => ih r (h.2 r trivial)⟩

lemma Meets.imp {Q Q' : α → Prop} (h : p.Meets V B Q) (hQ : ∀ a, Q a → Q' a) : p.Meets V B Q' := by
  induction p with
  | ret e =>
    cases e with
    | ok a => exact hQ a h
    | error e => trivial
  | op o k ih => exact ⟨h.1, fun r hr => ih r (h.2 r hr)⟩

/-! ### A program run alone -/

/-- The program run alone, with a choice for each of its operations. -/
inductive Evals (exec : (o : Op) → χ → σ → Option (Res o × σ)) :
    List χ → Prog Op Res α → σ → α → σ → Prop where
  | ret {a : α} {s : σ} : Evals exec [] (.ret a) s a s
  | op {x : χ} {xs : List χ} {o : Op} {k : Res o → Prog Op Res α} {s s1 s' : σ} {r : Res o} {a : α}
      (hx : exec o x s = some (r, s1)) (hk : Evals exec xs (k r) s1 a s') :
      Evals exec (x :: xs) (.op o k) s a s'

variable {exec : (o : Op) → χ → σ → Option (Res o × σ)}

/-- The states a program run alone passes through, the first and the last one included. -/
inductive Visits (exec : (o : Op) → χ → σ → Option (Res o × σ)) :
    Prog Op Res α → σ → σ → Prop where
  | here {p : Prog Op Res α} {s : σ} : Visits exec p s s
  | op {x : χ} {o : Op} {k : Res o → Prog Op Res α} {s s1 s' : σ} {r : Res o}
      (hx : exec o x s = some (r, s1)) (hk : Visits exec (k r) s1 s') : Visits exec (.op o k) s s'

lemma visits_ret (h : Visits exec (.ret a : Prog Op Res α) s s') : s' = s := by
  cases h
  rfl

lemma visits_op {o : Op} {k : Res o → Prog Op Res α} (h : Visits exec (.op o k) s s') :
    s' = s ∨ ∃ x r s1, exec o x s = some (r, s1) ∧ Visits exec (k r) s1 s' := by
  cases h with
  | here => exact .inl rfl
  | @op x _ _ _ s1 _ r hx hk => exact .inr ⟨x, r, s1, hx, hk⟩

lemma Evals.visits {p : Prog Op Res α} {f : α → Prog Op Res β} (h : Evals exec xs p s a s1)
    (hf : Visits exec (f a) s1 s') : Visits exec (p.bind f) s s' := by
  induction h with
  | ret => exact hf
  | op hx _ ih => exact .op hx (ih hf)

lemma evals_of_eval {p : Prog Op Res α} {x : χ} (h : p.eval exec x s = some (a, s')) :
    ∃ xs, Evals exec xs p s a s' := by
  induction p generalizing s with
  | ret b => cases h; exact ⟨[], .ret⟩
  | op o k ih =>
    obtain ⟨⟨r, s1⟩, h1, h2⟩ := Option.bind_eq_some_iff.mp h
    obtain ⟨xs, hxs⟩ := ih r h2
    exact ⟨x :: xs, .op h1 hxs⟩

lemma Evals.meets {Q : α → Prop} (h : Evals exec xs p s (.ok a) s')
    (hp : p.Meets (fun o r => ∃ x, exec o x s = some (r, s))
      (fun o => ∀ x r s', exec o x s = some (r, s') → s' = s) Q) : s' = s ∧ Q a := by
  generalize hb : Except.ok a = b at h
  induction h with
  | ret => subst hb; exact ⟨rfl, hp⟩
  | @op x xs o k s s1 s' r b hx hk ih =>
    obtain rfl := hp.1 x r s1 hx
    exact ih (hp.2 r ⟨x, hx⟩) hb

/-- A program all whose operations answer in one state as in the other, and change neither, has
the same runs in both. -/
lemma Evals.agree {Q : α → Prop} {t : σ} {a : Except ε α} (h : Evals exec xs p s a s')
    (hp : p.Meets (fun o r => ∃ x, exec o x s = some (r, s))
      (fun o => ∀ x r s', exec o x s = some (r, s') → s' = s ∧ exec o x t = some (r, t)) Q) :
    s' = s ∧ Evals exec xs p t a t := by
  induction h with
  | ret => exact ⟨rfl, .ret⟩
  | @op x xs o k s s1 s' r b hx hk ih =>
    obtain ⟨rfl, ht⟩ := hp.1 x r s1 hx
    obtain ⟨hs, hk'⟩ := ih (hp.2 r ⟨x, hx⟩)
    exact ⟨hs, .op ht hk'⟩

lemma evals_bind_ret {p : Prog Op Res α} {f : α → β} :
    Evals exec xs (p.bind fun a => .ret (f a)) s b s' ↔
      ∃ a, Evals exec xs p s a s' ∧ f a = b := by
  constructor
  · intro h
    induction p generalizing s xs with
    | ret a => cases h; exact ⟨a, .ret, rfl⟩
    | op o k ih =>
      cases h with
      | op hx hk =>
        obtain ⟨a, ha, hb⟩ := ih _ hk
        exact ⟨a, .op hx ha, hb⟩
  · rintro ⟨a, ha, rfl⟩
    induction ha with
    | ret => exact .ret
    | op hx _ ih => exact .op hx ih

lemma Evals.bind {p : Prog Op Res α} {f : α → Prog Op Res β} {ys : List χ}
    (h : Evals exec xs p s a s1) (hf : Evals exec ys (f a) s1 b s') :
    Evals exec (xs ++ ys) (p.bind f) s b s' := by
  induction h with
  | ret => exact hf
  | op hx _ ih => exact .op hx (ih hf)

end Prog

namespace Fallible

open Prog

variable {V : (o : Op) → Res o → Prop} {B : Op → Prop} {Q : α → Prop}

def Meets (V : (o : Op) → Res o → Prop) (B : Op → Prop) (Q : α → Prop)
    (p : Fallible Op Res ε α) : Prop := Prog.Meets V B Q p.run

lemma meets_pure (h : Q a) : Meets V B Q (pure a : Fallible Op Res ε α) := h

lemma meets_throw : Meets V B Q (throw e : Fallible Op Res ε α) := trivial

lemma meets_ofExcept {e : Except ε α} (h : ∀ a, e = .ok a → Q a) :
    Meets V B Q (ofExcept e : Fallible Op Res ε α) := by
  cases e with
  | ok a => exact h a rfl
  | error e => trivial

lemma meets_bind {R : β → Prop} {p : Fallible Op Res ε α} {f : α → Fallible Op Res ε β}
    (h : Meets V B Q p) (hf : ∀ a, Q a → Meets V B R (f a)) : Meets V B R (p >>= f) := by
  have hrun : ∀ q : Prog Op Res (Except ε α), q.Meets V B Q →
      (q.bind (ExceptT.bindCont f)).Meets V B R := by
    intro q hq
    induction q with
    | ret e =>
      cases e with
      | ok a => exact hf a hq
      | error e => trivial
    | op o k ih => exact ⟨hq.1, fun r hr => ih r (hq.2 r hr)⟩
  exact hrun p.run h

lemma meets_unless [Decidable c] {f : PUnit → Fallible Op Res ε α} {k : Fallible Op Res ε α}
    (h : ¬c → Meets V B Q k) : Meets V B Q (if c then throw e >>= f else k) := by
  split
  · trivial
  · exact h ‹_›

lemma meets_when [Decidable c] {p : Fallible Op Res ε β} {k : Fallible Op Res ε α}
    (hp : Meets V B (fun _ => True) p) (hk : Meets V B Q k) :
    Meets V B Q (if c then p >>= fun _ => k else k) := by
  split
  · exact meets_bind hp fun _ _ => hk
  · exact hk

lemma meets_op {o : Op} {f : Res o → Except ε α} (hB : B o) (h : ∀ r a, V o r → f r = .ok a → Q a) :
    Meets V B Q (ExceptT.mk (.op o fun r => .ret (f r)) : Fallible Op Res ε α) := by
  refine ⟨hB, fun r hr => ?_⟩
  change Prog.Meets V B Q (.ret (f r))
  cases hf : f r with
  | ok a => exact h r a hr hf
  | error e => trivial

lemma meets_foldlM {f : γ → ι → Fallible Op Res ε γ} {l : List ι} {c : γ} (I : List ι → γ → Prop)
    (h0 : I [] c) (hf : ∀ pre i c, i ∈ l → I pre c → Meets V B (I (pre ++ [i])) (f c i)) :
    Meets V B (I l) (l.foldlM f c) := by
  have hgen : ∀ (post pre : List ι) (c : γ), (∀ i ∈ post, i ∈ l) → I pre c →
      Meets V B (I (pre ++ post)) (post.foldlM f c) := by
    intro post
    induction post with
    | nil => intro pre c _ hc; rw [List.append_nil]; exact meets_pure hc
    | cons i post ih =>
      intro pre c hl hc
      rw [List.foldlM_cons]
      refine meets_bind (hf pre i c (hl i List.mem_cons_self) hc) fun c' hc' => ?_
      have := ih (pre ++ [i]) c' (fun j hj => hl j (List.mem_cons_of_mem i hj)) hc'
      rwa [List.append_assoc] at this
  exact hgen l [] c (fun _ h => h) h0

lemma evals_bind {exec : (o : Op) → χ → σ → Option (Res o × σ)} {p : Fallible Op Res ε α}
    {f : α → Fallible Op Res ε β} {ys : List χ} {b : Except ε β}
    (h : Evals exec xs p.run s (.ok a) s1) (hf : Evals exec ys (f a).run s1 b s') :
    Evals exec (xs ++ ys) (p >>= f).run s b s' := Evals.bind h hf

end Fallible

end Seaplane.Lib
