import Seaplane.Lib.Prog

/-!
Rely-guarantee reasoning for pools of programs.

`Sat` says that a program, started where its precondition holds and disturbed only by what its
rely allows, keeps the invariant of the store, performs only what its guarantee says, and returns
only where its postcondition holds. Between two operations it holds some assertion that the rely
cannot break.
-/

namespace Seaplane.Lib

variable {Op : Type} {Res : Op → Type} {σ χ L α β : Type}

/-- An assertion that a disturbance allowed by `R` cannot break. -/
def Stable (I : σ → Prop) (R : σ → σ → Prop) (P : σ → Prop) : Prop :=
  ∀ s s', I s → I s' → R s s' → P s → P s'

variable {Q : α → σ → Prop} {p : Prog Op Res α}

namespace Prog

/-- The program meets its guarantee and its postcondition from every state of `P`. -/
def Sat (exec : (o : Op) → χ → σ → Option (Res o × σ)) (I : σ → Prop) (R : σ → σ → Prop)
    (G : Op → σ → σ → Prop) (Q : α → σ → Prop) : Prog Op Res α → (σ → Prop) → Prop
  | .ret a, P => ∀ s, I s → P s → Q a s
  | .op o k, P => ∀ s, I s → P s → ∀ x r s', exec o x s = some (r, s') →
      I s' ∧ G o s s' ∧ ∃ P', Stable I R P' ∧ P' s' ∧ (k r).Sat exec I R G Q P'

variable {exec : (o : Op) → χ → σ → Option (Res o × σ)} {I : σ → Prop} {R : σ → σ → Prop}
  {G : Op → σ → σ → Prop}

variable {P : σ → Prop} {s : σ}

lemma Sat.pre {P' : σ → Prop} (h : p.Sat exec I R G Q P') (hP : ∀ s, I s → P s → P' s) :
    p.Sat exec I R G Q P := by
  cases p with
  | ret a | op o k => exact fun s hI hp => h s hI (hP s hI hp)

lemma Sat.post {Q' : α → σ → Prop} (h : p.Sat exec I R G Q P) (hQ : ∀ a s, I s → Q a s → Q' a s) :
    p.Sat exec I R G Q' P := by
  induction p generalizing P with
  | ret a => exact fun s hI hp => hQ a s hI (h s hI hp)
  | op o k ih =>
    intro s hI hp x r s' hx
    obtain ⟨hI', hg, P', hst, hp', hk⟩ := h s hI hp x r s' hx
    exact ⟨hI', hg, P', hst, hp', ih r hk⟩

lemma Always.sat {B : Op → Prop} (h : p.Always fun o _ => B o) (hst : Stable I R P)
    (hB : ∀ {o x s r s'}, B o → I s → P s → exec o x s = some (r, s') → I s' ∧ G o s s' ∧ P s') :
    p.Sat exec I R G (fun _ => P) P := by
  induction p with
  | ret a => exact fun _ _ hp => hp
  | op o k ih =>
    intro s hI hp x r s' hx
    obtain ⟨hI', hg, hp'⟩ := hB h.1 hI hp hx
    exact ⟨hI', hg, P, hst, hp', ih r (h.2 r)⟩

/-- The rule of one operation under an assertion it keeps: what is known of its answer goes on
with it. -/
lemma Sat.op {o : Op} {k : Res o → Prog Op Res α} (F : Res o → Prop) (hst : Stable I R P)
    (ho : ∀ s, I s → P s → ∀ x r s', exec o x s = some (r, s') → I s' ∧ G o s s' ∧ P s' ∧ F r)
    (hk : ∀ r, F r → (k r).Sat exec I R G Q P) : (Prog.op o k).Sat exec I R G Q P := by
  intro s hI hp x r s' hx
  obtain ⟨hI', hg, hp', hF⟩ := ho s hI hp x r s' hx
  exact ⟨hI', hg, P, hst, hp', hk r hF⟩

lemma Sat.bind {Q : β → σ → Prop} {Q' : α → σ → Prop} {f : α → Prog Op Res β}
    (h : p.Sat exec I R G Q' P) (hf : ∀ a, (f a).Sat exec I R G Q (Q' a)) :
    (p.bind f).Sat exec I R G Q P := by
  induction p generalizing P with
  | ret a => exact (hf a).pre h
  | op o k ih =>
    intro s hI hp x r s' hx
    obtain ⟨hI', hg, P', hst, hp', hk⟩ := h s hI hp x r s' hx
    exact ⟨hI', hg, P', hst, hp', ih r hk⟩

/-- A program of the pool is on course: it has returned as promised, or what remains of it is
still correct from here. -/
def OnCourse (exec : (o : Op) → χ → σ → Option (Res o × σ)) (I : σ → Prop) (R : σ → σ → Prop)
    (G : Op → σ → σ → Prop) (Q : α → σ → Prop) (p : Prog Op Res α) (s : σ) : Prop :=
  (∃ a s0, p = .ret a ∧ Q a s0) ∨ ∃ P, Stable I R P ∧ P s ∧ p.Sat exec I R G Q P

lemma OnCourse.disturb {s' : σ} (h : p.OnCourse exec I R G Q s) (hI : I s) (hI' : I s')
    (hR : R s s') : p.OnCourse exec I R G Q s' := by
  rcases h with h | ⟨P, hst, hp, hk⟩
  · exact .inl h
  · exact .inr ⟨P, hst, hst s s' hI hI' hR hp, hk⟩

lemma OnCourse.act {o : Op} {k : Res o → Prog Op Res α} {s' : σ} {x : χ} {r : Res o}
    (h : (Prog.op o k).OnCourse exec I R G Q s) (hI : I s) (hx : exec o x s = some (r, s')) :
    I s' ∧ G o s s' ∧ ∃ P, Stable I R P ∧ P s' ∧ (k r).Sat exec I R G Q P := by
  rcases h with ⟨a, s0, ha, -⟩ | ⟨P, -, hp, hk⟩
  · cases ha
  · exact hk s hI hp x r s' hx

lemma OnCourse.ret {a : α} (h : (Prog.ret a : Prog Op Res α).OnCourse exec I R G Q s) (hI : I s) :
    ∃ s0, Q a s0 := by
  rcases h with ⟨a', s0, ha, hq⟩ | ⟨P, -, hp, hk⟩
  · cases ha; exact ⟨s0, hq⟩
  · exact ⟨s, hk s hI hp⟩

end Prog

namespace System

variable {M : System Op Res σ χ L α}

/-! ### One program in any environment -/

variable {i : ℕ} {l : L} {init : σ → Prop}

/-- Every request's program is correct, and what one may do the others can bear, unless the two
are never in progress together. -/
structure Verified (M : System Op Res σ χ L α) (I : σ → Prop) (rely : L → σ → σ → Prop)
    (guar : L → Op → σ → σ → Prop) (pre : L → σ → Prop) (post : L → α → σ → Prop) : Prop where
  sat l : (M.code l).Sat M.exec I (rely l) (guar l) (post l) (pre l)
  stable l : Stable I (rely l) (pre l)
  start l s : I s → pre l s
  compat {l l' o s s'} : M.excl l l' = false → I s → I s' → guar l o s s' → rely l' s s'
  symm l l' : M.excl l l' = M.excl l' l

/-- Two programs of the pool are apart when one has returned or neither excludes the other. -/
def Apart (M : System Op Res σ χ L α) (t t' : Thread Op Res L α) : Prop :=
  t.prog.finished ∨ t'.prog.finished ∨ M.excl t.label t'.label = false

lemma Apart.symm {t t' : Thread Op Res L α} (h : M.Apart t t')
    (hsymm : ∀ l l', M.excl l l' = M.excl l' l) : M.Apart t' t := by
  rcases h with h | h | h
  · exact .inr (.inl h)
  · exact .inl h
  · exact .inr (.inr (hsymm _ _ ▸ h))

def Separate (M : System Op Res σ χ L α) (pool : List (Thread Op Res L α)) : Prop :=
  ∀ (i j : ℕ) t t', i ≠ j → pool[i]? = some t → pool[j]? = some t' → M.Apart t t'

lemma getElem?_concat {β : Type} {l : List β} {a b : β} (h : (l ++ [a])[i]? = some b) :
    l[i]? = some b ∨ (i = l.length ∧ b = a) := by
  rcases Nat.lt_or_ge i l.length with hi | hi
  · exact .inl (by rwa [List.getElem?_append_left hi] at h)
  · rw [List.getElem?_append_right hi] at h
    obtain ⟨hlt, rfl⟩ := List.getElem?_eq_some_iff.mp h
    simp only [List.length_singleton] at hlt
    exact .inr ⟨by omega, by simp⟩

lemma getElem?_of_set {β : Type} {l : List β} {a b d : β} {j : ℕ} (hi : l[i]? = some a)
    (h : (l.set i b)[j]? = some d) : (i = j ∧ d = b) ∨ (i ≠ j ∧ l[j]? = some d) := by
  by_cases hij : i = j
  · subst hij
    rw [List.getElem?_set_self (List.getElem?_eq_some_iff.mp hi).1] at h
    exact .inl ⟨rfl, (Option.some.inj h).symm⟩
  · exact .inr ⟨hij, by rwa [List.getElem?_set_ne hij] at h⟩

lemma getElem?_of_act {pool : List (Thread Op Res L α)} {o : Op} {k : Res o → Prog Op Res α}
    {p : Prog Op Res α} {t : Thread Op Res L α} {j : ℕ} (hi : pool[i]? = some ⟨l, .op o k⟩)
    (h : (pool.set i ⟨l, p⟩)[j]? = some t) : ∃ t0 : Thread Op Res L α,
      pool[j]? = some t0 ∧ t0.label = t.label ∧ (t0.prog.finished → t.prog.finished) := by
  rcases getElem?_of_set hi h with ⟨rfl, rfl⟩ | ⟨-, h⟩
  · exact ⟨_, hi, rfl, by simp [Prog.finished]⟩
  · exact ⟨t, h, rfl, id⟩

lemma Separate.spawn {c : Conf Op Res σ L α} (h : M.Separate c.pool)
    (hsymm : ∀ l l', M.excl l l' = M.excl l' l) (ha : M.admits l c) :
    M.Separate (c.pool ++ [⟨l, M.code l⟩]) := by
  have new : ∀ t ∈ c.pool, M.Apart t ⟨l, M.code l⟩ := by
    intro t ht
    have := List.all_eq_true.mp ha t ht
    simp only [Bool.or_eq_true, Bool.not_eq_true'] at this
    rcases this with h | h
    · exact .inl h
    · exact .inr (.inr h)
  intro i j t t' hij hi hj
  rcases getElem?_concat hi with hi | ⟨hi, rfl⟩ <;>
    rcases getElem?_concat hj with hj | ⟨hj, rfl⟩
  · exact h i j t t' hij hi hj
  · exact new t (List.mem_of_getElem? hi)
  · exact (new t' (List.mem_of_getElem? hj)).symm hsymm
  · omega

lemma Separate.act {pool : List (Thread Op Res L α)} (h : M.Separate pool) {o : Op}
    {k : Res o → Prog Op Res α} (hi : pool[i]? = some ⟨l, .op o k⟩) (r : Res o) :
    M.Separate (pool.set i ⟨l, k r⟩) := by
  intro j j' t t' hjj hj hj'
  obtain ⟨t0, h0, hl, hf⟩ := getElem?_of_act hi hj
  obtain ⟨t0', h0', hl', hf'⟩ := getElem?_of_act hi hj'
  rcases h j j' t0 t0' hjj h0 h0' with h | h | h
  · exact .inl (hf h)
  · exact .inr (.inl (hf' h))
  · exact .inr (.inr (hl ▸ hl' ▸ h))

structure Ordered (M : System Op Res σ χ L α) (I : σ → Prop) (rely : L → σ → σ → Prop)
    (guar : L → Op → σ → σ → Prop) (post : L → α → σ → Prop) (c : Conf Op Res σ L α) : Prop where
  inv : I c.store
  course : ∀ t ∈ c.pool,
    t.prog.OnCourse M.exec I (rely t.label) (guar t.label) (post t.label) c.store
  apart : M.Separate c.pool

variable {I : σ → Prop} {rely : L → σ → σ → Prop}
  {guar : L → Op → σ → σ → Prop} {pre : L → σ → Prop}
  {post : L → α → σ → Prop} {c c' : Conf Op Res σ L α}

lemma Ordered.spawn (ho : M.Ordered I rely guar post c) (hsymm : ∀ l l', M.excl l l' = M.excl l' l)
    (ha : M.admits l c) (hl : (M.code l).OnCourse M.exec I (rely l) (guar l) (post l) c.store) :
    M.Ordered I rely guar post { c with pool := c.pool ++ [⟨l, M.code l⟩] } := by
  refine ⟨ho.inv, ?_, ho.apart.spawn hsymm ha⟩
  intro t ht
  rcases List.mem_append.mp ht with ht | ht
  · exact ho.course t ht
  · rw [List.mem_singleton.mp ht]
    exact hl

lemma Ordered.act (ho : M.Ordered I rely guar post c)
    (compat : ∀ {l l' o s s'}, M.excl l l' = false → I s → I s' → guar l o s s' → rely l' s s')
    (h : M.Act i c c') : M.Ordered I rely guar post c' ∧
      ∀ l o k, c.pool[i]? = some ⟨l, .op o k⟩ → guar l o c.store c'.store := by
  cases h with
  | @mk s s' pool l o k x r hi hx =>
    obtain ⟨hI, hcourse, hapart⟩ := ho
    obtain ⟨hI', hg, hk⟩ := (hcourse _ (List.mem_of_getElem? hi)).act hI hx
    -- the other programs have returned, or can bear what this one may do
    have hother : ∀ (j : ℕ) (t : Thread Op Res L α), i ≠ j → pool[j]? = some t →
        t.prog.OnCourse M.exec I (rely t.label) (guar t.label) (post t.label) s' := by
      intro j t hj ht
      have hc := hcourse t (List.mem_of_getElem? ht)
      rcases hapart i j _ t hj hi ht with h | h | h
      · cases h
      · obtain ⟨l', p⟩ := t
        cases p with
        | op o k => cases h
        | ret a =>
          obtain ⟨s0, hq⟩ := hc.ret hI
          exact .inl ⟨a, s0, rfl, hq⟩
      · exact hc.disturb hI hI' (compat h hI hI' hg)
    refine ⟨⟨hI', ?_, hapart.act hi r⟩, fun _ _ _ ht => by cases hi.symm.trans ht; exact hg⟩
    intro t ht
    obtain ⟨j, hj⟩ := List.mem_iff_getElem?.mp ht
    rcases getElem?_of_set hi hj with ⟨rfl, rfl⟩ | ⟨hij, hj⟩
    · exact .inr hk
    · exact hother j t hij hj

lemma Verified.act (hv : M.Verified I rely guar pre post) (ho : M.Ordered I rely guar post c)
    (h : M.Act i c c') : M.Ordered I rely guar post c' ∧
      ∀ l o k, c.pool[i]? = some ⟨l, .op o k⟩ → guar l o c.store c'.store :=
  ho.act hv.compat h

variable {tends : L → Prop} {N : σ → Prop}

end System

end Seaplane.Lib
