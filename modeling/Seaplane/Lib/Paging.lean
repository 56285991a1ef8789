import Mathlib.Data.List.Perm.Basic
import Mathlib.Data.List.Nodup
import Mathlib.Tactic.Common

/-!
Pages of a list that is kept in order, taken by offset.

A reader takes `n` elements from an offset on, and then again from where the page ended, while the
list may change between the pages. What a page shows of an element is decided by how many elements
come before it, so an element that keeps its rank is on exactly one page.
-/

namespace Seaplane.Lib.Paging

variable {α : Type} {f : α → ℕ} {a : α} {l l' : List α} {n o p : ℕ}

/-- In order, without two elements of one number. -/
abbrev Ordered (f : α → ℕ) (l : List α) : Prop := l.Pairwise fun a b => f a < f b

def rank (f : α → ℕ) (a : α) (l : List α) : ℕ := l.countP fun b => f b < f a

/-- A page: `n` elements from `o` on. -/
def window (n o : ℕ) (l : List α) : List α := (l.drop o).take n

/-- The pages of successive lists, from an offset on. -/
def walk (n : ℕ) : ℕ → List (List α) → List α
  | _, [] => []
  | o, l :: ls => window n o l ++ walk n (o + n) ls

def Ends (n : ℕ) : ℕ → List (List α) → Prop
  | _, [] => False
  | o, [l] => (window n o l).length < n
  | o, _ :: ls => Ends n (o + n) ls

lemma Ordered.nodup (h : Ordered f l) : l.Nodup :=
  List.Pairwise.imp (fun hlt heq => by rw [heq] at hlt; omega) h

lemma rank_lt_length (ha : a ∈ l) : rank f a l < l.length := by
  unfold rank
  have hle := List.countP_le_length (p := fun b => decide (f b < f a)) (l := l)
  rcases Nat.lt_or_eq_of_le hle with hlt | heq
  · exact hlt
  · have hall := List.countP_eq_length.mp heq a ha
    simp at hall

/-- The rank counts what comes before, whatever comes after. -/
lemma rank_congr (h : Ordered f l) (h' : Ordered f l')
    (hsame : ∀ b, f b < f a → (b ∈ l ↔ b ∈ l')) : rank f a l = rank f a l' := by
  unfold rank
  rw [List.countP_eq_length_filter, List.countP_eq_length_filter]
  refine List.Perm.length_eq ((List.perm_ext_iff_of_nodup (h.nodup.filter _)
    (h'.nodup.filter _)).mpr fun b => ?_)
  simp only [List.mem_filter, decide_eq_true_eq]
  exact and_congr_left fun hb => hsame b hb

variable [BEq α] [LawfulBEq α]

lemma count_window (h : Ordered f l) (ha : a ∈ l) :
    (window n o l).count a = if o ≤ rank f a l ∧ rank f a l < o + n then 1 else 0 := by
  induction l generalizing n o with
  | nil => cases ha
  | cons b l ih =>
    obtain ⟨hb, hl⟩ := List.pairwise_cons.mp h
    by_cases hab : a = b
    · -- the first element: nothing comes before it, and it does not come again
      subst hab
      have hnot : a ∉ l := fun hmem => by
        have := hb a hmem
        omega
      have hrank : rank f a (a :: l) = 0 := by
        refine List.countP_eq_zero.mpr fun c hc => ?_
        rcases List.mem_cons.mp hc with rfl | hc
        · simp
        · have := hb c hc
          simp only [decide_eq_true_eq]
          omega
      rw [hrank]
      cases o with
      | zero =>
        cases n with
        | zero => simp [window]
        | succ n =>
          have hcount : (l.take n).count a = 0 :=
            List.count_eq_zero.mpr fun hmem => hnot (List.mem_of_mem_take hmem)
          simp [window, hcount]
      | succ o =>
        have hcount : ((l.drop o).take n).count a = 0 :=
          List.count_eq_zero.mpr fun hmem => hnot (List.mem_of_mem_drop (List.mem_of_mem_take hmem))
        simp [window, hcount]
    · have hmem : a ∈ l := (List.mem_cons.mp ha).resolve_left hab
      have hrank : rank f a (b :: l) = rank f a l + 1 := by
        simp [rank, hb a hmem]
      rw [hrank]
      cases o with
      | zero =>
        cases n with
        | zero => simp [window]
        | succ n =>
          have := ih (n := n) (o := 0) hl hmem
          simp only [window, List.drop_zero, List.take_succ_cons, Nat.zero_add, Nat.zero_le,
            true_and] at this ⊢
          rw [List.count_cons_of_ne (Ne.symm hab), this]
          simp
      | succ o =>
        have := ih (n := n) (o := o) hl hmem
        simp only [window, List.drop_succ_cons] at this ⊢
        rw [this]
        congr 1
        simp only [eq_iff_iff]
        omega

/-- **An element that keeps its rank is on one page**, if its rank is not before the first. -/
lemma count_walk {ls : List (List α)} (hend : Ends n o ls)
    (hl : ∀ l ∈ ls, Ordered f l ∧ a ∈ l ∧ rank f a l = p) :
    (walk n o ls).count a = if o ≤ p then 1 else 0 := by
  induction ls generalizing o with
  | nil => cases hend
  | cons l ls ih =>
    obtain ⟨hord, hmem, hrank⟩ := hl l List.mem_cons_self
    have hrest : ∀ l ∈ ls, Ordered f l ∧ a ∈ l ∧ rank f a l = p :=
      fun l hl' => hl l (List.mem_cons_of_mem _ hl')
    rw [walk, List.count_append, count_window hord hmem, hrank]
    cases ls with
    | nil =>
      -- the last page ends where the list does
      have hlen : (window n o l).length < n := hend
      have hlt : p < l.length := hrank ▸ rank_lt_length hmem
      simp only [window, List.length_take, List.length_drop] at hlen
      simp only [walk, List.count_nil, Nat.add_zero]
      by_cases h1 : o ≤ p
      · rw [if_pos ⟨h1, by omega⟩, if_pos h1]
      · rw [if_neg (by omega), if_neg h1]
    | cons l' ls =>
      rw [ih hend hrest]
      by_cases h1 : o ≤ p
      · by_cases h2 : p < o + n
        · rw [if_pos ⟨h1, h2⟩, if_neg (by omega), if_pos h1]
        · rw [if_neg (by omega), if_pos (by omega), if_pos h1]
      · rw [if_neg (by omega), if_neg (by omega), if_neg h1]

end Seaplane.Lib.Paging
