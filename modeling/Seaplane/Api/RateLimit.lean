import Mathlib.Data.List.Count
import Mathlib.Data.List.Induction
import Seaplane.Lib.Gcra
import Seaplane.Lib.Machine

/-!
The rate limiter of the API that keeps its state in memory, and the configuration it is used with.

The limiter keeps for each key the theoretical arrival time of its next call. An allowed call sweeps
out the arrival times that have passed. What it answers is what the generic cell rate algorithm
says, key by key, and the sweep makes no difference to it.
-/

namespace Seaplane.Api.RateLimit

open Lib

/-! ### The limiter -/

/-- Durations are in nanoseconds. -/
structure Limit where
  rate : ℤ
  burst : ℤ
  period : ℤ

structure Result where
  allowed : ℤ
  remaining : ℤ
  retryAfter : ℤ
  resetAfter : ℤ
  deriving DecidableEq

def Limit.emissionInterval (l : Limit) : ℤ := l.period.tdiv l.rate

def Limit.burstOffset (l : Limit) : ℤ := l.emissionInterval * l.burst

/-- The arrival time a call at `now` starts from. -/
def tatAt (now : ℤ) : Option ℤ → ℤ
  | none => now
  | some tat => if tat < now then now else tat

/-- The part of `Allow` between the lookup and the store: the answer, and the arrival time that is
stored when the call is allowed. -/
def Limit.check (l : Limit) (now : ℤ) (entry : Option ℤ) : Result × Option ℤ :=
  let tat := tatAt now entry
  let newTAT := tat + l.emissionInterval
  let allowAt := newTAT - l.burstOffset
  let diff := now - allowAt
  if diff < 0 then
    let resetAfter := tat - now
    (⟨0, 0, allowAt - now, if resetAfter < 0 then 0 else resetAfter⟩, none)
  else
    let remaining := diff.tdiv l.emissionInterval
    let resetAfter := newTAT - now
    (⟨1, if l.burst < remaining then l.burst else remaining, -1,
      if resetAfter < 0 then 0 else resetAfter⟩, some newTAT)

/-- `localLimiter.entries`. -/
abbrev Entries := String → Option ℤ

/-- `cleanup`: the arrival times that have passed go. -/
def cleanup (now : ℤ) (m : Entries) : Entries :=
  fun k => (m k).filter fun tat => !decide (tat < now)

structure Call where
  key : String
  now : ℤ

variable (limits : String → Limit) (sweep : ℤ → Entries → Entries)

/-- `Allow`, with what an allowed call does to the entries in the end. -/
def allowWith (m : Entries) (c : Call) : Result × Entries :=
  match (limits c.key).check c.now (m c.key) with
  | (r, none) => (r, m)
  | (r, some newTAT) => (r, sweep c.now (Function.update m c.key (some newTAT)))

/-- `localLimiter.Allow`. -/
def allow : Entries → Call → Result × Entries := allowWith limits cleanup

def entriesAfter (m : Entries) (calls : List Call) : Entries :=
  calls.foldl (fun m c => (allowWith limits sweep m c).2) m

def log : Entries → List Call → List (Call × Result)
  | _, [] => []
  | m, c :: cs => (c, (allowWith limits sweep m c).1) :: log (allowWith limits sweep m c).2 cs

/-- `NewLocalRateLimiter`. -/
def noEntries : Entries := fun _ => none

/-- What the limiter answers a call after some others. -/
def answer (before : List Call) (c : Call) : Result :=
  (allow limits (entriesAfter limits cleanup noEntries before) c).1

/-- How many calls on a key were allowed in the window from `t` to `t + T`. -/
def allowedIn (k : String) (t T : ℤ) (es : List (Call × Result)) : ℕ :=
  es.countP fun e => e.1.key = k ∧ t ≤ e.1.now ∧ e.1.now ≤ t + T ∧ e.2.allowed = 1

def allowedOn (k : String) (es : List (Call × Result)) : ℕ :=
  es.countP fun e => e.1.key = k ∧ e.2.allowed = 1

abbrev unswept : ℤ → Entries → Entries := fun _ m => m

/-- The clock does not go back. -/
def InOrder (calls : List Call) : Prop := calls.Pairwise fun c d => c.now ≤ d.now

/-! ### One call -/

def Limit.gcra (l : Limit) : Gcra := ⟨l.emissionInterval, l.burst⟩

/-- The emission interval is positive, and at least one call is allowed at a time. -/
structure Limit.Sound (l : Limit) : Prop where
  interval : 0 < l.emissionInterval
  burst : 1 ≤ l.burst

variable {limits sweep} {l : Limit} {now : ℤ} {entry entry' : Option ℤ}

lemma tatAt_eq (now : ℤ) (entry : Option ℤ) : tatAt now entry = Gcra.arrival now entry := by
  cases entry with
  | none => rfl
  | some tat =>
    simp only [tatAt, Gcra.arrival_some]
    split
    · next h => exact (max_eq_left h.le).symm
    · next h => exact (max_eq_right (not_lt.mp h)).symm

lemma check_denied (h : ¬l.gcra.Conforms now entry) : l.check now entry =
    (⟨0, 0, -l.gcra.slack now entry, Gcra.arrival now entry - now⟩, none) := by
  have hneg : now - (Gcra.arrival now entry + l.emissionInterval - l.burstOffset) < 0 :=
    not_le.mp h
  have hreset : ¬Gcra.arrival now entry - now < 0 := by
    have := Gcra.le_arrival now entry
    omega
  simp only [Limit.check, tatAt_eq]
  rw [if_pos hneg, if_neg hreset]
  simp only [Gcra.slack, Limit.gcra, Limit.burstOffset, neg_sub]

lemma check_allowed (hl : l.Sound) (h : l.gcra.Conforms now entry) : l.check now entry =
    (⟨1, l.gcra.slack now entry / l.emissionInterval, -1,
      Gcra.arrival now entry + l.emissionInterval - now⟩,
        some (Gcra.arrival now entry + l.emissionInterval)) := by
  have hpos : 0 ≤ l.gcra.slack now entry := h
  have hneg : ¬now - (Gcra.arrival now entry + l.emissionInterval - l.burstOffset) < 0 :=
    not_lt.mpr h
  have hreset : ¬Gcra.arrival now entry + l.emissionInterval - now < 0 := by
    have := Gcra.le_arrival now entry
    have := hl.interval
    omega
  have hcap : ¬l.burst < l.gcra.slack now entry / l.emissionInterval := by
    have hle : l.gcra.slack now entry ≤ l.emissionInterval * (l.burst - 1) := Gcra.slack_le
    have hdiv := Int.ediv_le_ediv hl.interval hle
    rw [Int.mul_ediv_cancel_left _ hl.interval.ne'] at hdiv
    omega
  have hslack : now - (Gcra.arrival now entry + l.emissionInterval - l.burstOffset) =
      l.gcra.slack now entry := rfl
  simp only [Limit.check, tatAt_eq]
  rw [if_neg hneg, if_neg hreset, hslack, Int.tdiv_eq_ediv_of_nonneg hpos, if_neg hcap]

lemma check_fst_allowed (hl : l.Sound) :
    (l.check now entry).1.allowed = if l.gcra.Conforms now entry then 1 else 0 := by
  by_cases h : l.gcra.Conforms now entry
  · rw [check_allowed hl h, if_pos h]
  · rw [check_denied h, if_neg h]

lemma check_alike (h : Gcra.Alike now entry entry') : l.check now entry = l.check now entry' := by
  simp only [Limit.check, tatAt_eq]
  rw [h now le_rfl]

/-! ### Sweeping makes no difference -/

/-- From `now` on the limiter cannot tell the entries apart. -/
def Alike (now : ℤ) (m m' : Entries) : Prop := ∀ k, Gcra.Alike now (m k) (m' k)

variable {m m' : Entries} {k : String} {c : Call} {calls : List Call}

lemma alike_cleanup (h : Alike now m m') : Alike now (cleanup now m) m' := by
  intro k
  simp only [cleanup]
  cases hm : m k with
  | none =>
    have hk := h k
    rw [hm] at hk
    exact hk
  | some tat =>
    have hk := h k
    rw [hm] at hk
    by_cases ht : tat < now
    · simp only [Option.filter, ht, decide_true, Bool.not_true]
      exact fun t hle => (Gcra.alike_none ht t hle).symm.trans (hk t hle)
    · simpa only [Option.filter, ht, decide_false, Bool.not_false, if_true] using hk

lemma alike_update {tat : ℤ} (h : Alike now m m') :
    Alike now (Function.update m k (some tat)) (Function.update m' k (some tat)) := by
  intro k'
  by_cases hk : k' = k
  · subst hk
    simp only [Function.update_self]
    exact fun _ _ => rfl
  · simpa only [Function.update_of_ne hk] using h k'

lemma alike_allow (h : Alike c.now m m') :
    (allow limits m c).1 = (allowWith limits unswept m' c).1 ∧
      Alike c.now (allow limits m c).2 (allowWith limits unswept m' c).2 := by
  unfold allow allowWith
  rw [check_alike (h c.key)]
  cases hc : (limits c.key).check c.now (m' c.key) with
  | mk r stored =>
    cases stored with
    | none => exact ⟨rfl, h⟩
    | some tat => exact ⟨rfl, alike_cleanup (alike_update h)⟩

lemma log_alike {t : ℤ} (ho : InOrder calls) (ht : ∀ c ∈ calls, t ≤ c.now) (h : Alike t m m') :
    log limits cleanup m calls = log limits unswept m' calls := by
  induction calls generalizing m m' t with
  | nil => rfl
  | cons c cs ih =>
    obtain ⟨hc, hcs⟩ := List.pairwise_cons.mp ho
    have hnow : Alike c.now m m' := fun k => (h k).later (ht c List.mem_cons_self)
    obtain ⟨hres, hnext⟩ := @alike_allow limits m m' c hnow
    have hrest := ih hcs hc hnext
    unfold allow at hres hrest
    rw [log, log, hres, hrest]

lemma log_cleanup (ho : InOrder calls) (m : Entries) :
    log limits cleanup m calls = log limits unswept m calls := by
  cases calls with
  | nil => rfl
  | cons c cs =>
    have hc := (List.pairwise_cons.mp ho).1
    exact log_alike ho (List.forall_mem_cons.mpr ⟨le_rfl, hc⟩) fun _ _ _ => rfl

lemma entriesAfter_alike (ho : InOrder calls) (hn : ∀ c ∈ calls, c.now ≤ now) (m : Entries) :
    Alike now (entriesAfter limits cleanup m calls) (entriesAfter limits unswept m calls) := by
  induction calls using List.reverseRecOn generalizing now with
  | nil => exact fun _ _ _ => rfl
  | append_singleton cs c ih =>
    obtain ⟨hcs, -, hc⟩ := List.pairwise_append.mp ho
    have hlast : Alike c.now (entriesAfter limits cleanup m cs)
      (entriesAfter limits unswept m cs) :=
      ih hcs fun d hd => hc d hd c (List.mem_singleton.mpr rfl)
    have hle : c.now ≤ now := hn c (List.mem_append_right cs (List.mem_singleton.mpr rfl))
    unfold entriesAfter
    rw [List.foldl_append, List.foldl_append]
    exact fun k => ((alike_allow hlast).2 k).later hle

lemma unswept_allow (hl : (limits c.key).Sound) (m : Entries) (k : String) :
    (allowWith limits unswept m c).2 k =
      if c.key = k then (limits k).gcra.next c.now (m k) else m k := by
  by_cases h : (limits c.key).gcra.Conforms c.now (m c.key)
  · simp only [allowWith, unswept, check_allowed hl h]
    by_cases hk : c.key = k
    · subst hk
      rw [Function.update_self, if_pos rfl, Gcra.next, if_pos h]
      rfl
    · rw [Function.update_of_ne (Ne.symm hk), if_neg hk]
  · simp only [allowWith, check_denied h]
    by_cases hk : c.key = k
    · subst hk
      rw [if_pos rfl, Gcra.next, if_neg h]
    · rw [if_neg hk]

lemma allowWith_fst (m : Entries) (c : Call) :
    (allowWith limits sweep m c).1 = ((limits c.key).check c.now (m c.key)).1 := by
  unfold allowWith
  cases hc : (limits c.key).check c.now (m c.key) with
  | mk r stored => cases stored <;> rfl

/-! ### The rate -/

section Rate

variable (hlimits : ∀ k, (limits k).Sound)
include hlimits

lemma counted_log {t T : ℤ} {n : ℕ} (calls : List Call)
    (h : (limits k).gcra.Counted t T n (m k)) : ∃ tat,
      (limits k).gcra.Counted t T (n + allowedIn k t T (log limits unswept m calls)) tat := by
  have hi : 0 ≤ (limits k).gcra.interval := (hlimits k).interval.le
  induction calls generalizing m n with
  | nil => exact ⟨_, h⟩
  | cons c cs ih =>
    have hstep := unswept_allow (hlimits c.key) m k
    simp only [log, allowedIn, List.countP_cons, allowWith_fst, check_fst_allowed (hlimits c.key)]
    by_cases hk : c.key = k
    · subst hk
      rw [if_pos rfl] at hstep
      by_cases hcount : t ≤ c.now ∧ c.now ≤ t + T ∧ (limits c.key).gcra.Conforms c.now (m c.key)
      · obtain ⟨h1, h2, hc⟩ := hcount
        have hnext := h.event hc h1 h2
        rw [← hstep] at hnext
        obtain ⟨tat, htat⟩ := ih hnext
        refine ⟨tat, ?_⟩
        simp only [h1, h2, hc, if_true, decide_true, and_self]
        rw [show ∀ a : ℕ, n + (a + 1) = n + 1 + a by omega]
        exact htat
      · have hnext : (limits c.key).gcra.Counted t T n ((limits c.key).gcra.next c.now (m c.key)) :=
          h.skip hi
        rw [← hstep] at hnext
        obtain ⟨tat, htat⟩ := ih hnext
        refine ⟨tat, ?_⟩
        have hno : ¬(t ≤ c.now ∧ c.now ≤ t + T ∧
            (if (limits c.key).gcra.Conforms c.now (m c.key) then (1 : ℤ) else 0) = 1) := by
          rintro ⟨h1, h2, h3⟩
          refine hcount ⟨h1, h2, ?_⟩
          by_contra hc
          rw [if_neg hc] at h3
          cases h3
        simp only [true_and, hno, decide_false, if_false, Bool.false_eq_true, add_zero]
        exact htat
    · rw [if_neg hk] at hstep
      rw [← hstep] at h
      obtain ⟨tat, htat⟩ := ih h
      refine ⟨tat, ?_⟩
      simp only [hk, false_and, decide_false, if_false, Bool.false_eq_true, add_zero]
      exact htat

lemma allowedIn_le (calls : List Call) (k : String) (t : ℤ) {T : ℤ}
    (hT : 0 ≤ T) : (allowedIn k t T (log limits unswept noEntries calls) : ℤ) ≤
      (limits k).burst + T / (limits k).emissionInterval := by
  have hburst : 0 ≤ (limits k).gcra.burst := by
    have : 1 ≤ (limits k).gcra.burst := (hlimits k).burst
    omega
  have h0 : (limits k).gcra.Counted t T 0 (noEntries k) :=
    Gcra.counted_zero (hlimits k).interval.le hburst hT
  obtain ⟨tat, htat⟩ := counted_log hlimits calls h0
  rw [Nat.zero_add] at htat
  exact htat.le (hlimits k).interval

/-! ### Calls at one instant -/

lemma allowedOn_log {now : ℤ} (hn : ∀ c ∈ calls, c.now = now)
    (m : Entries) : allowedOn k (log limits unswept m calls) =
      min (calls.countP (·.key = k)) ((limits k).gcra.room now (m k)) := by
  have hpos : 0 < (limits k).gcra.interval := (hlimits k).interval
  induction calls generalizing m with
  | nil => simp [log, allowedOn]
  | cons c cs ih =>
    have hrest := ih (fun d hd => hn d (List.mem_cons_of_mem c hd)) (allowWith limits unswept m c).2
    rw [unswept_allow (hlimits c.key) m k] at hrest
    have hc : c.now = now := hn c List.mem_cons_self
    simp only [log, allowedOn, List.countP_cons, allowWith_fst,
      check_fst_allowed (hlimits c.key)] at hrest ⊢
    rw [hrest]
    by_cases hk : c.key = k
    · subst hk
      by_cases hconf : (limits c.key).gcra.Conforms now (m c.key)
      · simp only [hc, hconf, if_true, decide_true, and_self]
        rw [Gcra.room_next hconf hpos]
        omega
      · have hnext : (limits c.key).gcra.next now (m c.key) = m c.key := if_neg hconf
        simp only [hc, hconf, if_true, if_false, hnext]
        rw [Gcra.room_eq_zero hconf hpos]
        simp
    · simp only [hk, if_false, false_and, decide_false, Bool.false_eq_true, add_zero]

lemma remaining_exact {more : List Call} (hn : ∀ d ∈ more, d.now = c.now)
    (m : Entries) : (allowedOn c.key (log limits cleanup (allow limits m c).2 more) : ℤ) =
      min (more.countP (·.key = c.key) : ℤ) (allow limits m c).1.remaining := by
  have hpos : 0 < (limits c.key).gcra.interval := (hlimits c.key).interval
  have hself : Alike c.now m m := fun _ _ _ => rfl
  have horder : InOrder more :=
    List.pairwise_of_forall_mem_list fun d hd d' hd' => by rw [hn d hd, hn d' hd']
  have hmore : ∀ d ∈ more, c.now ≤ d.now := fun d hd => (hn d hd).ge
  rw [log_alike horder hmore (alike_allow hself).2, allowedOn_log hlimits hn,
    unswept_allow (hlimits c.key), if_pos rfl, Nat.cast_min]
  unfold allow
  rw [allowWith_fst]
  by_cases hconf : (limits c.key).gcra.Conforms c.now (m c.key)
  · rw [Gcra.room_after hconf hpos, check_allowed (hlimits c.key) hconf]
    rfl
  · have hnext : (limits c.key).gcra.next c.now (m c.key) = m c.key := if_neg hconf
    rw [hnext, Gcra.room_eq_zero hconf hpos, check_denied hconf]
    rfl

/-! ### After a denial -/

lemma entriesAfter_other (h : ∀ c ∈ calls, c.key ≠ k) (m : Entries) :
    entriesAfter limits unswept m calls k = m k := by
  induction calls generalizing m with
  | nil => rfl
  | cons c cs ih =>
    have hne : c.key ≠ k := h c List.mem_cons_self
    have hrest := ih (fun d hd => h d (List.mem_cons_of_mem c hd)) (allowWith limits unswept m c).2
    rw [unswept_allow (hlimits c.key), if_neg hne] at hrest
    exact hrest

omit hlimits in
lemma answer_eq {before : List Call} (ho : InOrder (before ++ [c])) :
    answer limits before c =
      ((limits c.key).check c.now (entriesAfter limits unswept noEntries before c.key)).1 := by
  obtain ⟨hb, -, hc⟩ := List.pairwise_append.mp ho
  have halike := @entriesAfter_alike limits c.now before hb
    (fun d hd => hc d hd c (List.mem_singleton.mpr rfl)) noEntries
  unfold answer allow
  rw [allowWith_fst, check_alike (halike c.key)]

/-- A call on a key that was turned away is turned away until `RetryAfter` has passed, and then it
is allowed. -/
lemma retryAfter_exact {before between : List Call} {c' : Call}
    (ho : InOrder (before ++ c :: between ++ [c'])) (hd : (answer limits before c).allowed = 0)
    (hb : ∀ d ∈ between, d.key ≠ c.key) (hk : c'.key = c.key) :
    (answer limits (before ++ c :: between) c').allowed =
      if c'.now < c.now + (answer limits before c).retryAfter then 0 else 1 := by
  have hfirst : InOrder (before ++ [c]) := by
    refine ho.sublist (List.Sublist.trans ?_ (List.sublist_append_left _ _))
    exact (List.Sublist.refl before).append (List.singleton_sublist.mpr List.mem_cons_self)
  rw [answer_eq hfirst] at hd ⊢
  rw [answer_eq ho, hk]
  have hl := hlimits c.key
  generalize hm : entriesAfter limits unswept noEntries before = m at hd ⊢
  have hdeny : ¬(limits c.key).gcra.Conforms c.now (m c.key) := by
    intro hconf
    rw [check_fst_allowed hl, if_pos hconf] at hd
    cases hd
  have hentry : entriesAfter limits unswept noEntries (before ++ c :: between) c.key = m c.key := by
    have hstep := unswept_allow (hlimits c.key) m c.key
    rw [if_pos rfl, Gcra.next, if_neg hdeny] at hstep
    rw [← hm] at hstep ⊢
    rw [← hstep]
    unfold entriesAfter
    rw [List.foldl_append, List.foldl_cons]
    exact entriesAfter_other hlimits hb _
  rw [hentry, check_fst_allowed hl, check_denied hdeny]
  have hlater := Gcra.conforms_later hl.interval.le hl.burst hdeny c'.now
  by_cases hconf : (limits c.key).gcra.Conforms c'.now (m c.key)
  · have hle := hlater.mp hconf
    rw [if_pos hconf, if_neg (by simp only; omega)]
  · have hlt : c'.now < c.now - (limits c.key).gcra.slack c.now (m c.key) :=
      not_le.mp fun hle => hconf (hlater.mpr hle)
    rw [if_neg hconf, if_pos (by simp only; omega)]

omit hlimits in
lemma remaining_nonneg (hl : (limits c.key).Sound) (m : Entries) :
    0 ≤ (allow limits m c).1.remaining := by
  unfold allow
  rw [allowWith_fst]
  by_cases hconf : (limits c.key).gcra.Conforms c.now (m c.key)
  · rw [check_allowed hl hconf]
    exact Int.ediv_nonneg hconf hl.interval.le
  · rw [check_denied hconf]

end Rate

/-- **The limiter enforces its rate.** In a window of length `T` no more calls on a key are allowed
than the burst and one for each interval; what remains is what is still allowed at the same instant;
a call that was turned away is turned away until `RetryAfter` has passed and allowed after that; and
the sweep changes no answer. -/
theorem limiter_enforces_rate {limits : String → Limit} (hlimits : ∀ k, (limits k).Sound) :
    (∀ calls, InOrder calls → ∀ (k : String) (t T : ℤ), 0 ≤ T →
      (allowedIn k t T (log limits cleanup noEntries calls) : ℤ) ≤
        (limits k).burst + T / (limits k).emissionInterval) ∧
    (∀ before c more, InOrder (before ++ c :: more) → (∀ d ∈ more, d.now = c.now) →
      0 ≤ (answer limits before c).remaining ∧
      (allowedOn c.key (log limits cleanup
        (entriesAfter limits cleanup noEntries (before ++ [c])) more) : ℤ) =
          min (more.countP (·.key = c.key) : ℤ) (answer limits before c).remaining) ∧
    (∀ before c between c', InOrder (before ++ c :: between ++ [c']) →
      (answer limits before c).allowed = 0 → (∀ d ∈ between, d.key ≠ c.key) → c'.key = c.key →
      (answer limits (before ++ c :: between) c').allowed =
        if c'.now < c.now + (answer limits before c).retryAfter then 0 else 1) ∧
    ∀ calls, InOrder calls →
      log limits cleanup noEntries calls = log limits unswept noEntries calls := by
  refine ⟨?_, ?_, ?_, ?_⟩
  · intro calls ho k t T hT
    rw [log_cleanup ho]
    exact allowedIn_le hlimits calls k t hT
  · intro before c more _ hn
    refine ⟨remaining_nonneg (hlimits c.key) _, ?_⟩
    unfold entriesAfter
    rw [List.foldl_append]
    exact remaining_exact hlimits hn _
  · intro before c between c' ho hd hb hk
    exact retryAfter_exact hlimits ho hd hb hk
  · intro calls ho
    exact log_cleanup ho noEntries

/-- Two calls per second and a burst of three. -/
def twoPerSecond : Limit := ⟨2, 3, 1000000000⟩

/-- Of four calls at once the last one is turned away, and allowed half a second later. -/
theorem limiter_enforces_rate_burst :
    (answer (fun _ => twoPerSecond) [⟨"a", 0⟩, ⟨"a", 0⟩, ⟨"a", 0⟩] ⟨"a", 0⟩).allowed = 0 ∧
    (answer (fun _ => twoPerSecond) [⟨"a", 0⟩, ⟨"a", 0⟩, ⟨"a", 0⟩, ⟨"a", 0⟩, ⟨"b", 1⟩]
      ⟨"a", 500000000⟩).allowed = 1 ∧
    ∀ calls, InOrder calls → allowedIn "a" 0 1000000000
      (log (fun _ => twoPerSecond) cleanup noEntries calls) ≤ 5 := by
  have hsound : twoPerSecond.Sound := ⟨by decide, by decide⟩
  obtain ⟨hrate, -, hretry, -⟩ :=
    @limiter_enforces_rate (fun _ => twoPerSecond) fun _ => hsound
  refine ⟨by decide, ?_, fun calls ho => ?_⟩
  · have h := hretry [⟨"a", 0⟩, ⟨"a", 0⟩, ⟨"a", 0⟩] ⟨"a", 0⟩ [⟨"b", 1⟩] ⟨"a", 500000000⟩
      (by unfold InOrder; decide) (by decide) (by decide) rfl
    exact h.trans (by decide)
  · have h := hrate calls ho "a" 0 1000000000 (by decide)
    have hbound : twoPerSecond.burst + 1000000000 / twoPerSecond.emissionInterval = 5 := by decide
    simp only [hbound] at h
    omega

/-! ### The configuration -/

structure RouteLimit where
  path : String
  method : String
  rate : ℤ
  burst : ℤ
  /-- In seconds. -/
  window : ℤ

structure Config where
  enabled : Bool
  exemptAccounts : List String
  /-- In milliseconds. -/
  redisTimeout : ℤ
  default : RouteLimit
  routes : List RouteLimit

def RouteLimit.text (i : ℕ) (r : RouteLimit) : String :=
  "route " ++ toString i ++ " (" ++ r.method ++ " " ++ r.path ++ "): "

/-- The default limit with what was left out. -/
def loadDefault (r : RouteLimit) : Except String RouteLimit :=
  if r.rate < 0 then .error ("default rate must be >= 0, got " ++ toString r.rate)
  else
    let rate := if r.rate = 0 then 100 else r.rate
    if r.burst < 0 then .error ("default burst must be >= 0, got " ++ toString r.burst)
    else
      let burst := if r.burst = 0 then Machine.wrap (rate * 2) else r.burst
      if r.window < 0 then .error ("default window must be >= 0, got " ++ toString r.window)
      else .ok { r with rate, burst, window := if r.window = 0 then 1 else r.window }

/-- The limit of a route with what was left out. -/
def loadRoute (default : RouteLimit) (i : ℕ) (r : RouteLimit) : Except String RouteLimit :=
  if r.rate ≤ 0 then .error (r.text i ++ "rate must be > 0")
  else if r.burst < 0 then .error (r.text i ++ "burst must be >= 0")
  else if r.window < 0 then .error (r.text i ++ "window must be >= 0")
  else .ok { r with burst := if r.burst = 0 then Machine.wrap (r.rate * 2) else r.burst,
                    window := if r.window = 0 then default.window else r.window }

/-- The routes from the `i`-th on. -/
def loadRoutes (default : RouteLimit) : ℕ → List RouteLimit → Except String (List RouteLimit)
  | _, [] => .ok []
  | i, r :: rs => do
    let r ← loadRoute default i r
    let rs ← loadRoutes default (i + 1) rs
    return r :: rs

/-- `LoadConfig`, once the file is decoded. -/
def loadConfig (c : Config) : Except String Config := do
  let default ← loadDefault c.default
  let routes ← loadRoutes default 0 c.routes
  return { c with
    default, routes, redisTimeout := if c.redisTimeout ≤ 0 then 20 else c.redisTimeout }

def RouteLimit.limit (r : RouteLimit) : Limit := ⟨r.rate, r.burst, r.window * 1000000000⟩

structure RouteLimit.Usable (r : RouteLimit) : Prop where
  rate : 1 ≤ r.rate
  window : 1 ≤ r.window

lemma usable_loadDefault {r r' : RouteLimit} (h : loadDefault r = .ok r') : r'.Usable := by
  unfold loadDefault at h
  dsimp only at h
  split at h
  · cases h
  · split at h
    · cases h
    · split at h
      · cases h
      · cases h
        refine ⟨?_, ?_⟩ <;> simp only <;> split_ifs <;> omega

lemma usable_loadRoute {d r r' : RouteLimit} {i : ℕ} (hd : d.Usable)
    (h : loadRoute d i r = .ok r') : r'.Usable := by
  have hw := hd.window
  unfold loadRoute at h
  split at h
  · cases h
  · split at h
    · cases h
    · split at h
      · cases h
      · next hrate hburst hwindow =>
        cases h
        refine ⟨by simp only; omega, ?_⟩
        simp only
        split_ifs <;> omega

lemma usable_loadRoutes {d : RouteLimit} (hd : d.Usable) {i : ℕ} {rs rs' : List RouteLimit}
    (h : loadRoutes d i rs = .ok rs') : ∀ r ∈ rs', r.Usable := by
  induction rs generalizing i rs' with
  | nil =>
    cases h
    simp
  | cons r rs ih =>
    unfold loadRoutes at h
    cases hr : loadRoute d i r with
    | error e => rw [hr] at h; cases h
    | ok r1 =>
      cases hrs : loadRoutes d (i + 1) rs with
      | error e => rw [hr, hrs] at h; cases h
      | ok rs1 =>
        rw [hr, hrs] at h
        cases h
        exact List.forall_mem_cons.mpr ⟨usable_loadRoute hd hr, ih hrs⟩

theorem usable_loadConfig {c c' : Config} (h : loadConfig c = .ok c') :
    ∀ r ∈ c'.default :: c'.routes, r.Usable := by
  unfold loadConfig at h
  cases hd : loadDefault c.default with
  | error e => rw [hd] at h; cases h
  | ok d =>
    cases hr : loadRoutes d 0 c.routes with
    | error e => rw [hd] at h; simp only [bind, Except.bind, hr] at h; cases h
    | ok rs =>
      rw [hd] at h
      simp only [bind, Except.bind, hr] at h
      cases h
      have hdef := usable_loadDefault hd
      exact List.forall_mem_cons.mpr ⟨hdef, usable_loadRoutes hdef hr⟩

end Seaplane.Api.RateLimit
