import Seaplane.Api.RateLimit

/-!
The rate limiter on 64-bit integers.

The middleware finds the limit of a request and asks the limiter, which computes with durations in
nanoseconds. The same code runs over the arithmetic of the machine and over the checked one; what it
should compute is the algorithm on unbounded integers. Times are readings of one clock: adding a
duration to a time is exact (a sum beyond the range of the monotonic reading keeps its wall
reading), and a difference of times saturates.
-/

namespace Seaplane.Api.RateLimit

open Lib Lib.Machine

/-! ### One call on the machine -/

/-- `localLimiter.Allow` between the lookup and the store, with the period the middleware passes. -/
def RouteLimit.checkOn (A : Arith) (l : RouteLimit) (now : ℤ) (entry : Option ℤ) :
    Except Fault (Result × Option ℤ) := do
  let period ← A.int (l.window * 1000000000)
  let emissionInterval ← A.quot period l.rate
  let burstOffset ← A.int (emissionInterval * l.burst)
  let tat := tatAt now entry
  let newTAT := tat + emissionInterval
  let negOffset ← A.int (-burstOffset)
  let allowAt := newTAT + negOffset
  let diff ← A.span (now - allowAt)
  if diff < 0 then
    let retryAfter ← A.span (allowAt - now)
    let resetAfter ← A.span (tat - now)
    return (⟨0, 0, retryAfter, if resetAfter < 0 then 0 else resetAfter⟩, none)
  else
    let remaining ← A.quot diff emissionInterval
    let resetAfter ← A.span (newTAT - now)
    return (⟨1, if l.burst < remaining then l.burst else remaining, -1,
      if resetAfter < 0 then 0 else resetAfter⟩, some newTAT)

variable {A B : Arith} {l : RouteLimit} {now : ℤ} {entry : Option ℤ} {v : Result × Option ℤ}

lemma checkOn_within (h : A.Within B) (hv : l.checkOn A now entry = .ok v) :
    l.checkOn B now entry = .ok v := by
  simp only [RouteLimit.checkOn, tatAt_eq] at hv ⊢
  obtain ⟨period, hperiod, hv⟩ := except_bind_ok hv
  obtain ⟨interval, hinterval, hv⟩ := except_bind_ok hv
  obtain ⟨offset, hoffset, hv⟩ := except_bind_ok hv
  obtain ⟨neg, hneg, hv⟩ := except_bind_ok hv
  obtain ⟨diff, hdiff, hv⟩ := except_bind_ok hv
  simp only [h.int hperiod, h.quot hinterval, h.int hoffset, h.int hneg, h.span hdiff, bind,
    Except.bind]
  split at hv
  · next hlt =>
    obtain ⟨retry, hretry, hv⟩ := except_bind_ok hv
    obtain ⟨reset, hreset, hv⟩ := except_bind_ok hv
    simp only [if_pos hlt, h.span hretry, h.span hreset]
    exact hv
  · next hlt =>
    obtain ⟨remaining, hremaining, hv⟩ := except_bind_ok hv
    obtain ⟨reset, hreset, hv⟩ := except_bind_ok hv
    simp only [if_neg hlt, h.quot hremaining, h.span hreset]
    exact hv

lemma checkOn_unbounded (hv : l.checkOn unbounded now entry = .ok v) :
    v = l.limit.check now entry := by
  simp only [RouteLimit.checkOn, tatAt_eq] at hv
  obtain ⟨period, hperiod, hv⟩ := except_bind_ok hv
  obtain ⟨interval, hinterval, hv⟩ := except_bind_ok hv
  obtain ⟨offset, hoffset, hv⟩ := except_bind_ok hv
  obtain ⟨neg, hneg, hv⟩ := except_bind_ok hv
  obtain ⟨diff, hdiff, hv⟩ := except_bind_ok hv
  cases hperiod
  cases hoffset
  cases hneg
  cases hdiff
  unfold Arith.quot at hinterval hv
  split at hinterval
  · cases hinterval
  · cases hinterval
    simp only [← sub_eq_add_neg] at hv
    simp only [Limit.check, tatAt_eq, Limit.burstOffset, Limit.emissionInterval,
      RouteLimit.limit]
    split at hv
    · next hlt =>
      rw [if_pos hlt]
      cases hv
      rfl
    · next hlt =>
      rw [if_neg hlt]
      split at hv
      · cases hv
      · cases hv
        rfl

/-! ### When nothing is lost -/

/-- Alone the limit loses nothing: the window fits, the interval is not zero, the burst fits. -/
structure RouteLimit.Fits (l : RouteLimit) : Prop where
  period : l.limit.period < 2 ^ 63
  rate : l.rate ≤ l.limit.period
  offset : l.limit.burstOffset < 2 ^ 63

/-- How far in the future a call is allowed at most, when the arrival time is `ahead` of now. -/
def RouteLimit.wait (l : RouteLimit) (ahead : ℤ) : ℤ :=
  ahead + l.limit.emissionInterval - l.limit.burstOffset

lemma RouteLimit.Usable.interval_nonneg (hu : l.Usable) : 0 ≤ l.limit.emissionInterval := by
  have hrate := hu.rate
  have hwindow := hu.window
  have hperiod : 0 ≤ l.limit.period := by
    show 0 ≤ l.window * 1000000000
    omega
  exact Int.tdiv_nonneg hperiod (by show 0 ≤ l.rate; omega)

lemma RouteLimit.Fits.interval_pos (hf : l.Fits) (hu : l.Usable) :
    1 ≤ l.limit.emissionInterval := by
  have hrate := hu.rate
  have hle := hf.rate
  have hdiv : 1 ≤ l.limit.period / l.rate := Int.le_ediv_of_mul_le (by omega) (by omega)
  unfold Limit.emissionInterval
  rw [Int.tdiv_eq_ediv_of_nonneg (by omega)]
  exact hdiv

lemma checkOn_checked (hu : l.Usable) (hf : l.Fits) (hahead : Gcra.arrival now entry - now < 2 ^ 63)
    (hwait : l.wait (Gcra.arrival now entry - now) < 2 ^ 63) :
    l.checkOn checked now entry = .ok (l.limit.check now entry) := by
  suffices hok : ∃ v, l.checkOn checked now entry = .ok v by
    obtain ⟨v, hv⟩ := hok
    rw [hv, checkOn_unbounded (checkOn_within checked_within_unbounded hv)]
  have hrate := hu.rate
  have hpos := hf.interval_pos hu
  have hle := hf.rate
  have hoffset := hf.offset
  have harrival := Gcra.le_arrival now entry
  have hperiod : InRange (l.window * 1000000000) := ⟨by
    have : l.rate ≤ l.window * 1000000000 := hle
    omega, hf.period⟩
  have hnonneg : 0 ≤ l.window * 1000000000 := by
    have : l.rate ≤ l.window * 1000000000 := hle
    omega
  have hinterval : InRange ((l.window * 1000000000).tdiv l.rate) := hperiod.tdiv hnonneg (by omega)
  unfold RouteLimit.wait Limit.burstOffset at hwait
  unfold Limit.burstOffset at hoffset
  change 1 ≤ (l.window * 1000000000).tdiv l.rate at hpos
  change (l.window * 1000000000).tdiv l.rate * l.burst < 2 ^ 63 at hoffset
  change Gcra.arrival now entry - now + (l.window * 1000000000).tdiv l.rate -
    (l.window * 1000000000).tdiv l.rate * l.burst < 2 ^ 63 at hwait
  have h1 : checked.int (l.window * 1000000000) = .ok (l.window * 1000000000) :=
    checked_int_eq.mpr ⟨hperiod, rfl⟩
  have h2 : checked.quot (l.window * 1000000000) l.rate =
      .ok ((l.window * 1000000000).tdiv l.rate) :=
    checked_quot_eq.mpr ⟨by omega, hinterval, rfl⟩
  simp only [RouteLimit.checkOn, tatAt_eq, h1, h2, bind, Except.bind]
  -- from here on only the interval and the offset count
  generalize (l.window * 1000000000).tdiv l.rate = I at *
  generalize I * l.burst = B at *
  generalize Gcra.arrival now entry = tat at *
  have h3 : checked.int B = .ok B := checked_int_eq.mpr ⟨⟨by omega, hoffset⟩, rfl⟩
  have h4 : checked.int (-B) = .ok (-B) := checked_int_eq.mpr ⟨⟨by omega, by omega⟩, rfl⟩
  have h5 : checked.span (now - (tat + I + -B)) = .ok (now - (tat + I + -B)) :=
    checked_span_eq.mpr ⟨⟨by omega, by omega⟩, rfl⟩
  simp only [h3, h4, h5]
  split
  · next hlt =>
    have h6 : checked.span (tat + I + -B - now) = .ok (tat + I + -B - now) :=
      checked_span_eq.mpr ⟨⟨by omega, by omega⟩, rfl⟩
    have h7 : checked.span (tat - now) = .ok (tat - now) :=
      checked_span_eq.mpr ⟨⟨by omega, by omega⟩, rfl⟩
    simp only [h6, h7]
    exact ⟨_, rfl⟩
  · next hlt =>
    have hdiff : InRange (now - (tat + I + -B)) := ⟨by omega, by omega⟩
    have h6 : checked.quot (now - (tat + I + -B)) I = .ok ((now - (tat + I + -B)).tdiv I) :=
      checked_quot_eq.mpr ⟨by omega, hdiff.tdiv (by omega) (by omega), rfl⟩
    have h7 : checked.span (tat + I - now) = .ok (tat + I - now) :=
      checked_span_eq.mpr ⟨⟨by omega, by omega⟩, rfl⟩
    simp only [h6, h7]
    exact ⟨_, rfl⟩

lemma wait_of_checkOn (hv : l.checkOn checked now entry = .ok v) :
    l.limit.period < 2 ^ 63 ∧ l.limit.burstOffset < 2 ^ 63 ∧
      l.wait (Gcra.arrival now entry - now) < 2 ^ 63 ∧
        (l.limit.emissionInterval = 0 → now < Gcra.arrival now entry) := by
  simp only [RouteLimit.checkOn, tatAt_eq] at hv
  obtain ⟨period, hperiod, hv⟩ := except_bind_ok hv
  obtain ⟨interval, hinterval, hv⟩ := except_bind_ok hv
  obtain ⟨offset, hoffset, hv⟩ := except_bind_ok hv
  obtain ⟨neg, hneg, hv⟩ := except_bind_ok hv
  obtain ⟨diff, hdiff, hv⟩ := except_bind_ok hv
  obtain ⟨hfits, rfl⟩ := checked_int_eq.mp hperiod
  obtain ⟨-, -, rfl⟩ := checked_quot_eq.mp hinterval
  obtain ⟨hburst, rfl⟩ := checked_int_eq.mp hoffset
  obtain ⟨-, rfl⟩ := checked_int_eq.mp hneg
  obtain ⟨-, rfl⟩ := checked_span_eq.mp hdiff
  refine ⟨hfits.2, hburst.2, ?_, ?_⟩
  · show Gcra.arrival now entry - now + (l.window * 1000000000).tdiv l.rate -
      (l.window * 1000000000).tdiv l.rate * l.burst < 2 ^ 63
    split at hv
    · next hlt =>
      obtain ⟨retry, hretry, hv⟩ := except_bind_ok hv
      have := (checked_span_eq.mp hretry).1.2
      omega
    · omega
  · intro hzero
    change (l.window * 1000000000).tdiv l.rate = 0 at hzero
    rw [hzero] at hv
    split at hv
    · omega
    · -- the quotient by the interval would have stopped it
      obtain ⟨remaining, hremaining, hv⟩ := except_bind_ok hv
      exact absurd rfl (checked_quot_eq.mp hremaining).1

lemma fits_of_checkOn (hu : l.Usable) (hv : l.checkOn checked now none = .ok v) :
    l.Fits ∧ l.wait 0 < 2 ^ 63 := by
  obtain ⟨hperiod, hoffset, hwait, hzero⟩ := wait_of_checkOn hv
  have hahead : Gcra.arrival now none - now = 0 := sub_self now
  rw [hahead] at hwait
  refine ⟨⟨hperiod, ?_, hoffset⟩, hwait⟩
  by_contra hlt
  have hrate := hu.rate
  have hwindow := hu.window
  have hnonneg : 0 ≤ l.limit.period := by
    show 0 ≤ l.window * 1000000000
    omega
  have hinterval : l.limit.emissionInterval = 0 := by
    unfold Limit.emissionInterval
    rw [Int.tdiv_eq_ediv_of_nonneg hnonneg]
    exact Int.ediv_eq_zero_of_lt hnonneg (not_le.mp hlt)
  exact absurd (hzero hinterval) (lt_irrefl now)

/-! ### The middleware -/

/-- A request with the time the limiter reads for it. -/
structure Request where
  callerID : String
  method : String
  path : String
  now : ℤ

section Middleware

-- which methods and paths a route is for
variable (selects : RouteLimit → String → String → Bool)

def findLimit (c : Config) (method path : String) : RouteLimit :=
  match c.routes.find? fun r => selects r method path with
  | some r => r
  | none => ⟨"default", "", c.default.rate, c.default.burst, c.default.window⟩

def Config.limitOf (c : Config) (q : Request) : RouteLimit := findLimit selects c q.method q.path

def Config.keyOf (c : Config) (q : Request) : String :=
  "rl:" ++ q.callerID ++ ":" ++ q.method ++ ":" ++ (c.limitOf selects q).path

def Config.Limited (c : Config) (q : Request) : Prop :=
  c.enabled = true ∧ q.callerID ≠ "" ∧ q.callerID ∉ c.exemptAccounts

instance (c : Config) (q : Request) : Decidable (c.Limited q) := inferInstanceAs (Decidable (_ ∧ _))

/-- What the limiter keeps after a call: an allowed one stores its arrival time and sweeps. -/
def keep (m : Entries) (key : String) (now : ℤ) : Option ℤ → Entries
  | none => m
  | some newTAT => cleanup now (Function.update m key (some newTAT))

abbrev Check := RouteLimit → ℤ → Option ℤ → Except Fault (Result × Option ℤ)

/-- One request at the middleware: the limiter's answer, if it was asked. -/
def serve (check : Check) (c : Config) (m : Entries) (q : Request) :
    Except Fault (Option Result × Entries) :=
  if c.Limited q then do
    let (r, stored) ← check (c.limitOf selects q) q.now (m (c.keyOf selects q))
    return (some r, keep m (c.keyOf selects q) q.now stored)
  else return (none, m)

def serveAll (check : Check) (c : Config) :
    Entries → List Request → Except Fault (List (Option Result) × Entries)
  | m, [] => return ([], m)
  | m, q :: qs => do
    let (r, m) ← serve selects check c m q
    let (rs, m) ← serveAll check c m qs
    return (r :: rs, m)

/-- The calls follow the clock, at times it can show. -/
structure OnClock (qs : List Request) : Prop where
  inOrder : qs.Pairwise fun q q' => q.now ≤ q'.now
  shown : ∀ q ∈ qs, 0 ≤ q.now ∧ q.now < 2 ^ 63

/-- Whatever requests come, no division is by zero, nothing overflows, and the machine computes what
the algorithm says. -/
def Config.SafeToRun (c : Config) : Prop := ∀ qs, OnClock qs → ∃ out,
  serveAll selects (RouteLimit.checkOn checked) c noEntries qs = .ok out ∧
  serveAll selects (RouteLimit.checkOn go) c noEntries qs = .ok out ∧
  serveAll selects (fun l now entry => .ok (l.limit.check now entry)) c noEntries qs = .ok out

/-- Every limit fits, and so does the wait it gives behind another limit that has the same key. -/
structure Config.Fits (c : Config) : Prop where
  each : ∀ q, c.Limited q → (c.limitOf selects q).Fits
  shared : ∀ q q', c.Limited q → c.Limited q' → c.keyOf selects q = c.keyOf selects q' →
    (c.limitOf selects q).wait (max 0 (c.limitOf selects q').limit.burstOffset) < 2 ^ 63

variable {selects} {check check' : Check} {c : Config} {m m' : Entries} {q q' : Request}
  {qs : List Request}

lemma usable_limitOf (h : ∀ r ∈ c.default :: c.routes, r.Usable) (q : Request) :
    (c.limitOf selects q).Usable := by
  unfold Config.limitOf findLimit
  split
  · next r hr => exact h r (List.mem_cons_of_mem _ (List.mem_of_find?_eq_some hr))
  · have hd := h c.default List.mem_cons_self
    exact ⟨hd.rate, hd.window⟩

/-! ### Runs -/

lemma serve_ok {r : Option Result} (h : serve selects check c m q = .ok (r, m')) :
    (¬c.Limited q ∧ r = none ∧ m' = m) ∨ (c.Limited q ∧ ∃ a stored,
      check (c.limitOf selects q) q.now (m (c.keyOf selects q)) = .ok (a, stored) ∧ r = some a ∧
        m' = keep m (c.keyOf selects q) q.now stored) := by
  unfold serve at h
  split at h
  · next hl =>
    obtain ⟨⟨a, stored⟩, hcheck, h⟩ := except_bind_ok h
    cases h
    exact .inr ⟨hl, a, stored, hcheck, rfl, rfl⟩
  · next hl =>
    cases h
    exact .inl ⟨hl, rfl, rfl⟩

lemma serve_mono (hc : ∀ {l now entry v}, check l now entry = .ok v → check' l now entry = .ok v)
    {out : Option Result × Entries} (h : serve selects check c m q = .ok out) :
    serve selects check' c m q = .ok out := by
  obtain ⟨r, m'⟩ := out
  obtain ⟨hl, rfl, rfl⟩ | ⟨hl, a, stored, hcheck, rfl, rfl⟩ := serve_ok h
  · unfold serve
    rw [if_neg hl]
    rfl
  · unfold serve
    rw [if_pos hl, hc hcheck]
    rfl

lemma serveAll_mono (hc : ∀ {l now entry v}, check l now entry = .ok v → check' l now entry = .ok v)
    {out : List (Option Result) × Entries} (h : serveAll selects check c m qs = .ok out) :
    serveAll selects check' c m qs = .ok out := by
  induction qs generalizing m out with
  | nil => exact h
  | cons q qs ih =>
    rw [serveAll] at h ⊢
    obtain ⟨⟨r, m1⟩, hq, h⟩ := except_bind_ok h
    obtain ⟨⟨rs, m2⟩, hqs, h⟩ := except_bind_ok h
    rw [serve_mono hc hq]
    simp only [bind, Except.bind, ih hqs]
    exact h

lemma safeToRun_iff : c.SafeToRun selects ↔ ∀ qs, OnClock qs →
    ∃ out, serveAll selects (RouteLimit.checkOn checked) c noEntries qs = .ok out := by
  constructor
  · intro h qs hqs
    obtain ⟨out, hout, -⟩ := h qs hqs
    exact ⟨out, hout⟩
  · intro h qs hqs
    obtain ⟨out, hout⟩ := h qs hqs
    refine ⟨out, hout, serveAll_mono (checkOn_within checked_within_go) hout, ?_⟩
    refine serveAll_mono ?_ hout
    intro l now entry v hv
    rw [checkOn_unbounded (checkOn_within checked_within_unbounded hv)]

/-! ### What fits is safe -/

lemma stored_le {l : Limit} {r : Result} {tat : ℤ} (h : l.check now entry = (r, some tat)) :
    tat ≤ now + l.burstOffset := by
  simp only [Limit.check, tatAt_eq] at h
  split at h
  · cases h
  · cases h
    omega

/-- Every arrival time at `t` is no further ahead than the burst of a limit with its key. -/
def Near (selects : RouteLimit → String → String → Bool) (c : Config) (t : ℤ)
    (m : Entries) : Prop :=
  ∀ k tat, m k = some tat → ∃ q, c.Limited q ∧ c.keyOf selects q = k ∧
    tat ≤ t + max 0 (c.limitOf selects q).limit.burstOffset

lemma Near.later {t t' : ℤ} (h : Near selects c t m) (ht : t ≤ t') : Near selects c t' m := by
  intro k tat hk
  obtain ⟨q, hl, hq, hle⟩ := h k tat hk
  exact ⟨q, hl, hq, by omega⟩

lemma Near.keep {stored : Option ℤ} (h : Near selects c q.now m) (hl : c.Limited q)
    (hs : ∀ tat, stored = some tat → tat ≤ q.now + (c.limitOf selects q).limit.burstOffset) :
    Near selects c q.now (keep m (c.keyOf selects q) q.now stored) := by
  cases stored with
  | none => exact h
  | some newTAT =>
    intro k tat hk
    have hupd := (Option.filter_eq_some_iff.mp hk).1
    by_cases hkey : k = c.keyOf selects q
    · rw [hkey, Function.update_self] at hupd
      have hle := hs tat hupd
      exact ⟨q, hl, hkey.symm, by omega⟩
    · rw [Function.update_of_ne hkey] at hupd
      exact h k tat hupd

lemma serve_near (hu : ∀ q, (c.limitOf selects q).Usable) (hf : c.Fits selects) {t : ℤ}
    (h : Near selects c t m) (ht : t ≤ q.now) : ∃ r m',
      serve selects (RouteLimit.checkOn checked) c m q = .ok (r, m') ∧ Near selects c q.now m' := by
  have hnow := h.later ht
  by_cases hl : c.Limited q
  · -- the arrival time is ahead by at most the burst of some limit with the same key
    have hahead : ∃ q', c.Limited q' ∧ c.keyOf selects q = c.keyOf selects q' ∧
        Gcra.arrival q.now (m (c.keyOf selects q)) - q.now ≤
          max 0 (c.limitOf selects q').limit.burstOffset := by
      cases hm : m (c.keyOf selects q) with
      | none => exact ⟨q, hl, rfl, by simp [Gcra.arrival]⟩
      | some tat =>
        obtain ⟨q', hl', hk, hle⟩ := hnow _ _ hm
        refine ⟨q', hl', hk.symm, ?_⟩
        rw [Gcra.arrival_some]
        omega
    obtain ⟨q', hl', hk, hle⟩ := hahead
    have hwait := hf.shared q q' hl hl' hk
    have hoffset := (hf.each q' hl').offset
    have hcheck : (c.limitOf selects q).checkOn checked q.now (m (c.keyOf selects q)) =
        .ok ((c.limitOf selects q).limit.check q.now (m (c.keyOf selects q))) := by
      refine checkOn_checked (hu q) (hf.each q hl) (by omega) ?_
      unfold RouteLimit.wait at hwait ⊢
      omega
    cases hres : (c.limitOf selects q).limit.check q.now (m (c.keyOf selects q)) with
    | mk r stored =>
      rw [hres] at hcheck
      refine ⟨some r, keep m (c.keyOf selects q) q.now stored, ?_, hnow.keep hl ?_⟩
      · unfold serve
        rw [if_pos hl, hcheck]
        rfl
      · rintro tat rfl
        exact stored_le hres
  · refine ⟨none, m, ?_, hnow⟩
    unfold serve
    rw [if_neg hl]
    rfl

lemma serveAll_near (hu : ∀ q, (c.limitOf selects q).Usable) (hf : c.Fits selects) {t : ℤ}
    (h : Near selects c t m) (hqs : qs.Pairwise fun q q' => q.now ≤ q'.now)
    (ht : ∀ q ∈ qs, t ≤ q.now) :
    ∃ out, serveAll selects (RouteLimit.checkOn checked) c m qs = .ok out := by
  induction qs generalizing m t with
  | nil => exact ⟨_, rfl⟩
  | cons q qs ih =>
    obtain ⟨hq, hrest⟩ := List.pairwise_cons.mp hqs
    obtain ⟨r, m', hserve, hnear⟩ := serve_near hu hf h (ht q List.mem_cons_self)
    obtain ⟨⟨rs, m2⟩, hout⟩ := ih hnear hrest hq
    refine ⟨(r :: rs, m2), ?_⟩
    rw [serveAll, hserve]
    simp only [bind, Except.bind, hout]
    rfl

/-! ### What is safe fits -/

lemma serveAll_snoc {rs : List (Option Result)}
    (h : serveAll selects check c m (qs ++ [q]) = .ok (rs, m')) : ∃ rs₀ m₀ r,
      serveAll selects check c m qs = .ok (rs₀, m₀) ∧
        serve selects check c m₀ q = .ok (r, m') := by
  induction qs generalizing m rs with
  | nil =>
    rw [List.nil_append, serveAll] at h
    obtain ⟨⟨r, m1⟩, hq, h⟩ := except_bind_ok h
    cases h
    exact ⟨[], m, r, rfl, hq⟩
  | cons q0 qs ih =>
    rw [List.cons_append, serveAll] at h
    obtain ⟨⟨r, m1⟩, hq, h⟩ := except_bind_ok h
    obtain ⟨⟨rs1, m2⟩, hqs, h⟩ := except_bind_ok h
    cases h
    obtain ⟨rs₀, m₀, last, hrs, hlast⟩ := ih hqs
    refine ⟨r :: rs₀, m₀, last, ?_, hlast⟩
    rw [serveAll, hq]
    simp only [bind, Except.bind, hrs]
    rfl

def Request.atStart (q : Request) : Request := { q with now := 0 }

lemma onClock_atStart {qs : List Request} (h : ∀ q ∈ qs, q.now = 0) : OnClock qs where
  inOrder := List.pairwise_of_forall_mem_list fun q hq q' hq' => by rw [h q hq, h q' hq']
  shown q hq := by
    rw [h q hq]
    decide

lemma arrival_keep {key : String} {tat : ℤ} (h : now ≤ tat) :
    Gcra.arrival now (keep m key now (some tat) key) = tat := by
  have hkept : keep m key now (some tat) key = some tat := by
    simp only [keep, cleanup, Function.update_self, Option.filter, not_lt.mpr h, decide_false,
      Bool.not_false, if_true]
  rw [hkept, Gcra.arrival_some, max_eq_right h]

lemma check_within_burst {l : Limit} {n : ℤ} (hi : 0 ≤ l.emissionInterval) (hn : n + 1 ≤ l.burst)
    (h : Gcra.arrival 0 entry = n * l.emissionInterval) :
    (l.check 0 entry).2 = some ((n + 1) * l.emissionInterval) := by
  have hdiff : ¬(0 - (n * l.emissionInterval + l.emissionInterval - l.burstOffset) < 0) := by
    have hmul : (n + 1) * l.emissionInterval ≤ l.burst * l.emissionInterval :=
      mul_le_mul_of_nonneg_right hn hi
    have hoffset : l.burstOffset = l.burst * l.emissionInterval := mul_comm _ _
    rw [add_mul, one_mul] at hmul
    omega
  simp only [Limit.check, tatAt_eq, h]
  rw [if_neg hdiff, add_mul, one_mul]

lemma arrival_replicate (hu : ∀ q, (c.limitOf selects q).Usable) (hl : c.Limited q)
    (h0 : q.now = 0) {n : ℕ} (hn : (n : ℤ) ≤ (c.limitOf selects q).limit.burst)
    {rs : List (Option Result)} (h : serveAll selects (RouteLimit.checkOn checked) c noEntries
      (List.replicate n q) = .ok (rs, m)) :
    Gcra.arrival 0 (m (c.keyOf selects q)) = n * (c.limitOf selects q).limit.emissionInterval := by
  have hi := (hu q).interval_nonneg
  induction n generalizing rs m with
  | zero =>
    cases h
    simp [noEntries, Gcra.arrival]
  | succ n ih =>
    rw [List.replicate_succ'] at h
    obtain ⟨rs₀, m₀, r, hrs, hlast⟩ := serveAll_snoc h
    have hbefore := ih (by omega) hrs
    obtain ⟨hno, -⟩ | ⟨-, a, stored, hcheck, -, rfl⟩ := serve_ok hlast
    · exact absurd hl hno
    have hstored := checkOn_unbounded (checkOn_within checked_within_unbounded hcheck)
    rw [h0] at hstored ⊢
    have hnext := check_within_burst hi (by push_cast at hn; exact hn) hbefore
    rw [← hstored] at hnext
    cases hnext
    rw [arrival_keep (mul_nonneg (by omega) hi)]
    push_cast
    rfl

lemma fits_of_safeToRun (hu : ∀ q, (c.limitOf selects q).Usable) (h : c.SafeToRun selects) :
    c.Fits selects := by
  have hsafe := safeToRun_iff.mp h
  -- a single call at the start
  have hfirst : ∀ q, c.Limited q →
      (c.limitOf selects q).Fits ∧ (c.limitOf selects q).wait 0 < 2 ^ 63 := by
    intro q hl
    obtain ⟨⟨rs, m⟩, hout⟩ := hsafe ([] ++ [q.atStart])
      (onClock_atStart (by simp [Request.atStart]))
    obtain ⟨rs₀, m₀, r, hrs, hserve⟩ := serveAll_snoc hout
    cases hrs
    obtain ⟨hno, -⟩ | ⟨-, a, stored, hcheck, -, -⟩ := serve_ok hserve
    · exact absurd hl hno
    · exact fits_of_checkOn (hu q) hcheck
  refine ⟨fun q hl => (hfirst q hl).1, ?_⟩
  intro q q' hl hl' hk
  rcases le_or_gt (c.limitOf selects q').limit.burst 0 with hb | hb
  · have hle : (c.limitOf selects q').limit.burstOffset ≤ 0 :=
      mul_nonpos_of_nonneg_of_nonpos (hu q').interval_nonneg hb
    rw [max_eq_left hle]
    exact (hfirst q hl).2
  · -- the whole burst of the one at once, and then the other
    have hle : 0 ≤ (c.limitOf selects q').limit.burstOffset :=
      mul_nonneg (hu q').interval_nonneg hb.le
    rw [max_eq_right hle]
    have hclock : OnClock (List.replicate (c.limitOf selects q').limit.burst.toNat q'.atStart ++
        [q.atStart]) := by
      refine onClock_atStart fun d hd => ?_
      rcases List.mem_append.mp hd with hd | hd
      · rw [List.eq_of_mem_replicate hd]
        rfl
      · rw [List.mem_singleton.mp hd]
        rfl
    obtain ⟨⟨rs, m⟩, hout⟩ := hsafe _ hclock
    obtain ⟨rs₀, m₀, r, hrs, hserve⟩ := serveAll_snoc hout
    have hn : ((c.limitOf selects q').limit.burst.toNat : ℤ) = (c.limitOf selects q').limit.burst :=
      Int.toNat_of_nonneg hb.le
    have harrival := arrival_replicate hu (q := q'.atStart) hl' rfl hn.le hrs
    obtain ⟨hno, -⟩ | ⟨-, a, stored, hcheck, -, -⟩ := serve_ok hserve
    · exact absurd hl hno
    · have hwait := (wait_of_checkOn hcheck).2.2.1
      have hkey : c.keyOf selects q.atStart = c.keyOf selects q'.atStart := hk
      have hnow : q.atStart.now = 0 := rfl
      rw [hkey, hnow, harrival, sub_zero, hn, mul_comm] at hwait
      exact hwait

end Middleware

/-- **When a limit is safe to run.** Of a configuration that was loaded nothing is ever lost,
whatever requests come, exactly where the windows and the bursts fit in 64 bits and no rate is above
one call per nanosecond. -/
theorem safeToRun_iff_fits (selects : RouteLimit → String → String → Bool) {c c' : Config}
    (h : loadConfig c = .ok c') : c'.SafeToRun selects ↔ c'.Fits selects := by
  have hu : ∀ q, (c'.limitOf selects q).Usable := usable_limitOf (usable_loadConfig h)
  constructor
  · exact fits_of_safeToRun hu
  · intro hf
    refine safeToRun_iff.mpr fun qs hqs => ?_
    have hempty : Near selects c' 0 noEntries := fun k tat hk => by cases hk
    exact serveAll_near hu hf hempty hqs.inOrder fun q hq => (hqs.shown q hq).1

/-- A configuration with a default limit only. -/
def defaultOnly (rate burst window : ℤ) : Config :=
  ⟨true, [], 20, ⟨"", "", rate, burst, window⟩, []⟩

/-- Two calls per second and a burst of three are safe. -/
theorem safeToRun_iff_fits_usual :
    loadConfig (defaultOnly 2 3 1) = .ok (defaultOnly 2 3 1) ∧
      (defaultOnly 2 3 1).SafeToRun fun _ _ _ => false := by
  have hload : loadConfig (defaultOnly 2 3 1) = .ok (defaultOnly 2 3 1) := rfl
  refine ⟨hload, (safeToRun_iff_fits (fun _ _ _ => false) hload).mpr ?_⟩
  have hlimit : ∀ q, (defaultOnly 2 3 1).limitOf (fun _ _ _ => false) q =
      ⟨"default", "", 2, 3, 1⟩ := fun _ => rfl
  constructor
  · intro q _
    rw [hlimit]
    exact ⟨by decide, by decide, by decide⟩
  · intro q q' _ _ _
    rw [hlimit, hlimit]
    decide

/-- A rate of two calls per nanosecond is accepted, and the first request divides by zero. A window
of 9223372037 seconds is accepted, and of two requests at once both are allowed, where the algorithm
turns the second one away. -/
theorem accepted_limit_unsafe :
    loadConfig (defaultOnly 2000000000 0 0) = .ok (defaultOnly 2000000000 4000000000 1) ∧
    serveAll (fun _ _ _ => false) (RouteLimit.checkOn go) (defaultOnly 2000000000 4000000000 1)
      noEntries [⟨"a", "GET", "/", 0⟩] = .error .divideByZero ∧
    loadConfig (defaultOnly 1 1 9223372037) = .ok (defaultOnly 1 1 9223372037) ∧
    (serveAll (fun _ _ _ => false) (RouteLimit.checkOn go) (defaultOnly 1 1 9223372037) noEntries
      [⟨"a", "GET", "/", 0⟩, ⟨"a", "GET", "/", 0⟩]).map (·.1.map fun r => r.map (·.allowed)) =
        .ok [some 1, some 1] ∧
    (serveAll (fun _ _ _ => false) (fun l now entry => .ok (l.limit.check now entry))
      (defaultOnly 1 1 9223372037) noEntries
      [⟨"a", "GET", "/", 0⟩, ⟨"a", "GET", "/", 0⟩]).map (·.1.map fun r => r.map (·.allowed)) =
        .ok [some 1, some 0] :=
  ⟨rfl, rfl, rfl, rfl, rfl⟩

end Seaplane.Api.RateLimit
