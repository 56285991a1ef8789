import Mathlib.Tactic.Common
import Mathlib.Algebra.Order.Group.Int
import Seaplane.Lib.Timed

/-!
When the watcher polls.

One loop owns all polling. It waits for the doorbell, a channel of one slot into which the listen
loop puts a token for every notification, or for its only timer, which stands for the baseline poll
or, while a doorbell is pending, for the trailing poll of the debounce. What the loop does between
two waits takes no time; polls take any time, and a poll begins its snapshot somewhere within it.
Times and durations are in nanoseconds.
-/

namespace Seaplane.Db.Scheduling

open Lib.Timed

def millisecond : ℤ := 1000000

structure WatcherConfig where
  baselineInterval : ℤ
  debounceFloor : ℤ
  /-- A connection to listen on is given. -/
  listenConn : Bool
  /-- A lost connection can be replaced. -/
  listenConnFactory : Bool

section

variable (cfg : WatcherConfig) (t : ℤ)

/-- The intervals that `NewWatcher` leaves. -/
def newWatcher : WatcherConfig :=
  { cfg with
    baselineInterval :=
      if cfg.baselineInterval = 0 then 5000 * millisecond else cfg.baselineInterval
    debounceFloor := if cfg.debounceFloor = 0 then 100 * millisecond else cfg.debounceFloor }

structure WatchStats where
  listenErrors : ℕ
  reconnects : ℕ
  doorbellPolls : ℕ
  baselinePolls : ℕ
  baselineCatches : ℕ
  deriving DecidableEq

/-! ### The listen loop -/

inductive ListenPhase where
  /-- `LISTEN` on the connection that was given. -/
  | subscribing
  /-- In `WaitForNotification`. -/
  | waiting
  /-- Backing off before a new connection is made, and then making it. -/
  | sleeping (since : ℤ)
  | exited
  deriving DecidableEq

structure Listener where
  phase : ListenPhase
  backoff : ℤ
  deriving DecidableEq

inductive ListenEvent where
  | subscribed
  | refused
  | notified
  | lost
  | reconnected
  /-- The factory failed, or `LISTEN` on the connection it made. -/
  | unreachable
  /-- The loop sees in its sleep that it has to end. -/
  | woken

def minBackoff : ℤ := 100 * millisecond

def maxBackoff : ℤ := 5000 * millisecond

def Listener.disconnected (l : Listener) : Listener :=
  { l with phase := if cfg.listenConnFactory then .sleeping t else .exited }

def listenLoop : Listener :=
  if cfg.listenConn then ⟨.subscribing, minBackoff⟩
  else Listener.disconnected cfg t ⟨.subscribing, minBackoff⟩

def nextBackoff (backoff : ℤ) : ℤ :=
  if backoff < maxBackoff then if maxBackoff < backoff * 2 then maxBackoff else backoff * 2
  else backoff

/-- One event of the listen loop. `ending` says that its context is cancelled or the watcher
stopped. -/
def Listener.step (ending : Bool) (t : ℤ) (e : ListenEvent) (l : Listener) (stats : WatchStats) :
    Option (Listener × WatchStats) :=
  let failed : WatchStats := { stats with listenErrors := stats.listenErrors + 1 }
  match l.phase, e with
  | .subscribing, .subscribed => some ({ l with phase := .waiting }, stats)
  | .subscribing, .refused => some (l.disconnected cfg t, failed)
  | .waiting, .notified => some ({ l with backoff := minBackoff }, stats)
  | .waiting, .lost =>
    if ending then some ({ l with phase := .exited }, stats)
    else some (l.disconnected cfg t, failed)
  | .sleeping since, .reconnected =>
    if since + l.backoff ≤ t then
      some (⟨.waiting, minBackoff⟩, { stats with reconnects := stats.reconnects + 1 })
    else none
  | .sleeping since, .unreachable =>
    if since + l.backoff ≤ t then some (⟨.sleeping t, nextBackoff l.backoff⟩, failed) else none
  | .sleeping _, .woken => if ending then some ({ l with phase := .exited }, stats) else none
  | _, _ => none

/-- The events after which the loop sends on the doorbell channel. -/
def ListenEvent.forwards : ListenEvent → Bool
  | .notified | .reconnected => true
  | _ => false

/-! ### The main loop -/

inductive Trigger where
  | initial
  | leading
  | timer (wasDoorbell : Bool)
  deriving DecidableEq

def Trigger.doorbell : Trigger → Bool
  | .initial => false
  | .leading => true
  | .timer wasDoorbell => wasDoorbell

inductive Phase where
  /-- In a poll, which has begun its snapshot or not. -/
  | polling (trigger : Trigger) (snapshot : Bool)
  /-- At the `select`. -/
  | selecting
  /-- The loop is left, with the error that is returned. -/
  | shutdown (err : Option String)
  deriving DecidableEq

structure Watcher where
  phase : Phase
  lastPoll : ℤ
  doorbellPending : Bool
  timer : Timer
  /-- A token is in the channel. -/
  doorbellCh : Bool
  listener : Option Listener
  stats : WatchStats
  /-- The context is done. -/
  cancelled : Bool
  /-- `stopCh` is closed. -/
  stopped : Bool
  deriving DecidableEq

/-- `Run` is called: the first poll comes before everything else. -/
def Watcher.run : Watcher where
  phase := .polling .initial false
  lastPoll := t
  doorbellPending := false
  timer := ⟨none, none⟩
  doorbellCh := false
  listener := none
  stats := ⟨0, 0, 0, 0, 0⟩
  cancelled := false
  stopped := false

inductive Event where
  /-- The poll begins its snapshot. -/
  | snapshot
  /-- The poll returns the number of events it delivered. -/
  | polled (n : ℕ)
  | failed (err : String)
  /-- The `select` takes the token. -/
  | doorbell
  /-- The `select` receives from the timer. -/
  | timer
  /-- The `select` sees that the context is done. -/
  | ctxDone (err : String)
  /-- The `select` sees that `stopCh` is closed. -/
  | stopDone
  | cancel
  | stop
  | listen (e : ListenEvent)

def listenConfigured : Bool := cfg.listenConn || cfg.listenConnFactory

/-- What follows a poll that returned no error. -/
def Watcher.afterPoll (n : ℕ) (w : Watcher) : Trigger → Watcher
  | .initial =>
    { w with
      phase := .selecting, lastPoll := t, doorbellPending := false
      timer := .new t cfg.baselineInterval
      listener := if listenConfigured cfg then some (listenLoop cfg t) else none }
  | .leading =>
    { w with
      phase := .selecting, lastPoll := t, doorbellPending := false
      timer := w.timer.restart t cfg.baselineInterval }
  | .timer wasDoorbell =>
    { w with
      phase := .selecting, lastPoll := t, doorbellPending := false
      timer := w.timer.reset t cfg.baselineInterval
      stats :=
        if wasDoorbell then { w.stats with doorbellPolls := w.stats.doorbellPolls + 1 }
        else
          { w.stats with
            baselinePolls := w.stats.baselinePolls + 1
            baselineCatches := w.stats.baselineCatches +
              if 0 < n ∧ listenConfigured cfg then 1 else 0 } }

def Watcher.receiveDoorbell (w : Watcher) : Watcher :=
  let sinceLastPoll := t - w.lastPoll
  if cfg.debounceFloor ≤ sinceLastPoll then
    { w with
      doorbellCh := false, phase := .polling .leading false
      stats := { w.stats with doorbellPolls := w.stats.doorbellPolls + 1 } }
  else
    { w with
      doorbellCh := false, doorbellPending := true
      timer := w.timer.restart t (cfg.debounceFloor - sinceLastPoll) }

/-- An event of the listen loop; after those that forward, the channel holds a token, whether it was
sent now or there already. -/
def Watcher.listen (e : ListenEvent) (w : Watcher) : Option Watcher := do
  let listener ← w.listener
  -- the loop's context is also cancelled when the main loop is left
  let left := match w.phase with
    | .shutdown _ => true
    | _ => false
  let (listener, stats) ← listener.step cfg (w.cancelled || w.stopped || left) t e w.stats
  return { w with listener, stats, doorbellCh := w.doorbellCh || e.forwards }

def step (e : Event) (w : Watcher) : Option Watcher :=
  match w.phase, e with
  | .polling trigger false, .snapshot => some { w with phase := .polling trigger true }
  | .polling trigger true, .polled n => some (w.afterPoll cfg t n trigger)
  | .polling _ _, .failed err => some { w with phase := .shutdown (some err) }
  | .selecting, .doorbell => if w.doorbellCh then some (w.receiveDoorbell cfg t) else none
  | .selecting, .timer =>
    let timer := w.timer.elapse t
    if timer.chan.isSome then
      some { w with timer := timer.drain, phase := .polling (.timer w.doorbellPending) false }
    else none
  | .selecting, .ctxDone err =>
    if w.cancelled then some { w with phase := .shutdown (some err) } else none
  | .selecting, .stopDone => if w.stopped then some { w with phase := .shutdown none } else none
  | _, .cancel => some { w with cancelled := true }
  | _, .stop => some { w with stopped := true }
  | _, .listen e => w.listen cfg t e
  | _, _ => none

/-- `Run`, called at `t0`, with everything that happened so far, the latest first. -/
abbrev Execution (t0 : ℤ) : List (ℤ × Event) → Watcher → Prop :=
  Run (step cfg) (.run t0) t0

end

/-! ### What is read off the events -/

def Event.forwards : Event → Bool
  | .listen e => e.forwards
  | _ => false

/-- A notification was forwarded since a snapshot was last begun. -/
def rungSinceSnapshot : List (ℤ × Event) → Bool
  | [] => false
  | (_, .snapshot) :: _ => false
  | (_, e) :: es => e.forwards || rungSinceSnapshot es

/-- A notification was forwarded after the snapshot of the last completed poll began. -/
def rung : List (ℤ × Event) → Bool
  | [] => false
  | (_, .polled _) :: es => rungSinceSnapshot es
  | (_, e) :: es => e.forwards || rung es

/-- The time at which the last completed poll ended. -/
def lastEnd : List (ℤ × Event) → Option ℤ
  | [] => none
  | (t, .polled _) :: _ => some t
  | _ :: es => lastEnd es

/-- No token was taken since the last poll ended. -/
def undisturbed : List (ℤ × Event) → Bool
  | [] => true
  | (_, .polled _) :: _ => true
  | (_, .doorbell) :: _ => false
  | _ :: es => undisturbed es

/-! ### One event -/

section Step

variable {cfg : WatcherConfig} {t : ℤ} {e : Event} {w w' : Watcher} {es : List (ℤ × Event)}

def Event.outside : Event → Bool
  | .cancel | .stop | .listen _ => true
  | _ => false

/-- What an event from outside leaves: all but the channel, which may be given a token. -/
structure Beside (e : Event) (w w' : Watcher) : Prop where
  phase : w'.phase = w.phase
  lastPoll : w'.lastPoll = w.lastPoll
  doorbellPending : w'.doorbellPending = w.doorbellPending
  timer : w'.timer = w.timer
  doorbellCh : w'.doorbellCh = (w.doorbellCh || e.forwards)

lemma beside_listen {e : ListenEvent} (h : w.listen cfg t e = some w') :
    Beside (.listen e) w w' := by
  unfold Watcher.listen at h
  obtain ⟨listener, -, h⟩ := Option.bind_eq_some_iff.mp h
  obtain ⟨⟨listener', stats⟩, -, h⟩ := Option.bind_eq_some_iff.mp h
  cases h
  exact ⟨rfl, rfl, rfl, rfl, rfl⟩

lemma step_cancel : step cfg t .cancel w = some { w with cancelled := true } := by
  unfold step
  rcases w.phase with ⟨trigger, _ | _⟩ | _ | _ <;> rfl

lemma step_stop : step cfg t .stop w = some { w with stopped := true } := by
  unfold step
  rcases w.phase with ⟨trigger, _ | _⟩ | _ | _ <;> rfl

lemma step_listen {e : ListenEvent} : step cfg t (.listen e) w = w.listen cfg t e := by
  unfold step
  rcases w.phase with ⟨trigger, _ | _⟩ | _ | _ <;> rfl

lemma beside_step (he : e.outside) (h : step cfg t e w = some w') : Beside e w w' := by
  cases e with
  | cancel =>
    rw [step_cancel] at h
    cases h
    exact ⟨rfl, rfl, rfl, rfl, (Bool.or_false _).symm⟩
  | stop =>
    rw [step_stop] at h
    cases h
    exact ⟨rfl, rfl, rfl, rfl, (Bool.or_false _).symm⟩
  | listen e =>
    rw [step_listen] at h
    exact beside_listen h
  | _ => cases he

inductive Does (cfg : WatcherConfig) (t : ℤ) (w : Watcher) : Event → Watcher → Prop where
  | snapshot {trigger : Trigger} (hp : w.phase = .polling trigger false) :
      Does cfg t w .snapshot { w with phase := .polling trigger true }
  | polled {trigger : Trigger} (n : ℕ) (hp : w.phase = .polling trigger true) :
      Does cfg t w (.polled n) (w.afterPoll cfg t n trigger)
  | doorbell (hp : w.phase = .selecting) (hch : w.doorbellCh = true) :
      Does cfg t w .doorbell (w.receiveDoorbell cfg t)
  | timer (hp : w.phase = .selecting) (hdue : (w.timer.elapse t).chan.isSome) :
      Does cfg t w .timer { w with
        timer := (w.timer.elapse t).drain, phase := .polling (.timer w.doorbellPending) false }
  | leave {e : Event} {err : Option String} :
      Does cfg t w e { w with phase := .shutdown err }

lemma does_step (he : e.outside = false) (h : step cfg t e w = some w') : Does cfg t w e w' := by
  unfold step at h
  cases e with
  | snapshot =>
    rcases hp : w.phase with ⟨trigger, _ | _⟩ | _ | err <;> rw [hp] at h <;> cases h
    exact .snapshot hp
  | polled n =>
    rcases hp : w.phase with ⟨trigger, _ | _⟩ | _ | err <;> rw [hp] at h <;> cases h
    exact .polled n hp
  | failed err =>
    rcases hp : w.phase with ⟨trigger, _ | _⟩ | _ | err <;> rw [hp] at h <;> cases h
    all_goals exact .leave
  | doorbell =>
    rcases hp : w.phase with ⟨trigger, _ | _⟩ | _ | err <;> rw [hp] at h <;> try cases h
    obtain ⟨hch, h⟩ := Option.ite_none_right_eq_some.mp h
    cases h
    exact .doorbell hp hch
  | timer =>
    rcases hp : w.phase with ⟨trigger, _ | _⟩ | _ | err <;> rw [hp] at h <;> try cases h
    obtain ⟨hdue, h⟩ := Option.ite_none_right_eq_some.mp h
    cases h
    exact .timer hp hdue
  | ctxDone err | stopDone =>
    rcases hp : w.phase with ⟨trigger, _ | _⟩ | _ | err <;> rw [hp] at h <;> try cases h
    obtain ⟨-, h⟩ := Option.ite_none_right_eq_some.mp h
    cases h
    exact .leave
  | _ => cases he

lemma traces_outside (t : ℤ) (es : List (ℤ × Event)) (he : e.outside) :
    rungSinceSnapshot ((t, e) :: es) = (e.forwards || rungSinceSnapshot es) ∧
      rung ((t, e) :: es) = (e.forwards || rung es) ∧ lastEnd ((t, e) :: es) = lastEnd es ∧
      undisturbed ((t, e) :: es) = undisturbed es := by
  cases e with
  | cancel | stop | listen e => exact ⟨rfl, rfl, rfl, rfl⟩
  | _ => cases he

end Step

/-! ### Along every run -/

section Runs

variable {cfg : WatcherConfig} {t t0 : ℤ} {e : Event} {w w' : Watcher} {es : List (ℤ × Event)}

/-- The loop waits, and everything is in order. -/
structure Waits (cfg : WatcherConfig) (es : List (ℤ × Event)) (w : Watcher) : Prop where
  ended : lastEnd es = some w.lastPoll
  timer : w.timer = .new w.lastPoll
    (if w.doorbellPending then cfg.debounceFloor else cfg.baselineInterval)
  rung : rung es = true → w.doorbellCh = true ∨ w.doorbellPending = true
  undisturbed : undisturbed es = true → w.doorbellPending = false

/-- The loop is in a poll, and everything is in order. A timer that was received from is not armed
again before the poll ends; at a leading edge it is, and may go off in the meantime. -/
structure Polls (trigger : Trigger) (snapshot : Bool) (es : List (ℤ × Event)) (w : Watcher) :
    Prop where
  token : snapshot = true → rungSinceSnapshot es = true → w.doorbellCh = true
  timer : w.timer.chan = none

def Orderly (cfg : WatcherConfig) (es : List (ℤ × Event)) (w : Watcher) : Prop :=
  match w.phase with
  | .polling trigger snapshot => Polls trigger snapshot es w
  | .selecting => Waits cfg es w
  | .shutdown _ => True

lemma Orderly.waits (h : Orderly cfg es w) (hp : w.phase = .selecting) : Waits cfg es w := by
  rwa [Orderly, hp] at h

variable {trigger : Trigger} {snapshot : Bool}

lemma Orderly.polls (h : Orderly cfg es w) (hp : w.phase = .polling trigger snapshot) :
    Polls trigger snapshot es w := by
  rwa [Orderly, hp] at h

lemma Waits.orderly (h : Waits cfg es w) (hp : w.phase = .selecting) : Orderly cfg es w := by
  rwa [Orderly, hp]

lemma Polls.orderly (h : Polls trigger snapshot es w) (hp : w.phase = .polling trigger snapshot) :
    Orderly cfg es w := by
  rwa [Orderly, hp]

/-- A poll that has not begun its snapshot asks for nothing but a timer without a value left in its
channel. -/
lemma Polls.begun (htimer : w.timer.chan = none) : Polls trigger false es w :=
  ⟨fun hsnapshot => absurd hsnapshot Bool.false_ne_true, htimer⟩

lemma Waits.beside (h : Waits cfg es w) (he : e.outside) (hb : Beside e w w') :
    Waits cfg ((t, e) :: es) w' := by
  obtain ⟨-, hrung, hend, hundisturbed⟩ := traces_outside t es he
  refine ⟨?_, ?_, ?_, ?_⟩
  · rw [hend, hb.lastPoll]
    exact h.ended
  · rw [hb.timer, hb.lastPoll, hb.doorbellPending]
    exact h.timer
  · rw [hrung, hb.doorbellCh, hb.doorbellPending, Bool.or_eq_true, Bool.or_eq_true]
    rintro (hforward | hrung)
    · exact .inl (.inr hforward)
    · exact (h.rung hrung).imp_left .inl
  · rw [hundisturbed, hb.doorbellPending]
    exact h.undisturbed

lemma Polls.beside (h : Polls trigger snapshot es w) (he : e.outside) (hb : Beside e w w') :
    Polls trigger snapshot ((t, e) :: es) w' := by
  refine ⟨fun hsnapshot hrung => ?_, hb.timer ▸ h.timer⟩
  rw [(traces_outside t es he).1, Bool.or_eq_true] at hrung
  rw [hb.doorbellCh, Bool.or_eq_true]
  exact hrung.symm.imp_left (h.token hsnapshot)

lemma Orderly.beside (h : Orderly cfg es w) (he : e.outside) (hb : Beside e w w') :
    Orderly cfg ((t, e) :: es) w' := by
  cases hp : w.phase with
  | polling trigger snapshot => exact ((h.polls hp).beside he hb).orderly (hb.phase.trans hp)
  | selecting => exact ((h.waits hp).beside he hb).orderly (hb.phase.trans hp)
  | shutdown err =>
    rw [Orderly, hb.phase, hp]
    trivial

/-- After a poll the timer is set to the baseline, and a notification that its snapshot did not
cover has left its token. -/
lemma Polls.afterPoll {n : ℕ} (h : Polls trigger true es w) :
    Waits cfg ((t, .polled n) :: es) (w.afterPoll cfg t n trigger) := by
  have htoken : rung ((t, .polled n) :: es) = true → w.doorbellCh = true := h.token rfl
  have hrestart (d : ℤ) : w.timer.restart t d = .new t d := Timer.restart_eq (.inr h.timer) t d
  have hreset (d : ℤ) : w.timer.reset t d = .new t d := by
    rw [Timer.reset, h.timer]
    rfl
  cases trigger with
  | initial => exact ⟨rfl, rfl, fun hrung => .inl (htoken hrung), fun _ => rfl⟩
  | leading => exact ⟨rfl, hrestart _, fun hrung => .inl (htoken hrung), fun _ => rfl⟩
  | timer wasDoorbell => exact ⟨rfl, hreset _, fun hrung => .inl (htoken hrung), fun _ => rfl⟩

/-- A doorbell within the floor sets the timer to the end of the floor, whatever it was set to. -/
lemma Waits.deferred (h : Waits cfg es w) :
    w.timer.restart t (cfg.debounceFloor - (t - w.lastPoll)) =
      .new w.lastPoll cfg.debounceFloor := by
  rw [Timer.restart_eq (.inr (by rw [h.timer]; rfl)), Timer.new, Timer.new]
  congr 2
  omega

lemma Orderly.receiveDoorbell (h : Waits cfg es w) (hp : w.phase = .selecting) :
    Orderly cfg ((t, .doorbell) :: es) (w.receiveDoorbell cfg t) := by
  unfold Watcher.receiveDoorbell
  by_cases hfloor : cfg.debounceFloor ≤ t - w.lastPoll
  · rw [if_pos hfloor]
    have htimer : w.timer.chan = none := by
      rw [h.timer]
      rfl
    exact Polls.orderly (.begun htimer) rfl
  · rw [if_neg hfloor]
    refine Waits.orderly ?_ hp
    exact ⟨h.ended, h.deferred, fun _ => .inr rfl, fun hquiet => absurd hquiet Bool.false_ne_true⟩

lemma Orderly.step (h : Orderly cfg es w) (hs : step cfg t e w = some w') :
    Orderly cfg ((t, e) :: es) w' := by
  cases he : e.outside with
  | true => exact h.beside he (beside_step he hs)
  | false =>
    cases does_step he hs with
    | snapshot hp =>
      have hpolls := h.polls hp
      exact ⟨fun _ hrung => absurd hrung Bool.false_ne_true, hpolls.timer⟩
    | @polled trigger n hp => exact (h.polls hp).afterPoll.orderly (by cases trigger <;> rfl)
    | doorbell hp hch => exact .receiveDoorbell (h.waits hp) hp
    | timer hp hdue => exact Polls.orderly (.begun rfl) rfl
    | leave => trivial

lemma Execution.orderly (h : Execution cfg t0 es w) : Orderly cfg es w := by
  refine Run.invariant (Orderly cfg) ?_ (fun _ _ _ _ _ hI _ hs => hI.step hs) h
  exact Polls.orderly (.begun rfl) rfl

lemma Execution.le_lastEnd (h : Execution cfg t0 es w) {u : ℤ} {n : ℕ}
    (hu : (u, Event.polled n) ∈ es) : ∃ ended, lastEnd es = some ended ∧ u ≤ ended := by
  induction h with
  | start => cases hu
  | @event es w w' t e h ht hs ih =>
    rcases List.mem_cons.mp hu with heq | hu
    · cases heq
      exact ⟨u, rfl, Int.le_refl u⟩
    · have hclock : u ≤ clock t0 es := h.le_clock _ hu
      obtain ⟨ended, hended, hle⟩ := ih hu
      cases e with
      | polled m => exact ⟨t, rfl, Int.le_trans hclock ht⟩
      | _ => exact ⟨ended, hended, hle⟩

/-- A poll is in progress, and no notification came after its snapshot. -/
def Covered (es : List (ℤ × Event)) (w : Watcher) : Prop :=
  ∃ trigger, w.phase = .polling trigger false ∨
    w.phase = .polling trigger true ∧ rungSinceSnapshot es = false

/-- While the loop runs, a notification that the last completed poll did not cover has its token, a
trailing poll, or the poll in progress. -/
lemma Orderly.kept (h : Orderly cfg es w) (hrunning : ∀ err, w.phase ≠ .shutdown err)
    (hrung : rung es = true) : w.doorbellCh = true ∨
      (w.doorbellPending = true ∧ ∃ due ended, w.timer.armed = some due ∧
        lastEnd es = some ended ∧ due ≤ ended + cfg.debounceFloor) ∨ Covered es w := by
  cases hp : w.phase with
  | shutdown err => exact absurd hp (hrunning err)
  | selecting =>
    have hwaits := h.waits hp
    rcases hwaits.rung hrung with hch | hpending
    · exact .inl hch
    · refine .inr (.inl ⟨hpending, w.lastPoll + cfg.debounceFloor, w.lastPoll, ?_, hwaits.ended,
        Int.le_refl _⟩)
      rw [hwaits.timer, hpending]
      rfl
  | polling trigger snapshot =>
    cases snapshot with
    | false => exact .inr (.inr ⟨trigger, .inl hp⟩)
    | true =>
      cases hsince : rungSinceSnapshot es with
      | true => exact .inl ((h.polls hp).token rfl hsince)
      | false => exact .inr (.inr ⟨trigger, .inr ⟨hp, hsince⟩⟩)

/-- While a trailing poll is pending, what keeps the loop waiting leaves it pending and its timer as
it is set. -/
lemma Waits.pending (h : Waits cfg es w) (hp : w.phase = .selecting)
    (hpending : w.doorbellPending = true) (hs : Scheduling.step cfg t e w = some w')
    (hp' : w'.phase = .selecting) : w'.doorbellPending = true ∧ w'.timer = w.timer := by
  cases he : e.outside with
  | true =>
    have hb := beside_step he hs
    exact ⟨hb.doorbellPending.trans hpending, hb.timer⟩
  | false =>
    cases does_step he hs with
    | snapshot hpoll | polled n hpoll => cases hp.symm.trans hpoll
    | timer | leave => cases hp'
    | doorbell =>
      unfold Watcher.receiveDoorbell at hp' ⊢
      by_cases hfloor : cfg.debounceFloor ≤ t - w.lastPoll
      · rw [if_pos hfloor] at hp'
        cases hp'
      · rw [if_neg hfloor]
        refine ⟨rfl, h.deferred.trans ?_⟩
        rw [h.timer, hpending]
        rfl

lemma Waits.doorbellPoll (h : Waits cfg es w) (hp : w.phase = .selecting)
    (hs : Scheduling.step cfg t e w = some w') (hp' : w'.phase = .polling trigger snapshot)
    (hdoorbell : trigger.doorbell = true) : w.lastPoll + cfg.debounceFloor ≤ t := by
  cases he : e.outside with
  | true => cases (hp'.symm.trans (beside_step he hs).phase).trans hp
  | false =>
    cases does_step he hs with
    | snapshot hpoll | polled n hpoll => cases hp.symm.trans hpoll
    | leave => cases hp'
    | timer _ hdue =>
      cases hp'
      have hpending : w.doorbellPending = true := hdoorbell
      rw [h.timer, hpending, Timer.new, Timer.elapse] at hdue
      by_cases hle : w.lastPoll + cfg.debounceFloor ≤ t
      · exact hle
      · simp [hle] at hdue
    | doorbell =>
      unfold Watcher.receiveDoorbell at hp'
      by_cases hfloor : cfg.debounceFloor ≤ t - w.lastPoll
      · omega
      · rw [if_neg hfloor, hp] at hp'
        cases hp'

/-- **No doorbell is swallowed.** In every execution: while the loop runs, a notification forwarded
after the snapshot of the last completed poll began has a token in the channel, a trailing poll
pending with its timer due by the end of the floor, or a poll in progress that covers it. Further
doorbells do not move that deadline. A poll for a doorbell starts at least the floor after the end
of every earlier poll. If no doorbell was taken since the last poll, the next one starts at most the
baseline interval after its end, and what the `select` takes to see that the timer went off. -/
theorem no_doorbell_swallowed (cfg : WatcherConfig) (t0 : ℤ) {es : List (ℤ × Event)} {w : Watcher}
    (h : Execution cfg t0 es w) :
    ((∀ err, w.phase ≠ .shutdown err) → rung es = true → w.doorbellCh = true ∨
      (w.doorbellPending = true ∧ ∃ due ended, w.timer.armed = some due ∧
        lastEnd es = some ended ∧ due ≤ ended + cfg.debounceFloor) ∨ Covered es w) ∧
    ∀ t e w', clock t0 es ≤ t → step cfg t e w = some w' → w.phase = .selecting →
      (w.doorbellPending = true → w'.phase = .selecting → w'.doorbellPending = true ∧
        ∀ due due', w.timer.armed = some due → w'.timer.armed = some due' → due' ≤ due) ∧
      ∀ trigger, w'.phase = .polling trigger false →
        (trigger.doorbell = true → ∀ u n, (u, Event.polled n) ∈ es →
          u + cfg.debounceFloor ≤ t) ∧
        ∀ δ ended, undisturbed es = true → lastEnd es = some ended →
          (∀ due, w.timer.armed = some due → t ≤ max due ended + δ) →
          t ≤ ended + max cfg.baselineInterval 0 + δ := by
  refine ⟨h.orderly.kept, fun t e w' _ hs hp => ?_⟩
  have hwaits := h.orderly.waits hp
  refine ⟨fun hpending hp' => ?_, fun trigger hp' => ⟨fun hdoorbell u n hu => ?_,
    fun δ ended hquiet hended hserved => ?_⟩⟩
  · obtain ⟨hpending', htimer⟩ := hwaits.pending hp hpending hs hp'
    refine ⟨hpending', fun due due' hdue hdue' => ?_⟩
    rw [htimer, hdue] at hdue'
    cases hdue'
    exact Int.le_refl due
  · obtain ⟨ended, hended, hle⟩ := h.le_lastEnd hu
    have hfloor := hwaits.doorbellPoll hp hs hp' hdoorbell
    cases hended.symm.trans hwaits.ended
    omega
  · cases hended.symm.trans hwaits.ended
    have harmed : w.timer.armed = some (w.lastPoll + cfg.baselineInterval) := by
      rw [hwaits.timer, hwaits.undisturbed hquiet]
      rfl
    have := hserved _ harmed
    omega

def usual : WatcherConfig := newWatcher ⟨0, 0, true, true⟩

/-- The first poll, and a notification some time after it, the latest first. -/
def notifiedAt (t : ℤ) : List (ℤ × Event) :=
  [(t, .doorbell), (t, .listen .notified), (2 * millisecond, .listen .subscribed),
    (2 * millisecond, .polled 0), (millisecond, .snapshot)]

/-- Within the floor the doorbell waits for the trailing poll. -/
theorem no_doorbell_swallowed_deferred : ∃ w, Execution usual 0 (notifiedAt (50 * millisecond)) w ∧
    w.doorbellCh = false ∧ w.doorbellPending = true ∧ ∃ due ended, w.timer.armed = some due ∧
      lastEnd (notifiedAt (50 * millisecond)) = some ended ∧
      due ≤ ended + usual.debounceFloor := by
  have hrun : (replay (step usual) (.run 0) 0 (notifiedAt (50 * millisecond))).any fun w =>
      w.doorbellCh = false ∧ w.phase = .selecting := by decide +kernel
  simp only [Option.any_eq_true, decide_eq_true_eq] at hrun
  obtain ⟨w, hreplay, hch, hp⟩ := hrun
  have h := run_of_replay hreplay
  have hkept := (no_doorbell_swallowed usual 0 h).1 (by simp [hp]) (by decide)
  rcases hkept with hch' | hpending | ⟨trigger, hcovered⟩
  · rw [hch] at hch'
    cases hch'
  · exact ⟨w, h, hch, hpending⟩
  · simp [hp] at hcovered

/-- After the floor the token is taken and the poll begun, with nothing left that says so but the
poll itself. -/
theorem doorbell_in_poll : ∃ w, Execution usual 0 (notifiedAt (200 * millisecond)) w ∧
    (∀ err, w.phase ≠ .shutdown err) ∧ rung (notifiedAt (200 * millisecond)) = true ∧
    ¬(w.doorbellCh = true ∨ w.doorbellPending = true) := by
  have hrun : (replay (step usual) (.run 0) 0 (notifiedAt (200 * millisecond))).any fun w =>
      w.phase = .polling .leading false ∧ ¬(w.doorbellCh = true ∨ w.doorbellPending = true) := by
    decide +kernel
  simp only [Option.any_eq_true, decide_eq_true_eq] at hrun
  obtain ⟨w, hreplay, hp, hnone⟩ := hrun
  exact ⟨w, run_of_replay hreplay, by simp [hp], by decide, hnone⟩

end Runs

end Seaplane.Db.Scheduling
