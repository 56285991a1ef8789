import Seaplane.Db.Client
import Seaplane.Db.Watch

/-!
The canary probe of the verifier, over any number of its runs.

The verifier names its canaries by a counter in its memory, creates each as a new object and waits
for its watcher to deliver it. The counter starts again with every run and the objects stay, so a
run that finds the canaries of an earlier one creates none: its first tick is refused, and so is
every later one, since the counter only moves on after a write. A map of a thousand entries holds
the canaries that are still to be delivered; a tick that finds it full forgets one of them.
-/

namespace Seaplane.Db.Canary

open Lib Database

/-! ### The verifier -/

def canaryKey (gvk name : String) : Key := ⟨gvk, "_verifier", name⟩

def canaryName (count : ℕ) : String := "_verifier-canary-" ++ toString count

def canaryRequest (gvk name : String) : WriteParams where
  statusOnly := false
  key := canaryKey gvk name
  expectedVersion := 0
  expectedUid := none
  forceWrite := false
  spec := some (.obj [("canary", .bool true)])
  status := some (.obj [])
  metadata := some (.obj [])
  deletionTs := none

def canaryRingSize : ℕ := 1000

/-- The verifier's memory; times are in nanoseconds. -/
structure Verifier where
  hwm : ℕ := 0
  redeliveries : ℕ := 0
  eventsCount : ℕ := 0
  canaryCount : ℕ := 0
  canaryTimes : ℕ → ℤ := fun _ => 0
  canaryIdx : ℕ := 0
  canaryFull : Bool := false
  pendingCanaries : AList fun _ : String => ℤ := ∅

namespace Verifier

/-- The latency that an event gives, if it delivers a canary. -/
def latency (v : Verifier) (ev : Event) (now : ℤ) : Option ℤ :=
  if ev.key.ns = "_verifier" then (v.pendingCanaries.lookup ev.key.name).map (now - ·) else none

def observe (v : Verifier) (name : String) (latency : ℤ) : Verifier :=
  { v with
    canaryTimes := Function.update v.canaryTimes v.canaryIdx latency
    canaryIdx := if canaryRingSize ≤ v.canaryIdx + 1 then 0 else v.canaryIdx + 1
    canaryFull := decide (canaryRingSize ≤ v.canaryIdx + 1) || v.canaryFull
    pendingCanaries := v.pendingCanaries.erase name }

def checkEvent (v : Verifier) (ev : Event) (now : ℤ) : Verifier :=
  let seen := match v.latency ev now with
    | some l => v.observe ev.key.name l
    | none => v
  { seen with
    eventsCount := v.eventsCount + 1
    redeliveries :=
      if ev.row.txidStamp ≤ v.hwm ∧ 0 < v.hwm then v.redeliveries + 1 else v.redeliveries
    hwm := if v.hwm < ev.row.txidStamp then ev.row.txidStamp else v.hwm }

def full (v : Verifier) : Bool := canaryRingSize ≤ v.pendingCanaries.keys.length

/-- What `writeCanary` does after its write; `evicted` is the entry that a full map gives up. -/
def written (v : Verifier) (name evicted : String) (now : ℤ) : Verifier :=
  let pending := if v.full then v.pendingCanaries.erase evicted else v.pendingCanaries
  { v with canaryCount := v.canaryCount + 1, pendingCanaries := pending.insert name now }

end Verifier

/-! ### Its runs -/

abbrev CanaryCall := DbProg (Except WriteError WriteResult)

/-- The database, the calls of earlier runs that the server may still be executing, and the current
run: its memory, its write in progress, its watcher's watermark while that polls, and the events on
the channel. `ticks` and `checks` record what the run has done, the newest first: the ticks with
what the write returned, and the checked events with the latency that was recorded. -/
structure World where
  db : Database
  orphans : List CanaryCall
  memory : Verifier
  writing : Option (String × CanaryCall)
  watermark : Option ℕ
  channel : List Event
  ticks : List (String × Except WriteError WriteResult)
  checks : List (Event × Option ℤ)

/-- A new run; the call of the run before it, if one is in progress, goes on without it. -/
def World.restart (w : World) : World where
  db := w.db
  orphans := (w.writing.map (·.2)).toList ++ w.orphans
  memory := {}
  writing := none
  watermark := some 0
  channel := []
  ticks := []
  checks := []

/-- The name of the canary that the next tick writes. -/
def World.next (w : World) : String := canaryName w.memory.canaryCount

def World.initial : World := ⟨.empty, [], {}, none, some 0, [], [], []⟩

/-- A statement of another client: it writes none of the verifier's objects and runs in a
transaction of its own. -/
structure Foreign (gvk : String) (w : World) (o : Op) : Prop where
  target : ∀ k ∈ o.target, k.gvk = gvk → k.ns ≠ "_verifier"
  transaction : ∀ name o' k, w.writing = some (name, .op o' k) → ∀ x ∈ o'.transaction,
    o.transaction ≠ some x

section

variable (hashtext : Hash) (gvk : String) (ok : World → Prop)

/-- One step of a run whose ticks begin where `ok` holds. The loop of the verifier begins a tick or
checks an event only while it is not writing; the watcher polls at any time, and gives up when it is
told that its watermark is too old. -/
inductive Step : World → World → Prop where
  | client {w : World} {o : Op} {ch : Choice} {a : o.Res} {d : Database} (ho : Foreign gvk w o)
      (hx : exec o ch w.db = some (a, d)) : Step w { w with db := d }
  | orphan {w : World} {o : Op} {k : o.Res → CanaryCall} {ch : Choice} {a : o.Res} {d : Database}
      (i : ℕ) (hi : w.orphans[i]? = some (.op o k)) (hx : exec o ch w.db = some (a, d)) :
      Step w { w with db := d, orphans := w.orphans.set i (k a) }
  | tick {w : World} (hw : w.writing = none) (hok : ok w) :
      Step w { w with writing := some (w.next, callStoredProc (canaryRequest gvk w.next)) }
  | statement {w : World} {name : String} {o : Op} {k : o.Res → CanaryCall} {ch : Choice}
      {a : o.Res} {d : Database} (hw : w.writing = some (name, .op o k))
      (hx : exec o ch w.db = some (a, d)) :
      Step w { w with db := d, writing := some (name, k a) }
  | failed {w : World} {name : String} {e : WriteError}
      (hw : w.writing = some (name, .ret (.error e))) :
      Step w { w with writing := none, ticks := (name, .error e) :: w.ticks }
  | written {w : World} {name : String} {r : WriteResult} (evicted : String) (now : ℤ)
      (hw : w.writing = some (name, .ret (.ok r)))
      (he : w.memory.full → evicted ∈ w.memory.pendingCanaries) :
      Step w { w with
        writing := none
        memory := w.memory.written name evicted now
        ticks := (name, .ok r) :: w.ticks }
  | poll {w : World} {hwm hwm' : ℕ} {evs : List Event} (hw : w.watermark = some hwm)
      (h : pollAll hashtext ⟨gvk, none⟩ hwm w.db = .ok (evs, hwm')) :
      Step w { w with watermark := some hwm', channel := w.channel ++ evs }
  | gone {w : World} {hwm : ℕ} (hw : w.watermark = some hwm)
      (h : pollAll hashtext ⟨gvk, none⟩ hwm w.db = .error .gone) :
      Step w { w with watermark := none }
  | check {w : World} {ev : Event} {evs : List Event} (now : ℤ) (hw : w.writing = none)
      (hc : w.channel = ev :: evs) :
      Step w { w with
        memory := w.memory.checkEvent ev now
        channel := evs
        checks := (ev, w.memory.latency ev now) :: w.checks }

/-- What earlier runs may leave, however often they were restarted. -/
def Left : World → Prop :=
  Relation.ReflTransGen
    (fun w w' => Step hashtext gvk (fun _ => True) w w' ∨ w' = w.restart) .initial

end

/-! ### What the probe is for -/

/-- The number of latencies that were recorded for a key. -/
def recorded (k : Key) (checks : List (Event × Option ℤ)) : ℕ :=
  checks.countP fun e => e.2.isSome && e.1.key == k

abbrev created (r : Row) : Except WriteError WriteResult := .ok ⟨r.txidStamp, 1, r.uid, true⟩

/-- **The probe keeps probing**: a write in progress succeeds when it is left alone, every tick has
committed a canary of its own, one latency is recorded for each that was delivered, and none for
anything else. -/
structure Probes (gvk : String) (w : World) : Prop where
  completes {name : String} {c : CanaryCall} (h : w.writing = some (name, c)) (ch : Choice)
    (hu : w.db.fresh ch.uuid) : ∃ r d, c.eval exec ch w.db = some (.ok r, d)
  commits : ∀ t ∈ w.ticks, ∃ r, (canaryKey gvk t.1, r) ∈ w.db.hist ∧ t.2 = created r
  distinct : (w.ticks.map (·.1)).Nodup
  delivered : ∀ t ∈ w.ticks, ∀ e ∈ w.checks, e.1.key = canaryKey gvk t.1 →
    t.2 = created e.1.row ∧ recorded (canaryKey gvk t.1) w.checks = 1
  own : ∀ e ∈ w.checks, e.2.isSome →
    ∃ name, e.1.key = canaryKey gvk name ∧ (name, created e.1.row) ∈ w.ticks

/-- When a tick may begin: no row has the name that the counter gives, no call of an earlier run is
in progress, and the map of pending canaries has room. -/
structure Clear (gvk : String) (w : World) : Prop where
  vacant : w.db.table.lookup (canaryKey gvk w.next) = none
  settled : ∀ c ∈ w.orphans, c.finished
  room : ¬ w.memory.full

/-! ### The canaries in the table -/

variable {hashtext : Hash} {gvk name : String} {ok : World → Prop} {d d' : Database} {w w' : World}
  {o : Op} {ch : Choice} {a : o.Res} {r : Row} {c : CanaryCall}

/-- A canary that was ever committed is the row of its key, and it is live. -/
structure Kept (gvk : String) (d : Database) : Prop where
  historic : d.Historic
  stays {name : String} {r : Row} (h : (canaryKey gvk name, r) ∈ d.hist) :
    d.table.lookup (canaryKey gvk name) = some r ∧ r.tombstone = false

/-- The statements of the verifier's own calls. -/
def Creates (gvk : String) : Op → Prop
  | .insertRow _ p | .reviveRow _ p => ∃ name, p = canaryRequest gvk name
  | .currentXactId | .endTx _ => True
  | _ => False

lemma Kept.exec (h : Kept gvk d)
    (ho : (∀ k ∈ o.target, k.gvk = gvk → k.ns ≠ "_verifier") ∨ Creates gvk o)
    (hx : exec o ch d = some (a, d')) : Kept gvk d' := by
  refine ⟨h.historic.step ⟨o, ch, a, hx⟩, fun {name r} hmem => ?_⟩
  by_cases hk : o.target = some (canaryKey gvk name)
  · have ho := ho.resolve_left fun ho => ho _ hk rfl rfl
    cases o with
    | insertRow x p | reviveRow x p =>
      obtain ⟨name', rfl⟩ := ho
      cases hk
      rcases exec_create hx x (canaryRequest gvk name) (by simp) with rfl | ⟨r', hr', hts, rfl⟩
      · exact h.stays hmem
      rcases List.mem_cons.mp hmem with heq | hmem
      · cases heq
        refine ⟨(lookup_commitRow d x _ _ r).trans (if_pos rfl), ?_⟩
        simp [Row.tombstone, hts rfl]
      · -- a canary that is there is not a tombstone
        obtain ⟨hrow, hlive⟩ := h.stays hmem
        rw [hr'.vacant r hrow] at hlive
        cases hlive
    | currentXactId | selectRow k | endTx x | compact x c => cases hk
    | updateStatus x p | updateObject x p => cases ho
  · have hframe := exec_frame hx
    obtain ⟨hrow, hlive⟩ := h.stays (hframe.hist hk hmem)
    rcases hframe.lookup hk with hsame | ⟨-, r', hr', ht⟩
    · exact ⟨hsame.trans hrow, hlive⟩
    · cases hrow.symm.trans hr'
      rw [ht] at hlive
      cases hlive

lemma always_canaryCall (gvk name : String) :
    (callStoredProc (canaryRequest gvk name)).Always fun o _ => Creates gvk o := by
  refine ⟨trivial, fun x => ⟨⟨name, rfl⟩, fun a => ?_⟩⟩
  cases a with
  | row u v => trivial
  | noRow | notNullViolation => exact ⟨trivial, fun _ => trivial⟩
  | uniqueViolation =>
    refine ⟨⟨name, rfl⟩, fun a => ?_⟩
    cases a with
    | row u v => trivial
    | noRow | uniqueViolation | notNullViolation => exact ⟨trivial, fun _ => trivial⟩

structure Held (gvk : String) (w : World) : Prop where
  kept : Kept gvk w.db
  orphans : ∀ c ∈ w.orphans, c.Always fun o _ => Creates gvk o
  writing {name : String} {c : CanaryCall} (h : w.writing = some (name, c)) :
    c.Always fun o _ => Creates gvk o

lemma Held.step (h : Held gvk w) (hs : Step hashtext gvk ok w w') : Held gvk w' := by
  cases hs with
  | client ho hx => exact { h with kept := h.kept.exec (.inl ho.target) hx }
  | orphan i hi hx =>
    have hcall := h.orphans _ (List.mem_of_getElem? hi)
    refine { h with kept := h.kept.exec (.inr hcall.1) hx, orphans := fun c hc => ?_ }
    rcases List.mem_or_eq_of_mem_set hc with hc | rfl
    · exact h.orphans c hc
    · exact hcall.2 _
  | tick hw hok =>
    refine { h with writing := fun hw => ?_ }
    cases hw
    exact always_canaryCall gvk _
  | statement hw hx =>
    have hcall := h.writing hw
    refine { h with kept := h.kept.exec (.inr hcall.1) hx, writing := fun hw => ?_ }
    cases hw
    exact hcall.2 _
  | failed hw | written evicted now hw he => exact { h with writing := fun hw => by cases hw }
  | poll hw hp | gone hw hp => exact { h with }
  | check now hw hc => exact { h with }

lemma Held.restart (h : Held gvk w) : Held gvk w.restart := by
  refine ⟨h.kept, fun c hc => ?_, fun hw => by cases hw⟩
  rcases List.mem_append.mp hc with hc | hc
  · obtain ⟨⟨name, c⟩, hw, rfl⟩ := Option.map_eq_some_iff.mp (Option.mem_toList.mp hc)
    exact h.writing hw
  · exact h.orphans c hc

lemma held_of_left (h : Left hashtext gvk w) : Held gvk w := by
  induction h with
  | refl =>
    exact ⟨⟨historic_empty, fun hmem => by cases hmem⟩, by simp [World.initial],
      fun hw => by cases hw⟩
  | tail _ hs ih =>
    rcases hs with hs | rfl
    · exact ih.step hs
    · exact ih.restart

/-! ### A tick in progress -/

/-- How far the call of a tick is that found its name free. -/
inductive Stage (gvk : String) (d : Database) (name : String) : CanaryCall → Prop where
  | begin {k : ℕ → CanaryCall} (vacant : d.table.lookup (canaryKey gvk name) = none)
      (hk : ∀ x, ∃ k', k x = .op (.insertRow x (canaryRequest gvk name)) k' ∧
        ∀ u, k' (.row u 1) = .ret (.ok ⟨x, 1, u, true⟩)) : Stage gvk d name (.op .currentXactId k)
  | insert {x : ℕ} {k : Dml → CanaryCall} (vacant : d.table.lookup (canaryKey gvk name) = none)
      (running : x ∈ d.running) (hk : ∀ u, k (.row u 1) = .ret (.ok ⟨x, 1, u, true⟩)) :
      Stage gvk d name (.op (.insertRow x (canaryRequest gvk name)) k)
  | done {r : Row} (hr : (canaryKey gvk name, r) ∈ d.hist) : Stage gvk d name (.ret (created r))

lemma exec_vacant {x : ℕ} (hv : d.table.lookup (canaryKey gvk name) = none) (hx : x ∈ d.running)
    (hu : d.fresh ch.uuid) : ∃ r, r.txidStamp = x ∧ r.uid = ch.uuid ∧
      exec (.insertRow x (canaryRequest gvk name)) ch d =
        some (.row ch.uuid 1, d.commitRow x (canaryKey gvk name) r) := by
  rw [exec, if_pos ⟨hx, hu⟩]
  simp only [canaryRequest, WriteParams.inserted, Option.pure_def, Option.bind_eq_bind,
    Option.bind_some, Database.insert, hv]
  exact ⟨_, rfl, rfl, rfl⟩

lemma Stage.advance {k : o.Res → CanaryCall} (h : Stage gvk d name (.op o k))
    (hx : exec o ch d = some (a, d')) : Stage gvk d' name (k a) := by
  cases h with
  | begin hv hk =>
    cases hx
    obtain ⟨k', hk', hret⟩ := hk d.nextXid
    rw [hk']
    exact .insert hv List.mem_cons_self hret
  | insert hv hrun hk =>
    have hfresh : d.fresh ch.uuid := by
      exact (Option.ite_none_right_eq_some.mp hx).1.2
    obtain ⟨r, rfl, hu, hins⟩ := exec_vacant hv hrun hfresh
    cases hins.symm.trans hx
    rw [hk, ← hu]
    exact .done List.mem_cons_self

lemma Stage.frame (h : Stage gvk d name c) (hx : exec o ch d = some (a, d'))
    (hk : o.target ≠ some (canaryKey gvk name))
    (ht : ∀ o' k, c = .op o' k → ∀ x ∈ o'.transaction, o.transaction ≠ some x) :
    Stage gvk d' name c := by
  have hframe := exec_frame hx
  have hvacant : d.table.lookup (canaryKey gvk name) = none →
      d'.table.lookup (canaryKey gvk name) = none := by
    intro hv
    rcases hframe.lookup hk with hsame | ⟨hnone, -⟩
    · exact hsame.trans hv
    · exact hnone
  cases h with
  | begin hv hk => exact .begin (hvacant hv) hk
  | insert hv hrun hk => exact .insert (hvacant hv) (hframe.running (ht _ _ rfl _ rfl) hrun) hk
  | done hr => exact .done (hist_step hx hr)

lemma eval_insert {x : ℕ} {k : Dml → CanaryCall}
    (hv : d.table.lookup (canaryKey gvk name) = none) (hx : x ∈ d.running) (hu : d.fresh ch.uuid)
    (hk : ∀ u, k (.row u 1) = .ret (.ok ⟨x, 1, u, true⟩)) : ∃ r d',
      (Prog.op (.insertRow x (canaryRequest gvk name)) k).eval exec ch d = some (.ok r, d') := by
  obtain ⟨r, -, -, hins⟩ := exec_vacant hv hx hu
  exact ⟨_, _, (Prog.eval_op hins).trans (by rw [hk]; rfl)⟩

lemma Stage.completes (h : Stage gvk d name c) (hu : d.fresh ch.uuid) :
    ∃ r d', c.eval exec ch d = some (.ok r, d') := by
  cases h with
  | begin hv hk =>
    obtain ⟨k', hk', hret⟩ := hk d.nextXid
    have hbegin : exec .currentXactId ch d = some (d.nextXid, _) := rfl
    rw [Prog.eval_op hbegin, hk']
    exact eval_insert hv List.mem_cons_self hu hret
  | insert hv hrun hk => exact eval_insert hv hrun hu hk
  | done hr => exact ⟨_, _, rfl⟩

/-- The tick in progress, and what it found when it began. -/
structure Ticking (gvk : String) (w : World) (name : String) (c : CanaryCall) : Prop where
  stage : Stage gvk w.db name c
  settled : ∀ c ∈ w.orphans, c.finished
  room : ¬ w.memory.full
  unseen : ∀ e ∈ w.checks, e.1.key ≠ canaryKey gvk name
  unticked : name ∉ w.ticks.map (·.1)

/-! ### Runs whose ticks begin clear -/

/-- What holds of such a run: of a canary that it has written, either the delivery is pending, or
one latency is recorded. -/
structure Sound (gvk : String) (w : World) : Prop where
  ticking {name : String} {c : CanaryCall} (h : w.writing = some (name, c)) : Ticking gvk w name c
  channel : ∀ ev ∈ w.channel, (ev.key, ev.row) ∈ w.db.hist ∧ ev.key.gvk = gvk
  checked : ∀ e ∈ w.checks, (e.1.key, e.1.row) ∈ w.db.hist
  commits : ∀ t ∈ w.ticks, ∃ r, (canaryKey gvk t.1, r) ∈ w.db.hist ∧ t.2 = created r
  distinct : (w.ticks.map (·.1)).Nodup
  pending {name : String} (h : name ∈ w.memory.pendingCanaries) : ∃ t ∈ w.ticks, t.1 = name
  waiting : ∀ t ∈ w.ticks,
    t.1 ∈ w.memory.pendingCanaries ∧ (∀ e ∈ w.checks, e.1.key ≠ canaryKey gvk t.1) ∨
      t.1 ∉ w.memory.pendingCanaries ∧ recorded (canaryKey gvk t.1) w.checks = 1
  own : ∀ e ∈ w.checks, e.2.isSome → ∃ t ∈ w.ticks, e.1.key = canaryKey gvk t.1

lemma Sound.exec {os : List CanaryCall} {wr : Option (String × CanaryCall)} (h : Sound gvk w)
    (hx : exec o ch w.db = some (a, d)) (ht : ∀ {name c}, wr = some (name, c) →
      Ticking gvk { w with db := d, orphans := os, writing := wr } name c) :
    Sound gvk { w with db := d, orphans := os, writing := wr } :=
  { h with
    ticking := ht
    channel := fun ev he => ⟨hist_step hx (h.channel ev he).1, (h.channel ev he).2⟩
    checked := fun e he => hist_step hx (h.checked e he)
    commits := fun t he => by
      obtain ⟨r, hr, hres⟩ := h.commits t he
      exact ⟨r, hist_step hx hr, hres⟩ }

lemma Sound.written {res : WriteResult} {evicted : String} {now : ℤ} (h : Sound gvk w)
    (hw : w.writing = some (name, .ret (.ok res))) : Sound gvk { w with
      writing := none
      memory := w.memory.written name evicted now
      ticks := (name, .ok res) :: w.ticks } := by
  obtain ⟨hstage, -, hroom, hunseen, hunticked⟩ := h.ticking hw
  have hmem : ∀ {name'}, name' ∈ (w.memory.written name evicted now).pendingCanaries ↔
      name' = name ∨ name' ∈ w.memory.pendingCanaries := by
    simp [Verifier.written, hroom]
  cases hstage with
  | @done r hr =>
    refine { h with
      ticking := fun hw => by cases hw
      commits := List.forall_mem_cons.mpr ⟨⟨r, hr, rfl⟩, h.commits⟩
      distinct := List.nodup_cons.mpr ⟨hunticked, h.distinct⟩
      pending := fun hp => ?_
      waiting := List.forall_mem_cons.mpr ⟨.inl ⟨hmem.mpr (.inl rfl), hunseen⟩, fun t ht => ?_⟩
      own := fun e he hs => ?_ }
    · rcases hmem.mp hp with rfl | hp
      · exact ⟨_, List.mem_cons_self, rfl⟩
      · obtain ⟨t, ht, rfl⟩ := h.pending hp
        exact ⟨t, List.mem_cons_of_mem _ ht, rfl⟩
    · have hne : t.1 ≠ name := fun heq => hunticked (List.mem_map.mpr ⟨t, ht, heq⟩)
      rcases h.waiting t ht with ⟨hp, hc⟩ | ⟨hp, hc⟩
      · exact .inl ⟨hmem.mpr (.inr hp), hc⟩
      · exact .inr ⟨fun hp' => (hmem.mp hp').elim hne hp, hc⟩
    · obtain ⟨t, ht, hk⟩ := h.own e he hs
      exact ⟨t, List.mem_cons_of_mem _ ht, hk⟩

lemma latency_some {v : Verifier} {ev : Event} {now l : ℤ} (h : v.latency ev now = some l) :
    ev.key.ns = "_verifier" ∧ ev.key.name ∈ v.pendingCanaries := by
  obtain ⟨hns, h⟩ := Option.ite_none_right_eq_some.mp h
  obtain ⟨time, htime, -⟩ := Option.map_eq_some_iff.mp h
  exact ⟨hns, AList.lookup_isSome.mp (Option.isSome_iff_exists.mpr ⟨time, htime⟩)⟩

lemma Sound.check {ev : Event} {evs : List Event} {now : ℤ} (h : Sound gvk w)
    (hw : w.writing = none) (hc : w.channel = ev :: evs) : Sound gvk { w with
      memory := w.memory.checkEvent ev now
      channel := evs
      checks := (ev, w.memory.latency ev now) :: w.checks } := by
  have hch := List.forall_mem_cons.mp (hc ▸ h.channel)
  have hticking : ∀ {name c}, w.writing = some (name, c) → False := fun hw' => by
    cases hw.symm.trans hw'
  cases hl : w.memory.latency ev now with
  | none =>
    have hpend : (w.memory.checkEvent ev now).pendingCanaries = w.memory.pendingCanaries := by
      simp [Verifier.checkEvent, hl]
    refine { h with
      ticking := fun hw' => (hticking hw').elim
      channel := hch.2
      checked := List.forall_mem_cons.mpr ⟨hch.1.1, h.checked⟩
      pending := fun hp => h.pending (hpend ▸ hp)
      waiting := fun t ht => ?_
      own := List.forall_mem_cons.mpr ⟨fun hs => (by cases hs), h.own⟩ }
    rw [hpend]
    rcases h.waiting t ht with ⟨hp, hunseen⟩ | ⟨hp, hrec⟩
    · refine .inl ⟨hp, List.forall_mem_cons.mpr ⟨fun hk => ?_, hunseen⟩⟩
      simp only at hk
      obtain ⟨time, htime⟩ := Option.isSome_iff_exists.mp (AList.lookup_isSome.mpr hp)
      rw [Verifier.latency, hk, canaryKey, if_pos rfl, htime] at hl
      cases hl
    · exact .inr ⟨hp, hrec⟩
  | some l =>
    obtain ⟨hns, hmem⟩ := latency_some hl
    have hkey : ev.key = canaryKey gvk ev.key.name := by rw [canaryKey, ← hch.1.2, ← hns]
    obtain ⟨t0, ht0, hname⟩ := h.pending hmem
    have hpend : ∀ {name}, name ∈ (w.memory.checkEvent ev now).pendingCanaries ↔
        name ≠ ev.key.name ∧ name ∈ w.memory.pendingCanaries := by
      simp [Verifier.checkEvent, hl, Verifier.observe]
    refine { h with
      ticking := fun hw' => (hticking hw').elim
      channel := hch.2
      checked := List.forall_mem_cons.mpr ⟨hch.1.1, h.checked⟩
      pending := fun hp => h.pending (hpend.mp hp).2
      waiting := fun t ht => ?_
      own := List.forall_mem_cons.mpr ⟨fun _ => ⟨t0, ht0, hname ▸ hkey⟩, h.own⟩ }
    by_cases heq : t.1 = ev.key.name
    · -- the first delivery of this canary
      right
      refine ⟨fun hp => (hpend.mp hp).1 heq, ?_⟩
      rcases h.waiting t ht with ⟨-, hunseen⟩ | ⟨hp, -⟩
      · rw [heq, ← hkey] at hunseen ⊢
        have hzero : recorded ev.key w.checks = 0 :=
          List.countP_eq_zero.mpr fun e he => by simp [hunseen e he]
        rw [recorded] at hzero ⊢
        simp [hzero]
      · exact absurd (heq ▸ hmem) hp
    · have hne : ev.key ≠ canaryKey gvk t.1 := fun hk => heq (congrArg Key.name hk).symm
      rcases h.waiting t ht with ⟨hp, hunseen⟩ | ⟨hp, hrec⟩
      · exact .inl ⟨hpend.mpr ⟨heq, hp⟩, List.forall_mem_cons.mpr ⟨hne, hunseen⟩⟩
      · refine .inr ⟨fun hp' => hp (hpend.mp hp').2, ?_⟩
        rw [recorded] at hrec ⊢
        simp [hne, hrec]

lemma Sound.step (hh : Held gvk w) (h : Sound gvk w) (hs : Step hashtext gvk (Clear gvk) w w') :
    Sound gvk w' := by
  cases hs with
  | client ho hx =>
    refine h.exec hx fun hw => { h.ticking hw with stage := ?_ }
    refine (h.ticking hw).stage.frame hx (fun hk => ho.target _ hk rfl rfl) ?_
    rintro o' k rfl
    exact ho.transaction _ o' k hw
  | orphan i hi hx =>
    refine h.exec hx fun hw => ?_
    -- while a tick is in progress the earlier runs' calls are over
    cases (h.ticking hw).settled _ (List.mem_of_getElem? hi)
  | tick hw hok =>
    refine { h with ticking := fun hw' => ?_ }
    cases hw'
    have hnew : ∀ r, (canaryKey gvk w.next, r) ∉ w.db.hist := fun r hr => by
      cases (hh.kept.stays hr).1.symm.trans hok.vacant
    refine ⟨.begin hok.vacant fun x => ⟨_, rfl, fun u => rfl⟩, hok.settled, hok.room,
      fun e he hk => hnew _ (hk ▸ h.checked e he), fun hn => ?_⟩
    obtain ⟨t, ht, hname⟩ := List.mem_map.mp hn
    obtain ⟨r, hr, -⟩ := h.commits t ht
    exact hnew r (hname ▸ hr)
  | statement hw hx =>
    refine h.exec hx fun hw' => ?_
    cases hw'
    exact { h.ticking hw with stage := (h.ticking hw).stage.advance hx }
  | failed hw => cases (h.ticking hw).stage
  | written evicted now hw he => exact h.written hw
  | poll hw hp =>
    obtain ⟨-, rfl, -⟩ := not_gone hp
    refine { h with ticking := fun hw => { h.ticking hw with }, channel := fun ev hev => ?_ }
    rcases List.mem_append.mp hev with hev | hev
    · exact h.channel ev hev
    · obtain ⟨e, he, rfl⟩ := List.mem_map.mp hev
      obtain ⟨hrow, hscope, -⟩ := mem_query.mp he
      exact ⟨hh.kept.historic.mem _ _ hrow, by simpa [WatchConfig.inScope] using hscope⟩
  | gone hw hp => exact { h with ticking := fun hw => { h.ticking hw with } }
  | check now hw hc => exact h.check hw hc

lemma Sound.restart : Sound gvk w.restart := by
  constructor <;> simp [World.restart]

lemma Sound.probes (hk : Kept gvk w.db) (h : Sound gvk w) : Probes gvk w where
  completes hw ch hu := (h.ticking hw).stage.completes hu
  commits := h.commits
  distinct := h.distinct
  delivered t ht e he hkey := by
    refine ⟨?_, ?_⟩
    · obtain ⟨r, hr, hres⟩ := h.commits t ht
      have hrow := h.checked e he
      rw [hkey] at hrow
      cases (hk.stays hr).1.symm.trans (hk.stays hrow).1
      exact hres
    · rcases h.waiting t ht with ⟨-, hunseen⟩ | ⟨-, hrec⟩
      · exact absurd hkey (hunseen e he)
      · exact hrec
  own e he hs := by
    obtain ⟨t, ht, hkey⟩ := h.own e he hs
    obtain ⟨r, hr, hres⟩ := h.commits t ht
    have hrow := h.checked e he
    rw [hkey] at hrow
    cases (hk.stays hr).1.symm.trans (hk.stays hrow).1
    exact ⟨t.1, hkey, hres ▸ ht⟩

/-- **The probe keeps probing** in every run whose ticks begin clear, whatever earlier runs have
left. -/
theorem probe_keeps_probing (hashtext : Hash) (gvk : String) {w0 w : World}
    (h0 : Left hashtext gvk w0)
    (h : Relation.ReflTransGen (Step hashtext gvk (Clear gvk)) w0.restart w) : Probes gvk w := by
  have hrun : Held gvk w ∧ Sound gvk w := by
    induction h with
    | refl => exact ⟨(held_of_left h0).restart, .restart⟩
    | tail _ hs ih => exact ⟨ih.1.step hs, ih.2.step ih.1 hs⟩
  exact hrun.2.probes hrun.1.kept

/-- A first run writes a canary, polls and records its latency. -/
theorem probe_keeps_probing_first : ∃ w,
    Relation.ReflTransGen (Step (fun _ => 0) "g/v1/K" (Clear "g/v1/K")) World.initial.restart w ∧
      recorded (canaryKey "g/v1/K" "_verifier-canary-0") w.checks = 1 := by
  have hclear : Clear "g/v1/K" World.initial.restart :=
    ⟨rfl, by simp [World.restart, World.initial], by decide⟩
  have hrun : Relation.ReflTransGen (Step (fun _ => 0) "g/v1/K" (Clear "g/v1/K"))
      World.initial.restart _ :=
    (((((Relation.ReflTransGen.refl.tail (.tick rfl hclear)).tail
      (@Step.statement _ _ _ _ _ _ _ ⟨0, 7, []⟩ _ _ rfl rfl)).tail
      (@Step.statement _ _ _ _ _ _ _ ⟨0, 7, []⟩ _ _ rfl rfl)).tail
      (.written "" 10 rfl (by decide))).tail (.poll rfl rfl)).tail (.check 25 rfl rfl)
  have hprobes := probe_keeps_probing (fun _ => 0) "g/v1/K" .refl hrun
  exact ⟨_, hrun, (hprobes.delivered _ List.mem_cons_self _ List.mem_cons_self rfl).2⟩

/-- A run that is restarted after its first canary: the tick of the new run is refused. -/
theorem restart_stops_probing : ∃ w0 w, Left (fun _ => 0) "g/v1/K" w0 ∧
    Relation.ReflTransGen (Step (fun _ => 0) "g/v1/K" fun _ => True) w0.restart w ∧
      ¬ Probes "g/v1/K" w := by
  refine ⟨_, _,
    ((Relation.ReflTransGen.refl.tail (.inl (.tick rfl trivial))).tail
      (.inl (@Step.statement _ _ _ _ _ _ _ ⟨0, 7, []⟩ _ _ rfl rfl))).tail
      (.inl (@Step.statement _ _ _ _ _ _ _ ⟨0, 7, []⟩ _ _ rfl rfl)),
    -- the insertion finds the row, the revival finds it live, and the transaction is rolled back
    (((((Relation.ReflTransGen.refl.tail (.tick rfl trivial)).tail
      (@Step.statement _ _ _ _ _ _ _ ⟨0, 8, []⟩ _ _ rfl rfl)).tail
      (@Step.statement _ _ _ _ _ _ _ ⟨0, 8, []⟩ _ _ rfl rfl)).tail
      (@Step.statement _ _ _ _ _ _ _ ⟨0, 8, []⟩ _ _ rfl rfl)).tail
      (@Step.statement _ _ _ _ _ _ _ ⟨0, 8, []⟩ _ _ rfl rfl)).tail (.failed rfl), fun h => ?_⟩
  obtain ⟨r, -, hr⟩ := h.commits _ List.mem_cons_self
  cases hr

end Seaplane.Db.Canary
