import Seaplane.Db.History
import Seaplane.Db.ResourceVersion
import Seaplane.Db.Watch

/-!
The relay of watch events, and watches resumed from the objects it delivers.

The relay stamps every object with the largest transaction identifier it has forwarded, where
the poller itself only moves to `xmin - 1`. A watch opened at such a stamp therefore skips the
rows of transactions that were still running below it. It skips nothing when every row a poll
delivers lies below the `xmin` of its snapshot.
-/

namespace Seaplane.Db

open Lib

inductive WatchType where
  | added
  | modified
  | deleted
  deriving DecidableEq

def relayType (e : Event) : WatchType :=
  match e.type with
  | .added => .added
  | .modified => .modified
  | .deleted => if hasFinalizers e.row.metadata then .modified else .deleted

structure WatchEvent where
  type : WatchType
  key : Key
  row : Row
  resourceVersion : String

/-- A watcher and the relay on its channel: events polled and not yet relayed, the relay's
resource version, and what was forwarded. -/
structure Relay where
  hwm : ℕ
  queue : List Event
  currentRV : RV
  relayed : List WatchEvent

def Relay.start (w : ℕ) : Relay := ⟨w, [], ⟨0, w⟩, []⟩

/-- The relay's resource version after an event. -/
def Relay.advance (w : Relay) (e : Event) : RV where
  objectVersion := e.row.objectVersion
  watermark :=
    if w.currentRV.watermark < e.row.txidStamp then e.row.txidStamp else w.currentRV.watermark

/-- The relay takes an event from the channel and forwards it. -/
def Relay.forward (w : Relay) (e : Event) (q : List Event) : Relay :=
  { w with
    queue := q
    currentRV := w.advance e
    relayed := w.relayed ++ [⟨relayType e, e.key, e.row, (w.advance e).toString⟩] }

/-- A first watch and, once it has been stopped, the second one opened from it. `known` is what
was committed when the list that started the first one was read. -/
structure Resumed where
  db : Database
  known : List (Key × Row)
  first : Option Relay
  second : Option (ℕ × List Event)

/-- The steps of two successive watches; `ok` restricts the polls of the first. -/
inductive Resumed.Step (hashtext : Hash) (cfg : WatchConfig) (ok : ℕ → Database → Prop) :
    Resumed → Resumed → Prop where
  | db {d d' : Database} {kn : List (Key × Row)} {f : Option Relay} {s : Option (ℕ × List Event)}
      (h : d.Step d') : Step hashtext cfg ok ⟨d, kn, f, s⟩ ⟨d', kn, f, s⟩
  | start {d : Database} {kn : List (Key × Row)} : Step hashtext cfg ok ⟨d, kn, none, none⟩
      ⟨d, d.hist, some (.start (list hashtext cfg d).watermark), none⟩
  | poll {d : Database} {kn : List (Key × Row)} {w : Relay} {evs : List Event} {hwm : ℕ}
      (h : pollAll hashtext cfg w.hwm d = .ok (evs, hwm)) (hok : ok w.hwm d) :
      Step hashtext cfg ok ⟨d, kn, some w, none⟩
        ⟨d, kn, some { w with hwm := hwm, queue := w.queue ++ evs }, none⟩
  | relay {d : Database} {kn : List (Key × Row)} {w : Relay} {e : Event} {q : List Event}
      (h : w.queue = e :: q) :
      Step hashtext cfg ok ⟨d, kn, some w, none⟩ ⟨d, kn, some (w.forward e q), none⟩
  | reopen {d : Database} {kn : List (Key × Row)} {w : Relay} {e : WatchEvent} {rv : RV}
      (he : e ∈ w.relayed) (h : RV.parse e.resourceVersion = .ok rv) :
      Step hashtext cfg ok ⟨d, kn, some w, none⟩ ⟨d, kn, some w, some (rv.watermark, [])⟩
  | pollSecond {d : Database} {kn : List (Key × Row)} {w : Relay} {hwm hwm' : ℕ}
      {seen evs : List Event} (h : pollAll hashtext cfg hwm d = .ok (evs, hwm')) :
      Step hashtext cfg ok ⟨d, kn, some w, some (hwm, seen)⟩
        ⟨d, kn, some w, some (hwm', seen ++ evs)⟩

/-- What the first watch delivered before it was stopped. -/
def Relay.delivered (w : Relay) : List (Key × Row) := w.relayed.map fun e => (e.key, e.row)

def eventRows (evs : List Event) : List (Key × Row) := evs.map fun e => (e.key, e.row)

/-- Nothing is lost: every committed row in scope was known or delivered before the stop, is
delivered by the second watch, or has been superseded by a later row of its key. -/
def NothingLost (hashtext : Hash) (cfg : WatchConfig) (d : Database) (kn : List (Key × Row))
    (w : Relay) (seen : List Event) : Prop :=
  ∀ e ∈ d.hist, cfg.inScope hashtext e.1 →
    e ∈ kn ∨ e ∈ w.delivered ∨ e ∈ eventRows seen ∨ d.last e.1 ≠ some e.2

/-- Every row a poll at `hwm` delivers lies below the lowest running transaction. -/
def Calm (hashtext : Hash) (cfg : WatchConfig) (hwm : ℕ) (d : Database) : Prop :=
  ∀ e ∈ d.query hashtext cfg fun r => hwm < r.txidStamp, e.2.txidStamp < d.xmin

/-! ### Rows accounted for -/

variable {hashtext : Hash} {cfg : WatchConfig} {d d' : Database}

/-- Every committed row stamped at or below `h` is in `D` or superseded. -/
def Covered (hashtext : Hash) (cfg : WatchConfig) (d : Database) (h : ℕ) (D : Key × Row → Prop) :
    Prop :=
  ∀ e ∈ d.hist, cfg.inScope hashtext e.1 → e.2.txidStamp ≤ h → D e ∨ d.last e.1 ≠ some e.2

variable {D : Key × Row → Prop}

lemma Covered.mono {h h' : ℕ} {D' : Key × Row → Prop} (hc : Covered hashtext cfg d h D)
    (hh : h' ≤ h) (hD : ∀ e, D e → D' e) : Covered hashtext cfg d h' D' :=
  fun e he hk hs => (hc e he hk (hs.trans hh)).imp_left (hD e)

/-- Rows committed later are stamped above a floor, and supersede without being mistaken for
the row they replace. -/
lemma Covered.step {h : ℕ} (hc : Covered hashtext cfg d h D) (hh : d.Historic)
    (hf : d.toMvcc.Floor h) (hs : d.Step d') : Covered hashtext cfg d' h D := by
  have commit : ∀ x k (r : Row), x ∈ d.running → r.txidStamp = x →
      Covered hashtext cfg (d.commitRow x k r) h D := by
    intro x k r hx hr e he hk hle
    rcases List.mem_cons.mp he with rfl | he
    · have : h < x := hf.2 x hx
      simp only at hle
      omega
    · rw [Database.last_commitRow]
      split
      · refine .inr fun heq => hh.stamp_ne he hx ?_
        rw [← hr, Option.some.inj heq]
      · exact hc e he hk hle
  obtain ⟨o, ch, a, hs⟩ := hs
  cases Database.exec_effect hs with
  | refl | begin | finish x | compact x c ch => exact hc
  | create x p r h | replace x p r0 r h => exact commit x p.key r h.running h.stamp

lemma Covered.poll {h h' : ℕ} {evs : List Event} (hd : d.Sane)
    (hc : Covered hashtext cfg d h D) (hp : pollAll hashtext cfg h d = .ok (evs, h')) :
    ∀ e ∈ d.hist, cfg.inScope hashtext e.1 →
      (D e ∨ e ∈ eventRows evs) ∨ d.last e.1 ≠ some e.2 := by
  intro e he hk
  obtain ⟨hh, rfl, -⟩ := not_gone hp
  by_cases hle : e.2.txidStamp ≤ h
  · exact (hc e he hk hle).imp_left .inl
  by_cases hl : d.last e.1 = some e.2
  · refine .inl (.inr ?_)
    rcases hd.purged e.1 with h1 | ⟨-, r, h2, -, h4⟩
    · have hrow : d.table.lookup e.1 = some e.2 := h1.trans hl
      simp only [eventRows, List.map_map, List.mem_map, Function.comp_apply]
      exact ⟨e, mem_query.mpr ⟨hrow, hk, by simpa using hle⟩, rfl⟩
    · -- a purged row lies below the horizon, which the poll has passed
      cases hl.symm.trans h2
      have hg : e.1.gvk = cfg.gvk := by simp_all [WatchConfig.inScope]
      simp only [Database.toMvcc, hg] at h4
      omega
  · exact .inr hl

/-! ### The relay's invariant -/

/-- Under calm polls the first watch accounts for what it has passed: everything up to the
poller's watermark was known, delivered or is queued, and everything up to the relay's own
watermark was known or delivered. -/
structure Relay.Accounts (hashtext : Hash) (cfg : WatchConfig) (d : Database)
    (kn : List (Key × Row)) (w : Relay) : Prop where
  floor : d.toMvcc.Floor w.hwm
  below : w.currentRV.watermark ≤ w.hwm
  queued : Covered hashtext cfg d w.hwm
    fun e => (e ∈ kn ∨ e ∈ w.delivered) ∨ e ∈ eventRows w.queue
  passed : Covered hashtext cfg d w.currentRV.watermark fun e => e ∈ kn ∨ e ∈ w.delivered
  sorted : (w.queue.map (·.row.txidStamp)).Pairwise (· < ·)
  bound : ∀ e ∈ w.queue, e.row.txidStamp ≤ w.hwm
  stamps : ∀ e ∈ w.relayed, ∀ rv, RV.parse e.resourceVersion = .ok rv →
    rv.watermark ≤ w.currentRV.watermark

lemma query_sorted (hh : d.Historic) (cond : Row → Bool) :
    ((d.query hashtext cfg cond).map (·.2.txidStamp)).Pairwise (· < ·) := by
  have hle : (d.query hashtext cfg cond).Pairwise fun a b => a.2.txidStamp ≤ b.2.txidStamp := by
    have htotal : Std.Total fun a b : Key × Row => a.2.txidStamp ≤ b.2.txidStamp :=
      ⟨fun a b => le_total a.2.txidStamp b.2.txidStamp⟩
    have htrans : IsTrans (Key × Row) fun a b => a.2.txidStamp ≤ b.2.txidStamp :=
      ⟨fun _ _ _ => le_trans⟩
    exact List.pairwise_insertionSort _ _
  have hnd : (d.query hashtext cfg cond).Nodup := by
    refine (List.perm_insertionSort _ _).nodup_iff.mpr ?_
    refine List.Nodup.map (fun a b h => ?_) (d.table.nodupKeys.nodup.filter _)
    obtain ⟨k, r⟩ := a
    obtain ⟨k', r'⟩ := b
    simp only [Prod.mk.injEq] at h
    rw [Sigma.mk.injEq]
    exact ⟨h.1, heq_of_eq h.2⟩
  rw [List.pairwise_map]
  refine (hle.and hnd).imp_of_mem fun {a b} ha hb hab => lt_of_le_of_ne hab.1 fun heq => hab.2 ?_
  exact hh.stamp_inj (hh.mem _ _ (mem_query.mp ha).1) (hh.mem _ _ (mem_query.mp hb).1) heq

variable {kn : List (Key × Row)} {w : Relay}

lemma Relay.Accounts.step (ha : w.Accounts hashtext cfg d kn) (hh : d.Historic)
    (hs : d.Step d') : w.Accounts hashtext cfg d' kn :=
  { ha with
    floor := hs.lift (fun _ => ha.floor.step) ha.floor
    queued := ha.queued.step hh ha.floor hs
    passed := ha.passed.step hh
      ⟨lt_of_le_of_lt ha.below ha.floor.1,
        fun x hx => lt_of_le_of_lt ha.below (ha.floor.2 x hx)⟩ hs }

lemma Relay.Accounts.start (hd : d.Sane) :
    (Relay.start (list hashtext cfg d).watermark).Accounts hashtext cfg d d.hist where
  floor := by
    have h := hd.xmin_pos
    simpa [Relay.start, list, show 0 < d.xmin by omega] using hd.floor_xmin
  below := le_rfl
  queued e he _ _ := .inl (.inl (.inl he))
  passed e he _ _ := .inl (.inl he)
  sorted := .nil
  bound := by simp [Relay.start]
  stamps := by simp [Relay.start]

lemma Relay.Accounts.poll {evs : List Event} {hwm : ℕ} (ha : w.Accounts hashtext cfg d kn)
    (hd : d.Sane) (hh : d.Historic) (h : pollAll hashtext cfg w.hwm d = .ok (evs, hwm))
    (hcalm : Calm hashtext cfg w.hwm d) :
    Relay.Accounts hashtext cfg d kn { w with hwm := hwm, queue := w.queue ++ evs } := by
  have hall := ha.queued.poll hd h
  obtain ⟨-, rfl, rfl⟩ := not_gone h
  set hwm' := if 0 < d.xmin ∧ w.hwm < d.xmin - 1 then d.xmin - 1 else w.hwm with hdef
  have hx := hd.xmin_pos
  have hge : w.hwm ≤ hwm' := by simp only [hdef]; split <;> omega
  have hxm : d.xmin - 1 ≤ hwm' := by simp only [hdef]; split <;> omega
  refine ⟨?_, ha.below.trans hge, ?_, ha.passed, ?_, ?_, ha.stamps⟩
  · simp only [hdef]
    split
    · exact hd.floor_xmin
    · exact ha.floor
  · intro e he hk _
    refine (hall e he hk).imp_left ?_
    rintro ((hD | hq) | hq)
    · exact .inl hD
    · exact .inr (by simp [eventRows] at hq ⊢; exact .inl hq)
    · exact .inr (by simp [eventRows] at hq ⊢; exact .inr hq)
  · rw [List.map_append, List.pairwise_append]
    refine ⟨ha.sorted, by simpa [Function.comp_def] using query_sorted hh _, ?_⟩
    intro a hqa b hqb
    obtain ⟨e, he, rfl⟩ := List.mem_map.mp hqa
    simp only [List.map_map, List.mem_map, Function.comp_apply] at hqb
    obtain ⟨e', he', rfl⟩ := hqb
    have hlt : w.hwm < e'.2.txidStamp := by simpa using (mem_query.mp he').2.2
    exact lt_of_le_of_lt (ha.bound e he) hlt
  · intro e he
    rcases List.mem_append.mp he with he | he
    · exact (ha.bound e he).trans hge
    · obtain ⟨e', he', rfl⟩ := List.mem_map.mp he
      have := hcalm e' he'
      simp only
      omega

/-- Events leave the channel in the order of their stamps, so the relay's watermark passes a
stamp only when everything below it has been forwarded. -/
lemma Relay.Accounts.forward {e : Event} {q : List Event} (ha : w.Accounts hashtext cfg d kn)
    (h : w.queue = e :: q) : (w.forward e q).Accounts hashtext cfg d kn := by
  have hsorted := ha.sorted
  rw [h, List.map_cons, List.pairwise_cons] at hsorted
  have hbound := ha.bound
  rw [h, List.forall_mem_cons] at hbound
  have hdel : (w.forward e q).delivered = w.delivered ++ [(e.key, e.row)] := by
    simp [Relay.forward, Relay.delivered]
  have hadv : (w.advance e).watermark ≤ w.hwm := by
    simp only [Relay.advance]
    split
    · exact hbound.1
    · exact ha.below
  refine ⟨ha.floor, hadv, ?_, ?_, hsorted.2, hbound.2, ?_⟩
  · refine ha.queued.mono le_rfl fun e' hD => ?_
    rw [h, eventRows, List.map_cons, List.mem_cons] at hD
    rw [hdel, List.mem_append, List.mem_singleton]
    tauto
  · intro e' he' hk hle
    simp only [hdel, List.mem_append, List.mem_singleton]
    by_cases hlt : w.currentRV.watermark < e.row.txidStamp
    · have hle' : e'.2.txidStamp ≤ e.row.txidStamp := by
        simpa [Relay.forward, Relay.advance, hlt] using hle
      refine (ha.queued e' he' hk (hle'.trans hbound.1)).imp_left ?_
      simp only [h, eventRows, List.map_cons, List.mem_cons]
      rintro (hD | rfl | hq)
      · tauto
      · exact .inr (.inr rfl)
      · -- what is still queued was stamped later
        obtain ⟨e'', hm, rfl⟩ := List.mem_map.mp hq
        exact absurd (hsorted.1 _ (List.mem_map_of_mem hm)) (not_lt.mpr hle')
    · have hle' : e'.2.txidStamp ≤ w.currentRV.watermark := by
        simpa [Relay.forward, Relay.advance, hlt] using hle
      have := ha.passed e' he' hk hle'
      tauto
  · intro e' he' rv hrv
    have hle : w.currentRV.watermark ≤ (w.advance e).watermark := by
      simp only [Relay.advance]
      split <;> omega
    rcases List.mem_append.mp he' with he' | he'
    · exact (ha.stamps e' he' rv hrv).trans hle
    · rw [List.mem_singleton] at he'
      subst he'
      exact (RV.watermark_of_parse hrv).le

/-! ### Resuming -/

/-- What holds in every state of the two watches when the polls of the first are calm. -/
structure Resumed.Good (hashtext : Hash) (cfg : WatchConfig) (s : Resumed) : Prop where
  sane : s.db.Sane
  historic : s.db.Historic
  first : ∀ w, s.first = some w → w.Accounts hashtext cfg s.db s.known
  floor : ∀ p, s.second = some p → s.db.toMvcc.Floor p.1
  second : ∀ w p, s.first = some w → s.second = some p → Covered hashtext cfg s.db p.1
    fun e => (e ∈ s.known ∨ e ∈ w.delivered) ∨ e ∈ eventRows p.2

lemma Resumed.good_empty : Resumed.Good hashtext cfg ⟨.empty, [], none, none⟩ where
  sane := Database.sane_empty
  historic := Database.historic_empty
  first := by simp
  floor := by simp
  second := by simp

lemma Resumed.Good.step {s s' : Resumed} (hg : s.Good hashtext cfg)
    (h : Resumed.Step hashtext cfg (Calm hashtext cfg) s s') : s'.Good hashtext cfg := by
  obtain ⟨hd, hh, hfirst, hfloor, hsecond⟩ := hg
  cases h with
  | db h =>
    refine ⟨hd.step h, hh.step h, ?_, ?_, ?_⟩
    · exact fun w hw => (hfirst w hw).step hh h
    · exact fun p hp => h.lift (fun _ => (hfloor p hp).step) (hfloor p hp)
    · exact fun w p hw hp => (hsecond w p hw hp).step hh (hfloor p hp) h
  | start =>
    refine ⟨hd, hh, ?_, by simp, by simp⟩
    rintro w ⟨⟩
    exact .start hd
  | poll h hok =>
    refine ⟨hd, hh, ?_, by simp, by simp⟩
    rintro w ⟨⟩
    exact (hfirst _ rfl).poll hd hh h hok
  | relay h =>
    refine ⟨hd, hh, ?_, by simp, by simp⟩
    rintro w ⟨⟩
    exact (hfirst _ rfl).forward h
  | @reopen d kn w e rv he h =>
    have ha := hfirst w rfl
    have hle := (ha.stamps e he rv h).trans ha.below
    refine ⟨hd, hh, hfirst, ?_, ?_⟩
    · rintro p ⟨⟩
      exact ⟨lt_of_le_of_lt hle ha.floor.1, fun x hx => lt_of_le_of_lt hle (ha.floor.2 x hx)⟩
    · rintro w' p ⟨⟩ ⟨⟩
      exact ha.passed.mono (ha.stamps e he rv h) fun e hD => .inl hD
  | @pollSecond d kn w hwm hwm' seen evs h =>
    refine ⟨hd, hh, hfirst, ?_, ?_⟩
    · rintro p ⟨⟩
      obtain ⟨-, -, rfl⟩ := not_gone h
      dsimp only
      split
      · exact hd.floor_xmin
      · exact hfloor _ rfl
    · rintro w' p ⟨⟩ ⟨⟩ e he hk -
      have := (hsecond w _ rfl rfl).poll hd h e he hk
      simp only [eventRows, List.map_append, List.mem_append] at this ⊢
      tauto

lemma Resumed.good_of_run {s : Resumed}
    (h : Relation.ReflTransGen (Resumed.Step hashtext cfg (Calm hashtext cfg))
      ⟨.empty, [], none, none⟩ s) : s.Good hashtext cfg := by
  induction h with
  | refl => exact Resumed.good_empty
  | tail _ h ih => exact ih.step h

/-- **Resuming**: in every run in which each poll of the first watch delivers only rows below the
`xmin` of its snapshot, a watch reopened at the resource version of any relayed object is either
refused or loses nothing. -/
theorem resume_complete {d : Database} {kn : List (Key × Row)} {w : Relay} {hwm : ℕ}
    {seen : List Event} (h : Relation.ReflTransGen (Resumed.Step hashtext cfg (Calm hashtext cfg))
      ⟨.empty, [], none, none⟩ ⟨d, kn, some w, some (hwm, seen)⟩) :
    pollAll hashtext cfg hwm d = .error .gone ∨
    ∃ evs hwm', pollAll hashtext cfg hwm d = .ok (evs, hwm') ∧
      NothingLost hashtext cfg d kn w (seen ++ evs) := by
  have hg := Resumed.good_of_run h
  cases hp : pollAll hashtext cfg hwm d with
  | error e => cases e; exact .inl rfl
  | ok p =>
    refine .inr ⟨p.1, p.2, rfl, fun e he hk => ?_⟩
    have := (hg.second w _ rfl rfl).poll hg.sane hp e he hk
    simp only [eventRows, List.map_append, List.mem_append] at this ⊢
    tauto

/-- The event of the sample object, and a relay that has forwarded it. -/
def sampleEvent : Event :=
  ⟨.added, sampleParams.key, ⟨7, 3, 1, .obj [], .obj [], .obj [], none, 0, 0⟩⟩

def sampleRelay : Relay := (Relay.mk 3 [sampleEvent] ⟨0, 2⟩ []).forward sampleEvent []

/-- A watch resumed at the only object created so far loses nothing. -/
theorem resume_complete_create :
    ∃ evs hwm, pollAll (fun _ => 0) ⟨"g/v1/K", none⟩ 3 sampleDb = .ok (evs, hwm) ∧
      NothingLost (fun _ => 0) ⟨"g/v1/K", none⟩ sampleDb [] sampleRelay ([] ++ evs) := by
  have h1 : Relation.ReflTransGen
      (Resumed.Step (fun _ => 0) ⟨"g/v1/K", none⟩ (Calm (fun _ => 0) ⟨"g/v1/K", none⟩))
      ⟨.empty, [], none, none⟩ ⟨sampleDb, [], some (.start 2), none⟩ :=
    ((Relation.ReflTransGen.refl.tail .start).tail
      (.db ⟨.currentXactId, ⟨0, 0, []⟩, 3, rfl⟩)).tail
      (.db ⟨.insertRow 3 sampleParams, ⟨0, 7, []⟩, .row 7 1, rfl⟩)
  have h2 : Resumed.Step (fun _ => 0) ⟨"g/v1/K", none⟩ (Calm (fun _ => 0) ⟨"g/v1/K", none⟩)
      ⟨sampleDb, [], some (.start 2), none⟩
      ⟨sampleDb, [], some ⟨3, [sampleEvent], ⟨0, 2⟩, []⟩, none⟩ :=
    .poll rfl (by unfold Calm; decide)
  have hrv : RV.parse (RV.mk 1 3).toString = .ok ⟨1, 3⟩ :=
    RV.parse_toString (by decide) (by decide) (by decide)
  rcases resume_complete (((h1.tail h2).tail (.relay rfl)).tail
    (.reopen List.mem_cons_self hrv)) with hg | h
  · cases hg
  · exact h

/-! ### The stamp of the relay is not a safe place to resume -/

/-- The key and the arguments of a create of the object `name`. -/
def sampleKey (name : String) : Key := ⟨"g/v1/K", "ns", name⟩

def createParams (name : String) : WriteParams := { sampleParams with key := sampleKey name }

/-- The row such a create commits in transaction `x`. -/
def createdRow (x : ℕ) (uid : Uid) : Row :=
  ⟨uid, x, 1, .obj [], .obj [], .obj [], none, 0, 0⟩

/-- Transaction 4 has committed while transaction 3 is still running. -/
def overtaken : Database :=
  (Database.mk 5 [4, 3] ∅ ∅ []).commitRow 4 (sampleKey "b") (createdRow 4 8)

def caughtUp : Database := overtaken.commitRow 3 (sampleKey "a") (createdRow 3 7)

def overtakenEvent : Event := ⟨.added, sampleKey "b", createdRow 4 8⟩

def overtakenRelay : Relay := (Relay.mk 2 [overtakenEvent] ⟨0, 2⟩ []).forward overtakenEvent []

lemma run_overtaken {ok : ℕ → Database → Prop} (hok : ok 2 overtaken) :
    Relation.ReflTransGen (Resumed.Step (fun _ => 0) ⟨"g/v1/K", none⟩ ok)
      ⟨.empty, [], none, none⟩ ⟨caughtUp, [], some overtakenRelay, some (4, [])⟩ := by
  have h1 : Relation.ReflTransGen (Resumed.Step (fun _ => 0) ⟨"g/v1/K", none⟩ ok)
      ⟨.empty, [], none, none⟩ ⟨overtaken, [], some (.start 2), none⟩ :=
    (((Relation.ReflTransGen.refl.tail .start).tail
      (.db ⟨.currentXactId, ⟨0, 0, []⟩, 3, rfl⟩)).tail
      (.db ⟨.currentXactId, ⟨0, 0, []⟩, 4, rfl⟩)).tail
      (.db ⟨.insertRow 4 (createParams "b"), ⟨0, 8, []⟩, .row 8 1, rfl⟩)
  have h2 : Resumed.Step (fun _ => 0) ⟨"g/v1/K", none⟩ ok
      ⟨overtaken, [], some (.start 2), none⟩
      ⟨overtaken, [], some ⟨2, [overtakenEvent], ⟨0, 2⟩, []⟩, none⟩ := .poll rfl hok
  have hrv : RV.parse (RV.mk 1 4).toString = .ok ⟨1, 4⟩ :=
    RV.parse_toString (by decide) (by decide) (by decide)
  exact (((h1.tail h2).tail (.relay rfl)).tail (.reopen List.mem_cons_self hrv)).tail
    (.db ⟨.insertRow 3 (createParams "a"), ⟨0, 7, []⟩, .row 7 1, rfl⟩)

/-- The row of transaction 3 is never delivered. -/
theorem resume_loses : ∃ d kn w hwm,
    Relation.ReflTransGen (Resumed.Step (fun _ => 0) ⟨"g/v1/K", none⟩ fun _ _ => True)
      ⟨.empty, [], none, none⟩ ⟨d, kn, some w, some (hwm, [])⟩ ∧
    ∃ evs hwm', pollAll (fun _ => 0) ⟨"g/v1/K", none⟩ hwm d = .ok (evs, hwm') ∧
      ¬ NothingLost (fun _ => 0) ⟨"g/v1/K", none⟩ d kn w evs := by
  refine ⟨caughtUp, [], overtakenRelay, 4, run_overtaken trivial, [], 4, rfl, fun h => ?_⟩
  have := h (sampleKey "a", createdRow 3 7) List.mem_cons_self rfl
  revert this
  decide

end Seaplane.Db
