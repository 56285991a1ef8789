import Seaplane.Operator.Conduct

/-!
What an upsert and a check of the reports promise.

The calls of the operator's DynamoDB client run together with the appliers. Calls on one document
come one after another, those on different documents in any order. A call to DynamoDB may fail
before or after it had its effect, and a read for an upsert may answer with any version the item
ever had, or with none. An applier reports on an item it has found at some time. Hashes of specs and
document IDs are injective, as in the tables.
-/

namespace Seaplane.Operator

open Lib Fleet Dynamo
open Kube (Condition)

/-! ### The system -/

inductive Call where
  | upsert (k : DocKey) (spec : DesireSpec)
  | deleteSpec (k : DocKey)
  | check (entries : List DesireStatusEntry)
  /-- The operator restarts: its cache is empty. -/
  | restart
  /-- An applier writes its report. -/
  | report (k : DocKey) (s : ApplyDesireStatus)

inductive Reply where
  | upserted (r : Except Unit UpsertResult)
  | deleted (r : Except Unit Unit)
  | checked (c : Condition)
  | silent

/-- Also what a read that need not be consistent answers, if it is not the current item. -/
structure LooseChoice where
  choice : Fleet.Choice := {}
  stale : Option (Option Dynamo.Item) := none

/-- The operations, with reads for upserts that need not be consistent. -/
def looseExec (o : Fleet.Op) (x : LooseChoice) (s : State) : Option (o.Res × State) :=
  match o with
  | .dynamo (.getItem k) =>
    match x.stale with
    | some v => if v.all (s.tables.wrote k) then some (.ok v, s) else none
    | none => Fleet.exec (.dynamo (.getItem k)) x.choice s
  | o => Fleet.exec o x.choice s

variable {k : DocKey} {spec : DesireSpec} {o : Fleet.Op} {i : Dynamo.Item} {d : Tables}
  {st : ApplyDesireStatus}

variable {l : Call} {x : LooseChoice} {s s' : State} {tr : List Event}

namespace Call

def code : Call → FleetProg Reply
  | upsert k spec => (upsertDesire k spec).bind fun r => .ret (.upserted r)
  | deleteSpec k => (deleteDesireSpec k).bind fun r => .ret (.deleted r)
  | check entries => (checkApplyDesireStatuses entries).bind fun c => .ret (.checked c)
  | restart => (dynamo .resetCache).bind fun _ => .ret .silent
  | report k s => (dynamo (.report k s)).bind fun _ => .ret .silent

/-- The call works on the document; a restart ends the work on all of them. -/
def worksOn : Call → DocKey → Prop
  | upsert k _, k' | deleteSpec k, k' => k = k'
  | restart, _ => True
  | check _, _ | report _ _, _ => False

instance (l : Call) (k : DocKey) : Decidable (l.worksOn k) :=
  match l with
  | upsert k' _ | deleteSpec k' => inferInstanceAs (Decidable (k' = k))
  | restart => isTrue trivial
  | check _ | report _ _ => isFalse id

def excl : Call → Call → Bool
  | upsert k _, upsert k' _ | upsert k _, deleteSpec k' | deleteSpec k, upsert k' _
  | deleteSpec k, deleteSpec k' => k == k'
  | upsert _ _, restart | deleteSpec _, restart | restart, upsert _ _ | restart, deleteSpec _
  | restart, restart => true
  | _, _ => false

lemma excl_symm (l l' : Call) : excl l l' = excl l' l := by
  cases l <;> cases l' <;> simp [excl, eq_comm]

lemma excl_of_worksOn {l' : Call} (h : l.worksOn k) (h' : l'.worksOn k) : excl l l' = true := by
  cases l <;> cases l' <;> simp_all [excl, worksOn]

lemma excl_upsert (h : ¬l.worksOn k) : excl (upsert k spec) l = false := by
  cases l with
  | upsert | deleteSpec => exact beq_eq_false_iff_ne.mpr fun hk => h hk.symm
  | restart => exact absurd trivial h
  | check | report => rfl

end Call

def clients : System Fleet.Op Fleet.Op.Res State LooseChoice Call Reply where
  exec := looseExec
  code := Call.code
  excl := Call.excl

abbrev ClientConf := Conf Fleet.Op Fleet.Op.Res State Call Reply

def noCalls : ClientConf := ⟨.empty, []⟩

/-- The `i`-th call is an upsert that has succeeded, and no call on its document was made since. -/
def LatestUpsert (c : ClientConf) (i : ℕ) (k : DocKey)
    (spec : DesireSpec) (u : UpsertResult) : Prop :=
  c.pool[i]? = some ⟨.upsert k spec, .ret (.upserted (.ok u))⟩ ∧
    ∀ j t, i < j → c.pool[j]? = some t → ¬t.label.worksOn k

/-! ### What the operations do -/

lemma loose_eq (h : ∀ k, o ≠ .dynamo (.getItem k)) (x : LooseChoice) (s : State) :
    looseExec o x s = Fleet.exec o x.choice s := by
  cases o with
  | dynamo d =>
    cases d with
    | getItem k => exact absurd rfl (h k)
    | _ => rfl
  | _ => rfl

lemma loose_dynamo {o : Dynamo.Op} {r : o.Res} (h : looseExec (.dynamo o) x s = some (r, s')) :
    Tables.exec o x.choice.fault s.tables = some (r, s'.tables) ∨
      ∃ k v, (⟨.dynamo o, r⟩ : Event) = ⟨.dynamo (.getItem k), .ok v⟩ ∧ x.stale = some v ∧
        s' = s := by
  cases o with
  | getItem k =>
    simp only [looseExec] at h
    split at h
    · next v hv =>
      split at h
      · cases h; exact .inr ⟨k, v, rfl, hv, rfl⟩
      · cases h
    · exact .inl (exec_dynamo h).1
  | _ =>
    rw [loose_eq (by simp)] at h
    exact .inl (exec_dynamo h).1

lemma loose_did {o : Dynamo.Op} {r : o.Res}
    (h : looseExec (.dynamo o) x s = some (r, s')) : s.tables.Did o s'.tables := by
  rcases loose_dynamo h with h | ⟨k, v, -, -, rfl⟩
  · exact Tables.did_exec h
  · exact .nothing _

lemma loose_tables {r : o.Res} (h : looseExec o x s = some (r, s')) :
    (∃ d, o = .dynamo d ∧ s.tables.Did d s'.tables) ∨
      (∀ d, o ≠ .dynamo d) ∧ s'.tables = s.tables := by
  by_cases ho : ∃ d, o = .dynamo d
  · obtain ⟨d, rfl⟩ := ho
    exact .inl ⟨d, rfl, loose_did h⟩
  rw [loose_eq (fun k hk => ho ⟨_, hk⟩)] at h
  cases o with
  | dynamo d => exact absurd ⟨d, rfl⟩ ho
  | kube o => exact .inr ⟨by simp, (exec_kube h).2⟩
  | infra o => exact .inr ⟨by simp, (exec_infra h).2.2⟩
  | check a r => exact .inr ⟨by simp, by rw [exec_check h]⟩
  | now => exact .inr ⟨by simp, by rw [(exec_now h).1]⟩

/-! ### What a call may do, and what it knows -/

/-- The cache holds nothing but what the table holds. -/
def Agree (k : DocKey) (s : State) : Prop :=
  ∀ i, s.tables.cache.lookup k = some i → s.tables.specs.lookup k = some i

/-- A write that fails after it had its effect finds nothing cached, and a read does not answer the
very desire it is made for unless that is what the table holds. -/
def Reliable (l : Call) (o : Fleet.Op) (x : LooseChoice) (s : State) : Prop :=
  match o with
  | .dynamo (.putItem k _) | .dynamo (.deleteItem k) =>
    x.choice.fault = .lost → s.tables.cache.lookup k = none
  | .dynamo (.getItem k) =>
    ∀ i, x.stale = some (some i) → l = .upsert k i.spec → s.tables.specs.lookup k = some i
  | _ => True

inductive Call.Does : Call → List Event → Dynamo.Op → Prop where
  | load {k : DocKey} {spec : DesireSpec} {tr : List Event} (h : ¬Open k tr) :
      Does (.upsert k spec) tr (.cacheLoad k)
  | put {k : DocKey} {tr : List Event} {i : Dynamo.Item} (h : Stamped tr i) :
      Does (.upsert k i.spec) tr (.putItem k i)
  | store {k : DocKey} {tr : List Event} {i : Dynamo.Item} (h : Held tr k i) :
      Does (.upsert k i.spec) tr (.cacheStore k i)
  | delete (k : DocKey) (tr : List Event) : Does (.deleteSpec k) tr (.deleteItem k)
  | forget (k : DocKey) (tr : List Event) : Does (.deleteSpec k) tr (.cacheDelete k)
  | reset (tr : List Event) : Does .restart tr .resetCache
  | report (k : DocKey) (st : ApplyDesireStatus) (tr : List Event) :
      Does (.report k st) tr (.report k st)

def Call.May (l : Call) (tr : List Event) (o : Fleet.Op) : Prop :=
  Modest tr o ∨ ∃ d, o = .dynamo d ∧ l.Does tr d

def Call.Returns : Call → List Event → Reply → Prop
  | .upsert k spec, tr, a => ∃ r, a = .upserted r ∧ Upserted k spec [] tr r
  | .deleteSpec k, tr, _ => ¬Open k tr
  | .restart, tr, _ => ∀ k, ¬Open k tr
  | .check entries, tr, a => ∃ c, a = .checked c ∧ (c.status → ∀ e ∈ entries, Reported tr e)
  | .report _ _, _, _ => True

lemma guards_call (l : Call) : l.code.Guards Any l.May l.Returns [] := by
  have hA : ∀ (l : Call) (tr : List Event) (o : Fleet.Op), Modest tr o → l.May tr o :=
    fun _ _ _ h => .inl h
  cases l with
  | upsert k spec =>
    refine (guards_upsertDesire (hA _) (.inr ⟨_, rfl, .load id⟩) ?_ ?_).bind
      fun tr r h => ⟨r, rfl, h⟩
    · rintro tr i - rfl hs
      exact .inr ⟨_, rfl, .put hs⟩
    · rintro tr i - rfl hs
      exact .inr ⟨_, rfl, .store hs⟩
  | deleteSpec k =>
    exact (guards_deleteDesireSpec (.inr ⟨_, rfl, .delete k _⟩)
      fun _ => .inr ⟨_, rfl, .forget k _⟩).bind fun tr r h => fun ho => h.2.2 ho
  | check entries =>
    exact (guards_checkApplyDesireStatuses (hA _) entries []).bind fun tr c h => ⟨c, rfl, h.2⟩
  | restart =>
    refine ⟨.inr ⟨_, rfl, .reset _⟩, fun r _ k => ?_⟩
    simp [Open, Since, Opens]
  | report k st => exact ⟨.inr ⟨_, rfl, .report k st _⟩, fun _ _ => trivial⟩

lemma Call.May.frame (h : l.May tr o) {r : o.Res} (hx : looseExec o x s = some (r, s'))
    (hk : ¬l.worksOn k) : s'.tables.specs.lookup k = s.tables.specs.lookup k ∧
      s'.tables.cache.lookup k = s.tables.cache.lookup k := by
  rcases loose_tables hx with ⟨d, rfl, hd⟩ | ⟨-, ht⟩
  · refine hd.frame ?_
    rcases h with (h | h) | ⟨d', hd', h⟩
    · cases d <;> first | rfl | cases h
    · exact h.elim
    · cases hd'
      cases h with
      | load | report => rfl
      | put | store | delete | forget => simpa [Dynamo.Op.touches, worksOn] using hk
      | reset => exact absurd trivial hk
  · rw [ht]
    exact ⟨rfl, rfl⟩

/-- What a call knows: the documents it works on agree with the cache unless it is about to make
them, what it has found of its desire is what the table holds, and the clock is not at zero. -/
structure Call.Knows (l : Call) (tr : List Event) (s : State) : Prop where
  agree k : l.worksOn k → Open k tr ∨ Agree k s
  held k i : l = .upsert k i.spec → Held tr k i → s.tables.specs.lookup k = some i
  clock t : (⟨.now, t⟩ : Event) ∈ tr → second ≤ t

/-- Every item was written at a time other than zero. -/
def Dated (s : State) : Prop := ∀ k i, s.tables.wrote k i → 0 < i.updateTime

lemma Stamped.pos (h : Stamped tr i) (hk : l.Knows tr s) : 0 < i.updateTime := by
  obtain ⟨t, ht, hi⟩ := h
  have hsec : (1000000000 : ℤ) ≤ t := hk.clock t ht
  have hdiv : i.updateTime = t / 1000000000 := hi
  omega

lemma Open.cons {kd : DocKey} {e : Event} (h : Open kd tr) (he : ¬Closes kd e) :
    Open kd (e :: tr) := .inr ⟨he, h⟩

section

variable {l : Call} {tr : List Event} {x : LooseChoice} {s s' : State}

lemma Call.Knows.quiet {r : o.Res} (hk : l.Knows tr s)
    (hs : ∀ k, s'.tables.specs.lookup k = s.tables.specs.lookup k)
    (hc : ∀ k, s'.tables.cache.lookup k = s.tables.cache.lookup k) (hclose : ∀ k, ¬Closes k ⟨o, r⟩)
    (hheld : ∀ k i, l = .upsert k i.spec → Holds k i ⟨o, r⟩ → s.tables.specs.lookup k = some i)
    (hnow : ∀ t, (⟨.now, t⟩ : Event) = ⟨o, r⟩ → second ≤ t) : l.Knows (⟨o, r⟩ :: tr) s' := by
  refine ⟨fun k hl => ?_, fun k i hl hi => ?_, fun t ht => ?_⟩
  · rcases hk.agree k hl with h | h
    · exact .inl (h.cons (hclose k))
    · exact .inr fun i hi => by rw [hs]; exact h i (by rw [← hc]; exact hi)
  · rw [hs]
    rcases hi with hi | ⟨-, hi⟩
    · exact hheld k i hl hi
    · exact hk.held k i hl hi
  · rcases List.mem_cons.mp ht with ht | ht
    · exact hnow t ht
    · exact hk.clock t ht

lemma Call.Knows.modest {r : o.Res} (hk : l.Knows tr s) (ho : Modest tr o) (hok : Reliable l o x s)
    (hx : looseExec o x s = some (r, s')) : l.Knows (⟨o, r⟩ :: tr) s' := by
  rcases loose_tables hx with ⟨d, rfl, hd⟩ | ⟨hne, ht⟩
  · rcases ho with ho | ho
    swap
    · exact ho.elim
    -- a read of DynamoDB
    have hread : isRead d := ho
    have htouch : ∀ k, d.touches k = false := by
      intro k
      cases d <;> first | rfl | cases hread
    refine hk.quiet (fun k => (hd.frame (htouch k)).1) (fun k => (hd.frame (htouch k)).2) ?_ ?_
      (by simp)
    · rintro k (⟨i, hi⟩ | hi) <;> (cases hi; cases hread)
    · intro k i hl hi
      rcases hi with hi | hi | hi
      · cases hi; cases hread
      · cases hi
        rcases loose_dynamo hx with h | ⟨k', v, he, hv, -⟩
        · cases hf : x.choice.fault <;> simp [Tables.exec, hf] at h
          exact h.1
        · cases he
          exact hok i hv hl
      · cases hi; cases hread
  · refine hk.quiet (by simp [ht]) (by simp [ht]) ?_ ?_ ?_
    · rintro k (⟨i, hi⟩ | hi) <;> exact absurd hi (hne _)
    · rintro k i - (hi | hi | hi) <;> exact absurd (congrArg Sigma.fst hi) (hne _)
    · rintro t he
      cases he
      exact (exec_now hx).2

lemma Call.Knows.document {d : Dynamo.Op} {r : d.Res} (hk : l.Knows tr s)
    (hl : ∀ k', l.worksOn k' → k' = k) (hagree : Open k (⟨.dynamo d, r⟩ :: tr) ∨ Agree k s')
    (hheld : ∀ i, l = .upsert k i.spec → Held (⟨.dynamo d, r⟩ :: tr) k i →
      s'.tables.specs.lookup k = some i) : l.Knows (⟨.dynamo d, r⟩ :: tr) s' := by
  refine ⟨fun k' hk' => ?_, fun k' i hki hi => ?_, fun t ht => ?_⟩
  · rw [hl k' hk']
    exact hagree
  · obtain rfl : k' = k := hl k' (by rw [hki]; rfl)
    exact hheld i hki hi
  · rcases List.mem_cons.mp ht with ht | ht
    · cases ht
    · exact hk.clock t ht

lemma Call.Knows.load {r : Option Dynamo.Item} (hk : (Call.upsert k spec).Knows tr s)
    (ho : ¬Open k tr) (hx : looseExec (.dynamo (.cacheLoad k)) x s = some (r, s')) :
    (Call.upsert k spec).Knows (⟨.dynamo (.cacheLoad k), r⟩ :: tr) s' := by
  rw [loose_eq (by simp)] at hx
  cases hx
  -- nothing is under way, so the cache agrees with the table
  have ha : Agree k s := (hk.agree k rfl).resolve_left ho
  refine hk.document (k := k) (fun k' h => h.symm) (.inr ha) fun i hl hi => ?_
  rcases hi with (hi | hi | hi) | ⟨-, hi⟩
  · cases hi
  · cases hi
  · simp only [Sigma.mk.injEq, true_and, heq_eq_eq] at hi
    exact ha i hi
  · exact hk.held k i hl hi

lemma Call.Knows.put {r : Except Unit Unit} (hk : (Call.upsert k i.spec).Knows tr s)
    (hok : Reliable (.upsert k i.spec) (.dynamo (.putItem k i)) x s)
    (hx : looseExec (.dynamo (.putItem k i)) x s = some (r, s')) :
    (Call.upsert k i.spec).Knows (⟨.dynamo (.putItem k i), r⟩ :: tr) s' := by
  rw [loose_eq (by simp)] at hx
  have hput := Tables.exec_putItem (exec_dynamo hx).1
  refine hk.document (k := k) (fun k' h => h.symm) ?_ fun i' hl hi => ?_
  · rcases hput with ⟨ht, rfl | ⟨rfl, hf⟩⟩ | ⟨ht, rfl⟩
    · exact .inl (.inl (.inl ⟨i, rfl⟩))
    · -- the effect was not confirmed, and nothing is cached
      refine .inr fun j hj => ?_
      rw [ht] at hj
      exact absurd ((hok hf).symm.trans hj) (by simp)
    · rcases hk.agree k rfl with h | h
      · exact .inl (h.cons (by simp [Closes]))
      · exact .inr fun j hj => by rw [ht] at hj ⊢; exact h j hj
  · rcases hi with (hi | hi | hi) | ⟨hp, -⟩
    · cases hi
      rcases hput with ⟨ht, -⟩ | ⟨-, hr⟩
      · rw [ht]
        exact AList.lookup_insert _
      · cases hr
    · cases hi
    · cases hi
    · exact absurd ⟨i, rfl⟩ hp

lemma Call.Knows.store {r : Unit} (hk : (Call.upsert k i.spec).Knows tr s) (hheld : Held tr k i)
    (hx : looseExec (.dynamo (.cacheStore k i)) x s = some (r, s')) :
    (Call.upsert k i.spec).Knows (⟨.dynamo (.cacheStore k i), r⟩ :: tr) s' := by
  rw [loose_eq (by simp)] at hx
  cases hx
  have hspec := hk.held k i rfl hheld
  refine hk.document (k := k) (fun k' h => h.symm) (.inr fun j hj => ?_) fun j hl hj => ?_
  · obtain rfl : i = j := Option.some.inj ((AList.lookup_insert _).symm.trans hj)
    exact hspec
  · rcases hj with (hj | hj | hj) | ⟨-, hj⟩
    · cases hj
    · cases hj
    · cases hj
    · exact hk.held k j hl hj

lemma Call.Knows.delete {r : Except Unit Unit} (hk : (Call.deleteSpec k).Knows tr s)
    (hok : Reliable (.deleteSpec k) (.dynamo (.deleteItem k)) x s)
    (hx : looseExec (.dynamo (.deleteItem k)) x s = some (r, s')) :
    (Call.deleteSpec k).Knows (⟨.dynamo (.deleteItem k), r⟩ :: tr) s' := by
  rw [loose_eq (by simp)] at hx
  refine hk.document (k := k) (fun k' h => h.symm) ?_ fun i hl => by cases hl
  rcases Tables.exec_deleteItem (exec_dynamo hx).1 with ⟨ht, rfl | ⟨rfl, hf⟩⟩ | ⟨ht, rfl⟩
  · exact .inl (.inl (.inr rfl))
  · refine .inr fun j hj => ?_
    rw [ht] at hj
    exact absurd ((hok hf).symm.trans hj) (by simp)
  · rcases hk.agree k rfl with h | h
    · exact .inl (h.cons (by simp [Closes]))
    · exact .inr fun j hj => by rw [ht] at hj ⊢; exact h j hj

lemma Call.Knows.does {d : Dynamo.Op} {r : d.Res} (hk : l.Knows tr s) (hd : l.Does tr d)
    (hok : Reliable l (.dynamo d) x s) (hx : looseExec (.dynamo d) x s = some (r, s')) :
    l.Knows (⟨.dynamo d, r⟩ :: tr) s' := by
  cases hd with
  | load h => exact hk.load h hx
  | put h => exact hk.put hok hx
  | store h => exact hk.store h hx
  | delete k => exact hk.delete hok hx
  | forget k =>
    rw [loose_eq (by simp)] at hx
    cases hx
    refine hk.document (k := k) (fun k' h => h.symm) (.inr fun j hj => ?_) fun i hl => by cases hl
    exact absurd ((AList.lookup_erase _ _).symm.trans hj) (by simp)
  | reset =>
    rw [loose_eq (by simp)] at hx
    cases hx
    refine ⟨fun k _ => .inr fun j hj => ?_, nofun, fun t ht => ?_⟩
    · exact absurd ((AList.lookup_empty k).symm.trans hj) (by simp)
    · rcases List.mem_cons.mp ht with ht | ht
      · cases ht
      · exact hk.clock t ht
  | report k st =>
    have hd := loose_did hx
    refine hk.quiet (fun k' => (hd.frame rfl).1) (fun k' => (hd.frame rfl).2) ?_ ?_ (by simp)
    · rintro k' (⟨i, hi⟩ | hi) <;> cases hi
    · intro k' i hl
      cases hl

end

/-! ### A successful upsert -/

lemma dated_step {r : o.Res} (hI : Dated s) (hk : l.Knows tr s) (hm : l.May tr o)
    (hx : looseExec o x s = some (r, s')) : Dated s' := by
  intro k i hw
  rcases loose_tables hx with ⟨d, rfl, hd⟩ | ⟨-, ht⟩
  · rcases hd.wrote_new hw with hw | rfl
    · exact hI k i hw
    · -- an item that is put is stamped
      rcases hm with (hm | hm) | ⟨d, hd, hm⟩
      · cases hm
      · exact hm.elim
      · cases hd
        cases hm with
        | put h => exact h.pos hk
  · exact hI k i (by rwa [ht] at hw)

lemma outline :
    clients.Outline Reliable Call.May Call.Returns Dated Call.Knows Call.worksOn Agree where
  guards := guards_call
  symm := Call.excl_symm
  alone := Call.excl_of_worksOn
  start _ hN := ⟨fun k hk => .inr (hN k hk), fun _ _ _ h => h.elim, fun _ h => by cases h⟩
  own := by
    intro l tr o x s s' r hI hk hm hok hx
    refine ⟨dated_step hI hk hm hx, ?_⟩
    rcases hm with hm | ⟨d, rfl, hd⟩
    · exact hk.modest hm hok hx
    · exact hk.does hd hok hx
  other := by
    intro l l' tr tr' o x s s' r hex _ hk _ hm _ hx
    have hframe : ∀ k, l.worksOn k → s'.tables.specs.lookup k = s.tables.specs.lookup k ∧
        s'.tables.cache.lookup k = s.tables.cache.lookup k := fun k hl =>
      hm.frame hx fun hl' => by
        have := Call.excl_of_worksOn hl hl'
        exact absurd (this.symm.trans hex) (by simp)
    refine ⟨fun k hl => ?_, fun k i hl hi => ?_, hk.clock⟩
    · rcases hk.agree k hl with h | h
      · exact .inl h
      · refine .inr fun i hi => ?_
        rw [(hframe k hl).1]
        exact h i (by rw [← (hframe k hl).2]; exact hi)
    · rw [(hframe k (by rw [hl]; rfl)).1]
      exact hk.held k i hl hi
  keep := by
    intro l k tr o x s s' r hl _ _ hN hm _ hx i hi
    obtain ⟨hs, hc⟩ := hm.frame hx hl
    rw [hs]
    exact hN i (by rw [← hc]; exact hi)
  finish := by
    intro l k tr a s hl _ hk hQ
    refine (hk.agree k hl).resolve_left fun ho => ?_
    cases l with
    | upsert k' spec =>
      obtain ⟨r, -, hr⟩ := hQ
      cases hl
      exact hr.closed ho
    | deleteSpec k' => cases hl; exact hQ ho
    | restart => exact hQ k ho
    | check | report => exact hl

lemma agree_empty (k : DocKey) : Agree k .empty := by
  intro i hi
  exact absurd ((AList.lookup_empty k).symm.trans hi) (by simp)

lemma dated_empty : Dated .empty := by
  intro k i hw
  simp [State.empty, Tables.empty, Tables.wrote] at hw

variable {es : List (ℕ × Event)} {c : ClientConf}

lemma latest_stored (h : clients.HistIf Reliable noCalls es c) {i : ℕ} {u : UpsertResult}
    (hu : LatestUpsert c i k spec u) :
    c.store.tables.specs.lookup k = some ⟨spec, u.updateTime⟩ := by
  refine outline.post (P := fun l a s => ∀ k spec u, l = .upsert k spec → a = .upserted (.ok u) →
    s.tables.specs.lookup k = some ⟨spec, u.updateTime⟩) dated_empty agree_empty h ?_ ?_ hu.1 ?_
    k spec u rfl rfl
  · rintro l tr a s - hk hQ k spec u rfl rfl
    obtain ⟨r, hr, hup⟩ := hQ
    cases hr
    obtain ⟨⟨spec, t⟩, rfl, rfl, hi⟩ := hup.held u rfl
    exact hk.held k _ rfl hi
  · rintro l l' a tr o x s s' r hex - hP - hm - hx k spec u rfl rfl
    rw [(hm.frame hx fun hl => ?_).1]
    · exact hP k spec u rfl rfl
    · have := Call.excl_of_worksOn (l := .upsert k spec) (k := k) rfl hl
      exact absurd (this.symm.trans hex) (by simp)
  · exact fun j t hj ht => Call.excl_upsert (hu.2 j t hj ht)

/-- **A successful upsert means the table holds the spec.** In every run in which writes that fail
after their effect find nothing cached, and reads do not answer the desire they are made for unless
the table holds it: from the return of a successful upsert to the next call on its document, the
table holds exactly the spec that was passed, with the update time that was returned. -/
theorem upsert_truthful (h : clients.HistIf Reliable noCalls es c) {i : ℕ} {k : DocKey}
    {spec : DesireSpec} {u : UpsertResult} (hu : LatestUpsert c i k spec u) :
    c.store.tables.specs.lookup k = some ⟨spec, u.updateTime⟩ := latest_stored h hu

/-- The upsert a program has successfully made, with its update time. -/
def succeeded (t : Thread Fleet.Op Fleet.Op.Res Call Reply) :
    Option (DocKey × DesireSpec × Bool × ℤ) :=
  match t with
  | ⟨.upsert k spec, .ret (.upserted (.ok u))⟩ => some (k, spec, u.changed, u.updateTime)
  | _ => none

/-- The successful upserts that no call on the same document has followed. -/
def latest (c : ClientConf) (i : ℕ) :
    Option (DocKey × DesireSpec × Bool × ℤ) :=
  ((c.pool[i]?).bind succeeded).filter fun r =>
    (c.pool.drop (i + 1)).all fun t => !decide (t.label.worksOn r.1)

lemma latestUpsert_of {i : ℕ} {b : Bool} {t : ℤ} (h : latest c i = some (k, spec, b, t)) :
    LatestUpsert c i k spec ⟨b, t⟩ := by
  obtain ⟨hr, hlast⟩ := Option.filter_eq_some_iff.mp h
  obtain ⟨th, hth, hs⟩ := Option.bind_eq_some_iff.mp hr
  refine ⟨?_, fun j u hj hu => ?_⟩
  · rw [hth]
    unfold succeeded at hs
    split at hs
    · cases hs; rfl
    · cases hs
  · have hmem : u ∈ c.pool.drop (i + 1) := by
      refine List.mem_iff_getElem?.mpr ⟨j - (i + 1), ?_⟩
      rw [List.getElem?_drop, Nat.add_sub_cancel' hj, hu]
    simpa using List.all_eq_true.mp hlast u hmem

/-- A document, and a desire of either type for it. -/
def sampleKey : DocKey := ⟨"mc", .applyDesires, ⟨taskKey, "", "v1", "configmaps", "ns", "a"⟩⟩

def sampleDesire (type : ApplyDesireType) : DesireSpec :=
  .apply ⟨type, "mc", "u", ⟨"", "v1", "configmaps", "ns", "a"⟩, none⟩

/-- An upsert that goes to DynamoDB, as the `i`-th program at a time; its put goes wrong as `f`
says. -/
def upsertEvents (i : ℕ) (type : ApplyDesireType) (t : Kube.Time) (f : Kube.Fault) :
    List (System.Event LooseChoice Call) :=
  let at_ (f : Kube.Fault) : LooseChoice := { choice := { now := t, fault := f } }
  [.spawn (.upsert sampleKey (sampleDesire type)), .act i (at_ .none), .act i (at_ .none),
   .act i (at_ .none), .act i (at_ f)] ++ if f = .none then [.act i (at_ .none)] else []

/-- `Reliable` where every read is consistent. -/
def reliable (_ : Call) (o : Fleet.Op) (x : LooseChoice) (s : State) : Bool :=
  match o with
  | .dynamo (.putItem k _) | .dynamo (.deleteItem k) =>
    x.choice.fault != .lost || (s.tables.cache.lookup k).isNone
  | .dynamo (.getItem _) => x.stale.isNone
  | _ => true

lemma reliable_sound (l : Call) (o : Fleet.Op) (x : LooseChoice) (s : State)
    (h : reliable l o x s) : Reliable l o x s := by
  unfold reliable at h
  unfold Reliable
  split
  · intro hf
    simpa [hf] using h
  · intro hf
    simpa [hf] using h
  · intro i hi
    simp [hi] at h
  · trivial

/-- A put whose confirmation is lost while nothing is cached: the same upsert succeeds when it is
made again, and the table holds it. -/
theorem upsert_truthful_again : ∃ (es : List (ℕ × Event))
    (c : ClientConf) (i : ℕ) (u : UpsertResult),
    clients.HistIf Reliable noCalls es c ∧
      LatestUpsert c i sampleKey (sampleDesire .serverSideApply) u ∧
      c.store.tables.specs.lookup sampleKey =
        some ⟨sampleDesire .serverSideApply, u.updateTime⟩ := by
  have hrun : (clients.recordIf reliable (upsertEvents 0 .serverSideApply (3 * second) .lost ++
      [.spawn (.upsert sampleKey (sampleDesire .serverSideApply)), .act 1 {}, .act 1 {}, .act 1 {}])
      ([], noCalls)).bind (fun h => latest h.2 1) =
        some (sampleKey, sampleDesire .serverSideApply, false, 3) := by
    decide +kernel
  obtain ⟨⟨es, c⟩, hc, hobs⟩ := Option.bind_eq_some_iff.mp hrun
  have hes := System.HistIf.record reliable_sound .start hc
  have hlast := latestUpsert_of hobs
  exact ⟨es, c, _, _, hes, hlast, upsert_truthful hes hlast⟩

/-- A put is made but not confirmed while another desire is cached. The cached one, upserted again,
is then taken to be there. -/
theorem upsert_misled : ∃ (es : List (ℕ × Event)) (c : ClientConf) (i : ℕ) (u : UpsertResult),
    clients.Hist noCalls es c ∧ LatestUpsert c i sampleKey (sampleDesire .serverSideApply) u ∧
      c.store.tables.specs.lookup sampleKey = some ⟨sampleDesire .delete, 4⟩ := by
  have hrun : (clients.runSchedule (upsertEvents 0 .serverSideApply (3 * second) .none ++
      upsertEvents 1 .delete (4 * second) .lost ++
      [.spawn (.upsert sampleKey (sampleDesire .serverSideApply)), .act 2 {}])
      noCalls).bind (fun c => (latest c 2).map fun r =>
        (r, c.store.tables.specs.lookup sampleKey)) =
      some ((sampleKey, sampleDesire .serverSideApply, false, 3),
        some ⟨sampleDesire .delete, 4⟩) := by
    decide +kernel
  obtain ⟨c, hc, hobs⟩ := Option.bind_eq_some_iff.mp hrun
  obtain ⟨r, hr, hobs⟩ := Option.map_eq_some_iff.mp hobs
  obtain ⟨rfl, hspec⟩ := Prod.mk.inj hobs
  obtain ⟨es, hes⟩ := (System.run_of_schedule hc).hist
  exact ⟨es, c, _, _, hes, latestUpsert_of hr, hspec⟩

/-! ### A check that reports Synced -/

/-- The clock is past every earlier put of the document that was about another desire. -/
def Punctual (o : Fleet.Op) (s : State) : Prop :=
  match o with
  | .dynamo (.putItem k i) =>
    ∀ i', s.tables.wrote k i' → i.updateTime ≤ i'.updateTime → i'.spec = i.spec
  | _ => True

/-- Of all items ever written under a key, those that are not older than the current one ask for the
same. -/
def Newest (d : Tables) : Prop :=
  ∀ k i i', d.specs.lookup k = some i → d.wrote k i' → i.updateTime ≤ i'.updateTime →
    i'.spec = i.spec

/-- Every item in the table, and every item a report is about, was written. -/
structure Grounded (d : Tables) : Prop where
  stored {k : DocKey} {i : Dynamo.Item} : d.specs.lookup k = some i → d.wrote k i
  reported {k : DocKey} {st : ApplyDesireStatus} : d.applyStatus.lookup k = some st →
    d.wrote k st.item

lemma newest_empty : Newest .empty := by
  intro k i i' hi
  exact absurd ((AList.lookup_empty _).symm.trans hi) (by simp)

lemma grounded_empty : Grounded .empty := by
  refine ⟨fun h => ?_, fun h => ?_⟩
  · exact absurd ((AList.lookup_empty _).symm.trans h) (by simp)
  · exact absurd ((AList.lookup_empty _).symm.trans h) (by simp)

lemma Newest.put (h : Newest d)
    (hp : ∀ i', d.wrote k i' → i.updateTime ≤ i'.updateTime → i'.spec = i.spec) :
    Newest (d.put k i) := by
  intro k' j j' hj hw hle
  by_cases hk : k' = k
  · subst hk
    obtain rfl : i = j := Option.some.inj ((AList.lookup_insert _).symm.trans hj)
    rcases Tables.wrote_put.mp hw with ⟨-, rfl⟩ | hw
    · rfl
    · exact hp j' hw hle
  · rcases Tables.wrote_put.mp hw with ⟨hk', -⟩ | hw
    · exact absurd hk'.symm hk
    · exact h k' j j' ((AList.lookup_insert_ne hk).symm.trans hj) hw hle

lemma Newest.did {d' : Tables} (h : Newest d) {o : Dynamo.Op} (hd : d.Did o d')
    (hp : ∀ k i, o = .putItem k i →
      ∀ i', d.wrote k i' → i.updateTime ≤ i'.updateTime → i'.spec = i.spec) : Newest d' := by
  cases hd with
  | put k i => exact h.put (hp k i rfl)
  | delete k =>
    intro k' j j' hj
    refine h k' j j' ?_
    by_cases hk : k' = k
    · subst hk
      exact absurd ((AList.lookup_erase _ _).symm.trans hj) (by simp)
    · exact (AList.lookup_erase_ne hk).symm.trans hj
  | told hs => exact fun k j j' hj hw => h k j j' hj (by simpa [Tables.wrote] using hw)
  | _ => exact h

lemma Grounded.did {d' : Tables} (h : Grounded d) {o : Dynamo.Op} (hd : d.Did o d') :
    Grounded d' := by
  have hold : ∀ {k i}, d.wrote k i → d'.wrote k i := hd.wrote_mono
  cases hd with
  | put k i =>
    refine ⟨fun {k' j} hj => ?_, fun hst => hold (h.reported hst)⟩
    by_cases hk : k' = k
    · subst hk
      exact Tables.wrote_put.mpr
        (.inl ⟨rfl, Option.some.inj ((AList.lookup_insert _).symm.trans hj)⟩)
    · exact hold (h.stored ((AList.lookup_insert_ne hk).symm.trans hj))
  | delete k =>
    refine ⟨fun {k' j} hj => ?_, h.reported⟩
    by_cases hk : k' = k
    · subst hk
      exact absurd ((AList.lookup_erase _ _).symm.trans hj) (by simp)
    · exact h.stored ((AList.lookup_erase_ne hk).symm.trans hj)
  | @report k st hw =>
    refine ⟨h.stored, fun {k' st'} hst => ?_⟩
    by_cases hk : k' = k
    · subst hk
      obtain rfl : st = st' := Option.some.inj ((AList.lookup_insert _).symm.trans hst)
      exact hw
    · exact h.reported ((AList.lookup_insert_ne hk).symm.trans hst)
  | _ => exact ⟨fun hj => hold (h.stored hj), fun hst => hold (h.reported hst)⟩

lemma grounded_step {r : o.Res} (h : Grounded s.tables)
    (hx : looseExec o x s = some (r, s')) : Grounded s'.tables := by
  rcases loose_tables hx with ⟨d, rfl, hd⟩ | ⟨-, ht⟩
  · exact h.did hd
  · rw [ht]
    exact h

lemma newest_step {r : o.Res} (h : Newest s.tables)
    (hp : Punctual o s) (hx : looseExec o x s = some (r, s')) : Newest s'.tables := by
  rcases loose_tables hx with ⟨d, rfl, hd⟩ | ⟨-, ht⟩
  · refine h.did hd ?_
    rintro k i rfl
    exact hp
  · rw [ht]
    exact h

lemma loose_getApplyStatus (hx : looseExec (.dynamo (.getApplyStatus k)) x s = some (.ok st, s')) :
    s.tables.applyStatus.lookup k = some st ∧ s'.tables.log = .told k st :: s.tables.log := by
  rw [loose_eq (by simp)] at hx
  have hex := (exec_dynamo hx).1
  simp only [Tables.exec] at hex
  split at hex
  · split at hex
    · cases hex
    · next hs =>
      simp only [Option.some.injEq, Prod.mk.injEq, Except.ok.injEq] at hex
      rw [← hex.2, hs, hex.1]
      exact ⟨rfl, rfl⟩
  · cases hex

lemma told_wrote {ok : Call → Fleet.Op → LooseChoice → State → Prop}
    (h : clients.HistIf ok noCalls es c) {j : ℕ}
    (he : (j, (⟨.dynamo (.getApplyStatus k), .ok st⟩ : Event)) ∈ es) :
    c.store.tables.wrote k st.item := by
  have hmono : ∀ {o x s r s'}, looseExec o x s = some (r, s') → ∀ {k i},
      s.tables.wrote k i → s'.tables.wrote k i := by
    intro o x s r s' hx k i hw
    rcases loose_tables hx with ⟨d, rfl, hd⟩ | ⟨-, ht⟩
    · exact hd.wrote_mono hw
    · rw [ht]; exact hw
  refine (h.shown (I := fun s => Grounded s.tables)
    (E := fun e s => ∀ k st, e = ⟨.dynamo (.getApplyStatus k), .ok st⟩ → s.tables.wrote k st.item)
    grounded_empty ?_ ?_ ?_).2 _ he k st rfl
  · exact fun hI hx => grounded_step hI hx
  · rintro o x s r s' hI hx k st he
    cases he
    have hx' : looseExec (.dynamo (.getApplyStatus k)) x s = some (.ok st, s') := hx
    exact hmono hx' (hI.reported (loose_getApplyStatus hx').1)
  · intro e o x s r s' _ hE hx k st he
    exact hmono hx (hE k st he)

/-- **Synced means the current desire was applied.** In every run as above in which the clock, at
every put, is past the earlier puts of the document that asked for something else: when a check of
entries reports Synced, and an entry carries the update time of the latest upsert of its document,
then every report it counted for that entry is a success and was produced from the desire of that
upsert, and there is one. -/
theorem synced_current
    (h : clients.HistIf (fun l o x s => Reliable l o x s ∧ Punctual o s) noCalls es c)
    {j : ℕ} {entries : List DesireStatusEntry} {cond : Condition}
    (hj : c.pool[j]? = some ⟨.check entries, .ret (.checked cond)⟩) (hs : cond.status = true)
    {e : DesireStatusEntry} (he : e ∈ entries) {i : ℕ} {spec : DesireSpec} {u : UpsertResult}
    (hu : LatestUpsert c i e.key spec u) (ht : e.desireUpdateTime = u.updateTime) :
    Reported (System.own j es) e ∧
      ∀ st, (⟨.dynamo (.getApplyStatus e.key), .ok st⟩ : Event) ∈ System.own j es →
        syncOf e (.ok st) = .synced → st.successful = some true ∧ st.item.spec = spec := by
  have hrel : clients.HistIf Reliable noCalls es c := h.mono fun _ _ _ _ h => h.1
  have hspec := latest_stored hrel hu
  have hground : Grounded c.store.tables :=
    h.invariant (I := fun s => Grounded s.tables) grounded_empty fun hI _ hx => grounded_step hI hx
  have hnew : Newest c.store.tables :=
    h.invariant (I := fun s => Newest s.tables) newest_empty
      fun hI hok hx => newest_step hI hok.2 hx
  have hpos : 0 < u.updateTime :=
    (outline.holds dated_empty agree_empty hrel).1 _ _ (hground.stored hspec)
  obtain ⟨c', hc', hrep⟩ := h.guards (fun _ _ _ _ _ _ => trivial) guards_call hj
  cases hc'
  refine ⟨hrep hs e he, fun st hst hsync => ?_⟩
  obtain ⟨hsucc, hobs⟩ := syncOf_synced hsync
  refine ⟨hsucc, ?_⟩
  have hw := told_wrote h (System.mem_of_mem_own hst)
  have hle : u.updateTime ≤ st.item.updateTime := ht ▸ hobs (by omega)
  exact hnew _ _ _ hspec hw hle

/-- The entries a finished check has reported Synced. -/
def synced (t : Thread Fleet.Op Fleet.Op.Res Call Reply) : Option (List (DocKey × ℤ)) :=
  match t with
  | ⟨.check entries, .ret (.checked cond)⟩ =>
    if cond.status then some (entries.map fun e => (e.key, e.desireUpdateTime)) else none
  | _ => none

lemma checked_of_synced {t : Thread Fleet.Op Fleet.Op.Res Call Reply} {n : ℤ}
    (h : synced t = some [(k, n)]) :
    ∃ cond : Condition, cond.status = true ∧ t = ⟨.check [⟨k, n⟩], .ret (.checked cond)⟩ := by
  unfold synced at h
  split at h
  · next entries cond =>
    split at h
    · next hs =>
      obtain ⟨e, rfl, he⟩ : ∃ e, entries = [e] ∧ (e.key, e.desireUpdateTime) = (k, n) := by
        simpa [List.map_eq_cons_iff] using Option.some.inj h
      obtain ⟨rfl, rfl⟩ := Prod.mk.inj he
      exact ⟨cond, hs, rfl⟩
    · cases h
  · cases h

/-- `Punctual`, as far as the log says. -/
def punctual (o : Fleet.Op) (s : State) : Bool :=
  match o with
  | .dynamo (.putItem k i) => s.tables.log.all fun e => match e with
    | .put k' i' => k' != k || decide (i'.updateTime < i.updateTime) || i'.spec == i.spec
    | .told _ _ => true
  | _ => true

lemma punctual_sound (h : punctual o s) : Punctual o s := by
  unfold punctual at h
  unfold Punctual
  split
  · next k i =>
    intro i' hw hle
    obtain ⟨e, he, hm⟩ := List.any_eq_true.mp hw
    have hall := List.all_eq_true.mp h e he
    cases e with
    | told => cases hm
    | put k' j =>
      simp only [Bool.and_eq_true, beq_iff_eq] at hm
      obtain ⟨rfl, rfl⟩ := hm
      simpa [not_lt.mpr hle] using hall
  · trivial

/-- One desire, applied and reported on; then another one `t` nanoseconds later, and a check of the
second. -/
def checkedAfter (t : Kube.Time) (type : ApplyDesireType) :
    List (System.Event LooseChoice Call) :=
  upsertEvents 0 .serverSideApply (3 * second) .none ++
    [.spawn (.report sampleKey ⟨⟨sampleDesire .serverSideApply, 3⟩, some true⟩), .act 1 {}] ++
    upsertEvents 2 .delete (3 * second + t) .none ++
    [.spawn (.report sampleKey ⟨⟨sampleDesire type, (3 * second + t) / second⟩, some true⟩),
     .act 3 {}, .spawn (.check [⟨sampleKey, (3 * second + t) / second⟩]), .act 4 {}]

/-- A deletion a second after the desire was applied: the report that counts is about the
deletion. -/
theorem synced_current_deleted : ∃ (es : List (ℕ × Event))
    (c : ClientConf) (cond : Condition) (st : ApplyDesireStatus),
    clients.HistIf (fun l o x s => Reliable l o x s ∧ Punctual o s) noCalls es c ∧
      c.pool[4]? = some ⟨.check [⟨sampleKey, 4⟩], .ret (.checked cond)⟩ ∧ cond.status = true ∧
      (⟨.dynamo (.getApplyStatus sampleKey), .ok st⟩ : Event) ∈ System.own 4 es ∧
      st.successful = some true ∧ st.item.spec = sampleDesire .delete := by
  have hrun : (clients.recordIf (fun l o x s => reliable l o x s && punctual o s)
      (checkedAfter second .delete) ([], noCalls)).bind (fun h => (latest h.2 2).bind fun r =>
        ((h.2.pool[4]?).bind synced).map fun ks => (r, ks)) =
      some ((sampleKey, sampleDesire .delete, true, 4), [(sampleKey, 4)]) := by
    decide +kernel
  obtain ⟨⟨es, c⟩, hc, hobs⟩ := Option.bind_eq_some_iff.mp hrun
  obtain ⟨r, hr, hobs⟩ := Option.bind_eq_some_iff.mp hobs
  obtain ⟨ks, hks, hobs⟩ := Option.map_eq_some_iff.mp hobs
  obtain ⟨rfl, rfl⟩ := Prod.mk.inj hobs
  obtain ⟨t, ht, hks⟩ := Option.bind_eq_some_iff.mp hks
  obtain ⟨cond, hs, rfl⟩ := checked_of_synced hks
  have hsound : ∀ l o x s, (reliable l o x s && punctual o s) = true →
      Reliable l o x s ∧ Punctual o s := by
    intro l o x s h
    simp only [Bool.and_eq_true] at h
    exact ⟨reliable_sound l o x s h.1, punctual_sound h.2⟩
  have hes := System.HistIf.record hsound .start hc
  obtain ⟨⟨st, hst, hsync⟩, hall⟩ :=
    synced_current hes ht hs List.mem_cons_self (latestUpsert_of hr) rfl
  exact ⟨es, c, cond, st, hes, ht, hs, hst, hall st hst hsync⟩

lemma told_logged (h : clients.Hist noCalls es c) {j : ℕ}
    (he : (j, (⟨.dynamo (.getApplyStatus k), .ok st⟩ : Event)) ∈ es) :
    Entry.told k st ∈ c.store.tables.log := by
  have hmono : ∀ {o x s r s'}, looseExec o x s = some (r, s') → s.tables.log ⊆ s'.tables.log := by
    intro o x s r s' hx
    rcases loose_tables hx with ⟨d, rfl, hd⟩ | ⟨-, heq⟩
    · exact hd.log_subset
    · rw [heq]
      exact List.Subset.refl _
  refine (h.shown (I := fun _ => True)
    (E := fun e s => ∀ k st, e = ⟨.dynamo (.getApplyStatus k), .ok st⟩ →
      Entry.told k st ∈ s.tables.log) trivial ?_ ?_ ?_).2 _ he k st rfl
  · exact fun _ _ => trivial
  · rintro o x s r s' - hx k st he
    cases he
    rw [(loose_getApplyStatus hx).2]
    exact List.mem_cons_self
  · intro e o x s r s' _ hE hx k st he
    exact hmono hx (hE k st he)

def tolds (d : Tables) : List ApplyDesireStatus :=
  d.log.filterMap fun e => match e with
    | .put _ _ => none
    | .told _ st => some st

/-- The desire is switched to a deletion within the second in which it was applied. The report on
the first counts for the second. -/
theorem synced_misled : ∃ (es : List (ℕ × Event))
    (c : ClientConf) (cond : Condition) (u : UpsertResult)
    (st : ApplyDesireStatus), clients.Hist noCalls es c ∧
      c.pool[4]? = some ⟨.check [⟨sampleKey, u.updateTime⟩], .ret (.checked cond)⟩ ∧
      cond.status = true ∧ LatestUpsert c 2 sampleKey (sampleDesire .delete) u ∧
      (⟨.dynamo (.getApplyStatus sampleKey), .ok st⟩ : Event) ∈ System.own 4 es ∧
      syncOf ⟨sampleKey, u.updateTime⟩ (.ok st) = .synced ∧
      st.item.spec = sampleDesire .serverSideApply := by
  have hrun : (clients.runSchedule (checkedAfter 200000000 .serverSideApply) noCalls).bind
      (fun c => (latest c 2).bind fun r => (((c.pool[4]?).bind synced).filter fun _ =>
        (tolds c.store.tables).all fun st => st.item.spec == sampleDesire .serverSideApply).map
          fun ks => (r, ks)) =
      some ((sampleKey, sampleDesire .delete, true, 3), [(sampleKey, 3)]) := by
    decide +kernel
  obtain ⟨c, hc, hobs⟩ := Option.bind_eq_some_iff.mp hrun
  obtain ⟨r, hr, hobs⟩ := Option.bind_eq_some_iff.mp hobs
  obtain ⟨ks, hks, hobs⟩ := Option.map_eq_some_iff.mp hobs
  obtain ⟨rfl, rfl⟩ := Prod.mk.inj hobs
  obtain ⟨hks, htold⟩ := Option.filter_eq_some_iff.mp hks
  obtain ⟨t, ht, hks⟩ := Option.bind_eq_some_iff.mp hks
  obtain ⟨cond, hs, rfl⟩ := checked_of_synced hks
  obtain ⟨es, hes⟩ := (System.run_of_schedule hc).hist
  obtain ⟨c', hc', hrep⟩ := hes.guards (fun _ _ _ _ _ _ => trivial) guards_call ht
  cases hc'
  obtain ⟨st, hst, hsync⟩ := hrep hs _ List.mem_cons_self
  refine ⟨es, c, cond, _, st, hes, ht, hs, latestUpsert_of hr, hst, hsync, ?_⟩
  have hmem : st ∈ tolds c.store.tables :=
    List.mem_filterMap.mpr ⟨_, told_logged hes (System.mem_of_mem_own hst), rfl⟩
  exact beq_iff_eq.mp (List.all_eq_true.mp htold st hmem)

end Seaplane.Operator
