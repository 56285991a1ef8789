import Seaplane.Fleet.Conduct
import Seaplane.Operator.Cluster

/-!
What the parts the controllers share do with the store and the tables, and what a controller has
seen when they return.
-/

namespace Seaplane.Operator

open Lib Kube Fleet Dynamo

/-! ### What was seen of a document -/

/-- The event shows the item that was last written under the key. -/
def Holds (kd : DocKey) (i : Dynamo.Item) (e : Event) : Prop :=
  e = ⟨.dynamo (.putItem kd i), .ok ()⟩ ∨ e = ⟨.dynamo (.getItem kd), .ok (some i)⟩ ∨
    e = ⟨.dynamo (.cacheLoad kd), some i⟩

/-- The item was seen to be the last one written, and no other was written since. -/
def Held (tr : List Event) (kd : DocKey) (i : Dynamo.Item) : Prop :=
  Since (Puts kd) (Holds kd i) tr

/-- The document was removed, and not written since. -/
def Cleared (tr : List Event) (kd : DocKey) : Prop :=
  Since (Puts kd) (· = ⟨.dynamo (.deleteItem kd), .ok ()⟩) tr

/-- A report on the entry was read that counts as synced. -/
def Reported (tr : List Event) (e : DesireStatusEntry) : Prop :=
  ∃ st, (⟨.dynamo (.getApplyStatus e.key), .ok st⟩ : Event) ∈ tr ∧ syncOf e (.ok st) = .synced

variable {tr : List Event}

lemma Reported.mono {tr' : List Event} {e : DesireStatusEntry} (h : Reported tr e)
    (ht : tr ⊆ tr') : Reported tr' e := by
  obtain ⟨st, hm, hs⟩ := h
  exact ⟨st, ht hm, hs⟩

/-- A clock time that was read, in whole seconds. -/
def Stamped (tr : List Event) (i : Dynamo.Item) : Prop :=
  ∃ t, (⟨.now, t⟩ : Event) ∈ tr ∧ i.updateTime = t / second

def Opens (kd : DocKey) (e : Event) : Prop :=
  (∃ i, e = ⟨.dynamo (.putItem kd i), .ok ()⟩) ∨ e = ⟨.dynamo (.deleteItem kd), .ok ()⟩

def Closes (kd : DocKey) (e : Event) : Prop :=
  (∃ i, e.1 = .dynamo (.cacheStore kd i)) ∨ e.1 = .dynamo (.cacheDelete kd)

/-- The table has changed under the key, and the cache has not followed yet. -/
def Open (kd : DocKey) (tr : List Event) : Prop := Since (Closes kd) (Opens kd) tr

lemma Open.tail {kd : DocKey} {e : Event} (h : Open kd (e :: tr))
    (he : ¬Opens kd e) : Open kd tr := by
  rcases h with h | h
  · exact absurd h he
  · exact h.2

lemma not_open {kd : DocKey} {e : Event} (hc : Closes kd e) (he : ¬Opens kd e) :
    ¬Open kd (e :: tr) := by
  rintro (h | h)
  · exact he h
  · exact h.1 hc

structure Upserted (kd : DocKey) (spec : DesireSpec) (tr tr' : List Event)
    (r : Except Unit UpsertResult) : Prop where
  extend : Extends (· = kd) tr tr'
  held : ∀ u, r = .ok u → ∃ i, i.spec = spec ∧ i.updateTime = u.updateTime ∧ Held tr' kd i
  closed : Open kd tr' → Open kd tr

section

variable {A : List Event → Fleet.Op → Prop} (hA : ∀ tr o, Modest tr o → A tr o)
  {tr : List Event} {kd : DocKey} {spec : DesireSpec}

/-! ### Desires -/

lemma extends_read {D : DocKey → Prop} {tr' : List Event} {o : Dynamo.Op} (ho : isRead o)
    (h : Extends D tr tr') (r : o.Res) : Extends D tr (⟨.dynamo o, r⟩ :: tr') := by
  refine h.cons ?_ (by simp)
  rintro kd i ⟨⟩
  cases ho

include hA

variable {tr1 : List Event} {k : Key}

lemma guards_upsertMissed (hput : ∀ tr' i, Extends (· = kd) tr tr' → i.spec = spec → Stamped tr' i →
      A tr' (.dynamo (.putItem kd i)))
    (hstore : ∀ tr' i, Extends (· = kd) tr tr' → i.spec = spec → Held tr' kd i →
      A tr' (.dynamo (.cacheStore kd i))) (h1 : Extends (· = kd) tr tr1)
    (hc1 : Open kd tr1 → Open kd tr) :
    (upsertMissed kd spec).Guards Any A (Upserted kd spec tr) tr1 := by
  refine ⟨hA _ _ (.inl rfl), fun r _ => ?_⟩
  have h2 : Extends (· = kd) tr (⟨.dynamo (.getItem kd), r⟩ :: tr1) :=
    extends_read (o := .getItem kd) rfl h1 r
  have hc2 : Open kd (⟨.dynamo (.getItem kd), r⟩ :: tr1) → Open kd tr :=
    fun h => hc1 (h.tail (by simp [Opens]))
  cases r with
  | error => exact ⟨h2, by simp, hc2⟩
  | ok existing =>
    simp only [Prog.ret_bind]
    split
    · next i hi =>
      obtain ⟨rfl, hs⟩ := Option.filter_eq_some_iff.mp hi
      have hspec : i.spec = spec := by simpa using hs
      have hheld : Held (⟨.dynamo (.getItem kd), .ok (some i)⟩ :: tr1) kd i :=
        .inl (.inr (.inl rfl))
      refine ⟨hstore _ i h2 hspec hheld, fun _ _ => ?_⟩
      have h3 := h2.cons (o := .dynamo (.cacheStore kd i)) (r := ()) (by simp) (by simp)
      refine ⟨h3, fun u hu => ⟨i, hspec, ?_, ?_⟩, fun h => ?_⟩
      · cases hu; rfl
      · exact .inr ⟨by rintro ⟨_, ⟨⟩⟩, hheld⟩
      · exact absurd h (not_open (.inl ⟨i, rfl⟩) (by simp [Opens]))
    · refine ⟨hA _ _ (.inl trivial), fun t _ => ?_⟩
      have h3 := h2.cons (o := .now) (r := t) (by simp) (by simp)
      refine ⟨hput _ _ h3 rfl ⟨t, List.mem_cons_self, rfl⟩, fun r _ => ?_⟩
      have h4 := h3.cons (o := .dynamo (.putItem kd ⟨spec, t / second⟩)) (r := r)
        (by rintro _ _ ⟨⟩; rfl) (by simp)
      cases r with
      | error =>
        exact ⟨h4, by simp, fun h => hc2 ((h.tail (by simp [Opens])).tail (by simp [Opens]))⟩
      | ok =>
        have hheld : Held (⟨.dynamo (.putItem kd ⟨spec, t / second⟩), .ok ()⟩ ::
            ⟨.now, t⟩ :: ⟨.dynamo (.getItem kd), .ok existing⟩ :: tr1) kd ⟨spec, t / second⟩ :=
          .inl (.inl rfl)
        refine ⟨hstore _ _ h4 rfl hheld, fun _ _ => ?_⟩
        have h5 := h4.cons (o := .dynamo (.cacheStore kd ⟨spec, t / second⟩)) (r := ())
          (by simp) (by simp)
        refine ⟨h5, fun u hu => ⟨⟨spec, t / second⟩, rfl, ?_, ?_⟩, fun h => ?_⟩
        · cases hu; rfl
        · exact .inr ⟨by rintro ⟨_, ⟨⟩⟩, hheld⟩
        · exact absurd h (not_open (.inl ⟨_, rfl⟩) (by simp [Opens]))

/-- An upsert writes the desire under its key and no other; after a success the desire is what was
last written there. -/
lemma guards_upsertDesire (hload : A tr (.dynamo (.cacheLoad kd)))
    (hput : ∀ tr' i, Extends (· = kd) tr tr' → i.spec = spec → Stamped tr' i →
      A tr' (.dynamo (.putItem kd i)))
    (hstore : ∀ tr' i, Extends (· = kd) tr tr' → i.spec = spec → Held tr' kd i →
      A tr' (.dynamo (.cacheStore kd i))) :
    (upsertDesire kd spec).Guards Any A (Upserted kd spec tr) tr := by
  refine ⟨hload, fun cached _ => ?_⟩
  have h1 : Extends (· = kd) tr (⟨.dynamo (.cacheLoad kd), cached⟩ :: tr) :=
    Extends.refl.cons (by simp) (by simp)
  have hc1 : Open kd (⟨.dynamo (.cacheLoad kd), cached⟩ :: tr) → Open kd tr :=
    fun h => h.tail (by simp [Opens])
  simp only [Prog.ret_bind]
  split
  · next i hi =>
    obtain ⟨rfl, hs⟩ := Option.filter_eq_some_iff.mp hi
    refine ⟨h1, fun u hu => ⟨i, by simpa using hs, ?_, .inl (.inr (.inr rfl))⟩, hc1⟩
    cases hu; rfl
  · exact guards_upsertMissed hA hput hstore h1 hc1

omit hA in
lemma guards_deleteDesireSpec (hdel : A tr (.dynamo (.deleteItem kd)))
    (hcache : ∀ r, A (⟨.dynamo (.deleteItem kd), r⟩ :: tr) (.dynamo (.cacheDelete kd))) :
    (deleteDesireSpec kd).Guards Any A
      (fun tr' r => Extends NoDoc tr tr' ∧ (r = .ok () → Cleared tr' kd) ∧
        (Open kd tr' → Open kd tr)) tr := by
  refine ⟨hdel, fun r _ => ?_⟩
  have h1 : Extends NoDoc tr (⟨.dynamo (.deleteItem kd), r⟩ :: tr) :=
    Extends.refl.cons (by simp) (by simp)
  cases r with
  | error => exact ⟨h1, by simp, fun h => h.tail (by simp [Opens])⟩
  | ok =>
    refine ⟨hcache _, fun _ _ => ⟨h1.cons (by simp) (by simp), fun _ => ?_, fun h => ?_⟩⟩
    swap
    · exact absurd h (not_open (.inr rfl) (by simp [Opens]))
    exact .inr ⟨by rintro ⟨_, ⟨⟩⟩, .inl rfl⟩

lemma guards_getStatuses (entries : List DesireStatusEntry) (tr : List Event) :
    (getStatuses entries).Guards Any A (fun tr' ss => Extends NoDoc tr tr' ∧
      ((∀ s ∈ ss, s = .synced) → ∀ e ∈ entries, Reported tr' e)) tr := by
  induction entries generalizing tr with
  | nil => exact ⟨.refl, by simp⟩
  | cons e es ih =>
    refine ⟨hA _ _ (.inl rfl), fun r _ => ?_⟩
    have h1 : Extends NoDoc tr (⟨.dynamo (.getApplyStatus e.key), r⟩ :: tr) :=
      extends_read (o := .getApplyStatus e.key) rfl .refl r
    refine (ih _).bind fun tr2 ss h2 => ⟨h1.trans h2.1, fun hs e' he' => ?_⟩
    rcases List.mem_cons.mp he' with rfl | he'
    · have hsync := hs _ List.mem_cons_self
      cases r with
      | error err => cases err <;> cases hsync
      | ok st => exact ⟨st, h2.1.subset List.mem_cons_self, hsync⟩
    · exact h2.2 (fun s hm => hs s (List.mem_cons_of_mem _ hm)) e' he'

lemma guards_checkApplyDesireStatuses (entries : List DesireStatusEntry) (tr : List Event) :
    (checkApplyDesireStatuses entries).Guards Any A (fun tr' c => Extends NoDoc tr tr' ∧
      (c.status → ∀ e ∈ entries, Reported tr' e)) tr :=
  (guards_getStatuses hA entries tr).bind fun _ _ h =>
    ⟨h.1, fun hc => h.2 (syncedCondition_status hc)⟩

lemma guards_upsertDesires {items : List (DocKey × DesireSpec)}
    (hload : ∀ tr' kd, Extends AllDocs tr tr' → A tr' (.dynamo (.cacheLoad kd)))
    (hput : ∀ tr' it i, it ∈ items → Extends AllDocs tr tr' → i.spec = it.2 → Stamped tr' i →
      A tr' (.dynamo (.putItem it.1 i)))
    (hstore : ∀ tr' it i, it ∈ items → Extends AllDocs tr tr' → i.spec = it.2 →
      Held tr' it.1 i → A tr' (.dynamo (.cacheStore it.1 i)))
    (h1 : Extends AllDocs tr tr1) :
    (upsertDesires items).Guards Any A (fun tr' _ => Extends AllDocs tr tr') tr1 := by
  induction items generalizing tr1 with
  | nil => exact h1
  | cons it items ih =>
    have hall : ∀ {tr2}, Extends (· = it.1) tr1 tr2 → Extends AllDocs tr tr2 :=
      fun h => h1.trans (h.imp fun _ _ => trivial)
    refine (guards_upsertDesire hA (hload _ _ h1) ?_ ?_).bind fun tr2 r h2 => ?_
    · exact fun tr' i h hi hs => hput tr' it i List.mem_cons_self (hall h) hi hs
    · exact fun tr' i h hi hs => hstore tr' it i List.mem_cons_self (hall h) hi hs
    · refine (ih (fun tr' it' i hm => hput tr' it' i (List.mem_cons_of_mem _ hm))
        (fun tr' it' i hm => hstore tr' it' i (List.mem_cons_of_mem _ hm)) (hall h2.extend)).bind ?_
      exact fun _ _ h => h

omit hA in
lemma guards_deleteDesireSpecs (kds : List DocKey)
    (hdel : ∀ tr' kd, kd ∈ kds → Extends NoDoc tr tr' → A tr' (.dynamo (.deleteItem kd)))
    (hcache : ∀ tr' kd, kd ∈ kds → Extends NoDoc tr tr' → A tr' (.dynamo (.cacheDelete kd)))
    (h1 : Extends NoDoc tr tr1) :
    (deleteDesireSpecs kds).Guards Any A (fun tr' r => Extends NoDoc tr1 tr' ∧
      (r = .ok () → ∀ kd ∈ kds, Cleared tr' kd)) tr1 := by
  induction kds generalizing tr1 with
  | nil => exact ⟨.refl, by simp⟩
  | cons kd kds ih =>
    refine (guards_deleteDesireSpec (hdel _ kd List.mem_cons_self h1) fun r => ?_).bind
      fun tr2 r h2 => ?_
    · exact hcache _ kd List.mem_cons_self (h1.cons (by simp) (by simp))
    · refine (ih (fun tr' kd' hk => hdel tr' kd' (List.mem_cons_of_mem _ hk))
        (fun tr' kd' hk => hcache tr' kd' (List.mem_cons_of_mem _ hk)) (h1.trans h2.1)).bind
        fun tr3 r' h3 => ⟨h2.1.trans h3.1, fun hr kd' hk => ?_⟩
      cases r with
      | error => cases hr
      | ok =>
        rcases List.mem_cons.mp hk with rfl | hk
        · exact h3.1.since id (h2.2.1 rfl)
        · exact h3.2 hr kd' hk

/-! ### Objects -/

lemma guards_latestStatus {ignoreMissing : Bool} {f : Object k.kind → Option (Status k.kind)}
    {tr : List Event} (hf : ∀ tr' s st, Extends NoDoc tr tr' → Known tr' k s → f s = some st →
      A tr' (.kube (.updateStatus k { s with status := st }))) :
    (updateLatestStatus k ignoreMissing f).Guards Any A (fun tr' _ => Extends NoDoc tr tr') tr := by
  refine guards_retry (P := Extends NoDoc tr) (fun tr1 h1 => ?_) _ .refl
  refine guards_idle hA trivial h1 fun r h2 => ?_
  cases r with
  | error => exact ⟨h2, fun _ _ _ => h2⟩
  | ok latest =>
    dsimp only
    split
    · exact ⟨h2, fun _ _ _ => h2⟩
    · next st hst =>
      refine ⟨hf _ latest st h2 (known_get List.mem_cons_self) hst, fun r _ => ?_⟩
      have h3 := h2.cons (o := .kube (.updateStatus k { latest with status := st })) (r := r)
        (by simp) (by simp)
      cases r <;> exact ⟨h3, fun _ _ _ => h3⟩

lemma guards_updateLatestStatus {ignoreMissing : Bool} {f : Object k.kind → Option (Status k.kind)}
    (hf : ∀ s st, f s = some st → refOf k.kind st = refOf k.kind s.status) (tr : List Event) :
    (updateLatestStatus k ignoreMissing f).Guards Any A (fun tr' _ => Extends NoDoc tr tr') tr :=
  guards_latestStatus hA fun _ s st _ hs hst => hA _ _ (.inr ⟨s, hs, rfl, hf s st hst⟩)

lemma guards_removeFinalizer {finalizer : String} {tr : List Event}
    (hu : ∀ tr' s, Extends NoDoc tr tr' → Known tr' k s → finalizer ∈ s.finalizers →
      A tr' (.kube (.update k { s with finalizers := s.finalizers.filter (· != finalizer) }))) :
    (removeFinalizer k finalizer).Guards Any A Done tr := by
  refine guards_retry (P := Extends NoDoc tr) (fun tr1 h1 => ?_) _ .refl
  refine guards_idle hA trivial h1 fun r h2 => ?_
  cases r with
  | error => exact ⟨trivial, fun _ _ _ => h2⟩
  | ok latest =>
    dsimp only
    split
    · next hmem =>
      refine ⟨hu _ latest h2 (known_get List.mem_cons_self) (by simpa using hmem), fun r _ => ?_⟩
      cases r with
      | ok => exact ⟨trivial, nofun⟩
      | error e =>
        refine ⟨trivial, ?_⟩
        rintro e' ⟨⟩ hc
        cases e <;> first | exact h2.cons_refused | cases hc
    · exact ⟨trivial, nofun⟩

omit hA in
lemma guards_deleteListed {kind : Kind} {skipDeleting : Bool} (items : List (Item kind))
    (h1 : Extends NoDoc tr tr1)
    (hd : ∀ tr', ∀ i ∈ items, Extends NoDoc tr tr' → A tr' (.kube (.delete i.key i.object))) :
    (deleteListed skipDeleting items).Guards Any A (fun tr' _ => Extends NoDoc tr tr') tr1 := by
  induction items generalizing tr1 with
  | nil => exact h1
  | cons i is ih =>
    have hd' : ∀ tr', ∀ j ∈ is, Extends NoDoc tr tr' → A tr' (.kube (.delete j.key j.object)) :=
      fun tr' j hj => hd tr' j (List.mem_cons_of_mem _ hj)
    unfold deleteListed
    split
    · exact ih h1 hd'
    refine ⟨hd tr1 i List.mem_cons_self h1, fun r _ => ?_⟩
    have h2 : Extends NoDoc tr (⟨.kube (.delete i.key i.object), r⟩ :: tr1) :=
      h1.cons (by simp) (by simp)
    rcases r with (_ | _ | _ | _ | _) | _
    case ok => exact ih h2 hd'
    case error.notFound => exact ih h2 hd'
    all_goals exact h2

end

end Seaplane.Operator
