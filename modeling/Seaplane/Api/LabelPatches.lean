import Seaplane.Api.Handlers
import Seaplane.Lib.Chronicle

/-!
Label patches, among each other and among everything else that uses the store.

A patch reads the object, applies the submitted keys to its annotations and writes it back under the
version it has read; after a conflict it begins again. In a run a patch changes only the annotations
it was sent, on the state that is stored at that moment, and a patch that succeeds is one such step.
-/

namespace Seaplane.Api.LabelPatches

open Lib Kube Fleet

/-! ### The system -/

def reserved (key : String) : Bool := "seaplane.io/".toList.isPrefixOf key.toList

def isValidLabel (isQualifiedName isValidLabelValue : String → Bool) (key : String)
    (value : Option String) : Bool :=
  !reserved key && isQualifiedName key && value.all isValidLabelValue

/-- Who uses the store: a label patch, or anyone else with any single call. A patch is a map. -/
inductive Caller where
  | patch (account name : String) (t : Served) (patch : Patch)
      (distinct : (patch.map Prod.fst).Nodup)
  | other (o : Fleet.Op)

/-- Label patches together with every other user of the store. -/
def patches (p : Params) (isQualifiedName isValidLabelValue : String → Bool) :
    System Fleet.Op Fleet.Op.Res State Fleet.Choice Caller (Option Response) where
  exec := Fleet.exec
  code
    | .patch account name t patch _ =>
      (resourceLabels { p with isValidLabel := isValidLabel isQualifiedName isValidLabelValue }
        account name t patch).bind fun r => .ret (some r)
    | .other o => (perform o).bind fun _ => .ret none
  excl _ _ := False

abbrev PatchConf := Conf Fleet.Op Fleet.Op.Res State Caller (Option Response)

def idle : PatchConf := ⟨.empty, []⟩

/-! ### What a patch does to labels -/

/-- The submitted keys are set or removed, and no others. -/
def Applied (patch : Patch) (stored labels : StringMap) : Prop :=
  ∀ key, labels.lookup key = (patch.lookup key).getD (stored.lookup key)

lemma lookup_without_self (m : StringMap) (k : String) : (m.without k).lookup k = none := by
  refine List.lookup_eq_none_iff.mpr fun e he => ?_
  have hne : e.1 ≠ k := by simpa using (List.mem_filter.mp he).2
  simp [Ne.symm hne]

lemma lookup_set (m : StringMap) (k v k' : String) :
    (m.set k v).lookup k' = if k' = k then some v else m.lookup k' := by
  unfold StringMap.set
  rw [List.lookup_cons]
  by_cases h : k' = k
  · subst h
    simp
  · rw [beq_eq_false_iff_ne.mpr h, if_neg h, StringMap.lookup_without_ne (Ne.symm h)]

lemma applied_applyLabelPatch {patch : Patch} (h : (patch.map Prod.fst).Nodup)
    (stored : StringMap) :
    Applied patch stored (applyLabelPatch stored patch) := by
  intro key
  unfold applyLabelPatch
  induction patch generalizing stored with
  | nil => rfl
  | cons e patch ih =>
    obtain ⟨k, v⟩ := e
    obtain ⟨hk, hrest⟩ := List.nodup_cons.mp h
    rw [List.foldl_cons, ih hrest, List.lookup_cons]
    by_cases hkey : key = k
    · subst hkey
      have hnone : patch.lookup key = none := by
        refine List.lookup_eq_none_iff.mpr fun e he => ?_
        have hne : e.1 ≠ key := fun heq => hk (List.mem_map.mpr ⟨e, he, heq⟩)
        simp [Ne.symm hne]
      rw [hnone]
      cases v with
      | none => simp [lookup_without_self]
      | some v => simp [lookup_set]
    · rw [beq_eq_false_iff_ne.mpr hkey]
      cases v with
      | none => simp only [StringMap.lookup_without_ne (Ne.symm hkey)]
      | some v => simp only [lookup_set, if_neg hkey]

/-! ### One patch -/

def Reads : Fleet.Op → Prop
  | .kube (.get _) | .check _ _ => True
  | _ => False

/-- Nothing was done so far but reads and writes that met a conflict. -/
def Futile (tr : List Event) : Prop :=
  ∀ e ∈ tr, Reads e.1 ∨ ∃ (k : Key) (w : Object k.kind), e = ⟨.kube (.update k w), .error .conflict⟩

/-- What was read of the object so far has the UID. -/
def Tracked (key : Key) (uid : Uid) (tr : List Event) : Prop :=
  ∀ s : Object key.kind, ⟨.kube (.get key), .ok s⟩ ∈ tr → s.uid = "" ∨ s.uid = uid

def patched {kind : Kind} (patch : Patch) (obj : Object kind) : Object kind :=
  { obj with annotations := applyLabelPatch obj.annotations patch }

lemma updated_patched {kind : Kind} (patch : Patch) (s : Object kind) :
    Store.updated s (patched patch s) = patched patch s := by
  simp [Store.updated, patched]

/-- What a patch writes, and on the strength of what. -/
structure Writes (key : Key) (patch : Patch) (tr : List Event) (obj : Object key.kind) : Prop where
  read : ⟨.kube (.get key), .ok obj⟩ ∈ tr
  tracked : Tracked key obj.uid tr
  futile : Futile tr
  limit : (applyLabelPatch obj.annotations patch).length ≤ maxCustomerLabels
  valid : ∀ e ∈ patch, reserved e.1 = false

/-- A patch reads, and writes the patched object at most. -/
def Allowed (key : Key) (patch : Patch) (tr : List Event) (o : Fleet.Op) : Prop :=
  Reads o ∨ ∃ obj, Writes key patch tr obj ∧ o = .kube (.update key (patched patch obj))

/-- How a patch that succeeded has ended: with a write, or on a state that it leaves as it is. -/
def Succeeded (key : Key) (patch : Patch) (tr : List Event) : Prop :=
  (Futile tr ∧ ∃ obj : Object key.kind, ⟨.kube (.get key), .ok obj⟩ ∈ tr ∧
    (applyLabelPatch obj.annotations patch).equal obj.annotations = true) ∨
  ∃ tr' obj w, tr = ⟨.kube (.update key (patched patch obj)), .ok w⟩ :: tr' ∧
    Writes key patch tr' obj

variable {key : Key} {patch : Patch} {tr : List Event} {uid : Uid}

lemma Futile.cons {e : Event} (h : Futile tr) (he : Reads e.1) : Futile (e :: tr) :=
  List.forall_mem_cons.mpr ⟨.inl he, h⟩

lemma Tracked.cons {o : Fleet.Op} {r : o.Res} (h : Tracked key uid tr) (ho : o ≠ .kube (.get key)) :
    Tracked key uid (⟨o, r⟩ :: tr) := by
  intro s hs
  rcases List.mem_cons.mp hs with he | hs
  · exact absurd (Sigma.mk.inj he).1.symm ho
  · exact h s hs

/-- What an attempt knows while it only reads. -/
structure Reading (key : Key) (obj : Object key.kind) (tr : List Event) : Prop where
  read : ⟨.kube (.get key), .ok obj⟩ ∈ tr
  tracked : Tracked key obj.uid tr
  futile : Futile tr

lemma Reading.cons {obj : Object key.kind} {o : Fleet.Op} {r : o.Res} (h : Reading key obj tr)
    (ho : Reads o) (hne : o ≠ .kube (.get key)) : Reading key obj (⟨o, r⟩ :: tr) :=
  ⟨List.mem_cons_of_mem _ h.read, h.tracked.cons hne, h.futile.cons ho⟩

section Attempt

variable {account name : String} {t : Served}

lemma guards_authorizeAll {obj : Object key.kind} {resource : Resource} (as : List Action)
    (h : Reading key obj tr) : (authorizeAll resource as).Guards Any (Allowed key patch)
      (fun tr' r => Reading key obj tr' ∧ ∀ resp, r = .error resp → resp ≠ .status 204) tr := by
  induction as generalizing tr with
  | nil => exact ⟨h, fun _ hr => by cases hr⟩
  | cons a as ih =>
    refine ⟨.inl trivial, fun r _ => ?_⟩
    have hnext : Reading key obj (⟨.check a resource, r⟩ :: tr) :=
      h.cons trivial (fun he => by cases he)
    cases r with
    | allowed => exact ih hnext
    | denied | failed => exact ⟨hnext, fun resp hr => by cases hr; exact fun hc => by cases hc⟩

lemma guards_loadResource {obj : Object t.kind} (h : Reading (t.key account name) obj tr) :
    (loadResource account t obj).Guards Any (Allowed (t.key account name) patch)
      (fun tr' _ => Reading (t.key account name) obj tr') tr := by
  cases t with
  | cluster | oidcConfig | dnsReservation => exact h
  | nodePool =>
    show (nodePoolResource account obj).Guards Any _ _ tr
    unfold nodePoolResource
    split
    · exact h
    split
    · exact h
    refine ⟨.inl trivial, fun r _ => ?_⟩
    have hnext : Reading (Served.nodePool.key account name) obj (⟨.kube (.get _), r⟩ :: tr) :=
      h.cons trivial (fun he => by cases he)
    cases r with
    | error e => exact hnext
    | ok parent =>
      simp only [Prog.ret_bind]
      split <;> exact hnext

/-- How an attempt ends: with a success, with a conflict that nothing came of, or with a response
that is an error. -/
structure Attempted (key : Key) (patch : Patch) (tr : List Event) (r : Except Stop Unit × Uid) :
    Prop where
  conflict : r.1 = .error .conflict → Futile tr ∧ Tracked key r.2 tr
  success : r.1 = .ok () → Succeeded key patch tr
  failure : ∀ resp, r.1 = .error (.responded resp) → resp ≠ .status 204

lemma guards_respond {A : List Event → Fleet.Op → Prop} {resp : Response}
    (h : resp ≠ .status 204) (u : Uid) :
    (Prog.ret (.error (.responded resp), u) : FleetProg (Except Stop Unit × Uid)).Guards Any A
      (Attempted key patch) tr := by
  refine ⟨fun h => ?_, fun h => ?_, fun resp' h' => ?_⟩
  · cases h
  · cases h
  · cases h'
    exact h

lemma guards_labelOnce (hv : ∀ e ∈ patch, reserved e.1 = false) (hf : Futile tr)
    (ht : Tracked (t.key account name) uid tr) :
    (labelOnce account name t patch uid).Guards Any (Allowed (t.key account name) patch)
      (Attempted (t.key account name) patch) tr := by
  refine ⟨.inl trivial, fun r _ => ?_⟩
  rcases r with (_ | _ | _ | _ | _) | obj
  case ok =>
    simp only [Prog.ret_bind]
    split
    · exact guards_respond (by simp) _
    · next huid =>
      have hreading : Reading (t.key account name) obj
          (⟨.kube (.get (t.key account name)), .ok obj⟩ :: tr) := by
        refine ⟨List.mem_cons_self, ?_, hf.cons trivial⟩
        intro s hs
        rcases List.mem_cons.mp hs with he | hs
        · cases he
          exact .inr rfl
        · rcases ht s hs with h0 | h1
          · exact .inl h0
          · by_cases hu : uid = ""
            · exact .inl (h1.trans hu)
            · have hobj : obj.uid = uid := by
                by_contra hne
                exact huid ⟨hu, hne⟩
              exact .inr (h1.trans hobj.symm)
      refine (guards_loadResource hreading).bind fun tr1 r1 h1 => ?_
      rcases r1 with (_ | _ | _ | _ | _) | res
      case ok =>
        refine (guards_authorizeAll _ h1).bind fun tr2 r2 h2 => ?_
        cases r2 with
        | error resp => exact guards_respond (h2.2 resp rfl) _
        | ok =>
          simp only
          split
          · next heq =>
            refine ⟨fun h => ?_, fun _ => .inl ⟨h2.1.futile, obj, h2.1.read, heq⟩, fun _ h => ?_⟩
            · cases h
            · cases h
          · split
            · exact guards_respond (by simp) _
            · next hlimit =>
              have hw : Writes (t.key account name) patch tr2 obj :=
                ⟨h2.1.read, h2.1.tracked, h2.1.futile, not_lt.mp hlimit, hv⟩
              unfold updateOwned
              split
              · refine ⟨.inr ⟨obj, hw, rfl⟩, fun r _ => ?_⟩
                rcases r with (_ | _ | _ | _ | _) | w
                case ok =>
                  refine ⟨fun h => ?_, fun _ => .inr ⟨tr2, obj, w, rfl, hw⟩, fun _ h => ?_⟩
                  · cases h
                  · cases h
                case error.conflict =>
                  refine ⟨fun _ => ⟨?_, ?_⟩, fun h => ?_, fun _ h => ?_⟩
                  · exact List.forall_mem_cons.mpr ⟨.inr ⟨_, _, rfl⟩, h2.1.futile⟩
                  · exact h2.1.tracked.cons (fun he => by cases he)
                  · cases h
                  · cases h
                all_goals exact guards_respond (by simp) _
              · exact guards_respond (by simp) _
      all_goals exact guards_respond (by simp) _
  case error.notFound => exact guards_respond (by split <;> simp) _
  all_goals exact guards_respond (by simp) _

lemma guards_labelAttempts (hv : ∀ e ∈ patch, reserved e.1 = false) (n : ℕ) (hf : Futile tr)
    (ht : Tracked (t.key account name) uid tr) :
    (labelAttempts account name t patch n uid).Guards Any (Allowed (t.key account name) patch)
      (fun tr' r => (r = .ok () → Succeeded (t.key account name) patch tr') ∧
        ∀ resp, r = .error (.responded resp) → resp ≠ .status 204) tr := by
  induction n generalizing uid tr with
  | zero => exact (guards_labelOnce hv hf ht).bind fun _ _ h => ⟨h.success, h.failure⟩
  | succ n ih =>
    refine (guards_labelOnce hv hf ht).bind fun tr' r h => ?_
    split
    · obtain ⟨hf', ht'⟩ := h.conflict rfl
      exact ih hf' ht'
    · exact ⟨h.success, h.failure⟩

end Attempt

/-- What every caller may do, given what it has seen. -/
def Allows : Caller → List Event → Fleet.Op → Prop
  | .patch account name t patch _ => Allowed (t.key account name) patch
  | .other _ => fun _ _ => True

/-- What a caller has seen that has returned. -/
def Returned : Caller → List Event → Option Response → Prop
  | .patch account name t patch _ => fun tr r =>
    r = some (.status 204) → Succeeded (t.key account name) patch tr
  | .other _ => fun _ _ => True

lemma guards_patches (p : Params) (isQualifiedName isValidLabelValue : String → Bool) (l : Caller) :
    ((patches p isQualifiedName isValidLabelValue).code l).Guards Any (Allows l)
      (Returned l) [] := by
  cases l with
  | other o => exact ⟨trivial, fun _ _ => trivial⟩
  | patch account name t patch distinct =>
    simp only [patches, resourceLabels]
    split
    · exact fun h => by cases h
    split
    · exact fun h => by cases h
    · next hvalid =>
      have hv : ∀ e ∈ patch, reserved e.1 = false := by
        intro e he
        have hall : patch.all (fun e => isValidLabel isQualifiedName isValidLabelValue e.1 e.2) =
            true := by simpa using hvalid
        have hone := List.all_eq_true.mp hall e he
        simp only [isValidLabel, Bool.and_eq_true, Bool.not_eq_true'] at hone
        exact hone.1.1
      have hstart : Futile [] := fun e he => by cases he
      have htracked : Tracked (t.key account name) "" [] := fun s hs => by cases hs
      rw [Prog.bind_eq, Prog.bind_assoc]
      refine (guards_labelAttempts hv defaultRetries hstart htracked).bind fun tr r h => ?_
      rcases r with (resp | _) | _
      · exact fun he => absurd (Option.some.inj he) (h.2 resp rfl)
      · exact fun he => by cases he
      · exact fun _ => h.1 rfl

/-! ### One step of the store -/

section Store

variable {d d' : Store} {k : Key} {o w : Object k.kind} {x : Kube.Choice}

lemma exec_update_ok (h : Store.exec (.update k o) x d = some (.ok w, d')) :
    ∃ s, d.find k = some s ∧ s.uid = o.uid ∧ s.resourceVersion = o.resourceVersion ∧
      ((Store.updated s o = s ∧ d' = d) ∨ d' = d.commit k (Store.next (Store.updated s o))) := by
  have ha := Store.exec_shows (o := .update k o) h
    (show Store.Shows k w (.update k o) (.ok w) from rfl)
  rcases Store.attempt_update ha with ⟨-, e, he⟩ | ⟨s, hs, hu, hv, ⟨hsame, -, hd⟩ | ⟨-, hd⟩⟩
  · cases he
  · exact ⟨s, hs, hu, hv, .inl ⟨hsame, hd⟩⟩
  · exact ⟨s, hs, hu, hv, .inr hd⟩

lemma exec_update_conflict (h : Store.exec (.update k o) x d = some (.error .conflict, d')) :
    d' = d := by
  rcases Store.exec_faults h with h | ⟨-, hd⟩ | ⟨hr, -⟩
  · rcases Store.attempt_update h with ⟨hd, -⟩ | ⟨s, -, -, -, ⟨-, hr, -⟩ | ⟨hr, -⟩⟩
    · exact hd
    · cases hr
    · cases hr
  · exact hd
  · cases hr

end Store

lemma store_reads {o : Fleet.Op} {x : Fleet.Choice} {s s' : State} {r : o.Res} (ho : Reads o)
    (h : Fleet.exec o x s = some (r, s')) : s'.store = s.store := by
  cases o with
  | kube o =>
    cases o with
    | get k =>
      have hdid := Store.did_exec (exec_kube h).1
      generalize s'.store = d' at hdid ⊢
      cases hdid
      rfl
    | _ => exact absurd ho id
  | check a r => rw [exec_check h]
  | _ => exact absurd ho id

/-! ### Runs -/

lemma lookup_of_equal {m n : StringMap} (h : m.equal n = true) (key : String) :
    m.lookup key = n.lookup key := by
  have hall := List.all_eq_true.mp h
  by_cases hm : ∃ e ∈ m ++ n, e.1 = key
  · obtain ⟨e, he, rfl⟩ := hm
    exact beq_iff_eq.mp (hall e he)
  · have hnone : ∀ l : StringMap, (∀ e ∈ l, e ∈ m ++ n) → l.lookup key = none := by
      intro l hl
      refine List.lookup_eq_none_iff.mpr fun e he => ?_
      have hne : e.1 ≠ key := fun heq => hm ⟨e, hl e he, heq⟩
      simp [Ne.symm hne]
    rw [hnone m fun e he => List.mem_append_left n he,
      hnone n fun e he => List.mem_append_right m he]

section Runs

variable {p : Params} {isQualifiedName isValidLabelValue : String → Bool}
  {ok : Caller → Fleet.Op → Fleet.Choice → State → Prop} {es : List (ℕ × Event)} {c : PatchConf}

/-- What was read before a moment was stored by then. -/
lemma read_before (h : (patches p isQualifiedName isValidLabelValue).HistIf ok idle es c)
    {earlier : List (Moment Fleet.Op Fleet.Op.Res State)} {i : ℕ} {s : State}
    (hown : System.own i es = earlier.map Moment.seen) (hs : c.store = s) (key : Key) :
    s.store.Sane ∧ ∀ w : Object key.kind,
      ⟨.kube (.get key), .ok w⟩ ∈ earlier.map Moment.seen → ⟨key, w⟩ ∈ s.store.hist := by
  obtain ⟨hsane, hinf⟩ := informed_all rfl h
  rw [← hs, ← hown]
  exact ⟨hsane, fun w hw => hinf i key w (known_get hw)⟩

lemma Writes.stored {key : Key} {patch : Patch} {tr : List Event} {obj s : Object key.kind}
    {d : Store} (hw : Writes key patch tr obj) (hd : d.Sane)
    (hread : ∀ w : Object key.kind, ⟨.kube (.get key), .ok w⟩ ∈ tr → ⟨key, w⟩ ∈ d.hist)
    (hs : d.find key = some s) (hu : s.uid = (patched patch obj).uid)
    (hv : s.resourceVersion = (patched patch obj).resourceVersion) :
    s = obj ∧ ∀ w : Object key.kind, ⟨.kube (.get key), .ok w⟩ ∈ tr → w.uid = s.uid := by
  obtain rfl := hd.replaces hs (hread obj hw.read) hu hv
  refine ⟨rfl, fun w hm => ?_⟩
  rcases hw.tracked w hm with h0 | h0
  · exact absurd h0 (hd.named (hread w hm)).1
  · exact h0

/-- The patch happens at this moment: on the object that is stored the submitted keys are set and
removed, or they are already as they should be. -/
def Took (key : Key) (patch : Patch) (m : Moment Fleet.Op Fleet.Op.Res State) : Prop :=
  ∃ s, m.before.store.find key = some s ∧
    ((Applied patch s.annotations s.annotations ∧ m.after.store = m.before.store) ∨
      ∃ labels, Applied patch s.annotations labels ∧
        m.after.store = m.before.store.commit key (Store.next { s with annotations := labels }))

/-- What a patch may change at one moment: the submitted labels of the object that is stored, none
of them the service's, no more customer labels than allowed, on the incarnation it began on. -/
def Changed (key : Key) (patch : Patch) (m : Moment Fleet.Op Fleet.Op.Res State)
    (earlier : List (Moment Fleet.Op Fleet.Op.Res State)) : Prop :=
  ∃ (s : Object key.kind) (labels : StringMap), m.before.store.find key = some s ∧
    m.after.store = m.before.store.commit key (Store.next { s with annotations := labels }) ∧
    Applied patch s.annotations labels ∧
    (∀ k, reserved k = true → labels.lookup k = s.annotations.lookup k) ∧
    (labels.filter fun e => !reserved e.1).length ≤ maxCustomerLabels ∧
    ∀ m' ∈ earlier, ∀ s' : Object key.kind, m'.seen = ⟨.kube (.get key), .ok s'⟩ → s'.uid = s.uid

variable {ms later earlier : List (Moment Fleet.Op Fleet.Op.Res State)}
  {m : Moment Fleet.Op Fleet.Op.Res State} {i : ℕ} {account name : String} {t : Served}
  {patch : Patch} {distinct : (patch.map Prod.fst).Nodup}
  {prog : Prog Fleet.Op Fleet.Op.Res (Option Response)}

lemma changed_write {key : Key} {obj s : Object key.kind}
    (hd : (patch.map Prod.fst).Nodup) (hw : Writes key patch (earlier.map Moment.seen) obj)
    (hsane : m.before.store.Sane) (hread : ∀ w : Object key.kind,
      ⟨.kube (.get key), .ok w⟩ ∈ earlier.map Moment.seen → ⟨key, w⟩ ∈ m.before.store.hist)
    (hs : m.before.store.find key = some s) (hu : s.uid = (patched patch obj).uid)
    (hv : s.resourceVersion = (patched patch obj).resourceVersion) (hafter : m.after.store =
      m.before.store.commit key (Store.next (Store.updated s (patched patch obj)))) :
    Changed key patch m earlier := by
  obtain ⟨rfl, huid⟩ := hw.stored hsane hread hs hu hv
  rw [updated_patched] at hafter
  have happlied := applied_applyLabelPatch hd s.annotations
  refine ⟨s, applyLabelPatch s.annotations patch, hs, hafter, happlied, ?_, ?_, ?_⟩
  · intro k hk
    have hnone : patch.lookup k = none := by
      refine List.lookup_eq_none_iff.mpr fun e he => ?_
      have hne : e.1 ≠ k := by
        rintro rfl
        rw [hw.valid e he] at hk
        cases hk
      simp [Ne.symm hne]
    rw [happlied k, hnone]
    rfl
  · exact (List.length_filter_le _ _).trans hw.limit
  · intro m' hm' s' hseen
    exact huid s' (List.mem_map.mpr ⟨m', hm', hseen⟩)

section Moment

variable (h : (patches p isQualifiedName isValidLabelValue).Chronicle ok idle ms c)
  (hi : c.pool[i]? = some ⟨.patch account name t patch distinct, prog⟩)
  (hm : System.momentsOf i ms = later ++ m :: earlier)
include h hi hm

lemma changed_of_moment (hne : m.after.store ≠ m.before.store) :
    Changed (t.key account name) patch m earlier := by
  obtain ⟨⟨es, c1, c2, t1, hrun, hown, -, -, -, hstore, -⟩, hA, x, -, hx⟩ := h.moment
    (fun _ _ _ _ _ _ => trivial) (guards_patches p isQualifiedName isValidLabelValue) hi hm
  obtain ⟨hsane, hread⟩ := read_before hrun hown hstore (t.key account name)
  rcases hA with hr | ⟨obj, hw, ho⟩
  · exact absurd (store_reads hr hx) hne
  · obtain ⟨thread, ⟨o, r⟩, before, after⟩ := m
    simp only at ho
    subst ho
    have hdid := Store.did_exec (exec_kube hx).1
    generalize hd' : after.store = d' at hdid
    cases hdid with
    | nothing => exact absurd hd' hne
    | update hs hu hv => exact changed_write distinct hw hsane hread hs hu hv hd'

lemma store_of_futile (he : Reads m.seen.1 ∨ ∃ (k : Key) (w : Object k.kind),
    m.seen = ⟨.kube (.update k w), .error .conflict⟩) : m.after.store = m.before.store := by
  obtain ⟨-, -, x, -, hx⟩ := h.moment (fun _ _ _ _ _ _ => trivial)
    (guards_patches p isQualifiedName isValidLabelValue) hi hm
  rcases he with hr | ⟨k, w, hseen⟩
  · exact store_reads hr hx
  · rw [hseen] at hx
    exact exec_update_conflict (exec_kube hx).1

lemma took_of_read {obj : Object (t.key account name).kind}
    (hseen : m.seen = ⟨.kube (.get (t.key account name)), .ok obj⟩)
    (hequal : (applyLabelPatch obj.annotations patch).equal obj.annotations = true)
    (hsame : m.after.store = m.before.store) : Took (t.key account name) patch m := by
  obtain ⟨-, -, x, -, hx⟩ := h.moment (fun _ _ _ _ _ _ => trivial)
    (guards_patches p isQualifiedName isValidLabelValue) hi hm
  rw [hseen] at hx
  refine ⟨obj, (Store.exec_get (exec_kube hx).1).1, .inl ⟨fun key => ?_, hsame⟩⟩
  rw [← applied_applyLabelPatch distinct obj.annotations key]
  exact (lookup_of_equal hequal key).symm

lemma took_of_update {obj w : Object (t.key account name).kind}
    (hseen : m.seen = ⟨.kube (.update (t.key account name) (patched patch obj)), .ok w⟩)
    (hw : Writes (t.key account name) patch (earlier.map Moment.seen) obj) :
    Took (t.key account name) patch m := by
  obtain ⟨⟨es, c1, c2, t1, hrun, hown, -, -, -, hstore, -⟩, -, x, -, hx⟩ := h.moment
    (fun _ _ _ _ _ _ => trivial) (guards_patches p isQualifiedName isValidLabelValue) hi hm
  obtain ⟨hsane, hread⟩ := read_before hrun hown hstore (t.key account name)
  rw [hseen] at hx
  obtain ⟨s, hs, hu, hv, hafter⟩ := exec_update_ok (exec_kube hx).1
  obtain ⟨rfl, -⟩ := hw.stored hsane hread hs hu hv
  have happlied := applied_applyLabelPatch distinct s.annotations
  refine ⟨s, hs, ?_⟩
  rcases hafter with ⟨hsame, hafter⟩ | hafter
  · have hlabels : applyLabelPatch s.annotations patch = s.annotations :=
      congrArg Object.annotations hsame
    rw [hlabels] at happlied
    exact .inl ⟨happlied, hafter⟩
  · rw [updated_patched] at hafter
    exact .inr ⟨_, happlied, hafter⟩

end Moment

/-- **Label patches never lose edits.** Whatever a patch changes, in any run, are the submitted
labels of the object that is stored at that moment, none of them the service's, within the limit and
on the incarnation it began on; and a patch that succeeds is one such step. -/
theorem patches_atomic {p : Params} {isQualifiedName isValidLabelValue : String → Bool}
    {ms : List (Moment Fleet.Op Fleet.Op.Res State)} {c : PatchConf}
    (h : (patches p isQualifiedName isValidLabelValue).Chronicle (fun _ _ _ _ => True) idle ms c)
    {i : ℕ}
    {account name : String} {t : Served} {patch : Patch} {distinct : (patch.map Prod.fst).Nodup}
    {prog : Prog Fleet.Op Fleet.Op.Res (Option Response)}
    (hi : c.pool[i]? = some ⟨.patch account name t patch distinct, prog⟩) :
    (∀ later m earlier, System.momentsOf i ms = later ++ m :: earlier →
      m.after.store ≠ m.before.store → Changed (t.key account name) patch m earlier) ∧
    (prog = .ret (some (.status 204)) → ∃ later m earlier,
      System.momentsOf i ms = later ++ m :: earlier ∧ Took (t.key account name) patch m ∧
        ∀ m' ∈ later ++ earlier, m'.after.store = m'.before.store) := by
  refine ⟨fun later m earlier hm hne => changed_of_moment h hi hm hne, ?_⟩
  rintro rfl
  have hsucceeded := h.returned (fun _ _ _ _ _ _ => trivial)
    (guards_patches p isQualifiedName isValidLabelValue) hi rfl
  rcases hsucceeded with ⟨hfutile, obj, hread, hequal⟩ | ⟨tr, obj, w, htr, hw⟩
  · -- the labels were as they should be when they were read
    obtain ⟨m, hm, hseen⟩ := List.mem_map.mp hread
    obtain ⟨later, earlier, hsplit⟩ := List.append_of_mem hm
    have hall : ∀ m' ∈ System.momentsOf i ms, m'.after.store = m'.before.store := by
      intro m' hm'
      obtain ⟨_, _, hsplit'⟩ := List.append_of_mem hm'
      exact store_of_futile h hi hsplit' (hfutile _ (List.mem_map_of_mem hm'))
    refine ⟨later, m, earlier, hsplit, took_of_read h hi hsplit hseen hequal (hall m hm), ?_⟩
    intro m' hm'
    refine hall m' ?_
    rw [hsplit]
    exact List.mem_append.mpr ((List.mem_append.mp hm').imp_right (List.mem_cons_of_mem m))
  · -- the last thing it did was the write
    cases hms : System.momentsOf i ms with
    | nil =>
      rw [hms] at htr
      cases htr
    | cons m earlier =>
      rw [hms, List.map_cons] at htr
      obtain ⟨hseen, rfl⟩ := List.cons.inj htr
      have hsplit : System.momentsOf i ms = [] ++ m :: earlier := hms
      refine ⟨[], m, earlier, rfl, took_of_update h hi hsplit hseen hw, ?_⟩
      intro m' (hm' : m' ∈ earlier)
      obtain ⟨_, _, hsplit'⟩ := List.append_of_mem hm'
      rw [hsplit', ← List.cons_append] at hms
      exact store_of_futile h hi hms (hw.futile _ (List.mem_map_of_mem hm'))

end Runs

/-! ### A run -/

abbrev lenient : System Fleet.Op Fleet.Op.Res State Fleet.Choice Caller (Option Response) :=
  patches .lenient (fun _ => true) fun _ => true

def setA : Caller := .patch "1" "c" .cluster [("a", some "1")] (by decide)

/-- The `i`-th caller is a patch of this Cluster that has succeeded. -/
def succeeded (i : ℕ) (patch : Patch) (c : PatchConf) : Bool :=
  (c.pool[i]?).any fun t =>
    match t.label, t.prog with
    | .patch account name kind patch' _, .ret (some r) =>
      account == "1" && name == "c" && kind == Served.cluster && patch' == patch && r == .status 204
    | _, _ => false

lemma succeeded_iff {i : ℕ} {patch : Patch} {c : PatchConf} (h : succeeded i patch c = true) :
    ∃ distinct, c.pool[i]? =
      some ⟨.patch "1" "c" .cluster patch distinct, .ret (some (.status 204))⟩ := by
  obtain ⟨⟨l, prog⟩, ht, hf⟩ := (Option.any_eq_true _ _).mp h
  simp only at hf
  split at hf
  · next account name kind patch' distinct r =>
    simp only [Bool.and_eq_true, beq_iff_eq] at hf
    obtain ⟨⟨⟨⟨rfl, rfl⟩, rfl⟩, rfl⟩, rfl⟩ := hf
    exact ⟨distinct, ht⟩
  · cases hf

/-- A Cluster is created and one label is set. -/
def setSchedule : List (System.Event Fleet.Choice Caller) :=
  [.spawn (.other (.kube (.create (clusterKey "1" "c") { spec := {} }))), .act 0 { uid := "u" },
   .spawn setA, .act 1 {}, .act 1 {}, .act 1 {}]

/-- The label is set in one step. -/
theorem patches_atomic_set :
    ∃ (ms later earlier : List (Moment Fleet.Op Fleet.Op.Res State))
      (m : Moment Fleet.Op Fleet.Op.Res State) (c : PatchConf),
      lenient.Chronicle (fun _ _ _ _ => True) idle ms c ∧ succeeded 1 [("a", some "1")] c = true ∧
      System.momentsOf 1 ms = later ++ m :: earlier ∧
      Took (clusterKey "1" "c") [("a", some "1")] m ∧
      ∀ m' ∈ later ++ earlier, m'.after.store = m'.before.store := by
  have hrun : (lenient.chronicleIf (fun _ _ _ _ => true) setSchedule ([], idle)).any
      (fun h => succeeded 1 [("a", some "1")] h.2) = true := by
    decide +kernel
  obtain ⟨ms, c, h, hs⟩ := System.Chronicle.observed (fun _ _ _ _ _ => trivial) hrun
  obtain ⟨distinct, hi⟩ := succeeded_iff hs
  obtain ⟨later, m, earlier, hsplit, htook, hrest⟩ := (patches_atomic h hi).2 rfl
  exact ⟨ms, later, earlier, m, c, h, hs, hsplit, htook, hrest⟩

end Seaplane.Api.LabelPatches
