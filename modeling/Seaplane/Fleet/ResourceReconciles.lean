import Seaplane.Fleet.ResourceRequests

/-!
Reconciles follow the protocol of the resources, and so do all tasks.
-/

namespace Seaplane.Fleet

open Lib Kube Operator

/-! ### OidcConfigs -/

variable {tr1 : List Event}

section OidcConfig

variable {p : Operator.Params} {t : Task} {ns name : String} {oc : Object .oidcConfig}
  {tr : List Event}

lemma guards_reportLatest {k : Key} {ignoreMissing : Bool}
    {f : Object k.kind → Option (Status k.kind)}
    (hf : ∀ tr' s st, tr <:+ tr' → f s = some st → ReportsResource p t tr' k s st) :
    Follow p t (updateLatestStatus k ignoreMissing f) (fun tr' _ => tr <:+ tr') tr := by
  refine (guards_retries (Q := Done) (fun tr1 h1 => ?_) _).post fun _ _ h => h.1
  refine .call trivial fun r _ h2 => ?_
  have h2 := h1.trans h2
  cases r with
  | error => exact ⟨h2, trivial⟩
  | ok latest =>
    dsimp only
    split
    · exact ⟨h2, trivial⟩
    · next st hst =>
      refine ⟨fun _ => ⟨latest, known_get List.mem_cons_self, rfl, rfl, hf _ _ _ h2 hst⟩,
        fun r _ => ?_⟩
      cases r <;> exact ⟨h2.trans (List.suffix_cons _ _), trivial⟩

lemma guards_dropFinalizer {k : Key} {finalizer : String}
    (hf : ∀ tr' (s : Object k.kind), tr <:+ tr' → UpdatesResource t tr' k s
      { s with finalizers := s.finalizers.filter (· != finalizer) }) :
    Follow p t (removeFinalizer k finalizer) (fun tr' _ => tr <:+ tr') tr := by
  refine (guards_retries (Q := Done) (fun tr1 h1 => ?_) _).post fun _ _ h => h.1
  refine .call trivial fun r _ h2 => ?_
  have h2 := h1.trans h2
  cases r with
  | error => exact ⟨h2, trivial⟩
  | ok latest =>
    dsimp only
    split
    · refine ⟨fun _ => ⟨latest, known_get List.mem_cons_self, rfl, rfl, hf _ _ h2⟩, fun r _ => ?_⟩
      cases r <;> exact ⟨h2.trans (List.suffix_cons _ _), trivial⟩
    · exact ⟨h2, trivial⟩

lemma guards_privateKeyExists {account configID : String} (tr : List Event) :
    Follow p t (privateKeyExists account configID) (fun tr' _ => tr <:+ tr') tr := by
  refine .call nofun fun r _ _ => ?_
  split <;> exact List.suffix_cons _ _

lemma guards_isReferencedByCluster (tr : List Event) :
    Follow p t (isReferencedByCluster oc) (fun tr' _ => tr <:+ tr') tr := by
  refine ⟨trivial, fun r _ => ?_⟩
  cases r <;> exact List.suffix_cons _ _

variable (ht : t = .reconcile .oidcConfig ns name)
include ht

variable {reason : String}

lemma guards_setReadyCondition (tr : List Event) :
    Follow p t (setReadyCondition ns name reason) (fun tr' _ => tr <:+ tr') tr := by
  unfold setReadyCondition
  refine (guards_reportLatest ?_).bind fun _ _ h => h
  rintro tr' s st - ⟨⟩
  exact .unready ht (.inr rfl)

lemma guards_setReadyConditionAndPhase {phase : String} (hp : phase ≠ "Ready") (tr : List Event) :
    Follow p t (setReadyConditionAndPhase ns name reason phase) (fun tr' _ => tr <:+ tr') tr := by
  unfold setReadyConditionAndPhase
  refine (guards_reportLatest ?_).bind fun _ _ h => h
  rintro tr' s st - ⟨⟩
  exact .unready ht (.inl hp)

lemma guards_awaitIssuer (tr : List Event) : Follow p t (awaitIssuer ns name reason) Done tr :=
  (guards_setReadyConditionAndPhase ht (by decide) tr).bind fun _ _ _ => trivial

lemma guards_markPending (tr : List Event) :
    Follow p t (markPending ns name oc) (fun tr' _ => tr <:+ tr') tr := by
  unfold markPending
  split
  · unfold setOidcConfigPhase
    split
    · exact List.suffix_refl tr
    refine (guards_reportLatest ?_).bind fun _ _ h => h
    intro tr' s st _ hst
    dsimp only at hst
    split at hst
    · cases hst
    · cases hst
      exact .unready ht (.inl (show "Pending" ≠ "Ready" by decide))
  · exact List.suffix_refl tr

variable (hs : Subject ⟨.oidcConfig, ns, name⟩ tr oc)
include hs

section Live

variable (hl : oc.deleting = false) (hf : oidcConfigFinalizer ∈ oc.finalizers)
include hl hf

lemma guards_reserveIssuerURLIndex : Follow p t (reserveIssuerURLIndex p ns name oc)
    (fun tr' r => tr <:+ tr' ∧
      (r = .ok () → Reserved p tr' oc.spec.issuerUrl oc.uid)) tr := by
  refine .call (fun _ => .issuer ht hs hl hf rfl) fun r _ h1 => ?_
  rcases r with (_ | _ | _ | _ | _) | i
  case ok => exact ⟨h1, fun _ => .inl ⟨_, i, List.mem_cons_self, rfl⟩⟩
  case error.alreadyExists =>
    refine .call trivial fun r _ h2 => ?_
    have h2 := h1.trans h2
    cases r with
    | error => exact ⟨h2, nofun⟩
    | ok existing =>
      dsimp only
      split
      · exact (guards_setReadyConditionAndPhase ht (by decide) _).bind
          fun tr' _ h' => ⟨h2.trans h', nofun⟩
      · next ho => exact ⟨h2, fun _ => .inr ⟨existing, List.mem_cons_self, not_not.mp ho⟩⟩
  all_goals exact ⟨h1, nofun⟩

lemma guards_storePrivateKey (hm : oc.spec.type = "unmanaged") {value : String}
    (hv : p.validateRSAPrivateKey value) :
    Follow p t (storePrivateKey oc.spec.accountID name value) (fun tr' _ => tr <:+ tr') tr := by
  refine .call (fun _ => .create ht hs hl hf hm hv) fun r _ h1 => ?_
  rcases r with (_ | _ | _) | _
  case error.alreadyExists =>
    refine ⟨fun _ => .overwrite ht (hs.suffix h1) hl hf hm hv, fun r _ => ?_⟩
    cases r <;> exact h1.trans (List.suffix_cons _ _)
  all_goals exact h1

lemma guards_copyPrivateKey (hm : oc.spec.type = "unmanaged") :
    Follow p t (copyPrivateKey p ns name oc) (fun tr' _ => tr <:+ tr') tr := by
  refine (guards_privateKeyExists tr).bind fun tr1 r h1 => ?_
  split
  · exact h1
  · exact h1
  refine .call nofun fun r _ h2 => ?_
  have h2 := h1.trans h2
  cases r with
  | error => exact (guards_setReadyCondition ht _).bind fun _ _ h => h2.trans h
  | ok keyData =>
    dsimp only
    split
    · exact (guards_setReadyConditionAndPhase ht (by decide) _).bind fun _ _ h => h2.trans h
    · next hv =>
      refine (guards_storePrivateKey ht (hs.suffix h2) hl hf hm (by simpa using hv)).bind
        fun tr3 r h3 => ?_
      split
      · exact (guards_setReadyCondition ht _).bind fun _ _ h => (h2.trans h3).trans h
      · exact h2.trans h3

lemma guards_checkReadiness {onFailure : FleetProg Outcome} (h1 : tr <:+ tr1)
    (hr : Reserved p tr1 oc.spec.issuerUrl oc.uid) (hfail : ∀ tr, Follow p t onFailure Done tr) :
    Follow p t (checkReadiness ns name oc onFailure) Done tr1 := by
  refine ⟨nofun, fun r _ => ?_⟩
  cases r with
  | error => exact hfail _
  | ok thumbprint =>
    simp only [Prog.ret_bind]
    refine (guards_reportLatest ?_).bind fun _ r _ => by cases r <;> trivial
    rintro tr' s st h2 ⟨⟩
    have h3 := (List.suffix_cons _ _).trans h2
    exact .ready ht (hs.suffix (h1.trans h3)) hl hf (hr.mono h3.subset)

lemma guards_reconcileManaged : Follow p t (reconcileManaged p ns name oc) Done tr := by
  refine (guards_markPending ht tr).bind fun tr1 _ h1 => ?_
  refine (guards_reserveIssuerURLIndex ht (hs.suffix h1) hl hf).next .ret fun tr2 _ h2 => ?_
  refine (guards_isReferencedByCluster tr2).bind fun tr3 r h3 => ?_
  split
  · trivial
  · exact guards_awaitIssuer ht _
  · exact guards_checkReadiness ht hs hl hf (h1.trans (h2.1.trans h3)) ((h2.2 rfl).mono h3.subset)
      (guards_awaitIssuer ht)

lemma guards_reconcileUnmanaged (hm : oc.spec.type = "unmanaged") :
    Follow p t (reconcileUnmanaged p ns name oc) Done tr := by
  refine (guards_markPending ht tr).bind fun tr1 _ h1 => ?_
  refine (guards_reserveIssuerURLIndex ht (hs.suffix h1) hl hf).next .ret fun tr2 _ h2 => ?_
  refine (guards_copyPrivateKey ht (hs.suffix (h1.trans h2.1)) hl hf hm).bind fun tr3 r h3 => ?_
  split
  · trivial
  refine guards_checkReadiness ht hs hl hf (h1.trans (h2.1.trans h3)) ((h2.2 rfl).mono h3.subset)
    fun tr => ?_
  exact (guards_setReadyConditionAndPhase ht (by decide) tr).bind fun _ _ _ => trivial

end Live

section Dying

variable (hd : oc.deleting = true)
include hd

lemma guards_deleteStoredKey :
    Follow p t (deleteStoredKey name oc) (fun tr' r => tr <:+ tr' ∧
      (r = .ok () → oc.spec.type = "unmanaged" →
        KeyDeleted tr' (secretName oc.spec.accountID name))) tr := by
  unfold deleteStoredKey
  split
  · refine .call (fun _ => .delete ht hs hd) fun r _ h1 => ?_
    rcases r with (_ | _ | _) | _
    case ok => exact ⟨h1, fun _ _ => ⟨_, List.mem_cons_self, .inl rfl⟩⟩
    case error.notFound => exact ⟨h1, fun _ _ => ⟨_, List.mem_cons_self, .inr rfl⟩⟩
    all_goals exact ⟨h1, nofun⟩
  · next hu => exact ⟨List.suffix_refl tr, fun _ h => absurd h hu⟩

lemma guards_deleteIssuerURLIndex : Follow p t (deleteIssuerURLIndex p oc)
    (fun tr' _ => tr <:+ tr') tr := by
  refine .call trivial fun r _ h1 => ?_
  cases r with
  | error => exact h1
  | ok index =>
    dsimp only
    split
    · exact h1
    · next ho =>
      refine ⟨fun _ => ⟨known_get List.mem_cons_self, .issuer ht (hs.suffix h1) hd (not_not.mp ho)⟩,
        fun r _ => ?_⟩
      cases r <;> exact h1.trans (List.suffix_cons _ _)

lemma guards_reconcileOidcConfigDelete :
    Follow p t (reconcileOidcConfigDelete p ns name oc) Done tr := by
  unfold reconcileOidcConfigDelete
  split
  · trivial
  · next hf =>
    refine (guards_deleteStoredKey ht hs hd).next .ret fun tr1 _ h1 => ?_
    refine (guards_deleteIssuerURLIndex ht (hs.suffix h1.1) hd).next .ret fun tr2 _ h2 => ?_
    refine (guards_dropFinalizer fun tr3 s h3 => ?_).bind fun _ r _ => by cases r <;> trivial
    refine .dropConfig ht (hs.suffix (h1.1.trans (h2.trans h3))) hd (by simpa using hf) ?_
    intro hu
    obtain ⟨r, hm, hr⟩ := h1.2 rfl hu
    exact ⟨r, (h2.trans h3).subset hm, hr⟩

end Dying

omit hs in
lemma guards_reconcileOidcConfig : Follow p t (reconcileOidcConfig p ns name) Done [] := by
  refine .call trivial fun r _ _ => ?_
  split
  · trivial
  · trivial
  · next oc _ _ =>
    have hs : Subject ⟨.oidcConfig, ns, name⟩ [⟨.kube (.get (oidcConfigKey ns name)), .ok oc⟩] oc :=
      rfl
    split
    · next hd => exact guards_reconcileOidcConfigDelete ht hs hd
    · next hl =>
      split
      · refine .call (fun _ => ⟨oc, known_get List.mem_cons_self, rfl, rfl,
          .addFinalizer _ (.inl ⟨rfl, ht⟩)⟩) fun r _ _ => ?_
        split <;> trivial
      · next hf =>
        have hl' : oc.deleting = false := by simpa using hl
        have hf' : oidcConfigFinalizer ∈ oc.finalizers := by simpa using hf
        split
        · exact guards_reconcileManaged ht hs hl' hf'
        split
        · next hm => exact guards_reconcileUnmanaged ht hs hl' hf' hm
        · exact (guards_setReadyConditionAndPhase ht (by decide) _).bind fun _ _ _ => trivial

end OidcConfig

/-! ### DNSReservations -/

lemma mem_of_firstByName {is : List (Item .index)} {i : Item .index} (h : firstByName is = some i) :
    i ∈ is := by
  induction is generalizing i with
  | nil => cases h
  | cons j is ih =>
    simp only [firstByName] at h
    split at h
    · cases h
      exact List.mem_cons_self
    · next j' hj' =>
      split at h
      · cases h
        exact List.mem_cons_of_mem _ (ih hj')
      · cases h
        exact List.mem_cons_self

lemma firstByName_none {is : List (Item .index)} (h : firstByName is = none) : is = [] := by
  cases is with
  | nil => rfl
  | cons j is =>
    simp only [firstByName] at h
    split at h
    · cases h
    · split at h <;> cases h

lemma guards_resolveInternalHostedClusterName {p : Operator.Params} {t : Task} {ns name : String}
    {res : Object .dnsReservation} (tr : List Event) :
    Follow p t (resolveInternalHostedClusterName ns name res) (fun tr' _ => Quiet tr tr') tr := by
  unfold resolveInternalHostedClusterName
  dsimp only
  split
  · split <;> exact .refl
  split
  · exact .refl
  refine ⟨trivial, fun r _ => ?_⟩
  have h1 : Quiet tr (⟨.kube (.list .cluster { ns := some ns }), r⟩ :: tr) :=
    Quiet.refl.cons (not_createsIndex (by simp))
  cases r with
  | error => exact h1
  | ok clusters =>
    simp only [Prog.ret_bind]
    split <;> exact h1

section DNSReservation

variable {p : Operator.Params} {t : Task} {ns name : String} {res : Object .dnsReservation}
  {tr : List Event}

/-- The Index is one of the reservation's in the DNS shard. -/
def mine (uid : Uid) (i : Item .index) : Bool :=
  ownerOf i.object == uid && i.ns == dnsShardNamespace defaultDNSShard

/-- The outcome of a search for the reservation's Index. -/
structure Found (uid : Uid) (tr : List Event) (i : Option (Item .index)) : Prop where
  vacant : i = none → Vacant tr uid
  owns : ∀ j, i = some j → j.ns = dnsShardNamespace defaultDNSShard ∧ Owns tr uid j.name

variable (ht : t = .reconcile .dnsReservation ns name)
  (hs : Subject ⟨.dnsReservation, ns, name⟩ tr res)
include ht hs

lemma guards_dropMisplaced (items : List (Item .index)) (h1 : Quiet tr tr1)
    (hi : ∀ i ∈ items, Known tr i.key i.object) :
    Follow p t (dropMisplaced res.uid items) (fun tr' r => Quiet tr tr' ∧
      ∀ expected, r = .ok expected → expected = items.filter (mine res.uid)) tr1 := by
  induction items generalizing tr1 with
  | nil =>
    refine ⟨h1, ?_⟩
    rintro expected ⟨⟩
    rfl
  | cons i is ih =>
    have hi' : ∀ j ∈ is, Known tr j.key j.object := fun j hj => hi j (List.mem_cons_of_mem _ hj)
    unfold dropMisplaced
    split
    · next ho =>
      refine (ih h1 hi').post fun tr' r h => ⟨h.1, fun expected he => ?_⟩
      rw [List.filter_cons_of_neg (by simpa [mine, ownerOf] using fun h => absurd h ho)]
      exact h.2 expected he
    · next ho =>
      split
      · next hns =>
        have hrest : ∀ tr2, Quiet tr tr2 → Follow p t (dropMisplaced res.uid is)
            (fun tr' r => Quiet tr tr' ∧
              ∀ expected, r = .ok expected → expected = (i :: is).filter (mine res.uid)) tr2 := by
          intro tr2 h2
          refine (ih h2 hi').post fun tr' r h => ⟨h.1, fun expected he => ?_⟩
          rw [List.filter_cons_of_neg (by simpa [mine] using fun _ => hns)]
          exact h.2 expected he
        refine ⟨fun _ => ⟨(hi i List.mem_cons_self).mono h1.suffix.subset,
          .index ht (hs.suffix h1.suffix) (not_not.mp ho) (.inr (.inl hns))⟩, fun r _ => ?_⟩
        have h2 : Quiet tr (⟨.kube (.delete i.key i.object), r⟩ :: tr1) :=
          h1.cons (not_createsIndex (by simp))
        rcases r with (_ | _ | _ | _ | _) | _
        case ok => exact hrest _ h2
        case error.notFound => exact hrest _ h2
        all_goals exact ⟨h2, nofun⟩
      · next hns =>
        refine (ih h1 hi').bind fun tr2 r h2 => ?_
        cases r with
        | error => exact ⟨h2.1, nofun⟩
        | ok expected =>
          refine ⟨h2.1, ?_⟩
          rintro expected' ⟨⟩
          rw [List.filter_cons_of_pos
            (by simpa [mine, ownerOf] using ⟨not_not.mp ho, not_not.mp hns⟩),
            ← h2.2 expected rfl]

lemma guards_recoverOwnedIndex (h1 : tr <:+ tr1) :
    Follow p t (recoverOwnedIndex res.uid)
      (fun tr' r => tr1 <:+ tr' ∧ ∀ i, r = .ok i → Found res.uid tr' i) tr1 := by
  refine .call trivial fun r _ h2 => ?_
  cases r with
  | error => exact ⟨h2, nofun⟩
  | ok items =>
    refine (guards_dropMisplaced ht (hs.suffix (h1.trans h2)) items .refl fun i hi =>
      known_listed List.mem_cons_self hi).bind fun tr3 r h3 => ?_
    have h4 := h2.trans h3.1.suffix
    cases r with
    | error => exact ⟨h4, nofun⟩
    | ok expected =>
      refine ⟨h4, ?_⟩
      rintro i ⟨⟩
      obtain rfl := h3.2 expected rfl
      refine ⟨fun hn => h3.1.vacant (.inl ⟨items, rfl, fun j hj hns ho => ?_⟩), fun j hj => ?_⟩
      · have hmem : j ∈ items.filter (mine res.uid) :=
          List.mem_filter.mpr ⟨hj, by simp [mine, hns, ho]⟩
        rw [firstByName_none hn] at hmem
        cases hmem
      · obtain ⟨hj', hmine⟩ := List.mem_filter.mp (mem_of_firstByName hj)
        simp only [mine, Bool.and_eq_true, beq_iff_eq] at hmine
        refine ⟨hmine.2, _, items, j, h3.1.suffix.subset List.mem_cons_self, hj', ?_, hmine.1⟩
        simp [Item.key, hmine.2]

lemma guards_recoverCreated (h1 : tr <:+ tr1) :
    Follow p t (recoverCreated res.uid)
      (fun tr' r => tr1 <:+ tr' ∧ ∀ i, r = .ok i → Found res.uid tr' i) tr1 := by
  refine (guards_recoverOwnedIndex ht hs h1).bind fun tr2 r h2 => ?_
  split
  · exact ⟨h2.1, nofun⟩
  · exact ⟨h2.1, nofun⟩
  · next i =>
    refine ⟨h2.1, ?_⟩
    rintro j ⟨⟩
    exact h2.2 _ rfl

variable (hl : res.deleting = false) (hu : res.uid ≠ "")
include hl hu

lemma guards_allocateAttempts {accountID : String} (n : ℕ) (h1 : tr <:+ tr1)
    (hv : Vacant tr1 res.uid) : Follow p t (allocateAttempts accountID res.uid n)
      (fun tr' r => tr1 <:+ tr' ∧ ∀ i, r = .ok i → Found res.uid tr' i)
      tr1 := by
  induction n generalizing tr1 with
  | zero =>
    refine ⟨List.suffix_refl _, ?_⟩
    rintro i ⟨⟩
    exact ⟨fun _ => hv, nofun⟩
  | succ n ih =>
    refine ⟨nofun, fun r _ => ?_⟩
    have h2 : Quiet tr1 (⟨.infra .randomDNSPrefix, r⟩ :: tr1) :=
      Quiet.refl.cons (not_createsIndex (by simp))
    cases r with
    | error => exact ⟨h2.suffix, nofun⟩
    | ok generated =>
      refine .call (fun _ => .index ht (hs.suffix (h1.trans h2.suffix)) hl hu (h2.vacant hv) rfl)
        fun r _ h3 => ?_
      have h3 := h2.suffix.trans h3
      rcases r with (_ | _ | _ | _ | _) | i
      case ok =>
        exact (guards_recoverCreated ht hs (h1.trans h3)).post fun _ _ h => ⟨h3.trans h.1, h.2⟩
      case error.alreadyExists =>
        refine ⟨trivial, fun r _ => ?_⟩
        -- the answer says that nothing was created
        have h4 : Quiet tr1 (⟨.kube (.get (dnsIndexKey generated)), r⟩ ::
            ⟨.kube (.create (dnsIndexKey generated)
              { labels := [(accountIDLabel, accountID), (ownerUIDLabel, res.uid)], spec := () }),
              .error .alreadyExists⟩ :: ⟨.infra .randomDNSPrefix, .ok generated⟩ :: tr1) := by
          refine (h2.cons ?_).cons (not_createsIndex (by simp))
          rintro ⟨n, w, r', he, hr⟩
          cases he
          exact hr rfl
        cases r with
        | error => exact ⟨h4.suffix, nofun⟩
        | ok existing =>
          simp only [Prog.ret_bind]
          split
          · exact (ih (h1.trans h4.suffix) (h4.vacant hv)).post
              fun _ _ h => ⟨h4.suffix.trans h.1, h.2⟩
          · exact (guards_recoverCreated ht hs (h1.trans h4.suffix)).post
              fun _ _ h => ⟨h4.suffix.trans h.1, h.2⟩
      all_goals exact ⟨h3, nofun⟩

lemma guards_ensureIndex : Follow p t (ensureIndex res)
    (fun tr' r => tr <:+ tr' ∧ ∀ i, r = .ok i → Found res.uid tr' i) tr := by
  refine (guards_recoverOwnedIndex ht hs (List.suffix_refl tr)).bind fun tr1 r h1 => ?_
  split
  · exact ⟨h1.1, nofun⟩
  · refine ⟨h1.1, ?_⟩
    rintro i ⟨⟩
    exact h1.2 _ rfl
  · unfold allocateIndex
    dsimp only
    split
    · exact ⟨h1.1, nofun⟩
    · exact (guards_allocateAttempts ht hs hl hu 5 h1.1 ((h1.2 none rfl).vacant rfl)).imp
        (fun _ _ h => h) fun _ _ h => ⟨h1.1.trans h.1, h.2⟩

omit ht hs hl hu in
lemma guards_updateReservationStatus {uid : Uid} {phase baseDomain : String} {failed : Bool}
    (hst : ∀ tr' (s : Object .dnsReservation) (st : DNSReservationStatus), Quiet tr tr' →
      s.uid = uid → s.deleting = false → st.phase = phase → st.baseDomain = baseDomain →
        ReportsResource p t tr' (dnsReservationKey ns name) s st) :
    Follow p t (updateReservationStatus ns name uid phase baseDomain failed) Done tr := by
  refine guards_retry (P := Quiet tr) (fun tr1 h1 => ?_) _ .refl
  refine ⟨trivial, fun r _ => ?_⟩
  have h2 : Quiet tr (⟨.kube (.get (dnsReservationKey ns name)), r⟩ :: tr1) :=
    h1.cons (not_createsIndex (by simp))
  cases r with
  | error => exact ⟨trivial, fun _ _ _ => h2⟩
  | ok latest =>
    simp only [Prog.ret_bind]
    split
    · exact ⟨trivial, fun _ _ _ => h2⟩
    · next hsame =>
      obtain ⟨hu, hlive⟩ := not_or.mp hsame
      refine (guards_resolveInternalHostedClusterName _).bind fun tr3 r h3 => ?_
      have h4 := h2.trans h3
      split
      · exact ⟨trivial, fun _ _ _ => h4⟩
      split
      · exact ⟨trivial, fun _ _ _ => h4⟩
      refine ⟨fun _ => ⟨latest, known_get (h3.suffix.subset List.mem_cons_self), rfl, rfl, ?_⟩,
        fun r _ => ?_⟩
      · exact hst _ _ _ h4 (not_not.mp hu) (by simpa using hlive) rfl rfl
      · have h5 := h4.cons (e := ⟨.kube (.updateStatus (dnsReservationKey ns name) _), r⟩)
          (not_createsIndex (by simp))
        cases r <;> exact ⟨trivial, fun _ _ _ => h5⟩

omit ht hs hl hu in
lemma guards_deleteOwnedIndexes {uid : Uid} {spared : Item .index → Bool}
    (items : List (Item .index)) (h1 : tr <:+ tr1) (hi : ∀ i ∈ items, Known tr i.key i.object)
    (hd : ∀ tr', ∀ i ∈ items, tr <:+ tr' → ownerOf i.object = uid → spared i = false →
      DeletesResource p t tr' i.key i.object) :
    Follow p t (deleteOwnedIndexes uid spared items) (fun tr' _ => tr <:+ tr') tr1 := by
  induction items generalizing tr1 with
  | nil => exact h1
  | cons i is ih =>
    have hrest : ∀ tr2, tr <:+ tr2 → Follow p t (deleteOwnedIndexes uid spared is)
      (fun tr' _ => tr <:+ tr') tr2 := fun tr2 h2 =>
      ih h2 (fun j hj => hi j (List.mem_cons_of_mem _ hj))
        fun tr' j hj => hd tr' j (List.mem_cons_of_mem _ hj)
    unfold deleteOwnedIndexes
    split
    · exact hrest _ h1
    · next hsp =>
      obtain ⟨ho, hsp⟩ := not_or.mp hsp
      refine ⟨fun _ => ⟨(hi i List.mem_cons_self).mono h1.subset, ?_⟩, fun r _ => ?_⟩
      · exact hd _ i List.mem_cons_self h1 (not_not.mp ho) (by simpa using hsp)
      · have h2 := h1.trans (List.suffix_cons (⟨.kube (.delete i.key i.object), r⟩ : Event) tr1)
        rcases r with (_ | _ | _ | _ | _) | _
        case ok => exact hrest _ h2
        case error.notFound => exact hrest _ h2
        all_goals exact h2

omit hu in
lemma guards_settleReservation {index : Item .index}
    (hns : index.ns = dnsShardNamespace defaultDNSShard) (ho : Owns tr res.uid index.name) :
    Follow p t (settleReservation p ns name res.uid index) Done tr := by
  have hdup : Follow p t (deleteDuplicateOwnedIndexes res.uid index)
      (fun tr' _ => tr <:+ tr') tr := by
    refine .call trivial fun r _ h1 => ?_
    cases r with
    | error => exact h1
    | ok items =>
      refine (guards_deleteOwnedIndexes items (List.suffix_refl _)
        (fun i hi => known_listed List.mem_cons_self hi) fun tr' i _ h' hu hsp => ?_).imp
          (fun _ _ h => h) fun _ _ h => h1.trans h
      refine .index ht (hs.suffix (h1.trans h')) hu (.inr ?_)
      by_cases hi : i.ns = dnsShardNamespace defaultDNSShard
      · refine .inr ⟨index.name, ho.mono (h1.trans h').subset, fun hn => ?_⟩
        simp [hi, hns, hn] at hsp
      · exact .inl hi
  refine hdup.next .ret fun tr1 _ h1 => ?_
  refine (guards_updateReservationStatus fun tr' s st h2 hsu hsd hph hbd => ?_).bind
    fun _ r _ => by cases r <;> trivial
  exact .allocated ht (hs.suffix (h1.trans h2.suffix)) hl hsu hsd
    (ho.mono (h1.trans h2.suffix).subset) hph hbd

omit hl hu in
lemma guards_reconcileDNSReservationDelete (hd : res.deleting = true) :
    Follow p t (reconcileDNSReservationDelete ns name res.uid) Done tr := by
  refine .call trivial fun r _ h1 => ?_
  cases r with
  | error => trivial
  | ok items =>
    refine (guards_deleteOwnedIndexes items (List.suffix_refl _)
      (fun i hi => known_listed List.mem_cons_self hi) fun tr' i _ h' hu _ => ?_).bind
        fun tr2 r h2 => ?_
    · exact .index ht (hs.suffix (h1.trans h')) hu (.inl hd)
    · split
      · trivial
      refine .call trivial fun r _ h3 => ?_
      have h3 := (h1.trans h2).trans h3
      split
      · trivial
      · trivial
      refine (guards_retries (Q := Done) (fun tr4 h4 => ?_) _).bind
        fun _ r _ => by cases r <;> trivial
      refine .call trivial fun r _ h5 => ?_
      have h5 := h4.trans h5
      cases r with
      | error => exact ⟨h5, trivial⟩
      | ok latest =>
        dsimp only
        split
        · exact ⟨h5, trivial⟩
        · next hsame =>
          obtain ⟨hu, -⟩ := not_or.mp hsame
          refine ⟨fun _ => ⟨latest, known_get List.mem_cons_self, rfl, rfl,
            .dropReservation ht (hs.suffix (h3.trans h5)) hd (not_not.mp hu)⟩, fun r _ => ?_⟩
          cases r <;> exact ⟨h5.trans (List.suffix_cons _ _), trivial⟩

omit hs hl hu in
lemma guards_reconcileReservation : Follow p t (reconcileReservation p ns name) Done [] := by
  refine .call trivial fun r _ _ => ?_
  split
  · trivial
  · trivial
  · next res _ _ =>
    have hs : Subject ⟨.dnsReservation, ns, name⟩
        [⟨.kube (.get (dnsReservationKey ns name)), .ok res⟩] res := rfl
    split
    · next hd => exact guards_reconcileDNSReservationDelete ht hs hd
    · next hl =>
      have hl' : res.deleting = false := by simpa using hl
      split
      · refine .call (fun _ => ⟨res, known_get List.mem_cons_self, rfl, rfl,
          .addFinalizer _ (.inr ⟨rfl, ht⟩)⟩) fun r _ _ => ?_
        split <;> trivial
      · split
        · trivial
        · next hu =>
          have hu' : res.uid ≠ "" := (not_or.mp hu).1
          refine (guards_ensureIndex ht hs hl' hu').bind fun tr1 r h1 => ?_
          split
          · trivial
          · refine (guards_updateReservationStatus fun tr' s st h2 hsu hsd hph _ => ?_).bind
              fun _ r _ => by cases r <;> trivial
            exact .unallocated ht (hs.suffix (h1.1.trans h2.suffix)) hl' hsu hsd
              (h2.vacant ((h1.2 none rfl).vacant rfl)) (by rw [hph]; decide)
          · next index =>
            obtain ⟨hns, ho⟩ := (h1.2 _ rfl).owns index rfl
            exact guards_settleReservation ht (hs.suffix h1.1) hl' hns ho

end DNSReservation

/-! ### Clusters -/

section Cluster

variable {p : Operator.Params} {t : Task} {ns name : String} {c : Object .cluster} {tr : List Event}

lemma guards_operator_getByUID {kind : Kind} {accountID uid : String} (tr : List Event) :
    Follow p t (Operator.getByUID kind accountID uid)
      (fun tr' r => tr <:+ tr' ∧ ∀ i, r = .ok i → Known tr' i.key i.object) tr := by
  have hlist : Follow p t (listByMetadataUID kind (accountNamespace accountID) uid)
      (fun tr' r => tr <:+ tr' ∧
        ∀ items, r = .ok items → ∀ i ∈ items, Known tr' i.key i.object) tr := by
    refine .call trivial fun r _ h1 => ?_
    rcases r with (_ | _ | _ | _ | _) | items
    case ok =>
      refine ⟨h1, ?_⟩
      rintro items' ⟨⟩ i hi
      exact known_listed List.mem_cons_self hi
    case error.badRequest =>
      refine ⟨trivial, fun r _ => ⟨h1.trans (List.suffix_cons _ _), ?_⟩⟩
      rintro items' rfl i hi
      exact known_listed List.mem_cons_self hi
    all_goals exact ⟨h1, nofun⟩
  refine hlist.bind fun tr1 r h1 => ?_
  cases r with
  | error => exact ⟨h1.1, nofun⟩
  | ok items =>
    dsimp only
    split
    · exact ⟨h1.1, nofun⟩
    · next i hi =>
      refine ⟨h1.1, ?_⟩
      rintro j ⟨⟩
      exact h1.2 items rfl i (List.mem_of_find?_eq_some hi)

variable (ht : t = .reconcile .cluster ns name) (hs : Subject ⟨.cluster, ns, name⟩ tr c)
include ht hs

lemma guards_automaticDNSReservation (hl : c.deleting = false)
    (hf : clusterFinalizer ∈ c.finalizers) :
    Follow p t (automaticDNSReservation name (accountOf c) c.uid) Done tr := by
  refine .call trivial fun r _ h1 => ?_
  split
  · trivial
  · refine .call trivial fun r _ _ => ?_
    split
    · trivial
    · refine ⟨fun _ => ?_, fun r _ => ?_⟩
      · exact .automatic ht (hs.suffix (h1.trans (List.suffix_cons _ _))) hl hf rfl rfl
      · simp only [Prog.ret_bind]
        split
        · trivial
        · exact ⟨trivial, fun _ _ => trivial⟩
        · trivial
    · trivial
  · trivial

lemma guards_reconcileClusterDNSReservation (hl : c.deleting = false)
    (hf : clusterFinalizer ∈ c.finalizers) :
    Follow p t (reconcileDNSReservation ns name c) Done tr := by
  unfold reconcileDNSReservation
  split
  · unfold ensureAutomaticDNSReservation
    split
    · trivial
    refine Prog.Guards.bind (R := Done) ?_ fun _ _ _ => trivial
    refine (guards_automaticDNSReservation ht hs hl hf).next .ret fun tr1 _ _ => ?_
    dsimp only
    split
    · trivial
    refine .call (Protocol.follows_within (within_write rfl rfl)) fun r _ _ => ?_
    split <;> trivial
  · refine (guards_apart spares_confirmedDNSReservation tr).bind fun tr1 r _ => ?_
    split
    · trivial
    · exact (guards_apart (spares_awaitClaims (W := Apart) rfl) _).bind fun _ _ _ => trivial
    split
    · exact (guards_apart (spares_persistBaseDomain (W := Apart) rfl) _).bind fun _ _ _ => trivial
    · trivial

variable (hd : c.deleting = true)
include hd

lemma guards_releaseOidcConfig : Follow p t (releaseOidcConfig c) (fun tr' _ => tr <:+ tr') tr := by
  unfold releaseOidcConfig
  split
  · exact List.suffix_refl tr
  unfold releaseOidcConfigClaim
  dsimp only
  split
  · exact List.suffix_refl tr
  refine (guards_retries (Q := Done) (fun tr1 h1 => ?_) _).post fun _ _ h => h.1
  refine (guards_operator_getByUID tr1).bind fun tr2 r h2 => ?_
  have h3 := h1.trans h2.1
  split
  · exact ⟨h3, trivial⟩
  · next oc =>
    split
    · exact ⟨h3, trivial⟩
    · next hcl =>
      refine ⟨fun _ => ⟨oc.object, h2.2 _ rfl, rfl, rfl,
        .release ht (hs.suffix h3) hd (not_not.mp hcl)⟩, fun r _ => ?_⟩
      cases r <;> exact ⟨h3.trans (List.suffix_cons _ _), trivial⟩

lemma guards_releaseDNSReservationClaim {res : Item .dnsReservation} :
    Follow p t (releaseDNSReservationClaim res c.uid) (fun tr' _ => tr <:+ tr') tr := by
  refine (guards_retries (Q := Done) (fun tr1 h1 => ?_) _).post fun _ _ h => h.1
  refine .call trivial fun r _ h2 => ?_
  have h2 := h1.trans h2
  cases r with
  | error => exact ⟨h2, trivial⟩
  | ok latest =>
    dsimp only
    split
    · exact ⟨h2, trivial⟩
    · next hsame =>
      refine ⟨fun _ => ⟨latest, known_get List.mem_cons_self, rfl, rfl,
        .release ht (hs.suffix h2) hd (not_not.mp (not_or.mp hsame).2)⟩, fun r _ => ?_⟩
      cases r <;> exact ⟨h2.trans (List.suffix_cons _ _), trivial⟩

lemma guards_releaseReservations (rs : List (Item .dnsReservation)) (h1 : tr <:+ tr1)
    (hi : ∀ r ∈ rs, Known tr r.key r.object) :
    Follow p t (releaseReservations name c.uid rs) (fun tr' _ => tr <:+ tr') tr1 := by
  induction rs generalizing tr1 with
  | nil => exact h1
  | cons r rs ih =>
    unfold releaseReservations
    split
    · exact h1
    split
    · refine (guards_releaseDNSReservationClaim ht (hs.suffix h1) hd).bind fun tr2 x h2 => ?_
      split
      · exact h1.trans h2
      · exact ih (h1.trans h2) fun j hj => hi j (List.mem_cons_of_mem _ hj)
    · refine .call (fun _ => ⟨(hi r List.mem_cons_self).mono h1.subset,
        .withCluster ht (hs.suffix h1) hd⟩) fun x _ _ => ?_
      split <;> exact h1.trans (List.suffix_cons _ _)

lemma guards_releaseCluster : Follow p t (releaseCluster ns name c) Done tr := by
  refine (guards_releaseOidcConfig ht hs hd).next .ret fun tr1 _ h1 => ?_
  have hclaimed : Follow p t (claimedReservations c)
      (fun tr' r => tr1 <:+ tr' ∧ ∀ items, r = .ok items →
        ∀ i ∈ items, Known tr' i.key i.object) tr1 := by
    unfold claimedReservations
    split
    · refine ⟨List.suffix_refl _, ?_⟩
      rintro items ⟨⟩ i hi
      cases hi
    · refine ⟨trivial, fun r _ => ⟨List.suffix_cons _ _, ?_⟩⟩
      rintro items rfl i hi
      exact known_listed List.mem_cons_self hi
  refine hclaimed.next .ret fun tr2 _ h2 => ?_
  next reservations =>
  refine (guards_releaseReservations ht (hs.suffix (h1.trans h2.1)) hd reservations
    (List.suffix_refl _) (h2.2 _ rfl)).bind fun tr3 r _ => ?_
  split
  · trivial
  · exact (guards_apart (spares_removeFinalizer rfl) _).bind
      fun _ r _ => by cases r <;> trivial

lemma guards_finishClusterDelete : Follow p t (finishClusterDelete ns name c) Done tr := by
  refine (guards_apart (spares_deleteRenderedResource rfl) tr).next .ret fun tr1 _ h1 => ?_
  refine .call trivial fun r _ h2 => ?_
  have h2 := h1.trans h2
  split
  · trivial
  · exact (guards_apart (spares_deleteListed (apart_of_kind rfl (by decide)) _) _).bind
      fun _ r _ => by cases r <;> trivial
  · refine .call trivial fun r _ h3 => ?_
    have h3 := h2.trans h3
    split
    · trivial
    · exact (guards_apart (spares_deleteListed (apart_of_kind rfl (by decide)) _) _).bind
        fun _ r _ => by cases r <;> trivial
    · exact guards_releaseCluster ht (hs.suffix h3) hd

lemma guards_withdrawCluster {mc : String} {resources' : List Operator.Resource} {n : ℕ} :
    Follow p t (withdrawCluster ns name mc c resources' n) Done tr := by
  refine (guards_apart (spares_upsertDesires trivial) tr).next .ret fun tr1 _ h1 => ?_
  refine (guards_apart spares_checkApplyDesireStatuses _).bind fun tr2 synced h2 => ?_
  refine (guards_apart (spares_setClusterSyncedCondition (W := Apart) rfl) _).bind
    fun tr3 _ h3 => ?_
  split
  · trivial
  split
  · trivial
  refine (guards_apart (always_deleteDesireSpecs fun _ _ => spares_deleteDesireSpec trivial) _).next
    .ret fun tr4 _ h4 => ?_
  exact guards_finishClusterDelete ht
    (hs.suffix (h1.trans (h2.trans (h3.trans h4)))) hd

lemma guards_reconcileClusterDelete : Follow p t (reconcileClusterDelete p ns name c) Done tr := by
  unfold reconcileClusterDelete
  split
  · trivial
  refine (guards_apart (spares_setClusterPhase (W := Apart) rfl) tr).bind fun tr1 _ h1 => ?_
  refine (guards_apart spares_placedOn tr1).bind fun tr2 mc h2 => ?_
  have h3 := h1.trans h2
  split
  · exact guards_finishClusterDelete ht (hs.suffix h3) hd
  refine .call trivial fun r _ h4 => ?_
  have h4 := h3.trans h4
  split
  · trivial
  refine (guards_apart (spares_deleteListed (apart_of_kind rfl (by decide)) _) _).next .ret
    fun tr5 _ h5 => ?_
  refine (guards_apart spares_oidcSigningKeyExternal _).next .ret fun tr6 _ h6 => ?_
  dsimp only
  split
  · trivial
  · exact guards_withdrawCluster ht (hs.suffix (h4.trans (h5.trans h6))) hd

omit hs hd in
lemma guards_reconcileCluster : Follow p t (reconcileCluster p ns name) Done [] := by
  refine .call trivial fun r _ _ => ?_
  split
  · trivial
  · trivial
  · next c _ _ =>
    have hs : Subject ⟨.cluster, ns, name⟩
        [⟨.kube (.get (Operator.clusterKey ns name)), .ok c⟩] c := rfl
    split
    · next hd => exact guards_reconcileClusterDelete ht hs hd
    · next hl =>
      split
      · refine .call (Protocol.follows_within (within_write rfl rfl)) fun r _ _ => ?_
        split <;> trivial
      · next hf =>
        have hl' : c.deleting = false := by simpa using hl
        have hf' : clusterFinalizer ∈ c.finalizers := by simpa using hf
        refine (guards_apart (spares_ensureHostedClusterName (W := Apart) rfl) _).bind
          fun tr1 r h1 => ?_
        split
        · trivial
        refine (guards_reconcileClusterDNSReservation ht (hs.suffix h1) hl' hf').bind
          fun tr2 r _ => ?_
        split
        · trivial
        · exact (guards_apart (spares_reconcileAssignedCluster (W := Apart) rfl trivial rfl) _).imp
            (fun _ _ h => h) fun _ _ _ => trivial

end Cluster

/-! ### All tasks -/

def Returns (t : Task) (tr : List Event) (r : Reply) : Prop :=
  match t with
  | .createCluster account name _ spec =>
    r = .response (.status 201) → ClaimsAll tr account name spec
  | .request q => ∀ x, r = .response x → AcceptsDelete q tr x
  | _ => True

theorem guards_resources {p : Params} (t : Task) :
    (t.code p).Guards Any (resources p.operator t).Follows (Returns t) [] := by
  have hdone : ∀ {t : Task} {α : Type} {m : FleetProg α} {f : α → Reply}
      {A : List Event → Op → Prop},
      (∀ tr r, Returns t tr r) → m.Guards Any A Done [] →
        (m.bind fun a => .ret (f a)).Guards Any A (Returns t) [] :=
    fun hr h => h.bind fun tr _ _ => hr tr _
  have happart : ∀ {t : Task} {α : Type} {m : FleetProg α}, Spares Apart m →
      m.Guards Any (resources p.operator t).Follows Done [] :=
    fun hm => (guards_apart hm []).post fun _ _ _ => trivial
  cases t with
  | request r =>
    refine (guards_request r []).bind fun tr x hr y hy => ?_
    cases hy
    exact hr
  | createCluster account name annotations spec =>
    refine (guards_createCluster []).bind fun tr r hr he => hr ?_
    injection he
  | createNodePool account name annotations spec =>
    exact hdone (fun _ _ => trivial) (happart (spares_createNodePool rfl))
  | createOidcConfig account name annotations body issuerID =>
    exact hdone (fun _ _ => trivial) (guards_createOidcConfig [])
  | createDNSReservation account name annotations =>
    exact hdone (fun _ _ => trivial) (guards_createDNSReservation [])
  | reconcile c ns name =>
    refine hdone (fun _ _ => trivial) ?_
    cases c with
    | cluster => exact guards_reconcileCluster rfl
    | nodePool => exact happart (spares_reconcileNodePool trivial rfl rfl)
    | placement => exact happart (spares_reconcilePlacement rfl rfl)
    | oidcConfig => exact guards_reconcileOidcConfig rfl
    | dnsReservation => exact guards_reconcileReservation rfl
  | register ns name =>
    exact ⟨Protocol.follows_within (within_write rfl rfl), fun _ _ => trivial⟩
  | report k s | observe k content | restart => exact ⟨trivial, fun _ _ => trivial⟩

lemma follows_resources {p : Params} (t : Task) :
    (t.code p).Guards Any (resources p.operator t).Follows Done [] :=
  (guards_resources t).post fun _ _ _ => trivial

end Seaplane.Fleet
