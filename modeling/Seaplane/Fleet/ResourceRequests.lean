import Seaplane.Fleet.Resources

/-!
Requests follow the protocol of the resources, and a Cluster whose creation succeeds has claimed
what it refers to.
-/

namespace Seaplane.Fleet

open Lib Kube Api

def Settled (tr : List Event) (kind : Kind) (uid clusterUID : Uid) : Prop :=
  uid ≠ "" → Claimed tr kind uid clusterUID

/-- A create that succeeds has stored a Cluster and claimed what it refers to. -/
def ClaimsAll (tr : List Event) (account name : String) (spec : ClusterSpec) : Prop :=
  ∃ cr c, Made tr account name cr c ∧ cr.spec.oidcConfigID = spec.oidcConfigID ∧
    cr.spec.dnsReservationID = spec.dnsReservationID ∧
    Settled tr .oidcConfig spec.oidcConfigID c.uid ∧
    Settled tr .dnsReservation spec.dnsReservationID c.uid

/-- A Delete of the object was answered with success. -/
def Accepted (tr : List Event) (account name : String) (served : Served) : Prop :=
  ∃ o : Object served.kind, (⟨.kube (.delete (served.key account name) o), .ok ()⟩ : Event) ∈ tr

variable {p : Operator.Params} {q : Api.Params} {t : Task} {account name : String} (tr : List Event)

lemma queue_unmanaged (n : String) : isResource (queueKey n) = false := by
  simp [isResource, claimable]

variable {uid : Uid}

lemma guards_getByUID {kind : Kind} :
    Follow p t (Api.getByUID kind account uid)
      (fun tr' r => tr <:+ tr' ∧ ∀ i, r = .ok i → LookedUp tr' i.key i.object) tr := by
  refine .call trivial fun r _ h1 => ?_
  rcases r with e | (_ | ⟨i, is⟩)
  · exact ⟨h1, nofun⟩
  · exact ⟨h1, nofun⟩
  · refine ⟨h1, ?_⟩
    rintro j ⟨⟩
    exact ⟨_, _, List.mem_cons_self, List.mem_cons_self⟩

lemma guards_authorizeAll {res : Api.Resource} (as : List Action) (tr : List Event) :
    Follow p t (authorizeAll res as)
      (fun tr' r => tr <:+ tr' ∧ ∀ x code, r = .error x → x ≠ .status code) tr := by
  induction as generalizing tr with
  | nil => exact ⟨List.suffix_refl tr, nofun⟩
  | cons a as ih =>
    refine .call trivial fun r _ h1 => ?_
    cases r with
    | allowed => exact (ih _).post fun _ _ h => ⟨h1.trans h.1, h.2⟩
    | denied | failed => exact ⟨h1, by rintro x code ⟨⟩; exact nofun⟩

/-! #### Requests -/

variable {served : Served} {patch : Patch} {annotations : StringMap}
  {reservation : Option (Item .dnsReservation)} {oidcConfig : Option (Item .oidcConfig)}

lemma guards_labelOnce : Follow p t (labelOnce account name served patch uid) Done tr := by
  refine .call trivial fun r _ _ => ?_
  split
  · trivial
  · trivial
  · next obj _ _ =>
    split
    · trivial
    refine (guards_apart spares_loadResource _).next (by rintro _ ⟨⟩ <;> trivial) fun tr1 _ h1 => ?_
    refine (guards_apart spares_authorizeResource _).next .ret fun tr2 _ h2 => ?_
    dsimp only
    split
    · trivial
    split
    · trivial
    unfold updateOwned
    split
    · refine ⟨fun _ => ⟨obj, ?_, rfl, rfl, .annotate _⟩, fun r _ => ?_⟩
      · exact known_get ((h1.trans h2).subset List.mem_cons_self)
      · simp only [Prog.ret_bind]
        split <;> trivial
    · trivial

lemma guards_deleteOidcConfig (ht : t = .request (.delete account name .oidcConfig))
    (tr : List Event) :
    Follow p t (deleteOidcConfig account name)
      (fun tr' r => r = .status 202 → Accepted tr' account name .oidcConfig) tr := by
  refine .call trivial fun r _ _ => ?_
  split
  · exact nofun
  · exact nofun
  · next oc _ _ =>
    refine (guards_authorizeAll _ _).bind fun tr1 r h1 => ?_
    split
    · next x => exact fun hx => absurd hx (h1.2 x _ rfl)
    split
    · exact nofun
    · next hfree =>
      unfold deleteOwned
      split
      · refine .call (fun _ => ⟨known_get (h1.1.subset List.mem_cons_self),
          .requested ht rfl (not_not.mp hfree)⟩) fun r _ _ => ?_
        split
        · exact fun _ => ⟨oc, List.mem_cons_self⟩
        all_goals exact nofun
      · exact nofun

lemma guards_deleteDNSReservation (ht : t = .request (.delete account name .dnsReservation))
    (tr : List Event) :
    Follow p t (deleteDNSReservation account name)
      (fun tr' r => r = .status 202 → Accepted tr' account name .dnsReservation) tr := by
  have honce : ∀ tr, Follow p t (deleteDNSReservationOnce account name)
      (fun tr' r => (r = .ok () → Accepted tr' account name .dnsReservation) ∧
        ∀ x, r = .error (.responded x) → x ≠ .status 202) tr := by
    intro tr
    refine .call trivial fun r _ _ => ?_
    split
    · exact ⟨nofun, by rintro x ⟨⟩; exact nofun⟩
    · exact ⟨nofun, by rintro x ⟨⟩; exact nofun⟩
    · next res _ _ =>
      refine (guards_authorizeAll _ _).bind fun tr1 r h1 => ?_
      split
      · next x => exact ⟨nofun, by rintro x ⟨⟩; exact h1.2 x _ rfl⟩
      split
      · exact ⟨nofun, by rintro x ⟨⟩; exact nofun⟩
      · next hfree =>
        refine .call (fun _ => ⟨known_get (h1.1.subset List.mem_cons_self),
          .requested ht rfl (not_not.mp hfree)⟩) fun r _ _ => ?_
        split
        · exact ⟨fun _ => ⟨res, List.mem_cons_self⟩, by rintro x ⟨⟩⟩
        · exact ⟨nofun, by rintro x ⟨⟩⟩
        · exact ⟨nofun, by rintro x ⟨⟩; exact nofun⟩
        · exact ⟨nofun, by rintro x ⟨⟩; exact nofun⟩
  refine (guards_attempts honce _ tr).bind fun tr1 r h1 => ?_
  split
  · exact fun _ => h1.1 rfl
  · next x => exact fun hx => absurd hx (h1.2 x rfl)
  · exact nofun

/-- A Delete of a claimable object that is accepted was answered with success by the store. -/
def AcceptsDelete (r : Request) (tr : List Event) (x : Response) : Prop :=
  match r with
  | .delete account name served =>
    claimable served.kind → x = .status 202 → Accepted tr account name served
  | _ => True

lemma guards_request (r : Request) (tr : List Event) :
    (r.code q).Guards Any (resources p (.request r)).Follows (AcceptsDelete r) tr := by
  have hapart : ∀ {m : FleetProg Response}, Spares Apart m →
      m.Guards Any (resources p (.request r)).Follows Done tr :=
    fun hm => (guards_apart hm tr).post fun _ _ _ => trivial
  have hdone : ∀ {m : FleetProg Response}, (∀ tr' x, AcceptsDelete r tr' x) →
      m.Guards Any (resources p (.request r)).Follows Done tr →
        m.Guards Any (resources p (.request r)).Follows (AcceptsDelete r) tr :=
    fun ha hm => hm.post fun tr' x _ => ha tr' x
  cases r with
  | updateCluster account name spec =>
    exact hdone (fun _ _ => trivial) (hapart (spares_updateCluster queue_unmanaged rfl))
  | updateNodePool account name spec =>
    exact hdone (fun _ _ => trivial) (hapart (spares_updateNodePool rfl))
  | label account name served patch =>
    exact hdone (fun _ _ => trivial) (guards_resourceLabels tr fun tr => guards_labelOnce tr)
  | delete account name served =>
    cases served with
    | cluster => exact hdone (fun _ _ => nofun) (hapart (spares_deleteCluster rfl))
    | nodePool => exact hdone (fun _ _ => nofun) (hapart (spares_deleteNodePool rfl))
    | oidcConfig =>
      exact (guards_deleteOidcConfig rfl tr).post fun _ _ h _ => h
    | dnsReservation =>
      exact (guards_deleteDNSReservation rfl tr).post fun _ _ h _ => h

/-! #### The creation of a Cluster -/

section Claim

variable {c : Claimable} {uid clusterUID : Uid} {tr : List Event}

/-- The task may set the claim on what has the UID, is ready and is not claimed. -/
def MayClaim (t : Task) (c : Claimable) (account : String) (uid clusterUID : Uid)
    (tr : List Event) : Prop :=
  ∀ tr' (i : Item c.kind), tr <:+ tr' → LookedUp tr' i.key i.object →
    i.ns = accountNamespace account → i.object.uid = uid → claimOf i.object = "" →
    c.ready i.object → UpdatesResource t tr' i.key i.object
      { i.object with labels := i.object.labels.set claimedByClusterUIDLabel clusterUID }

lemma guards_claimOnce (hc : MayClaim t c account uid clusterUID tr) {tr1 : List Event}
    (h1 : tr <:+ tr1) :
    Follow p t (claimOnce c account uid clusterUID)
      (fun tr' r => tr <:+ tr' ∧ (r = .ok none → Claimed tr' c.kind uid clusterUID)) tr1 := by
  refine (guards_getByUID tr1).bind fun tr2 r hr => ?_
  have h2 := h1.trans hr.1
  split
  · exact ⟨h2, nofun⟩
  · exact ⟨h2, nofun⟩
  next i =>
  have hk := hr.2 i rfl
  dsimp only
  split
  · exact ⟨h2, nofun⟩
  · next hu =>
    split
    · next hclaimed =>
      exact ⟨h2, fun _ => ⟨i.key, i.object, rfl, not_not.mp hu, hclaimed, .inl hk.known⟩⟩
    · split
      · exact ⟨h2, nofun⟩
      · next hfree =>
        split
        · exact ⟨h2, nofun⟩
        · next hready =>
          unfold updateOwned
          split
          · next hv =>
            have hns : i.ns = accountNamespace account := by
              simp only [validateOwnedSnapshot, Bool.and_eq_true, beq_iff_eq] at hv
              exact hv.1.1.2
            refine ⟨fun _ => ⟨i.object, hk.known, rfl, rfl, ?_⟩, fun r _ => ?_⟩
            · exact hc _ i h2 hk hns (not_not.mp hu) (not_not.mp hfree) (by simpa using hready)
            · cases r with
              | error => exact ⟨h2.trans (List.suffix_cons _ _), nofun⟩
              | ok o =>
                refine ⟨h2.trans (List.suffix_cons _ _),
                  fun _ => ⟨i.key, _, rfl, ?_, ?_, .inr ⟨o, List.mem_cons_self⟩⟩⟩
                · exact not_not.mp hu
                · exact StringMap.value_set _ _ _
          · exact ⟨h2, nofun⟩

lemma guards_claimResource (hc : MayClaim t c account uid clusterUID tr) :
    Follow p t (claimResource c account uid clusterUID)
      (fun tr' r => tr <:+ tr' ∧ (r = none → Claimed tr' c.kind uid clusterUID)) tr := by
  refine (guards_retries (fun tr1 h1 => guards_claimOnce hc h1) _).bind fun tr1 r h1 => ?_
  cases r with
  | error => exact ⟨h1.1, nofun⟩
  | ok r => exact ⟨h1.1, fun hr => h1.2 (congrArg _ hr)⟩

lemma guards_claimReference {i : Option (Item c.kind)} (hi : ∀ j, i = some j → j.object.uid = uid)
    (hn : i = none → uid = "") (hc : MayClaim t c account uid clusterUID tr) :
    Follow p t (claimReference c account clusterUID i)
      (fun tr' r => tr <:+ tr' ∧ (r = none → Settled tr' c.kind uid clusterUID)) tr := by
  cases i with
  | none => exact ⟨List.suffix_refl tr, fun _ h => absurd (hn rfl) h⟩
  | some j =>
    obtain rfl := hi j rfl
    exact (guards_claimResource hc).post fun _ _ h => ⟨h.1, fun hr _ => h.2 hr⟩

end Claim

lemma guards_markUsed :
    Follow p t (updateOidcConfigLastUsedTimestamp account uid) (fun tr' _ => tr <:+ tr') tr := by
  refine .call trivial fun time _ h1 => ?_
  refine (guards_getByUID _).bind fun tr2 r hr => ?_
  have h2 := h1.trans hr.1
  split
  · exact h2
  · next i =>
    refine ⟨fun _ => ⟨i.object, (hr.2 i rfl).known, rfl, rfl, .used (some time)⟩, fun r _ => ?_⟩
    exact h2.trans (List.suffix_cons _ _)

lemma guards_completeClusterCreate {spec : ClusterSpec} {cr c : Object .cluster} {tr : List Event}
    (ht : t = .createCluster account name annotations spec) (hm : Made tr account name cr c)
    (hd : ∀ i, reservation = some i → i.object.uid = cr.spec.dnsReservationID)
    (hd' : reservation = none → cr.spec.dnsReservationID = "")
    (ho : ∀ i, oidcConfig = some i → i.object.uid = cr.spec.oidcConfigID)
    (ho' : oidcConfig = none → cr.spec.oidcConfigID = "") :
    Follow p t (completeClusterCreate q account name c reservation oidcConfig)
      (fun tr' r => tr <:+ tr' ∧ (r = none →
        Settled tr' .oidcConfig cr.spec.oidcConfigID c.uid ∧
          Settled tr' .dnsReservation cr.spec.dnsReservationID c.uid)) tr := by
  have hgive : ∀ e tr1, tr <:+ tr1 →
      Follow p t (completeClusterCreate.giveUp account name c e)
        (fun tr' r => tr <:+ tr' ∧ (r = none →
          Settled tr' .oidcConfig cr.spec.oidcConfigID c.uid ∧
            Settled tr' .dnsReservation cr.spec.dnsReservationID c.uid)) tr1 := fun e tr1 h1 =>
    (guards_apart (spares_deleteClusterForCleanup rfl) tr1).bind fun tr2 _ h2 =>
      ⟨h1.trans h2, nofun⟩
  refine (guards_apart (spares_setManagedIssuerURL rfl) tr).bind fun tr1 r h1 => ?_
  have hm1 : ∀ {tr'}, tr1 <:+ tr' → Made tr' account name cr c :=
    fun h => (h1.trans h).subset hm
  split
  · exact hgive _ _ h1
  have hdns : MayClaim t claimableDNSReservation account cr.spec.dnsReservationID c.uid tr1 := by
    intro tr' i h hl hns hu hf hr
    simp only [claimableDNSReservation, dnsReservationReady, Bool.and_eq_true,
      Bool.not_eq_true'] at hr
    exact .claim ht (hm1 h) hns hl (.inr ⟨rfl, hu, hr.1.1.1⟩) hf
  refine (guards_claimReference hd hd' hdns).bind fun tr2 r h2 => ?_
  split
  · exact hgive _ _ (h1.trans h2.1)
  have hoidc : MayClaim t claimableOidcConfig account cr.spec.oidcConfigID c.uid tr2 :=
    fun tr' i h hl hns hu hf _ => .claim ht (hm1 (h2.1.trans h)) hns hl (.inl ⟨rfl, hu⟩) hf
  refine (guards_claimReference ho ho' hoidc).bind fun tr3 r h3 => ?_
  have h13 := h1.trans (h2.1.trans h3.1)
  split
  · exact hgive _ _ h13
  have hused : Follow p t (completeClusterCreate.markUsed account oidcConfig)
      (fun tr' _ => tr3 <:+ tr') tr3 := by
    unfold completeClusterCreate.markUsed
    split
    · exact List.suffix_refl _
    · exact guards_markUsed _
  refine hused.bind fun tr4 _ h4 => ⟨trivial, fun r _ => ?_⟩
  have h5 := h4.trans (List.suffix_cons (⟨.kube (.get (Api.clusterKey account name)), r⟩ : Event) _)
  refine ⟨h13.trans h5, fun _ => ⟨fun hne => ?_, fun hne => ?_⟩⟩
  · exact (h3.2 rfl hne).mono h5.subset
  · exact (h2.2 rfl hne).mono (h3.1.trans h5).subset

lemma guards_storeCluster (spec : ClusterSpec) (cr : Object .cluster)
    (ht : t = .createCluster account name annotations spec)
    (hd : ∀ i, reservation = some i → i.object.uid = cr.spec.dnsReservationID)
    (hd' : reservation = none → cr.spec.dnsReservationID = "")
    (ho : ∀ i, oidcConfig = some i → i.object.uid = cr.spec.oidcConfigID)
    (ho' : oidcConfig = none → cr.spec.oidcConfigID = "")
    (hspec : cr.spec.oidcConfigID = spec.oidcConfigID ∧
      cr.spec.dnsReservationID = spec.dnsReservationID) (tr : List Event) :
    Follow p t (storeCluster q account name cr reservation oidcConfig)
      (fun tr' r => r = .status 201 → ClaimsAll tr' account name spec) tr := by
  have hrelease : ∀ {created e tr1}, Follow p t (do
        releaseRequestedQueue q account name cr.spec created
        return Response.error e : FleetProg Response)
      (fun tr' r => r = .status 201 → ClaimsAll tr' account name spec) tr1 :=
    (guards_apart (spares_releaseRequestedQueue queue_unmanaged) _).bind fun _ _ _ => nofun
  refine (guards_apart (spares_claimRequestedQueue queue_unmanaged) tr).bind fun tr1 r _ => ?_
  split
  · exact nofun
  split
  · exact hrelease
  refine ⟨Protocol.follows_within (within_write rfl rfl), fun r _ => ?_⟩
  cases r with
  | error e => exact hrelease
  | ok c =>
    refine (guards_completeClusterCreate ht List.mem_cons_self hd hd' ho ho').bind
      fun tr2 r h2 => ?_
    split
    · exact hrelease
    refine fun _ => ⟨cr, c, h2.1.subset List.mem_cons_self, hspec.1, hspec.2, ?_⟩
    rw [← hspec.1, ← hspec.2]
    exact h2.2 rfl

lemma guards_resolve {c : Claimable} :
    Follow p t (resolve c account uid)
      (fun _ r => ∀ i, r = .ok i → (∀ j, i = some j → j.object.uid = uid) ∧ (i = none → uid = ""))
      tr := by
  unfold resolve
  split
  · next hu =>
    rintro i ⟨⟩
    exact ⟨nofun, fun _ => hu⟩
  · refine (guards_apart spares_getByUID tr).bind fun tr1 r _ => ?_
    split
    · exact nofun
    · exact nofun
    split
    · exact nofun
    · next hu =>
      split
      · exact nofun
      split
      · exact nofun
      rintro i ⟨⟩
      refine ⟨?_, nofun⟩
      rintro j ⟨⟩
      exact not_not.mp hu

lemma guards_authorizeReferences :
    Follow p t (authorizeReferences account reservation oidcConfig)
      (fun _ r => ∀ x, r = .error x → x ≠ .status 201) tr := by
  have href : ∀ o tr, Follow p t (authorizeReferences.reference o)
      (fun _ r => ∀ x, r = .error x → x ≠ .status 201) tr := by
    intro o tr
    cases o with
    | none => exact nofun
    | some ar =>
      exact (guards_authorizeAll _ tr).post fun _ _ h x hx => h.2 x 201 hx
  refine (href _ tr).bind fun tr1 r h1 => ?_
  cases r with
  | error x => exact h1
  | ok => exact href _ tr1

lemma guards_createCluster {spec : ClusterSpec} :
    (createCluster q account name annotations spec).Guards Any
      (resources p (.createCluster account name annotations spec)).Follows
      (fun tr' r => r = .status 201 → ClaimsAll tr' account name spec) tr := by
  unfold createCluster
  split
  · exact nofun
  refine (guards_authorizeAll _ tr).bind fun tr1 r h1 => ?_
  split
  · exact fun hx => absurd hx (h1.2 _ _ rfl)
  refine (guards_resolve tr1).bind fun tr2 r h2 => ?_
  split
  · exact nofun
  · next reservation =>
    obtain ⟨hd, hd'⟩ := h2 _ rfl
    refine (guards_resolve tr2).bind fun tr3 r h3 => ?_
    split
    · exact nofun
    · next oidcConfig =>
      obtain ⟨ho, ho'⟩ := h3 _ rfl
      refine (guards_authorizeReferences tr3).bind fun tr4 r h4 => ?_
      split
      · exact fun hx => absurd hx (h4 _ rfl)
      refine (guards_apart spares_checkRequestedQueue tr4).bind fun tr5 r _ => ?_
      split
      · exact nofun
      refine (guards_apart spares_defaultExpiration tr5).bind fun tr6 e _ => ?_
      exact guards_storeCluster spec
        (newCluster account name annotations spec e reservation oidcConfig)
        rfl hd hd' ho ho' ⟨rfl, rfl⟩ tr6

/-! #### The creation of OidcConfigs and DNSReservations -/

lemma guards_createOidcConfig {body : OidcConfigBody} {issuerID : String} :
    (createOidcConfig q account name annotations body issuerID).Guards Any
      (resources p (.createOidcConfig account name annotations body issuerID)).Follows Done tr := by
  unfold createOidcConfig
  split
  · trivial
  split
  · trivial
  · next hvalid =>
    split
    · trivial
    split
    · trivial
    refine (guards_apart spares_authorizeResource tr).next .ret fun tr1 _ _ => ?_
    refine .call trivial fun r _ _ => ?_
    split
    · trivial
    unfold storeOidcConfig
    split
    · trivial
    refine ⟨fun _ => ?_, fun r _ => ?_⟩
    · exact .config rfl (by simpa using hvalid) rfl rfl rfl rfl
    · simp only [Prog.ret_bind]
      split <;> trivial

lemma guards_createDNSReservation :
    (createDNSReservation q account name annotations).Guards Any
      (resources p (.createDNSReservation account name annotations)).Follows Done tr := by
  unfold createDNSReservation
  split
  · trivial
  split
  · trivial
  split
  · trivial
  refine (guards_apart spares_authorizeResource tr).bind fun tr1 r _ => ?_
  split
  · trivial
  unfold storeDNSReservation
  split
  · trivial
  refine .call (fun _ => .reservation rfl rfl rfl) fun r _ _ => ?_
  split <;> trivial


end Seaplane.Fleet
