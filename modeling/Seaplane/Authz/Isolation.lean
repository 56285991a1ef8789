import Seaplane.Authz.Authorizer

/-!
Accounts do not influence each other's authorization.

Two states of the store, or two bundles that load, may differ in everything that belongs to other
accounts: what is prepared for a caller is the same, and so is every decision. Of a decision's
provenance only the hash of the bundle file differs.
-/

namespace Seaplane.Authz

open Lib Lib.Prog Lib.Fallible

variable {Policy : Type} {engine : Engine Policy}

/-! ### What is prepared, up to the hash of the bundle -/

def Provenance.forget (p : Provenance) : Provenance := { p with bundleHash := "" }

def PolicyAttachment.forget (b : PolicyAttachment Policy) : PolicyAttachment Policy :=
  { b with bundleHash := "" }

/-- Two selections that differ at most in the hash of the bundle. -/
structure Selected.Alike (s s' : Selected Policy) : Prop where
  policies : s.policies = s'.policies
  entities : s.entities = s'.entities
  parents : s.parents = s'.parents
  provenance : ∀ id, (s.provenance.lookup id).map Provenance.forget =
    (s'.provenance.lookup id).map Provenance.forget

/-- Two prepared requests that differ at most in the hash of the bundle. -/
structure Prepared.Alike (p p' : Prepared Policy) : Prop where
  identity : p.identity = p'.identity
  region : p.region = p'.region
  principal : p.principal = p'.principal
  entities : p.entities = p'.entities
  policies : p.policies = p'.policies
  requestContext : p.requestContext = p'.requestContext
  provenance : ∀ id, (p.provenance.lookup id).map Provenance.forget =
    (p'.provenance.lookup id).map Provenance.forget

lemma lookup_insert_forget {id : String} {m m' : Finmap fun _ : String => Provenance}
    {v v' : Provenance} (hm : (m.lookup id).map Provenance.forget =
      (m'.lookup id).map Provenance.forget) (hv : v.forget = v'.forget) (key : String) :
    ((m.insert key v).lookup id).map Provenance.forget =
      ((m'.insert key v').lookup id).map Provenance.forget := by
  by_cases h : id = key
  · subst h
    rw [Finmap.lookup_insert, Finmap.lookup_insert, Option.map_some, Option.map_some, hv]
  · rw [Finmap.lookup_insert_of_ne _ h, Finmap.lookup_insert_of_ne _ h, hm]

variable {account bundleHash region hash hash' : String} {s s' : Selected Policy}
  {b b' : ConfigBundle} {policies policies' : CompiledPolicies Policy} {a a' : Authorizer Policy}
  {caller : Principal} {id : Identity} {p p' : Prepared Policy} {d d' : Tables}
  {cedar : Cedar Policy} {cfg : StoreConfig}

lemma select_alike (h : s.Alike s') (b : PolicyAttachment Policy) :
    (select account s b).Alike (select account s' b.forget) := by
  have hforget : b.toProvenance.forget = b.forget.toProvenance.forget := rfl
  have hp := fun id => lookup_insert_forget (h.provenance id) hforget b.diagnosticID
  by_cases hk : b.principal.kind = .role
  · have hk' : b.forget.principal.kind = .role := hk
    simp only [select, hk, hk', if_true]
    exact ⟨by rw [h.policies]; rfl, by rw [h.entities]; rfl, by rw [h.parents]; rfl, hp⟩
  · have hk' : ¬b.forget.principal.kind = .role := hk
    simp only [select, hk, hk', if_false]
    exact ⟨by rw [h.policies]; rfl, h.entities, h.parents, hp⟩

lemma selectAll_alike (account : String) (l : List (PolicyAttachment Policy)) (h : s.Alike s') :
    (l.foldl (select account) s).Alike
      ((l.map PolicyAttachment.forget).foldl (select account) s') := by
  induction l generalizing s s' with
  | nil => exact h
  | cons b l ih => exact ih (select_alike h b)

lemma insert_entity_comm (f : EntityUID → Entity) (m : EntityMap) (u v : EntityUID) :
    (m.insert u (f u)).insert v (f v) = (m.insert v (f v)).insert u (f u) := by
  by_cases h : u = v
  · subst h; rfl
  · exact Finmap.insert_insert_of_ne m h

lemma select_comm (s : Selected Policy) {b b' : PolicyAttachment Policy}
    (h : b.diagnosticID ≠ b'.diagnosticID) :
    select account (select account s b) b' = select account (select account s b') b := by
  have hpol : (s.policies.insert b.diagnosticID b.policy).insert b'.diagnosticID b'.policy = _ :=
    Finmap.insert_insert_of_ne s.policies h
  have hprov : (s.provenance.insert b.diagnosticID b.toProvenance).insert b'.diagnosticID
      b'.toProvenance = _ := Finmap.insert_insert_of_ne s.provenance h
  have hent := insert_entity_comm
    (fun u => { uid := u, attributes := accountAttrs account }) s.entities
    (entityUID "Role" b.principal.original) (entityUID "Role" b'.principal.original)
  have hpar := Finset.insert_comm (entityUID "Role" b'.principal.original)
    (entityUID "Role" b.principal.original) s.parents
  by_cases h1 : b.principal.kind = .role <;> by_cases h2 : b'.principal.kind = .role <;>
    simp only [select, h1, h2, if_true, if_false, hpol, hprov, hent, hpar]

lemma selectAll_perm {l l' : List (PolicyAttachment Policy)} (h : l.Perm l')
    (hn : (l.map (·.diagnosticID)).Nodup) (s : Selected Policy) :
    l.foldl (select account) s = l'.foldl (select account) s := by
  refine h.foldl_eq' (fun b hb b' hb' z => ?_) s
  by_cases he : b = b'
  · rw [he]
  · exact select_comm z fun hid => he (List.inj_on_of_nodup_map hn hb hb' hid)

/-! ### Bundles -/

/-- The record attaches a policy to a principal of the account. -/
def AttachmentRecord.AttachedTo (account : String) (r : AttachmentRecord) : Prop :=
  ∃ p, parsePrincipal r.principalARN = .ok p ∧ p.account = account

/-- The policies and attachments of an account are the same in both bundles. -/
structure SameRecords (account : String) (b b' : ConfigBundle) : Prop where
  policies : ∀ r : PolicyRecord, r.ownerAccountID = account → (r ∈ b.policies ↔ r ∈ b'.policies)
  attachments : ∀ r : AttachmentRecord, r.AttachedTo account →
    (r ∈ b.attachments ↔ r ∈ b'.attachments)

lemma SameRecords.symm (h : SameRecords account b b') : SameRecords account b' b :=
  ⟨fun r hr => (h.policies r hr).symm, fun r hr => (h.attachments r hr).symm⟩

lemma compiled_spec {records : List PolicyRecord}
    (h : records.foldlM (addCompiled engine bundleHash) ∅ = .ok policies) (id : String)
    (c : CompiledPolicy Policy) :
    policies.lookup id = some c ↔ ∃ r ∈ records, r.id = id ∧ c.owner = r.ownerAccountID ∧
      engine.checkedPolicy r.content r.id = .ok c.policy := by
  refine except_foldlM_inv (fun pre policies => ∀ id c, policies.lookup id = some c ↔
    ∃ r ∈ pre, r.id = id ∧ c.owner = r.ownerAccountID ∧
      engine.checkedPolicy r.content r.id = .ok c.policy) (by simp) ?_ h id c
  intro pre r policies policies' ih h id c
  obtain ⟨-, h⟩ := except_unless_ok h
  obtain ⟨hnew, h⟩ := except_unless_ok h
  obtain ⟨compiled, hc, h⟩ := except_bind_ok h
  cases h
  have hc := except_mapError_ok hc
  by_cases hid : id = r.id
  · subst hid
    rw [AList.lookup_insert]
    constructor
    · intro hl
      cases hl
      exact ⟨r, by simp, rfl, rfl, hc⟩
    · rintro ⟨r', hr', hid', howner, hc'⟩
      rcases List.mem_append.mp hr' with hr' | hr'
      · -- an earlier record with this ID would have been a duplicate
        have := (ih r.id c).mpr ⟨r', hr', hid', howner, hc'⟩
        exact absurd (AList.lookup_isSome.mp (by rw [this]; rfl)) hnew
      · obtain rfl := List.mem_singleton.mp hr'
        rw [hc] at hc'
        obtain ⟨owner, policy⟩ := c
        cases hc'
        cases howner
        rfl
  · rw [AList.lookup_insert_ne hid, ih]
    constructor
    · rintro ⟨r', hr', h'⟩
      exact ⟨r', List.mem_append_left _ hr', h'⟩
    · rintro ⟨r', hr', hid', h'⟩
      rcases List.mem_append.mp hr' with hr' | hr'
      · exact ⟨r', hr', hid', h'⟩
      · obtain rfl := List.mem_singleton.mp hr'
        exact absurd hid'.symm hid

def AttachmentRecord.bound (bundleHash : String) (r : AttachmentRecord) (p : Principal)
    (policy : Policy) : PolicyAttachment Policy :=
  { attachmentProvenance bundleHash r with
    policy := policy, principal := p, scope := r.scope, region := r.region }

lemma diagnosticID_inj {id id' : String} (h : "attachment/" ++ id = "attachment/" ++ id') :
    id = id' := by
  have hl := congrArg String.toList h
  simp only [String.toList_append, List.append_cancel_left_eq] at hl
  exact String.toList_injective hl

lemma bound_spec {records : List AttachmentRecord} {acc : Bound Policy}
    (h : records.foldlM (addAttachment bundleHash policies) {} = .ok acc) :
    (∀ b, b ∈ acc.customer ↔ ∃ r ∈ records, ∃ p policy,
        ownPolicy policies r = .ok (p, policy) ∧ b = r.bound bundleHash p policy) ∧
      (acc.customer.map (·.diagnosticID)).Nodup := by
  have hinv := except_foldlM_inv (fun (pre : List AttachmentRecord) (acc : Bound Policy) =>
    acc.customer.map (·.diagnosticID) = pre.map (fun r => "attachment/" ++ r.id) ∧
      acc.ids = (pre.map (·.id)).reverse ∧ acc.ids.Nodup ∧
      ∀ b, b ∈ acc.customer ↔ ∃ r ∈ pre, ∃ p policy,
        ownPolicy policies r = .ok (p, policy) ∧ b = r.bound bundleHash p policy)
    ⟨rfl, rfl, List.nodup_nil, by simp⟩ ?_ h
  · obtain ⟨hdiag, hids, hnodup, hmem⟩ := hinv
    refine ⟨hmem, ?_⟩
    rw [hids, List.nodup_reverse] at hnodup
    have hcomp : records.map (fun r => "attachment/" ++ r.id) =
        (records.map (·.id)).map ("attachment/" ++ ·) := by
      rw [List.map_map]
      rfl
    rw [hdiag, hcomp]
    exact hnodup.map fun _ _ => diagnosticID_inj
  · rintro pre r acc acc' ⟨hdiag, hids, hnodup, hmem⟩ h
    obtain ⟨-, h⟩ := except_unless_ok (except_mapError_ok h)
    obtain ⟨hnew, h⟩ := except_unless_ok h
    obtain ⟨⟨p, policy⟩, hown, h⟩ := except_bind_ok h
    obtain ⟨-, -, h⟩ := except_bind_ok h
    obtain ⟨aliases, -, h⟩ := except_bind_ok h
    cases h
    refine ⟨by simp [hdiag, attachmentProvenance], by simp [hids],
      List.nodup_cons.mpr ⟨hnew, hnodup⟩, fun b => ?_⟩
    simp only [List.mem_append, hmem, List.mem_singleton, or_and_right, exists_or,
      exists_eq_left, hown, Except.ok.injEq, Prod.mk.injEq]
    refine or_congr_right ⟨fun h => ⟨p, policy, ⟨rfl, rfl⟩, h⟩, ?_⟩
    rintro ⟨_, _, ⟨rfl, rfl⟩, h⟩
    exact h

structure Loaded (engine : Engine Policy) (bundleHash region : String) (b : ConfigBundle)
    (a : Authorizer Policy) (policies : CompiledPolicies Policy) : Prop where
  served : a.region = region
  allowlist : ∃ p, engine.checkedPolicy "permit(principal, action, resource);" "allowlist" = .ok p ∧
    a.allowlist = some p
  compiled : ∀ id c, policies.lookup id = some c ↔ ∃ r ∈ b.policies, r.id = id ∧
    c.owner = r.ownerAccountID ∧ engine.checkedPolicy r.content r.id = .ok c.policy
  customer : ∀ c, c ∈ a.customer ↔ ∃ r ∈ b.attachments, ∃ p policy,
    ownPolicy policies r = .ok (p, policy) ∧ c = r.bound bundleHash p policy
  nodup : (a.customer.map (·.diagnosticID)).Nodup

lemma loadBundle_spec (h : loadBundle engine bundleHash region b = .ok a) :
    ∃ policies, Loaded engine bundleHash region b a policies := by
  obtain ⟨-, h⟩ := except_unless_ok h
  obtain ⟨allowlist, hallow, h⟩ := except_bind_ok h
  obtain ⟨accounts, -, h⟩ := except_bind_ok h
  obtain ⟨policies, hpol, h⟩ := except_bind_ok h
  obtain ⟨bound, hbound, h⟩ := except_bind_ok h
  cases h
  exact ⟨policies, rfl, ⟨allowlist, except_mapError_ok hallow, rfl⟩, compiled_spec hpol,
    (bound_spec hbound).1, (bound_spec hbound).2⟩

lemma ownPolicy_iff {r : AttachmentRecord} {p : Principal} {policy : Policy} :
    ownPolicy policies r = .ok (p, policy) ↔
      parsePrincipal r.principalARN = .ok p ∧
        policies.lookup r.policyID = some ⟨p.account, policy⟩ := by
  constructor
  · intro h
    simp only [ownPolicy] at h
    split at h
    · cases h
    · rename_i c hc
      obtain ⟨q, hq, h⟩ := except_bind_ok h
      obtain ⟨howner, h⟩ := except_unless_ok h
      cases h
      simp only [bne_iff_ne, ne_eq, not_not] at howner
      rw [howner]
      exact ⟨hq, hc⟩
  · rintro ⟨hp, hl⟩
    simp only [ownPolicy, hl, hp]
    simp [Bind.bind, Except.bind, Pure.pure, Except.pure]

lemma matchesPrincipal_account {v w : String} {target : Principal}
    (ht : parsePrincipal v = .ok target) (hc : parsePrincipal w = .ok caller)
    (h : matchesPrincipal target caller) : target.account = caller.account := by
  simp only [matchesPrincipal, Bool.or_eq_true, Bool.and_eq_true, beq_iff_eq] at h
  rcases h with h | ⟨-, h⟩
  · rw [parsePrincipal_inj ht hc h]
  · exact (roleAlias_inj (valid_of_parse ht) (valid_of_parse hc) h).1

lemma Selected.Alike.trans {t u : Selected Policy} (h : s.Alike t) (h' : t.Alike u) : s.Alike u :=
  ⟨h.policies.trans h'.policies, h.entities.trans h'.entities, h.parents.trans h'.parents,
    fun id => (h.provenance id).trans (h'.provenance id)⟩

lemma Selected.Alike.symm {t : Selected Policy} (h : s.Alike t) : t.Alike s :=
  ⟨h.policies.symm, h.entities.symm, h.parents.symm, fun id => (h.provenance id).symm⟩

lemma addAllowlist_alike (h : a.allowlist = a'.allowlist) (id : Identity) (hs : s.Alike s') :
    (addAllowlist a id s).Alike (addAllowlist a' id s') := by
  unfold addAllowlist
  rw [h]
  split
  · refine ⟨by rw [hs.policies], hs.entities, hs.parents, fun key => ?_⟩
    dsimp only
    exact lookup_insert_forget (hs.provenance key) (by rfl) _
  · exact hs

section

variable (h : Loaded engine hash region b a policies)
  (h' : Loaded engine hash' region b' a' policies')
include h h'

/-- Every attachment that applies to a caller of the account is, up to the hash, also one of the
other bundle. -/
lemma applicable_forget {arn : String} (hc : parsePrincipal arn = .ok caller)
    (hs : SameRecords caller.account b b') {c : PolicyAttachment Policy}
    (hmem : c ∈ (applicable region caller a.customer).map PolicyAttachment.forget) :
    c ∈ (applicable region caller a'.customer).map PolicyAttachment.forget := by
  obtain ⟨c0, hc0, rfl⟩ := List.mem_map.mp hmem
  obtain ⟨hcust, happ⟩ := List.mem_filter.mp hc0
  obtain ⟨r, hr, p, policy, hown, rfl⟩ := (h.customer c0).mp hcust
  obtain ⟨hp, hl⟩ := ownPolicy_iff.mp hown
  have hmatch : matchesPrincipal p caller := (Bool.and_eq_true_iff.mp happ).1
  have hacc := matchesPrincipal_account hp hc hmatch
  obtain ⟨pr, hpr, hid, howner, hcheck⟩ := (h.compiled _ _).mp hl
  have hpr' : pr ∈ b'.policies := (hs.policies pr (howner.symm.trans hacc)).mp hpr
  have hr' : r ∈ b'.attachments := (hs.attachments r ⟨p, hp, hacc⟩).mp hr
  have hl' := (h'.compiled r.policyID ⟨p.account, policy⟩).mpr ⟨pr, hpr', hid, howner, hcheck⟩
  refine List.mem_map.mpr ⟨r.bound hash' p policy, List.mem_filter.mpr ⟨?_, happ⟩, rfl⟩
  exact (h'.customer _).mpr ⟨r, hr', p, policy, ownPolicy_iff.mpr ⟨hp, hl'⟩, rfl⟩

omit h' in
lemma applicable_nodup (caller : Principal) :
    (((applicable region caller a.customer).map PolicyAttachment.forget).map
      (·.diagnosticID)).Nodup := by
  rw [List.map_map]
  exact h.nodup.sublist ((List.filter_sublist).map _)

lemma applicable_perm {arn : String} (hc : parsePrincipal arn = .ok caller)
    (hs : SameRecords caller.account b b') :
    ((applicable region caller a.customer).map PolicyAttachment.forget).Perm
      ((applicable region caller a'.customer).map PolicyAttachment.forget) := by
  rw [List.perm_ext_iff_of_nodup (applicable_nodup h caller).of_map
    (applicable_nodup h' caller).of_map]
  intro c
  exact ⟨applicable_forget h h' hc hs, applicable_forget h' h hc hs.symm⟩

lemma selection_alike (hc : parsePrincipal id.callerARN = .ok caller)
    (hs : SameRecords caller.account b b') (req : RequestContext) :
    (selection engine a id caller req).Alike (selection engine a' id caller req) := by
  have hrefl : ∀ s : Selected Policy, s.Alike s := fun s => ⟨rfl, rfl, rfl, fun _ => rfl⟩
  have h1 := selectAll_alike id.accountID (applicable region caller a.customer)
    (hrefl { entities := baseEntities engine req })
  have h2 := selectAll_alike id.accountID (applicable region caller a'.customer)
    (hrefl { entities := baseEntities engine req })
  rw [selectAll_perm (applicable_perm h h' hc hs) (applicable_nodup h caller)] at h1
  have hallow : a.allowlist = a'.allowlist := by
    obtain ⟨p, hp, ha⟩ := h.allowlist
    obtain ⟨p', hp', ha'⟩ := h'.allowlist
    rw [ha, ha', Except.ok.inj (hp.symm.trans hp')]
  unfold selection
  rw [h.served, h'.served]
  exact addAllowlist_alike hallow id (h1.trans h2.symm)

end

lemma prepare_alike (hl : loadBundle engine hash region b = .ok a)
    (hl' : loadBundle engine hash' region b' = .ok a') (hs : SameRecords id.accountID b b')
    (ctx : Ctx) (req : RequestContext) :
    SameOutcome Prepared.Alike (a.prepare engine ctx id req) (a'.prepare engine ctx id req) := by
  obtain ⟨policies, h⟩ := loadBundle_spec hl
  obtain ⟨policies', h'⟩ := loadBundle_spec hl'
  refine sameOutcome_bind fun _ _ => ?_
  refine sameOutcome_bind fun caller hid => ?_
  obtain ⟨caller', hc, hid⟩ := except_bind_ok (except_mapError_ok hid)
  obtain ⟨hacc, hid⟩ := except_unless_ok hid
  cases hid
  simp only [Bool.or_eq_true, not_or, bne_iff_ne, ne_eq, not_not] at hacc
  have hsel := selection_alike h h' hc (by rw [hacc.1]; exact hs) req
  split
  · exact .error
  dsimp only
  rw [hsel.entities, hsel.parents, h.served, h'.served]
  refine sameOutcome_bind fun _ _ => ?_
  refine sameOutcome_bind fun _ _ => ?_
  exact .ok ⟨rfl, rfl, rfl, rfl, hsel.policies, rfl, hsel.provenance⟩

/-! ### Decisions -/

def Failure.forget (f : Failure) : Failure :=
  { f with provenance := f.provenance.map Provenance.forget }

def Decision.forget (d : Decision) : Decision :=
  { d with provenance := d.provenance.map Provenance.forget }

def outcome (r : Except Failure Decision) : Except Failure Decision :=
  (r.map Decision.forget).mapError Failure.forget

lemma mapProvenance_alike (h : p.Alike p') (ids : List String) :
    (p.mapProvenance ids).1.map Provenance.forget =
        (p'.mapProvenance ids).1.map Provenance.forget ∧
      (p.mapProvenance ids).2 = (p'.mapProvenance ids).2 := by
  have hsome : ∀ id, (p.provenance.lookup id).isSome = (p'.provenance.lookup id).isSome := by
    intro id
    have := congrArg Option.isSome (h.provenance id)
    rwa [Option.isSome_map, Option.isSome_map] at this
  constructor
  · simp only [Prepared.mapProvenance, List.map_filterMap, h.provenance]
  · simp only [Prepared.mapProvenance, hsome]

lemma resourceEntities_alike (h : p.Alike p') (action : Action) (resource : Resource) :
    p.resourceEntities action resource = p'.resourceEntities action resource := by
  obtain ⟨identity, region, principal, entities, policies, context, provenance⟩ := p
  obtain ⟨identity', region', principal', entities', policies', context', provenance'⟩ := p'
  obtain ⟨rfl, rfl, rfl, rfl, rfl, rfl, -⟩ := h
  rfl

lemma outcome_bind {β : Type} {e : Except Failure β} {f g : β → Except Failure Decision}
    (h : ∀ b, outcome (f b) = outcome (g b)) : outcome (e >>= f) = outcome (e >>= g) := by
  cases e with
  | ok b => exact h b
  | error e => rfl

lemma check_alike (h : p.Alike p') (ctx : Ctx) (action : Action) (resource : Resource) :
    outcome (p.check engine ctx action resource) =
      outcome (p'.check engine ctx action resource) := by
  unfold Prepared.check
  rw [resourceEntities_alike h, h.principal, h.requestContext, h.policies]
  refine outcome_bind fun _ => ?_
  refine outcome_bind fun ⟨entities, uid⟩ => ?_
  refine outcome_bind fun _ => ?_
  refine outcome_bind fun _ => ?_
  refine outcome_bind fun verdict => ?_
  obtain ⟨herr, herr'⟩ := mapProvenance_alike h verdict.errors
  obtain ⟨hreason, hreason'⟩ := mapProvenance_alike h verdict.reasons
  dsimp only
  split
  · change Except.error (Failure.forget _) = Except.error (Failure.forget _)
    simp only [Failure.forget, herr, herr']
  · refine outcome_bind fun _ => ?_
    rw [hreason']
    split
    · rfl
    · change Except.ok (Decision.forget _) = Except.ok (Decision.forget _)
      simp only [Decision.forget, hreason]

/-! ### States of the store -/

def OfAccount (account pk : String) : Prop :=
  pk = accountKey account ∨ ∃ rest, pk = accountKey account ++ "#" ++ rest

/-- The rows of an account, and the managed policies, are the same in both states. -/
structure SameAccount (account : String) (d d' : Tables) : Prop where
  policies : ∀ owner sk, owner = account ∨ owner = managedOwner →
    d.policies.lookup ⟨accountKey owner, sk⟩ = d'.policies.lookup ⟨accountKey owner, sk⟩
  attachments : ∀ table pk sk, OfAccount account pk →
    (d.attachments table).lookup ⟨pk, sk⟩ = (d'.attachments table).lookup ⟨pk, sk⟩

lemma ofAccount_lookupKeys {pk : String} (h : pk ∈ lookupKeys caller) :
    OfAccount caller.account pk := by
  have hrole : OfAccount caller.account (roleKey caller) :=
    .inr ⟨"ROLE#" ++ caller.roleAlias, by
      apply String.toList_injective
      simp [roleKey, accountKey]⟩
  have hexact : OfAccount caller.account (principalKey caller) := by
    unfold principalKey
    split
    · exact hrole
    exact .inr ⟨"EXACT#" ++ caller.original, by
      apply String.toList_injective
      simp [accountKey]⟩
  unfold lookupKeys at h
  rcases List.mem_cons.mp h with rfl | h
  · exact hexact
  · split at h
    · rw [List.mem_singleton.mp h]
      exact hrole
    · cases h

/-- The operation answers in both states alike and changes neither. -/
def Op.SameAnswer (d d' : Tables) (o : Op) : Prop :=
  ∀ x r s, Tables.exec o x d = some (r, s) → s = d ∧ Tables.exec o x d' = some (r, d')

/-- What a store that nothing disturbs does, where both states answer alike. -/
abbrev Agrees {α : Type} (d d' : Tables) (Q : α → Prop) (p : StoreM α) : Prop :=
  Fallible.Meets (fun o r => ∃ x, Tables.exec o x d = some (r, d)) (Op.SameAnswer d d') Q p

lemma agrees_check {α : Type} {e : Except AuthzError α} :
    Agrees d d' (fun a => e = .ok a) (check e) := meets_ofExcept fun _ h => h

lemma agrees_readBindings {scope : AttachmentScope} {pk : String} (hd : SameAccount account d d')
    (hpk : OfAccount account pk) :
    Agrees d d' (fun _ => True) (readBindings cedar cfg scope pk) := by
  refine meets_bind agrees_check fun table ht => ?_
  refine meets_bind (meets_op (Q := fun _ => True) ?_ fun _ _ _ _ => trivial) fun rows _ => ?_
  · intro x r s hx
    cases hx
    have hq := Rows.query_congr fun sk => hd.attachments table pk sk hpk
    exact ⟨rfl, by rw [Tables.exec, hq]⟩
  · exact meets_ofExcept fun _ _ => trivial

/-- The key of a policy that the account may use. -/
def UsableKey (account : String) (k : ItemKey) : Prop :=
  ∃ owner sk, (owner = account ∨ owner = managedOwner) ∧ k = ⟨accountKey owner, sk⟩

lemma SameAccount.policy (h : SameAccount account d d') {k : ItemKey} (hk : UsableKey account k) :
    d.policies.lookup k = d'.policies.lookup k := by
  obtain ⟨owner, sk, ho, rfl⟩ := hk
  exact h.policies owner sk ho

lemma agrees_fetchBatch {refs : List PolicyRef} (hd : SameAccount account d d') (n : ℕ)
    (pending : List ItemKey) (policies : PolicyMap) (hp : ∀ k ∈ pending, UsableKey account k) :
    Agrees d d' (fun _ => True) (fetchBatch cedar cfg refs n pending policies) := by
  induction n generalizing pending policies with
  | zero =>
    simp only [fetchBatch]
    split
    · exact meets_pure trivial
    · exact meets_throw
  | succ n ih =>
    simp only [fetchBatch]
    split
    · exact meets_pure trivial
    refine meets_when (meets_op ?_ fun _ _ _ _ => trivial) ?_
    · intro x r s hx
      cases hx
      exact ⟨rfl, rfl⟩
    refine meets_bind (meets_op (Q := fun out => ∀ k ∈ out.2, k ∈ pending) ?_ ?_) ?_
    · -- all keys that are answered are keys that were asked for
      intro x r s hx
      simp only [Tables.exec] at hx
      split at hx
      · rename_i hproc
        cases hx
        refine ⟨rfl, ?_⟩
        have hsame : x.processed.filterMap
              (fun k => (d.policies.lookup k).map fun i => (k, i)) =
            x.processed.filterMap (fun k => (d'.policies.lookup k).map fun i => (k, i)) := by
          refine List.filterMap_congr fun k hk => ?_
          rw [hd.policy (hp k (hproc.2 k hk))]
        rw [Tables.exec, if_pos hproc, hsame]
      · cases hx
    · rintro r out ⟨x, hx⟩ hr k hk
      simp only [Tables.exec] at hx
      split at hx
      · cases hx
        simp only [answer] at hr
        split at hr
        · cases hr
          exact List.mem_of_mem_filter hk
        · cases hr
      · cases hx
    · intro out hout
      refine meets_bind agrees_check fun policies _ => ?_
      exact ih _ _ fun k hk => hp k (hout k hk)

lemma policyOwner_usable {ref : PolicyRef} {owner : String} (h : policyOwner cfg ref = .ok owner) :
    owner = cfg.accountID ∨ owner = managedOwner := by
  unfold policyOwner at h
  split at h
  · cases h
  · cases hk : ref.kind with
    | custom => rw [hk] at h; cases h; exact .inl rfl
    | managed => rw [hk] at h; cases h; exact .inr rfl
    | other text => rw [hk] at h; cases h

lemma agrees_loadPolicies {bindings : List StoredAttachment} (hd : SameAccount cfg.accountID d d') :
    Agrees d d' (fun _ => True) (loadPolicies cedar cfg bindings) := by
  refine meets_foldlM (fun _ _ => True) trivial fun pre batch policies _ _ => ?_
  refine meets_bind agrees_check fun keys hkeys => ?_
  refine agrees_fetchBatch hd _ _ _ fun k hk => ?_
  obtain ⟨ref, -, href⟩ := (except_mapM_mem hkeys).mp hk
  obtain ⟨owner, howner, href⟩ := except_bind_ok href
  cases href
  exact ⟨owner, _, policyOwner_usable howner, rfl⟩

lemma agrees_resolveScopes {scopes : List AttachmentScope} (hd : SameAccount id.accountID d d') :
    Agrees d d' (fun _ => True) (resolveScopes cedar cfg id scopes) := by
  refine meets_bind agrees_check fun caller hc => ?_
  refine meets_unless fun hacc => ?_
  obtain ⟨caller', -, hc⟩ := except_bind_ok hc
  obtain ⟨hid, hc⟩ := except_unless_ok hc
  cases hc
  simp only [Bool.or_eq_true, not_or, bne_iff_ne, ne_eq, not_not] at hacc hid
  have hcfg : cfg.accountID = id.accountID := hacc.1.symm.trans hid.1
  refine meets_bind (meets_foldlM (fun _ _ => True) trivial ?_) fun g _ => ?_
  · rintro pre ⟨scope, pk⟩ g hpk -
    have hpk := ofAccount_lookupKeys (List.pair_mem_product.mp hpk).2
    rw [hid.1] at hpk
    refine meets_bind (agrees_readBindings hd hpk) fun part _ => ?_
    exact meets_ofExcept fun _ _ => trivial
  · refine meets_bind (agrees_loadPolicies (by rw [hcfg]; exact hd)) fun policies _ => ?_
    exact meets_ofExcept fun _ _ => trivial

lemma prepareScopes_same {e : Tables} (hd : SameAccount id.accountID d d') {ctx : Ctx}
    {req : RequestContext} {scopes : List AttachmentScope} {xs : List Choice}
    {r : Except PrepareError (Prepared Policy)}
    (h : Evals Tables.exec xs (prepareScopes engine cfg ctx id req scopes) d r e) :
    Evals Tables.exec xs (prepareScopes engine cfg ctx id req scopes) d' r d' := by
  obtain ⟨resolved, hres, hr⟩ := evals_bind_ret.mp h
  have hagree := hres.agree (agrees_resolveScopes hd)
  exact evals_bind_ret.mpr ⟨resolved, hagree.2, hr⟩

/-- **Accounts do not influence each other's authorization.** Two states of the store that agree on
the caller's account and on the managed policies give the same result, whatever the backend
decides. Two bundles that load and agree on the caller's account give the same error, or the same
policies and entities; and then every check decides alike. -/
theorem accounts_isolated (engine : Engine Policy) (id : Identity) (ctx : Ctx)
    (req : RequestContext) :
    (∀ cfg scopes d d', SameAccount id.accountID d d' → ∀ xs r e,
      Evals Tables.exec xs (prepareScopes engine cfg ctx id req scopes) d r e →
      Evals Tables.exec xs (prepareScopes engine cfg ctx id req scopes) d' r d') ∧
    (∀ region hash hash' b b' a a', loadBundle engine hash region b = .ok a →
      loadBundle engine hash' region b' = .ok a' → SameRecords id.accountID b b' →
      SameOutcome Prepared.Alike (a.prepare engine ctx id req) (a'.prepare engine ctx id req)) ∧
    (∀ p p' : Prepared Policy, p.Alike p' → ∀ ctx action resource,
      outcome (p.check engine ctx action resource) =
        outcome (p'.check engine ctx action resource)) := by
  refine ⟨?_, ?_, ?_⟩
  · intro cfg scopes d d' hd xs r e h
    exact prepareScopes_same hd h
  · intro region hash hash' b b' a a' hl hl' hs
    exact prepare_alike hl hl' hs ctx req
  · intro p p' h ctx action resource
    exact check_alike h ctx action resource

/-- An engine that accepts every policy and allows what some policy is there for. -/
def permissive : Engine Unit where
  uuidValidate _ := true
  bindPolicy _ _ _ := .ok ()
  checkedPolicy _ _ := .ok ()
  actions := ∅
  validateEntities _ := .ok ()
  validateRequest _ := .ok ()
  evaluate policies _ _ := .ok ⟨policies ≠ ∅, [], []⟩

def aliceBundle : ConfigBundle where
  registeredAccounts := ["111111111111"]
  policies := [⟨"p1", "111111111111", "permit(principal, action, resource);"⟩]
  attachments := [⟨"a1", "p1", "arn:aws:iam::111111111111:user/alice", .globalScope, ""⟩]

def sharedBundle : ConfigBundle where
  registeredAccounts := ["111111111111", "222222222222"]
  policies := ⟨"p2", "222222222222", "forbid(principal, action, resource);"⟩ ::
    aliceBundle.policies
  attachments := ⟨"a2", "p2", "arn:aws:iam::222222222222:user/bob", .globalScope, ""⟩ ::
    aliceBundle.attachments

lemma sharedBundle_same : SameRecords "111111111111" aliceBundle sharedBundle := by
  constructor
  · intro r hr
    have hne : r ≠ ⟨"p2", "222222222222", "forbid(principal, action, resource);"⟩ := by
      rintro rfl
      exact absurd hr (by decide)
    simp [sharedBundle, hne]
  · rintro r ⟨p, hp, hacc⟩
    have hne : r ≠ ⟨"a2", "p2", "arn:aws:iam::222222222222:user/bob", .globalScope, ""⟩ := by
      rintro rfl
      have hbob : (parsePrincipal "arn:aws:iam::222222222222:user/bob").toOption.map (·.account) =
          some "222222222222" := by decide +kernel
      rw [hp] at hbob
      simp [Except.toOption, hacc] at hbob
    simp [sharedBundle, hne]

/-- The bundle loads, with this many attachments. -/
def loadsWith (n : ℕ) (bundle : ConfigBundle) : Bool :=
  match loadBundle permissive "" "us-east-1" bundle with
  | .ok a => a.customer.length == n
  | .error _ => false

lemma exists_of_loadsWith {n : ℕ} (h : loadsWith n b = true) :
    ∃ a, loadBundle permissive "" "us-east-1" b = .ok a ∧ a.customer.length = n := by
  unfold loadsWith at h
  split at h
  · rename_i a ha
    exact ⟨a, ha, by simpa using h⟩
  · cases h

def alice : Identity := ⟨"111111111111", "arn:aws:iam::111111111111:user/alice", false⟩

/-- The account has a policy, and one of its users an attachment to it. -/
def attachUser (d : Tables) (account user : String) : Tables :=
  let arn := "arn:aws:iam::" ++ account ++ ":user/" ++ user
  let item := storeItem "r1" ⟨⟨⟨"p1", .custom⟩, arn, .globalScope⟩, "a1", account, "", "r1"⟩
  { policies := d.policies.insert (policyKey account "p1")
      (storeItem "r1" ⟨"p1", account, "permit(principal, action, resource);", "r1", .custom⟩)
    attachments := fun table =>
      if table = .globalTable then
        ((d.attachments table).insert ⟨accountKey account, attachmentSK "a1"⟩ item).insert
          ⟨accountKey account ++ "#EXACT#" ++ arn, attachmentSK "a1"⟩ item
      else d.attachments table }

def aliceTables : Tables := attachUser ⟨∅, fun _ => ∅⟩ "111111111111" "alice"

def sharedTables : Tables := attachUser aliceTables "222222222222" "bob"

lemma OfAccount.take {pk : String} (h : OfAccount account pk) :
    pk.toList.take (accountKey account).toList.length = (accountKey account).toList := by
  rcases h with rfl | ⟨rest, rfl⟩ <;> simp

lemma sharedTables_same : SameAccount "111111111111" aliceTables sharedTables := by
  constructor
  · intro owner sk ho
    refine (AList.lookup_insert_ne fun heq => ?_).symm
    have hkey := accountKey_inj (congrArg ItemKey.pk heq)
    rcases ho with rfl | rfl <;> exact absurd hkey (by decide)
  · intro table pk sk hpk
    have hne : ∀ {k : ItemKey}, k.pk.toList.take 20 ≠ (accountKey "111111111111").toList →
        (⟨pk, sk⟩ : ItemKey) ≠ k := fun hk heq => hk (heq ▸ hpk.take)
    simp only [sharedTables, attachUser]
    split
    · rw [AList.lookup_insert_ne (hne (by decide)), AList.lookup_insert_ne (hne (by decide))]
    · rfl

def aliceStore : StoreConfig := ⟨"111111111111", "us-east-1", "us-east-1"⟩

/-- Alice has a policy of the tables. -/
def preparesAlice (d : Tables) : Bool :=
  match (prepareScopes permissive aliceStore {} alice ⟨"", "", ⟨0, 0⟩, []⟩ scopes).eval Tables.exec
      { processed := [policyKey "111111111111" "p1"] } d with
  | some (.ok p, _) => p.policies ≠ ∅
  | _ => false

theorem accounts_isolated_shared :
    (∃ a a' : Authorizer Unit,
      loadBundle permissive "" "us-east-1" aliceBundle = .ok a ∧
      loadBundle permissive "" "us-east-1" sharedBundle = .ok a' ∧
      a.customer.length = 1 ∧ a'.customer.length = 2 ∧
      SameOutcome Prepared.Alike (a.prepare permissive {} alice ⟨"", "", ⟨0, 0⟩, []⟩)
        (a'.prepare permissive {} alice ⟨"", "", ⟨0, 0⟩, []⟩)) ∧
    ∃ (xs : List Choice) (p : Prepared Unit) (d : Tables), p.policies ≠ ∅ ∧
      Evals Tables.exec xs
        (prepareScopes permissive aliceStore {} alice ⟨"", "", ⟨0, 0⟩, []⟩ scopes) aliceTables
        (.ok p) d ∧
      Evals Tables.exec xs
        (prepareScopes permissive aliceStore {} alice ⟨"", "", ⟨0, 0⟩, []⟩ scopes) sharedTables
        (.ok p) sharedTables := by
  obtain ⟨hstore, hbundle, -⟩ := accounts_isolated permissive alice {} ⟨"", "", ⟨0, 0⟩, []⟩
  constructor
  · obtain ⟨a, ha, hn⟩ := exists_of_loadsWith (n := 1) (b := aliceBundle) (by decide +kernel)
    obtain ⟨a', ha', hn'⟩ := exists_of_loadsWith (n := 2) (b := sharedBundle) (by decide +kernel)
    refine ⟨a, a', ha, ha', hn, hn', ?_⟩
    exact hbundle "us-east-1" "" "" aliceBundle sharedBundle a a' ha ha' sharedBundle_same
  · have hrun : preparesAlice aliceTables = true := by decide +kernel
    unfold preparesAlice at hrun
    split at hrun
    · next p d heval =>
      obtain ⟨xs, hxs⟩ := evals_of_eval heval
      refine ⟨xs, p, d, by simpa using hrun, hxs, ?_⟩
      exact hstore aliceStore scopes aliceTables sharedTables sharedTables_same xs _ d hxs
    · cases hrun

end Seaplane.Authz
