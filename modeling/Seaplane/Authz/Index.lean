import Seaplane.Authz.Store
import Seaplane.Lib.Trace

/-!
The two rows of an attachment.

Whatever the requests on the stores of a region do, and in whatever order their reads and
transactions take place, the row of an attachment under its account and the row under its
principal exist together and are the same. So the rows that a caller's lookup keys lead to are
those of the account's listing whose principals match the caller.
-/

namespace Seaplane.Authz

open Lib Lib.Prog Lib.Fallible

variable {row : ItemKey × Item StoredAttachment}

section Region

variable {Policy : Type} (cedar : Cedar Policy) (region : String)

/-- The requests that write, with what is generated for them. -/
inductive Request where
  | createAttachment (account writerRegion : String) (spec : AttachmentSpec) (id revision : String)
  | updateAttachment (account writerRegion : String) (scope : AttachmentScope)
      (id expected : String) (policy : PolicyRef) (revision : String)
  | deleteAttachment (account writerRegion : String) (scope : AttachmentScope)
      (id expected : String)
  | createPolicy (account writerRegion id content revision : String)
  | updatePolicy (account writerRegion id expected content revision : String)
  | deletePolicy (account writerRegion id revision : String)
  | publishManagedPolicy (id content revision : String)

def onStore {α : Type} (cfg : StoreConfig) (p : StoreM α) : Prog Op Op.Res Unit :=
  (check (newStore cfg) >>= fun _ => p).run.bind fun _ => .ret ()

def Request.code : Request → Prog Op Op.Res Unit
  | .createAttachment account writer spec id revision =>
    onStore ⟨account, region, writer⟩
      (Authz.createAttachment cedar ⟨account, region, writer⟩ spec id revision)
  | .updateAttachment account writer scope id expected policy revision =>
    onStore ⟨account, region, writer⟩
      (Authz.updateAttachment cedar ⟨account, region, writer⟩ scope id expected policy revision)
  | .deleteAttachment account writer scope id expected =>
    onStore ⟨account, region, writer⟩
      (Authz.deleteAttachment cedar ⟨account, region, writer⟩ scope id expected)
  | .createPolicy account writer id content revision =>
    onStore ⟨account, region, writer⟩
      (Authz.createPolicy cedar ⟨account, region, writer⟩ id content revision)
  | .updatePolicy account writer id expected content revision =>
    onStore ⟨account, region, writer⟩
      (Authz.updatePolicy cedar ⟨account, region, writer⟩ id expected content revision)
  | .deletePolicy account writer id revision =>
    onStore ⟨account, region, writer⟩
      (Authz.deletePolicy cedar ⟨account, region, writer⟩ id revision)
  | .publishManagedPolicy id content revision =>
    (Authz.publishManagedPolicy cedar id content revision).run.bind fun _ => .ret ()

/-- The stores of a region, for all accounts, with any number of requests in progress. -/
def stores : System Op Op.Res Tables Choice Request Unit where
  exec := Tables.exec
  code := Request.code cedar region
  excl _ _ := false

/-! ### What the requests write -/

/-- The transactions of the package: both rows of an attachment, or one policy. -/
inductive Paired : List Write → Prop where
  | put {cfg : StoreConfig} {table : AttachmentTable} {b : StoredAttachment} {p : Principal}
      {expected : String} {policy : StoredPolicy} (hr : cfg.region = region)
      (ha : accountPattern cfg.accountID) (ht : attachmentTable b.scope = .ok table)
      (hc : checkAttachment cedar cfg b = .ok ()) (hp : parsePrincipal b.principalARN = .ok p) :
      Paired (attachmentWrites cfg table b p expected policy)
  | delete {account id expected : String} {table : AttachmentTable} {p : Principal}
      (ha : accountPattern account) (hp : p.Valid) (hpa : p.account = account) :
      Paired [.deleteAttachment table ⟨accountKey account, attachmentSK id⟩
          (.matchRevision expected),
        .deleteAttachment table ⟨principalKey p, attachmentSK id⟩ (.matchRevision expected)]
  | putPolicy {key : ItemKey} {item : Item StoredPolicy} {c : Condition} :
      Paired [.putPolicy key item c]
  | deletePolicy {key : ItemKey} {c : Condition} : Paired [.deletePolicy key c]

def Op.Allowed : Op → Prop
  | .write writes => Paired cedar region writes
  | _ => True

variable {cedar} {region}

/-- What a checked attachment is known to be. -/
structure Checked (cedar : Cedar Policy) (cfg : StoreConfig) (b : StoredAttachment)
    (p : Principal) : Prop where
  principal : parsePrincipal b.principalARN = .ok p
  account : p.account = cfg.accountID
  revision : isRevision cedar b.revision

variable {cfg : StoreConfig} {b : StoredAttachment} {α : Type} {o : Op} {scope : AttachmentScope}
  {id expected pk : String} {d d' : Tables} {table : AttachmentTable} {p : Principal}
  {bs : List StoredAttachment}

lemma checkAttachment_spec (h : checkAttachment cedar cfg b = .ok ()) :
    ∃ p, Checked cedar cfg b p := by
  obtain ⟨p, hp, h⟩ := except_bind_ok h
  obtain ⟨hid, -⟩ := except_unless_ok h
  simp only [Bool.or_eq_true, not_or, Bool.not_eq_true', bne_iff_ne, ne_eq, not_not,
    Bool.not_eq_false] at hid
  exact ⟨p, hp, hid.2, hid.1.1.2⟩

/-- What the programs of the package are known to do, whatever the backend answers. -/
abbrev Writes (cedar : Cedar Policy) (region : String) {α : Type} (Q : α → Prop) (p : StoreM α) :
    Prop := Fallible.Meets (fun _ _ => True) (Op.Allowed cedar region) Q p

lemma writes_check {e : Except AuthzError α} :
    Writes cedar region (fun a => e = .ok a) (check e) := meets_ofExcept fun _ h => h

lemma writes_read {h : o.Res = Except AuthzError α} (ho : o.Allowed cedar region) :
    Writes cedar region (fun _ => True) (call o h) :=
  meets_op ho fun _ _ _ _ => trivial

lemma writes_getPolicy {ref : PolicyRef} :
    Writes cedar region (fun _ => True) (getPolicy cedar cfg ref) := by
  refine meets_bind writes_check fun owner _ => ?_
  refine meets_bind (writes_read trivial) fun row _ => ?_
  refine meets_bind writes_check fun item _ => ?_
  exact meets_ofExcept fun _ _ => trivial

lemma writes_getAttachment :
    Writes cedar region
      (fun b => b.id = id ∧ b.scope = scope ∧ checkAttachment cedar cfg b = .ok ())
      (getAttachment cedar cfg scope id) := by
  refine meets_bind writes_check fun table _ => ?_
  refine meets_unless fun _ => ?_
  refine meets_bind (writes_read trivial) fun row _ => ?_
  refine meets_bind writes_check fun item _ => ?_
  refine meets_bind writes_check fun ⟨b, revision⟩ _ => ?_
  refine meets_unless fun hb => ?_
  refine meets_bind writes_check fun _ hc => ?_
  simp only [Bool.or_eq_true, not_or, bne_iff_ne, ne_eq, not_not] at hb
  exact meets_pure ⟨hb.1.1, hb.1.2, hc⟩

lemma writes_writeAttachment (hr : cfg.region = region) (ha : accountPattern cfg.accountID) :
    Writes cedar region (fun _ => True) (writeAttachment cedar cfg b expected) := by
  refine meets_bind writes_check fun table ht => ?_
  refine meets_when (writes_check.imp fun _ _ => trivial) ?_
  refine meets_bind writes_check fun _ hc => ?_
  refine meets_bind writes_getPolicy fun policy _ => ?_
  refine meets_bind writes_check fun _ _ => ?_
  refine meets_bind writes_check fun p hp => ?_
  refine meets_bind (writes_read (Paired.put hr ha ht (except_mapError_ok hc) hp)) fun _ _ => ?_
  exact meets_pure trivial

lemma writes_deleteAttachment (ha : accountPattern cfg.accountID) :
    Writes cedar region (fun _ => True) (deleteAttachment cedar cfg scope id expected) := by
  refine meets_when (writes_check.imp fun _ _ => trivial) ?_
  refine meets_bind writes_getAttachment fun b hb => ?_
  refine meets_unless fun _ => ?_
  refine meets_bind writes_check fun table _ => ?_
  refine meets_bind writes_check fun p hp => ?_
  obtain ⟨q, hq⟩ := checkAttachment_spec hb.2.2
  obtain rfl : p = q := Except.ok.inj (hp.symm.trans hq.principal)
  exact writes_read (Paired.delete ha (valid_of_parse hp) hq.account)

lemma writes_writePolicy {content revision : String} :
    Writes cedar region (fun _ => True)
      (writePolicy cedar cfg id expected content revision) := by
  refine meets_bind writes_check fun _ _ => ?_
  refine meets_unless fun _ => ?_
  refine meets_bind writes_check fun _ _ => ?_
  refine meets_bind (writes_read Paired.putPolicy) fun _ _ => ?_
  exact meets_pure trivial

lemma newStore_account (h : newStore cfg = .ok ()) : accountPattern cfg.accountID := by
  simp only [newStore] at h
  split at h
  · cases h
  · rename_i hn
    simp only [Bool.or_eq_true, not_or, Bool.not_eq_true', Bool.not_eq_false] at hn
    exact hn.1.1

lemma always_onStore {p : StoreM α}
    (h : accountPattern cfg.accountID → Writes cedar region (fun _ => True) p) :
    (onStore cfg p).Always fun o _ => o.Allowed cedar region := by
  refine Always.seq (Prog.Meets.always (Q := fun _ => True) ?_) fun _ => trivial
  exact meets_bind writes_check fun _ hs => h (newStore_account hs)

lemma always_code (l : Request) :
    (l.code cedar region).Always fun o _ => o.Allowed cedar region := by
  cases l with
  | createAttachment account writer spec id revision =>
    exact always_onStore fun ha => writes_writeAttachment rfl ha
  | updateAttachment account writer scope id expected policy revision =>
    refine always_onStore fun ha => ?_
    refine meets_bind writes_getAttachment fun b hb => ?_
    refine meets_unless fun _ => ?_
    exact writes_writeAttachment rfl ha
  | deleteAttachment account writer scope id expected =>
    exact always_onStore fun ha => writes_deleteAttachment ha
  | createPolicy account writer id content revision =>
    exact always_onStore fun _ => writes_writePolicy
  | updatePolicy account writer id expected content revision =>
    refine always_onStore fun _ => ?_
    exact meets_unless fun _ => writes_writePolicy
  | deletePolicy account writer id revision =>
    refine always_onStore fun _ => ?_
    refine meets_bind writes_check fun _ _ => ?_
    exact meets_unless fun _ => writes_read Paired.deletePolicy
  | publishManagedPolicy id content revision =>
    refine Always.seq (Prog.Meets.always (Q := fun _ => True) ?_) fun _ => trivial
    refine meets_unless fun _ => ?_
    refine meets_bind writes_check fun _ _ => ?_
    refine meets_bind (writes_read Paired.putPolicy) fun _ _ => ?_
    exact meets_pure trivial

/-! ### Both rows exist together -/

/-- A row that holds an attachment of an account, with the attachment and its principal. -/
structure Filed (cedar : Cedar Policy) (region : String) (table : AttachmentTable)
    (account sk : String) (item : Item StoredAttachment) (b : StoredAttachment) (p : Principal) :
    Prop where
  item : item = storeItem b.revision b
  table : attachmentTable b.scope = .ok table
  sk : sk = attachmentSK b.id
  checked : checkAttachment cedar ⟨account, region, region⟩ b = .ok ()
  principal : parsePrincipal b.principalARN = .ok p

/-- The rows of an attachment under its account and under its principal exist together and are
the same row. -/
structure IndexCoherent (cedar : Cedar Policy) (region : String) (d : Tables) : Prop where
  account : ∀ table account sk item, accountPattern account →
    (d.attachments table).lookup ⟨accountKey account, sk⟩ = some item →
    ∃ b p, Filed cedar region table account sk item b p ∧ p.account = account ∧
      (d.attachments table).lookup ⟨principalKey p, sk⟩ = some item
  principal : ∀ table p sk item, Principal.Valid p →
    (d.attachments table).lookup ⟨principalKey p, sk⟩ = some item →
    ∃ b q, Filed cedar region table p.account sk item b q ∧ principalKey q = principalKey p ∧
      (d.attachments table).lookup ⟨accountKey p.account, sk⟩ = some item

/-- The tables before any attachment is made. -/
def Unattached (d : Tables) : Prop := ∀ table, d.attachments table = ∅

lemma coherent_unattached (h : Unattached d) : IndexCoherent cedar region d := by
  constructor
  · intro table account sk item _ hl
    rw [h table] at hl
    cases hl
  · intro table p sk item _ hl
    rw [h table] at hl
    cases hl

/-- Both rows of an attachment are set to one value, which may be none. -/
structure SetsPair (table : AttachmentTable) (account : String) (p : Principal) (sk : String)
    (row : Option (Item StoredAttachment)) (d d' : Tables) : Prop where
  underAccount : (d'.attachments table).lookup ⟨accountKey account, sk⟩ = row
  underPrincipal : (d'.attachments table).lookup ⟨principalKey p, sk⟩ = row
  others : ∀ table' k, ¬(table' = table ∧
      (k = ⟨accountKey account, sk⟩ ∨ k = ⟨principalKey p, sk⟩)) →
    (d'.attachments table').lookup k = (d.attachments table').lookup k

/-- Setting both rows keeps all pairs together, unless the attachment was filed under another
principal before. -/
lemma coherent_setsPair {account sk : String} {row : Option (Item StoredAttachment)}
    (hd : IndexCoherent cedar region d) (ha : accountPattern account) (hp : p.Valid)
    (hpa : p.account = account) (hs : SetsPair table account p sk row d d')
    (hrow : ∀ item, row = some item →
      ∃ b q, Filed cedar region table account sk item b q ∧ principalKey q = principalKey p)
    (hold : ∀ q item, Principal.Valid q → q.account = account →
      (d.attachments table).lookup ⟨principalKey q, sk⟩ = some item →
      principalKey q = principalKey p) : IndexCoherent cedar region d' := by
  constructor
  · intro table' account' sk' item ha' hl
    by_cases hk : table' = table ∧ account' = account ∧ sk' = sk
    · obtain ⟨rfl, rfl, rfl⟩ := hk
      rw [hs.underAccount] at hl
      obtain ⟨b, q, hf, hq⟩ := hrow item hl
      have hqa : q.account = account' :=
        (principalKey_account (valid_of_parse hf.principal) hp hq).trans hpa
      exact ⟨b, q, hf, hqa, by rw [hq, hs.underPrincipal, hl]⟩
    · -- another attachment: neither of its rows is touched
      have hne : ¬(table' = table ∧ ((⟨accountKey account', sk'⟩ : ItemKey) =
          ⟨accountKey account, sk⟩ ∨ (⟨accountKey account', sk'⟩ : ItemKey) =
            ⟨principalKey p, sk⟩)) := by
        rintro ⟨ht, h | h⟩
        · injection h with h1 h2
          exact hk ⟨ht, accountKey_inj h1, h2⟩
        · injection h with h1 h2
          exact accountKey_ne_principalKey ha' hp h1
      rw [hs.others table' _ hne] at hl
      obtain ⟨b, q, hf, hqa, hq⟩ := hd.account table' account' sk' item ha' hl
      refine ⟨b, q, hf, hqa, ?_⟩
      have vq := valid_of_parse hf.principal
      rw [hs.others]
      · exact hq
      rintro ⟨ht, h | h⟩
      · injection h with h1 h2
        exact accountKey_ne_principalKey ha vq h1.symm
      · injection h with h1 h2
        exact hk ⟨ht, by rw [← hqa, principalKey_account vq hp h1, hpa], h2⟩
  · intro table' q sk' item hq hl
    by_cases hk : table' = table ∧ principalKey q = principalKey p ∧ sk' = sk
    · obtain ⟨rfl, hk, rfl⟩ := hk
      have hqa : q.account = account := (principalKey_account hq hp hk).trans hpa
      rw [hk, hs.underPrincipal] at hl
      obtain ⟨b, q', hf, hq'⟩ := hrow item hl
      rw [hqa, hs.underAccount]
      exact ⟨b, q', hf, hq'.trans hk.symm, hl⟩
    · have hne : ¬(table' = table ∧ ((⟨principalKey q, sk'⟩ : ItemKey) =
          ⟨accountKey account, sk⟩ ∨ (⟨principalKey q, sk'⟩ : ItemKey) =
            ⟨principalKey p, sk⟩)) := by
        rintro ⟨ht, h | h⟩
        · injection h with h1 h2
          exact accountKey_ne_principalKey ha hq h1.symm
        · injection h with h1 h2
          exact hk ⟨ht, h1, h2⟩
      rw [hs.others table' _ hne] at hl
      obtain ⟨b, q', hf, hq', hacc⟩ := hd.principal table' q sk' item hq hl
      refine ⟨b, q', hf, hq', ?_⟩
      rw [hs.others]
      · exact hacc
      -- the account row is the one that is set: then the attachment was filed under this principal
      rintro ⟨ht, h | h⟩
      · injection h with h1 h2
        subst ht h2
        exact hk ⟨rfl, hold q item hq (accountKey_inj h1) hl, rfl⟩
      · injection h with h1 h2
        exact accountKey_ne_principalKey hq.account hp h1

/-- Where the row under the account never exists without the one under `p`, an attachment is
filed under no other principal. -/
lemma filed_under {sk : String} {q : Principal} {item : Item StoredAttachment}
    (hd : IndexCoherent cedar region d) (hp : p.Valid)
    (hboth : ∀ item, (d.attachments table).lookup ⟨accountKey p.account, sk⟩ = some item →
      ∃ item', (d.attachments table).lookup ⟨principalKey p, sk⟩ = some item') (hq : q.Valid)
    (hqa : q.account = p.account)
    (hl : (d.attachments table).lookup ⟨principalKey q, sk⟩ = some item) :
    principalKey q = principalKey p := by
  obtain ⟨b, q1, hf, hk, hacc⟩ := hd.principal table q sk item hq hl
  rw [hqa] at hacc
  obtain ⟨item', hl'⟩ := hboth item hacc
  obtain ⟨b', q2, hf', hk', hacc'⟩ := hd.principal table p sk item' hp hl'
  have hitem : storeItem b.revision b = storeItem b'.revision b' := by
    rw [← hf.item, ← hf'.item]
    exact Option.some.inj (hacc.symm.trans hacc')
  obtain rfl : b = b' := by
    simp only [storeItem, Item.mk.injEq, Payload.json.injEq] at hitem
    exact hitem.2
  obtain rfl : q1 = q2 := Except.ok.inj (hf.principal.symm.trans hf'.principal)
  exact hk.symm.trans hk'

lemma Condition.both {c : Condition} {row row' : Option (Item α)} (h : c.holds row)
    (h' : c.holds row') : ∀ item, row = some item → ∃ item', row' = some item' := by
  intro item hrow
  cases c with
  | createOnly =>
    rw [hrow] at h
    cases h
  | matchRevision expected =>
    cases row' with
    | none => cases h'
    | some item' => exact ⟨item', rfl⟩

lemma transact_all {writes : List Write} (h : d.transact writes = some d') :
    (∀ w ∈ writes, d.permits w) ∧ d' = writes.foldl Tables.apply d := by
  simp only [Tables.transact] at h
  split at h
  · rename_i hall
    exact ⟨List.all_eq_true.mp hall, (Option.some.inj h).symm⟩
  · cases h

lemma setsPair_put {policy : StoredPolicy} (ha : accountPattern cfg.accountID) (hp : p.Valid) :
    SetsPair table cfg.accountID p (attachmentSK b.id) (some (storeItem b.revision b)) d
      ((attachmentWrites cfg table b p expected policy).foldl Tables.apply d) := by
  have hne : (⟨accountKey cfg.accountID, attachmentSK b.id⟩ : ItemKey) ≠
      ⟨principalKey p, attachmentSK b.id⟩ := by
    intro h
    injection h with h1 h2
    exact accountKey_ne_principalKey ha hp h1
  constructor
  · simp [attachmentWrites, Tables.apply, Tables.setAttachments, AList.lookup_insert_ne hne]
  · simp [attachmentWrites, Tables.apply, Tables.setAttachments]
  · intro table' k hk
    by_cases ht : table' = table
    · subst ht
      simp only [true_and, not_or] at hk
      simp [attachmentWrites, Tables.apply, Tables.setAttachments, AList.lookup_insert_ne hk.1,
        AList.lookup_insert_ne hk.2]
    · simp [attachmentWrites, Tables.apply, Tables.setAttachments, Function.update_of_ne ht]

lemma setsPair_delete {account : String} :
    SetsPair table account p (attachmentSK id) none d
      ([.deleteAttachment table ⟨accountKey account, attachmentSK id⟩ (.matchRevision expected),
        .deleteAttachment table ⟨principalKey p, attachmentSK id⟩
          (.matchRevision expected)].foldl Tables.apply d) := by
  constructor
  · simp only [List.foldl_cons, List.foldl_nil, Tables.apply, Tables.setAttachments,
      Function.update_self]
    by_cases h : (⟨accountKey account, attachmentSK id⟩ : ItemKey) =
        ⟨principalKey p, attachmentSK id⟩
    · rw [h, AList.lookup_erase]
    · rw [AList.lookup_erase_ne h, AList.lookup_erase]
  · simp [Tables.apply, Tables.setAttachments]
  · intro table' k hk
    by_cases ht : table' = table
    · subst ht
      simp only [true_and, not_or] at hk
      simp [Tables.apply, Tables.setAttachments, AList.lookup_erase_ne hk.1,
        AList.lookup_erase_ne hk.2]
    · simp [Tables.apply, Tables.setAttachments, Function.update_of_ne ht]

lemma coherent_transact {writes : List Write} (hd : IndexCoherent cedar region d)
    (hw : Paired cedar region writes) (h : d.transact writes = some d') :
    IndexCoherent cedar region d' := by
  obtain ⟨hall, rfl⟩ := transact_all h
  cases hw with
  | @put cfg table b p expected policy hr ha ht hc hp =>
    have vp := valid_of_parse hp
    obtain ⟨q, hq⟩ := checkAttachment_spec hc
    obtain rfl : p = q := Except.ok.inj (hp.symm.trans hq.principal)
    have hfiled : Filed cedar region table cfg.accountID (attachmentSK b.id)
        (storeItem b.revision b) b p := by
      refine ⟨rfl, ht, rfl, ?_, hp⟩
      rw [← hc, ← hr]
      rfl
    have hboth := Condition.both (hall _ List.mem_cons_self)
      (hall _ (List.mem_cons_of_mem _ List.mem_cons_self))
    refine coherent_setsPair hd ha vp hq.account (setsPair_put ha vp) ?_ ?_
    · rintro item hitem
      rw [← Option.some.inj hitem]
      exact ⟨b, p, hfiled, rfl⟩
    · intro q item vq hqa hl
      rw [← hq.account] at hboth hqa
      exact filed_under hd vp hboth vq hqa hl
  | @delete account id expected table p ha vp hpa =>
    have h1 : (Condition.matchRevision expected).holds _ = true := hall _ List.mem_cons_self
    have h2 : (Condition.matchRevision expected).holds _ = true :=
      hall _ (List.mem_cons_of_mem _ List.mem_cons_self)
    have hboth := Condition.both h1 h2
    refine coherent_setsPair hd ha vp hpa setsPair_delete (by rintro item ⟨⟩) ?_
    intro q item vq hqa hl
    rw [← hpa] at hboth hqa
    exact filed_under hd vp hboth vq hqa hl
  | putPolicy | deletePolicy => exact ⟨hd.account, hd.principal⟩

lemma coherent_exec {x : Choice} {r : o.Res} (ho : o.Allowed cedar region)
    (hd : IndexCoherent cedar region d) (hx : Tables.exec o x d = some (r, d')) :
    IndexCoherent cedar region d' := by
  cases o with
  | write writes =>
    have ho : Paired cedar region writes := ho
    simp only [Tables.exec] at hx
    cases hf : x.fault with
    | none =>
      simp only [hf] at hx
      cases ht : d.transact writes with
      | none => simp only [ht] at hx; cases hx; exact hd
      | some d1 => simp only [ht] at hx; cases hx; exact coherent_transact hd ho ht
    | refused => simp only [hf] at hx; cases hx; exact hd
    | lost =>
      simp only [hf] at hx
      cases hx
      cases ht : d.transact writes with
      | none => exact hd
      | some d1 => exact coherent_transact hd ho ht
  | batchGetPolicies keys =>
    simp only [Tables.exec] at hx
    split at hx
    · cases hx; exact hd
    · cases hx
  | getPolicy key | getAttachment table key | queryAttachments table pk | backoff =>
    cases hx; exact hd

/-- The index stays coherent, whatever the requests do and however they interleave. -/
lemma coherent_reachable {c : Conf Op Op.Res Tables Request Unit}
    (h : (stores cedar region).Reachable Unattached c) : IndexCoherent cedar region c.store :=
  h.preserved (B := Op.Allowed cedar region) always_code (fun _ => coherent_unattached)
    coherent_exec

/-! ### What a lookup finds -/

/-- What `readBindings` has seen in a row it returns. -/
structure ReadRow (cedar : Cedar Policy) (cfg : StoreConfig) (scope : AttachmentScope)
    (pk : String) (row : ItemKey × Item StoredAttachment) (b : StoredAttachment) (p : Principal) :
    Prop where
  item : row.2 = storeItem b.revision b
  scope : b.scope = scope
  checked : checkAttachment cedar cfg b = .ok ()
  principal : parsePrincipal b.principalARN = .ok p
  key : row.1 = ⟨pk, attachmentSK b.id⟩
  pk : pk = accountKey cfg.accountID ∨ pk = principalKey p

lemma decodeItem_spec {item : Item α} {record : α} {revision : String}
    (h : decodeItem cedar item = .ok (record, revision)) :
    item = storeItem revision record ∧ isRevision cedar revision := by
  obtain ⟨rev, payload⟩ := item
  cases payload with
  | absent => cases h
  | malformed =>
    simp only [decodeItem] at h
    split at h <;> cases h
  | json r =>
    cases rev with
    | none => cases h
    | some rev =>
      simp only [decodeItem] at h
      split at h
      · cases h; exact ⟨rfl, ‹_›⟩
      · cases h

lemma readBinding_spec
    (h : readBinding cedar cfg scope pk row = .ok b) : ∃ p, ReadRow cedar cfg scope pk row b p := by
  obtain ⟨⟨b', revision⟩, hd, h⟩ := except_bind_ok h
  obtain ⟨hid, h⟩ := except_unless_ok h
  obtain ⟨⟨⟩, hc, h⟩ := except_bind_ok h
  obtain ⟨p, hp, h⟩ := except_bind_ok h
  obtain ⟨hkey, h⟩ := except_unless_ok h
  cases h
  simp only [Bool.or_eq_true, Bool.and_eq_true, not_or, not_and, bne_iff_ne, ne_eq,
    not_not] at hid hkey
  obtain ⟨hitem, -⟩ := decodeItem_spec hd
  refine ⟨p, ?_, hid.1, hc, hp, hkey.1, ?_⟩
  · rw [hitem, hid.2]
  · by_cases ha : pk = accountKey cfg.accountID
    · exact .inl ha
    · exact .inr (hkey.2 ha)

lemma readBinding_of
    (h : ReadRow cedar cfg scope pk row b p) : readBinding cedar cfg scope pk row = .ok b := by
  obtain ⟨q, hq⟩ := checkAttachment_spec h.checked
  have hdec : decodeItem cedar row.2 = .ok (b, b.revision) := by
    simp [h.item, decodeItem, storeItem, hq.revision]
  have hkey : ¬(row.1 != ⟨pk, attachmentSK b.id⟩ ||
      (pk != accountKey cfg.accountID && pk != principalKey p)) = true := by
    rcases h.pk with hpk | hpk <;> simp [h.key, hpk]
  have hscope : ¬(b.scope != scope || b.revision != b.revision) = true := by simp [h.scope]
  simp only [readBinding, hdec, h.checked, h.principal, hkey, hscope, Except.bind, Bind.bind,
    Pure.pure, Except.pure, if_false, Bool.false_eq_true]

def Shows (cedar : Cedar Policy) (cfg : StoreConfig) (d : Tables) (scope : AttachmentScope)
    (pk : String) (bs : List StoredAttachment) : Prop :=
  ∃ table, attachmentTable scope = .ok table ∧
    ((d.attachments table).query pk).mapM (readBinding cedar cfg scope pk) = .ok bs

/-- An attachment that lies under a partition key. -/
def LiesUnder (cedar : Cedar Policy) (cfg : StoreConfig) (d : Tables) (scope : AttachmentScope)
    (pk : String) (b : StoredAttachment) : Prop :=
  ∃ table p, attachmentTable scope = .ok table ∧
    (d.attachments table).lookup ⟨pk, attachmentSK b.id⟩ = some (storeItem b.revision b) ∧
    ReadRow cedar cfg scope pk (⟨pk, attachmentSK b.id⟩, storeItem b.revision b) b p

lemma Shows.mem (h : Shows cedar cfg d scope pk bs) :
    b ∈ bs ↔ LiesUnder cedar cfg d scope pk b := by
  obtain ⟨table, ht, hm⟩ := h
  rw [except_mapM_mem hm]
  constructor
  · rintro ⟨⟨k, item⟩, hrow, hb⟩
    obtain ⟨-, hl⟩ := Rows.mem_query.mp hrow
    obtain ⟨p, hp⟩ := readBinding_spec hb
    obtain rfl : k = _ := hp.key
    obtain rfl : item = _ := hp.item
    exact ⟨table, p, ht, hl, hp⟩
  · rintro ⟨table', p, ht', hl, hp⟩
    obtain rfl : table = table' := Except.ok.inj (ht.symm.trans ht')
    exact ⟨_, Rows.mem_query.mpr ⟨rfl, hl⟩, readBinding_of hp⟩

lemma Shows.nodup (h : Shows cedar cfg d scope pk bs) : bs.Nodup := by
  obtain ⟨table, ht, hm⟩ := h
  have hkeys : ∀ {rows : List (ItemKey × Item StoredAttachment)} {bs : List StoredAttachment},
      rows.mapM (readBinding cedar cfg scope pk) = .ok bs →
      rows.map Prod.fst = bs.map fun b => (⟨pk, attachmentSK b.id⟩ : ItemKey) := by
    intro rows bs hm
    induction except_mapM_ok hm with
    | nil => rfl
    | cons hb hl ih =>
      obtain ⟨p, hp⟩ := readBinding_spec hb
      rw [List.map_cons, List.map_cons, hp.key, ih (except_mapM_of_forall₂ hl)]
  refine List.Nodup.of_map (fun b => (⟨pk, attachmentSK b.id⟩ : ItemKey)) ?_
  rw [← hkeys hm]
  exact Rows.nodup_query _ _

/-! ### Resolution -/

/-- What a store that nothing disturbs is known to return. -/
abbrev Reads {α : Type} (d : Tables) (Q : α → Prop) (p : StoreM α) : Prop :=
  Fallible.Meets (fun o r => ∃ x, Tables.exec o x d = some (r, d))
    (fun o => ∀ x r d', Tables.exec o x d = some (r, d') → d' = d) Q p

lemma reads_check {e : Except AuthzError α} :
    Reads d (fun a => e = .ok a) (check e) := meets_ofExcept fun _ h => h

def Op.Reading : Op → Prop
  | .write _ => False
  | _ => True

lemma exec_reading (ho : o.Reading) {x : Choice} {r : o.Res}
    (hx : Tables.exec o x d = some (r, d')) : d' = d := by
  cases o with
  | write writes => exact ho.elim
  | batchGetPolicies keys =>
    simp only [Tables.exec] at hx
    split at hx
    · cases hx; rfl
    · cases hx
  | getPolicy key | getAttachment table key | queryAttachments table pk | backoff => cases hx; rfl

lemma reads_call {h : o.Res = Except AuthzError α} (ho : o.Reading) :
    Reads d (fun _ => True) (call o h) :=
  meets_op (fun _ _ _ hx => exec_reading ho hx) fun _ _ _ _ => trivial

lemma reads_query :
    Reads d (fun rows => rows = (d.attachments table).query pk)
      (call (.queryAttachments table pk) rfl) := by
  refine meets_op (fun _ _ _ hx => exec_reading (o := .queryAttachments table pk) trivial hx) ?_
  rintro r rows ⟨x, hx⟩ hr
  have hrx : r = answer x ((d.attachments table).query pk) := by
    cases hx
    rfl
  rw [hrx] at hr
  simp only [answer] at hr
  split at hr
  · exact (Except.ok.inj hr).symm
  · cases hr

lemma reads_readBindings :
    Reads d (Shows cedar cfg d scope pk) (readBindings cedar cfg scope pk) := by
  refine meets_bind reads_check fun table ht => ?_
  refine meets_bind reads_query fun rows hrows => ?_
  subst hrows
  exact meets_ofExcept fun bs hbs => ⟨table, ht, hbs⟩

lemma reads_fetchBatch {refs : List PolicyRef} (n : ℕ) (pending : List ItemKey)
    (policies : PolicyMap) :
    Reads d (fun _ => True) (fetchBatch cedar cfg refs n pending policies) := by
  induction n generalizing pending policies with
  | zero =>
    simp only [fetchBatch]
    split
    · exact meets_pure trivial
    · exact meets_throw
  | succ n ih =>
    simp only [fetchBatch]
    split
    · exact meets_pure trivial
    refine meets_when (reads_call trivial) ?_
    refine meets_bind (reads_call trivial) fun out _ => ?_
    refine meets_bind reads_check fun policies _ => ?_
    exact ih _ _

lemma reads_loadPolicies {bindings : List StoredAttachment} :
    Reads d (fun _ => True) (loadPolicies cedar cfg bindings) := by
  refine meets_foldlM (fun _ _ => True) trivial fun pre batch policies _ _ => ?_
  refine meets_bind reads_check fun keys _ => ?_
  exact reads_fetchBatch _ _ _

/-- The attachment's principal matches the caller. -/
def accepts (caller : Principal) (b : StoredAttachment) : Bool :=
  match parsePrincipal b.principalARN with
  | .ok p => matchesPrincipal p caller
  | .error _ => false

lemma gather_spec {caller : Principal} {part : List StoredAttachment} {g g' : Gathered}
    (h : part.foldlM (gather caller) g = .ok g')
    (hg : g.bindingIDs = (g.bindings.map bindingDiagnosticID).reverse) (hn : g.bindingIDs.Nodup) :
    g'.bindings = g.bindings ++ part ∧
      g'.bindingIDs = (g'.bindings.map bindingDiagnosticID).reverse ∧ g'.bindingIDs.Nodup := by
  induction part generalizing g with
  | nil => cases h; exact ⟨by simp, hg, hn⟩
  | cons b part ih =>
    rw [List.foldlM_cons] at h
    obtain ⟨g1, h1, h⟩ := except_bind_ok h
    obtain ⟨p, hp, h1⟩ := except_bind_ok h1
    obtain ⟨-, h1⟩ := except_unless_ok h1
    obtain ⟨aliases, -, h1⟩ := except_bind_ok h1
    obtain ⟨hdup, h1⟩ := except_unless_ok h1
    cases h1
    obtain ⟨hb, hids, hnodup⟩ := ih h (by simp [hg]) (List.nodup_cons.mpr ⟨hdup, hn⟩)
    exact ⟨by rw [hb, List.append_assoc]; rfl, hids, hnodup⟩

lemma withPolicy_attachments {policies : PolicyMap} {bindings : List StoredAttachment}
    {found : List ResolvedAttachment} (h : bindings.mapM (withPolicy policies) = .ok found) :
    found.map (·.attachment) = bindings := by
  induction except_mapM_ok h with
  | nil => rfl
  | @cons b r bs rs hb hl ih =>
    rw [List.map_cons, ih (except_mapM_of_forall₂ hl)]
    simp only [withPolicy] at hb
    split at hb
    · cases hb
    · cases hb; rfl

lemma reads_resolve {id : Identity} :
    Reads d (fun found => ∃ caller, checkedIdentity id = .ok caller ∧
        (found.map (·.attachment)).Nodup ∧
        ∀ b, b ∈ found.map (·.attachment) ↔
          ∃ scope ∈ scopes, ∃ pk ∈ lookupKeys caller, LiesUnder cedar cfg d scope pk b)
      (resolve cedar cfg id) := by
  refine meets_bind reads_check fun caller hcaller => ?_
  refine meets_unless fun _ => ?_
  refine meets_bind (meets_foldlM (fun pre g =>
    (∀ b, b ∈ g.bindings ↔ ∃ sp ∈ pre, LiesUnder cedar cfg d sp.1 sp.2 b) ∧
      g.bindingIDs = (g.bindings.map bindingDiagnosticID).reverse ∧ g.bindingIDs.Nodup) ?_ ?_) ?_
  · exact ⟨by simp, rfl, List.nodup_nil⟩
  · rintro pre ⟨scope, pk⟩ g - ⟨hmem, hids, hnodup⟩
    refine meets_bind reads_readBindings fun part hpart => ?_
    refine meets_ofExcept fun g' hg' => ?_
    obtain ⟨hb, hids', hnodup'⟩ := gather_spec hg' hids hnodup
    refine ⟨fun b => ?_, hids', hnodup'⟩
    rw [hb, List.mem_append, hmem, hpart.mem]
    simp [or_and_right, exists_or]
  · rintro g ⟨hmem, hids, hnodup⟩
    refine meets_bind reads_loadPolicies fun policies _ => ?_
    refine meets_ofExcept fun found hfound => ⟨caller, hcaller, ?_⟩
    rw [withPolicy_attachments hfound]
    constructor
    · rw [hids, List.nodup_reverse] at hnodup
      exact hnodup.of_map
    · intro b
      rw [hmem]
      simp [List.pair_mem_product, and_assoc]

/-- An attachment lies under a lookup key of the caller exactly when it lies under the account and
its principal matches the caller. -/
lemma liesUnder_iff {id : Identity} {caller : Principal} (hd : IndexCoherent cedar cfg.region d)
    (ha : accountPattern cfg.accountID) (hc : checkedIdentity id = .ok caller)
    (scope : AttachmentScope) (b : StoredAttachment) :
    (∃ pk ∈ lookupKeys caller, LiesUnder cedar cfg d scope pk b) ↔
      LiesUnder cedar cfg d scope (accountKey cfg.accountID) b ∧ accepts caller b = true := by
  obtain ⟨caller', hparse, hc⟩ := except_bind_ok hc
  obtain ⟨hkind, hc⟩ := except_unless_ok hc
  cases hc
  simp only [Bool.or_eq_true, not_or, bne_iff_ne, ne_eq, beq_iff_eq] at hkind
  constructor
  · rintro ⟨pk, hpk, table, p, ht, hl, hrow⟩
    obtain ⟨q, hq⟩ := checkAttachment_spec hrow.checked
    obtain rfl : p = q := Except.ok.inj (hrow.principal.symm.trans hq.principal)
    have vp := valid_of_parse hrow.principal
    obtain rfl : pk = principalKey p := by
      rcases hrow.pk with h | h
      · rw [h] at hpk
        exact absurd hpk (accountKey_notMem_lookupKeys ha (valid_of_parse hparse))
      · exact h
    obtain ⟨-, -, -, -, hacc⟩ := hd.principal table p _ _ vp hl
    rw [hq.account] at hacc
    refine ⟨⟨table, p, ht, hacc, rfl, hrow.scope, hrow.checked, hrow.principal, rfl, .inl rfl⟩, ?_⟩
    simp only [accepts, hrow.principal]
    exact (mem_lookupKeys hrow.principal hparse hkind.2).mp hpk
  · rintro ⟨⟨table, p, ht, hl, hrow⟩, hacc⟩
    obtain ⟨b', q, hf, -, hq⟩ := hd.account table _ _ _ ha hl
    obtain rfl : b = b' := by
      have := hf.item
      simp only [storeItem, Item.mk.injEq, Payload.json.injEq] at this
      exact this.2
    obtain rfl : p = q := Except.ok.inj (hrow.principal.symm.trans hf.principal)
    simp only [accepts, hrow.principal] at hacc
    exact ⟨principalKey p, (mem_lookupKeys hrow.principal hparse hkind.2).mpr hacc, table, p, ht,
      hq, rfl, hrow.scope, hrow.checked, hrow.principal, rfl, .inr rfl⟩

/-! ### The listing -/

lemma attachmentTable_inj {scope' : AttachmentScope} (h : attachmentTable scope = .ok table)
    (h' : attachmentTable scope' = .ok table) : scope = scope' := by
  cases scope <;> cases scope' <;> cases h <;> cases h' <;> rfl

lemma shows_account (hd : IndexCoherent cedar cfg.region d) (ha : accountPattern cfg.accountID)
    (ht : attachmentTable scope = .ok table) :
    ∃ bs, Shows cedar cfg d scope (accountKey cfg.accountID) bs := by
  obtain ⟨bs, hbs⟩ := except_mapM_exists
    (f := readBinding cedar cfg scope (accountKey cfg.accountID))
    (l := (d.attachments table).query (accountKey cfg.accountID)) (by
      rintro ⟨⟨pk, sk⟩, item⟩ hrow
      obtain ⟨rfl, hl⟩ := Rows.mem_query.mp hrow
      obtain ⟨b, p, hf, -, -⟩ := hd.account table cfg.accountID sk item ha hl
      refine ⟨b, readBinding_of (p := p) ?_⟩
      exact ⟨hf.item, attachmentTable_inj hf.table ht, hf.checked, hf.principal,
        by rw [hf.sk], .inl rfl⟩)
  exact ⟨bs, table, ht, hbs⟩

lemma evals_readBindings (h : Shows cedar cfg d scope pk bs) :
    Evals Tables.exec [{}] (readBindings cedar cfg scope pk).run d (.ok bs) d := by
  obtain ⟨table, ht, hm⟩ := h
  have h1 : Evals Tables.exec [] (check (attachmentTable scope)).run d (.ok table) d := by
    rw [ht]
    exact .ret
  have h2 : Evals Tables.exec [{}]
      (call (.queryAttachments table pk) rfl : StoreM (List (ItemKey × Item StoredAttachment))).run
      d (.ok ((d.attachments table).query pk)) d := .op rfl .ret
  have h3 : Evals Tables.exec [] (check (((d.attachments table).query pk).mapM
      (readBinding cedar cfg scope pk))).run d (.ok bs) d := by
    rw [hm]
    exact .ret
  exact evals_bind h1 (evals_bind h2 h3)

lemma evals_listAttachments (cfg : StoreConfig) (hd : IndexCoherent cedar cfg.region d)
    (ha : accountPattern cfg.accountID) :
    ∃ listed, Evals Tables.exec [{}, {}] (listAttachments cedar cfg).run d (.ok listed) d ∧
      listed.Nodup ∧ ∀ b, b ∈ listed ↔
        ∃ scope ∈ scopes, LiesUnder cedar cfg d scope (accountKey cfg.accountID) b := by
  obtain ⟨gs, hg⟩ := shows_account hd ha (rfl : attachmentTable .globalScope = _)
  obtain ⟨rs, hr⟩ := shows_account hd ha (rfl : attachmentTable .regionalScope = _)
  refine ⟨gs ++ rs, ?_, ?_, ?_⟩
  · have hstep : ∀ {scope : AttachmentScope} {bs : List StoredAttachment} (acc : _),
        Shows cedar cfg d scope (accountKey cfg.accountID) bs →
        Evals Tables.exec [{}] (readBindings cedar cfg scope (accountKey cfg.accountID) >>=
          fun part => pure (acc ++ part) : StoreM (List StoredAttachment)).run d
          (.ok (acc ++ bs)) d :=
      fun acc h => evals_bind (evals_readBindings h) .ret
    have hlast : Evals Tables.exec [{}] ([AttachmentScope.regionalScope].foldlM
        (fun bindings scope => readBindings cedar cfg scope (accountKey cfg.accountID) >>=
          fun part => pure (bindings ++ part)) gs : StoreM (List StoredAttachment)).run d
        (.ok (gs ++ rs)) d := by
      rw [List.foldlM_cons]
      exact evals_bind (hstep gs hr) .ret
    exact evals_bind (hstep [] hg) hlast
  · refine List.nodup_append.mpr ⟨hg.nodup, hr.nodup, ?_⟩
    rintro b hb b' hb' rfl
    obtain ⟨_, _, _, _, h1⟩ := hg.mem.mp hb
    obtain ⟨_, _, _, _, h2⟩ := hr.mem.mp hb'
    cases h1.scope.symm.trans h2.scope
  · intro b
    rw [List.mem_append, hg.mem, hr.mem]
    simp [scopes]

/-- **The attachment index is coherent.** After any requests on the stores of a region, in any
interleaving, the rows of an attachment under its account and under its principal exist together
and are equal; and where the resolution of a user or session returns, it has found the attachments
of the account's listing whose principals match the caller. -/
theorem attachment_index_coherent {c : Conf Op Op.Res Tables Request Unit}
    (h : (stores cedar region).Reachable Unattached c) :
    IndexCoherent cedar region c.store ∧
      ∀ account writerRegion id xs found d',
        newStore ⟨account, region, writerRegion⟩ = .ok () →
        Evals Tables.exec xs (resolve cedar ⟨account, region, writerRegion⟩ id).run c.store
          (.ok found) d' →
        ∃ caller listed, checkedIdentity id = .ok caller ∧
          Evals Tables.exec [{}, {}] (listAttachments cedar ⟨account, region, writerRegion⟩).run
            c.store (.ok listed) c.store ∧
          (found.map (·.attachment)).Perm (listed.filter (accepts caller)) := by
  have hd := coherent_reachable h
  refine ⟨hd, fun account writerRegion id xs found d' hs hx => ?_⟩
  have ha := newStore_account hs
  obtain ⟨-, caller, hcaller, hnodup, hmem⟩ := hx.meets reads_resolve
  obtain ⟨listed, hlist, hnodup', hmem'⟩ :=
    evals_listAttachments ⟨account, region, writerRegion⟩ hd ha
  refine ⟨caller, listed, hcaller, hlist, ?_⟩
  rw [List.perm_ext_iff_of_nodup hnodup (hnodup'.filter _)]
  intro b
  rw [hmem, List.mem_filter, hmem']
  constructor
  · rintro ⟨scope, hscope, hpk⟩
    have hlies := (liesUnder_iff hd ha hcaller scope b).mp hpk
    exact ⟨⟨scope, hscope, hlies.1⟩, hlies.2⟩
  · rintro ⟨⟨scope, hscope, hlies⟩, hacc⟩
    exact ⟨scope, hscope, (liesUnder_iff hd ha hcaller scope b).mpr ⟨hlies, hacc⟩⟩

end Region

def acceptAll : Cedar Unit where
  uuidValidate _ := true
  bindPolicy _ _ _ := .ok ()

def published : Tables where
  policies := AList.singleton (policyKey managedOwner "view")
    (storeItem "r0" ⟨"view", managedOwner, "permit(principal, action, resource);", "r0", .managed⟩)
  attachments _ := ∅

/-- The policy is attached to a role, then a new revision of the attachment replaces it. -/
def attachToRole : List (System.Event Choice Request) :=
  [.spawn (.createAttachment "123456789012" "us-east-1"
      ⟨⟨"view", .managed⟩, "arn:aws:iam::123456789012:role/team/admin", .globalScope⟩ "a1" "r1"),
    .act 0 {}, .act 0 {},
    .spawn (.updateAttachment "123456789012" "us-east-1" .globalScope "a1" "r1"
      ⟨"view", .managed⟩ "r2"),
    .act 1 {}, .act 1 {}, .act 1 {}]

def adminStore : StoreConfig := ⟨"123456789012", "us-east-1", "us-east-1"⟩

def adminSession : Identity :=
  ⟨"123456789012", "arn:aws:sts::123456789012:assumed-role/admin/s1", false⟩

/-- A session of the role finds the attachment. -/
def findsOne (c : Conf Op Op.Res Tables Request Unit) : Bool :=
  match Prog.eval Tables.exec { processed := [policyKey managedOwner "view"] }
      (resolve acceptAll adminStore adminSession).run c.store with
  | some (.ok [found], _) => found.attachment.revision == "r2"
  | _ => false

theorem attachment_index_coherent_session :
    ∃ (c : Conf Op Op.Res Tables Request Unit) (caller : Principal) (xs : List Choice)
      (found : List ResolvedAttachment) (d' : Tables) (listed : List StoredAttachment),
      (stores acceptAll "us-east-1").Reachable Unattached c ∧ found.length = 1 ∧
      IndexCoherent acceptAll "us-east-1" c.store ∧
      Evals Tables.exec xs (resolve acceptAll adminStore adminSession).run c.store (.ok found) d' ∧
      checkedIdentity adminSession = .ok caller ∧
      Evals Tables.exec [{}, {}] (listAttachments acceptAll adminStore).run c.store
        (.ok listed) c.store ∧
      (found.map (·.attachment)).Perm (listed.filter (accepts caller)) := by
  have hrun : ∃ c,
    (stores acceptAll "us-east-1").runSchedule attachToRole ⟨published, []⟩ = some c ∧
      findsOne c = true := by
    refine (Option.any_eq_true _ _).mp ?_
    decide +kernel
  obtain ⟨c, hc, hfound⟩ := hrun
  have hreach : (stores acceptAll "us-east-1").Reachable Unattached c :=
    ⟨published, fun _ => rfl, System.run_of_schedule hc⟩
  simp only [findsOne] at hfound
  split at hfound
  · rename_i found d' heval
    obtain ⟨xs, hxs⟩ := evals_of_eval heval
    obtain ⟨hcoh, hres⟩ := attachment_index_coherent hreach
    obtain ⟨caller, listed, hcaller, hlist, hperm⟩ :=
      hres "123456789012" "us-east-1" adminSession xs [found] d' (by decide +kernel) hxs
    exact ⟨c, caller, xs, [found], d', listed, hreach, rfl, hcoh, hxs, hcaller, hlist, hperm⟩
  · cases hfound

end Seaplane.Authz
