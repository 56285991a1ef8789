import Mathlib.Data.List.AList
import Mathlib.Data.List.Sort
import Mathlib.Data.String.Basic
import Seaplane.Authz.Arn
import Seaplane.Lib.Fallible

/-!
The authorization store of an account: policies and attachments in three DynamoDB tables that all
accounts of a region share.

An attachment lies in two rows of its table, one under its account and one under the lookup key of
its principal; both are written in one transaction. Reads are strongly consistent, and all pages
of a query are one read. The template language and Cedar are parameters, and so is the format of
UUIDs.
-/

namespace Seaplane.Authz

open Lib

/-! ### Records -/

inductive PolicyKind where
  | custom
  | managed
  | other (text : String)
  deriving DecidableEq, Repr

structure PolicyRef where
  id : String
  kind : PolicyKind
  deriving DecidableEq, Repr

structure StoredPolicy where
  id : String
  ownerAccountID : String
  content : String
  revision : String
  kind : PolicyKind
  deriving DecidableEq, Repr

inductive AttachmentScope where
  | globalScope
  | regionalScope
  | other (text : String)
  deriving DecidableEq, Repr

def AttachmentScope.text : AttachmentScope → String
  | .globalScope => "global"
  | .regionalScope => "regional"
  | .other text => text

structure AttachmentSpec where
  policy : PolicyRef
  principalARN : String
  scope : AttachmentScope
  deriving DecidableEq, Repr

structure StoredAttachment extends AttachmentSpec where
  id : String
  ownerAccountID : String
  region : String
  revision : String
  deriving DecidableEq, Repr

/-- The record attribute of a row: JSON that decodes to a record, or not. -/
inductive Payload (α : Type) where
  | absent
  | malformed
  | json (record : α)
  deriving DecidableEq

structure Item (α : Type) where
  revision : Option String
  record : Payload α
  deriving DecidableEq

structure ItemKey where
  pk : String
  sk : String
  deriving DecidableEq, Repr

/-- `storeItem`. -/
def storeItem {α : Type} (revision : String) (record : α) : Item α := ⟨some revision, .json record⟩

def policySK (id : String) : String := "POLICY#" ++ id
def attachmentSK (id : String) : String := "ATTACHMENT#" ++ id

/-! ### Tables and what is done on them -/

abbrev Rows (α : Type) := AList fun _ : ItemKey => Item α

inductive AttachmentTable where
  | globalTable
  | regionalTable
  deriving DecidableEq, Repr

structure Tables where
  policies : Rows StoredPolicy
  attachments : AttachmentTable → Rows StoredAttachment

/-- All rows under a partition key, by their sort keys. -/
def Rows.query {α : Type} (rows : Rows α) (pk : String) : List (ItemKey × Item α) :=
  (((rows.keys.filter (·.pk == pk)).map (·.sk)).insertionSort (· ≤ ·)).filterMap fun sk =>
    (rows.lookup ⟨pk, sk⟩).map fun item => (⟨pk, sk⟩, item)

variable {α : Type}

lemma Rows.mem_query {rows : Rows α} {pk : String} {k : ItemKey} {item : Item α} :
    (k, item) ∈ rows.query pk ↔ k.pk = pk ∧ rows.lookup k = some item := by
  simp only [Rows.query, List.mem_filterMap, Option.map_eq_some_iff, Prod.mk.injEq]
  constructor
  · rintro ⟨sk, -, item', hl, rfl, rfl⟩
    exact ⟨rfl, hl⟩
  · rintro ⟨rfl, hl⟩
    refine ⟨k.sk, ?_, item, hl, rfl, rfl⟩
    rw [List.mem_insertionSort, List.mem_map]
    refine ⟨k, List.mem_filter.mpr ⟨?_, by simp⟩, rfl⟩
    exact AList.mem_keys.mp (AList.lookup_isSome.mp (by rw [hl]; rfl))

lemma Rows.nodup_sks (rows : Rows α) (pk : String) :
    ((rows.keys.filter (·.pk == pk)).map (·.sk)).Nodup := by
  refine List.Nodup.map_on ?_ (rows.keys_nodup.filter _)
  intro k hk k' hk' hsk
  have h1 := (List.mem_filter.mp hk).2
  have h2 := (List.mem_filter.mp hk').2
  simp only [beq_iff_eq] at h1 h2
  cases k
  cases k'
  simp_all

lemma Rows.nodup_query (rows : Rows α) (pk : String) : ((rows.query pk).map Prod.fst).Nodup := by
  have hsk : (((rows.keys.filter (·.pk == pk)).map (·.sk)).insertionSort (· ≤ ·)).Nodup :=
    (List.perm_insertionSort _ _).nodup_iff.mpr (rows.nodup_sks pk)
  rw [Rows.query, List.map_filterMap]
  refine hsk.filterMap ?_
  intro sk sk' k hk hk'
  simp only [Option.map_map, Option.mem_def, Option.map_eq_some_iff, Function.comp] at hk hk'
  obtain ⟨_, -, rfl⟩ := hk
  obtain ⟨_, -, h⟩ := hk'
  exact (ItemKey.mk.inj h).2.symm

lemma Rows.query_congr {rows rows' : Rows α} {pk : String}
    (h : ∀ sk, rows.lookup ⟨pk, sk⟩ = rows'.lookup ⟨pk, sk⟩) : rows.query pk = rows'.query pk := by
  have hmem : ∀ sk, sk ∈ (rows.keys.filter (·.pk == pk)).map (·.sk) ↔
      sk ∈ (rows'.keys.filter (·.pk == pk)).map (·.sk) := by
    have hkey : ∀ (rows : Rows α) sk, sk ∈ (rows.keys.filter (·.pk == pk)).map (·.sk) ↔
        (rows.lookup ⟨pk, sk⟩).isSome := by
      intro rows sk
      rw [AList.lookup_isSome, List.mem_map]
      constructor
      · rintro ⟨k, hk, rfl⟩
        obtain ⟨hk, hpk⟩ := List.mem_filter.mp hk
        rw [beq_iff_eq] at hpk
        rw [← hpk]
        exact AList.mem_keys.mpr hk
      · intro hk
        exact ⟨⟨pk, sk⟩, List.mem_filter.mpr ⟨AList.mem_keys.mp hk, by simp⟩, rfl⟩
    intro sk
    rw [hkey, hkey, h]
  have hperm := (List.perm_ext_iff_of_nodup (rows.nodup_sks pk) (rows'.nodup_sks pk)).mpr hmem
  have hsort := List.Perm.eq_of_pairwise (fun (a b : String) _ _ => le_antisymm)
    (List.pairwise_insertionSort (· ≤ ·) ((rows.keys.filter (·.pk == pk)).map (·.sk)))
    (List.pairwise_insertionSort (· ≤ ·) ((rows'.keys.filter (·.pk == pk)).map (·.sk)))
    ((List.perm_insertionSort _ _).trans (hperm.trans (List.perm_insertionSort _ _).symm))
  unfold Rows.query
  rw [hsort]
  simp only [h]

/-- `attribute_not_exists(pk)` and `revision = :expected`. -/
inductive Condition where
  | createOnly
  | matchRevision (expected : String)
  deriving DecidableEq

def Condition.holds {α : Type} : Condition → Option (Item α) → Bool
  | .createOnly, row => row.isNone
  | .matchRevision expected, row => row.any (·.revision == some expected)

inductive Write where
  | putAttachment (table : AttachmentTable) (key : ItemKey) (item : Item StoredAttachment)
      (condition : Condition)
  | deleteAttachment (table : AttachmentTable) (key : ItemKey) (condition : Condition)
  | putPolicy (key : ItemKey) (item : Item StoredPolicy) (condition : Condition)
  | deletePolicy (key : ItemKey) (condition : Condition)
  | checkPolicy (key : ItemKey) (condition : Condition)

namespace Tables

def setAttachments (d : Tables) (table : AttachmentTable)
    (f : Rows StoredAttachment → Rows StoredAttachment) : Tables :=
  { d with attachments := Function.update d.attachments table (f (d.attachments table)) }

def permits (d : Tables) : Write → Bool
  | .putAttachment table key _ c => c.holds ((d.attachments table).lookup key)
  | .deleteAttachment table key c => c.holds ((d.attachments table).lookup key)
  | .putPolicy key _ c => c.holds (d.policies.lookup key)
  | .deletePolicy key c => c.holds (d.policies.lookup key)
  | .checkPolicy key c => c.holds (d.policies.lookup key)

def apply (d : Tables) : Write → Tables
  | .putAttachment table key item _ => d.setAttachments table (·.insert key item)
  | .deleteAttachment table key _ => d.setAttachments table (·.erase key)
  | .putPolicy key item _ => { d with policies := d.policies.insert key item }
  | .deletePolicy key _ => { d with policies := d.policies.erase key }
  | .checkPolicy _ _ => d

/-- All writes of a transaction, if all conditions hold. -/
def transact (d : Tables) (writes : List Write) : Option Tables :=
  if writes.all d.permits then some (writes.foldl apply d) else none

end Tables

inductive Op where
  | getPolicy (key : ItemKey)
  | getAttachment (table : AttachmentTable) (key : ItemKey)
  | queryAttachments (table : AttachmentTable) (pk : String)
  | batchGetPolicies (keys : List ItemKey)
  /-- The pause before a batch is tried again, unless the request is over. -/
  | backoff
  /-- `TransactWriteItems`, and `PutItem` and `DeleteItem` as transactions of one write. -/
  | write (writes : List Write)

def Op.Res : Op → Type
  | .getPolicy _ => Except AuthzError (Option (Item StoredPolicy))
  | .getAttachment _ _ => Except AuthzError (Option (Item StoredAttachment))
  | .queryAttachments _ _ => Except AuthzError (List (ItemKey × Item StoredAttachment))
  | .batchGetPolicies _ => Except AuthzError (List (ItemKey × Item StoredPolicy) × List ItemKey)
  | .backoff => Except AuthzError Unit
  | .write _ => Except AuthzError Unit

inductive Fault where
  | none
  /-- An error, and nothing was done. -/
  | refused
  /-- An error although the write was committed. -/
  | lost
  deriving DecidableEq

/-- What the backend decides: whether it fails, and which keys of a batch it answers, in which
order. -/
structure Choice where
  fault : Fault := .none
  processed : List ItemKey := []

def answer {α : Type} (x : Choice) (a : α) : Except AuthzError α :=
  if x.fault = .none then .ok a else .error .unavailable

def Tables.exec : (o : Op) → Choice → Tables → Option (o.Res × Tables)
  | .getPolicy key, x, d => some (answer x (d.policies.lookup key), d)
  | .getAttachment table key, x, d => some (answer x ((d.attachments table).lookup key), d)
  | .queryAttachments table pk, x, d => some (answer x ((d.attachments table).query pk), d)
  | .batchGetPolicies keys, x, d =>
    if x.processed.Nodup ∧ ∀ k ∈ x.processed, k ∈ keys then
      some (answer x (x.processed.filterMap fun k => (d.policies.lookup k).map fun i => (k, i),
        keys.filter (· ∉ x.processed)), d)
    else none
  | .backoff, x, d => some (if x.fault = .none then .ok () else .error (.text "context done"), d)
  | .write writes, x, d =>
    match x.fault with
    | .none =>
      match d.transact writes with
      | some d' => some (.ok (), d')
      | none => some (.error .conflict, d)
    | .refused => some (.error .unavailable, d)
    | .lost => some (.error .unavailable, (d.transact writes).getD d)

abbrev StoreM (α : Type) := Fallible Op Op.Res AuthzError α

abbrev check {α : Type} (e : Except AuthzError α) : StoreM α := Fallible.ofExcept e

def call (o : Op) {α : Type} (h : o.Res = Except AuthzError α) : StoreM α :=
  ExceptT.mk (.op o fun r => .ret (cast h r))

/-! ### The store -/

/-- The account of a store, the region it runs in and the region of the account's global writes. -/
structure StoreConfig where
  accountID : String
  region : String
  writerRegion : String
  deriving DecidableEq, Repr

/-- `uuid.Validate`, and Cedar with the package's schema. -/
structure Cedar (Policy : Type) where
  uuidValidate : String → Bool
  /-- `bindPolicy`: content, ID and the principal of a template slot. -/
  bindPolicy : String → String → Principal → Except AuthzError Policy

section Store

variable {Policy : Type} (cedar : Cedar Policy) (cfg : StoreConfig)

/-- `NewStore`. -/
def newStore : Except AuthzError Unit :=
  if !accountPattern cfg.accountID || !regionPattern cfg.region || !regionPattern cfg.writerRegion
  then .error (.text "invalid authorization store configuration")
  else .ok ()

def requireWriter : Except AuthzError Unit :=
  if cfg.region != cfg.writerRegion then .error .wrongWriter else .ok ()

def isStoreID (id : String) : Bool := id.utf8ByteSize ≤ 128 && idPattern id

def isRevision (revision : String) : Bool :=
  revision != "00000000-0000-0000-0000-000000000000" && cedar.uuidValidate revision

def decodeItem {α : Type} (item : Item α) : Except AuthzError (α × String) :=
  match item.record with
  | .absent => .error (.text "malformed authorization record")
  | .malformed =>
    if item.revision.any (isRevision cedar) then .error (.text "invalid JSON")
    else .error (.text "malformed authorization revision")
  | .json record =>
    match item.revision with
    | none => .error (.text "malformed authorization revision")
    | some revision =>
      if isRevision cedar revision then .ok (record, revision)
      else .error (.text "malformed authorization revision")

/-- `readItem`: the row, or `ErrNotFound`. -/
def found {α : Type} : Option (Item α) → Except AuthzError (Item α)
  | none => .error .notFound
  | some item => .ok item

/-! ### Policies -/

def managedOwner : String := "MANAGED"

def policyOwner (ref : PolicyRef) : Except AuthzError String :=
  if !isStoreID ref.id then .error (.validation (.text "invalid policy ID"))
  else
    match ref.kind with
    | .custom => .ok cfg.accountID
    | .managed => .ok managedOwner
    | .other _ => .error (.validation (.text "invalid policy kind"))

def policyKey (owner id : String) : ItemKey := ⟨accountKey owner, policySK id⟩

/-- A template is checked with a principal that stands for any. -/
def checkContent (content id : String) : Except AuthzError Unit :=
  match cedar.bindPolicy content id ⟨"", "", .user, "", "template-validation"⟩ with
  | .ok _ => .ok ()
  | .error e => .error (.validation e)

def decodePolicy (key : ItemKey) (item : Item StoredPolicy) : Except AuthzError StoredPolicy := do
  let (policy, revision) ← decodeItem cedar item
  match policyOwner cfg ⟨policy.id, policy.kind⟩ with
  | .error _ => throw (.text "inconsistent policy record")
  | .ok owner =>
    if policy.ownerAccountID != owner || policy.revision != revision ||
        key != policyKey owner policy.id then
      throw (.text "inconsistent policy record")
    return policy

def getPolicy (ref : PolicyRef) : StoreM StoredPolicy := do
  let owner ← check (policyOwner cfg ref)
  let row ← call (.getPolicy (policyKey owner ref.id)) rfl
  let item ← check (found row)
  check (decodePolicy cedar cfg (policyKey owner ref.id) item)

/-- The condition of a write: a new record, or one with the expected revision. -/
def condition (expected : String) : Condition :=
  if expected == "" then .createOnly else .matchRevision expected

/-- `writePolicy`, with the revision it generates. -/
def writePolicy (id expected content revision : String) : StoreM StoredPolicy := do
  check (requireWriter cfg)
  if !isStoreID id then throw (.validation (.text "invalid policy ID"))
  check (checkContent cedar content id)
  let policy : StoredPolicy := ⟨id, cfg.accountID, content, revision, .custom⟩
  call (.write [.putPolicy (policyKey cfg.accountID id) (storeItem revision policy)
    (condition expected)]) rfl
  return policy

def createPolicy (id content revision : String) : StoreM StoredPolicy :=
  writePolicy cedar cfg id "" content revision

def updatePolicy (id expected content revision : String) : StoreM StoredPolicy := do
  if !isRevision cedar expected then throw (.validation (.text "expected revision is required"))
  writePolicy cedar cfg id expected content revision

def deletePolicy (id revision : String) : StoreM Unit := do
  check (requireWriter cfg)
  if !isStoreID id || !isRevision cedar revision then
    throw (.validation (.text "valid policy ID and expected revision required"))
  call (.write [.deletePolicy (policyKey cfg.accountID id) (.matchRevision revision)]) rfl

/-- `PublishManagedPolicy`, with the revision it generates. -/
def publishManagedPolicy (id content revision : String) : StoreM StoredPolicy := do
  if !isStoreID id then throw (.text "invalid catalog publication")
  check (checkContent cedar content id)
  let policy : StoredPolicy := ⟨id, managedOwner, content, revision, .managed⟩
  call (.write [.putPolicy (policyKey managedOwner id) (storeItem revision policy) .createOnly]) rfl
  return policy

/-! ### Attachments -/

def attachmentTable : AttachmentScope → Except AuthzError AttachmentTable
  | .globalScope => .ok .globalTable
  | .regionalScope => .ok .regionalTable
  | .other _ => .error (.validation (.text "invalid attachment scope"))

def checkedScope (scope : AttachmentScope) (region : String) : Except AuthzError Unit :=
  if scope = .globalScope ∧ region = "" then .ok ()
  else if scope = .regionalScope ∧ regionPattern region then .ok ()
  else .error (.text "invalid attachment scope or region")

def checkAttachment (binding : StoredAttachment) : Except AuthzError Unit := do
  let principal ← parsePrincipal binding.principalARN
  if !isStoreID binding.id || !isRevision cedar binding.revision ||
      binding.ownerAccountID != cfg.accountID || principal.account != cfg.accountID then
    throw (.text "invalid attachment identity")
  let _ ← policyOwner cfg binding.policy
  checkedScope binding.scope binding.region
  if binding.scope = .regionalScope ∧ binding.region ≠ cfg.region then
    throw (.text "foreign regional attachment")

def getAttachment (scope : AttachmentScope) (id : String) : StoreM StoredAttachment := do
  let table ← check (attachmentTable scope)
  if !isStoreID id then throw (.validation (.text "invalid attachment ID"))
  let row ← call (.getAttachment table ⟨accountKey cfg.accountID, attachmentSK id⟩) rfl
  let item ← check (found row)
  let (binding, revision) ← check (decodeItem cedar item)
  if binding.id != id || binding.scope != scope || binding.revision != revision then
    throw (.text "inconsistent attachment identity")
  check (checkAttachment cedar cfg binding)
  return binding

/-- The two rows of an attachment and the check that its policy is still the one that was read. -/
def attachmentWrites (table : AttachmentTable) (binding : StoredAttachment) (principal : Principal)
    (expected : String) (policy : StoredPolicy) : List Write :=
  [.putAttachment table ⟨accountKey cfg.accountID, attachmentSK binding.id⟩
      (storeItem binding.revision binding) (condition expected),
    .putAttachment table ⟨principalKey principal, attachmentSK binding.id⟩
      (storeItem binding.revision binding) (condition expected),
    .checkPolicy (policyKey policy.ownerAccountID policy.id) (.matchRevision policy.revision)]

def writeAttachment (binding : StoredAttachment) (expected : String) :
    StoreM StoredAttachment := do
  let table ← check (attachmentTable binding.scope)
  if binding.scope = .globalScope then check (requireWriter cfg)
  check ((checkAttachment cedar cfg binding).mapError .validation)
  let policy ← getPolicy cedar cfg binding.policy
  check (checkContent cedar policy.content policy.id)
  let principal ← check (parsePrincipal binding.principalARN)
  call (.write (attachmentWrites cfg table binding principal expected policy)) rfl
  return binding

/-- `CreateAttachment`, with the ID and the revision it generates. -/
def createAttachment (spec : AttachmentSpec) (id revision : String) : StoreM StoredAttachment :=
  writeAttachment cedar cfg
    { spec with
      id := id, ownerAccountID := cfg.accountID, revision := revision
      region := if spec.scope = .regionalScope then cfg.region else "" } ""

/-- `UpdateAttachment`, with the revision it generates. -/
def updateAttachment (scope : AttachmentScope) (id expected : String) (policy : PolicyRef)
    (revision : String) : StoreM StoredAttachment := do
  let binding ← getAttachment cedar cfg scope id
  if !isRevision cedar expected || binding.revision != expected then throw .conflict
  writeAttachment cedar cfg { binding with policy := policy, revision := revision } expected

def deleteAttachment (scope : AttachmentScope) (id expected : String) : StoreM Unit := do
  if scope = .globalScope then check (requireWriter cfg)
  let binding ← getAttachment cedar cfg scope id
  if !isRevision cedar expected || binding.revision != expected then throw .conflict
  let table ← check (attachmentTable scope)
  let principal ← check (parsePrincipal binding.principalARN)
  call (.write
    [.deleteAttachment table ⟨accountKey cfg.accountID, attachmentSK id⟩ (.matchRevision expected),
      .deleteAttachment table ⟨principalKey principal, attachmentSK id⟩
        (.matchRevision expected)]) rfl

/-! ### Lookup -/

/-- One row that `readBindings` returns. -/
def readBinding (scope : AttachmentScope) (pk : String) (row : ItemKey × Item StoredAttachment) :
    Except AuthzError StoredAttachment := do
  let (binding, revision) ← decodeItem cedar row.2
  if binding.scope != scope || binding.revision != revision then
    throw (.text "inconsistent attachment record")
  checkAttachment cedar cfg binding
  let principal ← parsePrincipal binding.principalARN
  if row.1 != ⟨pk, attachmentSK binding.id⟩ ||
      (pk != accountKey cfg.accountID && pk != principalKey principal) then
    throw (.text "attachment lookup key mismatch")
  return binding

def readBindings (scope : AttachmentScope) (pk : String) : StoreM (List StoredAttachment) := do
  let table ← check (attachmentTable scope)
  let rows ← call (.queryAttachments table pk) rfl
  check (rows.mapM (readBinding cedar cfg scope pk))

def scopes : List AttachmentScope := [.globalScope, .regionalScope]

def listAttachments : StoreM (List StoredAttachment) :=
  scopes.foldlM (fun bindings scope => do
    let part ← readBindings cedar cfg scope (accountKey cfg.accountID)
    return bindings ++ part) []

/-! ### Resolution -/

/-- Scope, region and ID, joined for diagnostics. -/
def bindingDiagnosticID (binding : StoredAttachment) : String :=
  binding.scope.text ++ "/" ++ binding.region ++ "/" ++ binding.id

/-- The role that an alias stands for is recorded; another role with the same alias is refused. -/
def addRoleAlias (aliases : AList fun _ : String => String) (name role : String) :
    Except AuthzError (AList fun _ : String => String) :=
  if (aliases.lookup name).any (· != role) then .error (.ambiguousRoleAlias name)
  else .ok (aliases.insert name role)

/-- Only roles have aliases. -/
def noteRole (aliases : AList fun _ : String => String) (principal : Principal) :
    Except AuthzError (AList fun _ : String => String) :=
  if principal.kind = .role then addRoleAlias aliases principal.roleAlias principal.original
  else .ok aliases

/-- What the loops of `resolveScopes` carry. -/
structure Gathered where
  bindings : List StoredAttachment := []
  aliases : AList (fun _ : String => String) := ∅
  bindingIDs : List String := []

def gather (caller : Principal) (g : Gathered) (binding : StoredAttachment) :
    Except AuthzError Gathered := do
  let principal ← parsePrincipal binding.principalARN
  if !matchesPrincipal principal caller then throw (.text "principal lookup mismatch")
  let aliases ← noteRole g.aliases principal
  if bindingDiagnosticID binding ∈ g.bindingIDs then throw (.text "duplicate attachment identity")
  return ⟨g.bindings ++ [binding], aliases, bindingDiagnosticID binding :: g.bindingIDs⟩

abbrev PolicyMap := AList fun _ : PolicyRef => StoredPolicy

def addPolicy (refs : List PolicyRef) (policies : PolicyMap) (row : ItemKey × Item StoredPolicy) :
    Except AuthzError PolicyMap := do
  let policy ← decodePolicy cedar cfg row.1 row.2
  if (⟨policy.id, policy.kind⟩ : PolicyRef) ∉ refs then
    throw (.text "inconsistent referenced policy")
  if (⟨policy.id, policy.kind⟩ : PolicyRef) ∈ policies then
    throw (.text "duplicate referenced policy")
  return policies.insert ⟨policy.id, policy.kind⟩ policy

def batchAttempts : ℕ := 4

/-- The attempts at one batch, as many as are left; the first one is made at once. -/
def fetchBatch (refs : List PolicyRef) : ℕ → List ItemKey → PolicyMap → StoreM PolicyMap
  | 0, pending, policies =>
    if pending = [] then pure policies else throw .unavailable
  | n + 1, pending, policies =>
    if pending = [] then pure policies
    else do
      if n + 1 < batchAttempts then call .backoff rfl
      let out ← call (.batchGetPolicies pending) rfl
      let policies ← check (out.1.foldlM (addPolicy cedar cfg refs) policies)
      fetchBatch refs n out.2 policies

/-- The distinct references, in the order of their first use. -/
def policyRefs (bindings : List StoredAttachment) : List PolicyRef :=
  bindings.foldl (fun refs b => if b.policy ∈ refs then refs else refs ++ [b.policy]) []

/-- Consecutive parts of `n` elements; the first argument bounds their number. -/
def batches {α : Type} (n : ℕ) : ℕ → List α → List (List α)
  | 0, _ => []
  | _ + 1, [] => []
  | k + 1, x :: xs => (x :: xs).take n :: batches n k ((x :: xs).drop n)

def batchSize : ℕ := 100

def loadPolicies (bindings : List StoredAttachment) : StoreM PolicyMap :=
  let refs := policyRefs bindings
  (batches batchSize refs.length refs).foldlM (fun policies batch => do
    let keys ← check (batch.mapM fun ref => do
      let owner ← policyOwner cfg ref
      return policyKey owner ref.id)
    fetchBatch cedar cfg refs batchAttempts keys policies) ∅

structure ResolvedAttachment where
  attachment : StoredAttachment
  policy : StoredPolicy
  deriving DecidableEq, Repr

/-- The policy of a binding among those that were loaded. -/
def withPolicy (policies : PolicyMap) (binding : StoredAttachment) :
    Except AuthzError ResolvedAttachment :=
  match policies.lookup binding.policy with
  | none => .error (.referencedPolicy binding.policy.id)
  | some policy => .ok ⟨binding, policy⟩

def resolveScopes (id : Identity) (scopes : List AttachmentScope) :
    StoreM (List ResolvedAttachment) := do
  let caller ← check (checkedIdentity id)
  if caller.account != cfg.accountID || id.isAllowlisted then
    throw (.text "store identity must match account without allowlist bypass")
  let g ← (scopes.product (lookupKeys caller)).foldlM (fun g (scope, pk) => do
    let part ← readBindings cedar cfg scope pk
    check (part.foldlM (gather caller) g)) {}
  let policies ← loadPolicies cedar cfg g.bindings
  check (g.bindings.mapM (withPolicy policies))

def resolve (id : Identity) : StoreM (List ResolvedAttachment) :=
  resolveScopes cedar cfg id scopes

end Store

end Seaplane.Authz
