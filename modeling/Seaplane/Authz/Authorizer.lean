import Mathlib.Data.Finmap
import Seaplane.Authz.Store
import Seaplane.Kube.Object

/-!
The authorizer: which policies and entities Cedar is given for a caller and a request, and what is
made of its verdict.

The attachments come from a bundle that is loaded at start, or from the authorization store for
each request. Parsing and validating Cedar policies, validating entities and requests, and
evaluating are parameters; a bundle is given by its decoded records.
-/

namespace Seaplane.Authz

open Lib
open Kube (StringMap accountIDLabel)

/-! ### What Cedar is given -/

structure EntityUID where
  type : String
  id : String
  deriving DecidableEq, Repr

def entityUID (kind id : String) : EntityUID := ⟨"Seaplane::" ++ kind, id⟩

inductive Value where
  | string (s : String)
  | long (n : ℤ)
  | entity (uid : EntityUID)
  | record (fields : List (String × Value))

structure Entity where
  uid : EntityUID
  parents : Finset EntityUID := ∅
  attributes : List (String × Value) := []
  tags : StringMap := []

abbrev EntityMap := Finmap fun _ : EntityUID => Entity

abbrev PolicySet (Policy : Type) := Finmap fun _ : String => Policy

structure CedarRequest where
  principal : EntityUID
  action : EntityUID
  resource : EntityUID
  context : List (String × Value)

/-- The verdict of an evaluation and the policies behind it, or those whose evaluation failed. -/
structure Verdict where
  allow : Bool
  reasons : List String
  errors : List String

structure Engine (Policy : Type) extends Cedar Policy where
  /-- `checkedPolicy`: content and ID. -/
  checkedPolicy : String → String → Except AuthzError Policy
  /-- The action entities of the schema. -/
  actions : EntityMap
  validateEntities : EntityMap → Except AuthzError Unit
  validateRequest : CedarRequest → Except AuthzError Unit
  evaluate : PolicySet Policy → EntityMap → CedarRequest → Except AuthzError Verdict

/-! ### Attachments and failures -/

structure Provenance where
  diagnosticID : String := ""
  policyID : String := ""
  bundleHash : String := ""
  attachmentID : String := ""
  policyRevision : String := ""
  attachmentRevision : String := ""
  deriving DecidableEq, Repr

inductive Stage where
  | resolution
  | parsing
  | binding
  | entityValidation
  | evaluation
  deriving DecidableEq, Repr

structure Failure where
  stage : Stage
  err : AuthzError
  provenance : List Provenance := []
  deriving DecidableEq, Repr

/-- The errors of `Prepare`: a failure, or an error of the backend as it is. -/
inductive PrepareError where
  | failure (f : Failure)
  | backend (e : AuthzError)
  deriving DecidableEq, Repr

/-- `policyAttachment`. -/
structure PolicyAttachment (Policy : Type) extends Provenance where
  policy : Policy
  principal : Principal
  scope : AttachmentScope
  region : String

/-- `Authorizer`, without its engine. -/
structure Authorizer (Policy : Type) where
  bundleHash : String := ""
  customer : List (PolicyAttachment Policy) := []
  allowlist : Option Policy := none
  region : String
  accounts : List String := []

/-- The context of a request: whether it is over when a call begins and when it ends. -/
structure Ctx where
  before : Option AuthzError := none
  after : Option AuthzError := none

def ctxErr (stage : Stage) : Option AuthzError → Except Failure Unit
  | none => .ok ()
  | some e => .error { stage := stage, err := e }

/-- A time, as seconds and nanoseconds since the epoch. -/
structure RequestTime where
  seconds : ℤ
  nanos : ℕ
  deriving DecidableEq, Repr

namespace RequestTime

/-- The first second of year one. -/
def isZero (t : RequestTime) : Bool := t.seconds == -62135596800 && t.nanos == 0

/-- `Weekday` in UTC, Sunday is zero. -/
def weekday (t : RequestTime) : ℤ := (t.seconds / 86400 + 4) % 7

def hour (t : RequestTime) : ℤ := (t.seconds / 3600) % 24

/-- Monday is one, Sunday is seven. -/
def dayOfWeek (t : RequestTime) : ℤ := if t.weekday = 0 then 7 else t.weekday

end RequestTime

structure RequestContext where
  sourceIP : String
  userAgent : String
  requestTime : RequestTime
  requestLabels : StringMap

/-! ### Prepare -/

structure Prepared (Policy : Type) where
  identity : Identity
  region : String
  principal : EntityUID
  entities : EntityMap
  policies : PolicySet Policy
  requestContext : List (String × Value)
  provenance : Finmap fun _ : String => Provenance

/-- Global attachments apply everywhere, regional ones in their region. -/
def appliesInRegion (scope : AttachmentScope) (attachmentRegion requestRegion : String) : Bool :=
  scope = .globalScope || (scope = .regionalScope && attachmentRegion == requestRegion)

/-- What the loop over the attachments carries. -/
structure Selected (Policy : Type) where
  policies : PolicySet Policy := ∅
  provenance : Finmap (fun _ : String => Provenance) := ∅
  entities : EntityMap
  parents : Finset EntityUID := ∅

section Prepare

variable {Policy : Type}

def accountAttrs (account : String) : List (String × Value) := [("account", .string account)]

def select (account : String) (acc : Selected Policy) (binding : PolicyAttachment Policy) :
    Selected Policy :=
  let acc := { acc with
    policies := acc.policies.insert binding.diagnosticID binding.policy
    provenance := acc.provenance.insert binding.diagnosticID binding.toProvenance }
  if binding.principal.kind = .role then
    let role := entityUID "Role" binding.principal.original
    { acc with
      entities := acc.entities.insert role { uid := role, attributes := accountAttrs account }
      parents := insert role acc.parents }
  else acc

def requestLabelsUID : EntityUID := entityUID "RequestLabels" "request"

def contextRecord (region : String) (id : Identity) (req : RequestContext) :
    List (String × Value) :=
  [("region", .string region), ("accountId", .string id.accountID),
    ("principalArn", .string id.callerARN), ("sourceIp", .string req.sourceIP),
    ("userAgent", .string req.userAgent),
    ("requestTime", .record [("unixSeconds", .long req.requestTime.seconds),
      ("dayOfWeek", .long req.requestTime.dayOfWeek), ("hour", .long req.requestTime.hour)]),
    ("requestLabels", .entity requestLabelsUID)]

variable (engine : Engine Policy)

/-- The entities that every request has: its labels and the schema's actions. -/
def baseEntities (req : RequestContext) : EntityMap :=
  engine.actions ∪ (∅ : EntityMap).insert requestLabelsUID
    { uid := requestLabelsUID, tags := req.requestLabels }

/-- The allowlist's grant, for the callers that are on it. -/
def addAllowlist (a : Authorizer Policy) (id : Identity) (acc : Selected Policy) :
    Selected Policy :=
  match id.isAllowlisted, a.allowlist with
  | true, some policy =>
    let diagnosticID := "allowlist/" ++ id.accountID
    { acc with
      policies := acc.policies.insert diagnosticID policy
      provenance := acc.provenance.insert diagnosticID
        { diagnosticID := diagnosticID, policyID := "allowlist", bundleHash := a.bundleHash } }
  | _, _ => acc

/-- The attachments that apply to a caller in a region. -/
def applicable (region : String) (caller : Principal) (customer : List (PolicyAttachment Policy)) :
    List (PolicyAttachment Policy) :=
  customer.filter fun b =>
    matchesPrincipal b.principal caller && appliesInRegion b.scope b.region region

def selection (a : Authorizer Policy) (id : Identity) (caller : Principal) (req : RequestContext) :
    Selected Policy :=
  addAllowlist a id ((applicable a.region caller a.customer).foldl (select id.accountID)
    { entities := baseEntities engine req })

def Authorizer.prepare (a : Authorizer Policy) (ctx : Ctx) (id : Identity) (req : RequestContext) :
    Except Failure (Prepared Policy) := do
  ctxErr .resolution ctx.before
  let caller ← (checkedIdentity id).mapError fun e => { stage := .resolution, err := e }
  if req.requestTime.isZero then
    throw { stage := .resolution, err := .text "request time is required" }
  let acc := selection engine a id caller req
  let principal := entityUID "Principal" id.callerARN
  let entities := acc.entities.insert principal
    { uid := principal, parents := acc.parents, attributes := accountAttrs id.accountID }
  (engine.validateEntities entities).mapError fun e => { stage := .entityValidation, err := e }
  ctxErr .resolution ctx.after
  return {
    identity := id, region := a.region, principal := principal, entities := entities
    policies := acc.policies, requestContext := contextRecord a.region id req
    provenance := acc.provenance }

end Prepare

/-! ### Check -/

inductive ResourceKind where
  | collection
  | cluster
  | nodePool
  | oidcConfig
  | dnsReservation
  | policy
  | attachment
  | regionalAttachment
  deriving DecidableEq, Repr

def ResourceKind.text : ResourceKind → String
  | .collection => "Collection"
  | .cluster => "Cluster"
  | .nodePool => "NodePool"
  | .oidcConfig => "OIDCConfig"
  | .dnsReservation => "DNSReservation"
  | .policy => "Policy"
  | .attachment => "Attachment"
  | .regionalAttachment => "RegionalAttachment"

/-- The actions of a kind of resource, and the label actions; `other` is any unsupported text. -/
inductive Action where
  | listLabelsForResource | labelResource | unlabelResource
  | listClusters | describeCluster | createCluster | updateCluster | updateClusterConfig
  | updateClusterVersion | deleteCluster
  | listNodePools | describeNodePool | createNodePool | updateNodePool | scaleNodePool
  | updateNodePoolVersion | deleteNodePool
  | listOIDCConfigs | describeOIDCConfig | createOIDCConfig | deleteOIDCConfig
  | listDNSReservations | describeDNSReservation | createDNSReservation | deleteDNSReservation
  | createPolicy | listPolicies | describePolicy | updatePolicy | deletePolicy
  | createAttachment | listAttachments | deleteAttachment
  | createAttachmentRegional | listAttachmentsRegional | deleteAttachmentRegional
  | other (text : String)
  deriving DecidableEq, Repr

namespace Action

def text : Action → String
  | listLabelsForResource => "ListLabelsForResource"
  | labelResource => "LabelResource"
  | unlabelResource => "UnlabelResource"
  | listClusters => "ListClusters"
  | describeCluster => "DescribeCluster"
  | createCluster => "CreateCluster"
  | updateCluster => "UpdateCluster"
  | updateClusterConfig => "UpdateClusterConfig"
  | updateClusterVersion => "UpdateClusterVersion"
  | deleteCluster => "DeleteCluster"
  | listNodePools => "ListNodePools"
  | describeNodePool => "DescribeNodePool"
  | createNodePool => "CreateNodePool"
  | updateNodePool => "UpdateNodePool"
  | scaleNodePool => "ScaleNodePool"
  | updateNodePoolVersion => "UpdateNodePoolVersion"
  | deleteNodePool => "DeleteNodePool"
  | listOIDCConfigs => "ListOIDCConfigs"
  | describeOIDCConfig => "DescribeOIDCConfig"
  | createOIDCConfig => "CreateOIDCConfig"
  | deleteOIDCConfig => "DeleteOIDCConfig"
  | listDNSReservations => "ListDNSReservations"
  | describeDNSReservation => "DescribeDNSReservation"
  | createDNSReservation => "CreateDNSReservation"
  | deleteDNSReservation => "DeleteDNSReservation"
  | createPolicy => "CreatePolicy"
  | listPolicies => "ListPolicies"
  | describePolicy => "DescribePolicy"
  | updatePolicy => "UpdatePolicy"
  | deletePolicy => "DeletePolicy"
  | createAttachment => "CreateAttachment"
  | listAttachments => "ListAttachments"
  | deleteAttachment => "DeleteAttachment"
  | createAttachmentRegional => "CreateAttachmentRegional"
  | listAttachmentsRegional => "ListAttachmentsRegional"
  | deleteAttachmentRegional => "DeleteAttachmentRegional"
  | other text => text

/-- `actionResourceKind`; the label actions have no kind of their own. -/
def resourceKind : Action → Option ResourceKind
  | createPolicy | listPolicies | describePolicy | updatePolicy | deletePolicy => some .policy
  | createAttachment | listAttachments | deleteAttachment => some .attachment
  | createAttachmentRegional | listAttachmentsRegional | deleteAttachmentRegional =>
    some .regionalAttachment
  | listClusters | describeCluster | createCluster | updateCluster | updateClusterConfig
  | updateClusterVersion | deleteCluster => some .cluster
  | listNodePools | describeNodePool | createNodePool | updateNodePool | scaleNodePool
  | updateNodePoolVersion | deleteNodePool => some .nodePool
  | listOIDCConfigs | describeOIDCConfig | createOIDCConfig | deleteOIDCConfig => some .oidcConfig
  | listDNSReservations | describeDNSReservation | createDNSReservation | deleteDNSReservation =>
    some .dnsReservation
  | listLabelsForResource | labelResource | unlabelResource | other _ => none

/-- `listAction`: the action is on a collection; so are the creates of management. -/
def onCollection : Action → Bool
  | listClusters | listNodePools | listOIDCConfigs | listDNSReservations
  | createPolicy | listPolicies | createAttachment | listAttachments
  | createAttachmentRegional | listAttachmentsRegional => true
  | _ => false

def onLabels : Action → Bool
  | listLabelsForResource | labelResource | unlabelResource => true
  | _ => false

end Action

def collectionName : ResourceKind → String
  | .policy => "policies"
  | .attachment => "attachments"
  | .regionalAttachment => "regional_attachments"
  | .cluster => "clusters"
  | .nodePool => "nodepools"
  | .oidcConfig => "oidc_configs"
  | .dnsReservation => "dns_reservations"
  | .collection => ""

structure ParentCluster where
  id : String
  accountID : String
  labels : StringMap

structure Resource where
  kind : ResourceKind
  id : String
  accountID : String
  labels : StringMap
  collectionKind : Option ResourceKind
  parentCluster : Option ParentCluster

structure Decision where
  allowed : Bool
  provenance : List Provenance

namespace Prepared

variable {Policy : Type}

def checkedKind (action : Action) (resource : Resource) : Option ResourceKind :=
  if action.onLabels then
    match resource.kind with
    | .cluster | .nodePool | .oidcConfig | .dnsReservation => some resource.kind
    | _ => action.resourceKind
  else action.resourceKind

def validateResourceIdentity (p : Prepared Policy) (action : Action) (resource : Resource) :
    Except AuthzError ResourceKind :=
  match checkedKind action resource with
  | none => .error (.text "unsupported action")
  | some kind =>
    if resource.accountID != p.identity.accountID then
      .error (.text "resource ownership does not match identity account")
    else if (resource.labels.lookup accountIDLabel).any (· != resource.accountID) then
      .error (.text "resource account label contradicts ownership")
    else if resource.kind != .nodePool && resource.parentCluster.isSome then
      .error (.text "unexpected parent cluster")
    else if action.onCollection then
      if resource.kind != .collection || resource.id != "" || !resource.labels.isEmpty ||
          resource.parentCluster.isSome || resource.collectionKind != some kind then
        .error (.text "invalid collection identity or object metadata")
      else .ok kind
    else if resource.kind != kind || !idPattern resource.id ||
        resource.collectionKind.isSome then
      .error (.text "action requires a compatible resource with a stable ID")
    else .ok kind

/-- The parent of a NodePool, stored and of the same owner. -/
def ownedParent (resource : Resource) : Except AuthzError ParentCluster :=
  match resource.parentCluster with
  | none => .error (.text "node pool requires its owned stored parent")
  | some parent =>
    if !idPattern parent.id || parent.accountID != resource.accountID then
      .error (.text "node pool requires its owned stored parent")
    else if (parent.labels.lookup accountIDLabel).any (· != parent.accountID) then
      .error (.text "parent account label contradicts ownership")
    else .ok parent

def resourceEntities (p : Prepared Policy) (action : Action) (resource : Resource) :
    Except AuthzError (EntityMap × EntityUID) := do
  let kind ← p.validateResourceIdentity action resource
  let attrs := [("account", Value.string resource.accountID), ("region", Value.string p.region)]
  let place := resource.accountID ++ "/" ++ p.region ++ "/"
  let collection := entityUID "Collection" (place ++ collectionName kind)
  let entities := p.entities.insert collection { uid := collection, attributes := attrs }
  if action.onCollection then return (entities, collection)
  if kind = .nodePool then
    let parent ← ownedParent resource
    let clusterPlace := parent.accountID ++ "/" ++ p.region ++ "/"
    let clusters := entityUID "Collection" (clusterPlace ++ "clusters")
    let cluster := entityUID "Cluster" (clusterPlace ++ parent.id)
    let uid := entityUID kind.text (place ++ parent.id ++ "/" ++ resource.id)
    let entities := entities.insert clusters { uid := clusters, attributes := attrs }
    let entities := entities.insert cluster
      { uid := cluster, attributes := attrs, parents := {clusters}, tags := parent.labels }
    return (entities.insert uid
      { uid := uid, attributes := attrs, parents := {collection, cluster},
        tags := resource.labels },
      uid)
  else
    let uid := entityUID kind.text (place ++ resource.id)
    return (entities.insert uid
      { uid := uid, attributes := attrs, parents := {collection}, tags := resource.labels }, uid)

/-- The provenance of the policies of a verdict; whether all of them are known. -/
def mapProvenance (p : Prepared Policy) (ids : List String) : List Provenance × Bool :=
  let ids := (ids.insertionSort (· ≤ ·)).dedup
  (ids.filterMap p.provenance.lookup, ids.all fun id => (p.provenance.lookup id).isSome)

def check (engine : Engine Policy) (p : Prepared Policy) (ctx : Ctx) (action : Action)
    (resource : Resource) : Except Failure Decision := do
  ctxErr .evaluation ctx.before
  let (entities, uid) ← (p.resourceEntities action resource).mapError fun e =>
    { stage := .entityValidation, err := e }
  let req : CedarRequest := ⟨p.principal, entityUID "Action" action.text, uid, p.requestContext⟩
  (engine.validateEntities entities).mapError fun e => { stage := .entityValidation, err := e }
  (engine.validateRequest req).mapError fun e => { stage := .entityValidation, err := e }
  let verdict ← (engine.evaluate p.policies entities req).mapError fun e =>
    { stage := .evaluation, err := e }
  -- an evaluation error takes precedence over whatever Cedar decided
  if !verdict.errors.isEmpty then
    throw { stage := .evaluation
            err := if (p.mapProvenance verdict.errors).2 then .text "cedar evaluation diagnostics"
              else .text "cedar evaluation diagnostics, unknown diagnostic policy ID"
            provenance := (p.mapProvenance verdict.errors).1 }
  ctxErr .evaluation ctx.after
  if !(p.mapProvenance verdict.reasons).2 then
    throw { stage := .evaluation, err := .text "unknown diagnostic policy ID" }
  return ⟨verdict.allow, (p.mapProvenance verdict.reasons).1⟩

end Prepared

/-! ### Bundles -/

structure PolicyRecord where
  id : String
  ownerAccountID : String
  content : String
  deriving DecidableEq, Repr

structure AttachmentRecord where
  id : String
  policyID : String
  principalARN : String
  scope : AttachmentScope
  region : String
  deriving DecidableEq, Repr

structure ConfigBundle where
  registeredAccounts : List String
  policies : List PolicyRecord
  attachments : List AttachmentRecord

structure CompiledPolicy (Policy : Type) where
  owner : String
  policy : Policy

abbrev CompiledPolicies (Policy : Type) := AList fun _ : String => CompiledPolicy Policy

/-- What the loop over the attachments of a bundle carries. -/
structure Bound (Policy : Type) where
  ids : List String := []
  roleAliases : AList (fun _ : String => String) := ∅
  customer : List (PolicyAttachment Policy) := []

section Bundle

variable {Policy : Type} (engine : Engine Policy) (bundleHash : String)

def addAccount (accounts : List String) (account : String) : Except Failure (List String) :=
  if !accountPattern account then
    .error { stage := .parsing, err := .text "invalid registered account" }
  else if account ∈ accounts then
    .error { stage := .parsing, err := .text "duplicate registered account" }
  else .ok (account :: accounts)

def addCompiled (policies : CompiledPolicies Policy) (r : PolicyRecord) :
    Except Failure (CompiledPolicies Policy) := do
  let provenance : List Provenance := [{ policyID := r.id, bundleHash := bundleHash }]
  if !idPattern r.id || !accountPattern r.ownerAccountID then
    throw { stage := .parsing, err := .text "invalid policy ID or owner", provenance }
  if r.id ∈ policies then
    throw { stage := .parsing, err := .text "duplicate policy ID", provenance }
  let compiled ← (engine.checkedPolicy r.content r.id).mapError fun e =>
    { stage := .parsing, err := e, provenance }
  return policies.insert r.id ⟨r.ownerAccountID, compiled⟩

def attachmentProvenance (r : AttachmentRecord) : Provenance :=
  { diagnosticID := "attachment/" ++ r.id, policyID := r.policyID, bundleHash := bundleHash
    attachmentID := r.id }

/-- The policy of an attachment, which must be of the principal's account. -/
def ownPolicy (policies : CompiledPolicies Policy) (r : AttachmentRecord) :
    Except AuthzError (Principal × Policy) := do
  match policies.lookup r.policyID with
  | none => throw (.text "dangling policy reference")
  | some compiled =>
    let principal ← parsePrincipal r.principalARN
    if principal.account != compiled.owner then throw (.text "cross-account attachment")
    return (principal, compiled.policy)

def bindAttachment (policies : CompiledPolicies Policy) (acc : Bound Policy)
    (r : AttachmentRecord) : Except AuthzError (Bound Policy) := do
  if !idPattern r.id then throw (.text "invalid attachment ID")
  if r.id ∈ acc.ids then throw (.text "duplicate attachment ID")
  let (principal, policy) ← ownPolicy policies r
  checkedScope r.scope r.region
  let roleAliases ← noteRole acc.roleAliases principal
  return ⟨r.id :: acc.ids, roleAliases, acc.customer ++
    [{ attachmentProvenance bundleHash r with
        policy := policy, principal := principal, scope := r.scope, region := r.region }]⟩

def addAttachment (policies : CompiledPolicies Policy) (acc : Bound Policy)
    (r : AttachmentRecord) : Except Failure (Bound Policy) :=
  (bindAttachment bundleHash policies acc r).mapError fun e =>
    { stage := .binding, err := e, provenance := [attachmentProvenance bundleHash r] }

/-- `LoadConfig` from the decoded bundle on. -/
def loadBundle (serviceRegion : String) (bundle : ConfigBundle) :
    Except Failure (Authorizer Policy) := do
  if !regionPattern serviceRegion then
    throw { stage := .parsing, err := .text "invalid service region" }
  let allowlist ← (engine.checkedPolicy "permit(principal, action, resource);"
    "allowlist").mapError fun e => { stage := .parsing, err := e }
  let accounts ← bundle.registeredAccounts.foldlM addAccount []
  let policies ← bundle.policies.foldlM (addCompiled engine bundleHash) ∅
  let bound ← bundle.attachments.foldlM (addAttachment bundleHash policies) {}
  return {
    bundleHash := bundleHash, customer := bound.customer, allowlist := some allowlist
    region := serviceRegion, accounts := accounts }

end Bundle

/-! ### Prepare from the store -/

section StorePrepare

variable {Policy : Type} (engine : Engine Policy) (cfg : StoreConfig)

/-- `managementResultResolution`. -/
def resolutionError (e : AuthzError) : PrepareError :=
  if e = .unavailable then .backend e else .failure { stage := .resolution, err := e }

/-- A resolved attachment with its policy bound to the principal. -/
def bindResolved (r : ResolvedAttachment) : Except AuthzError (PolicyAttachment Policy) := do
  let principal ← parsePrincipal r.attachment.principalARN
  let bound ← engine.bindPolicy r.policy.content r.policy.id principal
  return {
    diagnosticID := bindingDiagnosticID r.attachment, policyID := r.policy.id
    attachmentID := r.attachment.id, policyRevision := r.policy.revision
    attachmentRevision := r.attachment.revision, policy := bound, principal := principal
    scope := r.attachment.scope, region := r.attachment.region }

/-- What is prepared from the attachments that were resolved. -/
def prepareResolved (ctx : Ctx) (id : Identity) (req : RequestContext) :
    Except AuthzError (List ResolvedAttachment) → Except PrepareError (Prepared Policy)
  | .error e => .error (resolutionError e)
  | .ok resolved =>
    match resolved.mapM (bindResolved engine) with
    | .error e => .error (.failure { stage := .binding, err := e })
    | .ok customer =>
      (Authorizer.prepare engine { customer := customer, region := cfg.region } ctx id
        req).mapError .failure

/-- `Store.Prepare` and `prepareScopes`. -/
def prepareScopes (ctx : Ctx) (id : Identity) (req : RequestContext)
    (scopes : List AttachmentScope) : Prog Op Op.Res (Except PrepareError (Prepared Policy)) :=
  (resolveScopes engine.toCedar cfg id scopes).run.bind fun resolved =>
    .ret (prepareResolved engine cfg ctx id req resolved)

end StorePrepare

end Seaplane.Authz
