import Seaplane.Operator.Render

/-!
The OidcConfig controller.

A config reserves its issuer URL with an Index whose name is the digest of the URL and whose label
is the config's UID. The private key of an unmanaged config is copied to the operator's own Secrets
Manager, under a name made of the account and the config's name.
-/

namespace Seaplane.Operator

open Lib Kube Fleet

/-! ### Private keys -/

/-- `SecretName`. -/
def secretName (accountID configID : String) : String :=
  "/seaplane/oidc/" ++ accountID ++ "/" ++ configID ++ "/signing-key"

/-- `StorePrivateKey`: create the secret, or overwrite it. -/
def storePrivateKey (accountID configID value : String) : FleetProg (Except Unit Unit) := do
  match ← infra (.createSecret (secretName accountID configID) value) with
  | .ok () => return .ok ()
  | .error .alreadyExists =>
    match ← infra (.putSecretValue (secretName accountID configID) value) with
    | .ok () => return .ok ()
    | .error _ => return .error ()
  | .error _ => return .error ()

/-- `PrivateKeyExists`. -/
def privateKeyExists (accountID configID : String) : FleetProg (Except Unit Bool) := do
  match ← infra (.describeSecret (secretName accountID configID)) with
  | .ok () => return .ok true
  | .error .notFound => return .ok false
  | .error _ => return .error ()

/-- `DeletePrivateKey`. -/
def deletePrivateKey (accountID configID : String) : FleetProg (Except Unit Unit) := do
  match ← infra (.deleteSecret (secretName accountID configID)) with
  | .ok () | .error .notFound => return .ok ()
  | .error _ => return .error ()

/-! ### Issuer URLs -/

def oidcConfigFinalizer : String := "seaplane.io/oidcconfig"

def oidcIssuerReservationsNamespace : String := "oidc-issuer-reservations"

section

variable (p : Params) (ns name : String) (oc : Object .oidcConfig)

abbrev oidcConfigKey : Key := ⟨.oidcConfig, ns, name⟩

abbrev issuerURLKey (issuerURL : String) : Key :=
  ⟨.index, oidcIssuerReservationsNamespace, p.issuerURLIndexName issuerURL⟩

/-- `setPhase`. -/
def setOidcConfigPhase (phase : String) : FleetProg Unit :=
  if oc.status.phase = phase then return ()
  else do
    let _ ← updateLatestStatus (oidcConfigKey ns name) true fun latest =>
      if latest.status.phase = phase then none else some { latest.status with phase := phase }
    return ()

/-- `setReadyCondition`. -/
def setReadyCondition (reason : String) : FleetProg Unit := do
  let _ ← updateLatestStatus (oidcConfigKey ns name) true fun latest =>
    some { latest.status with
      conditions := setStatusCondition latest.status.conditions ⟨"Ready", false, reason⟩ }
  return ()

/-- `setReadyConditionAndPhase`. -/
def setReadyConditionAndPhase (reason phase : String) : FleetProg Unit := do
  let _ ← updateLatestStatus (oidcConfigKey ns name) true fun latest =>
    some { latest.status with
      conditions := setStatusCondition latest.status.conditions ⟨"Ready", false, reason⟩
      phase := phase }
  return ()

/-- `reserveIssuerURLIndex`: the reconcile goes on, or ends. -/
def reserveIssuerURLIndex : FleetProg (Except Outcome Unit) := do
  match ← create (issuerURLKey p oc.spec.issuerUrl)
      { labels := [(accountIDLabel, oc.spec.accountID), (ownerUIDLabel, oc.uid)], spec := () } with
  | .ok _ => return .ok ()
  | .error .alreadyExists =>
    match ← get (issuerURLKey p oc.spec.issuerUrl) with
    | .error _ => return .error .failed
    | .ok existing =>
      if existing.labels.value ownerUIDLabel ≠ oc.uid then do
        setReadyConditionAndPhase ns name "IssuerURLConflict" "Error"
        return .error .requeue
      else return .ok ()
  | .error _ => return .error .failed

/-- `deleteIssuerURLIndex`. -/
def deleteIssuerURLIndex : FleetProg (Except Err Unit) := do
  match ← get (issuerURLKey p oc.spec.issuerUrl) with
  | .error e => return if e == .notFound then .ok () else .error e
  | .ok index =>
    if index.labels.value ownerUIDLabel ≠ oc.uid then return .ok ()
    else
      match ← delete (issuerURLKey p oc.spec.issuerUrl) index with
      | .error e => return if e == .notFound then .ok () else .error e
      | .ok () => return .ok ()

/-! ### The reconcile -/

/-- `checkReadiness`: the issuer answers, and the config is Ready. -/
def checkReadiness (onFailure : FleetProg Outcome) : FleetProg Outcome := do
  match ← infra (.computeThumbprint oc.spec.issuerUrl) with
  | .error _ => onFailure
  | .ok thumbprint =>
    match ← updateLatestStatus (oidcConfigKey ns name) true fun latest =>
        some { latest.status with
          conditions := setStatusCondition latest.status.conditions
            ⟨"Ready", true, "OIDCConfigured"⟩
          phase := "Ready"
          thumbprint := thumbprint } with
    | .error _ => return .failed
    | .ok () => return .requeue

/-- `isReferencedByCluster`. -/
def isReferencedByCluster : FleetProg (Except Err Bool) := do
  match ← list .cluster { labels := [(accountIDLabel, oc.spec.accountID)] } with
  | .error e => return .error e
  | .ok clusters =>
    return .ok (clusters.any fun c => !c.object.deleting && c.object.spec.oidcConfigID == oc.uid)

def awaitIssuer (reason : String) : FleetProg Outcome := do
  setReadyConditionAndPhase ns name reason "Pending"
  return .requeue

/-- A config that nothing was done for yet becomes Pending. -/
def markPending : FleetProg Unit :=
  if oc.status.phase = "" then setOidcConfigPhase ns name oc "Pending" else return ()

/-- `reconcileManaged`. -/
def reconcileManaged : FleetProg Outcome := do
  markPending ns name oc
  match ← reserveIssuerURLIndex p ns name oc with
  | .error o => return o
  | .ok () =>
    match ← isReferencedByCluster oc with
    | .error _ => return .failed
    | .ok false => awaitIssuer ns name "AwaitingCluster"
    | .ok true => checkReadiness ns name oc (awaitIssuer ns name "IssuerNotReady")

/-- The customer's private key is copied unless it is there; none when the reconcile goes on. -/
def copyPrivateKey : FleetProg (Option Outcome) := do
  match ← privateKeyExists oc.spec.accountID name with
  | .error _ => return some .failed
  | .ok true => return none
  | .ok false =>
    match ← infra (.readCrossAccountSecret oc.spec.secretArn oc.spec.installerRoleArn) with
    | .error _ => do
      setReadyCondition ns name "CrossAccountReadFailed"
      return some .failed
    | .ok keyData =>
      if !p.validateRSAPrivateKey keyData then do
        setReadyConditionAndPhase ns name "InvalidPrivateKey" "Error"
        return some .done
      else
        match ← storePrivateKey oc.spec.accountID name keyData with
        | .error _ => do
          setReadyCondition ns name "SecretStoreFailed"
          return some .failed
        | .ok () => return none

/-- The issuer of an unmanaged config does not answer. -/
def issuerFailed : FleetProg Outcome := do
  setReadyConditionAndPhase ns name "IssuerNotReady" "Error"
  return .failed

/-- `reconcileUnmanaged`. -/
def reconcileUnmanaged : FleetProg Outcome := do
  markPending ns name oc
  match ← reserveIssuerURLIndex p ns name oc with
  | .error o => return o
  | .ok () =>
    match ← copyPrivateKey p ns name oc with
    | some o => return o
    | none => checkReadiness ns name oc (issuerFailed ns name)

/-- Only unmanaged configs have stored a private key. -/
def deleteStoredKey : FleetProg (Except Unit Unit) :=
  if oc.spec.type = "unmanaged" then deletePrivateKey oc.spec.accountID name else return .ok ()

/-- `reconcileDelete`. -/
def reconcileOidcConfigDelete : FleetProg Outcome :=
  if !oc.finalizers.contains oidcConfigFinalizer then return .done
  else do
    match ← deleteStoredKey name oc with
    | .error _ => return .failed
    | .ok () =>
      match ← deleteIssuerURLIndex p oc with
      | .error _ => return .failed
      | .ok () =>
        match ← removeFinalizer (oidcConfigKey ns name) oidcConfigFinalizer with
        | .error _ => return .failed
        | .ok () => return .done

/-- `OidcConfigReconciler.Reconcile`. -/
def reconcileOidcConfig : FleetProg Outcome := do
  match ← get (oidcConfigKey ns name) with
  | .error .notFound => return .done
  | .error _ => return .failed
  | .ok oc =>
    if oc.deleting then reconcileOidcConfigDelete p ns name oc
    else if !oc.finalizers.contains oidcConfigFinalizer then
      match ← update (oidcConfigKey ns name)
          { oc with finalizers := oc.finalizers ++ [oidcConfigFinalizer] } with
      | .error .notFound => return .done
      | .error _ => return .failed
      | .ok _ => return .done
    else if oc.spec.type = "managed" then reconcileManaged p ns name oc
    else if oc.spec.type = "unmanaged" then reconcileUnmanaged p ns name oc
    else do
      setReadyConditionAndPhase ns name "InvalidType" "Error"
      return .done

end

end Seaplane.Operator
