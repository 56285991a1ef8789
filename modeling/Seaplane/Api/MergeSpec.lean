import Seaplane.Lib.GoUpdate

/-!
Merging the spec of an update into the stored spec of a Cluster or a NodePool.

The JSON is decoded into the stored spec. Before that, maps on a short list are emptied if the JSON
supplies them, since decoding would otherwise keep their old keys. The types of other packages are
parameters.
-/

namespace Seaplane.Api.MergeSpec

open Lib Lib.GoType
open FieldsUpdate (without)

abbrev Strings := Option (String → Option String)

def text : TypeExpr := .scalar "" fun
  | .str s => some s
  | _ => none

def bool : TypeExpr := .scalar false fun
  | .bool b => some b
  | _ => none

def int32 : TypeExpr := .scalar (0 : ℤ) fun
  | .num q => if q.den = 1 ∧ -2 ^ 31 ≤ q.num ∧ q.num < 2 ^ 31 then some q.num else none
  | .negZero => some 0
  | _ => none

/-! ### The types -/

/-- The types of other packages by their names. -/
abbrev Upstream := String → TypeExpr

section Types

variable (up : Upstream)

def controlPlaneUpgradePolicySpec : FieldExprs :=
  .cons "updateType" text <| .cons "scheduleType" text <| .cons "schedule" (.ptr text) <|
  .cons "version" (.ptr text) <| .cons "nextRun" (.ptr (up "metav1.Time")) <|
  .cons "upgradeScope" text .nil

def hostedClusterSpecPassthrough : FieldExprs :=
  .cons "release" (up "hypershiftv1beta1.Release") <|
  .cons "controlPlaneRelease" (.ptr (up "hypershiftv1beta1.Release")) <|
  .cons "clusterID" text <| .cons "infraID" text <|
  .cons "updateService" (up "configv1.URL") <| .cons "channel" text <|
  .cons "platform" (up "hypershiftv1beta1.PlatformSpec") <|
  .cons "kubeAPIServerDNSName" text <|
  .cons "controllerAvailabilityPolicy" (up "hypershiftv1beta1.AvailabilityPolicy") <|
  .cons "infrastructureAvailabilityPolicy" (up "hypershiftv1beta1.AvailabilityPolicy") <|
  .cons "dns" (up "hypershiftv1beta1.DNSSpec") <|
  .cons "networking" (up "hypershiftv1beta1.ClusterNetworking") <|
  .cons "autoscaling" (up "hypershiftv1beta1.ClusterAutoscaling") <|
  .cons "autoNode" (up "hypershiftv1beta1.AutoNode") <|
  .cons "etcd" (up "hypershiftv1beta1.EtcdSpec") <|
  .cons "services" (.slice (up "hypershiftv1beta1.ServicePublishingStrategyMapping")) <|
  .cons "pullSecret" (up "corev1.LocalObjectReference") <|
  .cons "sshKey" (up "corev1.LocalObjectReference") <|
  .cons "issuerURL" text <|
  .cons "serviceAccountSigningKey" (.ptr (up "corev1.LocalObjectReference")) <|
  .cons "configuration" (.ptr (up "hypershiftv1beta1.ClusterConfiguration")) <|
  .cons "operatorConfiguration" (.ptr (up "hypershiftv1beta1.OperatorConfiguration")) <|
  .cons "auditWebhook" (.ptr (up "corev1.LocalObjectReference")) <|
  .cons "imageContentSources" (.slice (up "hypershiftv1beta1.ImageContentSource")) <|
  .cons "additionalTrustBundle" (.ptr (up "corev1.LocalObjectReference")) <|
  .cons "secretEncryption" (.ptr (up "hypershiftv1beta1.SecretEncryptionSpec")) <|
  .cons "fips" bool <| .cons "pausedUntil" (.ptr text) <|
  .cons "olmCatalogPlacement" (up "hypershiftv1beta1.OLMCatalogPlacement") <|
  .cons "nodeSelector" (.map text) <| .cons "tolerations" (.slice (up "corev1.Toleration")) <|
  .cons "labels" (.map text) <|
  .cons "capabilities" (.ptr (up "hypershiftv1beta1.Capabilities")) .nil

def clusterSpec : FieldExprs :=
  .cons "deleteProtection" (.ptr bool) <|
  .cons "expirationTimestamp" (.ptr (up "metav1.Time")) <|
  .cons "properties" (.map text) <| .cons "additionalTrustBundle" (.ptr text) <|
  .cons "tags" (.map text) <| .cons "accountId" text <| .cons "creatorARN" text <|
  .cons "hostedClusterName" text <| .cons "dnsReservationId" text <| .cons "oidcConfigId" text <|
  .cons "hostedCluster" (.struct (hostedClusterSpecPassthrough up)) <|
  .cons "controlPlaneUpgradePolicy" (.ptr (.struct (controlPlaneUpgradePolicySpec up))) .nil

def nodePoolSpecPassthrough : FieldExprs :=
  .cons "clusterName" text <| .cons "release" (up "hypershiftv1beta1.Release") <|
  .cons "platform" (up "hypershiftv1beta1.NodePoolPlatform") <|
  .cons "replicas" (.ptr int32) <|
  .cons "management" (up "hypershiftv1beta1.NodePoolManagement") <|
  .cons "autoScaling" (.ptr (up "hypershiftv1beta1.NodePoolAutoScaling")) <|
  .cons "config" (.slice (up "corev1.LocalObjectReference")) <|
  .cons "nodeDrainTimeout" (.ptr (up "metav1.Duration")) <|
  .cons "nodeVolumeDetachTimeout" (.ptr (up "metav1.Duration")) <|
  .cons "nodeLabels" (.map text) <|
  .cons "taints" (.slice (up "hypershiftv1beta1.Taint")) <|
  .cons "pausedUntil" (.ptr text) <|
  .cons "tuningConfig" (.slice (up "corev1.LocalObjectReference")) <|
  .cons "arch" text <|
  .cons "osImageStream" (up "hypershiftv1beta1.OSImageStreamReference") .nil

def nodePoolSpec : FieldExprs :=
  .cons "autoRepair" (.ptr bool) <| .cons "ec2InstanceMetadataHttpTokens" text <|
  .cons "labels" (.map text) <| .cons "tags" (.map text) <|
  .cons "maxUnavailable" (.ptr (up "intstr.IntOrString")) <|
  .cons "maxSurge" (.ptr (up "intstr.IntOrString")) <| .cons "accountId" text <|
  .cons "internalPoolId" text <| .cons "nodePool" (.struct (nodePoolSpecPassthrough up)) .nil

end Types

/-! ### The merge -/

variable {nodePool nodeLabels : Option Json}

section Merge

variable {up : Upstream}

/-- `resetSuppliedMaps` of a Cluster. -/
def resetSuppliedMapsCluster (j : Json) (spec : (clusterSpec up).Value) :
    Option (clusterSpec up).Value := do
  let tags ← rawField "tags" j
  let (deleteProtection, expirationTimestamp, properties, additionalTrustBundle, old, rest) := spec
  return (deleteProtection, expirationTimestamp, properties, additionalTrustBundle,
    if tags.isSome then none else old, rest)

/-- The map of node labels in the passthrough, taken out. -/
def clearNodeLabels : (nodePoolSpecPassthrough up).Value → (nodePoolSpecPassthrough up).Value
  | (clusterName, release, platform, replicas, management, autoScaling, config, nodeDrainTimeout,
      nodeVolumeDetachTimeout, _, rest) =>
    (clusterName, release, platform, replicas, management, autoScaling, config, nodeDrainTimeout,
      nodeVolumeDetachTimeout, none, rest)

/-- The node labels that are supplied in the passthrough. -/
def suppliedNodeLabels : Option Json → Option (Option Json)
  | some nodePool => rawField "nodeLabels" nodePool
  | none => some none

/-- `resetSuppliedMaps` of a NodePool. -/
def resetSuppliedMapsNodePool (j : Json) (spec : (nodePoolSpec up).Value) :
    Option (nodePoolSpec up).Value := do
  let labels ← rawField "labels" j
  let tags ← rawField "tags" j
  let nodePool ← rawField "nodePool" j
  let nodeLabels ← suppliedNodeLabels nodePool
  let (autoRepair, tokens, oldLabels, oldTags, maxUnavailable, maxSurge, accountId,
    internalPoolId, passthrough, rest) := spec
  return (autoRepair, tokens, if labels.isSome then none else oldLabels,
    if tags.isSome then none else oldTags, maxUnavailable, maxSurge, accountId, internalPoolId,
    if nodeLabels.isSome then clearNodeLabels passthrough else passthrough, rest)

inductive SpecKind where
  | cluster
  | nodePool

variable (up) in
def SpecKind.type : SpecKind → TypeExpr
  | .cluster => .struct (clusterSpec up)
  | .nodePool => .struct (nodePoolSpec up)

def resetSuppliedMaps : (kind : SpecKind) → Json → (kind.type up).Value →
    Option (kind.type up).Value
  | .cluster, j, spec => resetSuppliedMapsCluster j spec
  | .nodePool, j, spec => resetSuppliedMapsNodePool j spec

/-- `MergeSpecJSON`; without any text nothing is done. -/
def mergeSpecJSON (kind : SpecKind) (dst : (kind.type up).Value) :
    Option Json → Option (kind.type up).Value
  | none => some dst
  | some j => do
    let spec ← resetSuppliedMaps kind j dst
    (kind.type up).update.decode j spec

/-- Every collection that the JSON supplies is what it alone decodes to, and what it does not
mention is as stored. -/
def Honours (kind : SpecKind) (stored merged : (kind.type up).Value) : Option Json → Prop
  | none => merged = stored
  | some j => ∃ alone, (kind.type up).update.decode j (kind.type up).update.zero = some alone ∧
      (kind.type up).update.honours [j] stored merged alone

/-! ### What is left behind -/

/-- Nothing stored in a Cluster is left behind in a collection that the JSON supplies; its tags do
not matter. -/
def CleanCluster (j : Json) (stored : (clusterSpec up).Value) : Prop :=
  (clusterSpec up).Clean
    (without "tags" (GoUpdate.byField (clusterSpec up).update.toFields [j])) stored

/-- The values for the fields of a NodePool. -/
abbrev nodePoolMembers (up : Upstream) (j : Json) : String → List Json :=
  GoUpdate.byField (nodePoolSpec up).update.toFields [j]

abbrev passthroughMembers (up : Upstream) (js : List Json) : String → List Json :=
  GoUpdate.byField (nodePoolSpecPassthrough up).update.toFields js

def passthrough : (nodePoolSpec up).Value → (nodePoolSpecPassthrough up).Value
  | (_, _, _, _, _, _, _, _, passthrough, _) => passthrough

/-- The node labels are among the members of the last passthrough. -/
def relabels (up : Upstream) (j : Json) : Bool :=
  (nodePoolMembers up j "nodePool").getLast?.any fun last =>
    !(passthroughMembers up [last] "nodeLabels").isEmpty

/-- The same of a NodePool. Its labels and tags do not matter, nor its node labels if they are among
the members of the last passthrough. -/
structure CleanNodePool (j : Json) (stored : (nodePoolSpec up).Value) : Prop where
  own : (nodePoolSpec up).Clean
    (without "labels" (without "tags" (without "nodePool" (nodePoolMembers up j)))) stored
  passed : (nodePoolSpecPassthrough up).Clean
    (if relabels up j then
      without "nodeLabels" (passthroughMembers up (nodePoolMembers up j "nodePool"))
    else passthroughMembers up (nodePoolMembers up j "nodePool")) (passthrough stored)

def Clean : (kind : SpecKind) → (kind.type up).Value → Option Json → Prop
  | _, _, none => True
  | .cluster, stored, some j => CleanCluster j stored
  | .nodePool, stored, some j => CleanNodePool j stored

variable {js : List Json} {raw : Option Json} {j : Json}

lemma clusterSpec_names : (clusterSpec up).update.names = ["deleteProtection",
    "expirationTimestamp", "properties", "additionalTrustBundle", "tags", "accountId",
    "creatorARN", "hostedClusterName", "dnsReservationId", "oidcConfigId", "hostedCluster",
    "controlPlaneUpgradePolicy"] := rfl

lemma nodePoolSpec_names : (nodePoolSpec up).update.names = ["autoRepair",
    "ec2InstanceMetadataHttpTokens", "labels", "tags", "maxUnavailable", "maxSurge", "accountId",
    "internalPoolId", "nodePool"] := rfl

lemma nodePoolSpecPassthrough_names : (nodePoolSpecPassthrough up).update.names = ["clusterName",
    "release", "platform", "replicas", "management", "autoScaling", "config", "nodeDrainTimeout",
    "nodeVolumeDetachTimeout", "nodeLabels", "taints", "pausedUntil", "tuningConfig", "arch",
    "osImageStream"] := rfl

lemma clusterSpec_letters (up : Upstream) : ((clusterSpec up).update.names.map letters).Nodup := by
  rw [clusterSpec_names]
  decide +kernel

lemma nodePoolSpec_letters (up : Upstream) :
    ((nodePoolSpec up).update.names.map letters).Nodup := by
  rw [nodePoolSpec_names]
  decide +kernel

lemma nodePoolSpecPassthrough_letters (up : Upstream) :
    ((nodePoolSpecPassthrough up).update.names.map letters).Nodup := by
  rw [nodePoolSpecPassthrough_names]
  decide +kernel

/-- A map that is emptied if it is supplied leaves nothing behind. -/
lemma clean_reset (h : raw = js.getLast?) (v : Strings) :
    (TypeExpr.map text).update.clean js (if raw.isSome then none else v) := by
  intro hjs hkeeps
  have hsome : raw.isSome := by rw [h, List.getLast?_isSome]; exact hjs
  simp only [hsome] at hkeeps
  obtain ⟨-, m, k, hm, -⟩ := (if_neg hjs).mp hkeeps
  cases hm

lemma clean_resetCluster {v v' : (clusterSpec up).Value}
    (h : resetSuppliedMapsCluster j v = some v') :
    (SpecKind.cluster.type up).update.clean [j] v' ↔ CleanCluster j v := by
  obtain ⟨tags, htags, h⟩ := Option.bind_eq_some_iff.mp h
  cases h
  have hlast := GoUpdate.rawField_eq (clusterSpec_letters up)
    (by simp [clusterSpec_names]) htags
  refine (FieldExprs.update_clean (List.Nodup.of_map _ (clusterSpec_letters _))).trans ?_
  iterate 4 refine and_congr Iff.rfl ?_
  refine and_congr (iff_of_true (clean_reset hlast _) ?_) Iff.rfl
  exact (TypeExpr.map text).clean_nil _

lemma clean_clearNodeLabels (js : String → List Json) (v : (nodePoolSpecPassthrough up).Value) :
    (nodePoolSpecPassthrough up).Clean js (clearNodeLabels v) ↔
      (nodePoolSpecPassthrough up).Clean (without "nodeLabels" js) v := by
  iterate 9 refine and_congr Iff.rfl ?_
  refine and_congr (iff_of_true ?_ ?_) Iff.rfl
  · intro hjs hkeeps
    obtain ⟨-, m, k, hm, -⟩ := (if_neg hjs).mp hkeeps
    cases hm
  · exact (TypeExpr.map text).clean_nil _

lemma relabels_eq (h : rawField "nodePool" j = some nodePool)
    (hlabels : suppliedNodeLabels nodePool = some nodeLabels) :
    relabels up j = nodeLabels.isSome := by
  have hlast := GoUpdate.rawField_eq (nodePoolSpec_letters up)
    (by simp [nodePoolSpec_names]) h
  unfold relabels
  rw [← hlast]
  cases nodePool with
  | none =>
    cases hlabels
    rfl
  | some np =>
    have hlast := GoUpdate.rawField_eq (nodePoolSpecPassthrough_letters up)
      (by simp [nodePoolSpecPassthrough_names]) hlabels
    rw [hlast, Option.any_some, Bool.eq_iff_iff, List.getLast?_isSome]
    simp

lemma clean_resetNodePool {v v' : (nodePoolSpec up).Value}
    (h : resetSuppliedMapsNodePool j v = some v') :
    (SpecKind.nodePool.type up).update.clean [j] v' ↔ CleanNodePool j v := by
  obtain ⟨labels, hlabels, h⟩ := Option.bind_eq_some_iff.mp h
  obtain ⟨tags, htags, h⟩ := Option.bind_eq_some_iff.mp h
  obtain ⟨nodePool, hnodePool, h⟩ := Option.bind_eq_some_iff.mp h
  obtain ⟨nodeLabels, hnodeLabels, h⟩ := Option.bind_eq_some_iff.mp h
  cases h
  have hlabels := GoUpdate.rawField_eq (nodePoolSpec_letters up)
    (by simp [nodePoolSpec_names]) hlabels
  have htags := GoUpdate.rawField_eq (nodePoolSpec_letters up)
    (by simp [nodePoolSpec_names]) htags
  have hpassed : (TypeExpr.struct (nodePoolSpecPassthrough up)).update.clean
      (nodePoolMembers up j "nodePool")
      (if nodeLabels.isSome then clearNodeLabels (passthrough v) else passthrough v) ↔
      (nodePoolSpecPassthrough up).Clean
        (if relabels up j then
          without "nodeLabels" (passthroughMembers up (nodePoolMembers up j "nodePool"))
        else passthroughMembers up (nodePoolMembers up j "nodePool")) (passthrough v) := by
    rw [relabels_eq hnodePool hnodeLabels]
    refine (FieldExprs.update_clean
      (List.Nodup.of_map _ (nodePoolSpecPassthrough_letters _))).trans ?_
    cases nodeLabels.isSome with
    | true => exact clean_clearNodeLabels ..
    | false => exact Iff.rfl
  refine (FieldExprs.update_clean (List.Nodup.of_map _ (nodePoolSpec_letters _))).trans ?_
  constructor
  · rintro ⟨hrepair, htokens, -, -, hunavailable, hsurge, haccount, hid, hpool, -⟩
    exact ⟨⟨hrepair, htokens, (TypeExpr.map text).clean_nil _, (TypeExpr.map text).clean_nil _,
      hunavailable, hsurge, haccount, hid, TypeExpr.clean_nil (.struct _) _, trivial⟩,
      hpassed.mp hpool⟩
  · rintro ⟨⟨hrepair, htokens, -, -, hunavailable, hsurge, haccount, hid, -, -⟩, hpool⟩
    exact ⟨hrepair, htokens, clean_reset hlabels _, clean_reset htags _, hunavailable, hsurge,
      haccount, hid, hpassed.mpr hpool, trivial⟩

/-! ### What is emptied is supplied -/

lemma honours_map (hjs : js ≠ []) (v v' w' w : Strings) :
    (TypeExpr.map text).update.honours js v w' w ↔ (TypeExpr.map text).update.honours js v' w' w :=
  and_congr (iff_of_true (fun hnil => absurd hnil hjs) fun hnil => absurd hnil hjs) Iff.rfl

lemma honours_reset (h : raw = js.getLast?) (v w' w : Strings) :
    (TypeExpr.map text).update.honours js (if raw.isSome then none else v) w' w ↔
      (TypeExpr.map text).update.honours js v w' w := by
  cases hsome : raw.isSome with
  | true =>
    rw [h, List.getLast?_isSome] at hsome
    exact honours_map hsome ..
  | false => exact Iff.rfl

lemma honours_resetCluster {v v' : (clusterSpec up).Value}
    (h : resetSuppliedMapsCluster j v = some v') (w' w : (clusterSpec up).Value) :
    (SpecKind.cluster.type up).update.honours [j] v' w' w ↔
      (SpecKind.cluster.type up).update.honours [j] v w' w := by
  obtain ⟨tags, htags, h⟩ := Option.bind_eq_some_iff.mp h
  cases h
  have hlast := GoUpdate.rawField_eq (clusterSpec_letters up)
    (by simp [clusterSpec_names]) htags
  iterate 4 refine and_congr Iff.rfl ?_
  exact and_congr (honours_reset hlast ..) Iff.rfl

lemma nodeLabels_ne_nil (hpool : nodePool = js.getLast?)
    (h : suppliedNodeLabels nodePool = some nodeLabels) (hsome : nodeLabels.isSome = true) :
    passthroughMembers up js "nodeLabels" ≠ [] := by
  cases nodePool with
  | none =>
    cases h
    cases hsome
  | some np =>
    have hlast := GoUpdate.rawField_eq (nodePoolSpecPassthrough_letters up)
      (by simp [nodePoolSpecPassthrough_names]) h
    rw [hlast, List.getLast?_isSome] at hsome
    exact GoUpdate.byField_ne_nil (List.mem_of_getLast? hpool.symm) hsome

lemma honours_reset_nodeLabels (hpool : nodePool = js.getLast?)
    (h : suppliedNodeLabels nodePool = some nodeLabels)
    (v w' w : (nodePoolSpecPassthrough up).Value) :
    (TypeExpr.struct (nodePoolSpecPassthrough up)).update.honours js
        (if nodeLabels.isSome then clearNodeLabels v else v) w' w ↔
      (TypeExpr.struct (nodePoolSpecPassthrough up)).update.honours js v w' w := by
  cases hsome : nodeLabels.isSome with
  | true =>
    iterate 9 refine and_congr Iff.rfl ?_
    exact and_congr (honours_map (nodeLabels_ne_nil hpool h hsome) ..) Iff.rfl
  | false => exact Iff.rfl

lemma honours_resetNodePool {v v' : (nodePoolSpec up).Value}
    (h : resetSuppliedMapsNodePool j v = some v') (w' w : (nodePoolSpec up).Value) :
    (SpecKind.nodePool.type up).update.honours [j] v' w' w ↔
      (SpecKind.nodePool.type up).update.honours [j] v w' w := by
  obtain ⟨labels, hlabels, h⟩ := Option.bind_eq_some_iff.mp h
  obtain ⟨tags, htags, h⟩ := Option.bind_eq_some_iff.mp h
  obtain ⟨nodePool, hnodePool, h⟩ := Option.bind_eq_some_iff.mp h
  obtain ⟨nodeLabels, hnodeLabels, h⟩ := Option.bind_eq_some_iff.mp h
  cases h
  have hlast {name : String} {raw : Option Json} (hname : name ∈ (nodePoolSpec up).update.names)
      (hraw : rawField name j = some raw) : raw = (nodePoolMembers up j name).getLast? :=
    GoUpdate.rawField_eq (nodePoolSpec_letters up) hname hraw
  iterate 2 refine and_congr Iff.rfl ?_
  refine and_congr (honours_reset (hlast (by simp [nodePoolSpec_names]) hlabels) ..) ?_
  refine and_congr (honours_reset (hlast (by simp [nodePoolSpec_names]) htags) ..) ?_
  iterate 4 refine and_congr Iff.rfl ?_
  refine and_congr (honours_reset_nodeLabels ?_ hnodeLabels ..) Iff.rfl
  exact hlast (by simp [nodePoolSpec_names]) hnodePool

lemma law_resetSuppliedMaps {kind : SpecKind} {v v' : (kind.type up).Value}
    (h : resetSuppliedMaps kind j v = some v') (w' w : (kind.type up).Value) :
    ((kind.type up).update.honours [j] v' w' w ↔ (kind.type up).update.honours [j] v w' w) ∧
      ((kind.type up).update.clean [j] v' ↔ Clean kind v (some j)) := by
  cases kind with
  | cluster => exact ⟨honours_resetCluster h w' w, clean_resetCluster h⟩
  | nodePool => exact ⟨honours_resetNodePool h w' w, clean_resetNodePool h⟩

/-- An update that is accepted replaces the collections it supplies and leaves the rest alone if and
only if the stored collections, but for those that are emptied, leave nothing behind. -/
theorem honours_iff_clean (up : Upstream) (kind : SpecKind) (stored merged : (kind.type up).Value)
    (specJSON : Option Json) (h : mergeSpecJSON kind stored specJSON = some merged) :
    Honours kind stored merged specJSON ↔ Clean kind stored specJSON := by
  cases specJSON with
  | none =>
    cases h
    cases kind <;> exact iff_of_true rfl trivial
  | some j =>
    obtain ⟨spec, hreset, hdecode⟩ := Option.bind_eq_some_iff.mp h
    have htotal := (kind.type up).update.total j spec (kind.type up).update.zero
      (Option.isSome_of_eq_some hdecode)
    obtain ⟨alone, halone⟩ := Option.isSome_iff_exists.mp htotal
    have hlaw := (kind.type up).update.law ((decodeAll_singleton _ _ _).trans halone)
      ((decodeAll_singleton _ _ _).trans hdecode)
    obtain ⟨hhonours, hclean⟩ := law_resetSuppliedMaps hreset merged alone
    rw [hhonours, hclean] at hlaw
    rw [← hlaw]
    constructor
    · rintro ⟨alone', halone', hh⟩
      rw [halone] at halone'
      cases halone'
      exact hh
    · exact fun hh => ⟨alone, halone, hh⟩

end Merge

/-! ### Runs -/

/-- Types of other packages that have no fields. -/
def bare : Upstream := fun _ => .struct .nil

/-- A Cluster with these properties and tags. -/
def clusterWith (properties tags : Strings) : (SpecKind.cluster.type bare).Value :=
  (none, none, properties, none, tags, (clusterSpec bare).update.zero.2.2.2.2.2)

def singleton (key value : String) : Strings :=
  some (Function.update (fun _ => none) key (some value))

/-- The stored tags have a key that is not supplied, but they are emptied. -/
theorem honours_iff_clean_tags :
    ∃ merged, mergeSpecJSON .cluster (clusterWith none (singleton "env" "dev"))
        (some (.obj [("tags", .obj [("team", .str "a")])])) = some merged ∧
      Honours .cluster (clusterWith none (singleton "env" "dev")) merged
        (some (.obj [("tags", .obj [("team", .str "a")])])) := by
  refine ⟨clusterWith none (singleton "team" "a"), rfl, ?_⟩
  refine (honours_iff_clean bare .cluster _ _ _ rfl).mpr ?_
  have hnothing : without "tags" (GoUpdate.byField (clusterSpec bare).update.toFields
      [.obj [("tags", .obj [("team", .str "a")])]]) = fun _ => [] := by
    funext name
    by_cases hname : name = "tags"
    · simp [hname]
    · simp [hname, GoUpdate.byField, Fields.resolve, Fields.find, valuesOf, membersOf,
        clusterSpec_names, Ne.symm hname]
  refine (FieldExprs.update_clean (List.Nodup.of_map _ (clusterSpec_letters _))).mp ?_
  rw [hnothing]
  exact FieldExprs.clean_nil _ _

/-- The stored properties have a key that is not supplied, and keep it. -/
theorem stored_property_remains :
    ∃ merged : (SpecKind.cluster.type bare).Value,
      mergeSpecJSON .cluster (clusterWith (singleton "env" "dev") none)
          (some (.obj [("properties", .obj [("team", .str "a")])])) = some merged ∧
        merged.2.2.1.bind (· "env") = some "dev" ∧
        ¬ Honours .cluster (clusterWith (singleton "env" "dev") none) merged
          (some (.obj [("properties", .obj [("team", .str "a")])])) := by
  refine ⟨_, rfl, rfl, ?_⟩
  rintro ⟨alone, halone, hh⟩
  cases halone
  have hsame := hh.2.2.1.2 (List.cons_ne_nil _ _)
  have hkeys := Option.rel_some_some.mp hsame "env"
  cases hkeys

end Seaplane.Api.MergeSpec
