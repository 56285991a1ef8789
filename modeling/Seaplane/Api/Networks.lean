import Mathlib.Data.List.Pairwise
import Seaplane.Lib.Net

/-!
The validation of a cluster's networks.

Each CIDR of the three lists is parsed and checked on its own; overlaps and the address on which
HyperShift advertises the API server are looked at among those that passed. Overlap is tested by
asking each network for the first address of the other.
-/

namespace Seaplane.Api.Networks

open Lib Lib.Net

inductive CIDRType where
  | machine
  | service
  | pod
  deriving DecidableEq

def CIDRType.text : CIDRType → String
  | .machine => "Machine CIDR"
  | .service => "Service CIDR"
  | .pod => "Pod CIDR"

/-- The largest prefix of a list; machine networks have none. -/
def CIDRType.subnetMax : CIDRType → Option ℕ
  | .machine => none
  | .service => some 24
  | .pod => some 21

def podNodesMin : ℤ := 32

def hostPrefixMin : Int32 := 23

def hostPrefixMax : Int32 := 26

def defaultHypershiftAdvertiseAddress : String := "172.20.0.1"

structure ValidationError where
  field : String
  reason : String
  deriving DecidableEq

structure ClusterNetworkEntry where
  cidr : String
  hostPrefix : Int32

structure ClusterNetworking where
  machineNetwork : List String
  serviceNetwork : List String
  clusterNetwork : List ClusterNetworkEntry

def cidrTypeToFieldPath : CIDRType → String
  | .machine => "spec.hostedCluster.networking.machineNetwork"
  | .service => "spec.hostedCluster.networking.serviceNetwork"
  | .pod => "spec.hostedCluster.networking.clusterNetwork"

/-! ### One network -/

/-- `strconv.Atoi`. -/
def atoi (s : List Char) : Except String ℤ :=
  match parseInt64 s with
  | some n => .ok n
  | none => .error ("strconv.Atoi: parsing \"" ++ .ofList s ++ "\": " ++
      if (parseDigits s).isSome then "value out of range" else "invalid syntax")

def validateCIDRValue (cidr : String) (t : CIDRType) : Option String :=
  match split '/' cidr.toList with
  | [_, mask] =>
    match t.subnetMax with
    | none => none
    | some maxValue =>
      match atoi mask with
      | .error e => some e
      | .ok mCidr =>
        if maxValue < mCidr then
          some (t.text ++ " value range is too small for correct provisioning." ++
            " Netmask maximum allowed value is " ++ .ofList (formatUint maxValue))
        else none
  | _ => some "invalid CIDR format"

section Validator

-- what package `net` does with IPv6, and the int64 that a float beyond it becomes
variable (v6 : V6) (overflow : ℤ)

def failed (t : CIDRType) (cidr why : String) : ValidationError :=
  ⟨cidrTypeToFieldPath t, "Validating " ++ t.text ++ " '" ++ cidr ++ "' failed: " ++ why⟩

def parseNetworkCIDR (cidr : String) (t : CIDRType) : Except ValidationError IPNet :=
  match parseCIDR v6 cidr.toList with
  | none => .error (failed t cidr ("invalid CIDR address: " ++ cidr))
  | some (address, network) =>
    match validateCIDRValue cidr t with
    | some e => .error (failed t cidr e)
    | none =>
      let original := ipString v6 address
      let masked := ((maskIP address network.mask).map (ipString v6)).getD "<nil>"
      if original ≠ masked then
        .error (failed t cidr ("network address '" ++ original ++
          "' isn't consistent with network prefix " ++
            .ofList (formatUint (maskSize network.mask))))
      else .ok network

/-- `int64(math.Pow(2, float64(e)))`. -/
def powInt64 (e : Int32) : ℤ :=
  if e.toInt < 0 then 0 else if e.toInt < 63 then 2 ^ e.toInt.toNat else overflow

def validateHostPrefix (hostPrefix : Int32) (podNet : IPNet) : List ValidationError :=
  if hostPrefix = 0 then []
  else
    let podSubnet := maskSize podNet.mask
    let podNodes := powInt64 overflow (hostPrefix - .ofNat podSubnet)
    (if hostPrefix < hostPrefixMin ∨ hostPrefixMax < hostPrefix then
      [⟨"spec.hostedCluster.networking.clusterNetwork.hostPrefix",
        "Invalid Network Host Prefix '" ++ .ofList (formatInt hostPrefix.toInt) ++
        "': Subnet length should be between '23' and '26'"⟩] else []) ++
    (if podNodes < podNodesMin then
      [⟨"spec.hostedCluster.networking.clusterNetwork",
        "The pod subnet length '" ++ .ofList (formatUint podSubnet) ++ "' with host prefix '" ++
        .ofList (formatInt hostPrefix.toInt) ++ "' does not allow for enough nodes (minimum 32" ++
        " required, got " ++ .ofList (formatInt podNodes) ++ ")"⟩] else [])

/-! ### The three lists -/

/-- One of the three loops: what it reports, and the networks that it parsed. What else is checked
of a network that was parsed is a parameter. -/
def parseEntries {α : Type} (t : CIDRType) (cidr : α → String)
    (also : α → IPNet → List ValidationError) : List α → List ValidationError × List IPNet
  | [] => ([], [])
  | entry :: entries =>
    let rest := parseEntries t cidr also entries
    if cidr entry = "" then rest
    else
      match parseNetworkCIDR v6 (cidr entry) t with
      | .error e => (e :: rest.1, rest.2)
      | .ok network => (also entry network ++ rest.1, network :: rest.2)

variable (networking : ClusterNetworking)

def parseMachineNetworks : List ValidationError × List IPNet :=
  parseEntries v6 .machine id (fun _ _ => []) networking.machineNetwork

def parseServiceNetworks : List ValidationError × List IPNet :=
  parseEntries v6 .service id (fun _ _ => []) networking.serviceNetwork

def parsePodNetworks : List ValidationError × List IPNet :=
  parseEntries v6 .pod ClusterNetworkEntry.cidr
    (fun entry => validateHostPrefix overflow entry.hostPrefix) networking.clusterNetwork

def intersect (n1 n2 : IPNet) : Bool := n2.contains n1.ip || n1.contains n2.ip

/-- The networks of two lists against each other. -/
def crossOverlaps (what what' : String) (nets nets' : List IPNet) : List ValidationError :=
  nets.flatMap fun n => nets'.flatMap fun n' =>
    if intersect n n' then
      [⟨"spec.hostedCluster.networking", what ++ " '" ++ n.string v6 ++ "' and " ++ what' ++
        " '" ++ n'.string v6 ++ "' overlap"⟩]
    else []

/-- The networks of one list against those that come later. -/
def innerOverlaps (field what : String) : List IPNet → List ValidationError
  | [] => []
  | n :: nets =>
    (nets.flatMap fun n' =>
      if intersect n n' then
        [⟨field, what ++ " '" ++ n.string v6 ++ "' and '" ++ n'.string v6 ++ "' overlap"⟩]
      else []) ++ innerOverlaps field what nets

def validateNetworkOverlaps (machineNets serviceNets podNets : List IPNet) :
    List ValidationError :=
  crossOverlaps v6 "Machine CIDR" "Service CIDR" machineNets serviceNets ++
  crossOverlaps v6 "Machine CIDR" "Pod CIDR" machineNets podNets ++
  crossOverlaps v6 "Service CIDR" "Pod CIDR" serviceNets podNets ++
  innerOverlaps v6 "spec.hostedCluster.networking.machineNetwork" "Machine CIDRs" machineNets ++
  innerOverlaps v6 "spec.hostedCluster.networking.serviceNetwork" "Service CIDRs" serviceNets ++
  innerOverlaps v6 "spec.hostedCluster.networking.clusterNetwork" "Pod CIDRs" podNets

def collisions (t : CIDRType) (hypershiftIP : IP) (nets : List IPNet) : List ValidationError :=
  nets.flatMap fun n =>
    if n.contains hypershiftIP then
      [⟨cidrTypeToFieldPath t, t.text ++ " should not contain the IP '" ++
        ipString v6 hypershiftIP ++ "' as it is reserved for internal usage"⟩]
    else []

def validateHypershiftAPICollision (machineNets serviceNets podNets : List IPNet) :
    List ValidationError :=
  match parseIP v6 defaultHypershiftAdvertiseAddress.toList with
  | none => []
  | some hypershiftIP =>
    collisions v6 .machine hypershiftIP machineNets ++
    collisions v6 .service hypershiftIP serviceNets ++
    collisions v6 .pod hypershiftIP podNets

def validateNetworkCIDRs (networking : Option ClusterNetworking) : List ValidationError :=
  match networking with
  | none => []
  | some networking =>
    let machine := parseMachineNetworks v6 networking
    let service := parseServiceNetworks v6 networking
    let pod := parsePodNetworks v6 overflow networking
    machine.1 ++ service.1 ++ pod.1 ++ validateNetworkOverlaps v6 machine.2 service.2 pod.2 ++
      validateHypershiftAPICollision v6 machine.2 service.2 pod.2

end Validator

/-! ### What is asked of the networks -/

/-- An IPv4 network in CIDR notation: an address and the number of bits that count. -/
structure Cidr where
  address : ℕ
  ones : ℕ

def Cidr.addresses (c : Cidr) : Set ℕ := block 32 c.address c.ones

def Cidr.NoHostBits (c : Cidr) : Prop := 2 ^ (32 - c.ones) ∣ c.address

def cidrOf (v6 : V6) (s : String) : Option Cidr :=
  (parseCIDR v6 s.toList).bind fun (address, network) =>
    (to4 address).map fun b => ⟨value b, maskSize network.mask⟩

def ClusterNetworking.texts (networking : ClusterNetworking) : CIDRType → List String
  | .machine => networking.machineNetwork
  | .service => networking.serviceNetwork
  | .pod => networking.clusterNetwork.map ClusterNetworkEntry.cidr

/-- The networks of all lists, one after the other. -/
def ClusterNetworking.cidrs (v6 : V6) (networking : ClusterNetworking) : List Cidr :=
  ((networking.texts .machine ++ networking.texts .service ++ networking.texts .pod).filter
    (· ≠ "")).filterMap (cidrOf v6)

/-- 172.20.0.1 -/
def hypershiftAddress : ℕ := 172 * 2 ^ 24 + 20 * 2 ^ 16 + 1

structure Acceptable (v6 : V6) (networking : ClusterNetworking) : Prop where
  parse : ∀ t, ∀ s ∈ networking.texts t, s ≠ "" → ∃ c, cidrOf v6 s = some c ∧ c.NoHostBits ∧
    ∀ max, t.subnetMax = some max → c.ones ≤ max
  disjoint : (networking.cidrs v6).Pairwise fun c c' => Disjoint c.addresses c'.addresses
  unreserved : ∀ c ∈ networking.cidrs v6, hypershiftAddress ∉ c.addresses
  hostPrefix : ∀ e ∈ networking.clusterNetwork, e.cidr ≠ "" → e.hostPrefix ≠ 0 →
    23 ≤ e.hostPrefix.toInt ∧ e.hostPrefix.toInt ≤ 26 ∧
    ∀ c, cidrOf v6 e.cidr = some c → ∃ k : ℕ, e.hostPrefix.toInt = c.ones + k ∧ 32 ≤ 2 ^ k

/-! ### One network is checked -/

section One

variable {v6 : V6} {s : String} {t : CIDRType} {b address : IP} {network : IPNet} {n : ℕ}

/-- The text is an IPv4 CIDR, or none at all. -/
def IPv4OrMalformed (v6 : V6) (s : String) : Prop :=
  ∀ address network, parseCIDR v6 s.toList = some (address, network) → network.mask.length = 4

lemma validateCIDRValue_eq_none {addr mask : List Char} (hs : s.toList = addr ++ '/' :: mask)
    (haddr : '/' ∉ addr) (hmask : dtoi mask = some (n, [])) (hn : n ≤ 32) :
    validateCIDRValue s t = none ↔ ∀ max, t.subnetMax = some max → n ≤ max := by
  have hdigits := parseDigits_of_dtoi hmask
  have hall : ∀ c ∈ mask, c.isDigit := by
    unfold parseDigits at hdigits
    split at hdigits
    · next h => exact fun c hc => List.all_eq_true.mp h.2 c hc
    · cases hdigits
  have hslash : '/' ∉ mask := fun hmem => by
    have := hall _ hmem
    simp [Char.isDigit] at this
  have hatoi : atoi mask = .ok (n : ℤ) := by
    have hrange : (some n).filter (· < 2 ^ 63) = some n :=
      Option.filter_eq_some_iff.mpr ⟨rfl, decide_eq_true (by omega)⟩
    rw [atoi, parseInt64_of_digits hall, hdigits, hrange]
    rfl
  unfold validateCIDRValue
  rw [hs, split_append_cons haddr hslash]
  cases hmax : t.subnetMax with
  | none => simp
  | some max =>
    simp only [hatoi, Option.some.injEq, forall_eq']
    split
    · next hlt => simp only [reduceCtorEq, false_iff]; omega
    · next hle => simp only [true_iff]; omega

lemma consistent_iff (v6 : V6) (h : network.IsV4 b n) :
    ipString v6 (v4InV6Prefix ++ b) =
        ((maskIP (v4InV6Prefix ++ b) network.mask).map (ipString v6)).getD "<nil>" ↔
      2 ^ (32 - n) ∣ value b := by
  have hlen := length_andBytes h.length n
  rw [h.mask, maskIP_mapped h.length, Option.map_some, Option.getD_some]
  unfold ipString
  rw [to4_mapped h.length, to4_of_length hlen]
  simp only
  rw [← andBytes_eq_self_iff h.length h.ones]
  constructor
  · intro heq
    exact (text4_inj (h.length.trans hlen.symm) (String.ofList_injective heq)).symm
  · intro heq
    rw [heq]

structure Accepted (v6 : V6) (t : CIDRType) (s : String) (network : IPNet) (c : Cidr) : Prop where
  cidr : cidrOf v6 s = some c
  address : value network.ip = c.address
  v4 : network.IsV4 network.ip c.ones
  noHostBits : c.NoHostBits
  limit : ∀ max, t.subnetMax = some max → c.ones ≤ max

/-- **A network is accepted** if and only if its text is a CIDR without host bits and with a prefix
that the list allows. -/
lemma parseNetworkCIDR_spec (h4 : IPv4OrMalformed v6 s) :
    (∀ network, parseNetworkCIDR v6 s t = .ok network → ∃ c, Accepted v6 t s network c) ∧
      ∀ c, cidrOf v6 s = some c → c.NoHostBits → (∀ max, t.subnetMax = some max → c.ones ≤ max) →
        ∃ network, parseNetworkCIDR v6 s t = .ok network := by
  unfold parseNetworkCIDR
  cases hparse : parseCIDR v6 s.toList with
  | none => simp [cidrOf, hparse]
  | some parsed =>
    obtain ⟨address, network⟩ := parsed
    obtain ⟨b, n, addr, mask, rfl, hv4, hs, haddr, hmask⟩ :=
      parseCIDR_v4 hparse (h4 _ _ hparse)
    have hcidr : cidrOf v6 s = some ⟨value b, n⟩ := by
      simp [cidrOf, hparse, to4_mapped hv4.length, hv4.maskSize_eq]
    have hvalue := validateCIDRValue_eq_none (t := t) hs haddr hmask hv4.ones
    have hhost := consistent_iff v6 hv4
    constructor
    · intro network' hok
      simp only at hok
      split at hok
      · cases hok
      · next hlimit =>
        split at hok
        · cases hok
        · next hsame =>
          cases hok
          have hno := hhost.mp (not_not.mp hsame)
          have hip : network.ip = b :=
            hv4.ip.trans ((andBytes_eq_self_iff hv4.length hv4.ones).mpr hno)
          exact ⟨⟨value b, n⟩, hcidr, by rw [hip], by rw [hip]; exact hv4, hno, hvalue.mp hlimit⟩
    · intro c hc hno hmax
      rw [hcidr] at hc
      cases hc
      have hsame := hhost.mpr hno
      simp only [hvalue.mpr hmax, ne_eq, hsame, not_true_eq_false, if_false]
      exact ⟨network, rfl⟩

end One

/-! ### The lists are checked -/

variable {network : IPNet} {nets : List IPNet}

section Lists

variable {v6 : V6} {overflow : ℤ} {α : Type} {t : CIDRType} {cidr : α → String}
  {also : α → IPNet → List ValidationError} {entries : List α}

/-- A network, written as address and prefix. -/
def netCidr (network : IPNet) : Cidr := ⟨value network.ip, maskSize network.mask⟩

/-- An IPv4 network, given by its first address. -/
def IsNet (network : IPNet) : Prop := ∃ n, network.IsV4 network.ip n

lemma Accepted.netCidr_eq {s : String} {c : Cidr}
    (h : Accepted v6 t s network c) : netCidr network = c := by
  rw [netCidr, h.address, h.v4.maskSize_eq]

/-- A loop reports nothing if and only if every text that is not empty is accepted and nothing else
is reported of its network. -/
lemma parseEntries_nil_iff : (parseEntries v6 t cidr also entries).1 = [] ↔
    ∀ e ∈ entries, cidr e ≠ "" → ∃ network, parseNetworkCIDR v6 (cidr e) t = .ok network ∧
      also e network = [] := by
  induction entries with
  | nil => simp [parseEntries]
  | cons e entries ih =>
    rw [List.forall_mem_cons, ← ih]
    simp only [parseEntries]
    by_cases hempty : cidr e = ""
    · simp [hempty]
    · simp only [ne_eq, hempty, not_false_eq_true, forall_const]
      cases hparse : parseNetworkCIDR v6 (cidr e) t with
      | error err | ok network => simp

lemma parseEntries_nets (h4 : ∀ e ∈ entries, IPv4OrMalformed v6 (cidr e))
    (h : (parseEntries v6 t cidr also entries).1 = []) :
    ((entries.map cidr).filter (· ≠ "")).filterMap (cidrOf v6) =
        (parseEntries v6 t cidr also entries).2.map netCidr ∧
      ∀ network ∈ (parseEntries v6 t cidr also entries).2, IsNet network := by
  rw [parseEntries_nil_iff] at h
  induction entries with
  | nil => simp [parseEntries]
  | cons e entries ih =>
    obtain ⟨h4e, h4⟩ := List.forall_mem_cons.mp h4
    obtain ⟨he, h⟩ := List.forall_mem_cons.mp h
    obtain ⟨hcidrs, hnets⟩ := ih h4 h
    simp only [parseEntries]
    by_cases hempty : cidr e = ""
    · simp only [hempty, List.map_cons, if_true]
      rw [List.filter_cons_of_neg (by simp)]
      exact ⟨hcidrs, hnets⟩
    · obtain ⟨network, hparse, -⟩ := he hempty
      obtain ⟨c, hc⟩ := (parseNetworkCIDR_spec h4e).1 network hparse
      simp only [if_neg hempty, hparse, List.map_cons]
      rw [List.filter_cons_of_pos (by simpa using hempty), List.filterMap_cons_some hc.cidr, hcidrs,
        hc.netCidr_eq]
      exact ⟨rfl, List.forall_mem_cons.mpr ⟨⟨_, hc.v4⟩, hnets⟩⟩

lemma IsNet.value_lt (h : IsNet network) : value network.ip < 2 ^ 32 := by
  obtain ⟨n, hn⟩ := h
  have := Net.value_lt network.ip
  rwa [hn.length] at this

lemma IsNet.contains_iff {network' : IPNet} (h : IsNet network) (h' : IsNet network') :
    network.contains network'.ip = true ↔ value network'.ip ∈ (netCidr network).addresses := by
  obtain ⟨n, hn⟩ := h
  obtain ⟨n', hn'⟩ := h'
  rw [hn.contains_iff (to4_of_length hn'.length) hn'.length, Cidr.addresses, netCidr,
    hn.maskSize_eq]

/-- **The test for overlap**: networks intersect if and only if they have an address in common. -/
lemma intersect_iff {n1 n2 : IPNet} (h1 : IsNet n1) (h2 : IsNet n2) :
    intersect n1 n2 = false ↔ Disjoint (netCidr n1).addresses (netCidr n2).addresses := by
  have hdisjoint : Disjoint (netCidr n1).addresses (netCidr n2).addresses ↔
      value n2.ip ∉ (netCidr n1).addresses ∧ value n1.ip ∉ (netCidr n2).addresses :=
    disjoint_block_iff h1.value_lt h2.value_lt
  rw [hdisjoint, intersect, Bool.or_eq_false_iff, ← Bool.not_eq_true, ← Bool.not_eq_true,
    h2.contains_iff h1, h1.contains_iff h2]
  exact and_comm

lemma crossOverlaps_nil_iff {what what' : String} {nets' : List IPNet} :
    crossOverlaps v6 what what' nets nets' = [] ↔
      ∀ n ∈ nets, ∀ n' ∈ nets', intersect n n' = false := by
  simp [crossOverlaps, List.flatMap_eq_nil_iff]

lemma innerOverlaps_nil_iff {field what : String} :
    innerOverlaps v6 field what nets = [] ↔ nets.Pairwise fun n n' => intersect n n' = false := by
  induction nets with
  | nil => simp [innerOverlaps]
  | cons n nets ih =>
    rw [innerOverlaps, List.append_eq_nil_iff, ih, List.pairwise_cons, List.flatMap_eq_nil_iff]
    simp

lemma validateNetworkOverlaps_nil_iff {ms ss ps : List IPNet} :
    validateNetworkOverlaps v6 ms ss ps = [] ↔
      (ms ++ ss ++ ps).Pairwise fun n n' => intersect n n' = false := by
  simp only [validateNetworkOverlaps, List.append_eq_nil_iff, crossOverlaps_nil_iff,
    innerOverlaps_nil_iff, List.pairwise_append, List.mem_append]
  constructor
  · rintro ⟨⟨⟨⟨⟨hms, hmp⟩, hsp⟩, hm⟩, hs⟩, hp⟩
    exact ⟨⟨hm, hs, hms⟩, hp, fun n hn n' hn' => hn.elim (hmp n · n' hn') (hsp n · n' hn')⟩
  · rintro ⟨⟨hm, hs, hms⟩, hp, hmsp⟩
    exact ⟨⟨⟨⟨⟨hms, fun n hn n' hn' => hmsp n (.inl hn) n' hn'⟩,
      fun n hn n' hn' => hmsp n (.inr hn) n' hn'⟩, hm⟩, hs⟩, hp⟩

def hypershiftBytes : IP := [172, 20, 0, 1]

lemma parseIP_hypershift : parseIP v6 defaultHypershiftAdvertiseAddress.toList =
    some (v4InV6Prefix ++ hypershiftBytes) := rfl

lemma value_hypershift : value hypershiftBytes = hypershiftAddress := by decide

lemma collision_iff (h : IsNet network) :
    network.contains (v4InV6Prefix ++ hypershiftBytes) = true ↔
      hypershiftAddress ∈ (netCidr network).addresses := by
  obtain ⟨n, hn⟩ := h
  rw [hn.contains_iff (to4_mapped rfl) rfl, value_hypershift, Cidr.addresses, netCidr,
    hn.maskSize_eq]

lemma validateHypershiftAPICollision_nil_iff {ms ss ps : List IPNet} :
    validateHypershiftAPICollision v6 ms ss ps = [] ↔
      ∀ n ∈ ms ++ ss ++ ps, n.contains (v4InV6Prefix ++ hypershiftBytes) = false := by
  simp [validateHypershiftAPICollision, parseIP_hypershift, collisions, List.flatMap_eq_nil_iff,
    or_imp, forall_and]

lemma powInt64_sub {hp : Int32} {n : ℕ} (h1 : 23 ≤ hp.toInt) (h2 : hp.toInt ≤ 26) (hn : n ≤ 32) :
    podNodesMin ≤ powInt64 overflow (hp - .ofNat n) ↔
      ∃ k : ℕ, hp.toInt = n + k ∧ 32 ≤ 2 ^ k := by
  have hsub : (hp - Int32.ofNat n).toInt = hp.toInt - n := by
    rw [Int32.toInt_sub, Int32.toInt_ofNat_of_lt (by omega)]
    exact Int.bmod_eq_of_le (by omega) (by omega)
  unfold powInt64 podNodesMin
  rw [hsub]
  by_cases hneg : hp.toInt - n < 0
  · rw [if_pos hneg]
    refine iff_of_false (by omega) ?_
    rintro ⟨k, hk, -⟩
    omega
  · obtain ⟨k, hk⟩ := Int.eq_ofNat_of_zero_le (not_lt.mp hneg)
    rw [if_neg hneg, if_pos (by omega), hk, Int.toNat_natCast]
    have hpow : (32 : ℤ) ≤ 2 ^ k ↔ 32 ≤ 2 ^ k := by exact_mod_cast Iff.rfl
    rw [hpow]
    constructor
    · intro hle
      exact ⟨k, by omega, hle⟩
    · rintro ⟨k', hk', hle⟩
      have : k' = k := by omega
      rwa [← this]

lemma validateHostPrefix_nil_iff {hp : Int32} (hn : maskSize network.mask ≤ 32) :
    validateHostPrefix overflow hp network = [] ↔
      (hp ≠ 0 → 23 ≤ hp.toInt ∧ hp.toInt ≤ 26 ∧
        ∃ k : ℕ, hp.toInt = (netCidr network).ones + k ∧ 32 ≤ 2 ^ k) := by
  unfold validateHostPrefix
  by_cases h0 : hp = 0
  · simp [h0]
  have hrange : (hp < hostPrefixMin ∨ hostPrefixMax < hp) ↔ ¬(23 ≤ hp.toInt ∧ hp.toInt ≤ 26) := by
    rw [Int32.lt_iff_toInt_lt, Int32.lt_iff_toInt_lt,
      show hostPrefixMin.toInt = 23 from rfl, show hostPrefixMax.toInt = 26 from rfl]
    omega
  simp only [ne_eq, h0, not_false_eq_true, forall_const, if_false, List.append_eq_nil_iff,
    ite_eq_right_iff, List.cons_ne_nil, imp_false, hrange, not_not, not_lt]
  rw [and_assoc]
  refine and_congr_right fun h1 => and_congr_right fun h2 => ?_
  exact powInt64_sub h1 h2 hn

end Lists

section Exact

variable {v6 : V6} {overflow : ℤ} {networking : ClusterNetworking}

/-- A loop reports nothing if and only if its texts are as they have to be, and what else is checked
of their networks. -/
lemma parseEntries_exact {α : Type} {t : CIDRType} {cidr : α → String}
    {also : α → IPNet → List ValidationError} {entries : List α}
    (h4 : ∀ e ∈ entries, IPv4OrMalformed v6 (cidr e)) :
    (parseEntries v6 t cidr also entries).1 = [] ↔
      (∀ s ∈ entries.map cidr, s ≠ "" → ∃ c, cidrOf v6 s = some c ∧ c.NoHostBits ∧
        ∀ max, t.subnetMax = some max → c.ones ≤ max) ∧
      ∀ e ∈ entries, cidr e ≠ "" → ∀ network c, parseNetworkCIDR v6 (cidr e) t = .ok network →
        Accepted v6 t (cidr e) network c → also e network = [] := by
  rw [parseEntries_nil_iff]
  constructor
  · intro h
    refine ⟨List.forall_mem_map.mpr fun e he hne => ?_, fun e he hne network c hok _ => ?_⟩
    · obtain ⟨network, hok, -⟩ := h e he hne
      obtain ⟨c, hc⟩ := (parseNetworkCIDR_spec (h4 e he)).1 network hok
      exact ⟨c, hc.cidr, hc.noHostBits, hc.limit⟩
    · obtain ⟨network', hok', halso⟩ := h e he hne
      cases hok.symm.trans hok'
      exact halso
  · rintro ⟨htexts, halso⟩ e he hne
    obtain ⟨c, hcidr, hno, hmax⟩ := List.forall_mem_map.mp htexts e he hne
    obtain ⟨network, hok⟩ := (parseNetworkCIDR_spec (h4 e he)).2 c hcidr hno hmax
    obtain ⟨c', hc'⟩ := (parseNetworkCIDR_spec (h4 e he)).1 network hok
    exact ⟨network, hok, halso e he hne network c' hok hc'⟩

lemma hostPrefix_iff (hparse : ∀ s ∈ networking.texts .pod, s ≠ "" → ∃ c, cidrOf v6 s = some c ∧
      c.NoHostBits ∧ ∀ max, CIDRType.pod.subnetMax = some max → c.ones ≤ max)
    (h4 : ∀ s ∈ networking.texts .pod, IPv4OrMalformed v6 s) :
    (∀ e ∈ networking.clusterNetwork, e.cidr ≠ "" → ∀ network c,
      parseNetworkCIDR v6 e.cidr .pod = .ok network → Accepted v6 .pod e.cidr network c →
      validateHostPrefix overflow e.hostPrefix network = []) ↔
    ∀ e ∈ networking.clusterNetwork, e.cidr ≠ "" → e.hostPrefix ≠ 0 →
      23 ≤ e.hostPrefix.toInt ∧ e.hostPrefix.toInt ≤ 26 ∧
      ∀ c, cidrOf v6 e.cidr = some c → ∃ k : ℕ, e.hostPrefix.toInt = c.ones + k ∧ 32 ≤ 2 ^ k := by
  have hexact {e : ClusterNetworkEntry} {network : IPNet} {c : Cidr}
      (hc : Accepted v6 .pod e.cidr network c) :
      validateHostPrefix overflow e.hostPrefix network = [] ↔ (e.hostPrefix ≠ 0 →
        23 ≤ e.hostPrefix.toInt ∧ e.hostPrefix.toInt ≤ 26 ∧
        ∃ k : ℕ, e.hostPrefix.toInt = c.ones + k ∧ 32 ≤ 2 ^ k) := by
    rw [validateHostPrefix_nil_iff (hc.v4.maskSize_eq.trans_le hc.v4.ones), hc.netCidr_eq]
  refine forall₃_congr fun e he hne => ?_
  have hmem : e.cidr ∈ networking.texts .pod := List.mem_map_of_mem he
  obtain ⟨c, hcidr, hno, hmax⟩ := hparse _ hmem hne
  obtain ⟨network, hok⟩ := (parseNetworkCIDR_spec (h4 _ hmem)).2 c hcidr hno hmax
  constructor
  · intro h h0
    obtain ⟨c', hc'⟩ := (parseNetworkCIDR_spec (h4 _ hmem)).1 network hok
    obtain ⟨hmin, hmax, hroom⟩ := (hexact hc').mp (h network c' hok hc') h0
    refine ⟨hmin, hmax, fun d hd => ?_⟩
    cases hd.symm.trans hc'.cidr
    exact hroom
  · intro h network c _ hc
    refine (hexact hc).mpr fun h0 => ?_
    obtain ⟨hmin, hmax, hroom⟩ := h h0
    exact ⟨hmin, hmax, hroom c hc.cidr⟩

lemma cidrs_eq (h4 : ∀ t, ∀ s ∈ networking.texts t, IPv4OrMalformed v6 s)
    (hm : (parseMachineNetworks v6 networking).1 = [])
    (hs : (parseServiceNetworks v6 networking).1 = [])
    (hp : (parsePodNetworks v6 overflow networking).1 = []) :
    networking.cidrs v6 = ((parseMachineNetworks v6 networking).2 ++
        (parseServiceNetworks v6 networking).2 ++
        (parsePodNetworks v6 overflow networking).2).map netCidr ∧
      ∀ network ∈ (parseMachineNetworks v6 networking).2 ++
        (parseServiceNetworks v6 networking).2 ++ (parsePodNetworks v6 overflow networking).2,
        IsNet network := by
  obtain ⟨hmachine, hmnets⟩ := parseEntries_nets (h4 .machine) hm
  obtain ⟨hservice, hsnets⟩ := parseEntries_nets (h4 .service) hs
  obtain ⟨hpod, hpnets⟩ := parseEntries_nets (List.forall_mem_map.mp (h4 .pod)) hp
  rw [List.map_id'] at hmachine hservice
  constructor
  · rw [ClusterNetworking.cidrs, List.filter_append, List.filter_append, List.filterMap_append,
      List.filterMap_append, List.map_append, List.map_append]
    exact congrArg₂ (· ++ ·) (congrArg₂ (· ++ ·) hmachine hservice) hpod
  · intro network hmem
    rw [List.mem_append, List.mem_append] at hmem
    obtain (h | h) | h := hmem
    · exact hmnets network h
    · exact hsnets network h
    · exact hpnets network h

lemma crossChecks_iff (hnets : ∀ network ∈ nets, IsNet network) :
    ((nets.Pairwise fun n n' => intersect n n' = false) ↔
        (nets.map netCidr).Pairwise fun c c' => Disjoint c.addresses c'.addresses) ∧
      ((∀ n ∈ nets, n.contains (v4InV6Prefix ++ hypershiftBytes) = false) ↔
        ∀ c ∈ nets.map netCidr, hypershiftAddress ∉ c.addresses) := by
  constructor
  · rw [List.pairwise_map]
    exact List.Pairwise.iff_of_mem fun hn hn' => intersect_iff (hnets _ hn) (hnets _ hn')
  · rw [List.forall_mem_map]
    refine forall₂_congr fun n hn => ?_
    rw [← Bool.not_eq_true, collision_iff (hnets n hn)]

/-- **The validation is exact.** For IPv4 networks and malformed texts, nothing is reported if and
only if every text parses without host bits and within its limit, no two networks have an address in
common, none has the reserved address, and every host prefix that is given is in range and leaves
room for the nodes. -/
theorem validateNetworkCIDRs_exact (v6 : V6) (overflow : ℤ) (networking : ClusterNetworking)
    (h4 : ∀ t, ∀ s ∈ networking.texts t, IPv4OrMalformed v6 s) :
    validateNetworkCIDRs v6 overflow (some networking) = [] ↔ Acceptable v6 networking := by
  have hm : (parseMachineNetworks v6 networking).1 = [] ↔ _ := parseEntries_exact (h4 .machine)
  have hs : (parseServiceNetworks v6 networking).1 = [] ↔ _ := parseEntries_exact (h4 .service)
  have hp : (parsePodNetworks v6 overflow networking).1 = [] ↔ _ :=
    parseEntries_exact (List.forall_mem_map.mp (h4 .pod))
  simp only [List.map_id, implies_true, and_true] at hm hs
  simp only [validateNetworkCIDRs, List.append_eq_nil_iff, validateNetworkOverlaps_nil_iff,
    validateHypershiftAPICollision_nil_iff]
  constructor
  · rintro ⟨⟨⟨⟨hm0, hs0⟩, hp0⟩, hoverlaps⟩, hcollisions⟩
    obtain ⟨hcidrs, hnets⟩ := cidrs_eq h4 hm0 hs0 hp0
    obtain ⟨hpairs, hreserved⟩ := crossChecks_iff hnets
    obtain ⟨hpod, hhosts⟩ := hp.mp hp0
    refine ⟨fun t => ?_, ?_, ?_, (hostPrefix_iff hpod (h4 .pod)).mp hhosts⟩
    · cases t with
      | machine => exact hm.mp hm0
      | service => exact hs.mp hs0
      | pod => exact hpod
    · rw [hcidrs]
      exact hpairs.mp hoverlaps
    · rw [hcidrs]
      exact hreserved.mp hcollisions
  · intro h
    have hm0 := hm.mpr (h.parse .machine)
    have hs0 := hs.mpr (h.parse .service)
    have hp0 := hp.mpr ⟨h.parse .pod, (hostPrefix_iff (h.parse .pod) (h4 .pod)).mpr h.hostPrefix⟩
    obtain ⟨hcidrs, hnets⟩ := cidrs_eq h4 hm0 hs0 hp0
    obtain ⟨hpairs, hreserved⟩ := crossChecks_iff hnets
    refine ⟨⟨⟨⟨hm0, hs0⟩, hp0⟩, hpairs.mpr ?_⟩, hreserved.mpr ?_⟩
    · rw [← hcidrs]
      exact h.disjoint
    · rw [← hcidrs]
      exact h.unreserved

def usualNetworking : ClusterNetworking where
  machineNetwork := ["10.0.0.0/16"]
  serviceNetwork := ["172.30.0.0/16", ""]
  clusterNetwork := [⟨"10.128.0.0/14", 23⟩, ⟨"10.132.0.0/14", 0⟩]

def noV6 : V6 := ⟨fun _ => none, fun _ => ""⟩

theorem validateNetworkCIDRs_exact_usual : validateNetworkCIDRs noV6 0 (some usualNetworking) = [] ∧
    Acceptable noV6 usualNetworking := by
  have hpass : validateNetworkCIDRs noV6 0 (some usualNetworking) = [] := by decide +kernel
  have h4 : ∀ t, ∀ s ∈ usualNetworking.texts t,
      (parseCIDR noV6 s.toList).all fun p => p.2.mask.length = 4 := by
    intro t
    cases t <;> decide +kernel
  refine ⟨hpass, (validateNetworkCIDRs_exact noV6 0 usualNetworking ?_).mp hpass⟩
  intro t s hs address network hparse
  have := h4 t s hs
  rw [hparse] at this
  exact of_decide_eq_true this

end Exact

end Seaplane.Api.Networks
