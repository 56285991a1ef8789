import Mathlib.Algebra.Order.Group.Nat
import Mathlib.Data.Set.Lattice
import Mathlib.Order.CompletePartialOrder
import Mathlib.Tactic.Ring
import Seaplane.Lib.Strconv

/-!
Addresses and networks of Go's package `net`.

An address is a list of bytes, of length 4 or 16, and a network an address with a mask. Read as a
number, the bytes under a mask of `n` ones are the number without its last bits, so a network is a
block of numbers that agree in their first `n` bits. Two blocks meet if and only if one of them
contains the first number of the other.

What the package makes of IPv6 texts is a parameter.
-/

namespace Seaplane.Lib.Net

abbrev Byte := BitVec 8

abbrev IP := List Byte

/-! ### Blocks of numbers -/

/-- The numbers of `w` bits that agree with `base` in the first `n`. -/
def block (w base n : ℕ) : Set ℕ := {x | x < 2 ^ w ∧ x / 2 ^ (w - n) = base / 2 ^ (w - n)}

section Blocks

variable {w a b n m x : ℕ}

lemma mem_block_self (ha : a < 2 ^ w) : a ∈ block w a n := ⟨ha, rfl⟩

lemma agree_mono (h : n ≤ m) (hx : a / 2 ^ (w - m) = b / 2 ^ (w - m)) :
    a / 2 ^ (w - n) = b / 2 ^ (w - n) := by
  have hsplit : 2 ^ (w - n) = 2 ^ (w - m) * 2 ^ (w - n - (w - m)) := by
    rw [← pow_add]
    congr 1
    omega
  rw [hsplit, ← Nat.div_div_eq_div_mul, ← Nat.div_div_eq_div_mul, hx]

lemma mem_block_of_meet (hb : b < 2 ^ w) (h : n ≤ m) (hx : x ∈ block w a n)
    (hx' : x ∈ block w b m) : b ∈ block w a n :=
  ⟨hb, (agree_mono h hx'.2).symm.trans hx.2⟩

/-- **Blocks are disjoint** if and only if neither has the base of the other. -/
lemma disjoint_block_iff (ha : a < 2 ^ w) (hb : b < 2 ^ w) :
    Disjoint (block w a n) (block w b m) ↔ b ∉ block w a n ∧ a ∉ block w b m := by
  rw [Set.disjoint_left]
  constructor
  · intro h
    exact ⟨fun hmem => h hmem (mem_block_self hb), h (mem_block_self ha)⟩
  · rintro ⟨hba, hab⟩ x hx hx'
    rcases Nat.le_total n m with hnm | hmn
    · exact hba (mem_block_of_meet hb hnm hx hx')
    · exact hab (mem_block_of_meet ha hmn hx' hx)

end Blocks

/-! ### Bytes as numbers -/

/-- The number that bytes stand for, the first one counting most. -/
def value : List Byte → ℕ
  | [] => 0
  | b :: bs => b.toNat * 2 ^ (8 * bs.length) + value bs

lemma value_lt (bs : List Byte) : value bs < 2 ^ (8 * bs.length) := by
  induction bs with
  | nil => decide
  | cons b bs ih =>
    have hb : b.toNat + 1 ≤ 2 ^ 8 := b.isLt
    calc value (b :: bs) < b.toNat * 2 ^ (8 * bs.length) + 2 ^ (8 * bs.length) :=
          Nat.add_lt_add_left ih _
      _ = (b.toNat + 1) * 2 ^ (8 * bs.length) := by ring
      _ ≤ 2 ^ 8 * 2 ^ (8 * bs.length) := Nat.mul_le_mul_right _ hb
      _ = 2 ^ (8 * (b :: bs).length) := by
          rw [← pow_add, List.length_cons]
          congr 1
          omega

lemma value_cons_div (b : Byte) (bs : List Byte) :
    value (b :: bs) / 2 ^ (8 * bs.length) = b.toNat := by
  rw [value, Nat.add_comm, Nat.add_mul_div_right _ _ (Nat.two_pow_pos _),
    Nat.div_eq_of_lt (value_lt bs), Nat.zero_add]

lemma value_inj {xs ys : List Byte} (hlen : xs.length = ys.length) (h : value xs = value ys) :
    xs = ys := by
  induction xs generalizing ys with
  | nil => exact (List.length_eq_zero_iff.mp hlen.symm).symm
  | cons x xs ih =>
    cases ys with
    | nil => cases hlen
    | cons y ys =>
      have hlen' : xs.length = ys.length := Nat.succ.inj hlen
      have hfirst : x = y := by
        refine BitVec.eq_of_toNat_eq ?_
        rw [← value_cons_div x xs, ← value_cons_div y ys, h, hlen']
      subst hfirst
      rw [value, value, hlen'] at h
      rw [ih hlen' (Nat.add_left_cancel h)]

/-! ### Masks -/

/-- `CIDRMask`, for a mask of `l` bytes. -/
def cidrMask : (l : ℕ) → (ones : ℕ) → List Byte
  | 0, _ => []
  | l + 1, n =>
    if 8 ≤ n then 0xff :: cidrMask l (n - 8) else ~~~(0xff#8 >>> n) :: cidrMask l 0

def andBytes (x m : List Byte) : List Byte := List.zipWith (· &&& ·) x m

def leadingOnes (b : Byte) : ℕ :=
  ((List.range 8).takeWhile fun i => b.getMsbD i).length

/-- `simpleMaskLength`; none for a mask that is not ones followed by zeros. -/
def simpleMaskLength : List Byte → Option ℕ
  | [] => some 0
  | b :: bs =>
    if b = 0xff then (simpleMaskLength bs).map (8 + ·)
    else if b <<< leadingOnes b = 0 ∧ bs.all (· == 0) then some (leadingOnes b)
    else none

section Masks

variable {l n : ℕ} {x y : List Byte}

@[simp] lemma length_cidrMask (l n : ℕ) : (cidrMask l n).length = l := by
  induction l generalizing n with
  | zero => rfl
  | succ l ih =>
    unfold cidrMask
    split <;> simp [ih]

lemma cidrMask_zero (l : ℕ) : cidrMask l 0 = List.replicate l 0 := by
  induction l with
  | zero => rfl
  | succ l ih =>
    rw [cidrMask, if_neg (by omega), ih, List.replicate_succ]
    rfl

lemma toNat_and_mask (b : Byte) (hn : n < 8) :
    (b &&& ~~~(0xff#8 >>> n)).toNat = b.toNat / 2 ^ (8 - n) * 2 ^ (8 - n) := by
  have hall : ∀ n < 8, ∀ b : Fin (2 ^ 8), (BitVec.ofFin b &&& ~~~(0xff#8 >>> n)).toNat =
      b.val / 2 ^ (8 - n) * 2 ^ (8 - n) := by decide +kernel
  exact hall n hn b.toFin

/-- **Under a mask the last bits are cleared.** -/
lemma value_andBytes (hx : x.length = l) (hn : n ≤ 8 * l) :
    value (andBytes x (cidrMask l n)) = value x / 2 ^ (8 * l - n) * 2 ^ (8 * l - n) := by
  induction l generalizing n x with
  | zero =>
    rw [List.length_eq_zero_iff.mp hx]
    simp [andBytes, value]
  | succ l ih =>
    cases x with
    | nil => cases hx
    | cons b bs =>
      have hbs : bs.length = l := Nat.succ.inj hx
      have hlt := value_lt bs
      rw [hbs] at hlt
      unfold cidrMask
      split
      · next h8 =>
        -- the byte stays, and its weight is a multiple of the cleared part
        have ih' := ih hbs (n := n - 8) (by omega)
        have hk : 8 * (l + 1) - n = 8 * l - (n - 8) := by omega
        have hpow : 2 ^ (8 * l) = 2 ^ (8 * l - (n - 8)) * 2 ^ (n - 8) := by
          rw [← pow_add]
          congr 1
          omega
        have hlen : (andBytes bs (cidrMask l (n - 8))).length = l := by simp [andBytes, hbs]
        have hff : b &&& 0xff = b := BitVec.and_allOnes
        simp only [andBytes, List.zipWith_cons_cons, value, hff] at ih' hlen ⊢
        rw [hlen, ih', hk, hbs, hpow]
        generalize 2 ^ (8 * l - (n - 8)) = q at *
        have hq : 0 < q := Nat.pos_of_ne_zero fun h0 => by simp [h0] at hpow
        rw [show b.toNat * (q * 2 ^ (n - 8)) + value bs = value bs + q * (b.toNat * 2 ^ (n - 8)) by
          ring, Nat.add_mul_div_left _ _ hq]
        ring
      · next h8 =>
        -- everything after the byte is cleared
        have h8' : n < 8 := by omega
        have ih' := ih hbs (n := 0) (by omega)
        have hlen : (andBytes bs (cidrMask l 0)).length = l := by simp [andBytes, hbs]
        have hpow : 2 ^ (8 * (l + 1) - n) = 2 ^ (8 * l) * 2 ^ (8 - n) := by
          rw [← pow_add]
          congr 1
          omega
        rw [Nat.sub_zero, Nat.div_eq_of_lt hlt, Nat.zero_mul] at ih'
        rw [hpow, ← Nat.div_div_eq_div_mul, ← hbs, value_cons_div, hbs]
        simp only [andBytes, List.zipWith_cons_cons, value] at ih' hlen ⊢
        rw [hlen, ih', toNat_and_mask b h8']
        ring

lemma length_andBytes (hx : x.length = l) (n : ℕ) : (andBytes x (cidrMask l n)).length = l := by
  simp [andBytes, hx]

lemma andBytes_eq_iff (hx : x.length = l) (hy : y.length = l) (hn : n ≤ 8 * l) :
    andBytes x (cidrMask l n) = andBytes y (cidrMask l n) ↔
      value x / 2 ^ (8 * l - n) = value y / 2 ^ (8 * l - n) := by
  constructor
  · intro h
    have hval := congrArg value h
    rw [value_andBytes hx hn, value_andBytes hy hn] at hval
    exact Nat.eq_of_mul_eq_mul_right (Nat.two_pow_pos _) hval
  · intro h
    refine value_inj (by rw [length_andBytes hx, length_andBytes hy]) ?_
    rw [value_andBytes hx hn, value_andBytes hy hn, h]

lemma andBytes_eq_self_iff (hx : x.length = l) (hn : n ≤ 8 * l) :
    andBytes x (cidrMask l n) = x ↔ 2 ^ (8 * l - n) ∣ value x := by
  rw [Nat.dvd_iff_div_mul_eq, ← value_andBytes hx hn]
  exact ⟨fun h => by rw [h], fun h => value_inj ((length_andBytes hx n).trans hx.symm) h⟩

lemma leadingOnes_mask (hn : n < 8) : leadingOnes (~~~(0xff#8 >>> n)) = n ∧
    ~~~(0xff#8 >>> n) <<< n = 0 ∧ ~~~(0xff#8 >>> n) ≠ 0xff := by
  have hall : ∀ n < 8, leadingOnes (~~~(0xff#8 >>> n)) = n ∧
      ~~~(0xff#8 >>> n) <<< n = 0 ∧ ~~~(0xff#8 >>> n) ≠ 0xff := by decide
  exact hall n hn

lemma simpleMaskLength_cidrMask (hn : n ≤ 8 * l) : simpleMaskLength (cidrMask l n) = some n := by
  induction l generalizing n with
  | zero =>
    have : n = 0 := by omega
    rw [this]
    rfl
  | succ l ih =>
    unfold cidrMask
    split
    · next h8 =>
      rw [simpleMaskLength, if_pos rfl, ih (by omega)]
      simp only [Option.map_some, Option.some.injEq]
      omega
    · next h8 =>
      obtain ⟨hlead, hrest, hne⟩ := leadingOnes_mask (show n < 8 by omega)
      rw [simpleMaskLength, if_neg hne, hlead, if_pos ⟨hrest, by simp [cidrMask_zero]⟩]

end Masks

/-! ### Reading addresses -/

/-- The largest number `dtoi` goes on with. -/
def big : ℕ := 0xFFFFFF

def digitValue (c : Char) : ℕ := c.toNat - '0'.toNat

/-- The digits from a number on, and what comes after them. -/
def dtoiFrom (n : ℕ) : List Char → Option (ℕ × List Char)
  | [] => some (n, [])
  | c :: cs =>
    if c.isDigit then
      if big ≤ n * 10 + digitValue c then none else dtoiFrom (n * 10 + digitValue c) cs
    else some (n, c :: cs)

def dtoi : List Char → Option (ℕ × List Char)
  | [] => none
  | c :: cs => if c.isDigit then dtoiFrom 0 (c :: cs) else none

/-- The octets of a dotted text: those read so far, and the value and the number of digits of the
one in progress. -/
def parseIPv4Fields (fields : List Byte) (val digLen : ℕ) : List Char → Option IP
  | [] => if fields.length < 3 then none else some (fields ++ [.ofNat 8 val])
  | c :: cs =>
    if c.isDigit then
      if digLen = 1 ∧ val = 0 then none
      else if 255 < val * 10 + digitValue c then none
      else parseIPv4Fields fields (val * 10 + digitValue c) (digLen + 1) cs
    else if c = '.' then
      if digLen = 0 ∨ cs = [] then none
      else if fields.length = 3 then none
      else parseIPv4Fields (fields ++ [.ofNat 8 val]) 0 0 cs
    else none

structure V6 where
  parse : List Char → Option (IP × Bool)
  text : IP → String

/-- `netip.Addr`; an IPv6 address may have a zone. -/
inductive Addr where
  | v4 (ip : IP)
  | v6 (ip : IP) (zone : Bool)

def parseAddr (v6 : V6) (s : List Char) : Option Addr :=
  match s.find? fun c => c = '.' ∨ c = ':' ∨ c = '%' with
  | some '.' => (parseIPv4Fields [] 0 0 s).map .v4
  | some ':' => (v6.parse s).map fun a => .v6 a.1 a.2
  | _ => none

def v4InV6Prefix : IP := List.replicate 10 0 ++ [0xff, 0xff]

def as16 : Addr → IP
  | .v4 ip => v4InV6Prefix ++ ip
  | .v6 ip _ => ip

def Addr.bytes : Addr → ℕ
  | .v4 _ => 4
  | .v6 .. => 16

def Addr.zoned : Addr → Bool
  | .v4 _ => false
  | .v6 _ zone => zone

/-- The address in four bytes, if it has such a form. -/
def to4 (ip : IP) : Option IP :=
  if ip.length = 4 then some ip
  else if ip.length = 16 ∧ ip.take 12 = v4InV6Prefix then some (ip.drop 12)
  else none

/-- `IP.Mask`; none when the lengths do not go together. -/
def maskIP (ip mask : IP) : Option IP :=
  let mask := if mask.length = 16 ∧ ip.length = 4 ∧ (mask.take 12).all (· == 0xff) then
    mask.drop 12 else mask
  let ip := if mask.length = 4 ∧ ip.length = 16 ∧ ip.take 12 = v4InV6Prefix then ip.drop 12 else ip
  if ip.length = mask.length then some (andBytes ip mask) else none

structure IPNet where
  ip : IP
  mask : IP
  deriving DecidableEq

def networkNumberAndMask (n : IPNet) : Option (IP × IP) :=
  match (to4 n.ip).or (if n.ip.length = 16 then some n.ip else none) with
  | none => none
  | some ip =>
    if n.mask.length = 4 then if ip.length = 4 then some (ip, n.mask) else none
    else if n.mask.length = 16 then
      some (ip, if ip.length = 4 then n.mask.drop 12 else n.mask)
    else none

def IPNet.contains (n : IPNet) (ip : IP) : Bool :=
  match networkNumberAndMask n with
  | none => ip.isEmpty
  | some (nn, m) =>
    let ip := (to4 ip).getD ip
    ip.length = nn.length && andBytes nn m == andBytes ip m

/-- `ParseCIDR`: the address, and the network it is in. -/
def parseCIDR (v6 : V6) (s : List Char) : Option (IP × IPNet) :=
  match s.dropWhile (· ≠ '/') with
  | [] => none
  | _ :: mask =>
    match parseAddr v6 (s.takeWhile (· ≠ '/')) with
    | none => none
    | some a =>
      if a.zoned then none
      else
        match dtoi mask with
        | some (n, []) =>
          if 8 * a.bytes < n then none
          else
            (maskIP (as16 a) (cidrMask a.bytes n)).map fun ip =>
              (as16 a, ⟨ip, cidrMask a.bytes n⟩)
        | _ => none

def text4 (ip : IP) : List Char :=
  List.intercalate ['.'] (ip.map fun b => formatUint b.toNat)

/-- `IP.String`. -/
def ipString (v6 : V6) (ip : IP) : String :=
  match to4 ip with
  | some b => .ofList (text4 b)
  | none => v6.text ip

/-- `Mask.Size`, its first result. -/
def maskSize (mask : IP) : ℕ := (simpleMaskLength mask).getD 0

def hexByte (b : Byte) : List Char := [(b.toNat / 16).digitChar, (b.toNat % 16).digitChar]

/-- `IPNet.String`. -/
def IPNet.string (v6 : V6) (n : IPNet) : String :=
  match networkNumberAndMask n with
  | none => "<nil>"
  | some (nn, m) =>
    match simpleMaskLength m with
    | none => ipString v6 nn ++ "/" ++ .ofList (m.flatMap hexByte)
    | some l => ipString v6 nn ++ "/" ++ .ofList (formatUint l)

/-- `ParseIP`. -/
def parseIP (v6 : V6) (s : List Char) : Option IP :=
  ((parseAddr v6 s).filter fun a => !a.zoned).map as16

/-- `strings.Split` by one letter. -/
def split (c : Char) : List Char → List (List Char)
  | [] => [[]]
  | x :: xs =>
    if x = c then [] :: split c xs
    else
      match split c xs with
      | [] => [[x]]
      | y :: ys => (x :: y) :: ys

lemma split_of_notMem {c : Char} {xs : List Char} (h : c ∉ xs) : split c xs = [xs] := by
  induction xs with
  | nil => rfl
  | cons x xs ih =>
    have hne : x ≠ c := fun heq => h (heq ▸ List.mem_cons_self)
    rw [split, if_neg hne, ih fun hmem => h (List.mem_cons_of_mem _ hmem)]

lemma split_append_cons {c : Char} {xs ys : List Char} (hx : c ∉ xs) (hy : c ∉ ys) :
    split c (xs ++ c :: ys) = [xs, ys] := by
  induction xs with
  | nil => rw [List.nil_append, split, if_pos rfl, split_of_notMem hy]
  | cons x xs ih =>
    have hne : x ≠ c := fun heq => hx (heq ▸ List.mem_cons_self)
    rw [List.cons_append, split, if_neg hne, ih fun hmem => hx (List.mem_cons_of_mem _ hmem)]

lemma dtoiFrom_all {n m : ℕ} {cs : List Char} (h : dtoiFrom n cs = some (m, [])) :
    cs.all Char.isDigit = true ∧ Nat.ofDigitChars 10 cs n = m := by
  induction cs generalizing n with
  | nil =>
    cases h
    exact ⟨rfl, rfl⟩
  | cons c cs ih =>
    unfold dtoiFrom at h
    split at h
    · next hdigit =>
      split at h
      · cases h
      · obtain ⟨hall, hvalue⟩ := ih h
        refine ⟨by simp [hdigit, hall], ?_⟩
        rw [Nat.ofDigitChars_cons, ← hvalue, Nat.mul_comm 10]
        rfl
    · cases h

lemma parseDigits_of_dtoi {m : ℕ} {cs : List Char} (h : dtoi cs = some (m, [])) :
    parseDigits cs = some m := by
  cases cs with
  | nil => cases h
  | cons c cs =>
    simp only [dtoi, Option.ite_none_right_eq_some] at h
    obtain ⟨hall, hvalue⟩ := dtoiFrom_all h.2
    rw [parseDigits, if_pos ⟨List.cons_ne_nil _ _, hall⟩, hvalue]

/-! ### IPv4 networks -/

section V4

variable {v6 : V6} {s : List Char} {ip address b b' : IP} {network : IPNet} {n m : ℕ}

lemma length_parseIPv4Fields {fields : List Byte} {val digLen : ℕ} (hf : fields.length ≤ 3)
    (h : parseIPv4Fields fields val digLen s = some ip) : ip.length = 4 := by
  induction s generalizing fields val digLen with
  | nil =>
    simp only [parseIPv4Fields] at h
    split at h
    · cases h
    · cases h
      simp only [List.length_append, List.length_singleton]
      omega
  | cons c cs ih =>
    simp only [parseIPv4Fields] at h
    split at h
    · split at h
      · cases h
      · split at h
        · cases h
        · exact ih hf h
    · split at h
      · split at h
        · cases h
        · split at h
          · cases h
          · next h3 => exact ih (by simp only [List.length_append, List.length_singleton]; omega) h
      · cases h

/-- An IPv4 network: four bytes and a number of ones. -/
structure IPNet.IsV4 (network : IPNet) (b : IP) (n : ℕ) : Prop where
  length : b.length = 4
  ones : n ≤ 32
  ip : network.ip = andBytes b (cidrMask 4 n)
  mask : network.mask = cidrMask 4 n

lemma to4_of_length (h : b.length = 4) : to4 b = some b := if_pos h

lemma to4_mapped (h : b.length = 4) : to4 (v4InV6Prefix ++ b) = some b := by
  have hfront : v4InV6Prefix.length = 12 := rfl
  unfold to4
  rw [if_neg (by simp [hfront, h]), if_pos]
  · rw [List.drop_left' hfront]
  · exact ⟨by simp [hfront, h], List.take_left' hfront⟩

lemma maskIP_mapped (hb : b.length = 4) (n : ℕ) :
    maskIP (v4InV6Prefix ++ b) (cidrMask 4 n) = some (andBytes b (cidrMask 4 n)) := by
  have hfront : v4InV6Prefix.length = 12 := rfl
  simp only [maskIP, length_cidrMask, List.length_append, hfront, hb, List.take_left' hfront,
    List.drop_left' hfront]
  simp [hb]

lemma length_parseAddr (h : parseAddr v6 s = some (.v4 b)) : b.length = 4 := by
  unfold parseAddr at h
  split at h
  · obtain ⟨b', hb', heq⟩ := Option.map_eq_some_iff.mp h
    cases heq
    exact length_parseIPv4Fields (by simp) hb'
  · obtain ⟨a', -, heq⟩ := Option.map_eq_some_iff.mp h
    cases heq
  · cases h

lemma parseCIDR_v4 (h : parseCIDR v6 s = some (address, network)) (h4 : network.mask.length = 4) :
    ∃ b n addr mask, address = v4InV6Prefix ++ b ∧ network.IsV4 b n ∧ s = addr ++ '/' :: mask ∧
      '/' ∉ addr ∧ dtoi mask = some (n, []) := by
  unfold parseCIDR at h
  split at h
  · cases h
  · next c mask hdrop =>
    generalize htake : s.takeWhile (fun c => decide (c ≠ '/')) = addr at h
    have hs : s = addr ++ c :: mask := by rw [← htake, ← hdrop, List.takeWhile_append_dropWhile]
    have hc : c = '/' := by
      have hne : s.dropWhile (fun c => decide (c ≠ '/')) ≠ [] := by
        rw [hdrop]
        exact List.cons_ne_nil _ _
      have hhead := List.head_dropWhile_not (fun c => decide (c ≠ '/')) hne
      simp only [hdrop, List.head_cons] at hhead
      simpa using hhead
    have haddr : '/' ∉ addr := by
      intro hmem
      have hall := List.all_eq_true.mp
        (List.all_takeWhile (l := s) (p := fun c => decide (c ≠ '/')))
      rw [htake] at hall
      simpa using hall '/' hmem
    cases hparse : parseAddr v6 addr with
    | none =>
      rw [hparse] at h
      cases h
    | some a =>
      simp only [hparse] at h
      split at h
      · cases h
      · split at h
        · next n hn =>
          split at h
          · cases h
          · next hle =>
            obtain ⟨ip, hip, h⟩ := Option.map_eq_some_iff.mp h
            cases h
            cases a with
            | v6 ip' zone => simp [Addr.bytes] at h4
            | v4 b =>
              have hb := length_parseAddr hparse
              rw [show as16 (.v4 b) = v4InV6Prefix ++ b from rfl,
                show (Addr.v4 b).bytes = 4 from rfl, maskIP_mapped hb] at hip
              cases hip
              refine ⟨b, n, addr, mask, rfl, ⟨hb, ?_, rfl, rfl⟩, hc ▸ hs, haddr, hn⟩
              simpa [Addr.bytes] using hle
        · cases h

lemma IPNet.IsV4.number (h : network.IsV4 b n) :
    networkNumberAndMask network = some (network.ip, network.mask) := by
  have hlen : network.ip.length = 4 := by rw [h.ip, length_andBytes h.length]
  unfold networkNumberAndMask
  rw [to4_of_length hlen]
  simp [hlen, h.mask]

lemma andBytes_idem (hb : b.length = 4) (hn : n ≤ 32) :
    andBytes (andBytes b (cidrMask 4 n)) (cidrMask 4 n) = andBytes b (cidrMask 4 n) := by
  rw [andBytes_eq_iff (length_andBytes hb n) hb hn, value_andBytes hb hn,
    Nat.mul_div_cancel _ (Nat.two_pow_pos _)]

lemma IPNet.IsV4.contains_iff (h : network.IsV4 b n) (hip : to4 ip = some b')
    (hb' : b'.length = 4) : network.contains ip = true ↔ value b' ∈ block 32 (value b) n := by
  have hlt : value b' < 2 ^ 32 := by
    have := value_lt b'
    rwa [hb'] at this
  unfold IPNet.contains
  rw [h.number]
  simp only [hip, Option.getD_some, h.ip, h.mask, length_andBytes h.length, hb', decide_true,
    Bool.true_and, beq_iff_eq, andBytes_idem h.length h.ones]
  rw [andBytes_eq_iff h.length hb' h.ones]
  exact ⟨fun heq => ⟨hlt, heq.symm⟩, fun hmem => hmem.2.symm⟩

lemma IPNet.IsV4.maskSize_eq (h : network.IsV4 b n) : maskSize network.mask = n := by
  rw [maskSize, h.mask, simpleMaskLength_cidrMask h.ones, Option.getD_some]

lemma formatUint_inj (h : formatUint n = formatUint m) : n = m := by
  have hparse := congrArg parseDigits h
  rw [parseDigits_formatUint, parseDigits_formatUint] at hparse
  exact Option.some.inj hparse

lemma dot_notMem_formatUint (n : ℕ) : '.' ∉ formatUint n := by
  intro hmem
  have := isDigit_of_mem_formatUint hmem
  simp [Char.isDigit] at this

lemma append_cons_inj {α : Type} {a : α} {xs ys us vs : List α} (hx : a ∉ xs) (hy : a ∉ ys)
    (h : xs ++ a :: us = ys ++ a :: vs) : xs = ys ∧ us = vs := by
  induction xs generalizing ys with
  | nil =>
    cases ys with
    | nil => exact ⟨rfl, List.cons.inj h |>.2⟩
    | cons y ys => exact absurd (List.cons.inj h).1 (fun heq => hy (heq ▸ List.mem_cons_self))
  | cons x xs ih =>
    cases ys with
    | nil => exact absurd (List.cons.inj h).1 (fun heq => hx (heq ▸ List.mem_cons_self))
    | cons y ys =>
      obtain ⟨rfl, htail⟩ := List.cons.inj h
      obtain ⟨rfl, hrest⟩ := ih (fun hmem => hx (List.mem_cons_of_mem _ hmem))
        (fun hmem => hy (List.mem_cons_of_mem _ hmem)) htail
      exact ⟨rfl, hrest⟩

lemma text4_inj (hlen : b.length = b'.length) (h : text4 b = text4 b') : b = b' := by
  induction b generalizing b' with
  | nil => exact (List.length_eq_zero_iff.mp hlen.symm).symm
  | cons x xs ih =>
    cases b' with
    | nil => cases hlen
    | cons y ys =>
      have hlen' : xs.length = ys.length := Nat.succ.inj hlen
      cases xs with
      | nil =>
        obtain rfl := List.length_eq_zero_iff.mp hlen'.symm
        have hxy : formatUint x.toNat = formatUint y.toNat := by simpa [text4] using h
        rw [BitVec.eq_of_toNat_eq (formatUint_inj hxy)]
      | cons x' xs =>
        cases ys with
        | nil => cases hlen'
        | cons y' ys =>
          have hcons : ∀ (z z' : Byte) (zs : IP),
              text4 (z :: z' :: zs) = formatUint z.toNat ++ '.' :: text4 (z' :: zs) := by
            intro z z' zs
            simp [text4, List.intercalate_cons_cons]
          rw [hcons, hcons] at h
          obtain ⟨hxy, hrest⟩ :=
            append_cons_inj (dot_notMem_formatUint _) (dot_notMem_formatUint _) h
          rw [BitVec.eq_of_toNat_eq (formatUint_inj hxy), ih hlen' hrest]

end V4

end Seaplane.Lib.Net
