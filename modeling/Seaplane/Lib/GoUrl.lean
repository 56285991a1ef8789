import Mathlib.Data.List.DropRight
import Seaplane.Lib.Runes

/-!
Go's parsing of https URLs.

A URL is cut at `#` and `?`; what follows the two slashes up to the next one is the host with its
port, the rest is the path. A host in brackets is an IPv6 address, another host has at most one
colon. Percent signs escape bytes: in a path any, in a host only those outside ASCII and the percent
sign itself.
-/

namespace Seaplane.Lib.GoUrl

open Bytes

/-! ### Bytes -/

def text (s : String) : Bytes := s.toList.map ascii

def oneOf (chars : String) (b : UInt8) : Bool := (text chars).contains b

def isDigit (b : UInt8) : Bool := 48 ≤ b && b ≤ 57

def isAlphanum (b : UInt8) : Bool := isLetter b || isDigit b

def isHex (b : UInt8) : Bool := isDigit b || oneOf "abcdefABCDEF" b

def unhex (b : UInt8) : UInt8 :=
  if isDigit b then b - 48 else if 97 ≤ b then b - 97 + 10 else b - 65 + 10

def hexByte (h l : UInt8) : UInt8 := 16 * unhex h + unhex l

def upperHex (n : UInt8) : UInt8 := if n < 10 then n + 48 else n - 10 + 65

/-- A byte that a host is written with; all others of ASCII have to be escaped. -/
def hostByte (b : UInt8) : Bool := isAlphanum b || oneOf "-_.~!$&'()*+,;=:[]<>\"" b

/-- A byte of a path that escaping leaves alone. -/
def pathByte (b : UInt8) : Bool := isAlphanum b || oneOf "-_.~$&+,/:;=@" b

/-- A byte that may stand in a path that is escaped. -/
def encodedByte (b : UInt8) : Bool := pathByte b || oneOf "!$&'()*+,;=:@[]%" b

def before (c : UInt8) (s : Bytes) : Bytes := s.takeWhile (· ≠ c)

def after (c : UInt8) (s : Bytes) : Bytes := (s.dropWhile (· ≠ c)).drop 1

@[simp] def cutLast (c : UInt8) : Bytes → Option (Bytes × Bytes)
  | [] => none
  | b :: s =>
    match cutLast c s with
    | some (x, y) => some (b :: x, y)
    | none => if b = c then some ([], s) else none

def trimRight (c : UInt8) (s : Bytes) : Bytes := s.rdropWhile (· = c)

/-! ### Escapes -/

inductive Encoding where
  | path
  | host
  | zone
  | fragment

def Encoding.escapes : Encoding → UInt8 → UInt8 → Bool
  | .path, _, _ | .fragment, _, _ => true
  | .host, h, l => 8 ≤ unhex h || (h == ascii '2' && l == ascii '5')
  | .zone, h, l =>
    (h == ascii '2' && l == ascii '5') || hexByte h l == ascii ' ' || hostByte (hexByte h l)

def Encoding.literal : Encoding → UInt8 → Bool
  | .path, _ | .fragment, _ => true
  | .host, b | .zone, b => 128 ≤ b || hostByte b

def unescape (mode : Encoding) : Bytes → Option Bytes
  | [] => some []
  | b :: s =>
    if b = ascii '%' then
      match s with
      | h :: l :: t =>
        if isHex h && isHex l && mode.escapes h l then (unescape mode t).map (hexByte h l :: ·)
        else none
      | _ => none
    else if mode.literal b then (unescape mode s).map (b :: ·)
    else none

def escapeByte (b : UInt8) : Bytes :=
  if pathByte b then [b] else [ascii '%', upperHex (b / 16), upperHex (b % 16)]

def escape (s : Bytes) : Bytes := s.flatMap escapeByte

def validEncoded (s : Bytes) : Bool := s.all encodedByte

/-! ### Hosts -/

/-- What is an IPv6 address, with or without a zone. -/
structure IPv6 where
  valid : Bytes → Bool
  colons : ∀ s, valid s = true → 2 ≤ s.count (ascii ':')
  head : ∀ s, valid s = true → ∃ b t, s = b :: t ∧ b < 128 ∧ b ≠ ascii '['

def validOptionalPort : Bytes → Bool
  | [] => true
  | b :: s => b == ascii ':' && s.all isDigit

/-- Up to the first `%25`, and from there. -/
def cutZone : Bytes → Bytes × Option Bytes
  | [] => ([], none)
  | b :: s =>
    if (b :: s).take 3 = text "%25" then ([], some (b :: s))
    else (b :: (cutZone s).1, (cutZone s).2)

def parseLiteral (s : Bytes) : Option Bytes :=
  match cutZone s with
  | (addr, none) => unescape .host addr
  | (addr, some zone) => do
    let addr ← unescape .host addr
    let zone ← unescape .zone zone
    return addr ++ zone

def parseHost (v6 : IPv6) (host : Bytes) : Option Bytes :=
  if ascii '[' ∈ host.tail then none
  else if host.head? = some (ascii '[') then do
    let (literal, colonPort) ← cutLast (ascii ']') host.tail
    if validOptionalPort colonPort then
      let colonPort ← unescape .host colonPort
      let addr ← parseLiteral literal
      if v6.valid addr then return ascii '[' :: addr ++ ascii ']' :: colonPort else none
    else none
  else if 1 < host.count (ascii ':') then none
  else if validOptionalPort (host.dropWhile (· ≠ ascii ':')) then unescape .host host
  else none

/-- The host without its port and brackets, and the port. -/
def splitHostPort (hostPort : Bytes) : Bytes × Bytes :=
  let (host, port) :=
    match cutLast (ascii ':') hostPort with
    | some (host, port) => if port.all isDigit then (host, port) else (hostPort, [])
    | none => (hostPort, [])
  if host.head? = some (ascii '[') ∧ host.getLast? = some (ascii ']') then
    (host.tail.dropLast, port)
  else (host, port)

/-! ### URLs -/

def isSchemeByte (b : UInt8) : Bool := isAlphanum b || oneOf "+-." b

/-- The scheme, if there is one, and what follows its colon. -/
def getScheme (s : Bytes) : Option (Bytes × Bytes) :=
  match s.takeWhile isSchemeByte, s.dropWhile isSchemeByte with
  | b :: scheme, c :: rest =>
    if isLetter b && c == ascii ':' then some (b :: scheme, rest) else none
  | _, _ => none

/-- An https URL: its host and port, and its path as it is spelled. -/
structure URL where
  host : Bytes
  path : Bytes
deriving DecidableEq

/-- A text as an https URL without user information. Others are refused here, whatever they parse
to. -/
def parse (v6 : IPv6) (raw : Bytes) : Option URL := do
  let (scheme, rest) ← getScheme (before (ascii '#') raw)
  if scheme.map lowerByte = text "https" then
    match before (ascii '?') rest with
    | a :: b :: rest =>
      if a = ascii '/' ∧ b = ascii '/' ∧ ascii '@' ∉ before (ascii '/') rest then
        let host ← parseHost v6 (before (ascii '/') rest)
        let _ ← unescape .path (rest.dropWhile (· ≠ ascii '/'))
        let _ ← unescape .fragment (after (ascii '#') raw)
        return ⟨host, rest.dropWhile (· ≠ ascii '/')⟩
      else none
    | _ => none
  else none

namespace URL

def hostname (u : URL) : Bytes := (splitHostPort u.host).1

def port (u : URL) : Bytes := (splitHostPort u.host).2

/-- The path as it is spelled if that is a valid escaping, or else escaped anew. -/
def escapedPath (u : URL) : Bytes :=
  if validEncoded u.path then u.path else escape ((unescape .path u.path).getD [])

/-- The escaped path without the slashes at its end. -/
def trimmedPath (u : URL) : Bytes := trimRight (ascii '/') u.escapedPath

end URL

/-! ### Unescaping -/

variable {mode : Encoding} {b c : UInt8} {s t x y host colonPort h : Bytes} {v6 : IPv6} {u : URL}

lemma unescape_cons (hb : b ≠ ascii '%') (s : Bytes) :
    unescape mode (b :: s) = if mode.literal b then (unescape mode s).map (b :: ·) else none := by
  rw [unescape.eq_def]
  simp only [if_neg hb]

lemma literal_path (b : UInt8) : Encoding.path.literal b = true := rfl

lemma unescape_percent (h l : UInt8) (s : Bytes) :
    unescape mode (ascii '%' :: h :: l :: s) =
      if isHex h && isHex l && mode.escapes h l then (unescape mode s).map (hexByte h l :: ·)
      else none := by
  rw [unescape, if_pos rfl]

lemma unescape_induction {p : Bytes → Bytes → Prop} (nil : p [] [])
    (literal : ∀ b s t, b ≠ ascii '%' → mode.literal b = true → p s t → p (b :: s) (b :: t))
    (escape : ∀ h l s t, isHex h = true → isHex l = true → mode.escapes h l = true → p s t →
      p (ascii '%' :: h :: l :: s) (hexByte h l :: t)) (hs : unescape mode s = some t) : p s t := by
  fun_induction unescape mode s generalizing t with
  | case1 =>
    cases hs
    exact nil
  | case2 h l s hesc ih =>
    obtain ⟨t', ht', rfl⟩ := Option.map_eq_some_iff.mp hs
    simp only [Bool.and_eq_true] at hesc
    exact escape h l s t' hesc.1.1 hesc.1.2 hesc.2 (ih ht')
  | case3 | case4 => cases hs
  | case5 b s hb hlit ih =>
    obtain ⟨t', ht', rfl⟩ := Option.map_eq_some_iff.mp hs
    exact literal b s t' hb hlit (ih ht')
  | case6 => cases hs

lemma unescape_of_literal (hp : ascii '%' ∉ s) (hs : ∀ b ∈ s, mode.literal b = true) :
    unescape mode s = some s := by
  induction s with
  | nil => rfl
  | cons b s ih =>
    rw [List.mem_cons, not_or] at hp
    rw [unescape_cons (Ne.symm hp.1), if_pos (hs b List.mem_cons_self),
      ih hp.2 fun c hc => hs c (List.mem_cons_of_mem b hc)]
    rfl

/-- A byte that a host in brackets can hold once it is unescaped. -/
def heldByte (b : UInt8) : Bool :=
  128 ≤ b || hostByte b || b == ascii '%' || b == ascii ' '

lemma hexByte_percent : hexByte (ascii '2') (ascii '5') = ascii '%' := by decide

lemma hexByte_ge {h l : UInt8} (hh : isHex h = true) (hl : isHex l = true) (h8 : 8 ≤ unhex h) :
    128 ≤ hexByte h l := by
  have hhigh : ∀ h : UInt8, isHex h = true → unhex h < 16 := forall_byte (by decide +kernel)
  have hlow := hhigh l hl
  have hup := hhigh h hh
  rw [UInt8.lt_iff_toNat_lt] at hlow hup
  rw [UInt8.le_iff_toNat_le] at h8 ⊢
  have h8' : 8 ≤ (unhex h).toNat := h8
  have hlow' : (unhex l).toNat < 16 := hlow
  have hup' : (unhex h).toNat < 16 := hup
  rw [hexByte, UInt8.toNat_add, UInt8.toNat_mul]
  change 128 ≤ (16 * (unhex h).toNat % 256 + (unhex l).toNat) % 256
  omega

lemma literal_of_unescape (h : unescape .host s = some t) :
    ∀ b ∈ t, Encoding.host.literal b = true ∨ b = ascii '%' := by
  refine unescape_induction (p := fun _ t => ∀ b ∈ t, Encoding.host.literal b = true ∨
    b = ascii '%') (by simp) ?_ ?_ h
  · intro b s t _ hlit ih c hc
    rcases List.mem_cons.mp hc with rfl | hc
    · exact .inl hlit
    · exact ih c hc
  · intro h l s t hh hl he ih c hc
    rcases List.mem_cons.mp hc with rfl | hc
    · simp only [Encoding.escapes, Bool.or_eq_true, Bool.and_eq_true, beq_iff_eq,
        decide_eq_true_eq] at he
      rcases he with h8 | ⟨rfl, rfl⟩
      · simp [Encoding.literal, hexByte_ge hh hl h8]
      · exact .inr hexByte_percent
    · exact ih c hc

lemma held_of_literal (h : Encoding.host.literal b = true ∨ b = ascii '%') : heldByte b = true := by
  simp only [Encoding.literal, Bool.or_eq_true] at h
  simp only [heldByte, Bool.or_eq_true, beq_iff_eq]
  tauto

lemma held_of_unescape_zone (h : unescape .zone s = some t) : ∀ b ∈ t, heldByte b = true := by
  refine unescape_induction (p := fun _ t => ∀ b ∈ t, heldByte b = true) (by simp) ?_ ?_ h
  · intro b s t _ hlit ih c hc
    rcases List.mem_cons.mp hc with rfl | hc
    · exact held_of_literal (.inl hlit)
    · exact ih c hc
  · intro h l s t _ _ he ih c hc
    rcases List.mem_cons.mp hc with rfl | hc
    · simp only [Encoding.escapes, Bool.or_eq_true, Bool.and_eq_true, beq_iff_eq] at he
      rcases he with (⟨rfl, rfl⟩ | hspace) | hhost
      · decide
      · simp [heldByte, hspace]
      · simp [heldByte, hhost]
    · exact ih c hc

lemma count_unescape (h : unescape .host s = some t) :
    t.count (ascii '%') ≤ s.count (ascii '%') ∧
      (t.count (ascii '%') = s.count (ascii '%') →
        t.count (ascii '2') + s.count (ascii '%') ≤ s.count (ascii '2')) := by
  refine unescape_induction (p := fun s t => t.count (ascii '%') ≤ s.count (ascii '%') ∧
    (t.count (ascii '%') = s.count (ascii '%') →
      t.count (ascii '2') + s.count (ascii '%') ≤ s.count (ascii '2'))) (by simp) ?_ ?_ h
  · intro b s t hb _ ih
    obtain ⟨hle, heq⟩ := ih
    simp only [List.count_cons]
    have hb' : (b == ascii '%') = false := beq_false_of_ne hb
    rw [hb']
    refine ⟨by simpa using hle, fun h => ?_⟩
    have := heq (by simpa using h)
    simp only [Bool.false_eq_true, if_false, Nat.add_zero]
    omega
  · intro h l s t hh hl he ih
    obtain ⟨hle, heq⟩ := ih
    simp only [Encoding.escapes, Bool.or_eq_true, Bool.and_eq_true, beq_iff_eq,
      decide_eq_true_eq] at he
    rcases he with h8 | ⟨rfl, rfl⟩
    · -- the new byte is not of ASCII
      have hge := hexByte_ge hh hl h8
      have hne : hexByte h l ≠ ascii '%' := by
        intro heq
        rw [heq] at hge
        exact absurd hge (by decide)
      have hcount : (hexByte h l :: t).count (ascii '%') < (ascii '%' :: h :: l :: s).count
          (ascii '%') := by
        rw [List.count_cons_of_ne hne, List.count_cons_self]
        have hmono : s.count (ascii '%') ≤ (h :: l :: s).count (ascii '%') := by
          simp only [List.count_cons]
          omega
        omega
      exact ⟨hcount.le, fun h => absurd h hcount.ne⟩
    · rw [hexByte_percent]
      have h2 : (ascii '2' :: ascii '5' :: s).count (ascii '%') = s.count (ascii '%') := by
        rw [List.count_cons_of_ne (by decide), List.count_cons_of_ne (by decide)]
      have h3 : (ascii '%' :: ascii '2' :: ascii '5' :: s).count (ascii '2') =
          s.count (ascii '2') + 1 := by
        rw [List.count_cons_of_ne (by decide), List.count_cons_self,
          List.count_cons_of_ne (by decide)]
      have h4 : (ascii '%' :: t).count (ascii '2') = t.count (ascii '2') :=
        List.count_cons_of_ne (by decide)
      rw [List.count_cons_self, List.count_cons_self, h2, h3, h4]
      refine ⟨by omega, fun h => ?_⟩
      have := heq (by omega)
      omega

/-! ### Cutting -/

lemma cutLast_none : cutLast c s = none ↔ c ∉ s := by
  induction s with
  | nil => simp
  | cons b s ih =>
    rw [cutLast, List.mem_cons, not_or, ← ih]
    cases cutLast c s with
    | some xy => simp
    | none => simp [eq_comm]

lemma cutLast_append (hy : c ∉ y) : cutLast c (x ++ c :: y) = some (x, y) := by
  induction x with
  | nil => rw [List.nil_append, cutLast, cutLast_none.mpr hy, if_pos rfl]
  | cons b x ih => rw [List.cons_append, cutLast, ih]

lemma cutLast_some (h : cutLast c s = some (x, y)) : s = x ++ c :: y ∧ c ∉ y := by
  induction s generalizing x with
  | nil => cases h
  | cons b s ih =>
    rw [cutLast] at h
    cases hs : cutLast c s with
    | some xy =>
      obtain ⟨x', y'⟩ := xy
      rw [hs] at h
      cases h
      obtain ⟨rfl, hy⟩ := ih hs
      exact ⟨rfl, hy⟩
    | none =>
      simp only [hs] at h
      split at h
      · next hb =>
        cases h
        subst hb
        exact ⟨rfl, cutLast_none.mp hs⟩
      · cases h

lemma before_append (hx : c ∉ x) (hy : y = [] ∨ y.head? = some c) :
    before c (x ++ y) = x ∧ (x ++ y).dropWhile (· ≠ c) = y := by
  induction x with
  | nil =>
    rcases hy with rfl | hy
    · exact ⟨rfl, rfl⟩
    · cases y with
      | nil => cases hy
      | cons b y =>
        cases hy
        simp [before]
  | cons b x ih =>
    rw [List.mem_cons, not_or] at hx
    obtain ⟨h1, h2⟩ := ih hx.2
    have hb : b ≠ c := Ne.symm hx.1
    refine ⟨?_, ?_⟩
    · rw [before] at h1 ⊢
      rw [List.cons_append, List.takeWhile_cons_of_pos (by simpa using hb), h1]
    · rw [List.cons_append, List.dropWhile_cons_of_pos (by simpa using hb), h2]

lemma before_of_notMem (h : c ∉ s) : before c s = s ∧ after c s = [] := by
  obtain ⟨h1, h2⟩ := before_append h (.inl rfl)
  rw [List.append_nil] at h1 h2
  exact ⟨h1, by rw [after, h2]; rfl⟩

/-! ### Ports -/

lemma digit_ne (hb : isDigit b = true) (hc : isDigit c = false) : b ≠ c := by
  rintro rfl
  rw [hb] at hc
  cases hc

lemma notMem_digits (hs : s.all isDigit = true) (hc : isDigit c = false) : c ∉ s := by
  intro h
  rw [List.all_eq_true] at hs
  exact digit_ne (hs c h) hc rfl

lemma splitHostPort_port {port : Bytes} (hport : port.all isDigit = true)
    (hhost : host.head? ≠ some (ascii '[')) :
    splitHostPort (host ++ ascii ':' :: port) = (host, port) := by
  have hcut := cutLast_append (x := host) (notMem_digits hport (c := ascii ':') (by decide))
  simp only [splitHostPort, hcut, hport, if_true]
  rw [if_neg fun h => hhost h.1]

lemma splitHostPort_plain (hcolon : ascii ':' ∉ host)
    (hhost : host.head? ≠ some (ascii '[')) : splitHostPort host = (host, []) := by
  simp only [splitHostPort, cutLast_none.mpr hcolon]
  rw [if_neg fun h => hhost h.1]

lemma port_cases (h : validOptionalPort colonPort = true) :
    colonPort = [] ∨ ∃ port, colonPort = ascii ':' :: port ∧ port.all isDigit = true := by
  cases colonPort with
  | nil => exact .inl rfl
  | cons b port =>
    rw [validOptionalPort, Bool.and_eq_true, beq_iff_eq] at h
    exact .inr ⟨port, by rw [h.1], h.2⟩

lemma splitHostPort_bracketed (addr : Bytes) (hport : validOptionalPort colonPort = true) :
    splitHostPort (ascii '[' :: addr ++ ascii ']' :: colonPort) = (addr, colonPort.tail) := by
  have hstrip : (ascii '[' :: addr ++ [ascii ']']).head? = some (ascii '[') ∧
      (ascii '[' :: addr ++ [ascii ']']).getLast? = some (ascii ']') := by
    refine ⟨rfl, ?_⟩
    rw [List.getLast?_append]
    rfl
  rcases port_cases hport with rfl | ⟨port, rfl, hdigits⟩
  · have hwhole : splitHostPort (ascii '[' :: addr ++ [ascii ']']) =
        ((ascii '[' :: addr ++ [ascii ']']).tail.dropLast, []) := by
      rw [splitHostPort]
      cases hcut : cutLast (ascii ':') (ascii '[' :: addr ++ [ascii ']']) with
      | none => simp only [if_pos hstrip]
      | some xy =>
        -- what follows the last colon ends in the bracket
        obtain ⟨x, y⟩ := xy
        obtain ⟨heq, -⟩ := cutLast_some hcut
        have hlast := hstrip.2
        rw [heq, List.getLast?_append, List.getLast?_cons] at hlast
        have hy : ascii ']' ∈ y := by
          cases hy : y.getLast? with
          | none =>
            have hcolon : ascii ':' = ascii ']' := by simpa [hy] using hlast
            exact absurd hcolon (by decide)
          | some b =>
            have hb : b = ascii ']' := by simpa [hy] using hlast
            exact hb ▸ List.mem_of_getLast? hy
        have hdigits : ¬ y.all isDigit = true := fun hall => notMem_digits hall (by decide) hy
        simp only [if_neg hdigits, if_pos hstrip]
    rw [hwhole]
    simp
  · have hassoc : ascii '[' :: addr ++ ascii ']' :: ascii ':' :: port =
        (ascii '[' :: addr ++ [ascii ']']) ++ ascii ':' :: port := by simp
    have hcut := cutLast_append (x := ascii '[' :: addr ++ [ascii ']'])
      (notMem_digits hdigits (c := ascii ':') (by decide))
    rw [hassoc, splitHostPort]
    simp only [hcut, hdigits, if_true, if_pos hstrip]
    simp

lemma splitHostPort_unbracketed
    (hport : validOptionalPort colonPort = true) (hcolon : ascii ':' ∉ host)
    (hbracket : ascii '[' ∉ host) :
    splitHostPort (host ++ colonPort) = (host, colonPort.tail) := by
  have hhead : host.head? ≠ some (ascii '[') := fun h => hbracket (List.mem_of_head? h)
  rcases port_cases hport with rfl | ⟨port, rfl, hport⟩
  · rw [List.append_nil]
    exact splitHostPort_plain hcolon hhead
  · exact splitHostPort_port hport hhead

/-! ### Hosts that are accepted -/

lemma unescape_append (hhex : isHex c = false) (hc : c ≠ ascii '%') (hlit : mode.literal c = true)
    (s t : Bytes) :
    unescape mode (s ++ c :: t) =
      (unescape mode s).bind fun x => (unescape mode t).map fun y => x ++ c :: y := by
  fun_induction unescape mode s with
  | case1 =>
    rw [List.nil_append, unescape_cons hc, if_pos hlit]
    cases unescape mode t <;> rfl
  | case2 h l s hesc ih =>
    simp only [List.cons_append]
    rw [unescape_percent, if_pos hesc, ih]
    cases unescape mode s <;> cases unescape mode t <;> rfl
  | case3 h l s hesc =>
    simp only [List.cons_append]
    rw [unescape_percent, if_neg hesc]
    rfl
  | case4 s hs =>
    -- an escape that is cut off
    cases s with
    | nil =>
      cases t with
      | nil => rfl
      | cons d t =>
        simp only [List.cons_append, List.nil_append]
        rw [unescape_percent]
        simp [hhex]
    | cons h s =>
      cases s with
      | nil =>
        simp only [List.cons_append, List.nil_append]
        rw [unescape_percent]
        simp [hhex]
      | cons l s => exact absurd rfl (hs h l s)
  | case5 b s hb hlitb ih =>
    rw [List.cons_append, unescape_cons hb, if_pos hlitb, ih]
    cases unescape mode s <;> cases unescape mode t <;> rfl
  | case6 b s hb hlitb =>
    rw [List.cons_append, unescape_cons hb, if_neg hlitb]
    rfl

lemma mem_unescape_host (h : unescape .host s = some t) :
    ∀ b ∈ t, b ∈ s ∨ 128 ≤ b ∨ b = ascii '%' := by
  refine unescape_induction (p := fun s t => ∀ b ∈ t, b ∈ s ∨ 128 ≤ b ∨ b = ascii '%')
    (by simp) ?_ ?_ h
  · intro b s t _ _ ih c hc
    rcases List.mem_cons.mp hc with rfl | hc
    · exact .inl List.mem_cons_self
    · exact (ih c hc).imp_left (List.mem_cons_of_mem b)
  · intro h l s t hh hl he ih c hc
    rcases List.mem_cons.mp hc with rfl | hc
    · simp only [Encoding.escapes, Bool.or_eq_true, Bool.and_eq_true, beq_iff_eq,
        decide_eq_true_eq] at he
      rcases he with h8 | ⟨rfl, rfl⟩
      · exact .inr (.inl (hexByte_ge hh hl h8))
      · exact .inr (.inr hexByte_percent)
    · exact (ih c hc).imp_left fun hs =>
        List.mem_cons_of_mem _ (List.mem_cons_of_mem _ (List.mem_cons_of_mem _ hs))

lemma notMem_unescape_host (h : unescape .host s = some t) (hlt : c < 128) (hc : c ≠ ascii '%')
    (hs : c ∉ s) : c ∉ t := by
  intro ht
  rcases mem_unescape_host h c ht with hmem | hge | heq
  · exact hs hmem
  · exact absurd hge (UInt8.not_le.mpr hlt)
  · exact hc heq

/-- The forms of hosts: an IPv6 address in brackets, or a name without colons. -/
inductive HostForm (v6 : IPv6) (h : Bytes) : Prop where
  | bracketed (addr colonPort : Bytes) (eq : h = ascii '[' :: addr ++ ascii ']' :: colonPort)
      (valid : v6.valid addr = true) (port : validOptionalPort colonPort = true)
      (held : ∀ b ∈ addr, heldByte b = true)
  | named (host colonPort : Bytes) (eq : h = host ++ colonPort) (colon : ascii ':' ∉ host)
      (bracket : ascii '[' ∉ host) (port : validOptionalPort colonPort = true)
      (literal : ∀ b ∈ host, Encoding.host.literal b = true ∨ b = ascii '%')

lemma port_literal (h : validOptionalPort colonPort = true) :
    ascii '%' ∉ colonPort ∧ ascii '[' ∉ colonPort ∧ ∀ b ∈ colonPort, hostByte b = true := by
  have hdigit : ∀ b : UInt8, isDigit b = true → hostByte b = true :=
    forall_byte (by decide +kernel)
  rcases port_cases h with rfl | ⟨port, rfl, hport⟩
  · simp
  · refine ⟨?_, ?_, ?_⟩
    iterate 2
      rw [List.mem_cons, not_or]
      exact ⟨by decide, notMem_digits hport (by decide)⟩
    · intro c hc
      rcases List.mem_cons.mp hc with rfl | hc
      · decide
      · exact hdigit c (List.all_eq_true.mp hport c hc)

lemma unescape_port (h : validOptionalPort colonPort = true) :
    unescape .host colonPort = some colonPort := by
  obtain ⟨hp, -, hb⟩ := port_literal h
  refine unescape_of_literal hp fun b hb' => ?_
  simp [Encoding.literal, hb b hb']

lemma held_parseLiteral {addr : Bytes} (h : parseLiteral s = some addr) :
    ∀ b ∈ addr, heldByte b = true := by
  rw [parseLiteral] at h
  split at h
  · exact fun b hb => held_of_literal (literal_of_unescape h b hb)
  · obtain ⟨x, hx, h⟩ := Option.bind_eq_some_iff.mp h
    obtain ⟨y, hy, h⟩ := Option.bind_eq_some_iff.mp h
    cases h
    intro b hb
    rcases List.mem_append.mp hb with hb | hb
    · exact held_of_literal (literal_of_unescape hx b hb)
    · exact held_of_unescape_zone hy b hb

lemma hostForm_of_unescape (hbracket : ascii '[' ∉ s)
    (hport : validOptionalPort (s.dropWhile (· ≠ ascii ':')) = true)
    (hs : unescape .host s = some h) : HostForm v6 h := by
  have hbefore : ascii ':' ∉ s.takeWhile (· ≠ ascii ':') := by
    intro hmem
    have := List.mem_takeWhile_imp hmem
    simp at this
  have hsub : ascii '[' ∉ s.takeWhile (· ≠ ascii ':') := fun hmem =>
    hbracket ((List.takeWhile_prefix _).mem hmem)
  rcases port_cases hport with hd | ⟨port, hd, hdigits⟩
  · have hall : s.takeWhile (· ≠ ascii ':') = s := by
      have := List.takeWhile_append_dropWhile (p := (· ≠ ascii ':')) (l := s)
      rwa [hd, List.append_nil] at this
    rw [hall] at hbefore
    exact .named h [] (List.append_nil h).symm
      (notMem_unescape_host hs (by decide) (by decide) hbefore)
      (notMem_unescape_host hs (by decide) (by decide) hbracket) rfl
      (literal_of_unescape hs)
  · have hsplit : s = s.takeWhile (· ≠ ascii ':') ++ ascii ':' :: port := by
      rw [← hd, List.takeWhile_append_dropWhile]
    have hvalid : validOptionalPort (ascii ':' :: port) = true := hd ▸ hport
    rw [hsplit, unescape_append (by decide) (by decide) (by decide)] at hs
    obtain ⟨x, hx, hs⟩ := Option.bind_eq_some_iff.mp hs
    obtain ⟨y, hy, rfl⟩ := Option.map_eq_some_iff.mp hs
    have hport := unescape_port hvalid
    rw [unescape_cons (by decide), if_pos (by decide), hy] at hport
    obtain rfl : y = port := by simpa using hport
    exact .named x (ascii ':' :: y) rfl
      (notMem_unescape_host hx (by decide) (by decide) hbefore)
      (notMem_unescape_host hx (by decide) (by decide) hsub) hvalid
      (literal_of_unescape hx)

lemma hostForm_of_parseHost (hs : parseHost v6 s = some h) : HostForm v6 h := by
  rw [parseHost] at hs
  split at hs
  · cases hs
  next htail =>
  split at hs
  · next hhead =>
    obtain ⟨⟨literal, colonPort⟩, hcut, hs⟩ := Option.bind_eq_some_iff.mp hs
    simp only at hs
    split at hs
    · next hport =>
      obtain ⟨port, hunescape, hs⟩ := Option.bind_eq_some_iff.mp hs
      rw [unescape_port hport] at hunescape
      cases hunescape
      obtain ⟨addr, haddr, hs⟩ := Option.bind_eq_some_iff.mp hs
      split at hs
      · next hvalid =>
        cases hs
        exact .bracketed addr colonPort rfl hvalid hport (held_parseLiteral haddr)
      · cases hs
    · cases hs
  · next hhead =>
    have hbracket : ascii '[' ∉ s := by
      cases s with
      | nil => simp
      | cons b s =>
        rw [List.mem_cons, not_or]
        exact ⟨fun hb => hhead (by rw [hb]; rfl), htail⟩
    split at hs
    · cases hs
    · split at hs
      · next hport => exact hostForm_of_unescape hbracket hport hs
      · cases hs

lemma unescape_of_parseHost (hhead : s.head? ≠ some (ascii '['))
    (hs : parseHost v6 s = some h) : unescape .host s = some h := by
  rw [parseHost, if_neg hhead] at hs
  split at hs
  · cases hs
  · split at hs
    · cases hs
    · split at hs
      · exact hs
      · cases hs

lemma parseHost_colons (hcolons : 2 ≤ s.count (ascii ':'))
    (hhead : s.head? ≠ some (ascii '[')) : parseHost v6 s = none := by
  rw [parseHost]
  by_cases htail : ascii '[' ∈ s.tail
  · rw [if_pos htail]
  · rw [if_neg htail, if_neg hhead, if_pos (Nat.lt_of_succ_le hcolons)]

lemma parseHost_self (hcolon : ascii ':' ∉ host)
    (hbracket : ascii '[' ∉ host) (hpercent : ascii '%' ∉ host)
    (hlit : ∀ b ∈ host, Encoding.host.literal b = true)
    (hport : validOptionalPort colonPort = true) :
    parseHost v6 (host ++ colonPort) = some (host ++ colonPort) := by
  obtain ⟨hp, hb, hbytes⟩ := port_literal hport
  have hmem : ascii '[' ∉ host ++ colonPort := by simp [hbracket, hb]
  have hcount : (host ++ colonPort).count (ascii ':') ≤ 1 := by
    rw [List.count_append, List.count_eq_zero.mpr hcolon]
    rcases port_cases hport with rfl | ⟨port, rfl, hdigits⟩
    · simp
    · rw [List.count_cons_self, List.count_eq_zero.mpr (notMem_digits hdigits (by decide))]
  have hdrop : (host ++ colonPort).dropWhile (· ≠ ascii ':') = colonPort := by
    refine (before_append hcolon ?_).2
    rcases port_cases hport with rfl | ⟨port, rfl, -⟩
    · exact .inl rfl
    · exact .inr rfl
  rw [parseHost, if_neg fun h => hmem (List.mem_of_mem_tail h),
    if_neg fun h => hmem (List.mem_of_head? h), if_neg (Nat.not_lt.mpr hcount), hdrop,
    if_pos hport]
  refine unescape_of_literal (by simp [hpercent, hp]) fun b hb => ?_
  rcases List.mem_append.mp hb with hb | hb
  · exact hlit b hb
  · simp [Encoding.literal, hbytes b hb]

/-! ### Parsing what was printed -/

lemma parse_some {raw : Bytes} (h : parse v6 raw = some u) :
    HostForm v6 u.host ∧ (unescape .path u.path).isSome ∧
      (u.path = [] ∨ u.path.head? = some (ascii '/')) := by
  obtain ⟨⟨scheme, rest⟩, -, h⟩ := Option.bind_eq_some_iff.mp h
  simp only at h
  split at h
  · split at h
    · next a b rest _ =>
      split at h
      · obtain ⟨host, hhost, h⟩ := Option.bind_eq_some_iff.mp h
        obtain ⟨path, hpath, h⟩ := Option.bind_eq_some_iff.mp h
        obtain ⟨_, -, h⟩ := Option.bind_eq_some_iff.mp h
        cases h
        refine ⟨hostForm_of_parseHost hhost, Option.isSome_of_mem hpath, ?_⟩
        simp only
        cases hd : rest.dropWhile (· ≠ ascii '/') with
        | nil => exact .inl rfl
        | cons c t =>
          have hc := List.head?_dropWhile_not (· ≠ ascii '/') rest
          rw [hd] at hc
          simp only [List.head?_cons] at hc
          exact .inr (congrArg some (by simpa using hc))
      · cases h
    · cases h
  · cases h

lemma parse_print {path : Bytes}
    (hhost : ∀ b ∈ host, b ≠ ascii '/' ∧ b ≠ ascii '?' ∧ b ≠ ascii '#' ∧ b ≠ ascii '@')
    (hpath : ∀ b ∈ path, b ≠ ascii '?' ∧ b ≠ ascii '#')
    (hslash : path = [] ∨ path.head? = some (ascii '/')) :
    parse v6 (text "https://" ++ host ++ path) =
      (parseHost v6 host).bind fun h => (unescape .path path).map fun _ => ⟨h, path⟩ := by
  have hmem : ∀ c : UInt8, c = ascii '?' ∨ c = ascii '#' → c ∉ host ++ path := by
    rintro c hc hmem
    rcases List.mem_append.mp hmem with h | h
    · rcases hc with rfl | rfl
      · exact (hhost _ h).2.1 rfl
      · exact (hhost _ h).2.2.1 rfl
    · rcases hc with rfl | rfl
      · exact (hpath _ h).1 rfl
      · exact (hpath _ h).2 rfl
  have hraw : text "https://" ++ host ++ path = text "https://" ++ (host ++ path) :=
    List.append_assoc ..
  have hhash : ascii '#' ∉ text "https://" ++ (host ++ path) := by
    rw [List.mem_append, not_or]
    exact ⟨by decide, hmem _ (.inr rfl)⟩
  have hquery : ascii '?' ∉ text "//" ++ (host ++ path) := by
    rw [List.mem_append, not_or]
    exact ⟨by decide, hmem _ (.inl rfl)⟩
  have hscheme : getScheme (text "https://" ++ (host ++ path)) =
      some (text "https", text "//" ++ (host ++ path)) := by
    rfl
  have hslash' : ascii '/' ∉ host := fun h => (hhost _ h).1 rfl
  have hat : ascii '@' ∉ host := fun h => (hhost _ h).2.2.2 rfl
  obtain ⟨hbefore, hdrop⟩ := before_append hslash' hslash
  have hrest : before (ascii '?') (text "//" ++ (host ++ path)) =
      ascii '/' :: ascii '/' :: (host ++ path) := (before_of_notMem hquery).1
  have hcase : (text "https").map lowerByte = text "https" := by decide
  rw [parse, hraw, (before_of_notMem hhash).1, (before_of_notMem hhash).2, hscheme]
  simp only [Option.bind_eq_bind, Option.bind_some, if_pos hcase, hrest, hbefore, hdrop]
  rw [if_pos ⟨trivial, trivial, hat⟩]
  cases parseHost v6 host with
  | none => rfl
  | some h => cases unescape .path path <;> rfl

/-! ### Paths -/

lemma trimRight_append_replicate (c : UInt8) (s : Bytes) (n : ℕ) :
    trimRight c (s ++ List.replicate n c) = trimRight c s := by
  induction n with
  | zero => rw [List.replicate_zero, List.append_nil]
  | succ n ih =>
    rw [List.replicate_succ', ← List.append_assoc, trimRight,
      List.rdropWhile_concat_pos _ _ _ (by simp)]
    exact ih

lemma exists_trimRight (c : UInt8) (s : Bytes) : ∃ n, s = trimRight c s ++ List.replicate n c := by
  induction s using List.reverseRecOn with
  | nil => exact ⟨0, rfl⟩
  | append_singleton s b ih =>
    by_cases hb : b = c
    · subst hb
      obtain ⟨n, hn⟩ := ih
      refine ⟨n + 1, ?_⟩
      rw [trimRight, List.rdropWhile_concat_pos _ _ _ (by simp), List.replicate_succ',
        ← List.append_assoc]
      exact congrArg (· ++ [b]) hn
    · exact ⟨0, by rw [trimRight, List.rdropWhile_concat_neg _ _ _ (by simpa using hb)]; simp⟩

lemma unescape_slashes (s : Bytes) (n : ℕ) :
    unescape .path (s ++ List.replicate n (ascii '/')) =
      (unescape .path s).map (· ++ List.replicate n (ascii '/')) := by
  cases n with
  | zero => simp
  | succ n =>
    have hrep : unescape .path (List.replicate n (ascii '/')) =
        some (List.replicate n (ascii '/')) := by
      refine unescape_of_literal (fun h => ?_) fun b _ => rfl
      exact absurd (List.eq_of_mem_replicate h) (by decide)
    rw [List.replicate_succ, unescape_append (by decide) (by decide) rfl, hrep]
    cases unescape .path s <;> rfl

lemma escape_append (s t : Bytes) : escape (s ++ t) = escape s ++ escape t :=
  List.flatMap_append ..

lemma escape_slashes (n : ℕ) :
    escape (List.replicate n (ascii '/')) = List.replicate n (ascii '/') := by
  induction n with
  | zero => rfl
  | succ n ih =>
    rw [List.replicate_succ, escape, List.flatMap_cons]
    exact congrArg (ascii '/' :: ·) ih

lemma hexDigits (b : UInt8) :
    isHex (upperHex (b / 16)) = true ∧ isHex (upperHex (b % 16)) = true := by
  revert b
  exact forall_byte (by decide +kernel)

lemma encodedByte_of_isHex (b : UInt8) : isHex b = true → encodedByte b = true := by
  revert b
  exact forall_byte (by decide +kernel)

lemma ne_percent_of_pathByte (h : pathByte b = true) : b ≠ ascii '%' := by
  rintro rfl
  revert h
  decide

lemma validEncoded_escape (s : Bytes) : validEncoded (escape s) = true := by
  refine List.all_eq_true.mpr fun c hc => ?_
  obtain ⟨b, -, hc⟩ := List.mem_flatMap.mp hc
  rw [escapeByte] at hc
  split at hc
  · next hb =>
    obtain rfl := List.mem_singleton.mp hc
    simp [encodedByte, hb]
  · simp only [List.mem_cons, List.not_mem_nil, or_false] at hc
    rcases hc with rfl | rfl | rfl
    · decide
    · exact encodedByte_of_isHex _ (hexDigits b).1
    · exact encodedByte_of_isHex _ (hexDigits b).2

lemma isSome_unescape_escape (s : Bytes) : (unescape .path (escape s)).isSome := by
  induction s with
  | nil => rfl
  | cons b s ih =>
    rw [escape, List.flatMap_cons, escapeByte]
    split
    · next hb =>
      rw [List.singleton_append, unescape_cons (ne_percent_of_pathByte hb),
        if_pos (literal_path b), Option.isSome_map]
      exact ih
    · obtain ⟨hh, hl⟩ := hexDigits b
      simp only [List.cons_append, List.nil_append]
      rw [unescape_percent, hh, hl]
      simp only [Encoding.escapes, Bool.and_self, if_true, Option.isSome_map]
      exact ih

namespace URL

lemma trimmedPath_eq (h : (unescape .path u.path).isSome) (host : Bytes) :
    u.trimmedPath = (URL.mk host (trimRight (ascii '/') u.path)).trimmedPath := by
  obtain ⟨n, hn⟩ := exists_trimRight (ascii '/') u.path
  have hvalid : validEncoded u.path = validEncoded (trimRight (ascii '/') u.path) := by
    conv_lhs => rw [hn]
    rw [validEncoded, List.all_append]
    have hslash : (List.replicate n (ascii '/')).all encodedByte = true := by
      refine List.all_eq_true.mpr fun b hb => ?_
      rw [List.eq_of_mem_replicate hb]
      decide
    rw [hslash, Bool.and_true]
    rfl
  unfold trimmedPath escapedPath
  rw [hvalid]
  split
  · simp only
    conv_lhs => rw [hn, trimRight_append_replicate]
  · simp only
    conv_lhs => rw [hn, unescape_slashes]
    rw [hn, unescape_slashes, Option.isSome_map] at h
    obtain ⟨d, hd⟩ := Option.isSome_iff_exists.mp h
    rw [hd, Option.map_some, Option.getD_some, Option.getD_some, escape_append, escape_slashes,
      trimRight_append_replicate]

lemma validEncoded_escapedPath (u : URL) : validEncoded u.escapedPath = true := by
  rw [escapedPath]
  split
  · assumption
  · exact validEncoded_escape _

lemma isSome_unescape_escapedPath (h : (unescape .path u.path).isSome) :
    (unescape .path u.escapedPath).isSome := by
  rw [escapedPath]
  split
  · exact h
  · exact isSome_unescape_escape _

lemma validEncoded_trimmedPath (u : URL) : validEncoded u.trimmedPath = true := by
  have h := validEncoded_escapedPath u
  rw [validEncoded, List.all_eq_true] at h ⊢
  exact fun b hb => h b ((List.rdropWhile_prefix _ _).mem hb)

lemma isSome_unescape_trimmedPath (h : (unescape .path u.path).isSome) :
    (unescape .path u.trimmedPath).isSome := by
  have hesc := isSome_unescape_escapedPath h
  obtain ⟨n, hn⟩ := exists_trimRight (ascii '/') u.escapedPath
  rw [hn, unescape_slashes, Option.isSome_map] at hesc
  exact hesc

lemma trimmedPath_trimmedPath (host : Bytes) (u : URL) :
    (URL.mk host u.trimmedPath).trimmedPath = u.trimmedPath := by
  have hesc : (URL.mk host u.trimmedPath).escapedPath = u.trimmedPath :=
    if_pos (validEncoded_trimmedPath u)
  rw [trimmedPath, hesc]
  exact List.rdropWhile_idempotent _ _

lemma head?_escape (h : s.head? = some (ascii '/')) : (escape s).head? = some (ascii '/') := by
  cases s with
  | nil => cases h
  | cons b s =>
    cases h
    rfl

lemma head?_unescape (h : unescape .path s = some t) (hs : s.head? = some (ascii '/')) :
    t.head? = some (ascii '/') := by
  cases s with
  | nil => cases hs
  | cons b s =>
    cases hs
    rw [unescape_cons (by decide), if_pos (literal_path _)] at h
    obtain ⟨t', -, rfl⟩ := Option.map_eq_some_iff.mp h
    rfl

lemma head?_trimmedPath (h : (unescape .path u.path).isSome)
    (hs : u.path = [] ∨ u.path.head? = some (ascii '/')) :
    u.trimmedPath = [] ∨ u.trimmedPath.head? = some (ascii '/') := by
  have hesc : u.escapedPath = [] ∨ u.escapedPath.head? = some (ascii '/') := by
    rw [escapedPath]
    split
    · exact hs
    obtain ⟨d, hd⟩ := Option.isSome_iff_exists.mp h
    rw [hd, Option.getD_some]
    rcases hs with hs | hs
    · rw [hs] at hd
      cases hd
      exact .inl rfl
    · exact .inr (head?_escape (head?_unescape hd hs))
  obtain ⟨n, hn⟩ := exists_trimRight (ascii '/') u.escapedPath
  rcases hesc with hesc | hesc
  · left
    rw [trimmedPath, hesc]
    rfl
  · cases ht : u.trimmedPath with
    | nil => exact .inl rfl
    | cons b t =>
      rw [trimmedPath] at ht
      rw [hn, ht] at hesc
      exact .inr hesc

end URL

end Seaplane.Lib.GoUrl
