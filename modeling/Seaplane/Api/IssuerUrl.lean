import Seaplane.Lib.GoUrl

/-!
The normal form of the issuer URLs that customers bring.

An issuer URL reserves an index entry under its normal form: the host in lower case, a port other
than the default one, and the escaped path without the slashes at its end. Normal forms are put
together as strings, so the question is what they parse to.
-/

namespace Seaplane.Api.IssuerUrl

open Lib Lib.Bytes Lib.GoUrl

def maxIssuerURLLength : ℕ := 2048

/-- The port with its colon, unless it is the default one. -/
def colonPort (port : Bytes) : Bytes :=
  if port ≠ [] ∧ port ≠ text "443" then ascii ':' :: port else []

section

variable (L : LowerCase) (v6 : IPv6)

def authority (u : URL) : Bytes := u.hostname.toLower L ++ colonPort u.port

def normalForm (u : URL) : Bytes := text "https://" ++ authority L u ++ u.trimmedPath

/-- `normalizeIssuerURL`, without the texts of its errors. -/
def normalizeIssuerURL (raw : Bytes) : Option Bytes :=
  if raw = [] then none
  else if maxIssuerURLLength < raw.length then none
  else if raw.any fun b => b ≤ 32 || b == 127 then none
  else do
    let u ← parse v6 raw
    if u.host = [] then none else return normalForm L u

/-- What normal forms are for, on a set of issuer URLs that are accepted. -/
structure Canonical (urls : Set Bytes) : Prop where
  idempotent : ∀ r ∈ urls, ∀ n, normalizeIssuerURL L v6 r = some n →
    normalizeIssuerURL L v6 n = some n
  /-- The spellings of one issuer. -/
  same : ∀ r ∈ urls, ∀ r' ∈ urls, ∀ u u', parse v6 r = some u → parse v6 r' = some u' →
    u.hostname.caseless L = u'.hostname.caseless L → colonPort u.port = colonPort u'.port →
    trimRight (ascii '/') u.path = trimRight (ascii '/') u'.path →
      normalizeIssuerURL L v6 r = normalizeIssuerURL L v6 r'
  /-- Another host, port or path. -/
  different : ∀ r ∈ urls, ∀ r' ∈ urls, ∀ u u', parse v6 r = some u → parse v6 r' = some u' →
    u.hostname.caseless L ≠ u'.hostname.caseless L ∨ colonPort u.port ≠ colonPort u'.port ∨
      u.trimmedPath ≠ u'.trimmedPath →
        normalizeIssuerURL L v6 r ≠ normalizeIssuerURL L v6 r'
  valid : ∀ r ∈ urls, ∀ u n, parse v6 r = some u → normalizeIssuerURL L v6 r = some n →
    ∃ u', parse v6 n = some u' ∧ u'.host ≠ [] ∧
      u'.hostname.caseless L = u.hostname.caseless L ∧ colonPort u'.port = colonPort u.port

/-- A host name that can be written without escapes, in a normal form that is not too long. -/
structure Regular (u : URL) : Prop where
  unbracketed : u.host.head? ≠ some (ascii '[')
  percent : ascii '%' ∉ u.host
  characters : u.hostname.Valid
  named : u.hostname ≠ [] ∨ u.port ≠ [] ∧ u.port ≠ text "443"
  short : (text "https://").length + (u.hostname.toLower L).length + (colonPort u.port).length +
    u.trimmedPath.length ≤ maxIssuerURLLength

end

variable {raw : Bytes} {u : URL}

section

variable {L : LowerCase} {v6 : IPv6}

lemma normalizeIssuerURL_eq_some {n : Bytes} :
    normalizeIssuerURL L v6 raw = some n ↔
      raw ≠ [] ∧ raw.length ≤ maxIssuerURLLength ∧ (∀ b ∈ raw, 32 < b ∧ b ≠ 127) ∧
        ∃ u, parse v6 raw = some u ∧ u.host ≠ [] ∧ n = normalForm L u := by
  have hbytes : (¬(raw.any fun b => b ≤ 32 || b == 127) = true) ↔ ∀ b ∈ raw, 32 < b ∧ b ≠ 127 := by
    simp [List.any_eq_true]
  simp only [normalizeIssuerURL, Option.ite_none_left_eq_some, Nat.not_lt, hbytes,
    Option.bind_eq_bind, Option.bind_eq_some_iff, Option.pure_def, Option.some.injEq, ne_eq,
    eq_comm (a := n)]

/-! ### The parts of a normal form -/

lemma colonPort_cases (port : Bytes) :
    colonPort port = [] ∨ colonPort port = ascii ':' :: port := by
  unfold colonPort
  split
  · exact .inr rfl
  · exact .inl rfl

lemma authority_ne_nil :
    authority L u ≠ [] ↔ u.hostname ≠ [] ∨ u.port ≠ [] ∧ u.port ≠ text "443" := by
  unfold authority colonPort
  split
  · next h => exact iff_of_true (by simp) (.inr h)
  · next h => simp [toLower_eq_nil, h]

lemma length_normalForm (u : URL) : (normalForm L u).length = (text "https://").length +
    (u.hostname.toLower L).length + (colonPort u.port).length + u.trimmedPath.length := by
  simp [normalForm, authority, Nat.add_assoc]

lemma colonPort_tail (port : Bytes) : colonPort (colonPort port).tail = colonPort port := by
  rcases colonPort_cases port with h | h
  · rw [h]
    rfl
  · rw [h]
    exact h

section Port

variable {p : Bytes} (h : validOptionalPort p = true)
include h

lemma colonPort_tail_cases : colonPort p.tail = [] ∨ colonPort p.tail = p := by
  cases p with
  | nil => exact .inl rfl
  | cons b s =>
    simp only [validOptionalPort, Bool.and_eq_true, beq_iff_eq] at h
    rw [h.1]
    exact colonPort_cases s

lemma validOptionalPort_colonPort : validOptionalPort (colonPort p.tail) = true := by
  rcases colonPort_tail_cases h with hp | hp <;> rw [hp]
  · rfl
  · exact h

lemma count_colonPort (c : UInt8) : (colonPort p.tail).count c ≤ p.count c := by
  rcases colonPort_tail_cases h with hp | hp <;> rw [hp]
  exact Nat.zero_le _

end Port

lemma ne_delimiter (b : UInt8) : heldByte b = true →
    b ≠ ascii '/' ∧ b ≠ ascii '?' ∧ b ≠ ascii '#' ∧ b ≠ ascii '@' := by
  revert b
  exact forall_byte (by decide +kernel)

lemma heldByte_of_isLetter (b : UInt8) : isLetter b = true → heldByte b = true := by
  revert b
  exact forall_byte (by decide +kernel)

lemma held_toLower {s : Bytes} (h : ∀ b ∈ s, heldByte b = true) :
    ∀ b ∈ s.toLower L, heldByte b = true := by
  intro b hb
  by_cases hlt : b < 128
  · rcases mem_of_mem_toLower hlt hb with hletter | hmem
    · exact heldByte_of_isLetter b hletter
    · exact h b hmem
  · simp [heldByte, UInt8.not_lt.mp hlt]

lemma heldByte_of_hostByte {b : UInt8} (h : hostByte b = true) : heldByte b = true := by
  simp [heldByte, h]

lemma exists_split (h : HostForm v6 u.host) :
    ∃ p, validOptionalPort p = true ∧ u.port = p.tail ∧ (∀ b ∈ u.hostname, heldByte b = true) ∧
      ∀ c, u.hostname.count c + p.count c ≤ u.host.count c := by
  cases h with
  | bracketed addr p heq hvalid hport hheld =>
    have hsplit := splitHostPort_bracketed addr hport
    rw [← heq] at hsplit
    have hname : u.hostname = addr := congrArg Prod.fst hsplit
    refine ⟨p, hport, congrArg Prod.snd hsplit, hname ▸ hheld, fun c => ?_⟩
    rw [hname, heq, List.cons_append, List.count_cons, List.count_append, List.count_cons]
    omega
  | named host p heq hcolon hbracket hport hlit =>
    have hsplit := splitHostPort_unbracketed hport hcolon hbracket
    rw [← heq] at hsplit
    have hname : u.hostname = host := congrArg Prod.fst hsplit
    refine ⟨p, hport, congrArg Prod.snd hsplit, ?_, fun c => ?_⟩
    · rw [hname]
      exact fun b hb => held_of_literal (hlit b hb)
    · rw [hname, heq, List.count_append]

lemma count_authority_le (h : HostForm v6 u.host) {c : UInt8} (hc : c < 128)
    (hletter : isLetter c = false) : (authority L u).count c ≤ u.host.count c := by
  obtain ⟨p, hp, hport, -, hcount⟩ := exists_split h
  rw [authority, List.count_append, count_toLower hc hletter, hport]
  exact Nat.le_trans (Nat.add_le_add_left (count_colonPort hp c) _) (hcount c)

lemma held_authority (h : HostForm v6 u.host) : ∀ b ∈ authority L u, heldByte b = true := by
  obtain ⟨p, hp, hport, hheld, -⟩ := exists_split h
  intro b hb
  rcases List.mem_append.mp hb with hb | hb
  · exact held_toLower hheld b hb
  · rw [hport] at hb
    exact heldByte_of_hostByte ((port_literal (validOptionalPort_colonPort hp)).2.2 b hb)

lemma encodedByte_spec (b : UInt8) : encodedByte b = true →
    (b ≠ ascii '?' ∧ b ≠ ascii '#') ∧ 32 < b ∧ b ≠ 127 := by
  revert b
  exact forall_byte (by decide +kernel)

lemma encodedByte_trimmedPath (u : URL) : ∀ b ∈ u.trimmedPath, encodedByte b = true :=
  List.all_eq_true.mp (URL.validEncoded_trimmedPath u)

lemma parse_normalForm (h : parse v6 raw = some u) :
    parse v6 (normalForm L u) =
      (parseHost v6 (authority L u)).map fun host => ⟨host, u.trimmedPath⟩ := by
  obtain ⟨hform, hpath, hhead⟩ := parse_some h
  rw [normalForm, parse_print (fun b hb => ne_delimiter b (held_authority hform b hb))
    (fun b hb => (encodedByte_spec b (encodedByte_trimmedPath u b hb)).1)
    (URL.head?_trimmedPath hpath hhead)]
  obtain ⟨d, hd⟩ := Option.isSome_iff_exists.mp (URL.isSome_unescape_trimmedPath hpath)
  rw [hd]
  cases parseHost v6 (authority L u) <;> rfl

lemma normalForm_inj {raw' : Bytes} {u' : URL} (h : parse v6 raw = some u)
    (h' : parse v6 raw' = some u') (heq : normalForm L u = normalForm L u') :
    authority L u = authority L u' ∧ u.trimmedPath = u'.trimmedPath := by
  have hcut : ∀ {raw : Bytes} {u : URL}, parse v6 raw = some u →
      before (ascii '/') (authority L u ++ u.trimmedPath) = authority L u ∧
        (authority L u ++ u.trimmedPath).dropWhile (· ≠ ascii '/') = u.trimmedPath := by
    intro raw u h
    obtain ⟨hform, hpath, hhead⟩ := parse_some h
    exact before_append (fun hmem => (ne_delimiter _ (held_authority hform _ hmem)).1 rfl)
      (URL.head?_trimmedPath hpath hhead)
  rw [normalForm, normalForm, List.append_assoc, List.append_assoc,
    List.append_cancel_left_eq] at heq
  refine ⟨?_, ?_⟩
  · rw [← (hcut h).1, heq, (hcut h').1]
  · rw [← (hcut h).2, heq, (hcut h').2]

/-! ### Host names without brackets and escapes -/

/-- The parts of a host that is written as it is. -/
structure Plain (u : URL) (host p : Bytes) : Prop where
  split : u.hostname = host ∧ u.port = p.tail
  port : validOptionalPort p = true
  colon : ascii ':' ∉ host
  bracket : ascii '[' ∉ host
  literal : ∀ b ∈ host, Encoding.host.literal b = true ∨ b = ascii '%'
  host : u.host = host ++ p

lemma exists_plain (h : HostForm v6 u.host) (hu : u.host.head? ≠ some (ascii '[')) :
    ∃ host p, Plain u host p := by
  cases h with
  | bracketed addr p heq => exact absurd (by rw [heq]; rfl) hu
  | named host p heq hcolon hbracket hport hlit =>
    have hsplit := splitHostPort_unbracketed hport hcolon hbracket
    rw [← heq] at hsplit
    exact ⟨host, p, ⟨congrArg Prod.fst hsplit, congrArg Prod.snd hsplit⟩, hport, hcolon, hbracket,
      hlit, heq⟩

lemma notMem_toLower {c : UInt8} (hc : c < 128) (hletter : isLetter c = false) {s : Bytes}
    (h : c ∉ s) : c ∉ s.toLower L := by
  intro hmem
  rcases mem_of_mem_toLower hc hmem with hl | hs
  · rw [hletter] at hl
    cases hl
  · exact h hs

lemma literal_of_isLetter (b : UInt8) : isLetter b = true → Encoding.host.literal b = true := by
  revert b
  exact forall_byte (by decide +kernel)

lemma literal_spec (b : UInt8) : Encoding.host.literal b = true → 32 < b ∧ b ≠ 127 := by
  revert b
  exact forall_byte (by decide +kernel)

namespace Plain

variable {u : URL} {host p : Bytes} (h : Plain u host p)
include h

lemma authority_eq : authority L u = host.toLower L ++ colonPort p.tail := by
  rw [authority, h.split.1, h.split.2]

lemma colon_toLower : ascii ':' ∉ host.toLower L := notMem_toLower (by decide) (by decide) h.colon

lemma head?_authority : (authority L u).head? ≠ some (ascii '[') := by
  intro hhead
  have hmem : ascii '[' ∈ authority L u := List.mem_of_mem_head? hhead
  rw [h.authority_eq, List.mem_append] at hmem
  rcases hmem with hmem | hmem
  · exact notMem_toLower (by decide) (by decide) h.bracket hmem
  · exact (port_literal (validOptionalPort_colonPort h.port)).2.1 hmem

lemma mem_authority (hu : ascii '%' ∈ u.host) : ascii '%' ∈ authority L u := by
  rw [h.host, List.mem_append] at hu
  have hhost : ascii '%' ∈ host := hu.resolve_right (port_literal h.port).1
  rw [h.authority_eq, List.mem_append, ← List.count_pos_iff,
    count_toLower (by decide) (by decide), List.count_pos_iff]
  exact .inl hhost

variable (hpercent : ascii '%' ∉ u.host)
include hpercent

lemma literal_toLower : ∀ b ∈ host.toLower L, Encoding.host.literal b = true := by
  intro b hb
  by_cases hlt : b < 128
  · rcases mem_of_mem_toLower hlt hb with hl | hmem
    · exact literal_of_isLetter b hl
    · refine (h.literal b hmem).resolve_right fun hb => hpercent ?_
      rw [h.host, ← hb]
      exact List.mem_append_left _ hmem
  · simp [Encoding.literal, UInt8.not_lt.mp hlt]

lemma parseHost_authority : parseHost v6 (authority L u) = some (authority L u) := by
  rw [h.authority_eq]
  refine parseHost_self h.colon_toLower (notMem_toLower (by decide) (by decide) h.bracket) ?_
    (h.literal_toLower hpercent) (validOptionalPort_colonPort h.port)
  refine notMem_toLower (by decide) (by decide) fun hmem => hpercent ?_
  rw [h.host]
  exact List.mem_append_left _ hmem

end Plain

lemma exists_reparse (h : parse v6 raw = some u)
    (hu : u.host.head? ≠ some (ascii '[')) (hpercent : ascii '%' ∉ u.host) :
    ∃ u', parse v6 (normalForm L u) = some u' ∧ u'.host = authority L u ∧
      u'.hostname = u.hostname.toLower L ∧ u'.port = (colonPort u.port).tail ∧
        u'.trimmedPath = u.trimmedPath := by
  obtain ⟨host, p, hplain⟩ := exists_plain (parse_some h).1 hu
  have hsplit := splitHostPort_unbracketed (validOptionalPort_colonPort hplain.port)
    (hplain.colon_toLower (L := L)) (notMem_toLower (L := L) (by decide) (by decide) hplain.bracket)
  rw [← hplain.authority_eq] at hsplit
  refine ⟨⟨authority L u, u.trimmedPath⟩, ?_, rfl, ?_, ?_, u.trimmedPath_trimmedPath _⟩
  · rw [parse_normalForm h, hplain.parseHost_authority hpercent]
    rfl
  · rw [hplain.split.1]
    exact congrArg Prod.fst hsplit
  · rw [hplain.split.2]
    exact congrArg Prod.snd hsplit

/-! ### Normal forms of regular URLs -/

namespace Regular

variable {raw : Bytes} {u : URL} (h : parse v6 raw = some u) (hr : Regular L u)
include h hr

lemma bytes_normalForm : ∀ b ∈ normalForm L u, 32 < b ∧ b ≠ 127 := by
  obtain ⟨host, p, hplain⟩ := exists_plain (parse_some h).1 hr.unbracketed
  intro b hb
  rw [normalForm, List.mem_append, List.mem_append, hplain.authority_eq, List.mem_append] at hb
  rcases hb with (hb | hb | hb) | hb
  · have hscheme : (text "https://").all (fun b => 32 < b && b != 127) = true := by decide
    simpa using List.all_eq_true.mp hscheme b hb
  · exact literal_spec b (hplain.literal_toLower hr.percent b hb)
  · have hhost := (port_literal (validOptionalPort_colonPort hplain.port)).2.2 b hb
    exact literal_spec b (by simp [Encoding.literal, hhost])
  · exact (encodedByte_spec b (encodedByte_trimmedPath u b hb)).2

lemma normalize : normalizeIssuerURL L v6 (normalForm L u) = some (normalForm L u) := by
  obtain ⟨u', hparse, hhost, hname, hport, hpath⟩ :=
    exists_reparse (L := L) h hr.unbracketed hr.percent
  refine normalizeIssuerURL_eq_some.mpr ⟨?_, (length_normalForm u).trans_le hr.short,
    hr.bytes_normalForm h, u', hparse, hhost ▸ authority_ne_nil.mpr hr.named, ?_⟩
  · simp [normalForm, text]
  · rw [normalForm, normalForm, authority, authority, hname, hport, hpath, toLower_toLower,
      colonPort_tail]

lemma authority_inj {raw' : Bytes} {u' : URL} (h' : parse v6 raw' = some u')
    (hr' : Regular L u') (heq : authority L u = authority L u') :
    u.hostname.caseless L = u'.hostname.caseless L ∧ colonPort u.port = colonPort u'.port := by
  have hcut : ∀ {raw : Bytes} {u : URL}, parse v6 raw = some u → Regular L u →
      before (ascii ':') (authority L u) = u.hostname.toLower L ∧
        (authority L u).dropWhile (· ≠ ascii ':') = colonPort u.port := by
    intro raw u h hr
    obtain ⟨host, p, hplain⟩ := exists_plain (parse_some h).1 hr.unbracketed
    refine before_append (hplain.split.1 ▸ hplain.colon_toLower) ?_
    rcases colonPort_cases u.port with hp | hp
    · exact .inl hp
    · exact .inr (by rw [hp]; rfl)
  refine ⟨caseless_eq_of_toLower hr.characters hr'.characters ?_, ?_⟩
  · rw [← (hcut h hr).1, heq, (hcut h' hr').1]
  · rw [← (hcut h hr).2, heq, (hcut h' hr').2]

end Regular

/-! ### What normal forms need -/

lemma head?_toLower {b : UInt8} (hb : b < 128) (s : Bytes) :
    (Bytes.toLower L (b :: s)).head? = some (lowerByte b) := by
  rw [toLower_eq, runes_cons hb, List.flatMap_cons, lowerRune, L.ascii _ (val_ofUInt8 hb),
    encode_of_ascii (lowerByte_lt b hb)]
  rfl

lemma lowerByte_ne_bracket (b : UInt8) : b ≠ ascii '[' → lowerByte b ≠ ascii '[' := by
  revert b
  exact forall_byte (by decide +kernel)

lemma unbracketed_of_parseHost (hform : HostForm v6 u.host) {h' : Bytes}
    (h : parseHost v6 (authority L u) = some h') : u.host.head? ≠ some (ascii '[') := by
  intro hhead
  cases hform with
  | named host p heq hcolon hbracket hport hlit =>
    have hmem : ascii '[' ∈ host ++ p := heq ▸ List.mem_of_mem_head? hhead
    rcases List.mem_append.mp hmem with hmem | hmem
    · exact hbracket hmem
    · exact (port_literal hport).2.1 hmem
  | bracketed addr p heq hvalid hport hheld =>
    have hsplit := splitHostPort_bracketed addr hport
    rw [← heq] at hsplit
    have hname : u.hostname = addr := congrArg Prod.fst hsplit
    have hcolons : 2 ≤ (authority L u).count (ascii ':') := by
      rw [authority, List.count_append, hname, count_toLower (by decide) (by decide)]
      exact Nat.le_trans (v6.colons addr hvalid) (Nat.le_add_right _ _)
    obtain ⟨b, s, rfl, hb, hne⟩ := v6.head addr hvalid
    have hfirst : (authority L u).head? = some (lowerByte b) := by
      rw [authority, List.head?_append, hname, head?_toLower hb, Option.some_or]
    rw [parseHost_colons hcolons fun hsome =>
      lowerByte_ne_bracket b hne (Option.some.inj (hfirst.symm.trans hsome))] at h
    cases h

lemma percent_of_authority_eq {u' : URL} {host p : Bytes} (hplain : Plain u host p)
    (hform : HostForm v6 u'.host) (h : parseHost v6 (authority L u) = some u'.host)
    (heq : authority L u = authority L u') : ascii '%' ∉ u.host := by
  intro hmem
  obtain ⟨hle, hdigits⟩ := count_unescape (unescape_of_parseHost hplain.head?_authority h)
  have hpercent := count_authority_le (L := L) (c := ascii '%') hform (by decide) (by decide)
  have hdigit := count_authority_le (L := L) (c := ascii '2') hform (by decide) (by decide)
  rw [← heq] at hpercent hdigit
  have hpos := List.count_pos_iff.mpr (hplain.mem_authority (L := L) hmem)
  have := hdigits (Nat.le_antisymm hle hpercent)
  omega

lemma Canonical.regular {urls : Set Bytes} (hc : Canonical L v6 urls)
    (hraw : raw ∈ urls) (h : parse v6 raw = some u)
    (hn : normalizeIssuerURL L v6 raw = some (normalForm L u)) : Regular L u := by
  have hagain := hc.idempotent raw hraw _ hn
  obtain ⟨-, hshort, -, u', hu', hhost, heq⟩ := normalizeIssuerURL_eq_some.mp hagain
  have hform := (parse_some h).1
  have hauth := hu'
  rw [parse_normalForm h, Option.map_eq_some_iff] at hauth
  obtain ⟨h', hh', rfl⟩ := hauth
  have hunbracketed := unbracketed_of_parseHost hform hh'
  obtain ⟨host, p, hplain⟩ := exists_plain hform hunbracketed
  have hpercent := percent_of_authority_eq hplain (parse_some hu').1 hh'
    (normalForm_inj h hu' heq).1
  obtain ⟨u'', hu'', hhost'', hname'', -, -⟩ := exists_reparse (L := L) h hunbracketed hpercent
  obtain rfl : _ = u'' := Option.some.inj (hu'.symm.trans hu'')
  obtain ⟨v, hv, -, hcase, -⟩ := hc.valid raw hraw u _ h hn
  obtain rfl : _ = v := Option.some.inj (hu'.symm.trans hv)
  rw [hname'', caseless_toLower_iff] at hcase
  exact ⟨hunbracketed, hpercent, hcase, authority_ne_nil.mp (hhost'' ▸ hhost),
    (length_normalForm u).symm.trans_le hshort⟩

/-- Normal forms of accepted URLs are canonical if and only if all of them are regular. -/
theorem canonical_iff_regular (L : LowerCase) (v6 : IPv6) (urls : Set Bytes)
    (haccepted : ∀ raw ∈ urls, (normalizeIssuerURL L v6 raw).isSome) :
    Canonical L v6 urls ↔ ∀ raw ∈ urls, ∀ u, parse v6 raw = some u → Regular L u := by
  have hn : ∀ raw ∈ urls, ∀ u, parse v6 raw = some u →
      normalizeIssuerURL L v6 raw = some (normalForm L u) := by
    intro raw hraw u hu
    obtain ⟨n, hn⟩ := Option.isSome_iff_exists.mp (haccepted raw hraw)
    obtain ⟨-, -, -, u', hu', -, rfl⟩ := normalizeIssuerURL_eq_some.mp hn
    obtain rfl : u = u' := Option.some.inj (hu.symm.trans hu')
    exact hn
  refine ⟨fun hc raw hraw u hu => hc.regular hraw hu (hn raw hraw u hu), fun hr => ⟨?_, ?_, ?_, ?_⟩⟩
  · intro raw hraw n hsome
    obtain ⟨-, -, -, u, hu, -, rfl⟩ := normalizeIssuerURL_eq_some.mp hsome
    exact (hr raw hraw u hu).normalize hu
  · intro raw hraw raw' hraw' u u' hu hu' hname hport hpath
    rw [hn raw hraw u hu, hn raw' hraw' u' hu', normalForm, normalForm, authority, authority,
      toLower_eq_of_caseless hname, hport, URL.trimmedPath_eq (parse_some hu).2.1 [], hpath,
      ← URL.trimmedPath_eq (parse_some hu').2.1 []]
  · intro raw hraw raw' hraw' u u' hu hu' hne heq
    rw [hn raw hraw u hu, hn raw' hraw' u' hu', Option.some.injEq] at heq
    obtain ⟨hauth, hpath⟩ := normalForm_inj hu hu' heq
    obtain ⟨hname, hport⟩ := (hr raw hraw u hu).authority_inj hu hu' (hr raw' hraw' u' hu') hauth
    rcases hne with hne | hne | hne
    · exact hne hname
    · exact hne hport
    · exact hne hpath
  · intro raw hraw u n hu hsome
    have hreg := hr raw hraw u hu
    rw [hn raw hraw u hu, Option.some.injEq] at hsome
    subst hsome
    obtain ⟨u', hu', hhost, hname, hport, -⟩ :=
      exists_reparse (L := L) hu hreg.unbracketed hreg.percent
    refine ⟨u', hu', hhost ▸ authority_ne_nil.mpr hreg.named, ?_, ?_⟩
    · rw [hname, caseless_toLower_iff]
      exact hreg.characters
    · rw [hport, colonPort_tail]

end

lemma toLower_of_ge {c : Char} (h : 128 ≤ c.val) : c.toLower = c := by
  refine dif_neg fun hupper => ?_
  have hge : 128 ≤ c.val.toNat := h
  have hle : c.val.toNat ≤ 90 := hupper.2
  omega

/-- Lower case that leaves alone what is not of ASCII. -/
def lowerASCII : LowerCase where
  lower := Char.toLower
  idem c := by
    by_cases hc : c.val < 128
    · rw [eq_ofUInt8 hc]
      generalize Bytes.ascii c = b
      revert b
      exact forall_byte (by decide +kernel)
    · rw [toLower_of_ge (UInt32.not_lt.mp hc), toLower_of_ge (UInt32.not_lt.mp hc)]
  ascii _ _ := rfl
  letter c hc h := by
    rw [toLower_of_ge hc] at h
    exact absurd h (UInt32.not_lt.mpr hc)
  replacement := by decide

/-- The loopback address is the only one. -/
def loopback : IPv6 where
  valid s := s == text "::1"
  colons s h := by
    rw [eq_of_beq h]
    decide
  head s h := ⟨ascii ':', text ":1", eq_of_beq h, by decide, by decide⟩

/-- Two spellings of one issuer, and another one. -/
def spellings : List Bytes :=
  [text "HTTPS://Issuer.example:443/a/", text "https://issuer.example/a",
    text "https://issuer.example:8443/a"]

theorem canonical_iff_regular_spellings :
    Canonical lowerASCII loopback {raw | raw ∈ spellings} := by
  have haccepted : ∀ raw ∈ spellings, (normalizeIssuerURL lowerASCII loopback raw).isSome := by
    decide +kernel
  have hregular : ∀ raw ∈ spellings, (parse loopback raw).all fun u =>
      u.host.head? ≠ some (ascii '[') ∧ ascii '%' ∉ u.host ∧ (∀ b ∈ u.hostname, b < 128) ∧
        u.hostname ≠ [] ∧ (text "https://").length + (u.hostname.toLower lowerASCII).length +
          (colonPort u.port).length + u.trimmedPath.length ≤ maxIssuerURLLength := by
    decide +kernel
  refine (canonical_iff_regular _ _ _ haccepted).mpr fun raw hraw u hu => ?_
  have hu' := hregular raw hraw
  simp only [hu, Option.all_some, decide_eq_true_eq] at hu'
  obtain ⟨hbracket, hpercent, hascii, hname, hshort⟩ := hu'
  exact ⟨hbracket, hpercent, valid_of_ascii hascii, .inl hname, hshort⟩

/-- The brackets of an address are lost, so that its port is not one any more. -/
theorem address_not_canonical :
    normalizeIssuerURL lowerASCII loopback (text "https://[::1]:8443") =
      some (text "https://::1:8443") ∧
    normalizeIssuerURL lowerASCII loopback (text "https://::1:8443") = none ∧
    ¬Canonical lowerASCII loopback {text "https://[::1]:8443"} := by
  have hn : normalizeIssuerURL lowerASCII loopback (text "https://[::1]:8443") =
      some (text "https://::1:8443") := by decide +kernel
  have hnone : normalizeIssuerURL lowerASCII loopback (text "https://::1:8443") = none := by
    decide +kernel
  refine ⟨hn, hnone, fun h => ?_⟩
  have hagain := h.idempotent _ rfl _ hn
  rw [hnone] at hagain
  cases hagain

end Seaplane.Api.IssuerUrl
