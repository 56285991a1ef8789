import Mathlib.Algebra.BigOperators.Group.List.Basic
import Mathlib.Data.List.Basic
import Mathlib.Tactic.Common

/-!
Strings as bytes, and the characters they decode to.

A string of Go is any list of bytes. Ranging over it gives the characters of its UTF-8 sequences; a
byte that starts none is stray. Lowering the case of a string goes through its characters, so it
loses the stray bytes.
-/

namespace Seaplane.Lib

abbrev Bytes := List UInt8

namespace Bytes

open String (utf8EncodeChar)

/-! ### Decoding -/

def firstRune (s : Bytes) : Option Char := s.toByteArray.utf8DecodeChar? 0

lemma firstRune_encode (c : Char) (s : Bytes) : firstRune (utf8EncodeChar c ++ s) = some c := by
  rw [firstRune, List.toByteArray_append]
  exact ByteArray.utf8DecodeChar?_utf8EncodeChar_append

variable {s : Bytes} {c : Char} {b : UInt8}

lemma eq_of_firstRune (h : firstRune s = some c) : s = utf8EncodeChar c ++ s.drop c.utf8Size := by
  obtain ⟨l, hl⟩ := ByteArray.exists_of_utf8DecodeChar?_eq_some h
  have hs : s = utf8EncodeChar c ++ l.data.toList := by
    have hdata := congrArg (fun a => a.data.toList) hl
    simpa using hdata
  have hlen : (utf8EncodeChar c).length = c.utf8Size := String.length_utf8EncodeChar c
  have hdrop : s.drop c.utf8Size = l.data.toList := by
    rw [hs, ← hlen, List.drop_left]
  rw [hdrop]
  exact hs

/-- The characters, and the bytes that start none. -/
def runes : Bytes → List (Char ⊕ UInt8)
  | [] => []
  | b :: s =>
    match firstRune (b :: s) with
    | some c => .inl c :: runes ((b :: s).drop c.utf8Size)
    | none => .inr b :: runes s
termination_by s => s.length
decreasing_by
  · have hpos := c.utf8Size_pos
    simp only [List.length_drop, List.length_cons]
    omega
  · simp

/-- The bytes of a character, or the stray byte. -/
def encode : Char ⊕ UInt8 → Bytes
  | .inl c => utf8EncodeChar c
  | .inr b => [b]

lemma flatMap_encode_runes (s : Bytes) : s.runes.flatMap encode = s := by
  fun_induction runes s with
  | case1 => rfl
  | case2 b s c hc ih =>
    rw [List.flatMap_cons, ih]
    exact (eq_of_firstRune hc).symm
  | case3 b s hc ih =>
    rw [List.flatMap_cons, ih]
    rfl

lemma runes_encode_append (c : Char) (s : Bytes) :
    runes (utf8EncodeChar c ++ s) = .inl c :: s.runes := by
  have hlen : (utf8EncodeChar c).length = c.utf8Size := String.length_utf8EncodeChar c
  have hpos := c.utf8Size_pos
  have hfirst := firstRune_encode c s
  cases hs : utf8EncodeChar c ++ s with
  | nil =>
    have hnil := congrArg List.length hs
    rw [List.length_append, List.length_nil, hlen] at hnil
    omega
  | cons b t =>
    rw [hs] at hfirst
    rw [runes, hfirst]
    simp only
    rw [← hs, ← hlen, List.drop_left]

lemma runes_flatMap_encode (cs : List Char) : runes (cs.flatMap utf8EncodeChar) = cs.map .inl := by
  induction cs with
  | nil => rw [List.flatMap_nil, runes, List.map_nil]
  | cons c cs ih => rw [List.flatMap_cons, runes_encode_append, ih, List.map_cons]

/-! ### ASCII -/

abbrev ascii (c : Char) : UInt8 := c.toUInt8

lemma encode_of_ascii (h : c.val < 128) : utf8EncodeChar c = [ascii c] := by
  have hle : c.val ≤ 127 := by
    rw [UInt32.le_iff_toNat_le]
    rw [UInt32.lt_iff_toNat_lt] at h
    exact Nat.lt_succ_iff.mp h
  exact String.utf8EncodeChar_eq_singleton (Char.utf8Size_eq_one_iff.mpr hle)

lemma ge_of_mem_encode (h : 128 ≤ c.val) (hb : b ∈ utf8EncodeChar c) : 128 ≤ b := by
  have hnat : 128 ≤ c.val.toNat := h
  have hbyte : ∀ n m : ℕ, 128 ≤ m → n + m < 256 → 128 ≤ UInt8.ofNat (n + m) := by
    intro n m hm hlt
    rw [UInt8.le_iff_toNat_le, UInt8.toNat_ofNat', Nat.mod_eq_of_lt hlt]
    change 128 ≤ n + m
    omega
  simp only [utf8EncodeChar] at hb
  split at hb
  · omega
  · split at hb
    · simp only [List.mem_cons, List.not_mem_nil, or_false] at hb
      rcases hb with rfl | rfl <;> exact hbyte _ _ (by omega) (by omega)
    · split at hb
      · simp only [List.mem_cons, List.not_mem_nil, or_false] at hb
        rcases hb with rfl | rfl | rfl <;> exact hbyte _ _ (by omega) (by omega)
      · simp only [List.mem_cons, List.not_mem_nil, or_false] at hb
        rcases hb with rfl | rfl | rfl | rfl <;> exact hbyte _ _ (by omega) (by omega)

@[simp] lemma ascii_ofUInt8 (b : UInt8) : ascii (Char.ofUInt8 b) = b :=
  UInt8.toUInt8_toUInt32 b

lemma val_ofUInt8 (h : b < 128) : (Char.ofUInt8 b).val < 128 := by
  rw [UInt32.lt_iff_toNat_lt]
  rw [UInt8.lt_iff_toNat_lt] at h
  exact h

/-- A byte of ASCII is a character of its own wherever it stands. -/
lemma runes_cons (hb : b < 128) (s : Bytes) :
    runes (b :: s) = .inl (Char.ofUInt8 b) :: s.runes := by
  have h := runes_encode_append (Char.ofUInt8 b) s
  rwa [encode_of_ascii (val_ofUInt8 hb), ascii_ofUInt8, List.singleton_append] at h

lemma stray_ge (h : .inr b ∈ s.runes) : 128 ≤ b := by
  fun_induction runes s with
  | case1 => cases h
  | case2 b' s c hc ih =>
    rcases List.mem_cons.mp h with h | h
    · cases h
    · exact ih h
  | case3 b' s hc ih =>
    rcases List.mem_cons.mp h with h | h
    · cases h
      by_contra hb
      have hruns := runes_cons (UInt8.not_le.mp hb) s
      rw [runes, hc] at hruns
      cases hruns
    · exact ih h

/-! ### Lower case -/

/-- What lowering the case of characters does, as far as it matters here. -/
structure LowerCase where
  lower : Char → Char
  idem : ∀ c, lower (lower c) = lower c
  ascii : ∀ c, c.val < 128 → lower c = c.toLower
  /-- Characters that are not of ASCII may become letters, like the Kelvin sign. -/
  letter : ∀ c, 128 ≤ c.val → (lower c).val < 128 → (lower c).isLower
  replacement : lower '\uFFFD' = '\uFFFD'

def lowerByte (b : UInt8) : UInt8 := ascii (Char.ofUInt8 b).toLower

section Lower

variable (L : LowerCase)

/-- A stray byte becomes the replacement character. -/
def lowerRune : Char ⊕ UInt8 → Char
  | .inl c => L.lower c
  | .inr _ => '\uFFFD'

/-- `strings.ToLower`; strings of ASCII are lowered byte by byte. -/
def toLower (s : Bytes) : Bytes :=
  if s.all (· < 128) then s.map lowerByte
  else s.runes.flatMap fun r => utf8EncodeChar (lowerRune L r)

/-- The string whatever the case of its letters; stray bytes are themselves. -/
def caseless (s : Bytes) : List (Char ⊕ UInt8) := s.runes.map (Sum.map L.lower id)

variable {L}

lemma forall_byte {p : UInt8 → Prop} (h : ∀ n : Fin 256, p (UInt8.ofFin n)) (b : UInt8) : p b :=
  h b.toFin

def isLetter (b : UInt8) : Bool := (Char.ofUInt8 b).isAlpha

lemma lowerByte_lt (b : UInt8) : b < 128 → (Char.ofUInt8 b).toLower.val < 128 := by
  revert b
  exact forall_byte (by decide +kernel)

lemma lowerByte_cases (b : UInt8) :
    lowerByte b = b ∨ isLetter b = true ∧ isLetter (lowerByte b) = true := by
  revert b
  exact forall_byte (by decide +kernel)

lemma isLetter_of_isLower (b : UInt8) : (Char.ofUInt8 b).isLower → isLetter b = true := by
  revert b
  exact forall_byte (by decide +kernel)

lemma eq_ofUInt8 (h : c.val < 128) : c = Char.ofUInt8 (ascii c) := by
  have hnat : c.val.toNat < 128 := h
  refine Char.ext (UInt32.toNat_inj.mp ?_)
  change c.val.toNat = c.val.toNat % 256
  omega

lemma toLower_eq (s : Bytes) :
    s.toLower L = s.runes.flatMap fun r => utf8EncodeChar (lowerRune L r) := by
  unfold toLower
  split
  · next h =>
    induction s with
    | nil => rw [runes]; rfl
    | cons b s ih =>
      rw [List.all_cons, Bool.and_eq_true, decide_eq_true_eq] at h
      rw [List.map_cons, runes_cons h.1, List.flatMap_cons, ← ih h.2, lowerRune,
        L.ascii _ (val_ofUInt8 h.1), encode_of_ascii (lowerByte_lt b h.1)]
      rfl
  · rfl

lemma runes_toLower (s : Bytes) :
    (s.toLower L).runes = s.runes.map fun r => .inl (lowerRune L r) := by
  rw [toLower_eq, ← List.flatMap_map, runes_flatMap_encode, List.map_map]
  rfl

lemma toLower_eq_nil : s.toLower L = [] ↔ s = [] := by
  constructor
  · intro h
    have hr := runes_toLower (L := L) s
    rw [h, runes] at hr
    rw [← flatMap_encode_runes s, List.map_eq_nil_iff.mp hr.symm, List.flatMap_nil]
  · rintro rfl
    rfl

lemma toLower_toLower (s : Bytes) : (s.toLower L).toLower L = s.toLower L := by
  have hrune (r : Char ⊕ UInt8) : lowerRune L (.inl (lowerRune L r)) = lowerRune L r := by
    cases r with
    | inl c => exact L.idem c
    | inr b => exact L.replacement
  rw [toLower_eq (s.toLower L), runes_toLower, List.flatMap_map, toLower_eq]
  simp only [hrune]

/-! ### Letters of either case -/

def Valid (s : Bytes) : Prop := ∀ b, .inr b ∉ s.runes

lemma valid_of_ascii (h : ∀ b ∈ s, b < 128) : s.Valid := by
  intro b hb
  induction s with
  | nil => rw [runes] at hb; cases hb
  | cons a s ih =>
    rw [runes_cons (h a List.mem_cons_self)] at hb
    rcases List.mem_cons.mp hb with hb | hb
    · cases hb
    · exact ih (fun c hc => h c (List.mem_cons_of_mem a hc)) hb

lemma valid_toLower (s : Bytes) : (s.toLower L).Valid := by
  intro b hb
  rw [runes_toLower, List.mem_map] at hb
  obtain ⟨r, -, hr⟩ := hb
  cases hr

lemma toLower_eq_of_caseless {t : Bytes} (h : s.caseless L = t.caseless L) :
    s.toLower L = t.toLower L := by
  have hvia (s : Bytes) : s.toLower L =
      (s.caseless L).flatMap fun r => utf8EncodeChar (r.elim id fun _ => '\uFFFD') := by
    rw [toLower_eq, caseless, List.flatMap_map]
    congr 1
    funext r
    cases r <;> rfl
  rw [hvia, hvia, h]

lemma caseless_of_valid (h : s.Valid) :
    s.caseless L = s.runes.map fun r => .inl (lowerRune L r) := by
  refine List.map_congr_left fun r hr => ?_
  cases r with
  | inl c => rfl
  | inr b => exact absurd hr (h b)

lemma caseless_eq_of_toLower {t : Bytes} (hs : s.Valid) (ht : t.Valid)
    (h : s.toLower L = t.toLower L) : s.caseless L = t.caseless L := by
  rw [caseless_of_valid hs, caseless_of_valid ht, ← runes_toLower, ← runes_toLower, h]

lemma caseless_toLower_iff : (s.toLower L).caseless L = s.caseless L ↔ s.Valid := by
  constructor
  · intro h b hb
    have hmem : .inr b ∈ s.caseless L := List.mem_map.mpr ⟨.inr b, hb, rfl⟩
    rw [← h, caseless_of_valid (valid_toLower s), List.mem_map] at hmem
    obtain ⟨r, -, hr⟩ := hmem
    cases hr
  · intro h
    exact caseless_eq_of_toLower (valid_toLower s) h (toLower_toLower s)

/-! ### Bytes of ASCII that are no letters -/

lemma count_encode_of_ge (hc : 128 ≤ c.val) (hb : b < 128) : (utf8EncodeChar c).count b = 0 := by
  refine List.count_eq_zero.mpr fun hmem => ?_
  exact absurd (ge_of_mem_encode hc hmem) (UInt8.not_le.mpr hb)

lemma count_lowerRune {r : Char ⊕ UInt8} (hr : r ∈ s.runes) (hb : b < 128)
    (hletter : isLetter b = false) :
    (utf8EncodeChar (lowerRune L r)).count b = (encode r).count b := by
  cases r with
  | inr x =>
    have hx : x ≠ b := by
      rintro rfl
      exact absurd (stray_ge hr) (UInt8.not_le.mpr hb)
    rw [lowerRune, count_encode_of_ge (by decide) hb, encode]
    simp [hx]
  | inl c =>
    by_cases hc : c.val < 128
    · -- both are one byte, and a letter becomes a letter
      obtain ⟨x, rfl⟩ : ∃ x, c = Char.ofUInt8 x := ⟨_, eq_ofUInt8 hc⟩
      have hx : x < 128 := hc
      rw [lowerRune, L.ascii _ hc, encode, encode_of_ascii (lowerByte_lt x hx),
        encode_of_ascii hc, ascii_ofUInt8]
      change [lowerByte x].count b = [x].count b
      rcases lowerByte_cases x with heq | ⟨hl, hl'⟩
      · rw [heq]
      · have hne : lowerByte x ≠ b := by
          rintro rfl
          rw [hl'] at hletter
          cases hletter
        have hne' : x ≠ b := by
          rintro rfl
          rw [hl] at hletter
          cases hletter
        simp [hne, hne']
    · have hge : 128 ≤ c.val := UInt32.not_lt.mp hc
      rw [encode, count_encode_of_ge hge hb, lowerRune]
      by_cases hlow : (L.lower c).val < 128
      · obtain ⟨x, hx⟩ : ∃ x, L.lower c = Char.ofUInt8 x := ⟨_, eq_ofUInt8 hlow⟩
        have hl := isLetter_of_isLower x (hx ▸ L.letter c hge hlow)
        have hne : x ≠ b := by
          rintro rfl
          rw [hl] at hletter
          cases hletter
        rw [encode_of_ascii hlow, hx, ascii_ofUInt8]
        simp [hne]
      · exact count_encode_of_ge (UInt32.not_lt.mp hlow) hb

lemma count_toLower (hb : b < 128) (hletter : isLetter b = false) (s : Bytes) :
    (s.toLower L).count b = s.count b := by
  conv_rhs => rw [← flatMap_encode_runes s]
  rw [toLower_eq, List.count_flatMap, List.count_flatMap]
  congr 1
  exact List.map_congr_left fun r hr => count_lowerRune hr hb hletter

lemma mem_of_mem_toLower (hb : b < 128) (h : b ∈ s.toLower L) : isLetter b = true ∨ b ∈ s := by
  cases hletter : isLetter b with
  | true => exact .inl rfl
  | false =>
    have hcount := count_toLower (L := L) hb hletter s
    exact .inr (List.count_pos_iff.mp (hcount ▸ List.count_pos_iff.mpr h))

end Lower

end Bytes

end Seaplane.Lib
