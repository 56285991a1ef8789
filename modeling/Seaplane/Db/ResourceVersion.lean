import Seaplane.Lib.Strconv

/-!
Resource versions: a watermark, and on delivered objects the object's own version before it.
-/

namespace Seaplane.Db

open Lib

structure RV where
  objectVersion : ℤ
  watermark : ℕ
  deriving DecidableEq

/-- The written form, `o<version>;<watermark>` or the bare watermark. -/
def RV.toString (rv : RV) : String :=
  if 0 < rv.objectVersion then
    .ofList ('o' :: formatInt rv.objectVersion ++ ';' :: formatUint rv.watermark)
  else .ofList (formatUint rv.watermark)

/-- Why a text is no resource version; each but one quotes the text it was reading. -/
inductive RVError where
  | noWatermark (s : String)
  | badObjectVersion (s : String)
  | emptyWatermark
  | bucketFormat (s : String)
  | badWatermark (s : String)

def RV.parseWatermark (ov : ℤ) (cs : List Char) : Except RVError RV :=
  if cs.head? = some 'b' then .error (.bucketFormat (.ofList cs))
  else
    match parseUint64 cs with
    | some wm => .ok ⟨ov, wm⟩
    | none => .error (.badWatermark (.ofList cs))

def RV.parse (s : String) : Except RVError RV :=
  match s.toList with
  | [] => .ok ⟨0, 0⟩
  | 'o' :: cs =>
    if ';' ∈ cs then
      match parseInt64 (cs.takeWhile (· ≠ ';')) with
      | none => .error (.badObjectVersion s)
      | some ov =>
        match (cs.dropWhile (· ≠ ';')).tail with
        | [] => .error .emptyWatermark
        | cs => RV.parseWatermark ov cs
    else .error (.noWatermark s)
  | cs => RV.parseWatermark 0 cs

lemma semicolon_not_mem_formatInt (n : ℤ) : ∀ c ∈ formatInt n, c ≠ ';' := by
  have digit : ∀ m, ∀ c ∈ formatUint m, c ≠ ';' := by
    rintro m c hc rfl
    have := isDigit_of_mem_formatUint hc
    simp [Char.isDigit] at this
  cases n with
  | ofNat m => exact digit m
  | negSucc m => exact List.forall_mem_cons.mpr ⟨by decide, digit _⟩

lemma parseWatermark_formatUint (ov : ℤ) {w : ℕ} (h : w < 2 ^ 64) :
    RV.parseWatermark ov (formatUint w) = .ok ⟨ov, w⟩ := by
  have hb : (formatUint w).head? ≠ some 'b' := by
    intro hb
    have := isDigit_of_mem_formatUint (List.mem_of_head? hb)
    simp [Char.isDigit] at this
  simp [RV.parseWatermark, hb, parseUint64_formatUint h]

lemma RV.parse_toString {rv : RV} (h0 : 0 < rv.objectVersion) (h1 : rv.objectVersion < 2 ^ 63)
    (h2 : rv.watermark < 2 ^ 64) : RV.parse rv.toString = .ok rv := by
  obtain ⟨ov, w⟩ := rv
  simp only at h0 h1 h2
  have ht : (formatInt ov ++ ';' :: formatUint w).takeWhile (· ≠ ';') = formatInt ov := by
    rw [List.takeWhile_append_of_pos (by simpa using semicolon_not_mem_formatInt ov)]
    simp
  have hd : (formatInt ov ++ ';' :: formatUint w).dropWhile (· ≠ ';') = ';' :: formatUint w := by
    rw [List.dropWhile_append_of_pos (by simpa using semicolon_not_mem_formatInt ov)]
    simp
  obtain ⟨c, cs, hw⟩ := List.exists_cons_of_ne_nil (formatUint_ne_nil w)
  have hp := parseWatermark_formatUint ov h2
  simp only [RV.parse, RV.toString, h0, if_true, String.toList_ofList, List.cons_append,
    List.mem_append, List.mem_cons, true_or, or_true, ht, hd, List.tail_cons,
    parseInt64_formatInt (by omega : -2 ^ 63 ≤ ov) h1]
  rw [hw] at hp ⊢
  exact hp

lemma watermark_of_parseWatermark {ov : ℤ} {w : ℕ} {rv : RV}
    (h : RV.parseWatermark ov (formatUint w) = .ok rv) : rv.watermark = w := by
  unfold RV.parseWatermark at h
  split at h
  · cases h
  · split at h
    · rename_i wm hw
      cases h
      rw [parseUint64, parseDigits_formatUint] at hw
      exact (Option.some.inj (Option.filter_eq_some_iff.mp hw).1).symm
    · cases h

lemma RV.watermark_of_parse {rv rv' : RV} (h : RV.parse rv.toString = .ok rv') :
    rv'.watermark = rv.watermark := by
  obtain ⟨ov, w⟩ := rv
  unfold RV.parse at h
  by_cases h0 : 0 < ov
  · have hd : (formatInt ov ++ ';' :: formatUint w).dropWhile (· ≠ ';') =
        ';' :: formatUint w := by
      rw [List.dropWhile_append_of_pos (by simpa using semicolon_not_mem_formatInt ov)]
      simp
    simp only [RV.toString, h0, if_true, String.toList_ofList, List.cons_append,
      List.mem_append, List.mem_cons, true_or, or_true, hd, List.tail_cons] at h
    split at h
    · cases h
    · split at h
      · cases h
      · exact watermark_of_parseWatermark h
  · simp only [RV.toString, h0, if_false, String.toList_ofList] at h
    split at h
    · exact absurd ‹_› (formatUint_ne_nil w)
    · rename_i cs hcs
      have ho : 'o' ∈ formatUint w := hcs ▸ List.mem_cons_self
      have := isDigit_of_mem_formatUint ho
      simp [Char.isDigit] at this
    · exact watermark_of_parseWatermark h

end Seaplane.Db
