import Mathlib.Algebra.Ring.Int.Defs
import Mathlib.Algebra.Ring.Nat
import Mathlib.Tactic.Common

/-!
Decimal numbers as text: formatting and parsing with the ranges of 64-bit integers.
-/

namespace Seaplane.Lib

def formatUint (n : ℕ) : List Char := Nat.toDigits 10 n

def formatInt : ℤ → List Char
  | .ofNat n => formatUint n
  | .negSucc n => '-' :: formatUint (n + 1)

def parseDigits (cs : List Char) : Option ℕ :=
  if cs ≠ [] ∧ cs.all Char.isDigit then some (Nat.ofDigitChars 10 cs 0) else none

def parseUint64 (cs : List Char) : Option ℕ := (parseDigits cs).filter (· < 2 ^ 64)

def parseInt64 : List Char → Option ℤ
  | '-' :: cs => ((parseDigits cs).filter (· ≤ 2 ^ 63)).map fun n => -(n : ℤ)
  | '+' :: cs => ((parseDigits cs).filter (· < 2 ^ 63)).map Int.ofNat
  | cs => ((parseDigits cs).filter (· < 2 ^ 63)).map Int.ofNat

lemma isDigit_of_mem_formatUint {n : ℕ} {c : Char} (h : c ∈ formatUint n) : c.isDigit :=
  Nat.isDigit_of_mem_toDigits (by omega) (by omega) h

lemma formatUint_ne_nil (n : ℕ) : formatUint n ≠ [] := Nat.toDigits_ne_nil

lemma parseDigits_formatUint (n : ℕ) : parseDigits (formatUint n) = some n := by
  have h : (formatUint n).all Char.isDigit :=
    List.all_eq_true.mpr fun c hc => isDigit_of_mem_formatUint hc
  rw [parseDigits, if_pos ⟨formatUint_ne_nil n, h⟩]
  exact congrArg some (Nat.ofDigitChars_toDigits (by omega) (by omega))

lemma parseUint64_formatUint {n : ℕ} (h : n < 2 ^ 64) : parseUint64 (formatUint n) = some n := by
  rw [parseUint64, parseDigits_formatUint]
  exact Option.filter_eq_some_iff.mpr ⟨rfl, decide_eq_true h⟩

lemma parseInt64_of_digits {cs : List Char} (h : ∀ c ∈ cs, c.isDigit) :
    parseInt64 cs = ((parseDigits cs).filter (· < 2 ^ 63)).map Int.ofNat := by
  cases cs with
  | nil => rfl
  | cons c cs =>
    have hc : c.isDigit := h c List.mem_cons_self
    have h1 : c ≠ '-' := by rintro rfl; simp [Char.isDigit] at hc
    have h2 : c ≠ '+' := by rintro rfl; simp [Char.isDigit] at hc
    simp [parseInt64, h1, h2]

lemma parseInt64_formatInt {n : ℤ} (h1 : -2 ^ 63 ≤ n) (h2 : n < 2 ^ 63) :
    parseInt64 (formatInt n) = some n := by
  cases n with
  | ofNat n =>
    have h : n < 2 ^ 63 := by simp only [Int.ofNat_eq_natCast] at h2; omega
    have hf : (some n).filter (· < 2 ^ 63) = some n :=
      Option.filter_eq_some_iff.mpr ⟨rfl, decide_eq_true h⟩
    rw [formatInt, parseInt64_of_digits fun c => isDigit_of_mem_formatUint, parseDigits_formatUint,
      hf, Option.map_some]
  | negSucc n =>
    have h : n + 1 ≤ 2 ^ 63 := by omega
    have hf : (some (n + 1)).filter (· ≤ 2 ^ 63) = some (n + 1) :=
      Option.filter_eq_some_iff.mpr ⟨rfl, decide_eq_true h⟩
    rw [formatInt, parseInt64, parseDigits_formatUint, hf]
    rfl

end Seaplane.Lib
