import Mathlib.Logic.Function.Basic
import Seaplane.Lib.GoJson

/-!
Decoding JSON into values that are already there.

A Go type is given by its zero value and by what decoding a JSON value into an existing one gives.
Structs are decoded field by field in place, pointers into what they point at, the elements of a
slice into the elements its memory holds; a map keeps the keys that are not mentioned. Several
values may be decoded into one field, since the members of an object may repeat, so each type also
says what of an old value outlives a sequence of decodings: `keeps`. The result does not depend on
the old value exactly when nothing is kept.
-/

namespace Seaplane.Lib

/-- The values are decoded one after the other, each into the result of the one before. -/
def decodeAll {α : Type} (decode : Json → α → Option α) (js : List Json) (v : α) : Option α :=
  js.foldlM (fun v j => decode j v) v

structure GoType (α : Type) where
  zero : α
  decode : Json → α → Option α
  /-- The two values look the same. -/
  same : α → α → Prop
  /-- Something of the old value is left after the values were decoded into it. -/
  keeps : List Json → α → Prop
  refl : ∀ v, same v v
  /-- Whether a value can be decoded does not depend on the old one. -/
  total : ∀ (j : Json) (v v' : α), (decode j v).isSome → (decode j v').isSome
  /-- The result looks like that of decoding into the zero value unless something is left. -/
  decodes : ∀ {js : List Json} {v w w' : α}, decodeAll decode js zero = some w →
    decodeAll decode js v = some w' → (same w' w ↔ ¬keeps js v)

namespace GoType

variable {α : Type} {decode : Json → α → Option α}

@[simp] lemma decodeAll_nil (decode : Json → α → Option α) (v : α) :
    decodeAll decode [] v = some v := rfl

lemma decodeAll_cons (decode : Json → α → Option α) (j : Json) (js : List Json) (v : α) :
    decodeAll decode (j :: js) v = (decode j v).bind (decodeAll decode js) := rfl

variable {j : Json} {js : List Json} {w : α} {ms : List (String × Json)}

lemma decodeAll_cons_some {v : α} (h : decodeAll decode (j :: js) v = some w) :
    ∃ u, decode j v = some u ∧ decodeAll decode js u = some w :=
  Option.bind_eq_some_iff.mp h

lemma decodeAll_singleton (decode : Json → α → Option α) (j : Json) (v : α) :
    decodeAll decode [j] v = decode j v := by
  rw [decodeAll_cons]
  cases decode j v <;> rfl

lemma decodeAll_reset (htotal : ∀ (j : Json) (v v' : α), (decode j v).isSome → (decode j v').isSome)
    (hreset : ∀ v v', decode j v = decode j v') (hj : j ∈ js) (v v' : α) :
    decodeAll decode js v = decodeAll decode js v' := by
  induction js generalizing v v' with
  | nil => cases hj
  | cons i js ih =>
    rw [decodeAll_cons, decodeAll_cons]
    rcases List.mem_cons.mp hj with rfl | hj
    · rw [hreset v v']
    · cases hv : decode i v with
      | none =>
        cases hv' : decode i v' with
        | none => rfl
        | some u' =>
          have hsome := htotal i v' v (Option.isSome_of_eq_some hv')
          rw [hv] at hsome
          cases hsome
      | some u =>
        have hsome := htotal i v v' (Option.isSome_of_eq_some hv)
        obtain ⟨u', hu'⟩ := Option.isSome_iff_exists.mp hsome
        rw [hu']
        exact ih hj u u'

lemma decodes_one (t : GoType α) {v w' : α} (h : t.decode j t.zero = some w)
    (h' : t.decode j v = some w') : t.same w' w ↔ ¬t.keeps [j] v := by
  exact t.decodes ((decodeAll_singleton t.decode j t.zero).trans h)
    ((decodeAll_singleton t.decode j v).trans h')

/-! ### Scalars -/

section Scalar

/-- What null leaves alone and anything else replaces. -/
def decodeScalar (read : Json → Option α) (j : Json) (v : α) : Option α :=
  if j = .null then some v else read j

lemma decodeScalar_all {read : Json → Option α} {a v w' : α}
    (h : decodeAll (decodeScalar read) js a = some w)
    (h' : decodeAll (decodeScalar read) js v = some w') :
    w' = w ↔ ((∀ j ∈ js, j = .null) → v = a) := by
  induction js generalizing a v with
  | nil =>
    cases h
    cases h'
    simp
  | cons j js ih =>
    obtain ⟨u, hu, h⟩ := decodeAll_cons_some h
    obtain ⟨u', hu', h'⟩ := decodeAll_cons_some h'
    unfold decodeScalar at hu hu'
    by_cases hj : j = .null
    · rw [if_pos hj] at hu hu'
      cases hu
      cases hu'
      rw [ih h h', List.forall_mem_cons]
      simp [hj]
    · rw [if_neg hj] at hu hu'
      rw [hu] at hu'
      cases hu'
      rw [h] at h'
      cases h'
      simp [hj]

def scalar (zero : α) (read : Json → Option α) : GoType α where
  zero := zero
  decode := decodeScalar read
  same v w := v = w
  keeps js v := (∀ j ∈ js, j = .null) ∧ v ≠ zero
  refl _ := rfl
  total := by
    intro j v v' h
    unfold decodeScalar at h ⊢
    split
    · rfl
    · next hj => rwa [if_neg hj] at h
  decodes := by
    intro js v w w' h h'
    rw [decodeScalar_all h h']
    simp

def bool : GoType Bool := scalar false fun
  | .bool b => some b
  | _ => none

def string : GoType String := scalar "" fun
  | .str s => some s
  | _ => none

/-- An int64. -/
def int64 : GoType ℤ := scalar 0 fun
  | .num q => if q.den = 1 ∧ -2 ^ 63 ≤ q.num ∧ q.num < 2 ^ 63 then some q.num else none
  | .negZero => some 0
  | _ => none

/-- A type with a decoder of its own, which replaces the value. -/
def whole (zero : α) (read : Json → Option α) : GoType α where
  zero := zero
  decode j _ := read j
  same v w := v = w
  keeps js v := js = [] ∧ v ≠ zero
  refl _ := rfl
  total _ _ _ h := h
  decodes := by
    intro js v w w' h h'
    cases js with
    | nil =>
      cases h
      cases h'
      simp
    | cons j js =>
      rw [decodeAll_cons] at h h'
      rw [h] at h'
      cases h'
      simp

end Scalar

/-! ### Pointers -/

section Pointer

variable (t : GoType α)

/-- Null makes the pointer nil, anything else is decoded into what it points at. -/
def decodePtr (j : Json) (v : Option α) : Option (Option α) :=
  if j = .null then some none else (t.decode j (v.getD t.zero)).map some

lemma decodePtr_total (j : Json) (v v' : Option α)
    (h : (t.decodePtr j v).isSome) : (t.decodePtr j v').isSome := by
  unfold decodePtr at h ⊢
  split
  · rfl
  · next hj =>
    rw [if_neg hj, Option.isSome_map] at h
    rw [Option.isSome_map]
    exact t.total _ _ _ h

variable {t}

lemma decodePtr_all {v w : Option α} (hn : ∀ j ∈ js, j ≠ .null) (hne : js ≠ [])
    (h : decodeAll t.decodePtr js v = some w) :
    ∃ a, w = some a ∧ decodeAll t.decode js (v.getD t.zero) = some a := by
  induction js generalizing v with
  | nil => exact absurd rfl hne
  | cons j js ih =>
    obtain ⟨u, hu, h⟩ := decodeAll_cons_some h
    rw [decodePtr, if_neg (hn j List.mem_cons_self)] at hu
    obtain ⟨b, hb, rfl⟩ := Option.map_eq_some_iff.mp hu
    cases js with
    | nil =>
      cases h
      exact ⟨b, rfl, (decodeAll_singleton _ _ _).trans hb⟩
    | cons i js =>
      obtain ⟨a, rfl, ha⟩ := ih (fun i hi => hn i (List.mem_cons_of_mem j hi)) (by simp) h
      exact ⟨a, rfl, by rw [decodeAll_cons, hb]; exact ha⟩

variable (t)

def ptr : GoType (Option α) where
  zero := none
  decode := t.decodePtr
  same := Option.Rel t.same
  keeps js v := (∀ j ∈ js, j ≠ .null) ∧ ∃ a, v = some a ∧ (js = [] ∨ t.keeps js a)
  refl := by
    intro v
    cases v with
    | none => exact .none
    | some a => exact .some (t.refl a)
  total := t.decodePtr_total
  decodes := by
    intro js v w w' h h'
    have hrefl : Option.Rel t.same w w := by
      cases w with
      | none => exact .none
      | some a => exact .some (t.refl a)
    by_cases hn : ∀ j ∈ js, j ≠ .null
    · by_cases hjs : js = []
      · subst hjs
        cases h
        cases h'
        cases v with
        | none => simp
        | some a =>
          refine iff_of_false (fun hs => by cases hs) ?_
          simp
      · obtain ⟨a, rfl, ha⟩ := decodePtr_all hn hjs h
        obtain ⟨a', rfl, ha'⟩ := decodePtr_all hn hjs h'
        rw [Option.rel_some_some]
        cases v with
        | none =>
          rw [ha] at ha'
          cases ha'
          simpa using t.refl a
        | some b =>
          rw [t.decodes ha ha']
          refine not_congr ⟨fun hk => ⟨hn, b, rfl, .inr hk⟩, ?_⟩
          rintro ⟨-, c, hc, hk⟩
          cases hc
          exact hk.resolve_left hjs
    · -- a null in between makes the old pointer irrelevant
      push Not at hn
      obtain ⟨j, hj, rfl⟩ := hn
      have hreset : ∀ v v', t.decodePtr .null v = t.decodePtr .null v' := fun _ _ => rfl
      rw [decodeAll_reset t.decodePtr_total hreset hj v none, h] at h'
      cases h'
      refine iff_of_true hrefl fun hk => hk.1 _ hj rfl

end Pointer

/-! ### Slices -/

/-- A slice: its elements, nil if none, and what its memory holds after them. -/
structure Slice (α : Type) where
  elems : Option (List α)
  spare : List α

def Slice.memory (v : Slice α) : List α := v.elems.getD [] ++ v.spare

/-- What is decoded into the element of an index. -/
def elementsAt (i : ℕ) (js : List Json) : List Json := js.flatMap fun
  | .arr xs => xs[i]?.toList
  | _ => []

def lastLength (js : List Json) : ℕ :=
  match js.getLast? with
  | some (.arr xs) => xs.length
  | _ => 0

/-- Null and the empty array come with memory of their own. -/
def Restarts : Json → Prop
  | .null | .arr [] => True
  | _ => False

section Slice

variable (t : GoType α)

/-- An element of the memory of a slice; beyond its end it is new. -/
def cell (v : Slice α) (i : ℕ) : α := v.memory[i]?.getD t.zero

/-- The elements of an array, each decoded into what is at its place. -/
def decodeElems : List Json → List α → Option (List α)
  | [], _ => some []
  | x :: xs, bs => do
    let y ← t.decode x (bs.head?.getD t.zero)
    let ys ← decodeElems xs bs.tail
    return y :: ys

def decodeSlice : Json → Slice α → Option (Slice α)
  | .null, _ => some ⟨none, []⟩
  | .arr [], _ => some ⟨some [], []⟩
  | .arr (x :: xs), v => (t.decodeElems (x :: xs) v.memory).map fun ys =>
      ⟨some ys, v.memory.drop (xs.length + 1)⟩
  | _, _ => none

lemma decodeElems_total {xs : List Json} {bs : List α} (bs' : List α)
    (h : (t.decodeElems xs bs).isSome) : (t.decodeElems xs bs').isSome := by
  induction xs generalizing bs bs' with
  | nil => rfl
  | cons x xs ih =>
    obtain ⟨zs, hzs⟩ := Option.isSome_iff_exists.mp h
    obtain ⟨y, hy, hrest⟩ := Option.bind_eq_some_iff.mp hzs
    obtain ⟨ys, hys, -⟩ := Option.bind_eq_some_iff.mp hrest
    obtain ⟨y', hy'⟩ := Option.isSome_iff_exists.mp
      (t.total x _ (bs'.head?.getD t.zero) (Option.isSome_of_eq_some hy))
    obtain ⟨ys', hys'⟩ := Option.isSome_iff_exists.mp
      (ih bs'.tail (Option.isSome_of_eq_some hys))
    rw [decodeElems, hy', hys']
    rfl

lemma decodeSlice_total (j : Json) (v v' : Slice α) (h : (t.decodeSlice j v).isSome) :
    (t.decodeSlice j v').isSome := by
  cases j with
  | arr xs =>
    cases xs with
    | nil => rfl
    | cons x xs =>
      rw [decodeSlice, Option.isSome_map] at h ⊢
      exact t.decodeElems_total _ h
  | null => rfl
  | bool | num | negZero | str | obj => cases h

variable {t}

lemma decodeElems_get {xs : List Json} {bs ys : List α} (h : t.decodeElems xs bs = some ys) :
    ys.length = xs.length ∧ ∀ (i : ℕ) (x : Json), xs[i]? = some x →
      t.decode x (bs[i]?.getD t.zero) = some (ys[i]?.getD t.zero) := by
  induction xs generalizing bs ys with
  | nil =>
    cases h
    simp
  | cons x xs ih =>
    obtain ⟨y, hy, hrest⟩ := Option.bind_eq_some_iff.mp h
    obtain ⟨zs, hzs, heq⟩ := Option.bind_eq_some_iff.mp hrest
    cases heq
    obtain ⟨hlen, hget⟩ := ih hzs
    refine ⟨by simp [hlen], fun i z hz => ?_⟩
    cases i with
    | zero =>
      cases hz
      rw [List.head?_eq_getElem?] at hy
      exact hy
    | succ i =>
      have hstep := hget i z hz
      rw [List.getElem?_tail] at hstep
      exact hstep

variable {v : Slice α}

lemma decodeSlice_cell {w : Slice α} (hj : ¬Restarts j) (h : t.decodeSlice j v = some w) :
    (∃ ys, w.elems = some ys ∧ ys.length = lastLength [j]) ∧
      ∀ i, decodeAll t.decode (elementsAt i [j]) (t.cell v i) = some (t.cell w i) := by
  cases j with
  | null => exact absurd trivial hj
  | bool | num | negZero | str | obj => cases h
  | arr xs =>
    cases xs with
    | nil => exact absurd trivial hj
    | cons x xs =>
      obtain ⟨ys, hys, rfl⟩ := Option.map_eq_some_iff.mp h
      obtain ⟨hlen, hget⟩ := decodeElems_get hys
      rw [List.length_cons] at hlen
      refine ⟨⟨ys, rfl, hlen⟩, fun i => ?_⟩
      have hmem : (⟨some ys, v.memory.drop (xs.length + 1)⟩ : Slice α).memory =
          ys ++ v.memory.drop (xs.length + 1) := rfl
      simp only [elementsAt, List.flatMap_cons, List.flatMap_nil, List.append_nil, cell, hmem]
      by_cases hi : i < xs.length + 1
      · have hx : (x :: xs)[i]? = some (x :: xs)[i] := List.getElem?_eq_getElem hi
        rw [hx, Option.toList_some, decodeAll_singleton, List.getElem?_append_left (by omega)]
        exact hget i _ hx
      · have hx : (x :: xs)[i]? = none := List.getElem?_eq_none (by simpa using hi)
        rw [hx, Option.toList_none, decodeAll_nil, List.getElem?_append_right (by omega),
          List.getElem?_drop, hlen]
        congr 3
        omega

lemma decodeSlice_all {w : Slice α} (hn : ∀ j ∈ js, ¬Restarts j)
    (h : decodeAll t.decodeSlice js v = some w) :
    (js ≠ [] → ∃ ys, w.elems = some ys ∧ ys.length = lastLength js) ∧
      ∀ i, decodeAll t.decode (elementsAt i js) (t.cell v i) = some (t.cell w i) := by
  induction js generalizing v with
  | nil =>
    cases h
    exact ⟨fun hne => absurd rfl hne, fun _ => rfl⟩
  | cons j js ih =>
    obtain ⟨u, hu, h⟩ := decodeAll_cons_some h
    obtain ⟨hlen, hcell⟩ := decodeSlice_cell (hn j List.mem_cons_self) hu
    obtain ⟨hlens, hcells⟩ := ih (fun i hi => hn i (List.mem_cons_of_mem j hi)) h
    refine ⟨fun _ => ?_, fun i => ?_⟩
    · cases js with
      | nil =>
        cases h
        exact hlen
      | cons i js =>
        obtain ⟨ys, hys, hl⟩ := hlens (by simp)
        exact ⟨ys, hys, by rw [hl, lastLength, lastLength, List.getLast?_cons_cons]⟩
    · have happend : elementsAt i (j :: js) = elementsAt i [j] ++ elementsAt i js := by
        simp [elementsAt]
      rw [happend, decodeAll, List.foldlM_append]
      have hfirst := hcell i
      rw [decodeAll] at hfirst
      rw [hfirst]
      exact hcells i

lemma cell_of_elems {ys : List α} (h : v.elems = some ys) {i : ℕ} (hi : i < ys.length) :
    t.cell v i = ys[i] := by
  simp only [cell, Slice.memory, h, Option.getD_some, List.getElem?_append_left hi,
    List.getElem?_eq_getElem hi]

lemma sameElems_refl (v : Option (List α)) : Option.Rel (List.Forall₂ t.same) v v := by
  cases v with
  | none => exact .none
  | some xs => exact .some (List.forall₂_same.mpr fun x _ => t.refl x)

lemma decodeSlice_same {w w' : Slice α} (hn : ∀ j ∈ js, ¬Restarts j) (hjs : js ≠ [])
    (h : decodeAll t.decodeSlice js ⟨none, []⟩ = some w)
    (h' : decodeAll t.decodeSlice js v = some w') :
    Option.Rel (List.Forall₂ t.same) w'.elems w.elems ↔
      ∀ i < lastLength js, ¬t.keeps (elementsAt i js) (t.cell v i) := by
  obtain ⟨hlen, hcell⟩ := decodeSlice_all hn h
  obtain ⟨hlen', hcell'⟩ := decodeSlice_all hn h'
  obtain ⟨ys, hys, hl⟩ := hlen hjs
  obtain ⟨ys', hys', hl'⟩ := hlen' hjs
  have hat : ∀ i (hi : i < ys.length) (hi' : i < ys'.length),
      t.same ys'[i] ys[i] ↔ ¬t.keeps (elementsAt i js) (t.cell v i) := by
    intro i hi hi'
    have hz : t.cell ⟨none, []⟩ i = t.zero := by simp [cell, Slice.memory]
    rw [← cell_of_elems hys hi, ← cell_of_elems hys' hi']
    exact t.decodes (hz ▸ hcell i) (hcell' i)
  rw [hys, hys', Option.rel_some_some, List.forall₂_iff_get]
  simp only [List.get_eq_getElem]
  constructor
  · rintro ⟨-, hsame⟩ i hi
    exact (hat i (hl ▸ hi) (hl' ▸ hi)).mp (hsame i (hl' ▸ hi) (hl ▸ hi))
  · intro hnot
    refine ⟨hl'.trans hl.symm, fun i hi' hi => ?_⟩
    exact (hat i hi hi').mpr (hnot i (hl ▸ hi))

variable (t)

def slice : GoType (Slice α) where
  zero := ⟨none, []⟩
  decode := t.decodeSlice
  same v w := Option.Rel (List.Forall₂ t.same) v.elems w.elems
  keeps js v :=
    if js = [] then v.elems ≠ none
    else (∀ j ∈ js, ¬Restarts j) ∧ ∃ i < lastLength js, t.keeps (elementsAt i js) (t.cell v i)
  refl v := sameElems_refl v.elems
  total := t.decodeSlice_total
  decodes := by
    intro js v w w' h h'
    by_cases hjs : js = []
    · subst hjs
      cases h
      cases h'
      rw [if_pos rfl, not_not]
      cases v.elems with
      | none => exact iff_of_true .none rfl
      | some xs => exact iff_of_false (fun hs => by cases hs) (by simp)
    · rw [if_neg hjs]
      by_cases hn : ∀ j ∈ js, ¬Restarts j
      · rw [decodeSlice_same hn hjs h h']
        constructor
        · rintro hnot ⟨-, i, hi, hk⟩
          exact hnot i hi hk
        · intro hnot i hi hk
          exact hnot ⟨hn, i, hi, hk⟩
      · push Not at hn
        obtain ⟨j, hj, hr⟩ := hn
        have hreset : ∀ v v', t.decodeSlice j v = t.decodeSlice j v' := by
          intro v v'
          cases j with
          | null => rfl
          | arr xs =>
            cases xs with
            | nil => rfl
            | cons x xs => exact hr.elim
          | bool | num | negZero | str | obj => exact hr.elim
        rw [decodeAll_reset t.decodeSlice_total hreset hj v ⟨none, []⟩, h] at h'
        cases h'
        exact iff_of_true (sameElems_refl w.elems) fun hk => hk.1 j hj hr

end Slice

/-! ### Maps -/

def membersOf : Json → List (String × Json)
  | .obj ms => ms
  | _ => []

/-- Some of the values has a member of this key. -/
def Mentioned (k : String) (js : List Json) : Prop := ∃ e ∈ js.flatMap membersOf, e.1 = k

section Map

variable (t : GoType α)

/-- A member of an object: its value is decoded anew and put under its key. -/
def putMember (m : String → Option α) (e : String × Json) : Option (String → Option α) :=
  (t.decode e.2 t.zero).map fun a => Function.update m e.1 (some a)

def decodeMap : Json → Option (String → Option α) → Option (Option (String → Option α))
  | .null, _ => some none
  | .obj ms, v => (ms.foldlM t.putMember (v.getD fun _ => none)).map some
  | _, _ => none

variable {t}

lemma putMembers_total {m : String → Option α} (m' : String → Option α)
    (h : (ms.foldlM t.putMember m).isSome) : (ms.foldlM t.putMember m').isSome := by
  induction ms generalizing m m' with
  | nil => rfl
  | cons e ms ih =>
    rw [List.foldlM_cons] at h ⊢
    obtain ⟨w, hw⟩ := Option.isSome_iff_exists.mp h
    obtain ⟨u, hu, hrest⟩ := Option.bind_eq_some_iff.mp hw
    obtain ⟨a, ha, -⟩ := Option.map_eq_some_iff.mp hu
    have hput : t.putMember m' e = some (Function.update m' e.1 (some a)) := by
      rw [putMember, ha]
      rfl
    rw [hput]
    exact ih _ (Option.isSome_of_eq_some hrest)

lemma putMembers_get {m m' w w' : String → Option α} (h : ms.foldlM t.putMember m = some w)
    (h' : ms.foldlM t.putMember m' = some w') (k : String) :
    ((∃ e ∈ ms, e.1 = k) → w k = w' k ∧ (w k).isSome) ∧
      ((¬∃ e ∈ ms, e.1 = k) → w k = m k ∧ w' k = m' k) := by
  induction ms generalizing m m' with
  | nil =>
    cases h
    cases h'
    simp
  | cons e ms ih =>
    rw [List.foldlM_cons] at h h'
    obtain ⟨u, hu, h⟩ := Option.bind_eq_some_iff.mp h
    obtain ⟨u', hu', h'⟩ := Option.bind_eq_some_iff.mp h'
    obtain ⟨a, ha, rfl⟩ := Option.map_eq_some_iff.mp hu
    obtain ⟨a', ha', rfl⟩ := Option.map_eq_some_iff.mp hu'
    rw [ha] at ha'
    cases ha'
    obtain ⟨hyes, hno⟩ := ih h h'
    by_cases hlater : ∃ e ∈ ms, e.1 = k
    · refine ⟨fun _ => hyes hlater, fun hn => absurd ?_ hn⟩
      obtain ⟨e', he', hk⟩ := hlater
      exact ⟨e', List.mem_cons_of_mem e he', hk⟩
    · obtain ⟨hw, hw'⟩ := hno hlater
      by_cases hk : e.1 = k
      · subst hk
        refine ⟨fun _ => ?_, fun hn => absurd ⟨e, List.mem_cons_self, rfl⟩ hn⟩
        rw [hw, hw', Function.update_self, Function.update_self]
        exact ⟨rfl, rfl⟩
      · refine ⟨?_, fun _ => ?_⟩
        · rintro ⟨e', he', rfl⟩
          rcases List.mem_cons.mp he' with rfl | he'
          · exact absurd rfl hk
          · exact absurd ⟨e', he', rfl⟩ hlater
        · rw [hw, hw', Function.update_of_ne (Ne.symm hk), Function.update_of_ne (Ne.symm hk)]
          exact ⟨rfl, rfl⟩

variable (t) in
lemma decodeMap_total (j : Json) (v v' : Option (String → Option α))
    (h : (t.decodeMap j v).isSome) : (t.decodeMap j v').isSome := by
  cases j with
  | obj ms =>
    rw [decodeMap, Option.isSome_map] at h ⊢
    exact putMembers_total _ h
  | null => rfl
  | bool | num | negZero | str | arr => cases h

lemma decodeMap_all {v w : Option (String → Option α)} (hn : .null ∉ js) (hne : js ≠ [])
    (h : decodeAll t.decodeMap js v = some w) :
    ∃ m, w = some m ∧
      (js.flatMap membersOf).foldlM t.putMember (v.getD fun _ => none) = some m := by
  induction js generalizing v with
  | nil => exact absurd rfl hne
  | cons j js ih =>
    obtain ⟨u, hu, h⟩ := decodeAll_cons_some h
    cases j with
    | null => exact absurd List.mem_cons_self hn
    | bool | num | negZero | str | arr => cases hu
    | obj ms =>
      obtain ⟨m1, hm1, rfl⟩ := Option.map_eq_some_iff.mp hu
      rw [List.flatMap_cons, List.foldlM_append, membersOf, hm1]
      cases js with
      | nil =>
        cases h
        exact ⟨m1, rfl, rfl⟩
      | cons i js => exact ih (fun hm => hn (List.mem_cons_of_mem _ hm)) (by simp) h

lemma sameMap_refl (v : Option (String → Option α)) :
    Option.Rel (fun m m' => ∀ k, Option.Rel t.same (m k) (m' k)) v v := by
  cases v with
  | none => exact .none
  | some m =>
    refine .some fun k => ?_
    cases m k with
    | none => exact .none
    | some a => exact .some (t.refl a)

lemma decodeMap_same {v w w' : Option (String → Option α)} (hn : .null ∉ js) (hne : js ≠ [])
    (h : decodeAll t.decodeMap js none = some w) (h' : decodeAll t.decodeMap js v = some w') :
    Option.Rel (fun m m' => ∀ k, Option.Rel t.same (m k) (m' k)) w' w ↔
      ¬∃ m k, v = some m ∧ m k ≠ none ∧ ¬Mentioned k js := by
  obtain ⟨m, rfl, hm⟩ := decodeMap_all hn hne h
  obtain ⟨m', rfl, hm'⟩ := decodeMap_all hn hne h'
  rw [Option.rel_some_some]
  constructor
  · rintro hsame ⟨m0, k, rfl, hk, hnot⟩
    obtain ⟨hz, hv⟩ := (putMembers_get hm hm' k).2 hnot
    have hrel := hsame k
    rw [hz, hv] at hrel
    cases hk' : m0 k with
    | none => exact hk hk'
    | some a =>
      rw [Option.getD_some, hk'] at hrel
      cases hrel
  · intro hnot k
    by_cases hmen : Mentioned k js
    · obtain ⟨heq, -⟩ := (putMembers_get hm hm' k).1 hmen
      rw [← heq]
      cases m k with
      | none => exact .none
      | some a => exact .some (t.refl a)
    · obtain ⟨hz, hv⟩ := (putMembers_get hm hm' k).2 hmen
      rw [hz, hv]
      cases v with
      | none => exact .none
      | some m0 =>
        have hnone : m0 k = none := by
          by_contra hk
          exact hnot ⟨m0, k, rfl, hk, hmen⟩
        rw [Option.getD_some, hnone]
        exact .none

variable (t)

def map : GoType (Option (String → Option α)) where
  zero := none
  decode := t.decodeMap
  same := Option.Rel fun m m' => ∀ k, Option.Rel t.same (m k) (m' k)
  keeps js v :=
    if js = [] then v ≠ none
    else .null ∉ js ∧ ∃ m k, v = some m ∧ m k ≠ none ∧ ¬Mentioned k js
  refl := sameMap_refl
  total := t.decodeMap_total
  decodes := by
    intro js v w w' h h'
    by_cases hjs : js = []
    · subst hjs
      cases h
      cases h'
      rw [if_pos rfl, not_not]
      cases v with
      | none => exact iff_of_true .none rfl
      | some m => exact iff_of_false (fun hs => by cases hs) (by simp)
    · rw [if_neg hjs]
      by_cases hn : .null ∈ js
      · have hreset : ∀ v v', t.decodeMap .null v = t.decodeMap .null v' := fun _ _ => rfl
        rw [decodeAll_reset t.decodeMap_total hreset hn v none, h] at h'
        cases h'
        exact iff_of_true (sameMap_refl w) fun hk => hk.1 hn
      · rw [decodeMap_same hn hjs h h']
        exact not_congr ⟨fun hk => ⟨hn, hk⟩, fun hk => hk.2⟩

end Map

/-! ### Structs -/

def valuesOf (ms : List (String × Json)) (name : String) : List Json :=
  (ms.filter (·.1 = name)).map (·.2)

/-- The fields of a struct, each with the name its members have. -/
structure Fields (ρ : Type) where
  names : List String
  zero : ρ
  /-- A value is decoded into the field of a name. -/
  decode : ρ → String × Json → Option ρ
  same : ρ → ρ → Prop
  /-- Something is left after the values of each name were decoded into its field. -/
  keeps : (String → List Json) → ρ → Prop
  refl : ∀ v, same v v
  total : ∀ (e : String × Json) (v v' : ρ), (decode v e).isSome → (decode v' e).isSome
  decodes : ∀ {ms : List (String × Json)} {v w w' : ρ}, ms.foldlM decode zero = some w →
    ms.foldlM decode v = some w' → (same w' w ↔ ¬keeps (valuesOf ms) v)

namespace Fields

def nil : Fields Unit where
  names := []
  zero := ()
  decode v _ := some v
  same _ _ := True
  keeps _ _ := False
  refl _ := trivial
  total _ _ _ _ := rfl
  decodes _ _ := by simp

variable {ρ : Type} (name : String) (t : GoType α) (rest : Fields ρ)

/-- A value for the first field, or for one of the rest. -/
def decodeCons (v : α × ρ) (e : String × Json) : Option (α × ρ) :=
  if e.1 = name then (t.decode e.2 v.1).map (·, v.2) else (rest.decode v.2 e).map (v.1, ·)

variable {name t rest}

lemma decodeCons_all {v w : α × ρ} (h : ms.foldlM (decodeCons name t rest) v = some w) :
    decodeAll t.decode (valuesOf ms name) v.1 = some w.1 ∧
      (ms.filter (·.1 ≠ name)).foldlM rest.decode v.2 = some w.2 := by
  induction ms generalizing v with
  | nil =>
    cases h
    exact ⟨rfl, rfl⟩
  | cons e ms ih =>
    rw [List.foldlM_cons] at h
    obtain ⟨u, hu, h⟩ := Option.bind_eq_some_iff.mp h
    obtain ⟨hfirst, hrest⟩ := ih h
    unfold decodeCons at hu
    by_cases he : e.1 = name
    · rw [if_pos he] at hu
      obtain ⟨a, ha, rfl⟩ := Option.map_eq_some_iff.mp hu
      refine ⟨?_, ?_⟩
      · rw [valuesOf, List.filter_cons_of_pos (by simpa using he), List.map_cons, decodeAll_cons,
          ha]
        exact hfirst
      · rw [List.filter_cons_of_neg (by simpa using he)]
        exact hrest
    · rw [if_neg he] at hu
      obtain ⟨r, hr, rfl⟩ := Option.map_eq_some_iff.mp hu
      refine ⟨?_, ?_⟩
      · rw [valuesOf, List.filter_cons_of_neg (by simpa using he)]
        exact hfirst
      · rw [List.filter_cons_of_pos (by simpa using he), List.foldlM_cons, hr]
        exact hrest

lemma valuesOf_filter (ms : List (String × Json)) (name : String) :
    valuesOf (ms.filter (·.1 ≠ name)) = fun n => if n = name then [] else valuesOf ms n := by
  funext n
  unfold valuesOf
  rw [List.filter_filter]
  split
  · next hn =>
    subst hn
    simp
  · next hn =>
    congr 1
    refine List.filter_congr fun e _ => ?_
    by_cases he : e.1 = n
    · simp [he, hn]
    · simp [he]

variable (name t rest)

def cons : Fields (α × ρ) where
  names := name :: rest.names
  zero := (t.zero, rest.zero)
  decode := decodeCons name t rest
  same v w := t.same v.1 w.1 ∧ rest.same v.2 w.2
  keeps js v := t.keeps (js name) v.1 ∨ rest.keeps (fun n => if n = name then [] else js n) v.2
  refl v := ⟨t.refl v.1, rest.refl v.2⟩
  total := by
    intro e v v' h
    unfold decodeCons at h ⊢
    split
    · next he =>
      rw [if_pos he, Option.isSome_map] at h
      rw [Option.isSome_map]
      exact t.total _ _ _ h
    · next he =>
      rw [if_neg he, Option.isSome_map] at h
      rw [Option.isSome_map]
      exact rest.total _ _ _ h
  decodes := by
    intro ms v w w' h h'
    obtain ⟨ha, hr⟩ := decodeCons_all h
    obtain ⟨ha', hr'⟩ := decodeCons_all h'
    rw [t.decodes ha ha', rest.decodes hr hr', valuesOf_filter, not_or]

end Fields

section Struct

variable {ρ : Type} (F : Fields ρ)

/-- The field a member is for: the one of its very name, or else of the same letters. -/
def Fields.find (key : String) : Option String :=
  if key ∈ F.names then some key else F.names.find? (GoJson.sameName key)

/-- The members that are for a field, under its name. -/
def Fields.resolve (ms : List (String × Json)) : List (String × Json) :=
  ms.filterMap fun e => (F.find e.1).map (·, e.2)

def decodeStruct : Json → ρ → Option ρ
  | .null, v => some v
  | .obj ms, v => (F.resolve ms).foldlM F.decode v
  | _, _ => none

variable {F}

lemma decodeFields_total {v : ρ} (v' : ρ) (h : (ms.foldlM F.decode v).isSome) :
    (ms.foldlM F.decode v').isSome := by
  induction ms generalizing v v' with
  | nil => rfl
  | cons e ms ih =>
    rw [List.foldlM_cons] at h ⊢
    obtain ⟨w, hw⟩ := Option.isSome_iff_exists.mp h
    obtain ⟨u, hu, hrest⟩ := Option.bind_eq_some_iff.mp hw
    obtain ⟨u', hu'⟩ := Option.isSome_iff_exists.mp (F.total e v v' (Option.isSome_of_eq_some hu))
    rw [hu']
    exact ih u' (Option.isSome_of_eq_some hrest)

lemma decodeStruct_all {v w : ρ} (h : decodeAll (decodeStruct F) js v = some w) :
    (js.flatMap fun j => F.resolve (membersOf j)).foldlM F.decode v = some w := by
  induction js generalizing v with
  | nil => exact h
  | cons j js ih =>
    obtain ⟨u, hu, hrest⟩ := decodeAll_cons_some h
    rw [List.flatMap_cons, List.foldlM_append]
    cases j with
    | bool | num | negZero | str | arr => cases hu
    | null =>
      cases hu
      exact ih hrest
    | obj ms =>
      have hms : (F.resolve (membersOf (.obj ms))).foldlM F.decode v = some u := hu
      rw [hms]
      exact ih hrest

variable (F)

def struct : GoType ρ where
  zero := F.zero
  decode := decodeStruct F
  same := F.same
  keeps js v := F.keeps (valuesOf (js.flatMap fun j => F.resolve (membersOf j))) v
  refl := F.refl
  total := by
    intro j v v' h
    cases j with
    | null => rfl
    | obj ms => exact decodeFields_total v' h
    | bool | num | negZero | str | arr => cases h
  decodes h h' := F.decodes (decodeStruct_all h) (decodeStruct_all h')

end Struct

end GoType

end Seaplane.Lib
