import Mathlib.Data.List.Pairwise
import Mathlib.Data.String.Basic
import Seaplane.Lib.Json

/-!
Documents: JSON values whose objects are maps.

The members of an object are kept in the order of their keys, so documents that hold the same are
equal. A document is looked into along a path of keys; what is there is an object, which is looked
into further, or anything else, which is a leaf. A document is determined by what kind of value is
at each path.
-/

namespace Seaplane.Lib

/-! ### Maps as sorted lists -/

namespace SortedMap

variable {κ ν : Type} [LinearOrder κ]

def find (k : κ) : List (κ × ν) → Option ν
  | [] => none
  | (l, v) :: ms => if l = k then some v else find k ms

def put (k : κ) (v : ν) : List (κ × ν) → List (κ × ν)
  | [] => [(k, v)]
  | (l, w) :: ms =>
    if k < l then (k, v) :: (l, w) :: ms
    else if k = l then (k, v) :: ms
    else (l, w) :: put k v ms

def drop (k : κ) (ms : List (κ × ν)) : List (κ × ν) := ms.filter fun m => m.1 ≠ k

def Sorted (ms : List (κ × ν)) : Prop := ms.Pairwise fun m n => m.1 < n.1

instance (ms : List (κ × ν)) : Decidable (Sorted ms) :=
  inferInstanceAs (Decidable (ms.Pairwise _))

lemma find_put (k l : κ) (v : ν) (ms : List (κ × ν)) :
    find l (put k v ms) = if l = k then some v else find l ms := by
  induction ms with
  | nil => simp [put, find, eq_comm]
  | cons m ms ih =>
    obtain ⟨k', w⟩ := m
    rw [put]
    by_cases hlt : k < k'
    · simp [hlt, find, eq_comm]
    · by_cases heq : k = k'
      · subst heq
        by_cases hl : l = k
        · simp [find, hl]
        · simp [find, hl, Ne.symm hl]
      · simp only [if_neg hlt, if_neg heq, find, ih]
        by_cases hl : l = k
        · simp [hl, Ne.symm heq]
        · simp [hl]

lemma find_drop (k l : κ) (ms : List (κ × ν)) :
    find l (drop k ms) = if l = k then none else find l ms := by
  induction ms with
  | nil => simp [drop, find]
  | cons m ms ih =>
    obtain ⟨k', w⟩ := m
    have hdrop : drop k ((k', w) :: ms) = if k' = k then drop k ms else (k', w) :: drop k ms := by
      by_cases hk : k' = k <;> simp [drop, hk]
    rw [hdrop]
    by_cases hk : k' = k
    · rw [if_pos hk, ih, find, hk]
      by_cases hl : l = k
      · simp [hl]
      · simp [hl, Ne.symm hl]
    · rw [if_neg hk, find, find, ih]
      by_cases hl : l = k
      · simp [hl, hk]
      · simp [hl]

lemma mem_of_find {k : κ} {v : ν} {ms : List (κ × ν)} (h : find k ms = some v) : (k, v) ∈ ms := by
  induction ms with
  | nil => cases h
  | cons m ms ih =>
    obtain ⟨l, w⟩ := m
    rw [find] at h
    split at h
    · next heq =>
      cases h
      rw [heq]
      exact List.mem_cons_self
    · exact List.mem_cons_of_mem _ (ih h)

lemma mem_put {k : κ} {v : ν} {m : κ × ν} {ms : List (κ × ν)} (h : m ∈ put k v ms) :
    m = (k, v) ∨ m ∈ ms := by
  induction ms with
  | nil => exact .inl (List.mem_singleton.mp h)
  | cons n ms ih =>
    obtain ⟨l, w⟩ := n
    rw [put] at h
    split at h
    · exact List.mem_cons.mp h
    · split at h
      · exact (List.mem_cons.mp h).imp_right (List.mem_cons_of_mem _)
      · rcases List.mem_cons.mp h with rfl | h
        · exact .inr List.mem_cons_self
        · exact (ih h).imp_right (List.mem_cons_of_mem _)

lemma sorted_put {ms : List (κ × ν)} (h : Sorted ms) (k : κ) (v : ν) : Sorted (put k v ms) := by
  induction ms with
  | nil => exact List.pairwise_singleton _ _
  | cons m ms ih =>
    obtain ⟨l, w⟩ := m
    obtain ⟨hl, hms⟩ := List.pairwise_cons.mp h
    rw [put]
    split
    · next hlt =>
      refine List.pairwise_cons.mpr ⟨fun m hm => ?_, h⟩
      rcases List.mem_cons.mp hm with rfl | hm
      · exact hlt
      · exact hlt.trans (hl m hm)
    · next hge =>
      split
      · next heq =>
        exact List.pairwise_cons.mpr ⟨fun m hm => heq ▸ hl m hm, hms⟩
      · next hne =>
        refine List.pairwise_cons.mpr ⟨fun m hm => ?_, ih hms⟩
        rcases mem_put hm with rfl | hm
        · exact lt_of_le_of_ne (not_lt.mp hge) (Ne.symm hne)
        · exact hl m hm

lemma find_of_forall_lt {k : κ} {ms : List (κ × ν)} (h : ∀ m ∈ ms, k < m.1) : find k ms = none := by
  cases hfind : find k ms with
  | none => rfl
  | some v => exact absurd (h _ (mem_of_find hfind)) (lt_irrefl k)

lemma ext {ms ns : List (κ × ν)} (hms : Sorted ms) (hns : Sorted ns)
    (h : ∀ k, find k ms = find k ns) : ms = ns := by
  induction ms generalizing ns with
  | nil =>
    cases ns with
    | nil => rfl
    | cons n ns =>
      have := h n.1
      simp [find] at this
  | cons m ms ih =>
    cases ns with
    | nil =>
      have := h m.1
      simp [find] at this
    | cons n ns =>
      obtain ⟨k, v⟩ := m
      obtain ⟨l, w⟩ := n
      obtain ⟨hk, hms'⟩ := List.pairwise_cons.mp hms
      obtain ⟨hl, hns'⟩ := List.pairwise_cons.mp hns
      -- each first key is found in the other map, so neither is the smaller one
      have hkl : k = l := by
        have h1 : find k ((l, w) :: ns) = some v := by
          rw [← h k]
          simp [find]
        have h2 : find l ((k, v) :: ms) = some w := by
          rw [h l]
          simp [find]
        rcases List.mem_cons.mp (mem_of_find h1) with heq | hmem
        · exact congrArg Prod.fst heq
        · rcases List.mem_cons.mp (mem_of_find h2) with heq | hmem'
          · exact (congrArg Prod.fst heq).symm
          · exact absurd ((hl _ hmem).trans (hk _ hmem')) (lt_irrefl _)
      subst hkl
      have hvw : v = w := by
        have := h k
        simpa [find] using this
      have hrest : ms = ns := by
        refine ih hms' hns' fun k' => ?_
        by_cases hk' : k = k'
        · subst hk'
          rw [find_of_forall_lt hk, find_of_forall_lt hl]
        · have := h k'
          simpa [find, hk'] using this
      rw [hvw, hrest]

end SortedMap

open SortedMap

namespace Json

mutual

/-- The members of every object are sorted by their keys. -/
def canonical : Json → Bool
  | .arr xs => canonicalList xs
  | .obj ms => decide (Sorted ms) && canonicalMembers ms
  | _ => true

def canonicalList : List Json → Bool
  | [] => true
  | x :: xs => canonical x && canonicalList xs

def canonicalMembers : List (String × Json) → Bool
  | [] => true
  | (_, v) :: ms => canonical v && canonicalMembers ms

end

variable {k : String} {ms : List (String × Json)} {v j j' : Json} {ks : List String}

lemma canonicalMembers_iff : canonicalMembers ms = true ↔ ∀ m ∈ ms, m.2.canonical = true := by
  induction ms with
  | nil => simp [canonicalMembers]
  | cons m ms ih =>
    obtain ⟨k, v⟩ := m
    rw [canonicalMembers, Bool.and_eq_true, ih, List.forall_mem_cons]

lemma canonical_obj : (obj ms).canonical = true ↔ Sorted ms ∧ ∀ m ∈ ms, m.2.canonical = true := by
  rw [canonical, Bool.and_eq_true, decide_eq_true_eq, canonicalMembers_iff]

lemma canonical_put (h : (obj ms).canonical = true) (hv : v.canonical = true) :
    (obj (put k v ms)).canonical = true := by
  obtain ⟨hsorted, hmem⟩ := canonical_obj.mp h
  refine canonical_obj.mpr ⟨sorted_put hsorted k v, fun m hm => ?_⟩
  rcases mem_put hm with rfl | hm
  · exact hv
  · exact hmem m hm

lemma canonical_drop (h : (obj ms).canonical = true) : (obj (drop k ms)).canonical = true := by
  obtain ⟨hsorted, hmem⟩ := canonical_obj.mp h
  exact canonical_obj.mpr ⟨hsorted.filter _, fun m hm => hmem m (List.mem_of_mem_filter hm)⟩

lemma canonical_find (h : (obj ms).canonical = true) (hv : find k ms = some v) :
    v.canonical = true :=
  (canonical_obj.mp h).2 _ (mem_of_find hv)

/-! ### Paths -/

def follow : List String → Json → Option Json
  | [], j => some j
  | k :: ks, .obj ms => (find k ms).bind (follow ks)
  | _ :: _, _ => none

lemma follow_cons (k : String) (ks : List String) (j : Json) :
    follow (k :: ks) j = (follow [k] j).bind (follow ks) := by
  cases j with
  | obj ms =>
    rw [follow, follow]
    cases find k ms <;> rfl
  | _ => rfl

lemma follow_append (ks ls : List String) (j : Json) :
    follow (ks ++ ls) j = (follow ks j).bind (follow ls) := by
  induction ks generalizing j with
  | nil => rfl
  | cons k ks ih =>
    rw [List.cons_append, follow_cons, follow_cons k ks, Option.bind_assoc]
    exact congrArg _ (funext ih)

lemma canonical_follow (h : j.canonical = true) (hv : follow ks j = some v) :
    v.canonical = true := by
  induction ks generalizing j with
  | nil =>
    cases hv
    exact h
  | cons k ks ih =>
    cases j with
    | obj ms =>
      obtain ⟨w, hw, hv⟩ := Option.bind_eq_some_iff.mp hv
      exact ih (canonical_find h hw) hv
    | _ => cases hv

def shape : Json → Json
  | .obj _ => .obj []
  | j => j

/-- What kind of value is at a path: none, an object, or the value itself. -/
def kind (ks : List String) (j : Json) : Option Json := (follow ks j).map shape

def isObj : Json → Bool
  | .obj _ => true
  | _ => false

lemma shape_eq_leaf (hv : v.isObj = false) : shape j = v ↔ j = v := by
  cases j with
  | obj ms =>
    constructor
    · intro h
      rw [← h] at hv
      cases hv
    · intro h
      rw [← h] at hv
      cases hv
  | _ => exact Iff.rfl

lemma kind_eq_leaf (hv : v.isObj = false) : kind ks j = some v ↔ follow ks j = some v := by
  rw [kind, Option.map_eq_some_iff]
  constructor
  · rintro ⟨w, hw, hshape⟩
    rw [(shape_eq_leaf hv).mp hshape] at hw
    exact hw
  · intro h
    exact ⟨v, h, (shape_eq_leaf hv).mpr rfl⟩

lemma kind_of_follow {ls : List String} (hls : ls ≠ []) (h : (follow (ks ++ ls) j).isSome) :
    kind ks j = some (.obj []) := by
  rw [follow_append] at h
  obtain ⟨v, hv⟩ := Option.isSome_iff_exists.mp h
  obtain ⟨w, hw, hv⟩ := Option.bind_eq_some_iff.mp hv
  rw [kind, hw, Option.map_some]
  cases ls with
  | nil => exact absurd rfl hls
  | cons l ls =>
    cases w with
    | obj ms => rfl
    | _ => cases hv

lemma kind_cons : kind (k :: ks) (.obj ms) = (find k ms).bind (kind ks) := by
  unfold kind
  rw [follow]
  cases find k ms <;> rfl

theorem eq_of_kind : ∀ {j j' : Json}, j.canonical = true → j'.canonical = true →
    (∀ ks, kind ks j = kind ks j') → j = j'
  | .obj ms, j', hj, hj', h => by
    have h0 : shape (.obj ms) = shape j' := Option.some.inj (h [])
    cases j' with
    | obj ns =>
      have hms := canonical_obj.mp hj
      have hns := canonical_obj.mp hj'
      refine congrArg obj (SortedMap.ext hms.1 hns.1 fun k => ?_)
      have hk (ks : List String) : (find k ms).bind (kind ks) = (find k ns).bind (kind ks) := by
        rw [← kind_cons, ← kind_cons]
        exact h (k :: ks)
      cases hv : find k ms with
      | none =>
        cases hw : find k ns with
        | none => rfl
        | some w =>
          have := hk []
          rw [hv, hw] at this
          cases this
      | some v =>
        cases hw : find k ns with
        | none =>
          have := hk []
          rw [hv, hw] at this
          cases this
        | some w =>
          have hmem := mem_of_find hv
          have : v = w := by
            refine eq_of_kind (canonical_find hj hv) (canonical_find hj' hw) fun ks => ?_
            have := hk ks
            rwa [hv, hw] at this
          rw [this]
    | _ => cases h0
  | .null, j', _, _, h | .bool _, j', _, _, h | .num _, j', _, _, h | .negZero, j', _, _, h
  | .str _, j', _, _, h | .arr _, j', _, _, h => by
    have h0 := Option.some.inj (h [])
    exact ((shape_eq_leaf rfl).mp h0.symm).symm
termination_by j => sizeOf j
decreasing_by
  have := List.sizeOf_lt_of_mem hmem
  simp only [Prod.mk.sizeOf_spec] at this
  simp only [obj.sizeOf_spec]
  omega

lemma follow_eq_of_kind (hj : j.canonical = true) (hj' : j'.canonical = true)
    (h : ∀ ls, kind (ks ++ ls) j = kind (ks ++ ls) j') : follow ks j = follow ks j' := by
  have hbind (ls : List String) : (follow ks j).bind (kind ls) = (follow ks j').bind (kind ls) := by
    have := h ls
    simp only [kind, follow_append, Option.map_bind] at this
    exact this
  cases hv : follow ks j with
  | none =>
    cases hw : follow ks j' with
    | none => rfl
    | some w =>
      have := hbind []
      rw [hv, hw] at this
      cases this
  | some v =>
    cases hw : follow ks j' with
    | none =>
      have := hbind []
      rw [hv, hw] at this
      cases this
    | some w =>
      have : v = w := by
        refine eq_of_kind (canonical_follow hj hv) (canonical_follow hj' hw) fun ls => ?_
        have := hbind ls
        rwa [hv, hw] at this
      rw [this]

/-! ### Numbers read as doubles -/

section Floats

variable {zero : Json}

lemma isObj_toFloats (hz : zero.isObj = false) (h : toFloats zero j = some j') :
    j'.isObj = j.isObj := by
  cases j with
  | num q =>
    rw [toFloats, readFloat] at h
    obtain ⟨r, -, rfl⟩ := Option.map_eq_some_iff.mp h
    split <;> rfl
  | negZero =>
    cases h
    exact hz
  | arr xs =>
    rw [toFloats] at h
    obtain ⟨ys, -, rfl⟩ := Option.map_eq_some_iff.mp h
    rfl
  | obj ms =>
    rw [toFloats] at h
    obtain ⟨ns, -, rfl⟩ := Option.map_eq_some_iff.mp h
    rfl
  | _ =>
    cases h
    rfl

variable {ns : List (String × Json)}

lemma toFloatsMembers_cons
    (h : toFloatsMembers zero ((k, v) :: ms) = some ns) : ∃ w ns', ns = (k, w) :: ns' ∧
      toFloats zero v = some w ∧ toFloatsMembers zero ms = some ns' := by
  rw [toFloatsMembers] at h
  obtain ⟨w, hw, h⟩ := Option.bind_eq_some_iff.mp h
  obtain ⟨ns', hns', rfl⟩ := Option.map_eq_some_iff.mp h
  exact ⟨w, ns', rfl, hw, hns'⟩

def Reads (zero : Json) (j j' : Json) : Prop := toFloats zero j = some j'

lemma find_toFloats (h : toFloatsMembers zero ms = some ns) (k : String) :
    Option.Rel (Reads zero) (find k ms) (find k ns) := by
  induction ms generalizing ns with
  | nil =>
    cases h
    exact .none
  | cons m ms ih =>
    obtain ⟨l, v⟩ := m
    obtain ⟨w, ns', rfl, hw, hns'⟩ := toFloatsMembers_cons h
    rw [find, find]
    by_cases hk : l = k
    · rw [if_pos hk, if_pos hk]
      exact .some hw
    · rw [if_neg hk, if_neg hk]
      exact ih hns'

lemma follow_toFloats (hz : zero.isObj = false) (h : toFloats zero j = some j') :
    Option.Rel (Reads zero) (follow ks j) (follow ks j') := by
  induction ks generalizing j j' with
  | nil => exact .some h
  | cons k ks ih =>
    have hobj := isObj_toFloats hz h
    cases j with
    | obj ms =>
      rw [toFloats] at h
      obtain ⟨ns, hns, rfl⟩ := Option.map_eq_some_iff.mp h
      rw [follow, follow]
      have hrel := find_toFloats hns k
      generalize find k ms = v, find k ns = w at hrel ⊢
      cases hrel with
      | none => exact .none
      | some hvw => exact ih hvw
    | _ =>
      cases j' with
      | obj ns => cases hobj
      | _ => exact .none

lemma sorted_toFloats (h : toFloatsMembers zero ms = some ns) (hms : Sorted ms) : Sorted ns := by
  have hkeys : ns.map Prod.fst = ms.map Prod.fst := by
    clear hms
    induction ms generalizing ns with
    | nil =>
      cases h
      rfl
    | cons m ms ih =>
      obtain ⟨w, ns', rfl, -, hns'⟩ := toFloatsMembers_cons h
      rw [List.map_cons, List.map_cons, ih hns']
  have hpair : (ms.map Prod.fst).Pairwise (· < ·) := List.pairwise_map.mpr hms
  rw [← hkeys] at hpair
  exact List.pairwise_map.mp hpair

mutual

lemma canonical_toFloats (hz : zero.canonical = true) : ∀ {j j' : Json}, j.canonical = true →
    toFloats zero j = some j' → j'.canonical = true
  | .num q, j', _, h => by
    rw [toFloats, readFloat] at h
    obtain ⟨r, -, rfl⟩ := Option.map_eq_some_iff.mp h
    split <;> rfl
  | .negZero, j', _, h => by
    cases h
    exact hz
  | .arr xs, j', hj, h => by
    rw [toFloats] at h
    obtain ⟨ys, hys, rfl⟩ := Option.map_eq_some_iff.mp h
    exact canonical_toFloatsList hz hj hys
  | .obj ms, j', hj, h => by
    rw [toFloats] at h
    obtain ⟨ns, hns, rfl⟩ := Option.map_eq_some_iff.mp h
    rw [canonical, Bool.and_eq_true, decide_eq_true_eq] at hj ⊢
    exact ⟨sorted_toFloats hns hj.1, canonical_toFloatsMembers hz hj.2 hns⟩
  | .null, j', _, h | .bool _, j', _, h | .str _, j', _, h => by
    cases h
    rfl

lemma canonical_toFloatsList (hz : zero.canonical = true) : ∀ {xs ys : List Json},
    canonicalList xs = true → toFloatsList zero xs = some ys → canonicalList ys = true
  | [], ys, _, h => by
    cases h
    rfl
  | x :: xs, ys, hxs, h => by
    rw [toFloatsList] at h
    obtain ⟨y, hy, h⟩ := Option.bind_eq_some_iff.mp h
    obtain ⟨ys', hys', rfl⟩ := Option.map_eq_some_iff.mp h
    rw [canonicalList, Bool.and_eq_true] at hxs ⊢
    exact ⟨canonical_toFloats hz hxs.1 hy, canonical_toFloatsList hz hxs.2 hys'⟩

lemma canonical_toFloatsMembers (hz : zero.canonical = true) : ∀ {ms ns : List (String × Json)},
    canonicalMembers ms = true → toFloatsMembers zero ms = some ns → canonicalMembers ns = true
  | [], ns, _, h => by
    cases h
    rfl
  | (k, v) :: ms, ns, hms, h => by
    obtain ⟨w, ns', rfl, hw, hns'⟩ := toFloatsMembers_cons h
    rw [canonicalMembers, Bool.and_eq_true] at hms ⊢
    exact ⟨canonical_toFloats hz hms.1 hw, canonical_toFloatsMembers hz hms.2 hns'⟩

end

end Floats

end Json

end Seaplane.Lib
