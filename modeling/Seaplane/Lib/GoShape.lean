import Seaplane.Lib.Document

/-!
Structs and the documents they marshal to.

A document that is decoded into the zero value of a struct and marshalled again may come out as
another one: a field that is always marshalled appears with its zero value, and one that may be left
out is gone if it is empty. What is decoded as a whole, such as a scalar or a map, is given by the
documents that it accepts.
-/

namespace Seaplane.Lib

open Json SortedMap

mutual

/-- A type as its codec sees it. -/
inductive GoShape where
  /-- What is decoded as a whole; a null makes it zero. -/
  | value (zero : Json) (canonical : zero.canonical = true) (accepts : Json → Bool)
  /-- A struct, or a pointer to one. -/
  | struct (isPtr : Bool) (fields : GoFields)

/-- The fields of a struct, each with whether it is left out when it is empty. -/
inductive GoFields where
  | nil
  | cons (name : String) (omitempty : Bool) (type : GoShape) (rest : GoFields)

end

def Json.isEmpty : Json → Bool
  | .null | .bool false | .negZero | .str "" | .arr [] | .obj [] => true
  | .num q => q == 0
  | _ => false

/-- The first field of a name. -/
def GoFields.field (k : String) : GoFields → Option (Bool × GoShape)
  | .nil => none
  | .cons name omitempty t rest => if k = name then some (omitempty, t) else rest.field k

/-- A field with this value is left out. That never happens to a struct. -/
def GoShape.omits (omitempty : Bool) (w : Json) : GoShape → Bool
  | .value _ _ _ => omitempty && w.isEmpty
  | .struct isPtr _ => omitempty && isPtr && w == .null

mutual

/-- The document of the zero value. -/
def GoShape.zero : GoShape → Json
  | .value zero _ _ => zero
  | .struct isPtr fields => if isPtr then .null else .obj fields.zeros

def GoFields.zeros : GoFields → List (String × Json)
  | .nil => []
  | .cons name omitempty t rest =>
    if t.omits omitempty t.zero then drop name rest.zeros else put name t.zero rest.zeros

end

mutual

/-- A document is decoded into the zero value, and that is marshalled. -/
def GoShape.rebuild : GoShape → Json → Option Json
  | .value zero _ accepts, j =>
    if j = .null then some zero else if accepts j then some j else none
  | .struct isPtr fields, j =>
    match j with
    | .null => some (GoShape.struct isPtr fields).zero
    | .obj ms => (fields.rebuild ms).map .obj
    | _ => none

/-- The members of other names are skipped. -/
def GoFields.rebuild : GoFields → List (String × Json) → Option (List (String × Json))
  | .nil, _ => some []
  | .cons name omitempty t rest, ms =>
    (rest.rebuild (drop name ms)).bind fun others =>
      ((find name ms).elim (some t.zero) t.rebuild).map fun w =>
        if t.omits omitempty w then drop name others else put name w others

end

namespace GoShape

/-- The type of what is at a path of fields. -/
def typeAt : GoShape → List String → Option GoShape
  | t, [] => some t
  | .struct _ fields, k :: ks => (fields.field k).bind fun e => e.2.typeAt ks
  | .value _ _ _, _ :: _ => none

/-- The zero value of a field that is marshalled whatever its value. -/
def required (t : GoShape) (ks : List String) (f : String) : Option Json :=
  match t.typeAt ks with
  | some (.struct _ fields) => (fields.field f).bind fun e =>
      if e.2.omits e.1 e.2.zero then none else some e.2.zero
  | _ => none

/-- The type may marshal to the value, as far as the value itself shows. -/
def Admits : GoShape → Json → Prop
  | .value zero _ accepts, v => if v = .null then zero = .null else accepts v = true
  | .struct isPtr fields, v => (v = .null ∧ isPtr = true) ∨
      ∃ ms, v = .obj ms ∧ ∀ k w, find k ms = some w →
        ∃ omitempty u, fields.field k = some (omitempty, u) ∧ u.omits omitempty w = false

/-- Whatever is in the document is of its type; fields may be missing. -/
def Conforms (t : GoShape) (j : Json) : Prop :=
  ∀ ks u v, t.typeAt ks = some u → follow ks j = some v → u.Admits v

end GoShape

/-! ### Fields one by one -/

/-- What a rebuilt struct has under a key. -/
lemma GoFields.find_rebuild : ∀ {fields : GoFields} {ms ns : List (String × Json)},
    fields.rebuild ms = some ns → ∀ k, (fields.field k = none → find k ns = none) ∧
      ∀ o u, fields.field k = some (o, u) →
        ∃ w, (find k ms).elim (some u.zero) u.rebuild = some w ∧
          find k ns = if u.omits o w then none else some w
  | .nil, _, _, h, _ => by
    cases h
    exact ⟨fun _ => rfl, nofun⟩
  | .cons name omitempty t rest, ms, ns, h, k => by
    obtain ⟨others, hothers, h⟩ := Option.bind_eq_some_iff.mp h
    obtain ⟨w, hw, rfl⟩ := Option.map_eq_some_iff.mp h
    have hrest := find_rebuild hothers k
    by_cases hk : k = name
    · subst hk
      rw [GoFields.field, if_pos rfl]
      refine ⟨nofun, ?_⟩
      rintro o u ⟨⟩
      refine ⟨w, hw, ?_⟩
      split
      · rw [find_drop, if_pos rfl]
      · rw [find_put, if_pos rfl]
    · rw [find_drop, if_neg hk] at hrest
      have hsame : find k (if t.omits omitempty w then drop name others else put name w others) =
          find k others := by
        split
        · rw [find_drop, if_neg hk]
        · rw [find_put, if_neg hk]
      rw [GoFields.field, if_neg hk, hsame]
      exact hrest

mutual

lemma GoShape.canonical_zero : ∀ t : GoShape, t.zero.canonical = true
  | .value _ h _ => h
  | .struct isPtr fields => by
    rw [GoShape.zero]
    split
    · rfl
    · exact fields.canonical_zeros

lemma GoFields.canonical_zeros : ∀ fields : GoFields, (obj fields.zeros).canonical = true
  | .nil => rfl
  | .cons name omitempty t rest => by
    rw [GoFields.zeros]
    split
    · exact canonical_drop rest.canonical_zeros
    · exact canonical_put rest.canonical_zeros t.canonical_zero

end

mutual

lemma GoShape.canonical_rebuild : ∀ {t : GoShape} {j r : Json}, j.canonical = true →
    t.rebuild j = some r → r.canonical = true
  | .value zero hz accepts, j, r, hj, h => by
    rw [GoShape.rebuild] at h
    split at h
    · cases h
      exact hz
    · obtain ⟨-, hr⟩ := Option.ite_none_right_eq_some.mp h
      cases hr
      exact hj
  | .struct isPtr fields, j, r, hj, h => by
    rw [GoShape.rebuild.eq_def] at h
    cases j with
    | null =>
      cases h
      exact GoShape.canonical_zero _
    | obj ms =>
      obtain ⟨ns, hns, rfl⟩ := Option.map_eq_some_iff.mp h
      exact GoFields.canonical_rebuild hj hns
    | _ => cases h

lemma GoFields.canonical_rebuild : ∀ {fields : GoFields} {ms ns : List (String × Json)},
    (obj ms).canonical = true → fields.rebuild ms = some ns → (obj ns).canonical = true
  | .nil, _, _, _, h => by
    cases h
    rfl
  | .cons name omitempty t rest, ms, ns, hms, h => by
    obtain ⟨others, hothers, h⟩ := Option.bind_eq_some_iff.mp h
    obtain ⟨w, hw, rfl⟩ := Option.map_eq_some_iff.mp h
    have hrest := GoFields.canonical_rebuild (canonical_drop hms) hothers
    have hcw : w.canonical = true := by
      cases hfind : find name ms with
      | none =>
        rw [hfind] at hw
        cases hw
        exact t.canonical_zero
      | some v =>
        rw [hfind] at hw
        exact GoShape.canonical_rebuild (canonical_find hms hfind) hw
    split
    · exact canonical_drop hrest
    · exact canonical_put hrest hcw

end

namespace GoShape

variable {t u : GoShape} {isPtr o : Bool} {fields : GoFields} {ms ns : List (String × Json)}
  {k f : String} {ks : List String} {j r v w zero : Json} {hz : zero.canonical = true}
  {accepts : Json → Bool}

/-! ### What conforms to a type -/

lemma rebuild_struct (h : (struct isPtr fields).rebuild j = some r) :
    j = .null ∧ r = (struct isPtr fields).zero ∨
      ∃ ms ns, j = .obj ms ∧ r = .obj ns ∧ fields.rebuild ms = some ns := by
  rw [rebuild.eq_def] at h
  cases j with
  | null => exact .inl ⟨rfl, (Option.some.inj h).symm⟩
  | obj ms =>
    obtain ⟨ns, hns, rfl⟩ := Option.map_eq_some_iff.mp h
    exact .inr ⟨ms, ns, rfl, rfl, hns⟩
  | _ => cases h

lemma rebuild_value (h : (value zero hz accepts).rebuild j = some r) :
    if j = .null then r = zero else accepts j = true ∧ r = j := by
  rw [rebuild] at h
  split
  · next hj =>
    rw [if_pos hj] at h
    exact (Option.some.inj h).symm
  · next hj =>
    rw [if_neg hj] at h
    obtain ⟨ha, hr⟩ := Option.ite_none_right_eq_some.mp h
    exact ⟨ha, (Option.some.inj hr).symm⟩

lemma admits_of_rebuild (h : t.rebuild v = some v) : t.Admits v := by
  cases t with
  | value zero hz accepts =>
    have hv := rebuild_value h
    by_cases hnull : v = .null
    · rw [if_pos hnull] at hv
      rw [Admits, if_pos hnull]
      exact hv.symm.trans hnull
    · rw [if_neg hnull] at hv
      rw [Admits, if_neg hnull]
      exact hv.1
  | struct isPtr fields =>
    rcases rebuild_struct h with ⟨rfl, hzero⟩ | ⟨ms, ns, rfl, hms, hns⟩
    · rw [zero] at hzero
      split at hzero
      · exact .inl ⟨rfl, ‹_›⟩
      · cases hzero
    · cases hms
      refine .inr ⟨ms, rfl, fun k w hw => ?_⟩
      obtain ⟨hnone, hsome⟩ := GoFields.find_rebuild hns k
      cases hk : fields.field k with
      | none =>
        rw [hnone hk] at hw
        cases hw
      | some e =>
        obtain ⟨w', -, hfind⟩ := hsome e.1 e.2 hk
        rw [hw] at hfind
        split at hfind
        · cases hfind
        · next ho =>
          cases hfind
          exact ⟨e.1, e.2, rfl, by simpa using ho⟩

lemma conforms_of_rebuild (h : t.rebuild j = some j) : t.Conforms j := by
  intro ks
  induction ks generalizing t j with
  | nil =>
    rintro u v ⟨⟩ ⟨⟩
    exact admits_of_rebuild h
  | cons k ks ih =>
    intro u v hu hv
    cases t with
    | value => cases hu
    | struct isPtr fields =>
      obtain ⟨⟨o, t⟩, hk, hu⟩ := Option.bind_eq_some_iff.mp hu
      rcases rebuild_struct h with ⟨rfl, -⟩ | ⟨ms, ns, rfl, hms, hns⟩
      · cases hv
      · cases hms
        obtain ⟨w, hw, hv⟩ := Option.bind_eq_some_iff.mp hv
        obtain ⟨w', hw', hfind⟩ := (GoFields.find_rebuild hns k).2 o t hk
        rw [hw] at hfind hw'
        split at hfind
        · cases hfind
        · cases hfind
          exact ih hw' u v hu hv

lemma Conforms.field (h : (struct isPtr fields).Conforms (.obj ms))
    (hk : fields.field k = some (o, u)) (hv : find k ms = some v) : u.Conforms v := by
  intro ks u' w hu' hw
  refine h (k :: ks) u' w ?_ ?_
  · rw [typeAt, hk]
    exact hu'
  · rw [follow, hv]
    exact hw

lemma Conforms.admits (h : t.Conforms j) : t.Admits j := h [] t j rfl rfl

lemma typeAt_concat (h : t.typeAt ks = some (struct isPtr fields)) :
    t.typeAt (ks ++ [k]) = (fields.field k).map Prod.snd := by
  induction ks generalizing t with
  | nil =>
    cases h
    rw [List.nil_append, typeAt, Option.map_eq_bind]
    rfl
  | cons k' ks ih =>
    cases t with
    | value => cases h
    | struct isPtr' fields' =>
      obtain ⟨e, he, hu⟩ := Option.bind_eq_some_iff.mp h
      rw [List.cons_append, typeAt, he, Option.bind_some, ih hu]

lemma omits_struct {w' : Json} (h : shape w = shape w') :
    (struct isPtr fields).omits o w = (struct isPtr fields).omits o w' := by
  have hnull : w = .null ↔ w' = .null := by
    rw [← shape_eq_leaf (v := .null) rfl, h, shape_eq_leaf rfl]
  simp only [omits]
  congr 1
  rw [Bool.eq_iff_iff]
  simpa using hnull

end GoShape

mutual

lemma GoShape.exists_rebuild : ∀ {t : GoShape} {j : Json}, t.Conforms j → ∃ r, t.rebuild j = some r
  | .value zero hz accepts, j, h => by
    have hadmits := h.admits
    rw [GoShape.rebuild]
    split
    · exact ⟨_, rfl⟩
    · next hj =>
      rw [GoShape.Admits, if_neg hj] at hadmits
      exact ⟨_, if_pos hadmits⟩
  | .struct isPtr fields, j, h => by
    rcases h.admits with ⟨rfl, -⟩ | ⟨ms, rfl, -⟩
    · exact ⟨_, rfl⟩
    · have hfields : ∃ ns, fields.rebuild ms = some ns :=
        GoFields.exists_rebuild fun k o u v hk hv => h.field hk hv
      obtain ⟨ns, hns⟩ := hfields
      exact ⟨.obj ns, by rw [GoShape.rebuild, hns]; rfl⟩

lemma GoFields.exists_rebuild : ∀ {fields : GoFields} {ms : List (String × Json)},
    (∀ k o u v, fields.field k = some (o, u) → find k ms = some v → u.Conforms v) →
      ∃ ns, fields.rebuild ms = some ns
  | .nil, _, _ => ⟨[], rfl⟩
  | .cons name omitempty t rest, ms, h => by
    have hrest : ∃ others, rest.rebuild (drop name ms) = some others := by
      refine GoFields.exists_rebuild fun k o u v hk hv => ?_
      rw [find_drop] at hv
      split at hv
      · cases hv
      · next hne => exact h k o u v (by rw [GoFields.field, if_neg hne]; exact hk) hv
    obtain ⟨others, hothers⟩ := hrest
    have hw : ∃ w, (find name ms).elim (some t.zero) t.rebuild = some w := by
      cases hfind : find name ms with
      | none => exact ⟨_, rfl⟩
      | some v =>
        exact GoShape.exists_rebuild
          (h name omitempty t v (by rw [GoFields.field, if_pos rfl]) hfind)
    obtain ⟨w, hw⟩ := hw
    exact ⟨_, by rw [GoFields.rebuild, hothers, Option.bind_some, hw]; rfl⟩

end

namespace GoShape

variable {t u : GoShape} {isPtr o : Bool} {fields : GoFields} {ms ns : List (String × Json)}
  {k f : String} {ks : List String} {j r v w zero : Json} {hz : zero.canonical = true}
  {accepts : Json → Bool}

/-! ### What a rebuilt document has -/

lemma rebuild_eq_of_admits (h : (value zero hz accepts).Admits j)
    (hr : (value zero hz accepts).rebuild j = some r) : r = j := by
  have hj := rebuild_value hr
  by_cases hnull : j = .null
  · rw [Admits, if_pos hnull] at h
    rw [if_pos hnull] at hj
    rw [hj, h, hnull]
  · rw [if_neg hnull] at hj
    exact hj.2

lemma rebuild_cases (h : t.Admits j) (hr : t.rebuild j = some r) :
    r = j ∨ ∃ isPtr fields ms ns, t = struct isPtr fields ∧ j = .obj ms ∧ r = .obj ns := by
  cases t with
  | value => exact .inl (rebuild_eq_of_admits h hr)
  | struct isPtr fields =>
    rcases rebuild_struct hr with ⟨rfl, rfl⟩ | ⟨ms, ns, rfl, rfl, -⟩
    · rcases h with ⟨-, rfl⟩ | ⟨ms, hms, -⟩
      · exact .inl rfl
      · cases hms
    · exact .inr ⟨isPtr, fields, ms, ns, rfl, rfl, rfl⟩

lemma shape_rebuild (h : t.Admits j) (hr : t.rebuild j = some r) : shape r = shape j := by
  rcases rebuild_cases h hr with rfl | ⟨_, _, _, _, -, rfl, rfl⟩ <;> rfl

lemma omits_rebuild (h : t.Admits j) (hr : t.rebuild j = some r) : t.omits o r = t.omits o j := by
  rcases rebuild_cases h hr with rfl | ⟨_, _, _, _, rfl, rfl, rfl⟩ <;> rfl

/-- A member of a document that conforms is rebuilt and stays. -/
lemma Conforms.member (h : (struct isPtr fields).Conforms (.obj ms))
    (hns : fields.rebuild ms = some ns) (hv : find k ms = some v) :
    ∃ o u w, fields.field k = some (o, u) ∧ u.Conforms v ∧ u.rebuild v = some w ∧
      find k ns = some w := by
  rcases h.admits with ⟨hnull, -⟩ | ⟨ms', hms, hfields⟩
  · cases hnull
  · cases hms
    obtain ⟨o, u, hk, ho⟩ := hfields k v hv
    obtain ⟨w, hw, hfind⟩ := (GoFields.find_rebuild hns k).2 o u hk
    rw [hv, Option.elim_some] at hw
    have hconforms := h.field hk hv
    rw [omits_rebuild hconforms.admits hw, if_neg (by simp [ho])] at hfind
    exact ⟨o, u, w, hk, hconforms, hw, hfind⟩

/-- What is there stays, ... -/
lemma kind_rebuild (h : t.Conforms j) (hr : t.rebuild j = some r) (hks : (follow ks j).isSome) :
    kind ks r = kind ks j := by
  induction ks generalizing t j r with
  | nil => exact congrArg some (shape_rebuild h.admits hr)
  | cons k ks ih =>
    cases t with
    | value => rw [rebuild_eq_of_admits h.admits hr]
    | struct isPtr fields =>
      rcases rebuild_struct hr with ⟨rfl, -⟩ | ⟨ms, ns, rfl, rfl, hns⟩
      · cases hks
      · cases hv : find k ms with
        | none =>
          rw [follow, hv] at hks
          cases hks
        | some v =>
          obtain ⟨o, u, w, -, hconforms, hw, hfind⟩ := h.member hns hv
          rw [follow, hv, Option.bind_some] at hks
          rw [kind_cons, kind_cons, hv, hfind]
          exact ih hconforms hw hks

lemma required_nil : (struct isPtr fields).required [] f = (fields.field f).bind fun e =>
    if e.2.omits e.1 e.2.zero then none else some e.2.zero := rfl

lemma required_cons (hk : fields.field k = some (o, u)) :
    (struct isPtr fields).required (k :: ks) f = u.required ks f := by
  rw [required, typeAt, hk]
  rfl

lemma required_value : (value zero hz accepts).required ks f = none := by
  cases ks <;> rfl

lemma find_rebuild_none (hns : fields.rebuild ms = some ns) (hm : find k ms = none) :
    find k ns = (struct isPtr fields).required [] k := by
  rw [required_nil]
  cases hk : fields.field k with
  | none => exact (GoFields.find_rebuild hns k).1 hk
  | some e =>
    obtain ⟨w, hw, hfind⟩ := (GoFields.find_rebuild hns k).2 e.1 e.2 hk
    rw [hm] at hw
    cases hw
    exact hfind

/-- ... and what is new is the zero value of a field that was missing. -/
lemma follow_rebuild (h : t.Conforms j) (hr : t.rebuild j = some r) (hks : follow ks j = none) :
    follow ks r = some v ↔ ∃ ks1 f ls z, ks = ks1 ++ f :: ls ∧ t.required ks1 f = some z ∧
      kind ks1 j = some (.obj []) ∧ kind (ks1 ++ [f]) j = none ∧ follow ls z = some v := by
  induction ks generalizing t j r with
  | nil => cases hks
  | cons k ks ih =>
    cases t with
    | value zero hz accepts =>
      rw [rebuild_eq_of_admits h.admits hr, hks]
      simp [required_value]
    | struct isPtr fields =>
      rcases rebuild_struct hr with ⟨rfl, rfl⟩ | ⟨ms, ns, rfl, rfl, hns⟩
      · rcases h.admits with ⟨-, rfl⟩ | ⟨ms, hms, -⟩
        · refine iff_of_false (fun hv => by cases hv) ?_
          rintro ⟨ks1, f, ls, z, -, -, hobj, -⟩
          cases ks1 <;> cases hobj
        · cases hms
      · rw [follow]
        constructor
        · intro hv
          obtain ⟨w, hw, hv⟩ := Option.bind_eq_some_iff.mp hv
          cases hm : find k ms with
          | none =>
            rw [find_rebuild_none hns hm] at hw
            refine ⟨[], k, ks, w, rfl, hw, rfl, ?_, hv⟩
            rw [List.nil_append, kind_cons, hm]
            rfl
          | some w0 =>
            obtain ⟨o, u, w', hk, hconforms, hw', hfind⟩ := h.member hns hm
            rw [hw] at hfind
            cases hfind
            rw [follow, hm, Option.bind_some] at hks
            obtain ⟨ks1, f, ls, z, rfl, hz, hobj, hnone, hv⟩ := (ih hconforms hw' hks).mp hv
            refine ⟨k :: ks1, f, ls, z, rfl, ?_, ?_, ?_, hv⟩
            · rw [required_cons hk, hz]
            · rw [kind_cons, hm]
              exact hobj
            · rw [List.cons_append, kind_cons, hm]
              exact hnone
        · rintro ⟨ks1, f, ls, z, heq, hz, hobj, hnone, hv⟩
          cases ks1 with
          | nil =>
            cases heq
            rw [List.nil_append, kind_cons] at hnone
            have hm : find k ms = none := by
              cases hm : find k ms with
              | none => rfl
              | some w =>
                rw [hm] at hnone
                cases hnone
            rw [find_rebuild_none hns hm, hz]
            exact hv
          | cons k' ks1 =>
            cases heq
            rw [kind_cons] at hobj
            obtain ⟨w0, hm, hobj⟩ := Option.bind_eq_some_iff.mp hobj
            obtain ⟨o, u, w', hk, hconforms, hw', hfind⟩ := h.member hns hm
            rw [follow, hm, Option.bind_some] at hks
            rw [required_cons hk] at hz
            rw [List.cons_append, kind_cons, hm] at hnone
            rw [hfind]
            exact (ih hconforms hw' hks).mpr ⟨ks1, f, ls, z, rfl, hz, hobj, hnone, hv⟩

end GoShape

end Seaplane.Lib
