import Mathlib.Data.List.Nodup
import Seaplane.Lib.GoType

/-!
Updates by decoding JSON into values that are already there.

An update honours a value when the collections it supplies are the ones it alone decodes to, and
what it does not mention is as it was. Structs and what pointers point at are gone into; a map or a
slice is one thing. Each type says when that is so: when the old collections at the places of
those that are supplied leave nothing behind.
-/

namespace Seaplane.Lib

open GoType

/-- A type with what it means that an update honours its values. -/
structure GoUpdate (α : Type) extends GoType α where
  /-- The values were decoded into the first and gave the second; into zero they give the third. -/
  honours : List Json → α → α → α → Prop
  clean : List Json → α → Prop
  law : ∀ {js : List Json} {v w w' : α}, decodeAll decode js zero = some w →
    decodeAll decode js v = some w' → (honours js v w' w ↔ clean js v)

/-- The fields of a struct with what it means that an update honours them. -/
structure FieldsUpdate (ρ : Type) extends Fields ρ where
  honours : (String → List Json) → ρ → ρ → ρ → Prop
  clean : (String → List Json) → ρ → Prop
  law : ∀ {ms : List (String × Json)} {v w w' : ρ}, ms.foldlM decode zero = some w →
    ms.foldlM decode v = some w' → (honours (valuesOf ms) v w' w ↔ clean (valuesOf ms) v)

namespace GoUpdate

variable {α : Type}

/-- What is neither a collection nor has any inside. -/
def leaf (t : GoType α) : GoUpdate α where
  toGoType := t
  honours js v w' _ := js = [] → w' = v
  clean _ _ := True
  law := by
    intro js v w w' _ h'
    refine iff_of_true (fun hjs => ?_) trivial
    subst hjs
    cases h'
    rfl

/-- A map or a slice: it is as it was, or what the values alone give. -/
def collection (t : GoType α) : GoUpdate α where
  toGoType := t
  honours js v w' w := (js = [] → w' = v) ∧ (js ≠ [] → t.same w' w)
  clean js v := js ≠ [] → ¬t.keeps js v
  law := by
    intro js v w w' h h'
    rw [t.decodes h h']
    refine ⟨And.right, fun hk => ⟨fun hjs => ?_, hk⟩⟩
    subst hjs
    cases h'
    rfl

/-- After a null the pointer points at something new. -/
def ptrHonours (u : GoUpdate α) (js : List Json) (v w' w : Option α) : Prop :=
  (js = [] → w' = v) ∧ (js ≠ [] → ∀ a' a, w' = some a' → w = some a →
    if .null ∈ js then u.same a' a else u.honours js (v.getD u.zero) a' a)

def ptrClean (u : GoUpdate α) (js : List Json) (v : Option α) : Prop :=
  js ≠ [] → .null ∉ js → u.clean js (v.getD u.zero)

lemma ptr_law (u : GoUpdate α) {js : List Json} {v w w' : Option α}
    (h : decodeAll u.decodePtr js none = some w) (h' : decodeAll u.decodePtr js v = some w') :
    u.ptrHonours js v w' w ↔ u.ptrClean js v := by
  unfold ptrHonours ptrClean
  by_cases hjs : js = []
  · subst hjs
    cases h'
    simp
  · by_cases hnull : .null ∈ js
    · have hsame : Option.Rel u.same w' w :=
        (u.ptr.decodes h h').mpr fun hk => hk.1 _ hnull rfl
      refine iff_of_true ⟨fun hnil => absurd hnil hjs, ?_⟩ fun _ hno => absurd hnull hno
      rintro - a' a rfl rfl
      rw [if_pos hnull]
      exact Option.rel_some_some.mp hsame
    · have hn : ∀ j ∈ js, j ≠ .null := fun j hj hj' => hnull (hj' ▸ hj)
      obtain ⟨a, rfl, ha⟩ := decodePtr_all hn hjs h
      obtain ⟨a', rfl, ha'⟩ := decodePtr_all hn hjs h'
      have hlaw := u.law ha ha'
      simp [hjs, hnull, hlaw]

def ptr (u : GoUpdate α) : GoUpdate (Option α) where
  toGoType := u.toGoType.ptr
  honours := u.ptrHonours
  clean := u.ptrClean
  law := u.ptr_law

/-- The members of the objects among the values, by the fields they are for. -/
def byField {ρ : Type} (F : Fields ρ) (js : List Json) : String → List Json :=
  valuesOf (js.flatMap fun j => F.resolve (membersOf j))

def struct {ρ : Type} (F : FieldsUpdate ρ) : GoUpdate ρ where
  toGoType := GoType.struct F.toFields
  honours js := F.honours (byField F.toFields js)
  clean js := F.clean (byField F.toFields js)
  law h h' := F.law (decodeStruct_all h) (decodeStruct_all h')

end GoUpdate

namespace FieldsUpdate

variable {α ρ : Type}

def nil : FieldsUpdate Unit where
  toFields := .nil
  honours _ _ _ _ := True
  clean _ _ := True
  law _ _ := Iff.rfl

@[simp] def without (name : String) (js : String → List Json) (n : String) : List Json :=
  if n = name then [] else js n

def cons (name : String) (u : GoUpdate α) (rest : FieldsUpdate ρ) : FieldsUpdate (α × ρ) where
  toFields := .cons name u.toGoType rest.toFields
  honours js v w' w :=
    u.honours (js name) v.1 w'.1 w.1 ∧ rest.honours (without name js) v.2 w'.2 w.2
  clean js v := u.clean (js name) v.1 ∧ rest.clean (without name js) v.2
  law := by
    intro ms v w w' h h'
    obtain ⟨ha, hr⟩ := Fields.decodeCons_all h
    obtain ⟨ha', hr'⟩ := Fields.decodeCons_all h'
    have hrest := rest.law hr hr'
    rw [Fields.valuesOf_filter] at hrest
    exact and_congr (u.law ha ha') hrest

end FieldsUpdate

/-! ### Types by their constructors -/

mutual

/-- A type, as it is written. -/
inductive TypeExpr : Type 1 where
  | scalar {α : Type} (zero : α) (read : Json → Option α)
  /-- A type with a decoder of its own. -/
  | whole {α : Type} (zero : α) (read : Json → Option α)
  | ptr (t : TypeExpr)
  | slice (t : TypeExpr)
  | map (t : TypeExpr)
  | struct (fields : FieldExprs)

inductive FieldExprs : Type 1 where
  | nil
  | cons (name : String) (t : TypeExpr) (rest : FieldExprs)

end

mutual

def TypeExpr.Value : TypeExpr → Type
  | @TypeExpr.scalar α _ _ | @TypeExpr.whole α _ _ => α
  | .ptr t => Option t.Value
  | .slice t => Slice t.Value
  | .map t => Option (String → Option t.Value)
  | .struct fields => fields.Value

def FieldExprs.Value : FieldExprs → Type
  | .nil => Unit
  | .cons _ t rest => t.Value × rest.Value

end

mutual

def TypeExpr.update : (t : TypeExpr) → GoUpdate t.Value
  | .scalar zero read => .leaf (.scalar zero read)
  | .whole zero read => .leaf (.whole zero read)
  | .ptr t => t.update.ptr
  | .slice t => .collection (.slice t.update.toGoType)
  | .map t => .collection (.map t.update.toGoType)
  | .struct fields => .struct fields.update

def FieldExprs.update : (fields : FieldExprs) → FieldsUpdate fields.Value
  | .nil => .nil
  | .cons name t rest => .cons name t.update rest.update

end

mutual

/-- Where nothing is supplied, nothing can be left behind. -/
lemma TypeExpr.clean_nil : ∀ (t : TypeExpr) (v : t.Value), t.update.clean [] v
  | .scalar _ _, _ | .whole _ _, _ => trivial
  | .ptr _, _ | .slice _, _ | .map _, _ => fun h => absurd rfl h
  | .struct fields, v => fields.clean_nil v

lemma FieldExprs.clean_nil : ∀ (fields : FieldExprs) (v : fields.Value),
    fields.update.clean (fun _ => []) v
  | .nil, _ => trivial
  | .cons name t rest, v => by
    have hrest := rest.clean_nil v.2
    have hwithout : (fun _ => []) = FieldsUpdate.without name fun _ => [] := by
      funext n
      simp
    rw [hwithout] at hrest
    exact ⟨t.clean_nil v.1, hrest⟩

end

/-- Nothing is left behind in any field. -/
def FieldExprs.Clean : (fields : FieldExprs) → (String → List Json) → fields.Value → Prop
  | .nil, _, _ => True
  | .cons name t rest, js, v => t.update.clean (js name) v.1 ∧ rest.Clean js v.2

lemma FieldExprs.clean_congr : ∀ {fields : FieldExprs} {js js' : String → List Json}
    {v : fields.Value}, (∀ n ∈ fields.update.names, js n = js' n) →
      (fields.Clean js v ↔ fields.Clean js' v)
  | .nil, _, _, _, _ => Iff.rfl
  | .cons name t rest, js, js', v, h => by
    rw [Clean, Clean, h name List.mem_cons_self]
    exact and_congr Iff.rfl (clean_congr fun n hn => h n (List.mem_cons_of_mem name hn))

lemma FieldExprs.update_clean : ∀ {fields : FieldExprs} {js : String → List Json}
    {v : fields.Value}, fields.update.names.Nodup → (fields.update.clean js v ↔ fields.Clean js v)
  | .nil, _, _, _ => Iff.rfl
  | .cons name t rest, js, v, h => by
    obtain ⟨hname, hrest⟩ := List.nodup_cons.mp h
    refine and_congr Iff.rfl ((update_clean hrest).trans (clean_congr fun n hn => ?_))
    have hne : n ≠ name := by
      rintro rfl
      exact hname hn
    exact if_neg hne

/-! ### Which field a member is for -/

variable {name : String}

namespace GoType

/-- The letters of a name, whatever their case. -/
def letters (name : String) : List Char := name.toList.map GoJson.foldRune

lemma sameName_iff {key : String} : GoJson.sameName key name = true ↔ letters key = letters name :=
  beq_iff_eq

namespace Fields

variable {ρ : Type} {F : Fields ρ}

lemma find_eq_iff (hd : (F.names.map letters).Nodup) (key : String) (hname : name ∈ F.names) :
    F.find key = some name ↔ letters key = letters name := by
  have huniq : ∀ n ∈ F.names, letters n = letters name → n = name := fun n hn heq =>
    List.inj_on_of_nodup_map hd hn hname heq
  unfold find
  split
  · next hmem =>
    rw [Option.some_inj]
    exact ⟨fun h => h ▸ rfl, huniq key hmem⟩
  · constructor
    · intro h
      exact sameName_iff.mp (List.find?_some h)
    · intro h
      cases hf : F.names.find? (GoJson.sameName key) with
      | none => exact absurd (sameName_iff.mpr h) (List.find?_eq_none.mp hf name hname)
      | some n =>
        have hn := sameName_iff.mp (List.find?_some hf)
        rw [huniq n (List.mem_of_find?_eq_some hf) (hn.symm.trans h)]

lemma valuesOf_resolve (hd : (F.names.map letters).Nodup) (hname : name ∈ F.names)
    (ms : List (String × Json)) : valuesOf (F.resolve ms) name =
      (ms.filter fun m => GoJson.sameName m.1 name).map Prod.snd := by
  induction ms with
  | nil => rfl
  | cons m ms ih =>
    have hm := (find_eq_iff hd m.1 hname).trans sameName_iff.symm
    unfold valuesOf resolve at ih ⊢
    rw [List.filterMap_cons, List.filter_cons]
    cases hfind : F.find m.1 with
    | none =>
      rw [hfind] at hm
      rw [if_neg fun h => nomatch hm.mpr h]
      exact ih
    | some n =>
      rw [hfind, Option.some_inj] at hm
      by_cases hn : n = name
      · simp [hn, hm.mp hn, ih]
      · simp [hn, mt hm.mpr hn, ih]

end Fields

/-- Decoding an object into a struct with one raw field: the text of its last member. -/
def rawField (name : String) (j : Json) : Option (Option Json) :=
  GoJson.decodeStruct
    (fun old key v => some (if GoJson.sameName key name then some v else old)) none j

end GoType

/-- The raw field has the last of the values for the field. -/
lemma GoUpdate.rawField_eq {ρ : Type} {F : Fields ρ} (hd : (F.names.map letters).Nodup)
    (hname : name ∈ F.names) {j : Json} {raw : Option Json}
    (h : rawField name j = some raw) : raw = (byField F [j] name).getLast? := by
  cases j with
  | null =>
    cases h
    rfl
  | bool | num | negZero | str | arr => cases h
  | obj ms =>
    -- By induction on the members, for any raw value before them.
    have hfold : ∀ (ms : List (String × Json)) (old : Option Json),
        ms.foldlM (fun old m => some (if GoJson.sameName m.1 name then some m.2 else old)) old =
          some raw →
        raw = ((ms.filter fun m => GoJson.sameName m.1 name).map Prod.snd).getLast?.or old := by
      intro ms
      induction ms with
      | nil =>
        intro old hold
        cases hold
        rfl
      | cons m ms ih =>
        intro old hold
        rw [ih _ hold, List.filter_cons]
        split
        · rw [List.map_cons, List.getLast?_cons]
          cases ((ms.filter fun m => GoJson.sameName m.1 name).map Prod.snd).getLast? <;> rfl
        · rfl
    rw [hfold ms none h, Option.or_none, byField, List.flatMap_singleton, membersOf,
      Fields.valuesOf_resolve hd hname]

lemma GoUpdate.byField_ne_nil {ρ : Type} {F : Fields ρ} {j : Json} {js : List Json}
    (hj : j ∈ js) (h : byField F [j] name ≠ []) : byField F js name ≠ [] := by
  obtain ⟨r, hr⟩ := List.exists_mem_of_ne_nil _ h
  refine List.ne_nil_of_mem (a := r) ?_
  simp only [byField, valuesOf, List.mem_map, List.mem_filter, List.mem_flatMap,
    List.mem_singleton] at hr ⊢
  obtain ⟨e, ⟨⟨i, rfl, he⟩, hn⟩, rfl⟩ := hr
  exact ⟨e, ⟨⟨i, hj, he⟩, hn⟩, rfl⟩

end Seaplane.Lib
