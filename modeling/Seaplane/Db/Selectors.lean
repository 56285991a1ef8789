import Mathlib.Data.List.Dedup
import Mathlib.Data.List.Sort
import Seaplane.Db.Row
import Seaplane.Lib.Fallible
import Seaplane.Lib.Where

/-!
Selectors as conditions on rows.

A list carries a label selector and a field selector. Both are translated to conditions of the
query's WHERE clause, each placeholder counted over the arguments before it. For label selectors
the two meanings are the same: the translation tells an absent label from NULL. Field selectors
take an absent field for the empty string, their translation for NULL, and a selector that matches
nothing is translated to no condition at all.
-/

namespace Seaplane.Db.Selectors

open Lib Lib.Where

/-! ### Rows as the query sees them -/

inductive DocColumn where
  | metadata
  | spec
  | status

inductive TextColumn where
  | name
  | ns
  | uid

abbrev Clause := Where.Cond DocColumn TextColumn

/-- How values that are no strings are written as text, and how text is read as a number. -/
structure Texts where
  uid : Uid → String
  time : Time → String
  render : Json → String
  bigint : BigintInput

def rowView (t : Texts) (k : Key) (r : Row) : View DocColumn TextColumn where
  json
    | .metadata => r.metadata
    | .spec => r.spec
    | .status => r.status
  text
    | .name => k.name
    | .ns => k.ns
    | .uid => t.uid r.uid
  render := t.render
  bigint := t.bigint

/-- The clauses, joined by AND, select the row. -/
def Satisfies (t : Texts) (args : List Where.Arg) (cs : List Clause) (k : Key) (r : Row) : Prop :=
  ∀ c ∈ cs, c.Holds (rowView t k r) args

instance (t : Texts) (args : List Where.Arg) (cs : List Clause) (k : Key) (r : Row) :
    Decidable (Satisfies t args cs k r) :=
  inferInstanceAs (Decidable (∀ c ∈ cs, c.eval (rowView t k r) args = some (some true)))

inductive Operator where
  | equals
  | doubleEquals
  | notEquals
  | in
  | notIn
  | exists
  | doesNotExist
  | greaterThan
  | lessThan
  deriving DecidableEq

inductive FilterError where
  | valueRequired (key : String) (op : Operator) (values : List String)
  | oneIntegerRequired (key : String) (op : Operator) (values : List String)
  | int64Required (key : String) (op : Operator) (values : List String)
  | unsupportedFieldOperator (op : Operator)
  | invalidFieldSelector (field : String)
  | unsupportedRoot (root : String)
  | invalidPathSegment (segment : String)
  | invalidContinue

/-! ### Label selectors -/

/-- What `NewRequirement` demands of the values. -/
def Operator.admits : Operator → List String → Bool
  | .in, vs | .notIn, vs => !vs.isEmpty
  | .equals, vs | .doubleEquals, vs | .notEquals, vs => vs.length == 1
  | .exists, vs | .doesNotExist, vs => vs.isEmpty
  | .greaterThan, vs | .lessThan, vs =>
    vs.length == 1 && vs.all fun v => (parseInt64 v.toList).isSome

structure LabelRequirement where
  key : String
  op : Operator
  values : List String
  admitted : op.admits values

inductive LabelSelector where
  | nothing
  | requirements (rs : List LabelRequirement)

def LabelSelector.empty : LabelSelector → Bool
  | .nothing => false
  | .requirements rs => rs.isEmpty

/-- The label of a key; of two entries of one key the later one counts. -/
def labelOf (key : String) : List (String × String) → Option String
  | [] => none
  | (k, v) :: ls => (labelOf key ls).or (if k = key then some v else none)

def LabelRequirement.matches (q : LabelRequirement) (labels : List (String × String)) : Bool :=
  match q.op with
  | .in | .equals | .doubleEquals =>
    match labelOf q.key labels with
    | none => false
    | some v => q.values.contains v
  | .notIn | .notEquals =>
    match labelOf q.key labels with
    | none => true
    | some v => !q.values.contains v
  | .exists => (labelOf q.key labels).isSome
  | .doesNotExist => (labelOf q.key labels).isNone
  | .greaterThan | .lessThan =>
    match labelOf q.key labels with
    | none => false
    | some v =>
      match parseInt64 v.toList, q.values with
      | some n, [w] =>
        match parseInt64 w.toList with
        | some m => if q.op = .greaterThan then decide (n > m) else decide (n < m)
        | none => false
      | _, _ => false

def LabelSelector.matches (labels : List (String × String)) : LabelSelector → Bool
  | .nothing => false
  | .requirements rs => rs.all (·.matches labels)

/-- `metadata->'labels'`. -/
def labelsExpr : JsonExpr DocColumn := .field (.column .metadata) "labels"

def valuesList (q : LabelRequirement) : List String := q.values.dedup.insertionSort (· ≤ ·)

def labelValueMatch (key value : String) (paramIdx : ℕ) : Clause × Where.Arg :=
  (.contains labelsExpr paramIdx, .object [(key, value)])

def labelNumericMatch (key : String) (op : Operator) (value : String) (startParam : ℕ) :
    Clause × List Where.Arg :=
  let labelValue := .fieldAt labelsExpr startParam
  let comparison :=
    if op = .lessThan then Where.Cond.lt labelValue (startParam + 1)
    else Where.Cond.gt labelValue (startParam + 1)
  (.caseWhen (.and (.isSignedDigits labelValue) (.isBigint labelValue)) comparison,
    [.text key, .text value])

/-- The matches of all values, each with a placeholder of its own. -/
def labelValueMatches (key : String) (values : List String) (paramIdx : ℕ) :
    List (Clause × Where.Arg) :=
  values.zipIdx.map fun e => labelValueMatch key e.1 (paramIdx + e.2)

def labelRequirementFilter (q : LabelRequirement) (paramIdx : ℕ) :
    Except FilterError (Clause × List Where.Arg) :=
  let values := valuesList q
  match q.op with
  | .equals | .doubleEquals | .in =>
    match labelValueMatches q.key values paramIdx with
    | [] => .error (.valueRequired q.key q.op q.values)
    | m :: ms => .ok (m.1.joinOr (ms.map (·.1)), (m :: ms).map (·.2))
  | .notEquals | .notIn =>
    match labelValueMatches q.key values paramIdx with
    | [] => .ok (.true, [])
    | m :: ms => .ok (.notCoalesce (m.1.joinOr (ms.map (·.1))), (m :: ms).map (·.2))
  | .greaterThan | .lessThan =>
    match values with
    | [value] =>
      if (parseInt64 value.toList).isSome then .ok (labelNumericMatch q.key q.op value paramIdx)
      else .error (.int64Required q.key q.op q.values)
    | _ => .error (.oneIntegerRequired q.key q.op q.values)
  | .exists => .ok (.hasKey labelsExpr paramIdx, [.text q.key])
  | .doesNotExist => .ok (.notCoalesce (.hasKey labelsExpr paramIdx), [.text q.key])

def labelRequirementsFilter : List LabelRequirement → ℕ →
    Except FilterError (List Clause × List Where.Arg)
  | [], _ => .ok ([], [])
  | q :: qs, paramIdx => do
    let (c, as) ← labelRequirementFilter q paramIdx
    let (cs, bs) ← labelRequirementsFilter qs (paramIdx + as.length)
    return (c :: cs, as ++ bs)

def buildLabelSelectorFilter (sel : Option LabelSelector) (startParam : ℕ) :
    Except FilterError (List Clause × List Where.Arg) :=
  match sel with
  | none => .ok ([], [])
  | some sel =>
    if sel.empty then .ok ([], [])
    else
      match sel with
      | .nothing => .ok ([.false], [])
      | .requirements rs => labelRequirementsFilter rs startParam

/-! ### Field selectors -/

inductive FieldSelector where
  | nothing
  | has (field value : String)
  | notHas (field value : String)
  | and (terms : List FieldSelector)

structure FieldRequirement where
  field : String
  op : Operator
  value : String

mutual

def FieldSelector.empty : FieldSelector → Bool
  | .nothing | .has _ _ | .notHas _ _ => false
  | .and terms => FieldSelector.emptyAll terms

def FieldSelector.emptyAll : List FieldSelector → Bool
  | [] => true
  | t :: ts => t.empty && emptyAll ts

end

mutual

def FieldSelector.requirements : FieldSelector → List FieldRequirement
  | .nothing => []
  | .has field value => [⟨field, .equals, value⟩]
  | .notHas field value => [⟨field, .notEquals, value⟩]
  | .and terms => FieldSelector.requirementsAll terms

def FieldSelector.requirementsAll : List FieldSelector → List FieldRequirement
  | [] => []
  | t :: ts => t.requirements ++ requirementsAll ts

end

mutual

/-- The fields are read by `get`, which returns the empty string for an absent one. -/
def FieldSelector.matches (get : String → String) : FieldSelector → Bool
  | .nothing => false
  | .has field value => get field == value
  | .notHas field value => get field != value
  | .and terms => FieldSelector.matchesAll get terms

def FieldSelector.matchesAll (get : String → String) : List FieldSelector → Bool
  | [] => true
  | t :: ts => t.matches get && matchesAll get ts

end

/-- `strings.Split(s, ".")`. -/
def splitDots : List Char → List (List Char)
  | [] => [[]]
  | c :: cs =>
    if c = '.' then [] :: splitDots cs
    else
      match splitDots cs with
      | [] => [[c]]
      | s :: ss => (c :: s) :: ss

/-- `strings.SplitN(s, ".", 2)`, if there are two parts. -/
def splitDot : List Char → Option (List Char × List Char)
  | [] => none
  | c :: cs => if c = '.' then some ([], cs) else (splitDot cs).map fun p => (c :: p.1, p.2)

/-- The pattern `^[a-zA-Z_][a-zA-Z0-9_]*$`. -/
def validPathSegment : List Char → Bool
  | [] => false
  | c :: cs => (c.isAlpha || c == '_') && cs.all fun c => c.isAlphanum || c == '_'

def arrows (e : JsonExpr DocColumn) (s : List Char) :
    List (List Char) → TextExpr DocColumn TextColumn
  | [] => .field e (.ofList s)
  | t :: ts => arrows (.field e (.ofList s)) t ts

def jsonbPathToSQL (column : DocColumn) (path : List Char) :
    Except FilterError (TextExpr DocColumn TextColumn) :=
  match (splitDots path).find? (!validPathSegment ·) with
  | some segment => .error (.invalidPathSegment (.ofList segment))
  | none =>
    match splitDots path with
    | [] => .error (.invalidPathSegment "")
    | s :: ss => .ok (arrows (.column column) s ss)

def metadataFieldToSQL (field : List Char) : Except FilterError (TextExpr DocColumn TextColumn) :=
  if field = "name".toList then .ok (.column .name)
  else if field = "namespace".toList then .ok (.column .ns)
  else if field = "uid".toList then .ok (.column .uid)
  else jsonbPathToSQL .metadata field

def fieldPathToSQL (field : String) : Except FilterError (TextExpr DocColumn TextColumn) :=
  match splitDot field.toList with
  | none => .error (.invalidFieldSelector field)
  | some (root, rest) =>
    if root = "metadata".toList then metadataFieldToSQL rest
    else if root = "spec".toList then jsonbPathToSQL .spec rest
    else if root = "status".toList then jsonbPathToSQL .status rest
    else .error (.unsupportedRoot (.ofList root))

def fieldRequirementToSQL (q : FieldRequirement) (paramIdx : ℕ) : Except FilterError Clause :=
  match q.op with
  | .equals | .doubleEquals => do return .eq (← fieldPathToSQL q.field) paramIdx
  | .notEquals => do return .ne (← fieldPathToSQL q.field) paramIdx
  | op => .error (.unsupportedFieldOperator op)

def fieldRequirementsFilter : List FieldRequirement → ℕ →
    Except FilterError (List Clause × List Where.Arg)
  | [], _ => .ok ([], [])
  | q :: qs, paramIdx => do
    let c ← fieldRequirementToSQL q paramIdx
    let (cs, as) ← fieldRequirementsFilter qs (paramIdx + 1)
    return (c :: cs, .text q.value :: as)

def buildFieldSelectorFilter (sel : Option FieldSelector) (startParam : ℕ) :
    Except FilterError (List Clause × List Where.Arg) :=
  match sel with
  | none => .ok ([], [])
  | some sel =>
    if sel.empty then .ok ([], []) else fieldRequirementsFilter sel.requirements startParam

/-! ### The filter of a list -/

inductive ContinueToken where
  | empty
  | invalid
  | offset (n : ℤ)
  deriving DecidableEq

def decodeContinue : ContinueToken → Except FilterError ℤ
  | .empty => .ok 0
  | .invalid => .error .invalidContinue
  | .offset n => .ok n

def encodeContinue (offset : ℤ) : ContinueToken := .offset offset

structure ListOptions where
  ns : String
  fieldSelector : Option FieldSelector
  labelSelector : Option LabelSelector
  limit : ℤ
  continueToken : ContinueToken

structure ListFilter where
  whereClauses : List Clause
  whereArgs : List Where.Arg
  limit : ℤ
  offset : ℤ

/-- The condition on the namespace; `$1` is the kind. -/
def namespaceFilter (ns : String) : List Clause × List Where.Arg :=
  if ns = "" then ([], []) else ([.eq (.column .ns) 2], [.text ns])

def pageOf (opts : ListOptions) : Except FilterError (ℤ × ℤ) :=
  if 0 < opts.limit then do return (opts.limit, ← decodeContinue opts.continueToken)
  else .ok (0, 0)

/-- The filter, or none if it would filter nothing. -/
def filterOf (whereClauses : List Clause) (whereArgs : List Where.Arg) (page : ℤ × ℤ) :
    Option ListFilter :=
  if page.1 = 0 ∧ whereClauses = [] then none else some ⟨whereClauses, whereArgs, page.1, page.2⟩

def buildListFilter (opts : ListOptions) : Except FilterError (Option ListFilter) := do
  let ns := namespaceFilter opts.ns
  let field ← buildFieldSelectorFilter opts.fieldSelector (2 + ns.2.length)
  let label ← buildLabelSelectorFilter opts.labelSelector (2 + ns.2.length + field.2.length)
  let page ← pageOf opts
  return filterOf (ns.1 ++ field.1 ++ label.1) (ns.2 ++ field.2 ++ label.2) page

/-- The conditions that the filter adds to the query. -/
def clausesOf (f : Option ListFilter) : List Clause := (f.map (·.whereClauses)).getD []

/-- The arguments of the query: the kind, those of the conditions, the limit and the offset. -/
def listArgs (gvk : String) : Option ListFilter → List Where.Arg
  | none => [.text gvk]
  | some f =>
    .text gvk :: f.whereArgs ++ (if 0 < f.limit then .bigint f.limit ::
      (if 0 < f.offset then [.bigint f.offset] else []) else [])

/-! ### What a label clause means -/

lemma get?_stringMap (key : String) (ls : List (String × String)) :
    (stringMap ls).get? key = (labelOf key ls).map .str := by
  unfold stringMap Json.get?
  induction ls with
  | nil => rfl
  | cons e ls ih =>
    simp only [List.map_cons, Json.lastMember, labelOf, ih]
    cases labelOf key ls with
    | some v => rfl
    | none => by_cases hk : e.1 = key <;> simp [hk]

lemma any_key_eq_isSome (key : String) (ls : List (String × String)) :
    (ls.any (·.1 == key)) = (labelOf key ls).isSome := by
  induction ls with
  | nil => rfl
  | cons e ls ih =>
    simp only [List.any_cons, labelOf, ih, Option.isSome_or]
    by_cases hk : e.1 = key <;> simp [hk]

lemma get?_labels (m : StoredMetadata) :
    m.toJson.get? "labels" = if m.labels.isEmpty then none else some (stringMap m.labels) := by
  simp [StoredMetadata.toJson, Json.get?, Json.lastMember_append]

variable {i : ℕ} {cs : List Clause} {rest : List Char}

variable {as : List Where.Arg} {opts : ListOptions}

section Labels

variable {t : Texts} {k : Key} {r : Row} {m : StoredMetadata} {args : List Where.Arg}
  (hr : r.metadata = m.toJson)
include hr

lemma eval_labelsExpr : labelsExpr.eval (rowView t k r) =
    if m.labels.isEmpty then none else some (stringMap m.labels) := by
  rw [← get?_labels, ← hr]
  rfl

lemma eval_label (key : String) :
    ((labelsExpr.eval (rowView t k r)).bind fun j => (j.get? key).bind (asText (rowView t k r))) =
      labelOf key m.labels := by
  rw [eval_labelsExpr hr]
  cases hl : m.labels with
  | nil => rfl
  | cons e ls =>
    simp only [List.isEmpty_cons, Bool.false_eq_true, if_false, Option.bind_some, get?_stringMap]
    cases labelOf key (e :: ls) <;> rfl

variable {key : String}

lemma means_contains {value : String} (hi : objectParam args i = some [(key, value)]) :
    (Where.Cond.contains labelsExpr i).Means (rowView t k r) args
      (labelOf key m.labels = some value) := by
  refine ⟨_, by rw [Where.Cond.eval, hi]; rfl, ?_⟩
  rw [Truth.holds_cmp, eval_labelsExpr hr]
  cases hl : m.labels with
  | nil => simp [labelOf]
  | cons e ls =>
    have hget := get?_stringMap key (e :: ls)
    simp only [List.isEmpty_cons, Bool.false_eq_true, if_false, Option.any_some, containsMembers,
      List.all_cons, List.all_nil, Bool.and_true, hget]
    cases labelOf key (e :: ls) <;> simp [stringMap]

lemma means_hasKey (hi : textParam args i = some key) :
    (Where.Cond.hasKey labelsExpr i).Means (rowView t k r) args
      ((labelOf key m.labels).isSome) := by
  refine ⟨_, by rw [Where.Cond.eval, hi]; rfl, ?_⟩
  rw [Truth.holds_cmp, eval_labelsExpr hr]
  cases hl : m.labels with
  | nil => simp [labelOf]
  | cons e ls =>
    have hany := any_key_eq_isSome key (e :: ls)
    simp only [List.isEmpty_cons, Bool.false_eq_true, if_false, Option.any_some, stringMap,
      hasTopLevel, List.any_map, Function.comp_def]
    rw [hany]

lemma means_numeric {value : String} {b : ℤ} {op : Operator} (hi : textParam args i = some key)
    (hj : textParam args (i + 1) = some value) (hb : parseInt64 value.toList = some b) :
    (labelNumericMatch key op value i).1.Means (rowView t k r) args (∃ v n,
      labelOf key m.labels = some v ∧ parseInt64 v.toList = some n ∧
        if op = .lessThan then n < b else n > b) := by
  have hvalue : TextExpr.eval (rowView t k r) args (.fieldAt labelsExpr i) =
      some (labelOf key m.labels) := by
    rw [TextExpr.eval, hi]
    exact congrArg some (eval_label hr key)
  have htests : (Where.Cond.and (.isSignedDigits (.fieldAt labelsExpr i))
      (.isBigint (.fieldAt labelsExpr i))).Means (rowView t k r) args
        (∃ v n, labelOf key m.labels = some v ∧ parseInt64 v.toList = some n) := by
    refine ((means_isSignedDigits hvalue).and (means_isBigint hvalue)).congr ?_
    cases labelOf key m.labels with
    | none => simp
    | some v =>
      refine t.bigint.tests_iff.trans ?_
      simp [Option.isSome_iff_exists]
  refine (htests.caseWhen fun ⟨v, n, hv, hn⟩ => ?_).congr (and_iff_right_of_imp ?_)
  · rw [hv] at hvalue
    have hnr := t.bigint.read_of_parseInt64 hn
    have hbr := t.bigint.read_of_parseInt64 hb
    have hiff : (∃ v n, labelOf key m.labels = some v ∧ parseInt64 v.toList = some n ∧
        if op = .lessThan then n < b else n > b) ↔ if op = .lessThan then n < b else n > b := by
      simp [hv, hn]
    rw [hiff]
    split
    · exact means_lt hvalue hj hnr hbr
    · exact means_gt hvalue hj hnr hbr
  · rintro ⟨v, n, hv, hn, -⟩
    exact ⟨v, n, hv, hn⟩

omit hr in
lemma mem_valuesList {q : LabelRequirement} {v : String} : v ∈ valuesList q ↔ v ∈ q.values := by
  rw [valuesList, List.mem_insertionSort, List.mem_dedup]

lemma means_labelValueMatch {values : List String}
    (hb : Bound args i ((labelValueMatches key values i).map (·.2))) {e : String × ℕ}
    (he : e ∈ values.zipIdx) :
    (labelValueMatch key e.1 (i + e.2)).1.Means (rowView t k r) args
      (labelOf key m.labels = some e.1) := by
  have hget : values[e.2]? = some e.1 := List.mem_zipIdx_iff_getElem?.mp he
  obtain ⟨hlt, hval⟩ := List.getElem?_eq_some_iff.mp hget
  have hparam := hb e.2 (by simpa [labelValueMatches] using hlt)
  refine means_contains hr ?_
  rw [objectParam, hparam]
  simp [labelValueMatches, labelValueMatch, hval]

lemma means_labelValueMatches {values : List String} {c : Clause × Where.Arg}
    {cs : List (Clause × Where.Arg)}
    (hc : labelValueMatches key values i = c :: cs) (hb : Bound args i ((c :: cs).map (·.2))) :
    (c.1.joinOr (cs.map (·.1))).Means (rowView t k r) args
      (∃ v ∈ values, labelOf key m.labels = some v) := by
  rw [← hc] at hb
  have hvalues : ∀ P : String → Prop, (∃ v ∈ values, P v) ↔ ∃ e ∈ values.zipIdx, P e.1 := by
    intro P
    constructor
    · rintro ⟨v, hv, hP⟩
      obtain ⟨n, hn⟩ := List.getElem?_of_mem hv
      exact ⟨(v, n), List.mem_zipIdx_iff_getElem?.mpr hn, hP⟩
    · rintro ⟨e, he, hP⟩
      exact ⟨e.1, List.mem_of_getElem? (List.mem_zipIdx_iff_getElem?.mp he), hP⟩
  cases hz : values.zipIdx with
  | nil =>
    rw [labelValueMatches, hz] at hc
    cases hc
  | cons e es =>
    rw [labelValueMatches, hz, List.map_cons] at hc
    obtain ⟨rfl, rfl⟩ := List.cons.inj hc
    have hmeans : ∀ x ∈ e :: es, (labelValueMatch key x.1 (i + x.2)).1.Means (rowView t k r) args
        (labelOf key m.labels = some x.1) := fun x hx =>
      means_labelValueMatch hr hb (hz ▸ hx)
    have hjoin := means_joinOr (hmeans e List.mem_cons_self)
      fun x hx => hmeans x (List.mem_cons_of_mem e hx)
    rw [List.map_map]
    refine hjoin.congr ?_
    rw [hvalues, hz]
    simp

lemma means_labelRequirement {q : LabelRequirement} {c : Clause}
    (h : labelRequirementFilter q i = .ok (c, as)) (hb : Bound args i as) :
    c.Means (rowView t k r) args (q.matches m.labels) := by
  -- the two forms of a test for the values, and their negation
  have hin : ∀ {c cs}, labelValueMatches q.key (valuesList q) i = c :: cs →
      Bound args i ((c :: cs).map (·.2)) →
      (c.1.joinOr (cs.map (·.1))).Means (rowView t k r) args
        (∃ v ∈ q.values, labelOf q.key m.labels = some v) := by
    intro c cs hc hb
    refine (means_labelValueMatches hr hc hb).congr ?_
    simp only [mem_valuesList]
  have hnone : labelValueMatches q.key (valuesList q) i = [] → q.values = [] := by
    intro hnil
    have hz : valuesList q = [] := by simpa [labelValueMatches] using hnil
    refine List.eq_nil_iff_forall_not_mem.mpr fun v hv => ?_
    rw [← mem_valuesList, hz] at hv
    cases hv
  unfold labelRequirementFilter at h
  unfold LabelRequirement.matches
  cases hop : q.op with
  | equals | doubleEquals | «in» =>
    simp only [hop] at h
    split at h
    · cases h
    · next c' cs hc =>
      cases h
      refine (hin hc hb).congr ?_
      cases labelOf q.key m.labels <;> simp
  | notEquals | notIn =>
    simp only [hop] at h
    split at h
    · next hc =>
      cases h
      refine ⟨some true, rfl, ?_⟩
      rw [hnone hc]
      cases labelOf q.key m.labels <;> simp [Truth.holds]
    · next c' cs hc =>
      cases h
      refine (hin hc hb).notCoalesce.congr ?_
      cases labelOf q.key m.labels <;> simp
  | «exists» =>
    simp only [hop] at h
    cases h
    exact means_hasKey hr (textParam_of_bound hb)
  | doesNotExist =>
    simp only [hop] at h
    cases h
    refine (means_hasKey hr (textParam_of_bound hb)).notCoalesce.congr ?_
    cases labelOf q.key m.labels <;> simp
  | greaterThan | lessThan =>
    have hadm := q.admitted
    simp only [hop, Operator.admits, Bool.and_eq_true, beq_iff_eq] at hadm
    obtain ⟨w, hw⟩ := List.length_eq_one_iff.mp hadm.1
    have hlist : valuesList q = [w] := by simp [valuesList, hw]
    simp only [hop, hlist] at h
    split at h
    · next hsome =>
      obtain ⟨b, hbw⟩ := Option.isSome_iff_exists.mp hsome
      cases h
      refine (means_numeric hr (textParam_of_bound hb) (textParam_of_bound (bound_cons.mp hb).2)
        hbw).congr ?_
      rw [hw]
      cases labelOf q.key m.labels with
      | none => simp
      | some v => cases hv : parseInt64 v.toList <;> simp [hv, hbw]
    · cases h

lemma satisfies_labelRequirements {qs : List LabelRequirement}
    (h : labelRequirementsFilter qs i = .ok (cs, as)) (hb : Bound args i as) :
    Satisfies t args cs k r ↔ ∀ q ∈ qs, q.matches m.labels := by
  induction qs generalizing i cs as with
  | nil =>
    cases h
    simp [Satisfies]
  | cons q qs ih =>
    obtain ⟨⟨c, as₁⟩, hc, h⟩ := except_bind_ok h
    obtain ⟨⟨cs₂, as₂⟩, hcs, h⟩ := except_bind_ok h
    cases h
    obtain ⟨hb₁, hb₂⟩ := bound_append.mp hb
    have hhead : c.Holds (rowView t k r) args ↔ q.matches m.labels :=
      (means_labelRequirement hr hc hb₁).holds_iff
    have htail := ih hcs hb₂
    rw [List.forall_mem_cons, ← hhead, ← htail]
    exact List.forall_mem_cons

lemma satisfies_labelSelector {sel : LabelSelector}
    (h : buildLabelSelectorFilter (some sel) i = .ok (cs, as))
    (hb : Bound args i as) : Satisfies t args cs k r ↔ sel.matches m.labels := by
  unfold buildLabelSelectorFilter at h
  cases sel with
  | nothing =>
    cases h
    simp [Satisfies, Where.Cond.Holds, LabelSelector.matches]
  | requirements rs =>
    cases rs with
    | nil =>
      cases h
      simp [Satisfies, LabelSelector.matches]
    | cons q qs =>
      refine (satisfies_labelRequirements hr h hb).trans ?_
      simp [LabelSelector.matches]

end Labels

/-! ### What a field clause means -/

def fieldPath (field : String) : List String := (splitDots field.toList).map .ofList

def descend (j : Json) : List String → Option Json
  | [] => some j
  | s :: ss => (j.get? s).bind (descend · ss)

section Fields

variable (t : Texts) (k : Key) (r : Row)

def storedField : List String → Option Json
  | "metadata" :: path =>
    if path = ["name"] then some (.str k.name)
    else if path = ["namespace"] then some (.str k.ns)
    else if path = ["uid"] then some (.str (t.uid r.uid))
    else descend r.metadata path
  | "spec" :: path => descend r.spec path
  | "status" :: path => descend r.status path
  | _ => none

/-- What the object shows at a path: the metadata it is filled with, or what the row stores. -/
def objectField (path : List String) : Option Json :=
  if path = ["metadata", "resourceVersion"] then
    some (.str (.ofList (formatInt r.objectVersion)))
  else if path = ["metadata", "creationTimestamp"] then some (.str (t.time r.createdAt))
  else if path = ["metadata", "deletionTimestamp"] then
    r.deletionTimestamp.map fun d => .str (t.time d)
  else storedField t k r path

/-- The field as a selector reads it; an absent one is the empty string. -/
def fieldText (field : String) : String :=
  match objectField t k r (fieldPath field) with
  | some (.str s) => s
  | _ => ""

def Stored (field : String) : Prop := ∃ s, storedField t k r (fieldPath field) = some (.str s)

/-- The field is stored as a string or not at all. -/
def StringValued (field : String) : Prop :=
  storedField t k r (fieldPath field) = none ∨ storedField t k r (fieldPath field) = some .null ∨
    Stored t k r field

end Fields

lemma splitDots_ne_nil (cs : List Char) : splitDots cs ≠ [] := by
  cases cs with
  | nil => simp [splitDots]
  | cons c cs =>
    rw [splitDots]
    split
    · simp
    · cases splitDots cs <;> simp

lemma splitDots_of_splitDot {cs root : List Char} (h : splitDot cs = some (root, rest)) :
    splitDots cs = root :: splitDots rest := by
  induction cs generalizing root with
  | nil => cases h
  | cons c cs ih =>
    rw [splitDot] at h
    rw [splitDots]
    split at h
    · next hc =>
      cases h
      rw [if_pos hc]
    · next hc =>
      obtain ⟨p, hp, heq⟩ := Option.map_eq_some_iff.mp h
      cases heq
      rw [if_neg hc, ih hp]

lemma eq_of_splitDots {cs s : List Char} (h : splitDots cs = [s]) : cs = s := by
  induction cs generalizing s with
  | nil =>
    cases h
    rfl
  | cons c cs ih =>
    rw [splitDots] at h
    split at h
    · exact absurd (List.cons.inj h).2 (splitDots_ne_nil cs)
    · cases hs : splitDots cs with
      | nil => exact absurd hs (splitDots_ne_nil cs)
      | cons s' ss =>
        rw [hs] at h
        obtain ⟨rfl, rfl⟩ := List.cons.inj h
        rw [ih hs]

lemma splitDots_name_iff {name : String} (hname : splitDots name.toList = [name.toList]) :
    (splitDots rest).map String.ofList = [name] ↔ rest = name.toList := by
  constructor
  · intro h
    obtain ⟨s, hs, hname⟩ := List.map_eq_singleton_iff.mp h
    rw [eq_of_splitDots hs, ← hname, String.toList_ofList]
  · rintro rfl
    rw [hname, List.map_singleton, String.ofList_toList]

section Fields

variable {t : Texts} {k : Key} {r : Row} {args : List Where.Arg}

lemma eval_arrows (e : JsonExpr DocColumn) (s : List Char) (ss : List (List Char)) :
    (arrows e s ss).eval (rowView t k r) args = some ((e.eval (rowView t k r)).bind fun j =>
      (descend j ((s :: ss).map .ofList)).bind (asText (rowView t k r))) := by
  induction ss generalizing e s with
  | nil =>
    simp only [arrows, TextExpr.eval, List.map_cons, List.map_nil, descend]
    congr 2
    funext j
    cases j.get? (.ofList s) <;> rfl
  | cons s' ss ih =>
    rw [arrows, ih, JsonExpr.eval, Option.bind_assoc]
    congr 2
    funext j
    exact (Option.bind_assoc _ _ _).symm

variable {e : TextExpr DocColumn TextColumn}

lemma eval_jsonbPathToSQL {column : DocColumn} {path : List Char}
    (h : jsonbPathToSQL column path = .ok e) :
    e.eval (rowView t k r) args = some ((descend ((rowView t k r).json column)
      ((splitDots path).map .ofList)).bind (asText (rowView t k r))) := by
  unfold jsonbPathToSQL at h
  split at h
  · cases h
  · split at h
    · cases h
    · next s ss hs =>
      cases h
      rw [eval_arrows, hs]
      rfl

lemma eval_metadataFieldToSQL (h : metadataFieldToSQL rest = .ok e) : e.eval (rowView t k r) args =
      some ((storedField t k r ("metadata" :: (splitDots rest).map .ofList)).bind
        (asText (rowView t k r))) := by
  have hname := @splitDots_name_iff rest "name" (by decide)
  have hns := @splitDots_name_iff rest "namespace" (by decide)
  have huid := @splitDots_name_iff rest "uid" (by decide)
  unfold metadataFieldToSQL at h
  simp only [storedField, hname, hns, huid]
  split_ifs at h ⊢
  · cases h
    rfl
  · cases h
    rfl
  · cases h
    rfl
  · exact eval_jsonbPathToSQL h

lemma eval_fieldPathToSQL {field : String}
    (h : fieldPathToSQL field = .ok e) : e.eval (rowView t k r) args =
      some ((storedField t k r (fieldPath field)).bind (asText (rowView t k r))) := by
  unfold fieldPathToSQL at h
  split at h
  · cases h
  · next root rest hs =>
    rw [fieldPath, splitDots_of_splitDot hs, List.map_cons]
    split_ifs at h with hroot hroot hroot <;> rw [hroot, String.ofList_toList]
    · exact eval_metadataFieldToSQL h
    all_goals exact eval_jsonbPathToSQL h

def FieldRequirement.Selects (t : Texts) (k : Key) (r : Row) (q : FieldRequirement) : Prop :=
  ∃ s, (storedField t k r (fieldPath q.field)).bind (asText (rowView t k r)) = some s ∧
    if q.op = .notEquals then s ≠ q.value else s = q.value

/-- A requirement as the selector decides it. -/
def FieldRequirement.matches (get : String → String) (q : FieldRequirement) : Bool :=
  if q.op = .notEquals then get q.field != q.value else get q.field == q.value

lemma holds_fieldRequirement {q : FieldRequirement} {c : Clause}
    (h : fieldRequirementToSQL q i = .ok c) (hi : textParam args i = some q.value) :
    c.Holds (rowView t k r) args ↔ q.Selects t k r := by
  have heq : ∀ {e : TextExpr DocColumn TextColumn}, fieldPathToSQL q.field = .ok e →
      ((Where.Cond.eq e i).Holds (rowView t k r) args ↔
        ((storedField t k r (fieldPath q.field)).bind (asText (rowView t k r))) =
          some q.value) := by
    intro e he
    rw [Where.Cond.Holds, Where.Cond.eval, hi, eval_fieldPathToSQL he]
    cases (storedField t k r (fieldPath q.field)).bind (asText (rowView t k r)) <;>
      simp [Truth.cmp]
  unfold fieldRequirementToSQL at h
  unfold FieldRequirement.Selects
  cases hop : q.op with
  | equals | doubleEquals =>
    simp only [hop] at h
    obtain ⟨e, he, h⟩ := except_bind_ok h
    cases h
    rw [heq he]
    simp
  | notEquals =>
    simp only [hop] at h
    obtain ⟨e, he, h⟩ := except_bind_ok h
    cases h
    rw [Where.Cond.Holds, Where.Cond.eval, hi, eval_fieldPathToSQL he]
    cases (storedField t k r (fieldPath q.field)).bind (asText (rowView t k r)) <;>
      simp [Truth.cmp]
  | «in» | notIn | «exists» | doesNotExist | greaterThan | lessThan =>
    simp only [hop] at h
    cases h

lemma satisfies_fieldRequirements {qs : List FieldRequirement}
    (h : fieldRequirementsFilter qs i = .ok (cs, as)) (hb : Bound args i as) :
    Satisfies t args cs k r ↔ ∀ q ∈ qs, q.Selects t k r := by
  induction qs generalizing i cs as with
  | nil =>
    cases h
    simp [Satisfies]
  | cons q qs ih =>
    obtain ⟨c, hc, h⟩ := except_bind_ok h
    obtain ⟨⟨cs', as'⟩, hcs, h⟩ := except_bind_ok h
    cases h
    rw [List.forall_mem_cons, ← holds_fieldRequirement hc (textParam_of_bound hb),
      ← ih hcs (bound_cons.mp hb).2]
    exact List.forall_mem_cons

/-! ### Field selectors and their requirements -/

mutual

/-- A selector that matches nothing is part of it. -/
def FieldSelector.hasNothing : FieldSelector → Bool
  | .nothing => true
  | .has _ _ | .notHas _ _ => false
  | .and terms => FieldSelector.hasNothingAll terms

def FieldSelector.hasNothingAll : List FieldSelector → Bool
  | [] => false
  | t :: ts => t.hasNothing || hasNothingAll ts

end

mutual

lemma FieldSelector.matches_eq (get : String → String) : ∀ sel : FieldSelector,
    sel.matches get = (!sel.hasNothing && sel.requirements.all (·.matches get))
  | .nothing => rfl
  | .has _ _ => by simp [FieldSelector.matches, hasNothing, requirements, FieldRequirement.matches]
  | .notHas _ _ => by
    simp [FieldSelector.matches, hasNothing, requirements, FieldRequirement.matches]
  | .and terms => matchesAll_eq get terms

lemma FieldSelector.matchesAll_eq (get : String → String) : ∀ terms : List FieldSelector,
    matchesAll get terms = (!hasNothingAll terms && (requirementsAll terms).all (·.matches get))
  | [] => rfl
  | t :: ts => by
    rw [matchesAll, FieldSelector.matches_eq get t, matchesAll_eq get ts, hasNothingAll,
      requirementsAll, List.all_append, Bool.not_or]
    cases t.hasNothing <;> cases hasNothingAll ts <;> simp

end

mutual

lemma FieldSelector.of_empty : ∀ sel : FieldSelector, sel.empty → sel.requirements = [] ∧
    sel.hasNothing = false
  | .nothing, h | .has _ _, h | .notHas _ _, h => by simp [empty] at h
  | .and terms, h => of_emptyAll terms h

lemma FieldSelector.of_emptyAll : ∀ terms : List FieldSelector, emptyAll terms →
    requirementsAll terms = [] ∧ hasNothingAll terms = false
  | [], _ => ⟨rfl, rfl⟩
  | t :: ts, h => by
    rw [emptyAll, Bool.and_eq_true] at h
    obtain ⟨hreq, hno⟩ := FieldSelector.of_empty t h.1
    obtain ⟨hreqs, hnos⟩ := of_emptyAll ts h.2
    simp [requirementsAll, hasNothingAll, hreq, hno, hreqs, hnos]

end

lemma satisfies_fieldSelector {sel : FieldSelector}
    (h : buildFieldSelectorFilter (some sel) i = .ok (cs, as)) (hb : Bound args i as) :
    Satisfies t args cs k r ↔ ∀ q ∈ sel.requirements, q.Selects t k r := by
  rw [buildFieldSelectorFilter] at h
  split at h
  · next hempty =>
    cases h
    rw [(sel.of_empty hempty).1]
    simp [Satisfies]
  · exact satisfies_fieldRequirements h hb

end Fields

/-! ### The filter and its parts -/

lemma args_of_no_fieldClauses {sel : Option FieldSelector}
    (h : buildFieldSelectorFilter sel i = .ok ([], as)) : as = [] := by
  unfold buildFieldSelectorFilter at h
  split at h
  · cases h
    rfl
  · next sel =>
    split at h
    · cases h
      rfl
    · cases hq : sel.requirements with
      | nil =>
        rw [hq] at h
        cases h
        rfl
      | cons q qs =>
        rw [hq] at h
        obtain ⟨c, -, h⟩ := except_bind_ok h
        obtain ⟨p, -, h⟩ := except_bind_ok h
        cases h

lemma args_of_no_labelClauses {sel : Option LabelSelector}
    (h : buildLabelSelectorFilter sel i = .ok ([], as)) : as = [] := by
  cases sel with
  | none =>
    cases h
    rfl
  | some sel =>
    cases sel with
    | nothing => cases h
    | requirements rs =>
      cases rs with
      | nil =>
        cases h
        rfl
      | cons q qs =>
        obtain ⟨p, -, h⟩ := except_bind_ok h
        obtain ⟨p', -, h⟩ := except_bind_ok h
        cases h

/-- A filter is put together from the conditions on the namespace, the fields and the labels, and
its arguments from theirs. -/
structure Parts (opts : ListOptions) (f : Option ListFilter) (fieldClauses : List Clause)
    (fieldArgs : List Where.Arg) (labelClauses : List Clause)
    (labelArgs : List Where.Arg) : Prop where
  field : buildFieldSelectorFilter opts.fieldSelector
    (2 + (namespaceFilter opts.ns).2.length) = .ok (fieldClauses, fieldArgs)
  label : buildLabelSelectorFilter opts.labelSelector
    (2 + (namespaceFilter opts.ns).2.length + fieldArgs.length) = .ok (labelClauses, labelArgs)
  clauses : clausesOf f = (namespaceFilter opts.ns).1 ++ fieldClauses ++ labelClauses
  args : ∀ gvk, ∃ rest, listArgs gvk f =
    .text gvk :: ((namespaceFilter opts.ns).2 ++ fieldArgs ++ labelArgs) ++ rest

lemma buildListFilter_ok {f : Option ListFilter}
    (h : buildListFilter opts = .ok f) : ∃ field label page,
      buildFieldSelectorFilter opts.fieldSelector (2 + (namespaceFilter opts.ns).2.length) =
        .ok field ∧
      buildLabelSelectorFilter opts.labelSelector
        (2 + (namespaceFilter opts.ns).2.length + field.2.length) = .ok label ∧
      pageOf opts = .ok page ∧
      filterOf ((namespaceFilter opts.ns).1 ++ field.1 ++ label.1)
        ((namespaceFilter opts.ns).2 ++ field.2 ++ label.2) page = f := by
  unfold buildListFilter at h
  generalize namespaceFilter opts.ns = ns at h ⊢
  obtain ⟨field, hf, h⟩ := except_bind_ok h
  obtain ⟨label, hl, h⟩ := except_bind_ok h
  obtain ⟨page, hp, h⟩ := except_bind_ok h
  exact ⟨field, label, page, hf, hl, hp, Except.ok.inj h⟩

lemma args_of_no_namespace {ns : String} (h : (namespaceFilter ns).1 = []) :
    (namespaceFilter ns).2 = [] := by
  unfold namespaceFilter at h ⊢
  split
  · rfl
  · next hne =>
    rw [if_neg hne] at h
    cases h

lemma parts_of_buildListFilter {f : Option ListFilter}
    (h : buildListFilter opts = .ok f) : ∃ fs as ls bs, Parts opts f fs as ls bs := by
  obtain ⟨⟨fs, as⟩, ⟨ls, bs⟩, page, hf, hl, -, rfl⟩ := buildListFilter_ok h
  refine ⟨fs, as, ls, bs, hf, hl, ?_, fun gvk => ?_⟩
  · unfold filterOf
    split
    · next hempty => exact hempty.2.symm
    · rfl
  · unfold filterOf
    split
    · next hempty =>
      -- no conditions, so no arguments
      have hnil := hempty.2
      rw [List.append_eq_nil_iff, List.append_eq_nil_iff] at hnil
      obtain ⟨⟨hns, rfl⟩, rfl⟩ := hnil
      rw [args_of_no_fieldClauses hf, args_of_no_labelClauses hl, args_of_no_namespace hns]
      exact ⟨[], rfl⟩
    · exact ⟨_, rfl⟩

section Parts

variable {opts : ListOptions} {f : Option ListFilter} {fs ls : List Clause} {as bs : List Where.Arg}

lemma Parts.bound (p : Parts opts f fs as ls bs) (gvk : String) :
    Bound (listArgs gvk f) 2 (namespaceFilter opts.ns).2 ∧
    Bound (listArgs gvk f) (2 + (namespaceFilter opts.ns).2.length) as ∧
    Bound (listArgs gvk f) (2 + (namespaceFilter opts.ns).2.length + as.length) bs := by
  obtain ⟨rest, hargs⟩ := p.args gvk
  have hall := bound_of_append [.text gvk] ((namespaceFilter opts.ns).2 ++ as ++ bs) rest
  rw [List.singleton_append, ← hargs, bound_append, bound_append] at hall
  obtain ⟨⟨hns, has⟩, hbs⟩ := hall
  refine ⟨hns, has, ?_⟩
  rwa [List.length_append, ← Nat.add_assoc] at hbs

lemma satisfies_namespace {t : Texts} {k : Key} {r : Row} {args : List Where.Arg} {ns : String}
    (hb : Bound args 2 (namespaceFilter ns).2) :
    Satisfies t args (namespaceFilter ns).1 k r ↔ ns = "" ∨ k.ns = ns := by
  unfold namespaceFilter at hb ⊢
  split
  · next hempty => simp [Satisfies, hempty]
  · next hne =>
    rw [if_neg hne] at hb
    have htext := textParam_of_bound hb
    simp [Satisfies, Where.Cond.Holds, Where.Cond.eval, htext, TextExpr.eval, rowView,
      Truth.cmp, hne]

lemma satisfies_fields {t : Texts} {k : Key} {r : Row} {args args' : List Where.Arg}
    {sel : Option FieldSelector} (h : buildFieldSelectorFilter sel i = .ok (fs, as))
    (hb : Bound args i as) (hb' : Bound args' i as) :
    Satisfies t args fs k r ↔ Satisfies t args' fs k r := by
  cases sel with
  | none =>
    cases h
    simp [Satisfies]
  | some sel => rw [satisfies_fieldSelector h hb, satisfies_fieldSelector h hb']

end Parts

/-- **Label selectors mean the same in SQL.** The clauses that a label selector adds to those of
the namespace and the fields select the rows whose labels it matches. -/
theorem label_selector_in_sql (t : Texts) (opts : ListOptions) (sel : LabelSelector)
    (f : Option ListFilter) (hsel : opts.labelSelector = some sel)
    (h : buildListFilter opts = .ok f) :
    ∃ f₀ cs, buildListFilter { opts with labelSelector := none } = .ok f₀ ∧
      clausesOf f = clausesOf f₀ ++ cs ∧
      ∀ (gvk : String) (k : Key) (r : Row) (m : StoredMetadata), r.metadata = m.toJson →
        (Satisfies t (listArgs gvk f) cs k r ↔ sel.matches m.labels) ∧
        (Satisfies t (listArgs gvk f) (clausesOf f) k r ↔
          Satisfies t (listArgs gvk f₀) (clausesOf f₀) k r ∧ sel.matches m.labels) := by
  obtain ⟨fs, as, ls, bs, p⟩ := parts_of_buildListFilter h
  -- the same options without the label selector are accepted too
  obtain ⟨f₀, h₀⟩ : ∃ f₀, buildListFilter { opts with labelSelector := none } = .ok f₀ := by
    obtain ⟨field, -, page, hf, -, hp, -⟩ := buildListFilter_ok h
    have hpage : pageOf { opts with labelSelector := none } = .ok page := hp
    simp only [buildListFilter, hf, hpage, buildLabelSelectorFilter]
    exact ⟨_, rfl⟩
  obtain ⟨fs', as', ls', bs', p₀⟩ := parts_of_buildListFilter h₀
  obtain ⟨rfl, rfl⟩ : fs = fs' ∧ as = as' := by
    have hfield := p.field.symm.trans p₀.field
    cases hfield
    exact ⟨rfl, rfl⟩
  obtain ⟨rfl, rfl⟩ : ls' = [] ∧ bs' = [] := by
    have hlabel := p₀.label
    cases hlabel
    exact ⟨rfl, rfl⟩
  refine ⟨f₀, ls, h₀, ?_, fun gvk k r m hr => ?_⟩
  · rw [p.clauses, p₀.clauses, List.append_nil]
  · obtain ⟨hns, has, hbs⟩ := p.bound gvk
    obtain ⟨hns₀, has₀, -⟩ := p₀.bound gvk
    have hlabels : Satisfies t (listArgs gvk f) ls k r ↔ sel.matches m.labels := by
      have hl := p.label
      rw [hsel] at hl
      exact satisfies_labelSelector hr hl hbs
    refine ⟨hlabels, ?_⟩
    rw [p.clauses, p₀.clauses, List.append_nil]
    unfold Satisfies at hlabels ⊢
    rw [List.forall_mem_append, List.forall_mem_append, List.forall_mem_append, hlabels]
    refine and_congr_left fun _ => and_congr ?_ ?_
    · exact (satisfies_namespace hns).trans (satisfies_namespace hns₀).symm
    · exact satisfies_fields p.field has has₀

/-- Texts that are enough for rows whose fields are strings. -/
def plainTexts : Texts where
  uid _ := "uid"
  time _ := "time"
  render _ := ""
  bigint := ⟨parseInt64, fun _ _ => rfl⟩

/-- `tier in (gold, silver), size > 3` in a namespace and with a field selector. -/
def tieredLists : ListOptions where
  ns := "account-1"
  fieldSelector := some (.has "spec.region" "us-east-1")
  labelSelector := some (.requirements [⟨"tier", .in, ["silver", "gold"], rfl⟩,
    ⟨"size", .greaterThan, ["3"], rfl⟩])
  limit := 50
  continueToken := .empty

def labelled (labels : List (String × String)) : Row :=
  { uid := 1, txidStamp := 5, objectVersion := 1
    spec := .obj [("region", .str "us-east-1")], status := .obj []
    metadata := (StoredMetadata.mk labels [] [] [] 1).toJson
    deletionTimestamp := none, createdAt := 10, updatedAt := 10 }

lemma exists_filter {P : Option ListFilter → Prop} [DecidablePred P]
    (h : (buildListFilter opts).toOption.any (fun f => decide (P f)) = true) :
    ∃ f, buildListFilter opts = .ok f ∧ P f := by
  cases hf : buildListFilter opts with
  | error e =>
    rw [hf] at h
    cases h
  | ok f =>
    rw [hf] at h
    exact ⟨f, rfl, of_decide_eq_true h⟩

theorem label_selector_in_sql_tiered :
    ∃ f, buildListFilter tieredLists = .ok f ∧
      Satisfies plainTexts (listArgs "v1/ConfigMap" f) (clausesOf f)
        ⟨"v1/ConfigMap", "account-1", "a"⟩ (labelled [("tier", "gold"), ("size", "12")]) ∧
      ∀ labels, Satisfies plainTexts (listArgs "v1/ConfigMap" f) (clausesOf f)
        ⟨"v1/ConfigMap", "account-1", "a"⟩ (labelled labels) →
        ∃ sel, tieredLists.labelSelector = some sel ∧ sel.matches labels := by
  obtain ⟨f, hf, hsat⟩ : ∃ f, buildListFilter tieredLists = .ok f ∧
      Satisfies plainTexts (listArgs "v1/ConfigMap" f) (clausesOf f)
        ⟨"v1/ConfigMap", "account-1", "a"⟩ (labelled [("tier", "gold"), ("size", "12")]) :=
    exists_filter (by decide +kernel)
  obtain ⟨f₀, cs, -, -, hmeans⟩ := label_selector_in_sql plainTexts tieredLists _ f rfl hf
  refine ⟨f, hf, hsat, fun labels hlab => ⟨_, rfl, ?_⟩⟩
  exact ((hmeans _ _ _ ⟨labels, [], [], [], 1⟩ rfl).2.mp hlab).2

/-! ### Where field selectors mean the same -/

section Agreement

variable {t : Texts} {k : Key} {r : Row} {m : StoredMetadata}

lemma storedField_filled (hr : r.metadata = m.toJson) {name : String}
    (h : name = "resourceVersion" ∨ name = "creationTimestamp" ∨ name = "deletionTimestamp") :
    storedField t k r ["metadata", name] = none := by
  rcases h with rfl | rfl | rfl <;>
    simp [storedField, descend, hr, StoredMetadata.toJson, Json.get?, Json.lastMember_append]

lemma fieldText_of_stored (hr : r.metadata = m.toJson) {field s : String}
    (h : storedField t k r (fieldPath field) = some (.str s)) : fieldText t k r field = s := by
  have hfilled : ∀ name, name = "resourceVersion" ∨ name = "creationTimestamp" ∨
      name = "deletionTimestamp" → fieldPath field ≠ ["metadata", name] := by
    intro name hname heq
    rw [heq, storedField_filled hr hname] at h
    cases h
  unfold fieldText objectField
  rw [if_neg (hfilled _ (.inl rfl)), if_neg (hfilled _ (.inr (.inl rfl))),
    if_neg (hfilled _ (.inr (.inr rfl))), h]

lemma FieldRequirement.selects_iff (hr : r.metadata = m.toJson) {q : FieldRequirement}
    (hq : StringValued t k r q.field) :
    q.Selects t k r ↔ Stored t k r q.field ∧ q.matches (fieldText t k r) := by
  unfold FieldRequirement.Selects
  rcases hq with hnone | hnull | ⟨s, hs⟩
  · simp [hnone, Stored]
  · simp [hnull, Stored, asText]
  · have hstored : Stored t k r q.field := ⟨s, hs⟩
    rw [and_iff_right hstored, FieldRequirement.matches, fieldText_of_stored hr hs, hs]
    by_cases hop : q.op = .notEquals <;> simp [hop, asText]

/-- What decides between the two meanings: a requirement that the object does not meet, or else
whether the selector matches nothing and whether the fields it asks for are stored. -/
def Decided (t : Texts) (k : Key) (r : Row) (sel : FieldSelector) : Prop :=
  (∃ q ∈ sel.requirements, q.matches (fieldText t k r) = false) ∨
    (sel.hasNothing = false ↔ ∀ q ∈ sel.requirements, Stored t k r q.field)

/-- **Where field selectors mean the same in SQL.** -/
theorem field_selector_in_sql_iff (t : Texts) (opts : ListOptions) (sel : FieldSelector)
    (f : Option ListFilter) (hsel : opts.fieldSelector = some sel)
    (h : buildListFilter opts = .ok f) :
    ∃ fs as ls bs, Parts opts f fs as ls bs ∧
      ∀ (gvk : String) (k : Key) (r : Row) (m : StoredMetadata), r.metadata = m.toJson →
        (∀ q ∈ sel.requirements, StringValued t k r q.field) →
        ((Satisfies t (listArgs gvk f) fs k r ↔ sel.matches (fieldText t k r)) ↔
          Decided t k r sel) := by
  obtain ⟨fs, as, ls, bs, p⟩ := parts_of_buildListFilter h
  refine ⟨fs, as, ls, bs, p, fun gvk k r m hr hstr => ?_⟩
  have hfield := p.field
  rw [hsel] at hfield
  have hsql : Satisfies t (listArgs gvk f) fs k r ↔ (∀ q ∈ sel.requirements,
      Stored t k r q.field) ∧ ∀ q ∈ sel.requirements, q.matches (fieldText t k r) := by
    rw [satisfies_fieldSelector hfield (p.bound gvk).2.1, ← forall₂_and]
    exact forall₂_congr fun q hq => FieldRequirement.selects_iff hr (hstr q hq)
  have hmatch : sel.matches (fieldText t k r) ↔ sel.hasNothing = false ∧
      ∀ q ∈ sel.requirements, q.matches (fieldText t k r) := by
    rw [FieldSelector.matches_eq, Bool.and_eq_true, List.all_eq_true, Bool.not_eq_true']
  rw [hsql, hmatch, Decided]
  by_cases hall : ∀ q ∈ sel.requirements, q.matches (fieldText t k r)
  · have hno : ¬∃ q ∈ sel.requirements, q.matches (fieldText t k r) = false := by
      rintro ⟨q, hq, hf⟩
      rw [hall q hq] at hf
      cases hf
    rw [or_iff_right hno, and_iff_left hall, and_iff_left hall]
    exact iff_comm
  · have hsome : ∃ q ∈ sel.requirements, q.matches (fieldText t k r) = false := by
      obtain ⟨q, hq, hf⟩ := not_forall₂.mp hall
      exact ⟨q, hq, Bool.eq_false_iff.mpr hf⟩
    exact iff_of_true (iff_of_false (fun h => hall h.2) (fun h => hall h.2)) (.inl hsome)

end Agreement

def byField (sel : FieldSelector) : ListOptions where
  ns := ""
  fieldSelector := some sel
  labelSelector := none
  limit := 0
  continueToken := .empty

theorem field_selector_in_sql_iff_region :
    ∃ f, buildListFilter (byField (.has "spec.region" "us-east-1")) = .ok f ∧
      Satisfies plainTexts (listArgs "v1/ConfigMap" f) (clausesOf f)
        ⟨"v1/ConfigMap", "account-1", "a"⟩ (labelled []) := by
  obtain ⟨f, hf, -⟩ : ∃ f, buildListFilter (byField (.has "spec.region" "us-east-1")) = .ok f ∧
    True := exists_filter (by decide +kernel)
  obtain ⟨fs, as, ls, bs, p, hiff⟩ := field_selector_in_sql_iff plainTexts
    (byField (.has "spec.region" "us-east-1")) _ f rfl hf
  have hstored : storedField plainTexts ⟨"v1/ConfigMap", "account-1", "a"⟩ (labelled [])
      (fieldPath "spec.region") = some (.str "us-east-1") := by decide +kernel
  have hagree := (hiff "v1/ConfigMap" ⟨"v1/ConfigMap", "account-1", "a"⟩ (labelled [])
    ⟨[], [], [], [], 1⟩ rfl (by
      intro q hq
      obtain rfl := List.mem_singleton.mp hq
      exact .inr (.inr ⟨_, hstored⟩))).mpr (.inr (iff_of_true rfl (by
        intro q hq
        obtain rfl := List.mem_singleton.mp hq
        exact ⟨_, hstored⟩)))
  refine ⟨f, hf, ?_⟩
  have hls : ls = [] := by
    have hl := p.label
    cases hl
    rfl
  rw [p.clauses, hls, List.append_nil]
  exact hagree.mpr (by decide +kernel)

/-- A row without a zone is not selected by `spec.zone != a`, which its object matches; and
a selector for nothing selects it. -/
theorem field_selector_differs :
    (∃ f, buildListFilter (byField (.notHas "spec.zone" "a")) = .ok f ∧
      ¬Satisfies plainTexts (listArgs "v1/ConfigMap" f) (clausesOf f)
        ⟨"v1/ConfigMap", "account-1", "a"⟩ (labelled []) ∧
      (FieldSelector.notHas "spec.zone" "a").matches
        (fieldText plainTexts ⟨"v1/ConfigMap", "account-1", "a"⟩ (labelled [])) = true) ∧
    ∃ f, buildListFilter (byField .nothing) = .ok f ∧
      Satisfies plainTexts (listArgs "v1/ConfigMap" f) (clausesOf f)
        ⟨"v1/ConfigMap", "account-1", "a"⟩ (labelled []) ∧
      FieldSelector.nothing.matches
        (fieldText plainTexts ⟨"v1/ConfigMap", "account-1", "a"⟩ (labelled [])) = false :=
  ⟨exists_filter (by decide +kernel), exists_filter (by decide +kernel)⟩

end Seaplane.Db.Selectors
