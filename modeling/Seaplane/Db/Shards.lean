import Mathlib.Tactic.Common
import Seaplane.Db.Watch

/-!
Shards: the queries of a sharded List and of a sharded poll, and how a family of shards divides the
rows.

A query is built from conditions that name their arguments by number, and the arguments are given
beside it. The shard condition is written in two places, with numbers computed from how many
arguments come before. Its list of residues is cast to `int[]`, whose elements have 32 bits, so a
residue beyond them makes the whole query fail.
-/

namespace Seaplane.Db

open Lib

/-! ### Queries with numbered arguments -/

inductive Arg where
  | text (s : String)
  | bigint (n : ℤ)
  | ints (ns : List ℤ)
  deriving DecidableEq

/-- The conditions of the two queries; a number stands for the placeholder. -/
inductive Cond where
  /-- `gvk = $p` -/
  | gvk (p : ℕ)
  /-- `deletion_timestamp IS NULL OR metadata->'finalizers' != '[]'::jsonb` -/
  | listed
  /-- `txid_stamp::text::bigint > $p` -/
  | stampAfter (p : ℕ)
  /-- `abs(hashtext(namespace)::bigint) % $m = ANY($o::int[])` -/
  | shard (m o : ℕ)
  deriving DecidableEq

/-- A SELECT in the order of the stamps, with its conditions and the placeholders of its LIMIT and
OFFSET. -/
structure Select where
  conds : List Cond
  limit : Option ℕ
  offset : Option ℕ

/-- The argument of a placeholder; they are numbered from 1. -/
def arg (args : List Arg) : ℕ → Option Arg
  | 0 => none
  | p + 1 => args[p]?

/-- The placeholders of a condition, in the order of the text. -/
def Cond.params : Cond → List ℕ
  | .gvk p | .stampAfter p => [p]
  | .listed => []
  | .shard m o => [m, o]

def Select.params (q : Select) : List ℕ :=
  q.conds.flatMap Cond.params ++ q.limit.toList ++ q.offset.toList

/-- A value of an `int` column or element. -/
def isInt4 (n : ℤ) : Bool := decide (-2 ^ 31 ≤ n ∧ n < 2 ^ 31)

section Meaning

variable (hashtext : Hash) (args : List Arg)

/-- What a condition selects; none when an argument is missing, is of another type, or cannot be
sent as one. -/
def Cond.denotes : Cond → Option (Key × Row → Bool)
  | .gvk p =>
    match arg args p with
    | some (.text s) => some fun e => e.1.gvk == s
    | _ => none
  | .listed => some fun e => e.2.listed
  | .stampAfter p =>
    match arg args p with
    | some (.bigint n) => some fun e => n < e.2.txidStamp
    | _ => none
  | .shard m o =>
    match arg args m, arg args o with
    | some (.bigint mod), some (.ints owned) =>
      if owned.all isInt4 && mod != 0 then
        some fun e => owned.contains ((hashtext e.1.ns).natAbs % mod)
      else none
    | _, _ => none

/-- The number behind a LIMIT or OFFSET that is there. -/
def bound : Option ℕ → Option (Option ℕ)
  | none => some none
  | some p =>
    match arg args p with
    | some (.bigint n) => some (some n.toNat)
    | _ => none

/-- The rows a query returns; none when it fails. Every argument has to have a placeholder. -/
def Select.run (q : Select) (d : Database) : Option (List (Key × Row)) := do
  let conds ← q.conds.mapM (Cond.denotes hashtext args)
  let limit ← bound args q.limit
  let offset ← bound args q.offset
  if (List.range' 1 args.length).all (· ∈ q.params) then
    let rows := ((d.table.entries.map fun e => (e.1, e.2)).filter fun e =>
      conds.all (· e)).insertionSort fun a b => a.2.txidStamp ≤ b.2.txidStamp
    let rows := rows.drop (offset.getD 0)
    return (limit.map rows.take).getD rows
  else none

end Meaning

/-! ### The builders -/

namespace ShardSpec

def validate (s : ShardSpec) : Except String Unit :=
  if s.mod ≤ 0 then .error s!"shard: Mod must be > 0, got {s.mod}"
  else if s.owned.isEmpty then .error "shard: Owned must be non-empty"
  else
    let rec check (seen : List ℤ) : List ℤ → Except String Unit
      | [] => .ok ()
      | o :: os =>
        if o < 0 ∨ s.mod ≤ o then
          .error s!"shard: Owned value {o} out of range [0, {s.mod})"
        else if o ∈ seen then .error s!"shard: duplicate Owned value {o}"
        else check (o :: seen) os
    check [] s.owned

def shardClause (s : ShardSpec) (startParam : ℕ) : Cond × List Arg :=
  (.shard startParam (startParam + 1), [.bigint s.mod, .ints s.owned])

def appendQuery (s : ShardSpec) (query : List Cond) (args : List Arg) : List Cond × List Arg :=
  let (clause, shardArgs) := s.shardClause (args.length + 1)
  (query ++ [clause], args ++ shardArgs)

end ShardSpec

structure ListFilter where
  whereClauses : List Cond
  whereArgs : List Arg
  limit : ℤ
  offset : ℤ

def ShardSpec.toListFilter (s : ShardSpec) : ListFilter :=
  let (clause, args) := s.shardClause 2
  ⟨[clause], args, 0, 0⟩

def listQuery (gvk : String) (filter : Option ListFilter) : Select × List Arg :=
  let conds : List Cond := [.gvk 1, .listed]
  let args : List Arg := [.text gvk]
  match filter with
  | none => (⟨conds, none, none⟩, args)
  | some f =>
    let conds := conds ++ f.whereClauses
    let args := args ++ f.whereArgs
    if 0 < f.limit then
      let args := args ++ [.bigint f.limit]
      let limit := args.length
      if 0 < f.offset then
        let args := args ++ [.bigint f.offset]
        (⟨conds, some limit, some args.length⟩, args)
      else (⟨conds, some limit, none⟩, args)
    else (⟨conds, none, none⟩, args)

/-- The query of a poll at watermark `hwm`. -/
def pollQuery (cfg : WatchConfig) (hwm : ℕ) : Select × List Arg :=
  let query : List Cond := [.gvk 1, .stampAfter 2]
  let args : List Arg := [.text cfg.gvk, .bigint hwm]
  let (query, args) :=
    match cfg.shard with
    | some s => s.appendQuery query args
    | none => (query, args)
  (⟨query, none, none⟩, args)

/-! ### What the queries return -/

variable {args : List Arg} {cond : Row → Bool}

section Runs

variable (hashtext : Hash) (d : Database) (gvk : String)

def runList (s : Option ShardSpec) : Option (List (Key × Row)) :=
  let (q, args) := listQuery gvk (s.map ShardSpec.toListFilter)
  q.run hashtext args d

/-- The rows of a poll of a kind, of one shard if any. -/
def runPoll (hwm : ℕ) (s : Option ShardSpec) : Option (List (Key × Row)) :=
  let (q, args) := pollQuery ⟨gvk, s⟩ hwm
  q.run hashtext args d

variable {hashtext d gvk}

/-- A query without LIMIT whose arguments are all used, when its conditions select what a list or a
poll should return. -/
lemma run_eq {conds : List Cond} {P : List (Key × Row → Bool)}
    {cfg : WatchConfig} (hd : conds.mapM (Cond.denotes hashtext args) = some P)
    (hargs : (List.range' 1 args.length).all (· ∈ conds.flatMap Cond.params) = true)
    (hq : ∀ e, P.all (· e) = (cfg.inScope hashtext e.1 && cond e.2)) :
    (Select.mk conds none none).run hashtext args d = some (d.query hashtext cfg cond) := by
  have hrows : (d.table.entries.map fun e => (e.1, e.2)).filter (fun e => P.all (· e)) =
      (d.table.entries.filter fun e => cfg.inScope hashtext e.1 && cond e.2).map
        fun e => (e.1, e.2) := by
    rw [List.filter_map]
    exact congrArg _ (List.filter_congr fun e _ => hq (e.1, e.2))
  simp only [Select.run, hd, bound, Select.params, Option.toList_none, List.append_nil, hargs,
    if_true, Option.bind_eq_bind, Option.bind_some, Option.pure_def, Option.getD_none,
    List.drop_zero, Option.map_none, hrows]
  rfl

lemma run_eq_none {conds : List Cond} {limit offset : Option ℕ}
    (hd : conds.mapM (Cond.denotes hashtext args) = none) :
    (Select.mk conds limit offset).run hashtext args d = none := by
  simp only [Select.run, hd, Option.bind_eq_bind, Option.bind_none]

/-- The residues of the shard, if any, can be sent. -/
def Sendable (s : Option ShardSpec) : Bool := s.all fun s => s.owned.all isInt4 && s.mod != 0

lemma listQuery_shard (s : ShardSpec) : listQuery gvk (some s.toListFilter) =
    (⟨[.gvk 1, .listed, .shard 2 3], none, none⟩,
      [.text gvk, .bigint s.mod, .ints s.owned]) := rfl

lemma pollQuery_shard (s : ShardSpec) (hwm : ℕ) : pollQuery ⟨gvk, some s⟩ hwm =
    (⟨[.gvk 1, .stampAfter 2, .shard 3 4], none, none⟩,
      [.text gvk, .bigint hwm, .bigint s.mod, .ints s.owned]) := rfl

/-- List returns the rows in scope that are not tombstones, or fails where the residues of the shard
cannot be sent. -/
lemma runList_eq (s : Option ShardSpec) : runList hashtext d gvk s =
    if Sendable s then some (list hashtext ⟨gvk, s⟩ d).resources else none := by
  cases s with
  | none =>
    refine run_eq (P := [fun e => e.1.gvk == gvk, fun e => e.2.listed]) rfl rfl fun e => ?_
    simp [WatchConfig.inScope]
  | some s =>
    cases hs : s.owned.all isInt4 && s.mod != 0 with
    | false =>
      simp only [Sendable, Option.all_some, hs, Bool.false_eq_true, if_false, runList,
        Option.map_some, listQuery_shard]
      exact run_eq_none (by simp [Cond.denotes, arg, hs])
    | true =>
      simp only [Sendable, Option.all_some, hs, if_true, runList, Option.map_some,
        listQuery_shard]
      refine run_eq (P := [fun e => e.1.gvk == gvk, fun e => e.2.listed,
        fun e => s.owned.contains ((hashtext e.1.ns).natAbs % s.mod)]) ?_ rfl fun e => ?_
      · simp [Cond.denotes, arg, hs]
      · simp only [WatchConfig.inScope, ShardSpec.clause, List.all_cons, List.all_nil,
          Option.all_some, Bool.and_true]
        cases e.2.listed <;> simp

lemma runPoll_eq (hwm : ℕ) (s : Option ShardSpec) : runPoll hashtext d gvk hwm s =
    if Sendable s then some (d.query hashtext ⟨gvk, s⟩ fun r => hwm < r.txidStamp) else none := by
  cases s with
  | none =>
    refine run_eq (P := [fun e => e.1.gvk == gvk, fun e => (hwm : ℤ) < e.2.txidStamp]) rfl rfl
      fun e => ?_
    simp [WatchConfig.inScope]
  | some s =>
    cases hs : s.owned.all isInt4 && s.mod != 0 with
    | false =>
      simp only [Sendable, Option.all_some, hs, Bool.false_eq_true, if_false, runPoll,
        pollQuery_shard]
      exact run_eq_none (by simp [Cond.denotes, arg, hs])
    | true =>
      simp only [Sendable, Option.all_some, hs, if_true, runPoll, pollQuery_shard]
      refine run_eq (P := [fun e => e.1.gvk == gvk, fun e => (hwm : ℤ) < e.2.txidStamp,
        fun e => s.owned.contains ((hashtext e.1.ns).natAbs % s.mod)]) ?_ rfl fun e => ?_
      · simp [Cond.denotes, arg, hs]
      · simp only [WatchConfig.inScope, ShardSpec.clause, List.all_cons, List.all_nil,
          Option.all_some, Bool.and_true, Nat.cast_lt]
        cases decide (hwm < e.2.txidStamp) <;> simp

end Runs

/-! ### Validated shards -/

section Validate

variable {s : ShardSpec}

lemma check_ok_iff {seen os : List ℤ} : ShardSpec.validate.check s seen os = .ok () ↔
    (∀ o ∈ os, 0 ≤ o ∧ o < s.mod) ∧ os.Nodup ∧ ∀ o ∈ os, o ∉ seen := by
  induction os generalizing seen with
  | nil => simp [ShardSpec.validate.check]
  | cons o os ih =>
    rw [ShardSpec.validate.check]
    split
    next hrange =>
      simp only [reduceCtorEq, false_iff]
      rintro ⟨h, -⟩
      have := h o List.mem_cons_self
      omega
    next hrange =>
    have hrange' : 0 ≤ o ∧ o < s.mod := by omega
    split
    next hseen =>
      simp only [reduceCtorEq, false_iff]
      rintro ⟨-, -, h⟩
      exact h o List.mem_cons_self hseen
    next hseen =>
      rw [ih, List.nodup_cons]
      constructor
      · rintro ⟨h1, h2, h3⟩
        refine ⟨List.forall_mem_cons.mpr ⟨hrange', h1⟩, ⟨fun ho => ?_, h2⟩,
          List.forall_mem_cons.mpr ⟨hseen, fun o' ho' hs => ?_⟩⟩
        · exact h3 o ho List.mem_cons_self
        · exact h3 o' ho' (List.mem_cons_of_mem _ hs)
      · rintro ⟨h1, ⟨h2, h3⟩, h4⟩
        refine ⟨(List.forall_mem_cons.mp h1).2, h3, fun o' ho' hs => ?_⟩
        rcases List.mem_cons.mp hs with rfl | hs
        · exact h2 ho'
        · exact h4 o' (List.mem_cons_of_mem _ ho') hs

lemma validate_ok_iff : s.validate = .ok () ↔
    0 < s.mod ∧ s.owned ≠ [] ∧ (∀ o ∈ s.owned, 0 ≤ o ∧ o < s.mod) ∧ s.owned.Nodup := by
  unfold ShardSpec.validate
  split
  next hmod =>
    simp only [reduceCtorEq, false_iff]
    rintro ⟨h, -⟩
    omega
  next hmod =>
  split
  next hempty => simp [List.isEmpty_iff.mp hempty]
  next hempty =>
    have hne : s.owned ≠ [] := by simpa using hempty
    have hpos : 0 < s.mod := by omega
    simp [check_ok_iff, hne, hpos]

end Validate

/-! ### A family of shards -/

/-- Validated shards of one modulus that divide its residues among them. -/
structure Family {ι : Type} (specs : ι → ShardSpec) (m : ℤ) : Prop where
  pos : 0 < m
  valid i : (specs i).validate = .ok ()
  mod i : (specs i).mod = m
  divide : ∀ n, 0 ≤ n → n < m → ∃! i, n ∈ (specs i).owned

/-- The query succeeds without a shard and for every shard, and the shard at home in a row's
namespace is the one that returns the row. -/
def Splits {ι : Type} (specs : ι → ShardSpec) (home : String → ι)
    (run : Option ShardSpec → Option (List (Key × Row))) : Prop :=
  ∃ all, run none = some all ∧ ∀ i, ∃ part, run (some (specs i)) = some part ∧
    ∀ e, e ∈ part ↔ e ∈ all ∧ home e.1.ns = i

section Binding

/-- The placeholders that the shard condition adds stand for the shard's modulus and residues, and
those of the query before for what they stood for. -/
def AppendBinds (s : ShardSpec) (query : List Cond) (args : List Arg) : Prop :=
  ∃ m o args', s.appendQuery query args = (query ++ [.shard m o], args') ∧
    arg args' m = some (.bigint s.mod) ∧ arg args' o = some (.ints s.owned) ∧
    ∀ p, p ≤ args.length → arg args' p = arg args p

/-- The placeholders of List stand for the kind, the filter's own arguments counted from 2, and its
limit and offset. -/
def ListBinds (gvk : String) (f : ListFilter) : Prop :=
  ∃ q args, listQuery gvk (some f) = (q, args) ∧
    q.conds = [.gvk 1, .listed] ++ f.whereClauses ∧ arg args 1 = some (.text gvk) ∧
    (∀ p, p < f.whereArgs.length → arg args (p + 2) = f.whereArgs[p]?) ∧
    (0 < f.limit → ∃ l, q.limit = some l ∧ arg args l = some (.bigint f.limit) ∧
      (0 < f.offset → ∃ o, q.offset = some o ∧ arg args o = some (.bigint f.offset)))

lemma arg_append (args' : List Arg) {p : ℕ} (hp : p ≤ args.length) :
    arg (args ++ args') p = arg args p := by
  cases p with
  | zero => rfl
  | succ p => exact List.getElem?_append_left hp

lemma arg_length (args : List Arg) (a : Arg) (args' : List Arg) :
    arg (args ++ a :: args') (args.length + 1) = some a := by
  simp [arg]

lemma appendBinds (s : ShardSpec) (query : List Cond) (args : List Arg) :
    AppendBinds s query args := by
  refine ⟨args.length + 1, args.length + 2, args ++ [.bigint s.mod, .ints s.owned], rfl, ?_, ?_,
    fun p hp => arg_append _ hp⟩
  · exact arg_length args _ _
  · have h := arg_length (args ++ [.bigint s.mod]) (.ints s.owned) []
    simpa using h

lemma listBinds (gvk : String) (f : ListFilter) : ListBinds gvk f := by
  have hwhere : ∀ (rest : List Arg) (p : ℕ), p < f.whereArgs.length →
      arg (([.text gvk] ++ f.whereArgs) ++ rest) (p + 2) = f.whereArgs[p]? := by
    intro rest p hp
    rw [arg_append]
    · simp [arg]
    · simp only [List.length_append, List.length_singleton]
      omega
  unfold ListBinds listQuery
  by_cases hl : 0 < f.limit
  · by_cases ho : 0 < f.offset
    · refine ⟨_, _, by simp only [hl, ho, if_true]; rfl, rfl, rfl, fun p hp => ?_, fun _ =>
        ⟨_, rfl, ?_, fun _ => ⟨_, rfl, ?_⟩⟩⟩
      · rw [List.append_assoc]
        exact hwhere _ p hp
      · rw [List.append_assoc, List.length_append]
        exact arg_length _ _ _
      · rw [List.length_append]
        exact arg_length _ _ _
    · refine ⟨_, _, by simp only [hl, ho, if_true, if_false]; rfl, rfl, rfl,
        fun p hp => hwhere _ p hp, fun _ => ⟨_, rfl, ?_, fun h => absurd h ho⟩⟩
      rw [List.length_append]
      exact arg_length _ _ _
  · refine ⟨_, _, by simp only [hl, if_false]; rfl, rfl, rfl, fun p hp => ?_, fun h => absurd h hl⟩
    have h := hwhere [] p hp
    simpa using h

end Binding

section Partition

variable {ι : Type} {specs : ι → ShardSpec} {m : ℤ} (h : Family specs m)
include h

lemma Family.sendable_iff : (∀ i, Sendable (some (specs i)) = true) ↔ m ≤ 2 ^ 31 := by
  constructor
  · intro hsend
    by_contra hm
    obtain ⟨i, hi, -⟩ := h.divide (2 ^ 31) (by norm_num) (by omega)
    have hs := hsend i
    simp only [Sendable, Option.all_some, Bool.and_eq_true, List.all_eq_true] at hs
    have := hs.1 _ hi
    simp [isInt4] at this
  · intro hm i
    obtain ⟨hpos, -, hrange, -⟩ := validate_ok_iff.mp (h.valid i)
    simp only [Sendable, Option.all_some, Bool.and_eq_true, List.all_eq_true, bne_iff_ne]
    refine ⟨fun o ho => ?_, by omega⟩
    have hlt := hrange o ho
    rw [h.mod i] at hlt
    simp only [isInt4, decide_eq_true_eq]
    omega

lemma Family.home (hashtext : Hash) :
    ∃ home : String → ι, ∀ ns i, (specs i).clause hashtext ns = true ↔ home ns = i := by
  have hres : ∀ ns, ∃! i, ((hashtext ns).natAbs : ℤ) % m ∈ (specs i).owned := fun ns =>
    h.divide _ (Int.emod_nonneg _ h.pos.ne') (Int.emod_lt_of_pos _ h.pos)
  choose home hhome huniq using hres
  refine ⟨home, fun ns i => ?_⟩
  rw [ShardSpec.clause, h.mod i, List.contains_iff_mem]
  exact ⟨fun hi => (huniq ns i hi).symm, fun hi => hi ▸ hhome ns⟩

omit h in
lemma mem_query_shard {hashtext : Hash} {d : Database} {gvk : String} {s : ShardSpec}
    {e : Key × Row} : e ∈ d.query hashtext ⟨gvk, some s⟩ cond ↔
      e ∈ d.query hashtext ⟨gvk, none⟩ cond ∧ s.clause hashtext e.1.ns = true := by
  simp only [mem_query, WatchConfig.inScope, Option.all_some, Option.all_none, Bool.and_true,
    Bool.and_eq_true]
  tauto

lemma Family.splits {hashtext : Hash} {home : String → ι} {d : Database} {gvk : String}
    {run : Option ShardSpec → Option (List (Key × Row))}
    (hhome : ∀ ns i, (specs i).clause hashtext ns = true ↔ home ns = i) (hm : m ≤ 2 ^ 31)
    (hrun : ∀ s, run s = if Sendable s then some (d.query hashtext ⟨gvk, s⟩ cond) else none) :
    Splits specs home run := by
  refine ⟨d.query hashtext ⟨gvk, none⟩ cond, hrun none, fun i => ?_⟩
  refine ⟨d.query hashtext ⟨gvk, some (specs i)⟩ cond, ?_, fun e => ?_⟩
  · rw [hrun, if_pos (h.sendable_iff.mpr hm i)]
  · rw [mem_query_shard, hhome]

/-- **Shards partition the fleet** exactly when the modulus is within the range of the residues'
type: then every namespace has one shard that returns its rows, the same in List and in every poll,
and together the shards return what the queries return without one. The placeholders stand for the
intended arguments, whatever query the shard is added to and whatever the filter of List. -/
theorem shards_partition :
    ((∀ hashtext : Hash, ∃ home : String → ι, ∀ (d : Database) (gvk : String),
      Splits specs home (runList hashtext d gvk) ∧
      ∀ hwm, Splits specs home (runPoll hashtext d gvk hwm)) ↔ m ≤ 2 ^ 31) ∧
    (∀ i query args, AppendBinds (specs i) query args) ∧ ∀ gvk f, ListBinds gvk f := by
  refine ⟨⟨fun hall => ?_, fun hm hashtext => ?_⟩, fun i => appendBinds (specs i), listBinds⟩
  · obtain ⟨home, hsplit⟩ := hall fun _ => 0
    refine h.sendable_iff.mp fun i => ?_
    obtain ⟨_, -, hparts⟩ := (hsplit .empty "").1
    obtain ⟨part, hpart, -⟩ := hparts i
    rw [runList_eq] at hpart
    by_contra hs
    rw [if_neg hs] at hpart
    cases hpart
  · obtain ⟨home, hhome⟩ := h.home hashtext
    refine ⟨home, fun d gvk => ⟨h.splits hhome hm runList_eq, fun hwm => ?_⟩⟩
    exact h.splits hhome hm (runPoll_eq hwm)

end Partition

/-- Two shards, of the even and of the odd hashes. -/
def evenOdd (odd : Bool) : ShardSpec := ⟨2, [if odd then 1 else 0]⟩

lemma evenOdd_family : Family evenOdd 2 where
  pos := by norm_num
  valid i := by cases i <;> decide
  mod i := rfl
  divide n h0 h2 := by
    have hn : n = 0 ∨ n = 1 := by omega
    rcases hn with rfl | rfl
    · exact ⟨false, by decide, by decide⟩
    · exact ⟨true, by decide, by decide⟩

/-- They divide every table, here by the length of the namespace's name. -/
theorem shards_partition_evenOdd : ∃ home : String → Bool,
    ∀ (d : Database) (gvk : String),
      Splits evenOdd home (runList (fun ns => ns.length) d gvk) ∧
      ∀ hwm, Splits evenOdd home (runPoll (fun ns => ns.length) d gvk hwm) :=
  (shards_partition evenOdd_family).1.mpr (by norm_num) fun ns => ns.length

def wholeShard (n : ℕ) (_ : Unit) : ShardSpec := ⟨n, (List.range n).map (↑)⟩

lemma wholeShard_family {n : ℕ} (hn : 0 < n) : Family (wholeShard n) n where
  pos := by omega
  valid i := by
    refine validate_ok_iff.mpr ⟨by simpa [wholeShard] using hn, ?_, fun o ho => ?_, ?_⟩
    · simpa [wholeShard] using hn.ne'
    · obtain ⟨a, ha, rfl⟩ := List.mem_map.mp ho
      have hlt := List.mem_range.mp ha
      simp only [wholeShard]
      omega
    · exact List.Nodup.map (fun a b hab => by exact_mod_cast hab) List.nodup_range
  mod i := rfl
  divide a h0 h1 := by
    refine ⟨(), List.mem_map.mpr ⟨a.toNat, List.mem_range.mpr ?_, ?_⟩, fun _ _ => rfl⟩ <;> omega

/-- With a modulus beyond the range of an `int` its List fails on every table, and every poll. -/
theorem wide_shard_fails : ∃ (specs : Unit → ShardSpec) (m : ℤ), Family specs m ∧
    ∀ (hashtext : Hash) (d : Database) (gvk : String),
      runList hashtext d gvk (some (specs ())) = none ∧
      ∀ hwm, runPoll hashtext d gvk hwm (some (specs ())) = none := by
  obtain ⟨n, hn⟩ : ∃ n : ℕ, n = 2 ^ 31 + 1 := ⟨_, rfl⟩
  have hfamily := wholeShard_family (n := n) (by omega)
  have hbad : Sendable (some (wholeShard n ())) = false := by
    rw [Bool.eq_false_iff]
    intro hs
    have hle := hfamily.sendable_iff.mp fun _ => hs
    omega
  refine ⟨wholeShard n, n, hfamily, fun hashtext d gvk => ⟨?_, fun hwm => ?_⟩⟩
  · rw [runList_eq, hbad]
    rfl
  · rw [runPoll_eq, hbad]
    rfl

end Seaplane.Db
