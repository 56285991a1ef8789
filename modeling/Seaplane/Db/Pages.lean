import Seaplane.Db.Convert
import Seaplane.Db.Selectors
import Seaplane.Lib.Paging

/-!
Paged lists.

A page is a snapshot of its own. It takes the selected rows in the order of their stamps, and its
token says how many of them came before; every write gives its row a new stamp, so that a row that
is rewritten or deleted between two pages moves all later ones to the front.
-/

namespace Seaplane.Db.Selectors

open Lib Lib.Where Lib.Paging Database

variable {σ τ : Type}

/-! ### List -/

section

variable (t : Texts) (gvk : String) (f : Option ListFilter)

def selects (e : Key × Row) : Bool :=
  e.1.gvk == gvk && e.2.listed &&
    decide (Satisfies t (listArgs gvk f) (clausesOf f) e.1 e.2)

def selected (d : Database) : List (Key × Row) :=
  ((d.table.entries.map fun e => (e.1, e.2)).filter (selects t gvk f)).insertionSort
    fun a b => a.2.txidStamp ≤ b.2.txidStamp

/-- The rows that `reader.List` returns. -/
def readerList (d : Database) : List (Key × Row) :=
  match f with
  | none => selected t gvk f d
  | some g =>
    if 0 < g.limit then
      window g.limit.toNat (if 0 < g.offset then g.offset.toNat else 0) (selected t gvk f d)
    else selected t gvk f d

end

inductive ListError where
  | filter (e : FilterError)
  | unmarshal

/-- A list as the client returns it, with the rows its items come from. -/
structure Page (σ τ : Type) where
  rows : List (Key × Row)
  items : List (Instance σ τ)
  resourceVersion : String
  continueToken : ContinueToken

/-- The offset of a token, its error ignored. -/
def decoded (tok : ContinueToken) : ℤ := (decodeContinue tok).toOption.getD 0

/-- The token of the next page; a page that is not full is the last one. `List` sets the token only
where there is a next page and never clears it, so this is what a caller finds that reads every page
into a new list object. -/
def nextToken (opts : ListOptions) (n : ℕ) : ContinueToken :=
  if 0 < opts.limit ∧ (n : ℤ) = opts.limit then
    encodeContinue (decoded opts.continueToken + opts.limit)
  else .empty

/-- `pgClient.List`. -/
def listPage (K : Kind σ τ) (t : Texts) (gvk : String) (opts : ListOptions) (d : Database) :
    Except ListError (Page σ τ) :=
  match buildListFilter opts with
  | .error e => .error (.filter e)
  | .ok f =>
    match (readerList t gvk f d).mapM fun e => resourceToObject K e.1 e.2 with
    | none => .error .unmarshal
    | some items => .ok
      { rows := readerList t gvk f d, items
        resourceVersion := (RV.mk 0 (if 0 < d.xmin then d.xmin - 1 else 0)).toString
        continueToken := nextToken opts (readerList t gvk f d).length }

/-- A list that follows its tokens to the end, while calls go on between the pages as `ok` says. -/
inductive Listing (K : Kind σ τ) (t : Texts) (gvk : String) (opts : ListOptions)
    (ok : Call × Option Cut → Op → Choice → Database → Prop) :
    LossyConf → ContinueToken → List (Page σ τ) → LossyConf → Prop where
  | last {c : LossyConf} {tok : ContinueToken} {page : Page σ τ}
      (h : listPage K t gvk { opts with continueToken := tok } c.store = .ok page)
      (hend : page.continueToken = .empty) : Listing K t gvk opts ok c tok [page] c
  | next {c c' c'' : LossyConf} {tok : ContinueToken} {page : Page σ τ}
      {pages : List (Page σ τ)} {es : List (ℕ × Seen Op Op.Res)}
      (h : listPage K t gvk { opts with continueToken := tok } c.store = .ok page)
      (hmore : page.continueToken ≠ .empty) (hrun : lossy.HistIf ok c es c')
      (hrest : Listing K t gvk opts ok c' page.continueToken pages c'') :
      Listing K t gvk opts ok c tok (page :: pages) c''

/-! ### The selected rows -/

section Rows

variable {t : Texts} {gvk : String} {f : Option ListFilter} {d : Database} {k : Key} {r : Row}

lemma mem_selected : (k, r) ∈ selected t gvk f d ↔
    d.table.lookup k = some r ∧ selects t gvk f (k, r) = true := by
  simp only [selected, List.mem_insertionSort, List.mem_filter, List.mem_map, Prod.mk.injEq]
  refine and_congr_left fun _ => ?_
  constructor
  · rintro ⟨e, he, rfl, rfl⟩
    exact AList.mem_lookup_iff.mpr he
  · intro h
    exact ⟨⟨k, r⟩, AList.mem_lookup_iff.mp h, rfl, rfl⟩

/-- Each write transaction commits one row, so that no two rows have one stamp. -/
lemma ordered_selected (hd : d.Historic) :
    Ordered (fun e : Key × Row => e.2.txidStamp) (selected t gvk f d) := by
  have hsorted : (selected t gvk f d).Pairwise fun a b => a.2.txidStamp ≤ b.2.txidStamp :=
    List.pairwise_insertionSort _ _
  have hnodup : (selected t gvk f d).Nodup := by
    unfold selected
    refine (List.perm_insertionSort _ _).nodup_iff.mpr (List.Nodup.filter _ ?_)
    refine List.Nodup.of_map Prod.fst ?_
    rw [List.map_map]
    exact d.table.nodupKeys
  refine (hsorted.and hnodup).imp_of_mem fun {a b} ha hb hab => ?_
  refine hab.1.lt_of_ne fun heq => hab.2 ?_
  exact hd.stamp_inj (hd.mem _ _ (mem_selected.mp ha).1) (hd.mem _ _ (mem_selected.mp hb).1) heq

end Rows

/-! ### One selection for all pages -/

variable {k : Key} {r : Row}

section Tokens

variable {t : Texts} {gvk : String} {opts : ListOptions} {tok tok' : ContinueToken}
  {f f' : Option ListFilter}

lemma selects_token (h : buildListFilter { opts with continueToken := tok } = .ok f)
    (h' : buildListFilter { opts with continueToken := tok' } = .ok f')
    (hr : r.ClientWritten) : selects t gvk f (k, r) = selects t gvk f' (k, r) := by
  obtain ⟨m, hm⟩ := hr
  obtain ⟨fs, as, ls, bs, p⟩ := parts_of_buildListFilter h
  obtain ⟨fs', as', ls', bs', p'⟩ := parts_of_buildListFilter h'
  obtain ⟨rfl, rfl⟩ : fs = fs' ∧ as = as' := by
    have hfield := p.field.symm.trans p'.field
    cases hfield
    exact ⟨rfl, rfl⟩
  obtain ⟨rfl, rfl⟩ : ls = ls' ∧ bs = bs' := by
    have hlabel := p.label.symm.trans p'.label
    cases hlabel
    exact ⟨rfl, rfl⟩
  obtain ⟨hns, has, hbs⟩ := p.bound gvk
  obtain ⟨hns', has', hbs'⟩ := p'.bound gvk
  have hlabels : Satisfies t (listArgs gvk f) ls k r ↔ Satisfies t (listArgs gvk f') ls k r := by
    have hl := p.label
    cases hsel : opts.labelSelector with
    | none =>
      simp only [hsel] at hl
      cases hl
      simp [Satisfies]
    | some sel =>
      simp only [hsel] at hl
      rw [satisfies_labelSelector hm hl hbs, satisfies_labelSelector hm hl hbs']
  have hall : Satisfies t (listArgs gvk f) (clausesOf f) k r ↔
      Satisfies t (listArgs gvk f') (clausesOf f') k r := by
    rw [p.clauses, p'.clauses]
    unfold Satisfies at hlabels ⊢
    rw [List.forall_mem_append, List.forall_mem_append, List.forall_mem_append,
      List.forall_mem_append, hlabels]
    refine and_congr_left fun _ => and_congr ?_ ?_
    · exact (satisfies_namespace hns).trans (satisfies_namespace hns').symm
    · exact satisfies_fields p.field has has'
  simp only [selects, hall]

lemma selected_token (h : buildListFilter { opts with continueToken := tok } = .ok f)
    (h' : buildListFilter { opts with continueToken := tok' } = .ok f') {d : Database}
    (hd : Recorded d) : selected t gvk f d = selected t gvk f' d := by
  unfold selected
  congr 1
  refine List.filter_congr fun e he => ?_
  obtain ⟨e', he', rfl⟩ := List.mem_map.mp he
  have hrow : d.table.lookup e'.1 = some e'.2 := AList.mem_lookup_iff.mpr he'
  exact selects_token h h' (hd.client _ (hd.historic.mem _ _ hrow))

def offsetOf (tok : ContinueToken) : ℕ := (decoded tok).toNat

lemma readerList_eq (h : buildListFilter { opts with continueToken := tok } = .ok f)
    (d : Database) : readerList t gvk f d =
      if 0 < opts.limit then window opts.limit.toNat (offsetOf tok) (selected t gvk f d)
      else selected t gvk f d := by
  obtain ⟨field, label, page, -, -, hp, rfl⟩ := buildListFilter_ok h
  unfold pageOf at hp
  by_cases hlimit : 0 < opts.limit
  · rw [if_pos hlimit] at hp ⊢
    cases tok with
    | invalid => cases hp
    | empty =>
      cases hp
      unfold filterOf readerList
      rw [if_neg (by simp; omega)]
      simp [hlimit, offsetOf, decoded, decodeContinue, Except.toOption]
    | offset n =>
      cases hp
      unfold filterOf readerList
      rw [if_neg (by simp; omega)]
      have htoNat : (if 0 < n then n.toNat else 0) = n.toNat := by
        split
        · rfl
        · omega
      simp [hlimit, offsetOf, decoded, decodeContinue, Except.toOption, htoNat]
  · rw [if_neg hlimit] at hp ⊢
    cases hp
    unfold filterOf readerList
    by_cases hno : (namespaceFilter opts.ns).1 ++ field.1 ++ label.1 = []
    · rw [if_pos ⟨rfl, hno⟩]
    · rw [if_neg (fun hand => hno hand.2)]
      simp

end Tokens

/-! ### Writes between the pages -/

variable {o : Op} {c c' : LossyConf} {es : List (ℕ × Seen Op Op.Res)}

section Between

variable (t : Texts) (gvk : String) (f : Option ListFilter)

/-- A statement that leaves alone what the list shows before a stamp: the transaction that writes is
younger than the stamp, and the row that it rewrites was not selected before it. -/
def Spares (stamp : ℕ) (d : Database) : Op → Prop
  | .insertRow x p | .reviveRow x p | .updateStatus x p | .updateObject x p =>
    stamp < x ∧ ∀ r0, d.table.lookup p.key = some r0 → selects t gvk f (p.key, r0) = true →
      stamp ≤ r0.txidStamp
  | .currentXactId | .selectRow _ | .endTx _ | .compact .. => True

/-- The calls that go on between the pages do. -/
def Sparing (stamp : ℕ) (_ : Call × Option Cut) (o : Op) (_ : Choice) (d : Database) : Prop :=
  Spares t gvk f stamp d o

variable {t gvk f} {stamp : ℕ} {d d' : Database}

def SameBefore (t : Texts) (gvk : String) (f : Option ListFilter) (stamp : ℕ) (d d' : Database) :
    Prop :=
  ∀ e : Key × Row, e.2.txidStamp < stamp → (e ∈ selected t gvk f d ↔ e ∈ selected t gvk f d')

lemma sameBefore_of_table (h : d'.table = d.table) : SameBefore t gvk f stamp d d' := by
  intro e _
  rw [mem_selected, mem_selected, h]

lemma sameBefore_commitRow {x : ℕ} (hr : r.txidStamp = x) (hx : stamp < x)
    (hold : ∀ r0, d.table.lookup k = some r0 → selects t gvk f (k, r0) = true →
      stamp ≤ r0.txidStamp) : SameBefore t gvk f stamp d (d.commitRow x k r) := by
  rintro ⟨k', r'⟩ hlt
  rw [mem_selected, mem_selected, lookup_commitRow]
  by_cases hk : k' = k
  · subst hk
    rw [if_pos rfl]
    constructor
    · rintro ⟨hrow, hsel⟩
      have := hold r' hrow hsel
      simp only at hlt
      omega
    · rintro ⟨hrow, -⟩
      cases hrow
      simp only at hlt
      omega
  · rw [if_neg hk]

variable {ch : Choice}

lemma sameBefore_compact {x : ℕ} {c : CompactConfig} :
    SameBefore t gvk f stamp d (d.commitCompact x (d.compacted c ch)) := by
  rintro ⟨k, r⟩ -
  rw [mem_selected, mem_selected]
  rcases lookup_commitCompact d x c ch k with h | ⟨h, r0, hr0, htomb, -⟩
  · rw [h]
  · rw [h, hr0]
    constructor
    · rintro ⟨hrow, hsel⟩
      cases hrow
      simp [selects, Row.listed_eq, htomb] at hsel
    · rintro ⟨hrow, -⟩
      cases hrow

lemma sameBefore_exec {a : o.Res} (ho : Spares t gvk f stamp d o)
    (hx : exec o ch d = some (a, d')) : SameBefore t gvk f stamp d d' := by
  cases o with
  | currentXactId | selectRow =>
    cases hx
    exact sameBefore_of_table rfl
  | endTx x =>
    obtain ⟨-, hx⟩ := Option.ite_none_right_eq_some.mp hx
    cases hx
    exact sameBefore_of_table rfl
  | compact x c =>
    obtain ⟨-, hx⟩ := Option.ite_none_right_eq_some.mp hx
    cases hx
    exact sameBefore_compact
  | insertRow x p | reviveRow x p =>
    rcases exec_create hx x p (by simp) with rfl | ⟨r, hr, -, rfl⟩
    · exact sameBefore_of_table rfl
    · exact sameBefore_commitRow hr.stamp ho.1 ho.2
  | updateStatus x p | updateObject x p =>
    rcases exec_replace hx x p (by simp) with rfl | ⟨_, r, hr, rfl⟩
    · exact sameBefore_of_table rfl
    · exact sameBefore_commitRow hr.stamp ho.1 ho.2

lemma sameBefore_run (h : lossy.HistIf (Sparing t gvk f stamp) c es c') :
    SameBefore t gvk f stamp c.store c'.store := by
  induction h with
  | start => exact fun _ _ => .rfl
  | spawn l _ _ ih => exact ih
  | act _ _ hok hx ih => exact fun e he => (ih e he).trans (sameBefore_exec hok hx e he)

lemma gone_exec {a : o.Res} (hd : d.Historic) (hmem : (k, r) ∈ d.hist)
    (hgone : d.table.lookup k ≠ some r) (hx : exec o ch d = some (a, d')) :
    d'.table.lookup k ≠ some r := by
  have hcommit : ∀ {x : ℕ} {k' : Key} {r' : Row}, x ∈ d.running → r'.txidStamp = x →
      (d.commitRow x k' r').table.lookup k ≠ some r := by
    intro x k' r' hrun hstamp
    rw [lookup_commitRow]
    split
    · intro heq
      cases heq
      exact hd.stamp_ne hmem hrun hstamp
    · exact hgone
  cases exec_effect hx with
  | refl | begin | finish x => exact hgone
  | create x p r' hr | replace x p r0 r' hr => exact hcommit hr.running hr.stamp
  | compact x c ch =>
    rcases lookup_commitCompact d x c ch k with h | ⟨h, -⟩
    · rwa [h]
    · rw [h]
      simp

lemma unmodified_run {ok : Call × Option Cut → Op → Choice → Database → Prop}
    (hd : c.store.Historic) (hmem : (k, r) ∈ c.store.hist) (h : lossy.HistIf ok c es c') :
    c'.store.Historic ∧ (k, r) ∈ c'.store.hist ∧
      (c'.store.table.lookup k = some r → c.store.table.lookup k = some r) := by
  induction h with
  | start => exact ⟨hd, hmem, id⟩
  | spawn l _ _ ih => exact ih
  | act _ _ _ hx ih =>
    obtain ⟨hd', hmem', hback⟩ := ih
    refine ⟨hd'.step ⟨_, _, _, hx⟩, hist_step hx hmem', fun hrow => hback ?_⟩
    by_contra hgone
    exact gone_exec hd' hmem' hgone hx hrow

end Between

/-! ### The pages together -/

section Together

variable {K : Kind σ τ} {t : Texts} {gvk : String} {opts : ListOptions} {tok : ContinueToken}
  {f : Option ListFilter} {d : Database} {page : Page σ τ}

lemma listPage_ok (hf : buildListFilter { opts with continueToken := .empty } = .ok f)
    (hd : Recorded d) (h : listPage K t gvk { opts with continueToken := tok } d = .ok page) :
    page.rows = (if 0 < opts.limit then
        window opts.limit.toNat (offsetOf tok) (selected t gvk f d) else selected t gvk f d) ∧
      page.continueToken = nextToken { opts with continueToken := tok } page.rows.length := by
  unfold listPage at h
  cases hg : buildListFilter { opts with continueToken := tok } with
  | error e => simp [hg] at h
  | ok g =>
    simp only [hg] at h
    cases hi : (readerList t gvk g d).mapM fun e => resourceToObject K e.1 e.2 with
    | none => simp [hi] at h
    | some items =>
      rw [hi] at h
      cases h
      exact ⟨by rw [readerList_eq hg, selected_token hg hf hd], rfl⟩

variable {n : ℕ}

lemma offsetOf_nextToken (hpos : 0 ≤ decoded tok)
    (h : nextToken { opts with continueToken := tok } n ≠ .empty) :
    offsetOf (nextToken { opts with continueToken := tok } n) =
        offsetOf tok + opts.limit.toNat ∧
      0 ≤ decoded (nextToken { opts with continueToken := tok } n) := by
  unfold nextToken at h ⊢
  split at h
  · next hfull =>
    have hlimit : 0 < opts.limit := hfull.1
    have hnext : decoded (encodeContinue (decoded tok + opts.limit)) =
        decoded tok + opts.limit := rfl
    rw [if_pos hfull]
    simp only [offsetOf, hnext]
    omega
  · exact absurd rfl h

lemma length_of_nextToken (hlimit : 0 < opts.limit)
    (h : nextToken { opts with continueToken := tok } n = .empty) : n ≠ opts.limit.toNat := by
  unfold nextToken at h
  split at h
  · cases h
  · next hfull =>
    simp only [not_and] at hfull
    have := hfull hlimit
    omega

/-- The pages of a list are the pages of the selected rows of their snapshots, in which the rows
before an unmodified one stay the same. -/
lemma listing_walk {pages : List (Page σ τ)} (hlimit : 0 < opts.limit)
    (hf : buildListFilter { opts with continueToken := .empty } = .ok f)
    (hsel : selects t gvk f (k, r) = true)
    (h : Listing K t gvk opts (Sparing t gvk f r.txidStamp) c tok pages c')
    (hc : lossy.Hist ⟨.empty, []⟩ es c) (hmem : (k, r) ∈ c.store.hist) (hpos : 0 ≤ decoded tok)
    (hend : c'.store.table.lookup k = some r) :
    c.store.table.lookup k = some r ∧
    ∃ ls, pages.flatMap Page.rows = walk opts.limit.toNat (offsetOf tok) ls ∧
      Paging.Ends opts.limit.toNat (offsetOf tok) ls ∧
      ∀ l ∈ ls, Ordered (fun e : Key × Row => e.2.txidStamp) l ∧ (k, r) ∈ l ∧
        (∀ r', (k, r') ∈ l → r' = r) ∧
        rank (fun e : Key × Row => e.2.txidStamp) (k, r) l =
          rank (fun e : Key × Row => e.2.txidStamp) (k, r) (selected t gvk f c.store) := by
  have snapshot : ∀ {d : Database}, Recorded d → d.table.lookup k = some r →
      Ordered (fun e : Key × Row => e.2.txidStamp) (selected t gvk f d) ∧
      (k, r) ∈ selected t gvk f d ∧ ∀ r', (k, r') ∈ selected t gvk f d → r' = r := by
    intro d hd hrow
    refine ⟨ordered_selected hd.historic, mem_selected.mpr ⟨hrow, hsel⟩, fun r' hr' => ?_⟩
    exact (Option.some.inj (hrow.symm.trans (mem_selected.mp hr').1)).symm
  induction h generalizing es with
  | @last c tok page hpage hlast =>
    have hd := recorded_run hc
    obtain ⟨hrows, htok⟩ := listPage_ok hf hd hpage
    rw [if_pos hlimit] at hrows
    obtain ⟨hord, hin, honly⟩ := snapshot hd hend
    refine ⟨hend, [selected t gvk f c.store], ?_, ?_, ?_⟩
    · simp [walk, hrows]
    · have hne := length_of_nextToken hlimit (htok.symm.trans hlast)
      rw [hrows] at hne
      have hle : (window opts.limit.toNat (offsetOf tok) (selected t gvk f c.store)).length ≤
          opts.limit.toNat := List.length_take_le _ _
      exact lt_of_le_of_ne hle hne
    · intro l hl
      rw [List.mem_singleton] at hl
      subst hl
      exact ⟨hord, hin, honly, rfl⟩
  | @next c c1 c2 tok page pages es' hpage hmore hrun _ ih =>
    have hd := recorded_run hc
    obtain ⟨hrows, htok⟩ := listPage_ok hf hd hpage
    rw [if_pos hlimit] at hrows
    rw [htok] at hmore ih
    obtain ⟨hoff, hpos'⟩ := offsetOf_nextToken hpos hmore
    obtain ⟨-, hmem', hback⟩ := unmodified_run hd.historic hmem hrun
    have hc1 := hc.append (fun _ _ _ _ _ => trivial) hrun
    obtain ⟨hrow1, ls, hwalk, hends, hls⟩ := ih hc1 hmem' hpos' hend
    have hrow := hback hrow1
    obtain ⟨hord, hin, honly⟩ := snapshot hd hrow
    -- the calls in between have left everything before the row alone
    have hrank : rank (fun e : Key × Row => e.2.txidStamp) (k, r) (selected t gvk f c1.store) =
        rank (fun e : Key × Row => e.2.txidStamp) (k, r) (selected t gvk f c.store) :=
      (rank_congr hord (snapshot (recorded_run hc1) hrow1).1 (sameBefore_run hrun)).symm
    refine ⟨hrow, selected t gvk f c.store :: ls, ?_, ?_, ?_⟩
    · rw [List.flatMap_cons, walk, hrows, hwalk, hoff]
    · cases ls with
      | nil => cases hends
      | cons l ls =>
        rw [hoff] at hends
        exact hends
    · intro l hl
      rcases List.mem_cons.mp hl with rfl | hl
      · exact ⟨hord, hin, honly, rfl⟩
      · obtain ⟨h1, h2, h3, h4⟩ := hls l hl
        exact ⟨h1, h2, h3, h4.trans hrank⟩

lemma filter_eq_singleton {rows : List (Key × Row)} (honly : ∀ r', (k, r') ∈ rows → r' = r)
    (hcount : rows.count (k, r) = 1) : rows.filter (fun e => e.1 = k) = [(k, r)] := by
  have hsame : rows.filter (fun e => decide (e.1 = k)) = rows.filter (fun e => e == (k, r)) := by
    refine List.filter_congr fun e he => ?_
    obtain ⟨k', r'⟩ := e
    by_cases hk : k' = k
    · subst hk
      simp [honly r' he]
    · simp [hk]
  rw [hsame, List.filter_beq, hcount]
  rfl

lemma mem_of_mem_walk {α : Type} {o : ℕ} {ls : List (List α)} {a : α} (h : a ∈ walk n o ls) :
    ∃ l ∈ ls, a ∈ l := by
  induction ls generalizing o with
  | nil => cases h
  | cons l ls ih =>
    rcases List.mem_append.mp h with h | h
    · exact ⟨l, List.mem_cons_self, List.mem_of_mem_drop (List.mem_of_mem_take h)⟩
    · obtain ⟨l', hl', ha⟩ := ih h
      exact ⟨l', List.mem_cons_of_mem _ hl', ha⟩

/-- **Paged lists miss nothing** of what is written after: an object that stays as it is from the
first page to the last is returned once, if the calls between the pages rewrite no selected object
that comes before it and no transaction older than it commits. -/
theorem paged_list_exactly_once {c c' : LossyConf} {pages : List (Page σ τ)} {k : Key} {r : Row}
    {es : List (ℕ × Seen Op Op.Res)}
    (hf : buildListFilter { opts with continueToken := .empty } = .ok f)
    (hc : lossy.Hist ⟨.empty, []⟩ es c) (hrow : c.store.table.lookup k = some r)
    (hsel : selects t gvk f (k, r) = true)
    (h : Listing K t gvk opts (Sparing t gvk f r.txidStamp) c .empty pages c')
    (hend : c'.store.table.lookup k = some r) :
    (pages.flatMap Page.rows).filter (fun e => e.1 = k) = [(k, r)] := by
  have hd := recorded_run hc
  by_cases hlimit : 0 < opts.limit
  · obtain ⟨-, ls, hwalk, hends, hls⟩ := listing_walk hlimit hf hsel h hc
      (hd.historic.mem _ _ hrow) le_rfl hend
    rw [hwalk]
    refine filter_eq_singleton (fun r' hr' => ?_) ?_
    · obtain ⟨l, hl, hmem⟩ := mem_of_mem_walk hr'
      exact (hls l hl).2.2.1 r' hmem
    · rw [count_walk hends fun l hl => ⟨(hls l hl).1, (hls l hl).2.1, (hls l hl).2.2.2⟩]
      exact if_pos (Nat.zero_le _)
  · -- without a limit there is one page
    cases h with
    | last hpage _ =>
      obtain ⟨hrows, -⟩ := listPage_ok hf hd hpage
      rw [if_neg hlimit] at hrows
      rw [List.flatMap_singleton, hrows]
      refine filter_eq_singleton (fun r' hr' => ?_) ?_
      · exact (Option.some.inj (hrow.symm.trans (mem_selected.mp hr').1)).symm
      · exact List.count_eq_one_of_mem (ordered_selected hd.historic).nodup
          (mem_selected.mpr ⟨hrow, hsel⟩)
    | next hpage hmore _ _ =>
      obtain ⟨-, htok⟩ := listPage_ok hf hd hpage
      rw [htok, nextToken, if_neg (fun hand => hlimit hand.1)] at hmore
      exact absurd rfl hmore

end Together

/-! ### Lists that are run -/

section Runs

variable {K : Kind σ τ} {t : Texts} {gvk : String} {opts : ListOptions}
  {ok : Call × Option Cut → Op → Choice → Database → Prop}
  {okb : Call × Option Cut → Op → Choice → Database → Bool}

/-- The list with a schedule for the time after each page. -/
def runListing (K : Kind σ τ) (t : Texts) (gvk : String) (opts : ListOptions)
    (okb : Call × Option Cut → Op → Choice → Database → Bool) :
    List (List (System.Event Choice (Call × Option Cut))) → LossyConf → ContinueToken →
      Option (List (Page σ τ) × LossyConf)
  | [], c, tok =>
    match listPage K t gvk { opts with continueToken := tok } c.store with
    | .ok page => if page.continueToken = .empty then some ([page], c) else none
    | .error _ => none
  | sched :: scheds, c, tok =>
    match listPage K t gvk { opts with continueToken := tok } c.store with
    | .ok page =>
      if page.continueToken = .empty then none
      else (lossy.recordIf okb sched ([], c)).bind fun h =>
        (runListing K t gvk opts okb scheds h.2 page.continueToken).map fun rest =>
          (page :: rest.1, rest.2)
    | .error _ => none

lemma listing_of_run (hok : ∀ l o x s, okb l o x s → ok l o x s)
    {scheds : List (List (System.Event Choice (Call × Option Cut)))} {tok : ContinueToken}
    {pages : List (Page σ τ)} (h : runListing K t gvk opts okb scheds c tok = some (pages, c')) :
    Listing K t gvk opts ok c tok pages c' := by
  induction scheds generalizing c tok pages with
  | nil =>
    unfold runListing at h
    split at h
    · next page hpage =>
      split at h
      · next hlast =>
        cases h
        exact .last hpage hlast
      · cases h
    · cases h
  | cons sched scheds ih =>
    unfold runListing at h
    split at h
    · next page hpage =>
      split at h
      · cases h
      · next hmore =>
        obtain ⟨⟨es, c1⟩, hrec, h⟩ := Option.bind_eq_some_iff.mp h
        obtain ⟨⟨rest, c2⟩, hrest, h⟩ := Option.map_eq_some_iff.mp h
        cases h
        exact .next hpage hmore (System.HistIf.record hok .start hrec) (ih hrest)
    · cases h

end Runs

/-- The test for `Spares`. -/
def sparesFrom (t : Texts) (gvk : String) (f : Option ListFilter) (stamp : ℕ) (d : Database) :
    Op → Bool
  | .insertRow x p | .reviveRow x p | .updateStatus x p | .updateObject x p =>
    stamp < x && (d.table.lookup p.key).all fun r0 =>
      !selects t gvk f (p.key, r0) || stamp ≤ r0.txidStamp
  | .currentXactId | .selectRow _ | .endTx _ | .compact .. => true

lemma spares_of {t : Texts} {gvk : String} {f : Option ListFilter} {stamp : ℕ} {d : Database}
    (h : sparesFrom t gvk f stamp d o = true) : Spares t gvk f stamp d o := by
  have write : ∀ {x : ℕ} {p : WriteParams}, (decide (stamp < x) && (d.table.lookup p.key).all
      fun r0 => !selects t gvk f (p.key, r0) || decide (stamp ≤ r0.txidStamp)) = true →
      stamp < x ∧ ∀ r0, d.table.lookup p.key = some r0 → selects t gvk f (p.key, r0) = true →
        stamp ≤ r0.txidStamp := by
    intro x p hw
    simp only [Bool.and_eq_true, decide_eq_true_eq, Option.all_eq_true] at hw
    refine ⟨hw.1, fun r0 hr0 hsel => ?_⟩
    have := hw.2 r0 hr0
    simpa [hsel] using this
  cases o with
  | insertRow x p | reviveRow x p | updateStatus x p | updateObject x p => exact write h
  | currentXactId | selectRow k | endTx x | compact x c => trivial

def namedObject (name : String) (uid : UidText) (resourceVersion : String) : Object :=
  { plainObject uid resourceVersion with key := ⟨"g/v1/K", "ns", name⟩ }

def creating : List (String × ℕ × Uid) → List (System.Event Choice (Call × Option Cut))
  | [] => []
  | (name, i, uid) :: rest =>
    .spawn (.create plainOptions (namedObject name .empty ""), none) :: .act i ⟨0, 0, []⟩ ::
      .act i ⟨0, uid, []⟩ :: creating rest

def onePerPage : ListOptions where
  ns := ""
  fieldSelector := none
  labelSelector := none
  limit := 1
  continueToken := .empty

def onePerPageFilter : Option ListFilter := some ⟨[], [], 1, 0⟩

/-- One object is listed, and another one is created after its page. -/
theorem paged_list_exactly_once_created : ∃ (es : List (ℕ × Seen Op Op.Res)) (c c' : LossyConf)
    (pages : List (Page Json Json)) (r : Row), lossy.Hist ⟨.empty, []⟩ es c ∧
      Listing Kind.raw plainTexts "g/v1/K" onePerPage
        (Sparing plainTexts "g/v1/K" onePerPageFilter r.txidStamp) c .empty pages c' ∧
      pages.length = 3 ∧
      (pages.flatMap Page.rows).filter (fun e => e.1 = ⟨"g/v1/K", "ns", "a"⟩) =
        [(⟨"g/v1/K", "ns", "a"⟩, r)] := by
  have hrun : (lossy.recordIf (fun _ _ _ _ => true) (creating [("a", 0, 7)])
      ([], ⟨.empty, []⟩)).any (fun h =>
        (h.2.store.table.lookup ⟨"g/v1/K", "ns", "a"⟩).any fun r =>
        selects plainTexts "g/v1/K" onePerPageFilter (⟨"g/v1/K", "ns", "a"⟩, r) &&
        (runListing Kind.raw plainTexts "g/v1/K" onePerPage
          (fun _ o _ d => sparesFrom plainTexts "g/v1/K" onePerPageFilter r.txidStamp d o)
          [creating [("b", 1, 8)], []] h.2 .empty).any fun l =>
            l.1.length == 3 &&
            decide (l.2.store.table.lookup ⟨"g/v1/K", "ns", "a"⟩ = some r)) = true := by
    decide +kernel
  obtain ⟨es, c, hc, hobs⟩ := System.HistIf.observed (fun _ _ _ _ _ => trivial) hrun
  simp only [Option.any_eq_true, Bool.and_eq_true, beq_iff_eq, decide_eq_true_eq] at hobs
  obtain ⟨r, hr, hsel, ⟨pages, c'⟩, hlist, hlen, hend⟩ := hobs
  have hlisting := listing_of_run (fun _ _ _ _ h => spares_of h) hlist
  have hfilter : buildListFilter { onePerPage with continueToken := .empty } =
      .ok onePerPageFilter := rfl
  exact ⟨es, c, c', pages, r, hc, hlisting, hlen,
    paged_list_exactly_once hfilter hc hr hsel hlisting hend⟩

/-- Two objects are listed one by one, and the first is updated after its page: the second stays as
it is and is on no page. -/
theorem paged_list_misses : ∃ (es : List (ℕ × Seen Op Op.Res)) (c c' : LossyConf)
    (pages : List (Page Json Json)) (r : Row), lossy.Hist ⟨.empty, []⟩ es c ∧
      Listing Kind.raw plainTexts "g/v1/K" onePerPage (fun _ _ _ _ => True) c .empty pages c' ∧
      c.store.table.lookup ⟨"g/v1/K", "ns", "b"⟩ = some r ∧
      c'.store.table.lookup ⟨"g/v1/K", "ns", "b"⟩ = some r ∧
      selects plainTexts "g/v1/K" onePerPageFilter (⟨"g/v1/K", "ns", "b"⟩, r) = true ∧
      (pages.flatMap Page.rows).filter (fun e => e.1 = ⟨"g/v1/K", "ns", "b"⟩) = [] := by
  have hrun : (lossy.recordIf (fun _ _ _ _ => true) (creating [("a", 0, 7), ("b", 1, 8)])
      ([], ⟨.empty, []⟩)).any (fun h =>
        (h.2.store.table.lookup ⟨"g/v1/K", "ns", "b"⟩).any fun r =>
        (runListing Kind.raw plainTexts "g/v1/K" onePerPage (fun _ _ _ _ => true)
          [.spawn (respecify, none) :: List.replicate 4 (.act 2 ⟨0, 0, []⟩), []]
          h.2 .empty).any fun l =>
            decide (l.2.store.table.lookup ⟨"g/v1/K", "ns", "b"⟩ = some r) &&
            (selects plainTexts "g/v1/K" onePerPageFilter (⟨"g/v1/K", "ns", "b"⟩, r) &&
            decide ((l.1.flatMap Page.rows).filter
              (fun e => e.1 = ⟨"g/v1/K", "ns", "b"⟩) = []))) = true := by decide +kernel
  obtain ⟨es, c, hc, hobs⟩ := System.HistIf.observed (fun _ _ _ _ _ => trivial) hrun
  simp only [Option.any_eq_true, Bool.and_eq_true, decide_eq_true_eq] at hobs
  obtain ⟨r, hr, ⟨pages, c'⟩, hlist, hend, hsel, hmiss⟩ := hobs
  exact ⟨es, c, c', pages, r, hc, listing_of_run (fun _ _ _ _ _ => trivial) hlist, hr, hend, hsel,
    hmiss⟩

end Seaplane.Db.Selectors
