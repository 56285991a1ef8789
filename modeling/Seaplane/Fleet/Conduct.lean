import Seaplane.Fleet.System

/-!
What a program may do on the strength of what it has seen.

Most of what the programs do keeps to itself: it reads, it writes objects of kinds that others own,
or it writes back an object it has read with another spec, other annotations or another status.
-/

namespace Seaplane.Fleet

open Lib Kube

/-- The kinds whose objects only the API server and the operator write. -/
def managed : Kind → Bool
  | .cluster | .nodePool | .placement => true
  | _ => false

/-- The Placement a Cluster's status refers to. -/
def refOf : (kind : Kind) → Status kind → Option PlacementReference
  | .cluster, st => st.placementRef
  | _, _ => none

def isRead : Dynamo.Op → Bool
  | .getItem _ | .getApplyStatus _ | .getReadStatus _ => true
  | _ => false

/-- Reads, and writes of objects of kinds that are not managed. -/
def Idle : Op → Prop
  | .kube (.get _) | .kube (.list _ _) | .infra _ | .check _ _ | .now => True
  | .kube (.create k _) | .kube (.update k _) | .kube (.updateStatus k _) | .kube (.delete k _) =>
    managed k.kind = false
  | .dynamo o => isRead o

/-- Writes of managed objects that leave their owner, their labels, their finalizers and their
placement as they were read; Placements are not deleted. -/
def Keeps (tr : List Event) : Op → Prop
  | .kube (.update k o) => ∃ s, Known tr k s ∧
      o = { s with annotations := o.annotations, spec := o.spec }
  | .kube (.updateStatus k o) => ∃ s, Known tr k s ∧ o = { s with status := o.status } ∧
      refOf k.kind o.status = refOf k.kind s.status
  | .kube (.delete k o) => k.kind ≠ .placement ∧ Known tr k o
  | _ => False

def Modest (tr : List Event) (o : Op) : Prop := Idle o ∨ Keeps tr o

variable {tr tr' : List Event}

lemma keeps_spec {k : Key} {s : Object k.kind} (h : Known tr k s)
    (spec : Spec k.kind) : Keeps tr (.kube (.update k { s with spec := spec })) := ⟨s, h, rfl⟩

/-! ### What a program has seen grows -/

def Puts (kd : Dynamo.DocKey) (e : Event) : Prop := ∃ i, e.1 = .dynamo (.putItem kd i)

/-- The event updates a managed object, and the answer is not a conflict. -/
def Updates (e : Event) : Prop :=
  ∃ k o r, e = ⟨.kube (.update k o), r⟩ ∧ managed k.kind ∧ r ≠ .error .conflict

/-- What happened in between wrote no documents but some, and updated no managed object. -/
def Extends (D : Dynamo.DocKey → Prop) (tr tr' : List Event) : Prop :=
  ∃ es, tr' = es ++ tr ∧ ∀ e ∈ es, (∀ kd, Puts kd e → D kd) ∧ ¬Updates e

abbrev NoDoc : Dynamo.DocKey → Prop := fun _ => False

abbrev AllDocs : Dynamo.DocKey → Prop := fun _ => True

namespace Extends

variable {D : Dynamo.DocKey → Prop} {tr tr' tr'' : List Event}

lemma refl : Extends D tr tr := ⟨[], rfl, by simp⟩

lemma trans (h : Extends D tr tr') (h' : Extends D tr' tr'') : Extends D tr tr'' := by
  obtain ⟨es, rfl, he⟩ := h
  obtain ⟨es', rfl, he'⟩ := h'
  refine ⟨es' ++ es, by simp, fun e hm => ?_⟩
  rcases List.mem_append.mp hm with hm | hm
  · exact he' e hm
  · exact he e hm

lemma imp {D' : Dynamo.DocKey → Prop} (h : Extends D tr tr') (hD : ∀ kd, D kd → D' kd) :
    Extends D' tr tr' := by
  obtain ⟨es, rfl, he⟩ := h
  exact ⟨es, rfl, fun e hm => ⟨fun kd hp => hD kd ((he e hm).1 kd hp), (he e hm).2⟩⟩

lemma of_noDoc (h : Extends NoDoc tr tr') : Extends D tr tr' := h.imp fun _ hf => hf.elim

lemma subset (h : Extends D tr tr') : tr ⊆ tr' := by
  obtain ⟨es, rfl, -⟩ := h
  exact List.subset_append_right es tr

lemma cons {o : Op} {r : o.Res} (h : Extends D tr tr')
    (hp : ∀ kd i, o = .dynamo (.putItem kd i) → D kd)
    (hu : ∀ k w, o = .kube (.update k w) → managed k.kind = false) :
    Extends D tr (⟨o, r⟩ :: tr') := by
  refine h.trans ⟨[⟨o, r⟩], rfl, fun e he => ?_⟩
  rw [List.mem_singleton.mp he]
  refine ⟨fun kd ⟨i, hi⟩ => hp kd i hi, ?_⟩
  rintro ⟨k, w, r', hw, hk, -⟩
  rw [hu k w (congrArg Sigma.fst hw)] at hk
  cases hk

lemma cons_refused {k : Key} {w : Object k.kind} (h : Extends D tr tr') :
    Extends D tr (⟨.kube (.update k w), .error .conflict⟩ :: tr') := by
  refine h.trans ⟨[⟨.kube (.update k w), .error .conflict⟩], rfl, fun e he => ?_⟩
  rw [List.mem_singleton.mp he]
  refine ⟨?_, ?_⟩
  · rintro kd ⟨i, ⟨⟩⟩
  · rintro ⟨k', w', r', he', -, hr⟩
    cases he'
    exact hr rfl

/-- What was so since some event still is, unless a write of the document has ended it. -/
lemma since {kd : Dynamo.DocKey} {P : Event → Prop} (h : Extends D tr tr') (hkd : ¬D kd)
    (hs : Since (Puts kd) P tr) : Since (Puts kd) P tr' := by
  obtain ⟨es, rfl, he⟩ := h
  exact hs.append fun e hm hp => hkd ((he e hm).1 kd hp)

end Extends

/-- The program began with this state of the object. -/
def Subject (k : Key) (tr : List Event) (s : Object k.kind) : Prop :=
  tr.getLast? = some ⟨.kube (.get k), .ok s⟩

namespace Subject

variable {k : Key} {tr : List Event} {s s' : Object k.kind}

lemma append (h : Subject k tr s) (es : List Event) : Subject k (es ++ tr) s := by
  unfold Subject at h ⊢
  rw [List.getLast?_append, h]
  rfl

lemma tail {e : Event} (h : Subject k (e :: tr) s) (ht : tr ≠ []) : Subject k tr s := by
  unfold Subject at h ⊢
  rwa [List.getLast?_cons_of_ne_nil ht] at h

lemma mem (h : Subject k tr s) : (⟨.kube (.get k), .ok s⟩ : Event) ∈ tr := List.mem_of_getLast? h

lemma unique (h : Subject k tr s) (h' : Subject k tr s') : s = s' := by
  unfold Subject at h h'
  rw [h] at h'
  cases h'
  rfl

lemma extend {D : Dynamo.DocKey → Prop} (h : Subject k tr s)
    (he : Extends D tr tr') : Subject k tr' s := by
  obtain ⟨es, rfl, -⟩ := he
  exact h.append es

end Subject

/-! ### Modest programs -/

lemma Idle.extends {o : Op} (h : Idle o) (he : Extends NoDoc tr tr')
    (r : o.Res) : Extends NoDoc tr (⟨o, r⟩ :: tr') := by
  refine he.cons ?_ ?_
  · rintro kd i rfl
    cases h
  · rintro k w rfl
    exact h

lemma guards_idle {α : Type} {A : List Event → Op → Prop} {Q : List Event → α → Prop} {o : Op}
    {f : o.Res → FleetProg α} (hA : ∀ tr o, Modest tr o → A tr o)
    (h : Idle o) (he : Extends NoDoc tr tr')
    (hf : ∀ r, Extends NoDoc tr (⟨o, r⟩ :: tr') → (f r).Guards Any A Q (⟨o, r⟩ :: tr')) :
    ((Prog.call o).bind f).Guards Any A Q tr' :=
  .call (hA _ _ (.inl h)) fun r _ _ => hf r (h.extends he r)

end Seaplane.Fleet
