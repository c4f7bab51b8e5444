/-
TripleLogic.Proofs.FiniteAnswers — what is found for finite inputs is finite.

An answer can be sent only if all its numbers are finite. Nothing that is
computed for an answer makes an infinite number: inference and search put
together what they are given (`Infers.finite`, `Proof.finite_search`), and an
ontology reports texts and the demands that it was given
(`Ontology.Finite.reports`).

Main statement: a finite answer can be sent, however it is made ready
(`Server.Dress.exists_apply?`).
-/
import TripleLogic.Proofs.BackwardChaining
import TripleLogic.Proofs.Certificate
import TripleLogic.Proofs.Conflict
import TripleLogic.Proofs.Consistency
import TripleLogic.Proofs.Finiteness
import TripleLogic.Proofs.KeyFaults
import TripleLogic.Server

namespace TripleLogic

/-! ## Bindings -/

/-- All bound variables are bound to what is finite. -/
def Bindings.Finite (θ : Bindings) : Prop :=
  ∀ b ∈ θ, b.2.Finite

theorem Bindings.finite_nil : Finite [] := List.forall_mem_nil _

theorem Bindings.Finite.resolve {θ : Bindings} (hθ : θ.Finite) {e : Expr} (he : e.Finite) :
    (θ.resolve e).Finite :=
  resolve_of_forall hθ he

/-- Unifying two finite tokens binds variables to what is finite. -/
theorem Unify.exprs_finite {x y : Expr} (hx : x.Finite) (hy : y.Finite) :
    Keeps Bindings.Finite (exprs x y) :=
  exprs_keeps hx hy

/-! ## Substitution and unification -/

theorem Statement.Finite.placed {s : Statement} (h : s.Finite) : ∀ x ∈ s.placed, x.2.Finite := by
  simp only [Statement.placed, List.forall_mem_cons, List.forall_mem_map]
  exact ⟨h.subject, Expr.finite_identifier _, h.object, h.attributes⟩

theorem Statement.Finite.subst {θ : Bindings} (hθ : θ.Finite) {s : Statement} (h : s.Finite) :
    (s.subst θ).Finite where
  subject := hθ.resolve h.subject
  object := hθ.resolve h.object
  attributes := List.forall_mem_map.2 fun a ha => hθ.resolve (h.attributes a ha)
  tense := h.tense

namespace Node

theorem Finite.bears {n : Node} (h : n.Finite) : n.Bears fun _ e => e.Finite := by
  induction n using Node.ind with
  | intent i => exact bears_intent.2 fun s hs => ((finite_intent.1 h).1 s hs).placed
  | compound o a b iha ihb =>
      obtain ⟨ha, hb⟩ := finite_compound.1 h
      exact bears_compound.2 ⟨fun n hn => iha n hn (ha n hn), fun n hn => ihb n hn (hb n hn)⟩
  | quantified q v a d ih => exact ih (finite_quantified.1 h)
  | rule i a b d x c iha ihb =>
      obtain ⟨-, ha, hb⟩ := finite_rule.1 h
      exact bears_rule.2 ⟨iha ha, ihb hb⟩
  | edge e => exact List.forall_mem_map.2 (by simp [Edge.tokens, Expr.finite_identifier])

theorem Finite.subst {θ : Bindings} (hθ : θ.Finite) {n : Node} (h : n.Finite) :
    (n.subst θ).Finite := by
  refine Everywhere.subst (fun m hm => ?_) h
  cases m with
  | intent i =>
      exact ⟨List.forall_mem_map.2 fun s hs => (hm.1 s hs).subst hθ, hm.2⟩
  | rule i a b d x c => exact hm
  | edge e => exact hm
  | compound o a b => trivial
  | quantified q v a d => trivial

theorem Finite.unifyWith {m n : Node} (hm : m.Finite) (hn : n.Finite) {θ : Bindings}
    (h : m.unifyWith n [] = some θ) : θ.Finite :=
  Unify.nodes_keeps (T := fun _ e => e.Finite) (fun _ _ _ => Unify.exprs_finite) hm.bears hn.bears
    [] θ Bindings.finite_nil h

end Node

/-! ## Inference -/

/-- What is inferred from finite nodes is finite. -/
theorem Infers.finite {nodes : List Node} {c : Node} (h : Infers nodes c)
    (hn : ∀ n ∈ nodes, n.Finite) : c.Finite := by
  refine h.keeps hn id .of_mem_children (.negate trivial) (.implies trivial) ?_
  intro a b θ ha hb hθ
  have hfinite : θ.Finite :=
    Unify.matchPremises_keeps (T := fun _ e => e.Finite) (fun _ _ _ => Unify.exprs_finite)
      (fun n hmem => (hn n hmem).bears) ha.bears Bindings.finite_nil hθ
  exact hb.subst hfinite

/-! ## Proofs -/

namespace Proof

theorem toDataAll_eq_map (ps : List Proof) : toDataAll ps = ps.map toData := by
  induction ps with
  | nil => rfl
  | cons p ps ih => simp only [toDataAll, List.map_cons, ih]

theorem finite_substitutionData (σ : Substitution) : (substitutionData σ).Finite :=
  .obj (List.forall_mem_map.2 fun b _ => .str b.2)

theorem finite_step {goal : Node} (hg : goal.Finite) (via : Justification) {ps : List Proof}
    (hps : ∀ p ∈ ps, p.toData.Finite) (σ : Substitution) :
    (Proof.step goal via ps σ).toData.Finite := by
  have hpremises : (Data.list (toDataAll ps)).Finite := by
    rw [toDataAll_eq_map]
    exact .list (List.forall_mem_map.2 hps)
  exact .obj (by
    simp [hg.toData, Data.Finite.str, Data.Finite.bool, finite_substitutionData, hpremises])

/-- A proof that is found for a finite goal among finite nodes is finite. -/
theorem finite_search {nodes : List Node} (hn : ∀ n ∈ nodes, n.Finite) {fuel : Nat}
    {path hypotheses : List Node} {goal : Node} {p : Proof}
    (h : search nodes fuel path hypotheses goal = some p) (hh : ∀ n ∈ hypotheses, n.Finite)
    (hg : goal.Finite) : p.toData.Finite := by
  induction fuel generalizing path hypotheses goal p with
  | zero => cases h
  | succ fuel ih =>
      cases (search_found h).2 with
      | fact => exact finite_step hg _ (by simp) _
      | @way w θ q hw hθ hq =>
          obtain ⟨n, hmem, hpremise, hconclusion⟩ := mem_children_of_mem_ways hw
          have hθ := ((hn n hmem).of_mem_children hconclusion).unifyWith hg hθ
          have hfinite := ih hq hh (((hn n hmem).of_mem_children hpremise).subst hθ)
          exact finite_step hg _ (by simpa using hfinite) _
      | @conjunction a b q r hgoal hq hr =>
          subst hgoal
          obtain ⟨ha, hb⟩ := Node.finite_compound.1 hg
          exact finite_step hg _ (by simp [ih hq hh (ha a rfl), ih hr hh (hb b rfl)]) _
      | @implication a b q hgoal hq =>
          subst hgoal
          obtain ⟨ha, hb⟩ := Node.finite_compound.1 hg
          have hh' : ∀ n ∈ hypotheses ++ [a], n.Finite :=
            List.forall_mem_append.2 ⟨hh, List.forall_mem_singleton.2 (ha a rfl)⟩
          exact finite_step hg _ (by simpa using ih hq hh' (hb b rfl)) _

end Proof

/-! ## Engines -/

namespace Engine

theorem finite_ofEntries {ns : List Node} (h : ∀ n ∈ ns, n.Finite) (settings : InferenceSettings) :
    ∀ n ∈ (ofEntries (ns.map .node) settings).kb.nodes, n.Finite := by
  intro n hn
  obtain ⟨e, he, hen⟩ := List.mem_filterMap.1 hn
  rcases KnowledgeBase.mem_entries_extend he with he | he
  · cases he
  · obtain ⟨m, hm, rfl⟩ := List.mem_map.1 he
    cases hen
    exact h n hm

theorem finite_forward {g : Engine} (h : ∀ n ∈ g.kb.nodes, n.Finite) (bound : Nat) :
    (∀ n ∈ (g.forward bound).1.kb.nodes, n.Finite) ∧
      ∀ s, (g.forward bound).2 = .ok s → ∀ n ∈ s.derived, n.Finite :=
  forward_induct (fun hn hc => hc.finite hn) g bound h

theorem finite_backward {g : Engine} (h : ∀ n ∈ g.kb.nodes, n.Finite) {goal : Node}
    (hg : goal.Finite) {p : Proof} (hp : g.backward (.node goal) = .ok (some p)) :
    p.goal.Finite ∧ p.toData.Finite := by
  have hfind := Proof.find?_of_findEntry? hp
  exact ⟨Proof.search_goal hfind ▸ hg, Proof.finite_search h hfind (List.forall_mem_nil _) hg⟩

/-- The answer to a finite goal is finite. -/
theorem finite_prove {g : Engine} (h : ∀ n ∈ g.kb.nodes, n.Finite) {goal : Node}
    (hg : goal.Finite) {v : Verdict} (hv : (g.prove (.node goal)).2 = .ok v) :
    v.toData.Finite := by
  unfold Verdict.toData
  split
  · next p hp =>
      have hfinite : p.toData.Finite := by
        obtain ⟨-, hfound⟩ | ⟨q, -, -, hfound, rfl⟩ := prove_cases hv hp
        · exact (finite_backward h hg hfound).2
        · have hnodes : ∀ n ∈ (g.prove (.node goal)).1.kb.nodes, n.Finite := by
            rcases g.prove_engine (.node goal) with heq | heq
            · rwa [heq]
            · rw [heq]
              exact (finite_forward h _).1
          obtain ⟨hgoal, hq⟩ := finite_backward hnodes hg hfound
          exact Proof.finite_step hgoal _ (List.forall_mem_singleton.2 hq) _
      exact .obj (by simp [Data.Finite.bool, hfinite])
  · exact .obj (by simp [Data.Finite.bool, Data.Finite.str])

/-- What is written for contradictions among finite nodes is finite. -/
theorem finite_contradictions {g : Engine} (h : ∀ n ∈ g.kb.nodes, n.Finite) :
    ∀ c ∈ g.contradictions, (Server.contradictionData c).Finite := by
  intro c hc
  rw [contradictions, Node.contradictions_eq] at hc
  obtain ⟨⟨m, n⟩, hmn, hc⟩ := List.mem_filterMap.1 hc
  obtain ⟨reason, -, rfl⟩ := Option.map_eq_some_iff.1 hc
  obtain ⟨hm, hn⟩ := mem_of_mem_pairs hmn
  exact .obj (by simp [Data.Finite.str, (h m hm).toData, (h n hn).toData])

end Engine

/-! ## Ontologies -/

namespace Ontology

/-- What an ontology demands is finite. -/
def Finite (o : Ontology) : Prop :=
  ∀ c ∈ o.constraints, c.domain.Finite ∧ c.range.Finite

/-- What is learned changes no demand. -/
theorem Finite.learn {o : Ontology} (ho : o.Finite) (axioms : List Axiom) :
    (o.learn axioms).1.Finite := by
  rw [Finite, (learn_registered o axioms).1]
  exact ho

theorem Finite.addConstraint {o : Ontology} (ho : o.Finite) {c : Constraint}
    (hc : c.domain.Finite ∧ c.range.Finite) : (o.addConstraint c).Finite := by
  intro d hd
  unfold Ontology.addConstraint at hd
  split at hd
  · obtain ⟨e, he, rfl⟩ := List.mem_map.1 hd
    split
    · exact hc
    · exact ho e he
  · rcases List.mem_append.1 hd with hd | hd
    · exact ho d hd
    · rw [List.mem_singleton.1 hd]
      exact hc

theorem Finite.addConstraints {cs : List Constraint}
    (hcs : ∀ c ∈ cs, c.domain.Finite ∧ c.range.Finite) : ∀ {o : Ontology}, o.Finite →
      (cs.foldl Ontology.addConstraint o).Finite := by
  induction cs with
  | nil => exact fun ho => ho
  | cons c cs ih =>
      intro o ho
      obtain ⟨hc, hcs⟩ := List.forall_mem_cons.1 hcs
      exact ih hcs (ho.addConstraint hc)

theorem Finite.addDisjoints : ∀ {ps : List (String × String)} {o : Ontology}, o.Finite →
    (ps.foldl (fun o p => o.addDisjoint p.1 p.2) o).Finite
  | [], _, ho => ho
  | p :: ps, o, ho => by
      have hp : (o.addDisjoint p.1 p.2).Finite := by
        unfold addDisjoint
        split
        · exact ho
        · exact ho
      rw [List.foldl_cons]
      exact addDisjoints hp

theorem finite_ofSettings (settings : OntologySettings) : (ofSettings settings).Finite := by
  have hempty : ({ settings } : Ontology).Finite := List.forall_mem_nil _
  unfold ofSettings
  split
  · refine .addDisjoints (.addConstraints ?_ hempty)
    simp [defaultConstraints, demand, Data.Finite.str, Data.Finite.null]
  · exact hempty

end Ontology

/-! ## Documents -/

namespace Constraint

theorem finite_ofData {d : Data} (h : d.Finite) {c : Constraint} (hc : ofData d = .ok c) :
    c.domain.Finite ∧ c.range.Finite := by
  cases d with
  | obj fields =>
      simp only [ofData] at hc
      split at hc
      · cases hc
      · split at hc
        · cases hc
        · obtain ⟨cardinality, -, hc⟩ := bind_eq_ok_iff.1 hc
          obtain ⟨disjointWith, -, hc⟩ := bind_eq_ok_iff.1 hc
          cases hc
          exact ⟨h.optional "domain", h.optional "range"⟩
  | _ => cases hc

end Constraint

namespace Document

/-- What a document demands is finite. -/
def Finite (d : Document) : Prop :=
  ∀ c ∈ d.constraints, c.domain.Finite ∧ c.range.Finite

theorem finite_empty : ({} : Document).Finite := List.forall_mem_nil _

theorem Finite.apply {d : Document} (h : d.Finite) {o : Ontology} (ho : o.Finite) :
    (d.apply o).Finite :=
  .addDisjoints (.addConstraints h ho)

theorem finite_itemsOf {fields : Fields} (h : (Data.obj fields).Finite) {key : String}
    {xs : List Data} (hxs : itemsOf fields key = .ok xs) : ∀ x ∈ xs, x.Finite := by
  unfold itemsOf at hxs
  split at hxs
  · cases hxs
    exact List.forall_mem_nil _
  · next d hd => exact (h.field hd).of_mem_items (Data.itemsOr_eq_ok_iff.1 hxs)

theorem ofData_of_constraintOfData {d : Data} {c : Constraint} (h : constraintOfData d = .ok c) :
    Constraint.ofData d = .ok c := by
  unfold constraintOfData at h
  split at h
  · cases h
  · exact h

/-- A finite value is read as a finite document. -/
theorem finite_ofData {d : Data} (h : d.Finite) {doc : Document} (hdoc : ofData d = .ok doc) :
    doc.Finite := by
  cases d with
  | obj fields =>
      simp only [ofData, bind_eq_ok_iff] at hdoc
      obtain ⟨xs, hxs, constraints, hconstraints, _, -, disjoint, -, axioms, -, hdoc⟩ := hdoc
      cases hdoc
      intro c hc
      obtain ⟨x, hx, hread⟩ := exists_of_mem_mapM hconstraints c hc
      exact Constraint.finite_ofData (finite_itemsOf h hxs x hx) (ofData_of_constraintOfData hread)
  | _ => cases hdoc

end Document

/-! ## Conflicts -/

/-- What a clash reports is finite. -/
def Clash.Finite : Clash → Prop
  | .type _ _ _ expected _ s => expected.Finite ∧ s.Finite
  | _ => True

theorem Clash.Finite.details {c : Clash} (h : c.Finite) : ∀ f ∈ c.details, f.2.Finite := by
  cases c with
  | taxonomy s c d w =>
      simp only [Clash.details]
      split <;> simp [Data.Finite.str, Data.finite_texts]
  | cardinality s r v w => simp [Clash.details, Data.Finite.str]
  | disjointValues s p q v w => simp [Clash.details, Data.Finite.str]
  | type e r role expected classes s =>
      simp [Clash.details, Data.Finite.str, Data.finite_texts, h.1, h.2.toData]

namespace Ontology

theorem finite_of_clash? {o : Ontology} {s t : Statement} {c : Clash}
    (h : o.clash? s t = some c) : c.Finite := by
  unfold clash? at h
  split at h
  · cases h
  · simp only [Option.orElse_eq_orElse, Option.orElse_eq_or, Option.or_eq_some_iff] at h
    rcases h with h | ⟨-, h | ⟨-, h⟩⟩
    · unfold taxonomyClash at h
      split at h
      · obtain ⟨w, -, rfl⟩ := Option.map_eq_some_iff.1 h
        trivial
      · cases h
    · unfold cardinalityClash at h
      split at h
      · split at h
        · cases h
          trivial
        · cases h
      · cases h
    · unfold exclusionClash at h
      split at h
      · cases h
        trivial
      · cases h

theorem finite_of_violation? {o : Ontology} {relation : String} {role : Role}
    {e : Expr} {expected : Data} (he : expected.Finite) {s : Statement} (hs : s.Finite)
    {c : Clash} (h : o.violation? relation role e expected s = some c) : c.Finite := by
  unfold Ontology.violation? at h
  split at h
  · cases h
  · dsimp only at h
    split at h
    · cases h
    · cases h
      exact ⟨he, hs⟩

theorem Finite.violations {o : Ontology} (ho : o.Finite) {ss : List Statement}
    (hss : ∀ s ∈ ss, s.Finite) : ∀ c ∈ o.violations ss, c.Finite := by
  intro c hc
  obtain ⟨s, hs, hc⟩ := List.mem_flatMap.1 hc
  split at hc
  · cases hc
  · next k hk =>
      obtain ⟨hdomain, hrange⟩ := ho k (List.mem_of_find?_eq_some hk)
      rcases List.mem_append.1 hc with hc | hc
      · exact finite_of_violation? hdomain (hss s hs) (Option.mem_toList.1 hc)
      · exact finite_of_violation? hrange (hss s hs) (Option.mem_toList.1 hc)

end Ontology

theorem Conflict.finite_toData {c : Conflict} (h : ∀ f ∈ c.details, f.2.Finite) :
    (Data.obj c.toData).Finite :=
  .obj (by simp [toData, Data.finite_ofText?, Data.finite_obj.2 h])

namespace Ontology

/-- What is written for the conflicts among finite statements is finite. -/
theorem finite_conflicts (o : Ontology) {ss : List Statement} (hss : ∀ s ∈ ss, s.Finite) :
    ∀ c ∈ o.conflicts ss, (Data.obj c.toData).Finite := by
  refine List.forall_mem_map.2 fun ⟨c, s, t⟩ hc => Conflict.finite_toData ?_
  obtain ⟨k, -, hc⟩ := List.mem_flatMap.1 hc
  rw [clashesWithin_eq] at hc
  obtain ⟨⟨s, t⟩, hst, hc⟩ := List.mem_filterMap.1 hc
  obtain ⟨c, hclash, heq⟩ := Option.map_eq_some_iff.1 hc
  cases heq
  obtain ⟨hs, ht⟩ := mem_of_mem_pairs hst
  have hs := (hss s (List.mem_filter.1 hs).1).toData
  have ht := (hss t (List.mem_filter.1 ht).1).toData
  exact List.forall_mem_append.2 ⟨(finite_of_clash? hclash).details, by simp [hs, ht]⟩

theorem Finite.typeConflicts {o : Ontology} (ho : o.Finite) {ss : List Statement}
    (hss : ∀ s ∈ ss, s.Finite) : ∀ c ∈ o.typeConflicts ss, (Data.obj c.toData).Finite :=
  List.forall_mem_map.2 fun c hc => Conflict.finite_toData (ho.violations hss c hc).details

/-- What is written for all that is found among finite statements is finite. -/
theorem Finite.reports {o : Ontology} (ho : o.Finite) {ss : List Statement}
    (hss : ∀ s ∈ ss, s.Finite) (types : Bool) :
    (Data.list ((o.conflicts ss ++ if types then o.typeConflicts ss else []).map
      fun c => .obj c.toData)).Finite := by
  refine .list (List.forall_mem_map.2 (List.forall_mem_append.2 ⟨o.finite_conflicts hss, ?_⟩))
  split
  · exact ho.typeConflicts hss
  · exact List.forall_mem_nil _

theorem finite_statistics (o : Ontology) : (Data.obj o.statistics).Finite :=
  .obj (by simp [statistics, Data.nat, Data.Finite.int])

end Ontology

/-! ## Sending -/

namespace Server

theorem areSendable_iff {asKey : Bool} {xs : List Data} :
    areSendable asKey xs = true ↔ ∀ x ∈ xs, isSendable asKey x = true := by
  induction xs with
  | nil => simp [areSendable]
  | cons x xs ih => simp [areSendable, ih]

theorem areSendableFields_iff {asKey : Bool} {fs : Fields} :
    areSendableFields asKey fs = true ↔ ∀ f ∈ fs, isSendable asKey f.2 = true := by
  induction fs with
  | nil => simp [areSendableFields]
  | cons f fs ih => simp [areSendableFields, ih]

theorem areSendableEntries_iff {asKey : Bool} {es : List (Data × Data)} :
    areSendableEntries asKey es = true ↔
      ∀ e ∈ es, (asKey && isEndless e.1) = false ∧ isSendable asKey e.2 = true := by
  induction es with
  | nil => simp [areSendableEntries]
  | cons e es ih =>
      simp only [areSendableEntries, List.forall_mem_cons, Bool.and_eq_true, Bool.not_eq_true', ih]

theorem isEndless_of_finite {d : Data} (h : d.Finite) : isEndless d = false := by
  cases h with
  | float h => simp [isEndless, h]
  | _ => rfl

/-- What is finite can be sent. -/
theorem isSendable_of_finite {d : Data} (h : d.Finite) (asKey : Bool) :
    isSendable asKey d = true := by
  induction h with
  | float h => exact h
  | list _ ih => exact areSendable_iff.2 ih
  | obj _ ih => exact areSendableFields_iff.2 ih
  | map hkeys _ _ ih =>
      refine areSendableEntries_iff.2 fun e he => ⟨?_, ih e he⟩
      rw [isEndless_of_finite (hkeys e he), Bool.and_false]
  | _ => rfl

theorem itemsWithoutPrivate_eq_map (xs : List Data) :
    itemsWithoutPrivate xs = xs.map withoutPrivate := by
  induction xs with
  | nil => rfl
  | cons x xs ih => simp only [itemsWithoutPrivate, List.map_cons, ih]

theorem fieldsWithoutPrivate_eq_map (fs : Fields) :
    fieldsWithoutPrivate fs =
      (fs.filter fun f => !isPrivate f.1).map fun f => (f.1, withoutPrivate f.2) := by
  induction fs with
  | nil => rfl
  | cons f fs ih => cases h : isPrivate f.1 <;> simp [fieldsWithoutPrivate, h, ih]

theorem entriesWithoutPrivate_eq_map (es : List (Data × Data)) :
    entriesWithoutPrivate es =
      (es.filter fun e => !isPrivateKey e.1).map fun e => (e.1, withoutPrivate e.2) := by
  induction es with
  | nil => rfl
  | cons e es ih => cases h : isPrivateKey e.1 <;> simp [entriesWithoutPrivate, h, ih]

/-- Leaving out private fields keeps a value finite. -/
theorem finite_withoutPrivate {d : Data} (h : d.Finite) : (withoutPrivate d).Finite := by
  induction h with
  | list _ ih =>
      rw [withoutPrivate, itemsWithoutPrivate_eq_map]
      exact .list (List.forall_mem_map.2 ih)
  | obj _ ih =>
      rw [withoutPrivate, fieldsWithoutPrivate_eq_map]
      exact .obj (List.forall_mem_map.2 fun f hf => ih f (List.mem_filter.1 hf).1)
  | map hkeys _ _ ih =>
      rw [withoutPrivate, entriesWithoutPrivate_eq_map]
      exact .map (List.forall_mem_map.2 fun e he => hkeys e (List.mem_filter.1 he).1)
        (List.forall_mem_map.2 fun e he => ih e (List.mem_filter.1 he).1)
  | float h => exact .float h
  | null => exact .null
  | bool b => exact .bool b
  | int n => exact .int n
  | str s => exact .str s

/-- **Finite answers** can be sent, however they are made ready. -/
theorem Dress.exists_apply? (dress : Dress) {d : Data} (h : d.Finite) :
    ∃ e, dress.apply? d = some e := by
  cases dress with
  | filtered =>
      exact ⟨_, if_pos (isSendable_of_finite (finite_withoutPrivate h) true)⟩
  | whole => exact ⟨_, if_pos (isSendable_of_finite h false)⟩

end Server

end TripleLogic
