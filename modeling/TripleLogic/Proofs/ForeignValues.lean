/-
TripleLogic.Proofs.ForeignValues — foreign values take no part in reasoning.

Two engines are compared: one that is given entries of any kind, and one that
is given only the nodes among them. Both are put the same requests. Leaving
the foreign values out (`Engine.logical`) commutes with every request: what is
answered is the same, and what is known afterwards is again the same but for
the foreign values (`logical_serve`), whatever was asked before
(`logical_serveAll`).

* A foreign value never counts as equal to a node, so it neither keeps a node
  from being added nor makes it count as known (`contains_logical`).
* Everything else is read off the nodes, and no request adds a foreign value
  (`serve_foreign`).

Main statement: every answer is the one that is given without the foreign
values, and so are the nodes that are known, in their order; what is known is
longer by the number of different foreign values (`foreign_values_inert`).
-/
import TripleLogic.Proofs.AppendOnly

namespace TripleLogic

/-! ## Leaving foreign values out -/

namespace Entry

/-- Whether an entry is a node. -/
def isNode : Entry → Bool
  | .foreign _ => false
  | _ => true

/-- The foreign value of an entry. -/
def foreign? : Entry → Option Foreign
  | .foreign v => some v
  | _ => none

/-- Only nodes are equal to a node. -/
theorem isNode_of_same {x e : Entry} (he : e.isNode = true) (h : x.same e = true) :
    x.isNode = true := by
  cases x with
  | foreign v => cases e <;> first | cases h | cases he
  | _ => rfl

end Entry

/-- Of foreign values, those that are stored: in their order, no two of them
equal, and each of the others equal to one of them. -/
structure Foreign.Distinct (given stored : List Foreign) : Prop where
  sublist : stored.Sublist given
  distinct : stored.Pairwise fun v w => (Entry.foreign v).same (.foreign w) = false
  covers : ∀ v ∈ given, v ∈ stored ∨
    ∃ w ∈ stored, (Entry.foreign w).same (.foreign v) = true

namespace KnowledgeBase

/-- The knowledge base without its foreign values. -/
def logical (kb : KnowledgeBase) : KnowledgeBase :=
  ⟨kb.entries.filter Entry.isNode⟩

theorem foreign_eq (kb : KnowledgeBase) : kb.foreign = kb.entries.filterMap Entry.foreign? :=
  congrArg (List.filterMap · kb.entries) (funext fun e => by cases e <;> rfl)

/-- The nodes are the same without the foreign values. -/
@[simp]
theorem nodes_logical (kb : KnowledgeBase) : kb.logical.nodes = kb.nodes := by
  rw [nodes, nodes, logical, List.filterMap_filter]
  exact congrArg (List.filterMap · kb.entries) (funext fun e => by cases e <;> rfl)

@[simp]
theorem statements_logical (kb : KnowledgeBase) : kb.logical.statements = kb.statements := by
  simp only [statements, nodes_logical]

/-- An entry is a node or a foreign value. -/
theorem size_logical (kb : KnowledgeBase) : kb.size = kb.logical.size + kb.foreign.length := by
  rw [foreign_eq, size, size]
  change kb.entries.length = (kb.entries.filter Entry.isNode).length + _
  induction kb.entries with
  | nil => rfl
  | cons e es ih =>
      cases e <;>
        simp [List.filter_cons, List.filterMap_cons, Entry.isNode, Entry.foreign?, ih] <;> omega

theorem foreign_logical (kb : KnowledgeBase) : kb.logical.foreign = [] := by
  rw [foreign_eq, List.filterMap_eq_nil_iff]
  intro e he
  cases e with
  | foreign v => cases (List.mem_filter.1 he).2
  | _ => rfl

/-! ## Adding -/

section

variable {e : Entry} (he : e.isNode = true)

include he

theorem holds_logical (kb : KnowledgeBase) : kb.logical.holds e = kb.holds e := by
  rw [holds, holds, logical, List.any_filter]
  refine congrArg (List.any kb.entries) (funext fun x => ?_)
  exact Bool.and_eq_right_iff_imp.2 (Entry.isNode_of_same he)

theorem contains_logical (kb : KnowledgeBase) : kb.logical.contains e = kb.contains e := by
  rw [contains, contains, holds_logical he]

theorem logical_append (kb : KnowledgeBase) : (kb.append e).logical = kb.logical.append e := by
  simp [logical, append, he]

/-- A node is new or known whether or not there are foreign values. -/
theorem logical_add (kb : KnowledgeBase) :
    kb.logical.add e = ((kb.add e).1.logical, (kb.add e).2) := by
  rw [add, add, contains_logical he]
  split
  · rfl
  · rw [logical_append he]

theorem logical_insert (kb : KnowledgeBase) :
    kb.logical.insert e = ((kb.insert e).1.logical, (kb.insert e).2) := by
  rw [insert, insert, holds_logical he]
  split
  · rfl
  · rw [logical_append he]

theorem foreign_add (kb : KnowledgeBase) : (kb.add e).1.foreign = kb.foreign := by
  have hnone : e.foreign? = none := by
    cases e with
    | foreign v => cases he
    | _ => rfl
  rw [foreign_eq, foreign_eq]
  rcases kb.add_entries e with h | h <;> simp [h, hnone]

end

/-- Adding a foreign value changes nothing else. -/
theorem logical_add_foreign (kb : KnowledgeBase) (v : Foreign) :
    (kb.add (.foreign v)).1.logical = kb.logical := by
  rcases kb.add_entries (.foreign v) with h | h <;> simp [logical, h, Entry.isNode]

theorem logical_extend (es : List Entry) : ∀ kb : KnowledgeBase,
    (kb.extend es).1.logical = (kb.logical.extend (es.filter Entry.isNode)).1 := by
  induction es with
  | nil => exact fun _ => rfl
  | cons e es ih =>
      intro kb
      cases e with
      | foreign v =>
          rw [List.filter_cons_of_neg (by simp [Entry.isNode]), extend, ih, logical_add_foreign]
      | _ => rw [List.filter_cons_of_pos rfl, extend, extend, ih, logical_add rfl]

/-! ## What is stored of foreign values -/

/-- What is new among entries is a part of them. -/
theorem extend_sublist : ∀ (es : List Entry) (kb : KnowledgeBase), (kb.extend es).2.Sublist es
  | [], _ => List.Sublist.refl _
  | e :: es, kb => by
      have ih := extend_sublist es (kb.add e).1
      cases he : (kb.add e).2 with
      | true => simpa [extend, he] using ih
      | false => simpa [extend, he] using ih.cons e

end KnowledgeBase

/-! ## Chaining and searching -/

/-- The outcome of forward chaining without foreign values. -/
def Saturation.logical (s : Saturation) : Saturation :=
  { s with kb := s.kb.logical }

namespace KnowledgeBase

theorem logical_addNodes (ns : List Node) : ∀ kb : KnowledgeBase,
    kb.logical.addNodes ns = ((kb.addNodes ns).1.logical, (kb.addNodes ns).2) := by
  induction ns with
  | nil => exact fun _ => rfl
  | cons n ns ih => 
      intro kb
      have hinsert := logical_insert (e := .node n) rfl kb
      simp [addNodes, hinsert, ih]

theorem logical_pass (kb : KnowledgeBase) :
    kb.logical.pass = (kb.pass.1.logical, kb.pass.2) := by
  rw [pass, pass, candidates, candidates, nodes_logical, logical_addNodes]

/-- Passes read nodes and add nodes. -/
theorem logical_saturate (bound : Nat) : ∀ kb : KnowledgeBase,
    kb.logical.saturate bound = (kb.saturate bound).logical := by
  induction bound with
  | zero => exact fun _ => rfl
  | succ bound ih =>
      intro kb
      have hpass := kb.logical_pass
      by_cases hnew : kb.pass.2 = []
      · rw [saturate_succ_of_nil hnew, saturate_succ_of_nil (by rw [hpass, hnew])]
        rfl
      · rw [saturate_succ_of_ne_nil hnew, saturate_succ_of_ne_nil (by rwa [hpass]), hpass, ih]
        rfl

theorem foreign_saturate (bound : Nat) (kb : KnowledgeBase) :
    (kb.saturate bound).kb.foreign = kb.foreign := by
  rw [foreign, foreign, saturate_entries, List.filterMap_append, List.filterMap_map]
  simp

end KnowledgeBase

namespace Engine

/-- The engine without the foreign values that it knows. -/
def logical (g : Engine) : Engine :=
  { g with kb := g.kb.logical }

/-- An engine over the nodes among entries is the engine over all of them,
without foreign values. -/
theorem logical_ofEntries (es : List Entry) (settings : InferenceSettings) :
    (ofEntries es settings).logical = ofEntries (es.filter Entry.isNode) settings := by
  rw [ofEntries, ofEntries, logical, KnowledgeBase.ofEntries, KnowledgeBase.logical_extend]
  rfl

theorem logical_addConclusion (g : Engine) (c : Conclusion) :
    g.logical.addConclusion c = (g.addConclusion c).logical := by
  obtain ⟨n, source⟩ := c
  cases source with
  | none =>
      have hadd := KnowledgeBase.logical_add (e := .node n) rfl g.kb
      simp [addConclusion, logical, hadd]
  | some place =>
      have hstated : g.logical.stated = g.stated := rfl
      unfold addConclusion
      simp only [hstated]
      split
      · rfl
      · rw [logical, logical, KnowledgeBase.logical_append rfl]

theorem logical_addConclusions (cs : List Conclusion) : ∀ g : Engine,
    cs.foldl addConclusion g.logical = (cs.foldl addConclusion g).logical := by
  induction cs with
  | nil => exact fun _ => rfl
  | cons c cs ih => exact fun g => by rw [List.foldl_cons, logical_addConclusion, ih]; rfl

theorem foreign_addConclusions (cs : List Conclusion) : ∀ g : Engine,
    (cs.foldl addConclusion g).kb.foreign = g.kb.foreign := by
  induction cs with
  | nil => exact fun _ => rfl
  | cons c cs ih =>
      refine fun g => (ih (g.addConclusion c)).trans ?_
      rcases g.addConclusion_entries c with h | h <;> simp [KnowledgeBase.foreign, h]

/-- Forward chaining reads the nodes only, also when it is refused. -/
theorem logical_forward (g : Engine) (bound : Nat) :
    g.logical.forward bound =
      ((g.forward bound).1.logical, (g.forward bound).2.map Saturation.logical) := by
  have hkb : g.logical.kb = g.kb.logical := rfl
  unfold forward
  rw [hkb, KnowledgeBase.nodes_logical]
  split
  · rw [KnowledgeBase.logical_saturate]
    rfl
  · rw [logical_addConclusions]
    rfl

theorem foreign_forward (g : Engine) (bound : Nat) :
    (g.forward bound).1.kb.foreign = g.kb.foreign := by
  unfold forward
  split
  · exact g.kb.foreign_saturate bound
  · exact foreign_addConclusions _ g

/-- The search for a proof goes through the nodes only. -/
theorem logical_backward (g : Engine) (goal : Entry) :
    g.logical.backward goal = g.backward goal := by
  simp only [backward, logical, KnowledgeBase.nodes_logical]

theorem logical_backwardAfter (g : Engine) (s : Saturation) (goal : Entry) :
    g.logical.backwardAfter s.logical goal = g.backwardAfter s goal := by
  simp only [backwardAfter, backward, logical, Saturation.logical, KnowledgeBase.nodes_logical]

theorem logical_prove (g : Engine) (goal : Entry) :
    g.logical.prove goal = ((g.prove goal).1.logical, (g.prove goal).2) := by
  have hset : g.logical.settings = g.settings := rfl
  unfold prove
  rw [logical_backward, hset]
  split
  · rfl
  · rfl
  · split
    · rw [logical_forward]
      rcases g.forward g.settings.saturationPasses with ⟨g', f | s⟩
      · rfl
      · simp only [Except.map, bind, Except.bind, logical_backwardAfter]
    · rfl

theorem foreign_prove (g : Engine) (goal : Entry) :
    (g.prove goal).1.kb.foreign = g.kb.foreign := by
  rcases g.prove_engine goal with h | h
  · rw [h]
  · rw [h, foreign_forward]

end Engine

/-! ## Requests -/

/-- What an engine can be asked for. -/
inductive Request where
  /-- Add a node. -/
  | tell (e : Entry) (isNode : e.isNode = true)
  /-- Chain forward, by default by the number of passes of the settings. -/
  | chain (bound : Option Nat)
  /-- Look for contradictions. -/
  | check
  | query (pattern : Entry)
  | prove (goal : Entry)
  | statements
  | gaps
  /-- Answer a statement about the knowledge base. -/
  | ask (question : Statement)

/-- What an engine answers. -/
inductive Answer where
  | added (new : Bool)
  | chained (derived : List Node) (passes : Nat) (fixpoint : Bool)
  | contradictions (found : List (Node × Node × Contradiction))
  | matched (found : List (Node × Substitution))
  | verdict (verdict : Verdict)
  | statements (found : List Statement)
  | gaps (found : List (Expr × Binary64))
  | refused (fault : Fault)

namespace Answer

/-- The answer that a result is, which may be a fault. -/
def ofResult {α : Type} (answer : α → Answer) : Except Fault α → Answer
  | .ok a => answer a
  | .error f => .refused f

/-- The answer to a call for forward chaining. -/
def ofSaturation (s : Saturation) : Answer :=
  .chained s.derived s.passes s.fixpoint

end Answer

namespace Engine

/-- The engine after a request, and what it answers. -/
def serve (g : Engine) : Request → Engine × Answer
  | .tell e _ => ({ g with kb := (g.kb.add e).1 }, .added (g.kb.add e).2)
  | .chain bound =>
      let r := g.forward (bound.getD g.settings.maxForwardPasses)
      (r.1, .ofResult .ofSaturation r.2)
  | .check => (g, .contradictions g.contradictions)
  | .query pattern => (g, .matched (g.query pattern))
  | .prove goal => ((g.prove goal).1, .ofResult .verdict (g.prove goal).2)
  | .statements => (g, .statements g.kb.statements)
  | .gaps => (g, .ofResult .gaps g.gaps)
  | .ask question => (g, .ofResult .statements (g.ask question))

/-- The engine after requests, and what it answers to each. -/
def serveAll (g : Engine) : List Request → Engine × List Answer
  | [] => (g, [])
  | r :: rs => (((g.serve r).1.serveAll rs).1, (g.serve r).2 :: ((g.serve r).1.serveAll rs).2)

theorem logical_query (g : Engine) (pattern : Entry) :
    g.logical.query pattern = g.query pattern := by
  simp only [query, logical, KnowledgeBase.nodes_logical]

theorem logical_gaps (g : Engine) : g.logical.gaps = g.gaps := by
  simp only [gaps, logical, KnowledgeBase.statements_logical]

theorem logical_ask (g : Engine) (question : Statement) :
    g.logical.ask question = g.ask question := by
  have hkb : g.logical.kb = g.kb.logical := rfl
  simp only [ask, logical_gaps, mentioning, capabilities, hasRules, hasAffect, hkb,
    KnowledgeBase.statements_logical, KnowledgeBase.nodes_logical]
  rfl

/-- **A request** is answered alike with and without foreign values, and
leaves engines that are alike. -/
theorem logical_serve (g : Engine) (r : Request) :
    g.logical.serve r = ((g.serve r).1.logical, (g.serve r).2) := by
  cases r with
  | tell e he => simp [serve, logical, KnowledgeBase.logical_add he]
  | chain bound =>
      simp only [serve, logical_forward]
      refine Prod.ext rfl ?_
      change Answer.ofResult _ (((g.forward (bound.getD g.settings.maxForwardPasses)).2).map _) = _
      cases (g.forward (bound.getD g.settings.maxForwardPasses)).2 <;> rfl
  | check => simp [serve, contradictions, logical]
  | query pattern => simp only [serve, logical_query]
  | prove goal => simp only [serve, logical_prove]
  | statements => simp [serve, logical]
  | gaps => simp only [serve, logical_gaps]
  | ask question => simp only [serve, logical_ask]

/-- No request adds or removes a foreign value. -/
theorem serve_foreign (g : Engine) (r : Request) : (g.serve r).1.kb.foreign = g.kb.foreign := by
  cases r with
  | tell e he => exact g.kb.foreign_add he
  | chain bound => exact g.foreign_forward _
  | prove goal => exact g.foreign_prove goal
  | check => rfl
  | query pattern => rfl
  | statements => rfl
  | gaps => rfl
  | ask question => rfl

theorem logical_serveAll (rs : List Request) : ∀ g : Engine,
    g.logical.serveAll rs = ((g.serveAll rs).1.logical, (g.serveAll rs).2) := by
  induction rs with
  | nil => exact fun _ => rfl
  | cons r rs ih => exact fun g => by simp only [serveAll, logical_serve, ih]

theorem serveAll_foreign (rs : List Request) : ∀ g : Engine,
    (g.serveAll rs).1.kb.foreign = g.kb.foreign := by
  induction rs with
  | nil => exact fun _ => rfl
  | cons r rs ih => exact fun g => (ih (g.serve r).1).trans (g.serve_foreign r)

/-- Of the foreign values among entries, an engine stores each once. -/
theorem distinct_ofEntries (es : List Entry) (settings : InferenceSettings) :
    Foreign.Distinct (es.filterMap Entry.foreign?) (ofEntries es settings).kb.foreign := by
  have hentries : (ofEntries es settings).kb.entries = (KnowledgeBase.extend {} es).2 :=
    KnowledgeBase.extend_entries es {}
  have hmem : ∀ {v : Foreign} {l : List Entry}, v ∈ l.filterMap Entry.foreign? ↔
      Entry.foreign v ∈ l := by
    intro v l
    constructor
    · intro h
      obtain ⟨e, he, hv⟩ := List.mem_filterMap.1 h
      cases e <;> cases hv
      exact he
    · exact fun h => List.mem_filterMap.2 ⟨_, h, rfl⟩
  rw [KnowledgeBase.foreign_eq]
  refine ⟨?_, ?_, fun v hv => ?_⟩
  · rw [hentries]
    exact (KnowledgeBase.extend_sublist es {}).filterMap _
  · refine (Store.backs_ofEntries es settings).pairwise_entries.filterMap _ ?_
    intro x y hxy v hv w hw
    cases x <;> cases hv
    cases y <;> cases hw
    exact hxy rfl
  · obtain ⟨x, hx, rfl | hsame⟩ := @KnowledgeBase.exists_of_mem_extend _ es {} (hmem.1 hv)
    · exact .inl (hmem.2 hx)
    · cases x with
      | foreign w => exact .inr ⟨w, hmem.2 hx, hsame⟩
      | _ => cases hsame

/-- What an engine that was given foreign values besides nodes has in common
with one that was given the nodes only, each with its answers. -/
structure Inert (given : List Foreign) (mixed plain : Engine × List Answer) : Prop where
  answers : mixed.2 = plain.2
  nodes : mixed.1.kb.nodes = plain.1.kb.nodes
  /-- The one stores each of the different foreign values once. -/
  stored : Foreign.Distinct given mixed.1.kb.foreign
  /-- The other stores none. -/
  none : plain.1.kb.foreign = []
  size : mixed.1.kb.size = plain.1.kb.size + mixed.1.kb.foreign.length

/-- **Foreign values are inert.** Whatever entries an engine is given and
whatever it is then asked for, it answers as the engine that is given only the
nodes among them, and knows the same nodes in the same order. What it knows is
longer by the number of different foreign values. -/
theorem foreign_values_inert (es : List Entry) (settings : InferenceSettings)
    (rs : List Request) :
    Inert (es.filterMap Entry.foreign?) ((ofEntries es settings).serveAll rs)
      ((ofEntries (es.filter Entry.isNode) settings).serveAll rs) := by
  rw [← logical_ofEntries, logical_serveAll]
  exact
    { answers := rfl
      nodes := (KnowledgeBase.nodes_logical _).symm
      stored := serveAll_foreign rs (ofEntries es settings) ▸ distinct_ofEntries es settings
      none := KnowledgeBase.foreign_logical _
      size := KnowledgeBase.size_logical _ }

end Engine

end TripleLogic
