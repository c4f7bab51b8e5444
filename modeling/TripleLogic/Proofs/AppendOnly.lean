/-
TripleLogic.Proofs.AppendOnly — a knowledge base is a sequence without
repetitions that is appended to, over whole runs.

A knowledge base is kept as its entries alone, and an entry is looked up by
going through them. Here it is set beside a store that keeps two things: the
objects given to it, in order, and an index of those that can be hashed. What
can be hashed is looked up in the index, and what cannot is compared object
by object.

* `Store.Backs`: the store holds what the engine knows, and its index is what
  is known and can be hashed. Adding keeps this (`Backs.add`), and so does
  every operation (`Backs.perform`), which offers objects to the store and
  does nothing else to it.
* `Store.Exact`: no two objects of the store are equal or the same.

Main statement: at every point of every run the engine is backed by a store
that was only ever added to; what operations report is what they appended,
and what was known before stands first (`run_appendOnly`).
-/
import TripleLogic.Proofs.Equality
import TripleLogic.Proofs.Growth

namespace TripleLogic

/-! ## Objects -/

/-- Whether an entry can be hashed: a node that is a key, or a foreign value
without parts. -/
def Entry.isHashable : Entry → Bool
  | .node n => n.isKey
  | .labelled .. => false
  | .foreign v => !v.value.isContainer

/-- An entry as an object. A node that is no key and stands in a rule as it is
comes with the place of the rule and its direction. -/
structure Object where
  entry : Entry
  source : Option (Nat × Nat) := none

namespace Object

/-- Whether two objects that cannot be hashed are one and the same: foreign
values or nodes of one label, or what stands at one place of a rule. Any other
node is an object of its own. -/
def isSame (x y : Object) : Bool :=
  match x.entry, y.entry with
  | .foreign v, .foreign w => v.value.isContainer && v.label == w.label
  | .labelled k _ _, .labelled l _ _ => k == l
  | .node _, .node _ => x.source.isSome && x.source == y.source
  | _, _ => false

/-- Whether an object counts as there already when another one is. -/
def repeats (y x : Object) : Bool :=
  if y.entry.isHashable then x.entry.isHashable && x.entry.same y.entry else x.isSame y

/-- An object has the place of a rule only if it is a node that is no key. -/
def Proper (x : Object) : Prop :=
  x.source.isSome = true → ∃ n, x.entry = .node n ∧ n.isKey = false

end Object

/-- The object that a conclusion is. -/
def Conclusion.object (c : Conclusion) : Object :=
  { entry := .node c.node, source := c.source }

/-- Only what is no key comes with the place of a rule. -/
theorem Engine.proper_of_mem_conclusions {nodes : List Node} {c : Conclusion}
    (hc : c ∈ conclusions nodes) : c.object.Proper := by
  obtain ⟨r, -, hc⟩ := List.mem_flatMap.1 hc
  obtain ⟨d, -, hc⟩ := List.mem_flatMap.1 hc
  obtain ⟨θ, -, rfl⟩ := List.mem_map.1 hc
  intro hsource
  refine ⟨_, rfl, ?_⟩
  simp only [Conclusion.object] at hsource
  split at hsource
  · next h => simpa using (Bool.and_eq_true_iff.1 h).2
  · cases hsource

/-! ## A store with an index -/

/-- Objects in the order in which they were added, and an index of those that
can be hashed. -/
structure Store where
  arena : List Object := []
  index : List Entry := []

namespace Store

/-- Look an object up: in the index, or, if it cannot be hashed, among all objects. -/
def contains (s : Store) (x : Object) : Bool :=
  if x.entry.isHashable then s.index.any fun e => e.same x.entry
  else s.arena.any fun y => y.isSame x

/-- Add an object unless it is found, and tell whether it was added. -/
def add (s : Store) (x : Object) : Store × Bool :=
  if s.contains x then (s, false)
  else
    ({ arena := s.arena ++ [x],
       index := if x.entry.isHashable then s.index ++ [x.entry] else s.index }, true)

/-- Add objects in order. -/
def addAll (s : Store) (xs : List Object) : Store :=
  xs.foldl (fun s x => (s.add x).1) s

/-- A store holds every object once, and its index is what can be hashed. -/
structure Exact (s : Store) : Prop where
  distinct : s.arena.Pairwise fun x y => y.repeats x = false
  index : s.index = (s.arena.map Object.entry).filter Entry.isHashable

/-- Going through the index is going through what can be hashed. -/
theorem Exact.contains_eq {s : Store} (h : s.Exact) (x : Object) :
    s.contains x = s.arena.any fun y => x.repeats y := by
  unfold contains Object.repeats
  split
  · rw [h.index, List.any_filter, List.any_map]
    rfl
  · rfl

theorem exact_empty : Exact {} :=
  ⟨.nil, rfl⟩

/-- Adding keeps a store exact. -/
theorem Exact.add {s : Store} (h : s.Exact) (x : Object) : (s.add x).1.Exact := by
  unfold Store.add
  split
  · exact h
  · next hx =>
      rw [h.contains_eq, List.any_eq_true] at hx
      refine ⟨List.pairwise_append.2 ⟨h.distinct, List.pairwise_singleton _ _, ?_⟩, ?_⟩
      · intro y hy z hz
        rw [List.mem_singleton.1 hz]
        exact Bool.eq_false_iff.2 fun hyx => hx ⟨y, hy, hyx⟩
      · rw [List.map_append, List.filter_append, ← h.index]
        cases hh : x.entry.isHashable <;> simp [hh]

/-! ## Engines backed by a store -/

/-- A store holds what an engine knows, in its order, and each conclusion of a
rule that the engine remembers. -/
structure Backs (s : Store) (g : Engine) : Prop where
  exact : s.Exact
  proper : ∀ x ∈ s.arena, x.Proper
  entries : s.arena.map Object.entry = g.kb.entries
  stated : s.arena.filterMap Object.source = g.stated

/-- The index of a store is what the engine knows and can be hashed. -/
theorem Backs.index {s : Store} {g : Engine} (h : s.Backs g) :
    s.index = g.kb.entries.filter Entry.isHashable :=
  h.entries ▸ h.exact.index

end Store

/-- A value with parts equals no value under the comparison of those without. -/
theorem Data.scalarSame_eq_false {d e : Data} (h : d.isContainer = true ∨ e.isContainer = true) :
    d.scalarSame e = false := by
  rcases h with h | h
  · cases d <;> simp [isContainer] at h <;> simp [scalarSame, number?]
  · cases e <;> simp [isContainer] at h <;> cases d <;> simp [scalarSame, number?]

namespace Entry

/-- What equals an entry that can be hashed can be hashed. -/
theorem isHashable_of_same {x e : Entry} (h : x.same e = true) (he : e.isHashable = true) :
    x.isHashable = true := by
  cases x with
  | node n =>
      cases e with
      | node m => exact Node.isKey_of_canon ((Node.same_iff n m).1 h) he
      | _ => cases h
  | labelled k n _ => cases e <;> first | cases h | cases he
  | foreign v =>
      cases e with
      | foreign w =>
          have hw : w.value.isContainer = false := by simpa [isHashable] using he
          cases hv : v.value.isContainer with
          | true => simp [same, hw, Data.scalarSame_eq_false (.inl hv)] at h
          | false => simp [isHashable, hv]
      | _ => cases h

theorem isFindable_of_isHashable {e : Entry} (h : e.isHashable = true) : e.isFindable = true := by
  cases e with
  | node n => exact h
  | _ => rfl

/-- What cannot be hashed and is found all the same is found by its label: it
equals what has the same one. -/
theorem same_of_not_isHashable {x e : Entry} (hhash : e.isHashable = false)
    (hfind : e.isFindable = true) (source source' : Option (Nat × Nat)) :
    x.same e = Object.isSame ⟨x, source⟩ ⟨e, source'⟩ := by
  cases e with
  | node n => exact absurd (hhash.symm.trans hfind) Bool.false_ne_true
  | labelled l m _ => cases x <;> rfl
  | foreign w =>
      cases x with
      | foreign v =>
          have hw : w.value.isContainer = true := by simpa [isHashable] using hhash
          cases hv : v.value.isContainer with
          | true => simp [same, Object.isSame, hv, hw]
          | false => simp [same, Object.isSame, hv, Data.scalarSame_eq_false (.inr hw)]
      | _ => rfl

/-- Only a node is not found when it is offered again. -/
theorem exists_node_of_not_isFindable {e : Entry} (h : e.isFindable = false) :
    ∃ n, e = .node n := by
  cases e with
  | node n => exact ⟨n, rfl⟩
  | _ => cases h

end Entry

namespace Store

variable {s : Store} {g : Engine}

/-- An entry without the place of a rule is found in the store if and only if
the knowledge base finds it. -/
theorem Backs.contains_entry (h : s.Backs g) (e : Entry) :
    s.contains { entry := e } = g.kb.contains e := by
  unfold contains
  split
  · next he =>
      rw [h.index, List.any_filter, KnowledgeBase.contains, Entry.isFindable_of_isHashable he,
        Bool.true_and, KnowledgeBase.holds]
      refine congrArg (List.any g.kb.entries) (funext fun x => ?_)
      exact Bool.and_eq_right_iff_imp.2 fun hx => Entry.isHashable_of_same hx he
  · next he =>
      have he := Bool.eq_false_iff.2 he
      rw [KnowledgeBase.contains]
      cases hfind : e.isFindable with
      | false =>
          obtain ⟨n, rfl⟩ := Entry.exists_node_of_not_isFindable hfind
          refine List.any_eq_false.2 fun y _ => ?_
          cases hy : y.entry <;> cases hsource : y.source <;> simp [Object.isSame, hy, hsource]
      | true =>
          rw [Bool.true_and, KnowledgeBase.holds, ← h.entries, List.any_map]
          refine congrArg (List.any s.arena) (funext fun y => ?_)
          exact (Entry.same_of_not_isHashable he hfind _ _).symm

/-- What stands at the place of a rule is found if and only if it is remembered. -/
theorem Backs.contains_stated (h : s.Backs g) {n : Node} (hn : n.isKey = false)
    (place : Nat × Nat) :
    s.contains { entry := .node n, source := some place } = g.stated.contains place := by
  have hh : Entry.isHashable (.node n) = false := hn
  rw [contains, if_neg (by simp [hh]), ← h.stated, Bool.eq_iff_iff, List.any_eq_true,
    List.contains_iff_mem, List.mem_filterMap]
  refine exists_congr fun y => and_congr_right fun hy => ?_
  constructor
  · intro hsame
    cases hye : y.entry <;> simp [Object.isSame, hye] at hsame
    exact hsame.2
  · intro hsource
    obtain ⟨m, hm, -⟩ := h.proper y hy (Option.isSome_of_eq_some hsource)
    simp [Object.isSame, hm, hsource]

/-- Adding an object keeps a store behind an engine that knows it afterwards. -/
theorem Backs.append (h : s.Backs g) {x : Object} (hx : x.Proper) (hnew : s.contains x = false) :
    (s.add x).1.Backs { g with
      kb := g.kb.append x.entry
      stated := g.stated ++ x.source.toList } := by
  have hadd : (s.add x).1.arena = s.arena ++ [x] := by
    rw [Store.add, if_neg (by simp [hnew])]
  refine ⟨h.exact.add x, ?_, ?_, ?_⟩
  · intro y hy
    rw [hadd, List.mem_append, List.mem_singleton] at hy
    exact hy.elim (h.proper y) (fun hyx => hyx ▸ hx)
  · rw [hadd, List.map_append, h.entries]
    rfl
  · rw [hadd, List.filterMap_append, h.stated]
    cases hsource : x.source <;> simp [hsource]

/-- Adding an entry to the knowledge base is adding it to the store. -/
theorem Backs.add (h : s.Backs g) (e : Entry) :
    (s.add { entry := e }).1.Backs { g with kb := (g.kb.add e).1 } := by
  cases hc : g.kb.contains e with
  | true =>
      have hs := (h.contains_entry e).trans hc
      rw [Store.add, if_pos hs, KnowledgeBase.add, if_pos hc]
      exact h
  | false =>
      have hs := (h.contains_entry e).trans hc
      have hback := h.append (x := { entry := e }) (fun hsource => by cases hsource) hs
      rw [KnowledgeBase.add, if_neg (by simp [hc])]
      simpa using hback

/-- Adding entries in order. -/
theorem Backs.extend (es : List Entry) : ∀ {s : Store} {g : Engine}, s.Backs g →
    (s.addAll (es.map fun e => { entry := e })).Backs { g with kb := (g.kb.extend es).1 } := by
  induction es with
  | nil => exact fun h => h
  | cons e es ih => exact fun h => ih (h.add e)

/-- Adding a conclusion of a rule. -/
theorem Backs.addConclusion (h : s.Backs g) {c : Conclusion} (hc : c.object.Proper) :
    (s.add c.object).1.Backs (g.addConclusion c) := by
  obtain ⟨n, source⟩ := c
  cases source with
  | none => exact h.add (.node n)
  | some place =>
      obtain ⟨m, hm, hkey⟩ := hc rfl
      cases hm
      have hs : s.contains (Conclusion.object ⟨n, some place⟩) = g.stated.contains place :=
        h.contains_stated hkey place
      cases hp : g.stated.contains place with
      | true =>
          have hskip : g.addConclusion ⟨n, some place⟩ = g := if_pos hp
          rw [hskip, Store.add, if_pos (hs.trans hp)]
          exact h
      | false =>
          have hnew : g.addConclusion ⟨n, some place⟩ =
              { g with kb := g.kb.append (.node n), stated := g.stated ++ [place] } :=
            if_neg (Bool.eq_false_iff.1 hp)
          exact hnew ▸ h.append hc (hs.trans hp)

/-- Adding conclusions of rules in order. -/
theorem Backs.addConclusions (cs : List Conclusion) : ∀ {s : Store} {g : Engine}, s.Backs g →
    (∀ c ∈ cs, c.object.Proper) →
      (s.addAll (cs.map Conclusion.object)).Backs (cs.foldl Engine.addConclusion g) := by
  induction cs with
  | nil => exact fun h _ => h
  | cons c cs ih =>
      intro s g h hcs
      exact ih (h.addConclusion (hcs c List.mem_cons_self))
        fun d hd => hcs d (List.mem_cons_of_mem c hd)

end Store

/-! ## What operations offer -/

namespace KnowledgeBase

theorem extend_append (es es' : List Entry) : ∀ kb : KnowledgeBase,
    (kb.extend (es ++ es')).1 = ((kb.extend es).1.extend es').1 := by
  induction es with
  | nil => exact fun _ => rfl
  | cons e es ih => exact fun kb => ih (kb.add e).1

/-- Entries that count as new are appended. -/
theorem extend_entries : ∀ (es : List Entry) (kb : KnowledgeBase),
    (kb.extend es).1.entries = kb.entries ++ (kb.extend es).2
  | [], kb => (List.append_nil _).symm
  | e :: es, kb => by
      have ih := extend_entries es (kb.add e).1
      cases he : kb.contains e with
      | true => simpa [extend, add, he] using ih
      | false => simpa [extend, add, append, he] using ih

/-- Keys are added like any other entries. -/
theorem addNodes_eq_extend : ∀ {ns : List Node} (kb : KnowledgeBase),
    (∀ n ∈ ns, n.isKey = true) → (kb.addNodes ns).1 = (kb.extend (ns.map .node)).1
  | [], _, _ => rfl
  | n :: ns, kb, h => by
      have hn : kb.add (.node n) = kb.insert (.node n) :=
        kb.add_eq_insert (h n List.mem_cons_self)
      have ih := addNodes_eq_extend (kb.insert (.node n)).1 fun m hm =>
        h m (List.mem_cons_of_mem n hm)
      simpa [addNodes, extend, hn] using ih

/-- Forward chaining from keys offers entries to the knowledge base and does
nothing else to it. -/
theorem saturate_eq_extend (bound : Nat) : ∀ {kb : KnowledgeBase},
    (∀ n ∈ kb.nodes, n.isKey = true) → ∃ es, (kb.saturate bound).kb = (kb.extend es).1 := by
  induction bound with
  | zero => exact fun _ => ⟨[], rfl⟩
  | succ bound ih =>
      intro kb hk
      by_cases hnew : kb.pass.2 = []
      · exact ⟨[], by rw [saturate_succ_of_nil hnew]; rfl⟩
      · have hpass : kb.pass.1 = (kb.extend (kb.candidates.map .node)).1 :=
          kb.addNodes_eq_extend fun c hc => isKey_of_mem_candidates hk hc
        obtain ⟨es, hes⟩ := ih (pass_isKey hk)
        refine ⟨kb.candidates.map .node ++ es, ?_⟩
        rw [saturate_succ_of_ne_nil hnew, extend_append, ← hpass]
        exact hes

end KnowledgeBase

namespace Engine

/-- Forward chaining offers entries, or, if it is refused, conclusions of rules. -/
theorem forward_cases (g : Engine) (bound : Nat) :
    (∃ es, (g.forward bound).1 = { g with kb := (g.kb.extend es).1 }) ∨
      (g.forward bound).1 = (conclusions g.kb.nodes).foldl addConclusion g := by
  cases hf : (g.forward bound).2 with
  | ok s =>
      left
      cases eq_saturate_of_forward hf
      rw [forward_of_ok hf]
      cases bound with
      | zero => exact ⟨[], rfl⟩
      | succ bound =>
          obtain ⟨es, hes⟩ := KnowledgeBase.saturate_eq_extend (bound + 1) (isKey_of_forward_succ hf)
          exact ⟨es, by rw [hes]⟩
  | error f =>
      right
      unfold forward at hf ⊢
      split at hf
      · cases hf
      · rfl

end Engine

namespace Store

variable {s : Store} {g : Engine}

theorem Backs.forward (h : s.Backs g) (bound : Nat) :
    ∃ xs, (s.addAll xs).Backs (g.forward bound).1 := by
  obtain ⟨es, heq⟩ | heq := g.forward_cases bound
  · exact ⟨_, heq ▸ h.extend es⟩
  · exact ⟨_, heq ▸ h.addConclusions _ fun c hc => Engine.proper_of_mem_conclusions hc⟩

/-- Every operation offers objects to the store, and does nothing else to it. -/
theorem Backs.perform (h : s.Backs g) (op : Operation) :
    ∃ xs, (s.addAll xs).Backs (g.perform op) := by
  cases op with
  | add e => exact ⟨_, h.extend [e]⟩
  | addAll es => exact ⟨_, h.extend es⟩
  | forward bound => exact h.forward bound
  | prove goal =>
      change ∃ xs, (s.addAll xs).Backs (g.prove goal).1
      obtain heq | heq := g.prove_engine goal
      · rw [heq]
        exact ⟨[], h⟩
      · rw [heq]
        exact h.forward _

theorem addAll_append (s : Store) (xs ys : List Object) :
    s.addAll (xs ++ ys) = (s.addAll xs).addAll ys :=
  List.foldl_append

/-- So does a whole run. -/
theorem Backs.run (ops : List Operation) : ∀ {s : Store} {g : Engine}, s.Backs g →
    ∃ xs, (s.addAll xs).Backs (g.run ops) := by
  induction ops with
  | nil => exact fun h => ⟨[], h⟩
  | cons op ops ih =>
      intro s g h
      obtain ⟨xs, hxs⟩ := h.perform op
      obtain ⟨ys, hys⟩ := ih hxs
      exact ⟨xs ++ ys, addAll_append s xs ys ▸ hys⟩

/-- An engine is backed from the start. -/
theorem backs_ofEntries (es : List Entry) (settings : InferenceSettings) :
    (addAll {} (es.map fun e => { entry := e })).Backs (Engine.ofEntries es settings) :=
  Backs.extend es (g := { settings }) ⟨exact_empty, nofun, rfl, rfl⟩

/-- No entry that can be found stands at two positions. -/
theorem Backs.pairwise_entries (h : s.Backs g) :
    g.kb.entries.Pairwise fun x y => y.isFindable = true → x.same y = false := by
  rw [← h.entries, List.pairwise_map]
  refine h.exact.distinct.imp fun {x y} hxy hfind => ?_
  unfold Object.repeats at hxy
  split at hxy
  · next hy =>
      refine Bool.eq_false_iff.2 fun hsame => ?_
      rw [hsame, Entry.isHashable_of_same hsame hy] at hxy
      cases hxy
  · next hy =>
      have hy := Bool.eq_false_iff.2 hy
      exact (Entry.same_of_not_isHashable hy hfind x.source y.source).trans hxy

end Store

/-! ## Reports -/

namespace Engine

/-- The entries that an operation reports to have added: by a truth value, by
a list or as what was derived. A goal has no such report, and neither has
forward chaining that is refused. -/
def reported (g : Engine) : Operation → Option (List Entry)
  | .add e => some (if (g.kb.add e).2 then [e] else [])
  | .addAll es => some (g.kb.extend es).2
  | .forward bound =>
      match (g.forward bound).2 with
      | .ok s => some (s.derived.map .node)
      | .error _ => none
  | .prove _ => none

/-- What an operation reports is what it appended. -/
theorem perform_entries {g : Engine} {op : Operation} {new : List Entry}
    (h : g.reported op = some new) : (g.perform op).kb.entries = g.kb.entries ++ new := by
  cases op with
  | add e =>
      cases h
      cases he : g.kb.contains e <;> simp [perform, KnowledgeBase.add, KnowledgeBase.append, he]
  | addAll es =>
      cases h
      exact KnowledgeBase.extend_entries es g.kb
  | forward bound =>
      cases hf : (g.forward bound).2 with
      | ok s =>
          simp only [reported, hf, Option.some.injEq] at h
          cases eq_saturate_of_forward hf
          rw [← h, perform, forward_of_ok hf]
          exact g.kb.saturate_entries bound
      | error f => simp [reported, hf] at h
  | prove goal => cases h

/-- A goal that the first search proves, or that there is no second search
for, changes nothing. -/
theorem perform_prove {g : Engine} {goal : Entry}
    (h : (∃ p, g.backward goal = .ok (some p)) ∨ g.settings.proveWithSaturation = false) :
    g.perform (.prove goal) = g := by
  change (g.prove goal).1 = g
  rcases h with ⟨p, hp⟩ | hoff
  · rw [prove_of_found hp]
  · unfold prove
    split
    · rfl
    · rfl
    · rw [if_neg (by simp [hoff])]

/-- What holds of an engine that was given entries and then any operations. -/
structure AppendOnly (given : List Entry) (g : Engine) : Prop where
  /-- No entry that can be found stands at two positions. -/
  distinct : g.kb.entries.Pairwise fun x y => y.isFindable = true → x.same y = false
  /-- The engine is backed by a store that was offered what was given and then
  other objects, and the index of the store is what can be hashed. -/
  backed : ∃ s offered, s = Store.addAll {} (given.map (fun e => { entry := e }) ++ offered) ∧
    s.Backs g ∧ s.index = g.kb.entries.filter Entry.isHashable
  /-- What is known now stands first in what is known later. -/
  later : ∀ ops, g.kb.entries <+: (g.run ops).kb.entries
  /-- What an operation reports is what it appends. -/
  reports : ∀ op new, g.reported op = some new →
    (g.perform op).kb.entries = g.kb.entries ++ new
  /-- A goal that the first search proves, or that there is no second search
  for, changes nothing. -/
  proved : ∀ goal, (∃ p, g.backward goal = .ok (some p)) ∨
    g.settings.proveWithSaturation = false → g.perform (.prove goal) = g

/-- **Knowledge is only appended to.** At every point of every run, whatever
entries were given and whatever the settings are. -/
theorem run_appendOnly (es : List Entry) (settings : InferenceSettings) (ops : List Operation) :
    ((ofEntries es settings).run ops).AppendOnly es := by
  obtain ⟨offered, h⟩ := (Store.backs_ofEntries es settings).run ops
  exact
    { distinct := h.pairwise_entries
      backed := ⟨_, offered, rfl, Store.addAll_append .. ▸ ⟨h, h.index⟩⟩
      later := prefix_run _
      reports := fun _ _ => perform_entries
      proved := fun _ => perform_prove }

end Engine

end TripleLogic
