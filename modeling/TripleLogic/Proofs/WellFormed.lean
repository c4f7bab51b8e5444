/-
TripleLogic.Proofs.WellFormed — the grammar of nodes, and lists of nodes that
keep it.

Well-formed drafts are given by their constructors, one for each form that a
node can have (`Draft.WellFormed`); a value that is no node has none. Two drafts
are at one if they are equal whenever both are rules with one identifier
(`Draft.AtOne`).

The checks go through a list once and compare a rule with the first one that had
its identifier only. Because equality is an equivalence, the rules of one
identifier are then all equal to each other (`agrees_note`).

Main statement: `Draft.listProblems_eq_nil_iff`.
-/
import TripleLogic.Draft
import TripleLogic.Proofs.Grammar

namespace TripleLogic

/-! ## Statements -/

/-- The grammar of statements. -/
structure Statement.WellFormed (s : Statement) : Prop where
  relation : Spells [] s.relation.name ∨ Spells ['?'] s.relation.name
  terms : ∀ e ∈ s.terms, e.WellNamed
  keys : ∀ a ∈ s.attributes, a.1 ≠ ""

theorem Statement.problems_eq_nil_iff {s : Statement} : s.problems = [] ↔ s.WellFormed := by
  have hplaced : (∀ x ∈ s.placed, x.1.Accepts x.2) ↔
      (Spells [] s.relation.name ∨ Spells ['?'] s.relation.name) ∧
        ∀ e ∈ s.terms, e.WellNamed := by
    simp only [placed, terms, List.forall_mem_cons, List.forall_mem_map, Place.Accepts, Expr.text,
      Expr.problems_eq_nil_iff, isRelationName_iff]
    exact and_left_comm
  rw [Statement.problems_eq_nil, hplaced, and_assoc]
  constructor
  · rintro ⟨hr, ht, hk⟩
    exact ⟨hr, ht, hk⟩
  · rintro ⟨hr, ht, hk⟩
    exact ⟨hr, ht, hk⟩

namespace Draft

/-! ## Drafts -/

/-- The grammar of nodes. -/
inductive WellFormed : Draft → Prop where
  | intent {i : Intent} (kind : Spells [] i.kind ∨ Spells ['!'] i.kind)
      (nonempty : i.statements ≠ []) (statements : ∀ s ∈ i.statements, s.WellFormed)
      (confidence : i.confidence.IsWeight) (coherence : i.coherence.IsWeight) :
      WellFormed (.intent i)
  | negation {a : Draft} (operand : WellFormed a) : WellFormed (.compound .not a missing)
  | compound {o : Connective} {a b : Draft} (binary : o ≠ .not) (left : WellFormed a)
      (right : WellFormed b) : WellFormed (.compound o a b)
  | quantified {q : Quantifier} {v : String} {a : Draft} {d : Option String} (var : v ≠ "")
      (body : WellFormed a) : WellFormed (.quantified q v a d)
  | rule {i : String} {a b : Draft} {d : Option String} {x : Bool} {c : Data} (id : i ≠ "")
      (premises : WellFormed a) (conclusion : WellFormed b) (confidence : c.IsWeight) :
      WellFormed (.rule i a b d x c)
  | edge {e : Edge} (source : e.source ≠ "") (target : e.target ≠ "") (name : e.name ≠ "")
      (confidence : e.confidence.IsWeight) : WellFormed (.edge e)

theorem isMissing_iff {d : Draft} : d.isMissing = true ↔ d = missing := by
  unfold isMissing missing
  split <;> simp_all

theorem WellFormed.isMissing_eq_false {d : Draft} (h : d.WellFormed) : d.isMissing = false := by
  cases h <;> rfl

/-- A rule has an identifier. -/
theorem WellFormed.ruleId?_ne {d : Draft} (h : d.WellFormed) : d.ruleId? ≠ some "" := by
  cases h with
  | rule hid _ _ _ => simpa [ruleId?] using hid
  | _ => simp [ruleId?]

/-- The number of operands is right if the left one alone is there, or both
are, as the connective wants it. -/
theorem arityProblems_eq_nil {path : String} {o : Connective} {a b : Draft} :
    arityProblems path o (!a.isMissing) (!b.isMissing) = [] ↔
      (o = .not ∧ a.isMissing = false ∧ b.isMissing = true) ∨
        (o ≠ .not ∧ a.isMissing = false ∧ b.isMissing = false) := by
  cases o <;> cases a.isMissing <;> cases b.isMissing <;> simp [arityProblems]

theorem intent_problems_eq_nil_iff {path : String} {i : Intent} :
    i.problems path = [] ↔ WellFormed (.intent i) := by
  have hstatements : (∀ s ∈ i.statements, s.WellFormed) ↔
      (∀ s ∈ i.statements, ∀ x ∈ s.placed, x.1.Accepts x.2) ∧
        ∀ s ∈ i.statements, ∀ a ∈ s.attributes, a.1 ≠ "" := by
    simp only [← Statement.problems_eq_nil_iff, Statement.problems_eq_nil, forall_and]
  simp only [Intent.problems_eq_nil, Node.Framed, isIntentKind_iff, Data.inUnit_iff]
  constructor
  · rintro ⟨⟨hkind, hne, hkeys, hconf, hcoh⟩, hnames⟩
    exact .intent hkind hne (hstatements.2 ⟨hnames, hkeys⟩) hconf hcoh
  · intro h
    cases h with
    | intent hkind hne hs hconf hcoh =>
        obtain ⟨hnames, hkeys⟩ := hstatements.1 hs
        exact ⟨⟨hkind, hne, hkeys, hconf, hcoh⟩, hnames⟩

theorem edge_problems_eq_nil_iff {path : String} {e : Edge} :
    e.problems path = [] ↔ WellFormed (.edge e) := by
  simp only [Edge.problems, List.append_eq_nil_iff, emptyProblem_eq_nil, unitProblems_eq_nil,
    Place.Accepts, Expr.text, Data.inUnit_iff]
  constructor
  · rintro ⟨⟨⟨hs, ht⟩, hn⟩, hc⟩
    exact .edge hs ht hn hc
  · intro h
    cases h with
    | edge hs ht hn hc => exact ⟨⟨⟨hs, ht⟩, hn⟩, hc⟩

/-- **A draft has no problems**, whatever path it is reported under, if and only
if it keeps the grammar of nodes. -/
theorem problems_eq_nil_iff {d : Draft} {path : String} : d.problems path = [] ↔ d.WellFormed := by
  induction d generalizing path with
  | intent i => exact intent_problems_eq_nil_iff
  | compound o a b iha ihb =>
      simp only [problems, List.append_eq_nil_iff, ite_eq_left_iff, Bool.not_eq_true, iha, ihb]
      constructor
      · rintro ⟨⟨harity, ha⟩, hb⟩
        obtain ⟨rfl, ha', hb'⟩ | ⟨hop, ha', hb'⟩ := arityProblems_eq_nil.1 harity
        · rw [isMissing_iff.1 hb']
          exact .negation (ha ha')
        · exact .compound hop (ha ha') (hb hb')
      · intro h
        cases h with
        | negation hoperand =>
            refine ⟨⟨arityProblems_eq_nil.2 (.inl ⟨rfl, hoperand.isMissing_eq_false, rfl⟩),
              fun _ => hoperand⟩, fun h => ?_⟩
            cases h
        | compound hop hleft hright =>
            exact ⟨⟨arityProblems_eq_nil.2 (.inr ⟨hop, hleft.isMissing_eq_false,
              hright.isMissing_eq_false⟩), fun _ => hleft⟩, fun _ => hright⟩
  | quantified q v a d ih =>
      rw [problems, List.append_eq_nil_iff, emptyText_eq_nil, ih]
      constructor
      · rintro ⟨hv, ha⟩
        exact .quantified hv ha
      · intro h
        cases h with
        | quantified hv ha => exact ⟨hv, ha⟩
  | rule i a b d x c iha ihb =>
      simp only [problems, List.append_eq_nil_iff, emptyText_eq_nil, unitProblems_eq_nil,
        Data.inUnit_iff, iha, ihb]
      constructor
      · rintro ⟨⟨⟨hi, hc⟩, ha⟩, hb⟩
        exact .rule hi ha hb hc
      · intro h
        cases h with
        | rule hi ha hb hc => exact ⟨⟨⟨hi, hc⟩, ha⟩, hb⟩
  | edge e => exact edge_problems_eq_nil_iff
  | foreign v =>
      constructor
      · intro h
        cases h
      · intro h
        cases h

/-! ## Lists -/

/-- Two drafts are equal if both are rules with one identifier. -/
def AtOne (d e : Draft) : Prop :=
  ∀ id, d.ruleId? = some id → e.ruleId? = some id → d.same e = true

/-- A draft is equal to the rule that was met before with its identifier. -/
def Agrees (seen : SeenRules) (d : Draft) : Prop :=
  ∀ id, d.ruleId? = some id → ∀ j e, seen.lookup id = some (j, e) → e.same d = true

theorem atOne_refl (d : Draft) : d.AtOne d :=
  fun _ _ _ => same_refl d

instance : Std.Symm AtOne where
  symm _ _ h id he hd := same_symm (h id hd he)

theorem duplicateProblem_eq_nil_iff {seen : SeenRules} {i : Nat} {id : String}
    {d : Draft} (hd : d.ruleId? = some id) :
    duplicateProblem seen i id d = [] ↔ Agrees seen d := by
  simp only [Agrees, hd, Option.some.injEq, forall_eq', duplicateProblem]
  split
  · next j earlier h => simp [h]
  · next h => simp [h]

/-- Who agrees with the rules met so far and with one more that does so is equal
to this one, too. -/
theorem agrees_note {seen : SeenRules} {i : Nat} {id : String} {d e : Draft}
    (hd : d.ruleId? = some id) (h : Agrees seen d) :
    Agrees (note seen i id d) e ↔ Agrees seen e ∧ d.AtOne e := by
  unfold note
  cases hseen : seen.lookup id with
  | some s =>
      -- Both are equal to the first rule with the identifier, so to each other.
      refine ⟨fun he => ⟨he, fun k hk he' => ?_⟩, And.left⟩
      obtain rfl : id = k := Option.some.inj (hd.symm.trans hk)
      exact same_trans (same_symm (h id hd s.1 s.2 hseen)) (he id he' s.1 s.2 hseen)
  | none =>
      simp only [Option.isSome_none, Bool.false_eq_true, if_false, Agrees, List.lookup_append]
      constructor
      · intro he
        refine ⟨fun k hk j f hf => he k hk j f (by simp [hf]), fun k hdk hk => ?_⟩
        obtain rfl : id = k := Option.some.inj (hd.symm.trans hdk)
        exact he id hk i d (by simp [hseen])
      · rintro ⟨he, hone⟩ k hk j f hf
        rcases Option.or_eq_some_iff.1 hf with hf | ⟨-, hf⟩
        · exact he k hk j f hf
        · cases hkid : k == id with
          | false => simp [List.lookup_cons, hkid] at hf
          | true =>
              obtain ⟨-, rfl⟩ : i = j ∧ d = f := by simpa [List.lookup_cons, hkid] using hf
              exact hone k (eq_of_beq hkid ▸ hd) hk

/-- **The problems of a list** after some rules were met: there are none if and
only if the drafts keep the grammar, agree with these rules and are at one with
each other. -/
theorem listProblemsFrom_eq_nil_iff {seen : SeenRules} {i : Nat}
    {ds : List Draft} : listProblemsFrom seen i ds = [] ↔
      (∀ d ∈ ds, d.WellFormed) ∧ (∀ d ∈ ds, Agrees seen d) ∧ ds.Pairwise AtOne := by
  induction ds generalizing seen i with
  | nil => simp [listProblemsFrom]
  | cons d ds ih =>
      simp only [List.forall_mem_cons, List.pairwise_cons, listProblemsFrom]
      cases hd : d.ruleId? with
      | none =>
          have hagrees : Agrees seen d := fun id h => by simp [hd] at h
          have hone : ∀ e ∈ ds, d.AtOne e := fun e _ id h => by simp [hd] at h
          simp only [List.append_eq_nil_iff, problems_eq_nil_iff, ih, hagrees, true_and]
          constructor
          · rintro ⟨hwf, hall, hseen, hpairs⟩
            exact ⟨⟨hwf, hall⟩, hseen, hone, hpairs⟩
          · rintro ⟨⟨hwf, hall⟩, hseen, -, hpairs⟩
            exact ⟨hwf, hall, hseen, hpairs⟩
      | some id =>
          by_cases hid : id = ""
          · -- A rule without an identifier is not compared, and refused by itself.
            have hnot : ¬ d.WellFormed := fun h => h.ruleId?_ne (hid ▸ hd)
            simp [hid, problems_eq_nil_iff, hnot]
          · simp only [beq_iff_eq, hid, if_false, List.append_eq_nil_iff, problems_eq_nil_iff,
              duplicateProblem_eq_nil_iff hd, ih]
            constructor
            · rintro ⟨⟨hwf, hagrees⟩, hall, hnote, hpairs⟩
              have hrest := fun e he => (agrees_note hd hagrees).1 (hnote e he)
              exact ⟨⟨hwf, hall⟩, ⟨hagrees, fun e he => (hrest e he).1⟩,
                fun e he => (hrest e he).2, hpairs⟩
            · rintro ⟨⟨hwf, hall⟩, ⟨hagrees, hrest⟩, hone, hpairs⟩
              exact ⟨⟨hwf, hagrees⟩, hall,
                fun e he => (agrees_note hd hagrees).2 ⟨hrest e he, hone e he⟩, hpairs⟩

/-- **A list of drafts is accepted** if and only if each of them keeps the
grammar of nodes and rules with one identifier are equal; and a list of nodes is
checked as the list of their drafts. -/
theorem listProblems_eq_nil_iff :
    (∀ ns : List Node, Node.listProblems ns = listProblems (ns.map ofNode)) ∧
      ∀ ds : List Draft, listProblems ds = [] ↔ (∀ d ∈ ds, d.WellFormed) ∧
        ∀ d ∈ ds, ∀ e ∈ ds, ∀ id, d.ruleId? = some id → e.ruleId? = some id →
          d.same e = true := by
  refine ⟨fun _ => rfl, fun ds => ?_⟩
  have hseen : ∀ d ∈ ds, Agrees [] d := fun d _ id _ j e h => by cases h
  rw [listProblems, listProblemsFrom_eq_nil_iff]
  refine and_congr_right fun _ => ⟨fun ⟨_, hpairs⟩ d hd e he => ?_, fun h => ⟨hseen, ?_⟩⟩
  · exact hpairs.forall_of_forall (fun d _ => atOne_refl d) hd he
  · exact List.pairwise_of_forall_mem_list h

end Draft

end TripleLogic
