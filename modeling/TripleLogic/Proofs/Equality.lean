/-
TripleLogic.Proofs.Equality — equal nodes unify alike.

Which of several equal nodes a knowledge base holds depends on the order in
which they came. It makes no difference to inference. Equal nodes unify with
equal nodes in the same cases, and the bindings have equal values
(`nodes_agree`); substitution of equal values in equal nodes gives equal nodes
(`canon_subst`). For the latter the values must be free of composite literals:
a name is replaced by the text of a value, and equal lists may have different
texts.
-/
import TripleLogic.Proofs.Keys

namespace TripleLogic

/-! ## Canonical forms of tokens -/

theorem Number.canon_canon (n : Number) : n.canon.canon = n.canon := by
  cases n with
  | int n => rfl
  | float x =>
      cases h : x.toInt? with
      | none => simp only [canon, h]
      | some n => simp only [canon, h]

namespace Expr

theorem canonAll_eq_map (as : List Expr) : canonAll as = as.map canon := by
  induction as with
  | nil => rfl
  | cons a as ih => simp only [canonAll, ih, List.map_cons]

theorem textAll_eq_map (as : List Expr) : textAll as = as.map text := by
  induction as with
  | nil => rfl
  | cons a as ih => simp only [textAll, ih, List.map_cons]

@[simp] theorem varName?_canon (e : Expr) : e.canon.varName? = e.varName? := by
  cases e <;> rfl

theorem composite?_canon (e : Expr) : e.canon.composite? = none ↔ e.composite? = none := by
  induction e using Expr.ind with
  | concept name => simp [canon, composite?]
  | identifier name => simp [canon, composite?]
  | literal s => simp [canon, composite?]
  | composite d => simp [canon, composite?]
  | unary o a ih => exact ih
  | binary o a b iha ihb => simp [canon, composite?, iha, ihb]
  | application f as ih =>
      simp only [canon, composite?, canonAll_eq_map, compositeIn?_eq_none, List.forall_mem_map]
      exact forall_congr' fun a => forall_congr' fun ha => ih a ha
  | lambda ps a ih => exact ih

/-- Equal expressions without composite literals have one text. -/
theorem text_canon {e : Expr} (h : e.composite? = none) : e.canon.text = e.text := by
  induction e using Expr.ind with
  | concept name => rfl
  | identifier name => rfl
  | literal s =>
      cases s with
      | num n => simp only [canon, Scalar.canon, text, Scalar.text, Number.plainText,
          Number.canon_canon]
      | _ => rfl
  | composite d => cases h
  | unary o a ih => simp only [canon, text, ih h]
  | binary o a b iha ihb =>
      simp only [composite?, Option.orElse_eq_orElse, Option.orElse_eq_or,
        Option.or_eq_none_iff] at h
      simp only [canon, text, iha h.1, ihb h.2]
  | application f as ih =>
      have htexts : (as.map canon).map text = as.map text := by
        rw [List.map_map]
        exact List.map_congr_left fun a ha => ih a ha (compositeIn?_eq_none.1 h a ha)
      simp only [canon, text, canonAll_eq_map, textAll_eq_map, htexts]
  | lambda ps a ih => simp only [canon, text, ih h]

end Expr

/-! ## Canonical forms of bindings -/

namespace Bindings

/-- The canonical form of bindings. -/
def canon (θ : Bindings) : Bindings :=
  θ.map fun b => (b.1, b.2.canon)

theorem get?_canon (θ : Bindings) (v : String) : get? θ.canon v = (get? θ v).map Expr.canon :=
  lookup_map_snd Expr.canon v θ

theorem without_canon (θ : Bindings) (v : String) : without θ.canon v = (without θ v).canon := by
  simp [without, canon, List.filter_map, Function.comp_def]

theorem canon_set (θ : Bindings) (v : String) (e : Expr) :
    (θ.set v e).canon = θ.canon.set v e.canon := by
  simp only [set, get?_canon, Option.isSome_map]
  split
  · simp only [canon, List.map_map]
    refine List.map_congr_left fun b _ => ?_
    simp only [Function.comp_apply]
    split <;> rfl
  · simp [canon]

/-- Final values have canonical forms that depend on canonical forms only. -/
theorem canon_resolve (θ : Bindings) (e : Expr) :
    (θ.resolve e).canon = θ.canon.resolve e.canon := by
  induction θ, e using Bindings.resolve.induct with
  | case1 θ e hv => rw [resolve_of_not_variable hv, resolve_of_not_variable (by simpa using hv)]
  | case2 θ e v hv hf =>
      rw [resolve_of_unbound hv hf, resolve_of_unbound (by simpa using hv)]
      simp [get?_canon, hf]
  | case3 θ e v hv f hf ih =>
      have hcanon : get? θ.canon v = some f.canon := by simp [get?_canon, hf]
      rw [resolve_of_get? hv hf, resolve_of_get? (by simpa using hv) hcanon, ih, without_canon]

end Bindings

/-! ## Equal nodes -/

/-- Equal nodes, by their form: what equality of two nodes says of their
parts. -/
inductive Node.Equal : Node → Node → Prop where
  | intent {i j : Intent} (hkind : i.kind = j.kind)
      (hstatements : i.statements.map Statement.canon = j.statements.map Statement.canon) :
      Equal (.intent i) (.intent j)
  | compound {o : Connective} {a a' b b' : Option Node} (ha : canonOperand a = canonOperand a')
      (hb : canonOperand b = canonOperand b') : Equal (.compound o a b) (.compound o a' b')
  | quantified {q : Quantifier} {v : String} {a a' : Node} {d : Option String}
      (ha : a.canon = a'.canon) : Equal (.quantified q v a d) (.quantified q v a' d)
  | rule {i : String} {a a' b b' : Node} {d : Option String} {x : Bool} {c c' : Data}
      (ha : a.canon = a'.canon) (hb : b.canon = b'.canon) :
      Equal (.rule i a b d x c) (.rule i a' b' d x c')
  | edge {e e' : Edge} (hsame : e.same e' = true) : Equal (.edge e) (.edge e')

theorem Node.equal_of_canon {n m : Node} (h : n.canon = m.canon) : n.Equal m := by
  cases n with
  | intent i =>
      cases m with
      | intent j =>
          simp only [canon, intent.injEq, Intent.mk.injEq, and_true] at h
          exact .intent h.1 h.2
      | _ => cases h
  | compound o a b =>
      cases m with
      | compound p c d =>
          simp only [canon, compound.injEq] at h
          obtain ⟨rfl, ha, hb⟩ := h
          exact .compound ha hb
      | _ => cases h
  | quantified q v a d =>
      cases m with
      | quantified r w b e =>
          simp only [canon, quantified.injEq] at h
          obtain ⟨rfl, rfl, ha, rfl⟩ := h
          exact .quantified ha
      | _ => cases h
  | rule i a b d x c =>
      cases m with
      | rule j a' b' e y c' =>
          simp only [canon, rule.injEq, and_true] at h
          obtain ⟨rfl, ha, hb, rfl, rfl⟩ := h
          exact .rule ha hb
      | _ => cases h
  | edge e =>
      cases m with
      | edge f => exact .edge ((edge_same_iff e f).2 h)
      | _ => cases h

/-- What equals a compound of two operands is one of equal operands. -/
theorem Node.compound_of_canon {o : Connective} {a b n : Node}
    (h : n.canon = (Node.compound o (some a) (some b)).canon) :
    ∃ a' b', n = .compound o (some a') (some b') ∧ a'.canon = a.canon ∧ b'.canon = b.canon := by
  cases equal_of_canon h with
  | @compound _ a' _ b' _ ha hb =>
      cases a' with
      | none => cases ha
      | some a' =>
          cases b' with
          | none => cases hb
          | some b' => exact ⟨a', b', rfl, Option.some.inj ha, Option.some.inj hb⟩

theorem Statement.tokens_canon (s : Statement) : s.canon.tokens = s.tokens.map Expr.canon := by
  simp [tokens, canon, Attributes.canon, Expr.canon]

namespace Node

theorem tokens_canon (n : Node) : n.canon.tokens = n.tokens.map Expr.canon := by
  induction n using Node.ind with
  | intent i =>
      simp only [tokens, canon, collect, List.flatMap_map, List.map_flatMap,
        Statement.tokens_canon]
  | compound o a b iha ihb =>
      have ha : collectOperand Statement.tokens Edge.tokens (canonOperand a)
          = (collectOperand Statement.tokens Edge.tokens a).map Expr.canon :=
        operand_cases a rfl iha
      have hb : collectOperand Statement.tokens Edge.tokens (canonOperand b)
          = (collectOperand Statement.tokens Edge.tokens b).map Expr.canon :=
        operand_cases b rfl ihb
      simp only [tokens, canon, collect, ha, hb, List.map_append]
  | quantified q v a d ih => exact ih
  | rule i a b d x c iha ihb =>
      simp only [tokens] at iha ihb
      simp only [tokens, canon, collect, iha, ihb, List.map_append]
  | edge e => rfl

/-- Of equal nodes all are keys, or none is. -/
theorem isKey_of_canon {n m : Node} (h : n.canon = m.canon) (hm : m.isKey = true) :
    n.isKey = true := by
  have hkey : ∀ k : Node, k.isKey = true ↔ ∀ e ∈ k.canon.tokens, e.composite? = none := by
    intro k
    rw [isKey_iff, tokens_canon, List.forall_mem_map]
    exact forall_congr' fun e => forall_congr' fun _ => e.composite?_canon.symm
  rw [hkey, h, ← hkey]
  exact hm

end Node

/-! ## Unification -/

namespace Unify

/-- Two steps agree: from equal bindings they give equal bindings, or nothing. -/
def Agree (f g : Bindings → Option Bindings) : Prop :=
  ∀ θ η : Bindings, θ.canon = η.canon → (f θ).map Bindings.canon = (g η).map Bindings.canon

theorem agree_some : Agree some some := by
  intro θ η h
  simp [h]

theorem agree_none : Agree (fun _ => none) fun _ => none :=
  fun _ _ _ => rfl

theorem Agree.bind {f f' g g' : Bindings → Option Bindings} (hf : Agree f f') (hg : Agree g g') :
    Agree (fun θ => (f θ).bind g) fun θ => (f' θ).bind g' := by
  intro θ η h
  have hfη := hf θ η h
  cases hθ : f θ with
  | none =>
      rw [hθ, Option.map_none] at hfη
      simp only [hθ, Option.map_eq_none_iff.1 hfη.symm, Option.bind_none]
  | some θ' =>
      rw [hθ, Option.map_some] at hfη
      obtain ⟨η', hη', hcanon⟩ := Option.map_eq_some_iff.1 hfη.symm
      simpa only [hθ, hη', Option.bind_some] using hg θ' η' hcanon.symm

theorem Agree.ite {c c' : Prop} [Decidable c] [Decidable c'] (hc : c ↔ c')
    {f g : Bindings → Option Bindings} (h : Agree f g) :
    Agree (fun θ => if c then f θ else none) fun θ => if c' then g θ else none := by
  by_cases hc' : c'
  · simpa [hc, hc'] using h
  · simpa [hc, hc'] using agree_none

theorem exprs_agree {a a' b b' : Expr} (ha : a.canon = a'.canon) (hb : b.canon = b'.canon) :
    Agree (exprs a b) (exprs a' b') := by
  intro θ η h
  have hra : (θ.resolve a).canon = (η.resolve a').canon := by
    rw [Bindings.canon_resolve, Bindings.canon_resolve, h, ha]
  have hrb : (θ.resolve b).canon = (η.resolve b').canon := by
    rw [Bindings.canon_resolve, Bindings.canon_resolve, h, hb]
  have hva : (θ.resolve a).varName? = (η.resolve a').varName? := by
    rw [← Expr.varName?_canon, hra, Expr.varName?_canon]
  have hvb : (θ.resolve b).varName? = (η.resolve b').varName? := by
    rw [← Expr.varName?_canon, hrb, Expr.varName?_canon]
  have hsame : (θ.resolve a).same (θ.resolve b) = (η.resolve a').same (η.resolve b') := by
    rw [Bool.eq_iff_iff, Expr.same_iff, Expr.same_iff, hra, hrb]
  simp only [exprs, hva, hvb, hsame]
  split
  · split <;> simp [Bindings.canon_set, h, hrb]
  · simp [Bindings.canon_set, h, hrb]
  · simp [Bindings.canon_set, h, hra]
  · split <;> simp [h]

theorem names_agree (a b : String) : Agree (names a b) (names a b) :=
  exprs_agree rfl rfl

theorem valuesAt_agree {x x' y y' : Option Expr} (hx : x.map Expr.canon = x'.map Expr.canon)
    (hy : y.map Expr.canon = y'.map Expr.canon) : Agree (valuesAt x y) (valuesAt x' y') := by
  have hvar : ∀ {e e' : Expr}, e.canon = e'.canon → e.isVariable = e'.isVariable := by
    intro e e' h
    rw [Expr.isVariable, ← Expr.varName?_canon, h, Expr.varName?_canon, Expr.isVariable]
  cases x <;> cases x' <;> cases y <;> cases y' <;>
    simp only [Option.map_none, Option.map_some, Option.some.injEq, reduceCtorEq] at hx hy
  · exact agree_some
  · exact agree_some.ite (by rw [hvar hy])
  · exact agree_some.ite (by rw [hvar hx])
  · exact exprs_agree hx hy

theorem attributes_agree {a a' b b' : Attributes} (ha : a.canon = a'.canon)
    (hb : b.canon = b'.canon) : ∀ ks : List String, Agree (attributes a b ks) (attributes a' b' ks)
  | [] => agree_some
  | k :: ks => by
      have hget : ∀ {c c' : Attributes}, c.canon = c'.canon →
          (c.get? k).map Expr.canon = (c'.get? k).map Expr.canon := by
        intro c c' h
        rw [← Attributes.get?_map, ← Attributes.get?_map]
        exact congrArg (Attributes.get? · k) h
      exact (valuesAt_agree (hget ha) (hget hb)).bind (attributes_agree ha hb ks)

/-- Equal attributes have the same keys. -/
theorem keys_of_canon {a a' b b' : Attributes} (ha : a.canon = a'.canon)
    (hb : b.canon = b'.canon) : Attributes.keys a b = Attributes.keys a' b' := by
  have hfst : ∀ {c c' : Attributes}, c.canon = c'.canon → c.map Prod.fst = c'.map Prod.fst := by
    intro c c' h
    have hmap := congrArg (List.map Prod.fst) h
    simpa [Attributes.canon, Function.comp_def] using hmap
  simp only [Attributes.keys, List.map_append, hfst ha, hfst hb]

theorem statements_agree {s s' t t' : Statement} (hs : s.canon = s'.canon)
    (ht : t.canon = t'.canon) : Agree (statements s t) (statements s' t') := by
  simp only [Statement.canon, Statement.mk.injEq, Relation.mk.injEq, and_true] at hs ht
  obtain ⟨hsub, hrel, hobj, hattr⟩ := hs
  obtain ⟨hsub', hrel', hobj', hattr'⟩ := ht
  have hkeys := keys_of_canon hattr hattr'
  unfold statements
  rw [hrel, hrel', hkeys]
  exact (exprs_agree hsub hsub').bind ((names_agree _ _).bind
    ((exprs_agree hobj hobj').bind (attributes_agree hattr hattr' _)))

theorem statementLists_agree : ∀ {ss ss' ts ts' : List Statement},
    ss.map Statement.canon = ss'.map Statement.canon →
    ts.map Statement.canon = ts'.map Statement.canon →
    Agree (statementLists ss ts) (statementLists ss' ts')
  | [], [], [], [], _, _ => agree_some
  | s :: ss, s' :: ss', t :: ts, t' :: ts', hs, ht => by
      simp only [List.map_cons, List.cons.injEq] at hs ht
      exact (statements_agree hs.1 ht.1).bind (statementLists_agree hs.2 ht.2)
  | [], [], _ :: _, _ :: _, _, _ => agree_none
  | _ :: _, _ :: _, [], [], _, _ => agree_none

theorem operands_agree {a a' b b' : Option Node}
    (ha : Node.canonOperand a = Node.canonOperand a')
    (hb : Node.canonOperand b = Node.canonOperand b')
    (h : ∀ m m' n n' : Node, a = some m → m.canon = m'.canon → n.canon = n'.canon →
      Agree (nodes m n) (nodes m' n')) : Agree (operands a b) (operands a' b') := by
  cases a <;> cases a' <;> cases b <;> cases b' <;>
    simp only [Node.canonOperand, Option.some.injEq, reduceCtorEq] at ha hb
  · exact agree_some
  · exact agree_none
  · exact agree_none
  · exact h _ _ _ _ rfl ha hb

theorem edges_agree {e e' f f' : Edge} (he : e.same e' = true) (hf : f.same f' = true) :
    Agree (edges e f) (edges e' f') := by
  simp only [Edge.same, Bool.and_eq_true, beq_iff_eq] at he hf
  obtain ⟨⟨⟨⟨hkind, hsource⟩, htarget⟩, hname⟩, -⟩ := he
  obtain ⟨⟨⟨⟨hkind', hsource'⟩, htarget'⟩, hname'⟩, -⟩ := hf
  unfold edges
  rw [hkind, hkind', hsource, hsource', htarget, htarget', hname, hname']
  exact ((names_agree _ _).bind ((names_agree _ _).bind (names_agree _ _))).ite Iff.rfl

/-- Equal nodes unify with equal nodes alike. -/
theorem nodes_agree {a a' b b' : Node} (ha : a.canon = a'.canon) (hb : b.canon = b'.canon) :
    Agree (nodes a b) (nodes a' b') := by
  induction a using Node.ind generalizing a' b b' with
  | intent i =>
      cases Node.equal_of_canon ha with
      | intent hk hs =>
          cases Node.equal_of_canon hb with
          | intent hl ht => exact (statementLists_agree hs ht).ite (by rw [hk, hl])
          | _ => exact agree_none
  | compound o a c iha ihc =>
      cases Node.equal_of_canon ha with
      | compound hl hr =>
          cases Node.equal_of_canon hb with
          | compound hl' hr' =>
              refine Agree.ite Iff.rfl (Agree.bind ?_ ?_)
              · exact operands_agree hl hl' fun m m' n n' hm => iha m hm
              · exact operands_agree hr hr' fun m m' n n' hm => ihc m hm
          | _ => exact agree_none
  | quantified q v a d ih =>
      cases Node.equal_of_canon ha with
      | quantified hbody =>
          cases Node.equal_of_canon hb with
          | quantified hbody' => exact (ih hbody hbody').ite Iff.rfl
          | _ => exact agree_none
  | rule i a c d x k iha ihc =>
      cases Node.equal_of_canon ha with
      | rule hp hc =>
          cases Node.equal_of_canon hb with
          | rule hp' hc' => exact ((iha hp hp').bind (ihc hc hc')).ite Iff.rfl
          | _ => exact agree_none
  | edge e =>
      cases Node.equal_of_canon ha with
      | edge hs =>
          cases Node.equal_of_canon hb with
          | edge hs' => exact edges_agree hs hs'
          | _ => exact agree_none

end Unify

/-! ## Substitution -/

section

variable {V : Vocabulary} (hV : ∀ e ∈ V.tokens, e.composite? = none) {θ : Bindings}
  (hθ : θ.Over V)

include hV hθ

theorem substName_canon {name : String} (h : .identifier name ∈ V.tokens) :
    substName θ.canon name = substName θ name := by
  have htext : (θ.canon.resolve (.identifier name)).text = (θ.resolve (.identifier name)).text := by
    have hcanon : (Expr.identifier name).canon = .identifier name := rfl
    rw [← hcanon, ← Bindings.canon_resolve, hcanon]
    exact Expr.text_canon (hV _ (hθ.resolve_mem h))
  simp only [substName, Bindings.get?_canon, Option.isSome_map, htext]

theorem Statement.canon_subst {s : Statement} (h : ∀ e ∈ s.tokens, e ∈ V.tokens) :
    (s.subst θ).canon = s.canon.subst θ.canon := by
  have hname : substName θ.canon s.relation.name = substName θ s.relation.name :=
    substName_canon hV hθ (h _ (by simp [tokens]))
  simp [subst, canon, Attributes.canon, Expr.subst, Bindings.canon_resolve, hname]

theorem Edge.canon_subst {e : Edge} (h : ∀ x ∈ e.tokens, x ∈ V.tokens) :
    (Node.edge (e.subst θ)).canon = (Node.edge e).canon.subst θ.canon := by
  simp only [tokens, List.forall_mem_cons] at h
  simp only [Node.canon, Node.subst, subst, substName_canon hV hθ h.1,
    substName_canon hV hθ h.2.1, substName_canon hV hθ h.2.2.1]

/-- Substitution depends on canonical forms only, up to equality. -/
theorem Node.canon_subst {n : Node} (h : n.Over V) :
    (n.subst θ).canon = n.canon.subst θ.canon := by
  induction n using Node.ind with
  | intent i =>
      rw [Over, forall_tokens_intent] at h
      have hstatements : (i.statements.map (Statement.subst θ)).map Statement.canon
          = (i.statements.map Statement.canon).map (Statement.subst θ.canon) := by
        rw [List.map_map, List.map_map]
        exact List.map_congr_left fun s hs => Statement.canon_subst hV hθ (h s hs)
      simp only [subst, canon, hstatements]
  | compound o a b iha ihb =>
      rw [Over, forall_tokens_compound] at h
      have ha : canonOperand (substOperand θ a) = substOperand θ.canon (canonOperand a) :=
        operand_cases a rfl fun n hn => congrArg some (iha n hn (h.1 n hn))
      have hb : canonOperand (substOperand θ b) = substOperand θ.canon (canonOperand b) :=
        operand_cases b rfl fun n hn => congrArg some (ihb n hn (h.2 n hn))
      simp only [subst, canon, ha, hb]
  | quantified q v a d ih => simp only [subst, canon, ih h]
  | rule i a b d x c iha ihb =>
      rw [Over, forall_tokens_rule] at h
      simp only [subst, canon, iha h.1, ihb h.2]
  | edge e => exact Edge.canon_subst hV hθ h

end

end TripleLogic
