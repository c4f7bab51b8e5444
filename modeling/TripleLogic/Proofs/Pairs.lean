/-
TripleLogic.Proofs.Pairs — going through a list in pairs.

Each value of a list is paired with every later one. Where the values come
with their places, the pairs are those of growing places (`mem_pairs`), each
of them once and in order (`pairwise_pairs`). In particular this is so for a
whole list with its places (`mem_pairs_zipIdx`).

The order of a list decides which value of a pair comes first and in which
order the pairs come, and nothing else (`filterMap_pairs_perm`).
-/

namespace TripleLogic

variable {α : Type}

/-- The pairs of values of a list, the earlier one first. -/
def pairs : List α → List (α × α)
  | [] => []
  | a :: rest => rest.map (fun b => (a, b)) ++ pairs rest

theorem pairs_map {β : Type} (f : α → β) :
    ∀ l : List α, pairs (l.map f) = (pairs l).map (Prod.map f f)
  | [] => rfl
  | a :: rest => by simp [pairs, pairs_map f rest]

/-- Pairs are of values of the list. -/
theorem mem_of_mem_pairs {a b : α} : ∀ {l : List α}, (a, b) ∈ pairs l → a ∈ l ∧ b ∈ l
  | c :: rest, h => by
      rcases List.mem_append.1 h with h | h
      · obtain ⟨d, hd, heq⟩ := List.mem_map.1 h
        cases heq
        exact ⟨List.mem_cons_self, List.mem_cons_of_mem _ hd⟩
      · obtain ⟨ha, hb⟩ := mem_of_mem_pairs h
        exact ⟨List.mem_cons_of_mem c ha, List.mem_cons_of_mem c hb⟩

/-- What is made of pairs without regard to which value comes first is the
same for every order of the list, up to its own order. -/
theorem filterMap_pairs_perm {β : Type} {f : α → α → Option β} (hf : ∀ a b, f a b = f b a)
    {l l' : List α} (h : l.Perm l') :
    ((pairs l).filterMap fun p => f p.1 p.2).Perm ((pairs l').filterMap fun p => f p.1 p.2) := by
  induction h with
  | nil => exact .refl _
  | cons a h ih =>
      simp only [pairs, List.filterMap_append]
      exact ((h.map _).filterMap _).append ih
  | swap a b l =>
      -- Either way the two are paired with each other and each of them with all of `l`.
      have hpairs : ∀ a b, pairs (a :: b :: l)
          = (a, b) :: (l.map (fun c => (a, c)) ++ l.map (fun c => (b, c)) ++ pairs l) := by
        simp [pairs]
      have hrest : (l.map (fun c => (b, c)) ++ l.map (fun c => (a, c)) ++ pairs l).Perm
          (l.map (fun c => (a, c)) ++ l.map (fun c => (b, c)) ++ pairs l) :=
        List.perm_append_comm.append_right _
      simp only [hpairs, List.filterMap_cons, hf b a]
      cases f a b with
      | none => exact hrest.filterMap _
      | some c => exact (hrest.filterMap _).cons c
  | trans _ _ ih₁ ih₂ => exact ih₁.trans ih₂

/-- Where places grow along a list, its pairs are those of growing places. -/
theorem mem_pairs {p q : α × Nat} : ∀ {l : List (α × Nat)},
    l.Pairwise (fun a b => a.2 < b.2) → ((p, q) ∈ pairs l ↔ p ∈ l ∧ q ∈ l ∧ p.2 < q.2)
  | [], _ => by simp [pairs]
  | a :: rest, h => by
      obtain ⟨hhead, htail⟩ := List.pairwise_cons.1 h
      rw [pairs, List.mem_append, mem_pairs htail, List.mem_map, List.mem_cons, List.mem_cons]
      constructor
      · rintro (⟨b, hb, heq⟩ | ⟨hp, hq, hlt⟩)
        · cases heq
          exact ⟨.inl rfl, .inr hb, hhead _ hb⟩
        · exact ⟨.inr hp, .inr hq, hlt⟩
      · rintro ⟨rfl | hp, rfl | hq, hlt⟩
        · exact absurd hlt (Nat.lt_irrefl _)
        · exact .inl ⟨q, hq, rfl⟩
        · exact absurd hlt (Nat.lt_asymm (hhead _ hp))
        · exact .inr ⟨hp, hq, hlt⟩

/-- Pairs come by the place of the earlier value, then by that of the later one. -/
theorem pairwise_pairs : ∀ {l : List (α × Nat)}, l.Pairwise (fun a b => a.2 < b.2) →
    (pairs l).Pairwise fun x y => x.1.2 < y.1.2 ∨ x.1.2 = y.1.2 ∧ x.2.2 < y.2.2
  | [], _ => .nil
  | a :: rest, h => by
      obtain ⟨hhead, htail⟩ := List.pairwise_cons.1 h
      rw [pairs, List.pairwise_append]
      refine ⟨List.pairwise_map.2 (htail.imp fun hlt => .inr ⟨rfl, hlt⟩), pairwise_pairs htail, ?_⟩
      intro x hx y hy
      obtain ⟨b, _, rfl⟩ := List.mem_map.1 hx
      exact .inl (hhead _ ((mem_pairs htail).1 hy).1)

/-- Places grow along a list. -/
theorem pairwise_zipIdx (l : List α) : l.zipIdx.Pairwise fun a b => a.2 < b.2 := by
  refine List.pairwise_map.1 ?_
  rw [List.zipIdx_map_snd]
  exact List.pairwise_lt_range' 1

/-- The pairs of a list with its places. -/
theorem mem_pairs_zipIdx {l : List α} {p q : α × Nat} :
    (p, q) ∈ pairs l.zipIdx ↔ p.2 < q.2 ∧ l[p.2]? = some p.1 ∧ l[q.2]? = some q.1 := by
  rw [mem_pairs (pairwise_zipIdx l), List.mem_zipIdx_iff_getElem?, List.mem_zipIdx_iff_getElem?]
  exact ⟨fun ⟨hp, hq, hlt⟩ => ⟨hlt, hp, hq⟩, fun ⟨hlt, hp, hq⟩ => ⟨hp, hq, hlt⟩⟩

end TripleLogic
