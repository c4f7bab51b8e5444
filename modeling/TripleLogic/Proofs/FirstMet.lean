/-
TripleLogic.Proofs.FirstMet — the values of a list as they are first met.

Dropping repetitions keeps each value once, at the place where it is first met
(`pairwise_eraseDups`). The order of a list decides in which order its values
come, and nothing else (`eraseDups_perm`); a value at the end of a list is a new
one or no one (`eraseDups_concat`).
-/
import Mathlib.Data.List.Basic

namespace TripleLogic

variable {α : Type} [DecidableEq α]

/-- What is met first among the values that are kept is met first. -/
theorem idxOf_lt_of_filter {p : α → Bool} {a b : α} (ha : p a = true) (hb : p b = true) :
    ∀ {l : List α}, (l.filter p).idxOf a < (l.filter p).idxOf b → l.idxOf a < l.idxOf b
  | [], h => h
  | c :: l, h => by
      by_cases hc : p c = true
      · rw [List.filter_cons_of_pos hc] at h
        by_cases hca : c = a
        · subst hca
          by_cases hcb : c = b
          · subst hcb
            exact absurd h (Nat.lt_irrefl _)
          · simp [hcb]
        · by_cases hcb : c = b
          · simp [List.idxOf_cons, hcb] at h
          · simp only [List.idxOf_cons, beq_eq_false_iff_ne.2 hca, beq_eq_false_iff_ne.2 hcb,
              cond_false, Nat.add_lt_add_iff_right] at h ⊢
            exact idxOf_lt_of_filter ha hb h
      · rw [List.filter_cons_of_neg hc] at h
        have hca : c ≠ a := fun hca => hc (hca ▸ ha)
        have hcb : c ≠ b := fun hcb => hc (hcb ▸ hb)
        simp only [List.idxOf_cons, beq_eq_false_iff_ne.2 hca, beq_eq_false_iff_ne.2 hcb,
          cond_false, Nat.add_lt_add_iff_right]
        exact idxOf_lt_of_filter ha hb h

/-- Values with repetitions dropped come as they are first met. -/
theorem pairwise_eraseDups (l : List α) :
    l.eraseDups.Pairwise fun a b => l.idxOf a < l.idxOf b := by
  match l with
  | [] => simp
  | c :: l =>
      have hne : ∀ {b}, b ∈ (l.filter fun b => !b == c).eraseDups → c ≠ b := by
        intro b hb
        have hbc := (List.mem_filter.1 (List.mem_eraseDups.1 hb)).2
        exact fun h => by simp [h] at hbc
      rw [List.eraseDups_cons, List.pairwise_cons]
      constructor
      · intro b hb
        simp [hne hb]
      · refine (pairwise_eraseDups _).imp_of_mem fun {a b} ha hb hab => ?_
        simp only [List.idxOf_cons, beq_eq_false_iff_ne.2 (hne ha),
          beq_eq_false_iff_ne.2 (hne hb), cond_false, Nat.add_lt_add_iff_right]
        have hkeep {b} (hb : b ∈ (l.filter fun b => !b == c).eraseDups) : (!b == c) = true :=
          (List.mem_filter.1 (List.mem_eraseDups.1 hb)).2
        exact idxOf_lt_of_filter (p := fun b => !b == c) (hkeep ha) (hkeep hb) hab
termination_by l.length
decreasing_by exact Nat.lt_succ_of_le (List.length_filter_le _ _)

theorem nodup_eraseDups (l : List α) : l.eraseDups.Nodup :=
  (pairwise_eraseDups l).imp fun hlt heq => by simp [heq] at hlt

/-- Another order of a list has the same values in another order. -/
theorem eraseDups_perm {l l' : List α} (h : l.Perm l') : l.eraseDups.Perm l'.eraseDups := by
  refine (List.perm_ext_iff_of_nodup (nodup_eraseDups l) (nodup_eraseDups l')).2 fun a => ?_
  rw [List.mem_eraseDups, List.mem_eraseDups, h.mem_iff]

theorem eraseDups_concat (l : List α) (a : α) :
    (l ++ [a]).eraseDups = if a ∈ l then l.eraseDups else l.eraseDups ++ [a] := by
  rw [List.eraseDups_append]
  split
  · next h => simp [List.removeAll, h]
  · next h => simp [List.removeAll, h, List.eraseDups_cons]

end TripleLogic
