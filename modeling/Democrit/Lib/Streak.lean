import Mathlib.Tactic.Common

/-!
# Streaks

A streak of a property of the natural numbers is a maximal run of consecutive numbers that have it.
`StartsAt P s t` says that the streak which `t` belongs to begins at `s`.  Nothing here names the
program verified with it.

A machine that goes through a sequence and remembers where the current streak began needs three
facts: a streak has one beginning (`StartsAt.unique`), it is continued (`StartsAt.succ`), and a
number after one without the property begins a new one (`startsAt_self`).
-/

namespace Streak

variable {P : ℕ → Prop} {s s' t : ℕ}

/-- The streak that `t` is in began at `s`. -/
structure StartsAt (P : ℕ → Prop) (s t : ℕ) : Prop where
  le : s ≤ t
  all : ∀ i, s ≤ i → i ≤ t → P i
  first : ∀ i, i + 1 = s → ¬ P i

lemma StartsAt.holds (h : StartsAt P s t) : P t := h.all t h.le (Nat.le_refl t)

/-- **A streak has one beginning.** -/
lemma StartsAt.unique (h : StartsAt P s t) (h' : StartsAt P s' t) : s = s' := by
  rcases Nat.lt_trichotomy s s' with hlt | heq | hlt
  · exact absurd (h.all (s' - 1) (by omega) (by have := h'.le; omega)) (h'.first _ (by omega))
  · exact heq
  · exact absurd (h'.all (s - 1) (by omega) (by have := h.le; omega)) (h.first _ (by omega))

/-- It goes on as long as the property holds. -/
lemma StartsAt.succ (h : StartsAt P s t) (hP : P (t + 1)) : StartsAt P s (t + 1) := by
  refine ⟨Nat.le_succ_of_le h.le, ?_, h.first⟩
  intro i hs ht
  rcases Nat.lt_or_ge t i with hlt | hle
  · rwa [show i = t + 1 by omega]
  · exact h.all i hs hle

/-- It begins where the property did not hold before. -/
lemma startsAt_self (hP : P t) (hfirst : ∀ i, i + 1 = t → ¬ P i) : StartsAt P t t := by
  refine ⟨Nat.le_refl t, ?_, hfirst⟩
  intro i hs ht
  rwa [show i = t by omega]

/-- Every number with the property is in a streak. -/
lemma exists_startsAt (hP : P t) : ∃ s, StartsAt P s t := by
  induction t with
  | zero => exact ⟨0, startsAt_self hP (by omega)⟩
  | succ t ih =>
      by_cases ht : P t
      · obtain ⟨s, hs⟩ := ih ht
        exact ⟨s, hs.succ hP⟩
      · refine ⟨t + 1, startsAt_self hP ?_⟩
        intro i hi
        rwa [show i = t by omega]

end Streak
