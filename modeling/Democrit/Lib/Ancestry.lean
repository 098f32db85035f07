import Mathlib.Data.Option.Basic
import Mathlib.Tactic.Common

/-!
# Ancestry in a forest of blocks

A forest is a map from a node to its parent, if it has one.  `back n b` follows it `n` times, and
`a ≤ b` in the sense of `Below` if some number of steps leads from `b` back to `a`.  Nothing here names
the program verified with it.

Nothing excludes a cycle, since no result here needs that there is none.
-/

namespace Ancestry

variable {α : Type*} {parent : α → Option α} {a b c : α}

/-- The node `n` steps back, if there are that many. -/
def back (parent : α → Option α) : ℕ → α → Option α
  | 0, b => some b
  | n + 1, b => (parent b).bind (back parent n)

/-- `a` is `b` or one of its ancestors. -/
def Below (parent : α → Option α) (a b : α) : Prop := ∃ n, back parent n b = some a

lemma back_add (m n : ℕ) (b : α) :
    back parent (m + n) b = (back parent m b).bind (back parent n) := by
  induction m generalizing b with
  | zero => simp [back]
  | succ m ih =>
      rw [Nat.succ_add]
      cases hp : parent b with
      | none => simp [back, hp]
      | some p => simp [back, hp, ih]

lemma Below.refl (b : α) : Below parent b b := ⟨0, rfl⟩

lemma Below.trans (h : Below parent a b) (h' : Below parent b c) : Below parent a c := by
  obtain ⟨n, hn⟩ := h
  obtain ⟨m, hm⟩ := h'
  exact ⟨m + n, by rw [back_add, hm]; exact hn⟩

end Ancestry
