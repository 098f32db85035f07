import Mathlib.Logic.Basic
import Mathlib.Tactic.Common

/-!
# Tables of lockable items

Items that come and go, each with a lock flag, and for each key the number of those who hold the
right to release it.  Nothing here names the program verified with it.

Two invariants are of interest.  `Exact` says that **flags and holders agree**: an item is locked
exactly if somebody holds it.  It survives that a held item is removed, so the holder of a key may
find nothing to release any more.  `Guarded` says that **what is held is there and locked**, so
that a release always succeeds.  It survives that holders get lost, but not that a locked item is
removed.
-/

namespace LockTable

/-- The flag of each item that is there, and the number of holders of each key. -/
structure Table (K : Type) where
  lock : K → Option Bool
  held : K → ℕ

variable {K : Type} [DecidableEq K] {t t' : Table K} {k : K}

/-- An unlocked item is locked, and its key gets one more holder. -/
structure Takes (k : K) (t t' : Table K) : Prop where
  free : t.lock k = some false
  lock : ∀ i, t'.lock i = if i = k then some true else t.lock i
  held : ∀ i, t'.held i = t.held i + if i = k then 1 else 0

/-- A holder gives up its right, and does `f` to the item. -/
structure Settles (k : K) (f : Option Bool) (t t' : Table K) : Prop where
  lock : ∀ i, t'.lock i = if i = k then f else t.lock i
  held : ∀ i, t.held i = t'.held i + if i = k then 1 else 0

/-! ## Flags and holders agree -/

/-- Every key has at most one holder, and an item is locked exactly if its key has one. -/
structure Exact (t : Table K) : Prop where
  one : ∀ k, t.held k ≤ 1
  locked : ∀ k b, t.lock k = some b → (b = true ↔ t.held k = 1)

omit [DecidableEq K] in
/-- Items may disappear, and unlocked ones appear under keys nobody holds. -/
lemma Exact.edit (h : Exact t) (hheld : ∀ k, t'.held k = t.held k)
    (hlock : ∀ k b, t'.lock k = some b → t.lock k = some b ∨ b = false ∧ t.held k = 0) :
    Exact t' := by
  refine ⟨fun k => hheld k ▸ h.one k, fun k b hb => ?_⟩
  rw [hheld k]
  rcases hlock k b hb with hb | ⟨rfl, hk⟩
  · exact h.locked k b hb
  · simp [hk]

lemma Exact.take (h : Exact t) (hs : Takes k t t') : Exact t' := by
  have hk : t.held k = 0 := by
    have := h.locked k false hs.free
    have := h.one k
    grind
  refine ⟨fun i => ?_, fun i b hb => ?_⟩
  · rw [hs.held]
    split
    · rename_i hi
      simp [hi, hk]
    · exact h.one i
  · rw [hs.held]
    rw [hs.lock] at hb
    split at hb
    · rename_i hi
      obtain rfl := Option.some.inj hb
      simp [hi, hk]
    · rename_i hi
      rw [if_neg hi]
      exact h.locked i b hb

lemma Exact.settle {f : Option Bool} (h : Exact t) (hs : Settles k f t t') (hf : f ≠ some true) :
    Exact t' := by
  refine ⟨fun i => ?_, fun i b hb => ?_⟩
  · have := h.one i
    rw [hs.held] at this
    omega
  · have hone := h.one i
    rw [hs.held] at hone
    rw [hs.lock] at hb
    split at hb
    · rename_i hi
      rw [if_pos hi] at hone
      cases b with
      | true => exact absurd hb hf
      | false =>
          have : t'.held i = 0 := by omega
          simp [this]
    · rename_i hi
      have := h.locked i b hb
      rwa [hs.held, if_neg hi] at this

/-! ## What is held is there -/

/-- Every key has at most one holder, and what is held is there and locked. -/
structure Guarded (t : Table K) : Prop where
  one : ∀ k, t.held k ≤ 1
  locked : ∀ k, t.held k ≠ 0 → t.lock k = some true

omit [DecidableEq K] in
/-- Holders may get lost, and anything may happen to items that are not locked. -/
lemma Guarded.edit (h : Guarded t) (hheld : ∀ k, t'.held k ≤ t.held k)
    (hlock : ∀ k, t.lock k = some true → t'.lock k = some true) : Guarded t' := by
  refine ⟨fun k => Nat.le_trans (hheld k) (h.one k), fun k hk => hlock k (h.locked k ?_)⟩
  have := hheld k
  omega

lemma Guarded.take (h : Guarded t) (hs : Takes k t t') : Guarded t' := by
  have hk : t.held k = 0 := by
    by_contra hne
    have := h.locked k hne
    rw [hs.free] at this
    simp at this
  refine ⟨fun i => ?_, fun i hi => ?_⟩
  · rw [hs.held]
    split
    · rename_i hi
      simp [hi, hk]
    · exact h.one i
  · rw [hs.lock]
    split
    · rfl
    · rename_i hik
      rw [hs.held, if_neg hik] at hi
      exact h.locked i hi

lemma Guarded.settle {f : Option Bool} (h : Guarded t) (hs : Settles k f t t') : Guarded t' := by
  refine ⟨fun i => ?_, fun i hi => ?_⟩
  · have := h.one i
    rw [hs.held] at this
    omega
  · have hone := h.one i
    rw [hs.held] at hone
    rw [hs.lock]
    split
    · rename_i hik
      rw [if_pos hik] at hone
      omega
    · rename_i hik
      refine h.locked i ?_
      rw [hs.held, if_neg hik]
      exact hi

end LockTable
