import Mathlib.Logic.Function.Basic
import Mathlib.Order.Basic

/-!
# Conservation of divisible goods

Items with a key and a value, each of which goes back to some original offer.  When part of an item
is sold, the item goes away, and what is left of it may be put back as a new item with a key of its
own, that goes back to the same offer.

**What is around of an offer and what was sold of it add up** (`Conserved`): an offer has at most
one item at any time, whose value is the offer's minus all that was sold, so that no more is ever
sold than was offered.  Nothing here names the program verified with it.
-/

namespace Conservation

variable {K R : Type*}

/-- A ledger: the items, the offers they go back to, what was offered and sold, and the remainder of
a sale that is still to be put back, if there is one. -/
structure Ledger (K R : Type*) where
  has : K → ℕ → Prop
  root : K → Option R
  total : R → ℕ
  sold : R → ℕ
  owed : Option (R × ℕ)

/-- The items of a ledger go back to the same offers in another one. -/
def Keeps (l l' : Ledger K R) : Prop := ∀ k v, l.has k v → l'.root k = l.root k

/-- The items of another ledger are those of the first, and possibly one more. -/
def AtMost (l l' : Ledger K R) (k : K) (v : ℕ) : Prop :=
  ∀ i w, l'.has i w → l.has i w ∨ i = k ∧ w = v

/-- The steps of a ledger. -/
inductive Step [DecidableEq R] (l l' : Ledger K R) : Prop
  /-- Items at most disappear, and so does a remainder. -/
  | keep (hhas : ∀ k v, l'.has k v → l.has k v) (hroot : Keeps l l') (htotal : l'.total = l.total)
      (hsold : l'.sold = l.sold) (howed : l'.owed = l.owed ∨ l'.owed = none)
  /-- Something new is offered. -/
  | offer (k : K) (v : ℕ) (r : R) (hnew : ∀ i w, l.has i w → l.root i ≠ some r)
      (hunsold : l.sold r = 0) (hhas : AtMost l l' k v) (hroot : Keeps l l')
      (hself : l'.root k = some r) (htotal : l'.total = Function.update l.total r v)
      (hsold : l'.sold = l.sold) (howed : l'.owed = none)
  /-- Part of an item is sold. -/
  | sell (k : K) (v : ℕ) (r : R) (u : ℕ) (hk : l.has k v) (hr : l.root k = some r) (hu : u ≤ v)
      (hhas : ∀ i w, l'.has i w → l.has i w ∧ i ≠ k) (hroot : Keeps l l')
      (htotal : l'.total = l.total) (hsold : l'.sold = Function.update l.sold r (l.sold r + u))
      (howed : l'.owed = none ∨ l'.owed = some (r, v - u))
  /-- What is left of it is put back. -/
  | putBack (k : K) (v : ℕ) (r : R) (hdebt : l.owed = some (r, v))
      (hhas : AtMost l l' k v) (hroot : Keeps l l') (hself : l'.root k = some r)
      (htotal : l'.total = l.total) (hsold : l'.sold = l.sold) (howed : l'.owed = none)

/-- **Conservation.** -/
structure Conserved (l : Ledger K R) : Prop where
  apart : ∀ k k' v v' r, l.has k v → l.has k' v' → l.root k = some r → l.root k' = some r → k = k'
  value : ∀ k v r, l.has k v → l.root k = some r → v + l.sold r = l.total r
  owed : ∀ r v, l.owed = some (r, v) →
    v + l.sold r = l.total r ∧ ∀ k w, l.has k w → l.root k ≠ some r
  bounded : ∀ r, l.sold r ≤ l.total r

/-- Items of one offer are the same one, also if there is a new item for an offer that had none. -/
lemma Conserved.apart_of_atMost {l l' : Ledger K R} (h : Conserved l) {k : K} {v : ℕ} {r : R}
    (hhas : AtMost l l' k v) (hroot : Keeps l l') (hself : l'.root k = some r)
    (hnew : ∀ i w, l.has i w → l.root i ≠ some r) :
    ∀ i j w w' q, l'.has i w → l'.has j w' → l'.root i = some q → l'.root j = some q → i = j := by
  -- an old item does not go back to the offer of the new one
  have old : ∀ i w q, l.has i w → l'.root i = some q → l.root i = some q ∧ q ≠ r := by
    intro i w q hi hq
    have hq' : l.root i = some q := (hroot i w hi).symm.trans hq
    refine ⟨hq', ?_⟩
    rintro rfl
    exact hnew i w hi hq'
  intro i j w w' q hi hj hqi hqj
  rcases hhas i w hi with hi | ⟨rfl, _⟩ <;> rcases hhas j w' hj with hj | ⟨rfl, _⟩
  · exact h.apart i j w w' q hi hj (old i w q hi hqi).1 (old j w' q hj hqj).1
  · rw [hself] at hqj
    exact absurd (Option.some.inj hqj).symm (old i w q hi hqi).2
  · rw [hself] at hqi
    exact absurd (Option.some.inj hqi).symm (old j w' q hj hqj).2
  · rfl

variable [DecidableEq R]

/-- **Every step conserves.** -/
theorem Step.conserved {l l' : Ledger K R} (hs : Step l l') (h : Conserved l) : Conserved l' := by
  cases hs with
  | keep hhas hroot htotal hsold howed =>
      have old : ∀ {k v r}, l'.has k v → l'.root k = some r → l.has k v ∧ l.root k = some r :=
        fun hk hr => ⟨hhas _ _ hk, (hroot _ _ (hhas _ _ hk)).symm.trans hr⟩
      refine ⟨?_, ?_, ?_, ?_⟩
      · intro k k' v v' r hk hk' hr hr'
        obtain ⟨hk, hr⟩ := old hk hr
        obtain ⟨hk', hr'⟩ := old hk' hr'
        exact h.apart k k' v v' r hk hk' hr hr'
      · intro k v r hk hr
        obtain ⟨hk, hr⟩ := old hk hr
        rw [htotal, hsold]
        exact h.value k v r hk hr
      · intro r v ho
        rcases howed with howed | howed
        · rw [howed] at ho
          obtain ⟨hv, hnone⟩ := h.owed r v ho
          rw [htotal, hsold]
          refine ⟨hv, fun k w hk hr => ?_⟩
          obtain ⟨hk, hr⟩ := old hk hr
          exact hnone k w hk hr
        · rw [howed] at ho
          simp at ho
      · rw [htotal, hsold]
        exact h.bounded
  | offer k v r hnew hunsold hhas hroot hself htotal hsold howed =>
      refine ⟨h.apart_of_atMost hhas hroot hself hnew, ?_, by simp [howed], ?_⟩
      · intro i w q hi hq
        rw [htotal, hsold]
        rcases hhas i w hi with hi | ⟨rfl, rfl⟩
        · rw [hroot i w hi] at hq
          have hne : q ≠ r := by
            rintro rfl
            exact hnew i w hi hq
          rw [Function.update_of_ne hne]
          exact h.value i w q hi hq
        · obtain rfl : r = q := Option.some.inj (hself.symm.trans hq)
          rw [Function.update_self, hunsold, Nat.add_zero]
      · intro q
        rw [htotal, hsold]
        by_cases hq : q = r
        · rw [hq, hunsold]
          exact Nat.zero_le _
        · rw [Function.update_of_ne hq]
          exact h.bounded q
  | sell k v r u hk hr hu hhas hroot htotal hsold howed =>
      have hvalue := h.value k v r hk hr
      -- no item of this offer is left
      have hgone : ∀ i w, l'.has i w → l'.root i ≠ some r := by
        intro i w hi hq
        obtain ⟨hi, hne⟩ := hhas i w hi
        rw [hroot i w hi] at hq
        exact hne (h.apart i k w v r hi hk hq hr)
      refine ⟨?_, ?_, ?_, ?_⟩
      · intro i j w w' q hi hj hqi hqj
        obtain ⟨hi, _⟩ := hhas i w hi
        obtain ⟨hj, _⟩ := hhas j w' hj
        rw [hroot i w hi] at hqi
        rw [hroot j w' hj] at hqj
        exact h.apart i j w w' q hi hj hqi hqj
      · intro i w q hi hq
        have hne : q ≠ r := by
          rintro rfl
          exact hgone i w hi hq
        rw [htotal, hsold, Function.update_of_ne hne]
        obtain ⟨hi, _⟩ := hhas i w hi
        rw [hroot i w hi] at hq
        exact h.value i w q hi hq
      · intro q w ho
        rcases howed with howed | howed
        · rw [howed] at ho
          simp at ho
        · rw [howed] at ho
          simp only [Option.some.injEq, Prod.mk.injEq] at ho
          obtain ⟨rfl, rfl⟩ := ho
          refine ⟨?_, hgone⟩
          rw [htotal, hsold, Function.update_self]
          omega
      · intro q
        rw [htotal, hsold]
        by_cases hq : q = r
        · rw [hq, Function.update_self]
          omega
        · rw [Function.update_of_ne hq]
          exact h.bounded q
  | putBack k v r hdebt hhas hroot hself htotal hsold howed =>
      obtain ⟨hvalue, hnew⟩ := h.owed r v hdebt
      refine ⟨h.apart_of_atMost hhas hroot hself hnew, ?_, by simp [howed], ?_⟩
      · intro i w q hi hq
        rw [htotal, hsold]
        rcases hhas i w hi with hi | ⟨rfl, rfl⟩
        · rw [hroot i w hi] at hq
          exact h.value i w q hi hq
        · obtain rfl : r = q := Option.some.inj (hself.symm.trans hq)
          exact hvalue
      · rw [htotal, hsold]
        exact h.bounded

end Conservation
