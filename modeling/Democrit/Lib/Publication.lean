import Mathlib.Data.Multiset.Basic
import Mathlib.Data.Multiset.ZeroCons

/-!
# Publication

A value that changes, and an audience that is told about it.  Whoever changes the value reads it
again afterwards, and publishes what was read.  Reading and publishing are steps of their own, so
what is published may have been overtaken.

The audience is up to date in the end if **nobody reads the value while something outdated still
waits to be published** (`Step.read`): then an outdated publication is never the last one, because
the change that outdated it has its own reading still to come.  Nothing here names the program
verified with it.
-/

namespace Publication

variable {V : Type*}

/-- A feed: the value, what was published last, what was read and waits to be published, and how
many readings are still due. -/
structure Feed (V : Type*) where
  now : V
  last : V
  waiting : Multiset V
  due : ℕ

/-- The steps of a feed. -/
inductive Step : Feed V → Feed V → Prop
  /-- At most, a reading becomes due. -/
  | idle {f : Feed V} (due : ℕ) (h : f.due ≤ due) : Step f { f with due := due }
  /-- The value changes, and whoever changed it is due to read it. -/
  | edit {f : Feed V} (v : V) (due : ℕ) (h : 0 < due) : Step f { f with now := v, due := due }
  /-- The value is read, while nothing outdated is waiting. -/
  | read {f : Feed V} (due : ℕ) (h : f.due = due + 1) (timely : ∀ v ∈ f.waiting, v = f.now) :
      Step f { f with waiting := f.now ::ₘ f.waiting, due := due }
  | publish {f : Feed V} (v : V) (rest : Multiset V) (h : f.waiting = v ::ₘ rest) :
      Step f { f with last := v, waiting := rest }

/-- The invariant: a reading is due, or all that waits is up to date and so is what was, or is going
to be, published last. -/
def Settled (f : Feed V) : Prop :=
  0 < f.due ∨ (∀ v ∈ f.waiting, v = f.now) ∧ (f.last = f.now ∨ f.waiting ≠ 0)

lemma Step.settled {f f' : Feed V} (hs : Step f f') (h : Settled f) : Settled f' := by
  cases hs with
  | idle due hle =>
      rcases h with h | h
      · exact Or.inl (Nat.lt_of_lt_of_le h hle)
      · exact Or.inr h
  | edit v due hdue => exact Or.inl hdue
  | read due _ timely =>
      refine Or.inr ⟨fun v hv => ?_, Or.inr (Multiset.cons_ne_zero)⟩
      rcases Multiset.mem_cons.mp hv with rfl | hv
      · rfl
      · exact timely v hv
  | publish v rest hw =>
      rcases h with h | ⟨hall, _⟩
      · exact Or.inl h
      · rw [hw] at hall
        exact Or.inr ⟨fun u hu => hall u (Multiset.mem_cons_of_mem hu),
          Or.inl (hall v (Multiset.mem_cons_self v rest))⟩

/-- When nothing is due and nothing waits, the audience is up to date. -/
lemma Settled.current {f : Feed V} (h : Settled f) (hdue : f.due = 0) (hw : f.waiting = 0) :
    f.last = f.now := by
  rcases h with h | ⟨_, h | h⟩
  · omega
  · exact h
  · exact absurd hw h

end Publication
