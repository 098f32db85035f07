import Mathlib.Logic.Relation

/-!
# Labelled transition systems

States, steps with a label that records what happened, and the rule every statement about whole
runs goes through: an invariant of the steps holds in every reachable state
(`Reachable.invariant`).  Nothing here names the program verified with it.

`restrict` keeps only some of the steps.  It is how a condition on a run is stated: "in every run
whose steps all meet the condition" is reachability in the restricted system.  `product` puts several
systems side by side, and restricting that is how they communicate.  `Reachable.image` is the rule for
a system that refines another one.
-/

namespace Transition

/-- A labelled transition system. -/
structure System (S L : Type*) where
  init : S → Prop
  step : S → L → S → Prop

namespace System

variable {S L : Type*} {T : System S L}

/-- The states that some run leads to. -/
inductive Reachable (T : System S L) : S → Prop
  | init {s : S} (h : T.init s) : Reachable T s
  | step {s s' : S} {l : L} (h : Reachable T s) (hs : T.step s l s') : Reachable T s'

/-- `T.Later s s'`: some run leads from `s` to `s'`. -/
def Later (T : System S L) : S → S → Prop := Relation.ReflTransGen fun s s' => ∃ l, T.step s l s'

/-- The same system with only the steps that `P` allows. -/
def restrict (T : System S L) (P : S → L → Prop) : System S L where
  init := T.init
  step s l s' := T.step s l s' ∧ P s l

/-- Several systems side by side.  They take their steps one at a time, in any order. -/
def product {ι : Type*} (T : ι → System S L) : System (ι → S) (ι × L) where
  init s := ∀ i, (T i).init (s i)
  step s l s' := (T l.1).step (s l.1) l.2 (s' l.1) ∧ ∀ j ≠ l.1, s' j = s j

/-- **The invariant rule.**  The step may use that the state before it is reachable, so that one
invariant can be proved on top of others. -/
theorem Reachable.invariant (inv : S → Prop) (h₀ : ∀ s, T.init s → inv s)
    (hs : ∀ s l s', T.Reachable s → inv s → T.step s l s' → inv s') {s : S}
    (h : T.Reachable s) : inv s := by
  induction h with
  | init h => exact h₀ _ h
  | step h hst ih => exact hs _ _ _ h ih hst

/-- What comes after a reachable state is reachable. -/
lemma Reachable.later {s s' : S} (hr : T.Reachable s) (h : T.Later s s') : T.Reachable s' := by
  induction h with
  | refl => exact hr
  | tail _ hst ih =>
      obtain ⟨l, hst⟩ := hst
      exact ih.step hst

/-- A run of the restricted system is a run. -/
lemma Reachable.of_restrict {P : S → L → Prop} {s : S} (h : (T.restrict P).Reachable s) :
    T.Reachable s := by
  induction h with
  | init h => exact .init h
  | step _ hst ih => exact ih.step hst.1

/-- What happens to one of the systems side by side is a run of it. -/
lemma Reachable.component {ι : Type*} {T : ι → System S L} {s : ι → S}
    (h : (product T).Reachable s) (i : ι) : (T i).Reachable (s i) := by
  induction h with
  | init h => exact .init (h i)
  | @step s s' l _ hst ih =>
      obtain ⟨hst, hrest⟩ := hst
      by_cases hi : i = l.1
      · subst hi
        exact ih.step hst
      · rw [hrest i hi]
        exact ih

/-- **The refinement rule.**  If the image of a step is a step, or nothing happens to the image, then
the image of a run is a run. -/
theorem Reachable.image {S' L' : Type*} {T' : System S' L'} (f : S → S')
    (h₀ : ∀ s, T.init s → T'.init (f s))
    (hs : ∀ s l s', T.Reachable s → T.step s l s' → f s' = f s ∨ ∃ l', T'.step (f s) l' (f s'))
    {s : S} (h : T.Reachable s) : T'.Reachable (f s) := by
  induction h with
  | init h => exact .init (h₀ _ h)
  | step h hst ih =>
      rcases hs _ _ _ h hst with heq | ⟨l', hst'⟩
      · rw [heq]
        exact ih
      · exact ih.step hst'

end System

end Transition
