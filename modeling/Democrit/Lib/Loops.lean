import Mathlib.Data.List.Induction

/-!
# Loops that may fail

A loop whose body may fail an assertion is a `List.foldlM` in `Except`.  `foldlM_keeps` is its
invariant rule: if the body, started in the invariant, never fails and keeps it, then neither does
the loop.  In `foldlM_visits` the invariant may also speak of the elements visited so far.  Nothing
here names the program verified with it.
-/

namespace Loops

variable {ε α β : Type*}

/-- **The invariant rule for loops.**  The body may use which elements it is run on. -/
theorem foldlM_keeps {f : β → α → Except ε β} (inv : β → Prop) {l : List α}
    (hf : ∀ a ∈ l, ∀ b, inv b → ∃ b', f b a = .ok b' ∧ inv b') {b : β} (hb : inv b) :
    ∃ b', l.foldlM f b = .ok b' ∧ inv b' := by
  induction l generalizing b with
  | nil => exact ⟨b, rfl, hb⟩
  | cons a l ih =>
      obtain ⟨b₁, hb₁, hinv⟩ := hf a (by simp) b hb
      obtain ⟨b', hb', hinv'⟩ := ih (fun x hx => hf x (by simp [hx])) hinv
      refine ⟨b', ?_, hinv'⟩
      rw [List.foldlM_cons, hb₁]
      exact hb'

/-- **The same with an invariant of what was visited.**  The body is run on an element after those
before it. -/
theorem foldlM_visits {f : β → α → Except ε β} (inv : List α → β → Prop) {l : List α}
    (hf : ∀ seen a, seen ++ [a] <+: l → ∀ b, inv seen b →
      ∃ b', f b a = .ok b' ∧ inv (seen ++ [a]) b')
    {b : β} (hb : inv [] b) : ∃ b', l.foldlM f b = .ok b' ∧ inv l b' := by
  induction l using List.reverseRecOn with
  | nil => exact ⟨b, rfl, hb⟩
  | append_singleton l a ih =>
      obtain ⟨b₁, hb₁, hinv⟩ := ih fun seen x hx =>
        hf seen x (hx.trans (List.prefix_append l [a]))
      obtain ⟨b', hb', hinv'⟩ := hf l a (List.prefix_refl _) b₁ hinv
      refine ⟨b', ?_, hinv'⟩
      rw [List.foldlM_append, hb₁]
      show (f b₁ a >>= pure) = .ok b'
      rw [hb', bind_pure]

/-- What the body keeps whenever it does not fail, a loop that did not fail kept. -/
theorem keeps_of_foldlM {f : β → α → Except ε β} (inv : β → Prop) {l : List α}
    (hf : ∀ a ∈ l, ∀ b b', f b a = .ok b' → inv b → inv b') {b b' : β}
    (h : l.foldlM f b = .ok b') (hb : inv b) : inv b' := by
  induction l generalizing b with
  | nil =>
      obtain rfl := Except.ok.inj h
      exact hb
  | cons a l ih =>
      rw [List.foldlM_cons] at h
      cases ha : f b a with
      | error e =>
          rw [ha] at h
          cases h
      | ok b₁ =>
          rw [ha] at h
          exact ih (fun x hx => hf x (by simp [hx])) h (hf a (by simp) b b₁ ha hb)

/-- In a loop that did not fail, no run of the body failed. -/
theorem returns_of_foldlM {f : β → α → Except ε β} {l : List α} {b b' : β}
    (h : l.foldlM f b = .ok b') : ∀ a ∈ l, ∃ b₁ b₂, f b₁ a = .ok b₂ := by
  induction l generalizing b with
  | nil => simp
  | cons x l ih =>
      rw [List.foldlM_cons] at h
      cases hx : f b x with
      | error e =>
          rw [hx] at h
          simp [bind, Except.bind] at h
      | ok b₁ =>
          rw [hx] at h
          intro a ha
          rcases List.mem_cons.mp ha with rfl | ha
          · exact ⟨b, b₁, hx⟩
          · exact ih h a ha

/-- A map fails only if it does on an element. -/
theorem mapM_returns {f : α → Except ε β} {l : List α} (hf : ∀ a ∈ l, ∃ b, f a = .ok b) :
    ∃ l', l.mapM f = .ok l' := by
  induction l with
  | nil => exact ⟨[], rfl⟩
  | cons a l ih =>
      obtain ⟨b, hb⟩ := hf a (by simp)
      obtain ⟨l', hl'⟩ := ih fun x hx => hf x (by simp [hx])
      refine ⟨b :: l', ?_⟩
      rw [List.mapM_cons, hb, hl']
      rfl

/-- If there is only one error, a map fails with it exactly if it does on an element. -/
theorem mapM_fails_iff {f : α → Except ε β} {l : List α} {e : ε}
    (hf : ∀ a ∈ l, ∀ e', f a = .error e' → e' = e) :
    l.mapM f = .error e ↔ ∃ a ∈ l, f a = .error e := by
  induction l with
  | nil => simp [pure, Except.pure]
  | cons a l ih =>
      have ih := ih fun x hx => hf x (by simp [hx])
      rw [List.mapM_cons]
      cases ha : f a with
      | error e' =>
          obtain rfl := hf a (by simp) e' ha
          exact ⟨fun _ => ⟨a, by simp, ha⟩, fun _ => rfl⟩
      | ok b =>
          have hcons : (do let b ← Except.ok b; let l' ← l.mapM f; pure (b :: l')) = .error e ↔
              l.mapM f = .error e := by
            cases l.mapM f with
            | error e' => exact Iff.rfl
            | ok l' => exact iff_of_false (by rintro ⟨⟩) (by rintro ⟨⟩)
          rw [hcons, ih]
          simp [ha]

/-- What a map has collected that fails on no element. -/
theorem mapM_collects {f : α → Except ε β} (R : α → β → Prop) {l : List α}
    (hf : ∀ a ∈ l, ∃ b, f a = .ok b ∧ R a b) : ∃ l', l.mapM f = .ok l' ∧ List.Forall₂ R l l' := by
  induction l with
  | nil => exact ⟨[], rfl, .nil⟩
  | cons a l ih =>
      obtain ⟨b, hb, hR⟩ := hf a (by simp)
      obtain ⟨l', hl', hall⟩ := ih fun x hx => hf x (by simp [hx])
      refine ⟨b :: l', ?_, .cons hR hall⟩
      rw [List.mapM_cons, hb, hl']
      rfl

/-- What an element is mapped to. -/
theorem exists_of_forall₂ {R : α → β → Prop} {l : List α} {l' : List β}
    (h : List.Forall₂ R l l') {a : α} (ha : a ∈ l) : ∃ b ∈ l', R a b := by
  induction h with
  | nil => cases ha
  | @cons a' b _ _ hR _ ih =>
      rcases List.mem_cons.mp ha with rfl | ha
      · exact ⟨b, by simp, hR⟩
      · obtain ⟨b', hb', hR'⟩ := ih ha
        exact ⟨b', by simp [hb'], hR'⟩

end Loops
