import Democrit.Lib.Program

/-!
# Programs in an environment

`Act.wp` says what a program does whatever it is answered.  What it does when the environment keeps
its promises is said by `Act.wpIn`: the postcondition has to be reached by those exchanges only that
the environment goes along with, and it can speak about the world at the end.  Nothing here names
the program verified with it.

There is one lemma for each construction, as for `Act.wp`.  `wpIn_bind` hands the world that the
first part leaves over to the second one, so that a promise about single questions can be used at
the question it is about.

Programs are finite trees, so in an environment that has an answer for every question they come to
an end (`Act.wpIn_exists`): what is shown of every exchange is not shown of none.

`Act.Asks` is about what is asked on the way, in whatever state and world a program starts: its
rules go through the same constructions, and `asks_bind_of` lets the second part rely on what the
first one returned.
-/

namespace Interaction

section Answers

variable {C : Type} {R : C → Type} {α W : Type}

/-- Every question gets an answer, whatever the world is like. -/
def Env.Answers (E : Env C R W) : Prop := ∀ w c, ∃ r w', E w ⟨c, r⟩ w'

/-- Then every program comes to an end. -/
lemma Prog.exists_exec {E : Env C R W} (h : E.Answers) (p : Prog C R α) :
    ∀ w, ∃ tr a w', p.Exec tr a ∧ E.Path w tr w' := by
  induction p with
  | pure a => exact fun w => ⟨[], a, w, ⟨rfl, rfl⟩, rfl⟩
  | call c k ih =>
      intro w
      obtain ⟨r, w₁, he⟩ := h w c
      obtain ⟨tr, a, w', hx, hp⟩ := ih r w₁
      exact ⟨⟨c, r⟩ :: tr, a, w', ⟨r, tr, rfl, hx⟩, w₁, he, hp⟩

/-- A script has an answer for everything. -/
lemma Env.answers_ofScript (h : W → (c : C) → R c × W) : (Env.ofScript h).Answers :=
  fun w c => ⟨(h w c).1, (h w c).2, rfl⟩

end Answers

namespace Act

variable {C : Type} {R : C → Type} {ε σ τ α β W : Type} {E : Env C R W}

/-- Run from `s` in the world `w`, every exchange that the environment goes along with ends in `Q`. -/
def wpIn (E : Env C R W) (m : Act C R ε σ α) (w : W) (s : σ)
    (Q : W → List (Event C R) → Except ε α → σ → Prop) : Prop :=
  m.wp s fun tr r s' => ∀ w', E.Path w tr w' → Q w' tr r s'

variable {w : W} {s : σ} {Q Q' : W → List (Event C R) → Except ε α → σ → Prop}

/-- It is about the exchanges of the program that are paths of the environment. -/
lemma wpIn_iff {m : Act C R ε σ α} :
    m.wpIn E w s Q ↔
      ∀ tr r s' w', (m s).Exec tr (r, s') → E.Path w tr w' → Q w' tr r s' := by
  rw [wpIn, wp_iff]
  constructor
  · exact fun h tr r s' w' hx => h tr r s' hx w'
  · exact fun h tr r s' hx w' => h tr r s' w' hx

lemma wpIn_mono {m : Act C R ε σ α} (h : m.wpIn E w s Q)
    (hQ : ∀ w' tr r s', Q w' tr r s' → Q' w' tr r s') : m.wpIn E w s Q' :=
  wp_mono h fun tr r s' hw w' hp => hQ w' tr r s' (hw w' hp)

@[simp] lemma wpIn_pure (a : α) :
    (pure a : Act C R ε σ α).wpIn E w s Q ↔ Q w [] (.ok a) s := by
  simp [wpIn]

@[simp] lemma wpIn_fail (e : ε) : (fail e : Act C R ε σ α).wpIn E w s Q ↔ Q w [] (.error e) s := by
  simp [wpIn]

@[simp] lemma wpIn_read {Q : W → List (Event C R) → Except ε σ → σ → Prop} :
    (read : Act C R ε σ σ).wpIn E w s Q ↔ Q w [] (.ok s) s := by
  simp [wpIn]

@[simp] lemma wpIn_write (s' : σ) {Q : W → List (Event C R) → Except ε Unit → σ → Prop} :
    (write s' : Act C R ε σ Unit).wpIn E w s Q ↔ Q w [] (.ok ()) s' := by
  simp [wpIn]

/-- A question: the answer is one that the environment gives in this world. -/
@[simp] lemma wpIn_ask (c : C) {Q : W → List (Event C R) → Except ε (R c) → σ → Prop} :
    (ask c : Act C R ε σ (R c)).wpIn E w s Q ↔
      ∀ r w', E w ⟨c, r⟩ w' → Q w' [⟨c, r⟩] (.ok r) s := by
  simp [wpIn]

/-- The postcondition that a first part has to reach when `f` comes after it. -/
def afterBindIn (E : Env C R W) (f : α → Act C R ε σ β)
    (Q : W → List (Event C R) → Except ε β → σ → Prop) :
    W → List (Event C R) → Except ε α → σ → Prop
  | w, tr, .ok a, s => (f a).wpIn E w s fun w' tr' r s' => Q w' (tr ++ tr') r s'
  | w, tr, .error e, s => Q w tr (.error e) s

@[simp] lemma afterBindIn_ok (f : α → Act C R ε σ β)
    (Q : W → List (Event C R) → Except ε β → σ → Prop) (tr : List (Event C R)) (a : α) :
    afterBindIn E f Q w tr (.ok a) s ↔
      (f a).wpIn E w s fun w' tr' r s' => Q w' (tr ++ tr') r s' := Iff.rfl

@[simp] lemma afterBindIn_error (f : α → Act C R ε σ β)
    (Q : W → List (Event C R) → Except ε β → σ → Prop) (tr : List (Event C R)) (e : ε) :
    afterBindIn E f Q w tr (.error e) s ↔ Q w tr (.error e) s := Iff.rfl

/-- **Sequencing**: the second part runs in the world the first one left. -/
@[simp] lemma wpIn_bind (m : Act C R ε σ α) (f : α → Act C R ε σ β)
    {Q : W → List (Event C R) → Except ε β → σ → Prop} :
    (m >>= f).wpIn E w s Q ↔ m.wpIn E w s (afterBindIn E f Q) := by
  rw [wpIn, wp_bind, wpIn]
  refine wp_congr fun tr r s' => ?_
  cases r with
  | error e => exact Iff.rfl
  | ok a =>
      simp only [afterBind_ok, afterBindIn_ok, wpIn, wp_iff, Env.path_append]
      constructor
      · exact fun h w₁ hp tr' r s' hx w' hp' => h tr' r s' hx w' ⟨w₁, hp, hp'⟩
      · rintro h tr' r s' hx w' ⟨w₁, hp, hp'⟩
        exact h w₁ hp tr' r s' hx w' hp'

@[simp] lemma wpIn_monadLift (m : Act C R ε Unit α) :
    (monadLift m : Act C R ε σ α).wpIn E w s Q ↔ m.wpIn E w () fun w' tr r _ => Q w' tr r s :=
  wp_monadLift m

@[simp] lemma wpIn_on (m : Act C R ε τ α) (t : τ)
    {Q : W → List (Event C R) → Except ε (Except ε α × τ) → σ → Prop} :
    (m.on t : Act C R ε σ _).wpIn E w s Q ↔
      m.wpIn E w t fun w' tr r t' => Q w' tr (.ok (r, t')) s :=
  wp_on m t

/-- What holds whatever is answered holds in every environment. -/
lemma wpIn_and_of_wp {m : Act C R ε σ α} {P : List (Event C R) → Except ε α → σ → Prop}
    (h : m.wpIn E w s Q) (h' : m.wp s P) :
    m.wpIn E w s fun w' tr r s' => Q w' tr r s' ∧ P tr r s' :=
  wp_mono (wp_and h h') fun _ _ _ hQP w' hp => ⟨hQP.1 w' hp, hQP.2⟩

/-- The exchange is a path of the environment. -/
lemma wpIn_path {m : Act C R ε σ α} (h : m.wpIn E w s Q) :
    m.wpIn E w s fun w' tr r s' => Q w' tr r s' ∧ E.Path w tr w' :=
  wp_mono h fun _ _ _ hQ w' hp => ⟨hQ w' hp, hp⟩

/-- One of the exchanges that end in the postcondition. -/
lemma wpIn_exists {m : Act C R ε σ α} (h : m.wpIn E w s Q) (hE : E.Answers) :
    ∃ tr r s' w', (m s).Exec tr (r, s') ∧ E.Path w tr w' ∧ Q w' tr r s' := by
  obtain ⟨tr, ⟨r, s'⟩, w', hx, hp⟩ := Prog.exists_exec hE (m s) w
  exact ⟨tr, r, s', w', hx, hp, wpIn_iff.mp h tr r s' w' hx hp⟩

/-! ### Exchanges of a kind -/

section Asks

variable {P : Event C R → Prop}

/-- Every exchange of `m` in the environment has the property. -/
def Asks (E : Env C R W) (P : Event C R → Prop) (m : Act C R ε σ α) : Prop :=
  ∀ w s, m.wpIn E w s fun _ tr _ _ => ∀ ev ∈ tr, P ev

lemma asks_pure (a : α) : Asks E P (pure a : Act C R ε σ α) := fun _ _ => by simp

lemma asks_fail (e : ε) : Asks E P (fail e : Act C R ε σ α) := fun _ _ => by simp

lemma asks_read : Asks E P (read : Act C R ε σ σ) := fun _ _ => by simp

lemma asks_write (s : σ) : Asks E P (write s : Act C R ε σ Unit) := fun _ _ => by simp

lemma asks_ask {c : C} (h : ∀ a, P ⟨c, a⟩) : Asks E P (ask c : Act C R ε σ (R c)) := by
  intro w s
  refine (wpIn_ask c).mpr fun a w' _ ev hev => ?_
  rw [List.mem_singleton.mp hev]
  exact h a

/-- What comes later may rely on what has come out before. -/
lemma asks_bind_of {Q : α → Prop} {m : Act C R ε σ α} {f : α → Act C R ε σ β} (hm : Asks E P m)
    (hQ : ∀ w s, m.wpIn E w s fun _ _ r _ => ∀ a, r = .ok a → Q a)
    (hf : ∀ a, Q a → Asks E P (f a)) : Asks E P (m >>= f) := by
  intro w s
  refine (wpIn_bind _ _).mpr (wpIn_iff.mpr fun tr r s' w' hx hpath => ?_)
  have htr := wpIn_iff.mp (hm w s) tr r s' w' hx hpath
  cases r with
  | error e => exact htr
  | ok a =>
      have ha : Q a := wpIn_iff.mp (hQ w s) tr _ s' w' hx hpath a rfl
      refine wpIn_mono (hf a ha w' s') fun _ tr' _ _ htr' ev hev => ?_
      rcases List.mem_append.mp hev with hev | hev
      · exact htr ev hev
      · exact htr' ev hev

lemma asks_bind {m : Act C R ε σ α} {f : α → Act C R ε σ β} (hm : Asks E P m)
    (hf : ∀ a, Asks E P (f a)) : Asks E P (m >>= f) :=
  asks_bind_of hm (fun _ _ => wpIn_iff.mpr fun _ _ _ _ _ _ _ _ => trivial) fun a _ => hf a

lemma asks_lift {m : Act C R ε Unit α} (hm : Asks E P m) :
    Asks E P (monadLift m : Act C R ε σ α) := by
  intro w s
  exact (wpIn_monadLift m).mpr (hm w ())

lemma asks_on {m : Act C R ε τ α} (t : τ) (hm : Asks E P m) :
    Asks E P (m.on t : Act C R ε σ _) := by
  intro w s
  exact (wpIn_on m t).mpr (hm w t)

end Asks

end Act

end Interaction
