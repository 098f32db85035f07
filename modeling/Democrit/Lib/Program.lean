import Mathlib.Data.List.Basic
import Mathlib.Tactic.Common

/-!
# Programs that question their environment

A program that talks to servers it does not control is modelled as a tree: it either returns, or
asks one question and continues from whatever the answer is.  `Prog C R α` is that tree, for
questions `C` and answers `R c`.  Nothing here names the program verified with it.

* `Prog.Exec p tr a` — `p` can return `a` after the exchange `tr` of questions and answers.  No
  answer is excluded: what an environment promises is said about traces, not built into programs.
* `Prog.All p Q` — every exchange ends in `Q`.  It is computed by recursion on the program, so
  it is what proofs unfold; `Prog.all_iff` says that it is exactly a statement about `Exec`.
* `Act ε σ α` — a program with a mutable object `σ` and failures `ε`.  A failure **keeps the
  changes made before it**, as an exception thrown half way through a method does.
* `Act.wp` — `Prog.All` for these, with one lemma for each construction.
-/

namespace Interaction

/-- A program: return a value, or ask `c` and continue from the answer. -/
inductive Prog (C : Type) (R : C → Type) (α : Type) : Type where
  | pure (a : α)
  | call (c : C) (k : R c → Prog C R α)

/-- One question together with its answer. -/
abbrev Event (C : Type) (R : C → Type) : Type := (c : C) × R c

namespace Prog

variable {C : Type} {R : C → Type} {α β γ : Type}

/-- Sequencing: continue with `f` from whatever the first program returns. -/
def bind : Prog C R α → (α → Prog C R β) → Prog C R β
  | .pure a, f => f a
  | .call c k, f => .call c fun r => (k r).bind f

/-- `p.Exec tr a`: the exchange `tr` leads `p` to return `a`. -/
def Exec : Prog C R α → List (Event C R) → α → Prop
  | .pure a, tr, b => tr = [] ∧ b = a
  | .call c k, tr, b => ∃ r tr', tr = ⟨c, r⟩ :: tr' ∧ (k r).Exec tr' b

/-- `p.All Q`: every exchange of `p` ends in `Q`. -/
def All : Prog C R α → (List (Event C R) → α → Prop) → Prop
  | .pure a, Q => Q [] a
  | .call c k, Q => ∀ r, (k r).All fun tr a => Q (⟨c, r⟩ :: tr) a

/-- **`All` is about `Exec`**: the recursive reading and the relational one say the same. -/
theorem all_iff (p : Prog C R α) :
    ∀ Q : List (Event C R) → α → Prop, p.All Q ↔ ∀ tr a, p.Exec tr a → Q tr a := by
  induction p with
  | pure a =>
      intro Q
      constructor
      · rintro h tr b ⟨rfl, rfl⟩
        exact h
      · intro h
        exact h [] a ⟨rfl, rfl⟩
  | call c k ih =>
      intro Q
      constructor
      · rintro h tr b ⟨r, tr', rfl, hx⟩
        exact (ih r _).mp (h r) tr' b hx
      · intro h r
        exact (ih r _).mpr fun tr a hx => h _ a ⟨r, tr, rfl, hx⟩

theorem all_mono {p : Prog C R α} {Q Q' : List (Event C R) → α → Prop}
    (hQ : ∀ tr a, Q tr a → Q' tr a) (h : p.All Q) : p.All Q' :=
  (all_iff p Q').mpr fun tr a hx => hQ tr a ((all_iff p Q).mp h tr a hx)

@[simp] lemma all_pure (a : α) (Q : List (Event C R) → α → Prop) :
    (Prog.pure a : Prog C R α).All Q ↔ Q [] a := Iff.rfl

/-- Sequencing concatenates the two exchanges. -/
lemma all_bind (p : Prog C R α) (f : α → Prog C R β) :
    ∀ Q : List (Event C R) → β → Prop,
      (p.bind f).All Q ↔ p.All fun tr a => (f a).All fun tr' b => Q (tr ++ tr') b := by
  induction p with
  | pure a => intro Q; exact Iff.rfl
  | call c k ih =>
      intro Q
      simp only [bind, All]
      exact forall_congr' fun r => ih r _

/-- A conversation determines how far a program gets with it, and what it returns. -/
lemma exec_unique {p : Prog C R α} :
    ∀ {tr₁ tr₂ l₁ l₂ : List (Event C R)} {a b : α}, p.Exec tr₁ a → p.Exec tr₂ b →
      tr₁ ++ l₁ = tr₂ ++ l₂ → tr₁ = tr₂ ∧ a = b ∧ l₁ = l₂ := by
  induction p with
  | pure x =>
      rintro tr₁ tr₂ l₁ l₂ a b ⟨rfl, rfl⟩ ⟨rfl, rfl⟩ heq
      exact ⟨rfl, rfl, heq⟩
  | call c k ih =>
      rintro tr₁ tr₂ l₁ l₂ a b ⟨r₁, tr₁', rfl, h₁⟩ ⟨r₂, tr₂', rfl, h₂⟩ heq
      obtain ⟨hev, hrest⟩ := List.cons.inj heq
      obtain rfl : r₁ = r₂ := eq_of_heq (Sigma.mk.inj hev).2
      obtain ⟨rfl, rfl, rfl⟩ := ih r₁ h₁ h₂ hrest
      exact ⟨rfl, rfl, rfl⟩

end Prog

/-! ## Environments

An environment has a world of its own and says which answers it gives in which world.  Its relation
may move the world in any other way too, so other actors need no separate treatment. -/

/-- `E w ev w'`: in world `w` the exchange `ev` may happen, and leaves `w'`. -/
abbrev Env (C : Type) (R : C → Type) (W : Type) : Type := W → Event C R → W → Prop

namespace Env

variable {C : Type} {R : C → Type} {W : Type}

/-- The world's way along a whole exchange. -/
def Path (E : Env C R W) : W → List (Event C R) → W → Prop
  | w, [], w' => w' = w
  | w, ev :: tr, w' => ∃ w₁, E w ev w₁ ∧ E.Path w₁ tr w'

variable {E : Env C R W}

@[simp] lemma path_nil {w w' : W} : E.Path w [] w' ↔ w' = w := Iff.rfl

@[simp] lemma path_cons {w w' : W} {ev : Event C R} {tr : List (Event C R)} :
    E.Path w (ev :: tr) w' ↔ ∃ w₁, E w ev w₁ ∧ E.Path w₁ tr w' := Iff.rfl

lemma path_append {tr₁ tr₂ : List (Event C R)} :
    ∀ {w w' : W}, E.Path w (tr₁ ++ tr₂) w' ↔ ∃ w₁, E.Path w tr₁ w₁ ∧ E.Path w₁ tr₂ w' := by
  induction tr₁ with
  | nil => intro w w'; simp
  | cons ev tr ih =>
      intro w w'
      simp only [List.cons_append, path_cons, ih]
      constructor
      · rintro ⟨w₁, he, w₂, h₁, h₂⟩
        exact ⟨w₂, ⟨w₁, he, h₁⟩, h₂⟩
      · rintro ⟨w₂, ⟨w₁, he, h₁⟩, h₂⟩
        exact ⟨w₁, he, w₂, h₁, h₂⟩

/-- A fact about single exchanges that does not depend on the world holds along a path. -/
lemma forall_of_path {P : Event C R → Prop} (h : ∀ w ev w', E w ev w' → P ev) :
    ∀ {tr : List (Event C R)} {w w' : W}, E.Path w tr w' → ∀ ev ∈ tr, P ev
  | [], _, _, _, _, hm => by simp at hm
  | _ :: _, w, _, ⟨w₁, he, hp⟩, ev, hm => by
      rcases List.mem_cons.mp hm with rfl | hm
      · exact h w _ w₁ he
      · exact forall_of_path h hp ev hm

/-- Every exchange along a path is one that the environment makes. -/
lemma event_of_path {tr : List (Event C R)} {w w' : W} (h : E.Path w tr w') {ev : Event C R}
    (hev : ev ∈ tr) : ∃ v v', E v ev v' :=
  forall_of_path (P := fun ev => ∃ v v', E v ev v') (fun v _ v' he => ⟨v, v', he⟩) h ev hev

/-- A relation between worlds that every exchange of a kind keeps is kept along a path of
exchanges of that kind. -/
lemma rel_of_path {P : Event C R → Prop} {T : W → W → Prop} (hrefl : ∀ w, T w w)
    (htrans : ∀ a b c, T a b → T b c → T a c) (h : ∀ w ev w', E w ev w' → P ev → T w w') :
    ∀ {tr : List (Event C R)} {w w' : W}, E.Path w tr w' → (∀ ev ∈ tr, P ev) → T w w'
  | [], w, _, hp, _ => by rw [path_nil] at hp; rw [hp]; exact hrefl w
  | ev :: _, w, w', ⟨w₁, he, hp⟩, hP => by
      have h₁ : T w w₁ := h w ev w₁ he (hP ev (by simp))
      have h₂ : T w₁ w' := rel_of_path hrefl htrans h hp fun e hm => hP e (by simp [hm])
      exact htrans w w₁ w' h₁ h₂

end Env

/-! ## Scripted environments

A function that answers every question makes a deterministic environment.  Programs can be run
against it, which gives concrete exchanges to evaluate. -/

section Scripted

variable {C : Type} {R : C → Type} {W α : Type}

/-- The environment that answers as `h` says. -/
def Env.ofScript (h : W → (c : C) → R c × W) : Env C R W := fun w ev w' =>
  h w ev.1 = (ev.2, w')

/-- Run a program against a script: the value, the exchange, and the world at the end. -/
def Prog.play (h : W → (c : C) → R c × W) : Prog C R α → W → α × List (Event C R) × W
  | .pure a, w => (a, [], w)
  | .call c k, w =>
      let out := (k (h w c).1).play h (h w c).2
      (out.1, ⟨c, (h w c).1⟩ :: out.2.1, out.2.2)

/-- What a scripted run does is one of the program's exchanges. -/
theorem Prog.exec_play (h : W → (c : C) → R c × W) (p : Prog C R α) :
    ∀ w, p.Exec (p.play h w).2.1 (p.play h w).1 := by
  induction p with
  | pure a => intro w; exact ⟨rfl, rfl⟩
  | call c k ih => intro w; exact ⟨(h w c).1, _, rfl, ih _ _⟩

/-- And the scripted environment goes along with it. -/
theorem Prog.path_play (h : W → (c : C) → R c × W) (p : Prog C R α) :
    ∀ w, (Env.ofScript h).Path w (p.play h w).2.1 (p.play h w).2.2 := by
  induction p with
  | pure a => intro w; rfl
  | call c k ih => intro w; exact ⟨(h w c).2, rfl, ih _ _⟩

end Scripted

/-! ## Programs with an object and failures -/

/-- A program on a mutable object `σ` that may fail with `ε`.  Unlike `Except` over a state, a
failure does not undo what was done to the object. -/
def Act (C : Type) (R : C → Type) (ε σ α : Type) : Type := σ → Prog C R (Except ε α × σ)

namespace Act

variable {C : Type} {R : C → Type} {ε σ τ α β : Type}

instance : Monad (Act C R ε σ) where
  pure a := fun s => .pure (.ok a, s)
  bind m f := fun s => (m s).bind fun x =>
    match x.1 with
    | .ok a => f a x.2
    | .error e => .pure (.error e, x.2)

/-- Read the object. -/
def read : Act C R ε σ σ := fun s => .pure (.ok s, s)

/-- Replace the object. -/
def write (s : σ) : Act C R ε σ Unit := fun _ => .pure (.ok (), s)

/-- Fail; the object stays as it is. -/
def fail (e : ε) : Act C R ε σ α := fun s => .pure (.error e, s)

/-- Ask one question. -/
def ask (c : C) : Act C R ε σ (R c) := fun s => .call c fun r => .pure (.ok r, s)

/-- A program that only asks questions, inside one that also has an object. -/
def lift (m : Act C R ε Unit α) : Act C R ε σ α := fun s =>
  (m ()).bind fun x => .pure (x.1, s)

/-- Run a program on another object, and hand over how it ended together with that object.  This
is how a `try` block around a method of a part of the state is written. -/
def on (m : Act C R ε τ α) (t : τ) : Act C R ε σ (Except ε α × τ) := fun s =>
  (m t).bind fun x => .pure (.ok x, s)

instance : MonadLift (Act C R ε Unit) (Act C R ε σ) where
  monadLift m := lift m

/-- `m.wp s Q`: run from `s`, every exchange ends in `Q`. -/
def wp (m : Act C R ε σ α) (s : σ) (Q : List (Event C R) → Except ε α → σ → Prop) : Prop :=
  (m s).All fun tr x => Q tr x.1 x.2

variable {s : σ} {Q Q' : List (Event C R) → Except ε α → σ → Prop}

lemma wp_iff {m : Act C R ε σ α} :
    m.wp s Q ↔ ∀ tr r s', (m s).Exec tr (r, s') → Q tr r s' := by
  rw [wp, Prog.all_iff]
  constructor
  · intro h tr r s' hx
    exact h tr (r, s') hx
  · intro h tr x hx
    exact h tr x.1 x.2 hx

/-- An exchange can be found by going through the program with an arbitrary postcondition. -/
lemma exec_iff {m : Act C R ε σ α} {tr : List (Event C R)} {r : Except ε α} {s' : σ} :
    (m s).Exec tr (r, s') ↔ ∀ Q, m.wp s Q → Q tr r s' := by
  constructor
  · intro hx Q hQ
    exact wp_iff.mp hQ tr r s' hx
  · intro h
    exact h (fun tr r s' => (m s).Exec tr (r, s')) (wp_iff.mpr fun _ _ _ hx => hx)

lemma wp_mono {m : Act C R ε σ α} (h : m.wp s Q) (hQ : ∀ tr r s', Q tr r s' → Q' tr r s') :
    m.wp s Q' :=
  Prog.all_mono (fun tr x => hQ tr x.1 x.2) h

lemma wp_congr {m : Act C R ε σ α} (hQ : ∀ tr r s', Q tr r s' ↔ Q' tr r s') :
    m.wp s Q ↔ m.wp s Q' :=
  ⟨fun h => wp_mono h fun tr r s' => (hQ tr r s').mp,
    fun h => wp_mono h fun tr r s' => (hQ tr r s').mpr⟩

/-- Two facts about every exchange hold together. -/
lemma wp_and {m : Act C R ε σ α} (h : m.wp s Q) (h' : m.wp s Q') :
    m.wp s fun tr r s' => Q tr r s' ∧ Q' tr r s' :=
  wp_iff.mpr fun tr r s' hx => ⟨wp_iff.mp h tr r s' hx, wp_iff.mp h' tr r s' hx⟩

@[simp] lemma wp_pure (a : α) : (pure a : Act C R ε σ α).wp s Q ↔ Q [] (.ok a) s := Iff.rfl

@[simp] lemma wp_fail (e : ε) : (fail e : Act C R ε σ α).wp s Q ↔ Q [] (.error e) s := Iff.rfl

@[simp] lemma wp_read {Q : List (Event C R) → Except ε σ → σ → Prop} :
    (read : Act C R ε σ σ).wp s Q ↔ Q [] (.ok s) s := Iff.rfl

@[simp] lemma wp_write (s' : σ) {Q : List (Event C R) → Except ε Unit → σ → Prop} :
    (write s' : Act C R ε σ Unit).wp s Q ↔ Q [] (.ok ()) s' := Iff.rfl

@[simp] lemma wp_ask (c : C) {Q : List (Event C R) → Except ε (R c) → σ → Prop} :
    (ask c : Act C R ε σ (R c)).wp s Q ↔ ∀ r, Q [⟨c, r⟩] (.ok r) s := Iff.rfl

/-- The postcondition that a first part has to reach when `f` comes after it. -/
def afterBind (f : α → Act C R ε σ β) (Q : List (Event C R) → Except ε β → σ → Prop) :
    List (Event C R) → Except ε α → σ → Prop
  | tr, .ok a, s => (f a).wp s fun tr' r s' => Q (tr ++ tr') r s'
  | tr, .error e, s => Q tr (.error e) s

@[simp] lemma afterBind_ok (f : α → Act C R ε σ β)
    (Q : List (Event C R) → Except ε β → σ → Prop) (tr : List (Event C R)) (a : α) :
    afterBind f Q tr (.ok a) s ↔ (f a).wp s fun tr' r s' => Q (tr ++ tr') r s' := Iff.rfl

@[simp] lemma afterBind_error (f : α → Act C R ε σ β)
    (Q : List (Event C R) → Except ε β → σ → Prop) (tr : List (Event C R)) (e : ε) :
    afterBind f Q tr (.error e) s ↔ Q tr (.error e) s := Iff.rfl

/-- **Sequencing**: the second part runs on the object the first one left, unless that failed. -/
@[simp] lemma wp_bind (m : Act C R ε σ α) (f : α → Act C R ε σ β)
    {Q : List (Event C R) → Except ε β → σ → Prop} :
    (m >>= f).wp s Q ↔ m.wp s (afterBind f Q) := by
  show ((m s).bind _).All _ ↔ (m s).All _
  rw [Prog.all_bind]
  have key : ∀ tr (x : Except ε α × σ),
      (Prog.All (match x.1 with
          | .ok a => f a x.2
          | .error e => Prog.pure (.error e, x.2))
        fun tr' (y : Except ε β × σ) => Q (tr ++ tr') y.1 y.2) ↔ afterBind f Q tr x.1 x.2 := by
    rintro tr ⟨r, s'⟩
    cases r with
    | ok a => exact Iff.rfl
    | error e => simp [afterBind]
  constructor
  · exact Prog.all_mono fun tr x => (key tr x).mp
  · exact Prog.all_mono fun tr x => (key tr x).mpr

@[simp] lemma wp_lift (m : Act C R ε Unit α) :
    (lift m : Act C R ε σ α).wp s Q ↔ m.wp () fun tr r _ => Q tr r s := by
  show ((m ()).bind _).All _ ↔ _
  rw [Prog.all_bind]
  simp only [Prog.all_pure, List.append_nil]
  exact Iff.rfl

@[simp] lemma wp_monadLift (m : Act C R ε Unit α) :
    (monadLift m : Act C R ε σ α).wp s Q ↔ m.wp () fun tr r _ => Q tr r s := wp_lift m

@[simp] lemma wp_on (m : Act C R ε τ α) (t : τ)
    {Q : List (Event C R) → Except ε (Except ε α × τ) → σ → Prop} :
    (m.on t : Act C R ε σ _).wp s Q ↔ m.wp t fun tr r t' => Q tr (.ok (r, t')) s := by
  show ((m t).bind _).All _ ↔ _
  rw [Prog.all_bind]
  simp only [Prog.all_pure, List.append_nil]
  exact Iff.rfl

/-- A branch is taken as the condition says. -/
lemma wp_ite {c : Prop} [Decidable c] {m₁ m₂ : Act C R ε σ α} :
    (if c then m₁ else m₂).wp s Q ↔ (c → m₁.wp s Q) ∧ (¬ c → m₂.wp s Q) := by
  by_cases h : c <;> simp [h]

end Act

end Interaction
