import Democrit.Checker
import Democrit.Lib.Environment

/-!
# Asking a given outside

`Act.wpIn` for the operations that everything else is made of: calls of methods, the clock, and
assertions.  A call can come back with what the outside answers to it in that world, or fail if the
outside lets it.
-/

namespace Democrit

open Interaction

variable {W : Type} {E : Env Call Answer W} {w : W} {u : Unit}

/-- A call, whatever comes back. -/
lemma wpIn_rpc (m : Method) {Q : W → Conversation → Except Fail m.Reply → Unit → Prop} :
    (rpc m).wpIn E w u Q ↔ (∀ r w', E w (Ev.returned m r) w' → Q w' [Ev.returned m r] (.ok r) u) ∧
      (∀ w', E w (Ev.failed m .exception) w' →
        Q w' [Ev.failed m .exception] (.error .exception) u) ∧
      ∀ w', E w (Ev.failed m .malformed) w' →
        Q w' [Ev.failed m .malformed] (.error (.check .replyShape)) u := by
  simp only [Act.wpIn, wp_rpc, Env.path_cons, Env.path_nil]
  constructor
  · rintro ⟨hr, he, hm⟩
    exact ⟨fun r w' h => hr r w' ⟨w', h, rfl⟩, fun w' h => he w' ⟨w', h, rfl⟩,
      fun w' h => hm w' ⟨w', h, rfl⟩⟩
  · rintro ⟨hr, he, hm⟩
    refine ⟨?_, ?_, ?_⟩
    · rintro r w' ⟨w₁, h, rfl⟩
      exact hr r w' h
    · rintro w' ⟨w₁, h, rfl⟩
      exact he w' h
    · rintro w' ⟨w₁, h, rfl⟩
      exact hm w' h

@[simp] lemma wpIn_getCurrentTime {σ : Type} {s : σ}
    {Q : W → Conversation → Except Fail Int64 → σ → Prop} :
    (getCurrentTime : M σ Int64).wpIn E w s Q ↔
      ∀ (now : Int64) w', E w ⟨.clock, now⟩ w' → Q w' [⟨.clock, now⟩] (.ok now) s :=
  Act.wpIn_ask Call.clock

@[simp] lemma wpIn_judge {α : Type} (x : Except Check α)
    {Q : W → Conversation → Except Fail α → Unit → Prop} :
    (judge x).wpIn E w u Q ↔ (∀ a, x = .ok a → Q w [] (.ok a) u)
      ∧ ∀ c, x = .error c → Q w [] (.error (.check c)) u := by
  cases x <;> simp [judge]

@[simp] lemma wpIn_check {σ : Type} {s : σ} (c : Check) (b : Bool)
    {Q : W → Conversation → Except Fail Unit → σ → Prop} :
    (check c b).wpIn E w s Q ↔
      (b = true → Q w [] (.ok ()) s) ∧ (b = false → Q w [] (.error (.check c)) s) := by
  simp [Act.wpIn]

end Democrit
