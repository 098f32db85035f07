import Mathlib.Data.List.Basic

/-!
# State that follows a chain

A state that is computed block by block, from a chain whose last blocks may be taken back.  The
machine stores what the state was before each of its blocks, and goes back to that.  Nothing here names
the program verified with it.

**The history leaves no trace**: whatever was attached and detached, the state is the one that the
chain as it is now leads to when its blocks are run one after the other (`Follows.state`).  So a move
goes through if the chain does that it leads to (`Follows.move_returns`).
-/

namespace Undo

variable {σ β ε : Type*}

/-- The state, and what it was before each of the blocks of the chain, the last one first. -/
structure Machine (σ : Type*) where
  current : σ
  past : List σ

/-- A block is attached, or the last one is detached. -/
inductive Move (β : Type*) where
  | attach (b : β)
  | detach

variable (f : σ → β → Except ε σ) (s₀ : σ)

/-- Without a block there is nothing to detach. -/
def Machine.move (m : Machine σ) : Move β → Except ε (Machine σ)
  | .attach b => do
      let s ← f m.current b
      return ⟨s, m.current :: m.past⟩
  | .detach =>
      match m.past with
      | [] => .ok m
      | s :: past => .ok ⟨s, past⟩

/-- What a move does to the chain, which has its last block first. -/
def grow (chain : List β) : Move β → List β
  | .attach b => b :: chain
  | .detach => chain.tail

/-- The chain after some moves. -/
def chain (moves : List (Move β)) : List β := moves.foldl grow []

/-- The machine stores what the chain has led to, block by block. -/
inductive Follows : Machine σ → List β → Prop
  | start : Follows ⟨s₀, []⟩ []
  | step {s s' : σ} {past : List σ} {b : β} {bs : List β} (h : Follows ⟨s, past⟩ bs)
      (hs : f s b = .ok s') : Follows ⟨s', s :: past⟩ (b :: bs)

variable {f s₀} {m m' : Machine σ} {bs : List β} {moves : List (Move β)}

/-- **The state is that of the chain.** -/
theorem Follows.state (h : Follows f s₀ m bs) : bs.reverse.foldlM f s₀ = .ok m.current := by
  induction h with
  | start => rfl
  | @step s s' past b bs _ hs ih =>
      rw [List.reverse_cons, List.foldlM_append, ih]
      show (f s b >>= pure) = .ok s'
      rw [hs]
      rfl

lemma Follows.move (h : Follows f s₀ m bs) {mv : Move β} (hm : m.move f mv = .ok m') :
    Follows f s₀ m' (grow bs mv) := by
  cases mv with
  | attach b =>
      rw [Machine.move] at hm
      cases hs : f m.current b with
      | error e =>
          rw [hs] at hm
          cases hm
      | ok s =>
          rw [hs] at hm
          obtain rfl := Except.ok.inj hm
          exact .step h hs
  | detach =>
      cases h with
      | start =>
          obtain rfl := Except.ok.inj hm
          exact .start
      | step h hs =>
          obtain rfl := Except.ok.inj hm
          exact h

/-- A move goes through if the chain does that it leads to. -/
lemma Follows.move_returns (h : Follows f s₀ m bs) {mv : Move β} {s : σ}
    (hs : (grow bs mv).reverse.foldlM f s₀ = .ok s) : ∃ m', m.move f mv = .ok m' := by
  cases mv with
  | attach b =>
      rw [grow, List.reverse_cons, List.foldlM_append, h.state] at hs
      have hb : (f m.current b >>= pure) = .ok s := hs
      rw [bind_pure] at hb
      rw [Machine.move, hb]
      exact ⟨_, rfl⟩
  | detach =>
      cases h with
      | start => exact ⟨_, rfl⟩
      | step => exact ⟨_, rfl⟩

end Undo
