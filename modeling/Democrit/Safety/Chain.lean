import Democrit.Lib.Ancestry
import Democrit.Spec.Checker

/-!
# The buyer's check of the chain

Before the buyer builds a transaction, it asks Xaya Core for the seller's name output and whether
that is unspent, and the game whether the seller can sell.  Each answer is for its own block, since
the chain may grow or reorganise between the calls.  **The check is sound nevertheless**: as long
as the name output it returned stays unspent, the seller still has what it sells.

The argument: the block at which the output was seen unspent is the game's block or a close ancestor
of it.  So the output was there at the game's block already, and if it is unspent at a later block,
it was unspent all the way, and the name has not been updated in between.  Assets only change
hands by updates of the name.
-/

namespace Democrit

open Interaction Ancestry

/-- A tree of blocks, with what each block says about names, outputs and the game. -/
structure Chain where
  parent : Uint256 → Option Uint256
  /-- The current outpoint of a name. -/
  nameOut : Uint256 → String → Option OutPoint
  /-- The outpoint is in the UTXO set. -/
  unspent : Uint256 → OutPoint → Prop
  /-- What `AssetSpec::CanSell` computes from the game state. -/
  canSell : Uint256 → (seller asset : String) → Amount → Prop
  /-- An output that was there and is not any more stays spent. -/
  spent_stays : ∀ a b d out, Below parent a b → Below parent b d → unspent a out →
    ¬ unspent b out → ¬ unspent d out
  /-- An outpoint belongs to one name for good, and a name has one unspent outpoint. -/
  name_of_unspent : ∀ b b' name out, nameOut b name = some out → unspent b' out →
    nameOut b' name = some out
  /-- Assets are only affected by moves of their owner. -/
  canSell_stays : ∀ g d seller asset n, Below parent g d → canSell g seller asset n →
    (∀ b, Below parent g b → Below parent b d →
      nameOut b (getXayaName seller) = nameOut g (getXayaName seller)) →
    canSell d seller asset n

/-- A true answer, at the moment it is given.  The block it is true of can be any block of the
tree, also one that is not part of the main chain any more when the next question is asked. -/
def Chain.Truthful (ch : Chain) : Ev → Prop
  | ⟨.clock, _⟩ => True
  | ⟨.rpc m, a⟩ =>
      match m, a with
      | .nameShow name, (.ok out : Except RpcError OutPoint) => ∃ b, ch.nameOut b name = some out
      | .gettxout out, (.ok (some b) : Except RpcError (Option Uint256)) => ch.unspent b out
      | .canSell seller asset n, (.ok (some b) : Except RpcError (Option Uint256)) =>
          ch.canSell b seller asset n
      | .getblockheader b, (.ok parent : Except RpcError (Option Uint256)) => ch.parent b = parent
      | _, _ => True

variable {ch : Chain}

/-! ## The search for the ancestor -/

/-- If the search succeeds, the ancestor is at most `n` blocks back. -/
lemma isBlockAncestor_sound (ancestor : Uint256) :
    ∀ (n : ℕ) (child : Uint256) {u : Unit}, (isBlockAncestor ancestor child n).wp u fun tr r _ =>
      (∀ ev ∈ tr, ch.Truthful ev) → r = .ok true →
        ∃ k ≤ n, back ch.parent k child = some ancestor := by
  intro n
  induction n with
  | zero =>
      intro child u
      rw [isBlockAncestor]
      split
      · rename_i heq
        intro _ _
        exact ⟨0, le_rfl, congrArg some heq.symm⟩
      · simp
  | succ n ih =>
      intro child u
      rw [isBlockAncestor]
      split
      · rename_i heq
        intro _ _
        exact ⟨0, Nat.zero_le _, congrArg some heq.symm⟩
      · simp only [Act.wp_bind, wp_rpc, Act.afterBind_ok, Act.afterBind_error]
        refine ⟨fun parent => ?_, by simp, by simp⟩
        cases parent with
        | none => simp
        | some parent =>
            refine Act.wp_mono (ih parent) fun tr r _ h htrue hr => ?_
            obtain ⟨k, hk, hback⟩ := h (fun ev hev => htrue ev (by simp [hev])) hr
            have hparent : ch.parent child = some parent := htrue _ List.mem_cons_self
            refine ⟨k + 1, Nat.succ_le_succ hk, ?_⟩
            rw [back, hparent]
            exact hback

/-! ## The check -/

/-- What a successful check has seen. -/
lemma checkForBuyerTrade_seen (ck : TradeChecker) {u : Unit} :
    ck.checkForBuyerTrade.wp u fun tr r _ => ∀ nameInput, r = .ok (some nameInput) →
      (∀ ev ∈ tr, ch.Truthful ev) → ∃ utxoBlock gspBlock : Uint256,
        Ev.returned (.nameShow (getXayaName ck.seller)) nameInput ∈ tr ∧
        Ev.returned (.gettxout nameInput) (some utxoBlock) ∈ tr ∧
        Ev.returned (.canSell ck.seller ck.asset ck.units) (some gspBlock) ∈ tr ∧
        ∃ k ≤ maxBlockAncestorsChecked, back ch.parent k gspBlock = some utxoBlock := by
  have failed : ∀ {e : Fail} {P : OutPoint → Prop} (out : OutPoint),
      (.error e : Except Fail (Option OutPoint)) = .ok (some out) → P out := by
    rintro e P out ⟨⟩
  have refused : ∀ {P : OutPoint → Prop} (out : OutPoint),
      (.ok none : Except Fail (Option OutPoint)) = .ok (some out) → P out := by
    rintro P out ⟨⟩
  simp only [TradeChecker.checkForBuyerTrade, Act.wp_bind, wp_rpc, Act.afterBind_ok,
    Act.afterBind_error]
  refine ⟨fun valid => ?_, failed, failed⟩
  cases valid with
  | false => exact refused
  | true =>
      simp only [Bool.not_true, Bool.false_eq_true, if_false, Act.wp_bind, wp_rpc,
        Act.afterBind_ok, Act.afterBind_error]
      refine ⟨fun canBuy => ?_, failed, failed⟩
      cases canBuy with
      | false => exact refused
      | true =>
          simp only [Bool.not_true, Bool.false_eq_true, if_false, Act.wp_bind, wp_rpc,
            wp_getNameOutPoint, Act.afterBind_ok, Act.afterBind_error]
          refine ⟨fun nameInput => ⟨fun utxo => ?_, failed, failed⟩, failed, failed⟩
          cases utxo with
          | none => exact refused
          | some utxoBlock =>
              simp only [Act.wp_bind, wp_rpc, Act.afterBind_ok, Act.afterBind_error]
              refine ⟨fun gsp => ?_, failed, failed⟩
              cases gsp with
              | none => exact refused
              | some gspBlock =>
                  simp only [Act.wp_bind]
                  refine Act.wp_mono (@isBlockAncestor_sound ch _ _ _ _) fun tr r _ h => ?_
                  cases r with
                  | error e => exact failed
                  | ok b =>
                      cases b with
                      | false => exact refused
                      | true =>
                          intro out hout htrue
                          obtain rfl : nameInput = out := Option.some.inj (Except.ok.inj hout)
                          refine ⟨utxoBlock, gspBlock, by simp, by simp, by simp, ?_⟩
                          exact h (fun ev hev => htrue ev (by simp [hev])) rfl

/-- An output that was there before `g` and is still unspent at `d` was unspent at every block
between the two, so its name was not updated there. -/
lemma Chain.not_updated {u g b d : Uint256} {name : String} {out : OutPoint}
    (hname : ∃ b, ch.nameOut b name = some out) (hu : ch.unspent u out) (hug : Below ch.parent u g)
    (hd : ch.unspent d out) (hgb : Below ch.parent g b) (hbd : Below ch.parent b d) :
    ch.nameOut b name = ch.nameOut g name := by
  obtain ⟨b₀, hb₀⟩ := hname
  have between : ∀ b, Below ch.parent g b → Below ch.parent b d → ch.nameOut b name = some out := by
    intro b hgb hbd
    have hb : ch.unspent b out := by
      by_contra hspent
      exact ch.spent_stays u b d out (hug.trans hgb) hbd hu hspent hd
    exact ch.name_of_unspent b₀ b name out hb₀ hb
  rw [between b hgb hbd, between g (.refl g) (hgb.trans hbd)]

/-- **Soundness of the buyer's chain check.**  Whenever `CheckForBuyerTrade` returns an outpoint, the
block at which it was unspent is the block of the game's answer or at most three before it, and
at every later block at which the outpoint is unspent, the seller can still sell. -/
theorem checkForBuyerTrade_sound (ck : TradeChecker) {tr : Conversation} {nameInput : OutPoint}
    (hx : (ck.checkForBuyerTrade ()).Exec tr (.ok (some nameInput), ()))
    (htrue : ∀ ev ∈ tr, ch.Truthful ev) :
    ∃ utxoBlock gspBlock : Uint256,
      Ev.returned (.gettxout nameInput) (some utxoBlock) ∈ tr ∧
      Ev.returned (.canSell ck.seller ck.asset ck.units) (some gspBlock) ∈ tr ∧
      (∃ k ≤ 3, back ch.parent k gspBlock = some utxoBlock) ∧
      ∀ d, Below ch.parent gspBlock d → ch.unspent d nameInput →
        ch.canSell d ck.seller ck.asset ck.units := by
  obtain ⟨utxoBlock, gspBlock, hshow, hutxo, hsell, k, hk, hback⟩ :=
    Act.wp_iff.mp (checkForBuyerTrade_seen ck) tr _ _ hx nameInput rfl htrue
  refine ⟨utxoBlock, gspBlock, hutxo, hsell, ⟨k, hk, hback⟩, fun d hd hunspent => ?_⟩
  have hname : ∃ b, ch.nameOut b (getXayaName ck.seller) = some nameInput := htrue _ hshow
  have hcan : ch.canSell gspBlock ck.seller ck.asset ck.units := htrue _ hsell
  have hlive : ch.unspent utxoBlock nameInput := htrue _ hutxo
  refine ch.canSell_stays gspBlock d _ _ _ hd hcan fun b hgb hbd => ?_
  exact ch.not_updated hname hlive ⟨k, hback⟩ hunspent hgb hbd

/-! ### Five blocks in a row

The name is updated in the fifth block, which also sells the assets.  The output is seen unspent at
the first block, and the game answers for the third. -/

/-- The parents of the five blocks. -/
def rowParent (b : Uint256) : Option Uint256 :=
  if b = 2 then some 1 else if b = 3 then some 2 else if b = 4 then some 3
  else if b = 5 then some 4 else none

/-- Nothing comes after the fifth block. -/
lemma below_five {d : Uint256} : ∀ {n : ℕ}, back rowParent n d = some 5 → d = 5 := by
  intro n
  induction n generalizing d with
  | zero => intro h; exact Option.some.inj h
  | succ n ih =>
      intro h
      obtain ⟨p, hp, hback⟩ := Option.bind_eq_some_iff.mp h
      obtain rfl := ih hback
      simp only [rowParent] at hp
      split_ifs at hp <;> simp at hp

/-- The chain of the five blocks, with the name's two outputs. -/
def rowChain : Chain where
  parent := rowParent
  nameOut b _ := if b = 5 then some ⟨"update", 0⟩ else some ⟨"name", 0⟩
  unspent b out := if b = 5 then out = ⟨"update", 0⟩ else out = ⟨"name", 0⟩
  canSell b _ _ _ := b ≠ 5
  spent_stays := by
    rintro a b d out ⟨n, hab⟩ ⟨m, hbd⟩ ha hb
    split_ifs at ha with h5
    · -- the second output is spent nowhere
      rw [h5] at hab
      rw [if_pos (below_five hab)] at hb
      exact absurd ha hb
    · -- the first one is spent at the fifth block only, which is the last
      by_cases hb5 : b = 5
      · rw [hb5] at hbd
        rw [if_pos (below_five hbd), ha]
        simp
      · rw [if_neg hb5] at hb
        exact absurd ha hb
  name_of_unspent := by
    intro b b' name out h hun
    split_ifs at hun ⊢ with h5 <;> rw [hun]
  canSell_stays := by
    intro g d seller asset n hgd hg hupdated hd
    have := hupdated d hgd (.refl d)
    rw [if_pos hd, if_neg hg] at this
    simp at this

/-- Truthful answers. -/
def rowScript (_ : Unit) : (c : Call) → Answer c × Unit
  | .clock => ((0 : Int64), ())
  | .rpc (.isAsset _) => ((.ok true : Except RpcError Bool), ())
  | .rpc (.canBuy _ _ _) => ((.ok true : Except RpcError Bool), ())
  | .rpc (.nameShow _) => ((.ok ⟨"name", 0⟩ : Except RpcError OutPoint), ())
  | .rpc (.gettxout _) => ((.ok (some 1) : Except RpcError (Option Uint256)), ())
  | .rpc (.canSell _ _ _) => ((.ok (some 3) : Except RpcError (Option Uint256)), ())
  | .rpc (.getblockheader b) => ((.ok (rowParent b) : Except RpcError (Option Uint256)), ())
  | .rpc _ => (.error .exception, ())

/-- The conversation of the check. -/
def rowTalk : Conversation :=
  [Ev.returned (.isAsset "gold") true, Ev.returned (.canBuy "buyer" "gold" 2) true,
    Ev.returned (.nameShow "p/seller") ⟨"name", 0⟩, Ev.returned (.gettxout ⟨"name", 0⟩) (some 1),
    Ev.returned (.canSell "seller" "gold" 2) (some 3), Ev.returned (.getblockheader 3) (some 2),
    Ev.returned (.getblockheader 2) (some 1)]

/-- The check succeeds, and so the assets are still there in the fourth block. -/
theorem checkForBuyerTrade_sound_row :
    ((TradeChecker.checkForBuyerTrade ⟨"buyer", "seller", "gold", 5, 2⟩) ()).Exec rowTalk
      (.ok (some ⟨"name", 0⟩), ()) ∧ rowChain.canSell 4 "seller" "gold" 2 := by
  have hx : ((TradeChecker.checkForBuyerTrade ⟨"buyer", "seller", "gold", 5, 2⟩) ()).Exec rowTalk
      (.ok (some ⟨"name", 0⟩), ()) :=
    Prog.exec_play rowScript ((TradeChecker.checkForBuyerTrade ⟨"buyer", "seller", "gold", 5, 2⟩) ()) ()
  have htrue : ∀ ev ∈ rowTalk, rowChain.Truthful ev := by
    simp only [rowTalk, List.forall_mem_cons]
    refine ⟨trivial, trivial, ⟨1, rfl⟩, rfl, ?_, rfl, rfl, by simp⟩
    show (3 : Uint256) ≠ 5
    decide
  obtain ⟨u, g, _, hsell, _, hsound⟩ := @checkForBuyerTrade_sound rowChain _ _ _ hx htrue
  obtain rfl : g = 3 := by
    simp only [rowTalk, List.mem_cons, List.not_mem_nil, or_false] at hsell
    rcases hsell with h | h | h | h | h | h | h <;> cases h
    rfl
  exact ⟨hx, hsound 4 ⟨1, rfl⟩ rfl⟩

end Democrit
