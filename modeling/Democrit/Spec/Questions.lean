import Democrit.Spec.Asking
import Democrit.System

/-!
# What the daemon asks

The `AssetSpec` of a game may rely on the order in which it is asked: `CanSell` **is asked only
about what `IsAsset` has just said to be an asset**, and so is the move that goes into a name
update.  `AssetsFirst` lists the exchanges that keep to this order, and `exec_asks` says that those
of every section do.

There is one lemma for each method, which goes through it with the rules of `Act.Asks`.  The two
places where the order matters rely on what came out before (`asks_answered`, `Act.asks_bind_of`).
-/

namespace Democrit

open Interaction
open Act (Asks asks_pure asks_fail asks_read asks_write asks_ask asks_bind asks_bind_of asks_lift
  asks_on)

variable {cfg : Config} {account : String} {W : Type} {E : Env Call Answer W} {P : Ev → Prop}

/-! ## Calls and assertions -/

section Rules

variable {σ α β : Type}

lemma asks_check (c : Check) (b : Bool) : Asks E P (check c b : M σ Unit) := fun _ _ => by simp

/-- What comes after an assertion may rely on it. -/
lemma asks_checked {c : Check} {b : Bool} {f : Unit → M σ β}
    (hf : b = true → Asks E P (f ())) : Asks E P (check c b >>= f) :=
  asks_bind_of (asks_check c b) (fun _ _ => (wpIn_check c b).mpr (by simp)) fun _ hb => hf hb

lemma asks_judge (x : Except Check α) : Asks E P (judge x) := fun _ _ => by simp

lemma asks_rpc {m : Method} (h : ∀ a, P ⟨.rpc m, a⟩) : Asks E P (rpc m) := by
  refine asks_bind (asks_ask h) fun a => ?_
  rcases a with (_ | _) | r
  · exact asks_fail _
  · exact asks_fail _
  · exact asks_pure _

/-- What comes after a question may rely on what the environment has answered. -/
lemma asks_answered {m : Method} {f : m.Reply → Query β} (h : ∀ a, P ⟨.rpc m, a⟩)
    (hf : ∀ r w w', E w (Ev.returned m r) w' → Asks E P (f r)) :
    Asks E P (rpc m >>= f) := by
  let Q (r : m.Reply) : Prop := ∃ w w', E w (Ev.returned m r) w'
  refine asks_bind_of (Q := Q) (asks_rpc h) (fun w _ => ?_) fun r hr => ?_
  · refine (wpIn_rpc m).mpr ⟨?_, by simp, by simp⟩
    rintro r w' he _ ⟨⟩
    exact ⟨w, w', he⟩
  · obtain ⟨w, w', he⟩ := hr
    exact hf r w w' he

end Rules

/-! ## The methods of the daemon -/

/-- The calls that are about an asset and rely on it being one. -/
def Method.guarded : Method → Bool
  | .canSell _ _ _ | .namepsbt _ _ _ _ _ => true
  | _ => false

/-- Which exchanges may occur: those of `CanSell` about an asset, those that make the name update of
a trade in one, and all others. -/
structure AssetsFirst (cfg : Config) (E : Env Call Answer W) (P : Ev → Prop) : Prop where
  other : ∀ c a, (∀ m, c = .rpc m → m.guarded = false) → P ⟨c, a⟩
  canSell : ∀ w w' asset, E w (Ev.returned (.isAsset asset) true) w' →
    ∀ name n a, P ⟨.rpc (.canSell name asset n), a⟩
  update : ∀ w w' (ck : TradeChecker), E w (Ev.returned (.isAsset ck.asset) true) w' →
    ∀ psbt a, P ⟨.rpc (.namepsbt psbt 0 "name_update" (getXayaName ck.seller)
      (ck.getNameUpdateValue cfg)), a⟩

section Methods

variable (h : AssetsFirst cfg E P)

include h

lemma AssetsFirst.rpc {m : Method} (hm : m.guarded = false) (a : Answer (.rpc m)) : P ⟨.rpc m, a⟩ :=
  h.other _ a fun _ heq => Call.rpc.inj heq ▸ hm

lemma AssetsFirst.clock {σ : Type} : Asks E P (getCurrentTime : M σ Int64) :=
  asks_ask fun a => h.other _ a (by simp)

lemma AssetsFirst.lockUnspent (lock : Bool) (out : OutPoint) : Asks E P (lockUnspent lock out) := by
  refine asks_bind (asks_ask (h.rpc rfl)) fun a => ?_
  rcases a with e | b
  · exact asks_pure _
  · exact asks_pure _

lemma AssetsFirst.unlockAll : ∀ outs : List OutPoint, Asks E P (unlockAll outs)
  | [] => asks_pure _
  | _ :: rest => asks_bind (h.lockUnspent _ _) fun _ => AssetsFirst.unlockAll rest

/-! ### Own orders -/

/-- **`ValidateOrder` asks `IsAsset` first.** -/
lemma AssetsFirst.validateOrder (o : Order) : Asks E P (validateOrder account o) := by
  rw [Democrit.validateOrder]
  split
  · exact asks_pure _
  · refine asks_answered (h.rpc rfl) fun valid w w' hvalid => ?_
    cases valid with
    | false => exact asks_pure _
    | true =>
        simp only [Bool.not_true, Bool.false_eq_true, if_false]
        cases o.getType with
        | bid =>
            refine asks_bind (asks_rpc (h.rpc rfl)) fun b => ?_
            cases b <;> exact asks_pure _
        | ask =>
            refine asks_bind (asks_rpc (h.canSell w w' _ hvalid _ _)) fun b => ?_
            cases b <;> exact asks_pure _

lemma AssetsFirst.refreshLoop : ∀ (entries : List ((_ : UInt64) × Order)) (updated : OrderMap),
    Asks E P (refreshLoop entries updated)
  | [], _ => asks_pure _
  | ⟨id, o⟩ :: rest, updated => by
      rw [Democrit.refreshLoop]
      refine asks_bind asks_read fun s => ?_
      refine asks_bind (asks_lift (h.validateOrder o)) fun valid => ?_
      cases valid with
      | false => exact AssetsFirst.refreshLoop rest _
      | true => exact asks_bind (asks_write _) fun _ => AssetsFirst.refreshLoop rest _

lemma AssetsFirst.runRefresh : Asks E P runRefresh :=
  asks_bind asks_read fun _ => asks_bind (h.refreshLoop _ _) fun _ =>
    asks_bind asks_read fun _ => asks_write _

lemma AssetsFirst.addOwnOrder (o : Order) : Asks E P (addOwnOrder o) := by
  refine asks_bind asks_read fun s => asks_bind (asks_lift (h.validateOrder o)) fun valid => ?_
  cases valid with
  | false => exact asks_pure _
  | true => exact asks_bind (asks_write _) fun _ => asks_pure _

omit h in
lemma asks_removeById (id : UInt64) : Asks E P (removeById id) :=
  asks_bind asks_read fun _ => asks_write _

omit h in
lemma asks_tryLock (id : UInt64) : Asks E P (tryLock id) := by
  refine asks_bind asks_read fun s => ?_
  cases s.ownOrders.lookup id with
  | none => exact asks_pure _
  | some o =>
      dsimp only
      split
      · exact asks_pure _
      · exact asks_bind (asks_write _) fun _ => asks_pure _

omit h in
lemma asks_unlock (id : UInt64) : Asks E P (unlock id) := by
  refine asks_bind asks_read fun s => ?_
  cases s.ownOrders.lookup id with
  | none => exact asks_fail _
  | some o => exact asks_bind (asks_check _ _) fun _ => asks_write _

/-! ### What buyer and seller verify -/

lemma AssetsFirst.isBlockAncestor (ancestor : Uint256) :
    ∀ (n : ℕ) (child : Uint256), Asks E P (isBlockAncestor ancestor child n)
  | 0, child => by
      rw [Democrit.isBlockAncestor]
      split <;> exact asks_pure _
  | n + 1, child => by
      rw [Democrit.isBlockAncestor]
      split
      · exact asks_pure _
      · refine asks_bind (asks_rpc (h.rpc rfl)) fun parent => ?_
        cases parent with
        | none => exact asks_pure _
        | some parent => exact AssetsFirst.isBlockAncestor ancestor n parent

/-- **So does `CheckForBuyerTrade`.** -/
lemma AssetsFirst.checkForBuyerTrade (ck : TradeChecker) : Asks E P ck.checkForBuyerTrade := by
  rw [TradeChecker.checkForBuyerTrade]
  refine asks_answered (h.rpc rfl) fun valid w w' hvalid => ?_
  cases valid with
  | false => exact asks_pure _
  | true =>
      refine asks_bind (asks_rpc (h.rpc rfl)) fun canBuy => ?_
      cases canBuy with
      | false => exact asks_pure _
      | true =>
          refine asks_bind (asks_rpc (h.rpc rfl)) fun nameInput => ?_
          refine asks_bind (asks_rpc (h.rpc rfl)) fun utxo => ?_
          cases utxo with
          | none => exact asks_pure _
          | some utxoBlock =>
              refine asks_bind (asks_rpc (h.canSell w w' _ hvalid _ _)) fun gsp => ?_
              cases gsp with
              | none => exact asks_pure _
              | some gspBlock =>
                  refine asks_bind (h.isBlockAncestor _ _ _) fun ok => ?_
                  cases ok <;> exact asks_pure _

lemma AssetsFirst.checkForBuyerSignature (beforeStr afterStr : String) :
    Asks E P (TradeChecker.checkForBuyerSignature beforeStr afterStr) :=
  asks_bind (asks_rpc (h.rpc rfl)) fun _ =>
    asks_bind (asks_rpc (h.rpc rfl)) fun _ => asks_judge _

lemma AssetsFirst.checkForSellerOutputs (ck : TradeChecker) (psbt : String) (sd : SellerData) :
    Asks E P (ck.checkForSellerOutputs cfg psbt sd) :=
  asks_bind (asks_check _ _) fun _ => asks_bind (asks_rpc (h.rpc rfl)) fun _ => asks_judge _

lemma AssetsFirst.checkForSellerSignature (beforeStr afterStr : String) (sd : SellerData) :
    Asks E P (TradeChecker.checkForSellerSignature beforeStr afterStr sd) := by
  rw [TradeChecker.checkForSellerSignature]
  cases sd.nameOutput with
  | none => exact asks_fail _
  | some nmOut =>
      exact asks_bind (asks_rpc (h.rpc rfl)) fun _ =>
        asks_bind (asks_rpc (h.rpc rfl)) fun _ => asks_judge _

/-! ### Trades -/

lemma AssetsFirst.createSellerData : Asks E P (createSellerData account) := by
  refine asks_bind asks_read fun pb => ?_
  split
  · exact asks_pure _
  · refine asks_bind (asks_lift (asks_rpc (h.rpc rfl))) fun out => ?_
    refine asks_bind (asks_lift (h.lockUnspent _ _)) fun locked => ?_
    cases locked with
    | false => exact asks_pure _
    | true =>
        refine asks_bind (asks_lift (asks_rpc (h.rpc rfl))) fun _ => ?_
        refine asks_bind (asks_lift (asks_rpc (h.rpc rfl))) fun _ => ?_
        exact asks_bind (asks_write _) fun _ => asks_pure _

omit h in
/-- Who goes on after `CheckForBuyerTrade` has been told that there is an asset. -/
lemma asset_of_checkForBuyerTrade (ck : TradeChecker) {w : W} {u : Unit} :
    ck.checkForBuyerTrade.wpIn E w u fun _ _ r _ => ∀ nameIn, r = .ok nameIn → nameIn.isSome →
      ∃ w w', E w (Ev.returned (.isAsset ck.asset) true) w' := by
  rw [TradeChecker.checkForBuyerTrade]
  refine (Act.wpIn_bind _ _).mpr ((wpIn_rpc _).mpr ⟨fun valid w' hvalid => ?_, by simp, by simp⟩)
  cases valid with
  | false =>
      refine (Act.wpIn_pure _).mpr ?_
      rintro _ ⟨⟩ ⟨⟩
  | true => exact Act.wpIn_iff.mpr fun _ _ _ _ _ _ _ _ _ => ⟨w, w', hvalid⟩

lemma AssetsFirst.constructTransaction (pb : TradeState) (nameIn : OutPoint)
    (hasset : ∃ w w', E w (Ev.returned (.isAsset pb.order.getAsset) true) w') :
    Asks E P (constructTransaction cfg account (buildTradeChecker account pb) pb nameIn) := by
  obtain ⟨w, w', he⟩ := hasset
  refine asks_checked fun hbid => asks_bind (asks_check _ _) fun _ => ?_
  have hseller : (buildTradeChecker account pb).seller = pb.counterparty := by
    rw [buildTradeChecker, of_decide_eq_true hbid]
  refine asks_bind (asks_judge _) fun total => ?_
  cases total with
  | none => exact asks_fail _
  | some total =>
      refine asks_bind (asks_rpc (h.rpc rfl)) fun _ => asks_bind (asks_rpc (h.rpc rfl)) fun psbt => ?_
      refine asks_bind (asks_rpc ?_) fun _ => asks_rpc (h.rpc rfl)
      rw [← hseller]
      exact h.update w w' (buildTradeChecker account pb) he psbt

lemma AssetsFirst.signAsSeller : Asks E P (signAsSeller cfg account) := by
  refine asks_bind asks_read fun pb => ?_
  refine asks_bind (asks_lift (h.checkForSellerOutputs _ _ _)) fun outputsOk => ?_
  cases outputsOk with
  | false => exact asks_pure _
  | true =>
      refine asks_bind (asks_lift (asks_rpc (h.rpc rfl))) fun signed => ?_
      refine asks_bind (asks_lift (h.checkForSellerSignature _ _ _)) fun signatureOk => ?_
      cases signatureOk with
      | false => exact asks_pure _
      | true =>
          simp only [Bool.not_true, Bool.false_eq_true, if_false]
          split
          · exact asks_pure _
          · exact asks_bind (asks_write _) fun _ => asks_pure _

lemma AssetsFirst.constructAsBuyer : Asks E P (constructAsBuyer cfg account) := by
  refine asks_bind asks_read fun pb => ?_
  let Q (nameIn : Option OutPoint) : Prop := nameIn.isSome →
    ∃ w w', E w (Ev.returned (.isAsset pb.order.getAsset) true) w'
  refine asks_bind_of (Q := Q) (asks_lift (h.checkForBuyerTrade _))
    (fun _ _ => (Act.wpIn_monadLift _).mpr (asset_of_checkForBuyerTrade _)) fun nameIn hasset => ?_
  cases nameIn with
  | none => exact asks_pure _
  | some nameIn =>
      refine asks_bind (asks_lift (h.constructTransaction pb nameIn (hasset rfl)))
        fun unsignedPsbt => ?_
      refine asks_bind (asks_lift (asks_rpc (h.rpc rfl))) fun signed => ?_
      refine asks_bind (asks_lift (h.checkForBuyerSignature _ _)) fun signatureOk => ?_
      cases signatureOk with
      | false =>
          have hunlock : Asks E P (unlockPsbtInputs signed.1) :=
            asks_bind (asks_rpc (h.rpc rfl)) fun _ => h.unlockAll _
          exact asks_bind (asks_lift hunlock) fun _ => asks_pure _
      | true =>
          exact asks_bind (asks_check _ _) fun _ => asks_bind (asks_write _) fun _ => asks_pure _

lemma AssetsFirst.shareOrBroadcast : Asks E P (shareOrBroadcast account) := by
  refine asks_bind asks_read fun pb => ?_
  cases pb.ourPsbt with
  | none => exact asks_fail _
  | some ours =>
      cases getRole account pb with
      | taker => exact asks_bind (asks_write _) fun _ => asks_pure _
      | maker =>
          cases pb.theirPsbt with
          | none => exact asks_pure _
          | some theirs =>
              have hfinal : Asks E P (finalPsbt account pb theirs ours) := by
                rw [finalPsbt]
                cases getOrderType account pb with
                | bid => exact asks_rpc (h.rpc rfl)
                | ask => exact asks_pure _
              refine asks_bind (asks_lift hfinal) fun psbt => ?_
              refine asks_bind (asks_lift (asks_rpc (h.rpc rfl))) fun hex => ?_
              cases hex with
              | none => exact asks_pure _
              | some hex =>
                  refine asks_bind (asks_lift (asks_rpc (h.rpc rfl))) fun _ => ?_
                  exact asks_bind (asks_write _) fun _ => asks_pure _

lemma AssetsFirst.replyWithSellerData : Asks E P (replyWithSellerData cfg account) := by
  refine asks_bind asks_read fun pb => ?_
  cases getOrderType account pb with
  | ask =>
      dsimp only
      split
      · exact asks_pure _
      · split
        · refine asks_bind h.signAsSeller fun signed => ?_
          cases signed with
          | false => exact asks_pure _
          | true => exact h.shareOrBroadcast
        · exact h.shareOrBroadcast
  | bid =>
      dsimp only
      split
      · refine asks_bind h.constructAsBuyer fun built => ?_
        cases built with
        | stop => exact asks_pure _
        | built unsignedPsbt =>
            dsimp only
            split
            · exact asks_pure _
            · exact h.shareOrBroadcast
      · exact h.shareOrBroadcast

lemma AssetsFirst.hasReply : Asks E P (hasReply cfg account) := by
  refine asks_bind asks_read fun pb => ?_
  dsimp only
  split
  · exact asks_pure _
  · refine asks_bind h.createSellerData fun created => asks_bind asks_read fun pb => ?_
    split
    · exact asks_pure _
    · split
      · exact asks_pure _
      · exact h.replyWithSellerData

lemma AssetsFirst.anyInputSpent : ∀ outs : List OutPoint, Asks E P (anyInputSpent outs)
  | [] => asks_pure _
  | out :: rest => by
      refine asks_bind (asks_rpc (h.rpc rfl)) fun utxo => ?_
      cases utxo with
      | none => exact asks_pure _
      | some _ => exact AssetsFirst.anyInputSpent rest

lemma AssetsFirst.updatePending : Asks E P (updatePending cfg) := by
  refine asks_bind asks_read fun pb => ?_
  cases pb.ourPsbt with
  | none => exact asks_fail _
  | some ours =>
      refine asks_bind (asks_lift (asks_rpc (h.rpc rfl))) fun decoded => ?_
      refine asks_bind (asks_lift (asks_rpc (h.rpc rfl))) fun answer => ?_
      obtain ⟨curHeight, gspState⟩ := answer
      cases gspState with
      | confirmed confHeight =>
          refine asks_bind (asks_check _ _) fun _ => ?_
          split <;> exact asks_write _
      | pending => exact asks_write _
      | unknown =>
          refine asks_bind (asks_lift (h.anyInputSpent _)) fun conflicted => ?_
          cases conflicted with
          | false => exact asks_write _
          | true =>
              simp only [Bool.not_true, Bool.false_eq_true, if_false]
              cases pb.conflictHeight with
              | none => exact asks_write _
              | some height =>
                  dsimp only
                  split
                  · exact asks_write _
                  · exact asks_pure _

lemma AssetsFirst.updateTrade : Asks E P (updateTrade cfg) := by
  refine asks_bind asks_read fun pb => ?_
  cases pb.getState with
  | initiated =>
      refine asks_bind h.clock fun now => ?_
      split
      · exact asks_write _
      · exact asks_pure _
  | pending => exact h.updatePending
  | success => exact asks_pure _
  | failed => exact asks_pure _
  | abandoned => exact asks_pure _

/-! ### Sections -/

lemma AssetsFirst.processLoop (msg : ProcessingMessage) :
    ∀ trades : List TradeState, Asks E P (processLoop cfg account msg trades)
  | [] => asks_pure _
  | t :: rest => by
      have hprocess : Asks E P (processTrade cfg account msg) :=
        asks_bind asks_read fun _ => asks_bind (asks_write _) fun _ => h.hasReply
      rw [Democrit.processLoop]
      split
      · refine asks_bind (asks_on t hprocess) fun out => ?_
        obtain ⟨(_ | c) | reply, t'⟩ := out
        · exact asks_pure _
        · exact asks_fail _
        · exact asks_pure _
      · exact asks_bind (AssetsFirst.processLoop msg rest) fun _ => asks_pure _

lemma AssetsFirst.processMessage (msg : ProcessingMessage) : Asks E P (processMessage cfg msg) :=
  asks_bind asks_read fun _ => asks_bind (asks_lift (h.processLoop msg _)) fun _ =>
    asks_bind (asks_write _) fun _ => asks_pure _

lemma AssetsFirst.updateLoop : ∀ done todo stillActive finalised : List TradeState,
    Asks E P (updateLoop cfg done todo stillActive finalised)
  | _, [], _, _ => asks_bind asks_read fun _ => asks_bind (asks_write _) fun _ => asks_pure _
  | done, t :: todo, stillActive, finalised => by
      rw [Democrit.updateLoop]
      refine asks_bind (asks_on t h.updateTrade) fun out => asks_bind asks_read fun s => ?_
      obtain ⟨e | _, t'⟩ := out
      · exact asks_bind (asks_write _) fun _ => asks_fail _
      · dsimp only
        split
        · exact asks_bind (asks_write _) fun _ => AssetsFirst.updateLoop _ todo _ _
        · exact AssetsFirst.updateLoop _ todo _ _

lemma AssetsFirst.takeOrder (o : Order) (units : Amount) : Asks E P (takeOrder cfg o units) := by
  rw [Democrit.takeOrder]
  split
  · exact asks_pure _
  · refine asks_bind h.clock fun now => asks_bind asks_read fun s => ?_
    dsimp only
    split
    · exact asks_pure _
    · refine asks_bind (asks_on _ h.hasReply) fun out => ?_
      obtain ⟨(_ | c) | reply, t'⟩ := out
      · exact asks_pure _
      · exact asks_fail _
      · exact asks_bind (asks_write _) fun _ => asks_pure _

lemma AssetsFirst.orderTaken (o : Order) (units : Amount) (counterparty : String) :
    Asks E P (orderTaken o units counterparty) := by
  rw [Democrit.orderTaken]
  split
  · exact asks_pure _
  · refine asks_bind h.clock fun now => asks_bind asks_read fun s => ?_
    refine asks_bind (asks_check _ _) fun _ => ?_
    split
    · exact asks_pure _
    · exact asks_bind (asks_write _) fun _ => asks_pure _

omit h in
lemma asks_receive (msg : ProcessingMessage) : Asks E P (receive msg) := by
  refine asks_bind (asks_check _ _) fun _ => ?_
  cases msg.takingOrder with
  | none => exact asks_pure _
  | some taking =>
      refine asks_bind (asks_tryLock _) fun o => ?_
      cases o <;> exact asks_pure _

omit h in
lemma asks_handleFinalised (t : TradeState) : Asks E P (handleFinalised t) := by
  have unsuccessful : ∀ s : State, Asks E P
      (if getRole s.account t = .maker then do
          unlock t.order.getId
          return { next := refreshTasks ++ releaseTasks s.account t }
        else return { next := releaseTasks s.account t } : M State Effect) := by
    intro s
    split
    · exact asks_bind (asks_unlock _) fun _ => asks_pure _
    · exact asks_pure _
  refine asks_bind asks_read fun s => ?_
  cases t.getState with
  | initiated => exact asks_fail _
  | pending => exact asks_fail _
  | abandoned => exact unsuccessful s
  | failed => exact unsuccessful s
  | success =>
      dsimp only
      split
      · refine asks_bind (asks_removeById _) fun _ => ?_
        split <;> exact asks_pure _
      · exact asks_pure _

/-- **No section asks `CanSell` about anything but an asset.** -/
theorem exec_asks (task : Task) : Asks E P (exec cfg task) := by
  cases task with
  | add o =>
      refine asks_bind (h.addOwnOrder o) fun added => ?_
      cases added <;> exact asks_pure _
  | remove id => exact asks_bind (asks_removeById id) fun _ => asks_pure _
  | refresh => exact asks_bind h.runRefresh fun _ => asks_pure _
  | getOrders => exact asks_bind asks_read fun _ => asks_pure _
  | updateOrders orders => exact asks_pure _
  | receive msg => exact asks_receive msg
  | orderTaken o taking msg =>
      refine asks_bind (h.orderTaken o _ _) fun created => ?_
      cases created <;> exact asks_pure _
  | unlock id => exact asks_bind (asks_unlock id) fun _ => asks_pure _
  | process msg => exact asks_bind (h.processMessage msg) fun _ => asks_pure _
  | takeOrder o units => exact asks_bind (h.takeOrder o units) fun _ => asks_pure _
  | updateTrades =>
      have hupdate : Asks E P (updateTrades cfg) :=
        asks_bind asks_read fun _ => h.updateLoop _ _ _ _
      exact asks_bind hupdate fun _ => asks_pure _
  | handle t => exact asks_handleFinalised t
  | readInputs t => exact asks_bind (asks_lift (asks_rpc (h.rpc rfl))) fun _ => asks_pure _
  | unlockOutput t out =>
      exact asks_bind (asks_lift (h.lockUnspent _ _)) fun _ => asks_pure _

end Methods

end Democrit
