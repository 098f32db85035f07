import Democrit.MyOrders
import Democrit.OrderBook

/-!
# The listening side of the daemon

From `src/daemon.cpp`: what is done with a broadcast, and from `src/rpcserver.cpp` the two queries
of the order book, with the conversion of their result.
-/

namespace Democrit

open Interaction

/-- The answers of an `AssetSpec` at some point. -/
structure AssetSpec where
  isAsset : String → Bool
  canBuy : (name asset : String) → Amount → Bool
  canSell : (name asset : String) → Amount → Option Uint256

/-- `Daemon::Impl::ValidateOrder`, with the answers at hand. -/
def AssetSpec.validateOrder (spec : AssetSpec) (account : String) (o : Order) : Bool :=
  orderWellFormed o && spec.isAsset o.getAsset &&
    match o.getType with
    | .bid => spec.canBuy account o.getAsset o.maxUnits.toInt64
    | .ask => (spec.canSell account o.getAsset o.maxUnits.toInt64).isSome

/-- The exchange goes as `spec` answers. -/
def AssetSpec.Answers (spec : AssetSpec) : Ev → Prop
  | ⟨.rpc (.isAsset asset), r⟩ => r = (.ok (spec.isAsset asset) : Except RpcError Bool)
  | ⟨.rpc (.canBuy name asset n), r⟩ => r = (.ok (spec.canBuy name asset n) : Except RpcError Bool)
  | ⟨.rpc (.canSell name asset n), r⟩ =>
      r = (.ok (spec.canSell name asset n) : Except RpcError (Option Uint256))
  | _ => True

/-- It is what `validateOrder` asks for and returns. -/
lemma validateOrder_answers (spec : AssetSpec) (account : String) (o : Order) {u : Unit} :
    (validateOrder account o).wp u fun tr r _ =>
      (∀ ev ∈ tr, spec.Answers ev) → r = .ok (spec.validateOrder account o) := by
  simp only [validateOrder]
  split
  · rename_i hwf
    intro _
    have hwf : orderWellFormed o = false := by simpa using hwf
    simp [AssetSpec.validateOrder, hwf]
  · rename_i hwf
    have hwf : orderWellFormed o = true := by simpa using hwf
    -- a call that does not return is not one that `spec` answers
    have thrown : ∀ {m : Method} {e : RpcError} {tr : Conversation} {P : Prop},
        ¬ spec.Answers (Ev.failed m e) → (∀ ev ∈ tr ++ [Ev.failed m e], spec.Answers ev) → P :=
      fun hn h => absurd (h _ (by simp)) hn
    have asked : ∀ {b : Bool} {tr : Conversation},
        (∀ ev ∈ Ev.returned (.isAsset o.getAsset) b :: tr, spec.Answers ev) →
        b = spec.isAsset o.getAsset :=
      fun {b} _ h => Except.ok.inj (h (Ev.returned (.isAsset o.getAsset) b) (by simp))
    simp only [Act.wp_bind, wp_rpc, Act.afterBind_ok, Act.afterBind_error]
    refine ⟨fun valid => ?_, @thrown _ _ [] _ (by rintro ⟨⟩), @thrown _ _ [] _ (by rintro ⟨⟩)⟩
    cases valid with
    | false =>
        intro h
        have hasset : false = spec.isAsset o.getAsset := asked h
        simp [AssetSpec.validateOrder, ← hasset]
    | true =>
        simp only [Bool.not_true, Bool.false_eq_true, if_false]
        cases htype : o.getType with
        | bid =>
            simp only [Act.wp_bind, wp_rpc, Act.afterBind_ok, Act.afterBind_error]
            refine ⟨fun (b : Bool) => ?_, @thrown _ _ [_] _ (by rintro ⟨⟩), @thrown _ _ [_] _ (by rintro ⟨⟩)⟩
            have key : (∀ ev ∈ [Ev.returned (.isAsset o.getAsset) true,
                Ev.returned (.canBuy account o.getAsset o.maxUnits.toInt64) b], spec.Answers ev) →
                spec.validateOrder account o = b := by
              intro h
              have hasset : true = spec.isAsset o.getAsset := asked h
              have hbuy : b = spec.canBuy account o.getAsset o.maxUnits.toInt64 :=
                Except.ok.inj (h (Ev.returned (.canBuy account o.getAsset o.maxUnits.toInt64) b)
                  (by simp))
              simp [AssetSpec.validateOrder, hwf, ← hasset, htype, ← hbuy]
            cases b with
            | false => exact fun h => congrArg Except.ok (key h).symm
            | true => exact fun h => congrArg Except.ok (key h).symm
        | ask =>
            simp only [Act.wp_bind, wp_rpc, Act.afterBind_ok, Act.afterBind_error]
            refine ⟨fun (b : Option Uint256) => ?_, @thrown _ _ [_] _ (by rintro ⟨⟩), @thrown _ _ [_] _ (by rintro ⟨⟩)⟩
            have key : (∀ ev ∈ [Ev.returned (.isAsset o.getAsset) true,
                Ev.returned (.canSell account o.getAsset o.maxUnits.toInt64) b], spec.Answers ev) →
                spec.validateOrder account o = b.isSome := by
              intro h
              have hasset : true = spec.isAsset o.getAsset := asked h
              have hsell : b = spec.canSell account o.getAsset o.maxUnits.toInt64 :=
                Except.ok.inj (h (Ev.returned (.canSell account o.getAsset o.maxUnits.toInt64) b)
                  (by simp))
              simp [AssetSpec.validateOrder, hwf, ← hasset, htype, ← hsell]
            cases b with
            | none => exact fun h => congrArg Except.ok (key h).symm
            | some hash => exact fun h => congrArg Except.ok (key h).symm

namespace Daemon

/-- `Daemon::Impl::HandleMessage`.  `account` is what the sender is authenticated for, and `ext` the
broadcast, if the message has a valid one. -/
def handleMessage (spec : AssetSpec) (now : ℤ) (account : Option String) (ext : Option AccountUpdate)
    (book : OrderBook) : Except BookCheck OrderBook :=
  match account, ext with
  | some account, some data =>
      book.updateOrders now
        { account := some account
          orders := (data.orders.entries.filter fun e => spec.validateOrder account e.2).toAList }
  | _, _ => .ok book

/-- `RpcServer::getordersforasset`. -/
def getOrdersForAsset (asset : String) (book : OrderBook) : Except BookCheck Json := do
  orderbookForAssetToJson (← book.getForAsset asset)

/-- `RpcServer::getordersbyasset`. -/
def getOrdersByAsset (book : OrderBook) : Except BookCheck Json := do
  orderbookByAssetToJson (← book.getByAsset)

end Daemon

/-- What happens to the order book: a message, a run of the timeouter, or a query. -/
inductive BookEvent where
  | message (spec : AssetSpec) (now : ℤ) (account : Option String) (ext : Option AccountUpdate)
  | runTimeout (now : ℤ)
  | getOrdersForAsset (asset : String)
  | getOrdersByAsset

/-- One event; an error is the assertion that aborts the daemon. -/
def OrderBook.event (book : OrderBook) : BookEvent → Except BookCheck OrderBook
  | .message spec now account ext => Daemon.handleMessage spec now account ext book
  | .runTimeout now => .ok (book.runTimeout now)
  | .getOrdersForAsset asset => do
      let _ ← Daemon.getOrdersForAsset asset book
      return book
  | .getOrdersByAsset => do
      let _ ← Daemon.getOrdersByAsset book
      return book

/-- A whole run from the empty book. -/
def OrderBook.run (timeout : ℤ) (events : List BookEvent) : Except BookCheck OrderBook :=
  events.foldlM OrderBook.event { timeout }

end Democrit
