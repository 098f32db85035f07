import Democrit.MyOrders
import Democrit.Trade

/-!
# `TradeManager`

The operations of the class `TradeManager` of `src/trades.cpp`, as critical sections on the global
state.  `ProcessMessage` and `UpdateAndArchiveTrades` also call into `MyOrders` before or after
theirs; `System` puts the sections together.

Both loops over the trades work on the list in place.  `ProcessMessage` stops at the first trade
that matches; `UpdateAndArchiveTrades` moves every trade it is done with into a container of its
own, so that an exception leaves empty messages behind.
-/

namespace Democrit

open Interaction

variable (cfg : Config)

/-- `CheckOrder`: both bounds are converted to signed amounts before they are compared. -/
def checkOrder (o : Order) (units : Amount) : Bool :=
  !(o.maxUnits.toInt64 < units || units < o.getMinUnits.toInt64)
    && o.account.isSome && o.id.isSome && o.asset.isSome && o.type.isSome && o.priceSat.isSome

/-- `TradeManager::TakeOrder`: the message to send, if the trade was created. -/
def takeOrder (o : Order) (units : Amount) : M State (Option ProcessingMessage) := do
  if !checkOrder o units then
    return none
  let now ← getCurrentTime
  let s ← Act.read
  let data : TradeState :=
    { order := o, startTime := now, units := units.toUInt64, counterparty := o.getAccount,
      state := some .initiated, serial := s.created + 1 }
  if data.counterparty = s.account then
    return none
  let (r, data') ← (hasReply cfg s.account).on data
  match r with
  | .error .exception => return none
  | .error (.check c) => Act.fail (.check c)
  | .ok reply =>
      Act.write { s with trades := s.trades ++ [data'], created := s.created + 1 }
      return some (setTakingOrder data' (reply.getD (initProcessingMessage data')))

/-- `TradeManager::OrderTaken`: was the trade created? -/
def orderTaken (o : Order) (units : Amount) (counterparty : String) : M State Bool := do
  if !checkOrder o units then
    return false
  let now ← getCurrentTime
  let s ← Act.read
  check .ownAccount (o.getAccount = s.account)
  if counterparty = s.account then
    return false
  let data : TradeState :=
    { order := o, startTime := now, units := units.toUInt64, counterparty,
      state := some .initiated, serial := s.created + 1 }
  Act.write { s with trades := s.trades ++ [data], created := s.created + 1 }
  return true

/-- What `ProcessMessage` does with the trade a message is for. -/
def processTrade (account : String) (msg : ProcessingMessage) :
    M TradeState (Option ProcessingMessage) := do
  let pb ← Act.read
  Act.write (handleMessage account msg pb)
  hasReply cfg account

/-- The loop of `ProcessMessage`.  A JSON-RPC exception is caught, and keeps what was changed. -/
def processLoop (account : String) (msg : ProcessingMessage) :
    List TradeState → Query (List TradeState × Option ProcessingMessage)
  | [] => pure ([], none)
  | t :: rest =>
      if tradeMatches msg t then do
        let (r, t') ← (processTrade cfg account msg).on t
        match r with
        | .ok reply => pure (t' :: rest, reply)
        | .error .exception => pure (t' :: rest, none)
        | .error (.check c) => Act.fail (.check c)
      else do
        let (rest', reply) ← processLoop account msg rest
        pure (t :: rest', reply)

/-- The last critical section of `TradeManager::ProcessMessage`: the reply, if there is one. -/
def processMessage (msg : ProcessingMessage) : M State (Option ProcessingMessage) := do
  let s ← Act.read
  let (trades, reply) ← processLoop cfg s.account msg s.trades
  Act.write { s with trades }
  return reply

/-- The loop of `UpdateAndArchiveTrades`.  `done` are the trades moved from already. -/
def updateLoop : (done todo stillActive finalised : List TradeState) → M State (List TradeState)
  | _, [], stillActive, finalised => do
      let s ← Act.read
      Act.write { s with trades := stillActive }
      return finalised
  | done, t :: todo, stillActive, finalised => do
      let (r, t') ← (updateTrade cfg).on t
      let s ← Act.read
      match r with
      | .error e =>
          Act.write { s with trades := done ++ t' :: todo }
          Act.fail e
      | .ok () =>
          if isFinalised t' then
            Act.write { s with tradeArchive := s.tradeArchive ++ [getPublicInfo s.account t'] }
            updateLoop (done ++ [{}]) todo stillActive (finalised ++ [t'])
          else
            updateLoop (done ++ [{}]) todo (stillActive ++ [t']) finalised

/-- The critical section of `TradeManager::UpdateAndArchiveTrades`: the finalised trades, which
are still to be handled. -/
def updateTrades : M State (List TradeState) := do
  let s ← Act.read
  updateLoop cfg [] s.trades [] []

/-- The order that `Trade::HandleSuccess` puts in place of the one that was traded against.  The
subtraction is one of `uint64`. -/
def reducedOrder (t : TradeState) : Order :=
  { t.order with id := none, maxUnits := t.order.maxUnits - t.units }

/-- Does `Trade::HandleSuccess` put the reduced order back? -/
def keepsReducedOrder (t : TradeState) : Bool :=
  0 < (reducedOrder t).maxUnits && (reducedOrder t).getMinUnits ≤ (reducedOrder t).maxUnits

end Democrit
