import Democrit.Daemon
import Democrit.System

/-!
# The local RPC interface

`src/rpcserver.cpp`: what a front end can ask of the daemon besides the order book (`Daemon`), and from
`src/json.cpp` the conversions of its own orders and trades.

A method that changes something starts a call of the daemon (`Op`), if its arguments can be converted;
if not, the front end gets an error and nothing happens.  An `int` argument is a 32-bit integer, and
is converted implicitly to what the daemon's method takes.
-/

namespace Democrit

/-- `ProtoToJson<proto::OrdersOfAccount>`.  The `std::map` in it is visited by id. -/
def ordersOfAccountToJson (pb : OrdersOfAccount) : Except BookCheck Json := do
  let ordersById ← pb.orders.entries.mapM fun e => do
    let cur ← orderToJson e.2
    return (e.1, Json.setMember "id" (intToJson e.1.toInt64) (cur.removeMember "account"))
  let orders := (ordersById.insertionSort fun a b => a.1 ≤ b.1).map Prod.snd
  let res := Json.setMember "account" (.str pb.account) (.obj [])
  return Json.setMember "orders" (.arr orders) res

/-- The state of a trade in `ProtoToJson<proto::Trade>`. -/
def tradeStatusToJson : TradeStatus → Json
  | .initiated => .str "initiated"
  | .pending => .str "pending"
  | .success => .str "success"
  | .failed => .str "failed"
  | .abandoned => .str "abandoned"

/-- The role in `ProtoToJson<proto::Trade>`. -/
def roleToJson : Role → Json
  | .maker => .str "maker"
  | .taker => .str "taker"

/-- `ProtoToJson<proto::Trade>`. -/
def tradeToJson (pb : Trade) : Json :=
  let res := Json.setMember "start_time" (intToJson pb.startTime) (.obj [])
  let res := Json.setMember "counterparty" (.str pb.counterparty) res
  let res := Json.setMember "type" (orderTypeToJson pb.type) res
  let res := Json.setMember "asset" (.str pb.asset) res
  let res := Json.setMember "units" (intToJson pb.units.toInt64) res
  let res := Json.setMember "price_sat" (intToJson pb.priceSat.toInt64) res
  let res := Json.setMember "state" (tradeStatusToJson pb.state) res
  Json.setMember "role" (roleToJson pb.role) res

/-- `TradeManager::GetTrades`. -/
def getTrades (s : State) : List Trade :=
  s.trades.map (getPublicInfo s.account) ++ s.tradeArchive

namespace RpcServer

/-- `RpcServer::getownorders`. -/
def getownorders (s : State) : Except BookCheck Json :=
  ordersOfAccountToJson (internalGetOrders true s)

/-- `RpcServer::gettrades`. -/
def gettrades (s : State) : Json := .arr ((getTrades s).map tradeToJson)

/-- `RpcServer::addorder`. -/
def addorder (order : Json) : Option Op := (orderFromJson order).map .addOrder

/-- `RpcServer::cancelorder`. -/
def cancelorder (id : Int32) : Op := .cancelOrder id.toInt64.toUInt64

/-- `RpcServer::takeorder`. -/
def takeorder (order : Json) (units : Int32) : Option Op :=
  (orderFromJson order).map fun o => .takeOrder o units.toInt64

end RpcServer

end Democrit
