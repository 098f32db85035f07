import Democrit.Rpc
import Mathlib.Algebra.Group.Int.Defs
import Mathlib.Data.List.Sort

/-!
# `OrderBook` and the JSON export

`src/orderbook.cpp`: the orders of all other accounts, as they were last broadcast, and the two
queries for them; and from `src/json.cpp` the conversion of what the queries return.

The orders of an account are a hash map, and are visited in whatever order their entries come in
(`OrderMap`).  The accounts are a `std::map`, which is visited by key.  A time is a number of ticks
of the steady clock.

The JSON import is here as well: `ProtoFromJson` of an order, on the values that the export can write
(`Json` has no numbers with a fraction).
-/

namespace Democrit

/-- The assertions in `OrderBook` and in the JSON export. -/
inductive BookCheck where
  /-- `CHECK (upd.has_account ())` in `UpdateOrders`. -/
  | hasAccount
  /-- `CHECK (o.has_asset () && o.has_type () && o.has_price_sat ())` in `UpdateOrders`. -/
  | orderFields
  /-- `CHECK (o.has_asset ())` in `InternalGetByAsset` and `AddOrderForAsset`. -/
  | hasAsset
  /-- The two assertions of the comparison in `SortByPrices`. -/
  | sortable
  /-- `CHECK_EQ (allAssets.assets_size (), 1)` in `GetForAsset`. -/
  | oneAsset
  /-- `GetForAsset` finds the asset it asked for. -/
  | assetFound
  /-- `CHECK_EQ (mit->second.asset (), asset)` in `GetForAsset`. -/
  | assetLabel
  /-- `CHECK_GE (pb.max_units (), ...)` in `ProtoToJson`. -/
  | unitBounds
  deriving DecidableEq, Repr

/-! ## The book -/

/-- `OrdersOfAccount` where the presence of the account is tested: a broadcast, and the argument of
`UpdateOrders`. -/
structure AccountUpdate where
  account : Option String := none
  orders : OrderMap := ∅

/-- `OrderBook::AccountOrders`. -/
structure AccountOrders where
  orders : OrderMap
  lastUpdate : ℤ

/-- `OrderBook::UpdateEvent`. -/
structure UpdateEvent where
  account : String
  time : ℤ
  deriving DecidableEq, Repr

/-- The members of an `OrderBook`. -/
structure OrderBook where
  timeout : ℤ
  orders : AList fun _ : String => AccountOrders := ∅
  updates : List UpdateEvent := []

namespace OrderBook

/-- The loop of `OrderBook::RunTimeout`. -/
def timeoutLoop (timeoutBefore : ℤ) : List UpdateEvent → (AList fun _ : String => AccountOrders) →
    List UpdateEvent × AList fun _ : String => AccountOrders
  | [], orders => ([], orders)
  | ev :: rest, orders =>
      if ev.time < timeoutBefore then
        match orders.lookup ev.account with
        | none => timeoutLoop timeoutBefore rest orders
        | some a =>
            if a.lastUpdate < timeoutBefore then
              timeoutLoop timeoutBefore rest (orders.erase ev.account)
            else timeoutLoop timeoutBefore rest orders
      else (ev :: rest, orders)

/-- `OrderBook::RunTimeout`. -/
def runTimeout (now : ℤ) (book : OrderBook) : OrderBook :=
  let (updates, orders) := timeoutLoop (now - book.timeout) book.updates book.orders
  { book with orders, updates }

/-- `OrderBook::UpdateOrders`. -/
def updateOrders (now : ℤ) (upd : AccountUpdate) (book : OrderBook) : Except BookCheck OrderBook :=
  match upd.account with
  | none => .error .hasAccount
  | some account =>
      if upd.orders.entries.all fun e =>
          e.2.asset.isSome && e.2.type.isSome && e.2.priceSat.isSome then
        if upd.orders.entries.isEmpty then
          .ok { book with orders := book.orders.erase account }
        else
          .ok { book with
            orders := book.orders.insert account ⟨upd.orders, now⟩
            updates := book.updates ++ [⟨account, now⟩] }
      else .error .orderFields

end OrderBook

/-! ## Queries -/

/-- `OrderbookForAsset`. -/
structure OrderbookForAsset where
  asset : String := ""
  bids : List Order := []
  asks : List Order := []
  deriving DecidableEq, Repr

/-- `OrderbookByAsset`. -/
abbrev OrderbookByAsset : Type := AList fun _ : String => OrderbookForAsset

/-- `AddOrderForAsset`. -/
def addOrderForAsset (orders : OrderbookByAsset) (o : Order) : Except BookCheck OrderbookByAsset :=
  match o.asset with
  | none => .error .hasAsset
  | some asset =>
      let forAsset := (orders.lookup asset).getD { asset }
      let cleared : Order := { o with asset := none, type := none }
      match o.getType with
      | .ask => .ok (orders.insert asset { forAsset with asks := forAsset.asks ++ [cleared] })
      | .bid => .ok (orders.insert asset { forAsset with bids := forAsset.bids ++ [cleared] })

/-- What the comparison in `SortByPrices` asserts of its arguments. -/
def Order.sortable (o : Order) : Bool := o.priceSat.isSome && o.account.isSome && o.id.isSome

/-- The comparison in `SortByPrices`: by price, then by account, then by id. -/
def byPriceAsc (a b : Order) : Bool :=
  if a.getPriceSat ≠ b.getPriceSat then a.getPriceSat < b.getPriceSat
  else if a.getAccount ≠ b.getAccount then a.getAccount < b.getAccount
  else a.getId < b.getId

/-- `std::sort` with that comparison.  Of two orders or more, each is compared with some other. -/
def sortOrders (l : List Order) : Except BookCheck (List Order) :=
  if 2 ≤ l.length ∧ ¬ l.all Order.sortable then .error .sortable
  else .ok (l.insertionSort fun a b => !byPriceAsc b a)

/-- One entry in the loop of `SortByPrices`.  The bids are sorted from behind. -/
def sortEntry (e : OrderbookForAsset) : Except BookCheck OrderbookForAsset := do
  let asks ← sortOrders e.asks
  let bids ← sortOrders e.bids.reverse
  return { e with asks, bids := bids.reverse }

/-- `SortByPrices`. -/
def sortByPrices (orders : OrderbookByAsset) : Except BookCheck OrderbookByAsset :=
  orders.entries.foldlM (fun sorted e => do return sorted.insert e.1 (← sortEntry e.2)) ∅

namespace OrderBook

/-- The accounts in the order in which a loop over the `std::map` visits them. -/
def accounts (book : OrderBook) : List ((_ : String) × AccountOrders) :=
  book.orders.entries.insertionSort fun a b => a.1 ≤ b.1

/-- The inner loop of `InternalGetByAsset`. -/
def addAccount (asset : Option String) (res : OrderbookByAsset)
    (acc : (_ : String) × AccountOrders) : Except BookCheck OrderbookByAsset :=
  acc.2.orders.entries.foldlM
    (fun res order =>
      if order.2.asset = none then .error .hasAsset
      else if asset.any fun a => order.2.getAsset ≠ a then .ok res
      else addOrderForAsset res { order.2 with account := some acc.1, id := some order.1 })
    res

/-- `OrderBook::InternalGetByAsset`. -/
def internalGetByAsset (asset : Option String) (book : OrderBook) :
    Except BookCheck OrderbookByAsset := do
  let res ← book.accounts.foldlM (addAccount asset) ∅
  sortByPrices res

/-- `OrderBook::GetForAsset`. -/
def getForAsset (asset : String) (book : OrderBook) : Except BookCheck OrderbookForAsset := do
  let allAssets ← book.internalGetByAsset (some asset)
  if allAssets.entries.isEmpty then
    return { asset }
  else if allAssets.entries.length ≠ 1 then
    .error .oneAsset
  else match allAssets.lookup asset with
    | none => .error .assetFound
    | some res => if res.asset ≠ asset then .error .assetLabel else return res

/-- `OrderBook::GetByAsset`. -/
def getByAsset (book : OrderBook) : Except BookCheck OrderbookByAsset := book.internalGetByAsset none

end OrderBook

/-! ## The JSON export -/

/-- `Json::Value::removeMember`. -/
def Json.removeMember (key : String) : Json → Json
  | .obj members => .obj (members.filter fun m => m.1 ≠ key)
  | j => j

/-- `IntToJson`. -/
def intToJson (val : Int64) : Json := .int val.toInt

/-- `OrderTypeToJson`. -/
def orderTypeToJson : OrderType → Json
  | .ask => .str "ask"
  | .bid => .str "bid"

/-- Set a member if there is a value for it. -/
def Json.setOptional (key : String) (val : Option Json) (j : Json) : Json :=
  match val with
  | some v => Json.setMember key v j
  | none => j

/-- `ProtoToJson<proto::Order>`.  In the assertion, the lower bound is an `int64_t` that is converted
back to be compared with a `uint64`. -/
def orderToJson (pb : Order) : Except BookCheck Json :=
  let res := (Json.obj []).setOptional "account" (pb.account.map .str)
  let res := res.setOptional "id" (pb.id.map fun i => intToJson i.toInt64)
  let res := res.setOptional "asset" (pb.asset.map .str)
  let res := Json.setMember "min_units" (intToJson ((pb.minUnits.map UInt64.toInt64).getD 1)) res
  if ¬ (max 1 pb.getMinUnits.toInt64).toUInt64 ≤ pb.maxUnits then .error .unitBounds
  else
    let res := Json.setMember "max_units" (intToJson pb.maxUnits.toInt64) res
    let res := Json.setMember "price_sat" (intToJson pb.getPriceSat.toInt64) res
    let res := res.setOptional "type" (pb.type.map orderTypeToJson)
    .ok (if pb.locked then Json.setMember "locked" (.bool true) res else res)

/-- `OrderbookSideToJson`. -/
def orderbookSideToJson (orders : List Order) : Except BookCheck Json := do
  let res ← orders.mapM fun o => do
    return ((← orderToJson o).removeMember "asset").removeMember "type"
  return .arr res

/-- `ProtoToJson<proto::OrderbookForAsset>`. -/
def orderbookForAssetToJson (pb : OrderbookForAsset) : Except BookCheck Json := do
  let res := Json.setMember "asset" (.str pb.asset) (.obj [])
  let res := Json.setMember "bids" (← orderbookSideToJson pb.bids) res
  return Json.setMember "asks" (← orderbookSideToJson pb.asks) res

/-- `ProtoToJson<proto::OrderbookByAsset>`. -/
def orderbookByAssetToJson (pb : OrderbookByAsset) : Except BookCheck Json :=
  pb.entries.foldlM
    (fun res e => do
      let cur ← orderbookForAssetToJson e.2
      return Json.setMember e.1 (Json.setMember "asset" (.str e.1) cur) res)
    (.obj [])

/-! ## The JSON import -/

/-- A member of an object, if it is there: `isMember` and `operator[]`. -/
def Json.member (key : String) : Json → Option Json
  | .obj members => (members.find? fun m => m.1 = key).map Prod.snd
  | _ => none

/-- `isUInt64` and `asUInt64`. -/
def Json.uint64? : Json → Option UInt64
  | .int i => if 0 ≤ i ∧ i < 2 ^ 64 then some (UInt64.ofNat i.toNat) else none
  | _ => none

/-- `isString` and `asString`. -/
def Json.string? : Json → Option String
  | .str s => some s
  | _ => none

/-- The type of an order. -/
def orderTypeFromJson : Json → Option OrderType
  | .str "bid" => some .bid
  | .str "ask" => some .ask
  | _ => none

/-- Read a member that may be missing, but not malformed. -/
def Json.readOptional {α : Type} (key : String) (read : Json → Option α) (val : Json) :
    Option (Option α) :=
  match val.member key with
  | none => some none
  | some v => (read v).map some

/-- `ProtoFromJson<proto::Order>`: the order, if the conversion succeeds.  The member `locked` is not
read. -/
def orderFromJson (val : Json) : Option Order :=
  match val with
  | .obj _ => do
      let account ← val.readOptional "account" Json.string?
      let id ← val.readOptional "id" Json.uint64?
      let asset ← val.readOptional "asset" Json.string?
      let minUnits ← val.readOptional "min_units" Json.uint64?
      let maxUnits ← (val.member "max_units").bind Json.uint64?
      let priceSat ← (val.member "price_sat").bind Json.uint64?
      let type ← val.readOptional "type" orderTypeFromJson
      return { account, id, asset, minUnits, maxUnits, type, priceSat := some priceSat }
  | _ => none

end Democrit
