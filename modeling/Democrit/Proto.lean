import Mathlib.Data.List.AList

/-!
# The messages of the daemon

The protocol buffers of `src/proto`, as far as the modelled code reads them.  A proto2 field
whose presence some function tests is an `Option` here and is read through its default, as the
generated getters do; a field that is only ever read through its getter is a plain value with the
default of its type.

Machine integers keep their width: `uint64` is `UInt64`, and `Amount` (`int64_t`) is `Int64`, so
the conversions between the two wrap here exactly where they do in the source.
-/

namespace Democrit

/-- `Amount` of `assetspec.hpp`: a signed 64-bit number of satoshis or of units. -/
abbrev Amount : Type := Int64

/-- `Order.Type`.  The first value is what an absent field reads as. -/
inductive OrderType where
  | ask
  | bid
  deriving DecidableEq, Repr

/-- `Order`.  A message moved from, as by `std::move`, is the default one. -/
structure Order where
  account : Option String := none
  id : Option UInt64 := none
  asset : Option String := none
  minUnits : Option UInt64 := none
  maxUnits : UInt64 := 0
  type : Option OrderType := none
  priceSat : Option UInt64 := none
  locked : Bool := false
  deriving DecidableEq, Repr

namespace Order

def getAccount (o : Order) : String := o.account.getD ""
def getId (o : Order) : UInt64 := o.id.getD 0
def getAsset (o : Order) : String := o.asset.getD ""
def getMinUnits (o : Order) : UInt64 := o.minUnits.getD 0
def getType (o : Order) : OrderType := o.type.getD .ask
def getPriceSat (o : Order) : UInt64 := o.priceSat.getD 0

end Order

/-- The `map<uint64, Order>` of `OrdersOfAccount`.  The entries come in some order, which is the
one a loop over the map visits them in; each id occurs once by construction. -/
abbrev OrderMap : Type := AList fun _ : UInt64 => Order

/-- The entries of a map that is filled with some of the entries of another. -/
lemma mem_entries_filter {m : OrderMap} {keep : ((_ : UInt64) × Order) → Bool}
    {e : (_ : UInt64) × Order} :
    e ∈ (m.entries.filter keep).toAList.entries ↔ e ∈ m.entries ∧ keep e = true := by
  have hnodup : (m.entries.filter keep).NodupKeys := m.nodupKeys.sublist List.filter_sublist
  rw [← List.mem_filter, AList.entries_toAList, ← List.mem_dlookup_iff (List.nodupKeys_dedupKeys _),
    List.dlookup_dedupKeys, List.mem_dlookup_iff hnodup]

/-- `OrdersOfAccount`. -/
structure OrdersOfAccount where
  account : String
  orders : OrderMap

/-- `Trade.State`.  The first value is what an absent field reads as. -/
inductive TradeStatus where
  | initiated
  | pending
  | success
  | failed
  | abandoned
  deriving DecidableEq, Repr

/-- `Trade.Role`. -/
inductive Role where
  | maker
  | taker
  deriving DecidableEq, Repr

/-- `Trade`: what the public interface says about a trade, and what is archived. -/
structure Trade where
  state : TradeStatus
  startTime : Int64
  counterparty : String
  type : OrderType
  asset : String
  units : UInt64
  priceSat : UInt64
  role : Role
  deriving DecidableEq, Repr

/-- `OutPoint`.  Every outpoint the code stores comes from `OutPointFromJson`, which sets both
fields, so neither is optional here. -/
structure OutPoint where
  hash : String
  n : UInt32
  deriving DecidableEq, Repr

/-- `SellerData`. -/
structure SellerData where
  nameAddress : Option String := none
  chiAddress : Option String := none
  nameOutput : Option OutPoint := none
  deriving DecidableEq, Repr

/-- `TradeState`: what a party stores about one trade.

`serial` is a history variable: the number of the trade among all that were ever created, from one
on, which no modelled function reads.  It lets statements about whole runs follow one trade. -/
structure TradeState where
  order : Order := {}
  units : UInt64 := 0
  counterparty : String := ""
  startTime : Int64 := 0
  state : Option TradeStatus := none
  sellerData : Option SellerData := none
  ourPsbt : Option String := none
  theirPsbt : Option String := none
  conflictHeight : Option UInt64 := none
  serial : ℕ := 0
  deriving DecidableEq, Repr

/-- The getter of `TradeState.state`. -/
def TradeState.getState (pb : TradeState) : TradeStatus := pb.state.getD .initiated

/-- `TakingOrder`. -/
structure TakingOrder where
  id : UInt64 := 0
  units : UInt64 := 0
  deriving DecidableEq, Repr

/-- `ProcessingMessage`.  `TradePsbt` has the single field `psbt`, which is only read through its
getter, so the message is represented by that string. -/
structure ProcessingMessage where
  counterparty : Option String := none
  identifier : Option String := none
  takingOrder : Option TakingOrder := none
  sellerData : Option SellerData := none
  psbt : Option String := none
  deriving DecidableEq, Repr

/-- `State`: everything the daemon holds under its mutex.

`created` is a history variable like `TradeState.serial`: how many trades were ever created. -/
structure State where
  account : String
  ownOrders : OrderMap := ∅
  nextFreeId : UInt64 := 0
  trades : List TradeState := []
  tradeArchive : List Trade := []
  created : ℕ := 0

end Democrit
