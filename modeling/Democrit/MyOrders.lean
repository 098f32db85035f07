import Democrit.Rpc

/-!
# `MyOrders`

`src/myorders.cpp`: our own orders.  Every method consists of one critical section on the global
state followed by `RunRefresh`, which is itself a critical section, a read of the result, and a
broadcast outside of the lock.  The sections are defined here one by one, because other threads
run between them; `System` puts them together.

`ValidateOrder` is the one the daemon overrides the virtual method with (`src/daemon.cpp`).
-/

namespace Democrit

open Interaction

/-- The part of `Daemon::Impl::ValidateOrder` that looks at the order alone. -/
def orderWellFormed (o : Order) : Bool :=
  o.maxUnits ≠ 0 && (o.minUnits.all fun m => m ≠ 0 && m ≤ o.maxUnits) && o.priceSat.isSome

/-- `Daemon::Impl::ValidateOrder`. -/
def validateOrder (account : String) (o : Order) : Query Bool := do
  if !orderWellFormed o then
    return false
  let isAsset ← rpc (.isAsset o.getAsset)
  if !isAsset then
    return false
  match o.getType with
  | .bid =>
      match ← rpc (.canBuy account o.getAsset o.maxUnits.toInt64) with
      | true => return true
      | false => return false
  | .ask =>
      match ← rpc (.canSell account o.getAsset o.maxUnits.toInt64) with
      | some _ => return true
      | none => return false

/-- The loop of `MyOrders::RunRefresh`.  A valid order is moved into the new map, which leaves an
empty message behind in the old one until the maps are swapped. -/
def refreshLoop : List ((_ : UInt64) × Order) → OrderMap → M State OrderMap
  | [], updated => pure updated
  | ⟨id, o⟩ :: rest, updated => do
      let s ← Act.read
      let valid ← validateOrder s.account o
      if valid then
        Act.write { s with ownOrders := s.ownOrders.insert id {} }
        refreshLoop rest (updated.insert id o)
      else
        refreshLoop rest updated

/-- The critical section of `MyOrders::RunRefresh`. -/
def runRefresh : M State Unit := do
  let s ← Act.read
  let updated ← refreshLoop s.ownOrders.entries ∅
  let s' ← Act.read
  Act.write { s' with ownOrders := updated }

/-- The critical section of `MyOrders::Add`. -/
def addOwnOrder (o : Order) : M State Bool := do
  let s ← Act.read
  let valid ← validateOrder s.account o
  if !valid then
    return false
  let o' := { o with account := none, id := none }
  Act.write { s with
    ownOrders := s.ownOrders.insert s.nextFreeId o'
    nextFreeId := s.nextFreeId + 1 }
  return true

/-- The critical section of `MyOrders::RemoveById`. -/
def removeById (id : UInt64) : M State Unit := do
  let s ← Act.read
  Act.write { s with ownOrders := s.ownOrders.erase id }

/-- The critical section of `MyOrders::TryLock`. -/
def tryLock (id : UInt64) : M State (Option Order) := do
  let s ← Act.read
  match s.ownOrders.lookup id with
  | none => return none
  | some o =>
      if o.locked then
        return none
      else
        Act.write { s with ownOrders := s.ownOrders.insert id { o with locked := true } }
        return some { o with account := some s.account, id := some id }

/-- The critical section of `MyOrders::Unlock`. -/
def unlock (id : UInt64) : M State Unit := do
  let s ← Act.read
  match s.ownOrders.lookup id with
  | none => Act.fail (.check .orderExists)
  | some o =>
      check .orderLocked o.locked
      Act.write { s with ownOrders := s.ownOrders.insert id { o with locked := false } }

/-- `MyOrders::InternalGetOrders`. -/
def internalGetOrders (includeLocked : Bool) (s : State) : OrdersOfAccount where
  account := s.account
  orders := (s.ownOrders.entries.filter fun e => includeLocked || !e.2.locked).toAList

/-- What `InternalGetOrders` lists. -/
lemma lookup_internalGetOrders {includeLocked : Bool} {s : State} {id : UInt64} {o : Order} :
    (internalGetOrders includeLocked s).orders.lookup id = some o ↔
      s.ownOrders.lookup id = some o ∧ (includeLocked || !o.locked) = true := by
  have hentry := @mem_entries_filter s.ownOrders (fun e => includeLocked || !e.2.locked) ⟨id, o⟩
  rwa [← AList.mem_lookup_iff, ← AList.mem_lookup_iff] at hentry

end Democrit
