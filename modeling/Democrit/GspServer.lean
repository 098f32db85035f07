import Democrit.Book.Amounts
import Democrit.Gsp
import Mathlib.Data.List.Sort
import Mathlib.Data.String.Basic

/-!
# The `g/dem` GSP with reorgs, and its server

What `Gsp` leaves out.  A block can be **detached** as well.  That is done by libxayagame, which keeps
undo data for each block and puts the database back to what it was before; `GspNode.undo` has these
former states.  There is nothing to detach below the block that the game starts at.

`getStateAsJson` and `checktrade` are what the server answers to a front end and to the daemon
(`src/gsp/rpcserver.cpp`).  `readChecktrade` is the other end of that line: the part of
`Trade::Update` that takes the answer apart, and aborts on JSON of another shape.

Of the members that `GetCustomStateData` adds, only the height is here again.
-/

namespace Democrit

/-! ## The node -/

/-- The GSP with the undo data of its blocks, the last one first. -/
structure GspNode where
  gsp : Gsp := {}
  undo : List Gsp := []

/-- What can happen to it. -/
inductive NodeEvent where
  | forward (ev : GspEvent)
  /-- The last block is detached.  Then the pending moves are rebuilt. -/
  | detachBlock (moves : List GspMove)

/-- Does the event attach a block? -/
def GspEvent.block? : GspEvent → Option BlockData
  | .attachBlock blockData _ => some blockData
  | _ => none

/-- One event; an error aborts the GSP. -/
def GspNode.event (node : GspNode) : NodeEvent → Except GspCheck GspNode
  | .forward ev => do
      let gsp ← node.gsp.event ev
      return { gsp, undo := if ev.block?.isSome then node.gsp :: node.undo else node.undo }
  | .detachBlock moves =>
      match node.undo with
      | [] => .ok node
      | former :: undo =>
          let gsp := { node.gsp with trades := former.trades, height := former.height }
          .ok { gsp := moves.foldl (fun gsp mv => gsp.addPendingMove mv) gsp.clear, undo }

/-- A whole run from the empty GSP. -/
def GspNode.run (events : List NodeEvent) : Except GspCheck GspNode := events.foldlM GspNode.event {}

/-! ## The server -/

/-- `operator[]` of a constant value: the member, or null. -/
def Json.get (key : String) (val : Json) : Json := (val.member key).getD .null

/-- `Json::Value::isUInt` with `asUInt`. -/
def Json.asUInt? : Json → Option UInt32
  | .int i => if 0 ≤ i ∧ i < 2 ^ 32 then some (UInt32.ofNat i.toNat) else none
  | _ => none

namespace Gsp

/-- `DemGame::GetStateAsJson`.  The heights are cast to `Json::Int`. -/
def getStateAsJson (gsp : Gsp) : Json :=
  .obj ((gsp.trades.entries.insertionSort fun a b => a.1 ≤ b.1).map fun e =>
    (e.1, .int e.2.toInt32.toInt))

/-- What `RpcServer::checktrade` makes of the data. -/
def tradeJson (data : TradeData) : Json :=
  let state : Json :=
    match data.state with
    | .unknown => .obj [("state", .str "unknown")]
    | .pending => .obj [("state", .str "pending")]
    | .confirmed height => .obj [("state", .str "confirmed"), ("height", .int height.toInt32.toInt)]
  Json.setMember "data" state (.obj [("height", .int data.gspHeight.toNat)])

/-- `RpcServer::checktrade`, with the two reads of `CheckTrade`. -/
def checktrade (first second : Gsp) (btxid : String) : Except GspCheck Json := do
  let data ← checkTrade first second btxid
  return tradeJson data

end Gsp

/-! ## The client -/

/-- What `Trade::Update` reads from the answer, with its `CHECK`s. -/
def readChecktrade (check : Json) : Except RpcError (UInt32 × GspState) :=
  if !check.isObject then .error .malformed
  else match (check.get "height").asUInt? with
  | none => .error .malformed
  | some curHeight =>
      let data := check.get "data"
      if !data.isObject then .error .malformed
      else match (data.get "state").string? with
      | none => .error .malformed
      | some state =>
          if state = "confirmed" then
            match (data.get "height").asUInt? with
            | none => .error .malformed
            | some confHeight => .ok (curHeight, .confirmed confHeight)
          else if state = "unknown" then .ok (curHeight, .unknown)
          else .ok (curHeight, .pending)

end Democrit
