import Democrit.Rpc

/-!
# The `g/dem` game

`src/gsp`: the GSP that the daemon asks for the state of a trade.  It knows a transaction by the
`btxid` of the move in it.  `game.cpp` keeps a table of the confirmed ones with the height of their
block, and `pending.cpp` a JSON object with those in the mempool.

A move or a block is what libxayagame passes on, as far as the code reads it.  Of what
`GetCustomStateData` adds to the data it is asked for, only the height is here, which is all the
daemon reads of it.

`CheckTrade` reads the pending moves and the table one after the other, and the state may change in
between.  So it gets **two states of the GSP**, one for each of the reads.
-/

namespace Democrit

/-- What aborts the GSP. -/
inductive GspCheck where
  /-- The `INSERT` in `UpdateState` fails, because the `btxid` is in the table already. -/
  | insert
  /-- `CHECK (data.isNull () || data.isUInt ())` in `CheckTrade`: the height does not fit into the
  `int` it is read as. -/
  | dataIsUInt
  deriving DecidableEq, Repr

/-- A move, confirmed or pending. -/
structure GspMove where
  btxid : String
  deriving DecidableEq, Repr

/-- The data of a block: `block.height` and `moves`. -/
structure BlockData where
  height : UInt32
  moves : List GspMove
  deriving DecidableEq, Repr

/-- The state of the GSP: `PendingMoves::pending`, the table `trades`, and the height of the block
that it is at. -/
structure Gsp where
  pending : Json := .obj []
  trades : AList fun _ : String => UInt32 := ∅
  height : UInt32 := 0

/-- `Json::Value::isMember`. -/
def Json.isMember (key : String) : Json → Bool
  | .obj members => members.any fun m => m.1 = key
  | _ => false

namespace Gsp

/-- `DemGame::ParseMove`. -/
def parseMove (mv : GspMove) : String := mv.btxid

/-- `PendingMoves::Clear`. -/
def clear (gsp : Gsp) : Gsp := { gsp with pending := .obj [] }

/-- `PendingMoves::AddPendingMove`. -/
def addPendingMove (mv : GspMove) (gsp : Gsp) : Gsp :=
  { gsp with pending := Json.setMember (parseMove mv) (.obj []) gsp.pending }

/-- `DemGame::UpdateState`. -/
def updateState (blockData : BlockData) (gsp : Gsp) : Except GspCheck Gsp := do
  let trades ← blockData.moves.foldlM
    (fun (trades : AList fun _ : String => UInt32) entry =>
      if parseMove entry ∈ trades then .error .insert
      else .ok (trades.insert (parseMove entry) blockData.height))
    gsp.trades
  return { gsp with trades, height := blockData.height }

/-- `DemGame::TradeData`. -/
structure TradeData where
  state : GspState
  gspHeight : UInt32
  deriving DecidableEq, Repr

/-- `DemGame::CheckTrade`, where the pending moves are read in the state `first` and the table in
the state `second`. -/
def checkTrade (first second : Gsp) (btxid : String) : Except GspCheck TradeData :=
  let pending := first.pending
  let confirmed := second.trades.lookup btxid
  if confirmed.any fun height => height.toInt32 < 0 then .error .dataIsUInt
  else
    let state : GspState :=
      match confirmed with
      | some height => .confirmed height
      | none => if pending.isMember btxid then .pending else .unknown
    .ok { state, gspHeight := second.height }

end Gsp

/-! ## Runs -/

/-- What can happen to the GSP, as long as no block is detached. -/
inductive GspEvent where
  | pendingMove (mv : GspMove)
  /-- The pending moves are rebuilt, from those that are still in the mempool. -/
  | resetPending (moves : List GspMove)
  /-- A block is attached.  Then the pending moves are rebuilt. -/
  | attachBlock (blockData : BlockData) (moves : List GspMove)

/-- One event; an error aborts the GSP. -/
def Gsp.event (gsp : Gsp) : GspEvent → Except GspCheck Gsp
  | .pendingMove mv => .ok (gsp.addPendingMove mv)
  | .resetPending moves => .ok (moves.foldl (fun gsp mv => gsp.addPendingMove mv) gsp.clear)
  | .attachBlock blockData moves => do
      let gsp ← gsp.updateState blockData
      return moves.foldl (fun gsp mv => gsp.addPendingMove mv) gsp.clear

/-- A whole run from the empty GSP. -/
def Gsp.run (events : List GspEvent) : Except GspCheck Gsp := events.foldlM Gsp.event {}

/-- The btxids that the event confirms. -/
def GspEvent.mined : GspEvent → List String
  | .attachBlock blockData _ => blockData.moves.map Gsp.parseMove
  | _ => []

end Democrit
