import Democrit.Checker

/-!
# `Trade`

The methods of the class `Trade` of `src/trades.cpp`.  An instance wraps the `TradeState` it
works on and the name of our account; here the methods that change the `TradeState` are operations
on it (`M TradeState`), and those that only read it are functions of it.

`HasReply` is one long function in the source.  It is cut here at its comments, into the part that
signs as seller (`signAsSeller`), the part that builds and signs as buyer (`constructAsBuyer`) and
the part that shares or broadcasts what was signed (`shareOrBroadcast`).
-/

namespace Democrit

open Interaction

variable (cfg : Config) (account : String)

/-! ## Reading a trade -/

/-- `Trade::GetIdentifier`: the maker's name, a newline, and the order id in decimal. -/
def getIdentifier (pb : TradeState) : String :=
  pb.order.getAccount ++ "\n" ++ toString pb.order.getId.toNat

/-- `Trade::GetRole`. -/
def getRole (pb : TradeState) : Role :=
  if pb.order.getAccount = account then .maker else .taker

/-- The order type seen from the other side. -/
def OrderType.flip : OrderType → OrderType
  | .ask => .bid
  | .bid => .ask

/-- `Trade::GetOrderType`: what we do in the trade. -/
def getOrderType (pb : TradeState) : OrderType :=
  match getRole account pb with
  | .maker => pb.order.getType
  | .taker => pb.order.getType.flip

/-- `Trade::BuildTradeChecker`.  Price and units become signed here. -/
def buildTradeChecker (pb : TradeState) : TradeChecker :=
  let buyer := match getOrderType account pb with
    | .bid => account
    | .ask => pb.counterparty
  let seller := match getOrderType account pb with
    | .bid => pb.counterparty
    | .ask => account
  { buyer, seller, asset := pb.order.getAsset,
    price := pb.order.getPriceSat.toInt64, units := pb.units.toInt64 }

/-- `Trade::InitProcessingMessage`. -/
def initProcessingMessage (pb : TradeState) : ProcessingMessage :=
  { counterparty := some pb.counterparty, identifier := some (getIdentifier pb) }

/-- `Trade::SetTakingOrder`. -/
def setTakingOrder (pb : TradeState) (msg : ProcessingMessage) : ProcessingMessage :=
  { msg with takingOrder := some { id := pb.order.getId, units := pb.units } }

/-- `Trade::IsFinalised`. -/
def isFinalised (pb : TradeState) : Bool :=
  match pb.state with
  | some .abandoned | some .success | some .failed => true
  | _ => false

/-- `Trade::GetPublicInfo`. -/
def getPublicInfo (pb : TradeState) : Trade where
  state := pb.getState
  startTime := pb.startTime
  counterparty := pb.counterparty
  type := getOrderType account pb
  asset := pb.order.getAsset
  units := pb.units
  priceSat := pb.order.getPriceSat
  role := getRole account pb

/-- `Trade::Matches`. -/
def tradeMatches (msg : ProcessingMessage) (pb : TradeState) : Bool :=
  msg.counterparty.getD "" = pb.counterparty && msg.identifier.getD "" = getIdentifier pb

/-! ## Receiving -/

/-- `Trade::MergeSellerData`. -/
def mergeSellerData (sd : SellerData) (pb : TradeState) : TradeState :=
  if getOrderType account pb = .ask then pb
  else if pb.sellerData.isSome then pb
  else if sd.nameAddress = none ∨ sd.chiAddress = none ∨ sd.nameOutput.isSome then pb
  else if sd.nameAddress = sd.chiAddress then pb
  else { pb with sellerData := some sd }

/-- `Trade::MergePsbt`. -/
def mergePsbt (psbt : String) (pb : TradeState) : TradeState :=
  if pb.theirPsbt.isSome then pb else { pb with theirPsbt := some psbt }

/-- `Trade::HandleMessage`. -/
def handleMessage (msg : ProcessingMessage) (pb : TradeState) : TradeState :=
  if pb.getState ≠ .initiated then pb
  else
    let pb₁ := match msg.sellerData with
      | some sd => mergeSellerData account sd pb
      | none => pb
    match msg.psbt with
    | some psbt => mergePsbt psbt pb₁
    | none => pb₁

/-! ## The wallet -/

/-- `LockUnspent`: a refusal is an exception of the RPC method, and is caught here.  So is a reply
that is not a boolean, for which the generated client stub raises the same exception. -/
def lockUnspent (lock : Bool) (out : OutPoint) : Query Bool := do
  match (← Act.ask (.rpc (.lockunspent (!lock) [out])) :
      Answer (.rpc (.lockunspent (!lock) [out]))) with
  | .ok (b : Bool) => pure b
  | .error _ => pure false

/-- The loop of `UnlockPsbtInputs`. -/
def unlockAll : List OutPoint → Query Unit
  | [] => pure ()
  | out :: rest => do
      let _ ← lockUnspent false out
      unlockAll rest

/-- `UnlockPsbtInputs`. -/
def unlockPsbtInputs (psbt : String) : Query Unit := do
  let decoded ← rpc (.decodepsbt psbt)
  unlockAll decoded.tx.vin

/-- `SignPsbt`: the signed PSBT, and whether it is complete. -/
def signPsbt (psbt : String) : Query (String × Bool) := rpc (.walletprocesspsbt psbt)

/-- The call of `joinpsbts`. -/
def joinPsbts (psbts : List String) : Query String := rpc (.joinpsbts psbts)

/-- `Trade::CreateSellerData`.  The lock is taken before the addresses are asked for. -/
def createSellerData : M TradeState Bool := do
  let pb ← Act.read
  if getOrderType account pb ≠ .ask ∨ pb.sellerData.isSome then
    return false
  let out ← getNameOutPoint account
  let locked ← lockUnspent true out
  if !locked then
    return false
  let nameAddress ← rpc .getnewaddress
  let chiAddress ← rpc .getnewaddress
  Act.write { pb with sellerData := some ⟨some nameAddress, some chiAddress, some out⟩ }
  return true

/-- `Trade::ConstructTransaction`.  The first call locks the coins that fund the transaction. -/
def constructTransaction (ck : TradeChecker) (pb : TradeState) (nameIn : OutPoint) :
    Query String := do
  check .buyerConstructs (getOrderType account pb = .bid)
  let sd := pb.sellerData.getD {}
  check .sellerAddresses (sd.chiAddress.isSome && sd.nameAddress.isSome)
  match ← judge ck.getTotalSat with
  | none => Act.fail (.check .totalComputable)
  | some total =>
      let chiPart ←
        rpc (.walletcreatefundedpsbt [(sd.chiAddress.getD "", total)] cfg.feeRateWoNames)
      let rawNamePart ← rpc (.createpsbt [nameIn] [(sd.nameAddress.getD "", nameValue)])
      let namePart ← rpc (.namepsbt rawNamePart 0 "name_update"
        (getXayaName pb.counterparty) (ck.getNameUpdateValue cfg))
      joinPsbts [chiPart, namePart]

/-! ## `Trade::HasReply` -/

/-- The seller's part: check the PSBT we got, sign it, and keep it as ours.  `false` is an early
`return false`. -/
def signAsSeller : M TradeState Bool := do
  let pb ← Act.read
  let ck := buildTradeChecker account pb
  let theirs := pb.theirPsbt.getD ""
  let sd := pb.sellerData.getD {}
  let outputsOk ← ck.checkForSellerOutputs cfg theirs sd
  if !outputsOk then
    return false
  let (psbt, complete) ← signPsbt theirs
  let signatureOk ← TradeChecker.checkForSellerSignature theirs psbt sd
  if !signatureOk then
    return false
  -- the maker is the last one to sign, and the taker is not
  if complete ≠ decide (getRole account pb = .maker) then
    return false
  Act.write { pb with ourPsbt := some psbt }
  return true

/-- How the buyer's part ends: with an early `return false`, with the PSBT built (the unsigned
one is at hand), or without having had anything to do. -/
inductive Built where
  | stop
  | built (unsignedPsbt : String)
  deriving DecidableEq, Repr

/-- The buyer's part: check that the seller can deliver, build the transaction, sign it, and keep
it as ours. -/
def constructAsBuyer : M TradeState Built := do
  let pb ← Act.read
  let ck := buildTradeChecker account pb
  match ← ck.checkForBuyerTrade with
  | none => return .stop
  | some nameIn =>
      let unsignedPsbt ← constructTransaction cfg account ck pb nameIn
      let (signedPsbt, complete) ← signPsbt unsignedPsbt
      let signatureOk ← TradeChecker.checkForBuyerSignature unsignedPsbt signedPsbt
      if !signatureOk then
        unlockPsbtInputs signedPsbt
        return .stop
      check .notComplete (!complete)
      Act.write { pb with ourPsbt := some signedPsbt }
      return .built unsignedPsbt

/-- The PSBT the maker finalises: as buyer, the two combined; as seller, our own one, since we signed
what we received. -/
def finalPsbt (pb : TradeState) (theirs ours : String) : Query String :=
  match getOrderType account pb with
  | .bid => rpc (.combinepsbt [theirs, ours])
  | .ask => pure ours

/-- The last part: our PSBT is there.  The taker shares it and waits from then on; the maker
broadcasts the transaction once the other side has signed as well. -/
def shareOrBroadcast : M TradeState (Option ProcessingMessage) := do
  let pb ← Act.read
  match pb.ourPsbt with
  | none => Act.fail (.check .ourPsbt)
  | some ours =>
      match getRole account pb with
      | .taker =>
          Act.write { pb with state := some .pending }
          return some { initProcessingMessage pb with psbt := some ours }
      | .maker =>
          match pb.theirPsbt with
          | none => return none
          | some theirs =>
              let psbt ← finalPsbt account pb theirs ours
              match ← rpc (.finalizepsbt psbt) with
              | none => return none
              | some hex =>
                  let _txid ← rpc (.sendrawtransaction hex)
                  Act.write { pb with state := some .pending }
                  return none

/-- The part of `HasReply` after the seller data has been exchanged. -/
def replyWithSellerData : M TradeState (Option ProcessingMessage) := do
  let pb ← Act.read
  match getOrderType account pb with
  | .ask =>
      if pb.theirPsbt = none then
        return none
      if pb.ourPsbt = none then
        let signed ← signAsSeller cfg account
        if !signed then
          return none
        shareOrBroadcast account
      else
        shareOrBroadcast account
  | .bid =>
      if pb.ourPsbt = none then
        match ← constructAsBuyer cfg account with
        | .stop => return none
        | .built unsignedPsbt =>
            -- a maker shares the unsigned transaction first
            if getRole account pb = .maker then
              return some { initProcessingMessage pb with psbt := some unsignedPsbt }
            shareOrBroadcast account
      else
        shareOrBroadcast account

/-- `Trade::HasReply`: the reply to send, if there is one. -/
def hasReply : M TradeState (Option ProcessingMessage) := do
  let pb ← Act.read
  if pb.getState ≠ .initiated then
    return none
  let created ← createSellerData account
  let pb ← Act.read
  if created then
    let sd := pb.sellerData.getD {}
    return some { initProcessingMessage pb with sellerData := some { sd with nameOutput := none } }
  if pb.sellerData = none then
    return none
  replyWithSellerData cfg account

/-! ## `Trade::Update` -/

/-- The loop of `Trade::Update` over the inputs: is one of them not available any more? -/
def anyInputSpent : List OutPoint → Query Bool
  | [] => pure false
  | out :: rest => do
      match ← rpc (.gettxout out) with
      | none => pure true
      | some _ => anyInputSpent rest

/-- `Trade::Update` on a pending trade. -/
def updatePending : M TradeState Unit := do
  let pb ← Act.read
  match pb.ourPsbt with
  | none => Act.fail (.check .ourPsbt)
  | some ours =>
      let decoded ← rpc (.decodepsbt ours)
      let (curHeight, gspState) ← rpc (.checktrade decoded.tx.btxid)
      let height : UInt64 := curHeight.toUInt64
      let n : UInt64 := cfg.confirmations.toInt64.toUInt64
      match gspState with
      | .confirmed confHeight =>
          check .confirmedHeight (confHeight.toUInt64 ≤ height)
          if confHeight.toUInt64 + n ≤ height + 1 then
            Act.write { pb with state := some .success }
          else
            Act.write { pb with conflictHeight := none }
      | .pending => Act.write { pb with conflictHeight := none }
      | .unknown =>
          let conflicted ← anyInputSpent decoded.tx.vin
          if !conflicted then
            Act.write { pb with conflictHeight := none }
          else match pb.conflictHeight with
            | none => Act.write { pb with conflictHeight := some height }
            | some h =>
                if h + n ≤ height + 1 then
                  Act.write { pb with state := some .failed }
                else pure ()

/-- `Trade::Update`.  Start time and clock are in seconds, the timeout is in milliseconds. -/
def updateTrade : M TradeState Unit := do
  let pb ← Act.read
  match pb.getState with
  | .initiated =>
      let now ← getCurrentTime
      if cfg.tradeTimeoutMs.toInt < (now.toInt - pb.startTime.toInt) * 1000 then
        Act.write { pb with state := some .abandoned }
      else pure ()
  | .pending => updatePending cfg
  | _ => pure ()

end Democrit
