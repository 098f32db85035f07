import Democrit.Rpc

/-!
# `TradeChecker`

`src/checker.cpp`: what buyer and seller verify before they sign.  Each method splits into the
calls it makes and a pure part that judges the answers; the pure part returns `Except Check`, whose
error is the assertion that fails.

The price is an `int64_t` here although the order carries a `uint64`, so a price of `2^63` or more
has become negative by the time `GetTotalSat` sees it.
-/

namespace Democrit

open Interaction

/-- The parts of an `AssetSpec` that do not depend on the game state, the JSON writer that moves
are printed with, and the command-line flags. -/
structure Config where
  getGameId : String
  getTransferMove : (sender receiver asset : String) → Amount → Json
  writeString : Json → String
  confirmations : Int32 := 6
  feeRateWoNames : Int32 := 1000
  tradeTimeoutMs : Int32 := 30000

/-- `NAME_VALUE`: what is paid into a name output. -/
def nameValue : Amount := 1000000

/-- `MAX_BLOCK_ANCESTORS_CHECKED`. -/
def maxBlockAncestorsChecked : ℕ := 3

/-- `GetXayaName`. -/
def getXayaName (account : String) : String := "p/" ++ account

/-- `GetNameOutPoint`. -/
def getNameOutPoint (account : String) : Query OutPoint :=
  rpc (.nameShow (getXayaName account))

/-- The members of a `TradeChecker`. -/
structure TradeChecker where
  buyer : String
  seller : String
  asset : String
  price : Amount
  units : Amount
  deriving DecidableEq, Repr

/-- A pure judgement inside a method. -/
def judge {α : Type} : Except Check α → Query α
  | .ok a => pure a
  | .error c => Act.fail (.check c)

/-- The JSON value of a name update: the game's move, and an empty one for `g/dem`. -/
def nameUpdateJson (gameId : String) (move : Json) : Json :=
  let g := Json.setMember "dem" (.obj []) (Json.setMember gameId move (.obj []))
  Json.setMember "g" g (.obj [])

namespace TradeChecker

/-- `TradeChecker::GetNameUpdateValue`. -/
def getNameUpdateValue (cfg : Config) (ck : TradeChecker) : String :=
  let move := cfg.getTransferMove ck.seller ck.buyer ck.asset ck.units
  cfg.writeString (nameUpdateJson cfg.getGameId move)

/-- `TradeChecker::GetTotalSat`: the product wraps around, and dividing it back tells. -/
def getTotalSat (ck : TradeChecker) : Except Check (Option Amount) :=
  let total := ck.price * ck.units
  if ¬ 0 < ck.units then .error .unitsPositive
  else if total / ck.units ≠ ck.price then .ok none
  else .ok (some total)

end TradeChecker

/-- `IsBlockAncestor`, at most `n` blocks back. -/
def isBlockAncestor (ancestor : Uint256) : (child : Uint256) → (n : ℕ) → Query Bool
  | child, n =>
      if ancestor = child then pure true
      else match n with
        | 0 => pure false
        | n + 1 => do
            match ← rpc (.getblockheader child) with
            | none => pure false
            | some parent => isBlockAncestor ancestor parent n

namespace TradeChecker

/-- `TradeChecker::CheckForBuyerTrade`.  The outpoint is the output argument. -/
def checkForBuyerTrade (ck : TradeChecker) : Query (Option OutPoint) := do
  let valid ← rpc (.isAsset ck.asset)
  if !valid then return none
  let canBuy ← rpc (.canBuy ck.buyer ck.asset ck.units)
  if !canBuy then return none
  let nameInput ← getNameOutPoint ck.seller
  match ← rpc (.gettxout nameInput) with
  | none => return none
  | some utxoBlock =>
      match ← rpc (.canSell ck.seller ck.asset ck.units) with
      | none => return none
      | some gspBlock =>
          let ok ← isBlockAncestor utxoBlock gspBlock maxBlockAncestorsChecked
          if !ok then return none
          return some nameInput

end TradeChecker

/-- How many entries of `inputs` differ. -/
def countModified (before after : List PsbtInput) : ℕ :=
  (before.zip after).countP fun p => p.1 ≠ p.2

/-- The judgement of `CheckForBuyerSignature`: all inputs but one were modified. -/
def buyerSignature (before after : Psbt) : Except Check Bool :=
  if before.tx ≠ after.tx then .error .sameTx
  else if before.inputs.length ≠ after.inputs.length then .error .sameInputs
  else .ok (countModified before.inputs after.inputs + 1 = before.inputs.length)

/-- `MatchesAddress`. -/
def matchesAddress (spk : ScriptPubKey) (addr : String) : Bool :=
  spk.addresses = some [addr] || spk.address = some addr

/-- The loop of `CheckForSellerOutputs` over the outputs, with its two flags. -/
def scanOutputs (nameAddress chiAddress name value : String) (expectedTotal : Amount) :
    List TxOut → (foundChi foundName : Bool) → Except Check (Bool × Bool)
  | [], foundChi, foundName => .ok (foundChi, foundName)
  | out :: rest, foundChi, foundName =>
      match out.scriptPubKey.nameOp with
      | .object nameOp =>
          if nameOp.nameEncoding ≠ "utf8" then .error .nameEncoding
          else if nameOp.valueEncoding ≠ "utf8" then .error .nameEncoding
          else if ¬ (nameOp.name.isSome ∧ nameOp.value.isSome) then .error .nameOpFields
          else if nameOp.op ≠ "name_update" ∨ nameOp.name ≠ some name ∨ nameOp.value ≠ some value
              ∨ ¬ matchesAddress out.scriptPubKey nameAddress then
            scanOutputs nameAddress chiAddress name value expectedTotal rest foundChi foundName
          else scanOutputs nameAddress chiAddress name value expectedTotal rest foundChi true
      | .other => .error .nameOpNull
      | .null =>
          if ¬ matchesAddress out.scriptPubKey chiAddress then
            scanOutputs nameAddress chiAddress name value expectedTotal rest foundChi foundName
          else match out.value with
            | none => .error .outputValue
            | some payment =>
                if payment < expectedTotal then
                  scanOutputs nameAddress chiAddress name value expectedTotal rest foundChi foundName
                else scanOutputs nameAddress chiAddress name value expectedTotal rest true foundName

/-- The judgement of `CheckForSellerOutputs` on a decoded PSBT. -/
def sellerOutputs (cfg : Config) (ck : TradeChecker) (sd : SellerData) (psbt : Psbt) :
    Except Check Bool := do
  match ← ck.getTotalSat with
  | none => .ok false
  | some expectedTotal =>
      -- a zero total needs no output at all
      if ¬ 0 ≤ expectedTotal then .error .totalNonNegative
      else
        let (foundChi, foundName) ← scanOutputs (sd.nameAddress.getD "") (sd.chiAddress.getD "")
          (getXayaName ck.seller) (ck.getNameUpdateValue cfg) expectedTotal psbt.tx.vout
          (expectedTotal = 0) false
        .ok (foundChi && foundName)

/-- The judgement of `CheckForSellerSignature`: only the name input may have been modified. -/
def sellerSignature (nameOutput : OutPoint) (before after : Psbt) : Except Check Bool :=
  if before.tx ≠ after.tx then .error .sameTx
  else match before.tx.vin.findIdx? (· = nameOutput) with
    | none => .ok false
    | some inputIndex =>
        if before.inputs.length ≠ after.inputs.length then .error .sameInputs
        else .ok ((List.range before.inputs.length).all fun i =>
          i = inputIndex || before.inputs[i]? = after.inputs[i]?)

namespace TradeChecker

/-- `TradeChecker::CheckForBuyerSignature`. -/
def checkForBuyerSignature (beforeStr afterStr : String) : Query Bool := do
  let before ← rpc (.decodepsbt beforeStr)
  let after ← rpc (.decodepsbt afterStr)
  judge (buyerSignature before after)

/-- `TradeChecker::CheckForSellerOutputs`. -/
def checkForSellerOutputs (cfg : Config) (ck : TradeChecker) (psbt : String) (sd : SellerData) :
    Query Bool := do
  check .sellerAddresses (sd.chiAddress.isSome && sd.nameAddress.isSome)
  let decoded ← rpc (.decodepsbt psbt)
  judge (sellerOutputs cfg ck sd decoded)

/-- `TradeChecker::CheckForSellerSignature`. -/
def checkForSellerSignature (beforeStr afterStr : String) (sd : SellerData) : Query Bool := do
  match sd.nameOutput with
  | none => Act.fail (.check .nameOutput)
  | some nmOut =>
      let before ← rpc (.decodepsbt beforeStr)
      let after ← rpc (.decodepsbt afterStr)
      judge (sellerSignature nmOut before after)

end TradeChecker

end Democrit
