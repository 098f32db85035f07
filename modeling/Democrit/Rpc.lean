import Democrit.Lib.Program
import Democrit.Proto

/-!
# What the daemon asks of the outside

Every question the modelled code puts to something outside of it: the JSON-RPC methods of Xaya Core
and of the `g/dem` GSP (`src/rpc-stubs`), the queries of the game's `AssetSpec` that look at the
game state, and the clock.  `Answer` says what can come back.  A JSON-RPC method either returns, or
raises a `JsonRpcException`, or returns JSON of a shape the caller's `CHECK`s refuse.

A decoded PSBT keeps every distinction the code makes: whether an output's `nameOp` is null, an
object or something else, which of its fields are there, and whether its value converts to an
amount.  Amounts are in satoshis on both sides of the interface, since `ChiAmountToJson` and
`ChiAmountFromJson` are exact.
-/

namespace Democrit

/-- A JSON value, as far as moves are built from them. -/
inductive Json where
  | null
  | bool (b : Bool)
  | int (i : Int)
  | str (s : String)
  | arr (l : List Json)
  | obj (members : List (String × Json))

/-- Setting a member of an object replaces the member of that name, if there is one. -/
def Json.setMember (key : String) (val : Json) : Json → Json
  | .obj members => .obj (members.filter (fun m => m.1 ≠ key) ++ [(key, val)])
  | _ => .obj [(key, val)]

/-- `xaya::uint256`, used for block hashes. -/
abbrev Uint256 : Type := BitVec 256

/-! ## Decoded PSBTs -/

/-- The `nameOp` object of an output script.  Xaya Core leaves out `name` or `value` when the bytes
are not valid in the configured encoding. -/
structure NameOp where
  op : String
  nameEncoding : String := "utf8"
  valueEncoding : String := "utf8"
  name : Option String
  value : Option String
  deriving DecidableEq, Repr

/-- What `scriptPubKey["nameOp"]` can be. -/
inductive NameOpField where
  | null
  | object (op : NameOp)
  | other
  deriving DecidableEq, Repr

/-- The `scriptPubKey` of an output.  `addresses` is absent unless it is an array. -/
structure ScriptPubKey where
  nameOp : NameOpField := .null
  addresses : Option (List String) := none
  address : Option String := none
  deriving DecidableEq, Repr

/-- A transaction output; `value` is what `ChiAmountFromJson` makes of it. -/
structure TxOut where
  value : Option Amount
  scriptPubKey : ScriptPubKey
  deriving DecidableEq, Repr

/-- The unsigned transaction of a PSBT: the `tx` field of `decodepsbt`. -/
structure Tx where
  btxid : String
  vin : List OutPoint
  vout : List TxOut
  deriving DecidableEq, Repr

/-- One entry of `inputs` in a decoded PSBT: the fields that carry signatures, and all others (UTXO
and key-derivation data). -/
structure PsbtInput where
  partialSignatures : List (String × String) := []
  finalScriptSig : Option String := none
  finalScriptWitness : Option (List String) := none
  other : List (String × String) := []
  deriving DecidableEq, Repr

/-- What `decodepsbt` returns. -/
structure Psbt where
  tx : Tx
  inputs : List PsbtInput
  deriving DecidableEq, Repr

/-! ## Questions and answers -/

/-- The state of a btxid as the `g/dem` GSP reports it.  The code treats every string but
`confirmed` and `unknown` as it treats `pending`. -/
inductive GspState where
  | unknown
  | pending
  | confirmed (height : UInt32)
  deriving DecidableEq, Repr

/-- The methods that go over JSON-RPC, directly or through the `AssetSpec`. -/
inductive Method where
  | getnewaddress
  | nameShow (name : String)
  | gettxout (out : OutPoint)
  | getblockheader (hash : Uint256)
  | decodepsbt (psbt : String)
  | walletcreatefundedpsbt (outputs : List (String × Amount)) (feeRate : Int32)
  | createpsbt (inputs : List OutPoint) (outputs : List (String × Amount))
  | namepsbt (psbt : String) (vout : ℕ) (op name value : String)
  | joinpsbts (psbts : List String)
  | walletprocesspsbt (psbt : String)
  | lockunspent (unlock : Bool) (outputs : List OutPoint)
  | combinepsbt (psbts : List String)
  | finalizepsbt (psbt : String)
  | sendrawtransaction (hex : String)
  | checktrade (btxid : String)
  | isAsset (asset : String)
  | canBuy (name asset : String) (n : Amount)
  | canSell (name asset : String) (n : Amount)
  deriving DecidableEq, Repr

/-- What each method returns when it does.

`gettxout` answers null, or gives the best block at which the output is unspent.
`getblockheader` gives the parent, which the genesis block has not.  `finalizepsbt` gives the raw
transaction if the PSBT is complete.  `CanSell` gives the block it looked at if it answers yes. -/
def Method.Reply : Method → Type
  | .getnewaddress => String
  | .nameShow _ => OutPoint
  | .gettxout _ => Option Uint256
  | .getblockheader _ => Option Uint256
  | .decodepsbt _ => Psbt
  | .walletcreatefundedpsbt _ _ => String
  | .createpsbt _ _ => String
  | .namepsbt _ _ _ _ _ => String
  | .joinpsbts _ => String
  | .walletprocesspsbt _ => String × Bool
  | .lockunspent _ _ => Bool
  | .combinepsbt _ => String
  | .finalizepsbt _ => Option String
  | .sendrawtransaction _ => String
  | .checktrade _ => UInt32 × GspState
  | .isAsset _ => Bool
  | .canBuy _ _ _ => Bool
  | .canSell _ _ _ => Option Uint256

/-- Why a call did not return a usable value. -/
inductive RpcError where
  /-- A `jsonrpc::JsonRpcException`. -/
  | exception
  /-- JSON of another shape than the caller asserts. -/
  | malformed
  deriving DecidableEq, Repr

/-- The questions: a JSON-RPC method, or `TradeManager::GetCurrentTime`. -/
inductive Call where
  | rpc (m : Method)
  | clock
  deriving DecidableEq, Repr

/-- The answers. -/
def Answer : Call → Type
  | .rpc m => Except RpcError m.Reply
  | .clock => Int64

/-- An exchange with the outside, and a whole conversation. -/
abbrev Ev : Type := Interaction.Event Call Answer
abbrev Conversation : Type := List Ev

/-- A method that returned. -/
abbrev Ev.returned (m : Method) (r : m.Reply) : Ev := ⟨.rpc m, .ok r⟩

/-- A method that did not. -/
abbrev Ev.failed (m : Method) (e : RpcError) : Ev := ⟨.rpc m, .error e⟩

/-! ## Failures -/

/-- The assertions of the modelled code.  A failing one aborts the process. -/
inductive Check where
  /-- The shape of a JSON-RPC reply. -/
  | replyShape
  /-- `CHECK_GT (units, 0)` in `GetTotalSat`. -/
  | unitsPositive
  /-- `CHECK (checker.GetTotalSat (total))` in `ConstructTransaction`. -/
  | totalComputable
  /-- `CHECK_GE (expectedTotal, 0)` in `CheckForSellerOutputs`. -/
  | totalNonNegative
  /-- The addresses of the seller data are there. -/
  | sellerAddresses
  /-- The name output of our own seller data is there. -/
  | nameOutput
  /-- The name and value encodings are UTF-8. -/
  | nameEncoding
  /-- Name and value of a name operation are there. -/
  | nameOpFields
  /-- `nameOp` is null if it is not an object. -/
  | nameOpNull
  /-- The value of an output is an amount. -/
  | outputValue
  /-- Signing did not change the unsigned transaction. -/
  | sameTx
  /-- Signing did not change the number of inputs. -/
  | sameInputs
  /-- The buyer constructs the transaction. -/
  | buyerConstructs
  /-- The PSBT a buyer signed is not complete. -/
  | notComplete
  /-- `our_psbt` is there. -/
  | ourPsbt
  /-- A confirmation is not above the current height. -/
  | confirmedHeight
  /-- `CHECK (msg.has_counterparty ())` in `ProcessMessage`. -/
  | counterparty
  /-- A taken order is one of our account. -/
  | ownAccount
  /-- The order to unlock exists. -/
  | orderExists
  /-- The order to unlock is locked. -/
  | orderLocked
  /-- An archived trade is finalised. -/
  | archivedState
  deriving DecidableEq, Repr

/-- How an operation can end other than by returning. -/
inductive Fail where
  /-- A `JsonRpcException` that was not caught. -/
  | exception
  /-- A failed assertion. -/
  | check (c : Check)
  deriving DecidableEq, Repr

/-- An operation on the mutable object `σ`. -/
abbrev M (σ α : Type) : Type := Interaction.Act Call Answer Fail σ α

/-- An operation that changes nothing of ours. -/
abbrev Query (α : Type) : Type := M Unit α

open Interaction

/-- Call a method.  A malformed reply trips one of the caller's shape assertions. -/
def rpc (m : Method) : Query m.Reply := do
  match (← Act.ask (.rpc m) : Answer (.rpc m)) with
  | .ok r => pure r
  | .error .exception => Act.fail .exception
  | .error .malformed => Act.fail (.check .replyShape)

/-- `TradeManager::GetCurrentTime`. -/
def getCurrentTime {σ : Type} : M σ Int64 := (Act.ask Call.clock : M σ (Answer .clock))

/-- `CHECK`. -/
def check {σ : Type} (c : Check) (b : Bool) : M σ Unit :=
  if b then pure () else Act.fail (.check c)

section

variable {σ : Type} {s : σ}

@[simp] lemma wp_rpc (m : Method) {Q : Conversation → Except Fail m.Reply → Unit → Prop} {u : Unit} :
    (rpc m).wp u Q ↔ (∀ r, Q [Ev.returned m r] (.ok r) u)
      ∧ Q [Ev.failed m .exception] (.error .exception) u
      ∧ Q [Ev.failed m .malformed] (.error (.check .replyShape)) u := by
  simp only [rpc, Act.wp_bind]
  constructor
  · intro h
    exact ⟨fun r => h (.ok r), h (.error .exception), h (.error .malformed)⟩
  · rintro ⟨hr, he, hm⟩ (e | r)
    · cases e with
      | exception => exact he
      | malformed => exact hm
    · exact hr r

@[simp] lemma wp_getCurrentTime {Q : Conversation → Except Fail Int64 → σ → Prop} :
    (getCurrentTime : M σ Int64).wp s Q ↔ ∀ t : Int64, Q [⟨.clock, t⟩] (.ok t) s := Iff.rfl

@[simp] lemma wp_check (c : Check) (b : Bool) {Q : Conversation → Except Fail Unit → σ → Prop} :
    (check c b).wp s Q ↔ (b = true → Q [] (.ok ()) s) ∧ (b = false → Q [] (.error (.check c)) s) := by
  cases b <;> simp [check]

end

end Democrit
