import Democrit.Safety.Assets

/-!
# What a signature transfers

In the game of non-fungible assets, a move says who gets how many of which asset.  `NfTransfer.read`
reads this off the value of a name update, as anybody can who sees the transaction.

**What we have signed transfers what was agreed**, whether we sell or buy: the transaction of our
PSBT updates the name of the seller, and its value is read as the transfer of the trade's units of
its asset to the buyer (`signed_transfers`).  This is so whatever the counterparty has sent.
-/

namespace Democrit

open Interaction

variable {account : String} {W : Type} {E : Env Call Answer W} {decode : String → Psbt}

/-! ## Moves -/

/-- What a move of the game says. -/
structure NfTransfer where
  receiver : String
  asset : String
  units : Int64
  deriving DecidableEq, Repr

/-- The transfer in the value of a name update. -/
def NfTransfer.read (value : Json) : Option NfTransfer := do
  let move ← (← value.member "g").member NfAssetSpec.getGameId
  let transfer ← move.member "t"
  let asset ← transfer.member "a"
  let m ← (← asset.member "m").string?
  let a ← (← asset.member "a").string?
  let units ← (← transfer.member "n").int64?
  let receiver ← (← transfer.member "r").string?
  return { receiver, asset := m ++ "\n" ++ a, units }

lemma int64_toInt (n : Int64) : Json.int64? (.int n.toInt) = some n := by
  rw [Json.int64?, if_pos ⟨Int64.le_toInt n, Int64.toInt_lt n⟩, Int64.ofInt_toInt]

/-- **A move is read as what it was made for.** -/
lemma read_of_move {sender receiver asset : String} {n : Amount} {move : Json}
    (h : NfAssetSpec.getTransferMove sender receiver asset n = some move) :
    NfTransfer.read (nameUpdateJson NfAssetSpec.getGameId move) = some ⟨receiver, asset, n⟩ := by
  have hsplits : Splits asset :=
    isSome_getTransferMove.mp (Option.isSome_iff_exists.mpr ⟨move, h⟩)
  obtain ⟨m, a, _, hasset, hjson⟩ := split_asset hsplits
  have hparts : String.ofList m ++ "\n" ++ String.ofList a = asset := by
    refine String.toList_inj.mp ?_
    rw [hasset]
    simp
  rw [NfAssetSpec.getTransferMove, hjson] at h
  obtain rfl := Option.some.inj h
  -- the two members of the asset
  have hm : (Json.obj [("m", .str (String.ofList m)), ("a", .str (String.ofList a))]).member "m"
      = some (.str (String.ofList m)) := rfl
  have ha : (Json.obj [("m", .str (String.ofList m)), ("a", .str (String.ofList a))]).member "a"
      = some (.str (String.ofList a)) := rfl
  rw [← hparts]
  simp [NfTransfer.read, nameUpdateJson, NfAssetSpec.getGameId, Json.string?, int64_toInt, hm, ha]

/-- `parse` reads what `writeString` has written, as far as moves are concerned. -/
def ParsesMoves (parse : String → Option Json) (writeString : Json → String) : Prop :=
  ∀ sender receiver asset n move, NfAssetSpec.getTransferMove sender receiver asset n = some move →
    parse (writeString (nameUpdateJson NfAssetSpec.getGameId move))
      = some (nameUpdateJson NfAssetSpec.getGameId move)

/-- What a value says to who parses it. -/
def readValue (parse : String → Option Json) (value : String) : Option NfTransfer :=
  (parse value).bind NfTransfer.read

lemma readValue_saleValue {parse : String → Option Json} {writeString : Json → String}
    (hparse : ParsesMoves parse writeString) {seller buyer asset : String} {units : UInt64}
    (h : Splits asset) : readValue parse (saleValue (nfConfig writeString) seller buyer asset units)
      = some ⟨buyer, asset, units.toInt64⟩ := by
  obtain ⟨move, hmove⟩ := Option.isSome_iff_exists.mp
    (@isSome_getTransferMove asset seller buyer units.toInt64 |>.mpr h)
  have hvalue : saleValue (nfConfig writeString) seller buyer asset units
      = writeString (nameUpdateJson NfAssetSpec.getGameId move) := by
    simp [saleValue, nfConfig, hmove]
  rw [readValue, hvalue, hparse _ _ _ _ _ hmove]
  exact read_of_move hmove

/-! ## What was signed -/

/-- What the two sides of a trade have agreed on. -/
def agreedTransfer (account : String) (t : TradeState) : NfTransfer where
  receiver := (buildTradeChecker account t).buyer
  asset := t.order.getAsset
  units := t.units.toInt64

/-- The transaction of a PSBT updates the name of the seller, and this transfers what was agreed. -/
def TransfersAgreed (account : String) (decode : String → Psbt) (parse : String → Option Json)
    (t : TradeState) (ours : String) : Prop :=
  ∃ out ∈ (decode ours).tx.vout, ∃ nameAddress value,
    UpdatesName nameAddress (getXayaName (buildTradeChecker account t).seller) value out ∧
    readValue parse value = some (agreedTransfer account t)

section Signed

variable {parse : String → Option Json} {writeString : Json → String} {t : TradeState} {ours : String}

/-- What we sign as the seller. -/
lemma SellerSafe.transfers (hparse : ParsesMoves parse writeString)
    (h : SellerSafe (nfConfig writeString) account decode t ours)
    (hask : getOrderType account t = .ask) (hsplits : Splits t.order.getAsset) :
    TransfersAgreed account decode parse t ours := by
  obtain ⟨nameAddress, _, _, _, _, _, _, _, ⟨out, hout, hupdates⟩, _⟩ := h.stored
  have hread := @readValue_saleValue parse writeString hparse account t.counterparty _ t.units hsplits
  have hck : (buildTradeChecker account t).seller = account ∧
      (buildTradeChecker account t).buyer = t.counterparty := by
    rw [buildTradeChecker, hask]
    exact ⟨rfl, rfl⟩
  refine ⟨out, hout, nameAddress, _, ?_, hread.trans ?_⟩
  · rw [hck.1]
    exact hupdates
  · rw [agreedTransfer, hck.2]

/-- What we sign as the buyer. -/
lemma BuyerTx.transfers {change : TxOut → Prop} {talk : Conversation} {nameIn : OutPoint}
    {unsignedPsbt : String} (hparse : ParsesMoves parse writeString)
    (h : BuyerTx (nfConfig writeString) account decode change t talk nameIn unsignedPsbt ours)
    (hbid : getOrderType account t = .bid) (hsplits : Splits t.order.getAsset) :
    TransfersAgreed account decode parse t ours := by
  obtain ⟨nameAddress, _, _, _, pay, nameOut, rest, _, _, _, _, hvout, _, _, hupdates, _⟩ := h.shape
  have hread := @readValue_saleValue parse writeString hparse t.counterparty account _ t.units hsplits
  have hck := buildTradeChecker_bid hbid
  refine ⟨nameOut, hvout.mem_iff.mpr (by simp), nameAddress, _, ?_, hread.trans ?_⟩
  · rw [hck]
    exact hupdates
  · rw [agreedTransfer, hck]

/-- A transaction is built after `IsAsset` has said yes. -/
lemma BuyerBuilt.splits {fromHex : String → Option Uint256} {cfg : Config} {change : TxOut → Prop}
    (hE : ∀ w ev w', E w ev w' → NfAnswers fromHex ev) {x : Sys × W}
    (hr : (system cfg E account).Reachable x)
    (h : BuyerBuilt cfg account decode change x.1.log t ours) : Splits t.order.getAsset := by
  obtain ⟨rec, hrec, checked, nameIn, _, ⟨former, latter, htalk⟩, hx, _⟩ := h.built
  obtain ⟨y, z, _, ⟨_, hpath⟩, _⟩ := reachable_record hr rec hrec
  have hpath : E.Path y.2 rec.talk z.2 := hpath
  rw [← htalk, List.append_assoc] at hpath
  obtain ⟨w, _, hpath⟩ := Env.path_append.mp hpath
  obtain ⟨w', hpath, _⟩ := Env.path_append.mp hpath
  have hasked := Act.wpIn_iff.mp (@asset_of_checkForBuyerTrade W E (buildTradeChecker account t) w ())
    checked _ _ w' hx hpath
  obtain ⟨w₁, w₁', he⟩ := hasked (some nameIn) rfl rfl
  exact onlyAssets_nf hE w₁ w₁' _ he

/-- **What we have signed transfers what was agreed.**  In every state of every run of a daemon for
non-fungible assets, whatever the counterparties and the GSP say: if a trade that is active or still
being handled has a PSBT of ours, and is a purchase, or against an own order, or about a string that
splits, then the transaction of the PSBT updates the name of the seller with a value that is read as
the transfer of exactly the units of the trade, of its asset, to the buyer. -/
theorem signed_transfers {fromHex : String → Option Uint256} {rawTx : String → Tx}
    {change : TxOut → Prop} (hE : ∀ w ev w', E w ev w' → NfAnswers fromHex ev)
    (hparse : ParsesMoves parse writeString) (hdec : Decodes decode E)
    (hcore : BuildsPsbts decode rawTx change E) {x : Sys × W}
    (h : (system (nfConfig writeString) E account).Reachable x) (hrun : x.1.halted = false)
    (hk : x.1.Knows t) (hours : t.ourPsbt = some ours)
    (hcase : getOrderType account t = .bid ∨ getRole account t = .maker ∨ Splits t.order.getAsset) :
    TransfersAgreed account decode parse t ours := by
  cases htype : getOrderType account t with
  | bid =>
      have hbuilt := (buyerRule hdec hcore).holds h t hk htype ours hours
      obtain ⟨_, _, _, _, _, _, _, htx⟩ := hbuilt.built
      exact htx.transfers hparse htype (hbuilt.splits hE h)
  | ask =>
      have hsafe := (sellerRule hdec).holds h t hk htype ours hours
      refine hsafe.transfers hparse htype ?_
      rcases hcase with hbid | hmaker | hsplits
      · rw [htype] at hbid
        cases hbid
      · exact reachable_maker_asset (onlyAssets_nf hE) h hrun hk hmaker
      · exact hsplits

end Signed

/-! ### Two swords

We take a bid for two swords.  Moves are written with both numbers in them unary. -/

/-- A number, and what comes after it. -/
def unary (n : ℕ) (rest : List Char) : List Char := List.replicate n '1' ++ '\n' :: rest

/-- The number in front. -/
def readUnary (text : List Char) : ℕ × List Char :=
  let n := (text.takeWhile fun c => c = '1').length
  (n, text.drop (n + 1))

lemma readUnary_unary (n : ℕ) (rest : List Char) : readUnary (unary n rest) = (n, rest) := by
  have hlen : ((unary n rest).takeWhile fun c => c = '1').length = n := by
    rw [unary, List.takeWhile_append_of_pos (by simp)]
    simp
  have hdrop : (unary n rest).drop (n + 1) = rest := by
    rw [unary, List.drop_append]
    simp
  rw [readUnary, hlen, hdrop]

/-- The units, the length of the receiver's name, the name, and the asset. -/
def NfTransfer.write (transfer : NfTransfer) : String :=
  String.ofList (unary transfer.units.toUInt64.toNat (unary transfer.receiver.toList.length
    (transfer.receiver.toList ++ transfer.asset.toList)))

/-- The move that was written. -/
def parseTransfer (text : String) : Option Json :=
  let (units, text) := readUnary text.toList
  let (len, text) := readUnary text
  let move := NfAssetSpec.getTransferMove "" (String.ofList (text.take len))
    (String.ofList (text.drop len)) (UInt64.ofNat units).toInt64
  move.map (nameUpdateJson NfAssetSpec.getGameId)

/-- The writer of the daemon. -/
def writeTransfer (value : Json) : String := ((NfTransfer.read value).map NfTransfer.write).getD ""

lemma parsesMoves_writeTransfer : ParsesMoves parseTransfer writeTransfer := by
  intro sender receiver asset n move hmove
  have hsame : NfAssetSpec.getTransferMove "" receiver asset n = some move := hmove
  rw [writeTransfer, read_of_move hmove, Option.map_some, Option.getD_some, parseTransfer,
    NfTransfer.write, String.toList_ofList]
  simp only [readUnary_unary]
  simp [hsame]

/-- The bid. -/
def swordBid : Order := saleOrder.inSwords

/-- The buyer's PSBT, as in a sale of gold. -/
def swordDecode (p : String) : Psbt where
  tx :=
    { btxid := "sale"
      vin := [⟨"coins", 0⟩, ⟨"name", 0⟩]
      vout :=
        [⟨some 10, { addresses := some ["address 1"] }⟩,
          ⟨some nameValue, { nameOp := .object ⟨"name_update", "utf8", "utf8", some "p/seller",
            some "11\n11111\nbuyersmith\nsword"⟩, addresses := some ["address 0"] }⟩] }
  inputs := (saleDecode p).inputs

/-- The wallet of a seller. -/
def swordScript (n : ℕ) : (c : Call) → Answer c × ℕ
  | .rpc (.decodepsbt p) => ((.ok (swordDecode p) : Except RpcError Psbt), n)
  | .rpc (.walletcreatefundedpsbt _ _) => (.error .exception, n)
  | .rpc (.createpsbt _ _) => (.error .exception, n)
  | c => nfScript n c

lemma nfAnswers_swordScript (w : ℕ) (ev : Ev) (w' : ℕ) (h : Env.ofScript swordScript w ev w') :
    NfAnswers sampleFromHex ev :=
  nfAnswers_of_script (fun _ _ => rfl) (fun _ _ _ _ => rfl) (fun _ _ _ _ => rfl) w ev w' h

lemma swordScript_builds : BuildsPsbts swordDecode (fun _ => ⟨"", [], []⟩) (fun _ => False)
    (Env.ofScript swordScript) where
  funds _ _ _ _ _ _ h := absurd h (not_returned rfl)
  creates _ _ _ _ _ h := absurd h (not_returned rfl)
  names _ _ _ _ _ _ _ _ h := absurd h (not_returned rfl)
  joins _ _ _ _ h := absurd h (not_returned rfl)
  combines _ _ _ _ h := absurd h (not_returned rfl)
  finalises _ _ _ _ h := absurd h (not_returned rfl)

/-- **The sale of two swords**: what we sign transfers them to the buyer. -/
theorem signed_transfers_swords : ∃ (x : Sys × ℕ) (t : TradeState),
    (system (nfConfig writeTransfer) (Env.ofScript swordScript) "seller").Reachable x ∧
    t ∈ x.1.state.trades ∧ t.ourPsbt = some "psbt, signed" ∧
    agreedTransfer "seller" t = ⟨"buyer", "smith\nsword", 2⟩ ∧
    TransfersAgreed "seller" swordDecode parseTransfer t "psbt, signed" := by
  obtain ⟨x, hr, hQ⟩ := Sys.exists_reachable (nfConfig writeTransfer) swordScript "seller" 0
    [.start (.takeOrder swordBid 2), .run 0, .start (.processMessage saleMessage), .run 1, .run 1]
    (fun x => !x.1.halted && x.1.state.trades.any fun t => t.ourPsbt = some "psbt, signed" &&
      agreedTransfer "seller" t = ⟨"buyer", "smith\nsword", 2⟩) (by decide +kernel)
  simp only [Bool.and_eq_true, Bool.not_eq_true', List.any_eq_true, decide_eq_true_eq] at hQ
  obtain ⟨hrun, t, ht, hours, hagreed⟩ := hQ
  have hdec : Decodes swordDecode (Env.ofScript swordScript) := by
    intro w p d w' h
    exact (Except.ok.inj (answer_of_returned h)).symm
  have hsplits : Splits t.order.getAsset := by
    rw [show t.order.getAsset = "smith\nsword" from congrArg NfTransfer.asset hagreed]
    decide
  exact ⟨x, t, hr, ht, hours, hagreed, signed_transfers nfAnswers_swordScript
    parsesMoves_writeTransfer hdec swordScript_builds hr hrun (Or.inl ht) hours
    (Or.inr (Or.inr hsplits))⟩

end Democrit
