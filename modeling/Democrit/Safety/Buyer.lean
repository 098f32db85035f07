import Democrit.Safety.Evolution
import Democrit.Safety.Seller

/-!
# The buyer is safe

Whatever the counterparty sends and whatever fails in between, **a PSBT that we have signed as the
buyer pays for exactly what was agreed**.  It was built in a single call of `HasReply`, after the
check of the seller went through, and its transaction spends coins of our wallet and the seller's
name output, and has three kinds of outputs: the exact price to the seller, the name update that
transfers the assets to us, and our own change.

The promise refers to a recorded section of the run (`BuyerBuilt`), so that it says not only what
the transaction looks like but also when and after which checks it was made.
-/

namespace Democrit

open Interaction

variable {cfg : Config} {account : String} {W : Type} {E : Env Call Answer W}
  {decode : String → Psbt} {rawTx : String → Tx} {change : TxOut → Prop}

/-! ## What was built -/

/-- The transaction of our PSBT, in terms of the trade. -/
structure BuyerTx (cfg : Config) (account : String) (decode : String → Psbt)
    (change : TxOut → Prop) (t : TradeState) (talk : Conversation) (nameIn : OutPoint)
    (unsignedPsbt ours : String) : Prop where
  /-- Signing did not change it, and left exactly one input alone. -/
  tx : (decode ours).tx = (decode unsignedPsbt).tx
  signed : (decode unsignedPsbt).inputs.length = (decode ours).inputs.length ∧
    countModified (decode unsignedPsbt).inputs (decode ours).inputs + 1
      = (decode unsignedPsbt).inputs.length
  shape : ∃ (nameAddress chiAddress chiPart : String) (total : Amount) (pay nameOut : TxOut)
      (rest : List TxOut),
    (t.sellerData.getD {}).nameAddress = some nameAddress ∧
    (t.sellerData.getD {}).chiAddress = some chiAddress ∧
    Ev.returned (.walletcreatefundedpsbt [(chiAddress, total)] cfg.feeRateWoNames) chiPart ∈ talk ∧
    (decode ours).tx.vin.Perm ((decode chiPart).tx.vin ++ [nameIn]) ∧
    (decode ours).tx.vout.Perm (pay :: nameOut :: rest) ∧
    total.toInt = (t.order.getPriceSat.toNat * t.units.toNat : ℕ) ∧
    PaysExactly chiAddress total pay ∧
    UpdatesName nameAddress ("p/" ++ t.counterparty)
      (saleValue cfg t.counterparty account t.order.getAsset t.units) nameOut ∧
    ∀ out ∈ rest, change out

/-- One recorded section has checked the seller, and then built and signed our PSBT. -/
structure BuyerBuilt (cfg : Config) (account : String) (decode : String → Psbt)
    (change : TxOut → Prop) (log : List Record) (t : TradeState) (ours : String) : Prop where
  stored : t.sellerData.isSome
  built : ∃ rec ∈ log, ∃ (checked : Conversation) (nameIn : OutPoint) (unsignedPsbt : String),
    checked <:+: rec.talk ∧
    ((buildTradeChecker account t).checkForBuyerTrade ()).Exec checked (.ok (some nameIn), ()) ∧
    BuyerTx cfg account decode change t rec.talk nameIn unsignedPsbt ours

/-- As the buyer, the counterparty is the one the checker is told to be the seller. -/
lemma buildTradeChecker_bid {pb : TradeState} (h : getOrderType account pb = .bid) :
    buildTradeChecker account pb =
      { buyer := account, seller := pb.counterparty, asset := pb.order.getAsset,
        price := pb.order.getPriceSat.toInt64, units := pb.units.toInt64 } := by
  simp only [buildTradeChecker, h]

lemma updatesName_of_pays {addr name value : String} {v : Amount} {out : TxOut}
    (h : PaysExactly addr v out) :
    UpdatesName addr name value (withNameOp "name_update" name value out) :=
  ⟨_, rfl, rfl, rfl, rfl, h.2.1⟩

/-- **What the calls of `ConstructTransaction` build.** -/
lemma buildTx_outputs (hcore : BuildsPsbts decode rawTx change E) {ck : TradeChecker}
    {pb : TradeState} {nameIn : OutPoint} {total : Amount}
    {chiPart rawNamePart namePart psbt : String} {w w' : W}
    (hp : E.Path w (buildTx cfg ck pb nameIn total chiPart rawNamePart namePart psbt) w') :
    0 ≤ total.toInt ∧ (decode psbt).tx.vin.Perm ((decode chiPart).tx.vin ++ [nameIn]) ∧
    ∃ (pay nameOut : TxOut) (rest : List TxOut),
      PaysExactly ((pb.sellerData.getD {}).chiAddress.getD "") total pay ∧
      PaysExactly ((pb.sellerData.getD {}).nameAddress.getD "") nameValue nameOut ∧
      (∀ out ∈ rest, change out) ∧
      (decode psbt).tx.vout.Perm (pay :: withNameOp "name_update" (getXayaName pb.counterparty)
        (ck.getNameUpdateValue cfg) nameOut :: rest) := by
  obtain ⟨_, hfund, _, hcreate, _, hnamed, _, hjoin, _⟩ := hp
  obtain ⟨hpos, pay, rest, hpay, hrest, hchiOut⟩ := hcore.funds _ _ _ _ _ _ hfund
  obtain ⟨hnameIn, hnameOut⟩ := hcore.creates _ _ _ _ _ hcreate
  obtain ⟨hnamedIn, hnamedOut⟩ := hcore.names _ _ _ _ _ _ _ _ hnamed
  obtain ⟨hvin, hvout⟩ := hcore.joins _ _ _ _ hjoin
  simp only [List.map_cons, List.map_nil, List.flatten_cons, List.flatten_nil, List.append_nil]
    at hvin hvout
  -- the name part has one output, which carries the name update
  obtain ⟨nameOut, hone, hpays⟩ : ∃ out, (decode rawNamePart).tx.vout = [out] ∧
      PaysExactly ((pb.sellerData.getD {}).nameAddress.getD "") nameValue out := by
    cases hl : (decode rawNamePart).tx.vout with
    | nil => simp [hl] at hnameOut
    | cons out outs =>
        rw [hl] at hnameOut
        cases hnameOut with
        | cons hp hrest => cases hrest; exact ⟨out, rfl, hp⟩
  rw [hone, List.modify_zero_cons] at hnamedOut
  refine ⟨hpos, by rwa [hnamedIn, hnameIn] at hvin, pay, nameOut, rest, hpay, hpays, hrest, ?_⟩
  rw [hnamedOut] at hvout
  refine hvout.trans ((hchiOut.append_right _).trans ?_)
  rw [List.cons_append]
  exact List.Perm.cons _ (List.perm_append_singleton _ _)

lemma BuyerBuilds.tx (hdec : Decodes decode E) (hcore : BuildsPsbts decode rawTx change E)
    {pb : TradeState} {tr talk : Conversation} {nameIn : OutPoint} {unsignedPsbt ours : String}
    {w w' : W} (h : BuyerBuilds cfg account pb tr nameIn unsignedPsbt ours) (hp : E.Path w tr w')
    (htalk : tr <:+ talk) :
    BuyerTx cfg account decode change pb talk nameIn unsignedPsbt ours := by
  obtain ⟨_, _, _, _, _, _, _, _, _, hchi, hname, _⟩ := h.verified
  obtain ⟨checked, total, chiPart, rawNamePart, namePart, w₁, w₂, _, htotal, htr, _, hbuild, _,
    hsig⟩ := h.phases hdec hp
  have hmem : ∀ ev ∈ tr, ev ∈ talk := fun ev hev => htalk.subset hev
  obtain ⟨hpos, hvin, pay, nameOut, rest, hpay, hpays, hrest, hvout⟩ := buildTx_outputs hcore hbuild
  obtain ⟨htx, hlen, hmod⟩ := buyerSignature_ok hsig
  obtain ⟨nameAddress, hname⟩ := Option.isSome_iff_exists.mp hname
  obtain ⟨chiAddress, hchi⟩ := Option.isSome_iff_exists.mp hchi
  rw [hchi, Option.getD_some] at hpay
  rw [hname, Option.getD_some] at hpays
  -- price and units are what the order and the taker say
  obtain ⟨hunits, hexact⟩ := getTotalSat_some htotal
  rw [buildTradeChecker_bid h.isBid] at hunits hexact
  dsimp only at hunits hexact
  rw [hexact] at hpos
  rw [signed_product hunits hpos] at hexact
  refine ⟨htx.symm, ⟨hlen, hmod.mp rfl⟩, nameAddress, chiAddress, chiPart, total, pay,
    withNameOp "name_update" (getXayaName pb.counterparty)
      ((buildTradeChecker account pb).getNameUpdateValue cfg) nameOut, rest, hname, hchi, ?_, ?_, ?_,
    hexact, hpay, ?_, hrest⟩
  · refine hmem _ ?_
    rw [htr, buildTx, hchi]
    simp
  · rwa [← htx]
  · rwa [← htx]
  · have := @updatesName_of_pays nameAddress (getXayaName pb.counterparty)
      ((buildTradeChecker account pb).getNameUpdateValue cfg) _ _ hpays
    rwa [buildTradeChecker_bid h.isBid] at this ⊢

/-! ## Nothing breaks it -/

/-- The promise only looks at what is written once. -/
lemma BuyerBuilt.congr {log : List Record} {t t' : TradeState} {ours : String}
    (h : BuyerBuilt cfg account decode change log t ours) (hframe : Frame t t')
    (hsd : t'.sellerData = t.sellerData) : BuyerBuilt cfg account decode change log t' ours := by
  obtain ⟨rec, hrec, checked, nameIn, unsignedPsbt, hsub, hx, htx, hsigned, hshape⟩ := h.built
  have hck : buildTradeChecker account t' = buildTradeChecker account t := by
    simp only [buildTradeChecker, hframe.getOrderType, hframe.order, hframe.units,
      hframe.counterparty]
  refine ⟨by rw [hsd]; exact h.stored, rec, hrec, checked, nameIn, unsignedPsbt, hsub,
    by rwa [hck], htx, hsigned, ?_⟩
  rwa [hsd, hframe.order, hframe.units, hframe.counterparty]

lemma BuyerBuilt.mono {log log' : List Record} {t : TradeState} {ours : String}
    (h : BuyerBuilt cfg account decode change log t ours) (hsub : log ⊆ log') :
    BuyerBuilt cfg account decode change log' t ours := by
  obtain ⟨rec, hrec, hrest⟩ := h.built
  exact ⟨h.stored, rec, hsub hrec, hrest⟩

/-- The invariant of single trades. -/
def BuyerInv (cfg : Config) (account : String) (decode : String → Psbt) (change : TxOut → Prop)
    (log : List Record) (t : TradeState) : Prop :=
  getOrderType account t = .bid → ∀ ours, t.ourPsbt = some ours →
    BuyerBuilt cfg account decode change log t ours

lemma BuyerInv.congr {log : List Record} {t t' : TradeState}
    (h : BuyerInv cfg account decode change log t) (hframe : Frame t t')
    (hsd : t'.sellerData = t.sellerData) (hours : t'.ourPsbt = t.ourPsbt) :
    BuyerInv cfg account decode change log t' := by
  intro hbid ours ho
  rw [hframe.getOrderType] at hbid
  rw [hours] at ho
  exact (h hbid ours ho).congr hframe hsd

lemma BuyerInv.receives {log : List Record} {t : TradeState}
    (h : BuyerInv cfg account decode change log t) (msg : ProcessingMessage) :
    BuyerInv cfg account decode change log (handleMessage account msg t) := by
  have hrec := @handleMessage_spec account msg t
  generalize handleMessage account msg t = t' at hrec
  intro hbid ours hours
  rw [hrec.frame.getOrderType] at hbid
  have hours₀ : t.ourPsbt = some ours := by rw [hrec.eq] at hours; exact hours
  have hbuilt := h hbid ours hours₀
  refine hbuilt.congr hrec.frame ?_
  rcases hrec.sellerData with h | ⟨_, hnone, _⟩
  · exact h
  · have := hbuilt.stored
    rw [hnone] at this
    simp at this

lemma BuyerInv.replies (hdec : Decodes decode E) (hcore : BuildsPsbts decode rawTx change E)
    {log : List Record} {rec : Record} {t t' : TradeState} {tr : Conversation}
    {r : Except Fail (Option ProcessingMessage)} {w w' : W}
    (h : BuyerInv cfg account decode change log t) (htalk : tr <:+ rec.talk) (hp : E.Path w tr w')
    (hout : HasReply.Outcome cfg account t tr r t') :
    BuyerInv cfg account decode change (log ++ [rec]) t' := by
  have later : BuyerInv cfg account decode change (log ++ [rec]) t := fun hbid ours hours =>
    (h hbid ours hours).mono (List.subset_append_left _ _)
  have pending : BuyerInv cfg account decode change (log ++ [rec]) { t with state := some .pending } :=
    later.congr ⟨rfl, rfl, rfl, rfl, rfl⟩ rfl rfl
  have asSeller : ∀ {tr psbt} (st : Option TradeStatus), SellerSigns cfg account t tr psbt →
      BuyerInv cfg account decode change (log ++ [rec])
        { t with ourPsbt := some psbt, state := st } := by
    intro tr psbt st hs hbid
    have hask := hs.isAsk
    rw [show getOrderType account t = .bid from hbid] at hask
    simp at hask
  have built : ∀ {nameIn unsignedPsbt signedPsbt} (st : Option TradeStatus),
      t.sellerData.isSome → BuyerBuilds cfg account t tr nameIn unsignedPsbt signedPsbt →
      BuyerInv cfg account decode change (log ++ [rec])
        { t with ourPsbt := some signedPsbt, state := st } := by
    intro nameIn unsignedPsbt signedPsbt st hsd hb _ ours hours
    obtain rfl := Option.some.inj hours
    have htx := hb.tx hdec hcore hp htalk
    obtain ⟨checked, _, _, _, _, _, _, hx, _, _, _, htr, _⟩ := hb.verified
    have hchecked : checked <:+: rec.talk := by
      obtain ⟨pre, hpre⟩ := htalk
      rw [htr, List.append_assoc] at hpre
      exact ⟨pre, _, by rw [List.append_assoc, hpre]⟩
    have : BuyerBuilt cfg account decode change (log ++ [rec]) t signedPsbt :=
      ⟨hsd, rec, by simp, checked, nameIn, unsignedPsbt, hchecked, hx, htx⟩
    exact this.congr ⟨rfl, rfl, rfl, rfl, rfl⟩ rfl
  cases hout with
  | rest => exact later
  | nameLeaked => exact later
  | sendsSellerData _ hask _ =>
      intro hbid
      rw [show getOrderType account t = .bid from hbid] at hask
      simp at hask
  | sellerShares _ _ _ hs _ => exact asSeller _ hs
  | sellerKeeps _ _ _ hs _ _ _ => exact asSeller _ hs
  | sellerBroadcasts _ _ _ hs _ _ => exact asSeller _ hs
  | coinsLeaked => exact later
  | coinsReleased => exact later
  | buyerOffers _ hsd hb _ => exact built _ hsd hb
  | buyerShares _ hsd hb _ => exact built _ hsd hb
  | shares => exact pending
  | broadcasts => exact pending

lemma BuyerInv.updates {log : List Record} {t t' : TradeState} {tr : Conversation}
    {r : Except Fail Unit} (h : BuyerInv cfg account decode change log t)
    (hout : Update.Outcome t tr r t') : BuyerInv cfg account decode change log t' := by
  cases hout with
  | keeps _ _ => exact h.congr ⟨rfl, rfl, rfl, rfl, rfl⟩ rfl rfl
  | fails _ => exact h
  | abandons _ _ => exact h.congr ⟨rfl, rfl, rfl, rfl, rfl⟩ rfl rfl
  | settles _ _ _ _ => exact h.congr ⟨rfl, rfl, rfl, rfl, rfl⟩ rfl rfl

lemma buyerRule (hdec : Decodes decode E) (hcore : BuildsPsbts decode rawTx change E) :
    TradeRule cfg E account (BuyerInv cfg account decode change) where
  blank _ := fun _ _ h => by simp at h
  new _ _ _ _ _ _ _ := fun _ _ h => by simp [newTrade] at h
  later _ _ _ h := fun hbid ours hours => (h hbid ours hours).mono (List.subset_append_left _ _)
  receives _ msg _ h := h.receives msg
  replies _ _ _ _ _ _ _ _ h htalk hp hout := h.replies hdec hcore htalk hp hout
  updates _ _ _ _ h hout := h.updates hout

/-! ## Every run -/

/-- **Buyer safety.**  In every run, a PSBT that we signed as the buyer was built as described; it and
the seller data are never replaced; and a transaction that we broadcast as the buyer is that of
our PSBT, whatever the counterparty sent. -/
theorem buyer_safe (hdec : Decodes decode E) (hcore : BuildsPsbts decode rawTx change E)
    {x : Sys × W} (hr : (system cfg E account).Reachable x) :
    (∀ t, x.1.Knows t → getOrderType account t = .bid → ∀ ours, t.ourPsbt = some ours →
      BuyerBuilt cfg account decode change x.1.log t ours) ∧
    (x.1.halted = false → ∀ x', (system cfg E account).Later x x' → ∀ t t', x.1.Knows t →
      x'.1.Knows t' → t.serial = t'.serial →
        WrittenOnce t.ourPsbt t'.ourPsbt ∧ WrittenOnce t.sellerData t'.sellerData) ∧
    (∀ rec ∈ x.1.log, ∀ hex ∈ broadcasts rec.talk,
      ∃ msg t t', rec.Processes msg t t' ∧ getRole account t' = .maker ∧
        (getOrderType account t' = .bid → ∃ ours, t'.ourPsbt = some ours ∧
          rawTx hex = (decode ours).tx ∧ BuyerBuilt cfg account decode change x.1.log t' ours)) := by
  have rule := @buyerRule cfg account W E decode rawTx change hdec hcore
  refine ⟨fun t hk => rule.holds hr t hk, ?_, ?_⟩
  · intro hh x' hl t t' hk hk' heq
    have hev := later_evolves hr hh hl hk hk' heq
    exact ⟨hev.ourPsbt, hev.sellerData⟩
  · intro rec hrec hex hhex
    obtain ⟨y, z, hy, hs, hl⟩ := reachable_record hr rec hrec
    obtain ⟨hsec, hpre, hpost⟩ := section_of_step hs.1
    have hacc : rec.pre.account = account := by rw [hpre]; exact reachable_account hy
    obtain ⟨msg, t, t', r, hproc, hout, _⟩ :=
      processes_of_release hsec (Or.inr (List.ne_nil_of_mem hhex))
    obtain ⟨before, after, _, _, htrades⟩ := hproc.trades
    rw [hacc] at hout
    rcases hasReply_broadcasts hout with
      hnone | ⟨hmaker, _, _, _, hex', ours, theirs, fin, hb, hours, _, hfin, hsub⟩
    · rw [hnone] at hhex
      simp at hhex
    · rw [hb, List.mem_singleton] at hhex
      subst hhex
      refine ⟨msg, t, t', hproc, by rw [hout.frame.getRole]; exact hmaker, fun hbid => ?_⟩
      have hknown : z.1.Knows t' := Or.inl (by rw [← hpost, htrades]; simp)
      refine ⟨ours, hours, ?_, (rule.holds (hy.step hs) t' hknown hbid ours hours).mono (log_subset hl)⟩
      have promised : ∀ ev ∈ fin, ∃ w w', E w ev w' := fun ev hev =>
        Env.event_of_path hs.2 (hsub hev)
      rcases hfin with ⟨hask, _⟩ | ⟨_, psbt, rfl⟩
      · rw [← hout.frame.getOrderType, hbid] at hask
        simp at hask
      · obtain ⟨w₁, w₁', hcomb⟩ := promised (Ev.returned (.combinepsbt [theirs, ours]) psbt) (by simp)
        obtain ⟨w₂, w₂', hfinal⟩ := promised (Ev.returned (.finalizepsbt psbt) (some hex)) (by simp)
        rw [hcore.finalises _ _ _ _ hfinal, hcore.combines _ _ _ _ hcomb ours (by simp)]

/-! ### A purchase

We take a sell order for two units at five satoshis each: the seller's addresses come in, and we
build the transaction, sign our part of it, and send it. -/

/-- The PSBTs of the purchase. -/
def purchaseDecode (p : String) : Psbt :=
  let pay : TxOut := ⟨some 10, { addresses := some ["chi address"] }⟩
  let rest : TxOut := ⟨some 990, { addresses := some ["change"] }⟩
  let raw : TxOut := ⟨some nameValue, { addresses := some ["name address"] }⟩
  let named := withNameOp "name_update" "p/seller" "buyer gets 2 gold" raw
  if p = "coins" then ⟨⟨"", [⟨"coins", 1⟩], [pay, rest]⟩, [{}]⟩
  else if p = "name" then ⟨⟨"", [⟨"name", 0⟩], [raw]⟩, [{}]⟩
  else if p = "update" then ⟨⟨"", [⟨"name", 0⟩], [named]⟩, [{}]⟩
  else
    let signature : PsbtInput :=
      { partialSignatures := if p = "joined" then [] else [("key", "signature")] }
    ⟨⟨"purchase", [⟨"coins", 1⟩, ⟨"name", 0⟩], [pay, rest, named]⟩, [signature, {}]⟩

/-- A wallet, a node and a game for the purchase. -/
def purchaseScript (_ : Unit) : (c : Call) → Answer c × Unit
  | .clock => ((0 : Int64), ())
  | .rpc (.isAsset _) => ((.ok true : Except RpcError Bool), ())
  | .rpc (.canBuy _ _ _) => ((.ok true : Except RpcError Bool), ())
  | .rpc (.canSell _ _ _) => ((.ok (some 7) : Except RpcError (Option Uint256)), ())
  | .rpc (.nameShow _) => ((.ok ⟨"name", 0⟩ : Except RpcError OutPoint), ())
  | .rpc (.gettxout _) => ((.ok (some 7) : Except RpcError (Option Uint256)), ())
  | .rpc (.decodepsbt p) => ((.ok (purchaseDecode p) : Except RpcError Psbt), ())
  | .rpc (.walletcreatefundedpsbt outs _) =>
      ((if outs = [("chi address", 10)] then .ok "coins" else .error .exception :
        Except RpcError String), ())
  | .rpc (.createpsbt ins outs) =>
      ((if ins = [⟨"name", 0⟩] ∧ outs = [("name address", nameValue)] then .ok "name"
        else .error .exception : Except RpcError String), ())
  | .rpc (.namepsbt p n op name value) =>
      ((if p = "name" ∧ n = 0 ∧ op = "name_update" ∧ name = "p/seller" ∧ value = "buyer gets 2 gold"
        then .ok "update" else .error .exception : Except RpcError String), ())
  | .rpc (.joinpsbts ps) =>
      ((if ps = ["coins", "update"] then .ok "joined" else .error .exception :
        Except RpcError String), ())
  | .rpc (.walletprocesspsbt p) =>
      ((.ok (p ++ ", signed", false) : Except RpcError (String × Bool)), ())
  | .rpc _ => (.error .exception, ())

/-- The seller's order. -/
def purchaseOrder : Order where
  account := some "seller"
  id := some 7
  asset := some "gold"
  maxUnits := 3
  type := some .ask
  priceSat := some 5

/-- The message with the seller's addresses. -/
def purchaseMessage : ProcessingMessage where
  counterparty := some "seller"
  identifier := some "seller\n7"
  sellerData := some ⟨some "name address", some "chi address", none⟩

/-- The schedule of the purchase. -/
def purchaseSchedule : List Sched :=
  [.start (.takeOrder purchaseOrder 2), .run 0, .start (.processMessage purchaseMessage), .run 1,
    .run 1]

lemma purchase_change : BuildsPsbts purchaseDecode (fun _ => ⟨"", [], []⟩)
    (fun out => out = ⟨some 990, { addresses := some ["change"] }⟩) (Env.ofScript purchaseScript) where
  funds := by
    intro w addr total feeRate p w' h
    have h := answer_of_returned h
    simp only [purchaseScript] at h
    split_ifs at h with hc
    simp only [List.cons.injEq, Prod.mk.injEq, and_true] at hc
    obtain ⟨rfl, rfl⟩ := hc
    obtain rfl := Except.ok.inj h
    exact ⟨by decide, ⟨some 10, { addresses := some ["chi address"] }⟩,
      [⟨some 990, { addresses := some ["change"] }⟩], ⟨rfl, rfl, rfl⟩, by simp, List.Perm.refl _⟩
  creates := by
    intro w ins outs p w' h
    have h := answer_of_returned h
    simp only [purchaseScript] at h
    split_ifs at h with hc
    obtain ⟨rfl, rfl⟩ := hc
    obtain rfl := Except.ok.inj h
    exact ⟨rfl, .cons ⟨rfl, rfl, rfl⟩ .nil⟩
  names := by
    intro w p n op name value q w' h
    have h := answer_of_returned h
    simp only [purchaseScript] at h
    split_ifs at h with hc
    obtain ⟨rfl, rfl, rfl, rfl, rfl⟩ := hc
    obtain rfl := Except.ok.inj h
    exact ⟨rfl, rfl⟩
  joins := by
    intro w ps p w' h
    have h := answer_of_returned h
    simp only [purchaseScript] at h
    split_ifs at h with hc
    subst hc
    obtain rfl := Except.ok.inj h
    exact ⟨List.Perm.refl _, List.Perm.refl _⟩
  combines := fun w ps p w' h => absurd h (not_returned rfl)
  finalises := fun w p hex w' h => absurd h (not_returned rfl)

lemma purchase_builds : BuildsPsbts purchaseDecode (fun _ => ⟨"", [], []⟩)
    (fun out => out.scriptPubKey.addresses = some ["change"]) (Env.ofScript purchaseScript) :=
  purchase_change.mono fun out hout => by rw [hout]

/-- The purchase ends with a PSBT that was built in this run. -/
theorem buyer_safe_purchase : ∃ (x : Sys × Unit) (t : TradeState),
    (system sampleConfig (Env.ofScript purchaseScript) "buyer").Reachable x ∧
    t ∈ x.1.state.trades ∧ t.getState = .pending ∧ getOrderType "buyer" t = .bid ∧
    BuyerBuilt sampleConfig "buyer" purchaseDecode
      (fun out => out.scriptPubKey.addresses = some ["change"]) x.1.log t "joined, signed" := by
  obtain ⟨x, hr, hP⟩ := Sys.exists_reachable sampleConfig purchaseScript "buyer" () purchaseSchedule
    (fun x => x.1.state.trades.any fun t => t.getState = .pending &&
      getOrderType "buyer" t = .bid && t.ourPsbt = some "joined, signed") (by decide +kernel)
  obtain ⟨t, ht, hprop⟩ := List.any_eq_true.mp hP
  simp only [Bool.and_eq_true, decide_eq_true_eq] at hprop
  have hdec : Decodes purchaseDecode (Env.ofScript purchaseScript) := by
    intro w p d w' h
    exact (Except.ok.inj (answer_of_returned h)).symm
  exact ⟨x, t, hr, ht, hprop.1.1, hprop.1.2,
    (buyer_safe hdec purchase_builds hr).1 t (Or.inl ht) hprop.1.2 _ hprop.2⟩

end Democrit
