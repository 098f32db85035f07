import Democrit.Safety.Buyer
import Democrit.Safety.Totals

/-!
# Builder and verifier agree

The buyer builds the transaction, and the seller verifies it against data of their own.  Which of the
two is the maker depends on the type of the order, and each side works out from that who buys, who
sells, and what the name update has to say.

`sides_agree` is the first half: **both sides arrive at the same `TradeChecker`**.
`builder_accepted` is the second: whatever `ConstructTransaction` returns, the outputs of it pass the
seller's check, since the scan finds the payment and the name update wherever they are, and
whatever change there is besides.
-/

namespace Democrit

open Interaction

variable {cfg : Config} {W : Type} {E : Env Call Answer W} {decode : String → Psbt}
  {rawTx : String → Tx} {change : TxOut → Prop}

/-! ## Two sides of one order -/

/-- The trades that maker and taker of an order have about it, at whatever stage. -/
structure Sides (o : Order) (units : Amount) (maker taker : String) (pbMaker pbTaker : TradeState) :
    Prop where
  account : o.getAccount = maker
  differ : maker ≠ taker
  makers : ∃ now serial, Frame (newTrade o units taker now serial) pbMaker
  takers : ∃ now serial, Frame (newTrade o units maker now serial) pbTaker

/-- **The two sides have opposite types, and the same checker.** -/
lemma sides_agree {o : Order} {units : Amount} {maker taker : String} {makers takers : TradeState}
    (h : Sides o units maker taker makers takers) :
    getOrderType maker makers = (getOrderType taker takers).flip ∧
    buildTradeChecker maker makers = buildTradeChecker taker takers := by
  obtain ⟨_, _, hmaker⟩ := h.makers
  obtain ⟨_, _, htaker⟩ := h.takers
  have hroles : getRole maker makers = .maker ∧ getRole taker takers = .taker := by
    simp [getRole, hmaker.order, htaker.order, newTrade, h.account, h.differ]
  have htypes : getOrderType maker makers = o.getType ∧
      getOrderType taker takers = o.getType.flip := by
    simp [getOrderType, hroles.1, hroles.2, hmaker.order, htaker.order, newTrade]
  constructor
  · rw [htypes.1, htypes.2]
    cases o.getType <;> rfl
  · rw [buildTradeChecker, buildTradeChecker, htypes.1, htypes.2, hmaker.order, htaker.order,
      hmaker.units, htaker.units, hmaker.counterparty, htaker.counterparty]
    cases o.getType <;> rfl

/-- The total of either side can be computed. -/
lemma Sides.hasTotal {o : Order} {units : Amount} {maker taker : String}
    {makers takers : TradeState} (h : Sides o units maker taker makers takers) (hunits : 0 < units)
    (htotal : o.getPriceSat.toNat * units.toUInt64.toNat < 2 ^ 63) : HasTotal maker makers := by
  obtain ⟨_, _, hmaker⟩ := h.makers
  refine hasTotal_of_lt ?_ ?_
  · rw [hmaker.units]
    simpa [newTrade] using hunits
  · rw [hmaker.units, hmaker.order]
    exact htotal

/-! ## What is built passes -/

/-- The outputs that the buyer's calls lead to pass the seller's check. -/
lemma sellerOutputs_of_built (hcore : BuildsPsbts decode rawTx change E)
    (hchange : ∀ out, change out → out.scriptPubKey.nameOp = .null ∧ out.value.isSome)
    {ck : TradeChecker} {pb : TradeState} {nameIn : OutPoint} {total : Amount}
    {chiPart rawNamePart namePart psbt : String} {sd : SellerData} {w w' : W}
    (htotal : ck.getTotalSat = .ok (some total)) (hseller : ck.seller = pb.counterparty)
    (hchi : (pb.sellerData.getD {}).chiAddress = sd.chiAddress)
    (hname : (pb.sellerData.getD {}).nameAddress = sd.nameAddress)
    (hp : E.Path w (buildTx cfg ck pb nameIn total chiPart rawNamePart namePart psbt) w') :
    sellerOutputs cfg ck sd (decode psbt) = .ok true := by
  obtain ⟨hpos, _, pay, nameOut, rest, hpay, hpays, hrest, hvout⟩ := buildTx_outputs hcore hp
  rw [hchi] at hpay
  rw [hname] at hpays
  have hnonneg : (0 : Amount) ≤ total := by rwa [Int64.le_iff_toInt_le]
  have hup := @updatesName_of_pays (sd.nameAddress.getD "") (getXayaName pb.counterparty)
    (ck.getNameUpdateValue cfg) _ _ hpays
  -- all outputs can be read: the payment, the name update, and the change
  have hplain : ∀ out : TxOut, out.scriptPubKey.nameOp = .null → out.value.isSome →
      WellFormed out ∧ Readable (sd.chiAddress.getD "") out := by
    refine fun out hnull hvalue => ⟨Or.inl hnull, fun op hop => ?_, fun _ _ => hvalue⟩
    rw [hnull] at hop
    cases hop
  have hnamed : ∀ op name value, WellFormed (withNameOp op name value nameOut) ∧
      Readable (sd.chiAddress.getD "") (withNameOp op name value nameOut) := by
    intro op name value
    refine ⟨Or.inr ⟨_, rfl, rfl, rfl⟩, fun op' hop => ?_, nofun⟩
    obtain rfl := NameOpField.object.inj hop
    exact ⟨rfl, rfl⟩
  have hgood : ∀ out ∈ (decode psbt).tx.vout,
      WellFormed out ∧ Readable (sd.chiAddress.getD "") out := by
    intro out hout
    rcases List.mem_cons.mp (hvout.subset hout) with rfl | hout
    · exact hplain _ hpay.1 (by rw [hpay.2.2]; rfl)
    · rcases List.mem_cons.mp hout with rfl | hout
      · exact hnamed _ _ _
      · exact hplain _ (hchange _ (hrest _ hout)).1 (hchange _ (hrest _ hout)).2
  obtain ⟨c, n, hok, hc, hn⟩ := @scanOutputs_of_readable (sd.nameAddress.getD "")
    (sd.chiAddress.getD "") (getXayaName ck.seller) (ck.getNameUpdateValue cfg) total _
    (fun out hout => (hgood out hout).1) (fun out hout => (hgood out hout).2) (total = 0) false
  have hfoundChi : c = true :=
    hc (Or.inr ⟨pay, hvout.mem_iff.mpr (by simp), hpay.1, hpay.2.1, total, hpay.2.2, le_refl _⟩)
  have hfoundName : n = true := by
    rw [← hseller] at hup hvout
    exact hn (Or.inr ⟨_, hvout.mem_iff.mpr (by simp), hup⟩)
  rw [sellerOutputs_eq htotal hnonneg, hok, hfoundChi, hfoundName]
  rfl

/-- Whatever the buyer builds from the addresses in `sd`, the seller's check of the outputs with `sd`
accepts it, provided that the PSBT can be decoded. -/
def Accepts (cfg : Config) (E : Env Call Answer W) (buyer : String) (buyers : TradeState)
    (seller : String) (sellers : TradeState) : Prop :=
  ∀ (sd : SellerData) (nameIn : OutPoint) (psbt : String) (built checked : Conversation)
    (r : Except Fail Bool) (w₁ w₁' w₂ w₂' : W),
    (buyers.sellerData.getD {}).chiAddress = sd.chiAddress →
    (buyers.sellerData.getD {}).nameAddress = sd.nameAddress →
    (constructTransaction cfg buyer (buildTradeChecker buyer buyers) buyers nameIn ()).Exec built
      (.ok psbt, ()) → E.Path w₁ built w₁' →
    ((buildTradeChecker seller sellers).checkForSellerOutputs cfg psbt sd ()).Exec checked (r, ()) →
    E.Path w₂ checked w₂' →
    r = .ok true ∨ ∃ e, checked = [Ev.failed (.decodepsbt psbt) e]

/-- Only a buyer builds. -/
lemma isBid_of_constructTransaction {account : String} {ck : TradeChecker} {pb : TradeState}
    {nameIn : OutPoint} {tr : Conversation} {psbt : String}
    (hx : (constructTransaction cfg account ck pb nameIn ()).Exec tr (.ok psbt, ())) :
    getOrderType account pb = .bid := by
  by_contra hne
  have hwp : (constructTransaction cfg account ck pb nameIn).wp () fun _ r _ =>
      r = .error (.check .buyerConstructs) := by
    simp [constructTransaction, hne]
  cases Act.wp_iff.mp hwp _ _ _ hx

lemma accepts_of_same (hdec : Decodes decode E) (hcore : BuildsPsbts decode rawTx change E)
    (hchange : ∀ out, change out → out.scriptPubKey.nameOp = .null ∧ out.value.isSome)
    {buyer seller : String} {buyers sellers : TradeState}
    (hck : buildTradeChecker buyer buyers = buildTradeChecker seller sellers) :
    Accepts cfg E buyer buyers seller sellers := by
  intro sd nameIn psbt built checked r w₁ w₁' w₂ w₂' hchi hname hbuilt hp₁ hchecked hp₂
  have hbid := isBid_of_constructTransaction hbuilt
  rw [← hck] at hchecked
  cases Act.wp_iff.mp (constructTransaction_spec _ _ _) _ _ _ hbuilt with
  | @done total chiPart rawNamePart namePart _ htotal hsome hsome' =>
      have hpass : sellerOutputs cfg (buildTradeChecker buyer buyers) sd (decode psbt) = .ok true :=
        sellerOutputs_of_built hcore hchange htotal (by rw [buildTradeChecker_bid hbid]) hchi hname
          hp₁
      rw [hchi] at hsome
      rw [hname] at hsome'
      have hwp : ((buildTradeChecker buyer buyers).checkForSellerOutputs cfg psbt sd).wp ()
          fun tr r _ => (∀ d, Ev.returned (.decodepsbt psbt) d ∈ tr → d = decode psbt) →
            r = .ok true ∨ ∃ e, tr = [Ev.failed (.decodepsbt psbt) e] := by
        simp only [TradeChecker.checkForSellerOutputs, Act.wp_bind, wp_check, wp_rpc,
          Act.afterBind_ok, Act.afterBind_error, wp_judge, hsome, hsome']
        refine ⟨fun _ => ⟨fun d => ⟨fun b hb hd => Or.inl ?_, fun e he hd => ?_⟩,
          fun _ => Or.inr ⟨_, rfl⟩, fun _ => Or.inr ⟨_, rfl⟩⟩, by simp⟩
        · obtain rfl := hd d (by simp)
          obtain rfl := Except.ok.inj (hb.symm.trans hpass)
          rfl
        · obtain rfl := hd d (by simp)
          rw [hpass] at he
          cases he
      exact Act.wp_iff.mp hwp _ _ _ hchecked fun d hd => hdec.of_path hp₂ hd

/-- **The seller accepts what the buyer builds.**  For every order and every positive number of units
with a total below `2 ^ 63`, whatever its bounds are: the two sides have the same checker and opposite
types, the total is computed exactly, and a PSBT that the buyer's `ConstructTransaction` returns passes
the seller's `CheckForSellerOutputs`, whichever side is the buyer. -/
theorem builder_accepted (hdec : Decodes decode E) (hcore : BuildsPsbts decode rawTx change E)
    (hchange : ∀ out, change out → out.scriptPubKey.nameOp = .null ∧ out.value.isSome)
    {o : Order} {units : Amount} {maker taker : String} {pbMaker pbTaker : TradeState}
    (hsides : Sides o units maker taker pbMaker pbTaker) (hunits : 0 < units)
    (htotal : o.getPriceSat.toNat * units.toUInt64.toNat < 2 ^ 63) :
    buildTradeChecker maker pbMaker = buildTradeChecker taker pbTaker ∧
    getOrderType maker pbMaker = (getOrderType taker pbTaker).flip ∧
    (∃ total, (buildTradeChecker maker pbMaker).getTotalSat = .ok (some total) ∧
      total.toInt = (o.getPriceSat.toNat * units.toUInt64.toNat : ℕ)) ∧
    Accepts cfg E maker pbMaker taker pbTaker ∧ Accepts cfg E taker pbTaker maker pbMaker := by
  obtain ⟨htype, hck⟩ := sides_agree hsides
  refine ⟨hck, htype, ?_, accepts_of_same hdec hcore hchange hck,
    accepts_of_same hdec hcore hchange hck.symm⟩
  obtain ⟨total, htot, hnonneg⟩ := hsides.hasTotal hunits htotal
  obtain ⟨hu, hexact⟩ := getTotalSat_some htot
  obtain ⟨_, _, hmaker⟩ := hsides.makers
  have hpos : 0 ≤ total.toInt := Int64.le_iff_toInt_le.mp hnonneg
  rw [hexact] at hpos
  refine ⟨total, htot, ?_⟩
  rw [hexact]
  simpa [buildTradeChecker, hmaker.order, hmaker.units, newTrade] using signed_product hu hpos

/-- The two sides of the purchase, when the addresses have come in. -/
def purchaseBuyers : TradeState :=
  { newTrade purchaseOrder 2 "seller" 0 1 with
    sellerData := some ⟨some "name address", some "chi address", none⟩ }

def purchaseSellers : TradeState :=
  { newTrade purchaseOrder 2 "buyer" 3 1 with
    sellerData := some ⟨some "name address", some "chi address", some ⟨"name", 0⟩⟩ }

/-- The transaction of the purchase is built, and accepted. -/
theorem builder_accepted_purchase :
    ((constructTransaction sampleConfig "buyer" (buildTradeChecker "buyer" purchaseBuyers)
      purchaseBuyers ⟨"name", 0⟩ ()).play purchaseScript ()).1 = (.ok "joined", ()) ∧
    (((buildTradeChecker "seller" purchaseSellers).checkForSellerOutputs sampleConfig "joined"
      (purchaseSellers.sellerData.getD {}) ()).play purchaseScript ()).1.1 = .ok true := by
  have hbuilt : ((constructTransaction sampleConfig "buyer" (buildTradeChecker "buyer" purchaseBuyers)
      purchaseBuyers ⟨"name", 0⟩ ()).play purchaseScript ()).1 = (.ok "joined", ()) := by
    decide +kernel
  refine ⟨hbuilt, ?_⟩
  have hdec : Decodes purchaseDecode (Env.ofScript purchaseScript) := by
    intro w p d w' h
    exact (Except.ok.inj (answer_of_returned h)).symm
  have hsides : Sides purchaseOrder 2 "seller" "buyer" purchaseSellers purchaseBuyers :=
    ⟨rfl, by decide, ⟨3, 1, rfl, rfl, rfl, rfl, rfl⟩, ⟨0, 1, rfl, rfl, rfl, rfl, rfl⟩⟩
  have haccepts := (@builder_accepted sampleConfig _ _ _ _ _ hdec purchase_change
    (by rintro _ rfl; exact ⟨rfl, rfl⟩) _ _ _ _ _ _ hsides (by decide) (by decide)).2.2.2.2
  have hx := Prog.exec_play purchaseScript (constructTransaction sampleConfig "buyer"
    (buildTradeChecker "buyer" purchaseBuyers) purchaseBuyers ⟨"name", 0⟩ ()) ()
  rw [hbuilt] at hx
  have hx' := Prog.exec_play purchaseScript
    ((buildTradeChecker "seller" purchaseSellers).checkForSellerOutputs sampleConfig "joined"
      (purchaseSellers.sellerData.getD {}) ()) ()
  rcases haccepts (purchaseSellers.sellerData.getD {}) ⟨"name", 0⟩ "joined" _ _ _ _ _ _ _ rfl rfl hx
    (Prog.path_play purchaseScript _ ()) hx' (Prog.path_play purchaseScript _ ()) with hok | ⟨e, he⟩
  · exact hok
  · cases he

end Democrit
