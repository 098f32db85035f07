import Democrit.Safety.Cooperation
import Democrit.Spec.Wallet

/-!
# What one message brings about

With an outside that cooperates, every step of a trade that can fail succeeds.  Here that is shown
for the parts of `HasReply` one by one, and then for the sections that a message goes through.

There are four turns in a trade: the seller sends its addresses (`hasReply_sendsAddresses`), the buyer
builds and signs (`hasReply_buys`), the seller signs (`hasReply_sells`), and a buyer who is the maker
combines the two PSBTs (`hasReply_finishes`).  What a side has built or signed is handed on as `Offer`
and `Bought`, which **name a PSBT by what it decodes to and not by how it came about**, so that the
other side can use them for a text that it has from the network.

The sections are about any state that holds the trade (`State.Holds`): the loop of `ProcessMessage`
passes over the other trades and leaves them as they are (`process_runs`).
-/

namespace Democrit

open Interaction

variable {W : Type} {cfg : Config} {account : String} {mine : OutPoint → Prop} {F : Format}
  {C : NodeState} {P : Party W} {E : Env Call Answer W} {w : W} {u : Unit}

/-! ## The buyer -/

/-- The search finds an ancestor that is near enough. -/
lemma isBlockAncestor_finds (h : Cooperates F C P E)
    (hheaders : ∀ w b (r : Option Uint256) w',
      E w (Ev.returned (.getblockheader b) r) w' → r = C.parent b) (ancestor : Uint256) :
    ∀ (n : ℕ) (child : Uint256) (k : ℕ) (w : W), k ≤ n →
      Ancestry.back C.parent k child = some ancestor →
      (isBlockAncestor ancestor child n).wpIn E w u fun _ _ r _ => r = .ok true := by
  intro n
  induction n with
  | zero =>
      intro child k w hk hback
      obtain rfl : k = 0 := by omega
      obtain rfl : child = ancestor := Option.some.inj hback
      simp [isBlockAncestor]
  | succ n ih =>
      intro child k w hk hback
      rw [isBlockAncestor]
      split
      · simp
      · rename_i hne
        cases k with
        | zero => exact absurd (Option.some.inj hback).symm hne
        | succ k =>
            obtain ⟨p, hp, hback⟩ := Option.bind_eq_some_iff.mp hback
            have hm : ¬ (Method.getblockheader child).Refused F C P := by
              intro hr
              have hnone : C.parent child = none := hr
              simp [hp] at hnone
            simp only [Act.wpIn_bind, h.wpIn_rpc hm, Act.afterBindIn_ok]
            intro r w' he
            obtain rfl : r = some p := (hheaders _ _ _ _ he).trans hp
            exact ih p k w' (by omega) hback

lemma checkForBuyerTrade_succeeds (h : Cooperates F C P E) {ck : TradeChecker} {nameIn : OutPoint}
    (hp : Permits C nameIn ck E) :
    ck.checkForBuyerTrade.wpIn E w u fun _ _ r _ => r = .ok (some nameIn) := by
  simp only [TradeChecker.checkForBuyerTrade, Act.wpIn_bind,
    h.wpIn_rpc (m := .isAsset _) id, Act.afterBindIn_ok]
  intro valid w₁ h₁
  obtain rfl := hp.isAsset _ _ _ h₁
  simp only [Bool.not_true, Bool.false_eq_true, if_false, Act.wpIn_bind,
    h.wpIn_rpc (m := .canBuy _ _ _) id, Act.afterBindIn_ok]
  intro can w₂ h₂
  obtain rfl := hp.canBuy _ _ _ h₂
  simp only [Bool.not_true, Bool.false_eq_true, if_false, Act.wpIn_bind,
    h.wpIn_getNameOutPoint hp.registered, h.wpIn_rpc (m := .gettxout _) id, Act.afterBindIn_ok]
  intro w₃ h₃ utxo w₄ h₄
  obtain ⟨b, rfl⟩ := Option.isSome_iff_exists.mp (hp.unspent _ _ _ h₄)
  simp only [Act.wpIn_bind, h.wpIn_rpc (m := .canSell _ _ _) id, Act.afterBindIn_ok]
  intro gsp w₅ h₅
  obtain ⟨g, rfl⟩ := Option.isSome_iff_exists.mp (hp.canSell _ _ _ h₅)
  obtain ⟨k, hk, hback⟩ := hp.close _ _ _ _ _ h₄ h₅
  simp only [Act.wpIn_bind]
  refine Act.wpIn_mono (isBlockAncestor_finds h hp.headers b _ g k w₅ hk hback) ?_
  rintro w' tr r _ rfl
  simp

/-- The transaction of a purchase: it spends coins of the buyer's and the name, and its outputs are
what the seller checks. -/
structure Offer (cfg : Config) (ck : TradeChecker) (sd : SellerData) (mine : OutPoint → Prop)
    (nameIn : OutPoint) (p : Psbt) : Prop where
  coins : ∃ coins, coins ≠ [] ∧ (∀ o ∈ coins, mine o) ∧ p.tx.vin.Perm (coins ++ [nameIn])
  outputs : sellerOutputs cfg ck sd p = .ok true

lemma Offer.congr {ck : TradeChecker} {sd : SellerData} {nameIn : OutPoint} {p q : Psbt}
    (h : Offer cfg ck sd mine nameIn p) (htx : q.tx = p.tx) : Offer cfg ck sd mine nameIn q := by
  refine ⟨by rw [htx]; exact h.coins, ?_⟩
  have houtputs := h.outputs
  rw [sellerOutputs] at houtputs ⊢
  rwa [htx]

/-- Only the value of the name update depends on the game. -/
lemma Offer.config {cfg' : Config} {ck : TradeChecker} {sd : SellerData} {nameIn : OutPoint} {p : Psbt}
    (h : Offer cfg ck sd mine nameIn p)
    (hgame : ck.getNameUpdateValue cfg' = ck.getNameUpdateValue cfg) :
    Offer cfg' ck sd mine nameIn p := by
  refine ⟨h.coins, ?_⟩
  have houtputs := h.outputs
  rw [sellerOutputs] at houtputs ⊢
  rwa [hgame]

/-- Two PSBTs can be joined if the second one spends one output that the first one does not. -/
lemma joins_spends {p q : String} {nameIn : OutPoint} (hp : F.psbt p) (hq : F.psbt q)
    (hvin : (F.decode q).tx.vin = [nameIn]) (hnodup : (F.decode p).tx.vin.Nodup)
    (hnot : nameIn ∉ (F.decode p).tx.vin) : ¬ (Method.joinpsbts [p, q]).Refused F C P := by
  rintro (hlen | ⟨r, hr, hno⟩ | htwice)
  · simp at hlen
  · rcases List.mem_pair.mp hr with rfl | rfl
    · exact hno hp
    · exact hno hq
  · refine htwice ?_
    simp only [List.map_cons, List.map_nil, List.flatten_cons, List.flatten_nil, List.append_nil, hvin]
    exact hnodup.append (List.nodup_singleton _) (List.disjoint_singleton.mpr hnot)

lemma constructTransaction_succeeds (h : Cooperates F C P E) {ck : TradeChecker} {pb : TradeState}
    {nameIn : OutPoint} {total : Amount} {nameAddress chiAddress : String} {sd : SellerData}
    (hbid : getOrderType P.account pb = .bid) (hck : ck.seller = pb.counterparty)
    (htotal : ck.getTotalSat = .ok (some total)) (hnonneg : 0 ≤ total)
    (hfunds : total.toInt ≤ P.funds) (hforeign : ¬ P.mine nameIn)
    (hsd : pb.sellerData = some ⟨some nameAddress, some chiAddress, none⟩)
    (hname : sd.nameAddress = some nameAddress) (hchi : sd.chiAddress = some chiAddress) :
    (constructTransaction cfg P.account ck pb nameIn).wpIn E w u fun _ _ r _ =>
      ∃ psbt, r = .ok psbt ∧ F.psbt psbt ∧ Unsigned (F.decode psbt) ∧
        Offer cfg ck sd P.mine nameIn (F.decode psbt) := by
  have hfund : ¬ (Method.walletcreatefundedpsbt [((pb.sellerData.getD {}).chiAddress.getD "", total)]
      cfg.feeRateWoNames).Refused F C P := by
    have hpos : 0 ≤ total.toInt := Int64.le_iff_toInt_le.mp hnonneg
    rintro (hneg | hlt)
    · simp at hneg
      omega
    · simp at hlt
      omega
  have hcreate : ¬ (Method.createpsbt [nameIn]
      [((pb.sellerData.getD {}).nameAddress.getD "", nameValue)]).Refused F C P := by
    rintro ⟨out, hout, hneg⟩
    obtain rfl := List.mem_singleton.mp hout
    exact absurd (show nameValue.toInt < 0 from hneg) (by decide)
  simp only [constructTransaction, Act.wpIn_bind, wpIn_check, hbid, decide_true, hsd, Option.getD_some,
    Option.isSome_some, Bool.and_self, wpIn_judge, htotal, Act.afterBindIn_ok, Except.ok.injEq,
    forall_eq', forall_const, reduceCtorEq, Act.afterBindIn_error, false_imp_iff, and_true,
    implies_true, Bool.true_eq_false]
  refine (h.wpIn_rpc hfund).mpr fun chiPart w₁ h₁ => ?_
  simp only [Act.afterBindIn_ok, Act.wpIn_bind]
  refine (h.wpIn_rpc hcreate).mpr fun rawNamePart w₂ h₂ => ?_
  obtain ⟨hraw, hunsigned⟩ := h.creates _ _ _ _ _ h₂
  obtain ⟨hins, houts⟩ := h.builds.creates _ _ _ _ _ h₂
  simp only [Act.afterBindIn_ok, Act.wpIn_bind]
  have hupdate : ¬ (Method.namepsbt rawNamePart 0 "name_update" (getXayaName pb.counterparty)
      (ck.getNameUpdateValue cfg)).Refused F C P := by
    rintro (hno | hlen)
    · exact hno hraw
    · simp [← houts.length_eq] at hlen
  refine (h.wpIn_rpc hupdate).mpr fun namePart w₃ h₃ => ?_
  obtain ⟨hchiPart, hcoins, hnodup, hmine, hfunded⟩ := h.coins _ _ _ _ _ h₁
  obtain ⟨hnamePart, hupdated⟩ := h.updates _ _ _ _ _ _ _ _ h₃
  have hvin : (F.decode namePart).tx.vin = [nameIn] :=
    (h.builds.names _ _ _ _ _ _ _ _ h₃).1.trans hins
  -- the name is not among the coins
  have hjoin : ¬ (Method.joinpsbts [chiPart, namePart]).Refused F C P :=
    joins_spends hchiPart hnamePart hvin hnodup fun hm => hforeign (hmine _ hm)
  rw [Act.afterBindIn_ok, joinPsbts]
  refine (h.wpIn_rpc hjoin).mpr fun (psbt : String) w₄ h₄ => ?_
  have hpath : E.Path w (buildTx cfg ck pb nameIn total chiPart rawNamePart namePart psbt) w₄ := by
    exact ⟨w₁, h₁, w₂, h₂, w₃, h₃, w₄, h₄, rfl⟩
  obtain ⟨hpsbt, hjoined⟩ := h.joins _ _ _ _ h₄
  refine ⟨psbt, rfl, hpsbt, hjoined ?_, ⟨_, hcoins, hmine, h.builds.vin hpath⟩, ?_⟩
  · exact List.forall_mem_cons.mpr ⟨hfunded, List.forall_mem_singleton.mpr (hupdated hunsigned)⟩
  · exact sellerOutputs_of_built h.builds h.readable htotal hck (by rw [hsd, hchi]; rfl)
      (by rw [hsd, hname]; rfl) hpath

/-- What a buyer has built and signed. -/
structure Bought (F : Format) (cfg : Config) (ck : TradeChecker) (sd : SellerData)
    (mine : OutPoint → Prop) (nameIn : OutPoint) (p q : String) : Prop where
  psbt : F.psbt p ∧ F.psbt q
  unsigned : Unsigned (F.decode p)
  offer : Offer cfg ck sd mine nameIn (F.decode p)
  signs : Signs mine (F.decode p) (F.decode q)

lemma checkForBuyerSignature_succeeds (h : Cooperates F C P E) {p q : String} (hp : F.psbt p)
    (hq : F.psbt q) (hsig : buyerSignature (F.decode p) (F.decode q) = .ok true) :
    (TradeChecker.checkForBuyerSignature p q).wpIn E w u fun _ _ r _ => r = .ok true := by
  rw [TradeChecker.checkForBuyerSignature, Act.wpIn_bind]
  refine (h.wpIn_decodepsbt hp).mpr fun w₁ _ => ?_
  refine (Act.wpIn_bind _ _).mpr ((h.wpIn_decodepsbt hq).mpr fun w₂ _ => ?_)
  refine (wpIn_judge _).mpr ?_
  rw [hsig]
  simp

/-- The total of the trade is there, and the buyer can pay it. -/
def Affords (P : Party W) (t : TradeState) : Prop :=
  ∃ total, (buildTradeChecker P.account t).getTotalSat = .ok (some total) ∧ 0 ≤ total ∧
    total.toInt ≤ P.funds

lemma constructAsBuyer_succeeds (h : Cooperates F C P E) {t : TradeState} {nameIn : OutPoint}
    {nameAddress chiAddress : String} {sd : SellerData} (hbid : getOrderType P.account t = .bid)
    (hp : Permits C nameIn (buildTradeChecker P.account t) E) (htotal : Affords P t)
    (hforeign : ¬ P.mine nameIn)
    (hsd : t.sellerData = some ⟨some nameAddress, some chiAddress, none⟩)
    (hname : sd.nameAddress = some nameAddress) (hchi : sd.chiAddress = some chiAddress) :
    (constructAsBuyer cfg P.account).wpIn E w t fun _ _ r t' => ∃ p q, r = .ok (.built p) ∧
      t' = { t with ourPsbt := some q } ∧
      Bought F cfg (buildTradeChecker P.account t) sd P.mine nameIn p q := by
  have hseller : (buildTradeChecker P.account t).seller = t.counterparty := by
    rw [buildTradeChecker_bid hbid]
  obtain ⟨total, htotal, hnonneg, hfunds⟩ := htotal
  simp only [constructAsBuyer, Act.wpIn_bind, Act.wpIn_read, Act.afterBindIn_ok, Act.wpIn_monadLift]
  refine Act.wpIn_mono (checkForBuyerTrade_succeeds h hp) ?_
  rintro w₁ tr₁ r₁ _ rfl
  simp only [Act.afterBindIn_ok, Act.wpIn_bind, Act.wpIn_monadLift]
  refine Act.wpIn_mono (constructTransaction_succeeds h hbid hseller htotal hnonneg hfunds hforeign hsd
    hname hchi) ?_
  rintro w₂ tr₂ r₂ _ ⟨p, rfl, hpsbt, hunsigned, hoffer⟩
  simp only [Act.afterBindIn_ok, Act.wpIn_bind]
  refine (Act.wpIn_monadLift _).mpr ((h.wpIn_signPsbt hpsbt).mpr fun r w₃ h₃ => ?_)
  obtain ⟨hpsbt', hsigns, hcomplete⟩ := h.signs _ _ _ _ h₃
  obtain ⟨coins, _, hmine, hvin⟩ := hoffer.coins
  simp only [Act.afterBindIn_ok, Act.wpIn_bind, Act.wpIn_monadLift]
  refine Act.wpIn_mono (checkForBuyerSignature_succeeds h hpsbt hpsbt'
    (buyerSignature_of_signs hsigns hunsigned hvin hmine hforeign)) ?_
  rintro w₄ tr₄ r₄ _ rfl
  -- the name input is left for the seller to sign
  have hnot : (!r.2) = true := by
    rw [hcomplete, Bool.not_eq_true', Bool.eq_false_iff, Ne, (hsigns.signedBy hunsigned).all_iff]
    intro hall
    have := hall nameIn (by rw [hsigns.tx]; exact hvin.mem_iff.mpr (by simp))
    exact hforeign (by simpa using this)
  simp only [Act.afterBindIn_ok, Bool.not_true, Bool.false_eq_true, if_false, Act.wpIn_bind,
    wpIn_check, hnot, forall_const, Act.wpIn_write, Act.wpIn_pure, Act.afterBindIn_error,
    reduceCtorEq, false_imp_iff, and_true]
  exact ⟨p, r.1, rfl, rfl, ⟨hpsbt, hpsbt'⟩, hunsigned, hoffer, hsigns⟩

/-! ## The seller -/

lemma createSellerData_succeeds (h : Cooperates F C P E) {t : TradeState}
    (hask : getOrderType P.account t = .ask) (hnone : t.sellerData = none) (hfree : P.free w) :
    (createSellerData P.account).wpIn E w t fun _ _ r t' => ∃ nameAddress chiAddress,
      nameAddress ≠ chiAddress ∧ r = .ok true ∧
      t' = { t with sellerData := some ⟨some nameAddress, some chiAddress, some P.name⟩ } := by
  simp only [createSellerData, Act.wpIn_bind, Act.wpIn_read, Act.afterBindIn_ok, hask, hnone, ne_eq,
    not_true_eq_false, Option.isSome_none, Bool.false_eq_true, or_self, if_false, Act.wpIn_monadLift]
  refine (h.wpIn_getNameOutPoint h.ourName.1).mpr fun w₁ h₁ => ?_
  have hfree₁ : P.free w₁ := h.freeStays _ _ _ hfree h₁ trivial
  refine (Act.wpIn_bind _ _).mpr ((Act.wpIn_monadLift _).mpr (h.wpIn_lockName hfree₁ fun w₂ h₂ => ?_))
  simp only [Act.afterBindIn_ok, Bool.not_true, Bool.false_eq_true, if_false, Act.wpIn_bind,
    Act.wpIn_monadLift]
  refine (h.wpIn_rpc (m := .getnewaddress) id).mpr fun (nameAddress : String) w₃ h₃ => ?_
  refine (Act.wpIn_bind _ _).mpr ((Act.wpIn_monadLift _).mpr ?_)
  refine (h.wpIn_rpc (m := .getnewaddress) id).mpr fun (chiAddress : String) w₄ h₄ => ?_
  obtain ⟨used, hfresh⟩ := h.addresses
  have hne : nameAddress ≠ chiAddress := by
    rintro rfl
    exact (hfresh.fresh _ _ _ h₄).1 (hfresh.fresh _ _ _ h₃).2
  refine (Act.wpIn_bind _ _).mpr ((Act.wpIn_write _).mpr ((Act.wpIn_pure _).mpr ?_))
  exact ⟨nameAddress, chiAddress, hne, rfl, rfl⟩

lemma checkForSellerOutputs_succeeds (h : Cooperates F C P E) {ck : TradeChecker} {p : String}
    (hp : F.psbt p) {sd : SellerData} (hchi : sd.chiAddress.isSome) (hname : sd.nameAddress.isSome)
    (hok : sellerOutputs cfg ck sd (F.decode p) = .ok true) :
    (ck.checkForSellerOutputs cfg p sd).wpIn E w u fun _ _ r _ => r = .ok true := by
  rw [TradeChecker.checkForSellerOutputs, Act.wpIn_bind, wpIn_check, hchi, hname]
  refine ⟨fun _ => ?_, by simp⟩
  refine (Act.wpIn_bind _ _).mpr ((h.wpIn_decodepsbt hp).mpr fun w₁ _ => ?_)
  refine (wpIn_judge _).mpr ?_
  rw [hok]
  simp

lemma checkForSellerSignature_succeeds (h : Cooperates F C P E) {p q : String} (hp : F.psbt p)
    (hq : F.psbt q) {sd : SellerData} {nameIn : OutPoint} (hname : sd.nameOutput = some nameIn)
    (hsig : sellerSignature nameIn (F.decode p) (F.decode q) = .ok true) :
    (TradeChecker.checkForSellerSignature p q sd).wpIn E w u fun _ _ r _ => r = .ok true := by
  rw [TradeChecker.checkForSellerSignature, hname]
  refine (Act.wpIn_bind _ _).mpr ((h.wpIn_decodepsbt hp).mpr fun w₁ _ => ?_)
  refine (Act.wpIn_bind _ _).mpr ((h.wpIn_decodepsbt hq).mpr fun w₂ _ => ?_)
  refine (wpIn_judge _).mpr ?_
  rw [hsig]
  simp

/-- **The seller signs** what the buyer has built, whether the buyer has signed it yet or not. -/
lemma signAsSeller_succeeds (h : Cooperates F C P E) {t : TradeState}
    {p nameAddress chiAddress : String} {theirs who : OutPoint → Prop}
    (hsd : t.sellerData = some ⟨some nameAddress, some chiAddress, some P.name⟩)
    (htheirs : t.theirPsbt = some p) (hpsbt : F.psbt p)
    (hoffer : Offer cfg (buildTradeChecker P.account t) (t.sellerData.getD {}) theirs P.name
      (F.decode p))
    (hdisj : ∀ o, theirs o → ¬ P.mine o) (hsigned : SignedBy who (F.decode p))
    (hrole : getRole P.account t = .maker ↔ ∀ o ∈ (F.decode p).tx.vin, who o ∨ P.mine o) :
    (signAsSeller cfg P.account).wpIn E w t fun _ _ r t' => ∃ q, r = .ok true ∧
      t' = { t with ourPsbt := some q } ∧ F.psbt q ∧ Signs P.mine (F.decode p) (F.decode q) := by
  obtain ⟨coins, _, htheirsOwn, hvin⟩ := hoffer.coins
  simp only [signAsSeller, Act.wpIn_bind, Act.wpIn_read, Act.afterBindIn_ok, Act.wpIn_monadLift,
    htheirs, Option.getD_some]
  refine Act.wpIn_mono (checkForSellerOutputs_succeeds h hpsbt (by rw [hsd]; rfl) (by rw [hsd]; rfl)
    hoffer.outputs) ?_
  rintro w₁ tr₁ r₁ _ rfl
  simp only [Act.afterBindIn_ok, Bool.not_true, Bool.false_eq_true, if_false, Act.wpIn_bind]
  refine (Act.wpIn_monadLift _).mpr ((h.wpIn_signPsbt hpsbt).mpr fun r w₂ h₂ => ?_)
  obtain ⟨hpsbt', hsigns, hcomplete⟩ := h.signs _ _ _ _ h₂
  have hsig := sellerSignature_of_signs hsigns hvin (fun o ho => hdisj o (htheirsOwn o ho)) h.ourName.2
  refine (Act.wpIn_bind _ _).mpr ((Act.wpIn_monadLift _).mpr ?_)
  refine Act.wpIn_mono (checkForSellerSignature_succeeds h hpsbt hpsbt' (by rw [hsd]; rfl) hsig) ?_
  rintro w₃ tr₃ r₃ _ rfl
  have hdone : r.2 = decide (getRole P.account t = .maker) := by
    rw [hcomplete, Bool.eq_iff_iff, decide_eq_true_eq, hrole, (hsigns.signedBy hsigned).all_iff,
      hsigns.tx]
  simp only [Act.afterBindIn_ok, Bool.not_true, Bool.false_eq_true, if_false, hdone, ne_eq,
    not_true_eq_false, Act.wpIn_bind, Act.wpIn_write, Act.wpIn_pure]
  exact ⟨r.1, trivial, rfl, hpsbt', hsigns⟩

/-! ## Sharing and broadcasting -/

lemma shareOrBroadcast_shares {t : TradeState} {ours : String} (hours : t.ourPsbt = some ours)
    (hrole : getRole account t = .taker) :
    (shareOrBroadcast account).wpIn E w t fun _ _ r t' =>
      r = .ok (some { initProcessingMessage t with psbt := some ours }) ∧
      t' = { t with state := some .pending } := by
  simp [shareOrBroadcast, hours, hrole]

/-- The transaction of `ours` went out to the network. -/
def BroadcastOf (F : Format) (ours : String) (tr : Conversation) : Prop :=
  ∃ hex txid, Ev.returned (.sendrawtransaction hex) txid ∈ tr ∧ F.rawTx hex = (F.decode ours).tx

lemma shareOrBroadcast_broadcasts (h : Cooperates F C P E) {t : TradeState} {ours theirs : String}
    (hours : t.ourPsbt = some ours) (htheirs : t.theirPsbt = some theirs)
    (hrole : getRole account t = .maker)
    (hfinal : (finalPsbt account t theirs ours).wpIn E w () fun _ _ r _ => ∃ psbt, r = .ok psbt ∧
      F.psbt psbt ∧ (F.decode psbt).inputs.all PsbtInput.signed = true ∧
      (F.decode psbt).tx = (F.decode ours).tx) :
    (shareOrBroadcast account).wpIn E w t fun _ tr r t' =>
      r = .ok none ∧ t' = { t with state := some .pending } ∧ BroadcastOf F ours tr := by
  simp only [shareOrBroadcast, hours, hrole, htheirs, Act.wpIn_bind, Act.wpIn_read,
    Act.afterBindIn_ok, Act.wpIn_monadLift]
  refine Act.wpIn_mono hfinal ?_
  rintro w₁ tr₁ r₁ _ ⟨psbt, rfl, hpsbt, hall, htx⟩
  refine (Act.wpIn_bind _ _).mpr ((Act.wpIn_monadLift _).mpr ?_)
  refine (h.wpIn_rpc (m := .finalizepsbt psbt) (not_not.mpr hpsbt)).mpr
    fun (r : Option String) w₂ h₂ => ?_
  obtain ⟨hex, rfl, hcomplete⟩ := h.finalises _ _ _ _ h₂ hall
  refine (Act.wpIn_bind _ _).mpr ((Act.wpIn_monadLift _).mpr ?_)
  refine (h.wpIn_rpc (m := .sendrawtransaction hex) (not_not.mpr hcomplete)).mpr
    fun (txid : String) w₃ h₃ => ?_
  refine (Act.wpIn_bind _ _).mpr ((Act.wpIn_write _).mpr ((Act.wpIn_pure _).mpr ?_))
  refine ⟨rfl, rfl, hex, txid, by simp, ?_⟩
  rw [h.builds.finalises _ _ _ _ h₂, htx]

/-! ## `HasReply` -/

/-- The buyer waits for the addresses. -/
lemma hasReply_waits {t : TradeState} (hbid : getOrderType account t = .bid)
    (hnone : t.sellerData = none) :
    (hasReply cfg account).wpIn E w t fun _ tr r t' => r = .ok none ∧ t' = t ∧ tr = [] := by
  simp only [hasReply, createSellerData, Act.wpIn_bind, Act.wpIn_read, Act.afterBindIn_ok]
  split
  · simp
  · simp [hbid, hnone]

/-- **The seller sends its addresses.** -/
lemma hasReply_sendsAddresses (h : Cooperates F C P E) {t : TradeState}
    (hinit : t.getState = .initiated) (hask : getOrderType P.account t = .ask)
    (hnone : t.sellerData = none) (hfree : P.free w) :
    (hasReply cfg P.account).wpIn E w t fun _ _ r t' => ∃ nameAddress chiAddress,
      nameAddress ≠ chiAddress ∧
      r = .ok (some { initProcessingMessage t with
        sellerData := some ⟨some nameAddress, some chiAddress, none⟩ }) ∧
      t' = { t with sellerData := some ⟨some nameAddress, some chiAddress, some P.name⟩ } := by
  simp only [hasReply, Act.wpIn_bind, Act.wpIn_read, Act.afterBindIn_ok, hinit, ne_eq,
    not_true_eq_false, if_false]
  refine Act.wpIn_mono (createSellerData_succeeds h hask hnone hfree) ?_
  rintro w₁ tr₁ r₁ t₁ ⟨nameAddress, chiAddress, hne, rfl, rfl⟩
  simp only [Act.afterBindIn_ok, Act.wpIn_bind, Act.wpIn_read, if_true, Act.wpIn_pure]
  exact ⟨nameAddress, chiAddress, hne, rfl, rfl⟩

/-- With the seller data exchanged, `HasReply` goes on to the transaction. -/
lemma hasReply_goesOn {t : TradeState} {Q : W → Conversation →
      Except Fail (Option ProcessingMessage) → TradeState → Prop}
    (hinit : t.getState = .initiated) (hsd : t.sellerData.isSome)
    (hQ : (replyWithSellerData cfg account).wpIn E w t Q) :
    (hasReply cfg account).wpIn E w t Q := by
  have hsome : t.sellerData ≠ none := by
    rintro hnone
    simp [hnone] at hsd
  simpa [hasReply, createSellerData, hinit, hsd, hsome] using hQ

/-- **The buyer** builds and signs.  As the maker it sends the unsigned PSBT, and as the taker the
signed one. -/
lemma hasReply_buys (h : Cooperates F C P E) {t : TradeState} {nameIn : OutPoint}
    {nameAddress chiAddress : String} {sd : SellerData} (hinit : t.getState = .initiated)
    (hbid : getOrderType P.account t = .bid) (hfresh : t.ourPsbt = none)
    (hp : Permits C nameIn (buildTradeChecker P.account t) E) (htotal : Affords P t)
    (hforeign : ¬ P.mine nameIn)
    (hsd : t.sellerData = some ⟨some nameAddress, some chiAddress, none⟩)
    (hname : sd.nameAddress = some nameAddress) (hchi : sd.chiAddress = some chiAddress) :
    (hasReply cfg P.account).wpIn E w t fun _ _ r t' => ∃ p q,
      Bought F cfg (buildTradeChecker P.account t) sd P.mine nameIn p q ∧
      match getRole P.account t with
      | .maker => r = .ok (some { initProcessingMessage t with psbt := some p }) ∧
          t' = { t with ourPsbt := some q }
      | .taker => r = .ok (some { initProcessingMessage t with psbt := some q }) ∧
          t' = { t with ourPsbt := some q, state := some .pending } := by
  refine hasReply_goesOn hinit (by rw [hsd]; rfl) ?_
  simp only [replyWithSellerData, Act.wpIn_bind, Act.wpIn_read, Act.afterBindIn_ok, hbid, hfresh,
    if_true]
  refine Act.wpIn_mono (constructAsBuyer_succeeds h hbid hp htotal hforeign hsd hname hchi) ?_
  rintro w₁ tr₁ r₁ t₁ ⟨p, q, rfl, rfl, hbought⟩
  cases hrole : getRole P.account t with
  | maker =>
      simp only [Act.afterBindIn_ok, if_true, Act.wpIn_pure]
      exact ⟨p, q, hbought, rfl, rfl⟩
  | taker =>
      simp only [Act.afterBindIn_ok, reduceCtorEq, if_false]
      refine Act.wpIn_mono (shareOrBroadcast_shares rfl hrole) ?_
      rintro w₂ tr₂ r₂ t₂ ⟨rfl, rfl⟩
      exact ⟨p, q, hbought, rfl, rfl⟩

/-- **The seller** signs what has come in.  As the taker it sends its PSBT; as the maker it
broadcasts the transaction, since the buyer has signed already. -/
lemma hasReply_sells (h : Cooperates F C P E) {t : TradeState} {p nameAddress chiAddress : String}
    {theirs who : OutPoint → Prop} (hinit : t.getState = .initiated)
    (hask : getOrderType P.account t = .ask) (hfresh : t.ourPsbt = none)
    (hsd : t.sellerData = some ⟨some nameAddress, some chiAddress, some P.name⟩)
    (htheirs : t.theirPsbt = some p) (hpsbt : F.psbt p)
    (hoffer : Offer cfg (buildTradeChecker P.account t) (t.sellerData.getD {}) theirs P.name
      (F.decode p))
    (hdisj : ∀ o, theirs o → ¬ P.mine o) (hsigned : SignedBy who (F.decode p))
    (hrole : getRole P.account t = .maker ↔ ∀ o ∈ (F.decode p).tx.vin, who o ∨ P.mine o) :
    (hasReply cfg P.account).wpIn E w t fun _ tr r t' => ∃ q,
      F.psbt q ∧ Signs P.mine (F.decode p) (F.decode q) ∧
      t' = { t with ourPsbt := some q, state := some .pending } ∧
      match getRole P.account t with
      | .maker => r = .ok none ∧ BroadcastOf F q tr
      | .taker => r = .ok (some { initProcessingMessage t with psbt := some q }) := by
  refine hasReply_goesOn hinit (by rw [hsd]; rfl) ?_
  have htheirs' : t.theirPsbt ≠ none := by simp [htheirs]
  simp only [replyWithSellerData, Act.wpIn_bind, Act.wpIn_read, Act.afterBindIn_ok, hask, htheirs',
    if_false, hfresh, if_true]
  refine Act.wpIn_mono (signAsSeller_succeeds h hsd htheirs hpsbt hoffer hdisj hsigned hrole) ?_
  rintro w₁ tr₁ r₁ t₁ ⟨q, rfl, rfl, hpsbt', hsigns⟩
  simp only [Act.afterBindIn_ok, Bool.not_true, Bool.false_eq_true, if_false]
  cases hr : getRole P.account t with
  | taker =>
      refine Act.wpIn_mono (shareOrBroadcast_shares rfl hr) ?_
      rintro w₂ tr₂ r₂ t₂ ⟨rfl, rfl⟩
      exact ⟨q, hpsbt', hsigns, rfl, rfl⟩
  | maker =>
      have hall : (F.decode q).inputs.all PsbtInput.signed = true := by
        rw [(hsigns.signedBy hsigned).all_iff, hsigns.tx]
        exact hrole.mp hr
      refine Act.wpIn_mono (shareOrBroadcast_broadcasts h rfl htheirs hr ?_) ?_
      · have hask' : getOrderType P.account { t with ourPsbt := some q } = .ask := hask
        simp only [finalPsbt, hask', Act.wpIn_pure]
        exact ⟨q, rfl, hpsbt', hall, rfl⟩
      · rintro w₂ tr₂ r₂ t₂ ⟨rfl, rfl, hex, txid, hsent, hraw⟩
        exact ⟨q, hpsbt', hsigns, rfl, rfl, hex, txid, by simp [hsent], hraw⟩

/-- **The buyer who is the maker** combines the two PSBTs and broadcasts the transaction. -/
lemma hasReply_finishes (h : Cooperates F C P E) {t : TradeState} {ours theirs : String}
    {who who' : OutPoint → Prop} (hinit : t.getState = .initiated)
    (hbid : getOrderType P.account t = .bid) (hrole : getRole P.account t = .maker)
    (hsd : t.sellerData.isSome) (hours : t.ourPsbt = some ours) (htheirs : t.theirPsbt = some theirs)
    (hpsbt : F.psbt theirs ∧ F.psbt ours) (htx : (F.decode theirs).tx = (F.decode ours).tx)
    (hsigned : SignedBy who (F.decode theirs)) (hsigned' : SignedBy who' (F.decode ours))
    (hall : ∀ o ∈ (F.decode ours).tx.vin, who o ∨ who' o) :
    (hasReply cfg P.account).wpIn E w t fun _ tr r t' => r = .ok none ∧
      t' = { t with state := some .pending } ∧ BroadcastOf F ours tr := by
  refine hasReply_goesOn hinit hsd ?_
  have hours' : t.ourPsbt ≠ none := by simp [hours]
  simp only [replyWithSellerData, Act.wpIn_bind, Act.wpIn_read, Act.afterBindIn_ok, hbid, hours',
    if_false]
  refine shareOrBroadcast_broadcasts h hours htheirs hrole ?_
  have hsame : ¬ (Method.combinepsbt [theirs, ours]).Refused F C P := by
    have hboth : ∀ r ∈ [theirs, ours], F.psbt r ∧ (F.decode r).tx = (F.decode ours).tx := by
      simp [htx, hpsbt.1, hpsbt.2]
    rintro (hnil | ⟨p, hp, hno⟩ | ⟨p, hp, q, hq, hne⟩)
    · simp at hnil
    · exact hno (hboth p hp).1
    · exact hne ((hboth p hp).2.trans (hboth q hq).2.symm)
  simp only [finalPsbt, hbid]
  refine (h.wpIn_rpc hsame).mpr fun (psbt : String) w₁ h₁ => ?_
  have htx' : (F.decode psbt).tx = (F.decode ours).tx :=
    (h.builds.combines _ _ _ _ h₁ ours (by simp)).symm
  obtain ⟨hpsbt', hcombined⟩ := h.combines _ _ _ _ h₁
  refine ⟨psbt, rfl, hpsbt', ?_, htx'⟩
  rw [(hcombined [who, who'] (.cons hsigned (.cons hsigned' .nil))).all_iff, htx']
  intro o ho
  simpa using hall o ho

/-! ## What a message does -/

lemma handleMessage_nothing {msg : ProcessingMessage} {t : TradeState} (hsd : msg.sellerData = none)
    (hpsbt : msg.psbt = none) : handleMessage account msg t = t := by
  simp [handleMessage, hsd, hpsbt]

lemma handleMessage_addresses {msg : ProcessingMessage} {t : TradeState}
    {nameAddress chiAddress : String} (hinit : t.getState = .initiated)
    (hbid : getOrderType account t = .bid) (hnone : t.sellerData = none)
    (hne : nameAddress ≠ chiAddress)
    (hsd : msg.sellerData = some ⟨some nameAddress, some chiAddress, none⟩)
    (hpsbt : msg.psbt = none) : handleMessage account msg t =
      { t with sellerData := some ⟨some nameAddress, some chiAddress, none⟩ } := by
  simp [handleMessage, hinit, mergeSellerData, hbid, hnone, hsd, hpsbt, hne]

lemma handleMessage_psbt {msg : ProcessingMessage} {t : TradeState} {psbt : String}
    (hinit : t.getState = .initiated) (hnone : t.theirPsbt = none) (hsd : msg.sellerData = none)
    (hpsbt : msg.psbt = some psbt) :
    handleMessage account msg t = { t with theirPsbt := some psbt } := by
  simp [handleMessage, hinit, mergePsbt, hnone, hsd, hpsbt]

/-! ## Sections -/

/-- The trade is the one that a message about it goes to: none with the same counterparty and
identifier comes before it. -/
def State.Holds (s : State) (t : TradeState) : Prop :=
  ∃ before after, s.trades = before ++ t :: after ∧
    ∀ x ∈ before, x.counterparty = t.counterparty → getIdentifier x ≠ getIdentifier t

/-- There is no such trade. -/
def State.Lacks (s : State) (counterparty identifier : String) : Prop :=
  ∀ x ∈ s.trades, x.counterparty = counterparty → getIdentifier x ≠ identifier

lemma tradeMatches_iff {msg : ProcessingMessage} {t : TradeState} : tradeMatches msg t = true ↔
    msg.counterparty.getD "" = t.counterparty ∧ msg.identifier.getD "" = getIdentifier t := by
  simp [tradeMatches]

lemma processLoop_runs {msg : ProcessingMessage} {t : TradeState} {after : List TradeState}
    (hm : tradeMatches msg t = true)
    {Q : W → Conversation → Option ProcessingMessage → TradeState → Prop}
    (hQ : (hasReply cfg account).wpIn E w (handleMessage account msg t) fun w' tr r t' =>
      ∃ reply, r = .ok reply ∧ Q w' tr reply t') :
    ∀ before : List TradeState, (∀ x ∈ before, tradeMatches msg x = false) →
      (processLoop cfg account msg (before ++ t :: after)).wpIn E w u fun w' tr r _ =>
        ∃ reply t', r = .ok (before ++ t' :: after, reply) ∧ Q w' tr reply t'
  | [], _ => by
      simp only [List.nil_append, processLoop, hm, if_true, Act.wpIn_bind, Act.wpIn_on, processTrade,
        Act.wpIn_read, Act.afterBindIn_ok, Act.wpIn_write]
      refine Act.wpIn_mono hQ ?_
      rintro w' tr r t' ⟨reply, rfl, hq⟩
      simpa using hq
  | x :: before, hb => by
      have hx : tradeMatches msg x = false := hb x (by simp)
      simp only [List.cons_append, processLoop, hx, Bool.false_eq_true, if_false, Act.wpIn_bind]
      refine Act.wpIn_mono (processLoop_runs hm hQ before fun y hy => hb y (by simp [hy])) ?_
      rintro w' tr r _ ⟨reply, t', rfl, hq⟩
      simpa using hq

/-- **The section of a message** that matches a trade is what `HasReply` does with that trade. -/
lemma process_runs {msg : ProcessingMessage} {s : State} {t : TradeState} (hholds : s.Holds t)
    (hm : tradeMatches msg t = true)
    {Q : W → Conversation → Option ProcessingMessage → TradeState → Prop}
    (hQ : (hasReply cfg s.account).wpIn E w (handleMessage s.account msg t) fun w' tr r t' =>
      ∃ reply, r = .ok reply ∧ Q w' tr reply t') :
    (exec cfg (.process msg)).wpIn E w s fun w' tr r s' => ∃ reply t',
      r = .ok { reply } ∧ s'.Holds t' ∧ Q w' tr reply t' := by
  obtain ⟨before, after, htrades, hfirst⟩ := hholds
  obtain ⟨hparty, hid⟩ := tradeMatches_iff.mp hm
  have hb : ∀ x ∈ before, tradeMatches msg x = false := by
    intro x hx
    rw [← Bool.not_eq_true, tradeMatches_iff, hparty, hid]
    rintro ⟨h₁, h₂⟩
    exact hfirst x hx h₁.symm h₂.symm
  -- the trade keeps what it is recognised by
  have hframe : ∀ {tr r t'}, HasReply.Outcome cfg s.account (handleMessage s.account msg t) tr r t' →
      Frame t t' := fun h => (handleMessage_spec _ _).frame.trans h.frame
  have hQ' : (hasReply cfg s.account).wpIn E w (handleMessage s.account msg t) fun w' tr r t' =>
      ∃ reply, r = .ok reply ∧ Frame t t' ∧ Q w' tr reply t' := by
    refine Act.wpIn_mono (Act.wpIn_and_of_wp hQ (hasReply_spec _)) ?_
    rintro w' tr r t' ⟨⟨reply, rfl, hq⟩, hout⟩
    exact ⟨reply, rfl, hframe hout, hq⟩
  simp only [exec, processMessage, Act.wpIn_bind, Act.wpIn_read, Act.afterBindIn_ok,
    Act.wpIn_monadLift, htrades]
  refine Act.wpIn_mono (processLoop_runs hm hQ' before hb) ?_
  rintro w' tr r _ ⟨reply, t', rfl, hf, hq⟩
  simp only [Act.afterBindIn_ok, Act.wpIn_bind, Act.wpIn_write, Act.wpIn_pure]
  refine ⟨reply, t', rfl, ⟨before, after, rfl, ?_⟩, by simpa using hq⟩
  rw [hf.counterparty, hf.getIdentifier]
  exact hfirst

/-- **A trade that is taken** is stored with the message about it. -/
lemma takeOrder_runs {s : State} {o : Order} {units : Amount} (hcheck : checkOrder o units = true)
    (hown : o.getAccount ≠ s.account)
    (hlacks : s.Lacks o.getAccount (getIdentifier { order := o }))
    {Q : W → Conversation → Option ProcessingMessage → TradeState → Prop}
    (hQ : ∀ now w₁, E w ⟨.clock, now⟩ w₁ →
      (hasReply cfg s.account).wpIn E w₁ (newTrade o units o.getAccount now (s.created + 1))
        fun w' tr r t' => ∃ reply, r = .ok reply ∧ Q w' tr reply t') :
    (exec cfg (.takeOrder o units)).wpIn E w s fun _ _ r s' => ∃ w₁ w' tr' reply t' now,
      r = .ok { reply := some (setTakingOrder t' (reply.getD (initProcessingMessage t'))) } ∧
      s'.Holds t' ∧ Frame (newTrade o units o.getAccount now (s.created + 1)) t' ∧
      E w ⟨.clock, now⟩ w₁ ∧ Q w' tr' reply t' := by
  simp only [exec, takeOrder, hcheck, Bool.not_true, Bool.false_eq_true, if_false, Act.wpIn_bind,
    wpIn_getCurrentTime, Act.afterBindIn_ok, Act.wpIn_read]
  intro now w₁ h₁
  simp only [hown, if_false, Act.wpIn_bind, Act.wpIn_on]
  have hQ' := Act.wpIn_and_of_wp (hQ now w₁ h₁) (hasReply_spec _)
  refine Act.wpIn_mono hQ' ?_
  rintro w' tr r t' ⟨⟨reply, rfl, hq⟩, hout⟩
  simp only [Act.afterBindIn_ok, Act.wpIn_bind, Act.wpIn_write, Act.wpIn_pure]
  refine ⟨w₁, w', tr, reply, t', now, rfl, ⟨s.trades, [], rfl, ?_⟩, hout.frame, h₁, hq⟩
  rw [hout.frame.counterparty, hout.frame.getIdentifier]
  exact hlacks

lemma receive_runs {s : State} {o : Order} {msg : ProcessingMessage} {taking : TakingOrder}
    (hparty : msg.counterparty.isSome) (htaking : msg.takingOrder = some taking)
    (hlookup : s.ownOrders.lookup taking.id = some o) (hlocked : o.locked = false) :
    (exec cfg (.receive msg)).wpIn E w s fun _ _ r _ => r = .ok { next :=
      refreshTasks ++ [.orderTaken { o with account := some s.account, id := some taking.id } taking
        msg] } := by
  simp [exec, receive, tryLock, hparty, htaking, hlookup, hlocked]

lemma orderTaken_runs {s : State} {o : Order} {msg : ProcessingMessage} {taking : TakingOrder}
    {counterparty : String} (hparty : msg.counterparty = some counterparty)
    (hcheck : checkOrder o taking.units.toInt64 = true) (hown : o.getAccount = s.account)
    (hother : counterparty ≠ s.account)
    (hlacks : s.Lacks counterparty (getIdentifier { order := o })) :
    (exec cfg (.orderTaken o taking msg)).wpIn E w s fun _ _ r s' => r = .ok { next := [.process msg] } ∧
      ∃ now serial, s'.Holds (newTrade o taking.units.toInt64 counterparty now serial) := by
  simp only [exec, orderTaken, hcheck, Bool.not_true, Bool.false_eq_true, if_false, Act.wpIn_bind,
    wpIn_getCurrentTime, Act.afterBindIn_ok, Act.wpIn_read]
  intro now w₁ h₁
  simp only [Act.afterBindIn_ok, Act.wpIn_bind, wpIn_check, hown, decide_true, forall_const, hparty,
    Option.getD_some, hother, if_false, Act.wpIn_write, Act.wpIn_pure, if_true,
    Act.afterBindIn_error, Bool.true_eq_false, false_imp_iff, and_true]
  exact ⟨trivial, now, s.created + 1, s.trades, [], rfl, hlacks⟩

/-- A refresh runs through. -/
lemma refresh_runs (h : Cooperates F C P E) {s : State} :
    (exec cfg .refresh).wpIn E w s fun _ _ r _ => r = .ok {} := by
  have hvalid : ∀ (acc : String) (o : Order) (w : W), (validateOrder acc o).wpIn E w () fun _ _ r _ =>
      ∃ b, r = .ok b := by
    intro acc o w
    rw [validateOrder]
    split
    · simp
    · refine (Act.wpIn_bind _ _).mpr
        ((h.wpIn_rpc (m := .isAsset _) id).mpr fun (valid : Bool) w₁ _ => ?_)
      cases valid with
      | false => exact (Act.wpIn_pure false).mpr ⟨false, rfl⟩
      | true =>
          cases htype : o.getType with
          | bid =>
              refine (Act.wpIn_bind _ _).mpr
                ((h.wpIn_rpc (m := .canBuy _ _ _) id).mpr fun (b : Bool) w₂ _ => ?_)
              cases b with
              | false => exact (Act.wpIn_pure false).mpr ⟨false, rfl⟩
              | true => exact (Act.wpIn_pure true).mpr ⟨true, rfl⟩
          | ask =>
              refine (Act.wpIn_bind _ _).mpr
                ((h.wpIn_rpc (m := .canSell _ _ _) id).mpr fun (b : Option Uint256) w₂ _ => ?_)
              cases b with
              | none => exact (Act.wpIn_pure false).mpr ⟨false, rfl⟩
              | some hash => exact (Act.wpIn_pure true).mpr ⟨true, rfl⟩
  have hloop : ∀ (entries : List ((_ : UInt64) × Order)) (updated : OrderMap) (s : State) (w : W),
      (refreshLoop entries updated).wpIn E w s fun _ _ r _ => ∃ m, r = .ok m := by
    intro entries
    induction entries with
    | nil => simp [refreshLoop]
    | cons e rest ih =>
        intro updated s w
        simp only [refreshLoop, Act.wpIn_bind, Act.wpIn_read, Act.afterBindIn_ok, Act.wpIn_monadLift]
        refine Act.wpIn_mono (hvalid s.account e.2 w) ?_
        rintro w₁ tr r _ ⟨b, rfl⟩
        cases b with
        | false =>
            simp only [Act.afterBindIn_ok, Bool.false_eq_true, if_false]
            exact ih updated s w₁
        | true =>
            simp only [Act.afterBindIn_ok, if_true, Act.wpIn_bind, Act.wpIn_write]
            exact ih _ _ w₁
  simp only [exec, runRefresh, Act.wpIn_bind, Act.wpIn_read, Act.afterBindIn_ok]
  refine Act.wpIn_mono (hloop s.ownOrders.entries ∅ s w) ?_
  rintro w₁ tr r s₁ ⟨m, rfl⟩
  simp [Act.afterBindIn]

end Democrit
