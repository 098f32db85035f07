import Democrit.Spec.Checker

/-!
# What one step of a trade can do

`HasReply` has four role and type combinations, early returns, and calls that can throw between
any two of them.  This file says once and for all what can come out of it: `HasReply.Outcome` lists
the ways a call can end, each with the conversation it had, the reply it gave and the trade it left.
Every statement about trades is a case analysis over this list, and nothing else unfolds the code.

The list keeps what later matters about failures.  An exception after `lockunspent` or after
`walletcreatefundedpsbt` leaves the trade as it was while the wallet keeps the lock
(`nameLeaked`, `coinsLeaked`); one after `our_psbt` has been set leaves it set (`sellerKeeps`).
-/

namespace Democrit

open Interaction

variable {cfg : Config} {account : String} {u : Unit}

/-! ## Conversations with the wallet -/

/-- Looking up our name's output and locking it. -/
def lockName (account : String) (out : OutPoint) : Conversation :=
  [Ev.returned (.nameShow (getXayaName account)) out, Ev.returned (.lockunspent false [out]) true]

/-- The four calls that build the transaction. -/
def buildTx (cfg : Config) (ck : TradeChecker) (pb : TradeState) (nameIn : OutPoint) (total : Amount)
    (chiPart rawNamePart namePart psbt : String) : Conversation :=
  [Ev.returned (.walletcreatefundedpsbt
      [((pb.sellerData.getD {}).chiAddress.getD "", total)] cfg.feeRateWoNames) chiPart,
    Ev.returned (.createpsbt [nameIn]
      [((pb.sellerData.getD {}).nameAddress.getD "", nameValue)]) rawNamePart,
    Ev.returned (.namepsbt rawNamePart 0 "name_update" (getXayaName pb.counterparty)
      (ck.getNameUpdateValue cfg)) namePart,
    Ev.returned (.joinpsbts [chiPart, namePart]) psbt]

/-- Unlocking the outpoints one after the other, whatever the wallet answers. -/
def Unlocks (outs : List OutPoint) (tr : Conversation) : Prop :=
  tr.map Sigma.fst = outs.map fun out => Call.rpc (.lockunspent true [out])

@[simp] lemma wp_lockUnspent (lock : Bool) (out : OutPoint)
    {Q : Conversation → Except Fail Bool → Unit → Prop} :
    (lockUnspent lock out).wp u Q ↔
      (∀ b : Bool, Q [Ev.returned (.lockunspent (!lock) [out]) b] (.ok b) u)
      ∧ ∀ e, Q [Ev.failed (.lockunspent (!lock) [out]) e] (.ok false) u := by
  simp only [lockUnspent, Act.wp_bind]
  constructor
  · intro h
    exact ⟨fun b => h (.ok b), fun e => h (.error e)⟩
  · rintro ⟨hb, he⟩ (e | b)
    · exact he e
    · exact hb b

@[simp] lemma wp_signPsbt (psbt : String)
    {Q : Conversation → Except Fail (String × Bool) → Unit → Prop} :
    (signPsbt psbt).wp u Q ↔
      (∀ r : String × Bool, Q [Ev.returned (.walletprocesspsbt psbt) r] (.ok r) u)
      ∧ Q [Ev.failed (.walletprocesspsbt psbt) .exception] (.error .exception) u
      ∧ Q [Ev.failed (.walletprocesspsbt psbt) .malformed] (.error (.check .replyShape)) u :=
  wp_rpc _

@[simp] lemma wp_joinPsbts (psbts : List String)
    {Q : Conversation → Except Fail String → Unit → Prop} :
    (joinPsbts psbts).wp u Q ↔
      (∀ r : String, Q [Ev.returned (.joinpsbts psbts) r] (.ok r) u)
      ∧ Q [Ev.failed (.joinpsbts psbts) .exception] (.error .exception) u
      ∧ Q [Ev.failed (.joinpsbts psbts) .malformed] (.error (.check .replyShape)) u :=
  wp_rpc _

/-- Unlocking always runs through. -/
lemma unlockAll_spec :
    ∀ outs : List OutPoint, (unlockAll outs).wp u fun tr r _ => r = .ok () ∧ Unlocks outs tr
  | [] => by simp [unlockAll, Unlocks]
  | out :: rest => by
      simp only [unlockAll, Act.wp_bind, wp_lockUnspent, Act.afterBind_ok]
      refine ⟨fun b => ?_, fun e => ?_⟩
      · refine Act.wp_mono (unlockAll_spec rest) fun tr r _ h => ⟨h.1, ?_⟩
        simpa [Unlocks] using h.2
      · refine Act.wp_mono (unlockAll_spec rest) fun tr r _ h => ⟨h.1, ?_⟩
        simpa [Unlocks] using h.2

/-! ## `CreateSellerData` -/

/-- How `CreateSellerData` can end. -/
inductive CreateSellerData.Outcome (account : String) (pb : TradeState) :
    Conversation → Except Fail Bool → TradeState → Prop
  /-- There was nothing to do. -/
  | skip : Outcome account pb [] (.ok false) pb
  /-- Nothing was locked. -/
  | refused {tr r} (hnone : pb.sellerData = none) (hq : Quiet tr)
      (hr : r = .ok false ∨ ∃ e, r = .error e) : Outcome account pb tr r pb
  /-- The name output was locked, and then no address was to be had. -/
  | leaked {out tr e} (hask : getOrderType account pb = .ask) (hnone : pb.sellerData = none)
      (hq : Quiet tr) (hthrown : e = .exception → EndsThrown tr) :
      Outcome account pb (lockName account out ++ tr) (.error e) pb
  | done {out} {nameAddress chiAddress : String} (hask : getOrderType account pb = .ask)
      (hnone : pb.sellerData = none) :
      Outcome account pb
        (lockName account out ++ [Ev.returned .getnewaddress nameAddress,
          Ev.returned .getnewaddress chiAddress]) (.ok true)
        { pb with sellerData := some ⟨some nameAddress, some chiAddress, some out⟩ }

lemma createSellerData_spec (pb : TradeState) :
    (createSellerData account).wp pb (CreateSellerData.Outcome account pb) := by
  simp only [createSellerData, Act.wp_bind, Act.wp_read, Act.afterBind_ok]
  split
  · exact .skip
  · rename_i hguard
    push Not at hguard
    obtain ⟨hask, hnone⟩ := hguard
    have hnone : pb.sellerData = none := by simpa using hnone
    simp only [Act.wp_bind, Act.wp_monadLift, wp_getNameOutPoint, Act.afterBind_ok,
      Act.afterBind_error]
    refine ⟨fun out => ?_, .refused hnone (by simp) (Or.inr ⟨_, rfl⟩),
      .refused hnone (by simp) (Or.inr ⟨_, rfl⟩)⟩
    simp only [wp_lockUnspent, Act.afterBind_ok]
    refine ⟨fun b => ?_, fun e => ?_⟩
    · cases b with
      | false => exact .refused hnone (by simp [Ev.quiet]) (Or.inl rfl)
      | true =>
          simp only [Bool.not_true, Bool.false_eq_true, if_false, Act.wp_bind, Act.wp_monadLift,
            wp_rpc, Act.afterBind_ok, Act.afterBind_error, Act.wp_write, Act.wp_pure]
          have leak : ∀ (tr : Conversation) (e : Fail), Quiet tr → (e = .exception → EndsThrown tr) →
              CreateSellerData.Outcome account pb (lockName account out ++ tr) (.error e) pb :=
            fun tr e hq hthrown => .leaked hask hnone hq hthrown
          refine ⟨fun nameAddress => ⟨fun chiAddress => ?_, ?_, ?_⟩, ?_, ?_⟩
          · exact .done hask hnone
          · exact leak [_, _] _ (by simp [Ev.quiet]) fun _ => ⟨_, rfl, rfl⟩
          · exact leak [_, _] _ (by simp [Ev.quiet]) (by simp)
          · exact leak [_] _ (by simp) fun _ => ⟨_, rfl, rfl⟩
          · exact leak [_] _ (by simp) (by simp)
    · exact .refused hnone (by simp [Ev.quiet]) (Or.inl rfl)

/-! ## The seller signs -/

/-- The seller accepted the buyer's PSBT and signed it: the conversation `tr`, with everything that
was verified on the way. -/
structure SellerSigns (cfg : Config) (account : String) (pb : TradeState) (tr : Conversation)
    (psbt : String) : Prop where
  isAsk : getOrderType account pb = .ask
  fresh : pb.ourPsbt = none
  verified : ∃ (nmOut : OutPoint) (decoded before after : Psbt) (complete : Bool),
    (pb.sellerData.getD {}).nameOutput = some nmOut ∧
    (pb.sellerData.getD {}).chiAddress.isSome ∧ (pb.sellerData.getD {}).nameAddress.isSome ∧
    complete = decide (getRole account pb = .maker) ∧
    tr = [Ev.returned (.decodepsbt (pb.theirPsbt.getD "")) decoded,
      Ev.returned (.walletprocesspsbt (pb.theirPsbt.getD "")) (psbt, complete),
      Ev.returned (.decodepsbt (pb.theirPsbt.getD "")) before,
      Ev.returned (.decodepsbt psbt) after] ∧
    sellerOutputs cfg (buildTradeChecker account pb) (pb.sellerData.getD {}) decoded = .ok true ∧
    sellerSignature nmOut before after = .ok true

lemma SellerSigns.quiet {pb : TradeState} {tr : Conversation} {psbt : String}
    (h : SellerSigns cfg account pb tr psbt) : Quiet tr := by
  obtain ⟨_, _, _, _, _, _, _, _, _, rfl, _⟩ := h.verified
  simp [Ev.quiet]

/-- How the seller's part can end. -/
inductive SignAsSeller.Outcome (cfg : Config) (account : String) (pb : TradeState) :
    Conversation → Except Fail Bool → TradeState → Prop
  | stop {tr r} (hq : Quiet tr) (hr : r = .ok false ∨ ∃ e, r = .error e) :
      Outcome cfg account pb tr r pb
  | done {tr psbt} (h : SellerSigns cfg account pb tr psbt) :
      Outcome cfg account pb tr (.ok true) { pb with ourPsbt := some psbt }

lemma signAsSeller_spec {pb : TradeState} (hask : getOrderType account pb = .ask)
    (hfresh : pb.ourPsbt = none) :
    (signAsSeller cfg account).wp pb (SignAsSeller.Outcome cfg account pb) := by
  simp only [signAsSeller, Act.wp_bind, Act.wp_read, Act.afterBind_ok, Act.wp_monadLift]
  refine Act.wp_mono (checkForSellerOutputs_spec cfg _ _ _) fun tr₁ r₁ _ h₁ => ?_
  obtain ⟨hq₁, hok₁⟩ := h₁
  cases r₁ with
  | error e => exact .stop (by simpa using hq₁) (Or.inr ⟨e, rfl⟩)
  | ok b₁ =>
      obtain ⟨hchi, hname, decoded, htr₁, hout⟩ := hok₁ b₁ rfl
      cases b₁ with
      | false => exact .stop (by simpa using hq₁) (Or.inl rfl)
      | true =>
          simp only [Act.afterBind_ok, Bool.not_true, Bool.false_eq_true, if_false, Act.wp_bind,
            Act.wp_monadLift, wp_signPsbt, Act.afterBind_error]
          refine ⟨fun r => ?_, .stop (by simpa using hq₁) (Or.inr ⟨_, rfl⟩),
            .stop (by simpa using hq₁) (Or.inr ⟨_, rfl⟩)⟩
          obtain ⟨psbt, complete⟩ := r
          refine Act.wp_mono (checkForSellerSignature_spec _ _ _) fun tr₂ r₂ _ h₂ => ?_
          obtain ⟨hq₂, hok₂⟩ := h₂
          cases r₂ with
          | error e =>
              exact .stop (by simp [Ev.quiet, hq₁, hq₂]) (Or.inr ⟨e, rfl⟩)
          | ok b₂ =>
              obtain ⟨nmOut, before, after, hnm, htr₂, hsig⟩ := hok₂ b₂ rfl
              cases b₂ with
              | false => exact .stop (by simp [Ev.quiet, hq₁, hq₂]) (Or.inl rfl)
              | true =>
                  simp only [Act.afterBind_ok, Bool.not_true, Bool.false_eq_true, if_false]
                  split
                  · exact .stop (by simp [Ev.quiet, hq₁, hq₂]) (Or.inl rfl)
                  · rename_i hcomplete
                    rw [not_not] at hcomplete
                    refine .done ⟨hask, hfresh, nmOut, decoded, before, after, complete, hnm, hchi,
                      hname, hcomplete, ?_, hout, hsig⟩
                    simp [htr₁, htr₂]

/-! ## The buyer builds -/

/-- How `ConstructTransaction` can end. -/
inductive ConstructTransaction.Outcome (cfg : Config) (ck : TradeChecker) (pb : TradeState)
    (nameIn : OutPoint) : Conversation → Except Fail String → Prop
  | unfunded {tr e} (hq : Quiet tr) : Outcome cfg ck pb nameIn tr (.error e)
  /-- The coins were locked, and then the transaction could not be built. -/
  | leaked {outputs feeRate chiPart tr e} (hq : Quiet tr) (hthrown : e = .exception → EndsThrown tr) :
      Outcome cfg ck pb nameIn
        (Ev.returned (.walletcreatefundedpsbt outputs feeRate) chiPart :: tr) (.error e)
  | done {total chiPart rawNamePart namePart psbt} (ht : ck.getTotalSat = .ok (some total))
      (hchi : (pb.sellerData.getD {}).chiAddress.isSome)
      (hname : (pb.sellerData.getD {}).nameAddress.isSome) :
      Outcome cfg ck pb nameIn
        (buildTx cfg ck pb nameIn total chiPart rawNamePart namePart psbt) (.ok psbt)

lemma constructTransaction_spec (ck : TradeChecker) (pb : TradeState) (nameIn : OutPoint) :
    (constructTransaction cfg account ck pb nameIn).wp u fun tr r _ =>
      ConstructTransaction.Outcome cfg ck pb nameIn tr r := by
  simp only [constructTransaction, Act.wp_bind, wp_check, Act.afterBind_ok, Act.afterBind_error,
    wp_judge, Bool.and_eq_true]
  refine ⟨fun _ => ⟨fun hsd => ⟨fun t ht => ?_, fun c _ => .unfunded (by simp)⟩,
    fun _ => .unfunded (by simp)⟩, fun _ => .unfunded (by simp)⟩
  cases t with
  | none => exact .unfunded (by simp)
  | some total =>
      simp only [Act.wp_bind, wp_rpc, wp_joinPsbts, Act.afterBind_ok, Act.afterBind_error]
      refine ⟨fun chiPart => ⟨fun rawNamePart => ⟨fun namePart => ⟨fun psbt => ?_, ?_, ?_⟩, ?_, ?_⟩,
        ?_, ?_⟩, ?_, ?_⟩
      · exact .done ht hsd.1 hsd.2
      · exact .leaked (by simp [Ev.quiet]) fun _ => ⟨_, rfl, rfl⟩
      · exact .leaked (by simp [Ev.quiet]) (by simp)
      · exact .leaked (by simp [Ev.quiet]) fun _ => ⟨_, rfl, rfl⟩
      · exact .leaked (by simp [Ev.quiet]) (by simp)
      · exact .leaked (by simp) fun _ => ⟨_, rfl, rfl⟩
      · exact .leaked (by simp) (by simp)
      · exact .unfunded (by simp)
      · exact .unfunded (by simp)

/-- The buyer checked the seller, built the transaction and signed it: the conversation `tr`, with
everything that was verified on the way. -/
structure BuyerBuilds (cfg : Config) (account : String) (pb : TradeState) (tr : Conversation)
    (nameIn : OutPoint) (unsignedPsbt signedPsbt : String) : Prop where
  isBid : getOrderType account pb = .bid
  fresh : pb.ourPsbt = none
  verified : ∃ (checked : Conversation) (total : Amount) (chiPart rawNamePart namePart : String)
      (before after : Psbt),
    ((buildTradeChecker account pb).checkForBuyerTrade ()).Exec checked (.ok (some nameIn), ()) ∧
    (buildTradeChecker account pb).getTotalSat = .ok (some total) ∧
    (pb.sellerData.getD {}).chiAddress.isSome ∧ (pb.sellerData.getD {}).nameAddress.isSome ∧
    tr = checked ++ buildTx cfg (buildTradeChecker account pb) pb nameIn total chiPart rawNamePart
        namePart unsignedPsbt
      ++ [Ev.returned (.walletprocesspsbt unsignedPsbt) (signedPsbt, false),
        Ev.returned (.decodepsbt unsignedPsbt) before,
        Ev.returned (.decodepsbt signedPsbt) after] ∧
    buyerSignature before after = .ok true

/-- The buyer gave the transaction up after signing it, and tried to unlock all its inputs. -/
structure BuyerReleases (cfg : Config) (account : String) (pb : TradeState) (tr : Conversation) :
    Prop where
  isBid : getOrderType account pb = .bid
  released : ∃ (checked : Conversation) (nameIn : OutPoint) (total : Amount)
      (chiPart rawNamePart namePart unsignedPsbt signedPsbt : String) (complete : Bool)
      (before after again : Psbt) (unlocked : Conversation),
    ((buildTradeChecker account pb).checkForBuyerTrade ()).Exec checked (.ok (some nameIn), ()) ∧
    tr = checked ++ buildTx cfg (buildTradeChecker account pb) pb nameIn total chiPart rawNamePart
        namePart unsignedPsbt
      ++ [Ev.returned (.walletprocesspsbt unsignedPsbt) (signedPsbt, complete),
        Ev.returned (.decodepsbt unsignedPsbt) before,
        Ev.returned (.decodepsbt signedPsbt) after,
        Ev.returned (.decodepsbt signedPsbt) again] ++ unlocked ∧
    before.tx = after.tx ∧ Unlocks again.tx.vin unlocked

/-- How the buyer's part can end. -/
inductive ConstructAsBuyer.Outcome (cfg : Config) (account : String) (pb : TradeState) :
    Conversation → Except Fail Built → TradeState → Prop
  | stop {tr r} (hq : Quiet tr) (hr : r = .ok .stop ∨ ∃ e, r = .error e) :
      Outcome cfg account pb tr r pb
  | leaked {checked outputs feeRate chiPart tr e} (hq : Quiet checked) (hq' : Quiet tr)
      (hthrown : e = .exception → EndsThrown tr) :
      Outcome cfg account pb
        (checked ++ Ev.returned (.walletcreatefundedpsbt outputs feeRate) chiPart :: tr) (.error e) pb
  | released {tr} (h : BuyerReleases cfg account pb tr) : Outcome cfg account pb tr (.ok .stop) pb
  | done {tr nameIn unsignedPsbt signedPsbt}
      (h : BuyerBuilds cfg account pb tr nameIn unsignedPsbt signedPsbt) :
      Outcome cfg account pb tr (.ok (.built unsignedPsbt)) { pb with ourPsbt := some signedPsbt }

/-- What comes after the transaction is built, seen from the funding on: an error leaks. -/
private lemma leaked_of_build {ck : TradeChecker} {pb : TradeState} {nameIn : OutPoint}
    {total : Amount} {checked tr : Conversation} {chiPart rawNamePart namePart psbt : String}
    {e : Fail} (hq : Quiet checked) (hq' : Quiet tr) (hthrown : e = .exception → EndsThrown tr) :
    ConstructAsBuyer.Outcome cfg account pb
      (checked ++ (buildTx cfg ck pb nameIn total chiPart rawNamePart namePart psbt ++ tr))
      (.error e) pb :=
  .leaked hq (by simp [Ev.quiet, hq']) fun he => @EndsThrown.append [_, _, _] _ (hthrown he)

lemma constructAsBuyer_spec {pb : TradeState} (hbid : getOrderType account pb = .bid)
    (hfresh : pb.ourPsbt = none) :
    (constructAsBuyer cfg account).wp pb (ConstructAsBuyer.Outcome cfg account pb) := by
  simp only [constructAsBuyer, Act.wp_bind, Act.wp_read, Act.afterBind_ok, Act.wp_monadLift]
  refine Act.wp_iff.mpr fun checked r₁ _ hx => ?_
  obtain ⟨hq₁, -⟩ := Act.wp_iff.mp (checkForBuyerTrade_spec _) checked r₁ _ hx
  cases r₁ with
  | error e => exact .stop (by simpa using hq₁) (Or.inr ⟨e, rfl⟩)
  | ok o =>
      cases o with
      | none => exact .stop (by simpa using hq₁) (Or.inl rfl)
      | some nameIn =>
          simp only [Act.afterBind_ok, Act.wp_bind, Act.wp_monadLift]
          refine Act.wp_mono (constructTransaction_spec _ pb nameIn) fun tr₂ r₂ _ h₂ => ?_
          cases h₂ with
          | unfunded hq₂ => exact .stop (by simp [hq₁, hq₂]) (Or.inr ⟨_, rfl⟩)
          | leaked hq₂ hthrown => exact .leaked hq₁ (by simpa using hq₂) hthrown
          | @done total chiPart rawNamePart namePart unsignedPsbt ht hchi hname =>
              simp only [Act.afterBind_ok, Act.wp_bind, Act.wp_monadLift, wp_signPsbt,
                Act.afterBind_error]
              refine ⟨fun r => ?_, leaked_of_build hq₁ (by simp) fun _ => ⟨_, rfl, rfl⟩,
                leaked_of_build hq₁ (by simp) (by simp)⟩
              obtain ⟨signedPsbt, complete⟩ := r
              refine Act.wp_mono (checkForBuyerSignature_spec _ _) fun tr₃ r₃ _ h₃ => ?_
              obtain ⟨hq₃, hthrown, hok₃⟩ := h₃
              cases r₃ with
              | error e =>
                  refine leaked_of_build hq₁ (by simp [Ev.quiet, hq₃]) fun he => ?_
                  exact @EndsThrown.append [_] _ (hthrown (by rw [he]))
              | ok b =>
                  obtain ⟨before, after, rfl, hsig⟩ := hok₃ b rfl
                  cases b with
                  | false =>
                      simp only [Act.afterBind_ok, Bool.not_false, if_true, Act.wp_bind,
                        Act.wp_monadLift, unlockPsbtInputs, wp_rpc, Act.afterBind_error]
                      refine ⟨fun again => ?_,
                        leaked_of_build hq₁ (by simp [Ev.quiet]) fun _ => ⟨_, rfl, rfl⟩,
                        leaked_of_build hq₁ (by simp [Ev.quiet]) (by simp)⟩
                      refine Act.wp_mono (unlockAll_spec _) fun tr₄ r₄ _ h₄ => ?_
                      obtain ⟨rfl, hun⟩ := h₄
                      refine .released ⟨hbid, checked, nameIn, total, chiPart, rawNamePart, namePart,
                        unsignedPsbt, signedPsbt, complete, before, after, again, tr₄, hx, ?_,
                        (buyerSignature_ok hsig).1, hun⟩
                      simp
                  | true =>
                      simp only [Act.afterBind_ok, Bool.not_true, Bool.false_eq_true, if_false,
                        Act.wp_bind, wp_check, Act.afterBind_error, Act.wp_write, Act.wp_pure]
                      refine ⟨fun hc => ?_, fun _ => leaked_of_build hq₁ (by simp [Ev.quiet]) (by simp)⟩
                      obtain rfl : complete = false := by simpa using hc
                      refine @ConstructAsBuyer.Outcome.done _ _ _ _ nameIn _ _ ⟨hbid, hfresh, checked, total, chiPart,
                        rawNamePart, namePart, before, after, hx, ht, hchi, hname, ?_, hsig⟩
                      simp

/-! ## Sharing and broadcasting -/

/-- The maker's PSBT was finalised into the raw transaction `hex`. -/
def Finalises (account : String) (pb : TradeState) (theirs ours : String) (tr : Conversation)
    (hex : String) : Prop :=
  (getOrderType account pb = .ask ∧ tr = [Ev.returned (.finalizepsbt ours) (some hex)]) ∨
  (getOrderType account pb = .bid ∧ ∃ psbt : String,
    tr = [Ev.returned (.combinepsbt [theirs, ours]) psbt,
      Ev.returned (.finalizepsbt psbt) (some hex)])

lemma Finalises.quiet {pb : TradeState} {theirs ours hex : String} {tr : Conversation}
    (h : Finalises account pb theirs ours tr hex) : Quiet tr := by
  rcases h with ⟨_, rfl⟩ | ⟨_, _, rfl⟩ <;> simp [Ev.quiet]

/-- There is no reply: because there is nothing to say, or because of a failure. -/
def NoReply (r : Except Fail (Option ProcessingMessage)) : Prop :=
  r = .ok none ∨ ∃ e, r = .error e

/-- How the last part can end. -/
inductive ShareOrBroadcast.Outcome (account : String) (pb : TradeState) (ours : String) :
    Conversation → Except Fail (Option ProcessingMessage) → TradeState → Prop
  | shares (htaker : getRole account pb = .taker) :
      Outcome account pb ours [] (.ok (some { initProcessingMessage pb with psbt := some ours }))
        { pb with state := some .pending }
  | rest {tr r} (hmaker : getRole account pb = .maker) (hq : Quiet tr) (hr : NoReply r) :
      Outcome account pb ours tr r pb
  | broadcasts {theirs tr hex txid} (hmaker : getRole account pb = .maker)
      (htheirs : pb.theirPsbt = some theirs) (hfin : Finalises account pb theirs ours tr hex) :
      Outcome account pb ours (tr ++ [Ev.returned (.sendrawtransaction hex) txid]) (.ok none)
        { pb with state := some .pending }

/-- The PSBT to finalise, together with finalising it. -/
private lemma wp_finalPsbt {pb : TradeState} {theirs ours : String}
    {Q : Conversation → Except Fail String → Unit → Prop}
    (hok : ∀ tr psbt, (∀ hex, Finalises account pb theirs ours
        (tr ++ [Ev.returned (.finalizepsbt psbt) (some hex)]) hex) → Quiet tr → Q tr (.ok psbt) u)
    (herr : ∀ tr e, Quiet tr → Q tr (.error e) u) :
    (finalPsbt account pb theirs ours).wp u Q := by
  rw [finalPsbt]
  cases htype : getOrderType account pb with
  | ask =>
      refine hok [] ours (fun hex => Or.inl ⟨htype, rfl⟩) (by simp)
  | bid =>
      refine (wp_rpc _).mpr ⟨fun psbt => hok _ psbt (fun hex => Or.inr ⟨htype, psbt, rfl⟩)
        (by simp [Ev.quiet]), herr _ _ (by simp), herr _ _ (by simp)⟩

lemma shareOrBroadcast_spec {pb : TradeState} {ours : String} (hours : pb.ourPsbt = some ours) :
    (shareOrBroadcast account).wp pb (ShareOrBroadcast.Outcome account pb ours) := by
  simp only [shareOrBroadcast, Act.wp_bind, Act.wp_read, Act.afterBind_ok, hours]
  cases hrole : getRole account pb with
  | taker =>
      have : ShareOrBroadcast.Outcome account pb ours _ _ _ := .shares hrole
      simpa [hours] using this
  | maker =>
      cases htheirs : pb.theirPsbt with
      | none => exact .rest hrole (by simp) (Or.inl rfl)
      | some theirs =>
          simp only [Act.wp_bind, Act.wp_monadLift]
          refine wp_finalPsbt (fun tr psbt hfin hq => ?_) fun tr e hq =>
            .rest hrole (by simpa using hq) (Or.inr ⟨e, rfl⟩)
          simp only [Act.afterBind_ok, Act.wp_bind, Act.wp_monadLift, wp_rpc, Act.afterBind_error]
          refine ⟨fun r => ?_, .rest hrole (by simpa using hq) (Or.inr ⟨_, rfl⟩),
            .rest hrole (by simpa using hq) (Or.inr ⟨_, rfl⟩)⟩
          cases r with
          | none => exact .rest hrole (by simp [Ev.quiet, hq]) (Or.inl rfl)
          | some hex =>
              simp only [Act.wp_bind, Act.wp_monadLift, wp_rpc, Act.afterBind_ok,
                Act.afterBind_error, Act.wp_write, Act.wp_pure]
              refine ⟨fun txid => ?_, .rest hrole (by simp [Ev.quiet, hq]) (Or.inr ⟨_, rfl⟩),
                .rest hrole (by simp [Ev.quiet, hq]) (Or.inr ⟨_, rfl⟩)⟩
              have : ShareOrBroadcast.Outcome account pb ours
                  (_ ++ [Ev.returned (.sendrawtransaction hex) txid]) _ _ :=
                .broadcasts hrole htheirs (hfin hex)
              simpa [hours, htheirs] using this

/-! ## `HasReply` -/

/-- **Everything a call of `HasReply` can do.**  A trade that is not `INITIATED` any more is left
alone, and so is one that waits for the other side or whose checks fail (`rest`). -/
inductive HasReply.Outcome (cfg : Config) (account : String) (pb : TradeState) :
    Conversation → Except Fail (Option ProcessingMessage) → TradeState → Prop
  | rest {tr r} (hq : Quiet tr) (hr : NoReply r) : Outcome cfg account pb tr r pb
  /-- The name output is locked in the wallet, but nothing remembers it. -/
  | nameLeaked {out tr e} (hinit : pb.getState = .initiated)
      (hask : getOrderType account pb = .ask) (hnone : pb.sellerData = none) (hq : Quiet tr)
      (hthrown : e = .exception → EndsThrown tr) :
      Outcome cfg account pb (lockName account out ++ tr) (.error e) pb
  /-- We are the seller and send our addresses. -/
  | sendsSellerData {out} {nameAddress chiAddress : String} (hinit : pb.getState = .initiated)
      (hask : getOrderType account pb = .ask) (hnone : pb.sellerData = none) :
      Outcome cfg account pb
        (lockName account out ++ [Ev.returned .getnewaddress nameAddress,
          Ev.returned .getnewaddress chiAddress])
        (.ok (some { initProcessingMessage pb with
          sellerData := some ⟨some nameAddress, some chiAddress, none⟩ }))
        { pb with sellerData := some ⟨some nameAddress, some chiAddress, some out⟩ }
  /-- Taker and seller: sign the buyer's transaction and send it back. -/
  | sellerShares {tr psbt} (hinit : pb.getState = .initiated) (hsd : pb.sellerData.isSome)
      (htheirs : pb.theirPsbt.isSome) (hs : SellerSigns cfg account pb tr psbt)
      (htaker : getRole account pb = .taker) :
      Outcome cfg account pb tr (.ok (some { initProcessingMessage pb with psbt := some psbt }))
        { pb with ourPsbt := some psbt, state := some .pending }
  /-- Maker and seller: signed, but not broadcast. -/
  | sellerKeeps {tr psbt tr' r} (hinit : pb.getState = .initiated) (hsd : pb.sellerData.isSome)
      (htheirs : pb.theirPsbt.isSome) (hs : SellerSigns cfg account pb tr psbt)
      (hmaker : getRole account pb = .maker) (hq : Quiet tr') (hr : NoReply r) :
      Outcome cfg account pb (tr ++ tr') r { pb with ourPsbt := some psbt }
  /-- Maker and seller: signed and broadcast. -/
  | sellerBroadcasts {tr psbt theirs tr' hex txid} (hinit : pb.getState = .initiated)
      (hsd : pb.sellerData.isSome) (htheirs : pb.theirPsbt = some theirs)
      (hs : SellerSigns cfg account pb tr psbt) (hmaker : getRole account pb = .maker)
      (hfin : Finalises account pb theirs psbt tr' hex) :
      Outcome cfg account pb (tr ++ (tr' ++ [Ev.returned (.sendrawtransaction hex) txid]))
        (.ok none) { pb with ourPsbt := some psbt, state := some .pending }
  /-- The coins are locked in the wallet, but nothing remembers them. -/
  | coinsLeaked {checked outputs feeRate chiPart tr e} (hinit : pb.getState = .initiated)
      (hsd : pb.sellerData.isSome) (hbid : getOrderType account pb = .bid) (hq : Quiet checked)
      (hq' : Quiet tr) (hthrown : e = .exception → EndsThrown tr) :
      Outcome cfg account pb
        (checked ++ Ev.returned (.walletcreatefundedpsbt outputs feeRate) chiPart :: tr) (.error e) pb
  | coinsReleased {tr} (hinit : pb.getState = .initiated) (hsd : pb.sellerData.isSome)
      (h : BuyerReleases cfg account pb tr) : Outcome cfg account pb tr (.ok none) pb
  /-- Maker and buyer: build and sign the transaction, and send the unsigned one. -/
  | buyerOffers {tr nameIn unsignedPsbt signedPsbt} (hinit : pb.getState = .initiated)
      (hsd : pb.sellerData.isSome)
      (hb : BuyerBuilds cfg account pb tr nameIn unsignedPsbt signedPsbt)
      (hmaker : getRole account pb = .maker) :
      Outcome cfg account pb tr
        (.ok (some { initProcessingMessage pb with psbt := some unsignedPsbt }))
        { pb with ourPsbt := some signedPsbt }
  /-- Taker and buyer: build and sign the transaction, and send the signed one. -/
  | buyerShares {tr nameIn unsignedPsbt signedPsbt} (hinit : pb.getState = .initiated)
      (hsd : pb.sellerData.isSome)
      (hb : BuyerBuilds cfg account pb tr nameIn unsignedPsbt signedPsbt)
      (htaker : getRole account pb = .taker) :
      Outcome cfg account pb tr (.ok (some { initProcessingMessage pb with psbt := some signedPsbt }))
        { pb with ourPsbt := some signedPsbt, state := some .pending }
  /-- Taker with a PSBT from before: share it. -/
  | shares {ours} (hinit : pb.getState = .initiated) (hours : pb.ourPsbt = some ours)
      (htaker : getRole account pb = .taker) :
      Outcome cfg account pb [] (.ok (some { initProcessingMessage pb with psbt := some ours }))
        { pb with state := some .pending }
  /-- Maker with a PSBT from before: broadcast. -/
  | broadcasts {ours theirs tr hex txid} (hinit : pb.getState = .initiated)
      (hours : pb.ourPsbt = some ours) (htheirs : pb.theirPsbt = some theirs)
      (hmaker : getRole account pb = .maker)
      (hfin : Finalises account pb theirs ours tr hex) :
      Outcome cfg account pb (tr ++ [Ev.returned (.sendrawtransaction hex) txid]) (.ok none)
        { pb with state := some .pending }

/-- The last part with a PSBT from before. -/
private lemma share_of_ours {pb : TradeState} {ours : String} (hinit : pb.getState = .initiated)
    (hours : pb.ourPsbt = some ours) :
    (shareOrBroadcast account).wp pb (HasReply.Outcome cfg account pb) := by
  refine Act.wp_mono (shareOrBroadcast_spec hours) fun tr r pb' h => ?_
  cases h with
  | shares htaker => exact .shares hinit hours htaker
  | rest _ hq hr => exact .rest hq hr
  | broadcasts hmaker htheirs hfin => exact .broadcasts hinit hours htheirs hmaker hfin

private lemma replyWithSellerData_spec {pb : TradeState} (hinit : pb.getState = .initiated)
    (hsd : pb.sellerData.isSome) :
    (replyWithSellerData cfg account).wp pb (HasReply.Outcome cfg account pb) := by
  simp only [replyWithSellerData, Act.wp_bind, Act.wp_read, Act.afterBind_ok, List.nil_append]
  cases htype : getOrderType account pb with
  | ask =>
      dsimp only
      split
      · exact .rest (by simp) (Or.inl rfl)
      · rename_i htheirs
        obtain ⟨theirs, htheirs⟩ := Option.ne_none_iff_exists'.mp htheirs
        split
        · rename_i hfresh
          simp only [Act.wp_bind]
          refine Act.wp_mono (signAsSeller_spec htype hfresh) fun tr r pb' h => ?_
          cases h with
          | stop hq hr =>
              rcases hr with rfl | ⟨e, rfl⟩
              · exact .rest (by simpa using hq) (Or.inl rfl)
              · exact .rest hq (Or.inr ⟨e, rfl⟩)
          | done hs =>
              simp only [Act.afterBind_ok, Bool.not_true, Bool.false_eq_true, if_false]
              -- role and type do not depend on the PSBT just set
              refine Act.wp_mono (shareOrBroadcast_spec rfl) fun tr' r' pb'' h' => ?_
              cases h' with
              | shares htaker =>
                  rw [List.append_nil]
                  exact .sellerShares hinit hsd (by simp [htheirs]) hs htaker
              | rest hmaker hq hr =>
                  exact .sellerKeeps hinit hsd (by simp [htheirs]) hs hmaker hq hr
              | broadcasts hmaker htheirs' hfin =>
                  exact .sellerBroadcasts hinit hsd htheirs' hs hmaker hfin
        · rename_i hours
          obtain ⟨ours, hours⟩ := Option.ne_none_iff_exists'.mp hours
          exact share_of_ours hinit hours
  | bid =>
      dsimp only
      split
      · rename_i hfresh
        simp only [Act.wp_bind]
        refine Act.wp_mono (constructAsBuyer_spec htype hfresh) fun tr r pb' h => ?_
        cases h with
        | stop hq hr =>
            rcases hr with rfl | ⟨e, rfl⟩
            · exact .rest (by simpa using hq) (Or.inl rfl)
            · exact .rest hq (Or.inr ⟨e, rfl⟩)
        | leaked hq hq' hthrown => exact .coinsLeaked hinit hsd htype hq hq' hthrown
        | released h =>
            have := HasReply.Outcome.coinsReleased hinit hsd h
            simpa using this
        | done hb =>
            simp only [Act.afterBind_ok]
            cases hrole : getRole account pb with
            | maker =>
                have := HasReply.Outcome.buyerOffers hinit hsd hb hrole
                simpa using this
            | taker =>
                simp only [reduceCtorEq, if_false]
                refine Act.wp_mono (shareOrBroadcast_spec rfl) fun tr' r' pb'' h' => ?_
                cases h' with
                | shares _ =>
                    rw [List.append_nil]
                    exact .buyerShares hinit hsd hb hrole
                | rest hmaker _ _ => exact absurd (hrole.symm.trans hmaker) (by simp)
                | broadcasts hmaker _ _ => exact absurd (hrole.symm.trans hmaker) (by simp)
      · rename_i hours
        obtain ⟨ours, hours⟩ := Option.ne_none_iff_exists'.mp hours
        exact share_of_ours hinit hours

/-- **The list is complete.** -/
theorem hasReply_spec (pb : TradeState) :
    (hasReply cfg account).wp pb (HasReply.Outcome cfg account pb) := by
  simp only [hasReply, Act.wp_bind, Act.wp_read, Act.afterBind_ok, List.nil_append]
  split
  · exact .rest (by simp) (Or.inl rfl)
  · rename_i hinit
    rw [not_not] at hinit
    simp only [Act.wp_bind]
    refine Act.wp_mono (createSellerData_spec pb) fun tr r pb' h => ?_
    cases h with
    | skip =>
        simp only [Act.afterBind_ok, Act.wp_bind, Act.wp_read, Bool.false_eq_true, if_false,
          List.nil_append]
        split
        · exact .rest (by simp) (Or.inl rfl)
        · rename_i hsd
          exact replyWithSellerData_spec hinit (Option.isSome_iff_ne_none.mpr hsd)
    | refused hnone hq hr =>
        rcases hr with rfl | ⟨e, rfl⟩
        · simp only [Act.afterBind_ok, Act.wp_bind, Act.wp_read, Bool.false_eq_true, if_false, hnone,
            if_true, Act.wp_pure, List.append_nil]
          exact .rest hq (Or.inl rfl)
        · exact .rest hq (Or.inr ⟨e, rfl⟩)
    | leaked hask hnone hq hthrown => exact .nameLeaked hinit hask hnone hq hthrown
    | @done out nameAddress chiAddress hask hnone =>
        simp only [Act.afterBind_ok, Act.wp_bind, Act.wp_read, if_true, Act.wp_pure, List.append_nil]
        exact @HasReply.Outcome.sendsSellerData cfg account pb out nameAddress chiAddress hinit hask
          hnone

/-! ## What `HasReply` never changes -/

/-- The fields of a trade that only its creation sets, and those that only a message sets. -/
structure Frame (pb pb' : TradeState) : Prop where
  order : pb'.order = pb.order
  units : pb'.units = pb.units
  counterparty : pb'.counterparty = pb.counterparty
  startTime : pb'.startTime = pb.startTime
  serial : pb'.serial = pb.serial

lemma Frame.refl (pb : TradeState) : Frame pb pb := ⟨rfl, rfl, rfl, rfl, rfl⟩

lemma Frame.trans {pb₁ pb₂ pb₃ : TradeState} (h : Frame pb₁ pb₂) (h' : Frame pb₂ pb₃) :
    Frame pb₁ pb₃ :=
  ⟨h'.order.trans h.order, h'.units.trans h.units, h'.counterparty.trans h.counterparty,
    h'.startTime.trans h.startTime, h'.serial.trans h.serial⟩

lemma Frame.getRole {pb pb' : TradeState} (h : Frame pb pb') :
    getRole account pb' = getRole account pb := by
  rw [Democrit.getRole, Democrit.getRole, h.order]

lemma Frame.getOrderType {pb pb' : TradeState} (h : Frame pb pb') :
    getOrderType account pb' = getOrderType account pb := by
  rw [Democrit.getOrderType, Democrit.getOrderType, h.getRole, h.order]

lemma Frame.getIdentifier {pb pb' : TradeState} (h : Frame pb pb') :
    getIdentifier pb' = getIdentifier pb := by
  rw [Democrit.getIdentifier, Democrit.getIdentifier, h.order]

lemma HasReply.Outcome.frame {pb pb' : TradeState} {tr : Conversation}
    {r : Except Fail (Option ProcessingMessage)} (h : HasReply.Outcome cfg account pb tr r pb') :
    Frame pb pb' := by
  cases h <;> exact ⟨rfl, rfl, rfl, rfl, rfl⟩

/-! ## Broadcasts -/

/-- The raw transaction an exchange has put on the network. -/
def Ev.broadcast? : Ev → Option String
  | ⟨.clock, _⟩ => none
  | ⟨.rpc m, a⟩ =>
      match m, a with
      | .sendrawtransaction hex, (.ok _ : Except RpcError String) => some hex
      | _, _ => none

/-- The raw transactions a conversation has put on the network. -/
def broadcasts (tr : Conversation) : List String := tr.filterMap Ev.broadcast?

@[simp] lemma broadcasts_append (tr tr' : Conversation) :
    broadcasts (tr ++ tr') = broadcasts tr ++ broadcasts tr' := List.filterMap_append

lemma broadcast?_of_quiet {ev : Ev} (h : ev.quiet) : ev.broadcast? = none := by
  obtain ⟨c, a⟩ := ev
  cases c with
  | clock => rfl
  | rpc m =>
      cases m with
      | sendrawtransaction hex =>
          cases a with
          | error e => rfl
          | ok txid => exact h.elim
      | _ => rfl

lemma broadcasts_of_quiet {tr : Conversation} (h : Quiet tr) : broadcasts tr = [] :=
  List.filterMap_eq_nil_iff.mpr fun ev hm => broadcast?_of_quiet (h ev hm)

lemma broadcasts_of_unlocks {outs : List OutPoint} {tr : Conversation} (h : Unlocks outs tr) :
    broadcasts tr = [] := by
  refine List.filterMap_eq_nil_iff.mpr fun ev hm => ?_
  have hcall : ev.1 ∈ tr.map Sigma.fst := List.mem_map_of_mem hm
  rw [h] at hcall
  obtain ⟨out, _, hout⟩ := List.mem_map.mp hcall
  obtain ⟨c, a⟩ := ev
  obtain rfl : Call.rpc (.lockunspent true [out]) = c := hout
  rfl

lemma broadcasts_buildTx {ck : TradeChecker} {pb : TradeState} {nameIn : OutPoint} {total : Amount}
    {chiPart rawNamePart namePart psbt : String} :
    broadcasts (buildTx cfg ck pb nameIn total chiPart rawNamePart namePart psbt) = [] := rfl

lemma BuyerBuilds.broadcasts_eq {pb : TradeState} {tr : Conversation} {nameIn : OutPoint}
    {unsignedPsbt signedPsbt : String}
    (h : BuyerBuilds cfg account pb tr nameIn unsignedPsbt signedPsbt) : broadcasts tr = [] := by
  obtain ⟨checked, total, chiPart, rawNamePart, namePart, before, after, hx, _, _, _, rfl, _⟩ :=
    h.verified
  obtain ⟨hq, -⟩ := Act.wp_iff.mp (checkForBuyerTrade_spec _) _ _ _ hx
  simp only [broadcasts_append, broadcasts_of_quiet hq, broadcasts_buildTx]
  rfl

lemma BuyerReleases.broadcasts_eq {pb : TradeState} {tr : Conversation}
    (h : BuyerReleases cfg account pb tr) : broadcasts tr = [] := by
  obtain ⟨checked, nameIn, total, chiPart, rawNamePart, namePart, unsignedPsbt, signedPsbt, complete,
    before, after, again, unlocked, hx, rfl, _, hun⟩ := h.released
  obtain ⟨hq, -⟩ := Act.wp_iff.mp (checkForBuyerTrade_spec _) _ _ _ hx
  simp only [broadcasts_append, broadcasts_of_quiet hq, broadcasts_buildTx, broadcasts_of_unlocks hun]
  rfl

/-- **When a transaction is broadcast**: once, by a maker, whose trade becomes `PENDING` with it. -/
lemma hasReply_broadcasts {pb pb' : TradeState} {tr : Conversation}
    {r : Except Fail (Option ProcessingMessage)} (h : HasReply.Outcome cfg account pb tr r pb') :
    broadcasts tr = [] ∨ getRole account pb = .maker ∧ pb.getState = .initiated ∧
      pb'.getState = .pending ∧ r = .ok none ∧ ∃ hex ours theirs fin, broadcasts tr = [hex] ∧
        pb'.ourPsbt = some ours ∧ pb.theirPsbt = some theirs ∧
        Finalises account pb theirs ours fin hex ∧ fin ⊆ tr := by
  cases h with
  | rest hq _ => exact Or.inl (broadcasts_of_quiet hq)
  | nameLeaked _ _ _ hq =>
      left
      rw [broadcasts_append, broadcasts_of_quiet hq]
      rfl
  | sendsSellerData => exact Or.inl rfl
  | sellerShares _ _ _ hs _ => exact Or.inl (broadcasts_of_quiet hs.quiet)
  | sellerKeeps _ _ _ hs _ hq _ =>
      exact Or.inl (broadcasts_of_quiet (by simp [hs.quiet, hq]))
  | @sellerBroadcasts tr₁ psbt theirs tr₂ hex txid hinit _ htheirs hs hmaker hfin =>
      refine Or.inr ⟨hmaker, hinit, rfl, rfl, hex, psbt, theirs, tr₂, ?_, rfl, htheirs, hfin, ?_⟩
      · simp only [broadcasts_append, broadcasts_of_quiet hs.quiet, broadcasts_of_quiet hfin.quiet]
        rfl
      · intro ev hev
        simp [hev]
  | @coinsLeaked checked outputs feeRate chiPart tr₂ e _ _ _ hq hq' =>
      left
      rw [broadcasts_append, broadcasts_of_quiet hq]
      have : broadcasts tr₂ = [] := broadcasts_of_quiet hq'
      exact this
  | coinsReleased _ _ h => exact Or.inl h.broadcasts_eq
  | buyerOffers _ _ hb _ => exact Or.inl hb.broadcasts_eq
  | buyerShares _ _ hb _ => exact Or.inl hb.broadcasts_eq
  | shares => exact Or.inl rfl
  | @broadcasts ours theirs tr₁ hex txid hinit hours htheirs hmaker hfin =>
      refine Or.inr ⟨hmaker, hinit, rfl, rfl, hex, ours, theirs, tr₁, ?_, hours, htheirs, hfin, ?_⟩
      · simp only [broadcasts_append, broadcasts_of_quiet hfin.quiet]
        rfl
      · intro ev hev
        simp [hev]

/-! ## Replies -/

/-- A reply with a PSBT comes from one of these four. -/
lemma reply_psbt {pb pb' : TradeState} {tr : Conversation} {reply : ProcessingMessage} {p : String}
    (h : HasReply.Outcome cfg account pb tr (.ok (some reply)) pb') (hp : reply.psbt = some p) :
    pb.getState = .initiated ∧ reply = { initProcessingMessage pb with psbt := some p } ∧
    ((getRole account pb = .taker ∧ pb'.ourPsbt = some p ∧ pb'.getState = .pending) ∨
      (getRole account pb = .maker ∧ getOrderType account pb = .bid ∧
        ∃ nameIn signedPsbt, BuyerBuilds cfg account pb tr nameIn p signedPsbt ∧
          pb' = { pb with ourPsbt := some signedPsbt })) := by
  generalize hr : (Except.ok (some reply) : Except Fail (Option ProcessingMessage)) = r at h
  cases h with
  | rest _ hno => rcases hno with rfl | ⟨e, rfl⟩ <;> simp at hr
  | sendsSellerData =>
      obtain rfl := Option.some.inj (Except.ok.inj hr)
      simp [initProcessingMessage] at hp
  | sellerShares hinit _ _ _ htaker =>
      obtain rfl := Option.some.inj (Except.ok.inj hr)
      obtain rfl := Option.some.inj hp
      exact ⟨hinit, rfl, Or.inl ⟨htaker, rfl, rfl⟩⟩
  | sellerKeeps _ _ _ _ _ _ hno => rcases hno with rfl | ⟨e, rfl⟩ <;> simp at hr
  | buyerOffers hinit _ hb hmaker =>
      obtain rfl := Option.some.inj (Except.ok.inj hr)
      obtain rfl := Option.some.inj hp
      exact ⟨hinit, rfl, Or.inr ⟨hmaker, hb.isBid, _, _, hb, rfl⟩⟩
  | buyerShares hinit _ _ htaker =>
      obtain rfl := Option.some.inj (Except.ok.inj hr)
      obtain rfl := Option.some.inj hp
      exact ⟨hinit, rfl, Or.inl ⟨htaker, rfl, rfl⟩⟩
  | shares hinit hours htaker =>
      obtain rfl := Option.some.inj (Except.ok.inj hr)
      obtain rfl := Option.some.inj hp
      exact ⟨hinit, rfl, Or.inl ⟨htaker, hours, rfl⟩⟩
  | _ => simp at hr

/-! ## `HandleMessage` -/

/-- What a message can change about a trade: the seller data of the other side, if we are the buyer
and have none, and the other side's PSBT, if we have none. -/
structure Received (account : String) (pb pb' : TradeState) : Prop where
  eq : pb' = { pb with sellerData := pb'.sellerData, theirPsbt := pb'.theirPsbt }
  sellerData : pb'.sellerData = pb.sellerData ∨ getOrderType account pb = .bid ∧
    pb.sellerData = none ∧ pb.getState = .initiated ∧
    ∃ nameAddress chiAddress : String, pb'.sellerData = some ⟨some nameAddress, some chiAddress, none⟩
  theirPsbt : pb'.theirPsbt = pb.theirPsbt ∨ pb.theirPsbt = none ∧ pb.getState = .initiated

lemma Received.frame {pb pb' : TradeState} (h : Received account pb pb') : Frame pb pb' := by
  refine ⟨?_, ?_, ?_, ?_, ?_⟩ <;> rw [h.eq]

lemma mergeSellerData_spec (sd : SellerData) (pb : TradeState) :
    mergeSellerData account sd pb = pb ∨ getOrderType account pb = .bid ∧ pb.sellerData = none ∧
      ∃ nameAddress chiAddress : String, sd = ⟨some nameAddress, some chiAddress, none⟩ ∧
        mergeSellerData account sd pb = { pb with sellerData := some sd } := by
  rw [mergeSellerData]
  split_ifs with htype hsome hfields haddr
  · exact Or.inl rfl
  · exact Or.inl rfl
  · exact Or.inl rfl
  · exact Or.inl rfl
  · push Not at hfields
    obtain ⟨hname, hchi, hout⟩ := hfields
    obtain ⟨nameAddress, chiAddress, nameOutput⟩ := sd
    obtain ⟨nameAddress, rfl⟩ := Option.ne_none_iff_exists'.mp hname
    obtain ⟨chiAddress, rfl⟩ := Option.ne_none_iff_exists'.mp hchi
    obtain rfl : nameOutput = none := by simpa using hout
    have hbid : getOrderType account pb = .bid := by
      cases h : getOrderType account pb with
      | ask => exact absurd h htype
      | bid => rfl
    exact Or.inr ⟨hbid, by simpa using hsome, nameAddress, chiAddress, rfl, rfl⟩

lemma Received.refl (pb : TradeState) : Received account pb pb := ⟨rfl, Or.inl rfl, Or.inl rfl⟩

lemma received_mergeSellerData {pb : TradeState} (hinit : pb.getState = .initiated)
    (sd : SellerData) : Received account pb (mergeSellerData account sd pb) := by
  rcases @mergeSellerData_spec account sd pb with h | ⟨hbid, hnone, n, c, hsd, h⟩
  · rw [h]
    exact .refl pb
  · rw [h]
    exact ⟨rfl, Or.inr ⟨hbid, hnone, hinit, n, c, congrArg some hsd⟩, Or.inl rfl⟩

lemma Received.mergePsbt {pb pb₁ : TradeState} (h : Received account pb pb₁)
    (hinit : pb.getState = .initiated) (psbt : String) :
    Received account pb (mergePsbt psbt pb₁) := by
  rw [Democrit.mergePsbt]
  split_ifs with htheirs
  · exact h
  · have hnone : pb.theirPsbt = none := by
      rcases h.theirPsbt with hkeep | hkeep
      · rw [← hkeep]
        simpa using htheirs
      · exact hkeep.1
    refine ⟨?_, h.sellerData, Or.inr ⟨hnone, hinit⟩⟩
    conv_lhs => rw [h.eq]

lemma handleMessage_spec (msg : ProcessingMessage) (pb : TradeState) :
    Received account pb (handleMessage account msg pb) := by
  rw [handleMessage]
  by_cases hinit : pb.getState = .initiated
  · rw [if_neg (not_not.mpr hinit)]
    cases msg.sellerData with
    | none =>
        cases msg.psbt with
        | none => exact .refl pb
        | some psbt => exact (Received.refl pb).mergePsbt hinit psbt
    | some sd =>
        cases msg.psbt with
        | none => exact received_mergeSellerData hinit sd
        | some psbt => exact (received_mergeSellerData hinit sd).mergePsbt hinit psbt
  · rw [if_pos hinit]
    exact .refl pb

/-! ## `Update` -/

lemma anyInputSpent_quiet :
    ∀ outs : List OutPoint, (anyInputSpent outs).wp u fun tr _ _ => Quiet tr
  | [] => by simp [anyInputSpent]
  | out :: rest => by
      simp only [anyInputSpent, Act.wp_bind, wp_rpc, Act.afterBind_ok, Act.afterBind_error]
      refine ⟨fun utxo => ?_, by simp, by simp⟩
      cases utxo with
      | none => simp [Ev.quiet]
      | some _ =>
          refine Act.wp_mono (anyInputSpent_quiet rest) fun tr _ _ h => ?_
          simp [Ev.quiet, h]

/-- **Everything a call of `Update` can do.** -/
inductive Update.Outcome (pb : TradeState) : Conversation → Except Fail Unit → TradeState → Prop
  | keeps {tr} (conflictHeight : Option UInt64) (hq : Quiet tr) :
      Outcome pb tr (.ok ()) { pb with conflictHeight }
  | fails {tr e} (hq : Quiet tr) : Outcome pb tr (.error e) pb
  | abandons {tr} (hinit : pb.getState = .initiated) (hq : Quiet tr) :
      Outcome pb tr (.ok ()) { pb with state := some .abandoned }
  | settles {tr st} (hpending : pb.getState = .pending) (hst : st = .success ∨ st = .failed)
      (hours : pb.ourPsbt.isSome) (hq : Quiet tr) :
      Outcome pb tr (.ok ()) { pb with state := some st }

lemma Update.Outcome.frame {pb pb' : TradeState} {tr : Conversation} {r : Except Fail Unit}
    (h : Update.Outcome pb tr r pb') : Frame pb pb' := by
  cases h <;> exact ⟨rfl, rfl, rfl, rfl, rfl⟩

private lemma updatePending_spec {pb : TradeState} (hpending : pb.getState = .pending) :
    (updatePending cfg).wp pb (Update.Outcome pb) := by
  simp only [updatePending, Act.wp_bind, Act.wp_read, Act.afterBind_ok]
  cases hours : pb.ourPsbt with
  | none => exact .fails (by simp)
  | some ours =>
      have keeps : ∀ (tr : Conversation) (c : Option UInt64), Quiet tr →
          Update.Outcome pb tr (.ok ()) { pb with conflictHeight := c } :=
        fun tr c hq => .keeps c hq
      have settles : ∀ (tr : Conversation) (st : TradeStatus), Quiet tr →
          st = .success ∨ st = .failed → Update.Outcome pb tr (.ok ()) { pb with state := some st } :=
        fun tr st hq hst => .settles hpending hst (by simp [hours]) hq
      rw [hours] at keeps settles
      simp only [Act.wp_bind, Act.wp_monadLift, wp_rpc, Act.afterBind_ok, Act.afterBind_error]
      refine ⟨fun decoded => ⟨fun state => ?_, .fails (by simp [Ev.quiet]),
        .fails (by simp [Ev.quiet])⟩, .fails (by simp), .fails (by simp)⟩
      obtain ⟨curHeight, gspState⟩ := state
      cases gspState with
      | confirmed confHeight =>
          simp only [Act.wp_bind, wp_check, Act.afterBind_ok, Act.afterBind_error, Act.wp_ite,
            Act.wp_write]
          exact ⟨fun _ => ⟨fun _ => settles _ _ (by simp [Ev.quiet]) (Or.inl rfl),
            fun _ => keeps _ _ (by simp [Ev.quiet])⟩, fun _ => .fails (by simp [Ev.quiet])⟩
      | pending => exact keeps _ _ (by simp [Ev.quiet])
      | unknown =>
          simp only [Act.wp_bind, Act.wp_monadLift]
          refine Act.wp_mono (anyInputSpent_quiet _) fun tr r _ hq => ?_
          cases r with
          | error e => exact .fails (by simp [Ev.quiet, hq])
          | ok conflicted =>
              cases conflicted with
              | false => exact keeps _ _ (by simp [Ev.quiet, hq])
              | true =>
                  simp only [Act.afterBind_ok, Bool.not_true, Bool.false_eq_true, if_false]
                  cases hc : pb.conflictHeight with
                  | none => exact keeps _ _ (by simp [Ev.quiet, hq])
                  | some h =>
                      rw [hc] at settles
                      simp only [Act.wp_ite, Act.wp_write, Act.wp_pure]
                      refine ⟨fun _ => settles _ _ (by simp [Ev.quiet, hq]) (Or.inr rfl), fun _ => ?_⟩
                      have := keeps ([Ev.returned (.decodepsbt ours) decoded,
                        Ev.returned (.checktrade decoded.tx.btxid) (curHeight, .unknown)] ++ tr)
                        (some h) (by simp [Ev.quiet, hq])
                      rw [← hours, ← hc] at this
                      simpa using this

theorem updateTrade_spec (pb : TradeState) : (updateTrade cfg).wp pb (Update.Outcome pb) := by
  have same : ∀ tr : Conversation, Quiet tr → Update.Outcome pb tr (.ok ()) pb :=
    fun tr hq => .keeps pb.conflictHeight hq
  simp only [updateTrade, Act.wp_bind, Act.wp_read, Act.afterBind_ok, List.nil_append]
  cases hst : pb.getState with
  | initiated =>
      simp only [Act.wp_bind, wp_getCurrentTime, Act.afterBind_ok, Act.wp_ite, Act.wp_write,
        Act.wp_pure]
      exact fun now => ⟨fun _ => .abandons hst (by simp [Ev.quiet]), fun _ => same _ (by simp [Ev.quiet])⟩
  | pending => exact updatePending_spec hst
  | success => exact same _ (by simp)
  | failed => exact same _ (by simp)
  | abandoned => exact same _ (by simp)

end Democrit
