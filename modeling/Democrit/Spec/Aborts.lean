import Democrit.Spec.System

/-!
# Which assertions can fail where

`Avoids bad P m` says that no assertion in `bad` can fail in `m`, given that the object has the
property `P`, which `m` keeps.  It goes through the constructions a method is made of, so that a
method avoids what its parts avoid.

The assertions about the total are the only ones in the trades that depend on more than what has
been checked just before; `Harmless` is the condition on price and units under which they do not
fail in a bad way.
-/

namespace Democrit

open Interaction

/-! ## The rules -/

section Rules

variable {bad : Check → Prop} {σ τ : Type} {P : σ → Prop} {α β : Type}

/-- No bad assertion fails. -/
def Spares (bad : Check → Prop) (r : Except Fail α) : Prop := ∀ c, r = .error (.check c) → ¬ bad c

/-- No bad assertion fails in `m`, and `P` is kept. -/
def Avoids (bad : Check → Prop) (P : σ → Prop) (m : M σ α) : Prop :=
  ∀ s, P s → m.wp s fun _ r s' => P s' ∧ Spares bad r

lemma spares_ok (a : α) : Spares bad (.ok a) := by simp [Spares]

lemma spares_check {c : Check} (h : ¬ bad c) : Spares bad (.error (.check c) : Except Fail α) := by
  intro c' hc'
  cases hc'
  exact h

/-- An error is as bad wherever it comes out. -/
lemma Spares.error {e : Fail} (h : Spares bad (.error e : Except Fail α)) :
    Spares bad (.error e : Except Fail β) :=
  fun c hc => h c (by rw [Except.error.inj hc])

lemma avoids_pure (a : α) : Avoids bad P (pure a : M σ α) := fun _ hs => ⟨hs, spares_ok a⟩

lemma avoids_fail {c : Check} (h : ¬ bad c) : Avoids bad P (Act.fail (.check c) : M σ α) :=
  fun _ hs => ⟨hs, spares_check h⟩

lemma avoids_write {s : σ} (h : P s) : Avoids bad P (Act.write s : M σ Unit) :=
  fun _ _ => ⟨h, spares_ok ()⟩

lemma avoids_check {c : Check} {b : Bool} (h : b = false → ¬ bad c) :
    Avoids bad P (check c b : M σ Unit) := by
  intro s hs
  exact (wp_check c b).mpr ⟨fun _ => ⟨hs, spares_ok ()⟩, fun hb => ⟨hs, spares_check (h hb)⟩⟩

lemma avoids_clock : Avoids bad P (getCurrentTime : M σ Int64) := fun _ hs _ => ⟨hs, spares_ok _⟩

lemma avoids_bind {m : M σ α} {f : α → M σ β} (hm : Avoids bad P m)
    (hf : ∀ a, Avoids bad P (f a)) : Avoids bad P (m >>= f) := by
  intro s hs
  rw [Act.wp_bind]
  refine Act.wp_mono (hm s hs) fun tr r s' ⟨hs', hr⟩ => ?_
  cases r with
  | error e => exact ⟨hs', hr.error⟩
  | ok a => exact hf a s' hs'

/-- What was read has the property. -/
lemma avoids_read {f : σ → M σ β} (hf : ∀ s, P s → Avoids bad P (f s)) :
    Avoids bad P (Act.read >>= f) := by
  intro s hs
  rw [Act.wp_bind]
  exact hf s hs s hs

lemma avoids_lift {m : Query α} (hm : Avoids bad (fun _ => True) m) :
    Avoids bad P (monadLift m : M σ α) := by
  intro s hs
  rw [Act.wp_monadLift]
  exact Act.wp_mono (hm () trivial) fun tr r _ h => ⟨hs, h.2⟩

/-- Working on another object, and looking at how that ended. -/
lemma avoids_on {Q : τ → Prop} {m : M τ α} {t : τ} {f : Except Fail α × τ → M σ β}
    (hm : Avoids bad Q m) (ht : Q t)
    (hf : ∀ r t', Q t' → Spares bad r → Avoids bad P (f (r, t'))) :
    Avoids bad P (m.on t >>= f) := by
  intro s hs
  rw [Act.wp_bind, Act.wp_on]
  exact Act.wp_mono (hm t ht) fun tr r t' ⟨ht', hr⟩ => hf r t' ht' hr s hs

lemma avoids_rpc (hshape : ¬ bad .replyShape) (m : Method) : Avoids bad (fun _ => True) (rpc m) := by
  intro u _
  exact (wp_rpc m).mpr ⟨fun r => ⟨trivial, spares_ok r⟩, ⟨trivial, by simp [Spares]⟩,
    ⟨trivial, spares_check hshape⟩⟩

lemma avoids_judge {x : Except Check α} (h : ∀ c, x = .error c → ¬ bad c) :
    Avoids bad (fun _ => True) (judge x) := by
  intro u _
  exact (wp_judge x).mpr ⟨fun a _ => ⟨trivial, spares_ok a⟩,
    fun c hc => ⟨trivial, spares_check (h c hc)⟩⟩

lemma avoids_lockUnspent (lock : Bool) (out : OutPoint) :
    Avoids bad (fun _ => True) (lockUnspent lock out) := by
  intro u _
  exact (wp_lockUnspent lock out).mpr
    ⟨fun b => ⟨trivial, spares_ok b⟩, fun e => ⟨trivial, spares_ok false⟩⟩

lemma unlockAll_avoids : ∀ outs : List OutPoint, Avoids bad (fun _ => True) (unlockAll outs)
  | [] => avoids_pure _
  | _ :: rest => avoids_bind (avoids_lockUnspent _ _) fun _ => unlockAll_avoids rest

end Rules

/-! ## The assertions of a trade -/

/-- The assertions in `HasReply` that are not about the total. -/
def tradeChecks : List Check :=
  [.replyShape, .sellerAddresses, .nameOutput, .nameEncoding, .nameOpFields, .nameOpNull,
    .outputValue, .sameTx, .sameInputs, .buyerConstructs, .notComplete, .ourPsbt]

/-- The total of the trade does not make a bad assertion fail. -/
structure Harmless (bad : Check → Prop) (ck : TradeChecker) : Prop where
  units : ∀ c, ck.getTotalSat = .error c → ¬ bad c
  computable : ck.getTotalSat = .ok none → ¬ bad .totalComputable
  nonNegative : ∀ total, ck.getTotalSat = .ok (some total) → ¬ 0 ≤ total → ¬ bad .totalNonNegative

/-- The assertions in `CheckForSellerSignature`. -/
def signatureChecks : List Check := [.replyShape, .nameOutput, .sameTx, .sameInputs]

/-- The assertions in the part of `HasReply` that shares or broadcasts. -/
def shareChecks : List Check := [.replyShape, .ourPsbt]

lemma signatureChecks_subset : signatureChecks ⊆ tradeChecks := by decide

lemma shareChecks_subset : shareChecks ⊆ tradeChecks := by decide

section

variable {bad : Check → Prop} (hbad : ∀ c ∈ signatureChecks, ¬ bad c)

include hbad

lemma sellerSignature_avoids {nmOut : OutPoint} {before after : Psbt} {c : Check}
    (h : sellerSignature nmOut before after = .error c) : ¬ bad c := by
  rw [sellerSignature] at h
  split_ifs at h
  · exact hbad c (by rw [← Except.error.inj h]; decide)
  · split at h
    · simp at h
    · exact hbad c (by rw [← Except.error.inj h]; decide)
  · split at h <;> simp at h

lemma checkForSellerSignature_avoids (beforeStr afterStr : String) (sd : SellerData) :
    Avoids bad (fun _ => True) (TradeChecker.checkForSellerSignature beforeStr afterStr sd) := by
  have hshape := hbad .replyShape (by decide)
  rw [TradeChecker.checkForSellerSignature]
  cases sd.nameOutput with
  | none => exact avoids_fail (hbad _ (by decide))
  | some nmOut =>
      refine avoids_bind (avoids_rpc hshape _) fun before => ?_
      refine avoids_bind (avoids_rpc hshape _) fun after => ?_
      exact avoids_judge fun c hc => sellerSignature_avoids hbad hc

end

lemma shareOrBroadcast_avoids {account : String} {bad : Check → Prop}
    (hbad : ∀ c ∈ shareChecks, ¬ bad c) {P : TradeState → Prop}
    (hP : ∀ pb pb', Frame pb pb' → P pb → P pb') : Avoids bad P (shareOrBroadcast account) := by
  have hshape := hbad .replyShape (by decide)
  refine avoids_read fun pb hpb => ?_
  have hpending : P { pb with state := some .pending } := hP pb _ ⟨rfl, rfl, rfl, rfl, rfl⟩ hpb
  cases hours : pb.ourPsbt with
  | none => exact avoids_fail (hbad _ (by decide))
  | some ours =>
      rw [hours] at hpending
      cases getRole account pb with
      | taker => exact avoids_bind (avoids_write hpending) fun _ => avoids_pure _
      | maker =>
          cases htheirs : pb.theirPsbt with
          | none => exact avoids_pure _
          | some theirs =>
              rw [htheirs] at hpending
              have hfinal : Avoids bad (fun _ => True) (finalPsbt account pb theirs ours) := by
                rw [finalPsbt]
                cases getOrderType account pb with
                | bid => exact avoids_rpc hshape _
                | ask => exact avoids_pure _
              refine avoids_bind (avoids_lift hfinal) fun psbt => ?_
              refine avoids_bind (avoids_lift (avoids_rpc hshape _)) fun hex => ?_
              cases hex with
              | none => exact avoids_pure _
              | some hex =>
                  refine avoids_bind (avoids_lift (avoids_rpc hshape _)) fun _ => ?_
                  exact avoids_bind (avoids_write hpending) fun _ => avoids_pure _

section

variable {cfg : Config} {account : String} {bad : Check → Prop} {ck : TradeChecker}
  (hbad : ∀ c ∈ tradeChecks, ¬ bad c)

include hbad

lemma scanOutputs_avoids {nameAddress chiAddress name value : String} {total : Amount} {c : Check} :
    ∀ {vout : List TxOut} {fc fn : Bool},
      scanOutputs nameAddress chiAddress name value total vout fc fn = .error c → ¬ bad c
  | [], fc, fn, h => by simp [scanOutputs] at h
  | out :: rest, fc, fn, h => by
      rw [scanOutputs] at h
      split at h
      · split_ifs at h
        · exact hbad c (by rw [← Except.error.inj h]; decide)
        · exact hbad c (by rw [← Except.error.inj h]; decide)
        · exact scanOutputs_avoids h
        · exact scanOutputs_avoids h
        · exact hbad c (by rw [← Except.error.inj h]; decide)
      · exact hbad c (by rw [← Except.error.inj h]; decide)
      · split_ifs at h
        · split at h
          · exact hbad c (by rw [← Except.error.inj h]; decide)
          · split_ifs at h
            · exact scanOutputs_avoids h
            · exact scanOutputs_avoids h
        · exact scanOutputs_avoids h

lemma sellerOutputs_avoids (hck : Harmless bad ck) {sd : SellerData} {psbt : Psbt} {c : Check}
    (h : sellerOutputs cfg ck sd psbt = .error c) : ¬ bad c := by
  rw [sellerOutputs] at h
  cases ht : ck.getTotalSat with
  | error c' =>
      simp only [ht, bind, Except.bind] at h
      rw [← Except.error.inj h]
      exact hck.units c' ht
  | ok t =>
      cases t with
      | none => simp [ht, bind, Except.bind] at h
      | some total =>
          simp only [ht, bind, Except.bind] at h
          split_ifs at h with hneg
          · split at h
            · rename_i e he
              rw [← Except.error.inj h]
              exact scanOutputs_avoids hbad he
            · simp at h
          · rw [← Except.error.inj h]
            exact hck.nonNegative total ht hneg

lemma buyerSignature_avoids {before after : Psbt} {c : Check}
    (h : buyerSignature before after = .error c) : ¬ bad c := by
  rw [buyerSignature] at h
  split_ifs at h
  · exact hbad c (by rw [← Except.error.inj h]; decide)
  · exact hbad c (by rw [← Except.error.inj h]; decide)

lemma isBlockAncestor_avoids (ancestor : Uint256) :
    ∀ (n : ℕ) (child : Uint256), Avoids bad (fun _ => True) (isBlockAncestor ancestor child n) := by
  have hshape := hbad .replyShape (by decide)
  intro n
  induction n with
  | zero =>
      intro child
      rw [isBlockAncestor]
      split <;> exact avoids_pure _
  | succ n ih =>
      intro child
      rw [isBlockAncestor]
      split
      · exact avoids_pure _
      · refine avoids_bind (avoids_rpc hshape _) fun parent => ?_
        cases parent with
        | none => exact avoids_pure _
        | some parent => exact ih parent

lemma checkForBuyerTrade_avoids : Avoids bad (fun _ => True) ck.checkForBuyerTrade := by
  have hshape := hbad .replyShape (by decide)
  refine avoids_bind (avoids_rpc hshape _) fun valid => ?_
  split
  · exact avoids_pure _
  · refine avoids_bind (avoids_rpc hshape _) fun canBuy => ?_
    split
    · exact avoids_pure _
    · refine avoids_bind (avoids_rpc hshape _) fun nameInput => ?_
      refine avoids_bind (avoids_rpc hshape _) fun utxo => ?_
      cases utxo with
      | none => exact avoids_pure _
      | some utxoBlock =>
          refine avoids_bind (avoids_rpc hshape _) fun gsp => ?_
          cases gsp with
          | none => exact avoids_pure _
          | some gspBlock =>
              refine avoids_bind (isBlockAncestor_avoids hbad _ _ _) fun ok => ?_
              split <;> exact avoids_pure _

lemma constructTransaction_avoids (hck : Harmless bad ck) (pb : TradeState) (nameIn : OutPoint) :
    Avoids bad (fun _ => True) (constructTransaction cfg account ck pb nameIn) := by
  have hshape := hbad .replyShape (by decide)
  refine avoids_bind (avoids_check fun _ => hbad _ (by decide)) fun _ => ?_
  refine avoids_bind (avoids_check fun _ => hbad _ (by decide)) fun _ => ?_
  intro u _
  rw [Act.wp_bind, wp_judge]
  refine ⟨fun t ht => ?_, fun c hc => ⟨trivial, spares_check (hck.units c hc)⟩⟩
  cases t with
  | none => exact ⟨trivial, spares_check (hck.computable ht)⟩
  | some total =>
      refine avoids_bind (avoids_rpc hshape _) (fun chiPart => ?_) () trivial
      refine avoids_bind (avoids_rpc hshape _) fun rawNamePart => ?_
      refine avoids_bind (avoids_rpc hshape _) fun namePart => ?_
      exact avoids_rpc hshape _

lemma checkForBuyerSignature_avoids (beforeStr afterStr : String) :
    Avoids bad (fun _ => True) (TradeChecker.checkForBuyerSignature beforeStr afterStr) := by
  have hshape := hbad .replyShape (by decide)
  refine avoids_bind (avoids_rpc hshape _) fun before => ?_
  refine avoids_bind (avoids_rpc hshape _) fun after => ?_
  exact avoids_judge fun c hc => buyerSignature_avoids hbad hc

lemma checkForSellerOutputs_avoids (hck : Harmless bad ck) (psbt : String) (sd : SellerData) :
    Avoids bad (fun _ => True) (ck.checkForSellerOutputs cfg psbt sd) := by
  have hshape := hbad .replyShape (by decide)
  refine avoids_bind (avoids_check fun _ => hbad _ (by decide)) fun _ => ?_
  refine avoids_bind (avoids_rpc hshape _) fun decoded => ?_
  exact avoids_judge fun c hc => sellerOutputs_avoids hbad hck hc

/-! ## `HasReply` -/

variable {P : TradeState → Prop} (hP : ∀ pb pb', Frame pb pb' → P pb → P pb')
  (hck : ∀ pb, P pb → Harmless bad (buildTradeChecker account pb))

include hP

lemma createSellerData_avoids : Avoids bad P (createSellerData account) := by
  have hshape := hbad .replyShape (by decide)
  refine avoids_read fun pb hpb => ?_
  split
  · exact avoids_pure _
  · refine avoids_bind (avoids_lift (avoids_rpc hshape _)) fun out => ?_
    refine avoids_bind (avoids_lift (avoids_lockUnspent _ _)) fun locked => ?_
    split
    · exact avoids_pure _
    · refine avoids_bind (avoids_lift (avoids_rpc hshape _)) fun nameAddress => ?_
      refine avoids_bind (avoids_lift (avoids_rpc hshape _)) fun chiAddress => ?_
      exact avoids_bind (avoids_write (hP pb _ ⟨rfl, rfl, rfl, rfl, rfl⟩ hpb)) fun _ => avoids_pure _

include hck

lemma signAsSeller_avoids : Avoids bad P (signAsSeller cfg account) := by
  have hshape := hbad .replyShape (by decide)
  refine avoids_read fun pb hpb => ?_
  refine avoids_bind (avoids_lift (checkForSellerOutputs_avoids hbad (hck pb hpb) _ _)) fun ok => ?_
  split
  · exact avoids_pure _
  · refine avoids_bind (avoids_lift (avoids_rpc hshape _)) fun signed => ?_
    obtain ⟨psbt, complete⟩ := signed
    refine avoids_bind (avoids_lift (checkForSellerSignature_avoids
      (fun c hc => hbad c (signatureChecks_subset hc)) _ _ _)) fun ok => ?_
    split
    · exact avoids_pure _
    · split
      · exact avoids_pure _
      · exact avoids_bind (avoids_write (hP pb _ ⟨rfl, rfl, rfl, rfl, rfl⟩ hpb)) fun _ => avoids_pure _

lemma constructAsBuyer_avoids : Avoids bad P (constructAsBuyer cfg account) := by
  have hshape := hbad .replyShape (by decide)
  refine avoids_read fun pb hpb => ?_
  refine avoids_bind (avoids_lift (checkForBuyerTrade_avoids hbad)) fun nameIn => ?_
  cases nameIn with
  | none => exact avoids_pure _
  | some nameIn =>
      refine avoids_bind (avoids_lift (constructTransaction_avoids hbad (hck pb hpb) _ _))
        fun unsignedPsbt => ?_
      refine avoids_bind (avoids_lift (avoids_rpc hshape _)) fun signed => ?_
      obtain ⟨signedPsbt, complete⟩ := signed
      refine avoids_bind (avoids_lift (checkForBuyerSignature_avoids hbad _ _)) fun ok => ?_
      split
      · refine avoids_bind (avoids_lift ?_) fun _ => avoids_pure _
        exact avoids_bind (avoids_rpc hshape _) fun decoded => unlockAll_avoids _
      · refine avoids_bind (avoids_check fun _ => hbad _ (by decide)) fun _ => ?_
        exact avoids_bind (avoids_write (hP pb _ ⟨rfl, rfl, rfl, rfl, rfl⟩ hpb)) fun _ => avoids_pure _

/-- **`HasReply` fails no bad assertion on a trade with a harmless total.** -/
theorem hasReply_avoids : Avoids bad P (hasReply cfg account) := by
  have share : Avoids bad P (shareOrBroadcast account) :=
    shareOrBroadcast_avoids (fun c hc => hbad c (shareChecks_subset hc)) hP
  refine avoids_read fun pb hpb => ?_
  split
  · exact avoids_pure _
  · refine avoids_bind (createSellerData_avoids hbad hP) fun created => ?_
    refine avoids_read fun pb hpb => ?_
    split
    · exact avoids_pure _
    · split
      · exact avoids_pure _
      · refine avoids_read fun pb hpb => ?_
        cases getOrderType account pb with
        | ask =>
            dsimp only
            split
            · exact avoids_pure _
            · split
              · refine avoids_bind (signAsSeller_avoids hbad hP hck) fun signed => ?_
                split
                · exact avoids_pure _
                · exact share
              · exact share
        | bid =>
            dsimp only
            split
            · refine avoids_bind (constructAsBuyer_avoids hbad hP hck) fun built => ?_
              cases built with
              | stop => exact avoids_pure _
              | built unsignedPsbt =>
                  dsimp only
                  split
                  · exact avoids_pure _
                  · exact share
            · exact share

end

/-! ## Critical sections -/

/-- The assertions of the sections that are neither about a total nor about unlocking an order. -/
def sectionChecks : List Check :=
  tradeChecks ++ [.confirmedHeight, .counterparty, .ownAccount, .archivedState]

section

variable {cfg : Config} {bad : Check → Prop} (hbad : ∀ c ∈ sectionChecks, ¬ bad c)

include hbad

lemma validateOrder_avoids (account : String) (o : Order) :
    Avoids bad (fun _ => True) (validateOrder account o) := by
  have hshape := hbad .replyShape (by decide)
  rw [validateOrder]
  split
  · exact avoids_pure _
  · refine avoids_bind (avoids_rpc hshape _) fun isAsset => ?_
    split
    · exact avoids_pure _
    · cases o.getType with
      | bid =>
          refine avoids_bind (avoids_rpc hshape _) fun canBuy => ?_
          split <;> exact avoids_pure _
      | ask =>
          refine avoids_bind (avoids_rpc hshape _) fun canSell => ?_
          split <;> exact avoids_pure _

lemma refreshLoop_avoids :
    ∀ (entries : List ((_ : UInt64) × Order)) (updated : OrderMap),
      Avoids bad (fun _ => True) (refreshLoop entries updated)
  | [], _ => avoids_pure _
  | ⟨id, o⟩ :: rest, updated => by
      refine avoids_read fun s _ => ?_
      refine avoids_bind (avoids_lift (validateOrder_avoids hbad _ _)) fun valid => ?_
      split
      · exact avoids_bind (avoids_write trivial) fun _ => refreshLoop_avoids rest _
      · exact refreshLoop_avoids rest _

lemma runRefresh_avoids : Avoids bad (fun _ => True) runRefresh := by
  refine avoids_read fun s _ => ?_
  refine avoids_bind (refreshLoop_avoids hbad _ _) fun updated => ?_
  exact avoids_read fun s _ => avoids_write trivial

lemma addOwnOrder_avoids (o : Order) : Avoids bad (fun _ => True) (addOwnOrder o) := by
  refine avoids_read fun s _ => ?_
  refine avoids_bind (avoids_lift (validateOrder_avoids hbad _ _)) fun valid => ?_
  split
  · exact avoids_pure _
  · exact avoids_bind (avoids_write trivial) fun _ => avoids_pure _

lemma receive_avoids (msg : ProcessingMessage) : Avoids bad (fun _ => True) (receive msg) := by
  refine avoids_bind (avoids_check fun _ => hbad _ (by decide)) fun _ => ?_
  cases msg.takingOrder with
  | none => exact avoids_pure _
  | some taking =>
      refine avoids_bind ?_ fun o => ?_
      · refine avoids_read fun s _ => ?_
        cases s.ownOrders.lookup taking.id with
        | none => exact avoids_pure _
        | some o =>
            dsimp only
            split
            · exact avoids_pure _
            · exact avoids_bind (avoids_write trivial) fun _ => avoids_pure _
      · cases o <;> exact avoids_pure _

lemma orderTaken_avoids (o : Order) (units : Amount) (counterparty : String) :
    Avoids bad (fun _ => True) (orderTaken o units counterparty) := by
  rw [orderTaken]
  split
  · exact avoids_pure _
  · refine avoids_bind avoids_clock fun now => ?_
    refine avoids_read fun s _ => ?_
    refine avoids_bind (avoids_check fun _ => hbad _ (by decide)) fun _ => ?_
    split
    · exact avoids_pure _
    · exact avoids_bind (avoids_write trivial) fun _ => avoids_pure _

lemma anyInputSpent_avoids :
    ∀ outs : List OutPoint, Avoids bad (fun _ => True) (anyInputSpent outs)
  | [] => avoids_pure _
  | _ :: rest => by
      refine avoids_bind (avoids_rpc (hbad _ (by decide)) _) fun txout => ?_
      split
      · exact avoids_pure _
      · exact anyInputSpent_avoids rest

lemma updatePending_avoids : Avoids bad (fun _ => True) (updatePending cfg) := by
  have hshape := hbad .replyShape (by decide)
  refine avoids_read fun pb _ => ?_
  cases pb.ourPsbt with
  | none => exact avoids_fail (hbad _ (by decide))
  | some ours =>
      refine avoids_bind (avoids_lift (avoids_rpc hshape _)) fun decoded => ?_
      refine avoids_bind (avoids_lift (avoids_rpc hshape _)) fun state => ?_
      obtain ⟨curHeight, gspState⟩ := state
      cases gspState with
      | confirmed confHeight =>
          refine avoids_bind (avoids_check fun _ => hbad _ (by decide)) fun _ => ?_
          split <;> exact avoids_write trivial
      | pending => exact avoids_write trivial
      | unknown =>
          refine avoids_bind (avoids_lift (anyInputSpent_avoids hbad _)) fun conflicted => ?_
          split
          · exact avoids_write trivial
          · cases pb.conflictHeight with
            | none => exact avoids_write trivial
            | some h =>
                dsimp only
                split
                · exact avoids_write trivial
                · exact avoids_pure _

lemma updateTrade_avoids : Avoids bad (fun _ => True) (updateTrade cfg) := by
  refine avoids_read fun pb _ => ?_
  cases pb.getState with
  | initiated =>
      refine avoids_bind avoids_clock fun now => ?_
      split
      · exact avoids_write trivial
      · exact avoids_pure _
  | pending => exact updatePending_avoids hbad
  | _ => exact avoids_pure _

lemma updateLoop_avoids :
    ∀ todo done stillActive finalised : List TradeState,
      Avoids bad (fun _ => True) (updateLoop cfg done todo stillActive finalised)
  | [], _, _, _ => by
      refine avoids_read fun s _ => ?_
      exact avoids_bind (avoids_write trivial) fun _ => avoids_pure _
  | t :: todo, done, stillActive, finalised => by
      refine avoids_on (updateTrade_avoids hbad) trivial fun r t' _ hr => ?_
      refine avoids_read fun s _ => ?_
      cases r with
      | error e => exact avoids_bind (avoids_write trivial) fun _ _ _ => ⟨trivial, hr.error⟩
      | ok _ =>
          dsimp only
          split
          · exact avoids_bind (avoids_write trivial) fun _ => updateLoop_avoids todo _ _ _
          · exact updateLoop_avoids todo _ _ _

lemma updateTrades_avoids : Avoids bad (fun _ => True) (updateTrades cfg) :=
  avoids_read fun _ _ => updateLoop_avoids hbad _ _ _ _

/-- Handling a finalised trade only fails a bad assertion if it is one of `Unlock`. -/
lemma handleFinalised_avoids (hunlock : ∀ id, Avoids bad (fun _ => True) (unlock id))
    (t : TradeState) : Avoids bad (fun _ => True) (handleFinalised t) := by
  have unsuccessful : ∀ s : State, Avoids bad (fun _ => True)
      (if getRole s.account t = .maker then do
          unlock t.order.getId
          return { next := refreshTasks ++ releaseTasks s.account t }
        else return { next := releaseTasks s.account t } : M State Effect) := by
    intro s
    split
    · exact avoids_bind (hunlock _) fun _ => avoids_pure _
    · exact avoids_pure _
  refine avoids_read fun s _ => ?_
  cases t.getState with
  | initiated => exact avoids_fail (hbad _ (by decide))
  | pending => exact avoids_fail (hbad _ (by decide))
  | abandoned => exact unsuccessful s
  | failed => exact unsuccessful s
  | success =>
      dsimp only
      split
      · refine avoids_bind (avoids_read fun s _ => avoids_write trivial) fun _ => ?_
        split <;> exact avoids_pure _
      · exact avoids_pure _

/-! ## Sections with a trade in them -/

variable {account : String} {P : TradeState → Prop} (hP : ∀ pb pb', Frame pb pb' → P pb → P pb')
  (hck : ∀ pb, P pb → Harmless bad (buildTradeChecker account pb))

include hP hck

lemma processLoop_avoids (msg : ProcessingMessage) :
    ∀ ts : List TradeState, (∀ t ∈ ts, P t) →
      Avoids bad (fun _ => True) (processLoop cfg account msg ts)
  | [], _ => avoids_pure _
  | t :: rest, hts => by
      have hrest := processLoop_avoids msg rest fun x hx => hts x (by simp [hx])
      have hchecks : ∀ c ∈ tradeChecks, ¬ bad c := fun c hc => hbad c (by simp [sectionChecks, hc])
      rw [processLoop]
      split
      · have hprocess : Avoids bad P (processTrade cfg account msg) := by
          refine avoids_read fun pb hpb => ?_
          refine avoids_bind (avoids_write (hP pb _ ?_ hpb)) fun _ => hasReply_avoids hchecks hP hck
          exact (handleMessage_spec msg pb).frame
        refine avoids_on hprocess (hts t (by simp)) fun r t' _ hr => ?_
        cases r with
        | ok reply => exact avoids_pure _
        | error e =>
            cases e with
            | exception => exact avoids_pure _
            | check c => exact avoids_fail (hr c rfl)
      · refine avoids_bind hrest fun x => ?_
        obtain ⟨rest', reply⟩ := x
        exact avoids_pure _

lemma takeOrder_spares {s : State} {o : Order} {units : Amount} (hacc : s.account = account)
    (hnew : checkOrder o units = true → ∀ now, P (newTrade o units o.getAccount now (s.created + 1))) :
    (takeOrder cfg o units).wp s fun _ r _ => Spares bad r := by
  have hchecks : ∀ c ∈ tradeChecks, ¬ bad c := fun c hc => hbad c (by simp [sectionChecks, hc])
  rw [takeOrder]
  split
  · exact spares_ok _
  · rename_i hcheck
    simp only [Act.wp_bind, wp_getCurrentTime, Act.afterBind_ok, Act.wp_read]
    intro now
    split
    · exact spares_ok _
    · simp only [Act.wp_bind, Act.wp_on, hacc]
      have hpb := hnew (by simpa using hcheck) now
      refine Act.wp_mono (hasReply_avoids hchecks hP hck _ hpb) fun tr r pb' h => ?_
      obtain ⟨_, hr⟩ := h
      cases r with
      | ok reply => exact spares_ok _
      | error e =>
          cases e with
          | exception => exact spares_ok _
          | check c => exact spares_check (hr c rfl)

/-- **No bad assertion fails in a section**, if none fails in `Unlock` and all the totals that come
into it are harmless. -/
theorem exec_spares {s : State} (task : Task) (hacc : s.account = account)
    (htrades : ∀ t ∈ s.trades, P t)
    (hnew : ∀ o units, task = .takeOrder o units → checkOrder o units = true → ∀ now,
      P (newTrade o units o.getAccount now (s.created + 1)))
    (hunlock : (∃ id, task = .unlock id) ∨ (∃ t, task = .handle t) →
      ∀ id, Avoids bad (fun _ => True) (unlock id)) :
    (exec cfg task).wp s fun _ r _ => Spares bad r := by
  have of_avoids : ∀ {m : M State Effect}, Avoids bad (fun _ => True) m →
      m.wp s fun _ r _ => Spares bad r :=
    fun h => Act.wp_mono (h s trivial) fun _ _ _ h => h.2
  cases task with
  | add o =>
      refine of_avoids (avoids_bind (addOwnOrder_avoids hbad o) fun b => ?_)
      cases b <;> exact avoids_pure _
  | remove id =>
      exact of_avoids (avoids_bind (avoids_read fun s _ => avoids_write trivial) fun _ => avoids_pure _)
  | refresh => exact of_avoids (avoids_bind (runRefresh_avoids hbad) fun _ => avoids_pure _)
  | getOrders => exact of_avoids (avoids_read fun _ _ => avoids_pure _)
  | updateOrders orders => exact of_avoids (avoids_pure _)
  | receive msg => exact of_avoids (receive_avoids hbad msg)
  | orderTaken o taking msg =>
      refine of_avoids (avoids_bind (orderTaken_avoids hbad o _ _) fun b => ?_)
      cases b <;> exact avoids_pure _
  | unlock id =>
      exact of_avoids (avoids_bind (hunlock (Or.inl ⟨id, rfl⟩) id) fun _ => avoids_pure _)
  | process msg =>
      have hloop := @processLoop_avoids cfg bad hbad account P hP hck msg s.trades htrades
      simp only [exec, processMessage, Act.wp_bind, Act.wp_read, Act.afterBind_ok, Act.wp_monadLift,
        hacc]
      refine Act.wp_mono (hloop () trivial) fun tr r _ h => ?_
      obtain ⟨_, hr⟩ := h
      cases r with
      | ok x => exact spares_ok _
      | error e => exact hr.error
  | takeOrder o units =>
      simp only [exec, Act.wp_bind]
      refine Act.wp_mono (takeOrder_spares hbad hP hck hacc (hnew o units rfl)) fun tr r s' hr => ?_
      cases r with
      | ok reply => exact spares_ok _
      | error e => exact hr.error
  | updateTrades => exact of_avoids (avoids_bind (updateTrades_avoids hbad) fun _ => avoids_pure _)
  | handle t => exact of_avoids (handleFinalised_avoids hbad (hunlock (Or.inr ⟨t, rfl⟩)) t)
  | readInputs t =>
      have hshape := hbad .replyShape (by decide)
      exact of_avoids (avoids_bind (avoids_lift (avoids_rpc hshape _)) fun _ => avoids_pure _)
  | unlockOutput t out =>
      exact of_avoids (avoids_bind (avoids_lift (avoids_lockUnspent _ _)) fun _ => avoids_pure _)

end

end Democrit
