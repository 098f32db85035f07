import Democrit.Spec.Core

/-!
# The seller is safe

Whatever the counterparty sends and whatever fails in between, **a PSBT that we have signed as the
seller pays us**: the unsigned transaction is the one we were sent, it has an output of at least
the exact product of price and units to our CHI address, it gives the name away only for the
agreed move and to our own address, and of its inputs only the one of our name has been touched.

The invariant lives on single trades (`SellerSafe`).  It is established where the two checks of
`HasReply` succeed, and kept because everything it speaks about is written once: the seller data
is our own and never taken from a message, the other side's PSBT is never replaced, and ours is only
set by the branch that has just run the checks.
-/

namespace Democrit

open Interaction

variable {cfg : Config} {account : String} {W : Type} {E : Env Call Answer W}
  {decode : String → Psbt}

/-- The value `p/account` has to be updated to for a sale of `units` of `asset` to `buyer`. -/
def saleValue (cfg : Config) (seller buyer asset : String) (units : UInt64) : String :=
  cfg.writeString
    (nameUpdateJson cfg.getGameId (cfg.getTransferMove seller buyer asset units.toInt64))

/-- What the PSBT we signed as the seller guarantees. -/
structure SellerSafe (cfg : Config) (account : String) (decode : String → Psbt) (t : TradeState)
    (ours : String) : Prop where
  stored : ∃ nameAddress chiAddress nameOutput theirs,
    t.sellerData = some ⟨some nameAddress, some chiAddress, some nameOutput⟩ ∧
    t.theirPsbt = some theirs ∧
    (decode ours).tx = (decode theirs).tx ∧
    (t.order.getPriceSat.toNat * t.units.toNat = 0 ∨
      ∃ out ∈ (decode ours).tx.vout,
        PaysChi chiAddress (t.order.getPriceSat.toNat * t.units.toNat : ℕ) out) ∧
    (∃ out ∈ (decode ours).tx.vout, UpdatesName nameAddress ("p/" ++ account)
      (saleValue cfg account t.counterparty t.order.getAsset t.units) out) ∧
    ∃ i : ℕ, (decode ours).tx.vin[i]? = some nameOutput ∧
      ∀ j ≠ i, (decode theirs).inputs[j]? = (decode ours).inputs[j]?

/-! ## The checks establish it -/

/-- With positive units and a total that is not negative, neither the price nor the units were
changed by becoming signed, so that their product is exact. -/
lemma signed_product {price units : UInt64} (hu : 0 < units.toInt64.toInt)
    (ht : 0 ≤ price.toInt64.toInt * units.toInt64.toInt) :
    price.toInt64.toInt * units.toInt64.toInt = (price.toNat * units.toNat : ℕ) := by
  have hp : 0 ≤ price.toInt64.toInt := by
    by_contra hneg
    push Not at hneg
    exact absurd ht (not_le.mpr (mul_neg_of_neg_of_pos hneg hu))
  rw [Word.toInt_toInt64_of_lt (Word.toNat_lt_of_nonneg hp),
    Word.toInt_toInt64_of_lt (Word.toNat_lt_of_nonneg hu.le)]
  push_cast
  rfl

/-- As the seller, we are the one the checker is told to be the seller. -/
lemma buildTradeChecker_ask {pb : TradeState} (h : getOrderType account pb = .ask) :
    buildTradeChecker account pb =
      { buyer := pb.counterparty, seller := account, asset := pb.order.getAsset,
        price := pb.order.getPriceSat.toInt64, units := pb.units.toInt64 } := by
  simp only [buildTradeChecker, h]

lemma SellerSigns.safe (hdec : Decodes decode E) {pb : TradeState} {tr : Conversation}
    {psbt : String} {w w' : W} (h : SellerSigns cfg account pb tr psbt) (htheirs : pb.theirPsbt.isSome)
    (hp : E.Path w tr w') : SellerSafe cfg account decode pb psbt := by
  obtain ⟨nmOut, decoded, before, after, complete, hnm, hchi, hname, _, rfl, hout, hsig⟩ := h.verified
  obtain rfl := hdec.of_path hp (p := pb.theirPsbt.getD "") (d := decoded) (by simp)
  obtain rfl := hdec.of_path hp (p := pb.theirPsbt.getD "") (d := before) (by simp)
  obtain rfl := hdec.of_path hp (p := psbt) (d := after) (by simp)
  obtain ⟨theirs, htheirs⟩ := Option.isSome_iff_exists.mp htheirs
  obtain ⟨htx, _, i, hi, hrest⟩ := sellerSignature_true hsig
  obtain ⟨hunits, htotal, hpaid, hupdated⟩ := sellerOutputs_true hout
  rw [buildTradeChecker_ask h.isAsk] at hunits htotal hpaid hupdated
  dsimp only at hunits htotal hpaid hupdated
  rw [signed_product hunits htotal] at hpaid
  rw [htheirs, Option.getD_some] at htx hi hrest hpaid hupdated
  rw [htx] at hi hpaid hupdated
  cases hsd : pb.sellerData with
  | none => simp [hsd] at hnm
  | some sd =>
      obtain ⟨nameAddress, chiAddress, nameOutput⟩ := sd
      rw [hsd] at hnm hchi hname hpaid hupdated
      obtain ⟨chiAddress, rfl⟩ := Option.isSome_iff_exists.mp hchi
      obtain ⟨nameAddress, rfl⟩ := Option.isSome_iff_exists.mp hname
      obtain rfl : nameOutput = some nmOut := hnm
      refine ⟨nameAddress, chiAddress, nmOut, theirs, hsd, htheirs, htx.symm, ?_, hupdated, i, hi, hrest⟩
      exact hpaid.imp_left fun h => by exact_mod_cast h

/-! ## Nothing breaks it -/

/-- The promise only looks at what is written once. -/
lemma SellerSafe.congr {t t' : TradeState} {ours : String} (h : SellerSafe cfg account decode t ours)
    (horder : t'.order = t.order) (hunits : t'.units = t.units)
    (hparty : t'.counterparty = t.counterparty) (hsd : t'.sellerData = t.sellerData)
    (htheirs : t'.theirPsbt = t.theirPsbt) : SellerSafe cfg account decode t' ours := by
  obtain ⟨nameAddress, chiAddress, nameOutput, theirs, h₁, h₂, h₃⟩ := h.stored
  refine ⟨nameAddress, chiAddress, nameOutput, theirs, hsd.trans h₁, htheirs.trans h₂, ?_⟩
  rwa [horder, hunits, hparty]

/-- The invariant of single trades. -/
def SellerInv (cfg : Config) (account : String) (decode : String → Psbt) (t : TradeState) : Prop :=
  getOrderType account t = .ask → ∀ ours, t.ourPsbt = some ours →
    SellerSafe cfg account decode t ours

/-- **The rule for facts about what the seller signed.**  A fact that signing establishes, and that
depends on nothing but what is written once, holds of every PSBT of ours in a sale. -/
theorem sellerSignsRule {Q : TradeState → String → Prop}
    (hset : ∀ t ours, Q t ours → t.sellerData ≠ none ∧ t.theirPsbt ≠ none)
    (hcongr : ∀ t t' ours, Frame t t' → t'.sellerData = t.sellerData → t'.theirPsbt = t.theirPsbt →
      Q t ours → Q t' ours)
    (hsigns : ∀ t tr psbt w w', SellerSigns cfg account t tr psbt → t.theirPsbt.isSome →
      E.Path w tr w' → Q t psbt) :
    TradeRule cfg E account fun _ t =>
      getOrderType account t = .ask → ∀ ours, t.ourPsbt = some ours → Q t ours where
  blank _ := by
    intro _ ours h
    simp at h
  new _ _ _ _ _ _ _ := by
    intro _ ours h
    simp [newTrade] at h
  later _ _ _ h := h
  receives _ msg t h := by
    have hrec := @handleMessage_spec account msg t
    generalize handleMessage account msg t = t' at hrec
    intro hask ours hours
    have hask₀ : getOrderType account t = .ask := by
      rw [← hrec.frame.getOrderType]
      exact hask
    have hours₀ : t.ourPsbt = some ours := by
      rw [hrec.eq] at hours
      exact hours
    have hQ := h hask₀ ours hours₀
    obtain ⟨hsome, hsome'⟩ := hset t ours hQ
    have htheirs : t'.theirPsbt = t.theirPsbt := by
      rcases hrec.theirPsbt with h | ⟨hnone, _⟩
      · exact h
      · exact absurd hnone hsome'
    have hsd : t'.sellerData = t.sellerData := by
      rcases hrec.sellerData with h | ⟨_, hnone, _⟩
      · exact h
      · exact absurd hnone hsome
    exact hcongr t t' ours hrec.frame hsd htheirs hQ
  replies _ _ t tr r t' w w' h _ hp hout := by
    -- a trade whose state alone changed
    have pending : getOrderType account { t with state := some .pending } = .ask →
        ∀ ours, t.ourPsbt = some ours → Q { t with state := some .pending } ours := by
      intro hask ours hours
      exact hcongr t _ ours ⟨rfl, rfl, rfl, rfl, rfl⟩ rfl rfl (h hask ours hours)
    have signed : ∀ {tr psbt w w'} (st : Option TradeStatus), SellerSigns cfg account t tr psbt →
        t.theirPsbt.isSome → E.Path w tr w' →
        ∀ ours, some psbt = some ours → Q { t with ourPsbt := some psbt, state := st } ours := by
      intro tr psbt w w' st hs htheirs hp ours hours
      rw [← Option.some.inj hours]
      exact hcongr t _ psbt ⟨rfl, rfl, rfl, rfl, rfl⟩ rfl rfl (hsigns t tr psbt w w' hs htheirs hp)
    have buyer : ∀ {tr nameIn unsignedPsbt signedPsbt} {P : Prop},
        BuyerBuilds cfg account t tr nameIn unsignedPsbt signedPsbt →
        getOrderType account t = .ask → P := by
      intro tr nameIn unsignedPsbt signedPsbt P hb hask
      have hbid := hb.isBid
      rw [hask] at hbid
      simp at hbid
    cases hout with
    | rest => exact h
    | nameLeaked => exact h
    | sendsSellerData _ hask hnone =>
        intro _ ours hours
        exact absurd hnone (hset t ours (h hask ours hours)).1
    | sellerShares _ _ htheirs hs _ => exact fun _ => signed _ hs htheirs hp
    | sellerKeeps _ _ htheirs hs _ _ _ =>
        obtain ⟨w₁, hp, _⟩ := Env.path_append.mp hp
        exact fun _ => signed _ hs htheirs hp
    | sellerBroadcasts _ _ htheirs hs _ _ =>
        obtain ⟨w₁, hp, _⟩ := Env.path_append.mp hp
        exact fun _ => signed _ hs (by simp [htheirs]) hp
    | coinsLeaked => exact h
    | coinsReleased => exact h
    | buyerOffers _ _ hb _ => exact fun hask => buyer hb hask
    | buyerShares _ _ hb _ => exact fun hask => buyer hb hask
    | shares => exact pending
    | broadcasts => exact pending
  updates _ t tr t' h hout := by
    intro hask ours hours
    have hsame : t'.ourPsbt = t.ourPsbt ∧ t'.sellerData = t.sellerData ∧
        t'.theirPsbt = t.theirPsbt := by
      cases hout <;> exact ⟨rfl, rfl, rfl⟩
    rw [hsame.1] at hours
    rw [hout.frame.getOrderType] at hask
    exact hcongr t t' ours hout.frame hsame.2.1 hsame.2.2 (h hask ours hours)

lemma sellerRule (hdec : Decodes decode E) :
    TradeRule cfg E account fun _ t => SellerInv cfg account decode t := by
  refine sellerSignsRule ?_ ?_ ?_
  · intro t ours h
    obtain ⟨_, _, _, _, hsd, htheirs, _⟩ := h.stored
    exact ⟨by simp [hsd], by simp [htheirs]⟩
  · intro t t' ours hf hsd htheirs h
    exact h.congr hf.order hf.units hf.counterparty hsd htheirs
  · intro t tr psbt w w' hs htheirs hp
    exact hs.safe hdec htheirs hp

/-! ## Every run -/

/-- **Seller safety.**  In every run, a PSBT that we signed as the seller has the properties above; a
PSBT that leaves us in a message for a sale is such a one, and so is the PSBT that a transaction
we broadcast for a sale was finalised from. -/
theorem seller_safe (hdec : Decodes decode E) {x : Sys × W}
    (hr : (system cfg E account).Reachable x) :
    (∀ t, x.1.Knows t → getOrderType account t = .ask → ∀ ours, t.ourPsbt = some ours →
      SellerSafe cfg account decode t ours) ∧
    (∀ rec ∈ x.1.log, ∀ reply p, rec.reply = some reply → reply.psbt = some p →
      ∃ msg t t', rec.Processes msg t t' ∧ (getOrderType account t' = .ask →
        t'.ourPsbt = some p ∧ SellerSafe cfg account decode t' p)) ∧
    (∀ rec ∈ x.1.log, ∀ hex ∈ broadcasts rec.talk,
      ∃ msg t t', rec.Processes msg t t' ∧ (getOrderType account t' = .ask →
        ∃ ours, t'.ourPsbt = some ours ∧ Ev.returned (.finalizepsbt ours) (some hex) ∈ rec.talk ∧
          SellerSafe cfg account decode t' ours)) := by
  -- a trade that a recorded section has left is safe, since that section was a step of this run
  have recorded : ∀ rec ∈ x.1.log, rec.pre.account = account ∧
      Section cfg rec.pre rec.task rec.talk rec.outcome rec.post ∧
      ∀ t ∈ rec.post.trades, SellerInv cfg account decode t := by
    intro rec hrec
    obtain ⟨y, z, hy, hs, _⟩ := reachable_record hr rec hrec
    obtain ⟨hsec, hpre, hpost⟩ := section_of_step hs.1
    refine ⟨by rw [hpre]; exact reachable_account hy, hsec, fun t ht => ?_⟩
    exact (sellerRule hdec).holds (hy.step hs) t (Or.inl (hpost ▸ ht))
  refine ⟨fun t hk => (sellerRule hdec).holds hr t hk, ?_, ?_⟩
  · intro rec hrec reply p hreply hp
    obtain ⟨hacc, hsec, hinv⟩ := recorded rec hrec
    obtain ⟨msg, t, t', r, hproc, hout, houtcome⟩ :=
      processes_of_release hsec (Or.inl ⟨reply, hreply, by simp [hp]⟩)
    refine ⟨msg, t, t', hproc, fun hask => ?_⟩
    obtain ⟨before, after, _, _, hpost⟩ := hproc.trades
    rw [Record.ok_of_reply houtcome hreply, hacc] at hout
    obtain ⟨_, _, ⟨_, hours, _⟩ | ⟨_, hbid, _, _, _, heq⟩⟩ := reply_psbt hout hp
    · exact ⟨hours, hinv t' (by simp [hpost]) hask p hours⟩
    · rw [heq] at hask
      rw [show getOrderType account (handleMessage account msg t) = .ask from hask] at hbid
      simp at hbid
  · intro rec hrec hex hhex
    obtain ⟨hacc, hsec, hinv⟩ := recorded rec hrec
    obtain ⟨msg, t, t', r, hproc, hout, _⟩ :=
      processes_of_release hsec (Or.inr (List.ne_nil_of_mem hhex))
    refine ⟨msg, t, t', hproc, fun hask => ?_⟩
    obtain ⟨before, after, _, _, hpost⟩ := hproc.trades
    rw [hacc] at hout
    rcases hasReply_broadcasts hout with hnone | ⟨_, _, _, _, hex', ours, theirs, fin, hb, hours, _, hfin, hsub⟩
    · rw [hnone] at hhex
      simp at hhex
    · rw [hb, List.mem_singleton] at hhex
      subst hhex
      refine ⟨ours, hours, ?_, hinv t' (by simp [hpost]) hask ours hours⟩
      rcases hfin with ⟨_, rfl⟩ | ⟨hbid, _⟩
      · exact hsub (by simp)
      · rw [← hout.frame.getOrderType, hask] at hbid
        simp at hbid

/-! ### A sale

We take a buy order for two units at five satoshis each: our addresses go out, the buyer's PSBT
comes in, and we sign it. -/

/-- The buyer's PSBT `"psbt"`, and what signing makes of it. -/
def saleDecode (p : String) : Psbt where
  tx :=
    { btxid := "sale"
      vin := [⟨"coins", 0⟩, ⟨"name", 0⟩]
      vout :=
        [⟨some 10, { addresses := some ["address 1"] }⟩,
          ⟨some nameValue, { nameOp := .object ⟨"name_update", "utf8", "utf8", some "p/seller",
            some "buyer gets 2 gold"⟩, addresses := some ["address 0"] }⟩] }
  inputs := [{}, { partialSignatures := if p = "psbt" then [] else [("key", "signature")] }]

/-- A wallet and a node for the sale.  The world counts the addresses given out. -/
def saleScript (n : ℕ) : (c : Call) → Answer c × ℕ
  | .clock => ((0 : Int64), n)
  | .rpc .getnewaddress => ((.ok ("address " ++ toString n) : Except RpcError String), n + 1)
  | .rpc (.nameShow _) => ((.ok ⟨"name", 0⟩ : Except RpcError OutPoint), n)
  | .rpc (.lockunspent _ _) => ((.ok true : Except RpcError Bool), n)
  | .rpc (.decodepsbt p) => ((.ok (saleDecode p) : Except RpcError Psbt), n)
  | .rpc (.walletprocesspsbt p) =>
      ((.ok (p ++ ", signed", false) : Except RpcError (String × Bool)), n)
  | .rpc _ => (.error .exception, n)

/-- The buyer's order. -/
def saleOrder : Order where
  account := some "buyer"
  id := some 7
  asset := some "gold"
  maxUnits := 3
  type := some .bid
  priceSat := some 5

/-- The message with the buyer's PSBT. -/
def saleMessage : ProcessingMessage where
  counterparty := some "buyer"
  identifier := some "buyer\n7"
  psbt := some "psbt"

/-- The schedule of the sale. -/
def saleSchedule : List Sched :=
  [.start (.takeOrder saleOrder 2), .run 0, .start (.processMessage saleMessage), .run 1, .run 1]

/-- The sale ends with a PSBT that pays us. -/
theorem seller_safe_sale : ∃ (x : Sys × ℕ) (t : TradeState),
    (system sampleConfig (Env.ofScript saleScript) "seller").Reachable x ∧ t ∈ x.1.state.trades ∧
    t.getState = .pending ∧ getOrderType "seller" t = .ask ∧
    SellerSafe sampleConfig "seller" saleDecode t "psbt, signed" := by
  obtain ⟨x, hr, hP⟩ := Sys.exists_reachable sampleConfig saleScript "seller" 0 saleSchedule
    (fun x => x.1.state.trades.any fun t => t.getState = .pending &&
      getOrderType "seller" t = .ask && t.ourPsbt = some "psbt, signed") (by decide)
  obtain ⟨t, ht, hprop⟩ := List.any_eq_true.mp hP
  simp only [Bool.and_eq_true, decide_eq_true_eq] at hprop
  have hdec : Decodes saleDecode (Env.ofScript saleScript) := by
    intro w p d w' h
    exact (Except.ok.inj (congrArg Prod.fst h)).symm
  exact ⟨x, t, hr, ht, hprop.1.1, hprop.1.2,
    (seller_safe hdec hr).1 t (Or.inl ht) hprop.1.2 _ hprop.2⟩

end Democrit
