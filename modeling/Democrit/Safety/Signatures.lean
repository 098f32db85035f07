import Democrit.Safety.Seller

/-!
# What the signature checks look at

`CheckForBuyerSignature` and `CheckForSellerSignature` are there to find out which inputs of a PSBT
a wallet has signed.  They compare the entries of `inputs` as a whole, so that an input for which
the wallet has merely filled in other data (*annotated* it) counts as signed, and the second one
never looks at the name input at all.

**The verdicts are about signatures exactly under `BuyerCond` and `SellerCond`**, which say when
neither of these makes a difference.  In a run, `signature_checks` reads the second one off the two
PSBTs that a trade has stored: a pending sale has its name input signed exactly if they meet it.
-/

namespace Democrit

open Interaction

variable {cfg : Config} {account : String} {W : Type} {E : Env Call Answer W}
  {decode : String → Psbt}

/-! ## Signed, annotated, unchanged -/

/-- The fields that carry signatures. -/
def PsbtInput.signatures (a : PsbtInput) :
    List (String × String) × Option String × Option (List String) :=
  (a.partialSignatures, a.finalScriptSig, a.finalScriptWitness)

/-- The fields that carry signatures differ. -/
def PsbtInput.gained (a b : PsbtInput) : Bool := a.signatures ≠ b.signatures

@[simp] lemma PsbtInput.gained_self (a : PsbtInput) : a.gained a = false := by
  simp [PsbtInput.gained]

/-- How many inputs gained no signature. -/
def unsigned (before after : List PsbtInput) : ℕ :=
  (before.zip after).countP fun p => !p.1.gained p.2

/-- How many inputs did not change at all. -/
def unchanged (before after : List PsbtInput) : ℕ := (before.zip after).countP fun p => p.1 = p.2

/-- How many inputs changed without gaining a signature. -/
def annotated (before after : List PsbtInput) : ℕ :=
  (before.zip after).countP fun p => p.1 ≠ p.2 && !p.1.gained p.2

/-- The input number `i` gained a signature. -/
def Gained (before after : Psbt) (i : ℕ) : Prop :=
  ∃ a b, before.inputs[i]? = some a ∧ after.inputs[i]? = some b ∧ a.gained b = true

/-- The input number `i` changed. -/
def Changed (before after : Psbt) (i : ℕ) : Prop := before.inputs[i]? ≠ after.inputs[i]?

/-- The name input is there, it gained a signature, and no other input did. -/
def NameSigned (nameOutput : OutPoint) (before after : Psbt) : Prop :=
  ∃ i, before.tx.vin.findIdx? (· = nameOutput) = some i ∧ Gained before after i ∧
    ∀ j ≠ i, ¬ Gained before after j

/-- Two PSBTs of the same transaction with the same signatures. -/
def SameSignatures (p q : Psbt) : Prop :=
  p.tx = q.tx ∧ p.inputs.map PsbtInput.signatures = q.inputs.map PsbtInput.signatures

/-- No input was merely annotated; or so many inputs are without a signature, whether annotated or
not, that the count comes out wrong in either way. -/
def BuyerCond (before after : Psbt) : Prop :=
  annotated before.inputs after.inputs = 0 ∨ 2 ≤ unchanged before.inputs after.inputs ∨
    unchanged before.inputs after.inputs = 0 ∧ 2 ≤ annotated before.inputs after.inputs

/-- If the name input gained a signature, then so did another one, or no other one changed; and if
it did not, then another one changed. -/
def SellerCond (nameOutput : OutPoint) (before after : Psbt) : Prop :=
  ∀ i, before.tx.vin.findIdx? (· = nameOutput) = some i →
    (Gained before after i →
      (∃ j ≠ i, Gained before after j) ∨ ∀ j ≠ i, ¬ Changed before after j) ∧
    (¬ Gained before after i → ∃ j ≠ i, Changed before after j)

lemma Gained.changed {before after : Psbt} {i : ℕ} (h : Gained before after i) :
    Changed before after i := by
  obtain ⟨a, b, ha, hb, hg⟩ := h
  intro heq
  rw [ha, hb, Option.some.injEq] at heq
  rw [heq, PsbtInput.gained_self] at hg
  simp at hg

lemma SameSignatures.length_eq {p q : Psbt} (h : SameSignatures p q) :
    p.inputs.length = q.inputs.length := by
  simpa using congrArg List.length h.2

/-- Which inputs are without a signature depends on the signatures alone. -/
lemma SameSignatures.unsigned_eq {before after before' after' : Psbt}
    (hb : SameSignatures before before') (ha : SameSignatures after after') :
    unsigned before.inputs after.inputs = unsigned before'.inputs after'.inputs := by
  have key : ∀ l m : List PsbtInput, unsigned l m =
      ((l.map PsbtInput.signatures).zip (m.map PsbtInput.signatures)).countP fun p => p.1 = p.2 := by
    intro l m
    rw [List.zip_map, List.countP_map]
    refine List.countP_congr fun p _ => ?_
    simp [PsbtInput.gained]
  rw [key, key, hb.2, ha.2]

lemma gained_iff {before after : Psbt} {i : ℕ} : Gained before after i ↔
    ∃ a b, (before.inputs.map PsbtInput.signatures)[i]? = some a ∧
      (after.inputs.map PsbtInput.signatures)[i]? = some b ∧ a ≠ b := by
  simp only [Gained, List.getElem?_map, Option.map_eq_some_iff, PsbtInput.gained, decide_eq_true_eq]
  constructor
  · rintro ⟨a, b, ha, hb, hne⟩
    exact ⟨_, _, ⟨a, ha, rfl⟩, ⟨b, hb, rfl⟩, hne⟩
  · rintro ⟨_, _, ⟨a, ha, rfl⟩, ⟨b, hb, rfl⟩, hne⟩
    exact ⟨a, b, ha, hb, hne⟩

lemma SameSignatures.nameSigned_iff {nameOutput : OutPoint} {before after before' after' : Psbt}
    (hb : SameSignatures before before') (ha : SameSignatures after after') :
    NameSigned nameOutput before after ↔ NameSigned nameOutput before' after' := by
  simp only [NameSigned, gained_iff, hb.1, hb.2, ha.2]

/-! ## The buyer's check -/

/-- An input without a signature is unchanged or annotated. -/
lemma unsigned_eq (before after : List PsbtInput) :
    unsigned before after = unchanged before after + annotated before after := by
  simp only [unsigned, unchanged, annotated]
  induction before.zip after with
  | nil => rfl
  | cons p ps ih =>
      simp only [List.countP_cons, ih]
      by_cases heq : p.1 = p.2
      · simp [heq]
        omega
      · cases p.1.gained p.2 with
        | false => simp [heq]; omega
        | true => simp [heq]

lemma countModified_add_unchanged {before after : List PsbtInput}
    (hlen : before.length = after.length) :
    countModified before after + unchanged before after = before.length := by
  have hzip : (before.zip after).length = before.length := by
    rw [List.length_zip]
    omega
  rw [← hzip, List.length_eq_countP_add_countP (fun p => decide (p.1 ≠ p.2))]
  simp [countModified, unchanged]

/-- `CheckForBuyerSignature` accepts exactly if a single input is unchanged. -/
lemma buyerSignature_iff {before after : Psbt} (htx : before.tx = after.tx)
    (hlen : before.inputs.length = after.inputs.length) :
    buyerSignature before after = .ok true ↔ unchanged before.inputs after.inputs = 1 := by
  have hcount := countModified_add_unchanged hlen
  rw [buyerSignature, if_neg (not_not.mpr htx), if_neg (not_not.mpr hlen)]
  simp only [Except.ok.injEq, decide_eq_true_eq]
  omega

lemma buyerSignature_signed_iff {before after : Psbt} (htx : before.tx = after.tx)
    (hlen : before.inputs.length = after.inputs.length) :
    (buyerSignature before after = .ok true ↔ unsigned before.inputs after.inputs = 1) ↔
      BuyerCond before after := by
  rw [buyerSignature_iff htx hlen, unsigned_eq, BuyerCond]
  omega

/-! ## The seller's check -/

/-- `CheckForSellerSignature` accepts exactly if the name input is there and no other one changed. -/
lemma sellerSignature_iff {nameOutput : OutPoint} {before after : Psbt} (htx : before.tx = after.tx)
    (hlen : before.inputs.length = after.inputs.length) :
    sellerSignature nameOutput before after = .ok true ↔
      ∃ i, before.tx.vin.findIdx? (· = nameOutput) = some i ∧ ∀ j ≠ i, ¬ Changed before after j := by
  rw [sellerSignature, if_neg (not_not.mpr htx)]
  cases before.tx.vin.findIdx? (· = nameOutput) with
  | none => simp
  | some i =>
      simp only [if_neg (not_not.mpr hlen), Except.ok.injEq, List.all_eq_true, List.mem_range,
        Bool.or_eq_true, decide_eq_true_eq, Option.some.injEq, exists_eq_left', Changed, not_not]
      constructor
      · intro h j hj
        by_cases hlt : j < before.inputs.length
        · exact (h j hlt).resolve_left hj
        · rw [List.getElem?_eq_none (by omega), List.getElem?_eq_none (by omega)]
      · intro h j _
        by_cases hj : j = i
        · exact Or.inl hj
        · exact Or.inr (h j hj)

lemma sellerSignature_signed_iff {nameOutput : OutPoint} {before after : Psbt}
    (htx : before.tx = after.tx) (hlen : before.inputs.length = after.inputs.length) :
    (sellerSignature nameOutput before after = .ok true ↔ NameSigned nameOutput before after) ↔
      SellerCond nameOutput before after := by
  rw [sellerSignature_iff htx hlen, NameSigned, SellerCond]
  cases before.tx.vin.findIdx? (· = nameOutput) with
  | none => simp
  | some i =>
      simp only [Option.some.injEq, exists_eq_left', forall_eq']
      constructor
      · intro hiff
        refine ⟨fun hi => ?_, fun hi => ?_⟩
        · by_contra hcon
          rw [not_or, not_exists] at hcon
          exact hcon.2 (hiff.mpr ⟨hi, fun j hj hg => hcon.1 j ⟨hj, hg⟩⟩)
        · by_contra hcon
          push Not at hcon
          exact hi (hiff.mp fun j hj hc => hcon j hj hc).1
      · rintro ⟨hsigned, hnot⟩
        constructor
        · intro hrest
          refine ⟨?_, fun j hj hg => hrest j hj hg.changed⟩
          by_contra hi
          obtain ⟨j, hj, hc⟩ := hnot hi
          exact hrest j hj hc
        · rintro ⟨hi, hrest⟩
          rcases hsigned hi with ⟨j, hj, hg⟩ | h
          · exact absurd hg (hrest j hj)
          · exact h

/-! ## Every run -/

/-- A trade becomes `PENDING` with a PSBT of ours. -/
lemma pendingRule : TradeRule cfg E account fun _ t => t.getState = .pending → t.ourPsbt.isSome where
  blank _ := by
    intro h
    simp [TradeState.getState] at h
  new _ _ _ _ _ _ _ := by
    intro h
    simp [TradeState.getState, newTrade] at h
  later _ _ _ h := h
  receives _ msg t h := by
    have hrec := (@handleMessage_spec account msg t).eq
    rw [hrec]
    exact h
  replies _ _ t tr r t' w w' h _ _ hout := by
    cases hout with
    | rest => exact h
    | nameLeaked => exact h
    | sendsSellerData hinit => exact h
    | coinsLeaked => exact h
    | coinsReleased => exact h
    | shares _ hours => exact fun _ => by simp [hours]
    | broadcasts _ hours => exact fun _ => by simp [hours]
    | _ => exact fun _ => rfl
  updates _ t tr t' h hout := by
    cases hout with
    | keeps => exact h
    | abandons =>
        intro hp
        simp [TradeState.getState] at hp
    | settles _ hst =>
        intro hp
        rcases hst with rfl | rfl <;> simp [TradeState.getState] at hp

/-- A PSBT of ours in a sale has passed the seller's check. -/
lemma signatureRule (hdec : Decodes decode E) : TradeRule cfg E account fun _ t =>
    getOrderType account t = .ask → ∀ ours, t.ourPsbt = some ours →
      ∃ nameOutput theirs, (t.sellerData.getD {}).nameOutput = some nameOutput ∧
        t.theirPsbt = some theirs ∧
        sellerSignature nameOutput (decode theirs) (decode ours) = .ok true := by
  refine sellerSignsRule ?_ ?_ ?_
  · rintro t ours ⟨nameOutput, theirs, hname, htheirs, _⟩
    refine ⟨?_, by simp [htheirs]⟩
    intro hnone
    simp [hnone] at hname
  · rintro t t' ours _ hsd htheirs' ⟨nameOutput, theirs, hname, htheirs, hsig⟩
    exact ⟨nameOutput, theirs, by rw [hsd]; exact hname, htheirs'.trans htheirs, hsig⟩
  · intro t tr psbt w w' hs hsome hp
    obtain ⟨nmOut, decoded, before, after, complete, hnm, _, _, _, rfl, _, hsig⟩ := hs.verified
    obtain rfl := hdec.of_path hp (p := t.theirPsbt.getD "") (d := before) (by simp)
    obtain rfl := hdec.of_path hp (p := psbt) (d := after) (by simp)
    obtain ⟨theirs, htheirs⟩ := Option.isSome_iff_exists.mp hsome
    rw [htheirs, Option.getD_some] at hsig
    exact ⟨nmOut, theirs, hnm, htheirs, hsig⟩

/-- **The signature checks.**  Either verdict is the one about signatures exactly under its
condition, and then it does not depend on anything but the signatures; and the name input of a
pending sale that we have taken is signed exactly if the PSBT we got and the one we signed meet the
condition. -/
theorem signature_checks (hdec : Decodes decode E) :
    (∀ nameOutput before after, before.tx = after.tx →
      before.inputs.length = after.inputs.length →
      ((buyerSignature before after = .ok true ↔ unsigned before.inputs after.inputs = 1) ↔
        BuyerCond before after) ∧
      ((sellerSignature nameOutput before after = .ok true ↔ NameSigned nameOutput before after) ↔
        SellerCond nameOutput before after)) ∧
    (∀ nameOutput before after before' after', before.tx = after.tx →
      before.inputs.length = after.inputs.length →
      SameSignatures before before' → SameSignatures after after' →
      (BuyerCond before after → BuyerCond before' after' →
        (buyerSignature before after = .ok true ↔ buyerSignature before' after' = .ok true)) ∧
      (SellerCond nameOutput before after → SellerCond nameOutput before' after' →
        (sellerSignature nameOutput before after = .ok true ↔
          sellerSignature nameOutput before' after' = .ok true))) ∧
    ∀ x, (system cfg E account).Reachable x → ∀ t, x.1.Knows t → t.getState = .pending →
      getRole account t = .taker → getOrderType account t = .ask →
      ∃ nameOutput theirs ours, (t.sellerData.getD {}).nameOutput = some nameOutput ∧
        t.theirPsbt = some theirs ∧ t.ourPsbt = some ours ∧
        (NameSigned nameOutput (decode theirs) (decode ours) ↔
          SellerCond nameOutput (decode theirs) (decode ours)) := by
  refine ⟨?_, ?_, ?_⟩
  · intro nameOutput before after htx hlen
    exact ⟨buyerSignature_signed_iff htx hlen, sellerSignature_signed_iff htx hlen⟩
  · intro nameOutput before after before' after' htx hlen hb ha
    have htx' : before'.tx = after'.tx := by rw [← hb.1, htx, ha.1]
    have hlen' : before'.inputs.length = after'.inputs.length := by
      rw [← hb.length_eq, hlen, ha.length_eq]
    refine ⟨fun hc hc' => ?_, fun hc hc' => ?_⟩
    · rw [(buyerSignature_signed_iff htx hlen).mpr hc, (buyerSignature_signed_iff htx' hlen').mpr hc',
        hb.unsigned_eq ha]
    · rw [(sellerSignature_signed_iff htx hlen).mpr hc,
        (sellerSignature_signed_iff htx' hlen').mpr hc', hb.nameSigned_iff ha]
  · intro x hr t hk hpending _ hask
    obtain ⟨ours, hours⟩ := Option.isSome_iff_exists.mp (pendingRule.holds hr t hk hpending)
    obtain ⟨nameOutput, theirs, hname, htheirs, hsig⟩ :=
      (signatureRule hdec).holds hr t hk hask ours hours
    obtain ⟨htx, hlen, _⟩ := sellerSignature_true hsig
    refine ⟨nameOutput, theirs, ours, hname, htheirs, hours, ?_⟩
    rw [← sellerSignature_signed_iff htx hlen]
    exact ⟨fun h => iff_of_true hsig h, fun h => h.mp hsig⟩

/-- The name input of the sale is signed. -/
theorem signature_checks_sale : ∃ (x : Sys × ℕ) (t : TradeState),
    (system sampleConfig (Env.ofScript saleScript) "seller").Reachable x ∧ t ∈ x.1.state.trades ∧
    t.getState = .pending ∧ t.ourPsbt = some "psbt, signed" ∧
    NameSigned ⟨"name", 0⟩ (saleDecode "psbt") (saleDecode "psbt, signed") := by
  obtain ⟨x, hr, hP⟩ := Sys.exists_reachable sampleConfig saleScript "seller" 0 saleSchedule
    (fun x => x.1.state.trades.any fun t => t.getState = .pending &&
      getRole "seller" t = .taker && getOrderType "seller" t = .ask &&
      (t.sellerData.getD {}).nameOutput = some ⟨"name", 0⟩ && t.theirPsbt = some "psbt" &&
      t.ourPsbt = some "psbt, signed") (by decide)
  obtain ⟨t, ht, hprop⟩ := List.any_eq_true.mp hP
  simp only [Bool.and_eq_true, decide_eq_true_eq] at hprop
  obtain ⟨⟨⟨⟨⟨hpending, htaker⟩, hask⟩, hname⟩, htheirs⟩, hours⟩ := hprop
  have hdec : Decodes saleDecode (Env.ofScript saleScript) := by
    intro w p d w' h
    exact (Except.ok.inj (congrArg Prod.fst h)).symm
  obtain ⟨nm, theirs, ours, hname', htheirs', hours', hiff⟩ :=
    (signature_checks hdec).2.2 x hr t (Or.inl ht) hpending htaker hask
  obtain rfl := Option.some.inj (hname.symm.trans hname')
  obtain rfl := Option.some.inj (htheirs.symm.trans htheirs')
  obtain rfl := Option.some.inj (hours.symm.trans hours')
  refine ⟨x, t, hr, ht, hpending, hours, hiff.mpr ?_⟩
  intro i hi
  obtain rfl : 1 = i := Option.some.inj hi
  have hrest : ∀ j ≠ 1, ¬ Changed (saleDecode "psbt") (saleDecode "psbt, signed") j := by
    intro j hj
    rcases j with _ | _ | j
    · exact fun h => h rfl
    · exact absurd rfl hj
    · exact fun h => h rfl
  exact ⟨fun _ => Or.inr hrest, fun h => absurd ⟨_, _, rfl, rfl, by decide⟩ h⟩

/-! ### A sale without a signature

The wallet knows the name but not its key, and hands the PSBT back as it got it. -/

/-- The sale with a wallet that cannot sign. -/
def watchScript (n : ℕ) : (c : Call) → Answer c × ℕ
  | .rpc (.walletprocesspsbt p) => ((.ok (p, false) : Except RpcError (String × Bool)), n)
  | c => saleScript n c

/-- The buyer's check accepts an input that was merely annotated for one that was signed, the
seller's check accepts a PSBT in which nothing was signed, and **a sale becomes `PENDING` without
any signature of ours**. -/
theorem signature_unchecked :
    (∃ before after : Psbt, before.tx = after.tx ∧ before.inputs.length = after.inputs.length ∧
      buyerSignature before after = .ok true ∧ unsigned before.inputs after.inputs = 2) ∧
    (∃ (nameOutput : OutPoint) (before after : Psbt), before.tx = after.tx ∧
      before.inputs.length = after.inputs.length ∧
      sellerSignature nameOutput before after = .ok true ∧ ¬ NameSigned nameOutput before after) ∧
    ∃ (x : Sys × ℕ) (t : TradeState),
      (system sampleConfig (Env.ofScript watchScript) "seller").Reachable x ∧
      t ∈ x.1.state.trades ∧ t.getState = .pending ∧ getRole "seller" t = .taker ∧
      getOrderType "seller" t = .ask ∧ (t.sellerData.getD {}).nameOutput = some ⟨"name", 0⟩ ∧
      t.theirPsbt = some "psbt" ∧ t.ourPsbt = some "psbt" ∧
      ¬ NameSigned ⟨"name", 0⟩ (saleDecode "psbt") (saleDecode "psbt") := by
  have untouched : ∀ nameOutput psbt, ¬ NameSigned nameOutput psbt psbt := by
    rintro nameOutput psbt ⟨i, _, hi, _⟩
    exact hi.changed rfl
  refine ⟨?_, ?_, ?_⟩
  · exact ⟨⟨⟨"tx", [⟨"coins", 0⟩, ⟨"name", 0⟩], []⟩, [{}, {}]⟩,
      ⟨⟨"tx", [⟨"coins", 0⟩, ⟨"name", 0⟩], []⟩, [{ other := [("witness_utxo", "coins")] }, {}]⟩,
      by decide⟩
  · exact ⟨⟨"name", 0⟩, saleDecode "psbt", saleDecode "psbt", rfl, rfl, by decide, untouched _ _⟩
  · obtain ⟨x, hr, hP⟩ := Sys.exists_reachable sampleConfig watchScript "seller" 0 saleSchedule
      (fun x => x.1.state.trades.any fun t => t.getState = .pending &&
        getRole "seller" t = .taker && getOrderType "seller" t = .ask &&
        (t.sellerData.getD {}).nameOutput = some ⟨"name", 0⟩ && t.theirPsbt = some "psbt" &&
        t.ourPsbt = some "psbt") (by decide)
    obtain ⟨t, ht, hprop⟩ := List.any_eq_true.mp hP
    simp only [Bool.and_eq_true, decide_eq_true_eq] at hprop
    obtain ⟨⟨⟨⟨⟨hpending, htaker⟩, hask⟩, hname⟩, htheirs⟩, hours⟩ := hprop
    exact ⟨x, t, hr, ht, hpending, htaker, hask, hname, htheirs, hours, untouched _ _⟩

end Democrit
