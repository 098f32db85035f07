import Democrit.Lib.Ancestry
import Democrit.Safety.Correspondence
import Democrit.Safety.Signatures
import Democrit.Safety.Verifier
import Democrit.Spec.Asking
import Mathlib.Data.List.NodupEquivFin
import Mathlib.Data.List.Duplicate

/-!
# An outside that cooperates

What a deal needs of the wallet, the node and the game of a side in order to come about: that they
answer, that the wallet has coins and the keys of its own outputs and of no others, and that the name
that is sold is there and not locked by another trade.  `Cooperates` and `Permits` say so, and again
nothing of this is built into the model.

**Nothing is promised beyond what a real wallet can keep.**  A call may still fail where Xaya Core has
to refuse it (`Method.Refused`): on a text that is no PSBT, on a name that is not registered, for want
of funds, or when an output is locked already.

Which inputs of a PSBT are signed is said by `SignedBy`, **input for input and in terms of who owns
the output that is spent**.  Signing with the keys of one side adds the inputs of that side
(`Signs.signedBy`), and this is enough for the verdicts of both signature checks
(`buyerSignature_of_signs`, `sellerSignature_of_signs`).
-/

namespace Democrit

open Interaction

variable {W : Type}

/-! ## Signing -/

/-- The input carries a signature. -/
def PsbtInput.signed (a : PsbtInput) : Bool :=
  a.partialSignatures ≠ [] || a.finalScriptSig.isSome || a.finalScriptWitness.isSome

/-- Signed are the inputs that spend an output of `who`. -/
def SignedBy (who : OutPoint → Prop) (p : Psbt) : Prop :=
  List.Forall₂ (fun o a => a.signed = true ↔ who o) p.tx.vin p.inputs

/-- What signing with the keys of `mine` does: the inputs that spend these get signed, and the others
stay as they are. -/
structure Signs (mine : OutPoint → Prop) (before after : Psbt) : Prop where
  tx : after.tx = before.tx
  length : before.inputs.length = after.inputs.length
  inputs : List.Forall₂ (fun o (a : PsbtInput × PsbtInput) =>
    (mine o → a.2.signed = true) ∧ (¬ mine o → a.2 = a.1)) before.tx.vin
    (before.inputs.zip after.inputs)

/-- Nobody has signed. -/
abbrev Unsigned (p : Psbt) : Prop := SignedBy (fun _ => False) p

section Signing

variable {mine who who' : OutPoint → Prop} {before after p : Psbt}

lemma SignedBy.congr (h : SignedBy who p) (hiff : ∀ o ∈ p.tx.vin, who o ↔ who' o) :
    SignedBy who' p := by
  rw [SignedBy, List.forall₂_iff_zip] at h ⊢
  refine ⟨h.1, fun hm => ?_⟩
  rw [← hiff _ (List.of_mem_zip hm).1]
  exact h.2 hm

/-- All inputs are signed if everything that is spent belongs to somebody who has signed. -/
lemma SignedBy.all_iff (h : SignedBy who p) :
    p.inputs.all PsbtInput.signed = true ↔ ∀ o ∈ p.tx.vin, who o := by
  rw [SignedBy] at h
  generalize p.tx.vin = vin at h
  generalize p.inputs = inputs at h
  induction h with
  | nil => simp
  | cons hd _ ih => simp only [List.all_cons, Bool.and_eq_true, ih, List.forall_mem_cons, hd]

/-- **Signing adds the inputs of the wallet.** -/
lemma Signs.signedBy (h : Signs mine before after) (hb : SignedBy who before) :
    SignedBy (fun o => who o ∨ mine o) after := by
  have hlen := h.length
  have hin := h.inputs
  rw [SignedBy, h.tx]
  rw [SignedBy] at hb
  generalize before.tx.vin = vin at hb hin
  generalize before.inputs = as at hb hin hlen
  generalize after.inputs = bs at hin hlen
  induction hb generalizing bs with
  | nil =>
      obtain rfl := List.length_eq_zero_iff.mp hlen.symm
      exact .nil
  | @cons o a vin as hd _ ih =>
      cases bs with
      | nil => simp at hlen
      | cons b bs =>
          rw [List.zip_cons_cons, List.forall₂_cons] at hin
          refine .cons ?_ (ih bs hin.2 (by simpa using hlen))
          by_cases hm : mine o
          · simp [hin.1.1 hm, hm]
          · obtain rfl : b = a := hin.1.2 hm
            rw [hd]
            simp [hm]

open Classical in
/-- What the wallet does not own stays as it is, and an unsigned input of the wallet does not. -/
lemma Signs.unchanged_eq (h : Signs mine before after) (hb : Unsigned before) :
    unchanged before.inputs after.inputs = before.tx.vin.countP fun o => ¬ mine o := by
  have hlen := h.length
  have hin := h.inputs
  rw [unchanged]
  unfold Unsigned SignedBy at hb
  generalize before.tx.vin = vin at hb hin
  generalize before.inputs = as at hb hin hlen
  generalize after.inputs = bs at hin hlen
  induction hb generalizing bs with
  | nil => simp
  | @cons o a vin as hd _ ih =>
      cases bs with
      | nil => simp at hlen
      | cons b bs =>
          rw [List.zip_cons_cons, List.forall₂_cons] at hin
          rw [List.zip_cons_cons, List.countP_cons, List.countP_cons, ih bs hin.2 (by simpa using hlen)]
          by_cases hm : mine o
          · have hne : a ≠ b := by
              rintro rfl
              exact hd.mp (hin.1.1 hm)
            simp [hm, hne]
          · obtain rfl : b = a := hin.1.2 hm
            simp [hm]

/-- **The buyer's check** accepts what a wallet signs that owns all inputs but one. -/
lemma buyerSignature_of_signs {coins : List OutPoint} {nameIn : OutPoint}
    (h : Signs mine before after) (hb : Unsigned before)
    (hvin : before.tx.vin.Perm (coins ++ [nameIn])) (hcoins : ∀ o ∈ coins, mine o)
    (hname : ¬ mine nameIn) : buyerSignature before after = .ok true := by
  classical
  rw [buyerSignature_iff h.tx.symm h.length, h.unchanged_eq hb, hvin.countP_eq, List.countP_append,
    List.countP_eq_zero.mpr fun o ho => by simpa using hcoins o ho]
  simp [hname]

/-- **The seller's check** accepts what a wallet signs that owns the name input and no other one. -/
lemma sellerSignature_of_signs {coins : List OutPoint} {nameIn : OutPoint}
    (h : Signs mine before after) (hvin : before.tx.vin.Perm (coins ++ [nameIn]))
    (hcoins : ∀ o ∈ coins, ¬ mine o) (hname : mine nameIn) :
    sellerSignature nameIn before after = .ok true := by
  have hmem : nameIn ∈ before.tx.vin := hvin.mem_iff.mpr (by simp)
  obtain ⟨i, hi⟩ : ∃ i, before.tx.vin.findIdx? (· = nameIn) = some i := by
    rw [← Option.isSome_iff_exists, List.findIdx?_isSome]
    simpa using hmem
  refine (sellerSignature_iff h.tx.symm h.length).mpr ⟨i, hi, fun j hj hchanged => hchanged ?_⟩
  have hone : before.tx.vin.count nameIn = 1 := by
    rw [hvin.count_eq, List.count_append, List.count_eq_zero_of_not_mem fun hm => hcoins _ hm hname]
    simp
  obtain ⟨hlt, hget, _⟩ := List.findIdx?_eq_some_iff_getElem.mp hi
  have hin := h.inputs
  by_cases hjv : j < before.tx.vin.length
  · have hzip : (before.inputs.zip after.inputs).length = before.tx.vin.length := hin.length_eq.symm
    have hlen := h.length
    rw [List.length_zip] at hzip
    -- the name is spent once, so that another input spends one of the coins
    have hne : before.tx.vin[j] ≠ nameIn := by
      intro heq
      have hi' : before.tx.vin[i] = nameIn := by simpa using hget
      have htwice : before.tx.vin.Duplicate nameIn := by
        rw [List.duplicate_iff_exists_distinct_get]
        rcases lt_or_gt_of_ne hj with hlt' | hlt'
        · exact ⟨⟨j, hjv⟩, ⟨i, hlt⟩, hlt', heq.symm, hi'.symm⟩
        · exact ⟨⟨i, hlt⟩, ⟨j, hjv⟩, hlt', hi'.symm, heq.symm⟩
      rw [List.duplicate_iff_two_le_count, hone] at htwice
      omega
    have hcoin : before.tx.vin[j] ∈ coins := by
      have := hvin.mem_iff.mp (List.getElem_mem hjv)
      simpa [hne] using this
    have hab := (hin.get hjv (by rw [List.length_zip]; omega)).2 (hcoins _ hcoin)
    simp only [List.get_eq_getElem, List.getElem_zip] at hab
    rw [List.getElem?_eq_getElem (by omega), List.getElem?_eq_getElem (by omega), hab]
  · have hzip : (before.inputs.zip after.inputs).length = before.tx.vin.length := hin.length_eq.symm
    have hlen := h.length
    rw [List.length_zip] at hzip
    rw [List.getElem?_eq_none (by omega), List.getElem?_eq_none (by omega)]

end Signing

/-! ## The wallet and the node -/

/-- How the texts that go over the interface are to be read. -/
structure Format where
  decode : String → Psbt
  rawTx : String → Tx
  /-- The texts that are PSBTs. -/
  psbt : String → Prop
  /-- The texts of transactions that have all their signatures. -/
  complete : String → Prop

/-- What the node knows: the outputs of the registered names, and the parent of each block. -/
structure NodeState where
  nameOut : String → Option OutPoint
  parent : Uint256 → Option Uint256

/-- A side with its wallet: the output of its name, the outputs that it has the keys of, the change it
makes, what it can pay, and the worlds in which its name is not locked. -/
structure Party (W : Type) where
  account : String
  name : OutPoint
  mine : OutPoint → Prop
  change : TxOut → Prop
  funds : ℤ
  free : W → Prop

/-- **What Xaya Core may refuse** to the wallet of `P`. -/
def Method.Refused (F : Format) (C : NodeState) (P : Party W) : Method → Prop
  | .nameShow name => ∀ account, name = getXayaName account → C.nameOut account = none
  | .getblockheader hash => C.parent hash = none
  | .decodepsbt p | .walletprocesspsbt p | .finalizepsbt p => ¬ F.psbt p
  | .walletcreatefundedpsbt outputs _ =>
      (∃ out ∈ outputs, out.2.toInt < 0) ∨ P.funds < (outputs.map fun out => out.2.toInt).sum
  | .createpsbt _ outputs => ∃ out ∈ outputs, out.2.toInt < 0
  | .namepsbt p n _ _ _ => ¬ F.psbt p ∨ (F.decode p).tx.vout.length ≤ n
  | .joinpsbts ps => ps.length < 2 ∨ (∃ p ∈ ps, ¬ F.psbt p) ∨
      ¬ (ps.map fun p => (F.decode p).tx.vin).flatten.Nodup
  | .combinepsbt ps => ps = [] ∨ (∃ p ∈ ps, ¬ F.psbt p) ∨
      ∃ p ∈ ps, ∃ q ∈ ps, (F.decode p).tx ≠ (F.decode q).tx
  | .sendrawtransaction hex => ¬ F.complete hex
  | .lockunspent _ _ => True
  | _ => False

/-- **A wallet and a node that go along with a deal.**

An input that is not ours is left as it is by signing; a wallet that adds data to it makes the checks
of the code refuse. -/
structure Cooperates (F : Format) (C : NodeState) (P : Party W) (E : Env Call Answer W) : Prop where
  answers : E.Answers
  returns : ∀ w m e w', E w (Ev.failed m e) w' → m.Refused F C P
  decodes : Decodes F.decode E
  builds : BuildsPsbts F.decode F.rawTx P.change E
  readable : ∀ out, P.change out → out.scriptPubKey.nameOp = .null ∧ out.value.isSome
  addresses : ∃ used, GivesFresh used E
  names : ∀ w name o w', E w (Ev.returned (.nameShow (getXayaName name)) o) w' → C.nameOut name = some o
  ourName : C.nameOut P.account = some P.name ∧ P.mine P.name
  locks : ∀ w r w', P.free w → E w ⟨.rpc (.lockunspent false [P.name]), r⟩ w' →
    r = (.ok true : Except RpcError Bool)
  freeStays : ∀ w (ev : Ev) w', P.free w → E w ev w' → ev.quiet → P.free w'
  /-- What is spent for a payment is ours. -/
  coins : ∀ w outputs feeRate p w',
    E w (Ev.returned (.walletcreatefundedpsbt outputs feeRate) p) w' → F.psbt p ∧
    (F.decode p).tx.vin ≠ [] ∧ (F.decode p).tx.vin.Nodup ∧ (∀ o ∈ (F.decode p).tx.vin, P.mine o) ∧
    Unsigned (F.decode p)
  creates : ∀ w ins outs p w', E w (Ev.returned (.createpsbt ins outs) p) w' →
    F.psbt p ∧ Unsigned (F.decode p)
  updates : ∀ w p n op name value q w', E w (Ev.returned (.namepsbt p n op name value) q) w' →
    F.psbt q ∧ (Unsigned (F.decode p) → Unsigned (F.decode q))
  joins : ∀ w ps p w', E w (Ev.returned (.joinpsbts ps) p) w' →
    F.psbt p ∧ ((∀ q ∈ ps, Unsigned (F.decode q)) → Unsigned (F.decode p))
  signs : ∀ w p (r : String × Bool) w', E w (Ev.returned (.walletprocesspsbt p) r) w' →
    F.psbt r.1 ∧ Signs P.mine (F.decode p) (F.decode r.1) ∧
    r.2 = (F.decode r.1).inputs.all PsbtInput.signed
  combines : ∀ w ps p w', E w (Ev.returned (.combinepsbt ps) p) w' → F.psbt p ∧ ∀ whos,
    List.Forall₂ (fun q who => SignedBy who (F.decode q)) ps whos →
      SignedBy (fun o => ∃ who ∈ whos, who o) (F.decode p)
  finalises : ∀ w p r w', E w (Ev.returned (.finalizepsbt p) r) w' →
    (F.decode p).inputs.all PsbtInput.signed = true → ∃ hex, r = some hex ∧ F.complete hex

/-- **A game and a node that permit a sale** of the name at `nameIn`, as far as the buyer asks.  The
block that the game answers for may be some blocks later than the one at which the name was seen. -/
structure Permits (C : NodeState) (nameIn : OutPoint) (ck : TradeChecker) (E : Env Call Answer W) :
    Prop where
  registered : C.nameOut ck.seller = some nameIn
  isAsset : ∀ w b w', E w (Ev.returned (.isAsset ck.asset) b) w' → b = true
  canBuy : ∀ w b w', E w (Ev.returned (.canBuy ck.buyer ck.asset ck.units) b) w' → b = true
  unspent : ∀ w (r : Option Uint256) w', E w (Ev.returned (.gettxout nameIn) r) w' → r.isSome
  canSell : ∀ w (r : Option Uint256) w',
    E w (Ev.returned (.canSell ck.seller ck.asset ck.units) r) w' → r.isSome
  close : ∀ w w₁ w₂ (b g : Uint256), E w (Ev.returned (.gettxout nameIn) (some b)) w₁ →
    E w₁ (Ev.returned (.canSell ck.seller ck.asset ck.units) (some g)) w₂ →
    ∃ k ≤ maxBlockAncestorsChecked, Ancestry.back C.parent k g = some b
  headers : ∀ w b (r : Option Uint256) w', E w (Ev.returned (.getblockheader b) r) w' →
    r = C.parent b

/-! ## Single calls -/

section Calls

variable {F : Format} {C : NodeState} {P : Party W} {E : Env Call Answer W} {w : W} {u : Unit}

/-- A call that need not be refused returns. -/
lemma Cooperates.wpIn_rpc (h : Cooperates F C P E) {m : Method} (hm : ¬ m.Refused F C P)
    {Q : W → Conversation → Except Fail m.Reply → Unit → Prop} :
    (rpc m).wpIn E w u Q ↔
      ∀ r w', E w (Ev.returned m r) w' → Q w' [Ev.returned m r] (.ok r) u := by
  rw [Democrit.wpIn_rpc]
  constructor
  · exact fun hr => hr.1
  · intro hr
    exact ⟨hr, fun w' he => absurd (h.returns _ _ _ _ he) hm, fun w' he => absurd (h.returns _ _ _ _ he) hm⟩

lemma Cooperates.wpIn_getNameOutPoint (h : Cooperates F C P E) {name : String} {out : OutPoint}
    (hname : C.nameOut name = some out)
    {Q : W → Conversation → Except Fail OutPoint → Unit → Prop} :
    (getNameOutPoint name).wpIn E w u Q ↔
      ∀ w', E w (Ev.returned (.nameShow (getXayaName name)) out) w' →
        Q w' [Ev.returned (.nameShow (getXayaName name)) out] (.ok out) u := by
  have hm : ¬ (Method.nameShow (getXayaName name)).Refused F C P := by
    intro hr
    have hnone := hr name rfl
    simp [hname] at hnone
  refine (h.wpIn_rpc hm).trans ?_
  constructor
  · exact fun hr w' he => hr _ w' he
  · intro hr (out' : OutPoint) w' he
    obtain rfl : out = out' := Option.some.inj (hname.symm.trans (h.names _ _ _ _ he))
    exact hr w' he

lemma Cooperates.wpIn_decodepsbt (h : Cooperates F C P E) {p : String} (hp : F.psbt p)
    {Q : W → Conversation → Except Fail Psbt → Unit → Prop} :
    (rpc (.decodepsbt p) : Query Psbt).wpIn E w u Q ↔
      ∀ w', E w (Ev.returned (.decodepsbt p) (F.decode p)) w' →
        Q w' [Ev.returned (.decodepsbt p) (F.decode p)] (.ok (F.decode p)) u := by
  refine (h.wpIn_rpc (m := .decodepsbt p) (not_not.mpr hp)).trans ?_
  constructor
  · exact fun hr w' he => hr _ w' he
  · intro hr d w' he
    obtain rfl := h.decodes _ _ _ _ he
    exact hr w' he

lemma Cooperates.wpIn_signPsbt (h : Cooperates F C P E) {p : String} (hp : F.psbt p)
    {Q : W → Conversation → Except Fail (String × Bool) → Unit → Prop} :
    (signPsbt p).wpIn E w u Q ↔ ∀ (r : String × Bool) w',
      E w (Ev.returned (.walletprocesspsbt p) r) w' →
        Q w' [Ev.returned (.walletprocesspsbt p) r] (.ok r) u :=
  h.wpIn_rpc (m := .walletprocesspsbt p) (not_not.mpr hp)

/-- The name gets locked if it was not locked before. -/
lemma Cooperates.wpIn_lockName (h : Cooperates F C P E) (hfree : P.free w)
    {Q : W → Conversation → Except Fail Bool → Unit → Prop}
    (hQ : ∀ w', E w (Ev.returned (.lockunspent false [P.name]) true) w' →
      Q w' [Ev.returned (.lockunspent false [P.name]) true] (.ok true) u) :
    (lockUnspent true P.name).wpIn E w u Q := by
  simp only [Act.wpIn, wp_lockUnspent, Env.path_cons, Env.path_nil]
  refine ⟨?_, ?_⟩
  · rintro b w' ⟨w₁, he, rfl⟩
    obtain rfl : b = true := Except.ok.inj (h.locks _ _ _ hfree he)
    exact hQ w' he
  · rintro e w' ⟨w₁, he, rfl⟩
    have := h.locks _ _ _ hfree he
    simp at this

end Calls

end Democrit
