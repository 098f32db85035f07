import Democrit.Lib.Word
import Democrit.Trade

/-!
# What the checks establish

One lemma for each method of `TradeChecker`, saying what a run of it can look like and what a
positive answer means.  Callers use these and never unfold the methods.

`Ev.quiet` separates the exchanges that leave the wallet's locks and the network alone from those
that do not: a check is quiet from beginning to end, whatever the answers.
-/

namespace Democrit

open Interaction

/-! ## Quiet exchanges -/

/-- An exchange that neither changes a lock of the wallet nor puts a transaction on the network. -/
def Ev.quiet : Ev → Prop
  | ⟨.clock, _⟩ => True
  | ⟨.rpc m, a⟩ =>
      match m, a with
      | .lockunspent _ _, (.ok b : Except RpcError Bool) => b = false
      | .walletcreatefundedpsbt _ _, (.ok _ : Except RpcError String) => False
      | .sendrawtransaction _, (.ok _ : Except RpcError String) => False
      | _, _ => True

/-- A conversation of quiet exchanges. -/
def Quiet (tr : Conversation) : Prop := ∀ ev ∈ tr, ev.quiet

@[simp] lemma quiet_nil : Quiet [] := by simp [Quiet]

@[simp] lemma quiet_cons {ev : Ev} {tr : Conversation} : Quiet (ev :: tr) ↔ ev.quiet ∧ Quiet tr := by
  simp [Quiet]

@[simp] lemma quiet_append {tr tr' : Conversation} : Quiet (tr ++ tr') ↔ Quiet tr ∧ Quiet tr' := by
  simp only [Quiet, List.mem_append]
  constructor
  · intro h
    exact ⟨fun ev hm => h ev (Or.inl hm), fun ev hm => h ev (Or.inr hm)⟩
  · rintro ⟨h, h'⟩ ev (hm | hm)
    · exact h ev hm
    · exact h' ev hm

/-- A call that failed has no effect, whichever it was. -/
@[simp] lemma quiet_failed (m : Method) (e : RpcError) : (Ev.failed m e).quiet := by
  cases m <;> trivial

section

variable {σ : Type} {s : σ} {u : Unit}

/-! ## Exceptions -/

/-- Does `LockUnspent` make the call?  It catches what the call throws. -/
def Method.isLock : Method → Bool
  | .lockunspent _ _ => true
  | _ => false

/-- The exchange ended with an exception that is not caught right there. -/
def Ev.throws : Ev → Bool
  | ⟨.clock, _⟩ => false
  | ⟨.rpc m, a⟩ =>
      match (a : Except RpcError m.Reply) with
      | .error .exception => !m.isLock
      | _ => false

/-- The last call of the conversation has thrown. -/
def EndsThrown (tr : Conversation) : Prop := ∃ ev, tr.getLast? = some ev ∧ ev.throws = true

lemma EndsThrown.append {tr tr' : Conversation} (h : EndsThrown tr') : EndsThrown (tr ++ tr') := by
  obtain ⟨ev, hlast, hev⟩ := h
  exact ⟨ev, by rw [List.getLast?_append, hlast]; rfl, hev⟩

lemma endsThrown_failed {tr : Conversation} {m : Method} (hm : m.isLock = false) :
    EndsThrown (tr ++ [Ev.failed m .exception]) :=
  ⟨_, List.getLast?_concat, by simp [Ev.throws, hm]⟩

/-! ## Pure judgements -/

@[simp] lemma wp_judge {α : Type} (x : Except Check α)
    {Q : Conversation → Except Fail α → Unit → Prop} :
    (judge x).wp u Q ↔ (∀ a, x = .ok a → Q [] (.ok a) u)
      ∧ ∀ c, x = .error c → Q [] (.error (.check c)) u := by
  cases x <;> simp [judge]

/-! ## The buyer's check of the seller -/

@[simp] lemma wp_getNameOutPoint (account : String)
    {Q : Conversation → Except Fail OutPoint → Unit → Prop} :
    (getNameOutPoint account).wp u Q ↔
      (∀ out : OutPoint, Q [Ev.returned (.nameShow (getXayaName account)) out] (.ok out) u)
      ∧ Q [Ev.failed (.nameShow (getXayaName account)) .exception] (.error .exception) u
      ∧ Q [Ev.failed (.nameShow (getXayaName account)) .malformed]
          (.error (.check .replyShape)) u := wp_rpc _

/-- Walking back from a block asks for headers only. -/
lemma isBlockAncestor_quiet (ancestor : Uint256) :
    ∀ (n : ℕ) (child : Uint256), (isBlockAncestor ancestor child n).wp u fun tr _ _ => Quiet tr := by
  intro n
  induction n with
  | zero =>
      intro child
      rw [isBlockAncestor]
      split <;> simp
  | succ n ih =>
      intro child
      rw [isBlockAncestor]
      split
      · simp
      · simp only [Act.wp_bind, wp_rpc, Act.afterBind_ok, Act.afterBind_error]
        refine ⟨fun r => ?_, by simp, by simp⟩
        cases r with
        | none => simp [Ev.quiet]
        | some parent =>
            refine Act.wp_mono (ih parent) fun tr r _ h => ?_
            simp [Ev.quiet, h]

/-- The check for the buyer is quiet, and the name input it returns is the one `name_show` gave
for the seller. -/
lemma checkForBuyerTrade_spec (ck : TradeChecker) :
    ck.checkForBuyerTrade.wp u fun tr r _ => Quiet tr ∧
      ∀ nameIn, r = .ok (some nameIn) →
        Ev.returned (.nameShow (getXayaName ck.seller)) nameIn ∈ tr := by
  simp only [TradeChecker.checkForBuyerTrade, Act.wp_bind, wp_rpc,
    Act.afterBind_ok, Act.afterBind_error]
  refine ⟨fun valid => ?_, by simp, by simp⟩
  cases valid with
  | false => simp [Ev.quiet]
  | true =>
      simp only [Bool.not_true, Bool.false_eq_true, if_false, Act.wp_bind, wp_rpc,
        Act.afterBind_ok, Act.afterBind_error]
      refine ⟨fun canBuy => ?_, by simp [Ev.quiet], by simp [Ev.quiet]⟩
      cases canBuy with
      | false => simp [Ev.quiet]
      | true =>
          simp only [Bool.not_true, Bool.false_eq_true, if_false, Act.wp_bind, wp_rpc,
            wp_getNameOutPoint, Act.afterBind_ok, Act.afterBind_error]
          refine ⟨fun nameInput => ⟨fun utxo => ?_, by simp [Ev.quiet], by simp [Ev.quiet]⟩,
            by simp [Ev.quiet], by simp [Ev.quiet]⟩
          cases utxo with
          | none => simp [Ev.quiet]
          | some utxoBlock =>
              simp only [Act.wp_bind, wp_rpc, Act.afterBind_ok, Act.afterBind_error]
              refine ⟨fun gsp => ?_, by simp [Ev.quiet], by simp [Ev.quiet]⟩
              cases gsp with
              | none => simp [Ev.quiet]
              | some gspBlock =>
                  simp only [Act.wp_bind]
                  refine Act.wp_mono (isBlockAncestor_quiet _ _ _) fun tr r _ h => ?_
                  cases r with
                  | error e => simp [Ev.quiet, h]
                  | ok b => cases b <;> simp [Ev.quiet, h]

/-! ## Signatures and outputs -/

/-- The check of the buyer's signature decodes both PSBTs and judges them. -/
lemma checkForBuyerSignature_spec (beforeStr afterStr : String) :
    (TradeChecker.checkForBuyerSignature beforeStr afterStr).wp u fun tr r _ =>
      Quiet tr ∧ (r = .error .exception → EndsThrown tr) ∧ ∀ b, r = .ok b → ∃ before after,
        tr = [Ev.returned (.decodepsbt beforeStr) before, Ev.returned (.decodepsbt afterStr) after]
          ∧ buyerSignature before after = .ok b := by
  simp only [TradeChecker.checkForBuyerSignature, Act.wp_bind, wp_rpc, Act.afterBind_ok,
    Act.afterBind_error, wp_judge]
  refine ⟨fun before => ⟨fun after => ⟨fun b hb => ?_, fun c hc => by simp [Ev.quiet]⟩,
    ⟨by simp [Ev.quiet], fun _ => endsThrown_failed rfl, by simp⟩, by simp [Ev.quiet]⟩,
    ⟨by simp, fun _ => ⟨_, rfl, rfl⟩, by simp⟩, by simp⟩
  refine ⟨by simp [Ev.quiet], by simp, fun b' hb' => ⟨before, after, rfl, ?_⟩⟩
  rw [hb]
  exact congrArg _ (Except.ok.inj hb')

/-- The check of the outputs decodes the PSBT and judges it. -/
lemma checkForSellerOutputs_spec (cfg : Config) (ck : TradeChecker) (psbt : String)
    (sd : SellerData) :
    (ck.checkForSellerOutputs cfg psbt sd).wp u fun tr r _ =>
      Quiet tr ∧ ∀ b, r = .ok b → sd.chiAddress.isSome ∧ sd.nameAddress.isSome ∧
        ∃ decoded, tr = [Ev.returned (.decodepsbt psbt) decoded]
          ∧ sellerOutputs cfg ck sd decoded = .ok b := by
  simp only [TradeChecker.checkForSellerOutputs, Act.wp_bind, wp_check, wp_rpc, Act.afterBind_ok,
    Act.afterBind_error, wp_judge, Bool.and_eq_true]
  refine ⟨fun hsd => ⟨fun decoded => ⟨fun b hb => ?_, fun c hc => by simp [Ev.quiet]⟩,
    by simp, by simp⟩, by simp⟩
  refine ⟨by simp [Ev.quiet], fun b' hb' => ⟨hsd.1, hsd.2, decoded, rfl, ?_⟩⟩
  rw [hb]
  exact congrArg _ (Except.ok.inj hb')

/-- The check of the seller's signature decodes both PSBTs and judges them. -/
lemma checkForSellerSignature_spec (beforeStr afterStr : String) (sd : SellerData) :
    (TradeChecker.checkForSellerSignature beforeStr afterStr sd).wp u fun tr r _ =>
      Quiet tr ∧ ∀ b, r = .ok b → ∃ nmOut before after, sd.nameOutput = some nmOut ∧
        tr = [Ev.returned (.decodepsbt beforeStr) before, Ev.returned (.decodepsbt afterStr) after]
          ∧ sellerSignature nmOut before after = .ok b := by
  rw [TradeChecker.checkForSellerSignature]
  cases hnm : sd.nameOutput with
  | none => simp
  | some nmOut =>
      simp only [Act.wp_bind, wp_rpc, Act.afterBind_ok, Act.afterBind_error, wp_judge]
      refine ⟨fun before => ⟨fun after => ⟨fun b hb => ?_, fun c hc => by simp [Ev.quiet]⟩,
        by simp [Ev.quiet], by simp [Ev.quiet]⟩, by simp, by simp⟩
      refine ⟨by simp [Ev.quiet], fun b' hb' => ⟨nmOut, before, after, rfl, rfl, ?_⟩⟩
      rw [hb]
      exact congrArg _ (Except.ok.inj hb')

end

/-! ## The total -/

/-- `GetTotalSat` for a positive number of units. -/
lemma getTotalSat_of_pos {ck : TradeChecker} (hunits : 0 < ck.units) :
    ck.getTotalSat = .ok
      (if -2 ^ 63 ≤ ck.price.toInt * ck.units.toInt ∧ ck.price.toInt * ck.units.toInt < 2 ^ 63 then
        some (ck.price * ck.units)
      else none) := by
  have hpos : 0 < ck.units.toInt := Int64.lt_iff_toInt_lt.mp hunits
  have htest := @Word.mul_div_cancel_iff ck.price ck.units hpos
  rw [TradeChecker.getTotalSat, if_neg (not_not.mpr hunits)]
  by_cases hrange : -2 ^ 63 ≤ ck.price.toInt * ck.units.toInt ∧
      ck.price.toInt * ck.units.toInt < 2 ^ 63
  · rw [if_neg (not_not.mpr (htest.mpr hrange)), if_pos hrange]
  · rw [if_pos (mt htest.mp hrange), if_neg hrange]

/-- A computed total is the exact product, and the number of units was positive. -/
lemma getTotalSat_some {ck : TradeChecker} {total : Amount} (h : ck.getTotalSat = .ok (some total)) :
    0 < ck.units.toInt ∧ total.toInt = ck.price.toInt * ck.units.toInt := by
  by_cases hunits : 0 < ck.units
  · rw [getTotalSat_of_pos hunits] at h
    split_ifs at h with hrange
    · obtain rfl := Option.some.inj (Except.ok.inj h)
      exact ⟨Int64.lt_iff_toInt_lt.mp hunits, Word.toInt_mul_of_range hrange.1 hrange.2⟩
    · cases h
  · rw [TradeChecker.getTotalSat, if_pos hunits] at h
    cases h

/-- **The overflow test of `GetTotalSat` is exact.**  For every price and every positive number of
units, the product that is divided back is the exact one modulo `2 ^ 64`, the division is not by zero
and does not overflow, and a total is returned exactly if the exact product is an `Amount`.  The total
is that product then, and the assertion on the units does not fail. -/
theorem getTotalSat_exact (ck : TradeChecker) (hunits : 0 < ck.units) :
    (ck.price * ck.units).toInt = (ck.price.toInt * ck.units.toInt).bmod (2 ^ 64) ∧
    Word.DivDefined (ck.price * ck.units) ck.units ∧
    (ck.price * ck.units / ck.units).toInt = (ck.price * ck.units).toInt.tdiv ck.units.toInt ∧
    ((∃ total, ck.getTotalSat = .ok (some total)) ↔
      -2 ^ 63 ≤ ck.price.toInt * ck.units.toInt ∧ ck.price.toInt * ck.units.toInt < 2 ^ 63) ∧
    (∀ total, ck.getTotalSat = .ok (some total) → total.toInt = ck.price.toInt * ck.units.toInt) ∧
    ∀ c, ck.getTotalSat ≠ .error c := by
  have hdiv : Word.DivDefined (ck.price * ck.units) ck.units :=
    Word.divDefined_of_pos (Int64.lt_iff_toInt_lt.mp hunits)
  refine ⟨Int64.toInt_mul _ _, hdiv, hdiv.toInt_div, ?_, fun total h => (getTotalSat_some h).2, ?_⟩
  · rw [getTotalSat_of_pos hunits]
    constructor
    · rintro ⟨total, h⟩
      split_ifs at h with hrange
      · exact hrange
      · cases h
    · intro hrange
      exact ⟨ck.price * ck.units, by rw [if_pos hrange]⟩
  · intro c h
    rw [getTotalSat_of_pos hunits] at h
    cases h

/-- A checker that asks for that price. -/
def priced (price units : Amount) : TradeChecker := ⟨"buyer", "seller", "gold", price, units⟩

/-- Twice `-2 ^ 62` is the lowest amount there is, and twice `2 ^ 62` is none. -/
theorem getTotalSat_exact_extremes :
    (∃ total, (priced (-4611686018427387904) 2).getTotalSat = .ok (some total) ∧
      total.toInt = -2 ^ 63) ∧
    ¬ ∃ total, (priced 4611686018427387904 2).getTotalSat = .ok (some total) := by
  obtain ⟨_, _, _, hlow, hexact, _⟩ := getTotalSat_exact (priced (-4611686018427387904) 2) (by decide)
  obtain ⟨_, _, _, hhigh, _, _⟩ := getTotalSat_exact (priced 4611686018427387904 2) (by decide)
  obtain ⟨total, htotal⟩ := hlow.mpr (by decide)
  exact ⟨⟨total, htotal, hexact total htotal⟩, fun h => absurd (hhigh.mp h) (by decide)⟩

/-! ## What a positive judgement means -/

/-- An ordinary output to exactly `addr` of at least `total`. -/
def PaysChi (addr : String) (total : ℤ) (out : TxOut) : Prop :=
  out.scriptPubKey.nameOp = .null ∧ matchesAddress out.scriptPubKey addr = true ∧
    ∃ payment : Amount, out.value = some payment ∧ total ≤ payment.toInt

/-- An output that updates `name` to `value` and sends it to exactly `addr`. -/
def UpdatesName (addr name value : String) (out : TxOut) : Prop :=
  ∃ nameOp, out.scriptPubKey.nameOp = .object nameOp ∧ nameOp.op = "name_update" ∧
    nameOp.name = some name ∧ nameOp.value = some value ∧
    matchesAddress out.scriptPubKey addr = true

/-- The scan of the outputs sets a flag only for an output that deserves it. -/
lemma scanOutputs_ok {nameAddress chiAddress name value : String} {expectedTotal : Amount} :
    ∀ {vout : List TxOut} {c n c' n' : Bool},
      scanOutputs nameAddress chiAddress name value expectedTotal vout c n = .ok (c', n') →
      (c' = true → c = true ∨ ∃ out ∈ vout, PaysChi chiAddress expectedTotal.toInt out) ∧
      (n' = true → n = true ∨ ∃ out ∈ vout, UpdatesName nameAddress name value out)
  | [], c, n, c', n', h => by
      simp only [scanOutputs, Except.ok.injEq, Prod.mk.injEq] at h
      obtain ⟨rfl, rfl⟩ := h
      exact ⟨Or.inl, Or.inl⟩
  | out :: rest, c, n, c', n', h => by
      -- whatever the rest of the scan finds is found in the whole list too
      have later : ∀ {c₁ n₁ : Bool},
          scanOutputs nameAddress chiAddress name value expectedTotal rest c₁ n₁ = .ok (c', n') →
          (c' = true → c₁ = true ∨ ∃ o ∈ out :: rest, PaysChi chiAddress expectedTotal.toInt o) ∧
          (n' = true → n₁ = true ∨ ∃ o ∈ out :: rest, UpdatesName nameAddress name value o) := by
        intro c₁ n₁ h₁
        obtain ⟨hc, hn⟩ := scanOutputs_ok h₁
        refine ⟨fun h => (hc h).imp_right ?_, fun h => (hn h).imp_right ?_⟩
        · rintro ⟨o, hm, ho⟩
          exact ⟨o, List.mem_cons_of_mem _ hm, ho⟩
        · rintro ⟨o, hm, ho⟩
          exact ⟨o, List.mem_cons_of_mem _ hm, ho⟩
      rw [scanOutputs] at h
      split at h
      · rename_i nameOp hop
        split_ifs at h with h₁ h₂ h₃ h₄
        · exact later h
        · push Not at h₄
          obtain ⟨hop₁, hop₂, hop₃, hop₄⟩ := h₄
          refine ⟨(later h).1, fun _ => Or.inr ⟨out, List.mem_cons_self, nameOp, hop, hop₁, hop₂,
            hop₃, hop₄⟩⟩
      · simp at h
      · rename_i hop
        split_ifs at h with h₁
        · split at h
          · simp at h
          · rename_i payment hpay
            split_ifs at h with h₂
            · exact later h
            · refine ⟨fun _ => Or.inr ⟨out, List.mem_cons_self, hop, h₁, payment, hpay, ?_⟩,
                (later h).2⟩
              rw [Int64.lt_iff_toInt_lt] at h₂
              omega
        · exact later h

/-- **What the seller knows after the check of the outputs**: the total is the exact product and
not negative, it is paid unless it is zero, and the name is updated as agreed. -/
lemma sellerOutputs_true {cfg : Config} {ck : TradeChecker} {sd : SellerData} {psbt : Psbt}
    (h : sellerOutputs cfg ck sd psbt = .ok true) :
    0 < ck.units.toInt ∧ 0 ≤ ck.price.toInt * ck.units.toInt ∧
    (ck.price.toInt * ck.units.toInt = 0 ∨ ∃ out ∈ psbt.tx.vout,
      PaysChi (sd.chiAddress.getD "") (ck.price.toInt * ck.units.toInt) out) ∧
    ∃ out ∈ psbt.tx.vout, UpdatesName (sd.nameAddress.getD "") (getXayaName ck.seller)
      (ck.getNameUpdateValue cfg) out := by
  rw [sellerOutputs] at h
  cases ht : ck.getTotalSat with
  | error c => simp [ht, bind, Except.bind] at h
  | ok t =>
      cases t with
      | none => simp [ht, bind, Except.bind] at h
      | some total =>
          obtain ⟨hu, htotal⟩ := getTotalSat_some ht
          simp only [ht, bind, Except.bind] at h
          split_ifs at h with hneg
          rw [Int64.le_iff_toInt_le] at hneg
          split at h
          · simp at h
          · rename_i x hx
            obtain ⟨c, n⟩ := x
            simp only [Except.ok.injEq, Bool.and_eq_true] at h
            obtain ⟨rfl, rfl⟩ := h
            obtain ⟨hc, hn⟩ := scanOutputs_ok hx
            rw [← htotal]
            refine ⟨hu, by simpa using hneg, ?_, ?_⟩
            · rcases hc rfl with hzero | hpaid
              · left
                have : total = 0 := by simpa using hzero
                rw [this]
                rfl
              · exact Or.inr hpaid
            · rcases hn rfl with hfalse | hname
              · simp at hfalse
              · exact hname

/-! ## What the scan asks of the outputs -/

/-- What `decodepsbt` returns for an output: either no name operation or one that is encoded as it
should be. -/
def WellFormed (out : TxOut) : Prop :=
  out.scriptPubKey.nameOp = .null ∨ ∃ op, out.scriptPubKey.nameOp = .object op ∧
    op.nameEncoding = "utf8" ∧ op.valueEncoding = "utf8"

/-- A name operation of the output has its name and its value, and what is paid to the address that
the payment should go to is an amount. -/
structure Readable (chiAddress : String) (out : TxOut) : Prop where
  fields : ∀ op, out.scriptPubKey.nameOp = .object op → op.name.isSome ∧ op.value.isSome
  amount : out.scriptPubKey.nameOp = .null → matchesAddress out.scriptPubKey chiAddress →
    out.value.isSome

section

variable {nameAddress chiAddress name value : String} {expectedTotal : Amount}

/-- One step of the scan, at an output that is no name operation. -/
lemma scanOutputs_cons_null {out : TxOut} (hnull : out.scriptPubKey.nameOp = .null)
    (hread : Readable chiAddress out) (rest : List TxOut) (c n : Bool) :
    ∃ c', scanOutputs nameAddress chiAddress name value expectedTotal (out :: rest) c n
        = scanOutputs nameAddress chiAddress name value expectedTotal rest c' n ∧
      (c' = true ↔ c = true ∨ PaysChi chiAddress expectedTotal.toInt out) := by
  rw [scanOutputs, hnull]
  by_cases hmatch : matchesAddress out.scriptPubKey chiAddress
  · obtain ⟨payment, hpay⟩ := Option.isSome_iff_exists.mp (hread.amount hnull hmatch)
    have hpays : PaysChi chiAddress expectedTotal.toInt out ↔ ¬ payment < expectedTotal := by
      rw [Int64.lt_iff_toInt_lt, not_lt]
      constructor
      · rintro ⟨_, _, payment', hpay', hle⟩
        obtain rfl := Option.some.inj (hpay.symm.trans hpay')
        exact hle
      · exact fun hle => ⟨hnull, hmatch, payment, hpay, hle⟩
    simp only [hmatch, not_true, if_false, hpay]
    split
    · rename_i hlt
      exact ⟨c, rfl, by simp [hpays, hlt]⟩
    · rename_i hge
      exact ⟨true, rfl, by simp [hpays, hge]⟩
  · have hno : ¬ PaysChi chiAddress expectedTotal.toInt out := fun h => hmatch h.2.1
    simp only
    rw [if_pos hmatch]
    exact ⟨c, rfl, by simp [hno]⟩

/-- One step of the scan, at a name operation. -/
lemma scanOutputs_cons_object {out : TxOut} {op : NameOp}
    (hop : out.scriptPubKey.nameOp = .object op) (henc : op.nameEncoding = "utf8" ∧
      op.valueEncoding = "utf8") (hread : Readable chiAddress out) (rest : List TxOut) (c n : Bool) :
    ∃ n', scanOutputs nameAddress chiAddress name value expectedTotal (out :: rest) c n
        = scanOutputs nameAddress chiAddress name value expectedTotal rest c n' ∧
      (n' = true ↔ n = true ∨ UpdatesName nameAddress name value out) := by
  have hupdates : UpdatesName nameAddress name value out ↔ ¬ (op.op ≠ "name_update" ∨
      op.name ≠ some name ∨ op.value ≠ some value ∨
      ¬ matchesAddress out.scriptPubKey nameAddress) := by
    push Not
    constructor
    · rintro ⟨op', hop', hupdate⟩
      obtain rfl := NameOpField.object.inj (hop.symm.trans hop')
      exact hupdate
    · exact fun hupdate => ⟨op, hop, hupdate⟩
  rw [scanOutputs, hop]
  simp only [henc, hread.fields op hop, and_self, not_true, ne_eq, if_false]
  split
  · rename_i hother
    have hno : ¬ UpdatesName nameAddress name value out := fun h => hupdates.mp h hother
    exact ⟨n, rfl, by simp [hno]⟩
  · rename_i hupdate
    have hyes : UpdatesName nameAddress name value out := hupdates.mpr hupdate
    exact ⟨true, rfl, by simp [hyes]⟩

/-- **One step of the scan**, at an output that can be read: each flag is set if the output deserves
it. -/
lemma scanOutputs_cons {out : TxOut} (hwf : WellFormed out) (hread : Readable chiAddress out)
    (rest : List TxOut) (c n : Bool) :
    ∃ c' n', scanOutputs nameAddress chiAddress name value expectedTotal (out :: rest) c n
        = scanOutputs nameAddress chiAddress name value expectedTotal rest c' n' ∧
      (c' = true ↔ c = true ∨ PaysChi chiAddress expectedTotal.toInt out) ∧
      (n' = true ↔ n = true ∨ UpdatesName nameAddress name value out) := by
  rcases hwf with hnull | ⟨op, hop, henc⟩
  · have hno : ¬ UpdatesName nameAddress name value out := by
      rintro ⟨op, hop, _⟩
      rw [hnull] at hop
      cases hop
    obtain ⟨c', hscan, hc⟩ := scanOutputs_cons_null hnull hread rest c n
    exact ⟨c', n, hscan, hc, by simp [hno]⟩
  · have hno : ¬ PaysChi chiAddress expectedTotal.toInt out := by
      rintro ⟨hnull, _⟩
      rw [hop] at hnull
      cases hnull
    obtain ⟨n', hscan, hn⟩ := scanOutputs_cons_object hop henc hread rest c n
    exact ⟨c, n', hscan, by simp [hno], hn⟩

/-- **The scan of readable outputs** goes through, and sets a flag for each output that deserves
it. -/
lemma scanOutputs_of_readable {vout : List TxOut} (hwf : ∀ out ∈ vout, WellFormed out)
    (hread : ∀ out ∈ vout, Readable chiAddress out) (c n : Bool) :
    ∃ c' n', scanOutputs nameAddress chiAddress name value expectedTotal vout c n = .ok (c', n') ∧
      (c = true ∨ (∃ out ∈ vout, PaysChi chiAddress expectedTotal.toInt out) → c' = true) ∧
      (n = true ∨ (∃ out ∈ vout, UpdatesName nameAddress name value out) → n' = true) := by
  induction vout generalizing c n with
  | nil => exact ⟨c, n, rfl, by simp, by simp⟩
  | cons out rest ih =>
      obtain ⟨c₁, n₁, hscan, hc₁, hn₁⟩ := @scanOutputs_cons nameAddress chiAddress name value
        expectedTotal out (hwf out List.mem_cons_self) (hread out List.mem_cons_self) rest c n
      obtain ⟨c', n', hok, hc, hn⟩ := ih (fun o ho => hwf o (List.mem_cons_of_mem _ ho))
        (fun o ho => hread o (List.mem_cons_of_mem _ ho)) c₁ n₁
      refine ⟨c', n', hscan.trans hok, fun h => hc ?_, fun h => hn ?_⟩
      · rw [hc₁, or_assoc, ← List.exists_mem_cons_iff]
        exact h
      · rw [hn₁, or_assoc, ← List.exists_mem_cons_iff]
        exact h

/-- One step of the scan, at an output that cannot be read. -/
lemma scanOutputs_cons_unreadable {out : TxOut} (hwf : WellFormed out)
    (hun : ¬ Readable chiAddress out) (rest : List TxOut) (c n : Bool) :
    ∃ ck, (ck = .nameOpFields ∨ ck = .outputValue) ∧
      scanOutputs nameAddress chiAddress name value expectedTotal (out :: rest) c n = .error ck := by
  rw [scanOutputs]
  rcases hwf with hnull | ⟨op, hop, hnameEnc, hvalueEnc⟩
  · rw [hnull]
    have hnone : matchesAddress out.scriptPubKey chiAddress = true ∧ out.value = none := by
      by_contra hnot
      refine hun ⟨fun op hop => ?_, fun _ hmatch => ?_⟩
      · rw [hnull] at hop
        cases hop
      · exact Option.isSome_iff_ne_none.mpr fun hpay => hnot ⟨hmatch, hpay⟩
    exact ⟨.outputValue, Or.inr rfl, by simp [hnone]⟩
  · rw [hop]
    have hfields : ¬ (op.name.isSome ∧ op.value.isSome) := by
      intro hfields
      refine hun ⟨fun op' hop' => ?_, fun hnull => ?_⟩
      · obtain rfl := NameOpField.object.inj (hop.symm.trans hop')
        exact hfields
      · rw [hop] at hnull
        cases hnull
    refine ⟨.nameOpFields, Or.inl rfl, ?_⟩
    simp only [hnameEnc, hvalueEnc, ne_eq, not_true, if_false]
    rw [if_pos hfields]

/-- **The scan of an unreadable output** fails an assertion: that the fields of the name operation
are there, or that the value is an amount. -/
lemma scanOutputs_of_unreadable {vout : List TxOut} (hwf : ∀ out ∈ vout, WellFormed out)
    (hun : ∃ out ∈ vout, ¬ Readable chiAddress out) (c n : Bool) :
    ∃ ck, (ck = .nameOpFields ∨ ck = .outputValue) ∧
      scanOutputs nameAddress chiAddress name value expectedTotal vout c n = .error ck := by
  induction vout generalizing c n with
  | nil => simp at hun
  | cons out rest ih =>
      by_cases hread : Readable chiAddress out
      · obtain ⟨c', n', hscan, _⟩ := @scanOutputs_cons nameAddress chiAddress name value
          expectedTotal out (hwf out List.mem_cons_self) hread rest c n
        rw [hscan]
        refine ih (fun o ho => hwf o (List.mem_cons_of_mem out ho)) ?_ c' n'
        exact ((List.exists_mem_cons_iff _ out rest).mp hun).resolve_left (not_not.mpr hread)
      · exact scanOutputs_cons_unreadable (hwf out List.mem_cons_self) hread rest c n

end

/-- The whole judgement, of a trade whose total can be computed and is not negative. -/
lemma sellerOutputs_eq {cfg : Config} {ck : TradeChecker} {sd : SellerData} {psbt : Psbt}
    {total : Amount} (htotal : ck.getTotalSat = .ok (some total)) (hnonneg : 0 ≤ total) :
    sellerOutputs cfg ck sd psbt =
      (scanOutputs (sd.nameAddress.getD "") (sd.chiAddress.getD "") (getXayaName ck.seller)
        (ck.getNameUpdateValue cfg) total psbt.tx.vout (total = 0) false).map
          fun found => found.1 && found.2 := by
  simp only [sellerOutputs, htotal, bind, Except.bind, not_true, hnonneg, if_false]
  cases scanOutputs (sd.nameAddress.getD "") (sd.chiAddress.getD "") (getXayaName ck.seller)
    (ck.getNameUpdateValue cfg) total psbt.tx.vout (total = 0) false with
  | error e => rfl
  | ok found => rfl

/-- What the seller knows after the check of the signature. -/
lemma sellerSignature_true {nmOut : OutPoint} {before after : Psbt}
    (h : sellerSignature nmOut before after = .ok true) :
    before.tx = after.tx ∧ before.inputs.length = after.inputs.length ∧
    ∃ i : ℕ, before.tx.vin[i]? = some nmOut ∧
      ∀ j : ℕ, j ≠ i → before.inputs[j]? = after.inputs[j]? := by
  rw [sellerSignature] at h
  by_cases htx : before.tx = after.tx
  swap
  · simp [htx] at h
  rw [if_neg (not_not.mpr htx)] at h
  split at h
  · simp at h
  · rename_i i hi
    by_cases hlen : before.inputs.length = after.inputs.length
    swap
    · simp [hlen] at h
    rw [if_neg (not_not.mpr hlen)] at h
    refine ⟨htx, hlen, i, ?_, fun j hj => ?_⟩
    · obtain ⟨hlt, hp, _⟩ := List.findIdx?_eq_some_iff_getElem.mp hi
      rw [List.getElem?_eq_getElem hlt]
      exact congrArg some (by simpa using hp)
    · simp only [Except.ok.injEq, List.all_eq_true, List.mem_range, Bool.or_eq_true,
        decide_eq_true_eq] at h
      by_cases hlt : j < before.inputs.length
      · exact (h j hlt).resolve_left hj
      · rw [List.getElem?_eq_none (by omega), List.getElem?_eq_none (by omega)]

/-- What the buyer knows after the check of the signature. -/
lemma buyerSignature_ok {before after : Psbt} {b : Bool} (h : buyerSignature before after = .ok b) :
    before.tx = after.tx ∧ before.inputs.length = after.inputs.length ∧
    (b = true ↔ countModified before.inputs after.inputs + 1 = before.inputs.length) := by
  rw [buyerSignature] at h
  split_ifs at h with htx hlen
  rw [not_not] at htx hlen
  refine ⟨htx, hlen, ?_⟩
  rw [← Except.ok.inj h, decide_eq_true_eq]

end Democrit
