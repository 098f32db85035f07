import Democrit.Safety.Cooperation
import Mathlib.Logic.Equiv.List

/-!
# A wallet that cooperates

The promises of `Cooperates` and `Permits` can be kept.  `modelWallet` is a wallet with a node and a
game that answers every call, with one coin to pay from and no change, and it keeps them for every
account (`modelWallet_cooperates`, `modelWallet_permits`).

A real wallet writes a PSBT in base64.  Here the text of a PSBT is its number, **in unary**: what
matters is that every PSBT has a text and that reading it back gives the same PSBT.
-/

namespace Democrit

open Interaction

/-! ## Texts of PSBTs -/

instance charEncodable : Encodable Char := .ofLeftInverse Char.toNat Char.ofNat Char.ofNat_toNat

instance stringEncodable : Encodable String :=
  .ofLeftInverse String.toList String.ofList fun _ => String.ofList_toList

instance int64Encodable : Encodable Int64 :=
  .ofLeftInverse Int64.toInt Int64.ofInt Int64.ofInt_toInt

instance uint32Encodable : Encodable UInt32 :=
  .ofLeftInverse UInt32.toNat UInt32.ofNat fun _ => UInt32.ofNat_toNat

instance outPointEncodable : Encodable OutPoint :=
  .ofLeftInverse (fun o => (o.hash, o.n)) (fun d => ⟨d.1, d.2⟩) fun _ => rfl

instance nameOpEncodable : Encodable NameOp :=
  .ofLeftInverse (fun o => (o.op, o.nameEncoding, o.valueEncoding, o.name, o.value))
    (fun d => ⟨d.1, d.2.1, d.2.2.1, d.2.2.2.1, d.2.2.2.2⟩) fun _ => rfl

/-- Null, an object or something else. -/
def NameOpField.code : NameOpField → Option (Option NameOp)
  | .null => none
  | .other => some none
  | .object op => some (some op)

def NameOpField.ofCode : Option (Option NameOp) → NameOpField
  | none => .null
  | some none => .other
  | some (some op) => .object op

instance nameOpFieldEncodable : Encodable NameOpField :=
  .ofLeftInverse NameOpField.code NameOpField.ofCode fun f => by cases f <;> rfl

instance scriptPubKeyEncodable : Encodable ScriptPubKey :=
  .ofLeftInverse (fun s => (s.nameOp, s.addresses, s.address)) (fun d => ⟨d.1, d.2.1, d.2.2⟩)
    fun _ => rfl

instance txOutEncodable : Encodable TxOut :=
  .ofLeftInverse (fun o => (o.value, o.scriptPubKey)) (fun d => ⟨d.1, d.2⟩) fun _ => rfl

instance txEncodable : Encodable Tx :=
  .ofLeftInverse (fun t => (t.btxid, t.vin, t.vout)) (fun d => ⟨d.1, d.2.1, d.2.2⟩) fun _ => rfl

instance psbtInputEncodable : Encodable PsbtInput :=
  .ofLeftInverse (fun a => (a.partialSignatures, a.finalScriptSig, a.finalScriptWitness, a.other))
    (fun d => ⟨d.1, d.2.1, d.2.2.1, d.2.2.2⟩) fun _ => rfl

instance psbtEncodable : Encodable Psbt :=
  .ofLeftInverse (fun p => (p.tx, p.inputs)) (fun d => ⟨d.1, d.2⟩) fun _ => rfl

/-- A PSBT has data for each input of its transaction. -/
def Psbt.WellFormed (p : Psbt) : Prop := p.inputs.length = p.tx.vin.length

instance Psbt.wellFormedDecidable (p : Psbt) : Decidable p.WellFormed :=
  inferInstanceAs (Decidable (_ = _))

/-- The text of a PSBT. -/
def modelEncode (p : Psbt) : String := String.ofList (List.replicate (Encodable.encode p) 'p')

/-- The PSBT that a text stands for. -/
def modelRead (text : String) : Option Psbt := Encodable.decode text.length

/-- A text that stands for nothing is read as an empty PSBT. -/
def modelDecode (text : String) : Psbt := (modelRead text).getD ⟨⟨"", [], []⟩, []⟩

/-- Does a text stand for a PSBT? -/
def readable (text : String) : Bool := (modelRead text).any fun p => p.WellFormed

lemma modelRead_encode (p : Psbt) : modelRead (modelEncode p) = some p := by
  have hlen : (modelEncode p).length = Encodable.encode p := by
    rw [modelEncode, String.length_ofList, List.length_replicate]
  rw [modelRead, hlen, Encodable.encodek]

-- what the numbers are does not matter from here on
attribute [irreducible] modelEncode modelRead

@[simp] lemma modelDecode_encode (p : Psbt) : modelDecode (modelEncode p) = p := by
  rw [modelDecode, modelRead_encode, Option.getD_some]

lemma readable_encode {p : Psbt} (h : p.WellFormed) : readable (modelEncode p) = true := by
  rw [readable, modelRead_encode]
  simpa using h

lemma wellFormed_of_readable {text : String} (h : readable text = true) :
    (modelDecode text).WellFormed := by
  rw [readable] at h
  rw [modelDecode]
  cases hread : modelRead text with
  | none => simp [hread] at h
  | some p => simpa [hread] using h

/-! ## Building and signing -/

/-- An output that pays `addr`. -/
def payOutput (out : String × Amount) : TxOut := ⟨some out.2, { address := some out.1 }⟩

/-- A transaction that nobody has signed. -/
def unsignedPsbt (vin : List OutPoint) (vout : List TxOut) : Psbt :=
  ⟨⟨"", vin, vout⟩, vin.map fun _ => {}⟩

/-- What `namepsbt` does. -/
def updateName (n : ℕ) (op name value : String) (p : Psbt) : Psbt :=
  { p with tx := { p.tx with vout := p.tx.vout.modify n (withNameOp op name value) } }

/-- What `joinpsbts` does. -/
def joinedPsbt (ps : List Psbt) : Psbt :=
  ⟨⟨"", (ps.map fun p => p.tx.vin).flatten, (ps.map fun p => p.tx.vout).flatten⟩,
    (ps.map fun p => p.inputs).flatten⟩

/-- An input, signed if it spends an output of the wallet.  These are the ones with the hash `name`. -/
def signInput (name : String) (out : OutPoint) (a : PsbtInput) : PsbtInput :=
  if out.hash = name then { a with finalScriptSig := some name } else a

def signedPsbt (name : String) (p : Psbt) : Psbt :=
  { p with inputs := List.zipWith (signInput name) p.tx.vin p.inputs }

/-- Of the two versions of an input, the one that is signed. -/
def combineInputs (a b : PsbtInput) : PsbtInput := if a.signed then a else b

/-- What `combinepsbt` does. -/
def combinedPsbt : List Psbt → Psbt
  | [] => unsignedPsbt [] []
  | [p] => p
  | p :: q :: ps => { p with inputs := List.zipWith combineInputs p.inputs (combinedPsbt (q :: ps)).inputs }

lemma payOutput_pays (out : String × Amount) : PaysExactly out.1 out.2 (payOutput out) := by
  simp [PaysExactly, payOutput, matchesAddress]

lemma unsignedPsbt_spec (vin : List OutPoint) (vout : List TxOut) :
    (unsignedPsbt vin vout).WellFormed ∧ Unsigned (unsignedPsbt vin vout) := by
  constructor
  · simp [Psbt.WellFormed, unsignedPsbt]
  · refine List.forall₂_map_right_iff.mpr (List.forall₂_same.mpr fun _ _ => ?_)
    simp [PsbtInput.signed]

lemma joinedPsbt_spec {ps : List Psbt} (h : ∀ p ∈ ps, p.WellFormed) :
    (joinedPsbt ps).WellFormed ∧ ((∀ p ∈ ps, Unsigned p) → Unsigned (joinedPsbt ps)) := by
  constructor
  · have hlen : (ps.map fun p => p.inputs.length) = ps.map fun p => p.tx.vin.length :=
      List.map_congr_left h
    simp [Psbt.WellFormed, joinedPsbt, List.length_flatten, List.map_map, Function.comp_def, hlen]
  · intro hunsigned
    refine List.rel_flatten (List.forall₂_map_left_iff.mpr (List.forall₂_map_right_iff.mpr ?_))
    exact List.forall₂_same.mpr hunsigned

lemma signedPsbt_spec (name : String) {p : Psbt} (h : p.WellFormed) :
    (signedPsbt name p).WellFormed ∧ Signs (fun out => out.hash = name) p (signedPsbt name p) := by
  have hlen : (signedPsbt name p).inputs.length = p.tx.vin.length := by
    rw [signedPsbt, List.length_zipWith, h, Nat.min_self]
  refine ⟨hlen, rfl, h.trans hlen.symm, ?_⟩
  rw [signedPsbt]
  rw [Psbt.WellFormed] at h
  generalize p.tx.vin = vin at h
  generalize p.inputs = inputs at h
  induction vin generalizing inputs with
  | nil =>
      obtain rfl := List.length_eq_zero_iff.mp h
      exact .nil
  | cons out vin ih =>
      cases inputs with
      | nil => simp at h
      | cons a inputs =>
          refine .cons ⟨fun hm => ?_, fun hm => ?_⟩ (ih inputs (by simpa using h))
          · simp [signInput, show out.hash = name from hm, PsbtInput.signed]
          · exact if_neg hm

/-- An input is signed in the result if it is signed in one of the two. -/
lemma combineInputs_signed (a b : PsbtInput) :
    (combineInputs a b).signed = true ↔ a.signed = true ∨ b.signed = true := by
  rw [combineInputs]
  split
  · simp [*]
  · simp [*]

lemma signedBy_combine {p q : Psbt} {who who' : OutPoint → Prop} (htx : q.tx = p.tx)
    (hp : SignedBy who p) (hq : SignedBy who' q) : SignedBy (fun out => who out ∨ who' out)
      { p with inputs := List.zipWith combineInputs p.inputs q.inputs } := by
  rw [SignedBy, htx] at hq
  rw [SignedBy] at hp ⊢
  generalize p.tx.vin = vin at hp hq ⊢
  generalize p.inputs = as at hp ⊢
  generalize q.inputs = bs at hq ⊢
  induction hp generalizing bs with
  | nil => exact .nil
  | cons hd _ ih =>
      cases hq with
      | cons hd' hq =>
          refine .cons ?_ (ih _ hq)
          rw [combineInputs_signed, hd, hd']

/-- PSBTs of one transaction are combined to one of the same transaction, in which the inputs are
signed that are signed in any of them. -/
lemma combinedPsbt_spec {tx : Tx} : ∀ {ps : List Psbt}, ps ≠ [] →
    (∀ p ∈ ps, p.WellFormed ∧ p.tx = tx) → (combinedPsbt ps).WellFormed ∧ (combinedPsbt ps).tx = tx ∧
      ∀ whos, List.Forall₂ (fun p who => SignedBy who p) ps whos →
        SignedBy (fun out => ∃ who ∈ whos, who out) (combinedPsbt ps)
  | [], hne, _ => absurd rfl hne
  | [p], _, h => by
      refine ⟨(h p (by simp)).1, (h p (by simp)).2, ?_⟩
      rintro whos (_ | ⟨hp, _ | _⟩)
      exact hp.congr fun out _ => by simp
  | p :: q :: ps, _, h => by
      obtain ⟨hwf, htx, hsigned⟩ := @combinedPsbt_spec tx (q :: ps) (by simp)
        fun r hr => h r (List.mem_cons_of_mem _ hr)
      obtain ⟨hwf', htx'⟩ := h p (by simp)
      refine ⟨?_, htx', ?_⟩
      · rw [Psbt.WellFormed, htx, ← htx'] at hwf
        rw [Psbt.WellFormed, combinedPsbt, List.length_zipWith, hwf, hwf', Nat.min_self]
      · rintro whos (_ | ⟨hp, hq⟩)
        exact (signedBy_combine (htx.trans htx'.symm) hp (hsigned _ hq)).congr fun out _ => by simp

/-! ## The wallet -/

/-- What the wallet answers for depends on: how many addresses it has given out, and whether its name
is locked. -/
structure ModelWorld where
  given : ℕ := 0
  locked : Bool := false

/-- Addresses are numbered, in unary as well. -/
def modelAddress (n : ℕ) : String := String.ofList (List.replicate n 'a')

/-- The output of a name.  The wallet's coin has the same hash. -/
def modelName (account : String) : OutPoint := ⟨getXayaName account, 0⟩

variable (account : String) (funds : ℤ)

/-- Does the call return? -/
def modelAllows (w : ModelWorld) : Method → Bool
  | .decodepsbt p | .walletprocesspsbt p | .finalizepsbt p => readable p
  | .walletcreatefundedpsbt outputs _ =>
      (outputs.all fun out => 0 ≤ out.2.toInt) && (outputs.map fun out => out.2.toInt).sum ≤ funds
  | .createpsbt _ outputs => outputs.all fun out => 0 ≤ out.2.toInt
  | .namepsbt p n _ _ _ => readable p && n < (modelDecode p).tx.vout.length
  | .joinpsbts ps => 2 ≤ ps.length && ps.all readable &&
      (ps.map fun p => (modelDecode p).tx.vin).flatten.Nodup
  | .combinepsbt ps => ps ≠ [] && ps.all readable &&
      ps.all fun p => ps.all fun q => (modelDecode p).tx = (modelDecode q).tx
  | .sendrawtransaction hex => readable hex && (modelDecode hex).inputs.all PsbtInput.signed
  | .lockunspent unlock outs => outs ≠ [modelName account] || unlock = w.locked
  | _ => true

/-- What it returns. -/
def modelReply (w : ModelWorld) : (m : Method) → m.Reply
  | .getnewaddress => modelAddress w.given
  | .nameShow name => (⟨name, 0⟩ : OutPoint)
  | .gettxout _ => some (0 : Uint256)
  | .getblockheader _ => (none : Option Uint256)
  | .decodepsbt p => modelDecode p
  | .walletcreatefundedpsbt outputs _ =>
      modelEncode (unsignedPsbt [⟨getXayaName account, 1⟩] (outputs.map payOutput))
  | .createpsbt ins outputs => modelEncode (unsignedPsbt ins (outputs.map payOutput))
  | .namepsbt p n op name value => modelEncode (updateName n op name value (modelDecode p))
  | .joinpsbts ps => modelEncode (joinedPsbt (ps.map modelDecode))
  | .walletprocesspsbt p =>
      (modelEncode (signedPsbt (getXayaName account) (modelDecode p)),
        (signedPsbt (getXayaName account) (modelDecode p)).inputs.all PsbtInput.signed)
  | .lockunspent _ _ => true
  | .combinepsbt ps => modelEncode (combinedPsbt (ps.map modelDecode))
  | .finalizepsbt p => if (modelDecode p).inputs.all PsbtInput.signed then some p else none
  | .sendrawtransaction hex => (modelDecode hex).tx.btxid
  | .checktrade _ => ((0 : UInt32), GspState.unknown)
  | .isAsset _ => true
  | .canBuy _ _ _ => true
  | .canSell _ _ _ => some (0 : Uint256)

/-- What it remembers of a call that returns. -/
def modelNext (w : ModelWorld) : Method → ModelWorld
  | .getnewaddress => { w with given := w.given + 1 }
  | .lockunspent unlock outs => if outs = [modelName account] then { w with locked := !unlock } else w
  | _ => w

/-- The wallet of `account`, which can pay `funds`. -/
def modelWallet (w : ModelWorld) : (c : Call) → Answer c × ModelWorld
  | .clock => ((0 : Int64), w)
  | .rpc m =>
      if modelAllows account funds w m then ((.ok (modelReply account w m) : Except RpcError m.Reply),
        modelNext account w m)
      else ((.error .exception : Except RpcError m.Reply), w)

/-- What the texts of the model wallets stand for. -/
def modelFormat : Format where
  decode := modelDecode
  rawTx hex := (modelDecode hex).tx
  psbt text := readable text = true
  complete hex := readable hex = true ∧ (modelDecode hex).inputs.all PsbtInput.signed = true

/-- All names are registered, and there is one block. -/
def modelNode : NodeState where
  nameOut account := some (modelName account)
  parent _ := none

/-- The side that has the model wallet. -/
def modelParty : Party ModelWorld where
  account
  name := modelName account
  mine out := out.hash = getXayaName account
  change _ := False
  funds
  free w := w.locked = false

abbrev modelEnv : Env Call Answer ModelWorld := Env.ofScript (modelWallet account funds)

section Answers

variable {account funds} {w w' : ModelWorld} {m : Method}

lemma model_returned {r : m.Reply} (h : modelEnv account funds w (Ev.returned m r) w') :
    modelAllows account funds w m = true ∧ r = modelReply account w m ∧
      w' = modelNext account w m := by
  have hw : modelWallet account funds w (.rpc m) = ((.ok r : Except RpcError m.Reply), w') := h
  rw [modelWallet] at hw
  split at hw
  · rename_i hallows
    have hr : (Except.ok (modelReply account w m) : Except RpcError m.Reply) = .ok r :=
      congrArg Prod.fst hw
    exact ⟨hallows, (Except.ok.inj hr).symm, (congrArg Prod.snd hw).symm⟩
  · have hr : (Except.error .exception : Except RpcError m.Reply) = .ok r := congrArg Prod.fst hw
    simp at hr

lemma model_failed {e : RpcError} (h : modelEnv account funds w (Ev.failed m e) w') :
    modelAllows account funds w m = false ∧ w' = w := by
  have hw : modelWallet account funds w (.rpc m) = ((.error e : Except RpcError m.Reply), w') := h
  rw [modelWallet] at hw
  split at hw
  · have hr : (Except.ok (modelReply account w m) : Except RpcError m.Reply) = .error e :=
      congrArg Prod.fst hw
    simp at hr
  · rename_i hallows
    exact ⟨by simpa using hallows, (congrArg Prod.snd hw).symm⟩

end Answers

/-! ## It cooperates -/

section Cooperation

variable (account : String) (funds : ℤ)

/-- What is refused is what may be refused. -/
lemma modelAllows_or_refused (w : ModelWorld) (m : Method)
    (h : modelAllows account funds w m = false) :
    m.Refused modelFormat modelNode (modelParty account funds) := by
  cases m with
  | decodepsbt p => simpa [modelAllows, Method.Refused, modelFormat] using h
  | walletprocesspsbt p => simpa [modelAllows, Method.Refused, modelFormat] using h
  | finalizepsbt p => simpa [modelAllows, Method.Refused, modelFormat] using h
  | walletcreatefundedpsbt outputs feeRate =>
      simp only [modelAllows, Bool.and_eq_false_iff, List.all_eq_false, decide_eq_true_eq,
        decide_eq_false_iff_not, not_le] at h
      exact h
  | createpsbt ins outputs =>
      simpa [modelAllows, Method.Refused] using h
  | namepsbt p n op name value =>
      simp only [modelAllows, Bool.and_eq_false_iff, decide_eq_false_iff_not, not_lt] at h
      simpa [Method.Refused, modelFormat] using h
  | joinpsbts ps =>
      simp only [modelAllows, Bool.and_eq_false_iff, decide_eq_false_iff_not, not_le,
        List.all_eq_false, or_assoc] at h
      simpa [Method.Refused, modelFormat] using h
  | combinepsbt ps =>
      simp only [modelAllows, Bool.and_eq_false_iff, decide_eq_false_iff_not, not_not,
        List.all_eq_false, or_assoc] at h
      simpa [Method.Refused, modelFormat] using h
  | sendrawtransaction hex =>
      simp only [modelAllows, Bool.and_eq_false_iff] at h
      rintro ⟨hread, hall⟩
      simp [hread, hall] at h
  | lockunspent unlock outs => trivial
  | _ => simp [modelAllows] at h

lemma modelWallet_builds : BuildsPsbts modelDecode (fun hex => (modelDecode hex).tx) (fun _ => False)
    (modelEnv account funds) where
  funds := by
    intro w addr total feeRate p w' h
    obtain ⟨hallows, rfl, _⟩ := model_returned h
    have hpos : 0 ≤ total.toInt := by
      simp [modelAllows] at hallows
      exact hallows.1
    refine ⟨hpos, payOutput (addr, total), [], payOutput_pays _, by simp, ?_⟩
    simp [modelReply, unsignedPsbt]
  creates := by
    intro w ins outs p w' h
    obtain ⟨_, rfl, _⟩ := model_returned h
    refine ⟨by simp [modelReply, unsignedPsbt], ?_⟩
    simp only [modelReply, modelDecode_encode, unsignedPsbt]
    exact List.forall₂_map_right_iff.mpr (List.forall₂_same.mpr fun out _ => payOutput_pays out)
  names := by
    intro w p n op name value q w' h
    obtain ⟨_, rfl, _⟩ := model_returned h
    simp [modelReply, updateName]
  joins := by
    intro w ps p w' h
    obtain ⟨_, rfl, _⟩ := model_returned h
    simp [modelReply, joinedPsbt, Function.comp_def]
  combines := by
    intro w ps p w' h q hq
    obtain ⟨hallows, rfl, _⟩ := model_returned h
    simp only [modelAllows, Bool.and_eq_true, List.all_eq_true, decide_eq_true_eq] at hallows
    obtain ⟨⟨hne, hread⟩, hsame⟩ := hallows
    have hspec := @combinedPsbt_spec (modelDecode q).tx (ps.map modelDecode)
      (by simpa using hne) fun p hp => ?_
    · simp only [modelReply, modelDecode_encode]
      exact hspec.2.1.symm
    · obtain ⟨text, ht, rfl⟩ := List.mem_map.mp hp
      exact ⟨wellFormed_of_readable (hread text ht), hsame text ht q hq⟩
  finalises := by
    intro w p hex w' h
    obtain ⟨_, hr, _⟩ := model_returned h
    have hr : some hex =
      if (modelDecode p).inputs.all PsbtInput.signed then some p else none := hr
    split_ifs at hr
    rw [Option.some.inj hr]

/-- The addresses are all different. -/
lemma modelWallet_fresh : GivesFresh (fun w : ModelWorld => {addr | ∃ k < w.given, modelAddress k = addr})
    (modelEnv account funds) where
  fresh := by
    intro w addr w' h
    obtain ⟨_, rfl, rfl⟩ := model_returned h
    refine ⟨?_, w.given, Nat.lt_succ_self _, rfl⟩
    rintro ⟨k, hk, heq⟩
    have hlen := congrArg String.length heq
    simp only [modelAddress, modelReply, String.length_ofList, List.length_replicate] at hlen
    omega
  grows := by
    rintro w ⟨c, r⟩ w' h addr ⟨k, hk, rfl⟩
    refine ⟨k, lt_of_lt_of_le hk ?_, rfl⟩
    obtain rfl : (modelWallet account funds w c).2 = w' := congrArg Prod.snd h
    cases c with
    | clock => exact le_rfl
    | rpc m =>
        rw [modelWallet]
        split
        · cases m <;> simp only [modelNext] <;> (try split) <;> simp
        · exact le_rfl

/-- **The model wallet cooperates**, whoever it belongs to and whatever it has. -/
theorem modelWallet_cooperates :
    Cooperates modelFormat modelNode (modelParty account funds) (modelEnv account funds) where
  answers := Env.answers_ofScript _
  returns := by
    intro w m e w' h
    exact modelAllows_or_refused account funds w m (model_failed h).1
  decodes := by
    intro w p d w' h
    exact (model_returned h).2.1
  builds := modelWallet_builds account funds
  readable := by
    rintro out ⟨⟩
  addresses := ⟨_, modelWallet_fresh account funds⟩
  names := by
    intro w name o w' h
    obtain ⟨_, rfl, _⟩ := model_returned h
    rfl
  ourName := ⟨rfl, rfl⟩
  locks := by
    intro w r w' hfree h
    have hw : modelWallet account funds w (.rpc (.lockunspent false [modelName account])) = (r, w') := h
    have hallows : modelAllows account funds w (.lockunspent false [modelName account]) = true := by
      simp only [modelAllows, show w.locked = false from hfree]
      simp
    rw [modelWallet, if_pos hallows] at hw
    exact (congrArg Prod.fst hw).symm
  freeStays := by
    rintro w ⟨c, r⟩ w' hfree h hquiet
    cases c with
    | clock =>
        obtain rfl : w = w' := congrArg Prod.snd h
        exact hfree
    | rpc m =>
        cases r with
        | error e =>
            obtain ⟨_, rfl⟩ := model_failed h
            exact hfree
        | ok r =>
            obtain ⟨_, rfl, rfl⟩ := model_returned h
            cases m with
            | lockunspent unlock outs => simp [Ev.quiet, modelReply] at hquiet
            | _ => exact hfree
  coins := by
    intro w outputs feeRate p w' h
    obtain ⟨_, rfl, _⟩ := model_returned h
    obtain ⟨hwf, hunsigned⟩ := unsignedPsbt_spec [⟨getXayaName account, 1⟩] (outputs.map payOutput)
    refine ⟨readable_encode hwf, ?_⟩
    simp only [modelFormat, modelReply, modelDecode_encode]
    refine ⟨by simp [unsignedPsbt], by simp [unsignedPsbt], ?_, hunsigned⟩
    simp [unsignedPsbt, modelParty]
  creates := by
    intro w ins outs p w' h
    obtain ⟨_, rfl, _⟩ := model_returned h
    obtain ⟨hwf, hunsigned⟩ := unsignedPsbt_spec ins (outs.map payOutput)
    refine ⟨readable_encode hwf, ?_⟩
    simpa only [modelFormat, modelReply, modelDecode_encode] using hunsigned
  updates := by
    intro w p n op name value q w' h
    obtain ⟨hallows, rfl, _⟩ := model_returned h
    simp only [modelAllows, Bool.and_eq_true] at hallows
    have hwf : (updateName n op name value (modelDecode p)).WellFormed :=
      wellFormed_of_readable hallows.1
    refine ⟨readable_encode hwf, fun hp => ?_⟩
    simp only [modelFormat, modelReply, modelDecode_encode]
    exact hp
  joins := by
    intro w ps p w' h
    obtain ⟨hallows, rfl, _⟩ := model_returned h
    simp only [modelAllows, Bool.and_eq_true, List.all_eq_true] at hallows
    obtain ⟨hwf, hunsigned⟩ := @joinedPsbt_spec (ps.map modelDecode) (by
      intro p hp
      obtain ⟨text, ht, rfl⟩ := List.mem_map.mp hp
      exact wellFormed_of_readable (hallows.1.2 text ht))
    refine ⟨readable_encode hwf, fun hp => ?_⟩
    simp only [modelFormat, modelReply, modelDecode_encode] at hp ⊢
    exact hunsigned (List.forall_mem_map.mpr hp)
  signs := by
    intro w p r w' h
    obtain ⟨hallows, rfl, _⟩ := model_returned h
    obtain ⟨hwf, hsigns⟩ := signedPsbt_spec (getXayaName account) (wellFormed_of_readable hallows)
    refine ⟨readable_encode hwf, ?_⟩
    simp only [modelFormat, modelReply, modelDecode_encode, and_true]
    exact hsigns
  combines := by
    intro w ps p w' h
    obtain ⟨hallows, rfl, _⟩ := model_returned h
    simp only [modelAllows, Bool.and_eq_true, List.all_eq_true, decide_eq_true_eq] at hallows
    obtain ⟨⟨hne, hread⟩, hsame⟩ := hallows
    obtain ⟨q, hq⟩ := List.exists_mem_of_ne_nil ps hne
    obtain ⟨hwf, _, hsigned⟩ := @combinedPsbt_spec (modelDecode q).tx (ps.map modelDecode)
      (by simpa using hne) (by
        intro p hp
        obtain ⟨text, ht, rfl⟩ := List.mem_map.mp hp
        exact ⟨wellFormed_of_readable (hread text ht), hsame text ht q hq⟩)
    refine ⟨readable_encode hwf, fun whos hwhos => ?_⟩
    simp only [modelFormat, modelReply, modelDecode_encode] at hwhos ⊢
    exact hsigned whos (List.forall₂_map_left_iff.mpr hwhos)
  finalises := by
    intro w p r w' h hall
    obtain ⟨hallows, rfl, _⟩ := model_returned h
    exact ⟨p, if_pos hall, hallows, hall⟩

/-- **It permits every sale.** -/
lemma modelWallet_permits (ck : TradeChecker) :
    Permits modelNode (modelName ck.seller) ck (modelEnv account funds) where
  registered := rfl
  isAsset w b w' h := (model_returned h).2.1
  canBuy w b w' h := (model_returned h).2.1
  unspent := by
    intro w r w' h
    obtain ⟨_, rfl, _⟩ := model_returned h
    rfl
  canSell := by
    intro w r w' h
    obtain ⟨_, rfl, _⟩ := model_returned h
    rfl
  close := by
    intro w w₁ w₂ b g h h'
    obtain ⟨_, hb, _⟩ := model_returned h
    obtain ⟨_, hg, _⟩ := model_returned h'
    obtain rfl : b = 0 := Option.some.inj hb
    obtain rfl : g = 0 := Option.some.inj hg
    exact ⟨0, Nat.zero_le _, rfl⟩
  headers w b r w' h := (model_returned h).2.1

end Cooperation

end Democrit
