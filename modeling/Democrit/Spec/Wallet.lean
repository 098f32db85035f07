import Democrit.Spec.Core

/-!
# What a trade commits in the wallet

A seller locks its name output when it sends its addresses, and a buyer locks the coins that fund the
transaction when it builds it.  `committed` reads off a trade what it holds in this way, and
`Commits` says what a call of `HasReply` does: **what a trade newly commits was free before the
call**, and nothing that was locked before gets unlocked by it.

What is assumed of the wallet is in `Wallet.Keeps`.  The locks are this daemon's alone, and the only
way for a lock to go away without having been released is that its output is spent.
-/

namespace Democrit

open Interaction

/-! ## Locks in the wallet -/

/-- How the locks of the wallet are read off the world, and which outputs are the wallet's own. -/
structure Wallet (W : Type) where
  locked : W → OutPoint → Prop
  /-- The output has been spent. -/
  spent : W → OutPoint → Prop
  ours : OutPoint → Prop

/-- The exchange locked `o`: alone, or while funding a transaction. -/
def Ev.locks (decode : String → Psbt) (o : OutPoint) : Ev → Prop
  | ⟨.clock, _⟩ => False
  | ⟨.rpc m, a⟩ =>
      match m, a with
      | .lockunspent false outs, (.ok b : Except RpcError Bool) => b = true ∧ o ∈ outs
      | .walletcreatefundedpsbt _ _, (.ok psbt : Except RpcError String) =>
          o ∈ (decode psbt).tx.vin
      | _, _ => False

/-- The exchange unlocked `o`. -/
def Ev.unlocks (o : OutPoint) : Ev → Prop
  | ⟨.clock, _⟩ => False
  | ⟨.rpc m, a⟩ =>
      match m, a with
      | .lockunspent true outs, (.ok b : Except RpcError Bool) => b = true ∧ o ∈ outs
      | _, _ => False

variable {W : Type}

/-- Not available for anything else, or not any more. -/
def Wallet.Held (v : Wallet W) (w : W) (o : OutPoint) : Prop := v.locked w o ∨ v.spent w o

/-- **What is assumed of the wallet's locks.** -/
structure Wallet.Keeps (v : Wallet W) (decode : String → Psbt) (account : String)
    (E : Env Call Answer W) : Prop where
  spentStays : ∀ w (ev : Ev) w' o, E w ev w' → v.spent w o → v.spent w' o
  lockStays : ∀ w (ev : Ev) w' o, E w ev w' → ¬ ev.unlocks o → v.locked w o → v.Held w' o
  /-- Only outputs that are neither locked nor spent can be locked. -/
  locks : ∀ w (ev : Ev) w' o, E w ev w' → ev.locks decode o → ¬ v.Held w o ∧ v.Held w' o
  /-- A transaction is funded with different outputs, all of them the wallet's own. -/
  funds : ∀ w outputs feeRate psbt w',
    E w (Ev.returned (.walletcreatefundedpsbt outputs feeRate) psbt) w' →
    (decode psbt).tx.vin.Nodup ∧ ∀ o ∈ (decode psbt).tx.vin, v.ours o
  ourName : ∀ w o w', E w (Ev.returned (.nameShow (getXayaName account)) o) w' → v.ours o
  theirName : ∀ w name o w', name ≠ account →
    E w (Ev.returned (.nameShow (getXayaName name)) o) w' → ¬ v.ours o

lemma Ev.quiet.not_unlocks {ev : Ev} (h : ev.quiet) (o : OutPoint) : ¬ ev.unlocks o := by
  obtain ⟨c, a⟩ := ev
  cases c with
  | clock => exact id
  | rpc m =>
      cases m with
      | lockunspent unlock outs =>
          cases a with
          | error e => cases unlock <;> exact id
          | ok b =>
              have hb : b = false := h
              cases unlock with
              | false => exact id
              | true =>
                  rintro ⟨hb' : b = true, _⟩
                  rw [hb] at hb'
                  simp at hb'
      | _ => exact id

section Paths

variable {v : Wallet W} {decode : String → Psbt} {account : String} {E : Env Call Answer W}
  {tr : Conversation} {w w' : W} {o : OutPoint}

/-- What is held stays so unless it is unlocked. -/
lemma Wallet.Keeps.held (h : v.Keeps decode account E) (hp : E.Path w tr w')
    (hno : ∀ ev ∈ tr, ¬ ev.unlocks o) (hheld : v.Held w o) : v.Held w' o := by
  refine Env.rel_of_path (T := fun w w' => v.Held w o → v.Held w' o) (fun _ h => h)
    (fun _ _ _ h h' hw => h' (h hw)) ?_ hp hno hheld
  rintro w ev w' he hev (hl | hs)
  · exact h.lockStays w ev w' o he hev hl
  · exact Or.inr (h.spentStays w ev w' o he hs)

lemma Wallet.Keeps.held_of_quiet (h : v.Keeps decode account E) (hp : E.Path w tr w')
    (hq : Quiet tr) (hheld : v.Held w o) : v.Held w' o :=
  h.held hp (fun ev hev => (hq ev hev).not_unlocks o) hheld

/-- Unlocking some outputs leaves the others alone. -/
lemma not_unlocks_of_unlocks {outs : List OutPoint} (h : Unlocks outs tr) (ho : o ∉ outs) :
    ∀ ev ∈ tr, ¬ ev.unlocks o := by
  rintro ⟨c, a⟩ hev hu
  have hmem : c ∈ tr.map Sigma.fst := List.mem_map_of_mem hev
  rw [show tr.map Sigma.fst = _ from h] at hmem
  obtain ⟨out, hout, rfl⟩ := List.mem_map.mp hmem
  cases a with
  | error e => exact hu
  | ok b =>
      obtain ⟨_, ho'⟩ : b = true ∧ o ∈ [out] := hu
      rw [List.mem_singleton.mp ho'] at ho
      exact ho hout

end Paths

/-! ## Commitments -/

section

variable (account : String) (decode : String → Psbt)

/-- What a trade has locked, and unlocks if it does not succeed: a seller its name output, a buyer
the inputs of its transaction. -/
def committed (t : TradeState) : List OutPoint :=
  match getOrderType account t with
  | .ask => (t.sellerData.getD {}).nameOutput.toList
  | .bid =>
      match t.ourPsbt with
      | some ours => (decode ours).tx.vin
      | none => []

variable {account decode} {v : Wallet W}

lemma committed_new (o : Order) (units : Amount) (counterparty : String) (now : Int64)
    (serial : ℕ) : committed account decode (newTrade o units counterparty now serial) = [] := by
  rw [committed]
  cases getOrderType account (newTrade o units counterparty now serial) <;> rfl

/-- Neither the state nor the block of a conflict matters. -/
lemma committed_congr {t t' : TradeState} (hf : Frame t t') (hsd : t'.sellerData = t.sellerData)
    (hours : t'.ourPsbt = t.ourPsbt) :
    committed account decode t' = committed account decode t := by
  rw [committed, committed, hf.getOrderType, hsd, hours]

/-- A message commits us to nothing. -/
lemma committed_handleMessage (msg : ProcessingMessage) (t : TradeState) :
    committed account decode (handleMessage account msg t) = committed account decode t := by
  have hrec := @handleMessage_spec account msg t
  generalize handleMessage account msg t = t' at hrec
  have hours : t'.ourPsbt = t.ourPsbt := by rw [hrec.eq]
  rcases hrec.sellerData with hsd | ⟨hbid, _⟩
  · exact committed_congr hrec.frame hsd hours
  · simp only [committed, hrec.frame.getOrderType, hbid, hours]

lemma Update.Outcome.committed_eq {t t' : TradeState} {tr : Conversation} {r : Except Fail Unit}
    (h : Update.Outcome t tr r t') : committed account decode t' = committed account decode t := by
  refine committed_congr h.frame ?_ ?_ <;> cases h <;> rfl

/-- What a call did to the wallet's own outputs, for a trade that was `t` before it and `t'` after
it: what was held still is, and what `t'` commits beyond `t` was free. -/
structure Commits (v : Wallet W) (account : String) (decode : String → Psbt) (w w' : W)
    (t t' : TradeState) : Prop where
  kept : ∀ o, v.ours o → v.Held w o → v.Held w' o
  fresh : ∃ new : List OutPoint,
    (∀ o, v.ours o → new.count o ≤ 1 ∧
      (committed account decode t').count o = (committed account decode t).count o + new.count o) ∧
    ∀ o ∈ new, v.ours o → ¬ v.Held w o ∧ v.Held w' o

lemma Commits.nothing {w w' : W} {t t' : TradeState}
    (hkept : ∀ o, v.ours o → v.Held w o → v.Held w' o)
    (heq : committed account decode t' = committed account decode t) :
    Commits v account decode w w' t t' :=
  ⟨hkept, [], fun o _ => by simp [heq], by simp⟩

end

/-! ## `HasReply` and the wallet -/

section

variable {cfg : Config} {account : String} {decode : String → Psbt} {rawTx : String → Tx}
  {change : TxOut → Prop} {v : Wallet W} {E : Env Call Answer W} {w w' : W} {t t' : TradeState}
  {tr : Conversation}

/-- Funding, building and joining do not unlock anything. -/
lemma not_unlocks_buildTx {ck : TradeChecker} {nameIn : OutPoint} {total : Amount}
    {chiPart rawNamePart namePart psbt : String} (o : OutPoint) :
    ∀ ev ∈ buildTx cfg ck t nameIn total chiPart rawNamePart namePart psbt, ¬ ev.unlocks o := by
  intro ev hev
  simp only [buildTx, List.mem_cons, List.not_mem_nil, or_false] at hev
  rcases hev with rfl | rfl | rfl | rfl <;> exact id

lemma not_unlocks_lockName {out : OutPoint} (o : OutPoint) :
    ∀ ev ∈ lockName account out, ¬ ev.unlocks o := by
  intro ev hev
  simp only [lockName, List.mem_cons, List.not_mem_nil, or_false] at hev
  rcases hev with rfl | rfl <;> exact id

/-- What the buyer's transaction spends: the coins that fund it, and the seller's name output. -/
lemma BuildsPsbts.vin (hcore : BuildsPsbts decode rawTx change E) {ck : TradeChecker}
    {nameIn : OutPoint} {total : Amount} {chiPart rawNamePart namePart psbt : String}
    (hp : E.Path w (buildTx cfg ck t nameIn total chiPart rawNamePart namePart psbt) w') :
    (decode psbt).tx.vin.Perm ((decode chiPart).tx.vin ++ [nameIn]) := by
  obtain ⟨_, _, _, hcreate, _, hnamed, _, hjoin, _⟩ := hp
  obtain ⟨hnameIn, _⟩ := hcore.creates _ _ _ _ _ hcreate
  obtain ⟨hnamedIn, _⟩ := hcore.names _ _ _ _ _ _ _ _ hnamed
  obtain ⟨hvin, _⟩ := hcore.joins _ _ _ _ hjoin
  simpa only [List.map_cons, List.map_nil, List.flatten_cons, List.flatten_nil, List.append_nil,
    hnamedIn, hnameIn] using hvin

/-- What the buyer's transaction spends of our own was free when it was funded. -/
lemma Wallet.Keeps.build (hw : v.Keeps decode account E) (hcore : BuildsPsbts decode rawTx change E)
    {ck : TradeChecker} {nameIn : OutPoint} {total : Amount}
    {chiPart rawNamePart namePart psbt : String} (hname : ¬ v.ours nameIn)
    (hp : E.Path w (buildTx cfg ck t nameIn total chiPart rawNamePart namePart psbt) w') :
    ∀ o, v.ours o → (decode psbt).tx.vin.count o ≤ 1 ∧
      (o ∈ (decode psbt).tx.vin → ¬ v.Held w o ∧ v.Held w' o) := by
  have hvin := hcore.vin hp
  obtain ⟨w₁, hfund, hrest⟩ := hp
  obtain ⟨hnodup, _⟩ := hw.funds _ _ _ _ _ hfund
  intro o ho
  have hne : o ≠ nameIn := fun heq => hname (heq ▸ ho)
  constructor
  · rw [hvin.count_eq, List.count_append, List.count_singleton, if_neg (by simpa using hne.symm)]
    exact List.nodup_iff_count_le_one.mp hnodup o
  · intro hmem
    have hmem : o ∈ (decode chiPart).tx.vin := by
      have := hvin.mem_iff.mp hmem
      simpa [hne] using this
    obtain ⟨hfree, hheld⟩ := hw.locks _ _ _ o hfund hmem
    exact ⟨hfree, hw.held_of_quiet hrest (by simp [Ev.quiet]) hheld⟩

/-- The seller whose name a buyer looks up is not we. -/
lemma nameIn_not_ours (hw : v.Keeps decode account E) (hbid : getOrderType account t = .bid)
    (hother : t.counterparty ≠ account) {checked : Conversation} {nameIn : OutPoint} {w₁ : W}
    (hx : ((buildTradeChecker account t).checkForBuyerTrade ()).Exec checked (.ok (some nameIn), ()))
    (hp : E.Path w checked w₁) : Quiet checked ∧ ¬ v.ours nameIn := by
  obtain ⟨hq, hname⟩ := Act.wp_iff.mp (checkForBuyerTrade_spec _) checked _ _ hx
  refine ⟨hq, ?_⟩
  have hseller : (buildTradeChecker account t).seller = t.counterparty := by
    simp only [buildTradeChecker, hbid]
  have hmem := hname nameIn rfl
  rw [hseller] at hmem
  obtain ⟨w₂, w₃, he⟩ := Env.event_of_path hp hmem
  exact hw.theirName w₂ _ nameIn w₃ hother he

lemma BuyerBuilds.commits (hw : v.Keeps decode account E) (hdec : Decodes decode E)
    (hcore : BuildsPsbts decode rawTx change E) (hother : t.counterparty ≠ account)
    {nameIn : OutPoint} {unsignedPsbt signedPsbt : String} (hp : E.Path w tr w')
    (hb : BuyerBuilds cfg account t tr nameIn unsignedPsbt signedPsbt)
    (hf : Frame t t') (hours : t'.ourPsbt = some signedPsbt) :
    Commits v account decode w w' t t' := by
  obtain ⟨checked, total, chiPart, rawNamePart, namePart, w₁, w₂, hx, _, _, hchecked, hbuild, hrest,
    hsig⟩ := hb.phases hdec hp
  obtain ⟨htx, _⟩ := buyerSignature_ok hsig
  obtain ⟨hq, hname⟩ := nameIn_not_ours hw hb.isBid hother hx hchecked
  have hnew := hw.build hcore hname hbuild
  have hnone : committed account decode t = [] := by simp [committed, hb.isBid, hb.fresh]
  have hsome : committed account decode t' = (decode signedPsbt).tx.vin := by
    simp [committed, hf.getOrderType, hb.isBid, hours]
  have hafter : ∀ o, v.Held w₂ o → v.Held w' o := fun o =>
    hw.held_of_quiet hrest (by simp [Ev.quiet])
  refine ⟨fun o _ hheld => ?_, (decode unsignedPsbt).tx.vin, fun o ho => ?_, fun o hm ho => ?_⟩
  · exact hafter o (hw.held hbuild (not_unlocks_buildTx o) (hw.held_of_quiet hchecked hq hheld))
  · exact ⟨(hnew o ho).1, by simp [hnone, hsome, htx]⟩
  · obtain ⟨hfree, hheld⟩ := (hnew o ho).2 hm
    exact ⟨fun h => hfree (hw.held_of_quiet hchecked hq h), hafter o hheld⟩

/-- Giving a transaction up unlocks nothing that was locked before. -/
lemma BuyerReleases.kept (hw : v.Keeps decode account E) (hdec : Decodes decode E)
    (hcore : BuildsPsbts decode rawTx change E) (hother : t.counterparty ≠ account)
    (hp : E.Path w tr w') (hb : BuyerReleases cfg account t tr) :
    ∀ o, v.ours o → v.Held w o → v.Held w' o := by
  obtain ⟨checked, signing, unlocked, nameIn, total, chiPart, rawNamePart, namePart, unsignedPsbt,
    w₁, w₂, w₃, hx, _, hchecked, hbuild, hsign, hquiet, hunlock, hun⟩ := hb.phases hdec hp
  obtain ⟨hq, hname⟩ := nameIn_not_ours hw hb.isBid hother hx hchecked
  intro o ho hheld
  have h₁ := hw.held_of_quiet hchecked hq hheld
  have h₂ := hw.held hbuild (not_unlocks_buildTx o) h₁
  have h₃ := hw.held_of_quiet hsign hquiet h₂
  refine hw.held hunlock (not_unlocks_of_unlocks hun fun hmem => ?_) h₃
  exact ((hw.build hcore hname hbuild o ho).2 hmem).1 h₁

/-- **What a call of `HasReply` commits.** -/
theorem hasReply_commits (hw : v.Keeps decode account E) (hdec : Decodes decode E)
    (hcore : BuildsPsbts decode rawTx change E) (hother : t.counterparty ≠ account)
    {r : Except Fail (Option ProcessingMessage)} (hp : E.Path w tr w')
    (h : HasReply.Outcome cfg account t tr r t') : Commits v account decode w w' t t' := by
  have quiet : Quiet tr → ∀ o, v.ours o → v.Held w o → v.Held w' o :=
    fun hq o _ => hw.held_of_quiet hp hq
  have signed : ∀ {tr' psbt} (st : Option TradeStatus), SellerSigns cfg account t tr' psbt →
      committed account decode { t with ourPsbt := some psbt, state := st }
        = committed account decode t := by
    intro tr' psbt st hs
    have hask : getOrderType account { t with ourPsbt := some psbt, state := st } = .ask := hs.isAsk
    simp [committed, hask, hs.isAsk]
  have broadcast : ∀ {tr' hex txid}, Quiet tr' →
      tr = tr' ++ [Ev.returned (.sendrawtransaction hex) txid] →
      ∀ o, v.ours o → v.Held w o → v.Held w' o := by
    rintro tr' hex txid hq rfl o _
    refine hw.held hp fun ev hev => ?_
    rcases List.mem_append.mp hev with hev | hev
    · exact (hq ev hev).not_unlocks o
    · rw [List.mem_singleton.mp hev]
      exact id
  cases h with
  | rest hq => exact .nothing (quiet hq) rfl
  | nameLeaked _ _ _ hq =>
      refine .nothing (fun o _ => hw.held hp fun ev hev => ?_) rfl
      rcases List.mem_append.mp hev with hev | hev
      · exact not_unlocks_lockName o ev hev
      · exact (hq ev hev).not_unlocks o
  | @sendsSellerData out nameAddress chiAddress _ hask hnone =>
      obtain ⟨w₁, hshow, w₂, hlock, hrest⟩ := hp
      have hpath : E.Path w [Ev.returned (.nameShow (getXayaName account)) out] w₁ :=
        ⟨w₁, hshow, rfl⟩
      have hours : v.ours out := hw.ourName _ _ _ hshow
      obtain ⟨hfree, hheld⟩ := hw.locks _ _ _ out hlock ⟨rfl, by simp⟩
      have hnone' : committed account decode t = [] := by simp [committed, hask, hnone]
      have hsome : committed account decode
          { t with sellerData := some ⟨some nameAddress, some chiAddress, some out⟩ } = [out] := by
        have hask' : getOrderType account
            { t with sellerData := some ⟨some nameAddress, some chiAddress, some out⟩ } = .ask := hask
        simp [committed, hask']
      have hafter : ∀ o, v.Held w₂ o → v.Held w' o := fun o =>
        hw.held_of_quiet hrest (by simp [Ev.quiet])
      refine ⟨fun o _ h => ?_, [out], fun o _ => ⟨?_, by simp [hnone', hsome]⟩, fun o hm _ => ?_⟩
      · have hpath' : E.Path w (lockName account out) w₂ := ⟨w₁, hshow, w₂, hlock, rfl⟩
        exact hafter o (hw.held hpath' (not_unlocks_lockName o) h)
      · rw [List.count_singleton]
        split <;> simp
      · rw [List.mem_singleton.mp hm]
        exact ⟨fun h => hfree (hw.held_of_quiet hpath (by simp [Ev.quiet]) h), hafter out hheld⟩
  | sellerShares _ _ _ hs _ => exact .nothing (quiet hs.quiet) (signed _ hs)
  | sellerKeeps _ _ _ hs _ hq _ =>
      exact .nothing (quiet (quiet_append.mpr ⟨hs.quiet, hq⟩)) (signed _ hs)
  | sellerBroadcasts _ _ _ hs _ hfin =>
      have hkept := broadcast (quiet_append.mpr ⟨hs.quiet, hfin.quiet⟩) (List.append_assoc _ _ _).symm
      exact .nothing hkept (signed _ hs)
  | coinsLeaked _ _ _ hq hq' =>
      refine .nothing (fun o _ => hw.held hp fun ev hev => ?_) rfl
      rcases List.mem_append.mp hev with hev | hev
      · exact (hq ev hev).not_unlocks o
      · rcases List.mem_cons.mp hev with rfl | hev
        · exact id
        · exact (hq' ev hev).not_unlocks o
  | coinsReleased _ _ hb => exact .nothing (hb.kept hw hdec hcore hother hp) rfl
  | buyerOffers _ _ hb _ =>
      exact hb.commits hw hdec hcore hother hp ⟨rfl, rfl, rfl, rfl, rfl⟩ rfl
  | buyerShares _ _ hb _ =>
      exact hb.commits hw hdec hcore hother hp ⟨rfl, rfl, rfl, rfl, rfl⟩ rfl
  | shares =>
      exact .nothing (quiet (by simp)) (committed_congr ⟨rfl, rfl, rfl, rfl, rfl⟩ rfl rfl)
  | broadcasts _ _ _ _ hfin =>
      exact .nothing (broadcast hfin.quiet rfl)
        (committed_congr ⟨rfl, rfl, rfl, rfl, rfl⟩ rfl rfl)

end

end Democrit
