import Democrit.Safety.Completion
import Democrit.Safety.ModelWallet

/-!
# Deals come about

Safety says what cannot happen.  Here is what does: between two sides that can trade (`Bargain`), the
dialogue that `TakeOrder` begins gets to its end, and both sides store the same transaction, which
is on the network (`deal_completes`).

**The states in between are not fixed.**  A message may be delivered much later, in any state that the
daemon has got into meanwhile, with other trades, other orders and other locks of the wallet, as long
as the trade itself is still there as it was left.  So the theorem is about a daemon that does other
things at the same time, and about every answer that a cooperating outside can give.

`Finishes n` is the part of the dialogue from a message on.  Who sends what is another matter
for each type of order, and the two dialogues are put together from the last message to the first.
What there is to be said about one message is in `Completion`.

The premises can be met: two model wallets can trade any order that `CheckOrder` accepts
(`model_bargain`).
-/

namespace Democrit

open Interaction

variable {ι W : Type} {cfg : ι → Config} {P : ι → Party W} {E : ι → Env Call Answer W} {F : Format}
  {C : NodeState}

/-! ## Two sides -/

section Sides

variable {o : Order} {units : Amount} {maker taker : String} {tm tk : TradeState}

/-- Who is who in a deal. -/
def dealChecker (o : Order) (units : Amount) (maker taker : String) : TradeChecker :=
  match o.getType with
  | .ask => ⟨taker, maker, o.getAsset, o.getPriceSat.toInt64, units⟩
  | .bid => ⟨maker, taker, o.getAsset, o.getPriceSat.toInt64, units⟩

lemma Sides.roles (h : Sides o units maker taker tm tk) :
    (getRole maker tm = .maker ∧ getRole taker tk = .taker) ∧
    getOrderType maker tm = o.getType ∧ getOrderType taker tk = o.getType.flip := by
  obtain ⟨_, _, hm⟩ := h.makers
  obtain ⟨_, _, hk⟩ := h.takers
  have hroles : getRole maker tm = .maker ∧ getRole taker tk = .taker := by
    simp [getRole, hm.order, hk.order, newTrade, h.account, h.differ]
  refine ⟨hroles, ?_, ?_⟩
  · simp [getOrderType, hroles.1, hm.order, newTrade]
  · simp [getOrderType, hroles.2, hk.order, newTrade]

lemma Sides.checker (h : Sides o units maker taker tm tk) :
    buildTradeChecker maker tm = dealChecker o units maker taker ∧
      buildTradeChecker taker tk = dealChecker o units maker taker := by
  rw [← (sides_agree h).2, and_self, buildTradeChecker, dealChecker, h.roles.2.1]
  obtain ⟨_, _, hm⟩ := h.makers
  rw [hm.order, hm.units, hm.counterparty]
  cases o.getType <;> simp [newTrade]

end Sides

/-! ## The dialogue -/

/-- The section returns, whatever it is answered, and `Q` holds of what it did. -/
def Ends (cfg : Config) (E : Env Call Answer W) (task : Task) (s : State) (w : W)
    (Q : Conversation → Effect → State → Prop) : Prop :=
  (∃ tr r s' w', (exec cfg task s).Exec tr (r, s') ∧ E.Path w tr w') ∧
  ∀ tr r s' w', (exec cfg task s).Exec tr (r, s') → E.Path w tr w' →
    ∃ eff, r = .ok eff ∧ Q tr eff s'

lemma ends_of_wpIn {c : Config} {E : Env Call Answer W} (hE : E.Answers) {task : Task} {s : State}
    {w : W} {Q : Conversation → Effect → State → Prop}
    (h : (exec c task).wpIn E w s fun _ tr r s' => ∃ eff, r = .ok eff ∧ Q tr eff s') :
    Ends c E task s w Q := by
  obtain ⟨tr, r, s', w', hx, hp, _⟩ := Act.wpIn_exists h hE
  exact ⟨⟨tr, r, s', w', hx, hp⟩, Act.wpIn_iff.mp h⟩

/-- The message as it arrives from `account`. -/
def ProcessingMessage.sentBy (msg : ProcessingMessage) (account : String) : ProcessingMessage :=
  { msg with counterparty := some account }

section

variable (cfg : ι → Config) (P : ι → Party W) (E : ι → Env Call Answer W) (F : Format)

/-- **Whenever** the message from `j` is processed by `i`, in whatever state still has the trade `t`, it
is processed, with `Q` of the reply and of what becomes of the trade.  A seller whose name output is
still to be locked needs it to be free. -/
def OnDelivery (i j : ι) (t : TradeState) (msg : ProcessingMessage)
    (Q : Conversation → Option ProcessingMessage → TradeState → Prop) : Prop :=
  ∀ s w, s.account = (P i).account → s.Holds t →
    (getOrderType (P i).account t = .ask → t.sellerData = none → (P i).free w) →
    Ends (cfg i) (E i) (.process (msg.sentBy (P j).account)) s w fun tr eff s' =>
      eff.next = [] ∧ ∃ t', s'.Holds t' ∧ Q tr eff.reply t'

/-- Both trades are `PENDING` with the same transaction, which has been sent. -/
structure Settled (F : Format) (t t' : TradeState)
    (tr : Conversation) : Prop where
  pending : t.getState = .pending ∧ t'.getState = .pending
  sent : ∃ ours theirs, t.ourPsbt = some ours ∧ t'.ourPsbt = some theirs ∧
    (F.decode ours).tx = (F.decode theirs).tx ∧ BroadcastOf F ours tr

/-- The message for the trade `t` of `i`, from the trade `t'` of `j`, leads to `n` more messages, and
with the last of them the deal is settled. -/
def Finishes : (n : ℕ) → (i j : ι) → (t t' : TradeState) → (msg : ProcessingMessage) → Prop
  | 0, i, j, t, t', msg => OnDelivery cfg P E i j t msg fun tr reply t₁ =>
      reply = none ∧ Settled F t₁ t' tr
  | n + 1, i, j, t, t', msg => OnDelivery cfg P E i j t msg fun _ reply t₁ =>
      ∃ msg', reply = some msg' ∧ msg'.counterparty = some (P j).account ∧
        msg'.takingOrder = none ∧ Finishes n j i t' t₁ msg'

/-- **A request to take the order** reaches the maker `m`, who has it and whom nobody else has asked
for it: the order gets locked, the own orders are refreshed, and with the trade that is created then
two more messages are to come. -/
structure Requested (o : Order) (units : Amount) (m k : ι) (tk : TradeState)
    (msg : ProcessingMessage) : Prop where
  addressed : msg.counterparty = some (P m).account
  locks : ∀ s w o', s.account = (P m).account → s.ownOrders.lookup o.getId = some o' →
    o'.locked = false → { o' with account := some (P m).account, id := some o.getId } = o →
    Ends (cfg m) (E m) (.receive (msg.sentBy (P k).account)) s w fun _ eff _ =>
      eff.next = refreshTasks ++
        [.orderTaken o ⟨o.getId, units.toUInt64⟩ (msg.sentBy (P k).account)]
  refreshes : ∀ s w, ∀ task ∈ refreshTasks, Ends (cfg m) (E m) task s w fun _ _ _ => True
  takes : ∀ s w, s.account = (P m).account → s.Lacks (P k).account (getIdentifier { order := o }) →
    Ends (cfg m) (E m) (.orderTaken o ⟨o.getId, units.toUInt64⟩ (msg.sentBy (P k).account)) s w
      fun _ eff s' => eff.next = [.process (msg.sentBy (P k).account)] ∧
        ∃ tm, s'.Holds tm ∧ Finishes cfg P E F 2 m k tm tk msg

end

/-! ## What a deal needs -/

/-- **Two sides that can trade**: `m` has the order, and `k` takes it. -/
structure Bargain (cfg : ι → Config) (P : ι → Party W) (E : ι → Env Call Answer W) (F : Format)
    (C : NodeState) (o : Order) (units : Amount) (m k : ι) : Prop where
  maker : Cooperates F C (P m) (E m)
  taker : Cooperates F C (P k) (E k)
  differ : (P m).account ≠ (P k).account
  disjoint : ∀ out, (P m).mine out → ¬ (P k).mine out
  owner : o.account = some (P m).account
  check : checkOrder o units = true
  positive : 0 < units
  total : o.getPriceSat.toNat * units.toUInt64.toNat < 2 ^ 63
  /-- Both sides run the same game. -/
  game : (dealChecker o units (P m).account (P k).account).getNameUpdateValue (cfg m) =
    (dealChecker o units (P m).account (P k).account).getNameUpdateValue (cfg k)
  funds : ∀ total, (dealChecker o units (P m).account (P k).account).getTotalSat = .ok (some total) →
    total.toInt ≤ match o.getType with | .ask => (P k).funds | .bid => (P m).funds
  permits : match o.getType with
    | .ask => Permits C (P m).name (dealChecker o units (P m).account (P k).account) (E k)
    | .bid => Permits C (P k).name (dealChecker o units (P m).account (P k).account) (E m)

section

variable {o : Order} {units : Amount} {m k : ι} {tm tk : TradeState}

/-- The buyer can pay. -/
lemma Bargain.affords (h : Bargain cfg P E F C o units m k)
    (hs : Sides o units (P m).account (P k).account tm tk) :
    (o.getType = .ask → Affords (P k) tk) ∧ (o.getType = .bid → Affords (P m) tm) := by
  obtain ⟨total, htotal, hnonneg⟩ := hs.hasTotal h.positive h.total
  rw [hs.checker.1] at htotal
  have hfunds := h.funds total htotal
  constructor
  · intro htype
    rw [htype] at hfunds
    exact ⟨total, by rw [hs.checker.2]; exact htotal, hnonneg, hfunds⟩
  · intro htype
    rw [htype] at hfunds
    exact ⟨total, by rw [hs.checker.1]; exact htotal, hnonneg, hfunds⟩

/-- A message is processed as `HasReply` says. -/
lemma onDelivery_of_hasReply {i j : ι} {t : TradeState} {msg : ProcessingMessage}
    (hE : (E i).Answers) (hparty : t.counterparty = (P j).account)
    (hid : msg.identifier = some (getIdentifier t))
    {Q : Conversation → Option ProcessingMessage → TradeState → Prop}
    (hQ : ∀ w, (getOrderType (P i).account t = .ask → t.sellerData = none → (P i).free w) →
      (hasReply (cfg i) (P i).account).wpIn (E i) w
        (handleMessage (P i).account (msg.sentBy (P j).account) t) fun _ tr r t' =>
          ∃ reply, r = .ok reply ∧ Q tr reply t') :
    OnDelivery cfg P E i j t msg Q := by
  intro s w hacc hholds hfree
  have hm : tradeMatches (msg.sentBy (P j).account) t = true := by
    rw [tradeMatches_iff, ProcessingMessage.sentBy, hid, hparty]
    exact ⟨rfl, rfl⟩
  have hQ' : (hasReply (cfg i) s.account).wpIn (E i) w
      (handleMessage s.account (msg.sentBy (P j).account) t) fun _ tr r t' =>
        ∃ reply, r = .ok reply ∧ Q tr reply t' := by
    rw [hacc]
    exact hQ w hfree
  refine ends_of_wpIn hE (Act.wpIn_mono (process_runs hholds hm hQ') ?_)
  rintro w' tr r s' ⟨reply, t', rfl, hholds', hq⟩
  exact ⟨_, rfl, rfl, t', hholds', hq⟩

/-! ### The maker sells -/

/-- The buyer's PSBT reaches the maker. -/
lemma Bargain.finishes_sale (h : Bargain cfg P E F C o units m k) (hask : o.getType = .ask)
    (hs : Sides o units (P m).account (P k).account tm tk)
    {nameAddress chiAddress p q : String} {msg : ProcessingMessage} (hinit : tm.getState = .initiated)
    (hours : tm.ourPsbt = none) (htheirs : tm.theirPsbt = none)
    (hsd : tm.sellerData = some ⟨some nameAddress, some chiAddress, some (P m).name⟩)
    (hpending : tk.getState = .pending) (hours' : tk.ourPsbt = some q)
    (hbought : Bought F (cfg k) (dealChecker o units (P m).account (P k).account)
      (tm.sellerData.getD {}) (P k).mine (P m).name p q)
    (hid : msg.identifier = some (getIdentifier tm)) (hnone : msg.sellerData = none)
    (hpsbt : msg.psbt = some q) : Finishes cfg P E F 0 m k tm tk msg := by
  obtain ⟨⟨hmaker, _⟩, htype, _⟩ := hs.roles
  rw [hask] at htype
  have hparty : tm.counterparty = (P k).account := by
    obtain ⟨_, _, hf⟩ := hs.makers
    exact hf.counterparty
  refine onDelivery_of_hasReply h.maker.answers hparty hid fun w _ => ?_
  rw [handleMessage_psbt hinit htheirs (show (msg.sentBy _).sellerData = none from hnone)
    (show (msg.sentBy _).psbt = some q from hpsbt)]
  have hf : Frame tm { tm with theirPsbt := some q } := ⟨rfl, rfl, rfl, rfl, rfl⟩
  have hoffer : Offer (cfg m) (buildTradeChecker (P m).account { tm with theirPsbt := some q })
      (tm.sellerData.getD {}) (P k).mine (P m).name (F.decode q) := by
    rw [show buildTradeChecker (P m).account { tm with theirPsbt := some q }
      = dealChecker o units (P m).account (P k).account from hs.checker.1]
    exact (hbought.offer.congr hbought.signs.tx).config h.game
  obtain ⟨coins, _, hcoins, hvin⟩ := hoffer.coins
  -- the buyer has signed for its coins, and the name is the only other input
  refine Act.wpIn_mono (hasReply_sells h.maker hinit htype hours hsd rfl hbought.psbt.2 hoffer
    (fun out hk hm => h.disjoint out hm hk) (hbought.signs.signedBy hbought.unsigned) ?_) ?_
  · refine iff_of_true hmaker fun out hout => ?_
    rcases List.mem_append.mp (hvin.mem_iff.mp hout) with hout | hout
    · exact Or.inl (Or.inr (hcoins out hout))
    · rw [List.mem_singleton.mp hout]
      exact Or.inr h.maker.ourName.2
  · rintro w' tr r t' ⟨ours, _, hsigns, rfl, hend⟩
    rw [show getRole (P m).account { tm with theirPsbt := some q } = .maker from hmaker] at hend
    obtain ⟨rfl, hsent⟩ := hend
    exact ⟨none, rfl, rfl, ⟨rfl, hpending⟩, ours, q, rfl, hours', hsigns.tx, hsent⟩

/-- The maker's addresses reach the buyer. -/
lemma Bargain.finishes_purchase (h : Bargain cfg P E F C o units m k) (hask : o.getType = .ask)
    (hs : Sides o units (P m).account (P k).account tm tk)
    {nameAddress chiAddress : String} {msg : ProcessingMessage} (hinit : tm.getState = .initiated)
    (hours : tm.ourPsbt = none) (htheirs : tm.theirPsbt = none)
    (hsd : tm.sellerData = some ⟨some nameAddress, some chiAddress, some (P m).name⟩)
    (hinit' : tk.getState = .initiated) (hours' : tk.ourPsbt = none) (hnone : tk.sellerData = none)
    (hne : nameAddress ≠ chiAddress) (hid : msg.identifier = some (getIdentifier tk))
    (hmsg : msg.sellerData = some ⟨some nameAddress, some chiAddress, none⟩)
    (hpsbt : msg.psbt = none) : Finishes cfg P E F 1 k m tk tm msg := by
  obtain ⟨⟨_, htaker⟩, _, htype⟩ := hs.roles
  have hpermits := h.permits
  rw [hask] at htype hpermits
  obtain ⟨_, _, hfk⟩ := hs.takers
  obtain ⟨_, _, hfm⟩ := hs.makers
  refine onDelivery_of_hasReply h.taker.answers hfk.counterparty hid fun w _ => ?_
  rw [handleMessage_addresses hinit' htype hnone hne
    (show (msg.sentBy _).sellerData = _ from hmsg) (show (msg.sentBy _).psbt = none from hpsbt)]
  have hf : Frame tk { tk with sellerData := some ⟨some nameAddress, some chiAddress, none⟩ } :=
    ⟨rfl, rfl, rfl, rfl, rfl⟩
  have hs₁ : Sides o units (P m).account (P k).account tm
      { tk with sellerData := some ⟨some nameAddress, some chiAddress, none⟩ } :=
    ⟨hs.account, hs.differ, hs.makers, _, _, hfk.trans hf⟩
  have hforeign : ¬ (P k).mine (P m).name := h.disjoint _ h.maker.ourName.2
  have hname : (tm.sellerData.getD {}).nameAddress = some nameAddress := by rw [hsd]; rfl
  refine Act.wpIn_mono (hasReply_buys h.taker hinit' htype hours'
    (by rw [hs₁.checker.2]; exact hpermits) ((h.affords hs₁).1 hask) hforeign rfl hname
    (by rw [hsd]; rfl)) ?_
  rintro w' tr r t' ⟨p, q, hbought, hend⟩
  rw [show getRole (P k).account
    { tk with sellerData := some ⟨some nameAddress, some chiAddress, none⟩ } = .taker from htaker] at hend
  obtain ⟨rfl, rfl⟩ := hend
  refine ⟨_, rfl, _, rfl, congrArg some hfk.counterparty, rfl, ?_⟩
  rw [hs₁.checker.2] at hbought
  have hs₂ : Sides o units (P m).account (P k).account tm { tk with
      sellerData := some ⟨some nameAddress, some chiAddress, none⟩
      ourPsbt := some q
      state := some .pending } :=
    ⟨hs.account, hs.differ, hs.makers, _, _, hfk.trans ⟨rfl, rfl, rfl, rfl, rfl⟩⟩
  refine h.finishes_sale hask hs₂ hinit hours htheirs hsd ?_ ?_ hbought ?_ ?_ ?_
  · rfl
  · rfl
  · show some (getIdentifier tk) = some (getIdentifier tm)
    rw [hfk.getIdentifier, hfm.getIdentifier]
    rfl
  · rfl
  · rfl

/-- The request to take the order reaches the maker. -/
lemma Bargain.finishes_ask (h : Bargain cfg P E F C o units m k) (hask : o.getType = .ask)
    (hs : Sides o units (P m).account (P k).account tm tk)
    {msg : ProcessingMessage} (hinit : tm.getState = .initiated) (hours : tm.ourPsbt = none)
    (htheirs : tm.theirPsbt = none) (hnone : tm.sellerData = none)
    (hinit' : tk.getState = .initiated) (hours' : tk.ourPsbt = none) (hnone' : tk.sellerData = none)
    (hid : msg.identifier = some (getIdentifier tm)) (hsd : msg.sellerData = none)
    (hpsbt : msg.psbt = none) : Finishes cfg P E F 2 m k tm tk msg := by
  obtain ⟨_, htype, _⟩ := hs.roles
  rw [hask] at htype
  obtain ⟨_, _, hfk⟩ := hs.takers
  obtain ⟨_, _, hfm⟩ := hs.makers
  refine onDelivery_of_hasReply h.maker.answers hfm.counterparty hid fun w hfree => ?_
  rw [handleMessage_nothing (show (msg.sentBy _).sellerData = none from hsd)
    (show (msg.sentBy _).psbt = none from hpsbt)]
  refine Act.wpIn_mono (hasReply_sendsAddresses h.maker hinit htype hnone (hfree htype hnone)) ?_
  rintro w' tr r t' ⟨nameAddress, chiAddress, hne, rfl, rfl⟩
  refine ⟨_, rfl, _, rfl, congrArg some hfm.counterparty, rfl, ?_⟩
  have hs₁ : Sides o units (P m).account (P k).account { tm with
      sellerData := some ⟨some nameAddress, some chiAddress, some (P m).name⟩ } tk :=
    ⟨hs.account, hs.differ, ⟨_, _, hfm.trans ⟨rfl, rfl, rfl, rfl, rfl⟩⟩, hs.takers⟩
  refine h.finishes_purchase hask hs₁ hinit hours htheirs ?_ hinit' hours' hnone' hne ?_ ?_ ?_
  · rfl
  · show some (getIdentifier tm) = some (getIdentifier tk)
    rw [hfk.getIdentifier, hfm.getIdentifier]
    rfl
  · rfl
  · rfl

/-! ### The maker buys -/

/-- The seller's PSBT reaches the maker, who has signed before. -/
lemma Bargain.finishes_combination (h : Bargain cfg P E F C o units m k) (hbid : o.getType = .bid)
    (hs : Sides o units (P m).account (P k).account tm tk) {sd : SellerData} {p q r : String}
    {msg : ProcessingMessage} (hinit : tm.getState = .initiated) (hours : tm.ourPsbt = some q)
    (htheirs : tm.theirPsbt = none) (hsd : tm.sellerData.isSome)
    (hpending : tk.getState = .pending) (hours' : tk.ourPsbt = some r)
    (hbought : Bought F (cfg m) (dealChecker o units (P m).account (P k).account) sd (P m).mine
      (P k).name p q)
    (hr : F.psbt r) (hsold : Signs (P k).mine (F.decode p) (F.decode r))
    (hid : msg.identifier = some (getIdentifier tm)) (hnone : msg.sellerData = none)
    (hpsbt : msg.psbt = some r) : Finishes cfg P E F 0 m k tm tk msg := by
  obtain ⟨⟨hmaker, _⟩, htype, _⟩ := hs.roles
  rw [hbid] at htype
  obtain ⟨_, _, hfm⟩ := hs.makers
  refine onDelivery_of_hasReply h.maker.answers hfm.counterparty hid fun w _ => ?_
  rw [handleMessage_psbt hinit htheirs (show (msg.sentBy _).sellerData = none from hnone)
    (show (msg.sentBy _).psbt = some r from hpsbt)]
  have htx : (F.decode r).tx = (F.decode q).tx := hsold.tx.trans hbought.signs.tx.symm
  obtain ⟨coins, _, hcoins, hvin⟩ := hbought.offer.coins
  refine Act.wpIn_mono (hasReply_finishes h.maker hinit htype hmaker hsd hours rfl
    ⟨hr, hbought.psbt.2⟩ htx (hsold.signedBy hbought.unsigned) (hbought.signs.signedBy hbought.unsigned) ?_) ?_
  · rw [hbought.signs.tx]
    intro out hout
    rcases List.mem_append.mp (hvin.mem_iff.mp hout) with hout | hout
    · exact Or.inr (Or.inr (hcoins out hout))
    · rw [List.mem_singleton.mp hout]
      exact Or.inl (Or.inr h.taker.ourName.2)
  · rintro w' tr _ t' ⟨rfl, rfl, hsent⟩
    exact ⟨none, rfl, rfl, ⟨rfl, hpending⟩, q, r, hours, hours', htx.symm, hsent⟩

/-- The unsigned PSBT reaches the seller. -/
lemma Bargain.finishes_signature (h : Bargain cfg P E F C o units m k) (hbid : o.getType = .bid)
    (hs : Sides o units (P m).account (P k).account tm tk) {nameAddress chiAddress p q : String}
    {msg : ProcessingMessage} (hinit : tm.getState = .initiated) (hours : tm.ourPsbt = some q)
    (htheirs : tm.theirPsbt = none) (hsd : tm.sellerData.isSome)
    (hinit' : tk.getState = .initiated) (hours' : tk.ourPsbt = none) (htheirs' : tk.theirPsbt = none)
    (hsd' : tk.sellerData = some ⟨some nameAddress, some chiAddress, some (P k).name⟩)
    (hbought : Bought F (cfg m) (dealChecker o units (P m).account (P k).account)
      (tk.sellerData.getD {}) (P m).mine (P k).name p q)
    (hid : msg.identifier = some (getIdentifier tk)) (hnone : msg.sellerData = none)
    (hpsbt : msg.psbt = some p) : Finishes cfg P E F 1 k m tk tm msg := by
  obtain ⟨⟨_, htaker⟩, _, htype⟩ := hs.roles
  rw [hbid] at htype
  obtain ⟨_, _, hfk⟩ := hs.takers
  obtain ⟨_, _, hfm⟩ := hs.makers
  refine onDelivery_of_hasReply h.taker.answers hfk.counterparty hid fun w _ => ?_
  rw [handleMessage_psbt hinit' htheirs' (show (msg.sentBy _).sellerData = none from hnone)
    (show (msg.sentBy _).psbt = some p from hpsbt)]
  have hoffer : Offer (cfg k) (buildTradeChecker (P k).account { tk with theirPsbt := some p })
      (tk.sellerData.getD {}) (P m).mine (P k).name (F.decode p) := by
    rw [show buildTradeChecker (P k).account { tk with theirPsbt := some p }
      = dealChecker o units (P m).account (P k).account from hs.checker.2]
    exact hbought.offer.config h.game.symm
  obtain ⟨coins, hne, hcoins, hvin⟩ := hoffer.coins
  -- nobody has signed for the buyer's coins yet
  refine Act.wpIn_mono (hasReply_sells h.taker hinit' htype hours' hsd' rfl hbought.psbt.1 hoffer h.disjoint
    hbought.unsigned (iff_of_false ?_ ?_)) ?_
  · rw [show getRole (P k).account { tk with theirPsbt := some p } = .taker from htaker]
    simp
  · intro hall
    obtain ⟨coin, hcoin⟩ := List.exists_mem_of_ne_nil coins hne
    rcases hall coin (hvin.mem_iff.mpr (List.mem_append_left _ hcoin)) with hf | hk
    · exact hf
    · exact h.disjoint coin (hcoins coin hcoin) hk
  · rintro w' tr _ t' ⟨r, hpsbt', hsigns, rfl, hend⟩
    rw [show getRole (P k).account { tk with theirPsbt := some p } = .taker from htaker] at hend
    obtain rfl := hend
    refine ⟨_, rfl, _, rfl, congrArg some hfk.counterparty, rfl, ?_⟩
    have hs₁ : Sides o units (P m).account (P k).account tm { tk with
        theirPsbt := some p
        ourPsbt := some r
        state := some .pending } :=
      ⟨hs.account, hs.differ, hs.makers, _, _, hfk.trans ⟨rfl, rfl, rfl, rfl, rfl⟩⟩
    refine h.finishes_combination hbid hs₁ hinit hours htheirs hsd ?_ ?_ hbought hpsbt' hsigns ?_ ?_ ?_
    · rfl
    · rfl
    · show some (getIdentifier tk) = some (getIdentifier tm)
      rw [hfk.getIdentifier, hfm.getIdentifier]
      rfl
    · rfl
    · rfl

/-- The request to take the order reaches the maker, with the addresses of the seller. -/
lemma Bargain.finishes_bid (h : Bargain cfg P E F C o units m k) (hbid : o.getType = .bid)
    (hs : Sides o units (P m).account (P k).account tm tk)
    {nameAddress chiAddress : String} {msg : ProcessingMessage} (hinit : tm.getState = .initiated)
    (hours : tm.ourPsbt = none) (htheirs : tm.theirPsbt = none) (hnone : tm.sellerData = none)
    (hinit' : tk.getState = .initiated) (hours' : tk.ourPsbt = none) (htheirs' : tk.theirPsbt = none)
    (hsd : tk.sellerData = some ⟨some nameAddress, some chiAddress, some (P k).name⟩)
    (hne : nameAddress ≠ chiAddress) (hid : msg.identifier = some (getIdentifier tm))
    (hmsg : msg.sellerData = some ⟨some nameAddress, some chiAddress, none⟩)
    (hpsbt : msg.psbt = none) : Finishes cfg P E F 2 m k tm tk msg := by
  obtain ⟨⟨hmaker, _⟩, htype, _⟩ := hs.roles
  have hpermits := h.permits
  rw [hbid] at htype hpermits
  obtain ⟨_, _, hfk⟩ := hs.takers
  obtain ⟨_, _, hfm⟩ := hs.makers
  have hparty : tm.counterparty = (P k).account := hfm.counterparty
  refine onDelivery_of_hasReply h.maker.answers hparty hid fun w _ => ?_
  rw [handleMessage_addresses hinit htype hnone hne
    (show (msg.sentBy _).sellerData = _ from hmsg) (show (msg.sentBy _).psbt = none from hpsbt)]
  have hs₁ : Sides o units (P m).account (P k).account
      { tm with sellerData := some ⟨some nameAddress, some chiAddress, none⟩ } tk :=
    ⟨hs.account, hs.differ, ⟨_, _, hfm.trans ⟨rfl, rfl, rfl, rfl, rfl⟩⟩, hs.takers⟩
  have hforeign : ¬ (P m).mine (P k).name := fun hm => h.disjoint _ hm h.taker.ourName.2
  have hname : (tk.sellerData.getD {}).nameAddress = some nameAddress := by rw [hsd]; rfl
  refine Act.wpIn_mono (hasReply_buys h.maker hinit htype hours
    (by rw [hs₁.checker.1]; exact hpermits) ((h.affords hs₁).2 hbid) hforeign rfl hname
    (by rw [hsd]; rfl)) ?_
  rintro w' tr _ t' ⟨p, q, hbought, hend⟩
  rw [show getRole (P m).account
    { tm with sellerData := some ⟨some nameAddress, some chiAddress, none⟩ } = .maker from hmaker] at hend
  obtain ⟨rfl, rfl⟩ := hend
  refine ⟨_, rfl, _, rfl, congrArg some hparty, rfl, ?_⟩
  rw [hs₁.checker.1] at hbought
  have hs₂ : Sides o units (P m).account (P k).account { tm with
      sellerData := some ⟨some nameAddress, some chiAddress, none⟩
      ourPsbt := some q } tk :=
    ⟨hs.account, hs.differ, ⟨_, _, hfm.trans ⟨rfl, rfl, rfl, rfl, rfl⟩⟩, hs.takers⟩
  refine h.finishes_signature hbid hs₂ hinit ?_ htheirs ?_ hinit' hours' htheirs' hsd
    hbought ?_ ?_ ?_
  · rfl
  · rfl
  · show some (getIdentifier tm) = some (getIdentifier tk)
    rw [hfk.getIdentifier, hfm.getIdentifier]
    rfl
  · rfl
  · rfl

/-! ### From the request on -/

/-- The maker's part is the same whoever sells. -/
lemma Bargain.requested (h : Bargain cfg P E F C o units m k) {msg : ProcessingMessage}
    (haddressed : msg.counterparty = some (P m).account)
    (htaking : msg.takingOrder = some ⟨o.getId, units.toUInt64⟩)
    (hfinishes : ∀ now serial, Finishes cfg P E F 2 m k
      (newTrade o units (P k).account now serial) tk msg) :
    Requested cfg P E F o units m k tk msg where
  addressed := haddressed
  locks := by
    intro s w o' hacc hlookup hlocked ho
    refine ends_of_wpIn h.maker.answers (Act.wpIn_mono
      (receive_runs rfl htaking hlookup hlocked) ?_)
    rintro w' tr r s' rfl
    exact ⟨_, rfl, by rw [hacc, ho]⟩
  refreshes := by
    intro s w task htask
    rcases List.mem_pair.mp htask with rfl | rfl
    · refine ends_of_wpIn h.maker.answers (Act.wpIn_mono (refresh_runs h.maker) ?_)
      rintro w' tr r s' rfl
      exact ⟨_, rfl, trivial⟩
    · refine ends_of_wpIn h.maker.answers ?_
      simp [exec]
  takes := by
    intro s w hacc hlacks
    have hown : o.getAccount = s.account := by
      rw [hacc, Order.getAccount, h.owner]
      rfl
    have hother : (P k).account ≠ s.account := by
      rw [hacc]
      exact h.differ.symm
    have hcheck : checkOrder o (units.toUInt64.toInt64) = true := h.check
    refine ends_of_wpIn h.maker.answers (Act.wpIn_mono
      (orderTaken_runs rfl hcheck hown hother hlacks) ?_)
    rintro w' tr r s' ⟨rfl, now, serial, hholds⟩
    exact ⟨_, rfl, rfl, _, hholds, hfinishes now serial⟩

/-- **A deal between two sides that can trade comes about.**  The taker's call returns, and from then
on each message that is delivered is processed and answered, whatever else the two daemons do in
between, until with the third one both trades are `PENDING` with one transaction, and it has been
sent. -/
theorem deal_completes (h : Bargain cfg P E F C o units m k) {s : State} {w : W} (hacc : s.account = (P k).account)
    (hlacks : s.Lacks (P m).account (getIdentifier { order := o }))
    (hfree : o.getType = .bid → (P k).free w) :
    Ends (cfg k) (E k) (.takeOrder o units) s w fun _ eff s' => eff.next = [] ∧
      ∃ msg tk, eff.reply = some msg ∧ s'.Holds tk ∧
        Requested cfg P E F o units m k tk msg := by
  have hparty : o.getAccount = (P m).account := by
    rw [Order.getAccount, h.owner]
    rfl
  have hown : o.getAccount ≠ s.account := by
    rw [hacc, hparty]
    exact h.differ
  have hsides : ∀ {tk : TradeState} {now serial now' serial'},
      Frame (newTrade o units (P m).account now' serial') tk →
      Sides o units (P m).account (P k).account (newTrade o units (P k).account now serial) tk :=
    fun hf => ⟨hparty, h.differ, ⟨_, _, Frame.refl _⟩, _, _, hf⟩
  have htype' : ∀ now serial, getOrderType (P k).account (newTrade o units (P m).account now serial)
      = o.getType.flip :=
    fun now serial => (@hsides _ 0 0 now serial (Frame.refl _)).roles.2.2
  rw [← hparty] at hlacks
  cases htype : o.getType with
  | ask =>
      refine ends_of_wpIn h.taker.answers (Act.wpIn_mono (takeOrder_runs h.check hown hlacks
        (Q := fun _ _ reply t' => reply = none ∧ ∃ now serial, t' = newTrade o units (P m).account now serial)
        fun now w₁ _ => ?_) ?_)
      · rw [hacc, hparty]
        refine Act.wpIn_mono (hasReply_waits ?_ rfl) ?_
        · exact (htype' now _).trans (by rw [htype]; rfl)
        · rintro w' tr r t' ⟨rfl, rfl, rfl⟩
          exact ⟨none, rfl, rfl, _, _, rfl⟩
      · rintro w' tr r s' ⟨w₁, w₂, tr', reply, tk, now, rfl, hholds, _, _, rfl, now', serial', rfl⟩
        refine ⟨_, rfl, rfl, _, _, rfl, hholds, h.requested rfl rfl fun now serial => ?_⟩
        refine h.finishes_ask htype (hsides (Frame.refl _)) rfl rfl rfl rfl rfl rfl rfl ?_ ?_ ?_ <;> rfl
  | bid =>
      refine ends_of_wpIn h.taker.answers (Act.wpIn_mono (takeOrder_runs h.check hown hlacks
        (Q := fun _ _ reply t' => ∃ nameAddress chiAddress now serial, nameAddress ≠ chiAddress ∧
          reply = some { initProcessingMessage (newTrade o units (P m).account now serial) with
            sellerData := some ⟨some nameAddress, some chiAddress, none⟩ } ∧
          t' = { newTrade o units (P m).account now serial with
            sellerData := some ⟨some nameAddress, some chiAddress, some (P k).name⟩ })
        fun now w₁ hclock => ?_) ?_)
      · rw [hacc, hparty]
        have hask : getOrderType (P k).account (newTrade o units (P m).account now (s.created + 1)) = .ask :=
          (htype' now _).trans (by rw [htype]; rfl)
        refine Act.wpIn_mono (hasReply_sendsAddresses h.taker rfl hask rfl
          (h.taker.freeStays _ _ _ (hfree htype) hclock trivial)) ?_
        rintro w' tr r t' ⟨nameAddress, chiAddress, hne, rfl, rfl⟩
        exact ⟨_, rfl, nameAddress, chiAddress, _, _, hne, rfl, rfl⟩
      · rintro w' tr r s' ⟨w₁, w₂, tr', reply, tk, now, rfl, hholds, _, _,
          nameAddress, chiAddress, now', serial', hne, rfl, rfl⟩
        refine ⟨_, rfl, rfl, _, _, rfl, hholds, h.requested rfl rfl fun now serial => ?_⟩
        have hf : Frame (newTrade o units (P m).account now' serial') { newTrade o units (P m).account now'
            serial' with
            sellerData := some ⟨some nameAddress, some chiAddress, some (P k).name⟩ } :=
          ⟨rfl, rfl, rfl, rfl, rfl⟩
        refine h.finishes_bid htype (hsides hf) rfl rfl rfl rfl rfl rfl rfl ?_ hne ?_ ?_ ?_ <;> rfl

end

/-! ### Two model wallets -/

/-- The sides, the taker being `true`. -/
def modelSides (maker taker : String) (i : Bool) : Party ModelWorld :=
  modelParty (if i then taker else maker) (2 ^ 63)

/-- The wallets, rich enough for everything. -/
def modelEnvs (maker taker : String) (i : Bool) : Env Call Answer ModelWorld :=
  modelEnv (if i then taker else maker) (2 ^ 63)

/-- **Two model wallets can trade** whatever `CheckOrder` accepts. -/
lemma model_bargain {c : Config} {o : Order} {units : Amount} {maker taker : String}
    (hdiffer : maker ≠ taker) (howner : o.account = some maker) (hcheck : checkOrder o units = true)
    (hpositive : 0 < units) (htotal : o.getPriceSat.toNat * units.toUInt64.toNat < 2 ^ 63) :
    Bargain (fun _ => c) (modelSides maker taker) (modelEnvs maker taker) modelFormat modelNode o
      units false true where
  maker := modelWallet_cooperates _ _
  taker := modelWallet_cooperates _ _
  differ := hdiffer
  disjoint := by
    intro out hm hk
    have heq : "p/" ++ maker = "p/" ++ taker :=
      (show out.hash = "p/" ++ maker from hm).symm.trans hk
    exact hdiffer ((String.append_right_inj _).mp heq)
  owner := howner
  check := hcheck
  positive := hpositive
  total := htotal
  game := rfl
  funds := by
    intro total _
    have hlt := Int64.toInt_lt total
    cases o.getType
    · exact le_of_lt hlt
    · exact le_of_lt hlt
  permits := by
    have hm := modelWallet_permits maker (2 ^ 63) (dealChecker o units maker taker)
    have hk := modelWallet_permits taker (2 ^ 63) (dealChecker o units maker taker)
    simp only [dealChecker] at hm hk ⊢
    cases htype : o.getType with
    | ask =>
        rw [htype] at hk
        exact hk
    | bid =>
        rw [htype] at hm
        exact hm

/-- An order of ten units for five satoshis each. -/
def modelOrder (type : OrderType) : Order where
  account := some "maker"
  id := some 1
  asset := some "gold"
  maxUnits := 10
  type := some type
  priceSat := some 5

/-- The taker asks for three units of it, and the deal comes about. -/
def ModelDeal (type : OrderType) : Prop :=
  Ends sampleConfig (modelEnvs "maker" "taker" true) (.takeOrder (modelOrder type) 3)
    { account := "taker" } {} fun _ eff s' => eff.next = [] ∧
      ∃ msg tk, eff.reply = some msg ∧ s'.Holds tk ∧
        Requested (fun _ => sampleConfig) (modelSides "maker" "taker") (modelEnvs "maker" "taker")
          modelFormat (modelOrder type) 3 false true tk msg

/-- It does so whoever sells. -/
theorem deal_completes_model : ModelDeal .ask ∧ ModelDeal .bid := by
  constructor
  · exact deal_completes (model_bargain (by decide) rfl (by decide) (by decide) (by decide)) rfl
      (by simp [State.Lacks]) fun _ => rfl
  · exact deal_completes (model_bargain (by decide) rfl (by decide) (by decide) (by decide)) rfl
      (by simp [State.Lacks]) fun _ => rfl

end Democrit
