import Democrit.Locks.Cancel
import Democrit.Safety.Correspondence
import Mathlib.Order.CompletePartialOrder

/-!
# The two sides of a deal

Several daemons on one network.  Each has its own environment, which is its wallet and its view of
the node, and they know of each other only by messages: a message that comes from one of them is one
that it has sent, at any time before, and everybody else may send anything (`Delivers`).  As what
was sent stays in the sender's log, a message may be delivered late, out of order, many times or
never.

**If the maker broadcasts, the taker has agreed to the same deal** (`agreement`): earlier in the run,
the taker's trade turned `PENDING` with the same transaction, and the two trades agree on who sells
what to whom, although each side has its own copy of the order and only its id and the number of
units were sent.

The argument goes through the transaction.  It has a single name output, so both sides mean the same
move; that output goes to an address that the seller's wallet has given out once, so the seller
data that the buyer used are those of the seller's trade and not those of an abandoned one.
-/

namespace Democrit

open Interaction

variable {ι W : Type} {cfg : ι → Config} {account : ι → String} {E : ι → Env Call Answer W}
  {decode : String → Psbt} {rawTx : String → Tx} {owns : ι → Set String}

/-! ## The network -/

/-- `j` has sent the message to `i`.  On its way, the name of the receiver is replaced by the name of
the sender. -/
def Sent (account : ι → String) (x : ι → Sys × W) (j i : ι) (msg : ProcessingMessage) : Prop :=
  ∃ rec ∈ (x j).1.log, ∃ reply ∈ rec.reply, reply.counterparty = some (account i) ∧
    msg = { reply with counterparty := some (account j) }

/-- A message from one of the daemons is one that it has sent. -/
def Delivers (account : ι → String) (x : ι → Sys × W) (l : ι × Label) : Prop :=
  ∀ msg, l.2 = .start (.processMessage msg) → ∀ j, msg.counterparty.getD "" = account j →
    Sent account x j l.1 msg

/-- The daemons on their network. -/
def network (cfg : ι → Config) (E : ι → Env Call Answer W) (account : ι → String) :
    Transition.System (ι → Sys × W) (ι × Label) :=
  (Transition.System.product fun i => system (cfg i) (E i) (account i)).restrict (Delivers account)

/-- What one daemon does on the network is a run of it. -/
lemma reachable_daemon {x : ι → Sys × W} (h : (network cfg E account).Reachable x) (i : ι) :
    (system (cfg i) (E i) (account i)).Reachable (x i) :=
  h.of_restrict.component i

/-- The calls that have come in. -/
def Sys.calls (σ : Sys) : List Op := σ.threads.map Thread.op ++ σ.log.map Record.op

lemma calls_of_step {c : Config} {σ σ' : Sys} {l : Label} (hs : Sys.Step c σ l σ') {op : Op}
    (hop : op ∈ σ'.calls) : op ∈ σ.calls ∨ l = .start op := by
  cases hs with
  | start op' _ =>
      simp only [Sys.calls, List.map_append, List.map_cons, List.map_nil, List.mem_append,
        List.mem_singleton] at hop ⊢
      rcases hop with (hop | rfl) | hop
      · exact Or.inl (Or.inl hop)
      · exact Or.inr rfl
      · exact Or.inl (Or.inr hop)
  | run _ hth _ =>
      left
      simp only [Sys.calls, hth, Sys.advance, List.map_append, List.map_cons, List.map_nil,
        List.mem_append, List.mem_cons, List.not_mem_nil, or_false] at hop ⊢
      tauto

/-- What was sent stays sent. -/
lemma Sent.mono {x x' : ι → Sys × W} (hlog : ∀ k, (x k).1.log ⊆ (x' k).1.log) {j i : ι}
    {msg : ProcessingMessage} (h : Sent account x j i msg) : Sent account x' j i msg := by
  obtain ⟨rec, hrec, hrest⟩ := h
  exact ⟨rec, hlog j hrec, hrest⟩

lemma log_of_network {x x' : ι → Sys × W} {l : ι × Label} (hs : (network cfg E account).step x l x')
    (k : ι) : (x k).1.log ⊆ (x' k).1.log := by
  obtain ⟨⟨⟨hs, _⟩, hrest⟩, _⟩ := hs
  by_cases hk : k = l.1
  · subst hk
    rw [log_of_step hs]
    exact List.subset_append_left _ _
  · rw [hrest k hk]
    exact List.Subset.refl _

/-- **Every message that is from a daemon was sent by it.** -/
lemma reachable_sent {x : ι → Sys × W} (h : (network cfg E account).Reachable x) :
    ∀ i msg, .processMessage msg ∈ (x i).1.calls → ∀ j, msg.counterparty.getD "" = account j →
      Sent account x j i msg := by
  refine Transition.System.Reachable.invariant (fun x => ∀ i msg,
    .processMessage msg ∈ (x i).1.calls → ∀ j, msg.counterparty.getD "" = account j →
      Sent account x j i msg) ?_ ?_ h
  · intro x hx i msg hmsg
    have hi : (x i).1 = Sys.start (account i) := hx i
    rw [hi] at hmsg
    simp [Sys.start, Sys.calls] at hmsg
  · intro x l x' _ ih hs i msg hmsg j hj
    refine Sent.mono (log_of_network hs) ?_
    obtain ⟨⟨⟨hstep, _⟩, hrest⟩, hdel⟩ := hs
    by_cases hi : i = l.1
    · subst hi
      rcases calls_of_step hstep hmsg with hold | hnew
      · exact ih l.1 msg hold j hj
      · exact hdel msg hnew j hj
    · rw [hrest i hi] at hmsg
      exact ih i msg hmsg j hj

/-- What a trade has heard from another daemon, that daemon has sent. -/
lemma sent_of_heard {x : ι → Sys × W} (h : (network cfg E account).Reachable x) {i j : ι}
    {t : TradeState} {msg : ProcessingMessage} (hheard : Heard (x i).1.log t msg)
    (hparty : t.counterparty = account j) :
    ∃ rec ∈ (x j).1.log, ∃ reply, rec.reply = some reply ∧ reply.counterparty = some (account i) ∧
      reply.identifier.getD "" = getIdentifier t ∧ reply.psbt = msg.psbt ∧
      reply.sellerData = msg.sellerData := by
  obtain ⟨hmatch, rec, hrec, hop⟩ := hheard
  simp only [tradeMatches, Bool.and_eq_true, decide_eq_true_eq] at hmatch
  have hcall : .processMessage msg ∈ (x i).1.calls := by
    rw [← hop]
    exact List.mem_append_right _ (List.mem_map_of_mem hrec)
  obtain ⟨rec', hrec', reply, hreply, hto, rfl⟩ :=
    reachable_sent h i msg hcall j (hmatch.1.trans hparty)
  exact ⟨rec', hrec', reply, hreply, hto, hmatch.2, rfl, rfl⟩

/-! ## What is assumed -/

/-- An output that the wallet with these addresses makes for its change. -/
def ChangeTo (own : Set String) (out : TxOut) : Prop :=
  out.scriptPubKey.nameOp = .null ∧
    ∀ addr, matchesAddress out.scriptPubKey addr = true → addr ∈ own

/-- The daemons' wallets.  `owns` are the addresses that belong to each of them. -/
structure Wallets (decode : String → Psbt) (rawTx : String → Tx) (E : ι → Env Call Answer W)
    (owns : ι → Set String) : Prop where
  decodes : ∀ i, Decodes decode (E i)
  builds : ∀ i, BuildsPsbts decode rawTx (ChangeTo (owns i)) (E i)
  fresh : ∀ i, ∃ used, GivesFresh used (E i)
  gives : ∀ i w addr w', E i w (Ev.returned .getnewaddress addr) w' → addr ∈ owns i
  disjoint : ∀ i j, i ≠ j → Disjoint (owns i) (owns j)
  /-- An output goes to at most one address. -/
  single : ∀ p, ∀ out ∈ (decode p).tx.vout, ∀ addr addr',
    matchesAddress out.scriptPubKey addr = true → matchesAddress out.scriptPubKey addr' = true →
      addr = addr'

/-- The value of a name tells which assets it transfers. -/
def TellsSale (cfg : ι → Config) : Prop :=
  ∀ i j seller buyer asset asset' units units',
    saleValue (cfg i) seller buyer asset units = saleValue (cfg j) seller buyer asset' units' →
      asset = asset' ∧ units = units'

/-! ## What the transaction tells -/

/-- **A purchase updates a single name.** -/
lemma BuyerTx.named {c : Config} {own : Set String} {buyer : String} {t : TradeState}
    {talk : Conversation} {nameIn : OutPoint} {unsignedPsbt ours : String}
    (h : BuyerTx c buyer decode (ChangeTo own) t talk nameIn unsignedPsbt ours) {out : TxOut}
    (hout : out ∈ (decode ours).tx.vout) {addr name value : String}
    (hup : UpdatesName addr name value out) :
    name = "p/" ++ t.counterparty ∧
      value = saleValue c t.counterparty buyer t.order.getAsset t.units ∧
      ∃ nameAddress, (t.sellerData.getD {}).nameAddress = some nameAddress ∧
        matchesAddress out.scriptPubKey nameAddress = true := by
  obtain ⟨nameAddress, _, _, _, pay, nameOut, rest, hname, _, _, _, hvout, _, hpay, hnamed, hrest⟩ :=
    h.shape
  obtain ⟨op, hop, _, hopName, hopValue, _⟩ := hup
  -- the payment and the change have nothing to do with names
  have hnull : out.scriptPubKey.nameOp ≠ .null := by
    rw [hop]
    simp
  obtain rfl : out = nameOut := by
    rcases List.mem_cons.mp (hvout.mem_iff.mp hout) with rfl | hout
    · exact absurd hpay.1 hnull
    · rcases List.mem_cons.mp hout with rfl | hout
      · rfl
      · exact absurd (hrest out hout).1 hnull
  obtain ⟨op', hop', _, hopName', hopValue', hmatch⟩ := hnamed
  obtain rfl : op = op' := by
    rw [hop] at hop'
    injection hop'
  refine ⟨?_, ?_, nameAddress, hname, hmatch⟩
  · rw [hopName] at hopName'
    exact Option.some.inj hopName'
  · rw [hopValue] at hopValue'
    exact Option.some.inj hopValue'

/-- **A purchase pays the seller once.** -/
lemma BuyerTx.payment {c : Config} {own : Set String} {buyer : String} {t : TradeState}
    {talk : Conversation} {nameIn : OutPoint} {unsignedPsbt ours nameAddress chiAddress : String}
    (h : BuyerTx c buyer decode (ChangeTo own) t talk nameIn unsignedPsbt ours)
    (hsingle : ∀ out ∈ (decode ours).tx.vout, ∀ addr addr',
      matchesAddress out.scriptPubKey addr = true → matchesAddress out.scriptPubKey addr' = true →
        addr = addr')
    (hsd : t.sellerData = some ⟨some nameAddress, some chiAddress, none⟩)
    (hne : nameAddress ≠ chiAddress) (hown : chiAddress ∉ own) :
    ∃ (pay : TxOut) (total : Amount),
      ((decode ours).tx.vout.filter fun out => matchesAddress out.scriptPubKey chiAddress) = [pay] ∧
      PaysExactly chiAddress total pay ∧
      total.toInt = (t.order.getPriceSat.toNat * t.units.toNat : ℕ) := by
  obtain ⟨na, ca, _, total, pay, nameOut, rest, hna, hca, _, _, hvout, htotal, hpay, hnamed, hrest⟩ :=
    h.shape
  rw [hsd] at hna hca
  obtain rfl : nameAddress = na := Option.some.inj hna
  obtain rfl : chiAddress = ca := Option.some.inj hca
  refine ⟨pay, total, List.perm_singleton.mp ((hvout.filter _).trans ?_), hpay, htotal⟩
  have hname : matchesAddress nameOut.scriptPubKey chiAddress ≠ true := by
    intro hm
    obtain ⟨_, _, _, _, _, hm'⟩ := hnamed
    exact hne (hsingle nameOut (hvout.mem_iff.mpr (by simp)) _ _ hm' hm)
  have hchange : (rest.filter fun out => matchesAddress out.scriptPubKey chiAddress) = [] := by
    rw [List.filter_eq_nil_iff]
    intro out hout hm
    exact hown ((hrest out hout).2 chiAddress hm)
  have hmatch : matchesAddress pay.scriptPubKey chiAddress = true := hpay.2.1
  rw [List.filter_cons, if_pos hmatch, List.filter_cons, if_neg hname, hchange]

/-- The two sides of a deal: `b` is the purchase, `s` is the sale, and `tx` is what was signed.

Price and units are the exact numbers of the two orders.  There is one output to the address that
the seller asked to be paid at, and it has exactly what the buyer has agreed to pay. -/
structure Deal (buyer seller : String) (b s : TradeState) (tx : Tx) : Prop where
  buys : getOrderType buyer b = .bid
  sells : getOrderType seller s = .ask
  toBuyer : s.counterparty = buyer
  fromSeller : b.counterparty = seller
  asset : b.order.getAsset = s.order.getAsset
  units : b.units = s.units
  paid : ∃ (chiAddress : String) (pay : TxOut) (total : Amount),
    (s.sellerData.getD {}).chiAddress = some chiAddress ∧
    (tx.vout.filter fun out => matchesAddress out.scriptPubKey chiAddress) = [pay] ∧
    PaysExactly chiAddress total pay ∧
    total.toInt = (b.order.getPriceSat.toNat * b.units.toNat : ℕ)
  price : s.order.getPriceSat.toNat * s.units.toNat ≤ b.order.getPriceSat.toNat * b.units.toNat

/-! ## Where the data come from -/

/-- The addresses that a daemon was given are its own. -/
lemma Wallets.owned (hw : Wallets decode rawTx E owns) {x : ι → Sys × W}
    (h : (network cfg E account).Reachable x) {i : ι} {rec : Record} (hrec : rec ∈ (x i).1.log)
    {addr : String} (haddr : addr ∈ addresses rec.talk) : addr ∈ owns i := by
  obtain ⟨_, _, ⟨w, w', hp⟩, _⟩ := past_of_record (reachable_daemon h i) hrec
  obtain ⟨ev, hev, hsome⟩ := List.mem_filterMap.mp haddr
  obtain ⟨w₁, w₁', he⟩ := Env.event_of_path hp hev
  rw [address?_some hsome] at he
  exact hw.gives i w₁ addr w₁' he

/-- **The other side's PSBT** is one that it has sent for a trade with the same identifier. -/
lemma psbt_origin (hw : Wallets decode rawTx E owns) {x : ι → Sys × W}
    (h : (network cfg E account).Reachable x) {i j : ι} {t : TradeState}
    (ht : Past (cfg i) (E i) (account i) (x i) t) (hparty : t.counterparty = account j) {p : String}
    (hp : t.theirPsbt = some p) :
    ∃ rec ∈ (x j).1.log, ∃ msg t₀ t', rec.Processes msg t₀ t' ∧
      Past (cfg j) (E j) (account j) (x j) t' ∧ t'.counterparty = account i ∧
      getIdentifier t' = getIdentifier t ∧ t₀.getState = .initiated ∧
      (getRole (account j) t' = .taker ∧ t'.getState = .pending ∧ t'.ourPsbt = some p ∨
        getRole (account j) t' = .maker ∧ getOrderType (account j) t' = .bid ∧
          ∃ ours, t'.ourPsbt = some ours ∧ (decode ours).tx = (decode p).tx) := by
  obtain ⟨msg, hheard, hmsg⟩ := ht.heard.psbt p hp
  obtain ⟨rec, hrec, reply, hreply, hto, hid, hpsbt, _⟩ := sent_of_heard h hheard hparty
  obtain ⟨msg', t₀, t', hproc, hpast, habout, hinit, hcase⟩ :=
    sent_psbt (hw.decodes j) (hw.builds j) (reachable_daemon h j) hrec hreply (hpsbt.trans hmsg)
  refine ⟨rec, hrec, msg', t₀, t', hproc, hpast, ?_, ?_, hinit, hcase⟩
  · exact Option.some.inj (habout.counterparty.symm.trans hto)
  · rw [habout.identifier] at hid
    exact hid

/-- **The seller data of a purchase** are two addresses that the seller's wallet has given out one
right after the other. -/
lemma sellerData_origin {x : ι → Sys × W} (h : (network cfg E account).Reachable x) {i j : ι}
    {b : TradeState} (hb : Past (cfg i) (E i) (account i) (x i) b)
    (hbid : getOrderType (account i) b = .bid) (hparty : b.counterparty = account j) {sd : SellerData}
    (hsd : b.sellerData = some sd) :
    ∃ nameAddress chiAddress, sd = ⟨some nameAddress, some chiAddress, none⟩ ∧
      ∃ rec ∈ (x j).1.log, [nameAddress, chiAddress] <:+ addresses rec.talk := by
  obtain ⟨msg, hheard, hmsg⟩ := hb.heard.sellerData hbid sd hsd
  obtain ⟨rec, hrec, reply, hreply, _, _, _, hdata⟩ := sent_of_heard h hheard hparty
  obtain ⟨s, hs, _, hask, nameAddress, chiAddress, out, rfl, hsd'⟩ :=
    sent_sellerData (reachable_daemon h j) hrec hreply (hdata.trans hmsg)
  obtain ⟨na, ca, hna, hca, hgiven⟩ := givesRule.past (fun _ _ _ hsub hg => hg.mono hsub) hs hask _ hsd'
  obtain rfl := Option.some.inj hna
  obtain rfl := Option.some.inj hca
  exact ⟨nameAddress, chiAddress, rfl, hgiven⟩

/-- What was built by a buyer. -/
lemma Wallets.built (hw : Wallets decode rawTx E owns) {i : ι} {y : Sys × W} {b : TradeState}
    (hb : Past (cfg i) (E i) (account i) y b) (hbid : getOrderType (account i) b = .bid) {p : String}
    (hp : b.ourPsbt = some p) :
    BuyerBuilt (cfg i) (account i) decode (ChangeTo (owns i)) y.1.log b p :=
  (buyerRule (hw.decodes i) (hw.builds i)).past
    (fun _ _ _ hsub hinv hbid ours hours => (hinv hbid ours hours).mono hsub) hb hbid p hp

/-- What was signed by a seller. -/
lemma Wallets.sold (hw : Wallets decode rawTx E owns) {i : ι} {y : Sys × W} {s : TradeState}
    (hs : Past (cfg i) (E i) (account i) y s) (hask : getOrderType (account i) s = .ask) {q : String}
    (hq : s.ourPsbt = some q) : SellerSafe (cfg i) (account i) decode s q :=
  (sellerRule (hw.decodes i)).past (fun _ _ _ _ hinv => hinv) hs hask q hq

/-- **One transaction, one deal.**  If a purchase and a sale of two daemons with each other were
signed with the same transaction, they are the two sides of a deal. -/
theorem deal_of_tx (hgame : TellsSale cfg) (hw : Wallets decode rawTx E owns) {x : ι → Sys × W}
    (h : (network cfg E account).Reachable x) {i j : ι} (hij : i ≠ j) {b s : TradeState}
    (hb : Past (cfg i) (E i) (account i) (x i) b) (hs : Past (cfg j) (E j) (account j) (x j) s)
    (hbid : getOrderType (account i) b = .bid) (hask : getOrderType (account j) s = .ask)
    (hseller : b.counterparty = account j) (hbuyer : s.counterparty = account i) {p q : String}
    (hp : b.ourPsbt = some p) (hq : s.ourPsbt = some q) (htx : (decode p).tx = (decode q).tx) :
    Deal (account i) (account j) b s (decode p).tx := by
  have hbuilt := hw.built hb hbid hp
  obtain ⟨_, _, _, _, _, _, _, hbtx⟩ := hbuilt.built
  obtain ⟨nameAddress, chiAddress, nameOutput, theirs, hsd, _, _, hpaid, ⟨out, hout, hup⟩, _⟩ :=
    (hw.sold hs hask hq).stored
  rw [← htx] at hpaid hout
  -- the name output of the transaction is the one that both mean
  obtain ⟨_, hvalue, nameAddress', hname', hmatch'⟩ := hbtx.named hout hup
  rw [hseller, hbuyer] at hvalue
  obtain ⟨hasset, hunits⟩ := hgame _ _ _ _ _ _ _ _ hvalue
  have hmatch : matchesAddress out.scriptPubKey nameAddress = true := by
    obtain ⟨_, _, _, _, _, hm⟩ := hup
    exact hm
  obtain rfl := hw.single p out hout _ _ hmatch hmatch'
  -- it goes to an address that was given out once, together with the one for the payment
  obtain ⟨sd, hsd'⟩ := Option.isSome_iff_exists.mp hbuilt.stored
  obtain ⟨na, ca, rfl, rec, hrec, hgiven⟩ := sellerData_origin h hb hbid hseller hsd'
  rw [hsd'] at hname'
  obtain rfl : na = nameAddress := Option.some.inj hname'
  obtain ⟨na', ca', hna', hca', rec', hrec', hgiven'⟩ :=
    givesRule.past (fun _ _ _ hsub hg => hg.mono hsub) hs hask _ hsd
  obtain rfl := Option.some.inj hna'
  obtain rfl := Option.some.inj hca'
  obtain ⟨used, hfresh⟩ := hw.fresh j
  have hnodup := reachable_givenAddresses hfresh (reachable_daemon h j)
  obtain rfl : ca = chiAddress := chiAddress_of_nameAddress hnodup hrec hrec' hgiven hgiven'
  have hne : na ≠ ca := by
    have hone := (List.nodup_flatMap.mp hnodup).1 rec hrec
    have := hone.sublist hgiven.sublist
    simpa using this
  have hforeign : ca ∉ owns i := by
    intro hmine
    exact Set.disjoint_left.mp (hw.disjoint i j hij) hmine (hw.owned h hrec (hgiven.subset (by simp)))
  obtain ⟨pay, total, hpay, hexact, htotal⟩ := hbtx.payment (hw.single p) hsd' hne hforeign
  refine ⟨hbid, hask, hbuyer, hseller, hasset.symm, hunits.symm,
    ⟨ca, pay, total, by rw [hsd]; rfl, hpay, hexact, htotal⟩, ?_⟩
  -- the output that the seller has found is the payment
  rcases hpaid with hzero | ⟨found, hfound, _, hm, payment, hvalue, hle⟩
  · rw [hzero]
    exact Nat.zero_le _
  · have hmem : found ∈ [pay] := by
      rw [← hpay]
      exact List.mem_filter.mpr ⟨hfound, hm⟩
    obtain rfl := List.mem_singleton.mp hmem
    obtain rfl : total = payment := Option.some.inj (hexact.2.2.symm.trans hvalue)
    rw [htotal] at hle
    exact_mod_cast hle

/-! ## Who buys and who sells -/

lemma xayaName_injective {a b : String} (h : "p/" ++ a = "p/" ++ b) : a = b := by
  have := congrArg String.toList h
  exact String.toList_inj.mp (by simpa using this)

lemma order_of_maker {a : String} {t : TradeState} (h : getRole a t = .maker) :
    t.order.getAccount = a := by
  rw [getRole] at h
  split_ifs at h with heq
  exact heq

lemma order_of_taker {a : String} {t : TradeState} (h : getRole a t = .taker) :
    t.order.getAccount ≠ a := by
  rw [getRole] at h
  split_ifs at h with heq
  exact heq

/-- The transaction of a purchase does not update any other name than the seller's. -/
lemma Wallets.name_of_purchase (hw : Wallets decode rawTx E owns) {i : ι} {y : Sys × W}
    {b : TradeState} (hb : Past (cfg i) (E i) (account i) y b)
    (hbid : getOrderType (account i) b = .bid) {p : String} (hp : b.ourPsbt = some p) {out : TxOut}
    (hout : out ∈ (decode p).tx.vout) {addr a value : String}
    (hup : UpdatesName addr ("p/" ++ a) value out) : a = b.counterparty := by
  obtain ⟨_, _, _, _, _, _, _, hbtx⟩ := (hw.built hb hbid hp).built
  exact xayaName_injective (hbtx.named hout hup).1

/-- Two daemons that have signed the same transaction for trades with each other do not both buy. -/
lemma not_both_buy (hw : Wallets decode rawTx E owns) {i j : ι} (hij : account i ≠ account j)
    {y z : Sys × W} {b b' : TradeState} (hb : Past (cfg i) (E i) (account i) y b)
    (hb' : Past (cfg j) (E j) (account j) z b') (hparty : b.counterparty = account j)
    (hparty' : b'.counterparty = account i) (hbid : getOrderType (account i) b = .bid)
    (hbid' : getOrderType (account j) b' = .bid) {p p' : String} (hp : b.ourPsbt = some p)
    (hp' : b'.ourPsbt = some p') (htx : (decode p').tx = (decode p).tx) : False := by
  obtain ⟨_, _, _, _, _, _, _, hbtx⟩ := (hw.built hb' hbid' hp').built
  obtain ⟨_, _, _, _, _, nameOut, _, _, _, _, _, hvout, _, _, hnamed, _⟩ := hbtx.shape
  have hout : nameOut ∈ (decode p).tx.vout := by
    rw [← htx]
    exact hvout.mem_iff.mpr (by simp)
  rw [hparty'] at hnamed
  exact hij ((hw.name_of_purchase hb hbid hp hout hnamed).trans hparty)

/-- Nor do they both sell: somebody has built the transaction. -/
lemma not_both_sell (haccount : Function.Injective account) (hw : Wallets decode rawTx E owns)
    {x : ι → Sys × W} (h : (network cfg E account).Reachable x) {m j : ι} (hmj : m ≠ j)
    {t t' : TradeState} (ht : Past (cfg m) (E m) (account m) (x m) t)
    (ht' : Past (cfg j) (E j) (account j) (x j) t') (hparty' : t'.counterparty = account m)
    (horder : t'.order.getAccount = account m) (hask : getOrderType (account m) t = .ask)
    (hask' : getOrderType (account j) t' = .ask) {p p' : String} (hp : t.ourPsbt = some p)
    (hp' : t'.ourPsbt = some p') (htx : (decode p').tx = (decode p).tx) : False := by
  obtain ⟨_, _, _, _, _, _, _, _, ⟨out, hout, hup⟩, _⟩ := (hw.sold ht hask hp).stored
  obtain ⟨_, _, _, theirs, _, htheirs, htx', _⟩ := (hw.sold ht' hask' hp').stored
  obtain ⟨_, _, _, _, b, _, hb, hparty, hid, _, hcase⟩ := psbt_origin hw h ht' hparty' htheirs
  rcases hcase with ⟨htaker, _⟩ | ⟨_, hbid, ours, hours, heq⟩
  · exact order_of_taker htaker ((identifier_injective hid).1.trans horder)
  · rw [← htx, htx', ← heq] at hout
    exact hmj (haccount ((hw.name_of_purchase hb hbid hours hout hup).trans hparty))

/-! ## Agreement -/

/-- **Agreement.**  In every run of the network: if a trade of the maker `m` with the taker `j` is
`PENDING` or `SUCCESS`, then a trade of the taker with the same identifier has turned `PENDING` with
the same transaction before, and the two trades are the two sides of a deal. -/
theorem agreement (haccount : Function.Injective account) (hgame : TellsSale cfg)
    (hw : Wallets decode rawTx E owns) {x : ι → Sys × W} (h : (network cfg E account).Reachable x)
    {m j : ι} (hmj : m ≠ j) {t : TradeState}
    (ht : t ∈ (x m).1.state.trades ∨ t ∈ finalised (x m).1.log)
    (hmaker : getRole (account m) t = .maker) (hparty : t.counterparty = account j)
    (hst : t.getState = .pending ∨ t.getState = .success) :
    ∃ ours, t.ourPsbt = some ours ∧
      ∃ rec ∈ (x j).1.log, ∃ msg t₀ t' theirs, rec.Processes msg t₀ t' ∧
        getIdentifier t' = getIdentifier t ∧ t₀.getState = .initiated ∧ t'.getState = .pending ∧
        t'.ourPsbt = some theirs ∧ (decode theirs).tx = (decode ours).tx ∧
        match getOrderType (account m) t with
        | .ask => Deal (account j) (account m) t' t (decode ours).tx
        | .bid => Deal (account m) (account j) t t' (decode ours).tx := by
  have hpast : Past (cfg m) (E m) (account m) (x m) t := by
    rcases ht with ht | ht
    · exact ⟨x m, reachable_daemon h m, List.Subset.refl _, Or.inl ht⟩
    · exact past_of_finalised (reachable_daemon h m) ht
  obtain ⟨ours, theirs, hours, htheirs, hjoin⟩ :=
    (joinsRule (hw.builds m)).past (fun _ _ _ _ hinv => hinv) hpast hmaker hst
  obtain ⟨rec, hrec, msg, t₀, t', hproc, hpast', hparty', hid, hinit, hcase⟩ :=
    psbt_origin hw h hpast hparty htheirs
  -- the identifier has the maker's name, so the other side is the taker of this order
  have horder : t'.order.getAccount = account m :=
    (identifier_injective hid).1.trans (order_of_maker hmaker)
  rcases hcase with ⟨_, hpending, hours'⟩ | ⟨hmaker', _⟩
  swap
  · exact absurd (haccount (horder.symm.trans (order_of_maker hmaker'))) hmj
  have htx : (decode theirs).tx = (decode ours).tx := by
    cases htype : getOrderType (account m) t with
    | bid => exact (hjoin htype).symm
    | ask =>
        obtain ⟨_, _, _, theirs', _, htheirs', heq, _⟩ := (hw.sold hpast htype hours).stored
        rw [htheirs] at htheirs'
        rw [Option.some.inj htheirs', heq]
  refine ⟨ours, hours, rec, hrec, msg, t₀, t', theirs, hproc, hid, hinit, hpending, hours', htx, ?_⟩
  cases htype : getOrderType (account m) t with
  | ask =>
      cases htype' : getOrderType (account j) t' with
      | ask =>
          exact (not_both_sell haccount hw h hmj hpast hpast' hparty' horder htype htype' hours hours'
            htx).elim
      | bid =>
          have hdeal := deal_of_tx hgame hw h hmj.symm hpast' hpast htype' htype hparty' hparty hours'
            hours htx
          rw [htx] at hdeal
          exact hdeal
  | bid =>
      cases htype' : getOrderType (account j) t' with
      | bid =>
          exact (not_both_buy hw (fun heq => hmj (haccount heq)) hpast hpast' hparty hparty' htype
            htype' hours hours' htx).elim
      | ask =>
          exact deal_of_tx hgame hw h hmj hpast hpast' htype htype' hparty hparty' hours hours' htx.symm

/-! ### A deal

Two daemons play a whole sale: the buyer takes the seller's order, the seller sends its addresses, the
buyer builds and signs the transaction, and the seller signs and broadcasts it. -/

section Scripted

variable {cfg : Bool → Config} {account : Bool → String}

instance decidableSent (x : Bool → Sys × W) (j i : Bool) (msg : ProcessingMessage) : Decidable (Sent account x j i msg) :=
  inferInstanceAs (Decidable (∃ rec ∈ (x j).1.log, ∃ reply ∈ rec.reply,
    reply.counterparty = some (account i) ∧ msg = { reply with counterparty := some (account j) }))

/-- `Delivers`, to be evaluated. -/
def delivered (account : Bool → String) (x : Bool → Sys × W) (i : Bool) : Label → Bool
  | .start (.processMessage msg) =>
      decide (∀ j, msg.counterparty.getD "" = account j → Sent account x j i msg)
  | _ => true

/-- A schedule for all daemons, given up at the first message that was not sent. -/
def Network.play (cfg : Bool → Config) (account : Bool → String) (h : Bool → W → (c : Call) → Answer c × W) :
    (Bool → Sys × W) → List (Bool × Sched) → Option (Bool → Sys × W)
  | x, [] => some x
  | x, (i, c) :: rest => (Sys.next (cfg i) (h i) (x i) c).bind fun y =>
      if delivered account x i y.1 then Network.play cfg account h (Function.update x i y.2) rest
      else none

lemma Network.reachable_of_play {h : Bool → W → (c : Call) → Answer c × W} :
    ∀ {cs : List (Bool × Sched)} {x x' : Bool → Sys × W},
      (network cfg (fun i => Env.ofScript (h i)) account).Reachable x →
      Network.play cfg account h x cs = some x' →
      (network cfg (fun i => Env.ofScript (h i)) account).Reachable x'
  | [], x, x', hr, hp => by
      obtain rfl := Option.some.inj hp
      exact hr
  | (i, c) :: cs, x, x', hr, hp => by
      simp only [Network.play, Option.bind_eq_some_iff] at hp
      obtain ⟨⟨l, y⟩, hn, hp⟩ := hp
      split_ifs at hp with hok
      refine Network.reachable_of_play (hr.step (l := (i, l)) ⟨⟨?_, fun j hj => ?_⟩, ?_⟩) hp
      · rw [Function.update_self]
        exact Sys.step_of_next hn
      · exact Function.update_of_ne hj _ _
      · rintro msg rfl
        exact of_decide_eq_true hok

end Scripted

/-- Different integers are written differently. -/
lemma intRepr_injective {a b : ℤ} (h : a.repr = b.repr) : a = b := by
  have hnat : ∀ {m n : ℕ}, m.repr = n.repr → m = n := by
    intro m n heq
    have := congrArg String.toList heq
    exact toDigits_injective (by simpa using this)
  have hminus : ∀ (k : ℕ) (s : String), k.repr ≠ "-" ++ s := by
    intro k s heq
    refine notMem_toDigits (c := '-') (by decide) k ?_
    rw [← Nat.toList_repr, heq]
    simp
  rw [Int.repr_eq_if, Int.repr_eq_if] at h
  split_ifs at h with ha hb hb
  · have := hnat h
    omega
  · exact absurd h (hminus _ _)
  · exact absurd h.symm (hminus _ _)
  · have hlist := congrArg String.toList h
    have := hnat (String.toList_inj.mp (by simpa using hlist))
    omega

lemma space_notMem_repr (n : ℤ) : ' ' ∉ n.repr.toList := by
  have hdigits : ∀ k : ℕ, ' ' ∉ k.repr.toList := by
    intro k
    rw [Nat.toList_repr]
    exact notMem_toDigits (by decide) k
  rw [Int.repr_eq_if]
  split_ifs
  · exact hdigits _
  · rw [String.toList_append, List.mem_append, not_or]
    exact ⟨by decide, hdigits _⟩

/-- In the sample game, what is written tells the sale: the number ends at the first blank. -/
lemma sampleConfig_tells : TellsSale fun _ : ι => sampleConfig := by
  intro i j seller buyer asset asset' units units' h
  have h : buyer ++ " gets " ++ units.toInt64.toInt.repr ++ " " ++ asset
      = buyer ++ " gets " ++ units'.toInt64.toInt.repr ++ " " ++ asset' := h
  have hlist : units.toInt64.toInt.repr.toList ++ ' ' :: asset.toList
      = units'.toInt64.toInt.repr.toList ++ ' ' :: asset'.toList := by
    have := congrArg String.toList h
    simpa using this
  have hrev := congrArg List.reverse hlist
  simp only [List.reverse_append, List.reverse_cons, List.append_assoc, List.singleton_append] at hrev
  obtain ⟨hasset, hunits⟩ := split_at_last (by simpa using space_notMem_repr _)
    (by simpa using space_notMem_repr _) hrev
  refine ⟨String.toList_inj.mp (List.reverse_injective hasset), ?_⟩
  have hsigned := intRepr_injective (String.toList_inj.mp (List.reverse_injective hunits))
  simpa using congrArg Int64.toUInt64 (Int64.toInt_inj.mp hsigned)

/-- The two accounts. -/
def dealAccount (taker : Bool) : String := if taker then "buyer" else "seller"

/-- The PSBTs of the deal: those of the purchase, and the one that the seller has signed, too. -/
def dealDecode (p : String) : Psbt :=
  if p = "joined, signed, signed" then
    { purchaseDecode p with inputs :=
        [{ partialSignatures := [("key", "signature")] }, { partialSignatures := [("key", "other")] }] }
  else purchaseDecode p

/-- The addresses that the seller's wallet gives out. -/
def dealAddress : ℕ → Except RpcError String
  | 0 => .ok "name address"
  | 1 => .ok "chi address"
  | _ => .error .exception

/-- The two wallets.  The world of the seller's one counts the addresses given out. -/
def dealScript : Bool → ℕ → (c : Call) → Answer c × ℕ
  | _, n, .rpc (.decodepsbt p) => ((.ok (dealDecode p) : Except RpcError Psbt), n)
  | true, n, c => ((purchaseScript () c).1, n)
  | false, n, .rpc .getnewaddress => (dealAddress n, n + 1)
  | false, n, .rpc (.finalizepsbt p) =>
      ((.ok (if p = "joined, signed, signed" then some "raw" else none) :
        Except RpcError (Option String)), n)
  | false, n, c => makerScript n c

/-- Which addresses belong to whom. -/
def dealOwns (taker : Bool) : Set String :=
  if taker then {"change"} else {"name address", "chi address"}

lemma dealDecode_tx (p : String) : (dealDecode p).tx = (purchaseDecode p).tx := by
  rw [dealDecode]
  split_ifs <;> rfl

/-- Except for decoding, the buyer's wallet is that of the purchase. -/
lemma purchase_of_deal {n n' : ℕ} {m : Method} {r : m.Reply} (hm : ∀ p, m ≠ .decodepsbt p)
    (h : Env.ofScript (dealScript true) n (Ev.returned m r) n') :
    Env.ofScript purchaseScript () (Ev.returned m r) () := by
  have hfst : (dealScript true n (.rpc m)).1 = (.ok r : Except RpcError m.Reply) :=
    congrArg Prod.fst h
  refine Prod.ext ?_ rfl
  cases m with
  | decodepsbt p => exact absurd rfl (hm p)
  | _ => exact hfst

lemma deal_builds_buyer : BuildsPsbts dealDecode (fun _ => (purchaseDecode "joined").tx)
    (ChangeTo {"change"}) (Env.ofScript (dealScript true)) where
  funds := by
    intro w addr total feeRate p w' h
    have h := answer_of_returned (purchase_of_deal (by simp) h)
    simp only [purchaseScript] at h
    split_ifs at h with hc
    simp only [List.cons.injEq, Prod.mk.injEq, and_true] at hc
    obtain ⟨rfl, rfl⟩ := hc
    obtain rfl := Except.ok.inj h
    refine ⟨by decide, ⟨some 10, { addresses := some ["chi address"] }⟩,
      [⟨some 990, { addresses := some ["change"] }⟩], ⟨rfl, rfl, rfl⟩, ?_, List.Perm.refl _⟩
    intro out hout
    obtain rfl := List.mem_singleton.mp hout
    refine ⟨rfl, fun addr haddr => ?_⟩
    simpa [matchesAddress, eq_comm] using haddr
  creates := by
    intro w ins outs (p : String) w' h
    rw [dealDecode_tx]
    exact purchase_builds.creates () ins outs p () (purchase_of_deal (by simp) h)
  names := by
    intro w p n op name value (q : String) w' h
    rw [dealDecode_tx, dealDecode_tx]
    exact purchase_builds.names () p n op name value q () (purchase_of_deal (by simp) h)
  joins := by
    intro w ps (p : String) w' h
    simp only [dealDecode_tx]
    exact purchase_builds.joins () ps p () (purchase_of_deal (by simp) h)
  combines := fun w ps p w' h => absurd (purchase_of_deal (by simp) h) (not_returned rfl)
  finalises := fun w p hex w' h => absurd (purchase_of_deal (by simp) h) (not_returned rfl)

lemma deal_builds_seller : BuildsPsbts dealDecode (fun _ => (purchaseDecode "joined").tx)
    (ChangeTo {"name address", "chi address"}) (Env.ofScript (dealScript false)) where
  funds := fun w addr total feeRate p w' h => absurd h (not_returned rfl)
  creates := fun w ins outs p w' h => absurd h (not_returned rfl)
  names := fun w p n op name value q w' h => absurd h (not_returned rfl)
  joins := fun w ps p w' h => absurd h (not_returned rfl)
  combines := fun w ps p w' h => absurd h (not_returned rfl)
  finalises := by
    intro w p hex w' h
    have h : (if p = "joined, signed, signed" then some "raw" else none) = some hex :=
      Except.ok.inj (answer_of_returned h)
    split_ifs at h with hp
    subst hp
    rfl

lemma le_dealScript (i : Bool) (n : ℕ) (c : Call) : n ≤ (dealScript i n c).2 := by
  cases c with
  | clock => cases i <;> exact le_rfl
  | rpc m => cases i <;> cases m <;> first | exact le_rfl | exact Nat.le_succ n

/-- The addresses of the seller's wallet are all different. -/
lemma deal_fresh (i : Bool) :
    GivesFresh (fun n : ℕ => {addr | ∃ k < n, dealAddress k = .ok addr}) (Env.ofScript (dealScript i)) where
  fresh := by
    intro n addr n' h
    cases i with
    | true => exact absurd (purchase_of_deal (by simp) h) (not_returned rfl)
    | false =>
        have hgiven : dealAddress n = .ok addr := congrArg Prod.fst h
        obtain rfl : n + 1 = n' := congrArg Prod.snd h
        refine ⟨?_, n, Nat.lt_succ_self n, hgiven⟩
        rintro ⟨k, hk, hk'⟩
        rcases n with _ | _ | _
        · simp at hk
        · obtain rfl : k = 0 := by omega
          have : "name address" = "chi address" := Except.ok.inj (hk'.trans hgiven.symm)
          simp at this
        · simp [dealAddress] at hgiven
  grows := by
    rintro n ev n' h addr ⟨k, hk, hk'⟩
    refine ⟨k, lt_of_lt_of_le hk ?_, hk'⟩
    obtain rfl : (dealScript i n ev.1).2 = n' := congrArg Prod.snd h
    exact le_dealScript i n ev.1

lemma dealWallets : Wallets dealDecode (fun _ => (purchaseDecode "joined").tx)
    (fun i => Env.ofScript (dealScript i)) dealOwns where
  decodes := by
    intro i w p d w' h
    exact (Except.ok.inj (answer_of_returned h)).symm
  builds := by
    intro i
    cases i with
    | true => exact deal_builds_buyer
    | false => exact deal_builds_seller
  fresh := fun i => ⟨_, deal_fresh i⟩
  gives := by
    intro i w addr w' h
    cases i with
    | true => exact absurd (purchase_of_deal (by simp) h) (not_returned rfl)
    | false =>
        have hgiven : dealAddress w = .ok addr := congrArg Prod.fst h
        rcases w with _ | _ | _
        · obtain rfl := Except.ok.inj hgiven
          exact Or.inl rfl
        · obtain rfl := Except.ok.inj hgiven
          exact Or.inr rfl
        · simp [dealAddress] at hgiven
  disjoint := by
    intro i j hij
    cases i <;> cases j <;> simp [dealOwns] at hij ⊢
  single := by
    intro p out hout addr addr' h h'
    have hspk : out.scriptPubKey.address = none := by
      rw [dealDecode_tx, purchaseDecode] at hout
      split_ifs at hout <;> simp at hout <;> rcases hout with rfl | rfl | rfl <;> rfl
    simp only [matchesAddress, hspk, Bool.or_eq_true, decide_eq_true_eq, reduceCtorEq, or_false] at h h'
    simpa using h.symm.trans h'

/-- The seller's order, as the buyer has it. -/
def dealOrder : Order := { purchaseOrder with id := some 0 }

/-- The seller's addresses, as the buyer gets them. -/
def dealAddresses : ProcessingMessage := { purchaseMessage with identifier := some "seller\n0" }

/-- The buyer's PSBT, as the seller gets it. -/
def dealMessage : ProcessingMessage := { signedMessage with psbt := some "joined, signed" }

/-- The schedule of the deal. -/
def dealSchedule : List (Bool × Sched) :=
  [(true, .start (.takeOrder dealOrder 2)), (true, .run 0),
    (false, .start (.addOrder offerOrder)), (false, .run 0), (false, .run 0), (false, .run 0),
    (false, .run 0), (false, .start (.processMessage takingMessage)), (false, .run 1),
    (false, .run 1), (false, .run 1), (false, .run 1), (false, .run 1), (false, .run 1),
    (true, .start (.processMessage dealAddresses)), (true, .run 1), (true, .run 1),
    (false, .start (.processMessage dealMessage)), (false, .run 2), (false, .run 2)]

/-- The seller's trade is `PENDING`, and so is the buyer's one, with the same transaction. -/
theorem agreement_deal : ∃ (x : Bool → Sys × ℕ) (t : TradeState),
    (network (fun _ => sampleConfig) (fun i => Env.ofScript (dealScript i)) dealAccount).Reachable x ∧
    t ∈ (x false).1.state.trades ∧ t.getState = .pending ∧
    ∃ ours, t.ourPsbt = some ours ∧
      ∃ rec ∈ (x true).1.log, ∃ msg t₀ t' theirs, rec.Processes msg t₀ t' ∧
        getIdentifier t' = getIdentifier t ∧ t₀.getState = .initiated ∧ t'.getState = .pending ∧
        t'.ourPsbt = some theirs ∧ (dealDecode theirs).tx = (dealDecode ours).tx ∧
        match getOrderType "seller" t with
        | .ask => Deal "buyer" "seller" t' t (dealDecode ours).tx
        | .bid => Deal "seller" "buyer" t t' (dealDecode ours).tx := by
  have hplay : (Network.play (fun _ => sampleConfig) dealAccount dealScript
      (fun i => (Sys.start (dealAccount i), 0)) dealSchedule).any (fun x =>
        (x false).1.state.trades.any fun t => t.getState = .pending && getRole "seller" t = .maker &&
          t.counterparty = "buyer") = true := by
    decide +kernel
  obtain ⟨x, hx, hP⟩ := (Option.any_eq_true _ _).mp hplay
  obtain ⟨t, ht, hprop⟩ := List.any_eq_true.mp hP
  simp only [Bool.and_eq_true, decide_eq_true_eq] at hprop
  obtain ⟨⟨hst, hmaker⟩, hparty⟩ := hprop
  have h₀ : (network (fun _ => sampleConfig) (fun i => Env.ofScript (dealScript i))
      dealAccount).Reachable fun i => (Sys.start (dealAccount i), 0) := .init fun _ => rfl
  have hr := Network.reachable_of_play h₀ hx
  have haccount : Function.Injective dealAccount := by
    intro i j
    cases i <;> cases j <;> simp [dealAccount]
  have hagree := agreement (m := false) (j := true) haccount sampleConfig_tells dealWallets hr
    (by decide) (Or.inl ht) hmaker hparty (Or.inl hst)
  exact ⟨x, t, hr, ht, hst, hagree⟩

end Democrit
