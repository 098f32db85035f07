import Democrit.Safety.Accounts
import Democrit.Safety.Buyer

/-!
# What was said

A trade knows the other side only from messages, and the other side knows it only from what it has
sent.  Both are on record: what a trade has from its counterparty **came in a message that matches
it** (`reachable_heard`), and what is sent about a trade **is what the trade has at that moment**
(`sent_psbt`, `sent_sellerData`).

Two more facts make the one side's messages the other side's data: what we broadcast as the maker is
the transaction of our PSBT and of theirs (`joinsRule`), and the seller data that we send are two
new addresses of our wallet (`givesRule`), so that **the one address tells the other**
(`chiAddress_of_nameAddress`).
-/

namespace Democrit

open Interaction

variable {cfg : Config} {account : String} {W : Type} {E : Env Call Answer W}
  {decode : String → Psbt} {rawTx : String → Tx} {change : TxOut → Prop}

/-! ## Messages and their threads -/

/-- The message that a task is about. -/
def Task.message : Task → Option ProcessingMessage
  | .receive msg | .orderTaken _ _ msg | .process msg => some msg
  | _ => none

/-- The tasks of `ProcessMessage` pass the message on as it is. -/
lemma message_of_exec {task y : Task} {s s' : State} {tr : Conversation} {eff : Effect}
    (hx : (exec cfg task s).Exec tr (.ok eff, s')) (hy : y ∈ eff.next) {msg : ProcessingMessage}
    (hmsg : y.message = some msg) : task.message = some msg := by
  have hspec : (exec cfg task).wp s fun _ r _ => ∀ eff, r = .ok eff → ∀ y ∈ eff.next,
      y.message = some msg → task.message = some msg := by
    cases task with
    | receive msg' =>
        simp only [exec, receive, Act.wp_bind, wp_check, Act.afterBind_ok, Act.afterBind_error]
        refine ⟨fun _ => ?_, by simp⟩
        cases msg'.takingOrder with
        | none => simp [Task.message]
        | some taking =>
            simp only [Act.wp_bind]
            refine Act.wp_iff.mpr fun tr r s' _ => ?_
            rcases r with _ | _ | _ <;> simp [refreshTasks, Task.message]
    | orderTaken o taking msg' =>
        simp only [exec, Act.wp_bind]
        refine Act.wp_iff.mpr fun tr r s' _ => ?_
        rcases r with _ | _ | _ <;> simp [Task.message]
    | _ =>
        refine Act.wp_iff.mpr fun tr r s' hx eff hr y hy hmsg => ?_
        have hleads := leads_of_exec (hr ▸ hx) y hy
        cases y with
        | receive | orderTaken | process => simp [Task.leadsTo] at hleads
        | _ => simp [Task.message] at hmsg
  exact Act.wp_iff.mp hspec tr _ s' hx eff rfl y hy hmsg

/-- Tasks about a message are those of the call that it came in with. -/
def Sys.Attributed (σ : Sys) : Prop :=
  (∀ th ∈ σ.threads, ∀ y ∈ th.tasks, ∀ msg, y.message = some msg → th.op = .processMessage msg) ∧
  ∀ rec ∈ σ.log, ∀ msg, rec.task.message = some msg → rec.op = .processMessage msg

lemma Sys.Attributed.step {σ σ' : Sys} {l : Label} (h : σ.Attributed) (hs : Sys.Step cfg σ l σ') :
    σ'.Attributed := by
  cases hs with
  | start op _ =>
      refine ⟨fun th hth y hy msg hmsg => ?_, h.2⟩
      rcases List.mem_append.mp hth with hth | hth
      · exact h.1 th hth y hy msg hmsg
      · obtain rfl := List.mem_singleton.mp hth
        cases op with
        | refreshOrders =>
            rcases List.mem_cons.mp hy with rfl | hy
            · simp [Task.message] at hmsg
            · rw [List.mem_singleton.mp hy] at hmsg
              simp [Task.message] at hmsg
        | _ =>
            rw [List.mem_singleton.mp hy] at hmsg
            simp_all [Task.message]
  | @run before after op task rest tr r s' _ hth hx =>
      have old : ∀ th ∈ before ++ ⟨op, task :: rest⟩ :: after, ∀ y ∈ th.tasks, ∀ msg,
          y.message = some msg → th.op = .processMessage msg := fun th hm => h.1 th (by rwa [hth])
      have hself : ∀ msg, task.message = some msg → op = .processMessage msg :=
        fun msg => old ⟨op, task :: rest⟩ (by simp) task (by simp) msg
      refine ⟨fun th hm y hy msg hmsg => ?_, fun rec hrec msg hmsg => ?_⟩
      · rcases List.mem_append.mp hm with hm | hm
        · exact old th (by simp [hm]) y hy msg hmsg
        · rcases List.mem_cons.mp hm with rfl | hm
          · cases r with
            | error e => simp [continuation] at hy
            | ok eff =>
                rcases List.mem_append.mp hy with hy | hy
                · exact hself msg (message_of_exec hx hy hmsg)
                · exact old ⟨op, task :: rest⟩ (by simp) y (by simp [hy]) msg hmsg
          · exact old th (by simp [hm]) y hy msg hmsg
      · rcases List.mem_append.mp hrec with hrec | hrec
        · exact h.2 rec hrec msg hmsg
        · obtain rfl := List.mem_singleton.mp hrec
          exact hself msg hmsg

lemma reachable_attributed {x : Sys × W} (h : (system cfg E account).Reachable x) :
    x.1.Attributed := by
  refine Transition.System.Reachable.invariant (fun x => x.1.Attributed) ?_ ?_ h
  · intro x hx
    rw [hx]
    simp [Sys.start, Sys.Attributed]
  · rintro x l x' _ ih ⟨hs, _⟩
    exact ih.step hs

/-! ## What a trade has from the other side -/

/-- A call of `ProcessMessage` with this message has begun, and it matches the trade. -/
def Heard (log : List Record) (t : TradeState) (msg : ProcessingMessage) : Prop :=
  tradeMatches msg t = true ∧ ∃ rec ∈ log, rec.op = .processMessage msg

/-- What the trade has from the other side came in a message that matches it. -/
structure HeardInv (account : String) (log : List Record) (t : TradeState) : Prop where
  psbt : ∀ p, t.theirPsbt = some p → ∃ msg, Heard log t msg ∧ msg.psbt = some p
  sellerData : getOrderType account t = .bid → ∀ sd, t.sellerData = some sd →
    ∃ msg, Heard log t msg ∧ msg.sellerData = some sd

lemma Frame.tradeMatches {t t' : TradeState} (h : Frame t t') (msg : ProcessingMessage) :
    tradeMatches msg t' = tradeMatches msg t := by
  rw [Democrit.tradeMatches, Democrit.tradeMatches, h.counterparty, h.getIdentifier]

lemma Heard.congr {log : List Record} {t t' : TradeState} {msg : ProcessingMessage}
    (h : Heard log t msg) (hf : Frame t t') : Heard log t' msg :=
  ⟨(hf.tradeMatches msg).trans h.1, h.2⟩

lemma Heard.mono {log log' : List Record} {t : TradeState} {msg : ProcessingMessage}
    (h : Heard log t msg) (hsub : log ⊆ log') : Heard log' t msg := by
  obtain ⟨hmatch, rec, hrec, hop⟩ := h
  exact ⟨hmatch, rec, hsub hrec, hop⟩

lemma HeardInv.mono {log log' : List Record} {t : TradeState} (h : HeardInv account log t)
    (hsub : log ⊆ log') : HeardInv account log' t := by
  refine ⟨fun p hp => ?_, fun hbid sd hsd => ?_⟩
  · obtain ⟨msg, hheard, hmsg⟩ := h.psbt p hp
    exact ⟨msg, hheard.mono hsub, hmsg⟩
  · obtain ⟨msg, hheard, hmsg⟩ := h.sellerData hbid sd hsd
    exact ⟨msg, hheard.mono hsub, hmsg⟩

/-- The promise only looks at what comes from the other side. -/
lemma HeardInv.congr {log : List Record} {t t' : TradeState} (h : HeardInv account log t)
    (hf : Frame t t') (htheirs : t'.theirPsbt = t.theirPsbt)
    (hsd : getOrderType account t = .bid → t'.sellerData = t.sellerData) :
    HeardInv account log t' := by
  refine ⟨fun p hp => ?_, fun hbid sd hsome => ?_⟩
  · rw [htheirs] at hp
    obtain ⟨msg, hheard, hmsg⟩ := h.psbt p hp
    exact ⟨msg, hheard.congr hf, hmsg⟩
  · rw [hf.getOrderType] at hbid
    rw [hsd hbid] at hsome
    obtain ⟨msg, hheard, hmsg⟩ := h.sellerData hbid sd hsome
    exact ⟨msg, hheard.congr hf, hmsg⟩

/-- `HasReply` changes nothing that comes from the other side. -/
lemma HasReply.Outcome.theirs {t t' : TradeState} {tr : Conversation}
    {r : Except Fail (Option ProcessingMessage)} (h : HasReply.Outcome cfg account t tr r t') :
    t'.theirPsbt = t.theirPsbt ∧ (getOrderType account t = .bid → t'.sellerData = t.sellerData) := by
  cases h with
  | sendsSellerData _ hask _ =>
      refine ⟨rfl, fun hbid => ?_⟩
      rw [hbid] at hask
      simp at hask
  | _ => exact ⟨rfl, fun _ => rfl⟩

lemma mergePsbt_theirs (psbt : String) (t : TradeState) :
    (mergePsbt psbt t).sellerData = t.sellerData ∧
      ((mergePsbt psbt t).theirPsbt = t.theirPsbt ∨ (mergePsbt psbt t).theirPsbt = some psbt) := by
  rw [mergePsbt]
  split_ifs
  · exact ⟨rfl, Or.inl rfl⟩
  · exact ⟨rfl, Or.inr rfl⟩

lemma mergeSellerData_theirs (sd : SellerData) (t : TradeState) :
    (mergeSellerData account sd t).theirPsbt = t.theirPsbt ∧
      ((mergeSellerData account sd t).sellerData = t.sellerData ∨
        (mergeSellerData account sd t).sellerData = some sd) := by
  rcases @mergeSellerData_spec account sd t with h | ⟨_, _, _, _, _, h⟩
  · rw [h]
    exact ⟨rfl, Or.inl rfl⟩
  · rw [h]
    exact ⟨rfl, Or.inr rfl⟩

/-- **What `HandleMessage` takes from a message.** -/
lemma handleMessage_theirs (msg : ProcessingMessage) (t : TradeState) :
    ((handleMessage account msg t).theirPsbt = t.theirPsbt ∨
      (handleMessage account msg t).theirPsbt = msg.psbt) ∧
    ((handleMessage account msg t).sellerData = t.sellerData ∨
      (handleMessage account msg t).sellerData = msg.sellerData) := by
  rw [handleMessage]
  split
  · exact ⟨Or.inl rfl, Or.inl rfl⟩
  · cases msg.sellerData with
    | none =>
        cases msg.psbt with
        | none => exact ⟨Or.inl rfl, Or.inl rfl⟩
        | some psbt =>
            obtain ⟨hsame, hpsbt⟩ := mergePsbt_theirs psbt t
            exact ⟨hpsbt, Or.inl hsame⟩
    | some sd =>
        obtain ⟨hkept, hsd⟩ := @mergeSellerData_theirs account sd t
        cases msg.psbt with
        | none => exact ⟨Or.inl hkept, hsd⟩
        | some psbt =>
            obtain ⟨hsame, hpsbt⟩ := mergePsbt_theirs psbt (mergeSellerData account sd t)
            rw [hkept] at hpsbt
            rw [← hsame] at hsd
            exact ⟨hpsbt, hsd⟩

/-- **Everything heard.** -/
theorem reachable_heard {x : Sys × W} (h : (system cfg E account).Reachable x) :
    ∀ t, x.1.Knows t → HeardInv account x.1.log t := by
  refine Transition.System.Reachable.invariant
    (fun x => ∀ t, x.1.Knows t → HeardInv account x.1.log t) ?_ ?_ h
  · rintro x hx t (ht | ⟨th, hth, _⟩)
    · rw [hx] at ht
      simp [Sys.start] at ht
    · rw [hx] at hth
      simp [Sys.start] at hth
  · rintro x l x' hr ih ⟨hs, _⟩ t' hk
    have hacc := reachable_account hr
    have hsub : x.1.log ⊆ x'.1.log := by
      rw [log_of_step hs]
      exact List.subset_append_left _ _
    have hblank : ∀ t : TradeState, t.theirPsbt = none → t.sellerData = none →
        HeardInv account x'.1.log t := by
      intro t htheirs hsd
      refine ⟨fun p hp => ?_, fun _ sd hsome => ?_⟩
      · rw [htheirs] at hp
        simp at hp
      · rw [hsd] at hsome
        simp at hsome
    rcases origin_of_step hs hk with hk | ⟨rec, rfl, horigin⟩
    · exact (ih t' hk).mono hsub
    · cases horigin with
      | old hk => exact (ih t' hk).mono hsub
      | blank heq _ => exact hblank t' (by rw [heq]) (by rw [heq])
      | taken _ _ _ _ heq => exact hblank t' (by rw [heq]; rfl) (by rw [heq]; rfl)
      | took _ _ _ _ hout =>
          rw [hacc] at hout
          exact (hblank (newTrade _ _ _ _ _) rfl rfl).congr hout.frame hout.theirs.1 hout.theirs.2
      | @processed msg t r htask ht hm hout _ =>
          rw [hacc] at hout
          have hrec : ∃ rec' ∈ x'.1.log, rec'.op = .processMessage msg := by
            have hmem : rec ∈ x'.1.log := by
              rw [log_of_step hs]
              exact List.mem_append_right _ (List.mem_singleton.mpr rfl)
            have hattr := (reachable_attributed hr).step hs
            exact ⟨rec, hmem, hattr.2 rec hmem msg (by rw [htask]; rfl)⟩
          have hframe := (@handleMessage_spec account msg t).frame
          have hheard : Heard x'.1.log (handleMessage account msg t) msg :=
            ⟨(hframe.tradeMatches msg).trans hm, hrec⟩
          have hbefore := (ih t (Or.inl ht)).mono hsub
          obtain ⟨htheirs, hsd⟩ := @handleMessage_theirs account msg t
          have hafter : HeardInv account x'.1.log (handleMessage account msg t) := by
            refine ⟨fun p hp => ?_, fun hbid sd hsome => ?_⟩
            · rcases htheirs with heq | heq
              · rw [heq] at hp
                obtain ⟨msg', hheard', hmsg'⟩ := hbefore.psbt p hp
                exact ⟨msg', hheard'.congr hframe, hmsg'⟩
              · rw [heq] at hp
                exact ⟨msg, hheard, hp⟩
            · rcases hsd with heq | heq
              · rw [heq] at hsome
                rw [hframe.getOrderType] at hbid
                obtain ⟨msg', hheard', hmsg'⟩ := hbefore.sellerData hbid sd hsome
                exact ⟨msg', hheard'.congr hframe, hmsg'⟩
              · rw [heq] at hsome
                exact ⟨msg, hheard, hsome⟩
          exact hafter.congr hout.frame hout.theirs.1 hout.theirs.2
      | @updated t tr _ ht hout =>
          have hsame : t'.theirPsbt = t.theirPsbt ∧ t'.sellerData = t.sellerData := by
            cases hout <;> exact ⟨rfl, rfl⟩
          exact ((ih t (Or.inl ht)).mono hsub).congr hout.frame hsame.1 fun _ => hsame.2

/-! ## What is sent about a trade -/

/-- `t` was among the active trades at some point of the run. -/
def Past (cfg : Config) (E : Env Call Answer W) (account : String) (x : Sys × W) (t : TradeState) :
    Prop :=
  ∃ z, (system cfg E account).Reachable z ∧ z.1.log ⊆ x.1.log ∧ z.1.Knows t

/-- The section after which `t'` was there. -/
lemma past_of_record {x : Sys × W} (hr : (system cfg E account).Reachable x) {rec : Record}
    (hrec : rec ∈ x.1.log) : Section cfg rec.pre rec.task rec.talk rec.outcome rec.post ∧
      rec.pre.account = account ∧ (∃ w w', E.Path w rec.talk w') ∧
      ∀ t' ∈ rec.post.trades, Past cfg E account x t' := by
  obtain ⟨y, z, hy, hs, hl⟩ := reachable_record hr rec hrec
  obtain ⟨hsec, hpre, hpost⟩ := section_of_step hs.1
  refine ⟨hsec, by rw [hpre]; exact reachable_account hy, ⟨y.2, z.2, hs.2⟩, fun t' ht' => ?_⟩
  exact ⟨z, hy.step hs, log_subset hl, Or.inl (hpost ▸ ht')⟩

/-- A trade that was finalised was among them too. -/
lemma past_of_finalised {x : Sys × W} (hr : (system cfg E account).Reachable x) {t : TradeState}
    (ht : t ∈ finalised x.1.log) : Past cfg E account x t := by
  obtain ⟨rec, hrec, ht⟩ := List.mem_flatMap.mp ht
  obtain ⟨y, z, hy, hs, hl⟩ := reachable_record hr rec hrec
  refine ⟨z, hy.step hs, log_subset hl, Or.inr ?_⟩
  obtain ⟨hs, _⟩ := hs
  generalize z.1 = σ at hs
  cases hs with
  | @run before after op task rest tr r s' _ _ _ =>
      rw [Record.finalised] at ht
      split at ht
      · rename_i eff _ hr
        obtain rfl : r = .ok eff := hr
        exact ⟨⟨op, eff.next ++ rest⟩, by simp [Sys.advance, continuation], .handle t,
          List.mem_append_left _ (mem_handles ht), rfl⟩
      · simp at ht

/-- What holds of every active trade held of those of the past, too. -/
lemma TradeRule.past {P : List Record → TradeState → Prop} (hP : TradeRule cfg E account P)
    (hmono : ∀ log log' t, log ⊆ log' → P log t → P log' t) {x : Sys × W} {t : TradeState}
    (h : Past cfg E account x t) : P x.1.log t := by
  obtain ⟨z, hz, hsub, hk⟩ := h
  exact hmono _ _ _ hsub (hP.holds hz t hk)

lemma Past.heard {x : Sys × W} {t : TradeState} (h : Past cfg E account x t) :
    HeardInv account x.1.log t := by
  obtain ⟨z, hz, hsub, hk⟩ := h
  exact (reachable_heard hz t hk).mono hsub

/-- The message is about the trade. -/
structure About (t : TradeState) (msg : ProcessingMessage) : Prop where
  counterparty : msg.counterparty = some t.counterparty
  identifier : msg.identifier = some (getIdentifier t)

lemma about_of_frame {t t' : TradeState} (h : Frame t t') {msg : ProcessingMessage}
    (ha : About t msg) : About t' msg :=
  ⟨by rw [h.counterparty]; exact ha.counterparty, by rw [h.getIdentifier]; exact ha.identifier⟩

/-- **A PSBT that we send** is our own one, if we are the taker, and then the trade turns `PENDING`
with it; if we are the maker, it is the unsigned one of the transaction that we have built. -/
theorem sent_psbt (hdec : Decodes decode E) (hcore : BuildsPsbts decode rawTx change E) {x : Sys × W}
    (hr : (system cfg E account).Reachable x) {rec : Record} (hrec : rec ∈ x.1.log)
    {reply : ProcessingMessage} (hreply : rec.reply = some reply) {p : String}
    (hp : reply.psbt = some p) :
    ∃ msg t t', rec.Processes msg t t' ∧ Past cfg E account x t' ∧ About t' reply ∧
      t.getState = .initiated ∧
      (getRole account t' = .taker ∧ t'.getState = .pending ∧ t'.ourPsbt = some p ∨
        getRole account t' = .maker ∧ getOrderType account t' = .bid ∧
          ∃ ours, t'.ourPsbt = some ours ∧ (decode ours).tx = (decode p).tx) := by
  obtain ⟨hsec, hacc, ⟨w, w', hpath⟩, hpast⟩ := past_of_record hr hrec
  obtain ⟨msg, t, t', r, hproc, hout, houtcome⟩ :=
    processes_of_release hsec (Or.inl ⟨reply, hreply, by simp [hp]⟩)
  obtain ⟨before, after, _, _, hpost⟩ := hproc.trades
  rw [Record.ok_of_reply houtcome hreply, hacc] at hout
  obtain ⟨hinit, heq, hcase⟩ := reply_psbt hout hp
  have hframe := hout.frame
  have hstate : (handleMessage account msg t).getState = t.getState := by
    have := (@handleMessage_spec account msg t).eq
    rw [TradeState.getState, this]
    rfl
  refine ⟨msg, t, t', hproc, hpast t' (by simp [hpost]), ?_, hstate.symm.trans hinit, ?_⟩
  · refine about_of_frame hframe ?_
    rw [heq]
    exact ⟨rfl, rfl⟩
  · rw [hframe.getRole, hframe.getOrderType]
    rcases hcase with ⟨htaker, hours, hpending⟩ | ⟨hmaker, hbid, nameIn, signedPsbt, hb, rfl⟩
    · exact Or.inl ⟨htaker, hpending, hours⟩
    · exact Or.inr ⟨hmaker, hbid, signedPsbt, rfl, (hb.tx hdec hcore hpath List.suffix_rfl).tx⟩

/-- A reply with seller data is made when we have just created them. -/
lemma reply_sellerData {t t' : TradeState} {tr : Conversation} {reply : ProcessingMessage}
    {sd : SellerData} (h : HasReply.Outcome cfg account t tr (.ok (some reply)) t')
    (hsd : reply.sellerData = some sd) :
    About t' reply ∧ getOrderType account t' = .ask ∧ ∃ nameAddress chiAddress out,
      sd = ⟨some nameAddress, some chiAddress, none⟩ ∧
      t'.sellerData = some ⟨some nameAddress, some chiAddress, some out⟩ := by
  generalize hr : (Except.ok (some reply) : Except Fail (Option ProcessingMessage)) = r at h
  cases h with
  | rest _ hno => rcases hno with rfl | ⟨e, rfl⟩ <;> simp at hr
  | @sendsSellerData out nameAddress chiAddress _ hask _ =>
      obtain rfl := Option.some.inj (Except.ok.inj hr)
      exact ⟨⟨rfl, rfl⟩, hask, nameAddress, chiAddress, out, (Option.some.inj hsd).symm, rfl⟩
  | sellerKeeps _ _ _ _ _ _ hno => rcases hno with rfl | ⟨e, rfl⟩ <;> simp at hr
  | sellerShares | buyerOffers | buyerShares | shares =>
      obtain rfl := Option.some.inj (Except.ok.inj hr)
      simp [initProcessingMessage] at hsd
  | _ => simp at hr

/-- **Seller data that we send** are those of a trade in which we sell. -/
theorem sent_sellerData {x : Sys × W} (hr : (system cfg E account).Reachable x) {rec : Record}
    (hrec : rec ∈ x.1.log) {reply : ProcessingMessage} (hreply : rec.reply = some reply)
    {sd : SellerData} (hsd : reply.sellerData = some sd) :
    ∃ t', Past cfg E account x t' ∧ About t' reply ∧ getOrderType account t' = .ask ∧
      ∃ nameAddress chiAddress out, sd = ⟨some nameAddress, some chiAddress, none⟩ ∧
        t'.sellerData = some ⟨some nameAddress, some chiAddress, some out⟩ := by
  obtain ⟨hsec, hacc, _, hpast⟩ := past_of_record hr hrec
  obtain ⟨op, task, s, tr, r, s'⟩ := rec
  dsimp only at hsec hacc hpast
  have unrelated : (∀ eff, r = .ok eff → eff.reply = none) → False := by
    intro hnone
    rw [Record.reply] at hreply
    cases r with
    | error e => simp at hreply
    | ok eff =>
        have hreply : eff.reply = some reply := hreply
        rw [hnone eff rfl] at hreply
        simp at hreply
  cases hsec with
  | idle _ _ hun _ => exact (unrelated hun.reply).elim
  | takeFailed _ _ _ hres =>
      refine (unrelated ?_).elim
      rcases hres with ⟨_, rfl⟩ | ⟨c, _, rfl⟩
      · rintro _ ⟨⟩
        rfl
      · simp
  | @takeCreated o units now tr reply' pb' _ _ hout =>
      obtain rfl := Option.some.inj hreply
      rw [hacc] at hout
      cases reply' with
      | none => simp [setTakingOrder, initProcessingMessage] at hsd
      | some reply' =>
          obtain ⟨habout, hask, hdata⟩ := reply_sellerData hout hsd
          exact ⟨pb', hpast pb' (by simp), ⟨habout.counterparty, habout.identifier⟩, hask, hdata⟩
  | @processed msg before t after tr r t' _ _ _ hout _ =>
      have hr' : r = .ok (some reply) := by
        have hreply : caught r = some reply := hreply
        cases r with
        | error e => simp [caught] at hreply
        | ok o => exact congrArg _ hreply
      rw [hr', hacc] at hout
      obtain ⟨habout, hask, hdata⟩ := reply_sellerData hout hsd
      exact ⟨t', hpast t' (by simp), habout, hask, hdata⟩
  | succeeded _ _ hun => exact (unrelated hun.reply).elim
  | aborted | updateFailed => exact (unrelated (by simp)).elim
  | _ =>
      refine (unrelated ?_).elim
      rintro _ ⟨⟩
      rfl

/-! ## What a maker broadcasts -/

/-- A maker's trade is broadcast with both PSBTs, and what was combined are PSBTs of one
transaction. -/
def JoinsInv (account : String) (decode : String → Psbt) (t : TradeState) : Prop :=
  getRole account t = .maker → t.getState = .pending ∨ t.getState = .success →
    ∃ ours theirs, t.ourPsbt = some ours ∧ t.theirPsbt = some theirs ∧
      (getOrderType account t = .bid → (decode ours).tx = (decode theirs).tx)

lemma JoinsInv.of_initiated {t : TradeState} (h : t.getState = .initiated) :
    JoinsInv account decode t := by
  intro _ hst
  rw [h] at hst
  simp at hst

lemma JoinsInv.congr {t t' : TradeState} (h : JoinsInv account decode t) (hf : Frame t t')
    (hst : t'.getState = .pending ∨ t'.getState = .success →
      t.getState = .pending ∨ t.getState = .success)
    (hours : t'.ourPsbt = t.ourPsbt) (htheirs : t'.theirPsbt = t.theirPsbt) :
    JoinsInv account decode t' := by
  intro hmaker hst'
  rw [hf.getRole] at hmaker
  rw [hours, htheirs, hf.getOrderType]
  exact h hmaker (hst hst')

lemma Finalises.joins (hcore : BuildsPsbts decode rawTx change E) {t : TradeState}
    {theirs ours hex : String} {tr : Conversation} {w w' : W} (hp : E.Path w tr w')
    {fin : Conversation} (hfin : Finalises account t theirs ours fin hex) (hsub : fin ⊆ tr)
    (hbid : getOrderType account t = .bid) : (decode ours).tx = (decode theirs).tx := by
  rcases hfin with ⟨hask, _⟩ | ⟨_, psbt, rfl⟩
  · rw [hbid] at hask
    simp at hask
  · obtain ⟨w₁, w₁', hcomb⟩ : ∃ w w', E w (Ev.returned (.combinepsbt [theirs, ours]) psbt) w' :=
      Env.event_of_path hp (hsub (by simp))
    rw [hcore.combines _ _ _ _ hcomb ours (by simp), hcore.combines _ _ _ _ hcomb theirs (by simp)]

lemma joinsRule (hcore : BuildsPsbts decode rawTx change E) :
    TradeRule cfg E account fun _ => JoinsInv account decode where
  blank _ := JoinsInv.of_initiated rfl
  new _ _ _ _ _ _ _ := JoinsInv.of_initiated rfl
  later _ _ _ h := h
  receives _ msg t h := by
    have hrec := @handleMessage_spec account msg t
    have hstate : (handleMessage account msg t).getState = t.getState := by
      rw [TradeState.getState, hrec.eq]
      rfl
    rcases hrec.theirPsbt with htheirs | ⟨_, hinit⟩
    · refine h.congr hrec.frame (fun hst => by rwa [← hstate]) ?_ htheirs
      rw [hrec.eq]
    · exact JoinsInv.of_initiated (hstate.trans hinit)
  replies _ _ t tr r t' w w' h _ hp hout := by
    have hno : getRole account t = .taker → JoinsInv account decode t' := by
      intro htaker hmaker
      rw [hout.frame.getRole, htaker] at hmaker
      simp at hmaker
    cases hout with
    | sendsSellerData hinit | sellerKeeps hinit | buyerOffers hinit =>
        exact JoinsInv.of_initiated hinit
    | sellerShares _ _ _ _ htaker | buyerShares _ _ _ htaker | shares _ _ htaker => exact hno htaker
    | @sellerBroadcasts tr psbt theirs tr' hex txid _ _ htheirs _ _ hfin =>
        refine fun _ _ => ⟨psbt, theirs, rfl, htheirs, hfin.joins hcore hp ?_⟩
        intro ev hev
        simp [hev]
    | @broadcasts ours theirs tr hex txid _ hours htheirs _ hfin =>
        refine fun _ _ => ⟨ours, theirs, hours, htheirs, hfin.joins hcore hp ?_⟩
        intro ev hev
        simp [hev]
    | _ => exact h
  updates _ t tr t' h hout := by
    cases hout with
    | keeps _ _ => exact h.congr ⟨rfl, rfl, rfl, rfl, rfl⟩ id rfl rfl
    | abandons _ _ =>
        intro _ hst
        simp [TradeState.getState] at hst
    | settles hpending _ _ _ =>
        exact h.congr ⟨rfl, rfl, rfl, rfl, rfl⟩ (fun _ => Or.inl hpending) rfl rfl

/-! ## Addresses -/

/-- The address that an exchange has asked the wallet for. -/
def Ev.address? : Ev → Option String
  | ⟨.clock, _⟩ => none
  | ⟨.rpc m, a⟩ =>
      match m, a with
      | .getnewaddress, (.ok addr : Except RpcError String) => some addr
      | _, _ => none

/-- The addresses that a conversation has asked the wallet for. -/
def addresses (tr : Conversation) : List String := tr.filterMap Ev.address?

@[simp] lemma addresses_append (tr tr' : Conversation) :
    addresses (tr ++ tr') = addresses tr ++ addresses tr' := List.filterMap_append

/-- The addresses that a daemon has asked its wallet for. -/
def givenAddresses (log : List Record) : List String := log.flatMap fun rec => addresses rec.talk

/-- Our seller data are the last two addresses that one section has asked for. -/
def GivesInv (account : String) (log : List Record) (t : TradeState) : Prop :=
  getOrderType account t = .ask → ∀ sd, t.sellerData = some sd →
    ∃ nameAddress chiAddress, sd.nameAddress = some nameAddress ∧ sd.chiAddress = some chiAddress ∧
      ∃ rec ∈ log, [nameAddress, chiAddress] <:+ addresses rec.talk

lemma GivesInv.mono {log log' : List Record} {t : TradeState} (h : GivesInv account log t)
    (hsub : log ⊆ log') : GivesInv account log' t := by
  intro hask sd hsd
  obtain ⟨nameAddress, chiAddress, hname, hchi, rec, hrec, hsuffix⟩ := h hask sd hsd
  exact ⟨nameAddress, chiAddress, hname, hchi, rec, hsub hrec, hsuffix⟩

lemma GivesInv.congr {log : List Record} {t t' : TradeState} (h : GivesInv account log t)
    (hf : Frame t t') (hsd : getOrderType account t = .ask → t'.sellerData = t.sellerData) :
    GivesInv account log t' := by
  intro hask
  rw [hf.getOrderType] at hask
  rw [hsd hask]
  exact h hask

lemma givesRule : TradeRule cfg E account (GivesInv account) where
  blank _ := by
    intro _ sd hsd
    simp at hsd
  new _ _ _ _ _ _ _ := by
    intro _ sd hsd
    simp [newTrade] at hsd
  later _ _ _ h := h.mono (List.subset_append_left _ _)
  receives _ msg t h := by
    have hrec := @handleMessage_spec account msg t
    refine h.congr hrec.frame fun hask => ?_
    rcases hrec.sellerData with heq | ⟨hbid, _⟩
    · exact heq
    · rw [hask] at hbid
      simp at hbid
  replies log rec t tr r t' w w' h htalk _ hout := by
    have hkeep : t'.sellerData = t.sellerData → GivesInv account (log ++ [rec]) t' := fun hsd =>
      (h.mono (List.subset_append_left _ _)).congr hout.frame fun _ => hsd
    cases hout with
    | @sendsSellerData out nameAddress chiAddress _ _ _ =>
        intro _ sd hsd
        obtain rfl := Option.some.inj hsd
        refine ⟨nameAddress, chiAddress, rfl, rfl, rec, by simp, ?_⟩
        obtain ⟨pre, hpre⟩ := htalk
        refine ⟨addresses (pre ++ lockName account out), ?_⟩
        rw [← hpre, ← List.append_assoc, addresses_append (pre ++ lockName account out)]
        rfl
    | _ => exact hkeep rfl
  updates _ t tr t' h hout := by
    refine h.congr hout.frame fun _ => ?_
    cases hout <;> rfl

/-- **Two trades in which we gave the same name address** gave the same address for the payment, if
the wallet never gives out an address twice. -/
theorem chiAddress_of_nameAddress {log : List Record} (hfresh : (givenAddresses log).Nodup)
    {rec rec' : Record} (hrec : rec ∈ log) (hrec' : rec' ∈ log) {nameAddress chi chi' : String}
    (h : [nameAddress, chi] <:+ addresses rec.talk)
    (h' : [nameAddress, chi'] <:+ addresses rec'.talk) : chi = chi' := by
  rw [givenAddresses, List.nodup_flatMap] at hfresh
  obtain ⟨_, hdisj⟩ := hfresh
  have hone : addresses rec.talk = addresses rec'.talk := by
    by_contra hne
    have hsym : Std.Symm (Function.onFun List.Disjoint fun rec : Record => addresses rec.talk) :=
      ⟨fun _ _ hd => List.disjoint_symm hd⟩
    have := hdisj.forall hrec hrec' fun heq => hne (by rw [heq])
    have hmem : nameAddress ∈ addresses rec.talk := h.subset (by simp)
    have hmem' : nameAddress ∈ addresses rec'.talk := h'.subset (by simp)
    exact this hmem hmem'
  obtain ⟨pre, hpre⟩ := h
  obtain ⟨pre', hpre'⟩ := h'
  have hend := List.append_inj_right' (hpre.trans (hone.trans hpre'.symm)) rfl
  simpa using hend

/-- **The wallet gives out an address only once.**  `used` are the addresses it has given out. -/
structure GivesFresh (used : W → Set String) (E : Env Call Answer W) : Prop where
  fresh : ∀ w addr w', E w (Ev.returned .getnewaddress addr) w' → addr ∉ used w ∧ addr ∈ used w'
  grows : ∀ w ev w', E w ev w' → used w ⊆ used w'

/-- The only exchanges with an address are those with `getnewaddress`. -/
lemma address?_some {ev : Ev} {addr : String} (h : ev.address? = some addr) :
    ev = Ev.returned .getnewaddress addr := by
  obtain ⟨c, a⟩ := ev
  cases c with
  | clock => simp [Ev.address?] at h
  | rpc m =>
      cases m with
      | getnewaddress =>
          cases ha : (a : Except RpcError String) with
          | error e =>
              subst ha
              simp [Ev.address?] at h
          | ok addr' =>
              subst ha
              obtain rfl : addr' = addr := Option.some.inj h
              rfl
      | _ => simp [Ev.address?] at h

lemma GivesFresh.path {used : W → Set String} (h : GivesFresh used E) :
    ∀ {tr : Conversation} {w w' : W}, E.Path w tr w' → used w ⊆ used w' ∧ (addresses tr).Nodup ∧
      ∀ addr ∈ addresses tr, addr ∉ used w ∧ addr ∈ used w'
  | [], w, w', hp => by
      rw [Env.path_nil] at hp
      subst hp
      exact ⟨subset_rfl, List.nodup_nil, by simp [addresses]⟩
  | ev :: tr, w, w', hp => by
      obtain ⟨w₁, he, hp⟩ := hp
      obtain ⟨hsub, hnodup, hall⟩ := h.path hp
      have hgrow := h.grows w ev w₁ he
      have hlater : ∀ addr ∈ addresses tr, addr ∉ used w ∧ addr ∈ used w' := fun addr ha =>
        ⟨fun hu => (hall addr ha).1 (hgrow hu), (hall addr ha).2⟩
      refine ⟨hgrow.trans hsub, ?_⟩
      cases hev : ev.address? with
      | none =>
          rw [addresses, List.filterMap_cons_none hev]
          exact ⟨hnodup, hlater⟩
      | some addr =>
          rw [addresses, List.filterMap_cons_some hev]
          obtain rfl := address?_some hev
          obtain ⟨hnew, hused⟩ := h.fresh w addr w₁ he
          refine ⟨List.nodup_cons.mpr ⟨fun hm => (hall addr hm).1 hused, hnodup⟩, fun a ha => ?_⟩
          rcases List.mem_cons.mp ha with rfl | ha
          · exact ⟨hnew, hsub hused⟩
          · exact hlater a ha

/-- **No address is given out twice** in a run. -/
theorem reachable_givenAddresses {used : W → Set String} (hfresh : GivesFresh used E) {x : Sys × W}
    (h : (system cfg E account).Reachable x) : (givenAddresses x.1.log).Nodup := by
  refine (Transition.System.Reachable.invariant (fun x => (givenAddresses x.1.log).Nodup ∧
    ∀ addr ∈ givenAddresses x.1.log, addr ∈ used x.2) ?_ ?_ h).1
  · intro x hx
    rw [hx]
    simp [Sys.start, givenAddresses]
  · rintro x l x' _ ⟨hnodup, hused⟩ ⟨hs, hp⟩
    obtain ⟨hsub, hnew, hall⟩ := hfresh.path hp
    have hgiven : givenAddresses x'.1.log = givenAddresses x.1.log ++ addresses l.talk := by
      rw [log_of_step hs]
      cases l <;> simp [givenAddresses, Label.news, Label.talk, addresses]
    rw [hgiven]
    refine ⟨List.nodup_append'.mpr ⟨hnodup, hnew, fun a ha ha' => (hall a ha').1 (hused a ha)⟩,
      fun a ha => ?_⟩
    rcases List.mem_append.mp ha with ha | ha
    · exact hsub (hused a ha)
    · exact (hall a ha).2

end Democrit
