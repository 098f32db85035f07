import Democrit.Spec.Trade
import Democrit.TradeManager

/-!
# What a critical section of `TradeManager` can do

The list of outcomes for each of `TakeOrder`, `OrderTaken`, `ProcessMessage` and
`UpdateAndArchiveTrades`, with what `HasReply` and `Update` did inside of them.  The state after a
section is written as the state before it with the changes made, so that everything not mentioned
is unchanged by construction.
-/

namespace Democrit

open Interaction

variable {cfg : Config}

/-! ## New trades -/

/-- A trade as `TakeOrder` and `OrderTaken` create it. -/
def newTrade (o : Order) (units : Amount) (counterparty : String) (now : Int64) (serial : ℕ) :
    TradeState :=
  { order := o, startTime := now, units := units.toUInt64, counterparty, state := some .initiated,
    serial }

/-- How `TakeOrder` can end. -/
inductive TakeOrder.Outcome (cfg : Config) (s : State) (o : Order) (units : Amount) :
    Conversation → Except Fail (Option ProcessingMessage) → State → Prop
  | refused {tr} (hq : Quiet tr) : Outcome cfg s o units tr (.ok none) s
  /-- A call failed, and the trade is forgotten. -/
  | failed {now tr e pb' r} (hcheck : checkOrder o units = true)
      (hown : o.getAccount ≠ s.account)
      (h : HasReply.Outcome cfg s.account (newTrade o units o.getAccount now (s.created + 1)) tr
        (.error e) pb')
      (hr : e = .exception ∧ r = .ok none ∨ ∃ c, e = .check c ∧ r = .error (.check c)) :
      Outcome cfg s o units (⟨.clock, now⟩ :: tr) r s
  | created {now tr reply pb'} (hcheck : checkOrder o units = true)
      (hown : o.getAccount ≠ s.account)
      (h : HasReply.Outcome cfg s.account (newTrade o units o.getAccount now (s.created + 1)) tr
        (.ok reply) pb') :
      Outcome cfg s o units (⟨.clock, now⟩ :: tr)
        (.ok (some (setTakingOrder pb' (reply.getD (initProcessingMessage pb')))))
        { s with trades := s.trades ++ [pb'], created := s.created + 1 }

theorem takeOrder_spec (s : State) (o : Order) (units : Amount) :
    (takeOrder cfg o units).wp s (TakeOrder.Outcome cfg s o units) := by
  simp only [takeOrder]
  split
  · exact .refused (by simp)
  · rename_i hcheck
    have hcheck : checkOrder o units = true := by simpa using hcheck
    simp only [Act.wp_bind, wp_getCurrentTime, Act.afterBind_ok, Act.wp_read]
    intro now
    split
    · exact .refused (by simp [Ev.quiet])
    · rename_i hown
      simp only [Act.wp_bind, Act.wp_on]
      refine Act.wp_mono (hasReply_spec _) fun tr r pb' h => ?_
      cases r with
      | error e =>
          cases e with
          | exception =>
              have : TakeOrder.Outcome cfg s o units (⟨.clock, now⟩ :: tr) (.ok none) s :=
                .failed hcheck hown h (Or.inl ⟨rfl, rfl⟩)
              simpa using this
          | check c =>
              have : TakeOrder.Outcome cfg s o units (⟨.clock, now⟩ :: tr) (.error (.check c)) s :=
                .failed hcheck hown h (Or.inr ⟨c, rfl, rfl⟩)
              simpa using this
      | ok reply =>
          have := TakeOrder.Outcome.created hcheck hown h
          simpa using this

/-- How `OrderTaken` can end. -/
inductive OrderTaken.Outcome (s : State) (o : Order) (units : Amount) (counterparty : String) :
    Conversation → Except Fail Bool → State → Prop
  | refused {tr} (hq : Quiet tr) : Outcome s o units counterparty tr (.ok false) s
  | foreign {tr} (hq : Quiet tr) (hforeign : o.getAccount ≠ s.account) :
      Outcome s o units counterparty tr (.error (.check .ownAccount)) s
  | created {now} (hcheck : checkOrder o units = true) (hown : o.getAccount = s.account)
      (hother : counterparty ≠ s.account) :
      Outcome s o units counterparty [⟨.clock, now⟩] (.ok true)
        { s with trades := s.trades ++ [newTrade o units counterparty now (s.created + 1)],
                 created := s.created + 1 }

theorem orderTaken_spec (s : State) (o : Order) (units : Amount) (counterparty : String) :
    (orderTaken o units counterparty).wp s (OrderTaken.Outcome s o units counterparty) := by
  simp only [orderTaken]
  split
  · exact .refused (by simp)
  · rename_i hcheck
    simp only [Act.wp_bind, wp_getCurrentTime, Act.afterBind_ok, Act.wp_read, wp_check,
      Act.afterBind_error]
    intro now
    refine ⟨fun hown => ?_, fun hforeign => .foreign (by simp [Ev.quiet]) (by simpa using hforeign)⟩
    split
    · exact .refused (by simp [Ev.quiet])
    · rename_i hother
      exact .created (by simpa using hcheck) (by simpa using hown) hother

/-! ## `ProcessMessage` -/

/-- What remains of how `HasReply` ended once exceptions are caught. -/
def caught : Except Fail (Option ProcessingMessage) → Option ProcessingMessage
  | .ok reply => reply
  | .error _ => none

/-- How the loop of `ProcessMessage` can end. -/
inductive ProcessLoop.Outcome (cfg : Config) (account : String) (msg : ProcessingMessage) :
    List TradeState → Conversation →
      Except Fail (List TradeState × Option ProcessingMessage) → Prop
  | noMatch {ts} (h : ∀ t ∈ ts, tradeMatches msg t = false) :
      Outcome cfg account msg ts [] (.ok (ts, none))
  | processed {before t after tr r t'} (hb : ∀ x ∈ before, tradeMatches msg x = false)
      (hm : tradeMatches msg t = true)
      (h : HasReply.Outcome cfg account (handleMessage account msg t) tr r t')
      (hr : ∀ c, r ≠ .error (.check c)) :
      Outcome cfg account msg (before ++ t :: after) tr (.ok (before ++ t' :: after, caught r))
  | aborted {before t after tr c t'} (hb : ∀ x ∈ before, tradeMatches msg x = false)
      (hm : tradeMatches msg t = true)
      (h : HasReply.Outcome cfg account (handleMessage account msg t) tr (.error (.check c)) t') :
      Outcome cfg account msg (before ++ t :: after) tr (.error (.check c))

private lemma processTrade_spec (account : String) (msg : ProcessingMessage) (t : TradeState) :
    (processTrade cfg account msg).wp t
      (HasReply.Outcome cfg account (handleMessage account msg t)) := by
  simp only [processTrade, Act.wp_bind, Act.wp_read, Act.afterBind_ok, Act.wp_write, List.nil_append]
  exact hasReply_spec _

lemma processLoop_spec (account : String) (msg : ProcessingMessage) {u : Unit} :
    ∀ ts : List TradeState, (processLoop cfg account msg ts).wp u fun tr r _ =>
      ProcessLoop.Outcome cfg account msg ts tr r
  | [] => .noMatch (by simp)
  | t :: rest => by
      rw [processLoop]
      split
      · rename_i hm
        simp only [Act.wp_bind, Act.wp_on]
        refine Act.wp_mono (processTrade_spec account msg t) fun tr r t' h => ?_
        have hb : ∀ x ∈ ([] : List TradeState), tradeMatches msg x = false := by simp
        cases r with
        | ok reply =>
            have : ProcessLoop.Outcome cfg account msg ([] ++ t :: rest) tr _ :=
              .processed hb hm h (by simp)
            simpa [caught] using this
        | error e =>
            cases e with
            | exception =>
                have : ProcessLoop.Outcome cfg account msg ([] ++ t :: rest) tr _ :=
                  .processed hb hm h (by simp)
                simpa [caught] using this
            | check c =>
                have : ProcessLoop.Outcome cfg account msg ([] ++ t :: rest) tr _ :=
                  .aborted hb hm h
                simpa using this
      · rename_i hm
        have hm : tradeMatches msg t = false := by simpa using hm
        simp only [Act.wp_bind]
        refine Act.wp_mono (processLoop_spec account msg rest) fun tr r _ h => ?_
        cases h with
        | noMatch h => exact .noMatch (List.forall_mem_cons.mpr ⟨hm, h⟩)
        | @processed before t₀ after _ r t' hb hm' h hr =>
            have : ProcessLoop.Outcome cfg account msg ((t :: before) ++ t₀ :: after) tr _ :=
              .processed (List.forall_mem_cons.mpr ⟨hm, hb⟩) hm' h hr
            simpa using this
        | @aborted before t₀ after _ c t' hb hm' h =>
            have : ProcessLoop.Outcome cfg account msg ((t :: before) ++ t₀ :: after) tr _ :=
              .aborted (List.forall_mem_cons.mpr ⟨hm, hb⟩) hm' h
            simpa using this

/-- How the last section of `ProcessMessage` can end. -/
inductive ProcessMessage.Outcome (cfg : Config) (s : State) (msg : ProcessingMessage) :
    Conversation → Except Fail (Option ProcessingMessage) → State → Prop
  | noMatch (h : ∀ t ∈ s.trades, tradeMatches msg t = false) : Outcome cfg s msg [] (.ok none) s
  /-- The first trade that matches is the one that is processed. -/
  | processed {before t after tr r t'} (hs : s.trades = before ++ t :: after)
      (hb : ∀ x ∈ before, tradeMatches msg x = false) (hm : tradeMatches msg t = true)
      (h : HasReply.Outcome cfg s.account (handleMessage s.account msg t) tr r t')
      (hr : ∀ c, r ≠ .error (.check c)) :
      Outcome cfg s msg tr (.ok (caught r)) { s with trades := before ++ t' :: after }
  | aborted {before t after tr c t'} (hs : s.trades = before ++ t :: after)
      (hb : ∀ x ∈ before, tradeMatches msg x = false) (hm : tradeMatches msg t = true)
      (h : HasReply.Outcome cfg s.account (handleMessage s.account msg t) tr (.error (.check c)) t') :
      Outcome cfg s msg tr (.error (.check c)) s

theorem processMessage_spec (s : State) (msg : ProcessingMessage) :
    (processMessage cfg msg).wp s (ProcessMessage.Outcome cfg s msg) := by
  simp only [processMessage, Act.wp_bind, Act.wp_read, Act.afterBind_ok, Act.wp_monadLift]
  refine Act.wp_mono (processLoop_spec s.account msg s.trades) fun tr r _ h => ?_
  generalize hts : s.trades = ts at h
  cases h with
  | noMatch h =>
      have : ProcessMessage.Outcome cfg s msg [] (.ok none) s := .noMatch (by rwa [hts])
      simpa [← hts] using this
  | processed hb hm h hr =>
      have := ProcessMessage.Outcome.processed hts hb hm h hr
      simpa using this
  | aborted hb hm h =>
      have := ProcessMessage.Outcome.aborted hts hb hm h
      simpa using this

/-! ## `UpdateAndArchiveTrades` -/

/-- How the section of `UpdateAndArchiveTrades` can end.  `us` are the trades before and after their
update, in order. -/
inductive UpdateTrades.Outcome (s : State) :
    Conversation → Except Fail (List TradeState) → State → Prop
  | done {tr} {us : List (TradeState × TradeState)} (hs : s.trades = us.map Prod.fst)
      (hu : ∀ p ∈ us, ∃ tr, Update.Outcome p.1 tr (.ok ()) p.2) (hq : Quiet tr) :
      Outcome s tr (.ok ((us.map Prod.snd).filter isFinalised))
        { s with
          trades := (us.map Prod.snd).filter fun t => !isFinalised t
          tradeArchive := s.tradeArchive
            ++ ((us.map Prod.snd).filter isFinalised).map (getPublicInfo s.account) }
  /-- An update failed; what was moved from before is lost. -/
  | failed {tr e before t after archive} (hs : s.trades = before ++ t :: after) (hq : Quiet tr) :
      Outcome s tr (.error e)
        { s with trades := List.replicate before.length {} ++ t :: after, tradeArchive := archive }

/-- The updates of these trades went through, one after the other, and led to those. -/
inductive Updates (cfg : Config) : List TradeState → Conversation → List TradeState → Prop
  | nil : Updates cfg [] [] []
  | cons {t t' rest rest' tr tr'} (hx : (updateTrade cfg t).Exec tr (.ok (), t'))
      (h : Updates cfg rest tr' rest') : Updates cfg (t :: rest) (tr ++ tr') (t' :: rest')

lemma Updates.length {before now : List TradeState} {tr : Conversation}
    (h : Updates cfg before tr now) : before.length = now.length := by
  induction h with
  | nil => rfl
  | cons _ _ ih => rw [List.length_cons, List.length_cons, ih]

lemma quiet_updateTrade {t t' : TradeState} {tr : Conversation} {r : Except Fail Unit}
    (hx : (updateTrade cfg t).Exec tr (r, t')) : Quiet tr := by
  cases Act.wp_iff.mp (updateTrade_spec t) tr _ _ hx <;> assumption

lemma Updates.quiet {before now : List TradeState} {tr : Conversation}
    (h : Updates cfg before tr now) : Quiet tr := by
  induction h with
  | nil => simp
  | cons hx _ ih => simp [quiet_updateTrade hx, ih]

/-- The trades before and after their updates, in pairs. -/
lemma Updates.pairs {before now : List TradeState} {tr : Conversation}
    (h : Updates cfg before tr now) :
    ∃ us : List (TradeState × TradeState), before = us.map Prod.fst ∧ now = us.map Prod.snd ∧
      ∀ p ∈ us, ∃ tr, (updateTrade cfg p.1).Exec tr (.ok (), p.2) := by
  induction h with
  | nil => exact ⟨[], rfl, rfl, by simp⟩
  | @cons t t' _ _ tr _ hx _ ih =>
      obtain ⟨us, rfl, rfl, hu⟩ := ih
      exact ⟨(t, t') :: us, rfl, rfl, List.forall_mem_cons.mpr ⟨⟨tr, hx⟩, hu⟩⟩

/-- An update that throws leaves the trade alone. -/
lemma unchanged_of_throws {t t' : TradeState} {tr : Conversation} {e : Fail}
    (hx : (updateTrade cfg t).Exec tr (.error e, t')) : t' = t := by
  have h := Act.wp_iff.mp (updateTrade_spec t) tr _ _ hx
  cases h
  rfl

/-- How the loop can end: after the last trade, or at one whose update fails. -/
inductive UpdateLoop.Outcome (cfg : Config) (s : State)
    (done todo stillActive finalised : List TradeState) :
    Conversation → Except Fail (List TradeState) → State → Prop
  | through {tr now} (h : Updates cfg todo tr now) :
      Outcome cfg s done todo stillActive finalised tr (.ok (finalised ++ now.filter isFinalised))
        { s with
          trades := stillActive ++ now.filter fun t => !isFinalised t
          tradeArchive := s.tradeArchive
            ++ (now.filter isFinalised).map (getPublicInfo s.account) }
  | fails {before now tr₁ t after tr₂ e} (htodo : todo = before ++ t :: after)
      (h : Updates cfg before tr₁ now) (hx : (updateTrade cfg t).Exec tr₂ (.error e, t)) :
      Outcome cfg s done todo stillActive finalised (tr₁ ++ tr₂) (.error e)
        { s with
          trades := done ++ List.replicate now.length ({} : TradeState) ++ t :: after
          tradeArchive := s.tradeArchive
            ++ (now.filter isFinalised).map (getPublicInfo s.account) }

/-- One more trade before the others, kept or archived. -/
lemma UpdateLoop.Outcome.cons {s s' : State} {done todo stillActive finalised : List TradeState}
    {t t' : TradeState} {tr tr' : Conversation} {r : Except Fail (List TradeState)}
    (hx : (updateTrade cfg t).Exec tr (.ok (), t'))
    (h : UpdateLoop.Outcome cfg
      { s with tradeArchive :=
          s.tradeArchive ++ ([t'].filter isFinalised).map (getPublicInfo s.account) }
      (done ++ [({} : TradeState)]) todo (stillActive ++ [t'].filter fun t => !isFinalised t)
      (finalised ++ [t'].filter isFinalised) tr' r s') :
    UpdateLoop.Outcome cfg s done (t :: todo) stillActive finalised (tr ++ tr') r s' := by
  have hsplit : ∀ (P : TradeState → Bool) (l : List TradeState),
      (t' :: l).filter P = [t'].filter P ++ l.filter P := fun P l => List.filter_append [t'] l
  cases h with
  | @through tr' now h =>
      have hcons := @UpdateLoop.Outcome.through cfg s done (t :: todo) stillActive finalised _ _
        (.cons hx h)
      simpa only [hsplit _ now, List.map_append, List.append_assoc] using hcons
  | @fails before now tr₁ t₁ after tr₂ e htodo h hfail =>
      have hcons := @UpdateLoop.Outcome.fails cfg s done (t :: todo) stillActive finalised
        (t :: before) (t' :: now) (tr ++ tr₁) t₁ after tr₂ e (by rw [htodo, List.cons_append])
        (.cons hx h) hfail
      simpa only [hsplit _ now, List.map_append, List.append_assoc, List.length_cons,
        List.replicate_succ, List.cons_append, List.nil_append] using hcons

/-- **The loop of `UpdateAndArchiveTrades`.** -/
lemma updateLoop_spec :
    ∀ (todo done stillActive finalised : List TradeState) (s : State),
      (updateLoop cfg done todo stillActive finalised).wp s
        (UpdateLoop.Outcome cfg s done todo stillActive finalised)
  | [], done, stillActive, finalised, s => by
      simp only [updateLoop, Act.wp_bind, Act.wp_read, Act.afterBind_ok, Act.wp_write, Act.wp_pure]
      have hend := @UpdateLoop.Outcome.through cfg s done [] stillActive finalised _ _ .nil
      simpa using hend
  | t :: todo, done, stillActive, finalised, s => by
      simp only [updateLoop, Act.wp_bind, Act.wp_on]
      refine Act.wp_iff.mpr fun tr r t' hx => ?_
      rcases r with e | v
      · obtain rfl := unchanged_of_throws hx
        have hfail := @UpdateLoop.Outcome.fails cfg s done (t' :: todo) stillActive finalised [] []
          [] t' todo tr e rfl .nil hx
        simpa [Act.wp_bind] using hfail
      · simp only [Act.afterBind_ok, Act.wp_bind, Act.wp_read]
        cases hfin : isFinalised t' with
        | true =>
            simp only [if_true, Act.wp_bind, Act.wp_write, Act.afterBind_ok]
            refine Act.wp_mono (updateLoop_spec todo _ _ _ _) fun tr' r s' h => ?_
            have hcons := @UpdateLoop.Outcome.cons cfg s s' done todo stillActive finalised t t' tr
              tr' r hx (by simpa [hfin] using h)
            simpa using hcons
        | false =>
            simp only [Bool.false_eq_true, if_false]
            refine Act.wp_mono (updateLoop_spec todo _ _ _ _) fun tr' r s' h => ?_
            have hcons := @UpdateLoop.Outcome.cons cfg s s' done todo stillActive finalised t t' tr
              tr' r hx (by simpa [hfin] using h)
            simpa using hcons

/-- The same for the whole section. -/
lemma updateTrades_ends (s : State) :
    (updateTrades cfg).wp s (UpdateLoop.Outcome cfg s [] s.trades [] []) := by
  simp only [updateTrades, Act.wp_bind, Act.wp_read, Act.afterBind_ok]
  exact updateLoop_spec s.trades [] [] [] s

theorem updateTrades_spec (s : State) :
    (updateTrades cfg).wp s (UpdateTrades.Outcome s) := by
  refine Act.wp_mono (updateTrades_ends s) fun tr r s' h => ?_
  generalize htrades : s.trades = todo at h
  cases h with
  | through h =>
      obtain ⟨us, rfl, rfl, hu⟩ := h.pairs
      refine .done htrades (fun p hp => ?_) h.quiet
      obtain ⟨tr, hx⟩ := hu p hp
      exact ⟨tr, Act.wp_iff.mp (updateTrade_spec p.1) tr _ _ hx⟩
  | fails htodo h hx =>
      rw [← h.length, List.nil_append]
      exact .failed (htrades.trans htodo) (by simp [h.quiet, quiet_updateTrade hx])

end Democrit
