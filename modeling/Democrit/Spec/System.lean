import Democrit.Spec.TradeManager
import Democrit.System

/-!
# What a critical section does to the trades

`Section` lists what any section of any thread can do to the trades and to the wallet, with the
sections that only concern orders collapsed into one case (`idle`).  Statements about trades are
case analyses over this list.

`TradeRule` is the resulting induction rule for facts about single trades: a fact that new trades
have, and that `HandleMessage`, `HasReply` and `Update` keep, holds of every trade in every run,
including the finalised ones that are still being handled.
-/

namespace Democrit

open Interaction

variable {cfg : Config}

/-! ## Sections -/

/-- Nothing about trades changed. -/
structure SameTrades (s s' : State) : Prop where
  account : s'.account = s.account
  trades : s'.trades = s.trades
  created : s'.created = s.created
  archive : s'.tradeArchive = s.tradeArchive

lemma SameTrades.refl (s : State) : SameTrades s s := ⟨rfl, rfl, rfl, rfl⟩

lemma SameTrades.trans {s₁ s₂ s₃ : State} (h : SameTrades s₁ s₂) (h' : SameTrades s₂ s₃) :
    SameTrades s₁ s₃ :=
  ⟨h'.account.trans h.account, h'.trades.trans h.trades, h'.created.trans h.created,
    h'.archive.trans h.archive⟩

/-- The tasks of `UpdateAndArchiveTrades`. -/
def Task.updating : Task → Prop
  | .updateTrades | .handle _ | .readInputs _ | .unlockOutput _ _ => True
  | _ => False

/-- The section had no part in `UpdateAndArchiveTrades`. -/
structure Unrelated (r : Except Fail Effect) : Prop where
  reply : ∀ eff, r = .ok eff → eff.reply = none
  next : ∀ eff, r = .ok eff → ∀ x ∈ eff.next, ¬ x.updating

/-- **Everything a section can do to the trades.** -/
inductive Section (cfg : Config) (s : State) :
    Task → Conversation → Except Fail Effect → State → Prop
  | idle {task tr r s'} (hs : SameTrades s s') (hq : Quiet tr) (hr : Unrelated r)
      (hfail : task.updating → ∃ e, r = .error e) : Section cfg s task tr r s'
  | orderTaken {o taking msg now} (hcheck : checkOrder o taking.units.toInt64 = true)
      (hown : o.getAccount = s.account) (hother : msg.counterparty.getD "" ≠ s.account) :
      Section cfg s (.orderTaken o taking msg) [⟨.clock, now⟩] (.ok { next := [.process msg] })
        { s with
          trades := s.trades ++ [newTrade o taking.units.toInt64 (msg.counterparty.getD "") now
            (s.created + 1)]
          created := s.created + 1 }
  | takeFailed {o units now tr e pb' r} (hcheck : checkOrder o units = true)
      (hown : o.getAccount ≠ s.account)
      (h : HasReply.Outcome cfg s.account (newTrade o units o.getAccount now (s.created + 1)) tr
        (.error e) pb')
      (hr : e = .exception ∧ r = .ok {} ∨ ∃ c, e = .check c ∧ r = .error (.check c)) :
      Section cfg s (.takeOrder o units) (⟨.clock, now⟩ :: tr) r s
  | takeCreated {o units now tr reply pb'} (hcheck : checkOrder o units = true)
      (hown : o.getAccount ≠ s.account)
      (h : HasReply.Outcome cfg s.account (newTrade o units o.getAccount now (s.created + 1)) tr
        (.ok reply) pb') :
      Section cfg s (.takeOrder o units) (⟨.clock, now⟩ :: tr)
        (.ok { reply := some (setTakingOrder pb' (reply.getD (initProcessingMessage pb'))) })
        { s with trades := s.trades ++ [pb'], created := s.created + 1 }
  | processed {msg before t after tr r t'} (hs : s.trades = before ++ t :: after)
      (hb : ∀ x ∈ before, tradeMatches msg x = false) (hm : tradeMatches msg t = true)
      (h : HasReply.Outcome cfg s.account (handleMessage s.account msg t) tr r t')
      (hr : ∀ c, r ≠ .error (.check c)) :
      Section cfg s (.process msg) tr (.ok { reply := caught r })
        { s with trades := before ++ t' :: after }
  | aborted {msg before t after tr c t'} (hs : s.trades = before ++ t :: after)
      (hm : tradeMatches msg t = true)
      (h : HasReply.Outcome cfg s.account (handleMessage s.account msg t) tr (.error (.check c)) t') :
      Section cfg s (.process msg) tr (.error (.check c)) s
  | updated {tr} {us : List (TradeState × TradeState)} (hs : s.trades = us.map Prod.fst)
      (hu : ∀ p ∈ us, ∃ tr, Update.Outcome p.1 tr (.ok ()) p.2) (hq : Quiet tr) :
      Section cfg s .updateTrades tr
        (.ok { next := ((us.map Prod.snd).filter isFinalised).map .handle })
        { s with
          trades := (us.map Prod.snd).filter fun t => !isFinalised t
          tradeArchive := s.tradeArchive
            ++ ((us.map Prod.snd).filter isFinalised).map (getPublicInfo s.account) }
  | updateFailed {tr e before t after archive} (hs : s.trades = before ++ t :: after)
      (hq : Quiet tr) :
      Section cfg s .updateTrades tr (.error e)
        { s with trades := List.replicate before.length {} ++ t :: after, tradeArchive := archive }
  | succeeded {t eff s'} (hst : t.getState = .success) (hs : SameTrades s s')
      (hr : Unrelated (.ok eff)) : Section cfg s (.handle t) [] (.ok eff) s'
  /-- A trade that did not succeed: what it had locked is to be released. -/
  | unsuccessful {t pre s'} (hst : t.getState = .abandoned ∨ t.getState = .failed)
      (hs : SameTrades s s') (hpre : ∀ x ∈ pre, ¬ Task.updating x) :
      Section cfg s (.handle t) [] (.ok { next := pre ++ releaseTasks s.account t }) s'
  | readInputs {t decoded} :
      Section cfg s (.readInputs t) [Ev.returned (.decodepsbt (t.ourPsbt.getD "")) decoded]
        (.ok { next := decoded.tx.vin.map (.unlockOutput t) }) s
  | unlockOutput {t out} (a : Answer (.rpc (.lockunspent true [out]))) :
      Section cfg s (.unlockOutput t out) [⟨.rpc (.lockunspent true [out]), a⟩] (.ok {}) s

/-! ## Sections that concern orders only -/

section

variable {s : State}

lemma validateOrder_quiet (account : String) (o : Order) {u : Unit} :
    (validateOrder account o).wp u fun tr _ _ => Quiet tr := by
  simp only [validateOrder]
  split
  · simp
  · simp only [Act.wp_bind, wp_rpc, Act.afterBind_ok, Act.afterBind_error]
    refine ⟨fun valid => ?_, by simp, by simp⟩
    cases valid with
    | false => simp [Ev.quiet]
    | true =>
        simp only [Bool.not_true, Bool.false_eq_true, if_false]
        cases o.getType with
        | bid =>
            simp only [Act.wp_bind, wp_rpc, Act.afterBind_ok, Act.afterBind_error]
            refine ⟨fun b => ?_, by simp [Ev.quiet], by simp [Ev.quiet]⟩
            cases b <;> simp [Ev.quiet]
        | ask =>
            simp only [Act.wp_bind, wp_rpc, Act.afterBind_ok, Act.afterBind_error]
            refine ⟨fun b => ?_, by simp [Ev.quiet], by simp [Ev.quiet]⟩
            cases b <;> simp [Ev.quiet]

/-- An operation that leaves the trades and the wallet alone. -/
def LeavesTrades {α : Type} (m : M State α) : Prop :=
  ∀ s, m.wp s fun tr _ s' => SameTrades s s' ∧ Quiet tr

lemma refreshLoop_leaves :
    ∀ (entries : List ((_ : UInt64) × Order)) (updated : OrderMap),
      LeavesTrades (refreshLoop entries updated)
  | [], updated => fun s => ⟨.refl s, by simp⟩
  | ⟨id, o⟩ :: rest, updated => fun s => by
      simp only [refreshLoop, Act.wp_bind, Act.wp_read, Act.afterBind_ok, Act.wp_monadLift]
      refine Act.wp_mono (validateOrder_quiet s.account o) fun tr r _ hq => ?_
      cases r with
      | error e => exact ⟨.refl s, by simpa using hq⟩
      | ok valid =>
          cases valid with
          | false =>
              simp only [Act.afterBind_ok, Bool.false_eq_true, if_false]
              refine Act.wp_mono (refreshLoop_leaves rest _ s) fun tr' r' s' h => ?_
              exact ⟨h.1, by simp [hq, h.2]⟩
          | true =>
              simp only [Act.afterBind_ok, if_true, Act.wp_bind, Act.wp_write]
              refine Act.wp_mono (refreshLoop_leaves rest _ _) fun tr' r' s' h => ?_
              exact ⟨⟨h.1.account, h.1.trades, h.1.created, h.1.archive⟩, by simp [hq, h.2]⟩

lemma runRefresh_leaves : LeavesTrades runRefresh := fun s => by
  simp only [runRefresh, Act.wp_bind, Act.wp_read, Act.afterBind_ok]
  refine Act.wp_mono (refreshLoop_leaves _ _ s) fun tr r s' h => ?_
  cases r with
  | error e => exact ⟨h.1, by simpa using h.2⟩
  | ok updated =>
      simp only [Act.afterBind_ok, Act.wp_bind, Act.wp_read, Act.wp_write]
      exact ⟨⟨h.1.account, h.1.trades, h.1.created, h.1.archive⟩, by simpa using h.2⟩

lemma addOwnOrder_leaves (o : Order) : LeavesTrades (addOwnOrder o) := fun s => by
  simp only [addOwnOrder, Act.wp_bind, Act.wp_read, Act.afterBind_ok, Act.wp_monadLift]
  refine Act.wp_mono (validateOrder_quiet s.account o) fun tr r _ hq => ?_
  cases r with
  | error e => exact ⟨.refl s, by simpa using hq⟩
  | ok valid => cases valid <;> exact ⟨⟨rfl, rfl, rfl, rfl⟩, by simpa using hq⟩

lemma tryLock_leaves (id : UInt64) : LeavesTrades (tryLock id) := fun s => by
  simp only [tryLock, Act.wp_bind, Act.wp_read, Act.afterBind_ok]
  cases s.ownOrders.lookup id with
  | none => exact ⟨.refl s, by simp⟩
  | some o =>
      dsimp only
      split
      · exact ⟨.refl s, by simp⟩
      · exact ⟨⟨rfl, rfl, rfl, rfl⟩, by simp⟩

/-- Unlocking an order is silent, and either succeeds or fails an assertion. -/
lemma unlock_leaves (id : UInt64) (s : State) :
    (unlock id).wp s fun tr r s' => SameTrades s s' ∧ tr = [] ∧ (r = .ok () ∨ ∃ e, r = .error e) := by
  simp only [unlock, Act.wp_bind, Act.wp_read, Act.afterBind_ok]
  cases s.ownOrders.lookup id with
  | none => exact ⟨.refl s, rfl, Or.inr ⟨_, rfl⟩⟩
  | some o =>
      rw [Act.wp_bind, wp_check]
      exact ⟨fun _ => ⟨⟨rfl, rfl, rfl, rfl⟩, rfl, Or.inl rfl⟩,
        fun _ => ⟨.refl s, rfl, Or.inr ⟨_, rfl⟩⟩⟩

lemma refreshTasks_not_updating : ∀ x ∈ refreshTasks, ¬ Task.updating x := by
  intro x hx
  simp only [refreshTasks, List.mem_cons, List.not_mem_nil, or_false] at hx
  rcases hx with rfl | rfl <;> exact id

lemma Unrelated.error (e : Fail) : Unrelated (.error e) := ⟨by simp, by simp⟩

lemma Unrelated.tasks {tasks : List Task} (h : ∀ x ∈ tasks, ¬ Task.updating x) :
    Unrelated (.ok { next := tasks }) := by
  constructor
  · rintro _ ⟨⟩
    rfl
  · rintro _ ⟨⟩
    exact h

lemma Unrelated.nothing : Unrelated (.ok {}) := .tasks (by simp)

lemma Unrelated.refresh : Unrelated (.ok { next := refreshTasks }) := .tasks refreshTasks_not_updating

/-- A section that first leaves the trades alone and then only says what comes next. -/
private lemma idle_of_leaves {α : Type} {m : M State α} (hm : LeavesTrades m) {f : α → M State Effect}
    {task : Task} (htask : ¬ task.updating)
    (hf : ∀ a s, ∃ eff : Effect, f a s = .pure (.ok eff, s) ∧ Unrelated (.ok eff)) (s : State) :
    (m >>= f).wp s (Section cfg s task) := by
  simp only [Act.wp_bind]
  refine Act.wp_mono (hm s) fun tr r s' h => ?_
  obtain ⟨hs, hq⟩ := h
  cases r with
  | error e => exact .idle hs hq (.error e) (fun h => absurd h htask)
  | ok a =>
      obtain ⟨eff, heq, hr⟩ := hf a s'
      simp only [Act.afterBind_ok, Act.wp, heq, Prog.all_pure, List.append_nil]
      exact .idle hs hq hr (fun h => absurd h htask)

end

/-! ## The list is complete -/

private lemma receive_spec (s : State) (msg : ProcessingMessage) :
    (receive msg).wp s (Section cfg s (.receive msg)) := by
  have htask : ¬ (Task.receive msg).updating := id
  simp only [receive, Act.wp_bind, wp_check, Act.afterBind_ok, Act.afterBind_error]
  refine ⟨fun _ => ?_, fun _ => .idle (.refl s) (by simp) (.error _) (fun h => absurd h htask)⟩
  cases msg.takingOrder with
  | none =>
      refine .idle (.refl s) (by simp) (.tasks ?_) (fun h => absurd h htask)
      intro x hx
      rw [List.mem_singleton.mp hx]
      exact id
  | some taking =>
      simp only [Act.wp_bind]
      refine Act.wp_mono (tryLock_leaves taking.id s) fun tr r s' h => ?_
      obtain ⟨hs, hq⟩ := h
      cases r with
      | error e => exact .idle hs (by simpa using hq) (.error e) (fun h => absurd h htask)
      | ok o =>
          cases o with
          | none => exact .idle hs (by simpa using hq) .nothing (fun h => absurd h htask)
          | some o =>
              refine .idle hs (by simpa using hq) (.tasks ?_) (fun h => absurd h htask)
              intro x hx
              rcases List.mem_append.mp hx with hx | hx
              · exact refreshTasks_not_updating x hx
              · rw [List.mem_singleton.mp hx]
                exact id

private lemma handleFinalised_spec (s : State) (t : TradeState) :
    (handleFinalised t).wp s (Section cfg s (.handle t)) := by
  have failing : ∀ (tr : Conversation) (e : Fail) (s' : State), SameTrades s s' → Quiet tr →
      Section cfg s (.handle t) tr (.error e) s' :=
    fun tr e s' hs hq => .idle hs hq (.error e) (fun _ => ⟨e, rfl⟩)
  -- the two states of a trade that did not succeed are handled alike
  have unsuccessful : t.getState = .abandoned ∨ t.getState = .failed →
      (if getRole s.account t = .maker then do
          unlock t.order.getId
          return { next := refreshTasks ++ releaseTasks s.account t }
        else return { next := releaseTasks s.account t } : M State Effect).wp s
        (Section cfg s (.handle t)) := by
    intro hst
    split
    · simp only [Act.wp_bind]
      refine Act.wp_mono (unlock_leaves _ s) fun tr r s' h => ?_
      obtain ⟨hs, rfl, hr⟩ := h
      rcases hr with rfl | ⟨e, rfl⟩
      · exact .unsuccessful hst hs refreshTasks_not_updating
      · exact failing _ _ _ hs (by simp)
    · have : ∀ x ∈ ([] : List Task), ¬ x.updating := by simp
      exact .unsuccessful hst (.refl s) this
  simp only [handleFinalised, Act.wp_bind, Act.wp_read, Act.afterBind_ok, List.nil_append]
  cases hst : t.getState with
  | initiated => exact failing _ _ _ (.refl s) (by simp)
  | pending => exact failing _ _ _ (.refl s) (by simp)
  | abandoned => exact unsuccessful (Or.inl hst)
  | failed => exact unsuccessful (Or.inr hst)
  | success =>
      dsimp only
      split
      · simp only [removeById, Act.wp_bind, Act.wp_read, Act.afterBind_ok, Act.wp_write]
        split
        · refine .succeeded hst ⟨rfl, rfl, rfl, rfl⟩ (.tasks ?_)
          intro x hx
          rcases List.mem_append.mp hx with hx | hx
          · exact refreshTasks_not_updating x hx
          · rw [List.mem_singleton.mp hx]
            exact id
        · exact .succeeded hst ⟨rfl, rfl, rfl, rfl⟩ .refresh
      · exact .succeeded hst (.refl s) .nothing

theorem exec_spec (s : State) (task : Task) : (exec cfg task).wp s (Section cfg s task) := by
  cases task with
  | add o =>
      refine idle_of_leaves (addOwnOrder_leaves o) id (fun b s => ?_) s
      cases b with
      | true => exact ⟨_, rfl, .refresh⟩
      | false => exact ⟨_, rfl, .nothing⟩
  | remove n =>
      have hm : LeavesTrades (removeById n) := fun s => ⟨⟨rfl, rfl, rfl, rfl⟩, by simp⟩
      exact idle_of_leaves hm id (fun _ s => ⟨_, rfl, .refresh⟩) s
  | refresh => exact idle_of_leaves runRefresh_leaves id (fun _ s => ⟨_, rfl, .nothing⟩) s
  | getOrders =>
      refine .idle (.refl s) (by simp) (.tasks ?_) (fun h => absurd h id)
      intro x hx
      rw [List.mem_singleton.mp hx]
      exact id
  | updateOrders orders =>
      exact .idle (.refl s) (by simp) ⟨by rintro _ ⟨⟩; rfl, by rintro _ ⟨⟩; simp⟩
        (fun h => absurd h id)
  | receive msg => exact receive_spec s msg
  | orderTaken o taking msg =>
      simp only [exec, Act.wp_bind]
      refine Act.wp_mono (orderTaken_spec s o _ _) fun tr r s' h => ?_
      cases h with
      | refused hq =>
          refine .idle (.refl s) (by simpa using hq) (.tasks ?_) (fun h => absurd h id)
          intro x hx
          rw [List.mem_singleton.mp hx]
          exact id
      | foreign hq _ => exact .idle (.refl s) (by simpa using hq) (.error _) (fun h => absurd h id)
      | created hcheck hown hother => exact .orderTaken hcheck hown hother
  | unlock n =>
      simp only [exec, Act.wp_bind]
      refine Act.wp_mono (unlock_leaves n s) fun tr r s' h => ?_
      obtain ⟨hs, rfl, hr⟩ := h
      rcases hr with rfl | ⟨e, rfl⟩
      · exact .idle hs (by simp) .refresh (fun h => absurd h id)
      · exact .idle hs (by simp) (.error e) (fun h => absurd h id)
  | process msg =>
      simp only [exec, Act.wp_bind]
      refine Act.wp_mono (processMessage_spec s msg) fun tr r s' h => ?_
      cases h with
      | noMatch _ => exact .idle (.refl s) (by simp) .nothing (fun h => absurd h id)
      | processed hs hb hm h hr =>
          simp only [Act.afterBind_ok, Act.wp_pure, List.append_nil]
          exact .processed hs hb hm h hr
      | aborted hs _ hm h => exact .aborted hs hm h
  | takeOrder o units =>
      simp only [exec, Act.wp_bind]
      refine Act.wp_mono (takeOrder_spec s o units) fun tr r s' h => ?_
      cases h with
      | refused hq => exact .idle (.refl s) (by simpa using hq) .nothing (fun h => absurd h id)
      | failed hcheck hown h hr =>
          rcases hr with ⟨rfl, rfl⟩ | ⟨c, rfl, rfl⟩
          · simp only [Act.afterBind_ok, Act.wp_pure, List.append_nil]
            exact .takeFailed hcheck hown h (Or.inl ⟨rfl, rfl⟩)
          · exact .takeFailed hcheck hown h (Or.inr ⟨c, rfl, rfl⟩)
      | created hcheck hown h =>
          simp only [Act.afterBind_ok, Act.wp_pure, List.append_nil]
          exact .takeCreated hcheck hown h
  | updateTrades =>
      simp only [exec, Act.wp_bind]
      refine Act.wp_mono (updateTrades_spec s) fun tr r s' h => ?_
      cases h with
      | done hs hu hq =>
          simp only [Act.afterBind_ok, Act.wp_pure, List.append_nil]
          exact .updated hs hu hq
      | failed hs hq => exact .updateFailed hs hq
  | handle t => exact handleFinalised_spec s t
  | readInputs t =>
      simp only [exec, Act.wp_bind, Act.wp_monadLift, wp_rpc, Act.afterBind_ok, Act.afterBind_error]
      refine ⟨fun decoded => .readInputs, ?_, ?_⟩
      · exact .idle (.refl s) (by simp) (.error _) (fun _ => ⟨_, rfl⟩)
      · exact .idle (.refl s) (by simp) (.error _) (fun _ => ⟨_, rfl⟩)
  | unlockOutput t out =>
      simp only [exec, Act.wp_bind, Act.wp_monadLift, wp_lockUnspent, Act.afterBind_ok]
      exact ⟨fun b => .unlockOutput (.ok b), fun e => .unlockOutput (.error e)⟩

/-- What a recorded section did. -/
lemma section_of_exec {task : Task} {s s' : State} {tr : Conversation} {r : Except Fail Effect}
    (h : (exec cfg task s).Exec tr (r, s')) : Section cfg s task tr r s' :=
  Act.wp_iff.mp (exec_spec s task) tr r s' h

lemma Section.account_eq {task : Task} {s s' : State} {tr : Conversation} {r : Except Fail Effect}
    (h : Section cfg s task tr r s') : s'.account = s.account := by
  cases h with
  | idle hs => exact hs.account
  | succeeded _ hs => exact hs.account
  | unsuccessful _ hs => exact hs.account
  | _ => rfl

/-! ## Known trades -/

/-- The trade a task is about, if it is one that comes after finalisation. -/
def Task.subject : Task → Option TradeState
  | .handle t | .readInputs t | .unlockOutput t _ => some t
  | _ => none

lemma Task.subject_eq_none {x : Task} (h : ¬ x.updating) : x.subject = none := by
  cases x <;> first | rfl | exact absurd trivial h

/-- `t` was finalised and is still being handled. -/
def Sys.Settling (σ : Sys) (t : TradeState) : Prop :=
  ∃ th ∈ σ.threads, ∃ x ∈ th.tasks, x.subject = some t

/-- `t` is active, or still being handled. -/
def Sys.Knows (σ : Sys) (t : TradeState) : Prop := t ∈ σ.state.trades ∨ σ.Settling t

lemma subject_of_release {account : String} {t : TradeState} {x : Task}
    (h : x ∈ releaseTasks account t) : x.subject = some t := by
  simp only [releaseTasks, List.mem_append] at h
  rcases h with h | h
  · cases hout : (t.sellerData.getD {}).nameOutput with
    | none => simp [hout] at h
    | some out =>
        rw [hout] at h
        rw [List.mem_singleton.mp h]
        rfl
  · split_ifs at h
    · rw [List.mem_singleton.mp h]
      rfl
    · simp at h

/-- What is being settled after a section was settled before, or has just been finalised. -/
lemma settling_of_section {task : Task} {s s' : State} {tr : Conversation} {eff : Effect}
    {t : TradeState} {x : Task} (h : Section cfg s task tr (.ok eff) s') (hx : x ∈ eff.next)
    (hsub : x.subject = some t) :
    task.subject = some t ∨ task = .updateTrades ∧ isFinalised t = true ∧
      ∃ t₀ ∈ s.trades, ∃ tr, Update.Outcome t₀ tr (.ok ()) t := by
  have unrelated : ¬ x.updating → False := fun hns => by
    rw [Task.subject_eq_none hns] at hsub
    simp at hsub
  generalize hr : (Except.ok eff : Except Fail Effect) = r at h
  cases h with
  | idle _ _ hun _ => exact (unrelated (hun.next eff hr.symm x hx)).elim
  | orderTaken _ _ _ =>
      obtain rfl := Except.ok.inj hr
      rw [List.mem_singleton.mp hx] at hsub
      simp [Task.subject] at hsub
  | takeFailed _ _ _ hres =>
      rcases hres with ⟨_, rfl⟩ | ⟨c, _, rfl⟩
      · obtain rfl := Except.ok.inj hr
        simp at hx
      · simp at hr
  | takeCreated _ _ _ =>
      obtain rfl := Except.ok.inj hr
      simp at hx
  | processed _ _ _ _ _ =>
      obtain rfl := Except.ok.inj hr
      simp at hx
  | aborted _ _ _ => simp at hr
  | updateFailed _ _ => simp at hr
  | @updated _ us hs hu _ =>
      obtain rfl := Except.ok.inj hr
      obtain ⟨t₁, ht₁, rfl⟩ := List.mem_map.mp hx
      obtain rfl : t₁ = t := Option.some.inj hsub
      obtain ⟨hmem, hfin⟩ := List.mem_filter.mp ht₁
      obtain ⟨p, hp, rfl⟩ := List.mem_map.mp hmem
      exact Or.inr ⟨rfl, hfin, p.1, by rw [hs]; exact List.mem_map_of_mem hp, hu p hp⟩
  | succeeded _ _ hun => exact (unrelated (hun.next eff hr.symm x hx)).elim
  | unsuccessful _ _ hpre =>
      obtain rfl := Except.ok.inj hr
      rcases List.mem_append.mp hx with hx | hx
      · exact (unrelated (hpre x hx)).elim
      · left
        rw [← hsub, subject_of_release hx]
        rfl
  | readInputs =>
      obtain rfl := Except.ok.inj hr
      obtain ⟨out, _, rfl⟩ := List.mem_map.mp hx
      exact Or.inl hsub
  | unlockOutput _ =>
      obtain rfl := Except.ok.inj hr
      simp at hx

/-- **Where a known trade comes from**: it was known before, or it has just been created, processed
or updated. -/
inductive Origin (cfg : Config) (σ : Sys) (rec : Record) (t' : TradeState) : Prop
  | old (h : σ.Knows t')
  /-- What an update that failed has left of the trades before. -/
  | blank (h : t' = {}) (herr : ∃ e, rec.outcome = .error e)
  | taken {o taking msg now} (htask : rec.task = .orderTaken o taking msg)
      (hcheck : checkOrder o taking.units.toInt64 = true) (hown : o.getAccount = σ.state.account)
      (hother : msg.counterparty.getD "" ≠ σ.state.account)
      (heq : t' = newTrade o taking.units.toInt64 (msg.counterparty.getD "") now
        (σ.state.created + 1))
  | took {o units now tr reply} (htask : rec.task = .takeOrder o units)
      (hcheck : checkOrder o units = true) (hown : o.getAccount ≠ σ.state.account)
      (htalk : rec.talk = ⟨.clock, now⟩ :: tr)
      (h : HasReply.Outcome cfg σ.state.account
        (newTrade o units o.getAccount now (σ.state.created + 1)) tr (.ok reply) t')
  | processed {msg t r} (htask : rec.task = .process msg) (ht : t ∈ σ.state.trades)
      (hm : tradeMatches msg t = true)
      (h : HasReply.Outcome cfg σ.state.account (handleMessage σ.state.account msg t) rec.talk r t')
      (hok : rec.outcome = .ok { reply := caught r })
  | updated {t tr} (htask : rec.task = .updateTrades) (ht : t ∈ σ.state.trades)
      (h : Update.Outcome t tr (.ok ()) t')

/-- The trades after a section. -/
lemma origin_of_mem {task : Task} {σ : Sys} {s' : State} {tr : Conversation}
    {r : Except Fail Effect} {op : Op} {t' : TradeState} (h : Section cfg σ.state task tr r s')
    (ht : t' ∈ s'.trades) : Origin cfg σ ⟨op, task, σ.state, tr, r, s'⟩ t' := by
  cases h with
  | idle hs => exact .old (Or.inl (hs.trades ▸ ht))
  | orderTaken hcheck hown hother =>
      rcases List.mem_append.mp ht with ht | ht
      · exact .old (Or.inl ht)
      · exact .taken rfl hcheck hown hother (List.mem_singleton.mp ht)
  | takeFailed => exact .old (Or.inl ht)
  | takeCreated hcheck hown h =>
      rcases List.mem_append.mp ht with ht | ht
      · exact .old (Or.inl ht)
      · rw [List.mem_singleton.mp ht]
        exact .took rfl hcheck hown rfl h
  | processed hs _ hm h _ =>
      rcases List.mem_append.mp ht with ht | ht
      · exact .old (Or.inl (by rw [hs]; simp [ht]))
      · rcases List.mem_cons.mp ht with rfl | ht
        · exact .processed rfl (by rw [hs]; simp) hm h rfl
        · exact .old (Or.inl (by rw [hs]; simp [ht]))
  | aborted => exact .old (Or.inl ht)
  | @updated _ us hs hu _ =>
      obtain ⟨hmem, _⟩ := List.mem_filter.mp ht
      obtain ⟨p, hp, rfl⟩ := List.mem_map.mp hmem
      obtain ⟨tr, h⟩ := hu p hp
      exact .updated rfl (by rw [hs]; exact List.mem_map_of_mem hp) h
  | updateFailed hs _ =>
      rcases List.mem_append.mp ht with ht | ht
      · exact .blank (List.mem_replicate.mp ht).2 ⟨_, rfl⟩
      · exact .old (Or.inl (by rw [hs]; exact List.mem_append.mpr (Or.inr ht)))
  | succeeded _ hs => exact .old (Or.inl (hs.trades ▸ ht))
  | unsuccessful _ hs => exact .old (Or.inl (hs.trades ▸ ht))
  | readInputs => exact .old (Or.inl ht)
  | unlockOutput => exact .old (Or.inl ht)

lemma subject_start {op : Op} {x : Task} (h : x ∈ op.tasks) : x.subject = none := by
  cases op with
  | refreshOrders => exact Task.subject_eq_none (refreshTasks_not_updating x h)
  | _ =>
      rw [List.mem_singleton.mp h]
      rfl

/-- **Every step**: what is known after it has an origin before it. -/
theorem origin_of_step {σ σ' : Sys} {l : Label} {t' : TradeState} (hs : Sys.Step cfg σ l σ')
    (hk : σ'.Knows t') : σ.Knows t' ∨ ∃ rec, l = .run rec ∧ Origin cfg σ rec t' := by
  cases hs with
  | start op _ =>
      left
      rcases hk with hk | ⟨th, hth, x, hx, hsub⟩
      · exact Or.inl hk
      · rcases List.mem_append.mp hth with hth | hth
        · exact Or.inr ⟨th, hth, x, hx, hsub⟩
        · rw [List.mem_singleton.mp hth] at hx
          rw [subject_start hx] at hsub
          simp at hsub
  | @run before after op task rest tr r s' hh hth hx =>
      have hsec := section_of_exec hx
      have hthread : ∀ th ∈ before ++ ⟨op, task :: rest⟩ :: after, th ∈ σ.threads := by
        intro th h
        rwa [hth]
      rcases hk with hk | ⟨th, hth', x, hx', hsub⟩
      · exact Or.inr ⟨_, rfl, origin_of_mem hsec hk⟩
      · have hold : th ∈ σ.threads → σ.Knows t' := fun h => Or.inr ⟨th, h, x, hx', hsub⟩
        have hmine : x ∈ task :: rest → σ.Knows t' := fun h =>
          Or.inr ⟨_, hthread ⟨op, task :: rest⟩ (by simp), x, h, hsub⟩
        rcases List.mem_append.mp hth' with hth' | hth'
        · exact Or.inl (hold (hthread th (by simp [hth'])))
        · rcases List.mem_cons.mp hth' with rfl | hth'
          · cases r with
            | error e => simp [continuation] at hx'
            | ok eff =>
                rcases List.mem_append.mp hx' with hx' | hx'
                · rcases settling_of_section hsec hx' hsub with hs | ⟨htask, _, t₀, ht₀, tr', h⟩
                  · exact Or.inl (Or.inr ⟨_, hthread ⟨op, task :: rest⟩ (by simp), task, by simp, hs⟩)
                  · exact Or.inr ⟨_, rfl, .updated htask ht₀ h⟩
                · exact Or.inl (hmine (by simp [hx']))
          · exact Or.inl (hold (hthread th (by simp [hth'])))

/-! ## The trade a message is for -/

/-- `rec` is the part of `ProcessMessage` that works on a trade, which is `t` before and `t'` after
it.  It is the first one that matches the message. -/
structure Record.Processes (rec : Record) (msg : ProcessingMessage) (t t' : TradeState) : Prop where
  task : rec.task = .process msg
  isMatch : tradeMatches msg t = true
  trades : ∃ before after, rec.pre.trades = before ++ t :: after ∧
    (∀ x ∈ before, tradeMatches msg x = false) ∧ rec.post.trades = before ++ t' :: after

/-- A trade just created neither shows a PSBT nor broadcasts, and stays `INITIATED`. -/
lemma outcome_of_new {account : String} {o : Order} {units : Amount} {counterparty : String}
    {now : Int64} {serial : ℕ} {tr : Conversation} {r : Except Fail (Option ProcessingMessage)}
    {pb' : TradeState}
    (h : HasReply.Outcome cfg account (newTrade o units counterparty now serial) tr r pb') :
    broadcasts tr = [] ∧ pb'.getState = .initiated ∧ ∀ reply, r = .ok (some reply) → reply.psbt = none := by
  cases h with
  | rest hq hr =>
      refine ⟨broadcasts_of_quiet hq, rfl, ?_⟩
      rcases hr with rfl | ⟨e, rfl⟩ <;> simp
  | nameLeaked _ _ _ hq =>
      refine ⟨?_, rfl, by simp⟩
      rw [broadcasts_append, broadcasts_of_quiet hq]
      rfl
  | sendsSellerData =>
      refine ⟨rfl, rfl, ?_⟩
      intro reply hreply
      obtain rfl := Option.some.inj (Except.ok.inj hreply)
      rfl
  | sellerShares _ hsd => simp [newTrade] at hsd
  | sellerKeeps _ hsd => simp [newTrade] at hsd
  | sellerBroadcasts _ hsd => simp [newTrade] at hsd
  | coinsLeaked _ hsd => simp [newTrade] at hsd
  | coinsReleased _ hsd => simp [newTrade] at hsd
  | buyerOffers _ hsd => simp [newTrade] at hsd
  | buyerShares _ hsd => simp [newTrade] at hsd
  | shares _ hours => simp [newTrade] at hours
  | broadcasts _ hours => simp [newTrade] at hours

/-- The section sent a PSBT, or put a transaction on the network. -/
def Record.Releases (rec : Record) : Prop :=
  (∃ msg, rec.reply = some msg ∧ msg.psbt ≠ none) ∨ broadcasts rec.talk ≠ []

private lemma not_releases {rec : Record} (hr : ∀ eff, rec.outcome = .ok eff → eff.reply = none)
    (hb : broadcasts rec.talk = []) : ¬ rec.Releases := by
  rintro (⟨msg, hmsg, _⟩ | h)
  · rw [Record.reply] at hmsg
    split at hmsg
    · rename_i eff heff
      rw [hr eff heff] at hmsg
      simp at hmsg
    · simp at hmsg
  · exact h hb

/-- A reply is what `HasReply` returned. -/
lemma Record.ok_of_reply {rec : Record} {r : Except Fail (Option ProcessingMessage)}
    {reply : ProcessingMessage} (houtcome : rec.outcome = .ok { reply := caught r })
    (hreply : rec.reply = some reply) : r = .ok (some reply) := by
  rw [Record.reply, houtcome] at hreply
  cases r with
  | error e => simp [caught] at hreply
  | ok o => exact congrArg _ hreply

/-- **A message with a PSBT, and a broadcast, come from a processed trade.** -/
lemma processes_of_release {rec : Record}
    (h : Section cfg rec.pre rec.task rec.talk rec.outcome rec.post) (hrel : rec.Releases) :
    ∃ msg t t' r, rec.Processes msg t t' ∧
      HasReply.Outcome cfg rec.pre.account (handleMessage rec.pre.account msg t) rec.talk r t' ∧
      rec.outcome = .ok { reply := caught r } := by
  obtain ⟨op, task, s, tr, r, s'⟩ := rec
  dsimp only at h
  cases h with
  | idle _ hq hr _ => exact absurd hrel (not_releases hr.reply (broadcasts_of_quiet hq))
  | orderTaken => exact absurd hrel (not_releases (by rintro _ ⟨⟩; rfl) rfl)
  | takeFailed _ _ h hr =>
      obtain ⟨hb, _, _⟩ := outcome_of_new h
      refine absurd hrel (not_releases ?_ hb)
      rcases hr with ⟨_, rfl⟩ | ⟨c, _, rfl⟩
      · rintro _ ⟨⟩
        rfl
      · simp
  | @takeCreated _ _ _ _ reply _ _ _ h =>
      obtain ⟨hb, _, hreply⟩ := outcome_of_new h
      rcases hrel with ⟨msg, hmsg, hpsbt⟩ | hb'
      · obtain rfl := Option.some.inj hmsg
        cases reply with
        | none => exact absurd rfl hpsbt
        | some reply => exact absurd (hreply reply rfl) hpsbt
      · exact absurd hb hb'
  | processed hs hb hm h hr => exact ⟨_, _, _, _, ⟨rfl, hm, _, _, hs, hb, rfl⟩, h, rfl⟩
  | aborted _ _ h =>
      refine absurd hrel (not_releases (by simp) ?_)
      rcases hasReply_broadcasts h with h | ⟨_, _, _, h, _⟩
      · exact h
      · simp at h
  | updated _ _ hq =>
      exact absurd hrel (not_releases (by rintro _ ⟨⟩; rfl) (broadcasts_of_quiet hq))
  | updateFailed _ hq => exact absurd hrel (not_releases (by simp) (broadcasts_of_quiet hq))
  | succeeded _ _ hr => exact absurd hrel (not_releases hr.reply rfl)
  | unsuccessful => exact absurd hrel (not_releases (by rintro _ ⟨⟩; rfl) rfl)
  | readInputs => exact absurd hrel (not_releases (by rintro _ ⟨⟩; rfl) rfl)
  | unlockOutput a => exact absurd hrel (not_releases (by rintro _ ⟨⟩; rfl) rfl)

/-! ## Threads -/

/-- What can come after a section in its thread. -/
def Task.leadsTo : Task → Task → Bool
  | .add _, y | .remove _, y | .unlock _, y =>
      match y with
      | .refresh | .getOrders => true
      | _ => false
  | .getOrders, .updateOrders _ => true
  | .receive _, y =>
      match y with
      | .refresh | .getOrders | .orderTaken _ _ _ | .process _ => true
      | _ => false
  | .orderTaken _ _ _, .process _ | .orderTaken _ _ _, .unlock _ => true
  | .updateTrades, .handle _ => true
  | .handle _, y =>
      match y with
      | .refresh | .getOrders | .add _ | .readInputs _ | .unlockOutput _ _ => true
      | _ => false
  | .readInputs _, .unlockOutput _ _ => true
  | _, _ => false

/-- **Every section** leads to tasks of these kinds only. -/
lemma leads_of_exec {s s' : State} {task : Task} {tr : Conversation} {eff : Effect}
    (hx : (exec cfg task s).Exec tr (.ok eff, s')) : ∀ y ∈ eff.next, task.leadsTo y = true := by
  have hspec : (exec cfg task).wp s fun _ r _ => ∀ eff, r = .ok eff →
      ∀ y ∈ eff.next, task.leadsTo y = true := by
    cases task with
    | getOrders | updateOrders _ => simp [exec, Act.wp_bind, Task.leadsTo]
    | remove _ => simp [exec, removeById, Act.wp_bind, refreshTasks, Task.leadsTo]
    | refresh | process _ | takeOrder _ _ | unlockOutput _ _ | readInputs _ | updateTrades =>
        simp only [exec, Act.wp_bind]
        refine Act.wp_iff.mpr fun tr r s' _ => ?_
        cases r <;> simp [Task.leadsTo]
    | add _ | orderTaken _ _ _ =>
        simp only [exec, Act.wp_bind]
        refine Act.wp_iff.mpr fun tr r s' _ => ?_
        rcases r with _ | _ | _ <;> simp [refreshTasks, Task.leadsTo]
    | unlock _ =>
        simp only [exec, Act.wp_bind]
        refine Act.wp_iff.mpr fun tr r s' _ => ?_
        cases r <;> simp [refreshTasks, Task.leadsTo]
    | receive msg =>
        simp only [exec, receive, Act.wp_bind, wp_check, Act.afterBind_ok, Act.afterBind_error]
        refine ⟨fun _ => ?_, by simp⟩
        cases msg.takingOrder with
        | none => simp [Task.leadsTo]
        | some taking =>
            simp only [Act.wp_bind]
            refine Act.wp_iff.mpr fun tr r s' _ => ?_
            rcases r with _ | _ | _ <;> simp [refreshTasks, Task.leadsTo]
    | handle t =>
        have hrelease : ∀ y ∈ releaseTasks s.account t, (Task.handle t).leadsTo y = true := by
          intro y hy
          have := subject_of_release hy
          have hnot : ∀ t', y ≠ .handle t' := by
            rintro t' rfl
            simp only [releaseTasks, List.mem_append] at hy
            rcases hy with hy | hy <;> split at hy <;> simp at hy
          cases y <;> simp_all [Task.subject, Task.leadsTo]
        simp only [exec, handleFinalised, Act.wp_bind, Act.wp_read, Act.afterBind_ok]
        cases t.getState with
        | initiated | pending => simp
        | abandoned | failed =>
            dsimp only
            split
            · simp only [Act.wp_bind]
              refine Act.wp_iff.mpr fun tr r s' _ => ?_
              cases r with
              | error e => simp
              | ok _ =>
                  rintro _ ⟨⟩ y hy
                  simp only [refreshTasks, List.cons_append, List.nil_append, List.mem_cons] at hy
                  rcases hy with rfl | rfl | hy
                  · rfl
                  · rfl
                  · exact hrelease y hy
            · rintro _ ⟨⟩
              exact hrelease
        | success =>
            dsimp only
            split
            · simp only [removeById, Act.wp_bind, Act.wp_read, Act.afterBind_ok, Act.wp_write]
              split <;> simp [refreshTasks, Task.leadsTo]
            · simp
  exact Act.wp_iff.mp hspec tr _ s' hx eff rfl

/-- A section leads to a task of `UpdateAndArchiveTrades` only if it is one. -/
lemma updating_of_section {task x : Task} {s s' : State} {tr : Conversation} {eff : Effect}
    (h : Section cfg s task tr (.ok eff) s') (hx : x ∈ eff.next) (hup : x.updating) :
    task.updating := by
  generalize hr : (Except.ok eff : Except Fail Effect) = r at h
  cases h with
  | idle _ _ hun _ => exact absurd hup (hun.next eff hr.symm x hx)
  | orderTaken _ _ _ =>
      obtain rfl := Except.ok.inj hr
      rw [List.mem_singleton.mp hx] at hup
      exact hup.elim
  | takeFailed _ _ _ hres =>
      rcases hres with ⟨_, rfl⟩ | ⟨c, _, rfl⟩
      · obtain rfl := Except.ok.inj hr
        simp at hx
      · simp at hr
  | takeCreated _ _ _ =>
      obtain rfl := Except.ok.inj hr
      simp at hx
  | processed _ _ _ _ _ =>
      obtain rfl := Except.ok.inj hr
      simp at hx
  | aborted _ _ _ => simp at hr
  | _ => trivial

/-- The tasks of `UpdateAndArchiveTrades` are only in the updater's threads. -/
def Sys.Proper (σ : Sys) : Prop :=
  ∀ th ∈ σ.threads, ∀ x ∈ th.tasks, x.updating → th.op = .updateTrades

lemma Sys.Proper.step {σ σ' : Sys} {l : Label} (h : σ.Proper) (hs : Sys.Step cfg σ l σ') :
    σ'.Proper := by
  cases hs with
  | start op _ =>
      intro th hth x hx hup
      rcases List.mem_append.mp hth with hth | hth
      · exact h th hth x hx hup
      · rw [List.mem_singleton.mp hth] at hx ⊢
        cases op with
        | updateTrades => rfl
        | refreshOrders => exact absurd hup (refreshTasks_not_updating x hx)
        | _ =>
            rw [List.mem_singleton.mp hx] at hup
            exact hup.elim
  | @run before after op task rest tr r s' _ hth hx =>
      have old : ∀ th ∈ before ++ ⟨op, task :: rest⟩ :: after, ∀ x ∈ th.tasks, x.updating →
          th.op = .updateTrades := fun th hm => h th (by rwa [hth])
      intro th hm x hx' hup
      rcases List.mem_append.mp hm with hm | hm
      · exact old th (by simp [hm]) x hx' hup
      · rcases List.mem_cons.mp hm with rfl | hm
        · cases r with
          | error e => simp [continuation] at hx'
          | ok eff =>
              rcases List.mem_append.mp hx' with hx' | hx'
              · exact old ⟨op, task :: rest⟩ (by simp) task (by simp)
                  (updating_of_section (section_of_exec hx) hx' hup)
              · exact old ⟨op, task :: rest⟩ (by simp) x (by simp [hx']) hup
        · exact old th (by simp [hm]) x hx' hup

/-! ## Facts about whole runs -/

/-- What a step adds to the log. -/
def Label.news : Label → List Record
  | .start _ => []
  | .run rec => [rec]

lemma log_of_step {σ σ' : Sys} {l : Label} (hs : Sys.Step cfg σ l σ') :
    σ'.log = σ.log ++ l.news := by
  cases hs with
  | start op _ => exact (List.append_nil _).symm
  | run _ _ _ => rfl

section Runs

variable {W : Type} {E : Env Call Answer W} {account : String}

/-- The account never changes. -/
lemma reachable_account {x : Sys × W} (h : (system cfg E account).Reachable x) :
    x.1.state.account = account := by
  refine Transition.System.Reachable.invariant (fun x => x.1.state.account = account) ?_ ?_ h
  · rintro x hx
    rw [hx]
    rfl
  · rintro x l ⟨σ', w'⟩ _ ih ⟨hs, _⟩
    dsimp only at hs ⊢
    cases hs with
    | start op _ => exact ih
    | run _ _ hx => exact (section_of_exec hx).account_eq.trans ih

lemma reachable_proper {x : Sys × W} (h : (system cfg E account).Reachable x) : x.1.Proper := by
  refine Transition.System.Reachable.invariant (fun x => x.1.Proper) ?_ ?_ h
  · intro x hx
    rw [hx]
    simp [Sys.start, Sys.Proper]
  · rintro x l x' _ ih ⟨hs, _⟩
    exact ih.step hs

/-- **Every recorded section was a step of the run.** -/
lemma reachable_record {x : Sys × W} (h : (system cfg E account).Reachable x) :
    ∀ rec ∈ x.1.log, ∃ y z, (system cfg E account).Reachable y ∧
      (system cfg E account).step y (.run rec) z ∧ (system cfg E account).Later z x := by
  induction h with
  | init h =>
      intro rec hrec
      rw [h] at hrec
      simp [Sys.start] at hrec
  | @step y z l hr hs ih =>
      have later : ∀ {u}, (system cfg E account).Later u y → (system cfg E account).Later u z :=
        fun hu => hu.tail ⟨l, hs⟩
      have old : ∀ rec ∈ y.1.log, ∃ u v, (system cfg E account).Reachable u ∧
          (system cfg E account).step u (.run rec) v ∧ (system cfg E account).Later v z := by
        intro rec hrec
        obtain ⟨u, v, hu, huv, hv⟩ := ih rec hrec
        exact ⟨u, v, hu, huv, later hv⟩
      intro rec hrec
      obtain ⟨hstep, hpath⟩ := hs
      generalize hz : z.1 = z₁ at hstep hrec
      cases hstep with
      | start op _ => exact old rec hrec
      | run hh hth hx =>
          rcases List.mem_append.mp hrec with hrec | hrec
          · exact old rec hrec
          · rw [List.mem_singleton.mp hrec]
            exact ⟨y, z, hr, ⟨hz ▸ .run hh hth hx, hpath⟩, .refl⟩

/-- The log only grows. -/
lemma log_subset {x x' : Sys × W} (h : (system cfg E account).Later x x') : x.1.log ⊆ x'.1.log := by
  induction h with
  | refl => exact List.Subset.refl _
  | @tail y z _ hst ih =>
      obtain ⟨l, hst, _⟩ := hst
      refine List.Subset.trans ih ?_
      generalize z.1 = z₁ at hst
      cases hst with
      | start op _ => exact List.Subset.refl _
      | run _ _ _ => exact List.subset_append_left _ _

lemma section_of_step {σ σ' : Sys} {rec : Record} (hs : Sys.Step cfg σ (.run rec) σ') :
    Section cfg rec.pre rec.task rec.talk rec.outcome rec.post ∧ rec.pre = σ.state ∧
      rec.post = σ'.state := by
  cases hs with
  | run _ _ hx => exact ⟨section_of_exec hx, rfl, rfl⟩

/-- What has to be shown for a fact about single trades, relative to the log, to hold throughout
every run. -/
structure TradeRule (cfg : Config) (E : Env Call Answer W) (account : String)
    (P : List Record → TradeState → Prop) : Prop where
  blank : ∀ log, P log {}
  new : ∀ log o units counterparty now serial, checkOrder o units = true →
    P log (newTrade o units counterparty now serial)
  later : ∀ log rec t, P log t → P (log ++ [rec]) t
  receives : ∀ log msg t, P log t → P log (handleMessage account msg t)
  replies : ∀ log rec t tr r t' w w', P log t → tr <:+ rec.talk → E.Path w tr w' →
    HasReply.Outcome cfg account t tr r t' → P (log ++ [rec]) t'
  updates : ∀ log t tr t', P log t → Update.Outcome t tr (.ok ()) t' → P log t'

/-- **The rule for facts about single trades.** -/
theorem TradeRule.holds {P : List Record → TradeState → Prop} (hP : TradeRule cfg E account P)
    {x : Sys × W} (h : (system cfg E account).Reachable x) :
    ∀ t, x.1.Knows t → P x.1.log t := by
  refine Transition.System.Reachable.invariant (fun x => ∀ t, x.1.Knows t → P x.1.log t) ?_ ?_ h
  · rintro x hx t (ht | ⟨th, hth, _⟩)
    · rw [hx] at ht
      simp [Sys.start] at ht
    · rw [hx] at hth
      simp [Sys.start] at hth
  · rintro x l x' hr ih ⟨hs, hpath⟩ t' hk
    have hacc := reachable_account hr
    have hold : x.1.Knows t' → P x'.1.log t' := by
      intro hk
      generalize x'.1 = σ' at hs
      cases hs with
      | start op _ => exact ih t' hk
      | run _ _ _ => exact hP.later _ _ _ (ih t' hk)
    rcases origin_of_step hs hk with hk | ⟨rec, rfl, horigin⟩
    · exact hold hk
    · have hlog : x'.1.log = x.1.log ++ [rec] := by
        generalize x'.1 = σ' at hs
        cases hs
        rfl
      cases horigin with
      | old hk => exact hold hk
      | blank h _ => rw [h]; exact hP.blank _
      | taken _ hcheck _ _ h => rw [h]; exact hP.new _ _ _ _ _ _ hcheck
      | took _ hcheck _ htalk h =>
          rw [hlog]
          rw [hacc] at h
          obtain ⟨w₁, _, hpath⟩ : ∃ w₁, E x.2 _ w₁ ∧ E.Path w₁ _ x'.2 := by
            have : E.Path x.2 rec.talk x'.2 := hpath
            rwa [htalk, Env.path_cons] at this
          exact hP.replies _ _ _ _ _ _ _ _ (hP.new _ _ _ _ _ _ hcheck)
            ⟨[_], htalk.symm⟩ hpath h
      | processed _ ht _ h _ =>
          rw [hlog]
          rw [hacc] at h
          exact hP.replies _ _ _ _ _ _ _ _ (hP.receives _ _ _ (ih _ (Or.inl ht)))
            List.suffix_rfl hpath h
      | updated _ ht h =>
          rw [hlog]
          exact hP.later _ _ _ (hP.updates _ _ _ _ (ih _ (Or.inl ht)) h)

end Runs

end Democrit
