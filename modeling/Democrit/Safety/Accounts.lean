import Democrit.Safety.Evolution
import Mathlib.Data.List.Forall2

/-!
# Every trade is accounted for

A trade that was created is in the list of active trades or in the archive, **and in one of them
once**.  The two history functions `created` and `finalised` read off the log which trades were
created and which were finalised, so that the balance between them and the state can be stated as a
permutation of serial numbers, and the archive as an equation.

What a section does to these books is one of three things (`Books`): nothing but progress inside
single trades, the creation of a trade, or the update of all of them.  The handlers are counted in
the same way, against the tasks that the updater's threads have still to do.

The results are about runs in which the updater itself neither throws nor fails an assertion
(`UpdaterReturns`).
-/

namespace Democrit

open Interaction

variable {cfg : Config} {account : String} {W : Type} {E : Env Call Answer W}

/-! ## The books -/

/-- The clock's answer at the beginning of a conversation. -/
def clockOf : Conversation → Int64
  | ⟨.clock, now⟩ :: _ => now
  | _ => 0

/-- Does `ProcessMessage` go on to look for the trade?  After `OrderTaken` it does if that returned
true. -/
def Effect.processes (eff : Effect) : Bool :=
  eff.next.any fun
    | .process _ => true
    | _ => false

/-- The trade that a section has created, because `TakeOrder` or `OrderTaken` returned true. -/
def Record.creation (rec : Record) : Option TradeState :=
  match rec.task, rec.outcome with
  | .takeOrder o units, .ok eff =>
      if eff.reply.isSome then
        some (newTrade o units o.getAccount (clockOf rec.talk) (rec.pre.created + 1))
      else none
  | .orderTaken o taking msg, .ok eff =>
      if eff.processes then
        some (newTrade o taking.units.toInt64 (msg.counterparty.getD "") (clockOf rec.talk)
          (rec.pre.created + 1))
      else none
  | _, _ => none

/-- The trades that some tasks are there to handle. -/
def handles (tasks : List Task) : List TradeState :=
  tasks.filterMap fun
    | .handle t => some t
    | _ => none

/-- The trades that a section has finalised. -/
def Record.finalised (rec : Record) : List TradeState :=
  match rec.task, rec.outcome with
  | .updateTrades, .ok eff => handles eff.next
  | _, _ => []

/-- All trades created in a run. -/
def created (log : List Record) : List TradeState := log.filterMap Record.creation

/-- All trades finalised in a run. -/
def finalised (log : List Record) : List TradeState := log.flatMap Record.finalised

/-- All trades whose handler, `HandleSuccess` or `HandleFailure`, was run. -/
def handled (log : List Record) : List TradeState := handles (log.map Record.task)

/-- All trades whose handler is still to be run. -/
def unhandled (threads : List Thread) : List TradeState :=
  threads.flatMap fun th => handles th.tasks

@[simp] lemma handles_append (l₁ l₂ : List Task) : handles (l₁ ++ l₂) = handles l₁ ++ handles l₂ :=
  List.filterMap_append

lemma handles_map_handle (ts : List TradeState) : handles (ts.map .handle) = ts := by
  induction ts with
  | nil => rfl
  | cons t ts ih => exact congrArg (t :: ·) ih

lemma mem_handles {t : TradeState} {tasks : List Task} (h : t ∈ handles tasks) :
    .handle t ∈ tasks := by
  obtain ⟨x, hx, hxt⟩ := List.mem_filterMap.mp h
  cases x with
  | handle t' =>
      obtain rfl := Option.some.inj hxt
      exact hx
  | _ => simp at hxt

/-- Tasks of other operations handle nothing. -/
lemma handles_eq_nil {tasks : List Task} (h : ∀ x ∈ tasks, ¬ x.updating) : handles tasks = [] := by
  rw [List.eq_nil_iff_forall_not_mem]
  intro t ht
  exact h _ (mem_handles ht) trivial

/-- The update did exactly what it is there for: every trade went through `Trade::Update`, those that
are not finalised are kept as they are then, in their order, and those that are were archived and
are handed to the handlers, in their order. -/
def UpdatesExactly (cfg : Config) (rec : Record) : Prop :=
  ∃ us : List (TradeState × TradeState), rec.pre.trades = us.map Prod.fst ∧
    (∀ p ∈ us, ∃ tr, (updateTrade cfg p.1).Exec tr (.ok (), p.2)) ∧
    rec.post.trades = (us.map Prod.snd).filter (fun t => !isFinalised t) ∧
    rec.finalised = (us.map Prod.snd).filter isFinalised ∧
    rec.post.tradeArchive = rec.pre.tradeArchive
      ++ rec.finalised.map (getPublicInfo rec.pre.account)

/-- **Everything a section can do to the books.** -/
inductive Books (cfg : Config) (rec : Record) : Prop
  | same (hcreation : rec.creation = none) (hfinal : rec.finalised = [])
      (htrades : List.Forall₂ Frame rec.pre.trades rec.post.trades)
      (hcreated : rec.post.created = rec.pre.created)
      (harchive : rec.post.tradeArchive = rec.pre.tradeArchive)
  | creates {t₀ t} (hcreation : rec.creation = some t₀) (hfinal : rec.finalised = [])
      (hserial : t₀.serial = rec.pre.created + 1) (hframe : Frame t₀ t)
      (htrades : rec.post.trades = rec.pre.trades ++ [t])
      (hcreated : rec.post.created = rec.pre.created + 1)
      (harchive : rec.post.tradeArchive = rec.pre.tradeArchive)
  | updates (hcreation : rec.creation = none) (h : UpdatesExactly cfg rec)
      (hcreated : rec.post.created = rec.pre.created)

lemma forall₂_frame (ts : List TradeState) : List.Forall₂ Frame ts ts := by
  induction ts with
  | nil => exact .nil
  | cons t ts ih => exact .cons (.refl t) ih

/-! ## Single sections -/

/-- The section of `UpdateAndArchiveTrades`, where it ends. -/
lemma updateTrades_exact (s : State) :
    (exec cfg .updateTrades).wp s fun tr r s' => ∀ op, (∃ eff, r = .ok eff) →
      UpdatesExactly cfg ⟨op, .updateTrades, s, tr, r, s'⟩ ∧ s'.created = s.created := by
  simp only [exec, Act.wp_bind]
  refine Act.wp_mono (updateTrades_ends s) fun tr r s' h => ?_
  generalize htrades : s.trades = todo at h
  cases h with
  | fails =>
      rintro op ⟨eff, heff⟩
      simp at heff
  | @through tr now h =>
      intro op _
      obtain ⟨us, rfl, rfl, hu⟩ := h.pairs
      exact ⟨⟨us, htrades, hu, rfl, handles_map_handle _,
        congrArg (s.tradeArchive ++ List.map (getPublicInfo s.account) ·)
          (handles_map_handle _).symm⟩, rfl⟩

/-- `OrderTaken` inside of `ProcessMessage`. -/
lemma orderTaken_books (s : State) (o : Order) (taking : TakingOrder) (msg : ProcessingMessage) :
    (exec cfg (.orderTaken o taking msg)).wp s fun tr r s' => ∀ op,
      Books cfg ⟨op, .orderTaken o taking msg, s, tr, r, s'⟩ := by
  simp only [exec, Act.wp_bind]
  refine Act.wp_mono (orderTaken_spec s o taking.units.toInt64 (msg.counterparty.getD ""))
    fun tr r s' h => ?_
  cases h with
  | refused hq => exact fun op => .same rfl rfl (forall₂_frame _) rfl rfl
  | foreign hq _ => exact fun op => .same rfl rfl (forall₂_frame _) rfl rfl
  | created _ _ _ => exact fun op => .creates rfl rfl rfl (.refl _) rfl rfl rfl

/-- An error has no effect on the books. -/
lemma Record.creation_error {op : Op} {task : Task} {s s' : State} {tr : Conversation} {e : Fail} :
    (⟨op, task, s, tr, .error e, s'⟩ : Record).creation = none := by
  cases task <;> rfl

lemma Record.finalised_error {op : Op} {task : Task} {s s' : State} {tr : Conversation} {e : Fail} :
    (⟨op, task, s, tr, .error e, s'⟩ : Record).finalised = [] := by
  cases task <;> rfl

/-- A section without a reply creates nothing, unless it is one of `OrderTaken`. -/
lemma Record.creation_of_reply {rec : Record} (htask : ∀ o taking msg, rec.task ≠ .orderTaken o taking msg)
    (hreply : ∀ eff, rec.outcome = .ok eff → eff.reply = none) : rec.creation = none := by
  obtain ⟨op, task, s, tr, r, s'⟩ := rec
  cases r with
  | error e => exact creation_error
  | ok eff =>
      cases task with
      | takeOrder o units => simp [creation, hreply eff rfl]
      | orderTaken o taking msg => exact absurd rfl (htask o taking msg)
      | _ => rfl

/-- **What a section does to the books**, unless it is an update that failed. -/
theorem books_of_exec {task : Task} {s s' : State} {tr : Conversation} {r : Except Fail Effect}
    (op : Op) (hx : (exec cfg task s).Exec tr (r, s'))
    (hok : task = .updateTrades → ∃ eff, r = .ok eff) : Books cfg ⟨op, task, s, tr, r, s'⟩ := by
  by_cases hup : task = .updateTrades
  · subst hup
    obtain ⟨h, hcreated⟩ := Act.wp_iff.mp (updateTrades_exact s) tr r s' hx op (hok rfl)
    refine .updates ?_ h hcreated
    cases r <;> rfl
  · by_cases htaken : ∃ o taking msg, task = .orderTaken o taking msg
    · obtain ⟨o, taking, msg, rfl⟩ := htaken
      exact Act.wp_iff.mp (orderTaken_books s o taking msg) tr r s' hx op
    · have hnot : ∀ o taking msg, task ≠ .orderTaken o taking msg :=
        fun o taking msg h => htaken ⟨o, taking, msg, h⟩
      have hnone : (⟨op, task, s, tr, r, s'⟩ : Record).finalised = [] := by
        cases task with
        | updateTrades => exact absurd rfl hup
        | _ => rfl
      have hsec := section_of_exec hx
      -- the sections that send nothing and leave the trades as they are
      have quiet : SameTrades s s' → (∀ eff, r = .ok eff → eff.reply = none) →
          Books cfg ⟨op, task, s, tr, r, s'⟩ := by
        intro hs hreply
        refine .same (Record.creation_of_reply hnot hreply) hnone ?_ hs.created hs.archive
        show List.Forall₂ Frame s.trades s'.trades
        rw [hs.trades]
        exact forall₂_frame _
      cases hsec with
      | idle hs _ hr _ => exact quiet hs hr.reply
      | orderTaken _ _ _ => exact absurd rfl (hnot _ _ _)
      | takeFailed _ _ _ hr =>
          refine quiet (.refl s) ?_
          rcases hr with ⟨_, rfl⟩ | ⟨c, _, rfl⟩
          · rintro _ ⟨⟩
            rfl
          · simp
      | takeCreated _ _ h => exact .creates rfl rfl rfl h.frame rfl rfl rfl
      | processed hs _ _ h _ =>
          refine .same rfl rfl ?_ rfl rfl
          show List.Forall₂ Frame s.trades _
          rw [hs]
          refine List.rel_append (forall₂_frame _) (.cons ?_ (forall₂_frame _))
          exact (handleMessage_spec _ _).frame.trans h.frame
      | aborted _ _ _ => exact quiet (.refl s) (by simp)
      | updated _ _ _ => exact absurd rfl hup
      | updateFailed _ _ => exact absurd rfl hup
      | succeeded _ hs hr => exact quiet hs hr.reply
      | unsuccessful _ hs _ => exact quiet hs (by rintro _ ⟨⟩; rfl)
      | readInputs => exact quiet (.refl s) (by rintro _ ⟨⟩; rfl)
      | unlockOutput _ => exact quiet (.refl s) (by rintro _ ⟨⟩; rfl)

/-- Only the update hands trades to the handlers. -/
lemma handles_of_section {task : Task} {s s' : State} {tr : Conversation} {eff : Effect}
    (h : Section cfg s task tr (.ok eff) s') (htask : task ≠ .updateTrades) :
    handles eff.next = [] := by
  generalize hr : (Except.ok eff : Except Fail Effect) = r at h
  cases h with
  | idle _ _ hun _ => exact handles_eq_nil (hun.next eff hr.symm)
  | takeFailed _ _ _ hres =>
      rcases hres with ⟨_, rfl⟩ | ⟨c, _, rfl⟩
      · obtain rfl := Except.ok.inj hr
        rfl
      · simp at hr
  | aborted _ _ _ => simp at hr
  | updateFailed _ _ => simp at hr
  | updated _ _ _ => exact absurd rfl htask
  | succeeded _ _ hun => exact handles_eq_nil (hun.next eff hr.symm)
  | unsuccessful _ _ hpre =>
      obtain rfl := Except.ok.inj hr
      rw [handles_append, handles_eq_nil hpre, List.nil_append, releaseTasks, handles_append]
      split <;> split <;> rfl
  | readInputs =>
      obtain rfl := Except.ok.inj hr
      show handles (List.map _ _) = []
      rw [List.eq_nil_iff_forall_not_mem]
      intro t ht
      obtain ⟨_, _, heq⟩ := List.mem_map.mp (mem_handles ht)
      simp at heq
  | _ =>
      obtain rfl := Except.ok.inj hr
      rfl

/-! ## Every run -/

/-- The updater neither throws nor fails an assertion in this step. -/
def UpdaterReturns (_ : Sys × W) (l : Label) : Prop :=
  ∀ rec, l = .run rec → rec.op = .updateTrades → ∃ eff, rec.outcome = .ok eff

/-- The invariant. -/
structure Balanced (cfg : Config) (account : String) (σ : Sys) : Prop where
  numbered : (created σ.log).map TradeState.serial = List.range' 1 σ.state.created
  balance : ((σ.state.trades ++ finalised σ.log).map TradeState.serial).Perm
    ((created σ.log).map TradeState.serial)
  origin : ∀ t ∈ σ.state.trades ++ finalised σ.log, ∃ t₀ ∈ created σ.log, Frame t₀ t
  archive : σ.state.tradeArchive = (finalised σ.log).map (getPublicInfo account)
  handlers : (handled σ.log ++ unhandled σ.threads).Perm (finalised σ.log)
  final : ∀ t ∈ finalised σ.log, isFinalised t = true
  updates : ∀ rec ∈ σ.log, rec.task = .updateTrades → UpdatesExactly cfg rec

lemma serials_of_forall₂ {ts ts' : List TradeState} (h : List.Forall₂ Frame ts ts') :
    ts'.map TradeState.serial = ts.map TradeState.serial := by
  induction h with
  | nil => rfl
  | cons hf _ ih => simp only [List.map_cons, hf.serial, ih]

lemma origin_of_forall₂ {ts ts' : List TradeState} (h : List.Forall₂ Frame ts ts') :
    ∀ t' ∈ ts', ∃ t ∈ ts, Frame t t' := by
  induction h with
  | nil => simp
  | cons hf _ ih =>
      intro t' ht'
      rcases List.mem_cons.mp ht' with rfl | ht'
      · exact ⟨_, by simp, hf⟩
      · obtain ⟨t, ht, hft⟩ := ih t' ht'
        exact ⟨t, by simp [ht], hft⟩

/-- What `Trade::Update` makes of the trades of an update. -/
lemma frames_of_updates {us : List (TradeState × TradeState)}
    (hu : ∀ p ∈ us, ∃ tr, (updateTrade cfg p.1).Exec tr (.ok (), p.2)) :
    List.Forall₂ Frame (us.map Prod.fst) (us.map Prod.snd) := by
  induction us with
  | nil => exact .nil
  | cons p us ih =>
      obtain ⟨tr, hx⟩ := hu p (by simp)
      have hout : Update.Outcome p.1 tr (.ok ()) p.2 :=
        Act.wp_iff.mp (updateTrade_spec p.1) tr (.ok ()) p.2 hx
      exact .cons hout.frame (ih fun q hq => hu q (by simp [hq]))

/-- Trades that were only changed within their frames, and then divided into active and finalised
ones, are the same trades. -/
lemma Balanced.divided {σ : Sys} (h : Balanced cfg account σ) {ts active fin : List TradeState}
    (hframes : List.Forall₂ Frame σ.state.trades ts)
    (hsplit : (active ++ fin).Perm (ts ++ finalised σ.log)) :
    ((active ++ fin).map TradeState.serial).Perm ((created σ.log).map TradeState.serial) ∧
      ∀ t' ∈ active ++ fin, ∃ t₀ ∈ created σ.log, Frame t₀ t' := by
  refine ⟨(hsplit.map _).trans ?_, fun t' ht' => ?_⟩
  · rw [List.map_append, serials_of_forall₂ hframes, ← List.map_append]
    exact h.balance
  · rcases List.mem_append.mp (hsplit.mem_iff.mp ht') with ht' | ht'
    · obtain ⟨t, ht, hft⟩ := origin_of_forall₂ hframes t' ht'
      obtain ⟨t₀, ht₀, hf₀⟩ := h.origin t (by simp [ht])
      exact ⟨t₀, ht₀, hf₀.trans hft⟩
    · exact h.origin t' (by simp [ht'])

/-- The same with one more trade, that was created as `t₀`. -/
lemma Balanced.joined {σ : Sys} (h : Balanced cfg account σ) {t₀ t : TradeState}
    (hframe : Frame t₀ t) :
    ((σ.state.trades ++ [t] ++ finalised σ.log).map TradeState.serial).Perm
        ((created σ.log ++ [t₀]).map TradeState.serial) ∧
      ∀ t' ∈ σ.state.trades ++ [t] ++ finalised σ.log, ∃ t₁ ∈ created σ.log ++ [t₀], Frame t₁ t' := by
  have hmove : (σ.state.trades ++ [t] ++ finalised σ.log).Perm
      (σ.state.trades ++ finalised σ.log ++ [t]) := by
    rw [List.append_assoc, List.append_assoc]
    exact List.perm_append_comm.append_left _
  refine ⟨(hmove.map _).trans ?_, fun t' ht' => ?_⟩
  · have hlast : ([t].map TradeState.serial).Perm ([t₀].map TradeState.serial) := by
      simp [hframe.serial]
    have hsum := h.balance.append hlast
    rwa [← List.map_append, ← List.map_append] at hsum
  · rcases List.mem_append.mp (hmove.mem_iff.mp ht') with ht' | ht'
    · obtain ⟨t₁, ht₁, hf₁⟩ := h.origin t' ht'
      exact ⟨t₁, by simp [ht₁], hf₁⟩
    · rw [List.mem_singleton.mp ht']
      exact ⟨t₀, by simp, hframe⟩

/-- The books after a section. -/
lemma Balanced.advance {σ : Sys} (h : Balanced cfg account σ) (hacc : σ.state.account = account)
    {rec : Record} (hpre : rec.pre = σ.state) (hb : Books cfg rec) {σ' : Sys}
    (hstate : σ'.state = rec.post) (hlog : σ'.log = σ.log ++ [rec])
    (hhandlers : (handled σ'.log ++ unhandled σ'.threads).Perm (finalised σ'.log))
    (hupd : rec.task = .updateTrades → UpdatesExactly cfg rec) : Balanced cfg account σ' := by
  have hcr : created σ'.log = created σ.log ++ rec.creation.toList := by
    rw [hlog, created, List.filterMap_append]
    cases hc : rec.creation <;> simp [created, hc]
  have hfin : finalised σ'.log = finalised σ.log ++ rec.finalised := by
    rw [hlog, finalised, List.flatMap_append]
    simp [finalised]
  have hupdates : ∀ rec' ∈ σ'.log, rec'.task = .updateTrades → UpdatesExactly cfg rec' := by
    intro rec' hrec'
    rw [hlog] at hrec'
    rcases List.mem_append.mp hrec' with hrec' | hrec'
    · exact h.updates rec' hrec'
    · rw [List.mem_singleton.mp hrec']
      exact hupd
  cases hb with
  | same hcreation hfinal htrades hcreated harchive =>
      rw [hpre] at htrades hcreated harchive
      rw [hcreation, Option.toList_none, List.append_nil] at hcr
      rw [hfinal, List.append_nil] at hfin
      obtain ⟨hbalance, horigin⟩ := h.divided htrades (List.Perm.refl _)
      refine ⟨?_, ?_, ?_, ?_, hhandlers, by rw [hfin]; exact h.final, hupdates⟩
      · rw [hcr, hstate, hcreated]
        exact h.numbered
      · rw [hcr, hfin, hstate]
        exact hbalance
      · rw [hcr, hfin, hstate]
        exact horigin
      · rw [hfin, hstate, harchive]
        exact h.archive
  | @creates t₀ t hcreation hfinal hserial hframe htrades hcreated harchive =>
      rw [hpre] at hserial htrades hcreated harchive
      rw [hcreation, Option.toList_some] at hcr
      rw [hfinal, List.append_nil] at hfin
      obtain ⟨hbalance, horigin⟩ := h.joined hframe
      refine ⟨?_, ?_, ?_, ?_, hhandlers, by rw [hfin]; exact h.final, hupdates⟩
      · rw [hcr, hstate, hcreated, List.map_append, h.numbered, List.range'_concat]
        simp [hserial, Nat.add_comm]
      · rw [hcr, hfin, hstate, htrades]
        exact hbalance
      · rw [hcr, hfin, hstate, htrades]
        exact horigin
      · rw [hfin, hstate, harchive]
        exact h.archive
  | updates hcreation hex hcreated =>
      obtain ⟨us, hus, hu, htrades, hfinal, harchive⟩ := hex
      rw [hpre] at hus hcreated harchive
      rw [hcreation, Option.toList_none, List.append_nil] at hcr
      have hframes : List.Forall₂ Frame σ.state.trades (us.map Prod.snd) := by
        rw [hus]
        exact frames_of_updates hu
      -- what is kept and what is finalised together are all
      have hsplit : (rec.post.trades ++ (finalised σ.log ++ rec.finalised)).Perm
          (us.map Prod.snd ++ finalised σ.log) := by
        rw [htrades, hfinal]
        refine (List.perm_append_comm.append_left _).trans ?_
        rw [← List.append_assoc]
        refine List.Perm.append_right _ ?_
        refine List.perm_append_comm.trans ?_
        exact List.filter_append_perm _ _
      obtain ⟨hbalance, horigin⟩ := h.divided hframes hsplit
      refine ⟨?_, ?_, ?_, ?_, hhandlers, ?_, hupdates⟩
      · rw [hcr, hstate, hcreated]
        exact h.numbered
      · rw [hcr, hfin, hstate]
        exact hbalance
      · rw [hcr, hfin, hstate]
        exact horigin
      · rw [hfin, hstate, harchive, h.archive, hacc, List.map_append]
      · rw [hfin]
        intro t ht
        rcases List.mem_append.mp ht with ht | ht
        · exact h.final t ht
        · rw [hfinal] at ht
          exact (List.mem_filter.mp ht).2

/-- The handlers after a section. -/
lemma handlers_advance {σ : Sys} (h : (handled σ.log ++ unhandled σ.threads).Perm (finalised σ.log))
    (hproper : σ.Proper) {before after : List Thread} {op : Op} {task : Task} {rest : List Task}
    {tr : Conversation} {r : Except Fail Effect} {s' : State}
    (hth : σ.threads = before ++ ⟨op, task :: rest⟩ :: after)
    (hsec : Section cfg σ.state task tr r s') (hok : op = .updateTrades → ∃ eff, r = .ok eff) :
    (handled (σ.advance before after rest ⟨op, task, σ.state, tr, r, s'⟩).log
      ++ unhandled (σ.advance before after rest ⟨op, task, σ.state, tr, r, s'⟩).threads).Perm
      (finalised (σ.advance before after rest ⟨op, task, σ.state, tr, r, s'⟩).log) := by
  -- what the thread had to handle before and after the section
  have hold : unhandled σ.threads
      = unhandled before ++ (handles [task] ++ handles rest ++ unhandled after) := by
    rw [hth, unhandled, List.flatMap_append, List.flatMap_cons, ← handles_append]
    rfl
  have hnew : unhandled (σ.advance before after rest ⟨op, task, σ.state, tr, r, s'⟩).threads
      = unhandled before ++ (handles (continuation rest r) ++ unhandled after) := by
    simp [Sys.advance, unhandled]
  have hdone : handled (σ.advance before after rest ⟨op, task, σ.state, tr, r, s'⟩).log
      = handled σ.log ++ handles [task] := by
    simp [Sys.advance, handled]
  have hfin : finalised (σ.advance before after rest ⟨op, task, σ.state, tr, r, s'⟩).log
      = finalised σ.log ++ (⟨op, task, σ.state, tr, r, s'⟩ : Record).finalised := by
    simp [Sys.advance, finalised]
  have hcont : handles (continuation rest r)
      = (⟨op, task, σ.state, tr, r, s'⟩ : Record).finalised ++ handles rest := by
    cases r with
    | error e =>
        -- only a thread of the updater has anything to handle
        rw [Record.finalised_error, List.nil_append]
        refine (List.eq_nil_iff_forall_not_mem.mpr fun t ht => ?_).symm
        have hop : op = .updateTrades := hproper ⟨op, task :: rest⟩ (by simp [hth]) (.handle t)
          (by simp [mem_handles ht]) trivial
        obtain ⟨eff, heff⟩ := hok hop
        simp at heff
    | ok eff =>
        rw [continuation, handles_append]
        by_cases hup : task = .updateTrades
        · subst hup
          rfl
        · rw [handles_of_section hsec hup]
          cases task with
          | updateTrades => exact absurd rfl hup
          | _ => rfl
  rw [hdone, hnew, hcont, hfin]
  rw [hold] at h
  refine List.Perm.trans ?_ (h.append_right _)
  rw [List.perm_iff_count]
  intro t
  simp only [List.count_append]
  omega

/-- **The invariant holds in every run in which the updater returns.** -/
theorem reachable_balanced {x : Sys × W}
    (h : ((system cfg E account).restrict UpdaterReturns).Reachable x) :
    Balanced cfg account x.1 := by
  refine Transition.System.Reachable.invariant (fun x => Balanced cfg account x.1) ?_ ?_ h
  · intro x hx
    rw [hx]
    exact ⟨rfl, .refl _, by simp [Sys.start, finalised], rfl, .refl _, by simp [Sys.start, finalised],
      by simp [Sys.start]⟩
  · rintro x l ⟨σ', w'⟩ hr ih ⟨⟨hs, _⟩, hret⟩
    have hacc := reachable_account hr.of_restrict
    have hproper := reachable_proper hr.of_restrict
    dsimp only at hs ⊢
    cases hs with
    | start op hh =>
        refine ⟨ih.numbered, ih.balance, ih.origin, ih.archive, ?_, ih.final, ih.updates⟩
        have hnone : handles op.tasks = [] := by
          cases op <;> rfl
        have hth : unhandled (x.1.threads ++ [⟨op, op.tasks⟩]) = unhandled x.1.threads := by
          simp [unhandled, hnone]
        show (handled x.1.log ++ unhandled (x.1.threads ++ [⟨op, op.tasks⟩])).Perm _
        rw [hth]
        exact ih.handlers
    | @run before after op task rest tr r s' hh hth hx =>
        have hok : op = .updateTrades → ∃ eff, r = .ok eff := hret _ rfl
        have hupdater : task = .updateTrades → ∃ eff, r = .ok eff := by
          rintro rfl
          exact hok (hproper ⟨op, .updateTrades :: rest⟩ (by simp [hth]) .updateTrades (by simp) trivial)
        refine ih.advance hacc rfl (books_of_exec op hx hupdater) rfl rfl ?_ ?_
        · exact handlers_advance ih.handlers hproper hth (section_of_exec hx) hok
        · rintro rfl
          exact (Act.wp_iff.mp (updateTrades_exact x.1.state) tr r s' hx op (hupdater rfl)).1

/-- The log only gets longer. -/
lemma log_prefix {P : Sys × W → Label → Prop} {x x' : Sys × W}
    (h : ((system cfg E account).restrict P).Later x x') : x.1.log <+: x'.1.log := by
  induction h with
  | refl => exact List.prefix_rfl
  | @tail y z _ hst ih =>
      obtain ⟨l, ⟨hst, _⟩, _⟩ := hst
      refine ih.trans ?_
      generalize z.1 = z₁ at hst
      cases hst with
      | start op _ => exact List.prefix_rfl
      | run _ _ _ => exact List.prefix_append _ _

/-- What is archived of a trade is, but for its state, what was public about it at its creation. -/
lemma Frame.getPublicInfo {t₀ t : TradeState} (h : Frame t₀ t) :
    getPublicInfo account t = { getPublicInfo account t₀ with state := t.getState } := by
  simp only [Democrit.getPublicInfo, h.order, h.units, h.counterparty, h.startTime,
    h.getOrderType, h.getRole]

/-- **Every trade is accounted for.**  In every run in which the updater returns: the trades created
are, each once, the active ones and the finalised ones; the archive lists the finalised ones in
order, with the data they were created with; it is only ever added to; every update keeps and moves
exactly what it should; and the handler of each finalised trade was run once or is still to be run
by the updater. -/
theorem trades_accounted {x : Sys × W}
    (hr : ((system cfg E account).restrict UpdaterReturns).Reachable x) :
    ((created x.1.log).map TradeState.serial).Nodup ∧
    ((x.1.state.trades ++ finalised x.1.log).map TradeState.serial).Perm
      ((created x.1.log).map TradeState.serial) ∧
    (∀ t ∈ x.1.state.trades ++ finalised x.1.log, ∃ t₀ ∈ created x.1.log, t₀.serial = t.serial ∧
      getPublicInfo account t = { getPublicInfo account t₀ with state := t.getState }) ∧
    x.1.state.tradeArchive = (finalised x.1.log).map (getPublicInfo account) ∧
    (∀ rec ∈ x.1.log, rec.task = .updateTrades → UpdatesExactly cfg rec) ∧
    (handled x.1.log ++ unhandled x.1.threads).Perm (finalised x.1.log) ∧
    (∀ t ∈ finalised x.1.log,
      t.getState = .success ∨ t.getState = .failed ∨ t.getState = .abandoned) ∧
    ∀ x', ((system cfg E account).restrict UpdaterReturns).Later x x' →
      x.1.state.tradeArchive <+: x'.1.state.tradeArchive := by
  have h := reachable_balanced hr
  refine ⟨?_, h.balance, ?_, h.archive, h.updates, h.handlers, ?_, ?_⟩
  · rw [h.numbered]
    exact List.nodup_range'
  · intro t ht
    obtain ⟨t₀, ht₀, hf⟩ := h.origin t ht
    exact ⟨t₀, ht₀, hf.serial.symm, hf.getPublicInfo⟩
  · intro t ht
    have hfinal := h.final t ht
    rw [isFinalised] at hfinal
    rw [TradeState.getState]
    split at hfinal <;> simp_all
  · intro x' hl
    rw [h.archive, (reachable_balanced (hr.later hl)).archive]
    obtain ⟨more, hmore⟩ := log_prefix hl
    refine ⟨(finalised more).map (getPublicInfo account), ?_⟩
    rw [← hmore]
    simp only [finalised, List.flatMap_append, List.map_append]

/-- A node that answers nothing, and a clock that goes on by a minute whenever it is asked. -/
def tickScript (now : Int64) : (c : Call) → Answer c × Int64
  | .clock => (now, now + 60)
  | .rpc _ => (.error .exception, now)

/-- An ask for gold. -/
def goldOrder : Order where
  account := some "maker"
  id := some 7
  asset := some "gold"
  maxUnits := 3
  type := some .ask
  priceSat := some 5

/-- The step does not fail. -/
def Label.succeeds : Label → Bool
  | .start _ => true
  | .run rec => rec.outcome.isOk

/-- A trade that times out is archived and handled once. -/
theorem trades_accounted_abandoned : ∃ x : Sys × Int64,
    ((system sampleConfig (Env.ofScript tickScript) "taker").restrict UpdaterReturns).Reachable x ∧
    x.1.state.tradeArchive = [⟨.abandoned, 0, "maker", .bid, "gold", 2, 5, .taker⟩] ∧
    (finalised x.1.log).length = 1 ∧ (handled x.1.log ++ unhandled x.1.threads).length = 1 := by
  obtain ⟨x, hr, hQ⟩ := Sys.exists_restricted sampleConfig tickScript "taker" 0
    [.start (.takeOrder goldOrder 2), .run 0, .start .updateTrades, .run 1, .run 1]
    Label.succeeds UpdaterReturns
    (by
      rintro x l x' _ hok rec rfl _
      cases hr : rec.outcome with
      | ok eff => exact ⟨eff, rfl⟩
      | error e => simp [Label.succeeds, hr, Except.isOk, Except.toBool] at hok)
    (fun x => x.1.state.tradeArchive = [⟨.abandoned, 0, "maker", .bid, "gold", 2, 5, .taker⟩])
    (by decide)
  have harchive := of_decide_eq_true hQ
  obtain ⟨_, _, _, heq, _, hperm, _⟩ := trades_accounted hr
  have hlen : (finalised x.1.log).length = 1 := by
    have := congrArg List.length heq
    rw [harchive, List.length_map] at this
    exact this.symm
  exact ⟨x, hr, harchive, hlen, hperm.length_eq.trans hlen⟩

end Democrit
