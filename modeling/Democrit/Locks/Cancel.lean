import Democrit.Locks.Sessions
import Democrit.Safety.Seller

/-!
# Cancelled orders

`CancelOrder` removes an order, but a trade against it keeps its own copy.  If that trade succeeds
and leaves a remainder, `HandleSuccess` adds the reduced copy as a new order **without looking
whether the original one is still there** (`cancelled_returns`).

What can be said is that an order cancelled while no such trade is in sight stays cancelled
(`cancelled_stays`).  An order in sight is one that is traded against, one that `ProcessMessage` has
locked for a trade to come, and one whose reduced copy `HandleSuccess` has not yet added.  Since
neither the copy nor the call of `Add` say which order they come from, the re-creations are
accounted for: every order that anything but a user's call adds was asked for by a `HandleSuccess`
that is in the log (`readds_step`).
-/

namespace Democrit

open Interaction

variable {cfg : Config} {account : String} {W : Type} {E : Env Call Answer W}

/-! ## Re-created orders -/

/-- The orders that some tasks are there to add. -/
def additions (tasks : List Task) : List Order :=
  tasks.filterMap fun
    | .add o => some o
    | _ => none

/-- The orders that a section, which can only be one of `HandleSuccess`, leaves to be added. -/
def Record.recreates (rec : Record) : List Order :=
  match rec.outcome with
  | .ok eff => additions eff.next
  | .error _ => []

/-- The section handles a trade against our order `id`. -/
def Record.settles (account : String) (id : UInt64) (rec : Record) : Bool :=
  match rec.task with
  | .handle t => t.holds account id
  | _ => false

/-- The orders that were to be re-created from the order `id`. -/
def recreations (account : String) (id : UInt64) (log : List Record) : List Order :=
  (log.filter fun rec => rec.settles account id).flatMap Record.recreates

/-- The orders that were to be re-created from others. -/
def otherRecreations (account : String) (id : UInt64) (log : List Record) : List Order :=
  (log.filter fun rec => !rec.settles account id).flatMap Record.recreates

lemma recreations_append (account : String) (id : UInt64) (log log' : List Record) :
    recreations account id (log ++ log')
      = recreations account id log ++ recreations account id log' := by
  rw [recreations, List.filter_append, List.flatMap_append]
  rfl

/-- The orders that anything but a user's call of `Add` has added. -/
def Record.readds (rec : Record) : List Order :=
  match rec.op with
  | .addOrder _ => []
  | _ => additions [rec.task]

/-- The orders that a thread, if it is not a user's call of `Add`, is still to add. -/
def Thread.recreating (th : Thread) : List Order :=
  match th.op with
  | .addOrder _ => []
  | _ => additions th.tasks

/-- The same for all threads. -/
def recreating (threads : List Thread) : List Order := threads.flatMap Thread.recreating

@[simp] lemma additions_append (l l' : List Task) :
    additions (l ++ l') = additions l ++ additions l' :=
  List.filterMap_append

@[simp] lemma additions_nil : additions [] = [] := rfl

@[simp] lemma additions_add (o : Order) : additions [.add o] = [o] := rfl

@[simp] lemma additions_refreshTasks : additions refreshTasks = [] := rfl

/-- What a thread goes on to add. -/
lemma Record.additions_continuation (rec : Record) (rest : List Task) :
    (additions (continuation rest rec.outcome)).Subperm (rec.recreates ++ additions rest) := by
  rw [Record.recreates]
  cases rec.outcome with
  | ok eff =>
      rw [continuation, additions_append]
  | error e => exact List.nil_subperm

/-- **Every step**: what is added, and what is left to add, was left to add or is asked for now. -/
lemma readds_step {σ σ' : Sys} {l : Label} (hs : Sys.Step cfg σ l σ') :
    (l.news.flatMap Record.readds ++ recreating σ'.threads).Subperm
      (recreating σ.threads ++ l.news.flatMap Record.recreates) := by
  cases hs with
  | start op _ =>
      have hnone : Thread.recreating ⟨op, op.tasks⟩ = [] := by
        cases op <;> rfl
      simp [Label.news, recreating, hnone, List.Subperm.refl]
  | @run before after op task rest tr r s' _ hth _ =>
      -- the thread that has run
      have hmine : ∀ rec : Record, rec.op = op → rec.task = task →
          (rec.readds ++ Thread.recreating ⟨op, continuation rest rec.outcome⟩).Subperm
            (Thread.recreating ⟨op, task :: rest⟩ ++ rec.recreates) := by
        rintro rec hop htask
        have hsub : (additions [task] ++ additions (continuation rest rec.outcome)).Subperm
            (additions (task :: rest) ++ rec.recreates) := by
          have hcons : additions (task :: rest) = additions [task] ++ additions rest :=
            additions_append [task] rest
          rw [hcons, List.append_assoc]
          refine (List.subperm_append_left _).mpr ?_
          exact (rec.additions_continuation rest).trans List.perm_append_comm.subperm
        rw [Record.readds, hop, htask, Thread.recreating, Thread.recreating]
        cases op with
        | addOrder o => exact List.nil_subperm
        | _ => exact hsub
      have hmine := hmine ⟨op, task, σ.state, tr, r, s'⟩ rfl rfl
      simp only [Label.news, Sys.advance, recreating, hth, List.flatMap_append, List.flatMap_cons,
        List.flatMap_nil, List.append_nil]
      rw [List.subperm_ext_iff]
      intro o _
      have hcount := hmine.count_le o
      simp only [List.count_append] at hcount ⊢
      omega

/-! ## Which orders turn up -/

/-- The order `id` is among the own orders, or in a broadcast that is about to be made. -/
def Sys.Shows (σ : Sys) (id : UInt64) : Prop :=
  (σ.state.ownOrders.lookup id).isSome ∨
    ∃ orders, .updateOrders orders ∈ σ.tasks ∧ id ∈ orders.orders

/-- The section is one of `Add`, and has put an order under `id`. -/
def Record.Puts (rec : Record) (id : UInt64) : Prop :=
  ∃ o, rec.task = .add o ∧ rec.pre.nextFreeId = id ∧
    rec.post.ownOrders.lookup id = some { o with account := none, id := none }

/-- The section is a broadcast with the order `id` in it. -/
def Record.Broadcasts (rec : Record) (id : UInt64) : Prop :=
  ∃ orders, rec.task = .updateOrders orders ∧ id ∈ orders.orders

lemma additions_releaseTasks (account : String) (t : TradeState) :
    additions (releaseTasks account t) = [] := by
  rw [additions, List.filterMap_eq_nil_iff]
  intro x hx
  have := subject_of_release hx
  cases x with
  | add o => simp [Task.subject] at this
  | _ => rfl

/-- **When `HandleSuccess` re-creates an order.**  It does not look at the own orders for it. -/
lemma handleFinalised_next (s : State) (t : TradeState) :
    (handleFinalised t).wp s fun _ r _ => ∀ eff, r = .ok eff →
      additions eff.next = if getRole s.account t = .maker ∧ t.getState = .success ∧
        keepsReducedOrder t = true then [reducedOrder t] else [] := by
  simp only [handleFinalised, Act.wp_bind, Act.wp_read, Act.afterBind_ok]
  cases hstate : t.getState with
  | initiated | pending => simp
  | abandoned | failed =>
      dsimp only
      split
      · simp only [Act.wp_bind]
        refine Act.wp_iff.mpr fun tr r s' _ => ?_
        cases r <;> simp [additions_releaseTasks]
      · simp [additions_releaseTasks]
  | success =>
      dsimp only
      split
      · rename_i hmaker
        simp only [removeById, Act.wp_bind, Act.wp_read, Act.afterBind_ok, Act.wp_write]
        split
        · rename_i hkeep
          simp [hmaker, hkeep]
        · rename_i hkeep
          simp [hkeep]
      · rename_i htaker
        simp [htaker]

/-- A broadcast is made of what was read just before. -/
lemma updateOrders_of_exec {s s' : State} {task : Task} {tr : Conversation} {eff : Effect}
    (hx : (exec cfg task s).Exec tr (.ok eff, s')) {orders : OrdersOfAccount}
    (hnext : .updateOrders orders ∈ eff.next) : orders = internalGetOrders false s := by
  have hleads := leads_of_exec hx _ hnext
  cases task with
  | getOrders =>
      have hspec : (exec cfg .getOrders).wp s fun _ r _ => ∀ eff, r = .ok eff →
          eff.next = [.updateOrders (internalGetOrders false s)] := by
        rintro _ ⟨⟩
        rfl
      rw [Act.wp_iff.mp hspec tr _ s' hx eff rfl] at hnext
      simpa using hnext
  | _ => simp [Task.leadsTo] at hleads

/-- **Every step**: an order that turns up did so before, or is put there by `Add`. -/
lemma shows_step {σ σ' : Sys} {l : Label} (hs : Sys.Step cfg σ l σ') (hproper : σ.Proper)
    (hmatched : ∀ y ∈ σ.tasks, y.matched) (hrun : σ'.halted = false) {id : UInt64}
    (h : σ'.Shows id ∨ ∃ rec ∈ l.news, rec.Broadcasts id) :
    σ.Shows id ∨ ∃ rec ∈ l.news, rec.Puts id := by
  cases hs with
  | start op _ =>
      rcases h with (h | ⟨orders, hmem, hid⟩) | ⟨rec, hrec, _⟩
      · exact Or.inl (Or.inl h)
      · rw [Sys.tasks_start] at hmem
        rcases List.mem_append.mp hmem with hmem | hmem
        · exact Or.inl (Or.inr ⟨orders, hmem, hid⟩)
        · cases op <;> simp [Op.tasks, refreshTasks] at hmem
      · simp [Label.news] at hrec
  | @run before after op task rest tr r s' hh hth hx =>
      have htask : task ∈ σ.tasks := by simp [Sys.tasks_split hth]
      have horders := Act.wp_iff.mp (exec_orders σ.state (hmatched task htask)) tr r s' hx
      rcases h with (h | ⟨orders, hmem, hid⟩) | ⟨rec, hrec, orders, heq, hid⟩
      · cases r with
        | ok eff =>
            obtain ⟨o', ho'⟩ := Option.isSome_iff_exists.mp h
            rcases Tokens.stored horders ho' with ⟨o, ho, _⟩ | ⟨o, hadd, hfree, rfl⟩
            · exact Or.inl (Or.inl (by simp [ho]))
            · exact Or.inr ⟨_, List.mem_singleton.mpr rfl, o, hadd, hfree, ho'⟩
        | error e =>
            obtain ⟨rfl, hnot⟩ := exception_of_running hproper hth hrun
            obtain ⟨_, _, hblank⟩ := throws_of_exec hx (hmatched task htask) hnot
            obtain ⟨o, ho⟩ := Option.isSome_iff_exists.mp h
            exact Or.inl (Or.inl (hblank id o ho).1)
      · left
        rw [Sys.tasks_advance] at hmem
        simp only [List.mem_append] at hmem
        have hold : .updateOrders orders ∈ σ.tasks → σ.Shows id := fun h => Or.inr ⟨orders, h, hid⟩
        rw [Sys.tasks_split hth] at hold
        rcases hmem with hmem | hmem | hmem
        · exact hold (by simp [hmem])
        · cases r with
          | error e => simp [continuation] at hmem
          | ok eff =>
              rcases List.mem_append.mp hmem with hmem | hmem
              · -- what was read are own orders
                obtain rfl := updateOrders_of_exec hx hmem
                obtain ⟨o, ho⟩ := Option.isSome_iff_exists.mp (AList.lookup_isSome.mpr hid)
                rw [lookup_internalGetOrders] at ho
                rw [Sys.Shows, ho.1]
                exact Or.inl rfl
              · exact hold (by simp [hmem])
        · exact hold (by simp [hmem])
      · rw [List.mem_singleton.mp hrec] at heq
        dsimp only at heq
        subst heq
        exact Or.inl (Or.inr ⟨orders, htask, hid⟩)

/-! ## An order that is gone -/

/-- The order `id` was given out and is gone, and what is left of its trades leaves no remainder. -/
structure Sys.Gone (σ : Sys) (id : UInt64) : Prop where
  given : id.toNat < σ.state.nextFreeId.toNat
  absent : σ.state.ownOrders.lookup id = none
  trades : ∀ t, σ.Knows t → t.holds σ.state.account id = true → keepsReducedOrder t = false
  taken : ∀ o taking msg, .orderTaken o taking msg ∈ σ.tasks → taking.id = id →
    keepsReducedOrder { order := o, units := taking.units } = false

/-- An order is cancelled only when no trade that would leave a remainder of it is going to be
created, is active or is being settled, and when no reduced copy of it is still to be added; and the
ids do not run out. -/
def CancelsIdle (x : Sys × W) : Label → Prop
  | .start _ => True
  | .run rec => match rec.op, rec.task with
    | .cancelOrder _, .remove id =>
        (∀ t, x.1.Knows t → t.holds x.1.state.account id = true → keepsReducedOrder t = false) ∧
        (∀ o taking msg, .orderTaken o taking msg ∈ x.1.tasks → taking.id = id →
          keepsReducedOrder { order := o, units := taking.units } = false) ∧
        ∀ o ∈ recreations x.1.state.account id x.1.log, o ∉ recreating x.1.threads
    | _, .add _ => x.1.state.nextFreeId.toNat + 1 < 2 ^ 64
    | _, _ => True

/-- What `keepsReducedOrder` looks at. -/
lemma keepsReducedOrder_congr {t t' : TradeState} (horder : t'.order = t.order)
    (hunits : t'.units = t.units) : keepsReducedOrder t' = keepsReducedOrder t := by
  rw [keepsReducedOrder, keepsReducedOrder, reducedOrder, reducedOrder, horder, hunits]

lemma Sys.Gone.known {σ σ' : Sys} {l : Label} {id : UInt64} (h : σ.Gone id)
    (hs : Sys.Step cfg σ l σ') (hmatched : ∀ y ∈ σ.tasks, y.matched) {t : TradeState}
    (hk : σ'.Knows t) (hholds : t.holds σ.state.account id = true) :
    keepsReducedOrder t = false := by
  rcases origin_of_step hs hk with hk | ⟨rec, rfl, horigin⟩
  · exact h.trades t hk hholds
  · have htask : rec.task ∈ σ.tasks := by
      cases hs with
      | run _ hth _ => simp [Sys.tasks_split hth]
    cases horigin with
    | old hk => exact h.trades t hk hholds
    | blank heq _ => rw [heq]; rfl
    | @taken o taking msg now ht _ hown _ heq =>
        have hmatch := hmatched _ htask
        rw [ht] at htask hmatch
        rw [heq] at hholds ⊢
        have hid : taking.id = id := by
          have hid : o.getId = id := by
            simpa [TradeState.holds, newTrade, getRole, hown] using hholds
          rw [← hid]
          exact hmatch.symm
        rw [← h.taken o taking msg htask hid]
        exact keepsReducedOrder_congr rfl (by simp [newTrade])
    | took _ _ hown _ hout =>
        rw [hout.frame.holds] at hholds
        simp [TradeState.holds, getRole, newTrade, hown] at hholds
    | @processed msg t₀ _ _ ht _ hout _ =>
        have hframe := (handleMessage_spec msg t₀).frame.trans hout.frame
        rw [hframe.holds] at hholds
        rw [keepsReducedOrder_congr hframe.order hframe.units]
        exact h.trades t₀ (Or.inl ht) hholds
    | @updated t₀ _ _ ht hout =>
        rw [hout.frame.holds] at hholds
        rw [keepsReducedOrder_congr hout.frame.order hout.frame.units]
        exact h.trades t₀ (Or.inl ht) hholds

/-- The counter of a section that returned. -/
lemma Tokens.counter {s s' : State} {task : Task} {tr : Conversation} {eff : Effect}
    (h : Tokens s task tr eff s') :
    s'.nextFreeId = s.nextFreeId ∨ (∃ o, task = .add o) ∧ s'.nextFreeId = s.nextFreeId + 1 := by
  cases h with
  | pass _ hid _ _ => exact Or.inl hid
  | add htask _ => exact Or.inr ⟨⟨_, htask⟩, rfl⟩
  | _ => exact Or.inl rfl

/-- **The step of the invariant.** -/
lemma Sys.Gone.step {x : Sys × W} {σ' : Sys} {l : Label} {id : UInt64} (h : x.1.Gone id)
    (hs : Sys.Step cfg x.1 l σ') (hproper : x.1.Proper) (hmatched : ∀ y ∈ x.1.tasks, y.matched)
    (hidle : CancelsIdle x l) (hrun : σ'.halted = false) : σ'.Gone id := by
  have hknown := fun t hk => @Sys.Gone.known cfg x.1 σ' l id h hs hmatched t hk
  have htaken : ∀ y ∈ σ'.tasks, ∀ o taking msg, y = .orderTaken o taking msg → taking.id = id →
      keepsReducedOrder { order := o, units := taking.units } = false := by
    refine tasks_of_step hs (fun y hy o taking msg heq => h.taken o taking msg (heq ▸ hy)) ?_ ?_
    · rintro op rfl y hy o taking msg rfl
      cases op <;> simp [Op.tasks, refreshTasks] at hy
    · rintro rec eff rfl hok _ y hy o taking msg rfl hid
      have horders := orders_of_step hs hmatched
      rw [hok] at horders
      -- an order that is not there cannot be taken
      obtain ⟨o₀, ho₀, _⟩ := Tokens.taken horders hy
      rw [hid, h.absent] at ho₀
      simp at ho₀
  have htaken : ∀ o taking msg, .orderTaken o taking msg ∈ σ'.tasks → taking.id = id →
      keepsReducedOrder { order := o, units := taking.units } = false :=
    fun o taking msg hmem => htaken _ hmem o taking msg rfl
  cases hs with
  | start op _ => exact ⟨h.given, h.absent, hknown, htaken⟩
  | @run before after op task rest tr r s' hh hth hx =>
      have htask : task ∈ x.1.tasks := by simp [Sys.tasks_split hth]
      have horders := Act.wp_iff.mp (exec_orders x.1.state (hmatched task htask)) tr r s' hx
      have hacc := (section_of_exec hx).account_eq
      refine ⟨?_, ?_, fun t hk hholds => hknown t hk (hacc ▸ hholds), htaken⟩
      · show id.toNat < s'.nextFreeId.toNat
        have hgiven := h.given
        cases r with
        | ok eff =>
            rcases Tokens.counter horders with heq | ⟨⟨o, rfl⟩, heq⟩
            · rw [heq]
              exact hgiven
            · have hwrap : x.1.state.nextFreeId.toNat + 1 < 2 ^ 64 := by
                cases op <;> exact hidle
              rw [heq, toNat_add_one hwrap]
              omega
        | error e =>
            obtain ⟨rfl, hnot⟩ := exception_of_running hproper hth hrun
            obtain ⟨_, heq, _⟩ := throws_of_exec hx (hmatched task htask) hnot
            rw [heq]
            exact hgiven
      · show s'.ownOrders.lookup id = none
        rw [← Option.not_isSome_iff_eq_none]
        intro hsome
        obtain ⟨o', ho'⟩ := Option.isSome_iff_exists.mp hsome
        cases r with
        | ok eff =>
            rcases Tokens.stored horders ho' with ⟨o, hold, _⟩ | ⟨o, _, hfree, _⟩
            · rw [h.absent] at hold
              simp at hold
            · have hgiven := h.given
              rw [hfree] at hgiven
              exact absurd hgiven (Nat.lt_irrefl _)
        | error e =>
            obtain ⟨rfl, hnot⟩ := exception_of_running hproper hth hrun
            obtain ⟨_, _, hblank⟩ := throws_of_exec hx (hmatched task htask) hnot
            have hold := (hblank id o' ho').1
            rw [h.absent] at hold
            simp at hold

/-- The trades against an order that is gone do not re-create it. -/
lemma Sys.Gone.recreates {σ σ' : Sys} {id : UInt64} (h : σ.Gone id) {rec : Record}
    (hs : Sys.Step cfg σ (.run rec) σ') (hsettles : rec.settles σ.state.account id = true) :
    rec.recreates = [] := by
  cases hs with
  | @run before after op task rest tr r s' _ hth hx =>
      rw [Record.settles] at hsettles
      split at hsettles
      · rename_i t htask
        dsimp only at htask
        subst htask
        cases r with
        | error e => rfl
        | ok eff =>
            have hknown : σ.Knows t :=
              Or.inr ⟨⟨op, .handle t :: rest⟩, by simp [hth], .handle t, by simp, rfl⟩
            have hspec := Act.wp_iff.mp (handleFinalised_next σ.state t) tr _ s' hx eff rfl
            show additions eff.next = []
            rw [hspec, h.trades t hknown hsettles]
            simp
      · simp at hsettles

/-! ## Every run -/

/-- **The order `id` stays cancelled** from `σ` to `σ'`, between which the sections `after` were
run. -/
structure StaysCancelled (account : String) (id : UInt64) (σ σ' : Sys) (after : List Record) :
    Prop where
  log : σ'.log = σ.log ++ after
  /-- It is not among the own orders. -/
  absent : σ'.state.ownOrders.lookup id = none
  /-- Every order that is, or is broadcast, was there before or was put there by `Add`. -/
  shown : ∀ i, (σ'.Shows i ∨ ∃ rec ∈ after, rec.Broadcasts i) →
    σ.Shows i ∨ ∃ rec ∈ after, rec.Puts i
  /-- No trade against it has led to a new order. -/
  settled : recreations account id after = []
  /-- None was to be re-created from it before. -/
  pending : ∀ o ∈ recreations account id σ.log, o ∉ recreating σ.threads
  /-- What was added other than by a user's `Add` is accounted for by these and by what was
  re-created from other orders. -/
  readds : (after.flatMap Record.readds ++ recreating σ'.threads).Subperm
    (recreating σ.threads ++ otherRecreations account id after)

/-- Re-creations are from the order `id`, or from others. -/
lemma recreates_split (account : String) (id : UInt64) (log : List Record)
    (h : recreations account id log = []) :
    log.flatMap Record.recreates = otherRecreations account id log := by
  induction log with
  | nil => rfl
  | cons rec log ih =>
      rw [recreations, List.filter_cons] at h
      rw [otherRecreations, List.filter_cons, List.flatMap_cons]
      cases hsettles : rec.settles account id with
      | true =>
          simp only [hsettles, if_true, List.flatMap_cons, List.append_eq_nil_iff] at h
          simp only [Bool.not_true, Bool.false_eq_true, if_false, h.1, List.nil_append]
          exact ih h.2
      | false =>
          simp only [hsettles, Bool.false_eq_true, if_false] at h
          simp only [Bool.not_false, if_true, List.flatMap_cons]
          rw [ih h]
          rfl

lemma StaysCancelled.step {x x' : Sys × W} {σ : Sys} {l : Label} {id : UInt64} {after : List Record}
    (h : StaysCancelled account id σ x.1 after) (hacc : x.1.state.account = account)
    (hgone : x.1.Gone id) (hgone' : x'.1.Gone id) (hs : Sys.Step cfg x.1 l x'.1)
    (hproper : x.1.Proper) (hmatched : ∀ y ∈ x.1.tasks, y.matched) (hrun : x'.1.halted = false) :
    StaysCancelled account id σ x'.1 (after ++ l.news) := by
  have hnews : recreations account id l.news = [] := by
    cases l with
    | start op => rfl
    | run rec =>
        rw [recreations, Label.news, List.filter_singleton]
        cases hsettles : rec.settles account id with
        | false => rfl
        | true => simpa using hgone.recreates hs (hacc ▸ hsettles)
  refine ⟨?_, hgone'.absent, fun i hi => ?_, ?_, h.pending, ?_⟩
  · rw [log_of_step hs, h.log, List.append_assoc]
  · have hold : x.1.Shows i ∨ (∃ rec ∈ after, rec.Broadcasts i) ∨ ∃ rec ∈ l.news, rec.Puts i := by
      rcases hi with hi | ⟨rec, hrec, hi⟩
      · rcases shows_step hs hproper hmatched hrun (Or.inl hi) with hi | hi
        · exact Or.inl hi
        · exact Or.inr (Or.inr hi)
      · rcases List.mem_append.mp hrec with hrec | hrec
        · exact Or.inr (Or.inl ⟨rec, hrec, hi⟩)
        · rcases shows_step hs hproper hmatched hrun (Or.inr ⟨rec, hrec, hi⟩) with hi | hi
          · exact Or.inl hi
          · exact Or.inr (Or.inr hi)
    have hbefore : (x.1.Shows i ∨ ∃ rec ∈ after, rec.Broadcasts i) →
        σ.Shows i ∨ ∃ rec ∈ after ++ l.news, rec.Puts i := by
      intro hi
      rcases h.shown i hi with hi | ⟨rec, hrec, hi⟩
      · exact Or.inl hi
      · exact Or.inr ⟨rec, by simp [hrec], hi⟩
    rcases hold with hi | hi | ⟨rec, hrec, hi⟩
    · exact hbefore (Or.inl hi)
    · exact hbefore (Or.inr hi)
    · exact Or.inr ⟨rec, by simp [hrec], hi⟩
  · rw [recreations_append, h.settled, hnews]
    rfl
  · have hstep := readds_step hs
    rw [recreates_split account id _ hnews] at hstep
    rw [List.subperm_ext_iff]
    intro o _
    have hcount := h.readds.count_le o
    have hcount' := hstep.count_le o
    simp only [otherRecreations, List.filter_append, List.flatMap_append, List.count_append]
      at hcount hcount' ⊢
    omega

/-- `RemoveById` returns, and all it does is to remove the order. -/
lemma remove_of_exec {id : UInt64} {s s' : State} {tr : Conversation} {r : Except Fail Effect}
    (hx : (exec cfg (.remove id) s).Exec tr (r, s')) :
    r = .ok { next := refreshTasks } ∧ s' = { s with ownOrders := s.ownOrders.erase id } := by
  have hspec : (exec cfg (.remove id)).wp s fun _ r s' =>
      r = .ok { next := refreshTasks } ∧ s' = { s with ownOrders := s.ownOrders.erase id } :=
    ⟨rfl, rfl⟩
  exact Act.wp_iff.mp hspec tr r s' hx

/-- The state after the cancellation. -/
lemma gone_of_cancel {y : Sys × W} {σ' : Sys} {rec : Record} {id : UInt64}
    (hs : Sys.Step cfg y.1 (.run rec) σ') (hidle : CancelsIdle y (.run rec))
    (hop : rec.op = .cancelOrder id) (htask : rec.task = .remove id)
    (hid : id.toNat < y.1.state.nextFreeId.toNat) :
    σ'.Gone id ∧ StaysCancelled y.1.state.account id σ' σ' [] := by
  have hidle :
      (∀ t, y.1.Knows t → t.holds y.1.state.account id = true → keepsReducedOrder t = false) ∧
      (∀ o taking msg, .orderTaken o taking msg ∈ y.1.tasks → taking.id = id →
        keepsReducedOrder { order := o, units := taking.units } = false) ∧
      ∀ o ∈ recreations y.1.state.account id y.1.log, o ∉ recreating y.1.threads := by
    simpa only [CancelsIdle, hop, htask] using hidle
  obtain ⟨htrades, htaken, hpending⟩ := hidle
  have hknown : ∀ t, σ'.Knows t → t.holds y.1.state.account id = true →
      keepsReducedOrder t = false := by
    intro t hk hholds
    rcases origin_of_step hs hk with hk | ⟨rec', heq, horigin⟩
    · exact htrades t hk hholds
    · obtain rfl := Label.run.inj heq
      cases horigin with
      | old hk => exact htrades t hk hholds
      | blank heq _ => rw [heq]; rfl
      | taken h | took h | processed h | updated h =>
          rw [htask] at h
          simp at h
  have hreadds := readds_step hs
  have hlog := log_of_step hs
  cases hs with
  | @run before after op task rest tr r s' _ hth hx =>
      dsimp only at htask
      subst htask
      obtain ⟨rfl, rfl⟩ := remove_of_exec hx
      have hrefresh : ∀ o taking msg, .orderTaken o taking msg ∉ refreshTasks := by
        simp [refreshTasks]
      have hsame : ∀ o taking msg, .orderTaken o taking msg ∈ (y.1.advance before after rest
          ⟨op, .remove id, y.1.state, tr, .ok { next := refreshTasks },
            { y.1.state with ownOrders := y.1.state.ownOrders.erase id }⟩).tasks →
          .orderTaken o taking msg ∈ y.1.tasks := by
        intro o taking msg hmem
        rw [Sys.tasks_advance, continuation] at hmem
        rw [Sys.tasks_split hth]
        simpa [hrefresh] using hmem
      have habsent : (y.1.state.ownOrders.erase id).lookup id = none := AList.lookup_erase _ _
      refine ⟨⟨hid, habsent, hknown, fun _ _ _ hmem => htaken _ _ _ (hsame _ _ _ hmem)⟩,
        (List.append_nil _).symm, habsent, by simp, rfl, ?_,
        by simp [otherRecreations, List.Subperm.refl]⟩
      intro o ho hmem
      have hnone : ∀ rec : Record, rec.task = .remove id →
          recreations y.1.state.account id [rec] = [] := by
        intro rec htask
        simp [recreations, Record.settles, htask]
      rw [hlog, recreations_append, Label.news, hnone _ rfl, List.append_nil] at ho
      refine hpending o ho ?_
      have hmem := hreadds.subset (List.mem_append_right _ hmem)
      simpa [Label.news, Record.recreates] using hmem

/-- **A cancelled order stays cancelled**, in every run in which orders are cancelled only while no
trade that would leave a remainder of them is in sight. -/
theorem cancelled_stays {y z x : Sys × W} {rec : Record} {id : UInt64}
    (hy : ((system cfg E account).restrict CancelsIdle).Reachable y)
    (hcancel : ((system cfg E account).restrict CancelsIdle).step y (.run rec) z)
    (hop : rec.op = .cancelOrder id) (htask : rec.task = .remove id)
    (hid : id.toNat < y.1.state.nextFreeId.toNat)
    (hlater : ((system cfg E account).restrict CancelsIdle).Later z x)
    (hrun : x.1.halted = false) :
    ∃ after, StaysCancelled account id z.1 x.1 after := by
  obtain ⟨hgone, hstart⟩ := gone_of_cancel hcancel.1.1 hcancel.2 hop htask hid
  rw [reachable_account hy.of_restrict] at hstart
  have hz := hy.step hcancel
  suffices h : x.1.halted = false →
      x.1.Gone id ∧ ∃ after, StaysCancelled account id z.1 x.1 after from (h hrun).2
  clear hrun
  induction hlater with
  | refl => exact fun _ => ⟨hgone, [], hstart⟩
  | @tail w x hw hstep ih =>
      intro hrun
      obtain ⟨l, hstep⟩ := hstep
      obtain ⟨⟨hs, _⟩, hidle⟩ := hstep
      have hreach := (hz.later hw).of_restrict
      obtain ⟨hgone, after, hstays⟩ := ih (not_halted_of_step hs)
      have hproper := reachable_proper hreach
      have hmatched := reachable_matched hreach
      have hgone' := hgone.step hs hproper hmatched hidle hrun
      exact ⟨hgone', after ++ l.news, hstays.step (reachable_account hreach) hgone hgone' hs hproper
        hmatched hrun⟩

/-! ### Cancelled while the trade is pending

We offer three units of gold, and a buyer takes two of them.  The transaction is out when we cancel
the order, and when it is confirmed, the third unit is on offer again. -/

/-- A section in the log of a state was a step of the run that led there. -/
lemma reachable_split {T : Transition.System (Sys × W) Label} (hinit : ∀ x, T.init x → x.1.log = [])
    (hstep : ∀ x l x', T.step x l x' → Sys.Step cfg x.1 l x'.1) {x : Sys × W} (h : T.Reachable x) :
    ∀ {rec : Record} {l₁ l₂ : List Record}, x.1.log = l₁ ++ rec :: l₂ →
      ∃ y z, T.Reachable y ∧ T.step y (.run rec) z ∧ z.1.log = l₁ ++ [rec] ∧ T.Later z x := by
  induction h with
  | init h =>
      intro rec l₁ l₂ hlog
      simp [hinit _ h] at hlog
  | @step y x l hy hs ih =>
      intro rec l₁ l₂ hlog
      have hnews := log_of_step (hstep _ _ _ hs)
      have later : ∀ {l₂}, y.1.log = l₁ ++ rec :: l₂ →
          ∃ u v, T.Reachable u ∧ T.step u (.run rec) v ∧ v.1.log = l₁ ++ [rec] ∧ T.Later v x := by
        intro l₂ hold
        obtain ⟨u, v, hu, huv, hv, hl⟩ := ih hold
        exact ⟨u, v, hu, huv, hv, hl.tail ⟨l, hs⟩⟩
      cases l with
      | start op =>
          rw [Label.news, List.append_nil] at hnews
          exact later (hnews ▸ hlog)
      | run rec' =>
          rw [Label.news, hlog] at hnews
          rcases List.eq_nil_or_concat l₂ with rfl | ⟨l₂', last, rfl⟩
          · obtain ⟨hold, heq⟩ := List.append_inj' hnews rfl
            obtain rfl := List.singleton_inj.mp heq
            exact ⟨y, x, hy, hs, hlog, .refl⟩
          · have hnews : (l₁ ++ rec :: l₂') ++ [last] = y.1.log ++ [rec'] := by
              simpa using hnews
            exact later (List.append_inj' hnews rfl).1.symm

/-- A node and a wallet for the sale as maker: what we sign is complete, and it is confirmed. -/
def makerScript (n : ℕ) : (c : Call) → Answer c × ℕ
  | .rpc (.isAsset _) => ((.ok true : Except RpcError Bool), n)
  | .rpc (.canSell _ _ _) => ((.ok (some 0) : Except RpcError (Option Uint256)), n)
  | .rpc (.walletprocesspsbt p) =>
      ((.ok (p ++ ", signed", true) : Except RpcError (String × Bool)), n)
  | .rpc (.finalizepsbt _) => ((.ok (some "hex") : Except RpcError (Option String)), n)
  | .rpc (.sendrawtransaction _) => ((.ok "txid" : Except RpcError String), n)
  | .rpc (.checktrade _) => ((.ok (100, .confirmed 1) : Except RpcError (UInt32 × GspState)), n)
  | c => saleScript n c

/-- The message of a buyer that takes two units. -/
def takingMessage : ProcessingMessage where
  counterparty := some "buyer"
  identifier := some "seller\n0"
  takingOrder := some { id := 0, units := 2 }

/-- The message with the buyer's PSBT. -/
def signedMessage : ProcessingMessage where
  counterparty := some "buyer"
  identifier := some "seller\n0"
  psbt := some "psbt"

/-- The order is added, taken and sold, then cancelled, and then the trade is found confirmed. -/
def soldSchedule : List Sched :=
  [.start (.addOrder offerOrder), .run 0, .run 0, .run 0, .run 0,
    .start (.processMessage takingMessage), .run 1, .run 1, .run 1, .run 1, .run 1, .run 1,
    .start (.processMessage signedMessage), .run 2, .run 2,
    .start (.cancelOrder 0), .run 3, .run 3, .run 3, .run 3,
    .start .updateTrades, .run 4, .run 4, .run 4, .run 4, .run 4, .run 4, .run 4, .run 4, .run 4]

/-- What is left of the order. -/
def remainder : Order := { offerOrder with maxUnits := 1 }

/-- Is the section a cancellation of the order `0`? -/
def Record.cancels (rec : Record) : Bool :=
  match rec.op, rec.task with
  | .cancelOrder id, .remove i => id = 0 && i = 0
  | _, _ => false

lemma Record.of_cancels {rec : Record} (h : rec.cancels = true) :
    rec.op = .cancelOrder 0 ∧ rec.task = .remove 0 := by
  rw [Record.cancels] at h
  split at h
  · rename_i hop htask
    simp only [Bool.and_eq_true, decide_eq_true_eq] at h
    rw [hop, htask, h.1, h.2]
    exact ⟨rfl, rfl⟩
  · simp at h

/-- Is the section a broadcast with the order `1` in it? -/
def Record.offers (rec : Record) : Bool :=
  match rec.task with
  | .updateOrders orders => (orders.orders.lookup 1).isSome
  | _ => false

lemma Record.of_offers {rec : Record} (h : rec.offers = true) : rec.Broadcasts 1 := by
  rw [Record.offers] at h
  split at h
  · rename_i orders htask
    exact ⟨orders, htask, AList.lookup_isSome.mp h⟩
  · simp at h

/-- Nothing is traded and nothing is on its way to be. -/
def Sys.quiet (σ : Sys) : Bool :=
  σ.state.trades.isEmpty && (recreating σ.threads).isEmpty && σ.tasks.all fun
    | .orderTaken _ _ _ => false
    | y => y.subject.isNone

/-- The step cancels nothing, and adds nothing when the ids run out. -/
def Label.modest : Label → Bool
  | .start _ => true
  | .run rec => match rec.task with
    | .remove _ => false
    | .add _ => rec.pre.nextFreeId.toNat + 1 < 2 ^ 64
    | _ => true

lemma cancelsIdle_of_modest {x x' : Sys × W} {l : Label} (hs : (system cfg E account).step x l x')
    (h : l.modest = true) : CancelsIdle x l := by
  cases l with
  | start op => trivial
  | run rec =>
      obtain ⟨_, hpre, _⟩ := section_of_step hs.1
      obtain ⟨op, task, pre, tr, r, post⟩ := rec
      dsimp only at hpre
      subst hpre
      cases task with
      | remove id => simp [Label.modest] at h
      | add o =>
          have hids : x.1.state.nextFreeId.toNat + 1 < 2 ^ 64 := of_decide_eq_true h
          cases op <;> exact hids
      | _ => cases op <;> trivial

lemma cancelsIdle_of_quiet {x : Sys × W} {rec : Record} (h : x.1.quiet = true)
    (hop : rec.op = .cancelOrder 0) (htask : rec.task = .remove 0) : CancelsIdle x (.run rec) := by
  simp only [Sys.quiet, Bool.and_eq_true, List.isEmpty_iff, List.all_eq_true] at h
  obtain ⟨⟨htrades, hrecreating⟩, htasks⟩ := h
  simp only [CancelsIdle, hop, htask]
  refine ⟨fun t hk _ => ?_, fun o taking msg hmem => ?_, by simp [hrecreating]⟩
  · rcases hk with hk | ⟨th, hth, y, hy, hsub⟩
    · simp [htrades] at hk
    · have := htasks y (List.mem_flatMap.mpr ⟨th, hth, hy⟩)
      cases y <;> simp [Task.subject] at this hsub
  · simpa using htasks _ hmem

/-- A position in the log. -/
lemma log_split {log : List Record} {n : ℕ} {rec : Record} (h : log[n]? = some rec) :
    log = log.take n ++ rec :: log.drop (n + 1) := by
  obtain ⟨hlt, rfl⟩ := List.getElem?_eq_some_iff.mp h
  rw [List.getElem_cons_drop, List.take_append_drop]

/-- An order that is cancelled before anyone has taken it stays cancelled. -/
theorem cancelled_stays_untaken : ∃ (y z x : Sys × ℕ) (rec : Record) (after : List Record),
    ((system sampleConfig (Env.ofScript makerScript) "seller").restrict CancelsIdle).Reachable y ∧
    ((system sampleConfig (Env.ofScript makerScript) "seller").restrict CancelsIdle).step
      y (.run rec) z ∧
    rec.op = .cancelOrder 0 ∧ x.1.log.length = 4 ∧ StaysCancelled "seller" 0 z.1 x.1 after := by
  -- the run up to the cancellation, that step, and the rest
  obtain ⟨y, hy, hQ⟩ := Sys.exists_restricted sampleConfig makerScript "seller" 0
    [.start (.addOrder offerOrder), .run 0, .start (.cancelOrder 0)] Label.modest CancelsIdle
    (fun _ _ _ => cancelsIdle_of_modest)
    (fun y => y.1.quiet && (Sys.next sampleConfig makerScript y (.run 1)).any fun p =>
      (match p.1 with
        | .run rec => rec.cancels
        | .start _ => false) &&
      (Sys.play sampleConfig makerScript Label.modest p.2 [.run 1, .run 1]).any fun x =>
        !x.1.halted && x.1.log.length = 4 && (x.1.log[1]?).any fun rec =>
          rec.cancels && decide ((0 : UInt64).toNat < rec.pre.nextFreeId.toNat))
    (by decide +kernel)
  simp only [Bool.and_eq_true] at hQ
  obtain ⟨hquiet, hQ⟩ := hQ
  obtain ⟨⟨l, z⟩, hnext, hQ⟩ := (Option.any_eq_true _ _).mp hQ
  simp only [Bool.and_eq_true] at hQ
  obtain ⟨hcancel, hQ⟩ := hQ
  obtain ⟨x, hplay, hQ⟩ := (Option.any_eq_true _ _).mp hQ
  simp only [Bool.and_eq_true, Bool.not_eq_true', decide_eq_true_eq] at hQ
  obtain ⟨⟨hrun, hlen⟩, hQ⟩ := hQ
  have hidle : CancelsIdle y l := by
    cases l with
    | start op => trivial
    | run rec =>
        obtain ⟨hop, htask⟩ := Record.of_cancels hcancel
        exact cancelsIdle_of_quiet hquiet hop htask
  have hx := Sys.reachable_of_play (fun _ _ _ => cancelsIdle_of_modest)
    (hy.step ⟨Sys.step_of_next hnext, hidle⟩) hplay
  obtain ⟨rec, hrec, hQ⟩ := (Option.any_eq_true _ _).mp hQ
  simp only [Bool.and_eq_true, decide_eq_true_eq] at hQ
  obtain ⟨hop, htask⟩ := Record.of_cancels hQ.1
  obtain ⟨y, z, hy, hyz, hz, hl⟩ := @reachable_split sampleConfig ℕ
    ((system sampleConfig (Env.ofScript makerScript) "seller").restrict CancelsIdle)
    (by rintro x hx; rw [hx]; rfl) (fun x l x' hs => hs.1.1) x hx rec _ _ (log_split hrec)
  have hid : (0 : UInt64).toNat < y.1.state.nextFreeId.toNat := by
    rw [← (section_of_step hyz.1.1).2.1]
    exact hQ.2
  obtain ⟨after, hstays⟩ := cancelled_stays hy hyz hop htask hid hl hrun
  exact ⟨y, z, x, rec, after, hy, hyz, hop, hlen, hstays⟩

/-- **The cancelled order comes back**: what the buyer has left of it is re-created from the trade,
put among the own orders and broadcast. -/
theorem cancelled_returns : ∃ (y z x : Sys × ℕ) (rec : Record) (after : List Record),
    (system sampleConfig (Env.ofScript makerScript) "seller").Reachable y ∧
    (system sampleConfig (Env.ofScript makerScript) "seller").step y (.run rec) z ∧
    rec.op = .cancelOrder 0 ∧ rec.task = .remove 0 ∧
    (system sampleConfig (Env.ofScript makerScript) "seller").Later z x ∧ x.1.halted = false ∧
    x.1.log = z.1.log ++ after ∧
    recreations "seller" 0 after = [{ remainder with account := some "seller" }] ∧
    after.flatMap Record.readds = [{ remainder with account := some "seller" }] ∧
    x.1.state.ownOrders.lookup 1 = some remainder ∧ ∃ rec ∈ after, rec.Broadcasts 1 := by
  obtain ⟨x, hr, hQ⟩ := Sys.exists_reachable sampleConfig makerScript "seller" 0 soldSchedule
    (fun x => !x.1.halted && (x.1.log[12]?).any Record.cancels &&
      recreations "seller" 0 (x.1.log.drop 13) = [{ remainder with account := some "seller" }] &&
      (x.1.log.drop 13).flatMap Record.readds = [{ remainder with account := some "seller" }] &&
      x.1.state.ownOrders.lookup 1 = some remainder && (x.1.log.drop 13).any Record.offers)
    (by decide +kernel)
  simp only [Bool.and_eq_true, Bool.not_eq_true', decide_eq_true_eq] at hQ
  obtain ⟨⟨⟨⟨⟨hrun, hcancel⟩, hrecreated⟩, hreadded⟩, hown⟩, hoffer⟩ := hQ
  obtain ⟨rec, hrec, hcancel⟩ := (Option.any_eq_true _ _).mp hcancel
  obtain ⟨hop, htask⟩ := Record.of_cancels hcancel
  obtain ⟨offer, hoffer, hbroadcast⟩ := List.any_eq_true.mp hoffer
  have hlog := log_split hrec
  obtain ⟨y, z, hy, hyz, hz, hl⟩ := @reachable_split sampleConfig ℕ
    (system sampleConfig (Env.ofScript makerScript) "seller")
    (by rintro x hx; rw [hx]; rfl) (fun x l x' hs => hs.1) x hr rec _ _ hlog
  refine ⟨y, z, x, rec, x.1.log.drop 13, hy, hyz, hop, htask, hl, hrun, ?_, hrecreated, hreadded,
    hown, offer, hoffer, Record.of_offers hbroadcast⟩
  rw [hz, List.append_assoc]
  exact hlog

end Democrit
