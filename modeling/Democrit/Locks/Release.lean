import Democrit.Locks.Orders

/-!
# Releasing an own order

`Unlock` asserts that its order exists and is locked.  Whether it does depends on what happened to
the orders since `TryLock`.  `unlock_aborts` is a run in which the maker cancels an order that a
counterparty has taken; when the trade is abandoned, `HandleFailure` unlocks an order that is not
there, and the process terminates.  `unlock_succeeds` is what does hold: **`Unlock` finds its order
as long as no section takes a locked order away**, whatever else throws or fails.
-/

namespace Democrit

open Interaction LockTable

variable {cfg : Config}

section Runs

variable {W : Type} {E : Env Call Answer W} {account : String}

/-! ## What is held is there -/

/-- The step takes no locked order away. -/
def Label.Spares : Label → Prop
  | .start _ => True
  | .run rec => SparesLocked rec.pre rec.talk rec.task

/-- The order that a section calls `Unlock` for: in `ProcessMessage` after a rejected `OrderTaken`,
and in `HandleFailure` of a maker trade. -/
def Task.unlocks (account : String) : Task → Option UInt64
  | .unlock id => some id
  | .handle t =>
      if (t.getState = .abandoned ∨ t.getState = .failed) ∧ getRole account t = .maker then
        some t.order.getId
      else none
  | _ => none

lemma Task.holds_of_unlocks {account : String} {id : UInt64} {task : Task}
    (h : task.unlocks account = some id) : task.holds account id = true := by
  cases task with
  | unlock n => simpa [Task.unlocks, Task.holds] using h
  | handle t =>
      simp only [Task.unlocks, Option.ite_none_right_eq_some, Option.some.injEq] at h
      simp [Task.holds, TradeState.holds, h]
  | _ => simp [Task.unlocks] at h

/-- Whoever is about to release an order finds it locked. -/
lemma lock_of_holds {σ : Sys} (h : Guarded σ.table) {task : Task} (htask : task ∈ σ.tasks)
    {id : UInt64} (hholds : task.holds σ.state.account id = true) :
    ∃ o, σ.state.ownOrders.lookup id = some o ∧ o.locked = true := by
  have hpos : 0 < heldBy σ.state.account id σ.tasks := List.countP_pos_iff.mpr ⟨task, htask, hholds⟩
  have hheld : σ.table.held id ≠ 0 := by
    simp only [Sys.table, Sys.holders]
    omega
  exact Option.map_eq_some_iff.mp (h.locked id hheld)

/-- **One section that returns.** -/
lemma guarded_of_tableStep {σ σ' : Sys} (h : Guarded σ.table) {task : Task} {tr : Conversation}
    (hstep : TableStep σ.state σ'.state task tr σ.table σ'.table)
    (hspares : SparesLocked σ.state tr task) : Guarded σ'.table := by
  cases hstep with
  | edits _ hheld _ hkeep =>
      refine h.edit (fun id => (hheld id).le) fun id hid => ?_
      obtain ⟨o, ho, hlocked⟩ := Option.map_eq_some_iff.mp hid
      simp [Sys.table, hkeep hspares id o ho hlocked, hlocked]
  | @adds o htask hheld heq =>
      subst htask
      refine h.edit (fun id => (hheld id).le) fun id hid => ?_
      obtain ⟨o', ho', hlocked⟩ := Option.map_eq_some_iff.mp hid
      have hne : id ≠ σ.state.nextFreeId := by
        rintro rfl
        rw [hspares o' ho'] at hlocked
        simp at hlocked
      simp only [Sys.table, heq, AList.lookup_insert_ne hne]
      exact hid
  | takes _ _ htakes => exact h.take htakes
  | settles _ _ _ hsettles => exact h.settle hsettles

/-- **One section that throws**, outside of the background jobs. -/
lemma guarded_of_exception {σ : Sys} {before after : List Thread} {op : Op} {task : Task}
    {rest : List Task} {tr : Conversation} {s' : State} (h : Guarded σ.table)
    (hth : σ.threads = before ++ ⟨op, task :: rest⟩ :: after) (hproper : σ.Proper)
    (hback : op.background = false) (hx : (exec cfg task σ.state).Exec tr (.error .exception, s'))
    (hmatched : task.matched) (hspares : SparesLocked σ.state tr task) :
    Guarded (σ.advance before after rest ⟨op, task, σ.state, tr, .error .exception, s'⟩).table := by
  have horders : OrderFailure σ.state task tr .exception s' :=
    Act.wp_iff.mp (exec_orders σ.state hmatched) tr _ s' hx
  have hheld := fun hacc htrades id =>
    @Sys.holders_failed σ before after op task rest tr s' .exception hacc htrades hth id
  rcases horders.exception rfl with hup | ⟨rfl, hfails⟩ | rfl
  · have : op = .updateTrades := hproper ⟨op, task :: rest⟩ (by simp [hth]) task (by simp) hup
    rw [this] at hback
    simp [Op.background] at hback
  · have hsame : SameTrades σ.state s' := by
      cases section_of_exec hx with
      | idle hs => exact hs
    -- a refresh throws only while nothing is locked
    refine h.edit (hheld hsame.account hsame.trades) fun id hid => ?_
    obtain ⟨o, ho, hlocked⟩ := Option.map_eq_some_iff.mp hid
    obtain ⟨bs, hv, _⟩ := hspares ⟨_, mem_entries_of_lookup ho, hlocked⟩
    exact absurd hfails hv.not_fails
  · exact h.edit (hheld rfl rfl) fun id hid => hid

/-- A section's calls of `Unlock` find the order present and locked. -/
structure Record.Unlocks (rec : Record) : Prop where
  finds : ∀ id, rec.task.unlocks rec.pre.account = some id →
    ∃ o, rec.pre.ownOrders.lookup id = some o ∧ o.locked = true
  present : rec.outcome ≠ .error (.check .orderExists)
  locked : rec.outcome ≠ .error (.check .orderLocked)

/-- **Releasing an order does not abort the daemon** as long as no locked order is taken away: in
every run in which no section cancels a locked order, adds one under the id of a locked one, or
refreshes the orders with an answer of `ValidateOrder` that is not the acceptance of every locked
one, each call of `Unlock` finds its order present and locked. -/
theorem unlock_succeeds {x : Sys × W}
    (h : ((system cfg E account).restrict fun _ l => l.Spares).Reachable x) :
    ∀ rec ∈ x.1.log, rec.Unlocks := by
  have hinv : (x.1.halted = false → Guarded x.1.table) ∧ ∀ rec ∈ x.1.log, rec.Unlocks := by
    refine Transition.System.Reachable.invariant
      (fun x => (x.1.halted = false → Guarded x.1.table) ∧ ∀ rec ∈ x.1.log, rec.Unlocks) ?_ ?_ h
    · intro x hx
      have hempty : x.1 = Sys.start account := hx
      rw [hempty]
      refine ⟨fun _ => ⟨fun _ => Nat.zero_le _, fun id hid => ?_⟩, by simp [Sys.start]⟩
      simp [Sys.table, Sys.start, Sys.holders, Sys.tasks, heldBy, heldIn] at hid
    · rintro x l ⟨σ', w'⟩ hr ⟨ih, hlog⟩ ⟨⟨hs, _⟩, hspares⟩
      have hmatched := reachable_matched hr.of_restrict
      have hproper := reachable_proper hr.of_restrict
      dsimp only at hs ⊢
      cases hs with
      | start op hh =>
          refine ⟨fun _ => ?_, hlog⟩
          rw [Sys.table_start]
          exact ih hh
      | @run before after op task rest tr r s' hh hth hx =>
          have hguard := ih hh
          have htask : task ∈ x.1.tasks := by simp [Sys.tasks_split hth]
          have horders := Act.wp_iff.mp (exec_orders x.1.state (hmatched task htask)) tr _ s' hx
          have finds : ∀ id, task.holds x.1.state.account id = true →
              ∃ o, x.1.state.ownOrders.lookup id = some o ∧ o.locked = true :=
            fun id hid => lock_of_holds hguard htask hid
          refine ⟨fun hrun => ?_, fun rec hrec => ?_⟩
          · cases r with
            | ok eff =>
                have hacc := (section_of_exec hx).account_eq
                exact @guarded_of_tableStep x.1 _ hguard task tr
                  (tableStep_of_tokens hth horders hacc) hspares
            | error e =>
                cases e with
                | exception =>
                    exact guarded_of_exception hguard hth hproper hrun hx (hmatched task htask)
                      hspares
                | check c => simp [Sys.advance, halts] at hrun
          · rcases List.mem_append.mp hrec with hrec | hrec
            · exact hlog rec hrec
            · rw [List.mem_singleton.mp hrec]
              have nofail : ∀ e, r = .error e →
                  ¬ (e = .check .orderExists ∨ e = .check .orderLocked) := by
                rintro e rfl he
                obtain ⟨id, hid, hno⟩ := OrderFailure.unlock horders he
                obtain ⟨o, ho, hlocked⟩ := finds id hid
                rw [hno o ho] at hlocked
                simp at hlocked
              exact ⟨fun id hid => finds id (Task.holds_of_unlocks hid),
                fun he => nofail _ he (Or.inl rfl), fun he => nofail _ he (Or.inr rfl)⟩
  exact hinv.2

end Runs

/-! ### Trades that are abandoned

The offer is taken as before, and nothing more is heard of the counterparty. -/

/-- The run in which nobody touches the order until the trade is handled. -/
def abandonSchedule : List Sched :=
  offerSchedule ++ [.start .updateTrades, .run 2, .run 2]

/-- The run in which we cancel the order meanwhile. -/
def cancelSchedule : List Sched :=
  offerSchedule ++ [.start (.cancelOrder 0), .run 2, .start .updateTrades, .run 3, .run 3]

/-- **Cancelling an order that is being traded aborts the daemon** once the trade is abandoned. -/
theorem unlock_aborts : ∃ (x : Sys × ℕ) (rec : Record),
    (system sampleConfig (Env.ofScript offerScript) "maker").Reachable x ∧ rec ∈ x.1.log ∧
    rec.task.unlocks rec.pre.account = some 0 ∧ rec.pre.ownOrders.lookup 0 = none ∧
    rec.outcome = .error (.check .orderExists) ∧ x.1.halted = true := by
  obtain ⟨x, hr, hQ⟩ := Sys.exists_reachable sampleConfig offerScript "maker" 0 cancelSchedule
    (fun x => x.1.halted && x.1.log.any fun rec => rec.task.unlocks rec.pre.account = some 0 &&
      rec.pre.ownOrders.lookup 0 = none && rec.failedCheck = some .orderExists) (by decide +kernel)
  simp only [Bool.and_eq_true] at hQ
  obtain ⟨rec, hrec, hQ'⟩ := List.any_eq_true.mp hQ.2
  simp only [Bool.and_eq_true, decide_eq_true_eq] at hQ'
  exact ⟨x, rec, hr, hrec, hQ'.1.1, hQ'.1.2, Record.outcome_of_failedCheck hQ'.2, hQ.1⟩

/-- A check on a step that makes sure that it spares the locked orders. -/
def Label.sparing : Label → Bool
  | .start _ => true
  | .run rec =>
      match rec.task with
      | .remove id => (rec.pre.ownOrders.lookup id).all fun o => !o.locked
      | .add _ => (rec.pre.ownOrders.lookup rec.pre.nextFreeId).all fun o => !o.locked
      | .refresh => rec.outcome.isOk && rec.pre.ownOrders.entries.all fun e =>
          !e.2.locked || (rec.post.ownOrders.lookup e.1).isSome
      | _ => true

/-- If a refresh has kept all the orders of a kind, then because they were accepted. -/
lemma Validates.accepted {account : String} {P : Order → Prop}
    {entries : List ((_ : UInt64) × Order)} {tr : Conversation} {bs : List Bool}
    (h : Validates account entries tr bs) :
    ∀ {m : OrderMap}, entries.NodupKeys → (∀ e ∈ entries, m.lookup e.1 = none) →
      (∀ e ∈ entries, P e.2 → ((accept entries bs m).lookup e.1).isSome) →
      List.Forall₂ (fun e b => P e.2 → b = true) entries bs := by
  induction h with
  | nil => exact fun _ _ _ => .nil
  | @cons id o rest tr tr' b bs hx h ih =>
      intro m hnodup hnone hkept
      obtain ⟨hkey, hnodup⟩ := List.nodupKeys_cons.mp hnodup
      have hrest : ∀ e ∈ rest, e.1 ≠ id := by
        intro e he heq
        have : e.1 ∈ rest.keys := List.mem_map_of_mem he
        rw [heq] at this
        exact hkey this
      cases b with
      | true =>
          have hnone' : ∀ e ∈ rest, (m.insert id o).lookup e.1 = none := by
            intro e he
            rw [AList.lookup_insert_ne (hrest e he)]
            exact hnone e (by simp [he])
          exact .cons (fun _ => rfl) (ih hnodup hnone' fun e he => hkept e (by simp [he]))
      | false =>
          refine .cons (fun ho => ?_) (ih hnodup (fun e he => hnone e (by simp [he])) fun e he => ?_)
          · have hlost := hkept ⟨id, o⟩ (by simp) ho
            have hnone' : m.lookup id = none := hnone ⟨id, o⟩ (by simp)
            rw [accept, lookup_accept_of_notMem hrest, hnone'] at hlost
            simp at hlost
          · exact hkept e (by simp [he])

lemma spares_of_sparing {σ σ' : Sys} {l : Label} (hs : Sys.Step cfg σ l σ')
    (h : l.sparing = true) : l.Spares := by
  have unlocked : ∀ {x : Option Order}, (x.all fun o => !o.locked) = true →
      ∀ o, x = some o → o.locked = false := by
    rintro _ hall o rfl
    simpa using hall
  cases hs with
  | start op _ => trivial
  | @run before after op task rest tr r s' _ hth hx =>
      cases task with
      | remove id => exact unlocked h
      | add o => exact unlocked h
      | refresh =>
          simp only [Label.sparing, Bool.and_eq_true, List.all_eq_true] at h
          obtain ⟨hok, hkept⟩ := h
          cases r with
          | error e => simp [Except.isOk, Except.toBool] at hok
          | ok eff =>
              obtain ⟨bs, hv, rfl⟩ := accept_of_refresh hx
              have hempty : ∀ e ∈ σ.state.ownOrders.entries, (∅ : OrderMap).lookup e.1 = none :=
                fun e _ => AList.lookup_empty e.1
              have hkept' : ∀ e ∈ σ.state.ownOrders.entries, e.2.locked = true →
                  ((accept σ.state.ownOrders.entries bs ∅).lookup e.1).isSome := by
                intro e he hlocked
                simpa [hlocked] using hkept e he
              have hall := @Validates.accepted _ (fun o => o.locked = true) _ _ _ hv _
                σ.state.ownOrders.nodupKeys hempty hkept'
              exact fun _ => ⟨bs, hv, hall⟩
      | _ => trivial

/-- The abandoned trade whose order nobody touched is handled, and the order is free again. -/
theorem unlock_succeeds_abandoned : ∃ (x : Sys × ℕ) (rec : Record),
    ((system sampleConfig (Env.ofScript offerScript) "maker").restrict
      fun _ l => l.Spares).Reachable x ∧ rec ∈ x.1.log ∧
    rec.task.unlocks rec.pre.account = some 0 ∧ rec.Unlocks := by
  obtain ⟨x, hr, hQ⟩ := Sys.exists_restricted sampleConfig offerScript "maker" 0 abandonSchedule
    Label.sparing (fun _ l => l.Spares) (fun _ _ _ hs h => spares_of_sparing hs.1 h)
    (fun x => x.1.log.any fun rec => rec.task.unlocks rec.pre.account = some 0) (by decide +kernel)
  obtain ⟨rec, hrec, hQ'⟩ := List.any_eq_true.mp hQ
  exact ⟨x, rec, hr, hrec, by simpa using hQ', unlock_succeeds hr rec hrec⟩

end Democrit
