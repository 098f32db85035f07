import Democrit.Lib.LockTable
import Democrit.Spec.Orders

/-!
# Who holds an own order

An own order is locked by `TryLock` and released by `Unlock` or `RemoveById`, in different critical
sections of different threads, while cancellation and refresh take orders away in between.  The
right to release an order is held (`Sys.holders`) by a thread in `ProcessMessage` between `TryLock`
and `OrderTaken` or `Unlock`, by an active trade, or by the updater thread that has still to handle
a finalised trade.

`Sys.table` reads the daemon as a `LockTable.Table`, and **`TableStep` says what a section does to
it**: edit the items without touching the rights, take an item, or settle one.
-/

namespace Democrit

open Interaction LockTable

variable {cfg : Config}

/-! ## Holders -/

/-- Everything that is left to do in some thread. -/
def Sys.tasks (σ : Sys) : List Task := σ.threads.flatMap Thread.tasks

/-- The number of holders of own order `id`. -/
def Sys.holders (σ : Sys) (id : UInt64) : ℕ :=
  heldBy σ.state.account id σ.tasks + heldIn σ.state.account id σ.state.trades

/-- The own orders' flags, and their holders. -/
def Sys.table (σ : Sys) : Table UInt64 where
  lock id := (σ.state.ownOrders.lookup id).map Order.locked
  held := σ.holders

lemma Sys.tasks_start (σ : Sys) (op : Op) :
    Sys.tasks { σ with threads := σ.threads ++ [⟨op, op.tasks⟩] } = σ.tasks ++ op.tasks := by
  simp [Sys.tasks]

/-- Where the tasks of the other threads are. -/
lemma Sys.tasks_split {σ : Sys} {before after : List Thread} {op : Op} {tasks : List Task}
    (h : σ.threads = before ++ ⟨op, tasks⟩ :: after) :
    σ.tasks = before.flatMap Thread.tasks ++ (tasks ++ after.flatMap Thread.tasks) := by
  simp [Sys.tasks, h]

lemma Sys.tasks_advance (σ : Sys) (before after : List Thread) (rest : List Task) (rec : Record) :
    (σ.advance before after rest rec).tasks
      = before.flatMap Thread.tasks ++ (continuation rest rec.outcome
        ++ after.flatMap Thread.tasks) := by
  simp [Sys.tasks, Sys.advance]

lemma heldBy_start (account : String) (id : UInt64) (op : Op) : heldBy account id op.tasks = 0 := by
  cases op <;> rfl

/-- A call that comes in holds nothing. -/
lemma Sys.table_start (σ : Sys) (op : Op) :
    Sys.table { σ with threads := σ.threads ++ [⟨op, op.tasks⟩] } = σ.table := by
  have hheld : Sys.holders { σ with threads := σ.threads ++ [⟨op, op.tasks⟩] } = σ.holders := by
    funext id
    simp only [Sys.holders, Sys.tasks_start, heldBy_append, heldBy_start, Nat.add_zero]
  simp only [Sys.table, hheld]

section Run

variable {σ : Sys} {before after : List Thread} {op : Op} {task : Task} {rest : List Task}
  {tr : Conversation} {s' : State}

/-- The holders before and after a section that returned differ as its own ones do. -/
lemma Sys.holders_advance {eff : Effect} (hacc : s'.account = σ.state.account)
    (hth : σ.threads = before ++ ⟨op, task :: rest⟩ :: after) (id : UInt64) :
    (σ.advance before after rest ⟨op, task, σ.state, tr, .ok eff, s'⟩).holders id
        + (task.holds σ.state.account id).toNat + heldIn σ.state.account id σ.state.trades
      = σ.holders id + heldBy σ.state.account id eff.next
        + heldIn σ.state.account id s'.trades := by
  rw [Sys.holders, Sys.holders, Sys.tasks_advance, Sys.tasks_split hth]
  simp only [Sys.advance, continuation, List.cons_append, heldBy_append, heldBy_cons, hacc]
  omega

/-- If it does not touch the trades, only tasks hand rights on. -/
lemma Sys.holders_moved {eff : Effect} (hacc : s'.account = σ.state.account)
    (htrades : s'.trades = σ.state.trades)
    (hth : σ.threads = before ++ ⟨op, task :: rest⟩ :: after) (id : UInt64) :
    (σ.advance before after rest ⟨op, task, σ.state, tr, .ok eff, s'⟩).holders id
        + (task.holds σ.state.account id).toNat
      = σ.holders id + heldBy σ.state.account id eff.next := by
  have hbal := @Sys.holders_advance σ before after op task rest tr s' eff hacc hth id
  rw [htrades] at hbal
  exact Nat.add_right_cancel hbal

/-- A section that failed leaves no more holders than there were. -/
lemma Sys.holders_failed {e : Fail} (hacc : s'.account = σ.state.account)
    (htrades : s'.trades = σ.state.trades)
    (hth : σ.threads = before ++ ⟨op, task :: rest⟩ :: after) (id : UInt64) :
    (σ.advance before after rest ⟨op, task, σ.state, tr, .error e, s'⟩).holders id
      ≤ σ.holders id := by
  rw [Sys.holders, Sys.holders, Sys.tasks_advance, Sys.tasks_split hth]
  simp only [Sys.advance, continuation, List.cons_append, List.nil_append, heldBy_append,
    heldBy_cons, hacc, htrades]
  omega

end Run

/-! ## The order of a taken message -/

lemma Task.plain.matched {x : Task} (h : x.plain) : x.matched := by
  cases x <;> trivial

lemma Tokens.matched {s s' : State} {task : Task} {tr : Conversation} {eff : Effect}
    (h : Tokens s task tr eff s') : ∀ x ∈ eff.next, x.matched := by
  have hrefresh : ∀ x ∈ refreshTasks, x.matched := fun x hx => (refreshTasks_plain x hx).matched
  cases h with
  | pass _ _ hplain _ => exact fun x hx => (hplain x hx).matched
  | add _ heff => subst heff; exact hrefresh
  | remove _ heff => subst heff; exact hrefresh
  | refresh _ heff _ => subst heff; simp
  | lock _ _ _ _ heff =>
      subst heff
      intro x hx
      rcases List.mem_append.mp hx with hx | hx
      · exact hrefresh x hx
      · rw [List.mem_singleton.mp hx]
        rfl
  | unlock _ _ _ hplain _ => exact fun x hx => (hplain x hx).matched
  | drop _ _ heff =>
      rcases heff with rfl | rfl
      · exact hrefresh
      · intro x hx
        rcases List.mem_append.mp hx with hx | hx
        · exact hrefresh x hx
        · rw [List.mem_singleton.mp hx]
          trivial

lemma matched_start {op : Op} {x : Task} (h : x ∈ op.tasks) : x.matched := by
  cases op with
  | refreshOrders => exact (refreshTasks_plain x h).matched
  | _ => rw [List.mem_singleton.mp h]; trivial

/-! ## Where orders come from -/

/-- A stored order was there before, with the same bounds, or comes from `Add`. -/
lemma Tokens.stored {s s' : State} {task : Task} {tr : Conversation} {eff : Effect} {id : UInt64}
    {o' : Order} (h : Tokens s task tr eff s') (ho : s'.ownOrders.lookup id = some o') :
    (∃ o, s.ownOrders.lookup id = some o ∧ o.maxUnits = o'.maxUnits ∧ o.minUnits = o'.minUnits) ∨
      ∃ o, task = .add o ∧ s.nextFreeId = id ∧ o' = { o with account := none, id := none } := by
  cases h with
  | pass horders _ _ _ =>
      rw [horders] at ho
      exact Or.inl ⟨o', ho, rfl, rfl⟩
  | @add o htask _ =>
      by_cases hfree : id = s.nextFreeId
      · rw [hfree, AList.lookup_insert] at ho
        exact Or.inr ⟨o, htask, hfree.symm, (Option.some.inj ho).symm⟩
      · rw [AList.lookup_insert_ne hfree] at ho
        exact Or.inl ⟨o', ho, rfl, rfl⟩
  | @remove i _ _ =>
      by_cases hi : id = i
      · rw [hi, AList.lookup_erase] at ho
        simp at ho
      · rw [AList.lookup_erase_ne hi] at ho
        exact Or.inl ⟨o', ho, rfl, rfl⟩
  | refresh _ _ _ =>
      rcases accept_sub ho with ho | ho
      · simp at ho
      · exact Or.inl ⟨o', AList.mem_lookup_iff.mpr ho, rfl, rfl⟩
  | @lock _ taking o _ _ hold _ _ =>
      by_cases hi : id = taking.id
      · rw [hi, AList.lookup_insert] at ho
        rw [hi]
        obtain rfl := Option.some.inj ho
        exact Or.inl ⟨o, hold, rfl, rfl⟩
      · rw [AList.lookup_insert_ne hi] at ho
        exact Or.inl ⟨o', ho, rfl, rfl⟩
  | @unlock i o _ hold _ _ _ =>
      by_cases hi : id = i
      · rw [hi, AList.lookup_insert] at ho
        rw [hi]
        obtain rfl := Option.some.inj ho
        exact Or.inl ⟨o, hold, rfl, rfl⟩
      · rw [AList.lookup_insert_ne hi] at ho
        exact Or.inl ⟨o', ho, rfl, rfl⟩
  | @drop t _ _ _ =>
      by_cases hi : id = t.order.getId
      · rw [hi, AList.lookup_erase] at ho
        simp at ho
      · rw [AList.lookup_erase_ne hi] at ho
        exact Or.inl ⟨o', ho, rfl, rfl⟩

/-- An order that is taken is one that is stored. -/
lemma Tokens.taken {s s' : State} {task : Task} {tr : Conversation} {eff : Effect} {o : Order}
    {taking : TakingOrder} {msg : ProcessingMessage} (h : Tokens s task tr eff s')
    (hmem : .orderTaken o taking msg ∈ eff.next) :
    ∃ o₀, s.ownOrders.lookup taking.id = some o₀ ∧ o₀.maxUnits = o.maxUnits ∧
      o₀.minUnits = o.minUnits := by
  have hrefresh : .orderTaken o taking msg ∉ refreshTasks := by simp [refreshTasks]
  cases h with
  | pass _ _ hplain _ => exact (hplain _ hmem).elim
  | add _ heff => subst heff; exact absurd hmem hrefresh
  | remove _ heff => subst heff; exact absurd hmem hrefresh
  | refresh _ heff _ => subst heff; simp at hmem
  | @lock _ taking' o₀ _ _ ho _ heff =>
      subst heff
      rcases List.mem_append.mp hmem with hmem | hmem
      · exact absurd hmem hrefresh
      · rw [List.mem_singleton] at hmem
        cases hmem
        exact ⟨o₀, ho, rfl, rfl⟩
  | unlock _ _ _ hplain _ => exact (hplain _ hmem).elim
  | drop _ _ heff =>
      rcases heff with rfl | rfl
      · exact absurd hmem hrefresh
      · rcases List.mem_append.mp hmem with hmem | hmem
        · exact absurd hmem hrefresh
        · simp at hmem

/-! ## What a section does to the table -/

/-- The section takes no locked order away: it does not cancel one, adds none under the id of one,
and if it is a refresh while some order is locked, then `ValidateOrder` returns for all orders and
accepts the locked ones. -/
def SparesLocked (s : State) (tr : Conversation) : Task → Prop
  | .remove id => ∀ o, s.ownOrders.lookup id = some o → o.locked = false
  | .add _ => ∀ o, s.ownOrders.lookup s.nextFreeId = some o → o.locked = false
  | .refresh => (∃ e ∈ s.ownOrders.entries, e.2.locked = true) →
      ∃ bs, Validates s.account s.ownOrders.entries tr bs ∧
        List.Forall₂ (fun e b => e.2.locked = true → b = true) s.ownOrders.entries bs
  | _ => True

/-- What a section that returns does to the table, which is `t` before it and `t'` after it. -/
inductive TableStep (s s' : State) (task : Task) (tr : Conversation) (t t' : Table UInt64) : Prop
  /-- At most, orders disappear. -/
  | edits (hid : s'.nextFreeId = s.nextFreeId) (hheld : ∀ id, t'.held id = t.held id)
      (hsub : ∀ id o, s'.ownOrders.lookup id = some o → s.ownOrders.lookup id = some o)
      (hkeep : SparesLocked s tr task → ∀ id o, s.ownOrders.lookup id = some o →
        o.locked = true → s'.ownOrders.lookup id = some o)
  | adds {o} (htask : task = .add o) (hheld : ∀ id, t'.held id = t.held id)
      (heq : s' = { s with
        ownOrders := s.ownOrders.insert s.nextFreeId { o with account := none, id := none }
        nextFreeId := s.nextFreeId + 1 })
  | takes (id : UInt64) (hid : s'.nextFreeId = s.nextFreeId) (h : Takes id t t')
  | settles (id : UInt64) {f} (hid : s'.nextFreeId = s.nextFreeId) (hf : f ≠ some true)
      (h : Settles id f t t')

lemma mem_entries_of_lookup {m : OrderMap} {id : UInt64} {o : Order} (h : m.lookup id = some o) :
    (⟨id, o⟩ : (_ : UInt64) × Order) ∈ m.entries :=
  AList.mem_lookup_iff.mp h

section Run

variable {σ : Sys} {before after : List Thread} {op : Op} {task : Task} {rest : List Task}
  {tr : Conversation} {s' : State} {eff : Effect}

/-- The flags after one order was replaced. -/
lemma lock_insert (m : OrderMap) (id i : UInt64) (o : Order) :
    ((m.insert id o).lookup i).map Order.locked
      = if i = id then some o.locked else (m.lookup i).map Order.locked := by
  split
  · rename_i h
    rw [h, AList.lookup_insert]
    rfl
  · rename_i h
    rw [AList.lookup_insert_ne h]

/-- The flags after one order was removed. -/
lemma lock_erase (m : OrderMap) (id i : UInt64) :
    ((m.erase id).lookup i).map Order.locked
      = if i = id then none else (m.lookup i).map Order.locked := by
  split
  · rename_i h
    rw [h, AList.lookup_erase]
    rfl
  · rename_i h
    rw [AList.lookup_erase_ne h]

lemma toNat_decide_eq (i k : UInt64) : (decide (i = k)).toNat = if i = k then 1 else 0 := by
  by_cases h : i = k <;> simp [h]

/-- **What a section does to the table.** -/
lemma tableStep_of_tokens (hth : σ.threads = before ++ ⟨op, task :: rest⟩ :: after)
    (h : Tokens σ.state task tr eff s') (hacc : s'.account = σ.state.account) :
    TableStep σ.state s' task tr σ.table
      (σ.advance before after rest ⟨op, task, σ.state, tr, .ok eff, s'⟩).table := by
  have hbal := fun id => @Sys.holders_advance σ before after op task rest tr s' eff hacc hth id
  have moved : s'.trades = σ.state.trades → ∀ id,
      (σ.advance before after rest ⟨op, task, σ.state, tr, .ok eff, s'⟩).holders id
        + (task.holds σ.state.account id).toNat
      = σ.holders id + heldBy σ.state.account id eff.next :=
    fun htrades id => Sys.holders_moved hacc htrades hth id
  cases h with
  | pass horders hid _ hpass =>
      refine .edits hid (fun id => ?_) (fun id o h => horders ▸ h) (fun _ id o h _ => horders ▸ h)
      have h₁ := hbal id
      have h₂ := hpass id
      show Sys.holders _ id = σ.holders id
      omega
  | @add o htask heff =>
      subst htask heff
      refine .adds rfl (fun id => ?_) rfl
      have hid := moved rfl id
      rwa [heldBy_refreshTasks] at hid
  | @remove n htask heff =>
      subst htask heff
      refine .edits rfl (fun id => ?_) (fun id o h => ?_) (fun hspare id o h hlocked => ?_)
      · have hid := moved rfl id
        rwa [heldBy_refreshTasks] at hid
      · by_cases hid : id = n
        · rw [hid, AList.lookup_erase] at h
          simp at h
        · rwa [AList.lookup_erase_ne hid] at h
      · have hid : id ≠ n := by
          rintro rfl
          rw [hspare o h] at hlocked
          simp at hlocked
        rwa [AList.lookup_erase_ne hid]
  | @refresh bs htask heff hv =>
      subst htask heff
      refine .edits rfl (fun id => ?_) (fun id o h => ?_) (fun hspare id o h hlocked => ?_)
      · have hid := moved rfl id
        rwa [heldBy_nil] at hid
      · rcases accept_sub h with h | h
        · simp at h
        · exact AList.mem_lookup_iff.mpr h
      · have hmem := mem_entries_of_lookup h
        obtain ⟨bs', hv', hall⟩ := hspare ⟨_, hmem, hlocked⟩
        obtain rfl := hv.unique hv'
        exact @accept_keep id o (fun o => o.locked = true) hlocked _ _ _ hall
          σ.state.ownOrders.nodupKeys hmem
  | @lock msg taking o htask _ ho hfree heff =>
      subst htask heff
      refine .takes taking.id rfl ⟨?_, fun i => ?_, fun i => ?_⟩
      · simp [Sys.table, ho, hfree]
      · exact lock_insert σ.state.ownOrders taking.id i { o with locked := true }
      · have hnext : heldBy σ.state.account i (refreshTasks ++ [.orderTaken
            { o with account := some σ.state.account, id := some taking.id } taking msg])
            = if i = taking.id then 1 else 0 := by
          rw [← toNat_decide_eq, heldBy_append, heldBy_refreshTasks, heldBy_cons, heldBy_nil]
          simp [Task.holds, eq_comm]
        have hid := moved rfl i
        rwa [hnext] at hid
  | @unlock n o htask ho hlocked _ hnext =>
      have hfalse : some false ≠ some true := by simp
      refine .settles n rfl hfalse ⟨fun i => ?_, fun i => ?_⟩
      · exact lock_insert σ.state.ownOrders n i { o with locked := false }
      · have hid := moved rfl i
        rw [hnext i, htask i, toNat_decide_eq] at hid
        exact hid.symm
  | @drop t htask hmaker heff =>
      subst htask
      have hnone : (none : Option Bool) ≠ some true := by simp
      refine .settles t.order.getId rfl hnone ⟨fun i => ?_, fun i => ?_⟩
      · exact lock_erase σ.state.ownOrders t.order.getId i
      · have hnext : heldBy σ.state.account i eff.next = 0 := by
          rcases heff with rfl | rfl <;> simp [Task.holds]
        have hholds : (Task.handle t).holds σ.state.account i = decide (i = t.order.getId) := by
          simp [Task.holds, TradeState.holds, hmaker, eq_comm]
        have hid := moved rfl i
        rw [hnext, hholds, toNat_decide_eq] at hid
        exact hid.symm

end Run

section Runs

variable {W : Type} {E : Env Call Answer W} {account : String}

/-- A fact about tasks that holds of those a call starts with and of those a section leads to. -/
lemma tasks_of_step {P : Task → Prop} {σ σ' : Sys} {l : Label} (hs : Sys.Step cfg σ l σ')
    (h : ∀ y ∈ σ.tasks, P y) (hstart : ∀ op, l = .start op → ∀ y ∈ op.tasks, P y)
    (hnext : ∀ rec eff, l = .run rec → rec.outcome = .ok eff → rec.task ∈ σ.tasks →
      ∀ y ∈ eff.next, P y) : ∀ y ∈ σ'.tasks, P y := by
  cases hs with
  | start op _ =>
      rw [Sys.tasks_start]
      intro y hy
      rcases List.mem_append.mp hy with hy | hy
      · exact h y hy
      · exact hstart op rfl y hy
  | @run before after op task rest tr r s' _ hth hx =>
      rw [Sys.tasks_split hth] at h hnext
      rw [Sys.tasks_advance]
      intro y hy
      simp only [List.mem_append] at hy
      rcases hy with hy | hy | hy
      · exact h y (by simp only [List.mem_append]; exact Or.inl hy)
      · cases r with
        | error e => simp [continuation] at hy
        | ok eff =>
            rcases List.mem_append.mp hy with hy | hy
            · exact hnext _ eff rfl rfl (by simp) y hy
            · exact h y (by simp [hy])
      · exact h y (by simp only [List.mem_append]; exact Or.inr (Or.inr hy))

/-- What a step's section did to the own orders. -/
lemma orders_of_step {σ σ' : Sys} {rec : Record} (hs : Sys.Step cfg σ (.run rec) σ')
    (h : ∀ y ∈ σ.tasks, y.matched) :
    OrderSection σ.state rec.task rec.talk rec.outcome rec.post := by
  cases hs with
  | @run before after op task rest tr r s' _ hth hx =>
      have htask : task.matched := h task (by simp [Sys.tasks_split hth])
      exact Act.wp_iff.mp (exec_orders σ.state htask) tr r s' hx

/-- In every run, a message is processed with the order that was locked for it. -/
lemma reachable_matched {x : Sys × W} (h : (system cfg E account).Reachable x) :
    ∀ y ∈ x.1.tasks, y.matched := by
  refine Transition.System.Reachable.invariant (fun x => ∀ y ∈ x.1.tasks, y.matched) ?_ ?_ h
  · intro x hx
    rw [hx]
    simp [Sys.start, Sys.tasks]
  · rintro x l x' _ ih ⟨hs, _⟩
    refine tasks_of_step hs ih (fun op _ y hy => matched_start hy) ?_
    rintro rec eff rfl hok _
    have horders := orders_of_step hs ih
    rw [hok] at horders
    exact Tokens.matched horders

end Runs

end Democrit
