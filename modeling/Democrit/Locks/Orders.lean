import Democrit.Locks.Table

/-!
# Order locks

As long as nothing throws, **a present own order is locked exactly if it has a holder**, and no order
has two (`order_locks`).  The invariant behind it also says that ids are not given out twice while
fewer than `2 ^ 64` orders are added, and that every copy of an order on its way through a trade is
unlocked, so that `HandleSuccess` puts back an unlocked one.
-/

namespace Democrit

open Interaction LockTable

variable {cfg : Config}

section Runs

variable {W : Type} {E : Env Call Answer W} {account : String}

/-! ## Flags and holders agree -/

/-- The section ended with an exception. -/
def Record.threw (rec : Record) : Bool :=
  match rec.outcome with
  | .error .exception => true
  | _ => false

/-- Nothing is thrown, and orders come in unlocked. -/
def Label.smooth : Label → Bool
  | .start (.addOrder o) => !o.locked
  | .start _ => true
  | .run rec => !rec.threw

/-- The section is one of `MyOrders::Add`. -/
def Record.isAdd (rec : Record) : Bool :=
  match rec.task with
  | .add _ => true
  | _ => false

/-- How often `Add` was called. -/
def adds (log : List Record) : ℕ := log.countP Record.isAdd

/-- The order that comes with the task is not locked. -/
def Task.bringsUnlocked : Task → Prop
  | .add o | .orderTaken o _ _ => o.locked = false
  | _ => True

/-- The invariant: flags and holders agree, and ids are not given out twice. -/
structure Sys.Locks (σ : Sys) : Prop where
  exact : Exact σ.table
  fresh : ∀ id, σ.table.lock id ≠ none ∨ σ.table.held id ≠ 0 →
    id.toNat < σ.state.nextFreeId.toNat
  counter : σ.state.nextFreeId.toNat ≤ adds σ.log
  tasks : ∀ x ∈ σ.tasks, x.bringsUnlocked
  trades : ∀ t, σ.Knows t → getRole σ.state.account t = .maker → t.order.locked = false

lemma Task.plain.bringsUnlocked {x : Task} (h : x.plain) : x.bringsUnlocked := by
  cases x <;> trivial

lemma Sys.Locks.next {σ : Sys} (h : σ.Locks) {task : Task} {tr : Conversation} {eff : Effect}
    {s' : State} (htask : task ∈ σ.tasks) (ht : Tokens σ.state task tr eff s') :
    ∀ x ∈ eff.next, x.bringsUnlocked := by
  have hrefresh : ∀ x ∈ refreshTasks, x.bringsUnlocked :=
    fun x hx => (refreshTasks_plain x hx).bringsUnlocked
  cases ht with
  | pass _ _ hplain _ => exact fun x hx => (hplain x hx).bringsUnlocked
  | add _ heff => subst heff; exact hrefresh
  | remove _ heff => subst heff; exact hrefresh
  | refresh _ heff _ => subst heff; simp
  | lock _ _ _ hfree heff =>
      subst heff
      intro x hx
      rcases List.mem_append.mp hx with hx | hx
      · exact hrefresh x hx
      · rw [List.mem_singleton.mp hx]
        exact hfree
  | unlock _ _ _ hplain _ => exact fun x hx => (hplain x hx).bringsUnlocked
  | @drop t heq hmaker heff =>
      subst heq
      obtain ⟨th, hth, hx⟩ := List.mem_flatMap.mp htask
      have hfree : t.order.locked = false := h.trades t (Or.inr ⟨th, hth, _, hx, rfl⟩) hmaker
      rcases heff with rfl | rfl
      · exact hrefresh
      · intro x hx
        rcases List.mem_append.mp hx with hx | hx
        · exact hrefresh x hx
        · rw [List.mem_singleton.mp hx]
          exact hfree

/-- The orders of maker trades are unlocked copies. -/
lemma Sys.Locks.known {σ σ' : Sys} {l : Label} (h : σ.Locks) (hs : Sys.Step cfg σ l σ')
    (hacc : σ'.state.account = σ.state.account) {t : TradeState} (hk : σ'.Knows t)
    (hmaker : getRole σ'.state.account t = .maker) : t.order.locked = false := by
  rw [hacc] at hmaker
  rcases origin_of_step hs hk with hk | ⟨rec, rfl, horigin⟩
  · exact h.trades t hk hmaker
  · have htask : rec.task ∈ σ.tasks := by
      cases hs with
      | run _ hth _ => simp [Sys.tasks_split hth]
    cases horigin with
    | old hk => exact h.trades t hk hmaker
    | blank heq _ => rw [heq]
    | taken ht _ _ _ heq =>
        rw [ht] at htask
        rw [heq]
        exact h.tasks _ htask
    | took _ _ hown _ hout =>
        rw [hout.frame.getRole] at hmaker
        simp [getRole, newTrade, hown] at hmaker
    | @processed msg t₀ _ _ ht _ hout _ =>
        have hframe := (handleMessage_spec msg t₀).frame.trans hout.frame
        rw [hframe.getRole] at hmaker
        rw [hframe.order]
        exact h.trades t₀ (Or.inl ht) hmaker
    | @updated t₀ _ _ ht hout =>
        rw [hout.frame.getRole] at hmaker
        rw [hout.frame.order]
        exact h.trades t₀ (Or.inl ht) hmaker

lemma toNat_add_one {n : UInt64} (h : n.toNat + 1 < 2 ^ 64) : (n + 1).toNat = n.toNat + 1 := by
  rw [UInt64.toNat_add]
  exact Nat.mod_eq_of_lt h

/-- Every id that an order has, or that someone holds, was given out. -/
def Sys.Fresh (σ : Sys) : Prop :=
  ∀ id, σ.table.lock id ≠ none ∨ σ.table.held id ≠ 0 → id.toNat < σ.state.nextFreeId.toNat

/-- **One section** gives out a new id, if the ids have not run out. -/
lemma Sys.Fresh.table_step {σ σ' : Sys} (h : σ.Fresh) {task : Task} {tr : Conversation}
    (hstep : TableStep σ.state σ'.state task tr σ.table σ'.table)
    (hadds : (∃ o, task = .add o) → σ.state.nextFreeId.toNat + 1 < 2 ^ 64) : σ'.Fresh := by
  intro id hin
  cases hstep with
  | edits hid hheld hsub _ =>
      rw [hid]
      refine h id (hin.imp (fun hne => ?_) (fun hne => ?_))
      · obtain ⟨b, hb⟩ := Option.ne_none_iff_exists'.mp hne
        obtain ⟨o, ho, rfl⟩ := Option.map_eq_some_iff.mp hb
        simp [Sys.table, hsub id o ho]
      · rwa [hheld] at hne
  | @adds o hadd hheld heq =>
      subst hadd
      have hnat : σ'.state.nextFreeId.toNat = σ.state.nextFreeId.toNat + 1 := by
        rw [heq]
        exact toNat_add_one (hadds ⟨o, rfl⟩)
      rw [hnat]
      by_cases hid : id = σ.state.nextFreeId
      · rw [hid]
        exact Nat.lt_succ_self _
      · refine Nat.lt_succ_of_lt (h id (hin.imp (fun hne => ?_) (fun hne => ?_)))
        · have hlock : σ'.table.lock id = σ.table.lock id := by
            rw [Sys.table, heq]
            exact (lock_insert _ _ _ _).trans (if_neg hid)
          rwa [hlock] at hne
        · rwa [hheld] at hne
  | takes n hid htakes =>
      rw [hid]
      by_cases hn : id = n
      · rw [hn]
        exact h n (Or.inl (by simp [htakes.free]))
      · refine h id (hin.imp (fun hne => ?_) (fun hne => ?_))
        · rwa [htakes.lock, if_neg hn] at hne
        · rwa [htakes.held, if_neg hn] at hne
  | settles n hid hf hsettles =>
      rw [hid]
      by_cases hn : id = n
      · exact h id (Or.inr (by rw [hsettles.held, if_pos hn]; omega))
      · refine h id (hin.imp (fun hne => ?_) (fun hne => ?_))
        · rwa [hsettles.lock, if_neg hn] at hne
        · rw [hsettles.held]
          omega

/-- **One section** keeps flags and holders in agreement. -/
lemma Sys.Locks.table_step {σ σ' : Sys} (h : σ.Locks) {task : Task} {tr : Conversation}
    (hstep : TableStep σ.state σ'.state task tr σ.table σ'.table) (htask : task.bringsUnlocked) :
    Exact σ'.table := by
  cases hstep with
  | edits _ hheld hsub _ =>
      have hlock : ∀ id b, σ'.table.lock id = some b → σ.table.lock id = some b := by
        intro id b hb
        obtain ⟨o, ho, rfl⟩ := Option.map_eq_some_iff.mp hb
        simp [Sys.table, hsub id o ho]
      exact h.exact.edit hheld fun id b hb => Or.inl (hlock id b hb)
  | @adds o hadd hheld heq =>
      subst hadd
      have hfresh : σ.table.held σ.state.nextFreeId = 0 := by
        by_contra hne
        exact absurd (h.fresh _ (Or.inr hne)) (Nat.lt_irrefl _)
      have hlock : ∀ id, σ'.table.lock id
          = if id = σ.state.nextFreeId then some o.locked else σ.table.lock id := by
        intro id
        rw [Sys.table, heq]
        exact lock_insert _ _ _ _
      refine h.exact.edit hheld fun id b hb => ?_
      rw [hlock] at hb
      split at hb
      · rename_i hid
        right
        rw [hid, hfresh, ← Option.some.inj hb]
        exact ⟨htask, rfl⟩
      · exact Or.inl hb
  | takes n _ htakes => exact h.exact.take htakes
  | settles n _ hf hsettles => exact h.exact.settle hsettles hf

lemma adds_append (log : List Record) (rec : Record) :
    adds (log ++ [rec]) = adds log + rec.isAdd.toNat := by
  rw [adds, List.countP_append, List.countP_singleton, adds]
  cases rec.isAdd <;> rfl

/-- The counter moves only with an `Add`. -/
lemma TableStep.counter {s s' : State} {task : Task} {tr : Conversation} {t t' : Table UInt64}
    (h : TableStep s s' task tr t t') :
    s'.nextFreeId = s.nextFreeId ∨ (∃ o, task = .add o) ∧ s'.nextFreeId = s.nextFreeId + 1 := by
  cases h with
  | edits hid => exact Or.inl hid
  | adds htask _ heq => exact Or.inr ⟨⟨_, htask⟩, by rw [heq]⟩
  | takes _ hid => exact Or.inl hid
  | settles _ hid => exact Or.inl hid

/-- **The step of the invariant.** -/
lemma Sys.Locks.step {σ σ' : Sys} {l : Label} (h : σ.Locks) (hs : Sys.Step cfg σ l σ')
    (hmatched : ∀ y ∈ σ.tasks, y.matched) (hsmooth : l.smooth = true) (hrun : σ'.halted = false)
    (hadds : adds σ'.log < 2 ^ 64) : σ'.Locks := by
  have hknown := fun hacc t hk => @Sys.Locks.known cfg σ σ' l h hs hacc t hk
  have hlist : ∀ y ∈ σ'.tasks, y.bringsUnlocked := by
    refine tasks_of_step hs h.tasks (fun op hl y hy => ?_) fun rec eff hl hok htask => ?_
    · subst hl
      cases op with
      | addOrder o =>
          rw [List.mem_singleton.mp hy]
          simpa [Label.smooth, Task.bringsUnlocked] using hsmooth
      | refreshOrders => exact (refreshTasks_plain y hy).bringsUnlocked
      | _ => rw [List.mem_singleton.mp hy]; trivial
    · subst hl
      have horders := orders_of_step hs hmatched
      rw [hok] at horders
      exact h.next htask horders
  cases hs with
  | start op hh =>
      refine ⟨?_, ?_, h.counter, hlist, hknown rfl⟩
      · rw [Sys.table_start]
        exact h.exact
      · rw [Sys.table_start]
        exact h.fresh
  | @run before after op task rest tr r s' hh hth hx =>
      have hacc := (section_of_exec hx).account_eq
      have htask : task ∈ σ.tasks := by simp [Sys.tasks_split hth]
      obtain ⟨eff, rfl⟩ : ∃ eff, r = .ok eff := by
        cases r with
        | ok eff => exact ⟨eff, rfl⟩
        | error e =>
            cases e with
            | exception => simp [Label.smooth, Record.threw] at hsmooth
            | check c => simp [Sys.advance, halts] at hrun
      have htokens := Act.wp_iff.mp (exec_orders σ.state (hmatched task htask)) tr _ s' hx
      have hstep := tableStep_of_tokens hth htokens hacc
      have hlog : adds σ.log + (Record.isAdd ⟨op, task, σ.state, tr, .ok eff, s'⟩).toNat < 2 ^ 64 := by
        have := hadds
        rwa [Sys.advance, adds_append] at this
      have hcount : (∃ o, task = .add o) → σ.state.nextFreeId.toNat + 1 < 2 ^ 64 := by
        rintro ⟨o, rfl⟩
        have hadd : (Record.isAdd ⟨op, .add o, σ.state, tr, .ok eff, s'⟩).toNat = 1 := rfl
        have := h.counter
        omega
      have hexact := @Sys.Locks.table_step σ
        (σ.advance before after rest ⟨op, task, σ.state, tr, .ok eff, s'⟩) h task tr hstep
        (h.tasks task htask)
      have hfresh := @Sys.Fresh.table_step σ
        (σ.advance before after rest ⟨op, task, σ.state, tr, .ok eff, s'⟩) h.fresh task tr hstep
        hcount
      refine ⟨hexact, hfresh, ?_, hlist, hknown hacc⟩
      have := h.counter
      rw [Sys.advance, adds_append]
      rcases hstep.counter with hid | ⟨⟨o, rfl⟩, hid⟩
      · rw [hid]
        omega
      · have hadd : (Record.isAdd ⟨op, .add o, σ.state, tr, .ok eff, s'⟩).toNat = 1 := rfl
        rw [hid, hadd, toNat_add_one (hcount ⟨o, rfl⟩)]
        omega

/-- What the locks on own orders mean. -/
structure OrderLocks (σ : Sys) : Prop where
  /-- No order has two holders. -/
  one : ∀ id, σ.holders id ≤ 1
  /-- A present order is locked exactly if it has one. -/
  locked : ∀ id o, σ.state.ownOrders.lookup id = some o → (o.locked = true ↔ σ.holders id = 1)
  /-- In particular, there is at most one active trade against it. -/
  trades : ∀ id, heldIn σ.state.account id σ.state.trades ≤ 1
  /-- And if it is locked, then because of a trade, or because of a call in progress that is about
  to hand it over, to unlock it, or to remove it. -/
  held : ∀ id o, σ.state.ownOrders.lookup id = some o → o.locked = true →
    (∃ t ∈ σ.state.trades, t.holds σ.state.account id = true) ∨
      ∃ th ∈ σ.threads, ∃ x ∈ th.tasks, x.holds σ.state.account id = true

/-- **Order locks.**  In every interleaving of critical sections in which nothing is thrown, orders
are added unlocked and fewer than `2 ^ 64` are added, each id has at most one holder, and an own
order is locked exactly if it has one. -/
theorem order_locks {x : Sys × W}
    (h : ((system cfg E account).restrict fun _ l => l.smooth = true).Reachable x)
    (hrun : x.1.halted = false) (hadds : adds x.1.log < 2 ^ 64) : OrderLocks x.1 := by
  have hlocks : x.1.halted = false → adds x.1.log < 2 ^ 64 → x.1.Locks := by
    refine Transition.System.Reachable.invariant
      (fun x => x.1.halted = false → adds x.1.log < 2 ^ 64 → x.1.Locks) ?_ ?_ h
    · intro x hx _ _
      have hempty : x.1 = Sys.start account := hx
      rw [hempty]
      refine ⟨⟨fun _ => Nat.zero_le _, by simp [Sys.table, Sys.start]⟩, ?_, Nat.zero_le _,
        by simp [Sys.tasks, Sys.start], ?_⟩
      · intro id hin
        simp [Sys.table, Sys.start, Sys.holders, Sys.tasks, heldBy, heldIn] at hin
      · rintro t (ht | ⟨th, hth, _⟩)
        · simp [Sys.start] at ht
        · simp [Sys.start] at hth
    · rintro x l x' hr ih ⟨⟨hs, _⟩, hsmooth⟩ hrun hadds
      have hbefore : x.1.halted = false ∧ adds x.1.log ≤ adds x'.1.log := by
        generalize x'.1 = σ' at hs
        cases hs with
        | start _ hh => exact ⟨hh, Nat.le_refl _⟩
        | run hh _ _ => exact ⟨hh, by rw [Sys.advance, adds_append]; omega⟩
      have := ih hbefore.1 (Nat.lt_of_le_of_lt hbefore.2 hadds)
      exact this.step hs (reachable_matched hr.of_restrict) hsmooth hrun hadds
  have hinv := hlocks hrun hadds
  have hlocked : ∀ id o, x.1.state.ownOrders.lookup id = some o →
      (o.locked = true ↔ x.1.holders id = 1) := by
    intro id o ho
    exact hinv.exact.locked id o.locked (by simp [Sys.table, ho])
  refine ⟨hinv.exact.one, hlocked, fun id => ?_, fun id o ho hl => ?_⟩
  · have : x.1.holders id ≤ 1 := hinv.exact.one id
    rw [Sys.holders] at this
    omega
  · have hone := (hlocked id o ho).mp hl
    rw [Sys.holders] at hone
    by_cases htrade : 0 < heldIn x.1.state.account id x.1.state.trades
    · exact Or.inl (List.countP_pos_iff.mp htrade)
    · have : 0 < heldBy x.1.state.account id x.1.tasks := by omega
      obtain ⟨y, hy, hholds⟩ := List.countP_pos_iff.mp this
      obtain ⟨th, hth, hy⟩ := List.mem_flatMap.mp hy
      exact Or.inr ⟨th, hth, y, hy, hholds⟩

end Runs

/-! ### An offer that is taken

We offer three units of gold, and another player takes two of them. -/

/-- A node that accepts every order, and a clock that moves on by a minute. -/
def offerScript (n : ℕ) : (c : Call) → Answer c × ℕ
  | .clock => (Int64.ofNat (60 * n), n + 1)
  | .rpc (.isAsset _) => ((.ok true : Except RpcError Bool), n)
  | .rpc (.canSell _ _ _) => ((.ok (some 0) : Except RpcError (Option Uint256)), n)
  | .rpc _ => (.error .exception, n)

/-- Our order. -/
def offerOrder : Order where
  asset := some "gold"
  maxUnits := 3
  type := some .ask
  priceSat := some 5

/-- The message that takes it. -/
def offerMessage : ProcessingMessage where
  counterparty := some "taker"
  identifier := some "maker\n0"
  takingOrder := some { id := 0, units := 2 }

/-- The order is added, taken, and a trade is created for it. -/
def offerSchedule : List Sched :=
  [.start (.addOrder offerOrder), .run 0, .start (.processMessage offerMessage), .run 1, .run 1,
    .run 1, .run 1, .run 1]

/-- While the trade is active, the order is locked and has one holder. -/
theorem order_locks_offer : ∃ (x : Sys × ℕ) (o : Order),
    ((system sampleConfig (Env.ofScript offerScript) "maker").restrict
      fun _ l => l.smooth = true).Reachable x ∧
    x.1.state.ownOrders.lookup 0 = some o ∧ o.locked = true ∧ x.1.holders 0 = 1 ∧
    OrderLocks x.1 := by
  obtain ⟨x, hr, hQ⟩ := Sys.exists_restricted sampleConfig offerScript "maker" 0 offerSchedule
    Label.smooth (fun _ l => l.smooth = true) (fun _ _ _ _ h => h)
    (fun x => !x.1.halted && decide (adds x.1.log < 2 ^ 64) &&
      (x.1.state.ownOrders.lookup 0).any fun o => o.locked) (by decide +kernel)
  simp only [Bool.and_eq_true, Bool.not_eq_true', decide_eq_true_eq] at hQ
  obtain ⟨⟨hrun, hadds⟩, hQ⟩ := hQ
  obtain ⟨o, ho, hlocked⟩ := (Option.any_eq_true _ _).mp hQ
  have hlocks := order_locks hr hrun hadds
  exact ⟨x, o, hr, ho, hlocked, (hlocks.locked 0 o ho).mp hlocked, hlocks⟩

end Democrit
