import Democrit.Locks.Ledger

/-!
# Never more than was offered

In every run in which each call returns before the next one starts and none throws, **an order is
never oversold** (`never_oversold`): of an order with all that `HandleSuccess` has re-created from
it, at most one is stored, at most one trade is active, and what is left of it and what was sold
add up to what the user has offered.

This rests on the ids.  `Add` gives out the next one, and after `2 ^ 64` calls it gives out an id
again that a trade may still have.  Then the failure of the old trade unlocks the new order while it
is being traded, and it can be taken twice (`oversold`).
-/

namespace Democrit

open Interaction Conservation

variable {cfg : Config} {account : String} {W : Type} {E : Env Call Answer W}

/-! ## Every run -/

/-- The invariant does not depend on calls that have not begun. -/
lemma Sys.Lines.start {σ : Sys} (h : σ.Lines) (hidle : ∀ th ∈ σ.threads, th.tasks = []) (op : Op) :
    Sys.Lines { σ with threads := σ.threads ++ [⟨op, op.tasks⟩] } := by
  set σ' : Sys := { σ with threads := σ.threads ++ [⟨op, op.tasks⟩] } with hσ'
  have htasks : σ'.tasks = op.tasks := by
    rw [hσ', Sys.tasks_start, Sys.tasks, flatMap_tasks_nil hidle, List.nil_append]
  have hrecreating : recreating σ'.threads = recreating σ.threads := by
    have : Thread.recreating ⟨op, op.tasks⟩ = [] := by
      cases op <;> rfl
    simp [hσ', recreating, this]
  have hopen : ∀ t, σ'.Open t → σ.Open t := by
    rintro t (ht | ht)
    · exact Or.inl ht
    · rw [htasks] at ht
      cases op <;> simp [Op.tasks, refreshTasks, handles] at ht
  have htaken : ∀ o taking msg, .orderTaken o taking msg ∉ σ'.tasks := by
    intro o taking msg hmem
    rw [htasks] at hmem
    cases op <;> simp [Op.tasks, refreshTasks] at hmem
  have hcarries : ∀ id m, σ'.Carries id m → σ.Carries id m := by
    intro id m hc
    cases hc with
    | stored ho => exact .stored ho
    | taken hmem => exact absurd hmem (htaken _ _ _)
    | trade ht hmaker => exact .trade (hopen _ ht) hmaker
  have hstep : Conservation.Step σ.ledger σ'.ledger := by
    refine .keep ?_ (fun _ _ _ => rfl) rfl rfl (Or.inl ?_)
    · rintro k v ⟨m, hc, hv⟩
      exact ⟨m, hcarries k m hc, hv⟩
    · show σ'.owed = σ.owed
      rw [Sys.owed, Sys.owed, hrecreating]
  exact {
    conserved := hstep.conserved h.conserved
    rooted := fun id m hc => h.rooted id m (hcarries id m hc)
    debt := fun hne => h.debt (hrecreating ▸ hne)
    named := h.named
    trades := fun t ht => h.trades t (hopen t ht)
    bounds := h.bounds
    taken := fun o taking msg hmem => absurd hmem (htaken o taking msg)
    units := fun t ht => h.units t (hopen t ht)
    past := h.past }

lemma Sys.orderly_start {σ : Sys} (hidle : ∀ th ∈ σ.threads, th.tasks = []) {op : Op}
    (hop : ∀ o units, op ≠ .takeOrder o units) :
    Sys.Orderly { σ with threads := σ.threads ++ [⟨op, op.tasks⟩] } := by
  have htasks : Sys.tasks { σ with threads := σ.threads ++ [⟨op, op.tasks⟩] } = op.tasks := by
    rw [Sys.tasks_start, Sys.tasks, flatMap_tasks_nil hidle, List.nil_append]
  refine ⟨⟨op.tasks, [], ?_, ?_, rfl, ?_⟩, ?_, ?_, ?_⟩
  · rw [htasks, List.append_nil]
  · cases op <;> rfl
  · cases op <;> simp [Op.tasks, refreshTasks, additions]
  · intro y hy hinit
    rw [htasks] at hy ⊢
    cases op with
    | refreshOrders =>
        rcases hinit with rfl | ⟨msg, rfl⟩ <;> simp [Op.tasks, refreshTasks] at hy
    | _ => rw [List.mem_singleton.mp hy]; rfl
  · intro o taking msg _
    rw [htasks]
    cases op <;> rfl
  · intro o units hmem
    rw [htasks] at hmem
    cases op with
    | takeOrder o' units' => exact hop o' units' rfl
    | _ => simp [Op.tasks, refreshTasks] at hmem

/-- Between calls of a run in which nothing throws, the books are balanced. -/
lemma reachable_returns {x : Sys × W} (h : ((system cfg E account).restrict Sequential).Reachable x)
    (hrun : x.1.halted = false) : ((system cfg E account).restrict UpdaterReturns).Reachable x := by
  induction h with
  | init h => exact .init h
  | @step x x' l _ hst ih =>
      obtain ⟨⟨hs, hp⟩, hseq⟩ := hst
      refine (ih (not_halted_of_step hs)).step ⟨⟨hs, hp⟩, ?_⟩
      rintro rec rfl _
      generalize x'.1 = σ' at *
      cases hs with
      | run => exact ok_of_sequential hseq hrun

/-- Trades are numbered in the order of their creation. -/
lemma Balanced.serial_le {σ : Sys} (h : Balanced cfg account σ) {t : TradeState}
    (ht : σ.Open t ∨ t ∈ handled σ.log) : t.serial ≤ σ.state.created := by
  have hmem : t ∈ σ.state.trades ++ finalised σ.log := by
    have hfinal : t ∈ handled σ.log ++ unhandled σ.threads → t ∈ σ.state.trades ++ finalised σ.log :=
      fun ht => List.mem_append_right _ (h.handlers.mem_iff.mp ht)
    rcases ht with (ht | ht) | ht
    · exact List.mem_append_left _ ht
    · refine hfinal (List.mem_append_right _ ?_)
      obtain ⟨th, hth, hmem⟩ := List.mem_flatMap.mp (mem_handles ht)
      exact List.mem_flatMap.mpr ⟨th, hth, List.mem_filterMap.mpr ⟨_, hmem, rfl⟩⟩
    · exact hfinal (List.mem_append_left _ ht)
  have hserial : t.serial ∈ (created σ.log).map TradeState.serial :=
    h.balance.mem_iff.mp (List.mem_map_of_mem hmem)
  rw [h.numbered, List.mem_range'] at hserial
  omega

/-- Everything that holds along a run of one call at a time. -/
structure Sys.Steady (σ : Sys) : Prop where
  alone : σ.Alone
  orderly : σ.Orderly
  fresh : σ.Fresh
  counter : σ.state.nextFreeId.toNat ≤ adds σ.log
  sessions : σ.Sessions
  lines : σ.Lines

/-- An id that no one holds is free to be given out. -/
lemma Sys.Fresh.unheld {σ : Sys} (h : σ.Fresh) : σ.holders σ.state.nextFreeId = 0 := by
  by_contra hne
  exact absurd (h _ (Or.inr hne)) (Nat.lt_irrefl _)

/-- Ids after a section that returned. -/
lemma Sys.Steady.ids {σ σ' : Sys} {rec : Record} {eff : Effect} (h : σ.Steady)
    (hs : Sys.Step cfg σ (.run rec) σ') (hok : rec.outcome = .ok eff)
    (hmatched : ∀ y ∈ σ.tasks, y.matched) (hadds : adds σ'.log < 2 ^ 64) :
    σ'.Fresh ∧ σ'.state.nextFreeId.toNat ≤ adds σ'.log := by
  cases hs with
  | @run before after op task rest tr r s' _ hth hx =>
      obtain rfl : r = .ok eff := hok
      have htokens := Act.wp_iff.mp
        (exec_orders σ.state (hmatched task (by simp [Sys.tasks_split hth]))) tr _ s' hx
      have hstep := tableStep_of_tokens hth htokens (section_of_exec hx).account_eq
      have hcounter := h.counter
      have hlog := adds_append σ.log ⟨op, task, σ.state, tr, .ok eff, s'⟩
      have hadds : adds (σ.log ++ [⟨op, task, σ.state, tr, .ok eff, s'⟩]) < 2 ^ 64 := hadds
      have hcount : (∃ o, task = .add o) → σ.state.nextFreeId.toNat + 1 < 2 ^ 64 ∧
          (Record.isAdd ⟨op, task, σ.state, tr, .ok eff, s'⟩).toNat = 1 := by
        rintro ⟨o, rfl⟩
        have hadd : (Record.isAdd ⟨op, .add o, σ.state, tr, .ok eff, s'⟩).toNat = 1 := rfl
        exact ⟨by omega, hadd⟩
      refine ⟨@Sys.Fresh.table_step σ
        (σ.advance before after rest ⟨op, task, σ.state, tr, .ok eff, s'⟩) h.fresh task tr hstep
        fun ho => (hcount ho).1, ?_⟩
      show s'.nextFreeId.toNat ≤ adds (σ.log ++ [⟨op, task, σ.state, tr, .ok eff, s'⟩])
      rcases hstep.counter with hid | ⟨ho, hid⟩
      · have hid : s'.nextFreeId = σ.state.nextFreeId := hid
        rw [hid]
        omega
      · obtain ⟨hlt, hadd⟩ := hcount ho
        have hid : s'.nextFreeId = σ.state.nextFreeId + 1 := hid
        rw [hid, toNat_add_one hlt]
        omega

/-- **One step.** -/
lemma Sys.Steady.step {x : Sys × W} {σ' : Sys} {l : Label} (h : x.1.Steady)
    (hs : Sys.Step cfg x.1 l σ') (hseq : Sequential x l) (hbalanced : Balanced cfg account x.1)
    (hproper : x.1.Proper) (hmatched : ∀ y ∈ x.1.tasks, y.matched) (hrun : σ'.halted = false)
    (hadds : adds σ'.log < 2 ^ 64) : σ'.Steady := by
  have hdistinct : Distinct x l := by
    cases l with
    | start op => trivial
    | run rec =>
        have htask : rec.task ∈ x.1.tasks := by
          cases hs with
          | run _ hth _ => simp [Sys.tasks_split hth]
        rw [Distinct]
        cases heq : rec.task with
        | takeOrder o units =>
            rw [heq] at htask
            exact absurd htask (h.orderly.maker o units)
        | add o => exact h.fresh.unheld
        | _ => trivial
  have halone := h.alone.step hs hseq
  have hsessions := h.sessions.step hs hproper hmatched hdistinct hrun
  cases l with
  | start op =>
      cases hs with
      | start _ _ =>
          refine ⟨halone, Sys.orderly_start hseq.1 hseq.2, ?_, h.counter, hsessions,
            h.lines.start hseq.1 op⟩
          rw [Sys.Fresh, Sys.table_start]
          exact h.fresh
  | run rec =>
      obtain ⟨eff, rest, hturn⟩ := turn_of_step hs hseq h.alone hmatched hrun
      obtain ⟨hfresh, hcounter⟩ := h.ids hs hturn.ok hmatched hadds
      have hone : (additions eff.next).length ≤ 1 := by
        rcases additions_of_exec hturn.exec with hnext | ⟨_, _, _, _, _, hnext⟩ <;> simp [hnext]
      exact ⟨halone, h.orderly.advance hturn.tasks hturn.tasks' hturn.leads hone, hfresh, hcounter,
        hsessions, hturn.lines h.orderly h.fresh h.sessions h.lines fun _ => hbalanced.serial_le⟩

lemma Sys.steady_start (account : String) : (Sys.start account).Steady := by
  have hcarries : ∀ id m, ¬ (Sys.start account).Carries id m := by
    intro id m hc
    cases hc with
    | stored ho => simp [Sys.start] at ho
    | taken hmem => simp [Sys.start, Sys.tasks] at hmem
    | trade hopen _ => simp [Sys.start, Sys.tasks, Sys.Open, handles] at hopen
  have hopen : ∀ t, ¬ (Sys.start account).Open t := by
    intro t ht
    simp [Sys.start, Sys.tasks, Sys.Open, handles] at ht
  refine ⟨Nat.zero_le _, ⟨⟨[], [], rfl, rfl, rfl, Nat.zero_le _⟩, ?_, ?_, ?_⟩, ?_, Nat.zero_le _,
    ?_, ?_⟩
  · intro y hy
    simp [Sys.start, Sys.tasks] at hy
  · intro o taking msg hmem
    simp [Sys.start, Sys.tasks] at hmem
  · intro o units hmem
    simp [Sys.start, Sys.tasks] at hmem
  · intro id hin
    simp [Sys.table, Sys.start, Sys.holders, Sys.tasks, heldBy, heldIn] at hin
  · refine ⟨fun id => ?_, ?_, ?_, by simp [Sys.start]⟩
    · simp [Sys.sessions, Sys.start, Sys.tasks, securedBy, heldIn]
    · intro id o ho
      simp [Sys.start] at ho
    · intro id o ho
      simp [Sys.start] at ho
  · refine ⟨⟨?_, ?_, ?_, ?_⟩, fun id m hc => absurd hc (hcarries id m), ?_, ?_,
      fun t ht => absurd ht (hopen t), ?_, ?_, fun t ht => absurd ht (hopen t), ?_⟩
    · rintro k k' v v' r ⟨m, hc, _⟩
      exact absurd hc (hcarries k m)
    · rintro k v r ⟨m, hc, _⟩
      exact absurd hc (hcarries k m)
    · intro r v ho
      simp [Sys.ledger, Sys.owed, Sys.start, recreating] at ho
    · intro r
      exact Nat.zero_le _
    · intro hne
      simp [Sys.start, recreating] at hne
    · intro n hn
      simp [Sys.start, lineages] at hn
    · intro id o ho
      simp [Sys.start] at ho
    · intro o taking msg hmem
      simp [Sys.start, Sys.tasks] at hmem
    · intro t ht
      simp [Sys.start, handled, handles] at ht

/-- **One call at a time**, while fewer than `2 ^ 64` orders are added. -/
theorem reachable_steady {x : Sys × W}
    (h : ((system cfg E account).restrict Sequential).Reachable x) (hrun : x.1.halted = false)
    (hadds : adds x.1.log < 2 ^ 64) : x.1.Steady := by
  induction h with
  | @init x hx =>
      have hempty : x.1 = Sys.start account := hx
      rw [hempty]
      exact Sys.steady_start account
  | @step x x' l hr hst ih =>
      obtain ⟨⟨hs, _⟩, hseq⟩ := hst
      have hbefore := not_halted_of_step hs
      have hle : adds x.1.log ≤ adds x'.1.log := by
        rw [log_of_step hs, adds, adds, List.countP_append]
        exact Nat.le_add_right _ _
      exact (ih hbefore (Nat.lt_of_le_of_lt hle hadds)).step hs hseq
        (reachable_balanced (reachable_returns hr hbefore)) (reachable_proper hr.of_restrict)
        (reachable_matched hr.of_restrict) hrun hadds

/-- What `HandleSuccess` puts back has something left to trade, and bounds that are the right way
round. -/
def Order.Tradable (o : Order) : Prop := 1 ≤ o.maxUnits.toNat ∧ o.getMinUnits ≤ o.maxUnits

lemma tradable_of_recreates {σ σ' : Sys} {rec : Record} (hs : Sys.Step cfg σ (.run rec) σ')
    {o : Order} (ho : o ∈ rec.recreates) : o.Tradable := by
  cases hs with
  | @run before after op task rest tr r s' _ _ hx =>
      cases r with
      | error e => simp [Record.recreates] at ho
      | ok eff =>
          have ho : o ∈ additions eff.next := ho
          rcases additions_of_exec hx with hnext | ⟨t, _, _, _, hkeep, hnext⟩
          · simp [hnext] at ho
          · rw [hnext, List.mem_singleton] at ho
            rw [ho]
            simp only [keepsReducedOrder, Bool.and_eq_true, decide_eq_true_eq] at hkeep
            exact ⟨UInt64.lt_iff_toNat_lt.mp hkeep.1, hkeep.2⟩

/-- **Re-created orders.** -/
lemma reachable_recreated {x : Sys × W} (h : (system cfg E account).Reachable x) :
    (∀ rec ∈ x.1.log, ∀ o ∈ rec.readds, o.Tradable) ∧ ∀ o ∈ recreating x.1.threads, o.Tradable := by
  induction h with
  | @init x hx =>
      have hempty : x.1 = Sys.start account := hx
      rw [hempty]
      simp [Sys.start, recreating]
  | @step x x' l hr hst ih =>
      obtain ⟨hs, _⟩ := hst
      have hsub := (readds_step hs).subset
      have hnew : ∀ o ∈ l.news.flatMap Record.readds ++ recreating x'.1.threads, o.Tradable := by
        intro o ho
        rcases List.mem_append.mp (hsub ho) with ho | ho
        · exact ih.2 o ho
        · obtain ⟨rec, hrec, ho'⟩ := List.mem_flatMap.mp ho
          cases l with
          | start op => simp [Label.news] at hrec
          | run rec' =>
              obtain rfl := List.mem_singleton.mp hrec
              exact tradable_of_recreates hs ho'
      refine ⟨fun rec hrec o ho => ?_, fun o ho => hnew o (List.mem_append_right _ ho)⟩
      rw [log_of_step hs] at hrec
      rcases List.mem_append.mp hrec with hrec | hrec
      · exact ih.1 rec hrec o ho
      · exact hnew o (List.mem_append_left _ (List.mem_flatMap.mpr ⟨rec, hrec, ho⟩))

/-- The trade is one against the lineage `n`. -/
def Lineages.against (g : Lineages) (account : String) (n : ℕ) (t : TradeState) : Bool :=
  getRole account t = .maker && g.trade t.serial = some n

/-- The current order of the lineage `n`: one that is stored, or the one that an active trade has on
record. -/
inductive Sys.Current (σ : Sys) (n : ℕ) : Order → Prop
  | stored {id o} (ho : σ.state.ownOrders.lookup id = some o)
      (hn : (lineages σ.log).order id = some n) : Current σ n o
  | active {t} (ht : t ∈ σ.state.trades)
      (hn : (lineages σ.log).against σ.state.account n t = true) : Current σ n t.order

/-- **The lineage `n` of an order for `M` units is not oversold.** -/
structure Sys.NotOversold (σ : Sys) (n : ℕ) (M : ℕ) : Prop where
  /-- At most one order of the lineage is stored. -/
  stored : ∀ id id' o o', σ.state.ownOrders.lookup id = some o →
    σ.state.ownOrders.lookup id' = some o' → (lineages σ.log).order id = some n →
    (lineages σ.log).order id' = some n → id = id'
  /-- At most one trade against it is active. -/
  active : σ.state.trades.countP ((lineages σ.log).against σ.state.account n) ≤ 1
  /-- The units of the current order, and those sold so far, are those of the first one. -/
  current : ∀ o, σ.Current n o →
    o.maxUnits.toNat + (lineages σ.log).sold σ.state.account (finalised σ.log) n = M
  /-- No more was sold than was offered. -/
  sold : (lineages σ.log).sold σ.state.account (finalised σ.log) n ≤ M

lemma Lineages.sold_perm (g : Lineages) (account : String) {l l' : List TradeState} (h : l.Perm l')
    (n : ℕ) : g.sold account l n = g.sold account l' n :=
  ((h.filter _).map _).sum_nat

/-- Between calls, every finalised trade has been handled. -/
lemma Balanced.handled_perm {σ : Sys} (h : Balanced cfg account σ)
    (hidle : ∀ th ∈ σ.threads, th.tasks = []) : (handled σ.log).Perm (finalised σ.log) := by
  have hnone : unhandled σ.threads = [] := by
    refine List.flatMap_eq_nil_iff.mpr fun th hth => ?_
    rw [hidle th hth]
    rfl
  have := h.handlers
  rwa [hnone, List.append_nil] at this

/-- At most one trade against a lineage is active, because they are all against the one order. -/
lemma Sys.Steady.active {σ : Sys} (h : σ.Steady) (n : ℕ) :
    σ.state.trades.countP ((lineages σ.log).against σ.state.account n) ≤ 1 := by
  -- where the units of such a trade are on record
  have hitem : ∀ t ∈ σ.state.trades, (lineages σ.log).against σ.state.account n t = true →
      getRole σ.state.account t = .maker ∧ σ.ledger.has t.order.getId t.order.maxUnits.toNat ∧
        σ.ledger.root t.order.getId = some n := by
    intro t ht hn
    simp only [Lineages.against, Bool.and_eq_true, decide_eq_true_eq] at hn
    refine ⟨hn.1, ⟨_, .trade (Or.inl ht) hn.1, rfl⟩, ?_⟩
    exact (h.lines.trades t (Or.inl ht) hn.1).symm.trans hn.2
  by_cases hsome : ∃ t ∈ σ.state.trades, (lineages σ.log).against σ.state.account n t = true
  · obtain ⟨t, ht, hn⟩ := hsome
    obtain ⟨_, hhas, hroot⟩ := hitem t ht hn
    have hle : σ.state.trades.countP ((lineages σ.log).against σ.state.account n)
        ≤ heldIn σ.state.account t.order.getId σ.state.trades := by
      refine List.countP_mono_left fun t' ht' hn' => ?_
      obtain ⟨hmaker', hhas', hroot'⟩ := hitem t' ht' hn'
      have hid := h.lines.conserved.apart _ _ _ _ n hhas' hhas hroot' hroot
      simp [TradeState.holds, hmaker', hid]
    have hone := h.sessions.one t.order.getId
    rw [Sys.sessions] at hone
    omega
  · have hzero : σ.state.trades.countP ((lineages σ.log).against σ.state.account n) = 0 :=
      List.countP_eq_zero.mpr fun t ht hn => hsome ⟨t, ht, hn⟩
    omega

/-- The current order of a lineage is on record. -/
lemma Sys.Steady.current {σ : Sys} (h : σ.Steady) {n : ℕ} {o : Order} (ho : σ.Current n o) :
    ∃ id, σ.ledger.has id o.maxUnits.toNat ∧ σ.ledger.root id = some n := by
  cases ho with
  | @stored id _ ho hn => exact ⟨id, ⟨_, .stored ho, rfl⟩, hn⟩
  | @active t ht hn =>
      simp only [Lineages.against, Bool.and_eq_true, decide_eq_true_eq] at hn
      exact ⟨t.order.getId, ⟨_, .trade (Or.inl ht) hn.1, rfl⟩,
        (h.lines.trades t (Or.inl ht) hn.1).symm.trans hn.2⟩

lemma Sys.Steady.notOversold {σ : Sys} (h : σ.Steady) (hbalanced : Balanced cfg account σ)
    (hidle : ∀ th ∈ σ.threads, th.tasks = []) {n : ℕ} {rec : Record} {o : Order}
    (hrec : σ.log[n]? = some rec) (ho : rec.offer = some o) :
    σ.NotOversold n o.maxUnits.toNat := by
  have htotal : σ.ledger.total n = o.maxUnits.toNat := by
    show offered σ.log n = _
    simp [offered, hrec, ho]
  have hsold : σ.ledger.sold n = (lineages σ.log).sold σ.state.account (finalised σ.log) n :=
    Lineages.sold_perm _ _ (hbalanced.handled_perm hidle) n
  refine ⟨fun id id' o o' ho ho' hn hn' => ?_, h.active n, fun o ho => ?_, ?_⟩
  · exact h.lines.conserved.apart id id' _ _ n ⟨_, .stored ho, rfl⟩ ⟨_, .stored ho', rfl⟩ hn hn'
  · obtain ⟨id, hhas, hroot⟩ := h.current ho
    rw [← hsold, ← htotal]
    exact h.lines.conserved.value id _ n hhas hroot
  · rw [← hsold, ← htotal]
    exact h.lines.conserved.bounded n

/-- **Never oversell an order.**  In every run of `Add`, `RemoveById`, `RunRefresh`, `ProcessMessage`
and `UpdateAndArchiveTrades` in which each call returns before the next one starts, none throws and
fewer than `2 ^ 64` orders are added: no order of the user is oversold; every stored order, and
every trade against an own order, goes back to one of them; no such trade is about more units than
its order has, so that `HandleSuccess` subtracts without wrapping around; and what it puts back is
for at least one unit, and for at least `min_units`. -/
theorem never_oversold {x : Sys × W}
    (hr : ((system cfg E account).restrict Sequential).Reachable x) (hrun : x.1.halted = false)
    (hidle : ∀ th ∈ x.1.threads, th.tasks = []) (hadds : adds x.1.log < 2 ^ 64) :
    (∀ n rec o, x.1.log[n]? = some rec → rec.offer = some o →
      x.1.NotOversold n o.maxUnits.toNat) ∧
    (∀ id o, x.1.state.ownOrders.lookup id = some o →
      ∃ n, IsOffer x.1.log n ∧ (lineages x.1.log).order id = some n) ∧
    (∀ t ∈ x.1.state.trades ++ finalised x.1.log, getRole account t = .maker →
      (∃ n, IsOffer x.1.log n ∧ (lineages x.1.log).trade t.serial = some n) ∧
      t.units ≤ t.order.maxUnits) ∧
    ∀ rec ∈ x.1.log, ∀ o ∈ rec.readds, 1 ≤ o.maxUnits.toNat ∧ o.getMinUnits ≤ o.maxUnits := by
  have hsteady := reachable_steady hr hrun hadds
  have hbalanced := reachable_balanced (reachable_returns hr hrun)
  have haccount := reachable_account hr.of_restrict
  have hlines := hsteady.lines
  refine ⟨fun n rec o => hsteady.notOversold hbalanced hidle, fun id o ho => ?_,
    fun t ht hmaker => ?_, (reachable_recreated hr.of_restrict).1⟩
  · obtain ⟨n, hn⟩ := hlines.rooted id _ (.stored ho)
    exact ⟨n, hlines.named n (Or.inl ⟨id, hn⟩), hn⟩
  · rw [← haccount] at hmaker
    rcases List.mem_append.mp ht with ht | ht
    · obtain ⟨n, hn⟩ := hlines.rooted _ _ (.trade (Or.inl ht) hmaker)
      rw [← hlines.trades t (Or.inl ht) hmaker] at hn
      exact ⟨⟨n, hlines.named n (Or.inr (Or.inl ⟨_, hn⟩)), hn⟩, hlines.units t (Or.inl ht) hmaker⟩
    · obtain ⟨hunits, n, hn⟩ :=
        hlines.past t ((hbalanced.handled_perm hidle).mem_iff.mpr ht) hmaker
      exact ⟨⟨n, hlines.named n (Or.inr (Or.inl ⟨_, hn⟩)), hn⟩, hunits⟩

/-! ### A sale -/

/-- The order is added, taken and sold, and the trade is found confirmed. -/
def soldCalls : List Op :=
  [.addOrder offerOrder, .processMessage takingMessage, .processMessage signedMessage, .updateTrades]

/-- Two of three units are sold, and one is left. -/
theorem never_oversold_sale : ∃ x : Sys × ℕ,
    ((system sampleConfig (Env.ofScript makerScript) "seller").restrict Sequential).Reachable x ∧
    (lineages x.1.log).sold x.1.state.account (finalised x.1.log) 0 = 2 ∧
    x.1.state.ownOrders.lookup 1 = some remainder ∧ (lineages x.1.log).order 1 = some 0 ∧
    x.1.NotOversold 0 3 := by
  have hcalls : (finishAll sampleConfig makerScript 20 soldCalls
      ((Sys.start "seller").state, 0)).any (fun p => decide (adds p.1 < 2 ^ 64) &&
        ((p.1)[0]?).any (fun rec => rec.offer = some offerOrder) &&
        (lineages p.1).sold p.2.1.account (finalised p.1) 0 = 2 &&
        p.2.1.ownOrders.lookup 1 = some remainder && (lineages p.1).order 1 = some 0) = true := by
    decide +kernel
  obtain ⟨⟨recs, s, w⟩, hf, hQ⟩ := (Option.any_eq_true _ _).mp hcalls
  simp only [Bool.and_eq_true, decide_eq_true_eq] at hQ
  obtain ⟨⟨⟨⟨hadds, hoffer⟩, hsold⟩, hlookup⟩, horder⟩ := hQ
  obtain ⟨rec, hrec, ho⟩ := (Option.any_eq_true _ _).mp hoffer
  obtain ⟨x, hr, hrun, hidle, hlog, hy⟩ := (idle_start 0).calls (by simp [soldCalls]) hf
  rw [List.nil_append] at hlog
  obtain ⟨rfl, rfl⟩ := Prod.mk.inj hy
  subst hlog
  refine ⟨x, hr, hsold, hlookup, horder, ?_⟩
  exact (never_oversold hr hrun hidle hadds).1 0 rec offerOrder hrec (of_decide_eq_true ho)

/-- A node for which junk is an asset every other time, and a clock that moves on whenever it is
asked, the first time by more than a trade may take. -/
def junkScript (w : ℕ × Bool) : (c : Call) → Answer c × (ℕ × Bool)
  | .clock => (Int64.ofNat (if w.1 = 0 then 0 else 30 + 10 * w.1), (w.1 + 1, w.2))
  | .rpc (.isAsset asset) =>
      if asset = "gold" then ((.ok true : Except RpcError Bool), w)
      else ((.ok w.2 : Except RpcError Bool), (w.1, !w.2))
  | .rpc (.canSell _ _ _) => ((.ok (some 0) : Except RpcError (Option Uint256)), w)
  | .rpc (.nameShow _) => ((.ok ⟨"name", 0⟩ : Except RpcError OutPoint), w)
  | .rpc (.lockunspent _ _) => ((.ok true : Except RpcError Bool), w)
  | .rpc .getnewaddress => ((.ok "address" : Except RpcError String), w)
  | .rpc _ => (.error .exception, w)

/-- An order that is accepted and then dropped. -/
def junkOrder : Order := { offerOrder with asset := some "junk" }

/-- The message of someone who takes two units of the order with the first id. -/
def takingMessageOf (counterparty : String) : ProcessingMessage where
  counterparty := some counterparty
  identifier := some "seller\n0"
  takingOrder := some { id := 0, units := 2 }

/-- An order is added and taken, and cancelled while the trade is active. -/
def takenCalls : List Op :=
  [.addOrder offerOrder, .processMessage (takingMessageOf "buyer"), .cancelOrder 0]

/-- An order with the same id is added and taken, the first trade is given up, and the order is taken
once more. -/
def takenTwiceCalls : List Op :=
  [.addOrder offerOrder, .processMessage (takingMessageOf "second"), .updateTrades,
    .processMessage (takingMessageOf "third")]

/-- **One id is used up**, and nothing else changes. -/
lemma junk_added (s : State) (n : ℕ) (h : s.ownOrders = ∅) :
    ((Op.addOrder junkOrder).finish sampleConfig junkScript 5 (Op.addOrder junkOrder).tasks
        (s, (n, true))).map Prod.snd
      = some ({ s with nextFreeId := s.nextFreeId + 1 }, (n, true)) := by
  obtain ⟨account, orders, id, trades, archive, created⟩ := s
  dsimp only at h
  subst h
  rfl

/-- And so on. -/
lemma junk_piles_up {log : List Record} {s : State} {n : ℕ} (h : s.ownOrders = ∅)
    (hidle : Idle sampleConfig junkScript "seller" log (s, (n, true))) : ∀ k : ℕ,
    ∃ log', Idle sampleConfig junkScript "seller" log'
      ({ s with nextFreeId := s.nextFreeId + UInt64.ofNat k }, (n, true)) := by
  intro k
  induction k with
  | zero => exact ⟨log, by simpa using hidle⟩
  | succ k ih =>
      obtain ⟨log', hidle⟩ := ih
      obtain ⟨⟨recs, y⟩, hf, hy⟩ := Option.map_eq_some_iff.mp
        (junk_added { s with nextFreeId := s.nextFreeId + UInt64.ofNat k } n h)
      have hcall := hidle.call (by simp) hf
      have hy : y = _ := hy
      rw [hy, UInt64.add_assoc] at hcall
      refine ⟨log' ++ recs, ?_⟩
      rw [UInt64.ofNat_add]
      exact hcall


/-- Trades against the one order that is added are of its lineage. -/
lemma lineages_of_taken {id : UInt64} {n : ℕ} : ∀ {recs log : List Record},
    (lineages log).order id = some n →
    (∀ rec ∈ recs, rec.accepted = none ∧ ∀ t, rec.taken = some t → t.order.getId = id) →
    ∀ i, (lineages log).trade i = some n ∨ (∃ rec ∈ recs, ∃ t, rec.taken = some t ∧ t.serial = i) →
      (lineages (log ++ recs)).trade i = some n := by
  intro recs
  induction recs with
  | nil =>
      intro log _ _ i hi
      rw [List.append_nil]
      rcases hi with hi | ⟨rec, hrec, _⟩
      · exact hi
      · simp at hrec
  | cons rec recs ih =>
      intro log hn hrecs i hi
      obtain ⟨hrefused, htaken⟩ := hrecs rec (by simp)
      have hcons : log ++ rec :: recs = (log ++ [rec]) ++ recs := by simp
      rw [hcons]
      refine ih ?_ (fun rec' hrec' => hrecs rec' (by simp [hrec'])) i ?_
      · rw [lineages_append, Lineages.record, hrefused]
        exact hn
      · rw [lineages_append, Lineages.record]
        cases ht : rec.taken with
        | none =>
            rcases hi with hi | ⟨rec', hrec', t, ht', hi⟩
            · exact Or.inl hi
            · rcases List.mem_cons.mp hrec' with rfl | hrec'
              · rw [ht] at ht'
                simp at ht'
              · exact Or.inr ⟨rec', hrec', t, ht', hi⟩
        | some t =>
            by_cases hserial : i = t.serial
            · left
              dsimp only
              rw [hserial, Function.update_self, htaken t ht, hn]
            · rcases hi with hi | ⟨rec', hrec', t', ht', hi⟩
              · left
                dsimp only
                rwa [Function.update_of_ne hserial]
              · rcases List.mem_cons.mp hrec' with rfl | hrec'
                · rw [ht] at ht'
                  exact absurd hi.symm (Option.some.inj ht' ▸ hserial)
                · exact Or.inr ⟨rec', hrec', t', ht', hi⟩

/-- **After `2 ^ 64` calls of `Add`, two trades against one order are active.** -/
theorem oversold : ∃ (x : Sys × (ℕ × Bool)) (n : ℕ) (rec : Record) (o : Order),
    ((system sampleConfig (Env.ofScript junkScript) "seller").restrict Sequential).Reachable x ∧
    x.1.halted = false ∧ (∀ th ∈ x.1.threads, th.tasks = []) ∧ x.1.log[n]? = some rec ∧
    rec.offer = some o ∧
    x.1.state.trades.countP ((lineages x.1.log).against x.1.state.account n) = 2 ∧
    ¬ x.1.NotOversold n o.maxUnits.toNat := by
  -- before, and after the other orders
  have hcalls : (finishAll sampleConfig junkScript 20 takenCalls
      ((Sys.start "seller").state, (0, true))).any (fun p =>
        p.2.1.ownOrders.entries.isEmpty && p.2.1.nextFreeId = 1 && p.2.2 = (1, true) &&
        (finishAll sampleConfig junkScript 20 takenTwiceCalls
          ({ p.2.1 with nextFreeId := 0 }, p.2.2)).any fun q =>
            (q.1.head?).any (fun rec => rec.offer = some offerOrder && rec.pre.nextFreeId = 0) &&
            q.1.tail.all (fun rec => rec.accepted.isNone &&
              rec.taken.all fun t => t.order.getId = 0) &&
            q.2.1.trades.length = 2 && q.2.1.trades.all fun t =>
              getRole q.2.1.account t = .maker && q.1.tail.any fun rec =>
                rec.taken.any fun t' => t'.serial = t.serial) = true := by
    decide +kernel
  obtain ⟨⟨recs, s, w⟩, hf, hQ⟩ := (Option.any_eq_true _ _).mp hcalls
  simp only [Bool.and_eq_true, decide_eq_true_eq] at hQ
  obtain ⟨⟨⟨hempty, hid⟩, rfl⟩, hQ⟩ := hQ
  obtain ⟨⟨recs', s', w'⟩, hf', hQ⟩ := (Option.any_eq_true _ _).mp hQ
  simp only [Bool.and_eq_true, decide_eq_true_eq] at hQ
  obtain ⟨⟨⟨hhead, htail⟩, hlen⟩, htrades⟩ := hQ
  have hnone : s.ownOrders = ∅ := AList.ext (List.isEmpty_iff.mp hempty)
  have hstart := (idle_start (0, true)).calls (by simp [takenCalls]) hf
  obtain ⟨log, hidle⟩ := junk_piles_up hnone hstart (2 ^ 64 - 1)
  have hwrap : s.nextFreeId + UInt64.ofNat (2 ^ 64 - 1) = 0 := by
    rw [hid]
    decide
  rw [hwrap] at hidle
  obtain ⟨x, hr, hrun, hth, hlog, hy⟩ := hidle.calls (by simp [takenTwiceCalls]) hf'
  obtain ⟨rfl, rfl⟩ := Prod.mk.inj hy
  -- the order that is taken twice is the first one of the last calls
  obtain ⟨rec, hrec, hoffer⟩ := (Option.any_eq_true _ _).mp hhead
  simp only [Bool.and_eq_true, decide_eq_true_eq] at hoffer
  obtain ⟨hoffer, hfree⟩ := hoffer
  obtain ⟨recs', rfl⟩ : ∃ tail, recs' = rec :: tail := List.head?_eq_some_iff.mp hrec
  rw [List.tail_cons] at htail htrades
  have horder : (lineages (log ++ [rec])).order 0 = some log.length := by
    have haccepted : rec.accepted = some offerOrder := by
      rw [Record.offer] at hoffer
      split at hoffer
      · exact hoffer
      · simp at hoffer
    rw [lineages_append, Lineages.record, haccepted, hoffer, hfree]
    rfl
  have hlater : ∀ r ∈ recs', r.accepted = none ∧ ∀ t, r.taken = some t → t.order.getId = 0 := by
    intro r hmem
    have := List.all_eq_true.mp htail r hmem
    simp only [Bool.and_eq_true, Option.isNone_iff_eq_none] at this
    refine ⟨this.1, fun t ht => ?_⟩
    have hall := this.2
    rw [ht] at hall
    simpa using hall
  have hcons : log ++ rec :: recs' = (log ++ [rec]) ++ recs' := by simp
  have hagainst : ∀ t ∈ x.1.state.trades,
      (lineages x.1.log).against x.1.state.account log.length t = true := by
    intro t ht
    have := List.all_eq_true.mp htrades t ht
    simp only [Bool.and_eq_true, decide_eq_true_eq] at this
    obtain ⟨hmaker, hany⟩ := this
    obtain ⟨r, hmem, hany⟩ := List.any_eq_true.mp hany
    obtain ⟨t', ht', hserial⟩ := (Option.any_eq_true _ _).mp hany
    have htrade := lineages_of_taken horder hlater t.serial
      (Or.inr ⟨r, hmem, t', ht', of_decide_eq_true hserial⟩)
    rw [hlog, hcons, Lineages.against, htrade]
    simp [hmaker]
  have htwo : x.1.state.trades.countP ((lineages x.1.log).against x.1.state.account log.length) = 2 :=
    (List.countP_eq_length.mpr hagainst).trans hlen
  refine ⟨x, log.length, rec, offerOrder, hr, hrun, hth, ?_, hoffer, htwo, fun hnot => ?_⟩
  · rw [hlog]
    simp
  · have := hnot.active
    omega

end Democrit
