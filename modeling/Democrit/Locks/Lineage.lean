import Democrit.Locks.Cancel

/-!
# What becomes of an order

When a trade against an own order succeeds, `HandleSuccess` removes the order and adds what is left
of it as a new one, under a new id.  The *lineage* of an order that the user adds is the order
together with all that are re-created from it in this way, and with the trades against them.

In runs in which every call returns before the next one starts, the log tells the lineages apart:
an order that the updater adds is the remainder of the trade it has handled last (`Lineages`).
-/

namespace Democrit

open Interaction

variable {cfg : Config} {account : String} {W : Type} {E : Env Call Answer W}

/-! ## Lineages -/

/-- The order that a section of `Add` has accepted. -/
def Record.accepted (rec : Record) : Option Order :=
  match rec.task, rec.outcome with
  | .add o, .ok eff => if eff.next.isEmpty then none else some o
  | _, _ => none

/-- The order that the user has added with this section. -/
def Record.offer (rec : Record) : Option Order :=
  match rec.op with
  | .addOrder _ => rec.accepted
  | _ => none

/-- The trade against an own order that a section has created. -/
def Record.taken (rec : Record) : Option TradeState :=
  match rec.task with
  | .orderTaken _ _ _ => rec.creation
  | _ => none

/-- The lineages so far.  They are named by the position in the log at which the user has added the
order: for each id the lineage of the order that was given it last, for each trade (by its number)
that of the order it is against, and that of the trade which was handled last. -/
structure Lineages where
  order : UInt64 → Option ℕ := fun _ => none
  trade : ℕ → Option ℕ := fun _ => none
  handling : Option ℕ := none

/-- The lineages after the section at position `n` of the log. -/
def Lineages.record (g : Lineages) (n : ℕ) (rec : Record) : Lineages where
  order :=
    match rec.accepted with
    | none => g.order
    | some _ => Function.update g.order rec.pre.nextFreeId
        (if rec.offer.isSome then some n else g.handling)
  trade :=
    match rec.taken with
    | none => g.trade
    | some t => Function.update g.trade t.serial (g.order t.order.getId)
  handling :=
    match rec.task with
    | .handle t => g.trade t.serial
    | _ => g.handling

/-- The lineages of a whole log. -/
def lineages (log : List Record) : Lineages :=
  log.zipIdx.foldl (fun g p => g.record p.2 p.1) {}

lemma lineages_append (log : List Record) (rec : Record) :
    lineages (log ++ [rec]) = (lineages log).record log.length rec := by
  simp [lineages, List.zipIdx_append]

/-- How many units the user has offered with the section at position `n`. -/
def offered (log : List Record) (n : ℕ) : ℕ :=
  match log[n]? with
  | some rec => (rec.offer.map fun o => o.maxUnits.toNat).getD 0
  | none => 0

/-- The trade was against an own order of the lineage `n`, and succeeded. -/
def Lineages.sale (g : Lineages) (account : String) (n : ℕ) (t : TradeState) : Bool :=
  t.getState = .success && getRole account t = .maker && g.trade t.serial = some n

/-- How many units were traded against the lineage `n`. -/
def Lineages.sold (g : Lineages) (account : String) (ts : List TradeState) (n : ℕ) : ℕ :=
  ((ts.filter (g.sale account n)).map fun t => t.units.toNat).sum

/-! ## One call at a time -/

/-- Every call returns before the next one starts, and none throws.  The calls are those of `Add`,
`RemoveById`, `RunRefresh`, `ProcessMessage` and `UpdateAndArchiveTrades`. -/
def Sequential (x : Sys × W) : Label → Prop
  | .start op => (∀ th ∈ x.1.threads, th.tasks = []) ∧ ∀ o units, op ≠ .takeOrder o units
  | .run rec => rec.threw = false

/-- At most one thread has something to do. -/
def Sys.Alone (σ : Sys) : Prop := (σ.threads.filter fun th => !th.tasks.isEmpty).length ≤ 1

/-- What the others have to do. -/
lemma Sys.Alone.others {σ : Sys} (h : σ.Alone) {before after : List Thread} {op : Op} {task : Task}
    {rest : List Task} (hth : σ.threads = before ++ ⟨op, task :: rest⟩ :: after) :
    ∀ th ∈ before ++ after, th.tasks = [] := by
  rw [Sys.Alone, hth, List.filter_append, List.filter_cons] at h
  simp only [List.isEmpty_cons, Bool.not_false, if_true, List.length_append, List.length_cons] at h
  have hnone : (before ++ after).filter (fun th => !th.tasks.isEmpty) = [] := by
    rw [List.filter_append, List.append_eq_nil_iff]
    exact ⟨List.length_eq_zero_iff.mp (by omega), List.length_eq_zero_iff.mp (by omega)⟩
  intro th hmem
  have := List.filter_eq_nil_iff.mp hnone th hmem
  simpa using this

lemma flatMap_tasks_nil {threads : List Thread} (h : ∀ th ∈ threads, th.tasks = []) :
    threads.flatMap Thread.tasks = [] :=
  List.flatMap_eq_nil_iff.mpr h

lemma recreating_nil {threads : List Thread} (h : ∀ th ∈ threads, th.tasks = []) :
    recreating threads = [] := by
  refine List.flatMap_eq_nil_iff.mpr fun th hth => ?_
  rw [Thread.recreating, h th hth]
  cases th.op <;> rfl

lemma Sys.Alone.step {x : Sys × W} {σ' : Sys} {l : Label} (h : x.1.Alone)
    (hs : Sys.Step cfg x.1 l σ') (hseq : Sequential x l) : σ'.Alone := by
  cases hs with
  | start op _ =>
      have hnone : x.1.threads.filter (fun th => !th.tasks.isEmpty) = [] := by
        refine List.filter_eq_nil_iff.mpr fun th hth => ?_
        simp [hseq.1 th hth]
      show (List.filter _ (x.1.threads ++ [_])).length ≤ 1
      rw [List.filter_append, hnone, List.nil_append]
      exact List.length_filter_le _ _
  | @run before after op task rest tr r s' _ hth _ =>
      have hothers := h.others hth
      have hnone : ∀ l : List Thread, l ⊆ before ++ after →
          l.filter (fun th => !th.tasks.isEmpty) = [] := by
        intro l hl
        refine List.filter_eq_nil_iff.mpr fun th hth => ?_
        simp [hothers th (hl hth)]
      show (List.filter _ (before ++ _ :: after)).length ≤ 1
      rw [List.filter_append, hnone before (List.subset_append_left _ _), List.nil_append,
        List.filter_cons]
      rw [hnone after (List.subset_append_right _ _)]
      split <;> simp

/-- What is left to do, when there is one thread to do it. -/
structure Sys.Orderly (σ : Sys) : Prop where
  /-- A remainder is put back before the next trade is handled. -/
  first : ∃ l₁ l₂, σ.tasks = l₁ ++ l₂ ∧ handles l₁ = [] ∧ additions l₂ = [] ∧
    (additions l₁).length ≤ 1
  /-- An update, or a message, is where a call begins. -/
  start : ∀ x ∈ σ.tasks, (x = .updateTrades ∨ ∃ msg, x = .receive msg) → σ.tasks = [x]
  /-- No trade is handled while one is to be created. -/
  taken : ∀ o taking msg, .orderTaken o taking msg ∈ σ.tasks → handles σ.tasks = []
  /-- We take no orders ourselves. -/
  maker : ∀ o units, .takeOrder o units ∉ σ.tasks

/-- Only the handling of a trade leads to an order being added. -/
lemma additions_of_leads {task : Task} {next : List Task} (h : ∀ y ∈ next, task.leadsTo y = true)
    (hnot : ∀ t, task ≠ .handle t) : additions next = [] := by
  rw [additions, List.filterMap_eq_nil_iff]
  intro y hy
  have hleads := h y hy
  cases y with
  | add o =>
      cases task with
      | handle t => exact absurd rfl (hnot t)
      | _ => simp [Task.leadsTo] at hleads
  | _ => rfl

/-- **Only `HandleSuccess` adds an order**, and only one. -/
lemma additions_of_exec {task : Task} {s s' : State} {tr : Conversation} {eff : Effect}
    (hx : (exec cfg task s).Exec tr (.ok eff, s')) :
    additions eff.next = [] ∨ ∃ t, task = .handle t ∧ getRole s.account t = .maker ∧
      t.getState = .success ∧ keepsReducedOrder t = true ∧ additions eff.next = [reducedOrder t] := by
  by_cases hhandle : ∃ t, task = .handle t
  · obtain ⟨t, rfl⟩ := hhandle
    have hnext := Act.wp_iff.mp (handleFinalised_next s t) tr _ s' hx eff rfl
    split at hnext
    · rename_i hsale
      exact Or.inr ⟨t, rfl, hsale.1, hsale.2.1, hsale.2.2, hnext⟩
    · exact Or.inl hnext
  · exact Or.inl (additions_of_leads (leads_of_exec hx) fun t ht => hhandle ⟨t, ht⟩)

/-- Only an update leads to trades being handled. -/
lemma handles_of_leads {task : Task} {next : List Task} (h : ∀ y ∈ next, task.leadsTo y = true)
    (hnot : task ≠ .updateTrades) : handles next = [] := by
  rw [handles, List.filterMap_eq_nil_iff]
  intro y hy
  have hleads := h y hy
  cases y with
  | handle t =>
      cases task with
      | updateTrades => exact absurd rfl hnot
      | _ => simp [Task.leadsTo] at hleads
  | _ => rfl

section Run

variable {σ : Sys} {before after : List Thread} {op : Op} {task : Task} {rest : List Task}
  {tr : Conversation} {s' : State} {eff : Effect}

/-- The tasks when one thread has any. -/
lemma Sys.Alone.tasks (h : σ.Alone) (hth : σ.threads = before ++ ⟨op, task :: rest⟩ :: after) :
    σ.tasks = task :: rest := by
  have hothers := h.others hth
  rw [Sys.tasks_split hth, flatMap_tasks_nil fun th hmem => hothers th (by simp [hmem]),
    flatMap_tasks_nil fun th hmem => hothers th (by simp [hmem])]
  simp

/-- And after its section. -/
lemma Sys.Alone.tasks_advance (h : σ.Alone)
    (hth : σ.threads = before ++ ⟨op, task :: rest⟩ :: after) :
    (σ.advance before after rest ⟨op, task, σ.state, tr, .ok eff, s'⟩).tasks = eff.next ++ rest := by
  have hothers := h.others hth
  rw [Sys.tasks_advance, flatMap_tasks_nil fun th hmem => hothers th (by simp [hmem]),
    flatMap_tasks_nil fun th hmem => hothers th (by simp [hmem])]
  simp [continuation]

/-- A trade is handled when no remainder is waiting, and no trade is to be created. -/
lemma Sys.Orderly.handle (h : σ.Orderly) {t : TradeState} (htasks : σ.tasks = .handle t :: rest) :
    additions rest = [] ∧ ∀ o taking msg, .orderTaken o taking msg ∉ rest := by
  refine ⟨?_, fun o taking msg hmem => ?_⟩
  · obtain ⟨l₁, l₂, heq, hhandles, hadds, _⟩ := h.first
    rw [htasks] at heq
    cases l₁ with
    | nil =>
        rw [List.nil_append] at heq
        rw [← heq] at hadds
        exact hadds
    | cons y l₁ =>
        obtain ⟨rfl, _⟩ := List.cons.inj heq
        simp [handles] at hhandles
  · have := h.taken o taking msg (by simp [htasks, hmem])
    simp [htasks, handles] at this

/-- After an order is added, no other one is to be. -/
lemma Sys.Orderly.add (h : σ.Orderly) {o : Order} (htasks : σ.tasks = .add o :: rest) :
    additions rest = [] := by
  obtain ⟨l₁, l₂, heq, _, hadds, hlen⟩ := h.first
  rw [htasks] at heq
  cases l₁ with
  | nil =>
      rw [List.nil_append] at heq
      rw [← heq] at hadds
      simp [additions] at hadds
  | cons y l₁ =>
      rw [List.cons_append] at heq
      obtain ⟨rfl, rfl⟩ := List.cons.inj heq
      have hcons : additions (.add o :: l₁) = o :: additions l₁ := rfl
      rw [hcons, List.length_cons] at hlen
      have hnil : additions l₁ = [] := List.length_eq_zero_iff.mp (by omega)
      rw [additions_append, hnil, hadds]
      rfl

/-- A task that a call begins with is all there is to do. -/
lemma Sys.Orderly.alone (h : σ.Orderly) (htasks : σ.tasks = task :: rest)
    (hinit : task = .updateTrades ∨ ∃ msg, task = .receive msg) : rest = [] := by
  have := h.start task (by simp [htasks]) hinit
  rw [htasks] at this
  simpa using this

/-- What is to be done after a section is divided as before. -/
lemma Sys.Orderly.first_advance (h : σ.Orderly) (htasks : σ.tasks = task :: rest)
    (hleads : ∀ y ∈ eff.next, task.leadsTo y = true) (hone : (additions eff.next).length ≤ 1) :
    ∃ l₁ l₂, eff.next ++ rest = l₁ ++ l₂ ∧ handles l₁ = [] ∧ additions l₂ = [] ∧
      (additions l₁).length ≤ 1 := by
  by_cases hup : task = .updateTrades
  · refine ⟨[], eff.next, ?_, rfl, ?_, Nat.zero_le _⟩
    · rw [h.alone htasks (Or.inl hup), List.append_nil, List.nil_append]
    · exact additions_of_leads hleads (by simp [hup])
  have hhandles := handles_of_leads hleads hup
  obtain ⟨l₁, l₂, heq, hnone, hadds, hlen⟩ := h.first
  rw [htasks] at heq
  cases l₁ with
  | nil =>
      rw [List.nil_append] at heq
      have hsplit : additions l₂ = additions [task] ++ additions rest := by
        rw [← heq, ← additions_append]
        rfl
      rw [hadds] at hsplit
      exact ⟨eff.next, rest, rfl, hhandles, (List.append_eq_nil_iff.mp hsplit.symm).2, hone⟩
  | cons y l₁ =>
      rw [List.cons_append] at heq
      obtain ⟨rfl, rfl⟩ := List.cons.inj heq
      have hnext : additions eff.next = [] := by
        refine additions_of_leads hleads fun t ht => ?_
        simp [ht, handles] at hnone
      have hsplit : additions (task :: l₁) = additions [task] ++ additions l₁ :=
        additions_append [task] l₁
      have hsplit' : handles (task :: l₁) = handles [task] ++ handles l₁ :=
        handles_append [task] l₁
      rw [hsplit'] at hnone
      refine ⟨eff.next ++ l₁, l₂, (List.append_assoc _ _ _).symm, ?_, hadds, ?_⟩
      · rw [handles_append, hhandles, (List.append_eq_nil_iff.mp hnone).2]
        rfl
      · rw [additions_append, hnext, List.nil_append]
        rw [hsplit, List.length_append] at hlen
        omega

/-- **One section** keeps what is to be done in order. -/
lemma Sys.Orderly.advance {σ' : Sys} (h : σ.Orderly) (htasks : σ.tasks = task :: rest)
    (htasks' : σ'.tasks = eff.next ++ rest) (hleads : ∀ y ∈ eff.next, task.leadsTo y = true)
    (hone : (additions eff.next).length ≤ 1) : σ'.Orderly := by
  have hstart : ∀ y ∈ eff.next, ¬ (y = .updateTrades ∨ ∃ msg, y = .receive msg) := by
    rintro y hy (rfl | ⟨msg, rfl⟩)
    · have := hleads _ hy
      cases task <;> simp [Task.leadsTo] at this
    · have := hleads _ hy
      cases task <;> simp [Task.leadsTo] at this
  -- where a call begins is not where it goes on
  have hrest : ∀ y ∈ rest, ¬ (y = .updateTrades ∨ ∃ msg, y = .receive msg) := by
    intro y hy hinit
    have := h.start y (by simp [htasks, hy]) hinit
    rw [htasks] at this
    simp at this
    simp [this.2] at hy
  refine ⟨?_, ?_, ?_, ?_⟩
  · rw [htasks']
    exact h.first_advance htasks hleads hone
  · intro y hy hinit
    rw [htasks'] at hy
    rcases List.mem_append.mp hy with hy | hy
    · exact absurd hinit (hstart y hy)
    · exact absurd hinit (hrest y hy)
  · intro o taking msg hmem
    rw [htasks'] at hmem ⊢
    rcases List.mem_append.mp hmem with hmem | hmem
    · have := hleads _ hmem
      cases task with
      | receive m =>
          rw [h.alone htasks (Or.inr ⟨m, rfl⟩), List.append_nil]
          exact handles_of_leads hleads (by simp)
      | _ => simp [Task.leadsTo] at this
    · have hold := h.taken o taking msg (by simp [htasks, hmem])
      rw [htasks] at hold
      have htask : task ≠ .updateTrades := by
        intro heq
        rw [h.alone htasks (Or.inl heq)] at hmem
        simp at hmem
      rw [handles_append, handles_of_leads hleads htask]
      cases task with
      | handle t => simp [handles] at hold
      | _ => exact hold
  · intro o units hmem
    rw [htasks'] at hmem
    rcases List.mem_append.mp hmem with hmem | hmem
    · have := hleads _ hmem
      cases task <;> simp [Task.leadsTo] at this
    · exact h.maker o units (by simp [htasks, hmem])

end Run

/-! ## What a section does to the orders of a lineage -/

/-- `Add` refuses the order, or stores it under a new id after `ValidateOrder` has accepted it. -/
lemma add_of_exec {o : Order} {s s' : State} {tr : Conversation} {eff : Effect}
    (hx : (exec cfg (.add o) s).Exec tr (.ok eff, s')) :
    eff = {} ∧ s' = s ∨
      eff = { next := refreshTasks } ∧ orderWellFormed o = true ∧
        s' = { s with
          ownOrders := s.ownOrders.insert s.nextFreeId { o with account := none, id := none }
          nextFreeId := s.nextFreeId + 1 } := by
  have hvalid : (validateOrder s.account o).wp () fun _ r _ =>
      r = .ok true → orderWellFormed o = true := by
    rw [validateOrder]
    split
    · simp
    · rename_i hwell
      exact Act.wp_iff.mpr fun _ _ _ _ _ => by simpa using hwell
  have hspec : (exec cfg (.add o)).wp s fun _ r s' => ∀ eff, r = .ok eff →
      eff = {} ∧ s' = s ∨ eff = { next := refreshTasks } ∧ orderWellFormed o = true ∧
        s' = { s with
          ownOrders := s.ownOrders.insert s.nextFreeId { o with account := none, id := none }
          nextFreeId := s.nextFreeId + 1 } := by
    simp only [exec, addOwnOrder, Act.wp_bind, Act.wp_read, Act.afterBind_ok, Act.wp_monadLift]
    refine Act.wp_mono hvalid fun tr r _ hwell => ?_
    cases r with
    | error e => simp
    | ok valid =>
        cases valid with
        | false =>
            rintro _ ⟨⟩
            exact Or.inl ⟨rfl, rfl⟩
        | true =>
            rintro _ ⟨⟩
            exact Or.inr ⟨rfl, hwell rfl, rfl⟩
  exact Act.wp_iff.mp hspec tr _ s' hx eff rfl

/-- The trade is active, or its handler is still to be run. -/
def Sys.Open (σ : Sys) (t : TradeState) : Prop := t ∈ σ.state.trades ∨ t ∈ handles σ.tasks

/-- Where the units of the own order `id` are on record: with the order, with a message that takes it,
and with a trade against it. -/
inductive Sys.Carries (σ : Sys) : UInt64 → UInt64 → Prop
  | stored {id o} (h : σ.state.ownOrders.lookup id = some o) : Carries σ id o.maxUnits
  | taken {o taking msg} (h : .orderTaken o taking msg ∈ σ.tasks) : Carries σ taking.id o.maxUnits
  | trade {t} (h : σ.Open t) (hmaker : getRole σ.state.account t = .maker) :
      Carries σ t.order.getId t.order.maxUnits

/-- A trade against an own order is created from the message that takes it. -/
lemma Record.of_taken {rec : Record} {t : TradeState} (h : rec.taken = some t) :
    ∃ o taking msg now, rec.task = .orderTaken o taking msg ∧
      t = newTrade o taking.units.toInt64 (msg.counterparty.getD "") now (rec.pre.created + 1) := by
  obtain ⟨op, task, s, tr, r, s'⟩ := rec
  cases task with
  | orderTaken o taking msg =>
      cases r with
      | error e => simp [Record.taken, Record.creation] at h
      | ok eff =>
          simp only [Record.taken, Record.creation] at h
          split at h
          · exact ⟨o, taking, msg, _, rfl, (Option.some.inj h).symm⟩
          · simp at h
  | _ => simp [Record.taken] at h

/-- Other ids keep their lineage. -/
lemma Lineages.record_order (g : Lineages) {n : ℕ} {rec : Record} {id : UInt64}
    (h : id ≠ rec.pre.nextFreeId) : (g.record n rec).order id = g.order id := by
  rw [Lineages.record]
  cases rec.accepted with
  | none => rfl
  | some o => exact Function.update_of_ne h _ _

/-- Older trades keep their lineage. -/
lemma Lineages.record_trade (g : Lineages) {n : ℕ} {rec : Record} {i : ℕ}
    (h : i ≤ rec.pre.created) : (g.record n rec).trade i = g.trade i := by
  rw [Lineages.record]
  cases htaken : rec.taken with
  | none => rfl
  | some t =>
      obtain ⟨_, _, _, _, _, rfl⟩ := Record.of_taken htaken
      exact Function.update_of_ne (Nat.ne_of_lt (Nat.lt_succ_of_le h)) _ _

/-- One section that returned, of the only thread that has something to do. -/
structure Turn (cfg : Config) (σ : Sys) (rec : Record) (eff : Effect) (rest : List Task) (σ' : Sys) :
    Prop where
  ok : rec.outcome = .ok eff
  exec : (exec cfg rec.task σ.state).Exec rec.talk (.ok eff, rec.post)
  pre : rec.pre = σ.state
  post : σ'.state = rec.post
  log : σ'.log = σ.log ++ [rec]
  tasks : σ.tasks = rec.task :: rest
  tasks' : σ'.tasks = eff.next ++ rest
  recreating_eq : recreating σ.threads = Thread.recreating ⟨rec.op, rec.task :: rest⟩
  recreating_eq' : recreating σ'.threads = Thread.recreating ⟨rec.op, eff.next ++ rest⟩
  matched : rec.task.matched

/-- A section after which such a run goes on has returned. -/
lemma ok_of_sequential {σ : Sys} {before after : List Thread} {op : Op} {task : Task}
    {rest : List Task} {tr : Conversation} {r : Except Fail Effect} {s' : State} {x : Sys × W}
    (hseq : Sequential x (.run ⟨op, task, σ.state, tr, r, s'⟩))
    (hrun : (σ.advance before after rest ⟨op, task, σ.state, tr, r, s'⟩).halted = false) :
    ∃ eff, r = .ok eff := by
  cases r with
  | ok eff => exact ⟨eff, rfl⟩
  | error e =>
      cases e with
      | exception => simp [Sequential, Record.threw] at hseq
      | check c => simp [Sys.advance, halts] at hrun

lemma turn_of_step {x : Sys × W} {σ' : Sys} {rec : Record} (hs : Sys.Step cfg x.1 (.run rec) σ')
    (hseq : Sequential x (.run rec)) (halone : x.1.Alone) (hmatched : ∀ y ∈ x.1.tasks, y.matched)
    (hrun : σ'.halted = false) : ∃ eff rest, Turn cfg x.1 rec eff rest σ' := by
  cases hs with
  | @run before after op task rest tr r s' _ hth hx =>
      obtain ⟨eff, rfl⟩ := ok_of_sequential hseq hrun
      have hothers := halone.others hth
      have hnone : ∀ l ⊆ before ++ after, recreating l = [] := fun l hl =>
        recreating_nil fun th hmem => hothers th (hl hmem)
      have hsplit : ∀ th, recreating (before ++ th :: after) = th.recreating := by
        intro th
        have hcons : recreating (before ++ th :: after)
            = recreating before ++ (th.recreating ++ recreating after) := by
          simp [recreating]
        rw [hcons, hnone before (List.subset_append_left _ _),
          hnone after (List.subset_append_right _ _), List.nil_append, List.append_nil]
      have htasks := halone.tasks hth
      exact ⟨eff, rest, rfl, hx, rfl, rfl, rfl, htasks, halone.tasks_advance hth,
        by rw [hth]; exact hsplit _, hsplit _, hmatched task (by simp [htasks])⟩

namespace Turn

variable {σ σ' : Sys} {rec : Record} {eff : Effect} {rest : List Task}

lemma leads (h : Turn cfg σ rec eff rest σ') : ∀ y ∈ eff.next, rec.task.leadsTo y = true :=
  leads_of_exec h.exec

lemma tokens (h : Turn cfg σ rec eff rest σ') :
    Tokens σ.state rec.task rec.talk eff rec.post :=
  Act.wp_iff.mp (exec_orders σ.state h.matched) rec.talk _ rec.post h.exec

lemma account_eq (h : Turn cfg σ rec eff rest σ') : σ'.state.account = σ.state.account := by
  rw [h.post]
  exact (section_of_exec h.exec).account_eq

lemma books (h : Turn cfg σ rec eff rest σ') : Books cfg rec := by
  have hbooks := books_of_exec rec.op h.exec fun _ => ⟨eff, rfl⟩
  rw [← h.pre, ← h.ok] at hbooks
  exact hbooks

lemma lineages_eq (h : Turn cfg σ rec eff rest σ') :
    lineages σ'.log = (lineages σ.log).record σ.log.length rec := by
  rw [h.log, lineages_append]

lemma handled_eq (h : Turn cfg σ rec eff rest σ') :
    handled σ'.log = handled σ.log ++ handles [rec.task] := by
  rw [h.log, handled, List.map_append, handles_append]
  rfl

/-- An open trade was open before, or has just been created. -/
lemma opened (h : Turn cfg σ rec eff rest σ') {t' : TradeState} (hopen : σ'.Open t') :
    (∃ t, σ.Open t ∧ Frame t t') ∨ ∃ t₀, rec.creation = some t₀ ∧ Frame t₀ t' := by
  have hold : t' ∈ handles rest → (∃ t, σ.Open t ∧ Frame t t') := by
    intro ht
    refine ⟨t', Or.inr ?_, .refl t'⟩
    have hcons : handles σ.tasks = handles [rec.task] ++ handles rest := by
      rw [h.tasks, ← handles_append]
      rfl
    rw [hcons]
    exact List.mem_append_right _ ht
  have hactive : ∀ t ∈ rec.pre.trades, Frame t t' → (∃ t, σ.Open t ∧ Frame t t') := by
    intro t ht hf
    rw [h.pre] at ht
    exact ⟨t, Or.inl ht, hf⟩
  -- the trades that the section has finalised
  have hnext : t' ∈ handles eff.next → t' ∈ rec.finalised := by
    intro ht
    by_cases hup : rec.task = .updateTrades
    · rw [Record.finalised, hup, h.ok]
      exact ht
    · rw [handles_of_leads h.leads hup] at ht
      simp at ht
  rw [Sys.Open, h.post, h.tasks', handles_append, List.mem_append] at hopen
  cases h.books with
  | same _ hfinal htrades _ _ =>
      left
      rcases hopen with ht | ht | ht
      · obtain ⟨t, ht, hf⟩ := origin_of_forall₂ htrades t' ht
        exact hactive t ht hf
      · have := hnext ht
        rw [hfinal] at this
        simp at this
      · exact hold ht
  | @creates t₀ t hcreation hfinal _ hframe htrades _ _ =>
      rcases hopen with ht | ht | ht
      · rw [htrades] at ht
        rcases List.mem_append.mp ht with ht | ht
        · exact Or.inl (hactive t' ht (.refl t'))
        · rw [List.mem_singleton.mp ht]
          exact Or.inr ⟨t₀, hcreation, hframe⟩
      · have := hnext ht
        rw [hfinal] at this
        simp at this
      · exact Or.inl (hold ht)
  | updates _ hexact _ =>
      left
      obtain ⟨us, hpre, hu, hpost, hfinal, _⟩ := hexact
      have hmem : t' ∈ us.map Prod.snd → (∃ t, σ.Open t ∧ Frame t t') := by
        intro ht
        obtain ⟨t, ht, hf⟩ := origin_of_forall₂ (frames_of_updates hu) t' ht
        exact hactive t (by rwa [hpre]) hf
      rcases hopen with ht | ht | ht
      · rw [hpost] at ht
        exact hmem (List.mem_filter.mp ht).1
      · have := hnext ht
        rw [hfinal] at this
        exact hmem (List.mem_filter.mp this).1
      · exact hold ht

/-- A trade that was created is one against an own order. -/
lemma taken_of_creation (h : Turn cfg σ rec eff rest σ') (horderly : σ.Orderly) {t : TradeState}
    (hcreation : rec.creation = some t) : rec.taken = some t := by
  have htask : rec.task ∈ σ.tasks := by simp [h.tasks]
  rw [Record.taken]
  cases heq : rec.task with
  | orderTaken o taking msg => exact hcreation
  | takeOrder o units =>
      rw [heq] at htask
      exact absurd htask (horderly.maker o units)
  | _ => simp [Record.creation, heq] at hcreation

/-- **The units on record** were so before, or come with an order that is added. -/
lemma carried (h : Turn cfg σ rec eff rest σ') (horderly : σ.Orderly) {id m : UInt64}
    (hcarries : σ'.Carries id m) :
    σ.Carries id m ∨ ∃ o, rec.accepted = some o ∧ id = σ.state.nextFreeId ∧ m = o.maxUnits := by
  cases hcarries with
  | @stored _ o' ho' =>
      rw [h.post] at ho'
      rcases h.tokens.stored ho' with ⟨o, ho, hmax, _⟩ | ⟨o, htask, hfree, rfl⟩
      · rw [← hmax]
        exact Or.inl (.stored ho)
      · have hx := h.exec
        rw [htask] at hx
        rcases add_of_exec hx with ⟨_, hsame⟩ | ⟨heff, _, _⟩
        · rw [hsame] at ho'
          exact Or.inl (.stored ho')
        · refine Or.inr ⟨o, ?_, hfree.symm, rfl⟩
          simp [Record.accepted, htask, h.ok, heff, refreshTasks]
  | @taken o taking msg hmem =>
      left
      rw [h.tasks'] at hmem
      rcases List.mem_append.mp hmem with hmem | hmem
      · obtain ⟨o₀, ho₀, hmax, _⟩ := h.tokens.taken hmem
        rw [← hmax]
        exact .stored ho₀
      · exact .taken (by rw [h.tasks]; exact List.mem_cons_of_mem _ hmem)
  | @trade t' hopen hmaker =>
      left
      rw [h.account_eq] at hmaker
      rcases h.opened hopen with ⟨t, hopen, hf⟩ | ⟨t₀, hcreation, hf⟩
      · rw [hf.order]
        rw [hf.getRole] at hmaker
        exact .trade hopen hmaker
      · obtain ⟨o, taking, msg, now, htask, rfl⟩ :=
          Record.of_taken (h.taken_of_creation horderly hcreation)
        have hmatched := h.matched
        rw [htask] at hmatched
        have hid : o.getId = taking.id := hmatched
        rw [hf.order]
        show σ.Carries o.getId o.maxUnits
        rw [hid]
        exact .taken (by rw [h.tasks, htask]; exact List.mem_cons_self)

end Turn

/-! ## Scripted calls -/

section Scripted

variable (cfg) (h : W → (c : Call) → Answer c × W)

/-- The rest of a call, section after section, with the outside answering as scripted: the log of
it, and what it leaves, if no section fails and `fuel` sections are enough. -/
def Op.finish (op : Op) : ℕ → List Task → State × W → Option (List Record × (State × W))
  | _, [], y => some ([], y)
  | 0, _ :: _, _ => none
  | fuel + 1, task :: rest, y =>
      let out := (exec cfg task y.1).play h y.2
      match out.1.1 with
      | .error _ => none
      | .ok eff => (op.finish fuel (eff.next ++ rest) (out.1.2, out.2.2)).map fun p =>
          (⟨op, task, y.1, out.2.1, .ok eff, out.1.2⟩ :: p.1, p.2)

/-- One call after the other. -/
def finishAll (fuel : ℕ) : List Op → State × W → Option (List Record × (State × W))
  | [], y => some ([], y)
  | op :: ops, y => (op.finish cfg h fuel op.tasks y).bind fun p =>
      (finishAll fuel ops p.2).map fun q => (p.1 ++ q.1, q.2)

/-- A run of one call at a time leads to this log, state and world, with no call in progress. -/
def Idle (account : String) (log : List Record) (y : State × W) : Prop :=
  ∃ x : Sys × W, ((system cfg (Env.ofScript h) account).restrict Sequential).Reachable x ∧
    x.1.halted = false ∧ (∀ th ∈ x.1.threads, th.tasks = []) ∧ x.1.log = log ∧ (x.1.state, x.2) = y

variable {cfg h}

lemma idle_start (w : W) : Idle cfg h account [] ((Sys.start account).state, w) :=
  ⟨(Sys.start account, w), .init rfl, rfl, by simp [Sys.start], rfl, rfl⟩

/-- A call in progress is brought to its end. -/
lemma idle_of_finish {op : Op} {before : List Thread} (hbefore : ∀ th ∈ before, th.tasks = []) :
    ∀ {fuel : ℕ} {tasks : List Task} {x : Sys × W} {recs : List Record} {y : State × W},
      ((system cfg (Env.ofScript h) account).restrict Sequential).Reachable x →
      x.1.halted = false → x.1.threads = before ++ [⟨op, tasks⟩] →
      op.finish cfg h fuel tasks (x.1.state, x.2) = some (recs, y) →
      Idle cfg h account (x.1.log ++ recs) y := by
  -- with nothing left to do, the call has ended
  have ended : ∀ {fuel : ℕ} {x : Sys × W} {recs : List Record} {y : State × W},
      ((system cfg (Env.ofScript h) account).restrict Sequential).Reachable x →
      x.1.halted = false → x.1.threads = before ++ [⟨op, []⟩] →
      op.finish cfg h fuel [] (x.1.state, x.2) = some (recs, y) →
      Idle cfg h account (x.1.log ++ recs) y := by
    intro fuel x recs y hr hrun hth hf
    rw [Op.finish] at hf
    obtain ⟨rfl, rfl⟩ := Prod.mk.inj (Option.some.inj hf)
    refine ⟨x, hr, hrun, fun th hmem => ?_, (List.append_nil _).symm, rfl⟩
    rw [hth, List.mem_append, List.mem_singleton] at hmem
    rcases hmem with hmem | rfl
    · exact hbefore th hmem
    · rfl
  intro fuel
  induction fuel with
  | zero =>
      intro tasks x recs y hr hrun hth hf
      cases tasks with
      | nil => exact ended hr hrun hth hf
      | cons task rest => simp [Op.finish] at hf
  | succ fuel ih =>
      intro tasks x recs y hr hrun hth hf
      cases tasks with
      | nil => exact ended hr hrun hth hf
      | cons task rest =>
          have hx := Prog.exec_play h (exec cfg task x.1.state) x.2
          have hp := Prog.path_play h (exec cfg task x.1.state) x.2
          simp only [Op.finish] at hf
          generalize (exec cfg task x.1.state).play h x.2 = out at hx hp hf
          obtain ⟨⟨r, s'⟩, tr, w'⟩ := out
          cases r with
          | error e => simp at hf
          | ok eff =>
              obtain ⟨⟨recs', y'⟩, hf', heq⟩ := Option.map_eq_some_iff.mp hf
              obtain ⟨rfl, rfl⟩ := Prod.mk.inj heq
              have hnext : ((system cfg (Env.ofScript h) account).restrict Sequential).Reachable
                  (x.1.advance before [] rest ⟨op, task, x.1.state, tr, .ok eff, s'⟩, w') :=
                hr.step ⟨⟨.run hrun hth hx, hp⟩, rfl⟩
              have hidle := ih hnext rfl rfl hf'
              rw [Sys.advance, List.append_assoc] at hidle
              exact hidle

/-- **A whole call.** -/
lemma Idle.call {log recs : List Record} {y y' : State × W} {op : Op} {fuel : ℕ}
    (hidle : Idle cfg h account log y) (hop : ∀ o units, op ≠ .takeOrder o units)
    (hf : op.finish cfg h fuel op.tasks y = some (recs, y')) :
    Idle cfg h account (log ++ recs) y' := by
  obtain ⟨x, hr, hrun, hth, rfl, rfl⟩ := hidle
  have hnext : ((system cfg (Env.ofScript h) account).restrict Sequential).Reachable
      ({ x.1 with threads := x.1.threads ++ [⟨op, op.tasks⟩] }, x.2) :=
    hr.step ⟨⟨.start op hrun, rfl⟩, hth, hop⟩
  have hend := idle_of_finish hth hnext hrun rfl hf
  exact hend

/-- **Calls one after the other.** -/
lemma Idle.calls {fuel : ℕ} : ∀ {ops : List Op} {log recs : List Record} {y y' : State × W},
    Idle cfg h account log y → (∀ op ∈ ops, ∀ o units, op ≠ .takeOrder o units) →
    finishAll cfg h fuel ops y = some (recs, y') → Idle cfg h account (log ++ recs) y' := by
  intro ops
  induction ops with
  | nil =>
      intro log recs y y' hidle _ hf
      obtain ⟨rfl, rfl⟩ := Prod.mk.inj (Option.some.inj hf)
      rwa [List.append_nil]
  | cons op ops ih =>
      intro log recs y y' hidle hops hf
      obtain ⟨⟨recs₁, y₁⟩, hf₁, hf⟩ := Option.bind_eq_some_iff.mp hf
      obtain ⟨⟨recs₂, y₂⟩, hf₂, heq⟩ := Option.map_eq_some_iff.mp hf
      obtain ⟨rfl, rfl⟩ := Prod.mk.inj heq
      rw [← List.append_assoc]
      exact ih (hidle.call (hops op (by simp)) hf₁) (fun op' hop' => hops op' (by simp [hop'])) hf₂

end Scripted

end Democrit
