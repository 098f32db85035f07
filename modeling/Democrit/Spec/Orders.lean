import Democrit.Spec.Aborts

/-!
# What a critical section does to the own orders

An own order that a counterparty takes is locked, and stays so until the trade that comes out of it
is done with.  Between the two, the right to unlock it is in exactly one place: with the thread
that has locked it, with the trade that it created, or with the thread that settles that trade.
`Task.holds` and `Trade.holds` name these places, and `Tokens` lists what a section can do to
them and to the orders: hand a right over, obtain one by locking an order, or give one up by
unlocking or removing the order.
-/

namespace Democrit

open Interaction

variable {cfg : Config}

/-! ## Validation -/

/-- `ValidateOrder` was asked about each order in turn, and answered as listed. -/
inductive Validates (account : String) :
    List ((_ : UInt64) × Order) → Conversation → List Bool → Prop
  | nil : Validates account [] [] []
  | cons {id o rest tr tr' b bs} (hx : (validateOrder account o ()).Exec tr (.ok b, ()))
      (h : Validates account rest tr' bs) :
      Validates account (⟨id, o⟩ :: rest) (tr ++ tr') (b :: bs)

/-- What `RunRefresh` keeps. -/
def accept : List ((_ : UInt64) × Order) → List Bool → OrderMap → OrderMap
  | ⟨id, o⟩ :: rest, true :: bs, m => accept rest bs (m.insert id o)
  | _ :: rest, false :: bs, m => accept rest bs m
  | _, _, m => m

/-- The call of this exchange did not return. -/
def Ev.threw : Ev → Bool
  | ⟨.clock, _⟩ => false
  | ⟨.rpc m, a⟩ =>
      match (a : Except RpcError m.Reply) with
      | .ok _ => false
      | .error _ => true

/-- A conversation in which some call failed. -/
def Fails (tr : Conversation) : Prop := ∃ ev ∈ tr, ev.threw = true

lemma validateOrder_fails (account : String) (o : Order) {u : Unit} :
    (validateOrder account o).wp u fun tr r _ => (∃ e, r = .error e) ↔ Fails tr := by
  simp only [validateOrder]
  split
  · simp [Fails]
  · simp only [Act.wp_bind, wp_rpc, Act.afterBind_ok, Act.afterBind_error]
    refine ⟨fun valid => ?_, by simp [Fails, Ev.threw], by simp [Fails, Ev.threw]⟩
    cases valid with
    | false => simp [Fails, Ev.threw]
    | true =>
        simp only [Bool.not_true, Bool.false_eq_true, if_false]
        cases o.getType with
        | bid =>
            simp only [Act.wp_bind, wp_rpc, Act.afterBind_ok, Act.afterBind_error]
            refine ⟨fun b => ?_, by simp [Fails, Ev.threw], by simp [Fails, Ev.threw]⟩
            cases b <;> simp [Fails, Ev.threw]
        | ask =>
            simp only [Act.wp_bind, wp_rpc, Act.afterBind_ok, Act.afterBind_error]
            refine ⟨fun b => ?_, by simp [Fails, Ev.threw], by simp [Fails, Ev.threw]⟩
            cases b <;> simp [Fails, Ev.threw]

lemma Validates.not_fails {account : String} {entries : List ((_ : UInt64) × Order)}
    {tr : Conversation} {bs : List Bool} (h : Validates account entries tr bs) : ¬ Fails tr := by
  induction h with
  | nil => simp [Fails]
  | cons hx _ ih =>
      rintro ⟨ev, hm, hev⟩
      rcases List.mem_append.mp hm with hm | hm
      · obtain ⟨e', he'⟩ := (Act.wp_iff.mp (validateOrder_fails _ _) _ _ _ hx).mpr ⟨ev, hm, hev⟩
        simp at he'
      · exact ih ⟨ev, hm, hev⟩

/-- The answers can be read off the conversation. -/
lemma Validates.unique {account : String} {entries : List ((_ : UInt64) × Order)}
    {tr : Conversation} {bs : List Bool} (h : Validates account entries tr bs) :
    ∀ {bs' : List Bool}, Validates account entries tr bs' → bs = bs' := by
  induction h with
  | nil =>
      intro bs' h'
      cases h'
      rfl
  | @cons id o rest tr₁ tr₂ b bs hx h ih =>
      intro bs' h'
      generalize htr : tr₁ ++ tr₂ = tr at h'
      cases h' with
      | @cons _ _ _ tr₁' tr₂' b' bs' hx' h' =>
          obtain ⟨heq, hr, hrest⟩ := Prog.exec_unique hx hx' htr
          subst hrest
          rw [ih h']
          have : b = b' := Except.ok.inj (congrArg Prod.fst hr)
          rw [this]

/-! ## What `RunRefresh` keeps -/

lemma lookup_accept_of_notMem {id : UInt64} :
    ∀ {entries : List ((_ : UInt64) × Order)} {bs : List Bool} {m : OrderMap},
      (∀ e ∈ entries, e.1 ≠ id) → (accept entries bs m).lookup id = m.lookup id
  | [], _, _, _ => by simp [accept]
  | ⟨i, o⟩ :: rest, [], m, _ => by simp [accept]
  | ⟨i, o⟩ :: rest, b :: bs, m, h => by
      have hi : id ≠ i := (h ⟨i, o⟩ (by simp)).symm
      have hrest : ∀ e ∈ rest, e.1 ≠ id := fun e he => h e (by simp [he])
      cases b with
      | false =>
          rw [accept]
          exact lookup_accept_of_notMem hrest
      | true =>
          rw [accept, lookup_accept_of_notMem hrest]
          exact AList.lookup_insert_ne hi

/-- Nothing is kept that was not there. -/
lemma accept_sub {id : UInt64} {o : Order} :
    ∀ {entries : List ((_ : UInt64) × Order)} {bs : List Bool} {m : OrderMap},
      (accept entries bs m).lookup id = some o → m.lookup id = some o ∨ ⟨id, o⟩ ∈ entries
  | [], _, _, h => Or.inl (by simpa [accept] using h)
  | ⟨i, o'⟩ :: rest, [], m, h => Or.inl (by simpa [accept] using h)
  | ⟨i, o'⟩ :: rest, b :: bs, m, h => by
      cases b with
      | false =>
          rw [accept] at h
          exact (accept_sub h).imp_right (List.mem_cons_of_mem _)
      | true =>
          rw [accept] at h
          rcases accept_sub h with h | h
          · by_cases hi : id = i
            · subst hi
              rw [AList.lookup_insert] at h
              obtain rfl := Option.some.inj h
              exact Or.inr List.mem_cons_self
            · rw [AList.lookup_insert_ne hi] at h
              exact Or.inl h
          · exact Or.inr (List.mem_cons_of_mem _ h)

/-- An order is kept if all orders like it were accepted. -/
lemma accept_keep {id : UInt64} {o : Order} {P : Order → Prop} (ho : P o) :
    ∀ {entries : List ((_ : UInt64) × Order)} {bs : List Bool} {m : OrderMap},
      List.Forall₂ (fun e b => P e.2 → b = true) entries bs → entries.NodupKeys →
      ⟨id, o⟩ ∈ entries → (accept entries bs m).lookup id = some o
  | [], _, _, _, _, h => by simp at h
  | ⟨i, o'⟩ :: rest, b :: bs, m, .cons hb hall, hnodup, hmem => by
      obtain ⟨hkey, hnodup⟩ := List.nodupKeys_cons.mp hnodup
      rcases List.mem_cons.mp hmem with heq | hmem
      · cases heq
        obtain rfl := hb ho
        have hrest : ∀ e ∈ rest, e.1 ≠ id := by
          intro e he heq
          have : e.1 ∈ rest.keys := List.mem_map_of_mem he
          rw [heq] at this
          exact hkey this
        rw [accept, lookup_accept_of_notMem hrest]
        exact AList.lookup_insert _
      · cases b with
        | false =>
            rw [accept]
            exact accept_keep ho hall hnodup hmem
        | true =>
            rw [accept]
            exact accept_keep ho hall hnodup hmem

lemma refreshLoop_spec (s₀ : State) :
    ∀ (entries : List ((_ : UInt64) × Order)) (updated : OrderMap) (orders : OrderMap),
      (refreshLoop entries updated).wp { s₀ with ownOrders := orders } fun tr r s' =>
        (∃ orders', s' = { s₀ with ownOrders := orders' }) ∧
        ((∃ e, r = .error e) → Fails tr) ∧
        ∀ updated', r = .ok updated' → ∃ bs, Validates s₀.account entries tr bs ∧
          updated' = accept entries bs updated
  | [], updated, orders => by
      refine ⟨⟨orders, rfl⟩, by simp, ?_⟩
      rintro _ ⟨⟩
      exact ⟨[], .nil, rfl⟩
  | ⟨id, o⟩ :: rest, updated, orders => by
      simp only [refreshLoop, Act.wp_bind, Act.wp_read, Act.afterBind_ok, Act.wp_monadLift]
      refine Act.wp_iff.mpr fun tr r _ hx => ?_
      have hfail := Act.wp_iff.mp (validateOrder_fails s₀.account o) _ _ _ hx
      have fails_append : ∀ {tr'}, Fails tr' → Fails (tr ++ tr') := by
        rintro tr' ⟨ev, h, hev⟩
        exact ⟨ev, by simp [h], hev⟩
      cases r with
      | error e =>
          have := hfail.mp ⟨e, rfl⟩
          refine ⟨⟨orders, rfl⟩, fun _ => by simpa using this, by simp⟩
      | ok b =>
          cases b with
          | false =>
              simp only [Act.afterBind_ok, Bool.false_eq_true, if_false]
              refine Act.wp_mono (refreshLoop_spec s₀ rest updated orders) fun tr' r' s' h => ?_
              refine ⟨h.1, fun he => by simpa using fails_append (h.2.1 he), fun updated' hu => ?_⟩
              obtain ⟨bs, hv, heq⟩ := h.2.2 updated' hu
              exact ⟨false :: bs, by simpa using Validates.cons hx hv, heq⟩
          | true =>
              simp only [Act.afterBind_ok, if_true, Act.wp_bind, Act.wp_write]
              refine Act.wp_mono (refreshLoop_spec s₀ rest _ _) fun tr' r' s' h => ?_
              refine ⟨h.1, fun he => by simpa using fails_append (h.2.1 he), fun updated' hu => ?_⟩
              obtain ⟨bs, hv, heq⟩ := h.2.2 updated' hu
              exact ⟨true :: bs, by simpa using Validates.cons hx hv, heq⟩

/-- `RunRefresh` keeps the orders that `ValidateOrder` accepts. -/
lemma runRefresh_spec (s : State) :
    runRefresh.wp s fun tr r s' => (∃ orders, s' = { s with ownOrders := orders }) ∧
      ((∃ e, r = .error e) → Fails tr) ∧
      (r = .ok () → ∃ bs, Validates s.account s.ownOrders.entries tr bs ∧
        s' = { s with ownOrders := accept s.ownOrders.entries bs ∅ }) := by
  simp only [runRefresh, Act.wp_bind, Act.wp_read, Act.afterBind_ok]
  refine Act.wp_mono (refreshLoop_spec s s.ownOrders.entries ∅ s.ownOrders) fun tr r s' h => ?_
  obtain ⟨⟨orders, rfl⟩, hfail, hok⟩ := h
  cases r with
  | error e => exact ⟨⟨orders, rfl⟩, fun _ => by simpa using hfail ⟨e, rfl⟩, by simp⟩
  | ok updated =>
      obtain ⟨bs, hv, rfl⟩ := hok updated rfl
      simp only [Act.afterBind_ok, Act.wp_bind, Act.wp_read, Act.wp_write]
      exact ⟨⟨_, rfl⟩, by simp, fun _ => ⟨bs, by simpa using hv, rfl⟩⟩

/-- What a refresh that returned has kept. -/
lemma accept_of_refresh {s s' : State} {tr : Conversation} {eff : Effect}
    (hx : (exec cfg .refresh s).Exec tr (.ok eff, s')) :
    ∃ bs, Validates s.account s.ownOrders.entries tr bs ∧
      s' = { s with ownOrders := accept s.ownOrders.entries bs ∅ } := by
  have hspec : (exec cfg .refresh).wp s fun tr r s' => (∃ eff, r = .ok eff) →
      ∃ bs, Validates s.account s.ownOrders.entries tr bs ∧
        s' = { s with ownOrders := accept s.ownOrders.entries bs ∅ } := by
    simp only [exec, Act.wp_bind]
    refine Act.wp_mono (runRefresh_spec s) fun tr r s' h => ?_
    obtain ⟨_, _, hok⟩ := h
    cases r with
    | error e => simp
    | ok _ => simpa using hok rfl
  exact Act.wp_iff.mp hspec tr _ s' hx ⟨eff, rfl⟩

/-! ## Who may unlock an order -/

/-- A trade against our own order `id`. -/
def TradeState.holds (account : String) (id : UInt64) (t : TradeState) : Bool :=
  getRole account t = .maker && t.order.getId = id

/-- A task that is to hand the order `id` over, to unlock it, or to remove it: `ProcessMessage`
between `TryLock` and either `OrderTaken` or `Unlock`, and the handling of a finalised trade. -/
def Task.holds (account : String) (id : UInt64) : Task → Bool
  | .orderTaken _ taking _ => taking.id = id
  | .unlock i => i = id
  | .handle t => t.holds account id
  | _ => false

/-- How many of the tasks hold the order. -/
def heldBy (account : String) (id : UInt64) (tasks : List Task) : ℕ :=
  tasks.countP (Task.holds account id)

/-- How many of the trades hold the order. -/
def heldIn (account : String) (id : UInt64) (trades : List TradeState) : ℕ :=
  trades.countP (TradeState.holds account id)

@[simp] lemma heldBy_nil (account : String) (id : UInt64) : heldBy account id [] = 0 := rfl

@[simp] lemma heldBy_append (account : String) (id : UInt64) (l l' : List Task) :
    heldBy account id (l ++ l') = heldBy account id l + heldBy account id l' :=
  List.countP_append

@[simp] lemma heldBy_cons (account : String) (id : UInt64) (x : Task) (l : List Task) :
    heldBy account id (x :: l) = (x.holds account id).toNat + heldBy account id l := by
  rw [heldBy, List.countP_cons, heldBy, Nat.add_comm]
  cases x.holds account id <;> rfl

@[simp] lemma heldBy_refreshTasks (account : String) (id : UInt64) :
    heldBy account id refreshTasks = 0 := rfl

lemma heldBy_releaseTasks (account : String) (id : UInt64) (t : TradeState) :
    heldBy account id (releaseTasks account t) = 0 := by
  refine List.countP_eq_zero.mpr fun x hx => ?_
  simp only [releaseTasks, List.mem_append] at hx
  rcases hx with hx | hx
  · split at hx
    · rw [List.mem_singleton.mp hx]
      simp [Task.holds]
    · simp at hx
  · split at hx
    · rw [List.mem_singleton.mp hx]
      simp [Task.holds]
    · simp at hx

lemma Frame.holds {account : String} {id : UInt64} {t t' : TradeState} (h : Frame t t') :
    t'.holds account id = t.holds account id := by
  rw [TradeState.holds, TradeState.holds, h.getRole, h.order]

/-- Updating the trades hands their rights over to the tasks that settle the finalised ones. -/
lemma heldIn_update (account : String) (id : UInt64) {us : List (TradeState × TradeState)}
    (hu : ∀ p ∈ us, ∃ tr, Update.Outcome p.1 tr (.ok ()) p.2) :
    heldBy account id (((us.map Prod.snd).filter isFinalised).map .handle)
      + heldIn account id ((us.map Prod.snd).filter fun t => !isFinalised t)
      = heldIn account id (us.map Prod.fst) := by
  have hsame : heldIn account id (us.map Prod.fst) = heldIn account id (us.map Prod.snd) := by
    rw [heldIn, heldIn, List.countP_map, List.countP_map]
    refine List.countP_congr fun p hp => ?_
    obtain ⟨tr, h⟩ := hu p hp
    rw [Function.comp, Function.comp, h.frame.holds]
  rw [hsame, heldIn, heldIn, List.countP_eq_countP_filter_add (us.map Prod.snd) _ isFinalised, heldBy,
    List.countP_map]
  rfl

/-- The order of a taken message is the one that was locked for it. -/
def Task.matched : Task → Prop
  | .orderTaken o taking _ => o.getId = taking.id
  | _ => True

/-- The task does not bring new orders along. -/
def Task.plain : Task → Prop
  | .add _ | .orderTaken _ _ _ => False
  | _ => True

/-- **What a section that returns does to the own orders and the rights to unlock them.** -/
inductive Tokens (s : State) (task : Task) (tr : Conversation) (eff : Effect) : State → Prop
  /-- Orders are not touched, and rights at most handed over. -/
  | pass {s'} (horders : s'.ownOrders = s.ownOrders) (hid : s'.nextFreeId = s.nextFreeId)
      (hplain : ∀ x ∈ eff.next, x.plain)
      (hbal : ∀ id, heldBy s.account id eff.next + heldIn s.account id s'.trades
        = (task.holds s.account id).toNat + heldIn s.account id s.trades) : Tokens s task tr eff s'
  | add {o} (htask : task = .add o) (heff : eff = { next := refreshTasks }) :
      Tokens s task tr eff { s with
        ownOrders := s.ownOrders.insert s.nextFreeId { o with account := none, id := none }
        nextFreeId := s.nextFreeId + 1 }
  | remove {id} (htask : task = .remove id) (heff : eff = { next := refreshTasks }) :
      Tokens s task tr eff { s with ownOrders := s.ownOrders.erase id }
  | refresh {bs} (htask : task = .refresh) (heff : eff = {})
      (hv : Validates s.account s.ownOrders.entries tr bs) :
      Tokens s task tr eff { s with ownOrders := accept s.ownOrders.entries bs ∅ }
  /-- A right is obtained. -/
  | lock {msg taking o} (htask : task = .receive msg) (hmsg : msg.takingOrder = some taking)
      (ho : s.ownOrders.lookup taking.id = some o) (hfree : o.locked = false)
      (heff : eff = { next := refreshTasks
        ++ [.orderTaken { o with account := some s.account, id := some taking.id } taking msg] }) :
      Tokens s task tr eff
        { s with ownOrders := s.ownOrders.insert taking.id { o with locked := true } }
  /-- A right is used to unlock the order. -/
  | unlock {id o} (htask : ∀ i, task.holds s.account i = decide (i = id))
      (ho : s.ownOrders.lookup id = some o) (hlocked : o.locked = true)
      (hplain : ∀ x ∈ eff.next, x.plain) (hnext : ∀ i, heldBy s.account i eff.next = 0) :
      Tokens s task tr eff { s with ownOrders := s.ownOrders.insert id { o with locked := false } }
  /-- A right is used to remove the order, in whose place a smaller one may be added. -/
  | drop {t} (htask : task = .handle t) (hmaker : getRole s.account t = .maker)
      (heff : eff = { next := refreshTasks }
        ∨ eff = { next := refreshTasks ++ [.add (reducedOrder t)] }) :
      Tokens s task tr eff { s with ownOrders := s.ownOrders.erase t.order.getId }

/-- How a section can fail, as far as orders are concerned. -/
structure OrderFailure (s : State) (task : Task) (tr : Conversation) (e : Fail) (s' : State) :
    Prop where
  /-- An exception outside of a refresh and of the updater's thread changes nothing. -/
  exception : e = .exception → task.updating ∨ task = .refresh ∧ Fails tr ∨ s' = s
  /-- `Unlock` aborts only if the order to unlock is not there or not locked. -/
  unlock : e = .check .orderExists ∨ e = .check .orderLocked →
    ∃ id, task.holds s.account id = true ∧ ∀ o, s.ownOrders.lookup id = some o → o.locked = false

/-- Both together. -/
def OrderSection (s : State) (task : Task) (tr : Conversation) (r : Except Fail Effect)
    (s' : State) : Prop :=
  match r with
  | .ok eff => Tokens s task tr eff s'
  | .error e => OrderFailure s task tr e s'

/-! ## The list is complete -/

/-- The assertions of `Unlock`. -/
def isUnlockCheck (c : Check) : Prop := c = .orderExists ∨ c = .orderLocked

lemma sectionChecks_spare_unlock : ∀ c ∈ sectionChecks, ¬ isUnlockCheck c := by
  simp [sectionChecks, tradeChecks, isUnlockCheck]

lemma harmless_unlock (ck : TradeChecker) : Harmless isUnlockCheck ck := by
  refine ⟨fun c hc => ?_, fun _ => by simp [isUnlockCheck], fun _ _ _ => by simp [isUnlockCheck]⟩
  rw [TradeChecker.getTotalSat] at hc
  split_ifs at hc
  rw [← Except.error.inj hc]
  simp [isUnlockCheck]

/-- Only the sections that unlock an order can fail to do so. -/
lemma exec_spares_unlock (s : State) {task : Task} (hu : ∀ id, task ≠ .unlock id)
    (hh : ∀ t, task ≠ .handle t) : (exec cfg task).wp s fun _ r _ => Spares isUnlockCheck r := by
  have hP : ∀ pb pb' : TradeState, Frame pb pb' → True → True := fun _ _ _ _ => trivial
  refine exec_spares sectionChecks_spare_unlock hP (fun pb _ => harmless_unlock _) task rfl
    (fun _ _ => trivial) (fun _ _ _ _ _ => trivial) ?_
  rintro (⟨id, rfl⟩ | ⟨t, rfl⟩)
  · exact absurd rfl (hu id)
  · exact absurd rfl (hh t)

lemma unlock_spec (id : UInt64) (s : State) :
    (unlock id).wp s fun tr r s' => tr = [] ∧
      ((∃ o, s.ownOrders.lookup id = some o ∧ o.locked = true ∧ r = .ok () ∧
          s' = { s with ownOrders := s.ownOrders.insert id { o with locked := false } }) ∨
        ∃ c, r = .error (.check c) ∧ ∀ o, s.ownOrders.lookup id = some o → o.locked = false) := by
  simp only [unlock, Act.wp_bind, Act.wp_read, Act.afterBind_ok]
  cases ho : s.ownOrders.lookup id with
  | none => exact ⟨rfl, Or.inr ⟨_, rfl, by simp⟩⟩
  | some o =>
      rw [Act.wp_bind, wp_check]
      refine ⟨fun hlocked => ⟨rfl, Or.inl ⟨o, rfl, hlocked, rfl, rfl⟩⟩, fun hfree => ?_⟩
      refine ⟨rfl, Or.inr ⟨_, rfl, ?_⟩⟩
      rintro _ ⟨⟩
      exact hfree

/-- A section that fails without unlocking anything. -/
private lemma failure_of_check {s s' : State} {task : Task} {tr : Conversation} {c : Check}
    (h : ¬ isUnlockCheck c) : OrderFailure s task tr (.check c) s' :=
  ⟨by simp, fun hc => absurd (hc.imp Fail.check.inj Fail.check.inj) h⟩

/-- A section that fails to unlock the order it holds. -/
private lemma failure_of_unlock {s s' : State} {task : Task} {tr : Conversation} {c : Check}
    {id : UInt64} (hid : task.holds s.account id = true)
    (h : ∀ o, s.ownOrders.lookup id = some o → o.locked = false) :
    OrderFailure s task tr (.check c) s' :=
  ⟨by simp, fun _ => ⟨id, hid, h⟩⟩

/-- Nothing was done to the orders, and no right has moved. -/
private lemma Tokens.idle {s : State} {task : Task} {tr : Conversation} {eff : Effect}
    (htask : ∀ id, task.holds s.account id = false)
    (hnext : ∀ x ∈ eff.next, x.plain ∧ ∀ id, x.holds s.account id = false) :
    Tokens s task tr eff s := by
  refine .pass rfl rfl (fun x hx => (hnext x hx).1) fun id => ?_
  have : heldBy s.account id eff.next = 0 :=
    List.countP_eq_zero.mpr fun x hx => by simp [(hnext x hx).2 id]
  rw [this, htask id]
  rfl

lemma refreshTasks_plain : ∀ x ∈ refreshTasks, x.plain := by
  intro x hx
  simp only [refreshTasks, List.mem_cons, List.not_mem_nil, or_false] at hx
  rcases hx with rfl | rfl <;> trivial

lemma releaseTasks_plain {account : String} {t : TradeState} :
    ∀ x ∈ releaseTasks account t, x.plain := by
  intro x hx
  have := subject_of_release hx
  cases x <;> simp_all [Task.subject, Task.plain]

private lemma handle_tokens (s : State) (t : TradeState) :
    (handleFinalised t).wp s (OrderSection s (.handle t)) := by
  have htaker : ∀ {id}, getRole s.account t ≠ .maker →
      (Task.handle t).holds s.account id = false := by
    intro id h
    simp [Task.holds, TradeState.holds, h]
  have unsuccessful :
      (if getRole s.account t = .maker then do
          unlock t.order.getId
          return { next := refreshTasks ++ releaseTasks s.account t }
        else return { next := releaseTasks s.account t } : M State Effect).wp s
        (OrderSection s (.handle t)) := by
    split
    · rename_i hmaker
      have hholds : ∀ i, (Task.handle t).holds s.account i = decide (i = t.order.getId) := by
        intro i
        simp [Task.holds, TradeState.holds, hmaker, eq_comm]
      simp only [Act.wp_bind]
      refine Act.wp_mono (unlock_spec _ s) fun tr r s' h => ?_
      obtain ⟨htr, h⟩ := h
      rcases h with ⟨o, ho, hlocked, rfl, rfl⟩ | ⟨c, rfl, hno⟩
      · refine Tokens.unlock hholds ho hlocked ?_ fun i => ?_
        · intro x hx
          rcases List.mem_append.mp hx with hx | hx
          · exact refreshTasks_plain x hx
          · exact releaseTasks_plain x hx
        · simp [heldBy_releaseTasks]
      · exact failure_of_unlock (hholds t.order.getId |>.trans (by simp)) hno
    · rename_i hmaker
      refine Tokens.pass rfl rfl releaseTasks_plain fun id => ?_
      rw [heldBy_releaseTasks, htaker hmaker]
      rfl
  simp only [handleFinalised, Act.wp_bind, Act.wp_read, Act.afterBind_ok, List.nil_append]
  cases t.getState with
  | initiated => exact failure_of_check (by simp [isUnlockCheck])
  | pending => exact failure_of_check (by simp [isUnlockCheck])
  | abandoned => exact unsuccessful
  | failed => exact unsuccessful
  | success =>
      dsimp only
      split
      · rename_i hmaker
        simp only [removeById, Act.wp_bind, Act.wp_read, Act.afterBind_ok, Act.wp_write]
        split
        · exact Tokens.drop rfl hmaker (Or.inr rfl)
        · exact Tokens.drop rfl hmaker (Or.inl rfl)
      · rename_i hmaker
        exact Tokens.idle (fun id => htaker hmaker) (by simp)

private lemma receive_tokens (s : State) (msg : ProcessingMessage) :
    (receive msg).wp s (OrderSection s (.receive msg)) := by
  have idle : ∀ {tr eff}, (∀ x ∈ eff.next, x.plain ∧ ∀ id, x.holds s.account id = false) →
      Tokens s (.receive msg) tr eff s := Tokens.idle fun _ => rfl
  simp only [receive, Act.wp_bind, wp_check, Act.afterBind_ok, Act.afterBind_error]
  refine ⟨fun _ => ?_, fun _ => failure_of_check (by simp [isUnlockCheck])⟩
  cases hmsg : msg.takingOrder with
  | none =>
      refine idle fun x hx => ?_
      rw [List.mem_singleton.mp hx]
      exact ⟨trivial, fun _ => rfl⟩
  | some taking =>
      simp only [tryLock, Act.wp_bind, Act.wp_read, Act.afterBind_ok]
      cases ho : s.ownOrders.lookup taking.id with
      | none => exact idle (by simp)
      | some o =>
          dsimp only
          split
          · exact idle (by simp)
          · rename_i hfree
            exact Tokens.lock rfl hmsg ho (by simpa using hfree) rfl

/-- A trade that is handled keeps its rights. -/
private lemma pass_of_processed {s : State} {msg : ProcessingMessage} {before after : List TradeState}
    {t t' : TradeState} {tr : Conversation} {eff : Effect} (hs : s.trades = before ++ t :: after)
    (h : Frame t t') (hnext : eff.next = []) :
    Tokens s (.process msg) tr eff { s with trades := before ++ t' :: after } := by
  refine .pass rfl rfl (by simp [hnext]) fun id => ?_
  rw [hnext, hs]
  simp only [heldIn, List.countP_append, List.countP_cons, h.holds]
  rfl

/-- **Every section that returns is in the list**, and an exception leaves the orders alone unless
it comes out of a refresh. -/
private lemma exec_tokens (s : State) {task : Task} (hmatched : task.matched)
    (hu : ∀ id, task ≠ .unlock id) (hh : ∀ t, task ≠ .handle t) :
    (exec cfg task).wp s fun tr r s' =>
      match r with
      | .ok eff => Tokens s task tr eff s'
      | .error e => e = .exception → task.updating ∨ task = .refresh ∧ Fails tr ∨ s' = s := by
  cases task with
  | add o =>
      simp only [exec, addOwnOrder, Act.wp_bind, Act.wp_read, Act.afterBind_ok, Act.wp_monadLift]
      refine Act.wp_iff.mpr fun tr r _ _ => ?_
      cases r with
      | error e => exact fun _ => Or.inr (Or.inr rfl)
      | ok valid =>
          cases valid with
          | false => exact Tokens.idle (fun _ => rfl) (by simp)
          | true => exact Tokens.add rfl rfl
  | remove id => exact Tokens.remove rfl rfl
  | refresh =>
      simp only [exec, Act.wp_bind]
      refine Act.wp_mono (runRefresh_spec s) fun tr r s' h => ?_
      obtain ⟨_, hfail, hok⟩ := h
      cases r with
      | error e => exact fun _ => Or.inr (Or.inl ⟨trivial, hfail ⟨e, rfl⟩⟩)
      | ok _ =>
          obtain ⟨bs, hv, rfl⟩ := hok rfl
          have : Validates s.account s.ownOrders.entries (tr ++ []) bs := by simpa using hv
          exact Tokens.refresh rfl rfl this
  | getOrders =>
      refine Tokens.idle (fun _ => rfl) fun x hx => ?_
      rw [List.mem_singleton.mp hx]
      exact ⟨trivial, fun _ => rfl⟩
  | updateOrders orders => exact Tokens.idle (fun _ => rfl) (by simp)
  | receive msg =>
      refine Act.wp_mono (receive_tokens s msg) fun tr r s' h => ?_
      cases r with
      | ok eff => exact h
      | error e => exact h.exception
  | orderTaken o taking msg =>
      have hid : o.getId = taking.id := hmatched
      simp only [exec, Act.wp_bind]
      refine Act.wp_mono (orderTaken_spec s o _ _) fun tr r s' h => ?_
      cases h with
      | refused hq =>
          refine Tokens.pass rfl rfl ?_ fun id => by simp [Task.holds]
          intro x hx
          rw [List.mem_singleton.mp hx]
          trivial
      | foreign hq _ => exact fun _ => Or.inr (Or.inr rfl)
      | @created now hcheck hown hother =>
          refine Tokens.pass rfl rfl ?_ fun id => ?_
          · intro x hx
            rw [List.mem_singleton.mp hx]
            trivial
          · have hheld : (newTrade o taking.units.toInt64 (msg.counterparty.getD "") now
                (s.created + 1)).holds s.account id = decide (taking.id = id) := by
              simp [TradeState.holds, getRole, newTrade, hown, hid]
            simp only [heldBy_cons, heldBy_nil, heldIn, List.countP_append, List.countP_singleton,
              Task.holds, hheld]
            by_cases h : taking.id = id
            · simp [h, Nat.add_comm]
            · simp [h]
  | unlock id => exact absurd rfl (hu id)
  | process msg =>
      simp only [exec, Act.wp_bind]
      refine Act.wp_mono (processMessage_spec s msg) fun tr r s' h => ?_
      cases h with
      | noMatch _ => exact Tokens.idle (fun _ => rfl) (by simp)
      | processed hs hb hm h hr =>
          exact pass_of_processed hs ((handleMessage_spec msg _).frame.trans h.frame) rfl
      | aborted hs _ hm h => exact fun h => by simp at h
  | takeOrder o units =>
      simp only [exec, Act.wp_bind]
      refine Act.wp_mono (takeOrder_spec s o units) fun tr r s' h => ?_
      cases h with
      | refused hq => exact Tokens.idle (fun _ => rfl) (by simp)
      | failed hcheck hown h hr =>
          rcases hr with ⟨rfl, rfl⟩ | ⟨c, rfl, rfl⟩
          · exact Tokens.idle (fun _ => rfl) (by simp)
          · exact fun h => by simp at h
      | @created now _ _ pb' hcheck hown h =>
          refine Tokens.pass rfl rfl (by simp) fun id => ?_
          have hrole : getRole s.account pb' = .taker := by
            rw [h.frame.getRole]
            simp [getRole, newTrade, hown]
          simp [heldIn, TradeState.holds, hrole, Task.holds]
  | updateTrades =>
      simp only [exec, Act.wp_bind]
      refine Act.wp_mono (updateTrades_spec s) fun tr r s' h => ?_
      cases h with
      | done hs hu hq =>
          refine Tokens.pass rfl rfl ?_ fun id => ?_
          · intro x hx
            obtain ⟨t, _, rfl⟩ := List.mem_map.mp hx
            trivial
          · rw [hs]
            have := heldIn_update s.account id hu
            simpa [Task.holds] using this
      | failed hs hq => exact fun _ => Or.inl trivial
  | handle t => exact absurd rfl (hh t)
  | readInputs t =>
      simp only [exec, Act.wp_bind, Act.wp_monadLift, wp_rpc, Act.afterBind_ok, Act.afterBind_error]
      refine ⟨fun decoded => Tokens.idle (fun _ => rfl) ?_, fun _ => Or.inl trivial, by simp⟩
      intro x hx
      obtain ⟨out, _, rfl⟩ := List.mem_map.mp hx
      exact ⟨trivial, fun _ => rfl⟩
  | unlockOutput t out =>
      simp only [exec, Act.wp_bind, Act.wp_monadLift, wp_lockUnspent, Act.afterBind_ok]
      exact ⟨fun b => Tokens.idle (fun _ => rfl) (by simp), fun e => Tokens.idle (fun _ => rfl) (by simp)⟩

/-- **What any section does to the own orders.** -/
theorem exec_orders (s : State) {task : Task} (hmatched : task.matched) :
    (exec cfg task).wp s (OrderSection s task) := by
  by_cases hu : ∃ id, task = .unlock id
  · obtain ⟨id, rfl⟩ := hu
    have hholds : ∀ i, (Task.unlock id).holds s.account i = decide (i = id) := by
      intro i
      simp [Task.holds, eq_comm]
    simp only [exec, Act.wp_bind]
    refine Act.wp_mono (unlock_spec id s) fun tr r s' h => ?_
    obtain ⟨_, h⟩ := h
    rcases h with ⟨o, ho, hlocked, rfl, rfl⟩ | ⟨c, rfl, hno⟩
    · exact Tokens.unlock hholds ho hlocked refreshTasks_plain fun i => rfl
    · exact failure_of_unlock ((hholds id).trans (by simp)) hno
  by_cases hh : ∃ t, task = .handle t
  · obtain ⟨t, rfl⟩ := hh
    exact handle_tokens s t
  have hu : ∀ id, task ≠ .unlock id := fun id h => hu ⟨id, h⟩
  have hh : ∀ t, task ≠ .handle t := fun t h => hh ⟨t, h⟩
  refine Act.wp_mono (Act.wp_and (exec_tokens s hmatched hu hh) (exec_spares_unlock s hu hh)) ?_
  rintro tr r s' ⟨h, hspares⟩
  cases r with
  | ok eff => exact h
  | error e =>
      refine ⟨h, fun hc => ?_⟩
      rcases hc with rfl | rfl
      · exact absurd (Or.inl rfl) (hspares _ rfl)
      · exact absurd (Or.inr rfl) (hspares _ rfl)

end Democrit
