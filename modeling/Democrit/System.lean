import Democrit.Lib.Transition
import Democrit.TradeManager

/-!
# The daemon as a whole

A call from outside (`Op`) is a thread that works through critical sections (`Task`).  Between two
sections of one thread, any other thread may run one of its own, so **every interleaving of critical
sections is a run**, and in particular every sequence of calls that each complete before the next.

A section that returns says what comes after it in its thread (`Effect.next`).  One that raises a
`JsonRpcException` ends its thread; in the two background jobs (the refresher and the updater,
which run in an `IntervalJob`) nothing catches it and the process terminates, as it does when an
assertion fails.  A terminated process takes no further step.

Calls to the wallet outside of a critical section (`HandleFailure`) are steps of their own, one
for each outpoint.

`Sys.log` is a history variable.  It records every section with the conversation it had, so that a
statement about a state can speak about how the state came about.
-/

namespace Democrit

open Interaction

/-! ## Sections -/

/-- What a thread can have to do next. -/
inductive Task where
  /-- `MyOrders::Add`. -/
  | add (o : Order)
  /-- `MyOrders::RemoveById`. -/
  | remove (id : UInt64)
  /-- The section of `MyOrders::RunRefresh`. -/
  | refresh
  /-- `InternalGetOrders (false)` at the end of `RunRefresh`. -/
  | getOrders
  /-- `UpdateOrders`, the broadcast of what was read. -/
  | updateOrders (orders : OrdersOfAccount)
  /-- The beginning of `ProcessMessage`, with `TryLock` if the message takes an order. -/
  | receive (msg : ProcessingMessage)
  /-- `OrderTaken` inside `ProcessMessage`, for the locked order `o`. -/
  | orderTaken (o : Order) (taking : TakingOrder) (msg : ProcessingMessage)
  /-- `MyOrders::Unlock` inside `ProcessMessage`. -/
  | unlock (id : UInt64)
  /-- The rest of `ProcessMessage`. -/
  | process (msg : ProcessingMessage)
  /-- `TradeManager::TakeOrder`. -/
  | takeOrder (o : Order) (units : Amount)
  /-- The section of `UpdateAndArchiveTrades`. -/
  | updateTrades
  /-- `HandleSuccess` or `HandleFailure` of a finalised trade, up to the end of the section of
  `RemoveById` or `Unlock` in it. -/
  | handle (t : TradeState)
  /-- `UnlockPsbtInputs` at the end of `HandleFailure`: reading the inputs. -/
  | readInputs (t : TradeState)
  /-- One call of `LockUnspent` in `HandleFailure`. -/
  | unlockOutput (t : TradeState) (out : OutPoint)

/-- What a section that returned has done besides changing the state. -/
structure Effect where
  next : List Task := []
  reply : Option ProcessingMessage := none
  published : Option OrdersOfAccount := none

/-- The two sections of `RunRefresh`. -/
def refreshTasks : List Task := [.refresh, .getOrders]

/-- The rest of `Trade::HandleFailure`: what the trade had locked in the wallet. -/
def releaseTasks (account : String) (t : TradeState) : List Task :=
  (match (t.sellerData.getD {}).nameOutput with
    | some out => [.unlockOutput t out]
    | none => [])
  ++ (if getOrderType account t = .bid ∧ t.ourPsbt.isSome then [.readInputs t] else [])

variable (cfg : Config)

/-- The beginning of `TradeManager::ProcessMessage`. -/
def receive (msg : ProcessingMessage) : M State Effect := do
  check .counterparty msg.counterparty.isSome
  match msg.takingOrder with
  | none => return { next := [.process msg] }
  | some taking =>
      match ← tryLock taking.id with
      | none => return {}
      | some o => return { next := refreshTasks ++ [.orderTaken o taking msg] }

/-- `Trade::HandleSuccess` and `Trade::HandleFailure`, chosen as `UpdateAndArchiveTrades` does. -/
def handleFinalised (t : TradeState) : M State Effect := do
  let s ← Act.read
  match t.getState with
  | .abandoned | .failed =>
      if getRole s.account t = .maker then
        unlock t.order.getId
        return { next := refreshTasks ++ releaseTasks s.account t }
      else
        return { next := releaseTasks s.account t }
  | .success =>
      if getRole s.account t = .maker then
        removeById t.order.getId
        if keepsReducedOrder t then
          return { next := refreshTasks ++ [.add (reducedOrder t)] }
        else
          return { next := refreshTasks }
      else
        return {}
  | _ => Act.fail (.check .archivedState)

/-- One section. -/
def exec : Task → M State Effect
  | .add o => do
      if ← addOwnOrder o then return { next := refreshTasks } else return {}
  | .remove id => do
      removeById id
      return { next := refreshTasks }
  | .refresh => do
      runRefresh
      return {}
  | .getOrders => do
      let s ← Act.read
      return { next := [.updateOrders (internalGetOrders false s)] }
  | .updateOrders orders => return { published := some orders }
  | .receive msg => receive msg
  | .orderTaken o taking msg => do
      if ← orderTaken o taking.units.toInt64 (msg.counterparty.getD "") then
        return { next := [.process msg] }
      else
        return { next := [.unlock taking.id] }
  | .unlock id => do
      unlock id
      return { next := refreshTasks }
  | .process msg => do
      let reply ← processMessage cfg msg
      return { reply }
  | .takeOrder o units => do
      let reply ← takeOrder cfg o units
      return { reply }
  | .updateTrades => do
      let finalised ← updateTrades cfg
      return { next := finalised.map .handle }
  | .handle t => handleFinalised t
  | .readInputs t => do
      let decoded ← rpc (.decodepsbt (t.ourPsbt.getD ""))
      return { next := decoded.tx.vin.map (.unlockOutput t) }
  | .unlockOutput _ out => do
      let _ ← lockUnspent false out
      return {}

/-! ## Threads -/

/-- The calls from outside: the methods of the daemon, a message from the network, and the two
background jobs. -/
inductive Op where
  | addOrder (o : Order)
  | cancelOrder (id : UInt64)
  | refreshOrders
  | takeOrder (o : Order) (units : Amount)
  | processMessage (msg : ProcessingMessage)
  | updateTrades

/-- Where a call begins. -/
def Op.tasks : Op → List Task
  | .addOrder o => [.add o]
  | .cancelOrder id => [.remove id]
  | .refreshOrders => refreshTasks
  | .takeOrder o units => [.takeOrder o units]
  | .processMessage msg => [.receive msg]
  | .updateTrades => [.updateTrades]

/-- Does the call run in an `IntervalJob`, where nothing catches an exception? -/
def Op.background : Op → Bool
  | .refreshOrders | .updateTrades => true
  | _ => false

/-- A call in progress. -/
structure Thread where
  op : Op
  tasks : List Task

/-- One section as it was run. -/
structure Record where
  op : Op
  task : Task
  pre : State
  talk : Conversation
  outcome : Except Fail Effect
  post : State

/-- The message a section sent, if it sent one. -/
def Record.reply (rec : Record) : Option ProcessingMessage :=
  match rec.outcome with
  | .ok eff => eff.reply
  | .error _ => none

/-- The assertion that a section failed. -/
def Record.failedCheck (rec : Record) : Option Check :=
  match rec.outcome with
  | .error (.check c) => some c
  | _ => none

lemma Record.outcome_of_failedCheck {rec : Record} {c : Check} (h : rec.failedCheck = some c) :
    rec.outcome = .error (.check c) := by
  rw [Record.failedCheck] at h
  split at h
  · rename_i c' hc
    rw [hc, Option.some.inj h]
  · simp at h

/-- The daemon. -/
structure Sys where
  state : State
  threads : List Thread := []
  log : List Record := []
  halted : Bool := false

/-- The daemon after its start. -/
def Sys.start (account : String) : Sys := { state := { account } }

/-- What is left of a thread after a section. -/
def continuation (rest : List Task) : Except Fail Effect → List Task
  | .ok eff => eff.next ++ rest
  | .error _ => []

/-- Does the process terminate after a section? -/
def halts (op : Op) : Except Fail Effect → Bool
  | .ok _ => false
  | .error .exception => op.background
  | .error (.check _) => true

/-- What a step is: a call comes in, or a thread runs its next section. -/
inductive Label where
  | start (op : Op)
  | run (rec : Record)

/-- The conversation of a step. -/
def Label.talk : Label → Conversation
  | .start _ => []
  | .run rec => rec.talk

/-- The daemon after the section `rec` of the thread between `before` and `after`. -/
def Sys.advance (σ : Sys) (before after : List Thread) (rest : List Task) (rec : Record) : Sys where
  state := rec.post
  threads := before ++ ⟨rec.op, continuation rest rec.outcome⟩ :: after
  log := σ.log ++ [rec]
  halted := halts rec.op rec.outcome

/-- **A step of the daemon**, whatever the outside answers. -/
inductive Sys.Step : Sys → Label → Sys → Prop
  | start {σ : Sys} (op : Op) (h : σ.halted = false) :
      Step σ (.start op) { σ with threads := σ.threads ++ [⟨op, op.tasks⟩] }
  | run {σ : Sys} {before after : List Thread} {op : Op} {task : Task} {rest : List Task}
      {tr : Conversation} {r : Except Fail Effect} {s' : State} (h : σ.halted = false)
      (hth : σ.threads = before ++ ⟨op, task :: rest⟩ :: after)
      (hx : (exec cfg task σ.state).Exec tr (r, s')) :
      Step σ (.run ⟨op, task, σ.state, tr, r, s'⟩)
        (σ.advance before after rest ⟨op, task, σ.state, tr, r, s'⟩)

/-- The daemon of `account` in the environment `E`: the runs of the one together with the other. -/
def system {W : Type} (E : Env Call Answer W) (account : String) :
    Transition.System (Sys × W) Label where
  init x := x.1 = Sys.start account
  step x l x' := Sys.Step cfg x.1 l x'.1 ∧ E.Path x.2 l.talk x'.2

/-! ## Scripted runs -/

/-- A game in which a move is written as its receiver, asset and amount. -/
def sampleConfig : Config where
  getGameId := "game"
  getTransferMove _ receiver asset n := .arr [.str receiver, .str asset, .int n.toInt]
  writeString
    | .obj [("g", .obj [(_, .arr [.str receiver, .str asset, .int n]), _])] =>
        receiver ++ " gets " ++ toString n ++ " " ++ asset
    | _ => ""

/-- A scheduler's choices. -/
inductive Sched where
  | start (op : Op)
  /-- Let the thread at this position run its next section. -/
  | run (i : ℕ)

section Scripted

variable {W : Type} (h : W → (c : Call) → Answer c × W)

/-- One step as scheduled, with the outside answering as scripted. -/
def Sys.next (x : Sys × W) : Sched → Option (Label × (Sys × W))
  | .start op =>
      if x.1.halted then none
      else some (.start op, { x.1 with threads := x.1.threads ++ [⟨op, op.tasks⟩] }, x.2)
  | .run i =>
      if x.1.halted then none
      else match x.1.threads[i]? with
        | some ⟨op, task :: rest⟩ =>
            let out := (exec cfg task x.1.state).play h x.2
            let done : Record := ⟨op, task, x.1.state, out.2.1, out.1.1, out.1.2⟩
            some (.run done,
              x.1.advance (x.1.threads.take i) (x.1.threads.drop (i + 1)) rest done, out.2.2)
        | _ => none

/-- A whole schedule, given up at the first step that is not allowed. -/
def Sys.play (allowed : Label → Bool) : Sys × W → List Sched → Option (Sys × W)
  | x, [] => some x
  | x, c :: rest => (Sys.next cfg h x c).bind fun y =>
      if allowed y.1 then Sys.play allowed y.2 rest else none

variable {cfg h}

lemma Sys.step_of_next {account : String} {x x' : Sys × W} {l : Label} {c : Sched}
    (hn : Sys.next cfg h x c = some (l, x')) :
    (system cfg (Env.ofScript h) account).step x l x' := by
  cases c with
  | start op =>
      simp only [Sys.next] at hn
      split_ifs at hn with hh
      cases hn
      exact ⟨.start op (by simpa using hh), rfl⟩
  | run i =>
      simp only [Sys.next] at hn
      split_ifs at hn with hh
      split at hn
      · rename_i op task rest hth
        cases hn
        obtain ⟨hlt, hget⟩ := List.getElem?_eq_some_iff.mp hth
        have hsplit : x.1.threads
            = x.1.threads.take i ++ ⟨op, task :: rest⟩ :: x.1.threads.drop (i + 1) := by
          rw [← hget, List.getElem_cons_drop, List.take_append_drop]
        exact ⟨.run (by simpa using hh) hsplit (Prog.exec_play h _ _), Prog.path_play h _ _⟩
      · simp at hn

/-- What a schedule of allowed steps leads to is reachable by them. -/
theorem Sys.reachable_of_play {account : String} {allowed : Label → Bool}
    {P : Sys × W → Label → Prop}
    (hP : ∀ x l x', (system cfg (Env.ofScript h) account).step x l x' → allowed l = true → P x l) :
    ∀ {cs : List Sched} {x x' : Sys × W},
      ((system cfg (Env.ofScript h) account).restrict P).Reachable x →
      Sys.play cfg h allowed x cs = some x' →
      ((system cfg (Env.ofScript h) account).restrict P).Reachable x'
  | [], x, x', hr, hp => by
      obtain rfl := Option.some.inj hp
      exact hr
  | c :: cs, x, x', hr, hp => by
      simp only [Sys.play, Option.bind_eq_some_iff] at hp
      obtain ⟨⟨l, x₁⟩, hn, hp⟩ := hp
      split_ifs at hp with hok
      have hs : (system cfg (Env.ofScript h) account).step x l x₁ := Sys.step_of_next hn
      exact Sys.reachable_of_play hP (hr.step ⟨hs, hP x l x₁ hs hok⟩) hp

/-- What a script answers when a call returns. -/
lemma answer_of_returned {m : Method} {w w' : W} {r : m.Reply}
    (hret : Env.ofScript h w (Ev.returned m r) w') :
    (h w (.rpc m)).1 = (.ok r : Except RpcError m.Reply) :=
  congrArg Prod.fst hret

/-- A script that answers a call with an error does not let it return. -/
lemma not_returned {m : Method} {w w' w₁ : W} {r : m.Reply} {e : RpcError}
    (he : h w (.rpc m) = ((.error e : Except RpcError m.Reply), w₁)) :
    ¬ Env.ofScript h w (Ev.returned m r) w' := by
  intro hret
  have : (Except.error e : Except RpcError m.Reply) = .ok r :=
    congrArg Prod.fst (he.symm.trans hret)
  simp at this

/-- A schedule of allowed steps that leads to a state with `Q` shows that one is reachable. -/
theorem Sys.exists_restricted (cfg : Config) (h : W → (c : Call) → Answer c × W)
    (account : String) (w : W) (cs : List Sched) (allowed : Label → Bool) (P : Sys × W → Label → Prop)
    (hP : ∀ x l x', (system cfg (Env.ofScript h) account).step x l x' → allowed l = true → P x l)
    (Q : Sys × W → Bool)
    (hp : (Sys.play cfg h allowed (Sys.start account, w) cs).any Q = true) :
    ∃ x, ((system cfg (Env.ofScript h) account).restrict P).Reachable x ∧ Q x = true := by
  obtain ⟨x, hx, hQ⟩ := (Option.any_eq_true _ _).mp hp
  have h₀ : ((system cfg (Env.ofScript h) account).restrict P).Reachable (Sys.start account, w) :=
    .init rfl
  exact ⟨x, Sys.reachable_of_play hP h₀ hx, hQ⟩

/-- The same with all steps allowed. -/
theorem Sys.exists_reachable (cfg : Config) (h : W → (c : Call) → Answer c × W) (account : String)
    (w : W) (cs : List Sched) (Q : Sys × W → Bool)
    (hp : (Sys.play cfg h (fun _ => true) (Sys.start account, w) cs).any Q = true) :
    ∃ x, (system cfg (Env.ofScript h) account).Reachable x ∧ Q x = true := by
  obtain ⟨x, hr, hQ⟩ := Sys.exists_restricted cfg h account w cs (fun _ => true) (fun _ _ => True)
    (fun _ _ _ _ _ => trivial) Q hp
  exact ⟨x, hr.of_restrict, hQ⟩

end Scripted

end Democrit
