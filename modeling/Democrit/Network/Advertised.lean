import Democrit.Lib.Publication
import Democrit.Locks.Orders

/-!
# What is advertised

`MyOrders` from the point of view of the threads that call it.  A call changes the own orders in one
critical section, refreshes them in a second one, reads what is available in a third one, and passes
what was read to `UpdateOrders` when it has left the lock.  Other calls run in between.

**A call that is held up before `UpdateOrders` broadcasts what is outdated by then**, and may be the
last one to broadcast (`broadcast_stale`).  What is broadcast last is what is available, if no call
reads the own orders while another one still has something outdated to broadcast
(`last_broadcast_current`).
-/

namespace Democrit

open Interaction Publication

/-! ## Calls into `MyOrders` -/

/-- What a call can have to do next: one of its critical sections, or the broadcast. -/
inductive Phase where
  | add (o : Order)
  | removeById (id : UInt64)
  | tryLock (id : UInt64)
  | unlock (id : UInt64)
  /-- The section of `RunRefresh`. -/
  | refresh
  /-- `InternalGetOrders (false)`. -/
  | getOrders
  | updateOrders (orders : OrdersOfAccount)

/-- One phase, and the ones that follow it in the same call. -/
def Phase.exec : Phase → M State (List Phase)
  | .add o => do
      if ← addOwnOrder o then return [.refresh] else return []
  | .removeById id => do
      Democrit.removeById id
      return [.refresh]
  | .tryLock id => do
      match ← Democrit.tryLock id with
      | none => return []
      | some _ => return [.refresh]
  | .unlock id => do
      Democrit.unlock id
      return [.refresh]
  | .refresh => do
      runRefresh
      return [.getOrders]
  | .getOrders => do
      let s ← Act.read
      return [.updateOrders (internalGetOrders false s)]
  | .updateOrders _ => return []

/-- The methods of `MyOrders` that change something, and the job of the refresher. -/
inductive OrdersCall where
  | add (o : Order)
  | removeById (id : UInt64)
  | tryLock (id : UInt64)
  | unlock (id : UInt64)
  | runRefresh

/-- Where a call begins. -/
def OrdersCall.phase : OrdersCall → Phase
  | .add o => .add o
  | .removeById id => .removeById id
  | .tryLock id => .tryLock id
  | .unlock id => .unlock id
  | .runRefresh => .refresh

/-- The calls in progress, one for each thread, and the arguments of `UpdateOrders` so far.  A call
that throws, or aborts, does not return. -/
structure Calls where
  state : State
  threads : List (List Phase) := []
  published : List OrdersOfAccount := []
  failed : Bool := false

/-- What a phase passes to `UpdateOrders`. -/
def Phase.publishes : Phase → List OrdersOfAccount
  | .updateOrders orders => [orders]
  | _ => []

/-- What a step is: a call comes in, or one goes on. -/
inductive CallsLabel where
  | start (call : OrdersCall)
  | run (phase : Phase) (talk : Conversation)

/-- The conversation of a step. -/
def CallsLabel.talk : CallsLabel → Conversation
  | .start _ => []
  | .run _ tr => tr

/-- The calls after the phase `phase` of the thread between `before` and `after`. -/
def Calls.advance (c : Calls) (before after : List (List Phase)) (phase : Phase) (rest : List Phase)
    (s' : State) : Except Fail (List Phase) → Calls
  | .ok next =>
      { state := s', threads := before ++ (next ++ rest) :: after,
        published := c.published ++ phase.publishes, failed := c.failed }
  | .error _ =>
      { state := s', threads := before ++ [] :: after, published := c.published, failed := true }

/-- **A step**, whatever the outside answers. -/
inductive Calls.Step : Calls → CallsLabel → Calls → Prop
  | start {c : Calls} (call : OrdersCall) :
      Step c (.start call) { c with threads := c.threads ++ [[call.phase]] }
  | run {c : Calls} {before after : List (List Phase)} {phase : Phase} {rest : List Phase}
      {tr : Conversation} {r : Except Fail (List Phase)} {s' : State}
      (hth : c.threads = before ++ (phase :: rest) :: after)
      (hx : (phase.exec c.state).Exec tr (r, s')) :
      Step c (.run phase tr) (c.advance before after phase rest s' r)

/-- The calls of the threads of `account` in the environment `E`. -/
def ordersSystem {W : Type} (E : Env Call Answer W) (account : String) :
    Transition.System (Calls × W) CallsLabel where
  init x := x.1 = { state := { account } }
  step x l x' := Calls.Step x.1 l x'.1 ∧ E.Path x.2 l.talk x'.2

/-! ## What a phase does -/

/-- The phase is followed by a reading of the own orders, or is one. -/
def Phase.reads : Phase → Bool
  | .refresh | .getOrders => true
  | _ => false

/-- What is waiting to be broadcast. -/
def waiting (threads : List (List Phase)) : List OrdersOfAccount :=
  threads.flatten.flatMap Phase.publishes

/-- How often the own orders are still going to be read. -/
def due (threads : List (List Phase)) : ℕ := threads.flatten.countP Phase.reads

/-- **Everything a phase can do to the feed of own orders.** -/
inductive Phase.Outcome (s : State) : Phase → List Phase → State → Prop
  | idle {phase} (hreads : phase.reads = false) (hpub : phase.publishes = []) :
      Outcome s phase [] s
  | edits {phase s'} (next : Phase) (hreads : next.reads = true) (hpub : next.publishes = [])
      (hphase : phase.publishes = []) : Outcome s phase [next] s'
  | read : Outcome s .getOrders [.updateOrders (internalGetOrders false s)] s
  | published (orders : OrdersOfAccount) : Outcome s (.updateOrders orders) [] s

lemma Phase.exec_spec (s : State) (phase : Phase) :
    phase.exec.wp s fun _ r s' => ∀ next, r = .ok next → Phase.Outcome s phase next s' := by
  have hrefresh : ∀ {phase s'}, phase.publishes = [] → Phase.Outcome s phase [.refresh] s' :=
    fun h => .edits .refresh rfl rfl h
  cases phase with
  | add o =>
      simp only [exec, Act.wp_bind, addOwnOrder, Act.wp_read, Act.afterBind_ok, Act.wp_monadLift]
      refine Act.wp_iff.mpr fun tr r _ _ => ?_
      cases r with
      | error e => simp
      | ok valid =>
          cases valid with
          | false =>
              rintro _ ⟨⟩
              exact .idle rfl rfl
          | true =>
              rintro _ ⟨⟩
              exact hrefresh rfl
  | removeById id =>
      rintro _ ⟨⟩
      exact hrefresh rfl
  | tryLock id =>
      simp only [exec, Act.wp_bind, Democrit.tryLock, Act.wp_read, Act.afterBind_ok]
      cases s.ownOrders.lookup id with
      | none =>
          rintro _ ⟨⟩
          exact .idle rfl rfl
      | some o =>
          dsimp only
          split
          · rintro _ ⟨⟩
            exact .idle rfl rfl
          · rintro _ ⟨⟩
            exact hrefresh rfl
  | unlock id =>
      simp only [exec, Act.wp_bind]
      refine Act.wp_iff.mpr fun tr r s' _ => ?_
      cases r with
      | error e => simp
      | ok _ =>
          rintro _ ⟨⟩
          exact hrefresh rfl
  | refresh =>
      simp only [exec, Act.wp_bind]
      refine Act.wp_iff.mpr fun tr r s' _ => ?_
      cases r with
      | error e => simp
      | ok _ =>
          rintro _ ⟨⟩
          exact .edits .getOrders rfl rfl rfl
  | getOrders =>
      rintro _ ⟨⟩
      exact .read
  | updateOrders orders =>
      rintro _ ⟨⟩
      exact .published orders

/-! ## The feed of own orders -/

/-- The own orders as a feed. -/
def Calls.feed (account : String) (c : Calls) : Feed OrdersOfAccount where
  now := internalGetOrders false c.state
  last := c.published.getLast?.getD (internalGetOrders false { account })
  waiting := waiting c.threads
  due := due c.threads

/-- The own orders are read only while no other call has something to broadcast that is not up to
date any more. -/
def Timely {W : Type} (x : Calls × W) : CallsLabel → Prop
  | .run .getOrders _ => ∀ orders ∈ waiting x.1.threads, orders = internalGetOrders false x.1.state
  | _ => True

/-- What waits, with one phase of a thread taken out. -/
lemma waiting_cons (before after : List (List Phase)) (phase : Phase) (rest : List Phase) :
    (waiting (before ++ (phase :: rest) :: after) : Multiset OrdersOfAccount)
      = (phase.publishes ++ waiting (before ++ rest :: after) : List OrdersOfAccount) := by
  rw [Multiset.coe_eq_coe]
  simp only [waiting, List.flatten_append, List.flatten_cons, List.flatMap_append, List.cons_append,
    List.flatMap_cons]
  exact List.perm_append_comm_assoc _ _ _

lemma due_cons (before after : List (List Phase)) (phase : Phase) (rest : List Phase) :
    due (before ++ (phase :: rest) :: after)
      = phase.reads.toNat + due (before ++ rest :: after) := by
  simp only [due, List.flatten_append, List.flatten_cons, List.countP_append, List.cons_append,
    List.countP_cons]
  cases phase.reads with
  | false => simp
  | true =>
      simp only [if_true, Bool.toNat_true]
      omega

/-- **Every step is one of the feed.** -/
lemma feed_step {W : Type} {account : String} {x : Calls × W} {c' : Calls} {l : CallsLabel}
    (hs : Calls.Step x.1 l c') (htimely : Timely x l) (hok : c'.failed = false) :
    Publication.Step (x.1.feed account) (c'.feed account) := by
  cases hs with
  | start call =>
      have hwaiting : waiting (x.1.threads ++ [[call.phase]]) = waiting x.1.threads := by
        cases call <;> simp [waiting, OrdersCall.phase, Phase.publishes]
      have hstep := Step.idle (f := x.1.feed account) (due (x.1.threads ++ [[call.phase]]))
        (by simp [Calls.feed, due])
      simpa only [Calls.feed, hwaiting] using hstep
  | @run before after phase rest tr r s' hth hx =>
      cases r with
      | error e => simp [Calls.advance] at hok
      | ok next =>
          have hout := Act.wp_iff.mp (Phase.exec_spec x.1.state phase) tr _ s' hx next rfl
          -- the feed before the step, without the phase that is run
          have hold : x.1.feed account = ⟨internalGetOrders false x.1.state,
              (x.1.feed account).last,
              (phase.publishes ++ waiting (before ++ rest :: after) : List OrdersOfAccount),
              phase.reads.toNat + due (before ++ rest :: after)⟩ := by
            rw [← waiting_cons, ← due_cons, ← hth]
            rfl
          rw [hold]
          cases hout with
          | idle hreads hpub =>
              have hstep := Step.idle (f := x.1.feed account) _ (Nat.le_refl _)
              rw [hold] at hstep
              simpa [Calls.feed, Calls.advance, hreads, hpub] using hstep
          | edits next hreads hpub hphase =>
              have hstep := Step.edit (f := x.1.feed account) (internalGetOrders false s')
                (1 + due (before ++ rest :: after)) (by omega)
              rw [hold] at hstep
              simpa [Calls.feed, Calls.advance, waiting_cons, due_cons, hreads, hpub, hphase]
                using hstep
          | read =>
              have htimely : ∀ orders ∈ (x.1.feed account).waiting,
                  orders = (x.1.feed account).now := htimely
              have hstep := Step.read (f := x.1.feed account) (due (before ++ rest :: after))
                (by rw [hold]; exact Nat.add_comm _ _) htimely
              rw [hold] at hstep
              simpa [Calls.feed, Calls.advance, waiting_cons, due_cons, Phase.reads,
                Phase.publishes] using hstep
          | published orders =>
              have hstep := Step.publish (f := x.1.feed account) orders
                (waiting (before ++ rest :: after)) (by rw [hold]; rfl)
              rw [hold] at hstep
              simpa [Calls.feed, Calls.advance, Phase.reads, Phase.publishes] using hstep

/-! ## Every run -/

section Runs

variable {W : Type} {E : Env Call Answer W} {account : String}

lemma Calls.ok_of_step {c c' : Calls} {l : CallsLabel} (hs : Calls.Step c l c')
    (hok : c'.failed = false) : c.failed = false := by
  cases hs with
  | start call => exact hok
  | @run _ _ _ _ _ r _ _ _ =>
      cases r with
      | ok next => exact hok
      | error e => simp [Calls.advance] at hok

/-- The orders that were passed to `UpdateOrders` last; none, if it was never called. -/
def Calls.advertised (c : Calls) : OrderMap := (c.published.getLast?.map (·.orders)).getD ∅

/-- **The last broadcast is up to date**: in every interleaving in which the own orders are read
only while nothing outdated waits to be broadcast, once all calls have returned, the orders passed to
the last call of `UpdateOrders` are the own orders that are not locked. -/
theorem last_broadcast_current {x : Calls × W}
    (hr : ((ordersSystem E account).restrict Timely).Reachable x)
    (hdone : ∀ th ∈ x.1.threads, th = []) (hok : x.1.failed = false) (id : UInt64) (o : Order) :
    x.1.advertised.lookup id = some o ↔
      x.1.state.ownOrders.lookup id = some o ∧ o.locked = false := by
  have hsettled : x.1.failed = false → Settled (x.1.feed account) := by
    refine Transition.System.Reachable.invariant
      (fun x => x.1.failed = false → Settled (x.1.feed account)) ?_ ?_ hr
    · intro x hx _
      rw [hx]
      exact Or.inr ⟨by simp [Calls.feed, waiting], Or.inl rfl⟩
    · rintro x l x' _ ih ⟨⟨hs, _⟩, htimely⟩ hok
      exact (feed_step hs htimely hok).settled (ih (Calls.ok_of_step hs hok))
  have hflat : x.1.threads.flatten = [] := List.flatten_eq_nil_iff.mpr hdone
  have hcurrent := (hsettled hok).current (by simp [Calls.feed, due, hflat])
    (by simp [Calls.feed, waiting, hflat])
  have hmap : x.1.advertised = (internalGetOrders false x.1.state).orders := by
    refine Eq.trans ?_ (congrArg OrdersOfAccount.orders hcurrent)
    rw [Calls.advertised, Calls.feed]
    cases x.1.published.getLast? <;> rfl
  rw [hmap, lookup_internalGetOrders]
  simp

end Runs

/-! ### Two calls at a time -/

section Scripted

variable {W : Type} (h : W → (c : Call) → Answer c × W)

/-- One step: a call comes in, or the thread at some position goes on. -/
def Calls.next (x : Calls × W) : OrdersCall ⊕ ℕ → Option (CallsLabel × (Calls × W))
  | .inl call => some (.start call, { x.1 with threads := x.1.threads ++ [[call.phase]] }, x.2)
  | .inr i =>
      match x.1.threads[i]? with
      | some (phase :: rest) =>
          let out := (phase.exec x.1.state).play h x.2
          some (.run phase out.2.1, x.1.advance (x.1.threads.take i) (x.1.threads.drop (i + 1))
            phase rest out.1.2 out.1.1, out.2.2)
      | _ => none

/-- A whole schedule, given up at the first step that is not allowed. -/
def Calls.play (allowed : Calls → CallsLabel → Bool) :
    Calls × W → List (OrdersCall ⊕ ℕ) → Option (Calls × W)
  | x, [] => some x
  | x, c :: rest => (Calls.next h x c).bind fun y =>
      if allowed x.1 y.1 then Calls.play allowed y.2 rest else none

variable {h}

lemma Calls.step_of_next {account : String} {x x' : Calls × W} {l : CallsLabel} {c : OrdersCall ⊕ ℕ}
    (hn : Calls.next h x c = some (l, x')) :
    (ordersSystem (Env.ofScript h) account).step x l x' := by
  cases c with
  | inl call =>
      cases hn
      exact ⟨.start call, rfl⟩
  | inr i =>
      simp only [Calls.next] at hn
      split at hn
      · rename_i phase rest hth
        cases hn
        obtain ⟨hlt, hget⟩ := List.getElem?_eq_some_iff.mp hth
        have hsplit : x.1.threads
            = x.1.threads.take i ++ (phase :: rest) :: x.1.threads.drop (i + 1) := by
          rw [← hget, List.getElem_cons_drop, List.take_append_drop]
        exact ⟨.run hsplit (Prog.exec_play h _ _), Prog.path_play h _ _⟩
      · simp at hn

/-- What a schedule of allowed steps leads to is reachable by them. -/
lemma Calls.reachable_of_play {account : String} {allowed : Calls → CallsLabel → Bool}
    {P : Calls × W → CallsLabel → Prop} (hP : ∀ x l, allowed x.1 l = true → P x l) :
    ∀ {cs : List (OrdersCall ⊕ ℕ)} {x x' : Calls × W},
      ((ordersSystem (Env.ofScript h) account).restrict P).Reachable x →
      Calls.play h allowed x cs = some x' →
      ((ordersSystem (Env.ofScript h) account).restrict P).Reachable x'
  | [], x, x', hr, hp => by
      obtain rfl := Option.some.inj hp
      exact hr
  | c :: cs, x, x', hr, hp => by
      simp only [Calls.play, Option.bind_eq_some_iff] at hp
      obtain ⟨⟨l, x₁⟩, hn, hp⟩ := hp
      split_ifs at hp with hok
      exact Calls.reachable_of_play hP (hr.step ⟨Calls.step_of_next hn, hP x l hok⟩) hp

/-- A schedule of allowed steps that leads to a state with `Q` shows that one is reachable. -/
lemma Calls.exists_restricted (h : W → (c : Call) → Answer c × W) (account : String) (w : W)
    (cs : List (OrdersCall ⊕ ℕ)) (allowed : Calls → CallsLabel → Bool)
    (P : Calls × W → CallsLabel → Prop) (hP : ∀ x l, allowed x.1 l = true → P x l)
    (Q : Calls × W → Bool)
    (hp : (Calls.play h allowed ({ state := { account } }, w) cs).any Q = true) :
    ∃ x, ((ordersSystem (Env.ofScript h) account).restrict P).Reachable x ∧ Q x = true := by
  obtain ⟨x, hx, hQ⟩ := (Option.any_eq_true _ _).mp hp
  have h₀ : ((ordersSystem (Env.ofScript h) account).restrict P).Reachable
      ({ state := { account } }, w) := .init rfl
  exact ⟨x, Calls.reachable_of_play hP h₀ hx, hQ⟩

end Scripted

/-- The own orders are read only while nothing waits to be broadcast. -/
def readsAlone (c : Calls) : CallsLabel → Bool
  | .run .getOrders _ => (waiting c.threads).isEmpty
  | _ => true

lemma timely_of_readsAlone {W : Type} (x : Calls × W) (l : CallsLabel)
    (h : readsAlone x.1 l = true) : Timely x l := by
  cases l with
  | start call => trivial
  | run phase tr =>
      cases phase with
      | getOrders =>
          have hnone : waiting x.1.threads = [] := List.isEmpty_iff.mp h
          simp [Timely, hnone]
      | _ => trivial

/-- An order is added, and cancelled by another thread before it is broadcast; but the one who
cancels it waits with reading the orders. -/
def timelySchedule : List (OrdersCall ⊕ ℕ) :=
  [.inl (.add offerOrder), .inr 0, .inr 0, .inr 0,
    .inl (.removeById 0), .inr 1, .inr 1, .inr 0, .inr 1, .inr 1]

/-- The same without waiting: the outdated broadcast comes last. -/
def staleSchedule : List (OrdersCall ⊕ ℕ) :=
  [.inl (.add offerOrder), .inr 0, .inr 0, .inr 0,
    .inl (.removeById 0), .inr 1, .inr 1, .inr 1, .inr 1, .inr 0]

/-- In the end, the cancelled order is not advertised. -/
theorem last_broadcast_current_cancelled : ∃ x : Calls × ℕ,
    ((ordersSystem (Env.ofScript offerScript) "maker").restrict Timely).Reachable x ∧
    x.1.published.length = 2 ∧ ∀ id o, x.1.advertised.lookup id = some o ↔
      x.1.state.ownOrders.lookup id = some o ∧ o.locked = false := by
  obtain ⟨x, hr, hQ⟩ := Calls.exists_restricted offerScript "maker" 0 timelySchedule readsAlone
    Timely timely_of_readsAlone (fun x => !x.1.failed && x.1.threads.all List.isEmpty &&
      x.1.published.length = 2) (by decide +kernel)
  simp only [Bool.and_eq_true, Bool.not_eq_true', List.all_eq_true, List.isEmpty_iff,
    decide_eq_true_eq] at hQ
  exact ⟨x, hr, hQ.2, last_broadcast_current hr hQ.1.2 hQ.1.1⟩

/-- **An outdated broadcast is the last one**: all calls have returned, the order is cancelled, and
it is still advertised. -/
theorem broadcast_stale : ∃ x : Calls × ℕ,
    (ordersSystem (Env.ofScript offerScript) "maker").Reachable x ∧ x.1.failed = false ∧
    (∀ th ∈ x.1.threads, th = []) ∧ x.1.advertised.lookup 0 = some offerOrder ∧
    x.1.state.ownOrders.lookup 0 = none := by
  obtain ⟨x, hr, hQ⟩ := Calls.exists_restricted offerScript "maker" 0 staleSchedule
    (fun _ _ => true) (fun _ _ => True) (fun _ _ _ => trivial)
    (fun x => !x.1.failed && x.1.threads.all List.isEmpty &&
      x.1.advertised.lookup 0 = some offerOrder && x.1.state.ownOrders.lookup 0 = none)
    (by decide +kernel)
  simp only [Bool.and_eq_true, Bool.not_eq_true', List.all_eq_true, List.isEmpty_iff,
    decide_eq_true_eq] at hQ
  exact ⟨x, hr.of_restrict, hQ.1.1.1, hQ.1.1.2, hQ.1.2, hQ.2⟩

end Democrit
