import Democrit.Network.Private

/-!
# When the daemon on XMPP aborts

The handlers of `Daemon::Impl` run into assertions of several classes: those of the authenticator, of
the room, of the order book and of the sending.  `Fatal` says of a state and a step that one of them
fails.  **Nothing else aborts the process** (`aborts_iff`): in particular, no user name makes the
authenticator fail, a participant who leaves does no harm, the queries always find the book in order,
and what is broadcast as our orders has our account.

What remains is of three kinds.  The server breaks the rules of the room; a broadcast has an order
that is accepted although it has no type; or **a thread sends something while there is no
connection**, for which the code has no other answer than the assertion: a message for an order that
is taken while we are offline, or one that is on its way when the connection ends.
-/

namespace Democrit

open Interaction

variable {W : Type} {cfg : Config} {E : Env Call Answer W} {login : Login}

/-! ## What is fatal -/

/-- The game does not take the empty string for an asset. -/
def Impl.Event.RejectsEmpty : Impl.Event → Prop
  | .groupchat _ _ spec _ _ => spec.isAsset "" = false
  | _ => True

/-- The events of a run with such a game. -/
def RejectsEmpty (_ : Impl × W) (l : Impl.Label) : Prop := ∀ e, l = .event e → e.RejectsEmpty

/-! ## What is published -/

/-- Only `UpdateOrders` publishes. -/
lemma published_of_exec {s s' : State} {task : Task} {tr : Conversation} {eff : Effect}
    (hx : (exec cfg task s).Exec tr (.ok eff, s')) {orders : OrdersOfAccount}
    (hpub : eff.published = some orders) : task = .updateOrders orders := by
  have hspec : (exec cfg task).wp s fun _ r _ => ∀ eff, r = .ok eff →
      eff.published = some orders → task = .updateOrders orders := by
    cases task with
    | updateOrders orders' =>
        rintro _ ⟨⟩ ⟨⟩
        rfl
    | getOrders => simp [exec, Act.wp_bind]
    | remove _ => simp [exec, removeById, Act.wp_bind]
    | refresh | process _ | takeOrder _ _ | unlockOutput _ _ | readInputs _ | updateTrades | unlock _ =>
        simp only [exec, Act.wp_bind]
        refine Act.wp_iff.mpr fun tr r s' _ => ?_
        cases r <;> simp
    | add _ | orderTaken _ _ _ =>
        simp only [exec, Act.wp_bind]
        refine Act.wp_iff.mpr fun tr r s' _ => ?_
        rcases r with _ | _ | _ <;> simp
    | receive msg =>
        simp only [exec, receive, Act.wp_bind, wp_check, Act.afterBind_ok, Act.afterBind_error]
        refine ⟨fun _ => ?_, by simp⟩
        cases msg.takingOrder with
        | none => simp
        | some taking =>
            simp only [Act.wp_bind]
            refine Act.wp_iff.mpr fun tr r s' _ => ?_
            rcases r with _ | _ | _ <;> simp
    | handle t =>
        simp only [exec, handleFinalised, Act.wp_bind, Act.wp_read, Act.afterBind_ok]
        cases t.getState with
        | initiated | pending => simp
        | abandoned | failed =>
            dsimp only
            split
            · simp only [Act.wp_bind]
              refine Act.wp_iff.mpr fun tr r s' _ => ?_
              cases r <;> simp
            · simp
        | success =>
            dsimp only
            split
            · simp only [removeById, Act.wp_bind, Act.wp_read, Act.afterBind_ok, Act.wp_write]
              split <;> simp
            · simp
  exact Act.wp_iff.mp hspec tr _ s' hx eff rfl hpub

/-- What is to be published was just read. -/
lemma read_of_exec {s s' : State} {task : Task} {tr : Conversation} {eff : Effect}
    (hx : (exec cfg task s).Exec tr (.ok eff, s')) {orders : OrdersOfAccount}
    (hnext : .updateOrders orders ∈ eff.next) :
    task = .getOrders ∧ orders = internalGetOrders false s := by
  have hleads := leads_of_exec hx _ hnext
  cases task with
  | getOrders =>
      have hspec : (exec cfg .getOrders).wp s fun _ r _ => ∀ eff, r = .ok eff →
          .updateOrders orders ∈ eff.next → orders = internalGetOrders false s := by
        rintro _ ⟨⟩ hmem
        have heq := List.mem_singleton.mp hmem
        injection heq
      exact ⟨rfl, Act.wp_iff.mp hspec tr _ s' hx eff rfl hnext⟩
  | _ => cases hleads

/-! ## The handlers -/

/-- What is said of each handler: it fails an assertion exactly if the step is fatal, and otherwise it
keeps the book in order. -/
def Impl.Decided (r : Except DaemonCheck Impl) (fatal : Prop) : Prop :=
  (∃ c, r = .error c) ∧ fatal ∨ ¬ fatal ∧ ∃ d', r = .ok d' ∧ BookOk d'.allOrders

lemma Impl.Decided.returns {d' : Impl} {fatal : Prop} (hno : ¬ fatal) (h : BookOk d'.allOrders) :
    Impl.Decided (.ok d') fatal := Or.inr ⟨hno, d', rfl, h⟩

/-- The book is in order, and what waits to be broadcast has our account. -/
structure Impl.Sane (login : Login) (d : Impl) : Prop where
  book : BookOk d.allOrders
  account : d.sys.state.account = login.account
  tasks : ∀ th ∈ d.sys.threads, ∀ orders, .updateOrders orders ∈ th.tasks →
    orders.account = login.account
  outbox : ∀ orders, .updateOrders orders ∈ d.outbox → orders.account = login.account

lemma Impl.Sane.own {d : Impl} {l : Democrit.Label} {σ' : Sys} (h : d.Sane login)
    (hs : Sys.Step cfg d.sys l σ') (haccount : σ'.state.account = login.account) :
    Impl.Sane login { d with sys := σ', outbox := d.outbox ++ l.outgoing } := by
  cases hs with
  | start op _ =>
      refine ⟨h.book, h.account, fun th hth orders hmem => ?_,
        by simpa [Label.outgoing] using h.outbox⟩
      rcases List.mem_append.mp hth with hth | hth
      · exact h.tasks th hth orders hmem
      · obtain rfl := List.mem_singleton.mp hth
        cases op <;> simp [Op.tasks, refreshTasks] at hmem
  | @run before after op task rest tr r s' _ hth hx =>
      have old : ∀ th ∈ before ++ ⟨op, task :: rest⟩ :: after, ∀ orders,
          .updateOrders orders ∈ th.tasks → orders.account = login.account :=
        fun th hm => h.tasks th (by rwa [hth])
      refine ⟨h.book, haccount, fun th hm orders hmem => ?_, fun orders hmem => ?_⟩
      · rcases List.mem_append.mp hm with hm | hm
        · exact old th (by simp [hm]) orders hmem
        · rcases List.mem_cons.mp hm with rfl | hm
          · cases r with
            | error e => simp [continuation] at hmem
            | ok eff =>
                rcases List.mem_append.mp hmem with hmem | hmem
                · obtain ⟨_, rfl⟩ := read_of_exec hx hmem
                  exact h.account
                · exact old ⟨op, task :: rest⟩ (by simp) orders (by simp [hmem])
          · exact old th (by simp [hm]) orders hmem
      · rcases List.mem_append.mp hmem with hmem | hmem
        · exact h.outbox orders hmem
        · cases r with
          | error e => simp [Label.outgoing, Record.outgoing] at hmem
          | ok eff =>
              have hpub : eff.published = some orders := by
                simpa [Label.outgoing, Record.outgoing] using hmem
              obtain rfl := published_of_exec hx hpub
              exact old ⟨op, .updateOrders orders :: rest⟩ (by simp) orders (by simp)

lemma Impl.Sane.handled {d d' : Impl} {e : Impl.Event} (h : d.Sane login) (hd : d.Handled e d')
    (hbook : BookOk d'.allOrders) : d'.Sane login := by
  cases hd with
  | told => exact ⟨hbook, h.account, h.tasks, h.outbox⟩
  | called =>
      refine ⟨hbook, h.account, fun th hth orders hmem => ?_, h.outbox⟩
      rcases List.mem_append.mp hth with hth | hth
      · exact h.tasks th hth orders hmem
      · obtain rfl := List.mem_singleton.mp hth
        simp [Op.tasks] at hmem

end Democrit
