import Democrit.Safety.Exceptions

/-!
# What a message can touch

A message names an order to take and a trade that it is about, and the sender chooses both.  So one
call of `ProcessMessage` can create a trade and drive another one; between the two it refreshes our
own orders.

`MessageSection` lists what the sections of the call can do, and `RunsAlone` puts them together.
`message_frame_iff` is the result: in **every call**, whichever way it ends, everything that is not
the sender's business is left alone, exactly if no refresh in it fails after it has found an order
valid.
-/

namespace Democrit

open Interaction

variable {cfg : Config}

/-! ## The sections of a call -/

/-- A task of the call for `msg`. -/
def Task.serves (msg : ProcessingMessage) : Task → Prop
  | .receive m | .process m => m = msg
  | .orderTaken _ taking m => m = msg ∧ msg.takingOrder = some taking
  | .unlock id => ∃ taking, msg.takingOrder = some taking ∧ taking.id = id
  | .refresh | .getOrders | .updateOrders _ => True
  | _ => False

/-- **Everything a section of `ProcessMessage` can do.** -/
inductive MessageSection (cfg : Config) (msg : ProcessingMessage) (s : State) :
    Task → Conversation → Except Fail Effect → State → Prop
  | anonymous : MessageSection cfg msg s (.receive msg) [] (.error (.check .counterparty)) s
  | receives : MessageSection cfg msg s (.receive msg) [] (.ok { next := [.process msg] }) s
  | unavailable : MessageSection cfg msg s (.receive msg) [] (.ok {}) s
  | locks {taking o} (hmsg : msg.takingOrder = some taking)
      (ho : s.ownOrders.lookup taking.id = some o) :
      MessageSection cfg msg s (.receive msg) []
        (.ok { next := refreshTasks ++
          [.orderTaken { o with account := some s.account, id := some taking.id } taking msg] })
        { s with ownOrders := s.ownOrders.insert taking.id { o with locked := true } }
  | refreshes {tr bs} (hv : Validates s.account s.ownOrders.entries tr bs) :
      MessageSection cfg msg s .refresh tr (.ok {})
        { s with ownOrders := accept s.ownOrders.entries bs ∅ }
  | refreshFails {before bs id o after tr e} (h : RefreshFailsAt s before bs id o after tr e) :
      MessageSection cfg msg s .refresh tr (.error e)
        { s with ownOrders := emptied before bs s.ownOrders }
  | reads : MessageSection cfg msg s .getOrders []
      (.ok { next := [.updateOrders (internalGetOrders false s)] }) s
  | publishes {orders} : MessageSection cfg msg s (.updateOrders orders) []
      (.ok { published := some orders }) s
  | creates {o taking now} :
      MessageSection cfg msg s (.orderTaken o taking msg) [⟨.clock, now⟩]
        (.ok { next := [.process msg] })
        { s with
          trades := s.trades ++ [newTrade o taking.units.toInt64 (msg.counterparty.getD "") now
            (s.created + 1)]
          created := s.created + 1 }
  | refuses {o taking tr} : MessageSection cfg msg s (.orderTaken o taking msg) tr
      (.ok { next := [.unlock taking.id] }) s
  | foreign {o taking tr} : MessageSection cfg msg s (.orderTaken o taking msg) tr
      (.error (.check .ownAccount)) s
  | unlocks {id o} (ho : s.ownOrders.lookup id = some o) :
      MessageSection cfg msg s (.unlock id) [] (.ok { next := refreshTasks })
        { s with ownOrders := s.ownOrders.insert id { o with locked := false } }
  | stuck {id c} : MessageSection cfg msg s (.unlock id) [] (.error (.check c)) s
  | noMatch : MessageSection cfg msg s (.process msg) [] (.ok {}) s
  | processed {before t after tr r t'} (hs : s.trades = before ++ t :: after)
      (hm : tradeMatches msg t = true)
      (h : HasReply.Outcome cfg s.account (handleMessage s.account msg t) tr r t') :
      MessageSection cfg msg s (.process msg) tr (.ok { reply := caught r })
        { s with trades := before ++ t' :: after }
  | aborted {tr c} : MessageSection cfg msg s (.process msg) tr (.error (.check c)) s

private lemma receive_sections (msg : ProcessingMessage) (s : State) :
    (receive msg).wp s (MessageSection cfg msg s (.receive msg)) := by
  simp only [receive, Act.wp_bind, wp_check, Act.afterBind_ok, Act.afterBind_error]
  refine ⟨fun _ => ?_, fun _ => .anonymous⟩
  cases hmsg : msg.takingOrder with
  | none => exact .receives
  | some taking =>
      simp only [tryLock, Act.wp_bind, Act.wp_read, Act.afterBind_ok]
      cases ho : s.ownOrders.lookup taking.id with
      | none => exact .unavailable
      | some o =>
          dsimp only
          split
          · exact .unavailable
          · exact .locks hmsg ho

private lemma refresh_sections (msg : ProcessingMessage) (s : State) :
    (exec cfg .refresh).wp s (MessageSection cfg msg s .refresh) := by
  simp only [exec, Act.wp_bind]
  refine Act.wp_iff.mpr fun tr r s' hx => ?_
  cases r with
  | ok _ =>
      obtain ⟨_, _, hok⟩ := Act.wp_iff.mp (runRefresh_spec s) _ _ _ hx
      obtain ⟨bs, hv, rfl⟩ := hok rfl
      simpa using MessageSection.refreshes hv
  | error e =>
      obtain ⟨before, bs, id, o, after, h⟩ := runRefresh_fails_iff.mp ⟨s', hx⟩
      rw [(sameOrders_of_fails h hx).1]
      simpa using MessageSection.refreshFails h

private lemma unlock_sections (msg : ProcessingMessage) (id : UInt64) (s : State) :
    (exec cfg (.unlock id)).wp s (MessageSection cfg msg s (.unlock id)) := by
  simp only [exec, unlock, Act.wp_bind, Act.wp_read, Act.afterBind_ok]
  cases ho : s.ownOrders.lookup id with
  | none => exact .stuck
  | some o =>
      simp only [Act.wp_bind, wp_check, Act.afterBind_ok, Act.afterBind_error, Act.wp_write]
      exact ⟨fun _ => .unlocks ho, fun _ => .stuck⟩

/-- **The list is complete.** -/
theorem messageSection_of_exec {msg : ProcessingMessage} {task : Task} (hserves : task.serves msg)
    {s s' : State} {tr : Conversation} {r : Except Fail Effect}
    (hx : (exec cfg task s).Exec tr (r, s')) : MessageSection cfg msg s task tr r s' := by
  suffices h : (exec cfg task).wp s (MessageSection cfg msg s task) from
    Act.wp_iff.mp h tr r s' hx
  cases task with
  | receive m =>
      obtain rfl : m = msg := hserves
      exact receive_sections m s
  | refresh => exact refresh_sections msg s
  | getOrders => exact .reads
  | updateOrders orders => exact .publishes
  | orderTaken o taking m =>
      obtain ⟨rfl, _⟩ := hserves
      simp only [exec, Act.wp_bind]
      refine Act.wp_mono (orderTaken_spec s o _ _) fun tr r s' h => ?_
      cases h with
      | refused _ => exact .refuses
      | foreign _ _ => exact .foreign
      | created _ _ _ => exact .creates
  | unlock id => exact unlock_sections msg id s
  | process m =>
      obtain rfl : m = msg := hserves
      simp only [exec, Act.wp_bind]
      refine Act.wp_mono (processMessage_spec s m) fun tr r s' h => ?_
      cases h with
      | noMatch _ => exact .noMatch
      | processed hs _ hm h _ =>
          simp only [Act.afterBind_ok, Act.wp_pure, List.append_nil]
          exact .processed hs hm h
      | aborted _ _ _ _ => exact .aborted
  | _ => exact hserves.elim

/-- The tasks that follow belong to the call as well. -/
lemma MessageSection.serves_next {msg : ProcessingMessage} {task : Task} (hserves : task.serves msg)
    {s s' : State} {tr : Conversation} {eff : Effect}
    (h : MessageSection cfg msg s task tr (.ok eff) s') : ∀ x ∈ eff.next, x.serves msg := by
  have hrefresh : ∀ x ∈ refreshTasks, x.serves msg := by
    intro x hx
    simp only [refreshTasks, List.mem_cons, List.not_mem_nil, or_false] at hx
    rcases hx with rfl | rfl <;> trivial
  have hone : ∀ {x : Task}, x.serves msg → ∀ y ∈ [x], y.serves msg := by
    intro x hx y hy
    rw [List.mem_singleton.mp hy]
    exact hx
  cases h with
  | receives => exact hone rfl
  | locks hmsg _ =>
      intro x hx
      rcases List.mem_append.mp hx with hx | hx
      · exact hrefresh x hx
      · exact hone (x := .orderTaken _ _ _) ⟨rfl, hmsg⟩ x hx
  | reads => exact hone trivial
  | creates => exact hone rfl
  | refuses => exact hone ⟨_, hserves.2, rfl⟩
  | unlocks _ => exact hrefresh
  | _ => simp

/-- A thread that runs alone, from `s` on: the tasks that it has left, the sections that it runs, and
the state when it is done.  A section that fails is its last one. -/
inductive RunsAlone (cfg : Config) (op : Op) : List Task → State → List Record → State → Prop
  | done {s} : RunsAlone cfg op [] s [] s
  | step {task rest s tr eff s₁ recs s'} (hx : (exec cfg task s).Exec tr (.ok eff, s₁))
      (h : RunsAlone cfg op (eff.next ++ rest) s₁ recs s') :
      RunsAlone cfg op (task :: rest) s (⟨op, task, s, tr, .ok eff, s₁⟩ :: recs) s'
  | fails {task rest s tr e s'} (hx : (exec cfg task s).Exec tr (.error e, s')) :
      RunsAlone cfg op (task :: rest) s [⟨op, task, s, tr, .error e, s'⟩] s'

/-- No refresh fails after it has found an order valid. -/
def Unbroken (recs : List Record) : Prop :=
  ∀ rec ∈ recs, rec.task = .refresh → ∀ before bs id o after e,
    RefreshFailsAt rec.pre before bs id o after rec.talk e → ∀ b ∈ bs, b = false

/-! ## Own orders -/

/-- A refresh dropped the order, since `ValidateOrder` rejected it. -/
def Rejected (recs : List Record) (id : UInt64) : Prop :=
  ∃ rec ∈ recs, rec.task = .refresh ∧ ∃ o tr₁ tr₂ tr₃, rec.pre.ownOrders.lookup id = some o ∧
    rec.talk = tr₁ ++ tr₂ ++ tr₃ ∧ (validateOrder rec.pre.account o ()).Exec tr₂ (.ok false, ())

/-- What may have become of what is stored under an id: it is as before, or only its lock has
changed and it is the order that the message takes, or it was rejected. -/
inductive OrderKept (msg : ProcessingMessage) (recs : List Record) (id : UInt64) :
    Option Order → Option Order → Prop
  | same {x} : OrderKept msg recs id x x
  | locked {taking o b} (hmsg : msg.takingOrder = some taking) (hid : taking.id = id) :
      OrderKept msg recs id (some o) (some { o with locked := b })
  | dropped {x} (h : Rejected recs id) : OrderKept msg recs id x none

lemma Rejected.mono {recs recs' : List Record} {id : UInt64} (hsub : recs ⊆ recs')
    (h : Rejected recs id) : Rejected recs' id := by
  obtain ⟨rec, hrec, h⟩ := h
  exact ⟨rec, hsub hrec, h⟩

lemma OrderKept.mono {msg : ProcessingMessage} {recs recs' : List Record} {id : UInt64}
    {x y : Option Order} (hsub : recs ⊆ recs') (h : OrderKept msg recs id x y) :
    OrderKept msg recs' id x y := by
  cases h with
  | same => exact .same
  | locked hmsg hid => exact .locked hmsg hid
  | dropped h => exact .dropped (h.mono hsub)

lemma OrderKept.trans {msg : ProcessingMessage} {recs : List Record} {id : UInt64}
    {x y z : Option Order} (h : OrderKept msg recs id x y) (h' : OrderKept msg recs id y z) :
    OrderKept msg recs id x z := by
  cases h' with
  | same => exact h
  | dropped h' => exact .dropped h'
  | @locked _ o b hmsg hid =>
      generalize hy : some o = y at h
      cases h with
      | same =>
          rw [← hy]
          exact .locked hmsg hid
      | locked =>
          obtain rfl := Option.some.inj hy
          exact @OrderKept.locked msg recs id _ _ b hmsg hid
      | dropped => cases hy

/-- What is there still has the units it had. -/
lemma OrderKept.units {msg : ProcessingMessage} {recs : List Record} {id : UInt64}
    {x : Option Order} {o : Order} (h : OrderKept msg recs id x (some o)) :
    ∃ o₀, x = some o₀ ∧ o₀.maxUnits = o.maxUnits := by
  cases h with
  | same => exact ⟨o, rfl, rfl⟩
  | locked => exact ⟨_, rfl, rfl⟩

/-- What a refresh keeps of an order. -/
lemma lookup_accept_of_validates {account : String} {entries : List ((_ : UInt64) × Order)}
    {tr : Conversation} {bs : List Bool} (h : Validates account entries tr bs)
    (hnodup : entries.NodupKeys) {id : UInt64} {o : Order} (hmem : ⟨id, o⟩ ∈ entries) :
    ∀ m : OrderMap, (accept entries bs m).lookup id = some o ∨
      (accept entries bs m).lookup id = m.lookup id ∧ ∃ tr₁ tr₂ tr₃, tr = tr₁ ++ tr₂ ++ tr₃ ∧
        (validateOrder account o ()).Exec tr₂ (.ok false, ()) := by
  induction h with
  | nil => simp at hmem
  | @cons i o' rest tr tr' b bs hx h ih =>
      intro m
      obtain ⟨hkey, hnodup⟩ := List.nodupKeys_cons.mp hnodup
      rcases List.mem_cons.mp hmem with heq | hrest
      · cases heq
        have hother : ∀ e ∈ rest, e.1 ≠ id := by
          intro e he heq
          have : e.1 ∈ rest.keys := List.mem_map_of_mem he
          rw [heq] at this
          exact hkey this
        cases b with
        | true =>
            rw [accept, lookup_accept_of_notMem hother]
            exact Or.inl (AList.lookup_insert _)
        | false =>
            rw [accept, lookup_accept_of_notMem hother]
            exact Or.inr ⟨rfl, [], tr, tr', by simp, hx⟩
      · have hne : id ≠ i := by
          rintro rfl
          have hmem : (⟨id, o⟩ : (_ : UInt64) × Order).1 ∈ rest.keys := List.mem_map_of_mem hrest
          exact hkey hmem
        have further : (∃ tr₁ tr₂ tr₃, tr' = tr₁ ++ tr₂ ++ tr₃ ∧
              (validateOrder account o ()).Exec tr₂ (.ok false, ())) →
            ∃ tr₁ tr₂ tr₃, tr ++ tr' = tr₁ ++ tr₂ ++ tr₃ ∧
              (validateOrder account o ()).Exec tr₂ (.ok false, ()) := by
          rintro ⟨tr₁, tr₂, tr₃, rfl, hx⟩
          exact ⟨tr ++ tr₁, tr₂, tr₃, by simp, hx⟩
        cases b with
        | true =>
            rw [accept]
            rcases ih hnodup hrest (m.insert i o') with hkept | ⟨hsame, hx⟩
            · exact Or.inl hkept
            · rw [AList.lookup_insert_ne hne] at hsame
              exact Or.inr ⟨hsame, further hx⟩
        | false =>
            rw [accept]
            rcases ih hnodup hrest m with hin | ⟨hsame, hx⟩
            · exact Or.inl hin
            · exact Or.inr ⟨hsame, further hx⟩

/-- **One section** keeps the orders. -/
lemma MessageSection.orders {msg : ProcessingMessage} {task : Task} (hserves : task.serves msg)
    {op : Op} {s s' : State} {tr : Conversation} {r : Except Fail Effect}
    (h : MessageSection cfg msg s task tr r s') (hun : Unbroken [⟨op, task, s, tr, r, s'⟩])
    (id : UInt64) :
    OrderKept msg [⟨op, task, s, tr, r, s'⟩] id (s.ownOrders.lookup id) (s'.ownOrders.lookup id) := by
  -- only the lock of the order that is taken changes
  have relocked : ∀ {taking : TakingOrder} {o : Order} (b : Bool), msg.takingOrder = some taking →
      s.ownOrders.lookup taking.id = some o → ∀ recs, OrderKept msg recs id (s.ownOrders.lookup id)
        ((s.ownOrders.insert taking.id { o with locked := b }).lookup id) := by
    intro taking o b hmsg ho recs
    by_cases hid : id = taking.id
    · subst hid
      rw [ho, AList.lookup_insert]
      exact .locked hmsg rfl
    · rw [AList.lookup_insert_ne hid]
      exact .same
  cases h with
  | locks hmsg ho => exact relocked true hmsg ho _
  | unlocks ho =>
      obtain ⟨taking, hmsg, rfl⟩ := hserves
      exact relocked false hmsg ho _
  | refreshes hv =>
      cases ho : s.ownOrders.lookup id with
      | none =>
          have hnot : ∀ e ∈ s.ownOrders.entries, e.1 ≠ id := by
            rintro ⟨i, o⟩ he rfl
            rw [← AList.mem_lookup_iff, ho] at he
            cases he
          rw [lookup_accept_of_notMem hnot]
          exact .same
      | some o =>
          rcases lookup_accept_of_validates hv s.ownOrders.nodupKeys (AList.mem_lookup_iff.mp ho) ∅
            with hkept | ⟨hnone, tr₁, tr₂, tr₃, htr, hx⟩
          · rw [hkept]
            exact .same
          · rw [hnone]
            exact .dropped ⟨_, List.mem_singleton_self _, rfl, o, tr₁, tr₂, tr₃, ho, htr, hx⟩
  | refreshFails h =>
      rw [emptied_of_none (hun _ (List.mem_singleton_self _) rfl _ _ _ _ _ _ h)]
      exact .same
  | _ => exact .same

/-- The refresh, if the validation of an order fails. -/
lemma refresh_exec {s : State} {before after : List ((_ : UInt64) × Order)} {bs : List Bool}
    {id : UInt64} {o : Order} {tr : Conversation} {e : Fail}
    (h : RefreshFailsAt s before bs id o after tr e) :
    (exec cfg .refresh s).Exec tr
      (.error e, { s with ownOrders := emptied before bs s.ownOrders }) := by
  rw [Act.exec_iff]
  intro Q hQ
  simp only [exec, Act.wp_bind] at hQ
  have := Act.wp_iff.mp hQ _ _ _ (runRefresh_fails h)
  simpa using this

section

variable {msg : ProcessingMessage} {op : Op} {tasks : List Task} {s s' : State} {recs : List Record}

/-- A section that returns was not broken off. -/
lemma unbroken_of_returned {task : Task} {tr : Conversation} {eff : Effect}
    (hx : (exec cfg task s).Exec tr (.ok eff, s')) :
    Unbroken [⟨op, task, s, tr, .ok eff, s'⟩] := by
  rintro rec hrec htask before bs id o after e hfails
  rw [List.mem_singleton.mp hrec] at htask hfails
  obtain rfl : task = .refresh := htask
  obtain ⟨_, heq, _⟩ :=
    @Prog.exec_unique _ _ _ _ tr tr [] [] _ _ hx (@refresh_exec cfg _ _ _ _ _ _ _ _ hfails) rfl
  cases (Prod.mk.inj heq).1

lemma Unbroken.cons {rec : Record} (h : Unbroken [rec]) (hun : Unbroken recs) :
    Unbroken (rec :: recs) := by
  intro rec' hrec
  rcases List.mem_cons.mp hrec with rfl | hrec
  · exact h _ (List.mem_singleton_self _)
  · exact hun rec' hrec

/-- The section returned. -/
def Record.returns (rec : Record) : Bool :=
  match rec.outcome with
  | .ok _ => true
  | .error _ => false

/-- Nor is a call broken off in which every section returns. -/
lemma RunsAlone.unbroken (h : RunsAlone cfg op tasks s recs s')
    (hreturns : ∀ rec ∈ recs, rec.returns = true) : Unbroken recs := by
  induction h with
  | done => simp [Unbroken]
  | step hx _ ih =>
      exact (unbroken_of_returned hx).cons (ih (List.forall_mem_cons.mp hreturns).2)
  | fails => exact absurd (hreturns _ (List.mem_singleton_self _)) (by simp [Record.returns])

/-- What follows a section of the call belongs to it as well. -/
lemma serves_rest {task : Task} {rest : List Task} {tr : Conversation} {eff : Effect}
    (hserves : ∀ x ∈ task :: rest, x.serves msg) (h : MessageSection cfg msg s task tr (.ok eff) s') :
    ∀ x ∈ eff.next ++ rest, x.serves msg := by
  intro x hx
  rcases List.mem_append.mp hx with hx | hx
  · exact h.serves_next (hserves _ List.mem_cons_self) x hx
  · exact hserves x (List.mem_cons_of_mem _ hx)

/-- **A whole call** keeps the orders, if no refresh in it is broken off. -/
lemma RunsAlone.orders (h : RunsAlone cfg op tasks s recs s') (hserves : ∀ x ∈ tasks, x.serves msg)
    (hun : Unbroken recs) (id : UInt64) :
    OrderKept msg recs id (s.ownOrders.lookup id) (s'.ownOrders.lookup id) := by
  induction h with
  | done => exact .same
  | step hx _ ih =>
      have hsection := messageSection_of_exec (hserves _ List.mem_cons_self) hx
      have hfirst := @MessageSection.orders cfg msg _ (hserves _ List.mem_cons_self) op _ _ _ _
        hsection (fun rec hrec => hun rec (by simp [List.mem_singleton.mp hrec])) id
      have hrest := ih (serves_rest hserves hsection)
        (fun rec hrec => hun rec (List.mem_cons_of_mem _ hrec))
      exact (hfirst.mono (by simp)).trans (hrest.mono (List.subset_cons_self _ _))
  | fails hx =>
      exact (messageSection_of_exec (hserves _ List.mem_cons_self) hx).orders
        (hserves _ List.mem_cons_self) hun id

/-- If a refresh in it is broken off, then an order with units ends as an empty message. -/
lemma RunsAlone.broken (h : RunsAlone cfg op tasks s recs s') (hserves : ∀ x ∈ tasks, x.serves msg)
    (hbroken : ¬ Unbroken recs) : ∃ id o recs',
      OrderKept msg recs' id (s.ownOrders.lookup id) (some o) ∧
      o.maxUnits ≠ 0 ∧ s'.ownOrders.lookup id = some {} := by
  induction h with
  | done => exact absurd (by simp [Unbroken]) hbroken
  | @step task rest s tr eff s₁ recs s' hx _ ih =>
      have hsection := messageSection_of_exec (hserves _ List.mem_cons_self) hx
      -- a section that returns is not the broken one
      have hfirst : Unbroken [⟨op, task, s, tr, .ok eff, s₁⟩] := unbroken_of_returned hx
      obtain ⟨id, o, recs', hkept, hunits, hempty⟩ :=
        ih (serves_rest hserves hsection) fun hun => hbroken (hfirst.cons hun)
      have hbefore := hsection.orders (hserves _ List.mem_cons_self) hfirst id
      exact ⟨id, o, _, (hbefore.mono (List.subset_append_left _ recs')).trans
        (hkept.mono (List.subset_append_right _ _)), hunits, hempty⟩
  | @fails task rest s tr e s' hx =>
      simp only [Unbroken, List.mem_singleton, forall_eq, not_forall] at hbroken
      obtain ⟨htask, before, bs, id, o, after, e', hfails, b, hb, hvalid⟩ := hbroken
      obtain rfl : task = .refresh := htask
      obtain ⟨_, heq, _⟩ :=
        @Prog.exec_unique _ _ _ _ tr tr [] [] _ _ hx (@refresh_exec cfg _ _ _ _ _ _ _ _ hfails) rfl
      obtain rfl := (Prod.mk.inj heq).2
      obtain ⟨horders, _, _, _, hv, _⟩ := hfails
      obtain ⟨i, o', hmem, hunits, hempty⟩ := exists_emptied hv ⟨b, hb, by simpa using hvalid⟩
      have hlookup : s.ownOrders.lookup i = some o' := by
        rw [← Option.mem_def, AList.mem_lookup_iff, horders]
        exact List.mem_append_left _ hmem
      refine ⟨i, o', [], ?_, hunits, hempty _⟩
      rw [hlookup]
      exact .same

end

/-! ## Trades and replies -/

/-- At most one trade has changed, and it is one with the sender and with the identifier that the
message gives. -/
def OneChanged (msg : ProcessingMessage) (trades trades' : List TradeState) : Prop :=
  trades' = trades ∨ ∃ before t t' after, trades = before ++ t :: after ∧
    trades' = before ++ t' :: after ∧ t.counterparty = msg.counterparty.getD "" ∧
    getIdentifier t = msg.identifier.getD ""

/-- The reply goes to the sender, and carries the identifier of the message. -/
def Answers (msg reply : ProcessingMessage) : Prop :=
  reply.counterparty = some (msg.counterparty.getD "") ∧
    reply.identifier = some (msg.identifier.getD "")

/-- What becomes of the trades: the archive is as before, at most one trade has changed, and there is
at most one new one, which is as in `mine`. -/
structure TradesKept (msg : ProcessingMessage) (mine : TradeState → Prop) (s : State)
    (recs : List Record) (s' : State) : Prop where
  archive : s'.tradeArchive = s.tradeArchive
  trades : ∃ kept new, s'.trades = kept ++ new ∧ OneChanged msg s.trades kept ∧
    (new = [] ∨ ∃ t, new = [t] ∧ mine t)
  replies : ∀ rec ∈ recs, ∀ reply, rec.reply = some reply → Answers msg reply

/-- The new trade, if `o` is the order that the message takes. -/
structure TakenBy (msg : ProcessingMessage) (o : Order) (taking : TakingOrder) (t : TradeState) :
    Prop where
  order : t.order = o
  units : t.units = taking.units
  counterparty : t.counterparty = msg.counterparty.getD ""

lemma TakenBy.of_frame {msg : ProcessingMessage} {o : Order} {taking : TakingOrder}
    {t t' : TradeState} (hf : Frame t t') (h : TakenBy msg o taking t) : TakenBy msg o taking t' :=
  ⟨hf.order.trans h.order, hf.units.trans h.units, hf.counterparty.trans h.counterparty⟩

/-- A task that leaves the trades alone. -/
def Task.idle : Task → Prop
  | .refresh | .getOrders | .updateOrders _ | .unlock _ => True
  | _ => False

lemma refreshTasks_idle : ∀ x ∈ refreshTasks, x.idle := by
  intro x hx
  simp only [refreshTasks, List.mem_cons, List.not_mem_nil, or_false] at hx
  rcases hx with rfl | rfl <;> trivial

lemma MessageSection.idle {msg : ProcessingMessage} {task : Task} (hidle : task.idle)
    {s s' : State} {tr : Conversation} {r : Except Fail Effect}
    (h : MessageSection cfg msg s task tr r s') :
    SameTrades s s' ∧ ∀ eff, r = .ok eff → eff.reply = none ∧ ∀ x ∈ eff.next, x.idle := by
  cases h with
  | refreshes => exact ⟨⟨rfl, rfl, rfl, rfl⟩, by rintro _ ⟨⟩; simp⟩
  | refreshFails => exact ⟨⟨rfl, rfl, rfl, rfl⟩, by rintro _ ⟨⟩⟩
  | reads =>
      refine ⟨.refl s, ?_⟩
      rintro _ ⟨⟩
      refine ⟨rfl, fun x hx => ?_⟩
      rw [List.mem_singleton.mp hx]
      trivial
  | publishes => exact ⟨.refl s, by rintro _ ⟨⟩; simp⟩
  | unlocks => exact ⟨⟨rfl, rfl, rfl, rfl⟩, by rintro _ ⟨⟩; exact ⟨rfl, refreshTasks_idle⟩⟩
  | stuck => exact ⟨.refl s, by rintro _ ⟨⟩⟩
  | _ => exact hidle.elim

/-- What `HasReply` answers is about the trade. -/
lemma HasReply.Outcome.answers {account : String} {t t' : TradeState} {tr : Conversation}
    {r : Except Fail (Option ProcessingMessage)} (h : HasReply.Outcome cfg account t tr r t')
    {reply : ProcessingMessage} (hr : caught r = some reply) :
    reply.counterparty = some t.counterparty ∧ reply.identifier = some (getIdentifier t) := by
  -- a reply is one that `InitProcessingMessage` has set up
  have answered : ∀ {pb : TradeState} {sd psbt}, some { initProcessingMessage pb with
      sellerData := sd, psbt := psbt } = some reply →
      reply.counterparty = some pb.counterparty ∧ reply.identifier = some (getIdentifier pb) := by
    rintro pb sd psbt ⟨⟩
    exact ⟨rfl, rfl⟩
  have silent : ∀ {r}, NoReply r → caught r ≠ some reply := by
    rintro _ (rfl | ⟨e, rfl⟩) <;> exact nofun
  cases h with
  | rest _ hno => exact absurd hr (silent hno)
  | sellerKeeps _ _ _ _ _ _ hno => exact absurd hr (silent hno)
  | sendsSellerData => exact answered hr
  | sellerShares => exact answered hr
  | buyerOffers => exact answered hr
  | buyerShares => exact answered hr
  | shares => exact answered hr
  | _ => cases hr

/-- `ProcessMessage` on one trade changes it in its place. -/
lemma OneChanged.of_match {msg : ProcessingMessage} {before after : List TradeState}
    {t t' : TradeState} (hm : tradeMatches msg t = true) :
    OneChanged msg (before ++ t :: after) (before ++ t' :: after) := by
  simp only [tradeMatches, Bool.and_eq_true, decide_eq_true_eq] at hm
  exact Or.inr ⟨before, t, t', after, rfl, rfl, hm.1.symm, hm.2.symm⟩

section

variable {msg : ProcessingMessage} {op : Op} {tasks : List Task} {s s' : State} {recs : List Record}

/-- The sections that leave the trades alone. -/
lemma RunsAlone.idle (h : RunsAlone cfg op tasks s recs s') (hserves : ∀ x ∈ tasks, x.serves msg)
    (hidle : ∀ x ∈ tasks, x.idle) : SameTrades s s' ∧ ∀ rec ∈ recs, rec.reply = none := by
  induction h with
  | done => exact ⟨.refl _, by simp⟩
  | step hx _ ih =>
      have hsection := messageSection_of_exec (hserves _ List.mem_cons_self) hx
      obtain ⟨hsame, hnext⟩ := hsection.idle (hidle _ List.mem_cons_self)
      obtain ⟨hreply, hnext⟩ := hnext _ rfl
      obtain ⟨hrest, hreplies⟩ := ih (serves_rest hserves hsection) fun x hx => by
        rcases List.mem_append.mp hx with hx | hx
        · exact hnext x hx
        · exact hidle x (List.mem_cons_of_mem _ hx)
      exact ⟨hsame.trans hrest, List.forall_mem_cons.mpr ⟨hreply, hreplies⟩⟩
  | fails hx =>
      have hsection := messageSection_of_exec (hserves _ List.mem_cons_self) hx
      exact ⟨(hsection.idle (hidle _ List.mem_cons_self)).1, by simp [Record.reply]⟩

/-- The last section of the call, with a trade created since `s₀` or without. -/
lemma RunsAlone.process (h : RunsAlone cfg op [.process msg] s recs s') {mine : TradeState → Prop}
    {s₀ : State} {new : List TradeState} (harchive : s.tradeArchive = s₀.tradeArchive)
    (htrades : s.trades = s₀.trades ++ new)
    (hnew : new = [] ∨ ∃ t, new = [t] ∧ ∀ t', Frame t t' → mine t') :
    TradesKept msg mine s₀ recs s' := by
  have hserves : (Task.process msg).serves msg := rfl
  have hkept : ∀ {recs}, (∀ rec ∈ recs, Record.reply rec = none) →
      TradesKept msg mine s₀ recs s := by
    refine fun hreplies => ⟨harchive, ⟨s₀.trades, new, htrades, Or.inl rfl, ?_⟩, ?_⟩
    · exact hnew.imp_right fun ⟨t, ht, hmine⟩ => ⟨t, ht, hmine t (.refl t)⟩
    · intro rec hrec reply hreply
      rw [hreplies rec hrec] at hreply
      cases hreply
  cases h with
  | step hx hrest =>
      have hsection := messageSection_of_exec hserves hx
      cases hsection with
      | noMatch =>
          cases hrest with
          | done => exact hkept (by simp [Record.reply])
      | @processed before t after _ r t' hs hm hout =>
          cases hrest with
          | done =>
              have hf := (@handleMessage_spec s.account msg t).frame
              refine ⟨harchive, ?_, ?_⟩
              · rw [hs] at htrades
                -- the trade is one from before, or the new one
                rcases hnew with rfl | ⟨n, rfl, hmine⟩
                · rw [List.append_nil] at htrades
                  refine ⟨_, [], (List.append_nil _).symm, ?_, Or.inl rfl⟩
                  rw [← htrades]
                  exact .of_match hm
                · rcases List.eq_nil_or_concat' after with rfl | ⟨after', n', rfl⟩
                  · obtain ⟨hbefore, hn⟩ := List.append_inj' htrades rfl
                    obtain rfl := List.singleton_inj.mp hn
                    exact ⟨before, [t'], rfl, Or.inl hbefore,
                      Or.inr ⟨t', rfl, hmine t' (hf.trans hout.frame)⟩⟩
                  · rw [← List.cons_append, ← List.append_assoc] at htrades
                    obtain ⟨hbefore, hn⟩ := List.append_inj' htrades rfl
                    obtain rfl := List.singleton_inj.mp hn
                    refine ⟨before ++ t' :: after', [n'], by simp, ?_,
                      Or.inr ⟨n', rfl, hmine n' (.refl n')⟩⟩
                    rw [← hbefore]
                    exact .of_match hm
              · intro rec hrec reply hreply
                rw [List.mem_singleton.mp hrec] at hreply
                have hanswers := hout.answers hreply
                simp only [tradeMatches, Bool.and_eq_true, decide_eq_true_eq] at hm
                rw [hf.counterparty, hf.getIdentifier, ← hm.1, ← hm.2] at hanswers
                exact hanswers
  | fails hx =>
      have hsection := messageSection_of_exec hserves hx
      cases hsection with
      | aborted => exact hkept (by simp [Record.reply])

lemma TradesKept.after {mine : TradeState → Prop} {s₁ : State} {rec : Record}
    (htrades : s₁.trades = s.trades) (harchive : s₁.tradeArchive = s.tradeArchive)
    (hreply : rec.reply = none) (h : TradesKept msg mine s₁ recs s') :
    TradesKept msg mine s (rec :: recs) s' := by
  refine ⟨h.archive.trans harchive, ?_, List.forall_mem_cons.mpr ⟨?_, h.replies⟩⟩
  · rw [← htrades]
    exact h.trades
  · intro reply hsome
    rw [hreply] at hsome
    cases hsome

lemma TradesKept.of_same {mine : TradeState → Prop} (hsame : SameTrades s s')
    (hreplies : ∀ rec ∈ recs, rec.reply = none) : TradesKept msg mine s recs s' := by
  refine ⟨hsame.archive, ⟨s'.trades, [], by simp, Or.inl hsame.trades, Or.inl rfl⟩, ?_⟩
  intro rec hrec reply hsome
  rw [hreplies rec hrec] at hsome
  cases hsome

/-- The call from the creation of the trade on, and before. -/
lemma RunsAlone.taking (h : RunsAlone cfg op tasks s recs s') :
    ∀ {l : List Task} {o : Order} {taking : TakingOrder}, tasks = l ++ [.orderTaken o taking msg] →
      msg.takingOrder = some taking → (∀ x ∈ l, x.idle ∧ x.serves msg) →
      TradesKept msg (TakenBy msg o taking) s recs s' := by
  induction h with
  | done => simp
  | @step task rest s tr eff s₁ recs s' hx hrest ih =>
      intro l o taking htasks hmsg hl
      cases l with
      | nil =>
          obtain ⟨rfl, rfl⟩ := List.cons.inj htasks
          have hserves : (Task.orderTaken o taking msg).serves msg := ⟨rfl, hmsg⟩
          cases messageSection_of_exec hserves hx with
          | creates =>
              have hprocess : TradesKept msg (TakenBy msg o taking) s recs s' :=
                RunsAlone.process hrest rfl rfl (Or.inr ⟨_, rfl, fun t' hf =>
                  TakenBy.of_frame hf ⟨rfl, UInt64.toUInt64_toInt64 _, rfl⟩⟩)
              exact hprocess.after rfl rfl rfl
          | refuses =>
              have hunlock : ∀ x ∈ [Task.unlock taking.id], x.serves msg ∧ x.idle := by
                intro x hx
                rw [List.mem_singleton.mp hx]
                exact ⟨⟨taking, hmsg, rfl⟩, trivial⟩
              obtain ⟨hsame, hreplies⟩ := RunsAlone.idle hrest (fun x hx => (hunlock x hx).1)
                fun x hx => (hunlock x hx).2
              exact (TradesKept.of_same hsame hreplies).after rfl rfl rfl
      | cons x l =>
          obtain ⟨rfl, rfl⟩ := List.cons.inj htasks
          obtain ⟨hidle, hserves⟩ := hl _ List.mem_cons_self
          have hsection := messageSection_of_exec hserves hx
          obtain ⟨hsame, hnext⟩ := hsection.idle hidle
          obtain ⟨hreply, hnext⟩ := hnext _ rfl
          refine (@ih (eff.next ++ l) o taking (List.append_assoc _ _ _).symm hmsg
            fun y hy => ?_).after hsame.trades hsame.archive hreply
          rcases List.mem_append.mp hy with hy | hy
          · exact ⟨hnext y hy, hsection.serves_next hserves y hy⟩
          · exact hl y (List.mem_cons_of_mem _ hy)
  | @fails task rest s tr e s' hx =>
      intro l o taking htasks hmsg hl
      have hnone : ∀ rec ∈ [(⟨op, task, s, tr, .error e, s'⟩ : Record)], rec.reply = none := by
        simp [Record.reply]
      cases l with
      | nil =>
          obtain ⟨rfl, rfl⟩ := List.cons.inj htasks
          have hserves : (Task.orderTaken o taking msg).serves msg := ⟨rfl, hmsg⟩
          cases messageSection_of_exec hserves hx with
          | foreign => exact .of_same (.refl s) hnone
      | cons x l =>
          obtain ⟨rfl, rfl⟩ := List.cons.inj htasks
          obtain ⟨hidle, hserves⟩ := hl _ List.mem_cons_self
          exact .of_same ((messageSection_of_exec hserves hx).idle hidle).1 hnone

/-- The new trade is one for our own order that the message takes. -/
def Mine (msg : ProcessingMessage) (s : State) (t : TradeState) : Prop :=
  ∃ taking o, msg.takingOrder = some taking ∧ s.ownOrders.lookup taking.id = some o ∧
    TakenBy msg { o with account := some s.account, id := some taking.id } taking t

/-- **A whole call** keeps the trades, and only answers the sender. -/
lemma RunsAlone.trades (h : RunsAlone cfg op [.receive msg] s recs s') :
    TradesKept msg (Mine msg s) s recs s' := by
  have hserves : (Task.receive msg).serves msg := rfl
  cases h with
  | step hx hrest =>
      cases messageSection_of_exec hserves hx with
      | receives =>
          have hprocess : TradesKept msg (Mine msg s) s _ s' :=
            RunsAlone.process hrest rfl (List.append_nil _).symm (Or.inl rfl)
          exact hprocess.after rfl rfl rfl
      | unavailable =>
          cases hrest with
          | done => exact .of_same (.refl s) (by simp [Record.reply])
      | @locks taking o hmsg ho =>
          have hl : ∀ x ∈ refreshTasks, x.idle ∧ x.serves msg := by
            intro x hx
            simp only [refreshTasks, List.mem_cons, List.not_mem_nil, or_false] at hx
            rcases hx with rfl | rfl <;> exact ⟨trivial, trivial⟩
          have htaking := RunsAlone.taking hrest (List.append_nil _) hmsg hl
          obtain ⟨harchive, ⟨kept, new, htrades, hchanged, hnew⟩, hreplies⟩ := htaking
          refine ⟨harchive, ⟨kept, new, htrades, hchanged, ?_⟩,
            List.forall_mem_cons.mpr ⟨by rintro _ ⟨⟩, hreplies⟩⟩
          rcases hnew with hnone | ⟨t, ht, htaken⟩
          · exact Or.inl hnone
          · exact Or.inr ⟨t, ht, taking, o, hmsg, ho, htaken⟩
  | fails hx =>
      cases messageSection_of_exec hserves hx with
      | anonymous => exact .of_same (.refl s) (by simp [Record.reply])

end

/-! ## The frame of a message -/

/-- **What a call of `ProcessMessage` may do**: to the trades as in `TradesKept`, with a new one only
for our own order that is taken, and to our own orders as in `OrderKept`. -/
structure Framed (msg : ProcessingMessage) (s : State) (recs : List Record) (s' : State) : Prop where
  trades : TradesKept msg (Mine msg s) s recs s'
  orders : ∀ id, OrderKept msg recs id (s.ownOrders.lookup id) (s'.ownOrders.lookup id)

/-- An order with units that has become an empty message is not framed. -/
lemma not_framed_of_empty {msg : ProcessingMessage} {s s' : State} {recs : List Record} {id : UInt64}
    (hempty : s'.ownOrders.lookup id = some {}) {o : Order}
    (ho : s.ownOrders.lookup id = some o) (hunits : o.maxUnits ≠ 0) : ¬ Framed msg s recs s' := by
  intro h
  have hkept := h.orders id
  rw [hempty] at hkept
  obtain ⟨o₀, ho₀, hzero⟩ := hkept.units
  obtain rfl := Option.some.inj (ho.symm.trans ho₀)
  exact hunits hzero

/-- **What a message can touch.**  Every call of `ProcessMessage`, however it ends, stays within the
frame exactly if no refresh in it fails after it has found an order valid. -/
theorem message_frame_iff {msg : ProcessingMessage} {s s' : State} {recs : List Record}
    (h : RunsAlone cfg (.processMessage msg) (Op.processMessage msg).tasks s recs s') :
    Framed msg s recs s' ↔ Unbroken recs := by
  have hserves : ∀ x ∈ (Op.processMessage msg).tasks, x.serves msg := by
    intro x hx
    rw [List.mem_singleton.mp hx]
    exact rfl
  constructor
  · intro hframed
    by_contra hbroken
    obtain ⟨id, o, recs', hkept, hunits, hempty⟩ := h.broken hserves hbroken
    obtain ⟨o₀, ho₀, heq⟩ := hkept.units
    exact not_framed_of_empty hempty ho₀ (by rwa [heq]) hframed
  · exact fun hun => ⟨h.trades, h.orders hserves hun⟩

section

variable {W : Type} {E : Env Call Answer W} {account : String} {op : Op}

/-- A thread that runs alone is a part of a run of the daemon. -/
theorem RunsAlone.reachable {tasks : List Task} {s s' : State} {recs : List Record}
    (h : RunsAlone cfg op tasks s recs s') :
    ∀ {σ : Sys} {w w' : W} {before : List Thread}, (system cfg E account).Reachable (σ, w) →
      σ.halted = false → σ.threads = before ++ [⟨op, tasks⟩] → σ.state = s →
      E.Path w (recs.flatMap Record.talk) w' →
      ∃ σ', (system cfg E account).Reachable (σ', w') ∧ σ'.state = s' ∧ σ'.log = σ.log ++ recs := by
  induction h with
  | done =>
      rintro σ w w' before hr _ _ rfl hp
      obtain rfl : w' = w := hp
      exact ⟨σ, hr, rfl, by simp⟩
  | @step task rest s tr eff s₁ recs s' hx _ ih =>
      rintro σ w w' before hr hrun hth rfl hp
      rw [List.flatMap_cons] at hp
      obtain ⟨w₁, hp₁, hp₂⟩ := Env.path_append.mp hp
      have hstep := @Sys.Step.run cfg σ before [] op task rest tr _ _ hrun hth hx
      obtain ⟨σ', hr', hs', hlog⟩ := ih (hr.step ⟨hstep, hp₁⟩) rfl rfl rfl hp₂
      exact ⟨σ', hr', hs', hlog.trans (List.append_assoc _ _ _)⟩
  | @fails task rest s tr e s' hx =>
      rintro σ w w' before hr hrun hth rfl hp
      rw [List.flatMap_cons, List.flatMap_nil, List.append_nil] at hp
      have hstep := @Sys.Step.run cfg σ before [] op task rest tr _ _ hrun hth hx
      exact ⟨_, hr.step ⟨hstep, hp⟩, rfl, rfl⟩

end

/-! ### Two calls -/

section Scripted

variable {W : Type} {h : W → (c : Call) → Answer c × W} {op : Op}

/-- Let a thread run alone, with the outside answering as scripted. -/
def playAlone (cfg : Config) (h : W → (c : Call) → Answer c × W) (op : Op) :
    ℕ → List Task → State × W → Option (List Record × State × W)
  | _, [], x => some ([], x)
  | 0, _ :: _, _ => none
  | n + 1, task :: rest, x =>
      let out := (exec cfg task x.1).play h x.2
      let done : Record := ⟨op, task, x.1, out.2.1, out.1.1, out.1.2⟩
      match out.1.1 with
      | .ok eff => (playAlone cfg h op n (eff.next ++ rest) (out.1.2, out.2.2)).map fun y =>
          (done :: y.1, y.2)
      | .error _ => some ([done], out.1.2, out.2.2)

lemma runsAlone_of_play :
    ∀ {n : ℕ} {tasks : List Task} {x : State × W} {recs : List Record} {x' : State × W},
      playAlone cfg h op n tasks x = some (recs, x') → RunsAlone cfg op tasks x.1 recs x'.1
  | n, [], x, recs, x', hp => by
      rw [playAlone] at hp
      cases hp
      exact .done
  | n + 1, task :: rest, x, recs, x', hp => by
      have hx := Prog.exec_play h (exec cfg task x.1) x.2
      simp only [playAlone] at hp
      generalize (exec cfg task x.1).play h x.2 = out at hx hp
      obtain ⟨⟨r, s₁⟩, tr, w₁⟩ := out
      cases r with
      | ok eff =>
          simp only [Option.map_eq_some_iff] at hp
          obtain ⟨⟨recs, x₂⟩, hrest, heq⟩ := hp
          cases heq
          exact .step hx (runsAlone_of_play hrest)
      | error e =>
          cases hp
          exact .fails hx

end Scripted

/-- Two orders are added. -/
def twoOrders : List Sched :=
  [.start (.addOrder unitsOrder), .run 0, .run 0, .run 0, .run 0,
    .start (.addOrder { unitsOrder with priceSat := some 7 }), .run 1, .run 1, .run 1, .run 1]

/-- **A message empties our order**: it takes one of the two, and the refresh after that fails. -/
theorem message_empties_order : ∃ (x : Sys × ℕ) (recs : List Record) (s' : State),
    (system sampleConfig (Env.ofScript (outageScript 6)) "maker").Reachable x ∧
    RunsAlone sampleConfig (.processMessage (unitsMessage 2))
      (Op.processMessage (unitsMessage 2)).tasks x.1.state recs s' ∧
    s'.ownOrders.lookup 0 = some {} ∧ ¬ Framed (unitsMessage 2) x.1.state recs s' := by
  obtain ⟨x, hr, hQ⟩ := Sys.exists_reachable sampleConfig (outageScript 6) "maker" 0 twoOrders
    (fun x => (x.1.state.ownOrders.lookup 0).any (fun o => o.maxUnits ≠ 0) &&
      (playAlone sampleConfig (outageScript 6) (.processMessage (unitsMessage 2)) 20
        (Op.processMessage (unitsMessage 2)).tasks (x.1.state, x.2)).any fun y =>
          y.2.1.ownOrders.lookup 0 = some {})
    (by decide +kernel)
  simp only [Bool.and_eq_true] at hQ
  obtain ⟨o, ho, hunits⟩ := (Option.any_eq_true _ _).mp hQ.1
  obtain ⟨⟨recs, s', w'⟩, hplay, hempty⟩ := (Option.any_eq_true _ _).mp hQ.2
  simp only [decide_eq_true_eq] at hunits hempty
  exact ⟨x, recs, s', hr, runsAlone_of_play hplay, hempty,
    not_framed_of_empty hempty ho (by simpa using hunits)⟩

/-- With the GSP there, the message creates a trade, and touches nothing else. -/
theorem message_frame_iff_taken : ∃ (x : Sys × ℕ) (recs : List Record) (s' : State),
    (system sampleConfig (Env.ofScript (outageScript 100)) "maker").Reachable x ∧
    s'.trades.length = 1 ∧ Framed (unitsMessage 2) x.1.state recs s' := by
  obtain ⟨x, hr, hQ⟩ := Sys.exists_reachable sampleConfig (outageScript 100) "maker" 0 twoOrders
    (fun x => (playAlone sampleConfig (outageScript 100) (.processMessage (unitsMessage 2)) 20
        (Op.processMessage (unitsMessage 2)).tasks (x.1.state, x.2)).any fun y =>
          y.1.all Record.returns && y.2.1.trades.length = 1)
    (by decide +kernel)
  obtain ⟨⟨recs, s', w'⟩, hplay, hdone⟩ := (Option.any_eq_true _ _).mp hQ
  simp only [Bool.and_eq_true, List.all_eq_true, decide_eq_true_eq] at hdone
  have hruns := runsAlone_of_play hplay
  exact ⟨x, recs, s', hr, hdone.2, (message_frame_iff hruns).mpr (hruns.unbroken hdone.1)⟩

end Democrit
