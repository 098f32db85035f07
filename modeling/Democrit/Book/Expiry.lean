import Democrit.Lib.Expiry
import Democrit.OrderBook

/-!
# Timing out orders

`RunTimeout` does not look at the accounts.  It reads the queue of updates from the front, and stops
at the first one that is recent.  The queue has an entry for every update there ever was, also of
accounts that were updated again, were deleted, or were deleted and added again since.

`timeout_exact` says that this finds all there is to find: the table of accounts is filtered by
`lastUpdate`, and so an account is in the book exactly if its latest update had orders and is not
older than the timeout was at any run of it since.  Of the clock it is only used that it does not
run backwards.  The argument is that of `Expiry`, which the book is an instance of (`call_store`).
-/

namespace Democrit

/-! ## Calls -/

/-- A call to the order book that changes it, and the time at which it is made. -/
inductive BookCall where
  | updateOrders (now : ℤ) (upd : AccountUpdate)
  | runTimeout (now : ℤ)

/-- When the call is made. -/
def BookCall.now : BookCall → ℤ
  | .updateOrders now _ | .runTimeout now => now

/-- One call; an error is the assertion that aborts the daemon. -/
def OrderBook.call (book : OrderBook) : BookCall → Except BookCheck OrderBook
  | .updateOrders now upd => book.updateOrders now upd
  | .runTimeout now => .ok (book.runTimeout now)

/-- A whole history of calls, from the empty book. -/
def OrderBook.calls (timeout : ℤ) (history : List BookCall) : Except BookCheck OrderBook :=
  history.foldlM OrderBook.call { timeout }

/-- The book after one more call. -/
lemma calls_concat {timeout : ℤ} {history : List BookCall} {c : BookCall} {book : OrderBook}
    (h : OrderBook.calls timeout (history ++ [c]) = .ok book) :
    ∃ before, OrderBook.calls timeout history = .ok before ∧ before.call c = .ok book := by
  rw [OrderBook.calls, List.foldlM_append] at h
  cases hb : history.foldlM OrderBook.call { timeout } with
  | error e =>
      rw [hb] at h
      cases h
  | ok before =>
      rw [hb] at h
      have h : (before.call c >>= pure) = .ok book := h
      rw [bind_pure] at h
      exact ⟨before, hb, h⟩

/-- An update that was taken in. -/
lemma updateOrders_ok {book book' : OrderBook} {now : ℤ} {upd : AccountUpdate}
    (h : book.updateOrders now upd = .ok book') :
    ∃ account, upd.account = some account ∧
      (∀ e ∈ upd.orders.entries, e.2.asset.isSome ∧ e.2.type.isSome ∧ e.2.priceSat.isSome) ∧
      book' = if upd.orders.entries.isEmpty then { book with orders := book.orders.erase account }
        else { book with
          orders := book.orders.insert account ⟨upd.orders, now⟩
          updates := book.updates ++ [⟨account, now⟩] } := by
  rw [OrderBook.updateOrders] at h
  split at h
  · cases h
  · rename_i account hacc
    split at h
    · rename_i hall
      refine ⟨account, hacc, fun e he => ?_, ?_⟩
      · simpa [and_assoc] using List.all_eq_true.mp hall e he
      · split at h
        · rename_i hempty
          rw [if_pos hempty]
          exact (Except.ok.inj h).symm
        · rename_i hempty
          rw [if_neg hempty]
          exact (Except.ok.inj h).symm
    · cases h

/-! ## The book as a table with a queue -/

/-- An event of the queue. -/
def UpdateEvent.stamped (ev : UpdateEvent) : String × ℤ := (ev.account, ev.time)

/-- The book as a table with a queue. -/
def OrderBook.store (book : OrderBook) : Expiry.Store String AccountOrders ℤ where
  table account := book.orders.lookup account
  queue := book.updates.map UpdateEvent.stamped

/-- What a call does to the table. -/
def BookCall.op (timeout : ℤ) : BookCall → Expiry.Op String AccountOrders ℤ
  | .updateOrders now upd =>
      if upd.orders.entries.isEmpty then .drop (upd.account.getD "")
      else .put (upd.account.getD "") ⟨upd.orders, now⟩
  | .runTimeout now => .expire (now - timeout)

lemma lookup_erase_eq_update (orders : AList fun _ : String => AccountOrders) (account : String) :
    (fun acc => (orders.erase account).lookup acc)
      = Function.update (fun acc => orders.lookup acc) account none := by
  funext acc
  by_cases hacc : acc = account
  · subst hacc
    rw [AList.lookup_erase, Function.update_self]
  · rw [AList.lookup_erase_ne hacc, Function.update_of_ne hacc]

lemma lookup_insert_eq_update (orders : AList fun _ : String => AccountOrders) (account : String)
    (a : AccountOrders) :
    (fun acc => (orders.insert account a).lookup acc)
      = Function.update (fun acc => orders.lookup acc) account (some a) := by
  funext acc
  by_cases hacc : acc = account
  · subst hacc
    rw [AList.lookup_insert, Function.update_self]
  · rw [AList.lookup_insert_ne hacc, Function.update_of_ne hacc]

/-- The loop of `RunTimeout` is the sweep of the queue. -/
lemma timeoutLoop_sweep (bound : ℤ) (updates : List UpdateEvent)
    (orders : AList fun _ : String => AccountOrders) :
    Expiry.sweep AccountOrders.lastUpdate bound (updates.map UpdateEvent.stamped)
        (fun acc => orders.lookup acc)
      = { table := fun acc => (OrderBook.timeoutLoop bound updates orders).2.lookup acc
          queue := (OrderBook.timeoutLoop bound updates orders).1.map UpdateEvent.stamped } := by
  induction updates generalizing orders with
  | nil => rfl
  | cons ev rest ih =>
      simp only [List.map_cons, Expiry.sweep, OrderBook.timeoutLoop, UpdateEvent.stamped]
      split
      · cases hl : orders.lookup ev.account with
        | none =>
            have hsame : Function.update (fun acc => orders.lookup acc) ev.account
                (Expiry.fresh AccountOrders.lastUpdate bound (fun acc => orders.lookup acc) ev.account)
                = fun acc => orders.lookup acc := by
              rw [Expiry.fresh, hl, Option.filter_none, ← hl, Function.update_eq_self]
            rw [hsame]
            exact ih orders
        | some a =>
            by_cases hold : a.lastUpdate < bound
            · have hgone : Expiry.fresh AccountOrders.lastUpdate bound
                  (fun acc => orders.lookup acc) ev.account = none := by
                simp [Expiry.fresh, hl, hold]
              rw [hgone, ← lookup_erase_eq_update]
              simp only [hold, if_true]
              exact ih (orders.erase ev.account)
            · have hkept : Expiry.fresh AccountOrders.lastUpdate bound
                  (fun acc => orders.lookup acc) ev.account = orders.lookup ev.account := by
                simp [Expiry.fresh, hl, not_lt.mp hold]
              rw [hkept, Function.update_eq_self]
              simp only [hold, if_false]
              exact ih orders
      · rfl

/-- **One call** is one operation on the table with its queue. -/
lemma call_store {book book' : OrderBook} {c : BookCall} (h : book.call c = .ok book') :
    book'.timeout = book.timeout ∧
      book'.store = book.store.step AccountOrders.lastUpdate (c.op book.timeout) := by
  cases c with
  | updateOrders now upd =>
      obtain ⟨account, hacc, _, rfl⟩ := updateOrders_ok h
      simp only [BookCall.op, hacc, Option.getD_some]
      split
      · exact ⟨rfl, by simp only [OrderBook.store, Expiry.Store.step, lookup_erase_eq_update]⟩
      · refine ⟨rfl, ?_⟩
        simp only [OrderBook.store, Expiry.Store.step, lookup_insert_eq_update, List.map_append]
        rfl
  | runTimeout now =>
      obtain rfl := Except.ok.inj h
      exact ⟨rfl, (timeoutLoop_sweep (now - book.timeout) book.updates book.orders).symm⟩

/-- **Every history** is a run of the table with its queue. -/
lemma calls_store {timeout : ℤ} {history : List BookCall} {book : OrderBook}
    (h : OrderBook.calls timeout history = .ok book) :
    book.timeout = timeout ∧
      book.store = Expiry.Store.run AccountOrders.lastUpdate (history.map (BookCall.op timeout)) := by
  induction history using List.reverseRecOn generalizing book with
  | nil =>
      obtain rfl := Except.ok.inj h
      exact ⟨rfl, rfl⟩
  | append_singleton history c ih =>
      obtain ⟨before, hbefore, hcall⟩ := calls_concat h
      obtain ⟨htimeout, hstore⟩ := ih hbefore
      obtain ⟨htimeout', hstore'⟩ := call_store hcall
      refine ⟨htimeout'.trans htimeout, ?_⟩
      rw [hstore', hstore, htimeout, List.map_append, Expiry.Store.run, Expiry.Store.run,
        List.foldl_append]
      rfl

/-- The stamp of what a call puts into the table is the time of the call. -/
lemma op_put {timeout : ℤ} {c : BookCall} {account : String} {a : AccountOrders}
    (h : c.op timeout = .put account a) :
    ∃ upd, c = .updateOrders a.lastUpdate upd ∧ upd.account.getD "" = account ∧
      upd.orders.entries ≠ [] ∧ a.orders = upd.orders := by
  cases c with
  | updateOrders now upd =>
      simp only [BookCall.op] at h
      split at h
      · cases h
      · rename_i hne
        obtain ⟨rfl, rfl⟩ := Expiry.Op.put.inj h
        exact ⟨upd, rfl, rfl, fun h => hne (List.isEmpty_iff.mpr h), rfl⟩
  | runTimeout now => cases h

lemma ordered_of_clock {timeout : ℤ} {history : List BookCall}
    (h : history.Pairwise fun a b => a.now ≤ b.now) :
    Expiry.Ordered AccountOrders.lastUpdate (history.map (BookCall.op timeout)) := by
  refine List.pairwise_map.mpr (h.imp ?_)
  intro c c' hle k v k' v' hc hc'
  obtain ⟨upd, rfl, _⟩ := op_put hc
  obtain ⟨upd', rfl, _⟩ := op_put hc'
  exact hle

/-! ## The accounts in the book -/

/-- The call is not an update of `account`, nor a timeout that something of the time `time` is too
old for. -/
def BookCall.Spares (timeout : ℤ) (account : String) (time : ℤ) : BookCall → Prop
  | .updateOrders _ upd => upd.account ≠ some account
  | .runTimeout now => ¬ time < now - timeout

/-- In a history that did not abort, each update names its account. -/
lemma account_of_calls {timeout : ℤ} {history : List BookCall} {book : OrderBook}
    (h : OrderBook.calls timeout history = .ok book) (now : ℤ) (upd : AccountUpdate)
    (hmem : .updateOrders now upd ∈ history) : upd.account = some (upd.account.getD "") := by
  induction history using List.reverseRecOn generalizing book with
  | nil => simp at hmem
  | append_singleton history c ih =>
      obtain ⟨before, hbefore, hcall⟩ := calls_concat h
      rcases List.mem_append.mp hmem with hmem | hmem
      · exact ih hbefore hmem
      · obtain rfl := List.mem_singleton.mp hmem
        obtain ⟨account, hacc, _⟩ := updateOrders_ok hcall
        rw [hacc, Option.getD_some]

lemma spares_op {timeout : ℤ} {c : BookCall} {account : String} {a : AccountOrders}
    (hacc : ∀ now upd, c = .updateOrders now upd → upd.account = some (upd.account.getD "")) :
    (c.op timeout).Spares AccountOrders.lastUpdate account a ↔
      c.Spares timeout account a.lastUpdate := by
  cases c with
  | updateOrders now upd =>
      simp only [BookCall.op, BookCall.Spares]
      rw [hacc now upd rfl]
      split <;> simp [Expiry.Op.Spares]
  | runTimeout now => simp [BookCall.op, BookCall.Spares, Expiry.Op.Spares]

/-- **Timeouts are exact.**  After any calls that did not abort, with a clock that does not run
backwards: a run of the timeouter leaves exactly the accounts whose `lastUpdate` is not before its
bound, with their orders as they were; and an account is in the book exactly if it had an update with
orders, which are those in the book, and since then no update nor a timeout that was due for it. -/
theorem timeout_exact (timeout : ℤ) (history : List BookCall) (book : OrderBook)
    (hclock : history.Pairwise fun a b => a.now ≤ b.now)
    (hrun : OrderBook.calls timeout history = .ok book) :
    (∀ now account, (book.runTimeout now).orders.lookup account
      = (book.orders.lookup account).filter fun a => now - timeout ≤ a.lastUpdate) ∧
    ∀ account a, book.orders.lookup account = some a ↔
      ∃ before upd after, history = before ++ .updateOrders a.lastUpdate upd :: after ∧
        upd.account = some account ∧ upd.orders.entries ≠ [] ∧ a.orders = upd.orders ∧
        ∀ c ∈ after, c.Spares timeout account a.lastUpdate := by
  obtain ⟨htimeout, hstore⟩ := calls_store hrun
  obtain ⟨hqueued, htable, _⟩ := Expiry.Store.run_table (@ordered_of_clock timeout _ hclock)
  rw [← hstore] at hqueued htable
  constructor
  · intro now account
    have hcall : book.call (.runTimeout now) = .ok (book.runTimeout now) := rfl
    have hstep : (book.store.step AccountOrders.lastUpdate (.expire (now - timeout))).table
        = Expiry.fresh AccountOrders.lastUpdate (now - timeout) book.store.table :=
      (hqueued.step (by nofun)).2
    obtain ⟨_, hstore'⟩ := call_store hcall
    rw [BookCall.op, htimeout] at hstore'
    rw [← hstore'] at hstep
    exact congrFun hstep account
  · intro account a
    have hplain : book.orders.lookup account = some a ↔ Expiry.plain AccountOrders.lastUpdate
        (history.map (BookCall.op timeout)) account = some a := by
      rw [← htable]
      rfl
    rw [hplain, Expiry.plain_iff]
    constructor
    · rintro ⟨before, after, heq, hafter⟩
      obtain ⟨before', rest, rfl, rfl, hrest⟩ := List.map_eq_append_iff.mp heq
      obtain ⟨c, after', rfl, hc, rfl⟩ := List.map_eq_cons_iff.mp hrest
      obtain ⟨upd, rfl, hname, hne, horders⟩ := op_put hc
      have hacc := account_of_calls hrun a.lastUpdate upd (by simp)
      rw [hname] at hacc
      refine ⟨before', upd, after', rfl, hacc, hne, horders, fun c hc => ?_⟩
      refine (spares_op fun now upd hupd => ?_).mp (hafter _ (List.mem_map_of_mem hc))
      exact account_of_calls hrun now upd (by simp [← hupd, hc])
    · rintro ⟨before, upd, after, rfl, hacc, hne, horders, hafter⟩
      refine ⟨before.map (BookCall.op timeout), after.map (BookCall.op timeout), ?_, ?_⟩
      · have hput : (BookCall.updateOrders a.lastUpdate upd).op timeout = .put account a := by
          have hne' : ¬ upd.orders.entries.isEmpty = true := fun h => hne (List.isEmpty_iff.mp h)
          rw [BookCall.op, if_neg hne', hacc, Option.getD_some, ← horders]
        rw [List.map_append, List.map_cons, hput]
      · intro op hop
        obtain ⟨c, hc, rfl⟩ := List.mem_map.mp hop
        refine (spares_op fun now upd hupd => ?_).mpr (hafter c hc)
        exact account_of_calls hrun now upd (by simp [← hupd, hc])

/-- An update with one order. -/
def askOf (account : String) (price : UInt64) : AccountUpdate where
  account := some account
  orders := AList.singleton 0
    { asset := some "gold", maxUnits := 1, type := some .ask, priceSat := some price }

/-- One account is renewed before the timeouter runs, another one is not. -/
def renewed : List BookCall :=
  [.updateOrders 0 (askOf "a" 1), .updateOrders 1 (askOf "b" 2), .updateOrders 5 (askOf "a" 3),
    .runTimeout 12]

/-- The account that was renewed stays, and goes with a later run. -/
theorem timeout_exact_renewed : ∃ book, OrderBook.calls 10 renewed = .ok book ∧
    book.orders.lookup "a" = some ⟨(askOf "a" 3).orders, 5⟩ ∧
    (book.runTimeout 20).orders.lookup "a" = none := by
  refine ⟨_, rfl, ?_⟩
  obtain ⟨hrun, hbook⟩ := timeout_exact 10 renewed _ (by decide) rfl
  constructor
  · refine (hbook "a" _).mpr ⟨renewed.take 2, askOf "a" 3, [.runTimeout 12], rfl, rfl, nofun, rfl, ?_⟩
    intro c hc
    obtain rfl := List.mem_singleton.mp hc
    show ¬ (5 : ℤ) < 12 - 10
    omega
  · rw [hrun 20 "a"]
    rfl

end Democrit
