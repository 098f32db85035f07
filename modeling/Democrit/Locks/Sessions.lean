import Democrit.Locks.Orders
import Democrit.Safety.Accounts

/-!
# Which trade a message is for

`ProcessMessage` hands a message to the first trade with its counterparty and its identifier.  Both
`TakeOrder` and `OrderTaken` create trades, and nothing but the lock on the own order keeps two of
them apart: **a second `TakeOrder` for the same order creates a second trade with the same pair.**
Without that, and as long as `Add` gives out no id that a trade still has, the pair tells the
active trades apart (`messages_unambiguous`).

For the trades against our own orders, the invariant counts those who may still become or release a
trade against an order that was really there (`Sys.sessions`).  It is not the count of `Sys.holders`,
because a refresh that throws leaves an empty, unlocked order behind, which can be locked again but
never be traded against.
-/

namespace Democrit

open Interaction

variable {cfg : Config} {account : String} {W : Type} {E : Env Call Answer W}

/-! ## Identifiers -/

/-- A list is split at the last occurrence of an element in one way. -/
lemma split_at_last {α : Type} {c : α} {l l' d d' : List α} (hd : c ∉ d) (hd' : c ∉ d')
    (h : l ++ c :: d = l' ++ c :: d') : l = l' ∧ d = d' := by
  have key : ∀ {m e e' : List α}, c ∉ e → c :: e = m ++ c :: e' → m = [] ∧ e = e' := by
    intro m e e' he heq
    cases m with
    | nil => exact ⟨rfl, (List.cons.inj heq).2⟩
    | cons x m =>
        exfalso
        apply he
        rw [(List.cons.inj heq).2]
        simp
  rcases List.append_eq_append_iff.mp h with ⟨m, rfl, heq⟩ | ⟨m, rfl, heq⟩
  · obtain ⟨rfl, rfl⟩ := key hd heq
    exact ⟨(List.append_nil l).symm, rfl⟩
  · obtain ⟨rfl, rfl⟩ := key hd' heq
    exact ⟨List.append_nil l', rfl⟩

/-- A number is written in digits. -/
lemma notMem_toDigits {c : Char} (hc : c.isDigit = false) (n : ℕ) : c ∉ Nat.toDigits 10 n := by
  intro h
  have := Nat.isDigit_of_mem_toDigits (by decide) (by decide) h
  rw [hc] at this
  simp at this

/-- Different numbers are written differently. -/
lemma toDigits_injective {m n : ℕ} (h : Nat.toDigits 10 m = Nat.toDigits 10 n) : m = n := by
  have := congrArg (fun l => Nat.ofDigitChars 10 l 0) h
  simpa using this

/-- **`GetIdentifier` is injective**: an account may contain newlines, but a number does not. -/
lemma identifier_injective {t t' : TradeState} (h : getIdentifier t = getIdentifier t') :
    t.order.getAccount = t'.order.getAccount ∧ t.order.getId = t'.order.getId := by
  have hlist : t.order.getAccount.toList ++ '\n' :: Nat.toDigits 10 t.order.getId.toNat
      = t'.order.getAccount.toList ++ '\n' :: Nat.toDigits 10 t'.order.getId.toNat := by
    have := congrArg String.toList h
    simpa [getIdentifier, Nat.repr] using this
  obtain ⟨haccount, hdigits⟩ :=
    split_at_last (notMem_toDigits (by decide) _) (notMem_toDigits (by decide) _) hlist
  exact ⟨String.toList_inj.mp haccount, UInt64.toNat_inj.mp (toDigits_injective hdigits)⟩

/-- What a message is matched with. -/
def TradeState.address (t : TradeState) : String × String := (t.counterparty, getIdentifier t)

lemma Frame.address {t t' : TradeState} (h : Frame t t') : t'.address = t.address := by
  rw [TradeState.address, TradeState.address, h.counterparty, h.getIdentifier]

/-- A message is for at most one trade if their addresses differ. -/
lemma countP_matches {trades : List TradeState} (h : (trades.map TradeState.address).Nodup)
    (msg : ProcessingMessage) : trades.countP (tradeMatches msg) ≤ 1 := by
  have hcount := List.nodup_iff_count_le_one.mp h
    (msg.counterparty.getD "", msg.identifier.getD "")
  refine le_trans (le_of_eq ?_) hcount
  rw [List.count, List.countP_map]
  refine List.countP_congr fun t _ => ?_
  simp only [tradeMatches, TradeState.address, Function.comp, Bool.and_eq_true, decide_eq_true_eq,
    beq_iff_eq, Prod.mk.injEq]
  constructor
  · rintro ⟨h₁, h₂⟩
    exact ⟨h₁.symm, h₂.symm⟩
  · rintro ⟨h₁, h₂⟩
    exact ⟨h₁.symm, h₂.symm⟩

/-! ## Sessions -/

/-- A task that may lead to a trade against the own order `id`, or has to settle one. -/
def Task.secures (account : String) (id : UInt64) : Task → Bool
  | .orderTaken o taking _ => o.asset.isSome && taking.id = id
  | .handle t => t.holds account id
  | _ => false

/-- How many of the tasks do. -/
def securedBy (account : String) (id : UInt64) (tasks : List Task) : ℕ :=
  tasks.countP (Task.secures account id)

/-- The number of trades against the own order `id`, with those about to be created and those
still to be settled. -/
def Sys.sessions (σ : Sys) (id : UInt64) : ℕ :=
  securedBy σ.state.account id σ.tasks + heldIn σ.state.account id σ.state.trades

@[simp] lemma securedBy_append (account : String) (id : UInt64) (l l' : List Task) :
    securedBy account id (l ++ l') = securedBy account id l + securedBy account id l' :=
  List.countP_append

@[simp] lemma securedBy_cons (account : String) (id : UInt64) (x : Task) (l : List Task) :
    securedBy account id (x :: l) = (x.secures account id).toNat + securedBy account id l := by
  rw [securedBy, List.countP_cons, securedBy, Nat.add_comm]
  cases x.secures account id <;> rfl

lemma Task.holds_of_secures {account : String} {id : UInt64} {x : Task}
    (h : x.secures account id = true) : x.holds account id = true := by
  cases x with
  | orderTaken o taking msg =>
      simp only [secures, Bool.and_eq_true] at h
      exact h.2
  | handle t => exact h
  | _ => simp [secures] at h

lemma securedBy_le (account : String) (id : UInt64) (l : List Task) :
    securedBy account id l ≤ heldBy account id l :=
  List.countP_mono_left fun _ _ => Task.holds_of_secures

lemma Sys.sessions_le (σ : Sys) (id : UInt64) : σ.sessions id ≤ σ.holders id :=
  Nat.add_le_add_right (securedBy_le _ _ _) _

/-- Tasks that neither come from a lock nor settle a trade. -/
lemma securedBy_eq_zero {id : UInt64} {l : List Task} (hplain : ∀ x ∈ l, x.plain)
    (hup : ∀ x ∈ l, ¬ x.updating) : securedBy account id l = 0 := by
  refine List.countP_eq_zero.mpr fun x hx => ?_
  have h₁ := hplain x hx
  have h₂ := hup x hx
  cases x with
  | orderTaken => exact h₁.elim
  | handle => exact absurd trivial h₂
  | _ => simp [Task.secures]

section Run

variable {σ : Sys} {before after : List Thread} {op : Op} {task : Task} {rest : List Task}
  {tr : Conversation} {s' : State}

/-- The sessions before and after a section differ as its own ones do. -/
lemma Sys.sessions_advance {r : Except Fail Effect} (hacc : s'.account = σ.state.account)
    (hth : σ.threads = before ++ ⟨op, task :: rest⟩ :: after) (id : UInt64) :
    (σ.advance before after rest ⟨op, task, σ.state, tr, r, s'⟩).sessions id
        + (task.secures σ.state.account id).toNat + securedBy σ.state.account id rest
        + heldIn σ.state.account id σ.state.trades
      = σ.sessions id + securedBy σ.state.account id (continuation rest r)
        + heldIn σ.state.account id s'.trades := by
  rw [Sys.sessions, Sys.sessions, Sys.tasks_advance, Sys.tasks_split hth]
  simp only [Sys.advance, List.cons_append, securedBy_append, securedBy_cons, hacc]
  omega

/-- A task that holds a right without securing a session leaves the trades alone. -/
lemma idle_of_not_secures {eff : Effect} {id : UInt64}
    (hsec : Section cfg σ.state task tr (.ok eff) s')
    (hne : task.secures σ.state.account id ≠ task.holds σ.state.account id) :
    s'.trades = σ.state.trades ∧ ∀ x ∈ eff.next, ¬ x.updating := by
  generalize hr : (Except.ok eff : Except Fail Effect) = r at hsec
  cases hsec with
  | idle hs _ hun _ => exact ⟨hs.trades, hun.next eff hr.symm⟩
  | orderTaken hcheck _ _ =>
      -- an order that is traded has its asset
      simp only [checkOrder, Bool.and_eq_true] at hcheck
      simp [Task.secures, Task.holds, hcheck.1.1.2] at hne
  | _ => exact absurd rfl hne

/-- **Sessions come from locks only**: a section hands on no more than it had, unless it locks an
order that is there with its data, and then one session for it. -/
lemma sessions_of_tokens {eff : Effect} (htokens : Tokens σ.state task tr eff s')
    (hsec : Section cfg σ.state task tr (.ok eff) s') (id : UInt64) :
    securedBy σ.state.account id eff.next + heldIn σ.state.account id s'.trades
        ≤ (task.secures σ.state.account id).toNat + heldIn σ.state.account id σ.state.trades ∨
      (∃ o, σ.state.ownOrders.lookup id = some o ∧ o.asset.isSome ∧ o.locked = false) ∧
        securedBy σ.state.account id eff.next ≤ 1 ∧ s'.trades = σ.state.trades := by
  have hle := securedBy_le σ.state.account id eff.next
  -- most sections leave the trades alone and hand nothing on
  have settled : securedBy σ.state.account id eff.next = 0 → s'.trades = σ.state.trades →
      securedBy σ.state.account id eff.next + heldIn σ.state.account id s'.trades
        ≤ (task.secures σ.state.account id).toNat + heldIn σ.state.account id σ.state.trades := by
    intro hzero htrades
    rw [htrades]
    omega
  cases htokens with
  | pass _ _ hplain hbal =>
      left
      by_cases hsame : task.secures σ.state.account id = task.holds σ.state.account id
      · have := hbal id
        rw [hsame]
        omega
      · obtain ⟨htrades, hup⟩ := idle_of_not_secures hsec hsame
        exact settled (securedBy_eq_zero hplain hup) htrades
  | add _ heff => exact Or.inl (settled (by rw [heff]; rfl) rfl)
  | remove _ heff => exact Or.inl (settled (by rw [heff]; rfl) rfl)
  | refresh _ heff _ => exact Or.inl (settled (by rw [heff]; rfl) rfl)
  | @lock msg taking o htask hmsg ho hfree heff =>
      have hnext : securedBy σ.state.account id eff.next
          = (o.asset.isSome && decide (taking.id = id)).toNat := by
        rw [heff, securedBy_append]
        show 0 + securedBy σ.state.account id [_] = _
        rw [securedBy_cons]
        simp [Task.secures, securedBy]
      by_cases hreal : o.asset.isSome = true ∧ taking.id = id
      · right
        obtain ⟨hasset, rfl⟩ := hreal
        exact ⟨⟨o, ho, hasset, hfree⟩, by rw [hnext]; exact Bool.toNat_le _, rfl⟩
      · left
        refine settled ?_ rfl
        rw [hnext]
        simpa using hreal
  | unlock _ _ _ _ hnext =>
      rw [hnext id] at hle
      exact Or.inl (settled (by omega) rfl)
  | drop _ _ heff =>
      exact Or.inl (settled (by rcases heff with rfl | rfl <;> rfl) rfl)

end Run

/-! ## A refresh that throws -/

/-- What a refresh leaves under an id is what was there, or empty; and where nothing was, nothing
is. -/
def Blanked (m m' : OrderMap) : Prop :=
  ∀ id o, m'.lookup id = some o → (m.lookup id).isSome ∧ (m.lookup id = some o ∨ o = {})

lemma Blanked.refl (m : OrderMap) : Blanked m m := fun _ _ h => ⟨by simp [h], Or.inl h⟩

lemma refreshLoop_blanks (s₀ : State) :
    ∀ (entries : List ((_ : UInt64) × Order)) (updated orders : OrderMap),
      (∀ e ∈ entries, (orders.lookup e.1).isSome) →
      (refreshLoop entries updated).wp { s₀ with ownOrders := orders } fun _ _ s' =>
        Blanked orders s'.ownOrders := by
  intro entries
  induction entries with
  | nil => exact fun _ orders _ => .refl orders
  | cons e rest ih =>
      intro updated orders hkeys
      obtain ⟨i, o⟩ := e
      have hrest : ∀ e ∈ rest, (orders.lookup e.1).isSome := fun e he => hkeys e (by simp [he])
      simp only [refreshLoop, Act.wp_bind, Act.wp_read, Act.afterBind_ok, Act.wp_monadLift]
      refine Act.wp_iff.mpr fun tr r _ _ => ?_
      cases r with
      | error e => exact .refl orders
      | ok b =>
          cases b with
          | false =>
              simp only [Act.afterBind_ok, Bool.false_eq_true, if_false]
              exact ih updated orders hrest
          | true =>
              simp only [Act.afterBind_ok, if_true, Act.wp_bind, Act.wp_write]
              have hkeys' : ∀ e ∈ rest, ((orders.insert i {}).lookup e.1).isSome := by
                intro e he
                by_cases hid : e.1 = i
                · rw [hid, AList.lookup_insert]
                  rfl
                · rw [AList.lookup_insert_ne hid]
                  exact hrest e he
              refine Act.wp_mono (ih _ _ hkeys') fun _ _ s' h id o' ho' => ?_
              obtain ⟨hsome, h⟩ := h id o' ho'
              by_cases hid : id = i
              · subst hid
                rw [AList.lookup_insert] at h
                refine ⟨hkeys ⟨id, o⟩ (by simp), Or.inr ?_⟩
                rcases h with h | h
                · exact (Option.some.inj h).symm
                · exact h
              · rw [AList.lookup_insert_ne hid] at hsome h
                exact ⟨hsome, h⟩

lemma refresh_blanks {s s' : State} {tr : Conversation} {e : Fail}
    (hx : (exec cfg .refresh s).Exec tr (.error e, s')) :
    Blanked s.ownOrders s'.ownOrders ∧ s'.nextFreeId = s.nextFreeId := by
  have hkeys : ∀ e ∈ s.ownOrders.entries, (s.ownOrders.lookup e.1).isSome := by
    rintro ⟨id, o⟩ he
    rw [AList.mem_lookup_iff.mpr he]
    rfl
  have hspec : (exec cfg .refresh).wp s fun _ r s' => (∃ e, r = .error e) →
      Blanked s.ownOrders s'.ownOrders ∧ s'.nextFreeId = s.nextFreeId := by
    simp only [exec, runRefresh, Act.wp_bind, Act.wp_read, Act.afterBind_ok]
    refine Act.wp_mono (Act.wp_and (refreshLoop_blanks s s.ownOrders.entries ∅ s.ownOrders hkeys)
      (refreshLoop_spec s s.ownOrders.entries ∅ s.ownOrders)) fun _ r s' h => ?_
    obtain ⟨hblank, ⟨orders, rfl⟩, _⟩ := h
    cases r with
    | error e => exact fun _ => ⟨hblank, rfl⟩
    | ok updated => simp
  exact Act.wp_iff.mp hspec tr _ s' hx ⟨e, rfl⟩

/-- **A section that threw**, outside of the updater: at most, it has emptied orders. -/
lemma throws_of_exec {s s' : State} {task : Task} {tr : Conversation}
    (hx : (exec cfg task s).Exec tr (.error .exception, s')) (hmatched : task.matched)
    (hnot : ¬ task.updating) :
    s'.trades = s.trades ∧ s'.nextFreeId = s.nextFreeId ∧ Blanked s.ownOrders s'.ownOrders := by
  have horders := Act.wp_iff.mp (exec_orders s hmatched) tr _ s' hx
  rcases horders.exception rfl with hup | ⟨rfl, _⟩ | rfl
  · exact absurd hup hnot
  · obtain ⟨hblank, hid⟩ := refresh_blanks hx
    refine ⟨?_, hid, hblank⟩
    cases section_of_exec hx with
    | idle hs _ _ _ => exact hs.trades
  · exact ⟨rfl, rfl, .refl _⟩

/-- After a section that failed, the process goes on only if it threw an exception and is not one of
the updater. -/
lemma exception_of_running {σ : Sys} {before after : List Thread} {op : Op} {task : Task}
    {rest : List Task} {tr : Conversation} {e : Fail} {s' : State} (hproper : σ.Proper)
    (hth : σ.threads = before ++ ⟨op, task :: rest⟩ :: after)
    (hrun : (σ.advance before after rest ⟨op, task, σ.state, tr, .error e, s'⟩).halted = false) :
    e = .exception ∧ ¬ task.updating := by
  cases e with
  | check c => simp [Sys.advance, halts] at hrun
  | exception =>
      refine ⟨rfl, fun hup => ?_⟩
      have hop : op = .updateTrades :=
        hproper ⟨op, task :: rest⟩ (by simp [hth]) task (by simp) hup
      rw [hop] at hrun
      simp [Sys.advance, halts, Op.background] at hrun

/-! ## The invariant -/

/-- The invariant: no order has two sessions, an order that is there with its data has at most one
holder, and none if it is unlocked, and the trades' addresses differ. -/
structure Sys.Sessions (σ : Sys) : Prop where
  one : ∀ id, σ.sessions id ≤ 1
  held : ∀ id o, σ.state.ownOrders.lookup id = some o → o.asset.isSome → σ.holders id ≤ 1
  free : ∀ id o, σ.state.ownOrders.lookup id = some o → o.asset.isSome → o.locked = false →
    σ.holders id = 0
  apart : (σ.state.trades.map TradeState.address).Nodup

/-- The address of a trade that takes an order. -/
def Order.address (o : Order) : String × String :=
  (o.getAccount, o.getAccount ++ "\n" ++ toString o.getId.toNat)

/-- `TakeOrder` is not called for an order that we are already taking, and `Add` gives out no id
that a trade against an own order still has. -/
def Distinct (x : Sys × W) : Label → Prop
  | .start _ => True
  | .run rec => match rec.task with
    | .takeOrder o units => checkOrder o units = true →
        ∀ t ∈ x.1.state.trades, t.address ≠ o.address
    | .add _ => x.1.holders x.1.state.nextFreeId = 0
    | _ => True

section Run

variable {σ : Sys} {before after : List Thread} {op : Op} {task : Task} {rest : List Task}
  {tr : Conversation} {s' : State} {eff : Effect}

/-- An order that is there with its data has one holder at most, and none if it is unlocked. -/
def HeldOnce (orders : OrderMap) (holders : UInt64 → ℕ) : Prop :=
  ∀ id o, orders.lookup id = some o → o.asset.isSome →
    holders id ≤ 1 ∧ (o.locked = false → holders id = 0)

lemma Sys.Sessions.heldOnce (h : σ.Sessions) : HeldOnce σ.state.ownOrders σ.holders :=
  fun id o ho hasset => ⟨h.held id o ho hasset, h.free id o ho hasset⟩

/-- Fewer holders, and orders that were there before or are empty. -/
lemma HeldOnce.mono {m m' : OrderMap} {holders holders' : UInt64 → ℕ} (h : HeldOnce m holders)
    (hle : ∀ id, holders' id ≤ holders id) (horders : Blanked m m') : HeldOnce m' holders' := by
  intro id o ho hasset
  rcases (horders id o ho).2 with ho | rfl
  · obtain ⟨hone, hfree⟩ := h id o ho hasset
    refine ⟨(hle id).trans hone, fun hunlocked => ?_⟩
    have := hle id
    have := hfree hunlocked
    omega
  · simp at hasset

/-- A change to a single order, which is in order by itself. -/
lemma HeldOnce.edit {m m' : OrderMap} {holders holders' : UInt64 → ℕ} (h : HeldOnce m holders)
    {n : UInt64} (horders : ∀ id ≠ n, m'.lookup id = m.lookup id)
    (hle : ∀ id ≠ n, holders' id ≤ holders id)
    (hself : ∀ o, m'.lookup n = some o → o.asset.isSome →
      holders' n ≤ 1 ∧ (o.locked = false → holders' n = 0)) : HeldOnce m' holders' := by
  intro id o ho hasset
  by_cases hid : id = n
  · subst hid
    exact hself o ho hasset
  · rw [horders id hid] at ho
    obtain ⟨hone, hfree⟩ := h id o ho hasset
    refine ⟨(hle id hid).trans hone, fun hunlocked => ?_⟩
    have := hle id hid
    have := hfree hunlocked
    omega

/-- An order that is removed needs no holders. -/
lemma HeldOnce.erase {m : OrderMap} {holders holders' : UInt64 → ℕ} (h : HeldOnce m holders)
    {n : UInt64} (hle : ∀ id, holders' id ≤ holders id) : HeldOnce (m.erase n) holders' := by
  refine h.edit (fun id hid => AList.lookup_erase_ne hid) (fun id _ => hle id) fun o ho => ?_
  rw [AList.lookup_erase] at ho
  cases ho

/-- **Orders and their holders** after a section that returned. -/
lemma Sys.Sessions.orders (h : σ.Sessions) (hth : σ.threads = before ++ ⟨op, task :: rest⟩ :: after)
    (htokens : Tokens σ.state task tr eff s') (hacc : s'.account = σ.state.account)
    (hadd : ∀ o, task = .add o → σ.holders σ.state.nextFreeId = 0) :
    HeldOnce s'.ownOrders
      (σ.advance before after rest ⟨op, task, σ.state, tr, .ok eff, s'⟩).holders := by
  have hbal := fun id =>
    @Sys.holders_advance σ before after op task rest tr s' eff hacc hth id
  have moved := fun htrades id =>
    @Sys.holders_moved σ before after op task rest tr s' eff hacc htrades hth id
  generalize σ.advance before after rest ⟨op, task, σ.state, tr, .ok eff, s'⟩ = σ' at hbal moved ⊢
  have stays : s'.trades = σ.state.trades → (∀ id, heldBy σ.state.account id eff.next = 0) →
      ∀ id, σ'.holders id ≤ σ.holders id := by
    intro htrades hnext id
    have := moved htrades id
    rw [hnext] at this
    omega
  cases htokens with
  | pass horders _ _ hpass =>
      rw [horders]
      refine h.heldOnce.mono (fun id => ?_) (.refl _)
      have h₁ := hbal id
      have h₂ := hpass id
      omega
  | @add o htask heff =>
      subst htask heff
      have hle := stays rfl fun id => heldBy_refreshTasks _ id
      refine h.heldOnce.edit (fun id hid => AList.lookup_insert_ne hid) (fun id _ => hle id)
        fun _ _ _ => ?_
      have := hle σ.state.nextFreeId
      have := hadd o rfl
      omega
  | remove _ heff =>
      subst heff
      exact h.heldOnce.erase (stays rfl fun id => heldBy_refreshTasks _ id)
  | refresh _ heff _ =>
      subst heff
      refine h.heldOnce.mono (stays rfl fun id => heldBy_nil _ id) fun id o ho => ?_
      rcases accept_sub ho with hempty | ho
      · cases hempty
      · have hold : σ.state.ownOrders.lookup id = some o := AList.mem_lookup_iff.mpr ho
        exact ⟨by rw [hold]; rfl, Or.inl hold⟩
  | @lock msg taking o htask _ ho hfree heff =>
      subst htask heff
      refine h.heldOnce.edit (fun id hid => AList.lookup_insert_ne hid) (fun id hid => ?_)
        fun o' ho' hasset => ?_
      · have := moved rfl id
        simp [Task.holds, Ne.symm hid] at this
        omega
      · have := moved rfl taking.id
        simp [Task.holds] at this
        rw [AList.lookup_insert] at ho'
        obtain rfl := Option.some.inj ho'
        have := h.free taking.id o ho hasset hfree
        exact ⟨by omega, by simp⟩
  | @unlock n o htask ho _ _ hnext =>
      refine h.heldOnce.edit (fun id hid => AList.lookup_insert_ne hid)
        (fun id _ => stays rfl hnext id) fun o' ho' hasset => ?_
      have := moved rfl n
      rw [hnext n, htask n] at this
      simp at this
      rw [AList.lookup_insert] at ho'
      obtain rfl := Option.some.inj ho'
      have := h.held n o ho hasset
      exact ⟨by omega, fun _ => by omega⟩
  | drop _ _ heff =>
      refine h.heldOnce.erase (stays rfl fun id => ?_)
      rcases heff with rfl | rfl <;> simp [Task.holds]

/-- Sessions after a section that returned. -/
lemma Sys.Sessions.one_step (h : σ.Sessions)
    (hth : σ.threads = before ++ ⟨op, task :: rest⟩ :: after)
    (htokens : Tokens σ.state task tr eff s') (hsec : Section cfg σ.state task tr (.ok eff) s')
    (id : UInt64) :
    (σ.advance before after rest ⟨op, task, σ.state, tr, .ok eff, s'⟩).sessions id ≤ 1 := by
  have hbal :=
    @Sys.sessions_advance σ before after op task rest tr s' (.ok eff) hsec.account_eq hth id
  rw [continuation, securedBy_append] at hbal
  have hone := h.one id
  rcases sessions_of_tokens htokens hsec id with hle | ⟨⟨o, ho, hasset, hfree⟩, hle, htrades⟩
  · omega
  · have := h.free id o ho hasset hfree
    have := σ.sessions_le id
    rw [htrades] at hbal
    omega

/-- Addresses of the trades after an update. -/
lemma address_update {us : List (TradeState × TradeState)}
    (hu : ∀ p ∈ us, ∃ tr, Update.Outcome p.1 tr (.ok ()) p.2) :
    (us.map Prod.snd).map TradeState.address = (us.map Prod.fst).map TradeState.address := by
  rw [List.map_map, List.map_map]
  refine List.map_congr_left fun p hp => ?_
  obtain ⟨tr, h⟩ := hu p hp
  exact h.frame.address

/-- One more trade at the end, with an address of its own. -/
lemma nodup_concat {trades : List TradeState} (h : (trades.map TradeState.address).Nodup)
    {t : TradeState} (ht : ∀ t' ∈ trades, t'.address ≠ t.address) :
    ((trades ++ [t]).map TradeState.address).Nodup := by
  rw [List.map_append, List.nodup_append]
  refine ⟨h, by simp, ?_⟩
  rintro a ha b hb rfl
  obtain ⟨t', ht', rfl⟩ := List.mem_map.mp ha
  rw [List.map_singleton, List.mem_singleton] at hb
  exact ht t' ht' hb

/-- The addresses after a section, unless it is an update that failed. -/
lemma Sys.Sessions.apart_step {r : Except Fail Effect} (h : σ.Sessions)
    (hth : σ.threads = before ++ ⟨op, task :: rest⟩ :: after) (hmatched : task.matched)
    (hsec : Section cfg σ.state task tr r s')
    (hok : task = .updateTrades → ∃ eff, r = .ok eff)
    (htake : ∀ o units, task = .takeOrder o units → checkOrder o units = true →
      ∀ t ∈ σ.state.trades, t.address ≠ o.address) :
    (s'.trades.map TradeState.address).Nodup := by
  cases hsec with
  | idle hs _ _ _ => rw [hs.trades]; exact h.apart
  | @orderTaken o taking msg now hcheck hown hother =>
      refine nodup_concat h.apart fun t' ht' heq => ?_
      -- a trade with that address is against the same order, which then has two sessions
      obtain ⟨haccount, hid⟩ := identifier_injective (congrArg Prod.snd heq)
      have hheld : 0 < heldIn σ.state.account taking.id σ.state.trades := by
        refine List.countP_pos_iff.mpr ⟨t', ht', ?_⟩
        have hid' : t'.order.getId = taking.id := hid.trans hmatched
        have hmaker : getRole σ.state.account t' = .maker := if_pos (haccount.trans hown)
        simp [TradeState.holds, hmaker, hid']
      have hsecures : (Task.secures σ.state.account taking.id (.orderTaken o taking msg)) = true := by
        simp only [checkOrder, Bool.and_eq_true] at hcheck
        simp [Task.secures, hcheck.1.1.2]
      have hsecured : 0 < securedBy σ.state.account taking.id σ.tasks := by
        refine List.countP_pos_iff.mpr ⟨_, ?_, hsecures⟩
        simp [Sys.tasks_split hth]
      have := h.one taking.id
      rw [Sys.sessions] at this
      omega
  | takeFailed _ _ _ _ => exact h.apart
  | @takeCreated o units _ _ _ pb' hcheck _ hout =>
      refine nodup_concat h.apart fun t' ht' heq => ?_
      refine htake o units rfl hcheck t' ht' (heq.trans ?_)
      rw [hout.frame.address]
      rfl
  | @processed _ before' t after' _ _ t' hs _ _ hout _ =>
      have haddress : t'.address = t.address :=
        ((handleMessage_spec _ _).frame.trans hout.frame).address
      have := h.apart
      rw [hs] at this
      simpa [haddress] using this
  | aborted _ _ _ => exact h.apart
  | updated hs hu _ =>
      have hall := h.apart
      rw [hs, ← address_update hu] at hall
      exact hall.sublist (List.filter_sublist.map _)
  | updateFailed _ _ =>
      obtain ⟨eff, heff⟩ := hok rfl
      simp at heff
  | succeeded _ hs _ => rw [hs.trades]; exact h.apart
  | unsuccessful _ hs _ => rw [hs.trades]; exact h.apart
  | readInputs => exact h.apart
  | unlockOutput _ => exact h.apart

end Run

/-- **The step of the invariant.** -/
lemma Sys.Sessions.step {x : Sys × W} {σ' : Sys} {l : Label} (h : x.1.Sessions)
    (hs : Sys.Step cfg x.1 l σ') (hproper : x.1.Proper) (hmatched : ∀ y ∈ x.1.tasks, y.matched)
    (hdistinct : Distinct x l) (hrun : σ'.halted = false) : σ'.Sessions := by
  cases hs with
  | start op hh =>
      have hholders : ∀ id, Sys.holders { x.1 with threads := x.1.threads ++ [⟨op, op.tasks⟩] } id
          = x.1.holders id := by
        intro id
        simp only [Sys.holders, Sys.tasks_start, heldBy_append, heldBy_start, Nat.add_zero]
      refine ⟨fun id => ?_, fun id o ho hasset => ?_, fun id o ho hasset hfree => ?_, h.apart⟩
      · have hzero : securedBy x.1.state.account id op.tasks = 0 := by
          have := securedBy_le x.1.state.account id op.tasks
          rw [heldBy_start] at this
          omega
        have := h.one id
        simpa only [Sys.sessions, Sys.tasks_start, securedBy_append, hzero, Nat.add_zero] using this
      · rw [hholders]
        exact h.held id o ho hasset
      · rw [hholders]
        exact h.free id o ho hasset hfree
  | @run before after op task rest tr r s' hh hth hx =>
      have hsec := section_of_exec hx
      have htask : task ∈ x.1.tasks := by simp [Sys.tasks_split hth]
      have horders := Act.wp_iff.mp (exec_orders x.1.state (hmatched task htask)) tr r s' hx
      have htake : ∀ o units, task = .takeOrder o units → checkOrder o units = true →
          ∀ t ∈ x.1.state.trades, t.address ≠ o.address := by
        rintro o units rfl
        exact hdistinct
      cases r with
      | ok eff =>
          have honce := h.orders hth horders hsec.account_eq (by rintro o rfl; exact hdistinct)
          exact ⟨fun id => h.one_step hth horders hsec id, fun id o ho ha => (honce id o ho ha).1,
            fun id o ho ha => (honce id o ho ha).2,
            h.apart_step hth (hmatched task htask) hsec (fun _ => ⟨eff, rfl⟩) htake⟩
      | error e =>
          obtain ⟨rfl, hnot⟩ := exception_of_running hproper hth hrun
          obtain ⟨htrades, _, hblank⟩ := throws_of_exec hx (hmatched task htask) hnot
          have honce : HeldOnce s'.ownOrders (x.1.advance before after rest
              ⟨op, task, x.1.state, tr, .error .exception, s'⟩).holders :=
            h.heldOnce.mono (fun id => Sys.holders_failed hsec.account_eq htrades hth id) hblank
          refine ⟨fun id => ?_, fun id o ho ha => (honce id o ho ha).1,
            fun id o ho ha => (honce id o ho ha).2, ?_⟩
          · have hbal := @Sys.sessions_advance x.1 before after op task rest tr s'
              (.error .exception) hsec.account_eq hth id
            have := h.one id
            rw [htrades] at hbal
            have hnil : securedBy x.1.state.account id (continuation rest (.error .exception)) = 0 :=
              rfl
            omega
          · show (s'.trades.map TradeState.address).Nodup
            rw [htrades]
            exact h.apart

/-- **Messages are unambiguous.**  `GetIdentifier` is injective; and in every run in which `TakeOrder`
is not called for an order that is already being taken, and `Add` gives out no id that a trade still
has, no two active trades have the same counterparty and identifier, so that a message is for at
most one of them. -/
theorem messages_unambiguous :
    (∀ t t' : TradeState, getIdentifier t = getIdentifier t' →
      t.order.getAccount = t'.order.getAccount ∧ t.order.getId = t'.order.getId) ∧
    ∀ x, ((system cfg E account).restrict Distinct).Reachable x → x.1.halted = false →
      (x.1.state.trades.map fun t => (t.counterparty, getIdentifier t)).Nodup ∧
      ∀ msg, x.1.state.trades.countP (tradeMatches msg) ≤ 1 := by
  refine ⟨fun t t' => identifier_injective, fun x hr hrun => ?_⟩
  have hinv : x.1.Sessions := by
    revert hrun
    refine Transition.System.Reachable.invariant (fun x => x.1.halted = false → x.1.Sessions) ?_ ?_ hr
    · intro x hx _
      have hempty : x.1 = Sys.start account := hx
      rw [hempty]
      refine ⟨fun id => ?_, ?_, ?_, by simp [Sys.start]⟩
      · simp [Sys.sessions, Sys.start, Sys.tasks, securedBy, heldIn]
      · intro id o ho
        simp [Sys.start] at ho
      · intro id o ho
        simp [Sys.start] at ho
    · rintro x l x' hr ih ⟨⟨hs, _⟩, hdistinct⟩ hrun
      exact (ih (not_halted_of_step hs)).step hs (reachable_proper hr.of_restrict)
        (reachable_matched hr.of_restrict) hdistinct hrun
  exact ⟨hinv.apart, fun msg => countP_matches hinv.apart msg⟩

/-! ### Taking an order twice -/

/-- A message for the trade that takes the gold. -/
def goldMessage : ProcessingMessage where
  counterparty := some "maker"
  identifier := some "maker\n7"

/-- No order is taken that is being taken, and none is added. -/
def Label.distinct : Label → Bool
  | .start _ => true
  | .run rec => match rec.task with
    | .takeOrder o _ => rec.pre.trades.all fun t => t.address ≠ o.address
    | .add _ => false
    | _ => true

/-- Two orders of one account are told apart. -/
theorem messages_unambiguous_orders : ∃ x : Sys × Int64,
    ((system sampleConfig (Env.ofScript tickScript) "taker").restrict Distinct).Reachable x ∧
    x.1.state.trades.length = 2 ∧ x.1.state.trades.countP (tradeMatches goldMessage) ≤ 1 := by
  obtain ⟨x, hr, hQ⟩ := Sys.exists_restricted sampleConfig tickScript "taker" 0
    [.start (.takeOrder goldOrder 2), .run 0,
      .start (.takeOrder { goldOrder with id := some 8 } 2), .run 1]
    Label.distinct Distinct
    (by
      rintro x l x' ⟨hs, _⟩ hok
      cases l with
      | start op => trivial
      | run rec =>
          obtain ⟨_, hpre, _⟩ := section_of_step hs
          obtain ⟨op, task, pre, tr, r, post⟩ := rec
          dsimp only at hpre
          subst hpre
          cases task with
          | takeOrder o units =>
              intro _ t ht
              have := List.all_eq_true.mp hok t ht
              simpa using this
          | add o => simp [Label.distinct] at hok
          | _ => trivial)
    (fun x => !x.1.halted && x.1.state.trades.length = 2) (by decide)
  simp only [Bool.and_eq_true, Bool.not_eq_true', decide_eq_true_eq] at hQ
  exact ⟨x, hr, hQ.2, (messages_unambiguous.2 x hr hQ.1).2 goldMessage⟩

/-- **The same order taken twice** makes two active trades with the same counterparty and
identifier, and a message for the one is also one for the other. -/
theorem message_ambiguous : ∃ x : Sys × Int64,
    (system sampleConfig (Env.ofScript tickScript) "taker").Reachable x ∧ x.1.halted = false ∧
    ¬ (x.1.state.trades.map fun t => (t.counterparty, getIdentifier t)).Nodup ∧
    x.1.state.trades.countP (tradeMatches goldMessage) = 2 := by
  obtain ⟨x, hr, hQ⟩ := Sys.exists_reachable sampleConfig tickScript "taker" 0
    [.start (.takeOrder goldOrder 2), .run 0, .start (.takeOrder goldOrder 2), .run 1]
    (fun x => !x.1.halted && decide (¬ (x.1.state.trades.map fun t : TradeState =>
      (t.counterparty, getIdentifier t)).Nodup) &&
      x.1.state.trades.countP (tradeMatches goldMessage) = 2) (by decide +kernel)
  simp only [Bool.and_eq_true, Bool.not_eq_true', decide_eq_true_eq] at hQ
  exact ⟨x, hr, hQ.1.1, hQ.1.2, hQ.2⟩

end Democrit
