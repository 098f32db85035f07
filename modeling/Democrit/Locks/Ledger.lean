import Democrit.Lib.Conservation
import Democrit.Locks.Lineage

/-!
# The ledger of lineages

The own orders, the trades against them and the remainders still to be put back are a ledger
(`Sys.ledger`), in which the goods are the units of the orders that the user adds.  Every section
that returns is one of its steps: **an `Add` of the user offers something, a `HandleSuccess` sells
part of an item, and the `Add` inside it puts the remainder back** (`Turn.step`).

The invariant (`Sys.Lines`) adds to the conservation of the ledger that everything on record goes
back to an order of the user, and that no trade is about more units than its order has.
-/

namespace Democrit

open Interaction

variable {cfg : Config} {account : String} {W : Type} {E : Env Call Answer W}

/-! ## The ledger of lineages -/

open Conservation

/-- The remainder that is still to be put back. -/
def Sys.owed (σ : Sys) : Option (ℕ × ℕ) :=
  match recreating σ.threads with
  | [] => none
  | o :: _ => (lineages σ.log).handling.map fun n => (n, o.maxUnits.toNat)

/-- The own orders and the trades against them, as a ledger. -/
def Sys.ledger (σ : Sys) : Ledger UInt64 ℕ where
  has id v := ∃ m, σ.Carries id m ∧ v = m.toNat
  root := (lineages σ.log).order
  total := offered σ.log
  sold := (lineages σ.log).sold σ.state.account (handled σ.log)
  owed := σ.owed

/-- The user has added an order with the section at position `n`. -/
def IsOffer (log : List Record) (n : ℕ) : Prop := ∃ rec o, log[n]? = some rec ∧ rec.offer = some o

/-- The invariant. -/
structure Sys.Lines (σ : Sys) : Prop where
  conserved : Conserved σ.ledger
  /-- Everything on record goes back to an order of the user. -/
  rooted : ∀ id m, σ.Carries id m → ∃ n, (lineages σ.log).order id = some n
  debt : recreating σ.threads ≠ [] → ∃ n, (lineages σ.log).handling = some n
  named : ∀ n, (∃ id, (lineages σ.log).order id = some n) ∨
    (∃ i, (lineages σ.log).trade i = some n) ∨ (lineages σ.log).handling = some n → IsOffer σ.log n
  /-- A trade is of the lineage of its order. -/
  trades : ∀ t, σ.Open t → getRole σ.state.account t = .maker →
    (lineages σ.log).trade t.serial = (lineages σ.log).order t.order.getId
  bounds : ∀ id o, σ.state.ownOrders.lookup id = some o → o.getMinUnits ≤ o.maxUnits
  taken : ∀ o taking msg, .orderTaken o taking msg ∈ σ.tasks → o.getMinUnits ≤ o.maxUnits
  /-- No trade is about more than its order. -/
  units : ∀ t, σ.Open t → getRole σ.state.account t = .maker → t.units ≤ t.order.maxUnits
  past : ∀ t ∈ handled σ.log, getRole σ.state.account t = .maker →
    t.units ≤ t.order.maxUnits ∧ ∃ n, (lineages σ.log).trade t.serial = some n

lemma IsOffer.lt {log : List Record} {n : ℕ} (h : IsOffer log n) : n < log.length := by
  obtain ⟨rec, o, hget, _⟩ := h
  exact (List.getElem?_eq_some_iff.mp hget).1

lemma IsOffer.append {log log' : List Record} {n : ℕ} (h : IsOffer log n) :
    IsOffer (log ++ log') n := by
  have hlt := h.lt
  obtain ⟨rec, o, hget, ho⟩ := h
  exact ⟨rec, o, by rw [List.getElem?_append_left hlt, hget], ho⟩

/-- An id on record was given out. -/
lemma Sys.Fresh.carries {σ : Sys} (h : σ.Fresh) {id m : UInt64} (hc : σ.Carries id m) :
    id ≠ σ.state.nextFreeId := by
  have hlt : id.toNat < σ.state.nextFreeId.toNat := by
    cases hc with
    | stored ho => exact h _ (Or.inl (by simp [Sys.table, ho]))
    | @taken o taking msg hmem =>
        refine h _ (Or.inr ?_)
        have : 0 < heldBy σ.state.account taking.id σ.tasks :=
          List.countP_pos_iff.mpr ⟨_, hmem, by simp [Task.holds]⟩
        show σ.holders taking.id ≠ 0
        rw [Sys.holders]
        omega
    | @trade t hopen hmaker =>
        refine h _ (Or.inr ?_)
        have hholds : t.holds σ.state.account t.order.getId = true := by
          simp [TradeState.holds, hmaker]
        show σ.holders t.order.getId ≠ 0
        rw [Sys.holders]
        rcases hopen with ht | ht
        · have : 0 < heldIn σ.state.account t.order.getId σ.state.trades :=
            List.countP_pos_iff.mpr ⟨t, ht, hholds⟩
          omega
        · have : 0 < heldBy σ.state.account t.order.getId σ.tasks :=
            List.countP_pos_iff.mpr ⟨.handle t, mem_handles ht, hholds⟩
          omega
  rintro rfl
  exact absurd hlt (Nat.lt_irrefl _)

lemma Lineages.sold_append (g : Lineages) (account : String) (l l' : List TradeState) (n : ℕ) :
    g.sold account (l ++ l') n = g.sold account l n + g.sold account l' n := by
  simp [Lineages.sold]

lemma Lineages.sold_congr {g g' : Lineages} {account : String} {l : List TradeState} {n : ℕ}
    (h : ∀ t ∈ l, g'.trade t.serial = g.trade t.serial) :
    g'.sold account l n = g.sold account l n := by
  rw [Lineages.sold, Lineages.sold]
  congr 2
  refine List.filter_congr fun t ht => ?_
  rw [Lineages.sale, Lineages.sale, h t ht]

/-- What the user has offered after another section. -/
lemma offered_append (log : List Record) (rec : Record) :
    offered (log ++ [rec])
      = Function.update (offered log) log.length
          ((rec.offer.map fun o => o.maxUnits.toNat).getD 0) := by
  funext n
  by_cases hn : n = log.length
  · rw [hn, Function.update_self, offered, List.getElem?_concat_length]
  · rw [Function.update_of_ne hn, offered, offered]
    have : (log ++ [rec])[n]? = log[n]? := by
      rcases Nat.lt_or_gt_of_ne hn with hlt | hgt
      · exact List.getElem?_append_left hlt
      · rw [List.getElem?_eq_none (by simp; omega), List.getElem?_eq_none (by omega)]
    rw [this]

lemma offered_length (log : List Record) : offered log log.length = 0 := by
  rw [offered, List.getElem?_eq_none (Nat.le_refl _)]

/-! ## Every section is a step of the ledger -/

lemma Thread.recreating_sub (th : Thread) :
    th.recreating = [] ∨ th.recreating = additions th.tasks := by
  rw [Thread.recreating]
  cases th.op with
  | addOrder o => exact Or.inl rfl
  | _ => exact Or.inr rfl

lemma Sys.owed_eq_none {σ : Sys} (h : recreating σ.threads = []) : σ.owed = none := by
  rw [Sys.owed, h]

/-- What is left of the order of a trade. -/
lemma toNat_reducedOrder {t : TradeState} (h : t.units ≤ t.order.maxUnits) :
    (reducedOrder t).maxUnits.toNat = t.order.maxUnits.toNat - t.units.toNat :=
  UInt64.toNat_sub_of_le _ _ h

/-- `ValidateOrder` accepts no order whose bounds are the wrong way round. -/
lemma bounds_of_wellFormed {o : Order} (h : orderWellFormed o = true) :
    o.getMinUnits ≤ o.maxUnits := by
  simp only [orderWellFormed, Bool.and_eq_true] at h
  rw [Order.getMinUnits]
  cases hmin : o.minUnits with
  | none => exact UInt64.zero_le
  | some m =>
      have := h.1.2
      rw [hmin] at this
      simp only [Option.all_some, Bool.and_eq_true, decide_eq_true_eq] at this
      exact this.2

/-- **`CheckOrder` compares with a sign**, but as long as the bounds of the order are the right way
round without one, it accepts no more units than there are. -/
lemma units_le_of_checkOrder {o : Order} {units : UInt64} (h : checkOrder o units.toInt64 = true)
    (hbounds : o.getMinUnits ≤ o.maxUnits) : units ≤ o.maxUnits := by
  simp only [checkOrder, Bool.and_eq_true, Bool.not_eq_true', Bool.or_eq_false_iff,
    decide_eq_false_iff_not] at h
  obtain ⟨hmax, hmin⟩ := h.1.1.1.1.1
  rw [Int64.not_lt, Int64.le_iff_toInt_le, Word.toInt_toInt64, Word.toInt_toInt64] at hmax hmin
  rw [UInt64.le_iff_toNat_le] at hbounds ⊢
  have := units.toNat_lt
  have := o.maxUnits.toNat_lt
  have := o.getMinUnits.toNat_lt
  split_ifs at hmax hmin <;> omega

/-- `OrderTaken` returns true only if `CheckOrder` does. -/
lemma checked_of_exec {o : Order} {taking : TakingOrder} {msg : ProcessingMessage} {s s' : State}
    {tr : Conversation} {eff : Effect}
    (hx : (exec cfg (.orderTaken o taking msg) s).Exec tr (.ok eff, s'))
    (heff : eff.processes = true) : checkOrder o taking.units.toInt64 = true := by
  have hspec : (exec cfg (.orderTaken o taking msg)).wp s fun _ r _ => ∀ eff, r = .ok eff →
      eff.processes = true → checkOrder o taking.units.toInt64 = true := by
    simp only [exec, Act.wp_bind]
    refine Act.wp_mono (orderTaken_spec s o taking.units.toInt64 (msg.counterparty.getD ""))
      fun tr r s' h => ?_
    cases h with
    | refused _ =>
        rintro _ ⟨⟩ heff
        simp [Effect.processes] at heff
    | foreign _ _ => simp
    | created hcheck _ _ => exact fun _ _ _ => hcheck
  exact Act.wp_iff.mp hspec tr _ s' hx eff rfl heff

/-- `HandleSuccess` removes the order, and leaves what is left of it to be added. -/
lemma success_of_exec {t : TradeState} {s s' : State} {tr : Conversation} {eff : Effect}
    (hx : (exec cfg (.handle t) s).Exec tr (.ok eff, s')) (hmaker : getRole s.account t = .maker)
    (hsuccess : t.getState = .success) :
    s' = { s with ownOrders := s.ownOrders.erase t.order.getId } ∧
      eff.next = refreshTasks ++ if keepsReducedOrder t then [.add (reducedOrder t)] else [] := by
  have hspec : (exec cfg (.handle t)).wp s fun _ r s' => ∀ eff, r = .ok eff →
      s' = { s with ownOrders := s.ownOrders.erase t.order.getId } ∧
        eff.next = refreshTasks ++ if keepsReducedOrder t then [.add (reducedOrder t)] else [] := by
    simp only [exec, handleFinalised, hsuccess, hmaker, if_true, removeById, Act.wp_bind, Act.wp_read,
      Act.afterBind_ok, Act.wp_write]
    split
    · rename_i hkeep
      simp
    · rename_i hkeep
      simp
  exact Act.wp_iff.mp hspec tr _ s' hx eff rfl

namespace Turn

variable {σ σ' : Sys} {rec : Record} {eff : Effect} {rest : List Task}

/-- The section is one of `Add`, and `ValidateOrder` has accepted the order. -/
lemma of_accepted (h : Turn cfg σ rec eff rest σ') {o : Order} (ho : rec.accepted = some o) :
    rec.task = .add o ∧ orderWellFormed o = true ∧ eff.next = refreshTasks := by
  have htask : rec.task = .add o ∧ eff.next.isEmpty = false := by
    rw [Record.accepted, h.ok] at ho
    split at ho
    · rename_i o' eff' htask heff
      obtain rfl := Except.ok.inj heff
      split at ho
      · simp at ho
      · rename_i hne
        obtain rfl := Option.some.inj ho
        exact ⟨htask, by simpa using hne⟩
    · simp at ho
  have hx := h.exec
  rw [htask.1] at hx
  rcases add_of_exec hx with ⟨rfl, _⟩ | ⟨rfl, hwell, _⟩
  · simp at htask
  · exact ⟨htask.1, hwell, rfl⟩

/-- The trade that is handled is open. -/
lemma open_of_handle (h : Turn cfg σ rec eff rest σ') {t : TradeState} (ht : rec.task = .handle t) :
    σ.Open t := by
  right
  rw [h.tasks, ht]
  exact List.mem_cons_self

/-- What is on record keeps its lineage. -/
lemma keeps (h : Turn cfg σ rec eff rest σ') (hfresh : σ.Fresh) : Keeps σ.ledger σ'.ledger := by
  rintro id v ⟨m, hc, _⟩
  show (lineages σ'.log).order id = (lineages σ.log).order id
  rw [h.lineages_eq]
  refine Lineages.record_order _ ?_
  rw [h.pre]
  exact hfresh.carries hc

/-- What is offered, if the section is not a user's `Add`. -/
lemma total_eq (h : Turn cfg σ rec eff rest σ') (hoffer : rec.offer = none) :
    offered σ'.log = offered σ.log := by
  rw [h.log, offered_append, hoffer]
  exact Function.update_eq_self_iff.mpr (offered_length σ.log).symm

/-- What was sold, before and after. -/
lemma sold_eq (h : Turn cfg σ rec eff rest σ')
    (hserial : ∀ t, σ.Open t ∨ t ∈ handled σ.log → t.serial ≤ σ.state.created) (n : ℕ) :
    σ'.ledger.sold n = σ.ledger.sold n
      + (lineages σ.log).sold σ.state.account (handles [rec.task]) n := by
  show (lineages σ'.log).sold σ'.state.account (handled σ'.log) n = _
  rw [h.account_eq, h.handled_eq, h.lineages_eq]
  refine Eq.trans ?_ (Lineages.sold_append _ _ _ _ n)
  refine Lineages.sold_congr fun t ht => Lineages.record_trade _ ?_
  rw [h.pre]
  rcases List.mem_append.mp ht with ht | ht
  · exact hserial t (Or.inr ht)
  · refine hserial t (Or.inl (h.open_of_handle ?_))
    have := List.mem_singleton.mp (mem_handles ht)
    exact this.symm

/-- Nothing is on record after the section that was not before, unless an order was accepted. -/
lemma has_of_refused (h : Turn cfg σ rec eff rest σ') (horderly : σ.Orderly)
    (hrefused : rec.accepted = none) : ∀ k v, σ'.ledger.has k v → σ.ledger.has k v := by
  rintro k v ⟨m, hc, rfl⟩
  rcases h.carried horderly hc with hc | ⟨o, ho, _⟩
  · exact ⟨m, hc, rfl⟩
  · rw [hrefused] at ho
    simp at ho

/-- And at most the accepted order if one was. -/
lemma has_of_accepted (h : Turn cfg σ rec eff rest σ') (horderly : σ.Orderly) {o : Order}
    (ho : rec.accepted = some o) :
    AtMost σ.ledger σ'.ledger σ.state.nextFreeId o.maxUnits.toNat := by
  rintro k v ⟨m, hc, rfl⟩
  rcases h.carried horderly hc with hc | ⟨o', ho', rfl, rfl⟩
  · exact Or.inl ⟨m, hc, rfl⟩
  · rw [ho] at ho'
    obtain rfl := Option.some.inj ho'
    exact Or.inr ⟨rfl, rfl⟩

/-- The accepted order's lineage. -/
lemma root_of_accepted (h : Turn cfg σ rec eff rest σ') {o : Order} (ho : rec.accepted = some o) :
    σ'.ledger.root σ.state.nextFreeId
      = if rec.offer.isSome then some σ.log.length else (lineages σ.log).handling := by
  show (lineages σ'.log).order _ = _
  rw [h.lineages_eq, Lineages.record, ho, ← h.pre]
  exact Function.update_self _ _ _

/-- The user's `Add` offers something new. -/
lemma step_of_offer (h : Turn cfg σ rec eff rest σ') (horderly : σ.Orderly) (hfresh : σ.Fresh)
    (hlines : σ.Lines)
    (hserial : ∀ t, σ.Open t ∨ t ∈ handled σ.log → t.serial ≤ σ.state.created) {o : Order}
    (ho : rec.offer = some o) : Step σ.ledger σ'.ledger := by
  have haccepted : rec.accepted = some o ∧ Thread.recreating ⟨rec.op, eff.next ++ rest⟩ = [] := by
    rw [Record.offer] at ho
    rw [Thread.recreating]
    split at ho
    · rename_i heq
      rw [heq]
      exact ⟨ho, rfl⟩
    · simp at ho
  obtain ⟨haccepted, hnone⟩ := haccepted
  obtain ⟨htask, _, _⟩ := h.of_accepted haccepted
  -- the position in the log names no lineage yet
  have hnew : ∀ n, IsOffer σ.log n → n ≠ σ.log.length := fun n hn => Nat.ne_of_lt hn.lt
  refine .offer σ.state.nextFreeId o.maxUnits.toNat σ.log.length ?_ ?_
    (h.has_of_accepted horderly haccepted) (h.keeps hfresh) ?_ ?_ ?_ ?_
  · intro i w _ hroot
    exact hnew _ (hlines.named _ (Or.inl ⟨i, hroot⟩)) rfl
  · show Lineages.sold _ _ _ _ = 0
    rw [Lineages.sold, List.filter_eq_nil_iff.mpr, List.map_nil, List.sum_nil]
    intro t _ hsale
    simp only [Lineages.sale, Bool.and_eq_true, decide_eq_true_eq] at hsale
    exact hnew _ (hlines.named _ (Or.inr (Or.inl ⟨_, hsale.2⟩))) rfl
  · rw [h.root_of_accepted haccepted, ho]
    rfl
  · show offered σ'.log = _
    rw [h.log, offered_append, ho]
    rfl
  · funext n
    rw [h.sold_eq hserial n, htask]
    rfl
  · exact Sys.owed_eq_none (h.recreating_eq'.trans hnone)

/-- An `Add` inside `HandleSuccess` puts a remainder back. -/
lemma step_of_recreation (h : Turn cfg σ rec eff rest σ') (horderly : σ.Orderly) (hfresh : σ.Fresh)
    (hlines : σ.Lines)
    (hserial : ∀ t, σ.Open t ∨ t ∈ handled σ.log → t.serial ≤ σ.state.created) {o : Order}
    (ho : rec.accepted = some o) (hoffer : rec.offer = none) : Step σ.ledger σ'.ledger := by
  obtain ⟨htask, _, hnext⟩ := h.of_accepted ho
  have hrest := horderly.add (by rw [h.tasks, htask])
  have hop : ∀ tasks, Thread.recreating ⟨rec.op, tasks⟩ = additions tasks := by
    intro tasks
    rw [Record.offer] at hoffer
    rw [Thread.recreating]
    cases hop : rec.op with
    | addOrder o' =>
        rw [hop, ho] at hoffer
        simp at hoffer
    | _ => rfl
  have hbefore : recreating σ.threads = [o] := by
    rw [h.recreating_eq, hop, htask]
    show o :: additions rest = [o]
    rw [hrest]
  obtain ⟨r, hr⟩ := hlines.debt (by simp [hbefore])
  refine .putBack σ.state.nextFreeId o.maxUnits.toNat r ?_ (h.has_of_accepted horderly ho)
    (h.keeps hfresh) ?_ (h.total_eq hoffer) ?_ ?_
  · show σ.owed = _
    rw [Sys.owed, hbefore, hr]
    rfl
  · rw [h.root_of_accepted ho, hoffer, hr]
    rfl
  · funext n
    rw [h.sold_eq hserial n, htask]
    rfl
  · refine Sys.owed_eq_none ?_
    rw [h.recreating_eq', hop, hnext, additions_append, hrest]
    rfl

/-- A trade that is handled is the only one against its order, and once `HandleSuccess` has removed
the order, nothing is on record under its id. -/
lemma gone_of_success (h : Turn cfg σ rec eff rest σ') (horderly : σ.Orderly)
    (hsessions : σ.Sessions) {t : TradeState} (ht : rec.task = .handle t)
    (hmaker : getRole σ.state.account t = .maker) (hsuccess : t.getState = .success) (m : UInt64) :
    ¬ σ'.Carries t.order.getId m := by
  have hx := h.exec
  rw [ht] at hx
  obtain ⟨hpost, hnext⟩ := success_of_exec hx hmaker hsuccess
  obtain ⟨_, hnotaken⟩ := horderly.handle (by rw [h.tasks, ht])
  have hone := hsessions.one t.order.getId
  have hself : Task.secures σ.state.account t.order.getId (.handle t) = true := by
    simp [Task.secures, TradeState.holds, hmaker]
  rw [Sys.sessions, h.tasks, ht, securedBy_cons, hself, Bool.toNat_true] at hone
  intro hc
  generalize hid : t.order.getId = id at *
  cases hc with
  | stored ho =>
      rw [h.post, hpost, AList.lookup_erase] at ho
      simp at ho
  | @taken o taking msg hmem =>
      rw [h.tasks', hnext, List.mem_append] at hmem
      rcases hmem with hmem | hmem
      · split at hmem <;> simp [refreshTasks] at hmem
      · exact hnotaken o taking msg hmem
  | @trade t' hopen hmaker' =>
      rw [h.account_eq] at hmaker'
      have hholds : t'.holds σ.state.account t'.order.getId = true := by
        simp [TradeState.holds, hmaker']
      rcases hopen with ht' | ht'
      · rw [h.post, hpost] at ht'
        have : 0 < heldIn σ.state.account t'.order.getId σ.state.trades :=
          List.countP_pos_iff.mpr ⟨t', ht', hholds⟩
        omega
      · rw [h.tasks', handles_append, List.mem_append] at ht'
        rcases ht' with ht' | ht'
        · rw [handles_of_leads h.leads (by simp [ht])] at ht'
          simp at ht'
        · have : 0 < securedBy σ.state.account t'.order.getId rest :=
            List.countP_pos_iff.mpr ⟨.handle t', mem_handles ht', hholds⟩
          omega

/-- `HandleSuccess` sells part of the order. -/
lemma step_of_success (h : Turn cfg σ rec eff rest σ') (horderly : σ.Orderly) (hfresh : σ.Fresh)
    (hsessions : σ.Sessions) (hlines : σ.Lines)
    (hserial : ∀ t, σ.Open t ∨ t ∈ handled σ.log → t.serial ≤ σ.state.created) {t : TradeState}
    (ht : rec.task = .handle t) (hmaker : getRole σ.state.account t = .maker)
    (hsuccess : t.getState = .success) : Step σ.ledger σ'.ledger := by
  have hopen := h.open_of_handle ht
  have hcarries : σ.Carries t.order.getId t.order.maxUnits := .trade hopen hmaker
  have hunits := hlines.units t hopen hmaker
  obtain ⟨r, hr⟩ := hlines.rooted _ _ hcarries
  have htrade := hlines.trades t hopen hmaker
  rw [hr] at htrade
  have hrefused : rec.accepted = none := by
    simp [Record.accepted, ht]
  have hoffer : rec.offer = none := by
    rw [Record.offer, hrefused]
    split <;> rfl
  refine .sell t.order.getId t.order.maxUnits.toNat r t.units.toNat ⟨_, hcarries, rfl⟩ hr
    (UInt64.le_iff_toNat_le.mp hunits) ?_ (h.keeps hfresh) (h.total_eq hoffer) ?_ ?_
  · rintro i w hi
    refine ⟨h.has_of_refused horderly hrefused i w hi, ?_⟩
    rintro rfl
    obtain ⟨m, hc, _⟩ := hi
    exact h.gone_of_success horderly hsessions ht hmaker hsuccess m hc
  · funext n
    rw [h.sold_eq hserial n, ht]
    show _ + Lineages.sold _ _ [t] n = _
    by_cases hn : n = r
    · rw [hn, Function.update_self]
      simp [Lineages.sold, Lineages.sale, hmaker, hsuccess, htrade]
    · rw [Function.update_of_ne hn]
      simp [Lineages.sold, Lineages.sale, htrade, Ne.symm hn]
  · show σ'.owed = _ ∨ σ'.owed = _
    have hx := h.exec
    rw [ht] at hx
    obtain ⟨_, hnext⟩ := success_of_exec hx hmaker hsuccess
    have hhandling : (lineages σ'.log).handling = some r := by
      rw [h.lineages_eq, Lineages.record, ht]
      exact htrade
    have hrest : additions rest = [] := (horderly.handle (by rw [h.tasks, ht])).1
    rcases Thread.recreating_sub ⟨rec.op, eff.next ++ rest⟩ with hnone | hsome
    · exact Or.inl (Sys.owed_eq_none (h.recreating_eq'.trans hnone))
    · have hadds := h.recreating_eq'.trans hsome
      rw [hnext, additions_append, hrest, List.append_nil] at hadds
      by_cases hkeep : keepsReducedOrder t = true
      · right
        rw [if_pos hkeep] at hadds
        rw [Sys.owed, hadds]
        show Option.map _ (lineages σ'.log).handling = _
        rw [hhandling, ← toNat_reducedOrder hunits]
        rfl
      · rw [if_neg hkeep] at hadds
        exact Or.inl (Sys.owed_eq_none hadds)

/-- What is left to be put back after any other section. -/
lemma owed_of_other (h : Turn cfg σ rec eff rest σ') (horderly : σ.Orderly)
    (hnot : ∀ t, rec.task = .handle t →
      ¬ (getRole σ.state.account t = .maker ∧ t.getState = .success)) :
    recreating σ'.threads = [] ∨ recreating σ'.threads = recreating σ.threads ∧
      (lineages σ'.log).handling = (lineages σ.log).handling := by
  -- nothing comes from the section itself
  have hnext : additions eff.next = [] := by
    rcases additions_of_exec h.exec with hnone | ⟨t, ht, hmaker, hsuccess, _⟩
    · exact hnone
    · exact absurd ⟨hmaker, hsuccess⟩ (hnot t ht)
  have hrest : additions (eff.next ++ rest) = additions rest := by
    rw [additions_append, hnext, List.nil_append]
  have hnone : additions rest = [] → recreating σ'.threads = [] := by
    intro hnil
    rw [h.recreating_eq']
    rcases Thread.recreating_sub ⟨rec.op, eff.next ++ rest⟩ with heq | heq
    · exact heq
    · rw [heq, hrest, hnil]
  cases htask : rec.task with
  | handle t => exact Or.inl (hnone (horderly.handle (by rw [h.tasks, htask])).1)
  | add o => exact Or.inl (hnone (horderly.add (by rw [h.tasks, htask])))
  | _ =>
      right
      refine ⟨?_, by rw [h.lineages_eq, Lineages.record, htask]⟩
      rw [h.recreating_eq', h.recreating_eq, htask, Thread.recreating, Thread.recreating]
      cases rec.op with
      | addOrder o => rfl
      | _ => exact hrest

/-- Any other section keeps the ledger. -/
lemma step_of_other (h : Turn cfg σ rec eff rest σ') (horderly : σ.Orderly) (hfresh : σ.Fresh)
    (hserial : ∀ t, σ.Open t ∨ t ∈ handled σ.log → t.serial ≤ σ.state.created)
    (hrefused : rec.accepted = none)
    (hnot : ∀ t, rec.task = .handle t →
      ¬ (getRole σ.state.account t = .maker ∧ t.getState = .success)) :
    Step σ.ledger σ'.ledger := by
  have hoffer : rec.offer = none := by
    rw [Record.offer, hrefused]
    split <;> rfl
  refine .keep (h.has_of_refused horderly hrefused) (h.keeps hfresh) (h.total_eq hoffer) ?_ ?_
  · funext n
    rw [h.sold_eq hserial n]
    suffices (lineages σ.log).sold σ.state.account (handles [rec.task]) n = 0 by omega
    rw [Lineages.sold, List.filter_eq_nil_iff.mpr, List.map_nil, List.sum_nil]
    intro t ht hsale
    simp only [Lineages.sale, Bool.and_eq_true, decide_eq_true_eq] at hsale
    exact hnot t (List.mem_singleton.mp (mem_handles ht)).symm ⟨hsale.1.2, hsale.1.1⟩
  · show σ'.owed = σ.owed ∨ σ'.owed = none
    rcases h.owed_of_other horderly hnot with hnone | ⟨hsame, hhandling⟩
    · exact Or.inr (Sys.owed_eq_none hnone)
    · rw [Sys.owed, Sys.owed, hsame, hhandling]
      exact Or.inl rfl

/-- **Every section that returns is a step of the ledger.** -/
theorem step (h : Turn cfg σ rec eff rest σ') (horderly : σ.Orderly) (hfresh : σ.Fresh)
    (hsessions : σ.Sessions) (hlines : σ.Lines)
    (hserial : ∀ t, σ.Open t ∨ t ∈ handled σ.log → t.serial ≤ σ.state.created) :
    Step σ.ledger σ'.ledger := by
  cases haccepted : rec.accepted with
  | some o =>
      cases hoffer : rec.offer with
      | some o' => exact h.step_of_offer horderly hfresh hlines hserial hoffer
      | none => exact h.step_of_recreation horderly hfresh hlines hserial haccepted hoffer
  | none =>
      by_cases hsale : ∃ t, rec.task = .handle t ∧ getRole σ.state.account t = .maker ∧
          t.getState = .success
      · obtain ⟨t, ht, hmaker, hsuccess⟩ := hsale
        exact h.step_of_success horderly hfresh hsessions hlines hserial ht hmaker hsuccess
      · exact h.step_of_other horderly hfresh hserial haccepted
          fun t ht hsold => hsale ⟨t, ht, hsold⟩

/-! ## The invariant after a section -/

/-- Everything on record goes back to an order of the user. -/
lemma rooted (h : Turn cfg σ rec eff rest σ') (horderly : σ.Orderly) (hfresh : σ.Fresh)
    (hlines : σ.Lines) {id m : UInt64} (hc : σ'.Carries id m) :
    ∃ n, (lineages σ'.log).order id = some n := by
  rcases h.carried horderly hc with hc | ⟨o, ho, rfl, rfl⟩
  · obtain ⟨n, hn⟩ := hlines.rooted id m hc
    exact ⟨n, (h.keeps hfresh id _ ⟨m, hc, rfl⟩).trans hn⟩
  · cases hoffer : rec.offer with
    | some o' =>
        exact ⟨σ.log.length, (h.root_of_accepted ho).trans (by rw [hoffer]; rfl)⟩
    | none =>
        obtain ⟨htask, _, _⟩ := h.of_accepted ho
        have hbefore : recreating σ.threads ≠ [] := by
          rw [h.recreating_eq, htask, Thread.recreating]
          rw [Record.offer] at hoffer
          cases hop : rec.op with
          | addOrder o' =>
              rw [hop, ho] at hoffer
              simp at hoffer
          | _ => simp [additions]
        obtain ⟨n, hn⟩ := hlines.debt hbefore
        exact ⟨n, (h.root_of_accepted ho).trans (by rw [hoffer]; exact hn)⟩

/-- And so does a remainder. -/
lemma debt (h : Turn cfg σ rec eff rest σ') (horderly : σ.Orderly) (hlines : σ.Lines)
    (hne : recreating σ'.threads ≠ []) : ∃ n, (lineages σ'.log).handling = some n := by
  by_cases hsale : ∃ t, rec.task = .handle t ∧ getRole σ.state.account t = .maker ∧
      t.getState = .success
  · obtain ⟨t, ht, hmaker, _⟩ := hsale
    have hopen := h.open_of_handle ht
    obtain ⟨n, hn⟩ := hlines.rooted _ _ (.trade hopen hmaker)
    refine ⟨n, ?_⟩
    rw [h.lineages_eq, Lineages.record, ht]
    exact (hlines.trades t hopen hmaker).trans hn
  · rcases h.owed_of_other horderly (fun t ht hsold => hsale ⟨t, ht, hsold⟩) with
      hnone | ⟨hsame, hhandling⟩
    · exact absurd hnone hne
    · rw [hhandling]
      exact hlines.debt (by rwa [← hsame])

/-- Lineages are named by orders of the user. -/
lemma named (h : Turn cfg σ rec eff rest σ') (hlines : σ.Lines) {n : ℕ}
    (hn : (∃ id, (lineages σ'.log).order id = some n) ∨ (∃ i, (lineages σ'.log).trade i = some n) ∨
      (lineages σ'.log).handling = some n) : IsOffer σ'.log n := by
  have hold : (∃ id, (lineages σ.log).order id = some n) ∨
      (∃ i, (lineages σ.log).trade i = some n) ∨ (lineages σ.log).handling = some n →
      IsOffer σ'.log n := by
    intro hn
    rw [h.log]
    exact (hlines.named n hn).append
  rw [h.lineages_eq] at hn
  rcases hn with ⟨id, hn⟩ | ⟨i, hn⟩ | hn
  · rw [Lineages.record] at hn
    cases ho : rec.accepted with
    | none =>
        rw [ho] at hn
        exact hold (Or.inl ⟨id, hn⟩)
    | some o =>
        rw [ho] at hn
        by_cases hid : id = rec.pre.nextFreeId
        · rw [hid] at hn
          dsimp only at hn
          rw [Function.update_self] at hn
          split at hn
          · rename_i hoffer
            obtain ⟨o', ho'⟩ := Option.isSome_iff_exists.mp hoffer
            obtain rfl := Option.some.inj hn
            rw [h.log]
            exact ⟨rec, o', List.getElem?_concat_length, ho'⟩
          · exact hold (Or.inr (Or.inr hn))
        · dsimp only at hn
          rw [Function.update_of_ne hid] at hn
          exact hold (Or.inl ⟨id, hn⟩)
  · rw [Lineages.record] at hn
    cases ht : rec.taken with
    | none =>
        rw [ht] at hn
        exact hold (Or.inr (Or.inl ⟨i, hn⟩))
    | some t =>
        rw [ht] at hn
        dsimp only at hn
        by_cases hi : i = t.serial
        · rw [hi, Function.update_self] at hn
          exact hold (Or.inl ⟨_, hn⟩)
        · rw [Function.update_of_ne hi] at hn
          exact hold (Or.inr (Or.inl ⟨i, hn⟩))
  · rw [Lineages.record] at hn
    dsimp only at hn
    split at hn
    · exact hold (Or.inr (Or.inl ⟨_, hn⟩))
    · exact hold (Or.inr (Or.inr hn))

/-- A trade is of the lineage of its order. -/
lemma trades (h : Turn cfg σ rec eff rest σ') (horderly : σ.Orderly) (hfresh : σ.Fresh)
    (hlines : σ.Lines)
    (hserial : ∀ t, σ.Open t ∨ t ∈ handled σ.log → t.serial ≤ σ.state.created) {t' : TradeState}
    (hopen : σ'.Open t') (hmaker : getRole σ'.state.account t' = .maker) :
    (lineages σ'.log).trade t'.serial = (lineages σ'.log).order t'.order.getId := by
  rw [h.account_eq] at hmaker
  rw [h.lineages_eq]
  rcases h.opened hopen with ⟨t, hopen, hf⟩ | ⟨t₀, hcreation, hf⟩
  · rw [hf.getRole] at hmaker
    rw [hf.serial, hf.order, Lineages.record_trade, Lineages.record_order]
    · exact hlines.trades t hopen hmaker
    · rw [h.pre]
      exact hfresh.carries (.trade hopen hmaker)
    · rw [h.pre]
      exact hserial t (Or.inl hopen)
  · have htaken := h.taken_of_creation horderly hcreation
    obtain ⟨o, taking, msg, now, htask, _⟩ := Record.of_taken htaken
    rw [hf.serial, hf.order]
    simp [Lineages.record, htaken, Record.accepted, htask]

/-- The bounds of stored orders are the right way round. -/
lemma bounds (h : Turn cfg σ rec eff rest σ') (hlines : σ.Lines) {id : UInt64} {o : Order}
    (ho : σ'.state.ownOrders.lookup id = some o) : o.getMinUnits ≤ o.maxUnits := by
  rw [h.post] at ho
  rcases h.tokens.stored ho with ⟨o₀, ho₀, hmax, hmin⟩ | ⟨o₀, htask, _, rfl⟩
  · have := hlines.bounds id o₀ ho₀
    rwa [Order.getMinUnits, hmin, hmax] at this
  · have hx := h.exec
    rw [htask] at hx
    rcases add_of_exec hx with ⟨_, hsame⟩ | ⟨_, hwell, _⟩
    · rw [hsame] at ho
      exact hlines.bounds id _ ho
    · exact bounds_of_wellFormed hwell

/-- And so are those of orders that are taken. -/
lemma taken (h : Turn cfg σ rec eff rest σ') (hlines : σ.Lines) {o : Order} {taking : TakingOrder}
    {msg : ProcessingMessage} (hmem : .orderTaken o taking msg ∈ σ'.tasks) :
    o.getMinUnits ≤ o.maxUnits := by
  rw [h.tasks'] at hmem
  rcases List.mem_append.mp hmem with hmem | hmem
  · obtain ⟨o₀, ho₀, hmax, hmin⟩ := h.tokens.taken hmem
    have := hlines.bounds taking.id o₀ ho₀
    rwa [Order.getMinUnits, hmin, hmax] at this
  · exact hlines.taken o taking msg (by rw [h.tasks]; exact List.mem_cons_of_mem _ hmem)

/-- No trade is about more than its order. -/
lemma units (h : Turn cfg σ rec eff rest σ') (horderly : σ.Orderly) (hlines : σ.Lines)
    {t' : TradeState} (hopen : σ'.Open t') (hmaker : getRole σ'.state.account t' = .maker) :
    t'.units ≤ t'.order.maxUnits := by
  rw [h.account_eq] at hmaker
  rcases h.opened hopen with ⟨t, hopen, hf⟩ | ⟨t₀, hcreation, hf⟩
  · rw [hf.getRole] at hmaker
    rw [hf.units, hf.order]
    exact hlines.units t hopen hmaker
  · obtain ⟨o, taking, msg, now, htask, rfl⟩ :=
      Record.of_taken (h.taken_of_creation horderly hcreation)
    have hbounds := hlines.taken o taking msg (by rw [h.tasks, htask]; exact List.mem_cons_self)
    rw [hf.units, hf.order]
    show taking.units.toInt64.toUInt64 ≤ o.maxUnits
    rw [UInt64.toUInt64_toInt64]
    refine units_le_of_checkOrder ?_ hbounds
    have hx := h.exec
    rw [htask] at hx
    refine checked_of_exec hx ?_
    by_contra hnot
    simp [Record.creation, htask, h.ok, hnot] at hcreation

/-- Nor was one that is settled. -/
lemma past (h : Turn cfg σ rec eff rest σ') (hlines : σ.Lines)
    (hserial : ∀ t, σ.Open t ∨ t ∈ handled σ.log → t.serial ≤ σ.state.created) {t : TradeState}
    (ht : t ∈ handled σ'.log) (hmaker : getRole σ'.state.account t = .maker) :
    t.units ≤ t.order.maxUnits ∧ ∃ n, (lineages σ'.log).trade t.serial = some n := by
  rw [h.account_eq] at hmaker
  rw [h.handled_eq, List.mem_append] at ht
  rw [h.lineages_eq]
  rcases ht with ht | ht
  · rw [Lineages.record_trade _ (by rw [h.pre]; exact hserial t (Or.inr ht))]
    exact hlines.past t ht hmaker
  · have hopen := h.open_of_handle (List.mem_singleton.mp (mem_handles ht)).symm
    rw [Lineages.record_trade _ (by rw [h.pre]; exact hserial t (Or.inl hopen)),
      hlines.trades t hopen hmaker]
    exact ⟨hlines.units t hopen hmaker, hlines.rooted _ _ (.trade hopen hmaker)⟩

/-- **The invariant after a section.** -/
theorem lines (h : Turn cfg σ rec eff rest σ') (horderly : σ.Orderly) (hfresh : σ.Fresh)
    (hsessions : σ.Sessions) (hlines : σ.Lines)
    (hserial : ∀ t, σ.Open t ∨ t ∈ handled σ.log → t.serial ≤ σ.state.created) : σ'.Lines where
  conserved := (h.step horderly hfresh hsessions hlines hserial).conserved hlines.conserved
  rooted _ _ hc := h.rooted horderly hfresh hlines hc
  debt hne := h.debt horderly hlines hne
  named _ hn := h.named hlines hn
  trades _ hopen hmaker := h.trades horderly hfresh hlines hserial hopen hmaker
  bounds _ _ ho := h.bounds hlines ho
  taken _ _ _ hmem := h.taken hlines hmem
  units _ hopen hmaker := h.units horderly hlines hopen hmaker
  past _ ht hmaker := h.past hlines hserial ht hmaker

end Turn

end Democrit
