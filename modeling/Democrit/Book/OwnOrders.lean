import Democrit.RpcServer
import Democrit.Book.Amounts
import Democrit.Lib.Ranking
import Democrit.Locks.Lineage
import Democrit.Safety.Exceptions

/-!
# What a front end sees of our own orders

`getownorders` converts every own order to JSON, and the conversion asserts bounds on the units.  An
order gets among our own only through `ValidateOrder`, which checks these bounds; but a refresh that
throws leaves empty messages behind, and **an empty message fails the assertion, which ends the
daemon**.

`own_orders_shown` is about every state of every run.  Unless some refresh has thrown, the own
orders are listed completely, by ascending ids, and an item of the list can be given to `addorder`
again: it stands for the same order, exactly if the numbers in it are below `2 ^ 63`.
-/

namespace Democrit

open Interaction

variable {cfg : Config} {account : String} {W : Type} {E : Env Call Answer W}

/-! ## Items of the list -/

@[simp] lemma Json.member_removeMember (key key' : String) (j : Json) :
    (j.removeMember key').member key = if key = key' then none else j.member key := by
  cases j with
  | obj members =>
      rw [Json.removeMember, Json.member, List.find?_filter]
      split_ifs with hkey
      · subst hkey
        rw [Option.map_eq_none_iff, List.find?_eq_none]
        intro m _
        simp
      · rw [Json.member]
        congr 2
        funext m
        by_cases hm : m.1 = key
        · simp [hm, hkey]
        · simp [hm]
  | _ =>
      rw [Json.removeMember, Json.member, ite_self] <;> simp

/-- What `uint64?` makes of a number that `IntToJson` wrote. -/
lemma uint64_intToJson (x : UInt64) :
    (intToJson x.toInt64).uint64? = if x.toNat < 2 ^ 63 then some x else none := by
  split_ifs with hx
  · rw [intToJson_eq_iff.mpr hx, uint64_natToJson]
  · have hnot : ¬ 0 ≤ x.toInt64.toInt := fun h => hx (Word.toNat_lt_of_nonneg h)
    rw [intToJson, Json.uint64?, if_neg (fun h => hnot h.1)]

/-- The export shows the numbers of an order that fits, and the minimum is one of them. -/
lemma showsAmounts_of_fits {o : Order} {j : Json} (hwf : orderWellFormed o = true) (hexp : Exported o j)
    (h : Fits o) : ShowsAmounts o j := by
  obtain ⟨hmax, hprice, hid⟩ := h
  simp only [orderWellFormed, Bool.and_eq_true] at hwf
  have hmin : o.shownMin.toNat < 2 ^ 63 := by
    cases hm : o.minUnits with
    | none => simp [Order.shownMin, hm]
    | some m =>
        have hle : m ≤ o.maxUnits := by simpa using (by simpa [hm] using hwf.1.2 : _ ∧ _).2
        have := UInt64.le_iff_toNat_le.mp hle
        simp only [Order.shownMin, hm, Option.getD_some]
        omega
  refine ⟨?_, ?_, ?_, ?_⟩
  · rw [hexp.id]
    cases hi : o.id with
    | none => rfl
    | some i => exact congrArg some (intToJson_eq_iff.mpr (hid i hi))
  · rw [hexp.minUnits, intToJson_eq_iff.mpr hmin]
  · rw [hexp.maxUnits, intToJson_eq_iff.mpr hmax]
  · rw [hexp.priceSat, intToJson_eq_iff.mpr hprice]

/-- What is read from an object has units, a price and perhaps an id. -/
lemma members_of_import {j : Json} {o : Order} (h : orderFromJson j = some o) :
    (∃ i, j.readOptional "id" Json.uint64? = some i) ∧
      (∃ n, (j.member "max_units").bind Json.uint64? = some n) ∧
      ∃ p, (j.member "price_sat").bind Json.uint64? = some p := by
  rw [orderFromJson.eq_def] at h
  cases j with
  | obj members =>
      simp only [Option.bind_eq_bind, Option.bind_eq_some_iff] at h
      obtain ⟨_, _, i, hi, _, _, _, _, n, hn, p, hp, _⟩ := h
      exact ⟨⟨i, hi⟩, ⟨n, Option.bind_eq_some_iff.mpr hn⟩, p, Option.bind_eq_some_iff.mpr hp⟩
  | _ => cases h

/-- **Only an order that fits can be imported again.** -/
lemma fits_of_import {o o' : Order} {j : Json} (hexp : Exported o j)
    (h : orderFromJson j = some o') : Fits o := by
  have small : ∀ {x y : UInt64}, (intToJson x.toInt64).uint64? = some y → x.toNat < 2 ^ 63 := by
    intro x y hread
    rw [uint64_intToJson] at hread
    by_contra hx
    rw [if_neg hx] at hread
    cases hread
  obtain ⟨⟨i, hi⟩, ⟨n, hn⟩, p, hp⟩ := members_of_import h
  refine ⟨?_, ?_, fun i' hi' => ?_⟩
  · rw [hexp.maxUnits] at hn
    exact small hn
  · rw [hexp.priceSat] at hp
    exact small hp
  · rw [Json.readOptional, hexp.id, hi'] at hi
    obtain ⟨_, hread, _⟩ := Option.map_eq_some_iff.mp hi
    exact small hread

/-- The own order `id` as it is listed: with its id and an explicit minimum, and not locked. -/
def Order.listed (id : UInt64) (o : Order) : Order :=
  { o with
    id := some id
    minUnits := some o.shownMin
    locked := false }

/-- The item of the list for the own order `id`. -/
structure ShowsOwn (id : UInt64) (o : Order) (j : Json) : Prop where
  exported : Exported { o with id := some id } j
  account : j.member "account" = none
  locked : j.member "locked" = if o.locked then some (.bool true) else none
  /-- Given to `addorder`, it is the order again, if that is possible at all. -/
  added : ∀ op, RpcServer.addorder j = some op ↔
    Fits { o with id := some id } ∧ op = .addOrder (o.listed id)

/-- An order as `Add` keeps it. -/
structure Kept (o : Order) : Prop where
  wellFormed : orderWellFormed o = true
  account : o.account = none
  id : o.id = none

/-- What is left of an order that was moved from; it may have been locked since. -/
def Order.moved (o : Order) : Prop := { o with locked := false } = {}

lemma orderToJson_locked {o : Order} {j : Json} (h : orderToJson o = .ok j) :
    j.member "locked" = if o.locked then some (.bool true) else none := by
  rw [orderToJson] at h
  split at h
  · cases h
  · obtain rfl := Except.ok.inj h
    cases o.locked <;> simp

/-- **A kept order is listed.** -/
lemma shows_of_kept {o : Order} (h : Kept o) (id : UInt64) : ∃ j, orderToJson o = .ok j ∧
    ShowsOwn id o (Json.setMember "id" (intToJson id.toInt64) (j.removeMember "account")) := by
  obtain ⟨j, hj, hexp⟩ := exported_orderToJson (unitsOk_of_wellFormed h.wellFormed)
  have hitem : Exported { o with id := some id }
      (Json.setMember "id" (intToJson id.toInt64) (j.removeMember "account")) := by
    constructor
    · simp
    · simp [h.account]
    · simp
    · simp [hexp.asset]
    · simp [hexp.minUnits, Order.shownMin]
    · simp [hexp.maxUnits]
    · simp [hexp.priceSat, Order.getPriceSat]
    · simp [hexp.type]
  have hwf : orderWellFormed { o with id := some id } = true := h.wellFormed
  have hprice : o.priceSat.isSome := by
    simp only [orderWellFormed, Bool.and_eq_true] at hwf
    exact hwf.2
  have himport : Fits { o with id := some id } → orderFromJson _ = some (o.listed id) := fun hfits =>
    orderFromJson_exported hitem (showsAmounts_of_fits hwf hitem hfits) hprice
  refine ⟨j, hj, hitem, by simp, by simp [orderToJson_locked hj], fun op => ?_⟩
  rw [RpcServer.addorder, Option.map_eq_some_iff]
  constructor
  · rintro ⟨o', ho', rfl⟩
    have hfits := fits_of_import hitem ho'
    rw [himport hfits] at ho'
    obtain rfl := Option.some.inj ho'
    exact ⟨hfits, rfl⟩
  · rintro ⟨hfits, rfl⟩
    exact ⟨_, himport hfits, rfl⟩

/-- **An empty message fails the assertion.** -/
lemma orderToJson_moved {o : Order} (h : o.moved) : orderToJson o = .error .unitBounds := by
  have hmax : o.maxUnits = 0 := congrArg Order.maxUnits h
  have hmin : o.getMinUnits = 0 := by
    rw [Order.getMinUnits, show o.minUnits = none from congrArg Order.minUnits h]
    rfl
  rw [orderToJson, if_pos]
  rw [hmax, hmin]
  decide

/-! ## The list -/

/-- The own orders, all of them and by ascending ids. -/
structure ListsOwn (s : State) (j : Json) : Prop where
  account : j.member "account" = some (.str s.account)
  orders : ∃ (entries : List ((_ : UInt64) × Order)) (items : List Json),
    j.member "orders" = some (.arr items) ∧ (entries.map fun e => e.1.toNat).SortedLT ∧
      (∀ id o, ⟨id, o⟩ ∈ entries ↔ s.ownOrders.lookup id = some o) ∧
      List.Forall₂ (fun e item => ShowsOwn e.1 e.2 item) entries items

/-- One entry in the loop of `ProtoToJson`. -/
def ownItem (e : (_ : UInt64) × Order) : Except BookCheck (UInt64 × Json) := do
  let cur ← orderToJson e.2
  return (e.1, Json.setMember "id" (intToJson e.1.toInt64) (cur.removeMember "account"))

/-- What an entry is converted to. -/
def ShowsEntry (e : (_ : UInt64) × Order) (p : UInt64 × Json) : Prop :=
  p.1 = e.1 ∧ ShowsOwn e.1 e.2 p.2

lemma ownItem_of_kept {e : (_ : UInt64) × Order} (h : Kept e.2) :
    ∃ p, ownItem e = .ok p ∧ ShowsEntry e p := by
  obtain ⟨j, hj, hshows⟩ := shows_of_kept h e.1
  exact ⟨_, by rw [ownItem, hj]; rfl, rfl, hshows⟩

lemma ownItem_of_moved {e : (_ : UInt64) × Order} (h : e.2.moved) :
    ownItem e = .error .unitBounds := by
  rw [ownItem, orderToJson_moved h]
  rfl

lemma getownorders_eq (s : State) : RpcServer.getownorders s =
    ((internalGetOrders true s).orders.entries.mapM ownItem).map fun items =>
      Json.setMember "orders" (.arr ((items.insertionSort fun a b => a.1 ≤ b.1).map Prod.snd))
        (Json.setMember "account" (.str s.account) (.obj [])) := by
  show ((internalGetOrders true s).orders.entries.mapM ownItem >>= fun items => Except.ok _) = _
  cases (internalGetOrders true s).orders.entries.mapM ownItem with
  | error c => rfl
  | ok items => rfl

lemma mem_ownOrders {s : State} {id : UInt64} {o : Order} :
    ⟨id, o⟩ ∈ (internalGetOrders true s).orders.entries ↔ s.ownOrders.lookup id = some o := by
  rw [← AList.mem_lookup_iff, Option.mem_def, lookup_internalGetOrders]
  simp

/-- **The list**, if every own order is kept. -/
lemma getownorders_returns {s : State} (h : ∀ id o, s.ownOrders.lookup id = some o → Kept o) :
    ∃ j, RpcServer.getownorders s = .ok j ∧ ListsOwn s j := by
  obtain ⟨items, hitems, hall⟩ := Loops.mapM_collects ShowsEntry fun e he =>
    ownItem_of_kept (h e.1 e.2 (mem_ownOrders.mp he))
  -- the entries in the order in which their items are listed
  obtain ⟨entries, hperm, hsorted⟩ : ∃ entries,
      (internalGetOrders true s).orders.entries.Perm entries ∧
      List.Forall₂ ShowsEntry entries (items.insertionSort fun a b => a.1 ≤ b.1) := by
    have hcomp : Relation.Comp (List.Forall₂ ShowsEntry) List.Perm
        (internalGetOrders true s).orders.entries (items.insertionSort fun a b => a.1 ≤ b.1) :=
      ⟨items, hall, (List.perm_insertionSort _ items).symm⟩
    rwa [List.forall₂_comp_perm_eq_perm_comp_forall₂] at hcomp
  have hids : ∀ {l : List ((_ : UInt64) × Order)} {l' : List (UInt64 × Json)},
      List.Forall₂ ShowsEntry l l' → l'.map (fun p => p.1.toNat) = l.map fun e => e.1.toNat := by
    intro l l' h
    induction h with
    | nil => rfl
    | cons he _ ih => rw [List.map_cons, List.map_cons, ih, he.1]
  have hnodup : (items.map fun p => p.1.toNat).Nodup := by
    rw [hids hall]
    have hkeys := (internalGetOrders true s).orders.nodupKeys
    have : ((internalGetOrders true s).orders.entries.map fun e => e.1.toNat)
        = (List.keys (internalGetOrders true s).orders.entries).map UInt64.toNat := by
      rw [List.keys, List.map_map]
      rfl
    rw [this]
    exact List.Nodup.map (fun _ _ => UInt64.toNat_inj.mp) hkeys
  refine ⟨_, by rw [getownorders_eq, hitems]; rfl, by simp, entries, _, by simp; rfl, ?_, ?_, ?_⟩
  · rw [← hids hsorted]
    exact @Ranking.sortedLT_sort _ _ _ (fun p : UInt64 × Json => p.1.toNat) _ _
      (fun _ _ => UInt64.le_iff_toNat_le) _ hnodup
  · intro id o
    rw [← hperm.mem_iff]
    exact mem_ownOrders
  · rw [List.forall₂_map_right_iff]
    exact hsorted.imp fun _ _ h => h.2

/-- **The assertion**, if every own order is kept or was moved from. -/
lemma getownorders_fails_iff {s : State}
    (h : ∀ id o, s.ownOrders.lookup id = some o → Kept o ∨ o.moved) :
    RpcServer.getownorders s = .error .unitBounds ↔
      ∃ id o, s.ownOrders.lookup id = some o ∧ o.moved := by
  have hone : ∀ e ∈ (internalGetOrders true s).orders.entries, ∀ c, ownItem e = .error c →
      c = .unitBounds := by
    intro e he c hc
    rcases h e.1 e.2 (mem_ownOrders.mp he) with hkept | hmoved
    · obtain ⟨p, hp, _⟩ := ownItem_of_kept hkept
      rw [hp] at hc
      cases hc
    · rw [ownItem_of_moved hmoved] at hc
      exact (Except.error.inj hc).symm
  have hmap : RpcServer.getownorders s = .error .unitBounds ↔
      (internalGetOrders true s).orders.entries.mapM ownItem = .error .unitBounds := by
    rw [getownorders_eq]
    cases (internalGetOrders true s).orders.entries.mapM ownItem with
    | error c => simp [Except.map]
    | ok items => exact iff_of_false (by rintro ⟨⟩) (by rintro ⟨⟩)
  rw [hmap, Loops.mapM_fails_iff hone]
  constructor
  · rintro ⟨e, he, hfails⟩
    have hlookup := mem_ownOrders.mp he
    rcases h e.1 e.2 hlookup with hkept | hmoved
    · obtain ⟨p, hp, _⟩ := ownItem_of_kept hkept
      rw [hp] at hfails
      cases hfails
    · exact ⟨e.1, e.2, hlookup, hmoved⟩
  · rintro ⟨id, o, hlookup, hmoved⟩
    exact ⟨⟨id, o⟩, mem_ownOrders.mpr hlookup, ownItem_of_moved hmoved⟩

/-! ## Every run -/

/-- Every own order has the property. -/
def EveryOrder (Q : Order → Prop) (m : OrderMap) : Prop := ∀ id o, m.lookup id = some o → Q o

/-- Orders that were there before, or have the property by themselves. -/
lemma EveryOrder.mono {Q Q' : Order → Prop} {m m' : OrderMap} (h : EveryOrder Q m)
    (hQ : ∀ o, Q o → Q' o) (hsub : ∀ id o, m'.lookup id = some o → m.lookup id = some o ∨ Q' o) :
    EveryOrder Q' m' := by
  intro id o ho
  rcases hsub id o ho with hold | hnew
  · exact hQ o (h id o hold)
  · exact hnew

lemma EveryOrder.insert {Q : Order → Prop} {m : OrderMap} (h : EveryOrder Q m) (n : UInt64)
    {o : Order} (ho : Q o) : EveryOrder Q (m.insert n o) := by
  refine h.mono (fun _ => id) fun id o' ho' => ?_
  by_cases hid : id = n
  · subst hid
    rw [AList.lookup_insert] at ho'
    obtain rfl := Option.some.inj ho'
    exact Or.inr ho
  · rw [AList.lookup_insert_ne hid] at ho'
    exact Or.inl ho'

lemma EveryOrder.erase {Q : Order → Prop} {m : OrderMap} (h : EveryOrder Q m) (n : UInt64) :
    EveryOrder Q (m.erase n) := by
  refine h.mono (fun _ => id) fun id o ho => Or.inl ?_
  by_cases hid : id = n
  · subst hid
    rw [AList.lookup_erase] at ho
    cases ho
  · rwa [AList.lookup_erase_ne hid] at ho

/-- **The rule for own orders.**  A section that returns keeps a property that does not depend on
the lock, if an order that it adds has it. -/
lemma EveryOrder.returns {Q : Order → Prop} {s s' : State} {task : Task} {tr : Conversation}
    {eff : Effect} (h : EveryOrder Q s.ownOrders) (hlock : ∀ o b, Q o → Q { o with locked := b })
    (hadd : ∀ o, task = .add o → eff.next ≠ [] → Q { o with account := none, id := none })
    (hmatched : task.matched) (hx : (exec cfg task s).Exec tr (.ok eff, s')) :
    EveryOrder Q s'.ownOrders := by
  have htokens : Tokens s task tr eff s' := Act.wp_iff.mp (exec_orders s hmatched) tr _ s' hx
  cases htokens with
  | pass horders _ _ _ =>
      rw [horders]
      exact h
  | add htask heff => exact h.insert _ (hadd _ htask (by simp [heff, refreshTasks]))
  | remove _ _ => exact h.erase _
  | refresh _ _ _ =>
      refine h.mono (fun _ => id) fun id o ho => Or.inl ?_
      rcases accept_sub ho with hempty | ho
      · cases hempty
      · exact AList.mem_lookup_iff.mpr ho
  | lock _ _ ho _ _ => exact h.insert _ (hlock _ true (h _ _ ho))
  | unlock _ ho _ _ _ => exact h.insert _ (hlock _ false (h _ _ ho))
  | drop _ _ _ => exact h.erase _

/-- Every own order is as `Add` keeps it, or `P` holds and it was moved from. -/
def OwnOk (P : Prop) (m : OrderMap) : Prop := ∀ id o, m.lookup id = some o → Kept o ∨ o.moved ∧ P

lemma OwnOk.mono {P P' : Prop} {m m' : OrderMap} (h : OwnOk P m) (hP : P → P')
    (hsub : ∀ id o, m'.lookup id = some o → m.lookup id = some o ∨ o = {} ∧ P') : OwnOk P' m' :=
  EveryOrder.mono h (fun _ ho => ho.imp_right fun hmoved => ⟨hmoved.1, hP hmoved.2⟩)
    fun id o ho => (hsub id o ho).imp_right fun ⟨hempty, hP'⟩ => Or.inr ⟨by rw [hempty]; rfl, hP'⟩

/-- **A section that returns** brings no other orders along than those `ValidateOrder` accepts. -/
lemma OwnOk.returns {P : Prop} {s s' : State} {task : Task} {tr : Conversation} {eff : Effect}
    (h : OwnOk P s.ownOrders) (hmatched : task.matched)
    (hx : (exec cfg task s).Exec tr (.ok eff, s')) : OwnOk P s'.ownOrders := by
  refine EveryOrder.returns h (fun o b ho => ho.imp ?_ ?_) ?_ hmatched hx
  · exact fun hkept => ⟨hkept.wellFormed, hkept.account, hkept.id⟩
  · exact fun hmoved => ⟨hmoved.1, hmoved.2⟩
  · rintro o rfl hnext
    rcases add_of_exec hx with ⟨heff, _⟩ | ⟨_, hwf, _⟩
    · exact absurd (congrArg Effect.next heff) hnext
    · exact Or.inl ⟨hwf, rfl, rfl⟩

/-- Some refresh has thrown. -/
def Sys.refreshThrew (σ : Sys) : Prop := ∃ rec ∈ σ.log, rec.refreshThrew = true

/-- **The step of the invariant.** -/
lemma OwnOk.step {σ σ' : Sys} {l : Label} (h : OwnOk σ.refreshThrew σ.state.ownOrders)
    (hs : Sys.Step cfg σ l σ') (hproper : σ.Proper) (hmatched : ∀ y ∈ σ.tasks, y.matched)
    (hrun : σ'.halted = false) : OwnOk σ'.refreshThrew σ'.state.ownOrders := by
  cases hs with
  | start op _ => exact h
  | @run before after op task rest tr r s' hh hth hx =>
      have htask : task.matched := hmatched task (by simp [Sys.tasks_split hth])
      have hlog : σ.refreshThrew →
          (σ.advance before after rest ⟨op, task, σ.state, tr, r, s'⟩).refreshThrew :=
        fun ⟨rec, hrec, hthrew⟩ => ⟨rec, by simp [Sys.advance, hrec], hthrew⟩
      cases r with
      | ok eff => exact (h.returns htask hx).mono hlog fun _ _ ho => Or.inl ho
      | error e =>
          obtain ⟨rfl, hnot⟩ := exception_of_running hproper hth hrun
          have horders := Act.wp_iff.mp (exec_orders σ.state htask) tr _ s' hx
          rcases horders.exception rfl with hup | ⟨rfl, _⟩ | rfl
          · exact absurd hup hnot
          · -- this is the refresh that has thrown
            refine h.mono hlog fun id o ho => ((refresh_blanks hx).1 id o ho).2.imp_right fun he => ?_
            exact ⟨he, _, List.mem_append_right _ (List.mem_singleton_self _), rfl⟩
          · exact h.mono hlog fun _ _ ho => Or.inl ho

lemma reachable_ownOk {x : Sys × W} (h : (system cfg E account).Reachable x)
    (hrun : x.1.halted = false) : OwnOk x.1.refreshThrew x.1.state.ownOrders := by
  revert hrun
  refine Transition.System.Reachable.invariant
    (fun x => x.1.halted = false → OwnOk x.1.refreshThrew x.1.state.ownOrders) ?_ ?_ h
  · intro x hx _ id o ho
    have hempty : x.1 = Sys.start account := hx
    rw [hempty] at ho
    cases ho
  · rintro x l x' hr ih ⟨hs, _⟩ hrun
    exact (ih (not_halted_of_step hs)).step hs (reachable_proper hr) (reachable_matched hr) hrun

/-- **What `getownorders` answers.**  In every state of every run of the daemon: the request fails
an assertion exactly if one of the own orders was moved from; this is so only after a refresh that
has thrown; and otherwise the answer lists all own orders by ascending ids, each with an item that
`addorder` takes for the same order exactly if its numbers are below `2 ^ 63`. -/
theorem own_orders_shown {x : Sys × W} (h : (system cfg E account).Reachable x)
    (hrun : x.1.halted = false) :
    (RpcServer.getownorders x.1.state = .error .unitBounds ↔
      ∃ id o, x.1.state.ownOrders.lookup id = some o ∧ o.moved) ∧
    ((∃ id o, x.1.state.ownOrders.lookup id = some o ∧ o.moved) →
      ∃ rec ∈ x.1.log, rec.refreshThrew = true) ∧
    ((¬ ∃ id o, x.1.state.ownOrders.lookup id = some o ∧ o.moved) →
      ∃ j, RpcServer.getownorders x.1.state = .ok j ∧ ListsOwn x.1.state j) := by
  have hown := reachable_ownOk h hrun
  refine ⟨getownorders_fails_iff fun id o ho => (hown id o ho).imp_right And.left, ?_, fun hnone => ?_⟩
  · rintro ⟨id, o, ho, hmoved⟩
    rcases hown id o ho with hkept | ⟨_, hthrew⟩
    · have hmax : o.maxUnits = 0 := congrArg Order.maxUnits hmoved
      have hwf := hkept.wellFormed
      simp [orderWellFormed, hmax] at hwf
    · exact hthrew
  · refine getownorders_returns fun id o ho => ?_
    rcases hown id o ho with hkept | hmoved
    · exact hkept
    · exact absurd ⟨id, o, ho, hmoved.1⟩ hnone

/-- **The list ends the daemon** after an outage during the refresh that follows `addorder`; before
it, the order is listed and can be added again. -/
theorem own_orders_shown_outage :
    (∃ x : Sys × ℕ, (system sampleConfig (Env.ofScript (outageScript 4)) "maker").Reachable x ∧
      ∃ j items item, RpcServer.getownorders x.1.state = .ok j ∧
        j.member "orders" = some (.arr items) ∧ item ∈ items ∧
        RpcServer.addorder item = some (.addOrder (unitsOrder.listed 0))) ∧
    ∃ x : Sys × ℕ, (system sampleConfig (Env.ofScript (outageScript 4)) "maker").Reachable x ∧
      x.1.halted = false ∧ RpcServer.getownorders x.1.state = .error .unitBounds ∧
      ∃ rec ∈ x.1.log, rec.refreshThrew = true := by
  constructor
  · obtain ⟨x, hr, hQ⟩ := Sys.exists_reachable sampleConfig (outageScript 4) "maker" 0
      [.start (.addOrder unitsOrder), .run 0, .run 0]
      (fun x => (!x.1.halted && x.1.state.ownOrders.lookup 0 = some unitsOrder) &&
        x.1.log.all fun rec => !rec.refreshThrew) (by decide +kernel)
    simp only [Bool.and_eq_true, Bool.not_eq_true', decide_eq_true_eq, List.all_eq_true] at hQ
    obtain ⟨⟨hrun, horder⟩, hsmooth⟩ := hQ
    obtain ⟨_, hthrew, hlists⟩ := own_orders_shown hr hrun
    obtain ⟨j, hj, hlist⟩ := hlists fun hmoved => by
      obtain ⟨rec, hrec, hrec'⟩ := hthrew hmoved
      rw [hsmooth rec hrec] at hrec'
      cases hrec'
    obtain ⟨entries, items, hitems, _, hmem, hall⟩ := hlist.orders
    obtain ⟨item, hitem, hshows⟩ := Loops.exists_of_forall₂ hall ((hmem 0 unitsOrder).mpr horder)
    refine ⟨x, hr, j, items, item, hj, hitems, hitem, (hshows.added _).mpr ⟨⟨?_, ?_, ?_⟩, rfl⟩⟩
    · decide
    · decide
    · rintro i ⟨⟩
      decide
  · obtain ⟨x, hr, hQ⟩ := Sys.exists_reachable sampleConfig (outageScript 4) "maker" 0 outageSchedule
      (fun x => !x.1.halted && x.1.state.ownOrders.lookup 1 = some {}) (by decide +kernel)
    simp only [Bool.and_eq_true, Bool.not_eq_true', decide_eq_true_eq] at hQ
    obtain ⟨hfails, hthrew, _⟩ := own_orders_shown hr hQ.1
    have hmoved : ∃ id o, x.1.state.ownOrders.lookup id = some o ∧ o.moved := ⟨1, {}, hQ.2, rfl⟩
    exact ⟨x, hr, hQ.1, hfails.mpr hmoved, hthrew hmoved⟩

end Democrit
