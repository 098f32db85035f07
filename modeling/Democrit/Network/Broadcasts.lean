import Democrit.Daemon
import Democrit.Lib.Loops

/-!
# What a broadcast can do to a listener

`ValidateOrder` reads the fields of a broadcast order through getters with defaults, while the
order book asserts that they are present.  Presence of the asset and the price follows from what
`ValidateOrder` accepts, and so do the bounds that the JSON export asserts; **presence of the type
does not**, since an absent type reads as an ask.

`broadcasts_safe` says that this is all there is: a run of the listening daemon fails an assertion
exactly if some broadcast in it has an order that is accepted although it has no type.  The
invariant is `BookOk`, and the queries are run under it with `ViewOk` for the view they build up.
-/

namespace Democrit

/-! ## Single orders -/

/-- The assertion of the JSON export about the units of an order. -/
def UnitsOk (o : Order) : Prop := (max 1 o.getMinUnits.toInt64).toUInt64 ≤ o.maxUnits

/-- The bounds that `ValidateOrder` checks are those that the export asserts, although the one uses
unsigned and the other signed numbers for the minimum. -/
lemma unitsOk_of_wellFormed {o : Order} (h : orderWellFormed o = true) : UnitsOk o := by
  simp only [orderWellFormed, Bool.and_eq_true, decide_eq_true_eq] at h
  obtain ⟨⟨hmax, hmin⟩, _⟩ := h
  have hone : (1 : UInt64) ≤ o.maxUnits := by
    have hne : o.maxUnits.toNat ≠ 0 := fun h0 => hmax (UInt64.toNat_inj.mp h0)
    rw [UInt64.le_iff_toNat_le]
    show 1 ≤ o.maxUnits.toNat
    omega
  have hle : o.getMinUnits ≤ o.maxUnits := by
    cases hm : o.minUnits with
    | none =>
        simp only [Order.getMinUnits, hm, Option.getD_none]
        exact UInt64.zero_le
    | some m =>
        simp only [hm, Option.all_some, Bool.and_eq_true, decide_eq_true_eq] at hmin
        simpa [Order.getMinUnits, hm] using hmin.2
  show (if (1 : Int64) ≤ o.getMinUnits.toInt64 then o.getMinUnits.toInt64 else 1).toUInt64 ≤ _
  split
  · simpa using hle
  · exact hone

/-- An order that was accepted has its asset and its price, and passes the export. -/
lemma fields_of_validateOrder {spec : AssetSpec} (hempty : spec.isAsset "" = false)
    {account : String} {o : Order} (h : spec.validateOrder account o = true) :
    o.asset.isSome ∧ o.priceSat.isSome ∧ UnitsOk o := by
  simp only [AssetSpec.validateOrder, Bool.and_eq_true] at h
  obtain ⟨⟨hwf, hasset⟩, _⟩ := h
  refine ⟨?_, ?_, unitsOk_of_wellFormed hwf⟩
  · cases ha : o.asset with
    | none =>
        rw [Order.getAsset, ha, Option.getD_none, hempty] at hasset
        simp at hasset
    | some a => rfl
  · simp only [orderWellFormed, Bool.and_eq_true] at hwf
    exact hwf.2

/-! ## Views of the book -/

/-- The entries of one asset can be sorted and exported. -/
def EntryOk (e : OrderbookForAsset) : Prop :=
  ∀ o, o ∈ e.asks ∨ o ∈ e.bids → o.sortable = true ∧ UnitsOk o

/-- Every entry is labelled with its asset, is of the asset asked for, and is in order. -/
def ViewOk (asset : Option String) (view : OrderbookByAsset) : Prop :=
  ∀ a e, view.lookup a = some e → e.asset = a ∧ (∀ a', asset = some a' → a = a') ∧ EntryOk e

lemma ViewOk.empty (asset : Option String) : ViewOk asset ∅ := by
  intro a e h
  rw [AList.lookup_empty] at h
  simp at h

lemma ViewOk.insert {asset : Option String} {view : OrderbookByAsset} (h : ViewOk asset view)
    {a : String} {e : OrderbookForAsset} (hlabel : e.asset = a)
    (hasked : ∀ a', asset = some a' → a = a') (he : EntryOk e) :
    ViewOk asset (view.insert a e) := by
  intro b e' hb
  by_cases hab : b = a
  · subst hab
    rw [AList.lookup_insert] at hb
    obtain rfl := Option.some.inj hb
    exact ⟨hlabel, hasked, he⟩
  · rw [AList.lookup_insert_ne hab] at hb
    exact h b e' hb

/-- `AddOrderForAsset` on an order of the book. -/
lemma addOrderForAsset_keeps {asset : Option String} {view : OrderbookByAsset}
    (h : ViewOk asset view) {o : Order} {a : String} (ha : o.asset = some a)
    (hasked : ∀ a', asset = some a' → a = a') (hsort : o.sortable = true) (hunits : UnitsOk o) :
    ∃ view', addOrderForAsset view o = .ok view' ∧ ViewOk asset view' := by
  have hentry : ((view.lookup a).getD { asset := a }).asset = a ∧
      EntryOk ((view.lookup a).getD { asset := a }) := by
    cases hl : view.lookup a with
    | none =>
        refine ⟨rfl, ?_⟩
        rintro o (ho | ho) <;> simp at ho
    | some e => exact ⟨(h a e hl).1, (h a e hl).2.2⟩
  simp only [addOrderForAsset, ha]
  cases o.getType with
  | ask =>
      refine ⟨_, rfl, h.insert hentry.1 hasked ?_⟩
      rintro o' (ho' | ho')
      · rcases List.mem_append.mp ho' with ho' | ho'
        · exact hentry.2 o' (Or.inl ho')
        · rw [List.mem_singleton.mp ho']
          exact ⟨hsort, hunits⟩
      · exact hentry.2 o' (Or.inr ho')
  | bid =>
      refine ⟨_, rfl, h.insert hentry.1 hasked ?_⟩
      rintro o' (ho' | ho')
      · exact hentry.2 o' (Or.inl ho')
      · rcases List.mem_append.mp ho' with ho' | ho'
        · exact hentry.2 o' (Or.inr ho')
        · rw [List.mem_singleton.mp ho']
          exact ⟨hsort, hunits⟩

/-- `std::sort` on orders with all the fields that are compared. -/
lemma sortOrders_returns {l : List Order} (h : ∀ o ∈ l, o.sortable = true) :
    ∃ l', sortOrders l = .ok l' ∧ ∀ o, o ∈ l' ↔ o ∈ l := by
  refine ⟨_, if_neg ?_, fun o => List.mem_insertionSort _⟩
  rintro ⟨_, hnot⟩
  exact hnot (List.all_eq_true.mpr h)

lemma sortEntry_keeps {e : OrderbookForAsset} (h : EntryOk e) :
    ∃ e', sortEntry e = .ok e' ∧ e'.asset = e.asset ∧ EntryOk e' := by
  obtain ⟨asks, hasks, hmem⟩ := sortOrders_returns fun o ho => (h o (Or.inl ho)).1
  obtain ⟨bids, hbids, hmem'⟩ := sortOrders_returns fun o (ho : o ∈ e.bids.reverse) =>
    (h o (Or.inr (List.mem_reverse.mp ho))).1
  refine ⟨{ e with asks, bids := bids.reverse }, ?_, rfl, ?_⟩
  · simp only [sortEntry, hasks, hbids]
    rfl
  · rintro o (ho | ho)
    · exact h o (Or.inl ((hmem o).mp ho))
    · exact h o (Or.inr (List.mem_reverse.mp ((hmem' o).mp (List.mem_reverse.mp ho))))

/-- `SortByPrices`. -/
lemma sortByPrices_keeps {asset : Option String} {view : OrderbookByAsset} (h : ViewOk asset view) :
    ∃ view', sortByPrices view = .ok view' ∧ ViewOk asset view' := by
  refine Loops.foldlM_keeps (ViewOk asset) ?_ (ViewOk.empty asset)
  rintro ⟨a, e⟩ he sorted hsorted
  obtain ⟨hlabel, hasked, hentry⟩ := h a e (AList.mem_lookup_iff.mpr he)
  obtain ⟨e', he', hlabel', hentry'⟩ := sortEntry_keeps hentry
  refine ⟨sorted.insert a e', ?_, hsorted.insert (hlabel'.trans hlabel) hasked hentry'⟩
  simp only [he']
  rfl

/-! ## The queries -/

/-- Every order in the book has its asset and its price, and its units are in order. -/
def BookOk (book : OrderBook) : Prop :=
  ∀ acc a, book.orders.lookup acc = some a → ∀ e ∈ a.orders.entries,
    e.2.asset.isSome ∧ e.2.priceSat.isSome ∧ UnitsOk e.2

/-- The orders of one account, all of them or those of one asset. -/
lemma addAccount_keeps {asset : Option String} {acc : (_ : String) × AccountOrders}
    (hacc : ∀ e ∈ acc.2.orders.entries, e.2.asset.isSome ∧ e.2.priceSat.isSome ∧ UnitsOk e.2)
    {view : OrderbookByAsset} (h : ViewOk asset view) :
    ∃ view', OrderBook.addAccount asset view acc = .ok view' ∧ ViewOk asset view' := by
  refine Loops.foldlM_keeps (ViewOk asset) ?_ h
  rintro ⟨id, o⟩ ho view hview
  obtain ⟨hasset, hprice, hunits⟩ := hacc _ ho
  obtain ⟨a, ha⟩ := Option.isSome_iff_exists.mp hasset
  dsimp only at ha
  simp only [ha, reduceCtorEq, if_false]
  split
  · exact ⟨view, rfl, hview⟩
  · rename_i hasked
    refine addOrderForAsset_keeps hview (a := a) rfl ?_ ?_ hunits
    · rintro a' rfl
      simpa [Order.getAsset, ha] using hasked
    · simp [Order.sortable, hprice]

lemma internalGetByAsset_returns {book : OrderBook} (h : BookOk book) (asset : Option String) :
    ∃ view, book.internalGetByAsset asset = .ok view ∧ ViewOk asset view := by
  have hloop : ∃ view, book.accounts.foldlM (OrderBook.addAccount asset) ∅ = .ok view ∧
      ViewOk asset view := by
    refine Loops.foldlM_keeps (ViewOk asset) ?_ (ViewOk.empty asset)
    rintro ⟨acc, a⟩ hmem view hview
    have hmem : (⟨acc, a⟩ : (_ : String) × AccountOrders) ∈ book.orders.entries :=
      (List.mem_insertionSort _).mp hmem
    exact addAccount_keeps (h acc a (AList.mem_lookup_iff.mpr hmem)) hview
  obtain ⟨view, hview, hok⟩ := hloop
  obtain ⟨sorted, hsorted, hok'⟩ := sortByPrices_keeps hok
  refine ⟨sorted, ?_, hok'⟩
  rw [OrderBook.internalGetByAsset, hview]
  exact hsorted

/-- `GetForAsset`, once the book is collected. -/
lemma getForAsset_of_internal {book : OrderBook} {asset : String} {view : OrderbookByAsset}
    (h : book.internalGetByAsset (some asset) = .ok view) :
    book.getForAsset asset = (if view.entries.isEmpty then .ok { asset }
      else if view.entries.length ≠ 1 then .error .oneAsset
      else match view.lookup asset with
        | none => .error .assetFound
        | some res => if res.asset ≠ asset then .error .assetLabel else .ok res) := by
  rw [OrderBook.getForAsset, h]
  rfl

/-- `GetForAsset` finds at most the one asset it asked for. -/
lemma getForAsset_returns {book : OrderBook} (h : BookOk book) (asset : String) :
    ∃ e, book.getForAsset asset = .ok e ∧ EntryOk e := by
  obtain ⟨view, hview, hok⟩ := internalGetByAsset_returns h (some asset)
  have hkeys : ∀ e ∈ view.entries, e.1 = asset := by
    rintro ⟨a, e⟩ he
    exact (hok a e (AList.mem_lookup_iff.mpr he)).2.1 asset rfl
  rw [getForAsset_of_internal hview]
  rcases hentries : view.entries with _ | ⟨⟨a, e⟩, rest⟩
  · refine ⟨{ asset }, rfl, ?_⟩
    rintro o (ho | ho) <;> simp at ho
  · obtain rfl : a = asset := hkeys ⟨a, e⟩ (by simp [hentries])
    have hrest : rest = [] := by
      have hnodup := view.nodupKeys
      rw [hentries, List.nodupKeys_cons] at hnodup
      rw [List.eq_nil_iff_forall_not_mem]
      intro x hx
      apply hnodup.1
      have hx' : x.1 ∈ rest.keys := List.mem_keys_of_mem hx
      rwa [hkeys x (by simp [hentries, hx])] at hx'
    have hlookup : view.lookup a = some e := AList.mem_lookup_iff.mpr (by simp [hentries])
    refine ⟨e, ?_, (hok a e hlookup).2.2⟩
    simp [hrest, hlookup, (hok a e hlookup).1]

/-! ## The export -/

lemma orderToJson_returns {o : Order} (h : UnitsOk o) : ∃ j, orderToJson o = .ok j := by
  have hbounds : ¬ ¬ (max 1 o.getMinUnits.toInt64).toUInt64 ≤ o.maxUnits := not_not.mpr h
  rw [orderToJson, if_neg hbounds]
  exact ⟨_, rfl⟩

lemma orderbookSideToJson_returns {l : List Order} (h : ∀ o ∈ l, UnitsOk o) :
    ∃ j, orderbookSideToJson l = .ok j := by
  obtain ⟨l', hl'⟩ := Loops.mapM_returns (f := fun o => do
    return ((← orderToJson o).removeMember "asset").removeMember "type") (l := l) <| by
      intro o ho
      obtain ⟨j, hj⟩ := orderToJson_returns (h o ho)
      exact ⟨(j.removeMember "asset").removeMember "type", by rw [hj]; rfl⟩
  refine ⟨.arr l', ?_⟩
  rw [orderbookSideToJson, hl']
  rfl

lemma orderbookForAssetToJson_returns {e : OrderbookForAsset} (h : EntryOk e) :
    ∃ j, orderbookForAssetToJson e = .ok j := by
  obtain ⟨bids, hbids⟩ := orderbookSideToJson_returns fun o ho => (h o (Or.inr ho)).2
  obtain ⟨asks, hasks⟩ := orderbookSideToJson_returns fun o ho => (h o (Or.inl ho)).2
  rw [orderbookForAssetToJson, hbids, hasks]
  exact ⟨_, rfl⟩

lemma orderbookByAssetToJson_returns {view : OrderbookByAsset} (h : ViewOk none view) :
    ∃ j, orderbookByAssetToJson view = .ok j := by
  have hloop : ∃ j, orderbookByAssetToJson view = .ok j ∧ True := by
    refine Loops.foldlM_keeps (fun _ => True) ?_ trivial
    rintro ⟨a, e⟩ he res _
    obtain ⟨j, hj⟩ := orderbookForAssetToJson_returns (h a e (AList.mem_lookup_iff.mpr he)).2.2
    refine ⟨Json.setMember a (Json.setMember "asset" (.str a) j) res, ?_, trivial⟩
    simp only [hj]
    rfl
  obtain ⟨j, hj, _⟩ := hloop
  exact ⟨j, hj⟩

/-! ## Every run -/

/-- What a book with other orders in it keeps. -/
lemma BookOk.of_lookup {book book' : OrderBook} (h : BookOk book)
    (hsub : ∀ acc a, book'.orders.lookup acc = some a → book.orders.lookup acc = some a) :
    BookOk book' := fun acc a ha => h acc a (hsub acc a ha)

lemma lookup_of_erase {orders : AList fun _ : String => AccountOrders} {account acc : String}
    {a : AccountOrders} (h : (orders.erase account).lookup acc = some a) :
    orders.lookup acc = some a := by
  by_cases hacc : acc = account
  · subst hacc
    rw [AList.lookup_erase] at h
    simp at h
  · rwa [AList.lookup_erase_ne hacc] at h

/-- The timeouter only removes. -/
lemma lookup_of_timeoutLoop {timeoutBefore : ℤ} {acc : String} {a : AccountOrders} :
    ∀ {updates : List UpdateEvent} {orders : AList fun _ : String => AccountOrders},
      (OrderBook.timeoutLoop timeoutBefore updates orders).2.lookup acc = some a →
      orders.lookup acc = some a := by
  intro updates
  induction updates with
  | nil => exact fun h => h
  | cons ev rest ih =>
      intro orders h
      simp only [OrderBook.timeoutLoop] at h
      split at h
      · split at h
        · exact ih h
        · split at h
          · exact lookup_of_erase (ih h)
          · exact ih h
      · exact h

lemma updateOrders_keeps {book : OrderBook} (h : BookOk book) {now : ℤ} {account : String}
    {orders : OrderMap}
    (hfields : ∀ e ∈ orders.entries, e.2.asset.isSome ∧ e.2.priceSat.isSome ∧ UnitsOk e.2)
    (htype : ∀ e ∈ orders.entries, e.2.type.isSome) :
    ∃ book', book.updateOrders now { account := some account, orders } = .ok book' ∧
      BookOk book' := by
  have hall : (orders.entries.all fun e =>
      e.2.asset.isSome && e.2.type.isSome && e.2.priceSat.isSome) = true := by
    rw [List.all_eq_true]
    intro e he
    simp [hfields e he, htype e he]
  simp only [OrderBook.updateOrders, hall, if_true]
  split
  · exact ⟨_, rfl, h.of_lookup fun acc a ha => lookup_of_erase ha⟩
  · refine ⟨_, rfl, ?_⟩
    intro acc a ha
    by_cases hacc : acc = account
    · subst hacc
      rw [AList.lookup_insert] at ha
      obtain rfl := Option.some.inj ha
      exact hfields
    · rw [AList.lookup_insert_ne hacc] at ha
      exact h acc a ha

/-- The `AssetSpec` of the event does not take the empty string for an asset. -/
def BookEvent.RejectsEmpty : BookEvent → Prop
  | .message spec _ _ _ => spec.isAsset "" = false
  | _ => True

/-- If the event is a broadcast of an authenticated account, each of its orders that `ValidateOrder`
accepts has a type. -/
def BookEvent.Typed : BookEvent → Prop
  | .message spec _ (some account) (some data) =>
      ∀ e ∈ data.orders.entries, spec.validateOrder account e.2 = true → e.2.type.isSome
  | _ => True

/-- **One event.** -/
lemma event_keeps {book : OrderBook} (h : BookOk book) {ev : BookEvent} (hempty : ev.RejectsEmpty)
    (htyped : ev.Typed) : ∃ book', book.event ev = .ok book' ∧ BookOk book' := by
  cases ev with
  | message spec now account ext =>
      match account, ext with
      | some account, some data =>
          refine updateOrders_keeps h ?_ ?_
          · intro e he
            exact fields_of_validateOrder hempty (mem_entries_filter.mp he).2
          · intro e he
            obtain ⟨hmem, hvalid⟩ := mem_entries_filter.mp he
            exact htyped e hmem hvalid
      | none, _ => exact ⟨book, rfl, h⟩
      | some _, none => exact ⟨book, rfl, h⟩
  | runTimeout now =>
      exact ⟨_, rfl, h.of_lookup fun acc a ha => lookup_of_timeoutLoop ha⟩
  | getOrdersForAsset asset =>
      obtain ⟨e, he, hok⟩ := getForAsset_returns h asset
      obtain ⟨j, hj⟩ := orderbookForAssetToJson_returns hok
      refine ⟨book, ?_, h⟩
      rw [OrderBook.event, Daemon.getOrdersForAsset, he]
      show (orderbookForAssetToJson e >>= fun _ => _) = _
      rw [hj]
      rfl
  | getOrdersByAsset =>
      obtain ⟨view, hview, hok⟩ := internalGetByAsset_returns h none
      obtain ⟨j, hj⟩ := orderbookByAssetToJson_returns hok
      refine ⟨book, ?_, h⟩
      rw [OrderBook.event, Daemon.getOrdersByAsset, OrderBook.getByAsset, hview]
      show (orderbookByAssetToJson view >>= fun _ => _) = _
      rw [hj]
      rfl

/-- An accepted order without a type aborts, whatever is in the book. -/
lemma typed_of_event {book book' : OrderBook} {ev : BookEvent} (h : book.event ev = .ok book') :
    ev.Typed := by
  cases ev with
  | message spec now account ext =>
      match account, ext with
      | some account, some data =>
          intro e he hvalid
          simp only [OrderBook.event, Daemon.handleMessage, OrderBook.updateOrders] at h
          split at h
          · rename_i hall
            have := List.all_eq_true.mp hall e (mem_entries_filter.mpr ⟨he, hvalid⟩)
            simp only [Bool.and_eq_true] at this
            exact this.1.2
          · simp at h
      | none, _ => trivial
      | some _, none => trivial
  | _ => trivial

/-- **When no broadcast aborts the daemon.**  With `AssetSpec`s that reject the empty string, a run of
broadcasts, timeouts and queries fails no assertion exactly if every order that is broadcast by an
authenticated account and accepted by `ValidateOrder` has a type. -/
theorem broadcasts_safe (timeout : ℤ) (events : List BookEvent)
    (hempty : ∀ ev ∈ events, ev.RejectsEmpty) :
    (∃ book, OrderBook.run timeout events = .ok book) ↔ ∀ ev ∈ events, ev.Typed := by
  constructor
  · rintro ⟨book, h⟩ ev hev
    obtain ⟨b₁, b₂, hb⟩ := Loops.returns_of_foldlM h ev hev
    exact typed_of_event hb
  · intro htyped
    have hstart : BookOk { timeout } := by
      intro acc a ha
      rw [AList.lookup_empty] at ha
      simp at ha
    obtain ⟨book, hbook, _⟩ := Loops.foldlM_keeps (f := OrderBook.event) BookOk
      (fun ev hev book h => event_keeps h (hempty ev hev) (htyped ev hev)) hstart
    exact ⟨book, hbook⟩

/-- A game with gold, of which everybody has plenty. -/
def goldSpec : AssetSpec where
  isAsset a := a = "gold"
  canBuy _ _ _ := true
  canSell _ _ _ := some 0

/-- A broadcast of one order. -/
def broadcastOf (o : Order) : BookEvent :=
  .message goldSpec 0 (some "maker") (some { orders := AList.singleton 0 o })

/-- An ask with its type is taken in, and can be queried. -/
theorem broadcasts_safe_ask : ∃ book, OrderBook.run 1
    [broadcastOf { asset := some "gold", maxUnits := 1, type := some .ask, priceSat := some 1 },
      .getOrdersForAsset "gold", .getOrdersByAsset] = .ok book := by
  refine (broadcasts_safe 1 _ ?_).mpr ?_
  · intro ev hev
    simp only [List.mem_cons, List.not_mem_nil, or_false] at hev
    rcases hev with rfl | rfl | rfl
    · rfl
    · trivial
    · trivial
  · intro ev hev
    simp only [List.mem_cons, List.not_mem_nil, or_false] at hev
    rcases hev with rfl | rfl | rfl
    · intro e he _
      rw [List.mem_singleton.mp he]
      rfl
    · trivial
    · trivial

/-- The same order without its type passes `ValidateOrder` and **aborts the daemon**. -/
theorem broadcast_aborts :
    goldSpec.isAsset "" = false ∧
    goldSpec.validateOrder "maker" { asset := some "gold", maxUnits := 1, priceSat := some 1 } = true ∧
    OrderBook.run 1 [broadcastOf { asset := some "gold", maxUnits := 1, priceSat := some 1 }]
      = .error .orderFields := by
  refine ⟨rfl, rfl, rfl⟩

end Democrit
