import Democrit.Book.Expiry
import Democrit.Lib.Loops
import Democrit.Lib.Ranking
import Democrit.Network.Broadcasts
import Mathlib.Data.Prod.Lex
import Mathlib.Data.String.Basic

/-!
# The views of the order book

`GetByAsset` groups all stored orders by their asset, and sorts the two sides of each group.  What it
returns is worked out in two steps, one for each loop of the source:

* `stored` — the orders in the order in which the loops come across them.
* `grouped` — what the grouping makes of a list of stored orders (`visit_grouped`).
* `sorted` — what `SortByPrices` makes of a group (`sortByPrices_sorted`).

Account and id of an order are part of its `rank`, so no two orders have the same, and the sort has
only one possible outcome.  This is why **the hash maps that the orders come from do not matter**
(`Shows.unique`).  `GetForAsset` skips all orders of other assets beforehand, which leaves the group
it asks for as it is (`grouped_wanted`).
-/

namespace Democrit

/-! ## Stored and shown orders -/

/-- The order `o` is in the book, under `account` and `id`. -/
def OrderBook.Stores (book : OrderBook) (account : String) (id : UInt64) (o : Order) : Prop :=
  ∃ a, book.orders.lookup account = some a ∧ a.orders.lookup id = some o

/-- An order as the queries show it: with account and id, and without asset and type. -/
def Order.shown (account : String) (id : UInt64) (o : Order) : Order :=
  { o with account := some account, id := some id, asset := none, type := none }

/-- What orders are sorted by: the price, then the account, then the id. -/
def Order.rank (o : Order) : ℕ ×ₗ String ×ₗ ℕ :=
  toLex (o.getPriceSat.toNat, toLex (o.getAccount, o.getId.toNat))

/-- One side of the book for an asset. -/
def OrderbookForAsset.side (e : OrderbookForAsset) : OrderType → List Order
  | .ask => e.asks
  | .bid => e.bids

/-- The comparison in `SortByPrices` is that of the ranks. -/
lemma byPriceAsc_iff (a b : Order) : byPriceAsc a b = true ↔ a.rank < b.rank := by
  simp only [byPriceAsc, Order.rank, Prod.Lex.toLex_lt_toLex]
  by_cases hprice : a.getPriceSat = b.getPriceSat
  · by_cases haccount : a.getAccount = b.getAccount
    · simp [hprice, haccount, UInt64.lt_iff_toNat_lt]
    · simp [hprice, haccount]
  · have hne : a.getPriceSat.toNat ≠ b.getPriceSat.toNat := fun h =>
      hprice (UInt64.toNat_inj.mp h)
    simp [hprice, hne, UInt64.lt_iff_toNat_lt]

lemma not_byPriceAsc_iff (a b : Order) : (!byPriceAsc b a) = true ↔ a.rank ≤ b.rank := by
  rw [Bool.not_eq_true', Bool.eq_false_iff, ne_eq, byPriceAsc_iff, not_lt]

/-- An order as it is stored. -/
structure Stored where
  account : String
  id : UInt64
  order : Order

namespace Stored

/-- What the order is stored under. -/
def key (s : Stored) : String × UInt64 := (s.account, s.id)

/-- The order with its account and id filled in. -/
def filled (s : Stored) : Order := { s.order with account := some s.account, id := some s.id }

def shown (s : Stored) : Order := s.order.shown s.account s.id

/-- The order has the fields that `UpdateOrders` asserts. -/
def Complete (s : Stored) : Prop :=
  s.order.asset.isSome ∧ s.order.type.isSome ∧ s.order.priceSat.isSome

/-- The order is of the asset that is asked for. -/
def wanted (asset : Option String) (s : Stored) : Bool := asset.all fun a => s.order.asset = some a

end Stored

/-- All orders, in the order in which `InternalGetByAsset` comes across them. -/
def OrderBook.stored (book : OrderBook) : List Stored :=
  book.accounts.flatMap fun acc => acc.2.orders.entries.map fun e => ⟨acc.1, e.1, e.2⟩

lemma mem_stored {book : OrderBook} {s : Stored} :
    s ∈ book.stored ↔ book.Stores s.account s.id s.order := by
  simp only [OrderBook.stored, OrderBook.accounts, List.mem_flatMap, List.mem_insertionSort,
    List.mem_map, OrderBook.Stores]
  constructor
  · rintro ⟨⟨account, a⟩, ha, ⟨id, o⟩, ho, rfl⟩
    exact ⟨a, AList.mem_lookup_iff.mpr ha, AList.mem_lookup_iff.mpr ho⟩
  · rintro ⟨a, ha, ho⟩
    exact ⟨⟨s.account, a⟩, AList.mem_lookup_iff.mp ha, ⟨s.id, s.order⟩,
      AList.mem_lookup_iff.mp ho, rfl⟩

/-- No two orders are stored under the same account and id. -/
lemma nodup_stored (book : OrderBook) : (book.stored.map Stored.key).Nodup := by
  have hmap : book.stored.map Stored.key
      = book.accounts.flatMap fun acc => acc.2.orders.keys.map fun id => (acc.1, id) := by
    rw [OrderBook.stored, List.map_flatMap]
    refine List.flatMap_congr fun acc _ => ?_
    rw [AList.keys, List.keys, List.map_map, List.map_map]
    rfl
  have hnames : book.accounts.Pairwise fun a b => a.1 ≠ b.1 := by
    have hkeys : (book.accounts.map Sigma.fst).Nodup := by
      refine (((List.perm_insertionSort _ book.orders.entries).map Sigma.fst).nodup_iff).mpr ?_
      exact book.orders.keys_nodup
    exact List.pairwise_map.mp hkeys
  rw [hmap, List.nodup_flatMap]
  refine ⟨fun acc _ => ?_, hnames.imp fun {a b} hne => ?_⟩
  · exact acc.2.orders.keys_nodup.map fun x y h => (Prod.mk.inj h).2
  · intro x hx hx'
    obtain ⟨_, _, rfl⟩ := List.mem_map.mp hx
    obtain ⟨_, _, heq⟩ := List.mem_map.mp hx'
    exact hne (Prod.mk.inj heq).1.symm

/-! ## Grouping -/

/-- What the group of an asset has on one side. -/
def side (l : List Stored) (asset : String) (type : OrderType) : List Order :=
  (l.filter fun s => s.order.asset = some asset ∧ s.order.type = some type).map Stored.shown

/-- The group of an asset, if it has any orders. -/
def grouped (l : List Stored) (asset : String) : Option OrderbookForAsset :=
  if ∃ s ∈ l, s.order.asset = some asset then
    some { asset, bids := side l asset .bid, asks := side l asset .ask }
  else none

/-- What the two loops of `InternalGetByAsset` do with one order. -/
def visit (asset : Option String) (res : OrderbookByAsset) (s : Stored) :
    Except BookCheck OrderbookByAsset :=
  if s.order.asset = none then .error .hasAsset
  else if asset.any fun a => s.order.getAsset ≠ a then .ok res
  else addOrderForAsset res s.filled

/-- The two loops are one over the stored orders. -/
lemma foldlM_addAccount (asset : Option String) (accounts : List ((_ : String) × AccountOrders))
    (res : OrderbookByAsset) :
    accounts.foldlM (OrderBook.addAccount asset) res
      = (accounts.flatMap fun acc => acc.2.orders.entries.map fun e =>
          (⟨acc.1, e.1, e.2⟩ : Stored)).foldlM (visit asset) res := by
  induction accounts generalizing res with
  | nil => rfl
  | cons acc rest ih =>
      rw [List.foldlM_cons, List.flatMap_cons, List.foldlM_append, List.foldlM_map]
      have hacc : OrderBook.addAccount asset res acc
          = acc.2.orders.entries.foldlM (fun res e => visit asset res ⟨acc.1, e.1, e.2⟩) res := rfl
      rw [hacc]
      congr 1
      funext res'
      exact ih res'

lemma side_concat (l : List Stored) (s : Stored) (asset : String) (type : OrderType) :
    side (l ++ [s]) asset type = side l asset type
      ++ if s.order.asset = some asset ∧ s.order.type = some type then [s.shown] else [] := by
  rw [side, side, List.filter_append, List.map_append]
  split <;> simp_all

/-- The group that `AddOrderForAsset` finds or makes. -/
lemma grouped_getD (l : List Stored) (asset : String) :
    (grouped l asset).getD { asset }
      = { asset, bids := side l asset .bid, asks := side l asset .ask } := by
  rw [grouped]
  split
  · rfl
  · rename_i hnone
    have hside : ∀ type, side l asset type = [] := by
      intro type
      rw [side, List.map_eq_nil_iff, List.filter_eq_nil_iff]
      intro s hs h
      exact hnone ⟨s, hs, (of_decide_eq_true h).1⟩
    rw [hside, hside]
    rfl

/-- **One order.** -/
lemma addOrderForAsset_grouped {l : List Stored} {s : Stored} (hs : s.Complete)
    {res : OrderbookByAsset} (h : ∀ asset, res.lookup asset = grouped l asset) :
    ∃ res', addOrderForAsset res s.filled = .ok res' ∧
      ∀ asset, res'.lookup asset = grouped (l ++ [s]) asset := by
  obtain ⟨hasset, htype, _⟩ := hs
  obtain ⟨asset, hasset⟩ := Option.isSome_iff_exists.mp hasset
  obtain ⟨type, htype⟩ := Option.isSome_iff_exists.mp htype
  -- the entry of another asset stays, and that of this one has one order more
  have hother : ∀ asset', asset' ≠ asset → grouped (l ++ [s]) asset' = grouped l asset' := by
    intro asset' hne
    have hne' : ¬ s.order.asset = some asset' := by
      rw [hasset]
      exact fun h => hne (Option.some.inj h).symm
    simp [grouped, side_concat, hne']
  have hthis : grouped (l ++ [s]) asset = some
      { asset, bids := side (l ++ [s]) asset .bid, asks := side (l ++ [s]) asset .ask } := by
    rw [grouped, if_pos ⟨s, by simp, hasset⟩]
  have key : ∀ e, some e = grouped (l ++ [s]) asset →
      ∀ asset', (res.insert asset e).lookup asset' = grouped (l ++ [s]) asset' := by
    intro e he asset'
    by_cases hne : asset' = asset
    · subst hne
      rw [AList.lookup_insert, he]
    · rw [AList.lookup_insert_ne hne, h, hother asset' hne]
  have hfilled : s.filled.asset = some asset := hasset
  have hgetType : s.filled.getType = type := by rw [Order.getType, Stored.filled, htype]; rfl
  rw [addOrderForAsset, hfilled]
  simp only [h, grouped_getD, hgetType]
  cases type with
  | ask =>
      refine ⟨_, rfl, key _ ?_⟩
      rw [hthis, side_concat, side_concat]
      simp [hasset, htype, Stored.shown, Order.shown, Stored.filled]
  | bid =>
      refine ⟨_, rfl, key _ ?_⟩
      rw [hthis, side_concat, side_concat]
      simp [hasset, htype, Stored.shown, Order.shown, Stored.filled]

/-- **The loops of `InternalGetByAsset`.** -/
lemma visit_grouped {l : List Stored} (hl : ∀ s ∈ l, s.Complete) (asset : Option String) :
    ∃ res, l.foldlM (visit asset) ∅ = .ok res ∧
      ∀ a, res.lookup a = grouped (l.filter (Stored.wanted asset)) a := by
  refine Loops.foldlM_visits
    (fun seen (res : OrderbookByAsset) =>
      ∀ a, res.lookup a = grouped (seen.filter (Stored.wanted asset)) a) ?_ ?_
  · intro seen s hpre res hres
    have hs : s.Complete := hl s (hpre.subset (by simp))
    obtain ⟨a, ha⟩ := Option.isSome_iff_exists.mp hs.1
    have hget : s.order.getAsset = a := by rw [Order.getAsset, ha]; rfl
    have hne : s.order.asset ≠ none := by rw [ha]; exact Option.some_ne_none a
    rw [visit, if_neg hne, hget, List.filter_append]
    cases hw : s.wanted asset with
    | true =>
        have hnot : ¬ (asset.any fun a' => a ≠ a') = true := by
          cases asset with
          | none => simp
          | some b => simpa [Stored.wanted, ha] using hw
        rw [if_neg hnot]
        simpa [hw] using addOrderForAsset_grouped hs hres
    | false =>
        have hany : (asset.any fun a' => a ≠ a') = true := by
          cases asset with
          | none => simp [Stored.wanted] at hw
          | some b => simpa [Stored.wanted, ha] using hw
        rw [if_pos hany]
        refine ⟨res, rfl, ?_⟩
        simpa [hw] using hres
  · intro a
    rw [AList.lookup_empty]
    simp [grouped]

/-! ## Sorting -/

/-- An entry with both sides sorted. -/
def sorted (e : OrderbookForAsset) : OrderbookForAsset :=
  { e with
    asks := e.asks.insertionSort fun a b => !byPriceAsc b a
    bids := (e.bids.reverse.insertionSort fun a b => !byPriceAsc b a).reverse }

lemma sortEntry_sorted {e : OrderbookForAsset} (h : ∀ type, ∀ o ∈ e.side type, o.sortable = true) :
    sortEntry e = .ok (sorted e) := by
  have hsort : ∀ l : List Order, (∀ o ∈ l, o.sortable = true) →
      sortOrders l = .ok (l.insertionSort fun a b => !byPriceAsc b a) := fun l hl =>
    if_neg fun hnot => hnot.2 (List.all_eq_true.mpr hl)
  rw [sortEntry, hsort e.asks (h .ask), hsort e.bids.reverse fun o ho =>
    h .bid o (List.mem_reverse.mp ho)]
  rfl

/-- **`SortByPrices`.** -/
lemma sortByPrices_sorted {view : OrderbookByAsset}
    (h : ∀ a e, view.lookup a = some e → ∀ type, ∀ o ∈ e.side type, o.sortable = true) :
    ∃ view', sortByPrices view = .ok view' ∧ ∀ a, view'.lookup a = (view.lookup a).map sorted := by
  refine Loops.foldlM_visits
    (fun seen (view' : OrderbookByAsset) => ∀ a, view'.lookup a = (seen.dlookup a).map sorted) ?_ ?_
  · rintro seen ⟨a, e⟩ hpre view' hview'
    have hmem : (⟨a, e⟩ : (_ : String) × OrderbookForAsset) ∈ view.entries :=
      hpre.subset (by simp)
    have hsort := sortEntry_sorted (h a e (AList.mem_lookup_iff.mpr hmem))
    refine ⟨view'.insert a (sorted e), by rw [hsort]; rfl, fun b => ?_⟩
    rw [List.dlookup_append]
    by_cases hb : b = a
    · subst hb
      -- each asset comes once
      have hnew : seen.dlookup b = none := by
        rw [List.dlookup_eq_none]
        have hnodup : (seen ++ [(⟨b, e⟩ : (_ : String) × OrderbookForAsset)]).NodupKeys :=
          view.nodupKeys.sublist hpre.sublist
        rw [List.NodupKeys, List.keys, List.map_append, List.nodup_append] at hnodup
        exact fun hkey => hnodup.2.2 b hkey b (by simp) rfl
      rw [AList.lookup_insert, hnew]
      simp
    · rw [AList.lookup_insert_ne hb, hview' b, List.dlookup_cons_ne _ _ hb]
      simp
  · intro a
    rw [AList.lookup_empty]
    rfl

lemma sorted_side_perm (e : OrderbookForAsset) (type : OrderType) :
    ((sorted e).side type).Perm (e.side type) := by
  cases type with
  | ask => exact List.perm_insertionSort _ _
  | bid =>
      exact (List.reverse_perm _).trans
        ((List.perm_insertionSort _ _).trans (List.reverse_perm _))

lemma sorted_asks {e : OrderbookForAsset} (h : (e.asks.map Order.rank).Nodup) :
    ((sorted e).asks.map Order.rank).SortedLT := Ranking.sortedLT_sort not_byPriceAsc_iff h

/-- Sorting a list from behind is sorting it the other way. -/
lemma sorted_bids {e : OrderbookForAsset} (h : (e.bids.map Order.rank).Nodup) :
    ((sorted e).bids.map Order.rank).SortedGT := by
  have hrev : (e.bids.reverse.map Order.rank).Nodup := by
    rw [List.map_reverse]
    exact List.nodup_reverse.mpr h
  show (List.map Order.rank (List.reverse _)).SortedGT
  rw [List.map_reverse, List.sortedGT_reverse]
  exact Ranking.sortedLT_sort not_byPriceAsc_iff hrev

/-! ## The queries -/

/-- All orders in the book have the fields that `UpdateOrders` asserts. -/
def OrderBook.Complete (book : OrderBook) : Prop := ∀ s ∈ book.stored, s.Complete

/-- **What the queries return.** -/
lemma internalGetByAsset_grouped {book : OrderBook} (h : book.Complete) (asset : Option String) :
    ∃ view, book.internalGetByAsset asset = .ok view ∧
      ∀ a, view.lookup a = (grouped (book.stored.filter (Stored.wanted asset)) a).map sorted := by
  obtain ⟨res, hres, hlookup⟩ := visit_grouped h asset
  have hsortable : ∀ a e, res.lookup a = some e → ∀ type, ∀ o ∈ e.side type, o.sortable = true := by
    intro a e he type o ho
    rw [hlookup, grouped] at he
    split at he
    · obtain rfl := Option.some.inj he
      have hside : o ∈ side (book.stored.filter (Stored.wanted asset)) a type := by
        cases type with
        | ask => exact ho
        | bid => exact ho
      obtain ⟨s, hs, rfl⟩ := List.mem_map.mp hside
      have hmem : s ∈ book.stored := List.mem_of_mem_filter (List.mem_of_mem_filter hs)
      simp [Order.sortable, Stored.shown, Order.shown, (h s hmem).2.2]
    · cases he
  obtain ⟨view, hview, hsorted⟩ := sortByPrices_sorted hsortable
  refine ⟨view, ?_, fun a => by rw [hsorted, hlookup]⟩
  rw [OrderBook.internalGetByAsset, foldlM_addAccount]
  show (book.stored.foldlM (visit asset) ∅ >>= _) = _
  rw [hres]
  exact hview

/-- What a listing of the whole book has to be. -/
structure Shows (book : OrderBook) (view : OrderbookByAsset) : Prop where
  /-- Every order of the book is listed once, under its asset and on the side of its type. -/
  once : ∀ account id o, book.Stores account id o →
    ∃ asset type e, o.asset = some asset ∧ o.type = some type ∧ view.lookup asset = some e ∧
      (e.side type).count (o.shown account id) = 1
  /-- Nothing else is listed. -/
  only : ∀ asset e type o', view.lookup asset = some e → o' ∈ e.side type →
    ∃ account id o, book.Stores account id o ∧ o.asset = some asset ∧ o.type = some type ∧
      o' = o.shown account id
  /-- There is an entry for the assets of the orders in the book, and no other. -/
  assets : ∀ asset, (view.lookup asset).isSome ↔
    ∃ account id o, book.Stores account id o ∧ o.asset = some asset
  label : ∀ asset e, view.lookup asset = some e → e.asset = asset
  asks : ∀ asset e, view.lookup asset = some e → (e.asks.map Order.rank).SortedLT
  bids : ∀ asset e, view.lookup asset = some e → (e.bids.map Order.rank).SortedGT

lemma mem_side {l : List Stored} {asset : String} {type : OrderType} {o : Order} :
    o ∈ side l asset type ↔
      ∃ s ∈ l, s.order.asset = some asset ∧ s.order.type = some type ∧ o = s.shown := by
  simp only [side, List.mem_map, List.mem_filter, decide_eq_true_eq]
  constructor
  · rintro ⟨s, ⟨hs, hasset, htype⟩, rfl⟩
    exact ⟨s, hs, hasset, htype, rfl⟩
  · rintro ⟨s, hs, hasset, htype, rfl⟩
    exact ⟨s, ⟨hs, hasset, htype⟩, rfl⟩

/-- The rank of a shown order tells where it is stored. -/
lemma nodup_rank {l : List Stored} (h : (l.map Stored.key).Nodup) (asset : String)
    (type : OrderType) : ((side l asset type).map Order.rank).Nodup := by
  have hkeys : ((l.filter fun s => s.order.asset = some asset ∧ s.order.type = some type).map
      fun s => (s.account, s.id.toNat)).Nodup := by
    have hsub : ((l.filter fun s => s.order.asset = some asset ∧ s.order.type = some type).map
        Stored.key).Nodup := h.sublist (List.filter_sublist.map Stored.key)
    have hinj : Function.Injective fun k : String × UInt64 => (k.1, k.2.toNat) := by
      intro k k' heq
      obtain ⟨haccount, hid⟩ := Prod.mk.inj heq
      exact Prod.ext haccount (UInt64.toNat_inj.mp hid)
    simpa [Function.comp_def, Stored.key] using hsub.map hinj
  refine List.Nodup.of_map (fun r => ((ofLex (ofLex r).2).1, (ofLex (ofLex r).2).2)) ?_
  rw [side, List.map_map, List.map_map]
  exact hkeys

lemma grouped_side {l : List Stored} {asset : String} {e : OrderbookForAsset}
    (h : grouped l asset = some e) : e.asset = asset ∧ ∀ type, e.side type = side l asset type := by
  rw [grouped] at h
  split at h
  · obtain rfl := Option.some.inj h
    refine ⟨rfl, fun type => ?_⟩
    cases type with
    | ask => rfl
    | bid => rfl
  · cases h

/-- **The grouped and sorted orders are the listing.** -/
lemma shows_of_grouped {book : OrderBook} (h : book.Complete) {view : OrderbookByAsset}
    (hview : ∀ a, view.lookup a = (grouped book.stored a).map sorted) : Shows book view := by
  have hentry : ∀ a e, view.lookup a = some e → e.asset = a ∧
      (∀ type, (e.side type).Perm (side book.stored a type)) ∧
      (e.asks.map Order.rank).SortedLT ∧ (e.bids.map Order.rank).SortedGT := by
    intro a e he
    rw [hview, Option.map_eq_some_iff] at he
    obtain ⟨g, hg, rfl⟩ := he
    obtain ⟨hlabel, hside⟩ := grouped_side hg
    have hnodup : ∀ type, ((g.side type).map Order.rank).Nodup := fun type => by
      rw [hside]
      exact nodup_rank (nodup_stored book) a type
    refine ⟨hlabel, fun type => ?_, sorted_asks (hnodup .ask), sorted_bids (hnodup .bid)⟩
    rw [← hside]
    exact sorted_side_perm g type
  have hassets : ∀ a, (view.lookup a).isSome ↔ ∃ s ∈ book.stored, s.order.asset = some a := by
    intro a
    rw [hview, Option.isSome_map, grouped]
    split
    · rename_i hsome
      exact iff_of_true rfl hsome
    · rename_i hnone
      exact iff_of_false nofun hnone
  have hnodup : ∀ a type, (side book.stored a type).Nodup := fun a type =>
    (nodup_rank (nodup_stored book) a type).of_map _
  refine ⟨?_, ?_, ?_, fun a e he => (hentry a e he).1, fun a e he => (hentry a e he).2.2.1,
    fun a e he => (hentry a e he).2.2.2⟩
  · intro account id o ho
    have hmem : (⟨account, id, o⟩ : Stored) ∈ book.stored := mem_stored.mpr ho
    obtain ⟨hasset, htype, _⟩ := h _ hmem
    obtain ⟨asset, hasset⟩ := Option.isSome_iff_exists.mp hasset
    obtain ⟨type, htype⟩ := Option.isSome_iff_exists.mp htype
    obtain ⟨e, he⟩ := Option.isSome_iff_exists.mp ((hassets asset).mpr ⟨_, hmem, hasset⟩)
    refine ⟨asset, type, e, hasset, htype, he, ?_⟩
    rw [((hentry asset e he).2.1 type).count_eq]
    exact List.count_eq_one_of_mem (hnodup asset type)
      (mem_side.mpr ⟨_, hmem, hasset, htype, rfl⟩)
  · intro asset e type o' he ho'
    obtain ⟨s, hs, hasset, htype, rfl⟩ := mem_side.mp (((hentry asset e he).2.1 type).subset ho')
    exact ⟨s.account, s.id, s.order, mem_stored.mp hs, hasset, htype, rfl⟩
  · intro asset
    rw [hassets]
    constructor
    · rintro ⟨s, hs, hasset⟩
      exact ⟨s.account, s.id, s.order, mem_stored.mp hs, hasset⟩
    · rintro ⟨account, id, o, ho, hasset⟩
      exact ⟨⟨account, id, o⟩, mem_stored.mpr ho, hasset⟩

/-- What a listing shows on a side is on that side of every listing of a book that has the orders. -/
lemma Shows.mem_side {book book' : OrderBook} {view view' : OrderbookByAsset} (h : Shows book view)
    (h' : Shows book' view')
    (hle : ∀ account id o, book.Stores account id o → book'.Stores account id o) {asset : String}
    {e e' : OrderbookForAsset} (he : view.lookup asset = some e) (he' : view'.lookup asset = some e')
    {type : OrderType} {o : Order} (ho : o ∈ e.side type) : o ∈ e'.side type := by
  obtain ⟨account, id, o₁, hst, hasset, htype, rfl⟩ := h.only asset e type o he ho
  obtain ⟨asset', type', e₁, hasset', htype', he₁, hcount⟩ := h'.once account id o₁ (hle _ _ _ hst)
  obtain rfl := Option.some.inj (hasset.symm.trans hasset')
  obtain rfl := Option.some.inj (htype.symm.trans htype')
  obtain rfl := Option.some.inj (he'.symm.trans he₁)
  exact List.count_pos_iff.mp (by omega)

/-- **There is only one listing**, of whatever book with the same orders. -/
lemma Shows.unique {book book' : OrderBook} {view view' : OrderbookByAsset} (h : Shows book view)
    (h' : Shows book' view')
    (hsame : ∀ account id o, book.Stores account id o ↔ book'.Stores account id o) (asset : String) :
    view'.lookup asset = view.lookup asset := by
  have hsome : (view'.lookup asset).isSome ↔ (view.lookup asset).isSome := by
    rw [h.assets, h'.assets]
    simp only [hsame]
  cases he : view.lookup asset with
  | none =>
      rw [he] at hsome
      exact Option.not_isSome_iff_eq_none.mp fun hs => by simpa using hsome.mp hs
  | some e =>
      rw [he] at hsome
      obtain ⟨e', he'⟩ := Option.isSome_iff_exists.mp (hsome.mpr rfl)
      -- an order is on a side of the one entry if it is on that side of the other
      have hmem : ∀ type o, o ∈ e'.side type ↔ o ∈ e.side type := fun type o =>
        ⟨fun ho => h'.mem_side h (fun _ _ _ => (hsame _ _ _).mpr) he' he ho,
          fun ho => h.mem_side h' (fun _ _ _ => (hsame _ _ _).mp) he he' ho⟩
      have hasks : e'.asks = e.asks :=
        Ranking.eq_of_sortedLT (hmem .ask) (h'.asks asset e' he') (h.asks asset e he)
      have hbids : e'.bids = e.bids :=
        Ranking.eq_of_sortedGT (hmem .bid) (h'.bids asset e' he') (h.bids asset e he)
      have hlabel : e'.asset = e.asset := by rw [h.label asset e he, h'.label asset e' he']
      obtain ⟨_, _, _⟩ := e
      obtain ⟨_, _, _⟩ := e'
      simp only at hasks hbids hlabel
      rw [he', hasks, hbids, hlabel]

/-! ## Every book -/

/-- Orders that one of the loops removes, or that stay, were there before. -/
lemma OrderBook.Complete.of_lookup {book book' : OrderBook} (h : book.Complete)
    (hsub : ∀ account a, book'.orders.lookup account = some a → book.orders.lookup account = some a) :
    book'.Complete := by
  intro s hs
  obtain ⟨a, ha, ho⟩ := mem_stored.mp hs
  exact h s (mem_stored.mpr ⟨a, hsub _ _ ha, ho⟩)

/-- **One call.** -/
lemma call_complete {book book' : OrderBook} {c : BookCall} (h : book.Complete)
    (hc : book.call c = .ok book') : book'.Complete := by
  cases c with
  | updateOrders now upd =>
      obtain ⟨account, _, hfields, rfl⟩ := updateOrders_ok hc
      split
      · exact h.of_lookup fun _ _ => lookup_of_erase
      · intro s hs
        obtain ⟨a, ha, ho⟩ := mem_stored.mp hs
        by_cases hacc : s.account = account
        · subst hacc
          rw [AList.lookup_insert] at ha
          obtain rfl := Option.some.inj ha
          exact hfields _ (AList.mem_lookup_iff.mp ho)
        · rw [AList.lookup_insert_ne hacc] at ha
          exact h s (mem_stored.mpr ⟨a, ha, ho⟩)
  | runTimeout now =>
      obtain rfl := Except.ok.inj hc
      exact h.of_lookup fun _ _ => lookup_of_timeoutLoop

/-- **Every book.** -/
lemma calls_complete {timeout : ℤ} {history : List BookCall} {book : OrderBook}
    (h : OrderBook.calls timeout history = .ok book) : book.Complete := by
  refine Loops.keeps_of_foldlM OrderBook.Complete (fun c _ b b' hc hb => call_complete hb hc) h ?_
  intro s hs
  obtain ⟨a, ha, _⟩ := mem_stored.mp hs
  rw [AList.lookup_empty] at ha
  cases ha

lemma getByAsset_grouped {book : OrderBook} (h : book.Complete) :
    ∃ view, book.getByAsset = .ok view ∧
      ∀ a, view.lookup a = (grouped book.stored a).map sorted := by
  obtain ⟨view, hview, hlookup⟩ := internalGetByAsset_grouped h none
  have hall : book.stored.filter (Stored.wanted none) = book.stored :=
    List.filter_eq_self.mpr fun _ _ => rfl
  rw [hall] at hlookup
  exact ⟨view, hview, hlookup⟩

/-- **The view of the whole book.**  In every reachable book, `GetByAsset` lists each order once,
where it belongs, and nothing else; both sides are strictly sorted; and it returns the same for every
book with the same orders, in whatever order they are kept. -/
theorem getByAsset_shows (timeout : ℤ) (history : List BookCall) (book : OrderBook)
    (hrun : OrderBook.calls timeout history = .ok book) :
    ∃ view, book.getByAsset = .ok view ∧ Shows book view ∧
      ∀ (timeout' : ℤ) (history' : List BookCall) (book' : OrderBook),
        OrderBook.calls timeout' history' = .ok book' →
        (∀ account id o, book.Stores account id o ↔ book'.Stores account id o) →
        ∃ view', book'.getByAsset = .ok view' ∧ ∀ asset, view'.lookup asset = view.lookup asset := by
  obtain ⟨view, hview, hlookup⟩ := getByAsset_grouped (calls_complete hrun)
  have hshows := shows_of_grouped (calls_complete hrun) hlookup
  refine ⟨view, hview, hshows, ?_⟩
  intro timeout' history' book' hrun' hsame
  obtain ⟨view', hview', hlookup'⟩ := getByAsset_grouped (calls_complete hrun')
  have hshows' := shows_of_grouped (calls_complete hrun') hlookup'
  exact ⟨view', hview', hshows.unique hshows' hsame⟩

/-- Two accounts with the same asset, id and price. -/
def tied : List BookCall := [.updateOrders 0 (askOf "b" 1), .updateOrders 1 (askOf "a" 1)]

/-- The tie is resolved by the account. -/
theorem getByAsset_shows_tied : ∃ book view, OrderBook.calls 10 tied = .ok book ∧
    book.getByAsset = .ok view ∧ Shows book view ∧
    (view.lookup "gold").map (fun e => e.asks.map Order.getAccount) = some ["a", "b"] := by
  obtain ⟨view, hview, hshows, _⟩ := getByAsset_shows 10 tied _ rfl
  refine ⟨_, view, rfl, hview, hshows, ?_⟩
  obtain rfl := Except.ok.inj hview
  decide +kernel

/-! ## One asset -/

/-- Leaving out the orders of other assets leaves the group of an asset as it is. -/
lemma grouped_wanted (l : List Stored) (asset a : String) :
    grouped (l.filter (Stored.wanted (some asset))) a = if a = asset then grouped l a else none := by
  split
  · rename_i heq
    subst heq
    have hside : ∀ type, side (l.filter (Stored.wanted (some a))) a type = side l a type := by
      intro type
      rw [side, side, List.filter_filter]
      congr 1
      refine List.filter_congr fun s _ => ?_
      by_cases hs : s.order.asset = some a <;> simp [Stored.wanted, hs]
    have hex : (∃ s ∈ l.filter (Stored.wanted (some a)), s.order.asset = some a) ↔
        ∃ s ∈ l, s.order.asset = some a := by
      simp [Stored.wanted]
    simp only [grouped, hside, hex]
  · rename_i hne
    rw [grouped, if_neg]
    rintro ⟨s, hs, ha⟩
    have hwanted : s.order.asset = some asset := by
      simpa [Stored.wanted] using (List.mem_filter.mp hs).2
    exact hne (Option.some.inj (ha.symm.trans hwanted))

/-- A map with no key but one. -/
lemma entries_of_lookup {view : OrderbookByAsset} {asset : String}
    (h : ∀ a, a ≠ asset → view.lookup a = none) :
    view.entries = match view.lookup asset with
      | some e => [⟨asset, e⟩]
      | none => [] := by
  have hkeys : ∀ x ∈ view.entries, x.1 = asset := by
    rintro ⟨a, e⟩ hx
    by_contra hne
    have hsome : view.lookup a = some e := AList.mem_lookup_iff.mpr hx
    rw [h a hne] at hsome
    cases hsome
  have hlength : view.entries.length ≤ 1 := by
    by_contra hlt
    have hnodup : view.keys.Nodup := view.keys_nodup
    have hrep : view.keys = List.replicate view.entries.length asset := by
      rw [AList.keys, List.keys, List.eq_replicate_iff]
      refine ⟨List.length_map _, fun a ha => ?_⟩
      obtain ⟨x, hx, rfl⟩ := List.mem_map.mp ha
      exact hkeys x hx
    rw [hrep, List.nodup_replicate] at hnodup
    exact hlt hnodup
  cases he : view.lookup asset with
  | some e =>
      have hmem : (⟨asset, e⟩ : (_ : String) × OrderbookForAsset) ∈ view.entries :=
        AList.mem_lookup_iff.mp he
      obtain ⟨x, hx⟩ := List.length_eq_one_iff.mp
        (Nat.le_antisymm hlength (List.length_pos_of_mem hmem))
      rw [hx] at hmem ⊢
      obtain rfl := List.mem_singleton.mp hmem
      rfl
  | none =>
      refine List.eq_nil_iff_forall_not_mem.mpr ?_
      rintro ⟨a, e⟩ hx
      obtain rfl : a = asset := hkeys _ hx
      have hsome : view.lookup a = some e := AList.mem_lookup_iff.mpr hx
      rw [he] at hsome
      cases hsome

/-- **The view of one asset.**  In every reachable book, `GetForAsset` returns, without a failing
assertion, the entry that `GetByAsset` has for the asset; and if it has none, which is when no order
is for the asset, an empty entry with its label. -/
theorem getForAsset_agrees (timeout : ℤ) (history : List BookCall) (book : OrderBook)
    (hrun : OrderBook.calls timeout history = .ok book) (asset : String) :
    ∃ view, book.getByAsset = .ok view ∧
      ((view.lookup asset).isSome ↔
        ∃ account id o, book.Stores account id o ∧ o.asset = some asset) ∧
      book.getForAsset asset = .ok ((view.lookup asset).getD { asset }) := by
  obtain ⟨view, hview, hlookup⟩ := getByAsset_grouped (calls_complete hrun)
  have hshows := shows_of_grouped (calls_complete hrun) hlookup
  refine ⟨view, hview, hshows.assets asset, ?_⟩
  obtain ⟨one, hone, hlookup'⟩ := internalGetByAsset_grouped (calls_complete hrun) (some asset)
  have hother : ∀ a, a ≠ asset → one.lookup a = none := fun a ha => by
    rw [hlookup', grouped_wanted, if_neg ha]
    rfl
  have hthis : one.lookup asset = view.lookup asset := by
    rw [hlookup', grouped_wanted, if_pos rfl, hlookup]
  rw [getForAsset_of_internal hone, entries_of_lookup hother, hthis]
  cases he : view.lookup asset with
  | none => rfl
  | some e => simp [hshows.label asset e he]

/-- Nobody has an order for the empty string. -/
theorem getForAsset_agrees_empty : ∃ book, OrderBook.calls 10 tied = .ok book ∧
    book.getForAsset "" = .ok {} := by
  refine ⟨_, rfl, ?_⟩
  obtain ⟨view, hview, hassets, hget⟩ := getForAsset_agrees 10 tied _ rfl ""
  have hnone : view.lookup "" = none := by
    obtain rfl := Except.ok.inj hview
    decide +kernel
  rw [hget, hnone]
  rfl

end Democrit
