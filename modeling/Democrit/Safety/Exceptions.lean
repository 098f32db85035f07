import Democrit.Safety.Totals
import Democrit.Spec.Orders

/-!
# What an exception leaves behind

Two loops move what they are done with out of the state, into a container that is only swapped in at
the end: `UpdateAndArchiveTrades` does so with the trades, and `RunRefresh` with the orders that are
still valid.  If a call in the loop throws, then the container is gone, and **empty messages stand in
the place of what was moved**.

* `update_loses_nothing_iff` — of the trades nothing is lost exactly if the first one throws.
* `refresh_loses_nothing_iff` — of the orders nothing is lost exactly if none was found valid before
  the one that throws.
-/

namespace Democrit

open Interaction

variable {cfg : Config}

/-! ## `UpdateAndArchiveTrades` -/

/-- The update throws at the trade between `before` and `after`.  `now` is what the updates made of
those before it. -/
structure ThrowsAt (cfg : Config) (s : State) (before now : List TradeState) (t : TradeState)
    (after : List TradeState) (tr : Conversation) : Prop where
  trades : s.trades = before ++ t :: after
  talk : ∃ tr₁ tr₂, tr = tr₁ ++ tr₂ ∧ Updates cfg before tr₁ now ∧
    (updateTrade cfg t).Exec tr₂ (.error .exception, t)

/-- What the state is then: empty messages in the place of the trades before the one that threw, and
those of them that are finalised in the archive. -/
def leftover (s : State) (now : List TradeState) (t : TradeState) (after : List TradeState) : State :=
  { s with
    trades := List.replicate now.length ({} : TradeState) ++ t :: after
    tradeArchive := s.tradeArchive ++ (now.filter isFinalised).map (getPublicInfo s.account) }

/-- The loop, after the updates of some trades. -/
lemma updateLoop_updates {before now : List TradeState} {tr : Conversation}
    (h : Updates cfg before tr now) (rest : List TradeState) :
    ∀ {done stillActive finalised : List TradeState} {s : State}
      {Q : Conversation → Except Fail (List TradeState) → State → Prop},
      (updateLoop cfg done (before ++ rest) stillActive finalised).wp s Q →
      (updateLoop cfg (done ++ List.replicate now.length ({} : TradeState)) rest
          (stillActive ++ now.filter fun t => !isFinalised t)
          (finalised ++ now.filter isFinalised)).wp
        { s with
          tradeArchive := s.tradeArchive ++ (now.filter isFinalised).map (getPublicInfo s.account) }
        fun tr' r s' => Q (tr ++ tr') r s' := by
  induction h with
  | nil =>
      intro done stillActive finalised s Q hQ
      simpa using hQ
  | @cons x x' before now tr₁ tr₂ hx _ ih =>
      intro done stillActive finalised s Q hQ
      simp only [List.cons_append, updateLoop, Act.wp_bind, Act.wp_on] at hQ
      have hrest := Act.wp_iff.mp hQ _ _ _ hx
      simp only [Act.afterBind_ok, Act.wp_bind, Act.wp_read] at hrest
      cases hfin : isFinalised x' with
      | true =>
          simp only [hfin, if_true, Act.wp_bind, Act.wp_write, Act.afterBind_ok] at hrest
          have := ih hrest
          simpa [hfin, List.replicate_succ] using this
      | false =>
          simp only [hfin, Bool.false_eq_true, if_false] at hrest
          have := ih hrest
          simpa [hfin, List.replicate_succ] using this

/-- How far the loop gets: through all trades, or to one whose update fails. -/
inductive UpdateLoop (cfg : Config) (todo : List TradeState) :
    Conversation → Except Fail (List TradeState) → Prop
  | through {tr now finalised} (h : Updates cfg todo tr now) : UpdateLoop cfg todo tr (.ok finalised)
  | fails {before now tr₁ t after tr₂ e} (htodo : todo = before ++ t :: after)
      (h : Updates cfg before tr₁ now) (hx : (updateTrade cfg t).Exec tr₂ (.error e, t)) :
      UpdateLoop cfg todo (tr₁ ++ tr₂) (.error e)

lemma updateTrades_throws {s : State} {before now after : List TradeState} {t : TradeState}
    {tr : Conversation} (h : ThrowsAt cfg s before now t after tr) :
    (updateTrades cfg s).Exec tr (.error .exception, leftover s now t after) := by
  obtain ⟨htrades, tr₁, tr₂, rfl, hups, hx⟩ := h
  rw [Act.exec_iff]
  intro Q hQ
  simp only [updateTrades, Act.wp_bind, Act.wp_read, Act.afterBind_ok, List.nil_append] at hQ
  rw [htrades] at hQ
  have hthrows := updateLoop_updates hups (t :: after) hQ
  simp only [updateLoop, Act.wp_bind, Act.wp_on] at hthrows
  have := Act.wp_iff.mp hthrows _ _ _ hx
  simpa [leftover] using this

lemma updateTrades_returns {s : State} {now : List TradeState} {tr : Conversation}
    (h : Updates cfg s.trades tr now) :
    (updateTrades cfg s).Exec tr (.ok (now.filter isFinalised), { s with
      trades := now.filter fun t => !isFinalised t
      tradeArchive := s.tradeArchive ++ (now.filter isFinalised).map (getPublicInfo s.account) }) := by
  rw [Act.exec_iff]
  intro Q hQ
  simp only [updateTrades, Act.wp_bind, Act.wp_read, Act.afterBind_ok, List.nil_append] at hQ
  rw [← List.append_nil s.trades] at hQ
  have hreturns := updateLoop_updates h [] hQ
  simpa [updateLoop, Act.wp_bind] using hreturns

lemma updateTrades_reaches {s s' : State} {tr : Conversation} {r : Except Fail (List TradeState)}
    (hx : (updateTrades cfg s).Exec tr (r, s')) : UpdateLoop cfg s.trades tr r := by
  cases Act.wp_iff.mp (updateTrades_ends s) _ _ _ hx with
  | through h => exact .through h
  | fails htodo h hfail => exact .fails htodo h hfail

/-- **Which calls of `UpdateAndArchiveTrades` exit with an exception**: those in which the update of
some trade throws. -/
theorem updateTrades_throws_iff {s : State} {tr : Conversation} :
    (∃ s', (updateTrades cfg s).Exec tr (.error .exception, s')) ↔
      ∃ before now t after, ThrowsAt cfg s before now t after tr := by
  constructor
  · rintro ⟨s', hx⟩
    cases updateTrades_reaches hx with
    | fails htodo h hx => exact ⟨_, _, _, _, htodo, _, _, rfl, h, hx⟩
  · rintro ⟨before, now, t, after, h⟩
    exact ⟨_, updateTrades_throws h⟩

/-! ### What is accounted for -/

/-- What became of a trade: nothing yet, or its update went through. -/
def Current (cfg : Config) (t t' : TradeState) : Prop :=
  t' = t ∨ ∃ tr, (updateTrade cfg t).Exec tr (.ok (), t')

/-- The trades as they are now, and those of them that the call has archived. -/
structure Accounted (cfg : Config) (s : State) (r : Except Fail (List TradeState)) (s' : State)
    (now archived : List TradeState) : Prop where
  current : List.Forall₂ (Current cfg) s.trades now
  once : (s'.trades ++ archived).Perm now
  archive : s'.tradeArchive = s.tradeArchive ++ archived.map (getPublicInfo s.account)
  /-- The trade is handled in this call, or still there for a later one. -/
  handled : ∀ t ∈ archived, (∃ finalised, r = .ok finalised ∧ t ∈ finalised) ∨ t ∈ s'.trades

/-- **Nothing is lost** in a call of `UpdateAndArchiveTrades`: each trade is, with all its data, once
among the active ones or once in the archive, and no archived one is left without being handled. -/
def NothingLost (cfg : Config) (s : State) (r : Except Fail (List TradeState)) (s' : State) : Prop :=
  ∃ now archived, Accounted cfg s r s' now archived

lemma Updates.current {before now : List TradeState} {tr : Conversation}
    (h : Updates cfg before tr now) : List.Forall₂ (Current cfg) before now := by
  induction h with
  | nil => exact .nil
  | cons hx _ ih => exact .cons (Or.inr ⟨_, hx⟩) ih

/-- A call that returns loses nothing. -/
theorem nothingLost_of_ok {s s' : State} {tr : Conversation} {finalised : List TradeState}
    (hx : (updateTrades cfg s).Exec tr (.ok finalised, s')) :
    NothingLost cfg s (.ok finalised) s' := by
  cases updateTrades_reaches hx with
  | @through _ now _ h =>
      have hreturns := updateTrades_returns h
      obtain ⟨_, heq, _⟩ := @Prog.exec_unique _ _ _ _ tr tr [] [] _ _ hx hreturns rfl
      obtain ⟨hfin, rfl⟩ := Prod.mk.inj heq
      obtain rfl := Except.ok.inj hfin
      refine ⟨now, now.filter isFinalised, h.current, ?_, rfl, fun t ht => Or.inl ⟨_, rfl, ht⟩⟩
      exact List.perm_append_comm.trans (List.filter_append_perm isFinalised now)

/-- An update leaves no empty message. -/
lemma Current.hasState {t t' : TradeState} (h : Current cfg t t') (ht : t.state.isSome) :
    t'.state.isSome := by
  rcases h with rfl | ⟨tr, hx⟩
  · exact ht
  · have hout := Act.wp_iff.mp (updateTrade_spec t) tr _ _ hx
    cases hout with
    | keeps => exact ht
    | abandons => rfl
    | settles => rfl

/-- What is lost if it is not the first trade that throws. -/
lemma lost_of_throws {s : State} (hstate : ∀ t ∈ s.trades, t.state.isSome) {n : ℕ} {t : TradeState}
    {after : List TradeState} {r : Except Fail (List TradeState)} {s' : State}
    (htrades : s'.trades = List.replicate (n + 1) ({} : TradeState) ++ t :: after) :
    ¬ NothingLost cfg s r s' := by
  rintro ⟨now, archived, h⟩
  have hblank : ({} : TradeState) ∈ now := by
    refine h.once.subset (List.mem_append_left _ ?_)
    rw [htrades]
    simp [List.replicate_succ]
  -- but no trade has become an empty message
  have hsome : ∀ {ts now : List TradeState}, List.Forall₂ (Current cfg) ts now →
      (∀ t ∈ ts, t.state.isSome) → ∀ t ∈ now, t.state.isSome := by
    intro ts now hcur
    induction hcur with
    | nil => simp
    | cons hhead _ ih =>
        intro hts
        obtain ⟨hfirst, hrest⟩ := List.forall_mem_cons.mp hts
        exact List.forall_mem_cons.mpr ⟨hhead.hasState hfirst, ih hrest⟩
  exact absurd (hsome h.current hstate _ hblank) (by simp)

/-- **Which exceptions lose trades.**  Every trade that has a state survives a call which throws at
one of them, and none is archived without being handled, exactly if the trade that throws is the first
one. -/
theorem update_loses_nothing_iff {s : State} (hstate : ∀ t ∈ s.trades, t.state.isSome)
    {before now after : List TradeState} {t : TradeState} {tr : Conversation}
    (h : ThrowsAt cfg s before now t after tr) {s' : State}
    (hx : (updateTrades cfg s).Exec tr (.error .exception, s')) :
    NothingLost cfg s (.error .exception) s' ↔ before = [] := by
  obtain ⟨_, heq, _⟩ := @Prog.exec_unique _ _ _ _ tr tr [] [] _ _ hx (updateTrades_throws h) rfl
  obtain rfl : s' = leftover s now t after := (Prod.mk.inj heq).2
  obtain ⟨htrades, _, _, _, hups, _⟩ := h
  have hlength := hups.length
  constructor
  · intro hnone
    by_contra hbefore
    obtain ⟨n, hn⟩ := Nat.exists_eq_succ_of_ne_zero (mt List.length_eq_zero_iff.mp hbefore)
    refine @lost_of_throws cfg s hstate n t after _ _ ?_ hnone
    rw [leftover, ← hlength, hn]
  · rintro rfl
    obtain rfl : now = [] := List.length_eq_zero_iff.mp hlength.symm
    refine ⟨s.trades, [], ?_, ?_, ?_, by simp⟩
    · exact List.forall₂_same.mpr fun _ _ => Or.inl rfl
    · simp [leftover, htrades]
    · simp [leftover]

section

variable {W : Type} {E : Env Call Answer W} {account : String}

/-- A trade has a state, unless a failed update left it behind. -/
lemma stateRule : TradeRule cfg E account fun _ t => t.serial = 0 ∨ t.state.isSome where
  blank _ := Or.inl rfl
  new _ _ _ _ _ _ _ := Or.inr rfl
  later _ _ _ ht := ht
  receives _ msg t ht := by
    rw [(@handleMessage_spec account msg t).eq]
    exact ht
  replies _ _ t tr r t' _ _ ht _ _ hout := by
    cases hout <;> first | exact ht | exact Or.inr rfl
  updates _ t tr t' ht hout := by
    cases hout with
    | keeps => exact ht
    | abandons => exact Or.inr rfl
    | settles => exact Or.inr rfl

/-- **While the daemon is running**, the trades have their state set. -/
theorem reachable_hasState {x : Sys × W} (h : (system cfg E account).Reachable x)
    (hrun : x.1.halted = false) : ∀ t ∈ x.1.state.trades, t.state.isSome := by
  intro t ht
  refine (stateRule.holds h t (Or.inl ht)).resolve_left fun hzero => ?_
  have := ((reachable_serials h hrun).bound t (Or.inl ht)).1
  omega

end

/-! ### Three trades -/

/-- A trade of which nothing has come yet. -/
def openTrade (startTime : Int64) : TradeState where
  order := { unitsOrder with account := some "maker", id := some 0 }
  units := 2
  counterparty := "taker"
  startTime
  state := some .initiated

/-- One that waits to be confirmed. -/
def pendingTrade : TradeState :=
  { openTrade 0 with state := some .pending, ourPsbt := some "signed" }

/-- It is late, and the node cannot be reached. -/
def lateScript (u : Unit) : (c : Call) → Answer c × Unit
  | .clock => ((100 : Int64), u)
  | .rpc _ => (.error .exception, u)

/-- **Two trades lost, and one of them archived**: an open trade, an open one that times out, and a
pending one, whose PSBT cannot be decoded. -/
theorem update_loses_trades : ∃ (s s' : State) (tr : Conversation),
    s.trades = [openTrade 100, openTrade 0, pendingTrade] ∧
    (updateTrades sampleConfig s).Exec tr (.error .exception, s') ∧
    s'.trades = [{}, {}, pendingTrade] ∧ s'.tradeArchive.map (·.state) = [.abandoned] ∧
    ¬ NothingLost sampleConfig s (.error .exception) s' := by
  let s : State := { account := "maker", trades := [openTrade 100, openTrade 0, pendingTrade] }
  have hx := Prog.exec_play lateScript (updateTrades sampleConfig s) ()
  refine ⟨s, _, _, rfl, hx, rfl, rfl, ?_⟩
  exact @lost_of_throws sampleConfig s (by decide) 1 pendingTrade [] _ _ rfl

/-- With the pending trade at the front, nothing is lost. -/
theorem update_loses_nothing_first : ∃ (s s' : State) (tr : Conversation),
    s.trades = [pendingTrade, openTrade 100, openTrade 0] ∧
    (updateTrades sampleConfig s).Exec tr (.error .exception, s') ∧
    NothingLost sampleConfig s (.error .exception) s' := by
  let s : State := { account := "maker", trades := [pendingTrade, openTrade 100, openTrade 0] }
  have hx := Prog.exec_play lateScript (updateTrades sampleConfig s) ()
  have hthrows : (updateTrade sampleConfig pendingTrade).Exec _ (.error .exception, pendingTrade) :=
    Prog.exec_play lateScript (updateTrade sampleConfig pendingTrade) ()
  refine ⟨s, _, _, rfl, hx, (update_loses_nothing_iff (by decide) ⟨rfl, [], _, rfl, .nil, hthrows⟩
    hx).mpr rfl⟩

/-! ## `RunRefresh` -/

/-- `ValidateOrder` fails at the order `o`, with an exception or an assertion, and `answers` is what
it said of those before. -/
structure RefreshFailsAt (s : State) (before : List ((_ : UInt64) × Order)) (answers : List Bool)
    (id : UInt64) (o : Order) (after : List ((_ : UInt64) × Order)) (tr : Conversation) (e : Fail) :
    Prop where
  orders : s.ownOrders.entries = before ++ ⟨id, o⟩ :: after
  talk : ∃ tr₁ tr₂, tr = tr₁ ++ tr₂ ∧ Validates s.account before tr₁ answers ∧
    (validateOrder s.account o ()).Exec tr₂ (.error e, ())

/-- What the loop of `RunRefresh` does to the orders themselves: those that were found valid are
moved from. -/
def emptied : List ((_ : UInt64) × Order) → List Bool → OrderMap → OrderMap
  | ⟨id, _⟩ :: rest, true :: bs, m => emptied rest bs (m.insert id {})
  | _ :: rest, false :: bs, m => emptied rest bs m
  | _, _, m => m

/-- The loop, after the validation of some orders. -/
lemma refreshLoop_validates {account : String} {before : List ((_ : UInt64) × Order)}
    {tr : Conversation} {bs : List Bool} (h : Validates account before tr bs)
    (rest : List ((_ : UInt64) × Order)) :
    ∀ {updated : OrderMap} {s : State} {Q : Conversation → Except Fail OrderMap → State → Prop},
      s.account = account → (refreshLoop (before ++ rest) updated).wp s Q →
      (refreshLoop rest (accept before bs updated)).wp
        { s with ownOrders := emptied before bs s.ownOrders } fun tr' r s' => Q (tr ++ tr') r s' := by
  induction h with
  | nil =>
      intro updated s Q _ hQ
      exact hQ
  | @cons id o before tr₁ tr₂ b bs hx _ ih =>
      rintro updated s Q rfl hQ
      simp only [List.cons_append, refreshLoop, Act.wp_bind, Act.wp_read, Act.afterBind_ok,
        Act.wp_monadLift, List.nil_append] at hQ
      have hrest := Act.wp_iff.mp hQ _ _ _ hx
      cases b with
      | true =>
          simp only [Act.afterBind_ok, if_true, Act.wp_bind, Act.wp_write, List.nil_append] at hrest
          have := @ih _ { s with ownOrders := s.ownOrders.insert id {} } _ rfl hrest
          simpa [emptied, accept] using this
      | false =>
          simp only [Act.afterBind_ok, Bool.false_eq_true, if_false] at hrest
          have := ih rfl hrest
          simpa [emptied, accept] using this

/-- How far the loop gets: through all orders, or to one whose validation fails. -/
inductive RefreshLoop (account : String) (entries : List ((_ : UInt64) × Order)) :
    Conversation → Except Fail OrderMap → Prop
  | through {tr bs updated} (h : Validates account entries tr bs) :
      RefreshLoop account entries tr (.ok updated)
  | fails {before tr₁ bs id o after tr₂ e} (hentries : entries = before ++ ⟨id, o⟩ :: after)
      (h : Validates account before tr₁ bs)
      (hx : (validateOrder account o ()).Exec tr₂ (.error e, ())) :
      RefreshLoop account entries (tr₁ ++ tr₂) (.error e)

lemma refreshLoop_reaches (account : String) :
    ∀ (entries : List ((_ : UInt64) × Order)) (updated : OrderMap) (s : State), s.account = account →
      (refreshLoop entries updated).wp s fun tr r _ => RefreshLoop account entries tr r
  | [], _, _, _ => .through .nil
  | ⟨id, o⟩ :: entries, updated, s, hacc => by
      subst hacc
      have further : ∀ {tr tr' b r}, (validateOrder s.account o ()).Exec tr (.ok b, ()) →
          RefreshLoop s.account entries tr' r →
          RefreshLoop s.account (⟨id, o⟩ :: entries) (tr ++ tr') r := by
        rintro tr tr' b r hx (h | ⟨hentries, h, hfail⟩)
        · exact .through (.cons hx h)
        · rw [← List.append_assoc]
          exact .fails (by rw [hentries, List.cons_append]) (.cons hx h) hfail
      simp only [refreshLoop, Act.wp_bind, Act.wp_read, Act.afterBind_ok, Act.wp_monadLift,
        List.nil_append]
      refine Act.wp_iff.mpr fun tr r _ hx => ?_
      rcases r with e | b
      · exact .fails rfl .nil hx
      · simp only [Act.afterBind_ok]
        split
        · simp only [Act.wp_bind, Act.wp_write, Act.afterBind_ok, List.nil_append]
          exact Act.wp_mono (refreshLoop_reaches s.account entries _ _ rfl) fun tr' r s' h =>
            further hx h
        · exact Act.wp_mono (refreshLoop_reaches s.account entries _ _ rfl) fun tr' r s' h =>
            further hx h

/-- The state when the validation fails. -/
lemma runRefresh_fails {s : State} {before after : List ((_ : UInt64) × Order)} {bs : List Bool}
    {id : UInt64} {o : Order} {tr : Conversation} {e : Fail}
    (h : RefreshFailsAt s before bs id o after tr e) :
    (runRefresh s).Exec tr (.error e, { s with ownOrders := emptied before bs s.ownOrders }) := by
  obtain ⟨horders, tr₁, tr₂, rfl, hv, hx⟩ := h
  rw [Act.exec_iff]
  intro Q hQ
  simp only [runRefresh, Act.wp_bind, Act.wp_read, Act.afterBind_ok, List.nil_append] at hQ
  rw [horders] at hQ
  have hthrows := refreshLoop_validates hv (⟨id, o⟩ :: after) rfl hQ
  simp only [refreshLoop, Act.wp_bind, Act.wp_read, Act.afterBind_ok, Act.wp_monadLift] at hthrows
  have := Act.wp_iff.mp hthrows _ _ _ hx
  simpa using this

/-- **Which refreshes fail**: those in which the validation of some order does. -/
theorem runRefresh_fails_iff {s : State} {tr : Conversation} {e : Fail} :
    (∃ s', (runRefresh s).Exec tr (.error e, s')) ↔
      ∃ before bs id o after, RefreshFailsAt s before bs id o after tr e := by
  constructor
  · rintro ⟨s', hx⟩
    have hwp : runRefresh.wp s fun tr r _ => ∀ e, r = .error e →
        RefreshLoop s.account s.ownOrders.entries tr (.error e) := by
      simp only [runRefresh, Act.wp_bind, Act.wp_read, Act.afterBind_ok, List.nil_append]
      refine Act.wp_mono (refreshLoop_reaches s.account s.ownOrders.entries ∅ s rfl)
        fun tr r s' h => ?_
      cases r with
      | error e =>
          rintro e' he
          obtain rfl := Except.error.inj he
          simpa using h
      | ok updated => simp [Act.wp_bind]
    cases Act.wp_iff.mp hwp _ _ _ hx _ rfl with
    | fails hentries h hx => exact ⟨_, _, _, _, _, hentries, _, _, rfl, h, hx⟩
  · rintro ⟨before, bs, id, o, after, h⟩
    exact ⟨_, runRefresh_fails h⟩

/-- If none was found valid, then none is moved. -/
lemma emptied_of_none :
    ∀ {before : List ((_ : UInt64) × Order)} {bs : List Bool} {m : OrderMap},
      (∀ b ∈ bs, b = false) → emptied before bs m = m
  | [], _, _, _ => by rw [emptied] <;> simp
  | _ :: _, [], _, _ => by rw [emptied] <;> simp
  | _ :: before, b :: bs, m, h => by
      obtain ⟨rfl, hrest⟩ := List.forall_mem_cons.mp h
      rw [emptied]
      exact emptied_of_none hrest

/-- An empty message stays in its place. -/
lemma lookup_emptied_blank {id : UInt64} :
    ∀ {before : List ((_ : UInt64) × Order)} {bs : List Bool} {m : OrderMap},
      m.lookup id = some {} → (emptied before bs m).lookup id = some {}
  | [], _, _, h => by rw [emptied] <;> simp [h]
  | _ :: _, [], _, h => by rw [emptied] <;> simp [h]
  | ⟨i, o⟩ :: before, b :: bs, m, h => by
      cases b with
      | false =>
          rw [emptied]
          exact lookup_emptied_blank h
      | true =>
          rw [emptied]
          refine lookup_emptied_blank ?_
          by_cases hid : id = i
          · rw [hid, AList.lookup_insert]
          · rw [AList.lookup_insert_ne hid, h]

/-- What `ValidateOrder` accepts is not an empty message. -/
lemma nonzero_of_valid {account : String} {o : Order} {tr : Conversation}
    (hx : (validateOrder account o ()).Exec tr (.ok true, ())) : o.maxUnits ≠ 0 := by
  have hwp : (validateOrder account o).wp () fun _ r _ => r = .ok true → o.maxUnits ≠ 0 := by
    rw [validateOrder]
    split
    · simp
    · rename_i hwf
      refine Act.wp_iff.mpr fun _ _ _ _ _ hzero => hwf ?_
      simp [orderWellFormed, hzero]
  exact Act.wp_iff.mp hwp _ _ _ hx rfl

/-- If one was found valid, then an order is lost. -/
lemma exists_emptied {account : String} {before : List ((_ : UInt64) × Order)} {tr : Conversation}
    {bs : List Bool} (h : Validates account before tr bs) (hvalid : ∃ b ∈ bs, b = true) :
    ∃ id o, ⟨id, o⟩ ∈ before ∧ o.maxUnits ≠ 0 ∧
      ∀ m : OrderMap, (emptied before bs m).lookup id = some {} := by
  induction h with
  | nil => simp at hvalid
  | @cons id o before tr₁ tr₂ b bs hx _ ih =>
      cases b with
      | true =>
          refine ⟨id, o, List.mem_cons_self, nonzero_of_valid hx, fun m => ?_⟩
          rw [emptied]
          exact lookup_emptied_blank (AList.lookup_insert m)
      | false =>
          obtain ⟨id', o', hmem, hunits, hblank⟩ := ih (by simpa using hvalid)
          refine ⟨id', o', List.mem_cons_of_mem _ hmem, hunits, fun m => ?_⟩
          rw [emptied]
          exact hblank m

/-- The same orders under the same ids. -/
def SameOrders (s s' : State) : Prop := ∀ id, s'.ownOrders.lookup id = s.ownOrders.lookup id

/-- The orders after a refresh that fails. -/
lemma sameOrders_of_fails {s : State} {before after : List ((_ : UInt64) × Order)} {bs : List Bool}
    {id : UInt64} {o : Order} {tr : Conversation} {e : Fail}
    (h : RefreshFailsAt s before bs id o after tr e) {s' : State}
    (hx : (runRefresh s).Exec tr (.error e, s')) :
    s' = { s with ownOrders := emptied before bs s.ownOrders } ∧
      (SameOrders s s' ↔ ∀ b ∈ bs, b = false) := by
  obtain ⟨_, heq, _⟩ := @Prog.exec_unique _ _ _ _ tr tr [] [] _ _ hx (runRefresh_fails h) rfl
  obtain rfl := (Prod.mk.inj heq).2
  refine ⟨rfl, ?_⟩
  obtain ⟨horders, _, _, _, hv, _⟩ := h
  constructor
  · intro hsame
    by_contra hsome
    obtain ⟨i, o', hmem, hunits, hblank⟩ := exists_emptied hv (by simpa using hsome)
    have hlookup : s.ownOrders.lookup i = some o' := by
      rw [← Option.mem_def, AList.mem_lookup_iff, horders]
      exact List.mem_append_left _ hmem
    have := hsame i
    rw [hlookup, hblank] at this
    obtain rfl := Option.some.inj this
    exact hunits rfl
  · intro hnone i
    rw [emptied_of_none hnone]

/-- **Which refreshes lose orders.**  After a refresh that throws at one of them, in whatever order
they are gone through, the orders are all as before exactly if `ValidateOrder` has accepted none of
those before. -/
theorem refresh_loses_nothing_iff {s : State} {before after : List ((_ : UInt64) × Order)}
    {bs : List Bool} {id : UInt64} {o : Order} {tr : Conversation}
    (h : RefreshFailsAt s before bs id o after tr .exception) {s' : State}
    (hx : (runRefresh s).Exec tr (.error .exception, s')) :
    SameOrders s s' ↔ ∀ b ∈ bs, b = false :=
  (sameOrders_of_fails h hx).2

/-! ### Two orders -/

/-- The GSP cannot be reached for the question number `fails`. -/
def outageScript (fails : ℕ) (n : ℕ) : (c : Call) → Answer c × ℕ
  | .rpc (.isAsset _) =>
      if n = fails then ((.error .exception : Except RpcError Bool), n + 1)
      else ((.ok true : Except RpcError Bool), n + 1)
  | c => unitsScript n c

/-- Two orders are added; the refresh after the second gets to one of them, and fails at the
other. -/
def outageSchedule : List Sched :=
  [.start (.addOrder unitsOrder), .run 0, .run 0, .run 0, .run 0,
    .start (.addOrder { unitsOrder with priceSat := some 7 }), .run 1, .run 1]

/-- The section is one of `RunRefresh`, and it was left by an exception. -/
def Record.refreshThrew (rec : Record) : Bool :=
  match rec.task, rec.outcome with
  | .refresh, .error .exception => true
  | _, _ => false

lemma Record.of_refreshThrew {rec : Record} (h : rec.refreshThrew = true) :
    rec.task = .refresh ∧ rec.outcome = .error .exception := by
  rw [Record.refreshThrew] at h
  split at h
  · rename_i htask houtcome
    exact ⟨htask, houtcome⟩
  · cases h

/-- **An order is emptied** by a refresh after `addorder`, and the daemon goes on with it. -/
theorem refresh_loses_order : ∃ (x : Sys × ℕ) (rec : Record),
    (system sampleConfig (Env.ofScript (outageScript 4)) "maker").Reachable x ∧
    x.1.halted = false ∧ x.1.state.ownOrders.lookup 1 = some {} ∧ rec ∈ x.1.log ∧
    rec.task = .refresh ∧ rec.outcome = .error .exception ∧ ¬ SameOrders rec.pre rec.post := by
  obtain ⟨x, hr, hQ⟩ := Sys.exists_reachable sampleConfig (outageScript 4) "maker" 0 outageSchedule
    (fun x => (!x.1.halted && x.1.state.ownOrders.lookup 1 = some {}) && x.1.log.any fun rec =>
      rec.refreshThrew && rec.post.ownOrders.lookup 1 ≠ rec.pre.ownOrders.lookup 1)
    (by decide +kernel)
  simp only [Bool.and_eq_true, Bool.not_eq_true', decide_eq_true_eq] at hQ
  obtain ⟨⟨hrun, hempty⟩, hany⟩ := hQ
  obtain ⟨rec, hrec, hthrew⟩ := List.any_eq_true.mp hany
  simp only [Bool.and_eq_true, decide_eq_true_eq] at hthrew
  obtain ⟨htask, houtcome⟩ := Record.of_refreshThrew hthrew.1
  exact ⟨x, rec, hr, hrun, hempty, hrec, htask, houtcome, fun hsame => hthrew.2 (hsame 1)⟩

/-- An order for nothing, which is rejected. -/
def vacuousOrder : Order := { unitsOrder with maxUnits := 0 }

/-- If what comes before the order for which the GSP fails is rejected, then nothing is lost. -/
theorem refresh_loses_nothing_rejected : ∃ (s s' : State) (tr : Conversation),
    s.ownOrders.entries = [⟨1, vacuousOrder⟩, ⟨0, unitsOrder⟩] ∧
    (runRefresh s).Exec tr (.error .exception, s') ∧ SameOrders s s' := by
  let orders : OrderMap := ((∅ : OrderMap).insert 0 unitsOrder).insert 1 vacuousOrder
  let s : State := { account := "maker", ownOrders := orders }
  have hx := Prog.exec_play (outageScript 0) (runRefresh s) 0
  have hrejects : (validateOrder "maker" vacuousOrder ()).Exec _ (.ok false, ()) :=
    Prog.exec_play (outageScript 0) (validateOrder "maker" vacuousOrder ()) 0
  have hthrows : (validateOrder "maker" unitsOrder ()).Exec _ (.error .exception, ()) :=
    Prog.exec_play (outageScript 0) (validateOrder "maker" unitsOrder ()) 0
  exact ⟨s, _, _, rfl, hx, (refresh_loses_nothing_iff
    ⟨rfl, _, _, rfl, .cons hrejects .nil, hthrows⟩ hx).mpr (by simp)⟩

end Democrit
