import Democrit.Nonfungible
import Democrit.Book.OwnOrders
import Democrit.Safety.Buyer
import Democrit.Safety.Seller
import Democrit.Spec.Questions

/-!
# Trades are about assets

`ValidateOrder` asks `IsAsset` before it accepts an order of our own, so what is taken from us is an
asset: **every trade against an own order is about something that `IsAsset` has called one**,
whatever else happens in between, including a refresh that throws.  The buyer asks before he builds
the transaction.

For the game of non-fungible assets this is what keeps the daemon running.  `CanSell` and
`GetTransferMove` fail an assertion about a string that cannot be split, and `IsAsset` just says no.
One case is left: **a bid that we take** comes from outside, and as the seller we do not ask about
it at all.
-/

namespace Democrit

open Interaction

variable {cfg : Config} {account : String} {W : Type} {E : Env Call Answer W} {A : String → Prop}

/-! ## Orders that were accepted -/

/-- `IsAsset` says yes only about what has the property. -/
def OnlyAssets (A : String → Prop) (E : Env Call Answer W) : Prop :=
  ∀ w w' asset, E w (Ev.returned (.isAsset asset) true) w' → A asset

/-- The order has no asset, as an order that was moved from, or the asset has the property. -/
def Order.ofAssets (A : String → Prop) (o : Order) : Prop := o.asset.isSome → A o.getAsset

/-- **What `ValidateOrder` accepts** is about an asset. -/
lemma asset_of_validateOrder (hA : OnlyAssets A E) (o : Order) {w : W} {u : Unit} :
    (validateOrder account o).wpIn E w u fun _ _ r _ => r = .ok true → A o.getAsset := by
  rw [validateOrder]
  split
  · simp
  · refine (Act.wpIn_bind _ _).mpr ((wpIn_rpc _).mpr ⟨fun valid w' hvalid => ?_, ?_, ?_⟩)
    · cases valid with
      | false => exact (Act.wpIn_pure false).mpr (by simp)
      | true => exact Act.wpIn_iff.mpr fun _ _ _ _ _ _ _ => hA w w' _ hvalid
    · simp
    · simp

lemma asset_of_add (hA : OnlyAssets A E) {o : Order} {s s' : State} {tr : Conversation} {eff : Effect}
    {w w' : W} (hx : (exec cfg (.add o) s).Exec tr (.ok eff, s')) (hpath : E.Path w tr w')
    (hnext : eff.next ≠ []) : A o.getAsset := by
  have hspec : (exec cfg (.add o)).wpIn E w s fun _ _ r _ => ∀ eff, r = .ok eff →
      eff.next ≠ [] → A o.getAsset := by
    simp only [exec, addOwnOrder, Act.wpIn_bind, Act.wpIn_read, Act.afterBindIn_ok,
      Act.wpIn_monadLift]
    refine Act.wpIn_mono (asset_of_validateOrder hA o) fun _ _ r _ hasset => ?_
    cases r with
    | error e => simp
    | ok valid =>
        cases valid with
        | false => simp
        | true => simp [hasset rfl]
  exact Act.wpIn_iff.mp hspec tr _ s' w' hx hpath eff rfl hnext

/-! ## The invariant -/

/-- Own orders, those that are being taken, and the trades against them are about assets. -/
structure Sys.OfAssets (A : String → Prop) (σ : Sys) : Prop where
  orders : EveryOrder (Order.ofAssets A) σ.state.ownOrders
  taken : ∀ o taking msg, .orderTaken o taking msg ∈ σ.tasks → o.ofAssets A
  trades : ∀ t, σ.Knows t → getRole σ.state.account t = .maker → A t.order.getAsset

/-- A section that threw has left the trades as they were, if the process goes on. -/
lemma knows_of_threw {σ : Sys} {before after : List Thread} {op : Op} {task : Task}
    {rest : List Task} {tr : Conversation} {e : Fail} {s' : State} {t : TradeState}
    (hth : σ.threads = before ++ ⟨op, task :: rest⟩ :: after) (htrades : s'.trades = σ.state.trades)
    (hk : (σ.advance before after rest ⟨op, task, σ.state, tr, .error e, s'⟩).Knows t) :
    σ.Knows t := by
  rcases hk with hmem | ⟨th, hmem, y, hy, hsub⟩
  · exact Or.inl (htrades ▸ hmem)
  · refine Or.inr ⟨th, ?_, y, hy, hsub⟩
    rw [hth]
    rcases List.mem_append.mp hmem with hmem | hmem
    · exact List.mem_append_left _ hmem
    · rcases List.mem_cons.mp hmem with rfl | hmem
      · cases hy
      · exact List.mem_append_right _ (List.mem_cons_of_mem _ hmem)

/-- **An order that is taken** is an own one. -/
lemma Sys.OfAssets.taken_of_exec {σ : Sys} {task : Task} {tr : Conversation} {eff : Effect}
    {s' : State} (h : σ.OfAssets A) (hmatched : task.matched)
    (hx : (exec cfg task σ.state).Exec tr (.ok eff, s')) :
    ∀ o taking msg, .orderTaken o taking msg ∈ eff.next → o.ofAssets A := by
  intro o taking msg hmem
  have htokens : Tokens σ.state task tr eff s' :=
    Act.wp_iff.mp (exec_orders σ.state hmatched) tr _ s' hx
  have refreshes : ∀ {l : List Task}, l = refreshTasks → .orderTaken o taking msg ∉ l := by
    rintro _ rfl
    simp [refreshTasks]
  cases htokens with
  | pass _ _ hplain _ => exact absurd (hplain _ hmem) id
  | add _ heff => exact absurd hmem (refreshes (congrArg Effect.next heff))
  | remove _ heff => exact absurd hmem (refreshes (congrArg Effect.next heff))
  | refresh _ heff _ => simp [heff] at hmem
  | lock _ _ hown _ heff =>
      rw [heff] at hmem
      rcases List.mem_append.mp hmem with hmem | hmem
      · exact absurd hmem (refreshes rfl)
      · obtain ⟨rfl, _, _⟩ := Task.orderTaken.inj (List.mem_singleton.mp hmem)
        have hasset := h.orders _ _ hown
        exact fun hsome => hasset hsome
  | unlock _ _ _ hplain _ => exact absurd (hplain _ hmem) id
  | drop _ _ heff =>
      rcases heff with heff | heff
      · exact absurd hmem (refreshes (congrArg Effect.next heff))
      · simp [heff, refreshTasks] at hmem

/-- **A trade against an own order**, after a step. -/
lemma Sys.OfAssets.maker_of_origin {σ : Sys} {rec : Record} {t : TradeState} (h : σ.OfAssets A)
    (hmem : rec.task ∈ σ.tasks) (horigin : Origin cfg σ rec t)
    (hok : ¬ ∃ e, rec.outcome = .error e) (hrole : getRole σ.state.account t = .maker) :
    A t.order.getAsset := by
  cases horigin with
  | old hk => exact h.trades t hk hrole
  | blank _ herr => exact absurd herr hok
  | taken htask hcheck _ _ heq =>
      rw [heq]
      simp only [checkOrder, Bool.and_eq_true] at hcheck
      exact h.taken _ _ _ (htask ▸ hmem) hcheck.1.1.2
  | took _ _ hown _ hout =>
      -- this order is not one of ours
      exact absurd hrole (by simp [getRole, hout.frame.order, newTrade, hown])
  | @processed msg t₀ _ _ ht₀ _ hout _ =>
      have horder : t.order = t₀.order := by
        rw [hout.frame.order, (@handleMessage_spec σ.state.account msg t₀).eq]
      rw [getRole, horder] at hrole
      rw [horder]
      exact h.trades t₀ (Or.inl ht₀) hrole
  | updated _ ht₀ hout =>
      rw [getRole, hout.frame.order] at hrole
      rw [hout.frame.order]
      exact h.trades _ (Or.inl ht₀) hrole

/-! ### One step -/

section Step

variable {σ σ' : Sys} {l : Label} {w w' : W}

lemma Sys.OfAssets.orders_of_step (hA : OnlyAssets A E) (h : σ.OfAssets A)
    (hs : Sys.Step cfg σ l σ') (hpath : E.Path w l.talk w') (hproper : σ.Proper)
    (hmatched : ∀ y ∈ σ.tasks, y.matched) (hrun : σ'.halted = false) :
    EveryOrder (Order.ofAssets A) σ'.state.ownOrders := by
  cases hs with
  | start op _ => exact h.orders
  | @run before after op task rest tr r s' hh hth hx =>
      have htask : task.matched := hmatched task (by simp [Sys.tasks_split hth])
      cases r with
      | ok eff =>
          have hlock : ∀ (o : Order) (b : Bool), o.ofAssets A →
              ({ o with locked := b } : Order).ofAssets A := fun o b ho hsome => ho hsome
          have htalk : E.Path w tr w' := hpath
          have hadd : ∀ o, task = .add o → eff.next ≠ [] →
              ({ o with account := none, id := none } : Order).ofAssets A := by
            intro o heq hnext _
            rw [heq] at hx
            have hasset : A o.getAsset := asset_of_add hA hx htalk hnext
            exact hasset
          exact EveryOrder.returns h.orders hlock hadd htask hx
      | error e =>
          obtain ⟨rfl, hnot⟩ := exception_of_running hproper hth hrun
          obtain ⟨_, _, hblank⟩ := throws_of_exec hx htask hnot
          refine h.orders.mono (fun _ => id) fun id o ho => (hblank id o ho).2.imp_right ?_
          rintro rfl hsome
          cases hsome

lemma Sys.OfAssets.taken_of_step (h : σ.OfAssets A) (hs : Sys.Step cfg σ l σ')
    (hmatched : ∀ y ∈ σ.tasks, y.matched) :
    ∀ o taking msg, .orderTaken o taking msg ∈ σ'.tasks → o.ofAssets A := by
  have hall : ∀ y ∈ σ'.tasks, ∀ o taking msg, y = .orderTaken o taking msg → o.ofAssets A := by
    refine tasks_of_step hs (fun y hy o taking msg heq => h.taken o taking msg (heq ▸ hy)) ?_ ?_
    · rintro op _ y hy o taking msg rfl
      cases op <;> simp [Op.tasks, refreshTasks] at hy
    · rintro rec eff rfl hok htask y hy o taking msg rfl
      cases hs with
      | run _ _ hx =>
          obtain rfl : _ = Except.ok eff := hok
          exact h.taken_of_exec (hmatched _ htask) hx o taking msg hy
  exact fun o taking msg hmem => hall _ hmem o taking msg rfl

lemma Sys.OfAssets.trades_of_step (h : σ.OfAssets A) (hs : Sys.Step cfg σ l σ') (hproper : σ.Proper)
    (hmatched : ∀ y ∈ σ.tasks, y.matched) (hrun : σ'.halted = false) {t : TradeState}
    (hk : σ'.Knows t) (hrole : getRole σ'.state.account t = .maker) : A t.order.getAsset := by
  have horigin := origin_of_step hs hk
  cases hs with
  | start op _ =>
      rcases horigin with hk | ⟨_, hl, _⟩
      · exact h.trades t hk hrole
      · cases hl
  | @run before after op task rest tr r s' hh hth hx =>
      have htask : task ∈ σ.tasks := by simp [Sys.tasks_split hth]
      have hmaker : getRole σ.state.account t = .maker := by
        rw [← (section_of_exec hx).account_eq]
        exact hrole
      cases r with
      | ok eff =>
          rcases horigin with hk | ⟨rec, hl, horigin⟩
          · exact h.trades t hk hmaker
          · obtain rfl := Label.run.inj hl
            refine h.maker_of_origin htask horigin ?_ hmaker
            rintro ⟨e, ⟨⟩⟩
      | error e =>
          obtain ⟨rfl, hnot⟩ := exception_of_running hproper hth hrun
          obtain ⟨htrades, _, _⟩ := throws_of_exec hx (hmatched task htask) hnot
          exact h.trades t (knows_of_threw hth htrades hk) hmaker

end Step

lemma reachable_ofAssets (hA : OnlyAssets A E) {x : Sys × W}
    (h : (system cfg E account).Reachable x) (hrun : x.1.halted = false) : x.1.OfAssets A := by
  revert hrun
  refine Transition.System.Reachable.invariant
    (fun x => x.1.halted = false → x.1.OfAssets A) ?_ ?_ h
  · intro x hx _
    have hempty : x.1 = Sys.start account := hx
    rw [hempty]
    refine ⟨fun id o ho => ?_, fun o taking msg hmem => ?_, ?_⟩
    · cases ho
    · simp [Sys.start, Sys.tasks] at hmem
    · rintro t (ht | ⟨th, hth, _⟩)
      · simp [Sys.start] at ht
      · simp [Sys.start] at hth
  · rintro x l x' hr ih ⟨hs, hpath⟩ hrun
    have hbefore := ih (not_halted_of_step hs)
    have hproper := reachable_proper hr
    have hmatched := reachable_matched hr
    exact ⟨hbefore.orders_of_step hA hs hpath hproper hmatched hrun,
      hbefore.taken_of_step hs hmatched,
      fun _ hk hrole => hbefore.trades_of_step hs hproper hmatched hrun hk hrole⟩

/-- **A trade against an own order is about an asset.** -/
lemma reachable_maker_asset (hA : OnlyAssets A E) {x : Sys × W}
    (h : (system cfg E account).Reachable x) (hrun : x.1.halted = false) {t : TradeState}
    (hk : x.1.Knows t) (hrole : getRole account t = .maker) : A t.order.getAsset := by
  rw [← reachable_account h] at hrole
  exact (reachable_ofAssets hA h hrun).trades t hk hrole

/-- What holds of the exchanges that keep to the order holds of all that were made. -/
lemma reachable_asks {P : Ev → Prop} (hP : AssetsFirst cfg E P) {x : Sys × W}
    (h : (system cfg E account).Reachable x) {rec : Record} (hrec : rec ∈ x.1.log) {ev : Ev}
    (hev : ev ∈ rec.talk) : P ev ∧ ∃ w w', E w ev w' := by
  obtain ⟨y, z, _, ⟨hs, hpath⟩, _⟩ := reachable_record h rec hrec
  refine ⟨?_, Env.event_of_path hpath hev⟩
  generalize z.1 = σ' at hs
  cases hs with
  | run _ _ hx => exact Act.wpIn_iff.mp (exec_asks hP _ _ _) _ _ _ _ hx hpath ev hev

/-! ## The game of non-fungible assets -/

/-- The exchange goes as the `NfAssetSpec` answers, with whatever the GSP says at that point. -/
def NfAnswers (fromHex : String → Option Uint256) : Ev → Prop
  | ⟨.clock, _⟩ => True
  | ⟨.rpc m, a⟩ =>
      match m, a with
      | .isAsset asset, (a : Except RpcError Bool) =>
          ∃ gsp : NfRpcClient, gsp.Proper fromHex ∧ a = NfAssetSpec.isAsset gsp asset
      | .canBuy name asset n, (a : Except RpcError Bool) => a = .ok (NfAssetSpec.canBuy name asset n)
      | .canSell name asset n, (a : Except RpcError (Option Uint256)) =>
          ∃ gsp : NfRpcClient, gsp.Proper fromHex ∧ a = NfAssetSpec.canSell fromHex gsp name asset n
      | _, _ => True

/-- The name update that a call makes: the name and its value. -/
def Ev.nameUpdate? : Ev → Option (String × String)
  | ⟨.rpc (.namepsbt _ _ _ name value), _⟩ => some (name, value)
  | _ => none

/-- The update of the name transfers some of an asset from its owner to somebody. -/
def Transfers (writeString : Json → String) (name value : String) : Prop :=
  ∃ seller buyer asset units move,
    NfAssetSpec.getTransferMove seller buyer asset units = some move ∧ name = getXayaName seller ∧
      value = writeString (nameUpdateJson NfAssetSpec.getGameId move)

section Nonfungible

variable {fromHex : String → Option Uint256} (hE : ∀ w ev w', E w ev w' → NfAnswers fromHex ev)

include hE

lemma onlyAssets_nf : OnlyAssets Splits E := by
  intro w w' asset he
  obtain ⟨gsp, _, hanswer⟩ := hE w _ w' he
  exact splits_of_isAsset hanswer.symm

/-- What is asked about an asset is asked about a string that splits; a name update has a move. -/
lemma assetsFirst_nf (writeString : Json → String) :
    AssetsFirst (nfConfig writeString) E fun ev =>
      (∀ name asset n a, ev = ⟨.rpc (.canSell name asset n), a⟩ → Splits asset) ∧
      ∀ name value, ev.nameUpdate? = some (name, value) → Transfers writeString name value where
  other c a hc := by
    refine ⟨fun name asset n a' heq => ?_, fun name value hupdate => ?_⟩
    · cases hc _ (Sigma.mk.inj heq).1
    · cases c with
      | clock => cases hupdate
      | rpc m =>
          have hm := hc m rfl
          cases m with
          | namepsbt psbt n op name value => cases hm
          | _ => cases hupdate
  canSell w w' asset he name n a := by
    refine ⟨fun name' asset' n' a' heq => ?_, fun name value hupdate => by cases hupdate⟩
    obtain ⟨_, rfl, _⟩ := Method.canSell.inj (Call.rpc.inj (Sigma.mk.inj heq).1)
    exact onlyAssets_nf hE w w' asset he
  update w w' ck he psbt a := by
    refine ⟨fun name asset n a' heq => ?_, fun name value hupdate => ?_⟩
    · cases (Sigma.mk.inj heq).1
    · obtain ⟨rfl, rfl⟩ := Prod.mk.inj (Option.some.inj hupdate)
      have hsplits : Splits ck.asset := onlyAssets_nf hE w w' _ he
      obtain ⟨move, hmove⟩ := Option.isSome_iff_exists.mp
        (@isSome_getTransferMove ck.asset ck.seller ck.buyer ck.units |>.mpr hsplits)
      refine ⟨ck.seller, ck.buyer, ck.asset, ck.units, move, hmove, rfl, ?_⟩
      simp [TradeChecker.getNameUpdateValue, nfConfig, hmove]

/-- **The assertions of the `NfAssetSpec` hold.**  In every state of every run of a daemon for
non-fungible assets, whatever the GSP has answered and however the answers have changed: no call of
`IsAsset` or `CanSell` has failed an assertion; every name update that was made for a purchase is
one in which the seller transfers something; and as long as the daemon runs, `GetTransferMove` has a
move for every trade against an own order. -/
theorem nf_assertions_hold {writeString : Json → String} {x : Sys × W}
    (h : (system (nfConfig writeString) E account).Reachable x) :
    (∀ rec ∈ x.1.log, ∀ ev ∈ rec.talk,
      (∀ asset, ev ≠ Ev.failed (.isAsset asset) .malformed) ∧
      (∀ name asset n, ev ≠ Ev.failed (.canSell name asset n) .malformed) ∧
      ∀ name value, ev.nameUpdate? = some (name, value) → Transfers writeString name value) ∧
    (x.1.halted = false → ∀ t, x.1.Knows t → getRole account t = .maker →
      ∀ sender receiver n,
        (NfAssetSpec.getTransferMove sender receiver t.order.getAsset n).isSome = true) := by
  refine ⟨fun rec hrec ev hev => ?_, fun hrun t hk hrole sender receiver n => ?_⟩
  · obtain ⟨⟨hsplits, hupdate⟩, w, w', he⟩ :=
      reachable_asks (assetsFirst_nf hE writeString) h hrec hev
    have hanswer := hE w ev w' he
    refine ⟨?_, ?_, hupdate⟩
    · rintro asset rfl
      obtain ⟨gsp, hproper, hfails⟩ := hanswer
      exact hproper.isAsset hfails.symm
    · rintro name asset n rfl
      obtain ⟨gsp, hproper, hfails⟩ := hanswer
      exact hproper.canSell_iff.mp hfails.symm (hsplits name asset n _ rfl)
  · exact isSome_getTransferMove.mpr (reachable_maker_asset (onlyAssets_nf hE) h hrun hk hrole)

end Nonfungible

/-! ### Three trades in swords -/

/-- A block hash in hexadecimal. -/
def sampleBlockHex : String :=
  "0000000000000000000000000000000000000000000000000000000000000000"

/-- `uint256::FromHex`, for this hash. -/
def sampleFromHex (hex : String) : Option Uint256 := if hex = sampleBlockHex then some 0 else none

/-- A GSP to which everything is an asset, and everyone has ten of it. -/
def sampleGsp : NfRpcClient where
  getassetdetails _ := some (.obj [("data", .obj [])])
  getbalance _ _ := some (.obj [("data", .int 10), ("blockhash", .str sampleBlockHex)])

lemma sampleGsp_proper : sampleGsp.Proper sampleFromHex where
  details := by
    rintro _ _ ⟨⟩
    rfl
  balance := by
    rintro _ _ _ ⟨⟩
    rfl
  blockhash := by
    rintro _ _ _ ⟨⟩
    rfl

/-- A script answers as the `NfAssetSpec` if it does so with this GSP. -/
lemma nfAnswers_of_script {script : W → (c : Call) → Answer c × W}
    (hasset : ∀ w asset,
      (script w (.rpc (.isAsset asset))).1 = NfAssetSpec.isAsset sampleGsp asset)
    (hbuy : ∀ w name asset n, (script w (.rpc (.canBuy name asset n))).1
      = (.ok (NfAssetSpec.canBuy name asset n) : Except RpcError Bool))
    (hsell : ∀ w name asset n, (script w (.rpc (.canSell name asset n))).1
      = NfAssetSpec.canSell sampleFromHex sampleGsp name asset n)
    (w : W) (ev : Ev) (w' : W) (h : Env.ofScript script w ev w') : NfAnswers sampleFromHex ev := by
  obtain ⟨c, a⟩ := ev
  have ha : (script w c).1 = a := congrArg Prod.fst h
  cases c with
  | clock => trivial
  | rpc m =>
      cases m with
      | isAsset asset => exact ⟨sampleGsp, sampleGsp_proper, ha.symm.trans (hasset w asset)⟩
      | canBuy name asset n => exact ha.symm.trans (hbuy w name asset n)
      | canSell name asset n =>
          exact ⟨sampleGsp, sampleGsp_proper, ha.symm.trans (hsell w name asset n)⟩
      | _ => trivial

/-- A move is written as its receiver. -/
def writeReceiver (value : Json) : String :=
  let move := (value.member "g").bind (Json.member NfAssetSpec.getGameId)
  ((move.bind (Json.member "t")).bind (Json.member "r")).bind Json.string? |>.getD ""

/-- The node of a daemon for the game. -/
def nfScript (n : ℕ) : (c : Call) → Answer c × ℕ
  | .rpc (.isAsset asset) => (NfAssetSpec.isAsset sampleGsp asset, n)
  | .rpc (.canBuy name asset units) =>
      ((.ok (NfAssetSpec.canBuy name asset units) : Except RpcError Bool), n)
  | .rpc (.canSell name asset units) =>
      (NfAssetSpec.canSell sampleFromHex sampleGsp name asset units, n)
  | .rpc (.gettxout _) => ((.ok (some 0) : Except RpcError (Option Uint256)), n)
  | .rpc (.walletcreatefundedpsbt _ _) => ((.ok "coins" : Except RpcError String), n)
  | .rpc (.createpsbt _ _) => ((.ok "name" : Except RpcError String), n)
  | c => saleScript n c

lemma nfAnswers_nfScript (w : ℕ) (ev : Ev) (w' : ℕ) (h : Env.ofScript nfScript w ev w') :
    NfAnswers sampleFromHex ev :=
  nfAnswers_of_script (fun _ _ => rfl) (fun _ _ _ _ => rfl) (fun _ _ _ _ => rfl) w ev w' h

/-- The order, about swords. -/
def Order.inSwords (o : Order) : Order := { o with asset := some "smith\nsword" }

/-- **Our offer is taken**, and the move can be made; we take an offer, and **the update of the
seller's name gives the swords to us**.  A bid that we take has not been asked about, and there may
be no move for it. -/
theorem nf_assertions_hold_swords :
    (∃ (x : Sys × ℕ) (t : TradeState),
      (system (nfConfig writeReceiver) (Env.ofScript nfScript) "maker").Reachable x ∧
      t ∈ x.1.state.trades ∧ getRole "maker" t = .maker ∧
      ∀ sender receiver n,
        (NfAssetSpec.getTransferMove sender receiver t.order.getAsset n).isSome = true) ∧
    (∃ (x : Sys × ℕ) (rec : Record) (ev : Ev),
      (system (nfConfig writeReceiver) (Env.ofScript nfScript) "buyer").Reachable x ∧
      rec ∈ x.1.log ∧ ev ∈ rec.talk ∧ ev.nameUpdate? = some ("p/seller", "buyer") ∧
      Transfers writeReceiver "p/seller" "buyer") ∧
    ∃ (x : Sys × ℕ) (t : TradeState),
      (system (nfConfig writeReceiver) (Env.ofScript nfScript) "seller").Reachable x ∧
      x.1.halted = false ∧ t ∈ x.1.state.trades ∧ getOrderType "seller" t = .ask ∧
      ∀ sender receiver n, NfAssetSpec.getTransferMove sender receiver t.order.getAsset n = none := by
  refine ⟨?_, ?_, ?_⟩
  · obtain ⟨x, hr, hQ⟩ := Sys.exists_reachable (nfConfig writeReceiver) nfScript "maker" 0
      [.start (.addOrder offerOrder.inSwords), .run 0, .start (.processMessage offerMessage), .run 1,
        .run 1, .run 1, .run 1, .run 1]
      (fun x => !x.1.halted && x.1.state.trades.any fun t => getRole "maker" t = .maker)
      (by decide +kernel)
    simp only [Bool.and_eq_true, Bool.not_eq_true', List.any_eq_true, decide_eq_true_eq] at hQ
    obtain ⟨hrun, t, ht, hrole⟩ := hQ
    obtain ⟨_, hmoves⟩ := nf_assertions_hold nfAnswers_nfScript hr
    exact ⟨x, t, hr, ht, hrole, hmoves hrun t (Or.inl ht) hrole⟩
  · obtain ⟨x, hr, hQ⟩ := Sys.exists_reachable (nfConfig writeReceiver) nfScript "buyer" 0
      [.start (.takeOrder purchaseOrder.inSwords 2), .run 0, .start (.processMessage purchaseMessage),
        .run 1, .run 1]
      (fun x => x.1.log.any fun rec => rec.talk.any fun ev =>
        ev.nameUpdate? = some ("p/seller", "buyer")) (by decide +kernel)
    simp only [List.any_eq_true, decide_eq_true_eq] at hQ
    obtain ⟨rec, hrec, ev, hev, hupdate⟩ := hQ
    obtain ⟨htalk, _⟩ := nf_assertions_hold nfAnswers_nfScript hr
    exact ⟨x, rec, ev, hr, hrec, hev, hupdate, (htalk rec hrec ev hev).2.2 _ _ hupdate⟩
  · obtain ⟨x, hr, hQ⟩ := Sys.exists_reachable (nfConfig writeReceiver) nfScript "seller" 0
      [.start (.takeOrder saleOrder 2), .run 0]
      (fun x => !x.1.halted && x.1.state.trades.any fun t =>
        getOrderType "seller" t = .ask && !Splits t.order.getAsset) (by decide +kernel)
    simp only [Bool.and_eq_true, Bool.not_eq_true', List.any_eq_true, decide_eq_true_eq,
      decide_eq_false_iff_not] at hQ
    obtain ⟨hrun, t, ht, htype, hnot⟩ := hQ
    refine ⟨x, t, hr, hrun, ht, htype, fun sender receiver n => ?_⟩
    rw [← Option.not_isSome_iff_eq_none, isSome_getTransferMove]
    exact hnot

end Democrit
