import Democrit.Safety.Evolution
import Democrit.Spec.Aborts
import Democrit.Spec.Checker

/-!
# The total of a trade

The total `price_sat * units` is computed, with an overflow check, in `GetTotalSat`, which asserts
that there are units at all; the buyer asserts that the check succeeded, and the seller that the
total is not negative.  None of this is looked at when a trade is created: `CheckOrder` only
compares the units with the order's bounds, after a conversion to signed numbers, and a missing
minimum is read as zero.

So **a counterparty can take zero units** of an order without a minimum, and the assertion fails once
the trade gets to the total (`zero_units_abort`).  `bounded_iff` says which orders and amounts that
`CheckOrder` lets through make a sound trade, and `totals_computable` that in a run where only such
ones come in, every trade is within its order's bounds and none of the three assertions fails.
-/

namespace Democrit

open Interaction

variable {cfg : Config}

/-! ## Sound trades -/

/-- A trade within the bounds of its order, with a total that is an amount. -/
structure Bounded (t : TradeState) : Prop where
  units : 1 ≤ t.units.toNat
  min : t.order.getMinUnits.toNat ≤ t.units.toNat
  max : t.units.toNat ≤ t.order.maxUnits.toNat
  total : t.order.getPriceSat.toNat * t.units.toNat < 2 ^ 63

/-- The total can be computed, and is not negative. -/
def HasTotal (account : String) (t : TradeState) : Prop :=
  ∃ total, (buildTradeChecker account t).getTotalSat = .ok (some total) ∧ 0 ≤ total

/-- Units of an order that `CheckOrder` should let through, as far as their number is concerned. -/
structure Takeable (o : Order) (units : Amount) : Prop where
  positive : 0 < units
  min : o.getMinUnits.toNat < 2 ^ 63
  total : o.getPriceSat.toNat * units.toUInt64.toNat < 2 ^ 63

/-- The number of units that a positive amount stands for. -/
lemma toNat_of_pos {units : Amount} (h : 0 < units) :
    units.toUInt64.toNat < 2 ^ 63 ∧ units.toInt = units.toUInt64.toNat := by
  have hpos : 0 < units.toInt := by simpa using Int64.lt_iff_toInt_lt.mp h
  have heq : units.toUInt64.toInt64 = units := Int64.toInt64_toUInt64 units
  have hlt : units.toUInt64.toNat < 2 ^ 63 := Word.toNat_lt_of_nonneg (by rw [heq]; omega)
  refine ⟨hlt, ?_⟩
  rw [← Word.toInt_toInt64_of_lt hlt, heq]

/-- What the bounds of `CheckOrder` say about signed numbers. -/
lemma checkOrder_bounds {o : Order} {units : Amount} (h : checkOrder o units = true) :
    o.getMinUnits.toInt64.toInt ≤ units.toInt ∧ units.toInt ≤ o.maxUnits.toInt64.toInt := by
  simp only [checkOrder, Bool.and_eq_true, Bool.not_eq_true', Bool.or_eq_false_iff,
    decide_eq_false_iff_not, Int64.lt_iff_toInt_lt, not_lt] at h
  omega

/-- A total below `2 ^ 63` is computed exactly. -/
lemma hasTotal_of_lt {account : String} {t : TradeState} (hu : 0 < t.units.toInt64)
    (h : t.order.getPriceSat.toNat * t.units.toNat < 2 ^ 63) : HasTotal account t := by
  obtain ⟨hlt, hval⟩ := toNat_of_pos hu
  rw [UInt64.toUInt64_toInt64] at hlt hval
  have hpos : 0 < t.units.toInt64.toInt := by simpa using Int64.lt_iff_toInt_lt.mp hu
  have hunits : 1 ≤ t.units.toNat := by omega
  have hprice : t.order.getPriceSat.toNat < 2 ^ 63 := by
    calc t.order.getPriceSat.toNat ≤ t.order.getPriceSat.toNat * t.units.toNat :=
          Nat.le_mul_of_pos_right _ hunits
      _ < 2 ^ 63 := h
  have hmul : t.order.getPriceSat.toInt64.toInt * t.units.toInt64.toInt
      = ((t.order.getPriceSat.toNat * t.units.toNat : ℕ) : ℤ) := by
    rw [Word.toInt_toInt64_of_lt hprice, hval]
    push_cast
    rfl
  have hrange : -2 ^ 63 ≤ t.order.getPriceSat.toInt64.toInt * t.units.toInt64.toInt ∧
      t.order.getPriceSat.toInt64.toInt * t.units.toInt64.toInt < 2 ^ 63 := by
    rw [hmul]
    omega
  refine ⟨t.order.getPriceSat.toInt64 * t.units.toInt64, ?_, ?_⟩
  · exact (@getTotalSat_of_pos (buildTradeChecker account t) hu).trans
      (congrArg Except.ok (if_pos hrange))
  · rw [Int64.le_iff_toInt_le, Word.toInt_mul_of_range hrange.1 hrange.2, hmul, Int64.toInt_zero]
    exact Int.natCast_nonneg _

/-- **Which trades that `CheckOrder` lets through are sound.** -/
theorem bounded_iff {account : String} {o : Order} {units : Amount} (counterparty : String)
    (now : Int64) (serial : ℕ) (hcheck : checkOrder o units = true) :
    Bounded (newTrade o units counterparty now serial) ∧
        HasTotal account (newTrade o units counterparty now serial) ↔ Takeable o units := by
  obtain ⟨hmin, hmax⟩ := checkOrder_bounds hcheck
  constructor
  · rintro ⟨hb, total, htotal, _⟩
    have hpos : 0 < units := by
      have := (getTotalSat_some htotal).1
      rw [Int64.lt_iff_toInt_lt]
      simpa [buildTradeChecker, newTrade] using this
    refine ⟨hpos, lt_of_le_of_lt hb.min (toNat_of_pos hpos).1, hb.total⟩
  · rintro ⟨hpos, hlt, htotal⟩
    obtain ⟨hu, hval⟩ := toNat_of_pos hpos
    have hpos' : 0 < units.toInt := by simpa using Int64.lt_iff_toInt_lt.mp hpos
    have hmax' : o.maxUnits.toInt64.toInt = o.maxUnits.toNat :=
      Word.toInt_toInt64_of_lt (Word.toNat_lt_of_nonneg (by omega))
    rw [Word.toInt_toInt64_of_lt hlt] at hmin
    refine ⟨⟨?_, ?_, ?_, htotal⟩, hasTotal_of_lt hpos htotal⟩
    · show 1 ≤ units.toUInt64.toNat
      omega
    · show o.getMinUnits.toNat ≤ units.toUInt64.toNat
      omega
    · show units.toUInt64.toNat ≤ o.maxUnits.toNat
      omega

/-! ## Runs -/

/-- The assertions about the total. -/
def isTotalCheck (c : Check) : Prop :=
  c = .unitsPositive ∨ c = .totalComputable ∨ c = .totalNonNegative

lemma sectionChecks_spare_total : ∀ c ∈ sectionChecks, ¬ isTotalCheck c := by
  simp [sectionChecks, tradeChecks, isTotalCheck]

/-- A trade with a total fails none of them. -/
lemma HasTotal.harmless {account : String} {t : TradeState} (h : HasTotal account t) :
    Harmless isTotalCheck (buildTradeChecker account t) := by
  obtain ⟨total, htotal, hnonneg⟩ := h
  refine ⟨fun c hc => ?_, fun hc => ?_, fun total' hc hneg => ?_⟩
  · rw [htotal] at hc
    simp at hc
  · rw [htotal] at hc
    simp at hc
  · rw [htotal] at hc
    obtain rfl := Option.some.inj (Except.ok.inj hc)
    exact absurd hnonneg hneg

/-- What `bounded_iff` is about, as one property of a trade. -/
def Sound (account : String) (t : TradeState) : Prop := Bounded t ∧ HasTotal account t

lemma Sound.frame {account : String} {t t' : TradeState} (hf : Frame t t') (h : Sound account t) :
    Sound account t' := by
  have hck : buildTradeChecker account t' = buildTradeChecker account t := by
    rw [buildTradeChecker, buildTradeChecker, hf.getOrderType, hf.order, hf.units, hf.counterparty]
  refine ⟨⟨?_, ?_, ?_, ?_⟩, ?_⟩
  · rw [hf.units]
    exact h.1.units
  · rw [hf.units, hf.order]
    exact h.1.min
  · rw [hf.units, hf.order]
    exact h.1.max
  · rw [hf.units, hf.order]
    exact h.1.total
  · rw [HasTotal, hck]
    exact h.2

instance (o : Order) (units : Amount) : Decidable (Takeable o units) :=
  decidable_of_iff (0 < units ∧ o.getMinUnits.toNat < 2 ^ 63 ∧
      o.getPriceSat.toNat * units.toUInt64.toNat < 2 ^ 63)
    ⟨fun h => ⟨h.1, h.2.1, h.2.2⟩, fun h => ⟨h.positive, h.min, h.total⟩⟩

/-- What `CheckOrder` lets through in this section makes a sound trade. -/
def Task.sane : Task → Bool
  | .takeOrder o units => checkOrder o units = true → Takeable o units
  | .orderTaken o taking _ =>
      checkOrder o taking.units.toInt64 = true → Takeable o taking.units.toInt64
  | _ => true

/-- What `CheckOrder` lets through in this step makes a sound trade. -/
def Label.sane : Label → Bool
  | .start _ => true
  | .run rec => rec.task.sane

/-- **One step** leaves only sound trades, unless it ends the run. -/
lemma sound_of_step {account : String} {σ σ' : Sys} {l : Label} (hs : Sys.Step cfg σ l σ')
    (hsane : l.sane = true) (hser : Serials σ') (hsound : ∀ t, σ.Knows t → Sound account t) :
    ∀ t, σ'.Knows t → Sound account t := by
  intro t hk
  rcases origin_of_step hs hk with hk' | ⟨rec, rfl, horigin⟩
  · exact hsound t hk'
  · cases horigin with
    | old hk' => exact hsound t hk'
    | blank heq _ =>
        have := (hser.bound t hk).1
        rw [heq] at this
        simp at this
    | taken htask hcheck _ _ heq =>
        rw [Label.sane, htask] at hsane
        rw [heq]
        exact (bounded_iff _ _ _ hcheck).mpr (of_decide_eq_true hsane hcheck)
    | took htask hcheck _ _ hout =>
        rw [Label.sane, htask] at hsane
        have htake := of_decide_eq_true hsane hcheck
        exact Sound.frame hout.frame ((bounded_iff _ _ _ hcheck).mpr htake)
    | processed _ ht _ hout _ =>
        have h₀ := hsound _ (Or.inl ht)
        exact h₀.frame ((handleMessage_spec _ _).frame.trans hout.frame)
    | updated _ ht hout => exact (hsound _ (Or.inl ht)).frame hout.frame

/-- **One section** on sound trades fails no assertion about a total. -/
lemma spares_of_step {account : String} {σ σ' : Sys} {rec : Record}
    (hs : Sys.Step cfg σ (.run rec) σ') (hsane : rec.task.sane = true)
    (hacc : σ.state.account = account) (hsound : ∀ t ∈ σ.state.trades, Sound account t) :
    Spares isTotalCheck rec.outcome := by
  cases hs with
  | @run before after op task rest tr r s' _ hth hx =>
      have hspare : (exec cfg task).wp σ.state fun _ r _ => Spares isTotalCheck r := by
        refine exec_spares sectionChecks_spare_total (fun _ _ hf h => Sound.frame hf h)
          (fun pb h => HasTotal.harmless h.2) task hacc hsound ?_ ?_
        · rintro o units rfl hcheck now
          exact (bounded_iff _ _ _ hcheck).mpr (of_decide_eq_true hsane hcheck)
        · intro _ id
          refine avoids_read fun s _ => ?_
          cases s.ownOrders.lookup id with
          | none => exact avoids_fail (by simp [isTotalCheck])
          | some o =>
              refine avoids_bind (avoids_check fun _ => by simp [isTotalCheck]) fun _ => ?_
              exact avoids_write trivial
      exact Act.wp_iff.mp hspare tr r s' hx

section Runs

variable {W : Type} {E : Env Call Answer W} {account : String}

/-- **The total of a trade.**  In every run in which `CheckOrder` only lets positive numbers of units
through, with a minimum and a total below `2 ^ 63`, every trade is within the bounds of its order,
and the three assertions about the total never fail. -/
theorem totals_computable {x : Sys × W}
    (h : ((system cfg E account).restrict fun _ l => l.sane = true).Reachable x) :
    (x.1.halted = false → ∀ t, x.1.Knows t → Bounded t) ∧
    ∀ rec ∈ x.1.log, rec.outcome ≠ .error (.check .unitsPositive) ∧
      rec.outcome ≠ .error (.check .totalComputable) ∧
      rec.outcome ≠ .error (.check .totalNonNegative) := by
  have hinv : (x.1.halted = false → ∀ t, x.1.Knows t → Sound account t) ∧
      ∀ rec ∈ x.1.log, Spares isTotalCheck rec.outcome := by
    refine Transition.System.Reachable.invariant (fun x =>
      (x.1.halted = false → ∀ t, x.1.Knows t → Sound account t) ∧
        ∀ rec ∈ x.1.log, Spares isTotalCheck rec.outcome) ?_ ?_ h
    · intro x hx
      have hempty : x.1 = Sys.start account := hx
      rw [hempty]
      refine ⟨?_, by simp [Sys.start]⟩
      rintro _ t (ht | ⟨th, hth, _⟩)
      · simp [Sys.start] at ht
      · simp [Sys.start] at hth
    · rintro x l x' hr ⟨ih, hlog⟩ hstep
      have hreach : (system cfg E account).Reachable x' := hr.of_restrict.step hstep.1
      obtain ⟨⟨hs, _⟩, hsane⟩ := hstep
      have hsound := ih (not_halted_of_step hs)
      refine ⟨fun hrun => sound_of_step hs hsane (reachable_serials hreach hrun) hsound, ?_⟩
      intro rec hrec
      cases l with
      | start op =>
          generalize x'.1 = σ' at hs hrec
          cases hs
          exact hlog rec hrec
      | run rec' =>
          have hspare := spares_of_step hs hsane (reachable_account hr.of_restrict)
            fun t ht => hsound t (Or.inl ht)
          generalize x'.1 = σ' at hs hrec
          cases hs
          rcases List.mem_append.mp hrec with hrec | hrec
          · exact hlog rec hrec
          · rw [List.mem_singleton.mp hrec]
            exact hspare
  refine ⟨fun hrun t hk => (hinv.1 hrun t hk).1, fun rec hrec => ⟨?_, ?_, ?_⟩⟩
  · exact fun he => hinv.2 rec hrec _ he (Or.inl rfl)
  · exact fun he => hinv.2 rec hrec _ he (Or.inr (Or.inl rfl))
  · exact fun he => hinv.2 rec hrec _ he (Or.inr (Or.inr rfl))

end Runs

/-! ### An offer without a minimum -/

/-- A node and a wallet that do what they are asked for. -/
def unitsScript (n : ℕ) : (c : Call) → Answer c × ℕ
  | .clock => ((0 : Int64), n)
  | .rpc (.isAsset _) => ((.ok true : Except RpcError Bool), n)
  | .rpc (.canSell _ _ _) => ((.ok (some 0) : Except RpcError (Option Uint256)), n)
  | .rpc .getnewaddress => ((.ok ("address " ++ toString n) : Except RpcError String), n + 1)
  | .rpc (.nameShow _) => ((.ok ⟨"name", 0⟩ : Except RpcError OutPoint), n)
  | .rpc (.lockunspent _ _) => ((.ok true : Except RpcError Bool), n)
  | .rpc (.decodepsbt _) => ((.ok ⟨⟨"id", [⟨"name", 0⟩], []⟩, [{}]⟩ : Except RpcError Psbt), n)
  | .rpc _ => (.error .exception, n)

/-- Our order, which says nothing about a minimum. -/
def unitsOrder : Order where
  asset := some "gold"
  maxUnits := 3
  type := some .ask
  priceSat := some 5

/-- The message that takes some of it. -/
def unitsMessage (units : UInt64) : ProcessingMessage where
  counterparty := some "taker"
  identifier := some "maker\n0"
  takingOrder := some { id := 0, units }

/-- The message with the taker's PSBT. -/
def psbtMessage : ProcessingMessage where
  counterparty := some "taker"
  identifier := some "maker\n0"
  psbt := some "psbt"

/-- The order is added and taken, our addresses go out, and the PSBT comes in. -/
def unitsSchedule (units : UInt64) : List Sched :=
  [.start (.addOrder unitsOrder), .run 0, .start (.processMessage (unitsMessage units)), .run 1,
    .run 1, .run 1, .run 1, .run 1, .run 1, .start (.processMessage psbtMessage), .run 2, .run 2]

/-- The section is the one of `ProcessMessage` that works on a trade. -/
def Task.isProcess : Task → Bool
  | .process _ => true
  | _ => false

/-- **Zero units abort the daemon**: a trade for none is stored, and an assertion about its total
fails when the PSBT for it comes in. -/
theorem zero_units_abort : ∃ (x : Sys × ℕ) (t : TradeState) (rec : Record),
    (system sampleConfig (Env.ofScript unitsScript) "maker").Reachable x ∧
    t ∈ x.1.state.trades ∧ t.units = 0 ∧ ¬ Bounded t ∧ rec ∈ x.1.log ∧
    rec.task.isProcess = true ∧ rec.outcome = .error (.check .unitsPositive) := by
  obtain ⟨x, hr, hQ⟩ := Sys.exists_reachable sampleConfig unitsScript "maker" 0 (unitsSchedule 0)
    (fun x => (x.1.state.trades.any fun t => t.units = 0) &&
      x.1.log.any fun rec => rec.task.isProcess && rec.failedCheck = some .unitsPositive)
    (by decide +kernel)
  simp only [Bool.and_eq_true] at hQ
  obtain ⟨t, ht, hzero⟩ := List.any_eq_true.mp hQ.1
  obtain ⟨rec, hrec, hfail⟩ := List.any_eq_true.mp hQ.2
  simp only [Bool.and_eq_true, decide_eq_true_eq] at hzero hfail
  refine ⟨x, t, rec, hr, ht, hzero, fun hb => ?_, hrec, hfail.1,
    Record.outcome_of_failedCheck hfail.2⟩
  have := hb.units
  rw [hzero] at this
  simp at this

/-- Taking two units is fine. -/
theorem totals_computable_offer : ∃ (x : Sys × ℕ) (t : TradeState),
    ((system sampleConfig (Env.ofScript unitsScript) "maker").restrict
      fun _ l => l.sane = true).Reachable x ∧
    t ∈ x.1.state.trades ∧ t.units = 2 ∧ Bounded t := by
  obtain ⟨x, hr, hQ⟩ := Sys.exists_restricted sampleConfig unitsScript "maker" 0 (unitsSchedule 2)
    Label.sane (fun _ l => l.sane = true) (fun _ _ _ _ h => h)
    (fun x => !x.1.halted && x.1.state.trades.any fun t => t.units = 2) (by decide +kernel)
  simp only [Bool.and_eq_true, Bool.not_eq_true'] at hQ
  obtain ⟨t, ht, htwo⟩ := List.any_eq_true.mp hQ.2
  exact ⟨x, t, hr, ht, by simpa using htwo, (totals_computable hr).1 hQ.1 t (Or.inl ht)⟩

end Democrit
