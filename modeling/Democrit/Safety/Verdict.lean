import Democrit.Lib.Streak
import Democrit.Spec.Trade
import Democrit.System

/-!
# The verdict on a pending trade

Every call of `Update` on a pending trade looks at the chain once: at the height, at what the `g/dem`
GSP says about the transaction, and at the inputs in the UTXO set.  All it remembers from one look to
the next is `conflict_height`.  Here a trade is shown any sequence of observations, with reorgs
and all, and **the verdict is a property of that history** (`pending_verdict`):

* `SUCCESS` at the first observation with enough confirmations,
* `FAILED` at the first one that is conflicted, not the first of its streak of conflicted ones, and
  high enough above the beginning of that streak,
* and in between `conflict_height` is the height at which the current streak began.

Heights are 32-bit numbers, so nothing wraps in the 64-bit comparisons.
-/

namespace Democrit

open Interaction Streak

/-! ## Observations -/

/-- What the chain looks like: the height of the GSP, what it says about the transaction, and the
unspent outputs. -/
structure Observation where
  height : UInt32
  state : GspState
  utxo : OutPoint → Option Uint256

namespace Observation

/-- A confirmation is not in the future. -/
def Valid (o : Observation) : Prop := ∀ c, o.state = .confirmed c → c ≤ o.height

/-- The answers to what `Update` asks. -/
def answer (decode : String → Psbt) (o : Observation) : (c : Call) → Answer c
  | .clock => (0 : Int64)
  | .rpc (.decodepsbt p) => (.ok (decode p) : Except RpcError Psbt)
  | .rpc (.checktrade _) => (.ok (o.height, o.state) : Except RpcError (UInt32 × GspState))
  | .rpc (.gettxout out) => (.ok (o.utxo out) : Except RpcError (Option Uint256))
  | .rpc _ => .error .exception

/-- The transaction is unknown, and one of its inputs is not available. -/
def conflicted (tx : Tx) (o : Observation) : Prop :=
  o.state = .unknown ∧ ∃ out ∈ tx.vin, o.utxo out = none

/-- The transaction has `N` confirmations. -/
def confirms (N : ℕ) (o : Observation) : Prop :=
  ∃ c, o.state = .confirmed c ∧ c.toNat + N ≤ o.height.toNat + 1

end Observation

/-- `Update` on the trade `t`, when the chain looks like `o`. -/
def updateSeeing (cfg : Config) (decode : String → Psbt) (o : Observation) (t : TradeState) :
    Except Fail Unit × TradeState :=
  ((updateTrade cfg t).play (fun _ c => (o.answer decode c, ())) ()).1

/-- The trade after the first `k` observations. -/
def tradeAfter (cfg : Config) (decode : String → Psbt) (o : ℕ → Observation) (t : TradeState) :
    ℕ → TradeState
  | 0 => t
  | k + 1 => (updateSeeing cfg decode (o k) (tradeAfter cfg decode o t k)).2

/-! ## One call -/

section

variable {cfg : Config} {decode : String → Psbt} {o : Observation} {t : TradeState} {ours : String}

/-- The exchange is one that the observation answers. -/
def Observation.Saw (decode : String → Psbt) (o : Observation) (ev : Ev) : Prop :=
  o.answer decode ev.1 = ev.2

/-- A call that the observation answers does not fail. -/
lemma not_saw_failed {m : Method} {r : m.Reply} {e : RpcError}
    (h : o.answer decode (.rpc m) = (.ok r : Except RpcError m.Reply)) :
    ¬ o.Saw decode (Ev.failed m e) := by
  intro hsaw
  have : (.ok r : Except RpcError m.Reply) = .error e := h.symm.trans hsaw
  simp at this

/-- What holds of every exchange that the observation answers holds of the call. -/
lemma updateSeeing_of_wp {Q : Except Fail Unit → TradeState → Prop}
    (h : (updateTrade cfg).wp t fun tr r t' => (∀ ev ∈ tr, o.Saw decode ev) → Q r t') :
    Q (updateSeeing cfg decode o t).1 (updateSeeing cfg decode o t).2 := by
  refine Act.wp_iff.mp h _ _ _ (Prog.exec_play _ _ ()) ?_
  intro ev hev
  have hpath := Prog.path_play (fun (_ : Unit) c => (o.answer decode c, ())) (updateTrade cfg t) ()
  refine Env.forall_of_path (P := fun ev => o.Saw decode ev) ?_ hpath ev hev
  intro w ev w' he
  exact congrArg Prod.fst he

/-- The loop over the inputs finds out whether one is missing. -/
lemma anyInputSpent_seen : ∀ outs : List OutPoint,
    (anyInputSpent outs).wp () fun tr r _ => (∀ ev ∈ tr, o.Saw decode ev) →
      r = .ok (outs.any fun out => (o.utxo out).isNone)
  | [] => fun _ => rfl
  | out :: rest => by
      simp only [anyInputSpent, Act.wp_bind, wp_rpc, Act.afterBind_ok, Act.afterBind_error]
      refine ⟨?_, ?_, ?_⟩
      · intro utxo
        cases utxo with
        | none =>
            intro hsaw
            have hnone : o.utxo out = none :=
              Except.ok.inj (hsaw (Ev.returned (.gettxout out) none) (by simp))
            simp [hnone]
        | some b =>
            refine Act.wp_mono (anyInputSpent_seen rest) ?_
            intro tr r _ h hsaw
            have hsome : o.utxo out = some b :=
              Except.ok.inj (hsaw (Ev.returned (.gettxout out) (some b)) (by simp))
            rw [h fun ev hev => hsaw ev (by simp [hev])]
            simp [hsome]
      · intro hsaw
        exact absurd (hsaw _ (List.mem_singleton.mpr rfl)) (not_saw_failed (by rfl))
      · intro hsaw
        exact absurd (hsaw _ (List.mem_singleton.mpr rfl)) (not_saw_failed (by rfl))

/-- The 64-bit comparison of heights is the one of numbers. -/
lemma height_le_iff {a : UInt64} {b : UInt32} {n : Int32} (ha : a.toNat < 2 ^ 32) (hn : 1 ≤ n.toInt) :
    a + n.toInt64.toUInt64 ≤ b.toUInt64 + 1 ↔ a.toNat + n.toInt.toNat ≤ b.toNat + 1 := by
  have hb : b.toNat < 2 ^ 32 := b.toNat_lt
  have hlt : n.toInt < 2 ^ 31 := n.toInt_lt
  have hN : n.toInt64.toUInt64.toNat = n.toInt.toNat := by
    have hnonneg : 0 ≤ n.toInt64 := by
      rw [Int64.le_iff_toInt_le, Int32.toInt_toInt64]
      exact le_trans Int.one_nonneg hn
    rw [Int64.toNat_toUInt64_of_le hnonneg, Int64.toNatClampNeg, Int32.toInt_toInt64]
  rw [UInt64.le_iff_toNat_le, UInt64.toNat_add, UInt64.toNat_add, hN, UInt32.toNat_toUInt64,
    UInt64.toNat_one]
  omega

/-- What one call makes of a pending trade. -/
structure Verdict (N : ℕ) (tx : Tx) (o : Observation) (t t' : TradeState) : Prop where
  confirmed : o.confirms N → t' = { t with state := some .success }
  clear : ¬ o.confirms N → ¬ o.conflicted tx → t' = { t with conflictHeight := none }
  first : o.conflicted tx → t.conflictHeight = none →
    t' = { t with conflictHeight := some o.height.toUInt64 }
  failed : ∀ h, o.conflicted tx → t.conflictHeight = some h → h.toNat + N ≤ o.height.toNat + 1 →
    t' = { t with state := some .failed }
  waits : ∀ h, o.conflicted tx → t.conflictHeight = some h → ¬ h.toNat + N ≤ o.height.toNat + 1 →
    t' = t

section

variable {N : ℕ} {tx : Tx}

lemma not_conflicted_of_confirms (h : o.confirms N) : ¬ o.conflicted tx := by
  rintro ⟨hunknown, _⟩
  obtain ⟨c, hc, _⟩ := h
  rw [hunknown] at hc
  simp at hc

/-! The observation and the conflict height decide between the five verdicts. -/

lemma Verdict.of_confirms (h : o.confirms N) :
    Verdict N tx o t { t with state := some .success } where
  confirmed _ := rfl
  clear hno _ := absurd h hno
  first hc _ := absurd hc (not_conflicted_of_confirms h)
  failed _ hc _ _ := absurd hc (not_conflicted_of_confirms h)
  waits _ hc _ _ := absurd hc (not_conflicted_of_confirms h)

lemma Verdict.of_clear (hno : ¬ o.confirms N) (hclear : ¬ o.conflicted tx) :
    Verdict N tx o t { t with conflictHeight := none } where
  confirmed h := absurd h hno
  clear _ _ := rfl
  first hc _ := absurd hc hclear
  failed _ hc _ _ := absurd hc hclear
  waits _ hc _ _ := absurd hc hclear

lemma Verdict.of_first (h : o.conflicted tx) (hnone : t.conflictHeight = none) :
    Verdict N tx o t { t with conflictHeight := some o.height.toUInt64 } where
  confirmed hc := absurd h (not_conflicted_of_confirms hc)
  clear _ hclear := absurd h hclear
  first _ _ := rfl
  failed _ _ hsome _ := by
    rw [hnone] at hsome
    simp at hsome
  waits _ _ hsome _ := by
    rw [hnone] at hsome
    simp at hsome

/-- The verdict on a conflict that was seen before depends on its height only. -/
lemma Verdict.of_again {h : UInt64} {t' : TradeState} (hc : o.conflicted tx)
    (hsome : t.conflictHeight = some h)
    (hfailed : h.toNat + N ≤ o.height.toNat + 1 → t' = { t with state := some .failed })
    (hwaits : ¬ h.toNat + N ≤ o.height.toNat + 1 → t' = t) : Verdict N tx o t t' where
  confirmed hconf := absurd hc (not_conflicted_of_confirms hconf)
  clear _ hclear := absurd hc hclear
  first _ hnone := by
    rw [hsome] at hnone
    simp at hnone
  failed h' _ hsome' hle := by
    obtain rfl := Option.some.inj (hsome.symm.trans hsome')
    exact hfailed hle
  waits h' _ hsome' hle := by
    obtain rfl := Option.some.inj (hsome.symm.trans hsome')
    exact hwaits hle

/-- A transaction that is pending is neither confirmed nor conflicted. -/
lemma Verdict.of_pending (hst : o.state = .pending) :
    Verdict N tx o t { t with conflictHeight := none } := by
  refine .of_clear ?_ ?_
  · rintro ⟨c, hc, _⟩
    rw [hst] at hc
    cases hc
  · rintro ⟨hunknown, _⟩
    rw [hst] at hunknown
    cases hunknown

/-- One that is confirmed may have too few confirmations. -/
lemma Verdict.of_unconfirmed {c : UInt32} (hst : o.state = .confirmed c)
    (hno : ¬ c.toNat + N ≤ o.height.toNat + 1) :
    Verdict N tx o t { t with conflictHeight := none } := by
  refine .of_clear ?_ ?_
  · rintro ⟨c', hc, hle⟩
    rw [hst] at hc
    obtain rfl := GspState.confirmed.inj hc
    exact hno hle
  · rintro ⟨hunknown, _⟩
    rw [hst] at hunknown
    cases hunknown

/-- One that is unknown is conflicted if an input is missing. -/
lemma Observation.conflicted_iff (hst : o.state = .unknown) :
    o.conflicted tx ↔ (tx.vin.any fun out => (o.utxo out).isNone) = true := by
  rw [conflicted, List.any_eq_true]
  simp [hst]

lemma Verdict.of_unspent (hst : o.state = .unknown)
    (hunspent : (tx.vin.any fun out => (o.utxo out).isNone) = false) :
    Verdict N tx o t { t with conflictHeight := none } := by
  refine .of_clear ?_ fun hc => ?_
  · rintro ⟨c, hc, _⟩
    rw [hst] at hc
    cases hc
  · rw [(Observation.conflicted_iff hst).mp hc] at hunspent
    cases hunspent

end

/-- **One call of `Update` on a pending trade.** -/
theorem updateSeeing_pending (hN : 1 ≤ cfg.confirmations.toInt) (hvalid : o.Valid)
    (hpending : t.getState = .pending) (hours : t.ourPsbt = some ours)
    (hheight : ∀ h, t.conflictHeight = some h → h.toNat < 2 ^ 32) :
    (updateSeeing cfg decode o t).1 = .ok () ∧
      Verdict cfg.confirmations.toInt.toNat (decode ours).tx o t (updateSeeing cfg decode o t).2 := by
  refine updateSeeing_of_wp (Q := fun r t' => r = .ok () ∧
    Verdict cfg.confirmations.toInt.toNat (decode ours).tx o t t') ?_
  simp only [updateTrade, Act.wp_bind, Act.wp_read, Act.afterBind_ok, hpending, updatePending,
    List.nil_append]
  split
  · rename_i hnone
    rw [hours] at hnone
    simp at hnone
  rename_i ours' hours'
  obtain rfl : ours = ours' := Option.some.inj (hours.symm.trans hours')
  simp only [Act.wp_bind, Act.wp_monadLift, wp_rpc, Act.afterBind_ok, Act.afterBind_error]
  refine ⟨?_, fun hsaw => absurd (hsaw _ (by simp; rfl)) (not_saw_failed (by rfl)),
    fun hsaw => absurd (hsaw _ (by simp; rfl)) (not_saw_failed (by rfl))⟩
  intro decoded
  refine ⟨?_, fun hsaw => absurd (hsaw _ (List.mem_append_right _ (List.mem_singleton.mpr rfl)))
      (not_saw_failed (by rfl)),
    fun hsaw => absurd (hsaw _ (List.mem_append_right _ (List.mem_singleton.mpr rfl)))
      (not_saw_failed (by rfl))⟩
  rintro ⟨curHeight, gspState⟩
  have seen : ∀ {tr : Conversation}, (∀ ev ∈ [Ev.returned (.decodepsbt ours) decoded]
      ++ ([Ev.returned (.checktrade decoded.tx.btxid) (curHeight, gspState)] ++ tr),
      o.Saw decode ev) → decoded = decode ours ∧ curHeight = o.height ∧ gspState = o.state ∧
        ∀ ev ∈ tr, o.Saw decode ev := by
    intro tr hsaw
    have hdec : decode ours = decoded :=
      Except.ok.inj (hsaw (Ev.returned (.decodepsbt ours) decoded) (by simp))
    have hcheck : (o.height, o.state) = (curHeight, gspState) :=
      Except.ok.inj (hsaw (Ev.returned (.checktrade decoded.tx.btxid) (curHeight, gspState)) (by simp))
    obtain ⟨hh, hs⟩ := Prod.mk.inj hcheck
    exact ⟨hdec.symm, hh.symm, hs.symm, fun ev hev => hsaw ev (by simp [hev])⟩
  cases gspState with
  | pending =>
      intro hsaw
      obtain ⟨_, _, hst, _⟩ := seen hsaw
      exact ⟨rfl, .of_pending hst.symm⟩
  | confirmed conf =>
      have hconf : conf.toUInt64 + cfg.confirmations.toInt64.toUInt64 ≤ o.height.toUInt64 + 1 ↔
          conf.toNat + cfg.confirmations.toInt.toNat ≤ o.height.toNat + 1 := by
        have hlt : conf.toUInt64.toNat < 2 ^ 32 := conf.toNat_lt
        simpa using height_le_iff hlt hN
      simp only [Act.wp_bind, wp_check, Act.afterBind_ok, Act.afterBind_error, Act.wp_ite,
        Act.wp_write]
      refine ⟨fun _ => ⟨fun hle hsaw => ?_, fun hle hsaw => ?_⟩, fun hle hsaw => ?_⟩
      · obtain ⟨_, rfl, hst, _⟩ := seen hsaw
        exact ⟨trivial, .of_confirms ⟨conf, hst.symm, hconf.mp hle⟩⟩
      · obtain ⟨_, rfl, hst, _⟩ := seen hsaw
        exact ⟨trivial, .of_unconfirmed hst.symm fun hle' => hle (hconf.mpr hle')⟩
      · obtain ⟨_, rfl, hst, _⟩ := seen hsaw
        have hle' := UInt32.le_iff_toNat_le.mp (hvalid conf hst.symm)
        rw [decide_eq_false_iff_not, UInt64.le_iff_toNat_le, UInt32.toNat_toUInt64,
          UInt32.toNat_toUInt64] at hle
        exact absurd hle' hle
  | unknown =>
      simp only [Act.wp_bind, Act.wp_monadLift]
      refine Act.wp_mono (@anyInputSpent_seen decode o _) fun tr r _ hr => ?_
      cases r with
      | error e =>
          intro hsaw
          obtain ⟨_, _, _, hrest⟩ := seen hsaw
          exact absurd (hr hrest) (by simp)
      | ok spent =>
          have hspent := fun hsaw => Except.ok.inj (hr hsaw)
          cases spent with
          | false =>
              intro hsaw
              obtain ⟨rfl, _, hst, hrest⟩ := seen hsaw
              exact ⟨rfl, .of_unspent hst.symm (hspent (by simpa using hrest)).symm⟩
          | true =>
              simp only [Act.afterBind_ok, Bool.not_true, Bool.false_eq_true, if_false]
              split
              · rename_i hnone
                intro hsaw
                obtain ⟨rfl, rfl, hst, hrest⟩ := seen hsaw
                have hc := (Observation.conflicted_iff hst.symm).mpr
                  (hspent (by simpa using hrest)).symm
                exact ⟨rfl, .of_first hc hnone⟩
              · rename_i h hsome
                have hheight := height_le_iff (b := o.height) (hheight h hsome) hN
                simp only [Act.wp_ite, Act.wp_write, Act.wp_pure]
                refine ⟨fun hle hsaw => ?_, fun hle hsaw => ?_⟩
                · obtain ⟨rfl, rfl, hst, hrest⟩ := seen hsaw
                  have hc := (Observation.conflicted_iff hst.symm).mpr
                    (hspent (by simpa using hrest)).symm
                  exact ⟨trivial, .of_again hc hsome (fun _ => rfl)
                    fun hno => absurd (hheight.mp hle) hno⟩
                · obtain ⟨rfl, rfl, hst, hrest⟩ := seen hsaw
                  have hc := (Observation.conflicted_iff hst.symm).mpr
                    (hspent (by simpa using hrest)).symm
                  exact ⟨trivial, .of_again hc hsome
                    (fun hle' => absurd (hheight.mpr hle') hle) fun _ => rfl⟩

/-- A trade that is not pending any more stays as it is. -/
lemma updateSeeing_settled (h : t.getState = .success ∨ t.getState = .failed) :
    (updateSeeing cfg decode o t).1 = .ok () ∧ (updateSeeing cfg decode o t).2 = t := by
  refine updateSeeing_of_wp (Q := fun r t' => r = .ok () ∧ t' = t) ?_
  simp only [updateTrade, Act.wp_bind, Act.wp_read, Act.afterBind_ok]
  rcases h with h | h
  · rw [h]
    exact fun _ => ⟨rfl, rfl⟩
  · rw [h]
    exact fun _ => ⟨rfl, rfl⟩

end

/-! ## The history -/

section

variable (N : ℕ) (tx : Tx) (o : ℕ → Observation)

/-- Observation `t` is conflicted, not the first of its streak, and `N` blocks from its beginning. -/
def DecidesFailed (t : ℕ) : Prop :=
  ∃ s < t, StartsAt (fun i => (o i).conflicted tx) s t ∧
    (o s).height.toNat + N ≤ (o t).height.toNat + 1

/-- No observation before `t` decides. -/
def Undecided (t : ℕ) : Prop := ∀ j < t, ¬ (o j).confirms N ∧ ¬ DecidesFailed N tx o j

/-- The height at which the streak began that the last of the first `k` observations is in. -/
def ConflictHeight (k : ℕ) (h : UInt64) : Prop :=
  ∃ t s, k = t + 1 ∧ StartsAt (fun i => (o i).conflicted tx) s t ∧ h = (o s).height.toUInt64

variable {N tx o}

lemma Undecided.succ {k : ℕ} (h : Undecided N tx o k) (hs : ¬ (o k).confirms N)
    (hf : ¬ DecidesFailed N tx o k) : Undecided N tx o (k + 1) := by
  intro j hj
  rcases Nat.lt_or_ge j k with hlt | hge
  · exact h j hlt
  · rw [show j = k by omega]
    exact ⟨hs, hf⟩

/-- The first observation that decides is one of a kind. -/
lemma Undecided.first {t t' : ℕ} (h : Undecided N tx o t) (h' : Undecided N tx o t')
    (hd : (o t).confirms N ∨ DecidesFailed N tx o t)
    (hd' : (o t').confirms N ∨ DecidesFailed N tx o t') : t = t' := by
  rcases Nat.lt_trichotomy t t' with hlt | heq | hlt
  · exact absurd hd (not_or.mpr (h' t hlt))
  · exact heq
  · exact absurd hd' (not_or.mpr (h t' hlt))

/-! ## The run -/

variable {cfg : Config} {decode : String → Psbt} {t₀ : TradeState} {ours : String}

/-- A trade on which there is no verdict yet. -/
structure Waiting (ours : String) (tx : Tx) (o : ℕ → Observation) (k : ℕ) (t : TradeState) : Prop where
  pending : t.getState = .pending
  ours : t.ourPsbt = some ours
  height : ∀ h, t.conflictHeight = some h ↔ ConflictHeight tx o k h

/-- **One observation without a verdict.** -/
lemma Waiting.step {k : ℕ} {t t' : TradeState} (hw : Waiting ours tx o k t)
    (hv : Verdict N tx (o k) t t') (hs : ¬ (o k).confirms N) (hf : ¬ DecidesFailed N tx o k) :
    Waiting ours tx o (k + 1) t' := by
  by_cases hc : (o k).conflicted tx
  · cases hh : t.conflictHeight with
    | none =>
        -- the streak begins here
        have hfirst : ∀ i, i + 1 = k → ¬ (o i).conflicted tx := by
          intro i hi hci
          obtain ⟨s, hst⟩ := exists_startsAt (P := fun i => (o i).conflicted tx) hci
          have := (hw.height _).mpr ⟨i, s, hi.symm, hst, rfl⟩
          rw [hh] at this
          simp at this
        have hstart := startsAt_self (P := fun i => (o i).conflicted tx) hc hfirst
        rw [hv.first hc hh]
        refine ⟨hw.pending, hw.ours, ?_⟩
        intro h
        constructor
        · intro heq
          exact ⟨k, k, rfl, hstart, (Option.some.inj heq).symm⟩
        · rintro ⟨u, s, hu, hst, rfl⟩
          obtain rfl : k = u := by omega
          rw [hstart.unique hst]
    | some h =>
        -- the streak goes on
        obtain ⟨u, s, hu, hst, hhs⟩ := (hw.height h).mp hh
        have hst : StartsAt (fun i => (o i).conflicted tx) s k := by
          rw [hu]
          exact hst.succ (by rw [← hu]; exact hc)
        have hlt : s < k := by
          have := hst.le
          have := (‹StartsAt _ s u› : StartsAt _ s u).le
          omega
        have hle : ¬ h.toNat + N ≤ (o k).height.toNat + 1 := by
          rw [hhs, UInt32.toNat_toUInt64]
          exact fun hle => hf ⟨s, hlt, hst, hle⟩
        rw [hv.waits h hc hh hle]
        refine ⟨hw.pending, hw.ours, ?_⟩
        intro h'
        rw [hh]
        constructor
        · intro heq
          exact ⟨k, s, rfl, hst, (Option.some.inj heq).symm.trans hhs⟩
        · rintro ⟨u', s', hu', hst', rfl⟩
          obtain rfl : k = u' := by omega
          rw [hst'.unique hst, hhs]
  · rw [hv.clear hs hc]
    refine ⟨hw.pending, hw.ours, ?_⟩
    intro h
    constructor
    · intro heq
      simp at heq
    · rintro ⟨u, s, hu, hst, _⟩
      obtain rfl : k = u := by omega
      exact absurd hst.holds hc

/-- Where the trade is after `k` observations. -/
inductive Stands (N : ℕ) (ours : String) (tx : Tx) (o : ℕ → Observation) (k : ℕ) (t : TradeState) :
    Prop
  | waiting (h : Waiting ours tx o k t) (hopen : Undecided N tx o k)
  | success (u : ℕ) (hu : u < k) (h : t.getState = .success) (hs : (o u).confirms N)
      (hopen : Undecided N tx o u)
  | failed (u : ℕ) (hu : u < k) (h : t.getState = .failed) (hf : DecidesFailed N tx o u)
      (hopen : Undecided N tx o u)

/-- **The next observation.** -/
lemma Stands.step {k : ℕ} {t : TradeState} (hN : 1 ≤ cfg.confirmations.toInt)
    (hvalid : (o k).Valid)
    (h : Stands cfg.confirmations.toInt.toNat ours (decode ours).tx o k t) :
    (updateSeeing cfg decode (o k) t).1 = .ok () ∧
      Stands cfg.confirmations.toInt.toNat ours (decode ours).tx o (k + 1)
        (updateSeeing cfg decode (o k) t).2 := by
  cases h with
  | waiting hw hopen =>
      have hheight : ∀ h, t.conflictHeight = some h → h.toNat < 2 ^ 32 := by
        intro h hh
        obtain ⟨_, s, _, _, rfl⟩ := (hw.height h).mp hh
        rw [UInt32.toNat_toUInt64]
        exact (o s).height.toNat_lt
      obtain ⟨hok, hv⟩ :=
        @updateSeeing_pending cfg decode (o k) t ours hN hvalid hw.pending hw.ours hheight
      refine ⟨hok, ?_⟩
      by_cases hs : (o k).confirms cfg.confirmations.toInt.toNat
      · rw [hv.confirmed hs]
        exact .success k (Nat.lt_succ_self k) rfl hs hopen
      · by_cases hf : DecidesFailed cfg.confirmations.toInt.toNat (decode ours).tx o k
        · obtain ⟨s, hlt, hst, hle⟩ := hf
          have hprev : StartsAt (fun i => (o i).conflicted (decode ours).tx) s (k - 1) :=
            ⟨by omega, fun i hi hi' => hst.all i hi (by omega), hst.first⟩
          have hh : t.conflictHeight = some (o s).height.toUInt64 :=
            (hw.height _).mpr ⟨k - 1, s, by omega, hprev, rfl⟩
          rw [hv.failed _ hst.holds hh (by rwa [UInt32.toNat_toUInt64])]
          exact .failed k (Nat.lt_succ_self k) rfl ⟨s, hlt, hst, hle⟩ hopen
        · exact .waiting (hw.step hv hs hf) (hopen.succ hs hf)
  | success u hu h hs hopen =>
      obtain ⟨hok, hsame⟩ := @updateSeeing_settled cfg decode (o k) t (Or.inl h)
      rw [hsame]
      exact ⟨hok, .success u (by omega) h hs hopen⟩
  | failed u hu h hf hopen =>
      obtain ⟨hok, hsame⟩ := @updateSeeing_settled cfg decode (o k) t (Or.inr h)
      rw [hsame]
      exact ⟨hok, .failed u (by omega) h hf hopen⟩

/-- **The run.** -/
lemma stands_after (hN : 1 ≤ cfg.confirmations.toInt) (hpending : t₀.getState = .pending)
    (hours : t₀.ourPsbt = some ours) (hnone : t₀.conflictHeight = none)
    (hvalid : ∀ k, (o k).Valid) (k : ℕ) :
    Stands cfg.confirmations.toInt.toNat ours (decode ours).tx o k
      (tradeAfter cfg decode o t₀ k) := by
  induction k with
  | zero =>
      refine .waiting ⟨hpending, hours, ?_⟩ (by intro j hj; omega)
      intro h
      constructor
      · intro heq
        rw [tradeAfter, hnone] at heq
        simp at heq
      · rintro ⟨t, _, ht, _⟩
        omega
  | succ k ih => exact (ih.step hN (hvalid k)).2

/-- **The verdict on a pending trade.**  Whatever the observations are, `Update` returns, and after `k`
of them the trade is `SUCCESS` if the first that decides is one with enough confirmations, `FAILED`
if it is one that is conflicted for long enough, and still `PENDING` if none decides.  As long as it
is, `conflict_height` is set exactly if the last observation was conflicted, to the height at which
its streak began. -/
theorem pending_verdict (hN : 1 ≤ cfg.confirmations.toInt) (hpending : t₀.getState = .pending)
    (hours : t₀.ourPsbt = some ours) (hnone : t₀.conflictHeight = none)
    (hvalid : ∀ k, (o k).Valid) (k : ℕ) :
    (updateSeeing cfg decode (o k) (tradeAfter cfg decode o t₀ k)).1 = .ok () ∧
    ((tradeAfter cfg decode o t₀ k).getState = .success ↔
      ∃ t < k, (o t).confirms cfg.confirmations.toInt.toNat ∧
        Undecided cfg.confirmations.toInt.toNat (decode ours).tx o t) ∧
    ((tradeAfter cfg decode o t₀ k).getState = .failed ↔
      ∃ t < k, DecidesFailed cfg.confirmations.toInt.toNat (decode ours).tx o t ∧
        Undecided cfg.confirmations.toInt.toNat (decode ours).tx o t) ∧
    ((tradeAfter cfg decode o t₀ k).getState = .pending ↔
      Undecided cfg.confirmations.toInt.toNat (decode ours).tx o k) ∧
    (Undecided cfg.confirmations.toInt.toNat (decode ours).tx o k →
      ∀ h, (tradeAfter cfg decode o t₀ k).conflictHeight = some h ↔
        ConflictHeight (decode ours).tx o k h) := by
  have hst := @stands_after o cfg decode t₀ ours hN hpending hours hnone hvalid k
  refine ⟨(hst.step hN (hvalid k)).1, ?_⟩
  generalize tradeAfter cfg decode o t₀ k = t at hst
  -- an observation that decides, and none before it, is not compatible with another verdict
  have closed : ∀ {u}, u < k → (o u).confirms cfg.confirmations.toInt.toNat ∨
      DecidesFailed cfg.confirmations.toInt.toNat (decode ours).tx o u →
      ¬ Undecided cfg.confirmations.toInt.toNat (decode ours).tx o k :=
    fun hu hd hopen => absurd hd (not_or.mpr (hopen _ hu))
  have apart : ∀ {u u'}, (o u).confirms cfg.confirmations.toInt.toNat →
      Undecided cfg.confirmations.toInt.toNat (decode ours).tx o u →
      DecidesFailed cfg.confirmations.toInt.toNat (decode ours).tx o u' →
      Undecided cfg.confirmations.toInt.toNat (decode ours).tx o u' → False := by
    intro u u' hs hopen hf hopen'
    obtain rfl := hopen.first hopen' (Or.inl hs) (Or.inr hf)
    obtain ⟨s, _, hstart, _⟩ := hf
    exact not_conflicted_of_confirms hs hstart.holds
  cases hst with
  | waiting hw hopen =>
      refine ⟨?_, ?_, ?_, fun _ => hw.height⟩
      · rw [hw.pending]
        exact ⟨by simp, fun ⟨u, hu, hs, _⟩ => absurd hopen (closed hu (Or.inl hs))⟩
      · rw [hw.pending]
        exact ⟨by simp, fun ⟨u, hu, hf, _⟩ => absurd hopen (closed hu (Or.inr hf))⟩
      · exact ⟨fun _ => hopen, fun _ => hw.pending⟩
  | success u hu h hs hopen =>
      refine ⟨⟨fun _ => ⟨u, hu, hs, hopen⟩, fun _ => h⟩, ?_, ?_, ?_⟩
      · rw [h]
        exact ⟨by simp, fun ⟨u', _, hf, hopen'⟩ => (apart hs hopen hf hopen').elim⟩
      · rw [h]
        exact ⟨by simp, fun hopen' => absurd hopen' (closed hu (Or.inl hs))⟩
      · exact fun hopen' => absurd hopen' (closed hu (Or.inl hs))
  | failed u hu h hf hopen =>
      refine ⟨?_, ⟨fun _ => ⟨u, hu, hf, hopen⟩, fun _ => h⟩, ?_, ?_⟩
      · rw [h]
        exact ⟨by simp, fun ⟨u', _, hs, hopen'⟩ => (apart hs hopen' hf hopen).elim⟩
      · rw [h]
        exact ⟨by simp, fun hopen' => absurd hopen' (closed hu (Or.inr hf))⟩
      · exact fun hopen' => absurd hopen' (closed hu (Or.inr hf))

end

/-- A transaction that was confirmed at height 100, ten blocks more, and then no block any more. -/
def confirming (k : ℕ) : Observation where
  height := UInt32.ofNat (100 + min k 10)
  state := .confirmed 100
  utxo _ := none

/-- Six confirmations are a success. -/
theorem pending_verdict_confirmed : (tradeAfter sampleConfig (fun _ => ⟨⟨"tx", [], []⟩, []⟩) confirming
    { state := some .pending, ourPsbt := some "psbt" } 6).getState = .success := by
  have hheight : ∀ k, (confirming k).height.toNat = 100 + min k 10 := by
    intro k
    show (UInt32.ofNat (100 + min k 10)).toNat = _
    rw [UInt32.toNat_ofNat']
    omega
  have hvalid : ∀ k, (confirming k).Valid := by
    intro k c hc
    rw [← GspState.confirmed.inj hc, UInt32.le_iff_toNat_le, hheight]
    simp
  have hconfirms : ∀ k, (confirming k).confirms 6 ↔ 5 ≤ min k 10 := by
    intro k
    have hiff : (confirming k).confirms 6 ↔ 100 + 6 ≤ (confirming k).height.toNat + 1 := by
      constructor
      · rintro ⟨c, hc, hle⟩
        rwa [← GspState.confirmed.inj hc] at hle
      · intro hle
        exact ⟨100, rfl, hle⟩
    rw [hiff, hheight]
    omega
  refine (pending_verdict (by decide) rfl rfl rfl hvalid 6).2.1.mpr ⟨5, by omega, ?_, ?_⟩
  · exact (hconfirms 5).mpr (by omega)
  · intro j hj
    refine ⟨fun h => ?_, ?_⟩
    · have := (hconfirms j).mp h
      omega
    · rintro ⟨s, _, hst, _⟩
      exact absurd hst.holds.1 (by simp [confirming])

end Democrit
