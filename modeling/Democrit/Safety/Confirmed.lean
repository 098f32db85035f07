import Democrit.Safety.Evolution
import Democrit.Safety.Reorgs
import Democrit.Safety.Seller
import Democrit.Safety.Verdict
import Democrit.Spec.Core
import Democrit.Spec.Asking

/-!
# Verdicts rest on the chain

The daemon and the GSP, put together.  The GSP goes on while the daemon works, blocks may be attached and
detached at any time, and the only thing that connects the two is that `checktrade` is answered by the one
and read by the other.

A trade that was archived as a success **had the configured number of confirmations** at some time, and
one that was archived as failed was missing on the chain at two times, with that many blocks between
the two (`verdicts_rest_on_chain`).  Neither has to be so any more: a reorg can come later.  No `CHECK` on an answer of
the GSP ever fails.

What carries this over a whole run is `Watched`: the conflict height of a pending trade is the height of
a chain that did not have the trade.
-/

namespace Democrit

open Interaction

variable {W : Type} {cfg : Config} {account : String} {decode : String → Psbt}
  {hist : W → List NodeEvent} {E : Env Call Answer W} {w w' : W}

/-! ## The GSP behind the daemon -/

/-- **`checktrade` is answered by the GSP.**  `hist` is what has happened to the GSP; anything may
happen to it at any time, also in the course of the call, as long as its chains are proper.  The call may
fail on the way. -/
structure AsksGsp (hist : W → List NodeEvent) (E : Env Call Answer W) : Prop where
  consistent : ∀ w, Consistent (hist w)
  grows : ∀ w ev w', E w ev w' → hist w <+: hist w'
  served : ∀ w btxid (r : Answer (.rpc (.checktrade btxid))) w', E w ⟨.rpc (.checktrade btxid), r⟩ w' →
    r = (.error .exception : Except RpcError (UInt32 × GspState)) ∨
    ∃ before between first second json, hist w <+: before ∧ before ++ between <+: hist w' ∧
      GspNode.run before = .ok first ∧ GspNode.run (before ++ between) = .ok second ∧
      Gsp.checktrade first.gsp second.gsp btxid = .ok json ∧ r = readChecktrade json

/-- **Every answer is about the chain** at some instant of the call, and the daemon can read it. -/
lemma AsksGsp.answer (h : AsksGsp hist E) {btxid : String} {r : Answer (.rpc (.checktrade btxid))}
    (he : E w ⟨.rpc (.checktrade btxid), r⟩ w') :
    r = (.error .exception : Except RpcError (UInt32 × GspState)) ∨
    ∃ seen height state, hist w <+: seen ∧ seen <+: hist w' ∧
      r = (.ok (height, state) : Except RpcError (UInt32 × GspState)) ∧
      Sees btxid (currentChain seen) height state := by
  rcases h.served _ _ _ _ he with hr | ⟨before, between, first, second, json, hpast, hpresent, hfirst,
    hsecond, hjson, hr⟩
  · exact Or.inl hr
  · obtain ⟨data, hdata, hread, hsees, _⟩ := @checktrade_sees _ _
      ((h.consistent w').earlier hpresent) first second hsecond btxid
    have hjson' : Gsp.checktrade first.gsp second.gsp btxid = .ok (Gsp.tradeJson data) := by
      rw [Gsp.checktrade, hdata]
      rfl
    obtain rfl := Except.ok.inj (hjson'.symm.trans hjson)
    exact Or.inr ⟨before ++ between, _, _, hpast.trans (List.prefix_append _ _), hpresent,
      hr.trans hread, hsees⟩

lemma AsksGsp.path (h : AsksGsp hist E) {tr : Conversation} (hp : E.Path w tr w') :
    hist w <+: hist w' :=
  Env.rel_of_path (P := fun _ => True) (T := fun w w' => hist w <+: hist w')
    (fun _ => List.prefix_refl _) (fun _ _ _ => List.IsPrefix.trans)
    (fun w ev w' he _ => h.grows w ev w' he) hp fun _ _ => trivial

/-! ## One update -/

/-- The trade has `N` confirmations. -/
def Confirmed (N : ℕ) (btxid : String) (chain : List BlockData) : Prop :=
  ∃ c, OnChain btxid c chain ∧ c.toNat + N ≤ (chainHeight chain).toNat + 1

/-- The trade is not on the chain. -/
def Missing (btxid : String) (chain : List BlockData) : Prop := ∀ c, ¬ OnChain btxid c chain

/-- A trade that is active.  If it has a conflict height, then the chain was that high at some time, and
the trade's transaction was not on it. -/
structure Watched (decode : String → Psbt) (past : List NodeEvent) (t : TradeState) : Prop where
  active : t.getState = .initiated ∨ t.getState = .pending
  fresh : t.getState = .initiated → t.conflictHeight = none
  conflict : ∀ h, t.conflictHeight = some h → ∃ ours seen, t.ourPsbt = some ours ∧ seen <+: past ∧
    h = (chainHeight (currentChain seen)).toUInt64 ∧ Missing (decode ours).tx.btxid (currentChain seen)

/-- **What a verdict rests on**, if it falls between `past` and `present`: that the transaction has its
confirmations at some time in between, or that it is not on the chain at some time in between, and that
it was not at some earlier time, either, with the chain higher by now. -/
structure RestsOn (decode : String → Psbt) (N : ℕ) (past present : List NodeEvent) (t : TradeState) :
    Prop where
  success : t.getState = .success → ∃ ours seen, t.ourPsbt = some ours ∧ past <+: seen ∧
    seen <+: present ∧ Confirmed N (decode ours).tx.btxid (currentChain seen)
  failed : t.getState = .failed → ∃ ours first last, t.ourPsbt = some ours ∧ first <+: last ∧
    past <+: last ∧ last <+: present ∧ Missing (decode ours).tx.btxid (currentChain first) ∧
    Missing (decode ours).tx.btxid (currentChain last) ∧
    (chainHeight (currentChain first)).toNat + N ≤ (chainHeight (currentChain last)).toNat + 1

section

variable {past present : List NodeEvent} {N : ℕ} {t t' : TradeState} {u : Unit}

lemma Watched.later (h : Watched decode past t) (hp : past <+: present) : Watched decode present t := by
  refine ⟨h.active, h.fresh, fun c hc => ?_⟩
  obtain ⟨ours, seen, hours, hseen, hheight, hmissing⟩ := h.conflict c hc
  exact ⟨ours, seen, hours, hseen.trans hp, hheight, hmissing⟩

lemma RestsOn.widen {past' present' : List NodeEvent} (h : RestsOn decode N past present t)
    (hpast : past' <+: past) (hpresent : present <+: present') :
    RestsOn decode N past' present' t := by
  constructor
  · intro hs
    obtain ⟨ours, seen, hours, hp, hq, hconf⟩ := h.success hs
    exact ⟨ours, seen, hours, hpast.trans hp, hq.trans hpresent, hconf⟩
  · intro hf
    obtain ⟨ours, first, last, hours, hfirst, hp, hq, hrest⟩ := h.failed hf
    exact ⟨ours, first, last, hours, hfirst, hpast.trans hp, hq.trans hpresent, hrest⟩

/-- A verdict that has not fallen rests on nothing. -/
lemma RestsOn.of_active (h : t.getState ≠ .success) (h' : t.getState ≠ .failed) :
    RestsOn decode N past present t :=
  ⟨fun hs => absurd hs h, fun hf => absurd hf h'⟩

/-- What an update of the trade may come to. -/
def Judges (decode : String → Psbt) (N : ℕ) (past present : List NodeEvent) (r : Except Fail Unit)
    (t' : TradeState) : Prop :=
  r ≠ .error (.check .confirmedHeight) ∧
  (r = .ok () → (isFinalised t' = false → Watched decode present t') ∧
    RestsOn decode N past present t')

lemma anyInputSpent_fails :
    ∀ (outs : List OutPoint) (w : W), (anyInputSpent outs).wpIn E w u fun _ _ r _ =>
      r ≠ .error (.check .confirmedHeight)
  | [], w => by simp [anyInputSpent]
  | out :: rest, w => by
      refine (Act.wpIn_bind _ _).mpr ((wpIn_rpc (.gettxout out)).mpr ⟨?_, ?_, ?_⟩)
      · intro (r : Option Uint256) w' _
        cases r with
        | none => exact (Act.wpIn_pure true).mpr (by simp)
        | some b => exact Act.wpIn_mono (anyInputSpent_fails rest w') fun _ _ _ _ h => h
      · intro w' _
        simp
      · intro w' _
        simp

/-- The trade stays pending. -/
lemma judges_pending {c : Option UInt64} (hpending : t.getState = .pending)
    (hc : ∀ h, c = some h → ∃ ours seen, t.ourPsbt = some ours ∧ seen <+: present ∧
      h = (chainHeight (currentChain seen)).toUInt64 ∧
      Missing (decode ours).tx.btxid (currentChain seen)) :
    Judges decode N past present (.ok ()) { t with conflictHeight := c } := by
  refine ⟨by simp, fun _ => ⟨fun _ => ⟨Or.inr hpending, fun hinit => ?_, hc⟩, .of_active ?_ ?_⟩⟩
  · rw [show TradeState.getState { t with conflictHeight := c } = t.getState from rfl, hpending] at hinit
    simp at hinit
  · rw [show TradeState.getState { t with conflictHeight := c } = t.getState from rfl, hpending]
    simp
  · rw [show TradeState.getState { t with conflictHeight := c } = t.getState from rfl, hpending]
    simp

lemma judges_success {ours : String} {seen : List NodeEvent} (hours : t.ourPsbt = some ours)
    (hpast : past <+: seen) (hpresent : seen <+: present)
    (hconf : Confirmed N (decode ours).tx.btxid (currentChain seen)) :
    Judges decode N past present (.ok ()) { t with state := some .success } := by
  refine ⟨by simp, fun _ => ⟨by simp [isFinalised], fun _ => ?_, by simp [TradeState.getState]⟩⟩
  exact ⟨ours, seen, hours, hpast, hpresent, hconf⟩

lemma judges_failed {ours : String} {first last : List NodeEvent} (hours : t.ourPsbt = some ours)
    (hfirst : first <+: last) (hpast : past <+: last) (hpresent : last <+: present)
    (hmissing : Missing (decode ours).tx.btxid (currentChain first))
    (hmissing' : Missing (decode ours).tx.btxid (currentChain last))
    (hheight : (chainHeight (currentChain first)).toNat + N ≤ (chainHeight (currentChain last)).toNat + 1) :
    Judges decode N past present (.ok ()) { t with state := some .failed } := by
  refine ⟨by simp, fun _ => ⟨by simp [isFinalised], by simp [TradeState.getState], fun _ => ?_⟩⟩
  exact ⟨ours, first, last, hours, hfirst, hpast, hpresent, hmissing, hmissing', hheight⟩

/-- **One look at a pending trade.** -/
lemma updatePending_judges (hE : AsksGsp hist E) (hdec : Decodes decode E)
    (hN : 1 ≤ cfg.confirmations.toInt) (hw : Watched decode (hist w) t)
    (hpending : t.getState = .pending) :
    (updatePending cfg).wpIn E w t fun w' _ r t' =>
      Judges decode cfg.confirmations.toInt.toNat (hist w) (hist w') r t' := by
  simp only [updatePending, Act.wpIn_bind, Act.wpIn_read, Act.afterBindIn_ok]
  cases hours : t.ourPsbt with
  | none => simp [Judges]
  | some ours =>
      refine (Act.wpIn_bind _ _).mpr ((Act.wpIn_monadLift _).mpr ((wpIn_rpc (.decodepsbt ours)).mpr
        ⟨?_, fun _ _ => by simp [Judges], fun _ _ => by simp [Judges]⟩))
      intro (d : Psbt) w₁ h₁
      obtain rfl := hdec _ _ _ _ h₁
      refine (Act.wpIn_bind _ _).mpr ((Act.wpIn_monadLift _).mpr ((wpIn_rpc (.checktrade _)).mpr
        ⟨?_, fun _ _ => by simp [Judges], fun _ _ => by simp [Judges]⟩))
      rintro ⟨curHeight, gspState⟩ w₂ h₂
      rcases hE.answer h₂ with hr | ⟨seen, height, state, hpast, hpresent, hr, hsees⟩
      · simp at hr
      obtain ⟨rfl, rfl⟩ := Prod.mk.inj (Except.ok.inj hr)
      have hpast' : hist w <+: seen := (hE.grows _ _ _ h₁).trans hpast
      have hless : ∀ {c : UInt32}, c.toUInt64.toNat < 2 ^ 32 := by
        intro c
        rw [UInt32.toNat_toUInt64]
        exact c.toNat_lt
      rw [← hours]
      cases hstate : gspState with
      | confirmed c =>
          have hvalid : decide (c.toUInt64 ≤ curHeight.toUInt64) = true := by
            rw [decide_eq_true_eq, UInt64.le_iff_toNat_le, UInt32.toNat_toUInt64, UInt32.toNat_toUInt64]
            exact UInt32.le_iff_toNat_le.mp (hsees.valid c hstate)
          refine (Act.wpIn_bind _ _).mpr ((wpIn_check _ _).mpr
            ⟨fun _ => ?_, fun hno => absurd (hvalid.symm.trans hno) (by simp)⟩)
          refine (Act.afterBindIn_ok _ _ _ _).mpr ?_
          have hiff := height_le_iff (b := curHeight) (@hless c) hN
          by_cases hdeep : c.toUInt64 + cfg.confirmations.toInt64.toUInt64 ≤ curHeight.toUInt64 + 1
          · rw [if_pos hdeep]
            rw [hsees.height, UInt32.toNat_toUInt64] at hiff
            exact (Act.wpIn_write _).mpr (judges_success hours hpast' hpresent
              ⟨c, (hsees.confirmed c).mp hstate, hiff.mp (by rwa [← hsees.height])⟩)
          · rw [if_neg hdeep]
            exact (Act.wpIn_write _).mpr (judges_pending hpending (by simp))
      | pending => exact (Act.wpIn_write _).mpr (judges_pending hpending (by simp))
      | unknown =>
          have hmissing : Missing (decode ours).tx.btxid (currentChain seen) := by
            intro c hon
            have := (hsees.confirmed c).mpr hon
            rw [hstate] at this
            simp at this
          refine (Act.wpIn_bind _ _).mpr ((Act.wpIn_monadLift _).mpr
            (Act.wpIn_mono (Act.wpIn_path (anyInputSpent_fails _ w₂)) ?_))
          rintro w₃ tr r _ ⟨hfails, hp⟩
          have hlate : seen <+: hist w₃ := hpresent.trans (hE.path hp)
          have hseen : curHeight.toUInt64 = (chainHeight (currentChain seen)).toUInt64 := by
            rw [hsees.height]
          cases r with
          | error e => exact ⟨by simpa using hfails, by simp⟩
          | ok conflicted =>
              cases conflicted with
              | false => exact (Act.wpIn_write _).mpr (judges_pending hpending (by simp))
              | true =>
                  refine (Act.afterBindIn_ok _ _ _ _).mpr ?_
                  simp only [Bool.not_true, Bool.false_eq_true, if_false]
                  cases hc : t.conflictHeight with
                  | none =>
                      refine (Act.wpIn_write _).mpr (judges_pending hpending fun h hh => ?_)
                      exact ⟨ours, seen, hours, hlate, (Option.some.inj hh).symm.trans hseen, hmissing⟩
                  | some h =>
                      obtain ⟨ours', first, hours', hfirst, rfl, hmissing'⟩ := hw.conflict h hc
                      obtain rfl : ours = ours' := Option.some.inj (hours.symm.trans hours')
                      have hiff := height_le_iff (b := curHeight)
                        (@hless (chainHeight (currentChain first))) hN
                      rw [UInt32.toNat_toUInt64] at hiff
                      dsimp only
                      split
                      · rename_i hle
                        rw [← hc]
                        exact (Act.wpIn_write _).mpr (judges_failed hours (hfirst.trans hpast') hpast' hlate hmissing'
                          hmissing (by rw [← hsees.height]; exact hiff.mp hle))
                      · refine (Act.wpIn_pure _).mpr ?_
                        exact judges_pending hpending (hw.later (hpast'.trans hlate)).conflict

/-- **One update.** -/
lemma updateTrade_judges (hE : AsksGsp hist E) (hdec : Decodes decode E)
    (hN : 1 ≤ cfg.confirmations.toInt) (hw : Watched decode (hist w) t) :
    (updateTrade cfg).wpIn E w t fun w' _ r t' =>
      Judges decode cfg.confirmations.toInt.toNat (hist w) (hist w') r t' := by
  simp only [updateTrade, Act.wpIn_bind, Act.wpIn_read, Act.afterBindIn_ok]
  rcases hw.active with hst | hst
  · rw [hst]
    simp only [Act.wpIn_bind, wpIn_getCurrentTime, Act.afterBindIn_ok]
    intro now w₁ h₁
    have hsame : Judges decode cfg.confirmations.toInt.toNat (hist w) (hist w₁) (.ok ()) t :=
      ⟨by simp, fun _ => ⟨fun _ => hw.later (hE.grows _ _ _ h₁), .of_active (by simp [hst]) (by simp [hst])⟩⟩
    split
    · refine (Act.wpIn_write _).mpr ⟨by simp, fun _ => ⟨by simp [isFinalised], .of_active ?_ ?_⟩⟩
      · simp [TradeState.getState]
      · simp [TradeState.getState]
    · exact (Act.wpIn_pure _).mpr hsame
  · rw [hst]
    exact updatePending_judges hE hdec hN hw hst

/-! ## The section -/

/-- The trades after their updates: the active ones are still watched, and every verdict rests on the
chain. -/
lemma Updates.judges (hE : AsksGsp hist E) (hdec : Decodes decode E)
    (hN : 1 ≤ cfg.confirmations.toInt) {before now : List TradeState} {tr : Conversation}
    (h : Updates cfg before tr now) : ∀ {w : W}, E.Path w tr w' →
      (∀ t ∈ before, Watched decode (hist w) t) →
      (∀ t ∈ now, isFinalised t = false → Watched decode (hist w') t) ∧
      ∀ t ∈ now, RestsOn decode cfg.confirmations.toInt.toNat (hist w) (hist w') t := by
  induction h with
  | nil => simp
  | @cons t t' rest rest' tr tr' hx h ih =>
      intro w hp hwatched
      obtain ⟨w₁, hp₁, hp₂⟩ := Env.path_append.mp hp
      obtain ⟨ht, hrest⟩ := List.forall_mem_cons.mp hwatched
      have hjudges := Act.wpIn_iff.mp (updateTrade_judges hE hdec hN ht) _ _ _ _ hx hp₁
      obtain ⟨hstill, hrests⟩ := hjudges.2 rfl
      obtain ⟨hstill', hrests'⟩ := ih hp₂ fun t ht => (hrest t ht).later (hE.path hp₁)
      refine ⟨List.forall_mem_cons.mpr ⟨fun hf => (hstill hf).later (hE.path hp₂), hstill'⟩,
        List.forall_mem_cons.mpr ⟨?_, fun t ht => ?_⟩⟩
      · exact hrests.widen (List.prefix_refl _) (hE.path hp₂)
      · exact (hrests' t ht).widen (hE.path hp₁) (List.prefix_refl _)

/-- What the section of `UpdateAndArchiveTrades` comes to. -/
structure SectionJudges (decode : String → Psbt) (N : ℕ) (past present : List NodeEvent) (s : State)
    (r : Except Fail Effect) (s' : State) : Prop where
  confirmed : r ≠ .error (.check .confirmedHeight)
  watched : ∀ t ∈ s'.trades, Watched decode present t
  rests : ∀ eff x t, r = .ok eff → x ∈ eff.next → x.subject = some t →
    RestsOn decode N past present t
  archived : ∀ p ∈ s'.tradeArchive, p ∈ s.tradeArchive ∨
    ∃ t, p = getPublicInfo s.account t ∧ RestsOn decode N past present t

/-- A blank trade has nothing to be watched for. -/
lemma watched_blank : Watched decode past {} := ⟨Or.inl rfl, fun _ => rfl, by simp⟩

lemma updateTrades_judges (hE : AsksGsp hist E) (hdec : Decodes decode E)
    (hN : 1 ≤ cfg.confirmations.toInt) {s : State}
    (hw : ∀ t ∈ s.trades, Watched decode (hist w) t) :
    (exec cfg .updateTrades).wpIn E w s fun w' _ r s' =>
      SectionJudges decode cfg.confirmations.toInt.toNat (hist w) (hist w') s r s' := by
  rw [exec, Act.wpIn_bind]
  refine Act.wp_mono (updateTrades_ends s) fun tr r s' h w' hp => ?_
  generalize htrades : s.trades = todo at h hw
  cases h with
  | @through _ now h =>
      obtain ⟨hstill, hrests⟩ := h.judges hE hdec hN hp hw
      refine (Act.wpIn_pure _).mpr ⟨by simp, fun t ht => ?_, fun eff x t heff hx hsub => ?_,
        fun p hp => (List.mem_append.mp hp).imp_right fun hp => ?_⟩
      · obtain ⟨hmem, hactive⟩ := List.mem_filter.mp ht
        exact hstill t hmem (by simpa using hactive)
      · obtain rfl := Except.ok.inj heff
        obtain ⟨t', ht', rfl⟩ := List.mem_map.mp hx
        obtain rfl := Option.some.inj hsub
        exact hrests _ (List.mem_filter.mp ht').1
      · obtain ⟨t, ht, rfl⟩ := List.mem_map.mp hp
        exact ⟨t, rfl, hrests t (List.mem_filter.mp ht).1⟩
  | @fails before now tr₁ t after tr₂ e htodo h hx =>
      obtain ⟨w₁, hp₁, hp₂⟩ := Env.path_append.mp hp
      subst htodo
      have ht : Watched decode (hist w₁) t := (hw t (by simp)).later (hE.path hp₁)
      have hjudges := Act.wpIn_iff.mp (updateTrade_judges hE hdec hN ht) _ _ _ _ hx hp₂
      obtain ⟨_, hrests⟩ := h.judges hE hdec hN hp₁ fun t ht => hw t (List.mem_append_left _ ht)
      refine ⟨by simpa using hjudges.1, fun t' ht' => ?_, by simp,
        fun p hp => (List.mem_append.mp hp).imp_right fun hp => ?_⟩
      · rcases List.mem_append.mp ht' with ht' | ht'
        · rw [List.nil_append] at ht'
          rw [List.eq_of_mem_replicate ht']
          exact watched_blank
        · exact (hw t' (List.mem_append_right _ ht')).later (hE.path hp)
      · obtain ⟨t', ht', rfl⟩ := List.mem_map.mp hp
        exact ⟨t', rfl, (hrests t' (List.mem_filter.mp ht').1).widen (List.prefix_refl _)
          (hE.path hp₂)⟩

end

/-! ## Runs -/

lemma HasReply.Outcome.stays {t t' : TradeState} {tr : Conversation}
    {r : Except Fail (Option ProcessingMessage)} (h : HasReply.Outcome cfg account t tr r t') :
    (t'.getState = t.getState ∨ t'.getState = .pending) ∧ t'.conflictHeight = t.conflictHeight := by
  cases h <;> first | exact ⟨Or.inl rfl, rfl⟩ | exact ⟨Or.inr rfl, rfl⟩

/-- What a message or a reply makes of a trade that is watched. -/
lemma Watched.evolves {past : List NodeEvent} {t t' : TradeState} (h : Watched decode past t)
    (hev : Evolves t t') (hst : t'.getState = t.getState ∨ t'.getState = .pending)
    (hc : t'.conflictHeight = t.conflictHeight) : Watched decode past t' := by
  refine ⟨?_, fun hinit => ?_, fun c hconflict => ?_⟩
  · rcases hst with hst | hst
    · rw [hst]
      exact h.active
    · exact Or.inr hst
  · rw [hc]
    refine h.fresh ?_
    rcases hst with hst | hst
    · exact hst.symm.trans hinit
    · simp [hst] at hinit
  · obtain ⟨ours, seen, hours, hrest⟩ := h.conflict c (hc.symm.trans hconflict)
    exact ⟨ours, seen, hev.ourPsbt _ hours, hrest⟩

lemma watched_new {past : List NodeEvent} {o : Order} {units : Amount} {counterparty : String}
    {now : Int64} {serial : ℕ} : Watched decode past (newTrade o units counterparty now serial) :=
  ⟨Or.inl rfl, fun _ => rfl, by simp [newTrade]⟩

lemma watched_reply {past : List NodeEvent} {t t' : TradeState} {tr : Conversation}
    {r : Except Fail (Option ProcessingMessage)} (h : Watched decode past t)
    (hout : HasReply.Outcome cfg account t tr r t') : Watched decode past t' :=
  h.evolves hout.evolves hout.stays.1 hout.stays.2

lemma watched_message {past : List NodeEvent} {t : TradeState} (msg : ProcessingMessage)
    (h : Watched decode past t) : Watched decode past (handleMessage account msg t) := by
  have heq := (@handleMessage_spec account msg t).eq
  refine h.evolves (evolves_handleMessage msg t) (Or.inl ?_) ?_
  · rw [heq]
    rfl
  · rw [heq]

/-- Outside of `UpdateAndArchiveTrades`, trades stay watched. -/
lemma watched_of_section {past : List NodeEvent} {task : Task} {s s' : State} {tr : Conversation}
    {r : Except Fail Effect} (h : Section cfg s task tr r s') (htask : task ≠ .updateTrades)
    (hw : ∀ t ∈ s.trades, Watched decode past t) : ∀ t ∈ s'.trades, Watched decode past t := by
  intro t ht
  cases h with
  | idle hs => exact hw t (hs.trades ▸ ht)
  | orderTaken =>
      rcases List.mem_append.mp ht with ht | ht
      · exact hw t ht
      · rw [List.mem_singleton.mp ht]
        exact watched_new
  | takeFailed => exact hw t ht
  | takeCreated _ _ hout =>
      rcases List.mem_append.mp ht with ht | ht
      · exact hw t ht
      · rw [List.mem_singleton.mp ht]
        exact watched_reply watched_new hout
  | processed hs _ _ hout _ =>
      rw [hs] at hw
      rcases List.mem_append.mp ht with ht | ht
      · exact hw t (by simp [ht])
      · rcases List.mem_cons.mp ht with rfl | ht
        · exact watched_reply (watched_message _ (hw _ (by simp))) hout
        · exact hw t (by simp [ht])
  | aborted => exact hw t ht
  | updated => exact absurd rfl htask
  | updateFailed => exact absurd rfl htask
  | succeeded _ hs => exact hw t (hs.trades ▸ ht)
  | unsuccessful _ hs => exact hw t (hs.trades ▸ ht)
  | readInputs => exact hw t ht
  | unlockOutput => exact hw t ht

/-- Nothing is archived outside of `UpdateAndArchiveTrades`. -/
lemma archive_of_section {task : Task} {s s' : State} {tr : Conversation} {r : Except Fail Effect}
    (h : Section cfg s task tr r s') (htask : task ≠ .updateTrades) :
    s'.tradeArchive = s.tradeArchive := by
  cases h with
  | idle hs => exact hs.archive
  | updated => exact absurd rfl htask
  | updateFailed => exact absurd rfl htask
  | succeeded _ hs => exact hs.archive
  | unsuccessful _ hs => exact hs.archive
  | _ => rfl

/-- What holds in every run: the active trades are watched, and what has become of the others rests on
the chain. -/
structure Grounded (decode : String → Psbt) (N : ℕ) (past : List NodeEvent) (account : String)
    (σ : Sys) : Prop where
  account_eq : σ.state.account = account
  watched : ∀ t ∈ σ.state.trades, Watched decode past t
  settling : ∀ t, σ.Settling t → RestsOn decode N [] past t
  archived : ∀ p ∈ σ.state.tradeArchive, ∃ t, p = getPublicInfo account t ∧
    RestsOn decode N [] past t

lemma grounded_start {N : ℕ} {past : List NodeEvent} :
    Grounded decode N past account (Sys.start account) := by
  constructor
  · rfl
  · simp [Sys.start]
  · rintro t ⟨th, hth, _⟩
    simp [Sys.start] at hth
  · simp [Sys.start]

/-- A call that comes in settles nothing. -/
lemma settling_of_start {σ : Sys} {op : Op} {t : TradeState}
    (h : Sys.Settling { σ with threads := σ.threads ++ [⟨op, op.tasks⟩] } t) : σ.Settling t := by
  obtain ⟨th, hth, x, hx, hsub⟩ := h
  rcases List.mem_append.mp hth with hth | hth
  · exact ⟨th, hth, x, hx, hsub⟩
  · rw [List.mem_singleton.mp hth] at hx
    rw [subject_start hx] at hsub
    simp at hsub

lemma Grounded.step (hE : AsksGsp hist E) (hdec : Decodes decode E)
    (hN : 1 ≤ cfg.confirmations.toInt) {σ σ' : Sys} {l : Label}
    (h : Grounded decode cfg.confirmations.toInt.toNat (hist w) account σ)
    (hs : Sys.Step cfg σ l σ') (hp : E.Path w l.talk w') :
    Grounded decode cfg.confirmations.toInt.toNat (hist w') account σ' := by
  have hlater := hE.path hp
  have hstays : ∀ {t}, RestsOn decode cfg.confirmations.toInt.toNat [] (hist w) t →
      RestsOn decode cfg.confirmations.toInt.toNat [] (hist w') t := fun ht =>
    ht.widen (List.prefix_refl _) hlater
  cases hs with
  | start op _ =>
      refine ⟨h.account_eq, fun t ht => (h.watched t ht).later hlater, fun t ht => ?_,
        fun p hp => ?_⟩
      · exact hstays (h.settling t (settling_of_start ht))
      · obtain ⟨t, heq, ht⟩ := h.archived p hp
        exact ⟨t, heq, hstays ht⟩
  | @run before after op task rest tr r s' hh hth hx =>
      have hsec := section_of_exec hx
      have hself : ∀ {t}, task.subject = some t → σ.Settling t := fun hsub =>
        ⟨⟨op, task :: rest⟩, by simp [hth], task, by simp, hsub⟩
      by_cases htask : task = .updateTrades
      · subst htask
        have hjudges := Act.wpIn_iff.mp (updateTrades_judges hE hdec hN h.watched) _ _ _ _ hx hp
        refine ⟨hsec.account_eq.trans h.account_eq, hjudges.watched, fun t ht => ?_, fun p hp => ?_⟩
        · rcases settling_advance hth ht with ht | ⟨eff, hr, x, hx, hsub⟩
          · exact hstays (h.settling t ht)
          · exact (hjudges.rests eff x t hr hx hsub).widen List.nil_prefix (List.prefix_refl _)
        · rcases hjudges.archived p hp with hp | ⟨t, heq, ht⟩
          · obtain ⟨t, heq, ht⟩ := h.archived p hp
            exact ⟨t, heq, hstays ht⟩
          · exact ⟨t, by rw [heq, h.account_eq], ht.widen List.nil_prefix (List.prefix_refl _)⟩
      · refine ⟨hsec.account_eq.trans h.account_eq, fun t ht => ?_, fun t ht => ?_, fun p hp => ?_⟩
        · exact (watched_of_section hsec htask h.watched t ht).later hlater
        · rcases settling_advance hth ht with ht | ⟨eff, rfl, x, hx, hsub⟩
          · exact hstays (h.settling t ht)
          · rcases settling_of_section hsec hx hsub with hsub | ⟨heq, _⟩
            · exact hstays (h.settling t (hself hsub))
            · exact absurd heq htask
        · have harchive : s'.tradeArchive = σ.state.tradeArchive := archive_of_section hsec htask
          obtain ⟨t, heq, ht⟩ := h.archived p (harchive ▸ hp)
          exact ⟨t, heq, hstays ht⟩

/-- **Every run is grounded.** -/
theorem reachable_grounded (hE : AsksGsp hist E) (hdec : Decodes decode E)
    (hN : 1 ≤ cfg.confirmations.toInt) {x : Sys × W} (h : (system cfg E account).Reachable x) :
    Grounded decode cfg.confirmations.toInt.toNat (hist x.2) account x.1 := by
  refine h.invariant (fun x =>
    Grounded decode cfg.confirmations.toInt.toNat (hist x.2) account x.1) ?_ ?_
  · rintro ⟨σ, w⟩ rfl
    exact grounded_start
  · rintro ⟨σ, w⟩ l ⟨σ', w'⟩ _ ih ⟨hs, hp⟩
    exact ih.step hE hdec hN hs hp

/-- No answer of the GSP was refused. -/
def Understood (tr : Conversation) : Prop :=
  ∀ btxid, (Ev.failed (.checktrade btxid) .malformed : Ev) ∉ tr

lemma understood_of_path (hE : AsksGsp hist E) {tr : Conversation} (hp : E.Path w tr w') :
    Understood tr := by
  induction tr generalizing w with
  | nil => simp [Understood]
  | cons ev tr ih =>
      obtain ⟨w₁, he, hp⟩ := hp
      intro btxid hmem
      rcases List.mem_cons.mp hmem with rfl | hmem
      · rcases hE.answer he with hr | ⟨_, _, _, _, _, hr, _⟩
        · cases hr
        · cases hr
      · exact ih hp btxid hmem

/-- **Verdicts rest on the chain**: whatever was archived so far, and what an update finalises, which
rests on what the chain was like in the course of the update.  No update fails an assertion about the GSP. -/
theorem verdicts_rest_on_chain (hE : AsksGsp hist E) (hdec : Decodes decode E)
    (hN : 1 ≤ cfg.confirmations.toInt) {x : Sys × W} (h : (system cfg E account).Reachable x) :
    (∀ p ∈ x.1.state.tradeArchive, ∃ t, p = getPublicInfo account t ∧
      RestsOn decode cfg.confirmations.toInt.toNat [] (hist x.2) t) ∧
    ∀ rec x', (system cfg E account).step x (.run rec) x' → rec.task = .updateTrades →
      rec.outcome ≠ .error (.check .confirmedHeight) ∧ Understood rec.talk ∧
      ∀ eff t, rec.outcome = .ok eff → Task.handle t ∈ eff.next →
        RestsOn decode cfg.confirmations.toInt.toNat (hist x.2) (hist x'.2) t := by
  have hgrounded := reachable_grounded hE hdec hN h
  refine ⟨hgrounded.archived, ?_⟩
  rintro rec ⟨σ', w'⟩ ⟨hs, hp⟩ htask
  cases hs with
  | @run before after op task rest tr r s' hh hth hx =>
      dsimp only at htask
      subst htask
      have hjudges := Act.wpIn_iff.mp (updateTrades_judges hE hdec hN hgrounded.watched) _ _ _ _ hx hp
      refine ⟨hjudges.confirmed, understood_of_path hE hp, fun eff t heff ht => ?_⟩
      exact hjudges.rests eff _ t heff ht rfl

/-! ### A sale that is confirmed

The block with the sale is replaced by another one with it, and a block on top of that confirms it. -/

/-- What happens to the GSP, one block after the other. -/
def saleEvents : List NodeEvent :=
  [.forward (.attachBlock ⟨7, []⟩ []), .forward (.attachBlock ⟨8, [⟨"sale"⟩]⟩ []),
    .detachBlock [⟨"sale"⟩], .forward (.attachBlock ⟨8, [⟨"sale"⟩]⟩ []),
    .forward (.attachBlock ⟨9, []⟩ [])]

/-- The GSP of the sale, asked after the event with this number. -/
def saleAnswer (n : ℕ) (btxid : String) : Except RpcError (UInt32 × GspState) :=
  match GspNode.run (saleEvents.take n) with
  | .error _ => .error .exception
  | .ok node =>
      match Gsp.checktrade node.gsp node.gsp btxid with
      | .error _ => .error .exception
      | .ok json => readChecktrade json

/-- The sale with that GSP.  Something happens to it during each call. -/
def chainScript (n : ℕ) : (c : Call) → Answer c × ℕ
  | .rpc (.checktrade btxid) => (saleAnswer (n + 1) btxid, n + 1)
  | c => saleScript n c

lemma saleScript_grows (n : ℕ) (c : Call) : n ≤ (saleScript n c).2 := by
  unfold saleScript
  split <;> simp

lemma chainScript_grows {n n' : ℕ} {ev : Ev} (he : Env.ofScript chainScript n ev n') : n ≤ n' := by
  have hn : (chainScript n ev.1).2 = n' := congrArg Prod.snd he
  rw [← hn]
  generalize ev.1 = c
  unfold chainScript
  split
  · exact Nat.le_succ n
  · exact saleScript_grows n _

lemma chainScript_asksGsp : AsksGsp (fun n => saleEvents.take n) (Env.ofScript chainScript) := by
  have hconsistent : Consistent saleEvents := by decide
  refine ⟨fun n => hconsistent.earlier (List.take_prefix _ _), ?_, ?_⟩
  · intro n ev n' he
    exact List.take_prefix_take_left (chainScript_grows he)
  · intro n btxid r n' he
    obtain ⟨hr, rfl⟩ := Prod.mk.inj he
    obtain ⟨node, hnode, _⟩ := nodeRun_ok (hconsistent.earlier (List.take_prefix (n + 1) _))
    have hr : saleAnswer (n + 1) btxid = r := hr
    rw [saleAnswer, hnode] at hr
    dsimp only at hr
    cases hjson : Gsp.checktrade node.gsp node.gsp btxid with
    | error e =>
        rw [hjson] at hr
        exact Or.inl hr.symm
    | ok json =>
        rw [hjson] at hr
        refine Or.inr ⟨saleEvents.take (n + 1), [], node, node, json, ?_, ?_, hnode, ?_, hjson, hr.symm⟩
        · exact List.take_prefix_take_left (Nat.le_succ n)
        · rw [List.append_nil]
        · rw [List.append_nil]
          exact hnode

/-- With the second confirmation, the sale is archived as a success. -/
theorem verdicts_rest_on_chain_sale : ∃ (x : Sys × ℕ) (p : Trade) (t : TradeState),
    (system { sampleConfig with confirmations := 2 } (Env.ofScript chainScript) "seller").Reachable x ∧
    p ∈ x.1.state.tradeArchive ∧ p.state = .success ∧ p = getPublicInfo "seller" t ∧
    ∃ ours seen, t.ourPsbt = some ours ∧ seen <+: saleEvents.take x.2 ∧
      Confirmed 2 (saleDecode ours).tx.btxid (currentChain seen) := by
  obtain ⟨x, hr, hP⟩ := Sys.exists_reachable { sampleConfig with confirmations := 2 } chainScript
    "seller" 0 (saleSchedule ++ [.start .updateTrades, .run 2, .start .updateTrades, .run 3, .start .updateTrades, .run 4])
    (fun x => x.1.state.tradeArchive.any fun p => p.state = .success) (by decide +kernel)
  obtain ⟨p, hp, hstate⟩ := List.any_eq_true.mp hP
  have hdec : Decodes saleDecode (Env.ofScript chainScript) := by
    intro w p d w' h
    exact (Except.ok.inj (congrArg Prod.fst h)).symm
  obtain ⟨t, heq, hrests⟩ := (verdicts_rest_on_chain chainScript_asksGsp hdec (by decide) hr).1 p hp
  have hsuccess : t.getState = .success := by
    rw [← of_decide_eq_true hstate, heq]
    rfl
  obtain ⟨ours, seen, hours, _, hseen, hconf⟩ := hrests.success hsuccess
  exact ⟨x, p, t, hr, hp, of_decide_eq_true hstate, heq, ours, seen, hours, hseen, hconf⟩

end Democrit
