import Democrit.Spec.System

/-!
# How a trade evolves

A trade keeps its serial number through its life, and no two trades share one (`Serials`), so the
life of a trade can be followed through a run: `later_evolves` relates what is known about it at
one point of a run to what is known at any later one.

`Evolves` says that the order, the units, the counterparty and the start time never change, that
seller data and both PSBTs are **written once**, and that the state only moves along `Edge`.
-/

namespace Democrit

open Interaction

variable {cfg : Config} {account : String} {W : Type} {E : Env Call Answer W}

/-! ## One step in the life of a trade -/

/-- The moves of `Trade.State`. -/
inductive Edge : TradeStatus → TradeStatus → Prop
  | share : Edge .initiated .pending
  | abandon : Edge .initiated .abandoned
  | confirm : Edge .pending .success
  | conflict : Edge .pending .failed

/-- A field that was set keeps its value. -/
def WrittenOnce {α : Type} (a a' : Option α) : Prop := ∀ v, a = some v → a' = some v

lemma WrittenOnce.refl {α : Type} (a : Option α) : WrittenOnce a a := fun _ h => h

lemma WrittenOnce.of_eq {α : Type} {a a' : Option α} (h : a' = a) : WrittenOnce a a' :=
  fun _ hv => h.trans hv

lemma WrittenOnce.of_none {α : Type} {a a' : Option α} (h : a = none) : WrittenOnce a a' := by
  intro v hv
  rw [h] at hv
  simp at hv

lemma WrittenOnce.trans {α : Type} {a b c : Option α} (h : WrittenOnce a b) (h' : WrittenOnce b c) :
    WrittenOnce a c := fun v hv => h' v (h v hv)

/-- **What can become of a trade.** -/
structure Evolves (t t' : TradeState) : Prop where
  frame : Frame t t'
  sellerData : WrittenOnce t.sellerData t'.sellerData
  theirPsbt : WrittenOnce t.theirPsbt t'.theirPsbt
  ourPsbt : WrittenOnce t.ourPsbt t'.ourPsbt
  state : Relation.ReflTransGen Edge t.getState t'.getState

lemma Evolves.refl (t : TradeState) : Evolves t t :=
  ⟨.refl t, .refl _, .refl _, .refl _, .refl⟩

lemma Evolves.trans {t₁ t₂ t₃ : TradeState} (h : Evolves t₁ t₂) (h' : Evolves t₂ t₃) :
    Evolves t₁ t₃ :=
  ⟨h.frame.trans h'.frame, h.sellerData.trans h'.sellerData, h.theirPsbt.trans h'.theirPsbt,
    h.ourPsbt.trans h'.ourPsbt, h.state.trans h'.state⟩

lemma evolves_handleMessage (msg : ProcessingMessage) (t : TradeState) :
    Evolves t (handleMessage account msg t) := by
  have h := @handleMessage_spec account msg t
  generalize handleMessage account msg t = t' at h
  refine ⟨h.frame, ?_, ?_, .of_eq (by rw [h.eq]), ?_⟩
  · rcases h.sellerData with h | ⟨_, hnone, _⟩
    · exact .of_eq h
    · exact .of_none hnone
  · rcases h.theirPsbt with h | ⟨hnone, _⟩
    · exact .of_eq h
    · exact .of_none hnone
  · rw [show t'.getState = t.getState by rw [h.eq]; rfl]

lemma HasReply.Outcome.evolves {t t' : TradeState} {tr : Conversation}
    {r : Except Fail (Option ProcessingMessage)} (h : HasReply.Outcome cfg account t tr r t') :
    Evolves t t' := by
  -- our PSBT is only set by the two branches that found none
  have signs : ∀ {psbt} {st : Option TradeStatus}, t.ourPsbt = none →
      Relation.ReflTransGen Edge t.getState (st.getD .initiated) →
      Evolves t { t with ourPsbt := some psbt, state := st } := by
    intro psbt st hfresh hst
    exact ⟨⟨rfl, rfl, rfl, rfl, rfl⟩, .refl _, .refl _, .of_none hfresh, hst⟩
  have pending : t.getState = .initiated →
      Relation.ReflTransGen Edge t.getState ((some TradeStatus.pending).getD .initiated) := by
    intro hinit
    rw [hinit]
    exact .single .share
  have becomes : t.getState = .initiated → Evolves t { t with state := some .pending } :=
    fun hinit => ⟨⟨rfl, rfl, rfl, rfl, rfl⟩, .refl _, .refl _, .refl _, pending hinit⟩
  cases h with
  | rest => exact .refl t
  | nameLeaked => exact .refl t
  | sendsSellerData _ _ hnone => exact ⟨⟨rfl, rfl, rfl, rfl, rfl⟩, .of_none hnone, .refl _, .refl _, .refl⟩
  | sellerShares hinit _ _ hs _ => exact signs hs.fresh (pending hinit)
  | sellerKeeps hinit _ _ hs _ _ _ => exact signs hs.fresh .refl
  | sellerBroadcasts hinit _ _ hs _ _ => exact signs hs.fresh (pending hinit)
  | coinsLeaked => exact .refl t
  | coinsReleased => exact .refl t
  | buyerOffers hinit _ hb _ => exact signs hb.fresh .refl
  | buyerShares hinit _ hb _ => exact signs hb.fresh (pending hinit)
  | shares hinit _ _ => exact becomes hinit
  | broadcasts hinit _ _ _ _ => exact becomes hinit

lemma Update.Outcome.evolves {t t' : TradeState} {tr : Conversation} {r : Except Fail Unit}
    (h : Update.Outcome t tr r t') : Evolves t t' := by
  cases h with
  | keeps _ _ => exact ⟨⟨rfl, rfl, rfl, rfl, rfl⟩, .refl _, .refl _, .refl _, .refl⟩
  | fails _ => exact .refl t
  | abandons hinit _ =>
      refine ⟨⟨rfl, rfl, rfl, rfl, rfl⟩, .refl _, .refl _, .refl _, ?_⟩
      rw [hinit]
      exact .single .abandon
  | settles hpending hst _ _ =>
      refine ⟨⟨rfl, rfl, rfl, rfl, rfl⟩, .refl _, .refl _, .refl _, ?_⟩
      rw [hpending]
      rcases hst with rfl | rfl
      · exact .single .confirm
      · exact .single .conflict

/-! ## Serial numbers -/

/-- Serial numbers tell trades apart. -/
structure Serials (σ : Sys) : Prop where
  bound : ∀ t, σ.Knows t → 0 < t.serial ∧ t.serial ≤ σ.state.created
  nodup : (σ.state.trades.map TradeState.serial).Nodup
  apart : ∀ t ∈ σ.state.trades, ∀ t', σ.Settling t' → t.serial ≠ t'.serial
  settled : ∀ t t', σ.Settling t → σ.Settling t' → t.serial = t'.serial → t = t'

lemma Serials.eq_of_serial {σ : Sys} (h : Serials σ) {t t' : TradeState} (hk : σ.Knows t)
    (hk' : σ.Knows t') (hs : t.serial = t'.serial) : t = t' := by
  rcases hk with hk | hk <;> rcases hk' with hk' | hk'
  · exact List.inj_on_of_nodup_map h.nodup hk hk' hs
  · exact absurd hs (h.apart t hk t' hk')
  · exact absurd hs.symm (h.apart t' hk' t hk)
  · exact h.settled t t' hk hk' hs

/-- What is being settled after a section was settled before, or is among what it finalised. -/
lemma settling_advance {σ : Sys} {before after : List Thread} {op : Op} {task : Task}
    {rest : List Task} {tr : Conversation} {r : Except Fail Effect} {s' : State} {t : TradeState}
    (hth : σ.threads = before ++ ⟨op, task :: rest⟩ :: after)
    (h : (σ.advance before after rest ⟨op, task, σ.state, tr, r, s'⟩).Settling t) :
    σ.Settling t ∨ ∃ eff, r = .ok eff ∧ ∃ x ∈ eff.next, x.subject = some t := by
  have old : ∀ th ∈ before ++ ⟨op, task :: rest⟩ :: after, ∀ x ∈ th.tasks, x.subject = some t →
      σ.Settling t := fun th hm x hx hsub => ⟨th, by rwa [hth], x, hx, hsub⟩
  obtain ⟨th, hm, x, hx, hsub⟩ := h
  rcases List.mem_append.mp hm with hm | hm
  · exact Or.inl (old th (by simp [hm]) x hx hsub)
  · rcases List.mem_cons.mp hm with rfl | hm
    · cases r with
      | error e => simp [continuation] at hx
      | ok eff =>
          rcases List.mem_append.mp hx with hx | hx
          · exact Or.inr ⟨eff, rfl, x, hx, hsub⟩
          · exact Or.inl (old ⟨op, task :: rest⟩ (by simp) x (by simp [hx]) hsub)
    · exact Or.inl (old th (by simp [hm]) x hx hsub)

/-- The trades that an update leaves, in serial numbers. -/
private lemma map_serial_update {us : List (TradeState × TradeState)}
    (hu : ∀ p ∈ us, ∃ tr, Update.Outcome p.1 tr (.ok ()) p.2) :
    (us.map Prod.snd).map TradeState.serial = (us.map Prod.fst).map TradeState.serial := by
  rw [List.map_map, List.map_map]
  refine List.map_congr_left fun p hp => ?_
  obtain ⟨tr, h⟩ := hu p hp
  exact h.frame.serial

/-- A step that creates and finalises nothing. -/
lemma Serials.same {σ σ' : Sys} (h : Serials σ) (hstill : ∀ t, σ'.Settling t → σ.Settling t)
    (hserials : σ'.state.trades.map TradeState.serial = σ.state.trades.map TradeState.serial)
    (hcreated : σ'.state.created = σ.state.created) : Serials σ' := by
  have hmem : ∀ t ∈ σ'.state.trades, ∃ t₀ ∈ σ.state.trades, t₀.serial = t.serial := by
    intro t ht
    have : t.serial ∈ σ'.state.trades.map TradeState.serial := List.mem_map_of_mem ht
    rw [hserials] at this
    exact List.mem_map.mp this
  refine ⟨?_, by rw [hserials]; exact h.nodup, ?_, ?_⟩
  · rw [hcreated]
    rintro t (ht | ht)
    · obtain ⟨t₀, ht₀, heq⟩ := hmem t ht
      rw [← heq]
      exact h.bound t₀ (Or.inl ht₀)
    · exact h.bound t (Or.inr (hstill t ht))
  · intro t ht t' ht'
    obtain ⟨t₀, ht₀, heq⟩ := hmem t ht
    rw [← heq]
    exact h.apart t₀ ht₀ t' (hstill t' ht')
  · intro t t' ht ht'
    exact h.settled t t' (hstill t ht) (hstill t' ht')

/-- A step that creates a trade. -/
lemma Serials.grow {σ σ' : Sys} (h : Serials σ) (hstill : ∀ t, σ'.Settling t → σ.Settling t)
    {tn : TradeState} (hserial : tn.serial = σ.state.created + 1)
    (htrades : σ'.state.trades = σ.state.trades ++ [tn])
    (hcreated : σ'.state.created = σ.state.created + 1) : Serials σ' := by
  have hknown : ∀ t, σ.Knows t → t.serial < tn.serial := by
    intro t hk
    have := (h.bound t hk).2
    omega
  refine ⟨?_, ?_, ?_, ?_⟩
  · rw [hcreated]
    rintro t (ht | ht)
    · rw [htrades] at ht
      rcases List.mem_append.mp ht with ht | ht
      · have := h.bound t (Or.inl ht)
        omega
      · rw [List.mem_singleton.mp ht]
        omega
    · have := h.bound t (Or.inr (hstill t ht))
      omega
  · rw [htrades, List.map_append, List.nodup_append]
    refine ⟨h.nodup, by simp, ?_⟩
    rintro a ha b hb rfl
    obtain ⟨t, ht, rfl⟩ := List.mem_map.mp ha
    have := hknown t (Or.inl ht)
    rw [List.map_singleton, List.mem_singleton] at hb
    omega
  · intro t ht t' ht'
    rw [htrades] at ht
    rcases List.mem_append.mp ht with ht | ht
    · exact h.apart t ht t' (hstill t' ht')
    · rw [List.mem_singleton.mp ht]
      have := hknown t' (Or.inr (hstill t' ht'))
      omega
  · intro t t' ht ht'
    exact h.settled t t' (hstill t ht) (hstill t' ht')

/-- The step that finalises trades: those it finalises move over to the ones being settled. -/
lemma Serials.update {σ σ' : Sys} (h : Serials σ) {us : List (TradeState × TradeState)}
    (hs : σ.state.trades = us.map Prod.fst)
    (hu : ∀ p ∈ us, ∃ tr, Update.Outcome p.1 tr (.ok ()) p.2)
    (hsettle : ∀ t, σ'.Settling t → σ.Settling t ∨ t ∈ (us.map Prod.snd).filter isFinalised)
    (htrades : σ'.state.trades = (us.map Prod.snd).filter fun t => !isFinalised t)
    (hcreated : σ'.state.created = σ.state.created) : Serials σ' := by
  have hnodup : ((us.map Prod.snd).map TradeState.serial).Nodup := by
    rw [map_serial_update hu, ← hs]
    exact h.nodup
  have horigin : ∀ t ∈ us.map Prod.snd, ∃ t₀ ∈ σ.state.trades, t₀.serial = t.serial := by
    intro t ht
    obtain ⟨p, hp, rfl⟩ := List.mem_map.mp ht
    obtain ⟨tr, hout⟩ := hu p hp
    exact ⟨p.1, by rw [hs]; exact List.mem_map_of_mem hp, hout.frame.serial.symm⟩
  have hbound : ∀ t ∈ us.map Prod.snd, 0 < t.serial ∧ t.serial ≤ σ.state.created := by
    intro t ht
    obtain ⟨t₀, ht₀, heq⟩ := horigin t ht
    rw [← heq]
    exact h.bound t₀ (Or.inl ht₀)
  have happart : ∀ t ∈ us.map Prod.snd, ∀ t', σ.Settling t' → t.serial ≠ t'.serial := by
    intro t ht t' ht'
    obtain ⟨t₀, ht₀, heq⟩ := horigin t ht
    rw [← heq]
    exact h.apart t₀ ht₀ t' ht'
  refine ⟨?_, ?_, ?_, ?_⟩
  · rw [hcreated]
    rintro t (ht | ht)
    · rw [htrades] at ht
      exact hbound t (List.mem_filter.mp ht).1
    · rcases hsettle t ht with ht | ht
      · exact h.bound t (Or.inr ht)
      · exact hbound t (List.mem_filter.mp ht).1
  · rw [htrades]
    exact hnodup.sublist (List.filter_sublist.map _)
  · intro t ht t' ht'
    rw [htrades] at ht
    obtain ⟨hmem, hactive⟩ := List.mem_filter.mp ht
    rcases hsettle t' ht' with ht' | ht'
    · exact happart t hmem t' ht'
    · obtain ⟨hmem', hfinal⟩ := List.mem_filter.mp ht'
      intro heq
      rw [List.inj_on_of_nodup_map hnodup hmem hmem' heq, hfinal] at hactive
      simp at hactive
  · intro t t' ht ht' heq
    rcases hsettle t ht with ht | ht <;> rcases hsettle t' ht' with ht' | ht'
    · exact h.settled t t' ht ht' heq
    · exact absurd heq.symm (happart t' (List.mem_filter.mp ht').1 t ht)
    · exact absurd heq (happart t (List.mem_filter.mp ht).1 t' ht')
    · exact List.inj_on_of_nodup_map hnodup (List.mem_filter.mp ht).1 (List.mem_filter.mp ht').1 heq

lemma Serials.step {σ : Sys} {before after : List Thread} {op : Op} {task : Task}
    {rest : List Task} {tr : Conversation} {r : Except Fail Effect} {s' : State}
    (h : Serials σ) (hth : σ.threads = before ++ ⟨op, task :: rest⟩ :: after)
    (hsec : Section cfg σ.state task tr r s') (hhalts : halts op r = false)
    (hop : task = .updateTrades → op.background = true) :
    Serials (σ.advance before after rest ⟨op, task, σ.state, tr, r, s'⟩) := by
  have hself : ∀ {t}, task.subject = some t → σ.Settling t := fun hsub =>
    ⟨⟨op, task :: rest⟩, by rw [hth]; simp, task, by simp, hsub⟩
  -- only `UpdateAndArchiveTrades` adds to what is being settled
  have still : task ≠ .updateTrades → ∀ t,
      (σ.advance before after rest ⟨op, task, σ.state, tr, r, s'⟩).Settling t → σ.Settling t := by
    intro htask t ht
    rcases settling_advance hth ht with ht | ⟨eff, rfl, x, hx, hsub⟩
    · exact ht
    · rcases settling_of_section hsec hx hsub with hs | ⟨rfl, _⟩
      · exact hself hs
      · exact absurd rfl htask
  cases hsec with
  | idle hs _ hr _ =>
      refine h.same ?_ (congrArg _ hs.trades) hs.created
      intro t ht
      rcases settling_advance hth ht with ht | ⟨eff, rfl, x, hx, hsub⟩
      · exact ht
      · rw [Task.subject_eq_none (hr.next eff rfl x hx)] at hsub
        simp at hsub
  | orderTaken _ _ _ => exact h.grow (still (by simp)) rfl rfl rfl
  | takeFailed _ _ _ _ => exact h.same (still (by simp)) rfl rfl
  | takeCreated _ _ hout => exact h.grow (still (by simp)) hout.frame.serial rfl rfl
  | processed hs _ _ hout _ =>
      refine h.same (still (by simp)) ?_ rfl
      have hserial := hout.frame.serial.trans (handleMessage_spec _ _).frame.serial
      rw [hs]
      simp [Sys.advance, hserial]
  | aborted _ _ _ => exact h.same (still (by simp)) rfl rfl
  | @updated _ us hs hu _ =>
      refine h.update hs hu ?_ rfl rfl
      intro t ht
      rcases settling_advance hth ht with ht | ⟨eff, heff, x, hx, hsub⟩
      · exact Or.inl ht
      · obtain rfl := Except.ok.inj heff
        obtain ⟨t₁, ht₁, rfl⟩ := List.mem_map.mp hx
        obtain rfl : t₁ = t := Option.some.inj hsub
        exact Or.inr ht₁
  | @updateFailed _ e _ _ _ _ _ _ =>
      cases e with
      | exception =>
          rw [halts, hop rfl] at hhalts
          simp at hhalts
      | check c => simp [halts] at hhalts
  | succeeded _ hs _ => exact h.same (still (by simp)) (congrArg _ hs.trades) hs.created
  | unsuccessful _ hs _ => exact h.same (still (by simp)) (congrArg _ hs.trades) hs.created
  | readInputs => exact h.same (still (by simp)) rfl rfl
  | unlockOutput _ => exact h.same (still (by simp)) rfl rfl

/-- **Serial numbers tell trades apart in every run.** -/
theorem reachable_serials {x : Sys × W} (h : (system cfg E account).Reachable x) :
    x.1.halted = false → Serials x.1 := by
  refine Transition.System.Reachable.invariant (fun x => x.1.halted = false → Serials x.1) ?_ ?_ h
  · intro x hx _
    have hnone : ∀ t, ¬ (Sys.start account).Settling t := by
      rintro t ⟨th, hth, _⟩
      simp [Sys.start] at hth
    rw [hx]
    refine ⟨?_, by simp [Sys.start], by simp [Sys.start], fun t _ ht => absurd ht (hnone t)⟩
    rintro t (ht | ht)
    · simp [Sys.start] at ht
    · exact absurd ht (hnone t)
  · rintro x l ⟨σ', w'⟩ hr ih ⟨hs, _⟩ hhalt
    have hproper := reachable_proper hr
    dsimp only at hs hhalt ⊢
    cases hs with
    | start op hh =>
        refine (ih hh).same ?_ rfl rfl
        rintro t ⟨th, hth, y, hy, hsub⟩
        rcases List.mem_append.mp hth with hth | hth
        · exact ⟨th, hth, y, hy, hsub⟩
        · rw [List.mem_singleton.mp hth] at hy
          rw [subject_start hy] at hsub
          simp at hsub
    | @run before after op task rest tr r s' hh hth hx =>
        refine (ih hh).step hth (section_of_exec hx) hhalt ?_
        rintro rfl
        have : op = .updateTrades :=
          hproper ⟨op, .updateTrades :: rest⟩ (by rw [hth]; simp) .updateTrades (by simp) trivial
        rw [this]
        rfl

/-! ## The life of a trade -/

/-- **Where a known trade was before a step**: nowhere, if the step created it or wiped it out, and
otherwise it evolved from a known one. -/
lemma evolves_of_step {σ σ' : Sys} {l : Label} {t' : TradeState} (hs : Sys.Step cfg σ l σ')
    (hk : σ'.Knows t') :
    t'.serial = 0 ∨ t'.serial = σ.state.created + 1 ∨ ∃ t, σ.Knows t ∧ Evolves t t' := by
  rcases origin_of_step hs hk with hk | ⟨rec, rfl, horigin⟩
  · exact Or.inr (Or.inr ⟨t', hk, .refl t'⟩)
  · cases horigin with
    | old hk => exact Or.inr (Or.inr ⟨t', hk, .refl t'⟩)
    | blank h _ => exact Or.inl (by rw [h])
    | taken _ _ _ _ h => exact Or.inr (Or.inl (by rw [h]; rfl))
    | took _ _ _ _ h => exact Or.inr (Or.inl h.frame.serial)
    | processed _ ht _ h _ =>
        exact Or.inr (Or.inr ⟨_, Or.inl ht, (evolves_handleMessage _ _).trans h.evolves⟩)
    | updated _ ht h => exact Or.inr (Or.inr ⟨_, Or.inl ht, h.evolves⟩)

lemma created_mono {σ σ' : Sys} {l : Label} (hs : Sys.Step cfg σ l σ') :
    σ.state.created ≤ σ'.state.created := by
  cases hs with
  | start op _ => exact le_rfl
  | run _ _ hx =>
      have h := section_of_exec hx
      cases h with
      | idle hs _ _ _ => exact hs.created.ge
      | orderTaken _ _ _ => exact Nat.le_succ _
      | takeCreated _ _ _ => exact Nat.le_succ _
      | succeeded _ hs _ => exact hs.created.ge
      | unsuccessful _ hs _ => exact hs.created.ge
      | _ => exact le_rfl

lemma not_halted_of_step {σ σ' : Sys} {l : Label} (hs : Sys.Step cfg σ l σ') : σ.halted = false := by
  cases hs <;> assumption

/-- **The life of a trade through a run**: what is known of a trade at one point evolves into what
is known of it at any later point. -/
theorem later_evolves {x x' : Sys × W} (hr : (system cfg E account).Reachable x)
    (hh : x.1.halted = false) (hl : (system cfg E account).Later x x') {t t' : TradeState}
    (hk : x.1.Knows t) (hk' : x'.1.Knows t') (hserial : t.serial = t'.serial) : Evolves t t' := by
  have hser := reachable_serials hr hh
  have key : x.1.state.created ≤ x'.1.state.created ∧
      ∀ t', x'.1.Knows t' → t.serial = t'.serial → Evolves t t' := by
    clear hk' hserial
    induction hl with
    | refl =>
        refine ⟨le_rfl, fun t' hk' heq => ?_⟩
        rw [hser.eq_of_serial hk hk' heq]
        exact .refl t'
    | @tail y z _ hst ih =>
        obtain ⟨l, hst, _⟩ := hst
        obtain ⟨hle, ih⟩ := ih
        refine ⟨hle.trans (created_mono hst), fun t' hk' heq => ?_⟩
        have hbound := hser.bound t hk
        rcases evolves_of_step hst hk' with h0 | hnew | ⟨t₁, hk₁, hev⟩
        · omega
        · omega
        · exact (ih t₁ hk₁ (heq.trans hev.frame.serial)).trans hev
  exact key.2 t' hk' hserial

end Democrit
