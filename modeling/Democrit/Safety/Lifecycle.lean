import Democrit.Safety.Evolution
import Democrit.Safety.Seller

/-!
# When our signatures leave us

A PSBT with our signatures goes out in a message, or into a transaction that is broadcast, **in the
very step in which its trade becomes `PENDING`**; the first only as taker, the second only as maker.
Since a trade becomes `PENDING` at most once and an abandoned one never did, nothing of an
abandoned trade can be used against us.

`Record.TurnsPending` is what is counted.  The invariant behind the count is that a trade some
recorded section has turned `PENDING` is never known as `INITIATED` or `ABANDONED` again
(`pending_of_turned`), which is `later_evolves` read from that section on.
-/

namespace Democrit

open Interaction

variable {cfg : Config} {account : String} {W : Type} {E : Env Call Answer W}

/-- The methods that build PSBTs put no signatures of our wallet into them; only
`walletprocesspsbt` does. -/
structure BuildsUnsigned (signed : String → Prop) (E : Env Call Answer W) : Prop where
  funds : ∀ w outs feeRate p w',
    E w (Ev.returned (.walletcreatefundedpsbt outs feeRate) p) w' → ¬ signed p
  creates : ∀ w ins outs p w', E w (Ev.returned (.createpsbt ins outs) p) w' → ¬ signed p
  names : ∀ w p n op name value q w',
    E w (Ev.returned (.namepsbt p n op name value) q) w' → ¬ signed p → ¬ signed q
  joins : ∀ w ps p w', E w (Ev.returned (.joinpsbts ps) p) w' → (∀ q ∈ ps, ¬ signed q) → ¬ signed p

/-- The transaction the buyer builds is not signed before it is signed. -/
lemma BuyerBuilds.unsigned {signed : String → Prop} (hsig : BuildsUnsigned signed E)
    {pb : TradeState} {tr : Conversation} {nameIn : OutPoint} {unsignedPsbt signedPsbt : String}
    {w w' : W} (h : BuyerBuilds cfg account pb tr nameIn unsignedPsbt signedPsbt)
    (hp : E.Path w tr w') : ¬ signed unsignedPsbt := by
  obtain ⟨checked, total, chiPart, rawNamePart, namePart, before, after, _, _, _, _, rfl, _⟩ :=
    h.verified
  rw [List.append_assoc] at hp
  obtain ⟨w₁, _, hp⟩ := Env.path_append.mp hp
  obtain ⟨w₂, ⟨_, hfund, _, hcreate, _, hname, _, hjoin, _⟩, _⟩ := Env.path_append.mp hp
  refine hsig.joins _ _ _ _ hjoin ?_
  intro q hq
  rcases List.mem_cons.mp hq with rfl | hq
  · exact hsig.funds _ _ _ _ _ hfund
  · rw [List.mem_singleton.mp hq]
    exact hsig.names _ _ _ _ _ _ _ _ hname (hsig.creates _ _ _ _ _ hcreate)

/-! ## Turning `PENDING` -/

/-- In this section, the trade number `k` became `PENDING`. -/
def Record.TurnsPending (rec : Record) (k : ℕ) : Prop :=
  ∃ t ∈ rec.pre.trades, ∃ t' ∈ rec.post.trades, t.serial = k ∧ t'.serial = k ∧
    t.getState = .initiated ∧ t'.getState = .pending

lemma Record.Processes.turnsPending {rec : Record} {msg : ProcessingMessage} {t t' : TradeState}
    (h : rec.Processes msg t t') (hserial : t'.serial = t.serial) (hinit : t.getState = .initiated)
    (hpending : t'.getState = .pending) : rec.TurnsPending t.serial := by
  obtain ⟨before, after, hpre, _, hpost⟩ := h.trades
  exact ⟨t, by simp [hpre], t', by simp [hpost], rfl, hserial, hinit, hpending⟩

lemma not_edge_initiated {a : TradeStatus} (h : Relation.ReflTransGen Edge a .initiated) :
    a = .initiated := by
  cases h with
  | refl => rfl
  | tail _ hlast => cases hlast

lemma not_edge_abandoned {a : TradeStatus} (h : Relation.ReflTransGen Edge a .abandoned) :
    a = .abandoned ∨ a = .initiated := by
  cases h with
  | refl => exact Or.inl rfl
  | tail h hlast =>
      cases hlast
      exact Or.inr (not_edge_initiated h)

/-- A section that turned a trade `PENDING` returned. -/
lemma returned_of_turnsPending {σ σ' : Sys} {rec : Record} {k : ℕ} (hser : Serials σ)
    (hs : Sys.Step cfg σ (.run rec) σ') (h : rec.TurnsPending k) : ∃ eff, rec.outcome = .ok eff := by
  obtain ⟨t, ht, t', ht', hk, hk', hinit, hpending⟩ := h
  obtain ⟨_, hpre, hpost⟩ := section_of_step hs
  rw [hpre] at ht
  rw [hpost] at ht'
  have hbound := hser.bound t (Or.inl ht)
  have hsame : ∀ t₁, σ.Knows t₁ → t₁.serial = k → t₁ = t := fun t₁ hk₁ heq =>
    hser.eq_of_serial hk₁ (Or.inl ht) (heq.trans hk.symm)
  have hknown : ¬ σ.Knows t' := fun hkn => by
    rw [hsame t' hkn hk', hinit] at hpending
    simp at hpending
  rcases origin_of_step hs (Or.inl ht') with hkn | ⟨rec', hrec, horigin⟩
  · exact absurd hkn hknown
  · obtain rfl := Label.run.inj hrec
    cases horigin with
    | old hkn => exact absurd hkn hknown
    | blank heq _ =>
        have : t'.serial = 0 := by rw [heq]
        omega
    | taken _ _ _ _ heq =>
        have : t'.serial = σ.state.created + 1 := by rw [heq]; rfl
        omega
    | took _ _ _ _ hout =>
        have : t'.serial = σ.state.created + 1 := hout.frame.serial
        omega
    | processed _ _ _ _ hok => exact ⟨_, hok⟩
    | updated _ ht₁ hout =>
        rw [hsame _ (Or.inl ht₁) (hout.frame.serial.symm.trans hk')] at hout
        cases hout with
        | keeps _ _ =>
            have : t.getState = .pending := hpending
            rw [hinit] at this
            simp at this
        | abandons _ _ => simp [TradeState.getState] at hpending
        | settles hp _ _ _ =>
            rw [hinit] at hp
            simp at hp

/-- **A trade that turned `PENDING` is neither `INITIATED` nor `ABANDONED` afterwards.** -/
lemma pending_of_turned {x : Sys × W} (hr : (system cfg E account).Reachable x) {rec : Record}
    (hrec : rec ∈ x.1.log) {t : TradeState} (hk : x.1.Knows t) (h : rec.TurnsPending t.serial) :
    t.getState ≠ .initiated ∧ t.getState ≠ .abandoned := by
  obtain ⟨y, z, hy, hs, hl⟩ := reachable_record hr rec hrec
  obtain ⟨eff, heff⟩ := returned_of_turnsPending
    (reachable_serials hy (not_halted_of_step hs.1)) hs.1 h
  have hz : z.1.halted = false := by
    obtain ⟨hs, _⟩ := hs
    generalize z.1 = z₁ at hs
    cases hs with
    | run _ _ _ =>
        dsimp only at heff
        rw [Sys.advance, heff]
        rfl
  obtain ⟨_, _, t', ht', _, hk', _, hpending⟩ := h
  have hpost : rec.post = z.1.state := (section_of_step hs.1).2.2
  have hev := later_evolves (hy.step hs) hz hl (Or.inl (hpost ▸ ht')) hk hk'
  have hstate := hev.state
  rw [hpending] at hstate
  constructor
  · intro heq
    rw [heq] at hstate
    simpa using not_edge_initiated hstate
  · intro heq
    rw [heq] at hstate
    simpa using not_edge_abandoned hstate

/-- Every trade turns `PENDING` at most once. -/
lemma turnsPending_once {x : Sys × W} (hr : (system cfg E account).Reachable x) (k : ℕ) :
    x.1.log.Pairwise fun a b => ¬ (a.TurnsPending k ∧ b.TurnsPending k) := by
  refine Transition.System.Reachable.invariant
    (fun x => x.1.log.Pairwise fun a b => ¬ (a.TurnsPending k ∧ b.TurnsPending k)) ?_ ?_ hr
  · intro x hx
    rw [hx]
    simp [Sys.start]
  · rintro x l ⟨σ', w'⟩ hr ih ⟨hs, _⟩
    dsimp only at hs ⊢
    cases hs with
    | start op _ => exact ih
    | run _ _ _ =>
        refine List.pairwise_append.mpr ⟨ih, List.pairwise_singleton _ _, ?_⟩
        rintro a ha b hb ⟨hta, t, ht, t', _, hk, _, hinit, _⟩
        rw [List.mem_singleton.mp hb] at ht
        rw [← hk] at hta
        exact (pending_of_turned hr ha (Or.inl ht) hta).1 hinit

/-! ## Every run -/

/-- **Signature-release discipline and life cycle.**

1. Trades evolve along `Evolves` from any point of a run to any later one.
2. A message with our signatures comes from the step in which a trade that we are the taker of
   becomes `PENDING`.
3. A broadcast is a single one, is not accompanied by a message, and comes from the step in which a
   trade that we are the maker of becomes `PENDING`.
4. Each trade has at most one such step.
5. An abandoned trade has none, neither before nor later. -/
theorem signature_discipline {signed : String → Prop} (hsig : BuildsUnsigned signed E)
    {x : Sys × W} (hr : (system cfg E account).Reachable x) :
    (x.1.halted = false → ∀ x', (system cfg E account).Later x x' → ∀ t t', x.1.Knows t →
      x'.1.Knows t' → t.serial = t'.serial → Evolves t t') ∧
    (∀ rec ∈ x.1.log, ∀ reply p, rec.reply = some reply → reply.psbt = some p → signed p →
      ∃ msg t t', rec.Processes msg t t' ∧ getRole account t = .taker ∧ t'.ourPsbt = some p ∧
        t'.serial = t.serial ∧ t.getState = .initiated ∧ t'.getState = .pending ∧
        rec.TurnsPending t.serial) ∧
    (∀ rec ∈ x.1.log, broadcasts rec.talk ≠ [] →
      ∃ msg t t' hex, rec.Processes msg t t' ∧ getRole account t = .maker ∧
        broadcasts rec.talk = [hex] ∧ rec.reply = none ∧
        t'.serial = t.serial ∧ t.getState = .initiated ∧ t'.getState = .pending ∧
        rec.TurnsPending t.serial) ∧
    (∀ k, x.1.log.Pairwise fun a b => ¬ (a.TurnsPending k ∧ b.TurnsPending k)) ∧
    (x.1.halted = false → ∀ x', (system cfg E account).Later x x' → ∀ t, x.1.Knows t →
      t.getState = .abandoned → ∀ rec ∈ x'.1.log, ¬ rec.TurnsPending t.serial) := by
  have recorded : ∀ rec ∈ x.1.log, rec.pre.account = account ∧
      Section cfg rec.pre rec.task rec.talk rec.outcome rec.post ∧
      ∃ w w', E.Path w rec.talk w' := by
    intro rec hrec
    obtain ⟨y, z, hy, hs, _⟩ := reachable_record hr rec hrec
    obtain ⟨hsec, hpre, _⟩ := section_of_step hs.1
    exact ⟨by rw [hpre]; exact reachable_account hy, hsec, y.2, z.2, hs.2⟩
  refine ⟨fun hh x' hl t t' hk hk' heq => later_evolves hr hh hl hk hk' heq, ?_, ?_,
    turnsPending_once hr, ?_⟩
  · intro rec hrec reply p hreply hp hsigned
    obtain ⟨hacc, hsec, w, w', hpath⟩ := recorded rec hrec
    obtain ⟨msg, t, t', r, hproc, hout, houtcome⟩ :=
      processes_of_release hsec (Or.inl ⟨reply, hreply, by simp [hp]⟩)
    rw [Record.ok_of_reply houtcome hreply, hacc] at hout
    have hrecv := @handleMessage_spec account msg t
    have hserial := hout.frame.serial.trans hrecv.frame.serial
    obtain ⟨hinit, _, ⟨htaker, hours, hpending⟩ | ⟨_, _, _, _, hb, _⟩⟩ := reply_psbt hout hp
    · have hinit' : t.getState = .initiated := by rw [hrecv.eq] at hinit; exact hinit
      exact ⟨msg, t, t', hproc, by rw [← hrecv.frame.getRole]; exact htaker, hours, hserial, hinit',
        hpending, hproc.turnsPending hserial hinit' hpending⟩
    · exact absurd hsigned (hb.unsigned hsig hpath)
  · intro rec hrec hne
    obtain ⟨hacc, hsec, _⟩ := recorded rec hrec
    obtain ⟨msg, t, t', r, hproc, hout, houtcome⟩ := processes_of_release hsec (Or.inr hne)
    rw [hacc] at hout
    have hrecv := @handleMessage_spec account msg t
    have hserial := hout.frame.serial.trans hrecv.frame.serial
    rcases hasReply_broadcasts hout with hnone | ⟨hmaker, hinit, hpending, hr', hex, _, _, _, hb, _⟩
    · exact absurd hnone hne
    · have hinit' : t.getState = .initiated := by rw [hrecv.eq] at hinit; exact hinit
      have hreply : rec.reply = none := by rw [Record.reply, houtcome, hr']; rfl
      exact ⟨msg, t, t', hex, hproc, by rw [← hrecv.frame.getRole]; exact hmaker, hb, hreply, hserial,
        hinit', hpending, hproc.turnsPending hserial hinit' hpending⟩
  · intro hh x' hl t hk habandoned
    -- a section after `x` would have found the trade `INITIATED`
    induction hl with
    | refl => exact fun rec hrec hturn => (pending_of_turned hr hrec hk hturn).2 habandoned
    | @tail y z hl hst ih =>
        obtain ⟨l, hst, _⟩ := hst
        intro rec hrec
        generalize z.1 = z₁ at hst hrec
        cases hst with
        | start op _ => exact ih rec hrec
        | run _ _ _ =>
            rcases List.mem_append.mp hrec with hrec | hrec
            · exact ih rec hrec
            · rw [List.mem_singleton.mp hrec]
              rintro ⟨t₀, ht₀, _, _, hserial, _, hinit, _⟩
              have hstate := (later_evolves hr hh hl hk (Or.inl ht₀) hserial.symm).state
              rw [habandoned, hinit] at hstate
              simpa using not_edge_initiated hstate

/-- In the sale, our signature goes out once, and the trade is `PENDING` with it. -/
theorem signature_discipline_sale : ∃ (x : Sys × ℕ) (rec : Record) (t t' : TradeState),
    (system sampleConfig (Env.ofScript saleScript) "seller").Reachable x ∧ rec ∈ x.1.log ∧
    t.getState = .initiated ∧ t'.getState = .pending ∧ t'.ourPsbt = some "psbt, signed" ∧
    rec.TurnsPending t.serial := by
  obtain ⟨x, hr, hP⟩ := Sys.exists_reachable sampleConfig saleScript "seller" 0 saleSchedule
    (fun x => x.1.log.any fun rec => rec.reply.any fun m => m.psbt = some "psbt, signed") (by decide)
  obtain ⟨rec, hrec, hreply⟩ := List.any_eq_true.mp hP
  obtain ⟨reply, hreply, hpsbt⟩ := (Option.any_eq_true _ _).mp hreply
  -- here a PSBT is signed if it says so
  have hsig : BuildsUnsigned (fun p => p = "psbt, signed") (Env.ofScript saleScript) := by
    refine ⟨?_, ?_, ?_, ?_⟩
    · exact fun w outs feeRate p w' h => absurd h (not_returned rfl)
    · exact fun w ins outs p w' h => absurd h (not_returned rfl)
    · exact fun w p n op name value q w' h => absurd h (not_returned rfl)
    · exact fun w ps p w' h => absurd h (not_returned rfl)
  obtain ⟨msg, t, t', _, _, hours, _, hinit, hpending, hturn⟩ :=
    (signature_discipline hsig hr).2.1 rec hrec reply _ hreply (of_decide_eq_true hpsbt) rfl
  exact ⟨x, rec, t, t', hr, hrec, hinit, hpending, hours, hturn⟩

end Democrit
