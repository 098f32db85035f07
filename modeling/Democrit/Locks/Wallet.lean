import Democrit.Locks.Table
import Democrit.Safety.Evolution
import Democrit.Safety.Seller
import Democrit.Spec.Wallet

/-!
# No output is committed twice

What is locked in the wallet on behalf of a trade is claimed by it while it is active, and after that
by the tasks of `HandleFailure` that are to unlock it (`Sys.claims`).  The invariant is that **every
output of ours has at most one claim, and is locked or spent as long as it has one**.

It holds because only free outputs can be locked, so a new claim is never on an output that is
claimed already, and because an output is unlocked only together with its claim.  The unlocking of
all inputs after a failed check of our own signature is no exception: what it unlocks was locked in
the same call.
-/

namespace Democrit

open Interaction

variable {cfg : Config} {W : Type} {v : Wallet W} {account : String} {decode : String → Psbt}
  {rawTx : String → Tx} {change : TxOut → Prop} {E : Env Call Answer W}

/-! ## Claims -/

section

variable (account : String) (decode : String → Psbt)

/-- What a task of `HandleFailure` is going to unlock. -/
def Task.releasing : Task → List OutPoint
  | .handle t => if t.getState = .success then [] else committed account decode t
  | .readInputs t => (decode (t.ourPsbt.getD "")).tx.vin
  | .unlockOutput _ out => [out]
  | _ => []

/-- How often an output is claimed by these tasks and trades. -/
def claimed (tasks : List Task) (trades : List TradeState) (o : OutPoint) : ℕ :=
  (tasks.flatMap (Task.releasing account decode)).count o
    + (trades.flatMap (committed account decode)).count o

/-- Everything that is claimed by a trade or by a task. -/
def Sys.claims (σ : Sys) : List OutPoint :=
  σ.state.trades.flatMap (committed account decode)
    ++ σ.tasks.flatMap (Task.releasing account decode)

end

lemma releasing_of_not_updating {x : Task} (h : ¬ x.updating) : x.releasing account decode = [] := by
  cases x <;> first | rfl | exact absurd trivial h

lemma flatMap_releasing {tasks : List Task} (h : ∀ x ∈ tasks, ¬ x.updating) :
    tasks.flatMap (Task.releasing account decode) = [] :=
  List.flatMap_eq_nil_iff.mpr fun x hx => releasing_of_not_updating (h x hx)

/-- Tasks that do not update anything claim nothing. -/
lemma claimed_of_not_updating {tasks : List Task} (h : ∀ x ∈ tasks, ¬ x.updating)
    (trades : List TradeState) (o : OutPoint) :
    claimed account decode tasks trades o = (trades.flatMap (committed account decode)).count o := by
  rw [claimed, flatMap_releasing h, List.count_nil, Nat.zero_add]

lemma Sys.claims_start (σ : Sys) (op : Op) :
    Sys.claims account decode { σ with threads := σ.threads ++ [⟨op, op.tasks⟩] }
      = σ.claims account decode := by
  have hnone : op.tasks.flatMap (Task.releasing account decode) = [] := by
    cases op <;> rfl
  rw [Sys.claims, Sys.tasks_start, List.flatMap_append, hnone, List.append_nil]
  rfl

section Run

variable {σ : Sys} {before after : List Thread} {op : Op} {task : Task} {rest : List Task}
  {tr : Conversation} {s' : State}

/-- The claims before and after a section that returned differ as its own ones do. -/
lemma Sys.claims_advance {eff : Effect} (hth : σ.threads = before ++ ⟨op, task :: rest⟩ :: after)
    (o : OutPoint) :
    ((σ.advance before after rest ⟨op, task, σ.state, tr, .ok eff, s'⟩).claims account decode).count o
        + claimed account decode [task] σ.state.trades o
      = (σ.claims account decode).count o + claimed account decode eff.next s'.trades o := by
  rw [Sys.claims, Sys.claims, Sys.tasks_advance, Sys.tasks_split hth]
  simp only [Sys.advance, continuation, claimed, List.cons_append, List.flatMap_append,
    List.flatMap_cons, List.flatMap_nil, List.append_nil, List.count_append]
  omega

/-- A section that failed leaves no more claims than there were. -/
lemma Sys.claims_failed {e : Fail} (htrades : s'.trades = σ.state.trades)
    (hth : σ.threads = before ++ ⟨op, task :: rest⟩ :: after) (o : OutPoint) :
    ((σ.advance before after rest ⟨op, task, σ.state, tr, .error e, s'⟩).claims account
      decode).count o ≤ (σ.claims account decode).count o := by
  rw [Sys.claims, Sys.claims, Sys.tasks_advance, Sys.tasks_split hth]
  simp only [Sys.advance, continuation, List.cons_append, List.nil_append, List.flatMap_append,
    List.flatMap_cons, List.count_append, htrades]
  omega

end Run

/-! ## The name outputs of trades -/

/-- A buyer has no name output of its own in the trade, and a seller's is one of ours. -/
def NameOutputs (v : Wallet W) (account : String) (t : TradeState) : Prop :=
  match getOrderType account t with
  | .bid => (t.sellerData.getD {}).nameOutput = none
  | .ask => ∀ out, (t.sellerData.getD {}).nameOutput = some out → v.ours out

lemma NameOutputs.congr {t t' : TradeState} (h : NameOutputs v account t) (hf : Frame t t')
    (hsd : t'.sellerData = t.sellerData) : NameOutputs v account t' := by
  rw [NameOutputs, hf.getOrderType, hsd]
  exact h

lemma nameRule (hw : v.Keeps decode account E) :
    TradeRule cfg E account fun _ t => NameOutputs v account t where
  blank _ := by
    rw [NameOutputs]
    cases getOrderType account {} <;> simp
  new _ o units counterparty now serial _ := by
    rw [NameOutputs]
    cases getOrderType account (newTrade o units counterparty now serial) <;> simp [newTrade]
  later _ _ _ h := h
  receives _ msg t h := by
    have hrec := @handleMessage_spec account msg t
    generalize handleMessage account msg t = t' at hrec
    rcases hrec.sellerData with hsd | ⟨hbid, _, _, n, c, hsd⟩
    · exact h.congr hrec.frame hsd
    · simp [NameOutputs, hrec.frame.getOrderType, hbid, hsd]
  replies _ _ t tr r t' w w' h _ hp hout := by
    cases hout with
    | @sendsSellerData out nameAddress chiAddress _ hask _ =>
        have hask' : getOrderType account
            { t with sellerData := some ⟨some nameAddress, some chiAddress, some out⟩ } = .ask := hask
        obtain ⟨_, hshow, _⟩ := hp
        simp only [NameOutputs, hask', Option.getD_some, Option.some.injEq, forall_eq']
        exact hw.ourName _ _ _ hshow
    | _ => exact h.congr ⟨rfl, rfl, rfl, rfl, rfl⟩ rfl
  updates _ t tr t' h hout := by
    refine h.congr hout.frame ?_
    cases hout <;> rfl

/-- What `HandleFailure` unlocks is what the trade has committed. -/
lemma flatMap_releaseTasks {t : TradeState} (h : NameOutputs v account t) :
    (releaseTasks account t).flatMap (Task.releasing account decode)
      = committed account decode t := by
  rw [NameOutputs] at h
  rw [committed, releaseTasks]
  cases htype : getOrderType account t with
  | ask =>
      cases (t.sellerData.getD {}).nameOutput with
      | none => simp
      | some out => simp [Task.releasing]
  | bid =>
      rw [htype] at h
      dsimp only at h
      rw [h]
      cases hours : t.ourPsbt with
      | none => simp
      | some ours => simp [Task.releasing, hours]

/-! ## The invariant -/

/-- One claim at most on each output of ours, and none on a free one. -/
structure WalletInv (v : Wallet W) (account : String) (decode : String → Psbt) (σ : Sys) (w : W) :
    Prop where
  once : ∀ o, v.ours o → (σ.claims account decode).count o ≤ 1
  held : ∀ o, v.ours o → o ∈ σ.claims account decode → v.Held w o
  others : ∀ t ∈ σ.state.trades, t.counterparty ≠ account

/-- New claims may be made on free outputs, and the others stay held. -/
lemma WalletInv.next {σ σ' : Sys} {w w' : W} (h : WalletInv v account decode σ w)
    (new : List OutPoint)
    (hcount : ∀ o, v.ours o → (σ'.claims account decode).count o
      ≤ (σ.claims account decode).count o + new.count o)
    (honce : ∀ o, v.ours o → new.count o ≤ 1)
    (hfree : ∀ o ∈ new, v.ours o → ¬ v.Held w o ∧ v.Held w' o)
    (hkept : ∀ o, v.ours o → o ∈ σ.claims account decode → o ∈ σ'.claims account decode →
      v.Held w' o)
    (hothers : ∀ t ∈ σ'.state.trades, t.counterparty ≠ account) :
    WalletInv v account decode σ' w' := by
  refine ⟨fun o ho => ?_, fun o ho hm => ?_, hothers⟩
  · have h₁ := hcount o ho
    have h₂ := honce o ho
    by_cases hnew : o ∈ new
    · have hnot : o ∉ σ.claims account decode := fun hm => (hfree o hnew ho).1 (h.held o ho hm)
      rw [List.count_eq_zero.mpr hnot] at h₁
      omega
    · rw [List.count_eq_zero.mpr hnew] at h₁
      have := h.once o ho
      omega
  · by_cases hnew : o ∈ new
    · exact (hfree o hnew ho).2
    · have h₁ := hcount o ho
      have hpos := List.count_pos_iff.mpr hm
      rw [List.count_eq_zero.mpr hnew] at h₁
      exact hkept o ho (List.count_pos_iff.mp (by omega)) hm

/-- The special case without new claims. -/
lemma WalletInv.shrink {σ σ' : Sys} {w w' : W} (h : WalletInv v account decode σ w)
    (hcount : ∀ o, v.ours o → (σ'.claims account decode).count o ≤ (σ.claims account decode).count o)
    (hkept : ∀ o, v.ours o → o ∈ σ.claims account decode → o ∈ σ'.claims account decode →
      v.Held w' o)
    (hothers : ∀ t ∈ σ'.state.trades, t.counterparty ≠ account) :
    WalletInv v account decode σ' w' := by
  have hnew : ∀ o ∈ ([] : List OutPoint), v.ours o → ¬ v.Held w o ∧ v.Held w' o := by simp
  exact h.next [] (by simpa using hcount) (by simp) hnew hkept hothers

/-- Updating trades does not change what they have committed. -/
lemma claimed_updated {us : List (TradeState × TradeState)}
    (hu : ∀ p ∈ us, ∃ tr, Update.Outcome p.1 tr (.ok ()) p.2) (o : OutPoint) :
    claimed account decode (((us.map Prod.snd).filter isFinalised).map Task.handle)
        ((us.map Prod.snd).filter fun t => !isFinalised t) o
      ≤ ((us.map Prod.fst).flatMap (committed account decode)).count o := by
  simp only [claimed]
  induction us with
  | nil => simp
  | cons p us ih =>
      obtain ⟨tr, hp⟩ := hu p (by simp)
      have ih := ih fun q hq => hu q (by simp [hq])
      have hsame : committed account decode p.2 = committed account decode p.1 := hp.committed_eq
      simp only [List.map_cons, List.flatMap_cons, List.count_append]
      cases hfin : isFinalised p.2 with
      | true =>
          have hle : ((Task.handle p.2).releasing account decode).count o
              ≤ (committed account decode p.1).count o := by
            rw [Task.releasing, hsame]
            split
            · simp
            · exact le_rfl
          simp only [List.filter_cons, hfin, Bool.not_true, Bool.false_eq_true, if_true, if_false,
            List.map_cons, List.flatMap_cons, List.count_append]
          omega
      | false =>
          simp only [List.filter_cons, hfin, Bool.not_false, Bool.false_eq_true, if_true, if_false,
            List.flatMap_cons, List.count_append, hsame]
          omega

section Step

variable {σ : Sys} {before after : List Thread} {op : Op} {task : Task} {rest : List Task}
  {tr : Conversation} {s' : State} {w w' : W}

/-- We never trade with ourselves. -/
lemma others_of_section {s : State} {eff : Effect} (hacc : s.account = account)
    (hothers : ∀ t ∈ s.trades, t.counterparty ≠ account)
    (hsec : Section cfg s task tr (.ok eff) s') : ∀ t ∈ s'.trades, t.counterparty ≠ account := by
  intro t ht
  generalize hr : (Except.ok eff : Except Fail Effect) = r at hsec
  cases hsec with
  | idle hs | succeeded _ hs | unsuccessful _ hs =>
      rw [hs.trades] at ht
      exact hothers t ht
  | orderTaken _ _ hother =>
      rcases List.mem_append.mp ht with ht | ht
      · exact hothers t ht
      · rw [List.mem_singleton.mp ht, ← hacc]
        exact hother
  | takeCreated _ hown hout =>
      rcases List.mem_append.mp ht with ht | ht
      · exact hothers t ht
      · rw [List.mem_singleton.mp ht, hout.frame.counterparty, ← hacc]
        exact hown
  | @processed msg before t₀ after tr r t' hs _ _ hout _ =>
      rw [hs] at hothers
      rcases List.mem_append.mp ht with ht | ht
      · exact hothers t (by simp [ht])
      · rcases List.mem_cons.mp ht with rfl | ht
        · rw [hout.frame.counterparty, (@handleMessage_spec s.account msg t₀).frame.counterparty]
          exact hothers t₀ (by simp)
        · exact hothers t (by simp [ht])
  | updated hs hu _ =>
      obtain ⟨hm, _⟩ := List.mem_filter.mp ht
      obtain ⟨p, hp, rfl⟩ := List.mem_map.mp hm
      obtain ⟨_, hout⟩ := hu p hp
      rw [hout.frame.counterparty]
      exact hothers p.1 (by rw [hs]; exact List.mem_map_of_mem hp)
  | updateFailed => simp at hr
  | _ => exact hothers t ht

/-- What a section does to the claims: it makes the claims `new`, on outputs that are free, and an
output that it frees loses a claim. -/
structure ClaimStep (v : Wallet W) (account : String) (decode : String → Psbt) (s s' : State)
    (task : Task) (next : List Task) (w w' : W) (new : List OutPoint) : Prop where
  count : ∀ o, v.ours o → claimed account decode next s'.trades o
    ≤ claimed account decode [task] s.trades o + new.count o
  once : ∀ o, v.ours o → new.count o ≤ 1
  free : ∀ o ∈ new, v.ours o → ¬ v.Held w o ∧ v.Held w' o
  kept : ∀ o, v.ours o → v.Held w o → v.Held w' o ∨
    claimed account decode next s'.trades o < claimed account decode [task] s.trades o

/-- A section that claims nothing new, and after which everything is held as before. -/
lemma ClaimStep.keeps {s : State} {next : List Task}
    (hheld : ∀ o, v.ours o → v.Held w o → v.Held w' o)
    (hcount : ∀ o, claimed account decode next s'.trades o
      ≤ claimed account decode [task] s.trades o) :
    ∃ new, ClaimStep v account decode s s' task next w w' new := by
  refine ⟨[], fun o _ => ?_, fun o _ => ?_, nofun, fun o ho hh => Or.inl (hheld o ho hh)⟩
  · have := hcount o
    omega
  · rw [List.count_nil]
    omega

/-- A section in which one trade is replied to. -/
lemma ClaimStep.of_commits {s : State} {next : List Task} {w₁ : W} {t t' : TradeState}
    (hcommits : Commits v account decode w₁ w' t t')
    (hheld : ∀ o, v.ours o → v.Held w o → v.Held w₁ o)
    (hcount : ∀ o, claimed account decode next s'.trades o + (committed account decode t).count o
      ≤ claimed account decode [task] s.trades o + (committed account decode t').count o) :
    ∃ new, ClaimStep v account decode s s' task next w w' new := by
  obtain ⟨hkept, new, hnew, hfree⟩ := hcommits
  refine ⟨new, fun o ho => ?_, fun o ho => (hnew o ho).1, fun o hm ho => ?_, fun o ho hh => ?_⟩
  · have h₁ := hcount o
    have h₂ := (hnew o ho).2
    omega
  · exact ⟨fun hh => (hfree o hm ho).1 (hheld o ho hh), (hfree o hm ho).2⟩
  · exact Or.inl (hkept o ho (hheld o ho hh))

/-- **What a section that returns does to the claims.** -/
lemma claimStep_of_section {s : State} {eff : Effect} (hw : v.Keeps decode account E)
    (hdec : Decodes decode E) (hcore : BuildsPsbts decode rawTx change E)
    (hacc : s.account = account) (hothers : ∀ t ∈ s.trades, t.counterparty ≠ account)
    (hnames : ∀ t, task = .handle t → NameOutputs v account t)
    (hsec : Section cfg s task tr (.ok eff) s') (hp : E.Path w tr w') :
    ∃ new, ClaimStep v account decode s s' task eff.next w w' new := by
  have quiet : Quiet tr → ∀ o, v.ours o → v.Held w o → v.Held w' o :=
    fun hq o _ => hw.held_of_quiet hp hq
  generalize hr : (Except.ok eff : Except Fail Effect) = r at hsec
  cases hsec with
  | idle hs hq hun hfail =>
      subst hr
      have hup : ∀ x ∈ [task], ¬ x.updating := by
        intro x hx hup
        rw [List.mem_singleton.mp hx] at hup
        obtain ⟨e, he⟩ := hfail hup
        simp at he
      refine ClaimStep.keeps (quiet hq) fun o => ?_
      rw [claimed_of_not_updating hup, claimed_of_not_updating (hun.next eff rfl), hs.trades]
  | @orderTaken order taking msg now _ _ _ =>
      obtain rfl := Except.ok.inj hr
      have hnil : committed account decode (newTrade order taking.units.toInt64
          (msg.counterparty.getD "") now (s.created + 1)) = [] := committed_new _ _ _ _ _
      refine ClaimStep.keeps (quiet (by simp [Ev.quiet])) fun o => ?_
      simp [claimed, Task.releasing, hnil]
  | @takeFailed o units now tr e pb' _ hcheck hown hout hres =>
      rw [hacc] at hout hown
      obtain ⟨w₁, hclock, hp⟩ := hp
      have hpath : E.Path w [⟨.clock, now⟩] w₁ := ⟨w₁, hclock, rfl⟩
      have hcommits := hasReply_commits hw hdec hcore hown hp hout
      rcases hres with ⟨_, rfl⟩ | ⟨c, _, rfl⟩
      · obtain rfl := Except.ok.inj hr
        refine ClaimStep.keeps (fun o ho hh => hcommits.kept o ho ?_) fun o => ?_
        · exact hw.held_of_quiet hpath (by simp [Ev.quiet]) hh
        · simp [claimed, Task.releasing]
      · simp at hr
  | @takeCreated o units now tr reply pb' hcheck hown hout =>
      obtain rfl := Except.ok.inj hr
      rw [hacc] at hout hown
      obtain ⟨w₁, hclock, hp⟩ := hp
      have hpath : E.Path w [⟨.clock, now⟩] w₁ := ⟨w₁, hclock, rfl⟩
      refine ClaimStep.of_commits (hasReply_commits hw hdec hcore hown hp hout)
        (fun o _ => hw.held_of_quiet hpath (by simp [Ev.quiet])) fun o => ?_
      simp [claimed, Task.releasing, committed_new]
  | @processed msg before' t after' tr r t' hs hb hm hout hres =>
      obtain rfl := Except.ok.inj hr
      rw [hacc] at hout
      have hother : (handleMessage account msg t).counterparty ≠ account := by
        rw [(@handleMessage_spec account msg t).frame.counterparty]
        exact hothers t (by simp [hs])
      refine ClaimStep.of_commits (hasReply_commits hw hdec hcore hother hp hout) (fun _ _ hh => hh)
        fun o => ?_
      rw [committed_handleMessage]
      simp only [hs, claimed, Task.releasing, List.flatMap_nil, List.flatMap_append,
        List.flatMap_cons, List.count_nil, List.count_append]
      omega
  | aborted => simp at hr
  | updateFailed => simp at hr
  | @updated _ us hs hu hq =>
      obtain rfl := Except.ok.inj hr
      refine ClaimStep.keeps (quiet hq) fun o => ?_
      rw [hs]
      exact (claimed_updated hu o).trans (Nat.le_add_left _ _)
  | succeeded hst hs hun =>
      obtain rfl := Except.ok.inj hr
      refine ClaimStep.keeps (quiet (by simp)) fun o => ?_
      rw [claimed_of_not_updating (hun.next eff rfl), hs.trades]
      exact Nat.le_add_left _ _
  | @unsuccessful t pre _ hst hs hpre =>
      obtain rfl := Except.ok.inj hr
      have hne : t.getState ≠ .success := by
        rcases hst with hst | hst <;> simp [hst]
      have hrel : (pre ++ releaseTasks s.account t).flatMap (Task.releasing account decode)
          = committed account decode t := by
        rw [hacc, List.flatMap_append, flatMap_releasing hpre, List.nil_append,
          flatMap_releaseTasks (hnames t rfl)]
      refine ClaimStep.keeps (quiet (by simp)) fun o => ?_
      simp [claimed, hrel, Task.releasing, hne, hs.trades]
  | @readInputs t decoded =>
      obtain rfl := Except.ok.inj hr
      obtain rfl : decoded = decode (t.ourPsbt.getD "") := hdec.of_path hp (by simp)
      refine ClaimStep.keeps (quiet (by simp [Ev.quiet])) fun o => ?_
      simp [claimed, List.flatMap_map, Task.releasing]
  | @unlockOutput t out a =>
      obtain rfl := Except.ok.inj hr
      have hcount : ∀ o, claimed account decode [.unlockOutput t out] s'.trades o
          = claimed account decode [] s'.trades o + [out].count o := by
        intro o
        simp only [claimed, List.flatMap_cons, List.flatMap_nil, Task.releasing, List.append_nil,
          List.count_nil]
        omega
      refine ⟨[], fun o _ => ?_, by simp, by simp, fun o ho hheld => ?_⟩
      · rw [hcount]
        exact Nat.le_add_right_of_le (Nat.le_add_right _ _)
      · by_cases hmem : o ∈ [out]
        · -- the claim of this task is gone
          have := List.count_pos_iff.mpr hmem
          rw [hcount]
          right
          show claimed account decode [] s'.trades o < _
          omega
        · have hun : Unlocks [out] [⟨.rpc (.lockunspent true [out]), a⟩] := rfl
          exact Or.inl (hw.held hp (not_unlocks_of_unlocks hun hmem) hheld)

/-- **One section that returns** keeps the invariant. -/
lemma WalletInv.returns {eff : Effect} (h : WalletInv v account decode σ w)
    (hw : v.Keeps decode account E) (hdec : Decodes decode E)
    (hcore : BuildsPsbts decode rawTx change E) (hacc : σ.state.account = account)
    (hnames : ∀ t, σ.Knows t → NameOutputs v account t)
    (hth : σ.threads = before ++ ⟨op, task :: rest⟩ :: after)
    (hsec : Section cfg σ.state task tr (.ok eff) s') (hp : E.Path w tr w') :
    WalletInv v account decode
      (σ.advance before after rest ⟨op, task, σ.state, tr, .ok eff, s'⟩) w' := by
  have hhandled : ∀ t, task = .handle t → NameOutputs v account t := by
    rintro t rfl
    exact hnames t (Or.inr ⟨⟨op, .handle t :: rest⟩, by simp [hth], .handle t, by simp, rfl⟩)
  obtain ⟨new, hstep⟩ := claimStep_of_section hw hdec hcore hacc h.others hhandled hsec hp
  have hbal := fun o =>
    @Sys.claims_advance account decode σ before after op task rest tr s' eff hth o
  refine h.next new (fun o ho => ?_) hstep.once hstep.free (fun o ho hm hm' => ?_)
    (others_of_section hacc h.others hsec)
  · have h₁ := hbal o
    have h₂ := hstep.count o ho
    omega
  · rcases hstep.kept o ho (h.held o ho hm) with hheld | hlt
    · exact hheld
    · -- the only claim would be gone
      have h₁ := hbal o
      have h₂ := h.once o ho
      have h₃ := List.count_pos_iff.mpr hm'
      omega

/-- **One section that throws**, outside of the background jobs. -/
lemma WalletInv.throws (h : WalletInv v account decode σ w) (hw : v.Keeps decode account E)
    (hproper : σ.Proper) (hth : σ.threads = before ++ ⟨op, task :: rest⟩ :: after)
    (hback : op.background = false) (hsec : Section cfg σ.state task tr (.error .exception) s')
    (hp : E.Path w tr w') :
    WalletInv v account decode
      (σ.advance before after rest ⟨op, task, σ.state, tr, .error .exception, s'⟩) w' := by
  have hidle : SameTrades σ.state s' ∧ Quiet tr := by
    cases hsec with
    | idle hs hq => exact ⟨hs, hq⟩
    | takeFailed _ _ _ hres => simp at hres
    | updateFailed _ _ =>
        have : op = .updateTrades :=
          hproper ⟨op, .updateTrades :: rest⟩ (by simp [hth]) .updateTrades (by simp) trivial
        rw [this] at hback
        simp [Op.background] at hback
  refine h.shrink (fun o _ => Sys.claims_failed hidle.1.trades hth o) ?_ ?_
  · exact fun o ho hm _ => hw.held_of_quiet hp hidle.2 (h.held o ho hm)
  · rw [Sys.advance, hidle.1.trades]
    exact h.others

end Step

/-- **The invariant holds in every run** until the process terminates. -/
theorem reachable_walletInv (hw : v.Keeps decode account E) (hdec : Decodes decode E)
    (hcore : BuildsPsbts decode rawTx change E) {x : Sys × W}
    (h : (system cfg E account).Reachable x) :
    x.1.halted = false → WalletInv v account decode x.1 x.2 := by
  refine Transition.System.Reachable.invariant
    (fun x => x.1.halted = false → WalletInv v account decode x.1 x.2) ?_ ?_ h
  · intro x hx _
    have hempty : x.1 = Sys.start account := hx
    rw [hempty]
    have hnil : (Sys.start account).claims account decode = [] := rfl
    exact ⟨by simp [hnil], by simp [hnil], by simp [Sys.start]⟩
  · rintro x l ⟨σ', w'⟩ hr ih ⟨hs, hp⟩ hrun
    have hacc := reachable_account hr
    have hproper := reachable_proper hr
    have hnames : ∀ t, x.1.Knows t → NameOutputs v account t := (nameRule hw).holds hr
    dsimp only at hs hp hrun ⊢
    cases hs with
    | start op hh =>
        have hinv := ih hh
        obtain rfl : w' = x.2 := hp
        refine ⟨?_, ?_, hinv.others⟩
        · rw [Sys.claims_start]
          exact hinv.once
        · rw [Sys.claims_start]
          exact hinv.held
    | @run before after op task rest tr r s' hh hth hx =>
        have hsec := section_of_exec hx
        cases r with
        | ok eff => exact (ih hh).returns hw hdec hcore hacc hnames hth hsec hp
        | error e =>
            cases e with
            | exception => exact (ih hh).throws hw hproper hth hrun hsec hp
            | check c => simp [Sys.advance, halts] at hrun

/-! ## Commitments of active trades -/

/-- The outputs that a trade commits: as seller our name output, as buyer the coins of ours that fund
the transaction. -/
def Commitment (v : Wallet W) (account : String) (decode : String → Psbt) (t : TradeState)
    (o : OutPoint) : Prop :=
  match getOrderType account t with
  | .ask => (t.sellerData.getD {}).nameOutput = some o
  | .bid => ∃ ours, t.ourPsbt = some ours ∧ o ∈ (decode ours).tx.vin ∧ v.ours o

lemma Commitment.mem {t : TradeState} {o : OutPoint} (h : Commitment v account decode t o)
    (hn : NameOutputs v account t) : v.ours o ∧ o ∈ committed account decode t := by
  rw [Commitment] at h
  rw [NameOutputs] at hn
  rw [committed]
  cases htype : getOrderType account t with
  | ask =>
      rw [htype] at h hn
      exact ⟨hn o h, by simpa using h⟩
  | bid =>
      rw [htype] at h
      obtain ⟨ours, hours, hm, ho⟩ := h
      exact ⟨ho, by simpa [hours] using hm⟩

/-- Lists that together have an element at most once do not share it. -/
lemma pairwise_of_count {trades : List TradeState} {o : OutPoint}
    (h : (trades.flatMap (committed account decode)).count o ≤ 1) :
    trades.Pairwise fun t t' => o ∈ committed account decode t → o ∉ committed account decode t' := by
  induction trades with
  | nil => exact .nil
  | cons t rest ih =>
      rw [List.flatMap_cons, List.count_append] at h
      refine .cons (fun t' ht' hm hm' => ?_) (ih (by omega))
      have h₁ := List.count_pos_iff.mpr hm
      have h₂ : 0 < (rest.flatMap (committed account decode)).count o :=
        List.count_pos_iff.mpr (List.mem_flatMap.mpr ⟨t', ht', hm'⟩)
      omega

/-- **No double commitment.**  In every run, as long as the process is there, no two active trades
commit the same output, and every output that one commits is locked in the wallet until it is
spent. -/
theorem no_double_commitment (hw : v.Keeps decode account E) (hdec : Decodes decode E)
    (hcore : BuildsPsbts decode rawTx change E) {x : Sys × W}
    (h : (system cfg E account).Reachable x) (hrun : x.1.halted = false) :
    (x.1.state.trades.Pairwise fun t t' => ∀ o, Commitment v account decode t o →
      ¬ Commitment v account decode t' o) ∧
    ∀ t ∈ x.1.state.trades, ∀ o, Commitment v account decode t o → ¬ v.spent x.2 o →
      v.locked x.2 o := by
  have hinv := reachable_walletInv hw hdec hcore h hrun
  have hnames : ∀ t ∈ x.1.state.trades, NameOutputs v account t :=
    fun t ht => (nameRule hw).holds h t (Or.inl ht)
  constructor
  · refine List.pairwise_iff_getElem.mpr fun i j hi hj hij o hc hc' => ?_
    obtain ⟨ho, hm⟩ := hc.mem (hnames _ (List.getElem_mem hi))
    obtain ⟨_, hm'⟩ := hc'.mem (hnames _ (List.getElem_mem hj))
    have hone : (x.1.state.trades.flatMap (committed account decode)).count o ≤ 1 := by
      have := hinv.once o ho
      rw [Sys.claims, List.count_append] at this
      omega
    exact List.pairwise_iff_getElem.mp (pairwise_of_count hone) i j hi hj hij hm hm'
  · intro t ht o hc hspent
    obtain ⟨ho, hm⟩ := hc.mem (hnames t ht)
    have hclaim : o ∈ x.1.claims account decode :=
      List.mem_append.mpr (Or.inl (List.mem_flatMap.mpr ⟨t, ht, hm⟩))
    exact (hinv.held o ho hclaim).resolve_right hspent

/-! ### A name in a wallet -/

/-- A wallet with one name in it, and no coins.  The world counts the addresses and the minutes, and
holds what is locked. -/
def walletScript (addresses : Bool) (w : ℕ × List OutPoint) :
    (c : Call) → Answer c × (ℕ × List OutPoint)
  | .clock => ((Int64.ofNat (60 * w.1) : Int64), w.1 + 1, w.2)
  | .rpc .getnewaddress =>
      if addresses then
        ((.ok ("address " ++ toString w.1) : Except RpcError String), w.1 + 1, w.2)
      else (.error .exception, w)
  | .rpc (.nameShow name) =>
      ((.ok ⟨if name = "p/seller" then "name" else "other", 0⟩ : Except RpcError OutPoint), w)
  | .rpc (.lockunspent false outs) =>
      if outs.any fun o => w.2.contains o then (.error .exception, w)
      else ((.ok true : Except RpcError Bool), w.1, outs ++ w.2)
  | .rpc (.lockunspent true outs) =>
      ((.ok true : Except RpcError Bool), w.1, w.2.filter fun o => !outs.contains o)
  | .rpc _ => (.error .exception, w)

/-- The wallet of the script. -/
def nameWallet : Wallet (ℕ × List OutPoint) where
  locked w o := o ∈ w.2
  spent _ _ := False
  ours o := o = ⟨"name", 0⟩

section

variable {addresses : Bool}

/-- What the script does to the locks. -/
lemma walletScript_locks (decode : String → Psbt) {w w' : ℕ × List OutPoint} {ev : Ev}
    (he : Env.ofScript (walletScript addresses) w ev w') :
    w'.2 = w.2 ∧ (∀ o, ¬ ev.locks decode o) ∨
    (∃ outs : List OutPoint, (∀ o, ev.locks decode o ↔ o ∈ outs) ∧
      (∀ o ∈ outs, o ∉ w.2) ∧ w'.2 = outs ++ w.2) ∨
    ∃ outs : List OutPoint, (∀ o, ev.unlocks o ↔ o ∈ outs) ∧ (∀ o, ¬ ev.locks decode o) ∧
      w'.2 = w.2.filter fun o => !outs.contains o := by
  obtain ⟨c, a⟩ := ev
  have he : walletScript addresses w c = (a, w') := he
  cases c with
  | clock =>
      obtain ⟨rfl, rfl⟩ := Prod.mk.inj he
      exact Or.inl ⟨rfl, fun _ => id⟩
  | rpc m =>
      cases m with
      | getnewaddress =>
          rw [walletScript] at he
          split_ifs at he
          · obtain ⟨rfl, rfl⟩ := Prod.mk.inj he
            exact Or.inl ⟨rfl, fun _ => id⟩
          · obtain ⟨rfl, rfl⟩ := Prod.mk.inj he
            exact Or.inl ⟨rfl, fun _ => id⟩
      | lockunspent unlock outs =>
          cases unlock with
          | true =>
              obtain ⟨rfl, rfl⟩ := Prod.mk.inj he
              refine Or.inr (Or.inr ⟨outs, fun o => ?_, fun _ => id, rfl⟩)
              exact ⟨fun h => h.2, fun h => ⟨rfl, h⟩⟩
          | false =>
              rw [walletScript] at he
              split_ifs at he with hany
              · obtain ⟨rfl, rfl⟩ := Prod.mk.inj he
                exact Or.inl ⟨rfl, fun _ => id⟩
              · obtain ⟨rfl, rfl⟩ := Prod.mk.inj he
                refine Or.inr (Or.inl ⟨outs, fun o => ⟨fun h => h.2, fun h => ⟨rfl, h⟩⟩, ?_, rfl⟩)
                simpa using hany
      | _ =>
          obtain ⟨rfl, rfl⟩ := Prod.mk.inj he
          exact Or.inl ⟨rfl, fun _ => id⟩

lemma walletScript_keeps (decode : String → Psbt) :
    nameWallet.Keeps decode "seller" (Env.ofScript (walletScript addresses)) where
  spentStays _ _ _ _ _ h := h
  lockStays w ev w' o he hno hl := by
    refine Or.inl ?_
    have hl : o ∈ w.2 := hl
    change o ∈ w'.2
    rcases walletScript_locks decode he with ⟨h, _⟩ | ⟨outs, _, _, h⟩ | ⟨outs, hun, _, h⟩
    · rwa [h]
    · simp [h, hl]
    · rw [hun] at hno
      simp [h, hl, hno]
  locks w ev w' o he hlock := by
    rcases walletScript_locks decode he with ⟨_, hno⟩ | ⟨outs, hiff, hfree, h⟩ | ⟨_, _, hno, _⟩
    · exact absurd hlock (hno o)
    · have hmem := (hiff o).mp hlock
      refine ⟨?_, Or.inl ?_⟩
      · rintro (hl | hs)
        · exact hfree o hmem hl
        · exact hs
      · change o ∈ w'.2
        simp [h, hmem]
    · exact absurd hlock (hno o)
  funds w outputs feeRate psbt w' he := absurd he (not_returned (by rfl))
  ourName w o w' he := (Except.ok.inj (answer_of_returned he)).symm
  theirName w name o w' hne he := by
    have hname : getXayaName name ≠ "p/seller" := by
      intro heq
      have heq : "p/" ++ name = "p/" ++ "seller" := heq
      exact hne ((String.append_right_inj _).mp heq)
    have ho := (Except.ok.inj (answer_of_returned he)).symm
    rw [if_neg hname] at ho
    rw [ho]
    simp [nameWallet]

lemma walletScript_decodes (decode : String → Psbt) :
    Decodes decode (Env.ofScript (walletScript addresses)) := by
  intro w p d w' he
  exact absurd he (not_returned (by rfl))

lemma walletScript_builds (decode : String → Psbt) (rawTx : String → Tx) (change : TxOut → Prop) :
    BuildsPsbts decode rawTx change (Env.ofScript (walletScript addresses)) where
  funds _ _ _ _ _ _ he := absurd he (not_returned (by rfl))
  creates _ _ _ _ _ he := absurd he (not_returned (by rfl))
  names _ _ _ _ _ _ _ _ he := absurd he (not_returned (by rfl))
  joins _ _ _ _ he := absurd he (not_returned (by rfl))
  combines _ _ _ _ he := absurd he (not_returned (by rfl))
  finalises _ _ _ _ he := absurd he (not_returned (by rfl))

end

/-- Taking a buy order commits the name. -/
theorem no_double_commitment_sale : ∃ (x : Sys × (ℕ × List OutPoint)) (t : TradeState),
    (system sampleConfig (Env.ofScript (walletScript true)) "seller").Reachable x ∧
    t ∈ x.1.state.trades ∧ Commitment nameWallet "seller" saleDecode t ⟨"name", 0⟩ ∧
    nameWallet.locked x.2 ⟨"name", 0⟩ := by
  obtain ⟨x, hr, hP⟩ := Sys.exists_reachable sampleConfig (walletScript true) "seller" (0, [])
    [.start (.takeOrder saleOrder 2), .run 0]
    (fun x => !x.1.halted && x.1.state.trades.any fun t => getOrderType "seller" t = .ask &&
      (t.sellerData.getD {}).nameOutput = some ⟨"name", 0⟩) (by decide +kernel)
  simp only [Bool.and_eq_true, Bool.not_eq_true'] at hP
  obtain ⟨t, ht, hprop⟩ := List.any_eq_true.mp hP.2
  simp only [Bool.and_eq_true, decide_eq_true_eq] at hprop
  have hc : Commitment nameWallet "seller" saleDecode t ⟨"name", 0⟩ := by
    rw [Commitment, hprop.1]
    exact hprop.2
  exact ⟨x, t, hr, ht, hc, (no_double_commitment (walletScript_keeps saleDecode)
    (walletScript_decodes saleDecode)
    (walletScript_builds saleDecode (fun _ => (saleDecode "").tx) fun _ => True) hr hP.1).2
      t ht _ hc id⟩

end Democrit
