import Democrit.Locks.Wallet

/-!
# Locks that nobody remembers

Between a lock being taken and the trade remembering it, other calls are made: two addresses are asked
for after the name output has been locked, and three more PSBTs are made, signed and decoded after
the coins have been.  If one of them throws, `ProcessMessage` and `TakeOrder` catch the exception,
and **the lock stays in the wallet with nothing to release it** (`lock_leaked`).

`no_lock_leaks` says that this is the only way: in a run in which no call throws after a lock was taken
in the same section, everything that was ever locked is either claimed, or unlocked, or belongs to a
trade that succeeded.
-/

namespace Democrit

open Interaction

variable {cfg : Config} {W : Type} {v : Wallet W} {account : String} {decode : String → Psbt}
  {rawTx : String → Tx} {change : TxOut → Prop} {E : Env Call Answer W}

/-! ## The condition -/

/-- The exchange took a lock. -/
def Ev.takes : Ev → Bool
  | ⟨.clock, _⟩ => false
  | ⟨.rpc m, a⟩ =>
      match m, a with
      | .lockunspent false _, (.ok b : Except RpcError Bool) => b
      | .walletcreatefundedpsbt _ _, (.ok _ : Except RpcError String) => true
      | _, _ => false

/-- No call throws after a lock was taken. -/
def noThrowAfterLock : Conversation → Bool
  | [] => true
  | ev :: tr => (!ev.takes || tr.all fun ev' => !ev'.throws) && noThrowAfterLock tr

lemma not_endsThrown_of_clean {tr tr' : Conversation} {ev : Ev} (hev : ev.takes = true) :
    noThrowAfterLock (tr ++ ev :: tr') = true → ¬ EndsThrown tr' := by
  induction tr with
  | nil =>
      rintro hclean ⟨ev', hlast, hthrow⟩
      simp only [List.nil_append, noThrowAfterLock, hev, Bool.not_true, Bool.false_or,
        Bool.and_eq_true, List.all_eq_true] at hclean
      have := hclean.1 ev' (List.mem_of_getLast? hlast)
      rw [hthrow] at this
      simp at this
  | cons ev' tr ih =>
      intro hclean
      simp only [List.cons_append, noThrowAfterLock, Bool.and_eq_true] at hclean
      exact ih hclean.2

/-! ## What is assumed of the wallet -/

/-- The locks are this daemon's alone, and unlocking works. -/
structure Wallet.Frees (v : Wallet W) (decode : String → Psbt) (E : Env Call Answer W) : Prop where
  onlyOurs : ∀ w (ev : Ev) w' o, E w ev w' → ¬ ev.locks decode o → v.locked w' o → v.locked w o
  released : ∀ w out a w', E w ⟨.rpc (.lockunspent true [out]), a⟩ w' → v.locked w out →
    ¬ v.locked w' out

lemma Ev.quiet.not_locks {ev : Ev} (h : ev.quiet) (o : OutPoint) : ¬ ev.locks decode o := by
  obtain ⟨c, a⟩ := ev
  cases c with
  | clock => exact id
  | rpc m =>
      cases m with
      | lockunspent unlock outs =>
          cases a with
          | error e => cases unlock <;> exact id
          | ok b =>
              have hb : b = false := h
              cases unlock with
              | true => exact id
              | false =>
                  rintro ⟨hb' : b = true, _⟩
                  rw [hb] at hb'
                  simp at hb'
      | walletcreatefundedpsbt outputs feeRate =>
          cases a with
          | error e => exact id
          | ok psbt => exact h.elim
      | _ => exact id

section Paths

variable {tr : Conversation} {w w' : W} {o : OutPoint}

/-- What is locked now was locked before, if it has not been locked since. -/
lemma Wallet.Frees.locked (h : v.Frees decode E) (hp : E.Path w tr w')
    (hno : ∀ ev ∈ tr, ¬ ev.locks decode o) : v.locked w' o → v.locked w o := by
  refine Env.rel_of_path (T := fun w w' => v.locked w' o → v.locked w o) (fun _ h => h)
    (fun _ _ _ h h' hw => h (h' hw)) ?_ hp hno
  exact fun w ev w' he hev => h.onlyOurs w ev w' o he hev

lemma Wallet.Frees.not_locked (h : v.Frees decode E) {a : Answer (.rpc (.lockunspent true [o]))}
    (he : E w ⟨.rpc (.lockunspent true [o]), a⟩ w') : ¬ v.locked w' o := by
  intro hl
  have hno : ¬ Ev.locks decode o ⟨.rpc (.lockunspent true [o]), a⟩ := by
    cases a <;> exact id
  exact h.released w o a w' he (h.onlyOurs w _ w' o he hno hl) hl

lemma not_locks_of_unlocks {outs : List OutPoint} (h : Unlocks outs tr) :
    ∀ ev ∈ tr, ¬ ev.locks decode o := by
  rintro ⟨c, a⟩ hev
  have hmem : c ∈ tr.map Sigma.fst := List.mem_map_of_mem hev
  rw [show tr.map Sigma.fst = _ from h] at hmem
  obtain ⟨out, _, rfl⟩ := List.mem_map.mp hmem
  cases a <;> exact id

/-- After all the outputs were unlocked, none of them is locked. -/
lemma Wallet.Frees.unlocked (h : v.Frees decode E) :
    ∀ {outs : List OutPoint} {tr : Conversation} {w : W}, Unlocks outs tr → E.Path w tr w' →
      o ∈ outs → ¬ v.locked w' o
  | [], _, _, _, _, ho => by simp at ho
  | out :: outs, [], _, hun, _, _ => by simp [Unlocks] at hun
  | out :: outs, ⟨c, a⟩ :: tr, w, hun, hp, ho => by
      obtain ⟨hc, hrest⟩ : c = .rpc (.lockunspent true [out]) ∧ Unlocks outs tr := by
        simpa [Unlocks] using hun
      subst hc
      obtain ⟨w₁, he, hp⟩ := hp
      by_cases hout : o ∈ outs
      · exact h.unlocked hrest hp hout
      · obtain rfl : o = out := by simpa [hout] using ho
        exact fun hl => h.not_locked he (h.locked hp (not_locks_of_unlocks hrest) hl)

end Paths

/-! ## What `HasReply` locks -/

section

variable {w w' : W} {t t' : TradeState} {tr : Conversation} {o : OutPoint}

lemma not_locks_of_quiet (h : Quiet tr) : ∀ ev ∈ tr, ¬ ev.locks decode o :=
  fun ev hev => (h ev hev).not_locks o

/-- What funding locks, the joined transaction spends. -/
lemma BuildsPsbts.locks (hcore : BuildsPsbts decode rawTx change E) {ck : TradeChecker}
    {nameIn : OutPoint} {total : Amount} {chiPart rawNamePart namePart psbt : String}
    (hp : E.Path w (buildTx cfg ck t nameIn total chiPart rawNamePart namePart psbt) w')
    (ho : o ∉ (decode psbt).tx.vin) :
    ∀ ev ∈ buildTx cfg ck t nameIn total chiPart rawNamePart namePart psbt,
      ¬ ev.locks decode o := by
  have hvin := hcore.vin hp
  intro ev hev
  simp only [buildTx, List.mem_cons, List.not_mem_nil, or_false] at hev
  rcases hev with rfl | rfl | rfl | rfl
  · intro hm
    exact ho (hvin.mem_iff.mpr (List.mem_append.mpr (Or.inl hm)))
  · exact id
  · exact id
  · exact id

/-- The buyer's lock is on record in the trade. -/
lemma BuyerBuilds.locks (hdec : Decodes decode E) (hcore : BuildsPsbts decode rawTx change E)
    {nameIn : OutPoint} {unsignedPsbt signedPsbt : String} (hp : E.Path w tr w')
    (hb : BuyerBuilds cfg account t tr nameIn unsignedPsbt signedPsbt)
    (hf : Frame t t') (hours : t'.ourPsbt = some signedPsbt)
    (ho : o ∉ committed account decode t') : ∀ ev ∈ tr, ¬ ev.locks decode o := by
  obtain ⟨checked, total, chiPart, rawNamePart, namePart, w₁, w₂, hx, _, htr, _, hbuild, _, hsig⟩ :=
    hb.phases hdec hp
  obtain ⟨htx, _⟩ := buyerSignature_ok hsig
  obtain ⟨hq, _⟩ := Act.wp_iff.mp (checkForBuyerTrade_spec _) checked _ _ hx
  have hvin : o ∉ (decode unsignedPsbt).tx.vin := by
    simpa [committed, hf.getOrderType, hb.isBid, hours, htx] using ho
  intro ev hev
  rw [htr] at hev
  rcases List.mem_append.mp hev with hev | hev
  · exact not_locks_of_quiet hq ev hev
  · rcases List.mem_append.mp hev with hev | hev
    · exact hcore.locks hbuild hvin ev hev
    · exact not_locks_of_quiet (by simp [Ev.quiet]) ev hev

/-- A transaction that is given up leaves nothing locked. -/
lemma BuyerReleases.locks (hfree : v.Frees decode E) (hdec : Decodes decode E)
    (hcore : BuildsPsbts decode rawTx change E) (hp : E.Path w tr w')
    (hb : BuyerReleases cfg account t tr) (hl : v.locked w' o) :
    ∀ ev ∈ tr, ¬ ev.locks decode o := by
  obtain ⟨checked, signing, unlocked, nameIn, total, chiPart, rawNamePart, namePart, unsignedPsbt,
    w₁, w₂, w₃, hx, htr, _, hbuild, _, hquiet, hunlock, hun⟩ := hb.phases hdec hp
  obtain ⟨hq, _⟩ := Act.wp_iff.mp (checkForBuyerTrade_spec _) checked _ _ hx
  have hvin : o ∉ (decode unsignedPsbt).tx.vin := fun hm => hfree.unlocked hun hunlock hm hl
  intro ev hev
  rw [htr] at hev
  rcases List.mem_append.mp hev with hev | hev
  · exact not_locks_of_quiet hq ev hev
  · rcases List.mem_append.mp hev with hev | hev
    · exact hcore.locks hbuild hvin ev hev
    · rcases List.mem_append.mp hev with hev | hev
      · exact not_locks_of_quiet hquiet ev hev
      · exact not_locks_of_unlocks hun ev hev

/-- **What a call of `HasReply` locks, the trade remembers**, unless it is unlocked again at once or a
call throws. -/
theorem hasReply_locks (hfree : v.Frees decode E) (hdec : Decodes decode E)
    (hcore : BuildsPsbts decode rawTx change E) {r : Except Fail (Option ProcessingMessage)}
    (hp : E.Path w tr w') (hclean : noThrowAfterLock tr = true)
    (h : HasReply.Outcome cfg account t tr r t') (hr : ∀ c, r ≠ .error (.check c))
    (hl : v.locked w' o) :
    (∀ ev ∈ tr, ¬ ev.locks decode o) ∨
      o ∈ committed account decode t' ∧ ∃ reply, r = .ok reply := by
  have exceptional : ∀ {e : Fail}, r = .error e → e = .exception := by
    rintro e rfl
    cases e with
    | exception => rfl
    | check c => exact absurd rfl (hr c)
  have built : ∀ {nameIn unsignedPsbt signedPsbt},
      BuyerBuilds cfg account t tr nameIn unsignedPsbt signedPsbt → Frame t t' →
      t'.ourPsbt = some signedPsbt →
      (∀ ev ∈ tr, ¬ ev.locks decode o) ∨ o ∈ committed account decode t' := by
    intro nameIn unsignedPsbt signedPsbt hb hf hours
    by_cases ho : o ∈ committed account decode t'
    · exact Or.inr ho
    · exact Or.inl (hb.locks hdec hcore hp hf hours ho)
  have broadcast : ∀ {tr' : Conversation} {hex txid : String}, Quiet tr' →
      ∀ ev ∈ tr' ++ [Ev.returned (.sendrawtransaction hex) txid], ¬ ev.locks decode o := by
    intro tr' hex txid hq ev hev
    rcases List.mem_append.mp hev with hev | hev
    · exact not_locks_of_quiet hq ev hev
    · rw [List.mem_singleton.mp hev]
      exact id
  cases h with
  | rest hq _ => exact Or.inl (not_locks_of_quiet hq)
  | @nameLeaked out tr' e _ _ _ _ hthrown =>
      have htake : Ev.takes (Ev.returned (.lockunspent false [out]) true) = true := rfl
      have hsplit : lockName account out ++ tr'
          = [Ev.returned (.nameShow (getXayaName account)) out]
            ++ Ev.returned (.lockunspent false [out]) true :: tr' := rfl
      rw [hsplit] at hclean
      exact absurd (hthrown (exceptional rfl)) (not_endsThrown_of_clean htake hclean)
  | @sendsSellerData out nameAddress chiAddress _ hask _ =>
      have hask' : getOrderType account
          { t with sellerData := some ⟨some nameAddress, some chiAddress, some out⟩ } = .ask := hask
      by_cases ho : o = out
      · exact Or.inr ⟨by simp [committed, hask', ho], _, rfl⟩
      · left
        intro ev hev
        simp only [lockName, List.cons_append, List.nil_append, List.mem_cons, List.not_mem_nil,
          or_false] at hev
        rcases hev with rfl | rfl | rfl | rfl
        · exact id
        · rintro ⟨_, hm⟩
          exact ho (List.mem_singleton.mp hm)
        · exact id
        · exact id
  | sellerShares _ _ _ hs _ => exact Or.inl (not_locks_of_quiet hs.quiet)
  | sellerKeeps _ _ _ hs _ hq _ =>
      exact Or.inl (not_locks_of_quiet (quiet_append.mpr ⟨hs.quiet, hq⟩))
  | sellerBroadcasts _ _ _ hs _ hfin =>
      left
      rw [← List.append_assoc]
      exact broadcast (quiet_append.mpr ⟨hs.quiet, hfin.quiet⟩)
  | coinsLeaked _ _ _ _ _ hthrown =>
      exact absurd (hthrown (exceptional rfl)) (not_endsThrown_of_clean (by rfl) hclean)
  | coinsReleased _ _ hb => exact Or.inl (hb.locks hfree hdec hcore hp hl)
  | buyerOffers _ _ hb _ =>
      exact (built hb ⟨rfl, rfl, rfl, rfl, rfl⟩ rfl).imp_right fun ho => ⟨ho, _, rfl⟩
  | buyerShares _ _ hb _ =>
      exact (built hb ⟨rfl, rfl, rfl, rfl, rfl⟩ rfl).imp_right fun ho => ⟨ho, _, rfl⟩
  | shares => exact Or.inl (by simp)
  | broadcasts _ _ _ _ hfin => exact Or.inl (broadcast hfin.quiet)

/-- A trade forgets nothing that it has committed. -/
lemma committed_grows {r : Except Fail (Option ProcessingMessage)}
    (h : HasReply.Outcome cfg account t tr r t') (ho : o ∈ committed account decode t) :
    o ∈ committed account decode t' := by
  have none : ∀ {l : List OutPoint}, committed account decode t = [] → o ∈ l := by
    intro l hnil
    rw [hnil] at ho
    simp at ho
  have signed : ∀ {tr' psbt} (st : Option TradeStatus), SellerSigns cfg account t tr' psbt →
      o ∈ committed account decode { t with ourPsbt := some psbt, state := st } := by
    intro tr' psbt st hs
    have hask : getOrderType account { t with ourPsbt := some psbt, state := st } = .ask := hs.isAsk
    simpa [committed, hask, hs.isAsk] using ho
  cases h with
  | sendsSellerData _ hask hnone => exact none (by simp [committed, hask, hnone])
  | sellerShares _ _ _ hs _ => exact signed _ hs
  | sellerKeeps _ _ _ hs _ _ _ => exact signed _ hs
  | sellerBroadcasts _ _ _ hs _ _ => exact signed _ hs
  | buyerOffers _ _ hb _ => exact none (by simp [committed, hb.isBid, hb.fresh])
  | buyerShares _ _ hb _ => exact none (by simp [committed, hb.isBid, hb.fresh])
  | _ =>
      rw [committed_congr ⟨rfl, rfl, rfl, rfl, rfl⟩ rfl rfl]
      exact ho

end

/-! ## The invariant -/

section

variable (account : String) (decode : String → Psbt)

/-- The daemon has locked `o` at some point. -/
def Taken (log : List Record) (o : OutPoint) : Prop :=
  ∃ rec ∈ log, ∃ ev ∈ rec.talk, ev.locks decode o

/-- The output belongs to a trade that succeeded. -/
def Sys.Kept (σ : Sys) (o : OutPoint) : Prop :=
  ∃ t : TradeState, t.getState = .success ∧ o ∈ committed account decode t ∧
    (.handle t ∈ σ.tasks ∨ ∃ rec ∈ σ.log, rec.task = .handle t)

/-- Somebody is to unlock the output, or it was given away. -/
def Sys.Accounted (σ : Sys) (o : OutPoint) : Prop :=
  o ∈ σ.claims account decode ∨ σ.Kept account decode o

end

variable {σ : Sys} {before after : List Thread} {op : Op} {task : Task} {rest : List Task}
  {tr : Conversation} {s' : State} {w w' : W} {o : OutPoint}

lemma mem_claims : o ∈ σ.claims account decode ↔
    (∃ t ∈ σ.state.trades, o ∈ committed account decode t) ∨
      ∃ x ∈ σ.tasks, o ∈ x.releasing account decode := by
  simp [Sys.claims]

/-- What `HandleFailure` has to do covers what the trade has committed. -/
lemma mem_releaseTasks {t : TradeState} (h : o ∈ committed account decode t) :
    ∃ x ∈ releaseTasks account t, o ∈ x.releasing account decode := by
  rw [committed] at h
  cases htype : getOrderType account t with
  | ask =>
      rw [htype] at h
      have hout : (t.sellerData.getD {}).nameOutput = some o := by simpa using h
      exact ⟨.unlockOutput t o, by simp [releaseTasks, hout], by simp [Task.releasing]⟩
  | bid =>
      rw [htype] at h
      cases hours : t.ourPsbt with
      | none => simp [hours] at h
      | some ours =>
          refine ⟨.readInputs t, by simp [releaseTasks, htype, hours], ?_⟩
          simpa [Task.releasing, hours] using h

/-- What becomes of an accounted output in a section: it is enough to look at the task and at the
trades. -/
lemma Sys.Accounted.advance {r : Except Fail Effect}
    (hth : σ.threads = before ++ ⟨op, task :: rest⟩ :: after)
    (hrest : ∀ x ∈ rest, x ∈ continuation rest r ∨ ¬ x.updating)
    (htask : o ∈ task.releasing account decode → (σ.advance before after rest
      ⟨op, task, σ.state, tr, r, s'⟩).Accounted account decode o)
    (htrades : ∀ t ∈ σ.state.trades, o ∈ committed account decode t → (σ.advance before after rest
      ⟨op, task, σ.state, tr, r, s'⟩).Accounted account decode o)
    (h : σ.Accounted account decode o) :
    (σ.advance before after rest ⟨op, task, σ.state, tr, r, s'⟩).Accounted account decode o := by
  -- the tasks of the other threads, and the rest of this one's, are still to be done
  have stays : ∀ x ∈ σ.tasks, x.updating → x = task ∨
      x ∈ (σ.advance before after rest ⟨op, task, σ.state, tr, r, s'⟩).tasks := by
    intro x hx hup
    rw [Sys.tasks_split hth] at hx
    rw [Sys.tasks_advance]
    simp only [List.cons_append, List.mem_append, List.mem_cons] at hx ⊢
    rcases hx with hx | rfl | hx | hx
    · exact Or.inr (Or.inl hx)
    · exact Or.inl rfl
    · rcases hrest x hx with hx | hno
      · exact Or.inr (Or.inr (Or.inl hx))
      · exact absurd hup hno
    · exact Or.inr (Or.inr (Or.inr hx))
  rcases h with h | ⟨t, hst, ho, ht⟩
  · rcases mem_claims.mp h with ⟨t, ht, ho⟩ | ⟨x, hx, ho⟩
    · exact htrades t ht ho
    · have hup : x.updating := by
        by_contra hup
        rw [releasing_of_not_updating hup] at ho
        simp at ho
      rcases stays x hx hup with rfl | hx
      · exact htask ho
      · exact Or.inl (mem_claims.mpr (Or.inr ⟨x, hx, ho⟩))
  · refine Or.inr ⟨t, hst, ho, ?_⟩
    rcases ht with ht | ⟨rec, hrec, htask⟩
    · rcases stays _ ht trivial with heq | ht
      · exact Or.inr ⟨⟨op, task, σ.state, tr, r, s'⟩, by simp [Sys.advance], heq.symm⟩
      · exact Or.inl ht
    · exact Or.inr ⟨rec, by simp [Sys.advance, hrec], htask⟩

section Step

lemma accounted_of_trade {t : TradeState} (ht : t ∈ σ.state.trades)
    (ho : o ∈ committed account decode t) : σ.Accounted account decode o :=
  Or.inl (mem_claims.mpr (Or.inl ⟨t, ht, ho⟩))

/-- **After a section that returned**, what stays locked stays accounted for. -/
lemma Sys.Accounted.returns {eff : Effect} (h : σ.Accounted account decode o)
    (hfree : v.Frees decode E) (hdec : Decodes decode E) (hacc : σ.state.account = account)
    (hth : σ.threads = before ++ ⟨op, task :: rest⟩ :: after)
    (hsec : Section cfg σ.state task tr (.ok eff) s') (hp : E.Path w tr w') (hl : v.locked w' o) :
    (σ.advance before after rest
      ⟨op, task, σ.state, tr, .ok eff, s'⟩).Accounted account decode o := by
  set σ' := σ.advance before after rest ⟨op, task, σ.state, tr, .ok eff, s'⟩ with hσ'
  have hnext : ∀ x ∈ eff.next, x ∈ σ'.tasks := by
    intro x hx
    rw [hσ', Sys.tasks_advance]
    simp [continuation, hx]
  have hrest : ∀ x ∈ rest, x ∈ continuation rest (.ok eff) ∨ ¬ x.updating :=
    fun x hx => Or.inl (by simp [continuation, hx])
  have hactive : ∀ t ∈ s'.trades, o ∈ committed account decode t → σ'.Accounted account decode o :=
    fun t ht ho => accounted_of_trade ht ho
  have hsame : s'.trades = σ.state.trades → ∀ t ∈ σ.state.trades, o ∈ committed account decode t →
      σ'.Accounted account decode o := fun hs t ht => hactive t (by rwa [hs])
  have plain : ¬ task.updating → o ∈ task.releasing account decode →
      σ'.Accounted account decode o := by
    intro hup ho
    rw [releasing_of_not_updating hup] at ho
    simp at ho
  generalize hr : (Except.ok eff : Except Fail Effect) = r at hsec
  cases hsec with
  | idle hs _ _ hfail =>
      have hup : ¬ task.updating := by
        intro hup
        obtain ⟨e, he⟩ := hfail hup
        rw [he] at hr
        cases hr
      exact h.advance hth hrest (plain hup) (hsame hs.trades)
  | orderTaken | takeCreated =>
      exact h.advance hth hrest (plain id) fun t ht => hactive t (List.mem_append_left _ ht)
  | takeFailed => exact h.advance hth hrest (plain id) (hsame rfl)
  | @processed msg before' t after' tr r t' hs _ _ hout _ =>
      rw [hacc] at hout
      refine h.advance hth hrest (plain id) fun t₁ ht ho => ?_
      rw [hs] at ht
      rcases List.mem_append.mp ht with ht | ht
      · exact hactive t₁ (by simp [ht]) ho
      · rcases List.mem_cons.mp ht with rfl | ht
        · rw [← committed_handleMessage msg] at ho
          exact hactive t' (by simp) (committed_grows hout ho)
        · exact hactive t₁ (by simp [ht]) ho
  | aborted => simp at hr
  | updateFailed => simp at hr
  | @updated _ us hs hu _ =>
      obtain rfl := Except.ok.inj hr
      refine h.advance hth hrest (by simp [Task.releasing]) fun t ht ho => ?_
      rw [hs] at ht
      obtain ⟨p, hp', rfl⟩ := List.mem_map.mp ht
      obtain ⟨_, hout⟩ := hu p hp'
      rw [← hout.committed_eq] at ho
      have hmem : p.2 ∈ us.map Prod.snd := List.mem_map_of_mem hp'
      cases hfin : isFinalised p.2 with
      | false => exact hactive p.2 (List.mem_filter.mpr ⟨hmem, by simp [hfin]⟩) ho
      | true =>
          have htask : Task.handle p.2 ∈ σ'.tasks :=
            hnext _ (List.mem_map_of_mem (List.mem_filter.mpr ⟨hmem, hfin⟩))
          by_cases hst : p.2.getState = .success
          · exact Or.inr ⟨p.2, hst, ho, Or.inl htask⟩
          · exact Or.inl (mem_claims.mpr (Or.inr ⟨_, htask, by simpa [Task.releasing, hst] using ho⟩))
  | succeeded hst hs _ =>
      refine h.advance hth hrest ?_ (hsame hs.trades)
      simp [Task.releasing, hst]
  | @unsuccessful t pre _ hst hs hpre =>
      obtain rfl := Except.ok.inj hr
      refine h.advance hth hrest (fun ho => ?_) (hsame hs.trades)
      have hne : t.getState ≠ .success := by
        rcases hst with hst | hst <;> simp [hst]
      rw [Task.releasing, if_neg hne] at ho
      obtain ⟨x, hx, ho⟩ := mem_releaseTasks ho
      exact Or.inl (mem_claims.mpr (Or.inr ⟨x, hnext x (by simp [hacc, hx]), ho⟩))
  | @readInputs t decoded =>
      obtain rfl := Except.ok.inj hr
      obtain rfl : decoded = decode (t.ourPsbt.getD "") := hdec.of_path hp (by simp)
      refine h.advance hth hrest (fun ho => ?_) (hsame rfl)
      exact Or.inl (mem_claims.mpr (Or.inr
        ⟨.unlockOutput t o, hnext _ (List.mem_map_of_mem ho), by simp [Task.releasing]⟩))
  | @unlockOutput t out a =>
      have hun : Unlocks [out] [⟨.rpc (.lockunspent true [out]), a⟩] := rfl
      refine h.advance hth hrest (fun ho => ?_) (hsame rfl)
      exact absurd hl (hfree.unlocked hun hp ho)

/-- **What a section locks** that returns, and in which no call throws after a lock was taken, is
committed by a trade. -/
lemma committed_of_locks {s : State} {eff : Effect} (hfree : v.Frees decode E)
    (hdec : Decodes decode E) (hcore : BuildsPsbts decode rawTx change E)
    (hacc : s.account = account) (hsec : Section cfg s task tr (.ok eff) s') (hp : E.Path w tr w')
    (hclean : noThrowAfterLock tr = true) (hl : v.locked w' o) :
    (∀ ev ∈ tr, ¬ ev.locks decode o) ∨ ∃ t ∈ s'.trades, o ∈ committed account decode t := by
  have clocked : ∀ {now : Answer .clock} {tr' : Conversation}, (∀ ev ∈ tr', ¬ ev.locks decode o) →
      ∀ ev ∈ (⟨.clock, now⟩ :: tr' : Conversation), ¬ ev.locks decode o := by
    intro now tr' hno ev hev
    rcases List.mem_cons.mp hev with rfl | hev
    · exact id
    · exact hno ev hev
  generalize hr : (Except.ok eff : Except Fail Effect) = r at hsec
  cases hsec with
  | idle _ hq => exact Or.inl (not_locks_of_quiet hq)
  | updated _ _ hq => exact Or.inl (not_locks_of_quiet hq)
  | orderTaken | readInputs => exact Or.inl (not_locks_of_quiet (by simp [Ev.quiet]))
  | succeeded | unsuccessful => exact Or.inl (by simp)
  | @unlockOutput t out a =>
      have hun : Unlocks [out] [⟨.rpc (.lockunspent true [out]), a⟩] := rfl
      exact Or.inl (not_locks_of_unlocks hun)
  | aborted => simp at hr
  | updateFailed => simp at hr
  | takeFailed _ _ hout hres =>
      rcases hres with ⟨rfl, _⟩ | ⟨c, _, rfl⟩
      · obtain ⟨w₁, _, hp⟩ := hp
        simp only [noThrowAfterLock, Bool.and_eq_true] at hclean
        rcases hasReply_locks hfree hdec hcore hp hclean.2 hout (by simp) hl with hno | ⟨_, _, hok⟩
        · exact Or.inl (clocked hno)
        · simp at hok
      · simp at hr
  | takeCreated _ _ hout =>
      rw [hacc] at hout
      obtain ⟨w₁, _, hp⟩ := hp
      simp only [noThrowAfterLock, Bool.and_eq_true] at hclean
      rcases hasReply_locks hfree hdec hcore hp hclean.2 hout (by simp) hl with hno | ⟨ho, _⟩
      · exact Or.inl (clocked hno)
      · exact Or.inr ⟨_, List.mem_append_right _ (List.mem_singleton_self _), ho⟩
  | processed hs _ _ hout hres =>
      rw [hacc] at hout
      rcases hasReply_locks hfree hdec hcore hp hclean hout hres hl with hno | ⟨ho, _⟩
      · exact Or.inl hno
      · exact Or.inr ⟨_, List.mem_append_right _ List.mem_cons_self, ho⟩

/-- **One section that throws**, outside of the background jobs. -/
lemma accounted_throws (hproper : σ.Proper)
    (hth : σ.threads = before ++ ⟨op, task :: rest⟩ :: after) (hback : op.background = false)
    (hsec : Section cfg σ.state task tr (.error .exception) s') :
    (σ.Accounted account decode o → (σ.advance before after rest
      ⟨op, task, σ.state, tr, .error .exception, s'⟩).Accounted account decode o) ∧
    ∀ ev ∈ tr, ¬ ev.locks decode o := by
  have hother : ∀ x ∈ task :: rest, ¬ x.updating := by
    intro x hx hup
    have : op = .updateTrades := hproper ⟨op, task :: rest⟩ (by simp [hth]) x hx hup
    rw [this] at hback
    simp [Op.background] at hback
  have hidle : SameTrades σ.state s' ∧ Quiet tr := by
    cases hsec with
    | idle hs hq => exact ⟨hs, hq⟩
    | takeFailed _ _ _ hres => simp at hres
    | updateFailed _ _ => exact absurd trivial (hother .updateTrades (by simp))
  refine ⟨fun h => h.advance hth (fun x hx => Or.inr (hother x (by simp [hx]))) ?_ ?_,
    not_locks_of_quiet hidle.2⟩
  · rw [releasing_of_not_updating (hother task (by simp))]
    simp
  · intro t ht ho
    exact accounted_of_trade (by simpa [Sys.advance, hidle.1.trades] using ht) ho

end Step

/-- **The invariant holds in every run** in which no call throws after a lock was taken. -/
theorem reachable_accounted (hfree : v.Frees decode E) (hdec : Decodes decode E)
    (hcore : BuildsPsbts decode rawTx change E) {x : Sys × W}
    (h : ((system cfg E account).restrict fun _ l => noThrowAfterLock l.talk = true).Reachable x) :
    x.1.halted = false → ∀ o, Taken decode x.1.log o → v.locked x.2 o →
      x.1.Accounted account decode o := by
  refine Transition.System.Reachable.invariant (fun x => x.1.halted = false → ∀ o,
    Taken decode x.1.log o → v.locked x.2 o → x.1.Accounted account decode o) ?_ ?_ h
  · rintro x hx _ o ⟨rec, hrec, _⟩ _
    have hempty : x.1 = Sys.start account := hx
    rw [hempty] at hrec
    simp [Sys.start] at hrec
  · rintro x l ⟨σ', w'⟩ hr ih ⟨⟨hs, hp⟩, hclean⟩ hrun o htaken hl
    have hacc := reachable_account hr.of_restrict
    have hproper := reachable_proper hr.of_restrict
    dsimp only at hs hp hrun htaken hl ⊢
    cases hs with
    | start op hh =>
        obtain rfl : w' = x.2 := hp
        rcases ih hh o htaken hl with hc | ⟨t, hst, ho, ht⟩
        · left
          rw [Sys.claims_start]
          exact hc
        · refine Or.inr ⟨t, hst, ho, ?_⟩
          rw [Sys.tasks_start]
          exact ht.imp_left fun ht => List.mem_append.mpr (Or.inl ht)
    | @run before after op task rest tr r s' hh hth hx =>
        have hsec := section_of_exec hx
        -- either the section locked the output, or it was locked before
        have hstep : (∀ ev ∈ tr, ¬ ev.locks decode o) → x.1.Accounted account decode o := by
          intro hno
          refine ih hh o ?_ (hfree.locked hp hno hl)
          obtain ⟨rec, hrec, ev, hev, hlock⟩ := htaken
          rcases List.mem_append.mp hrec with hrec | hrec
          · exact ⟨rec, hrec, ev, hev, hlock⟩
          · rw [List.mem_singleton.mp hrec] at hev
            exact absurd hlock (hno ev hev)
        cases r with
        | ok eff =>
            rcases committed_of_locks hfree hdec hcore hacc hsec hp hclean hl with hno | ⟨t, ht, ho⟩
            · exact (hstep hno).returns hfree hdec hacc hth hsec hp hl
            · exact accounted_of_trade ht ho
        | error e =>
            cases e with
            | exception =>
                obtain ⟨hkeep, hno⟩ := accounted_throws hproper hth hrun hsec
                exact hkeep (hstep hno)
            | check c => simp [Sys.advance, halts] at hrun

/-- **No lock leaks** in a run in which no call throws after a lock was taken in the same section:
when no trade is active and none is being handled any more, whatever the daemon has locked and is
locked still belongs to a trade that succeeded. -/
theorem no_lock_leaks (hfree : v.Frees decode E) (hdec : Decodes decode E)
    (hcore : BuildsPsbts decode rawTx change E) {x : Sys × W}
    (h : ((system cfg E account).restrict fun _ l => noThrowAfterLock l.talk = true).Reachable x)
    (hrun : x.1.halted = false) (hnone : x.1.state.trades = [])
    (hhandled : ∀ t, ¬ x.1.Settling t) :
    ∀ o, Taken decode x.1.log o → v.locked x.2 o →
      ∃ t : TradeState, t.getState = .success ∧ o ∈ committed account decode t ∧
        ∃ rec ∈ x.1.log, rec.task = .handle t := by
  intro o htaken hl
  rcases reachable_accounted hfree hdec hcore h hrun o htaken hl with hc | ⟨t, hst, ho, ht⟩
  · rcases mem_claims.mp hc with ⟨t, ht, _⟩ | ⟨x', hx', ho⟩
    · rw [hnone] at ht
      simp at ht
    · obtain ⟨th, hth, hx'⟩ := List.mem_flatMap.mp hx'
      cases hsub : x'.subject with
      | some t => exact absurd ⟨th, hth, x', hx', hsub⟩ (hhandled t)
      | none => cases x' <;> simp [Task.releasing, Task.subject] at ho hsub
  · rcases ht with ht | ht
    · obtain ⟨th, hth, hx'⟩ := List.mem_flatMap.mp ht
      exact absurd ⟨th, hth, _, hx', rfl⟩ (hhandled t)
    · exact ⟨t, hst, ho, ht⟩

/-! ### The lock of the name output -/

/-- The outputs that the exchange locked, as a list. -/
def Ev.lockedOutputs (decode : String → Psbt) : Ev → List OutPoint
  | ⟨.clock, _⟩ => []
  | ⟨.rpc m, a⟩ =>
      match m, a with
      | .lockunspent false outs, (.ok b : Except RpcError Bool) => if b then outs else []
      | .walletcreatefundedpsbt _ _, (.ok psbt : Except RpcError String) => (decode psbt).tx.vin
      | _, _ => []

lemma Ev.locks_of_mem {ev : Ev} (h : o ∈ ev.lockedOutputs decode) : ev.locks decode o := by
  obtain ⟨c, a⟩ := ev
  cases c with
  | clock => simp [lockedOutputs] at h
  | rpc m =>
      cases m with
      | lockunspent unlock outs =>
          cases a with
          | error e => cases unlock <;> simp [lockedOutputs] at h
          | ok b =>
              cases unlock with
              | true => simp [lockedOutputs] at h
              | false =>
                  have hlocked : ∀ b : Bool, o ∈ (if b then outs else []) → b = true ∧ o ∈ outs := by
                    simp
                  exact hlocked b h
      | walletcreatefundedpsbt outputs feeRate =>
          cases a with
          | error e => simp [lockedOutputs] at h
          | ok psbt => exact h
      | _ => simp [lockedOutputs] at h

lemma taken_of_any {log : List Record} (h : log.any (fun rec => rec.talk.any fun ev =>
    (ev.lockedOutputs decode).contains o) = true) : Taken decode log o := by
  obtain ⟨rec, hrec, hev⟩ := List.any_eq_true.mp h
  obtain ⟨ev, hev, ho⟩ := List.any_eq_true.mp hev
  exact ⟨rec, hrec, ev, hev, Ev.locks_of_mem (by simpa using ho)⟩

/-- Nothing is being handled. -/
def Sys.settled (σ : Sys) : Bool :=
  σ.threads.all fun th => th.tasks.all fun x => x.subject.isNone

lemma Sys.not_settling (h : σ.settled = true) (t : TradeState) : ¬ σ.Settling t := by
  rintro ⟨th, hth, x, hx, hsub⟩
  have := List.all_eq_true.mp (List.all_eq_true.mp h th hth) x hx
  rw [hsub] at this
  simp at this

lemma walletScript_frees {addresses : Bool} :
    nameWallet.Frees decode (Env.ofScript (walletScript addresses)) where
  onlyOurs w ev w' o he hno hl := by
    have hl : o ∈ w'.2 := hl
    change o ∈ w.2
    rcases walletScript_locks decode he with ⟨h, _⟩ | ⟨outs, hiff, _, h⟩ | ⟨outs, _, _, h⟩
    · rwa [h] at hl
    · rw [h] at hl
      exact (List.mem_append.mp hl).resolve_left fun hm => hno ((hiff o).mpr hm)
    · rw [h] at hl
      exact (List.mem_filter.mp hl).1
  released w out a w' he _ hl := by
    obtain ⟨rfl, rfl⟩ := Prod.mk.inj (show walletScript addresses w _ = (a, w') from he)
    have hl : out ∈ w.2.filter fun o => !(List.contains [out] o) := hl
    simp at hl

/-- **The lock is leaked when `getnewaddress` throws.**  We take a buy order: our name output gets
locked, there is no trade, and nothing is left to do. -/
theorem lock_leaked : ∃ x : Sys × (ℕ × List OutPoint),
    (system sampleConfig (Env.ofScript (walletScript false)) "seller").Reachable x ∧
    x.1.halted = false ∧ x.1.state.trades = [] ∧ (∀ t, ¬ x.1.Settling t) ∧
    Taken saleDecode x.1.log ⟨"name", 0⟩ ∧ nameWallet.locked x.2 ⟨"name", 0⟩ ∧
    ¬ ∃ t : TradeState, t.getState = .success ∧ ⟨"name", 0⟩ ∈ committed "seller" saleDecode t ∧
      ∃ rec ∈ x.1.log, rec.task = .handle t := by
  obtain ⟨x, hr, hP⟩ := Sys.exists_reachable sampleConfig (walletScript false) "seller" (0, [])
    [.start (.takeOrder saleOrder 2), .run 0]
    (fun x => (!x.1.halted && x.1.state.trades.isEmpty && x.1.settled
      && x.1.log.all fun rec => rec.task.subject.isNone)
      && ((x.1.log.any fun rec => rec.talk.any fun ev =>
        (ev.lockedOutputs saleDecode).contains ⟨"name", 0⟩)
      && x.2.2.contains ⟨"name", 0⟩)) (by decide +kernel)
  simp only [Bool.and_eq_true, Bool.not_eq_true', List.isEmpty_iff, List.contains_iff_mem] at hP
  obtain ⟨⟨⟨⟨hrun, hnone⟩, hsettled⟩, hlog⟩, htaken, hlocked⟩ := hP
  refine ⟨x, hr, hrun, hnone, Sys.not_settling hsettled, taken_of_any htaken, hlocked, ?_⟩
  rintro ⟨t, _, _, rec, hrec, htask⟩
  have := List.all_eq_true.mp hlog rec hrec
  rw [htask] at this
  simp [Task.subject] at this

/-- The trade is abandoned, and its lock is released. -/
theorem no_lock_leaks_abandoned : ∃ x : Sys × (ℕ × List OutPoint),
    ((system sampleConfig (Env.ofScript (walletScript true)) "seller").restrict
      fun _ l => noThrowAfterLock l.talk = true).Reachable x ∧
    Taken saleDecode x.1.log ⟨"name", 0⟩ ∧
    ∀ o, Taken saleDecode x.1.log o → nameWallet.locked x.2 o →
      ∃ t : TradeState, t.getState = .success ∧ o ∈ committed "seller" saleDecode t ∧
        ∃ rec ∈ x.1.log, rec.task = .handle t := by
  obtain ⟨x, hr, hP⟩ := Sys.exists_restricted sampleConfig (walletScript true) "seller" (0, [])
    [.start (.takeOrder saleOrder 2), .run 0, .start .updateTrades, .run 1, .run 1, .run 1]
    (fun l => noThrowAfterLock l.talk) (fun _ l => noThrowAfterLock l.talk = true)
    (fun _ _ _ _ h => h)
    (fun x => (!x.1.halted && x.1.state.trades.isEmpty && x.1.settled)
      && x.1.log.any fun rec => rec.talk.any fun ev =>
        (ev.lockedOutputs saleDecode).contains ⟨"name", 0⟩) (by decide +kernel)
  simp only [Bool.and_eq_true, Bool.not_eq_true', List.isEmpty_iff] at hP
  obtain ⟨⟨⟨hrun, hnone⟩, hsettled⟩, htaken⟩ := hP
  exact ⟨x, hr, taken_of_any htaken, no_lock_leaks walletScript_frees (walletScript_decodes saleDecode)
    (walletScript_builds saleDecode (fun _ => (saleDecode "").tx) fun _ => True) hr hrun hnone
    (Sys.not_settling hsettled)⟩

end Democrit
