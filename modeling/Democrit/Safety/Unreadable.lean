import Democrit.Safety.Totals

/-!
# What a PSBT can do to the seller

The seller decodes a PSBT that the counterparty made up, and asserts of every name operation in it
that it has a name and a value.  The reason given is that the consensus only allows valid UTF-8; but
the transaction is not on any chain, and nobody has validated it.

`psbt_aborts_iff` says when this matters.  The message is survived **exactly if the PSBT that gets
looked at is readable**: the assertions that can fail are the one on the fields of a name operation,
and the one on the amount of an output that pays to our address.  `unreadable_name_abort` is a run in
which the daemon ends like that.
-/

namespace Democrit

open Interaction

variable {cfg : Config} {account : String} {u : Unit}

/-! ## Processing a trade -/

/-- The assertions in `CheckForSellerOutputs`, besides those on the shape of what `decodepsbt`
returns. -/
def outputsChecks : List Check :=
  [.sellerAddresses, .unitsPositive, .totalNonNegative, .nameEncoding, .nameOpFields, .nameOpNull,
    .outputValue]

/-- How `CheckForSellerOutputs` can fail, with the addresses there. -/
lemma checkForSellerOutputs_checks (ck : TradeChecker) (psbt : String) {sd : SellerData}
    (hsd : sd.chiAddress.isSome ∧ sd.nameAddress.isSome) :
    (ck.checkForSellerOutputs cfg psbt sd).wp u fun tr r _ =>
      ∀ c ∈ outputsChecks, r = .error (.check c) →
        ∃ d, tr = [Ev.returned (.decodepsbt psbt) d] ∧ sellerOutputs cfg ck sd d = .error c := by
  simp only [TradeChecker.checkForSellerOutputs, Act.wp_bind, wp_check, wp_rpc, Act.afterBind_ok,
    Act.afterBind_error, wp_judge, hsd, Bool.and_self, true_imp_iff]
  refine ⟨⟨fun d => ⟨by simp, fun c hc c' _ hr => ⟨d, rfl, ?_⟩⟩, by simp, ?_⟩, by simp⟩
  · obtain rfl := Fail.check.inj (Except.error.inj hr)
    exact hc
  · intro c hc hr
    obtain rfl := Fail.check.inj (Except.error.inj hr)
    simp [outputsChecks] at hc

/-- How the seller's part can fail. -/
lemma signAsSeller_checks {pb : TradeState} (hsd : (pb.sellerData.getD {}).chiAddress.isSome ∧
    (pb.sellerData.getD {}).nameAddress.isSome) :
    (signAsSeller cfg account).wp pb fun tr r _ => ∀ c ∈ outputsChecks, r = .error (.check c) →
      ∃ d, tr = [Ev.returned (.decodepsbt (pb.theirPsbt.getD "")) d] ∧
        sellerOutputs cfg (buildTradeChecker account pb) (pb.sellerData.getD {}) d = .error c := by
  simp only [signAsSeller, Act.wp_bind, Act.wp_read, Act.afterBind_ok, Act.wp_monadLift]
  refine Act.wp_mono (checkForSellerOutputs_checks _ _ hsd) fun tr r _ h => ?_
  cases r with
  | error e => exact fun c hc hr => h c hc (by rw [Except.error.inj hr])
  | ok outputsOk =>
      rw [Act.afterBind_ok]
      split
      · simp
      · -- what comes after the check of the outputs has other assertions
        refine Act.wp_mono (@avoids_bind (· ∈ outputsChecks) _ (fun _ => True) _ _ _ _
          (avoids_lift (avoids_rpc (by decide) _)) (fun signed => ?_) pb trivial)
          fun _ _ _ hr c hc he => absurd hc (hr.2 c he)
        obtain ⟨psbt, complete⟩ := signed
        refine avoids_bind (avoids_lift (checkForSellerSignature_avoids (by decide) _ _ _))
          fun signatureOk => ?_
        split
        · exact avoids_pure _
        · split
          · exact avoids_pure _
          · exact avoids_bind (avoids_write trivial) fun _ => avoids_pure _

/-- The seller's trade, where `HasReply` looks at the PSBT. -/
structure Inspects (pb : TradeState) (psbt : String) : Prop where
  initiated : pb.getState = .initiated
  fresh : pb.ourPsbt = none
  theirs : pb.theirPsbt = some psbt

/-- Our seller data, with both addresses; by `reachable_addressed` they always have them. -/
def HasAddresses (pb : TradeState) : Prop :=
  ∃ sd, pb.sellerData = some sd ∧ sd.chiAddress.isSome ∧ sd.nameAddress.isSome

lemma HasAddresses.congr {pb pb' : TradeState} (h : HasAddresses pb)
    (heq : pb'.sellerData = pb.sellerData) : HasAddresses pb' := by
  rw [HasAddresses, heq]
  exact h

/-- `HasReply` of a seller whose data are there. -/
lemma wp_hasReply_ask {pb : TradeState} (hask : getOrderType account pb = .ask)
    (hsd : HasAddresses pb)
    {Q : Conversation → Except Fail (Option ProcessingMessage) → TradeState → Prop} :
    (hasReply cfg account).wp pb Q ↔
      if pb.getState = .initiated ∧ pb.theirPsbt.isSome then
        (if pb.ourPsbt = none then do
          let signed ← signAsSeller cfg account
          if !signed then
            return none
          shareOrBroadcast account
        else shareOrBroadcast account).wp pb Q
      else Q [] (.ok none) pb := by
  obtain ⟨sd, hsome, _⟩ := hsd
  by_cases hinit : pb.getState = .initiated
  · cases htheirs : pb.theirPsbt with
    | none => simp [hasReply, hinit, createSellerData, hsome, replyWithSellerData, hask, htheirs]
    | some psbt => simp [hasReply, hinit, createSellerData, hsome, replyWithSellerData, hask, htheirs]
  · simp [hasReply, hinit]

/-- **`HasReply` of a seller** fails an assertion on the outputs only in the judgement of them. -/
lemma hasReply_checks {pb : TradeState} (hask : getOrderType account pb = .ask)
    (hsd : HasAddresses pb) :
    (hasReply cfg account).wp pb fun tr r _ => ∀ c ∈ outputsChecks, r = .error (.check c) →
      ∃ psbt d, Inspects pb psbt ∧ tr = [Ev.returned (.decodepsbt psbt) d] ∧
        sellerOutputs cfg (buildTradeChecker account pb) (pb.sellerData.getD {}) d = .error c := by
  have share : ∀ pb : TradeState, (shareOrBroadcast account).wp pb fun _ r _ =>
      ∀ c ∈ outputsChecks, r ≠ .error (.check c) := fun pb =>
    Act.wp_mono (@shareOrBroadcast_avoids account (· ∈ outputsChecks) (by decide) (fun _ => True)
      (fun _ _ _ _ => trivial) pb trivial) fun tr r _ h c hc hr => h.2 c hr hc
  rw [wp_hasReply_ask hask hsd]
  split
  · rename_i hinspects
    obtain ⟨psbt, htheirs⟩ := Option.isSome_iff_exists.mp hinspects.2
    split
    · rename_i hours
      obtain ⟨sd, hsome, haddr⟩ := hsd
      have hsigns := @signAsSeller_checks cfg account pb (by rw [hsome]; exact haddr)
      rw [htheirs, Option.getD_some] at hsigns
      rw [Act.wp_bind]
      refine Act.wp_mono hsigns fun tr r pb' h => ?_
      cases r with
      | error e =>
          intro c hc hr
          obtain ⟨d, htr, hout⟩ := h c hc (by rw [Except.error.inj hr])
          exact ⟨psbt, d, ⟨hinspects.1, hours, htheirs⟩, htr, hout⟩
      | ok signed =>
          rw [Act.afterBind_ok]
          split
          · exact nofun
          · exact Act.wp_mono (share pb') fun _ _ _ h c hc hr => absurd hr (h c hc)
    · exact Act.wp_mono (share pb) fun _ _ _ h c hc hr => absurd hr (h c hc)
  · exact nofun

/-- And if the judgement fails an assertion, then so does `HasReply`. -/
lemma hasReply_fails {pb : TradeState} (hask : getOrderType account pb = .ask)
    (hsd : HasAddresses pb) {psbt : String} (hin : Inspects pb psbt) {d : Psbt} {c : Check}
    (hout : sellerOutputs cfg (buildTradeChecker account pb) (pb.sellerData.getD {}) d = .error c) :
    (hasReply cfg account pb).Exec [Ev.returned (.decodepsbt psbt) d] (.error (.check c), pb) := by
  rw [Act.exec_iff]
  intro Q hQ
  have hsome : pb.theirPsbt.isSome := by rw [hin.theirs]; rfl
  rw [wp_hasReply_ask hask hsd, if_pos ⟨hin.initiated, hsome⟩, if_pos hin.fresh] at hQ
  obtain ⟨sd, hsdsome, hchi, hname⟩ := hsd
  obtain rfl : pb.theirPsbt.getD "" = psbt := by rw [hin.theirs, Option.getD_some]
  rw [hsdsome, Option.getD_some] at hout
  simp only [signAsSeller, Act.wp_bind, Act.wp_read, Act.afterBind_ok, Act.wp_monadLift,
    TradeChecker.checkForSellerOutputs, hsdsome, Option.getD_some, hchi, hname,
    Bool.and_self, wp_check, wp_rpc, wp_judge, true_imp_iff] at hQ
  exact (hQ.1.1 d).2 c hout

/-! ## Processing a message -/

/-- The loop of `ProcessMessage` processes the first trade that matches. -/
lemma wp_processLoop {msg : ProcessingMessage} {before after : List TradeState} {t : TradeState}
    (hbefore : ∀ t' ∈ before, tradeMatches msg t' = false) (hmatch : tradeMatches msg t = true)
    {Q : Conversation → Except Fail (List TradeState × Option ProcessingMessage) → Unit → Prop} :
    (processLoop cfg account msg (before ++ t :: after)).wp u Q ↔
      (processTrade cfg account msg).wp t fun tr r t' =>
        match r with
        | .ok reply => Q tr (.ok (before ++ t' :: after, reply)) u
        | .error .exception => Q tr (.ok (before ++ t' :: after, none)) u
        | .error (.check c) => Q tr (.error (.check c)) u := by
  induction before generalizing Q with
  | nil =>
      rw [List.nil_append, processLoop, if_pos hmatch, Act.wp_bind, Act.wp_on]
      refine Act.wp_congr fun tr r t' => ?_
      rcases r with (_ | c) | reply <;> simp
  | cons t' before ih =>
      have hno : ¬ tradeMatches msg t' = true := by simp [hbefore t' (by simp)]
      rw [List.cons_append, processLoop, if_neg hno, Act.wp_bind,
        ih fun x hx => hbefore x (by simp [hx])]
      refine Act.wp_congr fun tr r t' => ?_
      rcases r with (_ | c) | reply <;> simp

/-- The same for the whole section. -/
lemma wp_processMessage {s : State} {msg : ProcessingMessage} {before after : List TradeState}
    {t : TradeState} (htrades : s.trades = before ++ t :: after)
    (hbefore : ∀ t' ∈ before, tradeMatches msg t' = false) (hmatch : tradeMatches msg t = true)
    {Q : Conversation → Except Fail (Option ProcessingMessage) → State → Prop} :
    (processMessage cfg msg).wp s Q ↔
      (hasReply cfg s.account).wp (handleMessage s.account msg t) fun tr r t' =>
        match r with
        | .ok reply => Q tr (.ok reply) { s with trades := before ++ t' :: after }
        | .error .exception => Q tr (.ok none) { s with trades := before ++ t' :: after }
        | .error (.check c) => Q tr (.error (.check c)) s := by
  simp only [processMessage, Act.wp_bind, Act.wp_read, Act.afterBind_ok, Act.wp_monadLift]
  rw [htrades, wp_processLoop hbefore hmatch]
  simp only [processTrade, Act.wp_bind, Act.wp_read, Act.afterBind_ok, Act.wp_write]
  refine Act.wp_congr fun tr r t' => ?_
  rcases r with (_ | c) | reply <;> simp

/-- A message for a trade in which we sell can bring the PSBT, and nothing else. -/
lemma handleMessage_ask {pb : TradeState} (hask : getOrderType account pb = .ask)
    (hinit : pb.getState = .initiated) (msg : ProcessingMessage) :
    handleMessage account msg pb = { pb with theirPsbt := pb.theirPsbt.or msg.psbt } := by
  have hsame : ∀ theirs, pb.theirPsbt = theirs → pb = { pb with theirPsbt := theirs } := by
    rintro _ rfl
    rfl
  have hmerge : ∀ psbt, mergePsbt psbt pb = { pb with theirPsbt := pb.theirPsbt.or (some psbt) } := by
    intro psbt
    rw [mergePsbt]
    cases htheirs : pb.theirPsbt with
    | none => rfl
    | some theirs => exact hsame _ htheirs
  have hdata : ∀ sd, mergeSellerData account sd pb = pb := fun sd => by
    rw [mergeSellerData, if_pos hask]
  rw [handleMessage, if_neg (not_not.mpr hinit)]
  cases msg.sellerData <;> cases msg.psbt <;>
    simp only [hdata, hmerge, Option.or_none]

/-! ## Which PSBTs abort the seller -/

section

variable {W : Type} {E : Env Call Answer W} {decode : String → Option Psbt}

/-- A node whose `decodepsbt` throws, or returns a well-formed decoding of the PSBT.  Nothing is said
about the bytes of the names and values in it. -/
structure DecodesOrThrows (decode : String → Option Psbt) (E : Env Call Answer W) : Prop where
  answers : ∀ w psbt (a : Except RpcError Psbt) w', E w ⟨.rpc (.decodepsbt psbt), a⟩ w' →
    a = .error .exception ∨ ∃ d, decode psbt = some d ∧ a = .ok d
  responds : ∀ w psbt d, decode psbt = some d → ∃ w', E w (Ev.returned (.decodepsbt psbt) d) w'
  wellFormed : ∀ psbt d, decode psbt = some d → ∀ out ∈ d.tx.vout, WellFormed out

/-- The daemon survives the message: no exception gets out, and the check of the outputs ends with a
verdict or with an exception that is caught. -/
structure Survives (cfg : Config) (E : Env Call Answer W) (s : State) (msg : ProcessingMessage)
    (t : TradeState) (w : W) : Prop where
  message : ∀ tr r s' w', (processMessage cfg msg s).Exec tr (r, s') → E.Path w tr w' →
    r ≠ .error .exception ∧ ∀ c ∈ outputsChecks, r ≠ .error (.check c)
  outputs : ∀ psbt, Inspects (handleMessage s.account msg t) psbt → ∀ tr r u w',
    ((buildTradeChecker s.account t).checkForSellerOutputs cfg psbt (t.sellerData.getD {}) ()).Exec
      tr (r, u) → E.Path w tr w' → (∃ b, r = .ok b) ∨ r = .error .exception

/-- The judgement of outputs that can be read, and of others. -/
lemma sellerOutputs_cases {ck : TradeChecker} {sd : SellerData} {d : Psbt} {total : Amount}
    (htotal : ck.getTotalSat = .ok (some total)) (hnonneg : 0 ≤ total)
    (hwf : ∀ out ∈ d.tx.vout, WellFormed out) :
    ((∀ out ∈ d.tx.vout, Readable (sd.chiAddress.getD "") out) →
      ∃ b, sellerOutputs cfg ck sd d = .ok b) ∧
    ((∃ out ∈ d.tx.vout, ¬ Readable (sd.chiAddress.getD "") out) →
      ∃ c ∈ outputsChecks, sellerOutputs cfg ck sd d = .error c) := by
  rw [sellerOutputs_eq htotal hnonneg]
  constructor
  · intro hread
    obtain ⟨c, n, hok, _⟩ := scanOutputs_of_readable hwf hread (total = 0) false
    rw [hok]
    exact ⟨_, rfl⟩
  · intro hun
    obtain ⟨c, hc, herr⟩ := scanOutputs_of_unreadable hwf hun (total = 0) false
    rw [herr]
    refine ⟨c, ?_, rfl⟩
    rcases hc with rfl | rfl <;> simp [outputsChecks]

/-- What a message leaves of a trade in which we sell. -/
lemma handleMessage_sells {t : TradeState} (hask : getOrderType account t = .ask)
    (msg : ProcessingMessage) :
    getOrderType account (handleMessage account msg t) = .ask ∧
    (handleMessage account msg t).sellerData = t.sellerData ∧
    buildTradeChecker account (handleMessage account msg t) = buildTradeChecker account t := by
  have hspec := @handleMessage_spec account msg t
  have hf := hspec.frame
  refine ⟨hf.getOrderType.trans hask, ?_, ?_⟩
  · rcases hspec.sellerData with heq | ⟨hbid, _⟩
    · exact heq
    · rw [hask] at hbid
      cases hbid
  · rw [buildTradeChecker, buildTradeChecker, hf.getOrderType, hf.order, hf.units, hf.counterparty]

/-- When the PSBT gets looked at. -/
lemma inspects_handleMessage {t : TradeState} (hask : getOrderType account t = .ask)
    {msg : ProcessingMessage} {psbt : String} :
    Inspects (handleMessage account msg t) psbt ↔
      t.getState = .initiated ∧ t.ourPsbt = none ∧ t.theirPsbt.or msg.psbt = some psbt := by
  constructor
  · rintro ⟨hinit, hours, htheirs⟩
    have heq := (@handleMessage_spec account msg t).eq
    have hinit' : t.getState = .initiated := by
      rw [heq] at hinit
      exact hinit
    rw [handleMessage_ask hask hinit' msg] at hours htheirs
    exact ⟨hinit', hours, htheirs⟩
  · rintro ⟨hinit, hours, htheirs⟩
    rw [handleMessage_ask hask hinit msg]
    exact ⟨hinit, hours, htheirs⟩

/-- If the judgement of the PSBT fails an assertion, then that is how the message ends. -/
lemma processMessage_fails {s : State} {msg : ProcessingMessage} {t : TradeState}
    (hfind : s.trades.find? (tradeMatches msg) = some t) (hask : getOrderType s.account t = .ask)
    (hsd : HasAddresses t) {psbt : String} (hin : Inspects (handleMessage s.account msg t) psbt)
    {d : Psbt} {c : Check}
    (hout : sellerOutputs cfg (buildTradeChecker s.account t) (t.sellerData.getD {}) d = .error c) :
    (processMessage cfg msg s).Exec [Ev.returned (.decodepsbt psbt) d] (.error (.check c), s) := by
  obtain ⟨hmatch, before, after, htrades, hbefore⟩ := List.find?_eq_some_iff_append.mp hfind
  obtain ⟨hask', hsd', hck⟩ := handleMessage_sells hask msg
  rw [← hck, ← hsd'] at hout
  have hx := hasReply_fails hask' (hsd.congr hsd') hin hout
  rw [Act.exec_iff] at hx ⊢
  intro Q hQ
  exact hx _ ((wp_processMessage htrades (fun t' ht' => by simpa using hbefore t' ht') hmatch).mp hQ)

/-- And it fails an assertion on the outputs in no other way; an exception is caught. -/
lemma processMessage_checks {s : State} {msg : ProcessingMessage} {t : TradeState}
    (hfind : s.trades.find? (tradeMatches msg) = some t) (hask : getOrderType s.account t = .ask)
    (hsd : HasAddresses t) : (processMessage cfg msg).wp s fun tr r _ =>
      r ≠ .error .exception ∧ ∀ c ∈ outputsChecks, r = .error (.check c) → ∃ psbt d,
        Inspects (handleMessage s.account msg t) psbt ∧ tr = [Ev.returned (.decodepsbt psbt) d] ∧
        sellerOutputs cfg (buildTradeChecker s.account t) (t.sellerData.getD {}) d = .error c := by
  obtain ⟨hmatch, before, after, htrades, hbefore⟩ := List.find?_eq_some_iff_append.mp hfind
  obtain ⟨hask', hsd', hck⟩ := handleMessage_sells hask msg
  rw [wp_processMessage htrades (fun t' ht' => by simpa using hbefore t' ht') hmatch]
  refine Act.wp_mono (hasReply_checks hask' (hsd.congr hsd')) fun tr r pb' hr => ?_
  rw [hck, hsd'] at hr
  rcases r with (_ | c) | reply
  · exact ⟨nofun, nofun⟩
  · exact ⟨nofun, hr⟩
  · exact ⟨nofun, nofun⟩

/-- If all that the node can return for the PSBT is judged without a failure, then so is the PSBT. -/
lemma outputs_judged (hE : DecodesOrThrows decode E) {ck : TradeChecker} {sd : SellerData}
    (hchi : sd.chiAddress.isSome) (hname : sd.nameAddress.isSome) {psbt : String} {w : W}
    (hjudged : ∀ d w', E w (Ev.returned (.decodepsbt psbt) d) w' →
      ∃ b, sellerOutputs cfg ck sd d = .ok b) :
    (ck.checkForSellerOutputs cfg psbt sd).wp () fun tr r _ =>
      (∃ w', E.Path w tr w') → (∃ b, r = .ok b) ∨ r = .error .exception := by
  simp only [TradeChecker.checkForSellerOutputs, Act.wp_bind, wp_check, wp_rpc, wp_judge,
    Act.afterBind_ok, Act.afterBind_error, hchi, hname, Bool.and_self, true_imp_iff]
  refine ⟨⟨fun d => ⟨fun b _ _ => Or.inl ⟨b, rfl⟩, ?_⟩, fun _ => Or.inr trivial, ?_⟩, by simp⟩
  · rintro c hc ⟨w', w₁, hev, _⟩
    obtain ⟨b, hok⟩ := hjudged d w₁ hev
    rw [hc] at hok
    cases hok
  · -- the node throws nothing but exceptions
    rintro ⟨w', w₁, hev, _⟩
    rcases hE.answers _ _ _ _ hev with heq | ⟨d, _, heq⟩ <;> cases heq

/-- **Which PSBTs abort the seller.**  The message is survived exactly if the PSBT that is looked at,
if there is one, cannot be decoded at all, or every output of it can be read: the name operations
have a name and a value, and what is paid to our address is an amount. -/
theorem psbt_aborts_iff (hE : DecodesOrThrows decode E) {s : State} {msg : ProcessingMessage}
    {t : TradeState} (hfind : s.trades.find? (tradeMatches msg) = some t)
    (hask : getOrderType s.account t = .ask) (hsd : HasAddresses t)
    (htotal : HasTotal s.account t) (w : W) :
    Survives cfg E s msg t w ↔
      (t.getState = .initiated → t.ourPsbt = none → ∀ psbt d,
        t.theirPsbt.or msg.psbt = some psbt → decode psbt = some d →
        ∀ out ∈ d.tx.vout, Readable ((t.sellerData.getD {}).chiAddress.getD "") out) := by
  obtain ⟨total, hsome, hnonneg⟩ := htotal
  have judged := fun psbt d (hd : decode psbt = some d) =>
    @sellerOutputs_cases cfg _ (t.sellerData.getD {}) d total hsome hnonneg (hE.wellFormed psbt d hd)
  constructor
  · intro h hinit hours psbt d htheirs hd
    by_contra hun
    push Not at hun
    obtain ⟨c, hc, hout⟩ := (judged psbt d hd).2 hun
    have hin := (inspects_handleMessage hask).mpr ⟨hinit, hours, htheirs⟩
    have hfails := processMessage_fails hfind hask hsd hin hout
    obtain ⟨w', hw'⟩ := hE.responds w psbt d hd
    exact (h.message _ _ _ w' hfails ⟨w', hw', rfl⟩).2 c hc rfl
  · intro h
    -- whatever the node returns for the PSBT that is looked at is judged
    have verdict : ∀ psbt, Inspects (handleMessage s.account msg t) psbt →
        ∀ d w', E w (Ev.returned (.decodepsbt psbt) d) w' → ∃ b, sellerOutputs cfg
          (buildTradeChecker s.account t) (t.sellerData.getD {}) d = .ok b := by
      intro psbt hin d w' hev
      obtain ⟨hinit, hours, htheirs⟩ := (inspects_handleMessage hask).mp hin
      rcases hE.answers _ _ _ _ hev with hthrow | ⟨d', hd, heq⟩
      · cases hthrow
      · obtain rfl := Except.ok.inj heq
        exact (judged psbt d hd).1 (h hinit hours psbt d htheirs hd)
    constructor
    · intro tr r s' w' hx hp
      obtain ⟨hcaught, hchecks⟩ :=
        Act.wp_iff.mp (processMessage_checks hfind hask hsd) tr r s' hx
      refine ⟨hcaught, fun c hc hr => ?_⟩
      obtain ⟨psbt, d, hin, rfl, hout⟩ := hchecks c hc hr
      obtain ⟨w₁, hev, _⟩ := hp
      obtain ⟨b, hok⟩ := verdict psbt hin d w₁ hev
      rw [hok] at hout
      cases hout
    · intro psbt hin tr r u w' hx hp
      obtain ⟨sd, hsome', hchi, hname⟩ := hsd
      have hverdict := verdict psbt hin
      rw [hsome', Option.getD_some] at hx hverdict
      exact Act.wp_iff.mp (outputs_judged hE hchi hname hverdict) tr r u hx ⟨w', hp⟩

end

/-! ## The addresses are there -/

/-- Seller data that are there have both addresses. -/
def Addressed (t : TradeState) : Prop :=
  ∀ sd, t.sellerData = some sd → sd.chiAddress.isSome ∧ sd.nameAddress.isSome

lemma Addressed.of_eq {t t' : TradeState} (h : Addressed t) (heq : t'.sellerData = t.sellerData) :
    Addressed t' := fun sd hsd => h sd (heq.symm.trans hsd)

lemma Addressed.of_none {t : TradeState} (h : t.sellerData = none) : Addressed t := by
  intro sd hsd
  rw [h] at hsd
  cases hsd

lemma Addressed.handleMessage {t : TradeState} (h : Addressed t) (msg : ProcessingMessage) :
    Addressed (handleMessage account msg t) := by
  rcases (@handleMessage_spec account msg t).sellerData with heq | ⟨_, _, _, n, c, heq⟩
  · exact h.of_eq heq
  · intro sd hsd
    rw [heq] at hsd
    obtain rfl := Option.some.inj hsd
    exact ⟨rfl, rfl⟩

lemma HasReply.Outcome.addressed {t t' : TradeState} {tr : Conversation}
    {r : Except Fail (Option ProcessingMessage)} (h : HasReply.Outcome cfg account t tr r t')
    (ht : Addressed t) : Addressed t' := by
  cases h with
  | sendsSellerData =>
      rintro sd ⟨⟩
      exact ⟨rfl, rfl⟩
  | _ => exact ht

lemma Update.Outcome.addressed {t t' : TradeState} {tr : Conversation} {r : Except Fail Unit}
    (h : Update.Outcome t tr r t') (ht : Addressed t) : Addressed t' := by
  cases h <;> exact ht

variable {W : Type} {E : Env Call Answer W} in
lemma addressedRule : TradeRule cfg E account fun _ t => Addressed t where
  blank _ := .of_none rfl
  new _ _ _ _ _ _ _ := .of_none rfl
  later _ _ _ ht := ht
  receives _ msg _ ht := ht.handleMessage msg
  replies _ _ _ _ _ _ _ _ ht _ _ hout := hout.addressed ht
  updates _ _ _ _ ht hout := hout.addressed ht

/-- **In every reachable state**, seller data have both addresses. -/
theorem reachable_addressed {W : Type} {E : Env Call Answer W} {x : Sys × W}
    (h : (system cfg E account).Reachable x) : ∀ t, x.1.Knows t → Addressed t :=
  addressedRule.holds h

/-! ### A name that is not UTF-8 -/

/-- A transaction that registers a name, whose bytes may not be valid UTF-8. -/
def registersName (name : Option String) : Psbt where
  tx := ⟨"id", [⟨"name", 0⟩], [{
    value := some 1000000
    scriptPubKey := { nameOp := .object { op := "name_register", name, value := some "\x7b\x7d" } } }]⟩
  inputs := [{}]

/-- The node decodes every PSBT like that, and otherwise does what it is asked for. -/
def nameScript (name : Option String) (n : ℕ) : (c : Call) → Answer c × ℕ
  | .rpc (.decodepsbt _) => ((.ok (registersName name) : Except RpcError Psbt), n)
  | c => unitsScript n c

lemma nameScript_decodes (name : Option String) :
    DecodesOrThrows (fun _ => some (registersName name)) (Env.ofScript (nameScript name)) where
  answers := fun w psbt a w' h => Or.inr ⟨_, rfl, (congrArg Prod.fst h).symm⟩
  responds := fun w psbt d hd => ⟨w, by cases hd; rfl⟩
  wellFormed := by
    rintro psbt d ⟨⟩ out hout
    rw [List.mem_singleton.mp hout]
    exact Or.inr ⟨_, rfl, rfl, rfl⟩

/-- **One name aborts the daemon**: a PSBT comes in that registers a name which is not valid UTF-8. -/
theorem unreadable_name_abort : ∃ (x : Sys × ℕ) (rec : Record),
    DecodesOrThrows (fun _ => some (registersName none)) (Env.ofScript (nameScript none)) ∧
    (system sampleConfig (Env.ofScript (nameScript none)) "maker").Reachable x ∧
    x.1.halted = true ∧ rec ∈ x.1.log ∧ rec.task.isProcess = true ∧
    rec.outcome = .error (.check .nameOpFields) := by
  obtain ⟨x, hr, hQ⟩ := Sys.exists_reachable sampleConfig (nameScript none) "maker" 0
    (unitsSchedule 2)
    (fun x => x.1.halted &&
      x.1.log.any fun rec => rec.task.isProcess && rec.failedCheck = some .nameOpFields)
    (by decide +kernel)
  simp only [Bool.and_eq_true] at hQ
  obtain ⟨rec, hrec, hfail⟩ := List.any_eq_true.mp hQ.2
  simp only [Bool.and_eq_true, decide_eq_true_eq] at hfail
  exact ⟨x, rec, nameScript_decodes none, hr, hQ.1, hrec, hfail.1,
    Record.outcome_of_failedCheck hfail.2⟩

/-- We sell two units, and have told the other side our addresses. -/
def saleTrade : TradeState where
  order := { unitsOrder with account := some "maker", id := some 0 }
  units := 2
  counterparty := "taker"
  state := some .initiated
  sellerData := some ⟨some "name address", some "chi address", some ⟨"name", 0⟩⟩

/-- A PSBT that registers another name is refused, with the daemon running on. -/
theorem psbt_aborts_iff_readable :
    Survives sampleConfig (Env.ofScript (nameScript (some "p/other")))
      { account := "maker", trades := [saleTrade] } psbtMessage saleTrade 0 := by
  refine (psbt_aborts_iff (nameScript_decodes _) (by decide +kernel) (by decide +kernel)
    ⟨_, rfl, rfl, rfl⟩ (hasTotal_of_lt (by decide) (by decide)) 0).mpr ?_
  rintro _ _ psbt d _ ⟨⟩ out hout
  rw [List.mem_singleton.mp hout]
  refine ⟨fun op hop => ?_, nofun⟩
  obtain rfl := NameOpField.object.inj hop
  exact ⟨rfl, rfl⟩

end Democrit
