import Democrit.Book.View
import Democrit.Network.Assertions
import Democrit.Network.Nicknames

/-!
# The market

All daemons in the broadcast room.  What one of them reads off its own orders is broadcast, relayed by
the room under some nick, attributed to an account, checked, put in the order books of the others, and
listed there by the queries.

**What is listed under an account was offered by its owner** (`market_authentic`): each query shows, for
each account, orders that the daemon of this account had, all of them at one moment, and none of which
was locked then.  So no order is made up, changed, or put under another name on the way, whatever else
happens in the room and in whatever order the threads of the daemons get to broadcast what they read; and what
is listed of one account is never put together from two of its broadcasts.

It rests on the room being shown without hidden changes of nicks, which is what `broadcasts_attributed`
needs, and on the servers relaying for the user of an account only what its daemon has handed over.
-/

namespace Democrit

open Interaction

variable {W : Type} {cfg : Config} {E : Env Call Answer W} {login : Login}

/-! ## What is published was offered -/

/-- The orders were, all at the same time, our own ones that are not locked. -/
def Offered (log : List Record) (orders : OrdersOfAccount) : Prop :=
  ∃ rec ∈ log, rec.task = .getOrders ∧ orders = internalGetOrders false rec.pre

/-- What is to be broadcast. -/
def Outgoing.orders : Outgoing → Option OrdersOfAccount
  | .updateOrders orders | .publish orders => some orders
  | .processing _ | .direct _ => none

/-- What was broadcast, or is going to be. -/
structure Impl.Offers (d : Impl) : Prop where
  tasks : ∀ th ∈ d.sys.threads, ∀ orders, .updateOrders orders ∈ th.tasks → Offered d.sys.log orders
  outbox : ∀ out ∈ d.outbox, ∀ orders ∈ out.orders, Offered d.sys.log orders
  published : ∀ orders ∈ d.published, Offered d.sys.log orders

lemma Offered.later {log log' : List Record} {orders : OrdersOfAccount} (h : Offered log orders)
    (hl : log ⊆ log') : Offered log' orders := by
  obtain ⟨rec, hrec, h⟩ := h
  exact ⟨rec, hl hrec, h⟩

lemma Impl.Offers.own {d : Impl} {l : Democrit.Label} {σ' : Sys} (h : d.Offers)
    (hs : Sys.Step cfg d.sys l σ') :
    Impl.Offers { d with sys := σ', outbox := d.outbox ++ l.outgoing } := by
  have hlog : d.sys.log ⊆ σ'.log := by
    rw [log_of_step hs]
    exact List.subset_append_left _ _
  have hpublished : ∀ orders ∈ d.published, Offered σ'.log orders := fun orders ho =>
    (h.published orders ho).later hlog
  cases hs with
  | start op _ =>
      refine ⟨fun th hth orders hmem => ?_, by simpa [Label.outgoing] using h.outbox, hpublished⟩
      rcases List.mem_append.mp hth with hth | hth
      · exact h.tasks th hth orders hmem
      · obtain rfl := List.mem_singleton.mp hth
        cases op <;> simp [Op.tasks, refreshTasks] at hmem
  | @run before after op task rest tr r s' _ hth hx =>
      have old : ∀ th ∈ before ++ ⟨op, task :: rest⟩ :: after, ∀ orders,
          .updateOrders orders ∈ th.tasks → Offered _ orders :=
        fun th hm orders ho => (h.tasks th (by rwa [hth]) orders ho).later hlog
      refine ⟨fun th hm orders hmem => ?_, fun out hout orders ho => ?_, hpublished⟩
      · rcases List.mem_append.mp hm with hm | hm
        · exact old th (by simp [hm]) orders hmem
        · rcases List.mem_cons.mp hm with rfl | hm
          · cases r with
            | error e => simp [continuation] at hmem
            | ok eff =>
                rcases List.mem_append.mp hmem with hmem | hmem
                · obtain ⟨htask, horders⟩ := read_of_exec hx hmem
                  refine ⟨⟨op, task, d.sys.state, tr, .ok eff, s'⟩, ?_, htask, horders⟩
                  exact List.mem_append_right _ (List.mem_singleton.mpr rfl)
                · exact old ⟨op, task :: rest⟩ (by simp) orders (by simp [hmem])
          · exact old th (by simp [hm]) orders hmem
      · rcases List.mem_append.mp hout with hout | hout
        · exact (h.outbox out hout orders ho).later hlog
        · cases r with
          | error e => simp [Label.outgoing, Record.outgoing] at hout
          | ok eff =>
              have hpub : eff.published = some orders := by
                simp only [Label.outgoing, Record.outgoing, List.mem_append, List.mem_map] at hout
                rcases hout with ⟨msg, _, rfl⟩ | ⟨orders', hpub, rfl⟩
                · simp [Outgoing.orders] at ho
                · rw [← show orders' = orders by simpa [Outgoing.orders] using ho]
                  exact Option.mem_toList.mp hpub
              obtain rfl := published_of_exec hx hpub
              exact old ⟨op, .updateOrders orders :: rest⟩ (by simp) orders (by simp)

lemma Impl.Offers.handled {d d' : Impl} {e : Impl.Event} (h : d.Offers) (hd : d.Handled e d') :
    d'.Offers := by
  cases hd with
  | told => exact ⟨h.tasks, h.outbox, h.published⟩
  | called =>
      refine ⟨fun th hth orders hmem => ?_, h.outbox, h.published⟩
      rcases List.mem_append.mp hth with hth | hth
      · exact h.tasks th hth orders hmem
      · obtain rfl := List.mem_singleton.mp hth
        simp [Op.tasks] at hmem

lemma Impl.Offers.sends {d : Impl} (h : d.Offers) {before rest : List Outgoing} {out : Outgoing}
    (hout : d.outbox = before ++ out :: rest) :
    (d.after (Impl.send { d with outbox := before ++ rest } out)).Offers := by
  have hrest : ∀ o ∈ before ++ rest, ∀ orders ∈ o.orders, Offered d.sys.log orders := by
    intro o ho
    refine h.outbox o ?_
    rw [hout]
    simp only [List.mem_append, List.mem_cons] at ho ⊢
    tauto
  have hself : ∀ orders ∈ out.orders, Offered d.sys.log orders := h.outbox out (by simp [hout])
  have hpush : ∀ out' : Outgoing, (∀ orders ∈ out'.orders, Offered d.sys.log orders) →
      ∀ o ∈ before ++ rest ++ [out'], ∀ orders ∈ o.orders, Offered d.sys.log orders := by
    intro out' hout' o ho
    rcases List.mem_append.mp ho with ho | ho
    · exact hrest o ho
    · rw [List.mem_singleton.mp ho]
      exact hout'
  cases out with
  | processing msg =>
      simp only [Impl.send, Impl.after, Impl.sendProcessingMessage]
      split
      · exact ⟨h.tasks, hrest, h.published⟩
      · exact ⟨h.tasks, hpush _ (by simp [Outgoing.orders]), h.published⟩
  | updateOrders orders =>
      simp only [Impl.send, Impl.updateOrders]
      split_ifs
      · exact ⟨h.tasks, h.outbox, h.published⟩
      · exact ⟨h.tasks, hpush (.publish orders) hself, h.published⟩
      · exact ⟨h.tasks, hrest, h.published⟩
  | direct stanza =>
      simp only [Impl.send]
      split_ifs
      · exact ⟨h.tasks, hrest, h.published⟩
      · exact ⟨h.tasks, h.outbox, h.published⟩
  | publish orders =>
      simp only [Impl.send]
      split_ifs
      · refine ⟨h.tasks, hrest, fun orders' ho => ?_⟩
        rcases List.mem_append.mp ho with ho | ho
        · exact h.published orders' ho
        · rw [List.mem_singleton.mp ho]
          exact hself orders rfl
      · exact ⟨h.tasks, h.outbox, h.published⟩

/-- **Everything a daemon broadcasts was offered by it.** -/
lemma reachable_offers {x : Impl × W} (h : (implSystem cfg E login).Reachable x) : x.1.Offers := by
  refine Transition.System.Reachable.invariant (fun x => x.1.Offers) ?_ ?_ h
  · intro x hx
    obtain ⟨_, auth, _, hd⟩ := Impl.of_construct hx
    rw [hd]
    exact ⟨by simp [Sys.start], by simp, by simp⟩
  · rintro x l x' _ ih ⟨hs, _⟩
    generalize x'.1 = d' at hs
    cases hs with
    | own _ hs _ => exact ih.own hs
    | event e hrun =>
        cases hd : x.1.handle e with
        | error c => exact ⟨ih.tasks, ih.outbox, ih.published⟩
        | ok d' => exact ih.handled (Impl.handled_of_handle hd)
    | send hrun hout => exact ih.sends hout

/-! ## What the order book is told -/

/-- Where a change of the order book comes from. -/
inductive Impl.Learned (d : Impl) (e : Impl.Event) : BookCall → Prop
  | timeout {now} : Learned d e (.runTimeout now)
  /-- Somebody has left. -/
  | gone {now account} : Learned d e (.updateOrders now { account := some account })
  /-- Somebody has broadcast. -/
  | heard {sender spec now data jid account} (he : e = .groupchat sender false spec now (some data))
      (hjid : d.muc.resolveNickname sender.resource = some jid)
      (haccount : accountOf d.auth.xidServers jid = some account) :
      Learned d e (.updateOrders now
        { account := some account
          orders := (data.orders.entries.filter fun e => spec.validateOrder account e.2).toAList })

/-- What an event does to the client in the room and to the order book. -/
structure Impl.Notes (d : Impl) (e : Impl.Event) (muc : MucClient) (d' : Impl) : Prop where
  muc : d'.muc = muc
  book : d'.allOrders = d.allOrders ∨
    ∃ c, d.Learned e c ∧ d.allOrders.call c = .ok d'.allOrders

/-- The client in the room after an event. -/
def Impl.mucAfter (d : Impl) : Impl.Event → Except MucCheck MucClient
  | .connect ok => .ok (d.connect ok).muc
  | .presence participant unavailable _ =>
      (d.muc.handleMUCParticipantPresence participant unavailable).map Prod.snd
  | .mucError => .ok d.muc.handleMUCError
  | _ => .ok d.muc

lemma Impl.notes_of_handleMessage {d d' : Impl} {spec : AssetSpec} {now : ℤ} {sender jid : Jid}
    {ext : Option AccountUpdate} (hjid : d.muc.resolveNickname sender.resource = some jid)
    (h : Impl.handleMessage spec now jid ext d = .ok d') :
    d.Notes (.groupchat sender false spec now ext) d.muc d' := by
  obtain ⟨auth, hauth, _, _⟩ := d.authenticate_spec jid
  rw [Impl.handleMessage, hauth] at h
  dsimp only [bind, Except.bind] at h
  cases hb : Daemon.handleMessage spec now (accountOf d.auth.xidServers jid) ext d.allOrders with
  | error c => simp [hb] at h
  | ok book =>
      simp only [hb, pure, Except.pure, Except.ok.injEq] at h
      subst h
      refine ⟨rfl, ?_⟩
      cases hacc : accountOf d.auth.xidServers jid with
      | none =>
          rw [hacc] at hb
          exact Or.inl (Except.ok.inj hb).symm
      | some account =>
          rw [hacc] at hb
          cases ext with
          | none => exact Or.inl (Except.ok.inj hb).symm
          | some data => exact Or.inr ⟨_, .heard rfl hjid hacc, hb⟩

lemma Impl.notes_of_handleDisconnect {d d' : Impl} {e : Impl.Event} {muc : MucClient} {now : ℤ}
    {jid : Jid} (h : Impl.handleDisconnect now jid { d with muc } = .ok d') : d.Notes e muc d' := by
  obtain ⟨auth, hauth, _, _⟩ := Impl.authenticate_spec { d with muc } jid
  rw [Impl.handleDisconnect, hauth] at h
  dsimp only [bind, Except.bind] at h
  cases hacc : accountOf d.auth.xidServers jid with
  | none =>
      simp only [hacc, pure, Except.pure, Except.ok.injEq] at h
      subst h
      exact ⟨rfl, Or.inl rfl⟩
  | some account =>
      simp only [hacc] at h
      cases hb : d.allOrders.updateOrders now { account := some account } with
      | error c => simp [hb] at h
      | ok book =>
          simp only [hb, pure, Except.pure, Except.ok.injEq] at h
          subst h
          exact ⟨rfl, Or.inr ⟨.updateOrders now { account := some account }, .gone, hb⟩⟩

lemma Impl.notes_of_query {d d' : Impl} {e : Impl.Event} {ev : BookEvent} (h : d.bookEvent ev = .ok d')
    (hquery : ∀ book, d.allOrders.event ev = .ok book →
      book = d.allOrders ∨ ∃ c, d.Learned e c ∧ d.allOrders.call c = .ok book) :
    d.Notes e d.muc d' := by
  rw [Impl.bookEvent] at h
  cases hb : d.allOrders.event ev with
  | error c => simp [hb] at h
  | ok book =>
      simp only [hb, Except.ok.injEq] at h
      subst h
      exact ⟨rfl, hquery book hb⟩

/-- **Events.** -/
lemma Impl.notes_of_handle {d d' : Impl} {e : Impl.Event} (h : d.handle e = .ok d') :
    ∃ muc, d.mucAfter e = .ok muc ∧ d.Notes e muc d' := by
  cases e with
  | connect ok =>
      obtain rfl := Except.ok.inj h
      refine ⟨_, rfl, rfl, Or.inl ?_⟩
      rw [Impl.connect]
      split_ifs <;> rfl
  | disconnect =>
      obtain rfl := Except.ok.inj h
      exact ⟨_, rfl, rfl, Or.inl rfl⟩
  | presence participant unavailable now =>
      simp only [Impl.handle, Impl.handlePresence] at h
      simp only [Impl.mucAfter]
      cases hp : d.muc.handleMUCParticipantPresence participant unavailable with
      | error c => simp [hp] at h
      | ok r =>
          obtain ⟨left, muc⟩ := r
          rw [hp] at h
          refine ⟨muc, rfl, ?_⟩
          cases left with
          | none =>
              obtain rfl := Except.ok.inj h
              exact ⟨rfl, Or.inl rfl⟩
          | some jid => exact Impl.notes_of_handleDisconnect h
  | groupchat sender priv spec now ext =>
      simp only [Impl.handle, Impl.handleGroupchat, MucClient.handleMUCMessage] at h
      refine ⟨_, rfl, ?_⟩
      cases priv with
      | true =>
          obtain rfl := Except.ok.inj h
          exact ⟨rfl, Or.inl rfl⟩
      | false =>
          by_cases hroom : sender.bare = d.muc.roomName
          · cases hjid : d.muc.resolveNickname sender.resource with
            | none =>
                simp only [hroom, hjid, Bool.false_eq_true, if_false, ne_eq, not_true] at h
                obtain rfl := Except.ok.inj h
                exact ⟨rfl, Or.inl rfl⟩
            | some jid =>
                simp only [hroom, hjid, Bool.false_eq_true, if_false, ne_eq, not_true] at h
                exact Impl.notes_of_handleMessage hjid h
          · simp [hroom] at h
  | mucError =>
      obtain rfl := Except.ok.inj h
      exact ⟨_, rfl, rfl, Or.inl rfl⟩
  | message sender ext =>
      obtain ⟨auth, hauth, _, _⟩ := d.authenticate_spec sender
      simp only [Impl.handle, Impl.handlePrivate, hauth, bind, Except.bind] at h
      refine ⟨_, rfl, ?_⟩
      cases hacc : accountOf d.auth.xidServers sender with
      | none =>
          simp only [hacc, pure, Except.pure, Except.ok.injEq] at h
          subst h
          exact ⟨rfl, Or.inl rfl⟩
      | some account =>
          cases ext with
          | none =>
              simp only [hacc, pure, Except.pure, Except.ok.injEq] at h
              subst h
              exact ⟨rfl, Or.inl rfl⟩
          | some data =>
              simp only [hacc, pure, Except.pure, Except.ok.injEq] at h
              subst h
              exact ⟨rfl, Or.inl rfl⟩
  | runTimeout now =>
      have h : d.bookEvent (.runTimeout now) = .ok d' := h
      refine ⟨_, rfl, Impl.notes_of_query h fun book hb => Or.inr ⟨.runTimeout now, .timeout, hb⟩⟩
  | getOrdersForAsset asset =>
      have h : d.bookEvent (.getOrdersForAsset asset) = .ok d' := h
      refine ⟨_, rfl, Impl.notes_of_query h fun book hb => Or.inl ?_⟩
      simp only [OrderBook.event] at hb
      cases hq : Daemon.getOrdersForAsset asset d.allOrders with
      | error c => simp [hq, bind, Except.bind] at hb
      | ok j =>
          rw [hq] at hb
          exact (Except.ok.inj hb).symm
  | getOrdersByAsset =>
      have h : d.bookEvent .getOrdersByAsset = .ok d' := h
      refine ⟨_, rfl, Impl.notes_of_query h fun book hb => Or.inl ?_⟩
      simp only [OrderBook.event] at hb
      cases hq : Daemon.getOrdersByAsset d.allOrders with
      | error c => simp [hq, bind, Except.bind] at hb
      | ok j =>
          rw [hq] at hb
          exact (Except.ok.inj hb).symm

/-! ## The room -/

/-- What has happened in the room by the time an event is delivered: `room` is what has been shown to
the daemon since it has joined.  No change of a nick is hidden from it. -/
def RoomShown (d : Impl) (room : Room) : Impl.Label → Room → Prop
  | .event (.connect ok), room' => room' = if ok && !d.isConnected then fun _ => none else room
  | .event (.presence participant unavailable _), room' =>
      if participant.userSelf then room' = room
      else ∃ e, room.after e = some room' ∧ e.delivered room = (participant, unavailable) ∧
        e.hidden d.muc = false
  | _, room' => room' = room

/-- A daemon together with the room as it is shown to it. -/
def guestSystem (cfg : Config) (E : Env Call Answer W) (login : Login) :
    Transition.System ((Impl × W) × Room) Impl.Label where
  init x := login.start = .ok x.1.1 ∧ x.2 = fun _ => none
  step x l x' := (implSystem cfg E login).step x.1 l x'.1 ∧ RoomShown x.1.1 x.2 l x'.2

lemma reachable_impl {x : (Impl × W) × Room} (h : (guestSystem cfg E login).Reachable x) :
    (implSystem cfg E login).Reachable x.1 := by
  refine Transition.System.Reachable.image (Prod.fst : (Impl × W) × Room → Impl × W) ?_ ?_ h
  · exact fun x hx => hx.1
  · exact fun x l x' _ hs => Or.inr ⟨l, hs.1⟩

lemma agrees_empty {c : MucClient} (h : c.nickToJid = fun _ => none) (room : Room) : c.Agrees room := by
  intro nick jid hn
  rw [MucClient.resolveNickname, h] at hn
  simp at hn

/-- The client forgets everything, or stays as it is. -/
lemma MucClient.Agrees.disconnectAsync {c : MucClient} {room : Room} (h : c.Agrees room) :
    c.disconnectAsync.Agrees room := by
  rw [MucClient.disconnectAsync]
  split_ifs
  · exact h
  · exact agrees_empty rfl room

/-- **What the client has on file is so in the room.** -/
lemma RoomShown.agrees {d : Impl} {room room' : Room} {e : Impl.Event} {muc : MucClient}
    (h : RoomShown d room (.event e) room') (hmuc : d.mucAfter e = .ok muc) (hagree : d.muc.Agrees room) :
    muc.Agrees room' := by
  cases e with
  | connect ok =>
      obtain rfl := Except.ok.inj hmuc
      rw [show room' = _ from h, Impl.connect]
      cases d.isConnected with
      | true => simpa using hagree
      | false =>
          cases ok with
          | true => exact agrees_empty rfl _
          | false => exact hagree
  | presence participant unavailable now =>
      simp only [Impl.mucAfter] at hmuc
      simp only [RoomShown] at h
      cases hp : d.muc.handleMUCParticipantPresence participant unavailable with
      | error c => simp [hp, Except.map] at hmuc
      | ok r =>
          obtain ⟨left, c⟩ := r
          rw [hp] at hmuc
          obtain rfl := Except.ok.inj hmuc
          by_cases hself : participant.userSelf = true
          · rw [if_pos hself] at h
            subst h
            rw [MucClient.handleMUCParticipantPresence, if_pos hself] at hp
            obtain ⟨_, rfl⟩ := Prod.mk.inj (Except.ok.inj hp)
            split_ifs
            · exact hagree.disconnectAsync
            · exact hagree
          · rw [if_neg hself] at h
            obtain ⟨ev, hroom, hev, hshown⟩ := h
            refine hagree.step hroom (d := left) ?_ hshown
            rw [hev]
            exact hp
  | mucError =>
      obtain rfl := Except.ok.inj hmuc
      rw [show room' = room from h]
      exact hagree.disconnectAsync
  | _ =>
      obtain rfl := Except.ok.inj hmuc
      rw [show room' = room from h]
      exact hagree

/-- Sending has nothing to do with the room. -/
lemma Impl.muc_of_send (d : Impl) (outbox : List Outgoing) (out : Outgoing) :
    (d.after (Impl.send { d with outbox } out)).muc = d.muc := by
  cases out with
  | processing msg =>
      simp only [Impl.send, Impl.after, Impl.sendProcessingMessage]
      split <;> rfl
  | updateOrders orders =>
      simp only [Impl.send, Impl.updateOrders]
      split_ifs <;> rfl
  | direct stanza =>
      simp only [Impl.send]
      split_ifs <;> rfl
  | publish orders =>
      simp only [Impl.send]
      split_ifs <;> rfl

/-- A daemon that still runs has the room on file as it is. -/
lemma reachable_agrees {x : (Impl × W) × Room} (h : (guestSystem cfg E login).Reachable x)
    (hrun : x.1.1.aborted = none) : x.1.1.muc.Agrees x.2 := by
  revert hrun
  refine h.invariant (fun x => x.1.1.aborted = none → x.1.1.muc.Agrees x.2) ?_ ?_
  · rintro ⟨⟨d, w⟩, room⟩ ⟨hd, rfl⟩ _
    obtain ⟨_, auth, _, rfl⟩ := Impl.of_construct hd
    exact agrees_empty rfl _
  · rintro ⟨⟨d, w⟩, room⟩ l ⟨⟨d', w'⟩, room'⟩ _ ih ⟨⟨hs, _⟩, hroom⟩ hrun
    dsimp only at ih hs hroom hrun ⊢
    cases hs with
    | own hr _ _ =>
        rw [show room' = room from hroom]
        exact ih hrun
    | event e hr =>
        have hbefore : d.aborted = none := by
          rw [Impl.running, Bool.and_eq_true] at hr
          exact Option.isNone_iff_eq_none.mp hr.1
        cases hd : d.handle e with
        | error c => simp [hd, Impl.after] at hrun
        | ok d' =>
            obtain ⟨muc, hmuc, hnotes⟩ := Impl.notes_of_handle hd
            rw [Impl.after, hnotes.muc]
            exact RoomShown.agrees hroom hmuc (ih hbefore)
    | @send before out rest hr hout =>
        have hbefore : d.aborted = none := by
          rw [Impl.running, Bool.and_eq_true] at hr
          exact Option.isNone_iff_eq_none.mp hr.1
        rw [show room' = room from hroom, d.muc_of_send]
        exact ih hbefore

/-! ## The order books -/

section Market

variable {ι : Type} {cfgs : ι → Config} {Es : ι → Env Call Answer W} {logins : ι → Login}

/-- **What the server of the room promises.**  A broadcast under the nick of a user of the account of
one of our daemons is one that this daemon has handed over. -/
def Relays (logins : ι → Login) (x : ι → (Impl × W) × Room) (l : ι × Impl.Label) : Prop :=
  ∀ sender spec now data jid, l.2 = .event (.groupchat sender false spec now (some data)) →
    (x l.1).2 sender.resource = some jid →
    ∀ j, accountOf (logins l.1).xidServers jid = some (logins j).account →
      ∃ orders ∈ (x j).1.1.published, data.orders = orders.orders

/-- The daemons in the room. -/
def market (cfgs : ι → Config) (Es : ι → Env Call Answer W) (logins : ι → Login) :
    Transition.System (ι → (Impl × W) × Room) (ι × Impl.Label) :=
  (Transition.System.product fun i => guestSystem (cfgs i) (Es i) (logins i)).restrict
    (Relays logins)

/-- The book has, of the account, only what is in one of these broadcasts. -/
def ListsFrom (book : OrderBook) (account : String) (published : List OrdersOfAccount) : Prop :=
  ∀ a, book.orders.lookup account = some a → ∃ orders ∈ published,
    ∀ id o, a.orders.lookup id = some o → orders.orders.lookup id = some o

lemma ListsFrom.mono {book book' : OrderBook} {account : String}
    {published published' : List OrdersOfAccount} (h : ListsFrom book account published)
    (hbook : ∀ a, book'.orders.lookup account = some a → book.orders.lookup account = some a)
    (hpublished : published ⊆ published') : ListsFrom book' account published' := by
  intro a ha
  obtain ⟨orders, hmem, hsub⟩ := h a (hbook a ha)
  exact ⟨orders, hpublished hmem, hsub⟩

/-- What a call of another account leaves. -/
lemma lookup_of_call {book book' : OrderBook} {c : BookCall} (hc : book.call c = .ok book')
    {account : String} {a : AccountOrders} (ha : book'.orders.lookup account = some a) :
    book.orders.lookup account = some a ∨ ∃ now upd, c = .updateOrders now upd ∧
      upd.account = some account ∧ upd.orders.entries.isEmpty = false ∧ a = ⟨upd.orders, now⟩ := by
  cases c with
  | runTimeout now =>
      obtain rfl := Except.ok.inj hc
      exact Or.inl (lookup_of_timeoutLoop ha)
  | updateOrders now upd =>
      obtain ⟨acc, hacc, _, rfl⟩ := updateOrders_ok hc
      split at ha
      · exact Or.inl (lookup_of_erase ha)
      · rename_i hempty
        by_cases heq : account = acc
        · subst heq
          rw [AList.lookup_insert] at ha
          exact Or.inr ⟨now, upd, rfl, hacc, by simpa using hempty, (Option.some.inj ha).symm⟩
        · rw [AList.lookup_insert_ne heq] at ha
          exact Or.inl ha

/-- A daemon does not forget what it has handed over. -/
lemma Impl.published_of_step {d d' : Impl} {l : Impl.Label} (hs : Impl.Step cfg d l d') :
    d.published ⊆ d'.published := by
  cases hs with
  | own => exact List.Subset.refl _
  | event e hrun =>
      cases hd : d.handle e with
      | error c => exact List.Subset.refl _
      | ok d' => cases Impl.handled_of_handle hd <;> exact List.Subset.refl _
  | @send before out rest hrun hout =>
      cases out with
      | processing msg =>
          simp only [Impl.send, Impl.after, Impl.sendProcessingMessage]
          split <;> exact List.Subset.refl _
      | updateOrders orders =>
          simp only [Impl.send, Impl.updateOrders]
          split_ifs <;> exact List.Subset.refl _
      | direct stanza =>
          simp only [Impl.send]
          split_ifs <;> exact List.Subset.refl _
      | publish orders =>
          simp only [Impl.send]
          split_ifs
          · exact List.subset_append_left _ _
          · exact List.Subset.refl _

/-- The order book after a step. -/
lemma Impl.book_of_step {d d' : Impl} {l : Impl.Label} (hs : Impl.Step cfg d l d') :
    d'.allOrders = d.allOrders ∨
      ∃ e c, l = .event e ∧ d.Learned e c ∧ d.allOrders.call c = .ok d'.allOrders := by
  cases hs with
  | own => exact Or.inl rfl
  | event e hrun =>
      cases hd : d.handle e with
      | error c => exact Or.inl rfl
      | ok d' =>
          obtain ⟨_, _, hnotes⟩ := Impl.notes_of_handle hd
          exact hnotes.book.imp_right fun ⟨c, hlearned, hc⟩ => ⟨e, c, rfl, hlearned, hc⟩
  | @send before out rest hrun hout => exact Or.inl (d.kept_of_send _ out).2.2

lemma Impl.running_of_step {d d' : Impl} {l : Impl.Label} (hs : Impl.Step cfg d l d') :
    d.aborted = none := by
  have hrun : d.running = true := by cases hs <;> assumption
  rw [Impl.running, Bool.and_eq_true] at hrun
  exact Option.isNone_iff_eq_none.mp hrun.1

/-- **Every book lists from one broadcast of each account.** -/
lemma reachable_lists {x : ι → (Impl × W) × Room} (h : (market cfgs Es logins).Reachable x)
    (i j : ι) : ListsFrom (x i).1.1.allOrders (logins j).account (x j).1.1.published := by
  revert i j
  refine h.invariant (fun x => ∀ i j,
    ListsFrom (x i).1.1.allOrders (logins j).account (x j).1.1.published) ?_ ?_
  · intro x hx i j a ha
    obtain ⟨_, auth, _, hd⟩ := Impl.of_construct (hx i).1
    rw [hd, AList.lookup_empty] at ha
    simp at ha
  · rintro x ⟨k, l⟩ x' hr ih ⟨⟨⟨⟨hs, _⟩, _⟩, hothers⟩, hrelays⟩ i j
    dsimp only at hs hothers
    have hgrow : (x j).1.1.published ⊆ (x' j).1.1.published := by
      by_cases hj : j = k
      · subst hj
        exact Impl.published_of_step hs
      · rw [hothers j hj]
        exact List.Subset.refl _
    by_cases hi : i = k
    · subst hi
      rcases Impl.book_of_step hs with hsame | ⟨e, c, rfl, hlearned, hc⟩
      · rw [hsame]
        exact (ih i j).mono (fun _ ha => ha) hgrow
      · intro a ha
        rcases lookup_of_call hc ha with hold | ⟨now, upd, rfl, hacc, hnonempty, rfl⟩
        · obtain ⟨orders, hmem, hsub⟩ := ih i j a hold
          exact ⟨orders, hgrow hmem, hsub⟩
        · cases hlearned with
          | gone => cases hnonempty
          | @heard sender spec now data jid account he hjid haccount =>
              have hguest := hr.of_restrict.component i
              obtain rfl := Option.some.inj hacc
              rw [(reachable_known (reachable_impl hguest)).servers] at haccount
              have hroom := reachable_agrees hguest (Impl.running_of_step hs) _ _ hjid
              obtain ⟨orders, hmem, hdata⟩ :=
                hrelays sender spec now data jid (congrArg Impl.Label.event he) hroom j haccount
              refine ⟨orders, hgrow hmem, fun id o ho => ?_⟩
              have ho := mem_entries_filter.mp (AList.mem_lookup_iff.mp ho)
              rw [← hdata]
              exact AList.mem_lookup_iff.mpr ho.1
    · rw [hothers i hi]
      exact (ih i j).mono (fun _ ha => ha) hgrow

/-- Every stored order has the fields that the queries assert. -/
lemma reachable_complete {x : Impl × W} (h : (implSystem cfg E login).Reachable x) :
    x.1.allOrders.Complete := by
  refine Transition.System.Reachable.invariant (fun x => x.1.allOrders.Complete) ?_ ?_ h
  · intro x hx s hs
    obtain ⟨_, auth, _, hd⟩ := Impl.of_construct hx
    obtain ⟨a, ha, _⟩ := mem_stored.mp hs
    rw [hd, AList.lookup_empty] at ha
    cases ha
  · rintro x l x' _ ih ⟨hs, _⟩
    rcases Impl.book_of_step hs with hsame | ⟨_, c, _, _, hc⟩
    · rw [hsame]
      exact ih
    · exact call_complete ih hc

/-- The state is one that the daemon of the account was in. -/
def Sys.Passed (σ : Sys) (account : String) (s : State) : Prop :=
  s = (Sys.start account).state ∨ ∃ rec ∈ σ.log, rec.pre = s

/-- **What is on the market is what its owners have offered.** -/
theorem market_authentic {x : ι → (Impl × W) × Room} (h : (market cfgs Es logins).Reachable x)
    (i : ι) : ∃ view, (x i).1.1.allOrders.getByAsset = .ok view ∧
      ∀ j, ∃ s, (x j).1.1.sys.Passed (logins j).account s ∧ ∀ asset e type o, view.lookup asset = some e →
        o ∈ e.side type → o.account = some (logins j).account →
        ∃ id o₁, s.ownOrders.lookup id = some o₁ ∧ o₁.locked = false ∧ o₁.asset = some asset ∧
          o₁.type = some type ∧ o = o₁.shown (logins j).account id := by
  have hguest := fun k => h.of_restrict.component k
  have hcomplete := reachable_complete (reachable_impl (hguest i))
  obtain ⟨view, hview, hlookup⟩ := getByAsset_grouped hcomplete
  have hshows := shows_of_grouped hcomplete hlookup
  refine ⟨view, hview, fun j => ?_⟩
  cases ha : (x i).1.1.allOrders.orders.lookup (logins j).account with
  | none =>
      refine ⟨_, Or.inl rfl, fun asset e type o he ho hacc => ?_⟩
      obtain ⟨account, id, o₁, ⟨a, ha', _⟩, _, _, rfl⟩ := hshows.only asset e type o he ho
      obtain rfl := Option.some.inj hacc
      rw [ha] at ha'
      cases ha'
  | some a =>
      obtain ⟨orders, hmem, hsub⟩ := reachable_lists h i j a ha
      obtain ⟨rec, hrec, _, rfl⟩ :=
        (reachable_offers (reachable_impl (hguest j))).published orders hmem
      refine ⟨rec.pre, Or.inr ⟨rec, hrec, rfl⟩, fun asset e type o he ho hacc => ?_⟩
      obtain ⟨account, id, o₁, ⟨a', ha', ho₁⟩, hasset, htype, rfl⟩ := hshows.only asset e type o he ho
      obtain rfl := Option.some.inj hacc
      obtain rfl := Option.some.inj (ha.symm.trans ha')
      obtain ⟨hown, hunlocked⟩ := lookup_internalGetOrders.mp (hsub id o₁ ho₁)
      exact ⟨id, o₁, hown, by simpa using hunlocked, hasset, htype, rfl⟩

end Market

/-! ### An offer is seen -/

section Scripted

variable (h : Bool → W → (c : Call) → Answer c × W)

/-- The room after a step, with what happens in it. -/
def roomNext (d : Impl) (room : Room) (shown : Option RoomEvent) : Impl.Label → Option Room
  | .event (.connect ok) => some (if ok && !d.isConnected then fun _ => none else room)
  | .event (.presence participant unavailable _) =>
      if participant.userSelf then some room
      else shown.bind fun e =>
        if e.delivered room = (participant, unavailable) ∧ e.hidden d.muc = false then room.after e
        else none
  | _ => some room

lemma roomShown_of_next {d : Impl} {room room' : Room} {shown : Option RoomEvent} {l : Impl.Label}
    (hn : roomNext d room shown l = some room') : RoomShown d room l room' := by
  cases l with
  | own | send => exact (Option.some.inj hn).symm
  | event e =>
      cases e with
      | presence participant unavailable now =>
          simp only [roomNext] at hn
          simp only [RoomShown]
          split_ifs at hn ⊢
          · exact (Option.some.inj hn).symm
          · obtain ⟨e, _, hn⟩ := Option.bind_eq_some_iff.mp hn
            split_ifs at hn with hok
            exact ⟨e, hn, hok.1, hok.2⟩
      | _ => exact (Option.some.inj hn).symm

/-- `Relays`, to be evaluated. -/
def relayed (logins : Bool → Login) (x : Bool → (Impl × W) × Room) (i : Bool) : Impl.Label → Bool
  | .event (.groupchat sender _ _ _ (some data)) =>
      ((x i).2 sender.resource).all fun jid => decide (∀ j,
        accountOf (logins i).xidServers jid = some (logins j).account →
          ∃ orders ∈ (x j).1.1.published, data.orders.entries = orders.orders.entries)
  | _ => true

/-- A schedule for both daemons, with what happens in the room. -/
def Market.play (cfgs : Bool → Config) (logins : Bool → Login) :
    (Bool → (Impl × W) × Room) → List (Bool × ImplSched × Option RoomEvent) →
      Option (Bool → (Impl × W) × Room)
  | x, [] => some x
  | x, (i, c, shown) :: rest =>
      (Impl.next (cfgs i) (h i) (x i).1 c).bind fun y =>
        (roomNext (x i).1.1 (x i).2 shown y.1).bind fun room =>
          if relayed logins x i y.1 then
            Market.play cfgs logins (Function.update x i (y.2, room)) rest
          else none

variable {h}

lemma Market.reachable_of_play {cfgs : Bool → Config} {logins : Bool → Login} :
    ∀ {cs : List (Bool × ImplSched × Option RoomEvent)} {x x' : Bool → (Impl × W) × Room},
      (market cfgs (fun i => Env.ofScript (h i)) logins).Reachable x →
      Market.play h cfgs logins x cs = some x' →
      (market cfgs (fun i => Env.ofScript (h i)) logins).Reachable x'
  | [], x, x', hr, hp => by
      obtain rfl := Option.some.inj hp
      exact hr
  | (i, c, shown) :: cs, x, x', hr, hp => by
      simp only [Market.play, Option.bind_eq_some_iff] at hp
      obtain ⟨⟨l, y⟩, hn, room, hroom, hp⟩ := hp
      split_ifs at hp with hok
      refine Market.reachable_of_play (hr.step (l := (i, l)) ⟨⟨?_, fun j hj => ?_⟩, ?_⟩) hp
      · rw [Function.update_self]
        exact ⟨Impl.step_of_next hn, roomShown_of_next hroom⟩
      · exact Function.update_of_ne hj _ _
      · rintro sender spec now data jid rfl hjid j hj
        have hall : ((x i).2 sender.resource).all _ = true := hok
        rw [hjid] at hall
        obtain ⟨orders, hmem, hentries⟩ := of_decide_eq_true hall j hj
        exact ⟨orders, hmem, AList.ext hentries⟩

end Scripted

/-- The seller offers three units, and the buyer hears of it in the room. -/
def marketSchedule : List (Bool × ImplSched × Option RoomEvent) :=
  [(false, .event (.connect true), none), (false, .own (.start (.addOrder offerOrder)), none),
    (false, .own (.run 0), none), (false, .own (.run 0), none), (false, .own (.run 0), none),
    (false, .own (.run 0), none), (false, .send 0, none), (false, .send 0, none),
    (true, .event (.connect true), none),
    (true, .event (.presence { nick := [49], jid := some (dealLogin false).jid } false 0),
      some (.join [49] (dealLogin false).jid true)),
    (true, .event (.groupchat { (dealLogin true).mucRoom with resource := [49] } false goldSpec 0
      (some { orders := AList.singleton 0 offerOrder })), none)]

/-- What the buyer is shown is an order that the seller has. -/
theorem market_authentic_offer : ∃ (x : Bool → (Impl × ℕ) × Room) (s : State) (o : Order),
    (x false).1.1.sys.Passed "seller" s ∧ s.ownOrders.lookup 0 = some o ∧ o.locked = false ∧
    ∃ view e, (x true).1.1.allOrders.getByAsset = .ok view ∧ view.lookup "gold" = some e ∧
      e.asks = [o.shown "seller" 0] := by
  have hplay : (Market.play dealScript (fun _ => sampleConfig) dealLogin
      (fun i => ((dealStart i, 0), fun _ => none)) marketSchedule).any (fun x =>
        match (x true).1.1.allOrders.getByAsset with
        | .ok view => (view.lookup "gold").any fun e =>
            e.asks.map (fun o => (o.account, o.id)) = [(some "seller", some 0)]
        | .error _ => false) = true := by
    decide +kernel
  obtain ⟨x, hx, hP⟩ := (Option.any_eq_true _ _).mp hplay
  have h₀ : (market (fun _ => sampleConfig) (fun i => Env.ofScript (dealScript i))
      dealLogin).Reachable fun i => ((dealStart i, 0), fun _ => none) :=
    .init fun i => ⟨dealStart_starts i, rfl⟩
  obtain ⟨view, hview, hall⟩ := market_authentic (Market.reachable_of_play h₀ hx) true
  obtain ⟨s, hpassed, hshown⟩ := hall false
  rw [hview] at hP
  obtain ⟨e, he, hasks⟩ := (Option.any_eq_true _ _).mp hP
  obtain ⟨o, hsingle, hkey⟩ := List.map_eq_singleton_iff.mp (of_decide_eq_true hasks)
  obtain ⟨haccount, hid⟩ := Prod.mk.inj hkey
  obtain ⟨id, o₁, hown, hunlocked, _, _, rfl⟩ :=
    hshown "gold" e .ask o he (by rw [OrderbookForAsset.side, hsingle]; simp) haccount
  obtain rfl := Option.some.inj hid
  exact ⟨x, s, o₁, hpassed, hown, hunlocked, view, e, hview, he, hsingle⟩

end Democrit
