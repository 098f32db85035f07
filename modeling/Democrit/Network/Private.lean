import Democrit.Impl
import Democrit.Network.Broadcasts
import Democrit.Network.Names
import Democrit.Safety.Agreement
import Democrit.Safety.Frames
import Mathlib.Algebra.Order.Group.Multiset
import Mathlib.Tactic.Abel

/-!
# Messages on XMPP

The trades see a network on which a message carries the name of its sender, and the accounts know each
other by name (`network`).  What the daemon really has are JIDs: a message goes to the JID that was
last seen for the account, the name of the receiver is taken off, and whoever gets it puts the name
there that the JID of the sender is authenticated for.

**This is an implementation of that network** (`xmpp_refines`): if the servers only let the daemon of
an account log in as its user, and deliver what a user has sent to the user it was sent to, then a
run on XMPP is a run on the network, for everything that concerns the trades.

On the way, **no message is lost or doubled by the daemon** (`mail_kept`): each one that the trades
send is still to be sent, or was handed over once for a JID that is authenticated for its receiver, or
was dropped as no JID is known for the receiver; and the last happens to nobody who is answered, or
whose orders are in the book (`nothing_dropped`).
-/

namespace Democrit

open Interaction

variable {W : Type} {cfg : Config} {E : Env Call Answer W} {login : Login}

/-! ## Strings -/

/-- A byte as a character. -/
lemma toNat_ofNat_byte (c : Int8) : (Char.ofNat c.toUInt8.toNat).toNat = c.toUInt8.toNat := by
  have hlt := c.toUInt8.toNat_lt
  rw [Char.ofNat, dif_pos (Or.inl (by omega))]
  rfl

lemma bytesOf_stringOf (b : Bytes) : bytesOf (stringOf b) = some b := by
  have hall : (stringOf b).toList.all (fun c => c.toNat < 256) = true := by
    rw [List.all_eq_true]
    intro c hc
    simp only [stringOf, String.toList_ofList, List.mem_map] at hc
    obtain ⟨x, _, rfl⟩ := hc
    have hlt := x.toUInt8.toNat_lt
    rw [toNat_ofNat_byte]
    simpa using hlt
  rw [bytesOf, if_pos hall, stringOf, String.toList_ofList, List.map_map]
  congr 1
  refine (List.map_congr_left fun x _ => ?_).trans (List.map_id b)
  simp only [Function.comp_apply, toNat_ofNat_byte, UInt8.ofNat_toNat, Int8.toInt8_toUInt8, id]

/-- The bytes that a string stands for are those of this string. -/
lemma stringOf_of_bytesOf {s : String} {b : Bytes} (h : bytesOf s = some b) : stringOf b = s := by
  rw [bytesOf] at h
  split_ifs at h with hall
  obtain rfl := Option.some.inj h
  rw [List.all_eq_true] at hall
  refine String.toList_inj.mp ?_
  rw [stringOf, String.toList_ofList, List.map_map]
  refine (List.map_congr_left fun c hc => ?_).trans (List.map_id s.toList)
  have hlt : c.toNat < 256 := by simpa using hall c hc
  have hnat : (UInt8.ofNat c.toNat).toNat = c.toNat := by
    rw [UInt8.toNat_ofNat']
    exact Nat.mod_eq_of_lt hlt
  simp only [Function.comp_apply, UInt8.toUInt8_toInt8, hnat, id]
  exact Char.ofNat_toNat c

/-! ## Accounts and JIDs -/

/-- The account that a JID is authenticated for. -/
def accountOf (xidServers : Finset Bytes) (jid : Jid) : Option String :=
  if jid.server ∈ xidServers then
    match decodeName jid.username with
    | .ok (some name) => some (stringOf name)
    | _ => none
  else none

/-- A JID is known for the account. -/
def Authenticator.Knows (auth : Authenticator) (account : String) : Prop :=
  ∃ name, stringOf name = account ∧ (auth.knownJids name).isSome

/-- What is known comes to be more, and all that is new is authenticated. -/
structure Authenticator.Learns (auth auth' : Authenticator) : Prop where
  servers : auth'.xidServers = auth.xidServers
  known : ∀ name, (auth.knownJids name).isSome → (auth'.knownJids name).isSome
  sound : ∀ name jid, auth'.knownJids name = some jid →
    auth.knownJids name = some jid ∨ accountOf auth.xidServers jid = some (stringOf name)

lemma Authenticator.Learns.refl (auth : Authenticator) : auth.Learns auth :=
  ⟨rfl, fun _ h => h, fun _ _ h => Or.inl h⟩

lemma Authenticator.Learns.knows {auth auth' : Authenticator} (h : auth.Learns auth')
    {account : String} (hknows : auth.Knows account) : auth'.Knows account := by
  obtain ⟨name, hname, hsome⟩ := hknows
  exact ⟨name, hname, h.known name hsome⟩

/-- **`Authenticate`** never fails an assertion, and remembers the JID. -/
lemma Impl.authenticate_spec (d : Impl) (jid : Jid) :
    ∃ auth, d.authenticate jid = .ok (accountOf d.auth.xidServers jid, { d with auth }) ∧
      d.auth.Learns auth ∧ ∀ account ∈ accountOf d.auth.xidServers jid, auth.Knows account := by
  rw [Impl.authenticate, Authenticator.authenticate, accountOf]
  by_cases hserver : jid.server ∈ d.auth.xidServers
  · rw [if_neg (not_not.mpr hserver), if_pos hserver]
    rcases decodeName_spec jid.username with ⟨name, _, hd⟩ | ⟨_, hd⟩
    · rw [hd]
      refine ⟨_, rfl, ⟨rfl, fun other hother => ?_, fun other jid' hother => ?_⟩, ?_⟩
      · by_cases heq : other = name
        · simp [heq]
        · simpa [heq] using hother
      · by_cases heq : other = name
        · subst heq
          obtain rfl : jid = jid' := by simpa using hother
          refine Or.inr ?_
          rw [accountOf, if_pos hserver, hd]
        · exact Or.inl (by simpa [heq] using hother)
      · rintro account ⟨⟩
        exact ⟨name, rfl, by simp⟩
    · rw [hd]
      exact ⟨_, rfl, .refl _, by simp⟩
  · rw [if_pos hserver, if_neg hserver]
    exact ⟨_, rfl, .refl _, by simp⟩

/-! ## Events -/

lemma mem_of_updateOrders {book book' : OrderBook} {now : ℤ} {account : String} {orders : OrderMap}
    (h : book.updateOrders now { account := some account, orders } = .ok book') {acc : String}
    (hacc : acc ∈ book'.orders) : acc ∈ book.orders ∨ acc = account := by
  simp only [OrderBook.updateOrders] at h
  split_ifs at h
  · obtain rfl := Except.ok.inj h
    exact Or.inl (AList.mem_erase.mp hacc).2
  · obtain rfl := Except.ok.inj h
    exact (AList.mem_insert _).mp hacc |>.symm

lemma mem_of_handleMessage {spec : AssetSpec} {now : ℤ} {account : Option String}
    {ext : Option AccountUpdate} {book book' : OrderBook}
    (h : Daemon.handleMessage spec now account ext book = .ok book') {acc : String}
    (hacc : acc ∈ book'.orders) : acc ∈ book.orders ∨ account = some acc := by
  match account, ext with
  | some account, some data =>
      rcases mem_of_updateOrders h hacc with hold | rfl
      · exact Or.inl hold
      · exact Or.inr rfl
  | none, _ =>
      obtain rfl := Except.ok.inj h
      exact Or.inl hacc
  | some _, none =>
      obtain rfl := Except.ok.inj h
      exact Or.inl hacc

/-- What only happens among the orders that are there already. -/
lemma mem_of_event {book book' : OrderBook} {ev : BookEvent} (h : book.event ev = .ok book')
    (hquery : ∀ spec now account ext, ev ≠ .message spec now account ext) {acc : String}
    (hacc : acc ∈ book'.orders) : acc ∈ book.orders := by
  cases ev with
  | message spec now account ext => exact absurd rfl (hquery spec now account ext)
  | runTimeout now =>
      obtain rfl := Except.ok.inj h
      obtain ⟨a, ha⟩ := Option.isSome_iff_exists.mp (AList.lookup_isSome.mpr hacc)
      exact AList.lookup_isSome.mp (Option.isSome_iff_exists.mpr ⟨a, lookup_of_timeoutLoop ha⟩)
  | getOrdersForAsset asset =>
      simp only [OrderBook.event] at h
      cases hq : Daemon.getOrdersForAsset asset book with
      | error c => simp [hq, bind, Except.bind] at h
      | ok j =>
          rw [hq] at h
          obtain rfl := Except.ok.inj h
          exact hacc
  | getOrdersByAsset =>
      simp only [OrderBook.event] at h
      cases hq : Daemon.getOrdersByAsset book with
      | error c => simp [hq, bind, Except.bind] at h
      | ok j =>
          rw [hq] at h
          obtain rfl := Except.ok.inj h
          exact hacc

/-- **Everything an event can do**: the daemon is told something, or a message is taken to the trades
in the name of its sender. -/
inductive Impl.Handled (d : Impl) : Event → Impl → Prop
  | told {e : Event} {auth : Authenticator} {muc : MucClient} {allOrders : OrderBook}
      {isConnected : Bool} (hlearns : d.auth.Learns auth)
      (hbook : ∀ acc ∈ allOrders.orders, acc ∈ d.allOrders.orders ∨ auth.Knows acc) :
      Handled d e { d with auth, muc, allOrders, isConnected }
  | called {sender : Jid} {data : ProcessingMessage} {account : String} {auth : Authenticator}
      (hlearns : d.auth.Learns auth) (haccount : accountOf d.auth.xidServers sender = some account)
      (hknows : auth.Knows account) :
      Handled d (.message sender (some data))
        (Impl.call (.processMessage { data with counterparty := some account }) { d with auth })

lemma Impl.handled_of_handleMessage {d d' : Impl} {e : Event} {muc : MucClient} {spec : AssetSpec}
    {now : ℤ} {sender : Jid} {ext : Option AccountUpdate}
    (h : Impl.handleMessage spec now sender ext { d with muc } = .ok d') : d.Handled e d' := by
  obtain ⟨auth, hauth, hlearns, hknows⟩ := Impl.authenticate_spec { d with muc } sender
  rw [Impl.handleMessage, hauth] at h
  dsimp only [bind, Except.bind] at h
  cases hb : Daemon.handleMessage spec now (accountOf d.auth.xidServers sender) ext d.allOrders with
  | error c => simp [hb] at h
  | ok book =>
      simp only [hb, pure, Except.pure, Except.ok.injEq] at h
      subst h
      refine .told hlearns fun acc hacc => ?_
      exact (mem_of_handleMessage hb hacc).imp_right fun heq => hknows acc heq

lemma Impl.handled_of_handleDisconnect {d d' : Impl} {e : Event} {muc : MucClient} {now : ℤ}
    {jid : Jid} (h : Impl.handleDisconnect now jid { d with muc } = .ok d') : d.Handled e d' := by
  obtain ⟨auth, hauth, hlearns, hknows⟩ := Impl.authenticate_spec { d with muc } jid
  rw [Impl.handleDisconnect, hauth] at h
  dsimp only [bind, Except.bind] at h
  cases hacc : accountOf d.auth.xidServers jid with
  | none =>
      simp only [hacc, pure, Except.pure, Except.ok.injEq] at h
      subst h
      exact .told hlearns fun acc hmem => Or.inl hmem
  | some account =>
      simp only [hacc] at h
      cases hb : d.allOrders.updateOrders now { account := some account } with
      | error c => simp [hb] at h
      | ok book =>
          simp only [hb, pure, Except.pure, Except.ok.injEq] at h
          subst h
          refine .told hlearns fun acc hmem => ?_
          rcases mem_of_updateOrders hb hmem with hold | rfl
          · exact Or.inl hold
          · exact Or.inr (hknows _ hacc)

lemma Impl.handled_of_bookEvent {d d' : Impl} {e : Event} {ev : BookEvent}
    (h : d.bookEvent ev = .ok d')
    (hquery : ∀ spec now account ext, ev ≠ .message spec now account ext) : d.Handled e d' := by
  rw [Impl.bookEvent] at h
  cases hb : d.allOrders.event ev with
  | error c => simp [hb] at h
  | ok book =>
      simp only [hb, Except.ok.injEq] at h
      subst h
      exact .told (.refl _) fun acc hmem => Or.inl (mem_of_event hb hquery hmem)

lemma Impl.handled_of_handle {d d' : Impl} {e : Event} (h : d.handle e = .ok d') : d.Handled e d' := by
  have same : ∀ {e : Event} {muc : MucClient} {isConnected : Bool},
      d.Handled e { d with muc, isConnected } :=
    .told (.refl _) fun acc hmem => Or.inl hmem
  cases e with
  | connect ok =>
      obtain rfl := Except.ok.inj h
      rw [Impl.connect]
      split_ifs
      · exact same
      · exact same
      · exact same
  | disconnect =>
      obtain rfl := Except.ok.inj h
      exact same
  | presence participant unavailable now =>
      simp only [Impl.handle, Impl.handlePresence] at h
      split at h
      · simp at h
      · obtain rfl := Except.ok.inj h
        exact same
      · exact Impl.handled_of_handleDisconnect h
  | groupchat sender priv spec now ext =>
      simp only [Impl.handle, Impl.handleGroupchat] at h
      split at h
      · simp at h
      · obtain rfl := Except.ok.inj h
        exact same
      · exact @Impl.handled_of_handleMessage _ _ _ d.muc _ _ _ _ h
  | mucError =>
      obtain rfl := Except.ok.inj h
      exact same
  | message sender ext =>
      obtain ⟨auth, hauth, hlearns, hknows⟩ := d.authenticate_spec sender
      simp only [Impl.handle, Impl.handlePrivate, hauth, bind, Except.bind] at h
      cases hacc : accountOf d.auth.xidServers sender with
      | none =>
          simp only [hacc, pure, Except.pure, Except.ok.injEq] at h
          subst h
          exact .told hlearns fun acc hmem => Or.inl hmem
      | some account =>
          cases ext with
          | none =>
              simp only [hacc, pure, Except.pure, Except.ok.injEq] at h
              subst h
              exact .told hlearns fun acc hmem => Or.inl hmem
          | some data =>
              simp only [hacc, pure, Except.pure, Except.ok.injEq] at h
              subst h
              exact .called hlearns hacc (hknows account hacc)
  | runTimeout now =>
      have h : d.bookEvent (.runTimeout now) = .ok d' := h
      exact Impl.handled_of_bookEvent h (by simp)
  | getOrdersForAsset asset =>
      have h : d.bookEvent (.getOrdersForAsset asset) = .ok d' := h
      exact Impl.handled_of_bookEvent h (by simp)
  | getOrdersByAsset =>
      have h : d.bookEvent .getOrdersByAsset = .ok d' := h
      exact Impl.handled_of_bookEvent h (by simp)

/-! ## The trading side -/

/-- The constructor checks that our own JID is one of our account. -/
lemma Impl.of_construct {d : Impl} (h : login.start = .ok d) :
    accountOf login.xidServers login.jid = some login.account ∧ ∃ auth,
      Authenticator.Learns { xidServers := login.xidServers } auth ∧
      d = { sys := Sys.start login.account, auth, muc := { roomName := login.mucRoom }
            allOrders := { timeout := login.timeout } } := by
  obtain ⟨auth, hauth, hlearns, _⟩ := Impl.authenticate_spec
    { sys := Sys.start login.account, auth := { xidServers := login.xidServers }
      muc := { roomName := login.mucRoom }, allOrders := { timeout := login.timeout } } login.jid
  simp only [Login.start, Impl.construct, hauth, bind, Except.bind] at h
  cases hacc : accountOf login.xidServers login.jid with
  | none => simp [hacc] at h
  | some account =>
      simp only [hacc] at h
      split_ifs at h with heq
      subst heq
      exact ⟨rfl, auth, hlearns, (Except.ok.inj h).symm⟩

/-- Sending only concerns the outbox and what is done with it. -/
lemma Impl.kept_of_send (d : Impl) (outbox : List Outgoing) (out : Outgoing) :
    (d.after (Impl.send { d with outbox } out)).sys = d.sys ∧
    (d.after (Impl.send { d with outbox } out)).auth = d.auth ∧
    (d.after (Impl.send { d with outbox } out)).allOrders = d.allOrders := by
  cases out with
  | processing msg =>
      simp only [Impl.send, Impl.after, Impl.sendProcessingMessage]
      split <;> exact ⟨rfl, rfl, rfl⟩
  | updateOrders orders =>
      simp only [Impl.send, Impl.updateOrders]
      split_ifs <;> exact ⟨rfl, rfl, rfl⟩
  | direct stanza =>
      simp only [Impl.send]
      split_ifs <;> exact ⟨rfl, rfl, rfl⟩
  | publish orders =>
      simp only [Impl.send]
      split_ifs <;> exact ⟨rfl, rfl, rfl⟩

/-- What is done on the trading side in a step: nothing, or a step of its own, or a message comes in
that carries the account of its sender. -/
lemma Impl.sys_of_step {d d' : Impl} {l : Impl.Label} (hs : Impl.Step cfg d l d') :
    (d'.sys = d.sys ∧ l.talk = []) ∨
    (∃ l₀, l = .own l₀ ∧ l₀.own = true ∧ Sys.Step cfg d.sys l₀ d'.sys) ∨
    ∃ sender data account, l = .event (.message sender (some data)) ∧
      accountOf d.auth.xidServers sender = some account ∧
      Sys.Step cfg d.sys (.start (.processMessage { data with counterparty := some account })) d'.sys := by
  cases hs with
  | own _ hs hown => exact Or.inr (Or.inl ⟨_, rfl, hown, hs⟩)
  | event e hrun =>
      cases hd : d.handle e with
      | error c => exact Or.inl ⟨rfl, rfl⟩
      | ok d' =>
          cases Impl.handled_of_handle hd with
          | told => exact Or.inl ⟨rfl, rfl⟩
          | @called sender data account auth _ haccount _ =>
              refine Or.inr (Or.inr ⟨sender, data, account, rfl, haccount, .start _ ?_⟩)
              rw [Impl.running, Bool.and_eq_true, Bool.not_eq_true'] at hrun
              exact hrun.2
  | @send before out rest hrun hout =>
      exact Or.inl ⟨(d.kept_of_send _ out).1, rfl⟩

/-- A daemon only runs with a JID of its account. -/
lemma login_of_reachable {x : Impl × W} (h : (implSystem cfg E login).Reachable x) :
    accountOf login.xidServers login.jid = some login.account := by
  induction h with
  | init hx => exact (Impl.of_construct hx).1
  | step _ _ ih => exact ih

/-- **What the trading side of a daemon on XMPP does is a run of it.** -/
lemma reachable_sys {x : Impl × W} (h : (implSystem cfg E login).Reachable x) :
    (system cfg E login.account).Reachable (x.1.sys, x.2) := by
  refine Transition.System.Reachable.image (fun x : Impl × W => (x.1.sys, x.2)) ?_ ?_ h
  · intro x hx
    obtain ⟨_, auth, _, hd⟩ := Impl.of_construct hx
    exact congrArg Impl.sys hd
  · rintro x l x' _ ⟨hs, hpath⟩
    rcases Impl.sys_of_step hs with ⟨hsame, htalk⟩ | ⟨l₀, rfl, _, hs⟩ | ⟨_, _, _, rfl, _, hs⟩
    · rw [htalk] at hpath
      exact Or.inl (Prod.ext hsame hpath)
    · exact Or.inr ⟨l₀, hs, hpath⟩
    · exact Or.inr ⟨_, hs, hpath⟩

/-! ## The mail -/

/-- Whom a section of this task sends a message to. -/
def Task.party : Task → Option String
  | .takeOrder o _ => some o.getAccount
  | .process msg => some (msg.counterparty.getD "")
  | _ => none

/-- A message is sent to the account whose order is taken, or to the one that is answered. -/
lemma party_of_reply {rec : Record}
    (h : Section cfg rec.pre rec.task rec.talk rec.outcome rec.post) {reply : ProcessingMessage}
    (hreply : rec.reply = some reply) :
    ∃ party, rec.task.party = some party ∧ reply.counterparty = some party := by
  obtain ⟨op, task, s, tr, r, s'⟩ := rec
  dsimp only at h
  have unrelated : (∀ eff, r = .ok eff → eff.reply = none) → False := by
    intro hnone
    rw [Record.reply] at hreply
    cases r with
    | error e => simp at hreply
    | ok eff =>
        have hreply : eff.reply = some reply := hreply
        rw [hnone eff rfl] at hreply
        simp at hreply
  cases h with
  | idle _ _ hun _ => exact (unrelated hun.reply).elim
  | takeFailed _ _ _ hres =>
      refine (unrelated ?_).elim
      rcases hres with ⟨_, rfl⟩ | ⟨c, _, rfl⟩
      · rintro _ ⟨⟩
        rfl
      · simp
  | @takeCreated o units now tr reply' pb' _ _ hout =>
      obtain rfl := Option.some.inj hreply
      refine ⟨_, rfl, ?_⟩
      cases reply' with
      | none => exact congrArg some hout.frame.counterparty
      | some reply' => exact (hout.answers rfl).1
  | @processed msg before t after tr r t' _ _ hm hout _ =>
      have hmatch := hm
      simp only [tradeMatches, Bool.and_eq_true, decide_eq_true_eq] at hmatch
      have hframe := (@handleMessage_spec s.account msg t).frame
      refine ⟨_, rfl, ?_⟩
      rw [(hout.answers hreply).1, hframe.counterparty, hmatch.1]
  | succeeded _ _ hun => exact (unrelated hun.reply).elim
  | aborted | updateFailed => exact (unrelated (by simp)).elim
  | _ =>
      refine (unrelated ?_).elim
      rintro _ ⟨⟩
      rfl

/-- The message that a stanza is about, with its receiver by name again. -/
def Stanza.restore (xidServers : Finset Bytes) (s : Stanza) : ProcessingMessage :=
  { s.msg with counterparty := accountOf xidServers s.receiver }

/-- The message that is still to be sent. -/
def Outgoing.message (xidServers : Finset Bytes) : Outgoing → Option ProcessingMessage
  | .processing msg => some msg
  | .direct stanza => some (stanza.restore xidServers)
  | .updateOrders _ | .publish _ => none

/-- What the trades have sent. -/
def Sys.replies (σ : Sys) : List ProcessingMessage := σ.log.filterMap Record.reply

/-- Where it is: still to be sent, handed over, or dropped. -/
def Impl.mail (xidServers : Finset Bytes) (d : Impl) : Multiset ProcessingMessage :=
  (d.outbox.filterMap (Outgoing.message xidServers) : Multiset ProcessingMessage)
    + (d.sent.map (Stanza.restore xidServers) : Multiset ProcessingMessage)
    + (d.dropped : Multiset ProcessingMessage)

/-- What is known comes from the servers that were given. -/
structure Impl.KnownOk (login : Login) (d : Impl) : Prop where
  servers : d.auth.xidServers = login.xidServers
  known : ∀ name jid, d.auth.knownJids name = some jid →
    accountOf login.xidServers jid = some (stringOf name)

lemma Impl.KnownOk.learns {d d' : Impl} (h : d.KnownOk login) (hl : d.auth.Learns d'.auth) :
    d'.KnownOk login := by
  refine ⟨hl.servers.trans h.servers, fun name jid hjid => ?_⟩
  rcases hl.sound name jid hjid with hold | hnew
  · exact h.known name jid hold
  · rwa [h.servers] at hnew

/-- What a step does to the authenticator. -/
lemma Impl.learns_of_step {d d' : Impl} {l : Impl.Label} (hs : Impl.Step cfg d l d') :
    d.auth.Learns d'.auth := by
  cases hs with
  | own => exact .refl _
  | event e hrun =>
      cases hd : d.handle e with
      | error c => exact .refl _
      | ok d' =>
          cases Impl.handled_of_handle hd with
          | told hl _ => exact hl
          | called hl _ _ => exact hl
  | @send before out rest hrun hout =>
      rw [(d.kept_of_send _ out).2.1]
      exact .refl _

lemma reachable_known {x : Impl × W} (h : (implSystem cfg E login).Reachable x) :
    x.1.KnownOk login := by
  refine Transition.System.Reachable.invariant (fun x => x.1.KnownOk login) ?_ ?_ h
  · intro x hx
    obtain ⟨_, auth, hl, hd⟩ := Impl.of_construct hx
    rw [hd]
    refine ⟨hl.servers, fun name jid hjid => ?_⟩
    rcases hl.sound name jid hjid with hold | hnew
    · simp at hold
    · exact hnew
  · rintro x l x' _ ih ⟨hs, _⟩
    exact ih.learns (Impl.learns_of_step hs)

/-- The JID that is found for an account is one of this account. -/
lemma Impl.KnownOk.lookup {d : Impl} (h : d.KnownOk login) {account : String} {jid : Jid}
    (hj : d.lookupJid account = some jid) : accountOf login.xidServers jid = some account := by
  obtain ⟨name, hname, hjid⟩ := Option.bind_eq_some_iff.mp hj
  rw [h.known name jid hjid, stringOf_of_bytesOf hname]

/-- The mail, with one thing that is to be sent taken out. -/
lemma Impl.mail_eq (xidServers : Finset Bytes) {d : Impl} {before rest : List Outgoing}
    {out : Outgoing} (hout : d.outbox = before ++ out :: rest) :
    d.mail xidServers = ((out.message xidServers).toList : Multiset ProcessingMessage)
      + Impl.mail xidServers { d with outbox := before ++ rest } := by
  have hmove : (d.outbox.filterMap (Outgoing.message xidServers) : Multiset ProcessingMessage)
      = ((out.message xidServers).toList : Multiset ProcessingMessage)
        + ((before ++ rest).filterMap (Outgoing.message xidServers) : List ProcessingMessage) := by
    rw [hout, Multiset.coe_add, Multiset.coe_eq_coe, List.filterMap_append, List.filterMap_append,
      List.filterMap_cons]
    cases out.message xidServers with
    | none => exact List.Perm.refl _
    | some msg => exact List.perm_middle
  simp only [Impl.mail, hmove]
  abel

/-- The message of what goes to the outbox comes to the mail. -/
lemma Impl.mail_push (xidServers : Finset Bytes) (d : Impl) (outs : List Outgoing) :
    Impl.mail xidServers { d with outbox := d.outbox ++ outs }
      = d.mail xidServers
        + (outs.filterMap (Outgoing.message xidServers) : Multiset ProcessingMessage) := by
  simp only [Impl.mail, List.filterMap_append, ← Multiset.coe_add]
  abel

/-- **What is sent on is the same message.** -/
lemma Impl.mail_of_send {d : Impl} (hknown : d.KnownOk login) {before rest : List Outgoing}
    {out : Outgoing} (hout : d.outbox = before ++ out :: rest)
    (hset : ∀ msg, out = .processing msg → msg.counterparty.isSome) :
    (d.after (Impl.send { d with outbox := before ++ rest } out)).mail login.xidServers
      = d.mail login.xidServers := by
  rw [Impl.mail_eq login.xidServers hout]
  cases out with
  | processing msg =>
      obtain ⟨party, hparty⟩ := Option.isSome_iff_exists.mp (hset msg rfl)
      simp only [Impl.send, Impl.after, Impl.sendProcessingMessage]
      cases hj : Impl.lookupJid { d with outbox := before ++ rest } (msg.counterparty.getD "") with
      | none =>
          simp only [Impl.mail, Outgoing.message, Option.toList_some, ← Multiset.coe_add]
          abel
      | some receiver =>
          have hrestore : (⟨receiver, { msg with counterparty := none }⟩ : Stanza).restore
              login.xidServers = msg := by
            have hacc := hknown.lookup hj
            rw [hparty, Option.getD_some] at hacc
            simp only [Stanza.restore, hacc, ← hparty]
          have hpush := Impl.mail_push login.xidServers { d with outbox := before ++ rest }
            [.direct ⟨receiver, { msg with counterparty := none }⟩]
          rw [add_comm]
          simpa [Outgoing.message, hrestore] using hpush
  | updateOrders orders =>
      simp only [Impl.send, Impl.updateOrders]
      split_ifs
      · exact Impl.mail_eq login.xidServers hout
      · rw [add_comm]
        exact Impl.mail_push login.xidServers { d with outbox := before ++ rest } [.publish orders]
      · exact (zero_add _).symm
  | direct stanza =>
      simp only [Impl.send]
      split_ifs
      · simp only [Impl.after, Impl.mail, Outgoing.message, Option.toList_some, List.map_append,
          List.map_cons, List.map_nil, ← Multiset.coe_add]
        abel
      · exact Impl.mail_eq login.xidServers hout
  | publish orders =>
      simp only [Impl.send]
      split_ifs
      · exact (zero_add _).symm
      · exact Impl.mail_eq login.xidServers hout

/-- What the trades send is what the thread has to send after the step. -/
lemma Label.message_outgoing (xidServers : Finset Bytes) (l : Democrit.Label) :
    l.outgoing.filterMap (Outgoing.message xidServers) = l.news.filterMap Record.reply := by
  cases l with
  | start op => rfl
  | run rec =>
      obtain ⟨op, task, s, tr, r, s'⟩ := rec
      cases r with
      | error e => rfl
      | ok eff =>
          obtain ⟨next, reply, published⟩ := eff
          cases reply <;> cases published <;> rfl

lemma Sys.replies_of_step {σ σ' : Sys} {l : Democrit.Label} (hs : Sys.Step cfg σ l σ') :
    σ'.replies = σ.replies ++ l.news.filterMap Record.reply := by
  rw [Sys.replies, Sys.replies, log_of_step hs, List.filterMap_append]

/-- The messages that the trades have sent have a receiver. -/
lemma receiver_of_reply {x : Sys × W} {account : String} (h : (system cfg E account).Reachable x)
    {msg : ProcessingMessage} (hmsg : msg ∈ x.1.replies) :
    ∃ rec ∈ x.1.log, rec.reply = some msg ∧ ∃ party, rec.task.party = some party ∧
      msg.counterparty = some party := by
  obtain ⟨rec, hrec, hreply⟩ := List.mem_filterMap.mp hmsg
  exact ⟨rec, hrec, hreply, party_of_reply (past_of_record h hrec).1 hreply⟩

/-- **No message is lost or doubled.**  Each message that the trades have sent is still to be sent,
or was handed over to the server once, for a JID that is authenticated for the account it is meant
for, or was dropped. -/
theorem mail_kept {x : Impl × W} (h : (implSystem cfg E login).Reachable x) :
    (x.1.sys.replies : Multiset ProcessingMessage) = x.1.mail login.xidServers := by
  refine Transition.System.Reachable.invariant
    (fun x => (x.1.sys.replies : Multiset ProcessingMessage) = x.1.mail login.xidServers) ?_ ?_ h
  · intro x hx
    obtain ⟨_, auth, _, hd⟩ := Impl.of_construct hx
    rw [hd]
    rfl
  · rintro x l x' hr ih ⟨hs, _⟩
    have hknown := reachable_known hr
    generalize x'.1 = d' at hs
    cases hs with
    | @own l σ' _ hs hown =>
        rw [Sys.replies_of_step hs, ← Multiset.coe_add, ih, ← Label.message_outgoing login.xidServers]
        exact (Impl.mail_push login.xidServers { x.1 with sys := σ' } l.outgoing).symm
    | event e hrun =>
        cases hd : x.1.handle e with
        | error c => exact ih
        | ok d' =>
            cases Impl.handled_of_handle hd with
            | told => exact ih
            | called => exact ih
    | @send before out rest hrun hout =>
        have hset : ∀ msg, out = .processing msg → msg.counterparty.isSome := by
          rintro msg rfl
          have hmem : msg ∈ x.1.sys.replies := by
            rw [← Multiset.mem_coe, ih, Impl.mail_eq login.xidServers hout]
            simp [Outgoing.message]
          obtain ⟨_, _, _, party, _, hparty⟩ := receiver_of_reply (reachable_sys hr) hmem
          simp [hparty]
        rw [(x.1.kept_of_send _ out).1, ih]
        exact (Impl.mail_of_send hknown hout hset).symm

/-! ### An order is taken -/

/-- The two users, on a server that both trust. -/
def dealLogin (taker : Bool) : Login where
  account := dealAccount taker
  jid :=
    { username := if taker then [98, 117, 121, 101, 114] else [115, 101, 108, 108, 101, 114]
      server := [120], resource := [] }
  mucRoom := { username := [114], server := [121], resource := [] }
  xidServers := {[120]}
  timeout := 1000

/-- A daemon that has just been started. -/
def dealStart (taker : Bool) : Impl where
  sys := Sys.start (dealAccount taker)
  auth :=
    { xidServers := {[120]}
      knownJids := fun a =>
        if a = (dealLogin taker).jid.username then some (dealLogin taker).jid else none }
  muc := { roomName := (dealLogin taker).mucRoom }
  allOrders := { timeout := 1000 }

lemma dealStart_starts (taker : Bool) : (dealLogin taker).start = .ok (dealStart taker) := by
  cases taker <;> rfl

/-- The buyer comes to the room, hears of the seller's order there, and takes it. -/
def buyerSchedule : List ImplSched :=
  [.event (.connect true),
    .event (.presence { nick := [49], jid := some (dealLogin false).jid } false 0),
    .event (.groupchat { (dealLogin true).mucRoom with resource := [49] } false goldSpec 0
      (some { orders := AList.singleton 0 { offerOrder with account := some "seller" } })),
    .own (.start (.takeOrder dealOrder 2)), .own (.run 0), .send 0, .send 0]

/-- The message to the seller has been handed over. -/
theorem mail_kept_taken : ∃ x : Impl × ℕ, x.1.sent.length = 1 ∧
    (x.1.sys.replies : Multiset ProcessingMessage) = x.1.mail (dealLogin true).xidServers := by
  have hplay : (Impl.play sampleConfig (dealScript true) (fun _ _ => true) (dealStart true, 0)
      buyerSchedule).any (fun x => x.1.sent.length = 1) = true := by
    decide +kernel
  obtain ⟨x, hx, hP⟩ := (Option.any_eq_true _ _).mp hplay
  have h₀ : ((implSystem sampleConfig (Env.ofScript (dealScript true)) (dealLogin true)).restrict
      fun _ _ => True).Reachable (dealStart true, 0) := .init (dealStart_starts true)
  have hr := Impl.reachable_of_play (fun _ _ _ => trivial) h₀ hx
  exact ⟨x, of_decide_eq_true hP, mail_kept hr.of_restrict⟩

/-! ## Messages that are dropped -/

/-- Whom a task may send a message to before the thread is done. -/
def Task.contact (y : Task) : Option String :=
  match y with
  | .takeOrder o _ => some o.getAccount
  | _ => y.message.map fun msg => msg.counterparty.getD ""

/-- Orders are only taken from accounts that have some in the order book. -/
def TakesListed (x : Impl × W) (l : Impl.Label) : Prop :=
  ∀ o units, l = .own (.start (.takeOrder o units)) → o.getAccount ∈ x.1.allOrders.orders

/-- A JID is known for everybody that a message is meant for, or will be. -/
structure Impl.Addressed (d : Impl) : Prop where
  book : ∀ acc ∈ d.allOrders.orders, d.auth.Knows acc
  tasks : ∀ th ∈ d.sys.threads, ∀ y ∈ th.tasks, ∀ party ∈ y.contact, d.auth.Knows party
  outbox : ∀ msg, .processing msg ∈ d.outbox → d.auth.Knows (msg.counterparty.getD "")
  dropped : d.dropped = []

/-- Whom we know has a JID that `LookupJid` finds. -/
lemma Impl.lookup_of_knows {d : Impl} {account : String} (h : d.auth.Knows account) :
    ∃ jid, d.lookupJid account = some jid := by
  obtain ⟨name, rfl, hsome⟩ := h
  obtain ⟨jid, hjid⟩ := Option.isSome_iff_exists.mp hsome
  exact ⟨jid, by rw [Impl.lookupJid, bytesOf_stringOf]; exact hjid⟩

/-- No task after the first one of a thread has to do with somebody else. -/
lemma contact_of_exec {task y : Task} {s s' : State} {tr : Conversation} {eff : Effect}
    (hx : (exec cfg task s).Exec tr (.ok eff, s')) (hy : y ∈ eff.next) {party : String}
    (hparty : y.contact = some party) : task.contact = some party := by
  have hmessage : ∀ msg, y.message = some msg → msg.counterparty.getD "" = party →
      task.contact = some party := by
    rintro msg hmsg rfl
    have htask := message_of_exec hx hy hmsg
    cases task <;> simp_all [Task.contact, Task.message]
  cases y with
  | takeOrder o units =>
      have hleads := leads_of_exec hx _ hy
      cases task <;> cases hleads
  | receive msg => exact hmessage msg rfl (Option.some.inj hparty)
  | orderTaken o taking msg => exact hmessage msg rfl (Option.some.inj hparty)
  | process msg => exact hmessage msg rfl (Option.some.inj hparty)
  | _ => simp [Task.contact, Task.message] at hparty

lemma Impl.Addressed.own {d : Impl} {l : Democrit.Label} {σ' : Sys} (h : d.Addressed)
    (hs : Sys.Step cfg d.sys l σ') (hown : l.own = true)
    (hlisted : ∀ o units, l = .start (.takeOrder o units) → o.getAccount ∈ d.allOrders.orders) :
    Impl.Addressed { d with sys := σ', outbox := d.outbox ++ l.outgoing } := by
  have hsection : ∀ rec, l = .run rec →
      Section cfg rec.pre rec.task rec.talk rec.outcome rec.post := by
    rintro rec rfl
    exact (section_of_step hs).1
  cases hs with
  | start op _ =>
      refine ⟨h.book, fun th hth y hy party hparty => ?_, by simpa [Label.outgoing] using h.outbox,
        h.dropped⟩
      rcases List.mem_append.mp hth with hth | hth
      · exact h.tasks th hth y hy party hparty
      · obtain rfl := List.mem_singleton.mp hth
        cases op with
        | takeOrder o units =>
            obtain rfl := List.mem_singleton.mp hy
            obtain rfl := Option.some.inj hparty
            exact h.book _ (hlisted o units rfl)
        | processMessage msg => cases hown
        | refreshOrders =>
            rcases List.mem_cons.mp hy with rfl | hy
            · simp [Task.contact, Task.message] at hparty
            · obtain rfl := List.mem_singleton.mp hy
              simp [Task.contact, Task.message] at hparty
        | _ =>
            obtain rfl := List.mem_singleton.mp hy
            simp [Task.contact, Task.message] at hparty
  | @run before after op task rest tr r s' _ hth hx =>
      have old : ∀ th ∈ before ++ ⟨op, task :: rest⟩ :: after, ∀ y ∈ th.tasks,
          ∀ party ∈ y.contact, d.auth.Knows party := fun th hm => h.tasks th (by rwa [hth])
      have hself : ∀ party ∈ task.contact, d.auth.Knows party :=
        old ⟨op, task :: rest⟩ (by simp) task (by simp)
      refine ⟨h.book, fun th hm y hy party hparty => ?_, fun msg hmsg => ?_, h.dropped⟩
      · rcases List.mem_append.mp hm with hm | hm
        · exact old th (by simp [hm]) y hy party hparty
        · rcases List.mem_cons.mp hm with rfl | hm
          · cases r with
            | error e => simp [continuation] at hy
            | ok eff =>
                rcases List.mem_append.mp hy with hy | hy
                · exact hself party (contact_of_exec hx hy hparty)
                · exact old ⟨op, task :: rest⟩ (by simp) y (by simp [hy]) party hparty
          · exact old th (by simp [hm]) y hy party hparty
      · rcases List.mem_append.mp hmsg with hmsg | hmsg
        · exact h.outbox msg hmsg
        · have hreply : (⟨op, task, d.sys.state, tr, r, s'⟩ : Record).reply = some msg := by
            cases r with
            | error e => simp [Label.outgoing, Record.outgoing] at hmsg
            | ok eff =>
                have hsome : eff.reply = some msg := by
                  simpa [Label.outgoing, Record.outgoing] using hmsg
                exact hsome
          obtain ⟨party, htask, hparty⟩ := party_of_reply (hsection _ rfl) hreply
          rw [hparty]
          refine hself party ?_
          have htask : task.party = some party := htask
          cases task <;> simp_all [Task.party, Task.contact, Task.message]

lemma Impl.Addressed.handled {d d' : Impl} {e : Event} (h : d.Addressed) (hd : d.Handled e d') :
    d'.Addressed := by
  cases hd with
  | told hl hbook =>
      refine ⟨fun acc hacc => ?_, fun th hth y hy party hparty => ?_, fun msg hmsg => ?_, h.dropped⟩
      · exact (hbook acc hacc).elim (fun hold => hl.knows (h.book acc hold)) id
      · exact hl.knows (h.tasks th hth y hy party hparty)
      · exact hl.knows (h.outbox msg hmsg)
  | @called sender data account auth hl haccount hknows =>
      refine ⟨fun acc hacc => hl.knows (h.book acc hacc), fun th hth y hy party hparty => ?_,
        fun msg hmsg => hl.knows (h.outbox msg hmsg), h.dropped⟩
      rcases List.mem_append.mp hth with hth | hth
      · exact hl.knows (h.tasks th hth y hy party hparty)
      · obtain rfl := List.mem_singleton.mp hth
        obtain rfl := List.mem_singleton.mp hy
        obtain rfl := Option.some.inj hparty
        exact hknows

lemma Impl.Addressed.sends {d : Impl} (h : d.Addressed) {before rest : List Outgoing}
    {out : Outgoing} (hout : d.outbox = before ++ out :: rest) :
    (d.after (Impl.send { d with outbox := before ++ rest } out)).Addressed := by
  have hless : ∀ {outs : List Outgoing}, (∀ msg, .processing msg ∉ outs) →
      ∀ msg, .processing msg ∈ before ++ rest ++ outs → d.auth.Knows (msg.counterparty.getD "") := by
    intro outs hnone msg hmsg
    rcases List.mem_append.mp hmsg with hmsg | hmsg
    · refine h.outbox msg ?_
      rw [hout]
      simp only [List.mem_append, List.mem_cons] at hmsg ⊢
      tauto
    · exact absurd hmsg (hnone msg)
  have hrest : ∀ msg, .processing msg ∈ before ++ rest → d.auth.Knows (msg.counterparty.getD "") := by
    simpa using @hless [] (by simp)
  cases out with
  | processing msg =>
      have hknows := h.outbox msg (by simp [hout])
      obtain ⟨jid, hjid⟩ := Impl.lookup_of_knows (d := { d with outbox := before ++ rest }) hknows
      simp only [Impl.send, Impl.after, Impl.sendProcessingMessage, hjid]
      exact ⟨h.book, h.tasks, hless (by simp), h.dropped⟩
  | updateOrders orders =>
      simp only [Impl.send, Impl.updateOrders]
      split_ifs
      · exact ⟨h.book, h.tasks, h.outbox, h.dropped⟩
      · exact ⟨h.book, h.tasks, hless (by simp), h.dropped⟩
      · exact ⟨h.book, h.tasks, hrest, h.dropped⟩
  | direct stanza =>
      simp only [Impl.send]
      split_ifs
      · exact ⟨h.book, h.tasks, hrest, h.dropped⟩
      · exact ⟨h.book, h.tasks, h.outbox, h.dropped⟩
  | publish orders =>
      simp only [Impl.send]
      split_ifs
      · exact ⟨h.book, h.tasks, hrest, h.dropped⟩
      · exact ⟨h.book, h.tasks, h.outbox, h.dropped⟩

/-- **No message is dropped**, if orders are only taken from accounts that are in the order book: a
JID is known for everybody whose orders are there, and for everybody who is answered. -/
theorem nothing_dropped {x : Impl × W}
    (h : ((implSystem cfg E login).restrict TakesListed).Reachable x) : x.1.dropped = [] := by
  suffices hinv : x.1.Addressed from hinv.dropped
  refine Transition.System.Reachable.invariant (fun x => x.1.Addressed) ?_ ?_ h
  · intro x hx
    obtain ⟨_, auth, _, hd⟩ := Impl.of_construct hx
    rw [hd]
    refine ⟨fun acc hacc => ?_, by simp [Sys.start], by simp, rfl⟩
    exact absurd hacc (AList.notMem_empty acc)
  · rintro x l x' _ ih ⟨⟨hs, _⟩, hlisted⟩
    generalize x'.1 = d' at hs
    cases hs with
    | @own l σ' _ hs hown =>
        refine ih.own hs hown fun o units hl => ?_
        exact hlisted o units (by rw [hl])
    | event e hrun =>
        cases hd : x.1.handle e with
        | error c => exact ⟨ih.book, ih.tasks, ih.outbox, ih.dropped⟩
        | ok d' => exact ih.handled (Impl.handled_of_handle hd)
    | send hrun hout => exact ih.sends hout

/-- `TakesListed`, to be evaluated. -/
def takesListed (d : Impl) : Impl.Label → Bool
  | .own (.start (.takeOrder o _)) => decide (o.getAccount ∈ d.allOrders.orders)
  | _ => true

lemma takesListed_of (x : Impl × W) (l : Impl.Label) (h : takesListed x.1 l = true) :
    TakesListed x l := by
  rintro o units rfl
  exact of_decide_eq_true h

/-- The seller's order is in the book when it is taken. -/
theorem nothing_dropped_taken : ∃ x : Impl × ℕ, x.1.sys.replies.length = 1 ∧ x.1.dropped = [] := by
  have hplay : (Impl.play sampleConfig (dealScript true) takesListed (dealStart true, 0)
      buyerSchedule).any (fun x => x.1.sys.replies.length = 1) = true := by
    decide +kernel
  obtain ⟨x, hx, hP⟩ := (Option.any_eq_true _ _).mp hplay
  have h₀ : ((implSystem sampleConfig (Env.ofScript (dealScript true)) (dealLogin true)).restrict
      TakesListed).Reachable (dealStart true, 0) := .init (dealStart_starts true)
  exact ⟨x, of_decide_eq_true hP, nothing_dropped (Impl.reachable_of_play takesListed_of h₀ hx)⟩

/-! ## The network -/

variable {ι : Type} {cfgs : ι → Config} {Es : ι → Env Call Answer W} {logins : ι → Login}

/-- **What the servers promise.**  A stanza from a user of the account of one of our daemons, on a
server that the receiver trusts, was handed over by this daemon, and for the user that it is delivered
to. -/
def Routes (logins : ι → Login) (x : ι → Impl × W) (l : ι × Impl.Label) : Prop :=
  ∀ sender data, l.2 = .event (.message sender (some data)) →
    ∀ j, accountOf (logins l.1).xidServers sender = some (logins j).account →
      ∃ s ∈ (x j).1.sent, s.receiver.bare = (logins l.1).jid.bare ∧ s.msg = data

/-- The daemons, connected by XMPP. -/
def xmppNetwork (cfgs : ι → Config) (Es : ι → Env Call Answer W) (logins : ι → Login) :
    Transition.System (ι → Impl × W) (ι × Impl.Label) :=
  (Transition.System.product fun i => implSystem (cfgs i) (Es i) (logins i)).restrict (Routes logins)

/-- What was handed over for our user is addressed to our account. -/
lemma sent_of_stanza {x : Impl × W} (hr : (implSystem cfg E login).Reachable x) {s : Stanza}
    (hs : s ∈ x.1.sent) {jid : Jid} {xidServers : Finset Bytes} {account : String}
    (hjid : s.receiver.bare = jid.bare) (haccount : accountOf xidServers jid = some account) :
    ∃ rec ∈ x.1.sys.log, rec.reply = some { s.msg with counterparty := some account } := by
  have hmem : s.restore login.xidServers ∈ x.1.sys.replies := by
    rw [← Multiset.mem_coe, mail_kept hr]
    refine Multiset.mem_add.mpr (Or.inl (Multiset.mem_add.mpr (Or.inr ?_)))
    exact Multiset.mem_coe.mpr (List.mem_map_of_mem hs)
  obtain ⟨rec, hrec, hreply, party, _, hparty⟩ := receiver_of_reply (reachable_sys hr) hmem
  -- both the server of the sender and the one of the receiver read the same user name
  have hacc : accountOf login.xidServers jid.bare = some party := hjid ▸ hparty
  obtain rfl : party = account := by
    rw [accountOf] at hacc haccount
    split_ifs at hacc haccount
    exact Option.some.inj (hacc.symm.trans haccount)
  refine ⟨rec, hrec, hreply.trans ?_⟩
  rw [Stanza.restore, show accountOf login.xidServers s.receiver = some party from hparty]

/-- **XMPP implements the network of the trades.** -/
theorem xmpp_refines {x : ι → Impl × W} (h : (xmppNetwork cfgs Es logins).Reachable x) :
    (network cfgs Es fun i => (logins i).account).Reachable fun i => ((x i).1.sys, (x i).2) := by
  refine Transition.System.Reachable.image (fun (x : ι → Impl × W) i => ((x i).1.sys, (x i).2)) ?_ ?_ h
  · intro x hx i
    obtain ⟨_, auth, _, hd⟩ := Impl.of_construct (hx i)
    exact congrArg Impl.sys hd
  · rintro x ⟨i, l⟩ x' hr ⟨⟨⟨hs, hpath⟩, hrest⟩, hroutes⟩
    have hdaemon := fun j => hr.of_restrict.component j
    have hothers : ∀ j ≠ i, ((x' j).1.sys, (x' j).2) = ((x j).1.sys, (x j).2) := by
      intro j hj
      rw [hrest j hj]
    rcases Impl.sys_of_step hs with ⟨hsame, htalk⟩ | ⟨l₀, rfl, hown, hs⟩ |
        ⟨sender, data, account, rfl, haccount, hs⟩
    · left
      rw [htalk] at hpath
      funext j
      by_cases hj : j = i
      · subst hj
        exact Prod.ext hsame hpath
      · exact hothers j hj
    · refine Or.inr ⟨(i, l₀), ⟨⟨⟨hs, hpath⟩, hothers⟩, ?_⟩⟩
      rintro msg rfl
      simp [Label.own] at hown
    · refine Or.inr ⟨(i, .start (.processMessage { data with counterparty := some account })),
        ⟨⟨⟨hs, hpath⟩, hothers⟩, ?_⟩⟩
      rintro msg ⟨⟩ j hj
      obtain rfl : account = (logins j).account := hj
      rw [(reachable_known (hdaemon i)).servers] at haccount
      obtain ⟨s, hsent, hto, rfl⟩ := hroutes sender data rfl j haccount
      obtain ⟨rec, hrec, hreply⟩ :=
        sent_of_stanza (hdaemon j) hsent hto (login_of_reachable (hdaemon i))
      exact ⟨rec, hrec, _, hreply, rfl, rfl⟩

section Scripted

variable (h : Bool → W → (c : Call) → Answer c × W)

/-- `Routes`, to be evaluated. -/
def routed (logins : Bool → Login) (x : Bool → Impl × W) (i : Bool) : Impl.Label → Bool
  | .event (.message sender (some data)) => decide (∀ j,
      accountOf (logins i).xidServers sender = some (logins j).account →
        ∃ s ∈ (x j).1.sent, s.receiver.bare = (logins i).jid.bare ∧ s.msg = data)
  | _ => true

/-- A schedule for both daemons, given up at the first stanza that was not sent. -/
def XmppNetwork.play (cfgs : Bool → Config) (logins : Bool → Login) :
    (Bool → Impl × W) → List (Bool × ImplSched) → Option (Bool → Impl × W)
  | x, [] => some x
  | x, (i, c) :: rest => (Impl.next (cfgs i) (h i) (x i) c).bind fun y =>
      if routed logins x i y.1 then
        XmppNetwork.play cfgs logins (Function.update x i y.2) rest
      else none

variable {h}

lemma XmppNetwork.reachable_of_play {cfgs : Bool → Config} {logins : Bool → Login} :
    ∀ {cs : List (Bool × ImplSched)} {x x' : Bool → Impl × W},
      (xmppNetwork cfgs (fun i => Env.ofScript (h i)) logins).Reachable x →
      XmppNetwork.play h cfgs logins x cs = some x' →
      (xmppNetwork cfgs (fun i => Env.ofScript (h i)) logins).Reachable x'
  | [], x, x', hr, hp => by
      obtain rfl := Option.some.inj hp
      exact hr
  | (i, c) :: cs, x, x', hr, hp => by
      simp only [XmppNetwork.play, Option.bind_eq_some_iff] at hp
      obtain ⟨⟨l, y⟩, hn, hp⟩ := hp
      split_ifs at hp with hok
      refine XmppNetwork.reachable_of_play (hr.step (l := (i, l)) ⟨⟨?_, fun j hj => ?_⟩, ?_⟩) hp
      · rw [Function.update_self]
        exact Impl.step_of_next hn
      · exact Function.update_of_ne hj _ _
      · rintro sender data rfl j
        exact of_decide_eq_true hok j

end Scripted

/-- The buyer takes the order, and the seller gets the message. -/
def takingSchedule : List (Bool × ImplSched) :=
  buyerSchedule.map (fun c => (true, c)) ++
    [(false, .event (.message (dealLogin true).jid
      (some { takingMessage with counterparty := none })))]

/-- On the network of the trades, too, the seller gets the message. -/
theorem xmpp_refines_taken : ∃ x : Bool → Impl × ℕ, (x false).1.sys.calls.length = 1 ∧
    (network (fun _ => sampleConfig) (fun i => Env.ofScript (dealScript i)) dealAccount).Reachable
      fun i => ((x i).1.sys, (x i).2) := by
  have hplay : (XmppNetwork.play dealScript (fun _ => sampleConfig) dealLogin
      (fun i => (dealStart i, 0)) takingSchedule).any (fun x =>
        (x false).1.sys.calls.length = 1) = true := by
    decide +kernel
  obtain ⟨x, hx, hP⟩ := (Option.any_eq_true _ _).mp hplay
  have h₀ : (xmppNetwork (fun _ => sampleConfig) (fun i => Env.ofScript (dealScript i))
      dealLogin).Reachable fun i => (dealStart i, 0) := .init dealStart_starts
  exact ⟨x, of_decide_eq_true hP, xmpp_refines (XmppNetwork.reachable_of_play h₀ hx)⟩

end Democrit
