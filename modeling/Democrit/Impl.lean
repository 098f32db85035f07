import Democrit.Daemon
import Democrit.MucClient
import Democrit.System

/-!
# The daemon on XMPP

`Daemon::Impl` of `src/daemon.cpp`: the trades and own orders (`System`), the order book, the client
in the broadcast room and the authenticator, put together.  **Everything that goes over the network
passes through here**: a stanza comes in with the JID of its sender and is handled in the name of the
account that the JID is authenticated for, and a message to an account goes out to the JID that is
known for the account.

The trading side of the model has a `std::string` as a `String`.  It stands for the bytes of the
string, one character for each (`stringOf`).

`outbox`, `sent`, `published` and `dropped` are history variables.  They tell what the threads of the
daemon have still to send, what was handed over to the server, and which messages were given up
because no JID was known for their receiver.

Left out are the logging, the memory of the stanza extensions, and the interval of the job that
reconnects; `Event.connect` is one run of that job, whenever it comes.
-/

namespace Democrit

/-! ## Strings -/

/-- A `std::string` as the trading side has it. -/
def stringOf (b : Bytes) : String := String.ofList (b.map fun c => Char.ofNat c.toUInt8.toNat)

/-- The bytes that a string stands for, if it stands for some. -/
def bytesOf (s : String) : Option Bytes :=
  if s.toList.all fun c => c.toNat < 256 then
    some (s.toList.map fun c => (UInt8.ofNat c.toNat).toInt8)
  else none

/-! ## State -/

/-- The assertions in `Daemon::Impl`, and those that its parts can fail. -/
inductive DaemonCheck where
  /-- `CHECK (auth.Authenticate (gloox::JID (jid), jidAccount))`. -/
  | ownJid
  /-- `CHECK_EQ (jidAccount, account)`. -/
  | ownAccount
  /-- `CHECK_EQ (ownOrders.account (), s.account ())` in `UpdateOrders`. -/
  | ordersAccount
  /-- `CHECK (IsConnected ())` in `MucClient::SendMessage`. -/
  | connected
  | decode (c : DecodeCheck)
  | muc (c : MucCheck)
  | book (c : BookCheck)
  deriving DecidableEq, Repr

/-- A message on its way to another daemon. -/
structure Stanza where
  receiver : Jid
  msg : ProcessingMessage
  deriving DecidableEq, Repr

/-- What a thread has still to send. -/
inductive Outgoing where
  /-- `SendProcessingMessage`. -/
  | processing (msg : ProcessingMessage)
  /-- `SendMessage`, when the receiver was found. -/
  | direct (stanza : Stanza)
  /-- `MyOrdersImpl::UpdateOrders`. -/
  | updateOrders (orders : OrdersOfAccount)
  /-- `PublishMessage`, when the connection was found to be there. -/
  | publish (orders : OrdersOfAccount)

/-- The members of `Daemon::Impl`.  `sys` are the state, the own orders and the trades, with the
threads that work on them. -/
structure Impl where
  sys : Sys
  auth : Authenticator
  muc : MucClient
  allOrders : OrderBook
  /-- `XmppClient::IsConnected`. -/
  isConnected : Bool := false
  outbox : List Outgoing := []
  sent : List Stanza := []
  published : List OrdersOfAccount := []
  dropped : List ProcessingMessage := []
  /-- The assertion that has aborted the process. -/
  aborted : Option DaemonCheck := none

/-- Does the process still run? -/
def Impl.running (d : Impl) : Bool := d.aborted.isNone && !d.sys.halted

namespace Impl

/-- `Authenticator::Authenticate` on the member. -/
def authenticate (d : Impl) (jid : Jid) : Except DaemonCheck (Option String × Impl) :=
  match d.auth.authenticate jid with
  | .error c => .error (.decode c)
  | .ok (account, auth) => .ok (account.map stringOf, { d with auth })

/-- The constructor. -/
def construct (account : String) (jid mucRoom : Jid) (xidServers : Finset Bytes) (timeout : ℤ) :
    Except DaemonCheck Impl := do
  let (jidAccount, d) ← authenticate
    { sys := Sys.start account, auth := { xidServers }, muc := { roomName := mucRoom }
      allOrders := { timeout } } jid
  match jidAccount with
  | none => .error .ownJid
  | some jidAccount => if jidAccount = account then return d else .error .ownAccount

/-! ## What comes in -/

/-- A call from outside comes in. -/
def call (op : Op) (d : Impl) : Impl :=
  { d with sys := { d.sys with threads := d.sys.threads ++ [⟨op, op.tasks⟩] } }

/-- `Daemon::Impl::HandleMessage`. -/
def handleMessage (spec : AssetSpec) (now : ℤ) (sender : Jid) (ext : Option AccountUpdate)
    (d : Impl) : Except DaemonCheck Impl := do
  let (account, d) ← d.authenticate sender
  match Daemon.handleMessage spec now account ext d.allOrders with
  | .error c => .error (.book c)
  | .ok allOrders => return { d with allOrders }

/-- `Daemon::Impl::HandlePrivate`, up to the call of `ProcessMessage`.  `ext` is the message, if the
stanza has a valid one. -/
def handlePrivate (sender : Jid) (ext : Option ProcessingMessage) (d : Impl) :
    Except DaemonCheck Impl := do
  let (account, d) ← d.authenticate sender
  match account, ext with
  | some account, some data => return d.call (.processMessage { data with counterparty := some account })
  | _, _ => return d

/-- `Daemon::Impl::HandleDisconnect`. -/
def handleDisconnect (now : ℤ) (disconnected : Jid) (d : Impl) : Except DaemonCheck Impl := do
  let (account, d) ← d.authenticate disconnected
  match account with
  | none => return d
  | some account =>
      match d.allOrders.updateOrders now { account := some account } with
      | .error c => .error (.book c)
      | .ok allOrders => return { d with allOrders }

/-- What the daemon is told. -/
inductive Event where
  /-- `MucClient::Connect`, and whether the connection could be made. -/
  | connect (ok : Bool)
  /-- The connection ends. -/
  | disconnect
  /-- `handleMUCParticipantPresence`. -/
  | presence (participant : MucParticipant) (unavailable : Bool) (now : ℤ)
  /-- `handleMUCMessage`, with the orders that the stanza broadcasts. -/
  | groupchat (sender : Jid) (priv : Bool) (spec : AssetSpec) (now : ℤ) (ext : Option AccountUpdate)
  /-- `handleMUCError`. -/
  | mucError
  /-- `handleMessage`: a stanza that is sent to us directly. -/
  | message (sender : Jid) (ext : Option ProcessingMessage)
  /-- A run of the timeouter of the order book. -/
  | runTimeout (now : ℤ)
  | getOrdersForAsset (asset : String)
  | getOrdersByAsset

/-- `MucClient::Connect`: it is called while there is no connection. -/
def connect (ok : Bool) (d : Impl) : Impl :=
  if d.isConnected then d
  else if ok then { d with muc := d.muc.connect, isConnected := true }
  else { d with muc := { d.muc with disconnecting := false } }

/-- `handleMUCParticipantPresence`, with `HandleDisconnect`. -/
def handlePresence (participant : MucParticipant) (unavailable : Bool) (now : ℤ) (d : Impl) :
    Except DaemonCheck Impl :=
  match d.muc.handleMUCParticipantPresence participant unavailable with
  | .error c => .error (.muc c)
  | .ok (none, muc) => .ok { d with muc }
  | .ok (some jid, muc) => handleDisconnect now jid { d with muc }

/-- `handleMUCMessage`, with `HandleMessage`. -/
def handleGroupchat (sender : Jid) (priv : Bool) (spec : AssetSpec) (now : ℤ)
    (ext : Option AccountUpdate) (d : Impl) : Except DaemonCheck Impl :=
  match d.muc.handleMUCMessage sender priv with
  | .error c => .error (.muc c)
  | .ok none => .ok d
  | .ok (some jid) => handleMessage spec now jid ext d

/-- What the order book does for the others. -/
def bookEvent (ev : BookEvent) (d : Impl) : Except DaemonCheck Impl :=
  match d.allOrders.event ev with
  | .error c => .error (.book c)
  | .ok allOrders => .ok { d with allOrders }

/-- One event. -/
def handle (d : Impl) : Event → Except DaemonCheck Impl
  | .connect ok => .ok (d.connect ok)
  | .disconnect => .ok { d with isConnected := false }
  | .presence participant unavailable now => d.handlePresence participant unavailable now
  | .groupchat sender priv spec now ext => d.handleGroupchat sender priv spec now ext
  | .mucError => .ok { d with muc := d.muc.handleMUCError }
  | .message sender ext => d.handlePrivate sender ext
  | .runTimeout now => d.bookEvent (.runTimeout now)
  | .getOrdersForAsset asset => d.bookEvent (.getOrdersForAsset asset)
  | .getOrdersByAsset => d.bookEvent .getOrdersByAsset

/-! ## What goes out -/

/-- `LookupJid` on the account of a message. -/
def lookupJid (d : Impl) (account : String) : Option Jid :=
  (bytesOf account).bind d.auth.lookupJid

/-- `Daemon::Impl::SendProcessingMessage`, up to the call of `SendMessage`. -/
def sendProcessingMessage (msg : ProcessingMessage) (d : Impl) : Impl :=
  match d.lookupJid (msg.counterparty.getD "") with
  | none => { d with dropped := d.dropped ++ [msg] }
  | some receiver =>
      { d with outbox := d.outbox ++ [.direct ⟨receiver, { msg with counterparty := none }⟩] }

/-- `MyOrdersImpl::UpdateOrders`, up to the call of `PublishMessage`. -/
def updateOrders (orders : OrdersOfAccount) (d : Impl) : Except DaemonCheck Impl :=
  if orders.account ≠ d.sys.state.account then .error .ordersAccount
  else if d.isConnected then .ok { d with outbox := d.outbox ++ [.publish orders] }
  else .ok d

/-- A thread goes on with what it has to send. -/
def send (d : Impl) : Outgoing → Except DaemonCheck Impl
  | .processing msg => .ok (d.sendProcessingMessage msg)
  | .updateOrders orders => d.updateOrders orders
  | .direct stanza =>
      if d.isConnected then .ok { d with sent := d.sent ++ [stanza] } else .error .connected
  | .publish orders =>
      if d.isConnected then .ok { d with published := d.published ++ [orders] }
      else .error .connected

end Impl

/-! ## Steps -/

/-- What the thread has to send after a section. -/
def Record.outgoing (rec : Record) : List Outgoing :=
  match rec.outcome with
  | .ok eff => eff.reply.toList.map .processing ++ eff.published.toList.map .updateOrders
  | .error _ => []

/-- What has to be sent after a step of the trading side. -/
def Label.outgoing : Label → List Outgoing
  | .start _ => []
  | .run rec => rec.outgoing

/-- Is it a step that the trading side takes by itself?  Messages come in through `HandlePrivate`. -/
def Label.own : Label → Bool
  | .start (.processMessage _) => false
  | _ => true

namespace Impl

/-- What a step is: one of the trading side, an event, or a thread that sends. -/
inductive Label where
  | own (l : Democrit.Label)
  | event (e : Event)
  | send (out : Outgoing)

/-- The conversation of a step. -/
def Label.talk : Label → Conversation
  | .own l => l.talk
  | .event _ | .send _ => []

/-- The daemon after something that can fail an assertion. -/
def after (d : Impl) : Except DaemonCheck Impl → Impl
  | .ok d' => d'
  | .error c => { d with aborted := some c }

/-- **A step of the daemon**, whatever comes from outside. -/
inductive Step (cfg : Config) : Impl → Impl.Label → Impl → Prop
  | own {d : Impl} {l : Democrit.Label} {σ' : Sys} (hrun : d.running = true)
      (hs : Sys.Step cfg d.sys l σ') (hown : l.own = true) :
      Step cfg d (.own l) { d with sys := σ', outbox := d.outbox ++ l.outgoing }
  | event {d : Impl} (e : Event) (hrun : d.running = true) :
      Step cfg d (.event e) (d.after (d.handle e))
  | send {d : Impl} {before : List Outgoing} {out : Outgoing} {rest : List Outgoing}
      (hrun : d.running = true) (hout : d.outbox = before ++ out :: rest) :
      Step cfg d (.send out) (d.after (Impl.send { d with outbox := before ++ rest } out))

end Impl

/-- What a daemon is started with. -/
structure Login where
  account : String
  jid : Jid
  mucRoom : Jid
  xidServers : Finset Bytes
  timeout : ℤ

/-- The start of the process. -/
def Login.start (login : Login) : Except DaemonCheck Impl :=
  Impl.construct login.account login.jid login.mucRoom login.xidServers login.timeout

/-- The daemon that is started with these data, in the environment `E`. -/
def implSystem {W : Type} (cfg : Config) (E : Interaction.Env Call Answer W) (login : Login) :
    Transition.System (Impl × W) Impl.Label where
  init x := login.start = .ok x.1
  step x l x' := Impl.Step cfg x.1 l x'.1 ∧ E.Path x.2 l.talk x'.2

/-! ## Scripted runs -/

/-- A scheduler's choices. -/
inductive ImplSched where
  | own (c : Sched)
  | event (e : Impl.Event)
  /-- Let the thread that has what is at this position of the outbox go on. -/
  | send (i : ℕ)

namespace Impl

open Interaction

variable {W : Type} (cfg : Config) (h : W → (c : Call) → Answer c × W)

/-- One step as scheduled, with the outside answering as scripted. -/
def next (x : Impl × W) : ImplSched → Option (Impl.Label × (Impl × W))
  | .own c =>
      if x.1.running then
        (Sys.next cfg h (x.1.sys, x.2) c).bind fun y =>
          if y.1.own then
            some (.own y.1, { x.1 with sys := y.2.1, outbox := x.1.outbox ++ y.1.outgoing }, y.2.2)
          else none
      else none
  | .event e => if x.1.running then some (.event e, x.1.after (x.1.handle e), x.2) else none
  | .send i =>
      if x.1.running then
        x.1.outbox[i]?.map fun out =>
          (.send out, x.1.after (Impl.send
            { x.1 with outbox := x.1.outbox.take i ++ x.1.outbox.drop (i + 1) } out), x.2)
      else none

variable {cfg h}

/-- A whole schedule, given up at the first step that is not allowed. -/
def play (cfg : Config) (h : W → (c : Call) → Answer c × W) (allowed : Impl → Impl.Label → Bool) :
    Impl × W → List ImplSched → Option (Impl × W)
  | x, [] => some x
  | x, c :: rest => (next cfg h x c).bind fun y =>
      if allowed x.1 y.1 then play cfg h allowed y.2 rest else none

lemma step_of_next {x x' : Impl × W} {l : Impl.Label} {c : ImplSched}
    (hn : next cfg h x c = some (l, x')) :
    Impl.Step cfg x.1 l x'.1 ∧ (Env.ofScript h).Path x.2 l.talk x'.2 := by
  cases c with
  | own c =>
      simp only [next] at hn
      split_ifs at hn with hrun
      obtain ⟨⟨l₀, y⟩, hy, hn⟩ := Option.bind_eq_some_iff.mp hn
      split_ifs at hn with hown
      cases hn
      have hstep : (system cfg (Env.ofScript h) "").step (x.1.sys, x.2) l₀ y := Sys.step_of_next hy
      obtain ⟨hs, hpath⟩ := hstep
      exact ⟨.own hrun hs hown, hpath⟩
  | event e =>
      simp only [next] at hn
      split_ifs at hn with hrun
      cases hn
      exact ⟨.event e hrun, rfl⟩
  | send i =>
      simp only [next] at hn
      split_ifs at hn with hrun
      obtain ⟨out, hout, hn⟩ := Option.map_eq_some_iff.mp hn
      cases hn
      obtain ⟨hlt, hget⟩ := List.getElem?_eq_some_iff.mp hout
      have hsplit : x.1.outbox = x.1.outbox.take i ++ out :: x.1.outbox.drop (i + 1) := by
        rw [← hget, List.getElem_cons_drop, List.take_append_drop]
      exact ⟨.send hrun hsplit, rfl⟩

/-- What a schedule of allowed steps leads to is reachable by them. -/
lemma reachable_of_play {login : Login} {allowed : Impl → Impl.Label → Bool}
    {P : Impl × W → Impl.Label → Prop} (hP : ∀ x l, allowed x.1 l = true → P x l) :
    ∀ {cs : List ImplSched} {x x' : Impl × W},
      ((implSystem cfg (Env.ofScript h) login).restrict P).Reachable x →
      play cfg h allowed x cs = some x' →
      ((implSystem cfg (Env.ofScript h) login).restrict P).Reachable x'
  | [], x, x', hr, hp => by
      obtain rfl := Option.some.inj hp
      exact hr
  | c :: cs, x, x', hr, hp => by
      simp only [play, Option.bind_eq_some_iff] at hp
      obtain ⟨⟨l, x₁⟩, hn, hp⟩ := hp
      split_ifs at hp with hok
      exact reachable_of_play hP (hr.step ⟨step_of_next hn, hP x l hok⟩) hp

end Impl

end Democrit
