import Democrit.Authenticator
import Mathlib.Logic.Function.Basic

/-!
# `MucClient`

`src/mucclient.cpp`: our presence in the XMPP room that orders are broadcast in.  In the room,
occupants go by nick names.  The client keeps a map from nicks to the real JIDs behind them, from
the presence stanzas it gets, and looks the sender of a message up in it.

The room handle, the connection and the logging are left out, and so is the thread that
`DisconnectAsync` starts, which does not touch the map.
-/

namespace Democrit

/-- The assertions in `MucClient`. -/
inductive MucCheck where
  /-- `CHECK_NE (nick, "")`. -/
  | nickNotEmpty
  /-- `CHECK_EQ (msg.from ().bareJID (), roomName)`. -/
  | fromRoom
  deriving DecidableEq, Repr

/-- A `gloox::MUCRoomParticipant`: `nick` is the resource of the JID in the room, `jid` the real JID
if it is disclosed. -/
structure MucParticipant where
  nick : Bytes
  jid : Option Jid
  userSelf : Bool := false
  userNickChanged : Bool := false
  newNick : Bytes := []
  deriving DecidableEq, Repr

/-- The members of a `MucClient`. -/
structure MucClient where
  roomName : Jid
  nickToJid : Bytes → Option Jid := fun _ => none
  joining : Bool := false
  disconnecting : Bool := false

/-- `gloox::JID::bareJID`. -/
def Jid.bare (jid : Jid) : Jid := { jid with resource := [] }

namespace MucClient

/-- What `Connect` does to the members before the room is joined. -/
def connect (c : MucClient) : MucClient :=
  { c with nickToJid := fun _ => none, joining := true, disconnecting := false }

/-- `MucClient::DisconnectAsync`. -/
def disconnectAsync (c : MucClient) : MucClient :=
  if c.disconnecting then c
  else { c with nickToJid := fun _ => none, disconnecting := true }

/-- `MucClient::ResolveNickname`. -/
def resolveNickname (c : MucClient) (nick : Bytes) : Option Jid := c.nickToJid nick

/-- `MucClient::handleMUCParticipantPresence`, with the JID that `HandleDisconnect` is called for, if
it is called. -/
def handleMUCParticipantPresence (participant : MucParticipant) (presenceUnavailable : Bool)
    (c : MucClient) : Except MucCheck (Option Jid × MucClient) :=
  -- a change of nick comes as an unavailable presence as well
  let unavailable := presenceUnavailable && !participant.userNickChanged
  if participant.userSelf then
    let c' := if unavailable then c.disconnectAsync else c
    .ok (none, { c' with joining := false })
  else if unavailable then
    .ok (participant.jid, { c with nickToJid := Function.update c.nickToJid participant.nick none })
  else match participant.jid with
    | none => .ok (none, c)
    | some jid =>
        let (nickToJid, nick) :=
          if participant.userNickChanged then
            (Function.update c.nickToJid participant.nick none, participant.newNick)
          else (c.nickToJid, participant.nick)
        if nick = [] then .error .nickNotEmpty
        else .ok (none, { c with nickToJid := Function.update nickToJid nick (some jid) })

/-- `MucClient::handleMUCMessage`: the JID that `HandleMessage` is called with, if it is called. -/
def handleMUCMessage (sender : Jid) (priv : Bool) (c : MucClient) :
    Except MucCheck (Option Jid) :=
  if priv then .ok none
  else if sender.bare ≠ c.roomName then .error .fromRoom
  else .ok (c.resolveNickname sender.resource)

/-- `MucClient::handleMUCError`. -/
def handleMUCError (c : MucClient) : MucClient := { c.disconnectAsync with joining := false }

end MucClient

end Democrit
