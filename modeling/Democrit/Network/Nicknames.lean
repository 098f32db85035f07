import Democrit.Lib.Transition
import Democrit.MucClient

/-!
# Who sent a broadcast

A message in the room is attributed to the JID that the client has on file for the sender's nick.
`Room` is what the room really is: which JID holds which nick, changed by the other occupants as
they join, update their presence, leave and change their nick.  Each of these events is delivered
to the client, with the real JID or without it.

**The client's map agrees with the room** (`MucClient.Agrees`) as long as it is told the JID of
everybody who changes a nick it has on file (`broadcasts_attributed`).  If it is not, the handler
returns early and the old nick keeps its entry.  The next occupant to take that nick then speaks
for the former one (`nickname_stale`).
-/

namespace Democrit

/-! ## The room -/

/-- The real JID behind each nick that is in use. -/
abbrev Room : Type := Bytes → Option Jid

/-- What another occupant does, and whether the room discloses its JID. -/
inductive RoomEvent where
  | join (nick : Bytes) (jid : Jid) (disclosed : Bool)
  | update (nick : Bytes) (disclosed : Bool)
  | leave (nick : Bytes) (disclosed : Bool)
  | rename (nick newNick : Bytes) (disclosed : Bool)
  deriving DecidableEq, Repr

/-- The room after an event, if the event is possible: nicks are unique and not empty. -/
def Room.after (room : Room) : RoomEvent → Option Room
  | .join nick jid _ =>
      if nick ≠ [] ∧ room nick = none then some (Function.update room nick (some jid)) else none
  | .update nick _ => if nick ≠ [] ∧ room nick ≠ none then some room else none
  | .leave nick _ => if room nick ≠ none then some (Function.update room nick none) else none
  | .rename nick newNick _ =>
      if room nick ≠ none ∧ newNick ≠ [] ∧ room newNick = none then
        some (Function.update (Function.update room nick none) newNick (room nick))
      else none

/-- How an event is delivered: the participant, and whether the presence is an unavailable one. -/
def RoomEvent.delivered (room : Room) : RoomEvent → MucParticipant × Bool
  | .join nick jid disclosed => ({ nick, jid := if disclosed then some jid else none }, false)
  | .update nick disclosed => ({ nick, jid := if disclosed then room nick else none }, false)
  | .leave nick disclosed => ({ nick, jid := if disclosed then room nick else none }, true)
  | .rename nick newNick disclosed =>
      ({ nick, jid := if disclosed then room nick else none, userNickChanged := true, newNick }, true)

/-- The room together with the client in it, from the time of `Connect` on. -/
def mucSystem : Transition.System (Room × MucClient) RoomEvent where
  init x := ∃ c : MucClient, x.2 = c.connect
  step x e x' := x.1.after e = some x'.1 ∧ ∃ disconnected,
    x.2.handleMUCParticipantPresence (e.delivered x.1).1 (e.delivered x.1).2
      = .ok (disconnected, x'.2)

/-! ## The map and the room -/

/-- Whatever the map says about a nick is so in the room. -/
def MucClient.Agrees (c : MucClient) (room : Room) : Prop :=
  ∀ nick jid, c.resolveNickname nick = some jid → room nick = some jid

/-- A nick on file is changed without the JID. -/
def RoomEvent.hidden (c : MucClient) : RoomEvent → Bool
  | .rename nick _ disclosed => !disclosed && (c.resolveNickname nick).isSome
  | _ => false

section

variable {room : Room} {c : MucClient} {nick : Bytes}

lemma MucClient.Agrees.free (h : c.Agrees room) (hfree : room nick = none) :
    c.nickToJid nick = none := by
  cases hc : c.nickToJid nick with
  | none => rfl
  | some jid =>
      have := h nick jid hc
      rw [hfree] at this
      simp at this

/-- The same change to both. -/
lemma MucClient.Agrees.update (h : c.Agrees room) (nick : Bytes) (v : Option Jid) :
    MucClient.Agrees { c with nickToJid := Function.update c.nickToJid nick v }
      (Function.update room nick v) := by
  intro n j hn
  have hn : Function.update c.nickToJid nick v n = some j := hn
  by_cases heq : n = nick
  · rw [heq, Function.update_self] at hn ⊢
    exact hn
  · rw [Function.update_of_ne heq] at hn ⊢
    exact h n j hn

/-- A nick that is not on file may be changed in the room. -/
lemma MucClient.Agrees.room_update (h : c.Agrees room) (hfile : c.nickToJid nick = none)
    (v : Option Jid) : c.Agrees (Function.update room nick v) := by
  intro n j hn
  have hne : n ≠ nick := by
    rintro rfl
    have hn : c.nickToJid n = some j := hn
    rw [hfile] at hn
    simp at hn
  rw [Function.update_of_ne hne]
  exact h n j hn

/-- **One event**, not hidden, keeps the agreement. -/
lemma MucClient.Agrees.step {room' : Room} {c' : MucClient} {e : RoomEvent} {d : Option Jid}
    (h : c.Agrees room) (hroom : room.after e = some room')
    (hc : c.handleMUCParticipantPresence (e.delivered room).1 (e.delivered room).2 = .ok (d, c'))
    (hshown : e.hidden c = false) : c'.Agrees room' := by
  cases e with
  | join nick jid disclosed =>
      simp only [Room.after] at hroom
      split_ifs at hroom with hok
      obtain ⟨hne, hfree⟩ := hok
      obtain rfl := Option.some.inj hroom
      cases disclosed with
      | false =>
          obtain ⟨-, rfl⟩ := Prod.mk.inj (Except.ok.inj hc)
          exact h.room_update (h.free hfree) _
      | true =>
          simp [RoomEvent.delivered, handleMUCParticipantPresence, hne] at hc
          rw [← hc.2]
          exact h.update nick (some jid)
  | update nick disclosed =>
      simp only [Room.after] at hroom
      split_ifs at hroom with hok
      obtain ⟨hne, hheld⟩ := hok
      obtain rfl := Option.some.inj hroom
      obtain ⟨jid, hjid⟩ := Option.ne_none_iff_exists'.mp hheld
      cases disclosed with
      | false =>
          obtain ⟨-, rfl⟩ := Prod.mk.inj (Except.ok.inj hc)
          exact h
      | true =>
          simp [RoomEvent.delivered, handleMUCParticipantPresence, hne, hjid] at hc
          rw [← hc.2]
          have hagree := h.update nick (some jid)
          rwa [← hjid, Function.update_eq_self, hjid] at hagree
  | leave nick disclosed =>
      simp only [Room.after] at hroom
      split_ifs at hroom with hok
      obtain rfl := Option.some.inj hroom
      obtain ⟨-, rfl⟩ := Prod.mk.inj (Except.ok.inj hc)
      exact h.update nick none
  | rename nick newNick disclosed =>
      simp only [Room.after] at hroom
      split_ifs at hroom with hok
      obtain ⟨hheld, hne, hfree⟩ := hok
      obtain rfl := Option.some.inj hroom
      obtain ⟨jid, hjid⟩ := Option.ne_none_iff_exists'.mp hheld
      cases disclosed with
      | false =>
          obtain ⟨-, rfl⟩ := Prod.mk.inj (Except.ok.inj hc)
          have hfile : c.nickToJid nick = none := by
            simpa [RoomEvent.hidden, resolveNickname] using hshown
          exact (h.room_update hfile none).room_update (h.free hfree) _
      | true =>
          simp [RoomEvent.delivered, handleMUCParticipantPresence, hne, hjid] at hc
          rw [← hc.2, hjid]
          exact (h.update nick none).update newNick (some jid)

/-- **The condition is exact**: a hidden change of nick ends the agreement at once. -/
lemma RoomEvent.hidden.disagrees {room' : Room} {c' : MucClient} {e : RoomEvent} {d : Option Jid}
    (hroom : room.after e = some room')
    (hc : c.handleMUCParticipantPresence (e.delivered room).1 (e.delivered room).2 = .ok (d, c'))
    (hhidden : e.hidden c = true) : ¬ c'.Agrees room' := by
  cases e with
  | rename nick newNick disclosed =>
      simp only [RoomEvent.hidden, Bool.and_eq_true, Bool.not_eq_true'] at hhidden
      obtain ⟨rfl, hfile⟩ := hhidden
      obtain ⟨jid, hjid⟩ := Option.isSome_iff_exists.mp hfile
      simp only [Room.after] at hroom
      split_ifs at hroom with hok
      obtain ⟨hheld, _, hfree⟩ := hok
      obtain rfl := Option.some.inj hroom
      obtain ⟨-, rfl⟩ := Prod.mk.inj (Except.ok.inj hc)
      intro hagree
      have hne : nick ≠ newNick := by
        rintro rfl
        exact hheld hfree
      have := hagree nick jid hjid
      rw [Function.update_of_ne hne, Function.update_self] at this
      simp at this
  | _ => simp [RoomEvent.hidden] at hhidden

end

/-- **Broadcasts are attributed to their sender**, in every run in which nobody changes a nick that
is on file without the JID being disclosed. -/
theorem broadcasts_attributed {x : Room × MucClient}
    (h : (mucSystem.restrict fun x e => e.hidden x.2 = false).Reachable x) :
    (∀ nick jid, x.2.resolveNickname nick = some jid → x.1 nick = some jid) ∧
    ∀ sender priv jid, x.2.handleMUCMessage sender priv = .ok (some jid) →
      x.1 sender.resource = some jid := by
  have hagree : x.2.Agrees x.1 := by
    refine Transition.System.Reachable.invariant (fun x => x.2.Agrees x.1) ?_ ?_ h
    · rintro ⟨room, c⟩ ⟨c₀, rfl⟩ nick jid hn
      exact absurd hn (by simp [MucClient.resolveNickname, MucClient.connect])
    · rintro ⟨room, c⟩ e ⟨room', c'⟩ _ ih ⟨⟨hroom, d, hc⟩, hshown⟩
      exact ih.step hroom hc hshown
  refine ⟨hagree, ?_⟩
  intro sender priv jid hm
  rw [MucClient.handleMUCMessage] at hm
  split_ifs at hm with hpriv hfrom
  · simp at hm
  · exact hagree _ _ (Except.ok.inj hm)

/-! ### Two occupants and one nick -/

/-- The room, and two occupants of it. -/
def lobby : Jid := ⟨[114], [115], []⟩
def firstOccupant : Jid := ⟨[97], [115], [1]⟩
def secondOccupant : Jid := ⟨[98], [115], [2]⟩

/-- The events one after the other, as long as they are allowed and possible and no assertion
fails. -/
def playRoom (allowed : MucClient → RoomEvent → Bool) :
    Room × MucClient → List RoomEvent → Option (Room × MucClient)
  | x, [] => some x
  | x, e :: es =>
      match allowed x.2 e, x.1.after e,
        x.2.handleMUCParticipantPresence (e.delivered x.1).1 (e.delivered x.1).2 with
      | true, some room', .ok (_, c') => playRoom allowed (room', c') es
      | _, _, _ => none

lemma reachable_of_playRoom {allowed : MucClient → RoomEvent → Bool} :
    ∀ {es : List RoomEvent} {x x' : Room × MucClient},
      (mucSystem.restrict fun x e => allowed x.2 e = true).Reachable x →
      playRoom allowed x es = some x' →
      (mucSystem.restrict fun x e => allowed x.2 e = true).Reachable x'
  | [], x, x', hr, hp => by
      obtain rfl := Option.some.inj hp
      exact hr
  | e :: es, x, x', hr, hp => by
      rw [playRoom] at hp
      split at hp
      · rename_i room' d c' hok hroom hc
        exact reachable_of_playRoom (hr.step ⟨⟨hroom, d, hc⟩, hok⟩) hp
      · simp at hp

/-- A sequence of allowed events in an empty room that leads to a state with `Q`. -/
lemma exists_room (allowed : MucClient → RoomEvent → Bool) (es : List RoomEvent)
    (Q : Room × MucClient → Bool)
    (hp : (playRoom allowed (fun _ => none, MucClient.connect { roomName := lobby }) es).any Q
      = true) :
    ∃ x, (mucSystem.restrict fun x e => allowed x.2 e = true).Reachable x ∧ Q x = true := by
  obtain ⟨x, hx, hQ⟩ := (Option.any_eq_true _ _).mp hp
  exact ⟨x, reachable_of_playRoom (.init ⟨_, rfl⟩) hx, hQ⟩

/-- **A stale nick name.**  The first occupant changes its nick without its JID being disclosed, and
the second one takes the nick.  What it says is passed on as if the first one had said it. -/
theorem nickname_stale : ∃ x : Room × MucClient, mucSystem.Reachable x ∧
    x.1 [65] = some secondOccupant ∧ x.2.resolveNickname [65] = some firstOccupant ∧
    x.2.handleMUCMessage { lobby with resource := [65] } false = .ok (some firstOccupant) ∧
    firstOccupant ≠ secondOccupant := by
  obtain ⟨x, hr, hQ⟩ := exists_room (fun _ _ => true)
    [.join [65] firstOccupant true, .rename [65] [66] false, .join [65] secondOccupant false]
    (fun x => x.1 [65] = some secondOccupant && x.2.resolveNickname [65] = some firstOccupant
      && x.2.roomName = lobby) (by decide)
  simp only [Bool.and_eq_true, decide_eq_true_eq] at hQ
  obtain ⟨⟨hroom, hfile⟩, hname⟩ := hQ
  refine ⟨x, hr.of_restrict, hroom, hfile, ?_, by decide⟩
  have hbare : Jid.bare { lobby with resource := [65] } = x.2.roomName := by rw [hname]; rfl
  rw [MucClient.handleMUCMessage, if_neg (by simp), if_neg (not_not.mpr hbare), hfile]

/-- With the JID disclosed, the nick is free for the second occupant. -/
theorem broadcasts_attributed_renamed : ∃ x : Room × MucClient,
    (mucSystem.restrict fun x e => e.hidden x.2 = false).Reachable x ∧
    x.2.resolveNickname [66] = some firstOccupant ∧ x.1 [66] = some firstOccupant := by
  obtain ⟨x, hr, hQ⟩ := exists_room (fun c e => !e.hidden c)
    [.join [65] firstOccupant true, .rename [65] [66] true, .join [65] secondOccupant false]
    (fun x => x.2.resolveNickname [66] = some firstOccupant) (by decide)
  have hQ : x.2.resolveNickname [66] = some firstOccupant := by simpa using hQ
  simp only [Bool.not_eq_true'] at hr
  exact ⟨x, hr, hQ, (broadcasts_attributed hr).1 _ _ hQ⟩

end Democrit
