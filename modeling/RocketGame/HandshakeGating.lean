import RocketGame.ClientIsolation

/-!
What a CLOCK or GAME_STATE message needs from the handshake. The two handlers ask
for the address and the salt of a record and never for the state of the
connection, so a record is open to them from the request that made it. The
response that connects the record opens nothing further.
-/
namespace RocketGame.HandshakeGating

open ClientIsolation DatagramSafety FirstMatch GameMessages HandshakeMessages NetworkUtilities
open Packets PlayerTable Runs Server Turns
open NetworkPacket (ofBytes sealed)

/-- The step accepts a request that makes a record of this address with this salt. -/
def MakesRecord (addr : Address) (salt : UInt64) (_ : State) (e : Event) : Prop :=
  e.data.length = 1000 ∧ e.clientAddr = addr ∧
    ∃ clientSalt, Carries e.data .connectionRequest clientSalt ∧
      clientSalt ^^^ e.env.randomSalt = salt

/-- The step accepts a response with this salt from this address. -/
def AcceptsResponse (addr : Address) (salt : UInt64) (s : State) (e : Event) : Prop :=
  e.data.length = 1000 ∧ e.clientAddr = addr ∧ Carries e.data .challengeResponse salt ∧
    ∃ p, s.players.find? (fromAddress addr) = some p ∧ p.connectionSalt = salt

/-- The handshake behind a record: a request made it, and a response connected it. -/
structure Earned (events : List Event) (p : Player) : Prop where
  requested : Once step (MakesRecord p.address p.connectionSalt) {} events
  responded : p.connectionState = .connected →
    Once step (AcceptsResponse p.address p.connectionSalt) {} events

theorem Earned.append {events : List Event} {p : Player} (h : Earned events p) (e : Event) :
    Earned (events ++ [e]) p where
  requested := h.requested.append [e]
  responded hconnected := (h.responded hconnected).append [e]

/-- Only these three fields of a record speak of its handshake. -/
theorem Earned.of_same {events : List Event} {p p' : Player} (h : Earned events p)
    (haddr : p'.address = p.address) (hsalt : p'.connectionSalt = p.connectionSalt)
    (hstate : p'.connectionState = p.connectionState) : Earned events p' := by
  constructor
  · rw [haddr, hsalt]
    exact h.requested
  · intro hconnected
    rw [haddr, hsalt]
    exact h.responded (hstate.symm.trans hconnected)

section Turn

variable {events : List Event} {s : State} {e : Event} {o : Outcome}

theorem earned_of_turn (hrun : run step {} events = some s)
    (hI : ∀ p ∈ s.players, Earned events p) (h : Turn e.env s e.data e.clientAddr o) :
    ∀ p ∈ o.state.players, Earned (events ++ [e]) p := by
  have hkept : ∀ p ∈ s.players, Earned (events ++ [e]) p :=
    fun p hp => (hI p hp).append e
  cases h with
  | dropped => exact hkept
  | requested clientSalt hsize hdata =>
    intro p hp
    rcases List.mem_append.mp hp with hold | hnew
    · exact hkept p hold
    · obtain rfl := List.mem_singleton.mp hnew
      constructor
      · exact once_last hrun ⟨hsize, rfl, clientSalt, hdata, rfl⟩
      · intro hconnected
        cases hconnected
  | unknown t salt hdata => exact hkept
  | accepted salt before after player hsize hdata hlocate hsalt =>
    obtain ⟨hplayers, haddr, _⟩ := locate_eq_some.mp hlocate
    rw [hplayers] at hkept
    apply forall_mem_replace hkept
    intro hplayer
    refine ⟨hplayer.requested, fun _ => once_last hrun ?_⟩
    rw [fromAddress_iff] at haddr
    rw [← haddr] at hlocate
    exact ⟨hsize, haddr.symm, hsalt ▸ hdata, player, find?_of_locate hlocate, rfl⟩
  | denied salt before after player hsize hdata hlocate hsalt =>
    obtain ⟨hplayers, _, _⟩ := locate_eq_some.mp hlocate
    rw [hplayers] at hkept
    exact forall_mem_erase hkept
  | synced salt clientTime before after player hdata hlocate =>
    obtain ⟨hplayers, _, _⟩ := locate_eq_some.mp hlocate
    rw [hplayers] at hkept
    exact forall_mem_replace hkept fun hplayer => hplayer.of_same rfl rfl rfl
  | played h keyboard before after player hdata hlocate =>
    obtain ⟨hplayers, _, _⟩ := locate_eq_some.mp hlocate
    rw [hplayers] at hkept
    exact forall_mem_replace hkept fun hplayer => hplayer.of_same rfl rfl rfl
  | ended salt hdata => exact fun p hp => hkept p (List.mem_filter.mp hp).1

/-- Every record of a run from the empty table has its handshake in the run. -/
theorem earned_of_run (hrun : run step {} events = some s) :
    ∀ p ∈ s.players, Earned events p := by
  refine run_history (J := fun events s => ∀ p ∈ s.players, Earned events p)
    (List.forall_mem_nil _) ?_ hrun
  intro es s e s' hfront hI hstep
  obtain ⟨o, ho, rfl⟩ := Option.map_eq_some_iff.mp hstep
  exact earned_of_turn hfront hI (turn_of_executeGameTurn ho)

end Turn

structure Authorized (events : List Event) (data : Datagram) (addr : Address) (p : Player) :
    Prop where
  address : p.address = addr
  salt : p.connectionSalt = saltField data
  earned : Earned events p

def IsGameMessage (data : Datagram) : Prop :=
  typeField data = some .clock ∨ typeField data = some .gameState

theorem not_isGameMessage {data : Datagram} {t : NetworkPacketType} {salt : UInt64}
    (hdata : Carries data t salt) (hclock : t ≠ .clock) (hgame : t ≠ .gameState) :
    ¬ IsGameMessage data := by
  rw [IsGameMessage, typeField_of_carries hdata, Option.some.injEq, Option.some.injEq]
  exact not_or.mpr ⟨hclock, hgame⟩

section Message

variable {events : List Event} {env : Env} {s : State} {data : Datagram} {addr : Address}
  {o : Outcome}

/-- Such a message does nothing, or it writes the first record that authenticates it. -/
theorem gameMessage_cases (hgame : IsGameMessage data) (h : Turn env s data addr o) :
    (o.state = s ∧ o.sent = []) ∨ ∃ before player player' after,
      locate (authenticates (saltField data) addr) s.players = some (before, player, after) ∧
      o.state.players = before ++ player' :: after := by
  cases h with
  | dropped => exact Or.inl ⟨rfl, rfl⟩
  | requested clientSalt hsize hdata =>
    exact absurd hgame (not_isGameMessage hdata nofun nofun)
  | unknown t salt hdata => exact Or.inl ⟨rfl, rfl⟩
  | accepted salt before after player hsize hdata hlocate hsalt =>
    exact absurd hgame (not_isGameMessage hdata nofun nofun)
  | denied salt before after player hsize hdata hlocate hsalt =>
    exact absurd hgame (not_isGameMessage hdata nofun nofun)
  | synced salt clientTime before after player hdata hlocate =>
    obtain rfl := saltField_of_carries hdata
    exact Or.inr ⟨before, player, _, after, hlocate, rfl⟩
  | played h keyboard before after player hdata hlocate =>
    have hsalt := saltField_of_carries hdata
    rw [← hsalt] at hlocate
    exact Or.inr ⟨before, player, _, after, hlocate, rfl⟩
  | ended salt hdata => exact absurd hgame (not_isGameMessage hdata nofun nofun)

/-- Over every run from the empty table, such a message changes a record or is
answered only for a record with the sender's address and the salt it carries,
which an accepted request of that address has made; and the record is connected
only if a response has been accepted for it. -/
theorem gameMessage_needs_request (hrun : run step {} events = some s)
    (hgame : IsGameMessage data) (h : executeGameTurn env s data addr = some o) :
    (∀ i : ℕ, o.state.players[i]? ≠ s.players[i]? →
        ∃ p, s.players[i]? = some p ∧ Authorized events data addr p) ∧
      (o.sent ≠ [] → ∃ p, s.players.find? (authenticates (saltField data) addr) = some p ∧
        Authorized events data addr p) := by
  rcases gameMessage_cases hgame (turn_of_executeGameTurn h) with ⟨hstate, hsent⟩ |
      ⟨before, player, player', after, hlocate, hstate⟩
  · rw [hstate]
    exact ⟨fun i hi => absurd rfl hi, fun hne => absurd hsent hne⟩
  · obtain ⟨hplayers, hauth, _⟩ := locate_eq_some.mp hlocate
    obtain ⟨hsalt, haddr⟩ := authenticates_iff.mp hauth
    have hearned : Authorized events data addr player :=
      ⟨haddr, hsalt, earned_of_run hrun player (mem_of_locate hlocate)⟩
    refine ⟨fun i hi => ⟨player, ?_, hearned⟩, fun _ => ⟨player, find?_of_locate hlocate, hearned⟩⟩
    rw [hstate, hplayers] at hi
    obtain rfl := eq_length_of_replace hi
    rw [hplayers, List.getElem?_append_right (Nat.le_refl _), Nat.sub_self, List.getElem?_cons_zero]

/-- A CLOCK message for a known record is answered whatever the state of the connection. -/
theorem executeGameTurn_clock {salt clientTime : UInt64} {p' : NetworkPacket}
    {before after : List Player} {player : Player} (hdata : Carries data .clock salt)
    (htime : ((ofBytes data).advance 13).readUInt64 = some (clientTime, p'))
    (hlocate : locate (authenticates salt addr) s.players = some (before, player, after)) :
    executeGameTurn env s data addr = some
      { state := ⟨before ++
          { player with
            serverClockOffset := milliseconds (env.clock 0) - clientTime.toInt64 } :: after⟩
        sent := answer env player.address (clockResponseDatagram (milliseconds (env.clock 0)))
        result := if env.sendOk then 0 else 1 } := by
  rw [executeGameTurn_of_carries hdata]
  simp only [dispatch, handleClockSync, hdata.salt, htime, hlocate, Option.bind_eq_bind,
    Option.bind_some, Option.pure_def, Server.send, toDatagram_clockResponsePacket]
  rfl

end Message

def clockDatagram (salt clientTime : UInt64) : Datagram :=
  sealed (NetworkPacketType.clock.toInt8.toUInt8 :: (bytes64 salt ++ bytes64 clientTime))

theorem carries_clockDatagram (salt clientTime : UInt64) :
    Carries (clockDatagram salt clientTime) .clock salt :=
  carries_sealed .clock salt _

theorem readUInt64_clockDatagram (salt clientTime : UInt64) :
    ((ofBytes (clockDatagram salt clientTime)).advance 13).readUInt64 =
      some (clientTime, (ofBytes (clockDatagram salt clientTime)).advance 21) := by
  have htype := NetworkPacket.unread_sealed
    (NetworkPacketType.clock.toInt8.toUInt8 :: (bytes64 salt ++ bytes64 clientTime))
  have hsalt := NetworkPacket.unread_advance_one htype
  have htime := (NetworkPacket.unread_advance_of hsalt (length_bytes64 _)).trans
    (List.append_nil _).symm
  exact NetworkPacket.readUInt64_of_unread htime

/-- The record of one request, and a CLOCK message with its salt. -/
theorem gameMessage_needs_request_clock :
    let events : List Event := [⟨{}, paddedMessage .connectionRequest 1, ⟨2, 1, 1⟩⟩]
    let s : State := ⟨[newPlayer {} [] 1 ⟨2, 1, 1⟩]⟩
    let data := clockDatagram 1 0
    ∃ o, executeGameTurn {} s data ⟨2, 1, 1⟩ = some o ∧
      (∀ i : ℕ, o.state.players[i]? ≠ s.players[i]? →
        ∃ p, s.players[i]? = some p ∧ Authorized events data ⟨2, 1, 1⟩ p) ∧
      (o.sent ≠ [] → ∃ p, s.players.find? (authenticates (saltField data) ⟨2, 1, 1⟩) = some p ∧
        Authorized events data ⟨2, 1, 1⟩ p) := by
  intro events s data
  have hstep : step {} ⟨{}, paddedMessage .connectionRequest 1, ⟨2, 1, 1⟩⟩ = some s :=
    step_paddedRequest _ _ _ _
  have hlocate : locate (authenticates 1 ⟨2, 1, 1⟩) s.players =
      some ([], newPlayer {} [] 1 ⟨2, 1, 1⟩, []) := rfl
  have hturn : executeGameTurn {} s data ⟨2, 1, 1⟩ = some _ :=
    executeGameTurn_clock (carries_clockDatagram 1 0) (readUInt64_clockDatagram 1 0) hlocate
  exact ⟨_, hturn, gameMessage_needs_request ((run_singleton _ _).trans hstep)
    (Or.inl (typeField_of_carries (carries_clockDatagram 1 0))) hturn⟩

/-- The answer comes while the record is still connecting. -/
theorem clock_answered_while_connecting :
    ¬ ∀ (events : List Event) (env : Env) (s : State) (data : Datagram) (addr : Address)
      (o : Outcome), run step {} events = some s → IsGameMessage data →
      executeGameTurn env s data addr = some o →
      (∀ i : ℕ, o.state.players[i]? ≠ s.players[i]? →
          ∃ p, s.players[i]? = some p ∧ p.connectionState = .connected) ∧
        (o.sent ≠ [] → ∃ p, s.players.find? (authenticates (saltField data) addr) = some p ∧
          p.connectionState = .connected) := by
  intro h
  have hstep : step {} ⟨{}, paddedMessage .connectionRequest 1, ⟨2, 1, 1⟩⟩ =
      some ⟨[newPlayer {} [] 1 ⟨2, 1, 1⟩]⟩ :=
    step_paddedRequest _ _ _ _
  have hcarries := carries_clockDatagram 1 0
  have hlocate : locate (authenticates 1 ⟨2, 1, 1⟩) [newPlayer {} [] 1 ⟨2, 1, 1⟩] =
      some ([], newPlayer {} [] 1 ⟨2, 1, 1⟩, []) := rfl
  obtain ⟨p, hfind, hconnected⟩ := (h _ {} _ _ ⟨2, 1, 1⟩ _ ((run_singleton _ _).trans hstep)
    (Or.inl (typeField_of_carries hcarries))
    (executeGameTurn_clock hcarries (readUInt64_clockDatagram 1 0) hlocate)).2
    (List.cons_ne_nil _ _)
  rw [saltField_of_carries hcarries] at hfind
  obtain rfl := Option.some.inj (hfind.symm.trans (find?_of_locate hlocate))
  cases hconnected

end RocketGame.HandshakeGating
