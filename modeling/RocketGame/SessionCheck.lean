import RocketGame.ClientSafety

/-!
What a datagram of another session does to the running client. HandleGameState
compares the salt before it touches anything. ExecuteGame ends the game on any
DISCONNECT before a salt is read, although the server writes the salt into it.
-/
namespace RocketGame.SessionCheck

open Client ClientProgram ClientSafety DatagramSafety NetworkUtilities Packets PlayerTable
open NetworkPacket (ofBytes)

/-- The loop runs on, and the game state exchange is as it was. -/
structure Undisturbed (c c' : Program) : Prop where
  running : ∃ loop, c'.phase = .playing loop
  channel : c'.toChannel = c.toChannel
  incoming : c'.incomingStates = c.incomingStates

section Receive

variable {env : Env} {loop : GameLoop} {sender : Address} {data : Datagram} {c : Program}

/-- HandleGameState returns 0 for another salt and leaves the state alone. -/
theorem handleGameState_of_salt_ne (env : Env) {c : Client.State} (hlen : 13 ≤ data.length)
    (hsalt : saltField data ≠ c.connectionSalt) :
    handleGameState env c ((ofBytes data).advance 5) = some { state := c, result := 0 } := by
  simp only [handleGameState, readUInt64_saltField hlen, Option.bind_eq_bind, Option.bind_some,
    ne_eq, hsalt.symm, not_false_eq_true, if_true, Option.pure_def]

/-- One Receive of the loop for a datagram of another session. -/
theorem receiveGame_of_salt_ne (hsender : isSameAddress sender c.serverAddr = true)
    (hcrc : ValidCRC data) (hlen : 13 ≤ data.length) (hsalt : saltField data ≠ c.connectionSalt) :
    receiveGame env loop (.packet sender data) c =
      some (if typeField data = some .disconnect then { c with phase := .returned 0 }
        else keepPlaying { loop with idleTime := 0 } c) := by
  have hsize : ¬ data.length < Crc32.crcSize := by
    unfold Crc32.crcSize
    omega
  have htype := readNetworkPacketType_typeField (show 4 < data.length by omega)
  have hgame := handleGameState_of_salt_ne env hlen hsalt
  have hvalid : (ofBytes data).readAndValidateCRC = some (0, (ofBytes data).advance 4) := hcrc
  simp only [receiveGame, hsender, Bool.not_true, Bool.false_eq_true, if_false,
    NetworkPacket.size_ofBytes, hsize, hvalid, htype, Option.bind_eq_bind, Option.bind_some,
    ne_eq, not_true_eq_false]
  cases typeField data with
  | none => rfl
  | some t =>
    cases t with
    | gameState =>
      dsimp only
      rw [hgame]
      rfl
    | _ => rfl

/-- The turn of the loop in which it is received. -/
theorem step_of_salt_ne (physics : PhysicsEngine) (hphase : c.phase = .playing loop)
    (hsender : isSameAddress sender c.serverAddr = true) (hcrc : ValidCRC data)
    (hlen : 13 ≤ data.length) (hsalt : saltField data ≠ c.connectionSalt) :
    step physics c (.receive (.packet sender data) env) =
      some (if typeField data = some .disconnect then
          { (updateGame physics env loop c).1.program with phase := .returned 0 }
        else keepPlaying { (updateGame physics env loop c).2 with idleTime := 0 }
          (updateGame physics env loop c).1.program) := by
  obtain ⟨hsalt', haddr⟩ := updateGame_kept physics env loop c
  rw [← haddr] at hsender
  rw [← hsalt'] at hsalt
  have hreceive : receiveGame (later env 2) (updateGame physics env loop c).2
      (.packet sender data) (updateGame physics env loop c).1.program = _ :=
    receiveGame_of_salt_ne hsender hcrc hlen hsalt
  simp only [step, progress, hphase, gameTurn, hreceive, Option.map_some]

end Receive

/-- A datagram of another session leaves the running client undisturbed exactly
when it is no DISCONNECT. -/
theorem receive_undisturbed_iff (physics : PhysicsEngine) (env : Env) (loop : GameLoop)
    (sender : Address) (data : Datagram) (c : Program) (hphase : c.phase = .playing loop)
    (hsender : isSameAddress sender c.serverAddr = true) (hcrc : ValidCRC data)
    (hlen : 13 ≤ data.length) (hsalt : saltField data ≠ c.connectionSalt) :
    (∃ c', step physics c (.receive (.packet sender data) env) = some c' ∧
        Undisturbed (updateGame physics env loop c).1.program c') ↔
      typeField data ≠ some .disconnect := by
  rw [step_of_salt_ne physics hphase hsender hcrc hlen hsalt]
  simp only [Option.some.injEq, exists_eq_left']
  by_cases hdisconnect : typeField data = some .disconnect
  · rw [if_pos hdisconnect]
    refine iff_of_false (fun h => ?_) (not_not.mpr hdisconnect)
    obtain ⟨_, hloop⟩ := h.running
    cases hloop
  · rw [if_neg hdisconnect]
    exact iff_of_true ⟨⟨_, rfl⟩, rfl, rfl⟩ hdisconnect

def playing : Program :=
  { serverAddr := ⟨2, 9, 3501⟩, connectionSalt := 7, connectionState := .connected,
    phase := .playing { gameUpdateTime := 0, idle := 0 } }

def sessionDatagram (t : NetworkPacketType) (salt : UInt64) : Datagram :=
  NetworkPacket.sealed (t.toInt8.toUInt8 :: (bytes64 salt ++ []))

theorem saltField_sessionDatagram_ne (t : NetworkPacketType) :
    saltField (sessionDatagram t 8) ≠ playing.connectionSalt := by
  rw [sessionDatagram, saltField_of_carries (carries_sealed t 8 [])]
  decide

/-- A GAME_STATE with the salt 8 of an earlier session. -/
theorem receive_undisturbed_iff_gameState :
    (∃ c', step .resting playing
          (.receive (.packet ⟨2, 9, 3501⟩ (sessionDatagram .gameState 8)) {}) = some c' ∧
        Undisturbed (updateGame .resting {} { gameUpdateTime := 0, idle := 0 }
          playing).1.program c') ↔
      typeField (sessionDatagram .gameState 8) ≠ some .disconnect :=
  receive_undisturbed_iff _ _ _ _ _ _ rfl (by decide) (carries_sealed .gameState 8 []).crc
    (length_of_carries (carries_sealed .gameState 8 [])) (saltField_sessionDatagram_ne _)

/-- A DISCONNECT with the salt 8 of an earlier session ends the game. -/
theorem stale_disconnect_ends_game :
    ¬ ∀ (physics : PhysicsEngine) (env : Env) (loop : GameLoop) (sender : Address)
      (data : Datagram) (c : Program), c.phase = .playing loop →
      isSameAddress sender c.serverAddr = true → ValidCRC data → 13 ≤ data.length →
      saltField data ≠ c.connectionSalt →
      ∃ c', step physics c (.receive (.packet sender data) env) = some c' ∧
        Undisturbed (updateGame physics env loop c).1.program c' := by
  intro h
  have hcarries := carries_sealed .disconnect 8 []
  have hserver : isSameAddress ⟨2, 9, 3501⟩ playing.serverAddr = true := by decide
  have hlen := length_of_carries hcarries
  have hsalt := saltField_sessionDatagram_ne .disconnect
  obtain ⟨c', hstep, hkept⟩ := h .resting {} _ _ _ playing rfl hserver hcarries.crc hlen hsalt
  rw [step_of_salt_ne .resting rfl hserver hcarries.crc hlen hsalt,
    if_pos (typeField_of_carries hcarries), Option.some.injEq] at hstep
  obtain ⟨_, hloop⟩ := hkept.running
  rw [← hstep] at hloop
  cases hloop

end RocketGame.SessionCheck
