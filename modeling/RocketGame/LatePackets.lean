import RocketGame.GameMessages

/-!
Packets that arrive late or twice. The difference of two numbers is never
negative in 16 unsigned bits, so the branch for late packets is never taken: a
late number becomes the newest one, and both counters move. Only a duplicate of
the newest packet leaves them alone.
-/
namespace RocketGame.LatePackets

open Channels Channel FirstMatch GameMessages NetworkUtilities Packets PlayerStates PlayerTable
open NetworkPacket (ofBytes)

/-- The number equals the newest one or lies 1 to 32767 below it. -/
def Late (newest seqNum : UInt16) : Prop := seqNum ≤ newest ∧ newest - seqNum ≤ 32767

/-- The receiving half of the channel is as it was. -/
structure Inert (ch ch' : Channel) : Prop where
  large : ch'.remoteSequenceNumberLarge = ch.remoteSequenceNumberLarge
  small : ch'.remoteSequenceNumberSmall = ch.remoteSequenceNumberSmall
  received : ch'.receivedPackets = ch.receivedPackets

structure ServerPacket (s : Server.State) (p : NetworkPacket) (addr : Address)
    (before : List Server.Player) (player : Server.Player) (after : List Server.Player)
    (h : Header) (playerState : PlayerState) : Prop where
  reads : ∃ p' p'', readHeader p = some (h, p') ∧
    p'.deserializePlayerState = some (playerState, p'')
  record : locate (Server.authenticates h.connectionSalt addr) s.players =
    some (before, player, after)

structure ClientPacket (c : Client.State) (p : NetworkPacket) (h : Header) : Prop where
  reads : ∃ p' playerStates p'', readHeader p = some (h, p') ∧
    p'.deserializePlayerStates = some (playerStates, p'')
  salt : c.connectionSalt = h.connectionSalt

theorem trimReceived_eq_iff (ch : Channel) (limit : ℕ) :
    (ch.trimReceived limit).receivedPackets = ch.receivedPackets ↔
      ch.receivedPackets.length ≤ limit := by
  unfold trimReceived
  dsimp only
  split
  · rename_i hlong
    constructor
    · intro h
      have hlen := congrArg List.length h
      rw [List.length_drop] at hlen
      omega
    · omega
  · rename_i hshort
    exact iff_of_true rfl (Nat.le_of_not_lt hshort)

/-- A duplicate of the newest packet is not accepted again. -/
theorem accept_newest (ch : Channel) : ch.accept ch.remoteSequenceNumberSmall = ch := by
  have hzero := (sequenceNumberDiff_eq_zero_iff ch.remoteSequenceNumberSmall _).mpr rfl
  rw [accept, hzero]
  exact if_neg (by decide)

/-- Accepting and trimming leaves the channel alone for a duplicate of the
newest packet only, and then only if nothing is trimmed. -/
theorem inert_iff {ch ch' : Channel} {seqNum : UInt16} {limit : ℕ}
    (hlarge : ch'.remoteSequenceNumberLarge = (ch.accept seqNum).remoteSequenceNumberLarge)
    (hsmall : ch'.remoteSequenceNumberSmall = (ch.accept seqNum).remoteSequenceNumberSmall)
    (hreceived : ch'.receivedPackets = ((ch.accept seqNum).trimReceived limit).receivedPackets) :
    Inert ch ch' ↔
      seqNum = ch.remoteSequenceNumberSmall ∧ ch.receivedPackets.length ≤ limit := by
  constructor
  · intro h
    have hseq : seqNum = ch.remoteSequenceNumberSmall := by
      rw [← h.small, hsmall, accept_remoteSequenceNumberSmall]
    subst hseq
    rw [accept_newest] at hreceived
    exact ⟨rfl, (trimReceived_eq_iff ch limit).mp (hreceived.symm.trans h.received)⟩
  · rintro ⟨rfl, hlimit⟩
    rw [accept_newest] at hlarge hsmall hreceived
    exact ⟨hlarge, hsmall, hreceived.trans ((trimReceived_eq_iff ch limit).mpr hlimit)⟩

theorem serverReceive_inert_iff (clock : Clock) (player : Server.Player) (h : Header)
    (keyboard : Keyboard) :
    Inert player.toChannel (serverRecord clock player h keyboard).toChannel ↔
      h.seqNum = player.remoteSequenceNumberSmall ∧
        player.receivedPackets.length ≤ Server.maxReceivedPacketsStored :=
  inert_iff rfl rfl rfl

theorem clientReceive_inert_iff (clock : Clock) (ch : Channel) (h : Header) :
    Inert ch (clientReceive clock ch h) ↔
      h.seqNum = ch.remoteSequenceNumberSmall ∧
        ch.receivedPackets.length ≤ Client.maxReceivedPacketsStored :=
  inert_iff rfl rfl rfl

/-- On both sides a packet leaves the receiving half alone exactly when it
repeats the newest number and the list of received packets is within its limit,
and on the server also carries the keyboard already stored. -/
theorem handleGameState_inert_iff (env : Server.Env) (s : Server.State) (p : NetworkPacket)
    (addr : Address) (env' : Client.Env) (c : Client.State) (p' : NetworkPacket) :
    (∀ (before : List Server.Player) (player : Server.Player) (after : List Server.Player)
      (h : Header) (playerState : PlayerState),
      ServerPacket s p addr before player after h playerState →
      ∃ o player', Server.handleGameState env s p addr = some o ∧
        o.state.players = before ++ player' :: after ∧
        (Inert player.toChannel player'.toChannel ∧ player'.keyboard = player.keyboard ↔
          h.seqNum = player.remoteSequenceNumberSmall ∧
            playerState.keyboard = player.keyboard ∧
            player.receivedPackets.length ≤ Server.maxReceivedPacketsStored)) ∧
    (∀ h : Header, ClientPacket c p' h →
      ∃ o, Client.handleGameState env' c p' = some o ∧
        (Inert c.toChannel o.state.toChannel ↔
          h.seqNum = c.remoteSequenceNumberSmall ∧
            c.receivedPackets.length ≤ Client.maxReceivedPacketsStored)) := by
  constructor
  · intro before player after h playerState hpacket
    obtain ⟨_, _, hheader, hstate⟩ := hpacket.reads
    refine ⟨_, _, server_handleGameState_eq hheader hstate hpacket.record, rfl, ?_⟩
    rw [serverReceive_inert_iff, and_assoc, and_comm (b := _ = player.keyboard)]
    exact Iff.rfl
  · intro h hpacket
    obtain ⟨_, _, _, hheader, hstates⟩ := hpacket.reads
    obtain ⟨o, ho, hchannel, _⟩ := client_handleGameState_eq env' hheader hpacket.salt hstates
    refine ⟨o, ho, ?_⟩
    rw [hchannel]
    exact clientReceive_inert_iff _ _ _

def recordAtThree : Server.Player :=
  { address := ⟨2, 1, 1⟩, connectionSalt := 7, receivedPackets := [3],
    remoteSequenceNumberLarge := 3, remoteSequenceNumberSmall := 3 }

def inputNumbered (seqNum : UInt16) : NetworkPacket :=
  (ofBytes (gameMessage .gameState ⟨7, seqNum, 0, 0⟩ (playerStateBytes {}))).advance 5

theorem serverPacket_inputNumbered (seqNum : UInt16) :
    ServerPacket ⟨[recordAtThree]⟩ (inputNumbered seqNum) ⟨2, 1, 1⟩ [] recordAtThree []
      ⟨7, seqNum, 0, 0⟩ (received {}) :=
  ⟨⟨_, _, readHeader_gameMessage _ _ _, deserializePlayerState_gameMessage _ _ _⟩, rfl⟩

def clientAtThree : Client.State :=
  { serverAddr := ⟨2, 9, 3501⟩, connectionSalt := 7, receivedPackets := [3],
    remoteSequenceNumberLarge := 3, remoteSequenceNumberSmall := 3 }

def replyNumbered (seqNum : UInt16) : NetworkPacket :=
  (ofBytes (gameMessage .gameState ⟨7, seqNum, 0, 0⟩ (tableBytes []))).advance 5

theorem clientPacket_replyNumbered (seqNum : UInt16) :
    ClientPacket clientAtThree (replyNumbered seqNum) ⟨7, seqNum, 0, 0⟩ := by
  obtain ⟨playerStates, p, hstates⟩ :=
    deserializePlayerStates_gameMessage .gameState ⟨7, seqNum, 0, 0⟩ []
  exact ⟨⟨_, playerStates, p, readHeader_gameMessage _ _ _, hstates⟩, rfl⟩

/-- A duplicate of number 3 is inert on both. -/
theorem handleGameState_inert_iff_duplicate :
    (∃ o player',
      Server.handleGameState {} ⟨[recordAtThree]⟩ (inputNumbered 3) ⟨2, 1, 1⟩ = some o ∧
      o.state.players = [] ++ player' :: [] ∧
      (Inert recordAtThree.toChannel player'.toChannel ∧
          player'.keyboard = recordAtThree.keyboard ↔
        (3 : UInt16) = 3 ∧ (received {}).keyboard = recordAtThree.keyboard ∧ 1 ≤ 60)) ∧
    ∃ o, Client.handleGameState {} clientAtThree (replyNumbered 3) = some o ∧
      (Inert clientAtThree.toChannel o.state.toChannel ↔ (3 : UInt16) = 3 ∧ 1 ≤ 33) := by
  have h := handleGameState_inert_iff {} ⟨[recordAtThree]⟩ (inputNumbered 3) ⟨2, 1, 1⟩ {}
    clientAtThree (replyNumbered 3)
  exact ⟨h.1 _ _ _ _ _ (serverPacket_inputNumbered 3), h.2 _ (clientPacket_replyNumbered 3)⟩

/-- Number 2, arriving after number 3, becomes the newest number. -/
theorem late_packet_moves_counters :
    ¬ ((∀ (env : Server.Env) (s : Server.State) (p : NetworkPacket) (addr : Address)
        (before : List Server.Player) (player : Server.Player) (after : List Server.Player)
        (h : Header) (playerState : PlayerState),
        ServerPacket s p addr before player after h playerState →
        Late player.remoteSequenceNumberSmall h.seqNum →
        ∃ o player', Server.handleGameState env s p addr = some o ∧
          o.state.players = before ++ player' :: after ∧
          Inert player.toChannel player'.toChannel ∧ player'.keyboard = player.keyboard) ∧
      (∀ (env : Client.Env) (c : Client.State) (p : NetworkPacket) (h : Header),
        ClientPacket c p h → Late c.remoteSequenceNumberSmall h.seqNum →
        ∃ o, Client.handleGameState env c p = some o ∧ Inert c.toChannel o.state.toChannel)) := by
  rintro ⟨hserver, _⟩
  have hpacket := serverPacket_inputNumbered 2
  obtain ⟨o, player', ho, hplayers, hinert, _⟩ :=
    hserver {} _ _ _ _ _ _ _ _ hpacket ⟨by decide, by decide⟩
  obtain ⟨p', p'', hheader, hstate⟩ := hpacket.reads
  rw [server_handleGameState_eq hheader hstate hpacket.record, Option.some.injEq] at ho
  subst ho
  obtain ⟨rfl, _⟩ := List.cons.inj hplayers
  have hseq := ((serverReceive_inert_iff _ _ _ _).mp hinert).1
  exact absurd hseq (by decide)

end RocketGame.LatePackets
