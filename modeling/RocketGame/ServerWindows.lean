import RocketGame.AckBits
import RocketGame.Turns

/-!
The two lists of a player record over whole runs of the server. ComputeAckBits and
VerifyAck walk them with one cursor and rely on their order; whatever the packets
are, late, duplicate or forged, the order survives the pushes, the erasure of
acknowledged entries and the trimming, so every reply reports what was received.
-/
namespace RocketGame.ServerWindows

open AckBits Channels FirstMatch GameMessages HandshakeMessages NetworkUtilities Packets
open PlayerStates PlayerTable Runs Server Turns Windows
open NetworkPacket (ofBytes)

/-- The lists of a record. The send list holds no acknowledged entry. -/
structure Windowed (ch : Channel) : Prop where
  received : ReceivedWindow maxReceivedPacketsStored ch
  sent : Window (ch.sendPackets.map PacketInfo.seqNum) ch.localSequenceNumberLarge
  unacknowledged : ∀ pi ∈ ch.sendPackets, pi.acknowledged = false

theorem windowed_fresh : Windowed {} :=
  ⟨receivedWindow_fresh _, Window.nil _, by simp⟩

section Channel

variable {ch : Channel} {clock : Clock} {h : Header}

structure Room (ch : Channel) (seqNum : UInt16) : Prop where
  remote : ch.remoteSequenceNumberLarge.toNat +
    (sequenceNumberDiff ch.remoteSequenceNumberSmall seqNum).toNat < 2 ^ 64
  own : ch.localSequenceNumberLarge.toNat + 1 < 2 ^ 64

theorem receivedWindow_serverReceive (hw : Windowed ch) (hroom : Room ch h.seqNum) :
    ReceivedWindow maxReceivedPacketsStored (serverReceive clock ch h) :=
  have htrim := hw.received.accept_trim hroom.remote
  ⟨htrim.window, htrim.last, htrim.bounded⟩

theorem serverReceive_localSequenceNumberLarge :
    (serverReceive clock ch h).localSequenceNumberLarge = ch.localSequenceNumberLarge :=
  Channel.accept_localSequenceNumberLarge ch h.seqNum

/-- What is left of the send list keeps its order, up to the local number. -/
theorem window_sendPackets_serverReceive
    (hsent : Window (ch.sendPackets.map PacketInfo.seqNum) ch.localSequenceNumberLarge) :
    Window ((serverReceive clock ch h).sendPackets.map PacketInfo.seqNum)
      (serverReceive clock ch h).localSequenceNumberLarge := by
  rw [serverReceive_localSequenceNumberLarge]
  apply hsent.sublist
  have hnumbers : (receive clock ch h).sendPackets.map PacketInfo.seqNum =
      ch.sendPackets.map PacketInfo.seqNum := by
    change (verifyAck ..).map PacketInfo.seqNum = _
    rw [map_seqNum_verifyAck, Channel.accept_sendPackets]
  rw [← hnumbers]
  exact List.filter_sublist.map _

/-- The reply goes out under the next number, which joins the list. -/
theorem window_sendPackets_serverRecord {player : Player} {keyboard : Keyboard}
    (hsent : Window (player.sendPackets.map PacketInfo.seqNum) player.localSequenceNumberLarge)
    (hroom : player.localSequenceNumberLarge.toNat + 1 < 2 ^ 64) :
    Window ((serverRecord clock player h keyboard).sendPackets.map PacketInfo.seqNum)
      (serverRecord clock player h keyboard).localSequenceNumberLarge := by
  change Window (((serverReceive clock player.toChannel h).sendPackets ++ [_]).map
    PacketInfo.seqNum) ((serverReceive clock player.toChannel h).localSequenceNumberLarge + 1)
  rw [List.map_append]
  refine (window_sendPackets_serverReceive hsent).append (lt_add_of_toNat ?_ (by decide))
  rw [serverReceive_localSequenceNumberLarge]
  exact hroom

theorem unacknowledged_serverRecord {player : Player} {keyboard : Keyboard} :
    ∀ pi ∈ (serverRecord clock player h keyboard).sendPackets, pi.acknowledged = false := by
  intro pi hpi
  rcases List.mem_append.mp hpi with hold | hnew
  · simpa using (List.mem_filter.mp hold).2
  · obtain rfl := List.mem_singleton.mp hnew
    rfl

/-- The record after the reply. -/
theorem windowed_serverRecord {player : Player} {keyboard : Keyboard}
    (hw : Windowed player.toChannel) (hroom : Room player.toChannel h.seqNum) :
    Windowed (serverRecord clock player h keyboard).toChannel := by
  obtain ⟨hwindow, hlast, hbounded⟩ := receivedWindow_serverReceive hw hroom
  exact ⟨⟨hwindow, hlast, hbounded⟩, window_sendPackets_serverRecord hw.sent hroom.own,
    unacknowledged_serverRecord⟩

end Channel

section Turns

variable {s s' : State} {e : Event} {o : Outcome}

structure Handled (s : State) (e : Event) (h : Header) (before : List Player) (player : Player)
    (after : List Player) : Prop where
  carries : Carries e.data .gameState h.connectionSalt
  header : ∃ p, readHeader ((ofBytes e.data).advance 5) = some (h, p)
  located : locate (authenticates h.connectionSalt e.clientAddr) s.players =
    some (before, player, after)

theorem Handled.outcome {h : Header} {before after : List Player} {player : Player}
    (hh : Handled s e h before player after)
    (ho : executeGameTurn e.env s e.data e.clientAddr = some o) :
    ∃ keyboard,
      o.state.players = before ++ serverRecord e.env.clock player h keyboard :: after ∧
      o.sent = answer e.env player.address
        (gameStateDatagram e.env before after player h keyboard) := by
  obtain ⟨p, hheader⟩ := hh.header
  rw [executeGameTurn_of_carries hh.carries] at ho
  obtain ⟨header, p', keyboard, _, hheader', rfl⟩ :=
    handleGameState_eq_some hh.carries hh.located ho
  obtain ⟨rfl, _⟩ := Prod.mk.inj (Option.some.inj (hheader.symm.trans hheader'))
  exact ⟨keyboard, rfl, rfl⟩

/-- The counters of the record that handles a game message do not overflow. -/
def NoOverflow (s : State) (e : Event) : Prop :=
  ∀ h before player after, Handled s e h before player after → Room player.toChannel h.seqNum

/-- A property of channels that a fresh record has, and that handling a game message
keeps, is kept by every turn: the other turns pass the channels on. -/
theorem channels_of_turn {P : Channel → Prop} (hfresh : P {})
    (hs : ∀ p ∈ s.players, P p.toChannel)
    (hplayed : ∀ h before player after keyboard, Handled s e h before player after →
      P player.toChannel → P (serverRecord e.env.clock player h keyboard).toChannel)
    (ho : executeGameTurn e.env s e.data e.clientAddr = some o) :
    ∀ p ∈ o.state.players, P p.toChannel := by
  have hturn := turn_of_executeGameTurn ho
  cases hturn with
  | dropped => exact hs
  | requested clientSalt hsize hdata =>
    intro p hp
    rcases List.mem_append.mp hp with hold | hnew
    · exact hs p hold
    · obtain rfl := List.mem_singleton.mp hnew
      exact hfresh
  | unknown t salt hdata => exact hs
  | accepted salt before after player hsize hdata hlocate hsalt =>
    rw [(locate_eq_some.mp hlocate).1] at hs
    exact forall_mem_replace hs id
  | denied salt before after player hsize hdata hlocate hsalt =>
    rw [(locate_eq_some.mp hlocate).1] at hs
    exact forall_mem_erase hs
  | synced salt clientTime before after player hdata hlocate =>
    rw [(locate_eq_some.mp hlocate).1] at hs
    exact forall_mem_replace hs id
  | played _ _ before after player hdata hlocate =>
    -- the header of this turn is the one the datagram carries
    have hhandle := ho
    rw [executeGameTurn_of_carries hdata] at hhandle
    obtain ⟨h, p, _, hsalt, hheader, _⟩ := handleGameState_eq_some hdata hlocate hhandle
    rw [← hsalt] at hdata hlocate
    have hhandled : Handled s e h before player after := ⟨hdata, ⟨p, hheader⟩, hlocate⟩
    obtain ⟨keyboard, hplayers, _⟩ := hhandled.outcome ho
    rw [hplayers]
    rw [(locate_eq_some.mp hlocate).1] at hs
    exact forall_mem_replace hs (hplayed h before player after keyboard hhandled)
  | ended salt hdata => exact fun p hp => hs p (List.mem_filter.mp hp).1

/-- What a turn leaves of windowed records is windowed. -/
theorem windowed_of_turn (hs : ∀ p ∈ s.players, Windowed p.toChannel) (hroom : NoOverflow s e)
    (ho : executeGameTurn e.env s e.data e.clientAddr = some o) :
    ∀ p ∈ o.state.players, Windowed p.toChannel :=
  channels_of_turn windowed_fresh hs (fun h before player after _ hhandled hw =>
    windowed_serverRecord hw (hroom h before player after hhandled)) ho

/-- The record of a handled game message sends under its newest number, and its reply
says which of the 32 numbers below the newest received one it holds. -/
def Answered (s : State) (e : Event) : Prop :=
  ∀ h before player after o, Handled s e h before player after →
    executeGameTurn e.env s e.data e.clientAddr = some o →
    ∃ record, o.state.players = before ++ record :: after ∧
      (record.sendPackets.map PacketInfo.seqNum).getLast? = some record.localSequenceNumberLarge ∧
      ∀ message ∈ o.sent, ∃ reply p,
        readHeader ((ofBytes message.2).advance 5) = some (reply, p) ∧
        NamesReceived reply.ackBits record.receivedPackets record.remoteSequenceNumberLarge

theorem answered_of_windowed (hs : ∀ p ∈ s.players, Windowed p.toChannel)
    (hroom : NoOverflow s e) : Answered s e := by
  intro h before player after o hh ho
  obtain ⟨keyboard, hplayers, hsent⟩ := hh.outcome ho
  have hw := hs player (mem_of_locate hh.located)
  refine ⟨_, hplayers, ?_, ?_⟩
  · change (((serverReceive e.env.clock player.toChannel h).sendPackets ++ [_]).map
      PacketInfo.seqNum).getLast? = _
    rw [List.map_append, List.map_singleton, List.getLast?_concat]
    rfl
  · intro message hmessage
    rw [hsent, answer] at hmessage
    split at hmessage
    · obtain rfl := List.mem_singleton.mp hmessage
      refine ⟨_, _, readHeader_gameMessage .gameState _ _, computeAckBits_namesReceived ?_⟩
      exact (receivedWindow_serverReceive hw (hroom h before player after hh)).window
    · cases hmessage

end Turns

section Runs

variable {events : List Event}

theorem always_windowed (hroom : Throughout step NoOverflow {} events) :
    Always step (fun s => ∀ p ∈ s.players, Windowed p.toChannel) {} events := by
  refine always_of_step (fun p hp => nomatch hp) ?_ hroom
  intro s e s' hs hroom hstep
  obtain ⟨o, ho, rfl⟩ := Option.map_eq_some_iff.mp hstep
  exact windowed_of_turn hs hroom ho

/-- In every run of the server over any datagrams every record keeps its windows, and
every game message that is handled is answered with exact acknowledgment bits. -/
theorem always_windowed_answered (hroom : Throughout step NoOverflow {} events) :
    Always step (fun s => ∀ p ∈ s.players, Windowed p.toChannel) {} events ∧
      Throughout step Answered {} events := by
  have hwindowed := always_windowed hroom
  exact ⟨hwindowed, throughout_of_always hwindowed hroom fun _ _ hs hroom =>
    answered_of_windowed hs hroom⟩

end Runs

theorem room_fresh (seqNum : UInt16) : Room {} seqNum := by
  have hlt := (sequenceNumberDiff 0 seqNum).toNat_lt
  constructor
  · change 0 + (sequenceNumberDiff 0 seqNum).toNat < 2 ^ 64
    omega
  · decide

/-- A request, and the first game message of the new record. -/
theorem always_windowed_answered_first :
    let events : List Event :=
      [⟨{}, paddedMessage .connectionRequest 1, ⟨2, 1, 1⟩⟩,
        ⟨{}, gameMessage .gameState ⟨1, 1, 0, 0⟩ (playerStateBytes {}), ⟨2, 1, 1⟩⟩]
    Always step (fun s => ∀ p ∈ s.players, Windowed p.toChannel) {} events ∧
      Throughout step Answered {} events := by
  refine always_windowed_answered ⟨?_, fun s hs => ⟨?_, fun _ _ => True.intro⟩⟩
  · intro h before player after hh
    cases hh.located
  · have hrequest : step {} ⟨{}, paddedMessage .connectionRequest 1, ⟨2, 1, 1⟩⟩ =
        some ⟨[newPlayer {} [] 1 ⟨2, 1, 1⟩]⟩ :=
      step_paddedRequest _ _ _ _
    obtain rfl := Option.some.inj (hrequest.symm.trans hs)
    intro h before player after hh
    have hmem := mem_of_locate hh.located
    obtain rfl := List.mem_singleton.mp hmem
    exact room_fresh _

end RocketGame.ServerWindows
