import RocketGame.AckBits
import RocketGame.GameMessages
import RocketGame.Runs

/-!
The acknowledgment bits of the client over whole runs. The received numbers are
64-bit ones, but SendGameState has the bits counted back from the 16-bit number
of the packet handled last. The two numbers agree until a packet is handled whose
16-bit number lies below it, which a late packet does, and the first one after a
wrap.
-/
namespace RocketGame.ClientAcks

open AckBits Channels GameMessages NetworkUtilities Packets PlayerStates Runs Windows
open NetworkPacket (ofBytes)

inductive Event
  | input (playerState : PlayerState)
  | send (env : Client.Env)
  | receive (env : Client.Env) (networkPacket : NetworkPacket)

def step (physics : Client.PhysicsEngine) (c : Client.State) : Event → Option Client.State
  | .input playerState => some { c with outgoingState := (c.outgoingState.push playerState).2 }
  | .send env => some (Client.sendGameState physics env c).state
  | .receive env networkPacket =>
      (Client.handleGameState env c networkPacket).map Client.Outcome.state

/-- Whatever SendGameState sends in this state, its bits say exactly which of the 32
numbers below the newest one the client holds. -/
def AckBitsExact (physics : Client.PhysicsEngine) (c : Client.State) : Prop :=
  ∀ env, ∀ message ∈ (Client.sendGameState physics env c).sent,
    ∃ h p, readHeader ((ofBytes message.2).advance 5) = some (h, p) ∧
      NamesReceived h.ackBits c.receivedPackets c.remoteSequenceNumberLarge

def NotBelow (c : Client.State) : Event → Prop
  | .receive _ networkPacket => ∀ h p, readHeader networkPacket = some (h, p) →
      h.connectionSalt = c.connectionSalt → c.remoteSequenceNumberSmall ≤ h.seqNum
  | _ => True

/-- The 16-bit number the bits count back from is the 64-bit counter. -/
def ReferenceRight (ch : Channel) : Prop :=
  ch.remoteSequenceNumberLarge = ch.remoteSequenceNumberSmall.toUInt64

section Channel

variable {ch : Channel}

/-- The reference is still right after a packet exactly when it is not below the last one. -/
theorem referenceRight_accept_iff (h : ReferenceRight ch) (seqNum : UInt16) :
    ReferenceRight (ch.accept seqNum) ↔ ch.remoteSequenceNumberSmall ≤ seqNum := by
  have hsmall := ch.remoteSequenceNumberSmall.toNat_lt
  have hseq := seqNum.toNat_lt
  unfold ReferenceRight at h ⊢
  rw [Channel.accept_remoteSequenceNumberLarge, Channel.accept_remoteSequenceNumberSmall, h,
    ← UInt64.toNat_inj, UInt64.toNat_add, UInt16.toNat_toUInt64, UInt16.toNat_toUInt64,
    UInt16.toNat_toUInt64, toNat_sequenceNumberDiff, UInt16.le_iff_toNat_le]
  split <;> omega

theorem room_of_referenceRight (h : ReferenceRight ch) (seqNum : UInt16) :
    ch.remoteSequenceNumberLarge.toNat +
      (sequenceNumberDiff ch.remoteSequenceNumberSmall seqNum).toNat < 2 ^ 64 := by
  have hsmall := ch.remoteSequenceNumberSmall.toNat_lt
  have hdiff := (sequenceNumberDiff ch.remoteSequenceNumberSmall seqNum).toNat_lt
  rw [h, UInt16.toNat_toUInt64]
  omega

end Channel

structure Synced (ch : Channel) : Prop where
  received : ReceivedWindow Client.maxReceivedPacketsStored ch
  reference : ReferenceRight ch

theorem synced_fresh : Synced {} := ⟨receivedWindow_fresh _, rfl⟩

theorem Synced.received_clientReceive {ch : Channel} (h : Synced ch) (clock : Clock)
    (header : Header) :
    ReceivedWindow Client.maxReceivedPacketsStored (clientReceive clock ch header) := by
  have htrim := h.received.accept_trim (room_of_referenceRight h.reference header.seqNum)
  exact ⟨htrim.window, htrim.last, htrim.bounded⟩

section Runs

variable {physics : Client.PhysicsEngine} {c c' : Client.State} {events : List Event}

theorem sendGameState_received (physics : Client.PhysicsEngine) (env : Client.Env)
    (c : Client.State) :
    let channel := (Client.sendGameState physics env c).state.toChannel
    channel.receivedPackets = c.receivedPackets ∧
      channel.remoteSequenceNumberLarge = c.remoteSequenceNumberLarge ∧
      channel.remoteSequenceNumberSmall = c.remoteSequenceNumberSmall := by
  cases hpop : c.outgoingState.pop with
  | none => simp only [Client.sendGameState, hpop, and_self]
  | some popped =>
    rw [(sendGameState_of_pop physics env hpop).1]
    exact ⟨rfl, rfl, rfl⟩

/-- A step keeps the reference right exactly when it handles no packet below the last. -/
theorem referenceRight_step_iff {e : Event} (h : ReferenceRight c.toChannel)
    (hs : step physics c e = some c') : ReferenceRight c'.toChannel ↔ NotBelow c e := by
  cases e with
  | input playerState =>
    obtain rfl := Option.some.inj hs
    exact iff_of_true h trivial
  | send env =>
    obtain rfl := Option.some.inj hs
    obtain ⟨_, hlarge, hsmall⟩ := sendGameState_received physics env c
    refine iff_of_true ?_ trivial
    rw [ReferenceRight, hlarge, hsmall]
    exact h
  | receive env networkPacket =>
    obtain ⟨o, ho, rfl⟩ := Option.map_eq_some_iff.mp hs
    rcases client_handleGameState_cases ho with
      ⟨hsame, _, hother⟩ | ⟨header, p, hheader, hsalt, hchannel, _⟩
    · rw [hsame]
      exact iff_of_true h fun header p hheader hsalt => absurd hsalt.symm (hother header p hheader)
    · rw [hchannel]
      refine (referenceRight_accept_iff h header.seqNum).trans ⟨fun hle h' p' hheader' _ => ?_,
        fun hC => hC header p hheader hsalt.symm⟩
      obtain ⟨rfl, _⟩ := Prod.mk.inj (Option.some.inj (hheader.symm.trans hheader'))
      exact hle

theorem Synced.step {e : Event} (h : Synced c.toChannel) (hC : NotBelow c e)
    (hs : step physics c e = some c') : Synced c'.toChannel := by
  refine ⟨?_, (referenceRight_step_iff h.reference hs).mpr hC⟩
  cases e with
  | input playerState =>
    obtain rfl := Option.some.inj hs
    exact h.received
  | send env =>
    obtain rfl := Option.some.inj hs
    obtain ⟨hreceived, hlarge, _⟩ := sendGameState_received physics env c
    constructor
    · rw [hreceived, hlarge]
      exact h.received.window
    · rw [hreceived, hlarge]
      exact h.received.last
    · rw [hreceived]
      exact h.received.bounded
  | receive env networkPacket =>
    obtain ⟨o, ho, rfl⟩ := Option.map_eq_some_iff.mp hs
    rcases client_handleGameState_cases ho with ⟨hsame, _⟩ | ⟨_, _, _, _, hchannel, _⟩
    · rw [hsame]
      exact h.received
    · rw [hchannel]
      exact h.received_clientReceive _ _

theorem ackBitsExact_of_synced (h : Synced c.toChannel) : AckBitsExact physics c := by
  intro env message hmessage
  cases hpop : c.outgoingState.pop with
  | none =>
    simp only [Client.sendGameState, hpop] at hmessage
    cases hmessage
  | some popped =>
    obtain ⟨_, _, _, hsent⟩ := sendGameState_of_pop physics env hpop
    rw [hsent] at hmessage
    split at hmessage
    · obtain rfl := List.mem_singleton.mp hmessage
      refine ⟨_, _, readHeader_gameMessage .inputFrame _ _, ?_⟩
      change NamesReceived (computeAckBits _ _) _ _
      rw [← h.reference]
      exact computeAckBits_namesReceived h.received.window
    · cases hmessage

/-- In every state of a run the reference is right exactly when the run handles no packet
whose number is below the last one. -/
theorem always_referenceRight_iff {t : Client.State} (hfresh : c.toChannel = {})
    (hrun : run (step physics) c events = some t) :
    Always (step physics) (fun c => ReferenceRight c.toChannel) c events ↔
      Throughout (step physics) NotBelow c events := by
  refine always_iff_throughout (I := fun c => ReferenceRight c.toChannel) ?_ (fun _ h => h) ?_ ?_
    hrun
  · rw [hfresh]
    exact synced_fresh.reference
  · exact fun c e c' h hC hs => (referenceRight_step_iff h hs).mpr hC
  · exact fun c e c' h hC hs => mt (referenceRight_step_iff h hs).mp hC

/-- In every run in which no packet is handled whose number is below the last one, the
client reports exactly what it received. -/
theorem always_ackBitsExact (hfresh : c.toChannel = {})
    (hC : Throughout (step physics) NotBelow c events) :
    Always (step physics) (AckBitsExact physics) c events := by
  have hstart : Synced c.toChannel := hfresh ▸ synced_fresh
  refine (always_of_step (I := fun c => Synced c.toChannel) hstart ?_ hC).mono ?_
  · exact fun c e c' h hC hs => h.step hC hs
  · exact fun c h => ackBitsExact_of_synced h

end Runs

section Inputs

def connected : Client.State where
  serverAddr := ⟨2, 9, 3501⟩
  connectionSalt := 7
  connectionState := .connected
  outgoingState := ⟨[{}]⟩

def reply (seqNum : UInt16) : NetworkPacket :=
  (ofBytes (gameMessage .gameState ⟨7, seqNum, 0, 0⟩ (tableBytes []))).advance 5

theorem readHeader_reply (seqNum : UInt16) :
    readHeader (reply seqNum) = some (⟨7, seqNum, 0, 0⟩,
      (ofBytes (gameMessage .gameState ⟨7, seqNum, 0, 0⟩ (tableBytes []))).advance 21) :=
  readHeader_gameMessage ..

/-- Replies 2 and 3, in this order. -/
theorem always_ackBitsExact_ordered :
    Always (step .resting) (AckBitsExact .resting) connected
      [.receive {} (reply 2), .receive {} (reply 3), .send {}] := by
  refine always_ackBitsExact rfl ⟨?_, fun c hc => ⟨?_, fun _ _ => ⟨trivial, fun _ _ => trivial⟩⟩⟩
  · intro h p _ _
    exact UInt16.zero_le
  · have hsmall : (step .resting connected (.receive {} (reply 2))).map
        (fun c => c.remoteSequenceNumberSmall) = some 2 := by decide +kernel
    rw [hc, Option.map_some, Option.some.injEq] at hsmall
    intro h p hheader _
    obtain ⟨rfl, _⟩ := Prod.mk.inj (Option.some.inj ((readHeader_reply 3).symm.trans hheader))
    rw [hsmall]
    decide

def NoOverflow (c : Client.State) : Prop :=
  c.remoteSequenceNumberLarge.toNat + 65535 < 2 ^ 64 ∧ c.localSequenceNumberLarge.toNat + 1 < 2 ^ 64

instance decidableNoOverflow (c : Client.State) : Decidable (NoOverflow c) := by
  delta NoOverflow
  infer_instance

/-- Reply 3 is handled, then reply 2: the bits are counted back from 2, and the bit for
reply 3 under the newest number 4 is missing. -/
theorem late_reply_hides_received :
    ¬ ∀ (physics : Client.PhysicsEngine) (c : Client.State) (events : List Event),
      c.toChannel = {} → Always (step physics) NoOverflow c events →
      Always (step physics) (AckBitsExact physics) c events := by
  intro h
  let events : List Event := [.receive {} (reply 3), .receive {} (reply 2)]
  have hstate : (run (step .resting) connected events).map (fun c =>
      (c.receivedPackets, c.remoteSequenceNumberLarge, c.remoteSequenceNumberSmall,
        c.outgoingState.items)) = some ([3, 4], 4, 2, [{}]) := by decide +kernel
  obtain ⟨t, hrun, ht⟩ := Option.map_eq_some_iff.mp hstate
  simp only [Prod.mk.injEq] at ht
  obtain ⟨hreceived, hlarge, hsmall, hitems⟩ := ht
  have hpop : t.outgoingState.pop = some ({}, ⟨[]⟩) := by rw [Client.NetworkQueue.pop, hitems]
  obtain ⟨_, _, _, hsent⟩ := sendGameState_of_pop .resting {} hpop
  have hexact := (h .resting connected events rfl (by decide +kernel)).last hrun
  obtain ⟨header, p, hheader, hnames⟩ := hexact {} (t.serverAddr, nextDatagram t {}) (by
    rw [hsent]
    exact List.mem_cons_self)
  have hnext := hheader.symm.trans (readHeader_gameMessage .inputFrame (nextHeader t) _)
  obtain ⟨rfl, _⟩ := Prod.mk.inj (Option.some.inj hnext)
  have hbits : (nextHeader t).ackBits = 0 := by
    change computeAckBits t.receivedPackets t.remoteSequenceNumberSmall.toUInt64 = 0
    rw [hreceived, hsmall]
    decide
  have hbit := (hnames 1 (by decide) (by decide)).mpr ⟨3, by rw [hreceived]; decide, by
    rw [hlarge]
    decide⟩
  rw [hbits] at hbit
  exact absurd hbit (by decide)

end Inputs

end RocketGame.ClientAcks
