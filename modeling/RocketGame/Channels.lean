import RocketGame.NetworkUtilities

/-!
One end of the sequence number and acknowledgment scheme. Player on the server
and Client declare the same six fields, and both HandleGameState functions begin
with the same two blocks over them; the fields and the blocks are shared here.
-/
namespace RocketGame.Channels

open NetworkUtilities Words

def smallSequenceNumber (large : UInt64) : UInt16 :=
  (large % UInt64.ofNat sequenceNumberMax).toUInt16

theorem toNat_smallSequenceNumber (large : UInt64) :
    (smallSequenceNumber large).toNat = large.toNat % 65535 := by
  have hmax : (UInt64.ofNat sequenceNumberMax).toNat = 65535 := by decide
  rw [smallSequenceNumber, UInt64.toNat_toUInt16, UInt64.toNat_mod, hmax]
  omega

/-- A counter that moves on without an overflow goes up. -/
theorem lt_add_of_toNat {large diff : UInt64} (hroom : large.toNat + diff.toNat < 2 ^ 64)
    (hpos : 0 < diff) : large < large + diff := by
  rw [UInt64.lt_iff_toNat_lt, UInt64.toNat_zero] at hpos
  rw [UInt64.lt_iff_toNat_lt, UInt64.toNat_add, Nat.mod_eq_of_lt hroom]
  omega

theorem eq_zero_of_not_gt {diff : UInt16} (h : ¬ diff > 0) : diff = 0 :=
  UInt16.le_antisymm (UInt16.not_lt.mp h) UInt16.zero_le

structure Channel where
  sendPackets : List PacketInfo := []
  receivedPackets : List UInt64 := []
  localSequenceNumberLarge : UInt64 := 0
  localSequenceNumberSmall : UInt16 := 0
  remoteSequenceNumberLarge : UInt64 := 0
  remoteSequenceNumberSmall : UInt16 := 0
  deriving DecidableEq, Repr

namespace Channel

/-- The sequence number block. The difference is unsigned, so the branch
diff < 0 of the source, meant for late packets, is never taken. -/
def accept (ch : Channel) (seqNum : UInt16) : Channel :=
  let diff := sequenceNumberDiff ch.remoteSequenceNumberSmall seqNum
  if diff > 0 then
    { ch with
      remoteSequenceNumberLarge := ch.remoteSequenceNumberLarge + diff.toUInt64
      remoteSequenceNumberSmall := seqNum
      receivedPackets := ch.receivedPackets ++ [ch.remoteSequenceNumberLarge + diff.toUInt64] }
  else ch

def ackedSequenceNumber (ch : Channel) (ack : UInt16) : UInt64 :=
  ch.localSequenceNumberLarge - (sequenceNumberDiff ch.localSequenceNumberSmall ack).toUInt64

def verify (ch : Channel) (clock : Clock) (ack : UInt16) (ackBits : UInt32) : Channel :=
  { ch with
    sendPackets := verifyAck clock ch.sendPackets (ch.ackedSequenceNumber ack) ackBits }

def trimReceived (ch : Channel) (limit : ℕ) : Channel :=
  { ch with
    receivedPackets :=
      if ch.receivedPackets.length > limit then
        ch.receivedPackets.drop (ch.receivedPackets.length - limit)
      else ch.receivedPackets }

def nextSequenceNumber (ch : Channel) : Channel :=
  { ch with
    localSequenceNumberLarge := ch.localSequenceNumberLarge + 1
    localSequenceNumberSmall := smallSequenceNumber (ch.localSequenceNumberLarge + 1) }

def recordSent (ch : Channel) (now : Int64) : Channel :=
  { ch with
    sendPackets := ch.sendPackets ++
      [{ seqNum := ch.localSequenceNumberLarge, sendTicks := now }] }

/-- The remote counter moves by the difference, which is zero for a duplicate. -/
theorem accept_remoteSequenceNumberLarge (ch : Channel) (seqNum : UInt16) :
    (ch.accept seqNum).remoteSequenceNumberLarge =
      ch.remoteSequenceNumberLarge +
        (sequenceNumberDiff ch.remoteSequenceNumberSmall seqNum).toUInt64 := by
  unfold accept
  dsimp only
  split
  · rfl
  · rename_i hdiff
    rw [eq_zero_of_not_gt hdiff]
    exact (UInt64.add_zero _).symm

/-- Whatever arrives becomes the newest number on the wire. -/
@[simp] theorem accept_remoteSequenceNumberSmall (ch : Channel) (seqNum : UInt16) :
    (ch.accept seqNum).remoteSequenceNumberSmall = seqNum := by
  unfold accept
  dsimp only
  split
  · rfl
  · rename_i hdiff
    exact (sequenceNumberDiff_eq_zero_iff _ _).mp (eq_zero_of_not_gt hdiff)

theorem mem_accept_receivedPackets {ch : Channel} {seqNum : UInt16} {n : UInt64}
    (h : n ∈ (ch.accept seqNum).receivedPackets) :
    n ∈ ch.receivedPackets ∨ n = (ch.accept seqNum).remoteSequenceNumberLarge := by
  unfold accept at h ⊢
  dsimp only at h ⊢
  split at h
  · rename_i hdiff
    rw [if_pos hdiff]
    simpa only [List.mem_append, List.mem_singleton] using h
  · exact Or.inl h

/-- What is kept of the received numbers are the last ones. -/
theorem trimReceived_receivedPackets (ch : Channel) (limit : ℕ) :
    (ch.trimReceived limit).receivedPackets =
      ch.receivedPackets.drop (ch.receivedPackets.length - limit) := by
  unfold trimReceived
  dsimp only
  split
  · rfl
  · rename_i hlength
    rw [Nat.sub_eq_zero_of_le (Nat.le_of_not_lt hlength), List.drop_zero]

@[simp] theorem accept_sendPackets (ch : Channel) (seqNum : UInt16) :
    (ch.accept seqNum).sendPackets = ch.sendPackets := by
  unfold accept
  dsimp only
  split <;> rfl

@[simp] theorem accept_localSequenceNumberLarge (ch : Channel) (seqNum : UInt16) :
    (ch.accept seqNum).localSequenceNumberLarge = ch.localSequenceNumberLarge := by
  unfold accept
  dsimp only
  split <;> rfl

@[simp] theorem accept_localSequenceNumberSmall (ch : Channel) (seqNum : UInt16) :
    (ch.accept seqNum).localSequenceNumberSmall = ch.localSequenceNumberSmall := by
  unfold accept
  dsimp only
  split <;> rfl

end Channel

end RocketGame.Channels
