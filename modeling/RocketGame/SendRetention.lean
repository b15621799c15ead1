import RocketGame.AckBits
import RocketGame.GameMessages

/-!
Which sent packets the client keeps when it handles a game state. The number to
remove is the length less the limit, as an unsigned number: a shorter list makes
it wrap, and then every entry is removed.
-/
namespace RocketGame.SendRetention

open AckBits Client GameMessages NetworkUtilities Packets

def excess (sendPackets : List PacketInfo) : ℕ := sendPackets.length - maxSendPacketsStored

def unacknowledged (pi : PacketInfo) : Bool := !pi.acknowledged

/-- The marks are those of VerifyAck for the acknowledgment of the packet, the oldest
entries beyond the limit go, and the unacknowledged ones among them are counted as lost. -/
structure RetainsNewest (env : Env) (c : State) (p : NetworkPacket) (o : Outcome) : Prop where
  marked : ∃ h p', readHeader p = some (h, p') ∧ o.verified =
    verifyAck env.clock c.sendPackets (c.toChannel.ackedSequenceNumber h.ack) h.ackBits
  kept : o.state.sendPackets = o.verified.drop (excess c.sendPackets)
  lost : o.packetLoss = (o.verified.take (excess c.sendPackets)).countP unacknowledged

section Trim

theorem visit_of_zero {t : SendTrim} (h : t.packetsToRemove = 0) (pi : PacketInfo) :
    t.visit pi = { t with kept := t.kept ++ [pi] } := by
  have hnot : ¬ t.packetsToRemove > 0 := by
    rw [h]
    decide
  rw [SendTrim.visit, if_neg hnot]

theorem visit_of_pos {t : SendTrim} (h : 0 < t.packetsToRemove) (pi : PacketInfo) :
    (t.visit pi).packetsToRemove = t.packetsToRemove - 1 ∧ (t.visit pi).kept = t.kept ∧
      (t.visit pi).packetLoss = t.packetLoss + [pi].countP unacknowledged := by
  rw [SendTrim.visit, if_pos h, List.countP_singleton, unacknowledged]
  cases pi.acknowledged <;> exact ⟨rfl, rfl, rfl⟩

/-- The counter removes that many entries from the front. -/
theorem foldl_visit (sendPackets : List PacketInfo) (t : SendTrim) :
    (sendPackets.foldl SendTrim.visit t).kept =
        t.kept ++ sendPackets.drop t.packetsToRemove.toNat ∧
      (sendPackets.foldl SendTrim.visit t).packetLoss =
        t.packetLoss + (sendPackets.take t.packetsToRemove.toNat).countP unacknowledged := by
  induction sendPackets generalizing t with
  | nil => simp
  | cons pi rest ih =>
    rw [List.foldl_cons, (ih _).1, (ih _).2]
    by_cases hzero : t.packetsToRemove = 0
    · rw [visit_of_zero hzero, hzero]
      simp
    · have hpos : 0 < t.packetsToRemove := UInt64.pos_iff_ne_zero.mpr hzero
      obtain ⟨hcount, hkept, hloss⟩ := visit_of_pos hpos pi
      have hnat : 0 < t.packetsToRemove.toNat := UInt64.lt_iff_toNat_lt.mp hpos
      obtain ⟨r, hr⟩ := Nat.exists_eq_succ_of_ne_zero (Nat.pos_iff_ne_zero.mp hnat)
      have hprev : (t.packetsToRemove - 1).toNat = r := by
        rw [toNat_sub_one hnat, hr]
        rfl
      rw [hcount, hkept, hloss, hprev, hr]
      have hhead : pi :: rest.take r = [pi] ++ rest.take r := rfl
      refine ⟨rfl, ?_⟩
      rw [List.take_succ_cons, hhead, List.countP_append, Nat.add_assoc]

/-- The unsigned difference: the excess, or a number above every length. -/
def packetsToRemove (sendPackets : List PacketInfo) : ℕ :=
  (UInt64.ofNat sendPackets.length - UInt64.ofNat maxSendPacketsStored).toNat

theorem trimSendPackets_kept (sendPackets : List PacketInfo) :
    (trimSendPackets sendPackets).kept = sendPackets.drop (packetsToRemove sendPackets) := by
  rw [trimSendPackets, (foldl_visit sendPackets _).1, List.nil_append, packetsToRemove]

theorem trimSendPackets_packetLoss (sendPackets : List PacketInfo) :
    (trimSendPackets sendPackets).packetLoss =
      (sendPackets.take (packetsToRemove sendPackets)).countP unacknowledged := by
  rw [trimSendPackets, (foldl_visit sendPackets _).2, Nat.zero_add, packetsToRemove]

theorem packetsToRemove_of_le {sendPackets : List PacketInfo}
    (hsize : sendPackets.length < 2 ^ 64) (h : maxSendPacketsStored ≤ sendPackets.length) :
    packetsToRemove sendPackets = excess sendPackets := by
  have hmax : maxSendPacketsStored = 33 := rfl
  rw [packetsToRemove, UInt64.toNat_sub, UInt64.toNat_ofNat', UInt64.toNat_ofNat', excess]
  omega

theorem le_packetsToRemove_of_lt {sendPackets : List PacketInfo}
    (h : sendPackets.length < maxSendPacketsStored) :
    sendPackets.length ≤ packetsToRemove sendPackets := by
  have hmax : maxSendPacketsStored = 33 := rfl
  rw [packetsToRemove, UInt64.toNat_sub, UInt64.toNat_ofNat', UInt64.toNat_ofNat']
  omega

theorem keptSendPackets_of_le {sendPackets : List PacketInfo}
    (hsize : sendPackets.length < 2 ^ 64) (h : maxSendPacketsStored ≤ sendPackets.length) :
    keptSendPackets sendPackets = sendPackets.drop (excess sendPackets) := by
  have hkept : (trimSendPackets sendPackets).kept = sendPackets.drop (excess sendPackets) := by
    rw [trimSendPackets_kept, packetsToRemove_of_le hsize h]
  have hlen : (sendPackets.drop (excess sendPackets)).length = maxSendPacketsStored := by
    rw [List.length_drop, excess]
    omega
  rw [keptSendPackets, hkept, if_neg (by omega)]

/-- A list shorter than the limit is emptied. -/
theorem keptSendPackets_of_lt {sendPackets : List PacketInfo}
    (h : sendPackets.length < maxSendPacketsStored) : keptSendPackets sendPackets = [] := by
  have hkept : (trimSendPackets sendPackets).kept = [] := by
    rw [trimSendPackets_kept, List.drop_of_length_le (le_packetsToRemove_of_lt h)]
  rw [keptSendPackets, hkept]
  rfl

end Trim

section Handling

variable {env : Env} {c : State} {p : NetworkPacket} {o : Outcome}

/-- An accepted game state is verified and then trimmed. -/
theorem accepted_cases (ho : handleGameState env c p = some o) (hresult : o.result = 1) :
    (∃ h p', readHeader p = some (h, p') ∧ o.verified =
        verifyAck env.clock c.sendPackets (c.toChannel.ackedSequenceNumber h.ack) h.ackBits) ∧
      o.state.sendPackets = keptSendPackets o.verified ∧
      o.packetLoss = (trimSendPackets o.verified).packetLoss := by
  rcases client_handleGameState_cases ho with
    ⟨_, hignored, _⟩ | ⟨header, p', hheader, _, hchannel, hverified, hlost⟩
  · rw [hresult] at hignored
    cases hignored
  · refine ⟨⟨header, p', hheader, ?_⟩, ?_, hlost⟩
    · -- accept leaves the local numbers and the send list alone
      rw [hverified, receive, Channels.Channel.verify, Channels.Channel.ackedSequenceNumber,
        Channels.Channel.accept_sendPackets, Channels.Channel.accept_localSequenceNumberLarge,
        Channels.Channel.accept_localSequenceNumberSmall]
      rfl
    · rw [hchannel, hverified]
      rfl

/-- The newest 33 entries stay exactly when there is nothing to remove too much of:
no entry at all, or at least 33. -/
theorem retainsNewest_iff (ho : handleGameState env c p = some o) (hresult : o.result = 1)
    (hsize : c.sendPackets.length < 2 ^ 64) :
    RetainsNewest env c p o ↔
      c.sendPackets = [] ∨ maxSendPacketsStored ≤ c.sendPackets.length := by
  obtain ⟨hmarked, hkept, hlost⟩ := accepted_cases ho hresult
  have hlen : o.verified.length = c.sendPackets.length := by
    obtain ⟨h, _, -, hverified⟩ := hmarked
    have hnumbers := congrArg List.length (map_seqNum_verifyAck env.clock c.sendPackets
      (c.toChannel.ackedSequenceNumber h.ack) h.ackBits)
    rwa [← hverified, List.length_map, List.length_map] at hnumbers
  have hexcess : excess o.verified = excess c.sendPackets := by rw [excess, hlen, excess]
  constructor
  · intro h
    by_contra hnot
    obtain ⟨hne, hlt⟩ := not_or.mp hnot
    have hshort : o.verified.length < maxSendPacketsStored := by omega
    have hall := h.kept
    rw [hkept, keptSendPackets_of_lt hshort, excess, Nat.sub_eq_zero_of_le (by omega),
      List.drop_zero] at hall
    rw [← hall, List.length_nil] at hlen
    exact hne (List.length_eq_zero_iff.mp hlen.symm)
  · rintro (hempty | hle)
    · have hnil : o.verified = [] := by
        rw [← List.length_eq_zero_iff, hlen, hempty, List.length_nil]
      refine ⟨hmarked, ?_, ?_⟩
      · rw [hkept, hnil, List.drop_nil]
        rfl
      · rw [hlost, trimSendPackets_packetLoss, hnil, List.take_nil, List.take_nil]
    · have hle' : maxSendPacketsStored ≤ o.verified.length := by rwa [hlen]
      have hsize' : o.verified.length < 2 ^ 64 := by rwa [hlen]
      refine ⟨hmarked, ?_, ?_⟩
      · rw [hkept, keptSendPackets_of_le hsize' hle', hexcess]
      · rw [hlost, trimSendPackets_packetLoss, packetsToRemove_of_le hsize' hle', hexcess]

end Handling

section Witness

def manySent : State :=
  { serverAddr := ⟨2, 9, 3501⟩, connectionSalt := 7, localSequenceNumberLarge := 35,
    localSequenceNumberSmall := 35,
    sendPackets := (List.range' 1 35).map fun n => { seqNum := UInt64.ofNat n } }

def lastFour : NetworkPacket :=
  (NetworkPacket.ofBytes (gameMessage .gameState ⟨7, 1, 35, 0xE0000000⟩ (tableBytes []))).advance 5

/-- Four entries are marked, and the two oldest are counted as lost. -/
theorem retainsNewest_iff_manySent : ∃ o, handleGameState {} manySent lastFour = some o ∧
    (o.verified.countP PacketInfo.acknowledged, o.state.sendPackets.length, o.packetLoss) =
      (4, 33, 2) ∧
    (RetainsNewest {} manySent lastFour o ↔
      manySent.sendPackets = [] ∨ maxSendPacketsStored ≤ manySent.sendPackets.length) := by
  have hrun : (handleGameState {} manySent lastFour).map (fun o => (o.result,
      o.verified.countP PacketInfo.acknowledged, o.state.sendPackets.length, o.packetLoss)) =
        some (1, 4, 33, 2) := by decide +kernel
  obtain ⟨o, ho, hvalues⟩ := Option.map_eq_some_iff.mp hrun
  obtain ⟨hresult, hcounts⟩ := Prod.mk.inj hvalues
  exact ⟨o, ho, hcounts, retainsNewest_iff ho hresult (by decide)⟩

end Witness

def oneSent : State :=
  { serverAddr := ⟨2, 9, 3501⟩, connectionSalt := 7, sendPackets := [{ seqNum := 1 }],
    localSequenceNumberLarge := 1, localSequenceNumberSmall := 1 }

def reply : NetworkPacket :=
  (NetworkPacket.ofBytes (gameMessage .gameState ⟨7, 1, 0, 0⟩ (tableBytes []))).advance 5

theorem handleGameState_oneSent : (handleGameState {} oneSent reply).map
    (fun o => (o.result, o.verified, o.state.sendPackets)) = some (1, [{ seqNum := 1 }], []) := by
  decide +kernel

/-- The one packet is removed, although nothing is beyond the limit. -/
theorem single_packet_is_removed :
    ¬ ∀ (env : Env) (c : State) (p : NetworkPacket) (o : Outcome),
      handleGameState env c p = some o → o.result = 1 → c.sendPackets.length < 2 ^ 64 →
        RetainsNewest env c p o := by
  intro h
  obtain ⟨o, ho, hvalues⟩ := Option.map_eq_some_iff.mp handleGameState_oneSent
  obtain ⟨hresult, hvalues⟩ := Prod.mk.inj hvalues
  obtain ⟨hverified, hkept⟩ := Prod.mk.inj hvalues
  have hretained := (h {} oneSent reply o ho hresult (by decide)).kept
  rw [hkept, hverified] at hretained
  exact absurd hretained (by decide)

end RocketGame.SendRetention
