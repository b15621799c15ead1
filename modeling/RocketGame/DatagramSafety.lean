import RocketGame.PlayerTable

/-!
Which datagrams the server can read to the end of their handler. Only the two
handshake messages have their size checked; every other type reads as many
bytes as its handler asks for, so a valid CRC on a short datagram leads to a
read past the received bytes.
-/
namespace RocketGame.DatagramSafety

open BigEndian FirstMatch NetworkUtilities Packets PlayerTable Server
open NetworkPacket

def typeField (data : Datagram) : Option NetworkPacketType :=
  data[4]?.bind fun b => NetworkPacketType.ofInt8 b.toInt8

def saltField (data : Datagram) : UInt64 := UInt64.ofNat (decode ((data.drop 5).take 8))

/-- The number of leading bytes the turn reads: the type, then the fields of the
handler. Both handshake messages are rejected before any read unless they have
1000 bytes; the game state is read to its end when a record authenticates it. -/
def bytesRead (s : State) (data : Datagram) (addr : Address) : ℕ :=
  match typeField data with
  | some .connectionRequest => if data.length = 1000 then 13 else 5
  | some .challengeResponse => if data.length = 1000 then 13 else 5
  | some .clock => 21
  | some .gameState => if s.players.any (authenticates (saltField data) addr) then 51 else 13
  | some .disconnect => 13
  | _ => 5

section Handlers

variable {env : Env} {s : State} {addr : Address} {p : NetworkPacket}

theorem handleConnectionRequest_isSome (h0 : p.offset ≤ p.size) :
    (handleConnectionRequest env s p addr).isSome = true ↔ p.offset + 8 ≤ p.size := by
  refine (reads_readUInt64.isSome_bind (P := True) h0 fun _ _ => ?_).trans (and_iff_left trivial)
  simp

theorem handleChallengeResponse_isSome (h0 : p.offset ≤ p.size) :
    (handleChallengeResponse env s p addr).isSome = true ↔ p.offset + 8 ≤ p.size := by
  refine (reads_readUInt64.isSome_bind (P := True) h0 fun _ salt => ?_).trans
    (and_iff_left trivial)
  dsimp only
  split
  · simp
  · split <;> simp

theorem handleDisconnect_isSome (h0 : p.offset ≤ p.size) :
    (handleDisconnect env s p addr).isSome = true ↔ p.offset + 8 ≤ p.size := by
  refine (reads_readUInt64.isSome_bind (P := True) h0 fun _ _ => ?_).trans (and_iff_left trivial)
  simp

theorem handleClockSync_isSome (h0 : p.offset ≤ p.size) :
    (handleClockSync env s p addr).isSome = true ↔ p.offset + 16 ≤ p.size := by
  refine (reads_readUInt64.isSome_bind (P := p.offset + 16 ≤ p.size) h0
    fun hfits salt => ?_).trans (by omega)
  refine (reads_readUInt64.isSome_bind (P := True) hfits fun _ clientTime => ?_).trans ?_
  · dsimp only
    split <;> simp
  · simp only [offset_advance, size_advance, and_true, Nat.add_assoc]

/-- The header and the player state are read only once a record is found. -/
theorem handleGameState_isSome {salt : UInt64}
    (hsalt : p.readUInt64 = some (salt, p.advance 8)) (hfits : p.offset + 8 ≤ p.size) :
    (handleGameState env s p addr).isSome = true ↔
      (s.players.any (authenticates salt addr) = true → p.offset + 46 ≤ p.size) := by
  simp only [handleGameState, hsalt, Option.bind_eq_bind, Option.bind_some]
  split
  · rename_i hlocate
    have hnone : s.players.any (authenticates salt addr) = false :=
      List.any_eq_false.mpr fun x hx => by simp [locate_eq_none.mp hlocate x hx]
    simp [hnone]
  · rename_i before player after hlocate
    obtain ⟨hplayers, hauth, _⟩ := locate_eq_some.mp hlocate
    have hany : s.players.any (authenticates salt addr) = true :=
      List.any_eq_true.mpr ⟨player, by simp [hplayers], hauth⟩
    simp only [hany, true_implies]
    refine (reads_readInt16.isSome_bind (P := p.offset + 46 ≤ p.size) hfits
      fun hseq seqNum => ?_).trans (by simp only [offset_advance, size_advance] at *; omega)
    refine (reads_readInt16.isSome_bind (P := p.offset + 46 ≤ p.size) hseq
      fun hack ack => ?_).trans (by simp only [offset_advance, size_advance] at *; omega)
    refine (reads_readInt32.isSome_bind (P := p.offset + 46 ≤ p.size) hack
      fun hbits ackBits => ?_).trans (by simp only [offset_advance, size_advance] at *; omega)
    refine (reads_deserializePlayerState.isSome_bind (P := True) hbits
      fun _ playerState => ?_).trans (by simp only [offset_advance, size_advance, and_true])
    simp

end Handlers

/-- A byte is read where it stands in the datagram. -/
theorem readInt8_getElem {data : Datagram} {n : ℕ} (h : n < data.length) :
    ((ofBytes data).advance n).readInt8 =
      some (data[n].toInt8, (ofBytes data).advance (n + 1)) := by
  have hunread : ((ofBytes data).advance n).unread =
      data[n].toInt8.toUInt8 :: data.drop (n + 1) := by
    rw [unread_advance, unread_ofBytes, UInt8.toUInt8_toInt8, List.drop_eq_getElem_cons h]
  rw [readInt8_of_unread hunread, advance_advance]

theorem readNetworkPacketType_typeField {data : Datagram} (h : 4 < data.length) :
    ((ofBytes data).advance 4).readNetworkPacketType =
      some (typeField data, (ofBytes data).advance 5) := by
  rw [readNetworkPacketType, readInt8_getElem h, Option.map_some, typeField,
    List.getElem?_eq_getElem h]
  rfl

/-- A type that was read is the field at its place. -/
theorem typeField_of_read {data : Datagram} {packetType : Option NetworkPacketType}
    {p' : NetworkPacket} (hfour : 4 ≤ data.length)
    (h : ((ofBytes data).advance 4).readNetworkPacketType = some (packetType, p')) :
    typeField data = packetType := by
  have hfive : 4 < data.length := (reads_readNetworkPacketType.eq_advance hfour h).1
  rw [readNetworkPacketType_typeField hfive, Option.some.injEq, Prod.mk.injEq] at h
  exact h.1

theorem typeField_sealed (t : NetworkPacketType) (rest : List UInt8) :
    typeField (sealed (t.toInt8.toUInt8 :: rest)) = some t := by
  refine typeField_of_read ?_ (readNetworkPacketType_of_unread (unread_sealed _))
  rw [length_sealed]
  omega

theorem readUInt64_saltField {data : Datagram} (h : 13 ≤ data.length) :
    ((ofBytes data).advance 5).readUInt64 = some (saltField data, (ofBytes data).advance 13) := by
  have hfits : ((ofBytes data).advance 5).offset + 8 ≤ ((ofBytes data).advance 5).size := h
  rw [readUInt64, NetworkPacket.read, if_pos hfits]
  rfl

theorem length_of_carries {data : Datagram} {t : NetworkPacketType} {salt : UInt64}
    (h : Carries data t salt) : 13 ≤ data.length := by
  have hfour := (NetworkPacket.reads_readAndValidateCRC.eq_advance (Nat.zero_le _) h.crc).1
  have hfive := (NetworkPacket.reads_readNetworkPacketType.eq_advance hfour h.type).1
  exact (NetworkPacket.reads_readUInt64.eq_advance hfive h.salt).1

/-- The type and the salt that were read are the fields at their places. -/
theorem typeField_of_carries {data : Datagram} {t : NetworkPacketType} {salt : UInt64}
    (h : Carries data t salt) : typeField data = some t := by
  have hlong := length_of_carries h
  exact typeField_of_read (by omega) h.type

theorem saltField_of_carries {data : Datagram} {t : NetworkPacketType} {salt : UInt64}
    (h : Carries data t salt) : saltField data = salt := by
  have hread := (readUInt64_saltField (length_of_carries h)).symm.trans h.salt
  rw [Option.some.injEq, Prod.mk.injEq] at hread
  exact hread.1

theorem dispatch_isSome_iff (env : Env) (s : State) {data : Datagram} (addr : Address)
    (h5 : 4 < data.length) :
    (dispatch env s (typeField data) ((ofBytes data).advance 5) addr).isSome = true ↔
      bytesRead s data addr ≤ data.length := by
  have h0 : ((ofBytes data).advance 5).offset ≤ ((ofBytes data).advance 5).size := h5
  have hsize : ((ofBytes data).advance 5).size = data.length := rfl
  have hoffset : ((ofBytes data).advance 5).offset = 5 := rfl
  unfold dispatch bytesRead
  cases typeField data with
  | none => exact iff_of_true rfl h5
  | some t =>
    cases t with
    | connectionRequest =>
      by_cases h1000 : data.length = 1000
      · simp only [hsize, h1000, ne_eq, not_true_eq_false, if_false, if_true]
        rw [handleConnectionRequest_isSome h0, hsize, hoffset]
        omega
      · simp [h1000]
        omega
    | challengeResponse =>
      by_cases h1000 : data.length = 1000
      · simp only [hsize, h1000, ne_eq, not_true_eq_false, if_false, if_true]
        rw [handleChallengeResponse_isSome h0, hsize, hoffset]
        omega
      · simp [h1000]
        omega
    | clock =>
      dsimp only
      rw [handleClockSync_isSome h0, hsize, hoffset]
    | gameState =>
      dsimp only
      by_cases h13 : 13 ≤ data.length
      · rw [handleGameState_isSome (readUInt64_saltField h13) h13, hsize, hoffset]
        split <;> simp_all
      · have hfail : ((ofBytes data).advance 5).readUInt64 = none :=
          reads_readUInt64.fails _ h0 (by omega)
        simp only [handleGameState, hfail, Option.bind_eq_bind, Option.bind_none,
          Option.isSome_none, Bool.false_eq_true, false_iff]
        split <;> omega
    | disconnect =>
      dsimp only
      rw [handleDisconnect_isSome h0, hsize, hoffset]
    | _ => exact iff_of_true rfl h5

def ValidCRC (data : Datagram) : Prop :=
  (ofBytes data).readAndValidateCRC = some (0, (ofBytes data).advance 4)

instance (data : Datagram) : Decidable (ValidCRC data) := inferInstanceAs (Decidable (_ = _))

theorem ValidCRC.four_le {data : Datagram} (h : ValidCRC data) : 4 ≤ data.length :=
  (reads_readAndValidateCRC.eq_advance (Nat.zero_le _) h).1

/-- What every receiver starts with: the CRC, then the type, then the rest of its reads. -/
theorem isSome_message {β : Type} {data : Datagram} {n : ℕ} {reject : β}
    {k : Option NetworkPacketType × NetworkPacket → Option β} (hn : 5 ≤ n)
    (hk : 4 < data.length →
      ((k (typeField data, (ofBytes data).advance 5)).isSome = true ↔ n ≤ data.length)) :
    ((ofBytes data).readAndValidateCRC.bind fun crc =>
      if crc.1 ≠ 0 then some reject
      else crc.2.readNetworkPacketType.bind k).isSome = true ↔
      (if ¬ ValidCRC data then 4 else n) ≤ data.length := by
  by_cases h4 : 4 ≤ data.length
  · obtain ⟨invalid, hcrc⟩ := reads_readAndValidateCRC.fits (ofBytes data) h4
    have hvalid : ValidCRC data ↔ invalid = 0 := by
      rw [ValidCRC, hcrc, Option.some.injEq, Prod.mk.injEq]
      exact and_iff_left rfl
    rw [hcrc, Option.bind_some]
    by_cases hzero : invalid = 0
    · rw [if_neg (not_not.mpr hzero), if_neg (not_not.mpr (hvalid.mpr hzero))]
      by_cases h5 : 4 < data.length
      · rw [readNetworkPacketType_typeField h5, Option.bind_some, hk h5]
      · have hfail := reads_readNetworkPacketType.fails_at h4 (by omega)
        rw [hfail, Option.bind_none]
        apply iff_of_false (by simp)
        omega
    · rw [if_pos hzero, if_pos (mt hvalid.mp hzero)]
      exact iff_of_true rfl h4
  · have hfail : (ofBytes data).readAndValidateCRC = none :=
      reads_readAndValidateCRC.fails_at (Nat.zero_le _) (by omega)
    have hinvalid : ¬ ValidCRC data := by
      rw [ValidCRC, hfail]
      intro h
      cases h
    rw [hfail, Option.bind_none, if_pos hinvalid]
    exact iff_of_false (by simp) h4

/-- A receiver that waits for a type rejects a datagram, or that is a valid one of the
type from the address it expects, and the rest of the reads begins after the type. -/
theorem expected_cases {β : Type} {serverAddr sender : Address} {data : Datagram}
    {t : NetworkPacketType} {reject b : β}
    {k : Option NetworkPacketType × NetworkPacket → Option β}
    (h : (if !isSameAddress sender serverAddr then some reject
      else (ofBytes data).readAndValidateCRC.bind fun crc =>
        if crc.1 ≠ 0 then some reject
        else crc.2.readNetworkPacketType.bind fun packetType =>
          if packetType.1 ≠ some t then some reject else k packetType) = some b) :
    b = reject ∨ (sender = serverAddr ∧ ValidCRC data ∧ typeField data = some t) ∧
      k (some t, (ofBytes data).advance 5) = some b := by
  split at h
  · exact Or.inl (Option.some.inj h).symm
  rename_i hsender
  rw [Bool.not_eq_true, Bool.not_eq_false', isSameAddress_iff] at hsender
  obtain ⟨⟨invalid, p⟩, hcrc, h⟩ := Option.bind_eq_some_iff.mp h
  obtain ⟨hfour, rfl⟩ := reads_readAndValidateCRC.eq_advance (Nat.zero_le _) hcrc
  dsimp only at h
  split at h
  · exact Or.inl (Option.some.inj h).symm
  rename_i hzero
  rw [not_not.mp hzero] at hcrc
  obtain ⟨⟨packetType, p⟩, htype, h⟩ := Option.bind_eq_some_iff.mp h
  obtain ⟨-, rfl⟩ := reads_readNetworkPacketType.eq_advance hfour htype
  dsimp only at h
  split at h
  · exact Or.inl (Option.some.inj h).symm
  rename_i hexpected
  obtain rfl := not_not.mp hexpected
  exact Or.inr ⟨⟨hsender, hcrc, typeField_of_read hfour htype⟩, h⟩

/-- The datagram fails the CRC check, or is as long as the fields its handler reads. -/
def LongEnough (s : State) (data : Datagram) (addr : Address) : Prop :=
  (ofBytes data).readAndValidateCRC = some (0, (ofBytes data).advance 4) →
    bytesRead s data addr ≤ data.length

theorem five_le_bytesRead (s : State) (data : Datagram) (addr : Address) :
    5 ≤ bytesRead s data addr := by
  unfold bytesRead
  split
  · split <;> omega
  · split <;> omega
  · omega
  · split <;> omega
  · omega
  · omega

/-- A turn returns exactly for the datagrams that are long enough. -/
theorem isSome_iff_longEnough (env : Env) (s : State) (data : Datagram) (addr : Address) :
    (executeGameTurn env s data addr).isSome = true ↔ LongEnough s data addr := by
  change _ ↔ (ValidCRC data → bytesRead s data addr ≤ data.length)
  unfold executeGameTurn
  by_cases hsize : data.length < Crc32.crcSize
  · have hshort : ¬ ValidCRC data := fun hcrc => absurd hcrc.four_le (Nat.not_le.mpr hsize)
    simp only [size_ofBytes, hsize, if_true, Option.pure_def, Option.isSome_some, hshort,
      false_implies]
  · simp only [size_ofBytes, hsize, if_false]
    refine (isSome_message (five_le_bytesRead s data addr) fun h5 =>
      dispatch_isSome_iff env s addr h5).trans ?_
    by_cases hcrc : ValidCRC data
    · rw [if_neg (not_not.mpr hcrc), forall_prop_of_true hcrc]
    · rw [if_pos hcrc]
      exact iff_of_true (Nat.le_of_not_lt hsize) fun h => absurd h hcrc

/-- A datagram that passes the CRC check is handled without a read past its end
exactly when it is as long as the fields its handler reads. -/
theorem executeGameTurn_isSome_iff (env : Env) (s : State) (data : Datagram) (addr : Address)
    (hcrc : (ofBytes data).readAndValidateCRC = some (0, (ofBytes data).advance 4)) :
    (executeGameTurn env s data addr).isSome = true ↔ bytesRead s data addr ≤ data.length := by
  rw [isSome_iff_longEnough, LongEnough, forall_prop_of_true hcrc]

/-- The smallest DISCONNECT message the server reads to its end. -/
theorem executeGameTurn_isSome_iff_disconnect :
    let data := sealed (NetworkPacketType.disconnect.toInt8.toUInt8 :: (bytes64 7 ++ []))
    (executeGameTurn {} {} data ⟨2, 1, 1⟩).isSome = true ↔
      bytesRead {} data ⟨2, 1, 1⟩ ≤ data.length :=
  executeGameTurn_isSome_iff _ _ _ _ (readAndValidateCRC_sealed _)

/-- A GAME_STATE message that ends after its type makes HandleGameState read on. -/
theorem executeGameTurn_reads_past_end :
    ¬ ∀ (env : Env) (s : State) (data : Datagram) (addr : Address),
      1 ≤ data.length → data.length ≤ 1024 →
      (ofBytes data).readAndValidateCRC = some (0, (ofBytes data).advance 4) →
      (executeGameTurn env s data addr).isSome = true := by
  intro h
  let data := sealed [NetworkPacketType.gameState.toInt8.toUInt8]
  have hsome := h {} {} data ⟨2, 1, 1⟩ (by simp [data]) (by simp [data])
    (readAndValidateCRC_sealed _)
  have htype := readNetworkPacketType_of_unread
    (unread_sealed [NetworkPacketType.gameState.toInt8.toUInt8])
  have hfail : ((ofBytes data).advance 5).readUInt64 = none :=
    reads_readUInt64.fails _ (by simp [data]) (by simp [data])
  rw [executeGameTurn_of_crc (readAndValidateCRC_sealed _) htype] at hsome
  simp only [dispatch, handleGameState, data, hfail, Option.bind_eq_bind, Option.bind_none,
    Option.isSome_none, Bool.false_eq_true] at hsome

end RocketGame.DatagramSafety
