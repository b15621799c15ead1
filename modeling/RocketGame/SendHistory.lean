import RocketGame.AckCoverage
import RocketGame.ServerWindows

/-!
The send list of a player record over whole runs of the server. HandleGameState
erases what was acknowledged and nothing else, so the list stays bounded exactly as
long as every entry is acknowledged before it falls behind the 32 numbers that an
acknowledgment can reach. The client drops such entries, the server keeps them.
-/
namespace RocketGame.SendHistory

open AckCoverage Channels FirstMatch GameMessages HandshakeMessages NetworkUtilities Packets
open PlayerStates PlayerTable Runs Server ServerWindows Turns Windows Words

/-- The numbers VerifyAck marks for this acknowledgment: the number itself, and those of
the bits 31 to 1. -/
def Verified (ack : UInt64) (ackBits : UInt32) (n : UInt64) : Prop :=
  n = ack ∨ ∃ d, 1 ≤ d ∧ d ≤ 31 ∧ bitSet ackBits (32 - d) = true ∧ n = ack - UInt64.ofNat d

theorem verified_iff_named {ack n : UInt64} {ackBits : UInt32} :
    Verified ack ackBits n ↔ Named ackBits 32 true ack n := by
  rw [named_iff]
  constructor
  · rintro (h | ⟨d, hd, hd', hbit, h⟩)
    · exact Or.inl ⟨by decide, h, rfl⟩
    · exact Or.inr ⟨d, hd, by omega, hbit, h⟩
  · rintro (⟨-, h, -⟩ | ⟨d, hd, hd', hbit, h⟩)
    · exact Or.inl h
    · exact Or.inr ⟨d, hd, by omega, hbit, h⟩

def InReach (ch : Channel) : Prop :=
  ∀ pi ∈ ch.sendPackets, ch.localSequenceNumberLarge.toNat ≤ pi.seqNum.toNat + 31

/-- The message acknowledges every entry that the next number puts out of reach. -/
def AcknowledgesOldest (ch : Channel) (h : Header) : Prop :=
  ∀ pi ∈ ch.sendPackets, pi.seqNum.toNat + 31 ≤ ch.localSequenceNumberLarge.toNat →
    Verified (ch.ackedSequenceNumber h.ack) h.ackBits pi.seqNum

structure Sent (ch : Channel) : Prop where
  window : Window (ch.sendPackets.map PacketInfo.seqNum) ch.localSequenceNumberLarge
  unacknowledged : ∀ pi ∈ ch.sendPackets, pi.acknowledged = false

theorem sent_fresh : Sent {} := ⟨Window.nil _, by simp⟩

section Channel

variable {ch : Channel} {clock : Clock} {h : Header}

/-- Numbers of the list are not mistaken for numbers that wrap below zero. -/
theorem Sent.not_wrapped (hsent : Sent ch) (ack : UInt16) :
    ∀ pi ∈ ch.sendPackets,
      pi.seqNum.toNat + 32 ≤ (ch.ackedSequenceNumber ack).toNat + 2 ^ 64 := by
  intro pi hpi
  have hle := UInt64.le_iff_toNat_le.mp
    (hsent.window.le_newest pi.seqNum (List.mem_map_of_mem hpi))
  have hlt := ch.localSequenceNumberLarge.toNat_lt
  have hdiff := (sequenceNumberDiff ch.localSequenceNumberSmall ack).toNat_lt
  rw [Channel.ackedSequenceNumber, UInt64.toNat_sub, UInt16.toNat_toUInt64]
  omega

theorem sendPackets_serverReceive : (serverReceive clock ch h).sendPackets =
    (verifyAck clock ch.sendPackets (ch.ackedSequenceNumber h.ack) h.ackBits).filter
      fun pi => !pi.acknowledged := by
  have hacked : (ch.accept h.seqNum).ackedSequenceNumber h.ack = ch.ackedSequenceNumber h.ack := by
    simp [Channel.ackedSequenceNumber]
  change (verifyAck clock (ch.accept h.seqNum).sendPackets
    ((ch.accept h.seqNum).ackedSequenceNumber h.ack) h.ackBits).filter _ = _
  rw [hacked, Channel.accept_sendPackets]

/-- A message erases the entries whose numbers it acknowledges, and no others. -/
theorem mem_numbers_serverReceive (hsent : Sent ch) {n : UInt64} :
    n ∈ (serverReceive clock ch h).sendPackets.map PacketInfo.seqNum ↔
      n ∈ ch.sendPackets.map PacketInfo.seqNum ∧
        ¬ Verified (ch.ackedSequenceNumber h.ack) h.ackBits n := by
  have hloop := @forall₂_verifyAck _ _ h.ackBits clock hsent.window.increasing
    (hsent.not_wrapped h.ack)
  rw [sendPackets_serverReceive, List.mem_map, List.mem_map]
  constructor
  · rintro ⟨new, hnew, rfl⟩
    obtain ⟨hmem, hunmarked⟩ := List.mem_filter.mp hnew
    obtain ⟨i, hi, rfl⟩ := List.mem_iff_getElem.mp hmem
    have hold : i < ch.sendPackets.length := by rwa [hloop.length_eq]
    have hverified := hloop.get hold hi
    rw [List.get_eq_getElem, List.get_eq_getElem] at hverified
    refine ⟨⟨_, List.getElem_mem hold, hverified.seqNum.symm⟩, fun hnamed => ?_⟩
    rw [hverified.seqNum, verified_iff_named] at hnamed
    rw [hverified.acknowledged.mpr (Or.inr hnamed)] at hunmarked
    cases hunmarked
  · rintro ⟨⟨old, hold, rfl⟩, hnot⟩
    obtain ⟨i, hi, rfl⟩ := List.mem_iff_getElem.mp hold
    have hnew : i < (verifyAck clock ch.sendPackets (ch.ackedSequenceNumber h.ack)
        h.ackBits).length := by rwa [← hloop.length_eq]
    have hverified := hloop.get hi hnew
    rw [List.get_eq_getElem, List.get_eq_getElem] at hverified
    refine ⟨_, List.mem_filter.mpr ⟨List.getElem_mem hnew, ?_⟩, hverified.seqNum⟩
    rw [Bool.not_eq_true', ← Bool.not_eq_true, hverified.acknowledged,
      hsent.unacknowledged _ hold]
    rintro (hmarked | hnamed)
    · cases hmarked
    · exact hnot (verified_iff_named.mpr hnamed)

/-- A message keeps the list in reach exactly when it acknowledges the oldest entries. -/
theorem inReach_serverRecord_iff {player : Player} {keyboard : Keyboard}
    (hsent : Sent player.toChannel)
    (hroom : player.localSequenceNumberLarge.toNat + 1 < 2 ^ 64) :
    InReach (serverRecord clock player h keyboard).toChannel ↔
      AcknowledgesOldest player.toChannel h := by
  have hlocal : ((serverReceive clock player.toChannel h).localSequenceNumberLarge + 1).toNat =
      player.localSequenceNumberLarge.toNat + 1 := by
    rw [serverReceive_localSequenceNumberLarge, UInt64.toNat_add, UInt64.toNat_one]
    exact Nat.mod_eq_of_lt hroom
  constructor
  · intro hreach pi hpi hold
    by_contra hnot
    have hkept := (@mem_numbers_serverReceive _ clock _ hsent _).mpr
      ⟨List.mem_map_of_mem hpi, hnot⟩
    obtain ⟨new, hnew, hnumber⟩ := List.mem_map.mp hkept
    have hle := hreach new (List.mem_append_left _ hnew)
    have hle' : ((serverReceive clock player.toChannel h).localSequenceNumberLarge + 1).toNat ≤
        new.seqNum.toNat + 31 := hle
    rw [hlocal, hnumber] at hle'
    omega
  · intro holdest pi hpi
    change ((serverReceive clock player.toChannel h).localSequenceNumberLarge + 1).toNat ≤ _
    rcases List.mem_append.mp hpi with hkept | hnew
    · obtain ⟨hmem, hnot⟩ := (mem_numbers_serverReceive hsent).mp (List.mem_map_of_mem hkept)
      obtain ⟨old, hold, hnumber⟩ := List.mem_map.mp hmem
      rw [hlocal]
      by_contra hlt
      refine hnot ?_
      rw [← hnumber]
      exact holdest old hold (by rw [hnumber]; omega)
    · obtain rfl := List.mem_singleton.mp hnew
      exact Nat.le_add_right _ 31

theorem sent_serverRecord {player : Player} {keyboard : Keyboard} (hsent : Sent player.toChannel)
    (hroom : player.localSequenceNumberLarge.toNat + 1 < 2 ^ 64) :
    Sent (serverRecord clock player h keyboard).toChannel :=
  ⟨window_sendPackets_serverRecord hsent.window hroom, unacknowledged_serverRecord⟩

/-- Entries that are in reach are few. -/
theorem length_sendPackets_le (hsent : Sent ch) (hreach : InReach ch) :
    ch.sendPackets.length ≤ 32 := by
  have hlow : ∀ n ∈ (ch.sendPackets.map PacketInfo.seqNum).map UInt64.toNat,
      ch.localSequenceNumberLarge.toNat - 31 ≤ n := by
    rw [List.map_map, List.forall_mem_map]
    intro pi hpi
    have hle := hreach pi hpi
    exact Nat.sub_le_of_le_add hle
  have hhigh : ∀ n ∈ (ch.sendPackets.map PacketInfo.seqNum).map UInt64.toNat,
      n < ch.localSequenceNumberLarge.toNat - 31 + 32 := by
    rw [List.forall_mem_map]
    intro n hn
    have hle := UInt64.le_iff_toNat_le.mp (hsent.window.le_newest n hn)
    omega
  have hlength := length_le_of_increasing (pairwise_toNat hsent.window.increasing) hlow hhigh
  rwa [List.length_map, List.length_map] at hlength

end Channel

section Runs

variable {events : List Event}

/-- A message that is handled acknowledges the entries about to fall out of reach, and
the counter of its record does not overflow. -/
def KeepsUp (s : State) (e : Event) : Prop :=
  ∀ h before player after, Handled s e h before player after →
    player.localSequenceNumberLarge.toNat + 1 < 2 ^ 64 ∧ AcknowledgesOldest player.toChannel h

/-- In every run in which each message that is handled keeps up, no send list has more
than 32 entries, and none of them is out of reach. -/
theorem always_bounded (hC : Throughout step KeepsUp {} events) :
    Always step (fun s => ∀ p ∈ s.players, p.sendPackets.length ≤ 32 ∧ InReach p.toChannel) {}
      events := by
  have halways : Always step (fun s => ∀ p ∈ s.players, Sent p.toChannel ∧ InReach p.toChannel) {}
      events := by
    refine always_of_step (fun p hp => nomatch hp) (fun s e s' hs hkeeps hstep => ?_) hC
    obtain ⟨o, ho, rfl⟩ := Option.map_eq_some_iff.mp hstep
    refine @channels_of_turn _ _ _ (fun ch => Sent ch ∧ InReach ch) ⟨sent_fresh, by simp [InReach]⟩
      hs (fun h before player after keyboard hhandled hchannel => ?_) ho
    obtain ⟨hroom, holdest⟩ := hkeeps h before player after hhandled
    exact ⟨sent_serverRecord hchannel.1 hroom,
      (inReach_serverRecord_iff hchannel.1 hroom).mpr holdest⟩
  exact halways.mono fun s hs p hp => ⟨length_sendPackets_le (hs p hp).1 (hs p hp).2, (hs p hp).2⟩

/-- A request, and the first game message of the new record. -/
theorem always_bounded_first :
    let events : List Event :=
      [⟨{}, paddedMessage .connectionRequest 1, ⟨2, 1, 1⟩⟩,
        ⟨{}, gameMessage .gameState ⟨1, 1, 0, 0⟩ (playerStateBytes {}), ⟨2, 1, 1⟩⟩]
    Always step (fun s => ∀ p ∈ s.players, p.sendPackets.length ≤ 32 ∧ InReach p.toChannel) {}
      events := by
  refine always_bounded ⟨?_, fun s hs => ⟨?_, fun _ _ => True.intro⟩⟩
  · intro h before player after hh
    cases hh.located
  · have hrequest : step {} ⟨{}, paddedMessage .connectionRequest 1, ⟨2, 1, 1⟩⟩ =
        some ⟨[newPlayer {} [] 1 ⟨2, 1, 1⟩]⟩ :=
      step_paddedRequest _ _ _ _
    obtain rfl := Option.some.inj (hrequest.symm.trans hs)
    intro h before player after hh
    obtain rfl := List.mem_singleton.mp (mem_of_locate hh.located)
    exact ⟨by decide, fun pi hpi => nomatch hpi⟩

end Runs

section Growth

theorem carries_gameMessage (t : NetworkPacketType) (h : Header) (rest : List UInt8) :
    Carries (gameMessage t h rest) t h.connectionSalt := by
  rw [gameMessage, headerBytes, List.append_assoc]
  exact carries_sealed t h.connectionSalt _

/-- A game message with a player state, for a record that is there. -/
theorem step_gameMessage (env : Env) {s : State} {addr : Address} {h : Header}
    (playerState : PlayerState) {before after : List Player} {player : Player}
    (hlocate : locate (authenticates h.connectionSalt addr) s.players =
      some (before, player, after)) :
    step s ⟨env, gameMessage .gameState h (playerStateBytes playerState), addr⟩ =
      some ⟨before ++
        serverRecord env.clock player h (received playerState).keyboard :: after⟩ := by
  have hhandle := @server_handleGameState_eq env s _ _ _ addr h _ before after player
    (readHeader_gameMessage .gameState h (playerStateBytes playerState))
    (deserializePlayerState_gameMessage .gameState h playerState) hlocate
  rw [step, executeGameTurn_of_carries (carries_gameMessage .gameState h _)]
  exact congrArg (Option.map Outcome.state) hhandle

def oddEntries (ch : Channel) : ℕ :=
  (ch.sendPackets.map PacketInfo.seqNum).countP fun n => n.toNat % 2 = 1

def evenAck (n : ℕ) : Header where
  connectionSalt := 1
  seqNum := 0
  ack := smallSequenceNumber (UInt64.ofNat n) + UInt16.ofNat (n % 2)
  ackBits := 0

def client : Address := ⟨2, 1, 1⟩

structure Leaks (n : ℕ) (player : Player) : Prop where
  salt : player.connectionSalt = 1
  address : player.address = client
  large : player.localSequenceNumberLarge = UInt64.ofNat n
  small : player.localSequenceNumberSmall = smallSequenceNumber (UInt64.ofNat n)
  unacknowledged : ∀ pi ∈ player.sendPackets, pi.acknowledged = false
  odd : n ≤ 2 * oddEntries player.toChannel

theorem Leaks.ackedSequenceNumber {n : ℕ} {player : Player} (h : Leaks n player) :
    (player.ackedSequenceNumber (evenAck n).ack).toNat % 2 = 0 := by
  have hsmall := toNat_smallSequenceNumber (UInt64.ofNat n)
  have hone : (UInt16.ofNat (n % 2)).toNat = n % 2 := by
    rw [UInt16.toNat_ofNat']
    omega
  have hdiff : (sequenceNumberDiff (smallSequenceNumber (UInt64.ofNat n))
      (smallSequenceNumber (UInt64.ofNat n) + UInt16.ofNat (n % 2))).toNat = n % 2 := by
    rw [toNat_sequenceNumberDiff, UInt16.toNat_add, hone]
    split <;> omega
  rw [Channel.ackedSequenceNumber, h.large, h.small, UInt64.toNat_sub, UInt16.toNat_toUInt64]
  change (2 ^ 64 - (sequenceNumberDiff _ (smallSequenceNumber _ + UInt16.ofNat (n % 2))).toNat +
    _) % 2 ^ 64 % 2 = 0
  rw [hdiff, UInt64.toNat_ofNat']
  omega

/-- Whatever the message erases has an even number. -/
theorem Leaks.oddEntries_serverReceive {n : ℕ} {player : Player} (h : Leaks n player)
    (clock : Clock) : oddEntries (serverReceive clock player.toChannel (evenAck n)) =
      oddEntries player.toChannel := by
  have hkept : ∀ pi ∈ verifyAck clock player.sendPackets
      (player.ackedSequenceNumber (evenAck n).ack) (evenAck n).ackBits,
      pi.seqNum.toNat % 2 = 1 → pi.acknowledged = false := by
    intro pi hpi hodd
    by_contra hmarked
    rcases verifyAck_sound hpi (by simpa using hmarked) with
      ⟨old, hold, -, hold'⟩ | heq | ⟨d, hd, hd', hbit, -⟩
    · rw [h.unacknowledged old hold] at hold'
      cases hold'
    · have heven := h.ackedSequenceNumber
      rw [← heq] at heven
      omega
    · rw [show (evenAck n).ackBits = 0 from rfl, bitSet_zero (by omega)] at hbit
      cases hbit
  unfold oddEntries
  rw [sendPackets_serverReceive, List.countP_map, List.countP_filter]
  have hsame : ∀ pi ∈ verifyAck clock player.sendPackets
      (player.ackedSequenceNumber (evenAck n).ack) (evenAck n).ackBits,
      (((fun n : UInt64 => decide (n.toNat % 2 = 1)) ∘ PacketInfo.seqNum) pi &&
        !pi.acknowledged) = true ↔
      ((fun n : UInt64 => decide (n.toNat % 2 = 1)) ∘ PacketInfo.seqNum) pi = true := by
    intro pi hpi
    rw [Bool.and_eq_true, Function.comp_apply, decide_eq_true_eq, Bool.not_eq_true']
    exact and_iff_left_of_imp (hkept pi hpi)
  rw [List.countP_congr hsame, ← List.countP_map, map_seqNum_verifyAck]

/-- A message sent under an odd number adds an entry that stays. -/
theorem Leaks.serverRecord {n : ℕ} {player : Player} (h : Leaks n player) (clock : Clock)
    (keyboard : Keyboard) :
    Leaks (n + 1) (serverRecord clock player (evenAck n) keyboard) := by
  have hlarge : (serverReceive clock player.toChannel (evenAck n)).localSequenceNumberLarge + 1 =
      UInt64.ofNat (n + 1) := by
    rw [serverReceive_localSequenceNumberLarge, h.large, UInt64.ofNat_add]
    rfl
  refine ⟨h.salt, h.address, hlarge, ?_, unacknowledged_serverRecord, ?_⟩
  · rw [← hlarge]
    rfl
  · have hadded :
        oddEntries (GameMessages.serverRecord clock player (evenAck n) keyboard).toChannel =
          oddEntries (serverReceive clock player.toChannel (evenAck n)) +
            if (UInt64.ofNat (n + 1)).toNat % 2 = 1 then 1 else 0 := by
      rw [← hlarge]
      unfold oddEntries
      change List.countP _ (((serverReceive clock player.toChannel (evenAck n)).sendPackets ++
        [_]).map PacketInfo.seqNum) = _
      rw [List.map_append, List.countP_append, List.map_singleton, List.countP_singleton]
      simp only [decide_eq_true_eq]
      rfl
    rw [hadded, h.oddEntries_serverReceive, UInt64.toNat_ofNat']
    have hodd := h.odd
    split <;> omega

def evenAcks (n : ℕ) : List Event :=
  ⟨{}, paddedMessage .connectionRequest 1, client⟩ :: (List.range n).map fun i =>
    ⟨{}, gameMessage .gameState (evenAck i) (playerStateBytes {}), client⟩

theorem run_evenAcks (n : ℕ) : ∃ player, run step {} (evenAcks n) = some ⟨[player]⟩ ∧
    Leaks n player := by
  induction n with
  | zero =>
    have hrequest : step {} ⟨{}, paddedMessage .connectionRequest 1, client⟩ =
        some ⟨[newPlayer {} [] 1 client]⟩ :=
      step_paddedRequest _ _ _ _
    refine ⟨_, (run_singleton _ _).trans hrequest, rfl, rfl, rfl, rfl, ?_, Nat.zero_le _⟩
    intro pi hpi
    cases hpi
  | succ n ih =>
    obtain ⟨player, hrun, hleaks⟩ := ih
    have hlocate : locate (authenticates (evenAck n).connectionSalt client) [player] =
        some ([], player, []) := by
      have hauth : authenticates (evenAck n).connectionSalt client player = true :=
        authenticates_iff.mpr ⟨hleaks.salt, hleaks.address⟩
      rw [locate, if_pos hauth]
    have hstep := @step_gameMessage {} ⟨[player]⟩ client (evenAck n) {} [] [] player hlocate
    refine ⟨_, ?_, hleaks.serverRecord ({} : Env).clock (received {}).keyboard⟩
    rw [evenAcks, List.range_succ, List.map_append, ← List.cons_append]
    exact run_append hrun ((run_singleton _ _).trans hstep)

/-- A client that is sent every number but only ever acknowledges even ones makes its
send list as long as one likes. -/
theorem sendPackets_unbounded :
    ¬ ∃ K : ℕ, ∀ (events : List Event) (s : State), run step {} events = some s →
      ∀ p ∈ s.players, p.sendPackets.length ≤ K := by
  rintro ⟨K, hbound⟩
  obtain ⟨player, hrun, hleaks⟩ := run_evenAcks (2 * K + 1)
  have hle := hbound _ _ hrun player (List.mem_singleton.mpr rfl)
  have hodd := hleaks.odd
  have hcount : oddEntries player.toChannel ≤ player.sendPackets.length := by
    rw [oddEntries, ← List.length_map (f := PacketInfo.seqNum)]
    exact List.countP_le_length
  omega

end Growth

end RocketGame.SendHistory
