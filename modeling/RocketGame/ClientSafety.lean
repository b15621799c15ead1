import RocketGame.ClientProgram
import RocketGame.DatagramSafety

/-!
Which datagrams the client can read to the end. EstablishConnection and SyncClock
read the CRC and the type of whatever arrives from the server, and then the fields
of the message they wait for; only ExecuteGame checks for the size of a CRC first,
and none of the four checks anything further. A run of the program therefore stays
in bounds exactly when every datagram is as long as what is read of it.
-/
namespace RocketGame.ClientSafety

open BigEndian Client ClientProgram DatagramSafety NetworkUtilities Packets PlayerStates Runs
open NetworkPacket

/-- The leading bytes read by code that waits for one type: the CRC, then the type,
then the fields of a message of that type. -/
def messageBytes (data : Datagram) (t : NetworkPacketType) (width : ℕ) : ℕ :=
  if ¬ ValidCRC data then 4 else if typeField data = some t then 5 + width else 5

/-- The times the loop over the player states runs: a negative count is none. -/
def playerCount (data : Datagram) : ℕ :=
  match data[21]? with
  | some count => count.toInt8.toInt.toNat
  | none => 0

def gameStateBytes (connectionSalt : UInt64) (data : Datagram) : ℕ :=
  if connectionSalt = saltField data then 17 + 30 * playerCount data else 8

def bytesRead (c : Program) (sender : Address) (data : Datagram) : ℕ :=
  if !isSameAddress sender c.serverAddr then 0
  else match c.phase with
    | .returned _ | .establishing (.returned _) => 0
    | .establishing (.awaitingChallenge _) => messageBytes data .challenge 16
    | .establishing (.awaitingAccepted _ _) => messageBytes data .connectionAccepted 1
    | .syncing _ => messageBytes data .clockResponse 8
    | .playing _ =>
        if data.length < Crc32.crcSize then 0
        else messageBytes data .gameState (gameStateBytes c.connectionSalt data)

/-- A received datagram is as long as what the program reads of it. -/
def LongEnough (c : Program) : Event → Prop
  | .receive (.packet sender data) _ => bytesRead c sender data ≤ data.length
  | _ => True

/-- A receiver that waits for a type reads the fields of that type only. -/
theorem isSome_expected {β : Type} {data : Datagram} {t : NetworkPacketType} {width : ℕ}
    {reject : β} {k : Option NetworkPacketType × NetworkPacket → Option β}
    (hfields : 5 ≤ data.length → typeField data = some t →
      ((k (some t, (ofBytes data).advance 5)).isSome = true ↔ 5 + width ≤ data.length))
    (hother : typeField data ≠ some t →
      (k (typeField data, (ofBytes data).advance 5)).isSome = true) :
    ((ofBytes data).readAndValidateCRC.bind fun crc =>
      if crc.1 ≠ 0 then some reject
      else crc.2.readNetworkPacketType.bind k).isSome = true ↔
      messageBytes data t width ≤ data.length := by
  refine isSome_message ?_ fun h5 => ?_
  · split <;> omega
  · by_cases htype : typeField data = some t
    · rw [if_pos htype, htype]
      exact hfields h5 htype
    · rw [if_neg htype]
      exact iff_of_true (hother htype) h5

section Receivers

variable {sender : Address} {data : Datagram}

theorem receiveChallenge_isSome (clientSalt : UInt64) (sendOk : Bool) {c : Client.State}
    (hsender : isSameAddress sender c.serverAddr = true) :
    (receiveChallenge clientSalt sendOk (.packet sender data) c).isSome = true ↔
      messageBytes data .challenge 16 ≤ data.length := by
  simp only [receiveChallenge, hsender, Bool.not_true, Bool.false_eq_true, if_false]
  refine isSome_expected (fun h5 htype => ?_) fun htype => ?_
  · simp only [ne_eq, not_true_eq_false, if_false]
    refine reads_readUInt64.isSome_bind_of_imp h5 ?_ fun hclient receivedClientSalt => ?_
    · simp only [offset_advance, offset_ofBytes, size_advance, size_ofBytes]
      omega
    refine (reads_readUInt64.isSome_bind (P := True) hclient fun _ serverSalt => ?_).trans
      (and_iff_left trivial)
    dsimp only
    split
    · simp
    · split <;> simp
  · simp [htype]

theorem receiveAccepted_isSome (clientSalt serverSalt : UInt64) {c : Client.State}
    (hsender : isSameAddress sender c.serverAddr = true) :
    (receiveAccepted clientSalt serverSalt (.packet sender data) c).isSome = true ↔
      messageBytes data .connectionAccepted 1 ≤ data.length := by
  simp only [receiveAccepted, hsender, Bool.not_true, Bool.false_eq_true, if_false]
  refine isSome_expected (fun h5 htype => ?_) fun htype => ?_
  · simp only [ne_eq, not_true_eq_false, if_false]
    refine (reads_readInt8.isSome_bind (P := True) h5 fun _ playerID => ?_).trans
      (and_iff_left trivial)
    simp
  · simp [htype]

theorem receiveClockResponse_isSome (env : Env) (sync : ClockSync) {c : Program}
    (hsender : isSameAddress sender c.serverAddr = true) :
    (receiveClockResponse env sync (.packet sender data) c).isSome = true ↔
      messageBytes data .clockResponse 8 ≤ data.length := by
  simp only [receiveClockResponse, hsender, Bool.not_true, Bool.false_eq_true, if_false]
  refine isSome_expected (fun h5 htype => ?_) fun htype => ?_
  · simp only [ne_eq, not_true_eq_false, if_false]
    refine (reads_readUInt64.isSome_bind (P := True) h5 fun _ serverTimeMs => ?_).trans
      (and_iff_left trivial)
    simp
  · simp [htype]

/-- The loop reads as many states as the count byte says. -/
theorem deserializePlayerStates_isSome_iff (h21 : 21 ≤ data.length) :
    ((ofBytes data).advance 21).deserializePlayerStates.isSome = true ↔
      22 + 30 * playerCount data ≤ data.length := by
  unfold deserializePlayerStates playerCount
  by_cases h22 : 21 < data.length
  · rw [readInt8_getElem h22, List.getElem?_eq_getElem h22]
    exact (reads_deserializeLoop _).isSome_iff h22
  · have hfail := reads_readInt8.fails_at h21 (by omega)
    rw [hfail]
    apply iff_of_false (by simp)
    omega

theorem handleGameState_isSome (env : Env) (c : Client.State) (h5 : 5 ≤ data.length) :
    (handleGameState env c ((ofBytes data).advance 5)).isSome = true ↔
      5 + gameStateBytes c.connectionSalt data ≤ data.length := by
  unfold gameStateBytes
  by_cases h13 : 13 ≤ data.length
  · simp only [handleGameState, readUInt64_saltField h13, Option.bind_eq_bind, Option.bind_some]
    by_cases hsalt : c.connectionSalt = saltField data
    · have hwidth : 5 + (17 + 30 * playerCount data) = 22 + 30 * playerCount data := by omega
      simp only [hsalt, ne_eq, not_true_eq_false, if_false, if_true, hwidth]
      -- the header, then the states; what is computed in between reads nothing
      refine reads_readInt16.isSome_bind_of_imp h13 ?_ fun hseq seqNum => ?_
      · simp only [offset_advance, offset_ofBytes, size_advance, size_ofBytes]
        omega
      refine reads_readInt16.isSome_bind_of_imp hseq ?_ fun hack ack => ?_
      · simp only [offset_advance, offset_ofBytes, size_advance, size_ofBytes]
        omega
      refine reads_readInt32.isSome_bind_of_imp hack ?_ fun hbits ackBits => ?_
      · simp only [offset_advance, offset_ofBytes, size_advance, size_ofBytes]
        omega
      have h21 : 21 ≤ data.length := hbits
      rw [← deserializePlayerStates_isSome_iff h21]
      change (((ofBytes data).advance 21).deserializePlayerStates.bind _).isSome = true ↔ _
      cases ((ofBytes data).advance 21).deserializePlayerStates <;> rfl
    · simp only [hsalt, ne_eq, not_false_eq_true, if_true, if_false]
      exact iff_of_true rfl h13
  · have hfail := reads_readUInt64.fails_at h5 (by omega)
    simp only [handleGameState, hfail, Option.bind_eq_bind, Option.bind_none]
    apply iff_of_false (by simp)
    split <;> omega

theorem receiveGame_isSome (env : Env) (loop : GameLoop) {c : Program}
    (hsender : isSameAddress sender c.serverAddr = true)
    (hsize : ¬ data.length < Crc32.crcSize) :
    (receiveGame env loop (.packet sender data) c).isSome = true ↔
      messageBytes data .gameState (gameStateBytes c.connectionSalt data) ≤ data.length := by
  simp only [receiveGame, hsender, size_ofBytes, hsize, Bool.not_true, Bool.false_eq_true,
    if_false]
  refine isSome_expected (fun h5 htype => ?_) fun htype => ?_
  · rw [← handleGameState_isSome env c.toState h5]
    dsimp only
    cases handleGameState env c.toState ((ofBytes data).advance 5) <;> rfl
  · dsimp only
    split
    · rename_i hgame
      exact absurd hgame htype
    · rfl
    · rfl

end Receivers

section Program

variable (physics : PhysicsEngine)

/-- Sending the game state changes neither the salt nor the server's address. -/
theorem sendGameState_kept (env : Env) (c : Client.State) :
    (sendGameState physics env c).state.connectionSalt = c.connectionSalt ∧
      (sendGameState physics env c).state.serverAddr = c.serverAddr := by
  unfold sendGameState
  split
  · exact ⟨rfl, rfl⟩
  · dsimp only [clientSidePrediction]
    split
    · exact ⟨rfl, rfl⟩
    · exact ⟨rfl, rfl⟩

theorem updateGame_kept (env : Env) (loop : GameLoop) (c : Program) :
    (updateGame physics env loop c).1.program.connectionSalt = c.connectionSalt ∧
      (updateGame physics env loop c).1.program.serverAddr = c.serverAddr := by
  unfold updateGame
  dsimp only
  split
  · exact sendGameState_kept physics (later env 1) c.toState
  · exact ⟨rfl, rfl⟩

theorem gameTurn_isSome (env : Env) (loop : GameLoop) (sender : Address) (data : Datagram)
    (c : Program) :
    (gameTurn physics env loop (.packet sender data) c).isSome = true ↔
      (if !isSameAddress sender c.serverAddr then 0
        else if data.length < Crc32.crcSize then 0
        else messageBytes data .gameState (gameStateBytes c.connectionSalt data)) ≤
        data.length := by
  obtain ⟨hsalt, haddr⟩ := updateGame_kept physics env loop c
  rw [gameTurn, Option.isSome_map]
  by_cases hsender : isSameAddress sender c.serverAddr = true
  · rw [hsender, Bool.not_true, if_neg Bool.false_ne_true]
    rw [← haddr] at hsender
    by_cases hsize : data.length < Crc32.crcSize
    · rw [if_pos hsize]
      refine iff_of_true ?_ (Nat.zero_le _)
      simp only [receiveGame, hsender, size_ofBytes, hsize, Bool.not_true, Bool.false_eq_true,
        if_false, if_true, Option.pure_def, Option.isSome_some]
    · rw [if_neg hsize, ← hsalt]
      exact receiveGame_isSome _ _ hsender hsize
  · rw [Bool.not_eq_true] at hsender
    rw [hsender, Bool.not_false, if_pos rfl]
    rw [← haddr] at hsender
    refine iff_of_true ?_ (Nat.zero_le _)
    simp only [receiveGame, hsender, Bool.not_false, if_true, Option.pure_def,
      Option.isSome_some]

/-- Without a datagram there is nothing to read. -/
theorem progress_isSome_of_quiet (c : Program) {e : Event}
    (hquiet : ∀ sender data env, e ≠ .receive (.packet sender data) env) :
    (progress physics c e).isSome = true := by
  cases e with
  | establishConnection clientSalt env =>
    dsimp only [progress]
    split <;> rfl
  | syncClock env =>
    dsimp only [progress]
    split <;> rfl
  | executeGame env =>
    dsimp only [progress]
    split <;> rfl
  | receive received env =>
    dsimp only [progress]
    split
    · rfl
    · rfl
    · cases received with
      | timeout => rfl
      | failure => rfl
      | packet sender data => exact absurd rfl (hquiet sender data env)
    · cases received with
      | timeout => rfl
      | failure => rfl
      | packet sender data => exact absurd rfl (hquiet sender data env)
    · cases received with
      | timeout =>
        simp only [receiveClockResponse]
        split <;> rfl
      | failure =>
        simp only [receiveClockResponse]
        split <;> rfl
      | packet sender data => exact absurd rfl (hquiet sender data env)
    · cases received with
      | timeout =>
        rw [gameTurn, Option.isSome_map]
        simp only [receiveGame]
        split
        · split <;> rfl
        · rfl
      | failure => rfl
      | packet sender data => exact absurd rfl (hquiet sender data env)
  | interrupt =>
    dsimp only [progress]
    split <;> rfl

/-- What one step needs. -/
theorem step_isSome_iff (c : Program) (e : Event) :
    (step physics c e).isSome = true ↔ LongEnough c e := by
  rw [step, Option.isSome_map]
  by_cases hpacket : ∃ sender data env, e = .receive (.packet sender data) env
  · obtain ⟨sender, data, env, rfl⟩ := hpacket
    rw [LongEnough, bytesRead, progress]
    by_cases hsender : isSameAddress sender c.serverAddr = true
    · cases hphase : c.phase with
      | returned result => simp [hsender]
      | establishing attempt =>
        cases attempt with
        | awaitingChallenge clientSalt =>
          simp only [hsender, Bool.not_true, Bool.false_eq_true, if_false, Option.isSome_map]
          exact receiveChallenge_isSome clientSalt env.sendOk hsender
        | awaitingAccepted clientSalt serverSalt =>
          simp only [hsender, Bool.not_true, Bool.false_eq_true, if_false, Option.isSome_map]
          exact receiveAccepted_isSome clientSalt serverSalt hsender
        | returned result => simp [hsender]
      | syncing sync =>
        simp only [hsender, Bool.not_true, Bool.false_eq_true, if_false]
        exact receiveClockResponse_isSome env sync hsender
      | playing loop => exact gameTurn_isSome physics env loop sender data c
    · rw [Bool.not_eq_true] at hsender
      cases hphase : c.phase with
      | returned result => simp [hsender]
      | establishing attempt =>
        cases attempt <;> simp [hsender, receiveChallenge, receiveAccepted]
      | syncing sync => simp [hsender, receiveClockResponse]
      | playing loop => exact gameTurn_isSome physics env loop sender data c
  · have hquiet : ∀ sender data env, e ≠ .receive (.packet sender data) env :=
      fun sender data env h => hpacket ⟨sender, data, env, h⟩
    apply iff_of_true (progress_isSome_of_quiet physics c hquiet)
    unfold LongEnough
    split
    · rename_i sender data env
      exact absurd rfl (hquiet sender data env)
    · exact True.intro

/-- Over any sequence of calls and datagrams the program stays in bounds exactly
when every datagram is as long as what is read of it. -/
theorem run_in_bounds_iff (c : Program) (events : List Event) :
    (run (step physics) c events).isSome = true ↔
      Throughout (step physics) LongEnough c events :=
  run_isSome_iff (step_isSome_iff physics)

end Program

def FromServer (c : Program) : Event → Prop
  | .receive (.packet sender data) _ =>
      sender = c.serverAddr ∧ 1 ≤ data.length ∧ data.length ≤ 1024
  | _ => True

/-- One byte is too short for the CRC that EstablishConnection reads at once. -/
theorem one_byte_is_read_past :
    ¬ ∀ (physics : PhysicsEngine) (c : Program) (events : List Event),
      (∀ e ∈ events, FromServer c e) → (run (step physics) c events).isSome = true := by
  intro h
  let c : Program := { serverAddr := ⟨2, 9, 3501⟩ }
  have hserver : ∀ e ∈ [Event.establishConnection 1 {}, .receive (.packet ⟨2, 9, 3501⟩ [0]) {}],
      FromServer c e := by
    simp [FromServer, c]
  have hsome := h .resting c _ hserver
  rw [run_isSome_iff (step_isSome_iff _)] at hsome
  have hlong : bytesRead _ ⟨2, 9, 3501⟩ [0] ≤ 1 := (hsome.2 _ rfl).1
  exact absurd hlong (by decide)

end RocketGame.ClientSafety
