import RocketGame.PlayerTable

/-!
Maps of records that the server does not notice when it handles a datagram of one
address: such a map commutes with every handler. Of the handler for game messages,
which reads and writes more of a record than the others, only that has to be shown.
-/
namespace RocketGame.RecordMaps

open FirstMatch NetworkUtilities Packets PlayerStates PlayerTable Server
open NetworkPacket (ofBytes)

/-- What the search for a record and the answers to the address read is kept, and the
assignments to a record of the address carry over. -/
structure Unnoticed (addr : Address) (f : Player → Player) : Prop where
  fromAddress_eq : ∀ p, fromAddress addr (f p) = fromAddress addr p
  authenticates_eq : ∀ salt p, authenticates salt addr (f p) = authenticates salt addr p
  toPlayerState_eq : ∀ p, (f p).toPlayerState = p.toPlayerState
  connectionSalt_eq : ∀ p, fromAddress addr p = true → (f p).connectionSalt = p.connectionSalt
  connectionState_eq : ∀ p state, fromAddress addr p = true →
    f { p with connectionState := state } = { f p with connectionState := state }
  serverClockOffset_eq : ∀ p offset, fromAddress addr p = true →
    f { p with serverClockOffset := offset } = { f p with serverClockOffset := offset }
  newPlayer_eq : ∀ env players clientSalt, f (newPlayer env players clientSalt addr) =
    newPlayer env players clientSalt addr

def mapState (f : Player → Player) (s : State) : State := ⟨s.players.map f⟩

def mapOutcome (f : Player → Player) (o : Outcome) : Outcome :=
  { o with state := mapState f o.state }

def dispatchWith (handle : Env → State → NetworkPacket → Address → Option Outcome) (env : Env)
    (s : State) (packetType : Option NetworkPacketType) (networkPacket : NetworkPacket)
    (clientAddr : Address) : Option Outcome :=
  match packetType with
  | some .gameState => handle env s networkPacket clientAddr
  | packetType => dispatch env s packetType networkPacket clientAddr

def executeGameTurnWith (handle : Env → State → NetworkPacket → Address → Option Outcome)
    (env : Env) (s : State) (data : Datagram) (clientAddr : Address) : Option Outcome := do
  let networkPacket := NetworkPacket.ofBytes data
  if networkPacket.size < Crc32.crcSize then
    return { state := s, result := 0 }
  let (invalid, networkPacket) ← networkPacket.readAndValidateCRC
  if invalid ≠ 0 then
    return { state := s, result := 0 }
  let (packetType, networkPacket) ← networkPacket.readNetworkPacketType
  dispatchWith handle env s packetType networkPacket clientAddr

/-- The handler of the source gives the turn of the source. -/
theorem executeGameTurnWith_handleGameState :
    executeGameTurnWith handleGameState = executeGameTurn := by
  have hdispatch : ∀ env s packetType p addr,
      dispatchWith handleGameState env s packetType p addr =
        dispatch env s packetType p addr := by
    intro env s packetType p addr
    unfold dispatchWith
    split <;> rfl
  funext env s data addr
  simp only [executeGameTurnWith, hdispatch]
  rfl

theorem rel_map_iff {α β : Type*} {g : β → α} {x : Option α} {y : Option β} :
    Option.Rel (fun a b => a = g b) x y ↔ x = y.map g := by
  constructor
  · rintro (⟨rfl⟩ | _)
    · rfl
    · rfl
  · rintro rfl
    cases y with
    | none => exact .none
    | some b => exact .some rfl

theorem map_eq_of_rel {α β γ : Type*} {R : α → β → Prop} {f : α → γ} {g : β → γ} {x : Option α}
    {y : Option β} (h : Option.Rel R x y) (hR : ∀ a b, R a b → f a = g b) : x.map f = y.map g := by
  cases h with
  | none => rfl
  | some h => exact congrArg some (hR _ _ h)

section Table

variable {addr : Address} {f : Player → Player} (hf : Unnoticed addr f)

include hf

theorem address_map {p : Player} (h : fromAddress addr p = true) :
    (f p).address = p.address := by
  have hown : fromAddress addr (f p) = true := (hf.fromAddress_eq p).trans h
  rw [fromAddress_iff.mp hown, fromAddress_iff.mp h]

theorem playerID_map (p : Player) : (f p).playerID = p.playerID :=
  congrArg PlayerState.playerID (hf.toPlayerState_eq p)

theorem locate_fromAddress_map (players : List Player) :
    locate (fromAddress addr) (players.map f) =
      (locate (fromAddress addr) players).map fun found =>
        (found.1.map f, f found.2.1, found.2.2.map f) := by
  rw [locate_map]
  simp only [hf.fromAddress_eq]

theorem locate_authenticates_map (salt : UInt64) (players : List Player) :
    locate (authenticates salt addr) (players.map f) =
      (locate (authenticates salt addr) players).map fun found =>
        (found.1.map f, f found.2.1, found.2.2.map f) := by
  rw [locate_map]
  simp only [hf.authenticates_eq]

theorem findPlayerID_map (players : List Player) (ids : List ℕ) (playerID : ℕ) :
    findPlayerID (players.map f) ids playerID = findPlayerID players ids playerID := by
  induction ids generalizing playerID with
  | nil => rfl
  | cons i rest ih =>
    rw [findPlayerID, findPlayerID, ih, List.any_map]
    simp only [Function.comp_def, playerID_map hf]

theorem assignPlayerID_map (players : List Player) :
    assignPlayerID (players.map f) addr = assignPlayerID players addr := by
  have hfind : (players.map f).find? (fromAddress addr) =
      (players.find? (fromAddress addr)).map f := by
    rw [List.find?_map]
    simp only [Function.comp_def, hf.fromAddress_eq]
  unfold assignPlayerID
  rw [hfind]
  cases players.find? (fromAddress addr) with
  | none => simp only [Option.map_none, findPlayerID_map hf]
  | some p => simp only [Option.map_some, playerID_map hf, findPlayerID_map hf]

theorem newPlayer_map (env : Env) (players : List Player) (clientSalt : UInt64) :
    newPlayer env (players.map f) clientSalt addr =
      f (newPlayer env players clientSalt addr) := by
  rw [hf.newPlayer_eq]
  unfold newPlayer
  rw [assignPlayerID_map hf]

/-- The reply lists the public part of every record. -/
theorem gameStatePacket_map (player : Player) (ackBits : UInt32) (players : List Player) :
    gameStatePacket player ackBits (players.map f) = gameStatePacket player ackBits players := by
  unfold gameStatePacket
  rw [List.length_map, List.foldl_map]
  simp only [hf.toPlayerState_eq]

end Table

section Handlers

variable {env : Env} {s : State} {p : NetworkPacket} {addr : Address} {f : Player → Player}
  (hf : Unnoticed addr f)

include hf

theorem handleConnectionRequest_map :
    handleConnectionRequest env (mapState f s) p addr =
      (handleConnectionRequest env s p addr).map (mapOutcome f) := by
  unfold handleConnectionRequest
  cases p.readUInt64 with
  | none => rfl
  | some read =>
    simp only [Option.bind_eq_bind, Option.bind_some, Option.pure_def, Option.map_some,
      mapOutcome, mapState, newPlayer_map hf, List.map_append, List.map_singleton]

theorem handleChallengeResponse_map :
    handleChallengeResponse env (mapState f s) p addr =
      (handleChallengeResponse env s p addr).map (mapOutcome f) := by
  unfold handleChallengeResponse
  cases p.readUInt64 with
  | none => rfl
  | some read =>
    simp only [Option.bind_eq_bind, Option.bind_some, mapState, locate_fromAddress_map hf]
    cases hlocate : locate (fromAddress addr) s.players with
    | none => rfl
    | some found =>
      obtain ⟨before, player, after⟩ := found
      obtain ⟨_, haddr, _⟩ := locate_eq_some.mp hlocate
      have hsalt := hf.connectionSalt_eq player haddr
      simp only [Option.map_some]
      by_cases heq : player.connectionSalt = read.1
      · have hpacket : acceptedPacket read.2 { f player with connectionState := .connected } =
            acceptedPacket read.2 { player with connectionState := .connected } := by
          unfold acceptedPacket
          rw [playerID_map hf]
        rw [if_pos (hsalt.trans heq), if_pos heq]
        simp only [Option.pure_def, Option.map_some, mapOutcome, mapState, List.map_append,
          List.map_cons, hf.connectionState_eq player .connected haddr, hpacket]
      · rw [if_neg (hsalt.trans_ne heq), if_neg heq]
        simp only [Option.pure_def, Option.map_some, mapOutcome, mapState, List.map_append]

theorem handleClockSync_map :
    handleClockSync env (mapState f s) p addr =
      (handleClockSync env s p addr).map (mapOutcome f) := by
  unfold handleClockSync
  cases p.readUInt64 with
  | none => rfl
  | some read =>
    obtain ⟨salt, p₁⟩ := read
    simp only [Option.bind_eq_bind, Option.bind_some]
    cases p₁.readUInt64 with
    | none => rfl
    | some read =>
      simp only [Option.bind_some, mapState, locate_authenticates_map hf]
      cases hlocate : locate (authenticates salt addr) s.players with
      | none => rfl
      | some found =>
        obtain ⟨before, player, after⟩ := found
        obtain ⟨_, hauth, _⟩ := locate_eq_some.mp hlocate
        have haddr := fromAddress_of_authenticates hauth
        simp only [Option.map_some, Option.pure_def, mapOutcome, mapState, List.map_append,
          List.map_cons, hf.serverClockOffset_eq player
            (milliseconds (env.clock 0) - read.1.toInt64) haddr, address_map hf haddr]

theorem handleDisconnect_map :
    handleDisconnect env (mapState f s) p addr =
      (handleDisconnect env s p addr).map (mapOutcome f) := by
  unfold handleDisconnect
  cases p.readUInt64 with
  | none => rfl
  | some read =>
    simp only [Option.bind_eq_bind, Option.bind_some, Option.pure_def, Option.map_some,
      mapOutcome, mapState, List.filter_map, Function.comp_def, hf.authenticates_eq]

/-- Two turns are related when the two handlers for game messages are, by a relation
that holds wherever the map is all the difference. -/
theorem executeGameTurnWith_rel
    {handle handle' : Env → State → NetworkPacket → Address → Option Outcome}
    {R : Outcome → Outcome → Prop} (hR : ∀ o, R (mapOutcome f o) o)
    (hhandle : ∀ p, Option.Rel R (handle env (mapState f s) p addr) (handle' env s p addr))
    (data : Datagram) :
    Option.Rel R (executeGameTurnWith handle env (mapState f s) data addr)
      (executeGameTurnWith handle' env s data addr) := by
  have hmap : ∀ o : Option Outcome, Option.Rel R (o.map (mapOutcome f)) o := by
    intro o
    cases o with
    | none => exact .none
    | some o => exact .some (hR o)
  have hdispatch : ∀ packetType p, Option.Rel R
      (dispatchWith handle env (mapState f s) packetType p addr)
      (dispatchWith handle' env s packetType p addr) := by
    intro packetType p
    unfold dispatchWith
    split
    · exact hhandle p
    · unfold dispatch
      split
      · split
        · exact .some (hR { state := s, result := 0 })
        · rw [handleConnectionRequest_map hf]
          exact hmap _
      · split
        · exact .some (hR { state := s, result := 0 })
        · rw [handleChallengeResponse_map hf]
          exact hmap _
      · rw [handleClockSync_map hf]
        exact hmap _
      · contradiction
      · rw [handleDisconnect_map hf]
        exact hmap _
      · exact .some (hR { state := s, result := 0 })
  unfold executeGameTurnWith
  dsimp only
  split
  · exact .some (hR { state := s, result := 0 })
  · cases (ofBytes data).readAndValidateCRC with
    | none => exact .none
    | some crc =>
      simp only [Option.bind_eq_bind, Option.bind_some]
      split
      · exact .some (hR { state := s, result := 0 })
      · cases crc.2.readNetworkPacketType with
        | none => exact .none
        | some packetType => exact hdispatch packetType.1 packetType.2

end Handlers

end RocketGame.RecordMaps
