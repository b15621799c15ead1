import RocketGame.Turns

/-!
How the player table grows. Only an accepted connection request adds a record,
and it does so whatever the table holds: there is neither a check for a record
of the same address nor one for the number of players. The two bounds a reader
expects therefore hold exactly in the runs whose requests respect them.
-/
namespace RocketGame.TableGrowth

open FirstMatch GameMessages HandshakeMessages NetworkUtilities Packets PlayerStates PlayerTable
open Runs Server Turns
open NetworkPacket (ofBytes sealed)

/-- A turn drops records or adds one for a request; the addresses stay in order. -/
theorem addresses_of_tableChange {env : Env} {data : Datagram} {addr : Address}
    {players players' : List Player} (h : TableChange env data addr players players') :
    (players'.map Player.address).Sublist (players.map Player.address) ∨
      ∃ clientSalt, data.length = 1000 ∧ Carries data .connectionRequest clientSalt ∧
        players'.map Player.address = players.map Player.address ++ [addr] := by
  cases h with
  | same => exact Or.inl (List.Sublist.refl _)
  | added clientSalt hsize hdata =>
    refine Or.inr ⟨clientSalt, hsize, hdata, ?_⟩
    rw [List.map_append]
    rfl
  | changed before after player player' hplayers haddr hsame =>
    left
    rw [hplayers, List.map_append, List.map_append, List.map_cons, List.map_cons, hsame.address]
  | erased before after player hplayers haddr =>
    left
    rw [hplayers]
    exact ((List.sublist_cons_self player after).append_left before).map Player.address
  | removed connectionSalt => exact Or.inl (List.filter_sublist.map Player.address)

theorem addresses_of_step {s s' : State} {e : Event} (h : step s e = some s') :
    (s'.players.map Player.address).Sublist (s.players.map Player.address) ∨
      ∃ clientSalt, e.data.length = 1000 ∧ Carries e.data .connectionRequest clientSalt ∧
        s'.players.map Player.address = s.players.map Player.address ++ [e.clientAddr] := by
  obtain ⟨o, ho, rfl⟩ := Option.map_eq_some_iff.mp h
  exact addresses_of_tableChange (executeGameTurn_table ho)

section OneRecord

def OneRecordEach (s : State) : Prop := (s.players.map Player.address).Nodup

/-- At most one record for each address, so a DISCONNECT with the salt of a
client's record leaves no record of that client. -/
structure OneRecordPerClient (s : State) : Prop where
  records : OneRecordEach s
  leaves : ∀ (env : Env) (data : Datagram) (addr : Address) (p : Player) (o : Outcome),
    p ∈ s.players → p.address = addr → Carries data .disconnect p.connectionSalt →
    executeGameTurn env s data addr = some o → ∀ q ∈ o.state.players, q.address ≠ addr

/-- An accepted request comes from an address without a record. -/
def RequestIsFirst (s : State) (e : Event) : Prop :=
  ∀ clientSalt, e.data.length = 1000 → Carries e.data .connectionRequest clientSalt →
    ∀ p ∈ s.players, p.address ≠ e.clientAddr

theorem OneRecordEach.eq_of_address {s : State} (h : OneRecordEach s) {p q : Player}
    (hp : p ∈ s.players) (hq : q ∈ s.players) (haddr : p.address = q.address) : p = q :=
  List.inj_on_of_nodup_map h hp hq haddr

theorem executeGameTurn_disconnect {env : Env} {s : State} {data : Datagram} {addr : Address}
    {salt : UInt64} (hdata : Carries data .disconnect salt) :
    executeGameTurn env s data addr = some
      { state := ⟨s.players.filter fun p => !authenticates salt addr p⟩, result := 1 } := by
  rw [executeGameTurn_of_carries hdata]
  simp only [dispatch, handleDisconnect, hdata.salt, Option.bind_eq_bind, Option.bind_some,
    Option.pure_def]

theorem OneRecordEach.perClient {s : State} (h : OneRecordEach s) : OneRecordPerClient s where
  records := h
  leaves := by
    intro env data addr p o hp haddr hdata ho q hq hqaddr
    rw [executeGameTurn_disconnect hdata, Option.some.injEq] at ho
    subst ho
    obtain ⟨hmem, hkept⟩ := List.mem_filter.mp hq
    obtain rfl := h.eq_of_address hp hmem (haddr.trans hqaddr.symm)
    rw [authenticates_iff.mpr ⟨rfl, haddr⟩] at hkept
    cases hkept

theorem step_oneRecordEach {s s' : State} {e : Event} (hI : OneRecordEach s)
    (hC : RequestIsFirst s e) (h : step s e = some s') : OneRecordEach s' := by
  unfold OneRecordEach at hI ⊢
  rcases addresses_of_step h with hsub | ⟨clientSalt, hsize, hdata, heq⟩
  · exact hsub.nodup hI
  · rw [heq, List.nodup_append]
    refine ⟨hI, List.nodup_singleton _, ?_⟩
    intro a ha b hb hab
    obtain ⟨p, hp, rfl⟩ := List.mem_map.mp ha
    exact hC clientSalt hsize hdata p hp (hab.trans (List.mem_singleton.mp hb))

/-- A repeated request leaves two records of its sender. -/
theorem step_two_records {s : State} {e : Event} (hC : ¬ RequestIsFirst s e) :
    ∃ s', step s e = some s' ∧ ¬ OneRecordEach s' := by
  unfold RequestIsFirst at hC
  push Not at hC
  obtain ⟨clientSalt, hsize, hdata, p, hp, haddr⟩ := hC
  refine ⟨_, step_connectionRequest hsize hdata, ?_⟩
  intro hone
  rw [OneRecordEach, List.map_append, List.nodup_append] at hone
  exact hone.2.2 p.address (List.mem_map_of_mem hp) e.clientAddr (List.mem_singleton_self _) haddr

/-- Over a whole run from the empty table, every client has at most one record
exactly when every accepted request comes from an address without one. -/
theorem always_oneRecordPerClient_iff (events : List Event) :
    Always step OneRecordPerClient {} events ↔ Throughout step RequestIsFirst {} events := by
  have hinit : OneRecordEach {} := List.nodup_nil
  refine always_iff_throughout_of_taken hinit (fun _ hI => hI.perClient)
    (fun _ _ _ hI hC h => step_oneRecordEach hI hC h) ?_
  intro s e _ hC
  obtain ⟨s', hstep, htwo⟩ := step_two_records hC
  exact ⟨s', hstep, fun hone => htwo hone.records⟩

def request (addr : Address) : Event := ⟨{}, paddedMessage .connectionRequest 1, addr⟩

theorem step_request (s : State) (addr : Address) :
    step s (request addr) = some ⟨s.players ++ [newPlayer {} s.players 1 addr]⟩ :=
  step_paddedRequest {} s 1 addr

/-- A client that asks twice has two records. -/
theorem repeated_request_adds_record :
    ¬ ∀ events : List Event, Always step OneRecordPerClient {} events := by
  intro h
  have hrun : run step {} [request ⟨2, 1, 1⟩, request ⟨2, 1, 1⟩] = some _ :=
    run_step (step_request _ _) (run_step (step_request _ _) rfl)
  have hone := ((h _).last hrun).records
  exact absurd hone (by unfold OneRecordEach; decide)

end OneRecord

section Broadcast

def receiveBufferSize : ℕ := 1024

theorem length_gameMessage (t : NetworkPacketType) (h : Header) (rest : List UInt8) :
    (gameMessage t h rest).length = 21 + rest.length := by
  rw [gameMessage, NetworkPacket.length_sealed, List.length_cons, List.length_append,
    length_headerBytes]
  omega

/-- A reply takes 30 bytes for each record of the table. -/
theorem length_gameStateDatagram (env : Env) (before after : List Player) (player : Player)
    (h : Header) (keyboard : Keyboard) :
    (gameStateDatagram env before after player h keyboard).length =
      22 + 30 * (before ++ player :: after).length := by
  rw [gameStateDatagram, length_gameMessage, tableBytes, List.length_cons,
    length_flatMap_playerStateBytes, List.length_append, List.length_append, List.length_cons,
    List.length_cons]
  omega

/-- The table respects MAX_PLAYERS, so every reply fits in the receive buffer. -/
structure BoundedBroadcast (s : State) : Prop where
  players : s.players.length ≤ maxPlayers
  fits : ∀ (env : Env) (data : Datagram) (addr : Address) (o : Outcome),
    executeGameTurn env s data addr = some o →
    ∀ message ∈ o.sent, message.2.length ≤ receiveBufferSize

/-- An accepted request arrives while the table has room. -/
def RequestHasRoom (s : State) (e : Event) : Prop :=
  ∀ clientSalt, e.data.length = 1000 → Carries e.data .connectionRequest clientSalt →
    s.players.length < maxPlayers

theorem length_answer_le {env : Env} {addr : Address} {data : Datagram} {bound : ℕ}
    (hdata : data.length ≤ bound) :
    ∀ message ∈ answer env addr data, message.2.length ≤ bound := by
  unfold answer
  split
  · exact List.forall_mem_singleton.mpr hdata
  · exact List.forall_mem_nil _

/-- The longest answer is the reply that lists the whole table. -/
theorem length_sent_le {env : Env} {s : State} {data : Datagram} {addr : Address} {o : Outcome}
    (h : Turn env s data addr o) :
    ∀ message ∈ o.sent, message.2.length ≤ 22 + 30 * s.players.length := by
  cases h with
  | dropped => exact List.forall_mem_nil _
  | requested clientSalt hsize hdata =>
    exact length_answer_le (by rw [length_challengeDatagram]; omega)
  | unknown t salt hdata => exact List.forall_mem_nil _
  | accepted salt before after player hsize hdata hlocate hsalt =>
    exact length_answer_le (by rw [length_acceptedDatagram]; omega)
  | denied salt before after player hsize hdata hlocate hsalt =>
    exact length_answer_le (by rw [length_deniedDatagram]; omega)
  | synced salt clientTime before after player hdata hlocate =>
    exact length_answer_le (by rw [length_clockResponseDatagram]; omega)
  | played h keyboard before after player hdata hlocate =>
    obtain ⟨hplayers, _, _⟩ := locate_eq_some.mp hlocate
    apply length_answer_le
    rw [length_gameStateDatagram, ← hplayers]
  | ended salt hdata => exact List.forall_mem_nil _

theorem boundedBroadcast_of_length {s : State} (h : s.players.length ≤ maxPlayers) :
    BoundedBroadcast s where
  players := h
  fits := by
    intro env data addr o ho message hmem
    have hlength := length_sent_le (turn_of_executeGameTurn ho) message hmem
    unfold maxPlayers at h
    unfold receiveBufferSize
    omega

theorem step_length {s s' : State} {e : Event} (hI : s.players.length ≤ maxPlayers)
    (hC : RequestHasRoom s e) (h : step s e = some s') : s'.players.length ≤ maxPlayers := by
  rcases addresses_of_step h with hsub | ⟨clientSalt, hsize, hdata, heq⟩
  · have hle := hsub.length_le
    rw [List.length_map, List.length_map] at hle
    omega
  · have hlength := congrArg List.length heq
    rw [List.length_append, List.length_map, List.length_map, List.length_singleton] at hlength
    have hroom := hC clientSalt hsize hdata
    omega

/-- A request to a full table is accepted like any other. -/
theorem step_overflows {s : State} {e : Event} (hC : ¬ RequestHasRoom s e) :
    ∃ s', step s e = some s' ∧ ¬ s'.players.length ≤ maxPlayers := by
  unfold RequestHasRoom at hC
  push Not at hC
  obtain ⟨clientSalt, hsize, hdata, hfull⟩ := hC
  refine ⟨_, step_connectionRequest hsize hdata, ?_⟩
  rw [List.length_append, List.length_singleton]
  omega

/-- Over a whole run from the empty table, MAX_PLAYERS bounds the table, and all
replies with it, exactly when every accepted request arrives while there is room. -/
theorem always_boundedBroadcast_iff (events : List Event) :
    Always step BoundedBroadcast {} events ↔ Throughout step RequestHasRoom {} events := by
  have hinit : ({} : State).players.length ≤ maxPlayers := Nat.zero_le _
  refine always_iff_throughout_of_taken hinit (fun _ hI => boundedBroadcast_of_length hI)
    (fun _ _ _ hI hC h => step_length hI hC h) ?_
  intro s e _ hC
  obtain ⟨s', hstep, hlong⟩ := step_overflows hC
  exact ⟨s', hstep, fun hbound => hlong hbound.players⟩

theorem run_requests (addr : Address) (n : ℕ) (s : State) :
    ∃ t, run step s (List.replicate n (request addr)) = some t ∧
      t.players.length = s.players.length + n := by
  induction n generalizing s with
  | zero => exact ⟨s, rfl, rfl⟩
  | succ n ih =>
    obtain ⟨t, hrun, hlength⟩ := ih ⟨s.players ++ [newPlayer {} s.players 1 addr]⟩
    refine ⟨t, run_step (step_request s addr) hrun, ?_⟩
    rw [hlength, List.length_append, List.length_singleton]
    omega

/-- Nine requests make nine records. -/
theorem ninth_request_is_accepted :
    ¬ ∀ events : List Event, Always step BoundedBroadcast {} events := by
  intro h
  obtain ⟨t, hrun, hlength⟩ := run_requests ⟨2, 1, 1⟩ 9 {}
  have hbound := ((h _).last hrun).players
  rw [hlength] at hbound
  exact absurd hbound (by decide)

end Broadcast

end RocketGame.TableGrowth
