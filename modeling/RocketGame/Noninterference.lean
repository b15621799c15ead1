import RocketGame.Turns
import RocketGame.Unwinding

/-!
What the server keeps about one address over whole runs: its records in the order of
the table, up to the player IDs, which are chosen among those the others leave free.
The datagrams of other addresses leave this view as it is, and each own datagram
changes it as it would change a table without the others.
-/
namespace RocketGame.Noninterference

open FirstMatch HandshakeMessages NetworkUtilities Packets PlayerStates PlayerTable Runs Server
open Turns Unwinding
open NetworkPacket (ofBytes)

def withoutID (p : Player) : Player := { p with playerID := 0 }

variable (addr : Address)

/-- The table as the address has shaped it. -/
def view (s : State) : State :=
  ⟨(s.players.filter (fromAddress addr)).map withoutID⟩

def fromClient (e : Event) : Bool := isSameAddress e.clientAddr addr

def viewAfter (o : Outcome) : State := view addr o.state

section View

variable {addr} {before after : List Player} {p p' : Player}

theorem view_append (players players' : List Player) :
    view addr ⟨players ++ players'⟩ =
      ⟨(view addr ⟨players⟩).players ++ (view addr ⟨players'⟩).players⟩ := by
  simp only [view, List.filter_append, List.map_append]

theorem view_cons (h : fromAddress addr p = true) (players : List Player) :
    view addr ⟨p :: players⟩ = ⟨withoutID p :: (view addr ⟨players⟩).players⟩ := by
  simp only [view, List.filter_cons_of_pos h, List.map_cons]

theorem fromAddress_withoutID (p : Player) :
    fromAddress addr (withoutID p) = fromAddress addr p := rfl

/-- Looking twice shows nothing new. -/
theorem view_view (s : State) : view addr (view addr s) = view addr s := by
  have hkept : ∀ players : List Player, ((players.filter (fromAddress addr)).map withoutID).filter
      (fromAddress addr) = (players.filter (fromAddress addr)).map withoutID := by
    intro players
    rw [List.filter_eq_self]
    intro p hp
    obtain ⟨q, hq, rfl⟩ := List.mem_map.mp hp
    exact (List.mem_filter.mp hq).2
  simp only [view, hkept, List.map_map]
  rfl

theorem view_players (players : List Player) :
    view addr ⟨(view addr ⟨players⟩).players⟩ = view addr ⟨players⟩ := view_view ⟨players⟩

/-- A search that only finds records of the address finds them in the view. -/
theorem locate_view {q : Player → Bool} (hq : ∀ p, q (withoutID p) = q p)
    (hown : ∀ p, q p = true → fromAddress addr p = true) (s : State) :
    locate q (view addr s).players = (locate q s.players).map fun found =>
      ((view addr ⟨found.1⟩).players, withoutID found.2.1, (view addr ⟨found.2.2⟩).players) := by
  rw [view, locate_map]
  simp only [hq]
  rw [locate_filter hown, Option.map_map]
  rfl

/-- A record of the address is replaced in the view as in the table. -/
theorem view_replace (h : fromAddress addr p = true) (hsame : withoutID p' = withoutID p) :
    view addr ⟨(view addr ⟨before⟩).players ++ p' :: (view addr ⟨after⟩).players⟩ =
      view addr ⟨before ++ p :: after⟩ := by
  have h' : fromAddress addr p' = true := by
    rwa [← fromAddress_withoutID, hsame, fromAddress_withoutID]
  rw [view_append, view_cons h', view_append before, view_cons h, view_players, view_players,
    hsame]

theorem view_erase (before after : List Player) :
    view addr ⟨(view addr ⟨before⟩).players ++ (view addr ⟨after⟩).players⟩ =
      view addr ⟨before ++ after⟩ := by
  rw [view_append, view_append, view_players, view_players]

end View

section Handlers

variable {addr} {env : Env} {s : State} {p : NetworkPacket}

theorem locate_fromAddress_view (s : State) :
    locate (fromAddress addr) (view addr s).players =
      (locate (fromAddress addr) s.players).map fun found =>
        ((view addr ⟨found.1⟩).players, withoutID found.2.1, (view addr ⟨found.2.2⟩).players) :=
  locate_view fromAddress_withoutID (fun _ h => h) s

theorem locate_authenticates_view (salt : UInt64) (s : State) :
    locate (authenticates salt addr) (view addr s).players =
      (locate (authenticates salt addr) s.players).map fun found =>
        ((view addr ⟨found.1⟩).players, withoutID found.2.1, (view addr ⟨found.2.2⟩).players) :=
  locate_view (fun _ => rfl) (fun _ => fromAddress_of_authenticates) s

theorem handleConnectionRequest_view :
    (handleConnectionRequest env (view addr s) p addr).map (viewAfter addr) =
      (handleConnectionRequest env s p addr).map (viewAfter addr) := by
  unfold handleConnectionRequest
  cases p.readUInt64 with
  | none => rfl
  | some read =>
    have hnew : ∀ players, view addr ⟨[newPlayer env players read.1 addr]⟩ =
        ⟨[withoutID (newPlayer env s.players read.1 addr)]⟩ := by
      intro players
      have hown : fromAddress addr (newPlayer env players read.1 addr) = true :=
        fromAddress_iff.mpr rfl
      rw [view_cons hown]
      rfl
    refine congrArg some ?_
    simp only [viewAfter]
    rw [view_append, hnew, view_append s.players, hnew, view_players]

theorem handleChallengeResponse_view :
    (handleChallengeResponse env (view addr s) p addr).map (viewAfter addr) =
      (handleChallengeResponse env s p addr).map (viewAfter addr) := by
  unfold handleChallengeResponse
  cases p.readUInt64 with
  | none => rfl
  | some read =>
    simp only [Option.bind_eq_bind, Option.bind_some, locate_fromAddress_view]
    cases hlocate : locate (fromAddress addr) s.players with
    | none => exact congrArg some (view_view s)
    | some found =>
      obtain ⟨before, player, after⟩ := found
      obtain ⟨_, haddr, _⟩ := locate_eq_some.mp hlocate
      have hsalt : (withoutID player).connectionSalt = player.connectionSalt := rfl
      simp only [Option.map_some, hsalt]
      split
      · have hconnected : fromAddress addr { player with connectionState := .connected } = true :=
          haddr
        exact congrArg some (view_replace hconnected rfl)
      · exact congrArg some (view_erase before after)

theorem handleClockSync_view :
    (handleClockSync env (view addr s) p addr).map (viewAfter addr) =
      (handleClockSync env s p addr).map (viewAfter addr) := by
  unfold handleClockSync
  cases p.readUInt64 with
  | none => rfl
  | some read =>
    simp only [Option.bind_eq_bind, Option.bind_some]
    cases read.2.readUInt64 with
    | none => rfl
    | some time =>
      simp only [Option.bind_some, locate_authenticates_view]
      cases hlocate : locate (authenticates read.1 addr) s.players with
      | none => exact congrArg some (view_view s)
      | some found =>
        obtain ⟨before, player, after⟩ := found
        obtain ⟨_, hauth, _⟩ := locate_eq_some.mp hlocate
        have hsynced : fromAddress addr { player with
            serverClockOffset := milliseconds (env.clock 0) - time.1.toInt64 } = true :=
          fromAddress_of_authenticates hauth
        exact congrArg some (view_replace hsynced rfl)

theorem handleGameState_view :
    (handleGameState env (view addr s) p addr).map (viewAfter addr) =
      (handleGameState env s p addr).map (viewAfter addr) := by
  unfold handleGameState
  cases p.readUInt64 with
  | none => rfl
  | some read =>
    simp only [Option.bind_eq_bind, Option.bind_some, locate_authenticates_view]
    cases hlocate : locate (authenticates read.1 addr) s.players with
    | none => exact congrArg some (view_view s)
    | some found =>
      obtain ⟨before, player, after⟩ := found
      obtain ⟨_, hauth, _⟩ := locate_eq_some.mp hlocate
      have haddr := fromAddress_of_authenticates hauth
      simp only [Option.map_some]
      cases read.2.readInt16 with
      | none => rfl
      | some seqNum =>
        simp only [Option.bind_some]
        cases seqNum.2.readInt16 with
        | none => rfl
        | some ack =>
          simp only [Option.bind_some]
          cases ack.2.readInt32 with
          | none => rfl
          | some ackBits =>
            simp only [Option.bind_some]
            cases ackBits.2.deserializePlayerState with
            | none => rfl
            | some playerState =>
              exact congrArg some (view_replace haddr rfl)

theorem handleDisconnect_view :
    (handleDisconnect env (view addr s) p addr).map (viewAfter addr) =
      (handleDisconnect env s p addr).map (viewAfter addr) := by
  unfold handleDisconnect
  cases p.readUInt64 with
  | none => rfl
  | some read =>
    have hfilter : (view addr s).players.filter (fun q => !authenticates read.1 addr q) =
        (view addr ⟨s.players.filter fun q => !authenticates read.1 addr q⟩).players := by
      simp only [view, List.filter_map, List.filter_filter, Function.comp_def]
      refine congrArg (List.map withoutID) (List.filter_congr fun q _ => ?_)
      exact Bool.and_comm _ _
    refine congrArg some ?_
    simp only [viewAfter]
    rw [hfilter, view_players]

theorem dispatch_view (packetType : Option NetworkPacketType) :
    (dispatch env (view addr s) packetType p addr).map (viewAfter addr) =
      (dispatch env s packetType p addr).map (viewAfter addr) := by
  unfold dispatch
  split
  · split
    · exact congrArg some (view_view s)
    · exact handleConnectionRequest_view
  · split
    · exact congrArg some (view_view s)
    · exact handleChallengeResponse_view
  · exact handleClockSync_view
  · exact handleGameState_view
  · exact handleDisconnect_view
  · exact congrArg some (view_view s)

/-- A turn for the address sees nothing but its view. -/
theorem executeGameTurn_view (env : Env) (s : State) (data : Datagram) (addr : Address) :
    (executeGameTurn env (view addr s) data addr).map (viewAfter addr) =
      (executeGameTurn env s data addr).map (viewAfter addr) := by
  simp only [executeGameTurn, Option.bind_eq_bind, Option.pure_def]
  split
  · exact congrArg some (view_view s)
  · rw [Option.map_bind, Option.map_bind]
    refine congrArg _ (funext fun read => ?_)
    simp only [Function.comp_def]
    split
    · exact congrArg some (view_view s)
    · rw [Option.map_bind, Option.map_bind]
      exact congrArg _ (funext fun packetType => dispatch_view packetType.1)

end Handlers

section Run

variable {addr} {s t s' t' : State}

theorem fromClient_iff {e : Event} : fromClient addr e = true ↔ e.clientAddr = addr :=
  isSameAddress_iff _ _

theorem unwinds (addr : Address) : Unwinds step (view addr) (fromClient addr) where
  other := by
    intro s e s' hother hstep
    have hne : addr ≠ e.clientAddr := by
      intro h
      rw [fromClient_iff.mpr h.symm] at hother
      cases hother
    rw [view, step_others hstep hne, view]
  own := by
    intro s t e hown hview
    have haddr := fromClient_iff.mp hown
    have hstep : ∀ s, (step s e).map (view addr) =
        (executeGameTurn e.env (view addr s) e.data addr).map (viewAfter addr) := by
      intro s
      rw [executeGameTurn_view, step, haddr, Option.map_map]
      rfl
    rw [hstep, hstep, hview]

/-- What the server keeps about an address is decided by the datagrams of the address. From
states with the same view, the run of these alone ends with the view of the whole run, and
so does every run in which the address sends the same. -/
theorem view_of_own_events {events : List Event} (hview : view addr s = view addr t)
    (hrun : run step s events = some s') :
    (∃ t', run step t (events.filter (fromClient addr)) = some t' ∧
        view addr t' = view addr s') ∧
      ∀ events' t', events'.filter (fromClient addr) = events.filter (fromClient addr) →
        run step t events' = some t' → view addr t' = view addr s' :=
  ⟨(unwinds addr).purge hview hrun, fun _ _ hown hrun' =>
    (unwinds addr).agree hview.symm hown hrun' hrun⟩

/-- A request of one client before that of another. -/
theorem view_of_own_events_request :
    let addr : Address := ⟨2, 1, 1⟩
    let events : List Event := [⟨{}, paddedMessage .connectionRequest 3, ⟨2, 2, 1⟩⟩,
      ⟨{ randomSalt := 6 }, paddedMessage .connectionRequest 5, addr⟩]
    ∃ s', run step {} events = some s' ∧
      (∃ t', run step {} (events.filter (fromClient addr)) = some t' ∧
          view addr t' = view addr s') ∧
        ∀ events' t', events'.filter (fromClient addr) = events.filter (fromClient addr) →
          run step {} events' = some t' → view addr t' = view addr s' := by
  intro addr events
  have hrun : run step {} events = some _ :=
    run_cons_eq_some.mpr ⟨_, step_paddedRequest {} {} 3 ⟨2, 2, 1⟩,
      (run_singleton _ _).trans (step_paddedRequest { randomSalt := 6 } _ 5 addr)⟩
  exact ⟨_, hrun, view_of_own_events rfl hrun⟩

end Run

end RocketGame.Noninterference
