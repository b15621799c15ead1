import RocketGame.Client

/-!
Rollback and replay of the snapshot history. The filter that should remove the
snapshots after the authoritative one removes that one as well, and the lookup
that follows searches what is left. It never finds anything, so the function
returns with a shortened history before any replay.
-/
namespace RocketGame.Rollback

open Client PlayerStates

variable {physics : PhysicsEngine} {c : State} {serverState : GameStateSnapshot}

/-- The snapshots older than the server's state are all that is left, whatever
the history was. -/
theorem rollbackAndReplay_eq (physics : PhysicsEngine) (c : State)
    (serverState : GameStateSnapshot) :
    rollbackAndReplay physics c serverState =
      { c with
        gameStateSnapshot :=
          c.gameStateSnapshot.filter fun state => !(state.seqNum ≥ serverState.seqNum) } := by
  have hnone : (c.gameStateSnapshot.filter fun state => !(state.seqNum ≥ serverState.seqNum)).find?
      (fun state => state.seqNum == serverState.seqNum) = none := by
    rw [List.find?_eq_none]
    intro state hstate heq
    obtain ⟨_, hkept⟩ := List.mem_filter.mp hstate
    rw [beq_iff_eq] at heq
    rw [heq] at hkept
    simp at hkept
  simp only [rollbackAndReplay, hnone]

/-- What rollback and replay is for, as a relation between the client before and after it. -/
structure Replayed (physics : PhysicsEngine) (serverState : GameStateSnapshot) (c c' : State) :
    Prop where
  seqNums : c'.gameStateSnapshot.map GameStateSnapshot.seqNum =
    c.gameStateSnapshot.map GameStateSnapshot.seqNum
  older : c'.gameStateSnapshot.filter (fun state => state.seqNum < serverState.seqNum) =
    c.gameStateSnapshot.filter fun state => state.seqNum < serverState.seqNum
  authoritative : ∀ state ∈ c'.gameStateSnapshot, state.seqNum = serverState.seqNum →
    state.players = authoritativePlayers physics serverState
  later : ∀ before previous state after,
    c'.gameStateSnapshot = before ++ previous :: state :: after →
    serverState.seqNum < state.seqNum → ∃ old ∈ c.gameStateSnapshot,
      old.seqNum = state.seqNum ∧ state.players = (replaySnapshot physics previous old).players
  pushed : ∀ last, c'.gameStateSnapshot.getLast? = some last →
    c'.incomingStates = (c.incomingStates.push last.players).2

/-- For every history with an entry for the server's state, that entry is lost
and nothing is replayed. -/
theorem rollbackAndReplay_never_replays
    (hentry : ∃ state ∈ c.gameStateSnapshot, state.seqNum = serverState.seqNum) :
    ¬ Replayed physics serverState c (rollbackAndReplay physics c serverState) := by
  obtain ⟨state, hmem, hseq⟩ := hentry
  intro h
  have hmap := h.seqNums
  rw [rollbackAndReplay_eq] at hmap
  have hin : serverState.seqNum ∈
      (c.gameStateSnapshot.filter fun state => !(state.seqNum ≥ serverState.seqNum)).map
        GameStateSnapshot.seqNum := by
    rw [hmap]
    exact List.mem_map.mpr ⟨state, hmem, hseq⟩
  obtain ⟨kept, hkept, hkeptSeq⟩ := List.mem_map.mp hin
  obtain ⟨_, hlt⟩ := List.mem_filter.mp hkept
  rw [hkeptSeq] at hlt
  simp at hlt

def twoSnapshots : State :=
  { serverAddr := ⟨2, 9, 3501⟩
    gameStateSnapshot := [{ seqNum := 1, players := [] }, { seqNum := 2, players := [] }] }

/-- The server's state is number 1. -/
theorem rollbackAndReplay_never_replays_first :
    ¬ Replayed .resting { seqNum := 1, players := [] } twoSnapshots
      (rollbackAndReplay .resting twoSnapshots { seqNum := 1, players := [] }) :=
  rollbackAndReplay_never_replays ⟨_, List.mem_cons_self .., rfl⟩

/-- Both snapshots are gone afterwards. -/
theorem rollback_loses_history :
    ¬ ∀ (physics : PhysicsEngine) (c : State) (serverState : GameStateSnapshot),
      (c.gameStateSnapshot.map GameStateSnapshot.seqNum).Pairwise (· < ·) →
      (∃ state ∈ c.gameStateSnapshot, state.seqNum = serverState.seqNum) →
      Replayed physics serverState c (rollbackAndReplay physics c serverState) := by
  intro h
  have hseqNums := (h .resting twoSnapshots { seqNum := 1, players := [] } (by decide)
    ⟨_, List.mem_cons_self .., rfl⟩).seqNums
  exact absurd hseqNums (by decide)

end RocketGame.Rollback
