import RocketGame.Client

/-!
What the client predicts for its next snapshot. The loop of ClientSidePrediction
walks a list that is declared and never filled, so the new snapshot has no
players, whatever the previous one had.
-/
namespace RocketGame.ClientPrediction

open Client PlayerStates

variable (physics : PhysicsEngine)

/-- The players of a snapshot, one step on: the own player by the local keyboard,
every other by its own last one. -/
def advanced (c : State) (playerState : PlayerState) (previous : GameStateSnapshot) :
    List PlayerState :=
  previous.players.map fun player =>
    physics.simulatePlayer player
      (if player.playerID = c.playerID then playerState.keyboard else player.keyboard)
      (physics.toFloat playerState.deltaTime)

structure Predicts (c : State) (playerState : PlayerState) (seqNum : UInt64)
    (previous : GameStateSnapshot) (c' : State) : Prop where
  appended : ∃ snapshot, c'.gameStateSnapshot = c.gameStateSnapshot ++ [snapshot] ∧
    snapshot.seqNum = seqNum ∧ snapshot.players = advanced physics c playerState previous
  pushed : c'.incomingStates =
    (c.incomingStates.push (advanced physics c playerState previous)).2

/-- What is appended and pushed is a snapshot of nobody. -/
theorem clientSidePrediction_of_ne_nil {c : State} (h : c.gameStateSnapshot ≠ [])
    (playerState : PlayerState) (seqNum : UInt64) :
    clientSidePrediction physics c playerState seqNum =
      { c with
        gameStateSnapshot := c.gameStateSnapshot ++ [{ seqNum := seqNum, players := [] }]
        incomingStates := (c.incomingStates.push []).2 } := by
  have hnonempty : c.gameStateSnapshot.isEmpty = false := List.isEmpty_eq_false_iff.mpr h
  rw [clientSidePrediction, hnonempty, if_neg Bool.false_ne_true]
  rfl

theorem advanced_eq_nil_iff {c : State} {playerState : PlayerState}
    {previous : GameStateSnapshot} :
    advanced physics c playerState previous = [] ↔ previous.players = [] :=
  List.map_eq_nil_iff

/-- The prediction is right exactly when there is nobody to predict. -/
theorem predicts_iff (c : State) (playerState : PlayerState) (seqNum : UInt64)
    {previous : GameStateSnapshot} (hlast : c.gameStateSnapshot.getLast? = some previous) :
    Predicts physics c playerState seqNum previous
        (clientSidePrediction physics c playerState seqNum) ↔
      previous.players = [] := by
  have hne : c.gameStateSnapshot ≠ [] := by
    intro hnil
    rw [hnil] at hlast
    cases hlast
  rw [clientSidePrediction_of_ne_nil physics hne, ← advanced_eq_nil_iff physics]
  constructor
  · rintro ⟨⟨snapshot, happended, -, hplayers⟩, -⟩
    obtain rfl := List.singleton_inj.mp (List.append_cancel_left happended)
    exact hplayers.symm
  · intro hnobody
    exact ⟨⟨_, rfl, rfl, hnobody.symm⟩, by rw [hnobody]⟩

def alone : State :=
  { serverAddr := ⟨2, 9, 3501⟩, playerID := 1,
    gameStateSnapshot := [{ seqNum := 1, players := [{ playerID := 1 }] }] }

theorem predicts_iff_alone :
    Predicts .resting alone {} 2 { seqNum := 1, players := [{ playerID := 1 }] }
        (clientSidePrediction .resting alone {} 2) ↔
      ([{ playerID := 1 }] : List PlayerState) = [] :=
  predicts_iff .resting alone {} 2 rfl

/-- The one player vanishes from the prediction. -/
theorem player_vanishes :
    ¬ ∀ (physics : PhysicsEngine) (c : State) (playerState : PlayerState) (seqNum : UInt64)
      (previous : GameStateSnapshot), c.gameStateSnapshot.getLast? = some previous →
        Predicts physics c playerState seqNum previous
          (clientSidePrediction physics c playerState seqNum) := by
  intro h
  have hpushed := (h .resting alone {} 2 _ rfl).pushed
  exact absurd hpushed (by decide)

end RocketGame.ClientPrediction
