import RocketGame.GameWindow

/-!
When the network thread of the windowed client ends. Nothing sets its stop token, so it
ends only by way of ExecuteGame, and there it gets only with an answer of the server.
While the server is silent it asks for a connection again and again, also when the
window has been closed, and whoever waits for the thread waits for ever.
-/
namespace RocketGame.WindowEnd

open Client ClientProgram ClientTurns DatagramSafety GameWindow HandshakeMessages
open NetworkUtilities Packets Runs
open ConnectionOutcome (Reply)

/-- No CHALLENGE of the server arrives; anything else may. -/
def Unanswered (server : Address) : GameWindow.Event → Prop
  | .receive received _ => ∀ data, ¬ Reply server .challenge received data
  | _ => True

def OnlyRequests (server : Address) (sent : List (Address × Datagram)) : Prop :=
  ∀ message ∈ sent, ∃ clientSalt,
    message = (server, paddedMessage .connectionRequest clientSalt)

structure Knocking (server : Address) (g : Game) : Prop where
  serverAddr : g.client.serverAddr = server
  stop : g.stopRequested = false
  attempt : (g.stage = .starting ∧ g.client.phase = .returned 0) ∨
    (g.stage = .connecting ∧ ∃ clientSalt,
      g.client.phase = .establishing (.awaitingChallenge clientSalt)) ∨
    (g.stage = .connecting ∧ ∃ result, result ≠ 0 ∧ g.client.phase = .returned result)
  unconnected : g.client.connectionState ≠ .connected
  frame : g.frame = .between
  players : g.scene.players = []
  sent : OnlyRequests server g.sent

/-- The thread has not ended; when its call has failed it makes the next one. -/
structure Restless (physics : PhysicsEngine) (server : Address) (g : Game) : Prop where
  stage : g.stage = .starting ∨ g.stage = .connecting
  players : g.scene.players = []
  sent : OnlyRequests server g.sent
  next : ∀ result, g.client.phase = .returned result → ∀ clientSalt env, env.sendOk = true →
    ∃ g', step physics g (.next clientSalt env) = some g' ∧
      g'.sent = g.sent ++ [(server, paddedMessage .connectionRequest clientSalt)]

section Steps

variable {physics : PhysicsEngine} {server : Address} {g g' : Game}

theorem knocking_start (server : Address) : Knocking server (start server) where
  serverAddr := rfl
  stop := rfl
  attempt := Or.inl ⟨rfl, rfl⟩
  unconnected := nofun
  frame := rfl
  players := rfl
  sent _ hmem := absurd hmem List.not_mem_nil

theorem Knocking.phase_ne (h : Knocking server g) (loop : GameLoop) :
    g.client.phase ≠ .playing loop := by
  rcases h.attempt with ⟨-, hp⟩ | ⟨-, _, hp⟩ | ⟨-, _, -, hp⟩ <;> rw [hp] <;> exact nofun

/-- Every call that begins is EstablishConnection. -/
theorem Knocking.goOn_eq (h : Knocking server g) {result : ℤ}
    (hphase : g.client.phase = .returned result) (clientSalt : UInt64) (env : Client.Env) :
    g.goOn result clientSalt env =
      g.call .connecting (establishConnection clientSalt env g.client) := by
  rcases h.attempt with ⟨hstage, -⟩ | ⟨-, clientSalt', hphase'⟩ | ⟨hstage, r, hr, hphase'⟩
  · rw [Game.goOn, hstage]
  · cases hphase.symm.trans hphase'
  · obtain rfl := Phase.returned.inj (hphase.symm.trans hphase')
    rw [Game.goOn, hstage]
    exact if_pos ⟨hr, h.stop⟩

theorem Knocking.establish (h : Knocking server g) (clientSalt : UInt64) (env : Client.Env) :
    Knocking server (g.call .connecting (establishConnection clientSalt env g.client)) where
  serverAddr := h.serverAddr
  stop := h.stop
  attempt := by
    have hphase := phase_establishConnection clientSalt env g.client
    split at hphase
    · exact Or.inr (Or.inl ⟨rfl, clientSalt, hphase⟩)
    · exact Or.inr (Or.inr ⟨rfl, 1, one_ne_zero, hphase⟩)
  unconnected := nofun
  frame := h.frame
  players := h.players
  sent := by
    intro message hmem
    rcases List.mem_append.mp hmem with hmem | hmem
    · exact h.sent message hmem
    · obtain ⟨-, rfl⟩ := mem_establishConnection hmem
      exact ⟨clientSalt, congrArg (·, _) h.serverAddr⟩

/-- A call that fails leaves the loop where it is. -/
theorem Knocking.fail (h : Knocking server g) (hstage : g.stage = .connecting) {state : State}
    (hstate : state = g.client.toState ∨ state = (disconnected g.client.toState).state) :
    Knocking server
      (g.receive { program := { g.client with toState := state, phase := .returned 1 } }) := by
  have hsent : OnlyRequests server (g.sent ++ []) := by
    rw [List.append_nil]
    exact h.sent
  rw [Game.receive, hstage]
  rcases hstate with rfl | rfl
  · exact ⟨h.serverAddr, h.stop, Or.inr (Or.inr ⟨rfl, 1, one_ne_zero, rfl⟩), h.unconnected,
      h.frame, h.players, hsent⟩
  · exact ⟨h.serverAddr, h.stop, Or.inr (Or.inr ⟨rfl, 1, one_ne_zero, rfl⟩), nofun,
      h.frame, h.players, hsent⟩

/-- Without a CHALLENGE a call can only fail. -/
theorem Knocking.receive (h : Knocking server g) {received : Received} {env : Client.Env}
    {p : Progress} (hunanswered : Unanswered server (.receive received env))
    (hpending : ∀ result, g.client.phase ≠ .returned result)
    (hmove : Move physics g.client (.receive received env) p) : Knocking server (g.receive p) := by
  have hwaiting : g.stage = .connecting ∧ ∃ clientSalt,
      g.client.phase = .establishing (.awaitingChallenge clientSalt) := by
    rcases h.attempt with ⟨-, hp⟩ | hwaiting | ⟨-, r, -, hp⟩
    · exact absurd hp (hpending 0)
    · exact hwaiting
    · exact absurd hp (hpending r)
  obtain ⟨hstage, clientSalt, hphase⟩ := hwaiting
  cases hmove with
  | ignored =>
    have hsent : OnlyRequests server (g.sent ++ []) := by
      rw [List.append_nil]
      exact h.sent
    rw [Game.receive, hstage]
    exact ⟨h.serverAddr, h.stop, Or.inr (Or.inl ⟨rfl, clientSalt, hphase⟩), h.unconnected,
      h.frame, h.players, hsent⟩
  | failed received env attempt state _ hstate => exact h.fail hstage hstate
  | challenged received env clientSalt' serverSalt data _ hreply =>
    exact absurd (h.serverAddr ▸ hreply) (hunanswered data)
  | accepted received env clientSalt' serverSalt data playerID hphase' =>
    cases hphase.symm.trans hphase'
  | synced received env sync p hphase' => cases hphase.symm.trans hphase'
  | played received env loop update c' hphase' => cases hphase.symm.trans hphase'

theorem Knocking.step (h : Knocking server g) {e : GameWindow.Event}
    (hunanswered : Unanswered server e) (hs : GameWindow.step physics g e = some g') :
    Knocking server g' := by
  cases e with
  | next clientSalt env =>
    dsimp only [GameWindow.step] at hs
    split at hs
    · next hphase =>
      obtain rfl := Option.some.inj hs
      rw [h.goOn_eq hphase]
      exact h.establish clientSalt env
    · obtain rfl := Option.some.inj hs
      exact h
  | receive received env =>
    dsimp only [GameWindow.step] at hs
    split at hs
    · obtain rfl := Option.some.inj hs
      exact h
    · next hpending =>
      obtain ⟨p, hp, rfl⟩ := Option.map_eq_some_iff.mp hs
      exact h.receive hunanswered hpending (move_of_progress physics hp)
  | update deltaTime keyboard =>
    dsimp only [GameWindow.step] at hs
    rw [h.frame] at hs
    obtain rfl := Option.some.inj hs
    rw [Game.beginUpdate, if_pos h.unconnected]
    exact { h with players := rfl }
  | continueUpdate =>
    dsimp only [GameWindow.step] at hs
    rw [h.frame] at hs
    cases hs
  | close =>
    dsimp only [GameWindow.step] at hs
    split at hs
    · next hphase => exact absurd hphase (h.phase_ne _)
    · obtain rfl := Option.some.inj hs
      exact { h with }

theorem Knocking.restless (h : Knocking server g) : Restless physics server g where
  stage := by
    rcases h.attempt with ⟨hs, -⟩ | ⟨hs, -⟩ | ⟨hs, -⟩
    · exact Or.inl hs
    · exact Or.inr hs
    · exact Or.inr hs
  players := h.players
  sent := h.sent
  next := by
    intro result hphase clientSalt env hsend
    refine ⟨_, by rw [GameWindow.step, hphase], ?_⟩
    rw [h.goOn_eq hphase]
    have hrequest : (establishConnection clientSalt env g.client).sent =
        [(server, paddedMessage .connectionRequest clientSalt)] := by
      simp only [establishConnection, ofHandshake, requestConnection, Client.send, hsend,
        if_true, h.serverAddr, toDatagram_connectionRequestPacket]
    exact congrArg (g.sent ++ ·) hrequest

end Steps

/-- Until the server answers, the network thread of the windowed client asks it for a
connection, call after call, and does nothing else; closing the window changes nothing
about that, so the thread is never there to be joined. -/
theorem always_restless (physics : PhysicsEngine) (server : Address)
    (events : List GameWindow.Event) (h : ∀ e ∈ events, Unanswered server e) :
    Always (GameWindow.step physics) (Restless physics server) (start server) events := by
  have hknocking : Always (GameWindow.step physics) (Knocking server) (start server) events :=
    always_of_step (knocking_start server) (fun _ _ _ hg he hs => hg.step he hs)
      (throughout_of_forall_mem h)
  exact hknocking.mono fun _ hg => hg.restless

/-- The window is closed during the first call, which times out; the second one begins. -/
theorem always_restless_closed :
    let server : Address := ⟨2, 1, 3501⟩
    let events : List GameWindow.Event := [.next 5 {}, .update 16 {}, .close,
      .receive (.packet ⟨2, 7, 7⟩ []) {}, .receive .timeout {}, .next 6 {}]
    Always (GameWindow.step .resting) (Restless .resting server) (start server) events := by
  intro server events
  refine always_restless .resting server events ?_
  simp only [events, List.forall_mem_cons, Unanswered, true_and]
  refine ⟨fun _ h => ?_, fun _ h => (nomatch h.received), fun _ h => absurd h List.not_mem_nil⟩
  exact absurd (Received.packet.inj h.received).1 (by decide)

end RocketGame.WindowEnd
