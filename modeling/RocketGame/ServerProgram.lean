import RocketGame.Client
import RocketGame.Runs

/-!
The loop of the server's ExecuteGame between its Receive calls, with the timer that ends
it when nothing arrives. A turn returns none when a read runs past the received bytes.
-/
namespace RocketGame.ServerProgram

open Client (Received)
open NetworkUtilities Packets Runs Server

structure GameLoop where
  server : State
  running : Bool := true
  idleTime : ℕ := 0
  idle : Int64
  deriving DecidableEq, Repr

structure Turn where
  received : Received
  env : Env := {}

def executeGame (env : Env) (s : State) : GameLoop where
  server := s
  idle := env.clock 0

def receive (received : Received) (env : Env) (loop : GameLoop) : Option GameLoop :=
  if !loop.running then some loop
  else match received with
  | .timeout =>
      let now := env.clock 0
      if milliseconds (now - loop.idle) ≥ 5000 then
        let loop := { loop with idle := now, idleTime := loop.idleTime + 1 }
        if loop.idleTime > 20 then some { loop with running := false }
        else some loop
      else some loop
  | .failure => some loop
  | .packet clientAddr data => do
      let loop := { loop with idleTime := 0 }
      let o ← executeGameTurn env loop.server data clientAddr
      return { loop with server := o.state }

def step (loop : GameLoop) (t : Turn) : Option GameLoop := receive t.received t.env loop

inductive Change (loop : GameLoop) : Received → Env → GameLoop → Prop
  | ended (received : Received) (env : Env) (hended : loop.running = false) :
      Change loop received env loop
  | waited (env : Env) : Change loop .timeout env loop
  | failed (env : Env) : Change loop .failure env loop
  | counted (env : Env) (hrunning : loop.running = true)
      (hpassed : milliseconds (env.clock 0 - loop.idle) ≥ 5000) :
      Change loop .timeout env
        { loop with
          running := decide (loop.idleTime < 20)
          idleTime := loop.idleTime + 1
          idle := env.clock 0 }
  | handled (env : Env) (clientAddr : Address) (data : Datagram) (o : Outcome)
      (hrunning : loop.running = true)
      (hserver : executeGameTurn env loop.server data clientAddr = some o) :
      Change loop (.packet clientAddr data) env { loop with server := o.state, idleTime := 0 }

theorem receive_change {received : Received} {env : Env} {loop loop' : GameLoop}
    (h : receive received env loop = some loop') : Change loop received env loop' := by
  by_cases hrunning : loop.running = true
  · simp only [receive, hrunning, Bool.not_true, Bool.false_eq_true, if_false] at h
    cases received with
    | timeout =>
      dsimp only at h
      by_cases hpassed : milliseconds (env.clock 0 - loop.idle) ≥ 5000
      · have hcounted := Change.counted env hrunning hpassed
        rw [if_pos hpassed] at h
        by_cases hlimit : loop.idleTime + 1 > 20
        · rw [if_pos hlimit] at h
          obtain rfl := Option.some.inj h
          rwa [decide_eq_false (by omega)] at hcounted
        · rw [if_neg hlimit] at h
          obtain rfl := Option.some.inj h
          rwa [decide_eq_true (by omega)] at hcounted
      · rw [if_neg hpassed] at h
        obtain rfl := Option.some.inj h
        exact .waited env
    | failure =>
      obtain rfl := Option.some.inj h
      exact .failed env
    | packet clientAddr data =>
      obtain ⟨o, ho, hloop⟩ := Option.bind_eq_some_iff.mp h
      obtain rfl := Option.some.inj hloop
      rw [← hrunning]
      exact .handled env clientAddr data o hrunning ho
  · rw [Bool.not_eq_true] at hrunning
    simp only [receive, hrunning, Bool.not_false, if_true] at h
    obtain rfl := Option.some.inj h
    exact .ended received env hrunning

/-- The loop only passes its datagrams on: what it reaches, the server reaches. -/
theorem reachable_server {env : Env} {s : State} {turns : List Turn} {loop : GameLoop}
    (h : run step (executeGame env s) turns = some loop) :
    Reachable Server.step s loop.server := by
  refine run_invariant (C := fun _ _ => True) (I := fun l => Reachable Server.step s l.server)
    (Reachable.refl s) ?_ (throughout_of_forall_mem fun _ _ => True.intro) h
  rintro l ⟨received, env⟩ l' hl _ hstep
  have hchange : Change l received env l' := receive_change hstep
  cases hchange with
  | ended | waited | failed | counted => exact hl
  | handled env clientAddr data o hrunning ho =>
    have hserver : Server.step l.server ⟨env, data, clientAddr⟩ = some o.state := by
      rw [Server.step, ho, Option.map_some]
    exact hl.tail hserver

end RocketGame.ServerProgram
