import RocketGame.ClientTurns
import RocketGame.SendHistory

/-!
The main function of the console client: EstablishConnection until it returns 0,
SyncClock until it returns 0, ExecuteGame, and QuitGame. A signal clears running,
which both loops look at only after a call that failed. The clock loop never goes
back to the handshake, so a client that has lost its connection there stays there.
-/
namespace RocketGame.ClientMain

open Client ClientProgram ClientTurns ClockNetwork DatagramSafety GameMessages HandshakeGating
open HandshakeMessages NetworkUtilities Packets PlayerTable Runs
open SendHistory (carries_gameMessage)
open Turns (clockResponseDatagram)

/-- Where main stands: before its first call, in one of its loops, in ExecuteGame, or done. -/
inductive Stage
  | starting | connecting | syncing | playing
  | ended (exitCode : ℤ)
  deriving DecidableEq, Repr

structure Main where
  client : Program
  stage : Stage := .starting
  running : Bool := true
  sent : List (Address × Datagram) := []
  deriving DecidableEq, Repr

def Main.call (m : Main) (stage : Stage) (p : Progress) : Main :=
  { m with client := p.program, stage := stage, sent := m.sent ++ p.sent }

def Main.goOn (m : Main) (result : ℤ) (clientSalt : UInt64) (env : Env) : Main :=
  match m.stage with
  | .starting => m.call .connecting (establishConnection clientSalt env m.client)
  | .connecting =>
      if result ≠ 0 ∧ m.running = true then
        m.call .connecting (establishConnection clientSalt env m.client)
      else m.call .syncing (syncClock env m.client)
  | .syncing =>
      if result ≠ 0 ∧ m.running = true then m.call .syncing (syncClock env m.client)
      else if m.running then m.call .playing (executeGame env m.client)
      else { m with stage := .ended 0 }
  | .playing =>
      if result ≠ 0 then { m with stage := .ended 1 }
      else m.call (.ended 0)
        { program := m.client, sent := quitGame env.sendOk m.client.toState }
  | .ended _ => m

/-- ExecuteGame clears running itself when it gives up or is told to end. -/
def Main.receive (m : Main) (p : Progress) : Main :=
  let m := m.call m.stage p
  match m.stage, p.program.phase with
  | .playing, .returned _ => { m with running := false }
  | _, _ => m

/-- main goes on with the salt it draws next, a Receive returns, or a signal arrives. -/
inductive Event
  | next (clientSalt : UInt64) (env : Env)
  | receive (received : Received) (env : Env)
  | signal

variable (physics : PhysicsEngine)

def step (m : Main) : Event → Option Main
  | .next clientSalt env => match m.client.phase with
    | .returned result => some (m.goOn result clientSalt env)
    | _ => some m
  | .receive received env => match m.client.phase with
    | .returned _ => some m
    | _ => (progress physics m.client (.receive received env)).map m.receive
  | .signal => match m.client.phase with
    | .playing _ => some { m.call m.stage (finish 0 m.client) with running := false }
    | _ => some { m with running := false }

structure InSession (c : Program) : Prop where
  connected : c.connectionState = .connected
  salt : c.connectionSalt ≠ 0

inductive Standing (c : Program) : Stage → Prop
  | starting (result : ℤ) (hphase : c.phase = .returned result) : Standing c .starting
  | connecting (attempt : Attempt) (hphase : c.phase = .establishing attempt) :
      Standing c .connecting
  | answered (result : ℤ) (hphase : c.phase = .returned result) : Standing c .connecting
  | syncing (sync : ClockSync) (hphase : c.phase = .syncing sync) (hsession : InSession c) :
      Standing c .syncing
  | synced (hphase : c.phase = .returned 0) (hsession : InSession c) : Standing c .syncing
  | unsynced (result : ℤ) (hphase : c.phase = .returned result) (hresult : result ≠ 0) :
      Standing c .syncing
  | playing (loop : GameLoop) (hphase : c.phase = .playing loop) (hsession : InSession c) :
      Standing c .playing
  | played (hphase : c.phase = .returned 0) (hsession : InSession c) : Standing c .playing
  | ended (result : ℤ) (hphase : c.phase = .returned result) : Standing c (.ended 0)

/-- Only ExecuteGame plays, and only in session. -/
theorem Standing.of_playing {c : Program} {stage : Stage} {loop : GameLoop}
    (h : Standing c stage) (hplaying : c.phase = .playing loop) :
    stage = .playing ∧ InSession c := by
  cases h with
  | playing loop' hphase hsession => exact ⟨rfl, hsession⟩
  | starting result hphase | answered result hphase | unsynced result hphase hresult
  | ended result hphase | connecting attempt hphase | syncing sync hphase hsession
  | synced hphase hsession | played hphase hsession => cases hplaying.symm.trans hphase

def PastHandshake : Stage → Prop
  | .starting | .connecting => False
  | _ => True

inductive Sound (m : Main) (data : Datagram) : Prop
  | handshake (htype : typeField data = some .connectionRequest ∨
      typeField data = some .challengeResponse)
  | session (hpast : PastHandshake m.stage) (hdata : saltField data = m.client.connectionSalt)
      (hsalt : m.client.connectionSalt ≠ 0)

structure Orderly (server : Address) (m : Main) : Prop where
  standing : Standing m.client m.stage
  shared : m.client.connectionState = .connected →
    m.client.connectionSalt = m.client.clientSalt ^^^ m.client.serverSalt
  serverAddr : m.client.serverAddr = server
  sent : ∀ message ∈ m.sent, message.1 = server ∧ Sound m message.2

variable {physics} {server : Address} {m m' : Main}

section Calls

theorem carries_farewellDatagram (salt : UInt64) :
    Carries (farewellDatagram salt) .disconnect salt := by
  have hcarries := carries_sealed .disconnect salt []
  rwa [List.append_nil] at hcarries

/-- A message of a call is one of the handshake, or carries the salt of the session. -/
theorem salt_of_message {c : Program} {e : ClientProgram.Event} {data : Datagram}
    (h : Message c e data) :
    typeField data = some .connectionRequest ∨ typeField data = some .challengeResponse ∨
      saltField data = c.connectionSalt := by
  cases h with
  | request clientSalt env he hsend => exact Or.inl (typeField_paddedMessage _ _)
  | response clientSalt serverSalt hphase => exact Or.inr (Or.inl (typeField_paddedMessage _ _))
  | clock sendNowEpoch =>
    exact Or.inr (Or.inr (saltField_of_carries (carries_clockDatagram _ _)))
  | frame h playerState hsalt =>
    exact Or.inr (Or.inr ((saltField_of_carries (carries_gameMessage _ _ _)).trans hsalt))

/-- A call, or a part of one, that fits the stage main is in after it. -/
theorem orderly_call {stage : Stage} {p : Progress} (h : Orderly server m)
    (hstanding : Standing p.program stage)
    (hshared : p.program.connectionState = .connected →
      p.program.connectionSalt = p.program.clientSalt ^^^ p.program.serverSalt)
    (haddr : p.program.serverAddr = server)
    (hkept : PastHandshake m.stage →
      PastHandshake stage ∧ p.program.connectionSalt = m.client.connectionSalt)
    (hsent : ∀ message ∈ p.sent, message.1 = server ∧ Sound (m.call stage p) message.2) :
    Orderly server (m.call stage p) := by
  refine ⟨hstanding, hshared, haddr, fun message hmem => ?_⟩
  rcases List.mem_append.mp hmem with hmem | hmem
  · obtain ⟨hto, hsound⟩ := h.sent message hmem
    refine ⟨hto, ?_⟩
    cases hsound with
    | handshake htype => exact .handshake htype
    | session hpast hdata hsalt =>
      obtain ⟨hpast', hsame⟩ := hkept hpast
      exact .session hpast' (hdata.trans hsame.symm) (hsame.symm ▸ hsalt)
  · exact hsent message hmem

/-- The last step of a call, or its first one, as a move of the program. -/
theorem orderly_move {stage : Stage} {e : ClientProgram.Event} {p : Progress}
    (h : Orderly server m) (hmove : Move physics m.client e p)
    (hstanding : Standing p.program stage)
    (hkept : PastHandshake m.stage →
      PastHandshake stage ∧ p.program.connectionSalt = m.client.connectionSalt)
    (hsession : ∀ message ∈ p.sent, typeField message.2 ≠ some .connectionRequest →
      typeField message.2 ≠ some .challengeResponse → PastHandshake stage ∧
        p.program.connectionSalt = m.client.connectionSalt ∧ m.client.connectionSalt ≠ 0) :
    Orderly server (m.call stage p) := by
  refine orderly_call h hstanding ?_ ((serverAddr_of_move physics hmove).trans h.serverAddr)
    hkept ?_
  · intro hconnected
    rcases connected_of_move physics hmove hconnected with hsame | ⟨-, hshared⟩
    · rw [hsame.connectionSalt, hsame.clientSalt, hsame.serverSalt]
      exact h.shared (hsame.connectionState.symm.trans hconnected)
    · exact hshared
  · intro message hmem
    obtain ⟨hto, hmessage⟩ := message_of_move physics hmove hmem
    refine ⟨hto.trans h.serverAddr, ?_⟩
    by_cases hrequest : typeField message.2 = some .connectionRequest
    · exact .handshake (Or.inl hrequest)
    by_cases hresponse : typeField message.2 = some .challengeResponse
    · exact .handshake (Or.inr hresponse)
    obtain ⟨hpast, hsame, hsalt⟩ := hsession message hmem hrequest hresponse
    have hdata := ((salt_of_message hmessage).resolve_left hrequest).resolve_left hresponse
    exact .session hpast (hdata.trans hsame.symm) (fun hzero => hsalt (hsame.symm.trans hzero))

end Calls

section Stages

/-- EstablishConnection up to its first Receive. -/
theorem orderly_establishConnection {result : ℤ} {clientSalt : UInt64} {env : Env}
    (h : Orderly server m) (hphase : m.client.phase = .returned result)
    (hstage : ¬ PastHandshake m.stage) :
    Orderly server (m.call .connecting (establishConnection clientSalt env m.client)) := by
  have hmove : Move .resting m.client _ _ := .requested clientSalt env result hphase
  refine orderly_move h hmove ?_ (fun hpast => absurd hpast hstage) ?_
  · unfold establishConnection ofHandshake requestConnection
    cases env.sendOk with
    | true => exact .connecting (.awaitingChallenge clientSalt) rfl
    | false => exact .answered 1 rfl
  · intro message hmem hrequest
    rw [(mem_establishConnection hmem).2] at hrequest
    exact absurd (typeField_paddedMessage _ _) hrequest

/-- A call that fails at once. -/
theorem orderly_failed (h : Orderly server m) :
    Orderly server (m.call .syncing (finish 1 m.client)) :=
  orderly_call h (.unsynced 1 rfl (by decide)) h.shared h.serverAddr
    (fun _ => ⟨True.intro, rfl⟩) (fun _ hmem => absurd hmem List.not_mem_nil)

/-- A part of SyncClock while the client is in session. -/
theorem orderly_synced {e : ClientProgram.Event} {p : Progress} (h : Orderly server m)
    (hmove : Move physics m.client e p) (hsynced : Synced m.client p)
    (hsession : InSession m.client) : Orderly server (m.call .syncing p) := by
  have hsame : p.program.connectionSalt = m.client.connectionSalt := by cases hsynced <;> rfl
  refine orderly_move h hmove ?_ (fun _ => ⟨True.intro, hsame⟩)
    (fun _ _ _ _ => ⟨True.intro, hsame, hsession.salt⟩)
  cases hsynced with
  | waits offset sync => exact .syncing sync rfl ⟨hsession.connected, hsession.salt⟩
  | averaged offset roundTripTimeMs => exact .synced rfl ⟨hsession.connected, hsession.salt⟩
  | failed offset => exact .unsynced 1 rfl (by decide)
  | lost offset => exact .unsynced 1 rfl (by decide)

theorem syncClock_of_inSession {env : Env} {c : Program} (h : InSession c) :
    syncClock env c = startExchange env 0 [] [] c := by
  rw [syncClock, if_neg (not_not.mpr h.connected), if_neg h.salt]

theorem syncClock_of_not {env : Env} {c : Program} (h : ¬ InSession c) :
    syncClock env c = finish 1 c := by
  unfold syncClock
  split
  · rfl
  · rename_i hconnected
    split
    · rfl
    · rename_i hsalt
      exact absurd ⟨not_not.mp hconnected, hsalt⟩ h

theorem orderly_syncClock {result : ℤ} {env : Env} (h : Orderly server m)
    (hphase : m.client.phase = .returned result) :
    Orderly server (m.call .syncing (syncClock env m.client)) := by
  by_cases hsession : InSession m.client
  · have hmove : Move .resting m.client (.syncClock env) _ :=
      move_of_syncClock .resting hphase
    rw [syncClock_of_inSession hsession] at hmove ⊢
    exact orderly_synced h hmove (synced_startExchange env 0 [] [] m.client) hsession
  · rw [syncClock_of_not hsession]
    exact orderly_failed h

/-- main between two calls. -/
theorem orderly_goOn {result : ℤ} (h : Orderly server m)
    (hphase : m.client.phase = .returned result) (clientSalt : UInt64) (env : Env) :
    Orderly server (m.goOn result clientSalt env) := by
  have hnothing : ∀ {P : Address × Datagram → Prop}, ∀ message ∈ ([] : List _), P message :=
    fun _ hmem => absurd hmem List.not_mem_nil
  have hstanding := h.standing
  cases hstage : m.stage with
  | starting =>
    simp only [Main.goOn, hstage]
    exact orderly_establishConnection h hphase (by rw [hstage]; exact not_false)
  | connecting =>
    simp only [Main.goOn, hstage]
    split
    · exact orderly_establishConnection h hphase (by rw [hstage]; exact not_false)
    · exact orderly_syncClock h hphase
  | syncing =>
    simp only [Main.goOn, hstage]
    split
    · exact orderly_syncClock h hphase
    · rename_i hdone
      split
      · rename_i hrunning
        obtain rfl : result = 0 := by
          by_contra hfailed
          exact hdone ⟨hfailed, hrunning⟩
        have hsession : InSession m.client := by
          rw [hstage] at hstanding
          cases hstanding with
          | syncing sync hphase' hsession => exact hsession
          | synced hphase' hsession => exact hsession
          | unsynced result hphase' hresult =>
            cases hphase.symm.trans hphase'
            exact absurd rfl hresult
        refine orderly_call h (.playing _ rfl ⟨hsession.connected, hsession.salt⟩) h.shared
          h.serverAddr (fun _ => ⟨True.intro, rfl⟩) hnothing
      · refine ⟨.ended result hphase, h.shared, h.serverAddr, fun message hmem => ?_⟩
        obtain ⟨hto, hsound⟩ := h.sent message hmem
        refine ⟨hto, ?_⟩
        cases hsound with
        | handshake htype => exact .handshake htype
        | session hpast hdata hsalt => exact .session True.intro hdata hsalt
  | playing =>
    rw [hstage] at hstanding
    cases hstanding with
    | playing loop hphase' hsession => cases hphase.symm.trans hphase'
    | played hphase' hsession =>
      cases hphase.symm.trans hphase'
      simp only [Main.goOn, hstage, ne_eq, not_true_eq_false, if_false]
      refine orderly_call h (.ended 0 hphase) h.shared h.serverAddr
        (fun _ => ⟨True.intro, rfl⟩) (fun message hmem => ?_)
      rw [mem_quitGame hmem]
      exact ⟨h.serverAddr, .session True.intro
        (saltField_of_carries (carries_farewellDatagram _)) hsession.salt⟩
  | ended exitCode =>
    simp only [Main.goOn, hstage]
    exact h

theorem orderly_running (h : Orderly server m) (running : Bool) :
    Orderly server { m with running := running } := by
  refine ⟨h.standing, h.shared, h.serverAddr, fun message hmem => ?_⟩
  obtain ⟨hto, hsound⟩ := h.sent message hmem
  refine ⟨hto, ?_⟩
  cases hsound with
  | handshake htype => exact .handshake htype
  | session hpast hdata hsalt => exact .session hpast hdata hsalt

/-- Nothing is received, or nothing that the call looks at. -/
theorem orderly_ignored (h : Orderly server m) :
    Orderly server (m.call m.stage { program := m.client }) :=
  orderly_call h h.standing h.shared h.serverAddr (fun hpast => ⟨hpast, rfl⟩)
    (fun _ hmem => absurd hmem List.not_mem_nil)

/-- A Receive of EstablishConnection. -/
theorem orderly_establishing {attempt : Attempt} {received : Received} {env : Env} {p : Progress}
    (h : Orderly server m) (hstage : m.stage = .connecting)
    (hphase : m.client.phase = .establishing attempt)
    (hmove : Move physics m.client (.receive received env) p) :
    Orderly server (m.call m.stage p) := by
  have hbefore : ¬ PastHandshake m.stage := by
    rw [hstage]
    exact not_false
  have hmove' := hmove
  rw [hstage]
  cases hmove with
  | ignored e =>
    rw [← hstage]
    exact orderly_ignored h
  | failed received env attempt state hphase' hstate =>
    exact orderly_move h hmove' (.answered 1 rfl) (fun hpast => absurd hpast hbefore)
      (fun _ hmem => absurd hmem List.not_mem_nil)
  | challenged received env clientSalt serverSalt data hphase' hreply hecho hserver =>
    refine orderly_move h hmove' (.connecting _ rfl) (fun hpast => absurd hpast hbefore) ?_
    intro message hmem _ hresponse
    rw [List.mem_singleton.mp hmem] at hresponse
    exact absurd (typeField_paddedMessage _ _) hresponse
  | accepted received env clientSalt serverSalt data playerID hphase' hreply =>
    exact orderly_move h hmove' (.answered 0 rfl) (fun hpast => absurd hpast hbefore)
      (fun _ hmem => absurd hmem List.not_mem_nil)
  | synced received env sync p hphase' hsynced => cases hphase.symm.trans hphase'
  | played received env loop update c' hphase' hupdate hheard => cases hphase.symm.trans hphase'

/-- A turn of ExecuteGame. -/
theorem orderly_playing {loop : GameLoop} {received : Received} {env : Env} {p : Progress}
    (h : Orderly server m) (hstage : m.stage = .playing)
    (hphase : m.client.phase = .playing loop) (hsession : InSession m.client)
    (hmove : Move physics m.client (.receive received env) p) :
    Orderly server (m.call m.stage p) := by
  have hmove' := hmove
  rw [hstage]
  cases hmove with
  | ignored e =>
    rw [← hstage]
    exact orderly_ignored h
  | played received env loop' update c' hphase' hupdate hheard =>
    have hupdated := sameSession_of_updated physics hupdate
    have hheard' := sameSession_of_heard hheard
    have hconnected := (hheard'.connectionState.trans hupdated.connectionState).trans
      hsession.connected
    have hsalt := hheard'.connectionSalt.trans hupdated.connectionSalt
    have hsession' : InSession c' := ⟨hconnected, hsalt ▸ hsession.salt⟩
    refine orderly_move h hmove' ?_ (fun _ => ⟨True.intro, hsalt⟩)
      (fun _ _ _ _ => ⟨True.intro, hsalt, hsession.salt⟩)
    cases hheard with
    | kept loop => exact .playing loop rfl hsession'
    | ended => exact .played rfl hsession'
    | handled loop data o hreply ho => exact .playing loop rfl hsession'
  | failed received env attempt state hphase' hstate => cases hphase.symm.trans hphase'
  | challenged received env clientSalt serverSalt data hphase' hreply hecho hserver =>
    cases hphase.symm.trans hphase'
  | accepted received env clientSalt serverSalt data playerID hphase' hreply =>
    cases hphase.symm.trans hphase'
  | synced received env sync p hphase' hsynced => cases hphase.symm.trans hphase'

/-- A Receive of the call in progress. -/
theorem orderly_received {received : Received} {env : Env} {p : Progress}
    (h : Orderly server m) (hbusy : ∀ result, m.client.phase ≠ .returned result)
    (hmove : Move physics m.client (.receive received env) p) :
    Orderly server (m.call m.stage p) := by
  have hstanding := h.standing
  generalize hstage : m.stage = stage at hstanding
  cases hstanding with
  | starting result hphase | answered result hphase | unsynced result hphase hresult
  | ended result hphase => exact absurd hphase (hbusy result)
  | synced hphase hsession | played hphase hsession => exact absurd hphase (hbusy 0)
  | connecting attempt hphase =>
    rw [← hstage]
    exact orderly_establishing h hstage hphase hmove
  | playing loop hphase hsession =>
    rw [← hstage]
    exact orderly_playing h hstage hphase hsession hmove
  | syncing sync hphase hsession =>
    have hmove' := hmove
    cases hmove with
    | ignored e =>
      rw [← hstage]
      exact orderly_ignored h
    | synced received env sync' p hphase' hsynced => exact orderly_synced h hmove' hsynced hsession
    | failed received env attempt state hphase' hstate => cases hphase.symm.trans hphase'
    | challenged received env clientSalt serverSalt data hphase' hreply hecho hserver =>
      cases hphase.symm.trans hphase'
    | accepted received env clientSalt serverSalt data playerID hphase' hreply =>
      cases hphase.symm.trans hphase'
    | played received env loop update c' hphase' hupdate hheard => cases hphase.symm.trans hphase'

theorem orderly_step {e : Event} (h : Orderly server m) (hstep : step physics m e = some m') :
    Orderly server m' := by
  cases e with
  | next clientSalt env =>
    dsimp only [step] at hstep
    split at hstep
    · rename_i result hphase
      obtain rfl := Option.some.inj hstep
      exact orderly_goOn h hphase clientSalt env
    · obtain rfl := Option.some.inj hstep
      exact h
  | receive received env =>
    dsimp only [step] at hstep
    split at hstep
    · obtain rfl := Option.some.inj hstep
      exact h
    · rename_i hbusy
      obtain ⟨p, hp, rfl⟩ := Option.map_eq_some_iff.mp hstep
      have hcall := orderly_received h hbusy (move_of_progress physics hp)
      unfold Main.receive
      dsimp only
      split
      · exact orderly_running hcall false
      · exact hcall
  | signal =>
    dsimp only [step] at hstep
    split at hstep
    · rename_i loop hphase
      obtain rfl := Option.some.inj hstep
      obtain ⟨hstage, hsession⟩ := h.standing.of_playing hphase
      rw [hstage]
      refine orderly_running (orderly_call h (.played rfl ?_) h.shared h.serverAddr
        (fun _ => ⟨True.intro, rfl⟩) (fun _ hmem => absurd hmem List.not_mem_nil)) false
      exact ⟨hsession.connected, hsession.salt⟩
    · obtain rfl := Option.some.inj hstep
      exact orderly_running h false

end Stages

/-- main behind Initialize, whose failure it answers with 1. -/
def start (server : Address) : Main where
  client := { serverAddr := server }

/-- What main may do, seen from outside. -/
structure Gated (server : Address) (m : Main) : Prop where
  playing : ∀ loop, m.client.phase = .playing loop → InSession m.client ∧
    m.client.connectionSalt = m.client.clientSalt ^^^ m.client.serverSalt
  receiver : ∀ message ∈ m.sent, message.1 = server
  session : ∀ message ∈ m.sent, typeField message.2 ≠ some .connectionRequest →
    typeField message.2 ≠ some .challengeResponse →
    saltField message.2 = m.client.connectionSalt ∧ m.client.connectionSalt ≠ 0
  exitCode : ∀ exitCode, m.stage = .ended exitCode → exitCode = 0

theorem Orderly.gated (h : Orderly server m) : Gated server m where
  playing := by
    intro loop hphase
    obtain ⟨-, hsession⟩ := h.standing.of_playing hphase
    exact ⟨hsession, h.shared hsession.connected⟩
  receiver := fun message hmem => (h.sent message hmem).1
  session := by
    intro message hmem hrequest hresponse
    cases (h.sent message hmem).2 with
    | handshake htype => exact absurd htype (not_or.mpr ⟨hrequest, hresponse⟩)
    | session hpast hdata hsalt => exact ⟨hdata, hsalt⟩
  exitCode := by
    intro exitCode hstage
    have hstanding := h.standing
    rw [hstage] at hstanding
    cases hstanding with
    | ended result hphase => rfl

/-- In every state of every run the game is played in session only, and what main sends
outside the handshake carries the one salt of its session. -/
theorem always_gated (physics : PhysicsEngine) (server : Address) (events : List Event) :
    Always (step physics) (Gated server) (start server) events := by
  have hstart : Orderly server (start server) :=
    ⟨.starting 0 rfl, nofun, rfl, fun _ hmem => absurd hmem List.not_mem_nil⟩
  exact (always_of_preserved hstart fun _ _ _ h hstep => orderly_step h hstep).mono
    fun _ h => h.gated

section Recovery

/-- One CLOCK_RESPONSE of the server, received by main in its second loop. -/
theorem step_response {sync : ClockSync} (physics : PhysicsEngine) (hstage : m.stage = .syncing)
    (hphase : m.client.phase = .syncing sync) :
    ∃ offset, step physics m
        (.receive (.packet m.client.serverAddr (clockResponseDatagram 0)) {}) =
      some (m.call .syncing (continueWith {} sync offset m.client)) := by
  refine ⟨sampleOffset sync.sendNowEpoch (milliseconds 0) 0, ?_⟩
  simp only [step, hphase, progress, receiveClockResponse_clockResponse, Option.map_some,
    Main.receive, hstage]
  rfl

/-- The responses still missing end SyncClock with 0. -/
theorem run_responses (physics : PhysicsEngine) (server : Address) (k : ℕ) {m : Main}
    {sync : ClockSync} (hstage : m.stage = .syncing) (hphase : m.client.phase = .syncing sync)
    (haddr : m.client.serverAddr = server) (hk : sync.exchanges + (k + 1) = clockExchanges) :
    ∃ m', run (step physics) m (List.replicate (k + 1)
        (.receive (.packet server (clockResponseDatagram 0)) {})) = some m' ∧
      m'.stage = .syncing ∧ m'.client.phase = .returned 0 ∧ m'.running = m.running := by
  induction k generalizing m sync with
  | zero =>
    obtain ⟨offset, hstep⟩ := step_response physics hstage hphase
    rw [haddr] at hstep
    refine ⟨_, (run_singleton _ _).trans hstep, rfl, ?_, rfl⟩
    have hoffsets : (sync.clockOffsets ++ [offset]).isEmpty = false := by
      rw [List.isEmpty_eq_false_iff]
      exact List.append_ne_nil_of_right_ne_nil _ (List.cons_ne_nil _ _)
    simp only [Main.call, continueWith, startExchange, hk, if_true, averageOffsets, hoffsets,
      Bool.false_eq_true, if_false]
    rfl
  | succ k ih =>
    obtain ⟨offset, hstep⟩ := step_response physics hstage hphase
    rw [haddr] at hstep
    have hmore : sync.exchanges + 1 ≠ clockExchanges := by omega
    let m₁ := m.call .syncing (continueWith {} sync offset m.client)
    let sync₁ : ClockSync :=
      { exchanges := sync.exchanges + 1
        sendNowEpoch := milliseconds 0
        startTime := 0
        clockOffsets := sync.clockOffsets ++ [offset]
        roundTripTimes := sync.roundTripTimes ++ [milliseconds 0 - sync.sendNowEpoch] }
    have hphase₁ : m₁.client.phase = .syncing sync₁ := by
      simp only [m₁, Main.call, continueWith, startExchange, hmore, if_false]
      rfl
    have haddr₁ : m₁.client.serverAddr = server := by
      simp only [m₁, Main.call, continueWith, startExchange, hmore, if_false]
      exact haddr
    have hk₁ : sync₁.exchanges + (k + 1) = clockExchanges := by
      simp only [sync₁]
      omega
    have hstage₁ : m₁.stage = .syncing := rfl
    obtain ⟨m', hrun, hm'⟩ := ih hstage₁ hphase₁ haddr₁ hk₁
    exact ⟨m', run_cons_eq_some.mpr ⟨_, hstep, hrun⟩, hm'⟩

structure Stranded (sent : List (Address × Datagram)) (m : Main) : Prop where
  sent : m.sent = sent
  stage : m.stage = .syncing ∨ ∃ exitCode, m.stage = .ended exitCode
  session : ¬ InSession m.client
  phase : ∃ result, m.client.phase = .returned result ∧ result ≠ 0

theorem stranded_step {sent : List (Address × Datagram)} {e : Event} (h : Stranded sent m)
    (hstep : step physics m e = some m') : Stranded sent m' := by
  obtain ⟨hsent, hstage, hsession, result, hphase, hresult⟩ := h
  cases e with
  | receive received env =>
    simp only [step, hphase] at hstep
    obtain rfl := Option.some.inj hstep
    exact ⟨hsent, hstage, hsession, result, hphase, hresult⟩
  | signal =>
    simp only [step, hphase] at hstep
    obtain rfl := Option.some.inj hstep
    exact ⟨hsent, hstage, hsession, result, hphase, hresult⟩
  | next clientSalt env =>
    simp only [step, hphase] at hstep
    obtain rfl := Option.some.inj hstep
    rcases hstage with hstage | ⟨exitCode, hstage⟩
    · simp only [Main.goOn, hstage, hresult, ne_eq, not_false_eq_true, true_and]
      split
      · rw [syncClock_of_not hsession]
        refine ⟨(List.append_nil _).trans hsent, Or.inl rfl, ?_, 1, rfl, by decide⟩
        exact fun h => hsession ⟨h.connected, h.salt⟩
      · exact ⟨hsent, Or.inr ⟨0, rfl⟩, hsession, result, hphase, hresult⟩
    · simp only [Main.goOn, hstage]
      exact ⟨hsent, Or.inr ⟨exitCode, hstage⟩, hsession, result, hphase, hresult⟩

/-- Only a signal ends the clock loop. -/
theorem looping_step {sent : List (Address × Datagram)} {e : Event} (h : Stranded sent m)
    (hstage : m.stage = .syncing) (hrunning : m.running = true) (he : e ≠ .signal)
    (hstep : step physics m e = some m') : m'.stage = .syncing ∧ m'.running = true := by
  obtain ⟨result, hphase, hresult⟩ := h.phase
  cases e with
  | receive received env =>
    simp only [step, hphase] at hstep
    obtain rfl := Option.some.inj hstep
    exact ⟨hstage, hrunning⟩
  | signal => exact absurd rfl he
  | next clientSalt env =>
    simp only [step, hphase, Main.goOn, hstage, hresult, hrunning, ne_eq, not_false_eq_true,
      and_self, if_true, Option.some.injEq] at hstep
    subst hstep
    exact ⟨rfl, hrunning⟩

/-- After a failed SyncClock main can still reach the game exactly when the client is in
session. Otherwise it calls SyncClock again and again until a signal, and never sends another
datagram. -/
theorem reaches_game_iff (physics : PhysicsEngine) {result : ℤ} (hstage : m.stage = .syncing)
    (hphase : m.client.phase = .returned result) (hresult : result ≠ 0)
    (hrunning : m.running = true) :
    ((∃ events m', run (step physics) m events = some m' ∧ m'.stage = .playing) ↔
        InSession m.client) ∧
      (¬ InSession m.client → ∀ events m', run (step physics) m events = some m' →
        m'.sent = m.sent ∧
          (.signal ∉ events → m'.stage = .syncing ∧ m'.running = true)) := by
  have hstranded : ¬ InSession m.client → ∀ events m', run (step physics) m events = some m' →
      Stranded m.sent m' := by
    intro hsession events m' hrun
    have hstart : Stranded m.sent m := ⟨rfl, Or.inl hstage, hsession, result, hphase, hresult⟩
    exact (always_of_preserved hstart fun _ _ _ h hstep => stranded_step h hstep).last hrun
  have hlooping : ¬ InSession m.client → ∀ events m', run (step physics) m events = some m' →
      .signal ∉ events → m'.stage = .syncing ∧ m'.running = true := by
    intro hsession events m' hrun hsignal
    have hquiet : Throughout (step physics) (fun _ e => e ≠ .signal) m events :=
      throughout_of_forall_mem fun e he heq => hsignal (heq ▸ he)
    have hstart : Stranded m.sent m := ⟨rfl, Or.inl hstage, hsession, result, hphase, hresult⟩
    exact (run_invariant (I := fun m' => Stranded m.sent m' ∧ m'.stage = .syncing ∧
      m'.running = true) ⟨hstart, hstage, hrunning⟩ (fun _ _ _ h he hstep =>
        ⟨stranded_step h.1 hstep, looping_step h.1 h.2.1 h.2.2 he hstep⟩) hquiet hrun).2
  refine ⟨⟨?_, ?_⟩, fun hsession events m' hrun =>
    ⟨(hstranded hsession events m' hrun).sent, hlooping hsession events m' hrun⟩⟩
  · rintro ⟨events, m', hrun, hplaying⟩
    by_contra hsession
    rcases (hstranded hsession events m' hrun).stage with h | ⟨exitCode, h⟩ <;>
      cases hplaying.symm.trans h
  · intro hsession
    have hcall : step physics m (.next 0 {}) =
        some (m.call .syncing (startExchange {} 0 [] [] m.client)) := by
      simp only [step, hphase, Main.goOn, hstage, hresult, hrunning, ne_eq, not_false_eq_true,
        and_self, if_true, syncClock_of_inSession hsession]
    let m₁ := m.call .syncing (startExchange {} 0 [] [] m.client)
    have hstage₁ : m₁.stage = .syncing := rfl
    have hphase₁ : m₁.client.phase = .syncing ⟨0, milliseconds 0, 0, [], []⟩ := rfl
    obtain ⟨m', hrun, hstage', hphase', hrunning'⟩ :=
      run_responses physics m.client.serverAddr 4 hstage₁ hphase₁ rfl rfl
    have hgame : step physics m' (.next 0 {}) =
        some (m'.call .playing (executeGame {} m'.client)) := by
      simp only [step, hphase', Main.goOn, hstage', hrunning'.trans hrunning, ne_eq,
        not_true_eq_false, false_and, if_false, if_true]
    refine ⟨.next 0 {} :: (List.replicate 5 (.receive (.packet m.client.serverAddr
      (clockResponseDatagram 0)) {}) ++ [.next 0 {}]),
      m'.call .playing (executeGame {} m'.client), ?_, rfl⟩
    exact run_cons_eq_some.mpr ⟨_, hcall,
      run_append hrun ((run_singleton _ _).trans hgame)⟩

/-- The first CLOCK after the handshake is not sent. -/
theorem reaches_game_iff_failed_send :
    let m : Main :=
      { client :=
          { serverAddr := ⟨2, 9, 3501⟩, connectionState := .connected, connectionSalt := 3,
            phase := .returned 0 }
        stage := .connecting }
    ∃ m', step .resting m (.next 0 { sendOk := false }) = some m' ∧
      ((∃ events m'', run (step .resting) m' events = some m'' ∧ m''.stage = .playing) ↔
          InSession m'.client) ∧
        (¬ InSession m'.client → ∀ events m'', run (step .resting) m' events = some m'' →
          m''.sent = m'.sent ∧
            (.signal ∉ events → m''.stage = .syncing ∧ m''.running = true)) :=
  ⟨_, rfl, reaches_game_iff .resting rfl rfl (by decide) rfl⟩

end Recovery

end RocketGame.ClientMain
