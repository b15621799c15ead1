import RocketGame.ClientTurns
import RocketGame.IdleCounter
import RocketGame.ServerProgram

/-!
When the two ExecuteGame loops end for want of packets. Both count the five seconds that
pass without one, and a packet clears the count, but not the time from which the next
five seconds are measured. The loop stops with the count at 21: a hundred seconds have
then passed since the start and since the last packet.
-/
namespace RocketGame.IdleShutdown

open Client (Received)
open ClientSafety DatagramSafety IdleCounter NetworkUtilities Packets Runs Words

def interval : ℤ := 5000000000

def silence : ℤ := 100000000000

def observe (resets : Address → Datagram → Bool) (now : Int64) :
    Received → Option (Observation ℤ)
  | .timeout => some (.silence now.toInt)
  | .failure => none
  | .packet sender data => if resets sender data then some (.signal now.toInt) else none

theorem time_of_observe {resets : Address → Datagram → Bool} {now : Int64} {received : Received}
    {o : Observation ℤ} (h : observe resets now received = some o) : o.time = now.toInt := by
  cases received with
  | timeout =>
    obtain rfl := Option.some.inj h
    rfl
  | failure => cases h
  | packet sender data =>
    rw [observe] at h
    split at h
    · obtain rfl := Option.some.inj h
      rfl
    · cases h

/-- The truncated milliseconds of a wrapped difference are not more than has passed. -/
theorem interval_le {now idle : Int64} (hpassed : milliseconds (now - idle) ≥ 5000)
    (hle : idle.toInt ≤ now.toInt) : interval ≤ now.toInt - idle.toInt := by
  have hwhole : (5000 : Int64).toInt ≤ (milliseconds (now - idle)).toInt :=
    Int64.le_iff_toInt_le.mp hpassed
  have hquotient : (milliseconds (now - idle)).toInt = (now - idle).toInt.tdiv 1000000 :=
    Int64.toInt_div_of_ne_right _ _ (by decide)
  have hfive : (5000 : Int64).toInt = 5000 := by decide
  rw [hquotient, hfive] at hwhole
  have hpos : 0 ≤ (now - idle).toInt := by
    by_contra hneg
    have hnonneg : 0 ≤ (-(now - idle).toInt).tdiv 1000000 :=
      Int.tdiv_nonneg (by omega) (by omega)
    rw [Int.neg_tdiv] at hnonneg
    omega
  rw [Int.tdiv_eq_ediv_of_nonneg hpos] at hwhole
  calc interval ≤ (now - idle).toInt := by
        unfold interval
        omega
    _ ≤ now.toInt - idle.toInt := toInt_sub_le hle

theorem add_silence_le {time now : ℤ} {count : ℕ} (hlimit : 20 ≤ count)
    (h : time + count • interval ≤ now) : time + silence ≤ now := by
  rw [nsmul_eq_mul] at h
  unfold interval at h
  unfold silence
  omega

section Server

open ServerProgram

def serverCounter (loop : GameLoop) : Option (Counter ℤ) :=
  if loop.running then some ⟨loop.idleTime, loop.idle.toInt⟩ else none

def serverArrival (t : Turn) : ℤ := (t.env.clock 0).toInt

def serverHeard (_ : GameLoop) (t : Turn) : Option (Observation ℤ) :=
  observe (fun _ _ => true) (t.env.clock 0) t.received

theorem keeps_serverProgram : Keeps interval step serverCounter serverHeard serverArrival where
  timed := time_of_observe
  stepped := by
    rintro loop ⟨received, env⟩ loop' c' hstep hc'
    have hchange : Change loop received env loop' := receive_change hstep
    rw [serverCounter] at hc'
    split at hc'
    · obtain rfl := Option.some.inj hc'
      rename_i hrunning'
      cases hchange with
      | ended received env hended =>
        rw [hended] at hrunning'
        cases hrunning'
      | waited env => exact ⟨_, if_pos hrunning', fun _ => .waits _ _⟩
      | failed env => exact ⟨_, if_pos hrunning', fun _ => .unobserved _⟩
      | counted env hrunning hpassed =>
        exact ⟨_, if_pos hrunning, fun hle => .counts _ _ (interval_le hpassed hle)⟩
      | handled env clientAddr data o hrunning =>
        exact ⟨_, if_pos hrunning, fun _ => .clears _ _⟩
    · cases hc'

end Server

section Client

open ClientProgram
open ClockNetwork (IsResponse goesOn_startExchange receiveClockResponse_other)

structure ClientTurn where
  received : Received
  env : Client.Env := {}

def playTurn (physics : Client.PhysicsEngine) (c : Program) (t : ClientTurn) : Option Program :=
  step physics c (.receive t.received t.env)

def clientCounter (c : Program) : Option (Counter ℤ) :=
  match c.phase with
  | .playing loop => some ⟨loop.idleTime, loop.idle.toInt⟩
  | _ => none

/-- The readings before it are those of the update. -/
def clientArrival (t : ClientTurn) : ℤ := (t.env.clock 2).toInt

def fromServer (c : Program) (sender : Address) (data : Datagram) : Bool :=
  isSameAddress sender c.serverAddr && decide (ValidCRC data)

/-- A packet counts when it comes from the server and passes the CRC check. -/
def clientHeard (c : Program) (t : ClientTurn) : Option (Observation ℤ) :=
  observe (fromServer c) (t.env.clock 2) t.received

variable {physics : Client.PhysicsEngine} {env : Client.Env} {loop : GameLoop} {c c' : Program}
  {counter : Counter ℤ}

theorem clientCounter_of_not_playing (h : ∀ loop, c.phase ≠ .playing loop) :
    clientCounter c = none := by
  rw [clientCounter]
  split
  · rename_i loop hphase
    exact absurd hphase (h loop)
  · rfl

theorem fromServer_eq_true_iff {sender : Address} {data : Datagram} :
    fromServer c sender data = true ↔
      isSameAddress sender c.serverAddr = true ∧ ValidCRC data := by
  rw [fromServer, Bool.and_eq_true, decide_eq_true_eq]

theorem fromServer_serverAddr {data : Datagram} (h : ValidCRC data) :
    fromServer c c.serverAddr data = true :=
  fromServer_eq_true_iff.mpr ⟨(isSameAddress_iff _ _).mpr rfl, h⟩

/-- Only a packet from the server with a valid CRC clears the count. -/
theorem receiveGame_step {received : Received} (h : receiveGame env loop received c = some c')
    (hcounter : clientCounter c' = some counter) (hle : loop.idle.toInt ≤ (env.clock 0).toInt) :
    Counter.Step interval ⟨loop.idleTime, loop.idle.toInt⟩
      (observe (fromServer c) (env.clock 0) received) counter := by
  cases ClientTurns.hearing_of_receiveGame h with
  | gaveUp | ended => cases hcounter
  | waited hwait =>
    obtain rfl := Option.some.inj hcounter
    exact .waits _ _
  | counted hpassed hcount =>
    obtain rfl := Option.some.inj hcounter
    exact .counts _ _ (interval_le hpassed hle)
  | failed =>
    obtain rfl := Option.some.inj hcounter
    exact .unobserved _
  | discarded sender data hforeign =>
    obtain rfl := Option.some.inj hcounter
    rw [observe, if_neg (mt fromServer_eq_true_iff.mp hforeign)]
    exact .unobserved _
  | handled data o hreply ho =>
    obtain rfl := Option.some.inj hcounter
    rw [observe, if_pos (fromServer_serverAddr hreply.crc)]
    exact .clears _ _
  | ignored data hcrc htype =>
    obtain rfl := Option.some.inj hcounter
    rw [observe, if_pos (fromServer_serverAddr hcrc)]
    exact .clears _ _

theorem clientCounter_startExchange (env : Client.Env) (exchanges : ℕ)
    (clockOffsets roundTripTimes : List Int64) (c : Program) :
    clientCounter (startExchange env exchanges clockOffsets roundTripTimes c).program = none := by
  apply clientCounter_of_not_playing
  intro loop hphase
  rcases (goesOn_startExchange env exchanges clockOffsets roundTripTimes c).phase with
    ⟨⟨result, hreturned⟩, -⟩ | ⟨sync, hsyncing, -⟩
  · rw [hphase] at hreturned
    cases hreturned
  · rw [hphase] at hsyncing
    cases hsyncing

theorem clientCounter_receiveClockResponse {sync : ClockSync} {received : Received} {p : Progress}
    (h : receiveClockResponse env sync received c = some p) : clientCounter p.program = none := by
  by_cases hresponse : IsResponse c.serverAddr received
  · cases received with
    | timeout => exact hresponse.elim
    | failure => exact hresponse.elim
    | packet sender data =>
      simp only [receiveClockResponse, Option.bind_eq_bind, Option.pure_def] at h
      rcases expected_cases h with rfl | ⟨-, hread⟩
      · rfl
      · obtain ⟨_, -, hp⟩ := Option.bind_eq_some_iff.mp hread
        obtain rfl := Option.some.inj hp
        exact clientCounter_startExchange ..
  · rcases receiveClockResponse_other hresponse h with rfl | rfl
    · rfl
    · exact clientCounter_startExchange ..

theorem clientCounter_ofHandshake (c : Program) (h : Client.Handshake) :
    clientCounter (ofHandshake c h).program = none := by
  rw [clientCounter, ofHandshake]
  cases h.attempt <;> rfl

/-- A Receive of another call does not begin the game. -/
theorem clientCounter_of_receive_elsewhere {received : Received}
    (hphase : ∀ loop, c.phase ≠ .playing loop)
    (h : step physics c (.receive received env) = some c') : clientCounter c' = none := by
  obtain ⟨p, hp, rfl⟩ := Option.map_eq_some_iff.mp h
  dsimp only [progress] at hp
  split at hp
  · obtain rfl := Option.some.inj hp
    exact clientCounter_of_not_playing hphase
  · obtain rfl := Option.some.inj hp
    exact clientCounter_of_not_playing hphase
  · obtain ⟨handshake, -, rfl⟩ := Option.map_eq_some_iff.mp hp
    exact clientCounter_ofHandshake c handshake
  · obtain ⟨handshake, -, rfl⟩ := Option.map_eq_some_iff.mp hp
    exact clientCounter_ofHandshake c handshake
  · exact clientCounter_receiveClockResponse hp
  · rename_i loop hplaying
    exact absurd hplaying (hphase loop)

/-- The update before the Receive leaves the timer alone. -/
theorem updateGame_loop (physics : Client.PhysicsEngine) (env : Client.Env) (loop : GameLoop)
    (c : Program) :
    (updateGame physics env loop c).2.idleTime = loop.idleTime ∧
      (updateGame physics env loop c).2.idle = loop.idle := by
  unfold updateGame
  dsimp only
  split <;> exact ⟨rfl, rfl⟩

theorem receiveGame_of_playTurn {received : Received} (hphase : c.phase = .playing loop)
    (h : playTurn physics c ⟨received, env⟩ = some c') :
    receiveGame (later env 2) (updateGame physics env loop c).2 received
      (updateGame physics env loop c).1.program = some c' := by
  simp only [playTurn, step, progress, hphase, gameTurn] at h
  obtain ⟨p, hp, rfl⟩ := Option.map_eq_some_iff.mp h
  obtain ⟨c', hc', rfl⟩ := Option.map_eq_some_iff.mp hp
  exact hc'

theorem keeps_clientProgram :
    Keeps interval (playTurn physics) clientCounter clientHeard clientArrival where
  timed := time_of_observe
  stepped := by
    rintro c ⟨received, env⟩ c' counter hstep hcounter
    by_cases hphase : ∃ loop, c.phase = .playing loop
    · obtain ⟨loop, hphase⟩ := hphase
      refine ⟨⟨loop.idleTime, loop.idle.toInt⟩, by rw [clientCounter, hphase], fun hle => ?_⟩
      obtain ⟨hcount, hidle⟩ := updateGame_loop physics env loop c
      have haddr := (updateGame_kept physics env loop c).2
      have hturn := receiveGame_step (receiveGame_of_playTurn hphase hstep) hcounter
      rw [hcount, hidle] at hturn
      have hheard : clientHeard c ⟨received, env⟩ =
          observe (fromServer (updateGame physics env loop c).1.program) (env.clock 2)
            received := by
        unfold clientHeard fromServer
        rw [haddr]
      rw [hheard]
      exact hturn hle
    · rw [clientCounter_of_receive_elsewhere (not_exists.mp hphase) hstep] at hcounter
      cases hcounter

end Client

section Shutdown

/-- The server's loop gives up waiting. -/
def ServerGivesUp (loop : ServerProgram.GameLoop) (t : ServerProgram.Turn) : Prop :=
  loop.running = true ∧ t.received = .timeout ∧
    ∃ loop', ServerProgram.step loop t = some loop' ∧ loop'.running = false

def ClientGivesUp (physics : Client.PhysicsEngine) (c : ClientProgram.Program) (t : ClientTurn) :
    Prop :=
  (∃ loop, c.phase = .playing loop) ∧ t.received = .timeout ∧
    ∃ c' result, playTurn physics c t = some c' ∧ c'.phase = .returned result

theorem ServerGivesUp.counter {loop : ServerProgram.GameLoop} {t : ServerProgram.Turn}
    (h : ServerGivesUp loop t) :
    serverCounter loop = some ⟨loop.idleTime, loop.idle.toInt⟩ ∧ 20 ≤ loop.idleTime ∧
      (loop.idle.toInt ≤ serverArrival t → interval ≤ serverArrival t - loop.idle.toInt) := by
  obtain ⟨received, env⟩ := t
  obtain ⟨hrunning, rfl, loop', hstep, hstopped⟩ := h
  have hchange : ServerProgram.Change loop .timeout env loop' :=
    ServerProgram.receive_change hstep
  refine ⟨if_pos hrunning, ?_⟩
  cases hchange with
  | ended received env hended =>
    rw [hended] at hrunning
    cases hrunning
  | waited env =>
    rw [hstopped] at hrunning
    cases hrunning
  | counted env _ hpassed =>
    exact ⟨Nat.not_lt.mp (of_decide_eq_false hstopped), interval_le hpassed⟩

theorem ClientGivesUp.counter {physics : Client.PhysicsEngine} {c : ClientProgram.Program}
    {t : ClientTurn} (h : ClientGivesUp physics c t) :
    ∃ counter, clientCounter c = some counter ∧ 20 ≤ counter.count ∧
      (counter.mark ≤ clientArrival t → interval ≤ clientArrival t - counter.mark) := by
  obtain ⟨received, env⟩ := t
  obtain ⟨⟨loop, hphase⟩, rfl, c', result, hstep, hreturned⟩ := h
  refine ⟨⟨loop.idleTime, loop.idle.toInt⟩, by rw [clientCounter, hphase], ?_⟩
  have hreceive := receiveGame_of_playTurn hphase hstep
  obtain ⟨hcount, hidle⟩ := updateGame_loop physics env loop c
  cases ClientTurns.hearing_of_receiveGame hreceive with
  | waited | counted => cases hreturned
  | gaveUp hpassed hlimit =>
    rw [hidle] at hpassed
    rw [hcount] at hlimit
    exact ⟨Nat.lt_succ_iff.mp hlimit, interval_le hpassed⟩

/-- Either loop gives up only after a hundred seconds without a packet that counts. -/
theorem gives_up_after_silence :
    (∀ (env : Server.Env) (s : Server.State) (turns : List ServerProgram.Turn)
      (t : ServerProgram.Turn) (loop : ServerProgram.GameLoop),
      run ServerProgram.step (ServerProgram.executeGame env s) turns = some loop →
      NeverBack serverArrival (env.clock 0).toInt (turns ++ [t]) → ServerGivesUp loop t →
      ∀ time, StartOrSignal ServerProgram.step serverHeard (ServerProgram.executeGame env s)
        (env.clock 0).toInt turns time → time + silence ≤ serverArrival t) ∧
    ∀ (physics : Client.PhysicsEngine) (env : Client.Env) (c₀ : ClientProgram.Program)
      (turns : List ClientTurn) (t : ClientTurn) (c : ClientProgram.Program),
      run (playTurn physics) (ClientProgram.executeGame env c₀).program turns = some c →
      NeverBack clientArrival (env.clock 1).toInt (turns ++ [t]) → ClientGivesUp physics c t →
      ∀ time, StartOrSignal (playTurn physics) clientHeard
        (ClientProgram.executeGame env c₀).program (env.clock 1).toInt turns time →
        time + silence ≤ clientArrival t := by
  constructor
  · intro env s turns t loop hrun hclock hgivesUp time htime
    obtain ⟨hcounter, hlimit, hpassed⟩ := hgivesUp.counter
    have hsilence := keeps_serverProgram.silence rfl hrun hclock hcounter hpassed htime
    exact add_silence_le hlimit hsilence
  · intro physics env c₀ turns t c hrun hclock hgivesUp time htime
    obtain ⟨counter, hcounter, hlimit, hpassed⟩ := hgivesUp.counter
    have hsilence := keeps_clientProgram.silence rfl hrun hclock hcounter hpassed htime
    exact add_silence_le hlimit hsilence

def serverTurns : List ServerProgram.Turn :=
  ⟨.packet ⟨2, 1, 1⟩ [], { clock := fun _ => 4000000000 }⟩ ::
    (List.range 20).map fun k =>
      ⟨.timeout, { clock := fun _ => 5000000000 * (Int64.ofNat k + 1) }⟩

def clientTurns : List ClientTurn :=
  (List.range 20).map fun k =>
    ⟨.timeout, { clock := fun _ => 5000000000 * (Int64.ofNat k + 1), sendOk := false }⟩

theorem gives_up_after_silence_105 :
    4000000000 + silence ≤ serverArrival ⟨.timeout, { clock := fun _ => 105000000000 }⟩ ∧
      0 + silence ≤ clientArrival ⟨.timeout, { clock := fun _ => 105000000000 }⟩ := by
  constructor
  · have hsilence := gives_up_after_silence.1 {} {} serverTurns
      ⟨.timeout, { clock := fun _ => 105000000000 }⟩ ⟨{}, true, 20, 100000000000⟩ rfl (by decide)
      ⟨rfl, rfl, _, rfl, rfl⟩
    exact hsilence 4000000000 (Or.inr (Or.inl rfl))
  · have hsilence := gives_up_after_silence.2 .resting {} { serverAddr := ⟨2, 9, 3501⟩ }
      clientTurns ⟨.timeout, { clock := fun _ => 105000000000 }⟩ _ rfl (by decide)
      ⟨⟨_, rfl⟩, rfl, _, _, rfl, rfl⟩
    exact hsilence 0 (Or.inl rfl)

end Shutdown

end RocketGame.IdleShutdown
