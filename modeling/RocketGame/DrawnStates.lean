import RocketGame.InputOrder

/-!
What the window draws. The snapshot history of the client starts empty and a prediction
from an empty history adds nothing to it, so nothing the client computes itself is ever
shown: the states drawn are the player lists of the GAME_STATE datagrams of the server that
carry the salt of the session, each shown once at most, in the order of their arrival.
-/
namespace RocketGame.DrawnStates

open Client ClientProgram ClientTurns DatagramSafety GameWindow InputOrder
open NetworkUtilities Packets PlayerStates PlayerTable Runs
open ConnectionOutcome (Reply)
open NetworkPacket (ofBytes)

def playersField (data : Datagram) : Option (List PlayerState) :=
  ((ofBytes data).advance 21).deserializePlayerStates.map Prod.fst

def carried (server : Address) (connectionSalt : UInt64) :
    GameWindow.Event → Option (List PlayerState)
  | .receive (.packet sender data) _ =>
      if sender = server ∧ ValidCRC data ∧ typeField data = some .gameState ∧
        saltField data = connectionSalt then playersField data
      else none
  | _ => none

/-- The lists of a run. -/
def received (server : Address) (g : Game) (events : List GameWindow.Event) :
    List (List PlayerState) :=
  events.filterMap (carried server g.client.connectionSalt)

inductive Incoming (c : State) (r : Received) (incomingStates : NetworkQueue (List PlayerState)) :
    Prop
  | kept (h : incomingStates = c.incomingStates)
  | pushed (data : Datagram) (players : List PlayerState)
      (hreply : Reply c.serverAddr .gameState r data)
      (hsalt : saltField data = c.connectionSalt) (hplayers : playersField data = some players)
      (h : incomingStates = (c.incomingStates.push players).2)

section Calls

variable {physics : PhysicsEngine} {env : Client.Env}

theorem incoming_handleGameState {c : State} {r : Received} {data : Datagram} {o : Outcome}
    (hreply : Reply c.serverAddr .gameState r data)
    (ho : handleGameState env c ((ofBytes data).advance 5) = some o) :
    Incoming c r o.state.incomingStates := by
  have hfive := ConnectionOutcome.five_le_of_typeField hreply.type
  obtain ⟨⟨salt, p₁⟩, hsalt, ho⟩ := Option.bind_eq_some_iff.mp ho
  obtain ⟨hthirteen, rfl⟩ := NetworkPacket.reads_readUInt64.eq_advance hfive hsalt
  have hfield : saltField data = salt := by
    have hread := (readUInt64_saltField hthirteen).symm.trans hsalt
    exact (Prod.mk.inj (Option.some.inj hread)).1
  dsimp only at ho
  split at ho
  · obtain rfl := Option.some.inj ho
    exact .kept rfl
  · next hsame =>
    obtain ⟨⟨seqNum, p₂⟩, hseq, ho⟩ := Option.bind_eq_some_iff.mp ho
    obtain ⟨hfifteen, rfl⟩ := NetworkPacket.reads_readInt16.eq_advance hthirteen hseq
    obtain ⟨⟨ack, p₃⟩, hack, ho⟩ := Option.bind_eq_some_iff.mp ho
    obtain ⟨hseventeen, rfl⟩ := NetworkPacket.reads_readInt16.eq_advance hfifteen hack
    obtain ⟨⟨ackBits, p₄⟩, hbits, ho⟩ := Option.bind_eq_some_iff.mp ho
    obtain ⟨-, rfl⟩ := NetworkPacket.reads_readInt32.eq_advance hseventeen hbits
    obtain ⟨⟨players, p₅⟩, hplayers, ho⟩ := Option.bind_eq_some_iff.mp ho
    obtain rfl := Option.some.inj ho
    refine .pushed data players hreply ?_ ?_ rfl
    · exact hfield.trans (not_not.mp hsame).symm
    · exact congrArg (Option.map Prod.fst) hplayers

/-- Without snapshots nothing is predicted, and nothing pushed for the window. -/
theorem unpredicted_updated {c : Program} {p : Progress} (h : Updated physics env c p)
    (hempty : c.gameStateSnapshot = []) : p.program.gameStateSnapshot = [] ∧
      p.program.incomingStates = c.incomingStates ∧
        p.program.connectionSalt = c.connectionSalt ∧ p.program.serverAddr = c.serverAddr := by
  cases h with
  | early => exact ⟨hempty, rfl, rfl, rfl⟩
  | due =>
    unfold sendGameState
    split
    · exact ⟨hempty, rfl, rfl, rfl⟩
    · simp only [clientSidePrediction, hempty, List.isEmpty_nil, if_true, and_self]

theorem unpredicted_heard {c c' : Program} {r : Received} (h : Heard env r c c')
    (hempty : c.gameStateSnapshot = []) : c'.gameStateSnapshot = [] ∧
      Incoming c.toState r c'.incomingStates ∧ c'.connectionSalt = c.connectionSalt := by
  cases h with
  | kept | ended => exact ⟨hempty, .kept rfl, rfl⟩
  | handled loop data o hreply ho =>
    obtain ⟨_, _, _, hstate⟩ := handleGameState_changes ho
    have hsnapshots := congrArg State.gameStateSnapshot hstate
    have hsalt := congrArg State.connectionSalt hstate
    exact ⟨hsnapshots.trans hempty, incoming_handleGameState hreply ho, hsalt⟩

end Calls

def Stage.early : GameWindow.Stage → Prop
  | .starting | .connecting | .syncing => True
  | .playing | .returned => False

def Fits (stage : GameWindow.Stage) : Phase → Prop
  | .establishing _ => stage = .connecting
  | .syncing _ => stage = .syncing
  | .playing _ => stage = .playing
  | .returned _ => True

structure Tracked (server : Address) (events : List GameWindow.Event) (g : Game) : Prop where
  serverAddr : g.client.serverAddr = server
  unpredicted : g.client.gameStateSnapshot = []
  fits : Fits g.stage g.client.phase
  nothing : Stage.early g.stage → g.pushed = []
  carried : g.pushed.Sublist (received server g events)

section Steps

variable {physics : PhysicsEngine} {server : Address} {events : List GameWindow.Event}
  {g g' : Game} {p : Progress}

theorem tracked_start (server : Address) : Tracked server [] (start server) where
  serverAddr := rfl
  unpredicted := rfl
  fits := trivial
  nothing _ := rfl
  carried := List.Sublist.refl _

theorem Tracked.of_kept (h : Tracked server events g) (hclient : g'.client = g.client)
    (hstage : g'.stage = g.stage) (hpushed : g'.pushed = g.pushed) :
    Tracked server events g' where
  serverAddr := hclient ▸ h.serverAddr
  unpredicted := hclient ▸ h.unpredicted
  fits := hclient ▸ hstage ▸ h.fits
  nothing hearly := hpushed.trans (h.nothing (hstage ▸ hearly))
  carried := by
    rw [hpushed, received, hclient]
    exact h.carried

/-- A step that pushes nothing and keeps the session, or one before the game. -/
theorem Tracked.quiet (h : Tracked server events g) (e : GameWindow.Event)
    (haddr : g'.client.serverAddr = g.client.serverAddr)
    (hunpredicted : g'.client.gameStateSnapshot = []) (hfits : Fits g'.stage g'.client.phase)
    (hpushed : g'.pushed = g.pushed) (hearly : Stage.early g'.stage → Stage.early g.stage)
    (hsalt : g'.client.connectionSalt = g.client.connectionSalt ∨ Stage.early g.stage) :
    Tracked server (events ++ [e]) g' where
  serverAddr := haddr.trans h.serverAddr
  unpredicted := hunpredicted
  fits := hfits
  nothing hstage := hpushed.trans (h.nothing (hearly hstage))
  carried := by
    rw [hpushed]
    rcases hsalt with hsalt | hstage
    · rw [received, hsalt, List.filterMap_append]
      exact h.carried.trans (List.sublist_append_left _ _)
    · rw [h.nothing hstage]
      exact List.nil_sublist _

theorem pushed_call (stage : GameWindow.Stage)
    (h : p.program.incomingStates = g.client.incomingStates) :
    (g.call stage p).pushed = g.pushed := by
  rw [Game.call, h, List.drop_length, List.append_nil]

/-- A call that pushes nothing. -/
theorem Tracked.call (h : Tracked server events g) (e : GameWindow.Event) (stage : GameWindow.Stage)
    (haddr : p.program.serverAddr = g.client.serverAddr)
    (hunpredicted : p.program.gameStateSnapshot = []) (hfits : Fits stage p.program.phase)
    (hincoming : p.program.incomingStates = g.client.incomingStates)
    (hearly : Stage.early stage → Stage.early g.stage)
    (hsalt : p.program.connectionSalt = g.client.connectionSalt ∨ Stage.early g.stage) :
    Tracked server (events ++ [e]) (g.call stage p) :=
  h.quiet e haddr hunpredicted hfits (pushed_call stage hincoming) hearly hsalt

theorem Tracked.establish (h : Tracked server events g) (e : GameWindow.Event)
    (hearly : Stage.early g.stage) (clientSalt : UInt64) (env : Client.Env) :
    Tracked server (events ++ [e])
      (g.call .connecting (establishConnection clientSalt env g.client)) := by
  refine h.call e .connecting rfl h.unpredicted ?_ rfl (fun _ => hearly) (Or.inr hearly)
  rw [phase_establishConnection]
  split
  · exact rfl
  · exact trivial

theorem Tracked.synced (h : Tracked server events g) (e : GameWindow.Event)
    (hearly : Stage.early g.stage) (hsynced : Synced g.client p) :
    Tracked server (events ++ [e]) (g.call .syncing p) := by
  cases hsynced with
  | waits offset sync =>
    exact h.call e .syncing rfl h.unpredicted rfl rfl (fun _ => hearly) (Or.inr hearly)
  | averaged | failed | lost =>
    exact h.call e .syncing rfl h.unpredicted trivial rfl (fun _ => hearly) (Or.inr hearly)

theorem Tracked.sync (h : Tracked server events g) (e : GameWindow.Event)
    (hearly : Stage.early g.stage) {result : ℤ} (hphase : g.client.phase = .returned result)
    (env : Client.Env) :
    Tracked server (events ++ [e]) (g.call .syncing (syncClock env g.client)) := by
  generalize hp : syncClock env g.client = p
  have hmove : Move .resting g.client (.syncClock env) p := hp ▸ move_of_syncClock .resting hphase
  cases hmove with
  | ignored =>
    have hfits : Fits .syncing g.client.phase := hphase ▸ trivial
    exact h.call e .syncing rfl h.unpredicted hfits rfl (fun _ => hearly) (Or.inr hearly)
  | refused =>
    exact h.call e .syncing rfl h.unpredicted trivial rfl (fun _ => hearly) (Or.inr hearly)
  | started env result p _ _ _ hsynced => exact h.synced e hearly hsynced

theorem Tracked.goOn (h : Tracked server events g) (e : GameWindow.Event) {result : ℤ}
    (hphase : g.client.phase = .returned result) (clientSalt : UInt64) (env : Client.Env) :
    Tracked server (events ++ [e]) (g.goOn result clientSalt env) := by
  have hkept : ∀ {stage}, Fits stage g.client.phase := hphase ▸ trivial
  unfold Game.goOn
  split
  · next hstage => exact h.establish e (hstage ▸ trivial) clientSalt env
  · next hstage =>
    have hearly : Stage.early g.stage := hstage ▸ trivial
    split
    · exact h.establish e hearly clientSalt env
    · exact h.sync e hearly hphase env
  · next hstage =>
    have hearly : Stage.early g.stage := hstage ▸ trivial
    split
    · exact h.sync e hearly hphase env
    · split
      · unfold Game.executeGame
        split
        · exact h.call e .playing rfl h.unpredicted rfl rfl nofun (Or.inl rfl)
        · exact h.call e .playing rfl h.unpredicted trivial rfl nofun (Or.inl rfl)
      · exact h.quiet e rfl h.unpredicted hkept rfl nofun (Or.inl rfl)
  · split
    · exact h.quiet e rfl h.unpredicted hkept rfl nofun (Or.inl rfl)
    · exact h.call e .returned rfl h.unpredicted hkept rfl nofun (Or.inl rfl)
  · exact h.quiet e rfl h.unpredicted hkept rfl id (Or.inl rfl)

/-- What a push adds, unless the queue is full. -/
theorem pushed_call_push {players : List PlayerState} (stage : GameWindow.Stage)
    (h : p.program.incomingStates = (g.client.incomingStates.push players).2) :
    (g.call stage p).pushed = g.pushed ∨ (g.call stage p).pushed = g.pushed ++ [players] := by
  unfold Game.call
  dsimp only
  rw [h, NetworkQueue.push]
  split
  · exact Or.inl (by rw [List.drop_length, List.append_nil])
  · exact Or.inr (congrArg (g.pushed ++ ·) List.drop_left)

/-- A turn of the game pushes at most the list of the datagram it received. -/
theorem Tracked.play (h : Tracked server events g) {r : Received} {env : Client.Env}
    {loop : GameLoop} {update : Progress} {c' : Program}
    (hphase : g.client.phase = .playing loop) (hupdate : Updated physics env g.client update)
    (hheard : Heard (later env 2) r update.program c') :
    Tracked server (events ++ [.receive r env])
      (g.call g.stage { program := c', sent := update.sent }) := by
  have hstage : g.stage = .playing := by
    have hfits := h.fits
    rwa [hphase] at hfits
  have hlate : ¬ Stage.early g.stage := hstage ▸ id
  obtain ⟨hempty, hqueue, hsalt, haddr⟩ := unpredicted_updated hupdate h.unpredicted
  obtain ⟨hunpredicted, hincoming, hsalt'⟩ := unpredicted_heard hheard hempty
  have haddr' : c'.serverAddr = g.client.serverAddr := by
    have hmove : Move physics g.client (.receive r env) { program := c', sent := update.sent } :=
      .played r env loop update c' hphase hupdate hheard
    exact serverAddr_of_move physics hmove
  have hfits : Fits g.stage c'.phase := by
    cases hheard with
    | kept | handled => exact hstage
    | ended => exact trivial
  have hsalt : c'.connectionSalt = g.client.connectionSalt := hsalt'.trans hsalt
  cases hincoming with
  | kept hkept =>
    exact h.call _ g.stage haddr' hunpredicted hfits (hkept.trans hqueue) id (Or.inl hsalt)
  | pushed data players hreply hfield hplayers hpush =>
    rw [hqueue] at hpush
    have hcarried : DrawnStates.carried server c'.connectionSalt (.receive r env) =
        some players := by
      rw [hreply.received, DrawnStates.carried, if_pos, hplayers]
      exact ⟨haddr.trans h.serverAddr, hreply.crc, hreply.type, hfield.trans hsalt'.symm⟩
    refine ⟨haddr'.trans h.serverAddr, hunpredicted, hfits, fun hearly => absurd hearly hlate, ?_⟩
    have hreceived : received server (g.call g.stage { program := c', sent := update.sent })
        (events ++ [.receive r env]) = received server g events ++ [players] := by
      rw [received, List.filterMap_append]
      congr 1
      · rw [received]
        exact congrArg (fun salt => events.filterMap (DrawnStates.carried server salt)) hsalt
      · exact List.filterMap_cons_some hcarried
    rw [hreceived]
    rcases pushed_call_push (p := { program := c', sent := update.sent }) g.stage hpush
      with hsame | hmore
    · rw [hsame]
      exact h.carried.trans (List.sublist_append_left _ _)
    · rw [hmore]
      exact h.carried.append (List.Sublist.refl _)

theorem Tracked.receive (h : Tracked server events g) {r : Received} {env : Client.Env}
    (hmove : Move physics g.client (.receive r env) p) :
    Tracked server (events ++ [.receive r env]) (g.call g.stage p) := by
  have hfits := h.fits
  cases hmove with
  | ignored => exact h.call _ g.stage rfl h.unpredicted h.fits rfl id (Or.inl rfl)
  | failed r env attempt state hphase hstate =>
    rw [hphase] at hfits
    have hearly : Stage.early g.stage := hfits ▸ trivial
    rcases hstate with rfl | rfl
    · exact h.call _ g.stage rfl h.unpredicted trivial rfl id (Or.inr hearly)
    · exact h.call _ g.stage rfl h.unpredicted trivial rfl id (Or.inr hearly)
  | challenged r env clientSalt serverSalt data hphase =>
    rw [hphase] at hfits
    exact h.call _ g.stage rfl h.unpredicted hfits rfl id (Or.inl rfl)
  | accepted r env clientSalt serverSalt data playerID hphase =>
    rw [hphase] at hfits
    exact h.call _ g.stage rfl h.unpredicted trivial rfl id (Or.inr (hfits ▸ trivial))
  | synced r env sync p hphase hsynced =>
    rw [hphase] at hfits
    replace hfits : g.stage = .syncing := hfits
    have hearly : Stage.early g.stage := hfits ▸ trivial
    rw [hfits]
    exact h.synced _ hearly hsynced
  | played r env loop update c' hphase hupdate hheard => exact h.play hphase hupdate hheard

theorem Tracked.step (h : Tracked server events g) {e : GameWindow.Event}
    (hs : GameWindow.step physics g e = some g') : Tracked server (events ++ [e]) g' := by
  have hsame : Tracked server (events ++ [e]) g :=
    h.quiet e rfl h.unpredicted h.fits rfl id (Or.inl rfl)
  cases e with
  | next clientSalt env =>
    dsimp only [GameWindow.step] at hs
    split at hs
    · next hphase =>
      obtain rfl := Option.some.inj hs
      exact h.goOn _ hphase clientSalt env
    · obtain rfl := Option.some.inj hs
      exact hsame
  | receive r env =>
    dsimp only [GameWindow.step] at hs
    split at hs
    · obtain rfl := Option.some.inj hs
      exact hsame
    · obtain ⟨p, hp, rfl⟩ := Option.map_eq_some_iff.mp hs
      have hcall := h.receive (move_of_progress physics hp)
      unfold Game.receive
      dsimp only
      split
      · exact hcall.of_kept rfl rfl rfl
      · exact hcall
  | update deltaTime keyboard =>
    dsimp only [GameWindow.step] at hs
    split at hs
    · obtain rfl := Option.some.inj hs
      unfold Game.beginUpdate
      split
      · exact h.quiet _ rfl h.unpredicted h.fits rfl id (Or.inl rfl)
      · exact h.quiet _ rfl h.unpredicted h.fits rfl id (Or.inl rfl)
    · cases hs
  | continueUpdate =>
    dsimp only [GameWindow.step] at hs
    split at hs
    · cases hs
    · obtain rfl := Option.some.inj hs
      exact h.quiet _ rfl h.unpredicted h.fits rfl id (Or.inl rfl)
    · obtain rfl := Option.some.inj hs
      unfold Game.popState
      split
      · exact h.quiet _ rfl h.unpredicted h.fits rfl id (Or.inl rfl)
      · exact h.quiet _ rfl h.unpredicted h.fits rfl id (Or.inl rfl)
  | close =>
    dsimp only [GameWindow.step] at hs
    split at hs
    · obtain rfl := Option.some.inj hs
      have hcall : Tracked server (events ++ [.close]) (g.call g.stage (finish 0 g.client)) :=
        h.call _ g.stage rfl h.unpredicted trivial rfl id (Or.inl rfl)
      exact hcall.of_kept rfl rfl rfl
    · obtain rfl := Option.some.inj hs
      exact h.quiet _ rfl h.unpredicted h.fits rfl id (Or.inl rfl)

end Steps

/-- The window shows nothing, or the latest list taken from the queue; those taken and those
waiting are lists of the server in the order of their arrival; nothing is predicted. -/
structure Drawn (server : Address) (events : List GameWindow.Event) (g : Game) : Prop where
  scene : g.scene.players = [] ∨ g.popped.getLast? = some g.scene.players
  states : (g.popped ++ g.client.incomingStates.items).Sublist (received server g events)
  unpredicted : g.client.gameStateSnapshot = []

/-- In every interleaving of the two threads, with any datagrams from anyone, the window
draws what the server sent in this session and nothing else. -/
theorem drawn_of_run {physics : PhysicsEngine} {server : Address}
    {events : List GameWindow.Event} {g : Game}
    (h : run (GameWindow.step physics) (start server) events = some g) :
    Drawn server events g := by
  have htracked : Tracked server events g :=
    run_history (J := Tracked server) (tracked_start server) (fun _ _ _ _ _ hJ hs => hJ.step hs) h
  have horder : Always (GameWindow.step physics) StatesInOrder (start server) events :=
    always_of_preserved (statesInOrder_start server) fun _ _ _ hinv hs => hinv.step hs
  have hstates := horder.last h
  exact ⟨hstates.scene, hstates.states ▸ htracked.carried, htracked.unpredicted⟩

section Witness

open GameMessages HandshakeMessages Turns

def localServer : Address := ⟨2, 9, 3501⟩

def session : List GameWindow.Event :=
  let answer := fun data => GameWindow.Event.receive (.packet localServer data) {}
  [.next 5 {}, answer (challengeDatagram 5 6), answer (acceptedDatagram 1), .next 0 {}] ++
    List.replicate 5 (answer (clockResponseDatagram 0)) ++
    [.next 0 {},
      answer (gameMessage .gameState ⟨5 ^^^ 6, 1, 0, 0⟩ (1 :: playerStateBytes { playerID := 7 })),
      .update 0 {}, .continueUpdate, .continueUpdate, .continueUpdate]

theorem drawn_of_run_session : ∃ g,
    run (GameWindow.step .resting) (start localServer) session = some g ∧
      g.scene.players.length = 1 ∧ Drawn localServer session g := by
  have hrun : (run (GameWindow.step .resting) (start localServer) session).map
      (fun g => g.scene.players.length) = some 1 := by decide +kernel
  obtain ⟨g, hg, hlength⟩ := Option.map_eq_some_iff.mp hrun
  exact ⟨g, hg, hlength, drawn_of_run hg⟩

end Witness

end RocketGame.DrawnStates
