import RocketGame.InputOrder
import RocketGame.Pacing
import RocketGame.Words

/-!
How fast the inputs of the windowed client go out. ExecuteGame lets a sixtieth of a
second pass between two frames, whatever the rate of the window: in any span of time it
sends only so many, and Update is refused every input beyond these and a full queue.
-/
namespace RocketGame.InputRate

open Client ClientProgram ClientTurns DatagramSafety GameWindow InputOrder
open NetworkUtilities Packets Pacing PlayerStates Runs

def Started (e : GameWindow.Event) : Prop := 0 ≤ (reading e).toInt

instance : DecidablePred Started := fun e => inferInstanceAs (Decidable (0 ≤ (reading e).toInt))

/-- What the rate comes to: for the frames handed to Send in a window of time, for those on
the network, and for the inputs. -/
structure Rated (l : Logged) : Prop where
  window : ∀ low high, low ≤ high →
    ((l.frames.filter fun f => low ≤ f.time ∧ f.time ≤ high).length : ℤ) *
      gameUpdateInterval.toInt ≤ high + gameUpdateInterval.toInt - low
  sent : (l.game.sent.filter isFrame).length = l.frames.countP FrameSend.sendOk
  accepted : l.game.inputs.length < l.frames.length + NetworkQueue.capacity

structure Paced (l : Logged) : Prop where
  spaced : Spaced gameUpdateInterval.toInt (l.frames.map FrameSend.time)
  mark : ∀ loop, l.game.client.phase = .playing loop → l.game.stage = .playing ∧
    0 ≤ loop.gameUpdateTime.toInt ∧ ∀ f ∈ l.frames, f.time ≤ loop.gameUpdateTime.toInt
  before : l.frames ≠ [] → l.game.stage = .playing ∨ l.game.stage = .returned

def Bounded (g : Game) : Prop := g.client.outgoingState.items.length < NetworkQueue.capacity

section Turns

variable {physics : PhysicsEngine} {c : Program} {p : Progress} {e : ClientProgram.Event}

/-- The game begins only with ExecuteGame. -/
theorem phase_of_move {loop : GameLoop} (h : Move physics c e p)
    (hphase : p.program.phase = .playing loop) :
    (∃ loop', c.phase = .playing loop') ∨ ∃ env, e = .executeGame env := by
  have hsynced : Synced c p → False := by
    intro h
    cases h <;> cases hphase
  cases h with
  | ignored => exact Or.inl ⟨loop, hphase⟩
  | requested clientSalt env =>
    rw [phase_establishConnection] at hphase
    split at hphase <;> cases hphase
  | failed | challenged | accepted | refused | interrupted => cases hphase
  | started env result p _ _ _ h => exact (hsynced h).elim
  | synced received env sync p _ h => exact (hsynced h).elim
  | began env => exact Or.inr ⟨env, rfl⟩
  | played received env loop' _ _ hphase' => exact Or.inl ⟨loop', hphase'⟩

/-- Numbers are used only in the game. -/
theorem number_of_move (h : Move physics c e p) (hphase : ∀ loop, c.phase ≠ .playing loop) :
    p.program.localSequenceNumberLarge = c.localSequenceNumberLarge := by
  have hsynced : Synced c p → p.program.localSequenceNumberLarge = c.localSequenceNumberLarge := by
    intro h
    cases h <;> rfl
  cases h with
  | ignored | requested | challenged | accepted | refused | began | interrupted => rfl
  | failed _ _ _ _ _ hstate => rcases hstate with rfl | rfl <;> rfl
  | started env result p _ _ _ h => exact hsynced h
  | synced received env sync p _ h => exact hsynced h
  | played received env loop _ _ hplaying => exact absurd hplaying (hphase loop)

/-- What follows the Receive leaves the mark of the loop alone. -/
theorem gameUpdateTime_receiveGame {env : Client.Env} {loop loop' : GameLoop}
    {received : Received} {c c' : Program} (h : receiveGame env loop received c = some c')
    (hphase : c'.phase = .playing loop') : loop'.gameUpdateTime = loop.gameUpdateTime := by
  cases hearing_of_receiveGame h with
  | gaveUp | ended => cases hphase
  | waited | counted | failed | discarded | handled | ignored =>
    cases hphase
    rfl

def Due (env : Client.Env) (loop : GameLoop) : Prop :=
  env.clock 0 - loop.gameUpdateTime ≥ gameUpdateInterval

instance (env : Client.Env) (loop : GameLoop) : Decidable (Due env loop) :=
  inferInstanceAs (Decidable (_ ≥ _))

theorem Due.spaced {env : Client.Env} {loop : GameLoop} (h : Due env loop)
    (hmark : 0 ≤ loop.gameUpdateTime.toInt) (hclock : 0 ≤ (env.clock 0).toInt) :
    loop.gameUpdateTime.toInt + gameUpdateInterval.toInt ≤ (env.clock 0).toInt := by
  have hpassed : gameUpdateInterval.toInt ≤ (env.clock 0 - loop.gameUpdateTime).toInt :=
    Int64.le_iff_toInt_le.mp h
  have hsmall := (env.clock 0).toInt_lt
  have hsmall' := loop.gameUpdateTime.toInt_lt
  rw [Words.toInt_sub_of_fits ⟨by omega, by omega⟩] at hpassed
  omega

theorem updateGame_of_not_due {env : Client.Env} {loop : GameLoop} (h : ¬ Due env loop) :
    updateGame physics env loop c = ({ program := c }, loop) := if_neg h

theorem updateGame_of_due {env : Client.Env} {loop : GameLoop} (h : Due env loop) :
    (updateGame physics env loop c).2.gameUpdateTime = env.clock 0 := by
  unfold updateGame
  exact congrArg (fun u : Progress × GameLoop => u.2.gameUpdateTime) (if_pos h)

/-- A turn that is due moves the mark, and only such a turn uses a number. -/
theorem rate_of_gameTurn {env : Client.Env} {loop : GameLoop} {received : Received}
    (h : gameTurn physics env loop received c = some p) :
    (¬ Due env loop → p.program.localSequenceNumberLarge = c.localSequenceNumberLarge) ∧
      ∀ loop', p.program.phase = .playing loop' →
        loop'.gameUpdateTime = if Due env loop then env.clock 0 else loop.gameUpdateTime := by
  simp only [gameTurn] at h
  obtain ⟨c', hreceive, rfl⟩ := Option.map_eq_some_iff.mp h
  have hnumber := (outgoing_heard (heard_of_receiveGame hreceive)).2.1
  have hmark : ∀ loop', c'.phase = .playing loop' →
      loop'.gameUpdateTime = (updateGame physics env loop c).2.gameUpdateTime :=
    fun _ => gameUpdateTime_receiveGame hreceive
  by_cases hdue : Due env loop
  · refine ⟨fun hnot => absurd hdue hnot, fun loop' hphase => ?_⟩
    rw [hmark loop' hphase, if_pos hdue, updateGame_of_due hdue]
  · rw [updateGame_of_not_due hdue] at hnumber hmark
    refine ⟨fun _ => hnumber, fun loop' hphase => ?_⟩
    rw [hmark loop' hphase, if_neg hdue]

end Turns

section Game

variable {physics : PhysicsEngine} {g g' : Game} {p : Progress}

/-- Between two calls no number is used. -/
theorem number_goOn {result : ℤ} (hphase : g.client.phase = .returned result)
    (clientSalt : UInt64) (env : Client.Env) :
    (g.goOn result clientSalt env).client.localSequenceNumberLarge =
      g.client.localSequenceNumberLarge := by
  have hmove : Move .resting g.client (.syncClock env) (syncClock env g.client) :=
    move_of_syncClock .resting hphase
  have hresting : ∀ loop, g.client.phase ≠ .playing loop := by
    intro loop h
    cases hphase.symm.trans h
  have hsync := number_of_move hmove hresting
  unfold Game.goOn
  split
  · rfl
  · split
    · rfl
    · exact hsync
  · split
    · exact hsync
    · split
      · unfold Game.executeGame
        split <;> rfl
      · rfl
  · split <;> rfl
  · rfl

@[simp] theorem client_receive (g : Game) (p : Progress) : (g.receive p).client = p.program := by
  unfold Game.receive
  dsimp only
  split <;> rfl

@[simp] theorem stage_receive (g : Game) (p : Progress) : (g.receive p).stage = g.stage := by
  unfold Game.receive
  dsimp only
  split <;> rfl

/-- NetworkLoop comes to play only after SyncClock. -/
theorem goOn_of_playing {result : ℤ} (hphase : g.client.phase = .returned result)
    {clientSalt : UInt64} {env : Client.Env} {loop : GameLoop}
    (hplaying : (g.goOn result clientSalt env).client.phase = .playing loop) :
    g.stage = .syncing ∧
      g.goOn result clientSalt env = g.call .playing (executeGame env g.client) := by
  have hresting : ∀ loop', g.client.phase ≠ .playing loop' := by
    intro loop' h
    cases hphase.symm.trans h
  have hcalm : ∀ {e : ClientProgram.Event} {p : Progress}, Move .resting g.client e p →
      (∀ env', e ≠ .executeGame env') → p.program.phase ≠ .playing loop := by
    intro e p hmove hother hp
    rcases phase_of_move hmove hp with ⟨loop', h⟩ | ⟨env', rfl⟩
    · exact hresting loop' h
    · exact hother env' rfl
  have hestablish := hcalm (.requested clientSalt env result hphase) nofun
  have hsyncing : Move .resting g.client (.syncClock env) (syncClock env g.client) :=
    move_of_syncClock .resting hphase
  have hsync := hcalm hsyncing nofun
  generalize hg : g.goOn result clientSalt env = g' at hplaying
  unfold Game.goOn at hg
  split at hg
  · subst hg
    exact absurd hplaying hestablish
  · split at hg
    · subst hg
      exact absurd hplaying hestablish
    · subst hg
      exact absurd hplaying hsync
  · next hstage =>
    split at hg
    · subst hg
      exact absurd hplaying hsync
    · split at hg
      · unfold Game.executeGame at hg
        split at hg
        · exact ⟨hstage, hg.symm⟩
        · rw [← hg] at hplaying
          cases hplaying
      · subst hg
        exact absurd hplaying (hresting loop)
  · split at hg
    · subst hg
      exact absurd hplaying (hresting loop)
    · subst hg
      exact absurd hplaying (hresting loop)
  · subst hg
    exact absurd hplaying (hresting loop)

/-- The last loop is never left for another one. -/
theorem stage_goOn (hstage : g.stage = .playing ∨ g.stage = .returned) (result : ℤ)
    (clientSalt : UInt64) (env : Client.Env) :
    (g.goOn result clientSalt env).stage = .returned := by
  unfold Game.goOn
  rcases hstage with hstage | hstage
  · rw [hstage]
    dsimp only
    split <;> rfl
  · rw [hstage]
    exact hstage

end Game

section Steps

variable {physics : PhysicsEngine} {l l' : Logged} {g' : Game} {e : GameWindow.Event}

theorem mem_advance {f : FrameSend} (hf : f ∈ (l.advance e g').frames) :
    f ∈ l.frames ∨ f.time = (reading e).toInt := by
  unfold Logged.advance at hf
  dsimp only at hf
  split at hf
  · exact Or.inl hf
  · exact (List.mem_append.mp hf).imp_right fun h => congrArg _ (List.mem_singleton.mp h)

theorem spaced_advance {interval : ℤ} (h : Spaced interval (l.frames.map FrameSend.time))
    (hlast : ∀ f ∈ l.frames, f.time + interval ≤ (reading e).toInt) :
    Spaced interval ((l.advance e g').frames.map FrameSend.time) := by
  unfold Logged.advance
  dsimp only
  split
  · exact h
  · rw [List.map_append]
    exact h.concat (List.forall_mem_map.mpr hlast)

theorem Paced.goOn (h : Paced l) {result : ℤ} (hphase : l.game.client.phase = .returned result)
    {clientSalt : UInt64} {env : Client.Env} (hstarted : 0 ≤ (env.clock 0).toInt) :
    Paced { l with game := l.game.goOn result clientSalt env } where
  spaced := h.spaced
  mark loop hplaying := by
    obtain ⟨hstage, hgame⟩ := goOn_of_playing hphase hplaying
    dsimp only at hplaying ⊢
    rw [hgame] at hplaying ⊢
    cases hplaying
    refine ⟨rfl, hstarted, fun f hf => ?_⟩
    rcases h.before (List.ne_nil_of_mem hf) with hother | hother <;> cases hstage.symm.trans hother
  before hsome := Or.inr (stage_goOn (h.before hsome) result clientSalt env)

theorem Paced.receive (h : Paced l) {received : Received} {env : Client.Env} {p : Progress}
    (hp : progress physics l.game.client (.receive received env) = some p)
    (hclock : 0 ≤ (env.clock 0).toInt) :
    Paced (l.advance (.receive received env) (l.game.receive p)) := by
  have hmove := move_of_progress physics hp
  have hclient := client_receive l.game p
  have hstage' := stage_receive l.game p
  by_cases hphase : ∃ loop, l.game.client.phase = .playing loop
  · obtain ⟨loop, hphase⟩ := hphase
    obtain ⟨hstage, hmark, hlast⟩ := h.mark loop hphase
    simp only [progress, hphase] at hp
    obtain ⟨hnumber, hnext⟩ := rate_of_gameTurn hp
    rw [← hclient] at hnumber hnext
    by_cases hdue : Due env loop
    · have hspaced := hdue.spaced hmark hclock
      have hmarked : loop.gameUpdateTime.toInt ≤ (env.clock 0).toInt :=
        (le_add_of_nonneg_right (by decide)).trans hspaced
      refine ⟨spaced_advance h.spaced fun f hf => ?_, fun loop' hphase' => ?_,
        fun _ => Or.inl (hstage'.trans hstage)⟩
      · exact (add_le_add_left (hlast f hf) _).trans hspaced
      · rw [hnext loop' hphase', if_pos hdue]
        refine ⟨hstage'.trans hstage, hclock, fun f hf => ?_⟩
        rcases mem_advance hf with hf | hf
        · exact (hlast f hf).trans hmarked
        · exact hf.le
    · rw [advance_eq (hnumber hdue)]
      refine ⟨h.spaced, fun loop' hphase' => ?_, fun _ => Or.inl (hstage'.trans hstage)⟩
      rw [hnext loop' hphase', if_neg hdue]
      exact ⟨hstage'.trans hstage, hmark, hlast⟩
  · have hnumber := number_of_move hmove (not_exists.mp hphase)
    rw [← hclient] at hnumber
    rw [advance_eq hnumber]
    refine ⟨h.spaced, fun loop' hphase' => ?_, fun hsome => ?_⟩
    · rcases phase_of_move hmove (hclient ▸ hphase') with hplaying | ⟨env', hother⟩
      · exact absurd hplaying hphase
      · cases hother
    · exact hstage'.symm ▸ h.before hsome

/-- A step that uses no number. -/
theorem Paced.advance (h : Paced { l with game := g' }) (hnumber :
      g'.client.localSequenceNumberLarge = l.game.client.localSequenceNumberLarge) :
    Paced (l.advance e g') := by
  rw [advance_eq hnumber]
  exact h

/-- A step that leaves the loop alone. -/
theorem Paced.kept (h : Paced l) (hnumber : g'.client.localSequenceNumberLarge =
      l.game.client.localSequenceNumberLarge) (hphase : g'.client.phase = l.game.client.phase)
    (hstage : g'.stage = l.game.stage) : Paced (l.advance e g') := by
  refine Paced.advance ⟨h.spaced, fun loop hplaying => ?_, fun hsome => ?_⟩ hnumber
  · exact hstage ▸ h.mark loop (hphase ▸ hplaying)
  · exact hstage ▸ h.before hsome

theorem Paced.step (h : Paced l) (hstarted : Started e)
    (hs : InputOrder.step physics l e = some l') : Paced l' := by
  obtain ⟨g', hg, rfl⟩ := Option.map_eq_some_iff.mp hs
  cases e with
  | next clientSalt env =>
    dsimp only [GameWindow.step] at hg
    split at hg
    · next hphase =>
      obtain rfl := Option.some.inj hg
      exact (h.goOn hphase hstarted).advance (number_goOn hphase clientSalt env)
    · obtain rfl := Option.some.inj hg
      exact h.kept rfl rfl rfl
  | receive received env =>
    dsimp only [GameWindow.step] at hg
    split at hg
    · obtain rfl := Option.some.inj hg
      exact h.kept rfl rfl rfl
    · obtain ⟨p, hp, rfl⟩ := Option.map_eq_some_iff.mp hg
      exact h.receive hp hstarted
  | update deltaTime keyboard =>
    dsimp only [GameWindow.step] at hg
    split at hg
    · obtain rfl := Option.some.inj hg
      unfold Game.beginUpdate
      split
      · exact h.kept rfl rfl rfl
      · exact h.kept rfl rfl rfl
    · cases hg
  | continueUpdate =>
    dsimp only [GameWindow.step] at hg
    split at hg
    · cases hg
    · obtain rfl := Option.some.inj hg
      exact h.kept rfl rfl rfl
    · obtain rfl := Option.some.inj hg
      unfold Game.popState
      split
      · exact h.kept rfl rfl rfl
      · exact h.kept rfl rfl rfl
  | close =>
    dsimp only [GameWindow.step] at hg
    split at hg
    · obtain rfl := Option.some.inj hg
      exact Paced.advance ⟨h.spaced, nofun, h.before⟩ rfl
    · obtain rfl := Option.some.inj hg
      exact h.kept rfl rfl rfl

theorem Bounded.step {g g' : Game} (h : Bounded g) (hs : GameWindow.step physics g e = some g') :
    Bounded g' := by
  cases flow_of_step hs with
  | called stage running p hout hin =>
    cases hout with
    | kept hqueue =>
      change p.program.outgoingState.items.length < _
      rw [hqueue]
      exact h
    | framed playerState hpop =>
      have hlength : g.client.outgoingState.items.length =
          p.program.outgoingState.items.length + 1 := congrArg List.length (items_of_pop hpop)
      have hless : g.client.outgoingState.items.length < NetworkQueue.capacity := h
      change p.program.outgoingState.items.length < _
      omega
  | pushed playerState =>
    unfold Game.pushInput NetworkQueue.push Bounded
    by_cases hfull : g.client.outgoingState.items.length + 1 = NetworkQueue.capacity
    · rw [if_pos hfull]
      exact h
    · rw [if_neg hfull]
      dsimp only
      rw [List.length_append, List.length_singleton]
      exact Nat.lt_of_le_of_ne h hfull
  | popped =>
    unfold Game.popState
    split <;> exact h
  | kept => exact h

theorem length_sentPlaces (frames : List FrameSend) :
    (sentPlaces frames).length = frames.countP FrameSend.sendOk := by
  induction frames using List.reverseRecOn with
  | nil => rfl
  | append_singleton frames frame ih =>
    rw [sentPlaces_concat, List.length_append, ih, List.countP_append]
    cases hsend : frame.sendOk <;> simp [hsend]

theorem Paced.rated (h : Paced l) (horder : FramesInOrder l) (hbounded : Bounded l.game) :
    Rated l where
  window low high hle := by
    have hwindow := h.spaced.filter fun s => low ≤ s ∧ s ≤ high
    have hwithin : ∀ s ∈ (l.frames.map FrameSend.time).filter fun s => low ≤ s ∧ s ≤ high,
        low ≤ s ∧ s ≤ high := fun s hs => of_decide_eq_true (List.mem_filter.mp hs).2
    have hpos : 0 ≤ gameUpdateInterval.toInt := by decide
    have hlength := hwindow.nsmul_length_le hwithin (by omega)
    rw [List.filter_map, List.length_map, nsmul_eq_mul] at hlength
    exact hlength
  sent := by
    rw [← horder.sent.length_eq, length_sentPlaces]
  accepted := by
    have hused := horder.used
    have hqueue : l.game.client.outgoingState.items.length < NetworkQueue.capacity := hbounded
    rw [horder.waiting, List.length_drop] at hqueue
    omega

end Steps

/-- In every interleaving of the two threads, whatever the network and the rate of the
window: a window of time has room for as many frames as intervals, and one more; those whose
Send succeeds are sent, and Update gets no more inputs accepted but for a full queue. -/
theorem always_rated (physics : PhysicsEngine) (server : Address)
    (events : List GameWindow.Event) (h : ∀ e ∈ events, Started e) :
    Always (InputOrder.step physics) Rated { game := start server } events := by
  have hpaced : Paced { game := start server } :=
    ⟨spaced_nil, nofun, fun hsome => absurd rfl hsome⟩
  have hbounded : Bounded (start server) := Nat.zero_lt_succ 255
  have hall : Always (InputOrder.step physics) (fun l => Paced l ∧ FramesInOrder l ∧ Bounded l.game)
      { game := start server } events := by
    refine always_of_step ⟨hpaced, framesInOrder_start server, hbounded⟩
      (fun l e l' hl he hs => ⟨hl.1.step he hs, hl.2.1.step hs, ?_⟩) (throughout_of_forall_mem h)
    obtain ⟨g', hg, rfl⟩ := Option.map_eq_some_iff.mp hs
    exact hl.2.2.step hg
  exact hall.mono fun _ hl => hl.1.rated hl.2.1 hl.2.2

section Witness

open GameMessages HandshakeMessages Turns

def localServer : Address := ⟨2, 9, 3501⟩

def timeout (now : Int64) (sendOk : Bool) : GameWindow.Event :=
  .receive .timeout { clock := fun _ => now, sendOk }

def twoInputs : List GameWindow.Event :=
  let answer := fun data => GameWindow.Event.receive (.packet localServer data) {}
  [.next 5 {}, answer (challengeDatagram 5 6), answer (acceptedDatagram 1), .next 0 {}] ++
    List.replicate 5 (answer (clockResponseDatagram 0)) ++
    [.next 0 {}, .update 16 {}, .continueUpdate, .continueUpdate, .update 16 {}, .continueUpdate,
      .continueUpdate, timeout 20000000 true, timeout 30000000 true, timeout 40000000 false]

theorem always_rated_twoInputs :
    Always (InputOrder.step .resting) Rated { game := start localServer } twoInputs ∧
      (run (InputOrder.step .resting) { game := start localServer } twoInputs).map (fun l =>
        (l.frames.map FrameSend.time, (l.game.sent.filter isFrame).length, l.game.inputs.length)) =
          some ([20000000, 40000000], 1, 2) :=
  ⟨always_rated .resting localServer twoInputs (by decide +kernel), by decide +kernel⟩

end Witness

end RocketGame.InputRate
