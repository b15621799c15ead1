import RocketGame.GameWindow

/-!
What passes between the two threads of the windowed client. The frames on the network
are the accepted inputs in their order, each under its own number, and the rest of the
inputs waits in the queue; the states the window draws are the states pushed for it, in
their order. Both hold at every point of every interleaving.
-/
namespace RocketGame.InputOrder

open Channels Client ClientProgram ClientTurns DatagramSafety GameMessages GameWindow
open NetworkUtilities Packets PlayerStates PlayerTable Runs

def isFrame (message : Address × Datagram) : Bool :=
  decide (typeField message.2 = some .inputFrame)

def sendOk : ClientProgram.Event → Bool
  | .establishConnection _ env | .syncClock env | .executeGame env | .receive _ env => env.sendOk
  | .interrupt => false

/-- What a call does to the queue of inputs: nothing, or one frame for the oldest. When Send
fails the input is gone and its number used all the same. -/
inductive Outgoing (ok : Bool) (c : State) (p : Progress) : Prop
  | kept (hqueue : p.program.outgoingState = c.outgoingState)
      (hcount : p.program.localSequenceNumberLarge = c.localSequenceNumberLarge)
      (hsent : p.sent.filter isFrame = [])
  | framed (playerState : PlayerState) (hpop : c.outgoingState.pop =
        some (playerState, p.program.outgoingState))
      (hcount : p.program.localSequenceNumberLarge = c.localSequenceNumberLarge + 1)
      (hsent : p.sent = if ok then [(c.serverAddr, nextDatagram c playerState)] else [])

def Appends (c c' : State) : Prop :=
  ∃ added, c'.incomingStates.items = c.incomingStates.items ++ added

section Calls

variable {physics : PhysicsEngine} {c : Program} {p : Progress} {e : ClientProgram.Event}

theorem Appends.refl (c : State) : Appends c c := ⟨[], (List.append_nil _).symm⟩

theorem Appends.trans {c₁ c₂ c₃ : State} (h : Appends c₁ c₂) (h' : Appends c₂ c₃) :
    Appends c₁ c₃ := by
  obtain ⟨added, hadded⟩ := h
  obtain ⟨added', hadded'⟩ := h'
  exact ⟨added ++ added', by rw [hadded', hadded, List.append_assoc]⟩

theorem items_push {α : Type} (q : NetworkQueue α) (item : α) :
    ∃ added, (q.push item).2.items = q.items ++ added := by
  unfold NetworkQueue.push
  split
  · exact ⟨[], (List.append_nil _).symm⟩
  · exact ⟨[item], rfl⟩

theorem items_of_pop {α : Type} {q q' : NetworkQueue α} {item : α} (h : q.pop = some (item, q')) :
    q.items = item :: q'.items := by
  unfold NetworkQueue.pop at h
  split at h
  · cases h
  · next hitems =>
    obtain ⟨rfl, rfl⟩ := Prod.mk.inj (Option.some.inj h)
    exact hitems

theorem appends_sendGameState (env : Client.Env) (c : State) :
    Appends c (sendGameState physics env c).state := by
  unfold sendGameState
  split
  · exact Appends.refl c
  · unfold clientSidePrediction
    dsimp only
    split
    · exact ⟨[], (List.append_nil _).symm⟩
    · exact items_push _ _

theorem outgoing_updated {env : Client.Env} (h : Updated physics env c p) :
    Outgoing env.sendOk c.toState p ∧ Appends c.toState p.program.toState := by
  cases h with
  | early => exact ⟨.kept rfl rfl rfl, Appends.refl _⟩
  | due =>
    refine ⟨?_, appends_sendGameState (later env 1) c.toState⟩
    cases hpop : c.outgoingState.pop with
    | none =>
      have hempty : sendGameState physics (later env 1) c.toState = { state := c.toState } := by
        simp only [sendGameState, hpop]
      rw [hempty]
      exact .kept rfl rfl rfl
    | some popped =>
      obtain ⟨playerState, queue⟩ := popped
      obtain ⟨hchannel, -, hqueue, hsent⟩ := sendGameState_of_pop physics (later env 1) hpop
      refine .framed playerState (hpop.trans ?_) ?_ hsent
      · exact congrArg (fun q => some (playerState, q)) hqueue.symm
      · exact congrArg Channel.localSequenceNumberLarge hchannel

/-- A GAME_STATE leaves the inputs and the own numbers alone. -/
theorem handleGameState_flow {env : Client.Env} {c : State} {networkPacket : NetworkPacket}
    {o : Client.Outcome} (h : handleGameState env c networkPacket = some o) :
    o.state.outgoingState = c.outgoingState ∧
      o.state.localSequenceNumberLarge = c.localSequenceNumberLarge ∧ Appends c o.state := by
  obtain ⟨⟨salt, p₁⟩, -, h⟩ := Option.bind_eq_some_iff.mp h
  dsimp only at h
  split at h
  · obtain rfl := Option.some.inj h
    exact ⟨rfl, rfl, Appends.refl c⟩
  · obtain ⟨⟨seqNum, p₂⟩, -, h⟩ := Option.bind_eq_some_iff.mp h
    obtain ⟨⟨ack, p₃⟩, -, h⟩ := Option.bind_eq_some_iff.mp h
    obtain ⟨⟨ackBits, p₄⟩, -, h⟩ := Option.bind_eq_some_iff.mp h
    obtain ⟨⟨playerStates, p₅⟩, -, h⟩ := Option.bind_eq_some_iff.mp h
    obtain rfl := Option.some.inj h
    exact ⟨rfl, Channel.accept_localSequenceNumberLarge _ _, items_push _ _⟩

/-- A call that does nothing the two queues see, and sends no frame. -/
theorem outgoing_kept {ok : Bool} {c : State} (hqueue : p.program.outgoingState = c.outgoingState)
    (hcount : p.program.localSequenceNumberLarge = c.localSequenceNumberLarge)
    (hincoming : p.program.incomingStates = c.incomingStates)
    (hsent : p.sent.filter isFrame = []) :
    Outgoing ok c p ∧ Appends c p.program.toState :=
  ⟨.kept hqueue hcount hsent, [], by rw [hincoming, List.append_nil]⟩

theorem filter_isFrame_of_type {data : Datagram} {t : NetworkPacketType} (addr : Address)
    (htype : typeField data = some t) (ht : t ≠ .inputFrame) :
    [(addr, data)].filter isFrame = [] := by
  have hnot : isFrame (addr, data) = false := by
    rw [isFrame, htype]
    exact decide_eq_false fun h => ht (Option.some.inj h)
  rw [List.filter_cons_of_neg (by rw [hnot]; exact Bool.false_ne_true), List.filter_nil]

theorem outgoing_synced {ok : Bool} (h : Synced c p) :
    Outgoing ok c.toState p ∧ Appends c.toState p.program.toState := by
  cases h with
  | waits offset sync =>
    exact outgoing_kept rfl rfl rfl
      (filter_isFrame_of_type _ (typeField_sealed .clock _) (by decide))
  | averaged | failed | lost => exact outgoing_kept rfl rfl rfl rfl

theorem outgoing_heard {env : Client.Env} {received : Received} {c' : Program}
    (h : Heard env received c c') : c'.outgoingState = c.outgoingState ∧
      c'.localSequenceNumberLarge = c.localSequenceNumberLarge ∧
      Appends c.toState c'.toState := by
  cases h with
  | kept | ended => exact ⟨rfl, rfl, Appends.refl _⟩
  | handled loop data o hreply ho => exact handleGameState_flow ho

theorem filter_isFrame_establish (clientSalt : UInt64) (env : Client.Env) (c : Program) :
    (establishConnection clientSalt env c).sent.filter isFrame = [] := by
  rw [List.filter_eq_nil_iff]
  intro message hmem hframe
  obtain ⟨-, rfl⟩ := mem_establishConnection hmem
  have htype := of_decide_eq_true hframe
  rw [typeField_paddedMessage] at htype
  cases htype

theorem outgoing_of_move (h : Move physics c e p) :
    Outgoing (sendOk e) c.toState p ∧ Appends c.toState p.program.toState := by
  cases h with
  | ignored e => exact outgoing_kept rfl rfl rfl rfl
  | requested clientSalt env result hphase =>
    exact outgoing_kept rfl rfl rfl (filter_isFrame_establish clientSalt env c)
  | failed received env attempt state hphase hstate =>
    rcases hstate with rfl | rfl <;> exact outgoing_kept rfl rfl rfl rfl
  | challenged received env clientSalt serverSalt data hphase hreply hecho hserver =>
    exact outgoing_kept rfl rfl rfl
      (filter_isFrame_of_type _ (typeField_paddedMessage _ _) (by decide))
  | accepted received env clientSalt serverSalt data playerID hphase hreply =>
    exact outgoing_kept rfl rfl rfl rfl
  | refused env result hphase h => exact outgoing_kept rfl rfl rfl rfl
  | started env result p hphase hconnected hsalt hsynced
  | synced received env sync p hphase hsynced => exact outgoing_synced hsynced
  | began env result hphase => exact outgoing_kept rfl rfl rfl rfl
  | played received env loop update c' hphase hupdate hheard =>
    obtain ⟨hout, hin⟩ := outgoing_updated hupdate
    obtain ⟨hqueue, hcount, hmore⟩ := outgoing_heard hheard
    refine ⟨?_, hin.trans hmore⟩
    cases hout with
    | kept hqueue' hcount' hsent =>
      exact .kept (hqueue.trans hqueue') (hcount.trans hcount') hsent
    | framed playerState hpop hcount' hsent =>
      refine .framed playerState (hpop.trans ?_) (hcount.trans hcount') hsent
      exact congrArg (fun q => some (playerState, q)) hqueue.symm
  | interrupted loop hphase => exact outgoing_kept rfl rfl rfl rfl

end Calls

inductive Flow (ok : Bool) (g : Game) : Game → Prop
  | called (stage : Stage) (running : Bool) (p : Progress)
      (hout : Outgoing ok g.client.toState p)
      (hin : Appends g.client.toState p.program.toState) :
      Flow ok g { g.call stage p with running }
  | pushed (playerState : PlayerState) : Flow ok g (g.pushInput playerState)
  | popped : Flow ok g g.popState
  | kept (stage : Stage) (running : Bool) (frame : Frame) (scene : Scene)
      (hscene : scene.players = [] ∨ scene.players = g.scene.players) :
      Flow ok g { g with stage, running, frame, scene }

section Flow

variable {physics : PhysicsEngine} {g g' : Game} {p : Progress} {ok : Bool}

theorem Flow.refl (g : Game) : Flow ok g g := .kept g.stage g.running g.frame g.scene (Or.inr rfl)

theorem Flow.of_call (stage : Stage) (hcall : Outgoing ok g.client.toState p ∧
    Appends g.client.toState p.program.toState) : Flow ok g (g.call stage p) :=
  .called stage g.running p hcall.1 hcall.2

theorem outgoing_quitGame (c : Program) :
    Outgoing ok c.toState { program := c, sent := quitGame ok c.toState } ∧
      Appends c.toState c.toState := by
  refine outgoing_kept rfl rfl rfl (List.filter_eq_nil_iff.mpr fun message hmem hframe => ?_)
  obtain rfl := mem_quitGame hmem
  have htype := of_decide_eq_true hframe
  rw [typeField_farewellDatagram] at htype
  cases htype

theorem flow_goOn {result : ℤ} (hphase : g.client.phase = .returned result)
    (clientSalt : UInt64) (env : Client.Env) :
    Flow env.sendOk g (g.goOn result clientSalt env) := by
  have hestablish : Flow env.sendOk g
      (g.call .connecting (establishConnection clientSalt env g.client)) :=
    .of_call _ (outgoing_kept rfl rfl rfl (filter_isFrame_establish clientSalt env g.client))
  have hmove : Move .resting g.client (.syncClock env) (syncClock env g.client) :=
    move_of_syncClock .resting hphase
  have hsync : Flow env.sendOk g (g.call .syncing (syncClock env g.client)) :=
    .of_call _ (outgoing_of_move hmove)
  unfold Game.goOn
  split
  · exact hestablish
  · split
    · exact hestablish
    · exact hsync
  · split
    · exact hsync
    · split
      · unfold Game.executeGame
        split <;> exact .of_call _ (outgoing_kept rfl rfl rfl rfl)
      · exact .kept .returned g.running g.frame g.scene (Or.inr rfl)
  · split
    · exact .kept .returned g.running g.frame g.scene (Or.inr rfl)
    · exact .of_call _ (outgoing_quitGame g.client)
  · exact Flow.refl g

theorem flow_receive {e : ClientProgram.Event} (hmove : Move physics g.client e p) :
    Flow (sendOk e) g (g.receive p) := by
  obtain ⟨hout, hin⟩ := outgoing_of_move hmove
  unfold Game.receive
  dsimp only
  split
  · exact .called g.stage false p hout hin
  · exact .called g.stage g.running p hout hin

end Flow

def reading : GameWindow.Event → Int64
  | .next _ env | .receive _ env => env.clock 0
  | _ => 0

def sendResult : GameWindow.Event → Bool
  | .next _ env | .receive _ env => env.sendOk
  | _ => false

theorem flow_of_step {physics : PhysicsEngine} {g g' : Game} {e : GameWindow.Event}
    (hs : GameWindow.step physics g e = some g') : Flow (sendResult e) g g' := by
  cases e with
  | next clientSalt env =>
    dsimp only [GameWindow.step] at hs
    split at hs
    · next hphase =>
      obtain rfl := Option.some.inj hs
      exact flow_goOn hphase clientSalt env
    · obtain rfl := Option.some.inj hs
      exact Flow.refl g
  | receive received env =>
    dsimp only [GameWindow.step] at hs
    split at hs
    · obtain rfl := Option.some.inj hs
      exact Flow.refl g
    · obtain ⟨p, hp, rfl⟩ := Option.map_eq_some_iff.mp hs
      exact flow_receive (move_of_progress physics hp)
  | update deltaTime keyboard =>
    dsimp only [GameWindow.step] at hs
    split at hs
    · obtain rfl := Option.some.inj hs
      unfold Game.beginUpdate
      split
      · exact .kept g.stage g.running g.frame _ (Or.inl rfl)
      · exact .kept g.stage g.running _ _ (Or.inr rfl)
    · cases hs
  | continueUpdate =>
    dsimp only [GameWindow.step] at hs
    split at hs
    · cases hs
    · next playerState _ =>
      obtain rfl := Option.some.inj hs
      exact .pushed playerState
    · obtain rfl := Option.some.inj hs
      exact .popped
  | close =>
    dsimp only [GameWindow.step] at hs
    split at hs
    · obtain rfl := Option.some.inj hs
      have hfinish : Outgoing false g.client.toState (finish 0 g.client) ∧
          Appends g.client.toState (finish 0 g.client).program.toState :=
        outgoing_kept rfl rfl rfl rfl
      exact .called g.stage false _ hfinish.1 hfinish.2
    · obtain rfl := Option.some.inj hs
      exact .kept g.stage false g.frame g.scene (Or.inr rfl)

/-- A frame handed to Send: the clock at the start of its turn, and what Send returned. -/
structure FrameSend where
  time : ℤ
  sendOk : Bool

/-- The game with its frames, one for each number that was used. -/
structure Logged where
  game : Game
  frames : List FrameSend := []

def Logged.advance (l : Logged) (e : GameWindow.Event) (g : Game) : Logged where
  game := g
  frames :=
    if g.client.localSequenceNumberLarge = l.game.client.localSequenceNumberLarge then l.frames
    else l.frames ++ [⟨(reading e).toInt, sendResult e⟩]

def step (physics : PhysicsEngine) (l : Logged) (e : GameWindow.Event) : Option Logged :=
  (GameWindow.step physics l.game e).map (l.advance e)

def sentPlaces (frames : List FrameSend) : List ℕ :=
  frames.zipIdx.filterMap fun (frame, k) => if frame.sendOk then some k else none

def CarriesInput (inputs : List PlayerState) (k : ℕ) (message : Address × Datagram) : Prop :=
  ∃ h playerState, inputs[k]? = some playerState ∧
    h.seqNum = smallSequenceNumber (UInt64.ofNat (k + 1)) ∧
      message.2 = gameMessage .inputFrame h (playerStateBytes playerState)

/-- The inputs leave the queue in their order, each for the frame of its place; the frames on
the network are those whose Send succeeded. The other inputs wait. -/
structure FramesInOrder (l : Logged) : Prop where
  used : l.frames.length ≤ l.game.inputs.length
  waiting : l.game.client.outgoingState.items = l.game.inputs.drop l.frames.length
  number : l.game.client.localSequenceNumberLarge = UInt64.ofNat l.frames.length
  sent : List.Forall₂ (CarriesInput l.game.inputs) (sentPlaces l.frames)
    (l.game.sent.filter isFrame)

/-- The states drawn are the states pushed, in their order; the others wait. -/
structure StatesInOrder (g : Game) : Prop where
  states : g.pushed = g.popped ++ g.client.incomingStates.items
  scene : g.scene.players = [] ∨ g.popped.getLast? = some g.scene.players

structure InOrder (l : Logged) : Prop extends FramesInOrder l, StatesInOrder l.game

section Steps

variable {physics : PhysicsEngine} {l l' : Logged} {g g' : Game} {p : Progress}
  {e : GameWindow.Event}

theorem advance_eq (hnumber : g.client.localSequenceNumberLarge =
      l.game.client.localSequenceNumberLarge) : l.advance e g = { l with game := g } := by
  rw [Logged.advance, if_pos hnumber]

theorem advance_of_used (hnumber : g.client.localSequenceNumberLarge =
      l.game.client.localSequenceNumberLarge + 1) :
    l.advance e g = ⟨g, l.frames ++ [⟨(reading e).toInt, sendResult e⟩]⟩ := by
  rw [Logged.advance, if_neg]
  rw [hnumber, UInt64.add_eq_left]
  decide

theorem sentPlaces_concat (frames : List FrameSend) (frame : FrameSend) :
    sentPlaces (frames ++ [frame]) =
      sentPlaces frames ++ if frame.sendOk then [frames.length] else [] := by
  rw [sentPlaces, List.zipIdx_append, List.filterMap_append, ← sentPlaces, Nat.zero_add]
  cases hsend : frame.sendOk <;> simp [hsend]

theorem CarriesInput.append {inputs : List PlayerState} {k : ℕ} {message : Address × Datagram}
    (h : CarriesInput inputs k message) (more : List PlayerState) :
    CarriesInput (inputs ++ more) k message := by
  obtain ⟨header, playerState, hinput, hheader⟩ := h
  have hk : k < inputs.length := (List.getElem?_eq_some_iff.mp hinput).1
  exact ⟨header, playerState, (List.getElem?_append_left hk).trans hinput, hheader⟩

theorem carriesInput_nextDatagram {c : State} {inputs : List PlayerState} {n : ℕ}
    {playerState : PlayerState} (hinput : inputs[n]? = some playerState)
    (hcount : c.localSequenceNumberLarge = UInt64.ofNat n) :
    CarriesInput inputs n (c.serverAddr, nextDatagram c playerState) := by
  refine ⟨nextHeader c, playerState, hinput, ?_, rfl⟩
  rw [UInt64.ofNat_add, ← hcount]
  rfl

theorem isFrame_nextDatagram (c : State) (playerState : PlayerState) :
    isFrame (c.serverAddr, nextDatagram c playerState) = true :=
  decide_eq_true (typeField_sealed .inputFrame _)

/-- A call takes at most the oldest input that waits, for the next frame. -/
theorem FramesInOrder.call (h : FramesInOrder l) {stage : Stage} {running : Bool}
    (hout : Outgoing (sendResult e) l.game.client.toState p) :
    FramesInOrder (l.advance e { l.game.call stage p with running }) := by
  have hsent : (l.game.sent ++ p.sent).filter isFrame =
      l.game.sent.filter isFrame ++ p.sent.filter isFrame := List.filter_append ..
  cases hout with
  | kept hqueue hcount hnone =>
    rw [hnone, List.append_nil] at hsent
    rw [advance_eq hcount]
    exact ⟨h.used, hqueue ▸ h.waiting, hcount.trans h.number, hsent ▸ h.sent⟩
  | framed playerState hpop hcount hone =>
    have hitems : l.game.inputs.drop l.frames.length =
        playerState :: p.program.outgoingState.items := h.waiting.symm.trans (items_of_pop hpop)
    have hinput : l.game.inputs[l.frames.length]? = some playerState := by
      rw [← List.head?_drop, hitems, List.head?_cons]
    rw [advance_of_used hcount]
    constructor <;> dsimp only
    · rw [List.length_append, List.length_singleton]
      exact (List.getElem?_eq_some_iff.mp hinput).1
    · rw [List.length_append, List.length_singleton, ← List.tail_drop]
      exact (congrArg List.tail hitems).symm
    · rw [List.length_append, List.length_singleton, UInt64.ofNat_add]
      exact hcount.trans (congrArg (· + 1) h.number)
    · rw [sentPlaces_concat]
      change List.Forall₂ _ _ ((l.game.sent ++ p.sent).filter isFrame)
      rw [hsent, hone]
      refine List.rel_append h.sent ?_
      cases sendResult e with
      | false => exact .nil
      | true =>
        rw [if_pos rfl, if_pos rfl, List.filter_cons_of_pos (isFrame_nextDatagram _ _)]
        exact .cons (carriesInput_nextDatagram hinput h.number) .nil

theorem FramesInOrder.pushInput (h : FramesInOrder l) (playerState : PlayerState) :
    FramesInOrder { l with game := l.game.pushInput playerState } := by
  unfold Game.pushInput NetworkQueue.push
  by_cases hfull : l.game.client.outgoingState.items.length + 1 = NetworkQueue.capacity
  · rw [if_pos hfull]
    exact ⟨h.used, h.waiting, h.number, h.sent⟩
  · rw [if_neg hfull]
    refine ⟨?_, ?_, h.number, ?_⟩ <;> dsimp only <;> rw [if_pos rfl]
    · rw [List.length_append]
      exact h.used.trans (Nat.le_add_right _ _)
    · rw [h.waiting, List.drop_append_of_le_length h.used]
    · exact h.sent.imp fun _ _ hcarries => hcarries.append [playerState]

/-- A step that uses no number. -/
theorem FramesInOrder.advance (h : FramesInOrder { l with game := g })
    (hnumber : g.client.localSequenceNumberLarge = l.game.client.localSequenceNumberLarge) :
    FramesInOrder (l.advance e g) := by
  rw [advance_eq hnumber]
  exact h

theorem FramesInOrder.step (h : FramesInOrder l) (hs : step physics l e = some l') :
    FramesInOrder l' := by
  obtain ⟨g', hg, rfl⟩ := Option.map_eq_some_iff.mp hs
  cases flow_of_step hg with
  | called stage running p hout hin => exact h.call hout
  | pushed playerState => exact (h.pushInput playerState).advance rfl
  | popped =>
    unfold Game.popState
    split
    · exact FramesInOrder.advance ⟨h.used, h.waiting, h.number, h.sent⟩ rfl
    · exact FramesInOrder.advance ⟨h.used, h.waiting, h.number, h.sent⟩ rfl
  | kept => exact FramesInOrder.advance ⟨h.used, h.waiting, h.number, h.sent⟩ rfl

theorem StatesInOrder.call (h : StatesInOrder g) {stage : Stage} {running : Bool}
    (hin : Appends g.client.toState p.program.toState) :
    StatesInOrder { g.call stage p with running } := by
  obtain ⟨added, hadded⟩ := hin
  refine ⟨?_, h.scene⟩
  have hnew : p.program.incomingStates.items.drop g.client.incomingStates.items.length = added := by
    rw [hadded]
    exact List.drop_left
  change g.pushed ++ _ = g.popped ++ p.program.incomingStates.items
  rw [hnew, hadded, h.states, List.append_assoc]

theorem StatesInOrder.popState (h : StatesInOrder g) : StatesInOrder g.popState := by
  unfold Game.popState NetworkQueue.pop
  cases hitems : g.client.incomingStates.items with
  | nil => exact ⟨h.states, h.scene⟩
  | cons players rest =>
    refine ⟨?_, Or.inr List.getLast?_concat⟩
    have hstates := h.states
    rw [hitems] at hstates
    simpa only [List.append_assoc, List.singleton_append] using hstates

theorem StatesInOrder.step (h : StatesInOrder g) (hs : GameWindow.step physics g e = some g') :
    StatesInOrder g' := by
  cases flow_of_step hs with
  | called stage running p hout hin => exact h.call hin
  | pushed playerState => exact ⟨h.states, h.scene⟩
  | popped => exact h.popState
  | kept stage running frame scene hscene =>
    refine ⟨h.states, ?_⟩
    rcases hscene with hscene | hscene
    · exact Or.inl hscene
    · exact h.scene.imp hscene.trans fun hlast => hscene ▸ hlast

theorem InOrder.step (h : InOrder l) (hs : InputOrder.step physics l e = some l') :
    InOrder l' := by
  refine ⟨h.toFramesInOrder.step hs, ?_⟩
  obtain ⟨g', hg, rfl⟩ := Option.map_eq_some_iff.mp hs
  exact h.toStatesInOrder.step hg

end Steps

theorem framesInOrder_start (server : Address) : FramesInOrder { game := start server } :=
  ⟨le_rfl, rfl, rfl, .nil⟩

theorem statesInOrder_start (server : Address) : StatesInOrder (start server) := ⟨rfl, Or.inl rfl⟩

/-- In every interleaving of the window thread and the network thread, whatever the network
does: the inputs go out in their order and under their numbers, as far as Send succeeds, the
states drawn are the states pushed in their order, and what is missing waits in the queues. -/
theorem always_inOrder (physics : PhysicsEngine) (server : Address)
    (events : List GameWindow.Event) :
    Always (step physics) InOrder { game := start server } events :=
  always_of_preserved ⟨framesInOrder_start server, statesInOrder_start server⟩
    fun _ _ _ h hs => h.step hs

end RocketGame.InputOrder
