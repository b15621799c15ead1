import Mathlib.Algebra.Order.BigOperators.Group.Finset
import Mathlib.Data.Finset.Card
import RocketGame.FireFlags
import RocketGame.RelayOrder

/-!
Shots over the whole .NET game. The network doubles datagrams, the server copies them to
every other endpoint, and the game thread takes packets back and fires again; still no
client ever shows more shots than the others have fired. Each other rocket accepts a packet
once, each firing packet is sent for a shot of its own, and a frame adds one shot at most.
-/
namespace RocketGame.ShownShots

open FireFlags OtherRocketUpdate RelayOrder RelaySystem RocketMotion RocketShared ShotReceiving Runs

section Counting

variable {α κ : Type*} [DecidableEq α]

/-- Different elements that are spread over lists are no more than these lists have. -/
theorem length_le_sum {l : List α} (h : l.Nodup) (lists : κ → List α) (keys : Finset κ)
    (hmem : ∀ x ∈ l, ∃ k ∈ keys, x ∈ lists k) : l.length ≤ ∑ k ∈ keys, (lists k).length := by
  have hsub : l.toFinset ⊆ keys.biUnion fun k => (lists k).toFinset := by
    intro x hx
    obtain ⟨k, hk, hxk⟩ := hmem x (List.mem_toFinset.mp hx)
    exact Finset.mem_biUnion.mpr ⟨k, hk, List.mem_toFinset.mpr hxk⟩
  calc l.length
    _ = l.toFinset.card := (List.toFinset_card_of_nodup h).symm
    _ ≤ (keys.biUnion fun k => (lists k).toFinset).card := Finset.card_le_card hsub
    _ ≤ ∑ k ∈ keys, (lists k).toFinset.card := Finset.card_biUnion_le
    _ ≤ ∑ k ∈ keys, (lists k).length := Finset.sum_le_sum fun k _ => List.toFinset_card_le _

end Counting

variable {ι F : Type}

section Frame

variable {a : Arithmetic F} {content : Content} {settings : GameSettings}

/-- The fire flag comes from an accepted packet. -/
theorem countP_pos_of_isFiring {floats : Floats F} {deltaTime : F} {utcNow : ℕ → Int64}
    {incoming : List NetworkPacket} {rocket : OtherRocket F}
    (h : (receiveIncoming floats deltaTime utcNow incoming rocket).isFiring = true) :
    0 < (accepted rocket.next.ticks incoming).countP fires := by
  have hodd := (isFiring_receiveIncoming floats deltaTime utcNow incoming rocket).mp h
  obtain ⟨packet, hpacket⟩ := List.exists_mem_of_length_pos hodd.pos
  exact List.countP_pos_iff.mpr
    ⟨packet, (List.rtakeWhile_suffix fires _).subset hpacket, List.mem_rtakeWhile_imp hpacket⟩

theorem length_updateShots_le (deltaTime : F) (shots : List (Shot F)) :
    (updateShots a content deltaTime shots).length ≤ shots.length :=
  (List.length_filter_le _ _).trans (List.length_map _).le

/-- A shot that is added under a condition no weaker than the flag. -/
theorem length_addShot_le {shots : List (Shot F)} {shot : Shot F} {fires isFiring : Bool}
    (h : fires = true → isFiring = true) :
    (if fires then shots ++ [shot] else shots).length ≤ shots.length + isFiring.toNat := by
  cases fires with
  | false => exact Nat.le_add_right _ _
  | true =>
    rw [if_pos rfl, h rfl]
    exact List.length_append.le

theorem length_shots_approach_le (o : Other F) :
    (o.approach a content).shots.length ≤ o.shots.length + o.isFiring.toNat :=
  length_addShot_le id

theorem length_shots_play_le (deltaTime : F) (o : Other F) :
    (o.play a content settings deltaTime).shots.length ≤ o.shots.length + o.isFiring.toNat :=
  length_addShot_le fun hfires => (Bool.and_eq_true_iff.mp hfires).1

/-- A frame shows at most one more shot, and that only for an accepted packet that fires. -/
theorem length_shots_update_le (f : Frame F) (o : Other F) :
    (o.update a content settings f).shots.length ≤
      o.shots.length + (accepted o.next.ticks f.incoming).countP fires := by
  let received := receiveIncoming a.toFloats f.deltaTime f.utcNow f.incoming o.toOtherRocket
  have hflag : received.isFiring.toNat ≤ (accepted o.next.ticks f.incoming).countP fires := by
    cases hfiring : received.isFiring with
    | false => exact Nat.zero_le _
    | true => exact countP_pos_of_isFiring hfiring
  unfold Other.update
  dsimp only
  refine (length_updateShots_le _ _).trans (le_trans ?_ (Nat.add_le_add_left hflag _))
  split
  · exact length_shots_approach_le { o with toOtherRocket := received }
  · exact length_shots_play_le _ { o with toOtherRocket := received }

end Frame

structure Counted (c : Client F) : Prop where
  handOver : NoShotDoubled c.game.handOver
  sent : c.sent.map fires = c.game.handOver.dequeued.map fun q => fires q.packet
  shown : c.other.shots.length ≤ c.taken.countP fires

section Steps

variable {d : Deployment ι F} {c : Client F}

theorem Counted.countP_sent_le (h : Counted c) :
    c.sent.countP fires ≤ c.game.handOver.shots.length := by
  have hsent : c.sent.countP fires = firing c.game.handOver.dequeued := by
    have hcount := congrArg (List.countP id) h.sent
    rwa [List.countP_map, List.countP_map] at hcount
  exact hsent ▸ h.handOver.firing_dequeued

/-- A step of the game thread leaves what has been dequeued. -/
theorem dequeued_of_step {g g' : RocketUpdate.State} {e : RocketUpdate.Event}
    (he : e ≠ .network) (hs : RocketUpdate.step g e = some g') : g'.dequeued = g.dequeued := by
  cases e with
  | network => exact absurd rfl he
  | update isFiring timerDue packet =>
    obtain ⟨-, hs⟩ := Option.ite_none_right_eq_some.mp hs
    obtain rfl := Option.some.inj hs
    rfl
  | game =>
    replace hs : RocketUpdate.continueUpdate g = some g' := hs
    unfold RocketUpdate.continueUpdate at hs
    split at hs <;> cases hs <;> try rfl
    unfold RocketUpdate.takePrevious
    split <;> rfl

/-- The game thread's half of a client. -/
theorem Counted.play (h : Counted c) {a : Arithmetic F} {content : Content}
    {settings : GameSettings} {e : RocketMotion.Event F} {game : GameThread F}
    (hs : RocketMotion.step a content settings c.game e = some game) (he : e ≠ .network) :
    Counted { c with game } := by
  obtain ⟨e', he', hstep⟩ : ∃ e' ≠ .network,
      RocketUpdate.step c.game.handOver e' = some game.handOver := by
    cases e with
    | network => exact absurd rfl he
    | update keyboardState deltaTime =>
      obtain ⟨handOver, hhand, rfl⟩ := Option.map_eq_some_iff.mp hs
      refine ⟨_, ?_, hhand⟩
      exact nofun
    | game =>
      obtain ⟨handOver, hhand, rfl⟩ := Option.map_eq_some_iff.mp hs
      refine ⟨_, ?_, hhand⟩
      exact nofun
  refine ⟨h.handOver.step hstep, ?_, h.shown⟩
  dsimp only
  rw [dequeued_of_step he' hstep]
  exact h.sent

/-- The packet that a turn sends fires as the one it took from Outgoing. -/
theorem Counted.turn (h : Counted c) {utcNow : Int64} {receptions : List GameNetwork.Reception}
    {out : Client F × List Datagram} (hturn : c.turn d utcNow receptions = .ok out) :
    Counted out.1 := by
  obtain ⟨c', data⟩ := out
  obtain ⟨network, rfl, -⟩ := turn_eq_ok hturn
  have hstep : RocketUpdate.step c.game.handOver .network =
      some (RocketUpdate.dequeueToSend c.game.handOver) := rfl
  refine ⟨h.handOver.step hstep, ?_, h.shown⟩
  rw [List.map_append, h.sent, Client.stamped, Client.outgoing]
  unfold RocketUpdate.dequeueToSend
  cases hqueue : c.game.handOver.outgoing with
  | nil => simp
  | cons q rest => simp [fires]

theorem Counted.updateOther (h : Counted c) (deltaTime : F) (utcNow : ℕ → Int64) :
    Counted (c.updateOther d deltaTime utcNow) where
  handOver := h.handOver
  sent := h.sent
  shown := by
    refine (length_shots_update_le _ _).trans ?_
    rw [Client.updateOther, List.countP_append]
    exact Nat.add_le_add_right h.shown _

variable [DecidableEq ι] {s s' : System ι F}

theorem counted_step (h : ∀ i, Counted (s.clients i)) {e : RelaySystem.Event ι F}
    (hs : step d s e = some s') : ∀ i, Counted (s'.clients i) := by
  cases e with
  | update i keyboardState deltaTime =>
    obtain ⟨game, hgame, rfl⟩ := Option.map_eq_some_iff.mp hs
    exact proceed_clients d (P := fun _ => Counted) h ((h i).play hgame nofun)
  | game i =>
    obtain ⟨game, hgame, rfl⟩ := Option.map_eq_some_iff.mp hs
    exact proceed_clients d (P := fun _ => Counted) h ((h i).play hgame nofun)
  | network i utcNow receptions =>
    obtain ⟨-, hturn⟩ := Option.ite_none_right_eq_some.mp hs
    obtain ⟨out, hout, rfl⟩ := Option.map_eq_some_iff.mp hturn
    exact proceed_clients d (P := fun _ => Counted) h ((h i).turn (toOption_eq_some.mp hout))
  | updateOther i deltaTime utcNow =>
    obtain rfl := Option.some.inj hs
    exact proceed_clients d (P := fun _ => Counted) h ((h i).updateOther deltaTime utcNow)
  | unload i =>
    obtain rfl := Option.some.inj hs
    exact proceed_clients d (P := fun _ => Counted) h ⟨(h i).handOver, (h i).sent, (h i).shown⟩
  | serve k now checkedAt restartedAt =>
    obtain ⟨m, -, hturn⟩ := Option.bind_eq_some_iff.mp hs
    obtain ⟨out, -, rfl⟩ := Option.map_eq_some_iff.mp hturn
    exact h

end Steps

variable [Fintype ι] [DecidableEq ι]

/-- No client shows more shots than it has accepted firing packets, and it has accepted no
more of these than the other clients have fired shots. -/
def NoneInvented (s : System ι F) : Prop :=
  ∀ i, (s.clients i).other.shots.length ≤ (s.clients i).taken.countP fires ∧
    (s.clients i).taken.countP fires ≤
      ∑ j ∈ Finset.univ.erase i, (s.clients j).game.handOver.shots.length

theorem noneInvented {d : Deployment ι F} {s : System ι F} (hgenuine : Genuine d s)
    (hcounted : ∀ i, Counted (s.clients i)) : NoneInvented s := by
  intro i
  refine ⟨(hcounted i).shown, ?_⟩
  have hnodup : ((s.clients i).taken.filter fires).Nodup :=
    ((hgenuine.growing i).stamps.imp fun hlt heq => hlt.ne (congrArg stamp heq)).filter _
  have hspread : ∀ p ∈ (s.clients i).taken.filter fires,
      ∃ j ∈ Finset.univ.erase i, p ∈ (s.clients j).sent.filter fires := by
    intro p hp
    obtain ⟨htaken, hfires⟩ := List.mem_filter.mp hp
    obtain ⟨j, hj, hsent⟩ := hgenuine.taken i p htaken
    exact ⟨j, Finset.mem_erase.mpr ⟨hj, Finset.mem_univ j⟩, List.mem_filter.mpr ⟨hsent, hfires⟩⟩
  calc (s.clients i).taken.countP fires
    _ = ((s.clients i).taken.filter fires).length := List.countP_eq_length_filter
    _ ≤ ∑ j ∈ Finset.univ.erase i, ((s.clients j).sent.filter fires).length :=
      length_le_sum hnodup _ _ hspread
    _ ≤ ∑ j ∈ Finset.univ.erase i, (s.clients j).game.handOver.shots.length :=
      Finset.sum_le_sum fun j _ =>
        List.countP_eq_length_filter.symm.le.trans (hcounted j).countP_sent_le

/-- In every run of the game, at every moment, whatever the network doubles and however the
threads take turns, no client shows more shots than the others have fired. -/
theorem always_noneInvented (d : Deployment ι F) (negPiOver2 : F)
    (events : List (RelaySystem.Event ι F)) :
    Always (step d) NoneInvented (start d negPiOver2) events := by
  have hstart : ∀ i, Counted ((start d negPiOver2 : System ι F).clients i) :=
    fun _ => ⟨Nat.le_refl 0, rfl, Nat.le_refl 0⟩
  have hboth : Always (step d) (fun s => Genuine d s ∧ ∀ i, Counted (s.clients i))
      (start d negPiOver2) events :=
    always_of_preserved ⟨genuine_start negPiOver2, hstart⟩
      fun _ _ _ h hs => ⟨h.1.step hs, counted_step h.2 hs⟩
  exact hboth.mono fun _ h => noneInvented h.1 h.2

section Witness

open NetworkPacket (getBytes)
open RelayCompleteness (ieee)

def shot : Datagram := getBytes ieee 100
  { positionX := 512000, positionY := 384041, velocityY := 1659, rotation := -1570,
    speed := 400000, delta := 16, isFiring := 1 }

def firedOnce : List (RelaySystem.Event Bool ℚ) :=
  let firing := RelaySystem.Event.update false (fun key => key = .space) (1 / 60)
  [firing, firing, .game false, .game false, .game false, .network false 100 [],
    .update true (fun _ => false) (1 / 60)] ++ handOver true 50 ++
    [.serve 1 0 0 0, .serve 0 0 0 0, .serve 0 0 0 0,
      .network true 200 [.receivedBytes shot, .receivedBytes shot],
      .updateOther true (1 / 60) fun _ => 200]

theorem always_noneInvented_firedOnce :
    Always (step twoClients) NoneInvented (start twoClients (-157 / 100)) firedOnce :=
  always_noneInvented twoClients (-157 / 100) firedOnce

end Witness

end RocketGame.ShownShots
