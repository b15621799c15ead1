import RocketGame.Link

/-!
The order in which the player states of the server reach the interface. Every
branch of HandleGameState, also those for late and duplicate packets, ends in the
push to IncomingStates, so the lists come in the order in which the network hands
the datagrams over, and Game::Update shows whichever it pops last.
-/
namespace RocketGame.ScreenOrder

open AckExchange (EndChange Increasing Message Side increasing_fresh)
open Client (NetworkQueue)
open Link (Initial Packet WellFormed)
open Runs Windows

/-- A list that HandleGameState pushed: the place of its datagram among those the
server sent, and the server's localSequenceNumberLarge in it. -/
structure Pushed where
  position : ℕ
  number : UInt64
  deriving DecidableEq, Repr

structure State where
  link : Link.State
  pushed : List Pushed := []
  deriving DecidableEq, Repr

inductive Event
  | network (e : Link.Event)
  | pop

/-- What a delivery pushed: with a full queue the push fails and nothing is added. -/
def pushedBy (link link' : Link.State) : Link.Event → List Pushed
  | .toClient k _ =>
      if link.client.incomingStates.items.length < link'.client.incomingStates.items.length then
        (link.toClient[k]?.map fun packet => ⟨k, packet.number⟩).toList
      else []
  | _ => []

def step (physics : Client.PhysicsEngine) (s : State) : Event → Option State
  | .network e => (Link.step physics s.link e).map fun link =>
      { link := link
        pushed := s.pushed ++ pushedBy s.link link e }
  | .pop =>
      match s.link.client.incomingStates.pop with
      | none => some s
      | some (_, incomingStates) =>
          some { s with
            link := { s.link with
              client := { s.link.client with incomingStates := incomingStates } } }

def State.hasRoom (s : State) : Prop :=
  s.link.client.incomingStates.items.length + 1 ≠ NetworkQueue.capacity

instance (s : State) : Decidable s.hasRoom := by
  delta State.hasRoom
  infer_instance

/-- While the queue has room, the network hands over the datagrams of the server
in the order in which they were sent, each of them at most once. -/
def DeliveredInOrder (s : State) : Event → Prop
  | .network (.toClient k _) =>
      s.link.toClient[k]?.isSome → s.hasRoom → ∀ d ∈ s.pushed, d.position < k
  | _ => True

/-- The lists pushed carry increasing numbers of the server. -/
def NeverBack (s : State) : Prop := (s.pushed.map Pushed.number).Pairwise (· < ·)

def NoOverflow (s : State) : Prop :=
  ∀ ch ∈ s.link.channel .server, ch.localSequenceNumberLarge.toNat + 1 < 2 ^ 64

structure Placed (s : State) : Prop where
  wellFormed : WellFormed s.link
  increasing : Increasing s.link.abstract.server
  placed : ∀ d ∈ s.pushed, (s.link.toClient.map Packet.number)[d.position]? = some d.number

theorem map_number_message (packets : List Packet) :
    (packets.map Packet.message).map Message.number = packets.map Packet.number := by
  rw [List.map_map]
  rfl

/-- Later datagrams carry higher numbers. -/
theorem Placed.number_lt_iff {s : State} (h : Placed s) {j k : ℕ} {m n : UInt64}
    (hm : (s.link.toClient.map Packet.number)[j]? = some m)
    (hn : (s.link.toClient.map Packet.number)[k]? = some n) : m < n ↔ j < k := by
  have hsent := Window.increasing h.increasing
  change ((s.link.toClient.map Packet.message).map Message.number).Pairwise (· < ·) at hsent
  rw [map_number_message, List.pairwise_iff_getElem] at hsent
  obtain ⟨hj, rfl⟩ := List.getElem?_eq_some_iff.mp hm
  obtain ⟨hk, rfl⟩ := List.getElem?_eq_some_iff.mp hn
  constructor
  · intro hlt
    by_contra hle
    rcases Nat.eq_or_lt_of_le (Nat.le_of_not_lt hle) with heq | hgt
    · subst heq
      exact UInt64.lt_irrefl _ hlt
    · exact UInt64.lt_asymm hlt (hsent k j hk hj hgt)
  · exact hsent j k hj hk

section Steps

variable {physics : Client.PhysicsEngine} {s s' : State}

/-- A delivery pushes its list exactly when the queue has room for it. -/
theorem pushedBy_toClient {link' : Link.State} (hwf : WellFormed s.link) {k : ℕ} {env : Client.Env}
    {packet : Packet} (hpacket : s.link.toClient[k]? = some packet)
    (hs : Link.step physics s.link (.toClient k env) = some link') :
    pushedBy s.link link' (.toClient k env) =
      if s.hasRoom then [⟨k, packet.number⟩] else [] := by
  obtain ⟨_, playerStates, o, _, ho, _, _, _, hincoming⟩ :=
    Link.client_delivery hwf (List.mem_of_getElem? hpacket) env
  simp only [Link.step, hpacket, ho, Option.bind_eq_bind, Option.bind_some, Option.pure_def,
    Option.some.injEq] at hs
  obtain rfl := hs
  have hgrew : s.link.client.incomingStates.items.length < o.state.incomingStates.items.length ↔
      s.hasRoom := by
    rw [hincoming, NetworkQueue.push, State.hasRoom]
    split <;> simp [*]
  simp only [pushedBy, hgrew, hpacket, Option.map_some, Option.toList_some]

theorem exists_step_toClient (hwf : WellFormed s.link) {k : ℕ} {packet : Packet}
    (hpacket : s.link.toClient[k]? = some packet) (env : Client.Env) :
    ∃ link', Link.step physics s.link (.toClient k env) = some link' := by
  obtain ⟨_, _, o, _, ho, _⟩ := Link.client_delivery hwf (List.mem_of_getElem? hpacket) env
  simp only [Link.step, hpacket, ho, Option.bind_eq_bind, Option.bind_some, Option.pure_def,
    Option.some.injEq, exists_eq']

theorem mem_pushedBy {link link' : Link.State} {e : Link.Event} {d : Pushed}
    (hd : d ∈ pushedBy link link' e) :
    (link.toClient.map Packet.number)[d.position]? = some d.number := by
  unfold pushedBy at hd
  split at hd
  · rename_i k env
    split at hd
    · obtain ⟨packet, hpacket, rfl⟩ := Option.map_eq_some_iff.mp (Option.mem_toList.mp hd)
      rw [List.getElem?_map, hpacket, Option.map_some]
    · cases hd
  · cases hd

theorem NoOverflow.server (h : NoOverflow s) (hwf : WellFormed s.link) :
    s.link.abstract.server.channel.localSequenceNumberLarge.toNat + 1 < 2 ^ 64 := by
  obtain ⟨player, hrecord⟩ := hwf.record
  have hchannel : s.link.channel .server = some player.toChannel :=
    congrArg (Option.map Server.Player.toChannel) hrecord
  have habstract : (s.link.abstract.at .server).channel = player.toChannel :=
    Link.at_abstract_channel hchannel
  change (s.link.abstract.at .server).channel.localSequenceNumberLarge.toNat + 1 < 2 ^ 64
  rw [habstract]
  exact h _ hchannel

theorem Placed.step (h : Placed s) (hroom : NoOverflow s) {e : Event}
    (hs : step physics s e = some s') : Placed s' := by
  cases e with
  | network e =>
    obtain ⟨link', hlink, rfl⟩ := Option.map_eq_some_iff.mp hs
    obtain ⟨hwf, hincreasing⟩ := Link.step_protocol (J := fun a => Increasing a.server)
      (D := fun _ _ => True) h.wellFormed h.increasing hlink (fun _ _ _ _ _ => trivial)
      fun a' hchange => h.increasing.change (hroom.server h.wellFormed) (hchange .server)
    refine ⟨hwf, hincreasing, fun d hd => ?_⟩
    obtain ⟨sent, hsent⟩ := Link.step_toClient_append hlink
    have hplace : (s.link.toClient.map Packet.number)[d.position]? = some d.number := by
      rcases List.mem_append.mp hd with hold | hnew
      · exact h.placed d hold
      · exact mem_pushedBy hnew
    have hlt := (List.getElem?_eq_some_iff.mp hplace).1
    rw [hsent, List.map_append, List.getElem?_append_left hlt, hplace]
  | pop =>
    simp only [ScreenOrder.step] at hs
    split at hs
    · obtain rfl := Option.some.inj hs
      exact h
    · obtain rfl := Option.some.inj hs
      exact ⟨⟨h.wellFormed.record, h.wellFormed.toServer, h.wellFormed.toClient⟩, h.increasing,
        h.placed⟩

/-- A datagram from the place it was sent in goes on with the order exactly when it
comes after all those taken before. -/
theorem Placed.neverBack_append_iff (h : Placed s) (hback : NeverBack s) {k : ℕ} {packet : Packet}
    (hpacket : s.link.toClient[k]? = some packet) :
    ((s.pushed ++ [Pushed.mk k packet.number]).map Pushed.number).Pairwise (· < ·) ↔
      ∀ d ∈ s.pushed, d.position < k := by
  have hnumber : (s.link.toClient.map Packet.number)[k]? = some packet.number := by
    rw [List.getElem?_map, hpacket, Option.map_some]
  simp only [List.map_append, List.map_cons, List.map_nil, List.pairwise_append,
    List.pairwise_singleton, List.mem_singleton, forall_eq, true_and, List.forall_mem_map]
  apply (and_iff_right hback).trans
  exact forall₂_congr fun d hd => h.number_lt_iff (h.placed d hd) hnumber

/-- A step keeps the order exactly when it delivers in order. -/
theorem Placed.neverBack_step_iff (h : Placed s) (hback : NeverBack s) {e : Event}
    (hs : ScreenOrder.step physics s e = some s') : NeverBack s' ↔ DeliveredInOrder s e := by
  cases e with
  | network e =>
    obtain ⟨link', hlink, rfl⟩ := Option.map_eq_some_iff.mp hs
    cases e with
    | toClient k env =>
      obtain ⟨packet, hpacket, _⟩ := Option.bind_eq_some_iff.mp hlink
      simp only [NeverBack, DeliveredInOrder, hpacket, Option.isSome_some, forall_const,
        pushedBy_toClient h.wellFormed hpacket hlink]
      split
      · rename_i hroom
        rw [forall_prop_of_true hroom]
        exact h.neverBack_append_iff hback hpacket
      · rename_i hfull
        rw [List.append_nil]
        exact iff_of_true hback fun hroom => absurd hroom hfull
    | _ =>
      refine iff_of_true ?_ trivial
      change ((s.pushed ++ []).map Pushed.number).Pairwise (· < ·)
      rw [List.append_nil]
      exact hback
  | pop =>
    refine iff_of_true ?_ trivial
    simp only [ScreenOrder.step] at hs
    split at hs
    · obtain rfl := Option.some.inj hs
      exact hback
    · obtain rfl := Option.some.inj hs
      exact hback

/-- A step that is not allowed is a delivery, and deliveries are never stuck. -/
theorem exists_step_of_not_deliveredInOrder (hwf : WellFormed s.link) {e : Event}
    (h : ¬ DeliveredInOrder s e) : ∃ s', ScreenOrder.step physics s e = some s' := by
  unfold DeliveredInOrder at h
  split at h
  · rename_i k env
    obtain ⟨packet, hpacket⟩ := Option.isSome_iff_exists.mp (Classical.not_imp.mp h).1
    obtain ⟨link', hlink⟩ : ∃ link', Link.step physics s.link (.toClient k env) = some link' :=
      exists_step_toClient hwf hpacket env
    exact ⟨_, Option.map_eq_some_iff.mpr ⟨link', hlink, rfl⟩⟩
  · exact absurd trivial h

end Steps

def Start (s : State) : Prop := Initial s.link ∧ s.pushed = []

theorem Start.placed {s : State} (h : Start s) : Placed s where
  wellFormed := h.1.wellFormed
  increasing := by
    rw [h.1.abstract]
    exact increasing_fresh
  placed := by
    rw [h.2]
    exact fun _ hd => nomatch hd

/-- In every run the lists pushed to IncomingStates carry increasing numbers of the
server exactly when the network hands over the datagrams in order and once. -/
theorem always_neverBack_iff (physics : Client.PhysicsEngine) (s : State) (events : List Event)
    (hstart : Start s) (hroom : Always (step physics) NoOverflow s events) :
    Always (step physics) NeverBack s events ↔
      Throughout (step physics) DeliveredInOrder s events := by
  refine always_iff_throughout_within (I := fun s => Placed s ∧ NeverBack s)
    ⟨hstart.placed, ?_⟩ hroom (fun _ hI => hI.2) ?_ ?_
  · rw [NeverBack, hstart.2]
    exact List.Pairwise.nil
  · rintro s e s' ⟨hplaced, hback⟩ hroom hC hs
    exact ⟨hplaced.step hroom hs, (hplaced.neverBack_step_iff hback hs).mpr hC⟩
  · rintro s e ⟨hplaced, hback⟩ _ hC
    obtain ⟨s', hs⟩ := exists_step_of_not_deliveredInOrder hplaced.wellFormed hC
    exact ⟨s', hs, mt (hplaced.neverBack_step_iff hback hs).mp hC⟩

def start (inputs : List PlayerStates.PlayerState) : State where
  link := Link.paired inputs

theorem start_start (inputs : List PlayerStates.PlayerState) : Start (start inputs) :=
  ⟨Link.initial_paired inputs, rfl⟩

instance decidableNoOverflow (s : State) : Decidable (NoOverflow s) := by
  delta NoOverflow
  infer_instance

instance decidableNeverBack (s : State) : Decidable (NeverBack s) := by
  delta NeverBack
  infer_instance

/-- One input goes up, and the reply comes back. -/
theorem always_neverBack_iff_reply :
    Always (step .resting) NeverBack (start [{}])
        [.network (.send {}), .network (.toServer 0 {}), .network (.toClient 0 {}), .pop] ↔
      Throughout (step .resting) DeliveredInOrder (start [{}])
        [.network (.send {}), .network (.toServer 0 {}), .network (.toClient 0 {}), .pop] :=
  always_neverBack_iff .resting (start [{}]) _ (start_start _) (by decide +kernel)

/-- The second reply arrives, the first one after it, and both lists are pushed. -/
theorem late_reply_is_pushed :
    ¬ ∀ (physics : Client.PhysicsEngine) (s : State) (events : List Event), Start s →
      Always (step physics) (fun t => NoOverflow t ∧ t.link.toClient.length < 65535) s events →
      Always (step physics) NeverBack s events := by
  intro h
  have hrun := h .resting (start [{}, {}])
    [.network (.send {}), .network (.send {}), .network (.toServer 0 {}),
      .network (.toServer 1 {}), .network (.toClient 1 {}), .network (.toClient 0 {})]
    (start_start _) (by decide +kernel)
  exact absurd hrun (by decide +kernel)

end RocketGame.ScreenOrder
