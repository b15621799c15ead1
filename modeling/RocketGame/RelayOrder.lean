import RocketGame.RelaySystem

/-!
What reaches the other rockets through the relay. Every datagram in the network is a
packet some client sent, and the server sends it to other endpoints only, so every
packet in Incoming is another client's. The filter on the stamps undoes what the
network may do: what a rocket accepts of one client is in the order it was sent in.
-/
namespace RocketGame.RelayOrder

open GameNetwork OtherRocketUpdate PacketRoundTrip RelaySystem RocketMotion RocketServer
open RocketShared RunningMaxima ShotReceiving Runs
open NetworkPacket (fromBytes getBytes)

variable {ι F : Type} (d : Deployment ι F)

def Carries (data : Datagram) (packets : List NetworkPacket) : Prop :=
  ∃ packet ∈ packets, fromBytes d.crc32 data = .ok packet

def SentByOther (s : System ι F) (i : ι) (packet : NetworkPacket) : Prop :=
  ∃ j, j ≠ i ∧ packet ∈ (s.clients j).sent

structure Growing (c : Client F) : Prop where
  stamps : c.taken.Pairwise fun p q => stamp p < stamp q
  next : ∀ p ∈ c.taken, stamp p ≤ stamp c.other.next

structure Genuine (s : System ι F) : Prop where
  flags : ∀ i, ∀ p ∈ packets (s.clients i).game.handOver, FlagsAreBits p
  toServer : ∀ m ∈ s.toServer, ∃ i, d.address i = m.1 ∧ Carries d m.2 (s.clients i).sent
  toClients : ∀ m ∈ s.toClients, ∃ j, d.address j ≠ m.1 ∧ Carries d m.2 (s.clients j).sent
  incoming : ∀ i, ∀ p ∈ (s.clients i).network.incoming, SentByOther s i p
  taken : ∀ i, ∀ p ∈ (s.clients i).taken, SentByOther s i p
  growing : ∀ i, Growing (s.clients i)

structure Sighted (s : System ι F) : Prop where
  inSight : ∀ i, InSight d.arithmetic d.content d.settings (s.clients i).game
  sent : ∀ i, ∀ p ∈ (s.clients i).sent, TellsOfScreen d.arithmetic d.content d.settings p

section Client

variable {d} {c c' : Client F} {utcNow : Int64} {receptions : List GameNetwork.Reception}
  {data : List Datagram}

/-- What a turn of the network thread does to its client. -/
theorem turn_eq_ok (h : c.turn d utcNow receptions = .ok (c', data)) :
    ∃ network, c' = { c with
        game := { c.game with handOver := RocketUpdate.dequeueToSend c.game.handOver }
        network
        sent := c.sent ++ c.stamped utcNow } ∧
      network.incoming = c.network.incoming ++ receptions.filterMap (GameNetwork.accepted d.crc32) ∧
      data = (c.outgoing.take 1).map (getBytes d.crc32 utcNow) := by
  unfold Client.turn at h
  cases hturn : GameNetwork.turn d.crc32 { c.network with outgoing := c.outgoing }
      ⟨utcNow, receptions⟩ with
  | error e =>
    rw [hturn] at h
    cases h
  | ok out =>
    rw [hturn] at h
    obtain ⟨network, hall, rfl⟩ := GameNetwork.turn_eq_ok.mp hturn
    have hincoming := incoming_receiveAll hall
    rw [incoming_sendNext] at hincoming
    obtain ⟨rfl, rfl⟩ := Prod.mk.inj (Except.ok.inj h)
    refine ⟨network, rfl, hincoming, ?_⟩
    dsimp only [sendNext]
    cases c.outgoing <;> rfl

theorem mem_packets_of_mem_outgoing {packet : NetworkPacket} (h : packet ∈ c.outgoing.take 1) :
    packet ∈ packets c.game.handOver := by
  have hqueue := List.mem_of_mem_take h
  rw [Client.outgoing] at hqueue
  rw [packets, List.map_append]
  exact List.mem_append_right _ (List.mem_append_left _ hqueue)

theorem mem_stamped {p : NetworkPacket} : p ∈ c.stamped utcNow ↔
    ∃ packet ∈ c.outgoing.take 1, { packet with ticks := utcNow } = p := List.mem_map

/-- What is sent tells of the place that the packet in Outgoing told of. -/
theorem tellsOfScreen_of_mem_stamped
    (h : InSight d.arithmetic d.content d.settings c.game) {p : NetworkPacket}
    (hp : p ∈ c.stamped utcNow) : TellsOfScreen d.arithmetic d.content d.settings p := by
  obtain ⟨packet, hpacket, rfl⟩ := mem_stamped.mp hp
  have htells := h.packets packet (mem_packets_of_mem_outgoing hpacket)
  exact ⟨htells.place, htells.flags⟩

/-- What the turn sends decodes to what it records. -/
theorem carries_of_mem_sent (h : ∀ p ∈ packets c.game.handOver, FlagsAreBits p)
    {datagram : Datagram} (hdata : datagram ∈ (c.outgoing.take 1).map (getBytes d.crc32 utcNow)) :
    Carries d datagram (c.sent ++ c.stamped utcNow) := by
  obtain ⟨packet, hpacket, rfl⟩ := List.mem_map.mp hdata
  have hflags := h packet (mem_packets_of_mem_outgoing hpacket)
  refine ⟨{ packet with ticks := utcNow }, ?_, fromBytes_getBytes d.crc32 hflags⟩
  exact List.mem_append_right _ (mem_stamped.mpr ⟨packet, hpacket, rfl⟩)

theorem Growing.updateOther (h : Growing c) (deltaTime : F) (utcNow : ℕ → Int64) :
    Growing (c.updateOther d deltaTime utcNow) := by
  have hnext : stamp (c.updateOther d deltaTime utcNow).other.next =
      top stamp (stamp c.other.next) c.network.incoming := stamp_update _ _
  have htaken : (c.updateOther d deltaTime utcNow).taken =
      c.taken ++ maxima stamp (stamp c.other.next) c.network.incoming :=
    congrArg (c.taken ++ ·) (accepted_eq_maxima _ _)
  constructor
  · rw [htaken, List.pairwise_append]
    refine ⟨h.stamps, pairwise_maxima, fun p hp q hq => ?_⟩
    exact (h.next p hp).trans_lt (bound_lt_of_mem hq)
  · rw [htaken, hnext]
    intro p hp
    rcases List.mem_append.mp hp with hp | hp
    · exact (h.next p hp).trans le_top
    · exact key_le_top (maxima_sublist.subset hp)

end Client

section Steps

variable {d} {s s' : System ι F}

theorem Carries.mono {data : Datagram} {packets packets' : List NetworkPacket}
    (h : Carries d data packets) (hsub : packets ⊆ packets') : Carries d data packets' := by
  obtain ⟨packet, hpacket, hdata⟩ := h
  exact ⟨packet, hsub hpacket, hdata⟩

/-- The packets that decode from what a client can receive are other clients'. -/
theorem Genuine.sentByOther (h : Genuine d s) {i : ι} {r : GameNetwork.Reception}
    {packet : NetworkPacket} (hr : s.Receivable d i r)
    (hpacket : GameNetwork.accepted d.crc32 r = some packet) : SentByOther s i packet := by
  cases r with
  | socketException => cases hpacket
  | receivedBytes data =>
    obtain ⟨j, hj, packet', hsent, hdata⟩ := h.toClients _ hr
    rw [GameNetwork.accepted, hdata] at hpacket
    obtain rfl := Option.some.inj hpacket
    refine ⟨j, ?_, hsent⟩
    rintro rfl
    exact hj rfl

/-- A turn of the server passes a datagram on to other endpoints. -/
theorem Genuine.serve (h : Genuine d s) {m : Sent} {now : DateTime} {checkedAt restartedAt : ℕ}
    {out : Server × List Sent} (hm : m ∈ s.toServer)
    (hturn : RocketServer.turn d.crc32 s.server
      (.received (System.reception m now checkedAt restartedAt)) = .ok out) :
    Genuine d (s.serve out) := by
  refine { h with toClients := fun m' hm' => ?_ }
  rcases List.mem_append.mp hm' with hm' | hm'
  · exact h.toClients m' hm'
  · obtain ⟨hdata, -, hother, -⟩ := (RelayRegistry.mem_sent hturn).mp hm'
    obtain ⟨i, hi, hcarries⟩ := h.toServer m hm
    refine ⟨i, ?_, ?_⟩
    · rw [hi]
      exact hother.symm
    · rw [hdata]
      exact hcarries

variable [DecidableEq ι]

theorem Genuine.proceed (h : Genuine d s) {i : ι} {c : Client F} {data : List Datagram}
    (hsub : (s.clients i).sent ⊆ c.sent)
    (hflags : ∀ p ∈ packets c.game.handOver, FlagsAreBits p)
    (hdata : ∀ datagram ∈ data, Carries d datagram c.sent)
    (hincoming : ∀ p ∈ c.network.incoming, SentByOther s i p)
    (htaken : ∀ p ∈ c.taken, SentByOther s i p) (hgrowing : Growing c) :
    Genuine d (s.proceed d i c data) := by
  have hgrow : ∀ j, (s.clients j).sent ⊆ ((s.proceed d i c data).clients j).sent :=
    proceed_clients d (P := fun j c => (s.clients j).sent ⊆ c.sent)
      (fun _ => List.Subset.refl _) hsub
  have hother : ∀ {j p}, SentByOther s j p → SentByOther (s.proceed d i c data) j p := by
    rintro j p ⟨k, hk, hp⟩
    exact ⟨k, hk, hgrow k hp⟩
  constructor
  · exact proceed_clients d (P := fun _ c => ∀ p ∈ packets c.game.handOver, FlagsAreBits p)
      h.flags hflags
  · intro m hm
    rcases List.mem_append.mp hm with hm | hm
    · obtain ⟨j, hj, hcarries⟩ := h.toServer m hm
      exact ⟨j, hj, hcarries.mono (hgrow j)⟩
    · obtain ⟨datagram, hdatagram, rfl⟩ := List.mem_map.mp hm
      refine ⟨i, rfl, ?_⟩
      rw [proceed_clients_same]
      exact hdata datagram hdatagram
  · intro m hm
    obtain ⟨j, hj, hcarries⟩ := h.toClients m hm
    exact ⟨j, hj, hcarries.mono (hgrow j)⟩
  · exact proceed_clients d (P := fun j c => ∀ p ∈ c.network.incoming, SentByOther _ j p)
      (fun j p hp => hother (h.incoming j p hp)) fun p hp => hother (hincoming p hp)
  · exact proceed_clients d (P := fun j c => ∀ p ∈ c.taken, SentByOther _ j p)
      (fun j p hp => hother (h.taken j p hp)) fun p hp => hother (htaken p hp)
  · exact proceed_clients d (P := fun _ c => Growing c) h.growing hgrowing

/-- A step of the game thread that only its own half of the client sees. -/
theorem Genuine.play (h : Genuine d s) {i : ι} {e : RocketMotion.Event F} {game : GameThread F}
    (hstep : RocketMotion.step d.arithmetic d.content d.settings (s.clients i).game e =
      some game) : Genuine d (s.proceed d i { s.clients i with game } []) :=
  h.proceed (List.Subset.refl _) (flagsAreBits_step (h.flags i) hstep)
    (fun _ hdata => absurd hdata List.not_mem_nil) (h.incoming i) (h.taken i)
    ⟨(h.growing i).stamps, (h.growing i).next⟩

theorem Genuine.turn (h : Genuine d s) {i : ι}
    {utcNow : Int64} {receptions : List GameNetwork.Reception} {out : Client F × List Datagram}
    (hreceivable : ∀ r ∈ receptions, s.Receivable d i r)
    (hturn : (s.clients i).turn d utcNow receptions = .ok out) :
    Genuine d (s.proceed d i out.1 out.2) := by
  obtain ⟨c, data⟩ := out
  obtain ⟨network, rfl, hincoming, rfl⟩ := turn_eq_ok hturn
  apply h.proceed
  · exact List.subset_append_left _ _
  · exact fun p hp => h.flags i p (packets_dequeueToSend p hp)
  · exact fun datagram hdata => carries_of_mem_sent (h.flags i) hdata
  · intro p hp
    dsimp only at hp
    rw [hincoming] at hp
    rcases List.mem_append.mp hp with hp | hp
    · exact h.incoming i p hp
    · obtain ⟨r, hr, hpacket⟩ := List.mem_filterMap.mp hp
      exact h.sentByOther (hreceivable r hr) hpacket
  · exact h.taken i
  · exact ⟨(h.growing i).stamps, (h.growing i).next⟩

theorem Genuine.updateOther (h : Genuine d s) (i : ι) (deltaTime : F) (utcNow : ℕ → Int64) :
    Genuine d (s.proceed d i ((s.clients i).updateOther d deltaTime utcNow) []) := by
  refine h.proceed (List.Subset.refl _) (h.flags i)
    (fun _ hdata => absurd hdata List.not_mem_nil) (fun _ hp => absurd hp List.not_mem_nil)
    (fun p hp => ?_) ((h.growing i).updateOther deltaTime utcNow)
  rcases List.mem_append.mp hp with hp | hp
  · exact h.taken i p hp
  · rw [accepted_eq_maxima] at hp
    exact h.incoming i p (maxima_sublist.subset hp)

theorem Genuine.step (h : Genuine d s) {e : RelaySystem.Event ι F}
    (hs : RelaySystem.step d s e = some s') : Genuine d s' := by
  cases e with
  | update i keyboardState deltaTime =>
    obtain ⟨game, hgame, rfl⟩ := Option.map_eq_some_iff.mp hs
    exact h.play hgame
  | game i =>
    obtain ⟨game, hgame, rfl⟩ := Option.map_eq_some_iff.mp hs
    exact h.play hgame
  | network i utcNow receptions =>
    obtain ⟨⟨-, hreceivable⟩, hturn⟩ := Option.ite_none_right_eq_some.mp hs
    obtain ⟨out, hout, rfl⟩ := Option.map_eq_some_iff.mp hturn
    exact h.turn hreceivable (toOption_eq_some.mp hout)
  | updateOther i deltaTime utcNow =>
    obtain rfl := Option.some.inj hs
    exact h.updateOther i deltaTime utcNow
  | unload i =>
    obtain rfl := Option.some.inj hs
    exact h.proceed (List.Subset.refl _) (h.flags i)
      (fun _ hdata => absurd hdata List.not_mem_nil) (h.incoming i) (h.taken i)
      ⟨(h.growing i).stamps, (h.growing i).next⟩
  | serve k now checkedAt restartedAt =>
    obtain ⟨m, hm, hturn⟩ := Option.bind_eq_some_iff.mp hs
    obtain ⟨out, hout, rfl⟩ := Option.map_eq_some_iff.mp hturn
    exact h.serve (List.mem_of_getElem? hm) (toOption_eq_some.mp hout)

theorem Sighted.proceed (h : Sighted d s) {i : ι} {c : Client F} {data : List Datagram}
    (hsight : InSight d.arithmetic d.content d.settings c.game)
    (hsent : ∀ p ∈ c.sent, TellsOfScreen d.arithmetic d.content d.settings p) :
    Sighted d (s.proceed d i c data) where
  inSight := proceed_clients d (P := fun _ c => InSight _ _ _ c.game) h.inSight hsight
  sent := proceed_clients d (P := fun _ c => ∀ p ∈ c.sent, TellsOfScreen _ _ _ p) h.sent hsent

theorem Sighted.step (h : Sighted d s) (hfits : Fits d.arithmetic d.content d.settings)
    {e : RelaySystem.Event ι F} (hs : RelaySystem.step d s e = some s') : Sighted d s' := by
  cases e with
  | update i keyboardState deltaTime =>
    obtain ⟨game, hgame, rfl⟩ := Option.map_eq_some_iff.mp hs
    exact h.proceed (hfits.inSight_step (h.inSight i) hgame) (h.sent i)
  | game i =>
    obtain ⟨game, hgame, rfl⟩ := Option.map_eq_some_iff.mp hs
    exact h.proceed (hfits.inSight_step (h.inSight i) hgame) (h.sent i)
  | network i utcNow receptions =>
    obtain ⟨-, hturn⟩ := Option.ite_none_right_eq_some.mp hs
    obtain ⟨⟨c, data⟩, hout, rfl⟩ := Option.map_eq_some_iff.mp hturn
    obtain ⟨network, rfl, -⟩ := turn_eq_ok (toOption_eq_some.mp hout)
    have hsight := h.inSight i
    refine h.proceed ⟨hsight.position, hsight.shots, fun p hp => ?_⟩ fun p hp => ?_
    · exact hsight.packets p (packets_dequeueToSend p hp)
    · rcases List.mem_append.mp hp with hp | hp
      · exact h.sent i p hp
      · exact tellsOfScreen_of_mem_stamped hsight hp
  | updateOther i deltaTime utcNow =>
    obtain rfl := Option.some.inj hs
    exact h.proceed (h.inSight i) (h.sent i)
  | unload i =>
    obtain rfl := Option.some.inj hs
    exact h.proceed (h.inSight i) (h.sent i)
  | serve k now checkedAt restartedAt =>
    obtain ⟨m, -, hturn⟩ := Option.bind_eq_some_iff.mp hs
    obtain ⟨out, -, rfl⟩ := Option.map_eq_some_iff.mp hturn
    exact ⟨h.inSight, h.sent⟩

omit [DecidableEq ι] in
theorem sighted_start (hfits : Fits d.arithmetic d.content d.settings) (negPiOver2 : F) :
    Sighted d (start d negPiOver2 : System ι F) where
  inSight _ := ⟨hfits.centre, fun _ hshot => absurd hshot List.not_mem_nil,
    fun _ hpacket => absurd hpacket List.not_mem_nil⟩
  sent _ _ hp := absurd hp List.not_mem_nil

omit [DecidableEq ι] in
theorem genuine_start (negPiOver2 : F) : Genuine d (start d negPiOver2 : System ι F) where
  flags _ _ hp := absurd hp List.not_mem_nil
  toServer _ hm := absurd hm List.not_mem_nil
  toClients _ hm := absurd hm List.not_mem_nil
  incoming _ _ hp := absurd hp List.not_mem_nil
  taken _ _ hp := absurd hp List.not_mem_nil
  growing _ := ⟨List.Pairwise.nil, fun _ hp => absurd hp List.not_mem_nil⟩

end Steps

variable [DecidableEq ι]

/-- The clock of a client that sends has not gone back behind a stamp it has written. -/
def ClockForward (s : System ι F) : RelaySystem.Event ι F → Prop
  | .network i utcNow _ => ∀ p ∈ (s.clients i).sent, p.ticks ≤ utcNow
  | _ => True

instance (s : System ι F) : ∀ e : RelaySystem.Event ι F, Decidable (ClockForward s e)
  | .network i utcNow _ => inferInstanceAs (Decidable (∀ p ∈ (s.clients i).sent, p.ticks ≤ utcNow))
  | .update .. | .game _ | .updateOther .. | .unload _ | .serve .. => isTrue True.intro

def Stamped (s : System ι F) : Prop :=
  ∀ i, (s.clients i).sent.Pairwise fun p q => stamp p ≤ stamp q

section Clocks

variable {d} {s s' : System ι F}

theorem pairwise_stamped {c : Client F} {utcNow : Int64}
    (h : c.sent.Pairwise fun p q => stamp p ≤ stamp q) (hclock : ∀ p ∈ c.sent, p.ticks ≤ utcNow) :
    (c.sent ++ c.stamped utcNow).Pairwise fun p q => stamp p ≤ stamp q := by
  rw [List.pairwise_append]
  refine ⟨h, ?_, fun p hp q hq => ?_⟩
  · rw [Client.stamped, List.pairwise_map]
    exact List.pairwise_of_forall fun _ _ => le_rfl
  · obtain ⟨packet, -, rfl⟩ := mem_stamped.mp hq
    exact Int64.le_iff_toInt_le.mp (hclock p hp)

theorem Stamped.step (h : Stamped s) {e : RelaySystem.Event ι F} (hclock : ClockForward s e)
    (hs : RelaySystem.step d s e = some s') : Stamped s' := by
  have hsame : ∀ {i c data}, c.sent = (s.clients i).sent → Stamped (s.proceed d i c data) := by
    intro i c data hsent
    refine proceed_clients d (P := fun _ c => c.sent.Pairwise fun p q => stamp p ≤ stamp q) h ?_
    rw [hsent]
    exact h i
  cases e with
  | update i keyboardState deltaTime =>
    obtain ⟨game, -, rfl⟩ := Option.map_eq_some_iff.mp hs
    exact hsame rfl
  | game i =>
    obtain ⟨game, -, rfl⟩ := Option.map_eq_some_iff.mp hs
    exact hsame rfl
  | network i utcNow receptions =>
    obtain ⟨-, hturn⟩ := Option.ite_none_right_eq_some.mp hs
    obtain ⟨⟨c, data⟩, hout, rfl⟩ := Option.map_eq_some_iff.mp hturn
    obtain ⟨network, rfl, -⟩ := turn_eq_ok (toOption_eq_some.mp hout)
    exact proceed_clients d (P := fun _ c => c.sent.Pairwise fun p q => stamp p ≤ stamp q) h
      (pairwise_stamped (h i) hclock)
  | updateOther i deltaTime utcNow =>
    obtain rfl := Option.some.inj hs
    exact hsame rfl
  | unload i =>
    obtain rfl := Option.some.inj hs
    exact hsame rfl
  | serve k now checkedAt restartedAt =>
    obtain ⟨m, -, hturn⟩ := Option.bind_eq_some_iff.mp hs
    obtain ⟨out, -, rfl⟩ := Option.map_eq_some_iff.mp hturn
    exact h

end Clocks

/-- What the other rockets have accepted: packets of other clients, from the screen; each
newer than the one before, and those of one client in the order it sent them in. -/
structure DeliveredInOrder (s : System ι F) : Prop where
  genuine : ∀ i, ∀ p ∈ (s.clients i).taken,
    TellsOfScreen d.arithmetic d.content d.settings p ∧ SentByOther s i p
  newer : ∀ i, (s.clients i).taken.Pairwise fun p q => p.ticks < q.ticks
  inOrder : ∀ i j, ((s.clients i).taken.filter fun p => p ∈ (s.clients j).sent).Sublist
    (s.clients j).sent

omit [DecidableEq ι] in
theorem Genuine.deliveredInOrder {d : Deployment ι F} {s : System ι F} (h : Genuine d s)
    (hsighted : Sighted d s) (hstamped : Stamped s) : DeliveredInOrder d s where
  genuine i p hp := by
    obtain ⟨j, hj, hsent⟩ := h.taken i p hp
    exact ⟨hsighted.sent j p hsent, j, hj, hsent⟩
  newer i := (h.growing i).stamps.imp Int64.lt_iff_toInt_lt.mpr
  inOrder i j := by
    refine sublist_of_growing ((h.growing i).stamps.sublist List.filter_sublist) (hstamped j) ?_
    exact fun p hp => of_decide_eq_true (List.mem_filter.mp hp).2

/-- FromBytes accepts whatever has been sent: the server handles it, and a turn of the client
it is for puts it into Incoming. Only a SocketException disconnects a client. -/
structure Unharmed (s : System ι F) : Prop where
  server : ∀ m ∈ s.toServer, ∀ now checkedAt restartedAt,
    let r := System.reception m now checkedAt restartedAt
    ∃ packet, fromBytes d.crc32 m.2 = .ok packet ∧
      RocketServer.turn d.crc32 s.server (.received r) = .ok (handle s.server r packet)
  clients : ∀ i utcNow receptions, (∀ r ∈ receptions, s.Receivable d i r) →
    ∃ c data packets, (s.clients i).turn d utcNow receptions = .ok (c, data) ∧
      List.Forall₂ (fun data packet => fromBytes d.crc32 data = .ok packet)
        (receptions.filterMap Reception.datagram?) packets ∧
      c.network.incoming = (s.clients i).network.incoming ++ packets ∧
      (c.network.status = .disconnected ↔
        (s.clients i).network.status = .disconnected ∨ .socketException ∈ receptions)

omit [DecidableEq ι] in
theorem Genuine.unharmed {d : Deployment ι F} {s : System ι F} (h : Genuine d s) :
    Unharmed d s where
  server m hm now checkedAt restartedAt := by
    obtain ⟨i, -, packet, -, hpacket⟩ := h.toServer m hm
    exact ⟨packet, hpacket, turn_received_eq_ok.mpr ⟨packet, hpacket, rfl⟩⟩
  clients i utcNow receptions hreceivable := by
    have hvalid : ∀ data, .receivedBytes data ∈ receptions → NetworkPacket.Valid d.crc32 data := by
      intro data hdata
      obtain ⟨j, -, packet, -, hpacket⟩ := h.toClients _ (hreceivable _ hdata)
      exact (NetworkPacket.exists_fromBytes_iff d.crc32 data).mp ⟨packet, hpacket⟩
    obtain ⟨network, hall⟩ := (exists_receiveAll_iff receptions).mpr hvalid
    have hturn : GameNetwork.turn d.crc32
        { (s.clients i).network with outgoing := (s.clients i).outgoing } ⟨utcNow, receptions⟩ =
          .ok _ := GameNetwork.turn_eq_ok.mpr ⟨network, hall, rfl⟩
    refine ⟨_, _, _, by rw [Client.turn, hturn]; rfl, forall₂_receiveAll hall, ?_, ?_⟩
    · exact (incoming_receiveAll hall).trans (congrArg (· ++ _) (incoming_sendNext ..))
    · rw [status_receiveAll hall, status_sendNext]

/-- In every run of the game FromBytes accepts all that is sent, so no datagram ends the
server's loop or a client's. -/
theorem always_unharmed (negPiOver2 : F) (events : List (RelaySystem.Event ι F)) :
    Always (step d) (Unharmed d) (start d negPiOver2) events := by
  have hgenuine : Always (step d) (Genuine d) (start d negPiOver2) events :=
    always_of_preserved (genuine_start negPiOver2) fun _ _ _ h hs => h.step hs
  exact hgenuine.mono fun _ h => h.unharmed

/-- In every run of the game whose clients' clocks do not go back, whatever the network loses,
doubles or reorders, each other rocket accepts only packets of other clients, and those of
each client in the order they were sent in. -/
theorem always_delivered_in_order (hfits : Fits d.arithmetic d.content d.settings)
    (negPiOver2 : F) (events : List (RelaySystem.Event ι F))
    (hclock : Throughout (step d) ClockForward (start d negPiOver2) events) :
    Always (step d) (DeliveredInOrder d) (start d negPiOver2) events := by
  have hgenuine : Always (step d) (fun s => Genuine d s ∧ Sighted d s) (start d negPiOver2)
      events :=
    always_of_preserved ⟨genuine_start negPiOver2, sighted_start hfits negPiOver2⟩
      fun _ _ _ h hs => ⟨h.1.step hs, h.2.step hfits hs⟩
  have hstamped : Stamped (start d negPiOver2 : System ι F) := fun _ => List.Pairwise.nil
  have hboth : Always (step d) (fun s => (Genuine d s ∧ Sighted d s) ∧ Stamped s)
      (start d negPiOver2) events :=
    always_of_invariant ⟨hgenuine.head, hstamped⟩
      (fun _ _ _ h hC hs hQ => ⟨hQ, h.2.step hC hs⟩) hgenuine hclock
  exact hboth.mono fun _ h => h.1.1.deliveredInOrder h.1.2 h.2

section Witnesses

open RelayCompleteness (ieee)

def twoClients : Deployment Bool ℚ where
  arithmetic := headingUp
  content := content
  settings := {}
  crc32 := ieee
  address i := ⟨0x7F000001, if i then 2 else 1⟩

def handOver (i : Bool) (utcNow : Int64) : List (RelaySystem.Event Bool ℚ) :=
  [.update i (fun key => key = .w) (1 / 60), .game i, .game i, .game i, .network i utcNow []]

def first : Datagram := getBytes ieee 100
  { positionX := 512000, positionY := 383931, velocityY := -4951, rotation := -1570,
    speed := 400000, delta := 16, isUp := 1 }

def second : Datagram := getBytes ieee 200
  { positionX := 512000, positionY := 383753, velocityY := -10687, rotation := -1570,
    speed := 400000, delta := 16, isUp := 1 }

def third : Datagram := getBytes ieee 300
  { positionX := 512000, positionY := 383480, velocityY := -16376, rotation := -1570,
    speed := 400000, delta := 16, isUp := 1 }

def reordered : List (RelaySystem.Event Bool ℚ) :=
  [.update false (fun _ => false) (1 / 60), .update true (fun _ => false) (1 / 60)] ++
    handOver false 100 ++ handOver true 150 ++ [.serve 1 0 0 0, .serve 0 0 0 0] ++
    handOver false 200 ++ handOver false 300 ++ [.serve 2 0 0 0, .serve 3 0 0 0] ++
    [.network true 400 [.receivedBytes first, .receivedBytes third, .receivedBytes second,
        .receivedBytes third],
      .updateOther true (1 / 60) fun _ => 400]

/-- Two of the four are accepted. -/
theorem always_delivered_in_order_reordered :
    Always (step twoClients) (DeliveredInOrder twoClients) (start twoClients (-157 / 100))
        reordered ∧
      (run (step twoClients) (start twoClients (-157 / 100)) reordered).map
        (fun s => (s.clients true).taken.map NetworkPacket.ticks) = some [100, 300] :=
  ⟨always_delivered_in_order twoClients fits_headingUp (-157 / 100) reordered
    (by decide +kernel), by decide +kernel⟩

end Witnesses

end RocketGame.RelayOrder
