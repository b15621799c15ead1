import RocketGame.Link

/-!
Acknowledgments end to end. In a run without a wrap, an entry of a send list is
marked only if the other side really received its packet, as long as no packet
is handed over after a newer one and no acknowledgment lies more than 32768
behind. A packet that arrives late moves the counters of its receiver, and the
acknowledgments that follow name packets that were never received.
-/
namespace RocketGame.AckSoundness

open AckExchange (Acks End EndChange Message Side Trims markedNumbers)
open Channels GameMessages Link NetworkUtilities Runs SequenceNumbers

structure Genuine (e : End) (m : Message) : Prop where
  number : m.number ≤ e.channel.localSequenceNumberLarge
  seqNum : m.header.seqNum = smallSequenceNumber m.number
  ack : ∃ acked, m.header.ack = smallSequenceNumber acked ∧
    ∀ n, Acknowledges acked m.header.ackBits n → n = 0 ∨ n ∈ e.got

structure EndSound (e peer : End) : Prop where
  localSmall :
    e.channel.localSequenceNumberSmall = smallSequenceNumber e.channel.localSequenceNumberLarge
  remoteSmall :
    e.channel.remoteSequenceNumberSmall = smallSequenceNumber e.channel.remoteSequenceNumberLarge
  newest : e.channel.remoteSequenceNumberLarge = 0 ∨ e.channel.remoteSequenceNumberLarge ∈ e.got
  latest : ∀ n ∈ e.got, n ≤ e.channel.remoteSequenceNumberLarge
  received : ∀ n ∈ e.channel.receivedPackets, n ∈ e.got
  existing : ∀ n ∈ e.got, n ≤ peer.channel.localSequenceNumberLarge
  positive : ∀ pi ∈ e.channel.sendPackets, pi.seqNum ≠ 0
  sound : ∀ pi ∈ e.channel.sendPackets, pi.acknowledged = true → pi.seqNum ∈ peer.got
  marked : ∀ n ∈ e.marked, n ∈ peer.got
  genuine : ∀ m ∈ e.sent, Genuine e m

def Few (e : End) : Prop := e.channel.localSequenceNumberLarge < 65535

def Timely (e : End) (m : Message) : Prop :=
  (∀ n ∈ e.got, n ≤ m.number) ∧
    e.channel.localSequenceNumberLarge.toNat - m.header.ack.toNat ≤ 32768

structure Grows (e e' : End) : Prop where
  got : ∀ n ∈ e.got, n ∈ e'.got
  large : e.channel.localSequenceNumberLarge ≤ e'.channel.localSequenceNumberLarge

theorem Genuine.mono {e e' : End} {m : Message} (h : Genuine e m) (hgrows : Grows e e') :
    Genuine e' m where
  number := UInt64.le_trans h.number hgrows.large
  seqNum := h.seqNum
  ack := by
    obtain ⟨acked, hack, hbits⟩ := h.ack
    exact ⟨acked, hack, fun n hn => (hbits n hn).imp_right (hgrows.got n)⟩

theorem EndSound.peer_mono {e peer peer' : End} (h : EndSound e peer) (hgrows : Grows peer peer') :
    EndSound e peer' :=
  { h with
    existing := fun n hn => UInt64.le_trans (h.existing n hn) hgrows.large
    sound := fun pi hpi hacked => hgrows.got _ (h.sound pi hpi hacked)
    marked := fun n hn => hgrows.got n (h.marked n hn) }

/-- The counter is at most any bound on the numbers received. -/
theorem EndSound.remote_le_of {e peer : End} (h : EndSound e peer) {bound : UInt64}
    (hbound : ∀ n ∈ e.got, n ≤ bound) : e.channel.remoteSequenceNumberLarge ≤ bound := by
  rcases h.newest with hzero | hmem
  · rw [hzero]
    exact UInt64.zero_le
  · exact hbound _ hmem

/-- Both ways of counting back from the newest number are the same before a wrap. -/
theorem acks_eq {e peer : End} {ack : UInt64} (h : EndSound e peer) (hfew : Few peer)
    (hack : Acks ack e.channel) : ack = e.channel.remoteSequenceNumberLarge := by
  rcases hack with heq | heq
  · exact heq
  · have hlt : e.channel.remoteSequenceNumberLarge < 65535 :=
      UInt64.lt_of_le_of_lt (h.remote_le_of h.existing) hfew
    rw [heq, h.remoteSmall, ← UInt64.toNat_inj, UInt16.toNat_toUInt64,
      toNat_smallSequenceNumber_of_lt hlt]

theorem grows_send {e : End} (hfew : Few e) (salt ack : UInt64) (now : Int64) (ok : Bool) :
    Grows e (e.send salt ack now ok) where
  got _ hn := hn
  large := by
    show e.channel.localSequenceNumberLarge ≤ e.channel.localSequenceNumberLarge + 1
    rw [UInt64.le_iff_toNat_le, toNat_add_one_of_lt hfew]
    omega

theorem EndSound.send {e peer : End} (h : EndSound e peer) (hfew : Few e) (hpeer : Few peer)
    (salt : UInt64) {ack : UInt64} (now : Int64) (ok : Bool) (hack : Acks ack e.channel) :
    EndSound (e.send salt ack now ok) peer where
  localSmall := rfl
  remoteSmall := h.remoteSmall
  newest := h.newest
  latest := h.latest
  received := h.received
  existing := h.existing
  positive pi hpi := by
    rcases List.mem_append.mp hpi with hold | hnew
    · exact h.positive pi hold
    · obtain rfl := List.mem_singleton.mp hnew
      show e.channel.localSequenceNumberLarge + 1 ≠ 0
      rw [Ne, ← UInt64.toNat_inj, toNat_add_one_of_lt hfew, UInt64.toNat_zero]
      omega
  sound pi hpi hacked := by
    rcases List.mem_append.mp hpi with hold | hnew
    · exact h.sound pi hold hacked
    · obtain rfl := List.mem_singleton.mp hnew
      cases hacked
  marked := h.marked
  genuine m hm := by
    rcases List.mem_append.mp hm with hold | hnew
    · exact (h.genuine m hold).mono (grows_send hfew ..)
    · split at hnew
      · obtain rfl := List.mem_singleton.mp hnew
        refine ⟨UInt64.le_refl _, rfl, e.channel.remoteSequenceNumberLarge, h.remoteSmall, ?_⟩
        intro n hn
        rw [← acks_eq h hpeer hack] at hn
        rcases computeAckBits_sound hn with heq | hmem
        · rw [heq, acks_eq h hpeer hack]
          exact h.newest
        · exact Or.inr (h.received n hmem)
      · cases hnew

section Receive

variable {e peer : End} {clock : Clock} {m : Message}

/-- A message that is not late becomes the newest one under its own number. -/
theorem receive_remoteSequenceNumberLarge (h : EndSound e peer) (hpeer : EndSound peer e)
    (hfew : Few peer) (hm : m ∈ peer.sent) (hlate : ∀ n ∈ e.got, n ≤ m.number) :
    (receive clock e.channel m.header).remoteSequenceNumberLarge = m.number := by
  have hgenuine := hpeer.genuine m hm
  have hle : e.channel.remoteSequenceNumberLarge ≤ m.number := h.remote_le_of hlate
  have hlt : m.number < 65535 := UInt64.lt_of_le_of_lt hgenuine.number hfew
  apply (Channel.accept_remoteSequenceNumberLarge _ _).trans
  rw [h.remoteSmall, hgenuine.seqNum]
  exact add_sequenceNumberDiff_of_lt hle hlt

/-- What VerifyAck marks for a message whose acknowledgment is near was received. -/
theorem receive_sendPackets (h : EndSound e peer) (hpeer : EndSound peer e) (hfew : Few e)
    (hm : m ∈ peer.sent)
    (hnear : e.channel.localSequenceNumberLarge.toNat - m.header.ack.toNat ≤ 32768)
    {pi : PacketInfo} (hpi : pi ∈ (receive clock e.channel m.header).sendPackets) :
    pi.seqNum ≠ 0 ∧ (pi.acknowledged = true → pi.seqNum ∈ peer.got) := by
  obtain ⟨acked, hack, hbits⟩ := (hpeer.genuine m hm).ack
  have hle : acked ≤ e.channel.localSequenceNumberLarge := by
    rcases hbits acked (Or.inl rfl) with rfl | hmem
    · exact UInt64.zero_le
    · exact hpeer.existing acked hmem
  rw [hack, toNat_smallSequenceNumber_of_lt (UInt64.lt_of_le_of_lt hle hfew)] at hnear
  have hexact : (e.channel.accept m.header.seqNum).ackedSequenceNumber m.header.ack = acked := by
    rw [hack]
    apply ackedSequenceNumber_of_lt
    · simpa using h.localSmall
    · rw [Channel.accept_localSequenceNumberLarge]
      exact hfew
    · simpa using hle
    · simpa using hnear
  change pi ∈ verifyAck clock (e.channel.accept _).sendPackets
    ((e.channel.accept m.header.seqNum).ackedSequenceNumber m.header.ack) m.header.ackBits at hpi
  rw [hexact, Channel.accept_sendPackets] at hpi
  have hpositive : pi.seqNum ≠ 0 := by
    have hmem := List.mem_map_of_mem (f := PacketInfo.seqNum) hpi
    rw [map_seqNum_verifyAck] at hmem
    obtain ⟨old, hold, hseq⟩ := List.mem_map.mp hmem
    rw [← hseq]
    exact h.positive old hold
  refine ⟨hpositive, fun hacked => ?_⟩
  rcases verifyAck_sound hpi hacked with ⟨old, hold, hseq, hmark⟩ | hnamed
  · rw [← hseq]
    exact h.sound old hold hmark
  · exact (hbits _ hnamed).resolve_left hpositive

theorem mem_markedNumbers {sendPackets : List PacketInfo} {n : UInt64}
    (h : n ∈ markedNumbers sendPackets) :
    ∃ pi ∈ sendPackets, pi.acknowledged = true ∧ pi.seqNum = n := by
  obtain ⟨pi, hpi, hseq⟩ := List.mem_map.mp h
  obtain ⟨hmem, hacked⟩ := List.mem_filter.mp hpi
  exact ⟨pi, hmem, hacked, hseq⟩

theorem grows_receive {channel : Channel}
    (htrims : Trims (receive clock e.channel m.header) channel) :
    Grows e (e.receive clock m channel) where
  got _ hn := List.mem_cons_of_mem _ hn
  large := by
    change e.channel.localSequenceNumberLarge ≤ channel.localSequenceNumberLarge
    rw [htrims.localLarge]
    exact UInt64.le_of_eq (Channel.accept_localSequenceNumberLarge _ _).symm

theorem EndSound.receive {channel : Channel} (h : EndSound e peer) (hpeer : EndSound peer e)
    (hfew : Few e) (hfew' : Few peer) (hm : m ∈ peer.sent) (htimely : Timely e m)
    (htrims : Trims (GameMessages.receive clock e.channel m.header) channel) :
    EndSound (e.receive clock m channel) peer := by
  obtain ⟨hlate, hnear⟩ := htimely
  have hnumber : (GameMessages.receive clock e.channel m.header).remoteSequenceNumberLarge =
      m.number := receive_remoteSequenceNumberLarge h hpeer hfew' hm hlate
  have hnewest : channel.remoteSequenceNumberLarge = m.number := htrims.remoteLarge.trans hnumber
  have hverified : ∀ pi ∈ (GameMessages.receive clock e.channel m.header).sendPackets,
      pi.seqNum ≠ 0 ∧ (pi.acknowledged = true → pi.seqNum ∈ peer.got) :=
    fun pi hpi => receive_sendPackets h hpeer hfew hm hnear hpi
  constructor
  case localSmall =>
    change channel.localSequenceNumberSmall = smallSequenceNumber channel.localSequenceNumberLarge
    rw [htrims.localSmall, htrims.localLarge]
    change (e.channel.accept _).localSequenceNumberSmall =
      smallSequenceNumber (e.channel.accept _).localSequenceNumberLarge
    rw [Channel.accept_localSequenceNumberSmall, Channel.accept_localSequenceNumberLarge,
      h.localSmall]
  case remoteSmall =>
    change channel.remoteSequenceNumberSmall = smallSequenceNumber channel.remoteSequenceNumberLarge
    rw [hnewest, htrims.remoteSmall, ← (hpeer.genuine m hm).seqNum]
    exact Channel.accept_remoteSequenceNumberSmall _ _
  case newest =>
    right
    change channel.remoteSequenceNumberLarge ∈ m.number :: e.got
    rw [hnewest]
    exact List.mem_cons_self
  case latest =>
    intro n hn
    change n ≤ channel.remoteSequenceNumberLarge
    rw [hnewest]
    rcases List.mem_cons.mp hn with rfl | hold
    · exact UInt64.le_refl _
    · exact hlate n hold
  case received =>
    intro n hn
    rcases Channel.mem_accept_receivedPackets (htrims.receivedPackets hn) with hold | hnew
    · exact List.mem_cons_of_mem _ (h.received n hold)
    · rw [show n = m.number from hnew.trans hnumber]
      exact List.mem_cons_self
  case existing =>
    intro n hn
    rcases List.mem_cons.mp hn with rfl | hold
    · exact (hpeer.genuine m hm).number
    · exact h.existing n hold
  case positive => exact fun pi hpi => (hverified pi (htrims.sendPackets hpi)).1
  case sound => exact fun pi hpi => (hverified pi (htrims.sendPackets hpi)).2
  case marked =>
    intro n hn
    rcases List.mem_append.mp hn with hold | hnew
    · exact h.marked n hold
    · obtain ⟨pi, hpi, hacked, rfl⟩ := mem_markedNumbers hnew
      exact (hverified pi hpi).2 hacked
  case genuine => exact fun m' hm' => (h.genuine m' hm').mono (grows_receive htrims)

theorem receive_few {channel : Channel} (hfew : Few e)
    (htrims : Trims (GameMessages.receive clock e.channel m.header) channel) :
    Few (e.receive clock m channel) := by
  show channel.localSequenceNumberLarge < 65535
  rw [htrims.localLarge]
  show (e.channel.accept _).localSequenceNumberLarge < 65535
  rw [Channel.accept_localSequenceNumberLarge]
  exact hfew

end Receive

theorem Grows.refl (e : End) : Grows e e := ⟨fun _ hn => hn, UInt64.le_refl _⟩

theorem Grows.trans {e₁ e₂ e₃ : End} (h : Grows e₁ e₂) (h' : Grows e₂ e₃) : Grows e₁ e₃ :=
  ⟨fun n hn => h'.got n (h.got n hn), UInt64.le_trans h.large h'.large⟩

theorem grows_change {e peer e' : End} {D : Message → Prop} (hfew : Few e)
    (hchange : EndChange D e peer e') : Grows e e' := by
  cases hchange with
  | same => exact Grows.refl e
  | received clock m channel hm hD htrims => exact grows_receive htrims
  | sent salt ack now ok hack => exact grows_send hfew ..
  | answered clock m channel salt ack now ok hm hD htrims hack =>
    exact (grows_receive htrims).trans (grows_send (receive_few hfew htrims) ..)

theorem EndSound.change {e peer e' : End} (h : EndSound e peer) (hpeer : EndSound peer e)
    (hfew : Few e) (hfew' : Few peer) (hchange : EndChange (Timely e) e peer e') :
    EndSound e' peer := by
  cases hchange with
  | same => exact h
  | received clock m channel hm hD htrims => exact h.receive hpeer hfew hfew' hm hD htrims
  | sent salt ack now ok hack => exact h.send hfew hfew' salt now ok hack
  | answered clock m channel salt ack now ok hm hD htrims hack =>
    exact (h.receive hpeer hfew hfew' hm hD htrims).send (receive_few hfew htrims) hfew' salt now ok
      hack

structure AckInvariant (a : AckExchange.State) : Prop where
  few : ∀ side, Few (a.at side)
  sound : ∀ side, EndSound (a.at side) (a.at side.other)

theorem other_other (side : Side) : side.other.other = side := by
  cases side <;> rfl

theorem AckInvariant.change {a a' : AckExchange.State} (h : AckInvariant a)
    (hchange : ∀ side,
      EndChange (Timely (a.at side)) (a.at side) (a.at side.other) (a'.at side))
    (hfew : ∀ side, Few (a'.at side)) : AckInvariant a' := by
  refine ⟨hfew, fun side => ?_⟩
  have hpeer := h.sound side.other
  rw [other_other] at hpeer
  have hsound : EndSound (a'.at side) (a.at side.other) :=
    (h.sound side).change hpeer (h.few side) (h.few side.other) (hchange side)
  exact hsound.peer_mono (grows_change (h.few side.other) (hchange side.other))

/-- No datagram is handed over after a newer one of the same side, and what it
acknowledges is at most 32768 behind the receiver's own number. -/
def InOrder (s : Link.State) (e : Link.Event) : Prop :=
  ∀ d ∈ e.delivery, ∀ packet ∈ (s.incoming d.1)[d.2]?,
    (∀ n ∈ s.got d.1, n ≤ packet.number) ∧
    ∀ ch ∈ s.channel d.1, ch.localSequenceNumberLarge.toNat - (header packet.data).ack.toNat ≤ 32768

/-- Neither side has sent as many packets as the numbers on the wire can tell apart. -/
def NoWrap (s : Link.State) : Prop :=
  ∀ side, ∀ ch ∈ s.channel side, ch.localSequenceNumberLarge < 65535

/-- Whatever is marked, in the send list now or ever before, the other side received. -/
def AckSound (s : Link.State) : Prop :=
  ∀ side, ∀ ch ∈ s.channel side,
    (∀ pi ∈ ch.sendPackets, pi.acknowledged = true → pi.seqNum ∈ s.got side.other) ∧
    ∀ n ∈ s.marked side, n ∈ s.got side.other

instance decidableInOrder (s : Link.State) (e : Link.Event) : Decidable (InOrder s e) := by
  delta InOrder
  infer_instance

instance decidableNoWrap (s : Link.State) : Decidable (NoWrap s) := by
  delta NoWrap
  infer_instance

instance decidableAckSound (s : Link.State) : Decidable (AckSound s) := by
  delta AckSound
  infer_instance

theorem endSound_fresh : EndSound {} {} := by
  constructor <;> simp [smallSequenceNumber]

theorem ackInvariant_fresh (salt : UInt64) : AckInvariant { salt := salt } := by
  constructor
  · intro side
    cases side <;> exact (by decide : (0 : UInt64) < 65535)
  · intro side
    cases side <;> exact endSound_fresh

/-- A side without a record has the counters of a fresh one. -/
theorem channel_cases (s : Link.State) (side : Side) :
    s.channel side = some (s.abstract.at side).channel ∨ (s.abstract.at side).channel = {} := by
  cases hchannel : s.channel side with
  | some ch => exact Or.inl (congrArg some (at_abstract_channel hchannel).symm)
  | none =>
    right
    cases side with
    | client => cases hchannel
    | server =>
      show (s.record.map Server.Player.toChannel).getD {} = {}
      rw [show s.record.map Server.Player.toChannel = none from hchannel, Option.getD_none]

theorem few_of_noWrap {s : Link.State} (h : NoWrap s) (side : Side) : Few (s.abstract.at side) := by
  rcases channel_cases s side with hchannel | hfresh
  · exact h side _ hchannel
  · unfold Few
    rw [hfresh]
    decide

theorem timely_of_inOrder {s : Link.State} {e : Link.Event} {side : Side} {k : ℕ} {packet : Packet}
    (h : InOrder s e) (hdelivery : e.delivery = some (side, k))
    (hpacket : (s.incoming side)[k]? = some packet) :
    Timely (s.abstract.at side) packet.message := by
  obtain ⟨hlate, hnear⟩ := h (side, k) hdelivery packet hpacket
  refine ⟨?_, ?_⟩
  · rw [at_abstract_got]
    exact hlate
  · rcases channel_cases s side with hchannel | hfresh
    · exact hnear _ hchannel
    · rw [hfresh]
      show 0 - _ ≤ 32768
      omega

section Runs

variable {physics : Client.PhysicsEngine} {s : Link.State} {events : List Link.Event}

/-- In every run without a wrap whose deliveries are all in order, both sides
mark only what the other side received. -/
theorem always_ackSound (hinit : Initial s) (hwrap : Always (step physics) NoWrap s events)
    (horder : Throughout (step physics) InOrder s events) :
    Always (step physics) AckSound s events := by
  have hstart : AckInvariant s.abstract := by
    rw [hinit.abstract]
    exact ackInvariant_fresh _
  have hinvariant : Always (step physics) (fun t => WellFormed t ∧ AckInvariant t.abstract) s
      events :=
    always_protocol hinit.wellFormed hstart
      (fun s e side k packet hC hdelivery hpacket => timely_of_inOrder hC hdelivery hpacket)
      (fun a a' h hchange hfew => h.change hchange hfew)
      (hwrap.mono fun t ht => few_of_noWrap ht) horder
  apply hinvariant.mono
  rintro t ⟨_, h⟩ side ch hchannel
  have hsound := h.sound side
  rw [← at_abstract_channel hchannel, ← at_abstract_got, ← at_abstract_marked]
  exact ⟨hsound.sound, hsound.marked⟩

end Runs

/-- One input goes up, and the reply that acknowledges it comes back. -/
theorem always_ackSound_exchange :
    Always (step .resting) AckSound (paired [{}]) [.send {}, .toServer 0 {}, .toClient 0 {}] :=
  always_ackSound (initial_paired _) (by decide +kernel) (by decide +kernel)

/-- Packet 3 arrives, packet 2 arrives after it, and the reply to packet 2
acknowledges packet 1, which never arrives. -/
theorem late_packet_acks_lost_packet :
    ¬ ∀ (physics : Client.PhysicsEngine) (s : Link.State) (events : List Link.Event),
      Initial s → Always (step physics) NoWrap s events →
      Always (step physics) AckSound s events := by
  intro h
  have hrun := h .resting (paired [{}, {}, {}])
    [.send {}, .send {}, .send {}, .toServer 2 {}, .toServer 1 {}, .toClient 1 {}]
    (initial_paired _) (by decide +kernel)
  exact absurd hrun (by decide +kernel)

end RocketGame.AckSoundness
