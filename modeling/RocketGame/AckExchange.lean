import RocketGame.GameMessages
import RocketGame.Runs
import RocketGame.SequenceNumbers
import RocketGame.Windows

/-!
The acknowledgment protocol between one client and its record on the server,
without bytes and without the player table. Every message ever sent stays in the
history of its sender, and a step may hand any of them to the other end, so the
network loses, duplicates, delays and reorders at will. Each end also keeps the
numbers it was handed and the numbers its VerifyAck ever marked.
-/
namespace RocketGame.AckExchange

open Channels GameMessages NetworkUtilities SequenceNumbers Windows

structure Message where
  number : UInt64
  header : Header
  deriving DecidableEq, Repr

structure End where
  channel : Channel := {}
  sent : List Message := []
  got : List UInt64 := []
  marked : List UInt64 := []
  deriving DecidableEq, Repr

structure State where
  salt : UInt64 := 0
  client : End := {}
  server : End := {}
  deriving DecidableEq, Repr

inductive Side
  | client | server
  deriving DecidableEq, Repr

def Side.other : Side → Side
  | client => server
  | server => client

instance decidableForallSide (P : Side → Prop) [DecidablePred P] : Decidable (∀ side, P side) :=
  decidable_of_iff (P .client ∧ P .server)
    ⟨fun h side => match side with | .client => h.1 | .server => h.2,
      fun h => ⟨h .client, h .server⟩⟩

/-- Walks the list; the instance for finite types would try all 64-bit numbers. -/
instance decidableForallNumber (numbers : List UInt64) (P : UInt64 → Prop) [DecidablePred P] :
    Decidable (∀ n ∈ numbers, P n) :=
  List.decidableBAll P numbers

def State.at (s : State) : Side → End
  | .client => s.client
  | .server => s.server

inductive Event
  | send (now : Int64) (ok : Bool)
  | toServer (k : ℕ) (clock : Clock) (ok : Bool)
  | toClient (k : ℕ) (clock : Clock)

def Event.delivery : Event → Option (Side × ℕ)
  | send _ _ => none
  | toServer k _ _ => some (.server, k)
  | toClient k _ => some (.client, k)

/-- The next message of an end: its number goes up even when Send fails. -/
def End.send (salt ack : UInt64) (now : Int64) (ok : Bool) (e : End) : End :=
  let channel := e.channel.nextSequenceNumber
  let message : Message :=
    { number := channel.localSequenceNumberLarge
      header := channelHeader salt channel (computeAckBits channel.receivedPackets ack) }
  { e with
    channel := channel.recordSent now
    sent := e.sent ++ if ok then [message] else [] }

def markedNumbers (sendPackets : List PacketInfo) : List UInt64 :=
  (sendPackets.filter PacketInfo.acknowledged).map PacketInfo.seqNum

def End.receive (clock : Clock) (m : Message) (channel : Channel) (e : End) : End :=
  { e with
    channel := channel
    got := m.number :: e.got
    marked := e.marked ++
      markedNumbers (GameMessages.receive clock e.channel m.header).sendPackets }

/-- The client sends on its own, the server answers each message at once. -/
def step (s : State) : Event → Option State
  | .send now ok =>
      some { s with
        client := s.client.send s.salt s.client.channel.remoteSequenceNumberSmall.toUInt64 now ok }
  | .toServer k clock ok => s.client.sent[k]?.map fun m =>
      let channel := serverReceive clock s.server.channel m.header
      { s with
        server := (s.server.receive clock m channel).send s.salt
          channel.remoteSequenceNumberLarge (clock 32) ok }
  | .toClient k clock => s.server.sent[k]?.map fun m =>
      { s with
        client := s.client.receive clock m (clientReceive clock s.client.channel m.header) }

/-- The channel after a handler, compared with the channel after the two shared
blocks: the counters are the same, and both lists may have lost entries. -/
structure Trims (ch ch' : Channel) : Prop where
  localLarge : ch'.localSequenceNumberLarge = ch.localSequenceNumberLarge
  localSmall : ch'.localSequenceNumberSmall = ch.localSequenceNumberSmall
  remoteLarge : ch'.remoteSequenceNumberLarge = ch.remoteSequenceNumberLarge
  remoteSmall : ch'.remoteSequenceNumberSmall = ch.remoteSequenceNumberSmall
  sendPackets : ch'.sendPackets ⊆ ch.sendPackets
  receivedPackets : ch'.receivedPackets ⊆ ch.receivedPackets

theorem trimReceived_subset (ch : Channel) (limit : ℕ) :
    (ch.trimReceived limit).receivedPackets ⊆ ch.receivedPackets := by
  rw [Channel.trimReceived_receivedPackets]
  exact List.drop_subset _ _

theorem serverReceive_trims (clock : Clock) (ch : Channel) (h : Header) :
    Trims (receive clock ch h) (serverReceive clock ch h) where
  localLarge := rfl
  localSmall := rfl
  remoteLarge := rfl
  remoteSmall := rfl
  sendPackets _ hpi := (List.mem_filter.mp hpi).1
  receivedPackets := trimReceived_subset _ _

/-- The lambda of remove_if only ever keeps entries it visits. -/
theorem foldl_visit_kept (sendPackets : List PacketInfo) (t : Client.SendTrim) :
    (sendPackets.foldl Client.SendTrim.visit t).kept ⊆ t.kept ++ sendPackets := by
  induction sendPackets generalizing t with
  | nil => simp
  | cons pi rest ih =>
    have hvisit : (t.visit pi).kept ⊆ t.kept ++ [pi] := by
      unfold Client.SendTrim.visit
      dsimp only
      split
      · split <;> exact List.subset_append_left _ _
      · exact List.Subset.refl _
    rw [List.foldl_cons]
    intro x hx
    rcases List.mem_append.mp (ih _ hx) with hx | hx
    · have := hvisit hx
      simp only [List.mem_append, List.mem_cons] at this ⊢
      tauto
    · exact List.mem_append_right _ (List.mem_cons_of_mem _ hx)

theorem keptSendPackets_subset (sendPackets : List PacketInfo) :
    Client.keptSendPackets sendPackets ⊆ sendPackets := by
  have hkept : (Client.trimSendPackets sendPackets).kept ⊆ sendPackets := by
    simpa [Client.trimSendPackets] using foldl_visit_kept sendPackets
      { packetsToRemove :=
          UInt64.ofNat sendPackets.length - UInt64.ofNat Client.maxSendPacketsStored }
  unfold Client.keptSendPackets
  dsimp only
  split
  · exact fun x hx => hkept (List.drop_subset _ _ hx)
  · exact hkept

theorem clientReceive_trims (clock : Clock) (ch : Channel) (h : Header) :
    Trims (receive clock ch h) (clientReceive clock ch h) where
  localLarge := rfl
  localSmall := rfl
  remoteLarge := rfl
  remoteSmall := rfl
  sendPackets := keptSendPackets_subset _
  receivedPackets := trimReceived_subset _ _

/-- The number the acknowledgment bits count back from: the client takes the
16-bit number, the server the 64-bit one. -/
def Acks (ack : UInt64) (ch : Channel) : Prop :=
  ack = ch.remoteSequenceNumberLarge ∨ ack = ch.remoteSequenceNumberSmall.toUInt64

/-- Everything one step can do to an end. A delivery meets the condition, and the
server answers it at once. -/
inductive EndChange (D : Message → Prop) (e peer : End) : End → Prop
  | same : EndChange D e peer e
  | received (clock : Clock) (m : Message) (channel : Channel) (hm : m ∈ peer.sent) (hD : D m)
      (htrims : Trims (receive clock e.channel m.header) channel) :
      EndChange D e peer (e.receive clock m channel)
  | sent (salt ack : UInt64) (now : Int64) (ok : Bool) (hack : Acks ack e.channel) :
      EndChange D e peer (e.send salt ack now ok)
  | answered (clock : Clock) (m : Message) (channel : Channel) (salt ack : UInt64) (now : Int64)
      (ok : Bool) (hm : m ∈ peer.sent) (hD : D m)
      (htrims : Trims (receive clock e.channel m.header) channel) (hack : Acks ack channel) :
      EndChange D e peer ((e.receive clock m channel).send salt ack now ok)

theorem EndChange.mono {D D' : Message → Prop} {e peer e' : End} (h : EndChange D e peer e')
    (hD : ∀ m, D m → D' m) : EndChange D' e peer e' := by
  cases h with
  | same => exact .same
  | received clock m channel hm hm' htrims => exact .received clock m channel hm (hD m hm') htrims
  | sent salt ack now ok hack => exact .sent salt ack now ok hack
  | answered clock m channel salt ack now ok hm hm' htrims hack =>
    exact .answered clock m channel salt ack now ok hm (hD m hm') htrims hack

theorem step_change {D : Message → Prop} {a a' : State} {e : Event} (h : step a e = some a')
    (side : Side)
    (hD : ∀ k m, e.delivery = some (side, k) → (a.at side.other).sent[k]? = some m → D m) :
    EndChange D (a.at side) (a.at side.other) (a'.at side) := by
  cases e with
  | send now ok =>
    obtain rfl := Option.some.inj h
    cases side with
    | client => exact .sent _ _ _ _ (Or.inr rfl)
    | server => exact .same
  | toServer k clock ok =>
    obtain ⟨m, hm, rfl⟩ := Option.map_eq_some_iff.mp h
    cases side with
    | client => exact .same
    | server =>
      exact .answered clock m _ _ _ _ _ (List.mem_of_getElem? hm) (hD k m rfl hm)
        (serverReceive_trims ..) (Or.inl rfl)
  | toClient k clock =>
    obtain ⟨m, hm, rfl⟩ := Option.map_eq_some_iff.mp h
    cases side with
    | client =>
      exact .received clock m _ (List.mem_of_getElem? hm) (hD k m rfl hm) (clientReceive_trims ..)
    | server => exact .same

structure Numbered (e : End) : Prop where
  small : e.channel.localSequenceNumberSmall =
    smallSequenceNumber e.channel.localSequenceNumberLarge
  sent : ∀ m ∈ e.sent, m.header.seqNum = smallSequenceNumber m.number

theorem Numbered.send {e : End} (h : Numbered e) (salt ack : UInt64) (now : Int64) (ok : Bool) :
    Numbered (e.send salt ack now ok) where
  small := rfl
  sent m hm := by
    rcases List.mem_append.mp hm with hold | hnew
    · exact h.sent m hold
    · split at hnew
      · obtain rfl := List.mem_singleton.mp hnew
        rfl
      · cases hnew

theorem Numbered.receive {e : End} (h : Numbered e) {clock : Clock} {m : Message}
    {channel : Channel} (htrims : Trims (GameMessages.receive clock e.channel m.header) channel) :
    Numbered (e.receive clock m channel) where
  small := by
    change channel.localSequenceNumberSmall = smallSequenceNumber channel.localSequenceNumberLarge
    rw [htrims.localLarge, htrims.localSmall]
    change (e.channel.accept _).localSequenceNumberSmall =
      smallSequenceNumber (e.channel.accept _).localSequenceNumberLarge
    rw [Channel.accept_localSequenceNumberSmall, Channel.accept_localSequenceNumberLarge, h.small]
  sent := h.sent

theorem Numbered.change {D : Message → Prop} {e peer e' : End} (h : Numbered e)
    (hchange : EndChange D e peer e') : Numbered e' := by
  cases hchange with
  | same => exact h
  | received clock m channel hm hD htrims => exact h.receive htrims
  | sent salt ack now ok hack => exact h.send ..
  | answered clock m channel salt ack now ok hm hD htrims hack => exact (h.receive htrims).send ..

def Increasing (e : End) : Prop :=
  Window (e.sent.map Message.number) e.channel.localSequenceNumberLarge

theorem increasing_fresh : Increasing {} := Window.nil _

theorem Increasing.send {e : End} (h : Increasing e)
    (hroom : e.channel.localSequenceNumberLarge.toNat + 1 < 2 ^ 64) (salt ack : UInt64)
    (now : Int64) (ok : Bool) : Increasing (e.send salt ack now ok) := by
  have hnext : e.channel.localSequenceNumberLarge < e.channel.localSequenceNumberLarge + 1 :=
    lt_add_of_toNat hroom (by decide)
  rw [Increasing, End.send, List.map_append]
  cases ok with
  | true => exact Window.append h hnext
  | false =>
    rw [if_neg Bool.false_ne_true, List.map_nil, List.append_nil]
    exact Window.mono h (UInt64.le_of_lt hnext)

theorem Increasing.receive {e : End} (h : Increasing e) {clock : Clock} {m : Message}
    {channel : Channel} (htrims : Trims (GameMessages.receive clock e.channel m.header) channel) :
    Increasing (e.receive clock m channel) := by
  have hlocal : channel.localSequenceNumberLarge = e.channel.localSequenceNumberLarge :=
    htrims.localLarge.trans (Channel.accept_localSequenceNumberLarge ..)
  change Window (e.sent.map Message.number) channel.localSequenceNumberLarge
  rw [hlocal]
  exact h

theorem Increasing.change {D : Message → Prop} {e peer e' : End} (h : Increasing e)
    (hroom : e.channel.localSequenceNumberLarge.toNat + 1 < 2 ^ 64)
    (hchange : EndChange D e peer e') : Increasing e' := by
  cases hchange with
  | same => exact h
  | received clock m channel hm hD htrims => exact h.receive htrims
  | sent salt ack now ok hack => exact h.send hroom ..
  | answered clock m channel salt ack now ok hm hD htrims hack =>
    refine (h.receive htrims).send ?_ ..
    change channel.localSequenceNumberLarge.toNat + 1 < 2 ^ 64
    rw [htrims.localLarge]
    change (e.channel.accept _).localSequenceNumberLarge.toNat + 1 < 2 ^ 64
    rwa [Channel.accept_localSequenceNumberLarge]

end RocketGame.AckExchange
