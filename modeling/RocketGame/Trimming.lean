import RocketGame.ClientAcks
import RocketGame.RecordMaps
import RocketGame.ServerWindows

/-!
What is lost by keeping only the newest received numbers: nothing that is ever
acknowledged. The bits reach 32 numbers below the newest one, so 33 entries are
enough. A server and a client that forget nothing run in step with the real ones
and acknowledge the same.
-/
namespace RocketGame.Trimming

open AckBits Channels FirstMatch GameMessages NetworkUtilities Packets PlayerStates PlayerTable
open RecordMaps Runs Server ServerWindows Turns Windows Words
open NetworkPacket (ofBytes)

section Lists

variable {data : List UInt64} {ack : UInt64} {k : ℕ}

/-- Of increasing numbers up to a last one, the entries near the last number are near
the end of the list. -/
theorem mem_rtake_of_near (hincreasing : data.Pairwise (· < ·)) (hlast : data.getLast? = some ack)
    {n : UInt64} (hn : n ∈ data) {d : ℕ} (hd : n.toNat + d = ack.toNat) (hk : d < k) :
    n ∈ data.rtake k := by
  obtain ⟨i, hi⟩ := List.mem_iff_getElem?.mp hn
  obtain ⟨hi', -⟩ := List.getElem?_eq_some_iff.mp hi
  rw [List.getLast?_eq_getElem?] at hlast
  have hdist : i + (data.length - 1 - i) = data.length - 1 := by omega
  have hplaces : n.toNat + (data.length - 1 - i) ≤ ack.toNat := by
    apply @add_le_of_increasing _ (pairwise_toNat hincreasing) i
    · rw [List.getElem?_map, hi, Option.map_some]
    · rw [List.getElem?_map, hdist, hlast, Option.map_some]
  rw [List.rtake, List.mem_iff_getElem?]
  refine ⟨i - (data.length - k), ?_⟩
  rw [List.getElem?_drop, show data.length - k + (i - (data.length - k)) = i by omega, hi]

/-- The last 33 entries decide the bits. -/
theorem computeAckBits_rtake (hincreasing : data.Pairwise (· < ·))
    (hlast : data.getLast? = some ack) (hk : 33 ≤ k) :
    computeAckBits (data.rtake k) ack = computeAckBits data ack := by
  have hwindow : Window data ack := by
    refine window_of_endsIn hincreasing fun n hn => ?_
    exact Option.some.inj (hn.symm.trans hlast)
  apply (computeAckBits_namesReceived (hwindow.sublist (List.drop_sublist ..))).unique
    (computeAckBits_namesReceived hwindow)
  intro n d hd hn
  constructor
  · exact fun hmem => List.mem_of_mem_drop hmem
  · exact fun hmem => mem_rtake_of_near hincreasing hlast hmem hn (by omega)

/-- One entry less would be too few. -/
example : computeAckBits (((List.range 33).map UInt64.ofNat).rtake 32) 32 ≠
    computeAckBits ((List.range 33).map UInt64.ofNat) 32 := by decide +kernel

end Lists

section Channel

def ackBitsOf (ch : Channel) : UInt32 :=
  computeAckBits ch.receivedPackets ch.remoteSequenceNumberLarge

variable {ch : Channel} {k : ℕ}

theorem trimReceived_eq (ch : Channel) (k : ℕ) :
    ch.trimReceived k = { ch with receivedPackets := ch.receivedPackets.rtake k } :=
  congrArg (fun l => { ch with receivedPackets := l }) (Channel.trimReceived_receivedPackets ch k)

/-- Forgetting before a packet is handled makes no difference after it. -/
theorem trimReceived_accept (ch : Channel) (k : ℕ) (seqNum : UInt16) :
    ((ch.trimReceived k).accept seqNum).trimReceived k = (ch.accept seqNum).trimReceived k := by
  by_cases hdiff : sequenceNumberDiff ch.remoteSequenceNumberSmall seqNum > 0
  · simp only [trimReceived_eq, Channel.accept, hdiff, if_true, rtake_rtake_append]
  · have htwice := rtake_rtake_append ch.receivedPackets [] k
    rw [List.append_nil, List.append_nil] at htwice
    simp only [trimReceived_eq, Channel.accept, hdiff, if_false, htwice]

theorem ackBitsOf_trimReceived (hk : 33 ≤ k) (hincreasing : ch.receivedPackets.Pairwise (· < ·))
    (hlast : EndsIn ch.receivedPackets ch.remoteSequenceNumberLarge) :
    ackBitsOf (ch.trimReceived k) = ackBitsOf ch := by
  rw [trimReceived_eq]
  change computeAckBits (ch.receivedPackets.rtake k) _ = computeAckBits ch.receivedPackets _
  cases h : ch.receivedPackets.getLast? with
  | none =>
    have hnil := List.getLast?_eq_none_iff.mp h
    rw [hnil, List.rtake_nil]
  | some n =>
    obtain rfl := hlast n h
    exact computeAckBits_rtake hincreasing h hk

end Channel

/-- Server::HandleGameState with another way to trim the received numbers. -/
def handleGameStateKeeping (keep : Channel → Channel) (env : Env) (s : State)
    (networkPacket : NetworkPacket) (clientAddr : Address) : Option Outcome := do
  let (connectionSalt, networkPacket) ← networkPacket.readUInt64
  match locate (authenticates connectionSalt clientAddr) s.players with
  | none => return { state := s, result := 1 }
  | some (before, player, after) =>
      let (seqNum, gamePacket) ← networkPacket.readInt16
      let (ack, gamePacket) ← gamePacket.readInt16
      let (ackBits, gamePacket) ← gamePacket.readInt32
      let channel := player.toChannel.accept seqNum.toUInt16
      let channel := channel.verify env.clock ack.toUInt16 ackBits.toUInt32
      let verified := channel.sendPackets
      let channel := { channel with sendPackets := verified.filter fun pi => !pi.acknowledged }
      let channel := keep channel
      let ackBits := computeAckBits channel.receivedPackets channel.remoteSequenceNumberLarge
      let channel := channel.nextSequenceNumber
      let (playerState, _) ← gamePacket.deserializePlayerState
      let player := { player with toChannel := channel, keyboard := playerState.keyboard }
      let reply := gameStatePacket player ackBits (before ++ player :: after)
      let player := { player with toChannel := channel.recordSent (env.clock 32) }
      return { state := ⟨before ++ player :: after⟩
               sent := send env reply player.address
               verified := verified
               result := 0 }

/-- The handler of the source, which keeps the newest 60. -/
theorem handleGameStateKeeping_source :
    handleGameStateKeeping (·.trimReceived maxReceivedPacketsStored) = handleGameState := rfl

def turnKeeping (keep : Channel → Channel) (s : State) (e : Event) : Option Outcome :=
  executeGameTurnWith (handleGameStateKeeping keep) e.env s e.data e.clientAddr

def untrimmedStep (s : State) (e : Event) : Option State :=
  (turnKeeping id s e).map Outcome.state

theorem turnKeeping_source (s : State) (e : Event) :
    turnKeeping (·.trimReceived maxReceivedPacketsStored) s e =
      executeGameTurn e.env s e.data e.clientAddr := by
  rw [turnKeeping, handleGameStateKeeping_source, executeGameTurnWith_handleGameState]

section Server

variable {k : ℕ}

def trimmedRecord (k : ℕ) (p : Player) : Player := { p with toChannel := p.trimReceived k }

theorem unnoticed_trimmedRecord (k : ℕ) (addr : Address) : Unnoticed addr (trimmedRecord k) where
  fromAddress_eq _ := rfl
  authenticates_eq _ _ := rfl
  toPlayerState_eq _ := rfl
  connectionSalt_eq _ _ := rfl
  connectionState_eq _ _ _ := rfl
  serverClockOffset_eq _ _ _ := rfl
  newPlayer_eq env players clientSalt := by
    have hfresh : (newPlayer env players clientSalt addr).trimReceived k = {} := by
      rw [trimReceived_eq]
      exact congrArg (fun l => ({ receivedPackets := l } : Channel)) (@List.rtake_nil UInt64 k)
    rw [trimmedRecord, hfresh]
    rfl

/-- The turn of a server that keeps k numbers, and of one that forgets none: the tables
differ by what was forgotten, and the datagrams only where the bits do. -/
structure SameTurn (k : ℕ) (o o' : Outcome) : Prop where
  state : o.state = mapState (trimmedRecord k) o'.state
  verified : o.verified = o'.verified
  result : o.result = o'.result
  sent : (∀ p ∈ o'.state.players, ackBitsOf (p.trimReceived k) = ackBitsOf p.toChannel) →
    o.sent = o'.sent

def beforeTrim (clock : Clock) (ch : Channel) (seqNum ack : UInt16) (ackBits : UInt32) : Channel :=
  let channel := (ch.accept seqNum).verify clock ack ackBits
  { channel with sendPackets := channel.sendPackets.filter fun pi => !pi.acknowledged }

theorem beforeTrim_trimReceived (clock : Clock) (ch : Channel) (seqNum ack : UInt16)
    (ackBits : UInt32) :
    (beforeTrim clock (ch.trimReceived k) seqNum ack ackBits).trimReceived k =
      (beforeTrim clock ch seqNum ack ackBits).trimReceived k := by
  have haccept := trimReceived_accept ch k seqNum
  let rest (ch : Channel) : Channel :=
    let channel := ch.verify clock ack ackBits
    { channel with sendPackets := channel.sendPackets.filter fun pi => !pi.acknowledged }
  exact congrArg rest haccept

theorem verify_trimReceived (clock : Clock) (ch : Channel) (seqNum ack : UInt16)
    (ackBits : UInt32) :
    (((ch.trimReceived k).accept seqNum).verify clock ack ackBits).sendPackets =
      ((ch.accept seqNum).verify clock ack ackBits).sendPackets := by
  have hsent := congrArg (fun ch => (Channel.verify ch clock ack ackBits).sendPackets)
    (trimReceived_accept ch k seqNum)
  exact hsent

/-- The reply and the record of a server that keeps k numbers of this channel. -/
theorem sameTurn_reply (env : Env) (before after : List Player) (player : Player)
    (keyboard : Keyboard) (ch : Channel) {verified verified' : List PacketInfo}
    (hverified : verified = verified') :
    let f := trimmedRecord k
    let kept := ch.trimReceived k
    let reply : Player := { f player with
      toChannel := kept.nextSequenceNumber
      keyboard := keyboard }
    let reply' : Player := { player with
      toChannel := ch.nextSequenceNumber
      keyboard := keyboard }
    SameTurn k
      { state := ⟨before.map f ++ { reply with
          toChannel := kept.nextSequenceNumber.recordSent (env.clock 32) } :: after.map f⟩
        sent := send env (gameStatePacket reply (ackBitsOf kept)
          (before.map f ++ reply :: after.map f)) player.address
        verified := verified
        result := 0 }
      { state := ⟨before ++ { reply' with
          toChannel := ch.nextSequenceNumber.recordSent (env.clock 32) } :: after⟩
        sent := send env (gameStatePacket reply' (ackBitsOf ch) (before ++ reply' :: after))
          player.address
        verified := verified'
        result := 0 } := by
  intro f kept reply reply'
  refine ⟨?_, hverified, rfl, fun hbits => ?_⟩
  · rw [mapState, List.map_append, List.map_cons]
    rfl
  · have hsame : ackBitsOf kept = ackBitsOf ch :=
      hbits { reply' with toChannel := ch.nextSequenceNumber.recordSent (env.clock 32) }
        (List.mem_append_right before List.mem_cons_self)
    have htable : before.map f ++ reply :: after.map f = (before ++ reply' :: after).map f := by
      rw [List.map_append, List.map_cons]
      rfl
    rw [hsame, htable, gameStatePacket_map (unnoticed_trimmedRecord k player.address)]
    rfl

theorem handleGameStateKeeping_trimmed (env : Env) (s : State) (p : NetworkPacket)
    (addr : Address) :
    Option.Rel (SameTurn k)
      (handleGameStateKeeping (·.trimReceived k) env (mapState (trimmedRecord k) s) p addr)
      (handleGameStateKeeping id env s p addr) := by
  have hmap := unnoticed_trimmedRecord k addr
  unfold handleGameStateKeeping
  cases p.readUInt64 with
  | none => exact .none
  | some read =>
    obtain ⟨salt, p₁⟩ := read
    simp only [Option.bind_eq_bind, Option.bind_some, mapState, locate_authenticates_map hmap]
    cases locate (authenticates salt addr) s.players with
    | none => exact .some ⟨rfl, rfl, rfl, fun _ => rfl⟩
    | some found =>
      obtain ⟨before, player, after⟩ := found
      simp only [Option.map_some]
      cases p₁.readInt16 with
      | none => exact .none
      | some seqNum =>
        simp only [Option.bind_some]
        cases seqNum.2.readInt16 with
        | none => exact .none
        | some ack =>
          simp only [Option.bind_some]
          cases ack.2.readInt32 with
          | none => exact .none
          | some ackBits =>
            simp only [Option.bind_some]
            cases ackBits.2.deserializePlayerState with
            | none => exact .none
            | some playerState =>
              have hverified := @verify_trimReceived k env.clock player.toChannel
                seqNum.1.toUInt16 ack.1.toUInt16 ackBits.1.toUInt32
              have hreply := @sameTurn_reply k env before after player playerState.1.keyboard
                (beforeTrim env.clock player.toChannel seqNum.1.toUInt16 ack.1.toUInt16
                  ackBits.1.toUInt32) _ _ hverified
              rw [← beforeTrim_trimReceived] at hreply
              exact .some hreply

theorem turnKeeping_trimmed (k : ℕ) (s : State) (e : Event) :
    Option.Rel (SameTurn k) (turnKeeping (·.trimReceived k) (mapState (trimmedRecord k) s) e)
      (turnKeeping id s e) :=
  executeGameTurnWith_rel (unnoticed_trimmedRecord k e.clientAddr)
    (fun _ => ⟨rfl, rfl, rfl, fun _ => rfl⟩)
    (fun p => handleGameStateKeeping_trimmed e.env s p e.clientAddr) e.data

def trimmedState : State → State := mapState (trimmedRecord maxReceivedPacketsStored)

theorem executeGameTurn_trimmedState (s : State) (e : Event) :
    Option.Rel (SameTurn maxReceivedPacketsStored)
      (executeGameTurn e.env (trimmedState s) e.data e.clientAddr) (turnKeeping id s e) := by
  rw [← turnKeeping_source]
  exact turnKeeping_trimmed maxReceivedPacketsStored s e

theorem step_trimmedState (s : State) (e : Event) :
    step (trimmedState s) e = (untrimmedStep s e).map trimmedState := by
  rw [step, untrimmedStep, Option.map_map]
  exact map_eq_of_rel (executeGameTurn_trimmedState s e) fun _ _ h => h.state

/-- The last received number of a record is its newest one, in every run. -/
theorem endsIn_of_run {events : List Event} {s : State} (hrun : run step {} events = some s) :
    ∀ p ∈ s.players, EndsIn p.receivedPackets p.remoteSequenceNumberLarge := by
  have halways : Always step (fun s => ∀ p ∈ s.players,
      EndsIn p.receivedPackets p.remoteSequenceNumberLarge) {} events := by
    refine always_of_preserved (fun p hp => nomatch hp) fun s e s' hs hstep => ?_
    obtain ⟨o, ho, rfl⟩ := Option.map_eq_some_iff.mp hstep
    refine @channels_of_turn _ _ _
      (fun ch => EndsIn ch.receivedPackets ch.remoteSequenceNumberLarge) (endsIn_nil _) hs (fun h before player after keyboard _ hlast => ?_) ho
    change EndsIn (serverReceive e.env.clock player.toChannel h).receivedPackets _
    rw [serverReceive, Channel.trimReceived_receivedPackets]
    exact (endsIn_accept hlast h.seqNum).drop _
  exact halways.last hrun

theorem endsIn_of_untrimmed_run {events : List Event} {t : State}
    (hrun : run untrimmedStep {} events = some t) :
    ∀ p ∈ t.players, EndsIn p.receivedPackets p.remoteSequenceNumberLarge := by
  have hreal : run step (trimmedState {}) events = some (trimmedState t) := by
    rw [run_map step_trimmedState, hrun, Option.map_some]
  intro p hp
  have hlast := endsIn_of_run hreal _ (List.mem_map_of_mem hp)
  have hlast' : EndsIn (p.trimReceived maxReceivedPacketsStored).receivedPackets
      p.remoteSequenceNumberLarge := hlast
  rw [trimReceived_eq] at hlast'
  exact (endsIn_rtake_iff (by decide)).mp hlast'

/-- The turn is that of the source, or the handler gets a game message. -/
theorem turnKeeping_cases {keep : Channel → Channel} {s : State} {e : Event} {o : Outcome}
    (h : turnKeeping keep s e = some o) :
    (executeGameTurn e.env s e.data e.clientAddr = some o ∧
        ∀ salt, ¬ Carries e.data .gameState salt) ∨
      (ofBytes e.data).readAndValidateCRC = some (0, (ofBytes e.data).advance 4) ∧
        ((ofBytes e.data).advance 4).readNetworkPacketType =
          some (some .gameState, (ofBytes e.data).advance 5) ∧
        handleGameStateKeeping keep e.env s ((ofBytes e.data).advance 5) e.clientAddr = some o := by
  rw [← executeGameTurnWith_handleGameState]
  simp only [turnKeeping, executeGameTurnWith, Option.bind_eq_bind, Option.pure_def] at h ⊢
  split at h
  · next hsize =>
    refine Or.inl ⟨(if_pos hsize).trans h, fun salt hcarries => ?_⟩
    have hfour := (NetworkPacket.reads_readAndValidateCRC.eq_advance (Nat.zero_le _)
      hcarries.crc).1
    exact absurd hsize (not_lt.mpr hfour)
  · next hsize =>
    rw [if_neg hsize]
    obtain ⟨⟨invalid, p⟩, hcrc, h⟩ := Option.bind_eq_some_iff.mp h
    obtain ⟨hfour, rfl⟩ := NetworkPacket.reads_readAndValidateCRC.eq_advance (Nat.zero_le _) hcrc
    dsimp only at h
    split at h
    · next hinvalid =>
      refine Or.inl ⟨?_, fun salt hcarries => hinvalid ?_⟩
      · rw [hcrc, Option.bind_some]
        exact (if_pos hinvalid).trans h
      · exact (Prod.mk.inj (Option.some.inj (hcrc.symm.trans hcarries.crc))).1
    · next hvalid =>
      obtain rfl : invalid = 0 := not_not.mp hvalid
      obtain ⟨⟨packetType, p⟩, htype, h⟩ := Option.bind_eq_some_iff.mp h
      obtain ⟨-, rfl⟩ := NetworkPacket.reads_readNetworkPacketType.eq_advance hfour htype
      by_cases hgame : packetType = some .gameState
      · subst hgame
        exact Or.inr ⟨hcrc, htype, h⟩
      · refine Or.inl ⟨?_, fun salt hcarries => hgame ?_⟩
        · have hdispatch : ∀ handle p, dispatchWith handle e.env s packetType p e.clientAddr =
              dispatch e.env s packetType p e.clientAddr := by
            intro handle p
            unfold dispatchWith
            split
            · exact absurd rfl hgame
            · rfl
          rw [hcrc, Option.bind_some, if_neg hvalid, htype, Option.bind_some]
          exact (hdispatch _ _).trans ((hdispatch _ _).symm.trans h)
        · exact (Prod.mk.inj (Option.some.inj (htype.symm.trans hcarries.type))).1

/-- A handled game message appends to the received numbers what the channel accepts. -/
theorem handleGameStateKeeping_eq_some {env : Env} {s : State} {p : NetworkPacket} {addr : Address}
    {o : Outcome} (h : handleGameStateKeeping id env s p addr = some o) :
    o.state = s ∨ ∃ header p' before player after record,
      readHeader p = some (header, p') ∧
      locate (authenticates header.connectionSalt addr) s.players =
        some (before, player, after) ∧
      o.state.players = before ++ record :: after ∧
      record.receivedPackets = (player.accept header.seqNum).receivedPackets ∧
      record.remoteSequenceNumberLarge =
        (player.accept header.seqNum).remoteSequenceNumberLarge := by
  obtain ⟨⟨salt, p₁⟩, hsalt, h⟩ := Option.bind_eq_some_iff.mp h
  dsimp only at h
  split at h
  · obtain rfl := Option.some.inj h
    exact Or.inl rfl
  · next before player after hlocate =>
    obtain ⟨⟨seqNum, p₂⟩, hseq, h⟩ := Option.bind_eq_some_iff.mp h
    obtain ⟨⟨ack, p₃⟩, hack, h⟩ := Option.bind_eq_some_iff.mp h
    obtain ⟨⟨ackBits, p₄⟩, hbits, h⟩ := Option.bind_eq_some_iff.mp h
    obtain ⟨⟨playerState, p₅⟩, hstate, h⟩ := Option.bind_eq_some_iff.mp h
    obtain rfl := Option.some.inj h
    have hheader : readHeader p =
        some (⟨salt, seqNum.toUInt16, ack.toUInt16, ackBits.toUInt32⟩, p₄) := by
      simp only [readHeader, hsalt, hseq, hack, hbits, Option.bind_eq_bind, Option.bind_some,
        Option.pure_def]
    exact Or.inr ⟨_, p₄, before, player, after, _, hheader, hlocate, rfl, rfl, rfl⟩

def Unforgotten (t : State) : Prop :=
  ∀ p ∈ t.players, Window p.receivedPackets p.remoteSequenceNumberLarge

theorem Unforgotten.turn {t : State} {e : Event} {o' : Outcome} (h : Unforgotten t)
    (hroom : NoOverflow (trimmedState t) e) (ho' : turnKeeping id t e = some o') :
    Unforgotten o'.state := by
  rcases turnKeeping_cases ho' with ⟨ho, hother⟩ | ⟨hcrc, htype, hhandle⟩
  · refine @channels_of_turn _ _ _
      (fun ch => Window ch.receivedPackets ch.remoteSequenceNumberLarge) (Window.nil _) h
      (fun header _ _ _ _ hhandled _ => ?_) ho
    exact absurd hhandled.carries (hother header.connectionSalt)
  · rcases handleGameStateKeeping_eq_some hhandle with
      hsame | ⟨header, p, before, player, after, record, hheader, hlocate, hplayers, hlist, hlarge⟩
    · rw [hsame]
      exact h
    · obtain ⟨_, _, _, _, _, _, hsalt, -⟩ := readHeader_eq_some hheader
      have hcarries : Carries e.data .gameState header.connectionSalt :=
        (carries_of_reads hcrc htype hsalt).1
      have hmap := unnoticed_trimmedRecord maxReceivedPacketsStored e.clientAddr
      have hfound : locate (authenticates header.connectionSalt e.clientAddr)
          (trimmedState t).players = some _ :=
        (locate_authenticates_map hmap header.connectionSalt t.players).trans
          (congrArg (Option.map _) hlocate)
      have hlast := (hroom header _ _ _ ⟨hcarries, ⟨p, hheader⟩, hfound⟩).remote
      have hwindow := window_accept (h player (mem_of_locate hlocate)) hlast
      have hall := h
      unfold Unforgotten at hall ⊢
      rw [(locate_eq_some.mp hlocate).1] at hall
      rw [hplayers]
      refine forall_mem_replace hall fun _ => ?_
      rw [hlist, hlarge]
      exact hwindow

/-- In every run whose counters do not overflow the received numbers increase. -/
theorem unforgotten_of_run {events : List Event} {t : State}
    (hroom : Throughout step NoOverflow {} events)
    (hrun : run untrimmedStep {} events = some t) : Unforgotten t := by
  have hstart : Unforgotten {} := fun _ hp => absurd hp List.not_mem_nil
  have hcounters : Throughout untrimmedStep (fun t e => NoOverflow (trimmedState t) e) {} events :=
    (throughout_map step_trimmedState).mp hroom
  refine run_invariant hstart (fun t e t' ht hC hs => ?_) hcounters hrun
  obtain ⟨o', ho', rfl⟩ := Option.map_eq_some_iff.mp hs
  exact ht.turn hC ho'

/-- The real server goes through the states of one that forgets nothing, and where the
numbers that one has received increase, it sends the same. They increase in every run
whose counters do not overflow. -/
def ServerInStep (events : List Event) : Prop :=
  run step {} events = (run untrimmedStep {} events).map trimmedState ∧
    ∀ t, run untrimmedStep {} events = some t → ∀ e o', turnKeeping id t e = some o' →
      ∃ o, executeGameTurn e.env (trimmedState t) e.data e.clientAddr = some o ∧
        ((∀ p ∈ o'.state.players, p.receivedPackets.Pairwise (· < ·)) → o.sent = o'.sent) ∧
        (Throughout step NoOverflow {} (events ++ [e]) →
          (∀ p ∈ o'.state.players, p.receivedPackets.Pairwise (· < ·)) ∧ o.sent = o'.sent)

theorem serverInStep (events : List Event) : ServerInStep events := by
  refine ⟨run_map step_trimmedState {} events, fun t hrun e o' ho' => ?_⟩
  have hturn := executeGameTurn_trimmedState t e
  rw [ho'] at hturn
  cases ho : executeGameTurn e.env (trimmedState t) e.data e.clientAddr with
  | none =>
    rw [ho] at hturn
    cases hturn
  | some o =>
    rw [ho] at hturn
    cases hturn with
    | some hsame =>
      have hstep : untrimmedStep t e = some o'.state := by
        rw [untrimmedStep, ho', Option.map_some]
      have hnext := run_append hrun ((run_singleton t e).trans hstep)
      have hsent : (∀ p ∈ o'.state.players, p.receivedPackets.Pairwise (· < ·)) →
          o.sent = o'.sent := fun hincreasing => hsame.sent fun p hp =>
        ackBitsOf_trimReceived (by decide) (hincreasing p hp) (endsIn_of_untrimmed_run hnext p hp)
      refine ⟨o, rfl, hsent, fun hroom => ?_⟩
      have hincreasing := fun p hp => (unforgotten_of_run hroom hnext p hp).increasing
      exact ⟨hincreasing, hsent hincreasing⟩

end Server

def clientHandleGameStateKeeping (keep : Channel → Channel) (env : Client.Env) (c : Client.State)
    (networkPacket : NetworkPacket) : Option Client.Outcome := do
  let (connectionSalt, gamePacket) ← networkPacket.readUInt64
  if c.connectionSalt ≠ connectionSalt then
    return { state := c, result := 0 }
  let (seqNum, gamePacket) ← gamePacket.readInt16
  let (ack, gamePacket) ← gamePacket.readInt16
  let (ackBits, gamePacket) ← gamePacket.readInt32
  let channel := c.toChannel.accept seqNum.toUInt16
  let channel := channel.verify env.clock ack.toUInt16 ackBits.toUInt32
  let verified := channel.sendPackets
  let trim := Client.trimSendPackets verified
  let roundTripTimeMs :=
    if trim.acknowledgedCount > 0 then
      (milliseconds (trim.roundTripTime / Int64.ofNat trim.acknowledgedCount)).toUInt64
    else c.roundTripTimeMs
  let channel := { channel with sendPackets := Client.keptSendPackets verified }
  let channel := keep channel
  let (playerStates, _) ← gamePacket.deserializePlayerStates
  return { state := { c with
             toChannel := channel
             roundTripTimeMs := roundTripTimeMs
             incomingStates := (c.incomingStates.push playerStates).2 }
           verified := verified
           packetLoss := trim.packetLoss
           result := 1 }

/-- The handler of the source, which keeps the newest 33. -/
theorem clientHandleGameStateKeeping_source :
    clientHandleGameStateKeeping (·.trimReceived Client.maxReceivedPacketsStored) =
      Client.handleGameState := rfl

section Client

variable {physics : Client.PhysicsEngine} {c : Client.State}

def untrimmedClientStep (physics : Client.PhysicsEngine) (c : Client.State) :
    ClientAcks.Event → Option Client.State
  | .receive env networkPacket =>
      (clientHandleGameStateKeeping id env c networkPacket).map Client.Outcome.state
  | e => ClientAcks.step physics c e

def trimmedClient (c : Client.State) : Client.State :=
  { c with toChannel := c.trimReceived Client.maxReceivedPacketsStored }

theorem sendGameState_trimmedClient (env : Client.Env) :
    (Client.sendGameState physics env (trimmedClient c)).state =
      trimmedClient (Client.sendGameState physics env c).state := by
  have hqueue : (trimmedClient c).outgoingState = c.outgoingState := rfl
  unfold Client.sendGameState
  rw [hqueue]
  cases c.outgoingState.pop with
  | none => rfl
  | some popped =>
    unfold Client.clientSidePrediction
    by_cases hempty : c.gameStateSnapshot.isEmpty = true
    · simp only [trimmedClient, hempty, if_true]
      rfl
    · simp only [trimmedClient, hempty]
      rfl

def receivedState (env : Client.Env) (c : Client.State) (ack : UInt16) (ackBits : UInt32)
    (playerStates : List PlayerState) (accepted : Channel) : Client.State :=
  let channel := accepted.verify env.clock ack ackBits
  let trim := Client.trimSendPackets channel.sendPackets
  { c with
    toChannel := { channel with sendPackets := Client.keptSendPackets channel.sendPackets }
    roundTripTimeMs :=
      if trim.acknowledgedCount > 0 then
        (milliseconds (trim.roundTripTime / Int64.ofNat trim.acknowledgedCount)).toUInt64
      else c.roundTripTimeMs
    incomingStates := (c.incomingStates.push playerStates).2 }

theorem handleGameState_trimmedClient (env : Client.Env) (p : NetworkPacket) :
    (Client.handleGameState env (trimmedClient c) p).map Client.Outcome.state =
      ((clientHandleGameStateKeeping id env c p).map Client.Outcome.state).map trimmedClient := by
  rw [← clientHandleGameStateKeeping_source]
  unfold clientHandleGameStateKeeping
  cases p.readUInt64 with
  | none => rfl
  | some read =>
    simp only [Option.bind_eq_bind, Option.bind_some]
    by_cases hsalt : c.connectionSalt ≠ read.1
    · have hsalt' : (trimmedClient c).connectionSalt ≠ read.1 := hsalt
      rw [if_pos hsalt, if_pos hsalt']
      rfl
    · have hsalt' : ¬ (trimmedClient c).connectionSalt ≠ read.1 := hsalt
      rw [if_neg hsalt, if_neg hsalt']
      cases read.2.readInt16 with
      | none => rfl
      | some seqNum =>
        simp only [Option.bind_some]
        cases seqNum.2.readInt16 with
        | none => rfl
        | some ack =>
          simp only [Option.bind_some]
          cases ack.2.readInt32 with
          | none => rfl
          | some ackBits =>
            simp only [Option.bind_some]
            cases ackBits.2.deserializePlayerStates with
            | none => rfl
            | some playerStates =>
              have haccept := trimReceived_accept c.toChannel Client.maxReceivedPacketsStored
                seqNum.1.toUInt16
              have hstate := congrArg (fun ch => some (receivedState env c ack.1.toUInt16
                ackBits.1.toUInt32 playerStates.1 ch)) haccept
              exact hstate

theorem step_trimmedClient (c : Client.State) (e : ClientAcks.Event) :
    ClientAcks.step physics (trimmedClient c) e =
      (untrimmedClientStep physics c e).map trimmedClient := by
  cases e with
  | input playerState => rfl
  | send env => exact congrArg some (sendGameState_trimmedClient env)
  | receive env networkPacket => exact handleGameState_trimmedClient env networkPacket

/-- The last received number is the newest one, in every run of the client. -/
theorem endsIn_of_clientRun {events : List ClientAcks.Event} {t : Client.State}
    (hfresh : c.toChannel = {}) (hrun : run (ClientAcks.step physics) c events = some t) :
    EndsIn t.receivedPackets t.remoteSequenceNumberLarge := by
  have halways : Always (ClientAcks.step physics)
      (fun c => EndsIn c.receivedPackets c.remoteSequenceNumberLarge) c events := by
    refine always_of_preserved ?_ fun c e c' hlast hstep => ?_
    · rw [hfresh]
      exact endsIn_nil _
    · cases e with
      | input playerState =>
        obtain rfl := Option.some.inj hstep
        exact hlast
      | send env =>
        obtain rfl := Option.some.inj hstep
        obtain ⟨hreceived, hlarge, _⟩ := ClientAcks.sendGameState_received physics env c
        rw [hreceived, hlarge]
        exact hlast
      | receive env networkPacket =>
        obtain ⟨o, ho, rfl⟩ := Option.map_eq_some_iff.mp hstep
        rcases client_handleGameState_cases ho with ⟨hsame, _⟩ | ⟨h, _, _, _, hchannel, _⟩
        · rw [hsame]
          exact hlast
        · rw [hchannel, clientReceive, Channel.trimReceived_receivedPackets]
          exact (endsIn_accept hlast h.seqNum).drop _
  exact halways.last hrun

/-- The remote counter has room for what a packet of this connection adds to it. -/
def ClientRoom (c : Client.State) : ClientAcks.Event → Prop
  | .receive _ networkPacket => ∀ h p, readHeader networkPacket = some (h, p) →
      h.connectionSalt = c.connectionSalt → c.remoteSequenceNumberLarge.toNat +
        (sequenceNumberDiff c.remoteSequenceNumberSmall h.seqNum).toNat < 2 ^ 64
  | _ => True

theorem clientHandleGameStateKeeping_eq_some {env : Client.Env} {p : NetworkPacket}
    {o : Client.Outcome} (h : clientHandleGameStateKeeping id env c p = some o) :
    o.state = c ∨ ∃ header p', readHeader p = some (header, p') ∧
      header.connectionSalt = c.connectionSalt ∧
      o.state.receivedPackets = (c.accept header.seqNum).receivedPackets ∧
      o.state.remoteSequenceNumberLarge =
        (c.accept header.seqNum).remoteSequenceNumberLarge := by
  obtain ⟨⟨salt, p₁⟩, hsalt, h⟩ := Option.bind_eq_some_iff.mp h
  dsimp only at h
  split at h
  · obtain rfl := Option.some.inj h
    exact Or.inl rfl
  · next hsame =>
    obtain ⟨⟨seqNum, p₂⟩, hseq, h⟩ := Option.bind_eq_some_iff.mp h
    obtain ⟨⟨ack, p₃⟩, hack, h⟩ := Option.bind_eq_some_iff.mp h
    obtain ⟨⟨ackBits, p₄⟩, hbits, h⟩ := Option.bind_eq_some_iff.mp h
    obtain ⟨⟨playerStates, p₅⟩, hstates, h⟩ := Option.bind_eq_some_iff.mp h
    obtain rfl := Option.some.inj h
    have hheader : readHeader p =
        some (⟨salt, seqNum.toUInt16, ack.toUInt16, ackBits.toUInt32⟩, p₄) := by
      simp only [readHeader, hsalt, hseq, hack, hbits, Option.bind_eq_bind, Option.bind_some,
        Option.pure_def]
    exact Or.inr ⟨_, p₄, hheader, (not_not.mp hsame).symm, rfl, rfl⟩

theorem window_untrimmedClientStep {c' : Client.State} {e : ClientAcks.Event}
    (h : Window c.receivedPackets c.remoteSequenceNumberLarge)
    (hroom : ClientRoom (trimmedClient c) e) (hs : untrimmedClientStep physics c e = some c') :
    Window c'.receivedPackets c'.remoteSequenceNumberLarge := by
  cases e with
  | input playerState =>
    obtain rfl := Option.some.inj hs
    exact h
  | send env =>
    obtain rfl := Option.some.inj hs
    obtain ⟨hreceived, hlarge, -⟩ := ClientAcks.sendGameState_received physics env c
    rw [hreceived, hlarge]
    exact h
  | receive env networkPacket =>
    obtain ⟨o, ho, rfl⟩ := Option.map_eq_some_iff.mp hs
    rcases clientHandleGameStateKeeping_eq_some ho with
      hsame | ⟨header, p, hheader, hsalt, hlist, hlarge⟩
    · rw [hsame]
      exact h
    · rw [hlist, hlarge]
      exact window_accept h (hroom header p hheader hsalt)

/-- The real client goes through the states of one that forgets nothing. What such a one
has received last is its newest number, and where the numbers it has received increase,
the bits counted back from there are the same. They increase in every run whose counter
does not overflow. -/
def ClientInStep (physics : Client.PhysicsEngine) (c : Client.State)
    (events : List ClientAcks.Event) : Prop :=
  run (ClientAcks.step physics) c events =
      (run (untrimmedClientStep physics) c events).map trimmedClient ∧
    ∀ t, run (untrimmedClientStep physics) c events = some t →
      EndsIn t.receivedPackets t.remoteSequenceNumberLarge ∧
        (t.receivedPackets.Pairwise (· < ·) →
          ackBitsOf (trimmedClient t).toChannel = ackBitsOf t.toChannel) ∧
        (Throughout (ClientAcks.step physics) ClientRoom c events →
          t.receivedPackets.Pairwise (· < ·) ∧
            ackBitsOf (trimmedClient t).toChannel = ackBitsOf t.toChannel)

theorem clientInStep (physics : Client.PhysicsEngine) {c : Client.State}
    (hfresh : c.toChannel = {}) (events : List ClientAcks.Event) :
    ClientInStep physics c events := by
  have hstart : trimmedClient c = c := by
    cases c
    obtain rfl := hfresh
    rfl
  have hmap := run_map (@step_trimmedClient physics) c events
  have hcounter := @throughout_map _ _ _ ClientRoom _ _ _ (@step_trimmedClient physics) c events
  rw [hstart] at hmap hcounter
  refine ⟨hmap, fun t hrun => ?_⟩
  rw [hrun, Option.map_some] at hmap
  have hlast : EndsIn t.receivedPackets t.remoteSequenceNumberLarge := by
    have htrimmed := endsIn_of_clientRun hfresh hmap
    rw [trimmedClient, trimReceived_eq] at htrimmed
    exact (endsIn_rtake_iff (by decide)).mp htrimmed
  have hbits : t.receivedPackets.Pairwise (· < ·) →
      ackBitsOf (trimmedClient t).toChannel = ackBitsOf t.toChannel :=
    fun hincreasing => ackBitsOf_trimReceived (by decide) hincreasing hlast
  refine ⟨hlast, hbits, fun hroom => ?_⟩
  have hfirst : Window c.receivedPackets c.remoteSequenceNumberLarge := by
    rw [hfresh]
    exact Window.nil _
  have hwindow := run_invariant
    (I := fun c : Client.State => Window c.receivedPackets c.remoteSequenceNumberLarge) hfirst
    (fun _ _ _ => window_untrimmedClientStep) (hcounter.mp hroom) hrun
  exact ⟨hwindow.increasing, hbits hwindow.increasing⟩

end Client

/-- Keeping 33 numbers or more never changes what is acknowledged: not for one list, and
in no run of the server, which keeps 60, or of the client, which keeps 33. -/
theorem trimming_keeps_ackBits :
    (∀ (data : List UInt64) (ack : UInt64) (k : ℕ), data.Pairwise (· < ·) →
      data.getLast? = some ack → 33 ≤ k →
      computeAckBits (data.rtake k) ack = computeAckBits data ack) ∧
    (∀ events, ServerInStep events) ∧
    ∀ physics c events, c.toChannel = {} → ClientInStep physics c events :=
  ⟨fun _ _ _ hincreasing hlast hk => computeAckBits_rtake hincreasing hlast hk, serverInStep,
    fun physics _ events hfresh => clientInStep physics hfresh events⟩

section Witness

open HandshakeMessages

def manyMessages : List Event :=
  ⟨{}, paddedMessage .connectionRequest 1, ⟨2, 1, 1⟩⟩ ::
    (List.range 62).map fun n =>
      ⟨{}, gameMessage .gameState ⟨1, UInt16.ofNat (n + 1), 0, 0⟩ (playerStateBytes {}), ⟨2, 1, 1⟩⟩

def playing : Client.State := { serverAddr := ⟨2, 9, 3501⟩, connectionSalt := 1 }

/-- 35 replies in a row, of which the client forgets the first two, and a frame. -/
def manyReplies : List ClientAcks.Event :=
  ((List.range 35).map fun n => .receive {} ((ofBytes (gameMessage .gameState
    ⟨1, UInt16.ofNat (n + 1), 0, 0⟩ (tableBytes []))).advance 5)) ++ [.input {}, .send {}]

/-- The first of 35 numbers in a row is forgotten, and both programs forget two. -/
theorem trimming_keeps_ackBits_row :
    computeAckBits (((List.range 35).map UInt64.ofNat).rtake 34) 34 =
        computeAckBits ((List.range 35).map UInt64.ofNat) 34 ∧
      ServerInStep manyMessages ∧
      ClientInStep .resting playing manyReplies ∧
      (run (untrimmedClientStep .resting) playing manyReplies).map
        (fun t => (trimmedClient t).receivedPackets.head?) = some (some 3) :=
  ⟨trimming_keeps_ackBits.1 _ _ _ (by decide +kernel) (by decide +kernel) (by decide),
    trimming_keeps_ackBits.2.1 _, trimming_keeps_ackBits.2.2 _ _ _ rfl, by decide +kernel⟩

end Witness

end RocketGame.Trimming
