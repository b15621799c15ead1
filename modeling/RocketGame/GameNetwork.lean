import RocketGame.RocketShared

/-!
GameNetwork.cs of the .NET client. A turn of the outer loop sends at most one
packet and then receives while something is available; only a SocketException is
caught. What the socket gives in a turn and the clock reading are inputs, and
the sends succeed.
-/
namespace RocketGame.GameNetwork

open RocketShared

inductive GameNetworkStatus
  | disconnected
  | connecting
  | connected
  | disconnecting
  deriving DecidableEq, Repr

structure State where
  status : GameNetworkStatus := .connecting
  incoming : List NetworkPacket := []
  outgoing : List NetworkPacket := []

inductive Reception
  | socketException
  | receivedBytes (data : Datagram)

def receive (crc32 : Crc32) (s : State) : Reception → Except ApplicationException State
  | .socketException => .ok { s with status := .disconnected }
  | .receivedBytes data => (NetworkPacket.fromBytes crc32 data).map fun packetIncoming =>
      { s with incoming := s.incoming ++ [packetIncoming] }

def receiveAll (crc32 : Crc32) (s : State) (receptions : List Reception) :
    Except ApplicationException State :=
  receptions.foldlM (receive crc32) s

/-- At most one packet of Outgoing is sent in a turn. -/
def sendNext (crc32 : Crc32) (utcNow : Int64) (s : State) : State × List Datagram :=
  match s.outgoing with
  | [] => (s, [])
  | packet :: rest => ({ s with outgoing := rest }, [packet.getBytes crc32 utcNow])

structure Turn where
  utcNow : Int64
  receptions : List Reception

def turn (crc32 : Crc32) (s : State) (t : Turn) :
    Except ApplicationException (State × List Datagram) :=
  let (s, sent) := sendNext crc32 t.utcNow s
  (receiveAll crc32 s t.receptions).map fun s => (s, sent)

/-- RunNetworking: the loop over the turns until the status is Disconnected; an
exception ends it. -/
def step (crc32 : Crc32) (s : State) (t : Turn) : Option State :=
  if s.status = .disconnected then none else (turn crc32 s t).toOption.map Prod.fst

section Receiving

variable (crc32 : Crc32) (s : State)

def accepted : Reception → Option NetworkPacket
  | .socketException => none
  | .receivedBytes data => (NetworkPacket.fromBytes crc32 data).toOption

def Reception.datagram? : Reception → Option Datagram
  | .socketException => none
  | .receivedBytes data => some data

@[simp] theorem incoming_sendNext (utcNow : Int64) :
    (sendNext crc32 utcNow s).1.incoming = s.incoming := by
  unfold sendNext
  split <;> rfl

@[simp] theorem status_sendNext (utcNow : Int64) :
    (sendNext crc32 utcNow s).1.status = s.status := by
  unfold sendNext
  split <;> rfl

variable {crc32 s}

theorem receive_eq_ok {s' : State} {data : Datagram} :
    receive crc32 s (.receivedBytes data) = .ok s' ↔ ∃ packet,
      NetworkPacket.fromBytes crc32 data = .ok packet ∧
        { s with incoming := s.incoming ++ [packet] } = s' := by
  simp only [receive]
  cases NetworkPacket.fromBytes crc32 data with
  | error e => simp only [Except.map, reduceCtorEq, false_and, exists_false]
  | ok packet => simp only [Except.map, Except.ok.injEq, exists_eq_left']

theorem exists_receive_iff (r : Reception) : (∃ s', receive crc32 s r = .ok s') ↔
    ∀ data, r = .receivedBytes data → NetworkPacket.Valid crc32 data := by
  cases r with
  | socketException => exact iff_of_true ⟨_, rfl⟩ fun _ h => nomatch h
  | receivedBytes data =>
    simp only [receive_eq_ok, Reception.receivedBytes.injEq, forall_eq',
      ← NetworkPacket.exists_fromBytes_iff]
    constructor
    · rintro ⟨s', packet, hpacket, -⟩
      exact ⟨packet, hpacket⟩
    · rintro ⟨packet, hpacket⟩
      exact ⟨_, packet, hpacket, rfl⟩

theorem accepted_of_fromBytes {data : Datagram} {packet : NetworkPacket}
    (h : NetworkPacket.fromBytes crc32 data = .ok packet) :
    accepted crc32 (.receivedBytes data) = some packet := by
  rw [accepted, h]
  rfl

theorem incoming_receive {s' : State} {r : Reception} (h : receive crc32 s r = .ok s') :
    s'.incoming = s.incoming ++ (accepted crc32 r).toList := by
  cases r with
  | socketException =>
    obtain rfl := Except.ok.inj h
    exact (List.append_nil _).symm
  | receivedBytes data =>
    obtain ⟨packet, hpacket, rfl⟩ := receive_eq_ok.mp h
    rw [accepted_of_fromBytes hpacket]
    rfl

theorem receiveAll_cons_eq_ok {s' : State} {r : Reception} {rs : List Reception} :
    receiveAll crc32 s (r :: rs) = .ok s' ↔
      ∃ t, receive crc32 s r = .ok t ∧ receiveAll crc32 t rs = .ok s' := by
  rw [receiveAll, List.foldlM_cons]
  cases receive crc32 s r with
  | error e => exact iff_of_false (nofun) fun ⟨_, h, _⟩ => nomatch h
  | ok t =>
    constructor
    · exact fun h => ⟨t, rfl, h⟩
    · rintro ⟨u, hu, h⟩
      obtain rfl := Except.ok.inj hu
      exact h

/-- The inner loop ends by itself exactly when FromBytes accepts all it receives. -/
theorem exists_receiveAll_iff (rs : List Reception) : (∃ s', receiveAll crc32 s rs = .ok s') ↔
    ∀ data, .receivedBytes data ∈ rs → NetworkPacket.Valid crc32 data := by
  induction rs generalizing s with
  | nil => exact iff_of_true ⟨s, rfl⟩ fun _ h => absurd h List.not_mem_nil
  | cons r rs ih =>
    simp only [receiveAll_cons_eq_ok, List.mem_cons]
    constructor
    · rintro ⟨s', t, ht, hrest⟩ data (hdata | hdata)
      · exact (exists_receive_iff r).mp ⟨t, ht⟩ data hdata.symm
      · exact ih.mp ⟨s', hrest⟩ data hdata
    · intro h
      obtain ⟨t, ht⟩ := (exists_receive_iff r).mpr fun data hdata => h data (Or.inl hdata.symm)
      obtain ⟨s', hrest⟩ := ih.mpr fun data hdata => h data (Or.inr hdata)
      exact ⟨s', t, ht, hrest⟩

/-- Incoming takes the accepted packets in their order. -/
theorem incoming_receiveAll {s' : State} {rs : List Reception}
    (h : receiveAll crc32 s rs = .ok s') :
    s'.incoming = s.incoming ++ rs.filterMap (accepted crc32) := by
  induction rs generalizing s with
  | nil =>
    obtain rfl := Except.ok.inj h
    exact (List.append_nil _).symm
  | cons r rs ih =>
    obtain ⟨t, ht, hrest⟩ := receiveAll_cons_eq_ok.mp h
    rw [ih hrest, incoming_receive ht, List.append_assoc, List.filterMap_cons]
    cases accepted crc32 r <;> rfl

/-- Every datagram received becomes one packet. -/
theorem forall₂_receiveAll {s' : State} {rs : List Reception} (h : receiveAll crc32 s rs = .ok s') :
    List.Forall₂ (fun data packet => NetworkPacket.fromBytes crc32 data = .ok packet)
      (rs.filterMap Reception.datagram?) (rs.filterMap (accepted crc32)) := by
  induction rs generalizing s with
  | nil => exact List.Forall₂.nil
  | cons r rs ih =>
    obtain ⟨t, ht, hrest⟩ := receiveAll_cons_eq_ok.mp h
    cases r with
    | socketException => exact ih hrest
    | receivedBytes data =>
      obtain ⟨packet, hpacket, rfl⟩ := receive_eq_ok.mp ht
      rw [List.filterMap_cons_some (accepted_of_fromBytes hpacket)]
      exact List.Forall₂.cons hpacket (ih hrest)

/-- Only a SocketException ends the outer loop. -/
theorem status_receiveAll {s' : State} {rs : List Reception} (h : receiveAll crc32 s rs = .ok s') :
    s'.status = .disconnected ↔ s.status = .disconnected ∨ .socketException ∈ rs := by
  induction rs generalizing s with
  | nil =>
    obtain rfl := Except.ok.inj h
    exact (or_iff_left List.not_mem_nil).symm
  | cons r rs ih =>
    obtain ⟨t, ht, hrest⟩ := receiveAll_cons_eq_ok.mp h
    rw [ih hrest, List.mem_cons]
    cases r with
    | socketException =>
      obtain rfl := Except.ok.inj ht
      exact iff_of_true (Or.inl rfl) (Or.inr (Or.inl rfl))
    | receivedBytes data =>
      obtain ⟨packet, -, rfl⟩ := receive_eq_ok.mp ht
      simp only [reduceCtorEq, false_or]

theorem turn_eq_ok {t : Turn} {out : State × List Datagram} : turn crc32 s t = .ok out ↔
    ∃ s', receiveAll crc32 (sendNext crc32 t.utcNow s).1 t.receptions = .ok s' ∧
      (s', (sendNext crc32 t.utcNow s).2) = out := by
  have hturn : turn crc32 s t =
      (receiveAll crc32 (sendNext crc32 t.utcNow s).1 t.receptions).map
        fun s' => (s', (sendNext crc32 t.utcNow s).2) := rfl
  rw [hturn]
  cases receiveAll crc32 (sendNext crc32 t.utcNow s).1 t.receptions with
  | error e => simp only [Except.map, reduceCtorEq, false_and, exists_false]
  | ok s' => simp only [Except.map, Except.ok.injEq, exists_eq_left']

end Receiving

end RocketGame.GameNetwork
