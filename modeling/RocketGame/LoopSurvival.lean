import RocketGame.GameNetwork
import RocketGame.RocketServer
import RocketGame.RelayCompleteness

/-!
Which arrays the two .NET loops survive. Both catch only a SocketException, and
FromBytes rejects with an ApplicationException, so the first array that it
rejects ends the loop.
-/
namespace RocketGame.LoopSurvival

open RocketShared Runs
open NetworkPacket (Valid fromBytes exists_fromBytes_iff)
open RelayCompleteness (ieee)

section Server

open RocketServer

/-- The packet is processed or dropped: the turn ends, a rejected packet leaves
the table as it is, and the next packet is handled. -/
def ServerSurvives (crc32 : Crc32) (s : Server) : Turn → Prop
  | .socketException => True
  | .received r => ∃ s' sent, turn crc32 s (.received r) = .ok (s', sent) ∧
      (¬ Valid crc32 r.receivedBytes → s'.players = s.players) ∧
      ∀ next packet, fromBytes crc32 next.receivedBytes = .ok packet →
        turn crc32 s' (.received next) = .ok (handle s' next packet)

def ReceivedValid (crc32 : Crc32) : Turn → Prop
  | .socketException => True
  | .received r => Valid crc32 r.receivedBytes

variable {crc32 : Crc32} {s : Server}

theorem serverSurvives_iff (t : Turn) : ServerSurvives crc32 s t ↔ ReceivedValid crc32 t := by
  cases t with
  | socketException => exact Iff.rfl
  | received r =>
    constructor
    · rintro ⟨s', sent, hturn, -⟩
      obtain ⟨packet, hpacket, -⟩ := turn_received_eq_ok.mp hturn
      exact (exists_fromBytes_iff crc32 r.receivedBytes).mp ⟨packet, hpacket⟩
    · intro hvalid
      obtain ⟨packet, hpacket⟩ := (exists_fromBytes_iff crc32 r.receivedBytes).mpr hvalid
      have hturn : turn crc32 s (.received r) = .ok (handle s r packet) :=
        turn_received_eq_ok.mpr ⟨packet, hpacket, rfl⟩
      refine ⟨_, _, hturn, fun hrejected => absurd hvalid hrejected, ?_⟩
      intro next packet' hnext
      exact turn_received_eq_ok.mpr ⟨packet', hnext, rfl⟩

theorem throughout_serverSurvives_iff (turns : List Turn) :
    Throughout (step crc32) (ServerSurvives crc32) s turns ↔
      ∀ t ∈ turns, ReceivedValid crc32 t := by
  have htaken : ∀ s t, ReceivedValid crc32 t → ∃ s', step crc32 s t = some s' := by
    intro s t ht
    cases t with
    | socketException => exact ⟨s, rfl⟩
    | received r =>
      obtain ⟨packet, hpacket⟩ := (exists_fromBytes_iff crc32 r.receivedBytes).mpr ht
      exact ⟨_, step_received_eq_some.mpr ⟨packet, hpacket, rfl⟩⟩
  rw [← throughout_iff_forall_mem htaken]
  exact throughout_congr (I := fun _ => True) trivial (fun _ t _ => serverSurvives_iff t)
    fun _ _ _ _ _ _ => trivial

end Server

section Client

open GameNetwork

/-- The turn ends, and Incoming has got the packets that FromBytes accepts, in
order; the arrays it rejects leave no trace. -/
def ClientSurvives (crc32 : Crc32) (s : State) (t : Turn) : Prop :=
  s.status ≠ .disconnected → ∃ s' sent, turn crc32 s t = .ok (s', sent) ∧
    s'.incoming = s.incoming ++ t.receptions.filterMap (accepted crc32)

def ReceivesValid (crc32 : Crc32) (s : State) (t : Turn) : Prop :=
  s.status ≠ .disconnected → ∀ data, .receivedBytes data ∈ t.receptions → Valid crc32 data

theorem clientSurvives_iff {crc32 : Crc32} (s : State) (t : Turn) :
    ClientSurvives crc32 s t ↔ ReceivesValid crc32 s t := by
  apply forall_congr'
  intro _
  rw [← exists_receiveAll_iff (s := (sendNext crc32 t.utcNow s).1)]
  constructor
  · rintro ⟨s', sent, hturn, -⟩
    obtain ⟨u, hall, -⟩ := turn_eq_ok.mp hturn
    exact ⟨u, hall⟩
  · rintro ⟨s', hall⟩
    refine ⟨s', _, turn_eq_ok.mpr ⟨s', hall, rfl⟩, ?_⟩
    rw [incoming_receiveAll hall, incoming_sendNext]

end Client

/-- In every run of either loop, from any state, the loop survives what it
receives exactly as long as FromBytes accepts it. -/
theorem loops_survive_iff (crc32 : Crc32) (server : RocketServer.Server)
    (turns : List RocketServer.Turn) (client : GameNetwork.State)
    (clientTurns : List GameNetwork.Turn) :
    (Throughout (RocketServer.step crc32) (ServerSurvives crc32) server turns ↔
      ∀ t ∈ turns, ReceivedValid crc32 t) ∧
    (Throughout (GameNetwork.step crc32) (ClientSurvives crc32) client clientTurns ↔
      Throughout (GameNetwork.step crc32) (ReceivesValid crc32) client clientTurns) :=
  ⟨throughout_serverSurvives_iff turns,
    throughout_congr (I := fun _ => True) trivial (fun s t _ => clientSurvives_iff s t)
      fun _ _ _ _ _ _ => trivial⟩

/-- Two zero bytes from anywhere end both loops. -/
theorem two_bytes_end_both_loops :
    ¬ (∀ crc32 s t, ServerSurvives crc32 s t) ∧ ¬ ∀ crc32 s t, ClientSurvives crc32 s t := by
  have hinvalid : ¬ Valid ieee [0, 0] := fun h => absurd h.1 (by decide)
  constructor
  · intro h
    let r : RocketServer.Reception :=
      { remoteEndpoint := ⟨0x7F000001, 1⟩, receivedBytes := [0, 0], now := 0, checkedAt := 0,
        restartedAt := 0 }
    exact hinvalid ((serverSurvives_iff (.received r)).mp (h ieee {} _))
  · intro h
    have hvalid := (clientSurvives_iff _ ⟨0, [.receivedBytes [0, 0]]⟩).mp
      (h ieee { status := .connected } _)
    exact hinvalid (hvalid (by decide) _ List.mem_cons_self)

end RocketGame.LoopSurvival
