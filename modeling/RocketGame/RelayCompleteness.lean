import Mathlib.Data.List.Count
import RocketGame.Crc32
import RocketGame.RocketServer
import RocketGame.Runs

/-!
To whom the .NET server relays a packet. The loop skips the sender by PlayerID,
and a new player's ID is the size of the table, so a player who joins after
another has been removed can get an ID that is in use. Every packet reaches all
others exactly as long as nobody joins under the ID of a registered player.
-/
namespace RocketGame.RelayCompleteness

open LabelledTables RocketServer RocketShared Runs
open NetworkPacket (Valid withHash valid_withHash exists_fromBytes_iff)

/-- The packet goes once to everyone registered but its sender, and nothing to
the sender. -/
structure RelayedToOthers (players : Players) (r : Reception) (sent : List Sent) : Prop where
  once : ∀ b ∈ players, b ≠ r.remoteEndpoint → sent.count (b, r.receivedBytes) = 1
  neverBack : ∀ data, (r.remoteEndpoint, data) ∉ sent

/-- A turn with a valid packet ends, and relays it to all others. -/
def RelayComplete (crc32 : Crc32) (s : Server) : Turn → Prop
  | .socketException => True
  | .received r => Valid crc32 r.receivedBytes →
      ∃ out, turn crc32 s (.received r) = .ok out ∧ RelayedToOthers s.players r out.2

/-- A valid packet of a new endpoint arrives while nobody has the ID it will get. -/
def JoinsUnderFreeID (crc32 : Crc32) (s : Server) : Turn → Prop
  | .socketException => True
  | .received r => Valid crc32 r.receivedBytes → r.remoteEndpoint ∉ s.players →
      ∀ b, idOf s.players b ≠ some (nextPlayerID s.players)

def IDUnshared (players : Players) (e : IPEndPoint) : Prop :=
  ∀ b, idOf players b = some (idFor players e) → b = e

section Tables

variable {players : Players} {e : IPEndPoint}

/-- With distinct IDs only a new endpoint can come to share one. -/
theorem idUnshared_iff (h : DistinctIDs players) : IDUnshared players e ↔
    (e ∉ players → ∀ b, idOf players b ≠ some (nextPlayerID players)) := by
  unfold IDUnshared idFor
  cases he : idOf players e with
  | none =>
    have hnew : e ∉ players := idOf_eq_none.mp he
    constructor
    · intro hid _ b hb
      obtain rfl := hid b hb
      rw [he] at hb
      cases hb
    · intro hfree b hb
      exact absurd hb (hfree hnew b)
  | some l =>
    have hold : e ∈ players := by
      by_contra hnew
      rw [idOf_eq_none.mpr hnew] at he
      cases he
    exact iff_of_true (fun b hb => h b e l hb he) fun hnew => absurd hold hnew

end Tables

section Step

variable {crc32 : Crc32} {s s' : Server} {r : Reception} {packet : NetworkPacket}

/-- At the relay nobody but the sender has been added, and the others keep their IDs. -/
theorem mem_enter {b : IPEndPoint} (hb : b ≠ r.remoteEndpoint) :
    b ∈ (enter s.players r packet).2 ↔ b ∈ s.players := by
  rw [← not_iff_not, ← idOf_eq_none, ← idOf_eq_none, idOf_enter, Function.update_of_ne hb]

theorem idUnshared_enter (packet : NetworkPacket) :
    (∀ b, idOf (enter s.players r packet).2 b = some (idFor s.players r.remoteEndpoint) →
      b = r.remoteEndpoint) ↔ IDUnshared s.players r.remoteEndpoint := by
  refine forall_congr' fun b => ?_
  by_cases hb : b = r.remoteEndpoint
  · exact iff_of_true (fun _ => hb) fun _ => hb
  · rw [idOf_enter, Function.update_of_ne hb]

/-- The relay skips by ID, which is right exactly when the sender shares its own with nobody. -/
theorem relayedToOthers_iff : RelayedToOthers s.players r (handle s r packet).2 ↔
    IDUnshared s.players r.remoteEndpoint := by
  let targets := keysWithOther RocketPlayer.playerID (idFor s.players r.remoteEndpoint)
    (enter s.players r packet).2
  have hsent : (handle s r packet).2 = targets.map fun b => (b, r.receivedBytes) := handle_sent
  have hnodup : targets.Nodup := nodup_keysWithOther _ _ _
  have hinj : Function.Injective fun b : IPEndPoint => (b, r.receivedBytes) :=
    fun _ _ h => (Prod.mk.inj h).1
  have hcount : ∀ b, ((handle s r packet).2.count (b, r.receivedBytes) = 1 ↔ b ∈ targets) := by
    intro b
    rw [hsent, List.count_map_of_injective targets _ hinj b]
    constructor
    · intro h
      exact List.count_pos_iff.mp (h ▸ Nat.one_pos)
    · exact List.count_eq_one_of_mem hnodup
  have hself : r.remoteEndpoint ∉ targets := by
    apply notMem_keysWithOther
    rw [← idOf, idOf_enter, Function.update_self]
  rw [← idUnshared_enter packet, idOf, ← forall_mem_keysWithOther_iff]
  constructor
  · intro h b hmem hb
    exact (hcount b).mp (h.once b ((mem_enter hb).mp hmem) hb)
  · intro h
    refine ⟨fun b hmem hb => (hcount b).mpr (h b ((mem_enter hb).mpr hmem) hb), ?_⟩
    intro data hback
    rw [hsent, List.mem_map] at hback
    obtain ⟨b, hb, heq⟩ := hback
    obtain ⟨rfl, _⟩ := Prod.mk.inj heq
    exact hself hb

theorem distinctIDs_handle (h : DistinctIDs s.players)
    (hid : IDUnshared s.players r.remoteEndpoint) :
    DistinctIDs (handle s r packet).1.players :=
  (h.of_update (idOf_enter s.players r packet) hid).of_labelOf fun _ _ => idOf_handle

theorem relayComplete_iff (t : Turn) (h : DistinctIDs s.players) :
    RelayComplete crc32 s t ↔ JoinsUnderFreeID crc32 s t := by
  cases t with
  | socketException => exact Iff.rfl
  | received r =>
    refine forall_congr' fun hvalid => ?_
    obtain ⟨packet, hpacket⟩ := (exists_fromBytes_iff crc32 r.receivedBytes).mpr hvalid
    have hturn : turn crc32 s (.received r) = .ok (handle s r packet) :=
      turn_received_eq_ok.mpr ⟨packet, hpacket, rfl⟩
    simp only [hturn, Except.ok.injEq, exists_eq_left']
    rw [relayedToOthers_iff, idUnshared_iff h]

theorem distinctIDs_step {t : Turn} (h : DistinctIDs s.players)
    (hC : JoinsUnderFreeID crc32 s t) (hs : step crc32 s t = some s') :
    DistinctIDs s'.players := by
  cases t with
  | socketException =>
    obtain rfl : s = s' := Option.some.inj hs
    exact h
  | received r =>
    obtain ⟨packet, hpacket, rfl⟩ := step_received_eq_some.mp hs
    have hvalid := (exists_fromBytes_iff crc32 r.receivedBytes).mp ⟨packet, hpacket⟩
    exact distinctIDs_handle h ((idUnshared_iff h).mpr (hC hvalid))

end Step

/-- From an empty table, every turn relays completely exactly when every new
endpoint joins under a free ID. -/
theorem throughout_relayComplete_iff (crc32 : Crc32) (stopwatch : Stopwatch)
    (turns : List Turn) :
    Throughout (step crc32) (RelayComplete crc32) { stopwatch } turns ↔
      Throughout (step crc32) (JoinsUnderFreeID crc32) { stopwatch } turns := by
  have hempty : DistinctIDs ({ stopwatch : Server }).players := distinctLabels_empty _
  exact throughout_congr (I := fun s => DistinctIDs s.players) hempty
    (fun _ t h => relayComplete_iff t h) fun _ _ _ => distinctIDs_step

/-- The CRC-32 of CRC32.cpp, its bytes in the little-endian order of GetCurrentHash. -/
def ieee : Crc32 where
  getCurrentHash data := (BigEndian.encode 4 (Crc32.calculate data).toNat).reverse
  length_getCurrentHash _ := List.length_reverse.trans (BigEndian.length_encode ..)

def standing : Datagram := withHash ieee (List.replicate 37 0)

def arrival (port : UInt16) (ms : ℕ) : Reception where
  remoteEndpoint := ⟨0x7F000001, port⟩
  receivedBytes := standing
  now := ms * 10000
  checkedAt := ms * 10000
  restartedAt := ms * 10000

/-- Three players join, the first falls silent and is removed, and a fourth
joins under the ID of the third, who misses the packet. -/
theorem late_joiner_is_not_relayed :
    ¬ ∀ (crc32 : Crc32) (stopwatch : Stopwatch) (turns : List Turn),
      Throughout (step crc32) (RelayComplete crc32) { stopwatch } turns := by
  intro h
  let turns : List Turn := [.received (arrival 1 0), .received (arrival 2 100),
    .received (arrival 3 4000), .received (arrival 2 5200)]
  have hids : (run (step ieee) {} turns).map (fun s =>
      (idOf s.players ⟨0x7F000001, 3⟩, idFor s.players ⟨0x7F000001, 4⟩)) =
        some (some 3, 3) := by decide +kernel
  obtain ⟨t, hrun, ht⟩ := Option.map_eq_some_iff.mp hids
  obtain ⟨hthird, hfourth⟩ := Prod.mk.inj ht
  have hvalid : Valid ieee standing := valid_withHash ieee rfl
  obtain ⟨out, hout, hrelayed⟩ :=
    (h ieee {} (turns ++ [.received (arrival 4 5300)])).last hrun hvalid
  obtain ⟨packet, _, rfl⟩ := turn_received_eq_ok.mp hout
  have hid : idOf t.players ⟨0x7F000001, 3⟩ = some (idFor t.players ⟨0x7F000001, 4⟩) :=
    hthird.trans (congrArg some hfourth.symm)
  exact absurd (relayedToOthers_iff.mp hrelayed _ hid) (by decide)

end RocketGame.RelayCompleteness
