import RocketGame.RelayCompleteness
import RocketGame.Since

/-!
Who is registered with the .NET server. A packet registers its sender; the check
of each second, which happens only in turns that receive a packet, removes those
whose last packet is more than five seconds old. So an endpoint is registered
exactly when it has sent a packet that no check since then found too old, and
only such endpoints are relayed anything.
-/
namespace RocketGame.RelayRegistry

open LabelledTables RocketServer RocketShared Runs Since

def lastHeard (s : Server) (e : IPEndPoint) : Option DateTime :=
  labelOf RocketPlayer.lastUpdated s.players e

def Heard (e : IPEndPoint) (heard : DateTime) (_ : Server) : Turn → Prop
  | .socketException => False
  | .received r => r.remoteEndpoint = e ∧ r.now = heard

def Checks (s : Server) (r : Reception) : Prop :=
  1000 ≤ s.stopwatch.elapsedMilliseconds r.checkedAt

/-- The turn is another endpoint's, and if it checks the players this one is not too old. -/
def Spared (e : IPEndPoint) (heard : DateTime) (s : Server) : Turn → Prop
  | .socketException => True
  | .received r => r.remoteEndpoint ≠ e ∧ (Checks s r → addSeconds r.now (-5) ≤ heard)

section Turns

variable {crc32 : Crc32} {s s' : Server} {r : Reception} {packet : NetworkPacket}
  {e : IPEndPoint}

theorem mem_toRemove {players : Players} {now : DateTime} : e ∈ toRemove players now ↔
    ∃ heard, labelOf RocketPlayer.lastUpdated players e = some heard ∧
      heard < addSeconds now (-5) := by
  simp only [toRemove, List.mem_map, List.mem_filter, decide_eq_true_eq]
  constructor
  · rintro ⟨⟨e, p⟩, ⟨hentry, hold⟩, rfl⟩
    exact ⟨_, labelOf_eq_some.mpr ⟨p, AList.mem_lookup_iff.mpr hentry, rfl⟩, hold⟩
  · rintro ⟨heard, hheard, hold⟩
    obtain ⟨p, hlookup, rfl⟩ := labelOf_eq_some.mp hheard
    exact ⟨⟨e, p⟩, ⟨AList.mem_lookup_iff.mp hlookup, hold⟩, rfl⟩

/-- The check keeps the times it spares. -/
theorem lastUpdated_checkPlayers {players : Players} {now heard : DateTime} :
    labelOf RocketPlayer.lastUpdated (checkPlayers players now) e = some heard ↔
      labelOf RocketPlayer.lastUpdated players e = some heard ∧ addSeconds now (-5) ≤ heard := by
  have hclear : labelOf RocketPlayer.lastUpdated
      (Table.mapValues RocketPlayer.clearMessages players) =
      labelOf RocketPlayer.lastUpdated players :=
    labelOf_mapValues (f := RocketPlayer.clearMessages) (fun _ => rfl) players
  rw [checkPlayers, labelOf, Table.lookup_eraseAll]
  split
  · next hremoved =>
    obtain ⟨old, hold, hlt⟩ := mem_toRemove.mp hremoved
    refine iff_of_false (Option.some_ne_none heard).symm fun h => ?_
    have heq : old = heard := Option.some.inj (hold.symm.trans h.1)
    exact absurd (heq ▸ hlt) (not_lt.mpr h.2)
  · next hkept =>
    rw [← labelOf, hclear]
    refine ⟨fun hheard => ⟨hheard, ?_⟩, And.left⟩
    by_contra hlt
    exact hkept (mem_toRemove.mpr ⟨heard, hheard, not_le.mp hlt⟩)

/-- Before the check the sender has the time of this turn, and the others keep theirs. -/
theorem lastUpdated_enter (players : Players) :
    labelOf RocketPlayer.lastUpdated ((enter players r packet).2.insert r.remoteEndpoint
      (enter players r packet).1.countMessage) =
      Function.update (labelOf RocketPlayer.lastUpdated players) r.remoteEndpoint
        (some r.now) := by
  have htime : (enter players r packet).1.countMessage.lastUpdated = r.now := rfl
  rw [labelOf_insert, htime, enter]
  dsimp only
  rw [labelOf_insert, Function.update_idem, register]
  split
  · rfl
  · rw [labelOf_insert, Function.update_idem]

/-- The check of this turn sees the table in which the sender is updated and counted. -/
theorem players_handle_of_checks (h : Checks s r) : (handle s r packet).1.players =
    checkPlayers ((enter s.players r packet).2.insert r.remoteEndpoint
      (enter s.players r packet).1.countMessage) r.now := by
  unfold handle
  dsimp only
  rw [if_pos (ge_iff_le.mpr h)]

theorem players_handle_of_not_checks (h : ¬ Checks s r) : (handle s r packet).1.players =
    (enter s.players r packet).2.insert r.remoteEndpoint
      (enter s.players r packet).1.countMessage := by
  unfold handle
  dsimp only
  rw [if_neg (mt ge_iff_le.mp h)]

/-- A sender stays whatever it was; the others stay unless a check finds them too old. -/
theorem lastHeard_handle {heard : DateTime} :
    lastHeard (handle s r packet).1 e = some heard ↔
      Heard e heard s (.received r) ∨
        (lastHeard s e = some heard ∧ Spared e heard s (.received r)) := by
  have hchecked : lastHeard (handle s r packet).1 e = some heard ↔
      Function.update (lastHeard s) r.remoteEndpoint (some r.now) e = some heard ∧
        (Checks s r → addSeconds r.now (-5) ≤ heard) := by
    unfold lastHeard
    by_cases hchecks : Checks s r
    · rw [players_handle_of_checks hchecks, lastUpdated_checkPlayers, lastUpdated_enter]
      exact and_congr_right fun _ => ⟨fun h _ => h, fun h => h hchecks⟩
    · rw [players_handle_of_not_checks hchecks, lastUpdated_enter]
      exact ⟨fun h => ⟨h, fun hc => absurd hc hchecks⟩, And.left⟩
  rw [hchecked]
  by_cases he : r.remoteEndpoint = e
  · subst he
    simp only [Function.update_self, Option.some.injEq, Heard, true_and, Spared, ne_eq,
      not_true_eq_false, false_and, and_false, or_false]
    refine ⟨And.left, fun hnow => ⟨hnow, fun _ => ?_⟩⟩
    have hpast : (-5 * 10000000 : ℤ) ≤ 0 := by decide
    rw [← hnow, addSeconds]
    exact add_le_of_nonpos_right hpast
  · rw [Function.update_of_ne (Ne.symm he)]
    simp only [Heard, he, false_and, false_or, Spared, ne_eq, not_false_eq_true, true_and]

theorem lastHeard_step {t : Turn} {heard : DateTime} (hs : step crc32 s t = some s') :
    lastHeard s' e = some heard ↔
      Heard e heard s t ∨ (lastHeard s e = some heard ∧ Spared e heard s t) := by
  cases t with
  | socketException =>
    obtain rfl : s = s' := Option.some.inj hs
    simp only [Heard, Spared, false_or, and_true]
  | received r =>
    obtain ⟨packet, -, rfl⟩ := step_received_eq_some.mp hs
    exact lastHeard_handle

/-- A turn sends its own datagram, to the registered players with another ID than the sender. -/
theorem mem_sent {out : Server × List Sent} {b : IPEndPoint} {data : Datagram}
    (hturn : turn crc32 s (.received r) = .ok out) : (b, data) ∈ out.2 ↔
      data = r.receivedBytes ∧ b ∈ s.players ∧ b ≠ r.remoteEndpoint ∧
        idOf s.players b ≠ some (idFor s.players r.remoteEndpoint) := by
  obtain ⟨packet, -, rfl⟩ := turn_received_eq_ok.mp hturn
  rw [handle_sent, List.mem_map]
  constructor
  · rintro ⟨b, hb, heq⟩
    obtain ⟨rfl, rfl⟩ := Prod.mk.inj heq
    have hother : b ≠ r.remoteEndpoint := by
      rintro rfl
      refine notMem_keysWithOther ?_ hb
      rw [← idOf, idOf_enter, Function.update_self]
    obtain ⟨l, hl, hne⟩ := mem_keysWithOther.mp hb
    rw [← idOf, idOf_enter, Function.update_of_ne hother] at hl
    refine ⟨rfl, ?_, hother, fun hsame => hne (Option.some.inj (hl.symm.trans hsame))⟩
    by_contra hnot
    cases (idOf_eq_none.mpr hnot).symm.trans hl
  · rintro ⟨rfl, hmem, hother, hid⟩
    obtain ⟨l, hl⟩ : ∃ l, idOf s.players b = some l :=
      Option.ne_none_iff_exists'.mp fun hnone => idOf_eq_none.mp hnone hmem
    refine ⟨b, mem_keysWithOther.mpr ⟨l, ?_, ?_⟩, rfl⟩
    · rw [← idOf, idOf_enter, Function.update_of_ne hother, hl]
    · rintro rfl
      exact hid hl

end Turns

/-- The endpoint sent a packet, and in no later turn was it found silent for over five seconds. -/
def HeardSince (crc32 : Crc32) (stopwatch : Stopwatch) (turns : List Turn) (e : IPEndPoint) :
    Prop :=
  ∃ heard, HeldSince (step crc32) (Heard e heard) (Spared e heard) { stopwatch } turns

section Runs

variable {crc32 : Crc32} {stopwatch : Stopwatch} {turns : List Turn} {s : Server}

theorem lastHeard_iff (hrun : run (step crc32) { stopwatch } turns = some s) (e : IPEndPoint)
    (heard : DateTime) : lastHeard s e = some heard ↔
      HeldSince (step crc32) (Heard e heard) (Spared e heard) { stopwatch } turns :=
  iff_heldSince (fun h => nomatch h) (fun _ _ _ => lastHeard_step) hrun

theorem mem_players_iff (hrun : run (step crc32) { stopwatch } turns = some s) (e : IPEndPoint) :
    e ∈ s.players ↔ HeardSince crc32 stopwatch turns e := by
  have hmem : e ∈ s.players ↔ ∃ heard, lastHeard s e = some heard := by
    have hnone : lastHeard s e = none ↔ e ∉ s.players := labelOf_eq_none
    rw [← not_iff_not, ← hnone, Option.eq_none_iff_forall_not_mem, not_exists]
    simp only [Option.mem_def]
  rw [hmem]
  exact exists_congr fun heard => lastHeard_iff hrun e heard

end Runs

/-- In every run of the server, the registered endpoints are those it has heard and not found
silent since; and a packet goes as it is to those of them that have another ID than its sender. -/
theorem registered_iff (crc32 : Crc32) (stopwatch : Stopwatch) (turns : List Turn) (s : Server)
    (hrun : run (step crc32) { stopwatch } turns = some s) :
    (∀ e, e ∈ s.players ↔ HeardSince crc32 stopwatch turns e) ∧
      ∀ r out, turn crc32 s (.received r) = .ok out → ∀ b data, (b, data) ∈ out.2 ↔
        data = r.receivedBytes ∧ HeardSince crc32 stopwatch turns b ∧ b ≠ r.remoteEndpoint ∧
          idOf s.players b ≠ some (idFor s.players r.remoteEndpoint) := by
  refine ⟨mem_players_iff hrun, fun r out hturn b data => ?_⟩
  rw [mem_sent hturn, mem_players_iff hrun]

def firstFallsSilent : List Turn :=
  [.received (RelayCompleteness.arrival 1 0), .received (RelayCompleteness.arrival 2 100),
    .received (RelayCompleteness.arrival 2 5200)]

theorem registered_iff_silent :
    ¬ HeardSince RelayCompleteness.ieee {} firstFallsSilent ⟨0x7F000001, 1⟩ ∧
      HeardSince RelayCompleteness.ieee {} firstFallsSilent ⟨0x7F000001, 2⟩ := by
  have hheard : (run (step RelayCompleteness.ieee) {} firstFallsSilent).map (fun s =>
      (decide ((⟨0x7F000001, 1⟩ : IPEndPoint) ∈ s.players),
        decide ((⟨0x7F000001, 2⟩ : IPEndPoint) ∈ s.players))) = some (false, true) := by
    decide +kernel
  obtain ⟨s, hrun, hkeys⟩ := Option.map_eq_some_iff.mp hheard
  obtain ⟨hfirst, hsecond⟩ := Prod.mk.inj hkeys
  obtain ⟨hregistered, -⟩ := registered_iff _ {} firstFallsSilent s hrun
  exact ⟨fun h => of_decide_eq_false hfirst ((hregistered _).mpr h),
    (hregistered _).mp (of_decide_eq_true hsecond)⟩

end RocketGame.RelayRegistry
