import RocketGame.CheckedArithmetic
import RocketGame.ClockNetwork

/-!
Where the signed arithmetic of the clock messages overflows. Both programs take a time
from the wire as it is: HandleClockSync subtracts it from a reading, and SyncClock adds
two estimates that are taken from it, and then the samples of up to five exchanges.
-/
namespace RocketGame.ClockOverflow

open CheckedArithmetic ClientProgram Words
open ClockNetwork (continueWith receiveClockResponse_clockResponse sampleOffset)

/-- The readings that are promised, in milliseconds. -/
def InRange (epoch : Int64) : Prop := 0 ≤ epoch.toInt ∧ epoch.toInt < 2 ^ 62

def checkedClientOffset (now : Int64) (clientTime : UInt64) : Option Int64 :=
  checkedSub now clientTime.toInt64

/-- An answered exchange of SyncClock: both readings, and the time in the answer. -/
structure Exchange where
  sendNowEpoch : Int64
  serverTimeMs : UInt64
  receiveNowEpoch : Int64
  deriving DecidableEq, Repr

namespace Exchange

def checkedRoundTrip (e : Exchange) : Option Int64 := checkedSub e.receiveNowEpoch e.sendNowEpoch

def checkedSample (e : Exchange) : Option Int64 := do
  let roundTripTime ← e.checkedRoundTrip
  let sinceSend ← checkedSub e.serverTimeMs.toInt64 e.sendNowEpoch
  let serverClockOffset1 ← checkedSub sinceSend (roundTripTime / 2)
  let sinceReceive ← checkedSub e.serverTimeMs.toInt64 e.receiveNowEpoch
  let serverClockOffset2 ← checkedSub sinceReceive (roundTripTime / 2)
  let sum ← checkedAdd serverClockOffset1 serverClockOffset2
  return sum / 2

def roundTrip (e : Exchange) : Int64 := e.receiveNowEpoch - e.sendNowEpoch

def sample (e : Exchange) : Int64 :=
  sampleOffset e.sendNowEpoch e.receiveNowEpoch e.serverTimeMs.toInt64

def exactRoundTrip (e : Exchange) : ℤ := e.receiveNowEpoch.toInt - e.sendNowEpoch.toInt

/-- The exact sum of both estimates: twice the time since the answer was received. -/
def exactSum (e : Exchange) : ℤ :=
  2 * (e.serverTimeMs.toInt64.toInt - e.receiveNowEpoch.toInt) + e.exactRoundTrip.tmod 2

structure Read (e : Exchange) : Prop where
  send : InRange e.sendNowEpoch
  receive : InRange e.receiveNowEpoch

variable {e : Exchange}

theorem checkedRoundTrip_of_read (h : e.Read) :
    e.checkedRoundTrip = some e.roundTrip ∧ e.roundTrip.toInt = e.exactRoundTrip := by
  obtain ⟨⟨hsend, hsend'⟩, ⟨hreceive, hreceive'⟩⟩ := h
  have hfits : Fits64 (e.receiveNowEpoch.toInt - e.sendNowEpoch.toInt) := by
    constructor <;> omega
  exact ⟨checkedSub_of_fits hfits, toInt_sub_of_fits hfits⟩

/-- If the sum of the estimates fits, each of them does. -/
theorem estimate_fits (h : e.Read) (hfits : Fits64 e.exactSum) {epoch : Int64}
    (hepoch : InRange epoch) :
    Fits64 (e.serverTimeMs.toInt64.toInt - epoch.toInt) ∧
      Fits64 (e.serverTimeMs.toInt64.toInt - epoch.toInt - e.exactRoundTrip.tdiv 2) := by
  obtain ⟨⟨hsend, hsend'⟩, ⟨hreceive, hreceive'⟩⟩ := h
  obtain ⟨hepoch, hepoch'⟩ := hepoch
  obtain ⟨hserver, hserver'⟩ := fits64_toInt e.serverTimeMs.toInt64
  obtain ⟨hsum, hsum'⟩ := hfits
  have hsplit := Int.mul_tdiv_add_tmod e.exactRoundTrip 2
  have hlow := Int.lt_tmod_of_pos e.exactRoundTrip (b := 2) (by omega)
  have hhigh := Int.tmod_lt_of_pos e.exactRoundTrip (b := 2) (by omega)
  unfold exactSum at hsum hsum'
  unfold exactRoundTrip at hsplit hlow hhigh hsum hsum' ⊢
  constructor
  · constructor <;> omega
  · constructor <;> omega

theorem checkedEstimate_of_fits (h : e.Read) (hfits : Fits64 e.exactSum) {epoch : Int64}
    (hepoch : InRange epoch) :
    checkedSub e.serverTimeMs.toInt64 epoch = some (e.serverTimeMs.toInt64 - epoch) ∧
      checkedSub (e.serverTimeMs.toInt64 - epoch) (e.roundTrip / 2) =
        some (e.serverTimeMs.toInt64 - epoch - e.roundTrip / 2) ∧
      (e.serverTimeMs.toInt64 - epoch - e.roundTrip / 2).toInt =
        e.serverTimeMs.toInt64.toInt - epoch.toInt - e.exactRoundTrip.tdiv 2 := by
  obtain ⟨hsince, hestimate⟩ := estimate_fits h hfits hepoch
  have hhalf : (e.roundTrip / 2).toInt = e.exactRoundTrip.tdiv 2 := by
    rw [toInt_half, (checkedRoundTrip_of_read h).2]
  rw [← hhalf, ← toInt_sub_of_fits hsince] at hestimate ⊢
  exact ⟨checkedSub_of_fits hsince, checkedSub_of_fits hestimate, toInt_sub_of_fits hestimate⟩

/-- The two estimates add up to twice the time since the answer was received. -/
theorem add_estimates (e : Exchange) :
    e.serverTimeMs.toInt64.toInt - e.sendNowEpoch.toInt - e.exactRoundTrip.tdiv 2 +
      (e.serverTimeMs.toInt64.toInt - e.receiveNowEpoch.toInt - e.exactRoundTrip.tdiv 2) =
      e.exactSum := by
  have hsplit := Int.mul_tdiv_add_tmod e.exactRoundTrip 2
  unfold exactSum
  unfold exactRoundTrip at hsplit ⊢
  omega

/-- With readings in range, nothing overflows before the sum of the estimates. -/
theorem checkedSample_of_fits (h : e.Read) (hfits : Fits64 e.exactSum) :
    e.checkedSample = some e.sample ∧ e.sample.toInt = e.exactSum.tdiv 2 := by
  obtain ⟨hsinceSend, hoffset1, hexact1⟩ := checkedEstimate_of_fits h hfits h.send
  obtain ⟨hsinceReceive, hoffset2, hexact2⟩ := checkedEstimate_of_fits h hfits h.receive
  rw [← add_estimates, ← hexact1, ← hexact2] at hfits ⊢
  constructor
  · rw [checkedSample, (checkedRoundTrip_of_read h).1]
    simp only [Option.bind_eq_bind, Option.bind_some, hsinceSend, hoffset1, hsinceReceive, hoffset2,
      checkedAdd_of_fits hfits, Option.pure_def]
    rfl
  · rw [← toInt_add_of_fits hfits, ← toInt_half]
    rfl

theorem fits_of_checkedSample {w : Int64} (h : e.checkedSample = some w) : Fits64 e.exactSum := by
  rw [checkedSample] at h
  obtain ⟨roundTripTime, hroundTrip, h⟩ := Option.bind_eq_some_iff.mp h
  obtain ⟨sinceSend, hsinceSend, h⟩ := Option.bind_eq_some_iff.mp h
  obtain ⟨offset1, hoffset1, h⟩ := Option.bind_eq_some_iff.mp h
  obtain ⟨sinceReceive, hsinceReceive, h⟩ := Option.bind_eq_some_iff.mp h
  obtain ⟨offset2, hoffset2, h⟩ := Option.bind_eq_some_iff.mp h
  obtain ⟨sum, hsum, -⟩ := Option.bind_eq_some_iff.mp h
  rw [checkedRoundTrip, checkedSub_eq_some_iff] at hroundTrip
  rw [checkedSub_eq_some_iff] at hsinceSend hoffset1 hsinceReceive hoffset2
  rw [checkedAdd_eq_some_iff] at hsum
  have hexact : sum.toInt = e.exactSum := by
    rw [hsum, hoffset1, hoffset2, hsinceSend, hsinceReceive, toInt_half, hroundTrip]
    exact add_estimates e
  exact hexact ▸ fits64_toInt sum

end Exchange

section SyncClock

def checkedAverage (values : List Int64) : Option Int64 :=
  (checkedSum values).map fun sum => sum / Int64.ofNat values.length

def checkedSyncClock (es : List Exchange) : Option (Int64 × Int64) := do
  let clockOffsets ← es.mapM Exchange.checkedSample
  let roundTripTimes ← es.mapM Exchange.checkedRoundTrip
  let serverClockOffset ← checkedAverage clockOffsets
  let roundTripTimeMs ← checkedAverage roundTripTimes
  return (serverClockOffset, roundTripTimeMs)

/-- No sample overflows, and no sum of samples or round trips. -/
structure NoOverflow (es : List Exchange) : Prop where
  samples : ∀ e ∈ es, Fits64 e.exactSum
  offsets : SumsFit (es.map fun e => e.exactSum.tdiv 2)
  roundTrips : SumsFit (es.map Exchange.exactRoundTrip)

variable {es : List Exchange}

theorem isSome_checkedAverage_iff {values : List Int64} :
    (checkedAverage values).isSome = true ↔ SumsFit (values.map Int64.toInt) := by
  rw [checkedAverage, Option.isSome_map, isSome_checkedSum_iff]

theorem mapM_checkedRoundTrip (hread : ∀ e ∈ es, e.Read) :
    es.mapM Exchange.checkedRoundTrip = some (es.map Exchange.roundTrip) ∧
      (es.map Exchange.roundTrip).map Int64.toInt = es.map Exchange.exactRoundTrip := by
  rw [mapM_eq_some_iff, List.map_map, List.map_map]
  constructor
  · exact List.map_congr_left fun e he => (Exchange.checkedRoundTrip_of_read (hread e he)).1
  · exact List.map_congr_left fun e he => (Exchange.checkedRoundTrip_of_read (hread e he)).2

theorem mapM_checkedSample (hread : ∀ e ∈ es, e.Read) (hfits : ∀ e ∈ es, Fits64 e.exactSum) :
    es.mapM Exchange.checkedSample = some (es.map Exchange.sample) ∧
      (es.map Exchange.sample).map Int64.toInt = es.map fun e => e.exactSum.tdiv 2 := by
  rw [mapM_eq_some_iff, List.map_map, List.map_map]
  constructor
  · exact List.map_congr_left fun e he =>
      (Exchange.checkedSample_of_fits (hread e he) (hfits e he)).1
  · exact List.map_congr_left fun e he =>
      (Exchange.checkedSample_of_fits (hread e he) (hfits e he)).2

theorem fits_of_mapM_checkedSample {clockOffsets : List Int64}
    (h : es.mapM Exchange.checkedSample = some clockOffsets) : ∀ e ∈ es, Fits64 e.exactSum := by
  rw [mapM_eq_some_iff] at h
  intro e he
  have hmem : e.checkedSample ∈ clockOffsets.map some := h ▸ List.mem_map_of_mem he
  obtain ⟨w, -, hw⟩ := List.mem_map.mp hmem
  exact Exchange.fits_of_checkedSample hw.symm

/-- When nothing overflows, the averages are those of the samples and the round trips. -/
theorem checkedSyncClock_eq_some_iff (hread : ∀ e ∈ es, e.Read) {offset roundTrip : Int64} :
    checkedSyncClock es = some (offset, roundTrip) ↔
      (∀ e ∈ es, Fits64 e.exactSum) ∧ checkedAverage (es.map Exchange.sample) = some offset ∧
        checkedAverage (es.map Exchange.roundTrip) = some roundTrip := by
  have hroundTrips := (mapM_checkedRoundTrip hread).1
  constructor
  · intro h
    obtain ⟨clockOffsets, hoffsets, h⟩ := Option.bind_eq_some_iff.mp h
    obtain ⟨roundTripTimes, htimes, h⟩ := Option.bind_eq_some_iff.mp h
    obtain ⟨_, hoffset, h⟩ := Option.bind_eq_some_iff.mp h
    obtain ⟨_, hroundTrip, hresult⟩ := Option.bind_eq_some_iff.mp h
    obtain ⟨rfl, rfl⟩ := Prod.mk.inj (Option.some.inj hresult)
    have hfits := fits_of_mapM_checkedSample hoffsets
    obtain rfl := Option.some.inj ((mapM_checkedSample hread hfits).1.symm.trans hoffsets)
    obtain rfl := Option.some.inj (hroundTrips.symm.trans htimes)
    exact ⟨hfits, hoffset, hroundTrip⟩
  · rintro ⟨hfits, hoffset, hroundTrip⟩
    simp only [checkedSyncClock, (mapM_checkedSample hread hfits).1, hroundTrips, hoffset,
      hroundTrip, Option.bind_eq_bind, Option.bind_some, Option.pure_def]

theorem isSome_checkedSyncClock_iff (hread : ∀ e ∈ es, e.Read) :
    (checkedSyncClock es).isSome = true ↔ NoOverflow es := by
  have hroundTrips := (mapM_checkedRoundTrip hread).2
  rw [Option.isSome_iff_exists]
  constructor
  · rintro ⟨⟨offset, roundTrip⟩, h⟩
    obtain ⟨hfits, hoffset, hroundTrip⟩ := (checkedSyncClock_eq_some_iff hread).mp h
    refine ⟨hfits, ?_, ?_⟩
    · rw [← (mapM_checkedSample hread hfits).2, ← isSome_checkedAverage_iff, hoffset,
        Option.isSome_some]
    · rw [← hroundTrips, ← isSome_checkedAverage_iff, hroundTrip, Option.isSome_some]
  · rintro ⟨hfits, hoffsets, htimes⟩
    rw [← (mapM_checkedSample hread hfits).2, ← isSome_checkedAverage_iff] at hoffsets
    rw [← hroundTrips, ← isSome_checkedAverage_iff] at htimes
    obtain ⟨offset, hoffset⟩ := Option.isSome_iff_exists.mp hoffsets
    obtain ⟨roundTrip, hroundTrip⟩ := Option.isSome_iff_exists.mp htimes
    exact ⟨_, (checkedSyncClock_eq_some_iff hread).mpr ⟨hfits, hoffset, hroundTrip⟩⟩

structure InOrder (es : List Exchange) : Prop where
  received : ∀ e ∈ es, e.sendNowEpoch.toInt ≤ e.receiveNowEpoch.toInt
  next : es.Pairwise fun e e' => e.receiveNowEpoch.toInt ≤ e'.sendNowEpoch.toInt

/-- Round trips in order do not take longer than the time that is left. -/
theorem sum_roundTrips (hread : ∀ e ∈ es, e.Read) (horder : InOrder es) {start : ℤ}
    (hstart : ∀ e ∈ es, start ≤ e.sendNowEpoch.toInt) (hlate : start ≤ 2 ^ 62) :
    0 ≤ (es.map Exchange.exactRoundTrip).sum ∧
      (es.map Exchange.exactRoundTrip).sum ≤ 2 ^ 62 - start := by
  induction es generalizing start with
  | nil =>
    rw [List.map_nil, List.sum_nil]
    omega
  | cons e es ih =>
    obtain ⟨hread, hreads⟩ := List.forall_mem_cons.mp hread
    obtain ⟨hreceived, hreceiveds⟩ := List.forall_mem_cons.mp horder.received
    obtain ⟨hnext, hnexts⟩ := List.pairwise_cons.mp horder.next
    have hbegin := hstart e List.mem_cons_self
    obtain ⟨hpos, hle⟩ := ih hreads ⟨hreceiveds, hnexts⟩ hnext hread.receive.2.le
    rw [List.map_cons, List.sum_cons]
    unfold Exchange.exactRoundTrip at hpos hle ⊢
    omega

/-- Then their sums stay in range. -/
theorem InOrder.sumsFit (horder : InOrder es) (hread : ∀ e ∈ es, e.Read) :
    SumsFit (es.map Exchange.exactRoundTrip) := by
  intro l hl
  obtain ⟨taken, htaken, rfl⟩ := List.prefix_map_iff.mp hl
  have hreads : ∀ e ∈ taken, e.Read := fun e he => hread e (htaken.subset he)
  have hordered : InOrder taken :=
    ⟨fun e he => horder.received e (htaken.subset he), horder.next.sublist htaken.sublist⟩
  have hbounds := sum_roundTrips hreads hordered (fun e he => (hreads e he).send.1) (by omega)
  constructor <;> omega

theorem average_of_checked {values : List Int64} {w : Int64} (h : checkedAverage values = some w) :
    average values = w := by
  obtain ⟨sum, hsum, rfl⟩ := Option.map_eq_some_iff.mp h
  rw [average, eq_foldl_of_checkedSum hsum]

end SyncClock

section Programs

open Client (PhysicsEngine)
open HandshakeGating NetworkUtilities Packets PlayerTable Runs Turns

/-- The server stores the difference when it does not overflow. -/
theorem executeGameTurn_clock_checked {env : Server.Env} {s : Server.State} {addr : Address}
    {data : Datagram} {salt clientTime : UInt64} {p' : NetworkPacket}
    {before after : List Server.Player} {player : Server.Player} {offset : Int64}
    (hdata : Carries data .clock salt)
    (htime : ((NetworkPacket.ofBytes data).advance 13).readUInt64 = some (clientTime, p'))
    (hlocate : FirstMatch.locate (Server.authenticates salt addr) s.players =
      some (before, player, after))
    (hoffset : checkedClientOffset (milliseconds (env.clock 0)) clientTime = some offset) :
    ∃ o, Server.executeGameTurn env s data addr = some o ∧
      o.state.players = before ++ { player with serverClockOffset := offset } :: after := by
  rw [eq_sub_of_checkedSub hoffset]
  exact ⟨_, executeGameTurn_clock hdata htime hlocate, rfl⟩

abbrev Answer := Int64 × Client.Env

def answerEvent (serverAddr : Address) (a : Answer) : ClientProgram.Event :=
  .receive (.packet serverAddr (clockResponseDatagram a.1)) a.2

def completed (sendNowEpoch : Int64) (a : Answer) : Exchange :=
  ⟨sendNowEpoch, a.1.toUInt64, milliseconds (a.2.clock 0)⟩

def exchangesFrom : Int64 → List Answer → List Exchange
  | _, [] => []
  | sendNowEpoch, a :: answers =>
      completed sendNowEpoch a :: exchangesFrom (milliseconds (a.2.clock 1)) answers

structure Waiting (c : Program) (exchanges : ℕ) (sendNowEpoch : Int64) (es : List Exchange) :
    Prop where
  phase : ∃ startTime, c.phase = .syncing
    ⟨exchanges, sendNowEpoch, startTime, es.map Exchange.sample, es.map Exchange.roundTrip⟩

variable {env : Client.Env} {c : Program} {exchanges : ℕ}
  {sendNowEpoch : Int64} {es : List Exchange} {answers : List Answer}

def averaged (es : List Exchange) (c : Program) : Program :=
  { c with
    phase := .returned 0
    serverClockOffset := average (es.map Exchange.sample)
    roundTripTimeMs := (average (es.map Exchange.roundTrip)).toUInt64 }

theorem startExchange_last (hne : es ≠ []) :
    (startExchange env clockExchanges (es.map Exchange.sample) (es.map Exchange.roundTrip)
      c).program = averaged es c := by
  rw [startExchange, if_pos rfl, averageOffsets, if_neg]
  · rfl
  · rwa [List.isEmpty_iff, List.map_eq_nil_iff]

theorem startExchange_next (hmore : exchanges ≠ clockExchanges) (hsend : env.sendOk = true) :
    ∃ c', (startExchange env exchanges (es.map Exchange.sample) (es.map Exchange.roundTrip)
        c).program = c' ∧ Waiting c' exchanges (milliseconds (env.clock 0)) es ∧
      c'.serverAddr = c.serverAddr := by
  rw [startExchange, if_neg hmore, hsend]
  exact ⟨_, rfl, ⟨env.clock 1, rfl⟩, rfl⟩

theorem Waiting.step_answer (physics : PhysicsEngine) (h : Waiting c exchanges sendNowEpoch es)
    (a : Answer) :
    ∃ c', c'.serverAddr = c.serverAddr ∧
      step physics c (answerEvent c.serverAddr a) =
        some (startExchange (later a.2 1) (exchanges + 1)
          ((es ++ [completed sendNowEpoch a]).map Exchange.sample)
          ((es ++ [completed sendNowEpoch a]).map Exchange.roundTrip) c').program := by
  obtain ⟨startTime, hphase⟩ := h.phase
  refine ⟨{ c with serverClockOffset := (completed sendNowEpoch a).sample }, rfl, ?_⟩
  have hsample : (completed sendNowEpoch a).sample =
      sampleOffset sendNowEpoch (milliseconds (a.2.clock 0)) a.1 := by
    rw [Exchange.sample, completed, Int64.toInt64_toUInt64]
  simp only [step, progress, hphase, answerEvent,
    receiveClockResponse_clockResponse, Option.map_some, continueWith, List.map_append,
    List.map_singleton, hsample]
  rfl

/-- Every answer up to the fifth completes an exchange, and then the call returns. -/
theorem Waiting.run_answers (physics : PhysicsEngine)
    (h : Waiting c exchanges sendNowEpoch es) (hfive : exchanges + answers.length = clockExchanges)
    (hsend : ∀ a ∈ answers, a.2.sendOk = true) (hne : answers ≠ []) :
    ∃ c', run (step physics) c (answers.map (answerEvent c.serverAddr)) =
      some (averaged (es ++ exchangesFrom sendNowEpoch answers) c') := by
  induction answers generalizing c exchanges sendNowEpoch es with
  | nil => exact absurd rfl hne
  | cons a answers ih =>
    obtain ⟨c₁, haddr, hstep⟩ := h.step_answer physics a
    obtain ⟨hsendOk, hsend⟩ := List.forall_mem_cons.mp hsend
    rw [exchangesFrom, List.append_cons, List.map_cons]
    by_cases hlast : answers = []
    · rw [hlast, List.length_singleton] at hfive
      rw [hfive, startExchange_last (by simp)] at hstep
      rw [hlast, exchangesFrom, List.append_nil]
      exact ⟨c₁, run_step hstep rfl⟩
    · have hrest : exchanges + 1 + answers.length = clockExchanges := by
        rw [List.length_cons] at hfive
        omega
      have hmore : exchanges + 1 ≠ clockExchanges := by
        have hpos := List.length_pos_of_ne_nil hlast
        omega
      have hlater : (later a.2 1).sendOk = true := hsendOk
      obtain ⟨c₂, hnext, hwaiting, haddr'⟩ := startExchange_next hmore hlater
      rw [hnext] at hstep
      obtain ⟨c', hrun⟩ := ih hwaiting hrest hsend hlast
      rw [haddr', haddr] at hrun
      exact ⟨c', run_step hstep hrun⟩

/-- SyncClock with five answers returns the averages, when they do not overflow. -/
theorem run_syncClock_checked (physics : PhysicsEngine) {result : ℤ} {offset roundTrip : Int64}
    (hphase : c.phase = .returned result) (hconnected : c.connectionState = .connected)
    (hsalt : c.connectionSalt ≠ 0) (hfive : answers.length = clockExchanges)
    (hsendOk : env.sendOk = true) (hsend : ∀ a ∈ answers, a.2.sendOk = true)
    (hread : ∀ e ∈ exchangesFrom (milliseconds (env.clock 0)) answers, e.Read)
    (h : checkedSyncClock (exchangesFrom (milliseconds (env.clock 0)) answers) =
      some (offset, roundTrip)) :
    ∃ c', run (step physics) c
        (.syncClock env :: answers.map (answerEvent c.serverAddr)) = some c' ∧
      c'.phase = .returned 0 ∧ c'.serverClockOffset = offset ∧
        c'.roundTripTimeMs = roundTrip.toUInt64 := by
  obtain ⟨-, hoffset, hroundTrip⟩ := (checkedSyncClock_eq_some_iff hread).mp h
  have hbegin : step physics c (.syncClock env) =
      some (startExchange env 0 [] [] c).program := by
    simp only [step, progress, hphase, syncClock, hconnected, hsalt, ne_eq,
      not_true_eq_false, if_false, Option.map_some]
  have hfirst : (0 : ℕ) ≠ clockExchanges := by decide
  obtain ⟨c₁, hnext, hwaiting, haddr⟩ := @startExchange_next env c 0 [] hfirst hsendOk
  have hne : answers ≠ [] := by
    rintro rfl
    cases hfive
  obtain ⟨c', hrun⟩ := hwaiting.run_answers physics ((Nat.zero_add _).trans hfive) hsend hne
  rw [haddr] at hrun
  rw [← hnext] at hrun
  exact ⟨_, run_step hbegin hrun, rfl, average_of_checked hoffset,
    congrArg Int64.toUInt64 (average_of_checked hroundTrip)⟩

end Programs

/-- The server's subtraction does not overflow exactly when the client's time is not too far
in the past, and nothing in SyncClock does exactly when no sum of two estimates and no sum
of samples or round trips is too large. -/
theorem clock_arithmetic_fits_iff {now : Int64} (clientTime : UInt64) {es : List Exchange}
    (hnow : InRange now) (hread : ∀ e ∈ es, e.Read) :
    ((checkedClientOffset now clientTime).isSome = true ↔
        now.toInt - clientTime.toInt64.toInt < 2 ^ 63) ∧
      ((checkedSyncClock es).isSome = true ↔ NoOverflow es) := by
  refine ⟨?_, isSome_checkedSyncClock_iff hread⟩
  rw [checkedClientOffset, checkedSub, isSome_checked_iff]
  obtain ⟨-, hclient⟩ := fits64_toInt clientTime.toInt64
  constructor
  · exact And.right
  · intro h
    obtain ⟨hpos, -⟩ := hnow
    exact ⟨by omega, h⟩

def fiveExchanges : List Exchange :=
  [⟨1000, 41020, 1041⟩, ⟨1042, 41060, 1080⟩, ⟨1081, 41100, 1120⟩, ⟨1121, 41141, 1163⟩,
    ⟨1164, 41185, 1206⟩]

/-- The five exchanges fit, and so does the server's share of the first one. -/
theorem clock_arithmetic_fits_iff_five :
    (checkedClientOffset 41020 1000).isSome = true ∧ NoOverflow fiveExchanges := by
  have hread : ∀ e ∈ fiveExchanges, e.Read := by
    intro e he
    simp only [fiveExchanges, List.mem_cons, List.not_mem_nil, or_false] at he
    rcases he with rfl | rfl | rfl | rfl | rfl <;>
      exact ⟨⟨by decide, by decide⟩, ⟨by decide, by decide⟩⟩
  have hnow : InRange 41020 := ⟨by decide, by decide⟩
  obtain ⟨hserver, hclient⟩ := clock_arithmetic_fits_iff 1000 hnow hread
  exact ⟨hserver.mpr (by decide), hclient.mp (by decide)⟩

/-- The least client time overflows at any reading. -/
theorem clock_arithmetic_overflows :
    ¬ ((∀ (now : Int64) (clientTime : UInt64), InRange now →
        (checkedClientOffset now clientTime).isSome = true) ∧
      ∀ es : List Exchange, es.length ≤ clockExchanges → (∀ e ∈ es, e.Read) →
        (checkedSyncClock es).isSome = true) := by
  rintro ⟨hserver, -⟩
  have hsome := hserver 0 0x8000000000000000 ⟨by decide, by decide⟩
  revert hsome
  decide

end RocketGame.ClockOverflow
