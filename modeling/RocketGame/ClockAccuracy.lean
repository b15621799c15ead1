import RocketGame.ClockNetwork

/-!
How far the sample of one exchange is from the true offset of the server's clock.
The second estimate subtracts half of the round trip where it has to add it, so the
mean of the two is too small by the whole delay of the response, but for rounding.
-/
namespace RocketGame.ClockAccuracy

open Client ClientProgram ClockNetwork HandshakeGating NetworkUtilities Packets Turns Words

section Exchange

variable (d₁ d₂ T : ℤ)

/-- The three times of an exchange with delays d₁ and d₂, in milliseconds, when the
server's clock is T ahead. -/
structure Timing (sendNowEpoch serverTimeMs receiveNowEpoch : Int64) : Prop where
  there : 0 ≤ d₁
  back : 0 ≤ d₂
  stamped : serverTimeMs.toInt = sendNowEpoch.toInt + d₁ + T
  received : receiveNowEpoch.toInt = sendNowEpoch.toInt + d₁ + d₂

/-- Every value that SyncClock computes for the sample fits in 64 bits. -/
structure NoOverflow : Prop where
  roundTrip : Fits64 (d₁ + d₂)
  sinceSend : Fits64 (d₁ + T)
  sinceReceive : Fits64 (T - d₂)
  offset1 : Fits64 (d₁ + T - (d₁ + d₂).tdiv 2)
  offset2 : Fits64 (T - d₂ - (d₁ + d₂).tdiv 2)
  sum : Fits64 (d₁ + T - (d₁ + d₂).tdiv 2 + (T - d₂ - (d₁ + d₂).tdiv 2))

/-- Within half of the round trip and two milliseconds, or within two if the delays agree. -/
structure Accurate (offset : ℤ) : Prop where
  bound : |offset - T| ≤ (d₁ + d₂) / 2 + 2
  symmetric : d₁ = d₂ → |offset - T| ≤ 2

/-- The response does not take much longer than the request. -/
structure BackIsQuick : Prop where
  bound : d₂ ≤ d₁ + 4 ∨ d₂ = d₁ + 5 ∧ T < d₂
  symmetric : d₁ = d₂ → d₂ ≤ 2

variable {d₁ d₂ T} {sendNowEpoch serverTimeMs receiveNowEpoch : Int64}

/-- The truncated half of the round trip is subtracted from both estimates. -/
theorem toInt_sampleOffset (htiming : Timing d₁ d₂ T sendNowEpoch serverTimeMs receiveNowEpoch)
    (hfits : NoOverflow d₁ d₂ T) :
    (sampleOffset sendNowEpoch receiveNowEpoch serverTimeMs).toInt =
      (d₁ + T - (d₁ + d₂).tdiv 2 + (T - d₂ - (d₁ + d₂).tdiv 2)).tdiv 2 := by
  have hroundTrip : receiveNowEpoch.toInt - sendNowEpoch.toInt = d₁ + d₂ := by
    rw [htiming.received]
    omega
  have hsinceSend : serverTimeMs.toInt - sendNowEpoch.toInt = d₁ + T := by
    rw [htiming.stamped]
    omega
  have hsinceReceive : serverTimeMs.toInt - receiveNowEpoch.toInt = T - d₂ := by
    rw [htiming.stamped, htiming.received]
    omega
  have hhalf : ((receiveNowEpoch - sendNowEpoch) / 2).toInt = (d₁ + d₂).tdiv 2 := by
    rw [toInt_half, toInt_sub_of_fits (hroundTrip ▸ hfits.roundTrip), hroundTrip]
  have hoffset1 : (serverTimeMs - sendNowEpoch -
      (receiveNowEpoch - sendNowEpoch) / 2).toInt = d₁ + T - (d₁ + d₂).tdiv 2 := by
    have hsub := toInt_sub_of_fits (hsinceSend ▸ hfits.sinceSend)
    rw [toInt_sub_of_fits] <;> rw [hsub, hsinceSend, hhalf]
    exact hfits.offset1
  have hoffset2 : (serverTimeMs - receiveNowEpoch -
      (receiveNowEpoch - sendNowEpoch) / 2).toInt = T - d₂ - (d₁ + d₂).tdiv 2 := by
    have hsub := toInt_sub_of_fits (hsinceReceive ▸ hfits.sinceReceive)
    rw [toInt_sub_of_fits] <;> rw [hsub, hsinceReceive, hhalf]
    exact hfits.offset2
  dsimp only [sampleOffset]
  rw [toInt_half, toInt_add_of_fits] <;> rw [hoffset1, hoffset2]
  exact hfits.sum

/-- The halves do not cancel: the sample is short by d₂, or by one less. -/
theorem toInt_sampleOffset_eq
    (htiming : Timing d₁ d₂ T sendNowEpoch serverTimeMs receiveNowEpoch)
    (hfits : NoOverflow d₁ d₂ T) :
    (sampleOffset sendNowEpoch receiveNowEpoch serverTimeMs).toInt =
      T - d₂ + if (d₁ + d₂) % 2 = 1 ∧ T < d₂ then 1 else 0 := by
  have hpos : 0 ≤ d₁ + d₂ := Int.add_nonneg htiming.there htiming.back
  rw [toInt_sampleOffset htiming hfits, Int.tdiv_eq_ediv_of_nonneg hpos, tdiv_two]
  split <;> split <;> omega

theorem accurate_iff (htiming : Timing d₁ d₂ T sendNowEpoch serverTimeMs receiveNowEpoch)
    (hfits : NoOverflow d₁ d₂ T) :
    Accurate d₁ d₂ T (sampleOffset sendNowEpoch receiveNowEpoch serverTimeMs).toInt ↔
      BackIsQuick d₁ d₂ T := by
  obtain ⟨hthere, hback⟩ := And.intro htiming.there htiming.back
  rw [toInt_sampleOffset_eq htiming hfits]
  constructor
  · rintro ⟨hbound, hsymmetric⟩
    rw [abs_le] at hbound hsymmetric
    constructor
    · split at hbound <;> omega
    · intro hsame
      have hclose := hsymmetric hsame
      split at hclose <;> omega
  · rintro ⟨hbound, hsymmetric⟩
    constructor
    · rw [abs_le]
      split <;> omega
    · intro hsame
      have hclose := hsymmetric hsame
      rw [abs_le]
      split <;> omega

end Exchange

section Sample

def sampleOf (sync : ClockSync) (serverEnv : Server.Env) (clientEnv : Client.Env) : Int64 :=
  sampleOffset sync.sendNowEpoch (milliseconds (clientEnv.clock 0))
    (milliseconds (serverEnv.clock 0))

structure Answered (salt : UInt64) (sync : ClockSync) (serverEnv : Server.Env)
    (clientEnv : Client.Env) (response : Datagram) (d₁ d₂ T : ℤ) : Prop where
  answer : ∃ s addr o, Server.executeGameTurn serverEnv s
    (clockDatagram salt sync.sendNowEpoch.toUInt64) addr = some o ∧
      response ∈ o.sent.map fun message => message.2
  timing : Timing d₁ d₂ T sync.sendNowEpoch (milliseconds (serverEnv.clock 0))
    (milliseconds (clientEnv.clock 0))
  fits : NoOverflow d₁ d₂ T

variable {salt : UInt64} {sync : ClockSync} {serverEnv : Server.Env} {clientEnv : Client.Env}
  {response : Datagram} {d₁ d₂ T : ℤ}

theorem Answered.response_eq
    (h : Answered salt sync serverEnv clientEnv response d₁ d₂ T) :
    response = clockResponseDatagram (milliseconds (serverEnv.clock 0)) := by
  obtain ⟨s, addr, o, ho, hresponse⟩ := h.answer
  obtain ⟨message, hmessage, rfl⟩ := List.mem_map.mp hresponse
  exact sent_of_clock ho message hmessage

/-- The client goes on with the sample of an answered CLOCK, and the sample is accurate
exactly when the answer did not take much longer than the CLOCK. -/
theorem sample_accurate_iff
    (h : Answered salt sync serverEnv clientEnv response d₁ d₂ T) (c : Program) :
    receiveClockResponse clientEnv sync (.packet c.serverAddr response) c =
        some (continueWith clientEnv sync (sampleOf sync serverEnv clientEnv) c) ∧
      (Accurate d₁ d₂ T (sampleOf sync serverEnv clientEnv).toInt ↔ BackIsQuick d₁ d₂ T) := by
  rw [h.response_eq]
  exact ⟨receiveClockResponse_clockResponse clientEnv sync _ c, accurate_iff h.timing h.fits⟩

end Sample

def firstSync : ClockSync where
  exchanges := 0
  sendNowEpoch := 0
  startTime := 0
  clockOffsets := []
  roundTripTimes := []

def knownPlayer : Server.Player where
  address := ⟨2, 1, 1⟩
  connectionSalt := 7

/-- Both ways take ten milliseconds, and the clocks agree. -/
theorem answered_tenEachWay :
    Answered 7 firstSync { clock := fun _ => 10000000 } { clock := fun _ => 20000000 }
      (clockResponseDatagram (milliseconds 10000000)) 10 10 0 where
  answer := by
    have hturn : Server.executeGameTurn { clock := fun _ => 10000000 } ⟨[knownPlayer]⟩
        (clockDatagram 7 0) ⟨2, 1, 1⟩ = some _ :=
      executeGameTurn_clock (carries_clockDatagram 7 0) (readUInt64_clockDatagram 7 0) rfl
    exact ⟨⟨[knownPlayer]⟩, ⟨2, 1, 1⟩, _, hturn, List.mem_cons_self⟩
  timing := ⟨by decide, by decide, by decide, by decide⟩
  fits := by
    constructor <;> unfold Fits64 <;> decide

theorem sample_accurate_iff_tenEachWay :
    let c : Program := { serverAddr := ⟨2, 9, 3501⟩, connectionSalt := 7 }
    let clientEnv : Client.Env := { clock := fun _ => 20000000 }
    let serverEnv : Server.Env := { clock := fun _ => 10000000 }
    receiveClockResponse clientEnv firstSync
        (.packet c.serverAddr (clockResponseDatagram (milliseconds 10000000))) c =
        some (continueWith clientEnv firstSync (sampleOf firstSync serverEnv clientEnv) c) ∧
      (Accurate 10 10 0 (sampleOf firstSync serverEnv clientEnv).toInt ↔ BackIsQuick 10 10 0) :=
  sample_accurate_iff answered_tenEachWay _

/-- The sample is ten milliseconds off, although the delays agree. -/
theorem symmetric_sample_is_biased :
    ¬ ∀ (salt : UInt64) (sync : ClockSync) (serverEnv : Server.Env) (clientEnv : Client.Env)
      (response : Datagram) (d₁ d₂ T : ℤ),
      Answered salt sync serverEnv clientEnv response d₁ d₂ T →
      Accurate d₁ d₂ T (sampleOf sync serverEnv clientEnv).toInt := by
  intro h
  have hclose := (h _ _ _ _ _ _ _ _ answered_tenEachWay).symmetric rfl
  revert hclose
  decide

end RocketGame.ClockAccuracy
