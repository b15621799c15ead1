import RocketGame.ClockNetwork

/-!
Does SyncClock measure with the answer to its own request? A CLOCK_RESPONSE carries
nothing that ties it to a CLOCK, and SyncClock gives an exchange up when a Receive
finds the socket empty, so the answer to an exchange given up can meet a later one.
Every sample is right exactly in the runs in which that never happens.
-/
namespace RocketGame.ClockPairing

open Client (Received)
open ClientProgram hiding Event step
open ClockNetwork DatagramSafety HandshakeGating NetworkUtilities Packets Runs Turns

variable (clientAddr : Address)

/-- The response was produced for the CLOCK whose send time the sample uses, and the
server handled that one between the two instants of the sample. -/
def Paired (s : System) (sample : Sample) : Prop :=
  sample.response.request = sample.request ∧
    ∃ request ∈ s.toServer[sample.request]?,
      request.data = clockDatagram s.client.connectionSalt sample.sendNowEpoch.toUInt64 ∧
      request.sentAt < sample.response.stampedAt ∧ sample.response.stampedAt < sample.receivedAt

/-- No CLOCK has been sent since the one that is answered by the CLOCK_RESPONSE handed
to the waiting client. -/
def ResponseIsCurrent (s : System) : Event → Prop
  | .toClient k _ => ∀ sync, s.client.phase = .syncing sync → ∀ response ∈ s.toClient[k]?,
      s.toServer.length = response.request + 1
  | _ => True

structure Consistent (s : System) : Prop where
  client : (∃ result, s.client.phase = .returned result) ∨
    ∃ sync, s.client.phase = .syncing sync ∧ ∃ request ∈ s.toServer.getLast?,
      request.data = clockDatagram s.client.connectionSalt sync.sendNowEpoch.toUInt64
  requests : ∀ request ∈ s.toServer,
    request.sentAt < s.instant ∧ ∃ salt time, request.data = clockDatagram salt time
  responses : ∀ response ∈ s.toClient,
    (∃ now, response.data = clockResponseDatagram now) ∧ response.stampedAt < s.instant ∧
      ∃ request ∈ s.toServer[response.request]?, request.sentAt < response.stampedAt

structure Extends (s s' : System) : Prop where
  toServer : ∃ sent, s'.toServer = s.toServer ++ sent
  salt : s'.client.connectionSalt = s.client.connectionSalt

theorem Extends.request {s s' : System} (h : Extends s s') {k : ℕ} {request : Request}
    (hk : request ∈ s.toServer[k]?) : request ∈ s'.toServer[k]? := by
  obtain ⟨sent, hsent⟩ := h.toServer
  have hlt := (List.getElem?_eq_some_iff.mp hk).1
  rw [hsent, List.getElem?_append_left hlt]
  exact hk

theorem Paired.extends {s s' : System} {sample : Sample} (h : Paired s sample)
    (hext : Extends s s') : Paired s' sample := by
  obtain ⟨hsame, request, hrequest, hdata, hsent, hstamped⟩ := h
  refine ⟨hsame, request, hext.request hrequest, ?_, hsent, hstamped⟩
  rw [hext.salt]
  exact hdata

section Steps

variable {clientAddr} {s s' : System}

theorem extends_proceed {p : Progress} (hp : GoesOn s.client p) (samples : List Sample) :
    Extends s { s.proceed p with samples := samples, instant := s.instant + 1 } :=
  ⟨⟨_, rfl⟩, hp.salt⟩

theorem Consistent.proceed (h : Consistent s) {p : Progress} (hp : GoesOn s.client p)
    (samples : List Sample) :
    Consistent { s.proceed p with samples := samples, instant := s.instant + 1 } where
  client := by
    obtain ⟨hreturned, _⟩ | ⟨sync, hsyncing, hsent⟩ := hp.phase
    · exact Or.inl hreturned
    · refine Or.inr ⟨sync, hsyncing, ⟨clockDatagram s.client.connectionSalt
        sync.sendNowEpoch.toUInt64, s.instant⟩, ?_, ?_⟩
      · change _ ∈ (s.toServer ++ p.sent.map _).getLast?
        rw [hsent, List.map_singleton, List.getLast?_concat]
        rfl
      · change _ = clockDatagram p.program.connectionSalt _
        rw [hp.salt]
  requests request hrequest := by
    rcases List.mem_append.mp hrequest with hold | hnew
    · obtain ⟨hsent, hdata⟩ := h.requests request hold
      exact ⟨Nat.lt_succ_of_lt hsent, hdata⟩
    · obtain ⟨message, hmessage, rfl⟩ := List.mem_map.mp hnew
      refine ⟨Nat.lt_add_one _, ?_⟩
      obtain ⟨_, hnone⟩ | ⟨sync, _, hsent⟩ := hp.phase
      · rw [hnone] at hmessage
        cases hmessage
      · rw [hsent] at hmessage
        obtain rfl := List.mem_singleton.mp hmessage
        exact ⟨_, _, rfl⟩
  responses response hresponse := by
    obtain ⟨hdata, hstamped, request, hrequest, hsent⟩ := h.responses response hresponse
    exact ⟨hdata, Nat.lt_succ_of_lt hstamped, request,
      (extends_proceed hp samples).request hrequest, hsent⟩

theorem Consistent.serve (h : Consistent s) {k : ℕ} {request : Request} {env : Server.Env}
    {o : Server.Outcome} (hrequest : s.toServer[k]? = some request)
    (ho : Server.executeGameTurn env s.server request.data clientAddr = some o) :
    Consistent { s.serve clientAddr k o with instant := s.instant + 1 } where
  client := h.client
  requests request hrequest := by
    obtain ⟨hsent, hdata⟩ := h.requests request hrequest
    exact ⟨Nat.lt_succ_of_lt hsent, hdata⟩
  responses response hresponse := by
    rcases List.mem_append.mp hresponse with hold | hnew
    · obtain ⟨hdata, hstamped, hproduced⟩ := h.responses response hold
      exact ⟨hdata, Nat.lt_succ_of_lt hstamped, hproduced⟩
    · obtain ⟨message, hmessage, rfl⟩ := List.mem_map.mp hnew
      obtain ⟨hsent, salt, time, hclock⟩ := h.requests request (List.mem_of_getElem? hrequest)
      rw [hclock] at ho
      exact ⟨⟨_, sent_of_clock ho message (List.mem_filter.mp hmessage).1⟩, Nat.lt_add_one _,
        request, hrequest, hsent⟩

theorem Consistent.later (h : Consistent s) (server : Server.State) :
    Consistent { s with server := server, instant := s.instant + 1 } where
  client := h.client
  requests request hrequest := by
    obtain ⟨hsent, hdata⟩ := h.requests request hrequest
    exact ⟨Nat.lt_succ_of_lt hsent, hdata⟩
  responses response hresponse := by
    obtain ⟨hdata, hstamped, hproduced⟩ := h.responses response hresponse
    exact ⟨hdata, Nat.lt_succ_of_lt hstamped, hproduced⟩

theorem typeField_clockResponseDatagram (now : Int64) :
    typeField (clockResponseDatagram now) = some .clockResponse :=
  typeField_sealed _ _

/-- A response handed to the waiting client makes one sample. -/
theorem act_toClient (clientAddr : Address) (h : Consistent s) {sync : ClockSync} {k : ℕ}
    {response : Response} (env : Client.Env) (hphase : s.client.phase = .syncing sync)
    (hresponse : s.toClient[k]? = some response) :
    ∃ p, GoesOn s.client p ∧ act clientAddr s (.toClient k env) = some { s.proceed p with
      samples := s.samples ++
        [⟨sync.sendNowEpoch, s.toServer.length - 1, response, s.instant⟩] } := by
  obtain ⟨⟨now, hnow⟩, _⟩ := h.responses response (List.mem_of_getElem? hresponse)
  have hreceive := receiveClockResponse_clockResponse env sync now s.client
  rw [← hnow] at hreceive
  have htype := typeField_clockResponseDatagram now
  rw [← hnow] at htype
  refine ⟨_, goesOn_continueWith env sync
    (sampleOffset sync.sendNowEpoch (milliseconds (env.clock 0)) now) s.client, ?_⟩
  simp only [act, hphase, hresponse, hreceive, System.sampled, htype, if_true,
    Option.bind_eq_bind, Option.bind_some, Option.pure_def]

/-- The sample of a delivery is paired exactly when the response answers the last CLOCK. -/
theorem paired_sample_iff (h : Consistent s) {s' : System} (hext : Extends s s')
    {sync : ClockSync} {k : ℕ} {response : Response} (hphase : s.client.phase = .syncing sync)
    (hresponse : s.toClient[k]? = some response) :
    Paired s' ⟨sync.sendNowEpoch, s.toServer.length - 1, response, s.instant⟩ ↔
      s.toServer.length = response.request + 1 := by
  obtain ⟨result, hreturned⟩ | ⟨sync', hsyncing, request, hlast, hdata⟩ := h.client
  · rw [hphase] at hreturned
    cases hreturned
  rw [hphase] at hsyncing
  cases hsyncing
  have hpos : 0 < s.toServer.length := by
    rw [List.length_pos_iff]
    rintro hnil
    rw [hnil] at hlast
    cases hlast
  constructor
  · rintro ⟨hsame, _⟩
    dsimp only at hsame
    omega
  · intro hcurrent
    obtain ⟨_, hstamped, request', hrequest', hsent⟩ :=
      h.responses response (List.mem_of_getElem? hresponse)
    have hplace : response.request = s.toServer.length - 1 := by omega
    rw [hplace, ← List.getLast?_eq_getElem?] at hrequest'
    obtain rfl := Option.some.inj (hlast.symm.trans hrequest')
    refine ⟨hplace, request, hext.request ?_, ?_, hsent, hstamped⟩
    · rw [← List.getLast?_eq_getElem?]
      exact hlast
    · rw [hext.salt]
      exact hdata

def Effect (s s' : System) (e : Event) : Prop :=
  Consistent s' ∧ Extends s s' ∧
    ((s'.samples = s.samples ∧ ResponseIsCurrent s e) ∨
      ∃ k env sync response, e = .toClient k env ∧ s.client.phase = .syncing sync ∧
        s.toClient[k]? = some response ∧ s'.samples = s.samples ++
          [⟨sync.sendNowEpoch, s.toServer.length - 1, response, s.instant⟩])

theorem effect_toClient (h : Consistent s) {k : ℕ} {env : Client.Env} {t : System}
    (ht : act clientAddr s (.toClient k env) = some t) :
    Effect s { t with instant := s.instant + 1 } (.toClient k env) := by
  cases hphase : s.client.phase with
  | syncing sync =>
    obtain ⟨response, hresponse⟩ : ∃ response, s.toClient[k]? = some response := by
      simp only [act, hphase] at ht
      obtain ⟨response, hresponse, _⟩ := Option.bind_eq_some_iff.mp ht
      exact ⟨response, hresponse⟩
    obtain ⟨p, hp, hact⟩ := act_toClient clientAddr h env hphase hresponse
    obtain rfl := Option.some.inj (hact.symm.trans ht)
    exact ⟨h.proceed hp _, extends_proceed hp _,
      Or.inr ⟨k, env, sync, response, rfl, hphase, hresponse, rfl⟩⟩
  | _ =>
    simp only [act, hphase] at ht
    cases ht

theorem effect_receive (h : Consistent s) {received : Received} {env : Client.Env} {t : System}
    (ht : act clientAddr s (.receive received env) = some t) :
    Effect s { t with instant := s.instant + 1 } (.receive received env) := by
  cases hphase : s.client.phase with
  | syncing sync =>
    simp only [act, hphase] at ht
    split at ht
    · cases ht
    · rename_i hother
      obtain ⟨p, hreceive, rfl⟩ := Option.map_eq_some_iff.mp ht
      have hp : GoesOn s.client p := by
        rcases receiveClockResponse_other hother hreceive with rfl | rfl
        · exact goesOn_finish 1 _
        · exact goesOn_startExchange ..
      exact ⟨h.proceed hp _, extends_proceed hp _, Or.inl ⟨rfl, trivial⟩⟩
  | _ =>
    simp only [act, hphase] at ht
    cases ht

theorem step_effect (h : Consistent s) {e : Event} (hs : step clientAddr s e = some s') :
    Effect s s' e := by
  obtain ⟨t, ht, rfl⟩ := Option.map_eq_some_iff.mp hs
  cases e with
  | syncClock env =>
    simp only [act] at ht
    split at ht
    · obtain rfl := Option.some.inj ht
      have hp := goesOn_syncClock env s.client
      exact ⟨h.proceed hp _, extends_proceed hp _, Or.inl ⟨rfl, trivial⟩⟩
    · cases ht
  | toServer k env =>
    obtain ⟨request, hrequest, ht⟩ := Option.bind_eq_some_iff.mp ht
    obtain ⟨o, ho, ht⟩ := Option.bind_eq_some_iff.mp ht
    obtain rfl := Option.some.inj ht
    exact ⟨h.serve hrequest ho, ⟨⟨[], (List.append_nil _).symm⟩, rfl⟩, Or.inl ⟨rfl, trivial⟩⟩
  | toClient k env => exact effect_toClient h ht
  | receive received env => exact effect_receive h ht
  | other e =>
    simp only [act] at ht
    split at ht
    · cases ht
    · obtain ⟨server, _, rfl⟩ := Option.map_eq_some_iff.mp ht
      exact ⟨h.later server, ⟨⟨[], (List.append_nil _).symm⟩, rfl⟩, Or.inl ⟨rfl, trivial⟩⟩

/-- Every sample taken so far is paired. -/
def AllPaired (s : System) : Prop := ∀ sample ∈ s.samples, Paired s sample

/-- A step keeps the samples paired exactly when a response it hands over is current. -/
theorem allPaired_step_iff (h : Consistent s) (hpaired : AllPaired s) {e : Event}
    (hs : step clientAddr s e = some s') : AllPaired s' ↔ ResponseIsCurrent s e := by
  obtain ⟨_, hext, hsamples⟩ := step_effect h hs
  have hold : ∀ sample ∈ s.samples, Paired s' sample :=
    fun sample hsample => (hpaired sample hsample).extends hext
  rcases hsamples with ⟨hsame, hcurrent⟩ | ⟨k, env, sync, response, rfl, hphase, hresponse, hnew⟩
  · rw [AllPaired, hsame]
    exact iff_of_true hold hcurrent
  · have hsample := paired_sample_iff h hext hphase hresponse
    rw [AllPaired, hnew]
    constructor
    · intro hall sync' hphase' response' hresponse'
      obtain rfl := Option.some.inj (hresponse.symm.trans hresponse')
      exact hsample.mp (hall _ (List.mem_append_right _ List.mem_cons_self))
    · intro hcurrent sample hmem
      rcases List.mem_append.mp hmem with hmem | hmem
      · exact hold sample hmem
      · obtain rfl := List.mem_singleton.mp hmem
        exact hsample.mpr (hcurrent sync hphase response hresponse)

/-- A step that is not allowed hands over a response, and that is never stuck. -/
theorem exists_step_of_not_current (h : Consistent s) {e : Event}
    (hnot : ¬ ResponseIsCurrent s e) : ∃ s', step clientAddr s e = some s' := by
  unfold ResponseIsCurrent at hnot
  split at hnot
  · rename_i k env
    obtain ⟨sync, hnot⟩ := not_forall.mp hnot
    obtain ⟨hphase, hnot⟩ := Classical.not_imp.mp hnot
    obtain ⟨response, hnot⟩ := not_forall.mp hnot
    obtain ⟨hresponse, _⟩ := Classical.not_imp.mp hnot
    obtain ⟨p, _, hact⟩ := act_toClient clientAddr h env hphase hresponse
    exact ⟨_, Option.map_eq_some_iff.mpr ⟨_, hact, rfl⟩⟩
  · exact absurd trivial hnot

end Steps

theorem consistent_initial {s : System} (h : Initial s) : Consistent s where
  client := Or.inl h.phase
  requests := by simp [h.toServer]
  responses := by simp [h.toClient]

/-- In every run every sample of SyncClock is paired exactly when every CLOCK_RESPONSE
the client gets while it waits answers the last CLOCK it sent. -/
theorem always_allPaired_iff (s : System) (events : List Event) (hinit : Initial s) :
    Always (step clientAddr) AllPaired s events ↔
      Throughout (step clientAddr) ResponseIsCurrent s events := by
  refine always_iff_throughout_of_taken (I := fun s => Consistent s ∧ AllPaired s)
    ⟨consistent_initial hinit, ?_⟩ (fun _ hI => hI.2) ?_ ?_
  · rw [AllPaired, hinit.samples]
    exact fun _ hsample => nomatch hsample
  · rintro s e s' ⟨h, hpaired⟩ hC hs
    exact ⟨(step_effect h hs).1, (allPaired_step_iff h hpaired hs).mpr hC⟩
  · rintro s e ⟨h, hpaired⟩ hC
    obtain ⟨s', hs⟩ := exists_step_of_not_current h hC
    exact ⟨s', hs, mt (allPaired_step_iff h hpaired hs).mp hC⟩

def connected : System where
  client :=
    { serverAddr := ⟨2, 9, 3501⟩
      connectionSalt := 7
      connectionState := .connected }
  server := ⟨[{ address := ⟨2, 1, 1⟩, connectionSalt := 7, connectionState := .connected }]⟩

theorem initial_connected : Initial connected := ⟨⟨0, rfl⟩, rfl, rfl, rfl⟩

/-- One exchange. -/
theorem always_allPaired_iff_exchange :
    Always (step ⟨2, 1, 1⟩) AllPaired connected [.syncClock {}, .toServer 0 {}, .toClient 0 {}] ↔
      Throughout (step ⟨2, 1, 1⟩) ResponseIsCurrent connected
        [.syncClock {}, .toServer 0 {}, .toClient 0 {}] :=
  always_allPaired_iff ⟨2, 1, 1⟩ connected _ initial_connected

/-- SyncClock finds the socket empty and returns, its CLOCK is answered, and the next
call takes the answer for its own. -/
theorem late_response_is_sampled :
    ¬ ∀ (clientAddr : Address) (s : System) (events : List Event), Initial s →
      Always (step clientAddr) AllPaired s events := by
  intro h
  let events : List Event :=
    [.syncClock {}, .receive .timeout {}, .toServer 0 {}, .syncClock {}, .toClient 0 {}]
  have hsamples : (run (step ⟨2, 1, 1⟩) connected events).map (fun s =>
      s.samples.map fun sample => (sample.request, sample.response.request)) =
        some [(1, 0)] := by decide +kernel
  obtain ⟨t, hrun, ht⟩ := Option.map_eq_some_iff.mp hsamples
  obtain ⟨sample, hsample, hrequests⟩ : ∃ sample ∈ t.samples,
      (sample.request, sample.response.request) = (1, 0) := by
    rw [← List.mem_map, ht]
    exact List.mem_cons_self
  obtain ⟨hrequest, hresponse⟩ := Prod.mk.inj hrequests
  have hpaired := ((h ⟨2, 1, 1⟩ connected events initial_connected).last hrun sample hsample).1
  rw [hrequest, hresponse] at hpaired
  cases hpaired

end RocketGame.ClockPairing
