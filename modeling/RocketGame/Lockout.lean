import RocketGame.ConnectionExchange
import RocketGame.Recoverability

/-!
The loop in which a client calls EstablishConnection until it succeeds, against a
server that still has records of its address. No message is lost; other clients may
send anything before and between. The records of an address form a queue: each call
puts its own salt at the end and has it compared with the one at the head, which
leaves the queue when it differs. So one record too many stays one too many.
-/
namespace RocketGame.Lockout

open Client (Attempt Handshake Received disconnected receiveAccepted receiveChallenge
  requestConnection)
open ConnectionExchange FirstMatch HandshakeMessages NetworkUtilities Packets PlayerTable Runs
open Server Turns
open NetworkPacket (ofBytes sealed)

/-- One call of EstablishConnection: its salt, the environments in which the server
handles its two messages, and what other clients send meanwhile. -/
structure Trial where
  clientSalt : UInt64
  request : Env
  response : Env
  before : List Event := []
  between : List Event := []

def Trial.salt (x : Trial) : UInt64 := x.clientSalt ^^^ x.request.randomSalt

structure Trial.Lossless (clientAddr : Address) (x : Trial) : Prop where
  request : x.request.sendOk = true
  response : x.response.sendOk = true
  before : ∀ e ∈ x.before, e.clientAddr ≠ clientAddr
  between : ∀ e ∈ x.between, e.clientAddr ≠ clientAddr

variable (clientAddr : Address)

def establishConnection (c : Client.State) (s : State) (x : Trial) :
    Option (Handshake × State) := do
  let s ← run step s x.before
  let requested := requestConnection x.clientSalt true c
  let (_, request) ← requested.sent.head?
  let o₁ ← executeGameTurn x.request s request clientAddr
  let (_, challenge) ← o₁.sent.head?
  let challenged ←
    receiveChallenge x.clientSalt true (.packet c.serverAddr challenge) requested.state
  match challenged.attempt with
  | .awaitingAccepted clientSalt serverSalt => do
      let s ← run step o₁.state x.between
      let (_, response) ← challenged.sent.head?
      let o₂ ← executeGameTurn x.response s response clientAddr
      let (_, answer) ← o₂.sent.head?
      let accepted ←
        receiveAccepted clientSalt serverSalt (.packet c.serverAddr answer) challenged.state
      return (accepted, o₂.state)
  | _ => none

structure Loop where
  connected : Bool
  client : Client.State
  server : State

def connectLoop (c : Client.State) (s : State) : List Trial → Option Loop
  | [] => some ⟨false, c, s⟩
  | x :: xs => do
      let (h, s) ← establishConnection clientAddr c s x
      if h.attempt = .returned 0 then return ⟨true, h.state, s⟩
      else connectLoop h.state s xs

def salts (s : State) : List UInt64 :=
  (s.players.filter (fromAddress clientAddr)).map (·.connectionSalt)

section Server

variable {clientAddr} {s s' : State}

theorem salts_run_others {events : List Event} (hothers : ∀ e ∈ events, e.clientAddr ≠ clientAddr)
    (h : run step s events = some s') : salts clientAddr s' = salts clientAddr s := by
  refine run_invariant (I := fun t => salts clientAddr t = salts clientAddr s) rfl ?_
    (throughout_of_forall_mem hothers) h
  intro t e t' ht hne hstep
  rw [salts, step_others hstep hne.symm, ← ht, salts]

theorem salts_request (env : Env) (clientSalt : UInt64) :
    salts clientAddr ⟨s.players ++ [newPlayer env s.players clientSalt clientAddr]⟩ =
      salts clientAddr s ++ [clientSalt ^^^ env.randomSalt] := by
  have hnew : fromAddress clientAddr (newPlayer env s.players clientSalt clientAddr) = true :=
    fromAddress_iff.mpr rfl
  rw [salts, List.filter_append, List.filter_cons_of_pos hnew, List.map_append]
  rfl

/-- The head of the queue is the record the server looks at. -/
theorem salts_of_locate {before after : List Player} {player : Player}
    (h : locate (fromAddress clientAddr) s.players = some (before, player, after)) :
    ∃ rest, salts clientAddr s = player.connectionSalt :: rest ∧
      salts clientAddr ⟨before ++ after⟩ = rest ∧
      salts clientAddr ⟨before ++ { player with connectionState := .connected } :: after⟩ =
        player.connectionSalt :: rest := by
  obtain ⟨hplayers, haddr, hbefore⟩ := locate_eq_some.mp h
  have hskip : before.filter (fromAddress clientAddr) = [] := by
    rw [List.filter_eq_nil_iff]
    exact fun p hp => Bool.eq_false_iff.mp (hbefore p hp)
  have haddr' : fromAddress clientAddr { player with connectionState := .connected } = true := haddr
  refine ⟨(after.filter (fromAddress clientAddr)).map (·.connectionSalt), ?_, ?_, ?_⟩
  · rw [salts, hplayers, List.filter_append, hskip, List.filter_cons_of_pos haddr]
    rfl
  · rw [salts, List.filter_append, hskip]
    rfl
  · rw [salts, List.filter_append, hskip, List.filter_cons_of_pos haddr']
    rfl

theorem locate_of_salts {salt : UInt64} {rest : List UInt64}
    (h : salts clientAddr s = salt :: rest) :
    ∃ before player after,
      locate (fromAddress clientAddr) s.players = some (before, player, after) := by
  cases hlocate : locate (fromAddress clientAddr) s.players with
  | some found => exact ⟨found.1, found.2.1, found.2.2, rfl⟩
  | none =>
    have hnone : s.players.filter (fromAddress clientAddr) = [] := by
      rw [List.filter_eq_nil_iff]
      exact fun p hp => Bool.eq_false_iff.mp (locate_eq_none.mp hlocate p hp)
    rw [salts, hnone] at h
    cases h

end Server

/-- A denial disconnects the client. -/
theorem receiveAccepted_denied (clientSalt serverSalt : UInt64) (c : Client.State) :
    receiveAccepted clientSalt serverSalt (.packet c.serverAddr deniedDatagram) c =
      some (disconnected c) := by
  have hsame : isSameAddress c.serverAddr c.serverAddr = true := (isSameAddress_iff _ _).mpr rfl
  have hcrc : (ofBytes deniedDatagram).readAndValidateCRC =
      some (0, (ofBytes deniedDatagram).advance 4) := NetworkPacket.readAndValidateCRC_sealed _
  have htype : ((ofBytes deniedDatagram).advance 4).readNetworkPacketType =
      some (some .connectionDenied, (ofBytes deniedDatagram).advance 5) :=
    NetworkPacket.readNetworkPacketType_of_unread (NetworkPacket.unread_sealed _)
  have hother : some NetworkPacketType.connectionDenied ≠ some .connectionAccepted := by decide
  simp only [receiveAccepted, hsame, hcrc, htype, hother, Option.bind_eq_bind, Option.bind_some,
    Option.pure_def, Bool.not_true, Bool.false_eq_true, if_false, ne_eq, not_true_eq_false,
    not_false_eq_true, if_true]

/-- How a call ends when the server reaches this state before the response. -/
def responded (c : Client.State) (x : Trial) (s : State) : Option (Handshake × State) :=
  (locate (fromAddress clientAddr) s.players).map fun (before, player, after) =>
    if player.connectionSalt = x.salt then
      ({ state := connected x.clientSalt x.request.randomSalt 0 (connecting c)
         attempt := .returned 0 },
        ⟨before ++ { player with connectionState := .connected } :: after⟩)
    else (disconnected (connecting c), ⟨before ++ after⟩)

section Call

variable {clientAddr} {c : Client.State} {s s₀ s₁ s' : State} {x : Trial} {h : Handshake}

/-- One lossless call: others before, the request, others between, and the response. -/
theorem establishConnection_eq (hx : x.Lossless clientAddr)
    (hbefore : run step s x.before = some s₀) :
    establishConnection clientAddr c s x =
      (run step ⟨s₀.players ++ [newPlayer x.request s₀.players x.clientSalt clientAddr]⟩
        x.between).bind (responded clientAddr c x) := by
  -- the bytes of the padded messages are not looked at
  obtain ⟨request, hrequest, hlength, hcarries⟩ :=
    exists_paddedMessage .connectionRequest x.clientSalt
  obtain ⟨response, hresponse, hlength', hcarries'⟩ :=
    exists_paddedMessage .challengeResponse (x.clientSalt ^^^ x.request.randomSalt)
  have hrequested := requestConnection_ok x.clientSalt c
  rw [hrequest] at hrequested
  have hfirst : executeGameTurn x.request s₀ request clientAddr = some _ :=
    executeGameTurn_connectionRequest hlength hcarries
  rw [if_pos hx.request] at hfirst
  have haddr : (connecting c).serverAddr = c.serverAddr := rfl
  have hchallenged := receiveChallenge_ok
    (readsChallenge_challengeDatagram x.clientSalt x.request.randomSalt) (connecting c)
  rw [haddr, hresponse] at hchallenged
  simp only [establishConnection, hbefore, hrequested, hfirst, hchallenged, List.head?_cons,
    Option.bind_eq_bind, Option.bind_some]
  refine congrArg _ (funext fun s₁ => ?_)
  unfold responded
  cases hlocate : locate (fromAddress clientAddr) s₁.players with
  | none =>
    have hsecond : executeGameTurn x.response s₁ response clientAddr = some _ :=
      executeGameTurn_challengeResponse_unknown hlength' hcarries' hlocate
    simp only [hsecond, Option.bind_some, List.head?_nil, Option.bind_none, Option.map_none]
  | some found =>
    obtain ⟨before, player, after⟩ := found
    have hsecond := executeGameTurn_challengeResponse hlength' hcarries' hx.response hlocate
    have hxsalt : x.salt = x.clientSalt ^^^ x.request.randomSalt := rfl
    rw [← hxsalt] at hsecond
    simp only [hsecond, Option.bind_some, Option.map_some]
    by_cases hsalt : player.connectionSalt = x.salt
    · have haccepted := receiveAccepted_ok (readsAccepted_acceptedDatagram player.playerID)
        x.clientSalt x.request.randomSalt (connecting c)
      rw [haddr] at haccepted
      rw [if_pos hsalt, if_pos hsalt]
      simp only [List.head?_cons, Option.bind_some, haccepted, Option.pure_def]
      rfl
    · have hdenied := receiveAccepted_denied x.clientSalt x.request.randomSalt (connecting c)
      rw [haddr] at hdenied
      rw [if_neg hsalt, if_neg hsalt]
      simp only [List.head?_cons, Option.bind_some, hdenied, Option.pure_def]

/-- When the server handles the response, the salt of the call stands at the queue's end. -/
theorem salts_between (hx : x.Lossless clientAddr) (hbefore : run step s x.before = some s₀)
    (hbetween : run step ⟨s₀.players ++ [newPlayer x.request s₀.players x.clientSalt clientAddr]⟩
      x.between = some s₁) : salts clientAddr s₁ = salts clientAddr s ++ [x.salt] := by
  rw [salts_run_others hx.between hbetween, salts_request, salts_run_others hx.before hbefore,
    Trial.salt]

/-- The queue with the new salt has a head, and the server finds the record it belongs to. -/
theorem exists_head (hqueue : salts clientAddr s₁ = salts clientAddr s ++ [x.salt]) :
    ∃ before player after rest,
      locate (fromAddress clientAddr) s₁.players = some (before, player, after) ∧
      salts clientAddr s ++ [x.salt] = player.connectionSalt :: rest ∧
      salts clientAddr ⟨before ++ after⟩ = rest ∧
      salts clientAddr ⟨before ++ { player with connectionState := .connected } :: after⟩ =
        player.connectionSalt :: rest := by
  obtain ⟨salt, rest, hhead⟩ := List.exists_cons_of_ne_nil
    (List.append_ne_nil_of_right_ne_nil (salts clientAddr s) (List.cons_ne_nil x.salt []))
  obtain ⟨before, player, after, hlocate⟩ := locate_of_salts (hqueue.trans hhead)
  obtain ⟨rest', hsalts, herased, hkept⟩ := salts_of_locate hlocate
  exact ⟨before, player, after, rest', hlocate, hqueue.symm.trans hsalts, herased, hkept⟩

/-- A call returns when the server handles what the other clients send. -/
theorem exists_establishConnection (hx : x.Lossless clientAddr)
    (hbefore : ∀ s, (run step s x.before).isSome = true)
    (hbetween : ∀ s, (run step s x.between).isSome = true) (c : Client.State) (s : State) :
    ∃ h s', establishConnection clientAddr c s x = some (h, s') := by
  obtain ⟨s₀, hs₀⟩ := Option.isSome_iff_exists.mp (hbefore s)
  obtain ⟨s₁, hs₁⟩ := Option.isSome_iff_exists.mp
    (hbetween ⟨s₀.players ++ [newPlayer x.request s₀.players x.clientSalt clientAddr]⟩)
  obtain ⟨before, player, after, rest, hlocate, -⟩ := exists_head (salts_between hx hs₀ hs₁)
  rw [establishConnection_eq hx hs₀, hs₁, Option.bind_some, responded, hlocate]
  exact ⟨_, _, rfl⟩

/-- One lossless call: its own salt joins the queue, and the head decides. -/
theorem establishConnection_salts (hx : x.Lossless clientAddr)
    (hcall : establishConnection clientAddr c s x = some (h, s')) :
    ∃ salt rest, salts clientAddr s ++ [x.salt] = salt :: rest ∧
      (salt = x.salt ∧ h.attempt = .returned 0 ∧ salts clientAddr s' = salt :: rest ∨
        salt ≠ x.salt ∧ h.attempt = .returned 1 ∧ salts clientAddr s' = rest) := by
  have hcalled := hcall
  obtain ⟨s₀, hbefore, -⟩ := Option.bind_eq_some_iff.mp hcalled
  rw [establishConnection_eq hx hbefore] at hcall
  obtain ⟨s₁, hbetween, hcall⟩ := Option.bind_eq_some_iff.mp hcall
  obtain ⟨before, player, after, rest, hlocate, hhead, herased, hkept⟩ :=
    exists_head (salts_between hx hbefore hbetween)
  rw [responded, hlocate, Option.map_some, Option.some.injEq] at hcall
  dsimp only at hcall
  refine ⟨player.connectionSalt, rest, hhead, ?_⟩
  by_cases hsalt : player.connectionSalt = x.salt
  · rw [if_pos hsalt] at hcall
    obtain ⟨rfl, rfl⟩ := Prod.mk.inj hcall
    exact Or.inl ⟨hsalt, rfl, hkept⟩
  · rw [if_neg hsalt] at hcall
    obtain ⟨rfl, rfl⟩ := Prod.mk.inj hcall
    exact Or.inr ⟨hsalt, rfl, herased⟩

end Call

section Loop

variable {clientAddr} {c : Client.State} {s : State} {xs : List Trial} {l : Loop}

/-- The call whose salt meets itself at the head of the queue is the one that connects. -/
theorem connectLoop_queue (hxs : ∀ x ∈ xs, x.Lossless clientAddr)
    (hloop : connectLoop clientAddr c s xs = some l) :
    (l.connected = true ↔ ∃ j < xs.length,
        (salts clientAddr s ++ xs.map Trial.salt)[j]? = (xs.map Trial.salt)[j]?) ∧
      (l.connected = false →
        salts clientAddr l.server = (salts clientAddr s ++ xs.map Trial.salt).drop xs.length) := by
  induction xs generalizing c s with
  | nil =>
    obtain rfl := Option.some.inj hloop
    refine ⟨⟨fun h => Bool.noConfusion h, ?_⟩, fun _ => ?_⟩
    · rintro ⟨j, hj, -⟩
      exact absurd hj (Nat.not_lt_zero j)
    · rw [List.map_nil, List.append_nil, List.length_nil, List.drop_zero]
  | cons x xs ih =>
    obtain ⟨⟨h, s'⟩, hcall, hloop⟩ := Option.bind_eq_some_iff.mp hloop
    dsimp only at hloop
    obtain ⟨salt, rest, hqueue, hcase⟩ :=
      establishConnection_salts (hxs x List.mem_cons_self) hcall
    have hlater : salts clientAddr s ++ (x :: xs).map Trial.salt =
        salt :: (rest ++ xs.map Trial.salt) := by
      rw [List.map_cons, List.append_cons, hqueue, List.cons_append]
    rw [hlater]
    rcases hcase with ⟨hsalt, hattempt, -⟩ | ⟨hsalt, hattempt, hrest⟩
    · rw [if_pos hattempt] at hloop
      obtain rfl := Option.some.inj hloop
      refine ⟨⟨fun _ => ⟨0, Nat.zero_lt_succ _, ?_⟩, fun _ => rfl⟩, fun h => Bool.noConfusion h⟩
      rw [hsalt]
      rfl
    · have hfailed : h.attempt ≠ .returned 0 := by
        rw [hattempt]
        decide
      rw [if_neg hfailed] at hloop
      obtain ⟨hconnects, hsalts⟩ := ih (fun y hy => hxs y (List.mem_cons_of_mem _ hy)) hloop
      rw [hrest] at hconnects hsalts
      refine ⟨hconnects.trans ⟨?_, ?_⟩, hsalts⟩
      · rintro ⟨j, hj, heq⟩
        exact ⟨j + 1, Nat.succ_lt_succ hj, heq⟩
      · rintro ⟨j, hj, heq⟩
        cases j with
        | zero => exact absurd (Option.some.inj heq) hsalt
        | succ j => exact ⟨j, Nat.lt_of_succ_lt_succ hj, heq⟩

/-- Behind an old record a client that draws fresh salts never connects, however often it
tries, and the server has as many records of it as before. -/
theorem locked_out (hstale : salts clientAddr s ≠ [])
    (hfresh : (salts clientAddr s ++ xs.map Trial.salt).Nodup)
    (hxs : ∀ x ∈ xs, x.Lossless clientAddr)
    (hloop : connectLoop clientAddr c s xs = some l) :
    l.connected = false ∧ (salts clientAddr l.server).length = (salts clientAddr s).length := by
  obtain ⟨hconnects, hsalts⟩ := connectLoop_queue hxs hloop
  have hnever : l.connected = false := by
    rw [← Bool.not_eq_true, hconnects]
    rintro ⟨j, hj, heq⟩
    have hbehind : (xs.map Trial.salt)[j]? =
        (salts clientAddr s ++ xs.map Trial.salt)[(salts clientAddr s).length + j]? := by
      rw [List.getElem?_append_right (Nat.le_add_right _ _), Nat.add_sub_cancel_left]
    rw [hbehind] at heq
    have hlength : j < (salts clientAddr s ++ xs.map Trial.salt).length := by
      rw [List.length_append, List.length_map]
      omega
    have hsame := (List.getElem?_inj hlength hfresh).mp heq
    have hpos := List.length_pos_of_ne_nil hstale
    omega
  refine ⟨hnever, ?_⟩
  rw [hsalts hnever, List.length_drop, List.length_append, List.length_map, Nat.add_sub_cancel]

/-- The loop never gets stuck while the server handles what the other clients send. -/
theorem exists_connectLoop (hxs : ∀ x ∈ xs, x.Lossless clientAddr)
    (hothers : ∀ x ∈ xs, ∀ s, (run step s x.before).isSome = true ∧
      (run step s x.between).isSome = true) (c : Client.State) (s : State) :
    ∃ l, connectLoop clientAddr c s xs = some l := by
  induction xs generalizing c s with
  | nil => exact ⟨_, rfl⟩
  | cons x xs ih =>
    have hx := hothers x List.mem_cons_self
    obtain ⟨h, s', hcall⟩ := exists_establishConnection (hxs x List.mem_cons_self)
      (fun s => (hx s).1) (fun s => (hx s).2) c s
    obtain ⟨l, hl⟩ := ih (fun y hy => hxs y (List.mem_cons_of_mem _ hy))
      (fun y hy => hothers y (List.mem_cons_of_mem _ hy)) h.state s'
    simp only [connectLoop, hcall, Option.bind_eq_bind, Option.bind_some, Option.pure_def]
    split
    · exact ⟨_, rfl⟩
    · exact ⟨l, hl⟩

/-- The loop connects exactly when the salt of some call meets itself at the head of the
queue. Behind an old record, with fresh salts, it never does, and the queue keeps its length. -/
theorem connectLoop_outcome (hxs : ∀ x ∈ xs, x.Lossless clientAddr)
    (hloop : connectLoop clientAddr c s xs = some l) :
    (l.connected = true ↔ ∃ j < xs.length,
        (salts clientAddr s ++ xs.map Trial.salt)[j]? = (xs.map Trial.salt)[j]?) ∧
      (salts clientAddr s ≠ [] → (salts clientAddr s ++ xs.map Trial.salt).Nodup →
        l.connected = false ∧
          (salts clientAddr l.server).length = (salts clientAddr s).length) :=
  ⟨(connectLoop_queue hxs hloop).1, fun hstale hfresh => locked_out hstale hfresh hxs hloop⟩

end Loop

/-- Two calls behind the record of an abandoned one. -/
theorem connectLoop_outcome_abandoned :
    let s : State := ⟨[newPlayer {} [] 1 ⟨2, 1, 1⟩]⟩
    let xs : List Trial := [⟨2, {}, {}, [], []⟩, ⟨3, {}, {}, [], []⟩]
    ∃ l, connectLoop ⟨2, 1, 1⟩ { serverAddr := ⟨2, 9, 3501⟩ } s xs = some l ∧
      (l.connected = true ↔ ∃ j < xs.length,
          (salts ⟨2, 1, 1⟩ s ++ xs.map Trial.salt)[j]? = (xs.map Trial.salt)[j]?) ∧
        (salts ⟨2, 1, 1⟩ s ≠ [] → (salts ⟨2, 1, 1⟩ s ++ xs.map Trial.salt).Nodup →
          l.connected = false ∧
            (salts ⟨2, 1, 1⟩ l.server).length = (salts ⟨2, 1, 1⟩ s).length) := by
  intro s xs
  have hlossless : ∀ x ∈ xs, x.Lossless ⟨2, 1, 1⟩ := by
    simp only [xs, List.forall_mem_cons, List.not_mem_nil, false_implies, implies_true, and_true]
    exact ⟨⟨rfl, rfl, nofun, nofun⟩, ⟨rfl, rfl, nofun, nofun⟩⟩
  have hothers : ∀ x ∈ xs, ∀ s, (run step s x.before).isSome = true ∧
      (run step s x.between).isSome = true := by
    simp only [xs, List.forall_mem_cons, List.not_mem_nil, false_implies, implies_true, and_true]
    exact ⟨fun _ => ⟨rfl, rfl⟩, fun _ => ⟨rfl, rfl⟩⟩
  obtain ⟨l, hl⟩ := exists_connectLoop hlossless hothers { serverAddr := ⟨2, 9, 3501⟩ } s
  exact ⟨l, hl, connectLoop_outcome hlossless hl⟩

end RocketGame.Lockout
