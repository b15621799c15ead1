import RocketGame.Turns

/-!
Completing a handshake after earlier abandoned ones. Every request adds a record,
and a response is compared with the first record of its sender only. A new
handshake therefore completes exactly when no older record of the address stands
in front of its own, or the older one happens to have the same salt.
-/
namespace RocketGame.Recoverability

open FirstMatch HandshakeMessages NetworkUtilities Packets PlayerTable Runs Server Turns
open NetworkPacket (ofBytes sealed)

def Answers (o : Outcome) (addr : Address) (t : NetworkPacketType) : Prop :=
  ∃ data, o.sent = [(addr, data)] ∧
    (ofBytes data).readAndValidateCRC = some (0, (ofBytes data).advance 4) ∧
    ((ofBytes data).advance 4).readNetworkPacketType = some (some t, (ofBytes data).advance 5)

def Accepts (o : Outcome) (addr : Address) (salt : UInt64) : Prop :=
  Answers o addr .connectionAccepted ∧
    ∃ p ∈ o.state.players, p.address = addr ∧ p.connectionSalt = salt ∧
      p.connectionState = .connected

/-- The address has no record, or its first record has this salt. -/
def FirstRecordHasSalt (s : State) (addr : Address) (salt : UInt64) : Prop :=
  ∀ p, s.players.find? (fromAddress addr) = some p → p.connectionSalt = salt

theorem answers_sealed {o : Outcome} {addr : Address} {t : NetworkPacketType}
    {rest : List UInt8} (h : o.sent = [(addr, sealed (t.toInt8.toUInt8 :: rest))]) :
    Answers o addr t :=
  ⟨_, h, NetworkPacket.readAndValidateCRC_sealed _,
    NetworkPacket.readNetworkPacketType_of_unread (NetworkPacket.unread_sealed _)⟩

theorem Answers.eq {o : Outcome} {addr : Address} {t u : NetworkPacketType}
    (h : Answers o addr t) (h' : Answers o addr u) : t = u := by
  obtain ⟨data, hsent, _, htype⟩ := h
  obtain ⟨data', hsent', _, htype'⟩ := h'
  obtain rfl : data = data' := by
    rw [hsent, List.cons.injEq, Prod.mk.injEq] at hsent'
    exact hsent'.1.2
  rw [htype, Option.some.injEq, Prod.mk.injEq, Option.some.injEq] at htype'
  exact htype'.1

/-- The challenge of a request determines the server salt it carries. -/
theorem challengeDatagram_inj {clientSalt a b : UInt64}
    (h : challengeDatagram clientSalt a = challengeDatagram clientSalt b) : a = b := by
  have hunread := congrArg (fun data => ((ofBytes data).advance 4).unread) h
  simp only [challengeDatagram, NetworkPacket.unread_sealed, List.cons.injEq, true_and,
    List.append_cancel_left_eq] at hunread
  rw [← decode_bytes64 a, hunread, decode_bytes64]

theorem response_accepts_iff {env : Env} {s : State} {data : Datagram} {addr : Address}
    {salt : UInt64} {p : Player} (hsize : data.length = 1000)
    (hdata : Carries data .challengeResponse salt) (hsend : env.sendOk = true)
    (hfirst : s.players.find? (fromAddress addr) = some p) :
    (∃ o, executeGameTurn env s data addr = some o ∧ Accepts o addr salt) ↔
      p.connectionSalt = salt := by
  obtain ⟨before, after, hlocate⟩ := locate_of_find? hfirst
  have haddr := fromAddress_iff.mp (List.find?_some hfirst)
  rw [executeGameTurn_challengeResponse hsize hdata hsend hlocate]
  simp only [Option.some.injEq, exists_eq_left']
  by_cases hsalt : p.connectionSalt = salt
  · rw [if_pos hsalt]
    refine iff_of_true ?_ hsalt
    refine ⟨answers_sealed rfl, { p with connectionState := .connected }, ?_, haddr, hsalt, rfl⟩
    exact List.mem_append_right _ (List.mem_cons_self ..)
  · rw [if_neg hsalt]
    refine iff_of_false ?_ hsalt
    rintro ⟨haccepted, _⟩
    have hdenied : Answers
        { state := ⟨before ++ after⟩, sent := [(addr, deniedDatagram)], result := 0 } addr
        .connectionDenied := answers_sealed rfl
    cases haccepted.eq hdenied

/-- Datagrams of other clients leave the first record of an address in place. -/
theorem run_others_find? {s t : State} {events : List Event} {addr : Address}
    (hothers : ∀ e ∈ events, e.clientAddr ≠ addr) (hrun : run step s events = some t) :
    t.players.find? (fromAddress addr) = s.players.find? (fromAddress addr) := by
  rw [← List.head?_filter, ← List.head?_filter]
  refine congrArg List.head? ?_
  refine run_invariant
    (I := fun u => u.players.filter (fromAddress addr) = s.players.filter (fromAddress addr))
    rfl ?_ (throughout_of_forall_mem hothers) hrun
  intro u e u' hu hne hstep
  rw [step_others hstep (Ne.symm hne), hu]

/-- After a request, the first record of its sender is the old one, if there was one. -/
theorem find?_after_request {env : Env} {s : State} {addr : Address} {clientSalt : UInt64} :
    (s.players ++ [newPlayer env s.players clientSalt addr]).find? (fromAddress addr) =
      (s.players.find? (fromAddress addr)).or
        (some (newPlayer env s.players clientSalt addr)) := by
  have hnew : fromAddress addr (newPlayer env s.players clientSalt addr) = true :=
    fromAddress_iff.mpr rfl
  rw [List.find?_append, List.find?_cons_of_pos hnew]

/-- A request answered by a challenge, then datagrams of other clients, then the
response: it is accepted exactly when the address had no record before, or its
first record has the salt of this handshake. -/
theorem handshake_completes_iff {env env' : Env} {s s' : State} {o : Outcome}
    {data data' : Datagram} {addr : Address} {clientSalt serverSalt : UInt64}
    {others : List Event} (hsize : data.length = 1000)
    (hdata : Carries data .connectionRequest clientSalt)
    (hrequest : executeGameTurn env s data addr = some o)
    (hanswer : o.sent = [(addr, challengeDatagram clientSalt serverSalt)])
    (hothers : ∀ e ∈ others, e.clientAddr ≠ addr) (hrun : run step o.state others = some s')
    (hsize' : data'.length = 1000)
    (hdata' : Carries data' .challengeResponse (clientSalt ^^^ serverSalt))
    (hsend : env'.sendOk = true) :
    (∃ o', executeGameTurn env' s' data' addr = some o' ∧
        Accepts o' addr (clientSalt ^^^ serverSalt)) ↔
      FirstRecordHasSalt s addr (clientSalt ^^^ serverSalt) := by
  rw [executeGameTurn_connectionRequest hsize hdata, Option.some.injEq] at hrequest
  subst hrequest
  have hsalt : env.randomSalt = serverSalt := by
    split at hanswer
    · rw [List.cons.injEq, Prod.mk.injEq] at hanswer
      exact challengeDatagram_inj hanswer.1.2
    · cases hanswer
  have hfind := run_others_find? hothers hrun
  rw [find?_after_request] at hfind
  unfold FirstRecordHasSalt
  cases hold : s.players.find? (fromAddress addr) with
  | none =>
    rw [hold, Option.none_or] at hfind
    rw [response_accepts_iff hsize' hdata' hsend hfind]
    simp [newPlayer, hsalt]
  | some p =>
    rw [hold, Option.some_or] at hfind
    rw [response_accepts_iff hsize' hdata' hsend hfind]
    simp

/-- A first handshake with an empty server. -/
theorem handshake_completes_iff_first :
    (∃ o', executeGameTurn {} ⟨[newPlayer {} [] 2 ⟨2, 1, 1⟩]⟩
        (paddedMessage .challengeResponse 2) ⟨2, 1, 1⟩ = some o' ∧ Accepts o' ⟨2, 1, 1⟩ 2) ↔
      FirstRecordHasSalt {} ⟨2, 1, 1⟩ 2 :=
  have hturn : executeGameTurn {} {} (paddedMessage .connectionRequest 2) ⟨2, 1, 1⟩ = some _ :=
    executeGameTurn_connectionRequest (length_paddedMessage .connectionRequest 2)
      (carries_paddedMessage _ _)
  handshake_completes_iff (length_paddedMessage .connectionRequest 2) (carries_paddedMessage _ _)
    hturn (rfl : _ = [(_, challengeDatagram 2 0)]) (List.forall_mem_nil _) rfl
    (length_paddedMessage .challengeResponse 2) (carries_paddedMessage _ _) rfl

/-- One abandoned request from the same address is enough to have the next
handshake denied. -/
theorem abandoned_handshake_blocks_next :
    ¬ ∀ (env env' : Env) (s s' : State) (o : Outcome) (data data' : Datagram) (addr : Address)
      (clientSalt serverSalt : UInt64) (others : List Event),
      Reachable step {} s → data.length = 1000 → Carries data .connectionRequest clientSalt →
      executeGameTurn env s data addr = some o →
      o.sent = [(addr, challengeDatagram clientSalt serverSalt)] →
      (∀ e ∈ others, e.clientAddr ≠ addr) → run step o.state others = some s' →
      data'.length = 1000 → Carries data' .challengeResponse (clientSalt ^^^ serverSalt) →
      env'.sendOk = true →
      ∃ o', executeGameTurn env' s' data' addr = some o' ∧
        Accepts o' addr (clientSalt ^^^ serverSalt) := by
  intro h
  have hrequest := fun salt => length_paddedMessage .connectionRequest salt
  have hcarries := fun salt => carries_paddedMessage .connectionRequest salt
  have habandoned : Reachable step {} ⟨[newPlayer {} [] 1 ⟨2, 1, 1⟩]⟩ :=
    (Reachable.refl {}).tail (step_connectionRequest (hrequest 1) (hcarries 1))
  have haccepted := h {} {} _ _ _ _ _ ⟨2, 1, 1⟩ 2 0 [] habandoned (hrequest 2) (hcarries 2)
    (executeGameTurn_connectionRequest (hrequest 2) (hcarries 2)) rfl (by simp) rfl
    (length_paddedMessage .challengeResponse 2) (carries_paddedMessage .challengeResponse 2) rfl
  have hsalt := (response_accepts_iff (length_paddedMessage .challengeResponse 2)
    (carries_paddedMessage .challengeResponse 2) rfl rfl).mp haccepted
  exact absurd hsalt (by decide)

end RocketGame.Recoverability
