import RocketGame.HandshakeMessages

/-!
What is left of a handshake message on the server when its answer cannot be sent.
Both handlers write the player table before they send, and neither takes that back:
the request leaves its record behind, the response has connected or erased one.
-/
namespace RocketGame.SendFailure

open FirstMatch HandshakeMessages NetworkUtilities Packets PlayerTable Server

inductive IsHandshake : NetworkPacketType → Prop
  | connectionRequest : IsHandshake .connectionRequest
  | challengeResponse : IsHandshake .challengeResponse

/-- A response that finds no record, or one that is connected with its salt already. -/
def NothingToWrite (s : State) (t : NetworkPacketType) (salt : UInt64) (addr : Address) : Prop :=
  t = .challengeResponse ∧ ∀ player, s.players.find? (fromAddress addr) = some player →
    player.connectionSalt = salt ∧ player.connectionState = .connected

/-- The turn fails, and the table is as before exactly if the condition holds. -/
def FailsAndKeepsIff (s : State) (turn : Option Outcome) (condition : Prop) : Prop :=
  ∃ o, turn = some o ∧ o.result = 1 ∧ o.sent = [] ∧ (o.state.players = s.players ↔ condition)

theorem connected_eq_self_iff {player : Player} :
    { player with connectionState := .connected } = player ↔
      player.connectionState = .connected := by
  constructor
  · intro h
    exact (congrArg Player.connectionState h).symm
  · intro h
    rw [← h]

section Failure

variable {env : Env} {s : State} {data : Datagram} {addr : Address} {salt : UInt64}

theorem connectionRequest_failsAndKeepsIff (hsend : env.sendOk = false)
    (hsize : data.length = 1000) (hdata : Carries data .connectionRequest salt) :
    FailsAndKeepsIff s (executeGameTurn env s data addr)
      (NothingToWrite s .connectionRequest salt addr) := by
  refine ⟨_, executeGameTurn_connectionRequest hsize hdata, ?_, ?_, ?_⟩
  · simp only [hsend, Bool.false_eq_true, if_false]
  · simp only [hsend, Bool.false_eq_true, if_false]
  · constructor
    · intro hsame
      have hlength := congrArg List.length hsame
      simp only [List.length_append, List.length_singleton] at hlength
      omega
    · intro hnothing
      cases hnothing.1

theorem challengeResponse_failsAndKeepsIff (hsend : env.sendOk = false)
    (hsize : data.length = 1000) (hdata : Carries data .challengeResponse salt) :
    FailsAndKeepsIff s (executeGameTurn env s data addr)
      (NothingToWrite s .challengeResponse salt addr) := by
  cases hlocate : locate (fromAddress addr) s.players with
  | none =>
    refine ⟨_, executeGameTurn_challengeResponse_unknown hsize hdata hlocate, rfl, rfl, ?_⟩
    apply iff_of_true rfl
    refine ⟨rfl, fun player hfind => ?_⟩
    rw [find?_eq_map_locate, hlocate] at hfind
    cases hfind
  | some found =>
    obtain ⟨before, player, after⟩ := found
    have hplayers : s.players = before ++ player :: after := (locate_eq_some.mp hlocate).1
    have hfind := find?_of_locate hlocate
    have hnothing : NothingToWrite s .challengeResponse salt addr ↔
        player.connectionSalt = salt ∧ player.connectionState = .connected := by
      simp only [NothingToWrite, hfind, Option.some.injEq, true_and, forall_eq']
    rw [hnothing]
    refine ⟨_, executeGameTurn_challengeResponse_located hsize hdata hlocate, ?_⟩
    by_cases hsalt : player.connectionSalt = salt
    · subst hsalt
      simp only [hsend, Bool.false_eq_true, if_true, if_false, true_and, hplayers,
        List.append_cancel_left_eq, List.cons.injEq, and_true]
      exact connected_eq_self_iff
    · simp only [hsalt, hsend, Bool.false_eq_true, if_false, true_and, false_and, iff_false]
      intro hsame
      have hlength := congrArg List.length (hsame.trans hplayers)
      simp only [List.length_append, List.length_cons] at hlength
      omega

end Failure

/-- When Send fails, a handshake message leaves the table as it was exactly when it had
nothing to write there. -/
theorem sendFailure_keeps_iff {env : Env} (hsend : env.sendOk = false) (s : State)
    {t : NetworkPacketType} (ht : IsHandshake t) {data : Datagram} (hsize : data.length = 1000)
    {salt : UInt64} (hdata : Carries data t salt) (addr : Address) :
    FailsAndKeepsIff s (executeGameTurn env s data addr) (NothingToWrite s t salt addr) := by
  cases ht with
  | connectionRequest => exact connectionRequest_failsAndKeepsIff hsend hsize hdata
  | challengeResponse => exact challengeResponse_failsAndKeepsIff hsend hsize hdata

/-- A client asks to connect again, and the server cannot answer. -/
theorem sendFailure_keeps_iff_request :
    FailsAndKeepsIff {} (executeGameTurn { sendOk := false } {}
      (paddedMessage .connectionRequest 1) ⟨2, 1, 1⟩)
      (NothingToWrite {} .connectionRequest 1 ⟨2, 1, 1⟩) :=
  sendFailure_keeps_iff rfl {} .connectionRequest (length_paddedMessage _ _)
    (carries_paddedMessage _ _) ⟨2, 1, 1⟩

/-- The challenge is not sent, and its record stays in the table. -/
theorem unanswered_request_stays :
    ¬ ∀ (env : Env) (s : State) (t : NetworkPacketType) (data : Datagram) (salt : UInt64)
      (addr : Address) (o : Outcome), env.sendOk = false → IsHandshake t → data.length = 1000 →
      Carries data t salt → executeGameTurn env s data addr = some o →
      o.state.players = s.players := by
  intro h
  have hturn : executeGameTurn { sendOk := false } {} (paddedMessage .connectionRequest 1)
      ⟨2, 1, 1⟩ = some _ :=
    executeGameTurn_connectionRequest (length_paddedMessage _ _) (carries_paddedMessage _ _)
  have hsame := h _ _ _ _ _ _ _ rfl .connectionRequest (length_paddedMessage _ _)
    (carries_paddedMessage _ _) hturn
  cases hsame

end RocketGame.SendFailure
