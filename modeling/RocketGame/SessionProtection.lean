import RocketGame.ClientIsolation

/-!
What keeps a session alive. The handlers look a record up by address and salt,
so a datagram without the salt of a session passes it by, with one exception:
HandleChallengeResponse looks at the first record of the address, whatever its
salt and state, and erases it when the response does not match.
-/
namespace RocketGame.SessionProtection

open ClientIsolation DatagramSafety FirstMatch HandshakeMessages NetworkUtilities Packets
open PlayerTable Runs Server Turns
open NetworkPacket (ofBytes sealed)

def CarriesSalt (data : Datagram) (salt : UInt64) : Prop :=
  13 ≤ data.length ∧ saltField data = salt

def IsResponse (data : Datagram) : Prop :=
  data.length = 1000 ∧ Carries data .challengeResponse (saltField data)

theorem carriesSalt_of_carries {data : Datagram} {t : NetworkPacketType} {salt : UInt64}
    (h : Carries data t salt) : CarriesSalt data salt :=
  ⟨length_of_carries h, saltField_of_carries h⟩

theorem count_replace {before after : List Player} {p player player' : Player}
    (hne : player ≠ p) (hne' : player' ≠ p) :
    (before ++ player' :: after).count p = (before ++ player :: after).count p := by
  rw [List.count_append, List.count_append, List.count_cons_of_ne hne, List.count_cons_of_ne hne']

theorem executeGameTurn_denied {env : Env} {s : State} {data : Datagram} {addr : Address}
    {salt : UInt64} {before after : List Player} {player : Player} (hsize : data.length = 1000)
    (hdata : Carries data .challengeResponse salt)
    (hlocate : locate (fromAddress addr) s.players = some (before, player, after))
    (hsalt : player.connectionSalt ≠ salt) :
    executeGameTurn env s data addr = some
      { state := ⟨before ++ after⟩
        sent := answer env addr deniedDatagram
        result := if env.sendOk then 0 else 1 } := by
  have hsize' : ((ofBytes data).advance 5).size = 1000 := hsize
  rw [executeGameTurn_of_carries hdata]
  simp only [dispatch, hsize', ne_eq, not_true_eq_false, if_false, handleChallengeResponse,
    hdata.salt, Option.bind_eq_bind, Option.bind_some, hlocate, hsalt]
  rfl

section Session

variable {env : Env} {s : State} {data : Datagram} {addr : Address} {o : Outcome} {p : Player}

/-- Any other datagram without the salt leaves the session where it is. -/
theorem count_of_turn (h : Turn env s data addr o) (hconnected : p.connectionState = .connected)
    (hforeign : ¬ CarriesSalt data p.connectionSalt)
    (hother : ¬ (IsResponse data ∧ s.players.find? (fromAddress addr) = some p)) :
    o.state.players.count p = s.players.count p := by
  have hne : ∀ {t salt player}, Carries data t salt → player.connectionSalt = salt →
      player ≠ p := by
    rintro t salt player hdata rfl rfl
    exact hforeign (carriesSalt_of_carries hdata)
  cases h with
  | dropped => rfl
  | requested clientSalt hsize hdata =>
    have hnew : newPlayer env s.players clientSalt addr ≠ p := by
      rintro rfl
      cases hconnected
    rw [List.count_append, List.count_singleton, if_neg (by simpa using hnew), Nat.add_zero]
  | unknown t salt hdata => rfl
  | accepted salt before after player hsize hdata hlocate hsalt =>
    obtain ⟨hplayers, _, _⟩ := locate_eq_some.mp hlocate
    rw [hplayers]
    exact count_replace (hne hdata hsalt) (hne hdata hsalt)
  | denied salt before after player hsize hdata hlocate hsalt =>
    obtain ⟨hplayers, _, _⟩ := locate_eq_some.mp hlocate
    have hfirst : player ≠ p := by
      rintro rfl
      refine hother ⟨⟨hsize, ?_⟩, find?_of_locate hlocate⟩
      rwa [saltField_of_carries hdata]
    rw [hplayers, List.count_append, List.count_append, List.count_cons_of_ne hfirst]
  | synced salt clientTime before after player hdata hlocate =>
    obtain ⟨hplayers, hauth, _⟩ := locate_eq_some.mp hlocate
    have hsalt := (authenticates_iff.mp hauth).1
    rw [hplayers]
    exact count_replace (hne hdata hsalt) (hne hdata hsalt)
  | played h keyboard before after player hdata hlocate =>
    obtain ⟨hplayers, hauth, _⟩ := locate_eq_some.mp hlocate
    have hsalt := (authenticates_iff.mp hauth).1
    rw [hplayers]
    exact count_replace (hne hdata hsalt) (hne hdata hsalt)
  | ended salt hdata =>
    apply List.count_filter
    rw [Bool.not_eq_true', Bool.eq_false_iff]
    intro hauth
    exact hne hdata (authenticates_iff.mp hauth).1 rfl

/-- A response that does not match erases the session. -/
theorem count_of_response (h : executeGameTurn env s data addr = some o)
    (hforeign : ¬ CarriesSalt data p.connectionSalt) (hresponse : IsResponse data)
    (hfirst : s.players.find? (fromAddress addr) = some p) :
    o.state.players.count p + 1 = s.players.count p := by
  obtain ⟨hsize, hdata⟩ := hresponse
  obtain ⟨before, after, hlocate⟩ := locate_of_find? hfirst
  have hsalt : p.connectionSalt ≠ saltField data := by
    intro hsame
    rw [hsame] at hforeign
    exact hforeign (carriesSalt_of_carries hdata)
  rw [executeGameTurn_denied hsize hdata hlocate hsalt, Option.some.injEq] at h
  subst h
  obtain ⟨hplayers, _, _⟩ := locate_eq_some.mp hlocate
  rw [hplayers, List.count_append, List.count_append, List.count_cons_self, Nat.add_assoc]

/-- The datagram leaves the record present, and as often in the table as it was. -/
def KeepsSession (env : Env) (s : State) (data : Datagram) (p : Player) : Prop :=
  ∃ o, executeGameTurn env s data p.address = some o ∧ p ∈ o.state.players ∧
    o.state.players.count p = s.players.count p

/-- A datagram without the salt of a connected record keeps the session, except
exactly for one that is read past its end and for a challenge response while the
record is the first one of its address. -/
theorem session_kept_iff (hmem : p ∈ s.players) (hconnected : p.connectionState = .connected)
    (hforeign : ¬ CarriesSalt data p.connectionSalt) :
    KeepsSession env s data p ↔ LongEnough s data p.address ∧
      ¬ (IsResponse data ∧ s.players.find? (fromAddress p.address) = some p) := by
  rw [← isSome_iff_longEnough env, Option.isSome_iff_exists]
  constructor
  · rintro ⟨o, ho, _, hcount⟩
    refine ⟨⟨o, ho⟩, ?_⟩
    rintro ⟨hresponse, hfirst⟩
    have herased := count_of_response ho hforeign hresponse hfirst
    omega
  · rintro ⟨⟨o, ho⟩, hother⟩
    have hcount := count_of_turn (turn_of_executeGameTurn ho) hconnected hforeign hother
    refine ⟨o, ho, ?_, hcount⟩
    rw [← List.count_pos_iff, hcount]
    exact List.count_pos_iff.mpr hmem

end Session

def connectedPlayer : Player :=
  { newPlayer {} [] 1 ⟨2, 1, 1⟩ with connectionState := .connected }

/-- A DISCONNECT with another salt does it no harm. -/
theorem session_kept_iff_disconnect :
    let data := disconnectDatagram 7
    let s : State := ⟨[connectedPlayer]⟩
    KeepsSession {} s data connectedPlayer ↔ LongEnough s data connectedPlayer.address ∧
      ¬ (IsResponse data ∧
        s.players.find? (fromAddress connectedPlayer.address) = some connectedPlayer) := by
  apply session_kept_iff (List.mem_singleton_self _) rfl
  rintro ⟨_, hsalt⟩
  rw [saltField_of_carries (carries_disconnectDatagram 7)] at hsalt
  exact absurd hsalt (by decide)

/-- A handshake makes the record, and a response with another salt erases it. -/
theorem foreign_response_ends_session :
    ¬ ∀ (env : Env) (s : State) (data : Datagram) (p : Player), Reachable step {} s →
      p ∈ s.players → p.connectionState = .connected → ¬ CarriesSalt data p.connectionSalt →
      KeepsSession env s data p := by
  intro h
  have hresponse := fun salt => length_paddedMessage .challengeResponse salt
  have hcarries := fun salt => carries_paddedMessage .challengeResponse salt
  have hrequested : Reachable step {} ⟨[newPlayer {} [] 1 ⟨2, 1, 1⟩]⟩ :=
    (Reachable.refl {}).tail (step_paddedRequest _ _ _ _)
  have hconnect : step ⟨[newPlayer {} [] 1 ⟨2, 1, 1⟩]⟩
      ⟨{}, paddedMessage .challengeResponse 1, ⟨2, 1, 1⟩⟩ = some ⟨[connectedPlayer]⟩ := by
    rw [step, executeGameTurn_challengeResponse (hresponse 1) (hcarries 1) rfl rfl]
    rfl
  have hforeign : ¬ CarriesSalt (paddedMessage .challengeResponse 2) 1 := by
    rintro ⟨_, hsalt⟩
    rw [saltField_of_carries (hcarries 2)] at hsalt
    exact absurd hsalt (by decide)
  have hlocate : locate (fromAddress connectedPlayer.address) [connectedPlayer] =
      some ([], connectedPlayer, []) := rfl
  obtain ⟨o, ho, hkept, _⟩ := h {} ⟨[connectedPlayer]⟩ _ connectedPlayer
    (hrequested.tail hconnect) (List.mem_singleton_self _) rfl hforeign
  rw [executeGameTurn_denied (hresponse 2) (hcarries 2) hlocate (by decide),
    Option.some.injEq] at ho
  subst ho
  exact List.not_mem_nil hkept

end RocketGame.SessionProtection
