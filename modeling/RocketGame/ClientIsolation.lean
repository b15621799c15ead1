import RocketGame.DatagramSafety
import RocketGame.Turns

/-!
What one datagram can do to everybody else. It touches no record of another
address, it is answered at most once and only to its sender, and an answer
longer than the datagram goes only to a sender that holds the salt of one of its
own records.
-/
namespace RocketGame.ClientIsolation

open DatagramSafety FirstMatch HandshakeMessages NetworkUtilities Packets PlayerTable Server Turns
open NetworkPacket (ofBytes sealed)

/-- The records of every other address, in the order of the table. -/
def others (addr : Address) (s : State) : List Player :=
  s.players.filter fun p => !fromAddress addr p

/-- A datagram as long as the fields its handler reads is handled to the end. -/
theorem exists_turn (env : Env) {s : State} {data : Datagram} {addr : Address}
    (hlong : bytesRead s data addr ≤ data.length) :
    ∃ o, executeGameTurn env s data addr = some o ∧ Turn env s data addr o := by
  have hsome := (isSome_iff_longEnough env s data addr).mpr fun _ => hlong
  obtain ⟨o, ho⟩ := Option.isSome_iff_exists.mp hsome
  exact ⟨o, ho, turn_of_executeGameTurn ho⟩

theorem others_append (addr : Address) (before after : List Player) :
    others addr ⟨before ++ after⟩ = others addr ⟨before⟩ ++ others addr ⟨after⟩ :=
  List.filter_append ..

theorem others_cons_sender {addr : Address} {p : Player} (h : fromAddress addr p = true)
    (players : List Player) : others addr ⟨p :: players⟩ = others addr ⟨players⟩ := by
  have hnot : (!fromAddress addr p) = false := by rw [h, Bool.not_true]
  exact List.filter_cons_of_neg (by rw [hnot]; exact Bool.false_ne_true)

/-- Erasing a record of the sender leaves the others as they are. -/
theorem others_erase {s : State} {before after : List Player} {player : Player} {addr : Address}
    (hplayers : s.players = before ++ player :: after) (haddr : fromAddress addr player = true) :
    others addr ⟨before ++ after⟩ = others addr s := by
  have hs : others addr s = others addr ⟨before ++ player :: after⟩ := by rw [← hplayers]
  rw [hs, others_append, others_append, others_cons_sender haddr]

/-- So does writing another record of the sender in its place. -/
theorem others_replace {s : State} {before after : List Player} {player player' : Player}
    {addr : Address} (hplayers : s.players = before ++ player :: after)
    (haddr : fromAddress addr player = true) (haddr' : fromAddress addr player' = true) :
    others addr ⟨before ++ player' :: after⟩ = others addr s := by
  rw [← others_erase hplayers haddr, others_append, others_append, others_cons_sender haddr']

theorem others_of_turn {env : Env} {s : State} {data : Datagram} {addr : Address} {o : Outcome}
    (h : Turn env s data addr o) : others addr o.state = others addr s := by
  cases h with
  | dropped => rfl
  | requested clientSalt hsize hdata =>
    have hnew : fromAddress addr (newPlayer env s.players clientSalt addr) = true :=
      fromAddress_iff.mpr rfl
    have hnil : others addr ⟨[]⟩ = [] := rfl
    rw [others_append, others_cons_sender hnew, hnil, List.append_nil]
  | unknown t salt hdata => rfl
  | accepted salt before after player hsize hdata hlocate hsalt =>
    obtain ⟨hplayers, haddr, _⟩ := locate_eq_some.mp hlocate
    exact others_replace hplayers haddr haddr
  | denied salt before after player hsize hdata hlocate hsalt =>
    obtain ⟨hplayers, haddr, _⟩ := locate_eq_some.mp hlocate
    exact others_erase hplayers haddr
  | synced salt clientTime before after player hdata hlocate =>
    obtain ⟨hplayers, hauth, _⟩ := locate_eq_some.mp hlocate
    have haddr := fromAddress_of_authenticates hauth
    exact others_replace hplayers haddr haddr
  | played h keyboard before after player hdata hlocate =>
    obtain ⟨hplayers, hauth, _⟩ := locate_eq_some.mp hlocate
    have haddr := fromAddress_of_authenticates hauth
    exact others_replace hplayers haddr haddr
  | ended salt hdata =>
    simp only [others, List.filter_filter]
    apply List.filter_congr
    intro p _
    cases hauth : authenticates salt addr p with
    | false => simp
    | true => simp [fromAddress_of_authenticates hauth]

/-- Whatever the packet type and content, all records of other addresses keep
every field, their number and their order. -/
theorem executeGameTurn_others (env : Env) {s : State} {data : Datagram} {addr : Address}
    (hlong : bytesRead s data addr ≤ data.length) :
    ∃ o, executeGameTurn env s data addr = some o ∧ others addr o.state = others addr s := by
  obtain ⟨o, ho, hturn⟩ := exists_turn env hlong
  exact ⟨o, ho, others_of_turn hturn⟩

def disconnectDatagram (salt : UInt64) : Datagram :=
  sealed (NetworkPacketType.disconnect.toInt8.toUInt8 :: (bytes64 salt ++ []))

theorem carries_disconnectDatagram (salt : UInt64) :
    Carries (disconnectDatagram salt) .disconnect salt :=
  carries_sealed .disconnect salt []

/-- A client leaves while another one, with the same salt, stays. -/
theorem executeGameTurn_others_disconnect :
    let s : State := ⟨[{ address := ⟨2, 1, 1⟩, connectionSalt := 7 },
      { address := ⟨2, 2, 1⟩, connectionSalt := 7 }]⟩
    ∃ o, executeGameTurn {} s (disconnectDatagram 7) ⟨2, 1, 1⟩ = some o ∧
      others ⟨2, 1, 1⟩ o.state = others ⟨2, 1, 1⟩ s :=
  executeGameTurn_others {} (by decide +kernel)

def HoldsSession (s : State) (data : Datagram) (addr : Address) : Prop :=
  ∃ p ∈ s.players, p.address = addr ∧ p.connectionSalt = saltField data

theorem holdsSession_of_locate {s : State} {data : Datagram} {addr : Address}
    {t : NetworkPacketType} {salt : UInt64} {before after : List Player} {player : Player}
    (hdata : Carries data t salt)
    (hlocate : locate (authenticates salt addr) s.players = some (before, player, after)) :
    HoldsSession s data addr ∧ player.address = addr := by
  obtain ⟨_, hauth, _⟩ := locate_eq_some.mp hlocate
  obtain ⟨hsalt, haddr⟩ := authenticates_iff.mp hauth
  refine ⟨⟨player, mem_of_locate hlocate, haddr, ?_⟩, haddr⟩
  rw [hsalt, saltField_of_carries hdata]

/-- A turn is silent or answers its sender once, and a long answer needs a session. -/
theorem sent_of_turn {env : Env} {s : State} {data : Datagram} {addr : Address} {o : Outcome}
    (h : Turn env s data addr o) :
    o.sent = [] ∨ ∃ reply, o.sent = answer env addr reply ∧
      (reply.length ≤ data.length ∨ HoldsSession s data addr) := by
  cases h with
  | dropped => exact Or.inl rfl
  | requested clientSalt hsize hdata =>
    refine Or.inr ⟨_, rfl, Or.inl ?_⟩
    rw [length_challengeDatagram]
    omega
  | unknown t salt hdata => exact Or.inl rfl
  | accepted salt before after player hsize hdata hlocate hsalt =>
    refine Or.inr ⟨_, rfl, Or.inl ?_⟩
    rw [length_acceptedDatagram]
    omega
  | denied salt before after player hsize hdata hlocate hsalt =>
    refine Or.inr ⟨_, rfl, Or.inl ?_⟩
    rw [length_deniedDatagram]
    omega
  | synced salt clientTime before after player hdata hlocate =>
    obtain ⟨hsession, rfl⟩ := holdsSession_of_locate hdata hlocate
    exact Or.inr ⟨_, rfl, Or.inr hsession⟩
  | played h keyboard before after player hdata hlocate =>
    obtain ⟨hsession, rfl⟩ := holdsSession_of_locate hdata hlocate
    exact Or.inr ⟨_, rfl, Or.inr hsession⟩
  | ended salt hdata => exact Or.inl rfl

/-- At most one datagram is sent, only to the sender, and without a session of
the sender it is no longer than the one received. -/
theorem executeGameTurn_answers (env : Env) {s : State} {data : Datagram} {addr : Address}
    (hlong : bytesRead s data addr ≤ data.length) :
    ∃ o, executeGameTurn env s data addr = some o ∧ o.sent.length ≤ 1 ∧
      (∀ message ∈ o.sent, message.1 = addr) ∧
      (¬ HoldsSession s data addr → ∀ message ∈ o.sent, message.2.length ≤ data.length) := by
  obtain ⟨o, ho, hturn⟩ := exists_turn env hlong
  refine ⟨o, ho, ?_⟩
  rcases sent_of_turn hturn with hsilent | ⟨reply, hsent, hlength⟩
  · rw [hsilent]
    exact ⟨Nat.zero_le 1, List.forall_mem_nil _, fun _ => List.forall_mem_nil _⟩
  · rw [hsent, answer]
    split
    · refine ⟨Nat.le_refl 1, List.forall_mem_singleton.mpr rfl, fun hnone => ?_⟩
      exact List.forall_mem_singleton.mpr (hlength.resolve_right hnone)
    · exact ⟨Nat.zero_le 1, List.forall_mem_nil _, fun _ => List.forall_mem_nil _⟩

/-- A request to an empty server. -/
theorem executeGameTurn_answers_request :
    let data := paddedMessage .connectionRequest 5
    ∃ o, executeGameTurn {} {} data ⟨2, 1, 1⟩ = some o ∧ o.sent.length ≤ 1 ∧
      (∀ message ∈ o.sent, message.1 = ⟨2, 1, 1⟩) ∧
      (¬ HoldsSession {} data ⟨2, 1, 1⟩ →
        ∀ message ∈ o.sent, message.2.length ≤ data.length) := by
  apply executeGameTurn_answers {}
  have hsize := length_paddedMessage .connectionRequest 5
  rw [bytesRead, typeField_of_carries (carries_paddedMessage .connectionRequest 5), hsize]
  decide

end RocketGame.ClientIsolation
