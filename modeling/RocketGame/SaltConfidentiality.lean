import RocketGame.ClientIsolation
import RocketGame.RecordMaps

/-!
What a sender can learn about the salts of others: nothing. Blinding the salts of
every record of another address commutes with each turn of the server. Two tables
that agree up to those salts therefore give the same datagrams and, once again,
tables that agree up to them.
-/
namespace RocketGame.SaltConfidentiality

open ClientIsolation FirstMatch NetworkUtilities Packets PlayerStates PlayerTable RecordMaps Server
open NetworkPacket (ofBytes)

def withoutSalts (p : Player) : Player :=
  { p with clientSalt := 0, serverSalt := 0, connectionSalt := 0 }

/-- The record as the address may know it: its own in full, others without salts. -/
def blinded (addr : Address) (p : Player) : Player :=
  if fromAddress addr p then p else withoutSalts p

def blindedState (addr : Address) (s : State) : State := ⟨s.players.map (blinded addr)⟩

/-- The two tables agree except for the salts of records of other addresses. -/
def Agree (addr : Address) (s s' : State) : Prop := blindedState addr s = blindedState addr s'

def blindedOutcome (addr : Address) (o : Outcome) : Outcome :=
  { o with state := blindedState addr o.state }

section Record

variable {addr : Address} {p : Player}

theorem blinded_of_fromAddress (h : fromAddress addr p = true) : blinded addr p = p := if_pos h

theorem blinded_of_other (h : ¬ fromAddress addr p = true) :
    blinded addr p = withoutSalts p := if_neg h

theorem fromAddress_blinded (addr : Address) (p : Player) :
    fromAddress addr (blinded addr p) = fromAddress addr p := by
  by_cases h : fromAddress addr p = true
  · rw [blinded_of_fromAddress h]
  · rw [blinded_of_other h]
    rfl

/-- A record of another address authenticates nothing, whatever its salt. -/
theorem authenticates_blinded (salt : UInt64) (addr : Address) (p : Player) :
    authenticates salt addr (blinded addr p) = authenticates salt addr p := by
  by_cases h : fromAddress addr p = true
  · rw [blinded_of_fromAddress h]
  · have hother : isSameAddress p.address addr = false := by simpa [fromAddress] using h
    rw [blinded_of_other h, authenticates, authenticates, hother]
    simp only [withoutSalts, hother, Bool.and_false]

theorem toPlayerState_blinded (addr : Address) (p : Player) :
    (blinded addr p).toPlayerState = p.toPlayerState := by
  by_cases h : fromAddress addr p = true
  · rw [blinded_of_fromAddress h]
  · rw [blinded_of_other h]
    rfl

end Record

/-- The server does not notice it when it handles a datagram of the address. -/
theorem unnoticed_blinded (addr : Address) : Unnoticed addr (blinded addr) where
  fromAddress_eq := fromAddress_blinded addr
  authenticates_eq salt := authenticates_blinded salt addr
  toPlayerState_eq := toPlayerState_blinded addr
  connectionSalt_eq p h := by rw [blinded_of_fromAddress h]
  connectionState_eq p state h := by
    rw [blinded_of_fromAddress h]
    exact blinded_of_fromAddress h
  serverClockOffset_eq p offset h := by
    rw [blinded_of_fromAddress h]
    exact blinded_of_fromAddress h
  newPlayer_eq env players clientSalt := blinded_of_fromAddress (fromAddress_iff.mpr rfl)

/-- Blinding passes by a record of the address itself. -/
theorem map_blinded_replace {addr : Address} {before after : List Player} {p : Player}
    (h : fromAddress addr p = true) :
    (before ++ p :: after).map (blinded addr) =
      before.map (blinded addr) ++ p :: after.map (blinded addr) := by
  rw [List.map_append, List.map_cons, blinded_of_fromAddress h]

section Handlers

variable {env : Env} {s : State} {p : NetworkPacket} {addr : Address}

/-- The reply lists the table, and shows nothing of what blinding hides. -/
theorem reply_blinded {before after : List Player} {reply record : Player} {ackBits : UInt32}
    {verified : List PacketInfo} (hreply : fromAddress addr reply = true)
    (hrecord : fromAddress addr record = true) :
    ({ state := ⟨before.map (blinded addr) ++ record :: after.map (blinded addr)⟩
       sent := send env (gameStatePacket reply ackBits
         (before.map (blinded addr) ++ reply :: after.map (blinded addr))) reply.address
       verified := verified
       result := 0 } : Outcome) =
      blindedOutcome addr
        { state := ⟨before ++ record :: after⟩
          sent := send env (gameStatePacket reply ackBits (before ++ reply :: after)) reply.address
          verified := verified
          result := 0 } := by
  rw [← map_blinded_replace hreply, gameStatePacket_map (unnoticed_blinded addr),
    ← map_blinded_replace hrecord]
  rfl

theorem handleGameState_blinded :
    handleGameState env (blindedState addr s) p addr =
      (handleGameState env s p addr).map (blindedOutcome addr) := by
  unfold handleGameState
  cases p.readUInt64 with
  | none => rfl
  | some read =>
    obtain ⟨salt, p₁⟩ := read
    simp only [Option.bind_eq_bind, Option.bind_some, blindedState,
      locate_authenticates_map (unnoticed_blinded addr)]
    cases hlocate : locate (authenticates salt addr) s.players with
    | none => rfl
    | some found =>
      obtain ⟨before, player, after⟩ := found
      obtain ⟨_, hauth, _⟩ := locate_eq_some.mp hlocate
      have haddr := fromAddress_of_authenticates hauth
      simp only [Option.map_some, blinded_of_fromAddress haddr]
      cases p₁.readInt16 with
      | none => rfl
      | some seqNum =>
        simp only [Option.bind_some]
        cases seqNum.2.readInt16 with
        | none => rfl
        | some ack =>
          simp only [Option.bind_some]
          cases ack.2.readInt32 with
          | none => rfl
          | some ackBits =>
            simp only [Option.bind_some]
            cases ackBits.2.deserializePlayerState with
            | none => rfl
            | some playerState => exact congrArg some (reply_blinded haddr haddr)

/-- Blinding commutes with a whole turn. -/
theorem executeGameTurn_blinded (env : Env) (s : State) (data : Datagram) (addr : Address) :
    executeGameTurn env (blindedState addr s) data addr =
      (executeGameTurn env s data addr).map (blindedOutcome addr) := by
  have hturn := executeGameTurnWith_rel (unnoticed_blinded addr) (fun o => Eq.refl (mapOutcome _ o))
    (fun p => rel_map_iff.mpr (@handleGameState_blinded env s p addr)) data
  rw [executeGameTurnWith_handleGameState] at hturn
  exact rel_map_iff.mp hturn

end Handlers

structure SameAnswer (addr : Address) (o o' : Outcome) : Prop where
  sent : o.sent = o'.sent
  verified : o.verified = o'.verified
  result : o.result = o'.result
  state : Agree addr o.state o'.state

/-- Two servers that agree except for the salts of other addresses cannot be told
apart by a datagram, and still agree after it. -/
theorem executeGameTurn_agree (env : Env) {s s' : State} (data : Datagram) {addr : Address}
    (hagree : Agree addr s s') :
    Option.Rel (SameAnswer addr) (executeGameTurn env s data addr)
      (executeGameTurn env s' data addr) := by
  have hsame : (executeGameTurn env s data addr).map (blindedOutcome addr) =
      (executeGameTurn env s' data addr).map (blindedOutcome addr) := by
    rw [← executeGameTurn_blinded, ← executeGameTurn_blinded, hagree]
  cases ho : executeGameTurn env s data addr with
  | none =>
    rw [ho, Option.map_none, eq_comm, Option.map_eq_none_iff] at hsame
    rw [hsame]
    exact .none
  | some o =>
    rw [ho, Option.map_some, eq_comm, Option.map_eq_some_iff] at hsame
    obtain ⟨o', ho', heq⟩ := hsame
    rw [blindedOutcome, blindedOutcome, Outcome.mk.injEq] at heq
    obtain ⟨hstate, hsent, hverified, hresult⟩ := heq
    rw [ho']
    exact .some ⟨hsent.symm, hverified.symm, hresult.symm, hstate.symm⟩

/-- A DISCONNECT that hits the salt of another client does not show it. -/
theorem executeGameTurn_agree_foreign_salt :
    let data := disconnectDatagram 7
    Option.Rel (SameAnswer ⟨2, 1, 1⟩)
      (executeGameTurn {} ⟨[{ address := ⟨2, 2, 1⟩, connectionSalt := 7 }]⟩ data ⟨2, 1, 1⟩)
      (executeGameTurn {} ⟨[{ address := ⟨2, 2, 1⟩, connectionSalt := 8 }]⟩ data ⟨2, 1, 1⟩) :=
  executeGameTurn_agree {} _ rfl

end RocketGame.SaltConfidentiality
