import RocketGame.Runs
import RocketGame.BigEndian
import RocketGame.FirstMatch
import RocketGame.Windows
import RocketGame.Additions
import RocketGame.BoundedFifo
import RocketGame.IdleCounter
import RocketGame.ShiftRegister
import RocketGame.RegisterPolynomials
import RocketGame.LabelledTables
import RocketGame.Words
import RocketGame.CheckedArithmetic
import RocketGame.Since
import RocketGame.RunningMaxima
import RocketGame.Countdown
import RocketGame.Pacing
import RocketGame.Unwinding
import RocketGame.NearestIndex
import RocketGame.Binary32
import RocketGame.WhileLoops
import RocketGame.Crc32
import RocketGame.Packets
import RocketGame.PlayerStates
import RocketGame.NetworkUtilities
import RocketGame.Channels
import RocketGame.Server
import RocketGame.Client
import RocketGame.ServerProgram
import RocketGame.ClientProgram
import RocketGame.PacketFields
import RocketGame.PlayerListCodec
import RocketGame.BurstErrors
import RocketGame.CrcCorrectness
import RocketGame.PlayerTable
import RocketGame.DatagramSafety
import RocketGame.HandshakeMessages
import RocketGame.GameMessages
import RocketGame.Turns
import RocketGame.PlayerIdentity
import RocketGame.Recoverability
import RocketGame.ConnectionExchange
import RocketGame.SendFailure
import RocketGame.SequenceNumbers
import RocketGame.InputDelivery
import RocketGame.LatePackets
import RocketGame.Rollback
import RocketGame.ClientPrediction
import RocketGame.PhysicsSimulation
import RocketGame.HeadingLoops
import RocketGame.WorldBounds
import RocketGame.AckExchange
import RocketGame.Link
import RocketGame.SequenceTracking
import RocketGame.AckSoundness
import RocketGame.AckBits
import RocketGame.AckCoverage
import RocketGame.StoredAcks
import RocketGame.SendRetention
import RocketGame.SendHistory
import RocketGame.ServerWindows
import RocketGame.ClientAcks
import RocketGame.RecordMaps
import RocketGame.Trimming
import RocketGame.ScreenOrder
import RocketGame.ClientIsolation
import RocketGame.Noninterference
import RocketGame.TableGrowth
import RocketGame.SessionProtection
import RocketGame.HandshakeGating
import RocketGame.SessionEnd
import RocketGame.SaltConfidentiality
import RocketGame.ClientSafety
import RocketGame.ConnectionOutcome
import RocketGame.HandshakeNetwork
import RocketGame.HandshakeAgreement
import RocketGame.SessionCheck
import RocketGame.ClockNetwork
import RocketGame.ClockPairing
import RocketGame.ClockAccuracy
import RocketGame.ClockOverflow
import RocketGame.IdleShutdown
import RocketGame.ClientTurns
import RocketGame.ClientMain
import RocketGame.Lockout
import RocketGame.GameSystem
import RocketGame.SilentGame
import RocketGame.GenuineSessions
import RocketGame.GameEnd
import RocketGame.GameWindow
import RocketGame.InputOrder
import RocketGame.DrawnStates
import RocketGame.InputRate
import RocketGame.WindowEnd
import RocketGame.RingQueue
import RocketGame.QueueCorrectness
import RocketGame.RocketShared
import RocketGame.RocketServer
import RocketGame.GameNetwork
import RocketGame.RelayCompleteness
import RocketGame.PacketRoundTrip
import RocketGame.LoopSurvival
import RocketGame.RelayRegistry
import RocketGame.RocketUpdate
import RocketGame.PreviousPacket
import RocketGame.OutgoingQueue
import RocketGame.ShotSending
import RocketGame.ShotReceiving
import RocketGame.FireFlags
import RocketGame.RocketMotion
import RocketGame.OtherRocketUpdate
import RocketGame.RelaySystem
import RocketGame.RelayOrder
import RocketGame.ShownShots
import RocketGame.ScreenBounds
