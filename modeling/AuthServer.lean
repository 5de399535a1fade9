import AuthServer.Lib.BitBlocks
import AuthServer.Lib.BitCipher
import AuthServer.Lib.BitText
import AuthServer.Lib.BlockHash
import AuthServer.Lib.CFormat
import AuthServer.Lib.CScan
import AuthServer.Lib.CText
import AuthServer.Lib.Comparison
import AuthServer.Lib.EventRuns
import AuthServer.Lib.Feedback
import AuthServer.Lib.Feistel
import AuthServer.Lib.Framing
import AuthServer.Lib.Holdings
import AuthServer.Lib.InputStream
import AuthServer.Lib.LinearMemory
import AuthServer.Lib.LinkedQueue
import AuthServer.Lib.OrderedMap
import AuthServer.Lib.PriorityQueue
import AuthServer.Lib.Md5
import AuthServer.Lib.Processes
import AuthServer.Lib.RangeTable
import AuthServer.Lib.RefPool
import AuthServer.Lib.Sha512
import AuthServer.Lib.Simulations
import AuthServer.Lib.SineTable
import AuthServer.Lib.SqlLiteral
import AuthServer.Lib.TickClock
import AuthServer.InAddr
import AuthServer.IOBuffer
import AuthServer.IPList
import AuthServer.IPListLines
import AuthServer.IPListFile
import AuthServer.Parser
import AuthServer.ParserLines
import AuthServer.ConfigFile
import AuthServer.ConfigLines
import AuthServer.ConfigPairs
import AuthServer.ConfigRemarks
import AuthServer.ConfigSettings
import AuthServer.Reactivation
import AuthServer.ConfigValues
import AuthServer.TokenLoops
import AuthServer.TokenPieces
import AuthServer.TokenRuns
import AuthServer.TokenBounds
import AuthServer.OutputQueue
import AuthServer.SocketReader
import AuthServer.StreamReader
import AuthServer.InteractiveReader
import AuthServer.InteractiveCommands
import AuthServer.ClientSocket
import AuthServer.LinkSockets
import AuthServer.ReconnectLinks
import AuthServer.LinkReferences
import AuthServer.WriteSide
import AuthServer.ReadBuffers
import AuthServer.WantedPackets
import AuthServer.AcceptEvents
import AuthServer.AccessLimit
import AuthServer.Assemble
import AuthServer.PacketCiphers
import AuthServer.PacketDeciphers
import AuthServer.KeySchedule
import AuthServer.Des
import AuthServer.DesBits
import AuthServer.Senders
import AuthServer.ClientVersion
import AuthServer.ClientPackets
import AuthServer.PacketReader
import AuthServer.PacketFields
import AuthServer.Sha512Impl
import AuthServer.PasswordHash
import AuthServer.LegacyPasswords
import AuthServer.MessageDigest
import AuthServer.RWLock
import AuthServer.MySQLConnection
import AuthServer.ConnectionString
import AuthServer.SqlPool
import AuthServer.SqlLogin
import AuthServer.SqlQueries
import AuthServer.GiftStatements
import AuthServer.QueueSizes
import AuthServer.ServerList
import AuthServer.WorldServers
import AuthServer.ServerBindings
import AuthServer.ServerRebinds
import AuthServer.ServerIds
import AuthServer.UserCounts
import AuthServer.ClientTimers
import AuthServer.ClientFrames
import AuthServer.WireOrder
import AuthServer.LogFiles
import AuthServer.Lib.RingBuffer
import AuthServer.LogWindow
import AuthServer.TimerQueue
import AuthServer.TimerReferences
import AuthServer.TimerShutdown
import AuthServer.Lib.FreeLists
import AuthServer.SlotPools
import AuthServer.SpinLock
import AuthServer.PoolSteps
import AuthServer.ClientRegistry
import AuthServer.ClientLifetimes
