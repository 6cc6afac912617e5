import OpenSpy.Core.BufferQueue
import OpenSpy.Core.BufferReads
import OpenSpy.Core.EscapeJson
import OpenSpy.Core.GSPassword
import OpenSpy.Core.KVFields
import OpenSpy.Core.KVLines
import OpenSpy.Core.KVReader
import OpenSpy.Core.KVTexts
import OpenSpy.Core.MaskMeaning
import OpenSpy.Core.NetPeer
import OpenSpy.Core.PeerLife
import OpenSpy.FESL.Cached
import OpenSpy.FESL.Framing
import OpenSpy.FESL.Replies
import OpenSpy.FESL.UpdateAccount
import OpenSpy.GP.KVProcessor
import OpenSpy.GP.Session
import OpenSpy.GameStats.AuthReplies
import OpenSpy.GameStats.Callbacks
import OpenSpy.GameStats.GSPeer
import OpenSpy.GameStats.GameUpdates
import OpenSpy.GameStats.PersistOrder
import OpenSpy.GameStats.ProfileLookups
import OpenSpy.GameStats.SetPersist
import OpenSpy.Natneg.Decode
import OpenSpy.Natneg.Leaks
import OpenSpy.Peerchat.AddressNodes
import OpenSpy.Peerchat.AddressVisibility
import OpenSpy.Peerchat.BanMasks
import OpenSpy.Peerchat.ChannelKeys
import OpenSpy.Peerchat.ChannelNames
import OpenSpy.Peerchat.ChannelUserKeys
import OpenSpy.Peerchat.Crypt
import OpenSpy.Peerchat.Flood
import OpenSpy.Peerchat.Gag
import OpenSpy.Peerchat.Invisible
import OpenSpy.Peerchat.JoinGates
import OpenSpy.Peerchat.KeyDatabase
import OpenSpy.Peerchat.LineReader
import OpenSpy.Peerchat.ModeLine
import OpenSpy.Peerchat.ModePermissions
import OpenSpy.Peerchat.NickOwners
import OpenSpy.Peerchat.Password
import OpenSpy.Peerchat.Replies
import OpenSpy.Peerchat.TaskEnds
import OpenSpy.Peerchat.TemporaryUsermodes
import OpenSpy.Peerchat.UsermodeCache
import OpenSpy.Peerchat.UsermodeList
import OpenSpy.QR.ClearCustKeys
import OpenSpy.QR.HeartbeatFormat
import OpenSpy.QR.V1Heartbeat
import OpenSpy.QR.Visibility
import OpenSpy.Search.SMPeer
import OpenSpy.ServerBrowsing.CryptSession
import OpenSpy.ServerBrowsing.Driver
import OpenSpy.ServerBrowsing.Enctype1
import OpenSpy.ServerBrowsing.FilterCompare
import OpenSpy.ServerBrowsing.FilterLexer
import OpenSpy.ServerBrowsing.FilterTree
import OpenSpy.ServerBrowsing.ListRun
import OpenSpy.ServerBrowsing.PendingRequests
import OpenSpy.ServerBrowsing.PlayerTables
import OpenSpy.ServerBrowsing.RowHeader
import OpenSpy.ServerBrowsing.ServerInfo
import OpenSpy.ServerBrowsing.V1Replies
import OpenSpy.ServerBrowsing.V1Validation
import OpenSpy.ServerBrowsing.V2Stream
import OpenSpy.SharedTasks.Records
import OpenSpy.UTMaster.FilterExact
import OpenSpy.UTMaster.HeartbeatFormat
import OpenSpy.UTMaster.HeartbeatReader
import OpenSpy.UTMaster.ListAnswer
import OpenSpy.UTMaster.Session
