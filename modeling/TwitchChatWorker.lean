import TwitchChatWorker.SelectorPool
import TwitchChatWorker.StorageBatches
import TwitchChatWorker.SessionLifetime
import TwitchChatWorker.ChannelCoverage
import TwitchChatWorker.ChannelOwnership
import TwitchChatWorker.JoinedFlag
import TwitchChatWorker.JoinRetry
import TwitchChatWorker.ClientRegistry
import TwitchChatWorker.BotRouting
import TwitchChatWorker.RequestAnswers
import TwitchChatWorker.ByteQueue
import TwitchChatWorker.ConnectionPool
import TwitchChatWorker.ReconnectChain
import TwitchChatWorker.LoginTimeout
import TwitchChatWorker.BotLoaders
import TwitchChatWorker.StatisticsBalance
import TwitchChatWorker.BotReplies
import TwitchChatWorker.ChannelPolling
import TwitchChatWorker.UriRoundTrip
import TwitchChatWorker.LeavingChannels
import TwitchChatWorker.SessionSelection
import TwitchChatWorker.ChannelQuota
import TwitchChatWorker.RetryGuard
import TwitchChatWorker.DirectWrites
import TwitchChatWorker.AccountReports
import TwitchChatWorker.HandlerLoading
import TwitchChatWorker.StorageInserts
import TwitchChatWorker.PingSupervision
import TwitchChatWorker.BasicAuthentication
import TwitchChatWorker.SizeExpansion
import TwitchChatWorker.MemcpyRanges
import TwitchChatWorker.AuthorityForms
import TwitchChatWorker.RelativeResolution
import TwitchChatWorker.PathNormalization
import TwitchChatWorker.PercentCoding
import TwitchChatWorker.AccountLoaders
import TwitchChatWorker.SocketHandles
import TwitchChatWorker.TimerRuns
import TwitchChatWorker.HttpService
import TwitchChatWorker.MessageFlow
import TwitchChatWorker.SelectorLoops
import TwitchChatWorker.StorageMetrics
import TwitchChatWorker.IrcMetrics
import TwitchChatWorker.OutgoingMessages
import TwitchChatWorker.HttpNotifications
import TwitchChatWorker.BotLogs
import TwitchChatWorker.UriEquality
