import WindowSystem.Library.Substring
import WindowSystem.Library.Decimal
import WindowSystem.Library.BucketTable
import WindowSystem.Library.LabelledRun
import WindowSystem.Library.FrequencyCap
import WindowSystem.Library.StaleCopy
import WindowSystem.Library.TaggedText
import WindowSystem.Library.ChainHeap
import WindowSystem.Library.Block
import WindowSystem.CRuntime
import WindowSystem.ToolHashMap
import WindowSystem.DcGlobal
import WindowSystem.FilterRulePop
import WindowSystem.DataPassBack
import WindowSystem.UrlCode
import WindowSystem.FilterRuleMobile
import WindowSystem.UserCaps
import WindowSystem.SubscriberCaps
import WindowSystem.MqClientPopwin
import WindowSystem.MqCountRedisStore
import WindowSystem.Persistence
import WindowSystem.InstantSearchPop
import WindowSystem.MqMessageAnalysis
import WindowSystem.RulePopLoops
import WindowSystem.PassBackIdentity
import WindowSystem.FilterRuleJc
import WindowSystem.MqRadiusMessageAnalysis
import WindowSystem.Client.PktParser
import WindowSystem.Client.RequestGrammar
import WindowSystem.Client.RequestRanges
import WindowSystem.Client.WellFormedRequest
import WindowSystem.Client.MqClientPopwin
import WindowSystem.Client.GenerationCache
import WindowSystem.Client.FilterRuleUserClean
import WindowSystem.Client.FilterRuleTcpReassemble
import WindowSystem.Sspserver.JavaRuntime
import WindowSystem.Sspserver.Model
import WindowSystem.Sspserver.MediaFilter
import WindowSystem.Sspserver.PageHosts
import WindowSystem.Sspserver.Filters
import WindowSystem.Sspserver.AdRetrieval
import WindowSystem.Sspserver.AdSelection
import WindowSystem.Sspserver.AdChoices
import WindowSystem.Sspserver.ShownCounters
import WindowSystem.Sspserver.SiteTargeting
import WindowSystem.Sspserver.IpUaService
import WindowSystem.Library.Refill
import WindowSystem.Sspserver.DBInfoFresh
import WindowSystem.Library.ExpiringStore
import WindowSystem.Sspserver.DyAdService
import WindowSystem.Library.Interleaving
import WindowSystem.Library.KeptAmount
import WindowSystem.Statistics.Redis
import WindowSystem.Statistics.AdLogService
import WindowSystem.Statistics.RollOver
import WindowSystem.Statistics.AdStatInfo
import WindowSystem.Statistics.CounterRows
import WindowSystem.Statistics.Reports
import WindowSystem.Statistics.NHTStatService
import WindowSystem.Library.Exceptions
import WindowSystem.HidataFramework.RedisUtil
import WindowSystem.Statistics.TimerTasks
import WindowSystem.Library.SeparatedText
import WindowSystem.Library.InsertStatement
import WindowSystem.HidataFramework.BeanOperator
import WindowSystem.PopMessageText
import WindowSystem.TextCodes
import WindowSystem.SearchWords
import WindowSystem.SearchBuffers
import WindowSystem.Client.MqClientMobile
import WindowSystem.Client.FilterRulePop
import WindowSystem.ListFiles
import WindowSystem.InstantQueryContent
import WindowSystem.ContextMonitor
import WindowSystem.Sspserver.SizeAgreement
import WindowSystem.VfoxServer.CheckManage
import WindowSystem.Admanager.AdPlanManage
import WindowSystem.Library.FieldHash
import WindowSystem.Adserver.AdMaterialService
import WindowSystem.Adserver.IsPvNeed
import WindowSystem.Library.StagedCopy
import WindowSystem.Sspserver.DayLimit
import WindowSystem.Library.Transaction
import WindowSystem.Admanager.EditAdPlan
import WindowSystem.Library.IntervalSearch
import WindowSystem.HidataFramework.Search
import WindowSystem.Ip2address
import WindowSystem.HidataFramework.JavaNumbers
import WindowSystem.HidataFramework.IPCheck
import WindowSystem.HidataFramework.SpeedLimitUtil
import WindowSystem.Statistics.CounterKeys
import WindowSystem.HidataFramework.Map2Object
import WindowSystem.Library.Ancestry
import WindowSystem.Sspserver.LabelPaths
import WindowSystem.MqHttpWriteFile
import WindowSystem.Admanager.CrowdService
import WindowSystem.Sspserver.IpSearch
import WindowSystem.Library.SpacedGrants
import WindowSystem.SimpleCaps
import WindowSystem.PageTests
import WindowSystem.Client.RefererKeys
import WindowSystem.DcConfJc
import WindowSystem.ContainKey
import WindowSystem.Library.Tokens
import WindowSystem.KeywordSplit
import WindowSystem.Library.Refresh
import WindowSystem.DirProcess
import WindowSystem.PassBackTokens
import WindowSystem.Base64
import WindowSystem.Library.FirstSeen
import WindowSystem.Client.HostFilters
import WindowSystem.Sspserver.PushResult
import WindowSystem.Library.BatchedCount
import WindowSystem.Sspserver.OnlineMonitorUtil
import WindowSystem.HashMapNodes
import WindowSystem.Library.OnesComplement
import WindowSystem.Client.PktSender
import WindowSystem.Library.Outline
import WindowSystem.ZzConfig
import WindowSystem.ZzConfigText
import WindowSystem.Library.PathStore
import WindowSystem.ZzConfigPaths
import WindowSystem.Jieba.DictSegment
import WindowSystem.Library.BestPath
import WindowSystem.Jieba.FinalSeg
import WindowSystem.Jieba.WordDictionary
import WindowSystem.Jieba.JiebaSegmenter
import WindowSystem.Admanager.PlanPage
import WindowSystem.Admanager.PlanTargeting
import WindowSystem.Admanager.ShownAds
import WindowSystem.PopDispatch
