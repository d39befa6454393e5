import RfcMgr.GuardedRuns
import RfcMgr.LockFile
import RfcMgr.RfcCommon
import RfcMgr.Json
import RfcMgr.Exec
import RfcMgr.LastInsert
import RfcMgr.Hostif
import RfcMgr.Processor
import RfcMgr.ConfigData
import RfcMgr.Identity
import RfcMgr.Download
import RfcMgr.Apply
import RfcMgr.ApplyFrame
import RfcMgr.RequestRun
import RfcMgr.RequestPass
import RfcMgr.RunStateMachine
import RfcMgr.OwnResponse
import RfcMgr.FeatureFiles
import RfcMgr.PersistedFiles
import RfcMgr.ParamDecisions
import RfcMgr.StaleParams
import RfcMgr.KeptAccount
import RfcMgr.Redirection
import RfcMgr.KeyValueLines
import RfcMgr.Percent
import RfcMgr.RequestUrl
import RfcMgr.LocalStore
import RfcMgr.StoreSemaphore
import RfcMgr.VariableFile
import RfcMgr.FeatureEnabled
import RfcMgr.JsonText
import RfcMgr.HostifRequest
import RfcMgr.UpdateReports
import RfcMgr.AppliedResponse
import RfcMgr.UnchangedHash
import RfcMgr.RefusedWrites
import RfcMgr.CallHistory
import RfcMgr.Rbus
import RfcMgr.ResponseB
import RfcMgr.SuppressedParams
import RfcMgr.NotFound
import RfcMgr.RejectedResponse
import RfcMgr.IntegerParams
import RfcMgr.StoreFrame
import RfcMgr.StoreClear
import RfcMgr.StoreRewrite
import RfcMgr.IniLookup
import RfcMgr.LookupPriority
import RfcMgr.DefaultsMerge
import RfcMgr.ListFiles
import RfcMgr.HostifReply
import RfcMgr.ReadBuffer
import RfcMgr.ParseArgs
import RfcMgr.Calendar
import RfcMgr.Cron
import RfcMgr.CronJob
import RfcMgr.HashHeader
import RfcMgr.AdoptedIdentity
import RfcMgr.JsonOwnership
import RfcMgr.DeviceOnline
import RfcMgr.Forest
import RfcMgr.ArrayNode
import RfcMgr.UnchangedParams
import RfcMgr.Initialise
import RfcMgr.Lifetime
import RfcMgr.SyncProtocol
import RfcMgr.Manager
import RfcMgr.Tr181Utils
import RfcMgr.Crontab
import RfcMgr.GatewayRuns
import RfcMgr.Processes
import RfcMgr.Loopback
import RfcMgr.GatewayLife
