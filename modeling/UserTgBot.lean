import UserTgBot.Library.Transition
import UserTgBot.Library.ReadCommitted
import UserTgBot.Library.PyText
import UserTgBot.Library.Lines
import UserTgBot.Library.Recency
import UserTgBot.Library.PyValue
import UserTgBot.Library.Dedup
import UserTgBot.Db.Models
import UserTgBot.Db.Queries
import UserTgBot.Sessions.Relink
import UserTgBot.Sessions.Phones
import UserTgBot.Connect.Tokens
import UserTgBot.Connect.ExpiryNotices
import UserTgBot.Connect.InitData
import UserTgBot.Connect.SessionConvert
import UserTgBot.Connect.CompleteSession
import UserTgBot.Userbot.MessageCache
import UserTgBot.Maintenance.Check
import UserTgBot.Maintenance.Fix
import UserTgBot.Maintenance.Healthy
import UserTgBot.Maintenance.Converge
import UserTgBot.Login.Manager
import UserTgBot.Login.Attempts
import UserTgBot.Userbot.Supervisor
import UserTgBot.Userbot.DeadSession
import UserTgBot.Payments.Tariffs
import UserTgBot.Payments.Subscriptions
import UserTgBot.Payments.Periods
import UserTgBot.Library.Loops
import UserTgBot.Userbot.Bookkeeping
import UserTgBot.Library.Noninterference
import UserTgBot.Userbot.Isolation
import UserTgBot.Library.OrderBy
import UserTgBot.Library.PyDateTime
import UserTgBot.Payments.Readers
import UserTgBot.Payments.Agreement
import UserTgBot.Payments.Gate
import UserTgBot.Login.Handlers
import UserTgBot.Library.Glob
import UserTgBot.Library.PaddedDecimal
import UserTgBot.Maintenance.Backup
import UserTgBot.Library.PyStr
import UserTgBot.Library.PyJson
import UserTgBot.Settings.Schema
import UserTgBot.Settings.Edits
import UserTgBot.Library.PyInt
import UserTgBot.Library.PyTime
import UserTgBot.Settings.Schedule
import UserTgBot.Connect.Issue
import UserTgBot.I18n.Choice
import UserTgBot.Library.IsoFormat
import UserTgBot.Maintenance.Sources
import UserTgBot.Maintenance.Restore
import UserTgBot.Maintenance.RowFiles
import UserTgBot.Maintenance.RowTables
import UserTgBot.Userbot.Autosave
import UserTgBot.Library.Utf8
import UserTgBot.Userbot.IgnoreChat
import UserTgBot.Library.SlidingWindow
import UserTgBot.Library.Upsert
import UserTgBot.Library.Spacing
import UserTgBot.Userbot.SendCooldown
import UserTgBot.Userbot.Autoresponder
import UserTgBot.Connect.InitDataErrors
import UserTgBot.Library.Rounding
import UserTgBot.Payments.Pricing
import UserTgBot.Library.PyDate
import UserTgBot.Db.CheckQuota
import UserTgBot.Maintenance.NullFill
import UserTgBot.Maintenance.Strategies
import UserTgBot.Bot.RateLimit
import UserTgBot.Bot.Routers
import UserTgBot.Connect.MiniappLogin
import UserTgBot.Bot.Blocking
import UserTgBot.Library.Html
import UserTgBot.Library.HtmlParser
import UserTgBot.Library.HtmlPlain
import UserTgBot.I18n.Texts
import UserTgBot.Userbot.Formatting
import UserTgBot.Userbot.Notices
import UserTgBot.Settings.Preview
import UserTgBot.Library.Ledger
import UserTgBot.Userbot.Captures
import UserTgBot.Userbot.CaptureLedger
import UserTgBot.Userbot.CaptureGates
import UserTgBot.Connect.MiniappPage
import UserTgBot.Connect.PageUsable
import UserTgBot.Connect.PageExpiry
import UserTgBot.Library.Base64
import UserTgBot.Connect.SessionExport
import UserTgBot.Payments.Sales
import UserTgBot.Library.JsonString
import UserTgBot.Library.JsonText
import UserTgBot.Library.TextFile
import UserTgBot.Maintenance.JsonFiles
import UserTgBot.Maintenance.Metrics
