import ChatServer.Lib.OrderedDict
import ChatServer.Lib.Cursor
import ChatServer.Python.Uuid
import ChatServer.Python.Format
import ChatServer.Python.Json
import ChatServer.Domain.Completion
import ChatServer.Domain.UsageStats
import ChatServer.Domain.Llm
import ChatServer.Domain.Session
import ChatServer.Domain.SessionStep
import ChatServer.Conversation.History
import ChatServer.Accounting.Ledger
import ChatServer.Conversation.Anchor
import ChatServer.Conversation.RollingSummary
import ChatServer.Conversation.Cadence
import ChatServer.Lib.FileTree
import ChatServer.Lib.PathText
import ChatServer.Storage.ConfigLoader
import ChatServer.Storage.SessionFileAdapter
import ChatServer.Storage.Isolation
import ChatServer.Service.UseCases
import ChatServer.Accounting.Pricing
import ChatServer.Conversation.Reload
import ChatServer.Web.Handler
import ChatServer.Web.Stored
import ChatServer.Provider.LlmAdapter
import ChatServer.Web.HandlerStep
import ChatServer.Web.Occupancy
import ChatServer.Web.Answer
import ChatServer.Web.Client
import ChatServer.Web.ErrorHandling
import ChatServer.Web.Server
import ChatServer.Web.ServerStep
import ChatServer.Web.SingleStream
import ChatServer.Storage.Presence
import ChatServer.Web.Saving
import ChatServer.Web.Deletion
import ChatServer.Web.Recreation
import ChatServer.Storage.FailedCreation
import ChatServer.Storage.TornUpdate
import ChatServer.Storage.RawConfig
import ChatServer.Service.RawSession
import ChatServer.Web.Loading
import ChatServer.Conversation.Projection
import ChatServer.Web.ShownHistory
import ChatServer.Conversation.Chain
import ChatServer.Conversation.Turn
import ChatServer.Provider.PortContract
import ChatServer.Web.ClientSocket
import ChatServer.Conversation.SummaryPrompt
import ChatServer.Storage.ConfigCycle
import ChatServer.Python.JsonSchema
import ChatServer.Storage.SchemaModel
import ChatServer.Storage.NestedArrays
import ChatServer.Storage.SchemaDump
import ChatServer.Provider.LlmPortFactory
import ChatServer.Web.Creation
import ChatServer.Web.Registry
import ChatServer.Web.Sockets
import ChatServer.Web.TurnRecords
import ChatServer.Web.Display
import ChatServer.Web.Requests
import ChatServer.Web.Separation
import ChatServer.Web.Panel
import ChatServer.Web.Restart
import ChatServer.Web.Release
import ChatServer.Web.Calls
import ChatServer.Web.Books
import ChatServer.AppFactory
