import Stead.Account.Attempts
import Stead.Account.Blocks
import Stead.Account.Consents
import Stead.Account.Deletion
import Stead.Account.Delivery
import Stead.Account.Erasure
import Stead.Account.Steps
import Stead.Account.Tables
import Stead.Alerts.Cooldown
import Stead.Alerts.Evaluation
import Stead.Alerts.History
import Stead.Alerts.Rules
import Stead.Alerts.Scheduler
import Stead.Alerts.Service
import Stead.Alerts.Weekly
import Stead.Alerts.Weeks
import Stead.Calendar.Gregorian
import Stead.Calendar.Instants
import Stead.Collections.KeyedRows
import Stead.Collections.Newest
import Stead.Collections.Occurrences
import Stead.Collections.Owners
import Stead.Concurrency.Program
import Stead.Concurrency.RelyGuarantee
import Stead.Concurrency.Serial
import Stead.Concurrency.System
import Stead.Concurrency.Table
import Stead.Concurrency.Trace
import Stead.Dashboard.Bounds
import Stead.Dashboard.Doubles
import Stead.Dashboard.Engine
import Stead.Dashboard.Service
import Stead.Dashboard.Stability
import Stead.Envelopes.Formats
import Stead.Envelopes.RoundTrip
import Stead.Envelopes.Stored
import Stead.Goals.Endings
import Stead.Goals.Lifecycle
import Stead.Goals.Migrations
import Stead.Goals.Service
import Stead.Goals.Transactions
import Stead.Import.Adapters
import Stead.Import.Coverage
import Stead.Import.Csv
import Stead.Import.Grammar
import Stead.Import.Headers
import Stead.Import.Notation
import Stead.Import.Overflow
import Stead.Import.Parser
import Stead.Import.Preview
import Stead.Import.Provisional
import Stead.Import.Service
import Stead.Import.Union
import Stead.Mobile.Client
import Stead.Mobile.Forms
import Stead.Mobile.Logout
import Stead.Mobile.Money
import Stead.Mobile.Sessions
import Stead.Mobile.TokenStore
import Stead.Model.Api
import Stead.Model.AuthService
import Stead.Model.Call
import Stead.Model.Effects
import Stead.Model.Footprint
import Stead.Model.Logic
import Stead.Model.NotificationQueue
import Stead.Model.Schema
import Stead.Model.Semantics
import Stead.Model.Statement
import Stead.Model.Text
import Stead.Node.Observations
import Stead.Node.Runtime
import Stead.Numbers.Binary64
import Stead.Numbers.Numerals
import Stead.Otp.Budget
import Stead.Otp.Conflicts
import Stead.Otp.Consuming
import Stead.Otp.Enqueued
import Stead.Otp.Guesses
import Stead.Otp.Lifecycle
import Stead.Otp.Limits
import Stead.Otp.OneSession
import Stead.Otp.Promises
import Stead.Otp.Replays
import Stead.Otp.Requests
import Stead.Otp.Retiring
import Stead.Otp.Retries
import Stead.Otp.Rows
import Stead.Otp.Sent
import Stead.Otp.SignIns
import Stead.Otp.Superseded
import Stead.Otp.Texts
import Stead.Queue.Completion
import Stead.Queue.Deliveries
import Stead.Queue.Drain
import Stead.Queue.Fencing
import Stead.Queue.Jam
import Stead.Queue.Lease
import Stead.Queue.Redaction
import Stead.Relational.Rows
import Stead.Sessions.Atomicity
import Stead.Sessions.Attributes
import Stead.Sessions.Cap
import Stead.Sessions.Chain
import Stead.Sessions.Families
import Stead.Sessions.Logout
import Stead.Sessions.Protocol
import Stead.Sessions.Rotation
import Stead.Sessions.Rules
import Stead.Sessions.SignIn
import Stead.Sessions.Slot
import Stead.Sessions.Transactions
import Stead.Tenants.Bodies
import Stead.Tenants.Imports
import Stead.Tenants.Isolation
import Stead.Tenants.Patches
import Stead.Tenants.Preferences
import Stead.Tenants.Services
import Stead.Tenants.Tables
import Stead.Tenants.Transactions
import Stead.Tenants.TwoRuns
