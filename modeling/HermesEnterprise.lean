import HermesEnterprise.Foundation.Representatives
import HermesEnterprise.Foundation.Runs
import HermesEnterprise.Foundation.Tables
import HermesEnterprise.Foundation.Decimal
import HermesEnterprise.Approvals.Policy
import HermesEnterprise.Approvals.Payload
import HermesEnterprise.Approvals.Store
import HermesEnterprise.Jobs.Queue
import HermesEnterprise.Email.Outbox
import HermesEnterprise.Approvals.Progress
import HermesEnterprise.Approvals.Targets
import HermesEnterprise.Approvals.Finalization
import HermesEnterprise.Approvals.View
import HermesEnterprise.Approvals.Decide
import HermesEnterprise.Approvals.Revise
import HermesEnterprise.Approvals.Propose
import HermesEnterprise.Approvals.System
import HermesEnterprise.Approvals.Outcomes
import HermesEnterprise.Approvals.Counting
import HermesEnterprise.Approvals.Ledger
import HermesEnterprise.Approvals.Soundness
import HermesEnterprise.Approvals.Completion
import HermesEnterprise.Approvals.Lineage
import HermesEnterprise.Approvals.Owner
import HermesEnterprise.Approvals.Drift
import HermesEnterprise.Approvals.Standing
import HermesEnterprise.Approvals.Shown
import HermesEnterprise.Budgets.ApprovalBudget
import HermesEnterprise.Budgets.ApprovalSpending
import HermesEnterprise.Budgets.WatchBudget
import HermesEnterprise.Budgets.WatchSpending
import HermesEnterprise.Approvals.Replay
import HermesEnterprise.Approvals.Engaged
import HermesEnterprise.Email.SendJob
import HermesEnterprise.Email.Connection
import HermesEnterprise.Email.Settlement
import HermesEnterprise.Email.System
import HermesEnterprise.Drain.Queue
import HermesEnterprise.Drain.Pointers
import HermesEnterprise.Drain.Leases
import HermesEnterprise.RunLog.Validator
import HermesEnterprise.RunLog.History
import HermesEnterprise.RunLog.Page
import HermesEnterprise.RunLog.Engine
import HermesEnterprise.RunLog.Acceptance
import HermesEnterprise.Decisions.Routing
import HermesEnterprise.Decisions.Record
import HermesEnterprise.Decisions.System
import HermesEnterprise.Decisions.Quorum
import HermesEnterprise.Decisions.Presses
import HermesEnterprise.Decisions.Recorded
import HermesEnterprise.Decisions.Inbox
import HermesEnterprise.Decisions.CarriedOut
import HermesEnterprise.Recovery.Attempts
import HermesEnterprise.Keys.RotatedToken
import HermesEnterprise.Sweep.Orphans
import HermesEnterprise.Sweep.KeyMarks
import HermesEnterprise.Sweep.Refusals
import HermesEnterprise.Runtime.Exclusive
import HermesEnterprise.Runtime.StreamBuffer
import HermesEnterprise.Runtime.Delivered
import HermesEnterprise.Stream.Delivery
import HermesEnterprise.Inbound.Sanitized
import HermesEnterprise.Inbound.Hidden
import HermesEnterprise.Caps.RunCap
import HermesEnterprise.RunQueue.Promises
import HermesEnterprise.Calls.Answered
import HermesEnterprise.Calls.Waits
import HermesEnterprise.AgentCash.Paid
import HermesEnterprise.Keys.Rewrapped
import HermesEnterprise.Keys.Rotated
import HermesEnterprise.Providers.Bounded
import HermesEnterprise.Prompts.Voices
import HermesEnterprise.Prompts.Guidance
import HermesEnterprise.Engine.Successors
import HermesEnterprise.Engine.Parked
import HermesEnterprise.Storage.Pages
import HermesEnterprise.Watch.Alarms
import HermesEnterprise.Model.Replayed
import HermesEnterprise.Model.Frames
import HermesEnterprise.Model.Written
import HermesEnterprise.WarmPool.Capacity
import HermesEnterprise.WarmPool.Operations
import HermesEnterprise.WarmPool.System
import HermesEnterprise.WarmPool.Frames
import HermesEnterprise.WarmPool.Handed
import HermesEnterprise.WarmPool.Violated
import HermesEnterprise.Foundation.Exclusion
import HermesEnterprise.Members.Rows
import HermesEnterprise.Members.Admins
import HermesEnterprise.Members.LastAdmin
import HermesEnterprise.Members.Sync
import HermesEnterprise.Members.Revoked
import HermesEnterprise.Hubs.Tickets
import HermesEnterprise.Hubs.Sockets
import HermesEnterprise.Hubs.Heard
import HermesEnterprise.Security.Addresses
import HermesEnterprise.Security.Spellings
import HermesEnterprise.Security.Refused
import HermesEnterprise.Security.Fetch
import HermesEnterprise.Security.Fetched
import HermesEnterprise.Foundation.Occurrences
import HermesEnterprise.Triage.Prompt
import HermesEnterprise.Triage.Spotlit
import HermesEnterprise.Triage.Outside
import HermesEnterprise.Client.Session
import HermesEnterprise.Client.Reducer
import HermesEnterprise.Client.Events
import HermesEnterprise.Client.Retried
import HermesEnterprise.Client.Streamed
import HermesEnterprise.Client.Forward
import HermesEnterprise.Stops.Pressed
import HermesEnterprise.Foundation.Characters
import HermesEnterprise.Foundation.Numerals
import HermesEnterprise.Foundation.Base64
import HermesEnterprise.Foundation.Mail
import HermesEnterprise.Wallets.Quoted
import HermesEnterprise.Wallets.Intent
import HermesEnterprise.Wallets.Canonical
import HermesEnterprise.Wallets.Approved
import HermesEnterprise.Triage.Reads
import HermesEnterprise.Triage.Limited
import HermesEnterprise.Email.Message
import HermesEnterprise.Email.Reviewed
import HermesEnterprise.Email.Rows
import HermesEnterprise.Email.Steps
import HermesEnterprise.Email.Calls
import HermesEnterprise.Email.Authorized
import HermesEnterprise.Email.Lives
import HermesEnterprise.Model.Adapters
import HermesEnterprise.Model.Torn
import HermesEnterprise.Providers.JsonText
import HermesEnterprise.Model.Assembled
import HermesEnterprise.Model.Spoken
import HermesEnterprise.Continuations.Admission
import HermesEnterprise.Continuations.Operations
