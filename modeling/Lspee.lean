import Lspee.Lib.Transition
import Lspee.Lib.Reaching
import Lspee.Lib.Table
import Lspee.Core.Json
import Lspee.Core.Control
import Lspee.Core.Framing
import Lspee.Core.Proxy
import Lspee.Core.Runtime
import Lspee.Core.Stream
import Lspee.Theory.Accounting
import Lspee.Theory.Termination
import Lspee.Theory.Binding
import Lspee.Theory.Disconnect
import Lspee.Theory.Singleflight
import Lspee.Theory.Eviction
import Lspee.Theory.Framing
import Lspee.Theory.Proxy
import Lspee.Theory.Outliving
import Lspee.Theory.Teardown
import Lspee.Theory.Routing
import Lspee.Lib.Ranking
import Lspee.Theory.Selection
import Lspee.Core.Serial
import Lspee.Theory.Idleness
import Lspee.Theory.Serial
import Lspee.Theory.Failure
import Lspee.Core.Connection
import Lspee.Core.Conversation
import Lspee.Theory.Responses
import Lspee.Core.Socket
import Lspee.Theory.Reachable
import Lspee.Core.Sharing
import Lspee.Theory.Isolation
import Lspee.Theory.Progress
import Lspee.Theory.Awaiting
import Lspee.Lib.Execution
import Lspee.Theory.Responding
import Lspee.Theory.Conversation
import Lspee.Theory.Answering
import Lspee.Theory.Dispatch
import Lspee.Theory.Returning
import Lspee.Theory.Snapshots
import Lspee.Theory.Outcome
import Lspee.Core.Notices
import Lspee.Core.Stopping
import Lspee.Theory.Custody
import Lspee.Theory.Stopping
import Lspee.Theory.Notices
import Lspee.Theory.Numbering
import Lspee.Core.Delivery
import Lspee.Theory.Delivery
import Lspee.Theory.Counters
import Lspee.Theory.Releases
import Lspee.Lib.Record
import Lspee.Core.Wire
import Lspee.Theory.Wire
import Lspee.Core.Fleet
import Lspee.Theory.Requests
import Lspee.Theory.Fleet
import Lspee.Theory.Queueing
import Lspee.Theory.Handshake
import Lspee.Theory.Linking
import Lspee.Theory.Forwarding
import Lspee.Core.Config
import Lspee.Core.Site
import Lspee.Theory.Provenance
import Lspee.Theory.Truncation
import Lspee.Theory.Lagging
import Lspee.Theory.Merging
import Lspee.Theory.Precedence
import Lspee.Core.Editing
import Lspee.Core.Commands
import Lspee.Theory.Editing
import Lspee.Core.AutoShutdown
import Lspee.Theory.AutoShutdown
import Lspee.Core.Expulsion
import Lspee.Theory.Expulsion
import Lspee.Core.Activity
import Lspee.Theory.Activity
import Lspee.Core.Locking
import Lspee.Lib.Locks
import Lspee.Theory.Locking
import Lspee.Core.Documents
import Lspee.Lib.Turns
import Lspee.Theory.Documents
import Lspee.Theory.Alternation
import Lspee.Theory.Likeness
import Lspee.Theory.Naming
import Lspee.Theory.Following
import Lspee.Theory.Independence
import Lspee.Theory.Commands
import Lspee.Theory.Removal
import Lspee.Theory.Setting
import Lspee.Core.Discovery
import Lspee.Lib.Preference
import Lspee.Theory.Discovery
import Lspee.Lib.Lossy
import Lspee.Core.Hashing
import Lspee.Theory.Hashing
import Lspee.Theory.Interception
import Lspee.Theory.Classification
import Lspee.Core.Encoding
import Lspee.Theory.Sizes
import Lspee.Theory.Budget
import Lspee.Core.Enrichment
import Lspee.Theory.Enrichment
import Lspee.Core.Tunnel
import Lspee.Theory.Tunnel
import Lspee.Theory.Upstream
import Lspee.Lib.Passage
import Lspee.Theory.Downstream
import Lspee.Theory.History
import Lspee.Theory.Draining
