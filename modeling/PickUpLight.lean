import PickUpLight.Theory.Machine
import PickUpLight.Theory.Roster
import PickUpLight.Theory.Program
import PickUpLight.Theory.Threads
import PickUpLight.Theory.Surroundings
import PickUpLight.Theory.Tickets
import PickUpLight.Theory.Frames
import PickUpLight.Theory.Loop
import PickUpLight.Theory.Longest
import PickUpLight.Theory.Decimal
import PickUpLight.Theory.Utf8
import PickUpLight.Ids.Snowflake
import PickUpLight.Pool.ThreadPool
import PickUpLight.Pool.Changes
import PickUpLight.Pool.Accounting
import PickUpLight.Pool.Slots
import PickUpLight.Pool.Wakeup
import PickUpLight.Pool.Shutdown
import PickUpLight.Heartbeat.Evaluator
import PickUpLight.Heartbeat.Sweep
import PickUpLight.Wire.Config
import PickUpLight.Wire.Transfer
import PickUpLight.Epoll.MyServer
import PickUpLight.Epoll.Framing
import PickUpLight.Boost.Session
import PickUpLight.Boost.Framing
import PickUpLight.Control.Json
import PickUpLight.Control.Effects
import PickUpLight.Control.NetPacketGenerator
import PickUpLight.Control.InitControl
import PickUpLight.Control.ReceiveFileControl
import PickUpLight.Control.SendInfoControl
import PickUpLight.Store.Database
import PickUpLight.Store.Registration
import PickUpLight.Store.VideoPush
import PickUpLight.Store.Histories
import PickUpLight.Store.Delivery
import PickUpLight.Boost.Requests
import PickUpLight.Epoll.Requests
import PickUpLight.Requests.Boundaries
import PickUpLight.Requests.Payloads
import PickUpLight.Requests.Uploads
import PickUpLight.Requests.Truncated
import PickUpLight.Control.JsonText
import PickUpLight.Control.SendFileControl
import PickUpLight.Replies.Files
import PickUpLight.Replies.Descriptions
import PickUpLight.Replies.Sizes
import PickUpLight.Control.ModifyInfoControl
import PickUpLight.Replies.Agreement
import PickUpLight.Control.Dispatch
import PickUpLight.Epoll.Descriptors
import PickUpLight.Epoll.Ownership
import PickUpLight.Boost.Server
import PickUpLight.Boost.Streams
import PickUpLight.Epoll.Streams
import PickUpLight.Live.Outliving
import PickUpLight.Boost.Teardown
import PickUpLight.Epoll.Evictions
import PickUpLight.Epoll.Exits
import PickUpLight.Heartbeat.Rounds
import PickUpLight.Sql.Lexer
import PickUpLight.Sql.Syntax
import PickUpLight.Sql.Template
import PickUpLight.Sql.Meaning
import PickUpLight.Store.MySql
import PickUpLight.Store.Serving
import PickUpLight.Store.Toggles
import PickUpLight.Store.Likes
import PickUpLight.Store.Follows
import PickUpLight.Store.Publishers
import PickUpLight.Store.Chats
import PickUpLight.Store.Files
import PickUpLight.Store.Uploads
import PickUpLight.Store.Deletions
import PickUpLight.Store.Texts
import PickUpLight.Store.Renames
import PickUpLight.Ids.Collisions
import PickUpLight.Store.Accounts
import PickUpLight.Replies.Answered
import PickUpLight.Boost.Accepting
import PickUpLight.Requests.Containment
import PickUpLight.Wire.Loops
import PickUpLight.Library.Lexer
import PickUpLight.Library.Parser
import PickUpLight.Library.Serializer
import PickUpLight.Library.Escapes
import PickUpLight.Library.Integers
import PickUpLight.Library.Numbers
import PickUpLight.Library.Strings
import PickUpLight.Library.Tokens
import PickUpLight.Library.Grammar
import PickUpLight.Library.Values
import PickUpLight.Library.RoundTrip
import PickUpLight.Library.Zeros
import PickUpLight.Library.Bounds
import PickUpLight.Library.Nlohmann
import PickUpLight.Replies.ReadBack
import PickUpLight.Replies.Stream
import PickUpLight.Requests.Members
import PickUpLight.Requests.Refusals
import PickUpLight.Requests.Repertoire
import PickUpLight.Ids.Keys
