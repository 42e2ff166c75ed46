import LinuxPro.Lib.Machine
import LinuxPro.Lib.Flow
import LinuxPro.Lib.Fault
import LinuxPro.Lib.CString
import LinuxPro.Lib.Earlier
import LinuxPro.Lib.Exact
import LinuxPro.Lib.Buffer
import LinuxPro.Lib.Percent
import LinuxPro.Event.Bufferevent
import LinuxPro.Event.BuffereventLaws
import LinuxPro.Event.Loop
import LinuxPro.Event.LoopLaws
import LinuxPro.Proxy.Callbacks
import LinuxPro.Proxy.Effects
import LinuxPro.Proxy.Pair
import LinuxPro.Proxy.Phase
import LinuxPro.Proxy.Preserve
import LinuxPro.Proxy.Invariant
import LinuxPro.Proxy.Fidelity
import LinuxPro.Proxy.Lifetime
import LinuxPro.Proxy.Bound
import LinuxPro.Proxy.Dispatch
import LinuxPro.Proxy.Throttle
import LinuxPro.Proxy.Closing
import LinuxPro.Echo.Callbacks
import LinuxPro.Echo.Dispatch
import LinuxPro.Echo.Throttle
import LinuxPro.Tls.Server
import LinuxPro.Tls.Serving
import LinuxPro.Tls.Classify
import LinuxPro.Tls.Client
import LinuxPro.Http.Libevent
import LinuxPro.Http.Client
import LinuxPro.Http.ClientLaws
import LinuxPro.Http.Completion
import LinuxPro.Http.Accounting
import LinuxPro.Http.Redirect
import LinuxPro.Http.Query
import LinuxPro.Http.Target
import LinuxPro.Httpd.Handler
import LinuxPro.Httpd.Safety
import LinuxPro.Httpd.Decoding
import LinuxPro.Relay.Transfer
import LinuxPro.Relay.TransferLaws
import LinuxPro.Relay.Fidelity
import LinuxPro.Relay.Pending
import LinuxPro.Dns.Server
import LinuxPro.Dns.Answering
import LinuxPro.Mgr.Server
import LinuxPro.Mgr.Dispatch
import LinuxPro.Fifo.Reader
import LinuxPro.Receive.Printing
import LinuxPro.Lib.Bits
import LinuxPro.Lib.SortedMap
import LinuxPro.Lib.ByteReader
import LinuxPro.Lib.Streaming
import LinuxPro.Json.Value
import LinuxPro.Json.Double
import LinuxPro.Json.BinaryWriter
import LinuxPro.Json.BinaryReader
import LinuxPro.Json.BinaryLaws
import LinuxPro.Json.Cbor
import LinuxPro.Json.Msgpack
import LinuxPro.Json.Accepted
import LinuxPro.Json.Truncation
import LinuxPro.Json.CborForms
import LinuxPro.Lib.Utf8
import LinuxPro.Lib.Loop
import LinuxPro.Json.Grammar
import LinuxPro.Json.Lexer
import LinuxPro.Json.Spelling
import LinuxPro.Json.Numeral
import LinuxPro.Json.Scanning
import LinuxPro.Json.Parser
import LinuxPro.Json.Callback
import LinuxPro.Json.Settings
import LinuxPro.Json.Soundness
import LinuxPro.Json.Acceptance
import LinuxPro.Json.Fuel
import LinuxPro.Json.Parsing
import LinuxPro.Json.Serializer
import LinuxPro.Json.Escaping
import LinuxPro.Json.Dumping
