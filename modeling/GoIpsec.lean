import GoIpsec.Lib.Go
import GoIpsec.Lib.Loop
import GoIpsec.Lib.Layout
import GoIpsec.Lib.Bits
import GoIpsec.Lib.AntiReplay
import GoIpsec.Lib.Crypto
import GoIpsec.Lib.Proc
import GoIpsec.Lib.Memory
import GoIpsec.Lib.Refine
import GoIpsec.Lib.Registry
import GoIpsec.Lib.Atomic
import GoIpsec.Lib.Counter
import GoIpsec.Lib.Retry
import GoIpsec.Lib.Stream
import GoIpsec.Ikemsg.Payload
import GoIpsec.Ikemsg.Message
import GoIpsec.Ikemsg.Bodies
import GoIpsec.Ikemsg.RoundTrip
import GoIpsec.Ikemsg.Lengths
import GoIpsec.Ikemsg.Extensions
import GoIpsec.Ikemsg.Safety
import GoIpsec.Esp.Replay
import GoIpsec.Esp.Shift
import GoIpsec.Esp.Packet
import GoIpsec.Esp.Trailer
import GoIpsec.Esp.Delivery
import GoIpsec.Esp.Safety
import GoIpsec.Esp.Concurrent
import GoIpsec.Ikesa.Keys
import GoIpsec.Ikesa.Agreement
import GoIpsec.Ikesa.Envelope
import GoIpsec.Session.Protected
import GoIpsec.Session.Authentic
import GoIpsec.Session.Suite
import GoIpsec.Session.Negotiation
import GoIpsec.Session.State
import GoIpsec.Session.Rekey
import GoIpsec.Session.Informational
import GoIpsec.Session.Machine
import GoIpsec.Session.Refinement
import GoIpsec.Session.Driver
import GoIpsec.Session.Actions
import GoIpsec.Session.History
import GoIpsec.Session.Window
import GoIpsec.Session.Replacement
import GoIpsec.Session.Acceptance
import GoIpsec.Session.Responder
import GoIpsec.Session.Outsider
import GoIpsec.Eap.Mschap
import GoIpsec.Auth.Auth
import GoIpsec.Session.Handshake
import GoIpsec.Session.SaInit
import GoIpsec.Session.Transcript
import GoIpsec.Session.IkeAuth
import GoIpsec.Session.Conversation
import GoIpsec.Session.AuthSteps
import GoIpsec.Session.AuthSound
import GoIpsec.Session.Identity
import GoIpsec.Session.Inserted
import GoIpsec.Session.Duplicated
import GoIpsec.Session.Injected
import GoIpsec.Session.Completion
import GoIpsec.Session.Correlation
import GoIpsec.Session.Exchange
import GoIpsec.Session.Pair
import GoIpsec.Session.Counterpart
import GoIpsec.Session.Legible
import GoIpsec.Session.Endpoints
import GoIpsec.Session.Encodable
import GoIpsec.Session.Supersede
import GoIpsec.Session.Progress
import GoIpsec.Session.Renewal
import GoIpsec.Session.Ticks
import GoIpsec.Session.Outstanding
import GoIpsec.Session.Liveness
import GoIpsec.Session.Silence
import GoIpsec.Session.Pfs
import GoIpsec.Session.Decoders
import GoIpsec.Session.Life
import GoIpsec.Session.Datagrams
import GoIpsec.Session.Headers
import GoIpsec.Session.Nonces
import GoIpsec.Ipsec.DataPlane
import GoIpsec.Ipsec.Lockstep
import GoIpsec.Ipsec.Demux
import GoIpsec.Ipsec.Ports
import GoIpsec.Ipsec.Passage
import GoIpsec.Ipsec.Lifecycle
import GoIpsec.Ipsec.Generations
import GoIpsec.Ipsec.Close
import GoIpsec.Ipsec.Deaths
import GoIpsec.Socks.Server
import GoIpsec.Socks.Dials
import GoIpsec.Socks.Relay
import GoIpsec.Socks.Listener
