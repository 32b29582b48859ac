import Capsaicin.Quic.Decoder
import Capsaicin.Quic.Encoder
import Capsaicin.Quic.RoundTrip
import Capsaicin.Quic.Trace
import Capsaicin.Quic.Alphabet
import Capsaicin.Quic.RunLength
import Capsaicin.Quic.Causality
import Capsaicin.Library.ByteCode
import Capsaicin.Library.Lz77
import Capsaicin.Lz.Decoder
import Capsaicin.Lz.Legal
import Capsaicin.Glz.Decoder
import Capsaicin.Glz.Legal
import Capsaicin.Proto.Common
import Capsaicin.Library.FlowControl
import Capsaicin.Proto.Main
import Capsaicin.Client.Events
import Capsaicin.Net.Message
import Capsaicin.Proto.Cursor
import Capsaicin.Proto.Image
import Capsaicin.Client.Flow
import Capsaicin.Client.Main
import Capsaicin.Client.Cursor
import Capsaicin.Library.Framing
import Capsaicin.Net.Channel
import Capsaicin.Client.InputsTask
import Capsaicin.Net.Delivery
import Capsaicin.Library.Duplex
import Capsaicin.Library.FrameLoop
import Capsaicin.Library.Script
import Capsaicin.Proto.Link
import Capsaicin.Net.Link
import Capsaicin.Net.Reached
import Capsaicin.Client.Bootstrap
import Capsaicin.Server.Bootstrap
import Capsaicin.Library.Leases
import Capsaicin.Server.Sessions
import Capsaicin.Library.Permits
import Capsaicin.Library.Phases
import Capsaicin.Client.Connect
import Capsaicin.Client.Reserved
import Capsaicin.Server.Capacity
import Capsaicin.Server.Established
import Capsaicin.Glz.Eviction
import Capsaicin.Library.Recency
import Capsaicin.Glz.Total
import Capsaicin.Wasm.GlzDecoder
import Capsaicin.Client.Extents
import Capsaicin.Client.Display
import Capsaicin.Client.Drawing
import Capsaicin.Client.Dictionary
import Capsaicin.Client.Carriers
import Capsaicin.Library.Erasure
import Capsaicin.Viewer.Framebuffer
import Capsaicin.Viewer.Paint
import Capsaicin.Client.PixelLayout
import Capsaicin.Library.InPlace
import Capsaicin.Viewer.CopyRect
import Capsaicin.Client.Steps
import Capsaicin.Client.DisplayFlow
import Capsaicin.Client.EventTrace
import Capsaicin.Client.StreamFrames
import Capsaicin.Client.SourceArea
import Capsaicin.Glz.Locality
import Capsaicin.Overlay
import Capsaicin.Quic.SingleChannel
import Capsaicin.Quic.Budget
import Capsaicin.Lz.Total
import Capsaicin.Quic.BitStream
import Capsaicin.Library.Counters
import Capsaicin.Quic.Counters
import Capsaicin.Quic.Cuts
import Capsaicin.Library.Codec
import Capsaicin.Proto.RoundTrip
import Capsaicin.Proto.Grammar
import Capsaicin.Proto.Chunks
import Capsaicin.Proto.Canonical
import Capsaicin.Library.LossyQueue
import Capsaicin.Library.Mailbox
import Capsaicin.Client.Mailbox
import Capsaicin.Viewer.Hostile
import Capsaicin.Viewer.Keys
import Capsaicin.Library.Canvas
import Capsaicin.Viewer.Canvas
import Capsaicin.Viewer.Redraw
import Capsaicin.Viewer.Survival
import Capsaicin.Net.Session
import Capsaicin.Client.InputsServer
import Capsaicin.Viewer.Guest
import Capsaicin.Client.Pointer
import Capsaicin.Client.Commands
import Capsaicin.Viewer.Desktop
import Capsaicin.Viewer.Pipeline
import Capsaicin.Library.Text
import Capsaicin.Net.Fingerprint
