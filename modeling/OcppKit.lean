import OcppKit.Actions
import OcppKit.Basic
import OcppKit.Csms.Arrival
import OcppKit.Csms.Energy
import OcppKit.Csms.Ghosts
import OcppKit.Csms.MeterValues
import OcppKit.Csms.Pruning
import OcppKit.Decimal.Arithmetic
import OcppKit.Decimal.Comparison
import OcppKit.Decimal.Reading
import OcppKit.Decimal.RoundTrip
import OcppKit.Decimal.Rounding
import OcppKit.Decimal.Shift
import OcppKit.Engine.Agreement
import OcppKit.Engine.Attempts
import OcppKit.Engine.Backoff
import OcppKit.Engine.Basic
import OcppKit.Engine.BootGate
import OcppKit.Engine.BootTimer
import OcppKit.Engine.BootVerdict
import OcppKit.Engine.Capacity
import OcppKit.Engine.Drain
import OcppKit.Engine.FileFaults
import OcppKit.Engine.JournalSize
import OcppKit.Engine.RelayedWire
import OcppKit.Engine.Step
import OcppKit.Engine.TimerTable
import OcppKit.Engine.Unanswered
import OcppKit.Externals
import OcppKit.Ids
import OcppKit.Library.StepFunction
import OcppKit.Metering.PublicKey
import OcppKit.Repairs
import OcppKit.Rpc.Canonical
import OcppKit.Rpc.Error
import OcppKit.Rpc.Frame
import OcppKit.Rpc.Signed
import OcppKit.Rpc.SignedReference
import OcppKit.Rpc.SignedRoundTrip
import OcppKit.Station.AuthorizationCache
import OcppKit.Station.Authorizer
import OcppKit.Station.Composite
import OcppKit.Station.Configuration
import OcppKit.Station.EventStream
import OcppKit.Station.Gaps
import OcppKit.Station.Generation
import OcppKit.Station.StartEdge
import OcppKit.Station.WriteOnly
import OcppKit.Station.Writes
import OcppKit.Transport.Handshake
import OcppKit.Transport.Hexadecimal
import OcppKit.Transport.Profiles
import OcppKit.Transport.Upgrade
import OcppKit.Transport.Ws.Decoding
import OcppKit.Transport.Ws.Limit
import OcppKit.Transport.Ws.RoundTrip
