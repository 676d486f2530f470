import OpenirlSrt.Srtla.Isolation
import OpenirlSrt.Srtla.AckLedger
import OpenirlSrt.Srtla.WorkerTimers
import OpenirlSrt.Srtla.Keepalive
import OpenirlSrt.RcvBuffer.Accounting
import OpenirlSrt.RcvBuffer.ReadableRuns
import OpenirlSrt.RcvBuffer.Structure
import OpenirlSrt.Receiver.Completeness
import OpenirlSrt.Tsbpd.Time
import OpenirlSrt.RcvBuffer.Delivery
import OpenirlSrt.RcvBuffer.StreamRuns
import OpenirlSrt.Sender.SequenceNumbers
import OpenirlSrt.Sender.BoundedFifo
import OpenirlSrt.Receiver.NakPriority
import OpenirlSrt.Receiver.SingleEmitter
import OpenirlSrt.Crypto.SecuredRuns
import OpenirlSrt.Receiver.ArqRuns
import OpenirlSrt.Crypto.HeardRuns
import OpenirlSrt.Crypto.KeyStates
import OpenirlSrt.HaiCrypt.Keystreams
import OpenirlSrt.Handshake.Codec
import OpenirlSrt.Sender.Headers
import OpenirlSrt.Epoll
import OpenirlSrt.Group.Mirror
import OpenirlSrt.Handshake.Mss
import OpenirlSrt.Sender.RexmitRounds
import OpenirlSrt.Srtla.LinkChoice
import OpenirlSrt.Receiver.ReorderDistance
import OpenirlSrt.SeqNoLaws
import OpenirlSrt.Tsbpd.Drift
import OpenirlSrt.Fec.Layout
import OpenirlSrt.Group.Backup
