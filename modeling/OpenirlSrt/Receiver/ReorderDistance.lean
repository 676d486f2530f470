import OpenirlSrt.Receiver.BelatedRecords

/-! # Reordered packets and the tolerance -/

namespace OpenirlSrt.Receiver
open CSeqNo Srtla LossList RcvBuffer Lib

variable {c c' : CUDT} {p : DataPacket} {secured : Bool} {now : TimePoint}

/-! ### Every event -/

end OpenirlSrt.Receiver
