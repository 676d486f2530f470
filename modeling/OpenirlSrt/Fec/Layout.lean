import OpenirlSrt.SeqNo

/-! # The column groups of the FEC filter -/

namespace OpenirlSrt.Fec
open CSeqNo List Nat Function

structure Clip where
  length : UInt16
  flag : UInt8
  timestamp : UInt32
  payload : List UInt8

structure Group where
  base : Int
  step : Nat
  drop : Nat
  collected : Nat
  clip : Clip

structure FecLayout where
  numberCols : Nat
  numberRows : Nat
  staircase : Bool
  payloadSize : Nat
  severalCols : 2 ≤ numberCols
  severalRows : 2 ≤ numberRows

namespace FecLayout
variable (l : FecLayout)

def sizeRow : Nat := l.numberCols

def sizeCol : Nat := l.numberRows

def configureGroup (seqno : Int) (gstep drop : Nat) : Group :=
  ⟨seqno, gstep, drop, 0, ⟨0, 0, 0, List.replicate l.payloadSize 0⟩⟩

def matrix : Nat := l.sizeCol * l.numberCols

def colStart (i : Nat) : Nat := if l.staircase then i + l.numberCols * (i % l.numberRows) else i

/-- The first position of the group of column `i` in series `s`. -/
def colPos (i s : Nat) : Nat := l.colStart i + l.matrix * s

def series (isn : Int) (s : Nat) : List Group :=
  (List.range l.numberCols).map fun i => l.configureGroup (wrap (isn + l.colPos i s)) l.sizeRow l.matrix

variable {l} {i n s : Nat}

section
variable (small : l.matrix < 0x80000000)
include small

end

variable {p : Nat}

end FecLayout

open FecLayout

def largest : FecLayout := ⟨0xFFFF, 0xFFFF, true, 1316, by decide, by decide⟩

end OpenirlSrt.Fec
