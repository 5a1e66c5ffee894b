/-
Moving bytes from a reader into a channel, and from memory into a writer.

A reader is the list of outcomes that its reads will have, a writer the list of outcomes that its writes will have; a
reader that has run out is at its end, a writer that has run out accepts everything. Both movers retry what was
interrupted, treat a closed pipe as an ordinary end, and stop at any other error.
-/
import LineShell.Capture.Streams
import LineShell.Failure

namespace LineShell

/-- the most bytes that one read returns -/
def readChunk : Nat := 4096

/-- bytes cut into chunks of at most `readChunk`, none of them empty -/
def chunks : Bytes → List Bytes
  | [] => []
  | b :: bs => (b :: bs).take readChunk :: chunks (bs.drop (readChunk - 1))
termination_by bs => bs.length
decreasing_by simp only [List.length_cons, List.length_drop]; omega

/-! ## reading -/

/-- the outcome of one read; no bytes means that the stream has ended -/
inductive ReadOutcome where
  | data (bytes : Bytes)
  | interrupted
  | closed
  | failed (fault : IoFault)
  deriving DecidableEq, Repr

/-- the reads in which a reader hands out `bytes`; nothing to hand out is itself a read -/
def ReadOutcome.ofBytes (bytes : Bytes) : List ReadOutcome :=
  if bytes.isEmpty then [.data []] else (chunks bytes).map .data

/-- what a pump has done: where the bytes went, how many reads it took, how it ended -/
structure Pumped where
  channel : Channel
  reads : Nat
  result : Except IoFault Nat

/-- `pump`, with `total` bytes moved in `reads` reads so far -/
def pumpFrom (channel : Channel) (total reads : Nat) : List ReadOutcome → Pumped
  | [] => ⟨channel, reads + 1, .ok total⟩
  | .data bytes :: rest =>
    if bytes.isEmpty then ⟨channel, reads + 1, .ok total⟩
    else pumpFrom (channel.deliver bytes) (total + bytes.length) (reads + 1) rest
  | .interrupted :: rest => pumpFrom channel total (reads + 1) rest
  | .closed :: _ => ⟨channel, reads + 1, .ok total⟩
  | .failed fault :: _ => ⟨channel, reads + 1, .error fault⟩

/-- read into a channel until the stream ends -/
def pump (reader : List ReadOutcome) (channel : Channel) : Pumped := pumpFrom channel 0 0 reader

/-! ## writing -/

/-- the outcome of one write -/
inductive WriteOutcome where
  /-- at most `count` bytes were taken -/
  | accepted (count : Nat)
  | interrupted
  | closed
  | failed (fault : IoFault)
  deriving DecidableEq, Repr

/-- what a feed has done: the bytes that were taken, how many writes it took, how it ended -/
structure Fed where
  received : Bytes
  writes : Nat
  result : Except IoFault Unit

/-- `feed`, with `received` bytes taken in `writes` writes so far and `pending` still to go -/
def feedFrom (received : Bytes) (writes : Nat) (pending : Bytes) : List WriteOutcome → Fed
  | [] => if pending.isEmpty then ⟨received, writes, .ok ()⟩ else ⟨received ++ pending, writes + 1, .ok ()⟩
  | w :: rest =>
    if pending.isEmpty then ⟨received, writes, .ok ()⟩
    else match w with
      | .accepted 0 => ⟨received, writes + 1, .error .writerFull⟩
      | .accepted n => feedFrom (received ++ pending.take n) (writes + 1) (pending.drop n) rest
      | .interrupted => feedFrom received (writes + 1) pending rest
      | .closed => ⟨received, writes + 1, .ok ()⟩
      | .failed fault => ⟨received, writes + 1, .error fault⟩

/-- write `bytes` until all are taken -/
def feed (bytes : Bytes) (writer : List WriteOutcome) : Fed := feedFrom [] 0 bytes writer

end LineShell
