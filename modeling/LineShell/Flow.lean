/-
What a stream still has to give.

Most streams give some bytes and end. A few never end: such a stream gives some bytes and then repeats a cycle for ever,
and whoever reads it has to stop by itself.
-/
import LineShell.Text.Bytes

namespace LineShell

/-- the bytes that a stream gives: `bytes`, and then `cycle` again and again unless it is empty -/
structure Flow where
  bytes : Bytes := []
  cycle : Bytes := []
  deriving DecidableEq, Repr

namespace Flow

/-- a stream that gives these bytes and ends -/
def ofBytes (bs : Bytes) : Flow := { bytes := bs }

/-- a stream that repeats these bytes for ever -/
def repeating (cycle : Bytes) : Flow := { cycle }

/-- does the stream never end? -/
def isEndless (f : Flow) : Bool := !f.cycle.isEmpty

/-- the stream with its bytes written out far enough to give `n`, if it can -/
def unroll (f : Flow) (n : Nat) : Flow :=
  if f.cycle.isEmpty ∨ n ≤ f.bytes.length then f
  else
    let turns := (n - f.bytes.length + f.cycle.length - 1) / f.cycle.length
    { f with bytes := f.bytes ++ (List.replicate turns f.cycle).flatten }

/-- the first `n` bytes, or all there are -/
def take (f : Flow) (n : Nat) : Bytes := (f.unroll n).bytes.take n

/-- the stream behind its first `n` bytes -/
def drop (f : Flow) (n : Nat) : Flow :=
  let u := f.unroll n
  { u with bytes := u.bytes.drop n }

/-- one stream behind another; nothing is behind a stream that never ends -/
def append (f g : Flow) : Flow := if f.isEndless then f else { g with bytes := f.bytes ++ g.bytes }

instance : Append Flow := ⟨append⟩

end Flow

end LineShell
