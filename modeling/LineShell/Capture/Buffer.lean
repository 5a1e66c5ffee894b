/-
The buffer that captured output grows in.

A buffer stores its content with one NUL byte behind it, and its room is counted with that byte. Room starts at
`initialCapacity` and is doubled until new content fits; it is never given back while the buffer lives. The type keeps
the facts that the NUL is there and that everything fits.
-/
import LineShell.Text.Quoted
import LineShell.Text.Utf8

namespace LineShell

namespace CaptureBuffer

/-- the room of a new buffer -/
def initialCapacity : Nat := 256

/-- `capacity`, doubled until it reaches `needed` -/
def doubled (needed capacity : Nat) : Nat :=
  if 0 < capacity ∧ capacity < needed then doubled needed (2 * capacity) else capacity
termination_by needed - capacity
decreasing_by omega

theorem needed_le_doubled (needed : Nat) {capacity : Nat} (h : 0 < capacity) : needed ≤ doubled needed capacity := by
  fun_induction doubled needed capacity with
  | case1 c hc ih => exact ih (by omega)
  | case2 c hc => omega

theorem le_doubled (needed capacity : Nat) : capacity ≤ doubled needed capacity := by
  fun_induction doubled needed capacity with
  | case1 c hc ih => omega
  | case2 c hc => omega

/-- the room of a buffer that has room `capacity` and is to hold `needed` bytes -/
def roomFor (needed capacity : Nat) : Nat :=
  if capacity < needed then doubled needed (max capacity initialCapacity) else capacity

theorem needed_le_roomFor (needed capacity : Nat) : needed ≤ roomFor needed capacity := by
  unfold roomFor
  split
  · exact needed_le_doubled _ (Nat.lt_of_lt_of_le (by decide) (Nat.le_max_right _ _))
  · omega

end CaptureBuffer

/-- captured output -/
structure CaptureBuffer where
  /-- the content and the NUL behind it -/
  stored : Array UInt8
  capacity : Nat
  /-- a NUL lies behind the content -/
  terminated : stored.back? = some 0
  /-- content and NUL fit -/
  fits : stored.size ≤ capacity
  deriving DecidableEq, Repr

namespace CaptureBuffer

/-- a new buffer -/
def empty : CaptureBuffer := ⟨#[0], initialCapacity, rfl, Nat.le_add_left 1 255⟩

instance : Inhabited CaptureBuffer := ⟨empty⟩

/-- the NUL is always there, so that a length can be told without it -/
theorem size_pos (b : CaptureBuffer) : 0 < b.stored.size := by
  have h := b.terminated
  cases hsize : b.stored.size with
  | zero => simp [Array.size_eq_zero_iff.1 hsize] at h
  | succ n => omega

/-- how many bytes of content there are -/
def length (b : CaptureBuffer) : Nat := b.stored.size - 1

def isEmpty (b : CaptureBuffer) : Bool := b.length == 0

/-- the content -/
def bytes (b : CaptureBuffer) : Bytes := b.stored.pop.toList

/-- the content and the NUL behind it -/
def bytesWithNul (b : CaptureBuffer) : Bytes := b.stored.toList

/-- the content as text -/
def text (b : CaptureBuffer) : String := Utf8.lossy b.bytes

/-- drop the content and keep the room -/
def clear (b : CaptureBuffer) : CaptureBuffer :=
  ⟨#[0], b.capacity, rfl, Nat.le_trans b.size_pos b.fits⟩

/-- add a chunk behind the content, where the NUL has been -/
def extend (b : CaptureBuffer) (chunk : Bytes) : CaptureBuffer :=
  ⟨(b.stored.pop ++ chunk).push 0, roomFor (b.stored.size + chunk.length) b.capacity, by simp, by
    have hpos := b.size_pos
    have hroom := needed_le_roomFor (b.stored.size + chunk.length) b.capacity
    have hsize : ((b.stored.pop ++ chunk).push 0).size = b.stored.size - 1 + chunk.length + 1 := by
      rw [Array.size_push, ← Array.length_toList, Array.toList_appendList, List.length_append, Array.length_toList,
        Array.size_pop]
    omega⟩

/-- the buffer as inspection shows it -/
def inspect (b : CaptureBuffer) : String := s!"CaptureBuffer({Text.inspect b.text})"

/-! ## what a buffer holds -/

/-- a buffer is its content, its NUL and its room -/
theorem ext {a b : CaptureBuffer} (hbytes : a.bytesWithNul = b.bytesWithNul) (hcapacity : a.capacity = b.capacity) :
    a = b := by
  obtain ⟨stored, capacity, _, _⟩ := a
  obtain ⟨stored', capacity', _, _⟩ := b
  obtain rfl : stored = stored' := Array.toList_inj.1 hbytes
  obtain rfl : capacity = capacity' := hcapacity
  rfl

/-- one NUL lies behind the content, and nothing else -/
theorem bytesWithNul_eq (b : CaptureBuffer) : b.bytesWithNul = b.bytes ++ [0] := by
  have h : b.stored.toList.getLast? = some 0 := by
    rw [Array.getLast?_toList]
    exact b.terminated
  obtain ⟨content, hcontent⟩ := List.getLast?_eq_some_iff.1 h
  rw [bytesWithNul, bytes, Array.toList_pop, hcontent, List.dropLast_concat]

theorem length_eq (b : CaptureBuffer) : b.length = b.bytes.length := by simp [length, bytes]

theorem size_stored (b : CaptureBuffer) : b.stored.size = b.bytes.length + 1 := by
  have h := congrArg List.length b.bytesWithNul_eq
  simpa [bytesWithNul] using h

/-! ## the content after each operation -/

theorem bytes_extend (b : CaptureBuffer) (chunk : Bytes) : (b.extend chunk).bytes = b.bytes ++ chunk := by
  simp [extend, bytes]

theorem capacity_extend (b : CaptureBuffer) (chunk : Bytes) :
    (b.extend chunk).capacity = roomFor (b.bytes.length + 1 + chunk.length) b.capacity := by
  have hcapacity : (b.extend chunk).capacity = roomFor (b.stored.size + chunk.length) b.capacity := rfl
  rw [hcapacity, size_stored]

end CaptureBuffer

end LineShell
