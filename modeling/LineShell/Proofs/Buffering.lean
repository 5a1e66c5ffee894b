/-
What a capture buffer holds, and how much room it has.

A buffer is used by adding chunks, by clearing it, and by putting a new one in its place. Whatever was done, it holds
what has been added since it was last emptied, and one NUL behind that. Its room does depend on the past: it is the
least of the possible rooms that the largest content since the buffer was new fits in, with its NUL (`rooms`).

- `doubled_isLeast` / `roomFor_isLeast`: doubling stops at the least room that is enough.
- `extend_extend`: two chunks are added as one, room included. So `run_bytewise`: how bytes are cut into chunks makes no
  difference.
- `run_holds`: content, NUL and room behind any operations.
-/
import LineShell.Capture.Streams
import Mathlib.Data.List.DropRight
import Mathlib.Order.Bounds.Basic
import Mathlib.Tactic.Positivity
import Mathlib.Tactic.Ring

namespace LineShell.CaptureBuffer

/-! ## room -/

/-- the rooms that a buffer can have and that `needed` bytes fit in -/
def rooms (needed : Nat) : Set Nat := {c | (∃ k, c = initialCapacity * 2 ^ k) ∧ needed ≤ c}

/-- doubling stops at the first capacity that is enough -/
theorem doubled_isLeast (needed : Nat) {capacity : Nat} (h : 0 < capacity) :
    IsLeast {c | (∃ k, c = capacity * 2 ^ k) ∧ needed ≤ c} (doubled needed capacity) := by
  fun_induction doubled needed capacity with
  | case1 capacity hlt ih =>
    obtain ⟨⟨⟨k, hk⟩, hneeded⟩, hleast⟩ := ih (by omega)
    refine ⟨⟨⟨k + 1, by rw [hk]; ring⟩, hneeded⟩, ?_⟩
    rintro _ ⟨⟨j, rfl⟩, hj⟩
    -- the capacity itself is not enough, so that every one that is enough is a double
    obtain ⟨j, rfl⟩ : ∃ i, j = i + 1 := by
      cases j with
      | zero => simp at hj; omega
      | succ i => exact ⟨i, rfl⟩
    exact hleast ⟨⟨j, by ring⟩, hj⟩
  | case2 capacity hge =>
    refine ⟨⟨⟨0, by simp⟩, by omega⟩, ?_⟩
    rintro _ ⟨⟨j, rfl⟩, -⟩
    exact Nat.le_mul_of_pos_right _ (by positivity)

/-- a room that is the least for `m` bytes becomes the least for these and for `needed` bytes -/
theorem roomFor_isLeast {m capacity : Nat} (h : IsLeast (rooms m) capacity) (needed : Nat) :
    IsLeast (rooms (max m needed)) (roomFor needed capacity) := by
  obtain ⟨⟨⟨k, rfl⟩, hm⟩, hleast⟩ := h
  have hpos : 0 < initialCapacity * 2 ^ k := Nat.mul_pos (by decide) (by positivity)
  have hmax : max (initialCapacity * 2 ^ k) initialCapacity = initialCapacity * 2 ^ k :=
    max_eq_left (Nat.le_mul_of_pos_right _ (by positivity))
  unfold roomFor
  split
  · rename_i hlt
    rw [hmax]
    obtain ⟨⟨⟨j, hj⟩, hneeded⟩, hdoubled⟩ := doubled_isLeast needed hpos
    refine ⟨⟨⟨k + j, by rw [hj]; ring⟩, by omega⟩, ?_⟩
    rintro _ ⟨⟨i, rfl⟩, hi⟩
    have hki : k ≤ i := by
      by_contra hik
      have : initialCapacity * 2 ^ i ≤ initialCapacity * 2 ^ k :=
        Nat.mul_le_mul_left _ (Nat.pow_le_pow_right (by decide) (by omega))
      omega
    obtain ⟨d, rfl⟩ := Nat.exists_eq_add_of_le hki
    exact hdoubled ⟨⟨d, by ring⟩, by omega⟩
  · refine ⟨⟨⟨k, rfl⟩, by omega⟩, ?_⟩
    rintro c ⟨hc, hi⟩
    exact hleast ⟨hc, by omega⟩

/-- doubling further goes on where doubling has stopped -/
theorem doubled_doubled {m n : Nat} (h : m ≤ n) (capacity : Nat) :
    doubled n (doubled m capacity) = doubled n capacity := by
  fun_induction doubled m capacity with
  | case1 capacity hlt ih =>
    rw [ih]
    conv_rhs => rw [doubled, if_pos ⟨hlt.1, by omega⟩]
  | case2 capacity hge => rfl

theorem roomFor_roomFor {m n : Nat} (h : m ≤ n) (capacity : Nat) :
    roomFor n (roomFor m capacity) = roomFor n capacity := by
  have hle := le_doubled m (max capacity initialCapacity)
  unfold roomFor
  by_cases hm : capacity < m
  · have hn : capacity < n := by omega
    rw [if_pos hm, if_pos hn]
    split
    · rw [max_eq_left (by omega), doubled_doubled h]
    · -- the room that was enough for `m` bytes is already enough for `n` of them
      rename_i hge
      conv_rhs => rw [← doubled_doubled h, doubled, if_neg (by omega)]
  · rw [if_neg hm]

/-! ## adding chunks -/

theorem extend_nil (b : CaptureBuffer) : b.extend [] = b := by
  refine ext ?_ ?_
  · rw [bytesWithNul_eq, bytesWithNul_eq, bytes_extend, List.append_nil]
  · have hfits := b.fits
    rw [size_stored] at hfits
    rw [capacity_extend, roomFor, if_neg (by simp; omega)]

/-- two chunks are added as one -/
theorem extend_extend (b : CaptureBuffer) (c d : Bytes) : (b.extend c).extend d = b.extend (c ++ d) := by
  refine ext ?_ ?_
  · simp only [bytesWithNul_eq, bytes_extend, List.append_assoc]
  · simp only [capacity_extend, bytes_extend, List.length_append]
    rw [roomFor_roomFor (by omega)]
    congr 1
    omega

/-! ## operations -/

/-- something that is done with a buffer -/
inductive Operation where
  /-- a new buffer is put in its place -/
  | new
  | extend (chunk : Bytes)
  /-- a chunk comes through a stream without a callback -/
  | deliver (chunk : Bytes)
  | clear
  /-- it is given away, and a new one is put in its place -/
  | take
  deriving DecidableEq, Repr

namespace Operation

/-- the buffer behind an operation -/
def on (b : CaptureBuffer) : Operation → CaptureBuffer
  | new => empty
  | extend chunk => b.extend chunk
  | deliver chunk => (({ buffer := b } : Channel).deliver chunk).buffer
  | clear => b.clear
  | take => ({ buffer := b } : Channel).take.2.buffer

/-- the bytes that an operation adds -/
def added : Operation → Bytes
  | extend chunk => chunk
  | deliver chunk => chunk
  | _ => []

/-- does an operation put a new buffer in place? -/
def renews : Operation → Bool
  | new => true
  | take => true
  | _ => false

/-- does an operation drop the content? -/
def empties : Operation → Bool
  | clear => true
  | op => op.renews

/-- an operation that adds a chunk as operations that each add one of its bytes -/
def bytewise : Operation → List Operation
  | extend chunk => chunk.map fun byte => extend [byte]
  | deliver chunk => chunk.map fun byte => extend [byte]
  | op => [op]

theorem on_deliver (b : CaptureBuffer) (chunk : Bytes) : (deliver chunk).on b = b.extend chunk := by
  cases chunk with
  | nil => exact (extend_nil b).symm
  | cons byte rest => rfl

end Operation

/-- the buffer behind operations, the first of which was done with a new one -/
def run (ops : List Operation) : CaptureBuffer := ops.foldl Operation.on empty

/-- what has been added since the last operation that dropped the content -/
def content (ops : List Operation) : Bytes := (ops.rtakeWhile (!·.empties)).flatMap Operation.added

/-- the operations since the buffer was new -/
def life (ops : List Operation) : List Operation := ops.rtakeWhile (!·.renews)

/-- the lengths of what the buffer has held since it was new -/
def lengthsHeld (ops : List Operation) : Set Nat := {n | ∃ past, past <+: life ops ∧ (content past).length = n}

theorem run_concat (ops : List Operation) (op : Operation) : run (ops ++ [op]) = op.on (run ops) := by
  simp [run]

/-! ### cutting into chunks -/

theorem foldl_on_bytes (b : CaptureBuffer) (chunk : Bytes) :
    (chunk.map fun byte => Operation.extend [byte]).foldl Operation.on b = b.extend chunk := by
  induction chunk generalizing b with
  | nil => exact (extend_nil b).symm
  | cons byte rest ih =>
    rw [List.map_cons, List.foldl_cons, ih]
    exact extend_extend b [byte] rest

theorem foldl_on_bytewise (b : CaptureBuffer) (op : Operation) : op.bytewise.foldl Operation.on b = op.on b := by
  cases op with
  | extend chunk => exact foldl_on_bytes b chunk
  | deliver chunk => rw [Operation.on_deliver]; exact foldl_on_bytes b chunk
  | _ => rfl

/-- adding bytes one by one makes no difference -/
theorem run_bytewise (ops : List Operation) : run (ops.flatMap Operation.bytewise) = run ops := by
  unfold run
  rw [List.foldl_flatMap]
  congr 1
  funext b op
  exact foldl_on_bytewise b op

/-! ### content and room -/

theorem content_concat (ops : List Operation) (op : Operation) :
    content (ops ++ [op]) = if op.empties then [] else content ops ++ op.added := by
  unfold content
  rw [List.rtakeWhile_concat]
  cases op.empties <;> simp

theorem life_concat (ops : List Operation) (op : Operation) :
    life (ops ++ [op]) = if op.renews then [] else life ops ++ [op] := by
  unfold life
  rw [List.rtakeWhile_concat]
  cases op.renews <;> simp

theorem content_life (ops : List Operation) : content (life ops) = content ops := by
  induction ops using List.reverseRecOn with
  | nil => rfl
  | append_singleton ops op ih =>
    rw [life_concat, content_concat]
    cases hrenews : op.renews with
    | true =>
      have hempties : op.empties = true := by cases op <;> simp_all [Operation.empties, Operation.renews]
      rw [hempties]
      rfl
    | false =>
      rw [if_neg (by simp), content_concat, ih]

theorem bytes_on (b : CaptureBuffer) (op : Operation) :
    (op.on b).bytes = if op.empties then [] else b.bytes ++ op.added := by
  cases op with
  | extend chunk => exact bytes_extend b chunk
  | deliver chunk => rw [Operation.on_deliver]; exact bytes_extend b chunk
  | _ => rfl

theorem bytes_run (ops : List Operation) : (run ops).bytes = content ops := by
  induction ops using List.reverseRecOn with
  | nil => rfl
  | append_singleton ops op ih => rw [run_concat, bytes_on, ih, content_concat]

/-- an operation on a buffer that stays in place makes room for the new content -/
theorem capacity_on (b : CaptureBuffer) {op : Operation} (h : op.renews = false) :
    (op.on b).capacity = roomFor ((op.on b).bytes.length + 1) b.capacity := by
  have hadd : ∀ chunk, (b.extend chunk).capacity = roomFor ((b.extend chunk).bytes.length + 1) b.capacity := by
    intro chunk
    rw [capacity_extend, bytes_extend, List.length_append]
    congr 1
    omega
  cases op with
  | extend chunk => exact hadd chunk
  | deliver chunk => rw [Operation.on_deliver]; exact hadd chunk
  | clear =>
    have hroom : 0 < b.capacity := Nat.lt_of_lt_of_le b.size_pos b.fits
    exact (if_neg (Nat.not_lt.2 hroom)).symm
  | new => cases h
  | take => cases h

/-- the lengths that a buffer has held are those that it had held before, and the present one -/
theorem lengthsHeld_concat (ops : List Operation) {op : Operation} (h : op.renews = false) :
    lengthsHeld (ops ++ [op]) = insert (content (ops ++ [op])).length (lengthsHeld ops) := by
  have hcontent : content (life ops ++ [op]) = content (ops ++ [op]) := by
    rw [content_concat, content_concat, content_life]
  ext n
  simp only [lengthsHeld, life_concat, h, Bool.false_eq_true, if_false, List.prefix_concat_iff, Set.mem_ofPred_eq,
    Set.mem_insert_iff]
  constructor
  · rintro ⟨past, rfl | hpast, rfl⟩
    · exact .inl (by rw [hcontent])
    · exact .inr ⟨past, hpast, rfl⟩
  · rintro (rfl | ⟨past, hpast, rfl⟩)
    · exact ⟨_, .inl rfl, by rw [hcontent]⟩
    · exact ⟨past, .inr hpast, rfl⟩

/-- a buffer that has just been put in place has held nothing -/
theorem lengthsHeld_of_life_eq_nil {ops : List Operation} (h : life ops = []) : lengthsHeld ops = {0} := by
  ext n
  simp [lengthsHeld, h, content, eq_comm]

theorem empty_isLeast : IsLeast (rooms 1) empty.capacity := by
  refine ⟨⟨⟨0, rfl⟩, by decide⟩, ?_⟩
  rintro _ ⟨⟨k, rfl⟩, -⟩
  exact Nat.le_mul_of_pos_right _ (by positivity)

/-- the room is the least one that the largest content fits in with its NUL -/
theorem capacity_run (ops : List Operation) :
    ∃ largest, IsGreatest (lengthsHeld ops) largest ∧ IsLeast (rooms (largest + 1)) (run ops).capacity := by
  induction ops using List.reverseRecOn with
  | nil =>
    refine ⟨0, ?_, empty_isLeast⟩
    rw [lengthsHeld_of_life_eq_nil rfl]
    exact isGreatest_singleton
  | append_singleton ops op ih =>
    cases hrenews : op.renews with
    | true =>
      have hon : op.on (run ops) = empty := by cases op <;> first | rfl | cases hrenews
      refine ⟨0, ?_, ?_⟩
      · rw [lengthsHeld_of_life_eq_nil (by rw [life_concat, hrenews, if_pos rfl])]
        exact isGreatest_singleton
      · rw [run_concat, hon]
        exact empty_isLeast
    | false =>
      obtain ⟨largest, hlargest, hroom⟩ := ih
      refine ⟨max (content (ops ++ [op])).length largest, ?_, ?_⟩
      · rw [lengthsHeld_concat ops hrenews]
        exact hlargest.insert _
      · have hcapacity := capacity_on (run ops) hrenews
        rw [← run_concat, bytes_run] at hcapacity
        rw [hcapacity, max_comm, ← Nat.add_max_add_right]
        exact roomFor_isLeast hroom _

/-- a content that just fits, and one that just does not; the room that it takes is kept -/
example :
    (run [.extend (List.replicate 255 1)]).capacity = 256 ∧
    (run [.extend (List.replicate 256 1), .clear]).capacity = 512 := by
  decide +kernel

/-- **A buffer holds what was added since it was emptied.** Behind any operations it stores that, and exactly one NUL
behind it, so that its length can be told; and its room is the least one that the largest content since the buffer was
new fits in with its NUL. If the same bytes are added in other chunks, the buffer is the same, and its room, too. -/
theorem run_holds (ops : List Operation) :
    (run ops).bytesWithNul = content ops ++ [0] ∧
    0 < (run ops).stored.size ∧ (run ops).length = (content ops).length ∧
    (∃ largest, IsGreatest (lengthsHeld ops) largest ∧ IsLeast (rooms (largest + 1)) (run ops).capacity) ∧
    ∀ ops', ops'.flatMap Operation.bytewise = ops.flatMap Operation.bytewise → run ops' = run ops := by
  refine ⟨?_, (run ops).size_pos, ?_, capacity_run ops, fun ops' h => ?_⟩
  · rw [bytesWithNul_eq, bytes_run]
  · rw [length_eq, bytes_run]
  · calc run ops' = run (ops'.flatMap Operation.bytewise) := (run_bytewise ops').symm
      _ = run (ops.flatMap Operation.bytewise) := by rw [h]
      _ = run ops := run_bytewise ops

/-- Three bytes added as two chunks, and as three with an empty one among them, behind a content that was dropped. -/
theorem run_holds_rechunked :
    [Operation.extend [9], .clear, .deliver [1], .extend [], .deliver [2], .extend [3]].flatMap Operation.bytewise =
      [Operation.extend [9], .clear, .extend [1, 2], .deliver [3]].flatMap Operation.bytewise ∧
    run [.extend [9], .clear, .deliver [1], .extend [], .deliver [2], .extend [3]] =
      run [.extend [9], .clear, .extend [1, 2], .deliver [3]] ∧
    (run [.extend [9], .clear, .extend [1, 2], .deliver [3]]).bytesWithNul = [1, 2, 3, 0] := by
  obtain ⟨hstored, -, -, -, hrechunked⟩ := run_holds [.extend [9], .clear, .extend [1, 2], .deliver [3]]
  exact ⟨by decide, hrechunked _ (by decide), hstored⟩

end LineShell.CaptureBuffer
