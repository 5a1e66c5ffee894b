/-
What moving bytes moves.

A pump goes through the outcomes of its reads, and a feed through those of its writes, and each leaves off at the
first one that it cannot go on from. What has been moved before that stays moved. An interruption is none of these:
the read or the write is made once more, and nothing is lost or doubled by it.

- `pump_delivers`: the channel is passed exactly the chunks that were read before the reader stopped, and the answer
  tells how many bytes these are, or what the error was.
- `feed_eq`: a feed puts in what the writes take before the first that fails for good, and tells that failure only if
  not all of the payload was taken by then.
- `feed_then_pump`: what a feed puts in is what a pump delivers, however it is handed out in between.
-/
import LineShell.Proofs.Delivery
import Mathlib.Algebra.GroupWithZero.Nat
import Mathlib.Data.List.TakeDrop

namespace LineShell

/-! ## what has become of a channel -/

namespace Channel

/-- what has become of a channel that was passed chunks: its callback has been handed each of them, or its buffer
holds them all behind what was there -/
def Passed (before after : Channel) (chunks : List Bytes) : Prop :=
  match before.handed with
  | some old => after = { before with handed := some (old ++ chunks) }
  | none => after.handed = none ∧ after.buffer.bytes = before.buffer.bytes ++ chunks.flatten

theorem passed_foldl (c : Channel) {chunks : List Bytes} (hne : ∀ chunk ∈ chunks, chunk ≠ []) :
    c.Passed (chunks.foldl deliver c) chunks := by
  unfold Passed
  split
  · rename_i old hold
    exact foldl_deliver_some hold hne
  · rename_i hnone
    exact foldl_deliver_none hnone chunks

theorem Passed.gained {before after : Channel} {chunks : List Bytes} (h : before.Passed after chunks)
    (hne : ∀ chunk ∈ chunks, chunk ≠ []) : before.Gained after chunks.flatten := by
  unfold Passed at h
  unfold Gained
  split
  · rename_i old hold
    rw [hold] at h
    exact ⟨chunks, h, rfl, hne⟩
  · rename_i hnone
    rw [hnone] at h
    exact h

end Channel

/-! ## reading -/

namespace ReadOutcome

/-- does a reader stop with this outcome? -/
def stops : ReadOutcome → Bool
  | data bytes => bytes.isEmpty
  | interrupted => false
  | closed => true
  | failed _ => true

/-- the chunk that was read, if one was -/
def chunk? : ReadOutcome → Option Bytes
  | data bytes => if bytes.isEmpty then none else some bytes
  | _ => none

/-- the reads before the one with which a reader stops -/
def heard (reader : List ReadOutcome) : List ReadOutcome := reader.takeWhile (!·.stops)

/-- the chunks that are read before the reader stops -/
def chunksRead (reader : List ReadOutcome) : List Bytes := (heard reader).filterMap chunk?

/-- what is told of a reader that has handed out `total` bytes: an error that it stops with, else that number -/
def verdict (reader : List ReadOutcome) (total : Nat) : Except IoFault Nat :=
  match reader.find? stops with
  | some (failed fault) => .error fault
  | _ => .ok total

section

variable {o : ReadOutcome} {reader : List ReadOutcome}

theorem heard_of_stops (h : o.stops = true) (rest : List ReadOutcome) : heard (o :: rest) = [] := by
  simp [heard, h]

theorem heard_of_goes_on (h : o.stops = false) (rest : List ReadOutcome) : heard (o :: rest) = o :: heard rest := by
  simp [heard, h]

theorem verdict_of_goes_on (h : o.stops = false) (rest : List ReadOutcome) (total : Nat) :
    verdict (o :: rest) total = verdict rest total := by
  simp [verdict, h]

theorem ne_nil_of_mem_chunksRead {chunk : Bytes} (h : chunk ∈ chunksRead reader) : chunk ≠ [] := by
  obtain ⟨o, -, ho⟩ := List.mem_filterMap.1 h
  cases o with
  | data bytes =>
    cases bytes with
    | nil => cases ho
    | cons b bs =>
      obtain rfl := Option.some.inj ho
      exact List.cons_ne_nil b bs
  | _ => cases ho

theorem data_mem_of_mem_chunksRead {chunk : Bytes} (h : chunk ∈ chunksRead reader) : .data chunk ∈ reader := by
  obtain ⟨o, hmem, ho⟩ := List.mem_filterMap.1 h
  have hreader : o ∈ reader := (List.takeWhile_sublist _).subset hmem
  cases o with
  | data bytes =>
    simp only [chunk?] at ho
    split at ho
    · cases ho
    · obtain rfl := Option.some.inj ho
      exact hreader
  | _ => cases ho

end

end ReadOutcome

open ReadOutcome

/-- a pump that has `total` bytes behind it goes on to where its reader stops -/
theorem pumpFrom_eq (reader : List ReadOutcome) (channel : Channel) (total reads : Nat) :
    pumpFrom channel total reads reader =
      ⟨(chunksRead reader).foldl Channel.deliver channel, reads + (heard reader).length + 1,
        verdict reader (total + (chunksRead reader).flatten.length)⟩ := by
  induction reader generalizing channel total reads with
  | nil => rfl
  | cons o rest ih =>
    cases o with
    | data bytes =>
      cases bytes with
      | nil => rfl
      | cons b bs =>
        have hgoes : (ReadOutcome.data (b :: bs)).stops = false := rfl
        have hchunks : chunksRead (.data (b :: bs) :: rest) = (b :: bs) :: chunksRead rest := rfl
        rw [pumpFrom, if_neg (by simp), ih, hchunks, heard_of_goes_on hgoes, verdict_of_goes_on hgoes]
        simp only [List.foldl_cons, List.flatten_cons, List.length_append, List.length_cons, Pumped.mk.injEq, true_and]
        exact ⟨by omega, by congr 1; omega⟩
    | interrupted =>
      have hgoes : ReadOutcome.interrupted.stops = false := rfl
      have hchunks : chunksRead (.interrupted :: rest) = chunksRead rest := rfl
      rw [pumpFrom, ih, hchunks, heard_of_goes_on hgoes, verdict_of_goes_on hgoes, List.length_cons]
      congr 1
      omega
    | closed => rfl
    | failed fault => rfl

theorem pump_eq (reader : List ReadOutcome) (channel : Channel) :
    pump reader channel =
      ⟨(chunksRead reader).foldl Channel.deliver channel, (heard reader).length + 1,
        verdict reader (chunksRead reader).flatten.length⟩ := by
  rw [pump, pumpFrom_eq]
  simp only [Nat.zero_add]

/-- what stands behind the outcome with which a reader stops is not read -/
theorem pump_unread {before : List ReadOutcome} {stop : ReadOutcome} (hbefore : ∀ o ∈ before, (!o.stops) = true)
    (hstop : stop.stops = true) (rest : List ReadOutcome) (channel : Channel) :
    pump (before ++ stop :: rest) channel =
      ⟨(before.filterMap chunk?).foldl Channel.deliver channel, before.length + 1,
        verdict [stop] (before.filterMap chunk?).flatten.length⟩ := by
  have hheard : heard (before ++ stop :: rest) = before := by
    rw [heard, List.takeWhile_append_of_pos hbefore, ← heard, heard_of_stops hstop, List.append_nil]
  have hfind : (before ++ stop :: rest).find? stops = some stop :=
    List.find?_eq_some_iff_append.2 ⟨hstop, before, rest, rfl, hbefore⟩
  rw [pump_eq, chunksRead, hheard]
  simp only [verdict, hfind, List.find?_cons_of_pos hstop]

/-- **A pump delivers what was read before the stream ended.** It makes one read for each outcome up to the first that
is an end, a closed pipe or an error, and no more: what would have come later makes no difference. The channel has
then been passed one chunk for each read that gave something, in order, none of them empty or too long; so a callback
is handed what a buffer would hold. An error is told as such, and what was delivered before it stays; otherwise the
number of bytes is told. -/
theorem pump_delivers {reader : List ReadOutcome} (hsize : ∀ bytes, .data bytes ∈ reader → bytes.length ≤ readChunk)
    (channel : Channel) :
    channel.Passed (pump reader channel).channel (chunksRead reader) ∧
    (∀ chunk ∈ chunksRead reader, chunk ≠ [] ∧ chunk.length ≤ readChunk) ∧
    (pump reader channel).result = verdict reader (chunksRead reader).flatten.length ∧
    (pump reader channel).reads = (heard reader).length + 1 ∧
    ((∃ o ∈ reader, o.stops = true) → ∀ later,
      pump (reader.take (pump reader channel).reads ++ later) channel = pump reader channel) := by
  rw [pump_eq]
  refine ⟨channel.passed_foldl fun _ => ne_nil_of_mem_chunksRead, fun chunk h => ⟨ne_nil_of_mem_chunksRead h, ?_⟩,
    rfl, rfl, ?_⟩
  · exact hsize chunk (data_mem_of_mem_chunksRead h)
  · rintro ⟨o, ho, hstops⟩ later
    obtain ⟨stop, hfind⟩ := Option.isSome_iff_exists.1 (List.find?_isSome.2 ⟨o, ho, hstops⟩)
    obtain ⟨hstop, before, rest, rfl, hbefore⟩ := List.find?_eq_some_iff_append.1 hfind
    rw [← pump_eq, pump_unread hbefore hstop]
    have htake : (before ++ stop :: rest).take (before.length + 1) = before ++ [stop] := by
      rw [← List.singleton_append, ← List.append_assoc]
      exact List.take_left' (by simp)
    rw [htake, List.append_assoc, List.singleton_append, pump_unread hbefore hstop]

/-- a reader that fails between two chunks -/
def tripping : List ReadOutcome := [.data [1, 2], .interrupted, .data [3], .failed (.system 5), .data [4]]

/-- The callback has the chunks before the error, and the last read is never made. -/
theorem pump_delivers_tripping :
    (∀ bytes, .data bytes ∈ tripping → bytes.length ≤ readChunk) ∧
    Channel.callback.Passed (pump tripping .callback).channel [[1, 2], [3]] ∧
    (pump tripping .callback).reads = 4 ∧ (pump tripping .callback).result = .error (.system 5) := by
  have hsize : ∀ bytes, .data bytes ∈ tripping → bytes.length ≤ readChunk := by
    intro bytes h
    simp only [tripping, List.mem_cons, ReadOutcome.data.injEq, reduceCtorEq, List.not_mem_nil, or_false, false_or] at h
    rcases h with rfl | rfl | rfl <;> decide
  obtain ⟨hpassed, -, hresult, hreads, -⟩ := pump_delivers hsize .callback
  exact ⟨hsize, hpassed, hreads, hresult⟩

/-! ### readers that hand out given bytes -/

/-- a reader that hands out bytes in pieces, interrupted now and then, and ends behind the last of them -/
inductive HandsOut : List ReadOutcome → Bytes → Prop
  | exhausted : HandsOut [] []
  | ended (later : List ReadOutcome) : HandsOut (.data [] :: later) []
  | interrupted {reader : List ReadOutcome} {bytes : Bytes} :
      HandsOut reader bytes → HandsOut (.interrupted :: reader) bytes
  | piece {reader : List ReadOutcome} {piece bytes : Bytes} : piece ≠ [] → piece.length ≤ readChunk →
      HandsOut reader bytes → HandsOut (.data piece :: reader) (piece ++ bytes)

namespace HandsOut

variable {reader : List ReadOutcome} {bytes : Bytes}

/-- the pieces are what is read, and the reader stops at its end -/
theorem read (h : HandsOut reader bytes) :
    (chunksRead reader).flatten = bytes ∧ ∀ total, verdict reader total = .ok total := by
  induction h with
  | exhausted => exact ⟨rfl, fun _ => rfl⟩
  | ended later => exact ⟨rfl, fun _ => rfl⟩
  | interrupted _ ih => exact ih
  | @piece reader piece bytes hne _ _ ih =>
    have hgoes : (ReadOutcome.data piece).stops = false := by simpa [stops] using hne
    have hchunks : chunksRead (.data piece :: reader) = piece :: chunksRead reader := by
      simp [chunksRead, heard, stops, chunk?, hne]
    refine ⟨by rw [hchunks, List.flatten_cons, ih.1], fun total => ?_⟩
    rw [verdict_of_goes_on hgoes, ih.2]

/-- a pump delivers what is handed out, whatever the pieces -/
theorem pumped (h : HandsOut reader bytes) (channel : Channel) :
    (pump reader channel).result = .ok bytes.length ∧ channel.Gained (pump reader channel).channel bytes := by
  have hpassed : channel.Passed _ (chunksRead reader) := channel.passed_foldl fun _ => ne_nil_of_mem_chunksRead
  rw [pump_eq]
  refine ⟨?_, ?_⟩
  · rw [h.read.1]
    exact h.read.2 _
  · rw [← h.read.1]
    exact hpassed.gained fun _ => ne_nil_of_mem_chunksRead

theorem of_chunks (bytes : Bytes) : HandsOut ((chunks bytes).map .data) bytes := by
  fun_induction chunks bytes with
  | case1 => exact exhausted
  | case2 b bs ih =>
    have hcut : (b :: bs).take readChunk ++ bs.drop (readChunk - 1) = b :: bs :=
      List.take_append_drop readChunk (b :: bs)
    have hne : (b :: bs).take readChunk ≠ [] := List.cons_ne_nil b (bs.take (readChunk - 1))
    have hpiece := piece hne (List.length_take_le readChunk (b :: bs)) ih
    rw [hcut] at hpiece
    exact hpiece

/-- any bytes can be handed out -/
theorem ofBytes (bytes : Bytes) : HandsOut (ReadOutcome.ofBytes bytes) bytes := by
  unfold ReadOutcome.ofBytes
  split
  · rename_i hempty
    rw [List.isEmpty_iff.1 hempty]
    exact ended []
  · exact of_chunks bytes

end HandsOut

/-! ## writing -/

namespace WriteOutcome

/-- the most bytes that a write takes -/
def count : WriteOutcome → Nat
  | accepted n => n
  | _ => 0

/-- does a feed leave off at this outcome? -/
def fatal : WriteOutcome → Bool
  | accepted n => n == 0
  | interrupted => false
  | closed => true
  | failed _ => true

/-- what is told of a feed that has left off at this outcome -/
def tells : WriteOutcome → Except IoFault Unit
  | failed fault => .error fault
  | closed => .ok ()
  | _ => .error .writerFull

theorem tells_eq_ok_iff {w : WriteOutcome} : w.tells = .ok () ↔ w = .closed := by
  cases w <;> simp [tells]

/-- the writes before the one at which a feed leaves off -/
def granted (writer : List WriteOutcome) : List WriteOutcome := writer.takeWhile (!·.fatal)

/-- how many bytes they take -/
def room (writer : List WriteOutcome) : Nat := ((granted writer).map count).sum

/-- what a writer takes of a payload: all of it, if no write is fatal -/
def taken (payload : Bytes) (writer : List WriteOutcome) : Bytes :=
  match writer.find? fatal with
  | some _ => payload.take (room writer)
  | none => payload

/-- what is told of a feed: what the fatal write says, if there was no room for all of the payload before it -/
def told (payload : Bytes) (writer : List WriteOutcome) : Except IoFault Unit :=
  match writer.find? fatal with
  | some w => if room writer < payload.length then w.tells else .ok ()
  | none => .ok ()

section

variable {w : WriteOutcome} {payload : Bytes} {writer : List WriteOutcome}

theorem room_of_fatal (h : w.fatal = true) (rest : List WriteOutcome) : room (w :: rest) = 0 := by
  simp [room, granted, h]

theorem room_of_goes_on (h : w.fatal = false) (rest : List WriteOutcome) : room (w :: rest) = w.count + room rest := by
  simp [room, granted, h]

theorem find?_of_goes_on (h : w.fatal = false) (rest : List WriteOutcome) :
    (w :: rest).find? fatal = rest.find? fatal := by
  simp [h]

theorem taken_nil (writer : List WriteOutcome) : taken [] writer = [] := by
  unfold taken
  split
  · exact List.take_nil
  · rfl

theorem told_nil (writer : List WriteOutcome) : told [] writer = .ok () := by
  unfold told
  split
  · exact if_neg (Nat.not_lt_zero _)
  · rfl

theorem taken_of_fatal (h : w.fatal = true) (payload : Bytes) (rest : List WriteOutcome) :
    taken payload (w :: rest) = [] := by
  simp [taken, h, room_of_fatal h]

theorem told_of_fatal (h : w.fatal = true) (hne : payload ≠ []) (rest : List WriteOutcome) :
    told payload (w :: rest) = w.tells := by
  have hlong : 0 < payload.length := List.length_pos_iff.2 hne
  simp [told, h, room_of_fatal h, hlong]

/-- a write that is not fatal takes its part, and the others what they take of the rest -/
theorem taken_of_goes_on (h : w.fatal = false) (payload : Bytes) (rest : List WriteOutcome) :
    taken payload (w :: rest) = payload.take w.count ++ taken (payload.drop w.count) rest := by
  simp only [taken, find?_of_goes_on h, room_of_goes_on h]
  split
  · exact List.take_add
  · exact (List.take_append_drop _ _).symm

theorem room_lt_of_goes_on (h : w.fatal = false) (payload : Bytes) (rest : List WriteOutcome) :
    room (w :: rest) < payload.length ↔ room rest < (payload.drop w.count).length := by
  rw [room_of_goes_on h, List.length_drop]
  omega

theorem told_of_goes_on (h : w.fatal = false) (payload : Bytes) (rest : List WriteOutcome) :
    told payload (w :: rest) = told (payload.drop w.count) rest := by
  simp only [told, find?_of_goes_on h, room_lt_of_goes_on h]

/-- all of a payload is taken exactly if there is room for it, or no write is fatal -/
theorem taken_ne_iff : taken payload writer ≠ payload ↔ room writer < payload.length ∧ (writer.find? fatal).isSome := by
  unfold taken
  cases writer.find? fatal with
  | none => simp
  | some w => simp [List.take_eq_self_iff]

end

end WriteOutcome

open WriteOutcome

/-- a feed whose next write is not fatal takes its part and goes on -/
theorem feedFrom_of_goes_on {w : WriteOutcome} (h : w.fatal = false) (received : Bytes) (writes : Nat) {pending : Bytes}
    (hne : pending ≠ []) (rest : List WriteOutcome) :
    feedFrom received writes pending (w :: rest) =
      feedFrom (received ++ pending.take w.count) (writes + 1) (pending.drop w.count) rest := by
  have hgo : pending.isEmpty = false := by simpa using hne
  cases w with
  | accepted n =>
    cases n with
    | zero => cases h
    | succ n => simp [feedFrom, hgo, count]
  | interrupted => simp [feedFrom, hgo, count]
  | closed => cases h
  | failed fault => cases h

/-- a feed whose next write is fatal leaves off -/
theorem feedFrom_of_fatal {w : WriteOutcome} (h : w.fatal = true) (received : Bytes) (writes : Nat) {pending : Bytes}
    (hne : pending ≠ []) (rest : List WriteOutcome) :
    feedFrom received writes pending (w :: rest) = ⟨received, writes + 1, w.tells⟩ := by
  have hgo : pending.isEmpty = false := by simpa using hne
  cases w with
  | accepted n =>
    cases n with
    | zero => simp [feedFrom, hgo, tells]
    | succ n => cases h
  | interrupted => cases h
  | closed => simp [feedFrom, hgo, tells]
  | failed fault => simp [feedFrom, hgo, tells]

/-- a feed that has `pending` to put in goes on to where the writer fails for good, or all of it is taken -/
theorem feedFrom_eq (received : Bytes) (writes : Nat) (pending : Bytes) (writer : List WriteOutcome) :
    ∃ made, feedFrom received writes pending writer =
        ⟨received ++ taken pending writer, writes + made, told pending writer⟩ ∧
      (pending = [] → made = 0) ∧
      (.closed ∈ writer.take made ↔ room writer < pending.length ∧ writer.find? fatal = some .closed) := by
  induction writer generalizing received writes pending with
  | nil =>
    by_cases hempty : pending = []
    · exact ⟨0, by simp [feedFrom, hempty, taken, told], fun _ => rfl, by simp⟩
    · have hgo : pending.isEmpty = false := by simpa using hempty
      exact ⟨1, by simp [feedFrom, hgo, taken, told], fun h => absurd h hempty, by simp⟩
  | cons w rest ih =>
    by_cases hempty : pending = []
    · subst hempty
      exact ⟨0, by simp [feedFrom, taken_nil, told_nil], fun _ => rfl, by simp⟩
    have hlong : 0 < pending.length := List.length_pos_iff.2 hempty
    cases hfatal : w.fatal with
    | true =>
      refine ⟨1, ?_, fun h => absurd h hempty, ?_⟩
      · rw [feedFrom_of_fatal hfatal _ _ hempty, taken_of_fatal hfatal, told_of_fatal hfatal hempty, List.append_nil]
      · simp [hfatal, room_of_fatal hfatal, hlong, eq_comm]
    | false =>
      obtain ⟨made, hfeed, -, hmet⟩ := ih (received ++ pending.take w.count) (writes + 1) (pending.drop w.count)
      refine ⟨made + 1, ?_, fun h => absurd h hempty, ?_⟩
      · rw [feedFrom_of_goes_on hfatal _ _ hempty, hfeed, taken_of_goes_on hfatal, told_of_goes_on hfatal,
          List.append_assoc, Nat.add_assoc, Nat.add_comm 1 made]
      · have hthere : w ≠ .closed := by
          rintro rfl
          cases hfatal
        rw [room_lt_of_goes_on hfatal, find?_of_goes_on hfatal, ← hmet, List.take_succ_cons, List.mem_cons]
        exact or_iff_right fun h => hthere h.symm

/-- the outcomes of the writes that a feed has made; those of a writer that has run out take everything -/
def Fed.met (f : Fed) (writer : List WriteOutcome) : List WriteOutcome := writer.take f.writes

theorem feed_eq (payload : Bytes) (writer : List WriteOutcome) :
    (feed payload writer).received = taken payload writer ∧ (feed payload writer).result = told payload writer ∧
      (payload = [] → (feed payload writer).writes = 0) ∧
      (.closed ∈ (feed payload writer).met writer ↔
        room writer < payload.length ∧ writer.find? fatal = some .closed) := by
  obtain ⟨made, hfeed, hnone, hmet⟩ := feedFrom_eq [] 0 payload writer
  have hfed : feed payload writer = ⟨taken payload writer, made, told payload writer⟩ := by
    rw [feed, hfeed, List.nil_append, Nat.zero_add]
  rw [Fed.met, hfed]
  exact ⟨rfl, rfl, hnone, hmet⟩

/-- a feed ends well exactly if all was taken, or if the writer fails because nobody reads any more -/
theorem told_eq_ok_iff (payload : Bytes) (writer : List WriteOutcome) :
    told payload writer = .ok () ↔ taken payload writer = payload ∨ writer.find? fatal = some .closed := by
  by_cases hall : taken payload writer = payload
  · simp only [hall, true_or, iff_true]
    unfold told
    split
    · rename_i w hw
      have hroom : ¬ room writer < payload.length := fun hlt => taken_ne_iff.2 ⟨hlt, by simp [hw]⟩ hall
      rw [if_neg hroom]
    · rfl
  · obtain ⟨hroom, hsome⟩ := taken_ne_iff.1 hall
    obtain ⟨w, hw⟩ := Option.isSome_iff_exists.1 hsome
    simp [told, hw, hroom, hall, tells_eq_ok_iff]

/-- **What is fed in comes out.** Through partial writes and interruptions, a feed puts into the writer what this
takes before its first fatal outcome: a front of the payload, without gaps and without doubling, and all of it if no
outcome is fatal. It ends well exactly if that is the whole payload, or if the first fatal outcome is that nobody
reads any more; and with no payload it does not write. Handed out in whatever pieces, what was put in is what a pump
delivers; so the payload is, if the feed ended well and found its reader there. -/
theorem feed_then_pump (payload : Bytes) (writer : List WriteOutcome) {reader : List ReadOutcome}
    (hout : HandsOut reader (feed payload writer).received) (channel : Channel) :
    let fed := feed payload writer
    let pumped := pump reader channel
    fed.received = taken payload writer ∧ fed.received <+: payload ∧
    (writer.find? fatal = none → fed.received = payload) ∧
    fed.result = told payload writer ∧
    (fed.result = .ok () ↔ fed.received = payload ∨ writer.find? fatal = some .closed) ∧
    (payload = [] → fed.writes = 0) ∧
    (.closed ∈ fed.met writer ↔ fed.received ≠ payload ∧ writer.find? fatal = some .closed) ∧
    pumped.result = .ok fed.received.length ∧ channel.Gained pumped.channel fed.received ∧
    (fed.result = .ok () → .closed ∉ fed.met writer →
      pumped.result = .ok payload.length ∧ channel.Gained pumped.channel payload) := by
  intro fed pumped
  obtain ⟨hreceived, htold, hnone, hmet⟩ := feed_eq payload writer
  obtain ⟨hresult, hgained⟩ := hout.pumped channel
  have hends : fed.result = .ok () ↔ fed.received = payload ∨ writer.find? fatal = some .closed := by
    rw [htold, hreceived]
    exact told_eq_ok_iff payload writer
  have hclosed : .closed ∈ fed.met writer ↔ fed.received ≠ payload ∧ writer.find? fatal = some .closed := by
    rw [hmet, hreceived, taken_ne_iff]
    refine ⟨fun ⟨hroom, hw⟩ => ⟨⟨hroom, by rw [hw]; rfl⟩, hw⟩, fun ⟨⟨hroom, _⟩, hw⟩ => ⟨hroom, hw⟩⟩
  refine ⟨hreceived, ?_, fun hgoes => ?_, htold, hends, hnone, hclosed, hresult, hgained, ?_⟩
  · rw [hreceived]
    unfold taken
    split
    · exact List.take_prefix _ _
    · exact List.prefix_rfl
  · rw [hreceived, taken, hgoes]
  · intro hok hthere
    have hall : fed.received = payload := by
      by_contra hcut
      rcases hends.1 hok with hwhole | hgone
      · exact hcut hwhole
      · exact hthere (hclosed.2 ⟨hcut, hgone⟩)
    rw [← hall]
    exact ⟨hresult, hgained⟩

/-- a writer that takes three bytes and is gone then -/
def brittle : List WriteOutcome := [.accepted 2, .interrupted, .accepted 1, .closed]

/-- Of four bytes the three that were taken come out, in other pieces; and all four, if the writer stays. -/
theorem feed_then_pump_pieces :
    HandsOut [.data [1], .interrupted, .data [2, 3]] (feed [1, 2, 3, 4] brittle).received ∧
    (feed [1, 2, 3, 4] brittle).received = [1, 2, 3] ∧ (feed [1, 2, 3, 4] brittle).result = .ok () ∧
    (pump [.data [1], .interrupted, .data [2, 3]] .buffered).result = .ok 3 ∧
    Channel.buffered.Gained (pump (ReadOutcome.ofBytes [1, 2, 3, 4]) .buffered).channel [1, 2, 3, 4] := by
  have hrest : HandsOut [.interrupted, .data [2, 3]] ([2, 3] ++ []) :=
    .interrupted (.piece (by decide) (by decide) .exhausted)
  have hout : HandsOut [.data [1], .interrupted, .data [2, 3]] (feed [1, 2, 3, 4] brittle).received :=
    HandsOut.piece (List.cons_ne_nil 1 []) (by decide) hrest
  obtain ⟨hreceived, -, -, -, hends, -, -, hpumped, -⟩ := feed_then_pump [1, 2, 3, 4] brittle hout .buffered
  obtain ⟨-, -, -, -, -, -, -, -, -, hall⟩ :=
    feed_then_pump [1, 2, 3, 4] (brittle.take 2) (.ofBytes [1, 2, 3, 4]) .buffered
  exact ⟨hout, hreceived, hends.2 (.inr (by decide)), hpumped, (hall rfl (by decide)).2⟩

/-- a reader that has gone before the first write is no error -/
example : feed [1] [.closed] = ⟨[], 1, .ok ()⟩ := rfl

end LineShell
