/-
The two output streams of a call, kept apart.

Chunks come to a stream through its sink, and there are four routes to a sink. The route makes no difference, and what
is done with one stream never shows in the other: each channel is what its own deliveries, resets and takes make of it
(`channel_acts`), and only setting the payload changes the payload.

- `foldl_put`: putting chunks into sinks that were got before is delivering them.
- `Channel.handed_acts` / `Channel.kept_acts`: a channel with a callback hands on every chunk that is not empty and
  keeps nothing; one without keeps what has come since it was last emptied.
- `run_disciplined`: both channels and the payload behind any operations.
-/
import LineShell.Proofs.Interchange
import Mathlib.Data.List.DropRight

namespace LineShell

/-! ## one channel -/

namespace Channel

/-- something that is done with a channel -/
inductive Act where
  | deliver (chunk : Bytes)
  | reset
  | take
  deriving DecidableEq, Repr

namespace Act

/-- the channel behind an act -/
def on (c : Channel) : Act → Channel
  | deliver chunk => c.deliver chunk
  | reset => c.reset
  | take => c.take.2

/-- the chunk that an act passes on, if it is not empty -/
def chunk? : Act → Option Bytes
  | deliver chunk => if chunk.isEmpty then none else some chunk
  | _ => none

/-- does an act drop what the buffer holds? -/
def drops : Act → Bool
  | deliver _ => false
  | _ => true

end Act

/-- the chunks that acts pass on -/
def passed (acts : List Act) : List Bytes := acts.filterMap Act.chunk?

/-- what acts leave in a channel that was new: with a callback all chunks have been handed on and the buffer is empty,
without one the buffer holds the chunks since the last act that dropped something -/
def Disciplined (callback : Bool) (acts : List Act) (c : Channel) : Prop :=
  if callback then c.handed = some (passed acts).toArray ∧ c.buffer.bytes = []
  else c.handed = none ∧ c.buffer.bytes = (passed (acts.rtakeWhile (!·.drops))).flatten

theorem foldl_on_concat (c : Channel) (acts : List Act) (a : Act) :
    (acts ++ [a]).foldl Act.on c = a.on (acts.foldl Act.on c) := by
  rw [List.foldl_append]
  rfl

theorem passed_concat (acts : List Act) (a : Act) : passed (acts ++ [a]) = passed acts ++ a.chunk?.toList := by
  rw [passed, List.filterMap_append]
  cases h : a.chunk? <;> simp [passed, h]

/-- a channel with a callback hands every chunk on and keeps nothing -/
theorem handed_acts (acts : List Act) : Disciplined true acts (acts.foldl Act.on callback) := by
  rw [Disciplined, if_pos rfl]
  induction acts using List.reverseRecOn with
  | nil => exact ⟨rfl, rfl⟩
  | append_singleton acts a ih =>
    obtain ⟨hhanded, hbytes⟩ := ih
    rw [foldl_on_concat, passed_concat]
    cases a with
    | deliver chunk =>
      cases hempty : chunk.isEmpty with
      | true => simp [Act.on, Channel.deliver, Act.chunk?, hempty, hhanded, hbytes]
      | false => simp [Act.on, Channel.deliver, Act.chunk?, hempty, hhanded, hbytes]
    | reset => exact ⟨by simpa [Act.on, Channel.reset, Act.chunk?] using hhanded, rfl⟩
    | take => exact ⟨by simpa [Act.on, Channel.take, Act.chunk?] using hhanded, rfl⟩

/-- a channel without a callback keeps the chunks that have come since it was emptied -/
theorem kept_acts (acts : List Act) : Disciplined false acts (acts.foldl Act.on buffered) := by
  rw [Disciplined, if_neg Bool.false_ne_true]
  induction acts using List.reverseRecOn with
  | nil => exact ⟨rfl, rfl⟩
  | append_singleton acts a ih =>
    obtain ⟨hhanded, hbytes⟩ := ih
    rw [foldl_on_concat, List.rtakeWhile_concat]
    cases a with
    | deliver chunk =>
      rw [if_pos (show (!(Act.deliver chunk).drops) = true from rfl), passed_concat]
      cases hempty : chunk.isEmpty with
      | true => simp [Act.on, Channel.deliver, Act.chunk?, hempty, hhanded, hbytes]
      | false => simp [Act.on, Channel.deliver, Act.chunk?, hempty, hhanded, hbytes, CaptureBuffer.bytes_extend]
    | reset => exact ⟨hhanded, rfl⟩
    | take => exact ⟨hhanded, rfl⟩

theorem isSome_handed_deliver (c : Channel) (chunk : Bytes) : (c.deliver chunk).handed.isSome = c.handed.isSome := by
  unfold deliver
  split
  · rfl
  · split <;> simp_all

end Channel

/-! ## both streams -/

namespace Streams

/-- chunks put into two sinks, each into the one for its stream -/
def putAll (s : Streams) (out err : Sink) (chunks : List (Output × Bytes)) : Streams :=
  chunks.foldl (fun s c => s.put (match c.1 with | .stdout => out | .stderr => err) c.2) s

/-- something that is done with streams: chunks are put into sinks that were got by one of four routes, or something
else -/
inductive Operation where
  | viaStdout (chunks : List Bytes)
  | viaStderr (chunks : List Bytes)
  | viaSinks (chunks : List (Output × Bytes))
  | viaParts (chunks : List (Output × Bytes))
  | setStdin (payload : Option Bytes)
  | reset
  | take (o : Output)
  deriving DecidableEq, Repr

/-- the streams behind an operation -/
def Operation.on (s : Streams) : Operation → Streams
  | viaStdout chunks => chunks.foldl (fun t chunk => t.put s.stdoutSink chunk) s
  | viaStderr chunks => chunks.foldl (fun t chunk => t.put s.stderrSink chunk) s
  | viaSinks chunks => s.putAll s.sinks.1 s.sinks.2 chunks
  | viaParts chunks => s.putAll s.parts.stdout s.parts.stderr chunks
  | setStdin payload => s.setStdin payload
  | reset => s.reset
  | take o => (s.take o).2

/-- the streams behind operations -/
def run (s : Streams) (ops : List Operation) : Streams := ops.foldl Operation.on s

/-- something that is done with streams, without the route to them -/
inductive Act where
  | deliver (o : Output) (chunk : Bytes)
  | setStdin (payload : Option Bytes)
  | reset
  | take (o : Output)
  deriving DecidableEq, Repr

/-- the streams behind an act -/
def Act.on (s : Streams) : Act → Streams
  | deliver o chunk => s.deliver o chunk
  | setStdin payload => s.setStdin payload
  | reset => s.reset
  | take o => (s.take o).2

/-- what an operation does, chunk by chunk -/
def Operation.acts : Operation → List Act
  | viaStdout chunks => chunks.map (.deliver .stdout)
  | viaStderr chunks => chunks.map (.deliver .stderr)
  | viaSinks chunks => chunks.map fun c => .deliver c.1 c.2
  | viaParts chunks => chunks.map fun c => .deliver c.1 c.2
  | setStdin payload => [.setStdin payload]
  | reset => [.reset]
  | take o => [.take o]

/-- what an act does with the channel of an output stream -/
def Act.concerning (o : Output) : Act → Option Channel.Act
  | deliver o' chunk => if o' = o then some (.deliver chunk) else none
  | setStdin _ => none
  | reset => some .reset
  | take o' => if o' = o then some .take else none

/-- the payload that an act sets -/
def Act.payload? : Act → Option (Option Bytes)
  | setStdin payload => some payload
  | _ => none

/-- what operations do with the channel of an output stream -/
def concerning (o : Output) (ops : List Operation) : List Channel.Act :=
  (ops.flatMap Operation.acts).filterMap (Act.concerning o)

/-- the payloads that operations set -/
def payloads (ops : List Operation) : List (Option Bytes) := (ops.flatMap Operation.acts).filterMap Act.payload?

/-! ### routes -/

theorem sink_deliver (s : Streams) (o o' : Output) (chunk : Bytes) : (s.deliver o chunk).sink o' = s.sink o' := by
  unfold sink
  rw [channel_deliver]
  split
  · rename_i h
    rw [← h, Channel.isSome_handed_deliver]
  · rfl

/-- sinks stay the sinks of their streams, so that chunks may be put into them later -/
theorem foldl_put (s : Streams) (sink : Output → Sink) (h : ∀ o, sink o = s.sink o)
    (chunks : List (Output × Bytes)) : chunks.foldl (fun s c => s.put (sink c.1) c.2) s = s.deliverAll chunks := by
  induction chunks generalizing s with
  | nil => rfl
  | cons c chunks ih =>
    rw [List.foldl_cons, deliverAll_cons, h, put_sink]
    exact ih (s.deliver c.1 c.2) fun o => by rw [h, sink_deliver]

theorem deliverAll_acts (s : Streams) (chunks : List (Output × Bytes)) :
    s.deliverAll chunks = (chunks.map fun c => Act.deliver c.1 c.2).foldl Act.on s := by
  rw [List.foldl_map]
  rfl

/-- both sinks at once, whatever they are a part of -/
theorem putAll_acts (s : Streams) (chunks : List (Output × Bytes)) :
    s.putAll (s.sink .stdout) (s.sink .stderr) chunks = (chunks.map fun c => Act.deliver c.1 c.2).foldl Act.on s := by
  rw [← deliverAll_acts]
  exact foldl_put s (fun o => match o with | .stdout => s.sink .stdout | .stderr => s.sink .stderr)
    (fun o => by cases o <;> rfl) chunks

/-- one sink by itself -/
theorem foldl_put_acts (s : Streams) (o : Output) (chunks : List Bytes) :
    chunks.foldl (fun t chunk => t.put (s.sink o) chunk) s = (chunks.map (Act.deliver o)).foldl Act.on s := by
  have h := foldl_put s s.sink (fun _ => rfl) (chunks.map (o, ·))
  rw [List.foldl_map] at h
  rw [h, deliverAll_acts, List.map_map]
  rfl

/-- an operation is what it does, whatever its route -/
theorem on_acts (s : Streams) (op : Operation) : op.on s = op.acts.foldl Act.on s := by
  cases op with
  | viaStdout chunks => exact foldl_put_acts s .stdout chunks
  | viaStderr chunks => exact foldl_put_acts s .stderr chunks
  | viaSinks chunks => exact putAll_acts s chunks
  | viaParts chunks => exact putAll_acts s chunks
  | _ => rfl

theorem run_acts (s : Streams) (ops : List Operation) : s.run ops = (ops.flatMap Operation.acts).foldl Act.on s := by
  rw [run, List.foldl_flatMap]
  congr 1
  funext s op
  exact on_acts s op

/-! ### the streams apart -/

theorem channel_setChannel (s : Streams) (o o' : Output) (c : Channel) :
    (s.setChannel o c).channel o' = if o = o' then c else s.channel o' := by
  cases o <;> cases o' <;> rfl

/-- an act shows in a channel as what it does with it -/
theorem channel_act (s : Streams) (o : Output) (a : Act) :
    (a.on s).channel o = (a.concerning o).toList.foldl Channel.Act.on (s.channel o) := by
  cases a with
  | deliver o' chunk =>
    rw [Act.on, channel_deliver, Act.concerning]
    split
    · rename_i h
      rw [h]
      rfl
    · rfl
  | setStdin payload => cases o <;> rfl
  | reset => exact channel_reset s o
  | take o' =>
    rw [Act.on, take, channel_setChannel, Act.concerning]
    split
    · rename_i h
      rw [h]
      rfl
    · rfl

/-- a channel is what is done with it alone -/
theorem channel_acts (s : Streams) (o : Output) (acts : List Act) :
    (acts.foldl Act.on s).channel o = (acts.filterMap (Act.concerning o)).foldl Channel.Act.on (s.channel o) := by
  induction acts generalizing s with
  | nil => rfl
  | cons a acts ih =>
    rw [List.foldl_cons, ih, channel_act]
    cases h : a.concerning o <;> simp [h]

theorem stdin_act (s : Streams) (a : Act) : (a.on s).stdin = a.payload?.getD s.stdin := by
  cases a with
  | deliver o chunk => exact stdin_deliver s o chunk
  | take o => cases o <;> rfl
  | _ => rfl

/-- the payload is the one that was set last -/
theorem stdin_acts (s : Streams) (acts : List Act) :
    (acts.foldl Act.on s).stdin = (acts.filterMap Act.payload?).getLast?.getD s.stdin := by
  induction acts using List.reverseRecOn with
  | nil => rfl
  | append_singleton acts a ih =>
    rw [List.foldl_append, List.foldl_cons, List.foldl_nil, stdin_act, ih, List.filterMap_append]
    cases h : a.payload? <;> simp [h]

theorem channel_ofCallbacks (callbacks : Output → Bool) (payload : Option Bytes) (o : Output) :
    (ofCallbacks callbacks payload).channel o = if callbacks o then .callback else .buffered := by
  cases o <;> rfl

/-- **Each stream goes by what is done with it.** Take new streams, with callbacks or without, and do anything with
them. By which route the chunks have come makes no difference. Each channel is what its own deliveries, resets and
takes make of it: with a callback its buffer is empty and the callback has been handed the chunks that are not empty,
in order and in one piece each; without one it holds the chunks since it was last reset or taken. And the payload is
the one that was set last. -/
theorem run_disciplined (callbacks : Output → Bool) (payload : Option Bytes) (ops : List Operation) :
    (ofCallbacks callbacks payload).run ops =
      (ops.flatMap Operation.acts).foldl Act.on (ofCallbacks callbacks payload) ∧
    (∀ o, ((ofCallbacks callbacks payload).run ops).channel o =
        (concerning o ops).foldl Channel.Act.on (if callbacks o then .callback else .buffered) ∧
      Channel.Disciplined (callbacks o) (concerning o ops) (((ofCallbacks callbacks payload).run ops).channel o)) ∧
    ((ofCallbacks callbacks payload).run ops).stdin = (payloads ops).getLast?.getD payload := by
  have hchannel : ∀ o, ((ofCallbacks callbacks payload).run ops).channel o =
      (concerning o ops).foldl Channel.Act.on (if callbacks o then .callback else .buffered) := by
    intro o
    rw [run_acts, channel_acts, channel_ofCallbacks]
    rfl
  refine ⟨run_acts _ ops, fun o => ⟨hchannel o, ?_⟩, ?_⟩
  · rw [hchannel o]
    cases callbacks o with
    | true => exact Channel.handed_acts _
    | false => exact Channel.kept_acts _
  · rw [run_acts, stdin_acts]
    rfl

/-- a callback for the output: an empty chunk is not handed to it, and taking its buffer does not touch the errors -/
example :
    let s := (ofCallbacks (· = .stdout) none).run
      [.viaSinks [(.stdout, [1]), (.stderr, [2])], .take .stdout, .viaParts [(.stderr, [3]), (.stdout, [])],
        .viaStdout [[4, 5]]]
    s.stdout.handed = some #[[1], [4, 5]] ∧ s.stdout.buffer.bytes = [] ∧ s.stderr.buffer.bytes = [2, 3] := by
  decide +kernel

end Streams

end LineShell
