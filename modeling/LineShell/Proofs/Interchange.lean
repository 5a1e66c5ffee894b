/-
Buffers and callbacks are interchangeable.

What evaluation does never depends on where captured output goes. `Abreast a b e e'` says of two engines that they are
the same but for their streams: the ones of `e` were `a` and the ones of `e'` were `b`, and the same chunks have been
sent to both since. Each operation keeps two engines abreast and answers both alike, if `a` and `b` have the same
payload.

- `launchFrom_agrees`: launching any tree does so, whatever the backend does.
- `Shell.run_interchange`: a line comes to the same end and does the same to its host; what a callback is handed is what
  the buffer would have held.
-/
import LineShell.Backend.Scripted
import LineShell.Proofs.Log
import LineShell.Shell

namespace LineShell

/-! ## the chunks of a stream -/

/-- the chunks that one stream passes on, in order: those sent to it, without the empty ones -/
def sentTo (o : Output) (chunks : List (Output × Bytes)) : List Bytes :=
  (chunks.filter fun c => c.1 = o ∧ c.2 ≠ []).map Prod.snd

theorem flatten_sentTo_single (o : Output) (chunk : Bytes) : (sentTo o [(o, chunk)]).flatten = chunk := by
  by_cases h : chunk = [] <;> simp [sentTo, h]

namespace Streams

theorem deliverAll_append (s : Streams) (cs ds : List (Output × Bytes)) :
    s.deliverAll (cs ++ ds) = (s.deliverAll cs).deliverAll ds :=
  List.foldl_append

theorem deliverAll_cons (s : Streams) (c : Output × Bytes) (cs : List (Output × Bytes)) :
    s.deliverAll (c :: cs) = (s.deliver c.1 c.2).deliverAll cs := rfl

/-- a chunk changes the channel of its stream only -/
theorem channel_deliver (s : Streams) (o o' : Output) (chunk : Bytes) :
    (s.deliver o chunk).channel o' = if o = o' then (s.channel o).deliver chunk else s.channel o' := by
  have hcalled : (s.deliver o chunk).channel o' = (s.setChannel o ((s.channel o).deliver chunk)).channel o' := by
    unfold deliver
    split
    · cases o' <;> rfl
    · rfl
  rw [hcalled]
  cases o <;> cases o' <;> rfl

theorem channel_deliverAll (s : Streams) (o : Output) (chunks : List (Output × Bytes)) :
    (s.deliverAll chunks).channel o = (sentTo o chunks).foldl Channel.deliver (s.channel o) := by
  induction chunks generalizing s with
  | nil => rfl
  | cons c chunks ih =>
    rw [deliverAll_cons, ih, channel_deliver]
    by_cases ho : c.1 = o
    · by_cases hc : c.2 = []
      · simp [sentTo, ho, hc, Channel.deliver]
      · simp [sentTo, ho, hc]
    · simp [sentTo, ho]

end Streams

theorem ne_nil_of_mem_sentTo {o : Output} {chunks : List (Output × Bytes)} {chunk : Bytes}
    (h : chunk ∈ sentTo o chunks) : chunk ≠ [] := by
  obtain ⟨c, hc, rfl⟩ := List.mem_map.1 h
  have := (List.mem_filter.1 hc).2
  simp only [decide_eq_true_eq] at this
  exact this.2

namespace Channel

/-- a channel with a callback hands the chunks on -/
theorem foldl_deliver_some {c : Channel} {old : Array Bytes} (hc : c.handed = some old) {chunks : List Bytes}
    (hchunks : ∀ chunk ∈ chunks, chunk ≠ []) :
    chunks.foldl deliver c = { c with handed := some (old ++ chunks) } := by
  induction chunks generalizing c old with
  | nil => simp [← hc]
  | cons chunk chunks ih =>
    obtain ⟨hchunk, hchunks⟩ := List.forall_mem_cons.1 hchunks
    have hdeliver : c.deliver chunk = { c with handed := some (old.push chunk) } := by
      simp [deliver, hchunk, hc]
    rw [List.foldl_cons, hdeliver, ih rfl hchunks]
    simp

/-- a channel without a callback keeps the chunks in its buffer -/
theorem foldl_deliver_none {c : Channel} (hc : c.handed = none) (chunks : List Bytes) :
    (chunks.foldl deliver c).handed = none ∧
      (chunks.foldl deliver c).buffer.bytes = c.buffer.bytes ++ chunks.flatten := by
  induction chunks generalizing c with
  | nil => simp [hc]
  | cons chunk chunks ih =>
    have hdeliver : (c.deliver chunk).handed = none ∧ (c.deliver chunk).buffer.bytes = c.buffer.bytes ++ chunk := by
      unfold deliver
      split
      · rename_i hempty
        simp [hc, List.isEmpty_iff.1 hempty]
      · simp [hc, CaptureBuffer.bytes_extend]
    obtain ⟨hhanded, hbytes⟩ := ih hdeliver.1
    rw [List.foldl_cons, List.flatten_cons, hhanded, hbytes, hdeliver.2, List.append_assoc]
    exact ⟨rfl, rfl⟩

end Channel

/-! ## two engines abreast -/

/-- two engines that are the same but for their streams: those were `a` and `b`, with the same payload, and the same
chunks have been sent to both since -/
structure Abreast {σ : Type} (a b : Streams) (e e' : Engine σ) : Prop where
  payload : b.stdin = a.stdin
  same : ∃ chunks, e.io = some (a.deliverAll chunks) ∧ e' = { e with io := some (b.deliverAll chunks) }

/-- two answers that are alike, with engines that are abreast -/
structure Agree {σ α : Type} (a b : Streams) (x y : α × Engine σ) : Prop where
  answer : y.1 = x.1
  engine : Abreast a b x.2 y.2

/-- two launches that went alike, with engines that are abreast -/
structure LaunchesAgree {σ : Type} (a b : Streams) (l l' : Launched σ) : Prop where
  outcome : l'.outcome = l.outcome
  started : l'.started = l.started
  engine : Abreast a b l.engine l'.engine

/-- a launcher that answers engines abreast alike -/
def LauncherAgrees {σ : Type} (a b : Streams) (launch : Launcher σ) : Prop :=
  ∀ ctx session {e e' : Engine σ}, Abreast a b e e' → LaunchesAgree a b (launch ctx session e) (launch ctx session e')

section

variable {σ : Type} {a b : Streams} {e e' : Engine σ}

theorem Agree.exists_eq {α : Type} {x y : α × Engine σ} (h : Agree a b x y) :
    ∃ r e e', x = (r, e) ∧ y = (r, e') ∧ Abreast a b e e' :=
  ⟨x.1, x.2, y.2, rfl, by rw [← h.answer], h.engine⟩

namespace Abreast

theorem host_eq (h : Abreast a b e e') : e'.host = e.host := by
  obtain ⟨-, chunks, -, rfl⟩ := h
  rfl

theorem withHost (h : Abreast a b e e') (host : Host σ) : Abreast a b { e with host } { e' with host } := by
  obtain ⟨hpayload, chunks, hio, rfl⟩ := h
  exact ⟨hpayload, chunks, hio, rfl⟩

theorem withStatus (h : Abreast a b e e') (lastStatus : Int) :
    Abreast a b { e with lastStatus } { e' with lastStatus } := by
  obtain ⟨hpayload, chunks, hio, rfl⟩ := h
  exact ⟨hpayload, chunks, hio, rfl⟩

theorem emit (h : Abreast a b e e') (o : Output) (chunk : Bytes) : Abreast a b (e.emit o chunk) (e'.emit o chunk) := by
  obtain ⟨hpayload, chunks, hio, rfl⟩ := h
  refine ⟨hpayload, chunks ++ [(o, chunk)], ?_, ?_⟩
  · simp only [Engine.emit, Engine.send, hio, Streams.deliverAll_append]
    rfl
  · simp only [Engine.emit, Engine.send, hio, Streams.deliverAll_append]
    rfl

theorem emitAll (h : Abreast a b e e') (chunks : List (Output × Bytes)) :
    Abreast a b (e.emitAll chunks) (e'.emitAll chunks) := by
  induction chunks generalizing e e' with
  | nil => exact h
  | cons c chunks ih => exact ih (h.emit c.1 c.2)

theorem sendAll (h : Abreast a b e e') (chunks : List (Output × Bytes)) :
    Agree a b (Engine.sendAll chunks e) (Engine.sendAll chunks e') := by
  have hengines := h.emitAll chunks
  obtain ⟨-, sent, hio, rfl⟩ := h
  rw [Engine.sendAll_captured (Option.isSome_of_eq_some hio), Engine.sendAll_captured rfl]
  exact ⟨rfl, hengines⟩

theorem report (h : Abreast a b e e') (f : Failure) : Abreast a b (e.report f) (e'.report f) := by
  unfold Engine.report
  rw [h.host_eq]
  exact (h.withHost _).emit _ _

theorem closeAll (h : Abreast a b e e') (ds : List Descriptor) : Abreast a b (e.closeAll ds) (e'.closeAll ds) := by
  unfold Engine.closeAll
  rw [h.host_eq]
  exact h.withHost _

end Abreast

/-! ## what every operation answers -/

namespace Evaluation

variable (ev : Evaluation σ)

theorem perform_agrees (builtin : Builtin) (args : List String) (ctx : Context) (h : Abreast a b e e') :
    Agree a b (ev.perform builtin args ctx e) (ev.perform builtin args ctx e') := by
  obtain ⟨hpayload, chunks, hio, rfl⟩ := h
  let d := builtin.dispatch args e.lastStatus ev.settings.home ctx.output e.host.world
  let host := { e.host with world := d.world }.note (.ranBuiltin builtin args)
  have hsent : Agree a b (Engine.sendAll d.chunks { e with host })
      (Engine.sendAll d.chunks { e with host, io := some (b.deliverAll chunks) }) :=
    Abreast.sendAll (Abreast.withHost ⟨hpayload, chunks, hio, rfl⟩ host) d.chunks
  exact ⟨congrArg (answer builtin d.result) hsent.answer, hsent.engine⟩

theorem runBuiltin_agrees (builtin : Builtin) (args : List String) (ctx : Context) (h : Abreast a b e e') :
    Agree a b (ev.runBuiltin builtin args ctx e) (ev.runBuiltin builtin args ctx e') := by
  unfold runBuiltin
  cases ctx.output with
  | none => exact perform_agrees ev builtin args ctx h
  | some d =>
    simp only [h.host_eq]
    cases e.host.duplicate d with
    | mk r host =>
      cases r with
      | error f => exact ⟨rfl, h.withHost host⟩
      | ok u =>
        obtain ⟨hanswer, hengine⟩ := perform_agrees ev builtin args ctx (h.withHost host)
        exact ⟨hanswer, hengine.closeAll [d]⟩

theorem startChild_agrees (argv : List String) : LauncherAgrees a b (ev.startChild argv) := by
  rintro ctx session e e' ⟨hpayload, chunks, hio, rfl⟩
  unfold startChild
  simp only
  split
  · exact ⟨rfl, rfl, hpayload, chunks, hio, rfl⟩
  · split
    · exact ⟨rfl, rfl, hpayload, chunks, hio, rfl⟩
    · exact ⟨rfl, rfl, hpayload, chunks, hio, rfl⟩

theorem launchCommand_agrees (words : List Span) : LauncherAgrees a b (ev.launchCommand words) := by
  intro ctx session e e' h
  unfold launchCommand
  split
  · exact ⟨rfl, rfl, h⟩
  · split
    · rename_i builtin _
      obtain ⟨hanswer, hengine⟩ := runBuiltin_agrees ev builtin _ ctx h
      exact ⟨congrArg (Except.map StageOutcome.finished) hanswer, rfl, hengine⟩
    · exact startChild_agrees ev _ ctx session h

theorem waitAll_agrees (pids : List Pid) (h : Abreast a b e e') :
    Agree a b (ev.waitAll pids e) (ev.waitAll pids e') := by
  induction pids generalizing e e' with
  | nil => exact ⟨rfl, h⟩
  | cons pid rest ih =>
    obtain ⟨hanswer, hengine⟩ := ih (h.withHost (e.host.wait ev.backend pid).2)
    simp only [waitAll, h.host_eq]
    exact ⟨by rw [hanswer], hengine⟩

theorem openSession_agrees (ctx : Context) (h : Abreast a b e e') :
    Agree a b (ev.openSession ctx e) (ev.openSession ctx e') := by
  obtain ⟨hpayload, chunks, hio, rfl⟩ := h
  simp only [openSession, hio, Streams.stdin_deliverAll, hpayload]
  split
  · exact ⟨rfl, hpayload, chunks, hio, rfl⟩
  · split
    · exact ⟨rfl, hpayload, chunks, rfl, rfl⟩
    · exact ⟨rfl, hpayload, chunks, rfl, rfl⟩

theorem drain_agrees (session : Option Session) (h : Abreast a b e e') :
    Agree a b (ev.drain session e) (ev.drain session e') := by
  obtain ⟨hpayload, chunks, hio, rfl⟩ := h
  cases session with
  | none => exact ⟨rfl, hpayload, chunks, hio, rfl⟩
  | some s =>
    -- the backend is given the payload and not the streams, so the same chunks come out
    simp only [drain, hio, Streams.stdin_deliverAll, hpayload, ← Streams.deliverAll_append]
    exact ⟨rfl, hpayload, _, rfl, rfl⟩

theorem settle_agrees (session : Option Session) {l l' : Launched σ} (h : LaunchesAgree a b l l') :
    Agree a b (ev.settle session l) (ev.settle session l') := by
  obtain ⟨hdrained, hengine⟩ := drain_agrees ev session h.engine
  obtain ⟨hwaited, hengine⟩ := waitAll_agrees ev l.started hengine
  unfold settle
  simp only
  rw [h.outcome, h.started, hdrained, hwaited]
  exact ⟨rfl, hengine⟩

theorem runGroup_agrees {launch : Launcher σ} (hlaunch : LauncherAgrees a b launch) (ctx : Context)
    (h : Abreast a b e e') : Agree a b (ev.runGroup launch ctx e) (ev.runGroup launch ctx e') := by
  obtain ⟨r, e₁, e₁', ho, ho', h₁⟩ := (openSession_agrees ev ctx h).exists_eq
  rw [runGroup, runGroup, ho, ho']
  cases r with
  | error f => exact ⟨rfl, h₁⟩
  | ok session =>
    have hl := hlaunch ctx session h₁
    simp only [hl.outcome]
    split
    · exact ⟨rfl, hl.engine⟩
    · exact settle_agrees ev session hl

theorem executeGroup_agrees {launch : Launcher σ} (hlaunch : LauncherAgrees a b launch) (ctx : Context)
    (h : Abreast a b e e') : Agree a b (ev.executeGroup launch ctx e) (ev.executeGroup launch ctx e') := by
  obtain ⟨r, e₁, e₁', hr, hr', h₁⟩ := (runGroup_agrees ev hlaunch ctx h).exists_eq
  rw [executeGroup, executeGroup, hr, hr']
  cases r with
  | ok status => exact ⟨rfl, h₁.withStatus status⟩
  | error f =>
    cases f with
    | exit status => exact ⟨rfl, h₁⟩
    | _ => exact ⟨rfl, (h₁.withStatus 1).report _⟩

theorem executeStatement_agrees {launch : Launcher σ} (hlaunch : LauncherAgrees a b launch) (sep : Separator)
    (ctx : Context) (h : Abreast a b e e') :
    Agree a b (ev.executeStatement launch sep ctx e) (ev.executeStatement launch sep ctx e') := by
  cases sep with
  | sequence => exact executeGroup_agrees ev hlaunch ctx h
  | background =>
    obtain ⟨hanswer, hengine⟩ := executeGroup_agrees ev hlaunch { ctx with background := true } h
    exact ⟨congrArg (Except.map fun _ => 0) hanswer, hengine⟩

theorem executeWith_agrees (isStatement : Bool) {launch : Launcher σ} (hlaunch : LauncherAgrees a b launch)
    (ctx : Context) (h : Abreast a b e e') :
    Agree a b (ev.executeWith isStatement launch ctx e) (ev.executeWith isStatement launch ctx e') := by
  cases isStatement with
  | true =>
    have hl := hlaunch ctx none h
    exact ⟨congrArg (Except.map fun o => groupStatus o none) hl.outcome, hl.engine⟩
  | false => exact executeGroup_agrees ev hlaunch ctx h

/-! ## launching a tree -/

theorem closing_agrees (inlet : Option Descriptor) {l l' : Launched σ} (h : LaunchesAgree a b l l') :
    LaunchesAgree a b (closing inlet l) (closing inlet l') :=
  ⟨h.outcome, h.started, h.engine.closeAll _⟩

theorem asStage_agrees {x y : Except Failure Int × Engine σ} (h : Agree a b x y) :
    LaunchesAgree a b (asStage x) (asStage y) :=
  ⟨congrArg (Except.map StageOutcome.finished) h.answer, rfl, h.engine⟩

theorem launchRedirected_agrees (direction : Direction) (target : Span) {inner : Launcher σ}
    (hinner : LauncherAgrees a b inner) : LauncherAgrees a b (ev.launchRedirected direction target inner) := by
  intro ctx session e e' h
  unfold launchRedirected
  rw [h.host_eq]
  cases e.host.openTarget direction (target.text ev.line) with
  | mk r host =>
    cases r with
    | error f => exact ⟨rfl, rfl, h.withHost host⟩
    | ok d => exact closing_agrees (some d) (hinner _ session (h.withHost host))

theorem launchPipe_agrees {left right : Tree} (hleft : LauncherAgrees a b (ev.launchFrom left none))
    (hright : ∀ inlet, LauncherAgrees a b (ev.launchFrom right inlet)) (inlet : Option Descriptor) :
    LauncherAgrees a b (ev.launchFrom (.pipe left right) inlet) := by
  intro ctx session e e' h
  simp only [launchFrom]
  rw [h.host_eq]
  cases e.host.pipe ev.backend with
  | mk r host =>
    cases r with
    | error f => exact closing_agrees inlet ⟨rfl, rfl, h.withHost host⟩
    | ok pipe =>
      have hl := hleft { ctx with output := some pipe.writer } session (h.withHost host)
      simp only [hl.outcome, hl.started]
      split
      · exact ⟨rfl, rfl, hl.engine.closeAll _⟩
      · have hr := hright (some pipe.reader) { ctx with input := some pipe.reader } session
          (hl.engine.closeAll (inlet.toList ++ [pipe.writer]))
        exact ⟨hr.outcome, by rw [hr.started], hr.engine⟩

/-- launching any tree answers engines abreast alike -/
theorem launchFrom_agrees (t : Tree) (inlet : Option Descriptor) : LauncherAgrees a b (ev.launchFrom t inlet) := by
  induction t generalizing inlet with
  | command words =>
    intro ctx session e e' h
    exact closing_agrees inlet (launchCommand_agrees ev words ctx session h)
  | redirect direction target inner ih =>
    intro ctx session e e' h
    exact closing_agrees inlet (launchRedirected_agrees ev direction target (ih none) ctx session h)
  | pipe left right ihl ihr => exact launchPipe_agrees ev (ihl none) ihr inlet
  | ended left sep ih =>
    intro ctx session e e' h
    exact closing_agrees inlet (asStage_agrees (executeStatement_agrees ev (ih none) sep ctx h))
  | chained left sep right ihl ihr =>
    intro ctx session e e' h
    refine closing_agrees inlet (asStage_agrees ?_)
    -- the first statement is answered alike, so either both stop or both go on
    obtain ⟨r, e₁, e₁', hr, hr', h₁⟩ := (executeStatement_agrees ev (ihl none) sep ctx h).exists_eq
    rw [hr, hr']
    have hrest := executeWith_agrees ev right.isStatement (ihr none) ctx h₁
    cases r with
    | ok status => exact hrest
    | error f =>
      cases f with
      | exit status => exact ⟨rfl, h₁⟩
      | _ => exact hrest

theorem execute_agrees (t : Tree) (ctx : Context) (h : Abreast a b e e') :
    Agree a b (ev.execute t ctx e) (ev.execute t ctx e') :=
  executeWith_agrees ev t.isStatement (launchFrom_agrees ev t none) ctx h

end Evaluation

end

/-! ## running a line -/

theorem Streams.channel_reset (s : Streams) (o : Output) : s.reset.channel o = (s.channel o).reset := by
  cases o <;> rfl

/-- what has become of a channel in a call that sent `content` to it: with a callback the chunks have been handed on,
none of them empty, and nothing is in the buffer; without one the buffer holds the content and nothing else -/
def Channel.Received (before after : Channel) (content : Bytes) : Prop :=
  match before.handed with
  | some old => ∃ new : List Bytes, after.handed = some (old ++ new) ∧ new.flatten = content ∧
      (∀ chunk ∈ new, chunk ≠ []) ∧ after.buffer.bytesWithNul = [0]
  | none => after.handed = none ∧ after.buffer.bytes = content

/-- a channel that is reset and sent some chunks -/
theorem Channel.received_foldl (c : Channel) {chunks : List Bytes} (hchunks : ∀ chunk ∈ chunks, chunk ≠ []) :
    c.Received (chunks.foldl deliver c.reset) chunks.flatten := by
  unfold Received
  split
  · rename_i old hold
    refine ⟨chunks, ?_⟩
    rw [foldl_deliver_some (c := c.reset) hold hchunks]
    exact ⟨rfl, rfl, hchunks, rfl⟩
  · rename_i hnone
    obtain ⟨hhanded, hbytes⟩ := foldl_deliver_none (c := c.reset) hnone chunks
    exact ⟨hhanded, hbytes⟩

theorem Streams.received (s : Streams) (chunks : List (Output × Bytes)) (o : Output) :
    (s.channel o).Received ((s.reset.deliverAll chunks).channel o) (sentTo o chunks).flatten := by
  rw [channel_deliverAll, channel_reset]
  exact Channel.received_foldl _ fun chunk hchunk => ne_nil_of_mem_sentTo hchunk

namespace Shell

variable {σ : Type} (sh : Shell σ)

/-- a line ends alike on streams with the same payload, and sends the same chunks to them, in the same order -/
theorem run_agrees (line : String) (h : Host σ) {plain io : Streams} (hstdin : io.stdin = plain.stdin) :
    (sh.run line (some io) h).ending = (sh.run line (some plain) h).ending ∧
      (sh.run line (some io) h).host = (sh.run line (some plain) h).host ∧
      ∃ chunks, (sh.run line (some plain) h).io = some (plain.reset.deliverAll chunks) ∧
        (sh.run line (some io) h).io = some (io.reset.deliverAll chunks) := by
  have hstart : Abreast plain.reset io.reset ({ host := h, io := some plain.reset } : Engine σ)
      { host := h, io := some io.reset } := ⟨hstdin, [], rfl, rfl⟩
  have hend : ∀ {e e' : Engine σ}, Abreast plain.reset io.reset e e' → e'.host = e.host ∧
      ∃ chunks, e.io = some (plain.reset.deliverAll chunks) ∧ e'.io = some (io.reset.deliverAll chunks) := by
    rintro e _ ⟨-, chunks, hio, rfl⟩
    exact ⟨rfl, chunks, hio, rfl⟩
  simp only [run, Option.map_some]
  split
  · exact ⟨rfl, hend (hstart.report _)⟩
  · exact ⟨rfl, hend hstart⟩
  · rename_i t _
    obtain ⟨hanswer, hengine⟩ := Evaluation.execute_agrees ⟨sh.backend, line, sh.settings⟩ t {} hstart
    exact ⟨congrArg sh.ending hanswer, hend hengine⟩

/-- **Buffers and callbacks are interchangeable.** Run a line on streams without callbacks, and on any others with the
same payload: it ends alike, and it asks the same of the backend and of the world. Each stream has then received what
the plain run has in that stream's buffer, and that is what the line sent there, whatever the buffers held before. -/
theorem run_interchange (line : String) (h : Host σ) (plain io : Streams)
    (hplain : ∀ o, (plain.channel o).handed = none) (hstdin : io.stdin = plain.stdin) :
    (sh.run line (some io) h).ending = (sh.run line (some plain) h).ending ∧
    (sh.run line (some io) h).host = (sh.run line (some plain) h).host ∧
    ∃ p p' : Streams, (sh.run line (some plain) h).io = some p ∧ (sh.run line (some io) h).io = some p' ∧
      (∀ o, (io.channel o).Received (p'.channel o) (p.channel o).buffer.bytes) ∧
      ∃ chunks, p = plain.reset.deliverAll chunks ∧ p' = io.reset.deliverAll chunks ∧
        ∀ o, (p.channel o).buffer.bytes = (sentTo o chunks).flatten := by
  obtain ⟨hending, hhost, chunks, hp, hp'⟩ := run_agrees sh line h hstdin
  have hcontent : ∀ o, ((plain.reset.deliverAll chunks).channel o).buffer.bytes = (sentTo o chunks).flatten := by
    intro o
    have hreceived := Streams.received plain chunks o
    rw [Channel.Received, hplain o] at hreceived
    exact hreceived.2
  refine ⟨hending, hhost, _, _, hp, hp', fun o => ?_, chunks, rfl, rfl, hcontent⟩
  rw [hcontent o]
  exact Streams.received io chunks o

/-- a shell whose program `a` writes two bytes to each stream, and whose program `b` cannot be started -/
def writing : Shell Scripted.State × Host Scripted.State :=
  (⟨Scripted.backend, { exitTerminates := false }⟩,
    { world := {}, state := { scripts := [("a", { out := [104, 105], err := [33, 10] }),
      ("b", { spawnFault := some (.spawn "b" (.system .noEntry)) })] } })

/-- a callback for errors, on a buffer that is not empty -/
def streaming : Streams := { stderr := { buffer := CaptureBuffer.empty.extend [1], handed := some #[] } }

/-- The line `a;b`, on which errors come from a child and from the shell: the callback is handed two chunks. -/
theorem run_interchange_writing :
    (∀ o, (({} : Streams).channel o).handed = none) ∧ streaming.stdin = ({} : Streams).stdin ∧
    (writing.1.run "a;b" (some streaming) writing.2).host = (writing.1.run "a;b" (some {}) writing.2).host ∧
    ∃ p p' : Streams, (writing.1.run "a;b" (some {}) writing.2).io = some p ∧
      (writing.1.run "a;b" (some streaming) writing.2).io = some p' ∧
      (∀ o, (streaming.channel o).Received (p'.channel o) (p.channel o).buffer.bytes) ∧
      p'.stdout.buffer.bytes = [104, 105] ∧ p'.stderr.handed.map (·.size) = some 2 := by
  have hplain : ∀ o, (({} : Streams).channel o).handed = none := by
    intro o
    cases o <;> rfl
  have hseen : (writing.1.run "a;b" (some streaming) writing.2).io.map
      (fun s => (s.stdout.buffer.bytes, s.stderr.handed.map (·.size))) = some ([104, 105], some 2) := by
    decide +kernel
  obtain ⟨-, hhost, p, p', hp, hp', hreceived, -⟩ := run_interchange writing.1 "a;b" writing.2 {} streaming hplain rfl
  rw [hp'] at hseen
  obtain ⟨hout, herr⟩ := Prod.mk.inj (Option.some.inj hseen)
  exact ⟨hplain, rfl, hhost, p, p', hp, hp', hreceived, hout, herr⟩

end Shell

end LineShell
