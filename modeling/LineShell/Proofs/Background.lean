/-
What a background statement puts into the captured output.

Output is captured through a session, and a group of the background has none, so nothing that its children write is
captured. A builtin has no need of a session: it writes to a file or a pipe if its stage has one for its output, and
else to the streams of the shell, in the background as anywhere.

- `Sent` says which chunks the captured streams were sent between two engines, and composes.
- `launchFrom_printed`: launching a group sends nothing to the output, or the one line of a `pwd` in its last stage.
- `execute_background`: so does every background statement of a line, and it sends that line exactly if it `Prints`.
- `execute_background_pwd`: `pwd &` is captured.
-/
import LineShell.Proofs.Interchange
import LineShell.Proofs.LastStatus

namespace LineShell

/-! ## what the captured streams are sent -/

namespace Engine

variable {σ : Type}

/-- from `e` to `e'` the captured streams, if there are any, were sent `chunks` -/
def Sent (e e' : Engine σ) (chunks : List (Output × Bytes)) : Prop := e'.io = e.io.map (·.deliverAll chunks)

/-- nothing is sent where the streams stay as they are -/
theorem Sent.of_io_eq {e e' : Engine σ} (h : e'.io = e.io) : Sent e e' [] := by
  rw [Sent, h]
  cases e.io <;> rfl

theorem Sent.trans {e e' e'' : Engine σ} {cs ds : List (Output × Bytes)} (h : Sent e e' cs) (h' : Sent e' e'' ds) :
    Sent e e'' (cs ++ ds) := by
  rw [Sent, h', h, Option.map_map]
  cases e.io with
  | none => rfl
  | some io => exact congrArg some (Streams.deliverAll_append io cs ds).symm

/-- nothing more is sent by what leaves the streams as they are -/
theorem Sent.of_io_eq_right {e e' e'' : Engine σ} {cs : List (Output × Bytes)} (h : Sent e e' cs)
    (h' : e''.io = e'.io) : Sent e e'' cs := by
  rw [Sent, h', h]

theorem sent_emit (e : Engine σ) (o : Output) (chunk : Bytes) : Sent e (e.emit o chunk) [(o, chunk)] := by
  unfold emit send
  split
  · rename_i io hio
    simp [Sent, hio, Streams.deliverAll]
  · rename_i hio
    simp [Sent, hio]

theorem sent_emitAll (e : Engine σ) (chunks : List (Output × Bytes)) : Sent e (e.emitAll chunks) chunks := by
  induction chunks generalizing e with
  | nil => exact .of_io_eq rfl
  | cons c chunks ih => exact (sent_emit e c.1 c.2).trans (ih (e.emit c.1 c.2))

theorem io_of_uncaptured {e : Engine σ} (h : e.io = none) (chunks : List (Output × Bytes)) :
    (sendAll chunks e).2.io = none := by
  have hcapture := capture_sendAll e chunks
  rw [capture, capture, h] at hcapture
  exact Option.map_eq_none_iff.1 hcapture

/-- captured streams are sent everything -/
theorem sent_sendAll (e : Engine σ) (chunks : List (Output × Bytes)) : Sent e (sendAll chunks e).2 chunks := by
  cases hio : e.io with
  | none => rw [Sent, io_of_uncaptured hio, hio, Option.map_none]
  | some io =>
    rw [sendAll_captured (Option.isSome_of_eq_some hio)]
    exact sent_emitAll e chunks

/-- what a channel holds then: its chunks have been passed on in order -/
theorem Sent.channel {e e' : Engine σ} {chunks : List (Output × Bytes)} (h : Sent e e' chunks) (o : Output) :
    e'.io.map (·.channel o) = e.io.map fun io => (sentTo o chunks).foldl Channel.deliver (io.channel o) := by
  rw [h, Option.map_map]
  cases e.io with
  | none => rfl
  | some io => exact congrArg some (Streams.channel_deliverAll io o chunks)

end Engine

theorem sentTo_append (o : Output) (cs ds : List (Output × Bytes)) :
    sentTo o (cs ++ ds) = sentTo o cs ++ sentTo o ds := by
  simp [sentTo]

/-! ## what builtins print -/

namespace Builtin

/-- only `pwd` prints anything: one line if it succeeds -/
theorem run_out (b : Builtin) (args : List String) (lastStatus : Int) (home : Option String) (w : World) :
    ((b.run args lastStatus home w).out = "" ∧ ¬ (b = .pwd ∧ (b.run args lastStatus home w).status = 0)) ∨
      (b = .pwd ∧ (b.run args lastStatus home w).status = 0 ∧
        ∃ path, (b.run args lastStatus home w).out = path ++ "\n") := by
  cases b with
  | cd =>
    refine .inl ⟨?_, fun h => Builtin.noConfusion h.1⟩
    simp only [run, runCd]
    split
    · rfl
    · split
      · rfl
      · exact cdTo_out _ w
  | exit =>
    refine .inl ⟨?_, fun h => Builtin.noConfusion h.1⟩
    simp only [run, runExit]
    split
    · rfl
    · split <;> rfl
  | pwd =>
    cases hw : w.workingDirectory with
    | ok path => exact .inr ⟨rfl, by simp [run, runPwd, hw], path, by simp [run, runPwd, hw]⟩
    | error f => exact .inl ⟨by simp [run, runPwd, hw], by simp [run, runPwd, hw]⟩

end Builtin

/-- what a launch has sent to the output: the one line of a builtin that prints, if that is the one that was run and it
has succeeded, and else nothing -/
inductive Printed (prints : Prop) : Except Failure StageOutcome → List Bytes → Prop
  | nothing {o : Except Failure StageOutcome} (h : prints → o ≠ .ok (.finished 0)) : Printed prints o []
  | line (h : prints) (path : String) : Printed prints (.ok (.finished 0)) [Text.bytes (path ++ "\n")]

/-- who prints nothing prints as little as anyone who fails -/
theorem Printed.mono {p q : Prop} {o : Except Failure StageOutcome} {cs : List Bytes} (h : Printed p o cs)
    (hpq : p ↔ q) : Printed q o cs := by
  cases h with
  | nothing h => exact .nothing fun hq => h (hpq.2 hq)
  | line h path => exact .line (hpq.1 h) path

/-- a failed launch prints nothing -/
theorem Printed.of_error {p : Prop} (f : Failure) : Printed p (.error f) [] := by
  refine .nothing fun _ h => ?_
  cases h

theorem Printed.eq_nil {p : Prop} {o : Except Failure StageOutcome} {cs : List Bytes} (h : Printed p o cs) (hp : ¬ p) :
    cs = [] := by
  cases h with
  | nothing _ => rfl
  | line h _ => exact absurd h hp

theorem sentTo_stdout_pair (out err : Bytes) :
    sentTo .stdout [(.stdout, out), (.stderr, err)] = if out = [] then [] else [out] := by
  by_cases h : out = [] <;> simp [sentTo, h]

theorem sentTo_stdout_stderr (err : Bytes) : sentTo .stdout [(.stderr, err)] = [] := by
  simp [sentTo]

theorem Text.bytes_line_ne_nil (path : String) : Text.bytes (path ++ "\n") ≠ [] := by
  rw [bytes_append]
  exact List.append_ne_nil_of_right_ne_nil _ (by decide)

namespace Evaluation

open Engine

variable {σ : Type} (ev : Evaluation σ)

/-! ## launching -/

/-- with an output of its own a builtin leaves only complaints for the shell's streams -/
theorem sentTo_dispatch_owned (b : Builtin) (args : List String) (last : Int) (home : Option String)
    (output : Descriptor) (w : World) : sentTo .stdout (b.dispatch args last home (some output) w).chunks = [] := by
  simp only [Builtin.dispatch]
  split
  · exact sentTo_stdout_stderr _
  · split
    · exact sentTo_stdout_stderr _
    · rfl

/-- without one it says on them what it has to say -/
theorem dispatch_printed (b : Builtin) (args : List String) (last : Int) (home : Option String) (w : World) :
    Printed (b = .pwd) ((answer b (b.dispatch args last home none w).result (.ok ())).map .finished)
      (sentTo .stdout (b.dispatch args last home none w).chunks) := by
  have hresult : (b.dispatch args last home none w).result = .ok (b.run args last home w).status := by
    simp only [Builtin.dispatch]
  have hchunks : sentTo .stdout (b.dispatch args last home none w).chunks =
      if Text.bytes (b.run args last home w).out = [] then [] else [Text.bytes (b.run args last home w).out] := by
    simp only [Builtin.dispatch, sentTo_stdout_pair]
  rw [hresult, hchunks]
  rcases b.run_out args last home w with ⟨hempty, hno⟩ | ⟨rfl, hzero, path, hpath⟩
  · rw [hempty, if_pos (show Text.bytes "" = [] by decide)]
    refine .nothing fun hprints hok => hno ⟨hprints, ?_⟩
    obtain rfl := hprints
    exact StageOutcome.finished.inj (Except.ok.inj hok)
  · rw [hpath, if_neg (Text.bytes_line_ne_nil path), hzero]
    exact .line rfl path

/-- a builtin sends to the captured output what it prints, unless its stage has an output of its own -/
theorem perform_printed (b : Builtin) (args : List String) (ctx : Context) (e : Engine σ) :
    ∃ chunks, Sent e (ev.perform b args ctx e).2 chunks ∧
      Printed (ctx.output = none ∧ b = .pwd) ((ev.perform b args ctx e).1.map .finished) (sentTo .stdout chunks) := by
  let d := b.dispatch args e.lastStatus ev.settings.home ctx.output e.host.world
  let told : Engine σ := { e with host := { e.host with world := d.world }.note (.ranBuiltin b args) }
  have hperform : ev.perform b args ctx e =
      (answer b d.result (sendAll d.chunks told).1, (sendAll d.chunks told).2) := rfl
  have hsent : Sent e (sendAll d.chunks told).2 d.chunks := sent_sendAll told d.chunks
  rw [hperform]
  cases hout : ctx.output with
  | some output =>
    have hnone : sentTo .stdout d.chunks = [] := by
      simp only [d, hout]
      exact sentTo_dispatch_owned ..
    refine ⟨d.chunks, hsent, ?_⟩
    rw [hnone]
    exact .nothing fun h => absurd h.1 (Option.some_ne_none output)
  | none =>
    have hprinted : Printed (b = .pwd) ((answer b d.result (.ok ())).map .finished) (sentTo .stdout d.chunks) := by
      simp only [d, hout]
      exact dispatch_printed ..
    cases hr : (sendAll d.chunks told).1 with
    | error f =>
      -- only a stream of the host refuses anything, and nothing is captured then
      have hio : told.io = none := by
        cases hio : told.io with
        | none => rfl
        | some io =>
          rw [sendAll_captured (Option.isSome_of_eq_some hio)] at hr
          cases hr
      refine ⟨[], .of_io_eq ((io_of_uncaptured hio d.chunks).trans hio.symm), ?_⟩
      cases d.result with
      | error _ => exact .of_error _
      | ok _ => exact .of_error _
    | ok u => exact ⟨d.chunks, hsent, hprinted.mono (by simp)⟩

theorem runBuiltin_printed (b : Builtin) (args : List String) (ctx : Context) (e : Engine σ) :
    ∃ chunks, Sent e (ev.runBuiltin b args ctx e).2 chunks ∧
      Printed (ctx.output = none ∧ b = .pwd) ((ev.runBuiltin b args ctx e).1.map .finished)
        (sentTo .stdout chunks) := by
  rcases ev.runBuiltin_cases b args ctx e with ⟨-, hrun⟩ | ⟨d, -, -, ⟨f, -, hrun⟩ | ⟨-, hrun⟩⟩
  · rw [hrun]
    exact ev.perform_printed b args ctx e
  · rw [hrun]
    exact ⟨[], .of_io_eq rfl, .of_error _⟩
  · rw [hrun]
    obtain ⟨chunks, hsent, hprinted⟩ := ev.perform_printed b args ctx { e with host := (e.host.duplicate d).2 }
    exact ⟨chunks, hsent.of_io_eq_right rfl, hprinted⟩

theorem startChild_io (argv : List String) (ctx : Context) (session : Option Session) (e : Engine σ) :
    (ev.startChild argv ctx session e).engine.io = e.io := by
  unfold startChild
  simp only
  split
  · rfl
  · split <;> rfl

theorem launchCommand_printed (words : List Span) (ctx : Context) (session : Option Session) (e : Engine σ) :
    ∃ chunks, Sent e (ev.launchCommand words ctx session e).engine chunks ∧
      Printed (ctx.output = none ∧ ev.builtinOf words = some .pwd) (ev.launchCommand words ctx session e).outcome
        (sentTo .stdout chunks) := by
  unfold launchCommand
  split
  · rename_i hnil
    refine ⟨[], .of_io_eq rfl, .nothing fun h => ?_⟩
    simp [builtinOf, argv, hnil] at h
  · rename_i program args hargv
    have hbuiltin : ev.builtinOf words = Builtin.ofName? program := builtinOf_cons hargv
    split
    · rename_i b hb
      obtain ⟨chunks, hsent, hprinted⟩ := ev.runBuiltin_printed b args ctx e
      exact ⟨chunks, hsent, hprinted.mono (by rw [hbuiltin, hb, Option.some_inj])⟩
    · rename_i hb
      exact ⟨[], .of_io_eq (ev.startChild_io _ _ _ _), .nothing fun h => by simp [hbuiltin, hb] at h⟩

/-- does a stage send what it prints to the streams of the shell? -/
def PrintsOut (ctx : Context) (s : Stage) : Prop :=
  ctx.output = none ∧ ev.builtinOf s.words = some .pwd ∧ ∀ target, s.redirection ≠ some (.output, target)

theorem launchRedirected_printed (direction : Direction) (target : Span) (words : List Span) (ctx : Context)
    (session : Option Session) (e : Engine σ) :
    ∃ chunks,
      Sent e (ev.launchRedirected direction target (ev.launchFrom (.command words) none) ctx session e).engine chunks ∧
      Printed (ev.PrintsOut ctx ⟨words, some (direction, target)⟩)
        (ev.launchRedirected direction target (ev.launchFrom (.command words) none) ctx session e).outcome
        (sentTo .stdout chunks) := by
  cases ho : e.host.openTarget direction (target.text ev.line) with
  | mk r host =>
    cases r with
    | error f =>
      rw [launchRedirected_refused ev ho]
      exact ⟨[], .of_io_eq rfl, .of_error _⟩
    | ok d =>
      rw [launchRedirected_opened ev ho]
      obtain ⟨chunks, hsent, hprinted⟩ :=
        ev.launchCommand_printed words (ctx.redirected direction d) session { e with host }
      refine ⟨chunks, hsent, hprinted.mono ?_⟩
      cases direction <;> simp [PrintsOut, Context.redirected]

theorem launchFrom_stage_printed {t : Tree} (ht : t.IsStage) (inlet : Option Descriptor) (ctx : Context)
    (session : Option Session) (e : Engine σ) :
    ∃ s chunks, t.stages = [s] ∧ Sent e (ev.launchFrom t inlet ctx session e).engine chunks ∧
      Printed (ev.PrintsOut ctx s) (ev.launchFrom t inlet ctx session e).outcome (sentTo .stdout chunks) := by
  cases ht with
  | plain hc =>
    cases hc with
    | @words ws _ =>
      obtain ⟨chunks, hsent, hprinted⟩ := ev.launchCommand_printed ws ctx session e
      exact ⟨_, chunks, rfl, hsent, hprinted.mono (by simp [PrintsOut])⟩
  | redirected dir target hc =>
    cases hc with
    | @words ws _ =>
      obtain ⟨chunks, hsent, hprinted⟩ := ev.launchRedirected_printed dir target ws ctx session e
      exact ⟨_, chunks, rfl, hsent, hprinted⟩

/-- Launching a group sends nothing to the captured output but what its last stage prints: before a pipe there is
nothing that has no output of its own. -/
theorem launchFrom_printed {t : Tree} (ht : t.IsGroup) (inlet : Option Descriptor) (ctx : Context)
    (session : Option Session) (e : Engine σ) :
    ∃ chunks, Sent e (ev.launchFrom t inlet ctx session e).engine chunks ∧
      Printed (∃ s, t.stages.getLast? = some s ∧ ev.PrintsOut ctx s) (ev.launchFrom t inlet ctx session e).outcome
        (sentTo .stdout chunks) := by
  induction ht generalizing inlet ctx e with
  | last hs =>
    obtain ⟨s, chunks, hstages, hsent, hprinted⟩ := ev.launchFrom_stage_printed hs inlet ctx session e
    exact ⟨chunks, hsent, hprinted.mono (by simp [hstages])⟩
  | @piped left right hs hg ih =>
    simp only [launchFrom]
    split
    · exact ⟨[], .of_io_eq rfl, .of_error _⟩
    · rename_i pipe host _
      obtain ⟨s, chunks, -, hsent, hprinted⟩ := ev.launchFrom_stage_printed hs none
        { ctx with output := some pipe.writer } session { e with host }
      have hsent :
          Sent e (ev.launchFrom left none { ctx with output := some pipe.writer } session { e with host }).engine
            chunks := hsent
      have hquiet : sentTo .stdout chunks = [] := hprinted.eq_nil fun h => Option.some_ne_none _ h.1
      split
      · exact ⟨chunks, hsent.of_io_eq_right rfl, hquiet ▸ .of_error _⟩
      · obtain ⟨chunks', hsent', hprinted'⟩ := ih (some pipe.reader) { ctx with input := some pipe.reader }
          ((ev.launchFrom left none { ctx with output := some pipe.writer } session { e with host }).engine.closeAll
            (inlet.toList ++ [pipe.writer]))
        refine ⟨chunks ++ chunks', (hsent.of_io_eq_right rfl).trans hsent', ?_⟩
        rw [sentTo_append, hquiet, List.nil_append]
        refine hprinted'.mono ?_
        have hne : right.stages ≠ [] := hg.stages_ne_nil
        rw [Tree.stages, List.getLast?_append_of_ne_nil _ hne]
        rfl

/-! ## a background statement -/

/-- a group of the background answers with the status of its last stage, or 0 if that is a child that was let go -/
theorem runGroup_background {t : Tree} (ht : t.IsGroup) {ctx : Context} (hbg : ctx.background = true) (e : Engine σ) :
    (ev.runGroup (ev.launch t) ctx e).1 = (ev.launch t ctx none e).outcome.map (fun so => groupStatus so none) ∧
      (ev.runGroup (ev.launch t) ctx e).2.io = (ev.launch t ctx none e).engine.io := by
  obtain ⟨took, evs, htrace, -, -⟩ := launchFrom_group ev ht none ctx none e rfl
  have hstarted : (ev.launch t ctx none e).started = [] := (htrace.background hbg).1
  unfold runGroup
  rw [openSession_background ev hbg]
  simp only
  split
  · rename_i hterm
    obtain ⟨-, n, hn⟩ := (terminated_iff ev).1 hterm
    rw [hn]
    exact ⟨rfl, rfl⟩
  · simp only [settle, drain, hstarted, waitAll, and_true]
    cases (ev.launch t ctx none e).outcome <;> rfl

end Evaluation

/-- the last stage of the group of a step is a `pwd` that sends the working directory to the streams of the shell -/
structure Step.Prints {σ : Type} (ev : Evaluation σ) (ctx : Context) (st : Step σ) : Prop where
  builtin : ∃ s, st.statement.group.stages.getLast? = some s ∧ ev.PrintsOut ctx s
  succeeded : st.ran = .ok 0

namespace Evaluation

open Engine

variable {σ : Type} (ev : Evaluation σ)

/-- a step of the background that prints has launched its `pwd` as its last stage -/
theorem finished_of_prints {s : Statement} (hs : s.group.IsGroup) (hbg : s.background = true) (ctx : Context)
    (e : Engine σ) (h : (ev.step ctx s e).Prints ev ctx) :
    (ev.launchFrom s.group none (ctx.forStatement s) none e).outcome = .ok (.finished 0) := by
  have hctx : (ctx.forStatement s).background = true := by simp [Context.forStatement, hbg]
  obtain ⟨last, hstages, -, hpwd, -⟩ := h.builtin
  have hstages : s.group.stages.getLast? = some last := hstages
  obtain ⟨took, evs, htrace, -, -⟩ := launchFrom_group ev hs none (ctx.forStatement s) none e rfl
  have hlast := (htrace.background hctx).2
  have hran : (ev.launchFrom s.group none (ctx.forStatement s) none e).outcome.map (fun so => groupStatus so none) =
      .ok 0 := (ev.runGroup_background hs hctx e).1.symm.trans h.succeeded
  generalize (ev.launchFrom s.group none (ctx.forStatement s) none e).outcome = o at *
  cases o with
  | error f => cases hran
  | ok so =>
    cases so with
    | started =>
      -- the last stage was not a builtin then
      have hnone := (hlast .started rfl).1 rfl
      rw [hstages, Option.bind_some, hpwd] at hnone
      cases hnone
    | finished n =>
      obtain rfl : n = 0 := Except.ok.inj hran
      rfl

/-- a step of the background sends the captured output one line if it prints, and else nothing -/
theorem step_printed {s : Statement} (hs : s.group.IsGroup) (hbg : s.background = true) (ctx : Context) (e : Engine σ) :
    ∃ chunks, Sent e (ev.step ctx s e).after chunks ∧
      (¬ (ev.step ctx s e).Prints ev ctx → sentTo .stdout chunks = []) ∧
      ((ev.step ctx s e).Prints ev ctx → ∃ path, sentTo .stdout chunks = [Text.bytes (path ++ "\n")]) := by
  have hctx : (ctx.forStatement s).background = true := by simp [Context.forStatement, hbg]
  obtain ⟨hran, hio⟩ := ev.runGroup_background hs hctx e
  obtain ⟨chunks, hsent, hprinted⟩ := ev.launchFrom_printed hs none (ctx.forStatement s) none e
  have hended : Sent e (ev.step ctx s e).ended chunks := hsent.of_io_eq_right hio
  have htold : Sent (ev.step ctx s e).ended (ev.step ctx s e).after (ev.step ctx s e).told :=
    (sent_emitAll _ _).of_io_eq_right (ended_told _).1
  have hquiet : sentTo .stdout (ev.step ctx s e).told = [] := by
    unfold Step.told
    cases (ev.step ctx s e).failure? <;> simp [sentTo]
  have hfinished := ev.finished_of_prints hs hbg ctx e
  refine ⟨chunks ++ (ev.step ctx s e).told, hended.trans htold, ?_⟩
  rw [sentTo_append, hquiet, List.append_nil]
  change (ev.step ctx s e).ran = (ev.launchFrom s.group none (ctx.forStatement s) none e).outcome.map _ at hran
  generalize (ev.launchFrom s.group none (ctx.forStatement s) none e).outcome = o at *
  generalize sentTo .stdout chunks = printed at hprinted ⊢
  cases hprinted with
  | nothing h => exact ⟨fun _ => rfl, fun hprints => absurd (hfinished hprints) (h hprints.builtin)⟩
  | line h path => exact ⟨fun hno => absurd ⟨h, hran⟩ hno, fun _ => ⟨path, rfl⟩⟩

/-- **Background statements and the captured output.** A line that was read comes to the last of its steps. A step of
the background leaves the captured standard output, buffer and callback, as it was, unless it `Prints`; then it
delivers the one line of its `pwd`. -/
theorem execute_background {ts : List Token} {t : Tree} (ht : Line.parse ts = .ok t) (ctx : Context) (e : Engine σ) :
    ev.execute t ctx e = concluded e (ev.steps ctx t.statements e) ∧
    ∀ st ∈ ev.steps ctx t.statements e, st.statement.background = true →
      (¬ st.Prints ev ctx → st.after.io.map (·.stdout) = st.before.io.map (·.stdout)) ∧
      (st.Prints ev ctx → ∃ path,
        st.after.io.map (·.stdout) = st.before.io.map (·.stdout.deliver (Text.bytes (path ++ "\n")))) := by
  have hline : t.IsLine := (Line.parse_eq_ok_iff.1 ht).1.isLine
  refine ⟨execute_eq_concluded ev hline ctx e, fun st hst hbg => ?_⟩
  obtain ⟨s, hs, e', -, rfl⟩ := mem_steps ev hst
  obtain ⟨chunks, hsent, hno, hyes⟩ := ev.step_printed (hline.isGroup s hs) hbg ctx e'
  have hchannel : (ev.step ctx s e').after.io.map (·.stdout) =
      e'.io.map fun io => (sentTo .stdout chunks).foldl Channel.deliver io.stdout := hsent.channel .stdout
  refine ⟨fun h => ?_, fun h => ?_⟩
  · rw [hchannel, hno h]
    rfl
  · obtain ⟨path, hpath⟩ := hyes h
    refine ⟨path, ?_⟩
    rw [hchannel, hpath]
    rfl

/-- an engine that captures output, and whose program `a` writes a byte -/
def writer : Engine Scripted.State := capturing [("a", { out := [1] })]

/-- the statement `pwd|a&` of that line -/
def unseen : Statement := ⟨.pipe (.command [⟨0, 3⟩]) (.command [⟨4, 5⟩]), true⟩

/-- The line of a `pwd` that goes through a pipe to `a`, and the byte of `a`, are not captured. -/
theorem execute_background_child :
    ∃ t, Line.parse (Line.tokens "pwd|a&") = .ok t ∧ t.statements = [unseen] ∧
      ((scripted "pwd|a&").execute t {} writer).2.io.map (·.stdout) = some {} := by
  have hparse : Line.parse (Line.tokens "pwd|a&") = .ok (.ended unseen.group .background) := by decide +kernel
  have hstatements : (Tree.ended unseen.group .background).statements = [unseen] := rfl
  have hsteps : (scripted "pwd|a&").steps {} [unseen] writer = [(scripted "pwd|a&").step {} unseen writer] := by
    rw [steps, steps_behind_last _ _ (.inr rfl)]
  obtain ⟨hrun, hkept⟩ := execute_background (scripted "pwd|a&") hparse {} writer
  rw [hstatements, hsteps] at hrun hkept
  have hquiet := (hkept _ (List.mem_singleton_self _) rfl).1 fun h => by
    obtain ⟨s, hs, -, hpwd, -⟩ := h.builtin
    obtain rfl : ⟨[⟨4, 5⟩], none⟩ = s := Option.some.inj hs
    revert hpwd
    decide +kernel
  exact ⟨_, hparse, hstatements, by rw [hrun]; exact hquiet⟩

/-- `pwd &` is captured: the buffer of the standard output holds the working directory behind it. -/
theorem execute_background_pwd :
    ∃ t, Line.parse (Line.tokens "pwd&") = .ok t ∧
      ((scripted "pwd&").execute t {} (capturing [])).2.io.map (·.stdout.buffer.bytes) = some (Text.bytes "/\n") := by
  refine ⟨.ended (.command [⟨0, 3⟩]) .background, ?_⟩
  decide +kernel

end Evaluation

end LineShell
