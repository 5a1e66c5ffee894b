/-
The streams that every stage of a group is given.

`StageRun` is a stage as it was launched: the pipe that was made behind it, the file of its redirection, and the start
of its command. `requestAt` is the request that stage `i` of a group makes, by its place: its own file goes before the
pipe in front of it or behind it, the pipe before what the group was given, and that before the session of the group.

- `GroupTrace.wired`: however launching a group goes, its events are those of its first stages in order, each wired by
  its place, and then perhaps some that start nothing.
- `execute_wires`: so it is with every group of a line, where the session is the one that was opened for the group.
-/
import LineShell.Proofs.Statements

namespace LineShell

/-! ## stages as they were launched -/

namespace Event

/-- an event that starts a command -/
def starts : Event → Bool
  | spawned _ _ => true
  | ranBuiltin _ _ => true
  | _ => false

/-- an event that starts a command or makes a stream for one -/
def wires : Event → Bool
  | piped _ => true
  | redirected _ _ _ => true
  | x => x.starts

theorem closed_starts_nothing (ds : List Descriptor) : ∀ x ∈ ds.map closed, x.starts = false := by
  intro x hx
  obtain ⟨d, _, rfl⟩ := List.mem_map.1 hx
  rfl

theorem wires_closed (ds : List Descriptor) : (ds.map Event.closed).filter wires = [] := by
  simp [List.filter_eq_nil_iff, wires, starts]

end Event

/-- a stage as it was launched -/
structure StageRun where
  stage : Stage
  /-- the pipe that was made behind the stage -/
  outlet : Option Pipe
  /-- the file that its redirection opened -/
  file : Option Descriptor
  /-- the start of its command -/
  deed : Event

namespace StageRun

/-- the file that replaces a stream of the stage -/
def own (r : StageRun) (dir : Direction) : Option Descriptor :=
  if r.stage.redirection.map Prod.fst = some dir then r.file else none

/-- the opening of the stage's file, as events -/
def opening {σ : Type} (ev : Evaluation σ) (r : StageRun) : List Event :=
  match r.stage.redirection, r.file with
  | some (dir, target), some d => [.redirected dir (target.text ev.line) (.ok d)]
  | _, _ => []

/-- what launching the stage notes, the closing of descriptors apart -/
def events {σ : Type} (ev : Evaluation σ) (r : StageRun) : List Event :=
  r.outlet.toList.map .made ++ r.opening ev ++ [r.deed]

end StageRun

namespace Evaluation

variable {σ : Type} (ev : Evaluation σ)

/-! ## requests by place -/

section

variable (ctx : Context) (session : Option Session)

/-- what stage `i` reads if it has no file of its own -/
def inletAt (runs : List StageRun) : Nat → Option Descriptor
  | 0 => ctx.input <|> (session.bind (·.stdin)).map (·.reader)
  | i + 1 => (runs[i]?.bind (·.outlet)).map (·.reader)

/-- what stage `i` of `count` writes to if it has no file of its own -/
def outletAt (count i : Nat) (r : StageRun) : Option Descriptor :=
  if i + 1 < count then r.outlet.map (·.writer) else ctx.output <|> session.map (·.stdout.writer)

/-- the request that stage `i` of `count` makes -/
def requestAt (count : Nat) (runs : List StageRun) (i : Nat) (r : StageRun) : SpawnRequest where
  argv := ev.argv r.stage.words
  stdin := r.own .input <|> inletAt ctx session runs i
  stdout := r.own .output <|> outletAt ctx session count i r
  stderr := session.map (·.stderr.writer)
  background := ctx.background

/-- the request of a stage that is launched in a context -/
def stageRequest (r : StageRun) : SpawnRequest where
  argv := ev.argv r.stage.words
  stdin := r.own .input <|> ctx.input <|> (session.bind (·.stdin)).map (·.reader)
  stdout := r.own .output <|> ctx.output <|> session.map (·.stdout.writer)
  stderr := session.map (·.stderr.writer)
  background := ctx.background

/-- the start of the command that a request describes: a builtin runs, or a child is asked for by that request -/
def Starts (request : SpawnRequest) (deed : Event) : Prop :=
  match Builtin.ofName? request.program with
  | some b => deed = .ranBuiltin b request.argv.tail
  | none => ∃ result, deed = .spawned request result

/-- stage `i` of `count` has the streams of its place -/
structure WiredAt (count : Nat) (runs : List StageRun) (i : Nat) (r : StageRun) : Prop where
  outlet : r.outlet.isSome = true ↔ i + 1 < count
  file : r.file.isSome = r.stage.redirection.isSome
  deed : Starts (ev.requestAt ctx session count runs i r) r.deed

/-- the events of launching stages: those of the first of them, left to right, then perhaps some that start nothing -/
structure Wired (stages : List Stage) (runs : List StageRun) (stopped evs : List Event) : Prop where
  inOrder : runs.map (·.stage) <+: stages
  events : evs.filter Event.wires = runs.flatMap (StageRun.events ev) ++ stopped
  stopped : ∀ x ∈ stopped, x.starts = false
  wired : ∀ i r, runs[i]? = some r → ev.WiredAt ctx session stages.length runs i r

end

/-! ### one stage -/

variable {ev} {ctx : Context} {session : Option Session}

theorem wires_performed (b : Builtin) (args : List String) (output : Option Descriptor) :
    (Event.performed b args output).filter Event.wires = [.ranBuiltin b args] := by
  cases output <;> rfl

/-- a command that was started, or a builtin whose output could not be had -/
theorem CommandTrace.starts {words : List Span} {o : Except Failure StageOutcome} {ps : List Pid} {took : Bool}
    {evs : List Event} (h : ev.CommandTrace session ctx words o ps took evs) :
    (∃ deed, evs.filter Event.wires = [deed] ∧ Starts (request (ev.argv words) ctx session) deed) ∨
    (∃ f, o = .error f) ∧ ∀ x ∈ evs, x.starts = false := by
  have hprogram : ∀ {program : String} {args : List String}, ev.argv words = program :: args →
      (request (ev.argv words) ctx session).program = program := by
    intro program args h
    simp [SpawnRequest.program, request, h]
  cases h with
  | @builtin program args b r hargv hb =>
    refine .inl ⟨.ranBuiltin b args, wires_performed b args _, ?_⟩
    rw [Starts, hprogram hargv, hb]
    simp [request, hargv]
  | unduplicated d f _ _ _ => exact .inr ⟨⟨_, rfl⟩, List.forall_mem_singleton.2 rfl⟩
  | refused f hargv hb =>
    refine .inl ⟨.spawned _ (.error f), rfl, ?_⟩
    rw [Starts, hprogram hargv, hb]
    exact ⟨_, rfl⟩
  | started pid hargv hb _ =>
    refine .inl ⟨.spawned _ (.ok pid), rfl, ?_⟩
    rw [Starts, hprogram hargv, hb]
    exact ⟨_, rfl⟩
  | letGo pid hargv hb _ =>
    refine .inl ⟨.spawned _ (.ok pid), rfl, ?_⟩
    rw [Starts, hprogram hargv, hb]
    exact ⟨_, rfl⟩

/-- a launched stage, or one whose file could not be opened or its output not be had -/
theorem StageTrace.starts {s : Stage} {o : Except Failure StageOutcome} {ps : List Pid} {took : Bool}
    {evs : List Event} (h : ev.StageTrace session ctx s o ps took evs) (outlet : Option Pipe) :
    (∃ r : StageRun, r.stage = s ∧ r.outlet = outlet ∧ r.file.isSome = s.redirection.isSome ∧
      outlet.toList.map .made ++ evs.filter Event.wires = r.events ev ∧
      Starts (ev.stageRequest ctx session r) r.deed) ∨
    (∃ f, o = .error f) ∧ ∀ x ∈ evs, x.starts = false := by
  cases h with
  | plain hnone hc =>
    refine hc.starts.imp_left ?_
    rintro ⟨deed, hevs, hstarts⟩
    refine ⟨⟨s, outlet, none, deed⟩, rfl, rfl, by simp [hnone], ?_, ?_⟩
    · simp [StageRun.events, StageRun.opening, hnone, hevs]
    · simpa [stageRequest, StageRun.own, hnone, request] using hstarts
  | unopened f hsome =>
    refine .inr ⟨⟨_, rfl⟩, fun x hx => ?_⟩
    rw [List.mem_singleton.1 hx]
    rfl
  | @redirected dir target d _ _ _ evs hsome hc =>
    refine hc.starts.imp ?_ fun ⟨hf, hno⟩ => ⟨hf, List.forall_mem_cons.2 ⟨rfl,
      List.forall_mem_append.2 ⟨hno, List.forall_mem_singleton.2 rfl⟩⟩⟩
    rintro ⟨deed, hevs, hstarts⟩
    refine ⟨⟨s, outlet, some d, deed⟩, rfl, rfl, by simp [hsome], ?_, ?_⟩
    · have hopen : (evs ++ [Event.closed d]).filter Event.wires = [deed] := by
        rw [List.filter_append, hevs]
        rfl
      rw [List.filter_cons_of_pos (by rfl), hopen]
      simp [StageRun.events, StageRun.opening, hsome]
    · cases dir with
      | input => simpa [stageRequest, StageRun.own, hsome, request, Context.redirected] using hstarts
      | output => simpa [stageRequest, StageRun.own, hsome, request, Context.redirected] using hstarts

/-! ### all stages of a group -/

/-- the request of the last stage of a group is by its place what it is by its context -/
theorem requestAt_last (r : StageRun) : ev.requestAt ctx session 1 [r] 0 r = ev.stageRequest ctx session r := by
  simp [requestAt, stageRequest, inletAt, outletAt]

/-- the first of several stages writes to the pipe behind it -/
theorem requestAt_first {count : Nat} (hcount : 1 < count) {pipe : Pipe} {r : StageRun} (hr : r.outlet = some pipe)
    (runs : List StageRun) :
    ev.requestAt ctx session count runs 0 r = ev.stageRequest { ctx with output := some pipe.writer } session r := by
  simp [requestAt, stageRequest, inletAt, outletAt, hcount, hr]

/-- behind a pipe a stage has the place that it has among the stages behind the pipe -/
theorem requestAt_succ {pipe : Pipe} {first : StageRun} (hfirst : first.outlet = some pipe) (count : Nat)
    (runs : List StageRun) (i : Nat) (r : StageRun) :
    ev.requestAt ctx session (count + 1) (first :: runs) (i + 1) r =
      ev.requestAt { ctx with input := some pipe.reader } session count runs i r := by
  have hout : outletAt ctx session (count + 1) (i + 1) r =
      outletAt { ctx with input := some pipe.reader } session count i r := by
    simp only [outletAt, Nat.add_lt_add_iff_right]
  have hin : inletAt ctx session (first :: runs) (i + 1) =
      inletAt { ctx with input := some pipe.reader } session runs i := by
    cases i with
    | zero => simp [inletAt, hfirst]
    | succ i => simp [inletAt]
  rw [requestAt, hin, hout]
  rfl

/-- a launch that started nothing -/
theorem Wired.nothing {evs : List Event} (h : ∀ x ∈ evs, x.starts = false) (stages : List Stage) :
    ev.Wired ctx session stages [] (evs.filter Event.wires) evs where
  inOrder := List.nil_prefix
  events := rfl
  stopped x hx := h x (List.mem_filter.1 hx).1
  wired i r hr := by simp at hr

/-- a launch that started one stage -/
theorem Wired.single {s : Stage} {rest : List Stage} {r : StageRun} {evs : List Event} (hstage : r.stage = s)
    (hevs : evs.filter Event.wires = r.events ev)
    (hr : ev.WiredAt ctx session (rest.length + 1) [r] 0 r) : ev.Wired ctx session (s :: rest) [r] [] evs where
  inOrder := by simp [hstage]
  events := by simp [hevs]
  stopped x hx := by simp at hx
  wired i r' hr' := by
    obtain ⟨rfl, rfl⟩ : i = 0 ∧ r = r' := by
      cases i with
      | zero => exact ⟨rfl, by simpa using hr'⟩
      | succ i => simp at hr'
    exact hr

/-- a stage and its pipe in front of a launch that reads the pipe -/
theorem Wired.cons {s : Stage} {rest : List Stage} {r : StageRun} {pipe : Pipe} {runs : List StageRun}
    {stopped evs evs' : List Event} (hstage : r.stage = s) (hpipe : r.outlet = some pipe)
    (hevs : evs.filter Event.wires = r.events ev)
    (hr : ev.WiredAt ctx session (rest.length + 1) (r :: runs) 0 r)
    (h : ev.Wired { ctx with input := some pipe.reader } session rest runs stopped evs') :
    ev.Wired ctx session (s :: rest) (r :: runs) stopped (evs ++ evs') where
  inOrder := by
    rw [List.map_cons, hstage]
    exact List.prefix_cons_inj s |>.2 h.inOrder
  events := by rw [List.filter_append, hevs, h.events, List.flatMap_cons, List.append_assoc]
  stopped := h.stopped
  wired i r' hr' := by
    cases i with
    | zero =>
      obtain rfl : r = r' := by simpa using hr'
      exact hr
    | succ i =>
      obtain ⟨hout, hfile, hdeed⟩ := h.wired i r' (by simpa using hr')
      refine ⟨by rw [hout, List.length_cons, Nat.add_lt_add_iff_right], hfile, ?_⟩
      rw [List.length_cons, requestAt_succ hpipe]
      exact hdeed

/-- **The stages of a group are wired by their places.** However launching a group goes, it starts the first of its
stages, left to right, each with the streams of its place; and it starts all of them if it goes well. -/
theorem GroupTrace.wired {inlet : Option Descriptor} {stages : List Stage} {o : Except Failure StageOutcome}
    {ps : List Pid} {took : Bool} {evs : List Event} (h : ev.GroupTrace session ctx inlet stages o ps took evs) :
    ∃ runs stopped, ev.Wired ctx session stages runs stopped evs ∧
      ((∃ so, o = .ok so) → runs.length = stages.length) := by
  have hmade : ∀ (pipe : Pipe) (evs : List Event),
      (.made pipe :: evs).filter Event.wires = (some pipe).toList.map .made ++ evs.filter Event.wires :=
    fun pipe evs => List.filter_cons_of_pos (by rfl)
  induction h with
  | @last ctx inlet s o ps took evs hs =>
    rcases hs.starts none with ⟨r, hstage, hout, hfile, hevs, hstarts⟩ | ⟨⟨f, hf⟩, hno⟩
    · refine ⟨[r], [], .single hstage ?_ ⟨by simp [hout], by rw [hfile, hstage], ?_⟩, fun _ => rfl⟩
      · rw [List.filter_append, Event.wires_closed, List.append_nil]
        exact hevs
      · rw [List.length_nil, requestAt_last]
        exact hstarts
    · refine ⟨[], _, .nothing (List.forall_mem_append.2 ⟨hno, Event.closed_starts_nothing _⟩) _, fun ⟨so, hso⟩ => ?_⟩
      rw [hf] at hso
      cases hso
  | @unpiped ctx inlet s rest f hne =>
    exact ⟨[], _, .nothing (List.forall_mem_cons.2 ⟨rfl, Event.closed_starts_nothing _⟩) _, by simp⟩
  | @failed ctx inlet s rest pipe f ps took evs hne hs =>
    have hcount : 1 < rest.length + 1 := Nat.succ_lt_succ (List.length_pos_iff.2 hne)
    rcases hs.starts (some pipe) with ⟨r, hstage, hout, hfile, hevs, hstarts⟩ | ⟨-, hno⟩
    · refine ⟨[r], [], .single hstage ?_ ⟨by simp [hout, hcount], by rw [hfile, hstage], ?_⟩, by simp⟩
      · rw [hmade, List.filter_append, Event.wires_closed, List.append_nil]
        exact hevs
      · rw [requestAt_first hcount hout]
        exact hstarts
    · refine ⟨[], _, .nothing (List.forall_mem_cons.2 ⟨rfl, ?_⟩) _, by simp⟩
      exact List.forall_mem_append.2 ⟨hno, Event.closed_starts_nothing _⟩
  | @piped ctx inlet s rest pipe so o ps qs took took' evs evs' hne hs _ ih =>
    have hcount : 1 < rest.length + 1 := Nat.succ_lt_succ (List.length_pos_iff.2 hne)
    obtain ⟨runs, stopped, hwired, hall⟩ := ih
    rcases hs.starts (some pipe) with ⟨r, hstage, hout, hfile, hevs, hstarts⟩ | ⟨⟨f, hf⟩, -⟩
    · -- the stages behind the pipe were launched in a context that reads it: their places are one less than here
      refine ⟨r :: runs, stopped, ?_, fun hok => by rw [List.length_cons, hall hok, List.length_cons]⟩
      rw [show Event.made pipe :: (evs ++ (inlet.toList ++ [pipe.writer]).map .closed ++ evs') =
        (.made pipe :: (evs ++ (inlet.toList ++ [pipe.writer]).map .closed)) ++ evs' from rfl]
      refine .cons hstage hout ?_ ⟨by simp [hout, hcount], by rw [hfile, hstage], ?_⟩ hwired
      · rw [hmade, List.filter_append, Event.wires_closed, List.append_nil]
        exact hevs
      · rw [requestAt_first hcount hout]
        exact hstarts
    · cases hf

/-! ## every group of a line -/

theorem Opening.starts_nothing {background delivered : Bool} {capture : Option (Option Bytes)}
    {r : Except Failure (Option Session)} {evs : List Event} (h : Opening background capture delivered r evs) :
    ∀ x ∈ evs, x.starts = false := by
  intro x hx
  rcases h.of_mem hx with ⟨_, rfl⟩ | ⟨_, rfl⟩ | ⟨_, rfl⟩ <;> rfl

theorem draining_starts_nothing (drained : Except Failure Unit) (session : Option Session) :
    ∀ x ∈ draining drained session, x.starts = false := by
  intro x hx
  rcases of_mem_draining hx with ⟨_, rfl⟩ | ⟨_, rfl⟩ <;> rfl

theorem waited_starts_nothing (ps : List Pid) (rs : List (Except Failure Int)) :
    ∀ x ∈ List.zipWith Event.waited ps rs, x.starts = false := by
  intro x hx
  obtain ⟨_, _, rfl⟩ := of_mem_waited hx
  rfl

/-- a group whose stages are wired: its session is opened first, if output is captured and the group is not in the
background, with a pipe for input if there is a payload; then its stages are launched; and nothing else is started -/
inductive WiredGroup (ev : Evaluation σ) (ctx : Context) (capture : Option (Option Bytes)) (delivered : Bool)
    (stages : List Stage) : Except Failure Int → List Event → Prop
  | unopened {f : Failure} {opening settling : List Event} :
      Opening ctx.background capture delivered (.error f) opening → (∀ x ∈ opening ++ settling, x.starts = false) →
        WiredGroup ev ctx capture delivered stages (.error f) (opening ++ settling)
  | launched {session : Option Session} {r : Except Failure Int} {runs : List StageRun}
      {opening launching stopped settling : List Event} :
      Opening ctx.background capture delivered (.ok session) opening →
      ev.Wired ctx session stages runs stopped launching → (∀ x ∈ opening ++ settling, x.starts = false) →
      (∀ n, r = .ok n → runs.length = stages.length) →
        WiredGroup ev ctx capture delivered stages r (opening ++ launching ++ settling)

theorem GroupRun.wired {e : Engine σ} {stages : List Stage} {r : Except Failure Int} {took : Bool}
    {evs later : List Event} (h : ev.GroupRun ctx e stages r took evs) (hlater : ∀ x ∈ later, x.starts = false) :
    ev.WiredGroup ctx e.capture e.stdinDelivered stages r (evs ++ later) := by
  cases h with
  | unopened hopen => exact .unopened hopen (List.forall_mem_append.2 ⟨hopen.starts_nothing, hlater⟩)
  | terminated _ hopen htrace =>
    obtain ⟨runs, stopped, hwired, -⟩ := htrace.wired
    exact .launched hopen hwired (List.forall_mem_append.2 ⟨hopen.starts_nothing, hlater⟩) fun n hn => nomatch hn
  | @settled session o ps took opening launching drained rs hopen htrace _ =>
    obtain ⟨runs, stopped, hwired, hall⟩ := htrace.wired
    have hsettling : ∀ x ∈ draining drained session ++ (List.zipWith .waited ps rs ++ later), x.starts = false :=
      List.forall_mem_append.2 ⟨draining_starts_nothing drained session,
        List.forall_mem_append.2 ⟨waited_starts_nothing ps rs, hlater⟩⟩
    rw [List.append_assoc, List.append_assoc]
    refine .launched hopen hwired (List.forall_mem_append.2 ⟨hopen.starts_nothing, hsettling⟩) fun n hn => hall ?_
    cases o with
    | ok so => exact ⟨so, rfl⟩
    | error f => cases hn

variable (ev)

/-- **Every child of a line has the streams of its place.** In each statement that is run the stages of the group are
started left to right, all of them if the group goes well, and nothing else is started. Stage `i` has the words of its
place as arguments, and its streams are those of `requestAt`: its own file, else the pipe to its neighbour, else what
the line was given, else the session's. -/
theorem execute_wires {ts : List Token} {t : Tree} (ht : Line.parse ts = .ok t) (ctx : Context) (e : Engine σ) :
    ev.execute t ctx e = concluded e (ev.steps ctx t.statements e) ∧
    ∀ st ∈ ev.steps ctx t.statements e, ∃ evs, Engine.Logged st.before st.after evs ∧
      ev.WiredGroup (ctx.forStatement st.statement) e.capture st.before.stdinDelivered st.statement.group.stages
        st.ran evs := by
  have hline : t.IsLine := (Line.parse_eq_ok_iff.1 ht).1.isLine
  refine ⟨execute_eq_concluded ev hline ctx e, fun st hst => ?_⟩
  obtain ⟨s, hs, e', hcourse, rfl⟩ := mem_steps ev hst
  obtain ⟨took, evs, hrun, hlog, -⟩ := step_run ev (hline.isGroup s hs) ctx e'
  refine ⟨_, hlog.trans (ended_logged _), ?_⟩
  rw [← hcourse.capture]
  refine hrun.wired fun x hx => ?_
  obtain ⟨f, _, rfl⟩ := List.mem_map.1 hx
  rfl

/-- The two commands of the line `a|b`, with a payload. -/
theorem execute_wires_pipe :
    Line.parse (Line.tokens "a|b") = .ok (.pipe (.command [⟨0, 1⟩]) (.command [⟨2, 3⟩])) ∧
    ∀ st ∈ (scripted "a|b").steps {} [⟨.pipe (.command [⟨0, 1⟩]) (.command [⟨2, 3⟩]), false⟩] (capturing []),
      ∃ evs, Engine.Logged st.before st.after evs ∧
        (scripted "a|b").WiredGroup {} (some (some [])) st.before.stdinDelivered
          [⟨[⟨0, 1⟩], none⟩, ⟨[⟨2, 3⟩], none⟩] st.ran evs := by
  have hparse : Line.parse (Line.tokens "a|b") = .ok (.pipe (.command [⟨0, 1⟩]) (.command [⟨2, 3⟩])) := by
    decide +kernel
  refine ⟨hparse, fun st hst => ?_⟩
  obtain ⟨evs, hlog, hwired⟩ := (execute_wires (scripted "a|b") hparse {} (capturing [])).2 st hst
  have hst : st.statement = ⟨.pipe (.command [⟨0, 1⟩]) (.command [⟨2, 3⟩]), false⟩ := by
    obtain ⟨s, hs, e', -, rfl⟩ := mem_steps _ hst
    exact List.mem_singleton.1 hs
  rw [hst] at hwired
  exact ⟨evs, hlog, hwired⟩

/-- the streams on that line: the first command has the payload and the pipe, the second one the pipe and the capture -/
example :
    (((scripted "a|b").execute (.pipe (.command [⟨0, 1⟩]) (.command [⟨2, 3⟩])) {} (capturing [])).2.events.filterMap
      fun | .spawned request _ => some (request.stdin, request.stdout, request.stderr) | _ => none) =
    [(some (.pipeReader 3), some (.pipeWriter 4), some (.pipeWriter 2)),
      (some (.pipeReader 4), some (.pipeWriter 1), some (.pipeWriter 2))] := by
  decide +kernel

end Evaluation

end LineShell
