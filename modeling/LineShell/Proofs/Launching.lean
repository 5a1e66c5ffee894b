/-
What launching a group notes, event by event.

`CommandTrace`, `StageTrace` and `GroupTrace` are the ways in which a launch can go, each with how it ended, which
children have to be waited for, whether the payload was taken, and its events. For each stage but the last one a group
makes a pipe, launches the stage with the writing end as its output, and closes what the stage does not need any more;
the first failure ends the launch.

`launchFrom_stage` and `launchFrom_group` say that launching takes one of these ways. What a launch can log, in which
order and with which streams, is read off the constructors from here on.

`GroupRun` goes on to a whole group: the session is opened, the stages are launched, and the group is settled
(`runGroup_run`).
-/
import LineShell.Proofs.Course
import LineShell.Proofs.Grammar

namespace LineShell

/-- a context with one stream replaced -/
def Context.redirected (ctx : Context) : Direction → Descriptor → Context
  | .input, d => { ctx with input := some d }
  | .output, d => { ctx with output := some d }

theorem Context.background_redirected (ctx : Context) (direction : Direction) (d : Descriptor) :
    (ctx.redirected direction d).background = ctx.background := by
  cases direction <;> rfl

namespace Evaluation

open Engine

variable {σ : Type} (ev : Evaluation σ)

/-- the texts of words -/
def argv (words : List Span) : List String := words.map (·.text ev.line)

/-! ## the ways in which a launch can go -/

section

variable (session : Option Session)

/-- one command: a builtin runs unless the descriptor of its output cannot be duplicated, or a child is asked for -/
inductive CommandTrace (ctx : Context) (words : List Span) :
    Except Failure StageOutcome → List Pid → (took : Bool) → List Event → Prop
  | builtin {program : String} {args : List String} {b : Builtin} (r : Except Failure Int) :
      ev.argv words = program :: args → Builtin.ofName? program = some b →
        CommandTrace ctx words (r.map .finished) [] false (Event.performed b args ctx.output)
  | unduplicated {program : String} {args : List String} {b : Builtin} (d : Descriptor) (f : IoFault) :
      ev.argv words = program :: args → Builtin.ofName? program = some b → ctx.output = some d →
        CommandTrace ctx words (.error (.io f)) [] false [.duplicated d (.error f)]
  | refused {program : String} {args : List String} (f : Failure) :
      ev.argv words = program :: args → Builtin.ofName? program = none →
        CommandTrace ctx words (.error f) [] false [.spawned (request (ev.argv words) ctx session) (.error f)]
  | started {program : String} {args : List String} (pid : Pid) :
      ev.argv words = program :: args → Builtin.ofName? program = none → ctx.background = false →
        CommandTrace ctx words (.ok .started) [pid] (takesPayload ctx session)
          [.spawned (request (ev.argv words) ctx session) (.ok pid)]
  | letGo {program : String} {args : List String} (pid : Pid) :
      ev.argv words = program :: args → Builtin.ofName? program = none → ctx.background = true →
        CommandTrace ctx words (.ok .started) [] (takesPayload ctx session)
          [.spawned (request (ev.argv words) ctx session) (.ok pid), .detached pid]

/-- one stage: its redirection opens a target first, which is closed at the end -/
inductive StageTrace (ctx : Context) (s : Stage) :
    Except Failure StageOutcome → List Pid → (took : Bool) → List Event → Prop
  | plain {o : Except Failure StageOutcome} {ps : List Pid} {took : Bool} {evs : List Event} :
      s.redirection = none → ev.CommandTrace session ctx s.words o ps took evs → StageTrace ctx s o ps took evs
  | unopened {dir : Direction} {target : Span} (f : IoFault) :
      s.redirection = some (dir, target) →
        StageTrace ctx s (.error (.redirect (target.text ev.line) f)) [] false
          [.redirected dir (target.text ev.line) (.error f)]
  | redirected {dir : Direction} {target : Span} (d : Descriptor) {o : Except Failure StageOutcome} {ps : List Pid}
      {took : Bool} {evs : List Event} :
      s.redirection = some (dir, target) → ev.CommandTrace session (ctx.redirected dir d) s.words o ps took evs →
        StageTrace ctx s o ps took (.redirected dir (target.text ev.line) (.ok d) :: (evs ++ [.closed d]))

/-- the stages of a group, left to right; `inlet` is the pipe that the first of them reads -/
inductive GroupTrace : Context → (inlet : Option Descriptor) → List Stage →
    Except Failure StageOutcome → List Pid → (took : Bool) → List Event → Prop
  | last {ctx : Context} {inlet : Option Descriptor} {s : Stage} {o : Except Failure StageOutcome} {ps : List Pid}
      {took : Bool} {evs : List Event} :
      ev.StageTrace session ctx s o ps took evs →
        GroupTrace ctx inlet [s] o ps took (evs ++ inlet.toList.map .closed)
  | unpiped {ctx : Context} {inlet : Option Descriptor} {s : Stage} {rest : List Stage} (f : Failure) : rest ≠ [] →
      GroupTrace ctx inlet (s :: rest) (.error f) [] false (.piped (.error f) :: inlet.toList.map .closed)
  | failed {ctx : Context} {inlet : Option Descriptor} {s : Stage} {rest : List Stage} (pipe : Pipe) {f : Failure}
      {ps : List Pid} {took : Bool} {evs : List Event} : rest ≠ [] →
      ev.StageTrace session { ctx with output := some pipe.writer } s (.error f) ps took evs →
        GroupTrace ctx inlet (s :: rest) (.error f) ps took
          (.made pipe :: (evs ++ (pipe.ends ++ inlet.toList).map .closed))
  | piped {ctx : Context} {inlet : Option Descriptor} {s : Stage} {rest : List Stage} (pipe : Pipe) {so : StageOutcome}
      {o : Except Failure StageOutcome} {ps qs : List Pid} {took took' : Bool} {evs evs' : List Event} : rest ≠ [] →
      ev.StageTrace session { ctx with output := some pipe.writer } s (.ok so) ps took evs →
        GroupTrace { ctx with input := some pipe.reader } (some pipe.reader) rest o qs took' evs' →
          GroupTrace ctx inlet (s :: rest) o (ps ++ qs) (took || took')
            (.made pipe :: (evs ++ (inlet.toList ++ [pipe.writer]).map .closed ++ evs'))

end

/-! ### the events of a launch -/

end Evaluation

/-- an event that launching can note: not that of a session, nor a wait, nor a report -/
def Event.isLaunch : Event → Bool
  | .opened _ => false
  | .drained _ _ => false
  | .waited _ _ => false
  | .reported _ => false
  | _ => true

theorem Event.isLaunch_closed (ds : List Descriptor) : (ds.map Event.closed).all Event.isLaunch = true := by
  simp [Event.isLaunch]

namespace Evaluation

open Engine

variable {σ : Type} {ev : Evaluation σ}

theorem CommandTrace.isLaunch {session : Option Session} {ctx : Context} {words : List Span}
    {o : Except Failure StageOutcome} {ps : List Pid} {took : Bool} {evs : List Event}
    (h : ev.CommandTrace session ctx words o ps took evs) : evs.all Event.isLaunch = true := by
  cases h with
  | builtin r _ _ => simp [Event.performed, Event.copying, Event.isLaunch]
  | _ => rfl

theorem StageTrace.isLaunch {session : Option Session} {ctx : Context} {s : Stage}
    {o : Except Failure StageOutcome} {ps : List Pid} {took : Bool} {evs : List Event}
    (h : ev.StageTrace session ctx s o ps took evs) : evs.all Event.isLaunch = true := by
  cases h with
  | plain _ hc => exact hc.isLaunch
  | unopened f _ => rfl
  | redirected d _ hc => rw [List.all_cons, List.all_append, hc.isLaunch]; rfl

theorem GroupTrace.isLaunch {session : Option Session} {ctx : Context} {inlet : Option Descriptor}
    {stages : List Stage} {o : Except Failure StageOutcome} {ps : List Pid} {took : Bool} {evs : List Event}
    (h : ev.GroupTrace session ctx inlet stages o ps took evs) : evs.all Event.isLaunch = true := by
  induction h with
  | last hs => rw [List.all_append, hs.isLaunch, Event.isLaunch_closed]; rfl
  | unpiped f _ => rw [List.all_cons, Event.isLaunch_closed]; rfl
  | failed pipe _ hs => rw [List.all_cons, List.all_append, hs.isLaunch, Event.isLaunch_closed]; rfl
  | piped pipe _ hs _ ih =>
    rw [List.all_cons, List.all_append, List.all_append, hs.isLaunch, Event.isLaunch_closed, ih]; rfl

variable (ev)

/-! ## launching takes one of these ways -/

theorem runBuiltin_delivered (builtin : Builtin) (args : List String) (ctx : Context) (e : Engine σ) :
    (ev.runBuiltin builtin args ctx e).2.stdinDelivered = e.stdinDelivered := by
  obtain ⟨io, host, h⟩ := runBuiltin_frame ev builtin args ctx e
  rw [h]

theorem launchCommand_trace {words : List Span} (hwords : words ≠ []) (ctx : Context) (session : Option Session)
    (e : Engine σ) {l : Launched σ} (hl : ev.launchCommand words ctx session e = l) :
    ∃ took evs, ev.CommandTrace session ctx words l.outcome l.started took evs ∧ Logged e l.engine evs ∧
      l.engine.stdinDelivered = (e.stdinDelivered || took) := by
  subst hl
  unfold launchCommand
  split
  · rename_i hnil
    exact absurd (List.map_eq_nil_iff.1 hnil) hwords
  · rename_i program args hargv
    have hargv : ev.argv words = program :: args := hargv
    split
    · rename_i b hb
      have hdel : (ev.runBuiltin b args ctx e).2.stdinDelivered = (e.stdinDelivered || false) := by
        rw [Bool.or_false]
        exact runBuiltin_delivered ev b args ctx e
      rcases runBuiltin_logged ev b args ctx e with hlog | ⟨d, f, hout, hr, hlog⟩
      · exact ⟨false, _, .builtin _ hargv hb, hlog, hdel⟩
      · simp only [hr]
        exact ⟨false, _, .unduplicated d f hargv hb hout, hlog, hdel⟩
    · rename_i hb
      unfold startChild
      simp only [← hargv]
      split
      · rename_i f host hs
        exact ⟨false, _, .refused f hargv hb, Host.spawn_events hs, by simp⟩
      · rename_i pid host hs
        have hlog : Logged e { e with host } [.spawned (request (ev.argv words) ctx session) (.ok pid)] :=
          Host.spawn_events hs
        split
        · rename_i hbg
          refine ⟨_, _, .letGo pid hargv hb hbg, ?_, rfl⟩
          have hdet : (host.detach ev.backend pid).events = host.events ++ [.detached pid] := Host.events_detach _ _
          rw [Logged] at hlog ⊢
          simp only [events] at hlog ⊢
          rw [hdet, hlog, List.append_assoc]
          rfl
        · rename_i hbg
          exact ⟨_, _, .started pid hargv hb (by simpa using hbg), hlog, rfl⟩

theorem launchRedirected_refused {dir : Direction} {target : Span} {inner : Launcher σ} {ctx : Context}
    {session : Option Session} {e : Engine σ} {f : Failure} {host : Host σ}
    (ho : e.host.openTarget dir (target.text ev.line) = (.error f, host)) :
    ev.launchRedirected dir target inner ctx session e = ⟨.error f, [], { e with host }⟩ := by
  simp [launchRedirected, ho]

theorem launchRedirected_opened {dir : Direction} {target : Span} {inner : Launcher σ} {ctx : Context}
    {session : Option Session} {e : Engine σ} {d : Descriptor} {host : Host σ}
    (ho : e.host.openTarget dir (target.text ev.line) = (.ok d, host)) :
    ev.launchRedirected dir target inner ctx session e =
      closing (some d) (inner (ctx.redirected dir d) session { e with host }) := by
  unfold launchRedirected
  rw [ho]
  cases dir <;> rfl

theorem launchRedirected_trace {words : List Span} (hwords : words ≠ []) (dir : Direction) (target : Span)
    (ctx : Context) (session : Option Session) (e : Engine σ) {l : Launched σ}
    (hl : ev.launchRedirected dir target (ev.launchFrom (.command words) none) ctx session e = l) :
    ∃ took evs, ev.StageTrace session ctx ⟨words, some (dir, target)⟩ l.outcome l.started took evs ∧
      Logged e l.engine evs ∧ l.engine.stdinDelivered = (e.stdinDelivered || took) := by
  subst hl
  cases ho : e.host.openTarget dir (target.text ev.line) with
  | mk r host =>
    rcases Host.openTarget_events ho with ⟨d, rfl, he⟩ | ⟨fault, rfl, he⟩
    · rw [launchRedirected_opened ev ho]
      have hopen : Logged e { e with host } [.redirected dir (target.text ev.line) (.ok d)] := he
      obtain ⟨took, evs, htrace, hlog, hdel⟩ := launchCommand_trace ev hwords (ctx.redirected dir d) session
        { e with host } rfl
      refine ⟨took, _, .redirected d rfl htrace, ?_, hdel⟩
      exact hopen.trans (hlog.closeAll [d])
    · rw [launchRedirected_refused ev ho]
      exact ⟨false, _, .unopened fault rfl, he, by simp⟩

variable {ev} in
/-- what a stage reads is closed behind it -/
theorem launchFrom_stage_eq {t : Tree} (ht : t.IsStage) (inlet : Option Descriptor) (ctx : Context)
    (session : Option Session) (e : Engine σ) :
    ev.launchFrom t inlet ctx session e = closing inlet (ev.launchFrom t none ctx session e) := by
  cases ht with
  | plain hc => cases hc; rfl
  | redirected direction target hc => cases hc; rfl

variable {ev} in
/-- launching a pipe that has been made, by how its first stage went -/
theorem launchFrom_pipe {left : Tree} {ctx : Context} {session : Option Session} {e : Engine σ} {pipe : Pipe}
    {host : Host σ} {l : Launched σ} (hp : e.host.pipe ev.backend = (.ok pipe, host))
    (hl : ev.launchFrom left none { ctx with output := some pipe.writer } session { e with host } = l) (right : Tree)
    (inlet : Option Descriptor) :
    ev.launchFrom (.pipe left right) inlet ctx session e =
      match l.outcome with
      | .error f => ⟨.error f, l.started, l.engine.closeAll ([pipe.reader, pipe.writer] ++ inlet.toList)⟩
      | .ok _ =>
        let r := ev.launchFrom right (some pipe.reader) { ctx with input := some pipe.reader } session
          (l.engine.closeAll (inlet.toList ++ [pipe.writer]))
        { r with started := l.started ++ r.started } := by
  cases hout : l.outcome <;> simp only [launchFrom, hp, hl, hout]

theorem launchFrom_stage {t : Tree} (ht : t.IsStage) (inlet : Option Descriptor) (ctx : Context)
    (session : Option Session) (e : Engine σ) {l : Launched σ} (hl : ev.launchFrom t inlet ctx session e = l) :
    ∃ s took evs, t.stages = [s] ∧ ev.StageTrace session ctx s l.outcome l.started took evs ∧
      Logged e l.engine (evs ++ inlet.toList.map .closed) ∧ l.engine.stdinDelivered = (e.stdinDelivered || took) := by
  subst hl
  cases ht with
  | plain hc =>
    cases hc with
    | words nonempty =>
      rename_i words
      obtain ⟨took, evs, htrace, hlog, hdel⟩ := launchCommand_trace ev nonempty ctx session e rfl
      exact ⟨_, took, evs, rfl, .plain rfl htrace, hlog.closeAll _, hdel⟩
  | redirected dir target hc =>
    cases hc with
    | words nonempty =>
      obtain ⟨took, evs, htrace, hlog, hdel⟩ := launchRedirected_trace ev nonempty dir target ctx session e rfl
      exact ⟨_, took, evs, rfl, htrace, hlog.closeAll _, hdel⟩

theorem launchFrom_group {t : Tree} (ht : t.IsGroup) (inlet : Option Descriptor) (ctx : Context)
    (session : Option Session) (e : Engine σ) {l : Launched σ} (hl : ev.launchFrom t inlet ctx session e = l) :
    ∃ took evs, ev.GroupTrace session ctx inlet t.stages l.outcome l.started took evs ∧ Logged e l.engine evs ∧
      l.engine.stdinDelivered = (e.stdinDelivered || took) := by
  induction ht generalizing inlet ctx e l with
  | last hs =>
    obtain ⟨s, took, evs, hstages, htrace, hlog, hdel⟩ := launchFrom_stage ev hs inlet ctx session e hl
    rw [hstages]
    exact ⟨took, _, .last htrace, hlog, hdel⟩
  | @piped left right hs hg ih =>
    subst hl
    have hne : right.stages ≠ [] := by
      intro h
      cases hg with
      | last hr => simpa [h] using hr.length_stages
      | piped hr _ =>
        have := hr.length_stages
        simp_all [Tree.stages]
    simp only [launchFrom]
    split
    · rename_i f host hp
      obtain ⟨s, hstages⟩ := List.length_eq_one_iff.1 hs.length_stages
      have hlog : Logged e { e with host } [.piped (.error f)] := Host.pipe_events hp
      rw [Tree.stages, hstages]
      exact ⟨false, _, .unpiped f hne, hlog.closeAll _, by simp [closing, Engine.closeAll]⟩
    · rename_i pipe host hp
      have hpipe : Logged e { e with host } [.made pipe] := Host.pipe_events hp
      obtain ⟨s, took, evs, hstages, htrace, hlog, hdel⟩ :=
        launchFrom_stage ev hs none { ctx with output := some pipe.writer } session { e with host } rfl
      simp only [Option.toList_none, List.map_nil, List.append_nil] at hlog
      rw [Tree.stages, hstages]
      split
      · rename_i f hf
        rw [hf] at htrace
        exact ⟨took, _, .failed pipe hne htrace, (hpipe.trans hlog).closeAll _, hdel⟩
      · rename_i so hso
        rw [hso] at htrace
        obtain ⟨took', evs', htrace', hlog', hdel'⟩ := ih (some pipe.reader) { ctx with input := some pipe.reader }
          ((ev.launchFrom left none { ctx with output := some pipe.writer } session { e with host }).engine.closeAll
            (inlet.toList ++ [pipe.writer])) rfl
        refine ⟨took || took', _, .piped pipe hne htrace htrace', ?_, ?_⟩
        · exact ((hpipe.trans hlog).closeAll (inlet.toList ++ [pipe.writer])).trans hlog'
        · rw [hdel']
          have : ∀ (x : Engine σ) ds, (x.closeAll ds).stdinDelivered = x.stdinDelivered := fun _ _ => rfl
          rw [this, hdel, Bool.or_assoc]

/-! ## a whole group -/

/-- the events of draining the session of a group, if it has one -/
def draining (drained : Except Failure Unit) : Option Session → List Event
  | none => []
  | some s => (s.childEnds ++ s.idleEnds).map .closed ++ .drained s drained :: s.parentEnds.toList.map .closed

theorem of_mem_draining {drained : Except Failure Unit} {session : Option Session} {x : Event}
    (hx : x ∈ draining drained session) : (∃ s, x = .drained s drained) ∨ ∃ d, x = .closed d := by
  cases session with
  | none => simp [draining] at hx
  | some s =>
    rcases List.mem_append.1 hx with hx | hx
    · obtain ⟨d, _, rfl⟩ := List.mem_map.1 hx
      exact .inr ⟨d, rfl⟩
    · rcases List.mem_cons.1 hx with rfl | hx
      · exact .inl ⟨s, rfl⟩
      · obtain ⟨d, _, rfl⟩ := List.mem_map.1 hx
        exact .inr ⟨d, rfl⟩

theorem of_mem_waited {ps : List Pid} {rs : List (Except Failure Int)} {x : Event}
    (hx : x ∈ List.zipWith Event.waited ps rs) : ∃ p r, x = .waited p r := by
  obtain ⟨i, hi, rfl⟩ := List.getElem_of_mem hx
  rw [List.getElem_zipWith]
  exact ⟨_, _, rfl⟩

/-- what waiting for children comes to: the first failure, else the last status -/
def waitVerdict : List (Except Failure Int) → Except Failure (Option Int)
  | [] => .ok none
  | .error f :: _ => .error f
  | .ok status :: rest => (waitVerdict rest).map fun last => last <|> some status

/-- what a group comes to: a failed launch counts before a failed drain, and that before a failed wait -/
def verdict (o : Except Failure StageOutcome) (drained : Except Failure Unit) (waited : Except Failure (Option Int)) :
    Except Failure Int :=
  match o, drained, waited with
  | .error f, _, _ => .error f
  | .ok _, .error f, _ => .error f
  | .ok _, .ok _, .error f => .error f
  | .ok outcome, .ok _, .ok last => .ok (groupStatus outcome last)

/-- a group from its start to its end: how it came out, whether the payload was taken, and its events -/
inductive GroupRun (ev : Evaluation σ) (ctx : Context) (e : Engine σ) (stages : List Stage) :
    Except Failure Int → (took : Bool) → List Event → Prop
  | unopened {f : Failure} {opening : List Event} :
      Opening ctx.background e.capture e.stdinDelivered (.error f) opening →
        GroupRun ev ctx e stages (.error f) false opening
  | terminated {session : Option Session} {n : Int} {ps : List Pid} {took : Bool} {opening launching : List Event} :
      ev.settings.exitTerminates = true →
      Opening ctx.background e.capture e.stdinDelivered (.ok session) opening →
      ev.GroupTrace session ctx none stages (.error (.exit n)) ps took launching →
        GroupRun ev ctx e stages (.error (.exit n)) took (opening ++ launching)
  | settled {session : Option Session} {o : Except Failure StageOutcome} {ps : List Pid} {took : Bool}
      {opening launching : List Event} (drained : Except Failure Unit) (rs : List (Except Failure Int)) :
      Opening ctx.background e.capture e.stdinDelivered (.ok session) opening →
      ev.GroupTrace session ctx none stages o ps took launching → rs.length = ps.length →
        GroupRun ev ctx e stages (verdict o drained (waitVerdict rs)) took
          (opening ++ launching ++ draining drained session ++ List.zipWith .waited ps rs)

theorem terminated_iff {o : Except Failure StageOutcome} :
    ev.terminated o = true ↔ ev.settings.exitTerminates = true ∧ ∃ n, o = .error (.exit n) := by
  unfold terminated
  rw [Bool.and_eq_true]
  refine and_congr_right fun _ => ?_
  cases o with
  | ok so => simp
  | error f => cases f <;> simp [Failure.isExit]

theorem waitAll_trace (pids : List Pid) (e : Engine σ) :
    ∃ rs : List (Except Failure Int), rs.length = pids.length ∧ (ev.waitAll pids e).1 = waitVerdict rs ∧
      Logged e (ev.waitAll pids e).2 (List.zipWith .waited pids rs) ∧
        (ev.waitAll pids e).2.stdinDelivered = e.stdinDelivered := by
  induction pids generalizing e with
  | nil => exact ⟨[], rfl, rfl, Logged.refl e, rfl⟩
  | cons pid rest ih =>
    obtain ⟨rs, hrs, hverdict, hlog, hdel⟩ := ih { e with host := (e.host.wait ev.backend pid).2 }
    have hwait : Logged e { e with host := (e.host.wait ev.backend pid).2 }
        [.waited pid (e.host.wait ev.backend pid).1] := Host.wait_events rfl
    refine ⟨(e.host.wait ev.backend pid).1 :: rs, by simp [hrs], ?_, hwait.trans hlog, hdel⟩
    simp only [waitAll, hverdict]
    cases (e.host.wait ev.backend pid).1 <;> rfl

theorem drain_trace (session : Option Session) {e : Engine σ} (hcap : session.isSome → e.capture.isSome) :
    Logged e (ev.drain session e).2 (draining (ev.drain session e).1 session) ∧
      (ev.drain session e).2.stdinDelivered = e.stdinDelivered := by
  cases session with
  | none => exact ⟨Logged.refl e, rfl⟩
  | some s =>
    refine ⟨drain_logged ev (hcap rfl), ?_⟩
    unfold drain
    split <;> rfl

/-- a session is only opened where output is captured -/
theorem Opening.captured {background delivered : Bool} {capture : Option (Option Bytes)} {session : Option Session}
    {evs : List Event} (h : Opening background capture delivered (.ok session) evs) :
    session.isSome → capture.isSome := by
  cases h with
  | uncaptured _ => simp
  | opened _ hc _ _ => simp [hc]

variable {ev} in
/-- a session is only opened in the foreground and where output is captured -/
theorem openSession_session {ctx : Context} {e e' : Engine σ} {session : Option Session}
    (h : ev.openSession ctx e = (.ok session, e')) :
    (ctx.background = true → session = none) ∧ (session.isSome → e'.capture.isSome) := by
  obtain ⟨⟨_, -, hopen⟩, he'⟩ := openSession_opening ev h
  have hcapture : e'.capture = e.capture := by rw [he']; rfl
  refine ⟨fun hbg => ?_, by rw [hcapture]; exact hopen.captured⟩
  rw [openSession_background ev hbg] at h
  cases h
  rfl

theorem runGroup_run {t : Tree} (ht : t.IsGroup) (ctx : Context) (e : Engine σ) :
    ∃ took evs, ev.GroupRun ctx e t.stages (ev.runGroup (ev.launch t) ctx e).1 took evs ∧
      Logged e (ev.runGroup (ev.launch t) ctx e).2 evs ∧
        (ev.runGroup (ev.launch t) ctx e).2.stdinDelivered = (e.stdinDelivered || took) := by
  unfold runGroup
  split
  · rename_i f e' ho
    obtain ⟨⟨opening, hlog, hopen⟩, he'⟩ := openSession_opening ev ho
    refine ⟨false, opening, .unopened hopen, hlog, ?_⟩
    rw [he', Bool.or_false]
  · rename_i session e' ho
    obtain ⟨⟨opening, hlog, hopen⟩, he'⟩ := openSession_opening ev ho
    have hcap : e'.capture = e.capture := by rw [he']; rfl
    obtain ⟨took, launching, htrace, hlaunch, hdel⟩ := launchFrom_group ev ht none ctx session e' rfl
    rw [show e'.stdinDelivered = e.stdinDelivered by rw [he']] at hdel
    simp only
    split
    · rename_i hterm
      obtain ⟨hexit, n, hn⟩ := (terminated_iff ev).1 hterm
      have hn : (ev.launchFrom t none ctx session e').outcome = .error (.exit n) := hn
      rw [hn] at htrace
      refine ⟨took, opening ++ launching, ?_, hlog.trans hlaunch, hdel⟩
      rw [show (ev.launch t ctx session e').outcome = .error (.exit n) from hn]
      exact .terminated hexit hopen htrace
    · have hcapture : (ev.launch t ctx session e').engine.capture = e.capture := by
        rw [← hcap]
        exact launchFrom_capture t none ctx session e'
      obtain ⟨hdlog, hddel⟩ := drain_trace ev (e := (ev.launch t ctx session e').engine) session
        fun h => by rw [hcapture]; exact hopen.captured h
      obtain ⟨rs, hrs, hverdict, hwlog, hwdel⟩ := waitAll_trace ev (ev.launch t ctx session e').started
        (ev.drain session (ev.launch t ctx session e').engine).2
      refine ⟨took, _, ?_, ((hlog.trans hlaunch).trans hdlog).trans hwlog, ?_⟩
      · have := GroupRun.settled (ev.drain session (ev.launch t ctx session e').engine).1 rs hopen htrace hrs
        rw [← hverdict] at this
        exact this
      · simp only [settle]
        rw [hwdel, hddel]
        exact hdel

end Evaluation

end LineShell
