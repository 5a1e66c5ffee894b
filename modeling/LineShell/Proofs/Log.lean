/-
What every operation notes in the log.

The log only grows: each operation of a host, and each of an engine on top of it, puts its events behind those that are
there. For every operation a lemma says which events these are, so that no later proof opens the operation.
`Logged e e' evs` says it of two engines, and composes.

The streams of a call are not in the log. `Engine.capture` is what of them evaluation never changes: whether output is
captured at all, and the payload.
-/
import LineShell.Engine

namespace LineShell

/-- the two ends of a pipe -/
def Pipe.ends (p : Pipe) : List Descriptor := [p.reader, p.writer]

/-- the pipes of a session, in the order in which they were made -/
def Session.pipes (s : Session) : List Pipe := [s.stdout, s.stderr] ++ s.stdin.toList

/-- the making of a pipe, as an event -/
def Event.made (p : Pipe) : Event := .piped (.ok p)

/-- the duplicating of a descriptor, if there is one, as events -/
def Event.copying (output : Option Descriptor) : List Event := output.toList.map (.duplicated · (.ok ()))

/-- the events of a builtin that has run: if its output goes to a descriptor, this is duplicated in front of it, and the
duplicate is closed behind it -/
def Event.performed (builtin : Builtin) (args : List String) (output : Option Descriptor) : List Event :=
  copying output ++ .ranBuiltin builtin args :: output.toList.map .closed

theorem Event.of_mem_performed {builtin : Builtin} {args : List String} {output : Option Descriptor} {x : Event}
    (h : x ∈ performed builtin args output) :
    (∃ d, x = .duplicated d (.ok ())) ∨ x = .ranBuiltin builtin args ∨ ∃ d, x = .closed d := by
  rcases List.mem_append.1 h with h | h
  · obtain ⟨d, -, rfl⟩ := List.mem_map.1 h
    exact .inl ⟨d, rfl⟩
  · rcases List.mem_cons.1 h with rfl | h
    · exact .inr (.inl rfl)
    · obtain ⟨d, -, rfl⟩ := List.mem_map.1 h
      exact .inr (.inr ⟨d, rfl⟩)

/-- the events of a session that could not be opened: the pipes that were made, the failure of the next one, and the
closing of those made before it -/
def Event.unopened (made : List Pipe) (f : Failure) : List Event :=
  made.map .made ++ .piped (.error f) :: (made.reverse.flatMap Pipe.ends).map .closed

/-! ## the host -/

namespace Host

variable {σ : Type} {b : Backend σ} {h h' : Host σ}

theorem events_note (h : Host σ) (ev : Event) : (h.note ev).events = h.events ++ [ev] := by
  simp [events, note]

theorem pipe_events {r : Except Failure Pipe} (hp : h.pipe b = (r, h')) : h'.events = h.events ++ [.piped r] := by
  cases hp
  exact events_note _ _

theorem spawn_events {request : SpawnRequest} {r : Except Failure Pid} (hs : h.spawn b request = (r, h')) :
    h'.events = h.events ++ [.spawned request r] := by
  cases hs
  exact events_note _ _

theorem wait_events {pid : Pid} {r : Except Failure Int} (hw : h.wait b pid = (r, h')) :
    h'.events = h.events ++ [.waited pid r] := by
  cases hw
  exact events_note _ _

theorem events_wait (b : Backend σ) (h : Host σ) (pid : Pid) :
    (h.wait b pid).2.events = h.events ++ [.waited pid (h.wait b pid).1] :=
  events_note _ _

theorem events_detach (h : Host σ) (pid : Pid) : (h.detach b pid).events = h.events ++ [.detached pid] :=
  events_note _ _

theorem events_close (h : Host σ) (d : Descriptor) : (h.close d).events = h.events ++ [.closed d] := events_note _ _

theorem events_closeAll (h : Host σ) (ds : List Descriptor) : (h.closeAll ds).events = h.events ++ ds.map .closed := by
  induction ds generalizing h with
  | nil => simp [closeAll]
  | cons d ds ih =>
    have hc : h.closeAll (d :: ds) = (h.close d).closeAll ds := rfl
    rw [hc, ih, events_close, List.map_cons, List.append_assoc]
    rfl

theorem events_duplicate (h : Host σ) (d : Descriptor) :
    (h.duplicate d).2.events = h.events ++ [.duplicated d (h.duplicate d).1] := events_note _ _

/-- writing to a stream of the host changes the world and the outcomes of the coming writes -/
theorem write_frame (h : Host σ) (o : Output) (chunk : Bytes) :
    ∃ world writes, (h.write o chunk).2 = { h with world, writes } := by
  unfold write
  split
  · exact ⟨h.world, h.writes, rfl⟩
  · exact ⟨_, _, rfl⟩

/-- what has been noted does not matter for a write -/
theorem write_note (h : Host σ) (ev : Event) (o : Output) (chunk : Bytes) :
    (h.note ev).write o chunk = ((h.write o chunk).1, (h.write o chunk).2.note ev) := by
  unfold write
  split
  · rfl
  · rfl

/-- a target that was opened, or the failure that tells why not -/
theorem openTarget_events {dir : Direction} {path : String} {r : Except Failure Descriptor}
    (ho : h.openTarget dir path = (r, h')) :
    (∃ d, r = .ok d ∧ h'.events = h.events ++ [.redirected dir path (.ok d)]) ∨
      ∃ f, r = .error (.redirect path f) ∧ h'.events = h.events ++ [.redirected dir path (.error f)] := by
  cases dir
  all_goals
    simp only [openTarget] at ho
    split at ho
    · rename_i d w _
      cases ho
      exact .inl ⟨d, rfl, events_note _ _⟩
    · rename_i f _
      cases ho
      exact .inr ⟨f, rfl, events_note _ _⟩

theorem makePipes_events {withStdin feeds : Bool} {r : Except Failure Session}
    (hm : h.makePipes b withStdin feeds = (r, h')) :
    (∃ s, r = .ok s ∧ s.stdin.isSome = withStdin ∧ s.feeds = feeds ∧ h'.events = h.events ++ s.pipes.map .made) ∨
      ∃ f made, r = .error f ∧ h'.events = h.events ++ Event.unopened made f := by
  unfold makePipes at hm
  split at hm
  · rename_i f h1 hp1
    cases hm
    exact .inr ⟨f, [], rfl, by simpa [Event.unopened] using pipe_events hp1⟩
  · rename_i out h1 hp1
    have e1 := pipe_events hp1
    split at hm
    · rename_i f h2 hp2
      cases hm
      refine .inr ⟨f, [out], rfl, ?_⟩
      rw [events_closeAll, pipe_events hp2, e1]
      simp [Event.unopened, Event.made, Pipe.ends]
    · rename_i err h2 hp2
      have e2 := pipe_events hp2
      split at hm
      · rename_i hin
        split at hm
        · rename_i f h3 hp3
          cases hm
          refine .inr ⟨f, [out, err], rfl, ?_⟩
          rw [events_closeAll, pipe_events hp3, e2, e1]
          simp [Event.unopened, Event.made, Pipe.ends]
        · rename_i input h3 hp3
          cases hm
          refine .inl ⟨_, rfl, by simp [hin], rfl, ?_⟩
          rw [pipe_events hp3, e2, e1]
          simp [Event.made, Session.pipes]
      · rename_i hin
        cases hm
        refine .inl ⟨_, rfl, by simpa using hin, rfl, ?_⟩
        rw [e2, e1]
        simp [Event.made, Session.pipes]

/-- a session whose pipes were all made, or the failure of one of them, with those before it closed again -/
theorem openSession_events {withStdin feeds : Bool} {r : Except Failure Session}
    (ho : h.openSession b withStdin feeds = (r, h')) :
    (∃ s, r = .ok s ∧ s.stdin.isSome = withStdin ∧ s.feeds = feeds ∧
        h'.events = h.events ++ (s.pipes.map .made ++ [.opened s])) ∨
      ∃ f made, r = .error f ∧ h'.events = h.events ++ Event.unopened made f := by
  unfold openSession at ho
  split at ho
  · rename_i f h1 hm
    cases ho
    rcases makePipes_events hm with ⟨s, hs, _⟩ | hf
    · cases hs
    · exact .inr hf
  · rename_i s h1 hm
    cases ho
    rcases makePipes_events hm with ⟨s', hs, hin, hfeeds, he⟩ | ⟨f, made, hf, _⟩
    · cases hs
      refine .inl ⟨s, rfl, hin, hfeeds, ?_⟩
      rw [events_note, he, List.append_assoc]
    · cases hf

theorem drain_events {session : Session} {payload : Option Bytes} {d : Drained}
    (hd : h.drain b session payload = (d, h')) :
    h'.events = h.events ++ ((session.childEnds ++ session.idleEnds).map .closed ++
      .drained session d.result :: session.parentEnds.toList.map .closed) := by
  cases hd
  rw [events_closeAll, events_note]
  have := events_closeAll h (session.childEnds ++ session.idleEnds)
  simp only [events] at this ⊢
  rw [this]
  simp

/-- what becomes of the coming requests that the shell makes of the system by itself -/
def outcomes (h : Host σ) : List (Option Errno) × List (Option Errno) := (h.duplications, h.writes)

theorem outcomes_closeAll (h : Host σ) (ds : List Descriptor) : (h.closeAll ds).outcomes = h.outcomes := by
  induction ds generalizing h with
  | nil => rfl
  | cons d ds ih => exact ih (h.close d)

theorem outcomes_makePipes (b : Backend σ) (withStdin feeds : Bool) (h : Host σ) :
    (h.makePipes b withStdin feeds).2.outcomes = h.outcomes := by
  have hpipe : ∀ {g g' : Host σ} {r : Except Failure Pipe}, g.pipe b = (r, g') → g'.outcomes = g.outcomes := by
    rintro g _ _ ⟨⟩
    rfl
  unfold makePipes
  split
  · rename_i hp
    exact hpipe hp
  · rename_i hp
    split
    · rename_i hp'
      rw [outcomes_closeAll, hpipe hp', hpipe hp]
    · rename_i hp'
      split
      · split
        · rename_i hp''
          rw [outcomes_closeAll, hpipe hp'', hpipe hp', hpipe hp]
        · rename_i hp''
          rw [hpipe hp'', hpipe hp', hpipe hp]
      · rw [hpipe hp', hpipe hp]

theorem outcomes_openSession (b : Backend σ) (withStdin feeds : Bool) (h : Host σ) :
    (h.openSession b withStdin feeds).2.outcomes = h.outcomes := by
  have hmake := outcomes_makePipes b withStdin feeds h
  unfold openSession
  split
  · rename_i hm
    rwa [hm] at hmake
  · rename_i hm
    rwa [hm] at hmake

end Host

/-! ## the engine -/

namespace Engine

variable {σ : Type}

/-- the events that an engine's log holds, oldest first -/
def events (e : Engine σ) : List Event := e.host.events

/-- is output captured, and with which payload? -/
def capture (e : Engine σ) : Option (Option Bytes) := e.io.map (·.stdin)

/-- a chunk changes only where it is sent -/
theorem send_frame (e : Engine σ) (o : Output) (chunk : Bytes) :
    ∃ io world writes, (e.send o chunk).2 = { e with io, host := { e.host with world, writes } } := by
  unfold send
  split
  · exact ⟨_, e.host.world, e.host.writes, rfl⟩
  · obtain ⟨world, writes, h⟩ := e.host.write_frame o chunk
    exact ⟨e.io, world, writes, by rw [← h]⟩

/-- what each chunk keeps that is sent, all of them keep -/
theorem sendAll_keeps {P : Engine σ → Prop} (hsend : ∀ e o chunk, P e → P (e.send o chunk).2)
    (chunks : List (Output × Bytes)) {e : Engine σ} (h : P e) : P (sendAll chunks e).2 := by
  induction chunks generalizing e with
  | nil => exact h
  | cons c chunks ih =>
    have hc := hsend e c.1 c.2 h
    unfold sendAll
    split
    · rename_i f e' hs
      rwa [hs] at hc
    · rename_i e' hs
      rw [hs] at hc
      exact ih hc

theorem sendAll_frame (e : Engine σ) (chunks : List (Output × Bytes)) :
    ∃ io world writes, (sendAll chunks e).2 = { e with io, host := { e.host with world, writes } } := by
  refine sendAll_keeps (P := fun e' => ∃ io world writes, e' = { e with io, host := { e.host with world, writes } })
    ?_ chunks ⟨e.io, e.host.world, e.host.writes, rfl⟩
  rintro _ o chunk ⟨io, world, writes, rfl⟩
  exact send_frame _ o chunk

/-- sending one chunk -/
theorem sendAll_single (e : Engine σ) (c : Output × Bytes) : (sendAll [c] e).2 = e.emit c.1 c.2 := by
  simp only [sendAll, emit]
  split
  · rename_i f e' hs
    rw [hs]
  · rename_i e' hs
    rw [hs]

theorem report_frame (e : Engine σ) (f : Failure) : ∃ io host, e.report f = { e with io, host } := by
  obtain ⟨io, world, writes, h⟩ :=
    send_frame { e with host := e.host.note (.reported f) } .stderr (Text.bytes f.report)
  exact ⟨io, _, h⟩

theorem events_sendAll (e : Engine σ) (chunks : List (Output × Bytes)) : (sendAll chunks e).2.events = e.events := by
  obtain ⟨io, world, writes, h⟩ := sendAll_frame e chunks
  rw [h]
  rfl

theorem events_report (e : Engine σ) (f : Failure) : (e.report f).events = e.events ++ [.reported f] := by
  obtain ⟨io, world, writes, h⟩ :=
    send_frame { e with host := e.host.note (.reported f) } .stderr (Text.bytes f.report)
  rw [report, emit, h]
  exact Host.events_note _ _

theorem events_closeAll (e : Engine σ) (ds : List Descriptor) : (e.closeAll ds).events = e.events ++ ds.map .closed :=
  Host.events_closeAll _ _

end Engine

theorem Streams.stdin_deliver (s : Streams) (o : Output) (chunk : Bytes) : (s.deliver o chunk).stdin = s.stdin := by
  cases o <;> simp only [deliver, setChannel, called] <;> split <;> rfl

theorem Streams.stdin_deliverAll (s : Streams) (chunks : List (Output × Bytes)) :
    (s.deliverAll chunks).stdin = s.stdin := by
  induction chunks generalizing s with
  | nil => rfl
  | cons c chunks ih =>
    have hc : s.deliverAll (c :: chunks) = (s.deliver c.1 c.2).deliverAll chunks := rfl
    rw [hc, ih, stdin_deliver]

namespace Engine

variable {σ : Type}

theorem capture_send (e : Engine σ) (o : Output) (chunk : Bytes) : (e.send o chunk).2.capture = e.capture := by
  unfold send
  split
  · rename_i io hio
    simp [capture, hio, Streams.stdin_deliver]
  · rfl

theorem capture_sendAll (e : Engine σ) (chunks : List (Output × Bytes)) : (sendAll chunks e).2.capture = e.capture :=
  sendAll_keeps (P := fun e' => e'.capture = e.capture)
    (fun e' o chunk h => (capture_send e' o chunk).trans h) chunks rfl

/-- captured streams take everything -/
theorem sendAll_captured {e : Engine σ} (h : e.io.isSome) (chunks : List (Output × Bytes)) :
    sendAll chunks e = (.ok (), e.emitAll chunks) := by
  induction chunks generalizing e with
  | nil => rfl
  | cons c chunks ih =>
    obtain ⟨io, hio⟩ := Option.isSome_iff_exists.1 h
    have hsend : e.send c.1 c.2 = (.ok (), { e with io := some (io.deliver c.1 c.2) }) := by simp only [send, hio]
    have hc : e.emitAll (c :: chunks) = (e.send c.1 c.2).2.emitAll chunks := rfl
    rw [sendAll, hc, hsend]
    exact ih rfl

/-- from `e` to `e'` the log has grown by `evs` -/
def Logged (e e' : Engine σ) (evs : List Event) : Prop := e'.events = e.events ++ evs

theorem Logged.refl (e : Engine σ) : Logged e e [] := by simp [Logged]

theorem Logged.trans {e e' e'' : Engine σ} {evs evs' : List Event} (h : Logged e e' evs) (h' : Logged e' e'' evs') :
    Logged e e'' (evs ++ evs') := by
  rw [Logged, h', h, List.append_assoc]

/-- what was logged between two engines is determined by them -/
theorem Logged.unique {e e' : Engine σ} {evs evs' : List Event} (h : Logged e e' evs) (h' : Logged e e' evs') :
    evs = evs' := by
  rw [Logged, h] at h'
  exact List.append_cancel_left h'

theorem Logged.closeAll {e e' : Engine σ} {evs : List Event} (h : Logged e e' evs) (ds : List Descriptor) :
    Logged e (e'.closeAll ds) (evs ++ ds.map .closed) :=
  h.trans (events_closeAll e' ds)

end Engine

/-! ## one command -/

namespace Evaluation

open Engine

variable {σ : Type} (ev : Evaluation σ)

theorem perform_logged (builtin : Builtin) (args : List String) (ctx : Context) (e : Engine σ) :
    Logged e (ev.perform builtin args ctx e).2 [.ranBuiltin builtin args] := by
  rw [Logged, perform, events_sendAll]
  exact Host.events_note _ _

/-- a builtin changes only streams and the host -/
theorem perform_frame (builtin : Builtin) (args : List String) (ctx : Context) (e : Engine σ) :
    ∃ io host, (ev.perform builtin args ctx e).2 = { e with io, host } := by
  have hsend : ∀ (host : Host σ) chunks, ∃ io host',
      (sendAll chunks { e with host }).2 = { e with io, host := host' } := by
    intro host chunks
    obtain ⟨io, world, writes, h⟩ := sendAll_frame { e with host } chunks
    exact ⟨io, _, h⟩
  exact hsend _ _

/-- a builtin comes to a failure of output, or to what its status says -/
theorem answer_cases (builtin : Builtin) (result : Except IoFault Int) (sent : Except IoFault Unit) :
    (∃ f, answer builtin result sent = .error (.io f)) ∨ ∃ status, result = .ok status ∧
      answer builtin result sent = if builtin = .exit then .error (.exit status) else .ok status := by
  cases result with
  | error f => exact .inl ⟨f, rfl⟩
  | ok status =>
    cases sent with
    | error f => exact .inl ⟨f, rfl⟩
    | ok u => exact .inr ⟨status, rfl, rfl⟩

theorem perform_capture (builtin : Builtin) (args : List String) (ctx : Context) (e : Engine σ) :
    (ev.perform builtin args ctx e).2.capture = e.capture := by
  rw [perform, capture_sendAll]
  rfl

/-- what becomes of the duplicate that a builtin asks for, if its output goes to a descriptor -/
def duplicateOutcome (ctx : Context) (e : Engine σ) : Except IoFault Unit :=
  match ctx.output with
  | none => .ok ()
  | some _ => nextOutcome e.host.duplications

variable {ev} in
/-- a builtin whose output goes to a stream of the shell -/
theorem runBuiltin_plain {ctx : Context} (hout : ctx.output = none) (builtin : Builtin) (args : List String)
    (e : Engine σ) : ev.runBuiltin builtin args ctx e = ev.perform builtin args ctx e := by
  simp only [runBuiltin, hout]

variable {ev} in
/-- a builtin whose output goes to a descriptor that could not be duplicated: it does not run -/
theorem runBuiltin_unduplicated {ctx : Context} {d : Descriptor} (hout : ctx.output = some d) {e : Engine σ}
    {f : IoFault} {host : Host σ} (hdup : e.host.duplicate d = (.error f, host)) (builtin : Builtin)
    (args : List String) : ev.runBuiltin builtin args ctx e = (.error (.io f), { e with host }) := by
  simp only [runBuiltin, hout, hdup]

variable {ev} in
/-- a builtin whose output goes to a descriptor that has been duplicated -/
theorem runBuiltin_duplicated {ctx : Context} {d : Descriptor} (hout : ctx.output = some d) {e : Engine σ}
    {u : Unit} {host : Host σ} (hdup : e.host.duplicate d = (.ok u, host)) (builtin : Builtin) (args : List String) :
    ev.runBuiltin builtin args ctx e =
      ((ev.perform builtin args ctx { e with host }).1,
        (ev.perform builtin args ctx { e with host }).2.closeAll [d]) := by
  simp only [runBuiltin, hout, hdup]

/-- how running a builtin goes: it writes to a stream of the shell, or to a descriptor, and then it only runs if that
could be duplicated -/
theorem runBuiltin_cases (builtin : Builtin) (args : List String) (ctx : Context) (e : Engine σ) :
    (ctx.output = none ∧ ev.runBuiltin builtin args ctx e = ev.perform builtin args ctx e) ∨
      ∃ d, ctx.output = some d ∧
        Logged e { e with host := (e.host.duplicate d).2 } [.duplicated d (e.host.duplicate d).1] ∧
        ((∃ f, (e.host.duplicate d).1 = .error f ∧
          ev.runBuiltin builtin args ctx e = (.error (.io f), { e with host := (e.host.duplicate d).2 })) ∨
        ((e.host.duplicate d).1 = .ok () ∧ ev.runBuiltin builtin args ctx e =
          ((ev.perform builtin args ctx { e with host := (e.host.duplicate d).2 }).1,
            (ev.perform builtin args ctx { e with host := (e.host.duplicate d).2 }).2.closeAll [d]))) := by
  cases hout : ctx.output with
  | none => exact .inl ⟨rfl, runBuiltin_plain hout builtin args e⟩
  | some d =>
    refine .inr ⟨d, rfl, Host.events_duplicate _ _, ?_⟩
    cases hdup : (e.host.duplicate d).1 with
    | error f => exact .inl ⟨f, rfl, runBuiltin_unduplicated hout (Prod.ext hdup rfl) builtin args⟩
    | ok u => exact .inr ⟨rfl, runBuiltin_duplicated hout (Prod.ext hdup rfl) builtin args⟩

/-- what it notes: it has run, or the descriptor of its output could not be duplicated -/
theorem runBuiltin_logged (builtin : Builtin) (args : List String) (ctx : Context) (e : Engine σ) :
    Logged e (ev.runBuiltin builtin args ctx e).2 (Event.performed builtin args ctx.output) ∨
      ∃ d f, ctx.output = some d ∧ (ev.runBuiltin builtin args ctx e).1 = .error (.io f) ∧
        Logged e (ev.runBuiltin builtin args ctx e).2 [.duplicated d (.error f)] := by
  rcases ev.runBuiltin_cases builtin args ctx e with ⟨hout, hrun⟩ | ⟨d, hout, hlog, ⟨f, hdup, hrun⟩ | ⟨hdup, hrun⟩⟩
  · rw [hrun, hout]
    exact .inl (perform_logged ev builtin args ctx e)
  · rw [hdup] at hlog
    rw [hrun]
    exact .inr ⟨d, f, hout, rfl, hlog⟩
  · rw [hdup] at hlog
    rw [hrun, hout]
    exact .inl (hlog.trans ((perform_logged ev builtin args ctx _).closeAll [d]))

/-- running a builtin changes only streams and the host -/
theorem runBuiltin_frame (builtin : Builtin) (args : List String) (ctx : Context) (e : Engine σ) :
    ∃ io host, (ev.runBuiltin builtin args ctx e).2 = { e with io, host } := by
  rcases ev.runBuiltin_cases builtin args ctx e with ⟨-, hrun⟩ | ⟨d, -, -, ⟨f, -, hrun⟩ | ⟨-, hrun⟩⟩
  · rw [hrun]
    exact perform_frame ev builtin args ctx e
  · rw [hrun]
    exact ⟨e.io, _, rfl⟩
  · rw [hrun]
    obtain ⟨io, host, h⟩ := perform_frame ev builtin args ctx { e with host := (e.host.duplicate d).2 }
    exact ⟨io, _, by rw [h]; rfl⟩

theorem drain_capture (session : Option Session) (e : Engine σ) : (ev.drain session e).2.capture = e.capture := by
  unfold drain
  split
  · rename_i s io hio
    simp [capture, hio, Streams.stdin_deliverAll]
  · rfl

/-- how opening the session of a group goes and what it notes, by whether the group runs in the background and what is
captured; `delivered` says whether the payload has been given to a child before -/
inductive Opening (background : Bool) (capture : Option (Option Bytes)) (delivered : Bool) :
    Except Failure (Option Session) → List Event → Prop
  | uncaptured (h : background = true ∨ capture = none) : Opening background capture delivered (.ok none) []
  | opened {payload : Option Bytes} {s : Session} (foreground : background = false) (captured : capture = some payload)
      (stdin : s.stdin.isSome = payload.isSome) (feeds : s.feeds = !delivered) :
      Opening background capture delivered (.ok (some s)) (s.pipes.map .made ++ [.opened s])
  | refused {payload : Option Bytes} {made : List Pipe} {f : Failure} (foreground : background = false)
      (captured : capture = some payload) : Opening background capture delivered (.error f) (Event.unopened made f)

/-- opening a session only makes pipes and closes them again -/
theorem Opening.of_mem {background delivered : Bool} {capture : Option (Option Bytes)}
    {r : Except Failure (Option Session)} {evs : List Event} (h : Opening background capture delivered r evs)
    {x : Event} (hx : x ∈ evs) : (∃ r, x = .piped r) ∨ (∃ s, x = .opened s) ∨ ∃ d, x = .closed d := by
  have hmade : ∀ ps : List Pipe, x ∈ ps.map Event.made → ∃ r, x = .piped r := by
    intro ps hx
    obtain ⟨p, _, rfl⟩ := List.mem_map.1 hx
    exact ⟨.ok p, rfl⟩
  cases h with
  | uncaptured _ => simp at hx
  | opened _ _ _ _ =>
    rcases List.mem_append.1 hx with hx | hx
    · exact .inl (hmade _ hx)
    · exact .inr (.inl ⟨_, List.mem_singleton.1 hx⟩)
  | refused _ _ =>
    rcases List.mem_append.1 hx with hx | hx
    · exact .inl (hmade _ hx)
    · rcases List.mem_cons.1 hx with rfl | hx
      · exact .inl ⟨_, rfl⟩
      · obtain ⟨d, _, rfl⟩ := List.mem_map.1 hx
        exact .inr (.inr ⟨d, rfl⟩)

theorem openSession_opening {ctx : Context} {e e' : Engine σ} {r : Except Failure (Option Session)}
    (h : ev.openSession ctx e = (r, e')) :
    (∃ evs, Logged e e' evs ∧ Opening ctx.background e.capture e.stdinDelivered r evs) ∧
      e' = { e with host := e'.host } := by
  unfold openSession at h
  split at h
  · rename_i io hio
    have hc : e.capture = some io.stdin := by simp [capture, hio]
    split at h
    · rename_i hb
      cases h
      exact ⟨⟨[], Logged.refl _, .uncaptured (.inl hb)⟩, rfl⟩
    · rename_i hb
      have hfg : ctx.background = false := by simpa using hb
      split at h
      · rename_i f host ho
        cases h
        rcases Host.openSession_events ho with ⟨s, hs, _⟩ | ⟨f', made, hf, he⟩
        · cases hs
        · cases hf
          exact ⟨⟨_, he, .refused hfg hc⟩, rfl⟩
      · rename_i s host ho
        cases h
        rcases Host.openSession_events ho with ⟨s', hs, hin, hfeeds, he⟩ | ⟨f', made, hf, _⟩
        · cases hs
          exact ⟨⟨_, he, .opened hfg hc hin hfeeds⟩, rfl⟩
        · cases hf
  · rename_i hio
    cases h
    exact ⟨⟨[], Logged.refl _, .uncaptured (.inr (by simp [capture, hio]))⟩, rfl⟩

/-- opening a session asks the system for nothing but pipes -/
theorem openSession_outcomes (ctx : Context) (e : Engine σ) :
    (ev.openSession ctx e).2.host.outcomes = e.host.outcomes := by
  unfold openSession
  split
  · rename_i io _
    split
    · rfl
    · have hopen := e.host.outcomes_openSession ev.backend io.stdin.isSome (!e.stdinDelivered)
      split
      · rename_i ho
        rwa [ho] at hopen
      · rename_i ho
        rwa [ho] at hopen
  · rfl

/-- a group of the background has no session -/
theorem openSession_background {ctx : Context} (hbg : ctx.background = true) (e : Engine σ) :
    ev.openSession ctx e = (.ok none, e) := by
  unfold openSession
  split
  · rw [if_pos hbg]
  · rfl

/-- a session is drained: its children's ends are closed, its streams are carried, and the shell's ends are closed -/
theorem drain_logged {s : Session} {e : Engine σ} (hcap : e.capture.isSome) :
    Logged e (ev.drain (some s) e).2 ((s.childEnds ++ s.idleEnds).map .closed ++
      .drained s (ev.drain (some s) e).1 :: s.parentEnds.toList.map .closed) := by
  obtain ⟨io, hio⟩ : ∃ io, e.io = some io := by
    rw [capture, Option.isSome_map] at hcap
    exact Option.isSome_iff_exists.1 hcap
  simp only [drain, hio]
  exact Host.drain_events rfl

/-- draining changes only streams and the host -/
theorem drain_frame (session : Option Session) (e : Engine σ) :
    ∃ io host, (ev.drain session e).2 = { e with io, host } := by
  unfold drain
  split
  · exact ⟨_, _, rfl⟩
  · exact ⟨e.io, e.host, rfl⟩

/-- waiting changes only the host -/
theorem waitAll_frame (pids : List Pid) (e : Engine σ) : ∃ host, (ev.waitAll pids e).2 = { e with host } := by
  induction pids generalizing e with
  | nil => exact ⟨e.host, rfl⟩
  | cons pid rest ih => exact ih { e with host := (e.host.wait ev.backend pid).2 }

/-- what a group does behind its launch changes only streams and the host -/
theorem settled_frame (session : Option Session) (pids : List Pid) (e : Engine σ) :
    ∃ io host, (ev.waitAll pids (ev.drain session e).2).2 = { e with io, host } := by
  obtain ⟨io, host, hdrain⟩ := drain_frame ev session e
  obtain ⟨host', hwait⟩ := waitAll_frame ev pids (ev.drain session e).2
  exact ⟨io, host', by rw [hwait, hdrain]⟩

end Evaluation

end LineShell
