/-
What evaluation answers over a backend to depend on.

`Backend.Dependable` is what this asks of a backend: its calls fail in ways of their own only, and the statuses of
children lie in a range, as long as its state is one of those that it can come to. Then every operation answers with a
status of the range or with a failure that evaluation may have (`Answers`), and the status that is remembered stays in
the range, so that a bare `exit` answers with such a status, too. A failure that asks the shell to stop has come from
`exit`.

- `launchFrom_answering`: so does launching any tree at all.
- `execute_answers`: and evaluating it.
-/
import LineShell.Proofs.Launching

namespace LineShell

/-! ## statuses and failures -/

/-- the statuses of programs -/
def IsStatus (n : Int) : Prop := 0 ≤ n ∧ n ≤ 255

namespace Failure

/-- the failures of a backend -/
def OfBackend : Failure → Prop
  | pipe _ => True
  | spawn _ _ => True
  | read _ => True
  | wait _ => True
  | io _ => True
  | _ => False

/-- the failures of evaluation: those of the backend, targets that cannot be opened, and `exit` with a status of a
range -/
def OfEvaluation (range : Int → Prop) : Failure → Prop
  | redirect _ _ => True
  | exit n => range n
  | f => f.OfBackend

theorem OfBackend.ofEvaluation {range : Int → Prop} {f : Failure} (h : f.OfBackend) : f.OfEvaluation range := by
  cases f <;> first | exact h | exact h.elim

/-- the code of a failure of evaluation is none of those for lines that cannot be read -/
theorem OfEvaluation.code {range : Int → Prop} {f : Failure} (h : f.OfEvaluation range) (hexit : f.isExit = false) :
    f.code = -1 ∨ f.code = -4 ∨ f.code = -5 ∨ f.code = -6 := by
  cases f <;> simp_all [OfEvaluation, OfBackend, isExit, Failure.code, errorCode?, ErrorCode.toInt]

end Failure

/-- an answer: a good value, or a failure of a certain kind -/
def Ends {α : Type} (value : α → Prop) (failure : Failure → Prop) : Except Failure α → Prop
  | .ok a => value a
  | .error f => failure f

/-- A backend to depend on: in a state that is `fine` its calls fail in ways of their own only, and a child that has
been waited for has a status of the range; and its states stay fine. -/
structure Backend.Dependable {σ : Type} (b : Backend σ) (fine : σ → Prop) (range : Int → Prop) : Prop where
  pipe {s : σ} (w : World) : fine s → Ends (fun _ => True) Failure.OfBackend (b.pipe s w).1 ∧ fine (b.pipe s w).2.1
  spawn {s : σ} (r : SpawnRequest) (w : World) : fine s →
    Ends (fun _ => True) Failure.OfBackend (b.spawn r s w).1 ∧ fine (b.spawn r s w).2.1
  drain {s : σ} (ends : ParentEnds) (payload : Option Bytes) (w : World) : fine s →
    Ends (fun _ => True) Failure.OfBackend (b.drain ends payload s w).1.result ∧ fine (b.drain ends payload s w).2.1
  wait {s : σ} (pid : Pid) (w : World) : fine s →
    Ends range Failure.OfBackend (b.wait pid s w).1 ∧ fine (b.wait pid s w).2.1
  detach {s : σ} (pid : Pid) (w : World) : fine s → fine (b.detach pid s w).1

/-! ## what an operation answers -/

namespace Engine

variable {σ : Type}

/-- the shell was asked to stop between two engines: `exit` has run -/
def RanExit (e e' : Engine σ) : Prop := ∃ evs args, Logged e e' evs ∧ Event.ranBuiltin .exit args ∈ evs

theorem RanExit.before {e e' e'' : Engine σ} (hlog : e.events <+: e'.events) (h : RanExit e' e'') : RanExit e e'' := by
  obtain ⟨evs, args, hevs, hmem⟩ := h
  obtain ⟨first, hfirst⟩ := hlog
  exact ⟨first ++ evs, args, Logged.trans hfirst.symm hevs, List.mem_append_right first hmem⟩

theorem RanExit.behind {e e' e'' : Engine σ} (h : RanExit e e') (hlog : e'.events <+: e''.events) : RanExit e e'' := by
  obtain ⟨evs, args, hevs, hmem⟩ := h
  obtain ⟨last, hlast⟩ := hlog
  exact ⟨evs ++ last, args, hevs.trans hlast.symm, List.mem_append_left last hmem⟩

end Engine

section

variable {σ : Type} (fine : σ → Prop) (range : Int → Prop)

/-- an engine whose backend is fine and which remembers a status of the range -/
structure Engine.Fine (e : Engine σ) : Prop where
  state : fine e.host.state
  status : range e.lastStatus

/-- what has come of an operation on the engine `e`: a good value or a failure of evaluation, and a fine engine. The
log has only grown, and if the failure asks the shell to stop then `exit` has run. -/
structure Answers {α : Type} (value : α → Prop) (e : Engine σ) (x : Except Failure α × Engine σ) : Prop where
  result : Ends value (Failure.OfEvaluation range) x.1
  fine : x.2.Fine fine range
  log : e.events <+: x.2.events
  stopped : ∀ n, x.1 = .error (.exit n) → Engine.RanExit e x.2

/-- the outcome of a stage that may have a status -/
def GoodOutcome : StageOutcome → Prop
  | .finished status => range status
  | .started => True

/-- a launcher whose launches answer well -/
def Answering (launch : Launcher σ) : Prop :=
  ∀ ctx session {e : Engine σ}, e.Fine fine range →
    Answers fine range (GoodOutcome range) e ((launch ctx session e).outcome, (launch ctx session e).engine)

end

section

variable {σ : Type} {fine : σ → Prop} {range : Int → Prop} {α β : Type} {value : α → Prop} {value' : β → Prop}
  {e e' e'' : Engine σ}

namespace Answers

/-- a second operation goes on where a first one has ended -/
theorem trans {x : Except Failure α × Engine σ} {y : Except Failure β × Engine σ} (h : Answers fine range value e x)
    (h' : Answers fine range value' x.2 y) : Answers fine range value' e y :=
  ⟨h'.result, h'.fine, h.log.trans h'.log, fun n hn => (h'.stopped n hn).before h.log⟩

/-- nothing is answered by what follows an operation but does not answer itself -/
theorem follow {r : Except Failure α} (h : Answers fine range value e (r, e')) (hfine : e''.Fine fine range)
    (hlog : e'.events <+: e''.events) : Answers fine range value e (r, e'') :=
  ⟨h.result, hfine, h.log.trans hlog, fun n hn => (h.stopped n hn).behind hlog⟩

theorem map {r : Except Failure α} (f : α → β) (hf : ∀ a, value a → value' (f a))
    (h : Answers fine range value e (r, e')) : Answers fine range value' e (r.map f, e') := by
  refine ⟨?_, h.fine, h.log, fun n hn => h.stopped n ?_⟩
  · have hresult := h.result
    cases r with
    | ok a => exact hf a hresult
    | error f => exact hresult
  · cases r with
    | ok a => cases hn
    | error f => exact congrArg Except.error (Except.error.inj hn)

/-- an operation that has failed may have failed as another one -/
theorem of_error {f : Failure} (h : Answers fine range value e (.error f, e')) :
    Answers fine range value' e (.error f, e') :=
  ⟨h.result, h.fine, h.log, fun n hn => h.stopped n (by rw [Except.error.inj hn])⟩

/-- something has been asked of the host that fails as the backend does -/
theorem of_host {r : Except Failure α} {host : Host σ} (he : e.Fine fine range) (hr : Ends value Failure.OfBackend r)
    (hstate : fine host.state) (hlog : e.host.events <+: host.events) :
    Answers fine range value e (r, { e with host }) := by
  refine ⟨?_, ⟨hstate, he.status⟩, hlog, ?_⟩
  · cases r with
    | ok a => exact hr
    | error f => exact Failure.OfBackend.ofEvaluation hr
  · rintro n rfl
    exact hr.elim

/-- nothing has happened -/
theorem of_ok {a : α} (he : e.Fine fine range) (ha : value a) : Answers fine range value e (.ok a, e) :=
  ⟨ha, he, List.prefix_rfl, nofun⟩

end Answers

end

namespace Engine

variable {σ : Type} {fine : σ → Prop} {range : Int → Prop} {e : Engine σ}

/-- what is sent to the streams of the shell changes nothing else -/
theorem Fine.sendAll (h : e.Fine fine range) (chunks : List (Output × Bytes)) :
    (Engine.sendAll chunks e).2.Fine fine range := by
  obtain ⟨io, world, writes, hsend⟩ := sendAll_frame e chunks
  rw [hsend]
  exact ⟨h.state, h.status⟩

theorem Fine.report (h : e.Fine fine range) (f : Failure) : (e.report f).Fine fine range := by
  obtain ⟨io, world, writes, hsend⟩ :=
    send_frame { e with host := e.host.note (.reported f) } .stderr (Text.bytes f.report)
  rw [Engine.report, emit, hsend]
  exact ⟨h.state, h.status⟩

end Engine

/-! ## builtins -/

namespace Builtin

variable {range : Int → Prop} (hrange : ∀ n, IsStatus n → range n)

include hrange

theorem cdTo_status (target : String) (w : World) : range (cdTo target w).status := by
  unfold cdTo
  split
  · exact hrange 1 ⟨by decide, by decide⟩
  · split
    · split
      · exact hrange 0 ⟨by decide, by decide⟩
      · exact hrange 1 ⟨by decide, by decide⟩
    · exact hrange 1 ⟨by decide, by decide⟩

/-- a builtin has a status of its own, or the one that was remembered -/
theorem run_status (b : Builtin) (args : List String) {lastStatus : Int} (hlast : range lastStatus)
    (home : Option String) (w : World) : range (b.run args lastStatus home w).status := by
  cases b with
  | cd =>
    simp only [run, runCd]
    split
    · exact hrange 1 ⟨by decide, by decide⟩
    · split
      · exact hrange 1 ⟨by decide, by decide⟩
      · exact cdTo_status hrange _ w
  | exit =>
    simp only [run, runExit]
    split
    · exact hlast
    · split
      · rename_i n _
        exact hrange (n % 256) ⟨by omega, by omega⟩
      · exact hrange 2 ⟨by decide, by decide⟩
  | pwd =>
    simp only [run, runPwd]
    split
    · exact hrange 0 ⟨by decide, by decide⟩
    · exact hrange 1 ⟨by decide, by decide⟩

theorem dispatch_status (b : Builtin) (args : List String) {lastStatus : Int} (hlast : range lastStatus)
    (home : Option String) (output : Option Descriptor) (w : World) :
    ∀ n, (b.dispatch args lastStatus home output w).result = .ok n → range n := by
  have hstatus := run_status hrange b args hlast home w
  intro n hn
  unfold dispatch at hn
  simp only at hn
  split at hn
  · exact Except.ok.inj hn ▸ hstatus
  · split at hn
    · exact Except.ok.inj hn ▸ hstatus
    · split at hn
      · exact Except.ok.inj hn ▸ hstatus
      · cases hn

end Builtin

/-! ## what every operation answers -/

namespace Host

variable {σ : Type} {b : Backend σ} {fine : σ → Prop} {failure : Failure → Prop}

theorem closeAll_state (h : Host σ) (ds : List Descriptor) : (h.closeAll ds).state = h.state := by
  induction ds generalizing h with
  | nil => rfl
  | cons d ds ih => exact ih (h.close d)

theorem closeAll_log (h : Host σ) (ds : List Descriptor) : h.events <+: (h.closeAll ds).events :=
  ⟨_, (events_closeAll h ds).symm⟩

section

variable (hpipe : ∀ s w, fine s → Ends (fun _ => True) failure (b.pipe s w).1 ∧ fine (b.pipe s w).2.1)

include hpipe

theorem pipe_fine {h h' : Host σ} {r : Except Failure Pipe} (hs : fine h.state) (hp : h.pipe b = (r, h')) :
    Ends (fun _ => True) failure r ∧ fine h'.state := by
  cases hp
  exact hpipe h.state h.world hs

/-- the pipes of a session are made, or one of them fails as pipes of the backend do -/
theorem makePipes_fine {withStdin feeds : Bool} {h h' : Host σ} {r : Except Failure Session} (hs : fine h.state)
    (hm : h.makePipes b withStdin feeds = (r, h')) : Ends (fun _ => True) failure r ∧ fine h'.state := by
  unfold makePipes at hm
  split at hm
  · rename_i f h1 hp1
    cases hm
    exact pipe_fine hpipe hs hp1
  · rename_i out h1 hp1
    have hs1 := (pipe_fine hpipe hs hp1).2
    split at hm
    · rename_i f h2 hp2
      cases hm
      rw [closeAll_state]
      exact pipe_fine hpipe hs1 hp2
    · rename_i err h2 hp2
      have hs2 := (pipe_fine hpipe hs1 hp2).2
      split at hm
      · split at hm
        · rename_i f h3 hp3
          cases hm
          rw [closeAll_state]
          exact pipe_fine hpipe hs2 hp3
        · rename_i input h3 hp3
          cases hm
          exact ⟨trivial, (pipe_fine hpipe hs2 hp3).2⟩
      · cases hm
        exact ⟨trivial, hs2⟩

theorem openSession_fine {withStdin feeds : Bool} {h h' : Host σ} {r : Except Failure Session} (hs : fine h.state)
    (ho : h.openSession b withStdin feeds = (r, h')) : Ends (fun _ => True) failure r ∧ fine h'.state := by
  unfold openSession at ho
  split at ho
  · rename_i f h1 hm
    cases ho
    exact makePipes_fine hpipe hs hm
  · rename_i session h1 hm
    cases ho
    exact ⟨trivial, (makePipes_fine hpipe hs hm).2⟩

end

theorem drain_fine (hdrain : ∀ ends payload s w, fine s →
      Ends (fun _ => True) failure (b.drain ends payload s w).1.result ∧ fine (b.drain ends payload s w).2.1)
    {session : Session} {payload : Option Bytes} {h h' : Host σ} {d : Drained} (hs : fine h.state)
    (hd : h.drain b session payload = (d, h')) : Ends (fun _ => True) failure d.result ∧ fine h'.state := by
  cases hd
  rw [← closeAll_state h (session.childEnds ++ session.idleEnds)] at hs
  obtain ⟨hr, hs'⟩ := hdrain session.parentEnds payload _ (h.closeAll (session.childEnds ++ session.idleEnds)).world hs
  exact ⟨hr, (congrArg fine (closeAll_state _ session.parentEnds.toList)).mpr hs'⟩

end Host

namespace Engine

variable {σ : Type}

theorem Logged.grown {e e' : Engine σ} {evs : List Event} (h : Logged e e' evs) : e.events <+: e'.events :=
  ⟨evs, h.symm⟩

end Engine

/-- closing descriptors behind an operation changes nothing of what it answers -/
theorem Answers.closeAll {σ α : Type} {fine : σ → Prop} {range : Int → Prop} {value : α → Prop} {e e' : Engine σ}
    {r : Except Failure α} (h : Answers fine range value e (r, e')) (ds : List Descriptor) :
    Answers fine range value e (r, e'.closeAll ds) := by
  refine h.follow ⟨?_, h.fine.status⟩ (Host.closeAll_log _ _)
  exact (Host.closeAll_state e'.host ds).symm ▸ h.fine.state

namespace Evaluation

open Engine

variable {σ : Type} {fine : σ → Prop} {range : Int → Prop} {ev : Evaluation σ} {e : Engine σ}
  (hb : ev.backend.Dependable fine range)

section

include hb

theorem openSession_answers (ctx : Context) (he : e.Fine fine range) :
    Answers fine range (fun _ => True) e (ev.openSession ctx e) := by
  unfold openSession
  split
  · split
    · exact .of_ok he trivial
    · split
      · rename_i f host ho
        obtain ⟨hr, hs⟩ := Host.openSession_fine (fun _ w => hb.pipe w) he.state ho
        refine .of_host he hr hs ?_
        rcases Host.openSession_events ho with ⟨_, _, _, _, h⟩ | ⟨_, _, _, h⟩
        · exact ⟨_, h.symm⟩
        · exact ⟨_, h.symm⟩
      · rename_i session host ho
        obtain ⟨-, hs⟩ := Host.openSession_fine (fun _ w => hb.pipe w) he.state ho
        refine .of_host (r := .ok (some session)) he trivial hs ?_
        rcases Host.openSession_events ho with ⟨_, _, _, _, h⟩ | ⟨_, _, _, h⟩
        · exact ⟨_, h.symm⟩
        · exact ⟨_, h.symm⟩
  · exact .of_ok he trivial

/-- carrying the streams of a group ends well or as the backend fails -/
theorem drain_answers (session : Option Session) (he : e.Fine fine range) :
    Answers fine range (fun _ => True) e (ev.drain session e) := by
  unfold drain
  split
  · rename_i s io _
    cases hd : e.host.drain ev.backend s io.stdin with
    | mk d host =>
      obtain ⟨hr, hs⟩ := Host.drain_fine (fun ends payload _ w => hb.drain ends payload w) he.state hd
      have hanswers : Answers fine range (fun _ => True) e (d.result, { e with host }) :=
        .of_host he hr hs ⟨_, (Host.drain_events hd).symm⟩
      refine hanswers.follow ⟨hs, he.status⟩ ?_
      exact List.prefix_rfl
  · exact .of_ok he trivial

/-- waiting for children comes to a status of the range, if there are any -/
theorem waitAll_answers (pids : List Pid) (he : e.Fine fine range) :
    Answers fine range (fun last => ∀ n, last = some n → range n) e (ev.waitAll pids e) := by
  induction pids generalizing e with
  | nil => exact .of_ok he nofun
  | cons pid rest ih =>
    obtain ⟨hr, hs⟩ := hb.wait pid e.host.world he.state
    have hwait : Answers fine range range e
        ((e.host.wait ev.backend pid).1, { e with host := (e.host.wait ev.backend pid).2 }) :=
      .of_host he hr hs ⟨_, (Host.wait_events rfl).symm⟩
    have hrest := ih hwait.fine
    simp only [waitAll]
    cases hw : (e.host.wait ev.backend pid).1 with
    | error f =>
      rw [hw] at hwait
      exact hwait.of_error.follow hrest.fine hrest.log
    | ok status =>
      rw [hw] at hwait
      refine hwait.trans (hrest.map _ fun last hlast n hn => ?_)
      cases last with
      | none => exact Option.some.inj hn ▸ hwait.result
      | some m => exact hlast n hn

end

variable (hrange : ∀ n, IsStatus n → range n)

section

include hrange

theorem perform_answers (ev : Evaluation σ) (builtin : Builtin) (args : List String) (ctx : Context)
    (he : e.Fine fine range) : Answers fine range range e (ev.perform builtin args ctx e) := by
  have hlog := perform_logged ev builtin args ctx e
  have hfine : (ev.perform builtin args ctx e).2.Fine fine range := by
    refine Fine.sendAll ?_ _
    exact ⟨he.state, he.status⟩
  have hstatus := Builtin.dispatch_status hrange builtin args he.status ev.settings.home ctx.output e.host.world
  have hanswer : (ev.perform builtin args ctx e).1 = answer builtin _ _ := rfl
  rcases answer_cases builtin
    (builtin.dispatch args e.lastStatus ev.settings.home ctx.output e.host.world).result _ with
      ⟨f, hr⟩ | ⟨status, hok, hr⟩
  · rw [hr] at hanswer
    exact ⟨hanswer ▸ trivial, hfine, hlog.grown, fun n hn => nomatch hanswer.symm.trans hn⟩
  · rw [hr] at hanswer
    refine ⟨?_, hfine, hlog.grown, fun n hn => ⟨_, args, hlog, ?_⟩⟩
    · rw [hanswer]
      split
      · exact hstatus status hok
      · exact hstatus status hok
    · rw [hanswer] at hn
      split at hn
      · rename_i hexit
        exact hexit ▸ List.mem_cons_self
      · cases hn

/-- a builtin answers with a status, or with the request to stop if it is `exit` -/
theorem runBuiltin_answers (ev : Evaluation σ) (builtin : Builtin) (args : List String) (ctx : Context)
    (he : e.Fine fine range) : Answers fine range range e (ev.runBuiltin builtin args ctx e) := by
  rcases ev.runBuiltin_cases builtin args ctx e with ⟨-, hrun⟩ | ⟨d, -, hlog, ⟨f, -, hrun⟩ | ⟨-, hrun⟩⟩
  · rw [hrun]
    exact perform_answers hrange ev builtin args ctx he
  · rw [hrun]
    exact ⟨trivial, ⟨he.state, he.status⟩, ⟨_, hlog.symm⟩, nofun⟩
  · rw [hrun]
    have hopen : Answers fine range (fun _ : Unit => True) e (.ok (), { e with host := (e.host.duplicate d).2 }) :=
      ⟨trivial, ⟨he.state, he.status⟩, ⟨_, hlog.symm⟩, nofun⟩
    exact (hopen.trans (perform_answers hrange ev builtin args ctx ⟨he.state, he.status⟩)).closeAll [d]

end

include hb

theorem startChild_answering (argv : List String) : Answering fine range (ev.startChild argv) := by
  intro ctx session e he
  obtain ⟨hr, hs⟩ := hb.spawn (request argv ctx session) e.host.world he.state
  have hspawn : Answers fine range (fun _ => True) e ((e.host.spawn ev.backend (request argv ctx session)).1,
      { e with host := (e.host.spawn ev.backend (request argv ctx session)).2 }) :=
    .of_host he hr hs ⟨_, (Host.spawn_events rfl).symm⟩
  unfold startChild
  simp only
  split
  · rename_i f host heq
    rw [heq] at hspawn
    exact hspawn.of_error
  · rename_i pid host heq
    rw [heq] at hspawn
    have hstarted : Answers fine range (GoodOutcome range) e (.ok .started, { e with host }) :=
      hspawn.map (fun _ => StageOutcome.started) fun _ _ => trivial
    split
    · refine hstarted.follow ⟨hb.detach pid _ hspawn.fine.state, he.status⟩ ⟨[.detached pid], ?_⟩
      exact (Host.events_detach host pid).symm
    · exact hstarted.follow ⟨hspawn.fine.state, he.status⟩ List.prefix_rfl

include hrange

theorem launchCommand_answering (words : List Span) : Answering fine range (ev.launchCommand words) := by
  intro ctx session e he
  unfold launchCommand
  split
  · exact .of_ok he (hrange 0 ⟨by decide, by decide⟩)
  · split
    · rename_i builtin _
      exact (runBuiltin_answers hrange ev builtin _ ctx he).map StageOutcome.finished fun _ h => h
    · exact startChild_answering hb _ ctx session he

omit hb hrange in
theorem closing_answers (inlet : Option Descriptor) {l : Launched σ}
    (h : Answers fine range (GoodOutcome range) e (l.outcome, l.engine)) :
    Answers fine range (GoodOutcome range) e ((closing inlet l).outcome, (closing inlet l).engine) :=
  h.closeAll inlet.toList

omit hb hrange in
theorem asStage_answers {x : Except Failure Int × Engine σ} (h : Answers fine range range e x) :
    Answers fine range (GoodOutcome range) e ((asStage x).outcome, (asStage x).engine) :=
  h.map StageOutcome.finished fun _ h => h

omit hb hrange in
theorem launchRedirected_answering (direction : Direction) (target : Span) {inner : Launcher σ}
    (hinner : Answering fine range inner) : Answering fine range (ev.launchRedirected direction target inner) := by
  intro ctx session e he
  cases ho : e.host.openTarget direction (target.text ev.line) with
  | mk r host =>
    have hstate : host.state = e.host.state := by
      unfold Host.openTarget at ho
      simp only at ho
      split at ho <;> (cases ho; rfl)
    have hfine : ({ e with host } : Engine σ).Fine fine range := ⟨hstate ▸ he.state, he.status⟩
    rcases Host.openTarget_events ho with ⟨d, rfl, hlog⟩ | ⟨f, rfl, hlog⟩
    · rw [launchRedirected_opened ev ho]
      have hopen : Answers fine range (fun _ : Unit => True) e (.ok (), { e with host }) :=
        ⟨trivial, hfine, ⟨_, hlog.symm⟩, nofun⟩
      exact closing_answers (some d) (hopen.trans (hinner _ session hfine))
    · rw [launchRedirected_refused ev ho]
      exact ⟨trivial, hfine, ⟨_, hlog.symm⟩, nofun⟩

/-! ### a group -/

/-- settling a group answers as the first part of it that failed, or with a status -/
theorem settle_answers (session : Option Session) {l : Launched σ}
    (h : Answers fine range (GoodOutcome range) e (l.outcome, l.engine)) :
    Answers fine range range e (ev.settle session l) := by
  have hdrain : Answers fine range (fun _ => True) l.engine (ev.drain session l.engine) :=
    drain_answers hb session h.fine
  have hwait := waitAll_answers hb l.started hdrain.fine
  unfold settle
  cases ho : l.outcome with
  | error f =>
    rw [ho] at h
    exact (h.of_error.follow hdrain.fine hdrain.log).follow hwait.fine hwait.log
  | ok outcome =>
    rw [ho] at h
    have hdrained := h.trans hdrain
    cases hd : ev.drain session l.engine with
    | mk drained e' =>
    cases drained with
    | error f =>
      rw [hd] at hdrained hwait
      exact hdrained.of_error.follow hwait.fine hwait.log
    | ok _ =>
      have hwaited := hdrained.trans hwait
      rw [hd] at hwaited
      simp only
      cases hw : ev.waitAll l.started e' with
      | mk waited e'' =>
      cases waited with
      | error f =>
        rw [hw] at hwaited
        exact hwaited.of_error
      | ok last =>
        rw [hw] at hwaited
        refine hwaited.map (groupStatus outcome) fun last hlast => ?_
        cases outcome with
        | finished status => exact h.result
        | started =>
          cases last with
          | none => exact hrange 0 ⟨by decide, by decide⟩
          | some n => exact hlast n rfl

theorem runGroup_answers {launch : Launcher σ} (hlaunch : Answering fine range launch) (ctx : Context)
    (he : e.Fine fine range) : Answers fine range range e (ev.runGroup launch ctx e) := by
  have hopen := openSession_answers hb ctx he
  unfold runGroup
  split
  · rename_i f e' ho
    rw [ho] at hopen
    exact hopen.of_error
  · rename_i session e' ho
    rw [ho] at hopen
    have hl := hopen.trans (hlaunch ctx session hopen.fine)
    simp only
    split
    · exact hl.map _ fun _ _ => hrange 0 ⟨by decide, by decide⟩
    · exact settle_answers hb hrange session hl

/-- a group that fails is remembered as status 1 -/
theorem executeGroup_answers {launch : Launcher σ} (hlaunch : Answering fine range launch) (ctx : Context)
    (he : e.Fine fine range) : Answers fine range range e (ev.executeGroup launch ctx e) := by
  have hrun := runGroup_answers hb hrange hlaunch ctx he
  unfold executeGroup
  split
  · rename_i status e' hr
    rw [hr] at hrun
    exact hrun.follow ⟨hrun.fine.state, hrun.result⟩ (by exact List.prefix_rfl)
  · rename_i status e' hr
    rw [hr] at hrun
    exact hrun
  · rename_i f e' _ hr
    rw [hr] at hrun
    have hone : ({ e' with lastStatus := 1 } : Engine σ).Fine fine range :=
      ⟨hrun.fine.state, hrange 1 ⟨by decide, by decide⟩⟩
    exact hrun.follow (hone.report f) (Logged.grown (events_report { e' with lastStatus := 1 } f))

theorem executeStatement_answers {launch : Launcher σ} (hlaunch : Answering fine range launch) (sep : Separator)
    (ctx : Context) (he : e.Fine fine range) : Answers fine range range e (ev.executeStatement launch sep ctx e) := by
  cases sep with
  | sequence => exact executeGroup_answers hb hrange hlaunch ctx he
  | background =>
    have hgroup := executeGroup_answers hb hrange hlaunch { ctx with background := true } he
    exact hgroup.map (fun _ => 0) fun _ _ => hrange 0 ⟨by decide, by decide⟩

theorem executeWith_answers (isStatement : Bool) {launch : Launcher σ} (hlaunch : Answering fine range launch)
    (ctx : Context) (he : e.Fine fine range) :
    Answers fine range range e (ev.executeWith isStatement launch ctx e) := by
  cases isStatement with
  | true =>
    refine (hlaunch ctx none he).map (fun o => groupStatus o none) fun o ho => ?_
    cases o with
    | finished status => exact ho
    | started => exact hrange 0 ⟨by decide, by decide⟩
  | false => exact executeGroup_answers hb hrange hlaunch ctx he

/-! ### a tree -/

omit hrange in
theorem launchPipe_answering {left right : Tree} (hleft : Answering fine range (ev.launchFrom left none))
    (hright : ∀ inlet, Answering fine range (ev.launchFrom right inlet)) (inlet : Option Descriptor) :
    Answering fine range (ev.launchFrom (.pipe left right) inlet) := by
  intro ctx session e he
  obtain ⟨hr, hs⟩ := hb.pipe e.host.world he.state
  have hpipe : Answers fine range (fun _ => True) e
      ((e.host.pipe ev.backend).1, { e with host := (e.host.pipe ev.backend).2 }) :=
    .of_host he hr hs ⟨_, (Host.pipe_events rfl).symm⟩
  simp only [launchFrom]
  split
  · rename_i f host hp
    rw [hp] at hpipe
    exact closing_answers inlet (l := ⟨.error f, [], { e with host }⟩) hpipe.of_error
  · rename_i pipe host hp
    rw [hp] at hpipe
    have hl := hpipe.trans (hleft { ctx with output := some pipe.writer } session hpipe.fine)
    split
    · rename_i f hf
      rw [hf] at hl
      exact hl.of_error.closeAll _
    · have hclosed := hl.closeAll (inlet.toList ++ [pipe.writer])
      exact hclosed.trans (hright (some pipe.reader) { ctx with input := some pipe.reader } session hclosed.fine)

/-- launching any tree answers with a status, or with a failure of evaluation -/
theorem launchFrom_answering (t : Tree) (inlet : Option Descriptor) : Answering fine range (ev.launchFrom t inlet) := by
  induction t generalizing inlet with
  | command words =>
    intro ctx session e he
    exact closing_answers inlet (launchCommand_answering hb hrange words ctx session he)
  | redirect direction target inner ih =>
    intro ctx session e he
    exact closing_answers inlet (launchRedirected_answering direction target (ih none) ctx session he)
  | pipe left right ihl ihr => exact launchPipe_answering hb (ihl none) ihr inlet
  | ended left sep ih =>
    intro ctx session e he
    exact closing_answers inlet (asStage_answers (executeStatement_answers hb hrange (ih none) sep ctx he))
  | chained left sep right ihl ihr =>
    intro ctx session e he
    refine closing_answers inlet (asStage_answers ?_)
    have hfirst := executeStatement_answers hb hrange (ihl none) sep ctx he
    split
    · rename_i status e' hr
      rw [hr] at hfirst
      exact hfirst
    · rename_i r e' _ hr
      rw [hr] at hfirst
      exact hfirst.trans (executeWith_answers hb hrange right.isStatement (ihr none) ctx hfirst.fine)

/-- evaluating any tree answers with a status of the range or with a failure of evaluation, and if it stops the shell
then `exit` has run -/
theorem execute_answers (t : Tree) (ctx : Context) (he : e.Fine fine range) :
    Answers fine range range e (ev.execute t ctx e) :=
  executeWith_answers hb hrange t.isStatement (launchFrom_answering hb hrange t none) ctx he

end Evaluation

end LineShell
