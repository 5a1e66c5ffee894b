/-
The children that were let go.

The shell keeps a record of every child of the background that it has started: a number, the process, and the program
that was asked for. Nothing else gets a record and no record is ever changed, so the records are the background
children of the log, numbered in the order in which they were started (`numbered`). A child that was started keeps its
record, also if its pipeline could not be launched to its end.

What a child is started with depends on where its command stands in the tree. `Tree.commands` lists the commands of a
tree with their places: whether a file or a pipe takes the place of a stream, and whether the command is in the
background.

- `Course.jobs`: along any course of evaluation the records grow by the children that were let go on the way.
- `launchFrom_asks`: every child that is asked for is a command of the tree at its place. One of the background has no
  stream of a session.
- `executeAll_jobs`: both, for any trees that are evaluated one after the other.
-/
import LineShell.Backend.Scripted
import LineShell.Proofs.Launching

namespace LineShell

/-! ## events and records -/

namespace Event

/-- does the event ask for a child? -/
def spawns : Event → Bool
  | spawned _ _ => true
  | _ => false

/-- the child that an event starts in the background, with what was asked for -/
def letGo? : Event → Option (SpawnRequest × Pid)
  | spawned request (.ok pid) => if request.background then some (request, pid) else none
  | _ => none

theorem letGo?_eq_none {x : Event} (h : x.spawns = false) : x.letGo? = none := by
  cases x <;> first | rfl | cases h

end Event

/-- the records of children, numbered on from `n` -/
def JobRecord.numbered (n : Nat) (children : List (SpawnRequest × Pid)) : List JobRecord :=
  (children.zipIdx (n + 1)).map fun c => ⟨c.2, c.1.2, c.1.1.program⟩

theorem JobRecord.numbered_append (n : Nat) (children others : List (SpawnRequest × Pid)) :
    numbered n (children ++ others) = numbered n children ++ numbered (n + children.length) others := by
  rw [numbered, List.zipIdx_append, List.map_append, Nat.add_right_comm]
  rfl

theorem JobRecord.length_numbered (n : Nat) (children : List (SpawnRequest × Pid)) :
    (numbered n children).length = children.length := by
  simp [numbered]

theorem JobRecord.ids_numbered (n : Nat) (children : List (SpawnRequest × Pid)) :
    (numbered n children).map (·.id) = List.range' (n + 1) children.length := by
  rw [numbered, List.map_map]
  exact List.zipIdx_map_snd _ _

/-! ## the records along a course -/

namespace Engine

variable {σ : Type}

/-- between two engines nothing was asked of the backend but what starts no child, and no record was made -/
structure Childless (e e' : Engine σ) : Prop where
  log : ∃ evs, Logged e e' evs ∧ ∀ x ∈ evs, x.spawns = false
  records : e'.background = e.background

/-- between two engines the records have grown by the children that were let go -/
def Recorded (e e' : Engine σ) : Prop :=
  ∃ evs, Logged e e' evs ∧ e'.jobs = e.jobs ++ JobRecord.numbered e.jobs.length (evs.filterMap Event.letGo?)

theorem Recorded.trans {e e' e'' : Engine σ} (h : Recorded e e') (h' : Recorded e' e'') : Recorded e e'' := by
  obtain ⟨evs, hlog, hjobs⟩ := h
  obtain ⟨evs', hlog', hjobs'⟩ := h'
  refine ⟨evs ++ evs', hlog.trans hlog', ?_⟩
  rw [hjobs', hjobs, List.length_append, JobRecord.length_numbered, List.append_assoc, ← JobRecord.numbered_append,
    List.filterMap_append]

theorem Childless.recorded {e e' : Engine σ} (h : Childless e e') : Recorded e e' := by
  obtain ⟨⟨evs, hlog, hno⟩, hrecords⟩ := h
  refine ⟨evs, hlog, ?_⟩
  rw [List.filterMap_eq_nil_iff.2 fun x hx => Event.letGo?_eq_none (hno x hx), jobs, hrecords]
  exact (List.append_nil _).symm

theorem Childless.of_logged {e e' : Engine σ} {evs : List Event} (hlog : Logged e e' evs)
    (hno : ∀ x ∈ evs, x.spawns = false) (hrecords : e'.background = e.background) : Childless e e' :=
  ⟨⟨evs, hlog, hno⟩, hrecords⟩

end Engine

namespace Evaluation

open Engine

variable {σ : Type} {ev : Evaluation σ}

theorem spawns_closed (ds : List Descriptor) : ∀ x ∈ ds.map Event.closed, x.spawns = false := by
  intro x hx
  obtain ⟨d, -, rfl⟩ := List.mem_map.1 hx
  rfl

theorem Opening.spawns {background delivered : Bool} {capture : Option (Option Bytes)}
    {r : Except Failure (Option Session)} {evs : List Event} (h : Opening background capture delivered r evs) :
    ∀ x ∈ evs, x.spawns = false := by
  intro x hx
  rcases h.of_mem hx with ⟨_, rfl⟩ | ⟨_, rfl⟩ | ⟨_, rfl⟩ <;> rfl

theorem openSession_childless {ctx : Context} {e e' : Engine σ} {r : Except Failure (Option Session)}
    (h : ev.openSession ctx e = (r, e')) : Childless e e' := by
  obtain ⟨⟨evs, hlog, hopen⟩, he'⟩ := openSession_opening ev h
  exact .of_logged hlog hopen.spawns (by rw [he'])

theorem runBuiltin_childless (b : Builtin) (args : List String) (ctx : Context) (e : Engine σ) :
    Childless e (ev.runBuiltin b args ctx e).2 := by
  obtain ⟨io, host, h⟩ := runBuiltin_frame ev b args ctx e
  rcases runBuiltin_logged ev b args ctx e with hlog | ⟨d, f, -, -, hlog⟩
  · refine .of_logged hlog (fun x hx => ?_) (by rw [h])
    rcases Event.of_mem_performed hx with ⟨_, rfl⟩ | rfl | ⟨_, rfl⟩ <;> rfl
  · exact .of_logged hlog (by simp [Event.spawns]) (by rw [h])

/-- what evaluation does by itself starts no child -/
theorem Act.childless {e e' : Engine σ} (h : ev.Act e e') : Childless e e' := by
  cases h with
  | pipe => exact .of_logged (Host.pipe_events rfl) (by simp [Event.spawns]) rfl
  | openTarget _ dir path =>
    rcases Host.openTarget_events (show e.host.openTarget dir path = _ from rfl) with ⟨d, -, he⟩ | ⟨f, -, he⟩
    · exact .of_logged he (by simp [Event.spawns]) rfl
    · exact .of_logged he (by simp [Event.spawns]) rfl
  | close _ ds => exact .of_logged (events_closeAll e ds) (spawns_closed ds) rfl
  | duplicate _ d => exact .of_logged (Host.events_duplicate e.host d) (by simp [Event.spawns]) rfl
  | perform b args ctx =>
    obtain ⟨io, host, h⟩ := perform_frame ev b args ctx e
    exact .of_logged (perform_logged ev b args ctx e) (by simp [Event.spawns]) (by rw [h])
  | unopened ho => exact openSession_childless ho
  | remember _ status => exact .of_logged (show Logged e _ [] by simp [Logged, events]) (by simp) rfl
  | report _ f =>
    obtain ⟨io, host, h⟩ := report_frame e f
    exact .of_logged (events_report e f) (by simp [Event.spawns]) (by rw [h])

/-- draining and waiting start no child -/
theorem settled_childless (session : Option Session) (ps : List Pid) {e : Engine σ}
    (hcap : session.isSome → e.capture.isSome) : Childless e (ev.waitAll ps (ev.drain session e).2).2 := by
  obtain ⟨hdrain, -⟩ := drain_trace ev session hcap
  obtain ⟨rs, -, -, hwait, -⟩ := waitAll_trace ev ps (ev.drain session e).2
  obtain ⟨io, host, hsettled⟩ := settled_frame ev session ps e
  refine .of_logged (hdrain.trans hwait) (List.forall_mem_append.2 ⟨fun x hx => ?_, fun x hx => ?_⟩) (by rw [hsettled])
  · rcases of_mem_draining hx with ⟨_, rfl⟩ | ⟨_, rfl⟩ <;> rfl
  · obtain ⟨_, _, rfl⟩ := of_mem_waited hx
    rfl

/-- asking for a child, in the three ways in which it can go: it is refused, it is let go and gets a record, or it is
waited for later -/
theorem startChild_records (argv : List String) (ctx : Context) (session : Option Session) (e : Engine σ) :
    (∃ f, Logged e (ev.startChild argv ctx session e).engine [.spawned (request argv ctx session) (.error f)] ∧
      (ev.startChild argv ctx session e).engine.background = e.background) ∨
    (∃ pid, ctx.background = true ∧
      Logged e (ev.startChild argv ctx session e).engine
        [.spawned (request argv ctx session) (.ok pid), .detached pid] ∧
      (ev.startChild argv ctx session e).engine.background =
        ⟨e.background.length + 1, pid, (request argv ctx session).program⟩ :: e.background) ∨
    ∃ pid, ctx.background = false ∧
      Logged e (ev.startChild argv ctx session e).engine [.spawned (request argv ctx session) (.ok pid)] ∧
      (ev.startChild argv ctx session e).engine.background = e.background := by
  unfold startChild
  simp only
  split
  · rename_i f host hs
    exact .inl ⟨f, Host.spawn_events hs, rfl⟩
  · rename_i pid host hs
    have hspawn : Logged e { e with host } [.spawned (request argv ctx session) (.ok pid)] := Host.spawn_events hs
    split
    · rename_i hbg
      have hdetach : Logged { e with host } { e with host := host.detach ev.backend pid } [.detached pid] :=
        Host.events_detach host pid
      exact .inr (.inl ⟨pid, hbg, hspawn.trans hdetach, rfl⟩)
    · rename_i hbg
      exact .inr (.inr ⟨pid, by simpa using hbg, hspawn, rfl⟩)

/-- a child of the background is recorded when it is let go, behind all the others -/
theorem startChild_recorded (argv : List String) (ctx : Context) (session : Option Session) (e : Engine σ) :
    Recorded e (ev.startChild argv ctx session e).engine := by
  have hrequest : (request argv ctx session).background = ctx.background := rfl
  rcases startChild_records argv ctx session e with ⟨f, hlog, hrec⟩ | ⟨pid, hbg, hlog, hrec⟩ | ⟨pid, hbg, hlog, hrec⟩
  · exact ⟨_, hlog, by simp [jobs, hrec, Event.letGo?, JobRecord.numbered]⟩
  · exact ⟨_, hlog, by simp [jobs, hrec, Event.letGo?, JobRecord.numbered, hrequest, hbg]⟩
  · exact ⟨_, hlog, by simp [jobs, hrec, Event.letGo?, JobRecord.numbered, hrequest, hbg]⟩

/-- **The records grow by the children that are let go.** Whatever evaluation does, none is changed and none is left
out. -/
theorem Course.jobs {e e' : Engine σ} {ps : List Pid} (h : ev.Course e ps e') : Recorded e e' := by
  induction h with
  | refl e => exact (Childless.of_logged (Logged.refl e) (by simp) rfl).recorded
  | trans _ _ ih ih' => exact ih.trans ih'
  | act ha => exact ha.childless.recorded
  | child argv ctx session e => exact startChild_recorded argv ctx session e
  | @group ctx session e e' e'' ps ho hcourse ih =>
    have hcap : session.isSome → e''.capture.isSome := by
      rw [hcourse.capture]
      exact (openSession_session ho).2
    exact ((openSession_childless ho).recorded.trans ih).trans (settled_childless session ps hcap).recorded
  | abandoned _ ho _ ih => exact (openSession_childless ho).recorded.trans ih

end Evaluation

/-! ## commands and their places -/

/-- what the place of a command gives it: is its input a file or a pipe, is its output, and does it run in the
background -/
structure Place where
  input : Bool
  output : Bool
  background : Bool
  deriving DecidableEq, Repr

namespace Place

/-- a place where one stream is a file -/
def redirected (p : Place) : Direction → Place
  | .input => { p with input := true }
  | .output => { p with output := true }

/-- a place in front of a separator -/
def before (p : Place) : Separator → Place
  | .sequence => p
  | .background => { p with background := true }

end Place

/-- the place that a context describes -/
def Context.place (ctx : Context) : Place := ⟨ctx.input.isSome, ctx.output.isSome, ctx.background⟩

/-- the commands of a tree, left to right, each with its place; the tree itself stands at `p` -/
def Tree.commands : Tree → (p : Place) → List (List Span × Place)
  | command words, p => [(words, p)]
  | redirect direction _ inner, p => inner.commands (p.redirected direction)
  | pipe left right, p => left.commands { p with output := true } ++ right.commands { p with input := true }
  | ended left sep, p => left.commands (p.before sep)
  | chained left sep right, p => left.commands (p.before sep) ++ right.commands p

theorem Context.place_redirected (ctx : Context) (direction : Direction) (d : Descriptor) :
    (ctx.redirected direction d).place = ctx.place.redirected direction := by
  cases direction <;> rfl

namespace Evaluation

open Engine

variable {σ : Type} (ev : Evaluation σ)

/-- a request that a command makes at its place: the command is no builtin, and in the background every stream that is
not a file or a pipe by its place is the host's -/
structure Asks (words : List Span) (place : Place) (request : SpawnRequest) : Prop where
  argv : request.argv = ev.argv words
  program : ∃ program args, ev.argv words = program :: args ∧ Builtin.ofName? program = none
  background : request.background = place.background
  uncaptured : place.background = true →
    request.stdin.isSome = place.input ∧ request.stdout.isSome = place.output ∧ request.stderr = none

/-- every child that an event asks for is one of some commands -/
def Places (commands : List (List Span × Place)) (x : Event) : Prop :=
  ∀ request r, x = .spawned request r → ∃ c ∈ commands, ev.Asks c.1 c.2 request

/-- between two engines only children of some commands were asked for -/
def AsksFor (commands : List (List Span × Place)) (e e' : Engine σ) : Prop :=
  ∃ evs, Logged e e' evs ∧ ∀ x ∈ evs, ev.Places commands x

/-- a launcher that only asks for children of some commands, if no background is given a session -/
def LaunchesOf (commands : Place → List (List Span × Place)) (launch : Launcher σ) : Prop :=
  ∀ ctx session e, (ctx.background = true → session = none) →
    ev.AsksFor (commands ctx.place) e (launch ctx session e).engine

variable {ev}

theorem AsksFor.mono {cs ds : List (List Span × Place)} (hsub : cs ⊆ ds) {e e' : Engine σ} (h : ev.AsksFor cs e e') :
    ev.AsksFor ds e e' := by
  obtain ⟨evs, hlog, hplaces⟩ := h
  refine ⟨evs, hlog, fun x hx request r hxr => ?_⟩
  obtain ⟨c, hc, hasks⟩ := hplaces x hx request r hxr
  exact ⟨c, hsub hc, hasks⟩

theorem AsksFor.trans {cs : List (List Span × Place)} {e e' e'' : Engine σ} (h : ev.AsksFor cs e e')
    (h' : ev.AsksFor cs e' e'') : ev.AsksFor cs e e'' := by
  obtain ⟨evs, hlog, hplaces⟩ := h
  obtain ⟨evs', hlog', hplaces'⟩ := h'
  exact ⟨evs ++ evs', hlog.trans hlog', List.forall_mem_append.2 ⟨hplaces, hplaces'⟩⟩

theorem asksFor_childless {e e' : Engine σ} (h : Childless e e') (cs : List (List Span × Place)) :
    ev.AsksFor cs e e' := by
  obtain ⟨⟨evs, hlog, hno⟩, -⟩ := h
  refine ⟨evs, hlog, fun x hx request r hxr => ?_⟩
  have hspawns := hno x hx
  rw [hxr] at hspawns
  cases hspawns

/-- one after the other, each of commands of its own -/
theorem AsksFor.append {cs ds : List (List Span × Place)} {e e' e'' : Engine σ} (h : ev.AsksFor cs e e')
    (h' : ev.AsksFor ds e' e'') : ev.AsksFor (cs ++ ds) e e'' :=
  (h.mono (List.subset_append_left cs ds)).trans (h'.mono (List.subset_append_right cs ds))

theorem AsksFor.then_act {cs : List (List Span × Place)} {e e' e'' : Engine σ} (h : ev.AsksFor cs e e')
    (a : ev.Act e' e'') : ev.AsksFor cs e e'' :=
  h.trans (asksFor_childless a.childless cs)

theorem AsksFor.after_act {cs : List (List Span × Place)} {e e' e'' : Engine σ} (a : ev.Act e e')
    (h : ev.AsksFor cs e' e'') : ev.AsksFor cs e e'' :=
  (asksFor_childless a.childless cs).trans h

/-! ### one command -/

theorem asks_request {words : List Span} {program : String} {args : List String}
    (hargv : ev.argv words = program :: args) (hb : Builtin.ofName? program = none) {ctx : Context}
    {session : Option Session} (hsession : ctx.background = true → session = none) :
    ev.Asks words ctx.place (request (ev.argv words) ctx session) where
  argv := rfl
  program := ⟨program, args, hargv, hb⟩
  background := rfl
  uncaptured := by
    intro hbg
    obtain rfl := hsession hbg
    simp [request, Context.place]

theorem startChild_asks {words : List Span} {program : String} {args : List String}
    (hargv : ev.argv words = program :: args) (hb : Builtin.ofName? program = none) (ctx : Context)
    (session : Option Session) (e : Engine σ) (hsession : ctx.background = true → session = none) :
    ev.AsksFor [(words, ctx.place)] e (ev.startChild (ev.argv words) ctx session e).engine := by
  have hasks : ∀ r, ev.Places [(words, ctx.place)] (.spawned (request (ev.argv words) ctx session) r) := by
    rintro r _ _ ⟨⟩
    exact ⟨_, List.mem_singleton_self _, asks_request hargv hb hsession⟩
  have hdetached : ∀ pid, ev.Places [(words, ctx.place)] (.detached pid) := by
    rintro pid _ _ ⟨⟩
  rcases startChild_records (ev.argv words) ctx session e with
    ⟨f, hlog, -⟩ | ⟨pid, -, hlog, -⟩ | ⟨pid, -, hlog, -⟩
  · exact ⟨_, hlog, by simpa using hasks _⟩
  · exact ⟨_, hlog, by simpa using ⟨hasks _, hdetached pid⟩⟩
  · exact ⟨_, hlog, by simpa using hasks _⟩

theorem launchCommand_asks (words : List Span) : ev.LaunchesOf (fun p => [(words, p)]) (ev.launchCommand words) := by
  intro ctx session e hsession
  unfold launchCommand
  split
  · exact asksFor_childless (.of_logged (Logged.refl e) (by simp) rfl) _
  · rename_i program args hargv
    split
    · exact asksFor_childless (runBuiltin_childless _ _ _ _) _
    · rename_i hb
      have hargv : ev.argv words = program :: args := hargv
      rw [← hargv]
      exact startChild_asks hargv hb ctx session e hsession

theorem launchRedirected_asks {commands : Place → List (List Span × Place)} {inner : Launcher σ}
    (h : ev.LaunchesOf commands inner) (direction : Direction) (target : Span) :
    ev.LaunchesOf (fun p => commands (p.redirected direction)) (ev.launchRedirected direction target inner) := by
  intro ctx session e hsession
  have hopen : ev.Act e { e with host := (e.host.openTarget direction (target.text ev.line)).2 } := .openTarget _ _ _
  cases ho : e.host.openTarget direction (target.text ev.line) with
  | mk r host =>
    rw [ho] at hopen
    cases r with
    | error f =>
      rw [launchRedirected_refused ev ho]
      exact asksFor_childless hopen.childless _
    | ok d =>
      rw [launchRedirected_opened ev ho]
      have hinner := h (ctx.redirected direction d) session { e with host } (by rwa [Context.background_redirected])
      rw [Context.place_redirected] at hinner
      exact (AsksFor.after_act hopen hinner).then_act (.close _ _)

/-! ### groups and statements -/

theorem runGroup_asks {commands : Place → List (List Span × Place)} {launch : Launcher σ}
    (hfollows : ev.Follows launch) (h : ev.LaunchesOf commands launch) (ctx : Context) (e : Engine σ) :
    ev.AsksFor (commands ctx.place) e (ev.runGroup launch ctx e).2 := by
  unfold runGroup
  split
  · rename_i f e' ho
    exact asksFor_childless (openSession_childless ho) _
  · rename_i session e' ho
    obtain ⟨hsession, hcap⟩ := openSession_session ho
    have hlaunched := (asksFor_childless (openSession_childless ho) _).trans (h ctx session e' hsession)
    simp only
    split
    · exact hlaunched
    · have hcapture : (launch ctx session e').engine.capture = e'.capture := (hfollows ctx session e').capture
      exact hlaunched.trans (asksFor_childless (settled_childless session _ (by rwa [hcapture])) _)

theorem executeGroup_asks {commands : Place → List (List Span × Place)} {launch : Launcher σ}
    (hfollows : ev.Follows launch) (h : ev.LaunchesOf commands launch) (ctx : Context) (e : Engine σ) :
    ev.AsksFor (commands ctx.place) e (ev.executeGroup launch ctx e).2 := by
  have hg := runGroup_asks hfollows h ctx e
  unfold executeGroup
  split
  · rename_i status e' hr
    rw [hr] at hg
    exact hg.then_act (.remember _ _)
  · rename_i status e' hr
    rw [hr] at hg
    exact hg
  · rename_i f e' _ hr
    rw [hr] at hg
    exact (hg.then_act (.remember _ 1)).then_act (.report _ f)

theorem executeStatement_asks {commands : Place → List (List Span × Place)} {launch : Launcher σ}
    (hfollows : ev.Follows launch) (h : ev.LaunchesOf commands launch) (sep : Separator) (ctx : Context)
    (e : Engine σ) : ev.AsksFor (commands (ctx.place.before sep)) e (ev.executeStatement launch sep ctx e).2 := by
  cases sep with
  | sequence => exact executeGroup_asks hfollows h ctx e
  | background => exact executeGroup_asks hfollows h { ctx with background := true } e

theorem executeWith_asks {commands : Place → List (List Span × Place)} {launch : Launcher σ}
    (hfollows : ev.Follows launch) (h : ev.LaunchesOf commands launch) (isStatement : Bool) (ctx : Context)
    (e : Engine σ) : ev.AsksFor (commands ctx.place) e (ev.executeWith isStatement launch ctx e).2 := by
  unfold executeWith
  split
  · exact h ctx none e fun _ => rfl
  · exact executeGroup_asks hfollows h ctx e

/-- **Every child is one of the tree's commands.** By induction on the tree: each constructor hands its parts the places
that `Tree.commands` says, and what it does besides asks for no child. -/
theorem launchFrom_asks (t : Tree) (inlet : Option Descriptor) : ev.LaunchesOf t.commands (ev.launchFrom t inlet) := by
  induction t generalizing inlet with
  | command words =>
    intro ctx session e hsession
    exact (launchCommand_asks words ctx session e hsession).then_act (.close _ _)
  | redirect direction target inner ih =>
    intro ctx session e hsession
    exact (launchRedirected_asks (ih none) direction target ctx session e hsession).then_act (.close _ _)
  | pipe left right ihl ihr =>
    intro ctx session e hsession
    have hpipe : ev.Act e { e with host := (e.host.pipe ev.backend).2 } := .pipe e
    simp only [launchFrom]
    split
    · rename_i f host hp
      rw [hp] at hpipe
      exact (asksFor_childless hpipe.childless _).then_act (.close _ _)
    · rename_i pipe host hp
      rw [hp] at hpipe
      have hl := AsksFor.after_act hpipe
        (ihl none { ctx with output := some pipe.writer } session { e with host } hsession)
      split
      · exact (hl.then_act (.close _ _)).mono (List.subset_append_left _ _)
      · exact (hl.then_act (.close _ _)).append
          (ihr (some pipe.reader) { ctx with input := some pipe.reader } session _ hsession)
  | ended left sep ih =>
    intro ctx session e _
    have hl := executeStatement_asks (launchFrom_follows left none) (ih none) sep ctx e
    exact hl.then_act (.close _ _)
  | chained left sep right ihl ihr =>
    intro ctx session e _
    have hl := executeStatement_asks (launchFrom_follows left none) (ihl none) sep ctx e
    refine AsksFor.then_act ?_ (.close _ _)
    simp only [asStage]
    split
    · rename_i status e' hr
      rw [hr] at hl
      exact hl.mono (List.subset_append_left _ _)
    · rename_i r e' _ hr
      rw [hr] at hl
      exact hl.append (executeWith_asks (launchFrom_follows right none) (ihr none) _ ctx e')

theorem execute_asks (t : Tree) (ctx : Context) (e : Engine σ) :
    ev.AsksFor (t.commands ctx.place) e (ev.execute t ctx e).2 :=
  executeWith_asks (launchFrom_follows t none) (launchFrom_asks t none) _ ctx e

end Evaluation

/-! ## trees one after the other -/

/-- a tree to be evaluated, with the line that its words lie in and the context -/
structure Turn where
  line : String
  tree : Tree
  ctx : Context := {}

section

variable {σ : Type} (backend : Backend σ) (settings : Settings)

/-- what the tree of a turn is evaluated with -/
def Turn.evaluation (turn : Turn) : Evaluation σ := ⟨backend, turn.line, settings⟩

/-- evaluate trees one after the other on one engine, whatever the results are -/
def Engine.executeAll (turns : List Turn) (e : Engine σ) : Engine σ :=
  turns.foldl (fun e turn => ((turn.evaluation backend settings).execute turn.tree turn.ctx e).2) e

namespace Engine

open Evaluation

/-- a request was made by a command of one of the trees, at its place -/
def AskedBy (turns : List Turn) (request : SpawnRequest) : Prop :=
  ∃ turn ∈ turns, ∃ c ∈ turn.tree.commands turn.ctx.place, (turn.evaluation backend settings).Asks c.1 c.2 request

theorem executeAll_recorded (turns : List Turn) (e : Engine σ) : Recorded e (e.executeAll backend settings turns) := by
  induction turns generalizing e with
  | nil => exact (Childless.of_logged (Logged.refl e) (by simp) rfl).recorded
  | cons turn turns ih =>
    have hturn : (turn.evaluation backend settings).Course e [] _ := execute_course turn.tree turn.ctx e
    exact hturn.jobs.trans (ih _)

theorem executeAll_asked (turns : List Turn) (e : Engine σ) :
    ∃ evs, Logged e (e.executeAll backend settings turns) evs ∧
      ∀ request r, .spawned request r ∈ evs → AskedBy backend settings turns request := by
  induction turns generalizing e with
  | nil => exact ⟨[], Logged.refl e, by simp⟩
  | cons turn turns ih =>
    have hturn : (turn.evaluation backend settings).AsksFor _ e _ := execute_asks turn.tree turn.ctx e
    obtain ⟨evs, hlog, hplaces⟩ := hturn
    obtain ⟨evs', hlog', hasked⟩ := ih ((turn.evaluation backend settings).execute turn.tree turn.ctx e).2
    refine ⟨evs ++ evs', hlog.trans hlog', fun request r hx => ?_⟩
    rcases List.mem_append.1 hx with hx | hx
    · obtain ⟨c, hc, hasks⟩ := hplaces _ hx request r rfl
      exact ⟨turn, List.mem_cons_self, c, hc, hasks⟩
    · obtain ⟨t, ht, hasks⟩ := hasked request r hx
      exact ⟨t, List.mem_cons_of_mem turn ht, hasks⟩

/-- **The record of the background is its log.** However many trees a new engine evaluates, and whatever fails on the
way, its records are the children that were started in the background, in the order of the log, numbered from 1: each
with its process and with the first word of its command. What is recorded stays as it is while more trees are evaluated.
Every child was asked for by a command of one of the trees that is no builtin, in the background just where its place is
one, and there it has a stream of its own only where its place gives it a file or a pipe. -/
theorem executeAll_jobs (host : Host σ) (io : Option Streams) (turns : List Turn) :
    ∃ evs, Logged { host, io } (executeAll backend settings turns { host, io }) evs ∧
      (executeAll backend settings turns { host, io }).jobs = JobRecord.numbered 0 (evs.filterMap Event.letGo?) ∧
      (executeAll backend settings turns { host, io }).jobs.map (·.id) =
        List.range' 1 (executeAll backend settings turns { host, io }).jobs.length ∧
      (∀ earlier, earlier <+: turns →
        (executeAll backend settings earlier { host, io }).jobs <+:
          (executeAll backend settings turns { host, io }).jobs) ∧
      ∀ request r, .spawned request r ∈ evs → AskedBy backend settings turns request := by
  obtain ⟨evs, hlog, hasked⟩ := executeAll_asked backend settings turns { host, io }
  obtain ⟨evs', hlog', hjobs⟩ := executeAll_recorded backend settings turns { host, io }
  obtain rfl := hlog.unique hlog'
  have hnumbered : (executeAll backend settings turns { host, io }).jobs =
      JobRecord.numbered 0 (evs.filterMap Event.letGo?) := hjobs
  refine ⟨evs, hlog, hnumbered, ?_, ?_, hasked⟩
  · rw [hnumbered, JobRecord.ids_numbered, JobRecord.length_numbered]
  · rintro earlier ⟨later, rfl⟩
    obtain ⟨_, -, hlater⟩ := executeAll_recorded backend settings later
      (executeAll backend settings earlier { host, io })
    have hsplit : executeAll backend settings (earlier ++ later) { host, io } =
        executeAll backend settings later (executeAll backend settings earlier { host, io }) := List.foldl_append
    exact ⟨_, (hsplit ▸ hlater).symm⟩

/-- The lines `a|b&c` and `d&`, one after the other. The first stage of the pipeline was started when the second could
not be, and keeps its record; `c` runs in the foreground and has none. -/
theorem executeAll_jobs_half_launched :
    ∃ turns : List Turn, turns.map (·.line) = ["a|b&c", "d&"] ∧
      ∃ (host : Host Scripted.State) (evs : List Event),
        Logged { host, io := some {} } (executeAll Scripted.backend {} turns { host, io := some {} }) evs ∧
        JobRecord.numbered 0 (evs.filterMap Event.letGo?) = [⟨1, 1001, "a"⟩, ⟨2, 1003, "d"⟩] := by
  let turns : List Turn :=
    [⟨"a|b&c", .chained (.pipe (.command [⟨0, 1⟩]) (.command [⟨2, 3⟩])) .background (.command [⟨4, 5⟩]), {}⟩,
      ⟨"d&", .ended (.command [⟨0, 1⟩]) .background, {}⟩]
  let host : Host Scripted.State :=
    { world := {}, state := { scripts := [("b", { spawnFault := some (.spawn "b" (.system .noEntry)) })] } }
  obtain ⟨evs, hlog, hjobs, -⟩ := executeAll_jobs Scripted.backend {} host (some {}) turns
  refine ⟨turns, rfl, host, evs, hlog, hjobs.symm.trans ?_⟩
  decide +kernel

end Engine

end

end LineShell
