/-
The courses that evaluation can take.

`Act` is one thing that evaluation does by itself, such as making a pipe or running a builtin. `Course ev e ps e'` says
that evaluation can go from `e` to `e'` and has then started the children `ps` that are still to be waited for: a child
of the foreground adds itself, and a group takes the children of its launch and waits for all of them.

`launchFrom_follows` and `execute_course` say that launching and evaluating any tree at all, also one that no line
spells, is a course. So what every act keeps, and every child and group, is kept by evaluation: `Course.capture` is the
first such fact. Only a host that `exit` ends leaves children behind (`abandoned`).
-/
import LineShell.Proofs.Log

namespace LineShell.Evaluation

open Engine

variable {σ : Type} (ev : Evaluation σ)

/-- one thing that evaluation does, children and groups apart -/
inductive Act : Engine σ → Engine σ → Prop
  | pipe (e : Engine σ) : Act e { e with host := (e.host.pipe ev.backend).2 }
  | openTarget (e : Engine σ) (dir : Direction) (path : String) :
      Act e { e with host := (e.host.openTarget dir path).2 }
  | close (e : Engine σ) (ds : List Descriptor) : Act e (e.closeAll ds)
  | duplicate (e : Engine σ) (d : Descriptor) : Act e { e with host := (e.host.duplicate d).2 }
  | perform (builtin : Builtin) (args : List String) (ctx : Context) (e : Engine σ) :
      Act e (ev.perform builtin args ctx e).2
  | unopened {ctx : Context} {e e' : Engine σ} {f : Failure} : ev.openSession ctx e = (.error f, e') → Act e e'
  | remember (e : Engine σ) (status : Int) : Act e { e with lastStatus := status }
  | report (e : Engine σ) (f : Failure) : Act e (e.report f)

/-- evaluation can go from one engine to another; the children are those still to be waited for -/
inductive Course : Engine σ → List Pid → Engine σ → Prop
  | refl (e : Engine σ) : Course e [] e
  | trans {e e' e'' : Engine σ} {ps qs : List Pid} : Course e ps e' → Course e' qs e'' → Course e (ps ++ qs) e''
  | act {e e' : Engine σ} : ev.Act e e' → Course e [] e'
  | child (argv : List String) (ctx : Context) (session : Option Session) (e : Engine σ) :
      Course e (ev.startChild argv ctx session e).started (ev.startChild argv ctx session e).engine
  | group {ctx : Context} {session : Option Session} {e e' e'' : Engine σ} {ps : List Pid} :
      ev.openSession ctx e = (.ok session, e') → Course e' ps e'' →
        Course e [] (ev.waitAll ps (ev.drain session e'').2).2
  | abandoned {ctx : Context} {session : Option Session} {e e' e'' : Engine σ} {ps : List Pid} :
      ev.settings.exitTerminates = true → ev.openSession ctx e = (.ok session, e') → Course e' ps e'' → Course e [] e''

namespace Course

variable {ev}

theorem then_act {e e' e'' : Engine σ} {ps : List Pid} (h : ev.Course e ps e') (a : ev.Act e' e'') :
    ev.Course e ps e'' := by
  have := h.trans (.act a)
  rwa [List.append_nil] at this

theorem after_act {e e' e'' : Engine σ} {ps : List Pid} (a : ev.Act e e') (h : ev.Course e' ps e'') :
    ev.Course e ps e'' := (Course.act a).trans h

/-- a course that leaves no child goes on to any other -/
theorem after {e e' e'' : Engine σ} {ps : List Pid} (h : ev.Course e [] e') (h' : ev.Course e' ps e'') :
    ev.Course e ps e'' := h.trans h'

end Course

/-! ## launching is a course -/

/-- whatever `launch` is given, it follows a course -/
def Follows (launch : Launcher σ) : Prop :=
  ∀ ctx session e, ev.Course e (launch ctx session e).started (launch ctx session e).engine

variable {ev}

theorem closing_course {inlet : Option Descriptor} {l : Launched σ} {e : Engine σ}
    (h : ev.Course e l.started l.engine) : ev.Course e (closing inlet l).started (closing inlet l).engine :=
  h.then_act (.close _ _)

theorem runBuiltin_course (builtin : Builtin) (args : List String) (ctx : Context) (e : Engine σ) :
    ev.Course e [] (ev.runBuiltin builtin args ctx e).2 := by
  rcases ev.runBuiltin_cases builtin args ctx e with ⟨-, hrun⟩ | ⟨d, -, -, ⟨f, -, hrun⟩ | ⟨-, hrun⟩⟩
  · rw [hrun]
    exact .act (.perform builtin args ctx e)
  · rw [hrun]
    exact .act (.duplicate e d)
  · rw [hrun]
    exact (Course.after_act (.duplicate e d) (.act (.perform builtin args ctx _))).then_act (.close _ [d])

theorem launchCommand_follows (words : List Span) : ev.Follows (ev.launchCommand words) := by
  intro ctx session e
  unfold launchCommand
  split
  · exact .refl e
  · rename_i program args _
    split
    · exact runBuiltin_course _ _ _ _
    · exact .child _ _ _ _

theorem launchRedirected_follows {inner : Launcher σ} (h : ev.Follows inner) (dir : Direction) (target : Span) :
    ev.Follows (ev.launchRedirected dir target inner) := by
  intro ctx session e
  have hopen : ev.Act e { e with host := (e.host.openTarget dir (target.text ev.line)).2 } := .openTarget _ _ _
  unfold launchRedirected
  split
  · rename_i f host ho
    rw [ho] at hopen
    exact .act hopen
  · rename_i d host ho
    rw [ho] at hopen
    exact closing_course (.after_act hopen (h _ _ _))

theorem runGroup_course {launch : Launcher σ} (h : ev.Follows launch) (ctx : Context) (e : Engine σ) :
    ev.Course e [] (ev.runGroup launch ctx e).2 := by
  unfold runGroup
  split
  · rename_i f e' ho
    exact .act (.unopened ho)
  · rename_i session e' ho
    simp only
    split
    · rename_i hterm
      have hexit : ev.settings.exitTerminates = true := by
        unfold terminated at hterm
        exact (Bool.and_eq_true_iff.1 hterm).1
      exact .abandoned hexit ho (h ctx session e')
    · exact .group ho (h ctx session e')

theorem executeGroup_course {launch : Launcher σ} (h : ev.Follows launch) (ctx : Context) (e : Engine σ) :
    ev.Course e [] (ev.executeGroup launch ctx e).2 := by
  have hg := runGroup_course h ctx e
  unfold executeGroup
  split
  · rename_i status e' hr
    rw [hr] at hg
    exact hg.then_act (.remember _ _)
  · rename_i status e' hr
    rw [hr] at hg
    exact hg
  · rename_i f e' _ hr
    rw [hr] at hg
    exact (hg.then_act (.remember _ 1)).then_act (.report _ f)

theorem executeStatement_course {launch : Launcher σ} (h : ev.Follows launch) (sep : Separator) (ctx : Context)
    (e : Engine σ) : ev.Course e [] (ev.executeStatement launch sep ctx e).2 := by
  cases sep with
  | sequence => exact executeGroup_course h ctx e
  | background => exact executeGroup_course h _ e

/-- a launch that leaves no child, as the launches of statements do -/
theorem executeWith_course {launch : Launcher σ} (h : ev.Follows launch) (isStatement : Bool)
    (hnone : isStatement = true → ∀ ctx e, (launch ctx none e).started = []) (ctx : Context) (e : Engine σ) :
    ev.Course e [] (ev.executeWith isStatement launch ctx e).2 := by
  unfold executeWith
  split
  · rename_i hs
    have := h ctx none e
    rwa [hnone hs] at this
  · exact executeGroup_course h ctx e

/-- launching a statement leaves no child: what it starts it waits for -/
theorem launchFrom_started {t : Tree} (h : t.isStatement = true) (inlet : Option Descriptor) (ctx : Context)
    (session : Option Session) (e : Engine σ) : (ev.launchFrom t inlet ctx session e).started = [] := by
  cases t with
  | ended left sep => rfl
  | chained left sep right => rfl
  | _ => simp [Tree.isStatement] at h

/-- launching any tree follows a course -/
theorem launchFrom_follows (t : Tree) (inlet : Option Descriptor) : ev.Follows (ev.launchFrom t inlet) := by
  induction t generalizing inlet with
  | command words =>
    intro ctx session e
    exact closing_course (launchCommand_follows words ctx session e)
  | redirect dir target inner ih =>
    intro ctx session e
    exact closing_course (launchRedirected_follows (ih none) dir target ctx session e)
  | pipe left right ihl ihr =>
    intro ctx session e
    have hpipe : ev.Act e { e with host := (e.host.pipe ev.backend).2 } := .pipe e
    simp only [launchFrom]
    split
    · rename_i f host hp
      rw [hp] at hpipe
      exact closing_course (.act hpipe)
    · rename_i pipe host hp
      rw [hp] at hpipe
      have hl := Course.after_act hpipe (ihl none { ctx with output := some pipe.writer } session { e with host })
      split
      · exact hl.then_act (.close _ _)
      · exact (hl.then_act (.close _ _)).trans (ihr (some pipe.reader) _ session _)
  | ended left sep ih =>
    intro ctx session e
    exact closing_course (executeStatement_course (ih none) sep ctx e)
  | chained left sep right ihl ihr =>
    intro ctx session e
    have hl := executeStatement_course (ihl none) sep ctx e
    apply closing_course
    simp only [asStage]
    split
    · rename_i status e' hr
      rw [hr] at hl
      exact hl
    · rename_i r e' _ hr
      rw [hr] at hl
      exact hl.after (executeWith_course (ihr none) _ (fun hs ctx e => launchFrom_started hs none ctx none e) ctx e')

/-- evaluating any tree is a course that leaves no child -/
theorem execute_course (t : Tree) (ctx : Context) (e : Engine σ) : ev.Course e [] (ev.execute t ctx e).2 :=
  executeWith_course (launchFrom_follows t none) _ (fun hs ctx e => launchFrom_started hs none ctx none e) ctx e

/-! ## what every course keeps -/

theorem Act.capture {e e' : Engine σ} (h : ev.Act e e') : e'.capture = e.capture := by
  cases h with
  | perform builtin args ctx => exact perform_capture ev builtin args ctx e
  | unopened ho => rw [(openSession_opening ev ho).2]; rfl
  | report f => exact capture_send _ _ _
  | _ => rfl

theorem startChild_capture (argv : List String) (ctx : Context) (session : Option Session) (e : Engine σ) :
    (ev.startChild argv ctx session e).engine.capture = e.capture := by
  unfold startChild
  simp only
  split
  · rfl
  · split <;> rfl

/-- evaluation never changes whether output is captured, nor the payload -/
theorem Course.capture {e e' : Engine σ} {ps : List Pid} (h : ev.Course e ps e') : e'.capture = e.capture := by
  induction h with
  | refl e => rfl
  | trans _ _ ih ih' => exact ih'.trans ih
  | act ha => exact ha.capture
  | child argv ctx session e => exact startChild_capture argv ctx session e
  | group ho _ ih =>
    obtain ⟨host, hwait⟩ := waitAll_frame ev _ (ev.drain _ _).2
    rw [hwait]
    exact (drain_capture ev _ _).trans (ih.trans (by rw [(openSession_opening ev ho).2]; rfl))
  | abandoned _ ho _ ih =>
    rw [ih, (openSession_opening ev ho).2]
    rfl

theorem launchFrom_capture (t : Tree) (inlet : Option Descriptor) (ctx : Context) (session : Option Session)
    (e : Engine σ) : (ev.launchFrom t inlet ctx session e).engine.capture = e.capture := by
  have hfollows : ev.Follows (ev.launchFrom t inlet) := launchFrom_follows t inlet
  exact (hfollows ctx session e).capture

end LineShell.Evaluation
