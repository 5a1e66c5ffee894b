/-
What a group comes to.

Launching a group launches its stages in turn, each from where the one before it has ended (`attempts`), up to the first
one that cannot be launched. Then the session is drained, and every child that was started is waited for. Which of all
this decides how the group ends is said by `Decided`: the failure of a stage goes before that of the drain, and that
before the first failure of a wait; and if nothing failed, the status is that of the last stage alone, which is what its
builtin has answered or its child has exited with.

- `launchFrom_inTurn`: launching a group is attempting its stages in turn.
- `runGroup_decided`: how every group of a line ends.
-/
import LineShell.Proofs.LastStatus
import LineShell.Proofs.Wiring

namespace LineShell

/-- the launch of one stage: what it starts from, and how it went -/
structure Attempt (σ : Type) where
  stage : Stage
  context : Context
  before : Engine σ
  launched : Launched σ

/-- has the stage been launched? -/
def Attempt.Succeeded {σ : Type} (a : Attempt σ) : Prop := ∃ so, a.launched.outcome = .ok so

/-- every stage of a group has words -/
theorem Tree.IsGroup.words_ne_nil {t : Tree} (ht : t.IsGroup) : ∀ s ∈ t.stages, s.words ≠ [] := by
  have hstage : ∀ {t : Tree}, t.IsStage → ∀ s ∈ t.stages, s.words ≠ [] := by
    intro t hs
    cases hs with
    | plain hc =>
      cases hc with
      | words nonempty => exact List.forall_mem_singleton.2 nonempty
    | redirected dir target hc =>
      cases hc with
      | words nonempty => exact List.forall_mem_singleton.2 nonempty
  induction ht with
  | last hs => exact hstage hs
  | piped hs _ ih => exact List.forall_mem_append.2 ⟨hstage hs, ih⟩

namespace Evaluation

open Engine

variable {σ : Type} (ev : Evaluation σ)

/-! ## stages in turn -/

/-- launch one stage, with the target of its redirection -/
def launchStage (s : Stage) : Launcher σ :=
  match s.redirection with
  | none => ev.launchCommand s.words
  | some (dir, target) => ev.launchRedirected dir target (ev.launchCommand s.words)

/-- the launches of stages in turn, up to the first one that fails. Each stage but the last one needs a pipe, and one
whose pipe cannot be made cannot be launched; `inlet` is the pipe that the first one reads. -/
def attempts (session : Option Session) : List Stage → Context → (inlet : Option Descriptor) → Engine σ →
    List (Attempt σ)
  | [], _, _, _ => []
  | [s], ctx, _, e => [⟨s, ctx, e, ev.launchStage s ctx session e⟩]
  | s :: next :: rest, ctx, inlet, e =>
    match e.host.pipe ev.backend with
    | (.error f, host) => [⟨s, ctx, e, ⟨.error f, [], { e with host }⟩⟩]
    | (.ok pipe, host) =>
      let outward := { ctx with output := some pipe.writer }
      let l := ev.launchStage s outward session { e with host }
      ⟨s, outward, { e with host }, l⟩ ::
        match l.outcome with
        | .error _ => []
        | .ok _ =>
          attempts session (next :: rest) { ctx with input := some pipe.reader } (some pipe.reader)
            (l.engine.closeAll (inlet.toList ++ [pipe.writer]))

/-- how launching stages in turn goes: all attempts but the last one succeed, and the launch ends as the last one
does; what it has started is what the attempts have started, in order; and it succeeds only if all stages were
launched -/
structure InTurn (session : Option Session) (stages : List Stage) (ctx : Context) (as : List (Attempt σ))
    (l : Launched σ) : Prop where
  last : ∃ before a, as = before ++ [a] ∧ (∀ b ∈ before, b.Succeeded) ∧ l.outcome = a.launched.outcome
  started : l.started = as.flatMap (·.launched.started)
  inOrder : as.map (·.stage) <+: stages
  all : (∃ so, l.outcome = .ok so) → as.map (·.stage) = stages
  stage : ∀ a ∈ as, a.context.background = ctx.background ∧
    (a.Succeeded → a.launched = ev.launchStage a.stage a.context session a.before)

variable {ev} {session : Option Session} {ctx : Context} {stages : List Stage}

variable (ev) in
theorem launchFrom_eq_launchStage {t : Tree} (ht : t.IsStage) :
    ∃ s, t.stages = [s] ∧ s.words ≠ [] ∧ ev.launchFrom t none = ev.launchStage s := by
  cases ht with
  | plain hc =>
    cases hc with
    | words nonempty => exact ⟨_, rfl, nonempty, rfl⟩
  | redirected dir target hc =>
    cases hc with
    | words nonempty => exact ⟨_, rfl, nonempty, rfl⟩

/-- an attempt that fails is the last one -/
theorem InTurn.fail {a : Attempt σ} {l : Launched σ} {f : Failure} (hf : a.launched.outcome = .error f)
    (hl : l.outcome = .error f) (hstarted : l.started = a.launched.started)
    (hbg : a.context.background = ctx.background)
    (rest : List Stage) : ev.InTurn session (a.stage :: rest) ctx [a] l where
  last := ⟨[], a, rfl, List.forall_mem_nil _, by rw [hl, hf]⟩
  started := by rw [hstarted, List.flatMap_singleton]
  inOrder := List.prefix_append [a.stage] rest
  all := by
    rintro ⟨so, hso⟩
    rw [hl] at hso
    cases hso
  stage := by
    refine List.forall_mem_singleton.2 ⟨hbg, ?_⟩
    rintro ⟨so, hso⟩
    rw [hf] at hso
    cases hso

/-- the only stage of a group -/
theorem InTurn.single {a : Attempt σ} {l : Launched σ}
    (hlaunch : a.launched = ev.launchStage a.stage a.context session a.before) (hl : l.outcome = a.launched.outcome)
    (hstarted : l.started = a.launched.started) (hbg : a.context.background = ctx.background) :
    ev.InTurn session [a.stage] ctx [a] l where
  last := ⟨[], a, rfl, List.forall_mem_nil _, hl⟩
  started := by rw [hstarted, List.flatMap_singleton]
  inOrder := List.prefix_refl _
  all _ := rfl
  stage := List.forall_mem_singleton.2 ⟨hbg, fun _ => hlaunch⟩

/-- a stage in front of those that read its pipe -/
theorem InTurn.cons {a : Attempt σ} {as : List (Attempt σ)} {l r : Launched σ} {inner : Context} (hok : a.Succeeded)
    (hlaunch : a.launched = ev.launchStage a.stage a.context session a.before)
    (hbg : a.context.background = ctx.background) (hinner : inner.background = ctx.background)
    (h : ev.InTurn session stages inner as r) (hl : l.outcome = r.outcome)
    (hstarted : l.started = a.launched.started ++ r.started) :
    ev.InTurn session (a.stage :: stages) ctx (a :: as) l where
  last := by
    obtain ⟨before, b, has, hbefore, hb⟩ := h.last
    exact ⟨a :: before, b, by rw [has]; rfl, List.forall_mem_cons.2 ⟨hok, hbefore⟩, hl.trans hb⟩
  started := by rw [hstarted, h.started, List.flatMap_cons]
  inOrder := (List.prefix_cons_inj a.stage).2 h.inOrder
  all hso := by
    rw [hl] at hso
    rw [List.map_cons, h.all hso]
  stage := by
    refine List.forall_mem_cons.2 ⟨⟨hbg, fun _ => hlaunch⟩, fun b hb => ?_⟩
    obtain ⟨hbg', hlaunch'⟩ := h.stage b hb
    exact ⟨hbg'.trans hinner, hlaunch'⟩

variable (ev) in
/-- launching a group is attempting its stages in turn -/
theorem launchFrom_inTurn {t : Tree} (ht : t.IsGroup) (inlet : Option Descriptor) (ctx : Context)
    (session : Option Session) (e : Engine σ) :
    ev.InTurn session t.stages ctx (ev.attempts session t.stages ctx inlet e)
      (ev.launchFrom t inlet ctx session e) := by
  induction ht generalizing inlet ctx e with
  | @last t hs =>
    obtain ⟨s, hstages, -, hlaunch⟩ := launchFrom_eq_launchStage ev hs
    rw [hstages, launchFrom_stage_eq hs, hlaunch]
    exact .single (a := ⟨s, ctx, e, ev.launchStage s ctx session e⟩) rfl rfl rfl rfl
  | @piped left right hs hg ih =>
    obtain ⟨s, hstages, -, hlaunch⟩ := launchFrom_eq_launchStage ev hs
    obtain ⟨next, rest, hright⟩ := List.exists_cons_of_ne_nil hg.stages_ne_nil
    rw [Tree.stages, hstages, hright, List.singleton_append]
    rcases hp : e.host.pipe ev.backend with ⟨r, host⟩
    cases r with
    | error f =>
      have hfailed : ev.launchFrom (.pipe left right) inlet ctx session e =
          closing inlet ⟨.error f, [], { e with host }⟩ := by
        simp only [launchFrom, hp]
      rw [hfailed]
      simp only [attempts, hp]
      refine InTurn.fail (a := ⟨s, ctx, e, ⟨.error f, [], { e with host }⟩⟩) (f := f) ?_ ?_ ?_ ?_ (next :: rest)
      all_goals rfl
    | ok pipe =>
      have hleft : ev.launchFrom left none { ctx with output := some pipe.writer } session { e with host } =
          ev.launchStage s { ctx with output := some pipe.writer } session { e with host } := by rw [hlaunch]
      rw [launchFrom_pipe hp hleft]
      simp only [attempts, hp]
      generalize hl : ev.launchStage s { ctx with output := some pipe.writer } session { e with host } = l
      cases hout : l.outcome with
      | error f =>
        refine InTurn.fail (a := ⟨s, { ctx with output := some pipe.writer }, { e with host }, l⟩) hout ?_ ?_ ?_
          (next :: rest)
        all_goals rfl
      | ok so =>
        have hrest := ih (some pipe.reader) { ctx with input := some pipe.reader }
          (l.engine.closeAll (inlet.toList ++ [pipe.writer]))
        rw [hright] at hrest
        refine InTurn.cons (a := ⟨s, { ctx with output := some pipe.writer }, { e with host }, l⟩)
          ⟨so, hout⟩ hl.symm rfl ?_ hrest ?_ ?_
        all_goals rfl

/-! ## what a launched stage is -/

theorem launchCommand_ok {words : List Span} (hwords : words ≠ []) (ctx : Context) (session : Option Session)
    (e : Engine σ) {so : StageOutcome} (h : (ev.launchCommand words ctx session e).outcome = .ok so) :
    (∃ n program args b, so = .finished n ∧ ev.argv words = program :: args ∧ Builtin.ofName? program = some b ∧
      (ev.runBuiltin b args ctx e).1 = .ok n) ∨
    so = .started ∧ ev.builtinOf words = none ∧
      (ctx.background = false → ∃ pid, (ev.launchCommand words ctx session e).started = [pid]) := by
  unfold launchCommand at h ⊢
  cases hargv : words.map (·.text ev.line) with
  | nil => exact absurd (List.map_eq_nil_iff.1 hargv) hwords
  | cons program args =>
    rw [hargv] at h
    have hname : ev.builtinOf words = Builtin.ofName? program := builtinOf_cons hargv
    simp only at h ⊢
    cases hb : Builtin.ofName? program with
    | some b =>
      rw [hb] at h
      simp only at h
      cases hr : (ev.runBuiltin b args ctx e).1 with
      | error f =>
        rw [hr] at h
        cases h
      | ok n =>
        rw [hr] at h
        cases h
        exact .inl ⟨n, program, args, b, rfl, hargv, hb, hr⟩
    | none =>
      rw [hb] at h
      simp only [startChild] at h ⊢
      rcases hs : e.host.spawn ev.backend (request (program :: args) ctx session) with ⟨r, host⟩
      cases r with
      | error f =>
        rw [hs] at h
        cases h
      | ok pid =>
        rw [hs] at h
        simp only at h ⊢
        refine .inr ⟨?_, hname.trans hb, fun hbg => ⟨pid, by rw [if_neg (by simp [hbg])]⟩⟩
        split at h
        · exact (Except.ok.inj h).symm
        · exact (Except.ok.inj h).symm

variable (ev) in
/-- where the command of a stage is launched: behind the opening of the target of its redirection, if it has one -/
inductive Reaches (s : Stage) (ctx : Context) (e : Engine σ) : Context → Engine σ → Prop
  | plain : s.redirection = none → Reaches s ctx e ctx e
  | redirected {dir : Direction} {target : Span} {d : Descriptor} {host : Host σ} : s.redirection = some (dir, target) →
      e.host.openTarget dir (target.text ev.line) = (.ok d, host) →
        Reaches s ctx e (ctx.redirected dir d) { e with host }

/-- a stage that has been launched is a builtin that has run, or a child that was started; if the shell has to wait
for it, it is the one child that was started -/
theorem launchStage_ok {s : Stage} (hwords : s.words ≠ []) (ctx : Context) (session : Option Session) (e : Engine σ)
    {so : StageOutcome} (h : (ev.launchStage s ctx session e).outcome = .ok so) :
    (∃ n program args b inner e', so = .finished n ∧ ev.argv s.words = program :: args ∧
      Builtin.ofName? program = some b ∧ ev.Reaches s ctx e inner e' ∧ (ev.runBuiltin b args inner e').1 = .ok n) ∨
    so = .started ∧ ev.builtinOf s.words = none ∧
      (ctx.background = false → ∃ pid, (ev.launchStage s ctx session e).started = [pid]) := by
  unfold launchStage at h ⊢
  cases hredirection : s.redirection with
  | none =>
    rw [hredirection] at h
    rcases launchCommand_ok hwords ctx session e h with ⟨n, program, args, b, hso, hargv, hb, hr⟩ | hchild
    · exact .inl ⟨n, program, args, b, ctx, e, hso, hargv, hb, .plain hredirection, hr⟩
    · exact .inr hchild
  | some redirection =>
    obtain ⟨dir, target⟩ := redirection
    rw [hredirection] at h
    simp only at h ⊢
    rcases ho : e.host.openTarget dir (target.text ev.line) with ⟨r, host⟩
    cases r with
    | error f =>
      rw [launchRedirected_refused ev ho] at h
      cases h
    | ok d =>
      rw [launchRedirected_opened ev ho] at h ⊢
      rcases launchCommand_ok hwords (ctx.redirected dir d) session { e with host } h with
        ⟨n, program, args, b, hso, hargv, hb, hr⟩ | ⟨hso, hname, hpid⟩
      · exact .inl ⟨n, program, args, b, _, _, hso, hargv, hb, .redirected hredirection ho, hr⟩
      · refine .inr ⟨hso, hname, fun hbg => hpid ?_⟩
        rw [Context.background_redirected, hbg]

/-! ## what decides -/

/-- what waiting for children has answered: each child with its answer, in the order in which they were started -/
abbrev Answers := List (Pid × Except Failure Int)

/-- did all children answer with a status? -/
def Answers.Fine (answers : Answers) : Prop := ∀ x ∈ answers, ∃ n, x.2 = .ok n

/-- all stages were launched -/
structure Complete (stages : List Stage) (as : List (Attempt σ)) : Prop where
  stages : as.map (·.stage) = stages
  succeeded : ∀ a ∈ as, a.Succeeded

variable (ev)

/-- what decides how a group ends, given how its stages were launched, how its session was drained, and what its
children answered. A later thing only counts if nothing went wrong before. -/
inductive Decided (background : Bool) (stages : List Stage) (as : List (Attempt σ)) (drained : Except Failure Unit)
    (answers : Answers) : Except Failure Int → Prop
  /-- the first stage that could not be launched -/
  | unlaunched {before : List (Attempt σ)} {a : Attempt σ} {f : Failure} : as = before ++ [a] →
      (∀ b ∈ before, b.Succeeded) → a.launched.outcome = .error f →
        Decided background stages as drained answers (.error f)
  /-- the drain -/
  | undrained {f : Failure} : Complete stages as → drained = .error f →
      Decided background stages as drained answers (.error f)
  /-- the first child that could not be waited for -/
  | unwaited {before later : Answers} {pid : Pid} {f : Failure} : Complete stages as → drained = .ok () →
      answers = before ++ (pid, .error f) :: later → before.Fine →
        Decided background stages as drained answers (.error f)
  /-- the builtin in the last stage -/
  | builtin {before : List (Attempt σ)} {a : Attempt σ} {program : String} {args : List String} {b : Builtin}
      {inner : Context} {e : Engine σ} {n : Int} : Complete stages as → drained = .ok () → answers.Fine →
      as = before ++ [a] → ev.argv a.stage.words = program :: args → Builtin.ofName? program = some b →
      ev.Reaches a.stage a.context a.before inner e → (ev.runBuiltin b args inner e).1 = .ok n →
      a.launched.outcome = .ok (.finished n) → Decided background stages as drained answers (.ok n)
  /-- the child of the last stage -/
  | child {before : List (Attempt σ)} {a : Attempt σ} {pid : Pid} {n : Int} : background = false →
      Complete stages as → drained = .ok () → answers.Fine → as = before ++ [a] → ev.builtinOf a.stage.words = none →
      a.launched.outcome = .ok .started → a.launched.started = [pid] → answers.getLast? = some (pid, .ok n) →
        Decided background stages as drained answers (.ok n)
  /-- nobody waits for the child of the last stage -/
  | letGo {before : List (Attempt σ)} {a : Attempt σ} : background = true →
      Complete stages as → drained = .ok () → answers = [] → as = before ++ [a] → ev.builtinOf a.stage.words = none →
      a.launched.outcome = .ok .started → Decided background stages as drained answers (.ok 0)

variable {ev}

theorem waitVerdict_error {before : Answers} (h : before.Fine) (pid : Pid) (f : Failure) (later : Answers) :
    waitVerdict ((before ++ (pid, .error f) :: later).map Prod.snd) = .error f := by
  induction before with
  | nil => rfl
  | cons x before ih =>
    obtain ⟨n, hn⟩ := h x List.mem_cons_self
    rw [List.cons_append, List.map_cons, hn, waitVerdict, ih fun y hy => h y (List.mem_cons_of_mem x hy)]
    rfl

theorem waitVerdict_fine {answers : Answers} (h : answers.Fine) :
    waitVerdict (answers.map Prod.snd) = .ok (answers.getLast?.bind fun x => x.2.toOption) := by
  induction answers with
  | nil => rfl
  | cons x answers ih =>
    obtain ⟨n, hn⟩ := h x List.mem_cons_self
    rw [List.map_cons, hn, waitVerdict, ih fun y hy => h y (List.mem_cons_of_mem x hy)]
    cases answers with
    | nil => simp [hn, Except.map, Except.toOption]
    | cons y answers =>
      -- the last of several answers is among those behind the first
      obtain ⟨z, hz⟩ : ∃ z, (y :: answers).getLast? = some z :=
        ⟨_, List.getLast?_eq_some_getLast (List.cons_ne_nil _ _)⟩
      obtain ⟨m, hm⟩ := h z (List.mem_cons_of_mem x (List.mem_of_getLast? hz))
      rw [List.getLast?_cons_of_ne_nil (List.cons_ne_nil _ _), hz, Option.bind_some, hm]
      rfl

theorem Answers.fine_or (answers : Answers) :
    answers.Fine ∨ ∃ before pid f later, answers = before ++ (pid, .error f) :: later ∧ Answers.Fine before := by
  induction answers with
  | nil => exact .inl (List.forall_mem_nil _)
  | cons x answers ih =>
    obtain ⟨pid, r⟩ := x
    cases r with
    | error f => exact .inr ⟨[], pid, f, answers, rfl, List.forall_mem_nil _⟩
    | ok n =>
      rcases ih with hfine | ⟨before, pid', f, later, rfl, hbefore⟩
      · exact .inl (List.forall_mem_cons.2 ⟨⟨n, rfl⟩, hfine⟩)
      · exact .inr ⟨(pid, .ok n) :: before, pid', f, later, rfl, List.forall_mem_cons.2 ⟨⟨n, rfl⟩, hbefore⟩⟩

section

variable {as : List (Attempt σ)} {l : Launched σ} {drained : Except Failure Unit} {answers : Answers}

/-- the last of some attempts is determined by them -/
theorem InTurn.outcome_eq (h : ev.InTurn session stages ctx as l) {before : List (Attempt σ)} {a : Attempt σ}
    (has : as = before ++ [a]) : l.outcome = a.launched.outcome := by
  obtain ⟨before', a', has', -, houtcome⟩ := h.last
  rw [houtcome, (List.append_inj_right' (has'.symm.trans has) rfl |> List.singleton_inj.1)]

theorem InTurn.complete (h : ev.InTurn session stages ctx as l) (hok : ∃ so, l.outcome = .ok so) :
    Complete stages as where
  stages := h.all hok
  succeeded := by
    obtain ⟨before, a, has, hbefore, hlast⟩ := h.last
    rw [has]
    refine List.forall_mem_append.2 ⟨hbefore, List.forall_mem_singleton.2 ?_⟩
    rw [Attempt.Succeeded, ← hlast]
    exact hok

theorem InTurn.exists_ok (h : ev.InTurn session stages ctx as l) (hcomplete : Complete stages as) :
    ∃ so, l.outcome = .ok so := by
  obtain ⟨before, a, has, -, hlast⟩ := h.last
  rw [hlast]
  exact hcomplete.succeeded a (by rw [has]; exact List.mem_append_right before (List.mem_singleton_self a))

/-- whatever decides how a group ends, it ends with the verdict -/
theorem Decided.eq_verdict {r : Except Failure Int} (h : ev.Decided ctx.background stages as drained answers r)
    (hturn : ev.InTurn session stages ctx as l) :
    r = verdict l.outcome drained (waitVerdict (answers.map Prod.snd)) := by
  cases h with
  | unlaunched has _ hf =>
    rw [hturn.outcome_eq has, hf]
    rfl
  | undrained hcomplete hdrained =>
    obtain ⟨so, hso⟩ := hturn.exists_ok hcomplete
    rw [hso, hdrained]
    rfl
  | unwaited hcomplete hdrained hanswers hbefore =>
    obtain ⟨so, hso⟩ := hturn.exists_ok hcomplete
    rw [hso, hdrained, hanswers, waitVerdict_error hbefore]
    rfl
  | builtin _ hdrained hfine has _ _ _ _ hn =>
    rw [hturn.outcome_eq has, hn, hdrained, waitVerdict_fine hfine]
    rfl
  | child _ _ hdrained hfine has _ hstarted _ hlast =>
    rw [hturn.outcome_eq has, hstarted, hdrained, waitVerdict_fine hfine, hlast]
    rfl
  | letGo _ _ hdrained hanswers has _ hstarted =>
    rw [hturn.outcome_eq has, hstarted, hdrained, hanswers]
    rfl

/-- the last answer is that of the child that the last attempt has started -/
theorem answers_getLast? (hfine : answers.Fine) (hanswers : answers.map Prod.fst = as.flatMap (·.launched.started))
    {before : List (Attempt σ)} {a : Attempt σ} (has : as = before ++ [a]) {pid : Pid}
    (hpid : a.launched.started = [pid]) : ∃ n, answers.getLast? = some (pid, .ok n) := by
  rw [has, List.flatMap_append, List.flatMap_singleton, hpid] at hanswers
  obtain ⟨front, last, rfl, -, hlast⟩ := List.map_eq_append_iff.1 hanswers
  obtain ⟨x, rfl, rfl⟩ := List.map_eq_singleton_iff.1 hlast
  obtain ⟨n, hn⟩ := hfine x (List.mem_append_right front (List.mem_singleton_self x))
  exact ⟨n, by rw [List.getLast?_concat, ← hn]⟩

/-- the verdict on a group is decided by one of these things -/
theorem InTurn.decided (hturn : ev.InTurn session stages ctx as l) (hwords : ∀ s ∈ stages, s.words ≠ [])
    (hbg : ctx.background = true → l.started = []) (hanswers : answers.map Prod.fst = l.started) :
    ev.Decided ctx.background stages as drained answers
      (verdict l.outcome drained (waitVerdict (answers.map Prod.snd))) := by
  obtain ⟨before, a, has, hbefore, hlast⟩ := hturn.last
  cases hout : l.outcome with
  | error f => exact .unlaunched has hbefore (hlast.symm.trans hout)
  | ok so =>
    have hcomplete := hturn.complete ⟨so, hout⟩
    cases drained with
    | error f => exact .undrained hcomplete rfl
    | ok _ =>
      rcases answers.fine_or with hfine | ⟨first, pid, f, later, heq, hfirst⟩
      · have hmem : a ∈ as := by
          rw [has]
          exact List.mem_append_right before (List.mem_singleton_self a)
        obtain ⟨hcontext, hlaunch⟩ := hturn.stage a hmem
        have hok : a.launched.outcome = .ok so := hlast.symm.trans hout
        have hlaunched := hlaunch ⟨so, hok⟩
        have hstage : a.stage.words ≠ [] := hwords _ (by rw [← hcomplete.stages]; exact List.mem_map_of_mem hmem)
        have hso := hlaunched ▸ hok
        rw [waitVerdict_fine hfine]
        rcases launchStage_ok hstage a.context session a.before hso with
          ⟨n, program, args, b, inner, e, rfl, hargv, hb, hreaches, hr⟩ | ⟨rfl, hname, hpid⟩
        · exact .builtin hcomplete rfl hfine has hargv hb hreaches hr hok
        · cases hback : ctx.background with
          | true =>
            have hnone : answers = [] := by rwa [hbg hback, List.map_eq_nil_iff] at hanswers
            rw [hnone]
            exact .letGo rfl hcomplete rfl rfl has hname hok
          | false =>
            obtain ⟨pid, hpid⟩ := hpid (hcontext.trans hback)
            rw [← hlaunched] at hpid
            obtain ⟨n, hn⟩ := answers_getLast? hfine (hanswers.trans hturn.started) has hpid
            rw [hn]
            exact .child rfl hcomplete rfl hfine has hname hok hpid hn
      · rw [heq, waitVerdict_error hfirst]
        exact .unwaited hcomplete rfl rfl hfirst

end

/-! ## every group of a line -/

/-- how a group ends, from the engine `opened` in which its session, if it has one, was opened -/
structure Ends (ev : Evaluation σ) (ctx : Context) (session : Option Session) (stages : List Stage) (opened : Engine σ)
    (r : Except Failure Int) (ended : Engine σ) (drained : Except Failure Unit) (answers : Answers) : Prop where
  decided : ev.Decided ctx.background stages (ev.attempts session stages ctx none opened) drained answers r
  /-- nothing else could have been decided -/
  only : ∀ r', ev.Decided ctx.background stages (ev.attempts session stages ctx none opened) drained answers r' → r' = r
  /-- the session was drained, and all children that were started were waited for in order, unless `exit` ended the
  host -/
  settled : (ev.settings.exitTerminates = true ∧ ∃ n, r = .error (.exit n)) ∨
    answers.map Prod.fst = (ev.attempts session stages ctx none opened).flatMap (·.launched.started) ∧
    ∃ o took launching, ev.GroupTrace session ctx none stages o (answers.map Prod.fst) took launching ∧
      Logged opened ended (launching ++ draining drained session ++ answers.map fun x => .waited x.1 x.2)
  undrained : session = none → drained = .ok ()
  background : ctx.background = true → session = none ∧ answers = []

variable (ev)

/-- how a group ends whose session, if it has one, was opened -/
theorem runGroup_ends {t : Tree} (ht : t.IsGroup) {ctx : Context} {session : Option Session} {e opened : Engine σ}
    (hopen : ev.openSession ctx e = (.ok session, opened)) :
    ∃ drained answers, ev.Ends ctx session t.stages opened (ev.runGroup (ev.launch t) ctx e).1
      (ev.runGroup (ev.launch t) ctx e).2 drained answers := by
  obtain ⟨⟨opening, -, hopening⟩, hopened⟩ := openSession_opening ev hopen
  have hback : ctx.background = true → session = none := by
    intro hbg
    rw [openSession_background ev hbg] at hopen
    exact (Except.ok.inj (Prod.mk.inj hopen).1).symm
  have hturn := launchFrom_inTurn ev ht none ctx session opened
  obtain ⟨took, launching, htrace, hlaunch, -⟩ := launchFrom_group ev ht none ctx session opened rfl
  have hcapture : (ev.launchFrom t none ctx session opened).engine.capture = e.capture := by
    rw [launchFrom_capture, hopened]
    rfl
  have hrun : ev.runGroup (ev.launch t) ctx e =
      if ev.terminated (ev.launchFrom t none ctx session opened).outcome then
        ((ev.launchFrom t none ctx session opened).outcome.map fun _ => 0,
          (ev.launchFrom t none ctx session opened).engine)
      else ev.settle session (ev.launchFrom t none ctx session opened) := by
    simp only [runGroup, hopen]
    rfl
  rw [hrun]
  generalize ev.launchFrom t none ctx session opened = l at hturn htrace hlaunch hcapture ⊢
  split
  · rename_i hterminated
    obtain ⟨hexit, n, hn⟩ := (terminated_iff ev).1 hterminated
    obtain ⟨before, a, has, hbefore, hlast⟩ := hturn.last
    rw [hn]
    refine ⟨.ok (), [], .unlaunched has hbefore (hlast.symm.trans hn), fun r' hr' => ?_, .inl ⟨hexit, n, rfl⟩,
      fun _ => rfl, fun hbg => ⟨hback hbg, rfl⟩⟩
    rw [hr'.eq_verdict hturn, hn]
    rfl
  · obtain ⟨hdrain, -⟩ := drain_trace ev (e := l.engine) session fun h => by rw [hcapture]; exact hopening.captured h
    obtain ⟨rs, hrs, hverdict, hwait, -⟩ := waitAll_trace ev l.started (ev.drain session l.engine).2
    have hfst : (l.started.zip rs).map Prod.fst = l.started := List.map_fst_zip (Nat.le_of_eq hrs.symm)
    have hsnd : (l.started.zip rs).map Prod.snd = rs := List.map_snd_zip (Nat.le_of_eq hrs)
    have hresult : (ev.settle session l).1 =
        verdict l.outcome (ev.drain session l.engine).1 (waitVerdict ((l.started.zip rs).map Prod.snd)) := by
      rw [hsnd, ← hverdict]
      rfl
    refine ⟨(ev.drain session l.engine).1, l.started.zip rs, ?_, fun r' hr' => ?_, .inr ⟨hfst.trans hturn.started, ?_⟩,
      ?_, fun hbg => ⟨hback hbg, ?_⟩⟩
    · rw [hresult]
      exact hturn.decided ht.words_ne_nil (fun hbg => (htrace.background hbg).1) hfst
    · rw [hresult]
      exact hr'.eq_verdict hturn
    · refine ⟨l.outcome, took, launching, by rw [hfst]; exact htrace, ?_⟩
      have hzip : (l.started.zip rs).map (fun x => Event.waited x.1 x.2) = List.zipWith .waited l.started rs :=
        List.map_uncurry_zip_eq_zipWith ..
      rw [hzip]
      exact (hlaunch.trans hdrain).trans hwait
    · rintro rfl
      rfl
    · rw [(htrace.background hbg).1]
      rfl

/-- **How a group ends.** If the session of a group cannot be opened, the group ends with that failure, and nothing is
started. Otherwise its stages are attempted in turn, and how it ends is decided by the first stage that cannot be
launched, else by the drain, else by the first child that cannot be waited for, else by its last stage alone. Unless
`exit` has ended the host, the session was drained and every child that was started was waited for, whatever went
wrong before. -/
theorem runGroup_decided {ts : List Token} {t : Tree} (ht : Line.parse ts = .ok t) {s : Statement}
    (hs : s ∈ t.statements) (ctx : Context) (e : Engine σ) :
    (∀ f opened, ev.openSession ctx e = (.error f, opened) →
      ev.runGroup (ev.launch s.group) ctx e = (.error f, opened) ∧
      ∃ evs, Logged e opened evs ∧ ∀ x ∈ evs, x.starts = false) ∧
    ∀ session opened, ev.openSession ctx e = (.ok session, opened) → ∃ drained answers,
      ev.Ends ctx session s.group.stages opened (ev.runGroup (ev.launch s.group) ctx e).1
        (ev.runGroup (ev.launch s.group) ctx e).2 drained answers := by
  have hgroup : s.group.IsGroup := (Line.parse_eq_ok_iff.1 ht).1.isLine.isGroup s hs
  refine ⟨fun f opened hopen => ⟨?_, ?_⟩, fun session opened hopen => runGroup_ends ev hgroup hopen⟩
  · simp only [runGroup, hopen]
  · obtain ⟨⟨evs, hlog, hopening⟩, -⟩ := openSession_opening ev hopen
    exact ⟨evs, hlog, hopening.starts_nothing⟩

/-- an engine whose program `a` exits with 3 and whose program `b` exits with 5 -/
def threeAndFive : Engine Scripted.State where
  host := { world := {}, state := { scripts := [("a", { status := 3 }), ("b", { status := 5 })] } }

/-- On the line `a|b` both programs are waited for, and the status is that of `b`. -/
theorem runGroup_decided_last :
    Line.parse (Line.tokens "a|b") = .ok (.pipe (.command [⟨0, 1⟩]) (.command [⟨2, 3⟩])) ∧
    ∃ ended drained answers, (scripted "a|b").Ends {} none [⟨[⟨0, 1⟩], none⟩, ⟨[⟨2, 3⟩], none⟩] threeAndFive (.ok 5)
      ended drained answers := by
  have hparse : Line.parse (Line.tokens "a|b") = .ok (.pipe (.command [⟨0, 1⟩]) (.command [⟨2, 3⟩])) := by
    decide +kernel
  have hresult : ((scripted "a|b").runGroup ((scripted "a|b").launch (.pipe (.command [⟨0, 1⟩]) (.command [⟨2, 3⟩]))) {}
      threeAndFive).1 = .ok 5 := by decide +kernel
  obtain ⟨drained, answers, hends⟩ := (runGroup_decided (scripted "a|b") hparse (List.mem_singleton_self _) {}
    threeAndFive).2 none threeAndFive rfl
  exact ⟨hparse, _, drained, answers, hresult ▸ hends⟩

end Evaluation

end LineShell
