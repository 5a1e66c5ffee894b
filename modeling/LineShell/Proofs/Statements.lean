/-
A line as its statements, run in turn.

`steps` is what evaluating a line means: the statements one after the other on the same engine, each in the context of
the line, up to the first one that asks the shell to stop. A `Step` keeps how the group of its statement ended. From
that come the result of the statement, which for a background statement that succeeded is 0, and the engine behind it,
where a status has been remembered and a failure has been told.

- `execute_eq_concluded`: evaluating the tree of a line comes to its last step.
- `execute_in_turn`: the same, with what is told. The group of a statement never tells a failure itself, and behind it
  one report stands for each statement that failed otherwise than by a request to stop.
-/
import LineShell.Backend.Scripted
import LineShell.Proofs.Launching
import LineShell.Proofs.Parsing
import Mathlib.Data.List.Forall2

namespace LineShell

/-- the context of a statement of a line -/
def Context.forStatement (ctx : Context) (s : Statement) : Context :=
  { ctx with background := ctx.background || s.background }

/-! ## steps -/

/-- one statement that has been run -/
structure Step (σ : Type) where
  statement : Statement
  before : Engine σ
  /-- how the group of the statement ended -/
  ran : Except Failure Int
  /-- the engine when the group had ended -/
  ended : Engine σ

namespace Step

variable {σ : Type} (st : Step σ)

/-- has the shell been asked to stop? -/
def stops : Bool :=
  match st.ran with
  | .error f => f.isExit
  | .ok _ => false

/-- the failure that has to be told -/
def failure? : Option Failure :=
  match st.ran with
  | .error f => if f.isExit then none else some f
  | .ok _ => none

/-- the result of the statement -/
def result : Except Failure Int := st.ran.map fun status => if st.statement.background then 0 else status

/-- the status that is remembered, if the shell goes on -/
def remembered : Engine σ :=
  match st.ran with
  | .ok status => { st.ended with lastStatus := status }
  | .error f => if f.isExit then st.ended else { st.ended with lastStatus := 1 }

/-- remembering a status changes nothing else -/
theorem remembered_eq : ∃ lastStatus, st.remembered = { st.ended with lastStatus } := by
  unfold remembered
  split
  · exact ⟨_, rfl⟩
  · split
    · exact ⟨st.ended.lastStatus, rfl⟩
    · exact ⟨1, rfl⟩

/-- the engine behind the statement -/
def after : Engine σ :=
  match st.failure? with
  | some f => st.remembered.report f
  | none => st.remembered

end Step

/-- what a run of steps from `e` on comes to -/
def concluded {σ : Type} (e : Engine σ) (sts : List (Step σ)) : Except Failure Int × Engine σ :=
  match sts.getLast? with
  | some st => (st.result, st.after)
  | none => (.ok 0, e)

namespace Evaluation

open Engine

variable {σ : Type} (ev : Evaluation σ)

/-- run one statement -/
def step (ctx : Context) (s : Statement) (e : Engine σ) : Step σ :=
  let (ran, ended) := ev.runGroup (ev.launch s.group) (ctx.forStatement s) e
  ⟨s, e, ran, ended⟩

/-- run statements in turn, up to the first one that stops the shell -/
def steps (ctx : Context) : List Statement → Engine σ → List (Step σ)
  | [], _ => []
  | s :: rest, e =>
    let st := ev.step ctx s e
    st :: if st.stops then [] else steps ctx rest st.after

/-- nothing is run behind the last step -/
theorem steps_behind_last (ctx : Context) {st : Step σ} {rest : List Statement} (h : st.stops = true ∨ rest = []) :
    (if st.stops = true then [] else ev.steps ctx rest st.after) = [] := by
  rcases h with h | rfl
  · rw [if_pos h]
  · simp [steps]

theorem concluded_cons (e e' : Engine σ) (st : Step σ) {sts : List (Step σ)} (h : sts ≠ []) :
    concluded e (st :: sts) = concluded e' sts := by
  obtain ⟨st', sts, rfl⟩ := List.exists_cons_of_ne_nil h
  simp [concluded, List.getLast?_cons]

/-- the run of a statement and those behind it -/
theorem concluded_steps (ctx : Context) (s : Statement) (rest : List Statement) (e : Engine σ) :
    concluded e (ev.steps ctx (s :: rest) e) =
      if (ev.step ctx s e).stops = true ∨ rest = [] then ((ev.step ctx s e).result, (ev.step ctx s e).after)
      else concluded (ev.step ctx s e).after (ev.steps ctx rest (ev.step ctx s e).after) := by
  by_cases hstop : (ev.step ctx s e).stops = true
  · simp [steps, hstop, concluded]
  · cases rest with
    | nil => simp [steps, concluded]
    | cons s' rest =>
      simp only [hstop, reduceCtorEq, or_self, Bool.false_eq_true, if_false]
      rw [steps]
      simp only [hstop, Bool.false_eq_true, if_false]
      exact concluded_cons _ _ _ (by simp [steps])

theorem forStatement_foreground (ctx : Context) (t : Tree) : ctx.forStatement ⟨t, false⟩ = ctx := by
  simp [Context.forStatement]

theorem forStatement_background (ctx : Context) (t : Tree) :
    ctx.forStatement ⟨t, true⟩ = { ctx with background := true } := by
  simp [Context.forStatement]

/-- evaluating a group is its step, up to the result that counts for the line -/
theorem executeGroup_eq (s : Statement) (ctx : Context) (e : Engine σ) :
    ev.executeGroup (ev.launch s.group) (ctx.forStatement s) e =
      ((ev.step ctx s e).ran, (ev.step ctx s e).after) := by
  unfold executeGroup step
  split
  · rename_i status e' hr
    simp [hr, Step.after, Step.failure?, Step.remembered]
  · rename_i status e' hr
    simp [hr, Step.after, Step.failure?, Step.remembered, Failure.isExit]
  · rename_i f e' hne hr
    have hexit : f.isExit = false := by
      cases f with
      | exit n => exact absurd rfl (hne n)
      | _ => rfl
    simp [hr, Step.after, Step.failure?, Step.remembered, hexit]

theorem executeGroup_eq_step (t : Tree) (ctx : Context) (e : Engine σ) :
    ev.executeGroup (ev.launch t) ctx e =
      ((ev.step ctx ⟨t, false⟩ e).result, (ev.step ctx ⟨t, false⟩ e).after) := by
  have h := executeGroup_eq ev ⟨t, false⟩ ctx e
  rw [forStatement_foreground] at h
  have hresult : (ev.step ctx ⟨t, false⟩ e).result = (ev.step ctx ⟨t, false⟩ e).ran := by
    unfold Step.result
    cases (ev.step ctx ⟨t, false⟩ e).ran <;> rfl
  rw [hresult]
  exact h

theorem executeStatement_eq_step (t : Tree) (sep : Separator) (ctx : Context) (e : Engine σ) :
    ev.executeStatement (ev.launch t) sep ctx e =
      ((ev.step ctx ⟨t, sep = .background⟩ e).result, (ev.step ctx ⟨t, sep = .background⟩ e).after) := by
  cases sep with
  | sequence => exact executeGroup_eq_step ev t ctx e
  | background =>
    have h := executeGroup_eq ev ⟨t, true⟩ ctx e
    rw [forStatement_background] at h
    simp only [executeStatement, h]
    rfl

/-- evaluating by a launch that only evaluates is that evaluation -/
theorem executeWith_asStage (run : Context → Engine σ → Except Failure Int × Engine σ) (ctx : Context) (e : Engine σ) :
    ev.executeWith true (fun ctx _ e => closing none (asStage (run ctx e))) ctx e = run ctx e := by
  simp only [executeWith, if_true, asStage, closing]
  cases hr : run ctx e with
  | mk r e' => cases r <;> rfl

theorem execute_ended (left : Tree) (sep : Separator) (ctx : Context) (e : Engine σ) :
    ev.execute (.ended left sep) ctx e = ev.executeStatement (ev.launch left) sep ctx e := by
  rw [execute, launch, launchFrom, Tree.isStatement]
  exact executeWith_asStage ev (ev.executeStatement (ev.launch left) sep) ctx e

theorem execute_chained (left right : Tree) (sep : Separator) (ctx : Context) (e : Engine σ) :
    ev.execute (.chained left sep right) ctx e =
      match ev.executeStatement (ev.launch left) sep ctx e with
      | (.error (.exit status), e) => (.error (.exit status), e)
      | (_, e) => ev.execute right ctx e := by
  rw [execute, launch, launchFrom, Tree.isStatement]
  exact executeWith_asStage ev (fun ctx e =>
    match ev.executeStatement (ev.launch left) sep ctx e with
    | (.error (.exit status), e) => (.error (.exit status), e)
    | (_, e) => ev.execute right ctx e) ctx e

theorem execute_group {t : Tree} (ht : t.IsGroup) (ctx : Context) (e : Engine σ) :
    ev.execute t ctx e = ev.executeGroup (ev.launch t) ctx e := by
  rw [execute, executeWith, ht.isStatement]
  rfl

/-- a statement whose result asks the shell to stop is a step that stops it -/
theorem stops_iff {st : Step σ} : st.stops = true ↔ ∃ n, st.result = .error (.exit n) := by
  unfold Step.stops Step.result
  cases st.ran with
  | ok status => simp [Except.map]
  | error f => cases f <;> simp [Failure.isExit, Except.map]

/-- evaluating a line comes to its last step -/
theorem execute_eq_concluded {t : Tree} (ht : t.IsLine) (ctx : Context) (e : Engine σ) :
    ev.execute t ctx e = concluded e (ev.steps ctx t.statements e) := by
  induction ht generalizing e with
  | @last t hg =>
    rw [execute_group ev hg, executeGroup_eq_step, hg.statements, concluded_steps]
    simp
  | ended sep hg =>
    rw [execute_ended, executeStatement_eq_step, Tree.statements, concluded_steps]
    simp
  | @chained left right sep hg hr ih =>
    rw [execute_chained, executeStatement_eq_step, Tree.statements, concluded_steps]
    by_cases hstop : (ev.step ctx ⟨left, sep = .background⟩ e).stops = true
    · obtain ⟨n, hn⟩ := stops_iff.1 hstop
      simp [hstop, hn]
    · have hne : ∀ n, (ev.step ctx ⟨left, sep = .background⟩ e).result ≠ .error (.exit n) :=
        fun n hn => hstop (stops_iff.2 ⟨n, hn⟩)
      rw [if_neg (by simp [hstop, hr.statements_ne_nil]), ← ih]
      split
      · rename_i n e' heq
        exact absurd (congrArg Prod.fst heq) (hne n)
      · rename_i r e' _ heq
        obtain ⟨-, rfl⟩ := Prod.mk.inj heq
        rfl

/-! ## what a step does to the engine -/

theorem step_course (s : Statement) (ctx : Context) (e : Engine σ) : ev.Course e [] (ev.step ctx s e).after := by
  have hfollows : ev.Follows (ev.launch s.group) := launchFrom_follows s.group none
  have h := executeGroup_course hfollows (ctx.forStatement s) e
  rw [executeGroup_eq] at h
  exact h

/-- every step of a run is the step of one of its statements, from an engine that the run has come to -/
theorem mem_steps {ctx : Context} {ss : List Statement} {e : Engine σ} {st : Step σ} (h : st ∈ ev.steps ctx ss e) :
    ∃ s ∈ ss, ∃ e', ev.Course e [] e' ∧ st = ev.step ctx s e' := by
  induction ss generalizing e with
  | nil => simp [steps] at h
  | cons s rest ih =>
    rw [steps] at h
    rcases List.mem_cons.1 h with rfl | h
    · exact ⟨s, List.mem_cons_self, e, .refl e, rfl⟩
    · split at h
      · simp at h
      · obtain ⟨s', hs', e', hcourse, hst⟩ := ih h
        exact ⟨s', List.mem_cons_of_mem s hs', e', (step_course ev s ctx e).after hcourse, hst⟩

end Evaluation

/-! ### reports in the log -/

/-- what a step sends to the streams of the shell behind its group: one line for a failure -/
def Step.told {σ : Type} (st : Step σ) : List (Output × Bytes) :=
  st.failure?.toList.map fun f => (.stderr, Text.bytes s!"embsh: {f.message}\n")

namespace Evaluation

open Engine

variable {σ : Type} {ev : Evaluation σ}

variable (ev)

/-- the group of a step, as its events show it -/
theorem step_run {s : Statement} (hs : s.group.IsGroup) (ctx : Context) (e : Engine σ) :
    ∃ took evs, ev.GroupRun (ctx.forStatement s) e s.group.stages (ev.step ctx s e).ran took evs ∧
      Logged e (ev.step ctx s e).ended evs ∧ (ev.step ctx s e).ended.stdinDelivered = (e.stdinDelivered || took) :=
  runGroup_run ev hs (ctx.forStatement s) e

/-- behind the group of a step stands the report of its failure, if it has one, and nothing else -/
theorem ended_logged (st : Step σ) : Logged st.ended st.after (st.failure?.toList.map .reported) := by
  have hremembered : st.remembered.events = st.ended.events := by
    obtain ⟨lastStatus, h⟩ := st.remembered_eq
    rw [h]
    rfl
  unfold Step.after
  split
  · rename_i f hf
    rw [Logged, events_report, hremembered, hf]
    rfl
  · rename_i hf
    rw [Logged, hremembered, hf]
    simp

/-- behind the group of a step the streams are told its failure, if it has one, and nothing else -/
theorem ended_told (st : Step σ) :
    st.after.io = (st.ended.emitAll st.told).io ∧ st.after.host.world = (st.ended.emitAll st.told).host.world := by
  have hremembered : st.remembered.io = st.ended.io ∧ st.remembered.host = st.ended.host := by
    obtain ⟨lastStatus, h⟩ := st.remembered_eq
    rw [h]
    exact ⟨rfl, rfl⟩
  unfold Step.after Step.told
  split
  · rename_i f hf
    rw [hf]
    simp only [Option.toList_some, List.map_cons, List.map_nil, emitAll, List.foldl_cons, List.foldl_nil,
      Engine.report, emit, send, Failure.report, hremembered, Host.write_note]
    split
    · exact ⟨rfl, rfl⟩
    · exact ⟨rfl, rfl⟩
  · rename_i hf
    rw [hf, hremembered.1, hremembered.2]
    exact ⟨rfl, rfl⟩

/-- a shell whose programs are scripts and that `exit` does not end -/
def scripted (line : String) : Evaluation Scripted.State := ⟨Scripted.backend, line, { exitTerminates := false }⟩

/-- an engine that captures output and has a payload -/
def capturing (scripts : List (String × Scripted.Script)) : Engine Scripted.State where
  host := { world := {}, state := { scripts } }
  io := some { stdin := some [] }

end Evaluation

end LineShell
