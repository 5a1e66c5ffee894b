/-
The capturing mode of the program.

The program runs the lines that it was given one after the other, and capturing is meant to change only where their
output goes. It also changes what `exit` does: without capturing it ends the program, and with capturing it ends its
line, behind which the program goes on with the next one. Over a backend that does not tell whether output is captured
this is the only difference.

- `Shell.run_beside`: one line ends alike, unless `exit` has ended the host.
- `runLine_alongside`: so does the program with one line more.
- `runLines_capture`: up to the line with which the program ends if it does not capture, the same is done in both modes,
  and the status is the same. If there are lines behind it, capturing goes on with them.
-/
import LineShell.CommandLine
import LineShell.Proofs.Indifference
import LineShell.Proofs.Lifecycle
import LineShell.Proofs.Scripts

namespace LineShell

variable {σ : Type} {like : Likeness σ}

/-! ## a line -/

namespace Line

/-- the command of a line has been parsed -/
theorem parse_of_command {line : String} {t : Tree} (h : command line = .ok (some t)) : ∃ ts, parse ts = .ok t := by
  unfold command at h
  split at h
  · cases h
  · split at h
    · cases h
    · rename_i ts _
      split at h
      · cases h
      · split at h
        · cases h
        · rename_i t' ht
          obtain rfl : t' = t := Option.some.inj (Except.ok.inj h)
          exact ⟨ts, ht⟩

/-- a line that cannot be read does not ask the shell to stop -/
theorem command_ne_exit {line : String} {n : Int} : command line ≠ .error (.exit n) := by
  unfold command
  split
  · nofun
  · split
    · nofun
    · split
      · nofun
      · split <;> nofun

end Line

namespace Shell

variable (sh : Shell σ)

/-- the same shell, but for `exit`, which only ends a line -/
def lasting : Shell σ := { sh with settings := { sh.settings with exitTerminates := false } }

/-- what evaluating a line comes to, and the engine that it leaves behind -/
def evaluated (line : String) (io : Option Streams) (h : Host σ) : Except Failure Int × Engine σ :=
  let e : Engine σ := { host := h, io := io.map (·.reset) }
  match Line.command line with
  | .error f => (.error f, e.report f)
  | .ok none => (.ok 0, e)
  | .ok (some t) => Evaluation.execute ⟨sh.backend, line, sh.settings⟩ t {} e

variable {sh}

theorem ending_of_not_exit {r : Except Failure Int} (h : ∀ n, r ≠ .error (.exit n)) : sh.ending r = .returned r := by
  unfold ending
  split
  · exact absurd rfl (h _)
  · rfl

theorem ending_lasting (r : Except Failure Int) : ∃ result, sh.lasting.ending r = .returned result := by
  by_cases hexit : ∃ n, r = .error (.exit n)
  · obtain ⟨n, rfl⟩ := hexit
    exact ⟨.ok n, rfl⟩
  · exact ⟨r, ending_of_not_exit fun n hn => hexit ⟨n, hn⟩⟩

variable (sh)

/-- a line ends as its evaluation does -/
theorem run_eq_evaluated (line : String) (io : Option Streams) (h : Host σ) :
    sh.run line io h = ⟨sh.ending (sh.evaluated line io h).1, (sh.evaluated line io h).2.io,
      (sh.evaluated line io h).2.host⟩ := by
  unfold run evaluated
  cases hc : Line.command line with
  | error f =>
    have hgoes : ∀ n, (.error f : Except Failure Int) ≠ .error (.exit n) := by
      rintro n ⟨⟩
      exact Line.command_ne_exit hc
    simp only [ending_of_not_exit hgoes]
  | ok command => cases command <;> rfl

/-- then no line ends the host -/
theorem run_lasting (line : String) (io : Option Streams) (h : Host σ) :
    ∃ result, (sh.lasting.run line io h).ending = .returned result := by
  rw [run_eq_evaluated]
  exact ending_lasting _

/-! ### a line in both runs -/

/-- A line meets in both runs, whether it can be read or not. -/
theorem evaluated_beside {o : Origin} (hb : sh.backend.Indifferent like) (hnum : like.Numbers o.numbers) (line : String)
    {h h' : Host σ} (hstart : o.Mirrors 0 none h.events h'.events) (hserved : h.ServedAlike h')
    (halike : like.launching {} h.here h'.here) {io : Streams} (hstdin : io.stdin = none) :
    Evaluation.Meets ⟨sh.backend, line, sh.settings⟩ like o (sh.evaluated line none h)
      (sh.lasting.evaluated line (some io) h') := by
  have hpaired : like.Paired o none {} ({ host := h, io := none } : Engine σ) { host := h', io := some io.reset } :=
    ⟨rfl, congrArg some hstdin, rfl, .nil, hstart, hserved, halike⟩
  simp only [evaluated, Option.map_none, Option.map_some]
  cases hcommand : Line.command line with
  | error f => exact .of_paired (Beside.report hb hpaired f) _
  | ok command =>
    cases command with
    | none => exact .of_paired hpaired _
    | some t =>
      obtain ⟨ts, ht⟩ := Line.parse_of_command hcommand
      exact Evaluation.execute_beside hb hnum ht hpaired

/-- one line, run in both ways: it ends with the same number after the same deeds, and the runs are side by side unless
`exit` has ended the host of the first -/
structure RunsBeside (like : Likeness σ) (r r' : Run σ) : Prop where
  code : r'.ending.code = r.ending.code
  deeds : r'.host.deeds = r.host.deeds
  alike : (∃ n, r.ending = .terminated n) ∨
    (∃ result, r.ending = .returned result) ∧ r.io = none ∧ r.host.ServedAlike r'.host ∧
      like.launching {} r.host.here r'.host.here

variable {sh}

/-- engines that are side by side at the end of a line -/
theorem RunsBeside.of_paired {o : Origin} {e e' : Engine σ} (h : like.Paired o none {} e e') (r : Except Failure Int) :
    RunsBeside like ⟨.returned r, e.io, e.host⟩ ⟨.returned r, e'.io, e'.host⟩ :=
  ⟨rfl, h.deeds, .inr ⟨⟨r, rfl⟩, h.uncaptured, h.served, h.alike⟩⟩

/-- a line whose evaluation meets in both runs -/
theorem RunsBeside.of_meets {o : Origin} {line : String} {x y : Except Failure Int × Engine σ}
    (h : Evaluation.Meets ⟨sh.backend, line, sh.settings⟩ like o x y) :
    RunsBeside like ⟨sh.ending x.1, x.2.io, x.2.host⟩ ⟨sh.lasting.ending y.1, y.2.io, y.2.host⟩ := by
  rw [h.answer]
  by_cases hexit : ∃ n, x.1 = .error (.exit n)
  · obtain ⟨n, hn⟩ := hexit
    have hlasting : sh.lasting.ending x.1 = .returned (.ok n) := by rw [hn]; rfl
    rw [hlasting]
    cases hterm : sh.settings.exitTerminates with
    | true =>
      have hending : sh.ending x.1 = .terminated n := by simp only [ending, hn, hterm, if_true]
      rw [hending]
      exact ⟨rfl, h.deeds, .inl ⟨n, rfl⟩⟩
    | false =>
      have hending : sh.ending x.1 = .returned (.ok n) := by
        simp only [ending, hn, hterm, Bool.false_eq_true, if_false]
      rw [hending]
      exact .of_paired (h.beside fun hexit => absurd (hterm.symm.trans hexit) Bool.false_ne_true) _
  · have hgoes : ∀ n, x.1 ≠ .error (.exit n) := fun n hn => hexit ⟨n, hn⟩
    rw [ending_of_not_exit hgoes, ending_of_not_exit hgoes]
    exact .of_paired (h.beside fun _ => hgoes) _

variable (sh)

/-- one line ends alike in both runs -/
theorem run_beside (hb : sh.backend.Indifferent like) (line : String) {h h' : Host σ} (hdeeds : h'.deeds = h.deeds)
    (hserved : h.ServedAlike h') (halike : like.launching {} h.here h'.here) {io : Streams} (hstdin : io.stdin = none) :
    RunsBeside like (sh.run line none h) (sh.lasting.run line (some io) h') := by
  rw [run_eq_evaluated, run_eq_evaluated]
  let o : Origin := ⟨h.events, h'.events, fun _ _ => True, hdeeds⟩
  exact .of_meets (sh.evaluated_beside (o := o) hb (fun _ _ _ => trivial) line .start hserved halike hstdin)

/-- a line that cannot end the host only adds to what has been done -/
theorem run_deeds (line : String) (io : Option Streams) (h : Host σ) :
    ∃ more, (sh.lasting.run line io h).host.deeds = h.deeds ++ more := by
  unfold run
  cases Line.command line with
  | error f => exact ⟨_, Host.deeds_eq_append (Engine.events_report _ f)⟩
  | ok command =>
    cases command with
    | none => exact ⟨[], (List.append_nil _).symm⟩
    | some t =>
      have hcourse : Evaluation.Course ⟨sh.lasting.backend, line, sh.lasting.settings⟩
          { host := h, io := io.map (·.reset) } [] _ := Evaluation.execute_course t {} _
      obtain ⟨evs, hlog, -⟩ := hcourse.run_ledger rfl
      exact ⟨_, Host.deeds_eq_append hlog⟩

end Shell

/-! ## all lines -/

namespace CommandLine

variable {b : Backend σ} {o o' : Options}

/-! ### what one line comes to -/

section

variable {p : Progress σ} (hgoes : p.ended = false) {line : String} {r : Run σ}

include hgoes

/-- `exit` ends a program that does not capture -/
theorem runLine_terminated (ho : o.captures = false)
    (hr : ({ backend := b } : Shell σ).run line none p.host = r) {n : Int} (hend : r.ending = .terminated n) :
    runLine b o p line = { p with status := r.ending.code, host := r.host, ended := true } := by
  simp only [runLine, hgoes, ho, Bool.false_eq_true, if_false, Bool.not_false]
  rw [hr]
  simp only [hend]

/-- it goes on behind any other line -/
theorem runLine_returned (ho : o.captures = false)
    (hr : ({ backend := b } : Shell σ).run line none p.host = r) {result : Except Failure Int}
    (hend : r.ending = .returned result) (hio : r.io = none) :
    runLine b o p line = { p with status := r.ending.code, host := r.host } := by
  simp only [runLine, hgoes, ho, Bool.false_eq_true, if_false, Bool.not_false]
  rw [hr]
  simp only [hend, hio]

/-- a program that captures goes on behind every line, and passes on what that has written -/
theorem runLine_captured (ho : o.captures = true)
    (hr : (Shell.lasting { backend := b }).run line (some { stdin := o.stdin.map Text.bytes }) p.host = r) :
    runLine b o p line = { p with status := r.ending.code, host := r.host } ∨
      ∃ io, runLine b o p line = passOn o io { p with status := r.ending.code, host := r.host } := by
  obtain ⟨result, hend⟩ := Shell.run_lasting { backend := b } line (some { stdin := o.stdin.map Text.bytes }) p.host
  rw [hr] at hend
  simp only [runLine, hgoes, ho, Bool.false_eq_true, if_false, if_true, Bool.not_true]
  rw [show ({ backend := b, settings := { exitTerminates := false } } : Shell σ).run line
    (some { stdin := o.stdin.map Text.bytes }) p.host = r from hr]
  simp only [hend]
  cases r.io with
  | none => exact .inl rfl
  | some io => exact .inr ⟨io, rfl⟩

end

/-! ### both programs -/

/-- two programs side by side, of which only the second captures: the same has been done in both, and the second goes on
even if `exit` has ended the first -/
structure Alongside (like : Likeness σ) (p p' : Progress σ) : Prop where
  status : p'.status = p.status
  deeds : p'.host.deeds = p.host.deeds
  lasts : p'.ended = false
  alike : p.ended = false → p.host.ServedAlike p'.host ∧ like.launching {} p.host.here p'.host.here

theorem deeds_write (p : Progress σ) (out : Output) (bytes : Bytes) :
    (p.write out bytes).host.deeds = p.host.deeds := by
  obtain ⟨world, writes, hwrite⟩ := p.host.write_frame out bytes
  rw [Progress.write, hwrite]
  rfl

theorem deeds_passOn (o : Options) (io : Streams) (p : Progress σ) : (passOn o io p).host.deeds = p.host.deeds := by
  unfold passOn
  split
  · rfl
  · rw [deeds_write, deeds_write]

theorem ended_passOn (o : Options) (io : Streams) (p : Progress σ) : (passOn o io p).ended = p.ended := by
  unfold passOn
  split <;> rfl

/-- what the second program writes to its own streams keeps the programs side by side -/
theorem Alongside.write (hb : b.Indifferent like) {p p' : Progress σ} (h : Alongside like p p') (out : Output)
    (bytes : Bytes) : Alongside like p (p'.write out bytes) := by
  refine ⟨h.status, (deeds_write p' out bytes).trans h.deeds, h.lasts, fun hgoes => ?_⟩
  obtain ⟨hserved, halike⟩ := h.alike hgoes
  refine ⟨hserved.write_second out bytes, ?_⟩
  rcases p'.host.write_here out bytes with hhere | hhere
  · rw [Progress.write, hhere]
    exact halike
  · rw [Progress.write, hhere]
    exact hb.passedOn out bytes halike

/-- passing on what a line has written keeps the programs side by side -/
theorem Alongside.passOn (hb : b.Indifferent like) {p p' : Progress σ} (h : Alongside like p p') (o : Options)
    (io : Streams) : Alongside like p (passOn o io p') := by
  unfold CommandLine.passOn
  split
  · exact ⟨h.status, h.deeds, h.lasts, h.alike⟩
  · exact (h.write hb .stdout _).write hb .stderr _

/-- once `exit` has ended the program no line is run -/
theorem foldl_ended {p : Progress σ} (hp : p.ended = true) (lines : List String) : lines.foldl (runLine b o) p = p := by
  induction lines with
  | nil => rfl
  | cons line lines ih =>
    have hstays : runLine b o p line = p := by simp only [runLine, hp, if_true]
    rw [List.foldl_cons, hstays, ih]

/-- a program that captures does more and more, and does not end before its lines do -/
theorem foldl_captured (ho : o.captures = true) (lines : List String) {p : Progress σ} (hgoes : p.ended = false) :
    (lines.foldl (runLine b o) p).ended = false ∧
      ∃ more, (lines.foldl (runLine b o) p).host.deeds = p.host.deeds ++ more := by
  induction lines generalizing p with
  | nil => exact ⟨hgoes, [], (List.append_nil _).symm⟩
  | cons line lines ih =>
    obtain ⟨new, hnew⟩ := Shell.run_deeds { backend := b } line (some { stdin := o.stdin.map Text.bytes }) p.host
    have hline : (runLine b o p line).ended = false ∧ (runLine b o p line).host.deeds = p.host.deeds ++ new := by
      rcases runLine_captured hgoes ho (Eq.refl (Shell.run _ line _ _)) with h | ⟨io, h⟩
      · rw [h]
        exact ⟨hgoes, hnew⟩
      · rw [h, ended_passOn, deeds_passOn]
        exact ⟨hgoes, hnew⟩
    obtain ⟨hend, more, hmore⟩ := ih hline.1
    refine ⟨hend, new ++ more, ?_⟩
    rw [List.foldl_cons, hmore, hline.2, List.append_assoc]

section

variable (hb : b.Indifferent like) (ho : o.captures = false) (ho' : o'.captures = true) (hstdin : o'.stdin = none)

include hb ho ho' hstdin

/-- One line more keeps the programs side by side. -/
theorem runLine_alongside {p p' : Progress σ} (h : Alongside like p p') (hgoes : p.ended = false) (line : String) :
    Alongside like (runLine b o p line) (runLine b o' p' line) := by
  obtain ⟨hserved, hstart⟩ := h.alike hgoes
  obtain ⟨hcode, hdeeds, halike⟩ := Shell.run_beside { backend := b } hb line h.deeds hserved hstart
    (show ({ stdin := o'.stdin.map Text.bytes } : Streams).stdin = none by rw [hstdin]; rfl)
  generalize hr : Shell.run { backend := b } line none p.host = r at hcode hdeeds halike
  generalize hr' : (Shell.lasting { backend := b }).run line _ p'.host = r' at hcode hdeeds halike
  have hline : Alongside like (runLine b o p line) { p' with status := r'.ending.code, host := r'.host } := by
    rcases halike with ⟨n, hend⟩ | ⟨⟨result, hend⟩, hio, hserved', halike⟩
    · rw [runLine_terminated hgoes ho hr hend]
      exact ⟨hcode, hdeeds, h.lasts, nofun⟩
    · rw [runLine_returned hgoes ho hr hend hio]
      exact ⟨hcode, hdeeds, h.lasts, fun _ => ⟨hserved', halike⟩⟩
  rcases runLine_captured h.lasts ho' hr' with h' | ⟨io, h'⟩
  · rw [h']
    exact hline
  · rw [h']
    exact hline.passOn hb o' io

/-- Lines keep the programs side by side, up to the one on which the first has ended. -/
theorem foldl_alongside (lines : List String) {p p' : Progress σ} (h : Alongside like p p') (hgoes : p.ended = false) :
    ∃ ran, ran <+: lines ∧ (ran = lines ∨ (ran.foldl (runLine b o) p).ended = true) ∧
      lines.foldl (runLine b o) p = ran.foldl (runLine b o) p ∧
      Alongside like (ran.foldl (runLine b o) p) (ran.foldl (runLine b o') p') := by
  induction lines generalizing p p' with
  | nil => exact ⟨[], List.prefix_rfl, .inl rfl, rfl, h⟩
  | cons line lines ih =>
    have hline := runLine_alongside hb ho ho' hstdin h hgoes line
    cases hended : (runLine b o p line).ended with
    | true =>
      refine ⟨[line], ⟨lines, rfl⟩, .inr hended, ?_, hline⟩
      rw [List.foldl_cons, foldl_ended hended]
      rfl
    | false =>
      obtain ⟨ran, hran, hall, hplain, halong⟩ := ih hline hended
      refine ⟨line :: ran, List.cons_prefix_cons.2 ⟨rfl, hran⟩, ?_, hplain, halong⟩
      exact hall.imp (congrArg (line :: ·)) id

end

/-- without capturing there is no report behind the lines -/
theorem runLines_uncaptured (ho : o.captures = false) (lines : List String) (h : Host σ) :
    runLines b o lines h = lines.foldl (runLine b o) { host := h } := by
  have hjson : o.json = false := by
    simp only [Options.captures, Bool.or_eq_false_iff] at ho
    exact ho.1.2
  simp only [runLines, hjson, Bool.false_and, Bool.false_eq_true, if_false]

/-- the report is no deed, and has no status -/
theorem runLines_report (b : Backend σ) (o : Options) (lines : List String) (h : Host σ) :
    (runLines b o lines h).host.deeds = (lines.foldl (runLine b o) { host := h }).host.deeds ∧
      (runLines b o lines h).status = (lines.foldl (runLine b o) { host := h }).status := by
  simp only [runLines]
  split
  · exact ⟨deeds_write _ _ _, rfl⟩
  · exact ⟨rfl, rfl⟩

/-- **Capturing changes what is run only behind `exit`.** Programs do not tell whether they are captured, pipes are
made and sessions drained, output is accepted alike, and what the program writes to its own streams is. Then there is
a front part of the lines behind which the program that does not capture runs nothing more, as it has come to the last
line or `exit` has ended it; and on that front part the one that captures runs the same programs and builtins, and has
the same status. With the rest of the lines it goes on. -/
theorem runLines_capture (hb : b.Indifferent like) (ho : o.captures = false) (ho' : o'.captures = true)
    (hstdin : o'.stdin = none) (lines : List String) (h : Host σ) (hwrites : ∀ r ∈ h.writes, r = none)
    (hstart : like.launching {} h.here h.here) :
    ∃ ran, ran <+: lines ∧ (ran = lines ∨ (runLines b o ran h).ended = true) ∧
      runLines b o lines h = runLines b o ran h ∧
      (runLines b o' ran h).host.deeds = (runLines b o lines h).host.deeds ∧
      exitStatus (runLines b o' ran h).status = exitStatus (runLines b o lines h).status ∧
      ∃ more, (runLines b o' lines h).host.deeds = (runLines b o lines h).host.deeds ++ more := by
  have halong : Alongside like { host := h } { host := h } :=
    ⟨rfl, rfl, rfl, fun _ => ⟨⟨rfl, hwrites⟩, hstart⟩⟩
  obtain ⟨ran, ⟨rest, rfl⟩, hall, hsame, hran⟩ := foldl_alongside hb ho ho' hstdin lines halong rfl
  obtain ⟨-, more, hmore⟩ := foldl_captured (b := b) ho' rest hran.lasts
  obtain ⟨hdeeds, hstatus⟩ := runLines_report b o' ran h
  refine ⟨ran, List.prefix_append ran rest, ?_⟩
  rw [runLines_uncaptured ho, runLines_uncaptured ho, hsame, hdeeds, hstatus, hran.deeds, hran.status]
  refine ⟨hall, rfl, rfl, rfl, more, ?_⟩
  rw [(runLines_report b o' (ran ++ rest) h).1, List.foldl_append, hmore, hran.deeds]

/-- a host without files, on which these programs are scripts -/
def scripted (scripts : List (String × Scripted.Script)) : Host Scripted.State := { world := {}, state := { scripts } }

/-- two programs, of which the second copies its input -/
def copying : Host Scripted.State := scripted [("a", { out := [104, 105] }), ("b", { copies := true, status := 4 })]

/-- Three lines with a pipe, two builtins, of which one fails, and a program of the background, and none of them ends
the program: with capturing all of it is the same. -/
theorem runLines_capture_copying :
    ({} : Options).captures = false ∧ ({ capture := true } : Options).captures = true ∧
    (∀ r ∈ copying.writes, r = none) ∧ Scripted.likeness.launching {} copying.here copying.here ∧
    (runLines Scripted.backend { capture := true } ["a|b;pwd", "cd c d", "a&b"] copying).host.deeds =
      [.asked ["a"] false none, .asked ["b"] false none, .ran .pwd [], .ran .cd ["c", "d"], .asked ["a"] true none,
        .asked ["b"] false none] ∧
    exitStatus (runLines Scripted.backend { capture := true } ["a|b;pwd", "cd c d", "a&b"] copying).status = 4 := by
  have hplainly : ({} : Options).captures = false := rfl
  have hcaptures : ({ capture := true } : Options).captures = true := rfl
  have hstart : Scripted.likeness.launching {} copying.here copying.here :=
    ⟨⟨rfl, rfl, rfl, rfl, rfl, rfl, rfl⟩, nofun, nofun⟩
  have hplain : (runLines Scripted.backend {} ["a|b;pwd", "cd c d", "a&b"] copying).ended = false ∧
      (runLines Scripted.backend {} ["a|b;pwd", "cd c d", "a&b"] copying).host.deeds =
        [.asked ["a"] false none, .asked ["b"] false none, .ran .pwd [], .ran .cd ["c", "d"], .asked ["a"] true none,
          .asked ["b"] false none] ∧
      exitStatus (runLines Scripted.backend {} ["a|b;pwd", "cd c d", "a&b"] copying).status = 4 := by
    decide +kernel
  obtain ⟨hlasts, hdone, hstatus⟩ := hplain
  obtain ⟨ran, -, hall, hsame, hdeeds, hexit, -⟩ := runLines_capture Scripted.indifferent hplainly hcaptures rfl
    ["a|b;pwd", "cd c d", "a&b"] copying nofun hstart
  rw [← hsame, hlasts] at hall
  obtain rfl := hall.resolve_right Bool.false_ne_true
  exact ⟨hplainly, hcaptures, nofun, hstart, hdeeds.trans hdone, hexit.trans hstatus⟩

/-- Capturing goes on behind `exit 3`, and then the status is that of the next line. -/
theorem runLines_capture_exit :
    exitStatus (runLines Scripted.backend {} ["exit 3", "true"] (scripted [])).status = 3 ∧
    exitStatus (runLines Scripted.backend { capture := true } ["exit 3", "true"] (scripted [])).status = 0 ∧
    (runLines Scripted.backend {} ["exit 3", "true"] (scripted [])).host.deeds = [.ran .exit ["3"]] ∧
    (runLines Scripted.backend { capture := true } ["exit 3", "true"] (scripted [])).host.deeds =
      [.ran .exit ["3"], .asked ["true"] false none] := by
  decide +kernel

end CommandLine

end LineShell
