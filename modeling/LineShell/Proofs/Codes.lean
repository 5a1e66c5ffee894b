/-
Statuses and codes are kept apart.

A line answers with one number, which is a status or the negative code of a failure. A line that cannot be read has a
code of its own and nothing is done for it (`Refused`). Any other line answers with the code of the failure of the
last statement that was run, or with a status: over a backend to depend on no status is negative, whatever it comes
from.

- `Line.blank_iff`: the lines without a command are those of blanks.
- `Line.unread_cases` / `Line.read_cases`: which lines cannot be read, and what the others are.
- `Shell.run_codes`: what the number says of the line.
-/
import LineShell.Proofs.Answers
import LineShell.Proofs.Interchange
import LineShell.Proofs.Messages
import LineShell.Proofs.Statements

namespace LineShell

/-! ## lines -/

namespace Line

/-- the line holds nothing but blanks -/
def Blank (line : String) : Prop := ∀ c ∈ line.toList, isBlank c = true

/-- a line that is read into tokens is blank exactly if it holds nothing but its end -/
theorem blank_iff {line : String} {ts : List Token} (h : tokenize line = .ok ts) :
    ts.all (·.kind == .endOfLine) = true ↔ Blank line := by
  obtain ⟨ps, hps, rfl⟩ := splits_of_tokenize h
  have hline : line.toList = ps.flatMap Piece.chars := by simpa using hps.eq_append
  rw [Blank, hline, ← placed_eq_nil hps.wellFormed 0, listed, List.all_append, Bool.and_eq_true]
  constructor
  · rintro ⟨hall, -⟩
    refine List.eq_nil_iff_forall_not_mem.2 fun t ht => kind_ne_end_of_placed hps.wellFormed ht ?_
    simpa using List.all_eq_true.1 hall t ht
  · intro hnil
    rw [hnil]
    exact ⟨rfl, rfl⟩

theorem command_of_blank {line : String} (hsize : line.utf8ByteSize ≤ maxLineSize) (hblank : Blank line) :
    command line = .ok none := by
  have hsplits : Splits [] line.toList (line.toList.map .blank) := by
    have hchars : (line.toList.map Piece.blank).flatMap Piece.chars = line.toList := by
      simp [List.flatMap_map, Piece.chars]
    have hpieces : ∀ p ∈ line.toList.map Piece.blank, p.WellFormed ∧ ∀ cs, p.EndsBefore cs := by
      intro p hp
      obtain ⟨c, hc, rfl⟩ := List.mem_map.1 hp
      exact ⟨hblank c hc, fun _ => trivial⟩
    have hsplits := Splits.of_wellFormed hpieces
    rwa [hchars] at hsplits
  have hts := tokenize_of_splits hsplits
  unfold command
  rw [if_neg (Nat.not_lt.2 hsize), hts]
  simp only
  rw [if_pos ((blank_iff hts).2 hblank)]

/-- a line that is too long, or read into tokens and not blank, but does not parse -/
def Misspelt (line : String) : Prop :=
  maxLineSize < line.utf8ByteSize ∨ ¬ Blank line ∧ ∃ ts e, tokenize line = .ok ts ∧ parse ts = .error e

/-- a line that is not too long, but is not read into tokens -/
def Illegible (line : String) : Prop := line.utf8ByteSize ≤ maxLineSize ∧ ∃ e, tokenize line = .error e

theorem Illegible.not_misspelt {line : String} (h : Illegible line) : ¬ Misspelt line := by
  obtain ⟨hsize, e, he⟩ := h
  rintro (hlong | ⟨-, ts, -, hts, -⟩)
  · omega
  · rw [he] at hts
    cases hts

/-- which lines cannot be read, and with which code -/
theorem unread_cases {line : String} {f : Failure} (h : command line = .error f) :
    f.isExit = false ∧ (f.code = -2 ∧ Illegible line ∨ f.code = -3 ∧ Misspelt line) := by
  unfold command at h
  split at h
  · rename_i hlong
    cases h
    exact ⟨rfl, .inr ⟨rfl, .inl hlong⟩⟩
  · rename_i hshort
    split at h
    · rename_i e he
      cases h
      exact ⟨rfl, .inl ⟨rfl, Nat.le_of_not_lt hshort, e, he⟩⟩
    · rename_i ts hts
      split at h
      · cases h
      · rename_i hblank
        split at h
        · rename_i e he
          cases h
          exact ⟨rfl, .inr ⟨rfl, .inr ⟨fun hb => hblank ((blank_iff hts).2 hb), ts, e, hts, he⟩⟩⟩
        · cases h

/-- which lines can be read: the blank ones, and those that parse -/
theorem read_cases {line : String} {c : Option Tree} (h : command line = .ok c) :
    line.utf8ByteSize ≤ maxLineSize ∧ ∃ ts, tokenize line = .ok ts ∧
      (Blank line ∧ c = none ∨ ¬ Blank line ∧ ∃ t, c = some t ∧ parse ts = .ok t) := by
  unfold command at h
  split at h
  · cases h
  · rename_i hshort
    split at h
    · cases h
    · rename_i ts hts
      refine ⟨Nat.le_of_not_lt hshort, ts, hts, ?_⟩
      split at h
      · rename_i hblank
        exact .inl ⟨(blank_iff hts).1 hblank, (Except.ok.inj h).symm⟩
      · rename_i hblank
        split at h
        · cases h
        · rename_i t ht
          exact .inr ⟨fun hb => hblank ((blank_iff hts).2 hb), t, (Except.ok.inj h).symm, ht⟩

theorem not_illegible_of_read {line : String} {c : Option Tree} (h : command line = .ok c) : ¬ Illegible line := by
  obtain ⟨-, ts, hts, -⟩ := read_cases h
  rintro ⟨-, e, he⟩
  rw [hts] at he
  cases he

theorem not_misspelt_of_read {line : String} {c : Option Tree} (h : command line = .ok c) : ¬ Misspelt line := by
  obtain ⟨hsize, ts, hts, hcases⟩ := read_cases h
  rintro (hlong | ⟨hblank, ts', e, hts', he⟩)
  · omega
  · rcases hcases with ⟨hblank', -⟩ | ⟨-, t, -, ht⟩
    · exact hblank hblank'
    · rw [hts] at hts'
      rw [← Except.ok.inj hts', ht] at he
      cases he

end Line

/-! ## steps -/

/-- the failure of a statement is its result, unless it asks the shell to stop -/
theorem Step.failure?_eq_some {σ : Type} {st : Step σ} {f : Failure} :
    st.failure? = some f ↔ st.result = .error f ∧ f.isExit = false := by
  unfold Step.failure? Step.result
  cases st.ran with
  | ok status => simp [Except.map]
  | error f' =>
    cases hexit : f'.isExit with
    | true =>
      simp only [hexit, if_true, Except.map, reduceCtorEq, false_iff, Except.error.injEq, not_and]
      rintro rfl
      simp [hexit]
    | false =>
      simp only [hexit, Bool.false_eq_true, if_false, Except.map, Option.some.injEq, Except.error.injEq]
      constructor
      · rintro rfl
        exact ⟨rfl, hexit⟩
      · rintro ⟨rfl, -⟩
        rfl

namespace Shell

variable {σ : Type} (sh : Shell σ)

/-- the statements of a line that are run, in turn; there are none if the line is blank or cannot be read -/
def steps (line : String) (io : Option Streams) (h : Host σ) : List (Step σ) :=
  match Line.command line with
  | .ok (some t) =>
    Evaluation.steps ⟨sh.backend, line, sh.settings⟩ {} t.statements { host := h, io := io.map (·.reset) }
  | _ => []

/-- the failure of the last statement that is run, if it has one that does not ask the shell to stop -/
def lastFailure? (line : String) (io : Option Streams) (h : Host σ) : Option Failure :=
  (sh.steps line io h).getLast?.bind Step.failure?

/-- a line has been refused: one line was told on the error stream, captured or the host's, and nothing else was done -/
structure Refused (io : Option Streams) (h : Host σ) (text : String) (r : Run σ) : Prop where
  unbroken : Unbroken text
  state : r.host.state = h.state
  events : ∃ f, r.host.events = h.events ++ [.reported f]
  uncaptured : io = none →
    r.io = none ∧ r.host.world = (h.write .stderr (Text.bytes s!"embsh: {text}\n")).2.world
  captured : ∀ a, io = some a → r.host.world = h.world ∧ ∃ b, r.io = some b ∧
    (a.channel .stdout).Received (b.channel .stdout) [] ∧
    (a.channel .stderr).Received (b.channel .stderr) (Text.bytes s!"embsh: {text}\n")

/-- the number that a line answers with is its status or the code of its failure, whether `exit` ends the host or not -/
theorem code_ending (r : Except Failure Int) :
    (sh.ending r).code = match r with
      | .ok status => status
      | .error f => f.code := by
  unfold ending
  split
  · split <;> rfl
  · rename_i hne
    cases r <;> rfl

theorem run_refused {line : String} {f : Failure} (hf : Line.command line = .error f) (io : Option Streams)
    (h : Host σ) : (sh.run line io h).ending = .returned (.error f) ∧ Refused io h f.message (sh.run line io h) := by
  unfold run
  rw [hf]
  refine ⟨rfl, Line.unbroken_of_command hf, ?_, ⟨f, Engine.events_report _ f⟩, ?_, ?_⟩
  · obtain ⟨io', world, writes, hsend⟩ := Engine.send_frame { host := h.note (.reported f), io := io.map (·.reset) }
      .stderr (Text.bytes f.report)
    exact congrArg (fun e => e.host.state) hsend
  · rintro rfl
    refine ⟨rfl, ?_⟩
    have htold := Host.write_note h (.reported f) .stderr (Text.bytes f.report)
    exact congrArg (fun x => x.2.world) htold
  · rintro a rfl
    refine ⟨rfl, _, rfl, ?_, ?_⟩
    · exact Streams.received a [(.stderr, Text.bytes s!"embsh: {f.message}\n")] .stdout
    · have hreceived := Streams.received a [(.stderr, Text.bytes s!"embsh: {f.message}\n")] .stderr
      rwa [flatten_sentTo_single] at hreceived

/-- a line that is read and is not blank comes to the last of its steps -/
theorem run_read {line : String} {t : Tree} (ht : Line.command line = .ok (some t)) (io : Option Streams) (h : Host σ) :
    ∃ st, (sh.steps line io h).getLast? = some st ∧
      Evaluation.execute ⟨sh.backend, line, sh.settings⟩ t {} { host := h, io := io.map (·.reset) } =
        (st.result, st.after) ∧
      sh.run line io h = ⟨sh.ending st.result, st.after.io, st.after.host⟩ := by
  obtain ⟨-, ts, -, ⟨-, hnone⟩ | ⟨-, t', ht', hparse⟩⟩ := Line.read_cases ht
  · cases hnone
  · obtain rfl : t = t' := Option.some.inj ht'
    have hline : t.IsLine := (Line.parse_eq_ok_iff.1 hparse).1.isLine
    have hexecute := Evaluation.execute_eq_concluded ⟨sh.backend, line, sh.settings⟩ hline {}
      { host := h, io := io.map (·.reset) }
    have hne : sh.steps line io h ≠ [] := by
      obtain ⟨s, rest, hstatements⟩ := List.exists_cons_of_ne_nil hline.statements_ne_nil
      simp [steps, ht, hstatements, Evaluation.steps]
    obtain ⟨st, hlast⟩ : ∃ st, (sh.steps line io h).getLast? = some st := ⟨_, List.getLast?_eq_some_getLast hne⟩
    refine ⟨st, hlast, ?_⟩
    simp only [steps, ht] at hlast
    rw [concluded, hlast] at hexecute
    refine ⟨hexecute, ?_⟩
    unfold run
    rw [ht]
    simp only [hexecute]

section

variable {fine : σ → Prop} {range : Int → Prop}

/-- what a line comes to over a backend to depend on: the backend stays fine, the number is a status of the range or the
negative code of a failure, and the host is only ended by `exit` -/
structure Answered (fine : σ → Prop) (range : Int → Prop) (h : Host σ) (r : Run σ) : Prop where
  state : fine r.host.state
  returned : ∀ status, r.ending = .returned (.ok status) → range status
  failed : ∀ f, r.ending = .returned (.error f) → f.code < 0
  terminated : ∀ status, r.ending = .terminated status →
    range status ∧ ∃ evs args, r.host.events = h.events ++ evs ∧ Event.ranBuiltin .exit args ∈ evs

/-- evaluating a line from its start answers well -/
theorem execute_answers (hb : sh.backend.Dependable fine range) (hrange : ∀ n, IsStatus n → range n) (line : String)
    (t : Tree) (io : Option Streams) {h : Host σ} (hs : fine h.state) :
    Answers fine range range ({ host := h, io := io.map (·.reset) } : Engine σ)
      (Evaluation.execute ⟨sh.backend, line, sh.settings⟩ t {} { host := h, io := io.map (·.reset) }) :=
  Evaluation.execute_answers hb hrange t {} ⟨hs, hrange 0 ⟨by decide, by decide⟩⟩

theorem ending_answers {e₀ : Engine σ} {x : Except Failure Int × Engine σ} (h : Answers fine range range e₀ x) :
    Answered fine range e₀.host ⟨sh.ending x.1, x.2.io, x.2.host⟩ := by
  obtain ⟨r, e⟩ := x
  have hresult := h.result
  cases r with
  | ok status => exact ⟨h.fine.state, by rintro _ ⟨⟩; exact hresult, nofun, nofun⟩
  | error f =>
    by_cases hexit : ∃ status, f = .exit status
    · obtain ⟨status, rfl⟩ := hexit
      unfold ending
      cases sh.settings.exitTerminates with
      | true =>
        refine ⟨h.fine.state, nofun, nofun, ?_⟩
        rintro _ ⟨⟩
        obtain ⟨evs, args, hlog, hran⟩ := h.stopped status rfl
        exact ⟨hresult, evs, args, hlog, hran⟩
      | false => exact ⟨h.fine.state, by rintro _ ⟨⟩; exact hresult, nofun, nofun⟩
    · have hgoes : f.isExit = false := by
        cases f with
        | exit status => exact absurd ⟨status, rfl⟩ hexit
        | _ => rfl
      have hending : sh.ending (.error f) = .returned (.error f) := by
        cases f with
        | exit status => exact absurd ⟨status, rfl⟩ hexit
        | _ => rfl
      simp only [hending]
      refine ⟨h.fine.state, nofun, ?_, nofun⟩
      rintro _ ⟨⟩
      have := Failure.OfEvaluation.code hresult hgoes
      omega

/-- what any line comes to -/
theorem run_answers (hb : sh.backend.Dependable fine range) (hrange : ∀ n, IsStatus n → range n) (line : String)
    (io : Option Streams) {h : Host σ} (hs : fine h.state) : Answered fine range h (sh.run line io h) := by
  cases hcommand : Line.command line with
  | error f =>
    obtain ⟨hending, hrefused⟩ := run_refused sh hcommand io h
    have hcode : f.code < 0 := by
      obtain ⟨-, ⟨hcode, -⟩ | ⟨hcode, -⟩⟩ := Line.unread_cases hcommand
      · omega
      · omega
    refine ⟨hrefused.state ▸ hs, ?_, ?_, ?_⟩
    · rw [hending]
      nofun
    · rw [hending]
      rintro _ ⟨⟩
      exact hcode
    · rw [hending]
      nofun
  | ok c =>
    unfold run
    rw [hcommand]
    cases c with
    | none => exact ⟨hs, by rintro _ ⟨⟩; exact hrange 0 ⟨by decide, by decide⟩, nofun, nofun⟩
    | some t =>
      have hanswers := execute_answers sh hb hrange line t io hs
      cases hx : Evaluation.execute ⟨sh.backend, line, sh.settings⟩ t {} { host := h, io := io.map (·.reset) } with
      | mk r e =>
        rw [hx] at hanswers
        simp only [hx]
        exact ending_answers sh hanswers

end

/-- where children have statuses of programs, a negative number is that of a failure -/
theorem Answered.code_neg_iff {fine : σ → Prop} {h : Host σ} {r : Run σ} (hr : Answered fine IsStatus h r) :
    r.ending.code < 0 ↔ ∃ f, r.ending = .returned (.error f) := by
  cases hending : r.ending with
  | returned result =>
    cases result with
    | ok status =>
      have hstatus := hr.returned status hending
      simp only [Ending.code, Ending.returned.injEq, reduceCtorEq, exists_false, iff_false]
      exact Int.not_lt.2 hstatus.1
    | error f => simpa [Ending.code] using hr.failed f hending
  | terminated status =>
    have hstatus := (hr.terminated status hending).1
    simp only [Ending.code, reduceCtorEq, exists_false, iff_false]
    exact Int.not_lt.2 hstatus.1

theorem run_blank (line : String) (io : Option Streams) (h : Host σ) (hsize : line.utf8ByteSize ≤ maxLineSize)
    (hblank : Line.Blank line) : (sh.run line io h).ending = .returned (.ok 0) := by
  unfold run
  rw [Line.command_of_blank hsize hblank]

/-- a line that is read answers with a status, or with the code that its last statement has failed with -/
theorem code_of_read {fine : σ → Prop} (hb : sh.backend.Dependable fine IsStatus) {line : String} {c : Option Tree}
    (hc : Line.command line = .ok c) (io : Option Streams) {h : Host σ} (hs : fine h.state) :
    sh.lastFailure? line io h = none ∧ IsStatus (sh.run line io h).ending.code ∨
      ∃ f, sh.lastFailure? line io h = some f ∧ (sh.run line io h).ending.code = f.code ∧
        (f.code = -1 ∨ f.code = -4 ∨ f.code = -5 ∨ f.code = -6) := by
  cases c with
  | none =>
    have hcode : (sh.run line io h).ending.code = 0 := by
      unfold run
      rw [hc]
      rfl
    exact .inl ⟨by simp [lastFailure?, steps, hc], by rw [hcode]; exact ⟨by decide, by decide⟩⟩
  | some t =>
    obtain ⟨st, hlast, hexecute, hrun⟩ := run_read sh hc io h
    have hanswers := execute_answers sh hb (fun n hn => hn) line t io hs
    rw [hexecute] at hanswers
    have hresult := hanswers.result
    rw [lastFailure?, hlast, Option.bind_some, hrun, code_ending]
    cases hfailure : st.failure? with
    | some f =>
      obtain ⟨hr, hexit⟩ := Step.failure?_eq_some.1 hfailure
      rw [hr] at hresult ⊢
      exact .inr ⟨f, rfl, rfl, Failure.OfEvaluation.code hresult hexit⟩
    | none =>
      refine .inl ⟨rfl, ?_⟩
      cases hr : st.result with
      | ok status =>
        rw [hr] at hresult
        exact hresult
      | error f =>
        rw [hr] at hresult
        cases f with
        | exit status => exact hresult
        | _ =>
          have := Step.failure?_eq_some.2 ⟨hr, rfl⟩
          rw [hfailure] at this
          cases this

/-- **Statuses and codes are kept apart.** Over a backend whose calls fail in ways of their own and whose children
have statuses of programs, the number that a line answers with tells what has happened. It is -2 or -3 exactly for the
lines that cannot be read, and nothing is done for them. It is another code exactly if the last statement that was run
has failed with that code. Otherwise it is a status, and 0 for a blank line; and a negative number is always that of a
failure. -/
theorem run_codes {fine : σ → Prop} (hb : sh.backend.Dependable fine IsStatus) (line : String) (io : Option Streams)
    {h : Host σ} (hs : fine h.state) :
    ((sh.run line io h).ending.code = -2 ↔ Line.Illegible line) ∧
    ((sh.run line io h).ending.code = -3 ↔ Line.Misspelt line) ∧
    (Line.Illegible line ∨ Line.Misspelt line → ∃ text, Refused io h text (sh.run line io h)) ∧
    (∀ k, k = -1 ∨ k = -4 ∨ k = -5 ∨ k = -6 → ((sh.run line io h).ending.code = k ↔
      ∃ f, sh.lastFailure? line io h = some f ∧ f.code = k)) ∧
    (IsStatus (sh.run line io h).ending.code ∨ (sh.run line io h).ending.code ∈ [-1, -2, -3, -4, -5, -6]) ∧
    (line.utf8ByteSize ≤ maxLineSize → Line.Blank line → (sh.run line io h).ending = .returned (.ok 0)) ∧
    ((sh.run line io h).ending.code < 0 ↔ ∃ f, (sh.run line io h).ending = .returned (.error f)) := by
  have hnegative := (run_answers sh hb (fun n hn => hn) line io hs).code_neg_iff
  have hblank := run_blank sh line io h
  cases hcommand : Line.command line with
  | error f =>
    obtain ⟨hending, hrefused⟩ := run_refused sh hcommand io h
    have hcode : (sh.run line io h).ending.code = f.code := by rw [hending]; rfl
    have hnone : ∀ k, ¬ ∃ f', sh.lastFailure? line io h = some f' ∧ f'.code = k := by
      simp [lastFailure?, steps, hcommand]
    obtain ⟨-, ⟨hk, hline⟩ | ⟨hk, hline⟩⟩ := Line.unread_cases hcommand
    · rw [hk] at hcode
      exact ⟨iff_of_true hcode hline, iff_of_false (by omega) hline.not_misspelt, fun _ => ⟨_, hrefused⟩,
        fun k _ => iff_of_false (by omega) (hnone k), .inr (by simp [hcode]), hblank, hnegative⟩
    · rw [hk] at hcode
      exact ⟨iff_of_false (by omega) fun hline' => hline'.not_misspelt hline, iff_of_true hcode hline,
        fun _ => ⟨_, hrefused⟩, fun k _ => iff_of_false (by omega) (hnone k), .inr (by simp [hcode]), hblank, hnegative⟩
  | ok c =>
    have hread := Line.not_illegible_of_read hcommand
    have hspelt := Line.not_misspelt_of_read hcommand
    have hunread : Line.Illegible line ∨ Line.Misspelt line → ∃ text, Refused io h text (sh.run line io h) :=
      fun hline => (hline.elim hread hspelt).elim
    rcases code_of_read sh hb hcommand io hs with ⟨hnone, hstatus⟩ | ⟨f, hf, hcode, hk⟩
    · have hpositive := hstatus.1
      refine ⟨iff_of_false (by omega) hread, iff_of_false (by omega) hspelt, hunread,
        fun k hk => iff_of_false (by omega) ?_, .inl hstatus, hblank, hnegative⟩
      rintro ⟨f, hf, -⟩
      rw [hnone] at hf
      cases hf
    · refine ⟨iff_of_false (by omega) hread, iff_of_false (by omega) hspelt, hunread, fun k _ => ?_,
        .inr (by simp only [List.mem_cons]; omega), hblank, hnegative⟩
      rw [hcode, hf]
      exact ⟨fun h => ⟨f, rfl, h⟩, fun ⟨f', hf', h⟩ => Option.some.inj hf' ▸ h⟩

end Shell

/-! ## scripts -/

namespace Scripted

/-- a script with a status of the range, and with failures of a backend -/
structure Script.Fine (range : Int → Prop) (s : Script) : Prop where
  status : range s.status
  spawnFault : ∀ f, s.spawnFault = some f → f.OfBackend
  waitFault : ∀ f, s.waitFault = some f → f.OfBackend

/-- all scripts are fine, and so are the failures of calls -/
structure State.Fine (range : Int → Prop) (s : State) : Prop where
  scripts : ∀ p ∈ s.scripts, p.2.Fine range
  started : ∀ p ∈ s.started, p.2.Fine range
  pipe : ∀ r, s.pipeRefusal = some r → r.failure.OfBackend
  drain : ∀ r, s.drainRefusal = some r → r.failure.OfBackend

variable {range : Int → Prop}

/-- a script that does not fail is fine if its status is -/
theorem fine_of_status {s : Script} (h : range s.status) (hspawn : s.spawnFault = none) (hwait : s.waitFault = none) :
    s.Fine range where
  status := h
  spawnFault f hf := by
    rw [hspawn] at hf
    cases hf
  waitFault f hf := by
    rw [hwait] at hf
    cases hf

/-- a script that is looked up is one of the list, or the one that does nothing -/
theorem fine_lookup {κ : Type} [BEq κ] [LawfulBEq κ] (hzero : range 0) {scripts : List (κ × Script)}
    (h : ∀ p ∈ scripts, p.2.Fine range) (k : κ) : ((scripts.lookup k).getD {}).Fine range := by
  cases hl : scripts.lookup k with
  | none => exact fine_of_status hzero rfl rfl
  | some s =>
    obtain ⟨front, rest, hscripts, -⟩ := List.lookup_eq_some_iff.1 hl
    exact h (k, s) (by simp [hscripts])

theorem ofBackend_of_refused {r : Option Refusal} (h : ∀ x, r = some x → x.failure.OfBackend) {turn : Nat} {f : Failure}
    (hf : refused r turn = some f) : f.OfBackend := by
  obtain ⟨x, hx, rfl⟩ := Option.map_eq_some_iff.1 hf
  exact h x (Option.filter_eq_some_iff.1 hx).1

/-- a state in which nothing has happened yet is fine if its scripts are -/
theorem fine_of_scripts {scripts : List (String × Script)} (h : ∀ p ∈ scripts, p.2.Fine range) :
    State.Fine range { scripts } where
  scripts := h
  started := List.forall_mem_nil _
  pipe _ h := nomatch h
  drain _ h := nomatch h

/-- fine scripts make a backend to depend on -/
theorem dependable (hzero : range 0) : backend.Dependable (State.Fine range) range where
  pipe {s} w hs := by
    simp only [backend, pipe]
    split
    · rename_i f hf
      exact ⟨ofBackend_of_refused hs.pipe hf, hs.scripts, hs.started, hs.pipe, hs.drain⟩
    · exact ⟨trivial, hs.scripts, hs.started, hs.pipe, hs.drain⟩
  spawn {s} r w hs := by
    have hscript : (s.script r.program).Fine range := fine_lookup hzero hs.scripts r.program
    simp only [backend, spawn]
    split
    · rename_i f hf
      exact ⟨hscript.spawnFault f hf, hs⟩
    · exact ⟨trivial, hs.scripts, List.forall_mem_cons.2 ⟨hscript, hs.started⟩, hs.pipe, hs.drain⟩
  drain {s} ends payload w hs := by
    simp only [backend, drain]
    split
    · rename_i f hf
      exact ⟨ofBackend_of_refused hs.drain hf, hs.scripts, hs.started, hs.pipe, hs.drain⟩
    · exact ⟨trivial, hs.scripts, hs.started, hs.pipe, hs.drain⟩
  wait {s} pid w hs := by
    have hscript : ((s.started.lookup pid).getD {}).Fine range := fine_lookup hzero hs.started pid
    simp only [backend, wait, runQueue]
    refine ⟨?_, hs.scripts, hs.started, hs.pipe, hs.drain⟩
    split
    · rename_i f hf
      exact hscript.waitFault f hf
    · exact hscript.status
  detach {s} pid w hs := ⟨hs.scripts, hs.started, hs.pipe, hs.drain⟩

end Scripted

namespace Shell

/-- On the line `a;b`, where `a` runs and `b` cannot be started, the number is the code of the failure of `b`, which
is none of a line that cannot be read. -/
theorem run_codes_unstarted :
    writing.2.state.Fine IsStatus ∧
    (∃ f, writing.1.lastFailure? "a;b" (some {}) writing.2 = some f ∧ f.code = -5) ∧
    ¬ Line.Illegible "a;b" ∧ ¬ Line.Misspelt "a;b" := by
  have hfine : writing.2.state.Fine IsStatus := by
    refine Scripted.fine_of_scripts ?_
    simp only [List.forall_mem_cons]
    refine ⟨Scripted.fine_of_status ⟨by decide, by decide⟩ rfl rfl, ⟨⟨by decide, by decide⟩, ?_, ?_⟩,
      List.forall_mem_nil _⟩
    · rintro _ ⟨⟩
      trivial
    · rintro _ ⟨⟩
  have hcode : (writing.1.run "a;b" (some {}) writing.2).ending.code = -5 := by decide +kernel
  obtain ⟨hlex, hparse, -, hlast, -⟩ :=
    run_codes writing.1 (Scripted.dependable ⟨by decide, by decide⟩) "a;b" (some {}) hfine
  refine ⟨hfine, (hlast (-5) (by decide)).1 hcode, fun h => ?_, fun h => ?_⟩
  · exact absurd ((hlex.2 h).symm.trans hcode) (by decide)
  · exact absurd ((hparse.2 h).symm.trans hcode) (by decide)

end Shell

end LineShell
