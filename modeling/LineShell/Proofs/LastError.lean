/-
The message of a call of foreign code.

Every call answers with a number and leaves a message or none. `Abi.Told` says which of the two belong together: a
command that is missing or is no text has a fixed wording, a line that ends in a failure has that of the failure, and
anything else has none. What is told depends on the call alone, so no message of an earlier call is left over.

- `Abi.interpret_agrees`: over any backend to depend on, that is one whose children never have a negative status and
  which fails as a backend does, a call leaves a message exactly if its number is negative, whatever was called
  before; and then it is the one that belongs to the call.
- `Local.dependable`: children that run on the machine make such a backend.
-/
import LineShell.Abi
import LineShell.Backend.Local
import LineShell.Proofs.Codes

namespace LineShell

/-! ## children of the machine -/

namespace Reaper

/-- no child has ended with a negative status -/
def Fine (r : Reaper) : Prop := ∀ c ∈ r.children, ∀ n, c.2 = .exited n → 0 ≤ n

theorem Fine.ask {r : Reaper} (h : r.Fine) (pids : List Pid) : (r.ask pids).Fine := by
  intro c hc n hn
  obtain ⟨⟨p, l⟩, hmem, rfl⟩ := List.mem_map.1 hc
  cases l with
  | exited m =>
    simp only at hn
    split at hn
    · cases hn
    · exact h _ hmem n hn
  | running => simp [Life.ask] at hn
  | reaped => simp [Life.ask] at hn

theorem Fine.spawn {r : Reaper} (h : r.Fine) (pid : Pid) : (r.spawn pid).Fine := by
  intro c hc n hn
  rcases List.mem_cons.1 hc with rfl | hc
  · cases hn
  · exact h.ask r.overflow c hc n hn

theorem Fine.exit {r : Reaper} (h : r.Fine) (pid : Pid) {status : Int} (hstatus : 0 ≤ status) :
    (r.exit pid status).Fine := by
  have hended : Fine { r with children := r.children.map fun c =>
      (c.1, if c.1 = pid ∧ c.2 = Life.running then .exited status else c.2) } := by
    intro c hc n hn
    obtain ⟨⟨p, l⟩, hmem, rfl⟩ := List.mem_map.1 hc
    simp only at hn
    split at hn
    · exact Life.exited.inj hn ▸ hstatus
    · exact h _ hmem n hn
  unfold Reaper.exit
  simp only
  split
  · exact hended.ask _
  · exact hended

theorem Fine.detach {r : Reaper} (h : r.Fine) (pid : Pid) : (r.detach pid).Fine := by
  have hregistered : ((({ r with watching := true } : Reaper).register pid)).Fine := by
    unfold register
    split
    · exact h
    · exact h
  exact hregistered.ask _

/-- the status of a child that is waited for is not negative -/
theorem Fine.wait {r : Reaper} (h : r.Fine) (pid : Pid) :
    (r.wait pid).2.Fine ∧ ∀ n, (r.wait pid).1 = .status n → 0 ≤ n := by
  unfold Reaper.wait
  split
  · exact ⟨h, nofun⟩
  · rename_i n hlife
    refine ⟨h.ask _, ?_⟩
    rintro _ ⟨⟩
    unfold life at hlife
    cases hl : r.children.lookup pid with
    | none =>
      rw [hl] at hlife
      cases hlife
    | some l =>
      rw [hl] at hlife
      obtain ⟨front, rest, hchildren, -⟩ := List.lookup_eq_some_iff.1 hl
      exact h (pid, l) (by simp [hchildren]) n hlife
  · exact ⟨h, nofun⟩

end Reaper

namespace Carrying

theorem read_fails {c c' : Carrying} {o : Output} {r : Option Reading} {f : Failure} (h : c.read o r = (c', some f)) :
    f.OfBackend := by
  unfold read at h
  split at h
  · split at h <;> cases h
    trivial
  · cases h

theorem write_fails {c c' : Carrying} {r : Option Writing} {f : Failure} (h : c.write r = (c', some f)) :
    f.OfBackend := by
  unfold write at h
  split at h
  · cases h
  · split at h <;> cases h
    trivial

theorem poll_fails {c c' : Carrying} {p : Poll} {f : Failure} (h : c.poll p = (c', some f)) : f.OfBackend := by
  cases p with
  | interrupted => cases h
  | failed fault =>
    cases h
    trivial
  | ready out err input =>
    simp only [poll] at h
    split at h
    · rename_i hread
      cases h
      exact read_fails hread
    · split at h
      · rename_i hread
        cases h
        exact read_fails hread
      · exact write_fails h

/-- carrying streams fails as a backend does -/
theorem run_fails {c c' : Carrying} {schedule : List Poll} {f : Failure} (h : c.run schedule = (c', .failed f)) :
    f.OfBackend := by
  induction schedule generalizing c with
  | nil =>
    unfold run at h
    split at h <;> cases h
  | cons p rest ih =>
    unfold run at h
    split at h
    · cases h
    · simp only at h
      split at h
      · exact ih h
      · rename_i hpoll
        cases h
        exact poll_fails hpoll

end Carrying

namespace Local

/-- no child has ended with a negative status -/
def State.Fine (s : State) : Prop := s.reaper.Fine

theorem runAll_fine {s : State} (h : s.Fine) (cs : List Pending) (w : World) : (runAll cs s w).1.Fine := by
  induction cs generalizing s w with
  | nil => exact h
  | cons c cs ih =>
    have hchild : (runChild c s w).1.Fine := Reaper.Fine.exit h c.process.pid (Int.natCast_nonneg _)
    exact ih hchild _

theorem runQueue_fine {s : State} (h : s.Fine) (w : World) : (runQueue s w).1.Fine :=
  runAll_fine (s := { s with queue := [] }) h s.queue w

/-- children that run on the machine make a backend to depend on -/
theorem dependable : backend.Dependable State.Fine (0 ≤ ·) where
  pipe w hs := ⟨trivial, hs⟩
  spawn {s} r w hs := by
    simp only [backend, spawn]
    split
    · exact ⟨trivial, hs⟩
    · exact ⟨trivial, Reaper.Fine.spawn hs s.nextPid⟩
  drain {s} ends payload w hs := by
    simp only [backend, drain]
    refine ⟨?_, runQueue_fine hs _⟩
    unfold Carrying.drained
    simp only
    split
    · rename_i f hf
      exact Carrying.run_fails (Prod.ext rfl hf)
    · trivial
  wait {s} pid w hs := by
    have hwait := Reaper.Fine.wait (runQueue_fine hs w) pid
    simp only [backend, wait]
    split
    · rename_i n reaper heq
      rw [heq] at hwait
      exact ⟨hwait.2 n rfl, hwait.1⟩
    · rename_i waited reaper _ heq
      rw [heq] at hwait
      exact ⟨trivial, hwait.1⟩
  detach {s} pid w hs := by
    refine runAll_fine ?_ _ w
    exact Reaper.Fine.detach hs pid

end Local

/-! ## messages -/

namespace Abi

/-- a message that is handed out has no NUL -/
theorem nul_not_mem_handedOut (message : String) : '\x00' ∉ (handedOut message).toList := by
  intro hmem
  rw [handedOut, String.toList_map] at hmem
  obtain ⟨c, -, hc⟩ := List.mem_map.1 hmem
  split at hc
  · cases hc
  · rename_i hne
    exact hne hc

/-- a message without a NUL is handed out as it is -/
theorem handedOut_eq {message : String} (h : Unbroken message) : handedOut message = message := by
  have hmap : message.toList.map (fun c => if c = '\x00' then ' ' else c) = message.toList := by
    rw [List.map_congr_left (g := id), List.map_id]
    intro c hc
    rw [if_neg]
    · rfl
    · rintro rfl
      exact h.not_mem rfl hc
  rw [handedOut, ← String.toList_inj, String.toList_map, hmap]

variable {σ : Type}

/-! ### one call -/

/-- has `exit` run between two states? -/
def RunsExit (s s' : State σ) : Prop :=
  ∃ evs args, s'.host.events = s.host.events ++ evs ∧ Event.ranBuiltin .exit args ∈ evs

/-- the line of a command, run in the state `s` -/
def runOf (backend : Backend σ) (s : State σ) (line : String) : Run σ :=
  ({ backend } : Shell σ).run line (s.block.map Block.streams) s.host

/-- which number and which message belong to a command in the state `s` -/
inductive Told (backend : Backend σ) (s : State σ) : Option Bytes → Int → Option String → Prop
  | missing : Told backend s none (-1) (some "command is null")
  | illegible {bytes : Bytes} {f : Utf8.Fault} : Utf8.decode (bytes.takeWhile (· != 0)) = .error f →
      Told backend s (some bytes) (-1) (some s!"invalid UTF-8 in command: {f.message}")
  | failed {bytes : Bytes} {line : String} {f : Failure} : Utf8.decode (bytes.takeWhile (· != 0)) = .ok line →
      (runOf backend s line).ending = .returned (.error f) → f.code < 0 →
        Told backend s (some bytes) f.code (some (handedOut f.message))
  | succeeded {bytes : Bytes} {line : String} {status : Int} : Utf8.decode (bytes.takeWhile (· != 0)) = .ok line →
      (runOf backend s line).ending = .returned (.ok status) → 0 ≤ status → Told backend s (some bytes) status none

/-- there is a message exactly if the number is negative -/
theorem Told.iff {backend : Backend σ} {s : State σ} {command : Option Bytes} {status : Int} {message : Option String}
    (h : Told backend s command status message) : message = none ↔ 0 ≤ status := by
  cases h with
  | missing => simp
  | illegible _ => simp
  | failed _ _ hcode => simpa using hcode
  | succeeded _ _ hstatus => simpa using hstatus

theorem unbroken_illegible (f : Utf8.Fault) : Unbroken s!"invalid UTF-8 in command: {f.message}" :=
  (show Unbroken "invalid UTF-8 in command: " by decide).append (Utf8.unbroken_message f)

/-- no message has a NUL in it -/
theorem Told.nul_not_mem {backend : Backend σ} {s : State σ} {command : Option Bytes} {status : Int} {text : String}
    (h : Told backend s command status (some text)) : '\x00' ∉ text.toList := by
  cases h with
  | missing => decide
  | illegible _ => exact (unbroken_illegible _).not_mem rfl
  | failed _ _ _ => exact nul_not_mem_handedOut _

/-- what a call does with the line of its command: releasing the buffers of an earlier call does not change the
streams -/
theorem runCommand_eq (backend : Backend σ) (line : String) (s : State σ) :
    (runCommand backend line s).1.status = (runOf backend s line).ending.code ∧
      (runCommand backend line s).2.lastError =
        ((runOf backend s line).ending.failure?.map fun f => handedOut f.message) ∧
      (runCommand backend line s).2.host = (runOf backend s line).host := by
  unfold runCommand runOf
  cases s.block with
  | none => exact ⟨rfl, rfl, rfl⟩
  | some b =>
    -- what the streams have received decides about the new buffers only
    generalize hrun : Shell.run { backend } line (some b.streams) s.host = r
    have hfreed : Shell.run { backend } line (some (b.free s.memory).1.streams) s.host = r := hrun
    simp only [Option.map_some, hfreed, hrun]
    cases r.io with
    | none => exact ⟨trivial, trivial, trivial⟩
    | some io => exact ⟨trivial, trivial, trivial⟩

section

variable {backend : Backend σ} {fine : σ → Prop}

/-- a line that is run over a backend to depend on -/
theorem runOf_answered (hb : backend.Dependable fine (0 ≤ ·)) {s : State σ} (hs : fine s.host.state) (line : String) :
    Shell.Answered fine (0 ≤ ·) s.host (runOf backend s line) :=
  Shell.run_answers { backend } hb (fun _ hn => hn.1) line _ hs

/-- a call tells what belongs to it, unless it runs `exit` -/
theorem interpret_told (hb : backend.Dependable fine (0 ≤ ·)) {s : State σ} (hs : fine s.host.state)
    (command : Option Bytes) (hexit : ¬ RunsExit s (interpret backend command s).2) :
    Told backend s command (interpret backend command s).1.status (interpret backend command s).2.lastError := by
  cases command with
  | none =>
    have htold : Told backend s none (-1) (some "command is null") := .missing
    rw [← handedOut_eq (by decide : Unbroken "command is null")] at htold
    exact htold
  | some bytes =>
    simp only [interpret] at hexit ⊢
    cases hdecode : Utf8.decode (bytes.takeWhile (· != 0)) with
    | error f =>
      have htold : Told backend s (some bytes) (-1) (some s!"invalid UTF-8 in command: {f.message}") :=
        .illegible hdecode
      rw [← handedOut_eq (unbroken_illegible f)] at htold
      exact htold
    | ok line =>
      rw [hdecode] at hexit
      obtain ⟨hstatus, hmessage, hhost⟩ := runCommand_eq backend line { s with lastError := none }
      have hanswered := runOf_answered hb hs line
      simp only [hstatus, hmessage]
      have hrun : runOf backend { s with lastError := none } line = runOf backend s line := rfl
      rw [hrun] at hhost ⊢
      cases hending : (runOf backend s line).ending with
      | returned r =>
        cases r with
        | ok status => exact .succeeded hdecode hending (hanswered.returned status hending)
        | error f => exact .failed hdecode hending (hanswered.failed f hending)
      | terminated status =>
        obtain ⟨-, evs, args, hlog, hran⟩ := hanswered.terminated status hending
        exact absurd ⟨evs, args, by simp only [hhost]; exact hlog, hran⟩ hexit

theorem interpret_fine (hb : backend.Dependable fine (0 ≤ ·)) {s : State σ} (hs : fine s.host.state)
    (command : Option Bytes) : fine (interpret backend command s).2.host.state := by
  cases command with
  | none => exact hs
  | some bytes =>
    simp only [interpret]
    split
    · exact hs
    · rename_i line _
      rw [(runCommand_eq backend line { s with lastError := none }).2.2]
      exact (runOf_answered hb hs line).state

end

/-! ### calls -/

/-- a call that tells a message or keeps it -/
inductive Call where
  | interpret (command : Option Bytes)
  | free

/-- the state behind a call, to which the caller hands a block or none -/
def Call.after (backend : Backend σ) (c : Call) (block : Option Block) (s : State σ) : State σ :=
  match c with
  | interpret command => (Abi.interpret backend command { s with block }).2
  | free => Abi.free { s with block }

/-- the state behind some calls, each with the block that it is handed -/
def after (backend : Backend σ) (calls : List (Call × Option Block)) (s : State σ) : State σ :=
  calls.foldl (fun s c => c.1.after backend c.2 s) s

theorem free_eq (s : State σ) : (free s).host = s.host ∧ (free s).lastError = s.lastError := by
  unfold free
  split
  · exact ⟨rfl, rfl⟩
  · exact ⟨rfl, rfl⟩

/-- releasing buffers leaves the message as it is -/
theorem lastError_after_free (backend : Backend σ) (blocks : List (Option Block)) (s : State σ) :
    (after backend (blocks.map (.free, ·)) s).lastError = s.lastError := by
  induction blocks generalizing s with
  | nil => rfl
  | cons block blocks ih => exact (ih _).trans (free_eq { s with block }).2

theorem after_fine {backend : Backend σ} {fine : σ → Prop} (hb : backend.Dependable fine (0 ≤ ·))
    (calls : List (Call × Option Block)) {s : State σ} (hs : fine s.host.state) :
    fine (after backend calls s).host.state := by
  induction calls generalizing s with
  | nil => exact hs
  | cons c calls ih =>
    obtain ⟨c, block⟩ := c
    refine ih ?_
    cases c with
    | interpret command => exact interpret_fine hb (s := { s with block }) hs command
    | free => exact (free_eq { s with block }).1 ▸ hs

/-- **The number of a call and its message agree.** Over a backend to depend on, and behind any calls, each with a
block or none, a call whose command does not run `exit` tells what belongs to it: there is a message exactly if its
number is negative, and it is that of the call. It does not depend on a message that was there before, has no NUL in
it, and stays until the next command, however often buffers are released. -/
theorem interpret_agrees {backend : Backend σ} {fine : σ → Prop} (hb : backend.Dependable fine (0 ≤ ·)) {s : State σ}
    (hs : fine s.host.state) (past : List (Call × Option Block)) (command : Option Bytes) (block : Option Block)
    {before behind : State σ} {a : Answer} (hbefore : { after backend past s with block } = before)
    (hcall : interpret backend command before = (a, behind)) (hexit : ¬ RunsExit before behind) :
    Told backend before command a.status behind.lastError ∧
    (behind.lastError = none ↔ 0 ≤ a.status) ∧
    (∀ text, behind.lastError = some text → '\x00' ∉ text.toList) ∧
    (∀ old, interpret backend command { before with lastError := old } = (a, behind)) ∧
    ∀ blocks : List (Option Block),
      (after backend (blocks.map (.free, ·)) behind).lastError = behind.lastError := by
  have hfine : fine before.host.state := by
    rw [← hbefore]
    exact after_fine hb past hs
  have htold := interpret_told hb hfine command (by rw [hcall]; exact hexit)
  rw [hcall] at htold
  refine ⟨htold, htold.iff, fun text htext => ?_, fun old => hcall, fun blocks => ?_⟩
  · rw [htext] at htold
    exact htold.nul_not_mem
  · exact lastError_after_free backend blocks behind

/-- a state in which nothing has been called yet -/
def untouched : State Local.State := { host := { world := {}, state := {} } }

/-- the state behind a quote that is never closed -/
def unclosed : State Local.State :=
  { after Local.backend [(.interpret (some [39]), none)] untouched with block := some {} }

/-- Such a call leaves a message; an empty command then answers with 0, and the message is gone. -/
theorem interpret_agrees_blank :
    unclosed.lastError = some "syntax error: unterminated quote at offset 1" ∧
    Local.backend.Dependable Local.State.Fine (0 ≤ ·) ∧
    ∃ a behind, interpret Local.backend (some []) unclosed = (a, behind) ∧ ¬ RunsExit unclosed behind ∧
      0 ≤ a.status ∧ behind.lastError = none := by
  have hblank : Shell.run { backend := Local.backend } "" (unclosed.block.map Block.streams) unclosed.host =
      ⟨.returned (.ok 0), (unclosed.block.map Block.streams).map (·.reset), unclosed.host⟩ := by
    unfold Shell.run
    rw [Line.command_of_blank (by decide) (by simp [Line.Blank])]
  have hdecode : Utf8.decode (([] : Bytes).takeWhile (· != 0)) = .ok "" := by
    simp [Utf8.decode, Utf8.pieces, Utf8.piecesAfter, Utf8.assemble]
  have hhost : (interpret Local.backend (some []) unclosed).2.host = unclosed.host := by
    simp only [interpret, hdecode]
    rw [(runCommand_eq Local.backend "" { unclosed with lastError := none }).2.2]
    exact congrArg Run.host hblank
  have hexit : ¬ RunsExit unclosed (interpret Local.backend (some []) unclosed).2 := by
    rintro ⟨evs, args, hlog, hran⟩
    rw [hhost, List.self_eq_append_right] at hlog
    simp [hlog] at hran
  have hstatus : 0 ≤ (interpret Local.backend (some []) unclosed).1.status := by decide +kernel
  have hfine : untouched.host.state.Fine := List.forall_mem_nil _
  obtain ⟨-, hiff, -⟩ := interpret_agrees Local.dependable hfine [(.interpret (some [39]), none)]
    (some []) (some {}) rfl rfl hexit
  exact ⟨by decide +kernel, Local.dependable, _, _, rfl, hexit, hstatus, hiff.2 hstatus⟩

end Abi

end LineShell
