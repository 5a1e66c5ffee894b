/-
What the buffers of a block show behind a call.

What a call has captured the caller reads from the buffers of its block (`State.shown`). A command that reaches the
interpreter has the buffers of an earlier call released and gets new ones, so they show what this call has captured and
nothing else. A command that is refused ends the call before that, and the buffers still show what was captured before.

- `Use.shown`: what every use does to what is shown.
- `interpret_shows`: behind any uses, what a call with the block leaves in its buffers, and when they describe the call.
- `interpret_shows_leftover`: the shortest uses behind which they do not.
-/
import LineShell.Proofs.LastError
import LineShell.Proofs.Ownership

namespace LineShell.Abi

variable {σ : Type}

/-! ## what is shown and what was captured -/

/-- the buffer of an output stream -/
def Block.buffer (b : Block) : Output → OutBuffer
  | .stdout => b.stdout
  | .stderr => b.stderr

/-- what lies in a buffer, up to its length -/
def OutBuffer.content? (b : OutBuffer) (m : Memory) : Option Bytes :=
  b.data.bind fun a => (m.read? a).map (·.take b.length)

/-- what the caller reads from the block: nothing, if there is no buffer -/
def State.shown (s : State σ) (o : Output) : Option Bytes := s.block.bind fun b => (b.buffer o).content? s.memory

/-- what a call captures of a stream: what the line has left in it, and nothing if the command is refused -/
def captured (backend : Backend σ) (command : Option Bytes) (s : State σ) (o : Output) : Bytes :=
  match line? command with
  | some line => ((runOf backend s line).io.map fun io => (io.channel o).buffer.bytes).getD []
  | none => []

/-- the buffers describe a call: they show what it has captured, or are not there if it ran nothing -/
def Describes (backend : Backend σ) (command : Option Bytes) (before behind : State σ) : Prop :=
  ∀ o, behind.shown o = some (captured backend command before o) ∨ line? command = none ∧ behind.shown o = none

/-- does a use leave the buffers of the block alone? -/
def Use.leavesBuffers : Use σ → Bool
  | interpret command handed => !(handed && (line? command).isSome)
  | free handed => !handed
  | setStdin _ => true
  | meanwhile _ => true

/-- what is captured does not depend on anything that earlier calls have left in the block or in memory -/
theorem captured_zeroed {s : State σ} {b : Block} (hb : s.block = some b) (backend : Backend σ)
    (command : Option Bytes) (o : Output) :
    captured backend command (zeroed s.host b) o = captured backend command s o := by
  unfold captured runOf
  rw [hb]
  rfl

/-! ## what a use does to what is shown -/

theorem content?_ofCapture_fill (b : Block) (io : Streams) (m : Memory) (o : Output) :
    ((b.fill io m).1.buffer o).content? (b.fill io m).2 = some (io.channel o).buffer.bytes := by
  have htake : ∀ c : CaptureBuffer, c.bytesWithNul.take c.length = c.bytes := by
    intro c
    rw [CaptureBuffer.length_eq, CaptureBuffer.bytesWithNul_eq]
    exact List.take_left
  cases o with
  | stdout =>
    -- the buffer of the errors was allocated behind this one
    have hread : (b.fill io m).2.read? m.next = some io.stdout.buffer.bytesWithNul := by
      have hne : (m.next == m.next + 1) = false := beq_eq_false_iff_ne.2 (Nat.succ_ne_self _).symm
      rw [Memory.read?, live_fill, filling, List.cons_append, List.lookup_cons, hne]
      simp
    calc ((b.fill io m).1.buffer .stdout).content? (b.fill io m).2
        = ((b.fill io m).2.read? m.next).map (·.take io.stdout.buffer.length) := rfl
      _ = some io.stdout.buffer.bytes := by rw [hread, Option.map_some, htake]
  | stderr =>
    have hread : (b.fill io m).2.read? (m.next + 1) = some io.stderr.buffer.bytesWithNul := by
      rw [Memory.read?, live_fill, filling, List.cons_append, List.lookup_cons_self]
    calc ((b.fill io m).1.buffer .stderr).content? (b.fill io m).2
        = ((b.fill io m).2.read? (m.next + 1)).map (·.take io.stderr.buffer.length) := rfl
      _ = some io.stderr.buffer.bytes := by rw [hread, Option.map_some, htake]

/-- a command that reaches the interpreter leaves what it has captured -/
theorem shown_of_line {command : Option Bytes} {line : String} (h : line? command = some line) {s : State σ} {b : Block}
    (hb : s.block = some b) (backend : Backend σ) (o : Output) :
    (interpret backend command s).2.shown o = some (captured backend command s o) := by
  obtain ⟨io, hio, hblock, hmemory⟩ := runCommand_block (s := { s with lastError := none }) hb backend line
  have hrun : (runOf backend s line).io = some io := by
    rw [runOf, hb]
    exact hio
  rw [interpret_of_line h, State.shown, hblock, hmemory, Option.bind_some, content?_ofCapture_fill]
  simp only [captured, h, hrun, Option.map_some, Option.getD_some]

/-- a command that is refused leaves the block and memory as they are -/
theorem kept_of_no_line {command : Option Bytes} (h : line? command = none) (backend : Backend σ) (s : State σ) :
    (interpret backend command s).2.block = s.block ∧ (interpret backend command s).2.memory = s.memory := by
  obtain ⟨message, hs⟩ := interpret_of_no_line h backend s
  rw [hs]
  exact ⟨rfl, rfl⟩

/-- what a use does to what is shown: a call that reaches the interpreter with the block leaves what it has captured,
giving the buffers back leaves nothing, and any other use leaves what was there -/
theorem Use.shown (backend : Backend σ) (u : Use σ) {s : State σ} {b : Block} (hb : s.block = some b) (o : Output) :
    (u.leavesBuffers = true → (u.after backend s).shown o = s.shown o) ∧
    (u = .free true → (u.after backend s).shown o = none) := by
  cases u with
  | interpret command handed =>
    refine ⟨fun hleaves => ?_, fun h => by cases h⟩
    cases handed with
    | true =>
      have hl : line? command = none := by simpa [leavesBuffers] using hleaves
      obtain ⟨hblock, hmemory⟩ := kept_of_no_line hl backend s
      simp only [after, handing, if_true, State.shown, hblock, hmemory]
    | false =>
      have hmemory : (Abi.interpret backend command { s with block := none }).2.memory = s.memory := by
        cases hl : line? command with
        | none => exact (kept_of_no_line hl backend _).2
        | some line =>
          rw [interpret_of_line hl]
          exact runCommand_no_block rfl backend line
      simp only [after, handing, Bool.false_eq_true, if_false, State.shown, hmemory]
  | free handed =>
    cases handed with
    | true =>
      refine ⟨fun h => absurd h Bool.false_ne_true, fun _ => ?_⟩
      simp only [after, handing, if_true, Abi.free, hb, State.shown, Option.bind_some]
      cases o <;> rfl
    | false => exact ⟨fun _ => rfl, fun h => by cases h⟩
  | setStdin payload =>
    refine ⟨fun _ => ?_, fun h => by cases h⟩
    simp only [after, Abi.setStdin, State.shown, hb, Option.map_some, Option.bind_some]
    cases o <;> rfl
  | meanwhile host => exact ⟨fun _ => rfl, fun h => by cases h⟩

/-- along uses that leave the buffers alone the same is shown -/
theorem shown_afterUses (backend : Backend σ) {uses : List (Use σ)} (h : ∀ u ∈ uses, u.leavesBuffers = true)
    {s : State σ} {b : Block} (hb : s.block = some b) (o : Output) :
    (afterUses backend uses s).shown o = s.shown o := by
  induction uses generalizing s b with
  | nil => rfl
  | cons u uses ih =>
    obtain ⟨b', hb', -⟩ := u.turns backend hb
    have hfirst := (u.shown backend hb o).1 (h u List.mem_cons_self)
    have hrest := ih (fun v hv => h v (List.mem_cons_of_mem u hv)) hb'
    exact hrest.trans hfirst

/-! ## one call behind any uses -/

/-- a call that ran nothing is described if nothing was shown before it -/
theorem describes_of_no_line {command : Option Bytes} (h : line? command = none) (backend : Backend σ) (s : State σ) :
    Describes backend command s (interpret backend command s).2 ↔
      ∀ o, s.shown o = none ∨ s.shown o = some [] := by
  obtain ⟨hblock, hmemory⟩ := kept_of_no_line h backend s
  refine forall_congr' fun o => ?_
  have hcaptured : captured backend command s o = [] := by simp only [captured, h]
  simp only [State.shown, hblock, hmemory, hcaptured, h, true_and]
  exact or_comm

/-- **What a call leaves in the buffers.** Behind any uses, a call is handed the block. If its command reaches the
interpreter, both buffers show what this call has captured, which is what it would have captured in a block that no
call had filled before. If it is refused, block and memory stay as they were: if an earlier command had reached the
interpreter with the block and the buffers were left alone since, they still show what that one has captured. So the
buffers describe every call that reaches the interpreter, and one that is refused exactly if they showed nothing
before, as they do when they have just been given back. -/
theorem interpret_shows (backend : Backend σ) (host : Host σ) (start : Block) (past : List (Use σ))
    (command : Option Bytes) {before behind : State σ} (hbefore : afterUses backend past (zeroed host start) = before)
    (hbehind : (interpret backend command before).2 = behind) :
    ∃ b, before.block = some b ∧
      ((line? command).isSome = true →
        ∀ o, behind.shown o = some (captured backend command (zeroed before.host b) o)) ∧
      (line? command = none → behind.block = before.block ∧ behind.memory = before.memory ∧
        ∀ earlier later command', past = earlier ++ .interpret command' true :: later → (line? command').isSome = true →
          (∀ u ∈ later, u.leavesBuffers = true) →
            ∀ o, behind.shown o = some (captured backend command' (afterUses backend earlier (zeroed host start)) o)) ∧
      (Describes backend command before behind ↔
        (line? command).isSome = true ∨ ∀ o, before.shown o = none ∨ before.shown o = some []) ∧
      ∀ earlier, past = earlier ++ [.free true] → Describes backend command before behind := by
  subst hbehind
  obtain ⟨b, hb, -⟩ := afterUses_owned backend past (s := zeroed host start) rfl (owned_emptied start)
  rw [hbefore] at hb
  have hdescribes : Describes backend command before (interpret backend command before).2 ↔
      (line? command).isSome = true ∨ ∀ o, before.shown o = none ∨ before.shown o = some [] := by
    cases hl : line? command with
    | none =>
      rw [describes_of_no_line hl]
      simp
    | some line => exact iff_of_true (fun o => .inl (shown_of_line hl hb backend o)) (.inl rfl)
  refine ⟨b, hb, fun hl o => ?_, fun hl => ?_, hdescribes, fun earlier hpast => hdescribes.2 (.inr fun o => .inl ?_)⟩
  · obtain ⟨line, hl⟩ := Option.isSome_iff_exists.1 hl
    rw [captured_zeroed hb, shown_of_line hl hb]
  · obtain ⟨hblock, hmemory⟩ := kept_of_no_line hl backend before
    refine ⟨hblock, hmemory, fun earlier later command' hpast hl' hlater o => ?_⟩
    obtain ⟨line', hl'⟩ := Option.isSome_iff_exists.1 hl'
    -- the earlier command has filled the buffers, and nothing has touched them since
    obtain ⟨b', hb', -⟩ := afterUses_owned backend earlier (s := zeroed host start) rfl (owned_emptied start)
    have hfilled := shown_of_line hl' hb' backend o
    obtain ⟨b'', hb'', -⟩ := (Use.interpret command' true).turns backend hb'
    have hkept := shown_afterUses backend hlater hb'' o
    have hbefore' : afterUses backend later
        ((Use.interpret command' true).after backend (afterUses backend earlier (zeroed host start))) = before := by
      rw [← hbefore, hpast, afterUses_append]
      rfl
    rw [hbefore'] at hkept
    calc (interpret backend command before).2.shown o = before.shown o := by rw [State.shown, hblock, hmemory]; rfl
      _ = _ := hkept
      _ = _ := hfilled
  · obtain ⟨b', hb', -⟩ := afterUses_owned backend earlier (s := zeroed host start) rfl (owned_emptied start)
    have hfreed := ((Use.free true).shown backend hb' o).2 rfl
    rw [← hbefore, hpast, afterUses_append]
    exact hfreed

/-- the state behind `pwd`, which was handed the block -/
def printed : State Scripted.State :=
  afterUses Scripted.backend [.interpret (some (Text.bytes "pwd")) true] (zeroed { world := {}, state := {} } {})

/-- Behind `pwd`, a command with an error shows that error and no output. -/
theorem interpret_shows_refilled :
    printed.shown .stdout = some (Text.bytes "/\n") ∧
    (interpret Scripted.backend (some (Text.bytes "cd a b")) printed).2.shown .stdout = some [] ∧
    (interpret Scripted.backend (some (Text.bytes "cd a b")) printed).2.shown .stderr =
      some (Text.bytes "embsh: cd: too many arguments\n") := by
  obtain ⟨b, hb, hshown, -⟩ := interpret_shows Scripted.backend { world := {}, state := {} } {}
    [.interpret (some (Text.bytes "pwd")) true] (some (Text.bytes "cd a b"))
    (show afterUses _ _ _ = printed from rfl) rfl
  have hblock : printed.block = some ⟨⟨some 1, 2⟩, ⟨some 2, 0⟩, false, false, none, none⟩ := by decide +kernel
  obtain rfl := Option.some.inj (hb.symm.trans hblock)
  have hline : (line? (some (Text.bytes "cd a b"))).isSome = true := by decide +kernel
  refine ⟨by decide +kernel, (hshown hline .stdout).trans ?_, (hshown hline .stderr).trans ?_⟩
  · decide +kernel
  · decide +kernel

/-- Behind `pwd`, a command that is missing does not touch the buffers: the working directory is still shown. -/
theorem interpret_shows_leftover :
    ¬ Describes Scripted.backend none printed (interpret Scripted.backend none printed).2 := by
  intro h
  have hshown : (interpret Scripted.backend none printed).2.shown .stdout = some (Text.bytes "/\n") := by
    decide +kernel
  rcases h .stdout with heq | ⟨-, hnone⟩
  · rw [hshown] at heq
    exact absurd heq (by decide +kernel)
  · rw [hshown] at hnone
    cases hnone

end LineShell.Abi
