/-
Who owns the memory of output buffers.

A caller has one block, which has no buffers at first. It calls in any order, handing over the block or none, and sets
the payload in between (`Use`). Every use does one of three things to the block and to memory: it leaves both buffers
alone, it gives them back, or it gives them back and puts new ones in their place.

- `Owned`: what lives in memory are the buffers of the block and nothing else, and no address is met twice among what
  lives and what was released.
- `Use.turns`: every use does one of the three things, and all of them keep this and leave the books balanced
  (`Turns.owned`, `Turns.balance`).
- `buffers_owned`: so it is behind any uses: every allocation that was ever made lives in a buffer of the block, or was
  released once and with the size it was made with.
-/
import LineShell.Abi
import LineShell.Backend.Scripted
import LineShell.Proofs.Course
import Mathlib.Data.List.Nodup

namespace LineShell

/-- a line that is given streams leaves streams, with the same payload -/
theorem Shell.run_capture {σ : Type} (sh : Shell σ) (line : String) (io : Option Streams) (h : Host σ) :
    (sh.run line io h).io.map (·.stdin) = io.map (·.stdin) := by
  have hstart : (io.map Streams.reset).map (·.stdin) = io.map (·.stdin) := by cases io <;> rfl
  unfold Shell.run
  simp only
  split
  · exact (Engine.capture_send _ .stderr _).trans hstart
  · exact hstart
  · rename_i t _
    exact (Evaluation.execute_course t {} _).capture.trans hstart

namespace Abi

variable {σ : Type}

/-! ## what the caller of one block does -/

/-- one thing that happens to the caller of a block: a call, which is handed the block or none, a change of the
payload, or something that has nothing to do with the shell and leaves the host in any other state -/
inductive Use (σ : Type) where
  | interpret (command : Option Bytes) (handed : Bool)
  | free (handed : Bool)
  | setStdin (payload : Option Bytes)
  | meanwhile (host : Host σ)

/-- a call that is handed the block or none; a block that is not handed over stays as it is -/
def handing (handed : Bool) (call : State σ → State σ) (s : State σ) : State σ :=
  if handed then call s else { call { s with block := none } with block := s.block }

/-- the state behind a use -/
def Use.after (backend : Backend σ) (s : State σ) : Use σ → State σ
  | interpret command handed => handing handed (fun s => (Abi.interpret backend command s).2) s
  | free handed => handing handed Abi.free s
  | setStdin payload => Abi.setStdin payload s
  | meanwhile host => { s with host }

/-- the state behind some uses -/
def afterUses (backend : Backend σ) (uses : List (Use σ)) (s : State σ) : State σ := uses.foldl (Use.after backend) s

/-- a block without its buffers: what the caller has set -/
def Block.emptied (b : Block) : Block := { b with stdout := {}, stderr := {} }

/-- the state before any use, with a block that has no buffers -/
def zeroed (host : Host σ) (b : Block) : State σ := { host, block := some b.emptied }

/-- what the caller has set behind a use: only the caller itself changes it -/
def Use.configured (b : Block) : Use σ → Block
  | setStdin payload => { b with stdin := payload }
  | _ => b

/-- the line that a command is to the interpreter, if it is not refused before -/
def line? (command : Option Bytes) : Option String :=
  command.bind fun bytes => (Utf8.decode (bytes.takeWhile (· != 0))).toOption

theorem interpret_of_line {command : Option Bytes} {line : String} (h : line? command = some line) (backend : Backend σ)
    (s : State σ) : interpret backend command s = runCommand backend line { s with lastError := none } := by
  cases command with
  | none => cases h
  | some bytes =>
    simp only [line?, Option.bind_some] at h
    simp only [interpret]
    cases hd : Utf8.decode (bytes.takeWhile (· != 0)) with
    | error f =>
      rw [hd] at h
      cases h
    | ok text =>
      rw [hd] at h
      obtain rfl : text = line := Option.some.inj h
      rfl

/-- a command that is refused changes the message only -/
theorem interpret_of_no_line {command : Option Bytes} (h : line? command = none) (backend : Backend σ) (s : State σ) :
    ∃ message, (interpret backend command s).2 = { s with lastError := some message } := by
  cases command with
  | none => exact ⟨_, rfl⟩
  | some bytes =>
    simp only [line?, Option.bind_some] at h
    simp only [interpret]
    cases hd : Utf8.decode (bytes.takeWhile (· != 0)) with
    | error f => exact ⟨_, rfl⟩
    | ok text =>
      rw [hd] at h
      cases h

/-- the line of a command that is handed a block: the block is filled from what the line has left in its streams -/
theorem runCommand_block {s : State σ} {b : Block} (hb : s.block = some b) (backend : Backend σ) (line : String) :
    ∃ io, (({ backend } : Shell σ).run line (some b.streams) s.host).io = some io ∧
      (runCommand backend line s).2.block = some ((b.free s.memory).1.fill io (b.free s.memory).2).1 ∧
      (runCommand backend line s).2.memory = ((b.free s.memory).1.fill io (b.free s.memory).2).2 := by
  have hcapture := ({ backend } : Shell σ).run_capture line (some b.streams) s.host
  obtain ⟨io, hio, -⟩ := Option.map_eq_some_iff.1 hcapture
  have hfreed : (({ backend } : Shell σ).run line (some (b.free s.memory).1.streams) s.host).io = some io := hio
  refine ⟨io, hio, ?_⟩
  simp only [runCommand, hb, Option.map_some, hfreed]
  exact ⟨trivial, trivial⟩

/-- a line whose command is handed no block leaves memory alone -/
theorem runCommand_no_block {s : State σ} (hb : s.block = none) (backend : Backend σ) (line : String) :
    (runCommand backend line s).2.memory = s.memory := by
  simp only [runCommand, hb]

/-! ## what a block owns -/

/-- the living allocations, each with its size -/
def Memory.sizes (m : Memory) : List (Address × Nat) := m.live.map fun l => (l.1, l.2.length)

/-- the addresses of what lives and of what was released -/
def Memory.addresses (m : Memory) : List Address := m.live.map Prod.fst ++ m.released.map Prod.fst

/-- what a buffer has in memory: nothing, if there is no buffer and its length is 0, or else one allocation, which
holds as many bytes as the buffer is long and one NUL behind them -/
inductive OutBuffer.Lies : OutBuffer → List (Address × Bytes) → Prop
  | missing : Lies {} []
  | there (a : Address) (content : Bytes) : Lies ⟨some a, content.length⟩ [(a, content ++ [0])]

/-- memory holds the buffers of the block and nothing else, and has given out every address once -/
structure Owned (b : Block) (m : Memory) : Prop where
  live : ∃ out err, b.stdout.Lies out ∧ b.stderr.Lies err ∧ m.live.Perm (out ++ err)
  once : m.addresses.Nodup
  known : ∀ a ∈ m.addresses, a < m.next

/-- in the beginning nothing is owned -/
theorem owned_emptied (b : Block) : Owned b.emptied {} where
  live := ⟨[], [], .missing, .missing, .refl []⟩
  once := List.nodup_nil
  known a ha := by simp [Memory.addresses] at ha

/-- what is owned does not depend on what the caller has set -/
theorem Owned.of_buffers {b b' : Block} {m : Memory} (h : Owned b m) (hout : b'.stdout = b.stdout)
    (herr : b'.stderr = b.stderr) : Owned b' m where
  live := by
    rw [hout, herr]
    exact h.live
  once := h.once
  known := h.known

/-! ### giving back -/

/-- giving a buffer back takes its allocation out of what lives, with the size that it has -/
theorem OutBuffer.Lies.free {b : OutBuffer} {l : List (Address × Bytes)} (h : b.Lies l) (m : Memory) :
    (b.free m).1 = {} ∧ (b.free m).2.live = m.live.filter (fun x => x.1 ∉ l.map Prod.fst) ∧
      (b.free m).2.released = l.map (fun x => (x.1, x.2.length)) ++ m.released ∧ (b.free m).2.next = m.next := by
  cases h with
  | missing =>
    refine ⟨rfl, ?_, rfl, rfl⟩
    simp [OutBuffer.free]
  | there a content =>
    refine ⟨rfl, ?_, ?_, rfl⟩
    · simp only [OutBuffer.free, Memory.release, List.map_cons, List.map_nil, List.mem_singleton]
      refine List.filter_congr fun x _ => ?_
      by_cases hx : x.1 = a
      · simp [hx]
      · simp [hx]
    · simp [OutBuffer.free, Memory.release]

/-- giving both buffers back leaves nothing alive, and each allocation was released with its size -/
theorem Owned.free {b : Block} {m : Memory} (h : Owned b m) :
    (b.free m).1 = b.emptied ∧ (b.free m).2.live = [] ∧ (b.free m).2.released.Perm (m.sizes ++ m.released) ∧
      (b.free m).2.next = m.next := by
  obtain ⟨out, err, hout, herr, hlive⟩ := h.live
  obtain ⟨hblock, hfiltered, hreleased, hnext⟩ := hout.free m
  obtain ⟨hblock', hfiltered', hreleased', hnext'⟩ := herr.free (b.stdout.free m).2
  refine ⟨?_, ?_, ?_, hnext'.trans hnext⟩
  · simp only [Block.free, hblock, hblock']
    rfl
  · refine hfiltered'.trans ?_
    rw [hfiltered, List.filter_filter, List.filter_eq_nil_iff]
    intro x hx hkept
    have hmem : x ∈ out ++ err := hlive.subset hx
    simp only [Bool.and_eq_true, decide_eq_true_eq] at hkept
    rcases List.mem_append.1 hmem with hx | hx
    · exact hkept.2 (List.mem_map_of_mem hx)
    · exact hkept.1 (List.mem_map_of_mem hx)
  · have hsizes : (out.map (fun x => (x.1, x.2.length)) ++ err.map fun x => (x.1, x.2.length)).Perm m.sizes := by
      rw [← List.map_append]
      exact (hlive.map _).symm
    have hboth : (b.free m).2.released =
        (err.map (fun x => (x.1, x.2.length)) ++ out.map fun x => (x.1, x.2.length)) ++ m.released := by
      rw [List.append_assoc, ← hreleased]
      exact hreleased'
    rw [hboth]
    exact (List.perm_append_comm.trans hsizes).append_right m.released

theorem Memory.map_fst_sizes (m : Memory) : m.sizes.map Prod.fst = m.live.map Prod.fst := by
  simp [sizes, Function.comp_def]

/-- a block without buffers owns what is left behind giving both back: nothing -/
theorem Owned.freed {b : Block} {m : Memory} (h : Owned b m) : Owned b.emptied (b.free m).2 := by
  obtain ⟨-, hlive, hreleased, hnext⟩ := h.free
  have haddresses : (b.free m).2.addresses.Perm m.addresses := by
    have hmap := hreleased.map Prod.fst
    rw [List.map_append, Memory.map_fst_sizes] at hmap
    simpa [Memory.addresses, hlive] using hmap
  refine ⟨⟨[], [], .missing, .missing, by rw [hlive]; exact .refl []⟩, haddresses.nodup_iff.2 h.once, fun a ha => ?_⟩
  rw [hnext]
  exact h.known a (haddresses.subset ha)

/-! ### filling -/

theorem OutBuffer.lies_ofCapture (c : CaptureBuffer) (m : Memory) :
    (OutBuffer.ofCapture c m).1.Lies [(m.next, c.bytesWithNul)] := by
  have hlies : OutBuffer.Lies ⟨some m.next, c.bytes.length⟩ [(m.next, c.bytes ++ [0])] := .there m.next c.bytes
  rw [← CaptureBuffer.length_eq, ← CaptureBuffer.bytesWithNul_eq] at hlies
  exact hlies

/-- the allocations that filling a block makes, newest first -/
def filling (io : Streams) (m : Memory) : List (Address × Bytes) :=
  [(m.next + 1, io.stderr.buffer.bytesWithNul), (m.next, io.stdout.buffer.bytesWithNul)]

theorem live_fill (b : Block) (io : Streams) (m : Memory) : (b.fill io m).2.live = filling io m ++ m.live := rfl

/-- a block that is filled owns its new buffers -/
theorem Owned.fill {b : Block} {m : Memory} (h : Owned b m) (hlive : m.live = []) (io : Streams) :
    Owned (b.fill io m).1 (b.fill io m).2 where
  live := by
    refine ⟨_, _, OutBuffer.lies_ofCapture io.stdout.buffer m,
      OutBuffer.lies_ofCapture io.stderr.buffer (OutBuffer.ofCapture io.stdout.buffer m).2, ?_⟩
    rw [live_fill, hlive]
    exact .swap _ _ []
  once := by
    have hfresh : ∀ a ∈ m.addresses, a ≠ m.next + 1 ∧ a ≠ m.next := by
      intro a ha
      have hlt := h.known a ha
      exact ⟨Nat.ne_of_lt (Nat.lt_succ_of_lt hlt), Nat.ne_of_lt hlt⟩
    have hnew : (b.fill io m).2.addresses = (m.next + 1) :: m.next :: m.addresses := rfl
    rw [hnew, List.nodup_cons, List.nodup_cons]
    refine ⟨fun hmem => ?_, fun hmem => (hfresh _ hmem).2 rfl, h.once⟩
    rcases List.mem_cons.1 hmem with heq | hmem
    · exact Nat.succ_ne_self _ heq
    · exact (hfresh _ hmem).1 rfl
  known a ha := by
    have hnext : (b.fill io m).2.next = m.next + 1 + 1 := rfl
    have hnew : (b.fill io m).2.addresses = (m.next + 1) :: m.next :: m.addresses := rfl
    rw [hnext]
    rw [hnew] at ha
    rcases List.mem_cons.1 ha with rfl | ha
    · exact Nat.lt_succ_self _
    · apply Nat.lt_succ_of_lt
      rcases List.mem_cons.1 ha with rfl | ha
      · exact Nat.lt_succ_self _
      · exact Nat.lt_succ_of_lt (h.known a ha)

/-! ## what a use does -/

/-- what a use does to a block and to memory: it leaves both buffers alone, or gives them back, or gives them back and
puts new ones in their place -/
inductive Turns (b : Block) (m : Memory) : Block → Memory → Prop
  | kept {b' : Block} : b'.stdout = b.stdout → b'.stderr = b.stderr → Turns b m b' m
  | freed : Turns b m (b.free m).1 (b.free m).2
  | refilled (io : Streams) : Turns b m ((b.free m).1.fill io (b.free m).2).1 ((b.free m).1.fill io (b.free m).2).2

theorem Turns.owned {b b' : Block} {m m' : Memory} (h : Turns b m b' m') (ho : Owned b m) : Owned b' m' := by
  obtain ⟨hblock, hlive, -, -⟩ := ho.free
  cases h with
  | kept hout herr => exact ho.of_buffers hout herr
  | freed =>
    rw [hblock]
    exact ho.freed
  | refilled io =>
    rw [hblock]
    exact ho.freed.fill hlive io

/-- the allocations of a table that an earlier one did not have yet, each with its size -/
def Memory.madeSince (m earlier : Memory) : List (Address × Nat) :=
  (m.live.filter (earlier.next ≤ ·.1)).map fun l => (l.1, l.2.length)

/-- what was there and what was made is what is there and what was released, each thing with its size; and as many
addresses were given out as allocations were made -/
theorem Turns.balance {b b' : Block} {m m' : Memory} (h : Turns b m b' m') (ho : Owned b m) :
    (m'.madeSince m ++ (m.sizes ++ m.released)).Perm (m'.sizes ++ m'.released) ∧
      (m'.madeSince m).length + m.next = m'.next := by
  obtain ⟨hblock, hlive, hreleased, hnext⟩ := ho.free
  cases h with
  | kept _ _ =>
    have hnone : m.live.filter (m.next ≤ ·.1) = [] := by
      refine List.filter_eq_nil_iff.2 fun x hx hle => ?_
      have hlt := ho.known x.1 (List.mem_append_left _ (List.mem_map_of_mem hx))
      exact absurd (of_decide_eq_true hle) (Nat.not_le.2 hlt)
    rw [Memory.madeSince, hnone]
    exact ⟨.refl _, Nat.zero_add _⟩
  | freed =>
    have hnone : (b.free m).2.madeSince m = [] := by rw [Memory.madeSince, hlive]; rfl
    have hempty : (b.free m).2.sizes = [] := by rw [Memory.sizes, hlive]; rfl
    rw [hnone, hempty, hnext]
    exact ⟨hreleased.symm, Nat.zero_add _⟩
  | refilled io =>
    have hmade : (((b.free m).1.fill io (b.free m).2).2.live).filter (m.next ≤ ·.1) =
        ((b.free m).1.fill io (b.free m).2).2.live := by
      rw [live_fill, hlive, List.append_nil, filling, hnext]
      refine List.filter_eq_self.2 fun x hx => ?_
      rcases List.mem_cons.1 hx with rfl | hx
      · simp
      · rw [List.mem_singleton.1 hx]
        simp
    have hcount : ((b.free m).1.fill io (b.free m).2).2.next = m.next + 2 := congrArg (· + 2) hnext
    have hlength : ((b.free m).1.fill io (b.free m).2).2.live.length = 2 := by
      rw [live_fill, hlive]
      rfl
    rw [Memory.madeSince, hmade, List.length_map, hlength, hcount]
    exact ⟨hreleased.symm.append_left _, Nat.add_comm _ _⟩

/-- a use turns the block and memory in one of the three ways, and what the caller has set stays as the caller has set
it -/
theorem Use.turns (backend : Backend σ) (u : Use σ) {s : State σ} {b : Block} (hb : s.block = some b) :
    ∃ b', (u.after backend s).block = some b' ∧ Turns b s.memory b' (u.after backend s).memory ∧
      b'.emptied = u.configured b.emptied := by
  cases u with
  | interpret command handed =>
    cases hl : line? command with
    | none =>
      cases handed with
      | true =>
        obtain ⟨message, hs⟩ := interpret_of_no_line hl backend s
        simp only [after, handing, if_true, hs]
        exact ⟨b, hb, .kept rfl rfl, rfl⟩
      | false =>
        obtain ⟨message, hs⟩ := interpret_of_no_line hl backend { s with block := none }
        simp only [after, handing, Bool.false_eq_true, if_false, hs]
        exact ⟨b, hb, .kept rfl rfl, rfl⟩
    | some line =>
      cases handed with
      | true =>
        simp only [after, handing, if_true, interpret_of_line hl]
        obtain ⟨io, -, hblock, hmemory⟩ :=
          runCommand_block (s := { s with lastError := none }) hb backend line
        rw [hblock, hmemory]
        exact ⟨_, rfl, .refilled io, rfl⟩
      | false =>
        simp only [after, handing, Bool.false_eq_true, if_false, interpret_of_line hl]
        rw [runCommand_no_block rfl]
        exact ⟨b, hb, .kept rfl rfl, rfl⟩
  | free handed =>
    cases handed with
    | true =>
      simp only [after, handing, if_true, Abi.free, hb]
      exact ⟨_, rfl, .freed, rfl⟩
    | false =>
      simp only [after, handing, Bool.false_eq_true, if_false, Abi.free]
      exact ⟨b, hb, .kept rfl rfl, rfl⟩
  | setStdin payload =>
    simp only [after, Abi.setStdin, hb, Option.map_some]
    exact ⟨_, rfl, .kept rfl rfl, rfl⟩
  | meanwhile host => exact ⟨b, hb, .kept rfl rfl, rfl⟩

/-! ## any uses -/

/-- the allocations along some uses, each with the size that it was made with -/
def allocations (backend : Backend σ) : List (Use σ) → State σ → List (Address × Nat)
  | [], _ => []
  | u :: uses, s =>
    (u.after backend s).memory.madeSince s.memory ++ allocations backend uses (u.after backend s)

theorem afterUses_append (backend : Backend σ) (uses uses' : List (Use σ)) (s : State σ) :
    afterUses backend (uses ++ uses') s = afterUses backend uses' (afterUses backend uses s) :=
  List.foldl_append

/-- along any uses what is owned stays owned, what was allocated is accounted for, and so is every address given out -/
theorem afterUses_owned (backend : Backend σ) (uses : List (Use σ)) {s : State σ} {b : Block} (hb : s.block = some b)
    (ho : Owned b s.memory) :
    ∃ b', (afterUses backend uses s).block = some b' ∧ Owned b' (afterUses backend uses s).memory ∧
      b'.emptied = uses.foldl Use.configured b.emptied ∧
      (allocations backend uses s ++ (s.memory.sizes ++ s.memory.released)).Perm
        ((afterUses backend uses s).memory.sizes ++ (afterUses backend uses s).memory.released) ∧
      (allocations backend uses s).length + s.memory.next = (afterUses backend uses s).memory.next := by
  induction uses generalizing s b with
  | nil => exact ⟨b, hb, ho, rfl, .refl _, Nat.zero_add _⟩
  | cons u uses ih =>
    obtain ⟨b', hb', hturns, hset⟩ := u.turns backend hb
    obtain ⟨hfirst, hcount⟩ := hturns.balance ho
    obtain ⟨b'', hb'', ho', hset', hbalance, hcount'⟩ := ih hb' (hturns.owned ho)
    refine ⟨b'', hb'', ho', by rw [hset', hset]; rfl, ?_, ?_⟩
    · -- what the first use makes is there for the others, so its balance goes in front of theirs
      rw [allocations, List.append_assoc]
      refine (List.perm_append_comm_assoc _ _ _).trans ?_
      exact (hfirst.append_left (allocations backend uses (u.after backend s))).trans hbalance
    · calc (allocations backend (u :: uses) s).length + s.memory.next
          = (allocations backend uses (u.after backend s)).length +
              (((u.after backend s).memory.madeSince s.memory).length + s.memory.next) := by
            rw [allocations, List.length_append, Nat.add_comm _ (allocations _ _ _).length, Nat.add_assoc]
        _ = (allocations backend uses (u.after backend s)).length + (u.after backend s).memory.next := by rw [hcount]
        _ = (afterUses backend (u :: uses) s).memory.next := hcount'

/-- **A block owns its buffers, and memory is given back once.** Behind any uses of a block that had no buffers at
first, what lives in memory are the buffers of the block and nothing else; a buffer that is not there has length 0,
and one that is there holds as many bytes as it is long and one NUL. Every allocation that was ever made lives, or was
released, once and with the size that it was made with; and no address was given out for anything else. What the
caller has set is as the caller has set it. A command that reaches the interpreter leaves both buffers, and behind a
release nothing is left alive. -/
theorem buffers_owned (backend : Backend σ) (host : Host σ) (start : Block) (uses : List (Use σ)) {s : State σ}
    (hs : afterUses backend uses (zeroed host start) = s) :
    ∃ b, s.block = some b ∧ Owned b s.memory ∧
      (allocations backend uses (zeroed host start)).Perm (s.memory.sizes ++ s.memory.released) ∧
      (allocations backend uses (zeroed host start)).length + 1 = s.memory.next ∧
      b.emptied = uses.foldl Use.configured start.emptied ∧
      (∀ past command line, uses = past ++ [.interpret command true] → line? command = some line →
        b.stdout.data.isSome = true ∧ b.stderr.data.isSome = true) ∧
      ∀ past, uses = past ++ [.free true] →
        s.memory.live = [] ∧ (allocations backend uses (zeroed host start)).Perm s.memory.released := by
  obtain ⟨b, hb, ho, hset, hbalance, hcount⟩ :=
    afterUses_owned backend uses (s := zeroed host start) rfl (owned_emptied start)
  rw [hs] at hb ho hbalance hcount
  have hbooks : (allocations backend uses (zeroed host start)).Perm (s.memory.sizes ++ s.memory.released) := by
    simpa [zeroed, Memory.sizes] using hbalance
  refine ⟨b, hb, ho, hbooks, hcount, hset, fun past command line huses hline => ?_, fun past huses => ?_⟩
  all_goals
    -- the state before the last use has a block that owns its buffers, too
    obtain ⟨b', hb', ho', -⟩ := afterUses_owned backend past (s := zeroed host start) rfl (owned_emptied start)
    rw [huses, afterUses_append] at hs
  · obtain ⟨io, -, hblock, -⟩ := runCommand_block
      (s := { afterUses backend past (zeroed host start) with lastError := none }) hb' backend line
    rw [← hs] at hb
    simp only [afterUses, List.foldl_cons, List.foldl_nil, Use.after, handing, if_true, interpret_of_line hline] at hb
    obtain rfl := Option.some.inj (hblock.symm.trans hb)
    exact ⟨rfl, rfl⟩
  · have hlive : s.memory.live = [] := by
      rw [← hs]
      simp only [afterUses, List.foldl_cons, List.foldl_nil, Use.after, handing, if_true, Abi.free]
      simp only [afterUses] at hb'
      simp only [hb']
      exact ho'.free.2.1
    refine ⟨hlive, ?_⟩
    simpa [Memory.sizes, hlive] using hbooks

/-- A command that writes three bytes, one that is missing, and a release: both allocations are given back. -/
theorem buffers_owned_printing :
    ∃ b, (afterUses Scripted.backend [.interpret (some (Text.bytes "pwd")) true, .interpret none true, .free true]
        (zeroed { world := {}, state := {} } {})).block = some b ∧
      [(2, 1), (1, 3)].Perm (afterUses Scripted.backend
        [.interpret (some (Text.bytes "pwd")) true, .interpret none true, .free true]
        (zeroed { world := {}, state := {} } {})).memory.released := by
  obtain ⟨b, hb, -, -, -, -, -, hfreed⟩ := buffers_owned Scripted.backend { world := {}, state := {} } {}
    [.interpret (some (Text.bytes "pwd")) true, .interpret none true, .free true] rfl
  have hmade : allocations Scripted.backend
      [.interpret (some (Text.bytes "pwd")) true, .interpret none true, .free true]
      (zeroed { world := {}, state := {} } {}) = [(2, 1), (1, 3)] := by decide +kernel
  exact ⟨b, hb, hmade ▸ (hfreed [.interpret (some (Text.bytes "pwd")) true, .interpret none true] rfl).2⟩

end Abi

end LineShell
