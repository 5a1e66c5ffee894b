/-
Carrying loses, doubles and reorders nothing.

`Polled c left p after` says which polls can happen when the ends of `c` are open and the streams still have `left` to
give: some of the open ends are ready, a read gives the next bytes of its stream or, when there are none, its end, and a
write takes some of the pending bytes or finds that nobody reads them. `Legal` is a schedule of such polls. Nothing is
said about how they are interleaved, how much each of them moves, or how often one moves nothing.

`Sound` is the invariant: what was received and what is left make up each stream, and what was written and what is
pending make up the payload. `poll_sound` is one poll, `run_sound` a schedule.

- `run_delivers`: a schedule that is followed to its end has moved every byte, each stream's in its order, and has
  closed each end when it was time.
-/
import LineShell.Child.Drain
import LineShell.Proofs.Interchange

namespace LineShell

/-! ## legal schedules -/

/-- the outcomes of reading a stream that has `left` to give, with what it has to give after that -/
inductive Reading.Gives : (left : Bytes) → Reading → (after : Bytes) → Prop
  | chunk {bytes rest : Bytes} : bytes ≠ [] → bytes.length ≤ readChunk → Gives (bytes ++ rest) (.chunk bytes) rest
  | again (left : Bytes) : Gives left .again left
  | ended : Gives [] .ended []

/-- the outcomes of writing pending bytes -/
inductive Writing.Takes (pending : Bytes) : Writing → Prop
  | accepted {n : Nat} : 0 < n → n ≤ pending.length → Takes pending (.accepted n)
  | again : Takes pending .again
  | closed : Takes pending .closed

namespace Poll

/-- the outcome of reading an end, if the poll found it ready -/
def reading : Poll → Output → Option Reading
  | .ready out _ _, .stdout => out
  | .ready _ err _, .stderr => err
  | _, _ => none

/-- the outcome of writing, if the poll found the input ready -/
def writing : Poll → Option Writing
  | .ready _ _ input => input
  | _ => none

end Poll

namespace Carrying

/-- the polls that can happen in `c`, when the streams have `left` to give and `after` when it is over -/
inductive Polled (c : Carrying) (left : Output → Bytes) : Poll → (after : Output → Bytes) → Prop
  | interrupted : Polled c left .interrupted left
  | ready {out err : Option Reading} {input : Option Writing} (after : Output → Bytes)
      (someReady : out.isSome ∨ err.isSome ∨ input.isSome)
      (reads : ∀ o r, (Poll.ready out err input).reading o = some r → c.isOpen o = true ∧ r.Gives (left o) (after o))
      (rests : ∀ o, (Poll.ready out err input).reading o = none → after o = left o)
      (writes : ∀ w, input = some w → ∃ bytes, c.pending = some bytes ∧ w.Takes bytes) :
      Polled c left (.ready out err input) after

/-- the schedules that can happen from `c` on, when the streams have `left` to give -/
inductive Legal : Carrying → (left : Output → Bytes) → List Poll → Prop
  | nil (c : Carrying) (left : Output → Bytes) : Legal c left []
  | cons {c : Carrying} {left after : Output → Bytes} {p : Poll} {rest : List Poll} :
      Polled c left p after → Legal (c.poll p).1 after rest → Legal c left (p :: rest)

theorem Legal.of_append {c : Carrying} {left : Output → Bytes} {past later : List Poll}
    (h : Legal c left (past ++ later)) : Legal c left past := by
  induction past generalizing c left with
  | nil => exact .nil c left
  | cons p past ih =>
    cases h with
    | cons hp hrest => exact .cons hp (ih hrest)

/-! ## what is kept -/

/-- the bytes that have been read from a stream -/
def received (c : Carrying) (o : Output) : Bytes := (sentTo o c.chunks.reverse).flatten

/-- has a write found that nobody reads any more? -/
def Broken (polls : List Poll) : Prop := ∃ p ∈ polls, p.writing = some .closed

/-- nothing is lost: the streams were `stream` and have `left` to give, the payload to be written was `owed`, and `past`
are the polls so far -/
structure Sound (stream : Output → Bytes) (owed : Bytes) (past : List Poll) (c : Carrying) (left : Output → Bytes) :
    Prop where
  /-- what was read and what is to come is the stream -/
  streams : ∀ o, c.received o ++ left o = stream o
  /-- a closed end has given everything -/
  ended : ∀ o, c.isOpen o = false → left o = []
  /-- what was written and what is pending is the payload, and something is pending while the input is open -/
  owing : ∀ bytes, c.pending = some bytes → bytes ≠ [] ∧ c.written ++ bytes = owed
  /-- a closed input has been given the payload, or as much of it as was read -/
  given : c.pending = none → c.written <+: owed ∧ (c.written = owed ∨ Broken past)

/-- an end of the shell's is closed when its stream has ended, and the input when the last byte is written or nobody
reads any more; while the input is open, there is something to write -/
structure ClosesInTime (owed : Bytes) (before : Carrying) (p : Poll) (after : Carrying) : Prop where
  owing : ∀ bytes, before.pending = some bytes → bytes ≠ [] ∧ before.written ++ bytes = owed
  input : ∀ bytes, before.pending = some bytes →
    (after.pending = none ↔ p.writing = some (.accepted bytes.length) ∨ p.writing = some .closed)
  output : ∀ o, before.isOpen o = true → (after.isOpen o = false ↔ p.reading o = some .ended)

/-! ## one read and one write -/

theorem received_chunk (c : Carrying) (o o' : Output) (bytes : Bytes) :
    ({ c with chunks := (o, bytes) :: c.chunks } : Carrying).received o' =
      if o = o' then c.received o' ++ bytes else c.received o' := by
  unfold received sentTo
  by_cases ho : o = o'
  · by_cases hb : bytes = [] <;> simp [ho, hb]
  · simp [ho]

theorem isOpen_close (c : Carrying) (o o' : Output) :
    (c.close o).isOpen o' = if o = o' then false else c.isOpen o' := by
  cases o <;> cases o' <;> rfl

/-- what a read leaves behind: it moves bytes of its own stream and may close its own end -/
structure ReadOnce (c : Carrying) (o : Output) (r : Option Reading) (left after : Bytes) (c' : Carrying) : Prop where
  moved : c'.received o ++ after = c.received o ++ left
  closed : c'.isOpen o = (c.isOpen o && r != some .ended)
  ended : r = some .ended → after = []
  others : ∀ o', o ≠ o' → c'.received o' = c.received o' ∧ c'.isOpen o' = c.isOpen o'
  input : c'.pending = c.pending ∧ c'.written = c.written

theorem read_once {c : Carrying} {o : Output} {r : Option Reading} {left after : Bytes}
    (hreads : ∀ x, r = some x → c.isOpen o = true ∧ x.Gives left after) (hrests : r = none → after = left) :
    ∃ c', c.read o r = (c', none) ∧ ReadOnce c o r left after c' := by
  cases r with
  | none =>
    rw [hrests rfl]
    exact ⟨c, by simp [read], rfl, by simp, nofun, fun _ _ => ⟨rfl, rfl⟩, rfl, rfl⟩
  | some x =>
    obtain ⟨hopen, hgives⟩ := hreads x rfl
    cases hgives with
    | again => exact ⟨c, by simp [read], rfl, by simp, nofun, fun _ _ => ⟨rfl, rfl⟩, rfl, rfl⟩
    | @chunk bytes _ hne _ =>
      have hread : c.read o (some (.chunk bytes)) = ({ c with chunks := (o, bytes) :: c.chunks }, none) := by
        simp [read, hopen]
      refine ⟨_, hread, ?_, ?_, nofun, fun o' ho => ⟨?_, ?_⟩, rfl, rfl⟩
      · rw [received_chunk, if_pos rfl, List.append_assoc]
      · cases o <;> simp [isOpen]
      · rw [received_chunk, if_neg ho]
      · cases o' <;> rfl
    | ended =>
      have hread : c.read o (some .ended) = (c.close o, none) := by simp [read, hopen]
      refine ⟨_, hread, ?_, ?_, fun _ => rfl, fun o' ho => ⟨?_, ?_⟩, ?_⟩
      · cases o <;> rfl
      · rw [isOpen_close]
        simp
      · cases o <;> rfl
      · rw [isOpen_close, if_neg ho]
      · cases o <;> exact ⟨rfl, rfl⟩

/-- what a write leaves behind: it moves pending bytes, and closes the input when there are no more or nobody reads -/
structure WrittenOnce (c : Carrying) (w : Option Writing) (c' : Carrying) : Prop where
  outputs : ∀ o, c'.received o = c.received o ∧ c'.isOpen o = c.isOpen o
  untouched : c.pending = none → c'.pending = none ∧ c'.written = c.written
  pending : ∀ bytes bytes', c.pending = some bytes → c'.pending = some bytes' →
    bytes' ≠ [] ∧ c'.written ++ bytes' = c.written ++ bytes
  closed : ∀ bytes, c.pending = some bytes → c'.pending = none →
    c'.written = c.written ++ bytes ∨ w = some .closed ∧ c'.written = c.written
  closes : ∀ bytes, c.pending = some bytes → (c'.pending = none ↔ w = some (.accepted bytes.length) ∨ w = some .closed)

/-- a write that is accepted moves the front of the pending bytes, and closes the input behind the last one -/
theorem accepted_once {c : Carrying} {bytes : Bytes} {n : Nat} (hp : c.pending = some bytes) (hle : n ≤ bytes.length) :
    ∃ c', c.write (some (.accepted n)) = (c', none) ∧ WrittenOnce c (some (.accepted n)) c' := by
  have hwrite : c.write (some (.accepted n)) =
      ({ c with
          written := c.written ++ bytes.take n
          pending := if (bytes.drop n).isEmpty then none else some (bytes.drop n) }, none) := by
    simp [write, hp]
  by_cases hall : n = bytes.length
  · subst hall
    simp only [List.take_length, List.drop_length, List.isEmpty_nil, if_true] at hwrite
    refine ⟨_, hwrite, fun o => ⟨rfl, by cases o <;> rfl⟩, by simp [hp], by simp, ?_, ?_⟩
    all_goals simp [hp]
  · have hrest : bytes.drop n ≠ [] := by
      rw [Ne, List.drop_eq_nil_iff]
      omega
    rw [if_neg (by simpa using hrest)] at hwrite
    refine ⟨_, hwrite, fun o => ⟨rfl, by cases o <;> rfl⟩, by simp [hp], ?_, by simp, ?_⟩
    · intro b b' hb hb'
      obtain rfl : bytes = b := Option.some.inj (hp.symm.trans hb)
      obtain rfl := Option.some.inj hb'
      exact ⟨hrest, by simp⟩
    · simp [hp, hall]

theorem write_once {c : Carrying} {w : Option Writing}
    (hwrites : ∀ x, w = some x → ∃ bytes, c.pending = some bytes ∧ x.Takes bytes)
    (howing : ∀ bytes, c.pending = some bytes → bytes ≠ []) : ∃ c', c.write w = (c', none) ∧ WrittenOnce c w c' := by
  cases hp : c.pending with
  | none =>
    exact ⟨c, by simp [write, hp], fun _ => ⟨rfl, rfl⟩, fun _ => ⟨hp, rfl⟩, by simp [hp], by simp [hp], by simp [hp]⟩
  | some bytes =>
    have hne : bytes ≠ [] := howing bytes hp
    -- a write that moves nothing leaves everything as it is
    have hidle : ∀ w', w' = none ∨ w' = some .again → WrittenOnce c w' c := by
      intro w' hw'
      refine ⟨fun _ => ⟨rfl, rfl⟩, fun h => ⟨h, rfl⟩, ?_, ?_, ?_⟩
      all_goals rcases hw' with rfl | rfl <;> simp [hp, hne]
    cases w with
    | none => exact ⟨c, by simp [write, hp], hidle none (.inl rfl)⟩
    | some x =>
      obtain ⟨bytes', hb, htakes⟩ := hwrites x rfl
      obtain rfl : bytes = bytes' := Option.some.inj (hp.symm.trans hb)
      cases htakes with
      | again => exact ⟨c, by simp [write, hp], hidle _ (.inr rfl)⟩
      | closed =>
        have hwrite : c.write (some .closed) = ({ c with pending := none }, none) := by simp [write, hp]
        refine ⟨_, hwrite, fun o => ⟨rfl, by cases o <;> rfl⟩, fun _ => ⟨rfl, rfl⟩, ?_, ?_, ?_⟩
        all_goals simp
      | accepted _ hle => exact accepted_once hp hle

/-! ## one poll -/

theorem Broken.append {polls : List Poll} (h : Broken polls) (later : List Poll) : Broken (polls ++ later) := by
  obtain ⟨p, hp, hw⟩ := h
  exact ⟨p, List.mem_append_left later hp, hw⟩

section

variable {stream : Output → Bytes} {owed : Bytes} {past : List Poll} {c : Carrying} {left after : Output → Bytes}

/-- later polls take nothing back -/
theorem Sound.append (h : Sound stream owed past c left) (later : List Poll) :
    Sound stream owed (past ++ later) c left :=
  ⟨h.streams, h.ended, h.owing, fun hp => ⟨(h.given hp).1, (h.given hp).2.imp_right (·.append later)⟩⟩

/-- both reads of a poll -/
theorem reads_once {out err : Option Reading} {input : Option Writing}
    (h : Polled c left (.ready out err input) after) :
    ∃ c₁ c₂, c.read .stdout out = (c₁, none) ∧ c₁.read .stderr err = (c₂, none) ∧
      c₂.pending = c.pending ∧ c₂.written = c.written ∧ ∀ o, c₂.received o ++ after o = c.received o ++ left o ∧
        c₂.isOpen o = (c.isOpen o && (Poll.ready out err input).reading o != some .ended) ∧
        ((Poll.ready out err input).reading o = some .ended → after o = []) := by
  cases h with
  | ready _ _ reads rests _ =>
    obtain ⟨c₁, h₁, r₁⟩ := read_once (fun x hx => reads .stdout x hx) (rests .stdout)
    obtain ⟨hreceived, hopen⟩ := r₁.others .stderr (by decide)
    obtain ⟨c₂, h₂, r₂⟩ := read_once (c := c₁) (fun x hx => hopen ▸ reads .stderr x hx) (rests .stderr)
    obtain ⟨hreceived', hopen'⟩ := r₂.others .stdout (by decide)
    refine ⟨c₁, c₂, h₁, h₂, r₂.input.1.trans r₁.input.1, r₂.input.2.trans r₁.input.2, fun o => ?_⟩
    cases o with
    | stdout => exact ⟨hreceived' ▸ r₁.moved, hopen'.trans r₁.closed, r₁.ended⟩
    | stderr => exact ⟨r₂.moved.trans (by rw [hreceived]), hopen ▸ r₂.closed, r₂.ended⟩

/-- a write that the poll `p` allows keeps account of the payload -/
theorem WrittenOnce.accounts {c' : Carrying} {p : Poll} (w : WrittenOnce c p.writing c')
    (howing : ∀ bytes, c.pending = some bytes → bytes ≠ [] ∧ c.written ++ bytes = owed)
    (hgiven : c.pending = none → c.written <+: owed ∧ (c.written = owed ∨ Broken past)) :
    (∀ bytes, c'.pending = some bytes → bytes ≠ [] ∧ c'.written ++ bytes = owed) ∧
      (c'.pending = none → c'.written <+: owed ∧ (c'.written = owed ∨ Broken (past ++ [p]))) := by
  cases hb : c.pending with
  | none =>
    obtain ⟨hnone, hwritten⟩ := w.untouched hb
    rw [hnone, hwritten]
    exact ⟨nofun, fun _ => ⟨(hgiven hb).1, (hgiven hb).2.imp_right (·.append [p])⟩⟩
  | some bytes =>
    have howed := (howing bytes hb).2
    refine ⟨fun bytes' hb' => ?_, fun hnone => ?_⟩
    · obtain ⟨hne, happend⟩ := w.pending bytes bytes' hb hb'
      exact ⟨hne, happend.trans howed⟩
    · rcases w.closed bytes hb hnone with hall | ⟨hbroken, hsame⟩
      · rw [hall, howed]
        exact ⟨List.prefix_refl _, .inl rfl⟩
      · rw [hsame]
        exact ⟨⟨bytes, howed⟩, .inr ⟨p, List.mem_append_right past (List.mem_singleton_self p), hbroken⟩⟩

/-- an end that a poll leaves closed has given everything: it was closed before, or its stream has ended -/
theorem ended_once {p : Poll} (hended : ∀ o, c.isOpen o = false → left o = []) (hp : Polled c left p after) {o : Output}
    (hclosed : (c.isOpen o && p.reading o != some .ended) = false) (hread : p.reading o = some .ended → after o = []) :
    after o = [] := by
  cases hopen : c.isOpen o with
  | true => exact hread (by simpa [hopen] using hclosed)
  | false =>
    -- an end that was closed is not read, so nothing has changed
    cases hp with
    | interrupted => exact hended o hopen
    | ready _ _ reads rests _ =>
      rw [rests o, hended o hopen]
      cases hr : (Poll.ready _ _ _).reading o with
      | none => rfl
      | some r => exact absurd (hopen.symm.trans (reads o r hr).1) Bool.false_ne_true

/-- one poll keeps the streams sound, and closes ends in time -/
theorem poll_sound {p : Poll} (h : Sound stream owed past c left) (hp : Polled c left p after) :
    ∃ c', c.poll p = (c', none) ∧ Sound stream owed (past ++ [p]) c' after ∧ ClosesInTime owed c p c' := by
  cases p with
  | failed fault => cases hp
  | interrupted =>
    cases hp
    refine ⟨c, rfl, h.append _, h.owing, ?_, ?_⟩
    · intro bytes hb
      simp [hb, Poll.writing]
    · intro o ho
      simp [ho, Poll.reading]
  | ready out err input =>
    obtain ⟨c₁, c₂, h₁, h₂, hpending, hwritten, hreads⟩ := reads_once hp
    have hwrites : ∀ x, input = some x → ∃ bytes, c₂.pending = some bytes ∧ x.Takes bytes := by
      cases hp with
      | ready _ _ _ _ writes => exact fun x hx => hpending ▸ writes x hx
    obtain ⟨c₃, h₃, w⟩ := write_once hwrites fun bytes hb => (h.owing bytes (hpending ▸ hb)).1
    have haccounts : (∀ bytes, c₃.pending = some bytes → bytes ≠ [] ∧ c₃.written ++ bytes = owed) ∧
        (c₃.pending = none → c₃.written <+: owed ∧ (c₃.written = owed ∨ Broken (past ++ [.ready out err input]))) := by
      refine WrittenOnce.accounts w ?_ ?_
      · rw [hpending, hwritten]
        exact h.owing
      · rw [hpending, hwritten]
        exact h.given
    refine ⟨c₃, by simp [poll, h₁, h₂, h₃], ⟨fun o => ?_, fun o ho => ?_, haccounts.1, haccounts.2⟩,
      h.owing, fun bytes hb => w.closes bytes (hpending ▸ hb), fun o ho => ?_⟩
    · rw [(w.outputs o).1, (hreads o).1, h.streams o]
    · rw [(w.outputs o).2, (hreads o).2.1] at ho
      exact ended_once h.ended hp ho (hreads o).2.2
    · rw [(w.outputs o).2, (hreads o).2.1, ho]
      simp

/-! ## a whole schedule -/

theorem run_of_isDone (h : c.isDone = true) (schedule : List Poll) : c.run schedule = (c, .finished) := by
  cases schedule <;> simp [run, h]

theorem run_nil (c : Carrying) : (c.run []).1 = c := by
  unfold run
  split <;> rfl

theorem run_cons {c' : Carrying} {p : Poll} (h : ¬ c.isDone = true) (hp : c.poll p = (c', none)) (rest : List Poll) :
    c.run (p :: rest) = c'.run rest := by
  rw [run, if_neg h]
  simp only [hp]

/-- carrying finishes only when everything is closed -/
theorem isDone_of_finished {schedule : List Poll} (h : (c.run schedule).2 = .finished) :
    (c.run schedule).1.isDone = true := by
  induction schedule generalizing c with
  | nil =>
    by_cases hdone : c.isDone = true
    · rw [run_nil]
      exact hdone
    · simp [run, hdone] at h
  | cons p rest ih =>
    by_cases hdone : c.isDone = true
    · rw [run_of_isDone hdone]
      exact hdone
    · cases hp : c.poll p with
      | mk c' f =>
        cases f with
        | none =>
          rw [run_cons hdone hp] at h ⊢
          exact ih h
        | some f =>
          rw [run, if_neg hdone] at h
          simp [hp] at h

/-- a legal schedule keeps the streams sound -/
theorem run_sound {schedule : List Poll} (legal : Legal c left schedule) (h : Sound stream owed past c left) :
    ∃ left', Sound stream owed (past ++ schedule) (c.run schedule).1 left' := by
  induction legal generalizing past with
  | nil c left =>
    rw [run_nil]
    exact ⟨left, h.append []⟩
  | @cons c left after p rest hp _ ih =>
    by_cases hdone : c.isDone = true
    · rw [run_of_isDone hdone]
      exact ⟨left, h.append _⟩
    · obtain ⟨c', hpoll, hsound, -⟩ := poll_sound h hp
      rw [hpoll] at ih
      rw [run_cons hdone hpoll, ← List.singleton_append, ← List.append_assoc]
      exact ih hsound

/-- when everything is closed, there is nothing to close -/
theorem closesInTime_of_isDone (h : c.isDone = true) (owed : Bytes) (p : Poll) : ClosesInTime owed c p c := by
  simp only [isDone, Bool.and_eq_true, Bool.not_eq_true', Option.isNone_iff_eq_none] at h
  obtain ⟨⟨hout, herr⟩, hpending⟩ := h
  refine ⟨by simp [hpending], by simp [hpending], fun o ho => ?_⟩
  cases o with
  | stdout => simp [isOpen, hout] at ho
  | stderr => simp [isOpen, herr] at ho

/-- at every poll of a legal schedule ends are closed in time -/
theorem run_closesInTime {before : List Poll} {p : Poll} (legal : Legal c left (before ++ [p]))
    (h : Sound stream owed past c left) : ClosesInTime owed (c.run before).1 p (c.run (before ++ [p])).1 := by
  induction before generalizing c left past with
  | nil =>
    cases legal with
    | cons hp _ =>
      rw [run_nil, List.nil_append]
      by_cases hdone : c.isDone = true
      · rw [run_of_isDone hdone]
        exact closesInTime_of_isDone hdone owed p
      · obtain ⟨c', hpoll, -, hcloses⟩ := poll_sound h hp
        rw [run_cons hdone hpoll, run_nil]
        exact hcloses
  | cons q before ih =>
    cases legal with
    | cons hq hrest =>
      by_cases hdone : c.isDone = true
      · rw [run_of_isDone hdone, run_of_isDone hdone]
        exact closesInTime_of_isDone hdone owed p
      · obtain ⟨c', hpoll, hsound, -⟩ := poll_sound h hq
        rw [hpoll] at hrest
        rw [List.cons_append, run_cons hdone hpoll, run_cons hdone hpoll]
        exact ih hrest hsound

end

end Carrying

/-! ## a session -/

/-- the payload that the shell has to write in a session: none, if there is no pipe for it or it has been written
before -/
def Session.owed (s : Session) (payload : Option Bytes) : Bytes :=
  if s.parentEnds.stdin.isSome then payload.getD [] else []

theorem Session.owed_eq_nil {s : Session} {payload : Option Bytes}
    (h : payload = none ∨ payload = some [] ∨ s.stdin = none ∨ s.feeds = false) : s.owed payload = [] := by
  rcases h with rfl | rfl | h | h
  · simp [Session.owed]
  · simp [Session.owed]
  · simp [Session.owed, Session.parentEnds, h]
  · simp [Session.owed, Session.parentEnds, h]

/-- what has become of a channel that was sent `content`: its callback has been handed it in chunks, none of them
empty, or its buffer holds it behind what was there -/
def Channel.Gained (before after : Channel) (content : Bytes) : Prop :=
  match before.handed with
  | some old => ∃ new : List Bytes, after = { before with handed := some (old ++ new) } ∧ new.flatten = content ∧
      ∀ chunk ∈ new, chunk ≠ []
  | none => after.handed = none ∧ after.buffer.bytes = before.buffer.bytes ++ content

theorem Streams.gained (s : Streams) (chunks : List (Output × Bytes)) (o : Output) :
    (s.channel o).Gained ((s.deliverAll chunks).channel o) (sentTo o chunks).flatten := by
  rw [channel_deliverAll, Channel.Gained]
  split
  · rename_i old hold
    have hchunks : ∀ chunk ∈ sentTo o chunks, chunk ≠ [] := fun chunk h => ne_nil_of_mem_sentTo h
    exact ⟨sentTo o chunks, Channel.foldl_deliver_some hold hchunks, rfl, hchunks⟩
  · rename_i hnone
    exact Channel.foldl_deliver_none hnone _

namespace Carrying

/-- everything was moved: what was sent to each stream is the stream, and the input was given the payload or, where
nobody read it any more, the front of it; all ends are closed -/
structure Delivered (stream : Output → Bytes) (owed : Bytes) (schedule : List Poll) (c : Carrying) : Prop where
  outputs : ∀ (io : Streams) o, (io.channel o).Gained
      ((io.deliverAll (drained (c, .finished)).chunks).channel o) (stream o)
  input : c.written <+: owed ∧ (c.written = owed ∨ Broken schedule)
  closed : (∀ o, c.isOpen o = false) ∧ c.pending = none

theorem start_sound (s : Session) (payload : Option Bytes) (stream : Output → Bytes) :
    Sound stream (s.owed payload) [] (start s.parentEnds.stdin.isSome payload) stream := by
  refine ⟨fun o => rfl, fun o ho => (by cases o <;> cases ho), fun bytes hb => ?_, fun hnone => ?_⟩
  · obtain ⟨rfl, hwriter, hne⟩ : payload = some bytes ∧ s.parentEnds.stdin.isSome = true ∧ bytes ≠ [] := by
      simpa [start, Option.filter_eq_some_iff] using hb
    exact ⟨hne, by simp [Session.owed, hwriter, start]⟩
  · have howed : s.owed payload = [] := by
      unfold Session.owed
      split
      · rename_i hwriter
        cases payload with
        | none => rfl
        | some bytes => simpa [start, hwriter, Option.filter_some] using hnone
      · rfl
    rw [howed]
    exact ⟨List.prefix_refl _, .inl rfl⟩

/-- **Carrying loses, doubles and reorders nothing.** Under any legal schedule, the streams of a session have given each
channel its bytes in their order when everything is closed, and the payload has been written, or the front of it if
nobody read the rest. Each end is closed in time, and without a payload the input is never open. -/
theorem run_delivers (s : Session) (payload : Option Bytes) {stream : Output → Bytes} {schedule : List Poll}
    {c : Carrying} (legal : Legal (start s.parentEnds.stdin.isSome payload) stream schedule)
    (hrun : (start s.parentEnds.stdin.isSome payload).run schedule = (c, .finished)) :
    Delivered stream (s.owed payload) schedule c ∧
    (∀ past p, past ++ [p] <+: schedule →
      ClosesInTime (s.owed payload) ((start s.parentEnds.stdin.isSome payload).run past).1 p
        ((start s.parentEnds.stdin.isSome payload).run (past ++ [p])).1) ∧
    ((payload = none ∨ payload = some [] ∨ s.stdin = none ∨ s.feeds = false) → ∀ past, past <+: schedule →
      ((start s.parentEnds.stdin.isSome payload).run past).1.pending = none) := by
  have hstart := start_sound s payload stream
  refine ⟨?_, ?_, ?_⟩
  · obtain ⟨left, hsound⟩ := run_sound legal hstart
    have hdone := isDone_of_finished (congrArg Prod.snd hrun)
    rw [hrun] at hsound hdone
    simp only [isDone, Bool.and_eq_true, Bool.not_eq_true', Option.isNone_iff_eq_none] at hdone
    obtain ⟨⟨hout, herr⟩, hpending⟩ := hdone
    have hclosed : ∀ o, c.isOpen o = false := by
      intro o
      cases o with
      | stdout => exact hout
      | stderr => exact herr
    refine ⟨fun io o => ?_, hsound.given hpending, hclosed, hpending⟩
    have hstream : c.received o = stream o := by
      rw [← hsound.streams o, hsound.ended o (hclosed o), List.append_nil]
    rw [← hstream]
    exact Streams.gained io _ o
  · rintro past p ⟨later, rfl⟩
    exact run_closesInTime legal.of_append hstart
  · rintro hnone past ⟨later, rfl⟩
    obtain ⟨left, hsound⟩ := run_sound legal.of_append hstart
    -- something would be pending, though nothing is owed
    cases hp : ((start s.parentEnds.stdin.isSome payload).run past).1.pending with
    | none => rfl
    | some bytes =>
      obtain ⟨hne, howed⟩ := hsound.owing bytes hp
      rw [Session.owed_eq_nil hnone] at howed
      exact absurd (List.append_eq_nil_iff.1 howed).2 hne

/-- a session with a pipe for each stream -/
def threefold : Session :=
  ⟨⟨.pipeReader 1, .pipeWriter 1⟩, ⟨.pipeReader 2, .pipeWriter 2⟩, some ⟨.pipeReader 3, .pipeWriter 3⟩, true⟩

/-- a schedule on which the output comes in two chunks, the errors are not ready at once, and the input is closed from
the other side after one byte -/
def unread : List Poll :=
  [.ready (some (.chunk [104])) (some .again) (some (.accepted 1)), .interrupted,
    .ready (some (.chunk [105, 10])) none (some .closed), .ready (some .ended) (some (.chunk [33])) none,
    .ready none (some .ended) none]

/-- what the children write on it -/
def hushed : Output → Bytes
  | .stdout => [104, 105, 10]
  | .stderr => [33]

theorem unread_legal : Legal (start threefold.parentEnds.stdin.isSome (some [1, 2])) hushed unread := by
  have hgives : ∀ (bytes rest : Bytes), bytes ≠ [] → bytes.length ≤ readChunk →
      Reading.Gives (bytes ++ rest) (.chunk bytes) rest := fun _ _ => .chunk
  refine .cons (.ready (fun | .stdout => [105, 10] | .stderr => [33]) (by simp) ?_ ?_ ?_) (.cons .interrupted
    (.cons (.ready (fun | .stdout => [] | .stderr => [33]) (by simp) ?_ ?_ ?_)
      (.cons (.ready (fun _ => []) (by simp) ?_ ?_ ?_)
        (.cons (.ready (fun _ => []) (by simp) ?_ ?_ ?_) (.nil _ _)))))
  -- what each poll reads, end by end, and then what it does not read and what it writes
  · rintro (_ | _) r ⟨⟩
    · exact ⟨rfl, hgives [104] [105, 10] (by decide) (by decide)⟩
    · exact ⟨rfl, .again _⟩
  · rintro (_ | _) ⟨⟩
  · rintro w ⟨⟩
    exact ⟨[1, 2], rfl, .accepted (by decide) (by decide)⟩
  · rintro (_ | _) r ⟨⟩
    exact ⟨rfl, hgives [105, 10] [] (by decide) (by decide)⟩
  · rintro (_ | _) ⟨⟩
    rfl
  · rintro w ⟨⟩
    exact ⟨[2], rfl, .closed⟩
  · rintro (_ | _) r ⟨⟩
    · exact ⟨rfl, .ended⟩
    · exact ⟨rfl, hgives [33] [] (by decide) (by decide)⟩
  · rintro (_ | _) ⟨⟩
  · rintro w ⟨⟩
  · rintro (_ | _) r ⟨⟩
    exact ⟨rfl, .ended⟩
  · rintro (_ | _) ⟨⟩
    rfl
  · rintro w ⟨⟩

/-- Both outputs arrive whole, and one byte of the payload has been written. -/
theorem run_delivers_unread :
    Legal (start threefold.parentEnds.stdin.isSome (some [1, 2])) hushed unread ∧
    ∃ c, (start threefold.parentEnds.stdin.isSome (some [1, 2])).run unread = (c, .finished) ∧
      Delivered hushed [1, 2] unread c ∧ c.written = [1] := by
  have hrun : ((start threefold.parentEnds.stdin.isSome (some [1, 2])).run unread).2 = .finished := by decide
  obtain ⟨hdelivered, -, -⟩ := run_delivers threefold (some [1, 2]) unread_legal (Prod.ext rfl hrun)
  exact ⟨unread_legal, _, Prod.ext rfl hrun, hdelivered, by decide⟩

end Carrying

end LineShell
