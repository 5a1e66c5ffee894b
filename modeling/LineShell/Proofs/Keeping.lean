/-
Backends that go by what they are asked.

Where a child's output goes makes no difference to a backend that answers by what it has been asked for and by what
the shell sees of the world. Two runs of the same statements then stay alike, also if only the second captures. The
children of the second may be ahead for a while, as draining a session lets them run before they are waited for; what
they do to the world then has been done in both runs once all of them have been waited for.

- `World.Receives`: descriptors that accept a builtin's output in two worlds alike.
- `Backend.Keeps`: two relations between runs that every call keeps, and over which calls are answered alike.
- `Backend.Keeps.indifferent`: a backend that keeps them is indifferent to capturing.
-/
import LineShell.Proofs.Likeness

namespace LineShell

/-! ## what leaves the seen world as it is -/

namespace World

variable (w : World)

@[simp] theorem seen_writeHost (o : Output) (chunk : Bytes) : (w.writeHost o chunk).seen = w.seen := by cases o <;> rfl

@[simp] theorem seen_close (d : Descriptor) : (w.close d).seen = w.seen := by cases d <;> rfl

@[simp] theorem seen_duplicate (d : Descriptor) : (w.duplicate d).seen = w.seen := by cases d <;> rfl

@[simp] theorem seen_advance (n : Nat) (d : Option Descriptor) : (w.advance n d).seen = w.seen := by
  cases d with
  | none => rfl
  | some d => cases d <;> rfl

variable {w}

theorem seen_writeOpen {k : Nat} {chunk : Bytes} {v : World} (h : w.writeOpen k chunk = .ok v) : v.seen = w.seen := by
  unfold writeOpen at h
  split at h
  · cases h
  · split at h
    · rename_i hnode
      obtain rfl := Except.ok.inj h
      simp only [seen, w.files.outline_setNode_file hnode]
    · split at h
      · exact congrArg seen (Except.ok.inj h).symm
      · cases h
    · exact congrArg seen (Except.ok.inj h).symm
    · cases h

theorem seen_write {d : Descriptor} {chunk : Bytes} {v : World} (h : w.write d chunk = .ok v) : v.seen = w.seen := by
  cases d with
  | pipeReader n => cases h
  | pipeWriter n =>
    simp only [write] at h
    split at h
    · cases h
    · split at h
      · cases h
      · obtain rfl := Except.ok.inj h
        rfl
  | file k => exact seen_writeOpen h

theorem seen_foldl {α : Type} {f : World → α → World} (hf : ∀ w a, (f w a).seen = w.seen) (as : List α) :
    (as.foldl f w).seen = w.seen := by
  induction as generalizing w with
  | nil => rfl
  | cons a as ih => exact ih.trans (hf w a)

theorem changeDirectory_eq_ok {path : String} {v : World} (h : w.changeDirectory path = .ok v) :
    ∃ i, w.resolve path = .ok i ∧ v = { w with cwd := i } := by
  unfold changeDirectory at h
  split at h
  · cases h
  · rename_i i hi
    split at h
    · exact ⟨i, hi, (Except.ok.inj h).symm⟩
    · cases h

/-! ## where a builtin's output goes -/

/-- descriptors that receive output in the two worlds alike: writers of pipes that can be read, or one file -/
inductive Receives (w w' : World) : Descriptor → Descriptor → Prop
  | pipes {n n' : Nat} {p p' : PipeState} (hp : w.pipe? n = some p) (hp' : w'.pipe? n' = some p')
      (hreaders : p.readers ≠ 0) (hreaders' : p'.readers ≠ 0) : Receives w w' (.pipeWriter n) (.pipeWriter n')
  | files {k k' : Nat} {f f' : OpenFile} (hf : w.openFiles[k]? = some f) (hf' : w'.openFiles[k']? = some f')
      (hinode : f'.inode = f.inode) : Receives w w' (.file k) (.file k')

variable {w' : World} {d d' : Descriptor}

/-- what receives output still does when files have been opened -/
theorem Receives.mono {v v' : World} (h : Receives w w' d d') (hpipes : v.pipes = w.pipes)
    (hpipes' : v'.pipes = w'.pipes) (hopen : ∀ (k : Nat) f, w.openFiles[k]? = some f → v.openFiles[k]? = some f)
    (hopen' : ∀ (k : Nat) f, w'.openFiles[k]? = some f → v'.openFiles[k]? = some f) : Receives v v' d d' := by
  cases h with
  | pipes hp hp' hreaders hreaders' =>
    refine .pipes ?_ ?_ hreaders hreaders'
    · rw [pipe?, hpipes]
      exact hp
    · rw [pipe?, hpipes']
      exact hp'
  | files hf hf' hinode => exact .files (hopen _ _ hf) (hopen' _ _ hf') hinode

/-- it does so whatever happens to the rest of the worlds -/
theorem Receives.kept {v v' : World} (h : Receives w w' d d') (hpipes : v.pipes = w.pipes)
    (hopen : v.openFiles = w.openFiles) (hpipes' : v'.pipes = w'.pipes) (hopen' : v'.openFiles = w'.openFiles) :
    Receives v v' d d' :=
  h.mono hpipes hpipes' (fun _ _ hk => hopen ▸ hk) fun _ _ hk => hopen' ▸ hk

theorem pipe?_updatePipe (w : World) (k : Nat) (f : PipeState → PipeState) (n : Nat) :
    (w.updatePipe k f).pipe? n = (w.pipe? n).map fun p => if n = k then f p else p := by
  simp only [pipe?, updatePipe]
  induction w.pipes with
  | nil => rfl
  | cons q rest ih =>
    obtain ⟨m, p⟩ := q
    have hhead : (if m = k then (m, f p) else (m, p)) = (m, if m = k then f p else p) := by split <;> rfl
    rw [List.map_cons, hhead, List.lookup_cons, List.lookup_cons, ih]
    cases hm : n == m with
    | true =>
      obtain rfl := eq_of_beq hm
      rfl
    | false => rfl

/-- another holder of a descriptor takes no reader from a pipe -/
theorem exists_pipe?_duplicate {n : Nat} {p : PipeState} (hp : w.pipe? n = some p) (hreaders : p.readers ≠ 0)
    (x : Descriptor) : ∃ p', (w.duplicate x).pipe? n = some p' ∧ p'.readers ≠ 0 := by
  cases x with
  | pipeReader k =>
    rw [duplicate, pipe?_updatePipe, hp, Option.map_some]
    split
    · exact ⟨_, rfl, Nat.succ_ne_zero _⟩
    · exact ⟨_, rfl, hreaders⟩
  | pipeWriter k =>
    rw [duplicate, pipe?_updatePipe, hp, Option.map_some]
    split
    · exact ⟨_, rfl, hreaders⟩
    · exact ⟨_, rfl, hreaders⟩
  | file k => exact ⟨p, hp, hreaders⟩

theorem Receives.duplicated (h : Receives w w' d d') (x x' : Descriptor) :
    Receives (w.duplicate x) (w'.duplicate x') d d' := by
  have hfiles : ∀ (v : World) (y : Descriptor), (v.duplicate y).openFiles = v.openFiles := by
    intro v y
    cases y <;> rfl
  cases h with
  | pipes hp hp' hreaders hreaders' =>
    obtain ⟨p, hp, hreaders⟩ := exists_pipe?_duplicate hp hreaders x
    obtain ⟨p', hp', hreaders'⟩ := exists_pipe?_duplicate hp' hreaders' x'
    exact .pipes hp hp' hreaders hreaders'
  | files hf hf' hinode => exact .files (by rwa [hfiles]) (by rwa [hfiles]) hinode

/-- a file that has been opened in both worlds -/
theorem receives_addOpen (w w' : World) (i : Inode) :
    Receives (w.addOpen i).2 (w'.addOpen i).2 (w.addOpen i).1 (w'.addOpen i).1 :=
  have hnew : ∀ v : World, (v.addOpen i).2.openFiles[v.openFiles.size]? = some ⟨i, 0⟩ := by simp [addOpen]
  .files (hnew w) (hnew w') rfl

/-- a descriptor of a pipe that somebody can read, and so takes what is written to it -/
def Takes (w : World) (d : Descriptor) : Prop := ∃ n p, d = .pipeWriter n ∧ w.pipe? n = some p ∧ p.readers ≠ 0

theorem Takes.receives (h : w.Takes d) (h' : w'.Takes d') : Receives w w' d d' := by
  obtain ⟨n, p, rfl, hp, hreaders⟩ := h
  obtain ⟨n', p', rfl, hp', hreaders'⟩ := h'
  exact .pipes hp hp' hreaders hreaders'

/-- a pipe that has just been made takes what is written to it -/
theorem takes_addPipe (w : World) (n : Nat) : (w.addPipe n).2.Takes (w.addPipe n).1.writer :=
  ⟨n, {}, rfl, by simp [addPipe, pipe?], by decide⟩

/-- what goes to one file is accepted in both worlds, or refused in both -/
theorem writeOpen_alike (h : w'.seen = w.seen) {k k' : Nat} {f f' : OpenFile} (hf : w.openFiles[k]? = some f)
    (hf' : w'.openFiles[k']? = some f') (hinode : f'.inode = f.inode) (chunk : Bytes) :
    (∃ v v', w.writeOpen k chunk = .ok v ∧ w'.writeOpen k' chunk = .ok v') ∨
    ∃ n, w.writeOpen k chunk = .error n ∧ w'.writeOpen k' chunk = .error n := by
  have hnode : (w'.files.node? f.inode).map Node.outline = (w.files.node? f.inode).map Node.outline := by
    rw [← FileTree.node?_outline, ← FileTree.node?_outline, outline_eq_of_seen h]
  unfold writeOpen
  simp only [hf, hf', hinode]
  revert hnode
  cases w.files.node? f.inode with
  | none =>
    cases w'.files.node? f.inode with
    | none => exact fun _ => .inr ⟨_, rfl, rfl⟩
    | some n' => exact nofun
  | some n =>
    cases w'.files.node? f.inode with
    | none => exact nofun
    | some n' =>
      intro hnode
      have houtline : n'.outline = n.outline := Option.some.inj hnode
      cases n <;> cases n' <;> simp only [Node.outline, reduceCtorEq] at houtline
      case file => exact .inl ⟨_, _, rfl, rfl⟩
      case device device device' =>
        obtain rfl : device' = device := Node.device.inj houtline
        cases device' with
        | full =>
          simp only
          split
          · exact .inl ⟨_, _, rfl, rfl⟩
          · exact .inr ⟨_, rfl, rfl⟩
        | _ => exact .inl ⟨_, _, rfl, rfl⟩
      all_goals exact .inr ⟨_, rfl, rfl⟩

/-- what goes to a sink is accepted in both worlds, or refused in both -/
theorem Receives.write_alike (hsink : Receives w w' d d') (h : w'.seen = w.seen) (chunk : Bytes) :
    (∃ v v', w.write d chunk = .ok v ∧ w'.write d' chunk = .ok v') ∨
    ∃ n, w.write d chunk = .error n ∧ w'.write d' chunk = .error n := by
  cases hsink with
  | pipes hp hp' hreaders hreaders' =>
    simp only [write, hp, hp', if_neg hreaders, if_neg hreaders']
    exact .inl ⟨_, _, rfl, rfl⟩
  | files hf hf' hinode => exact writeOpen_alike h hf hf' hinode chunk

end World

/-! ## relations that every call keeps -/

variable {σ : Type}

/-- Calls keep two runs alike and are answered alike in both: a child by its arguments and by whether it runs in the
background, wherever its streams go. `same` holds while the shell launches, with the children that are to be waited
for; `ahead` holds from the draining of the second run's session, with those that still are. Pipes can be made and
written to, and sessions without a payload drained, and it makes no difference when a pipe is made in the second run
alone. -/
structure Backend.Keeps (b : Backend σ) (same ahead : List Pid → σ × World → σ × World → Prop) : Prop where
  seen {pids c c'} : same pids c c' → c'.2.seen = c.2.seen
  /-- the shell may do anything to the worlds that leaves it seeing the same in both -/
  changed {pids c c' v v'} : same pids c c' → v'.seen = v.seen → same pids (c.1, v) (c'.1, v')
  piped {pids c c'} : same pids c c' →
    ∃ p p', (b.pipe c.1 c.2).1 = .ok p ∧ (b.pipe c'.1 c'.2).1 = .ok p' ∧
      World.Receives (b.pipe c.1 c.2).2.2 (b.pipe c'.1 c'.2).2.2 p.writer p'.writer ∧
      same pids (b.pipe c.1 c.2).2 (b.pipe c'.1 c'.2).2
  endPiped {pids c c'} : same pids c c' → ∃ p, (b.pipe c'.1 c'.2).1 = .ok p ∧ same pids c (b.pipe c'.1 c'.2).2
  spawned {pids c c' r r'} : same pids c c' → r'.argv = r.argv → r'.background = r.background →
    (b.spawn r' c'.1 c'.2).1 = (b.spawn r c.1 c.2).1 ∧
      same (pids ++ (b.spawn r c.1 c.2).1.toOption.toList) (b.spawn r c.1 c.2).2 (b.spawn r' c'.1 c'.2).2
  detached {pids c c'} (pid : Pid) : same (pids ++ [pid]) c c' →
      same pids (b.detach pid c.1 c.2) (b.detach pid c'.1 c'.2)
  drained {pids c c'} (ends : ParentEnds) : ends.stdin = none → same pids c c' →
    (b.drain ends none c'.1 c'.2).1.result = .ok () ∧ ahead pids c (b.drain ends none c'.1 c'.2).2
  shut {pids c c' v'} : ahead pids c c' → v'.seen = c'.2.seen → ahead pids c (c'.1, v')
  waited {pids c c'} (pid : Pid) : ahead (pid :: pids) c c' →
    (b.wait pid c'.1 c'.2).1 = (b.wait pid c.1 c.2).1 ∧ ahead pids (b.wait pid c.1 c.2).2 (b.wait pid c'.1 c'.2).2
  settled {c c'} : ahead [] c c' → same [] c c'

/-- children have the same numbers in both runs, and a sink receives output in both alike -/
def Likeness.level (same ahead : List Pid → σ × World → σ × World → Prop) : Likeness σ where
  launching S c c' := same (S.children.map Prod.fst) c c' ∧ (∀ p ∈ S.children, p.2 = p.1) ∧
    ∀ d d', S.sink = some (d, d') → World.Receives c.2 c'.2 d d'
  settling children _ c c' := ahead (children.map Prod.fst) c c' ∧ ∀ p ∈ children, p.2 = p.1

theorem Likeness.level_numbers (same ahead : List Pid → σ × World → σ × World → Prop) :
    (Likeness.level same ahead).Numbers fun pid pid' => pid' = pid :=
  fun h => h.2.1

namespace Backend.Keeps

variable {b : Backend σ} {same ahead : List Pid → σ × World → σ × World → Prop} (hb : b.Keeps same ahead) {S : Standing}
  {c c' : σ × World}

/-- without a sink nothing has to receive output -/
theorem receives_of_no_sink (hsink : S.sink = none) (w w' : World) :
    ∀ d d', S.sink = some (d, d') → World.Receives w w' d d' := by
  intro d d' hd
  rw [hsink] at hd
  cases hd

include hb

/-- the worlds are changed, and what is seen of them is not -/
theorem unseen {pids : List Pid} (h : same pids c c') {v v' : World} (hv : v.seen = c.2.seen)
    (hv' : v'.seen = c'.2.seen) : same pids (c.1, v) (c'.1, v') :=
  hb.changed h (by rw [hv, hv', hb.seen h])

/-- the target of a redirection, opened in both runs -/
theorem opened {direction : Direction} {path : String} {d d' : Descriptor} {v v' : World}
    (h : (Likeness.level same ahead).launching S c c') (ho : c.2.openTarget direction path = .ok (d, v))
    (ho' : c'.2.openTarget direction path = .ok (d', v')) :
    (Likeness.level same ahead).launching (S.opened direction d d') (c.1, v) (c'.1, v') := by
  obtain ⟨hsame, hchildren, hsink⟩ := h
  have hseen := hb.seen hsame
  rcases World.openTarget_alike hseen direction path with ⟨f, hf, -⟩ | ⟨i, t, t', ht, hopen, hopen'⟩
  · exact absurd (hf.symm.trans ho) nofun
  · obtain ⟨rfl, rfl⟩ := Prod.mk.inj (Except.ok.inj (hopen.symm.trans ho))
    obtain ⟨rfl, rfl⟩ := Prod.mk.inj (Except.ok.inj (hopen'.symm.trans ho'))
    refine ⟨hb.changed hsame ?_, hchildren, fun d d' hd => ?_⟩
    · simp only [World.seen, ht, World.cwd_eq_of_seen hseen, World.env_eq_of_seen hseen]
    · cases direction with
      | output =>
        obtain ⟨rfl, rfl⟩ := Prod.mk.inj (Option.some.inj hd)
        exact World.receives_addOpen { c.2 with files := t } { c'.2 with files := t' } i
      | input =>
        have hpush : ∀ (w : World) (k : Nat) (f : OpenFile), w.openFiles[k]? = some f →
            (w.openFiles.push ⟨i, 0⟩)[k]? = some f := by
          intro w k f hk
          obtain ⟨hlt, -⟩ := Array.getElem?_eq_some_iff.1 hk
          rw [Array.getElem?_push_lt hlt, ← hk, Array.getElem?_eq_getElem hlt]
        exact (hsink d d' hd).mono rfl rfl (hpush c.2) (hpush c'.2)

/-- one directory has been entered in both runs -/
theorem entered {path : String} {v v' : World} (h : (Likeness.level same ahead).launching S c c')
    (hv : c.2.changeDirectory path = .ok v) (hv' : c'.2.changeDirectory path = .ok v') :
    (Likeness.level same ahead).launching S (c.1, v) (c'.1, v') := by
  obtain ⟨hsame, hchildren, hsink⟩ := h
  have hseen := hb.seen hsame
  obtain ⟨i, hi, rfl⟩ := World.changeDirectory_eq_ok hv
  obtain ⟨i', hi', rfl⟩ := World.changeDirectory_eq_ok hv'
  obtain rfl : i = i' := Except.ok.inj (hi.symm.trans ((World.resolve_seen hseen path).symm.trans hi'))
  refine ⟨hb.changed hsame ?_, hchildren, fun d d' hd => (hsink d d' hd).kept rfl rfl rfl rfl⟩
  simp only [World.seen, World.outline_eq_of_seen hseen, World.env_eq_of_seen hseen]

/-- a child that was asked for in both runs is started in both with one number, or refused in both -/
theorem launched {r r' : SpawnRequest} (h : (Likeness.level same ahead).launching S c c') (hr : S.Requests r r') :
    (∃ pid pid', (b.spawn r c.1 c.2).1 = .ok pid ∧ (b.spawn r' c'.1 c'.2).1 = .ok pid' ∧
      (Likeness.level same ahead).launching (S.launched [(pid, pid')]) (b.spawn r c.1 c.2).2 (b.spawn r' c'.1 c'.2).2) ∨
    ∃ f, (b.spawn r c.1 c.2).1 = .error f ∧ (b.spawn r' c'.1 c'.2).1 = .error f ∧
      (Likeness.level same ahead).launching (S.launched []) (b.spawn r c.1 c.2).2 (b.spawn r' c'.1 c'.2).2 := by
  obtain ⟨hanswer, hsame⟩ := hb.spawned h.1 hr.argv hr.background
  cases hspawn : (b.spawn r c.1 c.2).1 with
  | error f =>
    rw [hspawn, Except.toOption, Option.toList_none, List.append_nil] at hsame
    refine .inr ⟨f, rfl, hanswer.trans hspawn, ?_, by simpa [Standing.launched] using h.2.1,
      receives_of_no_sink rfl _ _⟩
    rwa [Standing.launched, List.append_nil]
  | ok pid =>
    rw [hspawn] at hsame
    refine .inl ⟨pid, pid, rfl, hanswer.trans hspawn, ?_, fun p hp => ?_, receives_of_no_sink rfl _ _⟩
    · rwa [Standing.launched, List.map_append]
    · rcases List.mem_append.1 hp with hp | hp
      · exact h.2.1 p hp
      · obtain rfl := List.mem_singleton.1 hp
        rfl

/-- **A backend that keeps its runs alike is indifferent to capturing.** -/
theorem indifferent : b.Indifferent (Likeness.level same ahead) where
  seen h := hb.seen h.1
  released h := ⟨h.1, h.2.1, receives_of_no_sink rfl _ _⟩
  opened := hb.opened
  entered := hb.entered
  written chunk h hd := by
    obtain ⟨hsame, hchildren, hsink⟩ := h
    rcases (hsink _ _ hd).write_alike (hb.seen hsame) chunk with ⟨v, v', hv, hv'⟩ | hrefused
    · exact .inl ⟨v, v', hv, hv', hb.unseen hsame (World.seen_write hv) (World.seen_write hv'), hchildren,
        receives_of_no_sink rfl v v'⟩
    · exact .inr hrefused
  told o chunk h := by
    refine ⟨hb.unseen h.1 (World.seen_writeHost _ o chunk) rfl, h.2.1, fun d d' hd => ?_⟩
    cases o <;> exact (h.2.2 d d' hd).kept rfl rfl rfl rfl
  passedOn o chunk h := by
    refine ⟨hb.unseen h.1 rfl (World.seen_writeHost _ o chunk), h.2.1, fun d d' hd => ?_⟩
    cases o <;> exact (h.2.2 d d' hd).kept rfl rfl rfl rfl
  duplicated _ h :=
    ⟨hb.unseen h.1 (World.seen_duplicate _ _) (World.seen_duplicate _ _), h.2.1,
      fun d d' hd => (h.2.2 d d' hd).duplicated _ _⟩
  closed hsink h :=
    ⟨hb.unseen h.1 (World.seen_close _ _) (World.seen_close _ _), h.2.1, receives_of_no_sink hsink _ _⟩
  endClosed hsink h := ⟨hb.unseen h.1 rfl (World.seen_close _ _), h.2.1, receives_of_no_sink hsink _ _⟩
  piped {S c c'} h := by
    obtain ⟨p, p', hp, hp', hreceives, hsame⟩ := hb.piped h.1
    refine ⟨p, p', hp, hp', hsame, h.2.1, fun d d' hd => ?_⟩
    obtain ⟨rfl, rfl⟩ := Prod.mk.inj (Option.some.inj hd)
    exact hreceives
  endPiped hsink h := by
    obtain ⟨p, hp, hsame⟩ := hb.endPiped h.1
    exact ⟨p, hp, hsame, h.2.1, receives_of_no_sink hsink _ _⟩
  spawned h hr := hb.launched h hr
  detached {S c c' pid pid'} h := by
    obtain rfl : pid' = pid := h.2.1 (pid, pid') (List.mem_append_right _ List.mem_cons_self)
    have hsame : same (S.children.map Prod.fst ++ [pid']) c c' := by
      have hsame := h.1
      rwa [Standing.launched, List.map_append] at hsame
    refine ⟨?_, fun p hp => h.2.1 p (by simp_all [Standing.launched]), receives_of_no_sink rfl _ _⟩
    rw [Standing.launched, List.append_nil]
    exact hb.detached pid' hsame
  drained hstdin h := ⟨(hb.drained _ hstdin h.1).1, (hb.drained _ hstdin h.1).2, h.2.1⟩
  endShut h := ⟨hb.shut h.1 (World.seen_close _ _), h.2⟩
  waited {children pid pid' c c'} h := by
    obtain rfl : pid' = pid := h.2 (pid, pid') List.mem_cons_self
    exact ⟨(hb.waited pid' h.1).1, (hb.waited pid' h.1).2, fun p hp => h.2 p (List.mem_cons_of_mem _ hp)⟩
  settled h := ⟨hb.settled h.1, fun _ hp => absurd hp List.not_mem_nil, receives_of_no_sink rfl _ _⟩

end Backend.Keeps

end LineShell
