/-
What the shell itself sees of the world.

The shell looks at files only to open the targets of redirections and for its builtins, and never into them. So it sees
the outline of the files, in which each file is empty, beside the working directory and the environment: `World.seen`.

- `prepareWrite_outline`: opening for writing does to the outline of the files what it does to the files.
- `openTarget_alike`: where the same is seen, the target of a redirection is opened alike, or refused alike.
- `Builtin.run_alike`: where the same is seen, a builtin answers and prints alike, and goes to the same directory.
-/
import LineShell.Backend

namespace LineShell

/-! ## files without their contents -/

/-- a node without the content of a file -/
def Node.outline : Node → Node
  | .file _ mode => .file [] mode
  | n => n

namespace FileTree

/-- the tree with every file empty -/
def outline (t : FileTree) : FileTree := ⟨t.nodes.map Node.outline⟩

variable (t : FileTree)

@[simp] theorem node?_outline (i : Inode) : t.outline.node? i = (t.node? i).map Node.outline := by
  simp [node?, outline]

@[simp] theorem size_outline : t.outline.nodes.size = t.nodes.size := by simp [outline]

theorem setNode_outline (i : Inode) (n : Node) : (t.setNode i n).outline = t.outline.setNode i n.outline := by
  simp [setNode, outline, Array.map_setIfInBounds]

theorem addNode_outline (n : Node) : t.outline.addNode n.outline = ((t.addNode n).1, (t.addNode n).2.outline) := by
  simp [addNode, outline]

/-- writing into a file leaves the outline as it is -/
theorem outline_setNode_file {i : Inode} {content content' : Bytes} {mode : Nat}
    (h : t.node? i = some (.file content mode)) : (t.setNode i (.file content' mode)).outline = t.outline := by
  have hat : t.outline.nodes[i]? = some (.file [] mode) := by
    have := t.node?_outline i
    rw [h] at this
    exact this
  rw [setNode_outline]
  refine congrArg FileTree.mk (Array.ext_getElem? fun j => ?_)
  rw [Array.getElem?_setIfInBounds]
  split
  · rename_i hij
    subst hij
    obtain ⟨hlt, -⟩ := Array.getElem?_eq_some_iff.1 hat
    rw [if_pos hlt]
    exact hat.symm
  · rfl

/-! ### what a walk, a path and a name come to -/

theorem walkFrom_outline (followLast : Bool) (pass : Inode → List String → Except Errno Place) (pos : Inode)
    (steps : List String) : t.outline.walkFrom followLast pass pos steps = t.walkFrom followLast pass pos steps := by
  induction steps generalizing pos with
  | nil => rfl
  | cons name rest ih =>
    simp only [walkFrom, node?_outline, ih]
    cases t.node? pos with
    | none => rfl
    | some n =>
      cases n with
      | dir parent entries =>
        simp only [Option.map_some, Node.outline]
        cases entries.lookup name with
        | none => rfl
        | some i =>
          cases hi : t.node? i with
          | none => simp [hi]
          | some m => cases m <;> simp [hi, Node.outline]
      | _ => rfl

theorem walkWithin_outline (followLast : Bool) (links : Nat) :
    t.outline.walkWithin followLast links = t.walkWithin followLast links := by
  induction links with
  | zero => exact funext fun pos => funext (t.walkFrom_outline followLast _ pos)
  | succ links ih =>
    simp only [walkWithin, ih]
    exact funext fun pos => funext (t.walkFrom_outline followLast _ pos)

theorem walkSteps_outline (cwd : Inode) (path : String) (steps : List String) (followLast : Bool) :
    t.outline.walkSteps cwd path steps followLast = t.walkSteps cwd path steps followLast := by
  simp only [walkSteps, walkWithin_outline]

theorem resolve_outline (cwd : Inode) (path : String) : t.outline.resolve cwd path = t.resolve cwd path := by
  simp only [resolve, walk, walkSteps_outline]

theorem isDir_outline (i : Inode) : t.outline.isDir i = t.isDir i := by
  simp only [isDir, node?_outline]
  cases t.node? i with
  | none => rfl
  | some n => cases n <;> rfl

theorem namesTo_outline (fuel : Nat) (i : Inode) (below : List String) :
    t.outline.namesTo fuel i below = t.namesTo fuel i below := by
  induction fuel generalizing i below with
  | zero => rfl
  | succ fuel ih =>
    simp only [namesTo, node?_outline, ih]
    cases t.node? i with
    | none => rfl
    | some n =>
      cases n with
      | dir parent entries =>
        simp only [Option.map_some, Node.outline]
        cases t.node? parent with
        | none => rfl
        | some m => cases m <;> rfl
      | _ => rfl

theorem pathOf?_outline (i : Inode) : t.outline.pathOf? i = t.pathOf? i := by
  simp only [pathOf?, size_outline, namesTo_outline]

theorem isLinked_outline (i : Inode) : t.outline.isLinked i = t.isLinked i := by
  simp only [isLinked, node?_outline]
  cases t.node? i with
  | none => rfl
  | some n =>
    cases n with
    | dir parent entries =>
      simp only [Option.map_some, Node.outline]
      cases t.node? parent with
      | none => rfl
      | some m => cases m <;> rfl
    | _ => rfl

theorem link_outline (dir : Inode) (name : String) (i : Inode) :
    t.outline.link dir name i = (t.link dir name i).outline := by
  simp only [link, node?_outline]
  cases t.node? dir with
  | none => rfl
  | some n =>
    cases n with
    | dir parent entries => exact (t.setNode_outline dir (.dir parent (entries ++ [(name, i)]))).symm
    | _ => rfl

theorem create_outline (dir : Inode) (name : String) (n : Node) :
    t.outline.create dir name n.outline = (t.create dir name n).map fun r => (r.1, r.2.outline) := by
  simp only [create, isLinked_outline, addNode_outline]
  split
  · rw [link_outline]
    rfl
  · rfl

end FileTree

namespace World

/-- opening for writing does to the outline what it does to the files -/
theorem prepareWrite_outline (t : FileTree) (cwd : Inode) (path : String) (m : WriteMode) :
    prepareWrite t.outline cwd path m = (prepareWrite t cwd path m).map fun r => (r.1, r.2.outline) := by
  simp only [prepareWrite, FileTree.walkSteps_outline]
  cases t.walkSteps cwd path (Path.names path) true with
  | error e => rfl
  | ok place =>
    cases place with
    | free dir name =>
      simp only
      split
      · rfl
      · exact t.create_outline dir name (.file [] m.mode)
    | found i =>
      simp only [FileTree.node?_outline]
      cases t.node? i with
      | none => simp only [Option.map_none]; split <;> rfl
      | some n =>
        cases n with
        | dir parent entries => rfl
        | file content mode =>
          simp only [Option.map_some, Node.outline]
          split
          · rfl
          · simp only [Except.map]
            split
            · rw [FileTree.setNode_outline]
              rfl
            · rfl
        | _ => simp only [Option.map_some, Node.outline]; split <;> rfl

/-! ## what is seen -/

/-- what the shell sees of a world -/
def seen (w : World) : World := { files := w.files.outline, cwd := w.cwd, env := w.env }

section

variable {w w' : World} (h : w'.seen = w.seen)

include h

theorem outline_eq_of_seen : w'.files.outline = w.files.outline := by
  change w'.seen.files = w.seen.files
  rw [h]

theorem cwd_eq_of_seen : w'.cwd = w.cwd := by
  change w'.seen.cwd = w.seen.cwd
  rw [h]

theorem env_eq_of_seen : w'.env = w.env := by
  change w'.seen.env = w.seen.env
  rw [h]

theorem resolve_seen (path : String) : w'.resolve path = w.resolve path := by
  simp only [resolve]
  rw [← w'.files.resolve_outline, ← w.files.resolve_outline, outline_eq_of_seen h, cwd_eq_of_seen h]

theorem isDir_seen (i : Inode) : w'.files.isDir i = w.files.isDir i := by
  rw [← w'.files.isDir_outline, ← w.files.isDir_outline, outline_eq_of_seen h]

theorem workingDirectory_seen : w'.workingDirectory = w.workingDirectory := by
  simp only [workingDirectory]
  rw [← w'.files.pathOf?_outline, ← w.files.pathOf?_outline, outline_eq_of_seen h, cwd_eq_of_seen h]

end

/-- open the target of a redirection -/
def openTarget (w : World) (direction : Direction) (path : String) : Except IoFault (Descriptor × World) :=
  match direction with
  | .input => w.openRead path
  | .output => w.openWrite path redirectMode

/-- where the same is seen, a target is refused alike, or is the same file, in files with the same outline -/
theorem openTarget_alike {w w' : World} (h : w'.seen = w.seen) (direction : Direction) (path : String) :
    (∃ f, w.openTarget direction path = .error f ∧ w'.openTarget direction path = .error f) ∨
    ∃ i t t', t'.outline = t.outline ∧ w.openTarget direction path = .ok ({ w with files := t }.addOpen i) ∧
      w'.openTarget direction path = .ok ({ w' with files := t' }.addOpen i) := by
  cases direction with
  | input =>
    simp only [openTarget, openRead, resolve_seen h]
    cases w.resolve path with
    | error f => exact .inl ⟨f, rfl, rfl⟩
    | ok i => exact .inr ⟨i, w.files, w'.files, outline_eq_of_seen h, rfl, rfl⟩
  | output =>
    simp only [openTarget, openWrite]
    cases checkPath path with
    | error f => exact .inl ⟨f, rfl, rfl⟩
    | ok _ =>
      have hprepared : (prepareWrite w'.files w'.cwd path redirectMode).map (fun r => (r.1, r.2.outline)) =
          (prepareWrite w.files w.cwd path redirectMode).map (fun r => (r.1, r.2.outline)) := by
        rw [← prepareWrite_outline, ← prepareWrite_outline, outline_eq_of_seen h, cwd_eq_of_seen h]
      revert hprepared
      cases prepareWrite w.files w.cwd path redirectMode with
      | error e =>
        cases prepareWrite w'.files w'.cwd path redirectMode with
        | error e' =>
          intro hprepared
          obtain rfl : e' = e := Except.error.inj hprepared
          exact .inl ⟨_, rfl, rfl⟩
        | ok r' => exact nofun
      | ok r =>
        cases prepareWrite w'.files w'.cwd path redirectMode with
        | error e' => exact nofun
        | ok r' =>
          intro hprepared
          obtain ⟨hi, ht⟩ := Prod.mk.inj (Except.ok.inj hprepared)
          exact .inr ⟨r.1, r.2, r'.2, ht, rfl, by simp only [hi]⟩

end World

namespace Host

variable {σ : Type} {h : Host σ} {direction : Direction} {path : String}

theorem openTarget_of_ok {d : Descriptor} {w : World} (ho : h.world.openTarget direction path = .ok (d, w)) :
    h.openTarget direction path = (.ok d, { h with world := w }.note (.redirected direction path (.ok d))) := by
  cases direction <;> simp_all [openTarget, World.openTarget]

theorem openTarget_of_error {f : IoFault} (ho : h.world.openTarget direction path = .error f) :
    h.openTarget direction path = (.error (.redirect path f), h.note (.redirected direction path (.error f))) := by
  cases direction <;> simp_all [openTarget, World.openTarget]

end Host

/-! ## builtins -/

namespace Builtin

/-- where the same is seen, `cd` goes to the same directory or stays -/
theorem cdTo_alike {w w' : World} (h : w'.seen = w.seen) (target : String) :
    (cdTo target w').status = (cdTo target w).status ∧
    (((cdTo target w).world = w ∧ (cdTo target w').world = w') ∨
      ∃ v v', w.changeDirectory target = .ok v ∧ w'.changeDirectory target = .ok v' ∧
        (cdTo target w).world = v ∧ (cdTo target w').world = v') := by
  unfold cdTo World.changeDirectory
  rw [World.resolve_seen h]
  cases w.resolve target with
  | error f => exact ⟨rfl, .inl ⟨rfl, rfl⟩⟩
  | ok i =>
    simp only [World.isDir_seen h]
    cases w.files.isDir i with
    | false => exact ⟨rfl, .inl ⟨rfl, rfl⟩⟩
    | true => exact ⟨rfl, .inr ⟨_, _, rfl, rfl, rfl, rfl⟩⟩

theorem cdTarget_seen {w w' : World} (h : w'.seen = w.seen) (arg home : Option String) :
    cdTarget arg home w' = cdTarget arg home w := by
  have henv : w'.getEnv? = w.getEnv? := by
    funext name
    simp only [World.getEnv?, World.env_eq_of_seen h]
  simp only [cdTarget, homeDirectory, henv]

/-- Where the same is seen, a builtin has the same status and prints the same, and it changes both worlds by going to
one directory, or neither. -/
theorem run_alike {w w' : World} (h : w'.seen = w.seen) (b : Builtin) (args : List String) (lastStatus : Int)
    (home : Option String) :
    (b.run args lastStatus home w').status = (b.run args lastStatus home w).status ∧
    (b.run args lastStatus home w').out = (b.run args lastStatus home w).out ∧
    (((b.run args lastStatus home w).world = w ∧ (b.run args lastStatus home w').world = w') ∨
      ∃ path v v', w.changeDirectory path = .ok v ∧ w'.changeDirectory path = .ok v' ∧
        (b.run args lastStatus home w).world = v ∧ (b.run args lastStatus home w').world = v') := by
  cases b with
  | cd =>
    simp only [run, runCd, cdTarget_seen h]
    split
    · exact ⟨rfl, rfl, .inl ⟨rfl, rfl⟩⟩
    · split
      · exact ⟨rfl, rfl, .inl ⟨rfl, rfl⟩⟩
      · rename_i target _
        obtain ⟨hstatus, hstays | ⟨v, v', hv⟩⟩ := cdTo_alike h target
        · exact ⟨hstatus, by rw [cdTo_out, cdTo_out], .inl hstays⟩
        · exact ⟨hstatus, by rw [cdTo_out, cdTo_out], .inr ⟨target, v, v', hv⟩⟩
  | exit =>
    simp only [run, runExit]
    split
    · exact ⟨rfl, rfl, .inl ⟨rfl, rfl⟩⟩
    · split <;> exact ⟨rfl, rfl, .inl ⟨rfl, rfl⟩⟩
  | pwd =>
    simp only [run, runPwd, World.workingDirectory_seen h]
    split <;> exact ⟨rfl, rfl, .inl ⟨rfl, rfl⟩⟩

end Builtin

end LineShell
