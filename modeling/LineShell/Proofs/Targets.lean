/-
What opening a file for writing leaves.

A redirection of output opens its target, which is created if nothing lies at its path, and emptied if a file does.
Either way the path leads afterwards to the file that was opened, and nothing is in it. Steps that have led to a free
name lead to the file when one is created there (`Created.leads`); and emptying a file leaves the outline of the tree,
along which paths are walked, as it is.

- `openWrite_emptied`: where the opened file lies, and what is in it.
-/
import LineShell.Proofs.Outline
import LineShell.Proofs.Resolution

namespace LineShell

namespace FileTree

/-! ## a file that is created -/

/-- `t'` is `t` with the new and empty file `i` of the name `name` in the directory `dir` -/
structure Created (t t' : FileTree) (dir : Inode) (name : String) (i : Inode) : Prop where
  absent : t.node? i = none
  file : ∃ mode, t'.node? i = some (.file [] mode)
  listed : ∃ parent entries, t.node? dir = some (.dir parent entries) ∧
    t'.node? dir = some (.dir parent (entries ++ [(name, i)]))
  others : ∀ j, j ≠ dir → j ≠ i → t'.node? j = t.node? j

theorem node?_setNode_self {t : FileTree} {i : Inode} {m : Node} (h : t.node? i = some m) (n : Node) :
    (t.setNode i n).node? i = some n := by
  obtain ⟨hi, -⟩ := Array.getElem?_eq_some_iff.1 h
  simp [node?, setNode, hi]

theorem node?_setNode_ne {t : FileTree} {i j : Inode} (h : j ≠ i) (n : Node) : (t.setNode i n).node? j = t.node? j := by
  simp only [node?, setNode]
  exact Array.getElem?_setIfInBounds_ne (Ne.symm h)

theorem node?_addNode_self (t : FileTree) (n : Node) : (t.addNode n).2.node? (t.addNode n).1 = some n := by
  simp [node?, addNode]

theorem node?_addNode_ne {t : FileTree} {j : Inode} {n : Node} (h : j ≠ (t.addNode n).1) :
    (t.addNode n).2.node? j = t.node? j := by
  simp only [addNode] at h
  simp only [node?, addNode, Array.getElem?_push, if_neg h]

theorem create_created {t t' : FileTree} {dir i parent : Inode} {name : String} {entries : List (String × Inode)}
    {mode : Nat}
    (hdir : t.node? dir = some (.dir parent entries)) (h : t.create dir name (.file [] mode) = .ok (i, t')) :
    Created t t' dir name i := by
  unfold create at h
  split at h
  · cases h
    have hne : dir ≠ (t.addNode (.file [] mode)).1 := by
      obtain ⟨hlt, -⟩ := Array.getElem?_eq_some_iff.1 hdir
      exact Nat.ne_of_lt hlt
    have hadded : (t.addNode (.file [] mode)).2.node? dir = some (.dir parent entries) := by
      rw [node?_addNode_ne hne, hdir]
    have hlink : (t.addNode (.file [] mode)).2.link dir name (t.addNode (.file [] mode)).1 =
        (t.addNode (.file [] mode)).2.setNode dir
          (.dir parent (entries ++ [(name, (t.addNode (.file [] mode)).1)])) := by
      simp only [link, hadded]
    change Created t ((t.addNode (.file [] mode)).2.link dir name (t.addNode (.file [] mode)).1) dir name
      (t.addNode (.file [] mode)).1
    rw [hlink]
    refine ⟨?_, ⟨mode, ?_⟩, ⟨parent, entries, hdir, node?_setNode_self hadded _⟩, ?_⟩
    · simp [node?, addNode]
    · rw [node?_setNode_ne hne.symm, node?_addNode_self]
    · intro j hj hi
      rw [node?_setNode_ne hj, node?_addNode_ne hi]
  · cases h

section

variable {t t' : FileTree} {dir i : Inode} {name : String}

/-- every other name of a directory still has its number -/
theorem Created.entries (h : Created t t' dir name i) {j parent : Inode} {entries : List (String × Inode)}
    (hj : t.node? j = some (.dir parent entries)) :
    ∃ later, t'.node? j = some (.dir parent (entries ++ later)) ∧ (j = dir → later = [(name, i)]) := by
  by_cases hdir : j = dir
  · subst hdir
    obtain ⟨parent', entries', hold, hnew⟩ := h.listed
    obtain ⟨rfl, rfl⟩ := Node.dir.inj (Option.some.inj (hj.symm.trans hold))
    exact ⟨[(name, i)], hnew, fun _ => rfl⟩
  · have hi : j ≠ i := by
      rintro rfl
      rw [h.absent] at hj
      cases hj
    refine ⟨[], ?_, fun hj' => absurd hj' hdir⟩
    rw [h.others j hdir hi, hj, List.append_nil]

/-- the links are the same as before -/
theorem Created.link_iff (h : Created t t' dir name i) (j : Inode) (target : String) :
    t'.node? j = some (.link target) ↔ t.node? j = some (.link target) := by
  by_cases hdir : j = dir
  · obtain ⟨parent, entries, hold, hnew⟩ := h.listed
    simp [hdir, hold, hnew]
  · by_cases hi : j = i
    · obtain ⟨mode, hfile⟩ := h.file
      simp [hi, hfile, h.absent]
    · rw [h.others j hdir hi]

/-- where the steps have led to the free name, they lead to the file -/
theorem Created.leads (h : Created t t' dir name i) {n : Nat} {pos : Inode} {steps : List String}
    (hleads : Leads t n pos steps (.free dir name)) : Leads t' n pos steps (.found i) := by
  generalize hp : Place.free dir name = p at hleads
  induction hleads with
  | arrive pos => cases hp
  | @free pos parent entries name' hpos hname hlookup =>
    obtain ⟨rfl, rfl⟩ := Place.free.inj hp
    obtain ⟨later, hpos', hlater⟩ := h.entries hpos
    obtain ⟨mode, hfile⟩ := h.file
    refine .enter hpos' hname ?_ (by simp [hfile]) (.arrive i)
    rw [hlater rfl, List.lookup_append, hlookup]
    simp
  | stay hpos _ ih =>
    obtain ⟨later, hpos', -⟩ := h.entries hpos
    exact .stay hpos' (ih hp)
  | up hpos _ ih =>
    obtain ⟨later, hpos', -⟩ := h.entries hpos
    exact .up hpos' (ih hp)
  | enter hpos hname hlookup hlink _ ih =>
    obtain ⟨later, hpos', -⟩ := h.entries hpos
    refine .enter hpos' hname ?_ (fun target hlink' => hlink target ((h.link_iff _ target).1 hlink')) (ih hp)
    rw [List.lookup_append, hlookup]
    rfl
  | follow hpos hname hlookup hlink htarget _ ih =>
    obtain ⟨later, hpos', -⟩ := h.entries hpos
    refine .follow hpos' hname ?_ ((h.link_iff _ _).2 hlink) htarget (ih hp)
    rw [List.lookup_append, hlookup]
    rfl

theorem walkWithin_created (h : Created t t' dir name i) {links : Nat} {pos : Inode} {steps : List String}
    (hwalk : t.walkWithin true links pos steps = .ok (.free dir name)) :
    t'.walkWithin true links pos steps = .ok (.found i) := by
  obtain ⟨n, hn, hleads⟩ := walkWithin_eq_ok_iff.1 hwalk
  exact (h.leads hleads).walkWithin hn

/-- a free name lies in a directory -/
theorem Leads.free_dir {n : Nat} {pos : Inode} {steps : List String} (h : Leads t n pos steps (.free dir name)) :
    ∃ parent entries, t.node? dir = some (.dir parent entries) := by
  generalize hp : Place.free dir name = p at h
  induction h with
  | arrive pos => cases hp
  | free hpos _ _ =>
    obtain ⟨rfl, -⟩ := Place.free.inj hp
    exact ⟨_, _, hpos⟩
  | stay _ _ ih => exact ih hp
  | up _ _ ih => exact ih hp
  | enter _ _ _ _ _ ih => exact ih hp
  | follow _ _ _ _ _ _ ih => exact ih hp

end

end FileTree

/-! ## opening for writing -/

namespace World

/-- the path leads to the open file `d`, which is read and written from its start and holds nothing, if it can hold
anything -/
def Emptied (w : World) (path : String) (d : Descriptor) : Prop :=
  ∃ i k, w.resolve path = .ok i ∧ w.files.isDir i = false ∧ d = .file k ∧ w.openFiles[k]? = some ⟨i, 0⟩ ∧
    ∀ content mode, w.files.node? i = some (.file content mode) → content = []

theorem prepareWrite_emptied {t t' : FileTree} {cwd i : Inode} {path : String}
    (h : prepareWrite t cwd path redirectMode = .ok (i, t')) :
    t'.resolve cwd path = .ok i ∧ t'.isDir i = false ∧
      ∀ content mode, t'.node? i = some (.file content mode) → content = [] := by
  have hresolve : ∀ {u : FileTree}, Path.endsInSlash path = false →
      u.walkSteps cwd path (Path.names path) true = .ok (.found i) → u.resolve cwd path = .ok i := by
    intro u hslash hwalk
    simp [FileTree.resolve, FileTree.walk, Path.steps, hslash, hwalk]
  unfold prepareWrite at h
  split at h
  · cases h
  · rename_i j hwalk
    split at h
    · cases h
    · rename_i content mode hfile
      split at h
      · cases h
      · rename_i hslash
        obtain ⟨rfl, rfl⟩ := Prod.mk.inj (Except.ok.inj h)
        have hemptied := FileTree.node?_setNode_self hfile (.file [] mode)
        have houtline : (t.setNode j (.file [] mode)).resolve cwd path = t.resolve cwd path := by
          rw [← FileTree.resolve_outline, FileTree.outline_setNode_file t hfile, FileTree.resolve_outline]
        refine ⟨?_, ?_, ?_⟩
        · exact houtline.trans (hresolve (by simpa using hslash) hwalk)
        · simp [FileTree.isDir, redirectMode, hemptied]
        · intro content' mode' hnode
          simp only [redirectMode, if_true, hemptied] at hnode
          cases hnode
          rfl
    · rename_i hdir hfile
      split at h
      · cases h
      · rename_i hslash
        obtain ⟨rfl, rfl⟩ := Prod.mk.inj (Except.ok.inj h)
        refine ⟨hresolve (by simpa using hslash) hwalk, ?_, ?_⟩
        · unfold FileTree.isDir
          split
          · rename_i parent entries hnode
            exact absurd hnode (hdir parent entries)
          · rfl
        · intro content mode hnode
          exact absurd hnode (hfile content mode)
  · rename_i dir name hwalk
    split at h
    · cases h
    · rename_i hslash
      unfold FileTree.walkSteps at hwalk
      split at hwalk
      · cases hwalk
      · rename_i hempty
        split at hwalk
        · cases hwalk
        · rename_i hsize
          obtain ⟨n, -, hleads⟩ := FileTree.walkWithin_eq_ok_iff.1 hwalk
          obtain ⟨parent, entries, hdir⟩ := hleads.free_dir
          have hcreated := FileTree.create_created hdir h
          obtain ⟨mode, hfile⟩ := hcreated.file
          refine ⟨hresolve (by simpa using hslash) ?_, ?_, ?_⟩
          · rw [FileTree.walkSteps, if_neg hempty, if_neg hsize]
            exact FileTree.walkWithin_created hcreated hwalk
          · simp [FileTree.isDir, hfile]
          · intro content mode' hnode
            rw [hfile] at hnode
            cases hnode
            rfl

/-- **A target that was opened for writing is empty.** It was created if nothing lay at its path, and emptied if a
file did. -/
theorem openWrite_emptied {w w' : World} {path : String} {d : Descriptor}
    (h : w.openWrite path redirectMode = .ok (d, w')) : w'.Emptied path d := by
  unfold openWrite at h
  split at h
  · cases h
  · rename_i hpath
    split at h
    · cases h
    · rename_i i t hprepare
      cases h
      obtain ⟨hresolve, hdir, hfile⟩ := prepareWrite_emptied hprepare
      refine ⟨i, w.openFiles.size, ?_, hdir, rfl, ?_, hfile⟩
      · simp only [resolve, hpath, hresolve]
        rfl
      · simp

end World

end LineShell
