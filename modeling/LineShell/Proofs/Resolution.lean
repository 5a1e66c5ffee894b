/-
Where a path leads, apart from any walk.

    from a directory:  .        leads on from it
                       ..       leads on from the directory that it lies in
                       a name   leads on from what has the name, or along the target of a link that has it;
                                the last name may also be free

`Leads` says this step by step, and counts the links that are passed; it has nothing to say about steps that lead
nowhere, such as those around a loop of links. A walk is told how many links it may pass.

- `walkWithin_eq_ok_iff`: a walk arrives exactly where its steps lead past as many links as it may pass.
- `Leads.unique`: steps lead to one place at most.
- `World.resolve_eq_ok_iff`: what a path is found to be.
-/
import LineShell.World

namespace LineShell

namespace FileTree

/-- a step that is looked up in a directory -/
structure IsName (step : String) : Prop where
  ne_dot : step ≠ "."
  ne_up : step ≠ ".."
  short : step.utf8ByteSize ≤ Path.maxNameSize

/-- from `pos` the steps lead to a place, past `links` links; a link in the last place is passed, too -/
inductive Leads (t : FileTree) : (links : Nat) → (pos : Inode) → (steps : List String) → Place → Prop
  | arrive (pos : Inode) : Leads t 0 pos [] (.found pos)
  | free {pos parent : Inode} {entries : List (String × Inode)} {name : String} :
      t.node? pos = some (.dir parent entries) → IsName name → entries.lookup name = none →
      Leads t 0 pos [name] (.free pos name)
  | stay {n pos parent : Inode} {entries : List (String × Inode)} {rest : List String} {p : Place} :
      t.node? pos = some (.dir parent entries) → Leads t n pos rest p → Leads t n pos ("." :: rest) p
  | up {n pos parent : Inode} {entries : List (String × Inode)} {rest : List String} {p : Place} :
      t.node? pos = some (.dir parent entries) → Leads t n parent rest p → Leads t n pos (".." :: rest) p
  | enter {n pos j parent : Inode} {entries : List (String × Inode)} {name : String} {rest : List String} {p : Place} :
      t.node? pos = some (.dir parent entries) → IsName name → entries.lookup name = some j →
      (∀ target, t.node? j ≠ some (.link target)) → Leads t n j rest p → Leads t n pos (name :: rest) p
  | follow {n pos j parent : Inode} {entries : List (String × Inode)} {name target : String} {rest : List String}
      {p : Place} :
      t.node? pos = some (.dir parent entries) → IsName name → entries.lookup name = some j →
      t.node? j = some (.link target) → target ≠ "" →
      Leads t n (if Path.isAbsolute target then root else pos) (Path.steps target ++ rest) p →
      Leads t (n + 1) pos (name :: rest) p

section

variable {t : FileTree} {pos j parent : Inode} {entries : List (String × Inode)} {name target : String}
  {rest steps : List String} {links : Nat} {p q : Place}

/-! ## one step of a walk -/

theorem walkWithin_nil : t.walkWithin true links pos [] = .ok (.found pos) := by
  cases links <;> rfl

theorem walkWithin_free (hpos : t.node? pos = some (.dir parent entries)) (hname : IsName name)
    (hlookup : entries.lookup name = none) : t.walkWithin true links pos [name] = .ok (.free pos name) := by
  have hshort : ¬ Path.maxNameSize < name.utf8ByteSize := Nat.not_lt.2 hname.short
  cases links <;> simp [walkWithin, walkFrom, hpos, hname.ne_dot, hname.ne_up, hshort, hlookup]

theorem walkWithin_stay (hpos : t.node? pos = some (.dir parent entries)) :
    t.walkWithin true links pos ("." :: rest) = t.walkWithin true links pos rest := by
  cases links <;> simp [walkWithin, walkFrom, hpos]

theorem walkWithin_up (hpos : t.node? pos = some (.dir parent entries)) :
    t.walkWithin true links pos (".." :: rest) = t.walkWithin true links parent rest := by
  cases links <;> simp [walkWithin, walkFrom, hpos]

theorem walkWithin_enter (hpos : t.node? pos = some (.dir parent entries)) (hname : IsName name)
    (hlookup : entries.lookup name = some j) (hlink : ∀ target, t.node? j ≠ some (.link target)) :
    t.walkWithin true links pos (name :: rest) = t.walkWithin true links j rest := by
  have hshort : ¬ Path.maxNameSize < name.utf8ByteSize := Nat.not_lt.2 hname.short
  cases links <;> simp [walkWithin, walkFrom, hpos, hname.ne_dot, hname.ne_up, hshort, hlookup]

theorem walkWithin_follow (hpos : t.node? pos = some (.dir parent entries)) (hname : IsName name)
    (hlookup : entries.lookup name = some j) (hlink : t.node? j = some (.link target)) (htarget : target ≠ "") :
    t.walkWithin true (links + 1) pos (name :: rest) =
      t.walkWithin true links (if Path.isAbsolute target then root else pos) (Path.steps target ++ rest) := by
  have hshort : ¬ Path.maxNameSize < name.utf8ByteSize := Nat.not_lt.2 hname.short
  rw [walkWithin]
  simp [walkFrom, hpos, hname.ne_dot, hname.ne_up, hshort, hlookup, hlink, htarget]

/-! ## a whole walk -/

/-- a walk goes as far as its steps lead -/
theorem Leads.walkWithin {n : Nat} (h : Leads t n pos steps p) (hn : n ≤ links) :
    t.walkWithin true links pos steps = .ok p := by
  induction h generalizing links with
  | arrive pos => exact walkWithin_nil
  | free hpos hname hlookup => exact walkWithin_free hpos hname hlookup
  | stay hpos _ ih => rw [walkWithin_stay hpos, ih hn]
  | up hpos _ ih => rw [walkWithin_up hpos, ih hn]
  | enter hpos hname hlookup hlink _ ih => rw [walkWithin_enter hpos hname hlookup hlink, ih hn]
  | follow hpos hname hlookup hlink htarget _ ih =>
    obtain ⟨links, rfl⟩ : ∃ m, links = m + 1 := ⟨links - 1, by omega⟩
    rw [walkWithin_follow hpos hname hlookup hlink htarget, ih (Nat.le_of_succ_le_succ hn)]

/-- a walk that arrives has gone where its steps lead, if it is so behind the links that it has passed -/
theorem leads_of_walkFrom {pass : Inode → List String → Except Errno Place}
    (hpass : ∀ pos steps, pass pos steps = .ok p → ∃ n, n < links ∧ Leads t n pos steps p)
    (h : t.walkFrom true pass pos steps = .ok p) : ∃ n, n ≤ links ∧ Leads t n pos steps p := by
  induction steps generalizing pos with
  | nil =>
    obtain rfl := Except.ok.inj h
    exact ⟨0, Nat.zero_le links, .arrive pos⟩
  | cons step rest ih =>
    unfold walkFrom at h
    split at h
    · rename_i parent entries hpos
      split at h
      · rename_i hdot
        obtain ⟨n, hn, hleads⟩ := ih h
        exact ⟨n, hn, hdot ▸ .stay hpos hleads⟩
      · rename_i hdot
        split at h
        · rename_i hup
          obtain ⟨n, hn, hleads⟩ := ih h
          exact ⟨n, hn, hup ▸ .up hpos hleads⟩
        · rename_i hup
          split at h
          · cases h
          · rename_i hshort
            have hname : IsName step := ⟨hdot, hup, Nat.le_of_not_lt hshort⟩
            split at h
            · rename_i hlookup
              split at h
              · rename_i hlast
                obtain rfl := List.isEmpty_iff.1 hlast
                obtain rfl := Except.ok.inj h
                exact ⟨0, Nat.zero_le links, .free hpos hname hlookup⟩
              · cases h
            · rename_i j hlookup
              split at h
              · rename_i target hlink
                -- a link is passed in the last place, too
                simp only [Bool.not_true, Bool.and_false, Bool.false_eq_true, if_false] at h
                split at h
                · cases h
                · rename_i htarget
                  obtain ⟨n, hn, hleads⟩ := hpass _ _ h
                  refine ⟨n + 1, hn, .follow hpos hname hlookup hlink ?_ hleads⟩
                  simpa using htarget
              · rename_i hlink
                obtain ⟨n, hn, hleads⟩ := ih h
                exact ⟨n, hn, .enter hpos hname hlookup hlink hleads⟩
    · cases h

theorem leads_of_walkWithin (h : t.walkWithin true links pos steps = .ok p) :
    ∃ n, n ≤ links ∧ Leads t n pos steps p := by
  induction links generalizing pos steps with
  | zero => exact leads_of_walkFrom (fun _ _ hpass => by cases hpass) h
  | succ links ih =>
    refine leads_of_walkFrom (fun pos steps hpass => ?_) h
    obtain ⟨n, hn, hleads⟩ := ih hpass
    exact ⟨n, Nat.lt_succ_of_le hn, hleads⟩

/-- **A walk arrives exactly where its steps lead** past as many links as it may pass. -/
theorem walkWithin_eq_ok_iff :
    t.walkWithin true links pos steps = .ok p ↔ ∃ n, n ≤ links ∧ Leads t n pos steps p :=
  ⟨leads_of_walkWithin, fun ⟨_, hn, hleads⟩ => hleads.walkWithin hn⟩

/-- steps lead to one place at most, however many links they pass -/
theorem Leads.unique {n m : Nat} (h : Leads t n pos steps p) (h' : Leads t m pos steps q) : p = q := by
  have hwalk := h.walkWithin (Nat.le_max_left n m)
  rw [h'.walkWithin (Nat.le_max_right n m)] at hwalk
  exact (Except.ok.inj hwalk).symm

end

/-- what a path is found to be -/
theorem resolve_eq_ok_iff {t : FileTree} {cwd i : Inode} {path : String} :
    t.resolve cwd path = .ok i ↔ path ≠ "" ∧ path.utf8ByteSize ≤ Path.maxSize ∧
      ∃ n, n ≤ maxLinks ∧ Leads t n (if Path.isAbsolute path then root else cwd) (Path.steps path) (.found i) := by
  have hwalk : t.resolve cwd path = .ok i ↔ t.walk cwd path true = .ok (.found i) := by
    unfold resolve
    split <;> simp_all
  rw [hwalk, walk, walkSteps, ← walkWithin_eq_ok_iff]
  by_cases hempty : path = ""
  · simp [hempty]
  by_cases hlong : path.utf8ByteSize > Path.maxSize
  · simp [hempty, hlong, Nat.not_le.2 hlong]
  · simp [hempty, hlong, Nat.le_of_not_lt hlong]

end FileTree

namespace World

/-- from the working directory the path leads to `i`: it is no longer than a path may be, holds no NUL, and does not
pass more links than a walk may -/
structure Reaches (w : World) (path : String) (i : Inode) : Prop where
  nonempty : path ≠ ""
  text : '\x00' ∉ path.toList
  short : path.utf8ByteSize ≤ Path.maxSize
  leads : ∃ n, n ≤ FileTree.maxLinks ∧
    w.files.Leads n (if Path.isAbsolute path then FileTree.root else w.cwd) (Path.steps path) (.found i)

theorem reaches_iff {w : World} {path : String} {i : Inode} :
    w.Reaches path i ↔ '\x00' ∉ path.toList ∧ w.files.resolve w.cwd path = .ok i := by
  rw [FileTree.resolve_eq_ok_iff]
  constructor
  · exact fun h => ⟨h.text, h.nonempty, h.short, h.leads⟩
  · exact fun ⟨htext, hnonempty, hshort, hleads⟩ => ⟨hnonempty, htext, hshort, hleads⟩

/-- **A path is found to be what it leads to.** -/
theorem resolve_eq_ok_iff {w : World} {path : String} {i : Inode} : w.resolve path = .ok i ↔ w.Reaches path i := by
  rw [reaches_iff, resolve, checkPath, String.contains_char_eq]
  by_cases hnul : '\x00' ∈ path.toList
  · simp [hnul]
  · simp only [hnul, decide_false, Bool.false_eq_true, if_false, not_false_eq_true, true_and]
    cases w.files.resolve w.cwd path with
    | error e => constructor <;> nofun
    | ok j =>
      constructor
      · rintro ⟨⟩
        rfl
      · rintro ⟨⟩
        rfl

theorem Reaches.unique {w : World} {path : String} {i j : Inode} (h : w.Reaches path i) (h' : w.Reaches path j) :
    i = j := by
  obtain ⟨n, -, hleads⟩ := h.leads
  obtain ⟨m, -, hleads'⟩ := h'.leads
  exact FileTree.Place.found.inj (hleads.unique hleads')

end World

end LineShell
