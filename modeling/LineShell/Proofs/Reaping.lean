/-
No child that was let go is forgotten, and no other is taken away.

Children are started, end, are let go and are waited for, in any order. `fates` goes through such a history and tells
of each child in whose hands it is and whether it has ended, without a look at tables. The reaper goes through the
same history with its slots and its overflow list. `Booked` is what keeps the two together: recorded are exactly the
children that were let go and are not cleared away, each once, and a child in the shell's hands has been taken away by
nobody.

What the reaper does in a step is made of a few acts, and `Booked` is kept by each of them: by going through a part of
the records (`Booked.clear`), by a start, an end, a record and a wait.

- `step_booked` / `run_booked`: one step, and any history.
- `run_reaps`: what this means for the shell, with the moment at which a child that has ended is cleared away.

Assumed is what the system and the shell's own types see to (`Allowed`): a number is not given to a new child while an
old one has it, a child ends once, and only a child in hand is let go or waited for.
-/
import LineShell.Child.Reaper
import Mathlib.Data.List.Perm.Basic
import Mathlib.Logic.Function.Basic

namespace LineShell

/-! ## asking -/

theorem Life.ask_ne_reaped {l : Life} : l.ask ≠ .reaped ↔ l = .running := by cases l <;> simp [Life.ask]

namespace Reaper

theorem lookup_map (children : List (Pid × Life)) (f : Pid → Life → Life) (pid : Pid) :
    (children.map fun (p, l) => (p, f p l)).lookup pid = (children.lookup pid).map (f pid) := by
  induction children with
  | nil => rfl
  | cons c children ih =>
    obtain ⟨p, l⟩ := c
    simp only [List.map_cons, List.lookup_cons, ih]
    grind

theorem life_ask (r : Reaper) (pids : List Pid) (pid : Pid) :
    (r.ask pids).life pid = if pid ∈ pids then (r.life pid).ask else r.life pid := by
  have hlookup : (r.ask pids).children.lookup pid =
      (r.children.lookup pid).map fun l => if pids.contains pid then l.ask else l :=
    lookup_map r.children (fun p l => if pids.contains p then l.ask else l) pid
  unfold life
  rw [hlookup]
  cases r.children.lookup pid with
  | none => simp [Life.ask]
  | some l => simp

theorem life_reapRegistered (r : Reaper) (pid : Pid) :
    r.reapRegistered.life pid = if some pid ∈ r.slots then (r.life pid).ask else r.life pid := by
  rw [show r.reapRegistered.life pid = _ from life_ask r (r.slots.filterMap id) pid]
  simp

theorem isGone_eq_false {r : Reaper} {pid : Pid} : r.isGone pid = false ↔ r.life pid = .running := by simp [isGone]

/-! ## records -/

/-- the records of children: those in the slots, and those in the overflow list -/
def recorded (r : Reaper) : List Pid := r.slots.filterMap id ++ r.overflow

theorem mem_recorded {r : Reaper} {pid : Pid} : pid ∈ r.recorded ↔ some pid ∈ r.slots ∨ pid ∈ r.overflow := by
  simp [recorded]

/-- the slots after they have been gone through: those of children that have ended are free -/
theorem mem_slots_reapRegistered {r : Reaper} {pid : Pid} :
    some pid ∈ r.reapRegistered.slots ↔ some pid ∈ r.slots ∧ r.life pid = .running := by
  simp only [reapRegistered, List.mem_map, Option.filter_eq_some_iff, Bool.not_eq_true', isGone_eq_false]
  grind

theorem recorded_reapRegistered (r : Reaper) : r.reapRegistered.recorded.Sublist r.recorded := by
  refine List.Sublist.append ?_ (List.Sublist.refl _)
  have hslots : r.reapRegistered.slots.filterMap id = (r.slots.filterMap id).filter (!r.isGone ·) := by
    simp only [reapRegistered, List.filterMap_map, List.filter_filterMap]
    rfl
  rw [hslots]
  exact List.filter_sublist

theorem recorded_sweep (r : Reaper) : r.sweep.recorded.Sublist r.recorded :=
  List.Sublist.append (List.Sublist.refl _) List.filter_sublist

/-- a free slot is found if there is one -/
theorem occupy_eq_none {pid : Pid} {slots : List (Option Pid)} : occupy pid slots = none ↔ none ∉ slots := by
  induction slots with
  | nil => simp [occupy]
  | cons s slots ih => cases s <;> simp [occupy, ih]

theorem occupy_eq_some {pid : Pid} {slots slots' : List (Option Pid)} (h : occupy pid slots = some slots') :
    slots'.length = slots.length ∧ (slots'.filterMap id).Perm (pid :: slots.filterMap id) := by
  induction slots generalizing slots' with
  | nil => cases h
  | cons s slots ih =>
    cases s with
    | none =>
      obtain rfl := Option.some.inj h
      exact ⟨rfl, .refl _⟩
    | some p =>
      obtain ⟨rest, hrest, rfl⟩ := Option.map_eq_some_iff.1 h
      obtain ⟨hlength, hperm⟩ := ih hrest
      exact ⟨by simp [hlength], (hperm.cons p).trans (.swap pid p _)⟩

/-- one child more is recorded, in a slot or in the overflow list -/
theorem register_perm (r : Reaper) (pid : Pid) :
    (r.register pid).recorded.Perm (pid :: r.recorded) ∧ (r.register pid).slots.length = r.slots.length := by
  unfold register
  split
  · rename_i slots hslots
    obtain ⟨hlength, hperm⟩ := occupy_eq_some hslots
    exact ⟨hperm.append_right _, hlength⟩
  · refine ⟨?_, rfl⟩
    simp only [recorded, ← List.append_assoc]
    exact List.perm_append_singleton pid _

theorem life_register (r : Reaper) (pid p : Pid) : (r.register pid).life p = r.life p := by
  unfold register
  split <;> rfl

/-! ## histories -/

/-- something that happens to a child -/
inductive Step where
  | spawn (pid : Pid)
  | exit (pid : Pid) (status : Int)
  | detach (pid : Pid)
  | wait (pid : Pid)
  deriving DecidableEq, Repr

/-- the reaper behind a step -/
def Step.on (r : Reaper) : Step → Reaper
  | spawn pid => r.spawn pid
  | exit pid status => r.exit pid status
  | detach pid => r.detach pid
  | wait pid => (r.wait pid).2

/-- the reaper behind a history -/
def run (steps : List Step) : Reaper := steps.foldl Step.on {}

/-- in whose hands a child is -/
inductive Standing where
  /-- in nobody's: it was not started, or its status has been told -/
  | gone
  /-- in the shell's -/
  | held
  /-- the shell has let it go -/
  | letGo
  deriving DecidableEq, Repr

/-- what a history tells of a child -/
structure Fate where
  standing : Standing := .gone
  /-- the status with which it has ended -/
  ended : Option Int := none
  deriving DecidableEq, Repr

/-- how far a child has come by itself -/
def Fate.lived (f : Fate) : Life :=
  match f.ended with
  | none => .running
  | some status => .exited status

/-- what a step adds to what is told. A child that is waited for stays in hand until it has ended. -/
def Step.tell (told : Pid → Fate) : Step → Pid → Fate
  | spawn pid => Function.update told pid { standing := .held }
  | exit pid status => Function.update told pid { told pid with ended := some status }
  | detach pid => Function.update told pid { told pid with standing := .letGo }
  | wait pid =>
    if (told pid).ended.isSome then Function.update told pid { told pid with standing := .gone } else told

/-- what a history tells of each child -/
def fates (steps : List Step) : Pid → Fate := steps.foldl Step.tell fun _ => {}

/-- the steps that can follow a history -/
def Allowed (past : List Step) : Step → Prop
  -- the number is nobody's, once the overflow list has been gone through
  | .spawn pid => (run past).sweep.life pid = .reaped
  | .exit pid _ => (run past).life pid = .running
  | .detach pid => (fates past pid).standing = .held
  | .wait pid => (fates past pid).standing = .held

/-- the histories that can happen -/
inductive Legal : List Step → Prop
  | nil : Legal []
  | snoc {past : List Step} {s : Step} : Legal past → Allowed past s → Legal (past ++ [s])

theorem run_snoc (past : List Step) (s : Step) : run (past ++ [s]) = s.on (run past) := by simp [run]

theorem fates_snoc (past : List Step) (s : Step) : fates (past ++ [s]) = s.tell (fates past) := by simp [fates]

theorem Legal.of_snoc {past : List Step} {s : Step} (h : Legal (past ++ [s])) : Legal past ∧ Allowed past s := by
  generalize hsteps : past ++ [s] = steps at h
  cases h with
  | nil => simp at hsteps
  | snoc hpast hs =>
    obtain ⟨rfl, hs'⟩ := List.append_inj' hsteps rfl
    obtain rfl := List.singleton_inj.1 hs'
    exact ⟨hpast, hs⟩

/-! ## what is kept -/

/-- a child that is told of so can have come so far: one in hand has not been taken away, one that was let go may have
been cleared away when it had ended, and one in nobody's hands is no more -/
def Fate.Fits (f : Fate) (l : Life) : Prop :=
  match f.standing with
  | .gone => l = .reaped
  | .held => l = f.lived
  | .letGo => l = f.lived ∨ f.ended.isSome ∧ l = .reaped

/-- the records tell what the history tells -/
structure Booked (told : Pid → Fate) (r : Reaper) : Prop where
  size : r.slots.length = slotCount
  nodup : r.recorded.Nodup
  /-- recorded are those that were let go and are not cleared away -/
  recorded : ∀ pid, pid ∈ r.recorded ↔ (told pid).standing = .letGo ∧ r.life pid ≠ .reaped
  lives : ∀ pid, (told pid).Fits (r.life pid)
  /-- the slots are gone through at each end, as soon as one is taken -/
  watching : ∀ pid, some pid ∈ r.slots → r.watching = true

/-- no child that has ended is left in a slot -/
def Cleared (r : Reaper) : Prop := ∀ pid, some pid ∈ r.slots → r.life pid = .running

section

variable {told : Pid → Fate} {r r' : Reaper} {pid : Pid}

/-- a child in hand is not recorded, and has been taken away by nobody -/
theorem Booked.held (h : Booked told r) (hheld : (told pid).standing = .held) :
    pid ∉ r.recorded ∧ r.life pid = (told pid).lived := by
  have hlife := h.lives pid
  rw [Fate.Fits, hheld] at hlife
  refine ⟨fun hmem => ?_, hlife⟩
  rw [h.recorded, hheld] at hmem
  cases hmem.1

/-- a child has one record at most -/
theorem Booked.not_mem_overflow (h : Booked told r) (hslot : some pid ∈ r.slots) : pid ∉ r.overflow :=
  fun hover => (List.nodup_append.1 h.nodup).2.2 pid (by simpa using hslot) pid hover rfl

theorem Fate.lived_ne_reaped (f : Fate) : f.lived ≠ .reaped := by
  unfold lived
  split <;> simp

/-- records are gone through: those of children that have ended are dropped, and these are asked for -/
theorem Booked.clear (pids : List Pid) (h : Booked told r) (hpids : ∀ p ∈ pids, p ∈ r.recorded)
    (hlife : ∀ p, r'.life p = if p ∈ pids then (r.life p).ask else r.life p)
    (hrecorded : ∀ p, p ∈ r'.recorded ↔ p ∈ r.recorded ∧ (p ∈ pids → r.life p = .running))
    (hsublist : r'.recorded.Sublist r.recorded) (hsize : r'.slots.length = r.slots.length)
    (hwatching : ∀ p, some p ∈ r'.slots → r'.watching = true) : Booked told r' := by
  refine ⟨hsize.trans h.size, h.nodup.sublist hsublist, fun p => ?_, fun p => ?_, hwatching⟩
  · rw [hrecorded, hlife, h.recorded]
    split
    · rename_i hp
      rw [Life.ask_ne_reaped]
      have hne := ((h.recorded p).1 (hpids p hp)).2
      grind
    · grind
  · have hfits := h.lives p
    rw [hlife]
    split
    · rename_i hp
      -- it was let go, and is asked for if it has ended
      have hletGo := ((h.recorded p).1 (hpids p hp)).1
      rw [Fate.Fits, hletGo] at hfits ⊢
      unfold Fate.lived at hfits ⊢
      cases hended : (told p).ended <;> grind [Life.ask]
    · exact hfits

theorem Booked.sweep (h : Booked told r) : Booked told r.sweep := by
  refine h.clear r.overflow (fun p hp => mem_recorded.2 (.inr hp)) (life_ask r r.overflow) (fun p => ?_)
    (recorded_sweep r) rfl h.watching
  have hdisjoint : some p ∈ r.slots → p ∉ r.overflow := h.not_mem_overflow
  have hover : p ∈ r.sweep.overflow ↔ p ∈ r.overflow ∧ r.life p = .running := by
    simp [Reaper.sweep, isGone_eq_false]
  rw [mem_recorded, mem_recorded, hover, show r.sweep.slots = r.slots from rfl]
  grind

theorem Booked.reapRegistered (h : Booked told r) : Booked told r.reapRegistered := by
  refine h.clear (r.slots.filterMap id) (fun p hp => mem_recorded.2 (.inl (by simpa using hp)))
    (life_ask r (r.slots.filterMap id)) (fun p => ?_) (recorded_reapRegistered r) (List.length_map _)
    fun p hp => h.watching p (mem_slots_reapRegistered.1 hp).1
  have hdisjoint : some p ∈ r.slots → p ∉ r.overflow := h.not_mem_overflow
  rw [mem_recorded, mem_recorded, mem_slots_reapRegistered, show r.reapRegistered.overflow = r.overflow from rfl]
  simp only [List.mem_filterMap, id_eq, exists_eq_right]
  grind

theorem cleared_reapRegistered (r : Reaper) : Cleared r.reapRegistered := by
  intro p hp
  rw [life_reapRegistered, (mem_slots_reapRegistered.1 hp).2]
  split <;> rfl

/-! ### what happens to one child -/

/-- something happens to one child, and its record tells of it -/
theorem Booked.update {f : Fate} (h : Booked told r) (hlife : ∀ p, p ≠ pid → r'.life p = r.life p)
    (hrecorded : ∀ p, p ≠ pid → (p ∈ r'.recorded ↔ p ∈ r.recorded))
    (hown : pid ∈ r'.recorded ↔ f.standing = .letGo ∧ r'.life pid ≠ .reaped) (hfits : f.Fits (r'.life pid))
    (hnodup : r'.recorded.Nodup) (hsize : r'.slots.length = r.slots.length)
    (hwatching : ∀ p, some p ∈ r'.slots → r'.watching = true) : Booked (Function.update told pid f) r' := by
  refine ⟨hsize.trans h.size, hnodup, fun p => ?_, fun p => ?_, hwatching⟩
  · by_cases hp : p = pid
    · rw [hp, Function.update_self]
      exact hown
    · rw [Function.update_of_ne hp, hlife p hp, hrecorded p hp, h.recorded]
  · by_cases hp : p = pid
    · rw [hp, Function.update_self]
      exact hfits
    · rw [Function.update_of_ne hp, hlife p hp]
      exact h.lives p

/-- a child is started -/
theorem Booked.start (h : Booked told r) (hfree : r.life pid = .reaped) :
    Booked (Function.update told pid { standing := .held }) { r with children := (pid, .running) :: r.children } := by
  have hlife : ∀ p, life { r with children := (pid, .running) :: r.children } p =
      if p = pid then .running else r.life p := by
    intro p
    simp only [life, List.lookup_cons]
    grind
  have hnot : pid ∉ r.recorded := fun hmem => ((h.recorded pid).1 hmem).2 hfree
  refine h.update (fun p hp => ?_) (fun p _ => Iff.rfl) ?_ ?_ h.nodup rfl h.watching
  · rw [hlife, if_neg hp]
  · exact ⟨fun hmem => absurd hmem hnot, fun hown => by cases hown.1⟩
  · rw [hlife, if_pos rfl]
    rfl

/-- the children when one of them has ended -/
def ended (r : Reaper) (pid : Pid) (status : Int) : Reaper :=
  { r with children := r.children.map fun (p, l) => (p, if p = pid ∧ l = Life.running then .exited status else l) }

theorem life_ended (r : Reaper) (pid : Pid) (status : Int) (p : Pid) :
    (r.ended pid status).life p = if p = pid ∧ r.life p = .running then .exited status else r.life p := by
  have hlookup : (r.ended pid status).children.lookup p =
      (r.children.lookup p).map fun l => if p = pid ∧ l = .running then .exited status else l :=
    lookup_map r.children (fun p l => if p = pid ∧ l = .running then .exited status else l) p
  unfold life
  rw [hlookup]
  cases r.children.lookup p with
  | none => simp
  | some l => simp

/-- a child ends -/
theorem Booked.exit (h : Booked told r) (hrunning : r.life pid = .running) (status : Int) :
    Booked (Function.update told pid { told pid with ended := some status }) (r.ended pid status) := by
  have hexited : (r.ended pid status).life pid = .exited status := by rw [life_ended, if_pos ⟨rfl, hrunning⟩]
  refine h.update (fun p hp => ?_) (fun p _ => Iff.rfl) ?_ ?_ h.nodup rfl h.watching
  · rw [life_ended, if_neg fun hown => hp hown.1]
  · rw [show (r.ended pid status).recorded = r.recorded from rfl, h.recorded, hrunning, hexited]
    simp
  · -- it was there, so it is in hand or was let go
    have hfits := h.lives pid
    rw [hrunning] at hfits
    rw [hexited]
    unfold Fate.Fits at hfits ⊢
    cases hstanding : (told pid).standing <;> simp_all [Fate.lived]

/-- a child is recorded, and the slots are watched from now on -/
theorem Booked.register (h : Booked told r) (hheld : (told pid).standing = .held) :
    Booked (Function.update told pid { told pid with standing := .letGo })
      (({ r with watching := true } : Reaper).register pid) := by
  obtain ⟨hnot, hlived⟩ := h.held hheld
  obtain ⟨hperm, hlength⟩ := register_perm { r with watching := true } pid
  have hlife := life_register { r with watching := true } pid
  refine h.update (fun p _ => hlife p) (fun p hp => ?_) ?_ ?_ ?_ hlength fun p _ => ?_
  · rw [hperm.mem_iff, List.mem_cons]
    exact ⟨fun hmem => hmem.resolve_left hp, .inr⟩
  · rw [hperm.mem_iff, hlife]
    exact ⟨fun _ => ⟨rfl, hlived.trans_ne (Fate.lived_ne_reaped _)⟩, fun _ => List.mem_cons_self⟩
  · rw [hlife]
    exact .inl hlived
  · exact hperm.nodup_iff.2 (List.nodup_cons.2 ⟨hnot, h.nodup⟩)
  · unfold Reaper.register
    split <;> rfl

/-- a child in hand is waited for: its status is its own, and if it has not ended it stays in hand -/
theorem Booked.wait_eq (h : Booked told r) (hheld : (told pid).standing = .held) :
    r.wait pid = match (told pid).ended with
      | some status => (.status status, r.ask [pid])
      | none => (.stillRunning, r) := by
  rw [wait, (h.held hheld).2, Fate.lived]
  cases (told pid).ended <;> rfl

theorem Booked.wait (h : Booked told r) (hheld : (told pid).standing = .held) :
    Booked ((Step.wait pid).tell told) (r.wait pid).2 := by
  rw [h.wait_eq hheld, Step.tell]
  cases hended : (told pid).ended with
  | none => exact h
  | some status =>
    have hlived := (h.held hheld).2
    have hreaped : (r.ask [pid]).life pid = .reaped := by simp [life_ask, hlived, Fate.lived, hended, Life.ask]
    refine h.update (fun p hp => ?_) (fun p _ => Iff.rfl) ?_ hreaped h.nodup rfl h.watching
    · rw [life_ask, if_neg (by simpa using hp)]
    · exact ⟨fun hmem => absurd hmem (h.held hheld).1, fun hown => by cases hown.1⟩

end

/-! ## a step and a history -/

theorem life_spawn (r : Reaper) (pid p : Pid) :
    (r.spawn pid).life p = if p = pid then .running else r.sweep.life p := by
  simp only [spawn, life, List.lookup_cons]
  grind

/-- a running child stays one while others are asked for -/
theorem Cleared.ask {r : Reaper} (h : Cleared r) (pids : List Pid) : Cleared (r.ask pids) := by
  intro p hp
  rw [life_ask, h p hp]
  split <;> rfl

/-- one step keeps the records, and leaves no child that has ended in a slot -/
theorem step_booked {past : List Step} {s : Step} (h : Booked (fates past) (run past)) (hcleared : Cleared (run past))
    (hs : Allowed past s) : Booked (s.tell (fates past)) (s.on (run past)) ∧ Cleared (s.on (run past)) := by
  cases s with
  | spawn pid =>
    refine ⟨h.sweep.start hs, fun p hp => ?_⟩
    rw [Step.on, life_spawn]
    split
    · rfl
    · exact hcleared.ask (run past).overflow p hp
  | exit pid status =>
    have hended := h.exit hs status
    have hexit : Step.on (run past) (.exit pid status) = if ((run past).ended pid status).watching then
        ((run past).ended pid status).reapRegistered else (run past).ended pid status := rfl
    rw [hexit]
    split
    · exact ⟨hended.reapRegistered, cleared_reapRegistered _⟩
    · rename_i hidle
      -- nothing was let go so far, so that there is nothing to go through
      exact ⟨hended, fun p hp => absurd (hended.watching p hp) hidle⟩
  | detach pid => exact ⟨(h.register hs).reapRegistered, cleared_reapRegistered _⟩
  | wait pid =>
    refine ⟨h.wait hs, ?_⟩
    rw [Step.on, h.wait_eq hs]
    split
    · exact hcleared.ask [pid]
    · exact hcleared

theorem run_booked {steps : List Step} (legal : Legal steps) :
    Booked (fates steps) (run steps) ∧ Cleared (run steps) := by
  induction legal with
  | nil =>
    have hempty : ∀ p, some p ∉ (run []).slots := by simp [run]
    refine ⟨⟨rfl, by decide, fun p => ?_, fun p => rfl,
      fun p hp => absurd hp (hempty p)⟩, fun p hp => absurd hp (hempty p)⟩
    simp [mem_recorded, run, fates]
  | snoc _ hs ih =>
    rw [run_snoc, fates_snoc]
    exact step_booked ih.1 ih.2 hs

/-! ### when a child is cleared away -/

/-- a child gets out of all hands only when its status is told -/
theorem wait_of_gone (told : Pid → Fate) {s : Step} {pid : Pid} (hbefore : (told pid).standing ≠ .gone)
    (hafter : (s.tell told pid).standing = .gone) : s = .wait pid := by
  cases s <;> simp only [Step.tell, Function.update_apply] at hafter <;> grind

/-- behind a start nothing that has ended is left in the overflow list -/
theorem overflow_spawn {r : Reaper} {pid p : Pid} (hp : p ∈ (r.spawn pid).overflow) :
    (r.spawn pid).life p = .running := by
  have hrunning : r.life p = .running := isGone_eq_false.1 (by simpa using (List.mem_filter.1 hp).2)
  rw [life_spawn, show r.sweep.life p = _ from life_ask r r.overflow p, hrunning]
  split
  · rfl
  · split <;> rfl

theorem mem_slots_register {r : Reaper} {pid : Pid} (hnot : some pid ∉ r.slots) :
    some pid ∈ (r.register pid).slots ↔ none ∈ r.slots := by
  unfold register
  split
  · rename_i slots hslots
    have hfree : none ∈ r.slots := by
      by_contra hfull
      rw [occupy_eq_none.2 hfull] at hslots
      cases hslots
    have hmem := (occupy_eq_some hslots).2.mem_iff.2 (List.mem_cons_self (a := pid))
    exact iff_of_true (by simpa using hmem) hfree
  · rename_i hslots
    exact iff_of_false hnot (occupy_eq_none.1 hslots)

/-- a child that has ended before it was let go is cleared away at once, unless all slots were taken -/
theorem detach_exited {r : Reaper} {pid : Pid} {status : Int} (hnot : some pid ∉ r.slots)
    (hexited : r.life pid = .exited status) : (r.detach pid).life pid = .reaped ↔ none ∈ r.slots := by
  have hregistered : (({ r with watching := true } : Reaper).register pid).life pid = .exited status :=
    (life_register _ pid pid).trans hexited
  have hmem : some pid ∈ (({ r with watching := true } : Reaper).register pid).slots ↔ none ∈ r.slots :=
    mem_slots_register hnot
  rw [detach, life_reapRegistered, hregistered]
  by_cases hfree : none ∈ r.slots
  · simp [hmem, hfree, Life.ask]
  · simp [hmem, hfree]

/-- **No child that was let go is forgotten, and no other is taken away.** Behind any steps, in any order and with any
number of children:
- a child has one record, in a slot or in the overflow list, if it was let go and is not cleared away, and else none;
- only a child that was let go or is being waited for gets cleared away, and one in hand tells its own status when it is
  waited for;
- no child that has ended is left in a slot, and none in the overflow list when a child has just been started;
- a child that had ended before it was let go is cleared away by just that, exactly if a slot was free. -/
theorem run_reaps {steps : List Step} (legal : Legal steps) :
    (run steps).slots.length = slotCount ∧
    (∀ pid, (run steps).recorded.count pid =
      if (fates steps pid).standing = .letGo ∧ (run steps).life pid ≠ .reaped then 1 else 0) ∧
    (∀ past s, steps = past ++ [s] → ∀ pid, (run past).life pid ≠ .reaped → (run steps).life pid = .reaped →
      (fates steps pid).standing = .letGo ∨ s = .wait pid) ∧
    (∀ pid, (fates steps pid).standing = .held → ((run steps).wait pid).1 =
      match (fates steps pid).ended with | some status => .status status | none => .stillRunning) ∧
    (∀ pid, some pid ∈ (run steps).slots → (run steps).life pid = .running) ∧
    (∀ past pid, steps = past ++ [.spawn pid] → ∀ p ∈ (run steps).overflow, (run steps).life p = .running) ∧
    (∀ past pid status, steps = past ++ [.detach pid] → (run past).life pid = .exited status →
      ((run steps).life pid = .reaped ↔ none ∈ (run past).slots)) := by
  obtain ⟨h, hcleared⟩ := run_booked legal
  refine ⟨h.size, fun pid => ?_, ?_, fun pid hheld => ?_, hcleared, ?_, ?_⟩
  · rw [h.nodup.count]
    simp only [h.recorded]
  · rintro past s rfl pid hbefore hafter
    obtain ⟨hpast, -⟩ := run_booked legal.of_snoc.1
    have hfits := h.lives pid
    rw [Fate.Fits, hafter] at hfits
    cases hstanding : (fates (past ++ [s]) pid).standing with
    | letGo => exact .inl rfl
    | held =>
      rw [hstanding] at hfits
      exact absurd hfits.symm (Fate.lived_ne_reaped _)
    | gone =>
      refine .inr (wait_of_gone (fates past) (fun hgone => hbefore ?_) (fates_snoc past s ▸ hstanding))
      have hlives := hpast.lives pid
      rwa [Fate.Fits, hgone] at hlives
  · rw [h.wait_eq hheld]
    cases (fates steps pid).ended <;> rfl
  · rintro past pid rfl p hp
    rw [run_snoc] at hp ⊢
    exact overflow_spawn hp
  · rintro past pid status rfl hexited
    obtain ⟨hpast, hallowed⟩ := legal.of_snoc
    have hnot := ((run_booked hpast).1.held hallowed).1
    rw [run_snoc]
    exact detach_exited (fun hslot => hnot (mem_recorded.2 (.inl hslot))) hexited

/-- two children, of which the first ends before it is let go, and the second stays in hand -/
def mixed : List Step := [.spawn 1, .exit 1 3, .spawn 2, .detach 1, .exit 2 7]

/-- The first has been cleared away, and the second tells its status when it is waited for. -/
theorem run_reaps_mixed :
    Legal mixed ∧ (run mixed).recorded.count 1 = 0 ∧ (run (mixed.take 4)).life 1 = .reaped ∧
    ((run mixed).wait 2).1 = .status 7 := by
  have hfirst : Legal (mixed.take 4) :=
    .snoc (.snoc (.snoc (.snoc .nil (s := .spawn 1) rfl) (s := .exit 1 3) rfl) (s := .spawn 2) rfl) (s := .detach 1) rfl
  have hlegal : Legal mixed := .snoc hfirst (s := .exit 2 7) rfl
  obtain ⟨-, -, -, -, -, -, hdetached⟩ := run_reaps hfirst
  obtain ⟨-, hcount, -, hwait, -⟩ := run_reaps hlegal
  refine ⟨hlegal, ?_, (hdetached (mixed.take 3) 1 3 rfl rfl).2 (by decide), hwait 2 rfl⟩
  rw [hcount, if_neg (fun hown => hown.2 rfl)]

end Reaper

end LineShell
