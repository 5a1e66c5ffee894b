/-
The places are filled as if at once.

Filling the places 0, 1, 2, … of a table one after the other could go wrong in two ways: a copy might overwrite a
source that is still to be read, and a number that is the source of two places might be closed twice. What comes out
is what filling all places at once would come to (`Assigned`), whichever numbers the sources are and however they
overlap.

- `lowestFree_isLeast`: a copy out of the way goes to the lowest number that is free.
- `lift_spec`: when all copies are made, every source lies above the places and refers to what it did before.
- `fill_spec`: then one place after the other can be filled.
- `arrange_assigns`: the whole, and what was closed on the way.
-/
import LineShell.Child.Descriptors
import Mathlib.Data.List.Perm.Subperm
import Mathlib.Order.Bounds.Basic

namespace LineShell.Table

variable {α : Type} {t t' : Table α}

/-! ## single changes -/

@[simp] theorem get?_remove (t : Table α) (n m : Nat) : (t.remove n).get? m = if m = n then none else t.get? m := by
  obtain ⟨entries⟩ := t
  induction entries with
  | nil => simp [remove, get?]
  | cons e es ih =>
    obtain ⟨k, e⟩ := e
    simp only [remove, get?, List.filter_cons, List.lookup_cons] at ih ⊢
    grind

@[simp] theorem get?_put (t : Table α) (n m : Nat) (e : Entry α) :
    (t.put n e).get? m = if m = n then some e else t.get? m := by
  have hrest := t.get?_remove n m
  simp only [put, get?, List.lookup_cons] at hrest ⊢
  grind

theorem get?_foldl_remove (t : Table α) (ns : List Nat) (m : Nat) :
    (ns.foldl remove t).get? m = if m ∈ ns then none else t.get? m := by
  induction ns generalizing t with
  | nil => simp
  | cons n ns ih =>
    rw [List.foldl_cons, ih, get?_remove]
    grind

/-! ## the lowest free number -/

/-- the search passes over open numbers, and stops at one that is free unless it has run out -/
theorem firstFree_spec (t : Table α) (fuel n : Nat) :
    n ≤ t.firstFree fuel n ∧ (∀ m, n ≤ m → m < t.firstFree fuel n → (t.get? m).isSome) ∧
      (t.get? (t.firstFree fuel n) = none ∨ t.firstFree fuel n = n + fuel) := by
  induction fuel generalizing n with
  | zero => exact ⟨Nat.le_refl n, fun m hn hm => absurd hm (by simp [firstFree]; omega), .inr rfl⟩
  | succ fuel ih =>
    unfold firstFree
    split
    · rename_i hopen
      obtain ⟨hle, hpassed, hend⟩ := ih (n + 1)
      refine ⟨by omega, fun m hn hm => ?_, hend.imp_right (by omega)⟩
      rcases Nat.eq_or_lt_of_le hn with rfl | hlt
      · exact hopen
      · exact hpassed m hlt hm
    · rename_i hfree
      exact ⟨Nat.le_refl n, fun m hn hm => absurd hm (by omega), .inl (by simpa using hfree)⟩

theorem mem_keys_of_isSome {n : Nat} (h : (t.get? n).isSome) : n ∈ t.entries.map Prod.fst := by
  obtain ⟨e, he⟩ := Option.isSome_iff_exists.1 h
  obtain ⟨front, rest, hentries, -⟩ := List.lookup_eq_some_iff.1 he
  simp [hentries]

/-- a copy out of the way goes to the lowest free number: among one more than there are entries, one is free -/
theorem lowestFree_isLeast (t : Table α) (low : Nat) :
    IsLeast {m | low ≤ m ∧ t.get? m = none} (t.lowestFree low) := by
  obtain ⟨hle, hpassed, hend⟩ := t.firstFree_spec t.entries.length low
  have hfree : t.get? (t.lowestFree low) = none := by
    refine hend.elim id fun hlast => ?_
    by_contra hopen
    have hkeys : List.range' low (t.entries.length + 1) ⊆ t.entries.map Prod.fst := by
      intro m hm
      rw [List.mem_range'_1] at hm
      refine mem_keys_of_isSome ?_
      rcases Nat.lt_or_eq_of_le (show m ≤ t.firstFree t.entries.length low by omega) with hlt | rfl
      · exact hpassed m hm.1 hlt
      · exact Option.isSome_iff_ne_none.2 hopen
    have hlength := (List.subperm_of_subset List.nodup_range' hkeys).length_le
    rw [List.length_range', List.length_map] at hlength
    omega
  refine ⟨⟨hle, hfree⟩, fun m hm => ?_⟩
  by_contra hlt
  exact absurd (hpassed m hm.1 (Nat.lt_of_not_le hlt)) (by simp [hm.2])

/-! ## out of the way -/

/-- what a given descriptor has become when `t` has become `t'`: it stays where it lies above the places, and where it
does not a copy of it lies above them, at a number that was free -/
inductive Moved (places : Nat) (t t' : Table α) : Option Nat → Option Nat → Prop
  | unset : Moved places t t' none none
  | stays {n : Nat} : places ≤ n → Moved places t t' (some n) (some n)
  | copied {n m : Nat} : n < places → places ≤ m → t.get? m = none → t'.target? m = t.target? n →
      Moved places t t' (some n) (some m)

/-- the numbers at which the copies lie -/
def copied (places : Nat) (streams sources : List (Option Nat)) : List Nat :=
  (streams.zip sources).filterMap fun (s, s') => if s.any (· < places) then s' else none

/-- the table with all copies made -/
structure Lifted (places : Nat) (streams : List (Option Nat)) (t : Table α) (sources : List (Option Nat))
    (t' : Table α) : Prop where
  moved : List.Forall₂ (Moved places t t') streams sources
  nodup : (copied places streams sources).Nodup
  opened : ∀ m ∈ copied places streams sources, t.get? m = none ∧ (t'.get? m).isSome
  frame : ∀ m, m ∉ copied places streams sources → t'.get? m = t.get? m

/-- one more copy, made before all others: those go to numbers that are free in the table that has it -/
theorem Lifted.copy {places n m : Nat} {e : Entry α} {rest sources : List (Option Nat)} (hn : n < places)
    (he : t.get? n = some e) (hplaces : places ≤ m) (hfree : t.get? m = none)
    (h : Lifted places rest (t.put m ⟨e.target, true⟩) sources t') :
    Lifted places (some n :: rest) t (some m :: sources) t' := by
  have hcopied : copied places (some n :: rest) (some m :: sources) = m :: copied places rest sources := by
    simp [copied, hn]
  have hm : m ∉ copied places rest sources := fun hmem => by simpa using (h.opened m hmem).1
  have hfreed : ∀ k, (t.put m ⟨e.target, true⟩).get? k = none → k ≠ m ∧ t.get? k = none := by
    intro k hk
    rw [get?_put] at hk
    split at hk
    · cases hk
    · exact ⟨by assumption, hk⟩
  refine ⟨.cons (.copied hn hplaces hfree ?_) (h.moved.imp ?_), ?_, ?_, ?_⟩
  · simp [target?, h.frame m hm, he]
  · rintro s s' (_ | hstays | ⟨hk, hle, hnone, hcopy⟩)
    · exact .unset
    · exact .stays hstays
    · refine .copied hk hle (hfreed _ hnone).2 (hcopy.trans ?_)
      rw [target?, get?_put, if_neg (by omega), ← target?]
  · rw [hcopied]
    exact List.nodup_cons.2 ⟨hm, h.nodup⟩
  · rw [hcopied]
    rintro k (_ | ⟨_, hk⟩)
    · exact ⟨hfree, by simp [h.frame m hm]⟩
    · exact ⟨(hfreed k (h.opened k hk).1).2, (h.opened k hk).2⟩
  · intro k hk
    rw [hcopied, List.mem_cons, not_or] at hk
    rw [h.frame k hk.2, get?_put, if_neg hk.1]

/-- all copies can be made, if all sources are open -/
theorem lift_spec (places : Nat) {streams : List (Option Nat)} (hopen : ∀ n, some n ∈ streams → (t.get? n).isSome) :
    ∃ sources t', lift places streams t = some (sources, t') ∧ Lifted places streams t sources t' := by
  induction streams generalizing t with
  | nil => exact ⟨[], t, rfl, .nil, List.nodup_nil, nofun, fun _ _ => rfl⟩
  | cons s rest ih =>
    have hrest : ∀ n, some n ∈ rest → (t.get? n).isSome := fun n hn => hopen n (List.mem_cons_of_mem _ hn)
    cases s with
    | none =>
      obtain ⟨sources, t', hlift, h⟩ := ih hrest
      exact ⟨none :: sources, t', by simp [lift, hlift], .cons .unset h.moved, h.nodup, h.opened, h.frame⟩
    | some n =>
      by_cases hn : n < places
      · obtain ⟨e, he⟩ := Option.isSome_iff_exists.1 (hopen n List.mem_cons_self)
        obtain ⟨⟨hplaces, hfree⟩, -⟩ := t.lowestFree_isLeast places
        obtain ⟨sources, t', hlift, h⟩ := ih (t := t.put (t.lowestFree places) ⟨e.target, true⟩) fun k hk => by
          rw [get?_put]
          split
          · rfl
          · exact hrest k hk
        exact ⟨_, t', by simp [lift, hn, copyAbove, he, hlift], h.copy hn he hplaces hfree⟩
      · obtain ⟨sources, t', hlift, h⟩ := ih hrest
        have hcopied : copied places (some n :: rest) (some n :: sources) = copied places rest sources := by
          simp [copied, hn]
        refine ⟨some n :: sources, t', by simp [lift, hlift, hn], .cons (.stays (by omega)) h.moved, ?_, ?_, ?_⟩
        · rw [hcopied]
          exact h.nodup
        · rw [hcopied]
          exact h.opened
        · rw [hcopied]
          exact h.frame

/-! ## into the places -/

/-- the table with the places from `place` on filled, each from its source -/
structure Filled (place : Nat) (sources : List (Option Nat)) (t t' : Table α) : Prop where
  filled : ∀ i n, sources[i]? = some (some n) → ∃ x, t.target? n = some x ∧ t'.get? (place + i) = some ⟨x, false⟩
  frame : ∀ m, (∀ i n, sources[i]? = some (some n) → m ≠ place + i) → t'.get? m = t.get? m

/-- a place without a source is passed over -/
theorem Filled.skip {place : Nat} {rest : List (Option Nat)} (h : Filled (place + 1) rest t t') :
    Filled place (none :: rest) t t' := by
  refine ⟨fun i n hi => ?_, fun m hm => h.frame m fun i n hi => ?_⟩
  · cases i with
    | zero => simp at hi
    | succ i =>
      obtain ⟨x, hx, hget⟩ := h.filled i n hi
      exact ⟨x, hx, by rw [← hget]; congr 1; omega⟩
  · have := hm (i + 1) n hi
    omega

/-- a place is filled before the others, none of which has it as its source -/
theorem Filled.copy {place n : Nat} {e : Entry α} {rest : List (Option Nat)} (he : t.get? n = some e)
    (hplace : some place ∉ rest) (h : Filled (place + 1) rest (t.put place ⟨e.target, false⟩) t') :
    Filled place (some n :: rest) t t' := by
  refine ⟨fun i k hi => ?_, fun m hm => ?_⟩
  · cases i with
    | zero =>
      obtain rfl : n = k := by simpa using hi
      refine ⟨e.target, by simp [target?, he], ?_⟩
      rw [Nat.add_zero, h.frame place fun i _ _ => by omega, get?_put, if_pos rfl]
    | succ i =>
      obtain ⟨x, hx, hget⟩ := h.filled i k hi
      have hk : k ≠ place := by
        rintro rfl
        exact hplace (List.mem_of_getElem? hi)
      refine ⟨x, ?_, by rw [← hget]; congr 1; omega⟩
      rw [← hx, target?, target?, get?_put, if_neg hk]
  · have hne : m ≠ place := hm 0 n rfl
    rw [h.frame m fun i k hi => ?_, get?_put, if_neg hne]
    have := hm (i + 1) k hi
    omega

/-- the places can be filled, if all sources lie above them and are open -/
theorem fill_spec (place : Nat) {sources : List (Option Nat)}
    (habove : ∀ n, some n ∈ sources → place + sources.length ≤ n ∧ (t.get? n).isSome) :
    ∃ t', fill place sources t = some t' ∧ Filled place sources t t' := by
  induction sources generalizing place t with
  | nil => exact ⟨t, rfl, by simp, fun _ _ => rfl⟩
  | cons s rest ih =>
    have hrest : ∀ k, some k ∈ rest → place + 1 + rest.length ≤ k ∧ (t.get? k).isSome := by
      intro k hk
      obtain ⟨hle, hopen⟩ := habove k (List.mem_cons_of_mem _ hk)
      rw [List.length_cons] at hle
      exact ⟨by omega, hopen⟩
    cases s with
    | none =>
      obtain ⟨t', hfill, h⟩ := ih (place + 1) hrest
      exact ⟨t', hfill, h.skip⟩
    | some n =>
      obtain ⟨hle, hopen⟩ := habove n List.mem_cons_self
      obtain ⟨e, he⟩ := Option.isSome_iff_exists.1 hopen
      rw [List.length_cons] at hle
      have hcopy : t.copyOnto n place = some (t.put place ⟨e.target, false⟩) := by
        simp [copyOnto, he, show n ≠ place by omega]
      -- the place is no source of another, so that all of those are still open
      have hopened : ∀ k, some k ∈ rest →
          place + 1 + rest.length ≤ k ∧ ((t.put place ⟨e.target, false⟩).get? k).isSome := by
        intro k hk
        obtain ⟨hle, hopen⟩ := hrest k hk
        rw [get?_put, if_neg (by omega)]
        exact ⟨hle, hopen⟩
      obtain ⟨t', hfill, h⟩ := ih (place + 1) hopened
      refine ⟨t', by simp [fill, hcopy, hfill], h.copy he fun hmem => ?_⟩
      have := (hrest place hmem).1
      omega

/-! ## all at once -/

/-- a table in which all places are filled at once, and in which the sources above them are closed -/
structure Assigned (streams : List (Option Nat)) (t t' : Table α) : Prop where
  /-- a place refers to what the descriptor given for it referred to, and stays open when the process turns to a
  program -/
  filled : ∀ place n, streams[place]? = some (some n) → ∃ x, t.target? n = some x ∧ t'.get? place = some ⟨x, false⟩
  /-- a place for which none is given is what it was -/
  kept : ∀ place, streams[place]? = some none → t'.get? place = t.get? place
  /-- a source above the places is closed -/
  closed : ∀ n, streams.length ≤ n → some n ∈ streams → t'.get? n = none
  /-- any other number above the places is what it was -/
  others : ∀ n, streams.length ≤ n → some n ∉ streams → t'.get? n = t.get? n

/-- the numbers at which copies lie for a time: those that the sources below the places are copied to -/
def copies (t : Table α) (streams : List (Option Nat)) : List Nat :=
  match lift streams.length streams t with
  | some (sources, _) => copied streams.length streams sources
  | none => []

section

variable {places : Nat} {streams sources : List (Option Nat)}

theorem mem_sources (h : List.Forall₂ (Moved places t t') streams sources) (m : Nat) :
    some m ∈ sources ↔ places ≤ m ∧ some m ∈ streams ∨ m ∈ copied places streams sources := by
  induction h with
  | nil => simp [copied]
  | cons hmoved _ ih =>
    cases hmoved with
    | unset => simpa [copied] using ih
    | @stays n hn =>
      have hcopied : ¬ n < places := by omega
      simp only [copied, List.mem_cons, Option.some.injEq, List.zip_cons_cons, List.filterMap_cons, Option.any_some,
        hcopied, decide_false, Bool.false_eq_true, if_false, ih]
      grind
    | @copied n k hn hle _ _ =>
      simp only [copied, List.mem_cons, Option.some.injEq, List.zip_cons_cons, List.filterMap_cons, Option.any_some, hn,
        decide_true, if_true, ih]
      grind

theorem length_copied (h : List.Forall₂ (Moved places t t') streams sources) :
    (copied places streams sources).length = streams.countP (·.any (· < places)) := by
  induction h with
  | nil => rfl
  | cons hmoved _ ih =>
    cases hmoved with
    | unset => simpa [copied] using ih
    | @stays n hn => simpa [copied, show ¬ n < places by omega] using ih
    | @copied n k hn _ _ _ => simpa [copied, hn] using ih

theorem moved_getElem? (h : List.Forall₂ (Moved places t t') streams sources) {i : Nat} {s : Option Nat}
    (hs : streams[i]? = some s) : ∃ s', sources[i]? = some s' ∧ Moved places t t' s s' := by
  obtain ⟨hi, rfl⟩ := List.getElem?_eq_some_iff.1 hs
  have hi' : i < sources.length := h.length_eq ▸ hi
  exact ⟨sources[i], List.getElem?_eq_getElem hi', (List.forall₂_iff_get.1 h).2 i hi hi'⟩

theorem le_of_mem_sources (h : List.Forall₂ (Moved places t t') streams sources) {m : Nat} (hm : some m ∈ sources) :
    places ≤ m := by
  induction h with
  | nil => cases hm
  | cons hmoved _ ih =>
    rcases List.mem_cons.1 hm with rfl | hm
    · cases hmoved with
      | stays hle => exact hle
      | copied _ hle _ _ => exact hle
    · exact ih hm

/-- behind all copies every source is open -/
theorem Lifted.isSome_of_mem (h : Lifted places streams t sources t')
    (hopen : ∀ n, some n ∈ streams → (t.get? n).isSome) {m : Nat} (hm : some m ∈ sources) : (t'.get? m).isSome := by
  by_cases hcopy : m ∈ copied places streams sources
  · exact (h.opened m hcopy).2
  · obtain ⟨-, hmem⟩ := ((mem_sources h.moved m).1 hm).resolve_right hcopy
    rw [h.frame m hcopy]
    exact hopen m hmem

/-- and refers to what was given -/
theorem Lifted.refers (h : Lifted places streams t sources t') (hopen : ∀ n, some n ∈ streams → (t.get? n).isSome)
    {i n : Nat} (hn : streams[i]? = some (some n)) :
    ∃ m, sources[i]? = some (some m) ∧ t'.target? m = t.target? n := by
  obtain ⟨_, hs, hmoved⟩ := moved_getElem? h.moved hn
  cases hmoved with
  | stays hle =>
    -- no copy lies at an open number
    have hcopy : n ∉ copied places streams sources := fun hmem => by
      simpa [(h.opened n hmem).1] using hopen n (List.mem_of_getElem? hn)
    exact ⟨n, hs, by rw [target?, target?, h.frame n hcopy]⟩
  | copied _ _ _ hcopy => exact ⟨_, hs, hcopy⟩

/-- when all sources are closed behind that, what is left is what filling the places at once comes to -/
theorem Lifted.assigned {filled : Table α} {closed : List Nat} (h : Lifted streams.length streams t sources t')
    (hopen : ∀ n, some n ∈ streams → (t.get? n).isSome) (hfilled : Filled 0 sources t' filled)
    (hclosed : ∀ n, n ∈ closed ↔ some n ∈ sources) : Assigned streams t (closed.foldl remove filled) := by
  have hlength := h.moved.length_eq
  -- the places are no sources, and above them nothing is filled
  have hplaces : ∀ n, n < streams.length → ¬ some n ∈ sources := fun n hn hmem => by
    have := le_of_mem_sources h.moved hmem
    omega
  have habove : ∀ n, streams.length ≤ n → filled.get? n = t'.get? n := by
    refine fun n hn => hfilled.frame n fun i k hi => ?_
    have := (List.getElem?_eq_some_iff.1 hi).1
    omega
  constructor
  all_goals simp only [get?_foldl_remove, hclosed]
  · intro place n hn
    obtain ⟨m, hm, hrefers⟩ := h.refers hopen hn
    obtain ⟨x, hx, hget⟩ := hfilled.filled place m hm
    rw [if_neg (hplaces place (List.getElem?_eq_some_iff.1 hn).1)]
    exact ⟨x, hrefers.symm.trans hx, by rwa [Nat.zero_add] at hget⟩
  · intro place hnone
    have hplace := hplaces place (List.getElem?_eq_some_iff.1 hnone).1
    have hcopy : place ∉ copied streams.length streams sources := fun hmem =>
      hplace ((mem_sources h.moved place).2 (.inr hmem))
    rw [if_neg hplace, ← h.frame place hcopy]
    refine hfilled.frame place fun i n hi => ?_
    rintro rfl
    obtain ⟨s, hs, hmoved⟩ := moved_getElem? h.moved hnone
    rw [Nat.zero_add, hi] at hs
    obtain rfl := Option.some.inj hs
    cases hmoved
  · intro n hn hmem
    rw [if_pos ((mem_sources h.moved n).2 (.inl ⟨hn, hmem⟩))]
  · intro n hn hmem
    by_cases hcopy : n ∈ copied streams.length streams sources
    · rw [if_pos ((mem_sources h.moved n).2 (.inr hcopy)), (h.opened n hcopy).1]
    · have hsource : some n ∉ sources := fun hsource =>
        ((mem_sources h.moved n).1 hsource).elim (fun hs => hmem hs.2) hcopy
      rw [if_neg hsource, habove n hn, h.frame n hcopy]

end

theorem nodup_eraseDups (ns : List Nat) : ns.eraseDups.Nodup := by
  cases ns with
  | nil => exact List.nodup_nil
  | cons n ns =>
    rw [List.eraseDups_cons, List.nodup_cons]
    exact ⟨by simp [List.mem_eraseDups], nodup_eraseDups _⟩
termination_by ns.length
decreasing_by
  have := List.length_filter_le (fun b => !b == n) ns
  simp only [List.length_cons]
  omega

/-- **The places are filled as if at once.** If the given descriptors are open, wherever they lie and however they
overlap, the places come to refer to what these referred to before, and are kept for the program; nothing else has
changed in the end. To get there, each source below the places is copied to a number that is free; and each copy, and
each source above the places, is closed once, when it is open. -/
theorem arrange_assigns {streams : List (Option Nat)} (hopen : ∀ n, some n ∈ streams → (t.get? n).isSome) :
    ∃ a, t.arrange streams = some a ∧ Assigned streams t a.table ∧
      a.closed.Nodup ∧ (∀ n, n ∈ a.closed ↔ streams.length ≤ n ∧ some n ∈ streams ∨ n ∈ t.copies streams) ∧
      (∃ filled, a.table = a.closed.foldl remove filled ∧ ∀ n ∈ a.closed, (filled.get? n).isSome) ∧
      (t.copies streams).Nodup ∧ (t.copies streams).length = streams.countP (·.any (· < streams.length)) ∧
      ∀ n ∈ t.copies streams, streams.length ≤ n ∧ t.get? n = none := by
  obtain ⟨sources, lifted, hlift, h⟩ := lift_spec streams.length hopen
  have hready : ∀ n, some n ∈ sources → 0 + sources.length ≤ n ∧ (lifted.get? n).isSome := fun n hn => by
    rw [Nat.zero_add, ← h.moved.length_eq]
    exact ⟨le_of_mem_sources h.moved hn, h.isSome_of_mem hopen hn⟩
  obtain ⟨filled, hfill, hfilled⟩ := fill_spec 0 hready
  have hcopies : t.copies streams = copied streams.length streams sources := by simp [copies, hlift]
  have hclosed : ∀ n, n ∈ (sources.filterMap id).eraseDups ↔ some n ∈ sources := by simp [List.mem_eraseDups]
  refine ⟨⟨(sources.filterMap id).eraseDups.foldl remove filled, (sources.filterMap id).eraseDups⟩,
    by simp [arrange, hlift, hfill], h.assigned hopen hfilled hclosed, nodup_eraseDups _, ?_, ⟨filled, rfl, ?_⟩, ?_⟩
  · intro n
    rw [hclosed, hcopies]
    exact mem_sources h.moved n
  · intro n hn
    obtain ⟨hle, hisSome⟩ := hready n ((hclosed n).1 hn)
    rw [hfilled.frame n fun i k hi => ?_]
    · exact hisSome
    · have := (List.getElem?_eq_some_iff.1 hi).1
      omega
  · rw [hcopies]
    refine ⟨h.nodup, length_copied h.moved, fun n hn => ⟨?_, (h.opened n hn).1⟩⟩
    exact le_of_mem_sources h.moved ((mem_sources h.moved n).2 (.inr hn))

/-- four descriptors, one of them above the first three numbers -/
def four : Table Char := ⟨[(0, ⟨'a', false⟩), (1, ⟨'b', false⟩), (2, ⟨'c', false⟩), (5, ⟨'d', true⟩)]⟩

/-- The first two places are exchanged, and the third is filled from above; the two copies lie in between. -/
theorem arrange_assigns_crossed :
    (∀ n, some n ∈ [some 1, some 0, some 5] → (four.get? n).isSome) ∧
    ∃ a, four.arrange [some 1, some 0, some 5] = some a ∧ a.table.get? 0 = some ⟨'b', false⟩ ∧
      a.table.get? 1 = some ⟨'a', false⟩ ∧ a.table.get? 2 = some ⟨'d', false⟩ ∧ a.table.get? 5 = none ∧
      four.copies [some 1, some 0, some 5] = [3, 4] ∧ a.closed.Nodup ∧ ∀ n, n ∈ a.closed ↔ n = 5 ∨ n = 3 ∨ n = 4 := by
  have hopen : ∀ n, some n ∈ [some 1, some 0, some 5] → (four.get? n).isSome := by
    simp only [List.mem_cons, Option.some.injEq, List.not_mem_nil, or_false]
    rintro n (rfl | rfl | rfl) <;> decide
  have hcopies : four.copies [some 1, some 0, some 5] = [3, 4] := by decide
  obtain ⟨a, harrange, hassigned, hnodup, hclosed, -⟩ := arrange_assigns hopen
  -- what a source refers to is found in the table at the start
  have hfilled : ∀ place n x, [some 1, some 0, some 5][place]? = some (some n) → four.target? n = some x →
      a.table.get? place = some ⟨x, false⟩ := by
    intro place n x hn hx
    obtain ⟨y, hy, hget⟩ := hassigned.filled place n hn
    rw [hget, Option.some.inj (hx.symm.trans hy)]
  refine ⟨hopen, a, harrange, hfilled 0 1 'b' rfl rfl, hfilled 1 0 'a' rfl rfl, hfilled 2 5 'd' rfl rfl,
    hassigned.closed 5 (by decide) (by decide), hcopies, hnodup, fun n => ?_⟩
  rw [hclosed n, hcopies]
  simp only [List.length_cons, List.length_nil, List.mem_cons, Option.some.injEq, List.not_mem_nil, or_false]
  omega

end LineShell.Table
