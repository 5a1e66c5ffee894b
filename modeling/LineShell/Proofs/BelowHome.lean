/-
Going below the home directory.

`cd ~/rest` joins the rest to the home directory instead of writing it behind a slash. For a rest that does not begin
with a slash itself the two name the same steps (`Path.steps_slash`), so they lead to the same place. A rest that
begins with a slash stands for itself when it is joined, and leads away from home.

- `Path.names_append`: the names of two paths with a slash between them.
- `cd_below_home`: where `cd ~/rest` goes.
- `cd_below_home_astray`: behind `~/` one more slash leads away from home.
-/
import LineShell.Proofs.Directories

namespace LineShell

namespace Path

/-! ## the steps of a joined path -/

theorem split_ne_nil (cs : List Char) : split cs ≠ [] := by
  cases cs with
  | nil => simp [split]
  | cons c cs =>
    change splitStep c (split cs) ≠ []
    cases split cs with
    | nil => simp [splitStep]
    | cons p ps => by_cases hc : c = '/' <;> simp [splitStep, hc]

/-- what stands in front of a slash and what stands behind it fall into their own parts -/
theorem split_append (cs ds : List Char) : split (cs ++ '/' :: ds) = split cs ++ split ds := by
  induction cs with
  | nil =>
    change splitStep '/' (split ds) = [] :: split ds
    obtain ⟨p, ps, hds⟩ := List.exists_cons_of_ne_nil (split_ne_nil ds)
    simp [hds, splitStep]
  | cons c cs ih =>
    change splitStep c (split (cs ++ '/' :: ds)) = splitStep c (split cs) ++ split ds
    obtain ⟨p, ps, hcs⟩ := List.exists_cons_of_ne_nil (split_ne_nil cs)
    rw [ih, hcs]
    by_cases hc : c = '/' <;> simp [splitStep, hc]

theorem names_append (a b : String) : names (a ++ "/" ++ b) = names a ++ names b := by
  have hlist : (a ++ "/" ++ b).toList = a.toList ++ '/' :: b.toList := by simp
  rw [names, hlist, split_append, List.filter_append, List.map_append]
  rfl

theorem exists_of_endsInSlash {a : String} (h : endsInSlash a = true) : ∃ b, a = b ++ "/" := by
  obtain ⟨cs, hcs⟩ := List.getLast?_eq_some_iff.1 (beq_iff_eq.1 h)
  refine ⟨String.ofList cs, ?_⟩
  rw [← String.toList_inj, hcs]
  simp

section

variable {h r : String}

theorem ne_empty_of_isAbsolute (habs : isAbsolute h = true) : h ≠ "" := by
  rintro rfl
  exact absurd habs (by decide)

theorem join_absolute (hr : isAbsolute r = true) : join h r = r := if_pos hr

theorem join_slash (hr : isAbsolute r = false) (hslash : endsInSlash h = true) : join h r = h ++ r := by
  simp [join, hr, hslash]

theorem join_no_slash (habs : isAbsolute h = true) (hr : isAbsolute r = false) (hslash : endsInSlash h = false) :
    join h r = h ++ "/" ++ r := by
  simp [join, hr, hslash, ne_empty_of_isAbsolute habs]

theorem isAbsolute_append (habs : isAbsolute h = true) (s : String) : isAbsolute (h ++ s) = true := by
  rw [isAbsolute, beq_iff_eq] at habs ⊢
  rw [String.toList_append, List.head?_append, habs, Option.some_or]

/-- a slash that there is already need not be written again -/
theorem steps_slash (hslash : endsInSlash h = true) : steps (h ++ r) = steps (h ++ "/" ++ r) := by
  have hnames : names (h ++ r) = names (h ++ "/" ++ r) := by
    -- what stands between the two slashes is an empty part, which names nothing
    obtain ⟨b, rfl⟩ := exists_of_endsInSlash hslash
    have hb : names (b ++ "/") = names b := by
      have := names_append b ""
      rw [String.append_empty] at this
      rw [this]
      simp [names, split]
    rw [names_append, names_append, hb]
  have hends : endsInSlash (h ++ r) = endsInSlash (h ++ "/" ++ r) := by
    rw [endsInSlash, beq_iff_eq] at hslash
    simp only [endsInSlash, String.toList_append, List.getLast?_append, hslash]
    rfl
  rw [steps, steps, hnames, hends]

end

end Path

/-! ## where a path below the home directory leads -/

/-- one slash more in the middle of a path changes nothing but its size -/
theorem World.reaches_slash_iff {w : World} {h r : String} {i : Inode} (habs : Path.isAbsolute h = true)
    (hslash : Path.endsInSlash h = true) (hsize : (h ++ "/" ++ r).utf8ByteSize ≠ Path.maxSize + 1) :
    w.Reaches (h ++ r) i ↔ w.Reaches (h ++ "/" ++ r) i := by
  have hnonempty : h ++ r ≠ "" ∧ h ++ "/" ++ r ≠ "" := by
    have hne := Path.ne_empty_of_isAbsolute habs
    simp [hne]
  have habsolute : Path.isAbsolute (h ++ r) = true ∧ Path.isAbsolute (h ++ "/" ++ r) = true :=
    ⟨Path.isAbsolute_append habs r, Path.isAbsolute_append (Path.isAbsolute_append habs "/") r⟩
  have htext : '\x00' ∉ (h ++ r).toList ↔ '\x00' ∉ (h ++ "/" ++ r).toList := by simp
  have hone : (h ++ "/" ++ r).utf8ByteSize = (h ++ r).utf8ByteSize + 1 := by
    simp only [String.utf8ByteSize_append]
    have hslashSize : "/".utf8ByteSize = 1 := rfl
    omega
  have hshort : (h ++ r).utf8ByteSize ≤ Path.maxSize ↔ (h ++ "/" ++ r).utf8ByteSize ≤ Path.maxSize := by omega
  rw [World.reaches_iff, World.reaches_iff, FileTree.resolve_eq_ok_iff, FileTree.resolve_eq_ok_iff, htext, hshort,
    Path.steps_slash hslash]
  simp only [ne_eq, hnonempty.1, hnonempty.2, not_false_eq_true, habsolute, if_true]

namespace Builtin

variable {home : Option String} {w : World} {h r path : String}

theorem asks_below_iff (hhome : IsHome w home h) : Asks home w ["~/" ++ r] path ↔ Path.join h r = path := by
  rw [← cdTarget_eq_some_iff, List.head?_singleton, cdTarget_below, homeDirectory_eq_some_iff.2 hhome]
  simp

/-- `cd` ends in the same way, whatever it says -/
structure Outcome.EndsLike (a b : Outcome) : Prop where
  result : a.result = b.result
  world : a.world = b.world

theorem endsLike_of_goes_iff {args args' : List String} (hgoes : ∀ i, Goes home w args i ↔ Goes home w args' i)
    (last : Int) (output : Option Descriptor) :
    (cd.dispatch args last home output w).EndsLike (cd.dispatch args' last home output w) := by
  by_cases hgo : ∃ i, Goes home w args i
  · obtain ⟨i, hi⟩ := hgo
    have hreplies := replies_of_goes last output hi
    have hreplies' := replies_of_goes last output ((hgoes i).1 hi)
    exact ⟨hreplies.result.trans hreplies'.result.symm, hreplies.world.trans hreplies'.world.symm⟩
  · have hgo' : ¬ ∃ i, Goes home w args' i := fun ⟨i, hi⟩ => hgo ⟨i, (hgoes i).2 hi⟩
    obtain ⟨_, -, hreplies⟩ := replies_of_not_goes last output hgo
    obtain ⟨_, -, hreplies'⟩ := replies_of_not_goes last output hgo'
    exact ⟨hreplies.result.trans hreplies'.result.symm, hreplies.world.trans hreplies'.world.symm⟩

/-- `cd` does the same if it is asked the same -/
theorem dispatch_of_asks {args args' : List String} (hasks : Asks home w args path) (hasks' : Asks home w args' path)
    (last : Int) (output : Option Descriptor) :
    cd.dispatch args last home output w = cd.dispatch args' last home output w := by
  obtain ⟨hlength, htarget⟩ := cdTarget_eq_some_iff.2 hasks
  obtain ⟨hlength', htarget'⟩ := cdTarget_eq_some_iff.2 hasks'
  have hrun : runCd args home w = runCd args' home w := by
    rw [runCd, runCd, if_neg (Nat.not_lt.2 hlength), if_neg (Nat.not_lt.2 hlength'), htarget, htarget']
  unfold dispatch run
  rw [hrun]

theorem head?_ne_tilde (habs : Path.isAbsolute path = true) : path.toList.head? ≠ some '~' := by
  rw [beq_iff_eq.1 habs]
  decide

/-- **Below the home directory.** Let the home directory begin with a slash. If the rest does not, then `cd ~/rest`
ends in the same way as `cd` with home directory, slash and rest; only where the home directory ends in a slash, too,
the second path is one byte longer, and if it is too long by this byte then it leads nowhere while the first one may.
If the rest begins with a slash itself, then `cd ~/rest` does what `cd rest` does. -/
theorem cd_below_home (hhome : IsHome w home h) (habs : Path.isAbsolute h = true) (r : String) (last : Int)
    (output : Option Descriptor) :
    (Path.isAbsolute r = false →
      (Path.endsInSlash h = true → (h ++ "/" ++ r).utf8ByteSize ≠ Path.maxSize + 1) →
      (cd.dispatch ["~/" ++ r] last home output w).EndsLike (cd.dispatch [h ++ "/" ++ r] last home output w)) ∧
    (Path.isAbsolute r = false → Path.endsInSlash h = true → (h ++ "/" ++ r).utf8ByteSize = Path.maxSize + 1 →
      cd.dispatch ["~/" ++ r] last home output w = cd.dispatch [h ++ r] last home output w ∧
      (cd.dispatch [h ++ "/" ++ r] last home output w).result = .ok 1) ∧
    (Path.isAbsolute r = true →
      cd.dispatch ["~/" ++ r] last home output w = cd.dispatch [r] last home output w) := by
  have hbelow : Asks home w ["~/" ++ r] (Path.join h r) := (asks_below_iff hhome).2 rfl
  have hspelt : ∀ path, Asks home w [h ++ "/" ++ r] path ↔ h ++ "/" ++ r = path := fun path =>
    asks_iff_eq (head?_ne_tilde (Path.isAbsolute_append (Path.isAbsolute_append habs "/") r))
  refine ⟨?_, ?_, ?_⟩
  · intro hr hsize
    cases hslash : Path.endsInSlash h with
    | false =>
      rw [Path.join_no_slash habs hr hslash] at hbelow
      rw [dispatch_of_asks hbelow ((hspelt _).2 rfl)]
      exact ⟨rfl, rfl⟩
    | true =>
      refine endsLike_of_goes_iff (fun i => ?_) last output
      simp only [Goes, asks_below_iff hhome, hspelt, exists_eq_left', Path.join_slash hr hslash,
        World.reaches_slash_iff habs hslash (hsize hslash)]
  · intro hr hslash hsize
    rw [Path.join_slash hr hslash] at hbelow
    refine ⟨dispatch_of_asks hbelow
      ((asks_iff_eq (head?_ne_tilde (Path.isAbsolute_append habs r))).2 rfl) last output, ?_⟩
    have hlong : ¬ ∃ i, Goes home w [h ++ "/" ++ r] i := by
      rintro ⟨i, path, hasks, hreaches, -⟩
      obtain rfl := (hspelt path).1 hasks
      have hshort := hreaches.short
      omega
    obtain ⟨_, -, hreplies⟩ := replies_of_not_goes last output hlong
    exact hreplies.result
  · intro hr
    rw [Path.join_absolute hr] at hbelow
    exact dispatch_of_asks hbelow ((asks_iff_eq (head?_ne_tilde hr)).2 rfl) last output

/-- a directory `h` with a directory `s` in it -/
def homeWorld : World where
  files := ⟨#[.dir 0 [("h", 1)], .dir 0 [("s", 2)], .dir 1 []]⟩

/-- At home in `/h` and with a rest that is one name, `cd` goes below home, spelt out or not. -/
theorem cd_below_home_name :
    IsHome homeWorld (some "/h") "/h" ∧ Path.isAbsolute "/h" = true ∧
      (cd.dispatch ["~/s"] 0 (some "/h") none homeWorld).EndsLike (cd.dispatch ["/h/s"] 0 (some "/h") none homeWorld) ∧
      Goes (some "/h") homeWorld ["~/s"] 2 := by
  have hhome : IsHome homeWorld (some "/h") "/h" := .configured "/h"
  refine ⟨hhome, by decide, (cd_below_home hhome (by decide) "s" 0 none).1 (by decide) (by decide), ?_⟩
  exact ⟨"/h/s", (asks_below_iff (r := "s") hhome).2 (by decide +kernel),
    World.reaches_iff.2 ⟨by decide, by decide +kernel⟩, by decide⟩

/-- **Away from home.** With a rest that begins with a slash, `cd ~//s` finds nothing and changes nothing, though
spelt out it goes to the directory `s` in the home directory. -/
theorem cd_below_home_astray :
    IsHome homeWorld (some "/h") "/h" ∧ Path.isAbsolute "/h" = true ∧
      (cd.dispatch ["~/" ++ "/s"] 0 (some "/h") none homeWorld).result = .ok 1 ∧
      (cd.dispatch ["~/" ++ "/s"] 0 (some "/h") none homeWorld).world = homeWorld ∧
      (cd.dispatch ["/h" ++ "/" ++ "/s"] 0 (some "/h") none homeWorld).Replies 0 "" { homeWorld with cwd := 2 } := by
  have hhome : IsHome homeWorld (some "/h") "/h" := .configured "/h"
  have hnowhere : ¬ ∃ i, Goes (some "/h") homeWorld ["~/" ++ "/s"] i := by
    have hresolve : homeWorld.files.resolve homeWorld.cwd (Path.join "/h" "/s") = .error .noEntry := by decide +kernel
    exact not_goes_of_error (fun path => (asks_below_iff hhome).1) hresolve
  have hspelt : Goes (some "/h") homeWorld ["/h" ++ "/" ++ "/s"] 2 :=
    ⟨"/h//s", (asks_iff_eq (by decide)).2 (by decide +kernel),
      World.reaches_iff.2 ⟨by decide, by decide +kernel⟩, by decide⟩
  obtain ⟨_, -, hreplies⟩ := replies_of_not_goes 0 none hnowhere
  exact ⟨hhome, by decide, hreplies.result, hreplies.world, replies_of_goes 0 none hspelt⟩

end Builtin

end LineShell
