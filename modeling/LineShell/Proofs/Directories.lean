/-
`cd` goes to a directory or leaves everything as it is.

What it is asked is a path (`Asks`): its argument, or a home directory, or one below it. There is a home directory if
one is configured or one of two variables holds one (`IsHome`). What becomes of it is said in terms of where the path
leads, and not of any walk: `cd` looks first and changes afterwards, so nothing is changed where something is in the
way (`Hindrance`).

- `cdTarget_eq_some_iff`: the path that is asked for.
- `cd_all_or_nothing`: when `cd` goes, where to, and what is left if it does not.
-/
import LineShell.Proofs.Builtins
import LineShell.Proofs.Resolution

namespace LineShell.Builtin

/-! ## what is asked -/

/-- `h` is the home directory: the one that is configured, or else what `HOME` holds, or else what `USERPROFILE`
holds, where a variable that holds nothing counts as none -/
inductive IsHome (w : World) : Option String → String → Prop
  | configured (h : String) : IsHome w (some h) h
  | home {h : String} : w.getEnv? "HOME" = some h → h ≠ "" → IsHome w none h
  | profile {h : String} : (∀ h', w.getEnv? "HOME" = some h' → h' = "") → w.getEnv? "USERPROFILE" = some h → h ≠ "" →
      IsHome w none h

/-- `cd` with these arguments is to go to `path` -/
inductive Asks (home : Option String) (w : World) : (args : List String) → (path : String) → Prop
  | home {h : String} : IsHome w home h → Asks home w [] h
  | tilde {h : String} : IsHome w home h → Asks home w ["~"] h
  | below {h : String} (rest : String) : IsHome w home h → Asks home w ["~/" ++ rest] (Path.join h rest)
  | path {dir : String} : dir ≠ "~" → (∀ rest, dir ≠ "~/" ++ rest) → Asks home w [dir] dir

/-- the first of the two variables that holds something -/
theorem homeDirectory_none (w : World) :
    homeDirectory none w =
      ((w.getEnv? "HOME").filter (!·.isEmpty)).or ((w.getEnv? "USERPROFILE").filter (!·.isEmpty)) := by
  have hone : ∀ v : Option String, v.toList.find? (!·.isEmpty) = v.filter (!·.isEmpty) := by
    intro v
    cases v with
    | none => rfl
    | some v => by_cases hv : v = "" <;> simp [Option.filter_some, hv]
  calc homeDirectory none w
      = ((w.getEnv? "HOME").toList ++ (w.getEnv? "USERPROFILE").toList).find? (!·.isEmpty) := by
        simp only [homeDirectory, List.filterMap_cons, List.filterMap_nil]
        cases w.getEnv? "HOME" <;> cases w.getEnv? "USERPROFILE" <;> rfl
    _ = ((w.getEnv? "HOME").filter (!·.isEmpty)).or ((w.getEnv? "USERPROFILE").filter (!·.isEmpty)) := by
        rw [List.find?_append, hone, hone]

theorem homeDirectory_eq_some_iff {home : Option String} {w : World} {h : String} :
    homeDirectory home w = some h ↔ IsHome w home h := by
  cases home with
  | some configured =>
    constructor
    · rintro ⟨⟩
      exact .configured h
    · rintro ⟨⟩
      rfl
  | none =>
    rw [homeDirectory_none, Option.or_eq_some_iff]
    simp only [Option.filter_eq_some_iff, Option.filter_eq_none_iff]
    constructor
    · rintro (⟨hhome, hne⟩ | ⟨hunset, hprofile, hne⟩)
      · exact .home hhome (by simpa using hne)
      · exact .profile (by simpa using hunset) hprofile (by simpa using hne)
    · intro hhome
      cases hhome with
      | home hhome hne => exact .inl ⟨hhome, by simpa using hne⟩
      | profile hunset hprofile hne => exact .inr ⟨by simpa using hunset, hprofile, by simpa using hne⟩

/-- an argument behind `~/`, character by character -/
theorem toList_eq_tilde {dir : String} {rest : List Char} :
    dir.toList = '~' :: '/' :: rest ↔ dir = "~/" ++ String.ofList rest := by
  rw [← String.toList_inj, String.toList_append, String.toList_ofList, String.toList_ofList]
  rfl

theorem cdTarget_below (rest : String) (home : Option String) (w : World) :
    cdTarget (some ("~/" ++ rest)) home w = (homeDirectory home w).map fun h => Path.join h rest := by
  have htilde : "~/" ++ rest ≠ "~" := by
    intro h
    have hlist := congrArg String.toList h
    simp at hlist
  have hlist : ("~/" ++ rest).toList = '~' :: '/' :: rest.toList := toList_eq_tilde.2 (by rw [String.ofList_toList])
  unfold cdTarget
  split
  · rename_i h
    cases h
  · rename_i h
    exact absurd (Option.some.inj h) htilde
  · rename_i h
    cases h
    rw [hlist]
    simp

theorem cdTarget_path {dir : String} (htilde : dir ≠ "~") (hbelow : ∀ rest, dir ≠ "~/" ++ rest) (home : Option String)
    (w : World) : cdTarget (some dir) home w = some dir := by
  unfold cdTarget
  split
  · rename_i h
    cases h
  · rename_i h
    exact absurd (Option.some.inj h) htilde
  · rename_i h
    cases h
    split
    · rename_i rest hlist
      exact absurd (toList_eq_tilde.1 hlist) (hbelow _)
    · rfl

/-- the path that `cd` is asked to go to -/
theorem cdTarget_eq_some_iff {home : Option String} {w : World} {args : List String} {path : String} :
    args.length ≤ 1 ∧ cdTarget args.head? home w = some path ↔ Asks home w args path := by
  constructor
  · rintro ⟨hlength, htarget⟩
    match args, hlength with
    | [], _ => exact .home (homeDirectory_eq_some_iff.1 htarget)
    | [dir], _ =>
      rw [List.head?_singleton] at htarget
      by_cases htilde : dir = "~"
      · subst htilde
        exact .tilde (homeDirectory_eq_some_iff.1 htarget)
      by_cases hbelow : ∃ rest, dir = "~/" ++ rest
      · obtain ⟨rest, rfl⟩ := hbelow
        rw [cdTarget_below] at htarget
        obtain ⟨h, hhome, rfl⟩ := Option.map_eq_some_iff.1 htarget
        exact .below rest (homeDirectory_eq_some_iff.1 hhome)
      · rw [not_exists] at hbelow
        rw [cdTarget_path htilde hbelow] at htarget
        obtain rfl := Option.some.inj htarget
        exact .path htilde hbelow
  · intro hasks
    cases hasks with
    | home hhome => exact ⟨Nat.zero_le 1, homeDirectory_eq_some_iff.2 hhome⟩
    | tilde hhome => exact ⟨Nat.le_refl 1, homeDirectory_eq_some_iff.2 hhome⟩
    | below rest hhome =>
      refine ⟨Nat.le_refl 1, ?_⟩
      rw [List.head?_singleton, cdTarget_below, homeDirectory_eq_some_iff.2 hhome, Option.map_some]
    | path htilde hbelow => exact ⟨Nat.le_refl 1, cdTarget_path htilde hbelow home w⟩

/-- an argument that does not begin with a tilde is the path itself -/
theorem asks_iff_eq {home : Option String} {w : World} {dir path : String} (h : dir.toList.head? ≠ some '~') :
    Asks home w [dir] path ↔ dir = path := by
  have htilde : dir ≠ "~" := by
    rintro rfl
    exact h rfl
  have hbelow : ∀ rest, dir ≠ "~/" ++ rest := by
    rintro rest rfl
    simp at h
  rw [← cdTarget_eq_some_iff, List.head?_singleton, cdTarget_path htilde hbelow]
  simp

/-! ## what becomes of it -/

/-- `cd` with these arguments is to go to `i`, which is a directory -/
def Goes (home : Option String) (w : World) (args : List String) (i : Inode) : Prop :=
  ∃ path, Asks home w args path ∧ w.Reaches path i ∧ w.files.isDir i = true

/-- `cd` goes nowhere if its path cannot be followed to the end -/
theorem not_goes_of_error {home : Option String} {w : World} {args : List String} {path : String} {e : Errno}
    (hasks : ∀ path', Asks home w args path' → path = path') (h : w.files.resolve w.cwd path = .error e) :
    ¬ ∃ i, Goes home w args i := by
  rintro ⟨i, path', hpath, hreaches, -⟩
  obtain rfl := hasks path' hpath
  rw [(World.reaches_iff.1 hreaches).2] at h
  cases h

/-- what is in the way of `cd` with these arguments -/
inductive Hindrance (home : Option String) (w : World) : (args : List String) → (complaint : String) → Prop
  | arguments {args : List String} : 1 < args.length → Hindrance home w args "too many arguments"
  | homeless {args : List String} : args.length ≤ 1 → (¬ ∃ path, Asks home w args path) →
      Hindrance home w args "HOME not set"
  | missing {args : List String} {path : String} : Asks home w args path → (¬ ∃ i, w.Reaches path i) →
      Hindrance home w args s!"{path}: No such file or directory"
  | noDirectory {args : List String} {path : String} {i : Inode} : Asks home w args path → w.Reaches path i →
      w.files.isDir i = false → Hindrance home w args s!"{path}: Not a directory"

section

variable {home : Option String} {w : World} {args : List String}

theorem runCd_goes {i : Inode} (h : Goes home w args i) :
    runCd args home w = { status := 0, world := { w with cwd := i } } := by
  obtain ⟨path, hasks, hreaches, hdir⟩ := h
  obtain ⟨hlength, htarget⟩ := cdTarget_eq_some_iff.2 hasks
  have hresolve := World.resolve_eq_ok_iff.2 hreaches
  -- the path is followed a second time for the change, and nothing has moved since the first time
  have hchange : w.changeDirectory path = .ok { w with cwd := i } := by
    simp [World.changeDirectory, hresolve, hdir]
  unfold runCd
  rw [if_neg (Nat.not_lt.2 hlength), htarget]
  simp [cdTo, hresolve, hdir, hchange]

theorem runCd_refused (h : ¬ ∃ i, Goes home w args i) :
    ∃ complaint, Hindrance home w args complaint ∧ runCd args home w = cdRefused w complaint := by
  unfold runCd
  by_cases hmany : args.length > 1
  · exact ⟨_, .arguments hmany, if_pos hmany⟩
  rw [if_neg hmany]
  have hlength : args.length ≤ 1 := Nat.le_of_not_lt hmany
  cases htarget : cdTarget args.head? home w with
  | none =>
    refine ⟨_, .homeless hlength ?_, rfl⟩
    rintro ⟨path, hasks⟩
    rw [(cdTarget_eq_some_iff.2 hasks).2] at htarget
    cases htarget
  | some path =>
    have hasks : Asks home w args path := cdTarget_eq_some_iff.1 ⟨hlength, htarget⟩
    simp only [cdTo]
    cases hresolve : w.resolve path with
    | error f =>
      refine ⟨_, .missing hasks ?_, rfl⟩
      rintro ⟨i, hreaches⟩
      rw [World.resolve_eq_ok_iff.2 hreaches] at hresolve
      cases hresolve
    | ok i =>
      have hreaches : w.Reaches path i := World.resolve_eq_ok_iff.1 hresolve
      have hdir : w.files.isDir i = false := by
        simpa using fun hdir => h ⟨i, path, hasks, hreaches, hdir⟩
      refine ⟨_, .noDirectory hasks hreaches hdir, ?_⟩
      simp only [hdir, Bool.false_eq_true, if_false]

variable (last : Int) (output : Option Descriptor)

theorem replies_of_goes {i : Inode} (h : Goes home w args i) :
    (cd.dispatch args last home output w).Replies 0 "" { w with cwd := i } := by
  have hreplies := dispatch_replies (b := cd) nofun args last home output w
  rwa [run, runCd_goes h] at hreplies

theorem replies_of_not_goes (h : ¬ ∃ i, Goes home w args i) :
    ∃ complaint, Hindrance home w args complaint ∧
      (cd.dispatch args last home output w).Replies 1 s!"embsh: cd: {complaint}\n" w := by
  obtain ⟨complaint, hhindrance, hrun⟩ := runCd_refused h
  have hreplies := dispatch_replies (b := cd) nofun args last home output w
  rw [run, hrun] at hreplies
  exact ⟨complaint, hhindrance, hreplies⟩

end

/-- **All or nothing.** `cd` has status 0 exactly if it was asked to go somewhere and the path leads to a directory.
This directory is then the working directory, and nothing else has changed and nothing was written. In every other
case it has status 1, everything is as it was, nothing was printed, and one line on the error stream says what was in
the way. -/
theorem cd_all_or_nothing (args : List String) (last : Int) (home : Option String) (output : Option Descriptor)
    (w : World) :
    ((cd.dispatch args last home output w).result = .ok 0 ↔ ∃ i, Goes home w args i) ∧
    (∀ i, Goes home w args i → (cd.dispatch args last home output w).Replies 0 "" { w with cwd := i }) ∧
    ((¬ ∃ i, Goes home w args i) → ∃ complaint, Hindrance home w args complaint ∧
      (cd.dispatch args last home output w).Replies 1 s!"embsh: cd: {complaint}\n" w) := by
  refine ⟨?_, fun i hi => replies_of_goes last output hi, replies_of_not_goes last output⟩
  constructor
  · intro hzero
    by_contra hnot
    obtain ⟨complaint, -, hone⟩ := replies_of_not_goes last output hnot
    rw [hone.result] at hzero
    cases hzero
  · rintro ⟨i, hi⟩
    exact (replies_of_goes last output hi).result

/-- a directory `d`, a link `l` to it, a link `o` to itself, and a file `f` -/
def linkedWorld : World where
  files := ⟨#[.dir 0 [("d", 1), ("l", 2), ("o", 3), ("f", 4)], .dir 0 [], .link "d", .link "o", .file [] 0o644]⟩

/-- Along a link to a directory, around a loop, and to a file. -/
theorem cd_all_or_nothing_links :
    Goes none linkedWorld ["l"] 1 ∧
      (cd.dispatch ["l"] 0 none none linkedWorld).Replies 0 "" { linkedWorld with cwd := 1 } ∧
      (¬ ∃ i, Goes none linkedWorld ["o"] i) ∧ (cd.dispatch ["o"] 0 none none linkedWorld).world = linkedWorld ∧
      (¬ ∃ i, Goes none linkedWorld ["f"] i) ∧ (cd.dispatch ["f"] 0 none none linkedWorld).world = linkedWorld := by
  have hlink : Goes none linkedWorld ["l"] 1 :=
    ⟨"l", (asks_iff_eq (by decide)).2 rfl, World.reaches_iff.2 ⟨by decide, by decide +kernel⟩, by decide⟩
  have hnoLoop : ¬ ∃ i, Goes none linkedWorld ["o"] i := by
    have hresolve : linkedWorld.files.resolve linkedWorld.cwd "o" = .error .tooManyLinks := by decide +kernel
    exact not_goes_of_error (fun path => (asks_iff_eq (by decide)).1) hresolve
  have hnoFile : ¬ ∃ i, Goes none linkedWorld ["f"] i := by
    rintro ⟨i, path, hasks, hreaches, hdir⟩
    obtain rfl := (asks_iff_eq (by decide)).1 hasks
    have hresolve : linkedWorld.files.resolve linkedWorld.cwd "f" = .ok 4 := by decide +kernel
    rw [(World.reaches_iff.1 hreaches).2] at hresolve
    obtain rfl := Except.ok.inj hresolve
    cases hdir
  obtain ⟨_, -, hloop⟩ := (cd_all_or_nothing ["o"] 0 none none linkedWorld).2.2 hnoLoop
  obtain ⟨_, -, hfile⟩ := (cd_all_or_nothing ["f"] 0 none none linkedWorld).2.2 hnoFile
  exact ⟨hlink, (cd_all_or_nothing ["l"] 0 none none linkedWorld).2.1 1 hlink,
    hnoLoop, hloop.world, hnoFile, hfile.world⟩

end LineShell.Builtin
