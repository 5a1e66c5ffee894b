/-
What a builtin that prints nothing has to tell.

`cd` and `exit` write to the error stream at most, so it makes no difference to them where the output of their command
goes: what they do is told by a status, a text for the error stream and the world behind them (`Replies`).

`exit` takes a number in decimal digits. Which texts are numbers, and which number each of them is, is said by
`Denotes`, from the places of the digits; the builtin reads them from the left.

- `statusNumber?_eq_some_iff`: a text is read as a number of 64 bits exactly if it denotes one.
- `exit_replies`: the status of `exit`.
-/
import Mathlib.Data.Int.ModEq
import Mathlib.Data.List.Induction
import Mathlib.Data.Nat.Digits.Defs
import LineShell.Proofs.Background

namespace LineShell

namespace Builtin

/-- a builtin answers with `status`, writes `err` on the error stream and nothing else anywhere, and leaves the world
`w` -/
structure Outcome.Replies (o : Outcome) (status : Int) (err : String) (w : World) : Prop where
  result : o.result = .ok status
  out : (sentTo .stdout o.chunks).flatten = []
  err : (sentTo .stderr o.chunks).flatten = Text.bytes err
  world : o.world = w

theorem sentTo_stderr_pair (out err : Bytes) :
    sentTo .stderr [(.stdout, out), (.stderr, err)] = sentTo .stderr [(.stderr, err)] := by
  simp [sentTo]

/-- all that a builtin other than `pwd` has to tell reaches its caller, wherever its output goes -/
theorem dispatch_replies {b : Builtin} (hb : b ≠ .pwd) (args : List String) (last : Int) (home : Option String)
    (output : Option Descriptor) (w : World) :
    (b.dispatch args last home output w).Replies (b.run args last home w).status (b.run args last home w).err
      (b.run args last home w).world := by
  obtain ⟨hout, -⟩ | ⟨hpwd, -⟩ := run_out b args last home w
  · unfold dispatch
    simp only [hout]
    cases output with
    | none =>
      refine ⟨rfl, ?_, ?_, rfl⟩
      · rw [sentTo_stdout_pair]
        rfl
      · rw [sentTo_stderr_pair, flatten_sentTo_single]
    | some d =>
      refine ⟨rfl, ?_, flatten_sentTo_single .stderr _, rfl⟩
      exact congrArg List.flatten (sentTo_stdout_stderr _)
  · exact absurd hpwd hb

/-! ## numbers -/

/-- the number that decimal digits denote: the last one counts ones, and each other one ten times what the next one
counts -/
def decimal (cs : List Char) : Nat := Nat.ofDigits 10 (cs.reverse.map fun c => c.toNat - '0'.toNat)

/-- some digits of ASCII -/
def Digits (cs : List Char) : Prop := cs ≠ [] ∧ ∀ c ∈ cs, c.isDigit = true

/-- the text denotes a number: digits alone, or behind one minus sign -/
inductive Denotes : List Char → Int → Prop
  | plain {cs : List Char} : Digits cs → Denotes cs (decimal cs)
  | minus {cs : List Char} : Digits cs → Denotes ('-' :: cs) (-decimal cs)

/-- the text denotes a number of 64 bits -/
def DenotesStatus (arg : String) (n : Int) : Prop := Denotes arg.toList n ∧ -2 ^ 63 ≤ n ∧ n < 2 ^ 63

theorem decimal_concat (cs : List Char) (c : Char) : decimal (cs ++ [c]) = 10 * decimal cs + (c.toNat - '0'.toNat) := by
  rw [decimal, List.reverse_append, List.reverse_singleton, List.singleton_append, List.map_cons, Nat.ofDigits_cons,
    ← decimal, Nat.add_comm]

/-- read from the left, digits come to the number that they denote -/
theorem foldl_eq_decimal (cs : List Char) : cs.foldl (fun n c => 10 * n + (c.toNat - '0'.toNat)) 0 = decimal cs := by
  induction cs using List.reverseRecOn with
  | nil => rfl
  | append_singleton cs c ih => rw [List.foldl_concat, ih, decimal_concat]

theorem digits?_eq_some_iff {cs : List Char} {n : Nat} : digits? cs = some n ↔ Digits cs ∧ decimal cs = n := by
  have hrefused : (cs.isEmpty || !cs.all Char.isDigit) = true ↔ ¬ Digits cs := by
    simp [Digits, Classical.or_iff_not_imp_left]
  unfold digits?
  rw [foldl_eq_decimal]
  by_cases h : Digits cs
  · rw [if_neg (fun hr => hrefused.1 hr h)]
    simp [h]
  · rw [if_pos (hrefused.2 h)]
    simp [h]

/-- a minus sign is no digit, so a text that begins with one denotes nothing but what the rest of it says -/
theorem denotes_minus {cs : List Char} {n : Int} : Denotes ('-' :: cs) n ↔ Digits cs ∧ -(decimal cs : Int) = n := by
  constructor
  · intro h
    generalize htext : '-' :: cs = text at h
    cases h with
    | plain hdigits =>
      have hminus := hdigits.2 '-' (htext ▸ List.mem_cons_self)
      exact absurd hminus (by decide)
    | minus hdigits =>
      obtain ⟨-, rfl⟩ := List.cons.inj htext
      exact ⟨hdigits, rfl⟩
  · rintro ⟨hdigits, rfl⟩
    exact .minus hdigits

theorem denotes_plain {cs : List Char} (hcs : ∀ rest, cs ≠ '-' :: rest) {n : Int} :
    Denotes cs n ↔ Digits cs ∧ (decimal cs : Int) = n := by
  constructor
  · intro h
    cases h with
    | plain hdigits => exact ⟨hdigits, rfl⟩
    | minus hdigits => exact absurd rfl (hcs _)
  · rintro ⟨hdigits, rfl⟩
    exact .plain hdigits

/-- **What is read as a number.** -/
theorem statusNumber?_eq_some_iff {arg : String} {n : Int} : statusNumber? arg = some n ↔ DenotesStatus arg n := by
  have hbound : statusBound = 2 ^ 63 := rfl
  unfold statusNumber? DenotesStatus
  simp only [Option.filter_eq_some_iff, decide_eq_true_eq, hbound]
  refine and_congr_left fun _ => ?_
  split
  · rename_i cs htext
    rw [htext, denotes_minus]
    simp [Option.bind_eq_some_iff, digits?_eq_some_iff, and_assoc]
  · rename_i hplain
    rw [denotes_plain hplain]
    simp [Option.bind_eq_some_iff, digits?_eq_some_iff, and_assoc]

/-! ## exit -/

section

variable (last : Int) (home : Option String) (output : Option Descriptor) (w : World)

theorem exit_number {arg : String} {n : Int} (h : DenotesStatus arg n) (more : List String) :
    (exit.dispatch (arg :: more) last home output w).Replies (n % 256) "" w := by
  have hreplies := dispatch_replies (b := exit) nofun (arg :: more) last home output w
  simpa only [run, runExit, statusNumber?_eq_some_iff.2 h] using hreplies

theorem exit_no_number {arg : String} (h : ¬ ∃ n, DenotesStatus arg n) (more : List String) :
    (exit.dispatch (arg :: more) last home output w).Replies 2
      s!"embsh: exit: {arg}: numeric argument required\n" w := by
  have hnone : statusNumber? arg = none :=
    Option.eq_none_iff_forall_ne_some.2 fun n hn => h ⟨n, statusNumber?_eq_some_iff.1 hn⟩
  have hreplies := dispatch_replies (b := exit) nofun (arg :: more) last home output w
  simpa only [run, runExit, hnone] using hreplies

/-- **The status of `exit`.** Without an argument it is the status that is remembered. If the first argument denotes a
number of 64 bits then it is what is left of this number modulo 256, and nothing is written; so arguments that denote
numbers that are congruent modulo 256 have one status. Any other first argument has status 2 and one complaint. The
arguments behind the first one make no difference. -/
theorem exit_replies :
    (exit.dispatch [] last home output w).Replies last "" w ∧
    (∀ arg more n, DenotesStatus arg n → 0 ≤ n % 256 ∧ n % 256 ≤ 255 ∧
      (exit.dispatch (arg :: more) last home output w).Replies (n % 256) "" w) ∧
    (∀ arg more arg' more' n n', DenotesStatus arg n → DenotesStatus arg' n' → n ≡ n' [ZMOD 256] →
      (exit.dispatch (arg :: more) last home output w).result =
        (exit.dispatch (arg' :: more') last home output w).result) ∧
    ∀ arg more, (¬ ∃ n, DenotesStatus arg n) →
      (exit.dispatch (arg :: more) last home output w).Replies 2
        s!"embsh: exit: {arg}: numeric argument required\n" w := by
  refine ⟨dispatch_replies (b := exit) nofun [] last home output w, ?_, ?_, ?_⟩
  · intro arg more n hn
    exact ⟨by omega, by omega, exit_number last home output w hn more⟩
  · intro arg more arg' more' n n' hn hn' hcongruent
    rw [(exit_number last home output w hn more).result, (exit_number last home output w hn' more').result, hcongruent]
  · intro arg more hnone
    exact exit_no_number last home output w hnone more

end

/-- A number with a leading zero and one at the lower bound, which are congruent, and one that is too large. -/
theorem exit_replies_bounds :
    DenotesStatus "-0256" (-256) ∧ DenotesStatus "-9223372036854775808" (-9223372036854775808) ∧
      (-256 ≡ -9223372036854775808 [ZMOD 256]) ∧
      (exit.dispatch ["-0256", "x"] 7 none none {}).Replies 0 "" {} ∧
      (exit.dispatch ["-0256", "x"] 7 none none {}).result =
        (exit.dispatch ["-9223372036854775808"] 7 none none {}).result ∧
      (¬ ∃ n, DenotesStatus "9223372036854775808" n) ∧
      (exit.dispatch ["9223372036854775808"] 7 none none {}).Replies 2
        "embsh: exit: 9223372036854775808: numeric argument required\n" {} := by
  obtain ⟨-, hnumber, hcongruent, hrefused⟩ := exit_replies 7 none none {}
  have hzero : DenotesStatus "-0256" (-256) := statusNumber?_eq_some_iff.1 (by decide +kernel)
  have hleast : DenotesStatus "-9223372036854775808" (-9223372036854775808) :=
    statusNumber?_eq_some_iff.1 (by decide +kernel)
  have hlarge : ¬ ∃ n, DenotesStatus "9223372036854775808" n := by
    rintro ⟨n, hn⟩
    have hnone : statusNumber? "9223372036854775808" = none := by decide +kernel
    rw [statusNumber?_eq_some_iff.2 hn] at hnone
    cases hnone
  have hsame : -256 ≡ -9223372036854775808 [ZMOD 256] := by decide
  exact ⟨hzero, hleast, hsame, (hnumber _ _ _ hzero).2.2, hcongruent _ _ _ _ _ _ hzero hleast hsame, hlarge,
    hrefused _ _ hlarge⟩

end Builtin

end LineShell
