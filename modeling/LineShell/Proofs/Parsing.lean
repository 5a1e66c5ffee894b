/-
The reader of trees against the grammar.

A rule of the reader that succeeds has taken tokens off the front of its cursor, and they spell the tree that it gives
(`stage_sound`, `pipeline_sound`, `statements_sound`). Conversely a rule finds the tree that some tokens spell when they
are put in front of a cursor whose next token cannot go on with it (`stage_complete`, `pipeline_complete`,
`statements_complete`). The room of the reader is exactly the room that `Tree.FitsIn` asks for.

`parse_iff_spells` is both directions for a whole list of tokens, with everything that the grammar says of the tree.
-/
import LineShell.Proofs.Grammar

namespace LineShell.Line

/-! ## cursors -/

namespace Cursor

/-- the cursor with tokens put back in front of it -/
def putBack (c : Cursor) (ts : List Token) : Cursor := { c with rest := ts ++ c.rest }

theorem putBack_append (c : Cursor) (ts us : List Token) : c.putBack (ts ++ us) = (c.putBack us).putBack ts := by
  simp [putBack]

theorem putBack_nil (c : Cursor) : c.putBack [] = c := rfl

theorem current_putBack (c : Cursor) (x : Token) (ts : List Token) : (c.putBack (x :: ts)).current = x := rfl

theorem next_putBack (c : Cursor) (x : Token) (ts : List Token) : (c.putBack (x :: ts)).next = c.putBack ts := rfl

/-- a cursor that does not stand at the end has its next token in front -/
theorem putBack_current {c : Cursor} (h : c.current.kind ≠ .endOfLine) : c = c.next.putBack [c.current] := by
  obtain ⟨rest, last⟩ := c
  cases rest with
  | nil => exact absurd rfl h
  | cons x rest => rfl

theorem putBack_words (c : Cursor) : c = c.afterWords.putBack c.words := by
  obtain ⟨rest, last⟩ := c
  simp [putBack, words, afterWords, List.takeWhile_append_dropWhile]

theorem takeWhile_rest {c : Cursor} {p : Token → Bool} (h : p c.current = false) : c.rest.takeWhile p = [] := by
  obtain ⟨rest, last⟩ := c
  cases rest with
  | nil => rfl
  | cons x rest => exact List.takeWhile_cons_of_neg (by simpa [current] using h)

theorem dropWhile_rest {c : Cursor} {p : Token → Bool} (h : p c.current = false) : c.rest.dropWhile p = c.rest := by
  have : c.rest.takeWhile p ++ c.rest.dropWhile p = c.rest := List.takeWhile_append_dropWhile
  rwa [takeWhile_rest h, List.nil_append] at this

/-- the next token does not go on with a command -/
def EndsStage (c : Cursor) : Prop := c.current.kind ≠ .word ∧ direction? c.current.kind = none

/-- the next token does not go on with a group -/
def EndsGroup (c : Cursor) : Prop := c.EndsStage ∧ c.current.kind ≠ .pipe

theorem words_putBack {c : Cursor} {ws : List Token} (hws : ∀ w ∈ ws, w.kind = .word) (hc : c.current.kind ≠ .word) :
    (c.putBack ws).words = ws ∧ (c.putBack ws).afterWords = c := by
  have hp : ∀ w ∈ ws, (fun t : Token => t.kind == .word) w := fun w hw => by simp [hws w hw]
  have hn : (fun t : Token => t.kind == .word) c.current = false := by simpa using hc
  constructor
  · simp only [words, putBack]
    rw [List.takeWhile_append_of_pos hp, takeWhile_rest hn, List.append_nil]
  · simp only [afterWords, putBack]
    rw [List.dropWhile_append_of_pos hp, dropWhile_rest hn]

theorem endsStage_of_pipe {c : Cursor} (h : c.current.kind = .pipe) : c.EndsStage := by
  simp [EndsStage, h, direction?]

theorem endsGroup_of_operator {c : Cursor} {sep : Separator} (h : c.current.kind = sep.operator) : c.EndsGroup := by
  cases sep <;> simp [EndsGroup, EndsStage, h, Separator.operator, direction?]

theorem endsGroup_of_end {c : Cursor} (h : c.current.kind = .endOfLine) : c.EndsGroup := by
  simp [EndsGroup, EndsStage, h, direction?]

end Cursor

theorem direction?_eq_some {k : TokenKind} {d : Direction} : direction? k = some d ↔ k = d.operator := by
  cases k <;> cases d <;> simp [direction?, Direction.operator]

theorem separator?_eq_some {k : TokenKind} {s : Separator} : separator? k = some s ↔ k = s.operator := by
  cases k <;> cases s <;> simp [separator?, Separator.operator]

/-! ## what a rule gives is spelt by the tokens it has taken -/

theorem redirection_sound {ts : List Token} {cmd t : Tree} {c c' : Cursor} (hcmd : SpellsCommand ts cmd)
    (h : redirection cmd c = .ok (t, c')) : ∃ us, c = c'.putBack us ∧ SpellsStage (ts ++ us) t := by
  unfold redirection at h
  split at h
  · cases h
    exact ⟨[], rfl, by simpa using SpellsStage.plain hcmd⟩
  · rename_i d hd
    rw [direction?_eq_some] at hd
    split at h
    · rename_i hw
      cases h
      refine ⟨[c.current, c.next.current], ?_, .redirected hcmd hd hw⟩
      have h1 : c = c.next.putBack [c.current] := Cursor.putBack_current (by rw [hd]; exact d.operator_ne_end)
      have h2 : c.next = c.next.next.putBack [c.next.current] := Cursor.putBack_current (by rw [hw]; decide)
      rw [h2] at h1
      exact h1
    · cases h

/-- the words that come next spell a command, if there are any -/
theorem spellsCommand_words {c : Cursor} (h : ¬ c.words.isEmpty = true) :
    SpellsCommand c.words (.command (c.words.map (·.span))) := by
  refine .words (by simpa using h) fun w hw => ?_
  simpa using List.all_eq_true.1 List.all_takeWhile w hw

theorem stage_sound {c c' : Cursor} {t : Tree} (h : stage c = .ok (t, c')) :
    ∃ ts, c = c'.putBack ts ∧ SpellsStage ts t := by
  unfold stage at h
  split at h
  · cases h
  · rename_i hne
    obtain ⟨us, hus, hs⟩ := redirection_sound (spellsCommand_words hne) h
    refine ⟨c.words ++ us, ?_, hs⟩
    rw [Cursor.putBack_append, ← hus]
    exact c.putBack_words

theorem pipeline_sound {room : Nat} {c c' : Cursor} {t : Tree} (h : pipeline room c = .ok (t, c')) :
    ∃ ts, c = c'.putBack ts ∧ SpellsGroup ts t ∧ t.stages.length ≤ room := by
  induction room generalizing c c' t with
  | zero => cases h
  | succ room ih =>
    unfold pipeline at h
    split at h
    · cases h
    · rename_i left c1 hstage
      obtain ⟨ts, hts, hs⟩ := stage_sound hstage
      split at h
      · rename_i hpipe
        split at h
        · cases h
        · rename_i right c2 hrest
          cases h
          obtain ⟨us, hus, hg, hlen⟩ := ih hrest
          refine ⟨ts ++ c1.current :: us, ?_, .piped hs hpipe hg, ?_⟩
          · have h1 : c1 = c1.next.putBack [c1.current] := Cursor.putBack_current (by rw [hpipe]; decide)
            rw [hus] at h1
            rw [hts, h1]
            simp [Cursor.putBack, Cursor.current]
          · simp only [Tree.stages, List.length_append, hs.isStage.length_stages]; omega
      · cases h
        exact ⟨ts, hts, .last hs, by rw [hs.isStage.length_stages]; omega⟩

theorem statements_sound {room : Nat} {c c' : Cursor} {t : Tree} (h : statements room c = .ok (t, c')) :
    ∃ ts, c = c'.putBack ts ∧ SpellsLine ts t ∧ t.FitsIn room := by
  induction room generalizing c c' t with
  | zero => cases h
  | succ room ih =>
    unfold statements at h
    split at h
    · cases h
    · rename_i left c1 hgroup
      obtain ⟨ts, hts, hg, hlen⟩ := pipeline_sound hgroup
      split at h
      · cases h
        exact ⟨ts, hts, .last hg, hg.isGroup.fitsIn.2 hlen⟩
      · rename_i sep hsep
        rw [separator?_eq_some] at hsep
        have h1 : c1 = c1.next.putBack [c1.current] := Cursor.putBack_current (by rw [hsep]; exact sep.operator_ne_end)
        split at h
        · cases h
          refine ⟨ts ++ [c1.current], ?_, .ended hg hsep, Tree.fitsIn_ended.2 hlen⟩
          rw [Cursor.putBack_append, ← h1]
          exact hts
        · split at h
          · cases h
          · rename_i right c2 hrest
            cases h
            obtain ⟨us, hus, hl, hfit⟩ := ih hrest
            refine ⟨ts ++ c1.current :: us, ?_, .chained hg hsep hl, Tree.fitsIn_chained.2 ⟨hlen, hfit⟩⟩
            rw [hus] at h1
            rw [hts, h1]
            simp [Cursor.putBack, Cursor.current]

/-! ## what is spelt is found -/

theorem SpellsCommand.ne_nil {ts : List Token} {t : Tree} (h : SpellsCommand ts t) : ts ≠ [] := by
  cases h with
  | words nonempty isWord => exact nonempty

theorem SpellsGroup.ne_nil {ts : List Token} {t : Tree} (h : SpellsGroup ts t) : ts ≠ [] := by
  cases h with
  | last hs =>
    cases hs with
    | plain hc => exact hc.ne_nil
    | redirected hc hop hw => simp
  | piped hs hop hg => simp

theorem SpellsLine.ne_nil {ts : List Token} {t : Tree} (h : SpellsLine ts t) : ts ≠ [] := by
  cases h with
  | last hg => exact hg.ne_nil
  | ended hg hop => simp
  | chained hg hop hl => simp

/-- behind its target a redirected command is complete, whatever comes next -/
theorem stage_complete_redirected {ts : List Token} {t : Tree} {op target : Token} {d : Direction}
    (h : SpellsCommand ts t) (hop : op.kind = d.operator) (htarget : target.kind = .word) (c : Cursor) :
    stage (c.putBack (ts ++ [op, target])) = .ok (.redirect d target.span t, c) := by
  cases h with
  | words nonempty isWord =>
    rw [Cursor.putBack_append]
    have hne : (c.putBack [op, target]).current.kind ≠ .word := by
      rw [Cursor.current_putBack, hop]; exact d.operator_ne_word
    obtain ⟨hw, ha⟩ := Cursor.words_putBack isWord hne
    have hd : direction? op.kind = some d := direction?_eq_some.2 hop
    simp [stage, hw, ha, redirection, nonempty, Cursor.current_putBack, Cursor.next_putBack, hd, htarget,
      Cursor.putBack_nil]

theorem stage_complete {ts : List Token} {t : Tree} (h : SpellsStage ts t) {c : Cursor} (hc : c.EndsStage) :
    stage (c.putBack ts) = .ok (t, c) := by
  cases h with
  | plain hcmd =>
    cases hcmd with
    | words nonempty isWord =>
      obtain ⟨hw, ha⟩ := Cursor.words_putBack isWord hc.1
      simp [stage, hw, ha, redirection, hc.2, nonempty]
  | redirected hcmd hop htarget => exact stage_complete_redirected hcmd hop htarget c

theorem pipeline_complete {ts : List Token} {t : Tree} (h : SpellsGroup ts t) {room : Nat} {c : Cursor}
    (hroom : t.stages.length ≤ room) (hc : c.EndsGroup) : pipeline room (c.putBack ts) = .ok (t, c) := by
  induction h generalizing room with
  | last hs =>
    obtain ⟨room, rfl⟩ : ∃ r, room = r + 1 := ⟨room - 1, by rw [hs.isStage.length_stages] at hroom; omega⟩
    simp [pipeline, stage_complete hs hc.1, hc.2]
  | @piped ts us op left right hs hop hg ih =>
    simp only [Tree.stages, List.length_append, hs.isStage.length_stages] at hroom
    obtain ⟨room, rfl⟩ : ∃ r, room = r + 1 := ⟨room - 1, by omega⟩
    have hcur : (c.putBack (op :: us)).current.kind = .pipe := hop
    rw [Cursor.putBack_append]
    simp [pipeline, stage_complete hs (Cursor.endsStage_of_pipe hcur), hcur, Cursor.next_putBack,
      ih (show right.stages.length ≤ room by omega)]

theorem statements_complete {ts : List Token} {t : Tree} (h : SpellsLine ts t) {room : Nat} {c : Cursor}
    (hfit : t.FitsIn room) (hc : c.current.kind = .endOfLine) : statements room (c.putBack ts) = .ok (t, c) := by
  induction h generalizing room with
  | last hg =>
    cases room with
    | zero => exact absurd hfit (Tree.IsLine.last hg.isGroup).not_fitsIn_zero
    | succ room =>
      have hp := pipeline_complete hg (hg.isGroup.fitsIn.1 hfit) (Cursor.endsGroup_of_end hc)
      simp [statements, hp, hc, separator?]
  | @ended ts op left sep hg hop =>
    cases room with
    | zero => exact absurd hfit (Tree.IsLine.ended sep hg.isGroup).not_fitsIn_zero
    | succ room =>
      have hcur : (c.putBack [op]).current.kind = sep.operator := hop
      have hp := pipeline_complete hg (Tree.fitsIn_ended.1 hfit) (Cursor.endsGroup_of_operator hcur)
      rw [Cursor.putBack_append]
      simp [statements, hp, separator?_eq_some.2 hcur, Cursor.next_putBack, Cursor.putBack_nil, hc]
  | @chained ts us op left right sep hg hop hl ih =>
    cases room with
    | zero => exact absurd hfit (Tree.IsLine.chained sep hg.isGroup hl.isLine).not_fitsIn_zero
    | succ room =>
      obtain ⟨hleft, hright⟩ := Tree.fitsIn_chained.1 hfit
      have hcur : (c.putBack (op :: us)).current.kind = sep.operator := hop
      have hp := pipeline_complete hg hleft (Cursor.endsGroup_of_operator hcur)
      -- the rest of the line begins with a token that is no end, so the separator does not dangle
      have hnext : (c.putBack us).current.kind ≠ .endOfLine := by
        obtain ⟨x, us, rfl⟩ := List.exists_cons_of_ne_nil hl.ne_nil
        exact hl.kind_ne_end x List.mem_cons_self
      rw [Cursor.putBack_append]
      simp [statements, hp, separator?_eq_some.2 hcur, Cursor.next_putBack, hnext, ih hright]

/-! ## whole lists of tokens -/

/-- the tokens in front of the first end of line, or all of them if there is none -/
def upToEnd (ts : List Token) : List Token := ts.takeWhile (·.kind != .endOfLine)

theorem upToEnd_append {us : List Token} {c : Cursor} (hus : ∀ x ∈ us, x.kind ≠ .endOfLine)
    (hc : c.current.kind = .endOfLine) : upToEnd (us ++ c.rest) = us := by
  have hp : ∀ x ∈ us, (fun t : Token => t.kind != .endOfLine) x := fun x hx => by simp [hus x hx]
  have hn : (fun t : Token => t.kind != .endOfLine) c.current = false := by simp [hc]
  rw [upToEnd, List.takeWhile_append_of_pos hp, Cursor.takeWhile_rest hn, List.append_nil]

/-- a list of tokens is what stands in front of its end, put back at a cursor that stands at the end -/
theorem start_eq_putBack (ts : List Token) :
    ∃ c : Cursor, c.current.kind = .endOfLine ∧ Cursor.start ts = c.putBack (upToEnd ts) := by
  refine ⟨⟨ts.dropWhile (·.kind != .endOfLine), (Cursor.start ts).last⟩, ?_, ?_⟩
  · cases hd : ts.dropWhile (·.kind != .endOfLine) with
    | nil => rfl
    | cons x xs =>
      have hx := List.head?_dropWhile_not (fun t : Token => t.kind != .endOfLine) ts
      rw [hd] at hx
      simpa [Cursor.current] using hx
  · simp [Cursor.start, Cursor.putBack, upToEnd, List.takeWhile_append_dropWhile]

theorem parse_eq_ok_iff {ts : List Token} {t : Tree} :
    parse ts = .ok t ↔ SpellsLine (upToEnd ts) t ∧ t.FitsIn maxDepth := by
  constructor
  · intro h
    unfold parse at h
    split at h
    · cases h
    · rename_i t' c hst
      split at h
      · rename_i hend
        cases h
        obtain ⟨us, hus, hl, hfit⟩ := statements_sound hst
        have hts : ts = us ++ c.rest := congrArg Cursor.rest hus
        rw [hts, upToEnd_append hl.kind_ne_end hend]
        exact ⟨hl, hfit⟩
      · cases h
  · rintro ⟨hl, hfit⟩
    obtain ⟨c, hc, hstart⟩ := start_eq_putBack ts
    simp [parse, hstart, statements_complete hl hfit hc, hc]

/-- tokens spell one tree at most: with enough room the reader would find each of them -/
theorem SpellsLine.unique {ts : List Token} {t t' : Tree} (h : SpellsLine ts t) (h' : SpellsLine ts t') : t = t' := by
  obtain ⟨room, hr⟩ := h.isLine.exists_fitsIn
  obtain ⟨room', hr'⟩ := h'.isLine.exists_fitsIn
  let c : Cursor := ⟨[], 0⟩
  have h1 := statements_complete h (c := c) (hr.mono (Nat.le_max_left room room')) rfl
  have h2 := statements_complete h' (c := c) (hr'.mono (Nat.le_max_right room room')) rfl
  rw [h1] at h2
  cases h2
  rfl

/-- **The reader reads exactly the grammar.** A list of tokens, cut at its first end of line, is read as `t` if and only
if it spells `t` and every statement of `t` fits: the k-th one with p stages has k + p at most `maxDepth`. What is spelt
is one tree only, its leaves are the tokens, and it has the shape of a line: statements along the right spine, stages
along the right spine of each, and a redirection around one command. -/
theorem parse_iff_spells (ts : List Token) (t : Tree) :
    (parse ts = .ok t ↔ SpellsLine (upToEnd ts) t ∧ t.FitsIn maxDepth) ∧
    (SpellsLine (upToEnd ts) t →
      (∀ t', SpellsLine (upToEnd ts) t' → t' = t) ∧ t.leaves = (upToEnd ts).map Token.leaf ∧ t.IsLine) :=
  ⟨parse_eq_ok_iff, fun h => ⟨fun _ h' => h'.unique h, h.leaves, h.isLine⟩⟩

end LineShell.Line
