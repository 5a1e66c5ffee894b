/-
Where a list of tokens goes wrong.

The reader of trees never looks further than the token that it cannot take. `Rejects` says this of one rule: it has
taken some tokens, and whatever comes behind the next one, its error is about that one. What it had taken begins
something that it would have read: either one more word would have done, or there is no room for one more stage. Each
rule that fails does so (`stage_fault`, `pipeline_fault`, `statements_fault`).

- `statements_rereads`: what is read does not depend on anything behind the next token.
- `OneTooMany`: by numbers, behind which tokens there is no room left. `statements_tooDeep`: there the reader stops.
- `parse_fault`: the error of a list of tokens is about the first token that is wrong, or about the first one for
  which there is no room, and then nothing that is wrong further on is seen.
-/
import LineShell.Proofs.Joining

namespace LineShell.Line

namespace Cursor

theorem putBack_injective (c : Cursor) {ts us : List Token} (h : c.putBack ts = c.putBack us) : ts = us :=
  List.append_cancel_right (congrArg rest h)

theorem current_putBack_congr {c d : Cursor} (h : d.current = c.current) (ts : List Token) :
    (d.putBack ts).current = (c.putBack ts).current := by
  cases ts with
  | nil => exact h
  | cons x ts => rfl

theorem error_congr {c d : Cursor} (h : d.current = c.current) (fault : TokenKind → SyntaxFault) :
    d.error fault = c.error fault := by
  simp only [error, h]

theorem tooDeep_congr {c d : Cursor} (h : d.current = c.current) : d.tooDeep = c.tooDeep := by
  simp only [tooDeep, h]

theorem words_isEmpty {c : Cursor} : c.words.isEmpty = true ↔ c.current.kind ≠ .word := by
  obtain ⟨rest, last⟩ := c
  cases rest with
  | nil => simp [words, current, Token.ofEnd]
  | cons x rest =>
    by_cases hx : x.kind = .word
    · simp [words, current, hx]
    · simp [words, current, hx]

/-- a token that is no end, put back in front of what was put back behind it -/
theorem eq_putBack_cons {c d : Cursor} {ts : List Token} (hc : c.current.kind ≠ .endOfLine)
    (h : c.next = d.putBack ts) : c = d.putBack (c.current :: ts) := by
  have hcurrent := Cursor.putBack_current hc
  rwa [h, ← Cursor.putBack_append, List.singleton_append] at hcurrent

theorem current_afterWords (c : Cursor) : c.afterWords.current.kind ≠ .word := by
  have hhead := List.head?_dropWhile_not (fun t : Token => t.kind == .word) c.rest
  simp only [afterWords, current]
  cases hdrop : c.rest.dropWhile (·.kind == .word) with
  | nil => simp [Token.ofEnd]
  | cons x rest =>
    rw [hdrop] at hhead
    simpa using hhead

end Cursor

/-! ## what is read does not depend on what is behind the next token -/

theorem stage_rereads {c d : Cursor} {t : Tree} (h : stage c = .ok (t, d)) :
    ∃ ts, c = d.putBack ts ∧ ∀ d', d'.current = d.current → stage (d'.putBack ts) = .ok (t, d') := by
  unfold stage at h
  split at h
  · cases h
  · rename_i hne
    have hcommand := spellsCommand_words hne
    unfold redirection at h
    split at h
    · rename_i hdirection
      cases h
      refine ⟨c.words, c.putBack_words, ?_⟩
      intro d' hd'
      apply stage_complete (.plain hcommand)
      rw [Cursor.EndsStage, hd']
      exact ⟨c.current_afterWords, hdirection⟩
    · rename_i dir hdirection
      rw [direction?_eq_some] at hdirection
      split at h
      · rename_i hword
        cases h
        have hfirst : c.afterWords = c.afterWords.next.putBack [c.afterWords.current] := by
          apply Cursor.putBack_current
          rw [hdirection]
          exact dir.operator_ne_end
        have hsecond : c.afterWords.next = c.afterWords.next.next.putBack [c.afterWords.next.current] := by
          apply Cursor.putBack_current
          rw [hword]
          decide
        refine ⟨c.words ++ [c.afterWords.current, c.afterWords.next.current], ?_, ?_⟩
        · rw [hsecond] at hfirst
          rw [Cursor.putBack_append]
          exact c.putBack_words.trans (congrArg (Cursor.putBack · c.words) hfirst)
        · intro d' _
          exact stage_complete_redirected hcommand hdirection hword d'
      · cases h

theorem pipeline_rereads {room : Nat} {c d : Cursor} {t : Tree} (h : pipeline room c = .ok (t, d)) :
    ∃ ts, c = d.putBack ts ∧ ∀ d', d'.current = d.current → pipeline room (d'.putBack ts) = .ok (t, d') := by
  induction room generalizing c t with
  | zero => cases h
  | succ room ih =>
    unfold pipeline at h
    split at h
    · cases h
    · rename_i left c1 hstage
      split at h
      · rename_i hpipe
        split at h
        · cases h
        · rename_i right c2 hrest
          cases h
          obtain ⟨ts, hts, hs⟩ := stage_sound hstage
          obtain ⟨us, hus, hread⟩ := ih hrest
          have hfront : c1 = d.putBack (c1.current :: us) := by
            apply Cursor.eq_putBack_cons _ hus
            rw [hpipe]
            decide
          refine ⟨ts ++ c1.current :: us, ?_, ?_⟩
          · rw [Cursor.putBack_append, ← hfront]
            exact hts
          · intro d' hd'
            have hcurrent : (d'.putBack (c1.current :: us)).current.kind = .pipe := hpipe
            rw [Cursor.putBack_append]
            simp [pipeline, stage_complete hs (Cursor.endsStage_of_pipe hcurrent), hcurrent, Cursor.next_putBack,
              hread d' hd']
      · rename_i hpipe
        cases h
        obtain ⟨ts, hts, hread⟩ := stage_rereads hstage
        refine ⟨ts, hts, ?_⟩
        intro d' hd'
        have hcurrent : d'.current.kind ≠ .pipe := by rwa [hd']
        simp [pipeline, hread d' hd', hcurrent]

theorem statements_rereads {room : Nat} {c d : Cursor} {t : Tree} (h : statements room c = .ok (t, d)) :
    ∃ ts, c = d.putBack ts ∧ ∀ d', d'.current = d.current → statements room (d'.putBack ts) = .ok (t, d') := by
  induction room generalizing c t with
  | zero => cases h
  | succ room ih =>
    unfold statements at h
    split at h
    · cases h
    · rename_i left c1 hgroup
      split at h
      · rename_i hseparator
        cases h
        obtain ⟨ts, hts, hread⟩ := pipeline_rereads hgroup
        refine ⟨ts, hts, ?_⟩
        intro d' hd'
        have hcurrent : separator? d'.current.kind = none := by rwa [hd']
        simp [statements, hread d' hd', hcurrent]
      · rename_i sep hseparator
        obtain ⟨ts, hts, hg, hlength⟩ := pipeline_sound hgroup
        have hsep := separator?_eq_some.1 hseparator
        have hfront : c1 = c1.next.putBack [c1.current] := by
          apply Cursor.putBack_current
          rw [hsep]
          exact sep.operator_ne_end
        -- what was read in front of the separator is read again whatever stands behind it
        have hleft : ∀ d' us, pipeline room ((Cursor.putBack d' (c1.current :: us)).putBack ts) =
            .ok (left, d'.putBack (c1.current :: us)) := by
          intro d' us
          have hcurrent : (Cursor.putBack d' (c1.current :: us)).current.kind = sep.operator := hsep
          exact pipeline_complete hg hlength (Cursor.endsGroup_of_operator hcurrent)
        split at h
        · rename_i hend
          cases h
          refine ⟨ts ++ [c1.current], ?_, ?_⟩
          · rw [Cursor.putBack_append, ← hfront]
            exact hts
          · intro d' hd'
            have hcurrent : d'.current.kind = .endOfLine := by rwa [hd']
            rw [Cursor.putBack_append]
            simp [statements, hleft, Cursor.current_putBack, hseparator, Cursor.next_putBack,
              Cursor.putBack_nil, hcurrent]
        · rename_i hend
          split at h
          · cases h
          · rename_i right c2 hrest
            cases h
            obtain ⟨us, hus, hread⟩ := ih hrest
            refine ⟨ts ++ c1.current :: us, ?_, ?_⟩
            · rw [← List.singleton_append, ← List.append_assoc, Cursor.putBack_append, ← hus, Cursor.putBack_append,
                ← hfront]
              exact hts
            · intro d' hd'
              have hcurrent : (d'.putBack us).current.kind ≠ .endOfLine := by
                rwa [Cursor.current_putBack_congr hd' us, ← hus]
              rw [Cursor.putBack_append]
              simp [statements, hleft, Cursor.current_putBack, hseparator, Cursor.next_putBack, hcurrent, hread d' hd']

/-! ## a rule that fails -/

/-- behind `front` a rule gives the error `e` about the token `x`, whatever comes behind that -/
structure Rejects (rule : Cursor → Parse) (front : List Token) (x : Token) (e : ParseError) : Prop where
  offset : e.offset = x.span.start
  early : ∀ d : Cursor, d.current = x → rule (d.putBack front) = .error e

/-- with one more word the tokens spell something -/
def Continues (spells : List Token → Tree → Prop) (front : List Token) : Prop :=
  ∀ w : Token, w.kind = .word → ∃ t, spells (front ++ [w]) t

theorem continues_stage_words {ws : List Token} (h : ∀ w ∈ ws, w.kind = .word) : Continues SpellsStage ws := by
  intro w hw
  refine ⟨_, .plain (.words (by simp) ?_)⟩
  intro x hx
  rcases List.mem_append.1 hx with hx | hx
  · exact h x hx
  · rwa [List.mem_singleton.1 hx]

theorem stage_fault {c : Cursor} {e : ParseError} (h : stage c = .error e) :
    ∃ (front : List Token) (d : Cursor), c = d.putBack front ∧ Rejects stage front d.current e ∧
      e.fault.kind? = some d.current.kind ∧ Continues SpellsStage front := by
  unfold stage at h
  split at h
  · rename_i hwords
    cases h
    have hcurrent := Cursor.words_isEmpty.1 hwords
    refine ⟨[], c, rfl, ⟨rfl, ?_⟩, rfl, continues_stage_words (by simp)⟩
    intro d hd
    have hnone : d.words.isEmpty = true := by rwa [Cursor.words_isEmpty, hd]
    rw [Cursor.putBack_nil, stage, if_pos hnone, Cursor.error_congr hd]
  · rename_i hne
    have hcommand := spellsCommand_words hne
    unfold redirection at h
    split at h
    · cases h
    · rename_i dir hdirection
      have hop := direction?_eq_some.1 hdirection
      split at h
      · cases h
      · rename_i htarget
        cases h
        have hfront : c.afterWords = c.afterWords.next.putBack [c.afterWords.current] := by
          apply Cursor.putBack_current
          rw [hop]
          exact dir.operator_ne_end
        refine ⟨c.words ++ [c.afterWords.current], c.afterWords.next, ?_, ⟨rfl, ?_⟩, rfl, ?_⟩
        · rw [Cursor.putBack_append, ← hfront]
          exact c.putBack_words
        · intro d hd
          have hfirst : (d.putBack [c.afterWords.current]).current.kind ≠ .word := by
            rw [Cursor.current_putBack, hop]
            exact dir.operator_ne_word
          have hisWord : ∀ w ∈ c.words, w.kind = .word := by
            intro w hw
            simpa using List.all_eq_true.1 List.all_takeWhile w hw
          obtain ⟨hwords, hafter⟩ := Cursor.words_putBack hisWord hfirst
          have hnext : d.current.kind ≠ .word := by rwa [hd]
          rw [Cursor.putBack_append]
          simp [stage, redirection, hwords, hafter, hne, Cursor.current_putBack, Cursor.next_putBack,
            Cursor.putBack_nil, hdirection, hnext, Cursor.error_congr hd]
        · intro w hw
          refine ⟨.redirect dir w.span (.command (c.words.map (·.span))), ?_⟩
          rw [List.append_assoc]
          exact .redirected hcommand hop hw

/-- behind a stage and a `|`, a group fails as the rest of it does -/
theorem pipeline_fault {room : Nat} {c : Cursor} {e : ParseError} (h : pipeline room c = .error e) :
    ∃ (front : List Token) (d : Cursor), c = d.putBack front ∧ Rejects (pipeline room) front d.current e ∧
      (e.fault.kind? = some d.current.kind ∧
          Continues (fun ts t => SpellsGroup ts t ∧ t.stages.length ≤ room) front ∨
        e.fault = .tooDeep ∧ (room = 0 ∧ front = [] ∨
          ∃ us op t, front = us ++ [op] ∧ SpellsGroup us t ∧ op.kind = .pipe ∧ t.stages.length = room)) := by
  induction room generalizing c with
  | zero =>
    cases h
    refine ⟨[], c, rfl, ⟨rfl, ?_⟩, .inr ⟨rfl, .inl ⟨rfl, rfl⟩⟩⟩
    intro d hd
    rw [Cursor.putBack_nil, pipeline, Cursor.tooDeep_congr hd]
  | succ room ih =>
    unfold pipeline at h
    split at h
    · rename_i e' hstage
      cases h
      obtain ⟨front, d, hc, hrejects, hkind, hmore⟩ := stage_fault hstage
      refine ⟨front, d, hc, ⟨hrejects.offset, ?_⟩, .inl ⟨hkind, ?_⟩⟩
      · intro d' hd'
        rw [pipeline, hrejects.early d' hd']
      · intro w hw
        obtain ⟨t, ht⟩ := hmore w hw
        exact ⟨t, .last ht, by rw [ht.isStage.length_stages]; omega⟩
    · rename_i left c1 hstage
      split at h
      · rename_i hpipe
        split at h
        · rename_i e' hrest
          cases h
          obtain ⟨ts, hts, hs⟩ := stage_sound hstage
          obtain ⟨front, d, hfront, hrejects, hcase⟩ := ih hrest
          have hc1 : c1 = d.putBack (c1.current :: front) := by
            apply Cursor.eq_putBack_cons _ hfront
            rw [hpipe]
            decide
          have hlength : left.stages.length = 1 := hs.isStage.length_stages
          refine ⟨ts ++ c1.current :: front, d, ?_, ⟨hrejects.offset, ?_⟩, ?_⟩
          · rw [Cursor.putBack_append, ← hc1]
            exact hts
          · intro d' hd'
            have hcurrent : (d'.putBack (c1.current :: front)).current.kind = .pipe := hpipe
            rw [Cursor.putBack_append]
            simp [pipeline, stage_complete hs (Cursor.endsStage_of_pipe hcurrent), hcurrent, Cursor.next_putBack,
              hrejects.early d' hd']
          · rcases hcase with ⟨hkind, hmore⟩ | ⟨hdeep, hfull⟩
            · refine .inl ⟨hkind, ?_⟩
              intro w hw
              obtain ⟨t, ht, hroom⟩ := hmore w hw
              refine ⟨.pipe left t, ?_, ?_⟩
              · rw [List.append_assoc, List.cons_append]
                exact .piped hs hpipe ht
              · simp only [Tree.stages, List.length_append, hlength]
                omega
            · refine .inr ⟨hdeep, .inr ?_⟩
              rcases hfull with ⟨rfl, rfl⟩ | ⟨us, op, t, rfl, ht, hop, hroom⟩
              · exact ⟨ts, c1.current, left, rfl, .last hs, hpipe, hlength⟩
              · refine ⟨ts ++ c1.current :: us, op, .pipe left t, ?_, .piped hs hpipe ht, hop, ?_⟩
                · rw [List.append_assoc, List.cons_append]
                · simp only [Tree.stages, List.length_append, hlength, hroom]
                  omega
        · cases h
      · cases h

/-! ## where there is no room -/

/-- With `room` levels there is no room behind the tokens `us` and the operator `op` behind them: the tokens spell a
line that fits, and `op` asks for one more stage than its last statement may have, or for one more statement than the
line may have. The k-th statement may have `room - k` stages. -/
def OneTooMany (room : Nat) (us : List Token) (op : Token) : Prop :=
  ∃ t, SpellsLine us t ∧ t.dangles = false ∧ t.FitsIn room ∧
    (op.kind = .pipe ∧ (∃ s, t.statements.getLast? = some s ∧ t.statements.length + s.group.stages.length = room) ∨
      (∃ sep : Separator, op.kind = sep.operator) ∧ t.statements.length + 1 = room)

theorem SpellsGroup.dangles {ts : List Token} {t : Tree} (h : SpellsGroup ts t) : t.dangles = false := by
  cases h.isGroup with
  | last hs =>
    cases hs with
    | plain hc => cases hc; rfl
    | redirected d target hc => rfl
  | piped hl hr => rfl

theorem OneTooMany.of_group {ts : List Token} {t : Tree} {op : Token} {room : Nat} (h : SpellsGroup ts t)
    (hop : op.kind = .pipe) (hroom : t.stages.length = room) : OneTooMany (room + 1) ts op := by
  refine ⟨t, .last h, h.dangles, h.isGroup.fitsIn.2 (Nat.le_of_eq hroom), .inl ⟨hop, ⟨t, false⟩, ?_⟩⟩
  rw [h.isGroup.statements, hroom]
  exact ⟨rfl, Nat.add_comm 1 room⟩

/-- a statement in front takes one level of the room -/
theorem OneTooMany.behind {ts us : List Token} {left : Tree} {sep : Separator} {x op : Token} {room : Nat}
    (h : SpellsGroup ts left) (hroom : left.stages.length ≤ room) (hx : x.kind = sep.operator)
    (hrest : OneTooMany room us op) : OneTooMany (room + 1) (ts ++ x :: us) op := by
  obtain ⟨t, ht, hdangles, hfit, hcase⟩ := hrest
  refine ⟨.chained left sep t, .chained h hx ht, hdangles, Tree.fitsIn_chained.2 ⟨hroom, hfit⟩, ?_⟩
  rw [Tree.statements, List.length_cons]
  rcases hcase with ⟨hop, s, hs, hfull⟩ | ⟨hop, hfull⟩
  · refine .inl ⟨hop, s, ?_, ?_⟩
    · rw [List.getLast?_cons, hs]
      rfl
    · omega
  · exact .inr ⟨hop, by omega⟩

theorem pipeline_tooDeep {us : List Token} {t : Tree} {op : Token} {room : Nat} (h : SpellsGroup us t)
    (hop : op.kind = .pipe) (hroom : t.stages.length = room) (d : Cursor) :
    pipeline room (d.putBack (us ++ [op])) = .error d.tooDeep := by
  induction h generalizing room with
  | last hs =>
    obtain rfl : room = 1 := by rw [← hroom, hs.isStage.length_stages]
    have hcurrent : (d.putBack [op]).current.kind = .pipe := hop
    rw [Cursor.putBack_append]
    simp [pipeline, stage_complete hs (Cursor.endsStage_of_pipe hcurrent), hcurrent, Cursor.next_putBack,
      Cursor.putBack_nil]
  | @piped ts us x left right hs hx hg ih =>
    simp only [Tree.stages, List.length_append, hs.isStage.length_stages] at hroom
    obtain ⟨room, rfl⟩ : ∃ r, room = r + 1 := ⟨room - 1, by omega⟩
    have hcurrent : (d.putBack (x :: (us ++ [op]))).current.kind = .pipe := hx
    rw [List.append_assoc, List.cons_append, Cursor.putBack_append]
    simp [pipeline, stage_complete hs (Cursor.endsStage_of_pipe hcurrent), hcurrent, Cursor.next_putBack,
      ih (show right.stages.length = room by omega)]

/-- where there is no room the reader stops, unless the line ends there and its last separator may dangle -/
theorem statements_tooDeep {us : List Token} {op : Token} {room : Nat} (h : OneTooMany room us op) {d : Cursor}
    (hd : d.current.kind = .endOfLine → op.kind = .pipe) :
    statements room (d.putBack (us ++ [op])) = .error d.tooDeep := by
  obtain ⟨t, ht, hdangles, hfit, hcase⟩ := h
  induction ht generalizing room with
  | @last ts t hg =>
    cases room with
    | zero => exact absurd hfit (Tree.IsLine.last hg.isGroup).not_fitsIn_zero
    | succ room =>
      rw [hg.isGroup.statements] at hcase
      rcases hcase with ⟨hop, s, hs, hfull⟩ | ⟨⟨sep, hop⟩, hfull⟩
      · obtain rfl : ⟨t, false⟩ = s := Option.some.inj hs
        have hroom : t.stages.length = room := by
          simp only [List.length_singleton] at hfull
          omega
        rw [statements, pipeline_tooDeep hg hop hroom]
      · obtain rfl : room = 1 := by
          simp only [List.length_singleton] at hfull
          omega
        have hcurrent : (d.putBack [op]).current.kind = sep.operator := hop
        have hleft := pipeline_complete hg (hg.isGroup.fitsIn.1 hfit) (Cursor.endsGroup_of_operator hcurrent)
        have hnext : d.current.kind ≠ .endOfLine := by
          intro hend
          rw [hd hend] at hop
          cases sep <;> cases hop
        have hdeep : statements 1 d = .error d.tooDeep := rfl
        rw [Cursor.putBack_append, statements, hleft]
        simp [separator?_eq_some.2 hcurrent, Cursor.next_putBack, Cursor.putBack_nil, hnext, hdeep]
  | ended hg hx => cases hdangles
  | @chained ts us x left right sep hg hx hl ih =>
    cases room with
    | zero => exact absurd hfit (Tree.IsLine.chained sep hg.isGroup hl.isLine).not_fitsIn_zero
    | succ room =>
      obtain ⟨hleft, hright⟩ := Tree.fitsIn_chained.1 hfit
      have hcurrent : (d.putBack (x :: (us ++ [op]))).current.kind = sep.operator := hx
      have hgroup := pipeline_complete hg hleft (Cursor.endsGroup_of_operator hcurrent)
      have hnext : (d.putBack (us ++ [op])).current.kind ≠ .endOfLine := by
        obtain ⟨y, us, rfl⟩ := List.exists_cons_of_ne_nil hl.ne_nil
        exact hl.kind_ne_end y List.mem_cons_self
      have hrest : statements room (d.putBack (us ++ [op])) = .error d.tooDeep := by
        apply ih hdangles hright
        rw [Tree.statements, List.length_cons] at hcase
        rcases hcase with ⟨hop, s, hs, hfull⟩ | ⟨hop, hfull⟩
        · refine .inl ⟨hop, s, ?_, by omega⟩
          obtain ⟨y, ys, hy⟩ := List.exists_cons_of_ne_nil hl.isLine.statements_ne_nil
          rw [hy] at hs ⊢
          simpa using hs
        · exact .inr ⟨hop, by omega⟩
      rw [List.append_assoc, List.cons_append, Cursor.putBack_append]
      simp [statements, hgroup, separator?_eq_some.2 hcurrent, Cursor.next_putBack, hnext, hrest]

/-- behind a group and a separator, a line fails as the rest of it does -/
theorem statements_fault {room : Nat} {c : Cursor} {e : ParseError} (h : statements room c = .error e) :
    ∃ (front : List Token) (d : Cursor), c = d.putBack front ∧ Rejects (statements room) front d.current e ∧
      (e.fault.kind? = some d.current.kind ∧ Continues (fun ts t => SpellsLine ts t ∧ t.FitsIn room) front ∨
        e.fault = .tooDeep ∧ (room ≤ 1 ∧ front = [] ∨ ∃ us op, front = us ++ [op] ∧ OneTooMany room us op)) := by
  induction room generalizing c with
  | zero =>
    cases h
    refine ⟨[], c, rfl, ⟨rfl, ?_⟩, .inr ⟨rfl, .inl ⟨Nat.zero_le 1, rfl⟩⟩⟩
    intro d hd
    rw [Cursor.putBack_nil, statements, Cursor.tooDeep_congr hd]
  | succ room ih =>
    unfold statements at h
    split at h
    · rename_i e' hgroup
      cases h
      obtain ⟨front, d, hc, hrejects, hcase⟩ := pipeline_fault hgroup
      refine ⟨front, d, hc, ⟨hrejects.offset, ?_⟩, ?_⟩
      · intro d' hd'
        rw [statements, hrejects.early d' hd']
      · rcases hcase with ⟨hkind, hmore⟩ | ⟨hdeep, ⟨rfl, hfront⟩ | ⟨us, op, t, hfront, ht, hop, hroom⟩⟩
        · refine .inl ⟨hkind, ?_⟩
          intro w hw
          obtain ⟨t, ht, hroom⟩ := hmore w hw
          exact ⟨t, .last ht, ht.isGroup.fitsIn.2 hroom⟩
        · exact .inr ⟨hdeep, .inl ⟨Nat.le_refl 1, hfront⟩⟩
        · exact .inr ⟨hdeep, .inr ⟨us, op, hfront, .of_group ht hop hroom⟩⟩
    · rename_i left c1 hgroup
      split at h
      · cases h
      · rename_i sep hseparator
        split at h
        · cases h
        · rename_i hend
          split at h
          · rename_i e' hrest
            cases h
            obtain ⟨ts, hts, hg, hlength⟩ := pipeline_sound hgroup
            obtain ⟨front, d, hfront, hrejects, hcase⟩ := ih hrest
            have hsep := separator?_eq_some.1 hseparator
            have hc1 : c1 = d.putBack (c1.current :: front) := by
              apply Cursor.eq_putBack_cons _ hfront
              rw [hsep]
              exact sep.operator_ne_end
            refine ⟨ts ++ c1.current :: front, d, ?_, ⟨hrejects.offset, ?_⟩, ?_⟩
            · rw [Cursor.putBack_append, ← hc1]
              exact hts
            · intro d' hd'
              have hcurrent : (d'.putBack (c1.current :: front)).current.kind = sep.operator := hsep
              have hleft := pipeline_complete hg hlength (Cursor.endsGroup_of_operator hcurrent)
              have hnext : (d'.putBack front).current.kind ≠ .endOfLine := by
                rwa [Cursor.current_putBack_congr hd' front, ← hfront]
              rw [Cursor.putBack_append]
              simp [statements, hleft, separator?_eq_some.2 hcurrent, Cursor.next_putBack, hnext, hrejects.early d' hd']
            · rcases hcase with ⟨hkind, hmore⟩ | ⟨hdeep, ⟨hroom, rfl⟩ | ⟨us, op, rfl, hfull⟩⟩
              · refine .inl ⟨hkind, ?_⟩
                intro w hw
                obtain ⟨t, ht, hfit⟩ := hmore w hw
                refine ⟨.chained left sep t, ?_, Tree.fitsIn_chained.2 ⟨hlength, hfit⟩⟩
                rw [List.append_assoc, List.cons_append]
                exact .chained hg hsep ht
              · -- the group has a stage, so there is just the room for it
                have hpos : 0 < left.stages.length := List.length_pos_iff.2 hg.isGroup.stages_ne_nil
                refine .inr ⟨hdeep, .inr ⟨ts, c1.current, rfl, left, .last hg, hg.dangles, ?_, .inr ⟨⟨sep, hsep⟩, ?_⟩⟩⟩
                · exact hg.isGroup.fitsIn.2 hlength
                · rw [hg.isGroup.statements, List.length_singleton]
                  omega
              · refine .inr ⟨hdeep, .inr ⟨ts ++ c1.current :: us, op, ?_, .behind hg hlength hsep hfull⟩⟩
                rw [List.append_assoc, List.cons_append]
          · cases h

/-! ## whole lists of tokens -/

/-- an end of the line, or a word and an end, make of the tokens a line that is read -/
def Begins (front : List Token) : Prop :=
  ∀ w fin : Token, w.kind = .word → fin.kind = .endOfLine →
    (∃ t, parse (front ++ [fin]) = .ok t) ∨ ∃ t, parse (front ++ [w, fin]) = .ok t

theorem parse_append_end {ts : List Token} {t : Tree} {fin : Token} (h : SpellsLine ts t) (hfit : t.FitsIn maxDepth)
    (hfin : fin.kind = .endOfLine) : parse (ts ++ [fin]) = .ok t := by
  have hcut : upToEnd (ts ++ [fin]) = ts := upToEnd_append h.kind_ne_end (c := ⟨[fin], 0⟩) hfin
  rw [parse_eq_ok_iff, hcut]
  exact ⟨h, hfit⟩

theorem Continues.begins {front : List Token} (h : Continues (fun ts t => SpellsLine ts t ∧ t.FitsIn maxDepth) front) :
    Begins front := by
  intro w fin hw hfin
  obtain ⟨t, ht, hfit⟩ := h w hw
  right
  refine ⟨t, ?_⟩
  have hparse := parse_append_end ht hfit hfin
  rwa [List.append_assoc] at hparse

theorem Continues.kind_ne_end {front : List Token} {p : Tree → Prop}
    (h : Continues (fun ts t => SpellsLine ts t ∧ p t) front) :
    ∀ x ∈ front, x.kind ≠ .endOfLine := by
  intro x hx
  obtain ⟨t, ht, -⟩ := h (.ofWord 0 0) rfl
  exact ht.kind_ne_end x (List.mem_append_left _ hx)

theorem OneTooMany.kind_ne_end {us : List Token} {op : Token} {room : Nat} (h : OneTooMany room us op) :
    ∀ x ∈ us ++ [op], x.kind ≠ .endOfLine := by
  obtain ⟨t, ht, -, -, hcase⟩ := h
  intro x hx
  rcases List.mem_append.1 hx with hx | hx
  · exact ht.kind_ne_end x hx
  · rw [List.mem_singleton.1 hx]
    rcases hcase with ⟨hop, -⟩ | ⟨⟨sep, hop⟩, -⟩
    · rw [hop]
      decide
    · rw [hop]
      exact sep.operator_ne_end

/-- the next token of a list with an end stands in it, if the end is still to come -/
theorem next_of_start {ts front : List Token} {d : Cursor} (h : Cursor.start ts = d.putBack front)
    (hfront : ∀ x ∈ front, x.kind ≠ .endOfLine) (hend : .endOfLine ∈ ts.map (·.kind)) :
    ts[front.length]? = some d.current ∧ ts.take front.length = front := by
  have hts : ts = front ++ d.rest := congrArg Cursor.rest h
  have hrest : d.rest ≠ [] := by
    intro hnil
    rw [hnil, List.append_nil] at hts
    obtain ⟨x, hx, hkind⟩ := List.mem_map.1 hend
    rw [hts] at hx
    exact hfront x hx hkind
  obtain ⟨x, rest, hx⟩ := List.exists_cons_of_ne_nil hrest
  have hcurrent : d.current = x := by simp [Cursor.current, hx]
  rw [hts, hx, hcurrent]
  simp

/-- a list of tokens that begins with some tokens and then another one, as a cursor at that one -/
theorem start_append_cons (front : List Token) (x : Token) (more : List Token) :
    ∃ d : Cursor, d.current = x ∧ Cursor.start (front ++ x :: more) = d.putBack front :=
  ⟨⟨x :: more, (Cursor.start (front ++ x :: more)).last⟩, rfl, rfl⟩

/-- a list that cannot be read falls into what has been taken and the rest, which begins with the token at fault -/
theorem parse_stops {ts : List Token} {e : ParseError} (h : parse ts = .error e) :
    ∃ (front : List Token) (d : Cursor), Cursor.start ts = d.putBack front ∧ (∀ x ∈ front, x.kind ≠ .endOfLine) ∧
      e.offset = d.current.span.start ∧ (∀ more, parse (front ++ d.current :: more) = .error e) ∧
      (e.fault.kind? = some d.current.kind ∧ Begins front ∨
        e.fault = .tooDeep ∧ ∃ us op, front = us ++ [op] ∧ OneTooMany maxDepth us op) := by
  unfold parse at h
  split at h
  · rename_i e' hstatements
    cases h
    obtain ⟨front, d, hstart, hrejects, hcase⟩ := statements_fault hstatements
    refine ⟨front, d, hstart, ?_, hrejects.offset, ?_, ?_⟩
    · rcases hcase with ⟨-, hmore⟩ | ⟨-, ⟨-, rfl⟩ | ⟨us, op, rfl, hfull⟩⟩
      · exact hmore.kind_ne_end
      · simp
      · exact hfull.kind_ne_end
    · intro more
      obtain ⟨d', hd', hstart'⟩ := start_append_cons front d.current more
      rw [parse, hstart', hrejects.early d' hd']
    · rcases hcase with ⟨hkind, hmore⟩ | ⟨hdeep, ⟨hroom, -⟩ | hfull⟩
      · exact .inl ⟨hkind, hmore.begins⟩
      · exact absurd hroom (by decide)
      · exact .inr ⟨hdeep, hfull⟩
  · rename_i t d hstatements
    split at h
    · cases h
    · rename_i hnot
      cases h
      obtain ⟨front, hstart, hread⟩ := statements_rereads hstatements
      -- what is read again is what spells the tree
      obtain ⟨us, hus, ht, hfit⟩ := statements_sound hstatements
      obtain rfl : us = front := d.putBack_injective (hus.symm.trans hstart)
      refine ⟨us, d, hstart, ht.kind_ne_end, rfl, ?_, .inl ⟨rfl, ?_⟩⟩
      · intro more
        obtain ⟨d', hd', hstart'⟩ := start_append_cons us d.current more
        have hnot' : d'.current.kind ≠ .endOfLine := by rwa [hd']
        simp [parse, hstart', hread d' hd', hnot', Cursor.error_congr hd']
      · intro w fin _ hfin
        exact .inl ⟨t, parse_append_end ht hfit hfin⟩

/-- **The first fault.** A list of tokens with an end that cannot be read has its error at one of them, and the error
is the same whatever stands behind that token instead.

If the error is not that the line nests too deeply, then it names the kind of this token, and the tokens in front of
it are the beginning of a line: an end behind them, or a word and an end, would have been read. No list that begins
with this token behind them is read. If the line nests too deeply, then the error names no kind, and the tokens in
front of this one end in the operator that asks for one stage or one statement more than there is room for. Wherever a
list begins so, and does not end with a separator there, this is its error, whether or not anything is wrong further
on. -/
theorem parse_fault {ts : List Token} (hend : .endOfLine ∈ ts.map (·.kind)) :
    (∀ e, parse ts = .error e → ∃ i x, ts[i]? = some x ∧ e.offset = x.span.start ∧
      (∀ more, parse (ts.take (i + 1) ++ more) = .error e) ∧
      (e.fault ≠ .tooDeep → e.fault.kind? = some x.kind ∧ Begins (ts.take i)) ∧
      (e.fault = .tooDeep → e.fault.kind? = none ∧ ∃ us op, ts.take i = us ++ [op] ∧ OneTooMany maxDepth us op)) ∧
    ∀ us op x more, ts = us ++ op :: x :: more → OneTooMany maxDepth us op → (x.kind = .endOfLine → op.kind = .pipe) →
      parse ts = .error ⟨.tooDeep, x.span.start⟩ := by
  constructor
  · intro e he
    obtain ⟨front, d, hstart, hfront, hoffset, hearly, hcase⟩ := parse_stops he
    obtain ⟨hget, htake⟩ := next_of_start hstart hfront hend
    refine ⟨front.length, d.current, hget, hoffset, ?_, ?_, ?_⟩
    · intro more
      rw [List.take_add_one, htake, hget, List.append_assoc]
      exact hearly more
    · intro hfault
      rcases hcase with ⟨hkind, hbegins⟩ | ⟨hdeep, -⟩
      · rw [htake]
        exact ⟨hkind, hbegins⟩
      · exact absurd hdeep hfault
    · intro hfault
      rw [htake]
      rcases hcase with ⟨hkind, -⟩ | ⟨-, hfull⟩
      · rw [hfault] at hkind
        cases hkind
      · rw [hfault]
        exact ⟨rfl, hfull⟩
  · intro us op x more hts hfull hlast
    obtain ⟨d, hd, hstart⟩ := start_append_cons (us ++ [op]) x more
    have hdeep : statements maxDepth (d.putBack (us ++ [op])) = .error d.tooDeep := by
      apply statements_tooDeep hfull
      rwa [hd]
    rw [List.append_assoc, List.singleton_append, ← hts] at hstart
    rw [parse, hstart, hdeep, Cursor.tooDeep, hd]

/-- the tokens of a line have an end among them -/
theorem end_mem_of_tokenize {line : String} {ts : List Token} (h : tokenize line = .ok ts) :
    .endOfLine ∈ ts.map (·.kind) := by
  obtain ⟨ps, -, rfl⟩ := splits_of_tokenize h
  simp [listed, Token.ofEnd]

/-- The line `a||>b`: the second `|` is wrong, and the `>` behind it does not matter. -/
theorem parse_fault_second_pipe :
    ∃ ts, tokenize "a||>b" = .ok ts ∧ .endOfLine ∈ ts.map (·.kind) ∧ parse ts = .error ⟨.expectedCommand .pipe, 2⟩ ∧
      ∃ i x, ts[i]? = some x ∧ x.span.start = 2 ∧ Begins (ts.take i) ∧
        ∀ more, parse (ts.take (i + 1) ++ more) = .error ⟨.expectedCommand .pipe, 2⟩ := by
  obtain ⟨ts, hts, hparse⟩ :
      ∃ ts, tokenize "a||>b" = .ok ts ∧ parse ts = .error ⟨.expectedCommand .pipe, 2⟩ :=
    ⟨tokens "a||>b", by decide +kernel, by decide +kernel⟩
  have hend := end_mem_of_tokenize hts
  obtain ⟨i, x, hget, hoffset, hearly, hunexpected, -⟩ := (parse_fault hend).1 _ hparse
  obtain ⟨-, hbegins⟩ := hunexpected (by decide)
  exact ⟨ts, hts, hend, hparse, i, x, hget, hoffset.symm, hbegins, hearly⟩

end LineShell.Line
