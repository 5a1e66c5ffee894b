/-
The words that a line can hold.

There is no escape: a quoted word may hold anything but its own quote, and a bare one only plain characters. So a word
that holds both quotes can be written only if it can stand bare, with no quote in front. `Writable` says which words
these are.

- `writable_of_word`: every word of a line that can be read is one of them.
- `words_writable`: these are the words of lines, and each of them is the only word of some line.
-/
import LineShell.Proofs.Lexing

namespace LineShell.Line

/-- the word lacks one of the two quotes, or it can stand bare: it is not empty, begins with no quote, and holds no
blank, no operator and no control character -/
def Writable (w : String) : Prop :=
  '\'' ∉ w.toList ∨ '"' ∉ w.toList ∨
    w.toList ≠ [] ∧ (∀ c ∈ w.toList.head?, c ≠ '\'' ∧ c ≠ '"') ∧
      ∀ c ∈ w.toList, isBlank c = false ∧ TokenKind.ofOperator? c = none ∧ isControl c = false

theorem isQuote_iff {c : Char} : isQuote c = true ↔ c = '\'' ∨ c = '"' := by
  unfold isQuote
  split <;> simp_all

/-- the three ways to write a word -/
theorem writable_iff {w : String} : Writable w ↔ '\'' ∉ w.toList ∨ '"' ∉ w.toList ∨ IsBare w.toList := by
  have hquote : ∀ c, c ≠ '\'' ∧ c ≠ '"' ↔ isQuote c = false := fun c => by
    rw [← Bool.not_eq_true, isQuote_iff, not_or]
  have hplain : ∀ c, isBlank c = false ∧ TokenKind.ofOperator? c = none ∧ isControl c = false ↔ isPlain c = true :=
    fun c => by rw [isPlain_iff, isBoundary_eq_false, and_assoc]
  simp only [Writable, hquote, hplain]
  refine or_congr_right (or_congr_right ⟨fun h => ⟨h.1, h.2.1, h.2.2⟩, fun h => ⟨h.nonempty, h.unquoted, h.plain⟩⟩)

theorem ofOperator?_ne_word {c : Char} {k : TokenKind} (h : TokenKind.ofOperator? c = some k) : k ≠ .word := by
  rintro rfl
  unfold TokenKind.ofOperator? at h
  split at h <;> cases h

/-- a piece that is a word is quoted or bare, and either way it can be written -/
theorem Piece.WellFormed.writable {p : Piece} (hp : p.WellFormed) {text : String}
    (h : p.reading? = some (.word, text)) : Writable text := by
  cases p with
  | blank c => cases h
  | operator c kind => exact absurd (congrArg Prod.fst (Option.some.inj h)) (ofOperator?_ne_word hp)
  | quoted q content =>
    obtain rfl : String.ofList content = text := congrArg Prod.snd (Option.some.inj h)
    obtain ⟨hq, hcontent⟩ := hp
    rw [writable_iff, String.toList_ofList]
    rcases isQuote_iff.1 hq with rfl | rfl
    · exact .inl hcontent
    · exact .inr (.inl hcontent)
  | bare word =>
    obtain rfl : String.ofList word = text := congrArg Prod.snd (Option.some.inj h)
    rw [writable_iff, String.toList_ofList]
    exact .inr (.inr hp)

/-- no line has a word that is not writable -/
theorem writable_of_word {line : String} {ts : List Token} (h : tokenize line = .ok ts) {t : Token} (ht : t ∈ ts)
    (hword : t.kind = .word) : Writable (t.text line) := by
  obtain ⟨ps, hps, rfl⟩ := splits_of_tokenize h
  have hread : (t.kind, t.text line) ∈ ps.filterMap Piece.reading? ++ [(.endOfLine, "")] := by
    rw [← hps.lies.read]
    exact List.mem_map_of_mem ht
  rw [hword] at hread
  rcases List.mem_append.1 hread with hpiece | hend
  · obtain ⟨p, hp, hreading⟩ := List.mem_filterMap.1 hpiece
    exact (hps.wellFormed p hp).writable hreading
  · cases List.mem_singleton.1 hend

/-- a line that is one piece, and this piece a word -/
theorem tokenize_piece {p : Piece} (hp : p.WellFormed) {t : Token} (ht : p.token? 0 = some t) {text : String}
    (hread : p.reading? = some (.word, text)) :
    tokenize (String.ofList p.chars) = .ok [t, .ofEnd (width p.chars)] ∧ t.kind = .word ∧
      t.text (String.ofList p.chars) = text := by
  have hsplits : Splits [] (String.ofList p.chars).toList [p] := by
    have hpiece : Splits [] (p.chars ++ []) [p] := by
      refine .cons hp ?_ .nil
      cases p with
      | bare word => exact nofun
      | _ => trivial
    rwa [List.append_nil, ← String.toList_ofList (l := p.chars)] at hpiece
  have hlisted : listed (String.ofList p.chars) [p] = [t, .ofEnd (width p.chars)] := by
    rw [listed, placed, ht, utf8ByteSize_ofList]
    rfl
  have hlies := hsplits.lies.read
  rw [hlisted] at hlies
  simp only [List.filterMap_cons, hread, List.filterMap_nil, List.map_cons] at hlies
  obtain ⟨hkind, htext⟩ := Prod.mk.inj (List.cons.inj hlies).1
  exact ⟨by rw [tokenize_of_splits hsplits, hlisted], hkind, htext⟩

/-- a writable word in the quotes that it lacks, or as it stands -/
theorem Writable.exists_piece {w : String} (h : Writable w) :
    ∃ p : Piece, p.WellFormed ∧ (∃ t, p.token? 0 = some t) ∧ p.reading? = some (.word, w) := by
  have hw : some (TokenKind.word, String.ofList w.toList) = some (.word, w) := by rw [String.ofList_toList]
  rcases writable_iff.1 h with hsingle | hdouble | hbare
  · exact ⟨.quoted '\'' w.toList, ⟨rfl, hsingle⟩, ⟨_, rfl⟩, hw⟩
  · exact ⟨.quoted '"' w.toList, ⟨rfl, hdouble⟩, ⟨_, rfl⟩, hw⟩
  · exact ⟨.bare w.toList, hbare, ⟨_, rfl⟩, hw⟩

/-- **Which words can be written.** A word is the only word of some line if and only if it is writable, and no line
that can be read has any other word. -/
theorem words_writable :
    (∀ w, (∃ line t offset, tokenize line = .ok [t, .ofEnd offset] ∧ t.kind = .word ∧ t.text line = w) ↔ Writable w) ∧
    ∀ line ts, tokenize line = .ok ts → ∀ t ∈ ts, t.kind = .word → Writable (t.text line) := by
  refine ⟨fun w => ⟨?_, fun hw => ?_⟩, fun line ts h t ht hword => writable_of_word h ht hword⟩
  · rintro ⟨line, t, offset, hline, hkind, rfl⟩
    exact writable_of_word hline List.mem_cons_self hkind
  · obtain ⟨p, hp, ⟨t, ht⟩, hread⟩ := hw.exists_piece
    obtain ⟨hline, hkind, htext⟩ := tokenize_piece hp ht hread
    exact ⟨_, t, _, hline, hkind, htext⟩

/-- A word with both quotes in it can be written if it stands bare, and not if one of them comes first. -/
theorem words_writable_mixed :
    tokenize "a'\"" = .ok [.ofWord 0 3, .ofEnd 3] ∧ Writable ((Token.ofWord 0 3).text "a'\"") ∧
      ¬ ∃ line t offset, tokenize line = .ok [t, .ofEnd offset] ∧ t.kind = .word ∧ t.text line = "'\"" := by
  have hbare : IsBare ['a', '\'', '"'] := by
    refine ⟨by simp, ?_, ?_⟩
    · intro c hc
      obtain rfl := Option.some.inj hc
      rfl
    · exact List.all_eq_true.1 (by decide)
  have hline : tokenize "a'\"" = .ok [.ofWord 0 3, .ofEnd 3] := (tokenize_piece (p := .bare _) hbare rfl rfl).1
  refine ⟨hline, words_writable.2 _ _ hline _ List.mem_cons_self rfl, ?_⟩
  intro hexists
  rcases (words_writable.1 "'\"").1 hexists with h | h | ⟨-, h, -⟩
  · exact h (by simp)
  · exact h (by simp)
  · exact (h '\'' rfl).1 rfl

end LineShell.Line
