/-
The reader of characters against the grammar of pieces.

Between tokens the reader takes a whole piece at once (`scan_piece`): a bare word is still pending behind its last
character, and whatever may come behind it ends it just as the end of the word would (`finish_pending`). So reading the
pieces of a line lists their tokens (`finish_scan`), and a place where the line stops is where the reader stops.

`splits_or_stops` says that every line falls into pieces or stops. With that, each direction below gives the other one.

- `tokenize_iff_splits`: a line is read exactly if it falls into pieces, its tokens are those of the pieces, and else
  the error is where it stops.
-/
import LineShell.Proofs.Pieces

namespace LineShell

namespace Scan

open Line

/-! ## one character -/

variable (ts : List Token) (n : Nat)

theorem step_blank {c : Char} (h : isBlank c = true) :
    (⟨ts, .between, n⟩ : Scan).step c = ⟨ts, .between, n + c.utf8Size⟩ := by
  simp [step, stepBare, h, emit]

theorem step_operator {c : Char} {k : TokenKind} (h : TokenKind.ofOperator? c = some k) :
    (⟨ts, .between, n⟩ : Scan).step c = ⟨⟨k, ⟨n, n + 1⟩, none⟩ :: ts, .between, n + c.utf8Size⟩ := by
  simp [step, stepBare, h, (operator_disjoint h).1, emit]

theorem step_quote {q : Char} (h : isQuote q = true) :
    (⟨ts, .between, n⟩ : Scan).step q = ⟨ts, .quoted q (n + q.utf8Size), n + q.utf8Size⟩ := by
  simp [step, stepBare, h, quote_disjoint h]

theorem step_close (q : Char) (start : Nat) :
    (⟨ts, .quoted q start, n⟩ : Scan).step q = ⟨.ofWord start n :: ts, .between, n + q.utf8Size⟩ := by
  simp [step, emit]

theorem step_first {c : Char} (h : isPlain c = true) (hq : isQuote c = false) :
    (⟨ts, .between, n⟩ : Scan).step c = ⟨ts, .bare n, n + c.utf8Size⟩ := by
  obtain ⟨hboundary, hcontrol⟩ := isPlain_iff.1 h
  simp [step, stepBare, isBoundary_eq_false.1 hboundary, hcontrol, hq]

theorem step_plain {c : Char} (h : isPlain c = true) (start : Nat) :
    (⟨ts, .bare start, n⟩ : Scan).step c = ⟨ts, .bare start, n + c.utf8Size⟩ := by
  obtain ⟨hboundary, hcontrol⟩ := isPlain_iff.1 h
  simp [step, stepBare, isBoundary_eq_false.1 hboundary, hcontrol]

/-- what ends a bare word is read as if the word had been ended before -/
theorem step_pending {c : Char} (h : isBoundary c = true) (start : Nat) :
    (⟨ts, .bare start, n⟩ : Scan).step c = (⟨.ofWord start n :: ts, .between, n⟩ : Scan).step c := by
  cases hb : isBlank c with
  | true => simp [step, stepBare, hb, emit]
  | false =>
    obtain ⟨k, hk⟩ : ∃ k, TokenKind.ofOperator? c = some k := by
      simpa [isBoundary, hb, Option.isSome_iff_exists] using h
    simp [step, stepBare, hb, hk, emit]

/-- a control character stops the reader, whether a bare word is pending or not -/
theorem step_control {c : Char} (hcontrol : isControl c = true) (hblank : isBlank c = false) (start : Nat) :
    (⟨ts, .between, n⟩ : Scan).step c = ⟨.ofFault .unrecognizedCharacter n :: ts, .stopped, n⟩ ∧
      (⟨ts, .bare start, n⟩ : Scan).step c = ⟨.ofFault .unrecognizedCharacter n :: ts, .stopped, n⟩ := by
  have hoperator : TokenKind.ofOperator? c = none := by
    cases hk : TokenKind.ofOperator? c with
    | none => rfl
    | some k => simp [(operator_disjoint hk).2.2] at hcontrol
  have hquote : isQuote c = false := by
    cases hq : isQuote c with
    | false => rfl
    | true => simp [(quote_disjoint hq).2.2] at hcontrol
  constructor <;> simp [step, stepBare, hblank, hoperator, hquote, hcontrol, stop]

/-! ## runs of characters -/

theorem scan_cons (s : Scan) (c : Char) (cs : List Char) : s.scan (c :: cs) = (s.step c).scan cs := rfl

theorem scan_content {q : Char} {content : List Char} (h : q ∉ content) (start : Nat) :
    (⟨ts, .quoted q start, n⟩ : Scan).scan content = ⟨ts, .quoted q start, n + width content⟩ := by
  induction content generalizing n with
  | nil => rfl
  | cons c content ih =>
    have hc : c ≠ q := fun hc => h (hc ▸ List.mem_cons_self)
    have hstep : (⟨ts, .quoted q start, n⟩ : Scan).step c = ⟨ts, .quoted q start, n + c.utf8Size⟩ := by
      simp [step, hc]
    rw [scan_cons, hstep, ih _ fun hm => h (List.mem_cons_of_mem _ hm), width_cons, Nat.add_assoc]

theorem scan_plain {word : List Char} (h : ∀ c ∈ word, isPlain c = true) (start : Nat) :
    (⟨ts, .bare start, n⟩ : Scan).scan word = ⟨ts, .bare start, n + width word⟩ := by
  induction word generalizing n with
  | nil => rfl
  | cons c word ih =>
    rw [scan_cons, step_plain ts n (h c List.mem_cons_self), ih _ fun d hd => h d (List.mem_cons_of_mem _ hd),
      width_cons, Nat.add_assoc]

theorem scan_bare {word : List Char} (h : IsBare word) :
    (⟨ts, .between, n⟩ : Scan).scan word = ⟨ts, .bare n, n + width word⟩ := by
  obtain ⟨c, word, rfl⟩ := List.exists_cons_of_ne_nil h.nonempty
  rw [scan_cons, step_first ts n (h.plain c List.mem_cons_self) (h.unquoted c rfl),
    scan_plain ts _ fun d hd => h.plain d (List.mem_cons_of_mem _ hd), width_cons, Nat.add_assoc]

/-- a pending bare word is ended by whatever may come behind it -/
theorem finish_pending {cs : List Char} (h : Bounded cs) (start : Nat) :
    ((⟨ts, .bare start, n⟩ : Scan).scan cs).finish =
      ((⟨.ofWord start n :: ts, .between, n⟩ : Scan).scan cs).finish := by
  cases cs with
  | nil => rfl
  | cons c cs => rw [scan_cons, scan_cons, step_pending ts n (h c rfl)]

/-- behind the beginning of a bare word a control character stops the reader, and the word is not read -/
theorem finish_control {word : List Char} (hword : word = [] ∨ IsBare word) {c : Char} (hcontrol : isControl c = true)
    (hblank : isBlank c = false) (rest : List Char) :
    ((⟨ts, .between, n⟩ : Scan).scan (word ++ c :: rest)).finish =
      ts.reverse ++ [.ofFault .unrecognizedCharacter (n + width word)] := by
  have hstop := step_control ts (n + width word) hcontrol hblank n
  rcases hword with rfl | hword
  · rw [List.nil_append, scan_cons]
    rw [width_nil, Nat.add_zero] at hstop ⊢
    rw [hstop.1, scan_stopped rfl]
    simp [finish]
  · rw [scan_append, scan_bare ts n hword, scan_cons, hstop.2, scan_stopped rfl]
    simp [finish]

/-! ## pieces -/

/-- a piece and what is behind it: the token of the piece is read, and then what is behind it -/
theorem finish_piece {p : Piece} {cs : List Char} (hp : p.WellFormed) (hend : p.EndsBefore cs) :
    ((⟨ts, .between, n⟩ : Scan).scan (p.chars ++ cs)).finish =
      ((⟨(p.token? n).toList ++ ts, .between, n + width p.chars⟩ : Scan).scan cs).finish := by
  cases p with
  | blank c =>
    have hb : isBlank c = true := hp
    simp [Piece.chars, Piece.token?, scan_cons, step_blank ts n hb]
  | operator c kind => simp [Piece.chars, Piece.token?, scan_cons, step_operator ts n hp]
  | quoted q content =>
    simp only [Piece.chars, Piece.token?, List.cons_append, List.append_assoc, List.nil_append, Option.toList_some,
      width_cons, width_append, width_nil, Nat.add_zero]
    rw [scan_cons, step_quote ts n hp.1, scan_append, scan_content ts _ hp.2, scan_cons, step_close, Nat.add_assoc,
      Nat.add_assoc, Nat.add_assoc]
  | bare word =>
    have hbare : IsBare word := hp
    simp only [Piece.chars, Piece.token?, Option.toList_some, List.cons_append, List.nil_append]
    rw [scan_append, scan_bare ts n hbare, finish_pending ts _ hend]

/-- pieces and what is behind them: the tokens of the pieces are read, and then what is behind them -/
theorem finish_scan {ps : List Piece} {cs rest : List Char} (h : Splits rest cs ps) :
    ((⟨ts, .between, n⟩ : Scan).scan cs).finish =
      ((⟨(placed n ps).reverse ++ ts, .between, n + width (ps.flatMap Piece.chars)⟩ : Scan).scan rest).finish := by
  induction h generalizing ts n with
  | nil => rfl
  | @cons p cs ps hp hend _ ih =>
    have htoken : (p.token? n).toList.reverse = (p.token? n).toList := by cases p.token? n <;> rfl
    rw [finish_piece ts n hp hend, ih, placed, List.reverse_append, htoken, List.append_assoc, List.flatMap_cons,
      width_append, Nat.add_assoc]

end Scan

namespace Line

open Scan

theorem tokens_eq {line : String} {ps : List Piece} {rest : List Char} (h : Splits rest line.toList ps) :
    tokens line = ((⟨(placed 0 ps).reverse, .between, width (ps.flatMap Piece.chars)⟩ : Scan).scan rest).finish := by
  have := finish_scan [] 0 h
  rw [List.append_nil, Nat.zero_add] at this
  exact this

/-- the token of a piece is no stop -/
theorem stopOf?_placed (offset : Nat) (ps : List Piece) : (placed offset ps).findSome? stopOf? = none := by
  induction ps generalizing offset with
  | nil => rfl
  | cons p ps ih =>
    rw [placed, List.findSome?_append, ih, Option.or_none]
    cases p <;> rfl

theorem tokenize_of_splits {line : String} {ps : List Piece} (h : Splits [] line.toList ps) :
    tokenize line = .ok (listed line ps) := by
  have hsize : width (ps.flatMap Piece.chars) = line.utf8ByteSize := by
    rw [utf8ByteSize_eq_width, h.eq_append, List.append_nil]
  have htokens : tokens line = listed line ps := by
    rw [tokens_eq h, hsize, listed]
    simp [scan, finish]
  have hstop : (listed line ps).findSome? stopOf? = none := by
    rw [listed, List.findSome?_append, stopOf?_placed]
    rfl
  simp [tokenize, htokens, hstop]

/-- a reader that has stopped behind some pieces gives the error of the stop -/
theorem tokenize_of_tokens {line : String} {fault : LexicalFault} {offset : Nat} (ps : List Piece)
    (h : tokens line = placed 0 ps ++ [.ofFault fault offset]) : tokenize line = .error ⟨fault, offset⟩ := by
  have hstop : (tokens line).findSome? stopOf? = some ⟨fault, offset⟩ := by
    rw [h, List.findSome?_append, stopOf?_placed]
    rfl
  simp [tokenize, hstop]

theorem tokenize_of_stops {line : String} {e : LexError} (h : Stops line.toList e) : tokenize line = .error e := by
  cases h with
  | @unrecognized ps word rest c hsplit hword hcontrol hblank =>
    refine tokenize_of_tokens ps ?_
    rw [tokens_eq hsplit, finish_control _ _ hword hcontrol hblank, List.reverse_reverse, width_append]
  | @unterminated ps content q hsplit hquote hcontent =>
    refine tokenize_of_tokens ps ?_
    have hsize : width line.toList = width (ps.flatMap Piece.chars) + width (q :: content) := by
      rw [hsplit.eq_append, width_append]
    rw [tokens_eq hsplit, scan_cons, step_quote _ _ hquote, scan_content _ _ hcontent, hsize, width_cons, Nat.add_assoc]
    simp [finish]

/-! ## every line falls into pieces or stops -/

theorem Stops.cons {p : Piece} {cs : List Char} {e : LexError} (hp : p.WellFormed) (hend : p.EndsBefore cs)
    (h : Stops cs e) : ∃ e', Stops (p.chars ++ cs) e' := by
  cases h with
  | unrecognized hsplit hword hcontrol hblank =>
    exact ⟨_, .unrecognized (.cons hp hend hsplit) hword hcontrol hblank⟩
  | unterminated hsplit hquote hcontent => exact ⟨_, .unterminated (.cons hp hend hsplit) hquote hcontent⟩

/-- a piece in front of what falls into pieces or stops -/
theorem splits_or_stops_cons {p : Piece} {cs : List Char} (hp : p.WellFormed) (hend : p.EndsBefore cs)
    (h : (∃ ps, Splits [] cs ps) ∨ ∃ e, Stops cs e) :
    (∃ ps, Splits [] (p.chars ++ cs) ps) ∨ ∃ e, Stops (p.chars ++ cs) e := by
  rcases h with ⟨ps, h⟩ | ⟨e, h⟩
  · exact .inl ⟨p :: ps, .cons hp hend h⟩
  · exact .inr (h.cons hp hend)

/-- where a bare word begins: it goes on as far as there are plain characters, and what comes then ends it or stops the
reader -/
theorem splits_or_stops_bare {c : Char} {cs : List Char} (hplain : isPlain c = true) (hquote : isQuote c = false)
    (hrest : ∀ ds : List Char, ds.length ≤ cs.length → (∃ ps, Splits [] ds ps) ∨ ∃ e, Stops ds e) :
    (∃ ps, Splits [] (c :: cs) ps) ∨ ∃ e, Stops (c :: cs) e := by
  have hbare : IsBare (c :: cs.takeWhile isPlain) := by
    refine ⟨by simp, by simpa using hquote, fun d hd => ?_⟩
    rcases List.mem_cons.1 hd with rfl | hd
    · exact hplain
    · exact List.all_eq_true.1 List.all_takeWhile d hd
  have hcs : c :: cs = (c :: cs.takeWhile isPlain) ++ cs.dropWhile isPlain := by
    rw [List.cons_append, List.takeWhile_append_dropWhile]
  have hlength : (cs.dropWhile isPlain).length ≤ cs.length := (List.dropWhile_suffix isPlain).length_le
  have hstart := List.head?_dropWhile_not isPlain cs
  rw [hcs]
  cases hdrop : cs.dropWhile isPlain with
  | nil => exact splits_or_stops_cons (p := .bare _) hbare (by simp [Piece.EndsBefore, Bounded]) (.inl ⟨[], .nil⟩)
  | cons d ds =>
    rw [hdrop] at hstart hlength
    have hd : isPlain d = false := by simpa using hstart
    cases hboundary : isBoundary d with
    | true =>
      refine splits_or_stops_cons (p := .bare _) hbare ?_ (hrest (d :: ds) hlength)
      simpa [Piece.EndsBefore, Bounded] using hboundary
    | false =>
      have hcontrol : isControl d = true := by simpa [isPlain, hboundary] using hd
      exact .inr ⟨_, .unrecognized .nil (.inr hbare) hcontrol (isBoundary_eq_false.1 hboundary).1⟩

/-- every line falls into pieces or stops: its first character says which piece comes first, if any does -/
theorem splits_or_stops (cs : List Char) : (∃ ps, Splits [] cs ps) ∨ ∃ e, Stops cs e := by
  induction hlength : cs.length using Nat.strongRecOn generalizing cs with
  | ind length ih =>
    have hshorter : ∀ ds : List Char, ds.length < cs.length → (∃ ps, Splits [] ds ps) ∨ ∃ e, Stops ds e :=
      fun ds hds => ih ds.length (hlength ▸ hds) ds rfl
    cases cs with
    | nil => exact .inl ⟨[], .nil⟩
    | cons c cs =>
      by_cases hblank : isBlank c = true
      · exact splits_or_stops_cons (p := .blank c) hblank trivial (hshorter cs (by simp))
      rw [Bool.not_eq_true] at hblank
      cases hoperator : TokenKind.ofOperator? c with
      | some k => exact splits_or_stops_cons (p := .operator c k) hoperator trivial (hshorter cs (by simp))
      | none =>
        by_cases hquote : isQuote c = true
        · by_cases hclosed : c ∈ cs
          · obtain ⟨content, rest, rfl, hcontent⟩ := List.eq_append_cons_of_mem hclosed
            have hpiece : c :: (content ++ c :: rest) = (Piece.quoted c content).chars ++ rest := by simp [Piece.chars]
            rw [hpiece]
            exact splits_or_stops_cons ⟨hquote, hcontent⟩ trivial (hshorter rest (by simp; omega))
          · exact .inr ⟨_, .unterminated .nil hquote hclosed⟩
        · by_cases hcontrol : isControl c = true
          · have hsplit : Splits ([] ++ c :: cs) (c :: cs) [] := .nil
            exact .inr ⟨_, .unrecognized hsplit (.inl rfl) hcontrol hblank⟩
          · rw [Bool.not_eq_true] at hquote hcontrol
            refine splits_or_stops_bare (isPlain_iff.2 ⟨isBoundary_eq_false.2 ⟨hblank, hoperator⟩, hcontrol⟩) hquote ?_
            exact fun ds hds => hshorter ds (Nat.lt_succ_of_le hds)

theorem splits_of_tokenize {line : String} {ts : List Token} (h : tokenize line = .ok ts) :
    ∃ ps, Splits [] line.toList ps ∧ ts = listed line ps := by
  rcases splits_or_stops line.toList with ⟨ps, hps⟩ | ⟨e, he⟩
  · rw [tokenize_of_splits hps] at h
    exact ⟨ps, hps, (Except.ok.inj h).symm⟩
  · rw [tokenize_of_stops he] at h
    cases h

theorem stops_of_tokenize {line : String} {e : LexError} (h : tokenize line = .error e) : Stops line.toList e := by
  rcases splits_or_stops line.toList with ⟨ps, hps⟩ | ⟨e', he⟩
  · rw [tokenize_of_splits hps] at h
    cases h
  · rw [tokenize_of_stops he] at h
    rwa [← Except.error.inj h]

/-- **The reader reads exactly the pieces.** A line is read into tokens if and only if it falls into pieces, and then
the tokens are those of the pieces and an end behind the last byte. It does so in one way only, and the tokens lie in
order and apart, between characters, each over the text of its piece; every other byte is a blank or one of the quotes
around a quoted word. Otherwise the error is where the line stops. -/
theorem tokenize_iff_splits (line : String) :
    (∀ ts, tokenize line = .ok ts ↔ ∃ ps, Splits [] line.toList ps ∧ ts = listed line ps) ∧
    (∀ ps, Splits [] line.toList ps → (∀ ps', Splits [] line.toList ps' → ps' = ps) ∧
      Lies line 0 line.utf8ByteSize (listed line ps) (ps.filterMap Piece.reading? ++ [(.endOfLine, "")])) ∧
    ∀ e, tokenize line = .error e ↔ Stops line.toList e := by
  refine ⟨fun ts => ⟨fun h => ?_, ?_⟩, fun ps h => ⟨fun ps' h' => h'.unique h, h.lies⟩, fun e => ⟨fun h => ?_, ?_⟩⟩
  · rcases splits_or_stops line.toList with ⟨ps, hps⟩ | ⟨e, he⟩
    · rw [tokenize_of_splits hps] at h
      exact ⟨ps, hps, (Except.ok.inj h).symm⟩
    · rw [tokenize_of_stops he] at h
      cases h
  · rintro ⟨ps, hps, rfl⟩
    exact tokenize_of_splits hps
  · rcases splits_or_stops line.toList with ⟨ps, hps⟩ | ⟨e', he⟩
    · rw [tokenize_of_splits hps] at h
      cases h
    · rw [tokenize_of_stops he] at h
      rwa [← Except.error.inj h]
  · exact tokenize_of_stops

/-- a quote inside a bare word is part of it, and behind a quoted word the next one needs no blank -/
example : (tokenize "a'b 'c d'e").toOption = some [.ofWord 0 3, .ofWord 5 8, .ofWord 9 10, .ofEnd 10] := by
  decide +kernel

end Line

end LineShell
