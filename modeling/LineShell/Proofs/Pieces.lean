/-
The grammar of characters, apart from any reader, and the tokens that it gives.

    line     ::= ( blank | operator | quoted | bare )*
    quoted   ::= q content q          for a quote q that the content does not hold
    bare     ::= plain+               not beginning with a quote; behind it a blank, an operator or the end

`Splits` says which pieces a line falls into, and `Stops` where a line goes wrong that falls into none. `placed` lists
the tokens of pieces, each where its piece lies.

- `Splits.unique`: a line falls into pieces in one way at most.
- `Splits.lies`: the tokens of a line lie in order and apart, between characters, each over the text of its piece, and
  what they leave out are blanks and the quotes around quoted words.
-/
import LineShell.Line.Lexer

namespace LineShell

/-! ## widths -/

/-- how many bytes some characters take -/
def width : List Char → Nat
  | [] => 0
  | c :: cs => c.utf8Size + width cs

@[simp] theorem width_nil : width [] = 0 := rfl

@[simp] theorem width_cons (c : Char) (cs : List Char) : width (c :: cs) = c.utf8Size + width cs := rfl

@[simp] theorem width_append (cs ds : List Char) : width (cs ++ ds) = width cs + width ds := by
  induction cs with
  | nil => simp
  | cons c cs ih => rw [List.cons_append, width_cons, width_cons, ih, Nat.add_assoc]

theorem utf8ByteSize_ofList (cs : List Char) : (String.ofList cs).utf8ByteSize = width cs := by
  induction cs with
  | nil => rfl
  | cons c cs ih =>
    have hcons : String.ofList (c :: cs) = String.singleton c ++ String.ofList cs := by
      rw [String.singleton_eq_ofList, ← String.ofList_append]
      rfl
    rw [hcons, String.utf8ByteSize_append, String.utf8ByteSize_singleton, ih, width_cons]

theorem utf8ByteSize_eq_width (line : String) : line.utf8ByteSize = width line.toList := by
  rw [← utf8ByteSize_ofList, String.ofList_toList]

/-- a range that begins and ends between characters fits, and its text is what stands there -/
theorem Span.text_of_append {line : String} {before mid after : List Char} (h : line.toList = before ++ mid ++ after) :
    Span.Fits ⟨width before, width before + width mid⟩ line ∧
      Span.text ⟨width before, width before + width mid⟩ line = String.ofList mid := by
  have hline : line = String.ofList before ++ (String.ofList mid ++ String.ofList after) := by
    rw [← String.ofList_append, ← String.ofList_append, ← List.append_assoc, ← h, String.ofList_toList]
  have hfits : Span.Fits ⟨width before, width before + width mid⟩ line := by
    refine ⟨Nat.le_add_right _ _, String.Pos.Raw.isValid_iff_exists_append.2 ?_,
      String.Pos.Raw.isValid_iff_exists_append.2 ?_⟩
    · refine ⟨String.ofList before, _, hline, ?_⟩
      simp [String.rawEndPos, utf8ByteSize_ofList]
    · refine ⟨String.ofList before ++ String.ofList mid, String.ofList after, ?_, ?_⟩
      · rw [hline, String.append_assoc]
      · simp [String.rawEndPos, utf8ByteSize_ofList]
  have hbefore : width before = (String.ofList before).toByteArray.size := (utf8ByteSize_ofList before).symm
  have hmid : width mid = (String.ofList mid).toByteArray.size := (utf8ByteSize_ofList mid).symm
  refine ⟨hfits, String.toByteArray_inj.1 ?_⟩
  calc (Span.text ⟨width before, width before + width mid⟩ line).toByteArray
      = line.toByteArray.extract (width before) (width before + width mid) := Span.toByteArray_text hfits
    _ = ((String.ofList mid).toByteArray ++ (String.ofList after).toByteArray).extract 0 (width mid) := by
        rw [hline, String.toByteArray_append, String.toByteArray_append]
        exact ByteArray.extract_append_size_add' (i := 0) hbefore
    _ = (String.ofList mid).toByteArray := ByteArray.extract_append_eq_left hmid

/-! ## more about characters -/

/-- characters that end a bare word -/
def isBoundary (c : Char) : Bool := isBlank c || (TokenKind.ofOperator? c).isSome

/-- characters that a bare word goes on with -/
def isPlain (c : Char) : Bool := !isBoundary c && !isControl c

theorem isBlank_width {c : Char} (h : isBlank c = true) : c.utf8Size = 1 := by
  unfold isBlank at h
  split at h
  case h_7 => cases h
  all_goals rfl

theorem isQuote_width {c : Char} (h : isQuote c = true) : c.utf8Size = 1 := by
  unfold isQuote at h
  split at h
  case h_3 => cases h
  all_goals rfl

theorem ofOperator?_width {c : Char} {k : TokenKind} (h : TokenKind.ofOperator? c = some k) : c.utf8Size = 1 := by
  unfold TokenKind.ofOperator? at h
  split at h
  case h_6 => cases h
  all_goals rfl

theorem quote_disjoint {c : Char} (h : isQuote c = true) :
    isBlank c = false ∧ TokenKind.ofOperator? c = none ∧ isControl c = false := by
  unfold isQuote at h
  split at h
  case h_3 => cases h
  all_goals exact ⟨rfl, rfl, rfl⟩

theorem isBoundary_eq_false {c : Char} : isBoundary c = false ↔ isBlank c = false ∧ TokenKind.ofOperator? c = none := by
  simp [isBoundary]

theorem isPlain_iff {c : Char} : isPlain c = true ↔ isBoundary c = false ∧ isControl c = false := by
  simp [isPlain]

namespace Line

/-! ## pieces -/

/-- one piece of a line -/
inductive Piece where
  | blank (c : Char)
  | operator (c : Char) (kind : TokenKind)
  /-- a quoted word, without its quotes -/
  | quoted (quote : Char) (content : List Char)
  | bare (word : List Char)
  deriving DecidableEq, Repr

/-- a bare word: some plain characters, of which the first is no quote -/
structure IsBare (word : List Char) : Prop where
  nonempty : word ≠ []
  unquoted : ∀ c ∈ word.head?, isQuote c = false
  plain : ∀ c ∈ word, isPlain c = true

/-- nothing, or something that begins with a blank or an operator -/
def Bounded (cs : List Char) : Prop := ∀ c ∈ cs.head?, isBoundary c = true

namespace Piece

/-- the piece as it stands in the line -/
def chars : Piece → List Char
  | blank c => [c]
  | operator c _ => [c]
  | quoted q content => q :: (content ++ [q])
  | bare word => word

/-- the piece is what it says -/
def WellFormed : Piece → Prop
  | blank c => isBlank c = true
  | operator c kind => TokenKind.ofOperator? c = some kind
  | quoted q content => isQuote q = true ∧ q ∉ content
  | bare word => IsBare word

/-- a bare word needs something behind it that ends it -/
def EndsBefore (cs : List Char) : Piece → Prop
  | bare _ => Bounded cs
  | _ => True

/-- the token of the piece, when it lies at `offset` -/
def token? (offset : Nat) : Piece → Option Token
  | blank _ => none
  | operator _ kind => some ⟨kind, ⟨offset, offset + 1⟩, none⟩
  | quoted q content => some (.ofWord (offset + q.utf8Size) (offset + q.utf8Size + width content))
  | bare word => some (.ofWord offset (offset + width word))

/-- what the token of the piece is, and its text -/
def reading? : Piece → Option (TokenKind × String)
  | blank _ => none
  | operator c kind => some (kind, String.singleton c)
  | quoted _ content => some (.word, String.ofList content)
  | bare word => some (.word, String.ofList word)

end Piece

/-- the tokens of pieces that lie at `offset` -/
def placed : (offset : Nat) → List Piece → List Token
  | _, [] => []
  | offset, p :: ps => (p.token? offset).toList ++ placed (offset + width p.chars) ps

/-- characters fall into pieces, with `rest` left over -/
inductive Splits (rest : List Char) : List Char → List Piece → Prop
  | nil : Splits rest rest []
  | cons {p : Piece} {cs : List Char} {ps : List Piece} :
      p.WellFormed → p.EndsBefore cs → Splits rest cs ps → Splits rest (p.chars ++ cs) (p :: ps)

/-- where characters go wrong: some pieces go well, and then comes a control character, perhaps behind the beginning
of a bare word, or a quote that never comes again -/
inductive Stops (cs : List Char) : LexError → Prop
  | unrecognized {ps : List Piece} {word rest : List Char} {c : Char} :
      Splits (word ++ c :: rest) cs ps → (word = [] ∨ IsBare word) → isControl c = true → isBlank c = false →
        Stops cs ⟨.unrecognizedCharacter, width (ps.flatMap Piece.chars ++ word)⟩
  | unterminated {ps : List Piece} {content : List Char} {q : Char} :
      Splits (q :: content) cs ps → isQuote q = true → q ∉ content → Stops cs ⟨.unterminatedQuote, width cs⟩

theorem Splits.eq_append {rest cs : List Char} {ps : List Piece} (h : Splits rest cs ps) :
    cs = ps.flatMap Piece.chars ++ rest := by
  induction h with
  | nil => rfl
  | cons _ _ _ ih => rw [List.flatMap_cons, List.append_assoc, ← ih]

theorem Splits.wellFormed {rest cs : List Char} {ps : List Piece} (h : Splits rest cs ps) : ∀ p ∈ ps, p.WellFormed := by
  induction h with
  | nil => simp
  | cons hp _ _ ih => exact List.forall_mem_cons.2 ⟨hp, ih⟩

/-- pieces that are not bare words stand anywhere -/
theorem Splits.of_wellFormed {ps : List Piece} (h : ∀ p ∈ ps, p.WellFormed ∧ ∀ cs, p.EndsBefore cs) :
    Splits [] (ps.flatMap Piece.chars) ps := by
  induction ps with
  | nil => exact .nil
  | cons p ps ih =>
    obtain ⟨hp, hend⟩ := h p List.mem_cons_self
    exact .cons hp (hend _) (ih fun p hp => h p (List.mem_cons_of_mem _ hp))

/-! ### in one way only -/

/-- what stands in front of the first occurrence of a character is determined -/
theorem content_unique {q : Char} {content content' cs cs' : List Char} (h : q ∉ content) (h' : q ∉ content')
    (heq : content ++ q :: cs = content' ++ q :: cs') : content = content' ∧ cs = cs' := by
  induction content generalizing content' with
  | nil =>
    cases content' with
    | nil => exact ⟨rfl, by simpa using heq⟩
    | cons c content' =>
      obtain ⟨rfl, -⟩ := List.cons.inj heq
      exact absurd List.mem_cons_self h'
  | cons c content ih =>
    cases content' with
    | nil =>
      obtain ⟨rfl, -⟩ := List.cons.inj heq
      exact absurd List.mem_cons_self h
    | cons c' content' =>
      obtain ⟨rfl, htail⟩ := List.cons.inj heq
      obtain ⟨rfl, rfl⟩ := ih (fun hm => h (List.mem_cons_of_mem _ hm)) (fun hm => h' (List.mem_cons_of_mem _ hm)) htail
      exact ⟨rfl, rfl⟩

/-- a bare word in front of its end is all that is plain -/
theorem takeWhile_isPlain {word cs : List Char} (hword : ∀ c ∈ word, isPlain c = true) (hcs : Bounded cs) :
    (word ++ cs).takeWhile isPlain = word := by
  rw [List.takeWhile_append_of_pos hword]
  cases cs with
  | nil => simp
  | cons c cs =>
    have hc : isPlain c = false := by simp [isPlain, hcs c rfl]
    rw [List.takeWhile_cons_of_neg (by simp [hc]), List.append_nil]

/-- whether a piece begins with a blank, with an operator, with a quote -/
def Piece.marks : Piece → Bool × Bool × Bool
  | blank _ => (true, false, false)
  | operator _ _ => (false, true, false)
  | quoted _ _ => (false, false, true)
  | bare _ => (false, false, false)

theorem Piece.WellFormed.marks {p : Piece} (h : p.WellFormed) :
    ∃ c tail, p.chars = c :: tail ∧ p.marks = (isBlank c, (TokenKind.ofOperator? c).isSome, isQuote c) := by
  cases p with
  | blank c =>
    have hb : isBlank c = true := h
    have hop : TokenKind.ofOperator? c = none := by
      cases hk : TokenKind.ofOperator? c with
      | none => rfl
      | some k => simp [(operator_disjoint hk).1] at hb
    have hq : isQuote c = false := by
      cases hq : isQuote c with
      | false => rfl
      | true => simp [(quote_disjoint hq).1] at hb
    exact ⟨c, [], rfl, by simp [Piece.marks, hb, hop, hq]⟩
  | operator c kind =>
    have hk : TokenKind.ofOperator? c = some kind := h
    exact ⟨c, [], rfl, by simp [Piece.marks, hk, operator_disjoint hk]⟩
  | quoted q content => exact ⟨q, _, rfl, by simp [Piece.marks, h.1, quote_disjoint h.1]⟩
  | bare word =>
    obtain ⟨c, tail, rfl⟩ := List.exists_cons_of_ne_nil h.nonempty
    have hplain := isBoundary_eq_false.1 (isPlain_iff.1 (h.plain c List.mem_cons_self)).1
    exact ⟨c, tail, rfl, by simp [Piece.marks, hplain, h.unquoted c rfl]⟩

theorem Piece.WellFormed.chars_ne_nil {p : Piece} (h : p.WellFormed) : p.chars ≠ [] := by
  obtain ⟨c, tail, hc, -⟩ := h.marks
  simp [hc]

/-- which piece comes first is determined, and what is behind it -/
theorem Piece.WellFormed.unique {p p' : Piece} {cs cs' : List Char} (h : p.WellFormed) (h' : p'.WellFormed)
    (hend : p.EndsBefore cs) (hend' : p'.EndsBefore cs') (heq : p.chars ++ cs = p'.chars ++ cs') :
    p = p' ∧ cs = cs' := by
  -- the first character decides between the four kinds of pieces
  have hmarks : p.marks = p'.marks := by
    obtain ⟨c, tail, hc, hp⟩ := h.marks
    obtain ⟨c', tail', hc', hp'⟩ := h'.marks
    rw [hc, hc'] at heq
    obtain ⟨rfl, -⟩ := List.cons.inj heq
    rw [hp, hp']
  cases p with
  | blank c =>
    cases p' with
    | blank c' => simpa [chars] using heq
    | _ => simp [Piece.marks] at hmarks
  | operator c kind =>
    cases p' with
    | operator c' kind' =>
      obtain ⟨rfl, rfl⟩ := List.cons.inj heq
      exact ⟨by rw [Option.some.inj (h.symm.trans h')], rfl⟩
    | _ => simp [Piece.marks] at hmarks
  | quoted q content =>
    cases p' with
    | quoted q' content' =>
      obtain ⟨rfl, htail⟩ := List.cons.inj heq
      have htail : content ++ q :: cs = content' ++ q :: cs' := by simpa using htail
      obtain ⟨rfl, rfl⟩ := content_unique h.2 h'.2 htail
      exact ⟨rfl, rfl⟩
    | _ => simp [Piece.marks] at hmarks
  | bare word =>
    cases p' with
    | bare word' =>
      have heq : word ++ cs = word' ++ cs' := heq
      have hword : word = word' := by
        rw [← takeWhile_isPlain h.plain hend, heq, takeWhile_isPlain h'.plain hend']
      subst hword
      exact ⟨rfl, List.append_cancel_left heq⟩
    | _ => simp [Piece.marks] at hmarks

theorem Splits.unique {cs : List Char} {ps ps' : List Piece} (h : Splits [] cs ps) (h' : Splits [] cs ps') :
    ps = ps' := by
  induction h generalizing ps' with
  | nil =>
    cases ps' with
    | nil => rfl
    | cons p' ps' =>
      have hchars := (h'.wellFormed p' List.mem_cons_self).chars_ne_nil
      have hnil := h'.eq_append
      simp [hchars] at hnil
  | @cons p cs ps hp hend _ ih =>
    generalize hcs : p.chars ++ cs = ds at h'
    cases h' with
    | nil => simp [hp.chars_ne_nil] at hcs
    | cons hp' hend' hrest =>
      obtain ⟨rfl, rfl⟩ := hp.unique hp' hend hend' hcs
      rw [ih hrest]

/-! ## where tokens lie -/

/-- the token of a word stands in quotes -/
structure Quoted (line : String) (q : Char) (t : Token) : Prop where
  word : t.kind = .word
  quote : isQuote q = true
  opens : Span.text ⟨t.span.start - 1, t.span.start⟩ line = String.singleton q
  closes : Span.text ⟨t.span.stop, t.span.stop + 1⟩ line = String.singleton q

/-- what the byte at an offset of a line is for -/
inductive Covered (line : String) (ts : List Token) (i : Nat) : Prop
  | token {t : Token} : t ∈ ts → t.span.start ≤ i → i < t.span.stop → Covered line ts i
  | blank {c : Char} : isBlank c = true → Span.text ⟨i, i + 1⟩ line = String.singleton c → Covered line ts i
  | quote {t : Token} {q : Char} : t ∈ ts → Quoted line q t →
      (i + 1 = t.span.start ∨ i = t.span.stop) → Covered line ts i

/-- tokens that lie between two offsets of a line: in order and apart, between characters, each read as `rs` says, and
with nothing left out but blanks and quotes -/
structure Lies (line : String) (first last : Nat) (ts : List Token) (rs : List (TokenKind × String)) : Prop where
  ordered : ts.Pairwise fun a b => a.span.stop ≤ b.span.start
  within : ∀ t ∈ ts, first ≤ t.span.start ∧ t.span.start ≤ t.span.stop ∧ t.span.stop ≤ last
  fits : ∀ t ∈ ts, t.span.Fits line
  read : ts.map (fun t => (t.kind, t.text line)) = rs
  covered : ∀ i, first ≤ i → i < last → Covered line ts i

theorem Covered.mono {line : String} {ts us : List Token} {i : Nat} (h : Covered line ts i) (hsub : ts ⊆ us) :
    Covered line us i := by
  cases h with
  | token hmem hstart hstop => exact .token (hsub hmem) hstart hstop
  | blank hc htext => exact .blank hc htext
  | quote hmem hq hat => exact .quote (hsub hmem) hq hat

theorem Lies.nil (line : String) (offset : Nat) : Lies line offset offset [] [] where
  ordered := .nil
  within := by simp
  fits := by simp
  read := rfl
  covered i hle hlt := by omega

theorem Lies.append {line : String} {first mid last : Nat} {ts us : List Token} {rs ss : List (TokenKind × String)}
    (h : Lies line first mid ts rs) (h' : Lies line mid last us ss) (hfirst : first ≤ mid) (hlast : mid ≤ last) :
    Lies line first last (ts ++ us) (rs ++ ss) where
  ordered := by
    refine List.pairwise_append.2 ⟨h.ordered, h'.ordered, fun a ha b hb => ?_⟩
    exact Nat.le_trans (h.within a ha).2.2 (h'.within b hb).1
  within t ht := by
    rcases List.mem_append.1 ht with ht | ht
    · have := h.within t ht
      omega
    · have := h'.within t ht
      omega
  fits t ht := (List.mem_append.1 ht).elim (h.fits t) (h'.fits t)
  read := by rw [List.map_append, h.read, h'.read]
  covered i hle hlt := by
    rcases Nat.lt_or_ge i mid with hi | hi
    · exact (h.covered i hle hi).mono (List.subset_append_left ts us)
    · exact (h'.covered i hi hlt).mono (List.subset_append_right ts us)

/-- a token over all that lies between two offsets -/
theorem Lies.single {line : String} {before mid after : List Char} (h : line.toList = before ++ mid ++ after)
    (kind : TokenKind) :
    Lies line (width before) (width before + width mid) [⟨kind, ⟨width before, width before + width mid⟩, none⟩]
      [(kind, String.ofList mid)] where
  ordered := List.pairwise_singleton _ _
  within t ht := by
    rw [List.mem_singleton.1 ht]
    exact ⟨Nat.le_refl _, Nat.le_add_right _ _, Nat.le_refl _⟩
  fits t ht := by
    rw [List.mem_singleton.1 ht]
    exact (Span.text_of_append h).1
  read := by
    simp only [List.map_cons, List.map_nil, Token.text]
    rw [(Span.text_of_append h).2]
  covered i hle hlt := .token List.mem_cons_self hle hlt

/-- the character at an offset of a line, if it takes one byte -/
theorem text_of_cons {line : String} {before after : List Char} {c : Char} (h : line.toList = before ++ c :: after)
    (hc : c.utf8Size = 1) : Span.text ⟨width before, width before + 1⟩ line = String.singleton c := by
  have hmid : line.toList = before ++ [c] ++ after := by rw [h, List.append_assoc]; rfl
  have htext := (Span.text_of_append hmid).2
  rwa [width_cons, width_nil, hc, ← String.singleton_eq_ofList] at htext

/-- the token of a piece lies over the piece -/
theorem Piece.WellFormed.lies {p : Piece} (hp : p.WellFormed) {line : String} {before after : List Char}
    (h : line.toList = before ++ p.chars ++ after) :
    Lies line (width before) (width before + width p.chars) (p.token? (width before)).toList p.reading?.toList := by
  cases p with
  | blank c =>
    have hc : c.utf8Size = 1 := isBlank_width hp
    refine ⟨.nil, by simp [token?], by simp [token?], rfl, fun i hle hlt => ?_⟩
    simp only [chars, width_cons, width_nil, hc] at hlt
    obtain rfl : i = width before := by omega
    exact .blank hp (text_of_cons (by simpa [chars] using h) hc)
  | operator c kind =>
    have hc : c.utf8Size = 1 := ofOperator?_width hp
    have hwidth : width (operator c kind).chars = 1 := by simp [chars, hc]
    have hline : line.toList = before ++ [c] ++ after := h
    have hsingle := Lies.single hline kind
    rw [show width [c] = 1 from hwidth, ← String.singleton_eq_ofList] at hsingle
    rw [hwidth]
    exact hsingle
  | quoted q content =>
    have hq : q.utf8Size = 1 := isQuote_width hp.1
    have hopen : line.toList = before ++ q :: (content ++ q :: after) := by rw [h]; simp [chars]
    have hinner : line.toList = (before ++ [q]) ++ content ++ q :: after := by rw [hopen]; simp
    have hclose : line.toList = (before ++ q :: content) ++ q :: after := by rw [hopen]; simp
    have hsingle := Lies.single hinner .word
    have htoken : (quoted q content).token? (width before) =
        some (.ofWord (width before + 1) (width before + 1 + width content)) := by rw [token?, hq]
    have hquoted : Quoted line q (.ofWord (width before + 1) (width before + 1 + width content)) := by
      refine ⟨rfl, hp.1, ?_, ?_⟩
      · exact text_of_cons hopen hq
      · have hclosed := text_of_cons hclose hq
        rw [width_append, width_cons, hq, ← Nat.add_assoc] at hclosed
        exact hclosed
    simp only [width_append, width_cons, width_nil, hq] at hsingle
    simp only [chars, width_cons, width_append, width_nil, hq, htoken]
    refine ⟨hsingle.ordered, fun t ht => ?_, hsingle.fits, hsingle.read, fun i hle hlt => ?_⟩
    · have := hsingle.within t ht
      omega
    · rcases Nat.lt_or_ge (width before) i with hi | hi
      · rcases Nat.lt_or_ge i (width before + 1 + width content) with hi' | hi'
        · exact .token List.mem_cons_self hi hi'
        · exact .quote List.mem_cons_self hquoted (.inr (by simp only [Token.ofWord]; omega))
      · exact .quote List.mem_cons_self hquoted (.inl (by simp only [Token.ofWord]; omega))
  | bare word => exact Lies.single h .word

theorem placed_lies {ps : List Piece} (hps : ∀ p ∈ ps, p.WellFormed) {line : String} {before after : List Char}
    (h : line.toList = before ++ ps.flatMap Piece.chars ++ after) :
    Lies line (width before) (width before + width (ps.flatMap Piece.chars)) (placed (width before) ps)
      (ps.filterMap Piece.reading?) := by
  induction ps generalizing before with
  | nil => exact .nil line _
  | cons p ps ih =>
    have hfirst : line.toList = before ++ p.chars ++ (ps.flatMap Piece.chars ++ after) := by rw [h]; simp
    have hrest : line.toList = (before ++ p.chars) ++ ps.flatMap Piece.chars ++ after := by rw [h]; simp
    have hlies := (hps p List.mem_cons_self).lies hfirst
    have hlater := ih (fun p hp => hps p (List.mem_cons_of_mem _ hp)) hrest
    rw [width_append] at hlater
    have hread : (p :: ps).filterMap Piece.reading? = p.reading?.toList ++ ps.filterMap Piece.reading? := by
      cases hp : p.reading? <;> simp [hp]
    rw [List.flatMap_cons, width_append, ← Nat.add_assoc, placed, hread]
    exact hlies.append hlater (Nat.le_add_right _ _) (Nat.le_add_right _ _)

/-- the tokens of a line that falls into pieces, its end included -/
def listed (line : String) (ps : List Piece) : List Token := placed 0 ps ++ [.ofEnd line.utf8ByteSize]

/-- **Where the tokens of a line lie.** -/
theorem Splits.lies {line : String} {ps : List Piece} (h : Splits [] line.toList ps) :
    Lies line 0 line.utf8ByteSize (listed line ps) (ps.filterMap Piece.reading? ++ [(.endOfLine, "")]) := by
  have hline : line.toList = [] ++ ps.flatMap Piece.chars ++ [] := by simpa using h.eq_append
  have hsize : line.utf8ByteSize = width (ps.flatMap Piece.chars) := by rw [utf8ByteSize_eq_width, hline]; simp
  have hplaced := placed_lies h.wellFormed hline
  have hend : Lies line line.utf8ByteSize line.utf8ByteSize [.ofEnd line.utf8ByteSize] [(.endOfLine, "")] := by
    have hlast : line.toList = line.toList ++ [] ++ [] := by simp
    have hsingle := Lies.single hlast .endOfLine
    rw [← utf8ByteSize_eq_width] at hsingle
    exact hsingle
  rw [width_nil, Nat.zero_add, ← hsize] at hplaced
  exact hplaced.append hend (Nat.zero_le _) (Nat.le_refl _)

/-! ## which pieces have tokens -/

/-- only blanks leave no token behind -/
theorem Piece.WellFormed.token?_eq_none {p : Piece} (h : p.WellFormed) (offset : Nat) :
    p.token? offset = none ↔ ∀ c ∈ p.chars, isBlank c = true := by
  obtain ⟨c, tail, hchars, hmarks⟩ := h.marks
  cases p with
  | blank c =>
    have hb : isBlank c = true := h
    simpa [Piece.token?, Piece.chars] using hb
  | _ =>
    have hb : isBlank c = false := (congrArg Prod.fst hmarks).symm
    rw [hchars]
    simp [Piece.token?, hb]

/-- no piece is an end of the line -/
theorem kind_ne_end_of_placed {ps : List Piece} (hps : ∀ p ∈ ps, p.WellFormed) {offset : Nat} {t : Token}
    (ht : t ∈ placed offset ps) : t.kind ≠ .endOfLine := by
  induction ps generalizing offset with
  | nil => simp [placed] at ht
  | cons p ps ih =>
    rcases List.mem_append.1 ht with ht | ht
    · have hp := hps p List.mem_cons_self
      cases p with
      | blank c => simp [Piece.token?] at ht
      | operator c kind =>
        have hkind : TokenKind.ofOperator? c = some kind := hp
        obtain rfl : t = ⟨kind, ⟨offset, offset + 1⟩, none⟩ := by simpa [Piece.token?] using ht
        rintro rfl
        unfold TokenKind.ofOperator? at hkind
        split at hkind <;> cases hkind
      | quoted q content =>
        obtain rfl : t = .ofWord _ _ := by simpa [Piece.token?] using ht
        nofun
      | bare word =>
        obtain rfl : t = .ofWord _ _ := by simpa [Piece.token?] using ht
        nofun
    · exact ih (fun p hp => hps p (List.mem_cons_of_mem _ hp)) ht

/-- nothing but blanks leaves no tokens -/
theorem placed_eq_nil {ps : List Piece} (hps : ∀ p ∈ ps, p.WellFormed) (offset : Nat) :
    placed offset ps = [] ↔ ∀ c ∈ ps.flatMap Piece.chars, isBlank c = true := by
  induction ps generalizing offset with
  | nil => simp [placed]
  | cons p ps ih =>
    have hp := (hps p List.mem_cons_self).token?_eq_none offset
    rw [placed, List.append_eq_nil_iff, ih fun p hp => hps p (List.mem_cons_of_mem _ hp), Option.toList_eq_nil_iff, hp]
    simp only [List.flatMap_cons, List.mem_append, or_imp, forall_and]

end Line

end LineShell
