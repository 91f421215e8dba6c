import DocPromotion.Proofs.FirstFault
import DocPromotion.Proofs.Lexing
import DocPromotion.Proofs.OwnSpelling

/-!
Reading a type never splits a character.

The lexer looks at single bytes, and two of the bytes that separate tokens also occur inside of
characters.  A valid text can still be cut where tokens start and end, for one of two reasons: the
byte before the cut is in ASCII, or the byte after it does not continue a character
(`Text.isValid_cut`).  Numbers, quoted texts and single bytes end with a byte of ASCII, and a name
takes all continuation bytes there are (`Token.isValid_lexeme`).  Blanks are in ASCII wherever a
token could start, since no valid text starts with a continuation byte.

All that a type keeps of an expression lies between two such cuts.  What a resolver answers is kept
only if it is a class name, and class names are valid whatever the resolver does, so nothing is
assumed about it.
-/

namespace DocPromotion

namespace Text

/-! ### Valid texts -/

theorem isValid_nil : isValid [] = true := by rw [isValid, pieces, List.all_nil]

theorem ofChars_cons (c : Char) (cs : List Char) :
    ofChars (c :: cs) = String.utf8EncodeChar c ++ ofChars cs := List.flatMap_cons

theorem pieces_ofChars_append (cs : List Char) (rest : Text) :
    pieces (ofChars cs ++ rest) = pieces (ofChars cs) ++ pieces rest := by
  induction cs with
  | nil => rw [ofChars, List.flatMap_nil, List.nil_append, pieces, List.nil_append]
  | cons c cs ih =>
    rw [ofChars_cons, List.append_assoc, pieces_utf8EncodeChar_append,
      pieces_utf8EncodeChar_append, ih, List.cons_append]

theorem isValid_ofChars (cs : List Char) : isValid (ofChars cs) = true := by
  induction cs with
  | nil => exact isValid_nil
  | cons c cs ih =>
    rw [ofChars_cons, isValid, pieces_utf8EncodeChar_append, List.all_cons]
    exact ih

/-- The characters after a valid text are those of the rest. -/
theorem pieces_append {u : Text} (hu : isValid u = true) (v : Text) :
    pieces (u ++ v) = pieces u ++ pieces v := by
  rw [← ofChars_chars hu]
  exact pieces_ofChars_append _ v

theorem isValid_append {u : Text} (hu : isValid u = true) (v : Text) :
    isValid (u ++ v) = isValid v := by
  have hall : (pieces u).all (·.char?.isSome) = true := hu
  rw [isValid, pieces_append hu, List.all_append, hall, Bool.true_and, isValid]

theorem isValid_flatMap {α : Type} {f : α → Text} {xs : List α}
    (h : ∀ x ∈ xs, isValid (f x) = true) : isValid (xs.flatMap f) = true := by
  induction xs with
  | nil => exact isValid_nil
  | cons x xs ih =>
    obtain ⟨hx, hxs⟩ := List.forall_mem_cons.mp h
    rw [List.flatMap_cons, isValid_append hx, ih hxs]

theorem isValid_joinWith {sep : Text} (hsep : isValid sep = true) {ts : List Text}
    (h : ∀ t ∈ ts, isValid t = true) : isValid (joinWith sep ts) = true := by
  induction ts with
  | nil => exact isValid_nil
  | cons t ts ih =>
    obtain ⟨ht, hts⟩ := List.forall_mem_cons.mp h
    cases ts with
    | nil => exact ht
    | cons t' ts =>
      rw [joinWith_cons sep t (List.cons_ne_nil t' ts), isValid_append, ih hts]
      rw [isValid_append ht, hsep]

/-- Some of the characters of a valid text make a valid text. -/
theorem isValid_flatMap_bytes {t : Text} (ht : isValid t = true) {ps : List Piece}
    (hps : ps ⊆ pieces t) : isValid (ps.flatMap Piece.bytes) = true := by
  refine isValid_flatMap fun p hp => ?_
  obtain ⟨c, hc⟩ := Option.isSome_iff_exists.mp (List.all_eq_true.mp ht p (hps hp))
  have hchar : ofChars [c] = p.bytes := by
    rw [ofChars, List.flatMap_singleton, utf8EncodeChar_of_mem_pieces (hps hp) hc]
  rw [← hchar]
  exact isValid_ofChars [c]

/-! ### Cutting valid texts -/

/-- The offsets between the characters of a text, those of its start and its end included. -/
def IsBoundary (t : Text) (i : Nat) : Prop :=
  ∃ before after, pieces t = before ++ after ∧ (before.flatMap Piece.bytes).length = i

theorem isBoundary_append {u : Text} (hu : isValid u = true) (v : Text) :
    IsBoundary (u ++ v) u.length :=
  ⟨pieces u, pieces v, pieces_append hu v, by rw [flatten_pieces]⟩

theorem IsBoundary.isValid_take {t : Text} (ht : isValid t = true) {i : Nat}
    (h : IsBoundary t i) : isValid (t.take i) = true := by
  obtain ⟨before, after, hpieces, rfl⟩ := h
  have htake : t.take (before.flatMap Piece.bytes).length = before.flatMap Piece.bytes := by
    nth_rewrite 1 [← flatten_pieces t]
    rw [hpieces, List.flatMap_append, List.take_left]
  rw [htake]
  exact isValid_flatMap_bytes ht (by rw [hpieces]; exact List.subset_append_left before after)

/-- **The text between two boundaries is valid.** -/
theorem IsBoundary.isValid_slice {t : Text} (ht : isValid t = true) {i j : Nat}
    (hi : IsBoundary t i) (hj : IsBoundary t j) : isValid ((t.drop i).take (j - i)) = true := by
  rcases Nat.le_total i j with hij | hij
  · have hsplit : t.take i ++ (t.drop i).take (j - i) = t.take j := by
      rw [← List.take_add, Nat.add_sub_cancel' hij]
    rw [← isValid_append (hi.isValid_take ht), hsplit]
    exact hj.isValid_take ht
  · rw [Nat.sub_eq_zero_of_le hij, List.take_zero]
    exact isValid_nil

/-- A valid text does not start with a continuation byte. -/
theorem isContinuation_of_isValid {b : UInt8} {rest : Text} (h : isValid (b :: rest) = true) :
    isContinuation b = false := by
  rw [isValid, pieces] at h
  split at h
  next c n hdecode =>
    exact (isContinuation_of_utf8EncodeChar (utf8EncodeChar_of_decodeHead hdecode)).1
  next => cases h

theorem isValid_singleton {b : UInt8} (hb : b < 128) : isValid [b] = true := by
  have hdecode : decodeHead b [] = some (Char.ofNat b.toNat, 0) := by
    unfold decodeHead
    exact if_pos hb
  rw [isValid, pieces, hdecode]
  simp [pieces]

theorem isContinuation_of_lt {b : UInt8} (hb : b < 128) : isContinuation b = false :=
  isContinuation_of_isValid (isValid_singleton hb)

/-- **A valid text can be cut before a byte that does not continue a character.** -/
theorem isValid_cut_before {u v : Text} (h : isValid (u ++ v) = true)
    (hv : ∀ b, v.head? = some b → isContinuation b = false) :
    isValid u = true ∧ isValid v = true := by
  obtain ⟨cs, hcs⟩ : ∃ cs, u ++ v = ofChars cs := ⟨_, (ofChars_chars h).symm⟩
  clear h
  induction cs generalizing u with
  | nil =>
    obtain ⟨rfl, rfl⟩ := List.append_eq_nil_iff.mp hcs
    exact ⟨isValid_nil, isValid_nil⟩
  | cons c cs ih =>
    cases u with
    | nil =>
      rw [List.nil_append] at hcs
      rw [hcs]
      exact ⟨isValid_nil, isValid_ofChars (c :: cs)⟩
    | cons a u =>
      obtain ⟨lead, tail, henc, -⟩ := decodeHead_utf8EncodeChar c
      have hchar : isValid (lead :: tail) = true := by
        rw [← henc, ← List.flatMap_singleton String.utf8EncodeChar c]
        exact isValid_ofChars [c]
      rw [ofChars_cons, henc, List.cons_append, List.cons_append] at hcs
      obtain ⟨rfl, hrest⟩ := List.cons.inj hcs
      rcases List.append_eq_append_iff.mp hrest with ⟨inner, rfl, hv'⟩ | ⟨u, rfl, hcs'⟩
      · -- the cut is after the first character, for within it the next byte would continue it
        cases inner with
        | nil =>
          rw [List.append_nil] at hchar
          rw [List.nil_append] at hv'
          rw [hv']
          exact ⟨hchar, isValid_ofChars cs⟩
        | cons x inner =>
          have hcont := (isContinuation_of_utf8EncodeChar henc).2 x (by simp)
          rw [hv x (by rw [hv']; rfl)] at hcont
          cases hcont
      · obtain ⟨hu, hv⟩ := ih hcs'.symm
        rw [← List.cons_append, isValid_append hchar]
        exact ⟨hu, hv⟩

/-- It can be cut after a byte of ASCII as well. -/
theorem isValid_cut_after {u v : Text} (h : isValid (u ++ v) = true) {b : UInt8}
    (hlast : u.getLast? = some b) (hb : b < 128) : isValid u = true ∧ isValid v = true := by
  obtain ⟨u, rfl⟩ := List.getLast?_eq_some_iff.mp hlast
  rw [List.append_assoc] at h
  obtain ⟨hu, hv⟩ := isValid_cut_before h (by rintro _ ⟨⟩; exact isContinuation_of_lt hb)
  rw [isValid_append (isValid_singleton hb)] at hv
  rw [isValid_append hu]
  exact ⟨isValid_singleton hb, hv⟩

end Text

/-! ### Tokens -/

namespace Token

open Text (isValid IsBoundary)

/-- **The first token of a valid text ends between two characters.** -/
theorem isValid_lexeme {b : UInt8} {rest : Text} (h : isValid (b :: rest) = true) :
    isValid (b :: rest.take (lexeme b rest).2) = true ∧
      isValid (rest.drop (lexeme b rest).2) = true := by
  have hnumber : ∀ c, isNumberByte c = true → c < 128 :=
    forall_byte (P := fun c => isNumberByte c = true → c < 128) (by decide +kernel)
  have hname : ∀ c, isNamePart c = false → c < 128 :=
    forall_byte (P := fun c => isNamePart c = false → c < 128) (by decide +kernel)
  have hstart : ∀ c, isNameStart c = false → c < 128 :=
    forall_byte (P := fun c => isNameStart c = false → c < 128) (by decide +kernel)
  rw [← List.take_append_drop (lexeme b rest).2 rest, ← List.cons_append] at h
  rcases lexeme_cases b rest with ⟨-, hl⟩ | ⟨-, n, hn, hl⟩ | ⟨-, -, n, hn, hl⟩ | ⟨hb, -, -, hl⟩
  · -- a name goes on over all bytes outside of ASCII
    refine Text.isValid_cut_before h fun c hc => Text.isContinuation_of_lt (hname c ?_)
    have hdrop : rest.drop (rest.takeWhile isNamePart).length = rest.dropWhile isNamePart := by
      nth_rewrite 2 [← List.takeWhile_append_dropWhile (p := isNamePart) (l := rest)]
      exact List.drop_left
    rw [hl, hdrop] at hc
    have hhead := List.head?_dropWhile_not isNamePart rest
    rw [hc] at hhead
    exact hhead
  · obtain ⟨-, hbytes, -⟩ := numberTail?_eq_some hn
    rw [hl] at h ⊢
    obtain ⟨c, hc⟩ := List.getLast?_isSome.mpr (List.cons_ne_nil b (rest.take n)) |>
      Option.isSome_iff_exists.mp
    exact Text.isValid_cut_after h hc (hnumber c (hbytes c (List.mem_of_getLast? hc)))
  · obtain ⟨hb, -, hlast, -⟩ := quotedTail?_eq_some hn
    rw [hl] at h ⊢
    refine Text.isValid_cut_after h hlast ?_
    rcases hb with rfl | rfl <;> decide
  · rw [hl] at h ⊢
    exact Text.isValid_cut_after h rfl (hstart b hb)

/-- A blank at the start of a valid text is a character of its own. -/
theorem isValid_of_blank {b : UInt8} {rest : Text} (h : isValid (b :: rest) = true)
    (hb : isBlankByte b = true) : isValid [b] = true ∧ isValid rest = true := by
  have hblank : ∀ c, isBlankByte c = true → Text.isContinuation c = false → c < 128 :=
    forall_byte (P := fun c => isBlankByte c = true → Text.isContinuation c = false → c < 128)
      (by decide +kernel)
  exact Text.isValid_cut_after (u := [b]) h rfl
    (hblank b hb (Text.isContinuation_of_isValid h))

/-- **The tokens of a valid text lie between its characters.** -/
theorem boundaries_of_mem_lexFrom {v x : Text} (hv : isValid v = true) (hx : isValid x = true)
    {offset : Nat} (hoffset : v.length = offset) {t : Token} (ht : t ∈ lexFrom offset x) :
    isValid t.text = true ∧ IsBoundary (v ++ x) t.start ∧ IsBoundary (v ++ x) t.stop := by
  induction offset, x using lexFrom_induction generalizing v with
  | nil offset =>
    rw [lexFrom] at ht
    cases ht
  | blank offset b rest hb ih =>
    rw [lexFrom_blank hb] at ht
    obtain ⟨hblank, hrest⟩ := isValid_of_blank hx hb
    have hvb : isValid (v ++ [b]) = true := by rw [Text.isValid_append hv, hblank]
    have htoken := ih hvb hrest (by rw [List.length_append, hoffset, List.length_singleton]) ht
    rw [List.append_assoc] at htoken
    exact htoken
  | token offset b rest hb ih =>
    obtain ⟨htext, hrest⟩ := isValid_lexeme hx
    have hsplit : v ++ b :: rest =
        v ++ (b :: rest.take (lexeme b rest).2) ++ rest.drop (lexeme b rest).2 := by
      rw [List.append_assoc, List.cons_append, List.take_append_drop]
    have hvt : isValid (v ++ (b :: rest.take (lexeme b rest).2)) = true := by
      rw [Text.isValid_append hv, htext]
    have hlength : (v ++ (b :: rest.take (lexeme b rest).2)).length =
        offset + ((lexeme b rest).2 + 1) := by
      rw [List.length_append, hoffset, List.length_cons, List.length_take_of_le (lexeme_le b rest)]
    rw [lexFrom_token hb] at ht
    rcases List.mem_cons.mp ht with rfl | ht
    · refine ⟨htext, ?_, ?_⟩
      · rw [← hoffset]
        exact Text.isBoundary_append hv _
      · rw [hsplit, stop, List.length_cons, List.length_take_of_le (lexeme_le b rest), ← hlength]
        exact Text.isBoundary_append hvt _
    · rw [hsplit]
      exact ih hvt hrest hlength ht

theorem boundaries_of_mem_lex {expr : Text} (h : isValid expr = true) {t : Token}
    (ht : t ∈ lex expr) :
    isValid t.text = true ∧ IsBoundary expr t.start ∧ IsBoundary expr t.stop :=
  boundaries_of_mem_lexFrom (v := []) Text.isValid_nil h rfl ht

end Token

namespace Text

/-! ### Texts in messages and types -/

theorem isValid_trim {t : Text} (ht : isValid t = true) : isValid (trim t) = true := by
  refine isValid_flatMap_bytes ht fun p hp => ?_
  have hrest := (List.dropWhile_sublist _).subset (List.mem_reverse.mp hp)
  exact (List.dropWhile_sublist _).subset (List.mem_reverse.mp hrest)

/-- Stray bytes are written as escapes between quotes. -/
theorem isValid_quote (t : Text) : isValid (quote t) = true := by
  have hpiece : ∀ p : Piece, isValid (quotePiece p) = true := by
    intro p
    unfold quotePiece
    split
    next => exact isValid_ofChars _
    next => exact isValid_flatMap fun b _ => isValid_ofChars _
  have hquote : isValid [byte '"'] = true := isValid_singleton (by decide)
  have hinner : isValid ((pieces t).flatMap quotePiece) = true :=
    isValid_flatMap fun p _ => hpiece p
  rw [quote, isValid_append, hquote]
  rw [isValid_append hquote, hinner]

end Text

theorem SyntaxFault.isValid_message (fault : SyntaxFault) :
    Text.isValid fault.message = true := by
  have hquoted : ∀ (words : String) (t : Text), Text.isValid (words ++ Text.quote t) = true := by
    intro words t
    have hwords : Text.isValid (Text.ofString words) = true := Text.isValid_ofChars _
    rw [Text.isValid_append hwords, Text.isValid_quote]
  cases fault with
  | unexpected token => exact hquoted "unexpected " token
  | invalidName name => exact hquoted "invalid class name " name
  | unbalanced token => exact hquoted "unbalanced " token
  | missingType => exact Text.isValid_ofChars _
  | unexpectedEnd => exact Text.isValid_ofChars _
  | unterminated => exact Text.isValid_ofChars _

/-- Class names are made of characters that are read as such. -/
theorem isValid_of_isClassName {name : Text} (h : isClassName name = true) :
    Text.isValid name = true := by
  rw [← Text.joinWith_splitOn Text.backslash name]
  refine Text.isValid_joinWith (Text.isValid_singleton (by decide)) fun segment hsegment => ?_
  obtain ⟨c, cs, rfl, -, -⟩ := IsIdentifier.of_isIdentifier (List.all_eq_true.mp h segment hsegment)
  exact Text.isValid_ofChars _

namespace DocType

/-- The texts that a type is made of: names as they are written and as they are resolved, and
spellings. -/
def texts : DocType → List Text
  | .nominal name => [name]
  | .aliased short fqn => [short, fqn]
  | .array s => [s]
  | .iterable s => [s]
  | .scalar _ => []
  | .void => []
  | .unrepresentable s => [s]

/-- All texts of a type that has been read are its own spelling, or class names. -/
theorem IsSound.isValid_texts {d : DocType} (h : d.IsSound)
    (hspelling : Text.isValid d.spelling = true) : ∀ s ∈ d.texts, Text.isValid s = true := by
  cases d with
  | nominal name =>
    rw [texts, List.forall_mem_singleton]
    exact isValid_of_isClassName h
  | aliased short fqn =>
    rw [texts, List.forall_mem_cons, List.forall_mem_singleton]
    exact ⟨hspelling, isValid_of_isClassName h⟩
  | array s =>
    rw [texts, List.forall_mem_singleton]
    cases s with
    | nil => exact Text.isValid_nil
    | cons b s => exact hspelling
  | iterable s =>
    rw [texts, List.forall_mem_singleton]
    cases s with
    | nil => exact Text.isValid_nil
    | cons b s => exact hspelling
  | scalar kind => exact List.forall_mem_nil _
  | void => exact List.forall_mem_nil _
  | unrepresentable s =>
    rw [texts, List.forall_mem_singleton]
    exact hspelling

end DocType

namespace Grammar

open DocType

/-- Tokens of an expression are spelled as a part of it that starts and ends between characters. -/
theorem isValid_spelled {expr : Text} (h : Text.isValid expr = true) {ts : List Token}
    (hts : ts ⊆ Token.lex expr) : Text.isValid (spelled expr ts) = true := by
  have hbounds : ∀ t ∈ ts, Text.IsBoundary expr t.start ∧ Text.IsBoundary expr t.stop :=
    fun t ht => (Token.boundaries_of_mem_lex h (hts ht)).2
  have hzero : Text.IsBoundary expr 0 := Text.isBoundary_append Text.isValid_nil expr
  have hstart : Text.IsBoundary expr (startOf ts) := by
    cases ts with
    | nil => exact hzero
    | cons t ts => exact (hbounds t List.mem_cons_self).1
  have hstop : Text.IsBoundary expr (stopOf ts) := by
    rw [stopOf]
    cases hlast : ts.getLast? with
    | none => exact hzero
    | some t => exact (hbounds t (List.mem_of_getLast? hlast)).2
  exact Text.isValid_trim (hstart.isValid_slice h hstop)

/-- **A type has no part of a character in any of its texts.** -/
theorem isValid_texts_of_parse {names : Option Resolver} {expr : Text}
    (h : Text.isValid expr = true) {d : DocType} (hparse : parse names expr = .ok d) :
    ∀ s ∈ d.texts, Text.isValid s = true := by
  obtain ⟨core, hcore, -, hcase⟩ := (denotes_of_parse hparse).exists_core
  rcases hcase with ⟨t, rfl, ht⟩ | ⟨form, rfl⟩
  · have hmem : t ∈ Token.lex expr := hcore.subset (List.mem_singleton_self t)
    have hsound : d.IsSound := isSound_of_ofName? ht.2
    -- the type of a name keeps the name, a class name, or nothing
    rcases spelling_ofName? ((Token.covers_lex expr).ne_nil t hmem) ht.2 with
      hspelling | ⟨fqn, rfl⟩ | ⟨kind, rfl⟩ | rfl
    · apply hsound.isValid_texts
      rw [hspelling]
      exact (Token.boundaries_of_mem_lex h hmem).1
    · rw [texts, List.forall_mem_singleton]
      exact isValid_of_isClassName hsound
    · exact List.forall_mem_nil _
    · exact List.forall_mem_nil _
  · have htexts : (form.toDocType (spelled expr core)).texts = [spelled expr core] := by
      cases form <;> rfl
    rw [htexts, List.forall_mem_singleton]
    exact isValid_spelled h hcore.subset

/-! ### Main statement -/

/-- **Reading a type never splits a character.**  The tokens of a valid text start and end between
its characters, and so does whatever an error points at.  The texts of the type and the message of
the error are valid, whatever the resolver answers. -/
theorem parse_splits_no_character (names : Option Resolver) (expr : Text)
    (h : Text.isValid expr = true) :
    (∀ t ∈ Token.lex expr, Text.IsBoundary expr t.start ∧ Text.IsBoundary expr t.stop) ∧
      (∀ d, parse names expr = .ok d → ∀ s ∈ d.texts, Text.isValid s = true) ∧
      (∀ e, parse names expr = .error e →
        Text.isValid e.fault.message = true ∧ Text.IsBoundary expr e.offset) := by
  have htokens : ∀ t ∈ Token.lex expr,
      Text.IsBoundary expr t.start ∧ Text.IsBoundary expr t.stop :=
    fun t ht => (Token.boundaries_of_mem_lex h ht).2
  refine ⟨htokens, ?_, ?_⟩
  · exact fun d hparse => isValid_texts_of_parse h hparse
  · intro e hparse
    refine ⟨e.fault.isValid_message, ?_⟩
    unfold parse at hparse
    split at hparse
    next => cases hparse
    next offset fault hrun =>
      obtain rfl := Except.error.inj hparse
      rcases fault_of_run hrun with ⟨before, t, after, s, hts, -, -, ho⟩ | ⟨s, -, -, ho⟩
      · have ht : t ∈ Token.lex expr := by
          rw [hts]
          exact List.mem_append_right _ List.mem_cons_self
        rw [ho]
        exact (htokens t ht).1
      · have hend : Text.IsBoundary (expr ++ []) expr.length := Text.isBoundary_append h []
        rw [List.append_nil] at hend
        rw [ho]
        exact hend

/-- The last byte of `à` and that of the character at fault would separate tokens. -/
theorem parse_splits_no_character_accented :
    Text.isValid "array<à>\u0085" = true ∧
      parse none "array<à>\u0085" = .error ⟨"array<à>\u0085", 9, .unexpected "\u0085"⟩ ∧
      Text.isValid (SyntaxFault.unexpected "\u0085").message = true ∧
      Text.IsBoundary "array<à>\u0085" 9 := by
  have hvalid : Text.isValid "array<à>\u0085" = true := Text.isValid_ofChars _
  have hparse : parse none "array<à>\u0085" =
      .error ⟨"array<à>\u0085", 9, .unexpected "\u0085"⟩ := by
    cbv
  exact ⟨hvalid, hparse, (parse_splits_no_character none _ hvalid).2.2 _ hparse⟩

end Grammar

end DocPromotion
