import DocPromotion.Proofs.GrammarCompleteness
import DocPromotion.Proofs.Relexing

/-!
The tokens of a text leave nothing of it out.

A token is the first match among several matchers, which are tried in a fixed order
(`Token.firstMatch?_cons`).  Reading tokens one after the other could stop at a byte that none of
them matches (`Token.Scan`).  It never does, since the last matcher takes any byte, so there is one
way to read a text, and it leaves nothing unread (`Token.scan_iff`).

What lies outside of all tokens is therefore blank (`Token.Covers`).  Where tokens lie is said for
the text that is still to be read, after one that has been read already: an induction along the
tokens goes through the rests of an expression, but the offsets count from its start.
-/

namespace DocPromotion

namespace Token

/-! ### Matchers -/

/-- A kind of tokens, and how many bytes at the start of a text are one. -/
structure Matcher where
  kind : TokenKind
  length? : Text → Option Nat

def nameMatcher : Matcher where
  kind := .name
  length?
    | [] => none
    | b :: rest => if isNameStart b then some ((rest.takeWhile isNamePart).length + 1) else none

def numberMatcher : Matcher where
  kind := .number
  length?
    | [] => none
    | b :: rest => (numberTail? b rest).map (· + 1)

def quotedMatcher (quote : UInt8) : Matcher where
  kind := .quoted
  length?
    | [] => none
    | b :: rest => if b == quote then (quotedLength? b b rest).map (· + 1) else none

/-- Matches one ASCII character. -/
def charMatcher (kind : TokenKind) (c : Char) : Matcher where
  kind := kind
  length?
    | [] => none
    | b :: _ => if b == Text.byte c then some 1 else none

/-- Matches any byte. -/
def byteMatcher : Matcher where
  kind := .other
  length?
    | [] => none
    | _ :: _ => some 1

/-- The matchers for tokens of a single byte. -/
def singleMatchers : List Matcher := [
  charMatcher .union '|', charMatcher .intersection '&', charMatcher .nullable '?',
  charMatcher (.opening .angle) '<', charMatcher (.closing .angle) '>',
  charMatcher (.opening .brace) '\x7b', charMatcher (.closing .brace) '\x7d',
  charMatcher (.opening .paren) '(', charMatcher (.closing .paren) ')',
  charMatcher (.opening .square) '[', charMatcher (.closing .square) ']',
  charMatcher .colon ':', byteMatcher]

/-- All matchers, in the order in which they are tried. -/
def matchers : List Matcher :=
  nameMatcher :: numberMatcher :: quotedMatcher 0x27 :: quotedMatcher 0x22 :: singleMatchers

/-- What a matcher finds at the start of a text: the kind of the token, and its length. -/
def Matcher.find? (t : Text) (m : Matcher) : Option (TokenKind × Nat) :=
  (m.length? t).map (m.kind, ·)

/-- What the first matcher finds that finds something. -/
def firstMatch? (t : Text) : Option (TokenKind × Nat) := matchers.findSome? (Matcher.find? t)

theorem findSome?_singleMatchers (b : UInt8) (rest : Text) :
    singleMatchers.findSome? (Matcher.find? (b :: rest)) = some (singleKind b, 1) := by
  have hchar : ∀ kind c ms, (charMatcher kind c :: ms).findSome? (Matcher.find? (b :: rest)) =
      if b == Text.byte c then some (kind, 1) else ms.findSome? (Matcher.find? (b :: rest)) := by
    intro kind c ms
    have hfind : (charMatcher kind c).find? (b :: rest) =
        (if b == Text.byte c then some 1 else none).map (kind, ·) := rfl
    rw [List.findSome?_cons, hfind]
    cases b == Text.byte c <;> rfl
  have hbyte : [byteMatcher].findSome? (Matcher.find? (b :: rest)) = some (.other, 1) := rfl
  simp only [singleMatchers, hchar, hbyte, singleKind, apply_ite (fun k => some (k, 1))]

/-- **The first match is the token that is read.** -/
theorem firstMatch?_cons (b : UInt8) (rest : Text) :
    firstMatch? (b :: rest) = some ((lexeme b rest).1, (lexeme b rest).2 + 1) := by
  have hname : nameMatcher.find? (b :: rest) =
      (if isNameStart b then some ((rest.takeWhile isNamePart).length + 1) else none).map
        (.name, ·) := rfl
  have hnumber : numberMatcher.find? (b :: rest) =
      ((numberTail? b rest).map (· + 1)).map (.number, ·) := rfl
  have hquoted : ∀ quote, (quotedMatcher quote).find? (b :: rest) =
      (if b == quote then (quotedLength? b b rest).map (· + 1) else none).map (.quoted, ·) :=
    fun _ => rfl
  simp only [firstMatch?, matchers, List.findSome?_cons, hname, hnumber, hquoted,
    findSome?_singleMatchers, lexeme, quotedTail?]
  cases isNameStart b with
  | true => rfl
  | false =>
    cases numberTail? b rest with
    | some n => rfl
    | none => cases b == 0x27 <;> cases b == 0x22 <;> cases quotedLength? b b rest <;> rfl

/-- The matchers together match every byte. -/
theorem firstMatch?_eq_none_iff {t : Text} : firstMatch? t = none ↔ t = [] := by
  cases t with
  | nil => exact iff_of_true rfl rfl
  | cons b rest => simp [firstMatch?_cons]

/-! ### Runs of the lexer -/

/-- The bytes that separate tokens. -/
def blankBytes : List UInt8 := [0x20, 0x09, 0x0A, 0x0B, 0x0C, 0x0D, 0x85, 0xA0]

theorem isBlankByte_iff {b : UInt8} : isBlankByte b = true ↔ b ∈ blankBytes :=
  forall_byte (P := fun b => isBlankByte b = true ↔ b ∈ blankBytes) (by decide +kernel) b

/-- A text that does not start with a blank. -/
def StartsVisibly (t : Text) : Prop := ∀ b, t.head? = some b → isBlankByte b = false

/-- Tokens are read from a text whose first byte has the given offset.  Blanks are skipped before
each token, and reading stops with a rest of the text that no matcher matches. -/
inductive Scan : Nat → Text → List Token → Text → Prop where
  | stop {offset : Nat} {unread : Text} :
      StartsVisibly unread → firstMatch? unread = none → Scan offset unread [] unread
  | blank {offset : Nat} {b : UInt8} {rest unread : Text} {ts : List Token} :
      isBlankByte b = true → Scan (offset + 1) rest ts unread →
      Scan offset (b :: rest) ts unread
  | token {offset : Nat} {text rest unread : Text} {kind : TokenKind} {ts : List Token} :
      StartsVisibly (text ++ rest) → firstMatch? (text ++ rest) = some (kind, text.length) →
      Scan (offset + text.length) rest ts unread →
      Scan offset (text ++ rest) (⟨kind, text, offset⟩ :: ts) unread

section

variable {offset : Nat} {x text rest unread : Text} {kind : TokenKind} {ts : List Token}

/-- What a matcher has found is a byte and the rest of its token. -/
theorem exists_cons_of_firstMatch? (h : firstMatch? (text ++ rest) = some (kind, text.length)) :
    ∃ b tail, text = b :: tail ∧ lexeme b (tail ++ rest) = (kind, tail.length) := by
  cases text with
  | nil =>
    -- no match is empty
    cases rest with
    | nil => cases h
    | cons b rest => simp [firstMatch?_cons] at h
  | cons b tail =>
    rw [List.cons_append, firstMatch?_cons, List.length_cons] at h
    obtain ⟨hkind, hlength⟩ := Prod.mk.inj (Option.some.inj h)
    exact ⟨b, tail, rfl, Prod.ext hkind (Nat.succ.inj hlength)⟩

/-- The lexer reads a text to its end. -/
theorem scan_lexFrom (offset : Nat) (x : Text) : Scan offset x (lexFrom offset x) [] := by
  induction offset, x using lexFrom_induction with
  | nil offset =>
    rw [lexFrom]
    exact .stop (by simp [StartsVisibly]) rfl
  | blank offset b rest hb ih =>
    rw [lexFrom_blank hb]
    exact .blank hb ih
  | token offset b rest hb ih =>
    have hlength : (b :: rest.take (lexeme b rest).2).length = (lexeme b rest).2 + 1 := by
      rw [List.length_cons, List.length_take_of_le (lexeme_le b rest)]
    have hsplit : b :: rest.take (lexeme b rest).2 ++ rest.drop (lexeme b rest).2 = b :: rest := by
      rw [List.cons_append, List.take_append_drop]
    rw [← hlength] at ih
    have hvisible : StartsVisibly (b :: rest) := by
      rintro _ ⟨⟩
      exact hb
    have hmatch : firstMatch? (b :: rest.take (lexeme b rest).2 ++ rest.drop (lexeme b rest).2) =
        some ((lexeme b rest).1, (b :: rest.take (lexeme b rest).2).length) := by
      rw [hsplit, firstMatch?_cons, hlength]
    have htoken := Scan.token (hsplit.symm ▸ hvisible) hmatch ih
    rw [hsplit, hlength] at htoken
    rw [lexFrom_token hb]
    exact htoken

/-- There is no other way to read it. -/
theorem Scan.eq_lexFrom (h : Scan offset x ts unread) : ts = lexFrom offset x ∧ unread = [] := by
  induction h with
  | stop _ hnone =>
    obtain rfl := firstMatch?_eq_none_iff.mp hnone
    rw [lexFrom]
    exact ⟨rfl, rfl⟩
  | blank hb _ ih =>
    rw [lexFrom_blank hb]
    exact ih
  | token hvisible hmatch _ ih =>
    obtain ⟨b, tail, rfl, hlexeme⟩ := exists_cons_of_firstMatch? hmatch
    have hb : isBlankByte b = false := hvisible b rfl
    rw [List.cons_append, lexFrom_token hb, hlexeme, ih.1, List.take_left, List.drop_left,
      List.length_cons]
    exact ⟨rfl, ih.2⟩

theorem scan_iff : Scan offset x ts unread ↔ ts = lexFrom offset x ∧ unread = [] := by
  constructor
  · exact Scan.eq_lexFrom
  · rintro ⟨rfl, rfl⟩
    exact scan_lexFrom offset x

end

/-! ### Bytes and tokens -/

/-- Tokens lie in an expression one after the other, each of them is the text between its offsets,
and what lies outside of all of them is blank. -/
structure Covers (expr : Text) (ts : List Token) : Prop where
  ne_nil : ∀ t ∈ ts, t.text ≠ []
  slice : ∀ t ∈ ts, t.stop ≤ expr.length ∧ t.text = (expr.drop t.start).take (t.stop - t.start)
  ordered : ts.Pairwise fun t u => t.stop ≤ u.start
  visible : ∀ t ∈ ts, ∀ b, t.text.head? = some b → b ∉ blankBytes
  gaps : ∀ i b, expr[i]? = some b → (∀ t ∈ ts, ¬ (t.start ≤ i ∧ i < t.stop)) → b ∈ blankBytes

section

variable {v : Text} {offset : Nat} {x unread : Text} {ts : List Token}

/-- Where a token lies, if `v` has been read before. -/
theorem Scan.exists_split (h : Scan offset x ts unread) (hv : v.length = offset) :
    ∀ t ∈ ts, ∃ before after, v ++ x = before ++ (t.text ++ after) ∧ before.length = t.start ∧
      t.text ≠ [] ∧ StartsVisibly t.text := by
  induction h generalizing v with
  | stop => simp
  | @blank offset b rest unread ts _ _ ih =>
    intro t ht
    have hrest := ih (v := v ++ [b]) (by rw [List.length_append, hv, List.length_singleton]) t ht
    rw [List.append_assoc] at hrest
    exact hrest
  | @token offset text rest unread kind ts hvisible hmatch _ ih =>
    intro t ht
    rcases List.mem_cons.mp ht with rfl | ht
    · obtain ⟨b, tail, rfl, -⟩ := exists_cons_of_firstMatch? hmatch
      refine ⟨v, rest, rfl, hv, List.cons_ne_nil _ _, ?_⟩
      rintro _ ⟨⟩
      exact hvisible b rfl
    · have hrest := ih (v := v ++ text) (by rw [List.length_append, hv]) t ht
      rw [List.append_assoc] at hrest
      exact hrest

theorem Scan.pairwise (h : Scan offset x ts unread) : ts.Pairwise fun t u => t.stop ≤ u.start := by
  induction h with
  | stop => exact .nil
  | blank _ _ ih => exact ih
  | token _ _ hrest ih =>
    refine .cons (fun u hu => ?_) ih
    rw [hrest.eq_lexFrom.1] at hu
    exact (bounds_of_mem_lexFrom hu).1

/-- What is read as no token is blank. -/
theorem Scan.isBlankByte (h : Scan offset x ts unread) (hv : v.length = offset) {i : Nat}
    (hi : offset ≤ i) {b : UInt8} (hb : (v ++ x)[i]? = some b)
    (hout : ∀ t ∈ ts, ¬ (t.start ≤ i ∧ i < t.stop)) : isBlankByte b = true := by
  induction h generalizing v with
  | @stop offset unread _ hnone =>
    -- nothing is left unread, so there is no such byte
    obtain rfl := firstMatch?_eq_none_iff.mp hnone
    rw [List.append_nil, List.getElem?_eq_none (by omega)] at hb
    cases hb
  | @blank offset c rest unread ts hc _ ih =>
    have hlength : (v ++ [c]).length = offset + 1 := by
      rw [List.length_append, hv, List.length_singleton]
    rcases Nat.eq_or_lt_of_le hi with rfl | hi
    · rw [← hv, List.getElem?_append_right (Nat.le_refl _), Nat.sub_self] at hb
      obtain rfl := Option.some.inj hb
      exact hc
    · refine ih hlength hi ?_ hout
      rw [List.append_assoc]
      exact hb
  | @token offset text rest unread kind ts _ _ _ ih =>
    rw [List.forall_mem_cons] at hout
    have hlength : (v ++ text).length = offset + text.length := by rw [List.length_append, hv]
    have hafter : offset + text.length ≤ i := Nat.le_of_not_lt fun hlt => hout.1 ⟨hi, hlt⟩
    refine ih hlength hafter ?_ hout.2
    rw [List.append_assoc]
    exact hb

end

theorem covers_lex (expr : Text) : Covers expr (lex expr) := by
  have hscan : Scan 0 expr (lex expr) [] := scan_lexFrom 0 expr
  have hsplit := hscan.exists_split (v := []) rfl
  constructor
  · intro t ht
    obtain ⟨before, after, -, -, hne, -⟩ := hsplit t ht
    exact hne
  · intro t ht
    obtain ⟨before, after, hexpr, hstart, -, -⟩ := hsplit t ht
    rw [List.nil_append] at hexpr
    have hlength : t.stop - t.start = t.text.length := Nat.add_sub_cancel_left _ _
    constructor
    · rw [hexpr, List.length_append, List.length_append, hstart, stop]
      omega
    · rw [hlength, hexpr, List.drop_left' hstart, List.take_left]
  · exact hscan.pairwise
  · intro t ht b hb
    obtain ⟨before, after, -, -, -, hvisible⟩ := hsplit t ht
    rw [← isBlankByte_iff, hvisible b hb]
    exact Bool.false_ne_true
  · intro i b hb hout
    rw [← isBlankByte_iff]
    exact hscan.isBlankByte (v := []) rfl (Nat.zero_le i) hb hout

end Token

/-! ### Main statement -/

/-- **Nothing of an expression is left out.**  Reading its tokens, with the matchers in their order,
ends at the end of the expression and not before.  Its tokens lie in it without overlapping, and
what lies between them is blank.  An expression that is accepted as a type is so with all of its
tokens. -/
theorem Token.lex_lossless (expr : Text) :
    (∀ ts unread, Scan 0 expr ts unread ↔ ts = lex expr ∧ unread = []) ∧
    Covers expr (lex expr) ∧
    ∀ names d, DocType.parse names expr = .ok d → Grammar.Derives names .type (lex expr) :=
  ⟨fun _ _ => scan_iff, covers_lex expr, fun _ _ h => Grammar.derives_of_parse h⟩

/-- A quote that is not closed and a number without its end, both inside of brackets. -/
theorem Token.lex_lossless_unfinished :
    DocType.parse none "\tlist<'x, 1e>" = .ok (.array "list<'x, 1e>") ∧
      Grammar.Derives none .type (Token.lex "\tlist<'x, 1e>") := by
  have hparse : DocType.parse none "\tlist<'x, 1e>" = .ok (.array "list<'x, 1e>") := by
    cbv
  exact ⟨hparse, (Token.lex_lossless _).2.2 none _ hparse⟩

end DocPromotion
