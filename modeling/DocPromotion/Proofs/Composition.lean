import DocPromotion.Proofs.FirstFault
import DocPromotion.Proofs.SameTokens
import DocPromotion.Proofs.Trimming

/-!
Types compose.

An expression that is read as a type can be put into parentheses, and these can be followed by a
suffix or preceded by a question mark.

* The tokens of the expression stay what they are: what comes after a text has no influence on its
  tokens, if it starts with a byte that neither a name nor a number goes on with and has no quotes
  in it (`Token.lexFrom_append`).  A quote that is not closed may precede it, or a number that is
  not finished.
* They denote the same type within the parentheses (`Grammar.denotes_within`).

Two types are joined by their tokens (`Grammar.Denotes.append_join`).  Their texts could not be
joined, since an open quote in the first may be closed by one in the second.
-/

namespace DocPromotion

theorem DocType.eq_unrepresentable {d : DocType}
    (h : d.withoutSpelling = .unrepresentable []) : ∃ s, d = .unrepresentable s := by
  cases d with
  | unrepresentable s => exact ⟨s, rfl⟩
  | _ => cases h

namespace Token

/-! ### Tokens of a text with another one after it -/

/-- What follows a number has no influence on it, if it starts with a byte that no number holds. -/
theorem numberLength?_append {digit exponent point : Bool} {t : Text} {c : UInt8}
    (hc : isNumberByte c = false) (rest : Text) :
    numberLength? digit exponent point (t ++ c :: rest) =
      numberLength? digit exponent point t := by
  -- the byte ends the number
  have hstop : ∀ digit exponent point,
      numberLength? digit exponent point (c :: rest) = if digit then some 0 else none := by
    intro digit exponent point
    simp only [isNumberByte, Bool.or_eq_false_iff] at hc
    rw [numberLength?.eq_def]
    simp [hc]
  fun_induction numberLength? digit exponent point t with
  | case1 =>
    rw [List.nil_append, hstop, if_pos rfl]
  | case2 digit exponent point hdigit =>
    rw [List.nil_append, hstop, if_neg hdigit]
  | case3 digit exponent point b t hb ih =>
    rw [List.cons_append, numberLength?.eq_def]
    simp only [hb, if_true, ih]
  | case4 digit exponent point b t hb he hfail =>
    rw [List.cons_append, numberLength?.eq_def]
    simp only [hb, he, hfail, if_true, Bool.false_eq_true, if_false]
  | case5 digit exponent point b hb he hok =>
    -- an exponent needs a digit, and the byte is none, nor is it a sign
    have hsign : (c == 0x2B || c == 0x2D) = false := by
      simp only [isNumberByte, Bool.or_eq_false_iff] at hc
      simp [hc]
    rw [List.cons_append, List.nil_append, numberLength?.eq_def]
    simp only [hb, he, hok, hsign, hstop, if_true, Bool.false_eq_true, if_false, Option.map_none]
  | case6 digit exponent point b hb he hok sign t hsign ih =>
    rw [List.cons_append, numberLength?.eq_def]
    simp only [hb, he, hok, hsign, List.cons_append, if_true, Bool.false_eq_true, if_false, ih]
  | case7 digit exponent point b hb he hok sign t hsign ih =>
    rw [List.cons_append, numberLength?.eq_def]
    simp only [hb, he, hok, hsign, List.cons_append, if_true, Bool.false_eq_true, if_false]
    rw [← List.cons_append, ih]
  | case8 digit exponent point b t hb he hp hfail =>
    rw [List.cons_append, numberLength?.eq_def]
    simp only [hb, he, hp, hfail, if_true, Bool.false_eq_true, if_false]
  | case9 digit exponent point b t hb he hp hok ih =>
    rw [List.cons_append, numberLength?.eq_def]
    simp only [hb, he, hp, hok, if_true, Bool.false_eq_true, if_false, ih]
  | case10 exponent point b t hb he hp =>
    rw [List.cons_append, numberLength?.eq_def]
    simp only [hb, he, hp, if_true, Bool.false_eq_true, if_false]
  | case11 digit exponent point b t hb he hp hd =>
    rw [List.cons_append, numberLength?.eq_def]
    simp only [hb, he, hp, hd, Bool.false_eq_true, if_false]

/-- What follows a quoted text has no influence on it, if there are no quotes in it. -/
theorem quotedLength?_append {quote previous : UInt8} {t z : Text} (hz : quote ∉ z) :
    quotedLength? quote previous (t ++ z) = quotedLength? quote previous t := by
  -- a quote that is open at the end of the text stays open
  have hopen : ∀ previous, quotedLength? quote previous z = none := by
    intro previous
    induction z generalizing previous with
    | nil => rfl
    | cons b z ih =>
      rw [List.mem_cons, not_or] at hz
      rw [quotedLength?, if_neg (by simp [Ne.symm hz.1]), ih hz.2, Option.map_none]
  fun_induction quotedLength? quote previous t with
  | case1 previous => rw [List.nil_append, hopen]
  | case2 previous b t hb => rw [List.cons_append, quotedLength?, if_pos hb]
  | case3 previous b t hb ih => rw [List.cons_append, quotedLength?, if_neg hb, ih]

/-- Texts that go on with no token before them: they start with a byte that neither a name nor a
number goes on with, and close no quote. -/
structure Apart (z : Text) : Prop where
  head : ∀ c, z.head? = some c → isNamePart c = false ∧ isNumberByte c = false
  quotes : ∀ c ∈ z, (c == 0x27 || c == 0x22) = false

section

variable {z : Text}

theorem Apart.numberLength?_eq (hz : Apart z) (digit exponent point : Bool) (t : Text) :
    numberLength? digit exponent point (t ++ z) = numberLength? digit exponent point t := by
  cases z with
  | nil => rw [List.append_nil]
  | cons c z => exact numberLength?_append (hz.head c rfl).2 z

theorem Apart.takeWhile_eq (hz : Apart z) (t : Text) :
    (t ++ z).takeWhile isNamePart = t.takeWhile isNamePart := by
  have hnone : z.takeWhile isNamePart = [] := by
    cases z with
    | nil => rfl
    | cons c z => simp [(hz.head c rfl).1]
  rw [List.takeWhile_append, hnone, List.append_nil]
  split
  next hall => exact ((List.takeWhile_prefix _).eq_of_length hall).symm
  next => rfl

theorem Apart.lexeme_eq (hz : Apart z) (b : UInt8) (rest : Text) :
    lexeme b (rest ++ z) = lexeme b rest := by
  have hnumber : numberTail? b (rest ++ z) = numberTail? b rest := by
    simp only [numberTail?, hz.numberLength?_eq]
  have hquoted : quotedTail? b (rest ++ z) = quotedTail? b rest := by
    unfold quotedTail?
    split
    next hb =>
      refine quotedLength?_append fun hmem => ?_
      rw [hz.quotes b hmem] at hb
      cases hb
    next => rfl
  rw [lexeme, lexeme, hz.takeWhile_eq, hnumber, hquoted]

theorem lexFrom_nil (offset : Nat) : lexFrom offset [] = [] := by
  rw [lexFrom]

/-- **The tokens of two texts, one after the other, are those of the first and those of the
second.** -/
theorem lexFrom_append (hz : Apart z) (offset : Nat) (x : Text) :
    lexFrom offset (x ++ z) = lexFrom offset x ++ lexFrom (offset + x.length) z := by
  induction offset, x using lexFrom_induction with
  | nil offset =>
    rw [lexFrom_nil, List.nil_append, List.nil_append, List.length_nil, Nat.add_zero]
  | blank offset b rest hb ih =>
    rw [List.cons_append, lexFrom_blank hb, lexFrom_blank hb, ih, List.length_cons, Nat.add_assoc,
      Nat.add_comm 1]
  | token offset b rest hb ih =>
    have hle := lexeme_le b rest
    have hlength : offset + ((lexeme b rest).2 + 1) + (rest.drop (lexeme b rest).2).length =
        offset + (b :: rest).length := by
      rw [List.length_drop, List.length_cons]
      omega
    rw [List.cons_append, lexFrom_token hb, lexFrom_token hb, hz.lexeme_eq,
      List.take_append_of_le_length hle, List.drop_append_of_le_length hle, ih, hlength,
      List.cons_append]

end

theorem sameTokens_lexFrom (k : Nat) (x : Text) : SameTokens (lex x) (lexFrom k x) := by
  rw [lex_of_lexFrom rfl]
  exact (SameTokens.countedFrom k (lexFrom k x)).symm

/-- A token of a single byte, which no other token starts with. -/
theorem lexFrom_single {b : UInt8} {kind : TokenKind} (hb : isBlankByte b = false)
    (hkind : ∀ rest, lexeme b rest = (kind, 0)) (offset : Nat) (rest : Text) :
    lexFrom offset (b :: rest) = ⟨kind, [b], offset⟩ :: lexFrom (offset + 1) rest := by
  rw [lexFrom_token hb, hkind, List.take_zero, List.drop_zero]

theorem apart_closing {z : Text} (hz : ∀ c ∈ z, (c == 0x27 || c == 0x22) = false) :
    Apart (")" ++ z) where
  head := by
    rintro _ ⟨⟩
    exact ⟨rfl, rfl⟩
  quotes := List.forall_mem_cons.mpr ⟨rfl, hz⟩

/-- The tokens of a text in parentheses, of which the first has the given offset. -/
def parenthesized (offset : Nat) (e : Text) : List Token :=
  ⟨.opening .paren, "(", offset⟩ ::
    (lexFrom (offset + 1) e ++ [⟨.closing .paren, ")", offset + 1 + e.length⟩])

theorem lexFrom_parenthesized (offset : Nat) (e : Text) {z : Text}
    (hz : ∀ c ∈ z, (c == 0x27 || c == 0x22) = false) :
    lexFrom offset ("(" ++ e ++ ")" ++ z) =
      parenthesized offset e ++ lexFrom (offset + 1 + e.length + 1) z := by
  have hopen : lexFrom offset ("(" ++ (e ++ (")" ++ z))) =
      ⟨.opening .paren, "(", offset⟩ :: lexFrom (offset + 1) (e ++ (")" ++ z)) :=
    lexFrom_single rfl (fun _ => rfl) offset _
  have hclose : lexFrom (offset + 1 + e.length) (")" ++ z) =
      ⟨.closing .paren, ")", offset + 1 + e.length⟩ :: lexFrom (offset + 1 + e.length + 1) z :=
    lexFrom_single rfl (fun _ => rfl) _ z
  rw [List.append_assoc, List.append_assoc, hopen, lexFrom_append (apart_closing hz), hclose,
    parenthesized, List.cons_append, List.append_assoc, List.singleton_append]

theorem lexFrom_parens (offset : Nat) (e : Text) :
    lexFrom offset ("(" ++ e ++ ")") = parenthesized offset e := by
  have hparens := lexFrom_parenthesized offset e (z := []) (by simp)
  rw [List.append_nil, lexFrom_nil, List.append_nil] at hparens
  exact hparens

end Token

namespace Grammar

open DocType

variable {names : Option Resolver}

/-! ### Parentheses -/

/-- **An expression denotes the same type as a part of another one.** -/
theorem denotes_within {e : Text} {d : DocType} (h : parse names e = .ok d) (v y : Text) :
    Denotes names (v ++ e ++ y) .type (Token.lexFrom v.length e) d := by
  have hderives : Derives names .type (Token.lexFrom v.length e) :=
    (derives_of_parse h).congr (Token.sameTokens_lexFrom v.length e)
  obtain ⟨d', hd'⟩ : ∃ d', Denotes names (v ++ e ++ y) .type (Token.lexFrom v.length e) d' :=
    exists_denotes_iff.mpr hderives
  -- what the tokens denote in the whole, they denote in the part, where it has been read
  have hpart : Denotes names e .type (Token.lex e) d' := by
    rw [Token.lex_of_lexFrom rfl]
    exact hd'.of_cut fun t ht => Token.bounds_of_mem_lexFrom ht
  have hparse := parse_of_denotes hpart
  rw [h, Except.ok.injEq] at hparse
  rw [hparse]
  exact hd'

theorem denotes_parenthesized {e : Text} {d : DocType} (h : parse names e = .ok d) (v y : Text) :
    Denotes names (v ++ ("(" ++ e ++ ")" ++ y)) .primary (Token.parenthesized v.length e) d := by
  have hwithin := denotes_within h (v ++ "(") (")" ++ y)
  have hlength : (v ++ "(").length = v.length + 1 := List.length_append
  have hexpr : v ++ "(" ++ e ++ (")" ++ y) = v ++ ("(" ++ e ++ ")" ++ y) := by
    simp only [List.append_assoc]
  rw [hlength, hexpr] at hwithin
  exact .group rfl hwithin rfl

/-- Tokens from the start of an expression to its end are spelled as the expression, if it has no
blanks at its ends. -/
theorem spelled_eq_self {expr : Text} {ts : List Token} {a b : UInt8} (hstart : startOf ts = 0)
    (hstop : stopOf ts = expr.length) (ha : expr.head? = some a) (hb : expr.getLast? = some b)
    (hsolid : Text.IsSolid a) (hsolid' : Text.IsSolid b) : spelled expr ts = expr := by
  rw [spelled, hstart, hstop, List.drop_zero, Nat.sub_zero, List.take_length]
  exact Text.trim_eq_self_of_isSolid ha hb hsolid hsolid'

theorem parse_parens {e : Text} {d : DocType} (h : parse names e = .ok d) :
    parse names ("(" ++ e ++ ")") = .ok d := by
  have hgroup := denotes_parenthesized h [] []
  rw [List.nil_append, List.append_nil] at hgroup
  apply parse_of_denotes
  rw [Token.lex, Token.lexFrom_parens]
  exact .single (.bare hgroup)

/-- The tokens of an empty suffix. -/
theorem lexFrom_suffix (k : Nat) :
    ∃ o c : Token, Token.lexFrom k "[]" = [o, c] ∧ o.kind = .opening .square ∧
      c.kind = .closing .square ∧ c.stop = k + 2 := by
  have hopen : Token.lexFrom k "[]" = ⟨.opening .square, "[", k⟩ :: Token.lexFrom (k + 1) "]" :=
    Token.lexFrom_single rfl (fun _ => rfl) k _
  have hclose : Token.lexFrom (k + 1) "]" =
      ⟨.closing .square, "]", k + 1⟩ :: Token.lexFrom (k + 1 + 1) [] :=
    Token.lexFrom_single rfl (fun _ => rfl) (k + 1) _
  exact ⟨_, _, by rw [hopen, hclose, Token.lexFrom_nil], rfl, rfl, rfl⟩

theorem parse_parens_suffix {e : Text} {d : DocType} (h : parse names e = .ok d) :
    parse names ("(" ++ e ++ ")[]") = .ok (.array ("(" ++ e ++ ")[]")) := by
  have hexpr : "(" ++ e ++ ")[]" = "(" ++ e ++ ")" ++ "[]" := (List.append_assoc _ _ _).symm
  have hgroup : Denotes names ("(" ++ e ++ ")" ++ "[]") .primary (Token.parenthesized 0 e) d :=
    denotes_parenthesized h [] "[]"
  obtain ⟨o, c, hsuffix, ho, hc, hstop⟩ := lexFrom_suffix (0 + 1 + e.length + 1)
  have hlex : Token.lex ("(" ++ e ++ ")" ++ "[]") = Token.parenthesized 0 e ++ [] ++ [o, c] := by
    rw [Token.lex, Token.lexFrom_parenthesized 0 e (by decide +kernel), hsuffix, List.append_nil]
  have hspelled : spelled ("(" ++ e ++ ")" ++ "[]") (Token.parenthesized 0 e ++ [] ++ [o, c]) =
      "(" ++ e ++ ")" ++ "[]" := by
    apply spelled_eq_self (a := Text.byte '(') (b := Text.byte ']')
    · rfl
    · rw [stopOf_append_cons, stopOf_cons_cons, stopOf_singleton, hstop, List.length_append,
        List.length_append, List.length_append]
      show 0 + 1 + e.length + 1 + 2 = 1 + e.length + 1 + 2
      rw [Nat.zero_add]
    · rfl
    · exact List.getLast?_append_of_ne_nil _ (by decide)
    · decide
    · decide
  have harray := Denotes.array hgroup .nil ho hc
  rw [hspelled, ← hlex] at harray
  rw [hexpr]
  exact parse_of_denotes (.single harray)

theorem parse_nullable_parens {e : Text} {d : DocType} (h : parse names e = .ok d) :
    parse names ("?(" ++ e ++ ")") = .ok (.unrepresentable ("?(" ++ e ++ ")")) := by
  have hgroup : Denotes names ("?" ++ ("(" ++ e ++ ")")) .primary (Token.parenthesized 1 e) d := by
    have hgroup := denotes_parenthesized h "?" []
    rw [List.append_nil] at hgroup
    exact hgroup
  have hlex : Token.lex ("?" ++ ("(" ++ e ++ ")")) =
      ⟨.nullable, "?", 0⟩ :: Token.parenthesized 1 e := by
    rw [← Token.lexFrom_parens]
    exact Token.lexFrom_single rfl (fun _ => rfl) 0 _
  have hspelled : spelled ("?" ++ ("(" ++ e ++ ")")) (⟨.nullable, "?", 0⟩ ::
      Token.parenthesized 1 e) = "?" ++ ("(" ++ e ++ ")") := by
    apply spelled_eq_self (a := Text.byte '?') (b := Text.byte ')')
    · rfl
    · have hstop : stopOf (⟨.nullable, "?", 0⟩ :: Token.parenthesized 1 e) = 1 + 1 + e.length + 1 :=
        stopOf_append_cons (_ :: _ :: Token.lexFrom (1 + 1) e) _ []
      rw [hstop, List.length_append, List.length_append, List.length_append]
      show 1 + 1 + e.length + 1 = 1 + (1 + e.length + 1)
      omega
    · rfl
    · rw [← List.append_assoc]
      exact List.getLast?_append_of_ne_nil _ (by decide)
    · decide
    · decide
  have hnullable := Denotes.nullable (q := ⟨.nullable, "?", 0⟩) rfl (.bare hgroup)
  rw [hspelled, ← hlex] at hnullable
  exact parse_of_denotes (.single hnullable)

/-! ### Joining two types -/

/-- **Two types that are joined are a type**, whatever the first one ends with. -/
theorem Denotes.append_join {expr : Text} {n : Category} {ts us : List Token} {op : Token}
    {d₁ d₂ : DocType} (h : Denotes names expr n ts d₁) (hn : n = .type) (hop : IsJoin op)
    (hus : Denotes names expr .type us d₂) :
    Denotes names expr .type (ts ++ op :: us) (.unrepresentable (spelled expr (ts ++ op :: us))) := by
  induction h with
  | single ha _ => exact .join ha hop hus
  | join ha hop' _ _ ih =>
    -- the members of the second type follow those of the first
    rw [List.append_assoc, List.cons_append]
    exact .join ha hop' (ih rfl)
  | nullable => cases hn
  | bare => cases hn
  | array => cases hn
  | offset => cases hn
  | returning => cases hn
  | group => cases hn
  | literal => cases hn
  | name => cases hn
  | arguments => cases hn
  | shape => cases hn
  | signature => cases hn

/-- Tokens that are read as a type. -/
def Accepted (names : Option Resolver) (ts : List Token) : Prop :=
  ∃ stop r, State.initial.run names stop ts = .ok r

theorem accepted_of_parse {expr : Text} {d : DocType} (h : parse names expr = .ok d) :
    Accepted names (Token.lex expr) :=
  ⟨expr.length, exists_run_of_derives expr.length (derives_of_parse h)⟩

theorem Accepted.exists_denotes {ts : List Token} (h : Accepted names ts) (expr : Text) :
    ∃ d, Denotes names expr .type ts d := by
  obtain ⟨stop, r, hr⟩ := h
  exact exists_denotes_iff.mpr (derives_of_run hr)

/-- What is read from the tokens of a type does not depend on an expression. -/
theorem exists_reading {ts : List Token} {g : Text → DocType} (stop : Nat)
    (h : ∀ expr, Denotes names expr .type ts (g expr)) :
    ∃ r, State.initial.run names stop ts = .ok r ∧ ∀ expr, r.toDocType expr = g expr := by
  have hrun : ∀ expr, ∃ r, State.initial.run names stop ts = .ok r ∧ r.toDocType expr = g expr :=
    fun expr => run_of_denotes (h expr)
  obtain ⟨r, hr, -⟩ := hrun []
  refine ⟨r, hr, fun expr => ?_⟩
  obtain ⟨r', hr', hd⟩ := hrun expr
  rw [hr, Except.ok.injEq] at hr'
  rw [hr']
  exact hd

/-- **Types compose.**  Parentheses around an expression change nothing, a suffix after them makes
an array and a question mark before them a type that cannot be declared.  Two types can be joined
at the level of tokens, and what they are joined to cannot be declared either. -/
theorem types_compose (names : Option Resolver) :
    (∀ (e : Text) (d : DocType), parse names e = .ok d →
      parse names ("(" ++ e ++ ")") = .ok d ∧
      parse names ("(" ++ e ++ ")[]") = .ok (.array ("(" ++ e ++ ")[]")) ∧
      parse names ("?(" ++ e ++ ")") = .ok (.unrepresentable ("?(" ++ e ++ ")"))) ∧
    (∀ (s₁ s₂ : List Token) (op : Token), Accepted names s₁ → Accepted names s₂ → IsJoin op →
      (∀ stop, ∃ r, State.initial.run names stop (s₁ ++ op :: s₂) = .ok r ∧
        ∀ expr, r.toDocType expr = .unrepresentable (spelled expr (s₁ ++ op :: s₂))) ∧
      ∀ expr, SameTokens (s₁ ++ op :: s₂) (Token.lex expr) →
        ∃ s, parse names expr = .ok (.unrepresentable s) ∧
          ∀ site, (DocType.unrepresentable s).declared? site = none) := by
  refine ⟨fun e d h => ⟨parse_parens h, parse_parens_suffix h, parse_nullable_parens h⟩, ?_⟩
  intro s₁ s₂ op h₁ h₂ hop
  have hjoin : ∀ expr, Denotes names expr .type (s₁ ++ op :: s₂)
      (.unrepresentable (spelled expr (s₁ ++ op :: s₂))) := by
    intro expr
    obtain ⟨d₁, hd₁⟩ := h₁.exists_denotes expr
    obtain ⟨d₂, hd₂⟩ := h₂.exists_denotes expr
    exact hd₁.append_join rfl hop hd₂
  refine ⟨fun stop => exists_reading stop hjoin, fun expr hsame => ?_⟩
  obtain ⟨d, hd, halike⟩ : ∃ d, Denotes names expr .type (Token.lex expr) d ∧
      TypesAlike expr expr _ _ _ d := (hjoin expr).congr hsame
  obtain ⟨s, rfl⟩ := DocType.eq_unrepresentable halike.withoutSpelling.symm
  exact ⟨s, parse_of_denotes hd, fun _ => rfl⟩

/-- Neither the open quote nor the unfinished number takes the parenthesis in, and a union binds
less than a return type does. -/
theorem types_compose_open_quote :
    (parse none "array<'1e>" = .ok (.array "array<'1e>") ∧
      parse none ("(" ++ "array<'1e>" ++ ")") = .ok (.array "array<'1e>")) ∧
    (Accepted none (Token.lex "array(): int") ∧ Accepted none (Token.lex "int[]") ∧
      IsJoin ⟨.union, "|", 12⟩ ∧
      SameTokens (Token.lex "array(): int" ++ ⟨.union, "|", 12⟩ :: Token.lex "int[]")
        (Token.lex "array(): int|int[]") ∧
      ∃ s, parse none "array(): int|int[]" = .ok (.unrepresentable s) ∧
        ∀ site, (DocType.unrepresentable s).declared? site = none) := by
  have hparse : parse none "array<'1e>" = .ok (.array "array<'1e>") := by cbv
  have hreturning : parse none "array(): int" = .ok (.unrepresentable "array(): int") := by cbv
  have harray : parse none "int[]" = .ok (.array "int[]") := by cbv
  have h₁ := accepted_of_parse hreturning
  have h₂ := accepted_of_parse harray
  have hjoin : IsJoin ⟨.union, "|", 12⟩ := .inl rfl
  have hsame : SameTokens (Token.lex "array(): int" ++ ⟨.union, "|", 12⟩ :: Token.lex "int[]")
      (Token.lex "array(): int|int[]") := by
    unfold SameTokens
    cbv
  refine ⟨⟨hparse, ((types_compose none).1 _ _ hparse).1⟩, h₁, h₂, hjoin, hsame, ?_⟩
  exact ((types_compose none).2 _ _ _ h₁ h₂ hjoin).2 _ hsame

end Grammar

end DocPromotion
