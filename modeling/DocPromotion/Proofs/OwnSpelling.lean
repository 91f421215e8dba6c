import DocPromotion.Proofs.FixedPoint
import DocPromotion.Proofs.SameTokens

/-!
A documentation type that has been read is read again from its own spelling.

The spelling of a type is its keyword, its class name, the name it was written with, or a part of
the expression (`Denotes.exists_core`).  The last case is the one with an argument in it.  The part
goes from the start of a token to the end of another, so its tokens are those that it had before
(`Token.exists_cut`), and they denote the same type, because every text that the type keeps lies
within the part (`Denotes.of_cut`).  It is the spelling as it stands if there are no blanks at its
ends (`Token.trim_cut`).  Tokens see to that for the blanks of ASCII only: an em space and a dash
make a name, of which nothing but the dash would be left, and that is no name.  So all other blanks
are excluded, and since a character is found wherever its bytes are (`Text.mem_chars_of_infix`),
none of them can appear by cutting either.
-/

namespace DocPromotion

namespace Text

/-! ### Characters of a part of a text -/

/-- All bytes of an encoding but the first are continuation bytes, and the first is not. -/
theorem isContinuation_of_utf8EncodeChar {c : Char} {b : UInt8} {tail : Text}
    (h : String.utf8EncodeChar c = b :: tail) :
    isContinuation b = false ∧ ∀ x ∈ tail, isContinuation x = true := by
  have hlead : ∀ n, n < 256 → (n < 128 ∨ 192 ≤ n) → isContinuation (UInt8.ofNat n) = false := by
    decide +kernel
  have hmax : c.val.toNat < 0x110000 := by
    rcases c.valid with h | ⟨-, h⟩ <;> simp only [UInt32.toNat] at * <;> omega
  have hcont : ∀ n, isContinuation (UInt8.ofNat (n % 64 + 128)) = true := fun n =>
    (payload_ofNat (Nat.mod_lt n (by decide))).1
  -- one goal for each width
  unfold String.utf8EncodeChar at h
  dsimp only at h
  repeat' split at h
  all_goals
    obtain ⟨rfl, rfl⟩ := List.cons.inj h
    refine ⟨hlead _ (by omega) (by omega), ?_⟩
    simp only [List.forall_mem_cons, hcont, List.not_mem_nil, false_implies, implies_true,
      and_true]

/-- What starts with a byte that does not occur in the first part lies in the second. -/
theorem infix_of_infix_append {b : UInt8} {l x y : Text} (h : b :: l <:+: x ++ y) (hb : b ∉ x) :
    b :: l <:+: y := by
  induction x with
  | nil => exact h
  | cons a x ih =>
    rw [List.mem_cons, not_or] at hb
    rcases List.infix_cons_iff.mp h with hstart | hpart
    · exact absurd (List.cons_prefix_cons.mp hstart).1 hb.1
    · exact ih hpart hb.2

/-- **A text has a character wherever it has the bytes of one**, since no encoding starts within
another. -/
theorem mem_chars_of_infix {c : Char} {t : Text} (h : String.utf8EncodeChar c <:+: t) :
    c ∈ chars t := by
  obtain ⟨lead, tail, henc, -⟩ := decodeHead_utf8EncodeChar c
  have hlead := (isContinuation_of_utf8EncodeChar henc).1
  -- a text that begins with the encoding has the character as its first
  have hfirst : ∀ {t : Text}, String.utf8EncodeChar c <+: t → ∃ ps,
      pieces t = ⟨String.utf8EncodeChar c, some c⟩ :: ps := by
    rintro _ ⟨rest, rfl⟩
    exact ⟨_, pieces_utf8EncodeChar_append c rest⟩
  fun_induction pieces t with
  | case1 =>
    rw [henc, List.infix_nil] at h
    cases h
  | case2 b rest c' n hdecode ih =>
    have hpieces : pieces (b :: rest) = ⟨b :: rest.take n, some c'⟩ :: pieces (rest.drop n) := by
      rw [pieces, hdecode]
    rw [chars, hpieces, List.map_cons]
    rcases List.infix_cons_iff.mp h with hstart | hpart
    · obtain ⟨ps, hps⟩ := hfirst hstart
      rw [hpieces] at hps
      obtain rfl := Option.some.inj (Piece.mk.inj (List.cons.inj hps).1).2
      exact List.mem_cons_self
    · refine List.mem_cons_of_mem _ (ih ?_)
      rw [henc] at hpart ⊢
      rw [← List.take_append_drop n rest] at hpart
      refine infix_of_infix_append hpart fun hmem => ?_
      -- the bytes after the first one of `c'` are continuation bytes
      have hcont := (isContinuation_of_utf8EncodeChar (utf8EncodeChar_of_decodeHead hdecode)).2
      rw [hcont lead hmem] at hlead
      cases hlead
  | case3 b rest hdecode ih =>
    have hpieces : pieces (b :: rest) = ⟨[b], none⟩ :: pieces rest := by
      rw [pieces, hdecode]
    rw [chars, hpieces, List.map_cons]
    rcases List.infix_cons_iff.mp h with hstart | hpart
    · obtain ⟨ps, hps⟩ := hfirst hstart
      rw [hpieces] at hps
      cases (Piece.mk.inj (List.cons.inj hps).1).2
    · exact List.mem_cons_of_mem _ (ih hpart)

/-- The replacement character is not blank, so a blank piece encodes its character. -/
theorem utf8EncodeChar_of_isBlank {t : Text} {p : Piece} (hp : p ∈ pieces t)
    (hblank : isBlank p.char = true) : String.utf8EncodeChar p.char = p.bytes := by
  cases hchar : p.char? with
  | none =>
    rw [Piece.char, hchar] at hblank
    exact absurd hblank (by decide)
  | some c =>
    rw [Piece.char, hchar, Option.getD_some]
    exact utf8EncodeChar_of_mem_pieces hp hchar

/-- The blank characters of a part are blank characters of the whole. -/
theorem mem_chars_of_isBlank {t w : Text} (hpart : w <:+: t) {p : Piece} (hp : p ∈ pieces w)
    (hblank : isBlank p.char = true) : p.char ∈ chars t := by
  apply mem_chars_of_infix
  rw [utf8EncodeChar_of_isBlank hp hblank]
  have hbytes : p.bytes <:+: (pieces w).flatMap Piece.bytes :=
    List.infix_of_mem_flatten (List.mem_map_of_mem hp)
  rw [flatten_pieces] at hbytes
  exact hbytes.trans hpart

/-! ### Texts without blanks at their ends -/

theorem trim_eq_self {t : Text} (hfirst : ∀ p, (pieces t).head? = some p → isBlank p.char = false)
    (hlast : ∀ p, (pieces t).getLast? = some p → isBlank p.char = false) : trim t = t := by
  have hdrop : ∀ ps : List Piece, (∀ p, ps.head? = some p → isBlank p.char = false) →
      ps.dropWhile (isBlank ·.char) = ps := by
    intro ps hps
    cases ps with
    | nil => rfl
    | cons p ps => rw [List.dropWhile_cons_of_neg (by simp [hps p rfl])]
  rw [trim, hdrop _ hfirst, hdrop, List.reverse_reverse, flatten_pieces]
  intro p hp
  rw [List.head?_reverse] at hp
  exact hlast p hp

/-- The blank characters of ASCII are those whose bytes separate tokens. -/
theorem isBlankByte_of_isBlank {c : Char} (hblank : isBlank c = true) (hascii : c.toNat < 128) :
    ∃ b, String.utf8EncodeChar c = [b] ∧ b < 128 ∧ Token.isBlankByte b = true := by
  have hall : ∀ n, n < 128 → inRanges n blankRanges = true →
      UInt8.ofNat n < 128 ∧ Token.isBlankByte (UInt8.ofNat n) = true := by
    decide +kernel
  refine ⟨UInt8.ofNat c.toNat, ?_, hall c.toNat hascii hblank⟩
  have hbyte : (UInt8.ofNat c.toNat).toNat = c.toNat :=
    UInt8.toNat_ofNat_of_lt' (show c.toNat < 256 by omega)
  exact utf8EncodeChar_one (by omega) hbyte.symm

theorem head?_eq_of_head?_pieces {t : Text} {p : Piece} {b : UInt8}
    (h : (pieces t).head? = some p) (hb : p.bytes = [b]) : t.head? = some b := by
  obtain ⟨ps, hps⟩ := List.head?_eq_some_iff.mp h
  rw [← flatten_pieces t, hps, List.flatMap_cons, hb]
  rfl

theorem getLast?_eq_of_getLast?_pieces {t : Text} {p : Piece} {b : UInt8}
    (h : (pieces t).getLast? = some p) (hb : p.bytes = [b]) : t.getLast? = some b := by
  obtain ⟨ps, hps⟩ := List.getLast?_eq_some_iff.mp h
  rw [← flatten_pieces t, hps, List.flatMap_append, List.flatMap_singleton, hb,
    List.getLast?_concat]

end Text

/-- The tokens of a text start with its first byte, unless that is blank. -/
theorem Token.isBlankByte_of_startOf {offset : Nat} {w : Text} {b : UInt8}
    (hne : lexFrom offset w ≠ []) (hstart : Grammar.startOf (lexFrom offset w) = offset)
    (hb : w.head? = some b) : isBlankByte b = false := by
  obtain ⟨rest, rfl⟩ := List.head?_eq_some_iff.mp hb
  cases hblank : isBlankByte b with
  | false => rfl
  | true =>
    rw [lexFrom_blank hblank] at hne hstart
    obtain ⟨t, ts, hts⟩ := List.exists_cons_of_ne_nil hne
    have hmem : t ∈ lexFrom (offset + 1) rest := by
      rw [hts]
      exact List.mem_cons_self
    have hbounds := (bounds_of_mem_lexFrom hmem).1
    rw [hts, Grammar.startOf_cons] at hstart
    omega

/-- What is cut out from the start of one token to the end of another has no blanks at its ends,
provided that the expression has the blanks of ASCII only. -/
theorem Token.trim_cut {expr v w y : Text}
    (hascii : ∀ c ∈ Text.chars expr, Text.isBlank c = true → c.toNat < 128)
    (hexpr : expr = v ++ w ++ y) (hne : lexFrom v.length w ≠ [])
    (hstart : Grammar.startOf (lexFrom v.length w) = v.length)
    (hstop : Grammar.stopOf (lexFrom v.length w) = v.length + w.length) : Text.trim w = w := by
  have hpart : w <:+: expr := ⟨v, y, hexpr.symm⟩
  -- a blank piece is a single byte that separates tokens
  have hbyte : ∀ p ∈ Text.pieces w, Text.isBlank p.char = true →
      ∃ b, p.bytes = [b] ∧ b < 128 ∧ isBlankByte b = true := by
    intro p hp hblank
    have hchar := hascii _ (Text.mem_chars_of_isBlank hpart hp hblank) hblank
    obtain ⟨b, hb, hlow, hsep⟩ := Text.isBlankByte_of_isBlank hblank hchar
    rw [Text.utf8EncodeChar_of_isBlank hp hblank] at hb
    exact ⟨b, hb, hlow, hsep⟩
  apply Text.trim_eq_self
  · intro p hp
    by_contra hblank
    obtain ⟨b, hb, -, hsep⟩ := hbyte p (List.mem_of_head? hp) (by simpa using hblank)
    have hfirst := isBlankByte_of_startOf hne hstart (Text.head?_eq_of_head?_pieces hp hb)
    rw [hsep] at hfirst
    cases hfirst
  · intro p hp
    by_contra hblank
    obtain ⟨b, hb, hlow, hsep⟩ := hbyte p (List.mem_of_getLast? hp) (by simpa using hblank)
    have hlast := getLast?_of_stopOf hstop (Text.getLast?_eq_of_getLast?_pieces hp hb) hlow
    rw [hsep] at hlast
    cases hlast

namespace Grammar

/-! ### Derivations over a part of an expression -/

/-- Tokens that lie within a part of an expression. -/
def Within (v w : Text) (ts : List Token) : Prop :=
  ∀ t ∈ ts, v.length ≤ t.start ∧ t.stop ≤ v.length + w.length

/-- Tokens of a part are spelled in the part as they are in the whole. -/
theorem spelled_cut {v w : Text} (y : Text) {ts : List Token} (hne : ts ≠ [])
    (h : Within v w ts) :
    spelled w (ts.map (Token.countedFrom v.length)) = spelled (v ++ w ++ y) ts := by
  obtain ⟨t, ts', rfl⟩ := List.exists_cons_of_ne_nil hne
  obtain ⟨u, hu⟩ := List.getLast?_isSome.mpr hne |> Option.isSome_iff_exists.mp
  have ht := h t List.mem_cons_self
  have hlast := h u (List.mem_of_getLast? hu)
  have hstop : stopOf (t :: ts') = u.stop := by rw [stopOf, hu]; rfl
  have hstop' : stopOf ((t :: ts').map (Token.countedFrom v.length)) = u.stop - v.length := by
    rw [stopOf, List.getLast?_map, hu]
    simp only [Option.map_some, Option.getD_some, Token.stop, Token.countedFrom] at hlast ⊢
    omega
  have hstart' : startOf ((t :: ts').map (Token.countedFrom v.length)) = t.start - v.length := rfl
  rw [spelled, spelled, hstop, hstop', hstart',
    startOf_cons, List.append_assoc, List.drop_append, List.drop_eq_nil_of_le ht.1,
    List.nil_append, List.drop_append]
  have hlength : u.stop - v.length - (t.start - v.length) = u.stop - t.start := by omega
  rw [hlength, List.take_append_of_le_length]
  rw [List.length_drop]
  omega

/-- **Tokens within a part of an expression denote in the part what they denote in the whole.** -/
theorem Denotes.of_cut {names : Option Resolver} {v w y : Text} {n : Category} {ts : List Token}
    {d : DocType} (h : Denotes names (v ++ w ++ y) n ts d) (hin : Within v w ts) :
    Denotes names w n (ts.map (Token.countedFrom v.length)) d := by
  induction h with
  | single _ ih => exact .single (ih hin)
  | @join as ts op d₁ d₂ _ hop _ ih₁ ih₂ =>
    rw [← spelled_cut y (by simp) hin, List.map_append, List.map_cons]
    refine .join (ih₁ fun t ht => hin t ?_) hop (ih₂ fun t ht => hin t ?_)
    · exact List.mem_append_left _ ht
    · exact List.mem_append_right _ (List.mem_cons_of_mem _ ht)
  | nullable hq _ ih =>
    rw [← spelled_cut y (by simp) hin, List.map_cons]
    exact .nullable hq (ih fun t ht => hin t (List.mem_cons_of_mem _ ht))
  | bare _ ih => exact .bare (ih hin)
  | array _ hss ho hc ih =>
    rw [← spelled_cut y (by simp) hin, List.map_append, List.map_append]
    refine .array (ih fun t ht => hin t ?_) (hss.congr (.countedFrom _ _)) ho hc
    exact List.mem_append_left _ (List.mem_append_left _ ht)
  | offset _ hss ho hinner hne hc ih =>
    rw [← spelled_cut y (by simp) hin, List.map_append, List.map_append, List.map_cons,
      List.map_append]
    refine .offset (ih fun t ht => hin t ?_) (hss.congr (.countedFrom _ _)) ho (hinner.congr (.countedFrom _ _)) ?_ hc
    · exact List.mem_append_left _ (List.mem_append_left _ ht)
    · exact fun hnil => hne (List.map_eq_nil_iff.mp hnil)
  | returning ht hp hcolon _ ih =>
    rw [← spelled_cut y (by simp) hin, List.map_cons, List.map_append, List.map_cons]
    refine .returning ht (hp.congr (.countedFrom _ _)) hcolon (ih fun t ht => hin t ?_)
    exact List.mem_cons_of_mem _ (List.mem_append_right _ (List.mem_cons_of_mem _ ht))
  | group ho _ hc ih =>
    rw [List.map_cons, List.map_append]
    refine .group ho (ih fun t ht => hin t ?_) hc
    exact List.mem_cons_of_mem _ (List.mem_append_left _ ht)
  | literal ht =>
    rw [← spelled_cut y (by simp) hin]
    exact .literal ht
  | name ht => exact .name ht
  | arguments ht ha =>
    rw [← spelled_cut y (by simp) hin, List.map_cons]
    exact .arguments ht (ha.congr (.countedFrom _ _))
  | shape ht hf =>
    rw [← spelled_cut y (by simp) hin, List.map_cons]
    exact .shape ht (hf.congr (.countedFrom _ _))
  | signature ht hp =>
    rw [← spelled_cut y (by simp) hin, List.map_cons]
    exact .signature ht (hp.congr (.countedFrom _ _))

/-! ### The part that a type is spelled as -/

/-- **A type is that of a bare name, or a form with the text of some of the tokens.**  The other
tokens are parentheses around these. -/
theorem Denotes.exists_core {names : Option Resolver} {expr : Text} {n : Category}
    {ts : List Token} {d : DocType} (h : Denotes names expr n ts d) :
    ∃ core, core <:+: ts ∧ Denotes names expr .type core d ∧
      ((∃ t, core = [t] ∧ IsName names t d) ∨
        ∃ form : DocType.Form, d = form.toDocType (spelled expr core)) := by
  induction h with
  | single _ ih => exact ih
  | bare _ ih => exact ih
  | @group o c ts d _ _ _ ih =>
    obtain ⟨core, hcore, hd, hcase⟩ := ih
    exact ⟨core, hcore.trans ⟨[o], [c], rfl⟩, hd, hcase⟩
  | @name t d ht => exact ⟨[t], List.infix_rfl, .single (.bare (.name ht)), .inl ⟨t, rfl, ht⟩⟩
  | join ha hop hts _ _ =>
    exact ⟨_, List.infix_rfl, .join ha hop hts, .inr ⟨.unrepresentable, rfl⟩⟩
  | nullable hq hts _ =>
    exact ⟨_, List.infix_rfl, .single (.nullable hq hts), .inr ⟨.unrepresentable, rfl⟩⟩
  | array hps hss ho hc _ =>
    exact ⟨_, List.infix_rfl, .single (.array hps hss ho hc), .inr ⟨.array, rfl⟩⟩
  | offset hps hss ho hin hne hc _ =>
    exact ⟨_, List.infix_rfl, .single (.offset hps hss ho hin hne hc),
      .inr ⟨.unrepresentable, rfl⟩⟩
  | returning ht hp hcolon has _ =>
    exact ⟨_, List.infix_rfl, .single (.returning ht hp hcolon has), .inr ⟨.unrepresentable, rfl⟩⟩
  | literal ht =>
    exact ⟨_, List.infix_rfl, .single (.bare (.literal ht)), .inr ⟨.unrepresentable, rfl⟩⟩
  | arguments ht ha =>
    exact ⟨_, List.infix_rfl, .single (.bare (.arguments ht ha)),
      .inr ⟨_, (toDocType_ofArguments _ _).symm⟩⟩
  | shape ht hf =>
    exact ⟨_, List.infix_rfl, .single (.bare (.shape ht hf)),
      .inr ⟨_, (toDocType_ofShape _ _).symm⟩⟩
  | signature ht hp =>
    exact ⟨_, List.infix_rfl, .single (.bare (.signature ht hp)), .inr ⟨.unrepresentable, rfl⟩⟩

end Grammar

/-! ### Reading the spelling -/

namespace DocType

/-- A form is spelled as the text it keeps. -/
theorem spelling_toDocType {s : Text} (hs : s ≠ []) (form : Form) :
    (form.toDocType s).spelling = s := by
  obtain ⟨b, rest, rfl⟩ := List.exists_cons_of_ne_nil hs
  cases form <;> rfl

/-- A bare name is spelled as it was written, unless it is spelled as something that is read as the
same type under every resolver. -/
theorem spelling_ofName? {names : Option Resolver} {name : Text} {d : DocType} (hne : name ≠ [])
    (h : ofName? names name = some d) :
    d.spelling = name ∨ (∃ fqn, d = .nominal fqn) ∨ (∃ kind, d = .scalar kind) ∨ d = .void := by
  have hform : ∀ form : Form, (form.toDocType name).spelling = name := spelling_toDocType hne
  unfold ofName? at h
  split at h
  next hkeyword =>
    obtain rfl := Option.some.inj h
    unfold ofKeyword? at hkeyword
    repeat' split at hkeyword
    all_goals cases hkeyword
    · exact .inr (.inr (.inl ⟨_, rfl⟩))
    · exact .inl (hform .array)
    · exact .inl (hform .iterable)
    · exact .inr (.inr (.inr rfl))
    · exact .inl (hform .unrepresentable)
  next =>
    split at h
    next =>
      obtain rfl := Option.some.inj h
      exact .inl (hform .unrepresentable)
    next =>
      unfold ofClassName? at h
      dsimp only at h
      repeat' split at h
      all_goals cases h
      · exact .inr (.inl ⟨_, rfl⟩)
      · exact .inr (.inl ⟨_, rfl⟩)
      · exact .inl (hform .unrepresentable)
      · exact .inl rfl
      · exact .inr (.inl ⟨_, rfl⟩)

/-- A name that stands somewhere in an expression is read again from its spelling. -/
theorem parse_spelling_of_isName {names : Option Resolver} {t : Token} {d : DocType}
    {offset : Nat} {expr : Text} (hmem : t ∈ Token.lexFrom offset expr)
    (ht : Grammar.IsName names t d) : parse names d.spelling = .ok d := by
  have hlex : Token.lex t.text = [⟨.name, t.text, 0⟩] := Token.lex_text_of_name hmem ht.1
  have hne : t.text ≠ [] := by
    intro hnil
    rw [hnil, Token.lex, Token.lexFrom] at hlex
    cases hlex
  rcases spelling_ofName? hne ht.2 with hd | ⟨fqn, rfl⟩ | ⟨kind, rfl⟩ | rfl
  · rw [hd]
    exact parse_of_lex_name hlex ht.2
  · have hfqn : isClassName fqn = true := isSound_of_ofName? ht.2
    obtain ⟨segments, hsegments, hid, rfl⟩ := exists_segments_of_isClassName hfqn
    exact parse_className names hsegments hid
  · have hkind : ∀ code, kind ≠ .other code := isSound_of_ofName? ht.2
    have hkeyword : (kind.label, DocType.scalar kind) ∈ declarableTypes := by
      cases kind with
      | other code => exact absurd rfl (hkind code)
      | _ => decide
    exact parse_keyword names hkeyword
  · exact parse_keyword names (e := ("void", .void)) (by decide)

/-- **A type that has been read is read again from its own spelling**, under the same resolver,
provided that all blank characters of the expression are in ASCII. -/
theorem parse_own_spelling {names : Option Resolver} {expr : Text} {t : DocType}
    (hascii : ∀ c ∈ Text.chars expr, Text.isBlank c = true → c.toNat < 128)
    (hparse : parse names expr = .ok t) : parse names t.spelling = .ok t := by
  obtain ⟨core, ⟨before, after, hlex⟩, hcore, hcase⟩ :=
    (Grammar.denotes_of_parse hparse).exists_core
  obtain ⟨v, w, y, hexpr, hw, hstart, hstop⟩ :=
    Token.exists_cut hlex.symm hcore.ne_nil hcore.derives.guarded
  subst hexpr
  have hne : w ≠ [] := by
    rintro rfl
    rw [Token.lexFrom] at hw
    exact hcore.ne_nil hw.symm
  rcases hcase with ⟨u, rfl, hu⟩ | ⟨form, hform⟩
  · -- a name, of which the type may not keep the text
    have hmem : u ∈ Token.lexFrom v.length w := by
      rw [hw]
      exact List.mem_cons_self
    exact parse_spelling_of_isName hmem hu
  · -- the text that the type keeps is what has been cut out
    have htrim : Text.trim w = w := by
      rw [← hw] at hstart hstop
      refine Token.trim_cut hascii rfl ?_ hstart hstop
      rw [hw]
      exact hcore.ne_nil
    have hspelled : Grammar.spelled (v ++ w ++ y) core = w := by
      rw [Grammar.spelled, hstart, hstop, Nat.add_sub_cancel_left, List.append_assoc,
        List.drop_left, List.take_left, htrim]
    rw [hspelled] at hform
    have hspelling : t.spelling = w := by
      rw [hform]
      exact spelling_toDocType hne form
    rw [hspelling]
    apply Grammar.parse_of_denotes
    rw [Token.lex_of_lexFrom hw]
    refine hcore.of_cut fun u hu => ?_
    rw [← hw] at hu
    exact Token.bounds_of_mem_lexFrom hu

/-- Parentheses and blanks around an array are not part of its spelling.  Its arguments are, with
bytes that belong to no character and with what would be the start of a number. -/
theorem parse_own_spelling_grouped :
    (∀ c ∈ Text.chars (Text.ofString " ((Array <é " ++ [0xFF] ++ Text.ofString "-1e>\n))"),
        Text.isBlank c = true → c.toNat < 128) ∧
      parse none (Text.ofString " ((Array <é " ++ [0xFF] ++ Text.ofString "-1e>\n))") =
        .ok (.array (Text.ofString "Array <é " ++ [0xFF] ++ Text.ofString "-1e>")) ∧
      parse none (Text.ofString "Array <é " ++ [0xFF] ++ Text.ofString "-1e>") =
        .ok (.array (Text.ofString "Array <é " ++ [0xFF] ++ Text.ofString "-1e>")) := by
  have hchars : Text.chars (Text.ofString " ((Array <é " ++ [0xFF] ++ Text.ofString "-1e>\n))") =
      " ((Array <é \uFFFD-1e>\n))".toList := by
    cbv
  have hall : (" ((Array <é \uFFFD-1e>\n))".toList.all fun c =>
      !Text.isBlank c || decide (c.toNat < 128)) = true := by
    decide +kernel
  have hascii : ∀ c ∈ Text.chars
      (Text.ofString " ((Array <é " ++ [0xFF] ++ Text.ofString "-1e>\n))"),
      Text.isBlank c = true → c.toNat < 128 := by
    rw [hchars]
    intro c hc hblank
    have hchar := List.all_eq_true.mp hall c hc
    simpa [hblank] using hchar
  have hparse : parse none (Text.ofString " ((Array <é " ++ [0xFF] ++ Text.ofString "-1e>\n))") =
      .ok (.array (Text.ofString "Array <é " ++ [0xFF] ++ Text.ofString "-1e>")) := by
    cbv
  exact ⟨hascii, hparse, parse_own_spelling hascii hparse⟩

end DocType

end DocPromotion
