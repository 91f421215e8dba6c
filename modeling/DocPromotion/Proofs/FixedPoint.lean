import DocPromotion.Proofs.DeclaredForm
import DocPromotion.Proofs.Idempotence

/-!
A declared type, read as a documentation type, is declared as itself.

The spelling of a declared type is a single name, which no resolver is asked about: a keyword is
recognised before anything else, and a class name starts with a backslash.  So it is read the same
way whatever is imported, and a tag with this spelling adds nothing to the declaration.

For class names, three views of the same text have to agree.  Tokens are cut by bytes, keywords are
compared by characters, and identifiers are checked segment by segment
(`isClassName_joinWith`, `Token.lex_className`, `DocType.ofName?_className`).
-/

namespace DocPromotion

/-! ### The bytes of class names -/

/-- Among the ASCII characters, identifiers hold letters, digits and underscores only. -/
theorem toNat_of_isIdentifierPart {x : Char}
    (h : x = '_' ∨ Text.isLetter x = true ∨ Text.isDigit x = true) (hx : x.toNat < 128) :
    x.toNat = 0x5F ∨ (0x30 ≤ x.toNat ∧ x.toNat ≤ 0x39) ∨ (0x41 ≤ x.toNat ∧ x.toNat ≤ 0x5A) ∨
      (0x61 ≤ x.toNat ∧ x.toNat ≤ 0x7A) := by
  have hall : ∀ n : Fin 128, (Text.inRanges n.val Text.letterRanges = true ∨
      Text.inRanges n.val Text.digitRanges = true) →
      (0x30 ≤ n.val ∧ n.val ≤ 0x39) ∨ (0x41 ≤ n.val ∧ n.val ≤ 0x5A) ∨
        (0x61 ≤ n.val ∧ n.val ≤ 0x7A) := by
    decide +kernel
  rcases h with rfl | h
  · exact .inl rfl
  · exact .inr (hall ⟨x.toNat, hx⟩ h)

/-- The bytes that occur in identifiers. -/
def IsIdentifierByte (b : UInt8) : Prop :=
  b.toNat = 0x5F ∨ (0x30 ≤ b.toNat ∧ b.toNat ≤ 0x39) ∨ (0x41 ≤ b.toNat ∧ b.toNat ≤ 0x5A) ∨
    (0x61 ≤ b.toNat ∧ b.toNat ≤ 0x7A) ∨ 128 ≤ b.toNat

theorem IsIdentifier.byte {t : Text} (h : IsIdentifier t) {b : UInt8} (hb : b ∈ t) :
    IsIdentifierByte b := by
  obtain ⟨c, cs, rfl, hc, hcs⟩ := h
  obtain ⟨x, hx, hb⟩ := List.mem_flatMap.mp hb
  have hpart : x = '_' ∨ Text.isLetter x = true ∨ Text.isDigit x = true := by
    rcases List.mem_cons.mp hx with rfl | hx
    · rcases hc with hc | hc
      · exact .inl hc
      · exact .inr (.inl hc)
    · exact hcs x hx
  unfold IsIdentifierByte
  rcases Text.toNat_of_mem_utf8EncodeChar hb with hascii | ⟨-, hhigh⟩
  · rw [hascii]
    by_cases hlow : x.toNat < 128
    · have hcases := toNat_of_isIdentifierPart hpart hlow
      omega
    · omega
  · omega

theorem IsIdentifierByte.ne_backslash {b : UInt8} (h : IsIdentifierByte b) :
    b ≠ Text.backslash := by
  rintro rfl
  revert h
  unfold IsIdentifierByte
  decide

theorem Text.mem_joinWith {sep : Text} {b : UInt8} {parts : List Text}
    (h : b ∈ joinWith sep parts) : b ∈ sep ∨ ∃ t ∈ parts, b ∈ t := by
  induction parts with
  | nil => cases h
  | cons t ts ih =>
    by_cases hts : ts = []
    · rw [hts] at h
      exact .inr ⟨t, List.mem_cons_self, h⟩
    · rw [joinWith_cons sep t hts, List.mem_append, List.mem_append] at h
      rcases h with (h | h) | h
      · exact .inr ⟨t, List.mem_cons_self, h⟩
      · exact .inl h
      · rcases ih h with h | ⟨t', ht', h⟩
        · exact .inl h
        · exact .inr ⟨t', List.mem_cons_of_mem _ ht', h⟩

/-! ### Class names are checked by segments -/

theorem IsIdentifier.isIdentifier {t : Text} (h : IsIdentifier t) :
    DocPromotion.isIdentifier t = true := by
  obtain ⟨c, cs, rfl, hc, hcs⟩ := h
  unfold DocPromotion.isIdentifier
  rw [Text.chars_ofChars]
  simp only [Bool.and_eq_true, Bool.or_eq_true, beq_iff_eq, List.all_eq_true]
  refine ⟨hc, fun x hx => ?_⟩
  rw [or_assoc]
  exact hcs x hx

/-- Splitting a text in two parts, of which the first does not hold the separator. -/
theorem Text.splitOn_append {b : UInt8} {t : Text} (h : b ∉ t) (rest : Text) :
    splitOn b (t ++ b :: rest) = t :: splitOn b rest := by
  induction t with
  | nil => rw [List.nil_append, splitOn, if_pos rfl]
  | cons c t ih =>
    rw [List.mem_cons, not_or] at h
    rw [List.cons_append, splitOn, if_neg (Ne.symm h.1), ih h.2]

theorem Text.splitOn_of_not_mem {b : UInt8} {t : Text} (h : b ∉ t) : splitOn b t = [t] := by
  induction t with
  | nil => rfl
  | cons c t ih =>
    rw [List.mem_cons, not_or] at h
    rw [splitOn, if_neg (Ne.symm h.1), ih h.2]

/-- The parts of a text are those it was made of. -/
theorem Text.splitOn_joinWith {b : UInt8} {parts : List Text} (hne : parts ≠ [])
    (h : ∀ t ∈ parts, b ∉ t) : splitOn b (joinWith [b] parts) = parts := by
  induction parts with
  | nil => exact absurd rfl hne
  | cons t ts ih =>
    by_cases hts : ts = []
    · rw [hts]
      exact splitOn_of_not_mem (h t List.mem_cons_self)
    · rw [joinWith_cons [b] t hts, List.append_assoc, List.singleton_append,
        splitOn_append (h t List.mem_cons_self),
        ih hts fun t' ht' => h t' (List.mem_cons_of_mem _ ht')]

section

variable {segments : List Text}

theorem isClassName_joinWith (hne : segments ≠ []) (h : ∀ s ∈ segments, IsIdentifier s) :
    isClassName (Text.joinWith [Text.backslash] segments) = true := by
  have hsep : ∀ s ∈ segments, Text.backslash ∉ s := by
    intro s hs hb
    exact ((h s hs).byte hb).ne_backslash rfl
  rw [isClassName, Text.splitOn_joinWith hne hsep, List.all_eq_true]
  exact fun s hs => (h s hs).isIdentifier

/-- The segments of a class name that has been checked. -/
theorem exists_segments_of_isClassName {name : Text} (h : isClassName name = true) :
    ∃ segments, segments ≠ [] ∧ (∀ s ∈ segments, IsIdentifier s) ∧
      name = Text.joinWith [Text.backslash] segments :=
  ⟨Text.splitOn Text.backslash name, Text.splitOn_ne_nil _ _,
    fun s hs => .of_isIdentifier (List.all_eq_true.mp h s hs), (Text.joinWith_splitOn _ _).symm⟩

theorem mem_className {b : UInt8} (h : ∀ s ∈ segments, IsIdentifier s)
    (hb : b ∈ Text.joinWith [Text.backslash] segments) :
    b = Text.backslash ∨ IsIdentifierByte b := by
  rcases Text.mem_joinWith hb with hb | ⟨s, hs, hb⟩
  · exact .inl (List.mem_singleton.mp hb)
  · exact .inr ((h s hs).byte hb)

/-! ### Class names are read as one token -/

theorem Token.lex_name {b : UInt8} {rest : Text} (hblank : isBlankByte b = false)
    (hstart : isNameStart b = true) (hrest : ∀ x ∈ rest, isNamePart x = true) :
    lex (b :: rest) = [⟨.name, b :: rest, 0⟩] := by
  have htake : rest.takeWhile isNamePart = rest := List.takeWhile_eq_self_iff.mpr hrest
  rw [lex, lexFrom, if_neg (by simp [hblank])]
  simp only [lexeme, hstart, if_true, htake, List.take_length, List.drop_length]
  rw [lexFrom]

theorem Token.isNamePart_of_isIdentifierByte {b : UInt8} (h : IsIdentifierByte b) :
    isNamePart b = true := by
  unfold IsIdentifierByte at h
  simp only [isNamePart, isWordByte, isDigitByte, Bool.or_eq_true, Bool.and_eq_true,
    decide_eq_true_eq, beq_iff_eq, UInt8.le_iff_toNat_le, ← UInt8.toNat_inj, UInt8.reduceToNat]
  omega

theorem Token.lex_className (h : ∀ s ∈ segments, IsIdentifier s) :
    lex (Text.backslash :: Text.joinWith [Text.backslash] segments) =
      [⟨.name, Text.backslash :: Text.joinWith [Text.backslash] segments, 0⟩] := by
  refine lex_name (by decide) (by decide) fun b hb => ?_
  rcases mem_className h hb with rfl | hb
  · decide
  · exact isNamePart_of_isIdentifierByte hb

/-! ### Class names are no keywords -/

theorem Text.lower_backslash_cons (rest : Text) :
    lower (backslash :: rest) = '\\' :: lower rest := by
  have hhead : decodeHead backslash rest = some ('\\', 0) := by
    unfold decodeHead
    rw [if_pos (by decide)]
    rfl
  have hchar : lowerChar '\\' = '\\' := by decide
  rw [lower, chars, pieces, hhead]
  simp [Piece.char, hchar, lower, chars]

/-- No keyword starts with a backslash. -/
theorem DocType.ofKeyword?_backslash (word : List Char) (spelling : Text) :
    ofKeyword? ('\\' :: word) spelling = none := by
  simp [ofKeyword?, scalarKeywords, arrayKeywords, pseudoKeywords]

/-- A class name with a leading backslash is not resolved. -/
theorem DocType.ofName?_className (names : Option Resolver) (hne : segments ≠ [])
    (h : ∀ s ∈ segments, IsIdentifier s) :
    ofName? names (Text.backslash :: Text.joinWith [Text.backslash] segments) =
      some (.nominal (Text.joinWith [Text.backslash] segments)) := by
  have hbytes : hasKeywordByte (Text.backslash :: Text.joinWith [Text.backslash] segments) =
      false := by
    rw [hasKeywordByte, List.any_eq_false]
    intro b hb
    rw [← List.singleton_append, List.mem_append, List.mem_singleton] at hb
    have hb : b = Text.backslash ∨ IsIdentifierByte b := by
      rcases hb with hb | hb
      · exact .inl hb
      · exact mem_className h hb
    rcases hb with rfl | hb
    · decide
    · unfold IsIdentifierByte at hb
      simp only [Bool.or_eq_true, beq_iff_eq, ← UInt8.toNat_inj, UInt8.reduceToNat]
      omega
  rw [ofName?, Text.lower_backslash_cons, ofKeyword?_backslash]
  simp only [hbytes, Bool.false_eq_true, if_false]
  unfold ofClassName?
  simp only [Text.cutBackslash?, if_true, isClassName_joinWith hne h]

end

/-! ### Reading a declared type -/

/-- A single name token is read as the type of the name. -/
theorem DocType.parse_of_lex_name {names : Option Resolver} {expr : Text} {d : DocType}
    (hlex : Token.lex expr = [⟨.name, expr, 0⟩]) (hname : ofName? names expr = some d) :
    parse names expr = .ok d := by
  apply Grammar.parse_of_denotes
  rw [hlex]
  exact .single (.bare (.name ⟨rfl, hname⟩))

theorem DocType.parse_className (names : Option Resolver) {segments : List Text}
    (hne : segments ≠ []) (h : ∀ s ∈ segments, IsIdentifier s) :
    parse names ([Text.backslash] ++ Text.joinWith [Text.backslash] segments) =
      .ok (.nominal (Text.joinWith [Text.backslash] segments)) :=
  parse_of_lex_name (Token.lex_className h) (ofName?_className names hne h)

/-- The types that the keywords of declared types are read as. -/
def declarableTypes : List (Text × DocType) := [
  ("array", .array "array"), ("iterable", .iterable "iterable"), ("bool", .scalar .bool),
  ("int", .scalar .int), ("float", .scalar .float), ("string", .scalar .string), ("void", .void)]

theorem DocType.parse_keyword (names : Option Resolver) {e : Text × DocType}
    (h : e ∈ declarableTypes) : parse names e.1 = .ok e.2 := by
  have hlex : ∀ e ∈ declarableTypes, Token.lex e.1 = [⟨.name, e.1, 0⟩] := by
    simp only [declarableTypes, List.forall_mem_cons]
    refine ⟨?_, ?_, ?_, ?_, ?_, ?_, ?_, fun e he => absurd he List.not_mem_nil⟩ <;> cbv
  have hname : ∀ e ∈ declarableTypes, ofKeyword? (Text.lower e.1) e.1 = some e.2 := by
    decide +kernel
  refine parse_of_lex_name (hlex e h) ?_
  rw [ofName?, hname e h]

/-- What a declared type is read as: something that is declared as the same type, and that the
declaration says all of. -/
def DeclaredType.IsFixed (names : Option Resolver) (site : Site) (type : DeclaredType) : Prop :=
  ∃ t, DocType.parse names type.spelling = .ok t ∧ t.declared? site = some type ∧
    Tag.covers type.spelling t = true

theorem DeclaredType.isFixed_nominal {name : Text} (h : isClassName name = true)
    (names : Option Resolver) (site : Site) : IsFixed names site (.nominal name) := by
  obtain ⟨segments, hne, hsegments, rfl⟩ := exists_segments_of_isClassName h
  exact ⟨.nominal _, DocType.parse_className names hne hsegments, rfl,
    by simp [Tag.covers, spelling]⟩

/-- One case for each kind of type; class names have been checked, and the keywords are known. -/
theorem DocType.IsSound.isFixed {t : DocType} (h : t.IsSound) {site : Site} {type : DeclaredType}
    (hd : t.declared? site = some type) (names : Option Resolver) : type.IsFixed names site := by
  cases t with
  | nominal name =>
    obtain rfl := Option.some.inj hd
    exact DeclaredType.isFixed_nominal h names site
  | aliased short fqn =>
    obtain rfl := Option.some.inj hd
    exact DeclaredType.isFixed_nominal h names site
  | array s =>
    obtain rfl := Option.some.inj hd
    exact ⟨_, parse_keyword names (e := ("array", .array "array")) (by decide), rfl, by decide⟩
  | iterable s =>
    obtain rfl := Option.some.inj hd
    exact ⟨_, parse_keyword names (e := ("iterable", .iterable "iterable")) (by decide), rfl,
      by decide⟩
  | scalar kind =>
    obtain rfl := Option.some.inj hd
    have hmem : (kind.label, DocType.scalar kind) ∈ declarableTypes := by
      cases kind with
      | other code => exact absurd rfl (h code)
      | _ => decide
    exact ⟨_, parse_keyword names hmem, rfl, by simp [Tag.covers, DeclaredType.spelling]⟩
  | void =>
    cases site with
    | result =>
      obtain rfl := Option.some.inj hd
      exact ⟨_, parse_keyword names (e := ("void", .void)) (by decide), rfl, by decide⟩
    | _ => cases hd
  | unrepresentable s => cases hd

theorem DeclaredType.IsFixed.isRedundant {names : Option Resolver} {site : Site}
    {type : DeclaredType} (h : type.IsFixed names site) {tag : Tag}
    (htype : tag.type = type.spelling) (hdescription : tag.description = []) :
    tag.isRedundant names type.spelling = true := by
  obtain ⟨t, hparse, hdeclared, hcovers⟩ := h
  have hne : type.spelling ≠ [] := DocType.spelling_declared?_ne_nil hdeclared
  rw [Tag.isRedundant, htype, hparse, hdescription]
  simpa [hne] using hcovers

/-- **A declared type is a fixed point, whatever is imported.**  A type that is declared for any
expression can be read again under every resolver and without one, and is declared as itself at the
same site.  A tag with the spelling of the type and without a description is redundant there.  In
particular, a backslash and a class name are read as that class. -/
theorem declared_fixed_point :
    (∀ (names names' : Option Resolver) (expr : Text) (site : Site) (t : DocType)
        (type : DeclaredType),
      DocType.parse names expr = .ok t → t.declared? site = some type →
        (∃ t', DocType.parse names' type.spelling = .ok t' ∧ t'.declared? site = some type) ∧
        ∀ tag : Tag, tag.type = type.spelling → tag.description = [] →
          tag.isRedundant names' type.spelling = true) ∧
    (∀ (names' : Option Resolver) (segments : List Text),
      segments ≠ [] → (∀ s ∈ segments, IsIdentifier s) →
        DocType.parse names' ([Text.backslash] ++ Text.joinWith [Text.backslash] segments) =
          .ok (.nominal (Text.joinWith [Text.backslash] segments))) := by
  constructor
  · intro names names' expr site t type hparse hdeclared
    have hfixed : type.IsFixed names' site :=
      (DocType.isSound_of_parse hparse).isFixed hdeclared names'
    refine ⟨?_, fun tag => hfixed.isRedundant⟩
    obtain ⟨t', hparse', hdeclared', -⟩ := hfixed
    exact ⟨t', hparse', hdeclared'⟩
  · intro names' segments hne hsegments
    exact DocType.parse_className names' hne hsegments

/-- The class is found by its full name, even where its first segment is the alias of another. -/
theorem declared_fixed_point_shadowed :
    DocType.parse (some (ImportTable.resolve ⟨[], [("A", "Äß\\B")]⟩)) "A" =
        .ok (.aliased "A" "Äß\\B") ∧
      ∃ t, DocType.parse (some (ImportTable.resolve ⟨"N", [("Äß", "C"), ("B", "int")]⟩)) "\\Äß\\B" =
          .ok t ∧
        t.declared? .param = some (.nominal "Äß\\B") := by
  have hlex : Token.lex "A" = [⟨.name, "A", 0⟩] := by cbv
  have hname : DocType.ofName? (some (ImportTable.resolve ⟨[], [("A", "Äß\\B")]⟩)) "A" =
      some (.aliased "A" "Äß\\B") := by decide +kernel
  have hparse := DocType.parse_of_lex_name hlex hname
  exact ⟨hparse, (declared_fixed_point.1 _ _ _ .param _ _ hparse rfl).1⟩

end DocPromotion
