import DocPromotion.Proofs.Grammar

/-!
Tokens of a part of an expression.

A part of an expression that is cut out from the start of one token to the end of another has the
tokens that it had as part of the whole, at other offsets (`exists_cut`, `lex_of_lexFrom`).  This is
not true of all parts: a number is tried from every dash and every digit, and `1e` is no number
because of its last byte, but its first byte alone is one.  So the tokens of a part have to be
guarded (`Guarded`): after each token of no special kind there is a closing bracket, and no number
goes beyond that.  The tokens of the grammar are guarded, since it has tokens of no special kind in
brackets only (`Grammar.Derives.guarded`).
-/

namespace DocPromotion

namespace Token

/-! ### Numbers -/

/-- The bytes that a number can hold. -/
def isNumberByte (b : UInt8) : Bool :=
  isDigitByte b || b == 0x65 || b == 0x45 || b == 0x2B || b == 0x2D || b == 0x2E

/-- What follows a byte that no number holds has no influence on a number. -/
theorem numberLength?_append_of_mem {digit exponent point : Bool} {t : Text}
    (h : ∃ b ∈ t, isNumberByte b = false) (rest : Text) :
    numberLength? digit exponent point (t ++ rest) = numberLength? digit exponent point t := by
  -- a byte of the number itself is not the one that ends it
  have htail : ∀ {b : UInt8} {u : Text}, isNumberByte b = true →
      (∃ c ∈ b :: u, isNumberByte c = false) → ∃ c ∈ u, isNumberByte c = false := by
    rintro b u hb ⟨c, hc, hstop⟩
    rcases List.mem_cons.mp hc with rfl | hc
    · rw [hb] at hstop
      cases hstop
    · exact ⟨c, hc, hstop⟩
  fun_induction numberLength? digit exponent point t with
  | case1 => simp at h
  | case2 => simp at h
  | case3 digit exponent point b t hb ih =>
    rw [List.cons_append, numberLength?.eq_def]
    simp only [hb, if_true, ih (htail (by simp [isNumberByte, hb]) h)]
  | case4 digit exponent point b t hb he hfail =>
    rw [List.cons_append, numberLength?.eq_def]
    simp only [hb, he, hfail, if_true, Bool.false_eq_true, if_false]
  | case5 digit exponent point b hb he =>
    have hnil := htail (by grind [isNumberByte]) h
    simp at hnil
  | case6 digit exponent point b hb he hok sign t hsign ih =>
    have hsign' := htail (by grind [isNumberByte]) h
    rw [List.cons_append, numberLength?.eq_def]
    simp only [hb, he, hok, hsign, List.cons_append, if_true, Bool.false_eq_true, if_false,
      ih (htail (by grind [isNumberByte]) hsign')]
  | case7 digit exponent point b hb he hok sign t hsign ih =>
    rw [List.cons_append, numberLength?.eq_def]
    simp only [hb, he, hok, hsign, List.cons_append, if_true, Bool.false_eq_true, if_false]
    rw [← List.cons_append, ih (htail (by grind [isNumberByte]) h)]
  | case8 digit exponent point b t hb he hp hfail =>
    rw [List.cons_append, numberLength?.eq_def]
    simp only [hb, he, hp, hfail, if_true, Bool.false_eq_true, if_false]
  | case9 digit exponent point b t hb he hp hok ih =>
    rw [List.cons_append, numberLength?.eq_def]
    simp only [hb, he, hp, hok, if_true, Bool.false_eq_true, if_false,
      ih (htail (by grind [isNumberByte]) h)]
  | case10 exponent point b t hb he hp =>
    rw [List.cons_append, numberLength?.eq_def]
    simp only [hb, he, hp, if_true, Bool.false_eq_true, if_false]
  | case11 digit exponent point b t hb he hp hd =>
    rw [List.cons_append, numberLength?.eq_def]
    simp only [hb, he, hp, hd, Bool.false_eq_true, if_false]

theorem numberLength?_pos {exponent point : Bool} {t : Text} {n : Nat}
    (h : numberLength? false exponent point t = some n) : 0 < n := by
  cases t with
  | nil => simp [numberLength?] at h
  | cons b t =>
    rw [numberLength?.eq_def] at h
    simp only [Bool.not_false, Bool.true_or, if_true, Bool.false_eq_true, if_false] at h
    split at h
    · obtain ⟨k, -, rfl⟩ := Option.map_eq_some_iff.mp h
      exact Nat.succ_pos k
    · simp at h

/-- A number is the same in every part of the text that it lies in, and its bytes are those of
numbers. -/
theorem numberLength?_take {digit exponent point : Bool} {t : Text} {n : Nat}
    (h : numberLength? digit exponent point t = some n) :
    n ≤ t.length ∧ (∀ b ∈ t.take n, isNumberByte b = true) ∧
      ∀ m, n ≤ m → numberLength? digit exponent point (t.take m) = some n := by
  fun_induction numberLength? digit exponent point t generalizing n with
  | case1 =>
    obtain rfl := Option.some.inj h
    simp [numberLength?]
  | case2 => cases h
  | case3 digit exponent point b t hb ih =>
    obtain ⟨k, hk, rfl⟩ := Option.map_eq_some_iff.mp h
    obtain ⟨hle, hbytes, htake⟩ := ih hk
    refine ⟨by simpa using hle, ?_, ?_⟩
    · simpa [isNumberByte, hb] using hbytes
    · rintro (_ | m) hm
      · omega
      · rw [List.take_succ_cons, numberLength?.eq_def]
        simp [hb, htake m (by omega)]
  | case4 => cases h
  | case5 => cases h
  | case6 digit exponent point b hb he hok sign t hsign ih =>
    obtain ⟨k, hk, rfl⟩ := Option.map_eq_some_iff.mp h
    obtain ⟨hle, hbytes, htake⟩ := ih hk
    refine ⟨by simpa using hle, ?_, ?_⟩
    · rw [List.take_succ_cons, List.take_succ_cons, List.forall_mem_cons, List.forall_mem_cons]
      exact ⟨by grind [isNumberByte], by grind [isNumberByte], hbytes⟩
    · rintro (_ | _ | m) hm
      · omega
      · omega
      · rw [List.take_succ_cons, List.take_succ_cons, numberLength?.eq_def]
        simp [hb, he, hok, hsign, htake m (by omega)]
  | case7 digit exponent point b hb he hok sign t hsign ih =>
    obtain ⟨k, hk, rfl⟩ := Option.map_eq_some_iff.mp h
    obtain ⟨hle, hbytes, htake⟩ := ih hk
    -- an exponent has a digit, so the part goes beyond its mark
    have hpos := numberLength?_pos hk
    refine ⟨by simpa using hle, ?_, ?_⟩
    · rw [List.take_succ_cons, List.forall_mem_cons]
      exact ⟨by grind [isNumberByte], hbytes⟩
    · rintro (_ | _ | m) hm
      · omega
      · omega
      · have htail := htake (m + 1) (by omega)
        rw [List.take_succ_cons] at htail
        rw [List.take_succ_cons, List.take_succ_cons, numberLength?.eq_def]
        simp [hb, he, hok, hsign, htail]
  | case8 => cases h
  | case9 digit exponent point b t hb he hp hok ih =>
    obtain ⟨k, hk, rfl⟩ := Option.map_eq_some_iff.mp h
    obtain ⟨hle, hbytes, htake⟩ := ih hk
    refine ⟨by simpa using hle, ?_, ?_⟩
    · rw [List.take_succ_cons, List.forall_mem_cons]
      exact ⟨by grind [isNumberByte], hbytes⟩
    · rintro (_ | m) hm
      · omega
      · rw [List.take_succ_cons, numberLength?.eq_def]
        simp [hb, he, hp, hok, htake m (by omega)]
  | case10 exponent point b t hb he hp =>
    obtain rfl := Option.some.inj h
    refine ⟨Nat.zero_le _, by simp, ?_⟩
    rintro (_ | m) -
    · simp [numberLength?]
    · rw [List.take_succ_cons, numberLength?.eq_def]
      simp [hb, he, hp]
  | case11 => cases h

theorem numberTail?_eq_some {b : UInt8} {rest : Text} {n : Nat}
    (h : numberTail? b rest = some n) :
    n ≤ rest.length ∧ (∀ c ∈ b :: rest.take n, isNumberByte c = true) ∧
      ∀ m, n ≤ m → numberTail? b (rest.take m) = some n := by
  unfold numberTail? at h ⊢
  split at h
  next hb =>
    obtain ⟨hle, hbytes, htake⟩ := numberLength?_take h
    refine ⟨hle, List.forall_mem_cons.mpr ⟨by grind [isNumberByte], hbytes⟩, ?_⟩
    intro m hm
    rw [if_pos hb]
    exact htake m hm
  next hb =>
    split at h
    next hdigit =>
      obtain ⟨hle, hbytes, htake⟩ := numberLength?_take h
      refine ⟨hle, List.forall_mem_cons.mpr ⟨by simp [isNumberByte, hdigit], hbytes⟩, ?_⟩
      intro m hm
      rw [if_neg hb, if_pos hdigit]
      exact htake m hm
    next => cases h

/-- Where no number starts, none starts in a part of the text, provided that the part goes on to a
byte that no number holds. -/
theorem numberTail?_take_eq_none {b : UInt8} {rest : Text} (h : numberTail? b rest = none)
    {m : Nat}
    (hstop : b = 0x2D ∨ isDigitByte b = true → ∃ c ∈ rest.take m, isNumberByte c = false) :
    numberTail? b (rest.take m) = none := by
  have hsame : ∀ digit, (b = 0x2D ∨ isDigitByte b = true) →
      numberLength? digit false false (rest.take m) = numberLength? digit false false rest := by
    intro digit hb
    rw [← numberLength?_append_of_mem (hstop hb) (rest.drop m), List.take_append_drop]
  unfold numberTail? at h ⊢
  split
  next hb =>
    rw [if_pos hb] at h
    rw [hsame false (.inl (beq_iff_eq.mp hb)), h]
  next hb =>
    rw [if_neg hb] at h
    split
    next hdigit =>
      rw [if_pos hdigit] at h
      rw [hsame true (.inr hdigit), h]
    next => rfl

/-! ### Quoted texts -/

/-- A quoted text is the same in every part of the text that it lies in, and ends with a quote. -/
theorem quotedLength?_take {quote previous : UInt8} {t : Text} {n : Nat}
    (h : quotedLength? quote previous t = some n) :
    n ≤ t.length ∧ (t.take n).getLast? = some quote ∧
      ∀ m, n ≤ m → quotedLength? quote previous (t.take m) = some n := by
  fun_induction quotedLength? quote previous t generalizing n with
  | case1 => cases h
  | case2 previous b t hb =>
    obtain rfl := Option.some.inj h
    refine ⟨by simp, ?_, ?_⟩
    · have hquote : b = quote := by simpa using (Bool.and_eq_true_iff.mp hb).1
      simp [hquote]
    · rintro (_ | m) hm
      · omega
      · rw [List.take_succ_cons, quotedLength?, if_pos hb]
  | case3 previous b t hb ih =>
    obtain ⟨k, hk, rfl⟩ := Option.map_eq_some_iff.mp h
    obtain ⟨hle, hlast, htake⟩ := ih hk
    refine ⟨by simpa using hle, ?_, ?_⟩
    · rw [List.take_succ_cons, List.getLast?_cons, hlast]
      rfl
    · rintro (_ | m) hm
      · omega
      · rw [List.take_succ_cons, quotedLength?, if_neg hb, htake m (by omega)]
        rfl

/-- A quote that is not closed in a text is not closed in a part of it. -/
theorem quotedLength?_take_eq_none {quote previous : UInt8} {t : Text}
    (h : quotedLength? quote previous t = none) (m : Nat) :
    quotedLength? quote previous (t.take m) = none := by
  fun_induction quotedLength? quote previous t generalizing m with
  | case1 => rw [List.take_nil, quotedLength?]
  | case2 => cases h
  | case3 previous b t hb ih =>
    cases m with
    | zero => rw [List.take_zero, quotedLength?]
    | succ m =>
      rw [List.take_succ_cons, quotedLength?, if_neg hb, ih (Option.map_eq_none_iff.mp h) m]
      rfl

theorem quotedTail?_eq_some {b : UInt8} {rest : Text} {n : Nat} (h : quotedTail? b rest = some n) :
    (b = 0x27 ∨ b = 0x22) ∧ n ≤ rest.length ∧ (b :: rest.take n).getLast? = some b ∧
      ∀ m, n ≤ m → quotedTail? b (rest.take m) = some n := by
  unfold quotedTail? at h ⊢
  split at h
  next hb =>
    obtain ⟨hle, hlast, htake⟩ := quotedLength?_take h
    refine ⟨by simpa using hb, hle, ?_, ?_⟩
    · rw [List.getLast?_cons, hlast]
      rfl
    · intro m hm
      rw [if_pos hb]
      exact htake m hm
  next => cases h

theorem quotedTail?_take_eq_none {b : UInt8} {rest : Text} (h : quotedTail? b rest = none)
    (m : Nat) : quotedTail? b (rest.take m) = none := by
  unfold quotedTail? at h ⊢
  split
  next hb =>
    rw [if_pos hb] at h
    exact quotedLength?_take_eq_none h m
  next => rfl

/-! ### Single tokens -/

/-- The ways in which a token can start. -/
theorem lexeme_cases (b : UInt8) (rest : Text) :
    (isNameStart b = true ∧ lexeme b rest = (.name, (rest.takeWhile isNamePart).length)) ∨
    (isNameStart b = false ∧ ∃ n, numberTail? b rest = some n ∧ lexeme b rest = (.number, n)) ∨
    (isNameStart b = false ∧ numberTail? b rest = none ∧
      ∃ n, quotedTail? b rest = some n ∧ lexeme b rest = (.quoted, n)) ∨
    (isNameStart b = false ∧ numberTail? b rest = none ∧ quotedTail? b rest = none ∧
      lexeme b rest = (singleKind b, 0)) := by
  unfold lexeme
  cases hname : isNameStart b with
  | true => exact .inl ⟨rfl, rfl⟩
  | false =>
    refine .inr ?_
    cases hnumber : numberTail? b rest with
    | some n => exact .inl ⟨rfl, n, rfl, rfl⟩
    | none =>
      refine .inr ?_
      cases hquoted : quotedTail? b rest with
      | some n => exact .inl ⟨rfl, rfl, n, rfl, rfl⟩
      | none => exact .inr ⟨rfl, rfl, rfl, rfl⟩

/-- What holds of the 256 bytes by inspection. -/
theorem forall_byte {P : UInt8 → Prop} (h : ∀ n : Fin 256, P (UInt8.ofNat n.val)) (b : UInt8) :
    P b := by
  have hb := h ⟨b.toNat, b.toNat_lt⟩
  rw [UInt8.ofNat_toNat] at hb
  exact hb

theorem singleKind_of_number {b : UInt8} (h : b = 0x2D ∨ isDigitByte b = true) :
    singleKind b = .other := by
  revert h
  exact forall_byte (P := fun b => (b = 0x2D ∨ isDigitByte b = true) → singleKind b = .other)
    (by decide +kernel) b

theorem isNumberByte_of_closing {b : UInt8} {bracket : Bracket}
    (h : singleKind b = .closing bracket) : isNumberByte b = false := by
  have hother : isNumberByte b = true → singleKind b = .other :=
    forall_byte (P := fun b => isNumberByte b = true → singleKind b = .other) (by decide +kernel) b
  cases hb : isNumberByte b with
  | false => rfl
  | true =>
    rw [hother hb] at h
    cases h

/-- A token is the same in every part of the text that it lies in.  If it is of no special kind,
the part has to go on to a byte that no number holds. -/
theorem lexeme_take {b : UInt8} {rest : Text} {m : Nat} (hm : (lexeme b rest).2 ≤ m)
    (hstop : (lexeme b rest).1 = .other → ∃ c ∈ rest.take m, isNumberByte c = false) :
    lexeme b (rest.take m) = lexeme b rest := by
  rcases lexeme_cases b rest with ⟨hname, h⟩ | ⟨hname, n, hn, h⟩ | ⟨hname, hnumber, n, hn, h⟩ |
    ⟨hname, hnumber, hquoted, h⟩
  · rw [h] at hm ⊢
    rw [lexeme, if_pos hname, ← List.take_takeWhile, List.take_of_length_le hm]
  · rw [h] at hm ⊢
    simp [lexeme, hname, (numberTail?_eq_some hn).2.2 m hm]
  · rw [h] at hm ⊢
    obtain ⟨hb, -, -, htake⟩ := quotedTail?_eq_some hn
    -- a quote does not start a number, whatever follows it
    have hnone : numberTail? b (rest.take m) = none := by
      rcases hb with rfl | rfl <;> rfl
    simp [lexeme, hname, hnone, htake m hm]
  · rw [h] at hstop ⊢
    have hnone := numberTail?_take_eq_none (m := m) hnumber fun hb =>
      hstop (singleKind_of_number hb)
    simp [lexeme, hname, hnone, quotedTail?_take_eq_none hquoted m]

/-- Only a token of a single byte is a closing bracket. -/
theorem lexeme_of_closing {b : UInt8} {rest : Text} {bracket : Bracket}
    (h : (lexeme b rest).1 = .closing bracket) :
    lexeme b rest = (.closing bracket, 0) ∧ singleKind b = .closing bracket := by
  rcases lexeme_cases b rest with ⟨-, hl⟩ | ⟨-, _, -, hl⟩ | ⟨-, -, _, -, hl⟩ | ⟨-, -, -, hl⟩
  · rw [hl] at h
    cases h
  · rw [hl] at h
    cases h
  · rw [hl] at h
    cases h
  · rw [hl] at h
    have hkind : singleKind b = .closing bracket := h
    rw [hl, hkind]
    exact ⟨rfl, rfl⟩

theorem lexeme_le (b : UInt8) (rest : Text) : (lexeme b rest).2 ≤ rest.length := by
  rcases lexeme_cases b rest with ⟨-, h⟩ | ⟨-, n, hn, h⟩ | ⟨-, -, n, hn, h⟩ | ⟨-, -, -, h⟩
  · rw [h]
    exact (List.takeWhile_prefix _).length_le
  · rw [h]
    exact (numberTail?_eq_some hn).1
  · rw [h]
    exact (quotedTail?_eq_some hn).2.1
  · rw [h]
    exact Nat.zero_le _

/-! ### Sequences of tokens -/

theorem lexFrom_blank {b : UInt8} (hb : isBlankByte b = true) (offset : Nat) (rest : Text) :
    lexFrom offset (b :: rest) = lexFrom (offset + 1) rest := by
  rw [lexFrom, if_pos hb]

theorem lexFrom_token {b : UInt8} (hb : isBlankByte b = false) (offset : Nat) (rest : Text) :
    lexFrom offset (b :: rest) =
      ⟨(lexeme b rest).1, b :: rest.take (lexeme b rest).2, offset⟩ ::
        lexFrom (offset + ((lexeme b rest).2 + 1)) (rest.drop (lexeme b rest).2) := by
  have hlength : (b :: rest.take (lexeme b rest).2).length = (lexeme b rest).2 + 1 := by
    simp [lexeme_le]
  rw [lexFrom, if_neg (by simp [hb]), ← hlength]

/-- Induction along the tokens of a text. -/
theorem lexFrom_induction {motive : Nat → Text → Prop} (nil : ∀ offset, motive offset [])
    (blank : ∀ offset b rest, isBlankByte b = true → motive (offset + 1) rest →
      motive offset (b :: rest))
    (token : ∀ offset b rest, isBlankByte b = false →
      motive (offset + ((lexeme b rest).2 + 1)) (rest.drop (lexeme b rest).2) →
      motive offset (b :: rest))
    (offset : Nat) (x : Text) : motive offset x := by
  fun_induction lexFrom offset x with
  | case1 offset => exact nil offset
  | case2 offset b rest hb ih => exact blank offset b rest hb ih
  | case3 offset b rest hb kind n hn text ih =>
    have hle := lexeme_le b rest
    rw [hn] at hle
    have hlength : text.length = n + 1 := by simp [text, hle]
    refine token offset b rest (by simpa using hb) ?_
    rw [hn, ← hlength]
    exact ih

/-- Tokens lie within the text. -/
theorem bounds_of_mem_lexFrom {t : Token} {offset : Nat} {x : Text} (h : t ∈ lexFrom offset x) :
    offset ≤ t.start ∧ t.stop ≤ offset + x.length := by
  induction offset, x using lexFrom_induction with
  | nil offset =>
    rw [lexFrom] at h
    cases h
  | blank offset b rest hb ih =>
    rw [lexFrom_blank hb] at h
    have hrest := ih h
    rw [List.length_cons]
    omega
  | token offset b rest hb ih =>
    have hle := lexeme_le b rest
    rw [lexFrom_token hb] at h
    rw [List.length_cons]
    rcases List.mem_cons.mp h with rfl | h
    · simp only [stop, List.length_cons, List.length_take]
      omega
    · have hrest := ih h
      rw [List.length_drop] at hrest
      omega

/-- A closing bracket is a byte that no number holds. -/
theorem exists_mem_of_closing {t : Token} {offset : Nat} {x : Text} {bracket : Bracket}
    (h : t ∈ lexFrom offset x) (ht : t.kind = .closing bracket) :
    ∃ c ∈ x, isNumberByte c = false := by
  induction offset, x using lexFrom_induction with
  | nil offset =>
    rw [lexFrom] at h
    cases h
  | blank offset b rest hb ih =>
    rw [lexFrom_blank hb] at h
    obtain ⟨c, hc, hstop⟩ := ih h
    exact ⟨c, List.mem_cons_of_mem _ hc, hstop⟩
  | token offset b rest hb ih =>
    rw [lexFrom_token hb] at h
    rcases List.mem_cons.mp h with rfl | h
    · exact ⟨b, List.mem_cons_self, isNumberByte_of_closing (lexeme_of_closing ht).2⟩
    · obtain ⟨c, hc, hstop⟩ := ih h
      exact ⟨c, List.mem_cons_of_mem _ (List.mem_of_mem_drop hc), hstop⟩

/-- After each token of no special kind there is a closing bracket. -/
def Guarded : List Token → Prop
  | [] => True
  | t :: ts => (t.kind = .other → ∃ u ∈ ts, ∃ b, u.kind = .closing b) ∧ Guarded ts

theorem guarded_cons {t : Token} {ts : List Token} (ht : t.kind ≠ .other) (h : Guarded ts) :
    Guarded (t :: ts) := ⟨fun hother => absurd hother ht, h⟩

theorem Guarded.append {ts us : List Token} (hts : Guarded ts) (hus : Guarded us) :
    Guarded (ts ++ us) := by
  induction ts with
  | nil => exact hus
  | cons t ts ih =>
    refine ⟨fun ht => ?_, ih hts.2⟩
    obtain ⟨u, hu, hclosing⟩ := hts.1 ht
    exact ⟨u, List.mem_append_left us hu, hclosing⟩

/-- All tokens before a closing bracket are guarded by it. -/
theorem guarded_closing {c : Token} {b : Bracket} (hc : c.kind = .closing b) (ts : List Token) :
    Guarded (ts ++ [c]) := by
  induction ts with
  | nil => exact guarded_cons (by simp [hc]) trivial
  | cons t ts ih => exact ⟨fun _ => ⟨c, by simp, b, hc⟩, ih⟩

/-- The text up to the last of some guarded tokens has these tokens. -/
theorem lexFrom_upTo {offset : Nat} {x : Text} {ts us : List Token}
    (h : lexFrom offset x = ts ++ us) (hne : ts ≠ []) (hguard : Guarded ts) :
    ∃ w y, x = w ++ y ∧ lexFrom offset w = ts ∧ Grammar.stopOf ts = offset + w.length := by
  induction offset, x using lexFrom_induction generalizing ts with
  | nil offset =>
    rw [lexFrom] at h
    exact absurd (List.append_eq_nil_iff.mp h.symm).1 hne
  | blank offset b rest hb ih =>
    rw [lexFrom_blank hb] at h
    obtain ⟨w, y, rfl, hw, hstop⟩ := ih h hne hguard
    refine ⟨b :: w, y, rfl, ?_, ?_⟩
    · rw [lexFrom_blank hb, hw]
    · rw [hstop, List.length_cons]
      omega
  | token offset b rest hb ih =>
    rw [lexFrom_token hb] at h
    obtain ⟨t, ts, rfl⟩ := List.exists_cons_of_ne_nil hne
    obtain ⟨rfl, hrest⟩ := List.cons.inj h
    have hle := lexeme_le b rest
    generalize hn : lexeme b rest = found at *
    obtain ⟨kind, n⟩ := found
    dsimp only at *
    have hlength : (rest.take n).length = n := by simp [hle]
    -- the tokens after this one end with `w`
    have htail : ∃ w y, rest.drop n = w ++ y ∧ lexFrom (offset + (n + 1)) w = ts ∧
        Grammar.stopOf (⟨kind, b :: rest.take n, offset⟩ :: ts) = offset + (n + 1) + w.length := by
      by_cases hts : ts = []
      · refine ⟨[], rest.drop n, rfl, by rw [lexFrom, hts], ?_⟩
        simp [hts, Grammar.stopOf, stop, hle]
      · obtain ⟨w, y, hdrop, hw, hstop⟩ := ih hrest hts hguard.2
        refine ⟨w, y, hdrop, hw, ?_⟩
        rw [← hstop]
        obtain ⟨u, us', rfl⟩ := List.exists_cons_of_ne_nil hts
        simp [Grammar.stopOf]
    obtain ⟨w, y, hdrop, hw, hstop⟩ := htail
    have hsplit : rest = rest.take n ++ w ++ y := by
      rw [List.append_assoc, ← hdrop, List.take_append_drop]
    have htake : rest.take (n + w.length) = rest.take n ++ w := by
      have hlen : (rest.take n ++ w).length = n + w.length := by rw [List.length_append, hlength]
      rw [← hlen]
      exact (List.prefix_iff_eq_take.mp ⟨y, hsplit.symm⟩).symm
    have hlexeme : lexeme b (rest.take n ++ w) = (kind, n) := by
      rw [← htake, ← hn]
      apply lexeme_take
      · rw [hn]
        exact Nat.le_add_right n _
      · -- this is what tokens are guarded for
        intro hother
        rw [hn] at hother
        obtain ⟨u, hu, bracket, hclosing⟩ := hguard.1 hother
        rw [← hw] at hu
        obtain ⟨c, hc, hnumber⟩ := exists_mem_of_closing hu hclosing
        rw [htake]
        exact ⟨c, List.mem_append_right _ hc, hnumber⟩
    refine ⟨b :: (rest.take n ++ w), y, ?_, ?_, ?_⟩
    · rw [List.cons_append, ← hsplit]
    · rw [lexFrom_token hb, hlexeme]
      dsimp only
      rw [List.take_left' hlength, List.drop_left' hlength, hw]
    · rw [hstop, List.length_cons, List.length_append, hlength]
      omega

/-- The text from the first of some tokens on has these tokens. -/
theorem lexFrom_onFrom {offset : Nat} {x : Text} {before : List Token} {t : Token}
    {ts : List Token} (h : lexFrom offset x = before ++ t :: ts) :
    ∃ v z, x = v ++ z ∧ lexFrom (offset + v.length) z = t :: ts ∧ t.start = offset + v.length := by
  induction offset, x using lexFrom_induction generalizing before with
  | nil offset =>
    rw [lexFrom] at h
    simp at h
  | blank offset b rest hb ih =>
    rw [lexFrom_blank hb] at h
    obtain ⟨v, z, rfl, hz, hstart⟩ := ih h
    refine ⟨b :: v, z, rfl, ?_, ?_⟩
    · rw [List.length_cons, ← hz]
      congr 1
      omega
    · rw [hstart, List.length_cons]
      omega
  | token offset b rest hb ih =>
    have hle := lexeme_le b rest
    cases before with
    | nil =>
      refine ⟨[], b :: rest, rfl, h, ?_⟩
      rw [lexFrom_token hb] at h
      obtain ⟨rfl, -⟩ := List.cons.inj h
      rfl
    | cons u before =>
      rw [lexFrom_token hb] at h
      obtain ⟨-, hrest⟩ := List.cons.inj h
      obtain ⟨v, z, hdrop, hz, hstart⟩ := ih hrest
      have hlength : (b :: rest.take (lexeme b rest).2 ++ v).length =
          (lexeme b rest).2 + 1 + v.length := by
        simp [hle, Nat.add_right_comm]
      refine ⟨b :: rest.take (lexeme b rest).2 ++ v, z, ?_, ?_, ?_⟩
      · rw [List.append_assoc, ← hdrop, List.cons_append, List.take_append_drop]
      · rw [hlength, ← Nat.add_assoc]
        exact hz
      · rw [hlength, ← Nat.add_assoc]
        exact hstart

/-- **Guarded tokens that follow each other can be cut out of an expression.** -/
theorem exists_cut {expr : Text} {before ts after : List Token}
    (h : lex expr = before ++ ts ++ after) (hne : ts ≠ []) (hguard : Guarded ts) :
    ∃ v w y, expr = v ++ w ++ y ∧ lexFrom v.length w = ts ∧ Grammar.startOf ts = v.length ∧
      Grammar.stopOf ts = v.length + w.length := by
  obtain ⟨t, ts, rfl⟩ := List.exists_cons_of_ne_nil hne
  rw [List.append_assoc, List.cons_append] at h
  obtain ⟨v, z, rfl, hz, hstart⟩ := lexFrom_onFrom h
  rw [Nat.zero_add] at hz hstart
  obtain ⟨w, y, rfl, hw, hstop⟩ := lexFrom_upTo hz hne hguard
  exact ⟨v, w, y, (List.append_assoc v w y).symm, hw, hstart, hstop⟩

/-- A token whose offset is counted from `k` on. -/
def countedFrom (k : Nat) (t : Token) : Token := { t with start := t.start - k }

theorem lexFrom_countedFrom (k offset : Nat) (x : Text) :
    (lexFrom (offset + k) x).map (countedFrom k) = lexFrom offset x := by
  induction offset, x using lexFrom_induction with
  | nil offset => rw [lexFrom, lexFrom, List.map_nil]
  | blank offset b rest hb ih =>
    rw [lexFrom_blank hb, lexFrom_blank hb, ← ih, Nat.add_right_comm]
  | token offset b rest hb ih =>
    rw [lexFrom_token hb, lexFrom_token hb, List.map_cons, ← ih, Nat.add_right_comm]
    simp [countedFrom]

theorem lex_of_lexFrom {k : Nat} {x : Text} {ts : List Token} (h : lexFrom k x = ts) :
    lex x = ts.map (countedFrom k) := by
  rw [← h, lex, ← lexFrom_countedFrom k 0 x, Nat.zero_add]

/-- A name is the only token of its own text. -/
theorem lex_text_of_name {t : Token} {offset : Nat} {x : Text} (h : t ∈ lexFrom offset x)
    (ht : t.kind = .name) : lex t.text = [⟨.name, t.text, 0⟩] := by
  induction offset, x using lexFrom_induction with
  | nil offset =>
    rw [lexFrom] at h
    cases h
  | blank offset b rest hb ih =>
    rw [lexFrom_blank hb] at h
    exact ih h
  | token offset b rest hb ih =>
    rw [lexFrom_token hb] at h
    rcases List.mem_cons.mp h with rfl | h
    · have hkind : (lexeme b rest).1 = .name := ht
      have hsame : lexeme b (rest.take (lexeme b rest).2) = lexeme b rest := by
        refine lexeme_take (Nat.le_refl _) fun hother => ?_
        rw [hkind] at hother
        cases hother
      show lex (b :: rest.take (lexeme b rest).2) = [⟨.name, b :: rest.take (lexeme b rest).2, 0⟩]
      rw [lex, lexFrom_token hb, hsame, hkind]
      simp [lexFrom, List.take_take]
    · exact ih h

/-! ### The ends of tokens -/

theorem isBlankByte_of_isNumberByte {b : UInt8} (h : isNumberByte b = true) :
    isBlankByte b = false := by
  revert h
  exact forall_byte (P := fun b => isNumberByte b = true → isBlankByte b = false)
    (by decide +kernel) b

/-- The blank bytes that can be part of a name are not those of ASCII. -/
theorem isBlankByte_of_isNamePart {b : UInt8} (h : isNamePart b = true) (hb : b < 128) :
    isBlankByte b = false := by
  revert h hb
  exact forall_byte (P := fun b => isNamePart b = true → b < 128 → isBlankByte b = false)
    (by decide +kernel) b

/-- No token ends with a blank byte of ASCII. -/
theorem getLast?_lexeme {b : UInt8} {rest : Text} (hb : isBlankByte b = false) {c : UInt8}
    (h : (b :: rest.take (lexeme b rest).2).getLast? = some c) (hc : c < 128) :
    isBlankByte c = false := by
  have hmem : c = b ∨ c ∈ rest.take (lexeme b rest).2 :=
    List.mem_cons.mp (List.mem_of_getLast? h)
  rcases lexeme_cases b rest with ⟨-, hl⟩ | ⟨-, n, hn, hl⟩ | ⟨-, -, n, hn, hl⟩ | ⟨-, -, -, hl⟩
  · rcases hmem with rfl | hmem
    · exact hb
    · rw [hl] at hmem
      have htake : rest.take (rest.takeWhile isNamePart).length = rest.takeWhile isNamePart :=
        (List.prefix_iff_eq_take.mp (List.takeWhile_prefix _)).symm
      rw [htake] at hmem
      exact isBlankByte_of_isNamePart (List.mem_takeWhile_imp hmem) hc
  · rw [hl] at hmem
    exact isBlankByte_of_isNumberByte ((numberTail?_eq_some hn).2.1 c (List.mem_cons.mpr hmem))
  · rw [hl] at h
    obtain ⟨-, -, hlast, -⟩ := quotedTail?_eq_some hn
    rw [hlast] at h
    obtain rfl := Option.some.inj h
    exact hb
  · rw [hl] at hmem
    rcases hmem with rfl | hmem
    · exact hb
    · simp at hmem

/-- A text that ends where its last token ends does not end with a blank byte of ASCII. -/
theorem getLast?_of_stopOf {offset : Nat} {x : Text}
    (h : Grammar.stopOf (lexFrom offset x) = offset + x.length) {c : UInt8}
    (hlast : x.getLast? = some c) (hc : c < 128) : isBlankByte c = false := by
  induction offset, x using lexFrom_induction with
  | nil offset => cases hlast
  | blank offset b rest hb ih =>
    rw [lexFrom_blank hb, List.length_cons] at h
    cases rest with
    | nil =>
      rw [lexFrom] at h
      simp [Grammar.stopOf] at h
    | cons b' rest =>
      refine ih (by rw [h]; omega) ?_
      rw [List.getLast?_cons_cons] at hlast
      exact hlast
  | token offset b rest hb ih =>
    have hle := lexeme_le b rest
    have hsplit : b :: rest =
        (b :: rest.take (lexeme b rest).2) ++ rest.drop (lexeme b rest).2 := by
      rw [List.cons_append, List.take_append_drop]
    rw [hsplit, List.getLast?_append] at hlast
    rw [lexFrom_token hb, List.length_cons] at h
    cases hdrop : (rest.drop (lexeme b rest).2).getLast? with
    | none =>
      -- the text is this one token
      rw [hdrop] at hlast
      exact getLast?_lexeme hb hlast hc
    | some d =>
      rw [hdrop] at hlast
      have hpos : 0 < (rest.drop (lexeme b rest).2).length :=
        List.length_pos_of_mem (List.mem_of_getLast? hdrop)
      rw [List.length_drop] at hpos
      refine ih ?_ (hdrop.trans hlast)
      -- there is another token, because the last one ends at the end of the text
      cases hrest : lexFrom (offset + ((lexeme b rest).2 + 1)) (rest.drop (lexeme b rest).2) with
      | nil =>
        rw [hrest] at h
        simp only [Grammar.stopOf, List.getLast?_singleton, Option.map_some, Option.getD_some,
          stop, List.length_cons, List.length_take] at h
        omega
      | cons u us =>
        rw [hrest] at h
        simp only [Grammar.stopOf, List.getLast?_cons_cons] at h ⊢
        rw [h, List.length_drop]
        omega

end Token

namespace Grammar

/-! ### The tokens of the grammar are guarded -/

theorem Bracketed.guarded {b : Bracket} {part : List Token} (h : Bracketed b part) :
    Token.Guarded part := by
  obtain @⟨o, c, inner, -, -, hc⟩ := h
  rw [← List.cons_append]
  exact Token.guarded_closing hc (o :: inner)

theorem Suffixes.guarded {ss : List Token} (h : Suffixes ss) : Token.Guarded ss := by
  induction h with
  | nil => trivial
  | cons hs _ ih => exact hs.guarded.append ih

theorem Derives.guarded {names : Option Resolver} {n : Category} {ts : List Token}
    (h : Derives names n ts) : Token.Guarded ts := by
  induction h with
  | single _ ih => exact ih
  | join _ hop _ ih₁ ih₂ =>
    refine ih₁.append (Token.guarded_cons ?_ ih₂)
    rcases hop with hop | hop <;> simp [hop]
  | nullable hq _ ih => exact Token.guarded_cons (by simp [hq]) ih
  | suffixed _ hss ih => exact ih.append hss.guarded
  | @group o c ts ho _ hc _ =>
    rw [← List.cons_append]
    exact Token.guarded_closing hc (o :: ts)
  | literal ht =>
    refine Token.guarded_cons ?_ trivial
    rcases ht with ht | ht <;> simp [ht]
  | name ht => exact Token.guarded_cons (by simp [ht.1]) trivial
  | arguments ht ha => exact Token.guarded_cons (by simp [ht.1]) ha.guarded
  | shape ht hf => exact Token.guarded_cons (by simp [ht.1]) hf.guarded
  | signature ht hp => exact Token.guarded_cons (by simp [ht.1]) hp.guarded
  | returning ht hp hcolon _ ih =>
    refine Token.guarded_cons (by simp [ht.1]) (hp.guarded.append ?_)
    exact Token.guarded_cons (by simp [hcolon]) ih

end Grammar

end DocPromotion
