import DocPromotion.Proofs.OwnSpelling

/-!
Trimming a text that ends with a visible character of ASCII.

Blanks are trimmed by characters, and tokens are cut by bytes.  The two agree where it matters: a
byte of ASCII that separates no tokens is never part of a blank character
(`isBlank_eq_false_of_isSolid`).  So such a byte at the end of a text stays there, whatever else is
trimmed (`getLast?_trim`), and a text with such bytes at both ends stays as it is
(`trim_eq_self_of_isSolid`).
-/

namespace DocPromotion.Text

/-- The bytes of ASCII that do not separate tokens. -/
def IsSolid (b : UInt8) : Prop := b < 128 ∧ Token.isBlankByte b = false

instance : DecidablePred IsSolid :=
  fun b => inferInstanceAs (Decidable (b < 128 ∧ Token.isBlankByte b = false))

theorem bytes_ne_nil_of_mem_pieces {t : Text} {p : Piece} (hp : p ∈ pieces t) : p.bytes ≠ [] := by
  fun_induction pieces t with
  | case1 => cases hp
  | case2 b rest c n _ ih =>
    rcases List.mem_cons.mp hp with rfl | hp
    · exact List.cons_ne_nil _ _
    · exact ih hp
  | case3 b rest _ ih =>
    rcases List.mem_cons.mp hp with rfl | hp
    · exact List.cons_ne_nil _ _
    · exact ih hp

/-- A character with a solid byte is not blank. -/
theorem isBlank_eq_false_of_isSolid {t : Text} {p : Piece} {b : UInt8} (hp : p ∈ pieces t)
    (hb : b ∈ p.bytes) (hsolid : IsSolid b) : isBlank p.char = false := by
  obtain ⟨hlow, hsep⟩ := hsolid
  by_contra hblank
  have hblank : isBlank p.char = true := by simpa using hblank
  have henc := utf8EncodeChar_of_isBlank hp hblank
  rw [← henc] at hb
  have hascii : p.char.toNat < 128 := by
    have hbyte : b.toNat < 128 := hlow
    rcases toNat_of_mem_utf8EncodeChar hb with hascii | ⟨-, hhigh⟩
    · omega
    · omega
  -- a blank of ASCII is a single byte, which separates tokens
  obtain ⟨b', hb', -, hsep'⟩ := isBlankByte_of_isBlank hblank hascii
  rw [hb', List.mem_singleton] at hb
  rw [hb, hsep'] at hsep
  cases hsep

/-- The first byte of a text belongs to its first character. -/
theorem mem_bytes_of_head? {t : Text} {p : Piece} {b : UInt8} (hp : (pieces t).head? = some p)
    (hb : t.head? = some b) : b ∈ p.bytes := by
  obtain ⟨ps, hps⟩ := List.head?_eq_some_iff.mp hp
  have hne : p.bytes ≠ [] := bytes_ne_nil_of_mem_pieces (List.mem_of_head? hp)
  obtain ⟨c, cs, hc⟩ := List.exists_cons_of_ne_nil hne
  rw [← flatten_pieces t, hps, List.flatMap_cons, hc] at hb
  obtain rfl := Option.some.inj hb
  rw [hc]
  exact List.mem_cons_self

/-- The last byte of a text is the last byte of its last character. -/
theorem getLast?_bytes {t : Text} {ps : List Piece} {p : Piece} (hp : pieces t = ps ++ [p]) :
    p.bytes.getLast? = t.getLast? := by
  have hmem : p ∈ pieces t := by simp [hp]
  have hne : p.bytes ≠ [] := bytes_ne_nil_of_mem_pieces hmem
  rw [← flatten_pieces t, hp, List.flatMap_append, List.flatMap_singleton,
    List.getLast?_append_of_ne_nil _ hne]

theorem exists_last_piece {t : Text} {b : UInt8} (hb : t.getLast? = some b) (hsolid : IsSolid b) :
    ∃ ps p, pieces t = ps ++ [p] ∧ p.bytes.getLast? = some b ∧ isBlank p.char = false := by
  have hne : pieces t ≠ [] := by
    intro hnil
    rw [← flatten_pieces t, hnil] at hb
    cases hb
  obtain ⟨ps, p, hp⟩ := (List.eq_nil_or_concat (pieces t)).resolve_left hne
  rw [List.concat_eq_append] at hp
  have hlast : p.bytes.getLast? = some b := (getLast?_bytes hp).trans hb
  have hmem : p ∈ pieces t := by simp [hp]
  exact ⟨ps, p, hp, hlast, isBlank_eq_false_of_isSolid hmem (List.mem_of_getLast? hlast) hsolid⟩

/-- **A solid byte at the end of a text is not trimmed.** -/
theorem getLast?_trim {t : Text} {b : UInt8} (hb : t.getLast? = some b) (hsolid : IsSolid b) :
    (trim t).getLast? = some b := by
  obtain ⟨ps, p, hp, hlast, hblank⟩ := exists_last_piece hb hsolid
  have hne : p.bytes ≠ [] := by
    rintro hnil
    rw [hnil] at hlast
    cases hlast
  -- whatever is dropped at the start, the last character stays
  have hstart : (ps ++ [p]).dropWhile (isBlank ·.char) = ps.dropWhile (isBlank ·.char) ++ [p] := by
    rw [List.dropWhile_append]
    split
    next hempty => simp [List.isEmpty_iff.mp hempty, hblank]
    next => rfl
  have htrim : trim t = (ps.dropWhile (isBlank ·.char) ++ [p]).flatMap Piece.bytes := by
    rw [trim, hp, hstart, List.reverse_append, List.reverse_singleton, List.singleton_append,
      List.dropWhile_cons_of_neg (by simp [hblank]), List.reverse_cons, List.reverse_reverse]
  rw [htrim, List.flatMap_append, List.flatMap_singleton, List.getLast?_append_of_ne_nil _ hne,
    hlast]

/-- **A text with solid bytes at both ends is not trimmed.** -/
theorem trim_eq_self_of_isSolid {t : Text} {a b : UInt8} (ha : t.head? = some a)
    (hb : t.getLast? = some b) (hsolid : IsSolid a) (hsolid' : IsSolid b) : trim t = t := by
  apply trim_eq_self
  · intro p hp
    exact isBlank_eq_false_of_isSolid (List.mem_of_head? hp) (mem_bytes_of_head? hp ha) hsolid
  · intro p hp
    obtain ⟨ps, q, hq, -, hblank⟩ := exists_last_piece hb hsolid'
    rw [hq, List.getLast?_concat] at hp
    obtain rfl := Option.some.inj hp
    exact hblank

end DocPromotion.Text
