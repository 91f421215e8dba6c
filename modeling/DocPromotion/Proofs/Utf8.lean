import DocPromotion.Text.Utf8
import Mathlib

/-!
Decoding and encoding of characters.

Reading a valid text as characters and encoding them gives the text back (`ofChars_chars`).  Only
the shortest encoding of a character is read, so a character that was read is encoded by the very
bytes it was read from (`utf8EncodeChar_of_decodeHead`).

The other way round, the encoding of a character is read back whatever follows it
(`decodeHead_utf8EncodeChar`), so encoding loses nothing either (`chars_ofChars`).
-/

namespace DocPromotion.Text

/-! ### Single characters -/

/-- The lowest bits of a byte. -/
theorem toNat_and_mask {mask : UInt8} {k : Nat} (h : mask.toNat = 2 ^ k - 1) (b : UInt8) :
    (b &&& mask).toNat = b.toNat % 2 ^ k := by
  rw [UInt8.toNat_and, h]
  exact Nat.and_two_pow_sub_one_eq_mod _ k

theorem toNat_of_isContinuation {b : UInt8} (h : isContinuation b = true) :
    b.toNat = payload b + 128 ∧ payload b < 64 := by
  have hall : ∀ x : Fin 256, isContinuation (UInt8.ofFin x) = true →
      (UInt8.ofFin x).toNat = payload (UInt8.ofFin x) + 128 ∧ payload (UInt8.ofFin x) < 64 := by
    decide +kernel
  exact hall b.toFin h

theorem charFrom?_map_eq_some {least n k k' : Nat} {c : Char}
    (h : (charFrom? least n).map (·, k) = some (c, k')) :
    least ≤ n ∧ c.val.toNat = n ∧ k' = k := by
  obtain ⟨c', hc', hpair⟩ := Option.map_eq_some_iff.mp h
  obtain ⟨rfl, rfl⟩ := Prod.mk.inj hpair
  unfold charFrom? at hc'
  split at hc'
  next hn =>
    obtain rfl := Option.some.inj hc'
    exact ⟨hn.1, by simp [Char.ofNat, hn.2, Char.ofNatAux], rfl⟩
  next => cases hc'

theorem ofNat_eq_of_toNat {b : UInt8} {n : Nat} (h : n = b.toNat) : UInt8.ofNat n = b := by
  rw [h, UInt8.ofNat_toNat]

section

variable {b c₁ c₂ c₃ : UInt8} {c : Char}

theorem utf8EncodeChar_one (hb : b.toNat < 128) (hc : c.val.toNat = b.toNat) :
    String.utf8EncodeChar c = [b] := by
  unfold String.utf8EncodeChar
  dsimp only
  rw [if_pos (by omega), ofNat_eq_of_toNat hc]

theorem utf8EncodeChar_two (hb : 192 ≤ b.toNat) (hb' : b.toNat < 224)
    (h₁ : isContinuation c₁ = true)
    (hleast : 0x80 ≤ (b &&& 0x1F).toNat * 64 + payload c₁)
    (hval : c.val.toNat = (b &&& 0x1F).toNat * 64 + payload c₁) :
    String.utf8EncodeChar c = [b, c₁] := by
  obtain ⟨hn₁, hp₁⟩ := toNat_of_isContinuation h₁
  rw [toNat_and_mask (k := 5) rfl] at hleast hval
  unfold String.utf8EncodeChar
  dsimp only
  rw [if_neg (by omega), if_pos (by omega), ofNat_eq_of_toNat (b := b) (by omega),
    ofNat_eq_of_toNat (b := c₁) (by omega)]

theorem utf8EncodeChar_three (hb : 224 ≤ b.toNat) (hb' : b.toNat < 240)
    (h₁ : isContinuation c₁ = true) (h₂ : isContinuation c₂ = true)
    (hleast : 0x800 ≤ ((b &&& 0x0F).toNat * 64 + payload c₁) * 64 + payload c₂)
    (hval : c.val.toNat = ((b &&& 0x0F).toNat * 64 + payload c₁) * 64 + payload c₂) :
    String.utf8EncodeChar c = [b, c₁, c₂] := by
  obtain ⟨hn₁, hp₁⟩ := toNat_of_isContinuation h₁
  obtain ⟨hn₂, hp₂⟩ := toNat_of_isContinuation h₂
  rw [toNat_and_mask (k := 4) rfl] at hleast hval
  unfold String.utf8EncodeChar
  dsimp only
  rw [if_neg (by omega), if_neg (by omega), if_pos (by omega),
    ofNat_eq_of_toNat (b := b) (by omega), ofNat_eq_of_toNat (b := c₁) (by omega),
    ofNat_eq_of_toNat (b := c₂) (by omega)]

theorem utf8EncodeChar_four (hb : 240 ≤ b.toNat) (hb' : b.toNat < 248)
    (h₁ : isContinuation c₁ = true) (h₂ : isContinuation c₂ = true)
    (h₃ : isContinuation c₃ = true)
    (hleast : 0x10000 ≤ (((b &&& 0x07).toNat * 64 + payload c₁) * 64 + payload c₂) * 64 +
      payload c₃)
    (hval : c.val.toNat = (((b &&& 0x07).toNat * 64 + payload c₁) * 64 + payload c₂) * 64 +
      payload c₃) :
    String.utf8EncodeChar c = [b, c₁, c₂, c₃] := by
  obtain ⟨hn₁, hp₁⟩ := toNat_of_isContinuation h₁
  obtain ⟨hn₂, hp₂⟩ := toNat_of_isContinuation h₂
  obtain ⟨hn₃, hp₃⟩ := toNat_of_isContinuation h₃
  rw [toNat_and_mask (k := 3) rfl] at hleast hval
  unfold String.utf8EncodeChar
  dsimp only
  rw [if_neg (by omega), if_neg (by omega), if_neg (by omega),
    ofNat_eq_of_toNat (b := b) (by omega), ofNat_eq_of_toNat (b := c₁) (by omega),
    ofNat_eq_of_toNat (b := c₂) (by omega), ofNat_eq_of_toNat (b := c₃) (by omega)]

end

/-- A character that is read is encoded by the bytes it is read from. -/
theorem utf8EncodeChar_of_decodeHead {b : UInt8} {rest : Text} {c : Char} {n : Nat}
    (h : decodeHead b rest = some (c, n)) : String.utf8EncodeChar c = b :: rest.take n := by
  unfold decodeHead at h
  simp only [UInt8.lt_iff_toNat_lt, UInt8.reduceToNat] at h
  -- the first byte says how many bytes there are
  split at h
  next hb =>
    obtain ⟨rfl, rfl⟩ := Prod.mk.inj (Option.some.inj h)
    have hvalid : b.toNat.isValidChar := .inl (by omega)
    exact utf8EncodeChar_one hb (by simp [Char.ofNat, hvalid, Char.ofNatAux])
  split at h
  next => cases h
  split at h
  next hb hb' =>
    split at h
    next c₁ rest =>
      split at h
      next h₁ =>
        obtain ⟨hleast, hval, rfl⟩ := charFrom?_map_eq_some h
        exact utf8EncodeChar_two (Nat.le_of_not_lt hb) hb' h₁ hleast hval
      next => cases h
    next => cases h
  split at h
  next hb hb' =>
    split at h
    next c₁ c₂ rest =>
      split at h
      next hcont =>
        obtain ⟨h₁, h₂⟩ := Bool.and_eq_true_iff.mp hcont
        obtain ⟨hleast, hval, rfl⟩ := charFrom?_map_eq_some h
        exact utf8EncodeChar_three (Nat.le_of_not_lt hb) hb' h₁ h₂ hleast hval
      next => cases h
    next => cases h
  split at h
  next hb hb' =>
    split at h
    next c₁ c₂ c₃ rest =>
      split at h
      next hcont =>
        obtain ⟨hcont, h₃⟩ := Bool.and_eq_true_iff.mp hcont
        obtain ⟨h₁, h₂⟩ := Bool.and_eq_true_iff.mp hcont
        obtain ⟨hleast, hval, rfl⟩ := charFrom?_map_eq_some h
        exact utf8EncodeChar_four (Nat.le_of_not_lt hb) hb' h₁ h₂ h₃ hleast hval
      next => cases h
    next => cases h
  next => cases h

/-! ### Reading encodings back -/

/-- Six bits in a continuation byte are read back. -/
theorem payload_ofNat {k : Nat} (h : k < 64) :
    isContinuation (UInt8.ofNat (k + 128)) = true ∧ payload (UInt8.ofNat (k + 128)) = k := by
  have hall : ∀ x : Fin 64, isContinuation (UInt8.ofNat (x.val + 128)) = true ∧
      payload (UInt8.ofNat (x.val + 128)) = x.val := by
    decide +kernel
  exact hall ⟨k, h⟩

/-- So are the lowest bits of a first byte. -/
theorem toNat_ofNat_and_mask (mask : UInt8) (bits lead : Nat) {k : Nat}
    (hmask : mask.toNat = 2 ^ bits - 1) (hk : k < 2 ^ bits) (hlead : 2 ^ bits ∣ lead)
    (hbyte : k + lead < 256) :
    (UInt8.ofNat (k + lead)).toNat = k + lead ∧ (UInt8.ofNat (k + lead) &&& mask).toNat = k := by
  have hnat : (UInt8.ofNat (k + lead)).toNat = k + lead := UInt8.toNat_ofNat_of_lt' hbyte
  refine ⟨hnat, ?_⟩
  rw [toNat_and_mask hmask, hnat, Nat.add_mod, Nat.mod_eq_zero_of_dvd hlead, Nat.add_zero,
    Nat.mod_mod, Nat.mod_eq_of_lt hk]

theorem charFrom?_eq_some {c : Char} {least n : Nat} (hn : n = c.val.toNat) (h : least ≤ n) :
    charFrom? least n = some c := by
  have hvalid : n.isValidChar := hn ▸ c.valid
  rw [charFrom?, if_pos ⟨h, hvalid⟩, hn]
  exact congrArg some (Char.ofNat_toNat c)

section

variable {c : Char} {v : Nat}

theorem decodeHead_one (hv : c.val.toNat = v) (h : v ≤ 0x7F) (rest : Text) :
    decodeHead (UInt8.ofNat v) rest = some (c, 0) := by
  have hb : (UInt8.ofNat v).toNat = v := UInt8.toNat_ofNat_of_lt' (show v < 256 by omega)
  simp only [decodeHead, UInt8.lt_iff_toNat_lt, UInt8.reduceToNat, hb]
  rw [if_pos (by omega), ← hv]
  exact congrArg (fun x => some (x, 0)) (Char.ofNat_toNat c)

theorem decodeHead_two (hv : c.val.toNat = v) (h : 0x7F < v) (h' : v ≤ 0x7FF) (rest : Text) :
    decodeHead (UInt8.ofNat (v / 64 % 32 + 192)) (UInt8.ofNat (v % 64 + 128) :: rest) =
      some (c, 1) := by
  obtain ⟨hb, hm⟩ := toNat_ofNat_and_mask 0x1F 5 192 (k := v / 64 % 32) rfl (by omega)
    ⟨6, rfl⟩ (by omega)
  obtain ⟨hc₁, hp₁⟩ := payload_ofNat (k := v % 64) (by omega)
  simp only [decodeHead, UInt8.lt_iff_toNat_lt, UInt8.reduceToNat, hb, hc₁, hp₁, hm, if_true]
  rw [if_neg (by omega), if_neg (by omega), if_pos (by omega),
    charFrom?_eq_some (c := c) (by omega) (by omega)]
  rfl

theorem decodeHead_three (hv : c.val.toNat = v) (h : 0x7FF < v) (h' : v ≤ 0xFFFF) (rest : Text) :
    decodeHead (UInt8.ofNat (v / 4096 % 16 + 224))
      (UInt8.ofNat (v / 64 % 64 + 128) :: UInt8.ofNat (v % 64 + 128) :: rest) = some (c, 2) := by
  obtain ⟨hb, hm⟩ := toNat_ofNat_and_mask 0x0F 4 224 (k := v / 4096 % 16) rfl (by omega)
    ⟨14, rfl⟩ (by omega)
  obtain ⟨hc₁, hp₁⟩ := payload_ofNat (k := v / 64 % 64) (by omega)
  obtain ⟨hc₂, hp₂⟩ := payload_ofNat (k := v % 64) (by omega)
  simp only [decodeHead, UInt8.lt_iff_toNat_lt, UInt8.reduceToNat, hb, hc₁, hp₁, hc₂, hp₂, hm,
    Bool.and_self, if_true]
  rw [if_neg (by omega), if_neg (by omega), if_neg (by omega), if_pos (by omega),
    charFrom?_eq_some (c := c) (by omega) (by omega)]
  rfl

theorem decodeHead_four (hv : c.val.toNat = v) (h : 0xFFFF < v) (h' : v < 0x110000)
    (rest : Text) :
    decodeHead (UInt8.ofNat (v / 262144 % 8 + 240))
      (UInt8.ofNat (v / 4096 % 64 + 128) :: UInt8.ofNat (v / 64 % 64 + 128) ::
        UInt8.ofNat (v % 64 + 128) :: rest) = some (c, 3) := by
  obtain ⟨hb, hm⟩ := toNat_ofNat_and_mask 0x07 3 240 (k := v / 262144 % 8) rfl (by omega)
    ⟨30, rfl⟩ (by omega)
  obtain ⟨hc₁, hp₁⟩ := payload_ofNat (k := v / 4096 % 64) (by omega)
  obtain ⟨hc₂, hp₂⟩ := payload_ofNat (k := v / 64 % 64) (by omega)
  obtain ⟨hc₃, hp₃⟩ := payload_ofNat (k := v % 64) (by omega)
  simp only [decodeHead, UInt8.lt_iff_toNat_lt, UInt8.reduceToNat, hb, hc₁, hp₁, hc₂, hp₂, hc₃,
    hp₃, hm, Bool.and_self, if_true]
  rw [if_neg (by omega), if_neg (by omega), if_neg (by omega), if_neg (by omega),
    if_pos (by omega), charFrom?_eq_some (c := c) (by omega) (by omega)]
  rfl

end

/-- The encoding of a character is read back, whatever comes after it. -/
theorem decodeHead_utf8EncodeChar (c : Char) : ∃ b tail,
    String.utf8EncodeChar c = b :: tail ∧
      ∀ rest, decodeHead b (tail ++ rest) = some (c, tail.length) := by
  have hmax : c.val.toNat < 0x110000 := by
    rcases c.valid with h | ⟨-, h⟩ <;> simp only [UInt32.toNat] at * <;> omega
  unfold String.utf8EncodeChar
  dsimp only
  split
  next h => exact ⟨_, [], rfl, decodeHead_one rfl h⟩
  next h =>
    split
    next h' => exact ⟨_, [_], rfl, decodeHead_two rfl (by omega) h'⟩
    next h' =>
      split
      next h'' => exact ⟨_, [_, _], rfl, decodeHead_three rfl (by omega) h''⟩
      next h'' => exact ⟨_, [_, _, _], rfl, decodeHead_four rfl (by omega) hmax⟩

/-- The byte of an ASCII character is its code, and all bytes of other characters are outside of
ASCII. -/
theorem toNat_of_mem_utf8EncodeChar {c : Char} {b : UInt8} (h : b ∈ String.utf8EncodeChar c) :
    b.toNat = c.toNat ∨ 128 ≤ c.toNat ∧ 128 ≤ b.toNat := by
  unfold String.utf8EncodeChar at h
  dsimp only at h
  rw [show c.val.toNat = c.toNat from rfl] at h
  have hbyte : ∀ n, b = UInt8.ofNat n → n < 256 → b.toNat = n := by
    rintro n rfl hn
    exact UInt8.toNat_ofNat_of_lt' hn
  repeat' split at h
  · exact .inl (hbyte _ (List.mem_singleton.mp h) (by omega))
  all_goals
    simp only [List.mem_cons, List.not_mem_nil, or_false] at h
    right
    refine ⟨by omega, ?_⟩
  · rcases h with h | h <;> rw [hbyte _ h (by omega)] <;> omega
  · rcases h with h | h | h <;> rw [hbyte _ h (by omega)] <;> omega
  · rcases h with h | h | h | h <;> rw [hbyte _ h (by omega)] <;> omega

/-! ### Texts -/

theorem utf8EncodeChar_of_mem_pieces {t : Text} {p : Piece} (hp : p ∈ pieces t) {c : Char}
    (hc : p.char? = some c) : String.utf8EncodeChar c = p.bytes := by
  fun_induction pieces t with
  | case1 => cases hp
  | case2 b rest c' n h ih =>
    rcases List.mem_cons.mp hp with rfl | hp
    · obtain rfl := Option.some.inj hc
      exact utf8EncodeChar_of_decodeHead h
    · exact ih hp
  | case3 b rest h ih =>
    rcases List.mem_cons.mp hp with rfl | hp
    · cases hc
    · exact ih hp

/-- **A valid text is the encoding of its characters.** -/
theorem ofChars_chars {t : Text} (h : isValid t = true) : ofChars (chars t) = t := by
  calc ofChars (chars t) = (pieces t).flatMap fun p => String.utf8EncodeChar p.char := by
        rw [ofChars, chars, List.flatMap_map]
    _ = (pieces t).flatMap Piece.bytes := by
        rw [List.flatMap_def, List.flatMap_def]
        refine congrArg List.flatten (List.map_congr_left fun p hp => ?_)
        obtain ⟨c, hc⟩ := Option.isSome_iff_exists.mp (List.all_eq_true.mp h p hp)
        rw [Piece.char, hc, Option.getD_some]
        exact utf8EncodeChar_of_mem_pieces hp hc
    _ = t := flatten_pieces t

theorem pieces_utf8EncodeChar_append (c : Char) (rest : Text) :
    pieces (String.utf8EncodeChar c ++ rest) =
      ⟨String.utf8EncodeChar c, some c⟩ :: pieces rest := by
  obtain ⟨b, tail, henc, hdecode⟩ := decodeHead_utf8EncodeChar c
  rw [henc, List.cons_append, pieces, hdecode]
  simp

/-- **The characters of an encoding are those that were encoded.** -/
theorem chars_ofChars (cs : List Char) : chars (ofChars cs) = cs := by
  induction cs with
  | nil => rw [ofChars, List.flatMap_nil, chars, pieces, List.map_nil]
  | cons c cs ih =>
    rw [ofChars, List.flatMap_cons, chars, pieces_utf8EncodeChar_append, List.map_cons]
    exact congrArg (c :: ·) ih

end DocPromotion.Text
