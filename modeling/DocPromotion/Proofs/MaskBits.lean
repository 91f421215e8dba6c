import DocPromotion.BitMask
import Mathlib

/-!
Sets of flags, bit by bit.

A flag is enabled if every bit of it is (`BitMask.enabled_iff`), and enabling or disabling a flag
is felt by the bits of that flag only (`BitMask.getLsbD_set`).  So flags that share no bit do not
get in each other's way.

After any number of changes each bit has a history of its own: the last change to a flag with that
bit decides about it, and the flags at the start do if there is none (`BitMask.IsOn`).  A flag of
several bits has no such history, because other flags may have changed some of its bits since.
-/

namespace DocPromotion.BitMask

variable {w : Nat} (m : BitMask w)

theorem enabled_iff (flag : BitVec w) :
    m.enabled flag = true ↔
      flag ≠ 0 ∧ ∀ i, flag.getLsbD i = true → m.bits.getLsbD i = true := by
  have hbits : m.bits &&& flag = flag ↔
      ∀ i, flag.getLsbD i = true → m.bits.getLsbD i = true := by
    constructor
    · intro h i hi
      rw [← h, BitVec.getLsbD_and, Bool.and_eq_true] at hi
      exact hi.1
    · intro h
      apply BitVec.eq_of_getLsbD_eq
      intro i _
      rw [BitVec.getLsbD_and]
      cases hi : flag.getLsbD i with
      | false => exact Bool.and_false _
      | true => rw [h i hi, Bool.and_true]
  rw [enabled, Bool.and_eq_true, bne_iff_ne, beq_iff_eq, hbits]

/-- The bits of the flag are those that change. -/
theorem getLsbD_set (flag : BitVec w) (on : Bool) (i : Nat) :
    (m.set flag on).bits.getLsbD i = if flag.getLsbD i then on else m.bits.getLsbD i := by
  cases on with
  | true =>
    show (m.bits ||| flag).getLsbD i = _
    rw [BitVec.getLsbD_or]
    cases flag.getLsbD i <;> simp
  | false =>
    show (m.bits &&& ~~~flag).getLsbD i = _
    rw [BitVec.getLsbD_and, BitVec.getLsbD_not]
    -- the complement of a flag has no bits beyond the word, and neither has the mask
    by_cases hlt : i < w
    · cases flag.getLsbD i <;> simp [hlt]
    · simp [BitVec.getLsbD_of_ge _ i (Nat.le_of_not_lt hlt)]

/-- Masks with the same bits are the same. -/
theorem eq_of_getLsbD_eq {m m' : BitMask w}
    (h : ∀ i, m.bits.getLsbD i = m'.bits.getLsbD i) : m = m' := by
  cases m
  cases m'
  exact congrArg BitMask.mk (BitVec.eq_of_getLsbD_eq fun i _ => h i)

theorem getLsbD_ofFlags (flags : List (BitVec w)) (i : Nat) :
    (ofFlags flags).bits.getLsbD i = true ↔ ∃ flag ∈ flags, flag.getLsbD i = true := by
  have hfold : ∀ start : BitVec w, (flags.foldl (· ||| ·) start).getLsbD i = true ↔
      start.getLsbD i = true ∨ ∃ flag ∈ flags, flag.getLsbD i = true := by
    induction flags with
    | nil => simp
    | cons flag flags ih =>
      intro start
      rw [List.foldl_cons, ih, BitVec.getLsbD_or, Bool.or_eq_true, List.exists_mem_cons_iff,
        or_assoc]
  have hzero : (0 : BitVec w).getLsbD i = false := BitVec.getLsbD_zero
  rw [ofFlags, hfold, hzero]
  exact or_iff_right Bool.false_ne_true

/-- The flag of a single bit is enabled if that bit is set. -/
theorem enabled_twoPow {i : Nat} (h : i < w) :
    m.enabled (BitVec.twoPow w i) = m.bits.getLsbD i := by
  have hbit : ∀ j, (BitVec.twoPow w i).getLsbD j = true ↔ j = i := by
    intro j
    rw [BitVec.getLsbD_twoPow, Bool.and_eq_true, decide_eq_true_iff, decide_eq_true_iff, eq_comm]
    exact and_iff_right h
  have hne : BitVec.twoPow w i ≠ 0 := by
    intro hzero
    have hi := (hbit i).mpr rfl
    rw [hzero] at hi
    exact Bool.false_ne_true (BitVec.getLsbD_zero.symm.trans hi)
  rw [Bool.eq_iff_iff, enabled_iff]
  constructor
  · rintro ⟨-, hall⟩
    exact hall i ((hbit i).mpr rfl)
  · intro hi
    refine ⟨hne, fun j hj => ?_⟩
    rw [(hbit j).mp hj]
    exact hi

/-- A mask is empty if no flag of a single bit is enabled. -/
theorem isEmpty_iff :
    m.isEmpty = true ↔ ∀ i < w, m.enabled (BitVec.twoPow w i) = false := by
  rw [isEmpty, beq_iff_eq]
  constructor
  · intro hzero i hi
    rw [enabled_twoPow m hi, hzero]
    exact BitVec.getLsbD_zero
  · intro hnone
    refine BitVec.eq_of_getLsbD_eq fun i hi => ?_
    rw [← enabled_twoPow m hi, hnone i hi]
    exact BitVec.getLsbD_zero.symm

/-! ### Changes, one after the other -/

/-- A flag that is enabled or disabled. -/
structure Change (w : Nat) where
  flag : BitVec w
  on : Bool
deriving Repr, DecidableEq

/-- The mask after some changes, from left to right. -/
def setAll (changes : List (Change w)) : BitMask w :=
  changes.foldl (fun m c => m.set c.flag c.on) m

/-- The change `c` is the last one to a flag with the bit `i`. -/
def IsLastAt (i : Nat) (c : Change w) (changes : List (Change w)) : Prop :=
  ∃ before after, changes = before ++ c :: after ∧ c.flag.getLsbD i = true ∧
    ∀ d ∈ after, d.flag.getLsbD i = false

/-- The last change to a flag with the bit `i` enabled it, or there was none and some flag at the
start has the bit. -/
def IsOn (initial : List (BitVec w)) (changes : List (Change w)) (i : Nat) : Prop :=
  (∃ c, IsLastAt i c changes ∧ c.on = true) ∨
    ((∀ c ∈ changes, c.flag.getLsbD i = false) ∧ ∃ flag ∈ initial, flag.getLsbD i = true)

section

variable {initial : List (BitVec w)} {changes : List (Change w)} {c : Change w} {i : Nat}

theorem setAll_append (changes changes' : List (Change w)) :
    m.setAll (changes ++ changes') = (m.setAll changes).setAll changes' := List.foldl_append

/-- One more change is the last one for the bits of its flag, and no change to any other bit. -/
theorem isLastAt_concat {d : Change w} :
    IsLastAt i d (changes ++ [c]) ↔
      (c.flag.getLsbD i = true ∧ d = c) ∨ (c.flag.getLsbD i = false ∧ IsLastAt i d changes) := by
  constructor
  · rintro ⟨before, after, heq, hd, hafter⟩
    rcases List.eq_nil_or_concat after with rfl | ⟨after, d', rfl⟩
    · obtain ⟨-, hlast⟩ := List.append_inj' heq rfl
      obtain rfl := (List.cons.inj hlast).1
      exact .inl ⟨hd, rfl⟩
    · rw [List.concat_eq_append, ← List.cons_append, ← List.append_assoc] at heq
      obtain ⟨hchanges, hlast⟩ := List.append_inj' heq rfl
      obtain rfl := (List.cons.inj hlast).1
      rw [List.concat_eq_append, List.forall_mem_append, List.forall_mem_singleton] at hafter
      exact .inr ⟨hafter.2, before, after, hchanges, hd, hafter.1⟩
  · rintro (⟨hc, rfl⟩ | ⟨hc, before, after, rfl, hd, hafter⟩)
    · exact ⟨changes, [], rfl, hc, by simp⟩
    · refine ⟨before, after ++ [c], by simp, hd, ?_⟩
      rw [List.forall_mem_append, List.forall_mem_singleton]
      exact ⟨hafter, hc⟩

/-- One more change decides about the bits of its flag, and leaves the history of all others. -/
theorem isOn_concat : IsOn initial (changes ++ [c]) i ↔
    if c.flag.getLsbD i then c.on = true else IsOn initial changes i := by
  simp only [IsOn, isLastAt_concat, List.forall_mem_append, List.forall_mem_singleton]
  cases hc : c.flag.getLsbD i with
  | true => simp
  | false => simp

/-- **Each bit has the value that its history gives it.** -/
theorem getLsbD_setAll_ofFlags :
    ((ofFlags initial).setAll changes).bits.getLsbD i = true ↔ IsOn initial changes i := by
  -- from the left, so that the change that is made last is the one added
  induction changes using List.reverseRecOn with
  | nil =>
    have hnone : ¬ ∃ c, IsLastAt i c ([] : List (Change w)) ∧ c.on = true := by
      rintro ⟨c, ⟨before, after, heq, -⟩, -⟩
      simp at heq
    rw [setAll, List.foldl_nil, getLsbD_ofFlags, IsOn, or_iff_right hnone]
    simp
  | append_singleton changes c ih =>
    have hset : (ofFlags initial).setAll (changes ++ [c]) =
        ((ofFlags initial).setAll changes).set c.flag c.on := setAll_append _ changes [c]
    rw [hset, getLsbD_set, isOn_concat, ← ih]
    cases c.flag.getLsbD i with
    | true => rfl
    | false => rfl

end

/-- Flags that share no bit can be changed in any order. -/
theorem set_set_comm {flag other : BitVec w} (h : flag &&& other = 0) (on on' : Bool) :
    (m.set flag on).set other on' = (m.set other on').set flag on := by
  refine eq_of_getLsbD_eq fun i => ?_
  have hzero : (flag &&& other).getLsbD i = false := by
    rw [h]
    exact BitVec.getLsbD_zero
  rw [BitVec.getLsbD_and, Bool.and_eq_false_iff] at hzero
  rw [getLsbD_set, getLsbD_set, getLsbD_set, getLsbD_set]
  rcases hzero with hflag | hother
  · simp [hflag]
  · simp [hother]

/-! ### Main statement -/

/-- **The last change to each bit decides.**  A flag is enabled if it has a bit at all and the
history of each of its bits leaves that bit set, and changes to flags that share no bit can be
swapped where they follow each other. -/
theorem last_change_decides (initial : List (BitVec w)) (changes : List (Change w)) :
    (∀ flag, ((ofFlags initial).setAll changes).enabled flag = true ↔
      flag ≠ 0 ∧ ∀ i, flag.getLsbD i = true → IsOn initial changes i) ∧
    (((ofFlags initial).setAll changes).isEmpty = true ↔
      ∀ i < w, ((ofFlags initial).setAll changes).enabled (BitVec.twoPow w i) = false) ∧
    ∀ before c d after, changes = before ++ c :: d :: after → c.flag &&& d.flag = 0 →
      (ofFlags initial).setAll (before ++ d :: c :: after) =
        (ofFlags initial).setAll changes := by
  refine ⟨fun flag => ?_, isEmpty_iff _, ?_⟩
  · simp only [enabled_iff, getLsbD_setAll_ofFlags]
  · rintro before c d after rfl hdisjoint
    have hswap : ((ofFlags initial).setAll before).setAll [d, c] =
        ((ofFlags initial).setAll before).setAll [c, d] :=
      (set_set_comm _ hdisjoint c.on d.on).symm
    have hsplit : ∀ x y : Change w, (ofFlags initial).setAll (before ++ x :: y :: after) =
        (((ofFlags initial).setAll before).setAll [x, y]).setAll after := by
      intro x y
      rw [← setAll_append, ← setAll_append, List.cons_append, List.cons_append, List.nil_append]
    rw [hsplit, hsplit, hswap]

/-- Two changes in the middle that share no bit, before one that takes a bit from each. -/
theorem last_change_decides_overlapping :
    (0x06#8 &&& 0x18#8 = 0) ∧
      (ofFlags [0x05#8]).setAll [⟨0x06, true⟩, ⟨0x18, false⟩, ⟨0x0C, true⟩] =
        (ofFlags [0x05#8]).setAll [⟨0x18, false⟩, ⟨0x06, true⟩, ⟨0x0C, true⟩] ∧
      (ofFlags [0x05#8]).setAll [⟨0x18, false⟩, ⟨0x06, true⟩, ⟨0x0C, true⟩] = ⟨0x0F⟩ := by
  have hswap := (last_change_decides [0x05#8]
    [⟨0x18, false⟩, ⟨0x06, true⟩, ⟨0x0C, true⟩]).2.2 [] ⟨0x18, false⟩ ⟨0x06, true⟩ [⟨0x0C, true⟩]
    rfl (by decide)
  exact ⟨by decide, hswap, by decide⟩

end DocPromotion.BitMask
