import DocPromotion.Proofs.Lookup

/-!
Two notions of case.

Classes are looked up in lower case, while aliases and methods are compared up to case.  The two
notions agree on all characters but two kinds.  The lower-case form of the dotted capital I is that
of another letter (`Text.fold_eq_of_lower_eq`), and a letter may have a second lower-case form,
which lower case keeps apart from the first (`Text.lower_eq_of_fold_eq`).  Both rest on one fact
about the table of lower-case forms: none of these characters is the lower-case form of another
character (`Text.eq_of_lowerChar_eq`).

So a lookup finds the class that is equal up to case if neither kind of character occurs
(`SourceFile.lookup_in_lower_case`), and may find no class or the wrong one if they do
(`SourceFile.lookup_not_up_to_case`).
-/

namespace DocPromotion

namespace Text

/-! ### The table of lower-case forms -/

/-- A code is one of the targets of a range. -/
def isTargetOf (m : Nat) (range : Nat × Nat × Nat × Nat) : Bool :=
  let (first, last, step, target) := range
  target ≤ m && m - target ≤ last - first && (m - target) % step == 0

/-- A code that is no target is the lower-case form of itself alone. -/
theorem eq_of_mapCode_eq {n m : Nat} {ranges : List (Nat × Nat × Nat × Nat)}
    (h : ∀ range ∈ ranges, isTargetOf m range = false) (hm : mapCode n ranges = m) : n = m := by
  induction ranges with
  | nil => exact hm
  | cons range ranges ih =>
    obtain ⟨first, last, step, target⟩ := range
    rw [List.forall_mem_cons] at h
    rw [mapCode] at hm
    split at hm
    next => exact hm
    next hfirst =>
      split at hm
      next hlast =>
        -- then `m` would be the target for `n`
        have htarget : isTargetOf m (first, last, step, target) = true := by
          have hsub : m - target = n - first := by omega
          simp only [isTargetOf, hsub, Bool.and_eq_true, decide_eq_true_eq, beq_iff_eq]
          omega
        rw [h.1] at htarget
        cases htarget
      next => exact ih h.2 hm

/-- None of the exceptions is the lower-case form of another character. -/
theorem isTargetOf_foldException {e : Nat × Nat} (he : e ∈ foldExceptions) :
    ∀ range ∈ lowerRanges, isTargetOf e.1 range = false := by
  have hall : ∀ e ∈ foldExceptions, ∀ range ∈ lowerRanges, isTargetOf e.1 range = false := by
    decide +kernel
  exact hall e he

/-! ### Characters -/

/-- The dotted capital I, which is in lower case what another letter is. -/
def dottedI : Char := '\u0130'

/-- One of the characters whose case folding is not their lower-case form. -/
def IsFoldException (c : Char) : Prop := ∃ e ∈ foldExceptions, e.1 = c.toNat

/-- A second lower-case form of a letter. -/
def IsSecondForm (c : Char) : Prop := c ≠ dottedI ∧ IsFoldException c

instance (c : Char) : Decidable (IsFoldException c) := inferInstanceAs (Decidable (∃ _ ∈ _, _))

instance (c : Char) : Decidable (IsSecondForm c) := inferInstanceAs (Decidable (_ ∧ _))

theorem isFoldException_dottedI : IsFoldException dottedI := by decide

theorem eq_of_lowerChar_eq {c d : Char} (hc : IsFoldException c) (h : lowerChar d = c) : d = c := by
  obtain ⟨e, he, hec⟩ := hc
  have hcode : mapCode d.toNat lowerRanges = c.toNat := by
    rw [← h, lowerChar]
    by_cases hvalid : (mapCode d.toNat lowerRanges).isValidChar
    · rw [Char.toNat_ofNat, if_pos hvalid]
    · -- an invalid code would give the character with code 0, which is no exception
      have hzero : c.toNat = 0 := by
        rw [← h, lowerChar, Char.toNat_ofNat, if_neg hvalid]
      have hpos : ∀ e ∈ foldExceptions, e.1 ≠ 0 := by decide
      exact absurd (hec.trans hzero) (hpos e he)
  rw [← hec] at hcode
  have heq : d.toNat = e.1 := eq_of_mapCode_eq (isTargetOf_foldException he) hcode
  exact Char.toNat_inj.mp (heq.trans hec)

/-- A second lower-case form is a lower-case form. -/
theorem IsSecondForm.lowerChar_eq {c : Char} (h : IsSecondForm c) : lowerChar c = c := by
  obtain ⟨hne, e, he, hec⟩ := h
  have hall : ∀ e ∈ foldExceptions, e.1 = dottedI.toNat ∨ mapCode e.1 lowerRanges = e.1 := by
    decide +kernel
  rcases hall e he with hdotted | hself
  · exact absurd (Char.toNat_inj.mp (hec.symm.trans hdotted)) hne
  · rw [lowerChar, ← hec, hself, hec, Char.ofNat_toNat]

theorem foldChar_dottedI : foldChar dottedI = dottedI := by decide +kernel

/-- Any other character is folded to its lower-case form. -/
theorem foldChar_eq_lowerChar {c : Char} (hne : c ≠ dottedI) (h : ¬ IsSecondForm c) :
    foldChar c = lowerChar c := by
  have hlookup : foldExceptions.lookup c.toNat = none := by
    rw [List.lookup_eq_none_iff]
    intro e he
    rw [bne_iff_ne]
    intro heq
    exact h ⟨hne, e, he, heq.symm⟩
  rw [foldChar, hlookup]

theorem foldChar_eq_of_lowerChar_eq {c d : Char} (hc : c ≠ dottedI) (hd : d ≠ dottedI)
    (h : lowerChar c = lowerChar d) : foldChar c = foldChar d := by
  by_cases hsecond : IsSecondForm c
  · rw [hsecond.lowerChar_eq] at h
    rw [eq_of_lowerChar_eq hsecond.2 h.symm]
  · by_cases hsecond' : IsSecondForm d
    · rw [hsecond'.lowerChar_eq] at h
      rw [eq_of_lowerChar_eq hsecond'.2 h]
    · rw [foldChar_eq_lowerChar hc hsecond, foldChar_eq_lowerChar hd hsecond', h]

/-- Nothing but the dotted capital I is folded to it. -/
theorem eq_dottedI_of_foldChar_eq {c : Char} (hsecond : ¬ IsSecondForm c)
    (h : foldChar c = dottedI) : c = dottedI := by
  by_contra hne
  rw [foldChar_eq_lowerChar hne hsecond] at h
  exact hne (eq_of_lowerChar_eq isFoldException_dottedI h)

theorem lowerChar_eq_of_foldChar_eq {c d : Char} (hc : ¬ IsSecondForm c) (hd : ¬ IsSecondForm d)
    (h : foldChar c = foldChar d) : lowerChar c = lowerChar d := by
  by_cases hdotted : c = dottedI
  · rw [hdotted, foldChar_dottedI] at h
    rw [hdotted, eq_dottedI_of_foldChar_eq hd h.symm]
  · by_cases hdotted' : d = dottedI
    · rw [hdotted', foldChar_dottedI] at h
      exact absurd (eq_dottedI_of_foldChar_eq hc h) hdotted
    · rwa [foldChar_eq_lowerChar hdotted hc, foldChar_eq_lowerChar hdotted' hd] at h

/-! ### Texts -/

/-- A text without the dotted capital I. -/
def IsUndotted (t : Text) : Prop := ∀ c ∈ chars t, c ≠ dottedI

/-- A text without second lower-case forms. -/
def IsFirstForm (t : Text) : Prop := ∀ c ∈ chars t, ¬ IsSecondForm c

-- the characters of the text are looked at, and not all characters there are
instance (t : Text) : Decidable t.IsUndotted := List.decidableBAll (· ≠ dottedI) (chars t)

instance (t : Text) : Decidable t.IsFirstForm := List.decidableBAll (¬ IsSecondForm ·) (chars t)

/-- What is equal character by character under one map is so under another. -/
theorem map_eq_map_of {α β γ : Type} {f : α → β} {g : α → γ} {xs ys : List α}
    (hfg : ∀ x ∈ xs, ∀ y ∈ ys, f x = f y → g x = g y) (h : xs.map f = ys.map f) :
    xs.map g = ys.map g := by
  induction xs generalizing ys with
  | nil =>
    obtain rfl : ys = [] := List.map_eq_nil_iff.mp h.symm
    rfl
  | cons x xs ih =>
    obtain ⟨y, ys, rfl, hxy, hrest⟩ := List.map_eq_cons_iff.mp h.symm
    rw [List.map_cons, List.map_cons,
      hfg x List.mem_cons_self y List.mem_cons_self hxy.symm,
      ih (fun x' hx' y' hy' => hfg x' (List.mem_cons_of_mem _ hx') y' (List.mem_cons_of_mem _ hy'))
        hrest.symm]

theorem fold_eq_of_lower_eq {s t : Text} (hs : s.IsUndotted) (ht : t.IsUndotted)
    (h : lower s = lower t) : fold s = fold t :=
  map_eq_map_of (fun c hc d hd => foldChar_eq_of_lowerChar_eq (hs c hc) (ht d hd)) h

theorem lower_eq_of_fold_eq {s t : Text} (hs : s.IsFirstForm) (ht : t.IsFirstForm)
    (h : fold s = fold t) : lower s = lower t :=
  map_eq_map_of (fun c hc d hd => lowerChar_eq_of_foldChar_eq (hs c hc) (ht d hd)) h

end Text

/-! ### Looking up classes -/

namespace SourceFile

variable {f : SourceFile} {name : Text}

/-- No two classes have the same fully qualified name up to case. -/
def NamesApart (f : SourceFile) : Prop :=
  f.classes.Pairwise fun c d => Text.equalFold (f.fqn c) (f.fqn d) = false

/-- A fully qualified name is looked up as the class that is equal to it up to case, and nothing is
found exactly if there is none. -/
def FindsUpToCase (f : SourceFile) (name : Text) : Prop :=
  (∀ i c, f.classes[i]? = some c →
    (f.lookup ([Text.backslash] ++ name) = some i ↔ Text.equalFold name (f.fqn c) = true)) ∧
  (f.lookup ([Text.backslash] ++ name) = none ↔
    ∀ c ∈ f.classes, Text.equalFold name (f.fqn c) = false)

/-- Something that holds of a name and of the fully qualified names of all classes. -/
def ForNames (f : SourceFile) (name : Text) (P : Text → Prop) : Prop :=
  P name ∧ ∀ c ∈ f.classes, P (f.fqn c)

instance (f : SourceFile) : Decidable f.NamesApart := inferInstanceAs (Decidable (List.Pairwise ..))

instance (f : SourceFile) (name : Text) (P : Text → Prop) [DecidablePred P] :
    Decidable (f.ForNames name P) := inferInstanceAs (Decidable (_ ∧ _))

/-- Without dotted capital I, what is found is equal up to case. -/
theorem equalFold_of_lookup (h : f.ForNames name Text.IsUndotted) {i : Nat} {c : ClassDecl}
    (hc : f.classes[i]? = some c) (hlookup : f.lookup ([Text.backslash] ++ name) = some i) :
    Text.equalFold name (f.fqn c) = true := by
  rw [lookup_eq_some_iff, resolveName_backslash] at hlookup
  obtain ⟨d, hd, hname⟩ := hlookup.named
  obtain rfl : c = d := Option.some.inj (hc.symm.trans hd)
  rw [Text.equalFold_iff]
  exact (Text.fold_eq_of_lower_eq (h.2 c (List.mem_of_getElem? hc)) h.1 hname).symm

/-- Without second lower-case forms, something is found for what is equal up to case. -/
theorem exists_lookup_of_equalFold (h : f.ForNames name Text.IsFirstForm) {c : ClassDecl}
    (hc : c ∈ f.classes) (hequal : Text.equalFold name (f.fqn c) = true) :
    ∃ i, f.lookup ([Text.backslash] ++ name) = some i := by
  rw [← Option.isSome_iff_exists, ← Option.ne_none_iff_isSome]
  intro hnone
  rw [lookup_eq_none_iff, resolveName_backslash] at hnone
  rw [Text.equalFold_iff] at hequal
  exact hnone c hc (Text.lower_eq_of_fold_eq h.1 (h.2 c hc) hequal).symm

theorem NamesApart.eq_of_equalFold (h : f.NamesApart) {i j : Nat} {c d : ClassDecl}
    (hc : f.classes[i]? = some c) (hd : f.classes[j]? = some d)
    (hequal : Text.equalFold name (f.fqn c) = true)
    (hequal' : Text.equalFold name (f.fqn d) = true) : i = j := by
  have hsame : Text.fold (f.fqn c) = Text.fold (f.fqn d) := by
    rw [Text.equalFold_iff] at hequal hequal'
    rw [← hequal, hequal']
  obtain ⟨hi, rfl⟩ := List.getElem?_eq_some_iff.mp hc
  obtain ⟨hj, rfl⟩ := List.getElem?_eq_some_iff.mp hd
  have hapart := List.pairwise_iff_getElem.mp h
  rcases Nat.lt_trichotomy i j with hlt | heq | hgt
  · have hfalse := hapart i j hi hj hlt
    rw [Text.equalFold_iff.mpr hsame] at hfalse
    cases hfalse
  · exact heq
  · have hfalse := hapart j i hj hi hgt
    rw [Text.equalFold_iff.mpr hsame.symm] at hfalse
    cases hfalse

/-- **Where the two notions of case agree.**  A fully qualified name is looked up as the last class
that has it in lower case.  So what is found is equal to it up to case, unless there is a dotted
capital I in one of the names, and nothing is missed, unless there is a second lower-case form.  If
there is neither, and no two classes have the same name up to case, then a lookup finds the class
that is equal up to case. -/
theorem lookup_in_lower_case (f : SourceFile) (name : Text) :
    (∀ i, f.lookup ([Text.backslash] ++ name) = some i ↔ f.IsLastNamed name i) ∧
    (f.ForNames name Text.IsUndotted → ∀ i c, f.classes[i]? = some c →
      f.lookup ([Text.backslash] ++ name) = some i → Text.equalFold name (f.fqn c) = true) ∧
    (f.ForNames name Text.IsFirstForm → ∀ c ∈ f.classes, Text.equalFold name (f.fqn c) = true →
      ∃ i, f.lookup ([Text.backslash] ++ name) = some i) ∧
    (f.ForNames name Text.IsUndotted → f.ForNames name Text.IsFirstForm → f.NamesApart →
      f.FindsUpToCase name) := by
  refine ⟨fun i => ?_, fun hdotted i c => equalFold_of_lookup hdotted,
    fun hfirst c => exists_lookup_of_equalFold hfirst, fun hdotted hfirst hapart => ⟨?_, ?_⟩⟩
  · rw [lookup_eq_some_iff, resolveName_backslash]
  · intro i c hc
    refine ⟨equalFold_of_lookup hdotted hc, fun hequal => ?_⟩
    obtain ⟨j, hj⟩ := exists_lookup_of_equalFold hfirst (List.mem_of_getElem? hc) hequal
    obtain ⟨d, hd, -⟩ := (lookup_eq_some_iff.mp hj).named
    rw [hj, hapart.eq_of_equalFold hc hd hequal (equalFold_of_lookup hdotted hd hj)]
  · constructor
    · intro hnone c hc
      rw [← Bool.not_eq_true]
      intro hequal
      obtain ⟨i, hi⟩ := exists_lookup_of_equalFold hfirst hc hequal
      rw [hnone] at hi
      cases hi
    · intro hall
      cases hlookup : f.lookup ([Text.backslash] ++ name) with
      | none => rfl
      | some i =>
        obtain ⟨c, hc, -⟩ := (lookup_eq_some_iff.mp hlookup).named
        have hequal := equalFold_of_lookup hdotted hc hlookup
        rw [hall c (List.mem_of_getElem? hc)] at hequal
        cases hequal

/-- A class with a method, and a class that names it as its parent in capitals. -/
def withParentInCapitals (name inCapitals : Text) : SourceFile where
  ns := []
  uses := []
  classes := [⟨name, false, [], [⟨"m", none, [], [], false⟩], []⟩,
    ⟨"Sub", false, [[Text.backslash] ++ inCapitals], [⟨"m", none, [], [], false⟩], []⟩]

/-- Most letters have one lower-case form. -/
theorem lookup_in_lower_case_sample :
    (withParentInCapitals "Größe" "GRÖẞE").ForNames "GRÖẞE" Text.IsUndotted ∧
      (withParentInCapitals "Größe" "GRÖẞE").ForNames "GRÖẞE" Text.IsFirstForm ∧
      (withParentInCapitals "Größe" "GRÖẞE").NamesApart ∧
      (withParentInCapitals "Größe" "GRÖẞE").lookup "\\GRÖẞE" = some 0 := by
  have hdotted : (withParentInCapitals "Größe" "GRÖẞE").ForNames "GRÖẞE" Text.IsUndotted := by
    decide +kernel
  have hfirst : (withParentInCapitals "Größe" "GRÖẞE").ForNames "GRÖẞE" Text.IsFirstForm := by
    decide +kernel
  have hapart : (withParentInCapitals "Größe" "GRÖẞE").NamesApart := by decide +kernel
  have hfinds := (lookup_in_lower_case _ _).2.2.2 hdotted hfirst hapart
  exact ⟨hdotted, hfirst, hapart, (hfinds.1 0 _ rfl).mpr (by decide +kernel)⟩

/-- A class whose name ends in the final form of sigma is not found by its name in capitals, and a
class whose name is the dotted capital I is found by the letter without the dot. -/
theorem lookup_not_up_to_case :
    ((withParentInCapitals "Λόγος" "ΛΌΓΟΣ").NamesApart ∧
      ¬ (withParentInCapitals "Λόγος" "ΛΌΓΟΣ").FindsUpToCase "ΛΌΓΟΣ") ∧
    (withParentInCapitals "İ" "I").NamesApart ∧
      ¬ (withParentInCapitals "İ" "I").FindsUpToCase "I" := by
  refine ⟨⟨by decide +kernel, fun h => ?_⟩, by decide +kernel, fun h => ?_⟩
  · have hfound := (h.1 0 _ rfl).mpr (by decide +kernel)
    have hmissed : (withParentInCapitals "Λόγος" "ΛΌΓΟΣ").lookup
        ([Text.backslash] ++ "ΛΌΓΟΣ") = none := by decide +kernel
    rw [hmissed] at hfound
    cases hfound
  · have hequal := (h.1 0 _ rfl).mp (by decide +kernel)
    revert hequal
    decide +kernel

end SourceFile

end DocPromotion
