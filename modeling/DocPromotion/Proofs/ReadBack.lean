import DocPromotion.Yaml.Printer
import DocPromotion.Yaml.Reader
import Mathlib

/-!
Documents that are read as what was written.

Printing and reading are only assumed to fit together, and only where this is needed: of a node
that is written, `Yaml.readsBack` says that its text is read as a document with the same tree.  The
trees agree in everything but the lines of nodes, and a text that is not UTF-8 is written as a
scalar in base 64 (`Node.isReadAs`).  That such a scalar stands for the text is not assumed
(`ofBase64?_base64Lines`).
-/

namespace DocPromotion

/-! ### Base 64 -/

namespace Text

theorem base64Value?_base64Char {n : Nat} (h : n < 64) :
    base64Value? (base64Char n) = some n := by
  have hall : ∀ x : Fin 64, base64Value? (base64Char x.val) = some x.val := by decide +kernel
  exact hall ⟨n, h⟩

theorem base64Char_ne {n : Nat} (h : n < 64) :
    base64Char n ≠ '=' ∧ base64Char n ≠ '\n' ∧ base64Char n ≠ '\r' := by
  have hall : ∀ x : Fin 64, base64Char x.val ≠ '=' ∧ base64Char x.val ≠ '\n' ∧
      base64Char x.val ≠ '\r' := by decide +kernel
  exact hall ⟨n, h⟩

theorem toUInt8_toNat (a : UInt8) {n : Nat} (h : n = a.toNat) : n.toUInt8 = a := by
  rw [h]
  exact UInt8.ofNat_toNat

/-- Groups of characters are read back as the bytes that they write. -/
theorem base64Groups?_toBase64 (t : Text) : base64Groups? (toBase64 t) = some t := by
  fun_induction toBase64 t with
  | case1 => rfl
  | case2 a n =>
    have ha := a.toNat_lt
    rw [base64Groups?, base64Value?_base64Char (n := n / 64) (by omega),
      base64Value?_base64Char (n := n % 64) (by omega)]
    simp only [Option.bind_eq_bind, Option.bind_some, Option.pure_def, Option.some.injEq,
      List.cons.injEq, and_true]
    exact toUInt8_toNat a (by omega)
  | case3 a b n =>
    have ha := a.toNat_lt
    have hb := b.toNat_lt
    rw [base64Groups?, base64Value?_base64Char (n := n / 4096) (by omega),
      base64Value?_base64Char (n := n / 64 % 64) (by omega),
      base64Value?_base64Char (n := n % 64) (by omega)]
    · simp only [Option.bind_eq_bind, Option.bind_some, Option.pure_def, Option.some.injEq,
        List.cons.injEq, and_true]
      exact ⟨toUInt8_toNat a (by omega), toUInt8_toNat b (by omega)⟩
    · exact (base64Char_ne (by omega)).1
  | case4 a b c rest n ih =>
    have ha := a.toNat_lt
    have hb := b.toNat_lt
    have hc := c.toNat_lt
    rw [base64Groups?, base64Value?_base64Char (n := n / 262144) (by omega),
      base64Value?_base64Char (n := n / 4096 % 64) (by omega),
      base64Value?_base64Char (n := n / 64 % 64) (by omega),
      base64Value?_base64Char (n := n % 64) (by omega), ih]
    · simp only [Option.bind_eq_bind, Option.bind_some, Option.pure_def, Option.some.injEq,
        List.cons.injEq, and_true]
      exact ⟨toUInt8_toNat a (by omega), toUInt8_toNat b (by omega), toUInt8_toNat c (by omega)⟩
    · intro hpad
      exact absurd hpad (base64Char_ne (by omega)).1
    · intro hpad
      exact absurd hpad (base64Char_ne (by omega)).1

/-- No character in base 64 is a line break. -/
theorem not_isBreak_of_mem_toBase64 {t : Text} {x : Char} (h : x ∈ toBase64 t) :
    (x != '\n' && x != '\r') = true := by
  have hchar : ∀ {n : Nat}, n < 64 → (base64Char n != '\n' && base64Char n != '\r') = true := by
    intro n hn
    simp [(base64Char_ne hn).2]
  fun_induction toBase64 t with
  | case1 => cases h
  | case2 a n =>
    have ha := a.toNat_lt
    simp only [List.mem_cons, List.not_mem_nil, or_false] at h
    rcases h with rfl | rfl | rfl | rfl
    · exact hchar (by omega)
    · exact hchar (by omega)
    · decide
    · decide
  | case3 a b n =>
    have ha := a.toNat_lt
    have hb := b.toNat_lt
    simp only [List.mem_cons, List.not_mem_nil, or_false] at h
    rcases h with rfl | rfl | rfl | rfl
    · exact hchar (by omega)
    · exact hchar (by omega)
    · exact hchar (by omega)
    · decide
  | case4 a b c rest n ih =>
    have ha := a.toNat_lt
    have hb := b.toNat_lt
    have hc := c.toNat_lt
    simp only [List.mem_cons] at h
    rcases h with rfl | rfl | rfl | rfl | h
    · exact hchar (by omega)
    · exact hchar (by omega)
    · exact hchar (by omega)
    · exact hchar (by omega)
    · exact ih h

end Text

namespace Yaml

/-- Breaking lines adds line breaks only. -/
theorem filter_breakLines (width : Nat) (cs : List Char) (room : Nat)
    (h : ∀ c ∈ cs, (c != '\n' && c != '\r') = true) :
    (breakLines width room cs).filter (fun c => c != '\n' && c != '\r') = cs := by
  fun_induction breakLines width room cs with
  | case1 => rfl
  | case2 c cs ih =>
    rw [List.forall_mem_cons] at h
    rw [List.filter_cons_of_neg (by decide), List.filter_cons, if_pos h.1, ih h.2]
  | case3 room c cs ih =>
    rw [List.forall_mem_cons] at h
    rw [List.filter_cons, if_pos h.1, ih h.2]

/-- **Bytes in base 64 are read back.** -/
theorem ofBase64?_base64Lines (t : Text) : Text.ofBase64? (base64Lines t) = some t := by
  have hchars : ∀ c ∈ Text.toBase64 t, (c != '\n' && c != '\r') = true :=
    fun c hc => Text.not_isBreak_of_mem_toBase64 hc
  have hlines : (base64Lines t).filter (fun c => c != '\n' && c != '\r') = Text.toBase64 t := by
    unfold base64Lines
    dsimp only
    split
    · exact List.filter_eq_self.mpr hchars
    · exact filter_breakLines _ _ _ hchars
  rw [Text.ofBase64?, hlines, Text.base64Groups?_toBase64]

/-! ### Trees -/

/-- What is written for a scalar, as it is read: a text that is not UTF-8 is one in base 64. -/
def writtenScalar (d : Meaning) (value : Text) : Meaning × Text :=
  match d with
  | .text =>
    if Text.isValid value then (.text, value) else (.binary, Text.ofChars (base64Lines value))
  | d => (d, value)

/-- What is written for a text that is a key. -/
def writtenKey (t : Text) : Text := (writtenScalar .text t).2

namespace Node

mutual

/-- Whether a node has been read for one that was written: it has the same tree. -/
def isReadAs : Node → Node → Bool
  | .scalar _ d value, .scalar _ d' value' => (d', value') == writtenScalar d value
  | .sequence _ _ items, .sequence _ none items' => itemsReadAs items items'
  | .mapping _ _ entries, .mapping _ none entries' => entriesReadAs entries entries'
  | _, _ => false

/-- Whether items have been read for those that were written. -/
def itemsReadAs : List Node → List Node → Bool
  | [], [] => true
  | n :: ns, n' :: ns' => n.isReadAs n' && itemsReadAs ns ns'
  | _, _ => false

/-- Whether entries have been read for those that were written. -/
def entriesReadAs : List (Node × Node) → List (Node × Node) → Bool
  | [], [] => true
  | (k, v) :: entries, (k', v') :: entries' =>
    k.isReadAs k' && v.isReadAs v' && entriesReadAs entries entries'
  | _, _ => false

end

/-- An entry that has been read for one that was written. -/
def EntryReadAs (e e' : Node × Node) : Prop :=
  e.1.isReadAs e'.1 = true ∧ e.2.isReadAs e'.2 = true

theorem forall₂_of_itemsReadAs {ns ns' : List Node} (h : itemsReadAs ns ns' = true) :
    List.Forall₂ (fun n n' => n.isReadAs n' = true) ns ns' := by
  induction ns generalizing ns' with
  | nil =>
    cases ns' with
    | nil => exact .nil
    | cons n' ns' => cases h
  | cons n ns ih =>
    cases ns' with
    | nil => cases h
    | cons n' ns' =>
      rw [itemsReadAs, Bool.and_eq_true] at h
      exact .cons h.1 (ih h.2)

theorem forall₂_of_entriesReadAs {entries entries' : List (Node × Node)}
    (h : entriesReadAs entries entries' = true) : List.Forall₂ EntryReadAs entries entries' := by
  induction entries generalizing entries' with
  | nil =>
    cases entries' with
    | nil => exact .nil
    | cons e' entries' => cases h
  | cons e entries ih =>
    cases entries' with
    | nil => cases h
    | cons e' entries' =>
      obtain ⟨k, v⟩ := e
      obtain ⟨k', v'⟩ := e'
      rw [entriesReadAs, Bool.and_eq_true, Bool.and_eq_true] at h
      exact .cons h.1 (ih h.2)

/-! One lemma for each kind of node that is written. -/

theorem isReadAs_text {t : Text} {n : Node} (h : (text t).isReadAs n = true) :
    ∃ line, n = .scalar line (writtenScalar .text t).1 (writtenScalar .text t).2 := by
  cases n with
  | scalar line d value =>
    rw [text, isReadAs, beq_iff_eq] at h
    exact ⟨line, by rw [← h]⟩
  | _ => cases h

theorem isReadAs_bool {b : Bool} {n : Node} (h : (bool b).isReadAs n = true) :
    ∃ line value, n = .scalar line (.bool b) value := by
  cases n with
  | scalar line d value =>
    rw [bool, isReadAs, beq_iff_eq] at h
    obtain ⟨rfl, -⟩ := Prod.mk.inj h
    exact ⟨line, value, rfl⟩
  | _ => cases h

theorem isReadAs_list {items : List Node} {n : Node} (h : (list items).isReadAs n = true) :
    ∃ line items', n = .sequence line none items' ∧
      List.Forall₂ (fun n n' => n.isReadAs n' = true) items items' := by
  cases n with
  | sequence line tag? items' =>
    cases tag? with
    | none => exact ⟨line, items', rfl, forall₂_of_itemsReadAs h⟩
    | some tag => cases h
  | _ => cases h

theorem isReadAs_map {entries : List (Node × Node)} {n : Node}
    (h : (map entries).isReadAs n = true) :
    ∃ line entries', n = .mapping line none entries' ∧
      List.Forall₂ EntryReadAs entries entries' := by
  cases n with
  | mapping line tag? entries' =>
    cases tag? with
    | none => exact ⟨line, entries', rfl, forall₂_of_entriesReadAs h⟩
    | some tag => cases h
  | _ => cases h

theorem isReadAs_map_ne_alias {entries : List (Node × Node)} {n : Node}
    (h : (map entries).isReadAs n = true) :
    ∀ line name number anchor, n ≠ .alias line name number anchor := by
  obtain ⟨line, entries', rfl, -⟩ := isReadAs_map h
  exact nofun

end Node

/-- Whether the text of a node is read as a document with the same tree. -/
def readsBack (n : Node) : Bool :=
  match Document.read n.render with
  | .ok (some d) => n.isReadAs d.root
  | _ => false

theorem exists_document_of_readsBack {n : Node} (h : readsBack n = true) :
    ∃ d, Document.read n.render = .ok (some d) ∧ n.isReadAs d.root = true := by
  unfold readsBack at h
  split at h
  next d hd => exact ⟨d, hd, h⟩
  next => cases h

end Yaml

end DocPromotion
