import DocPromotion.Proofs.RoundTrip
import DocPromotion.Settings.Format

/-!
The text of a source file makes no settings.

Settings are read from a mapping with any values, and a file has all kinds of them.  So nothing is
said here about what is read exactly, or whether there is a problem: `Returns` only says what a
decoder returns if it returns at all.  What is read from the text of a file has a key for its
classes (`SourceFile.returns_readNode`), and there is no setting with this key
(`Settings.ofRaw_of_unknown`).
-/

namespace DocPromotion

open Yaml (Node Document)
open DecodeM (visit count)

/-! ### What a decoder returns -/

/-- What a decoder returns, if it returns anything. -/
def Returns {α : Type} (c : DecodeContext) (m : DecodeM α) (P : α → Prop) : Prop :=
  ∀ s a s', m c s = .ok (a, s') → P a

section

variable {α β : Type} {c : DecodeContext} {P : α → Prop} {Q : β → Prop}

theorem returns_pure {a : α} (h : P a) : Returns c (pure a) P := by
  intro s a' s' hrun
  obtain ⟨rfl, -⟩ := Prod.mk.inj (Except.ok.inj hrun)
  exact h

theorem Returns.bind {m : DecodeM α} {f : α → DecodeM β} (hm : Returns c m P)
    (hf : ∀ a, P a → Returns c (f a) Q) : Returns c (m >>= f) Q := by
  intro s b s'' hrun
  change (m c s >>= fun p => f p.1 c p.2) = _ at hrun
  cases hfirst : m c s with
  | error e =>
    rw [hfirst] at hrun
    cases hrun
  | ok r =>
    rw [hfirst] at hrun
    exact hf r.1 (hm s r.1 r.2 hfirst) r.2 b s'' hrun

/-- A decoder may depend on the document and on its fuel. -/
theorem returns_bind_read {f : DecodeContext → DecodeM α} (h : Returns c (f c) P) :
    Returns c (readThe DecodeContext >>= f) P := h

theorem returns_trivial (m : DecodeM α) : Returns c m fun _ => True := fun _ _ _ _ => trivial

theorem returns_visit {n : Node} {read : Node → DecodeM α}
    (hn : ∀ line name number anchor, n ≠ .alias line name number anchor)
    (h : Returns c (read n) P) : Returns c (visit n read) P := by
  rw [visit_eq read hn]
  exact (returns_trivial count).bind fun _ _ => h

theorem returns_readText {t : Text} {n : Node} (h : (Node.text t).isReadAs n = true) :
    Returns c (readText n) (· = some t) := by
  obtain ⟨line, rfl⟩ := Node.isReadAs_text h
  refine returns_visit nofun ?_
  rw [readScalar_text]
  exact returns_pure rfl

/-- Entries that keep an invariant, and a last one that makes something of it. -/
theorem returns_readOwn {read : EntryReader α} {I R : Progress α → Prop} {k v : Node}
    {entries : List (Node × Node)} {p : Progress α}
    (hmerge : ∀ e ∈ entries ++ [(k, v)], e.1.isMerge = false)
    (hstep : ∀ k v p, I p → Returns c (read k v p) I)
    (hlast : ∀ p, I p → Returns c (read k v p) R) (hp : I p) :
    Returns c (readOwn read none p (entries ++ [(k, v)])) fun r => r.2 = none ∧ R r.1 := by
  induction entries generalizing p with
  | nil =>
    rw [List.nil_append, readOwn, hmerge (k, v) List.mem_cons_self]
    exact (hlast p hp).bind fun p' hp' => returns_pure ⟨rfl, hp'⟩
  | cons e entries ih =>
    obtain ⟨k', v'⟩ := e
    rw [List.cons_append, List.forall_mem_cons] at hmerge
    rw [List.cons_append, readOwn, hmerge.1]
    exact (hstep k' v' p hp).bind fun p' hp' => ih hmerge.2 hp'

end

/-! ### Source files are no settings files -/

namespace Settings

/-- Settings with an unknown key are refused. -/
theorem readEntries_of_unknown {s s' : Settings} {entries : List (Text × RawValue)}
    {e : Text × RawValue} (he : e ∈ entries) (hkey : Field.ofKey? (Text.repair e.1) = none) :
    s.readEntries entries ≠ .ok s' := by
  induction entries generalizing s with
  | nil => cases he
  | cons first entries ih =>
    obtain ⟨name, v⟩ := first
    intro hread
    rw [readEntries] at hread
    cases hfield : Field.ofKey? (Text.repair name) with
    | none =>
      simp only [hfield] at hread
      cases hread
    | some field =>
      simp only [hfield] at hread
      cases hset : s.setField field v with
      | error error =>
        rw [hset] at hread
        cases hread
      | ok next =>
        rw [hset] at hread
        rcases List.mem_cons.mp he with rfl | hrest
        · rw [hfield] at hkey
          cases hkey
        · exact ih hrest hread

theorem mem_ofTextEntries {entries : List (Text × Value)} {name : Text} {value : Value}
    (h : (name, value) ∈ entries) :
    (name, RawValue.ofValue value) ∈ RawValue.ofTextEntries entries := by
  induction entries with
  | nil => cases h
  | cons e entries ih =>
    obtain ⟨name', value'⟩ := e
    rw [RawValue.ofTextEntries]
    rcases List.mem_cons.mp h with hfirst | hrest
    · obtain ⟨rfl, rfl⟩ := Prod.mk.inj hfirst
      exact List.mem_cons_self
    · exact List.mem_cons_of_mem _ (ih hrest)

theorem ofRaw_of_unknown {s : Settings} {entries : List (Text × Value)} {name : Text}
    {value : Value} (h : (name, value) ∈ entries)
    (hkey : Field.ofKey? (Text.repair name) = none) :
    ofRaw (.ofValue (.textMap entries)) ≠ .ok s := by
  intro hraw
  rw [RawValue.ofValue, RawValue.ofEntries, ofRaw] at hraw
  generalize hsorted : (RawValue.ofTextEntries entries).mergeSort (fun a b => decide (a.1 ≤ b.1)) =
    sorted at hraw
  -- entries are sorted before they are read, but none is lost
  have hmem : (name, RawValue.ofValue value) ∈ sorted := by
    rw [← hsorted, List.mem_mergeSort]
    exact mem_ofTextEntries h
  cases hwritten : (RawValue.map sorted).writtenTo [] 0 with
  | error e =>
    rw [hwritten] at hraw
    cases hraw
  | ok stop =>
    rw [hwritten] at hraw
    exact readEntries_of_unknown hmem hkey hraw

/-- Reading an entry of a map does not start a merge. -/
theorem returns_readTextEntry {c : DecodeContext} {read : Node → DecodeM (Option Value)} (k v : Node)
    {p : Progress (List (Text × Value))} (hp : p.seen? = none) :
    Returns c (Value.readTextEntry read k v p) (·.seen? = none) := by
  refine (returns_trivial _).bind fun name? _ => ?_
  cases name? with
  | none => exact returns_pure hp
  | some name =>
    simp only [Progress.see, hp]
    refine (returns_trivial _).bind fun value? _ => ?_
    cases value? with
    | none => exact returns_pure hp
    | some value => exact returns_pure rfl

/-- Some value is read for a sequence. -/
theorem returns_readTextEntry_sequence {c : DecodeContext} {fuel line : Nat} {key : Text} {k : Node}
    {items : List Node} (hk : (Node.text key).isReadAs k = true)
    {p : Progress (List (Text × Value))} (hp : p.seen? = none) :
    Returns c (Value.readTextEntry (Value.read (fuel + 1)) k (.sequence line none items) p)
      fun p' => ∃ value, (key, value) ∈ p'.value := by
  refine (returns_readText hk).bind ?_
  rintro _ rfl
  simp only [Progress.see, hp]
  have hsequence : ∀ line' name number anchor,
      Node.sequence line none items ≠ .alias line' name number anchor := by
    intro line' name number anchor hsame
    cases hsame
  have hvalue : Returns c (Value.read (fuel + 1) (.sequence line none items))
      (·.isSome = true) := by
    rw [Value.read]
    exact returns_visit hsequence ((returns_trivial _).bind fun _ _ => returns_pure rfl)
  refine hvalue.bind fun value? hsome => ?_
  obtain ⟨value, rfl⟩ := Option.isSome_iff_exists.mp hsome
  exact returns_pure ⟨value, List.mem_append_right _ List.mem_cons_self⟩

end Settings

namespace SourceFile

/-- The fields of a file: the classes are the last one. -/
theorem exists_fields (f : SourceFile) : ∃ (es : List (Node × Node)) (keys : List Text),
    f.toNode = .map (es ++ field "classes" (.list (f.classes.map ClassDecl.toNode))) ∧
      (es ++ field "classes" (.list (f.classes.map ClassDecl.toNode))).map Prod.fst =
        keys.map Node.text ∧
      keys.Sublist ["namespace", "uses", "classes"] := by
  refine ⟨textField "namespace" f.ns ++ usesField f.uses, ?_⟩
  unfold toNode textField usesField
  split
  · split
    · exact ⟨["classes"], rfl, rfl, by simp⟩
    · exact ⟨["uses", "classes"], rfl, rfl, by simp⟩
  · split
    · exact ⟨["namespace", "classes"], rfl, rfl, by simp⟩
    · exact ⟨["namespace", "uses", "classes"], rfl, rfl, by simp⟩

/-- The classes are among what is read as settings. -/
theorem returns_readNode {f : SourceFile} {n : Node} (h : f.toNode.isReadAs n = true)
    {c : DecodeContext} (hfuel : 0 < c.fuel) :
    Returns c (Settings.readNode n) fun entries? =>
      ∃ entries value, entries? = some entries ∧ (Text.ofString "classes", value) ∈ entries := by
  obtain ⟨es, keys, hnode, hfields, hsub⟩ := f.exists_fields
  rw [hnode] at h
  have hroot := Node.isReadAs_map_ne_alias h
  obtain ⟨line, es', rfl, hes⟩ := Node.isReadAs_map h
  have hkeys : KeysReadAs keys es' := .of_entries hes hfields
  have hnodup : (List.map Yaml.writtenKey ["namespace", "uses", "classes"]).Nodup := by
    decide +kernel
  have hdistinct : duplicateKeys (es'.map Prod.fst) = [] :=
    duplicateKeys_eq_nil_iff.mpr (hkeys.nodup_iff.mpr ((hsub.map _).nodup hnodup))
  -- the last entry is that of the classes, which are a sequence
  obtain ⟨entries, last, rfl, -, hlast⟩ := exists_append_of_forall₂ hes
  obtain ⟨⟨k, v⟩, rest, ⟨hk, hv⟩, hrest, rfl⟩ := List.forall₂_cons_left_iff.mp hlast
  cases hrest
  obtain ⟨line', items, rfl, -⟩ := Node.isReadAs_list hv
  obtain ⟨fuel, hsucc⟩ := Nat.exists_eq_succ_of_ne_zero (Nat.ne_of_gt hfuel)
  -- the entries before it may be anything, as long as no merge has been started
  have hstep : ∀ k v (p : Progress (List (Text × Value))), p.seen? = none →
      Returns c (Value.readTextEntry (Value.read c.fuel) k v p) (·.seen? = none) :=
    fun k v p hp => Settings.returns_readTextEntry k v hp
  have hclasses : ∀ p : Progress (List (Text × Value)), p.seen? = none →
      Returns c (Value.readTextEntry (Value.read c.fuel) k (.sequence line' none items) p)
        fun p' => ∃ value, (Text.ofString "classes", value) ∈ p'.value := by
    intro p hp
    rw [hsucc]
    exact Settings.returns_readTextEntry_sequence hk hp
  have hentries : Returns c (readEntries (Value.readTextEntry (Value.read c.fuel)) c.fuel
      (entries ++ [(k, .sequence line' none items)]) ⟨[], [], none⟩)
      fun p? => ∃ p value, p? = some p ∧ (Text.ofString "classes", value) ∈ p.value := by
    have hown := returns_readOwn (p := ⟨[], [], none⟩) hkeys.isMerge hstep hclasses rfl
    nth_rewrite 2 [hsucc]
    rw [readEntries, hdistinct]
    refine hown.bind fun r hr => ?_
    obtain ⟨p, merge?⟩ := r
    obtain ⟨rfl, value, hvalue⟩ := hr
    exact returns_pure ⟨p, value, rfl, hvalue⟩
  refine returns_visit hroot (returns_bind_read (returns_bind_read (hentries.bind fun p? hp? => ?_)))
  obtain ⟨p, value, rfl, hvalue⟩ := hp?
  exact returns_pure ⟨p.value, value, rfl, hvalue⟩

/-- **The text of a file is not that of settings**, which have no classes. -/
theorem settings_load_encode {f : SourceFile} (h : Yaml.readsBack f.toNode = true) (s : Settings) :
    Settings.load f.encode ≠ .ok s := by
  obtain ⟨d, hd, hroot⟩ := Yaml.exists_document_of_readsBack h
  intro hload
  rw [Settings.load, encode, hd] at hload
  simp only [Settings.ofDocument, decode, ReaderT.run, StateT.run] at hload
  cases hrun : Settings.readNode d.root (.ofDocument d) .start with
  | error e =>
    rw [hrun] at hload
    cases hload
  | ok r =>
    obtain ⟨entries, value, hsome, hmem⟩ := returns_readNode hroot (fuel_pos d) .start r.1 r.2 hrun
    rw [hrun] at hload
    obtain ⟨entries?, s'⟩ := r
    obtain rfl : entries? = some entries := hsome
    dsimp only at hload
    cases hproblems : s'.problems.isEmpty with
    | false =>
      rw [hproblems] at hload
      cases hload
    | true =>
      rw [hproblems] at hload
      change (Settings.ofRaw (.ofValue (.textMap entries))).mapError _ = _ at hload
      cases hraw : Settings.ofRaw (.ofValue (.textMap entries)) with
      | error e =>
        rw [hraw] at hload
        cases hload
      | ok s => exact Settings.ofRaw_of_unknown hmem (by decide +kernel) hraw

end SourceFile

end DocPromotion
