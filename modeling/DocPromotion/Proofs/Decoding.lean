import DocPromotion.Decoder
import DocPromotion.Proofs.ReadBack
import DocPromotion.Proofs.Utf8

/-!
Decoders on documents that are as they should be.

Most of what a decoder does is about documents that nobody writes: problems are noted, aliases are
followed and counted, mappings are merged.  On a node without any of this it only counts nodes and
has a result.  `Yields` says so, and there is one lemma about it for each kind of reader.  A reader
that notes a problem on the way has a result as well (`Notes`).  Both are cases of `Decodes`, which
leaves open what becomes of the problems.

The fields of a record are read one after the other, and a field without a value is not written.
`Turns` says of the fields of a part of a record that reading them turns one value into another,
so that a record is put together from its fields (`Turns.append`, `yields_readRecord`).
-/

namespace DocPromotion

open Yaml (Node Meaning Document)
open DecodeM (visit count note refuse)

/-! ### Decoders without aliases -/

/-- A decoder that counts nodes and has a result, whatever the document.  `P` says what becomes of
the problems that have been noted.  The decoder may need some fuel, and it is not reached through an
alias. -/
def Decodes {α : Type} (P : List FormatProblem → List FormatProblem → Prop) (m : DecodeM α)
    (a : α) : Prop :=
  ∀ (c : DecodeContext) (s : DecodeState), 0 < c.fuel → s.following = [] → s.aliased = 0 →
    ∃ visits problems, P s.problems problems ∧
      m c s = .ok (a, { s with visits := visits, problems := problems })

/-- A decoder that has a result and does not note any problem. -/
def Yields {α : Type} (m : DecodeM α) (a : α) : Prop :=
  Decodes (fun before after => after = before) m a

/-- A decoder that has a result as well, but notes a problem. -/
def Notes {α : Type} (m : DecodeM α) (a : α) : Prop := Decodes (fun _ after => after ≠ []) m a

section

variable {α β : Type} {a : α} {b : β} {P : List FormatProblem → List FormatProblem → Prop}

theorem yields_pure (a : α) : Yields (pure a) a :=
  fun _ s _ _ _ => ⟨s.visits, s.problems, rfl, rfl⟩

theorem Yields.bind {m : DecodeM α} {f : α → DecodeM β} (hm : Yields m a)
    (hf : Decodes P (f a) b) : Decodes P (m >>= f) b := by
  intro c s hfuel hfollowing haliased
  obtain ⟨visits, problems, rfl, hm⟩ := hm c s hfuel hfollowing haliased
  obtain ⟨visits', problems', hP, hf⟩ := hf c { s with visits := visits } hfuel hfollowing haliased
  refine ⟨visits', problems', hP, ?_⟩
  show (m c s >>= fun p => f p.1 c p.2) = _
  rw [hm]
  exact hf

theorem Decodes.bind_yields {m : DecodeM α} {f : α → DecodeM β} (hm : Decodes P m a)
    (hf : Yields (f a) b) : Decodes P (m >>= f) b := by
  intro c s hfuel hfollowing haliased
  obtain ⟨visits, problems, hP, hm⟩ := hm c s hfuel hfollowing haliased
  obtain ⟨visits', _, rfl, hf⟩ := hf c { s with visits := visits, problems := problems } hfuel
    hfollowing haliased
  refine ⟨visits', _, hP, ?_⟩
  show (m c s >>= fun p => f p.1 c p.2) = _
  rw [hm]
  exact hf

/-- A decoder may depend on the document and on its fuel. -/
theorem decodes_bind_read {f : DecodeContext → DecodeM β}
    (h : ∀ c, 0 < c.fuel → Decodes P (f c) b) : Decodes P (readThe DecodeContext >>= f) b := by
  intro c s hfuel hfollowing haliased
  exact h c hfuel c s hfuel hfollowing haliased

/-- As long as no alias is followed, there are never too many nodes. -/
theorem yields_count : Yields count () := by
  intro c s hfuel hfollowing haliased
  refine ⟨s.visits + 1, s.problems, rfl, ?_⟩
  have hcount : count c s =
      (if DecodeM.isExcessive { s with
          visits := s.visits + 1
          aliased := if s.following.isEmpty then s.aliased else s.aliased + 1 } then
        throw .excessiveAliasing
      else set { s with
          visits := s.visits + 1
          aliased := if s.following.isEmpty then s.aliased else s.aliased + 1 } :
        DecodeM Unit) c s := rfl
  have hfew : DecodeM.isExcessive { s with visits := s.visits + 1, aliased := s.aliased } =
      false := by
    simp [DecodeM.isExcessive, haliased]
  rw [hcount]
  simp only [hfollowing, List.isEmpty_nil, if_true] at hfew ⊢
  rw [hfew]
  rfl

/-- What is not an alias is decoded as it stands. -/
theorem visit_eq {n : Node} (read : Node → DecodeM α)
    (hn : ∀ line name number anchor, n ≠ .alias line name number anchor) :
    visit n read = (do count; read n) := by
  match n with
  | .alias line name number anchor => exact absurd rfl (hn line name number anchor)
  | .scalar _ _ _ => rfl
  | .sequence _ _ _ => rfl
  | .mapping _ _ _ => rfl

theorem decodes_visit {n : Node} {read : Node → DecodeM α}
    (hn : ∀ line name number anchor, n ≠ .alias line name number anchor)
    (h : Decodes P (read n) a) : Decodes P (visit n read) a := by
  rw [visit_eq read hn]
  exact yields_count.bind h

/-! ### Scalars -/

/-- The scalar that is written for a text stands for the text. -/
theorem settle_writtenScalar (t : Text) :
    settle (Yaml.writtenScalar .text t).1 (Yaml.writtenScalar .text t).2 = pure t := by
  unfold Yaml.writtenScalar
  dsimp only
  split
  · rfl
  · rw [settle, Text.chars_ofChars, Yaml.ofBase64?_base64Lines]

theorem writtenScalar_ne_null (t : Text) : (Yaml.writtenScalar .text t).1 ≠ .null := by
  unfold Yaml.writtenScalar
  dsimp only
  split
  · nofun
  · nofun

theorem readScalar_eq_pure {content : Content} {line : Nat} {d : Meaning} {value t : Text}
    {read : Meaning → Text → Option α} (hsettle : settle d value = pure t) (hnull : d ≠ .null)
    (hread : read d t = some a) :
    readScalar content (.scalar line d value) read = pure (some a) := by
  have hnull : (d == .null) = false := by simpa using hnull
  rw [readScalar, hsettle, pure_bind, hnull, hread]
  rfl

/-- The text of a scalar that was written for it. -/
theorem readScalar_text {t : Text} {line : Nat} :
    readScalar .text (.scalar line (Yaml.writtenScalar .text t).1 (Yaml.writtenScalar .text t).2)
      (fun _ t => some t) = pure (some t) :=
  readScalar_eq_pure (settle_writtenScalar t) (writtenScalar_ne_null t) rfl

/-- **A text is read back.** -/
theorem yields_readText {t : Text} {n : Node} (h : (Node.text t).isReadAs n = true) :
    Yields (readText n) (some t) := by
  obtain ⟨line, rfl⟩ := Node.isReadAs_text h
  refine decodes_visit nofun ?_
  rw [readScalar_text]
  exact yields_pure (some t)

theorem yields_readBool {b : Bool} {n : Node} (h : (Node.bool b).isReadAs n = true) :
    Yields (readBool n) (some b) := by
  obtain ⟨line, value, rfl⟩ := Node.isReadAs_bool h
  have hread : readScalar .truth (.scalar line (.bool b) value) truthOf = pure (some b) :=
    readScalar_eq_pure rfl nofun rfl
  refine decodes_visit nofun ?_
  rw [hread]
  exact yields_pure (some b)

/-! ### Lists -/

theorem yields_readItems {read : Node → DecodeM (Option α)} {as : List α} {ns : List Node}
    (h : List.Forall₂ (fun a n => Yields (read n) (some a)) as ns) :
    Yields (readItems read ns) as := by
  induction h with
  | nil => exact yields_pure []
  | cons hn _ ih => exact hn.bind (ih.bind (yields_pure _))

/-- **A list is read back if its items are.** -/
theorem yields_readList {item : Content} {read : Node → DecodeM (Option β)} {write : α → Node}
    {norm : α → β} (hread : ∀ a n, (write a).isReadAs n = true → Yields (read n) (some (norm a)))
    {as : List α} {n : Node} (h : (Node.list (as.map write)).isReadAs n = true) :
    Yields (readList item read n) (some (as.map norm)) := by
  obtain ⟨line, items, rfl, hitems⟩ := Node.isReadAs_list h
  refine decodes_visit nofun (Decodes.bind_yields (yields_readItems ?_) (yields_pure _))
  rw [List.forall₂_map_left_iff] at hitems ⊢
  exact hitems.imp hread

/-! ### Mappings -/

/-- Keys are a problem if one of them is given twice. -/
theorem duplicateKeys_eq_nil_iff {entries : List (Node × Node)} :
    duplicateKeys (entries.map Prod.fst) = [] ↔
      (entries.map fun e => keyIdentity e.1).Nodup := by
  induction entries with
  | nil => exact ⟨fun _ => List.nodup_nil, fun _ => rfl⟩
  | cons e entries ih =>
    rw [List.map_cons, List.map_cons, duplicateKeys, List.append_eq_nil_iff, List.map_eq_nil_iff,
      List.nodup_cons, ih]
    refine and_congr_left' ?_
    rw [List.filter_eq_nil_iff, List.forall_mem_map, List.mem_map, not_exists]
    simp only [beq_iff_eq, not_and]

/-- Entries of which none is a key for merging are read one after the other. -/
inductive ReadsEntries (read : EntryReader α) :
    List (Node × Node) → Progress α → Progress α → Prop where
  | nil (p : Progress α) : ReadsEntries read [] p p
  | cons {k v : Node} {entries : List (Node × Node)} {p p' p'' : Progress α} :
      k.isMerge = false → Yields (read k v p) p' → ReadsEntries read entries p' p'' →
      ReadsEntries read ((k, v) :: entries) p p''

theorem ReadsEntries.yields_readOwn {read : EntryReader α} {entries : List (Node × Node)}
    {p p' : Progress α} (h : ReadsEntries read entries p p') :
    Yields (readOwn read none p entries) (p', none) := by
  induction h with
  | nil p => exact yields_pure (p, none)
  | cons hk hv _ ih =>
    rw [readOwn, hk]
    exact hv.bind ih

/-- A mapping is read if its entries are, and no key is given twice. -/
theorem decodes_readMapping {read : EntryReader α} {start : α} {entries : List (Node × Node)}
    {p : Progress α} (hkeys : (entries.map fun e => keyIdentity e.1).Nodup)
    (h : Decodes P (readOwn read none ⟨start, [], none⟩ entries) (p, none)) :
    Decodes P (readMapping read start entries) (some p.value) := by
  refine decodes_bind_read fun c hfuel => ?_
  obtain ⟨fuel, hsucc⟩ := Nat.exists_eq_succ_of_ne_zero (Nat.ne_of_gt hfuel)
  have hentries : Decodes P (readEntries read c.fuel entries ⟨start, [], none⟩) (some p) := by
    rw [hsucc, readEntries, duplicateKeys_eq_nil_iff.mpr hkeys]
    exact h.bind_yields (yields_pure (some p))
  exact hentries.bind_yields (yields_pure _)

theorem notes_note {problems : List FormatProblem} (h : problems ≠ []) : Notes (note problems) () := by
  intro c s _ _ _
  refine ⟨s.visits, problems.reverse ++ s.problems, ?_, rfl⟩
  simp [h]

/-- A mapping in which a key is given twice has no value. -/
theorem notes_readMapping {read : EntryReader α} {start : α} {entries : List (Node × Node)}
    (hkeys : ¬ (entries.map fun e => keyIdentity e.1).Nodup) :
    Notes (readMapping read start entries) none := by
  refine decodes_bind_read fun c hfuel => ?_
  obtain ⟨fuel, hsucc⟩ := Nat.exists_eq_succ_of_ne_zero (Nat.ne_of_gt hfuel)
  have hproblems : duplicateKeys (entries.map Prod.fst) ≠ [] :=
    fun hnil => hkeys (duplicateKeys_eq_nil_iff.mp hnil)
  have hentries : Notes (readEntries read c.fuel entries ⟨start, [], none⟩) none := by
    rw [hsucc, readEntries]
    split
    next hnil => exact absurd hnil hproblems
    next => exact (notes_note hproblems).bind_yields (yields_pure none)
  exact hentries.bind_yields (yields_pure none)

/-- A text is no key for merging. -/
theorem isMerge_of_isReadAs_text {t : Text} {n : Node} (h : (Node.text t).isReadAs n = true) :
    n.isMerge = false := by
  obtain ⟨line, rfl⟩ := Node.isReadAs_text h
  unfold Yaml.writtenScalar
  dsimp only
  split
  · rfl
  · rfl

/-- Entries that have been read with some texts as their keys. -/
def KeysReadAs (keys : List Text) (entries : List (Node × Node)) : Prop :=
  List.Forall₂ (fun key e => (Node.text key).isReadAs e.1 = true) keys entries

namespace KeysReadAs

variable {keys : List Text} {entries : List (Node × Node)}

theorem of_entries {es : List (Node × Node)} (h : List.Forall₂ Node.EntryReadAs es entries)
    (hkeys : es.map Prod.fst = keys.map Node.text) : KeysReadAs keys entries := by
  have hread : List.Forall₂ (fun n e => n.isReadAs e.1 = true) (es.map Prod.fst) entries := by
    rw [List.forall₂_map_left_iff]
    exact h.imp fun _ _ he => he.1
  rwa [hkeys, List.forall₂_map_left_iff] at hread

theorem isMerge (h : KeysReadAs keys entries) : ∀ e ∈ entries, e.1.isMerge = false := by
  induction h with
  | nil => nofun
  | cons hk _ ih =>
    rw [List.forall_mem_cons]
    exact ⟨isMerge_of_isReadAs_text hk, ih⟩

theorem keyIdentity (h : KeysReadAs keys entries) :
    entries.map (fun e => keyIdentity e.1) = keys.map fun key => (0, Yaml.writtenKey key) := by
  induction h with
  | nil => rfl
  | @cons key e _ _ hk _ ih =>
    obtain ⟨k, v⟩ := e
    obtain ⟨line, rfl⟩ := Node.isReadAs_text hk
    rw [List.map_cons, List.map_cons, ih]
    rfl

/-- A key is given twice if two keys are written in the same way. -/
theorem nodup_iff (h : KeysReadAs keys entries) :
    (entries.map fun e => DocPromotion.keyIdentity e.1).Nodup ↔
      (keys.map Yaml.writtenKey).Nodup := by
  have hpair : Function.Injective (Prod.mk 0 : Text → Nat × Text) :=
    fun _ _ hsame => (Prod.mk.inj hsame).2
  rw [h.keyIdentity, ← List.nodup_map_iff hpair, List.map_map]
  rfl

end KeysReadAs

/-! ### Records -/

theorem decodes_readField {content : Content} {field? : Text → Option (FieldReader α)}
    {key : Text} {k v : Node} {read : FieldReader α} {p : Progress α} {a' : α}
    (hk : (Node.text key).isReadAs k = true) (hfield : field? key = some read)
    (hnew : key ∉ p.names) (hseen : p.seen? = none) (hv : Decodes P (read v p.value) a') :
    Decodes P (readField content field? k v p) { p with value := a', names := key :: p.names } := by
  have hnew : p.names.contains key = false := by simpa using hnew
  refine (yields_readText hk).bind ?_
  simp only [Progress.see, hseen, hfield, hnew, Bool.false_eq_true, if_false]
  exact hv.bind_yields (yields_pure _)

/-- Entries that are read as the fields with some keys, one after the other. -/
inductive ReadsFields (field? : Text → Option (FieldReader α)) :
    List Text → List (Node × Node) → α → α → Prop where
  | nil (a : α) : ReadsFields field? [] [] a a
  | cons {key : Text} {keys : List Text} {k v : Node} {entries : List (Node × Node)}
      {read : FieldReader α} {a a' a'' : α} :
      (Node.text key).isReadAs k = true → field? key = some read → Yields (read v a) a' →
      ReadsFields field? keys entries a' a'' →
      ReadsFields field? (key :: keys) ((k, v) :: entries) a a''

variable {field? : Text → Option (FieldReader α)}

theorem ReadsFields.append {keys keys' : List Text} {es es' : List (Node × Node)} {a a' a'' : α}
    (h : ReadsFields field? keys es a a') (h' : ReadsFields field? keys' es' a' a'') :
    ReadsFields field? (keys ++ keys') (es ++ es') a a'' := by
  induction h with
  | nil a => exact h'
  | cons hk hfield hv _ ih => exact .cons hk hfield hv (ih h')

theorem ReadsFields.keysReadAs {keys : List Text} {es : List (Node × Node)} {a a' : α}
    (h : ReadsFields field? keys es a a') : KeysReadAs keys es := by
  induction h with
  | nil a => exact .nil
  | cons hk _ _ _ ih => exact .cons hk ih

/-- Fields with different keys are entries of a record. -/
theorem ReadsFields.readsEntries {keys : List Text} {es : List (Node × Node)} {a a' : α}
    (h : ReadsFields field? keys es a a') (content : Content) (hkeys : keys.Nodup)
    {p : Progress α} (hp : p.value = a) (hseen : p.seen? = none)
    (hnew : ∀ key ∈ keys, key ∉ p.names) :
    ∃ p', ReadsEntries (readField content field?) es p p' ∧ p'.value = a' ∧ p'.seen? = none ∧
      ∀ name ∈ p'.names, name ∈ keys ∨ name ∈ p.names := by
  induction h generalizing p with
  | nil a => exact ⟨p, .nil p, hp, hseen, fun _ hname => .inr hname⟩
  | @cons key keys k v es read a a' a'' hk hfield hv _ ih =>
    rw [List.nodup_cons] at hkeys
    rw [List.forall_mem_cons] at hnew
    -- the key is one of the names from now on
    obtain ⟨p', hes, hp', hseen', hnames⟩ := ih (p := ⟨a', key :: p.names, p.seen?⟩) hkeys.2 rfl
      hseen (by
        intro key' hkey'
        rw [List.mem_cons, not_or]
        refine ⟨?_, hnew.2 key' hkey'⟩
        rintro rfl
        exact hkeys.1 hkey')
    rw [← hp] at hv
    refine ⟨p', .cons (isMerge_of_isReadAs_text hk)
      (decodes_readField hk hfield hnew.1 hseen hv) hes, hp', hseen', fun name hname => ?_⟩
    rcases hnames name hname with hmem | hmem
    · exact .inl (List.mem_cons_of_mem _ hmem)
    · rcases List.mem_cons.mp hmem with rfl | hmem
      · exact .inl List.mem_cons_self
      · exact .inr hmem

/-- Fields that are written turn a value into another when they are read.  Each of them is one of
the fields with some keys, in this order. -/
def Turns (field? : Text → Option (FieldReader α)) (keys : List Text) (es : List (Node × Node))
    (a a' : α) : Prop :=
  ∀ es', List.Forall₂ Node.EntryReadAs es es' →
    ∃ used, used.Sublist keys ∧ ReadsFields field? used es' a a'

theorem Turns.nil (keys : List Text) (a : α) : Turns field? keys [] a a := by
  intro es' h
  cases h
  exact ⟨[], List.nil_sublist _, .nil a⟩

theorem exists_append_of_forall₂ {γ δ : Type} {R : γ → δ → Prop} {as bs : List γ} {cs : List δ}
    (h : List.Forall₂ R (as ++ bs) cs) :
    ∃ as' bs', cs = as' ++ bs' ∧ List.Forall₂ R as as' ∧ List.Forall₂ R bs bs' := by
  induction as generalizing cs with
  | nil => exact ⟨[], cs, rfl, .nil, h⟩
  | cons a as ih =>
    obtain ⟨c, cs, hc, hcs, rfl⟩ := List.forall₂_cons_left_iff.mp h
    obtain ⟨as', bs', rfl, has, hbs⟩ := ih hcs
    exact ⟨c :: as', bs', rfl, .cons hc has, hbs⟩

theorem Turns.append {keys keys' : List Text} {es es' : List (Node × Node)} {a a' a'' : α}
    (h : Turns field? keys es a a') (h' : Turns field? keys' es' a' a'') :
    Turns field? (keys ++ keys') (es ++ es') a a'' := by
  intro es'' hes
  obtain ⟨fs, fs', rfl, hfs, hfs'⟩ := exists_append_of_forall₂ hes
  obtain ⟨used, hused, hread⟩ := h fs hfs
  obtain ⟨used', hused', hread'⟩ := h' fs' hfs'
  exact ⟨used ++ used', hused.append hused', hread.append hread'⟩

/-- **A record is read back if its fields are.** -/
theorem yields_readRecord {content : Content} {start a : α} {keys : List Text}
    {es : List (Node × Node)} {n : Node} (hn : (Node.map es).isReadAs n = true)
    (h : Turns field? keys es start a) (hkeys : (keys.map Yaml.writtenKey).Nodup) :
    Yields (readRecord content start field? n) (some a) := by
  obtain ⟨line, es', rfl, hes⟩ := Node.isReadAs_map hn
  obtain ⟨used, hused, hfields⟩ := h es' hes
  have hkeys : (used.map Yaml.writtenKey).Nodup := (hused.map _).nodup hkeys
  obtain ⟨p, hentries, rfl, -, -⟩ := hfields.readsEntries content hkeys.of_map
    (p := ⟨start, [], none⟩) rfl rfl (by simp)
  exact decodes_readMapping (hfields.keysReadAs.nodup_iff.mpr hkeys) hentries.yields_readOwn

theorem yields_readPresent {content : Content} {read : Node → DecodeM (Option α)}
    {es : List (Node × Node)} {n : Node} (hn : (Node.map es).isReadAs n = true)
    (h : Yields (read n) (some a)) : Yields (readPresent content read n) (some a) := by
  obtain ⟨line, es', rfl, -⟩ := Node.isReadAs_map hn
  have htag : ((Node.mapping line none es').tag == "!!null") = false := by rfl
  refine decodes_visit nofun ?_
  dsimp only
  rw [htag]
  exact h

/-! ### Records with a problem -/

/-- Entries of which one is a problem. -/
theorem ReadsEntries.notes_readOwn {read : EntryReader α} {k v : Node}
    {es es' : List (Node × Node)} {p p₁ p₂ p' : Progress α} (h : ReadsEntries read es p p₁)
    (hk : k.isMerge = false) (hv : Notes (read k v p₁) p₂) (h' : ReadsEntries read es' p₂ p') :
    Notes (readOwn read none p (es ++ (k, v) :: es')) (p', none) := by
  induction h with
  | nil p =>
    rw [List.nil_append, readOwn, hk]
    exact hv.bind_yields h'.yields_readOwn
  | cons hk' hv' _ ih =>
    rw [List.cons_append, readOwn, hk']
    exact hv'.bind (ih hv)

/-- **A problem with a field is one with the record.** -/
theorem notes_readRecord {content : Content} {start a a' a'' : α} {keys keys' : List Text}
    {key : Text} {es es' : List (Node × Node)} {value n : Node} {read : FieldReader α}
    (hn : (Node.map (es ++ (.text key, value) :: es')).isReadAs n = true)
    (hbefore : Turns field? keys es start a) (hfield : field? key = some read)
    (hread : ∀ v, value.isReadAs v = true → Notes (read v a) a')
    (hafter : Turns field? keys' es' a' a'')
    (hkeys : ((keys ++ key :: keys').map Yaml.writtenKey).Nodup) :
    Notes (readRecord content start field? n) (some a'') := by
  obtain ⟨line, entries, rfl, hentries⟩ := Node.isReadAs_map hn
  obtain ⟨before, rest, rfl, hes, hrest⟩ := exists_append_of_forall₂ hentries
  obtain ⟨⟨k, v⟩, after, ⟨hk, hv⟩, hes', rfl⟩ := List.forall₂_cons_left_iff.mp hrest
  obtain ⟨used, hused, hfields⟩ := hbefore before hes
  obtain ⟨used', hused', hfields'⟩ := hafter after hes'
  have hdistinct : ((used ++ key :: used').map Yaml.writtenKey).Nodup :=
    ((hused.append (hused'.cons_cons key)).map _).nodup hkeys
  have hnodup := hdistinct.of_map
  rw [List.nodup_append, List.nodup_cons] at hnodup
  obtain ⟨hleft, ⟨hfresh, hright⟩, happart⟩ := hnodup
  obtain ⟨p₁, hfirst, rfl, hseen, hnames⟩ := hfields.readsEntries content hleft
    (p := ⟨start, [], none⟩) rfl rfl (by simp)
  have hold : ∀ name ∈ p₁.names, name ∈ used := by
    intro name hname
    simpa using hnames name hname
  have hnew : key ∉ p₁.names := by
    intro hmem
    exact happart key (hold key hmem) key List.mem_cons_self rfl
  obtain ⟨p', hsecond, rfl, -, -⟩ := hfields'.readsEntries content hright
    (p := ⟨a', key :: p₁.names, p₁.seen?⟩) rfl hseen (by
      intro name hname hmem
      rcases List.mem_cons.mp hmem with rfl | hmem
      · exact hfresh hname
      · exact happart name (hold name hmem) name (List.mem_cons_of_mem _ hname) rfl)
  -- before, at and after the key with the problem
  have hown := hfirst.notes_readOwn (isMerge_of_isReadAs_text hk)
    (decodes_readField hk hfield hnew hseen (hread v hv)) hsecond
  have hread : KeysReadAs (used ++ key :: used') (before ++ (k, v) :: after) :=
    List.rel_append hfields.keysReadAs (.cons hk hfields'.keysReadAs)
  exact decodes_readMapping (hread.nodup_iff.mpr hdistinct) hown

end

end DocPromotion
