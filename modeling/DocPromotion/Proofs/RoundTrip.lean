import DocPromotion.Proofs.Decoding
import DocPromotion.Source.Document

/-!
A file that is written is loaded in its normal form.

What is not written cannot be loaded: empty documentation blocks, the order of imports, and the
marks that say what has been done to parameters and methods.  The rest is the normal form of a file
(`SourceFile.normal`).  Every kind of declaration is read back on its own, field by field, and a
file is put together from them (`SourceFile.load_encode`).

Imports are a mapping with texts as its keys.  They can be read back if no two aliases are written
as the same key (`KeysApart`).  This is not always so, since an alias that is not UTF-8 is written
in base 64, and then the file cannot be loaded again (`SourceFile.load_encode_of_clash`).
-/

namespace DocPromotion

open Yaml (Node Document)

/-! ### Normal forms -/

/-- A parameter as it is written. -/
def Param.normal (p : Param) : Param := { p with invalidated := false }

/-- A method as it is written: an empty block is none. -/
def Method.normal (m : Method) : Method :=
  { m with doc := m.doc.bind DocBlock.prune, params := m.params.map Param.normal, refreshed := false }

/-- A property statement as it is written: an empty block is none. -/
def Property.normal (p : Property) : Property := { p with doc := p.doc.bind DocBlock.prune }

/-- A class as it is written. -/
def ClassDecl.normal (d : ClassDecl) : ClassDecl :=
  { d with methods := d.methods.map Method.normal, properties := d.properties.map Property.normal }

/-- A file as it is written: imports stand in the order in which they are written. -/
def SourceFile.normal (f : SourceFile) : SourceFile :=
  ⟨f.ns, sortedUses f.uses, f.classes.map ClassDecl.normal⟩

/-! ### Fields

A field is given by the function that puts its value into the whole. -/

section

variable {α β γ : Type} {field? : Text → Option (FieldReader α)} {key : Text} {a a' : α}

/-- A field that is always written. -/
theorem turns_field {read : Node → DecodeM (Option β)} {n : Node} (put : β → α → α) (b : β)
    (hfield : field? key = reading read put)
    (hread : ∀ n', n.isReadAs n' = true → Yields (read n') (some b)) (hput : put b a = a') :
    Turns field? [key] (field key n) a a' := by
  intro es' hes
  obtain ⟨⟨k, v⟩, rest, ⟨hk, hv⟩, hrest, rfl⟩ := List.forall₂_cons_left_iff.mp hes
  cases hrest
  refine ⟨[key], List.Sublist.refl _, .cons hk hfield ?_ (.nil _)⟩
  rw [← hput]
  exact (hread v hv).bind (yields_pure _)

/-- A field with a text: an empty one is not written. -/
theorem turns_textField (put : Text → α → α) (t : Text)
    (hfield : field? key = reading readText put) (hempty : put [] a = a) :
    Turns field? [key] (textField key t) a (put t a) := by
  unfold textField
  split
  next ht =>
    rw [List.isEmpty_iff.mp ht, hempty]
    exact .nil [key] a
  next => exact turns_field put t hfield (fun n' hn' => yields_readText hn') rfl

/-- A field with a list: an empty one is not written. -/
theorem turns_listField {item : Content} {read : Node → DecodeM (Option β)} {write : γ → Node}
    {norm : γ → β} {cs : List γ} (put : List β → α → α) (bs : List β)
    (hfield : field? key = reading (readList item read) put)
    (hread : ∀ c n, (write c).isReadAs n = true → Yields (read n) (some (norm c)))
    (hnorm : cs.map norm = bs) (hempty : put [] a = a) :
    Turns field? [key] (listField key (cs.map write)) a (put bs a) := by
  rw [← hnorm]
  cases cs with
  | nil =>
    rw [List.map_nil, List.map_nil, hempty]
    exact .nil [key] a
  | cons c cs => exact turns_field put _ hfield (fun n' hn' => yields_readList hread hn') rfl

/-- A mark, which is only written if it is set. -/
theorem turns_markField (put : Bool → α → α) (b : Bool) (hfield : field? key = reading readBool put)
    (hunset : put false a = a) :
    Turns field? [key] (if b then field key (.bool true) else []) a (put b a) := by
  cases b with
  | false =>
    rw [hunset]
    exact .nil [key] a
  | true => exact turns_field put true hfield (fun n' hn' => yields_readBool hn') rfl

/-- A field that is not written if it has no value. -/
theorem turns_optionField {read : Node → DecodeM (Option γ)} {write : γ → Node}
    (put : Option γ → α → α) (o : Option γ)
    (hfield : field? key = reading read fun c => put (some c))
    (hread : ∀ c n, (write c).isReadAs n = true → Yields (read n) (some c))
    (hnone : put none a = a) :
    Turns field? [key] (optionField key (o.map write)) a (put o a) := by
  cases o with
  | none =>
    rw [hnone]
    exact .nil [key] a
  | some c => exact turns_field _ c hfield (fun n' hn' => hread c n' hn') rfl

end

/-! ### Declarations -/

theorem Tag.yields_ofNode (t : Tag) (n : Node) (h : t.toNode.isReadAs n = true) :
    Yields (Tag.ofNode n) (some t) := by
  refine yields_readRecord h
    (((turns_textField (fun name (a : Tag) => { a with name := name }) t.name rfl rfl).append
      (turns_field (fun type (a : Tag) => { a with type := type }) t.type rfl
        (fun n hn => yields_readText hn) rfl)).append
      (turns_textField (fun description (a : Tag) => { a with description := description })
        t.description rfl rfl)) ?_
  decide +kernel

theorem DocBlock.yields_ofNode (b : DocBlock) (n : Node) (h : b.toNode.isReadAs n = true) :
    Yields (DocBlock.ofNode n) (some b) := by
  have htag : ∀ (t : Tag) (n : Node), t.toNode.isReadAs n = true →
      Yields (readPresent .tag Tag.ofNode n) (some t) :=
    fun t n hn => yields_readPresent hn (t.yields_ofNode n hn)
  refine yields_readRecord h
    ((((turns_textField (fun summary (a : DocBlock) => { a with summary := summary })
        b.summary rfl rfl).append
      (turns_listField (fun params (a : DocBlock) => { a with params := params })
        b.params rfl htag (List.map_id' _) rfl)).append
      (turns_optionField (fun result (a : DocBlock) => { a with result := result })
        b.result rfl htag rfl)).append
      (turns_optionField (fun var (a : DocBlock) => { a with var := var })
        b.var rfl htag rfl)) ?_
  decide +kernel

/-- The field of a documentation block. -/
theorem turns_docField {α : Type} {field? : Text → Option (FieldReader α)} {a : α}
    (put : Option DocBlock → α → α) (doc : Option DocBlock)
    (hfield : field? "doc" = reading (readPresent .docBlock DocBlock.ofNode) fun b => put (some b))
    (hnone : put none a = a) :
    Turns field? ["doc"] (docField doc) a (put (doc.bind DocBlock.prune) a) :=
  turns_optionField put _ hfield
    (fun b n hn => yields_readPresent hn (b.yields_ofNode n hn)) hnone

theorem Param.yields_ofNode (p : Param) (n : Node) (h : p.toNode.isReadAs n = true) :
    Yields (Param.ofNode n) (some p.normal) := by
  refine yields_readRecord h
    (((turns_field (fun name (a : Param) => { a with name := name }) p.name rfl
        (fun n hn => yields_readText hn) rfl).append
      (turns_textField (fun declared (a : Param) => { a with declared := declared })
        p.declared rfl rfl)).append
      (turns_textField (fun visibility (a : Param) => { a with visibility := visibility })
        p.visibility rfl rfl)) ?_
  decide +kernel

theorem Method.yields_ofNode (m : Method) (n : Node) (h : m.toNode.isReadAs n = true) :
    Yields (Method.ofNode n) (some m.normal) := by
  have hparam : ∀ (p : Param) (n : Node), p.toNode.isReadAs n = true →
      Yields (readPresent .param Param.ofNode n) (some p.normal) :=
    fun p n hn => yields_readPresent hn (p.yields_ofNode n hn)
  refine yields_readRecord h
    ((((turns_field (fun name (a : Method) => { a with name := name }) m.name rfl
        (fun n hn => yields_readText hn) rfl).append
      (turns_docField (fun doc (a : Method) => { a with doc := doc }) m.doc rfl rfl)).append
      (turns_listField (fun params (a : Method) => { a with params := params })
        (m.params.map Param.normal) rfl hparam rfl rfl)).append
      (turns_textField (fun result (a : Method) => { a with result := result })
        m.result rfl rfl)) ?_
  decide +kernel

theorem yields_readTexts {ts : List Text} {n : Node}
    (h : (Node.list (ts.map Node.text)).isReadAs n = true) :
    Yields (readList .text readText n) (some ts) := by
  have hread : Yields (readList .text readText n) (some (ts.map fun t => t)) :=
    yields_readList (fun _ _ hn => yields_readText hn) h
  rwa [List.map_id'] at hread

theorem Property.yields_ofNode (p : Property) (n : Node) (h : p.toNode.isReadAs n = true) :
    Yields (Property.ofNode n) (some p.normal) := by
  refine yields_readRecord h
    (((turns_field (fun names (a : Property) => { a with names := names }) p.names rfl
        (fun n hn => yields_readTexts hn) rfl).append
      (turns_textField (fun declared (a : Property) => { a with declared := declared })
        p.declared rfl rfl)).append
      (turns_docField (fun doc (a : Property) => { a with doc := doc }) p.doc rfl rfl)) ?_
  decide +kernel

theorem ClassDecl.yields_ofNode (d : ClassDecl) (n : Node) (h : d.toNode.isReadAs n = true) :
    Yields (ClassDecl.ofNode n) (some d.normal) := by
  have hmethod : ∀ (m : Method) (n : Node), m.toNode.isReadAs n = true →
      Yields (readPresent .method Method.ofNode n) (some m.normal) :=
    fun m n hn => yields_readPresent hn (m.yields_ofNode n hn)
  have hproperty : ∀ (p : Property) (n : Node), p.toNode.isReadAs n = true →
      Yields (readPresent .property Property.ofNode n) (some p.normal) :=
    fun p n hn => yields_readPresent hn (p.yields_ofNode n hn)
  refine yields_readRecord h
    (((((turns_field (fun name (a : ClassDecl) => { a with name := name }) d.name rfl
        (fun n hn => yields_readText hn) rfl).append
      (turns_markField (fun isInterface (a : ClassDecl) => { a with isInterface := isInterface })
        d.isInterface rfl rfl)).append
      (turns_listField (fun parents (a : ClassDecl) => { a with parents := parents })
        d.parents rfl (fun _ _ hn => yields_readText hn) (List.map_id' _) rfl)).append
      (turns_listField (fun methods (a : ClassDecl) => { a with methods := methods })
        (d.methods.map Method.normal) rfl hmethod rfl rfl)).append
      (turns_listField (fun properties (a : ClassDecl) => { a with properties := properties })
        (d.properties.map Property.normal) rfl hproperty rfl rfl)) ?_
  decide +kernel

/-! ### Imports -/

/-- No two aliases are written as the same key. -/
def KeysApart (uses : List (Text × Text)) : Prop := (uses.map fun u => Yaml.writtenKey u.1).Nodup

theorem sortedUses_perm (uses : List (Text × Text)) : (sortedUses uses).Perm uses :=
  List.mergeSort_perm uses _

theorem setUse_of_not_mem {name target : Text} {uses : List (Text × Text)}
    (h : name ∉ uses.map Prod.fst) : setUse name target uses = uses ++ [(name, target)] := by
  have hall : uses.filter (·.1 != name) = uses := by
    rw [List.filter_eq_self]
    intro u hu
    rw [bne_iff_ne]
    rintro rfl
    exact h (List.mem_map_of_mem hu)
  rw [setUse, hall]

/-- Imports are read one after the other.  Those before them are `done`. -/
theorem readsEntries_uses {uses : List (Text × Text)} {entries : List (Node × Node)}
    (h : List.Forall₂ Node.EntryReadAs (uses.map fun u => (.text u.1, .text u.2)) entries)
    (done : List (Text × Text)) (hnames : ((done ++ uses).map Prod.fst).Nodup) :
    ReadsEntries readUse entries ⟨done, [], none⟩ ⟨done ++ uses, [], none⟩ := by
  induction uses generalizing entries done with
  | nil =>
    cases h
    rw [List.append_nil]
    exact .nil _
  | cons u uses ih =>
    obtain ⟨⟨k, v⟩, entries, ⟨hk, hv⟩, hrest, rfl⟩ := List.forall₂_cons_left_iff.mp h
    -- a new alias goes to the end and replaces none of those before it
    have hnew : u.1 ∉ done.map Prod.fst := by
      intro hmem
      rw [List.map_append, List.map_cons, List.nodup_append] at hnames
      exact hnames.2.2 _ hmem _ List.mem_cons_self rfl
    rw [List.append_cons] at hnames ⊢
    refine .cons ?_ ?_ (ih hrest _ hnames)
    · exact isMerge_of_isReadAs_text hk
    · refine (yields_readText hk).bind ((yields_readText hv).bind ?_)
      rw [← setUse_of_not_mem hnew]
      exact yields_pure _

theorem nodup_writtenKey_iff {uses : List (Text × Text)} :
    (((sortedUses uses).map Prod.fst).map Yaml.writtenKey).Nodup ↔ KeysApart uses := by
  rw [List.map_map]
  exact ((sortedUses_perm uses).map _).nodup_iff

/-- Imports as they are read, with their keys. -/
theorem keysReadAs_uses {uses : List (Text × Text)} {entries : List (Node × Node)}
    (h : List.Forall₂ Node.EntryReadAs ((sortedUses uses).map fun u => (.text u.1, .text u.2))
      entries) : KeysReadAs ((sortedUses uses).map Prod.fst) entries := by
  refine .of_entries h ?_
  rw [List.map_map, List.map_map]
  rfl

/-- **Imports are read back in the order in which they are written.** -/
theorem yields_readUses {uses : List (Text × Text)} (h : KeysApart uses) {n : Node}
    (hn : (Node.map ((sortedUses uses).map fun u => (.text u.1, .text u.2))).isReadAs n = true) :
    Yields (readUses n) (some (sortedUses uses)) := by
  obtain ⟨line, entries, rfl, hentries⟩ := Node.isReadAs_map hn
  have hkeys := nodup_writtenKey_iff.mpr h
  exact decodes_visit nofun (decodes_readMapping ((keysReadAs_uses hentries).nodup_iff.mpr hkeys)
    (readsEntries_uses hentries [] hkeys.of_map).yields_readOwn)

/-- Imports of which two are written as the same key cannot be read back. -/
theorem notes_readUses {uses : List (Text × Text)} (h : ¬ KeysApart uses) {n : Node}
    (hn : (Node.map ((sortedUses uses).map fun u => (.text u.1, .text u.2))).isReadAs n = true) :
    Notes (readUses n) none := by
  obtain ⟨line, entries, rfl, hentries⟩ := Node.isReadAs_map hn
  refine decodes_visit nofun (notes_readMapping ?_)
  rw [(keysReadAs_uses hentries).nodup_iff, nodup_writtenKey_iff]
  exact h

/-! ### Files -/

/-- The field of the imports. -/
theorem turns_usesField {α : Type} {field? : Text → Option (FieldReader α)} {a : α}
    {uses : List (Text × Text)} (huses : KeysApart uses)
    (put : List (Text × Text) → α → α)
    (hfield : field? "uses" = reading readUses put) (hempty : put [] a = a) :
    Turns field? ["uses"] (usesField uses) a (put (sortedUses uses) a) := by
  unfold usesField
  split
  next hnone =>
    rw [List.isEmpty_iff.mp hnone, sortedUses, List.mergeSort_nil, hempty]
    exact .nil _ a
  next => exact turns_field put _ hfield (fun n hn => yields_readUses huses hn) rfl

/-- The field of the classes. -/
theorem turns_classesField {α : Type} {field? : Text → Option (FieldReader α)} {a : α}
    (put : List ClassDecl → α → α) (ds : List ClassDecl)
    (hfield : field? "classes" =
      reading (readList .classDecl (readPresent .classDecl ClassDecl.ofNode)) put) :
    Turns field? ["classes"] (field "classes" (.list (ds.map ClassDecl.toNode))) a
      (put (ds.map ClassDecl.normal) a) := by
  have hclass : ∀ (d : ClassDecl) (n : Node), d.toNode.isReadAs n = true →
      Yields (readPresent .classDecl ClassDecl.ofNode n) (some d.normal) :=
    fun d n hn => yields_readPresent hn (d.yields_ofNode n hn)
  exact turns_field put _ hfield (fun n hn => yields_readList hclass hn) rfl

namespace SourceFile

theorem yields_readNode {f : SourceFile} {n : Node} (huses : KeysApart f.uses)
    (h : f.toNode.isReadAs n = true) : Yields (readNode n) (some f.normal) := by
  refine decodes_visit (Node.isReadAs_map_ne_alias h) (yields_readRecord h
    (((turns_textField (fun ns (a : SourceFile) => { a with ns := ns }) f.ns rfl rfl).append
      (turns_usesField huses (fun uses (a : SourceFile) => { a with uses := uses }) rfl
        rfl)).append
      (turns_classesField (fun classes (a : SourceFile) => { a with classes := classes })
        f.classes rfl)) ?_)
  decide +kernel

/-- A file with imports that clash is read without them, and that is noted. -/
theorem notes_readNode {f : SourceFile} {n : Node} (huses : ¬ KeysApart f.uses)
    (h : f.toNode.isReadAs n = true) :
    Notes (readNode n) (some { f.normal with uses := [] }) := by
  -- imports that clash are written
  have hne : f.uses.isEmpty = false := by
    cases hnil : f.uses with
    | nil =>
      rw [hnil] at huses
      exact absurd List.nodup_nil huses
    | cons u uses => rfl
  have hnode : f.toNode = .map (textField "namespace" f.ns ++
      (.text "uses", .map ((sortedUses f.uses).map fun u => (.text u.1, .text u.2))) ::
        field "classes" (.list (f.classes.map ClassDecl.toNode))) := by
    simp only [toNode, usesField, hne, Bool.false_eq_true, if_false, field, List.append_assoc,
      List.singleton_append]
  rw [hnode] at h
  refine decodes_visit (Node.isReadAs_map_ne_alias h) (notes_readRecord h
    (turns_textField (fun ns (a : SourceFile) => { a with ns := ns }) f.ns rfl rfl) rfl
    (fun v hv => (notes_readUses huses hv).bind_yields (yields_pure _))
    (turns_classesField (fun classes (a : SourceFile) => { a with classes := classes })
      f.classes rfl) ?_)
  decide +kernel

/-- How the text of a file is loaded. -/
theorem load_of_read {t : Text} {d : Document} (h : Document.read t = .ok (some d)) :
    load t = match readNode d.root (.ofDocument d) .start with
      | .error e => .error (.decode (.error e))
      | .ok (f?, s) =>
        if s.problems.isEmpty then .ok (f?.getD .empty)
        else .error (.decode (.format s.problems.reverse)) := by
  rw [load, h]
  show ((decode d readNode).map (·.getD .empty)).mapError LoadError.decode = _
  unfold decode
  rw [ReaderT.run, StateT.run]
  cases readNode d.root (.ofDocument d) .start with
  | error e => rfl
  | ok r =>
    dsimp only
    split
    · rfl
    · rfl

theorem fuel_pos (d : Document) : 0 < (DecodeContext.ofDocument d).fuel :=
  Nat.mul_pos (Nat.succ_pos _) (Nat.succ_pos _)

/-- **A file that is written is loaded in its normal form.** -/
theorem load_encode {f : SourceFile} (huses : KeysApart f.uses)
    (h : Yaml.readsBack f.toNode = true) : load f.encode = .ok f.normal := by
  obtain ⟨d, hd, hroot⟩ := Yaml.exists_document_of_readsBack h
  obtain ⟨visits, _, rfl, hrun⟩ :=
    yields_readNode huses hroot (.ofDocument d) .start (fuel_pos d) rfl rfl
  rw [encode, load_of_read hd, hrun]
  rfl

/-- A file with imports that clash cannot be loaded again. -/
theorem load_encode_of_clash {f : SourceFile} (huses : ¬ KeysApart f.uses)
    (h : Yaml.readsBack f.toNode = true) (g : SourceFile) : load f.encode ≠ .ok g := by
  obtain ⟨d, hd, hroot⟩ := Yaml.exists_document_of_readsBack h
  obtain ⟨visits, problems, hproblems, hrun⟩ :=
    notes_readNode huses hroot (.ofDocument d) .start (fuel_pos d) rfl rfl
  have hsome : problems.isEmpty = false := by simpa using hproblems
  rw [encode, load_of_read hd, hrun]
  simp only [hsome, Bool.false_eq_true, if_false]
  exact nofun

end SourceFile

end DocPromotion
