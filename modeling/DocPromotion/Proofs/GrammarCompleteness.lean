import DocPromotion.Proofs.GrammarSoundness

/-!
Every expression of the grammar is read, and read as the type it denotes.

A derivation is followed through the reader: from any stack of frames, the tokens of a category
lead to a state in which they have become one completed part (`readAs_of_denotes`).  For an atom
this part may still be split over frames above the stack, because the reader closes `?` and return
types only when it sees what comes next; `closeAtom` tells what they amount to.

Together with soundness this gives the two main statements: `exists_parse_iff_derives`, that the
expressions that can be read are those of the grammar, and `parse_eq_ok_iff_denotes`, that they
are read as their greedy derivation says.
-/

namespace DocPromotion.Grammar

open DocType

/-- The tokens lead from one state of the reader to another. -/
def Leads (names : Option Resolver) : State → List Token → State → Prop
  | s, [], s' => s = s'
  | s, t :: ts, s' => ∃ u, s.step names t = .ok u ∧ Leads names u ts s'

section

variable {names : Option Resolver}

theorem Leads.step {s u s' : State} {t : Token} {ts : List Token} (h : s.step names t = .ok u)
    (hts : Leads names u ts s') : Leads names s (t :: ts) s' := ⟨u, h, hts⟩

theorem Leads.append {ts us : List Token} {v : State} :
    ∀ {s u : State}, Leads names s ts u → Leads names u us v → Leads names s (ts ++ us) v := by
  induction ts with
  | nil =>
    intro s u h hus
    obtain rfl : s = u := h
    exact hus
  | cons t ts ih =>
    intro s u h hus
    obtain ⟨w, hw, hts⟩ := h
    exact .step hw (ih hts hus)

theorem Leads.run_eq {stop : Nat} {ts : List Token} {s' : State} :
    ∀ {s : State}, Leads names s ts s' →
      s.run names stop ts = s'.finish.mapError (stop, ·) := by
  induction ts with
  | nil =>
    intro s h
    obtain rfl : s = s' := h
    rfl
  | cons t ts ih =>
    intro s h
    obtain ⟨u, hu, hts⟩ := h
    rw [State.run, hu]
    exact ih hts

/-! ### Offsets of tokens -/

@[simp] theorem startOf_cons (t : Token) (ts : List Token) : startOf (t :: ts) = t.start := rfl

@[simp] theorem stopOf_singleton (t : Token) : stopOf [t] = t.stop := rfl

@[simp] theorem stopOf_append_cons (ts : List Token) (u : Token) (us : List Token) :
    stopOf (ts ++ u :: us) = stopOf (u :: us) := by
  simp [stopOf, List.getLast?_cons]

@[simp] theorem stopOf_cons_cons (t u : Token) (us : List Token) :
    stopOf (t :: u :: us) = stopOf (u :: us) := by
  simp [stopOf]

theorem stopOf_cons {t : Token} {ts : List Token} (h : ts ≠ []) :
    stopOf (t :: ts) = stopOf ts := by
  obtain ⟨u, us, rfl⟩ := List.exists_cons_of_ne_nil h
  exact stopOf_cons_cons t u us

theorem startOf_append {ts us : List Token} (h : ts ≠ []) : startOf (ts ++ us) = startOf ts := by
  obtain ⟨t, ts, rfl⟩ := List.exists_cons_of_ne_nil h
  rfl

theorem Denotes.ne_nil {expr : Text} {n : Category} {ts : List Token} {d : DocType}
    (h : Denotes names expr n ts d) : ts ≠ [] := by
  induction h with
  | single _ ih => exact ih
  | bare _ ih => exact ih
  | _ => simp

/-! ### Inside of brackets -/

/-- What a bracketed part becomes when some tokens are read inside of it. -/
def fillBy (e : Enclosed) : List Token → Enclosed
  | [] => e
  | _ => e.fill

theorem fillBy_fill (e : Enclosed) (ts : List Token) : fillBy e.fill ts = e.fill := by
  cases ts with
  | nil => rfl
  | cons t ts => cases e <;> rfl

theorem stepInside_free {frames : List Frame} {start : Nat} {e : Enclosed} {closer : Bracket}
    {inner : List Bracket} {t : Token} (ht : t.kind.isBracket = false) :
    stepInside frames start e closer inner t = .ok ⟨frames, .inside start e.fill closer inner⟩ := by
  unfold stepInside
  split
  next b hk =>
    rw [hk] at ht
    cases ht
  next b hk =>
    rw [hk] at ht
    cases ht
  next => rfl

theorem leads_of_nested {ts : List Token} (h : Nested ts) (frames : List Frame) (start : Nat)
    (closer : Bracket) :
    ∀ (e : Enclosed) (inner : List Bracket),
      Leads names ⟨frames, .inside start e closer inner⟩ ts
        ⟨frames, .inside start (fillBy e ts) closer inner⟩ := by
  induction h with
  | nil =>
    intro e inner
    rfl
  | free ht _ ih =>
    intro e inner
    have hrest := ih e.fill inner
    rw [fillBy_fill] at hrest
    exact .step (stepInside_free ht) hrest
  | @pair o c b within ts ho _ hc _ ih ih' =>
    intro e inner
    -- the pair is pushed and popped again, so the stack is the same before and after it
    have hwithin := ih e.fill (b :: inner)
    have hrest := ih' e.fill inner
    rw [fillBy_fill] at hwithin hrest
    refine .step (u := ⟨frames, .inside start e.fill closer (b :: inner)⟩) ?_
      (hwithin.append (.step (u := ⟨frames, .inside start e.fill closer inner⟩) ?_ hrest))
    · simp [State.step, stepInside, ho]
    · cases e <;> simp [State.step, stepInside, hc, Enclosed.fill]

/-- A bracketed part, from its opening bracket to its closing one. -/
theorem leads_of_bracketed {s : State} {frames : List Frame} {start : Nat} {e : Enclosed}
    {b : Bracket} {o c : Token} {inner : List Token}
    (ho : s.step names o = .ok ⟨frames, .inside start e b []⟩) (h : Nested inner)
    (hc : c.kind = .closing b) :
    Leads names s (o :: (inner ++ [c])) ⟨frames, (fillBy e inner).close start c.stop⟩ := by
  refine .step ho ((leads_of_nested h frames start b e []).append (.step ?_ rfl))
  simp [State.step, stepInside, hc]

/-! ### What a category becomes -/

/-- The frames directly around a type. -/
def IsBase : List Frame → Prop
  | [] | .group _ :: _ => True
  | _ => False

/-- A primary becomes one completed part on top of the frames. -/
def ReadsPrimary (names : Option Resolver) (expr : Text) (ts : List Token) (d : DocType) : Prop :=
  ∀ frames, ∃ r g,
    Leads names ⟨frames, .expecting⟩ ts ⟨frames, .complete (startOf ts) (stopOf ts) r g⟩ ∧
      r.toDocType expr = d

/-- An atom becomes a completed part under frames of its own.  Once these are closed, it is a part
with the offsets and the type of the whole atom. -/
def ReadsAtom (names : Option Resolver) (expr : Text) (ts : List Token) (d : DocType) : Prop :=
  ∀ frames, ∃ frames' start r g whole,
    Leads names ⟨frames, .expecting⟩ ts ⟨frames', .complete start (stopOf ts) r g⟩ ∧
      closeAtom (stopOf ts) frames' start r = closeAtom (stopOf ts) frames (startOf ts) whole ∧
      whole.toDocType expr = d

/-- The last atom of a type becomes a completed part.  Inside of a compound that is open already it
leaves this compound open; otherwise closing it gives the type. -/
def ReadsType (names : Option Resolver) (expr : Text) (ts : List Token) (d : DocType) : Prop :=
  (∀ frames start', ∃ frames' start r g,
    Leads names ⟨.compound start' :: frames, .expecting⟩ ts
        ⟨frames', .complete start (stopOf ts) r g⟩ ∧
      (closeAtom (stopOf ts) frames' start r).1 = .compound start' :: frames) ∧
  (∀ frames, IsBase frames → ∃ frames' start r g whole,
    Leads names ⟨frames, .expecting⟩ ts ⟨frames', .complete start (stopOf ts) r g⟩ ∧
      closeType (stopOf ts) (closeAtom (stopOf ts) frames' start r).1
        (closeAtom (stopOf ts) frames' start r).2.2 = (frames, whole) ∧
      whole.toDocType expr = d)

/-- What the tokens of a category become in the reader. -/
def ReadAs (names : Option Resolver) (expr : Text) : Category → List Token → DocType → Prop
  | .type => ReadsType names expr
  | .atom => ReadsAtom names expr
  | .primary => ReadsPrimary names expr

theorem closeAtom_of_isBase {frames : List Frame} (h : IsBase frames) (stop start : Nat)
    (r : Reading) : closeAtom stop frames start r = (frames, start, r) := by
  match frames, h with
  | [], _ => rfl
  | .group _ :: _, _ => rfl

theorem closeType_of_isBase {frames : List Frame} (h : IsBase frames) (stop : Nat) (r : Reading) :
    closeType stop frames r = (frames, r) := by
  match frames, h with
  | [], _ => rfl
  | .group _ :: _, _ => rfl

/-! ### The steps after an atom -/

/-- The frames after a join: it continues a compound, or it opens one. -/
def joinFrames (start : Nat) : List Frame → List Frame
  | .compound start' :: frames => .compound start' :: frames
  | frames => .compound start :: frames

theorem joinFrames_of_isBase {frames : List Frame} (h : IsBase frames) (start : Nat) :
    joinFrames start frames = .compound start :: frames := by
  match frames, h with
  | [], _ => rfl
  | .group _ :: _, _ => rfl

theorem step_join {frames frames' : List Frame} {start stop start' : Nat} {r r' : Reading}
    {g : Growth} {op : Token} (hop : IsJoin op)
    (hclose : closeAtom stop frames start r = (frames', start', r')) :
    State.step names ⟨frames, .complete start stop r g⟩ op =
      .ok ⟨joinFrames start' frames', .expecting⟩ := by
  have hafter : stepAfter frames start stop r op = .ok ⟨joinFrames start' frames', .expecting⟩ := by
    rcases hop with hop | hop
    all_goals
      simp only [stepAfter, hop, hclose]
      cases frames' with
      | nil => rfl
      | cons f frames' => cases f <;> rfl
  -- a join never belongs to the atom, however that may grow
  rw [← hafter]
  rcases hop with hop | hop
  · cases g <;> simp only [State.step, stepComplete, hop]
  · cases g <;> simp only [State.step, stepComplete, hop]

theorem step_group {frames frames' : List Frame} {start stop start' : Nat} {r whole : Reading}
    {g : Growth} {c : Token} (hc : c.kind = .closing .paren)
    (hclose : closeType stop (closeAtom stop frames start r).1 (closeAtom stop frames start r).2.2 =
      (.group start' :: frames', whole)) :
    State.step names ⟨frames, .complete start stop r g⟩ c =
      .ok ⟨frames', .complete start' c.stop whole .none⟩ := by
  cases g <;> simp only [State.step, stepComplete, stepAfter, hc, hclose]

theorem step_suffix {frames : List Frame} {start stop : Nat} {r : Reading} {g : Growth}
    {o : Token} (ho : o.kind = .opening .square) :
    State.step names ⟨frames, .complete start stop r g⟩ o =
      .ok ⟨frames, .inside start (.suffix true) .square []⟩ := by
  cases g <;> simp only [State.step, stepComplete, ho]

/-- Suffixes leave an atom with the same start. -/
theorem leads_of_suffixes {ss : List Token} (h : Suffixes ss) (frames : List Frame) (start : Nat) :
    ∀ (stop : Nat) (r : Reading) (g : Growth), ∃ stop' r' g',
      Leads names ⟨frames, .complete start stop r g⟩ ss ⟨frames, .complete start stop' r' g'⟩ := by
  induction h with
  | nil =>
    intro stop r g
    exact ⟨stop, r, g, rfl⟩
  | @cons _ ss hs _ ih =>
    intro stop r g
    obtain @⟨o, c, inner, ho, hin, hc⟩ := hs
    have ho : State.step names ⟨frames, .complete start stop r g⟩ o = _ := step_suffix ho
    obtain ⟨r', hr'⟩ := close_eq_complete (fillBy (.suffix true) inner) start c.stop
    have hsuffix := leads_of_bracketed ho hin hc
    rw [hr'] at hsuffix
    obtain ⟨stop'', r'', g'', hrest⟩ := ih c.stop r' _
    exact ⟨stop'', r'', g'', hsuffix.append hrest⟩

/-! ### One lemma for each production -/

variable {expr : Text}

theorem readsType_single {ts : List Token} {d : DocType} (h : ReadsAtom names expr ts d) :
    ReadsType names expr ts d := by
  constructor
  · intro frames start'
    obtain ⟨frames', start, r, g, whole, hts, hclose, -⟩ := h (.compound start' :: frames)
    exact ⟨frames', start, r, g, hts, by rw [hclose]; rfl⟩
  · intro frames hbase
    obtain ⟨frames', start, r, g, whole, hts, hclose, hd⟩ := h frames
    rw [closeAtom_of_isBase hbase] at hclose
    refine ⟨frames', start, r, g, whole, hts, ?_, hd⟩
    rw [hclose]
    exact closeType_of_isBase hbase _ _

theorem readsType_join {as ts : List Token} {op : Token} {d₁ d₂ : DocType}
    (ha : ReadsAtom names expr as d₁) (hne : as ≠ []) (hop : IsJoin op)
    (hts : ReadsType names expr ts d₂) (hne' : ts ≠ []) :
    ReadsType names expr (as ++ op :: ts)
      (.unrepresentable (spelled expr (as ++ op :: ts))) := by
  have hstop : stopOf (as ++ op :: ts) = stopOf ts := by
    rw [stopOf_append_cons, stopOf_cons hne']
  have hstart : startOf (as ++ op :: ts) = startOf as := startOf_append hne
  constructor
  · -- a compound is open already, and both the join and the rest leave it open
    intro frames start'
    obtain ⟨frames₁, start₁, r₁, g₁, _, has, hclose, -⟩ := ha (.compound start' :: frames)
    obtain ⟨frames₂, start₂, r₂, g₂, hts, hclose₂⟩ := hts.1 frames start'
    have hstep : State.step names ⟨frames₁, .complete start₁ (stopOf as) r₁ g₁⟩ op = _ :=
      step_join hop hclose
    rw [hstop]
    exact ⟨frames₂, start₂, r₂, g₂, has.append (.step hstep hts), hclose₂⟩
  · -- the join opens a compound, in which the rest is read
    intro frames hbase
    obtain ⟨frames₁, start₁, r₁, g₁, _, has, hclose, -⟩ := ha frames
    rw [closeAtom_of_isBase hbase] at hclose
    obtain ⟨frames₂, start₂, r₂, g₂, hts, hclose₂⟩ := hts.1 frames (startOf as)
    have hstep : State.step names ⟨frames₁, .complete start₁ (stopOf as) r₁ g₁⟩ op = _ :=
      step_join hop hclose
    rw [joinFrames_of_isBase hbase] at hstep
    refine ⟨frames₂, start₂, r₂, g₂, .spelled .unrepresentable (startOf as) (stopOf ts), ?_, ?_, ?_⟩
    · rw [hstop]
      exact has.append (.step hstep hts)
    · rw [hstop, hclose₂]
      rfl
    · rw [spelled_eq, hstop, hstart]
      rfl

theorem readsAtom_nullable {q : Token} {ts : List Token} {d : DocType} (hq : q.kind = .nullable)
    (h : ReadsAtom names expr ts d) (hne : ts ≠ []) :
    ReadsAtom names expr (q :: ts) (.unrepresentable (spelled expr (q :: ts))) := by
  intro frames
  obtain ⟨frames', start, r, g, whole, hts, hclose, -⟩ := h (.nullable q.start :: frames)
  have hstep : State.step names ⟨frames, .expecting⟩ q =
      .ok ⟨.nullable q.start :: frames, .expecting⟩ := by
    simp only [State.step, stepExpecting, hq]
  refine ⟨frames', start, r, g, .spelled .unrepresentable q.start (stopOf ts), ?_, ?_, ?_⟩
  · rw [stopOf_cons hne]
    exact .step hstep hts
  · rw [stopOf_cons hne, hclose]
    rfl
  · rw [spelled_eq, stopOf_cons hne]
    rfl

theorem readsAtom_bare {ts : List Token} {d : DocType} (h : ReadsPrimary names expr ts d) :
    ReadsAtom names expr ts d := by
  intro frames
  obtain ⟨r, g, hts, hd⟩ := h frames
  exact ⟨frames, startOf ts, r, g, r, hts, rfl, hd⟩

/-- A primary with suffixes, of which the last one decides about the type. -/
theorem readsAtom_suffix {ps ss inner : List Token} {o c : Token} {d : DocType}
    (h : ReadsPrimary names expr ps d) (hne : ps ≠ []) (hss : Suffixes ss)
    (ho : o.kind = .opening .square) (hin : Nested inner) (hc : c.kind = .closing .square) :
    ReadsAtom names expr (ps ++ ss ++ o :: (inner ++ [c]))
      ((if inner = [] then Form.array else Form.unrepresentable).toDocType
        (spelled expr (ps ++ ss ++ o :: (inner ++ [c])))) := by
  intro frames
  -- whatever the primary and the suffixes before the last one amount to is forgotten
  obtain ⟨r, g, hps, -⟩ := h frames
  obtain ⟨stop', r', g', hss⟩ := leads_of_suffixes hss frames (startOf ps) (stopOf ps) r g
  have ho : State.step names ⟨frames, .complete (startOf ps) stop' r' g'⟩ o = _ := step_suffix ho
  have hlast := leads_of_bracketed ho hin hc
  have hstart : startOf (ps ++ ss ++ o :: (inner ++ [c])) = startOf ps := by
    rw [List.append_assoc]
    exact startOf_append hne
  have hstop : stopOf (ps ++ ss ++ o :: (inner ++ [c])) = c.stop := by
    rw [stopOf_append_cons, ← List.cons_append, stopOf_append_cons, stopOf_singleton]
  have hclose : (fillBy (.suffix true) inner).close (startOf ps) c.stop =
      .complete (startOf ps) c.stop
        (.spelled (if inner = [] then .array else .unrepresentable) (startOf ps) c.stop) .none := by
    cases inner <;> rfl
  rw [hclose] at hlast
  rw [spelled_eq, hstart, hstop]
  exact ⟨frames, startOf ps, _, .none, _, (hps.append hss).append hlast, rfl, rfl⟩

theorem Bracketed.stopOf_cons {b : Bracket} {part : List Token} (h : Bracketed b part)
    (t : Token) : stopOf (t :: part) = stopOf part := by
  cases h with
  | intro => exact stopOf_cons_cons _ _ _

theorem leads_of_name {t : Token} {d : DocType} (ht : IsName names t d) (frames : List Frame) :
    Leads names ⟨frames, .expecting⟩ [t]
      ⟨frames, .complete t.start t.stop (.named d) (.name d)⟩ := by
  refine .step ?_ rfl
  simp only [State.step, stepExpecting, ht.1, ht.2]

/-- A name with a bracketed part other than a suffix. -/
theorem leads_of_named {t : Token} {d : DocType} {b : Bracket} {e : Enclosed}
    {part : List Token} {frames : List Frame} (ht : IsName names t d) (hp : Bracketed b part)
    (hopen : ∀ o : Token, o.kind = .opening b →
      stepComplete frames t.start t.stop (.named d) (.name d) o =
        .ok ⟨frames, .inside t.start e b []⟩)
    (he : e.fill = e) :
    Leads names ⟨frames, .expecting⟩ (t :: part) ⟨frames, e.close t.start (stopOf part)⟩ := by
  obtain @⟨o, c, inner, ho, hin, hc⟩ := hp
  have hpart : Leads names ⟨frames, .complete t.start t.stop (.named d) (.name d)⟩ _ _ :=
    leads_of_bracketed (hopen o ho) hin hc
  -- only suffixes depend on what is inside of them
  rw [← he, fillBy_fill, he] at hpart
  rw [← List.cons_append, stopOf_append_cons, stopOf_singleton]
  exact (leads_of_name ht frames).append hpart

theorem leads_of_signature {t : Token} {d : DocType} {params : List Token} (ht : IsName names t d)
    (hp : Bracketed .paren params) (frames : List Frame) :
    Leads names ⟨frames, .expecting⟩ (t :: params)
      ⟨frames, Enclosed.signature.close t.start (stopOf params)⟩ := by
  refine leads_of_named ht hp (fun o ho => ?_) rfl
  simp only [stepComplete, ho]

/-- A signature with a return type, which ends where the return type ends. -/
theorem readsAtom_returning {t colon : Token} {d d' : DocType} {params as : List Token}
    (ht : IsName names t d) (hp : Bracketed .paren params) (hcolon : colon.kind = .colon)
    (h : ReadsAtom names expr as d') (hne : as ≠ []) :
    ReadsAtom names expr (t :: (params ++ colon :: as))
      (.unrepresentable (spelled expr (t :: (params ++ colon :: as)))) := by
  intro frames
  have hparams := leads_of_signature ht hp frames
  have hstep : State.step names ⟨frames, Enclosed.signature.close t.start (stopOf params)⟩ colon =
      .ok ⟨.signature t.start :: frames, .expecting⟩ := by
    simp only [State.step, Enclosed.close, stepComplete, hcolon]
  obtain ⟨frames', start, r, g, whole, has, hclose, -⟩ := h (.signature t.start :: frames)
  have hstop : stopOf (t :: (params ++ colon :: as)) = stopOf as := by
    rw [← List.cons_append, stopOf_append_cons, stopOf_cons hne]
  rw [spelled_eq, hstop, startOf_cons]
  refine ⟨frames', start, r, g, .spelled .unrepresentable t.start (stopOf as), ?_, ?_, rfl⟩
  · exact hparams.append (.step hstep has)
  · rw [hclose]
    rfl

theorem readsPrimary_group {o c : Token} {ts : List Token} {d : DocType}
    (ho : o.kind = .opening .paren) (h : ReadsType names expr ts d)
    (hc : c.kind = .closing .paren) : ReadsPrimary names expr (o :: (ts ++ [c])) d := by
  intro frames
  have hopen : State.step names ⟨frames, .expecting⟩ o =
      .ok ⟨.group o.start :: frames, .expecting⟩ := by
    simp only [State.step, stepExpecting, ho]
  obtain ⟨frames', start, r, g, whole, hts, hclose, hd⟩ := h.2 (.group o.start :: frames) trivial
  have hgroup : State.step names ⟨frames', .complete start (stopOf ts) r g⟩ c = _ :=
    step_group hc hclose
  rw [startOf_cons, ← List.cons_append, stopOf_append_cons, stopOf_singleton]
  exact ⟨whole, .none, .step hopen (hts.append (.step hgroup rfl)), hd⟩

theorem readsPrimary_literal {t : Token} (ht : IsLiteral t) :
    ReadsPrimary names expr [t] (.unrepresentable (spelled expr [t])) := by
  intro frames
  refine ⟨.spelled .unrepresentable t.start t.stop, .none, .step ?_ rfl, rfl⟩
  rcases ht with ht | ht
  · simp only [State.step, stepExpecting, ht, startOf_cons, stopOf_singleton]
  · simp only [State.step, stepExpecting, ht, startOf_cons, stopOf_singleton]

theorem toDocType_ofArguments (d : DocType) (s : Text) :
    (Form.ofArguments d).toDocType s = withArguments d s := by
  cases d <;> rfl

theorem toDocType_ofShape (d : DocType) (s : Text) :
    (Form.ofShape d).toDocType s = withShape d s := by
  cases d <;> rfl

theorem readsPrimary_arguments {t : Token} {d : DocType} {args : List Token}
    (ht : IsName names t d) (ha : Bracketed .angle args) :
    ReadsPrimary names expr (t :: args) (withArguments d (spelled expr (t :: args))) := by
  intro frames
  have hargs : Leads names ⟨frames, .expecting⟩ (t :: args)
      ⟨frames, (Enclosed.arguments (.ofArguments d)).close t.start (stopOf args)⟩ := by
    refine leads_of_named ht ha (fun o ho => ?_) rfl
    simp only [stepComplete, ho]
  rw [spelled_eq, ha.stopOf_cons, startOf_cons]
  exact ⟨_, .none, hargs, toDocType_ofArguments d _⟩

theorem readsPrimary_shape {t : Token} {d : DocType} {fields : List Token}
    (ht : IsName names t d) (hf : Bracketed .brace fields) :
    ReadsPrimary names expr (t :: fields) (withShape d (spelled expr (t :: fields))) := by
  intro frames
  have hfields : Leads names ⟨frames, .expecting⟩ (t :: fields)
      ⟨frames, (Enclosed.arguments (.ofShape d)).close t.start (stopOf fields)⟩ := by
    refine leads_of_named ht hf (fun o ho => ?_) rfl
    simp only [stepComplete, ho]
  rw [spelled_eq, hf.stopOf_cons, startOf_cons]
  exact ⟨_, .none, hfields, toDocType_ofShape d _⟩

theorem readsPrimary_signature {t : Token} {d : DocType} {params : List Token}
    (ht : IsName names t d) (hp : Bracketed .paren params) :
    ReadsPrimary names expr (t :: params) (.unrepresentable (spelled expr (t :: params))) := by
  intro frames
  rw [spelled_eq, hp.stopOf_cons, startOf_cons]
  exact ⟨_, .signature, leads_of_signature ht hp frames, rfl⟩

/-! ### Whole derivations -/

theorem readAs_of_denotes {n : Category} {ts : List Token} {d : DocType}
    (h : Denotes names expr n ts d) : ReadAs names expr n ts d := by
  induction h with
  | single _ ih => exact readsType_single ih
  | join ha hop hts ih₁ ih₂ => exact readsType_join ih₁ ha.ne_nil hop ih₂ hts.ne_nil
  | nullable hq hts ih => exact readsAtom_nullable hq ih hts.ne_nil
  | bare _ ih => exact readsAtom_bare ih
  | array hps hss ho hc ih => exact readsAtom_suffix ih hps.ne_nil hss ho .nil hc
  | offset hps hss ho hin hne hc ih =>
    have hatom := readsAtom_suffix ih hps.ne_nil hss ho hin hc
    rw [if_neg hne] at hatom
    exact hatom
  | returning ht hp hcolon has ih => exact readsAtom_returning ht hp hcolon ih has.ne_nil
  | group ho _ hc ih => exact readsPrimary_group ho ih hc
  | literal ht => exact readsPrimary_literal ht
  | name ht => exact fun frames => ⟨_, _, leads_of_name ht frames, rfl⟩
  | arguments ht ha => exact readsPrimary_arguments ht ha
  | shape ht hf => exact readsPrimary_shape ht hf
  | signature ht hp => exact readsPrimary_signature ht hp

/-- The tokens of a type are read from the start, as the type they denote. -/
theorem run_of_denotes {stop : Nat} {ts : List Token} {d : DocType}
    (h : Denotes names expr .type ts d) :
    ∃ r, State.initial.run names stop ts = .ok r ∧ r.toDocType expr = d := by
  obtain ⟨frames', start, r, g, whole, hts, hclose, hd⟩ := (readAs_of_denotes h).2 [] trivial
  refine ⟨whole, ?_, hd⟩
  rw [State.initial, hts.run_eq]
  simp only [State.finish, hclose]
  rfl

theorem parse_of_denotes {d : DocType} (h : Denotes names expr .type (Token.lex expr) d) :
    parse names expr = .ok d := by
  obtain ⟨r, hr, hd⟩ := run_of_denotes h
  rw [parse, hr, ← hd]

theorem derives_of_parse {d : DocType} (h : parse names expr = .ok d) :
    Derives names .type (Token.lex expr) := by
  unfold parse at h
  split at h
  next r hr => exact derives_of_run hr
  next => cases h

/-- A type that is read is denoted by the tokens.  Soundness gives a derivation, and it can only
denote what is read. -/
theorem denotes_of_parse {d : DocType} (h : parse names expr = .ok d) :
    Denotes names expr .type (Token.lex expr) d := by
  obtain ⟨d', hd'⟩ := exists_denotes_iff.mpr (derives_of_parse h)
  have hparse := parse_of_denotes hd'
  rw [h, Except.ok.injEq] at hparse
  rw [hparse]
  exact hd'

end

/-! ### Main statements -/

/-- **The expressions that can be read are those of the grammar**, under any resolver and without
one. -/
theorem exists_parse_iff_derives (names : Option Resolver) (expr : Text) :
    (∃ d, parse names expr = .ok d) ↔ Derives names .type (Token.lex expr) := by
  constructor
  · rintro ⟨d, hd⟩
    exact derives_of_parse hd
  · intro h
    obtain ⟨d, hd⟩ := exists_denotes_iff.mpr h
    exact ⟨d, parse_of_denotes hd⟩

/-- **An expression is read as its greedy derivation says**, and the expressions of the grammar are
those with exactly one type to be read. -/
theorem parse_eq_ok_iff_denotes (names : Option Resolver) (expr : Text) :
    (∀ d, parse names expr = .ok d ↔ Denotes names expr .type (Token.lex expr) d) ∧
      (Derives names .type (Token.lex expr) ↔
        ∃! d, Denotes names expr .type (Token.lex expr) d) := by
  refine ⟨fun d => ⟨denotes_of_parse, parse_of_denotes⟩, ?_, ?_⟩
  · intro h
    obtain ⟨d, hd⟩ := exists_denotes_iff.mpr h
    refine ⟨d, hd, fun d' hd' => ?_⟩
    have hparse := parse_of_denotes hd'
    rw [parse_of_denotes hd, Except.ok.injEq] at hparse
    exact hparse.symm
  · rintro ⟨d, hd, -⟩
    exact hd.derives

example : parse none "int[0][]" = .ok (.array "int[0][]") := by cbv

example : parse none "int[][0]" = .ok (.unrepresentable "int[][0]") := by cbv

end DocPromotion.Grammar
