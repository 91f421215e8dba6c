import DocPromotion.Proofs.Grammar

/-!
Every expression that is read belongs to the grammar.

The reader keeps a stack of open constructs and never looks back, so what it has read so far is
gone.  What is left of it is a demand: `Demands s ts` says that the tokens `ts` finish everything
that is open in the state `s`.  A step passes the demand on (`demands_of_step`), so a run that ends
well has met it from the start (`demands_of_run`), and what the initial state demands is a type.
-/

namespace DocPromotion.Grammar

open DocType

/-! ### What an open construct demands -/

/-- The rest of a type after its first atom. -/
inductive Tail (names : Option Resolver) : List Token → Prop where
  | nil : Tail names []
  | cons {op : Token} {ts : List Token} :
      IsJoin op → Derives names .type ts → Tail names (op :: ts)

/-- The rest of an atom, given how it may grow. -/
inductive Grows (names : Option Resolver) : Growth → List Token → Prop where
  | suffixes {g : Growth} {ss : List Token} : Suffixes ss → Grows names g ss
  | arguments {d : DocType} {args ss : List Token} :
      Bracketed .angle args → Suffixes ss → Grows names (.name d) (args ++ ss)
  | shape {d : DocType} {fields ss : List Token} :
      Bracketed .brace fields → Suffixes ss → Grows names (.name d) (fields ++ ss)
  | signature {d : DocType} {params ts : List Token} :
      Bracketed .paren params → Grows names .signature ts → Grows names (.name d) (params ++ ts)
  | returning {colon : Token} {as : List Token} :
      colon.kind = .colon → Derives names .atom as → Grows names .signature (colon :: as)

/-- The tokens that close a stack of brackets, innermost first. -/
def Unwinds : List Bracket → List Token → Prop
  | [], ts => ts = []
  | b :: bs, ts => ∃ inner c rest,
      Nested inner ∧ c.kind = .closing b ∧ Unwinds bs rest ∧ ts = inner ++ c :: rest

/-- The tokens after an atom that finish the constructs around it. -/
def Closes (names : Option Resolver) : List Frame → List Token → Prop
  | [], ts => Tail names ts
  | .group _ :: frames, ts => ∃ us c ss rest,
      Tail names us ∧ c.kind = .closing .paren ∧ Suffixes ss ∧ Closes names frames rest ∧
        ts = us ++ c :: (ss ++ rest)
  | .nullable _ :: frames, ts => Closes names frames ts
  | .signature _ :: frames, ts => Closes names frames ts
  | .compound _ :: frames, ts => Closes names frames ts

/-- How an atom may grow after a bracketed part. -/
def growthAfter : Enclosed → Growth
  | .signature => .signature
  | _ => .none

/-- The tokens that finish everything that is open in a state. -/
def Demands (names : Option Resolver) (s : State) (ts : List Token) : Prop :=
  match s.phase with
  | .expecting => ∃ as rest, Derives names .atom as ∧ Closes names s.frames rest ∧ ts = as ++ rest
  | .complete _ _ _ g => ∃ gs rest,
      Grows names g gs ∧ Closes names s.frames rest ∧ ts = gs ++ rest
  | .inside _ e closer inner => ∃ ws gs rest,
      Unwinds (inner ++ [closer]) ws ∧ Grows names (growthAfter e) gs ∧
        Closes names s.frames rest ∧ ts = ws ++ (gs ++ rest)

section

variable {names : Option Resolver}

/-! ### Types and atoms from their parts -/

theorem Tail.type {as us : List Token} (ha : Derives names .atom as) (h : Tail names us) :
    Derives names .type (as ++ us) := by
  cases h with
  | nil =>
    rw [List.append_nil]
    exact .single ha
  | cons hop hts => exact .join ha hop hts

theorem Tail.join {op : Token} {as us : List Token} (hop : IsJoin op)
    (ha : Derives names .atom as) (h : Tail names us) : Tail names (op :: (as ++ us)) :=
  .cons hop (h.type ha)

/-- A primary of a name and the growth of that name. -/
theorem Grows.atom {t : Token} {d : DocType} {gs : List Token} (ht : IsName names t d)
    (h : Grows names (.name d) gs) : Derives names .atom (t :: gs) := by
  cases h with
  | suffixes hss => exact .suffixed (.name ht) hss
  | arguments ha hss => exact .suffixed (.arguments ht ha) hss
  | shape hf hss => exact .suffixed (.shape ht hf) hss
  | signature hp hg =>
    cases hg with
    | suffixes hss => exact .suffixed (.signature ht hp) hss
    | returning hcolon ha =>
      have hatom := Derives.suffixed (.returning ht hp hcolon ha) .nil
      rw [List.append_nil] at hatom
      exact hatom

theorem Grows.suffixes_of_none {gs : List Token} (h : Grows names .none gs) : Suffixes gs := by
  cases h with
  | suffixes hss => exact hss

/-! ### Brackets -/

theorem Unwinds.free {t : Token} {b : Bracket} {bs : List Bracket} {ts : List Token}
    (ht : t.kind.isBracket = false) (h : Unwinds (b :: bs) ts) : Unwinds (b :: bs) (t :: ts) := by
  obtain ⟨inner, c, rest, hin, hc, hrest, rfl⟩ := h
  exact ⟨t :: inner, c, rest, .free ht hin, hc, hrest, rfl⟩

theorem Unwinds.opening {t : Token} {b b' : Bracket} {bs : List Bracket} {ts : List Token}
    (ht : t.kind = .opening b) (h : Unwinds (b :: b' :: bs) ts) : Unwinds (b' :: bs) (t :: ts) := by
  obtain ⟨inner, c, rest, hin, hc, ⟨inner', c', rest', hin', hc', hrest', rfl⟩, rfl⟩ := h
  exact ⟨t :: (inner ++ c :: inner'), c', rest', .pair ht hin hc hin', hc', hrest', by simp⟩

theorem Unwinds.closing {t : Token} {b : Bracket} {bs : List Bracket} {ts : List Token}
    (ht : t.kind = .closing b) (h : Unwinds bs ts) : Unwinds (b :: bs) (t :: ts) :=
  ⟨[], t, ts, .nil, ht, h, rfl⟩

theorem Unwinds.bracketed {o : Token} {b : Bracket} {ws : List Token} (ho : o.kind = .opening b)
    (h : Unwinds [b] ws) : Bracketed b (o :: ws) := by
  obtain ⟨inner, c, rest, hin, hc, rfl, rfl⟩ := h
  exact .intro ho hin hc

/-! ### Frames -/

/-- The frames that an atom ends demand nothing. -/
theorem closes_closeAtom (stop : Nat) (frames : List Frame) (start : Nat) (r : Reading)
    {ts : List Token} :
    Closes names (closeAtom stop frames start r).1 ts ↔ Closes names frames ts := by
  fun_induction closeAtom stop frames start r with
  | case1 _ _ _ _ ih => exact ih
  | case2 _ _ _ _ ih => exact ih
  | case3 => rfl

/-- A union or intersection that a type ends demands nothing. -/
theorem closes_closeType (stop : Nat) (frames : List Frame) (r : Reading) {ts : List Token} :
    Closes names (closeType stop frames r).1 ts ↔ Closes names frames ts := by
  fun_cases closeType stop frames r with
  | case1 => rfl
  | case2 => rfl

/-- One more atom before what closes the open constructs. -/
theorem Closes.join {op : Token} {as : List Token} (hop : IsJoin op)
    (ha : Derives names .atom as) :
    ∀ {frames : List Frame} {rest : List Token}, Closes names frames rest →
      Closes names frames (op :: (as ++ rest)) := by
  intro frames
  induction frames with
  | nil =>
    intro rest h
    exact Tail.join hop ha h
  | cons f frames ih =>
    intro rest h
    cases f with
    | group start =>
      obtain ⟨us, c, ss, rest', hus, hc, hss, hrest, rfl⟩ := h
      exact ⟨op :: (as ++ us), c, ss, rest', hus.join hop ha, hc, hss, hrest, by simp⟩
    | nullable start => exact ih h
    | signature start => exact ih h
    | compound start => exact ih h

/-! ### One step -/

theorem demands_of_stepExpecting {frames : List Frame} {t : Token} {s : State} {ts : List Token}
    (h : stepExpecting names frames t = .ok s) (hd : Demands names s ts) :
    Demands names ⟨frames, .expecting⟩ (t :: ts) := by
  unfold stepExpecting at h
  split at h
  next hk =>
    obtain rfl := Except.ok.inj h
    obtain ⟨as, rest, ha, hrest, rfl⟩ := hd
    exact ⟨t :: as, rest, .nullable hk ha, hrest, rfl⟩
  next hk =>
    -- the group ends in the middle of what closes its frame, and its suffixes follow there
    obtain rfl := Except.ok.inj h
    obtain ⟨as, _, ha, ⟨us, c, ss, rest, hus, hc, hss, hrest, rfl⟩, rfl⟩ := hd
    refine ⟨t :: (as ++ us ++ [c]) ++ ss, rest, ?_, hrest, by simp⟩
    exact .suffixed (.group hk (hus.type ha) hc) hss
  next hk =>
    obtain rfl := Except.ok.inj h
    obtain ⟨gs, rest, hg, hrest, rfl⟩ := hd
    exact ⟨t :: gs, rest, .suffixed (.literal (.inl hk)) hg.suffixes_of_none, hrest, rfl⟩
  next hk =>
    obtain rfl := Except.ok.inj h
    obtain ⟨gs, rest, hg, hrest, rfl⟩ := hd
    exact ⟨t :: gs, rest, .suffixed (.literal (.inr hk)) hg.suffixes_of_none, hrest, rfl⟩
  next hk =>
    split at h
    next d hname =>
      obtain rfl := Except.ok.inj h
      obtain ⟨gs, rest, hg, hrest, rfl⟩ := hd
      exact ⟨t :: gs, rest, hg.atom ⟨hk, hname⟩, hrest, rfl⟩
    next => cases h
  next => cases h

theorem Demands.join {frames : List Frame} {t : Token} {ts : List Token} (hop : IsJoin t)
    (hd : Demands names ⟨frames, .expecting⟩ ts) : Closes names frames (t :: ts) := by
  obtain ⟨as, rest, ha, hrest, rfl⟩ := hd
  exact hrest.join hop ha

/-- A compound demands no more than what is around it. -/
theorem Demands.of_compound {frames : List Frame} {start : Nat} {ts : List Token}
    (hd : Demands names ⟨.compound start :: frames, .expecting⟩ ts) :
    Demands names ⟨frames, .expecting⟩ ts := hd

/-- A closing parenthesis after a type ends the innermost group. -/
theorem Demands.group {frames : List Frame} {start stop start' : Nat} {r : Reading} {t : Token}
    {ts : List Token} (ht : t.kind = .closing .paren)
    (hd : Demands names ⟨frames, .complete start stop r .none⟩ ts) :
    Closes names (.group start' :: frames) (t :: ts) := by
  obtain ⟨gs, rest, hg, hrest, rfl⟩ := hd
  exact ⟨[], t, gs, rest, .nil, ht, hg.suffixes_of_none, hrest, rfl⟩

theorem closes_of_stepAfter {frames : List Frame} {start stop : Nat} {r : Reading} {t : Token}
    {s : State} {ts : List Token} (h : stepAfter frames start stop r t = .ok s)
    (hd : Demands names s ts) : Closes names frames (t :: ts) := by
  -- the token is read after `?` and return types have been closed
  rw [← closes_closeAtom stop frames start r]
  unfold stepAfter at h
  generalize closeAtom stop frames start r = closed at h ⊢
  obtain ⟨frames, start, r⟩ := closed
  dsimp only at h
  split at h
  next hk =>
    split at h
    · obtain rfl := Except.ok.inj h
      exact hd.join (.inl hk)
    · obtain rfl := Except.ok.inj h
      exact hd.of_compound.join (.inl hk)
  next hk =>
    split at h
    · obtain rfl := Except.ok.inj h
      exact hd.join (.inr hk)
    · obtain rfl := Except.ok.inj h
      exact hd.of_compound.join (.inr hk)
  next hk =>
    -- a parenthesis closes the compound as well, and then has to find a group
    rw [← closes_closeType stop frames r]
    split at h
    next start' frames' r' hclose =>
      obtain rfl := Except.ok.inj h
      rw [hclose]
      exact hd.group hk
    next => cases h
  next => cases h

/-- A bracket that opens demands a bracketed part, and then what the atom may grow by. -/
theorem Demands.opened {frames : List Frame} {start : Nat} {e : Enclosed} {b : Bracket}
    {o : Token} {ts : List Token} (ho : o.kind = .opening b)
    (hd : Demands names ⟨frames, .inside start e b []⟩ ts) :
    ∃ part gs rest, Bracketed b part ∧ Grows names (growthAfter e) gs ∧
      Closes names frames rest ∧ o :: ts = part ++ gs ++ rest := by
  obtain ⟨ws, gs, rest, hws, hg, hrest, rfl⟩ := hd
  exact ⟨o :: ws, gs, rest, hws.bracketed ho, hg, hrest, by simp⟩

theorem demands_of_stepComplete {frames : List Frame} {start stop : Nat} {r : Reading}
    {g : Growth} {t : Token} {s : State} {ts : List Token}
    (h : stepComplete frames start stop r g t = .ok s) (hd : Demands names s ts) :
    Demands names ⟨frames, .complete start stop r g⟩ (t :: ts) := by
  unfold stepComplete at h
  split at h
  next hk =>
    obtain rfl := Except.ok.inj h
    obtain ⟨part, gs, rest, hpart, hg, hrest, hts⟩ := hd.opened hk
    exact ⟨part ++ gs, rest, .suffixes (.cons hpart hg.suffixes_of_none), hrest, hts⟩
  next hk =>
    obtain rfl := Except.ok.inj h
    obtain ⟨args, gs, rest, hargs, hg, hrest, hts⟩ := hd.opened hk
    exact ⟨args ++ gs, rest, .arguments hargs hg.suffixes_of_none, hrest, hts⟩
  next hk =>
    obtain rfl := Except.ok.inj h
    obtain ⟨fields, gs, rest, hfields, hg, hrest, hts⟩ := hd.opened hk
    exact ⟨fields ++ gs, rest, .shape hfields hg.suffixes_of_none, hrest, hts⟩
  next hk =>
    -- only a signature may grow by more than suffixes
    obtain rfl := Except.ok.inj h
    obtain ⟨params, gs, rest, hparams, hg, hrest, hts⟩ := hd.opened hk
    exact ⟨params ++ gs, rest, .signature hparams hg, hrest, hts⟩
  next hk =>
    obtain rfl := Except.ok.inj h
    obtain ⟨as, rest, ha, hrest, rfl⟩ := hd
    exact ⟨t :: as, rest, .returning hk ha, hrest, rfl⟩
  next => exact ⟨[], t :: ts, .suffixes .nil, closes_of_stepAfter h hd, rfl⟩

theorem growthAfter_fill (e : Enclosed) : growthAfter e.fill = growthAfter e := by
  cases e <;> rfl

/-- A bracketed part that ends leaves an atom that may grow. -/
theorem close_eq_complete (e : Enclosed) (start stop : Nat) :
    ∃ r, e.close start stop = .complete start stop r (growthAfter e) := by
  cases e with
  | arguments form => exact ⟨_, rfl⟩
  | signature => exact ⟨_, rfl⟩
  | suffix empty => cases empty <;> exact ⟨_, rfl⟩

/-- A token inside of a bracketed part, given what it does to the stack of brackets. -/
theorem Demands.inside {frames : List Frame} {start : Nat} {e : Enclosed} {closer : Bracket}
    {inner inner' : List Bracket} {t : Token} {ts : List Token}
    (hd : Demands names ⟨frames, .inside start e.fill closer inner'⟩ ts)
    (ht : ∀ ws, Unwinds (inner' ++ [closer]) ws → Unwinds (inner ++ [closer]) (t :: ws)) :
    Demands names ⟨frames, .inside start e closer inner⟩ (t :: ts) := by
  obtain ⟨ws, gs, rest, hws, hg, hrest, rfl⟩ := hd
  rw [growthAfter_fill] at hg
  exact ⟨t :: ws, gs, rest, ht ws hws, hg, hrest, rfl⟩

theorem demands_of_stepInside {frames : List Frame} {start : Nat} {e : Enclosed}
    {closer : Bracket} {inner : List Bracket} {t : Token} {s : State} {ts : List Token}
    (h : stepInside frames start e closer inner t = .ok s) (hd : Demands names s ts) :
    Demands names ⟨frames, .inside start e closer inner⟩ (t :: ts) := by
  unfold stepInside at h
  split at h
  next b hk =>
    obtain rfl := Except.ok.inj h
    refine hd.inside fun ws hws => ?_
    cases inner with
    | nil => exact hws.opening hk
    | cons last inner => exact hws.opening hk
  next b hk =>
    split at h
    next last inner =>
      split at h
      next hb =>
        obtain rfl := Except.ok.inj h
        exact hd.inside fun ws hws => hws.closing (hb ▸ hk)
      next => cases h
    next =>
      -- the part ends here
      split at h
      next hb =>
        obtain rfl := Except.ok.inj h
        obtain ⟨r, hr⟩ := close_eq_complete e start t.stop
        rw [hr] at hd
        obtain ⟨gs, rest, hg, hrest, rfl⟩ := hd
        exact ⟨[t], gs, rest, Unwinds.closing (hb ▸ hk) rfl, hg, hrest, rfl⟩
      next => cases h
  next hopen hclose =>
    obtain rfl := Except.ok.inj h
    have hfree : t.kind.isBracket = false := by
      cases hk : t.kind with
      | opening b => exact absurd hk (hopen b)
      | closing b => exact absurd hk (hclose b)
      | _ => rfl
    refine hd.inside fun ws hws => ?_
    cases inner with
    | nil => exact hws.free hfree
    | cons last inner => exact hws.free hfree

theorem demands_of_step {s s' : State} {t : Token} {ts : List Token}
    (h : s.step names t = .ok s') (hd : Demands names s' ts) : Demands names s (t :: ts) := by
  obtain ⟨frames, phase⟩ := s
  cases phase with
  | expecting => exact demands_of_stepExpecting h hd
  | complete start stop r g => exact demands_of_stepComplete h hd
  | inside start e closer inner => exact demands_of_stepInside h hd

/-! ### Whole runs -/

theorem demands_of_finish {s : State} {r : Reading} (h : s.finish = .ok r) :
    Demands names s [] := by
  obtain ⟨frames, phase⟩ := s
  cases phase with
  | expecting => cases h
  | inside start e closer inner => cases h
  | complete start stop reading g =>
    refine ⟨[], [], .suffixes .nil, ?_, rfl⟩
    rw [← closes_closeAtom stop frames start reading]
    simp only [State.finish] at h
    split at h
    next r' hclose =>
      rw [← closes_closeType stop, hclose]
      exact .nil
    next => cases h

/-- A run that ends well has met the demands of the state it started in. -/
theorem demands_of_run {stop : Nat} {r : Reading} {ts : List Token} :
    ∀ {s : State}, s.run names stop ts = .ok r → Demands names s ts := by
  induction ts with
  | nil =>
    intro s h
    cases hf : s.finish with
    | ok r' => exact demands_of_finish hf
    | error e =>
      rw [State.run, hf] at h
      cases h
  | cons t ts ih =>
    intro s h
    rw [State.run] at h
    split at h
    next s' hs => exact demands_of_step hs (ih h)
    next => cases h

/-- Tokens that are read from the start are those of a type. -/
theorem derives_of_run {stop : Nat} {r : Reading} {ts : List Token}
    (h : State.initial.run names stop ts = .ok r) : Derives names .type ts := by
  obtain ⟨as, rest, ha, hrest, rfl⟩ := demands_of_run h
  exact Tail.type ha hrest

end

end DocPromotion.Grammar
