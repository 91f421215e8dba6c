import DocPromotion.Proofs.GrammarCompleteness

/-!
The bracket that ends a bracketed part.

Inside of brackets, the reader only looks for the bracket that closes them.  It finds the one that
matches: what it has read before is nested properly, and there is only one such bracket.  The main
statement also says where and with what fault it fails if there is none.

`LeavesOpen` describes the tokens that can be read without an end or a fault, with the brackets
that they leave open.  The stack of the reader holds just these brackets
(`leave_append_of_leavesOpen`), and one more token either can be read as well, or is the matching
bracket, or is out of place (`closed_or_mismatch_or_leavesOpen`).
-/

namespace DocPromotion

namespace DocType

/-- Inside of a bracketed part. -/
def State.isInside (s : State) : Bool :=
  match s.phase with
  | .inside .. => true
  | _ => false

/-- Reads tokens up to and with the first one after which the reader is not inside of a bracketed
part.  The result is the state after it, with the tokens that are still to be read. -/
def State.leave (names : Option Resolver) (stop : Nat) (s : State) :
    List Token → Except (Nat × SyntaxFault) (State × List Token)
  | [] =>
    match s.finish with
    | .ok _ => .ok (s, [])
    | .error fault => .error (stop, fault)
  | t :: ts =>
    match s.step names t with
    | .ok u => if u.isInside then u.leave names stop ts else .ok (u, ts)
    | .error fault => .error (t.start, fault)

/-- A run goes on from where a bracketed part has been left. -/
theorem State.run_eq_leave (names : Option Resolver) (stop : Nat) (ts : List Token) :
    ∀ s : State, s.run names stop ts =
      (s.leave names stop ts).bind fun left => left.1.run names stop left.2 := by
  induction ts with
  | nil =>
    intro s
    rw [State.leave]
    cases h : s.finish with
    | ok r => rfl
    | error fault =>
      rw [State.run, h]
      rfl
  | cons t ts ih =>
    intro s
    rw [State.run, State.leave]
    cases s.step names t with
    | error fault => rfl
    | ok u =>
      dsimp only
      cases u.isInside with
      | true => exact ih u
      | false => rfl

end DocType

namespace Grammar

open DocType

/-! ### Brackets that are left open -/

theorem Nested.append {ts us : List Token} (hts : Nested ts) (hus : Nested us) :
    Nested (ts ++ us) := by
  induction hts with
  | nil => exact hus
  | free ht _ ih => exact .free ht ih
  | pair ho hin hc _ _ ih =>
    rw [List.cons_append, List.append_assoc, List.cons_append]
    exact .pair ho hin hc ih

/-- Tokens that leave some brackets open, of which the innermost comes first.  Everything else in
them is nested properly. -/
inductive LeavesOpen : List Bracket → List Token → Prop where
  | nested {ts : List Token} : Nested ts → LeavesOpen [] ts
  | opening {b : Bracket} {bs : List Bracket} {before inner : List Token} {o : Token} :
      LeavesOpen bs before → o.kind = .opening b → Nested inner →
      LeavesOpen (b :: bs) (before ++ o :: inner)

section

variable {b : Bracket} {bs : List Bracket} {ts : List Token} {t : Token}

theorem LeavesOpen.append_nested {inner : List Token} (h : LeavesOpen bs ts) (hin : Nested inner) :
    LeavesOpen bs (ts ++ inner) := by
  cases h with
  | nested hts => exact .nested (hts.append hin)
  | opening hbefore ho hinner =>
    rw [List.append_assoc, List.cons_append]
    exact .opening hbefore ho (hinner.append hin)

theorem LeavesOpen.concat_free (h : LeavesOpen bs ts) (ht : t.kind.isBracket = false) :
    LeavesOpen bs (ts ++ [t]) := h.append_nested (.free ht .nil)

theorem LeavesOpen.concat_opening (h : LeavesOpen bs ts) (ht : t.kind = .opening b) :
    LeavesOpen (b :: bs) (ts ++ [t]) := .opening h ht .nil

/-- The innermost bracket is closed, and with it a pair of brackets is complete. -/
theorem LeavesOpen.concat_closing (h : LeavesOpen (b :: bs) ts) (ht : t.kind = .closing b) :
    LeavesOpen bs (ts ++ [t]) := by
  cases h with
  | opening hbefore ho hinner =>
    rw [List.append_assoc]
    exact hbefore.append_nested (.pair ho hinner ht .nil)

end

/-! ### Where a part ends -/

/-- The tokens start with a part that is nested properly, and a bracket that closes it. -/
structure ClosedBy (closer : Bracket) (ts part : List Token) (c : Token) (rest : List Token) :
    Prop where
  tokens : ts = part ++ c :: rest
  nested : Nested part
  closing : c.kind = .closing closer

/-- After the tokens `before`, the token `t` is a closing bracket that matches neither the
innermost bracket that is open nor, if none is open, the bracket that is looked for. -/
def IsMismatch (closer : Bracket) (before : List Token) (t : Token) : Prop :=
  ∃ bs b, LeavesOpen bs before ∧ t.kind = .closing b ∧ bs.headD closer ≠ b

/-- The first mismatch among some tokens comes after the tokens `before`. -/
structure FirstMismatch (closer : Bracket) (ts before : List Token) (t : Token) : Prop where
  tokens : ∃ after, ts = before ++ t :: after
  mismatch : IsMismatch closer before t
  first : ∀ before' t' after', before = before' ++ t' :: after' → ¬ IsMismatch closer before' t'

/-- Either the part is closed, or a bracket is out of place, or all tokens belong to the part. -/
theorem closed_or_mismatch_or_leavesOpen (closer : Bracket) (ts : List Token) :
    (∃ part c rest, ClosedBy closer ts part c rest) ∨
      (∃ before t after, ts = before ++ t :: after ∧ IsMismatch closer before t) ∨
      ∃ bs, LeavesOpen bs ts := by
  -- along the tokens from the left, as long as they all belong to the part
  induction ts using List.reverseRecOn with
  | nil => exact .inr (.inr ⟨[], .nested .nil⟩)
  | append_singleton ts t ih =>
    rcases ih with ⟨part, c, rest, rfl, hpart, hc⟩ | ⟨before, t', after, rfl, hmismatch⟩ | ⟨bs, hbs⟩
    · exact .inl ⟨part, c, rest ++ [t], by simp, hpart, hc⟩
    · exact .inr (.inl ⟨before, t', after ++ [t], by simp, hmismatch⟩)
    · cases hk : t.kind with
      | opening b => exact .inr (.inr ⟨b :: bs, hbs.concat_opening hk⟩)
      | closing b =>
        by_cases hb : bs.headD closer = b
        · cases hbs with
          | nested hts =>
            obtain rfl : closer = b := hb
            exact .inl ⟨ts, t, [], rfl, hts, hk⟩
          | opening hbefore ho hinner =>
            obtain rfl := hb
            exact .inr (.inr ⟨_, (LeavesOpen.opening hbefore ho hinner).concat_closing hk⟩)
        · exact .inr (.inl ⟨ts, t, [], rfl, bs, b, hbs, hk, hb⟩)
      | _ => exact .inr (.inr ⟨bs, hbs.concat_free (by rw [hk]; rfl)⟩)

/-! ### The reader inside of a part -/

section

variable {names : Option Resolver} {stop : Nat} {frames : List Frame} {start : Nat}
  {e : Enclosed} {closer : Bracket}

theorem leave_cons_of_inside {s u : State} {t : Token} (h : s.step names t = .ok u)
    (hu : u.isInside = true) (ts : List Token) :
    s.leave names stop (t :: ts) = u.leave names stop ts := by
  rw [State.leave, h]
  exact if_pos hu

theorem fill_fillBy (e : Enclosed) (ts : List Token) : (fillBy e ts).fill = e.fill := by
  cases ts <;> cases e <;> rfl

theorem step_opening {o : Token} {b : Bracket} (ho : o.kind = .opening b) (inner : List Bracket) :
    State.step names ⟨frames, .inside start e closer inner⟩ o =
      .ok ⟨frames, .inside start e.fill closer (b :: inner)⟩ := by
  simp [State.step, stepInside, ho]

/-- A part that is nested properly leaves the stack as it was. -/
theorem leave_append_of_nested {w : List Token} (h : Nested w) :
    ∀ (e : Enclosed) (inner : List Bracket) (ts : List Token),
      State.leave names stop ⟨frames, .inside start e closer inner⟩ (w ++ ts) =
        State.leave names stop ⟨frames, .inside start (fillBy e w) closer inner⟩ ts := by
  induction h with
  | nil =>
    intro e inner ts
    rfl
  | @free t w ht _ ih =>
    intro e inner ts
    have hread : State.step names ⟨frames, .inside start e closer inner⟩ t =
        .ok ⟨frames, .inside start e.fill closer inner⟩ := stepInside_free ht
    rw [List.cons_append, leave_cons_of_inside hread rfl, ih, fillBy_fill]
    rfl
  | @pair o c b within w ho _ hc _ ih ih' =>
    intro e inner ts
    have hclose : State.step names ⟨frames, .inside start e.fill closer (b :: inner)⟩ c =
        .ok ⟨frames, .inside start e.fill closer inner⟩ := by
      cases e <;> simp [State.step, stepInside, hc, Enclosed.fill]
    rw [List.cons_append, leave_cons_of_inside (step_opening ho inner) rfl, List.append_assoc, ih,
      fillBy_fill, List.cons_append, leave_cons_of_inside hclose rfl, ih', fillBy_fill]
    rfl

/-- **The stack of the reader holds the brackets that are left open.** -/
theorem leave_append_of_leavesOpen {bs : List Bracket} {before : List Token}
    (h : LeavesOpen bs before) (ts : List Token) :
    State.leave names stop ⟨frames, .inside start e closer []⟩ (before ++ ts) =
      State.leave names stop ⟨frames, .inside start (fillBy e before) closer bs⟩ ts := by
  induction h generalizing ts with
  | nested hts => exact leave_append_of_nested hts e [] ts
  | @opening b bs before inner o _ ho hinner ih =>
    have hfill : fillBy e (before ++ o :: inner) = e.fill := by
      cases before <;> rfl
    rw [List.append_assoc, List.cons_append, ih, leave_cons_of_inside (step_opening ho bs) rfl,
      leave_append_of_nested hinner, fill_fillBy, fillBy_fill, hfill]

/-- The reader leaves a part after the bracket that closes it. -/
theorem leave_of_closedBy {ts part : List Token} {c : Token} {rest : List Token}
    (h : ClosedBy closer ts part c rest) :
    State.leave names stop ⟨frames, .inside start e closer []⟩ ts =
      .ok (⟨frames, (fillBy e part).close start c.stop⟩, rest) := by
  obtain ⟨rfl, hpart, hc⟩ := h
  have hclose : State.step names ⟨frames, .inside start (fillBy e part) closer []⟩ c =
      .ok ⟨frames, (fillBy e part).close start c.stop⟩ := by
    simp [State.step, stepInside, hc]
  have houtside : State.isInside ⟨frames, (fillBy e part).close start c.stop⟩ = false := by
    obtain ⟨r, hr⟩ := close_eq_complete (fillBy e part) start c.stop
    rw [hr]
    rfl
  rw [leave_append_of_nested hpart, State.leave, hclose]
  exact if_neg (by simp [houtside])

/-- It fails at a bracket that is out of place. -/
theorem leave_of_isMismatch {before : List Token} {t : Token} (h : IsMismatch closer before t)
    (after : List Token) :
    State.leave names stop ⟨frames, .inside start e closer []⟩ (before ++ t :: after) =
      .error (t.start, .unbalanced t.text) := by
  obtain ⟨bs, b, hbs, hk, hb⟩ := h
  have hstep : State.step names ⟨frames, .inside start (fillBy e before) closer bs⟩ t =
      .error (.unbalanced t.text) := by
    cases bs with
    | nil => simp [State.step, stepInside, hk, Ne.symm (show closer ≠ b from hb)]
    | cons last bs => simp [State.step, stepInside, hk, Ne.symm (show last ≠ b from hb)]
  rw [leave_append_of_leavesOpen hbs, State.leave, hstep]

/-- It fails at the end of the tokens if they all belong to the part. -/
theorem leave_of_leavesOpen {bs : List Bracket} {ts : List Token} (h : LeavesOpen bs ts) :
    State.leave names stop ⟨frames, .inside start e closer []⟩ ts =
      .error (stop, .unterminated) := by
  have hend : State.leave names stop ⟨frames, .inside start e closer []⟩ (ts ++ []) =
      State.leave names stop ⟨frames, .inside start (fillBy e ts) closer bs⟩ [] :=
    leave_append_of_leavesOpen h []
  rw [List.append_nil] at hend
  rw [hend]
  rfl

end

/-! ### There is only one such bracket -/

section

variable {closer : Bracket} {ts : List Token}

theorem ClosedBy.unique {part part' rest rest' : List Token} {c c' : Token}
    (h : ClosedBy closer ts part c rest) (h' : ClosedBy closer ts part' c' rest') :
    part = part' ∧ c = c' ∧ rest = rest' := by
  -- the reader leaves both parts in the same place
  have hleft : State.leave none 0 ⟨[], .inside 0 .signature closer []⟩ ts = _ := leave_of_closedBy h
  rw [leave_of_closedBy h'] at hleft
  obtain rfl : rest' = rest := (Prod.mk.inj (Except.ok.inj hleft)).2
  have htokens := h.tokens.symm.trans h'.tokens
  rw [List.append_cons, List.append_cons part' c' rest'] at htokens
  obtain ⟨hpart, hc⟩ := List.append_inj' (List.append_cancel_right htokens) rfl
  exact ⟨hpart, (List.cons.inj hc).1, rfl⟩

/-- No bracket is out of place among tokens that all belong to the part. -/
theorem LeavesOpen.not_isMismatch {bs : List Bracket} {before after : List Token} {t : Token}
    (h : LeavesOpen bs (before ++ t :: after)) : ¬ IsMismatch closer before t := by
  intro hmismatch
  -- the reader would fail at it, and not at the end
  have hfail : State.leave none 0 ⟨[], .inside 0 .signature closer []⟩ (before ++ t :: after) =
      .error (t.start, .unbalanced t.text) := leave_of_isMismatch hmismatch after
  rw [leave_of_leavesOpen h] at hfail
  cases (Prod.mk.inj (Except.error.inj hfail)).2

theorem LeavesOpen.not_firstMismatch {bs : List Bracket} (h : LeavesOpen bs ts) :
    ¬ ∃ before t, FirstMismatch closer ts before t := by
  rintro ⟨before, t, ⟨after, rfl⟩, hmismatch, -⟩
  exact h.not_isMismatch hmismatch

/-- So a mismatch is the first one. -/
theorem IsMismatch.firstMismatch {before after : List Token} {t : Token}
    (h : IsMismatch closer before t) : FirstMismatch closer (before ++ t :: after) before t where
  tokens := ⟨after, rfl⟩
  mismatch := h
  first := by
    rintro before' t' after' rfl
    obtain ⟨bs, -, hbs, -⟩ := h
    exact hbs.not_isMismatch

end

/-! ### Success and failure -/

section

variable {names : Option Resolver} {stop : Nat} {frames : List Frame} {start : Nat}
  {e : Enclosed} {closer : Bracket} {ts : List Token}

/-- A part is left directly after the bracket that closes it. -/
theorem leave_eq_ok_iff {u : State} {rest : List Token} :
    State.leave names stop ⟨frames, .inside start e closer []⟩ ts = .ok (u, rest) ↔
      ∃ part c, ClosedBy closer ts part c rest ∧
        u = ⟨frames, (fillBy e part).close start c.stop⟩ := by
  constructor
  · intro h
    rcases closed_or_mismatch_or_leavesOpen closer ts with
      ⟨part, c, rest', hclosed⟩ | ⟨before, t, after, rfl, hmismatch⟩ | ⟨bs, hbs⟩
    · rw [leave_of_closedBy hclosed] at h
      obtain ⟨rfl, rfl⟩ := Prod.mk.inj (Except.ok.inj h)
      exact ⟨part, c, hclosed, rfl⟩
    · rw [leave_of_isMismatch hmismatch] at h
      cases h
    · rw [leave_of_leavesOpen hbs] at h
      cases h
  · rintro ⟨part, c, hclosed, rfl⟩
    exact leave_of_closedBy hclosed

/-- Without such a bracket, the fault is at the first one that is out of place, or at the end. -/
theorem leave_eq_error_iff {offset : Nat} {fault : SyntaxFault} :
    State.leave names stop ⟨frames, .inside start e closer []⟩ ts = .error (offset, fault) ↔
      (¬ ∃ part c rest, ClosedBy closer ts part c rest) ∧
        ((∃ before t, FirstMismatch closer ts before t ∧ offset = t.start ∧
            fault = .unbalanced t.text) ∨
          ((¬ ∃ before t, FirstMismatch closer ts before t) ∧ offset = stop ∧
            fault = .unterminated)) := by
  constructor
  · intro h
    have hnone : ¬ ∃ part c rest, ClosedBy closer ts part c rest := by
      rintro ⟨part, c, rest, hclosed⟩
      rw [leave_of_closedBy hclosed] at h
      cases h
    refine ⟨hnone, ?_⟩
    rcases closed_or_mismatch_or_leavesOpen closer ts with
      hclosed | ⟨before, t, after, rfl, hmismatch⟩ | ⟨bs, hbs⟩
    · exact absurd hclosed hnone
    · rw [leave_of_isMismatch hmismatch] at h
      obtain ⟨rfl, rfl⟩ := Prod.mk.inj (Except.error.inj h)
      exact .inl ⟨before, t, hmismatch.firstMismatch, rfl, rfl⟩
    · rw [leave_of_leavesOpen hbs] at h
      obtain ⟨rfl, rfl⟩ := Prod.mk.inj (Except.error.inj h)
      exact .inr ⟨hbs.not_firstMismatch, rfl, rfl⟩
  · rintro ⟨hnone, ⟨before, t, hfirst, rfl, rfl⟩ | ⟨hfirst, rfl, rfl⟩⟩
    · obtain ⟨after, rfl⟩ := hfirst.tokens
      exact leave_of_isMismatch hfirst.mismatch after
    · rcases closed_or_mismatch_or_leavesOpen closer ts with
        hclosed | ⟨before, t, after, rfl, hmismatch⟩ | ⟨bs, hbs⟩
      · exact absurd hclosed hnone
      · exact absurd ⟨before, t, hmismatch.firstMismatch⟩ hfirst
      · exact leave_of_leavesOpen hbs

end

/-! ### Main statement -/

/-- What becomes of tokens that are read inside of a part that `closer` ends. -/
structure FindsClosing (names : Option Resolver) (stop : Nat) (frames : List Frame) (start : Nat)
    (e : Enclosed) (closer : Bracket) (ts : List Token) : Prop where
  run : State.run names stop ⟨frames, .inside start e closer []⟩ ts =
    (State.leave names stop ⟨frames, .inside start e closer []⟩ ts).bind fun left =>
      left.1.run names stop left.2
  found : ∀ u rest,
    State.leave names stop ⟨frames, .inside start e closer []⟩ ts = .ok (u, rest) ↔
      ∃ part c, ClosedBy closer ts part c rest ∧
        u = ⟨frames, (fillBy e part).close start c.stop⟩
  unique : ∀ part c rest part' c' rest', ClosedBy closer ts part c rest →
    ClosedBy closer ts part' c' rest' → part = part' ∧ c = c' ∧ rest = rest'
  failed : ∀ offset fault,
    State.leave names stop ⟨frames, .inside start e closer []⟩ ts = .error (offset, fault) ↔
      (¬ ∃ part c rest, ClosedBy closer ts part c rest) ∧
        ((∃ before t, FirstMismatch closer ts before t ∧ offset = t.start ∧
            fault = .unbalanced t.text) ∨
          ((¬ ∃ before t, FirstMismatch closer ts before t) ∧ offset = stop ∧
            fault = .unterminated))
  unbalanced : ∀ token,
    (SyntaxFault.unbalanced token).message = "unbalanced " ++ Text.quote token
  unterminated : SyntaxFault.unterminated.message = "unterminated type arguments"

/-- **Inside of brackets, the reader finds the closing bracket that matches.**  It goes on directly
after this bracket.  If there is none, it fails at the first closing bracket that matches neither
the innermost open one nor the one that is looked for, or else at the end of the tokens. -/
theorem leave_finds_closing (names : Option Resolver) (stop : Nat) (frames : List Frame)
    (start : Nat) (e : Enclosed) (closer : Bracket) (ts : List Token) :
    FindsClosing names stop frames start e closer ts where
  run := State.run_eq_leave names stop ts _
  found := fun _ _ => leave_eq_ok_iff
  unique := fun _ _ _ _ _ _ h h' => h.unique h'
  failed := fun _ _ => leave_eq_error_iff
  unbalanced := fun _ => rfl
  unterminated := rfl

/-- Of two brackets of the right kind, the first one closes the part and the second one does not. -/
theorem leave_finds_closing_first :
    ClosedBy .angle (Token.lex "()>>") (Token.lex "()") ⟨.closing .angle, ">", 2⟩
        [⟨.closing .angle, ">", 3⟩] ∧
      ¬ ClosedBy .angle (Token.lex "()>>") (Token.lex "()>") ⟨.closing .angle, ">", 3⟩ [] := by
  have hnested : Nested (Token.lex "()") := by
    have hlex : Token.lex "()" = [⟨.opening .paren, "(", 0⟩, ⟨.closing .paren, ")", 1⟩] := by
      cbv
    rw [hlex]
    exact @Nested.pair _ _ _ [] [] rfl .nil rfl .nil
  have hfirst : ClosedBy .angle (Token.lex "()>>") (Token.lex "()") ⟨.closing .angle, ">", 2⟩
      [⟨.closing .angle, ">", 3⟩] := ⟨by cbv, hnested, rfl⟩
  refine ⟨hfirst, fun hsecond => ?_⟩
  have hunique := (leave_finds_closing none 4 [] 0 .signature .angle _).unique
    _ _ _ _ _ _ hfirst hsecond
  cases hunique.2.2

end Grammar

end DocPromotion
