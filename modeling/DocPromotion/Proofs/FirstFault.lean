import DocPromotion.Proofs.GrammarCompleteness

/-!
A syntax error points at the first token that cannot be there.

The reader never looks ahead, so it can only fail at a token, or at the end of all tokens
(`fault_of_run`).  Two facts make this token the first one at fault.

* Whatever the reader has read so far can be finished: every state has tokens that meet its demands
  (`exists_demands`), and demands are handed back along the tokens that were read
  (`Leads.demands`).  The tokens that finish it are names and closing brackets.
* A token at which the reader fails is fatal: tokens of the grammar are read to their end, and the
  reader does the same on all tokens with the same start (`Leads.run_append`).
-/

namespace DocPromotion

/-- The text of the token that a fault is about. -/
def SyntaxFault.token? : SyntaxFault → Option Text
  | .unexpected token => some token
  | .invalidName name => some name
  | .unbalanced token => some token
  | .missingType | .unexpectedEnd | .unterminated => none

/-- The message of a fault that is about a token ends with the quoted text of the token. -/
theorem SyntaxFault.message_of_token? {fault : SyntaxFault} {text : Text}
    (h : fault.token? = some text) : ∃ before, fault.message = before ++ Text.quote text := by
  cases fault with
  | unexpected token =>
    obtain rfl := Option.some.inj h
    exact ⟨_, rfl⟩
  | invalidName name =>
    obtain rfl := Option.some.inj h
    exact ⟨_, rfl⟩
  | unbalanced token =>
    obtain rfl := Option.some.inj h
    exact ⟨_, rfl⟩
  | missingType => cases h
  | unexpectedEnd => cases h
  | unterminated => cases h

/-- A token that its own text is read as. -/
def Token.IsGenuine (t : Token) : Prop := Token.lex t.text = [{ t with start := 0 }]

namespace Grammar

open DocType

/-! ### Tokens that finish what is open -/

/-- A closing bracket. -/
def closingToken : Bracket → Token
  | .angle => ⟨.closing .angle, ">", 0⟩
  | .brace => ⟨.closing .brace, "\x7d", 0⟩
  | .paren => ⟨.closing .paren, ")", 0⟩
  | .square => ⟨.closing .square, "]", 0⟩

theorem closingToken_kind (b : Bracket) : (closingToken b).kind = .closing b := by
  cases b <;> rfl

theorem closingToken_isGenuine (b : Bracket) : (closingToken b).IsGenuine := by
  unfold Token.IsGenuine
  cases b <;> cbv

/-- A name that is a type under every resolver. -/
def intToken : Token := ⟨.name, "int", 0⟩

theorem intToken_isGenuine : intToken.IsGenuine := by
  show Token.lex "int" = [intToken]
  cbv

section

variable {names : Option Resolver}

theorem derives_intToken : Derives names .atom [intToken] := by
  have hkeyword : ofKeyword? (Text.lower intToken.text) intToken.text = some (.scalar .int) := by
    decide +kernel
  have hname : IsName names intToken (.scalar .int) := by
    refine ⟨rfl, ?_⟩
    rw [ofName?, hkeyword]
  have hatom : Derives names .atom ([intToken] ++ []) := .suffixed (.name hname) .nil
  exact hatom

theorem exists_unwinds (bs : List Bracket) :
    ∃ more, (∀ t ∈ more, t.IsGenuine) ∧ Unwinds bs more := by
  induction bs with
  | nil => exact ⟨[], by simp, rfl⟩
  | cons b bs ih =>
    obtain ⟨more, hgenuine, hmore⟩ := ih
    refine ⟨closingToken b :: more, ?_, Unwinds.closing (closingToken_kind b) hmore⟩
    rw [List.forall_mem_cons]
    exact ⟨closingToken_isGenuine b, hgenuine⟩

theorem exists_closes (names : Option Resolver) (frames : List Frame) :
    ∃ more, (∀ t ∈ more, t.IsGenuine) ∧ Closes names frames more := by
  induction frames with
  | nil => exact ⟨[], by simp, .nil⟩
  | cons f frames ih =>
    obtain ⟨more, hgenuine, hmore⟩ := ih
    cases f with
    | group start =>
      refine ⟨closingToken .paren :: more, ?_, ?_⟩
      · rw [List.forall_mem_cons]
        exact ⟨closingToken_isGenuine .paren, hgenuine⟩
      · exact ⟨[], closingToken .paren, [], more, .nil, rfl, .nil, hmore, rfl⟩
    -- an atom or a type that ends needs no token of its own
    | nullable start => exact ⟨more, hgenuine, hmore⟩
    | signature start => exact ⟨more, hgenuine, hmore⟩
    | compound start => exact ⟨more, hgenuine, hmore⟩

/-- Everything that is open in a state can be finished. -/
theorem exists_demands (names : Option Resolver) (s : State) :
    ∃ more, (∀ t ∈ more, t.IsGenuine) ∧ Demands names s more := by
  obtain ⟨frames, phase⟩ := s
  obtain ⟨rest, hgenuine, hrest⟩ := exists_closes names frames
  cases phase with
  | expecting =>
    refine ⟨intToken :: rest, ?_, [intToken], rest, derives_intToken, hrest, rfl⟩
    rw [List.forall_mem_cons]
    exact ⟨intToken_isGenuine, hgenuine⟩
  | complete start stop r g => exact ⟨rest, hgenuine, [], rest, .suffixes .nil, hrest, rfl⟩
  | inside start e closer inner =>
    -- first the brackets inside, then the one around them
    obtain ⟨ws, hgenuine', hws⟩ := exists_unwinds (inner ++ [closer])
    refine ⟨ws ++ rest, ?_, ws, [], rest, hws, .suffixes .nil, hrest, rfl⟩
    rw [List.forall_mem_append]
    exact ⟨hgenuine', hgenuine⟩

/-! ### Tokens that have been read -/

/-- The demands of a state are part of those of every state before it. -/
theorem Leads.demands {ts more : List Token} {s' : State} (hmore : Demands names s' more) :
    ∀ {s : State}, Leads names s ts s' → Demands names s (ts ++ more) := by
  -- along the tokens: each step hands the demands back to the state before it
  induction ts with
  | nil =>
    intro s h
    obtain rfl : s = s' := h
    exact hmore
  | cons t ts ih =>
    intro s h
    obtain ⟨u, hu, hts⟩ := h
    exact demands_of_step hu (ih hts)

/-- **What has been read without a fault can be continued to a type.** -/
theorem Leads.exists_derives {ts : List Token} {s : State}
    (h : Leads names State.initial ts s) :
    ∃ more, (∀ t ∈ more, t.IsGenuine) ∧ Derives names .type (ts ++ more) := by
  obtain ⟨more, hgenuine, hmore⟩ := exists_demands names s
  obtain ⟨as, rest, ha, hrest, heq⟩ := h.demands hmore
  refine ⟨more, hgenuine, ?_⟩
  rw [heq]
  exact Tail.type ha hrest

/-- The reader does the same on all tokens with the same start. -/
theorem Leads.run_append {stop : Nat} {ts us : List Token} {s' : State} :
    ∀ {s : State}, Leads names s ts s' →
      s.run names stop (ts ++ us) = s'.run names stop us := by
  induction ts with
  | nil =>
    intro s h
    obtain rfl : s = s' := h
    rfl
  | cons t ts ih =>
    intro s h
    obtain ⟨u, hu, hts⟩ := h
    rw [List.cons_append, State.run, hu]
    exact ih hts

theorem exists_run_of_derives (stop : Nat) {ts : List Token} (h : Derives names .type ts) :
    ∃ r, State.initial.run names stop ts = .ok r := by
  have hdenotes : ∃ d, Denotes names [] .type ts d := exists_denotes_iff.mpr h
  obtain ⟨d, hd⟩ := hdenotes
  have hrun : ∃ r, State.initial.run names stop ts = .ok r ∧ r.toDocType [] = d :=
    run_of_denotes hd
  obtain ⟨r, hr, -⟩ := hrun
  exact ⟨r, hr⟩

/-- No type starts with tokens at the last of which the reader fails. -/
theorem Leads.not_derives_of_step {ts more : List Token} {s : State} {t : Token}
    {fault : SyntaxFault} (h : Leads names State.initial ts s)
    (ht : s.step names t = .error fault) : ¬ Derives names .type (ts ++ t :: more) := by
  -- the reader would accept them, but it fails at `t` whatever comes after it
  intro hderives
  obtain ⟨r, hr⟩ := exists_run_of_derives 0 hderives
  rw [h.run_append, State.run, ht] at hr
  cases hr

/-- Tokens after which the reader cannot finish are no type. -/
theorem Leads.not_derives_of_finish {ts : List Token} {s : State} {fault : SyntaxFault}
    (h : Leads names State.initial ts s) (hs : s.finish = .error fault) :
    ¬ Derives names .type ts := by
  intro hderives
  obtain ⟨r, hr⟩ := exists_run_of_derives 0 hderives
  rw [h.run_eq, hs] at hr
  cases hr

/-! ### Where the reader fails -/

/-- The reader fails at a token, or at the end of all tokens. -/
theorem fault_of_run {stop offset : Nat} {fault : SyntaxFault} {ts : List Token} :
    ∀ {s : State}, s.run names stop ts = .error (offset, fault) →
      (∃ before t after s', ts = before ++ t :: after ∧ Leads names s before s' ∧
        s'.step names t = .error fault ∧ offset = t.start) ∨
      (∃ s', Leads names s ts s' ∧ s'.finish = .error fault ∧ offset = stop) := by
  induction ts with
  | nil =>
    intro s h
    refine .inr ⟨s, rfl, ?_⟩
    rw [State.run] at h
    cases hf : s.finish with
    | ok r =>
      rw [hf] at h
      cases h
    | error fault' =>
      rw [hf] at h
      obtain ⟨rfl, rfl⟩ := Prod.mk.inj (Except.error.inj h)
      exact ⟨rfl, rfl⟩
  | cons t ts ih =>
    intro s h
    rw [State.run] at h
    split at h
    next u hu =>
      rcases ih h with ⟨before, t', after, s', rfl, hbefore, ht', ho⟩ | ⟨s', hts, hs', ho⟩
      · exact .inl ⟨t :: before, t', after, s', rfl, .step hu hbefore, ht', ho⟩
      · exact .inr ⟨s', .step hu hts, hs', ho⟩
    next fault' ht =>
      obtain ⟨rfl, rfl⟩ := Prod.mk.inj (Except.error.inj h)
      exact .inl ⟨[], t, ts, s, rfl, rfl, ht, rfl⟩

/-! ### What a fault is about -/

theorem token?_of_stepExpecting {frames : List Frame} {t : Token} {fault : SyntaxFault}
    (h : stepExpecting names frames t = .error fault) : fault.token? = some t.text := by
  unfold stepExpecting at h
  split at h
  next => cases h
  next => cases h
  next => cases h
  next => cases h
  next =>
    split at h
    next => cases h
    next =>
      obtain rfl := Except.error.inj h
      rfl
  next =>
    obtain rfl := Except.error.inj h
    rfl

theorem token?_of_stepAfter {frames : List Frame} {start stop : Nat} {r : Reading} {t : Token}
    {fault : SyntaxFault} (h : stepAfter frames start stop r t = .error fault) :
    fault.token? = some t.text := by
  unfold stepAfter at h
  generalize closeAtom stop frames start r = closed at h
  obtain ⟨frames, start, r⟩ := closed
  dsimp only at h
  split at h
  next => split at h <;> cases h
  next => split at h <;> cases h
  next =>
    split at h
    next => cases h
    next =>
      obtain rfl := Except.error.inj h
      rfl
  next =>
    obtain rfl := Except.error.inj h
    rfl

theorem token?_of_stepComplete {frames : List Frame} {start stop : Nat} {r : Reading}
    {g : Growth} {t : Token} {fault : SyntaxFault}
    (h : stepComplete frames start stop r g t = .error fault) : fault.token? = some t.text := by
  unfold stepComplete at h
  split at h
  next => cases h
  next => cases h
  next => cases h
  next => cases h
  next => cases h
  next => exact token?_of_stepAfter h

theorem token?_of_stepInside {frames : List Frame} {start : Nat} {e : Enclosed}
    {closer : Bracket} {inner : List Bracket} {t : Token} {fault : SyntaxFault}
    (h : stepInside frames start e closer inner t = .error fault) :
    fault.token? = some t.text := by
  unfold stepInside at h
  split at h
  next => cases h
  next =>
    split at h
    next =>
      split at h
      next => cases h
      next =>
        obtain rfl := Except.error.inj h
        rfl
    next =>
      split at h
      next => cases h
      next =>
        obtain rfl := Except.error.inj h
        rfl
  next => cases h

/-- A fault at a token is about this token. -/
theorem token?_of_step {s : State} {t : Token} {fault : SyntaxFault}
    (h : s.step names t = .error fault) : fault.token? = some t.text := by
  obtain ⟨frames, phase⟩ := s
  cases phase with
  | expecting => exact token?_of_stepExpecting h
  | complete start stop r g => exact token?_of_stepComplete h
  | inside start e closer inner => exact token?_of_stepInside h

end

/-! ### Main statement -/

/-- An error of an expression with the tokens `ts` points at the first of them that cannot be
there, which has index `k`, or at the end if all of them can be there. -/
structure PointsAt (names : Option Resolver) (e : SyntaxError) (ts : List Token) (k : Nat) :
    Prop where
  offset : e.offset = (ts[k]?.map Token.start).getD e.expr.length
  /-- The tokens before it can be continued to a type. -/
  viable : ∃ more, (∀ t ∈ more, t.IsGenuine) ∧ Derives names .type (ts.take k ++ more)
  /-- The tokens up to it cannot. -/
  fatal : k < ts.length → ∀ more, ¬ Derives names .type (ts.take (k + 1) ++ more)
  /-- All tokens together are no type. -/
  refused : ¬ Derives names .type ts
  quotes : ∀ t, ts[k]? = some t → ∃ before, e.fault.message = before ++ Text.quote t.text

/-- **A syntax error points at the first token at fault.**  The tokens before it are the start of a
type.  No type starts with these and the token, or, if the error points at the end, the tokens are
no type as they are.  The message quotes the token. -/
theorem parse_error_points_at_first_fault (names : Option Resolver) (expr : Text)
    (e : SyntaxError) (h : parse names expr = .error e) :
    e.expr = expr ∧ ∃ k ≤ (Token.lex expr).length, PointsAt names e (Token.lex expr) k := by
  unfold parse at h
  split at h
  next => cases h
  next offset fault hrun =>
    obtain rfl := Except.error.inj h
    refine ⟨rfl, ?_⟩
    rcases fault_of_run hrun with ⟨before, t, after, s, hts, hs, ht, ho⟩ | ⟨s, hs, hfinish, ho⟩
    · -- the fault is at the token after `before`
      have hget : (before ++ t :: after)[before.length]? = some t := by simp
      have htake : (before ++ t :: after).take (before.length + 1) = before ++ [t] := by
        rw [List.take_append, List.take_of_length_le (Nat.le_succ _)]
        simp
      refine ⟨before.length, by simp [hts], ?_⟩
      rw [hts]
      constructor
      · rw [hget]
        exact ho
      · rw [List.take_left]
        exact hs.exists_derives
      · intro _ more
        rw [htake, List.append_assoc]
        exact hs.not_derives_of_step ht
      · exact hs.not_derives_of_step ht
      · intro t' ht'
        obtain rfl : t = t' := Option.some.inj (hget.symm.trans ht')
        exact SyntaxFault.message_of_token? (token?_of_step ht)
    · -- all tokens have been read
      have hget : (Token.lex expr)[(Token.lex expr).length]? = none := by simp
      refine ⟨(Token.lex expr).length, Nat.le_refl _, ?_⟩
      constructor
      · rw [hget]
        exact ho
      · rw [List.take_length]
        exact hs.exists_derives
      · intro hlt
        exact absurd hlt (Nat.lt_irrefl _)
      · exact hs.not_derives_of_finish hfinish
      · intro t ht
        rw [hget] at ht
        cases ht

/-- The fault is noticed at the closing bracket, inside of two that are still open. -/
theorem parse_error_points_at_first_fault_nested :
    parse none "?array<(int>" = .error ⟨"?array<(int>", 11, .unbalanced ">"⟩ ∧
      ∃ k ≤ (Token.lex "?array<(int>").length,
        PointsAt none ⟨"?array<(int>", 11, .unbalanced ">"⟩ (Token.lex "?array<(int>") k := by
  have hparse : parse none "?array<(int>" = .error ⟨"?array<(int>", 11, .unbalanced ">"⟩ := by
    cbv
  exact ⟨hparse, (parse_error_points_at_first_fault none _ _ hparse).2⟩

end Grammar

end DocPromotion
