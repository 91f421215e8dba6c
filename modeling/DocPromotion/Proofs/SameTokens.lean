import DocPromotion.Proofs.GrammarCompleteness
import DocPromotion.Proofs.Relexing

/-!
What a derivation owes to the offsets of its tokens.

The grammar looks at the kinds and the texts of tokens.  Their offsets only matter for the texts
that a type keeps of the expression.  So tokens with the same kinds and texts have the same
derivations (`Denotes.congr`), and the types that they denote in two expressions differ in such a
text at most (`TypesAlike`).

Arrays and iterables need more care, since their spelling decides whether they are plain.  Either
they are the same bare name in both expressions, or their texts end with a closing bracket.
-/

namespace DocPromotion

/-- What a token is apart from its offset. -/
def Token.content (t : Token) : TokenKind × Text := (t.kind, t.text)

/-- Tokens with the same kinds and texts. -/
def SameTokens (ts us : List Token) : Prop := ts.map Token.content = us.map Token.content

/-- A type without the text that it keeps of an expression. -/
def DocType.withoutSpelling : DocType → DocType
  | .array _ => .array []
  | .iterable _ => .iterable []
  | .unrepresentable _ => .unrepresentable []
  | d => d

theorem Token.kind_eq {t u : Token} (h : t.content = u.content) : t.kind = u.kind :=
  congrArg Prod.fst h

theorem Token.text_eq {t u : Token} (h : t.content = u.content) : t.text = u.text :=
  congrArg Prod.snd h

namespace SameTokens

variable {ts us ts₁ ts₂ : List Token} {t : Token}

theorem symm (h : SameTokens ts us) : SameTokens us ts := Eq.symm h

theorem eq_nil (h : SameTokens [] us) : us = [] := List.map_eq_nil_iff.mp (Eq.symm h)

theorem exists_cons (h : SameTokens (t :: ts) us) :
    ∃ u us', us = u :: us' ∧ u.content = t.content ∧ SameTokens ts us' := by
  obtain ⟨u, us', rfl, hu, hus⟩ := List.map_eq_cons_iff.mp (Eq.symm h)
  exact ⟨u, us', rfl, hu, hus.symm⟩

theorem exists_append (h : SameTokens (ts₁ ++ ts₂) us) :
    ∃ us₁ us₂, us = us₁ ++ us₂ ∧ SameTokens ts₁ us₁ ∧ SameTokens ts₂ us₂ := by
  have hmap : us.map Token.content = ts₁.map Token.content ++ ts₂.map Token.content := by
    rw [← List.map_append]
    exact h.symm
  obtain ⟨us₁, us₂, rfl, hus₁, hus₂⟩ := List.map_eq_append_iff.mp hmap
  exact ⟨us₁, us₂, rfl, hus₁.symm, hus₂.symm⟩

theorem exists_singleton (h : SameTokens [t] us) : ∃ u, us = [u] ∧ u.content = t.content := by
  obtain ⟨u, us', rfl, hu, hus⟩ := h.exists_cons
  rw [hus.eq_nil]
  exact ⟨u, rfl, hu⟩

theorem ne_nil (h : SameTokens ts us) (hne : ts ≠ []) : us ≠ [] := by
  rintro rfl
  exact hne h.symm.eq_nil

/-- It does not matter where offsets are counted from. -/
theorem countedFrom (k : Nat) (ts : List Token) : SameTokens ts (ts.map (Token.countedFrom k)) := by
  have hcontent : ∀ t : Token, (t.countedFrom k).content = t.content := fun _ => rfl
  rw [SameTokens, List.map_map]
  exact List.map_congr_left fun t _ => (hcontent t).symm

end SameTokens

namespace Grammar

variable {names : Option Resolver}

/-! ### Parts of a derivation -/

theorem Nested.congr {ts us : List Token} (h : Nested ts) (hus : SameTokens ts us) :
    Nested us := by
  induction h generalizing us with
  | nil =>
    rw [hus.eq_nil]
    exact .nil
  | free ht _ ih =>
    obtain ⟨u, us, rfl, hu, hus⟩ := hus.exists_cons
    exact .free (by rw [Token.kind_eq hu]; exact ht) (ih hus)
  | pair ho _ hc _ ih₁ ih₂ =>
    obtain ⟨o', us, rfl, ho', hus⟩ := hus.exists_cons
    obtain ⟨inner', us, rfl, hinner, hus⟩ := hus.exists_append
    obtain ⟨c', us, rfl, hc', hus⟩ := hus.exists_cons
    exact .pair ((Token.kind_eq ho').trans ho) (ih₁ hinner) ((Token.kind_eq hc').trans hc) (ih₂ hus)

theorem Bracketed.congr {b : Bracket} {ts us : List Token} (h : Bracketed b ts)
    (hus : SameTokens ts us) : Bracketed b us := by
  obtain ⟨ho, hin, hc⟩ := h
  obtain ⟨o', us, rfl, ho', hus⟩ := hus.exists_cons
  obtain ⟨inner', us, rfl, hinner, hus⟩ := hus.exists_append
  obtain ⟨c', rfl, hc'⟩ := hus.exists_singleton
  exact .intro ((Token.kind_eq ho').trans ho) (hin.congr hinner) ((Token.kind_eq hc').trans hc)

theorem Suffixes.congr {ts us : List Token} (h : Suffixes ts) (hus : SameTokens ts us) :
    Suffixes us := by
  induction h generalizing us with
  | nil =>
    rw [hus.eq_nil]
    exact .nil
  | cons hs _ ih =>
    obtain ⟨us₁, us₂, rfl, hus₁, hus₂⟩ := hus.exists_append
    exact .cons (hs.congr hus₁) (ih hus₂)

theorem IsJoin.congr {t u : Token} (h : IsJoin t) (hu : u.content = t.content) : IsJoin u := by
  unfold IsJoin
  rw [Token.kind_eq hu]
  exact h

theorem IsLiteral.congr {t u : Token} (h : IsLiteral t) (hu : u.content = t.content) :
    IsLiteral u := by
  unfold IsLiteral
  rw [Token.kind_eq hu]
  exact h

theorem IsName.congr {t u : Token} {d : DocType} (h : IsName names t d)
    (hu : u.content = t.content) : IsName names u d := by
  unfold IsName
  rw [Token.kind_eq hu, Token.text_eq hu]
  exact h

/-- Tokens of which the last one is a closing bracket. -/
def EndsInBracket (ts : List Token) : Prop := ∃ before c b, ts = before ++ [c] ∧ c.kind = .closing b

theorem EndsInBracket.append {ts : List Token} (h : EndsInBracket ts) (before : List Token) :
    EndsInBracket (before ++ ts) := by
  obtain ⟨before', c, b, rfl, hc⟩ := h
  exact ⟨before ++ before', c, b, (List.append_assoc _ _ _).symm, hc⟩

theorem Bracketed.endsInBracket {b : Bracket} {ts : List Token} (h : Bracketed b ts) :
    EndsInBracket ts := by
  obtain @⟨o, c, inner, -, -, hc⟩ := h
  exact ⟨o :: inner, c, b, rfl, hc⟩

theorem EndsInBracket.congr {ts us : List Token} (h : EndsInBracket ts) (hus : SameTokens ts us) :
    EndsInBracket us := by
  obtain ⟨before, c, b, rfl, hc⟩ := h
  obtain ⟨before', us, rfl, -, hus⟩ := hus.exists_append
  obtain ⟨c', rfl, hc'⟩ := hus.exists_singleton
  exact ⟨before', c', b, rfl, (Token.kind_eq hc').trans hc⟩

/-! ### Derivations -/

/-- The types that the same tokens denote in two expressions.  If they differ, they differ in the
text that they keep; that of an array or iterable ends with a closing bracket then. -/
inductive TypesAlike (expr expr' : Text) (ts us : List Token) : DocType → DocType → Prop where
  | same (d : DocType) : TypesAlike expr expr' ts us d d
  | unrepresentable (s s' : Text) :
      TypesAlike expr expr' ts us (.unrepresentable s) (.unrepresentable s')
  | bracketed (form : DocType.Form) {core core' : List Token} :
      core <:+: ts → core' <:+: us → EndsInBracket core → EndsInBracket core' →
      TypesAlike expr expr' ts us (form.toDocType (spelled expr core))
        (form.toDocType (spelled expr' core'))

section

variable {expr expr' : Text}

theorem TypesAlike.withoutSpelling {ts us : List Token} {d d' : DocType}
    (h : TypesAlike expr expr' ts us d d') : d.withoutSpelling = d'.withoutSpelling := by
  cases h with
  | same => rfl
  | unrepresentable => rfl
  | bracketed form => cases form <;> rfl

/-- Tokens around the others change nothing. -/
theorem TypesAlike.mono {ts us ts' us' : List Token} {d d' : DocType}
    (h : TypesAlike expr expr' ts us d d') (hts : ts <:+: ts') (hus : us <:+: us') :
    TypesAlike expr expr' ts' us' d d' := by
  cases h with
  | same => exact .same d
  | unrepresentable s s' => exact .unrepresentable s s'
  | bracketed form hcore hcore' hends hends' =>
    exact .bracketed form (hcore.trans hts) (hcore'.trans hus) hends hends'

/-- A form that is spelled as all of the tokens. -/
theorem TypesAlike.of_endsInBracket (form : DocType.Form) {ts us : List Token}
    (h : EndsInBracket ts) (hus : SameTokens ts us) :
    TypesAlike expr expr' ts us (form.toDocType (spelled expr ts))
      (form.toDocType (spelled expr' us)) :=
  .bracketed form List.infix_rfl List.infix_rfl h (h.congr hus)

/-- **Tokens with the same kinds and texts have the same derivations**, and denote types that
differ at most in the text that they keep. -/
theorem Denotes.congr {n : Category} {ts us : List Token} {d : DocType}
    (h : Denotes names expr n ts d) (hus : SameTokens ts us) :
    ∃ d', Denotes names expr' n us d' ∧ TypesAlike expr expr' ts us d d' := by
  induction h generalizing us with
  | single _ ih =>
    obtain ⟨d', hd', halike⟩ := ih hus
    exact ⟨d', .single hd', halike⟩
  | join _ hop _ ih₁ ih₂ =>
    obtain ⟨as', us, rfl, has, hus⟩ := hus.exists_append
    obtain ⟨op', ts', rfl, hop', hts⟩ := hus.exists_cons
    obtain ⟨d₁, hd₁, -⟩ := ih₁ has
    obtain ⟨d₂, hd₂, -⟩ := ih₂ hts
    exact ⟨_, .join hd₁ (hop.congr hop') hd₂, .unrepresentable _ _⟩
  | nullable hq _ ih =>
    obtain ⟨q', ts', rfl, hq', hts⟩ := hus.exists_cons
    obtain ⟨d', hd', -⟩ := ih hts
    exact ⟨_, .nullable ((Token.kind_eq hq').trans hq) hd', .unrepresentable _ _⟩
  | bare _ ih =>
    obtain ⟨d', hd', halike⟩ := ih hus
    exact ⟨d', .bare hd', halike⟩
  | @array ps ss o c d _ hss ho hc ih =>
    have hends : EndsInBracket (ps ++ ss ++ [o, c]) :=
      EndsInBracket.append ⟨[o], c, .square, rfl, hc⟩ (ps ++ ss)
    have halike : TypesAlike expr expr' _ us (.array _) (.array _) :=
      .of_endsInBracket .array hends hus
    obtain ⟨us, last', rfl, hus, hlast⟩ := hus.exists_append
    obtain ⟨ps', ss', rfl, hps, hss'⟩ := hus.exists_append
    obtain ⟨o', last', rfl, ho', hlast⟩ := hlast.exists_cons
    obtain ⟨c', rfl, hc'⟩ := hlast.exists_singleton
    obtain ⟨d', hd', -⟩ := ih hps
    exact ⟨_, .array hd' (hss.congr hss') ((Token.kind_eq ho').trans ho)
      ((Token.kind_eq hc').trans hc), halike⟩
  | offset _ hss ho hin hne hc ih =>
    obtain ⟨us, last', rfl, hus, hlast⟩ := hus.exists_append
    obtain ⟨ps', ss', rfl, hps, hss'⟩ := hus.exists_append
    obtain ⟨o', last', rfl, ho', hlast⟩ := hlast.exists_cons
    obtain ⟨inner', last', rfl, hinner, hlast⟩ := hlast.exists_append
    obtain ⟨c', rfl, hc'⟩ := hlast.exists_singleton
    obtain ⟨d', hd', -⟩ := ih hps
    exact ⟨_, .offset hd' (hss.congr hss') ((Token.kind_eq ho').trans ho) (hin.congr hinner)
      (hinner.ne_nil hne) ((Token.kind_eq hc').trans hc), .unrepresentable _ _⟩
  | returning ht hp hcolon _ ih =>
    obtain ⟨t', us, rfl, ht', hus⟩ := hus.exists_cons
    obtain ⟨params', us, rfl, hparams, hus⟩ := hus.exists_append
    obtain ⟨colon', as', rfl, hcolon', has⟩ := hus.exists_cons
    obtain ⟨d', hd', -⟩ := ih has
    exact ⟨_, .returning (ht.congr ht') (hp.congr hparams) ((Token.kind_eq hcolon').trans hcolon)
      hd', .unrepresentable _ _⟩
  | @group o c ts d ho _ hc ih =>
    obtain ⟨o', us, rfl, ho', hus⟩ := hus.exists_cons
    obtain ⟨ts', us, rfl, hts, hus⟩ := hus.exists_append
    obtain ⟨c', rfl, hc'⟩ := hus.exists_singleton
    obtain ⟨d', hd', halike⟩ := ih hts
    -- parentheses do not become part of the spelling
    exact ⟨d', .group ((Token.kind_eq ho').trans ho) hd' ((Token.kind_eq hc').trans hc),
      halike.mono ⟨[o], [c], rfl⟩ ⟨[o'], [c'], rfl⟩⟩
  | literal ht =>
    obtain ⟨t', rfl, ht'⟩ := hus.exists_singleton
    exact ⟨_, .literal (ht.congr ht'), .unrepresentable _ _⟩
  | @name t d ht =>
    obtain ⟨t', rfl, ht'⟩ := hus.exists_singleton
    exact ⟨d, .name (ht.congr ht'), .same d⟩
  | @arguments t d args ht ha =>
    have halike : TypesAlike expr expr' (t :: args) us _ _ :=
      .of_endsInBracket (.ofArguments d) (ha.endsInBracket.append [t]) hus
    rw [toDocType_ofArguments, toDocType_ofArguments] at halike
    obtain ⟨t', args', rfl, ht', hargs⟩ := hus.exists_cons
    exact ⟨_, .arguments (ht.congr ht') (ha.congr hargs), halike⟩
  | @shape t d fields ht hf =>
    have halike : TypesAlike expr expr' (t :: fields) us _ _ :=
      .of_endsInBracket (.ofShape d) (hf.endsInBracket.append [t]) hus
    rw [toDocType_ofShape, toDocType_ofShape] at halike
    obtain ⟨t', fields', rfl, ht', hfields⟩ := hus.exists_cons
    exact ⟨_, .shape (ht.congr ht') (hf.congr hfields), halike⟩
  | signature ht hp =>
    obtain ⟨t', params', rfl, ht', hparams⟩ := hus.exists_cons
    exact ⟨_, .signature (ht.congr ht') (hp.congr hparams), .unrepresentable _ _⟩

theorem Derives.congr {ts us : List Token} (h : Derives names .type ts) (hus : SameTokens ts us) :
    Derives names .type us := by
  obtain ⟨d, hd⟩ : ∃ d, Denotes names [] .type ts d := exists_denotes_iff.mpr h
  obtain ⟨d', hd', -⟩ : ∃ d', Denotes names [] .type us d' ∧ _ := hd.congr hus
  exact hd'.derives

end

end Grammar

end DocPromotion
