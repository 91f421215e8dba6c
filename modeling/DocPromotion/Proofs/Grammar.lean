import DocPromotion.DocType.Parser
import Mathlib

/-!
The grammar of documentation types, and what its derivations denote.

`Derives` is the grammar as one would write it down:

* a type is one atom or several, joined by `|` and `&`;
* an atom is `?` before an atom, or a primary with suffixes in square brackets;
* a primary is a type in parentheses, a literal, or a name, and a name may be followed by type
  arguments, by a shape, or by a signature, which in turn may have a return type.

What stands inside of the other brackets only has to be nested properly (`Nested`).

The grammar is ambiguous in one place: in `f(): T[]` the suffix may belong to `T` or to the whole.
`Denotes` reads it greedily, so that a suffix belongs to the innermost atom to its left, and gives
every derivation its documentation type.  The two accept the same tokens (`exists_denotes_iff`).
-/

namespace DocPromotion

/-- Opening and closing brackets of any kind. -/
def TokenKind.isBracket : TokenKind → Bool
  | .opening _ | .closing _ => true
  | _ => false

namespace Grammar

/-- Sequences of tokens in which the brackets of all four kinds are nested properly.  All other
tokens may stand anywhere. -/
inductive Nested : List Token → Prop where
  | nil : Nested []
  | free {t : Token} {ts : List Token} :
      t.kind.isBracket = false → Nested ts → Nested (t :: ts)
  | pair {o c : Token} {b : Bracket} {inner ts : List Token} :
      o.kind = .opening b → Nested inner → c.kind = .closing b → Nested ts →
      Nested (o :: (inner ++ c :: ts))

/-- A part in brackets of one kind, with anything inside that is nested properly. -/
inductive Bracketed (b : Bracket) : List Token → Prop where
  | intro {o c : Token} {inner : List Token} :
      o.kind = .opening b → Nested inner → c.kind = .closing b → Bracketed b (o :: (inner ++ [c]))

/-- A sequence of suffixes in square brackets. -/
inductive Suffixes : List Token → Prop where
  | nil : Suffixes []
  | cons {s ss : List Token} : Bracketed .square s → Suffixes ss → Suffixes (s ++ ss)

/-- The tokens that join the atoms of a type. -/
def IsJoin (t : Token) : Prop := t.kind = .union ∨ t.kind = .intersection

/-- Quoted texts and numbers. -/
def IsLiteral (t : Token) : Prop := t.kind = .quoted ∨ t.kind = .number

/-- A name token and the type of the bare name. -/
def IsName (names : Option Resolver) (t : Token) (d : DocType) : Prop :=
  t.kind = .name ∧ DocType.ofName? names t.text = some d

/-- The syntactic categories. -/
inductive Category where
  | type
  | atom
  | primary
deriving DecidableEq

/-- The tokens that belong to a category. -/
inductive Derives (names : Option Resolver) : Category → List Token → Prop where
  | single {ts : List Token} : Derives names .atom ts → Derives names .type ts
  | join {as ts : List Token} {op : Token} :
      Derives names .atom as → IsJoin op → Derives names .type ts →
      Derives names .type (as ++ op :: ts)
  | nullable {q : Token} {ts : List Token} :
      q.kind = .nullable → Derives names .atom ts → Derives names .atom (q :: ts)
  | suffixed {ps ss : List Token} :
      Derives names .primary ps → Suffixes ss → Derives names .atom (ps ++ ss)
  | group {o c : Token} {ts : List Token} :
      o.kind = .opening .paren → Derives names .type ts → c.kind = .closing .paren →
      Derives names .primary (o :: (ts ++ [c]))
  | literal {t : Token} : IsLiteral t → Derives names .primary [t]
  | name {t : Token} {d : DocType} : IsName names t d → Derives names .primary [t]
  | arguments {t : Token} {d : DocType} {args : List Token} :
      IsName names t d → Bracketed .angle args → Derives names .primary (t :: args)
  | shape {t : Token} {d : DocType} {fields : List Token} :
      IsName names t d → Bracketed .brace fields → Derives names .primary (t :: fields)
  | signature {t : Token} {d : DocType} {params : List Token} :
      IsName names t d → Bracketed .paren params → Derives names .primary (t :: params)
  | returning {t colon : Token} {d : DocType} {params as : List Token} :
      IsName names t d → Bracketed .paren params → colon.kind = .colon → Derives names .atom as →
      Derives names .primary (t :: (params ++ colon :: as))

/-! ### What a derivation denotes -/

/-- The offset of the first of some tokens. -/
def startOf (ts : List Token) : Nat := (ts.head?.map Token.start).getD 0

/-- The offset after the last of some tokens. -/
def stopOf (ts : List Token) : Nat := (ts.getLast?.map Token.stop).getD 0

/-- The text of an expression from the first of some tokens to the last, without blanks at its
ends. -/
def spelled (expr : Text) (ts : List Token) : Text :=
  Text.trim ((expr.drop (startOf ts)).take (stopOf ts - startOf ts))

/-- The reader takes the same part of the text. -/
theorem spelled_eq (expr : Text) (ts : List Token) :
    spelled expr ts = DocType.sourceText expr (startOf ts) (stopOf ts) := rfl

/-- The type of a name with type arguments, which only arrays and iterables can have. -/
def withArguments : DocType → Text → DocType
  | .array _, s => .array s
  | .iterable _, s => .iterable s
  | _, s => .unrepresentable s

/-- The type of a name with a shape, which only arrays can have. -/
def withShape : DocType → Text → DocType
  | .array _, s => .array s
  | _, s => .unrepresentable s

/-- The type that tokens of a category denote.  A signature with a return type is an atom here: it
has no suffixes, because they belong to its return type. -/
inductive Denotes (names : Option Resolver) (expr : Text) :
    Category → List Token → DocType → Prop where
  | single {ts : List Token} {d : DocType} :
      Denotes names expr .atom ts d → Denotes names expr .type ts d
  | join {as ts : List Token} {op : Token} {d₁ d₂ : DocType} :
      Denotes names expr .atom as d₁ → IsJoin op → Denotes names expr .type ts d₂ →
      Denotes names expr .type (as ++ op :: ts) (.unrepresentable (spelled expr (as ++ op :: ts)))
  | nullable {q : Token} {ts : List Token} {d : DocType} :
      q.kind = .nullable → Denotes names expr .atom ts d →
      Denotes names expr .atom (q :: ts) (.unrepresentable (spelled expr (q :: ts)))
  | bare {ps : List Token} {d : DocType} :
      Denotes names expr .primary ps d → Denotes names expr .atom ps d
  /-- The last suffix is empty. -/
  | array {ps ss : List Token} {o c : Token} {d : DocType} :
      Denotes names expr .primary ps d → Suffixes ss →
      o.kind = .opening .square → c.kind = .closing .square →
      Denotes names expr .atom (ps ++ ss ++ [o, c]) (.array (spelled expr (ps ++ ss ++ [o, c])))
  /-- The last suffix is not empty. -/
  | offset {ps ss inner : List Token} {o c : Token} {d : DocType} :
      Denotes names expr .primary ps d → Suffixes ss →
      o.kind = .opening .square → Nested inner → inner ≠ [] → c.kind = .closing .square →
      Denotes names expr .atom (ps ++ ss ++ o :: (inner ++ [c]))
        (.unrepresentable (spelled expr (ps ++ ss ++ o :: (inner ++ [c]))))
  | returning {t colon : Token} {d d' : DocType} {params as : List Token} :
      IsName names t d → Bracketed .paren params → colon.kind = .colon →
      Denotes names expr .atom as d' →
      Denotes names expr .atom (t :: (params ++ colon :: as))
        (.unrepresentable (spelled expr (t :: (params ++ colon :: as))))
  | group {o c : Token} {ts : List Token} {d : DocType} :
      o.kind = .opening .paren → Denotes names expr .type ts d → c.kind = .closing .paren →
      Denotes names expr .primary (o :: (ts ++ [c])) d
  | literal {t : Token} :
      IsLiteral t → Denotes names expr .primary [t] (.unrepresentable (spelled expr [t]))
  | name {t : Token} {d : DocType} : IsName names t d → Denotes names expr .primary [t] d
  | arguments {t : Token} {d : DocType} {args : List Token} :
      IsName names t d → Bracketed .angle args →
      Denotes names expr .primary (t :: args) (withArguments d (spelled expr (t :: args)))
  | shape {t : Token} {d : DocType} {fields : List Token} :
      IsName names t d → Bracketed .brace fields →
      Denotes names expr .primary (t :: fields) (withShape d (spelled expr (t :: fields)))
  | signature {t : Token} {d : DocType} {params : List Token} :
      IsName names t d → Bracketed .paren params →
      Denotes names expr .primary (t :: params) (.unrepresentable (spelled expr (t :: params)))

/-! ### The greedy reading loses no derivation -/

section

variable {names : Option Resolver} {expr : Text}

theorem Suffixes.append {ss ss' : List Token} (h : Suffixes ss) (h' : Suffixes ss') :
    Suffixes (ss ++ ss') := by
  induction h with
  | nil => exact h'
  | cons hs _ ih =>
    rw [List.append_assoc]
    exact .cons hs ih

theorem Bracketed.suffixes {s : List Token} (h : Bracketed .square s) : Suffixes s := by
  rw [← List.append_nil s]
  exact .cons h .nil

/-- Suffixes are read from the left, but the last one decides. -/
theorem Suffixes.eq_nil_or_append {ss : List Token} (h : Suffixes ss) :
    ss = [] ∨ ∃ before last, Suffixes before ∧ Bracketed .square last ∧ ss = before ++ last := by
  induction h with
  | nil => exact .inl rfl
  | @cons s ss hs _ ih =>
    refine .inr ?_
    rcases ih with rfl | ⟨before, last, hb, hl, rfl⟩
    · exact ⟨[], s, .nil, hs, by simp⟩
    · exact ⟨s ++ before, last, .cons hs hb, hl, by simp⟩

theorem Denotes.append_suffix {ps ss s : List Token} {d : DocType}
    (h : Denotes names expr .primary ps d) (hss : Suffixes ss) (hs : Bracketed .square s) :
    ∃ d', Denotes names expr .atom (ps ++ ss ++ s) d' := by
  obtain ⟨ho, hn, hc⟩ := hs
  rename_i o c inner
  cases inner with
  | nil => exact ⟨_, .array h hss ho hc⟩
  | cons t ts => exact ⟨_, .offset h hss ho hn (by simp) hc⟩

/-- A primary with suffixes is an atom. -/
theorem Denotes.append_suffixes {ps ss : List Token} {d : DocType}
    (h : Denotes names expr .primary ps d) (hss : Suffixes ss) :
    ∃ d', Denotes names expr .atom (ps ++ ss) d' := by
  rcases hss.eq_nil_or_append with rfl | ⟨before, last, hb, hl, rfl⟩
  · rw [List.append_nil]
    exact ⟨d, .bare h⟩
  · rw [← List.append_assoc]
    exact h.append_suffix hb hl

/-- A suffix after any atom makes an atom again, since it can be handed to the innermost one. -/
theorem Denotes.absorb {n : Category} {ts s : List Token} {d : DocType}
    (h : Denotes names expr n ts d) (hs : Bracketed .square s) (hn : n = .atom) :
    ∃ d', Denotes names expr .atom (ts ++ s) d' := by
  induction h with
  | nullable hq _ ih =>
    obtain ⟨d', hd'⟩ := ih rfl
    exact ⟨_, .nullable hq hd'⟩
  | bare hp _ => exact hp.append_suffixes hs.suffixes
  -- what was the last suffix is one of those before the last
  | array hp hss ho hc _ =>
    have hlast : Bracketed .square _ := .intro ho .nil hc
    rw [List.append_assoc, List.append_assoc]
    exact hp.append_suffixes (hss.append (hlast.suffixes.append hs.suffixes))
  | offset hp hss ho hin _ hc _ =>
    have hlast : Bracketed .square _ := .intro ho hin hc
    rw [List.append_assoc, List.append_assoc]
    exact hp.append_suffixes (hss.append (hlast.suffixes.append hs.suffixes))
  | returning ht hp hcolon _ ih =>
    -- the suffix is that of the return type
    obtain ⟨d', hd'⟩ := ih rfl
    rw [List.cons_append, List.append_assoc, List.cons_append]
    exact ⟨_, .returning ht hp hcolon hd'⟩
  | single => cases hn
  | join => cases hn
  | group => cases hn
  | literal => cases hn
  | name => cases hn
  | arguments => cases hn
  | shape => cases hn
  | signature => cases hn

theorem Denotes.absorb_all {ts ss : List Token} (hss : Suffixes ss) :
    ∀ {d : DocType}, Denotes names expr .atom ts d →
      ∃ d', Denotes names expr .atom (ts ++ ss) d' := by
  induction hss generalizing ts with
  | nil =>
    intro d h
    rw [List.append_nil]
    exact ⟨d, h⟩
  | cons hs _ ih =>
    intro d h
    obtain ⟨d', hd'⟩ := h.absorb hs rfl
    rw [← List.append_assoc]
    exact ih hd'

/-- Read greedily, a primary may turn out to be an atom. -/
def Category.greedy : Category → Category
  | .primary => .atom
  | n => n

theorem Derives.exists_denotes {n : Category} {ts : List Token} (h : Derives names n ts) :
    ∃ d, Denotes names expr n.greedy ts d := by
  induction h with
  | single _ ih =>
    obtain ⟨d, hd⟩ := ih
    exact ⟨d, .single hd⟩
  | join _ hop _ ih₁ ih₂ =>
    obtain ⟨d₁, hd₁⟩ := ih₁
    obtain ⟨d₂, hd₂⟩ := ih₂
    exact ⟨_, .join hd₁ hop hd₂⟩
  | nullable hq _ ih =>
    obtain ⟨d, hd⟩ := ih
    exact ⟨_, .nullable hq hd⟩
  | suffixed _ hss ih =>
    obtain ⟨d, hd⟩ := ih
    exact Denotes.absorb_all hss hd
  | group ho _ hc ih =>
    obtain ⟨d, hd⟩ := ih
    exact ⟨d, .bare (.group ho hd hc)⟩
  | literal ht => exact ⟨_, .bare (.literal ht)⟩
  | name ht => exact ⟨_, .bare (.name ht)⟩
  | arguments ht ha => exact ⟨_, .bare (.arguments ht ha)⟩
  | shape ht hf => exact ⟨_, .bare (.shape ht hf)⟩
  | signature ht hp => exact ⟨_, .bare (.signature ht hp)⟩
  | returning ht hp hcolon _ ih =>
    obtain ⟨d, hd⟩ := ih
    exact ⟨_, .returning ht hp hcolon hd⟩

theorem Denotes.derives {n : Category} {ts : List Token} {d : DocType}
    (h : Denotes names expr n ts d) : Derives names n ts := by
  induction h with
  | single _ ih => exact .single ih
  | join _ hop _ ih₁ ih₂ => exact .join ih₁ hop ih₂
  | nullable hq _ ih => exact .nullable hq ih
  | @bare ps _ _ ih =>
    rw [← List.append_nil ps]
    exact .suffixed ih .nil
  | array _ hss ho hc ih =>
    have hlast : Bracketed .square _ := .intro ho .nil hc
    rw [List.append_assoc]
    exact .suffixed ih (hss.append hlast.suffixes)
  | offset _ hss ho hin _ hc ih =>
    have hlast : Bracketed .square _ := .intro ho hin hc
    rw [List.append_assoc]
    exact .suffixed ih (hss.append hlast.suffixes)
  | returning ht hp hcolon _ ih =>
    have hret := Derives.suffixed (.returning ht hp hcolon ih) .nil
    rw [List.append_nil] at hret
    exact hret
  | group ho _ hc ih => exact .group ho ih hc
  | literal ht => exact .literal ht
  | name ht => exact .name ht
  | arguments ht ha => exact .arguments ht ha
  | shape ht hf => exact .shape ht hf
  | signature ht hp => exact .signature ht hp

/-- The tokens of a type are those that denote something. -/
theorem exists_denotes_iff {ts : List Token} :
    (∃ d, Denotes names expr .type ts d) ↔ Derives names .type ts := by
  constructor
  · rintro ⟨d, hd⟩
    exact hd.derives
  · intro h
    exact h.exists_denotes

end

end Grammar

end DocPromotion
