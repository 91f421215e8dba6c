import DocPromotion.Proofs.SameTokens
import DocPromotion.Proofs.Trimming
import DocPromotion.Source.Documentation

/-!
Blanks between tokens decide nothing.

Two expressions with the same tokens, apart from the offsets, are read alike.

* The reader keeps offsets, and looks at none of them.  Without them (`State.erase`) it does the
  same at every token (`erase_step`), so it fails in both expressions or in neither, and if so, at
  the same token and for the same reason (`run_congr`).
* What the expressions denote differs in a spelling at most (`Grammar.Denotes.congr`).  The only
  spellings that matter are those of arrays and iterables, and where these differ, they end with a
  bracket (`Grammar.getLast?_spelled`), so neither of them is a keyword.
-/

namespace DocPromotion

namespace DocType

/-! ### The reader without offsets -/

/-- A frame without its offset. -/
def Frame.erase : Frame → Frame
  | .nullable _ => .nullable 0
  | .group _ => .group 0
  | .signature _ => .signature 0
  | .compound _ => .compound 0

/-- A phase without its offsets and without the type that has been read. -/
def Phase.erase : Phase → Phase
  | .expecting => .expecting
  | .complete _ _ _ growth => .complete 0 0 (.named .void) growth
  | .inside _ enclosed closer inner => .inside 0 enclosed closer inner

/-- What the reader looks at. -/
def State.erase (s : State) : State := ⟨s.frames.map Frame.erase, s.phase.erase⟩

@[simp] theorem Frame.erase_nullable (start : Nat) : (nullable start).erase = nullable 0 := rfl

@[simp] theorem Frame.erase_group (start : Nat) : (group start).erase = group 0 := rfl

@[simp] theorem Frame.erase_signature (start : Nat) : (signature start).erase = signature 0 := rfl

@[simp] theorem Frame.erase_compound (start : Nat) : (compound start).erase = compound 0 := rfl

@[simp] theorem Frame.erase_erase (f : Frame) : f.erase.erase = f.erase := by
  cases f <;> rfl

@[simp] theorem map_erase_erase (frames : List Frame) :
    (frames.map Frame.erase).map Frame.erase = frames.map Frame.erase := by
  rw [List.map_map]
  exact List.map_congr_left fun f _ => f.erase_erase

/-- Which frames an atom ends does not depend on offsets. -/
theorem closeAtom_erase (stop stop' : Nat) (frames : List Frame) (start start' : Nat)
    (r r' : Reading) :
    ∃ fs first first' whole whole', closeAtom stop frames start r = (fs, first, whole) ∧
      closeAtom stop' (frames.map Frame.erase) start' r' =
        (fs.map Frame.erase, first', whole') := by
  induction frames generalizing start start' r r' with
  | nil => exact ⟨[], start, start', r, r', rfl, rfl⟩
  | cons f frames ih =>
    cases f with
    | nullable start => exact ih _ _ _ _
    | signature start => exact ih _ _ _ _
    | group first => exact ⟨.group first :: frames, start, start', r, r', rfl, rfl⟩
    | compound first => exact ⟨.compound first :: frames, start, start', r, r', rfl, rfl⟩

theorem closeType_erase (stop stop' : Nat) (frames : List Frame) (r r' : Reading) :
    ∃ fs whole whole', closeType stop frames r = (fs, whole) ∧
      closeType stop' (frames.map Frame.erase) r' = (fs.map Frame.erase, whole') := by
  cases frames with
  | nil => exact ⟨[], r, r', rfl, rfl⟩
  | cons f frames => cases f <;> exact ⟨_, _, _, rfl, rfl⟩

section

variable {t u : Token}

theorem stepExpecting_erase (names : Option Resolver) (frames : List Frame)
    (h : u.content = t.content) :
    (stepExpecting names frames t).map State.erase =
      (stepExpecting names (frames.map Frame.erase) u).map State.erase := by
  unfold stepExpecting
  rw [Token.kind_eq h, Token.text_eq h]
  split
  next => simp [Except.map, State.erase]
  next => simp [Except.map, State.erase]
  next => simp [Except.map, State.erase, Phase.erase]
  next => simp [Except.map, State.erase, Phase.erase]
  next =>
    split
    next => simp [Except.map, State.erase, Phase.erase]
    next => rfl
  next => rfl

theorem stepAfter_erase (frames : List Frame) (start stop start' stop' : Nat) (r r' : Reading)
    (h : u.content = t.content) :
    (stepAfter frames start stop r t).map State.erase =
      (stepAfter (frames.map Frame.erase) start' stop' r' u).map State.erase := by
  obtain ⟨fs, first, first', whole, whole', hatom, hatom'⟩ :=
    closeAtom_erase stop stop' frames start start' r r'
  simp only [stepAfter, hatom, hatom', Token.kind_eq h, Token.text_eq h]
  split
  next =>
    cases fs with
    | nil => rfl
    | cons f fs => cases f <;> simp [Except.map, State.erase]
  next =>
    cases fs with
    | nil => rfl
    | cons f fs => cases f <;> simp [Except.map, State.erase]
  next =>
    obtain ⟨gs, whole, whole', htype, htype'⟩ := closeType_erase stop stop' fs whole whole'
    rw [htype, htype']
    cases gs with
    | nil => rfl
    | cons f gs => cases f <;> simp [Except.map, State.erase, Phase.erase]
  next => rfl

theorem stepComplete_erase (frames : List Frame) (start stop start' stop' : Nat) (r r' : Reading)
    (g : Growth) (h : u.content = t.content) :
    (stepComplete frames start stop r g t).map State.erase =
      (stepComplete (frames.map Frame.erase) start' stop' r' g u).map State.erase := by
  unfold stepComplete
  rw [Token.kind_eq h]
  split
  next => simp [Except.map, State.erase, Phase.erase]
  next => simp [Except.map, State.erase, Phase.erase]
  next => simp [Except.map, State.erase, Phase.erase]
  next => simp [Except.map, State.erase, Phase.erase]
  next => simp [Except.map, State.erase]
  next => exact stepAfter_erase frames start stop start' stop' r r' h

theorem close_erase (e : Enclosed) (start stop start' stop' : Nat) :
    (e.close start stop).erase = (e.close start' stop').erase := by
  cases e with
  | arguments form => rfl
  | signature => rfl
  | suffix empty => cases empty <;> rfl

theorem stepInside_erase (frames : List Frame) (start start' : Nat) (e : Enclosed)
    (closer : Bracket) (inner : List Bracket) (h : u.content = t.content) :
    (stepInside frames start e closer inner t).map State.erase =
      (stepInside (frames.map Frame.erase) start' e closer inner u).map State.erase := by
  unfold stepInside
  rw [Token.kind_eq h, Token.text_eq h]
  split
  next => simp [Except.map, State.erase, Phase.erase]
  next =>
    split
    next =>
      split
      next => simp [Except.map, State.erase, Phase.erase]
      next => rfl
    next =>
      split
      next => simp [Except.map, State.erase, close_erase e start t.stop start' u.stop]
      next => rfl
  next => simp [Except.map, State.erase, Phase.erase]

/-- **The reader does the same without offsets.** -/
theorem erase_step (names : Option Resolver) (s : State) (h : u.content = t.content) :
    (s.step names t).map State.erase = (s.erase.step names u).map State.erase := by
  obtain ⟨frames, phase⟩ := s
  cases phase with
  | expecting => exact stepExpecting_erase names frames h
  | complete start stop r g => exact stepComplete_erase frames start stop 0 0 r (.named .void) g h
  | inside start e closer inner => exact stepInside_erase frames start 0 e closer inner h

end

/-- It finishes alike, too. -/
theorem erase_finish (s : State) :
    s.finish.map (fun _ => ()) = s.erase.finish.map (fun _ => ()) := by
  obtain ⟨frames, phase⟩ := s
  cases phase with
  | expecting => rfl
  | inside start e closer inner => rfl
  | complete start stop r g =>
    obtain ⟨fs, first, first', whole, whole', hatom, hatom'⟩ :=
      closeAtom_erase stop 0 frames start 0 r (.named .void)
    obtain ⟨gs, whole, whole', htype, htype'⟩ := closeType_erase stop 0 fs whole whole'
    simp only [State.finish, State.erase, Phase.erase, hatom, hatom', htype, htype']
    cases gs <;> rfl

/-! ### Two runs -/

/-- The offset of the token with an index, or `stop` if there are only so many. -/
def offsetAt (stop : Nat) (ts : List Token) (k : Nat) : Nat := (ts[k]?.map Token.start).getD stop

/-- Two runs come to an end alike: both with a type, or with the same fault at the same index. -/
inductive RunsAlike (stop stop' : Nat) (ts us : List Token) :
    Except (Nat × SyntaxFault) Reading → Except (Nat × SyntaxFault) Reading → Prop where
  | ok (r r' : Reading) : RunsAlike stop stop' ts us (.ok r) (.ok r')
  | error (fault : SyntaxFault) {k : Nat} (hk : k ≤ ts.length) :
      RunsAlike stop stop' ts us (.error (offsetAt stop ts k, fault))
        (.error (offsetAt stop' us k, fault))

theorem RunsAlike.cons {stop stop' : Nat} {ts us : List Token}
    {x y : Except (Nat × SyntaxFault) Reading} (h : RunsAlike stop stop' ts us x y) (t u : Token) :
    RunsAlike stop stop' (t :: ts) (u :: us) x y := by
  cases h with
  | ok r r' => exact .ok r r'
  | @error fault k hk =>
    show RunsAlike stop stop' (t :: ts) (u :: us) (.error (offsetAt stop (t :: ts) (k + 1), fault))
      (.error (offsetAt stop' (u :: us) (k + 1), fault))
    exact .error fault (Nat.succ_le_succ hk)

/-- Two results that do not differ are both values, or the same error. -/
theorem eq_of_map_eq {ε α β : Type} {g : α → β} {x y : Except ε α} (h : x.map g = y.map g) :
    (∃ a b, x = .ok a ∧ y = .ok b ∧ g a = g b) ∨ ∃ e, x = .error e ∧ y = .error e := by
  cases x with
  | ok a =>
    cases y with
    | ok b => exact .inl ⟨a, b, rfl, rfl, Except.ok.inj h⟩
    | error e => cases h
  | error e =>
    cases y with
    | ok b => cases h
    | error e' =>
      obtain rfl : e = e' := Except.error.inj h
      exact .inr ⟨e, rfl, rfl⟩

/-- **Two readers that differ in offsets only come to an end alike**, by induction on the
tokens. -/
theorem run_congr (names : Option Resolver) (stop stop' : Nat) {ts us : List Token} :
    ∀ {s s' : State}, s.erase = s'.erase → SameTokens ts us →
      RunsAlike stop stop' ts us (s.run names stop ts) (s'.run names stop' us) := by
  induction ts generalizing us with
  | nil =>
    intro s s' hs hus
    obtain rfl := hus.eq_nil
    have hfinish : s.finish.map (fun _ => ()) = s'.finish.map (fun _ => ()) := by
      rw [erase_finish, hs, ← erase_finish]
    rw [State.run, State.run]
    rcases eq_of_map_eq hfinish with ⟨r, r', hr, hr', -⟩ | ⟨fault, hfault, hfault'⟩
    · rw [hr, hr']
      exact .ok r r'
    · rw [hfault, hfault']
      exact .error fault (Nat.le_refl 0)
  | cons t ts ih =>
    intro s s' hs hus
    obtain ⟨u, us, rfl, hu, hus⟩ := hus.exists_cons
    have hstep : (s.step names t).map State.erase = (s'.step names u).map State.erase := by
      rw [erase_step names s hu, hs, ← erase_step names s' rfl]
    rw [State.run, State.run]
    rcases eq_of_map_eq hstep with ⟨v, v', hv, hv', hsame⟩ | ⟨fault, hfault, hfault'⟩
    · rw [hv, hv']
      exact (ih hsame hus).cons t u
    · rw [hfault, hfault']
      exact .error fault (Nat.zero_le _)

end DocType

namespace Token

/-! ### The spelling of tokens that end in a bracket -/

/-- A text that ends where a closing bracket ends has the bracket as its last byte. -/
theorem getLast?_of_closing {offset : Nat} {w : Text} {before : List Token} {c : Token}
    {b : Bracket} (h : lexFrom offset w = before ++ [c]) (hc : c.kind = .closing b)
    (hstop : c.stop = offset + w.length) :
    ∃ x, w.getLast? = some x ∧ singleKind x = .closing b := by
  obtain ⟨v, z, rfl, hz, hstart⟩ := lexFrom_onFrom h
  have hne : lexFrom (offset + v.length) z ≠ [] := by simp [hz]
  have hfirst : Grammar.startOf (lexFrom (offset + v.length) z) = offset + v.length := by
    rw [hz]
    exact hstart
  cases z with
  | nil => exact absurd (by rw [lexFrom]) hne
  | cons x rest =>
    have hx : isBlankByte x = false := isBlankByte_of_startOf hne hfirst rfl
    rw [lexFrom_token hx] at hz
    obtain ⟨rfl, -⟩ := List.cons.inj hz
    obtain ⟨hlexeme, hsingle⟩ := lexeme_of_closing hc
    -- the bracket is all that is left of the text
    have hlength : (x :: rest).length = 1 := by
      rw [hlexeme, Token.stop, List.length_append] at hstop
      simp only [List.take_zero, List.length_singleton] at hstop
      omega
    obtain rfl : rest = [] := List.length_eq_zero_iff.mp (Nat.succ.inj hlength)
    exact ⟨x, List.getLast?_concat, hsingle⟩

theorem isSolid_of_closing {x : UInt8} {b : Bracket} (h : singleKind x = .closing b) :
    Text.IsSolid x := by
  have hsolid : (singleKind x).isBracket = true → Text.IsSolid x :=
    forall_byte (P := fun x => (singleKind x).isBracket = true → Text.IsSolid x)
      (by decide +kernel) x
  exact hsolid (by rw [h]; rfl)

end Token

namespace Grammar

open DocType

variable {names : Option Resolver} {expr expr' : Text}

/-- **Tokens that end in a bracket are spelled with it**, whatever is trimmed. -/
theorem getLast?_spelled {core : List Token} (h : core <:+: Token.lex expr)
    (hends : EndsInBracket core) :
    ∃ x b, (spelled expr core).getLast? = some x ∧ Token.singleKind x = .closing b := by
  obtain ⟨before, c, b, rfl, hc⟩ := hends
  obtain ⟨left, right, hlex⟩ := h
  obtain ⟨v, w, y, rfl, hw, hstart, hstop⟩ :=
    Token.exists_cut hlex.symm (by simp) (Token.guarded_closing hc before)
  have hcstop : c.stop = v.length + w.length := by
    rw [← hstop, stopOf_append_cons, stopOf_singleton]
  obtain ⟨x, hx, hsingle⟩ := Token.getLast?_of_closing hw hc hcstop
  have hspelled : spelled (v ++ w ++ y) (before ++ [c]) = Text.trim w := by
    rw [spelled, hstart, hstop, Nat.add_sub_cancel_left, List.append_assoc,
      List.drop_left, List.take_left]
  rw [hspelled]
  exact ⟨x, b, Text.getLast?_trim hx (Token.isSolid_of_closing hsingle), hsingle⟩

/-- A spelling with a bracket at its end is no keyword. -/
theorem plain?_of_getLast? (form : Form) {s : Text} {x : UInt8} {b : Bracket}
    (hs : s.getLast? = some x) (hx : Token.singleKind x = .closing b) :
    (form.toDocType s).plain? = (form.toDocType "[]").plain? := by
  have hne : ∀ word : Text, (∃ y, word.getLast? = some y ∧ Token.singleKind y = .other) →
      (s == word) = false := by
    rintro word ⟨y, hy, hother⟩
    rw [beq_eq_false_iff_ne]
    rintro rfl
    obtain rfl : x = y := Option.some.inj (hs.symm.trans hy)
    rw [hx] at hother
    cases hother
  have hnil : (s == []) = false := by
    rw [beq_eq_false_iff_ne]
    rintro rfl
    cases hs
  cases form with
  | array =>
    show some (s == [] || s == "array") = some false
    rw [hnil, hne "array" ⟨_, rfl, by decide⟩]
    rfl
  | iterable =>
    show some (s == [] || s == "iterable") = some false
    rw [hnil, hne "iterable" ⟨_, rfl, by decide⟩]
    rfl
  | unrepresentable => rfl

/-- Whether a type is plain does not depend on the expression. -/
theorem TypesAlike.plain? {d d' : DocType}
    (h : TypesAlike expr expr' (Token.lex expr) (Token.lex expr') d d') : d.plain? = d'.plain? := by
  cases h with
  | same => rfl
  | unrepresentable => rfl
  | bracketed form hcore hcore' hends hends' =>
    obtain ⟨x, b, hx, hb⟩ := getLast?_spelled hcore hends
    obtain ⟨x', b', hx', hb'⟩ := getLast?_spelled hcore' hends'
    rw [plain?_of_getLast? form hx hb, plain?_of_getLast? form hx' hb']

end Grammar

/-! ### What a type decides -/

/-- How a type is declared has nothing to do with its spelling. -/
theorem DocType.declared?_withoutSpelling (d : DocType) (site : Site) :
    d.withoutSpelling.declared? site = d.declared? site := by
  cases d <;> rfl

/-- What a declared type covers depends on the spelling only as far as that is plain. -/
theorem Tag.covers_withoutSpelling (declared : Text) (d : DocType) :
    covers declared d = (d.plain? != some false && covers declared d.withoutSpelling) := by
  have hplain : ∀ plain same : Bool,
      (plain && same) = (some plain != some false && (true && same)) := by
    decide
  cases d with
  | array s => exact hplain _ _
  | iterable s => exact hplain _ _
  | _ => rfl

namespace Grammar

open DocType

/-- **Expressions with the same tokens are read alike**: both fail with the same fault at the token
with the same index, or both are read as types that differ in a spelling at most. -/
theorem parse_congr (names : Option Resolver) {expr expr' : Text}
    (h : SameTokens (Token.lex expr) (Token.lex expr')) :
    (∃ fault, ∃ k ≤ (Token.lex expr).length,
      parse names expr = .error ⟨expr, offsetAt expr.length (Token.lex expr) k, fault⟩ ∧
      parse names expr' = .error ⟨expr', offsetAt expr'.length (Token.lex expr') k, fault⟩) ∨
    ∃ d d', parse names expr = .ok d ∧ parse names expr' = .ok d' ∧
      d.withoutSpelling = d'.withoutSpelling ∧ d.plain? = d'.plain? := by
  have hruns : RunsAlike expr.length expr'.length _ _ _ _ :=
    run_congr names _ _ (show State.initial.erase = State.initial.erase from rfl) h
  generalize hx : State.initial.run names expr.length (Token.lex expr) = x at hruns
  generalize hy : State.initial.run names expr'.length (Token.lex expr') = y at hruns
  cases hruns with
  | ok r r' =>
    have hparse : parse names expr = .ok (r.toDocType expr) := by rw [parse, hx]
    obtain ⟨d', hd', halike⟩ : ∃ d', Denotes names expr' .type (Token.lex expr') d' ∧
      TypesAlike expr expr' _ _ _ d' := (denotes_of_parse hparse).congr h
    exact .inr ⟨_, d', hparse, parse_of_denotes hd', halike.withoutSpelling, halike.plain?⟩
  | @error fault k hk =>
    refine .inl ⟨fault, k, hk, ?_, ?_⟩
    · rw [parse, hx]
    · rw [parse, hy]

/-- **Blanks between tokens decide nothing.**  Of two expressions with the same tokens, apart from
the offsets, either none can be read, with the same message at the token with the same index, or
they are read as the same type, apart from its spelling, which is declared in the same way
everywhere.  A tag is redundant with the one if and only if it is redundant with the other. -/
theorem spacing_decides_nothing (names : Option Resolver) (expr expr' : Text)
    (h : SameTokens (Token.lex expr) (Token.lex expr')) :
    ((∃ fault, ∃ k ≤ (Token.lex expr).length,
        parse names expr = .error ⟨expr, offsetAt expr.length (Token.lex expr) k, fault⟩ ∧
        parse names expr' = .error ⟨expr', offsetAt expr'.length (Token.lex expr') k, fault⟩) ∨
      ∃ d d', parse names expr = .ok d ∧ parse names expr' = .ok d' ∧
        d.withoutSpelling = d'.withoutSpelling ∧ ∀ site, d.declared? site = d'.declared? site) ∧
    ∀ (tag : Tag) (declared : Text),
      Tag.isRedundant names declared { tag with type := expr } =
        Tag.isRedundant names declared { tag with type := expr' } := by
  rcases parse_congr names h with ⟨fault, k, hk, hexpr, hexpr'⟩ |
    ⟨d, d', hexpr, hexpr', hsame, hplain⟩
  · refine ⟨.inl ⟨fault, k, hk, hexpr, hexpr'⟩, fun tag declared => ?_⟩
    simp only [Tag.isRedundant, hexpr, hexpr']
  · refine ⟨.inr ⟨d, d', hexpr, hexpr', hsame, fun site => ?_⟩, fun tag declared => ?_⟩
    · rw [← d.declared?_withoutSpelling, hsame, d'.declared?_withoutSpelling]
    · have hcovers : Tag.covers declared d = Tag.covers declared d' := by
        rw [Tag.covers_withoutSpelling declared d, hplain, hsame,
          ← Tag.covers_withoutSpelling declared d']
      simp only [Tag.isRedundant, hexpr, hexpr', hcovers]

/-- The spellings of the two arrays differ, but neither of them is the keyword. -/
theorem spacing_decides_nothing_array :
    SameTokens (Token.lex "( array < int >)") (Token.lex "(array<int>)") ∧
      parse none "( array < int >)" = .ok (.array "array < int >") ∧
      parse none "(array<int>)" = .ok (.array "array<int>") ∧
      ∀ (tag : Tag) (declared : Text),
        Tag.isRedundant none declared { tag with type := "( array < int >)" } =
          Tag.isRedundant none declared { tag with type := "(array<int>)" } := by
  have hsame : SameTokens (Token.lex "( array < int >)") (Token.lex "(array<int>)") := by
    unfold SameTokens
    cbv
  exact ⟨hsame, by cbv, by cbv, (spacing_decides_nothing none _ _ hsame).2⟩

/-- The token at fault is the end in both, which has another offset. -/
example : parse none "array <" = .error ⟨"array <", 7, .unterminated⟩ ∧
    parse none "array<" = .error ⟨"array<", 6, .unterminated⟩ := by cbv

end Grammar

end DocPromotion
