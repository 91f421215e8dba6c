import DocPromotion.Source.Refactor
import Mathlib.Logic.Relation

/-!
The search for an ancestor that declares a method decides reachability.

The search visits the classes of a queue, and puts the parents of each class that it visits at the
end of the queue.  The hierarchy may be cyclic, and the class that the search starts from counts as
visited from the beginning, although it may be met again.

* What is found is reachable from the queue and had not been visited before
  (`exists_of_searchAncestors`).
* If nothing is found, the classes that are left unvisited are closed off: no visited class has a
  parent among them (`exists_unvisited_of_searchAncestors`).  While the search runs, such a parent
  is always in the queue; this is the invariant of the search.
-/

namespace DocPromotion.SourceFile

variable {f : SourceFile}

/-- The class at a position has the class at another position as a parent: an entry of its list of
parents is looked up as that class. -/
def Extends (f : SourceFile) (i j : Nat) : Prop :=
  ∃ c, f.classes[i]? = some c ∧ ∃ parent ∈ c.parents, f.lookup parent = some j

/-- The class at a position declares a method, up to case. -/
def DeclaresAt (f : SourceFile) (name : Text) (j : Nat) : Prop :=
  ∃ c, f.classes[j]? = some c ∧ ∃ m ∈ c.methods, Text.equalFold m.name name = true

/-- The class at position `j` is an ancestor of the class at position `i`, but not that class
itself, and declares a method. -/
structure IsDeclaringAncestor (f : SourceFile) (i : Nat) (name : Text) (j : Nat) : Prop where
  ne : j ≠ i
  ancestor : Relation.TransGen f.Extends i j
  declares : f.DeclaresAt name j

/-! ### One class -/

theorem declares_iff {name : Text} {c : ClassDecl} :
    declares name c = true ↔ ∃ m ∈ c.methods, Text.equalFold m.name name = true := by
  unfold declares
  exact List.any_eq_true

theorem extends_iff {i : Nat} {c : ClassDecl} (hc : f.classes[i]? = some c) {j : Nat} :
    f.Extends i j ↔ j ∈ f.parentsOf c := by
  unfold parentsOf
  rw [List.mem_filterMap]
  constructor
  · rintro ⟨c', hc', hparent⟩
    obtain rfl : c = c' := Option.some.inj (hc.symm.trans hc')
    exact hparent
  · intro hparent
    exact ⟨c, hc, hparent⟩

theorem not_extends_of_none {i : Nat} (h : f.classes[i]? = none) (j : Nat) : ¬ f.Extends i j := by
  rintro ⟨c, hc, -⟩
  rw [h] at hc
  cases hc

theorem declaresAt_iff {name : Text} {i : Nat} {c : ClassDecl} (hc : f.classes[i]? = some c) :
    f.DeclaresAt name i ↔ declares name c = true := by
  rw [declares_iff]
  constructor
  · rintro ⟨c', hc', hm⟩
    obtain rfl : c = c' := Option.some.inj (hc.symm.trans hc')
    exact hm
  · intro hm
    exact ⟨c, hc, hm⟩

/-! ### What is found -/

/-- The search finds a class that had not been visited and is reachable from the queue. -/
theorem exists_of_searchAncestors {name : Text} {fresh queue : List Nat}
    (h : f.searchAncestors name fresh queue = true) :
    ∃ j ∈ fresh, f.DeclaresAt name j ∧ ∃ q ∈ queue, Relation.ReflTransGen f.Extends q j := by
  fun_induction f.searchAncestors name fresh queue with
  | case1 fresh => cases h
  | case2 fresh i queue hi hnone ih =>
    obtain ⟨j, hj, hdeclares, q, hq, hpath⟩ := ih h
    exact ⟨j, List.mem_of_mem_erase hj, hdeclares, q, List.mem_cons_of_mem i hq, hpath⟩
  | case3 fresh i queue hi c hc ih =>
    rcases Bool.or_eq_true_iff.mp h with hdeclares | hrest
    · exact ⟨i, hi, (declaresAt_iff hc).mpr hdeclares, i, List.mem_cons_self, .refl⟩
    · obtain ⟨j, hj, hdeclares, q, hq, hpath⟩ := ih hrest
      have hj : j ∈ fresh := List.mem_of_mem_erase hj
      rcases List.mem_append.mp hq with hq | hq
      · exact ⟨j, hj, hdeclares, q, List.mem_cons_of_mem i hq, hpath⟩
      · -- a parent of the class that is visited, so one step more from the queue
        have hstep : f.Extends i q := (extends_iff hc).mpr hq
        exact ⟨j, hj, hdeclares, i, List.mem_cons_self, .head hstep hpath⟩
  | case4 fresh i queue hi ih =>
    obtain ⟨j, hj, hdeclares, q, hq, hpath⟩ := ih h
    exact ⟨j, hj, hdeclares, q, List.mem_cons_of_mem i hq, hpath⟩

/-! ### What is missed -/

/-- The invariant of the search: a parent of a visited class is visited itself, or waits in the
queue. -/
def Pending (f : SourceFile) (fresh queue : List Nat) : Prop :=
  ∀ v, v ∉ fresh → ∀ j, f.Extends v j → j ∈ fresh → j ∈ queue

/-- Skipping a class that has been visited. -/
theorem Pending.skip {fresh queue : List Nat} {i : Nat} (h : f.Pending fresh (i :: queue))
    (hi : i ∉ fresh) : f.Pending fresh queue := by
  intro v hv j hstep hj
  rcases List.mem_cons.mp (h v hv j hstep hj) with rfl | hqueue
  · exact absurd hj hi
  · exact hqueue

/-- Visiting a class, whose parents are put into the queue. -/
theorem Pending.visit {fresh queue parents : List Nat} {i : Nat}
    (h : f.Pending fresh (i :: queue)) (hnodup : fresh.Nodup)
    (hparents : ∀ j, f.Extends i j → j ∈ parents) :
    f.Pending (fresh.erase i) (queue ++ parents) := by
  intro v hv j hstep hj
  obtain ⟨hne, hj⟩ := hnodup.mem_erase_iff.mp hj
  by_cases hvi : v = i
  · subst hvi
    exact List.mem_append_right queue (hparents j hstep)
  · have hv : v ∉ fresh := fun hmem => hv (hnodup.mem_erase_iff.mpr ⟨hvi, hmem⟩)
    rcases List.mem_cons.mp (h v hv j hstep hj) with rfl | hqueue
    · exact absurd rfl hne
    · exact List.mem_append_left parents hqueue

/-- The classes that a search leaves unvisited when it finds nothing. -/
structure Unvisited (f : SourceFile) (name : Text) (fresh queue left : List Nat) : Prop where
  subset : ∀ v ∈ left, v ∈ fresh
  queued : ∀ q ∈ queue, q ∉ left
  /-- No visited class has a parent among them. -/
  closed : ∀ v, v ∉ left → ∀ j, f.Extends v j → j ∉ left
  /-- The classes that have been visited do not declare the method. -/
  silent : ∀ v ∈ fresh, v ∉ left → ¬ f.DeclaresAt name v

theorem Unvisited.visit {name : Text} {fresh queue parents left : List Nat} {i : Nat}
    (h : f.Unvisited name (fresh.erase i) (queue ++ parents) left) (hnodup : fresh.Nodup)
    (hi : ¬ f.DeclaresAt name i) : f.Unvisited name fresh (i :: queue) left := by
  refine ⟨fun v hv => List.mem_of_mem_erase (h.subset v hv), ?_, h.closed, ?_⟩
  · intro q hq hleft
    rcases List.mem_cons.mp hq with rfl | hq
    · exact hnodup.not_mem_erase (h.subset q hleft)
    · exact h.queued q (List.mem_append_left parents hq) hleft
  · intro v hv hleft
    by_cases hvi : v = i
    · rw [hvi]
      exact hi
    · exact h.silent v (hnodup.mem_erase_iff.mpr ⟨hvi, hv⟩) hleft

/-- **A search that finds nothing has visited all that is reachable.** -/
theorem exists_unvisited_of_searchAncestors {name : Text} {fresh queue : List Nat}
    (h : f.searchAncestors name fresh queue = false) (hnodup : fresh.Nodup)
    (hpending : f.Pending fresh queue) : ∃ left, f.Unvisited name fresh queue left := by
  fun_induction f.searchAncestors name fresh queue with
  | case1 fresh =>
    -- nothing waits any more, so all that is fresh stays unvisited
    refine ⟨fresh, fun v hv => hv, by simp, ?_, fun v hv hleft => absurd hv hleft⟩
    intro v hv j hstep hj
    exact List.not_mem_nil (hpending v hv j hstep hj)
  | case2 fresh i queue hi hnone ih =>
    have hpending : f.Pending (fresh.erase i) (queue ++ []) := hpending.visit hnodup fun j hstep =>
      absurd hstep (not_extends_of_none hnone j)
    rw [List.append_nil] at hpending
    obtain ⟨left, hleft⟩ := ih h (hnodup.erase i) hpending
    rw [← List.append_nil queue] at hleft
    refine ⟨left, hleft.visit hnodup ?_⟩
    rintro ⟨c, hc, -⟩
    rw [hnone] at hc
    cases hc
  | case3 fresh i queue hi c hc ih =>
    obtain ⟨hsilent, hrest⟩ := Bool.or_eq_false_iff.mp h
    have hpending := hpending.visit hnodup fun j hstep => (extends_iff hc).mp hstep
    obtain ⟨left, hleft⟩ := ih hrest (hnodup.erase i) hpending
    refine ⟨left, hleft.visit hnodup ?_⟩
    rw [declaresAt_iff hc, hsilent]
    exact Bool.false_ne_true
  | case4 fresh i queue hi ih =>
    obtain ⟨left, hleft⟩ := ih h hnodup (hpending.skip hi)
    refine ⟨left, hleft.subset, ?_, hleft.closed, hleft.silent⟩
    intro q hq
    rcases List.mem_cons.mp hq with rfl | hq
    · exact fun hmem => hi (hleft.subset q hmem)
    · exact hleft.queued q hq

theorem Unvisited.not_mem_of_reachable {name : Text} {fresh queue left : List Nat}
    (h : f.Unvisited name fresh queue left) {q j : Nat} (hq : q ∈ queue)
    (hpath : Relation.ReflTransGen f.Extends q j) : j ∉ left := by
  induction hpath with
  | refl => exact h.queued q hq
  | tail _ hstep ih => exact h.closed _ ih _ hstep

/-! ### Main statement -/

theorem mem_fresh_iff {i j : Nat} :
    j ∈ (List.range f.classes.length).erase i ↔ j ≠ i ∧ j < f.classes.length := by
  rw [List.nodup_range.mem_erase_iff, List.mem_range]

/-- At the beginning, the class itself is the only one that has been visited. -/
theorem pending_parentsOf {i : Nat} {c : ClassDecl} (hc : f.classes[i]? = some c) :
    f.Pending ((List.range f.classes.length).erase i) (f.parentsOf c) := by
  intro v hv j hstep hj
  by_cases hvi : v = i
  · rw [hvi] at hstep
    exact (extends_iff hc).mp hstep
  · obtain ⟨d, hd, -⟩ := hstep
    obtain ⟨hlt, -⟩ := List.getElem?_eq_some_iff.mp hd
    exact absurd (mem_fresh_iff.mpr ⟨hvi, hlt⟩) hv

theorem ancestorDeclares_iff (f : SourceFile) (i : Nat) (name : Text) :
    f.ancestorDeclares i name = true ↔ ∃ j, f.IsDeclaringAncestor i name j := by
  unfold ancestorDeclares
  cases hc : f.classes[i]? with
  | none =>
    -- there is no such class, so it has no ancestors
    refine ⟨fun h => absurd h Bool.false_ne_true, ?_⟩
    rintro ⟨j, -, hpath, -⟩
    obtain ⟨k, hstep, -⟩ := Relation.TransGen.head'_iff.mp hpath
    exact absurd hstep (not_extends_of_none hc k)
  | some c =>
    constructor
    · intro h
      obtain ⟨j, hj, hdeclares, q, hq, hpath⟩ := exists_of_searchAncestors h
      have hstep : f.Extends i q := (extends_iff hc).mpr hq
      exact ⟨j, (mem_fresh_iff.mp hj).1, .head' hstep hpath, hdeclares⟩
    · rintro ⟨j, hne, hpath, hdeclares⟩
      rw [← Bool.not_eq_false]
      intro hfalse
      have hnodup : ((List.range f.classes.length).erase i).Nodup := List.nodup_range.erase i
      obtain ⟨left, hleft⟩ := exists_unvisited_of_searchAncestors hfalse hnodup
        (pending_parentsOf hc)
      -- the first step goes to the queue, so the path never gets to what is unvisited
      obtain ⟨q, hstep, hrest⟩ := Relation.TransGen.head'_iff.mp hpath
      have hvisited : j ∉ left := hleft.not_mem_of_reachable ((extends_iff hc).mp hstep) hrest
      obtain ⟨d, hd, -⟩ := id hdeclares
      obtain ⟨hlt, -⟩ := List.getElem?_eq_some_iff.mp hd
      exact hleft.silent j (mem_fresh_iff.mpr ⟨hne, hlt⟩) hvisited hdeclares

/-- What the level for methods that override nothing admits. -/
theorem check_noOverrides (f : SourceFile) (i : Nat) (name : Text) :
    (Eligibility.noOverrides.check (f.scope i).facilities.classes name).2 =
      !f.ancestorDeclares i name := by
  have hclasses : (f.scope i).facilities.classes = some (f.classView? i) := rfl
  rw [hclasses]
  cases hc : f.classes[i]? with
  | none =>
    have hview : f.classView? i = none := by rw [classView?, hc, Option.map_none]
    rw [hview, ancestorDeclares, hc]
    rfl
  | some c =>
    have hview : f.classView? i = some ⟨c.isInterface, f.ancestorDeclares i⟩ := by
      rw [classView?, hc, Option.map_some]
    rw [hview]
    rfl

/-- **The search for an ancestor decides reachability**, in files with any hierarchy.  It says yes
if and only if another class declares the method that can be reached in one or more steps from a
class to a parent.  So a method is admitted at the level for methods that override nothing if and
only if there is no such class for its name. -/
theorem ancestor_search_decides_reachability (f : SourceFile) (i : Nat) (name : Text) :
    (f.ancestorDeclares i name = true ↔ ∃ j, f.IsDeclaringAncestor i name j) ∧
      ((Eligibility.noOverrides.check (f.scope i).facilities.classes name).2 = true ↔
        ¬ ∃ j, f.IsDeclaringAncestor i name j) := by
  have hiff := f.ancestorDeclares_iff i name
  refine ⟨hiff, ?_⟩
  rw [← hiff, check_noOverrides, Bool.not_eq_true', Bool.not_eq_true]

end DocPromotion.SourceFile
