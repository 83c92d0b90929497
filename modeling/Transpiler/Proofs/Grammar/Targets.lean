import Transpiler.Proofs.Grammar.Derivation

/-!
Contract: the check of assignment targets accepts exactly what may be assigned to.
-/

namespace Transpiler
namespace Grammar

/-- The elements of an assigned tuple or list are accepted when each of them is. -/
private theorem checkTargets_eq_ok_iff (use : TargetUse) (elements : List Expr) :
    checkTargets use elements = .ok () ↔
      ∀ element ∈ elements, checkTarget use element = .ok () := by
  induction elements with
  | nil => simp [checkTargets]
  | cons first rest inductionHypothesis =>
      rw [checkTargets]
      cases accepted : checkTarget use first with
      | error cause => simp [bind, Except.bind, accepted]
      | ok outcome =>
          cases outcome
          simp [bind, Except.bind, accepted, inductionHypothesis]

/-- The check accepts what may be assigned to. -/
theorem Assignable.checkTarget_eq_ok {use : TargetUse} {target : Expr}
    (assignable : Assignable use target) : checkTarget use target = .ok () := by
  induction assignable with
  | name => simp [checkTarget]
  | member => simp [checkTarget]
  | subscript => simp [checkTarget]
  | tuple all inductionHypothesis =>
      simpa [checkTarget] using (checkTargets_eq_ok_iff _ _).mpr inductionHypothesis
  | list all inductionHypothesis =>
      simpa [checkTarget] using (checkTargets_eq_ok_iff _ _).mpr inductionHypothesis

mutual

/-- What the check accepts may be assigned to. -/
private theorem assignable_of_checkTarget {use : TargetUse} :
    ∀ {target : Expr}, checkTarget use target = .ok () → Assignable use target
  | .name .., _ => .name
  | .member .., _ => .member
  | .tuple elements span, accepted => by
      cases use with
      | assign =>
          rw [checkTarget] at accepted
          exact .tuple (assignable_of_checkTargets accepted)
      | annotated => simp [checkTarget] at accepted
      | augmented => simp [checkTarget] at accepted
  | .list elements span, accepted => by
      cases use with
      | assign =>
          rw [checkTarget] at accepted
          exact .list (assignable_of_checkTargets accepted)
      | annotated => simp [checkTarget] at accepted
      | augmented => simp [checkTarget] at accepted
  | .constant value span, accepted => by
      cases value <;> simp [checkTarget] at accepted
  | .call .., accepted => by simp [checkTarget] at accepted
  | .unsupported kindName span, accepted => by
      by_cases subscript : kindName = "Subscript"
      · subst subscript
        exact .subscript
      · simp [checkTarget, subscript] at accepted
  | .binary .., accepted => by simp [checkTarget] at accepted
  | .unary .., accepted => by simp [checkTarget] at accepted

theorem assignable_of_checkTargets {use : TargetUse} :
    ∀ {elements : List Expr}, checkTargets use elements = .ok () →
      ∀ element ∈ elements, Assignable use element
  | [], _ => by simp
  | first :: rest, accepted => by
      have each := (checkTargets_eq_ok_iff use (first :: rest)).mp accepted
      have others : checkTargets use rest = .ok () :=
        (checkTargets_eq_ok_iff use rest).mpr fun element member =>
          each element (List.mem_cons_of_mem first member)
      intro element member
      rcases List.mem_cons.mp member with isFirst | inRest
      · rw [isFirst]
        exact assignable_of_checkTarget (each first List.mem_cons_self)
      · exact assignable_of_checkTargets others element inRest

end

theorem checkTarget_eq_ok_iff {use : TargetUse} {target : Expr} :
    checkTarget use target = .ok () ↔ Assignable use target :=
  ⟨assignable_of_checkTarget, Assignable.checkTarget_eq_ok⟩

/-- Of two lists that agree up to locations, each element of one has its like in the
other. -/
private theorem exists_like {elements others : List Expr} {element : Expr}
    (same : others.map Expr.unlocated = elements.map Expr.unlocated) (member : element ∈ others) :
    ∃ like ∈ elements, element.unlocated = like.unlocated := by
  have mapped : element.unlocated ∈ elements.map Expr.unlocated := by
    rw [← same]
    exact List.mem_map_of_mem member
  obtain ⟨like, likeMember, equal⟩ := List.mem_map.mp mapped
  exact ⟨like, likeMember, equal.symm⟩

/-- What may be assigned to does not depend on locations. -/
theorem Assignable.of_unlocated_eq {use : TargetUse} {target other : Expr}
    (assignable : Assignable use target) (same : other.unlocated = target.unlocated) :
    Assignable use other := by
  induction assignable generalizing other with
  | name =>
      cases other <;> simp [Expr.unlocated] at same
      exact .name
  | member =>
      cases other <;> simp [Expr.unlocated] at same
      exact .member
  | subscript =>
      cases other <;> simp [Expr.unlocated] at same
      subst same
      exact .subscript
  | tuple all inductionHypothesis =>
      cases other <;> simp [Expr.unlocated] at same
      refine .tuple fun element member => ?_
      obtain ⟨like, likeMember, equal⟩ := exists_like same member
      exact inductionHypothesis like likeMember equal
  | list all inductionHypothesis =>
      cases other <;> simp [Expr.unlocated] at same
      refine .list fun element member => ?_
      obtain ⟨like, likeMember, equal⟩ := exists_like same member
      exact inductionHypothesis like likeMember equal

end Grammar
end Transpiler
