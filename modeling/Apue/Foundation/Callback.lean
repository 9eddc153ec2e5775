/-!
# Traces of callback calls

A traversal reports what it sees to a callback and stops at the first nonzero
answer.  The callback may look at everything it was told before.  Cutting the
full sequence of reports at that answer gives the calls that are really made.
-/

namespace Apue
namespace Foundation

universe u

/-- A callback answers an integer from its past calls and the current one. -/
abbrev Callback (call : Type u) := List call -> call -> Int

variable {call : Type u}

/-- The calls that are made, in order, and the answer the traversal returns:
the first nonzero one, or 0. -/
def cut (func : Callback call) : List call -> List call -> List call × Int
  | _, [] => ([], 0)
  | past, c :: rest =>
      if func past c ≠ 0 then
        ([c], func past c)
      else
        (c :: (cut func (past ++ [c]) rest).1,
          (cut func (past ++ [c]) rest).2)

theorem cut_nil (func : Callback call) (past : List call) :
    cut func past [] = ([], 0) := rfl

theorem cut_cons_of_ne {func : Callback call} {past : List call} {c : call}
    (h : func past c ≠ 0) (rest : List call) :
    cut func past (c :: rest) = ([c], func past c) := by
  unfold cut
  rw [if_pos h]

theorem cut_cons_of_eq {func : Callback call} {past : List call} {c : call}
    (h : func past c = 0) (rest : List call) :
    cut func past (c :: rest) =
      (c :: (cut func (past ++ [c]) rest).1,
        (cut func (past ++ [c]) rest).2) := by
  rw [cut, if_neg (fun hne => hne h)]

theorem cut_append_of_ne {func : Callback call} {past a : List call}
    (h : (cut func past a).2 ≠ 0) (b : List call) :
    cut func past (a ++ b) = cut func past a := by
  induction a generalizing past with
  | nil =>
      exact absurd rfl h
  | cons c rest ih =>
      rw [List.cons_append]
      by_cases hc : func past c = 0
      · rw [cut_cons_of_eq hc] at h
        rw [cut_cons_of_eq hc, cut_cons_of_eq hc, ih h]
      · rw [cut_cons_of_ne hc, cut_cons_of_ne hc]

theorem cut_append_of_eq {func : Callback call} {past a : List call}
    (h : (cut func past a).2 = 0) (b : List call) :
    cut func past (a ++ b) =
      ((cut func past a).1 ++ (cut func (past ++ (cut func past a).1) b).1,
        (cut func (past ++ (cut func past a).1) b).2) := by
  induction a generalizing past with
  | nil =>
      rw [cut_nil, List.nil_append, List.nil_append, List.append_nil]
  | cons c rest ih =>
      rw [List.cons_append]
      by_cases hc : func past c = 0
      · rw [cut_cons_of_eq hc] at h
        rw [cut_cons_of_eq hc, cut_cons_of_eq hc, ih h]
        simp only [List.cons_append, List.append_assoc, List.nil_append]
      · rw [cut_cons_of_ne hc] at h
        exact absurd h hc

theorem cut_zero (past a : List call) :
    cut (fun _ _ => 0) past a = (a, 0) := by
  induction a generalizing past with
  | nil => rfl
  | cons c rest ih =>
      rw [cut_cons_of_eq rfl, ih]

/-- A callback that answers 0 as long as every call so far is good sees every report
of a sequence of good ones. -/
theorem cut_of_good {func : Callback call} {good : call -> Prop}
    (hfunc : forall past c, (forall x, x ∈ past ++ [c] -> good x) -> func past c = 0)
    {past a : List call} (h : forall x, x ∈ past ++ a -> good x) :
    cut func past a = (a, 0) := by
  induction a generalizing past with
  | nil => rfl
  | cons c rest ih =>
      rw [List.append_cons] at h
      have hzero : func past c = 0 :=
        hfunc past c (fun x hx => h x (List.mem_append_left rest hx))
      rw [cut_cons_of_eq hzero, ih h]

end Foundation
end Apue
