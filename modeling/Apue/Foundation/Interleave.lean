/-!
# Interleavings

Several owners put elements on one list, each at its end.  The list is tagged
with the owners, and what one owner put there is a projection of it.
-/

namespace Apue
namespace Foundation

universe u v

variable {ι : Type u} {α : Type v} [DecidableEq ι]

def partOf (i : ι) : List (ι × α) -> List α
  | [] => []
  | x :: rest => if x.1 = i then x.2 :: partOf i rest else partOf i rest

/-- `whole` holds the elements of each `parts i` in their order, and no others. -/
def Interleaves (parts : ι -> List α) (whole : List (ι × α)) : Prop :=
  forall i, partOf i whole = parts i

theorem partOf_cons (i : ι) (x : ι × α) (rest : List (ι × α)) :
    partOf i (x :: rest) =
      if x.1 = i then x.2 :: partOf i rest else partOf i rest := rfl

theorem partOf_append (i : ι) (xs ys : List (ι × α)) :
    partOf i (xs ++ ys) = partOf i xs ++ partOf i ys := by
  induction xs with
  | nil => rfl
  | cons x rest ih =>
      rw [List.cons_append, partOf_cons, partOf_cons, ih]
      split
      · rfl
      · rfl

theorem mem_partOf {i : ι} {a : α} {xs : List (ι × α)} (h : (i, a) ∈ xs) :
    a ∈ partOf i xs := by
  induction xs with
  | nil => cases h
  | cons x rest ih =>
      rw [partOf_cons]
      rcases List.mem_cons.mp h with heq | hrest
      · rw [← heq, if_pos rfl]
        exact List.mem_cons_self
      · split
        · exact List.mem_cons_of_mem _ (ih hrest)
        · exact ih hrest

namespace Interleaves

theorem nil {parts : ι -> List α} (h : forall i, parts i = []) :
    Interleaves parts [] :=
  fun i => (h i).symm

theorem snoc {parts parts' : ι -> List α} {whole : List (ι × α)} {i : ι} {a : α}
    (h : Interleaves parts whole) (hi : parts' i = parts i ++ [a])
    (hother : forall j, j ≠ i -> parts' j = parts j) :
    Interleaves parts' (whole ++ [(i, a)]) := by
  intro j
  rw [partOf_append, h j]
  by_cases hj : j = i
  · rw [hj, hi]
    simp only [partOf, if_pos]
  · have hne : i ≠ j := fun heq => hj heq.symm
    rw [hother j hj]
    simp only [partOf, if_neg hne, List.append_nil]

theorem mem {parts : ι -> List α} {whole : List (ι × α)} {i : ι} {a : α}
    (h : Interleaves parts whole) (ha : (i, a) ∈ whole) : a ∈ parts i := by
  rw [← h i]
  exact mem_partOf ha

end Interleaves

end Foundation
end Apue
