/-!
# Lists that grow at the end

The kernel's children, the caller's streams and the connections of a server are
kept in the order in which they came.
-/

namespace Apue
namespace Foundation

universe u v

variable {α : Type u} {β : Type v}

theorem mem_snoc {xs : List α} {x a : α} (h : a ∈ xs ++ [x]) :
    a ∈ xs ∨ a = x := by
  rcases List.mem_append.mp h with hold | hnew
  · exact Or.inl hold
  · exact Or.inr (List.mem_singleton.mp hnew)

theorem getElem?_snoc {xs : List α} {x a : α} {i : Nat}
    (h : (xs ++ [x])[i]? = some a) :
    xs[i]? = some a ∨ (i = xs.length ∧ a = x) := by
  rw [List.getElem?_append] at h
  split at h
  · exact Or.inl h
  · next hge =>
      right
      rcases List.getElem?_eq_some_iff.mp h with ⟨hlt, heq⟩
      rw [List.length_singleton] at hlt
      refine ⟨by lia, ?_⟩
      exact List.mem_singleton.mp (List.mem_of_getElem? h)

/-- A function that tells the elements of a list apart still does when it gives
the element added at the end a new value. -/
theorem inj_snoc {f : α -> β} {xs : List α} {x : α}
    (hinj : forall a b, a ∈ xs -> b ∈ xs -> f a = f b -> a = b)
    (hnew : forall a, a ∈ xs -> f a ≠ f x) :
    forall a b, a ∈ xs ++ [x] -> b ∈ xs ++ [x] -> f a = f b -> a = b := by
  intro a b ha hb hab
  rcases mem_snoc ha with ha | ha
  · rcases mem_snoc hb with hb | hb
    · exact hinj a b ha hb hab
    · rw [hb] at hab
      exact absurd hab (hnew a ha)
  · rcases mem_snoc hb with hb | hb
    · rw [ha] at hab
      exact absurd hab.symm (hnew b hb)
    · rw [ha, hb]

end Foundation
end Apue
