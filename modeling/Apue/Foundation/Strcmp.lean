import Apue.Foundation.CString

/-!
# Comparing strings

`strcmp` and `strncmp` compare bytes as unsigned numbers and treat the terminator
as the byte 0.  Only the sign of its answer means anything; on strings without zero
bytes it is a total preorder.
-/

namespace Apue
namespace Foundation

def strcmp : List Byte -> List Byte -> Int
  | [], [] => 0
  | [], y :: _ => - (y.toNat : Int)
  | x :: _, [] => x.toNat
  | x :: xs, y :: ys =>
      if x = y then strcmp xs ys else (x.toNat : Int) - y.toNat

/-- `strncmp` stops after `n` bytes. -/
def strncmp : List Byte -> List Byte -> Nat -> Int
  | _, _, 0 => 0
  | [], [], _ + 1 => 0
  | [], y :: _, _ + 1 => - (y.toNat : Int)
  | x :: _, [], _ + 1 => x.toNat
  | x :: xs, y :: ys, n + 1 =>
      if x = y then strncmp xs ys n else (x.toNat : Int) - y.toNat

theorem toNat_positive {x : Byte} (h : x ≠ 0) : 0 < x.toNat := by
  rcases Nat.eq_zero_or_pos x.toNat with hzero | hpos
  · exact absurd (UInt8.toNat_inj.mp hzero) h
  · exact hpos

theorem toNat_ne {x y : Byte} (h : x ≠ y) : x.toNat ≠ y.toNat :=
  fun heq => h (UInt8.toNat_inj.mp heq)

theorem strcmp_self (s : List Byte) : strcmp s s = 0 := by
  induction s with
  | nil => rfl
  | cons x xs ih =>
      rw [strcmp, if_pos rfl]
      exact ih

theorem strcmp_swap (s t : List Byte) : strcmp t s = - strcmp s t := by
  induction s generalizing t with
  | nil =>
      cases t with
      | nil => rfl
      | cons y ys =>
          change (y.toNat : Int) = - - (y.toNat : Int)
          rw [Int.neg_neg]
  | cons x xs ih =>
      cases t with
      | nil => rfl
      | cons y ys =>
          by_cases heq : x = y
          · rw [strcmp, strcmp, if_pos heq, if_pos heq.symm]
            exact ih ys
          · rw [strcmp, strcmp, if_neg heq, if_neg (Ne.symm heq)]
            lia

theorem strcmp_cons_le_iff (x y : Byte) (xs ys : List Byte) :
    strcmp (x :: xs) (y :: ys) ≤ 0 ↔
      x.toNat < y.toNat ∨ (x = y ∧ strcmp xs ys ≤ 0) := by
  rw [strcmp]
  split
  · next heq =>
      constructor
      · intro h
        right
        exact ⟨heq, h⟩
      · intro h
        rcases h with hlt | heq'
        · rw [heq] at hlt
          exact absurd hlt (Nat.lt_irrefl _)
        · exact heq'.2
  · next hne =>
      have hne' := toNat_ne hne
      constructor
      · intro h
        left
        lia
      · intro h
        rcases h with hlt | heq
        · lia
        · exact absurd heq.1 hne

theorem strcmp_trans {s t u : List Byte} (hs : forall b, b ∈ s -> b ≠ 0)
    (ht : forall b, b ∈ t -> b ≠ 0) (hst : strcmp s t ≤ 0)
    (htu : strcmp t u ≤ 0) : strcmp s u ≤ 0 := by
  induction s generalizing t u with
  | nil =>
      cases u with
      | nil => exact Int.le_refl 0
      | cons z zs =>
          change - (z.toNat : Int) ≤ 0
          lia
  | cons x xs ih =>
      cases t with
      | nil =>
          have hx := toNat_positive (hs x List.mem_cons_self)
          change (x.toNat : Int) ≤ 0 at hst
          lia
      | cons y ys =>
          cases u with
          | nil =>
              have hy := toNat_positive (ht y List.mem_cons_self)
              change (y.toNat : Int) ≤ 0 at htu
              lia
          | cons z zs =>
              rw [strcmp_cons_le_iff] at hst htu ⊢
              rcases hst with hxy | ⟨hxy, hrest⟩
              · left
                rcases htu with hyz | ⟨hyz, _⟩
                · exact Nat.lt_trans hxy hyz
                · rw [← hyz]
                  exact hxy
              · rcases htu with hyz | ⟨hyz, hrest'⟩
                · left
                  rw [hxy]
                  exact hyz
                · right
                  exact ⟨hxy.trans hyz,
                    ih (fun b hb => hs b (List.mem_cons_of_mem x hb))
                      (fun b hb => ht b (List.mem_cons_of_mem y hb))
                      hrest hrest'⟩

/-- On its whole length, a string without zero bytes compares equal to the strings
that begin with it. -/
theorem strncmp_length_eq_zero_iff {s t : List Byte}
    (hs : forall b, b ∈ s -> b ≠ 0) : strncmp s t s.length = 0 ↔ s <+: t := by
  induction s generalizing t with
  | nil => simp [strncmp]
  | cons x xs ih =>
      have hx := toNat_positive (hs x List.mem_cons_self)
      cases t with
      | nil =>
          change (x.toNat : Int) = 0 ↔ _
          simp only [List.prefix_nil, reduceCtorEq, iff_false]
          lia
      | cons y ys =>
          rw [List.length_cons, strncmp, List.cons_prefix_cons]
          by_cases heq : x = y
          · rw [if_pos heq, ih (fun b hb => hs b (List.mem_cons_of_mem x hb))]
            simp [heq]
          · rw [if_neg heq]
            have hne := toNat_ne heq
            simp only [heq, false_and, iff_false]
            lia

/-- The end of the shorter string is a difference, when it is among the bytes that
are compared. -/
theorem strncmp_ne_zero {s t : List Byte} {n : Nat}
    (hs : forall b, b ∈ s -> b ≠ 0) (hlt : t.length < s.length)
    (hn : t.length < n) : strncmp s t n ≠ 0 := by
  induction t generalizing s n with
  | nil =>
      cases s with
      | nil => cases hlt
      | cons x xs =>
          cases n with
          | zero => cases hn
          | succ n =>
              have hx := toNat_positive (hs x List.mem_cons_self)
              change (x.toNat : Int) ≠ 0
              lia
  | cons y ys ih =>
      cases s with
      | nil => cases hlt
      | cons x xs =>
          cases n with
          | zero => cases hn
          | succ n =>
              rw [strncmp]
              split
              · exact ih (fun b hb => hs b (List.mem_cons_of_mem x hb))
                  (Nat.lt_of_succ_lt_succ hlt) (Nat.lt_of_succ_lt_succ hn)
              · next hne =>
                  have hne' := toNat_ne hne
                  lia

theorem strncmp_take (s u : List Byte) {n : Nat} (hn : n ≤ s.length) :
    strncmp s (s.take n ++ u) n = 0 := by
  induction s generalizing n with
  | nil =>
      cases n with
      | zero => rfl
      | succ n => cases hn
  | cons x xs ih =>
      cases n with
      | zero => rfl
      | succ n =>
          rw [List.take_succ_cons, List.cons_append, strncmp, if_pos rfl]
          exact ih (Nat.le_of_succ_le_succ hn)

theorem strncmp_self (s : List Byte) (n : Nat) : strncmp s s n = 0 := by
  induction s generalizing n with
  | nil => cases n <;> rfl
  | cons x xs ih =>
      cases n with
      | zero => rfl
      | succ n =>
          rw [strncmp, if_pos rfl]
          exact ih n

end Foundation
end Apue
