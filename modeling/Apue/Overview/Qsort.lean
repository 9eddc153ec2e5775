import Apue.Foundation.Cells
import Apue.Foundation.Strcmp

/-!
# Qsort

The array holds pointers; `text` says which string a pointer leads to.  Indices
are unbounded integers.
-/

namespace Apue
namespace Overview

open Foundation

universe u

variable {α : Type u}

inductive Fault where
  | outside (index : Int)
  | outOfFuel
  deriving Repr, DecidableEq

def fetch (v : List α) (i : Int) : Except Fault α :=
  match load v i with
  | some x => Except.ok x
  | none => Except.error (Fault.outside i)

def assign (v : List α) (i : Int) (x : α) : Except Fault (List α) :=
  match store v i x with
  | some v => Except.ok v
  | none => Except.error (Fault.outside i)

def swap (v : List α) (i j : Int) : Except Fault (List α) := do
  let temp <- fetch v i
  let x <- fetch v j
  let v <- assign v i x
  assign v j temp

/-- The `for` loop of `Qsort`, from the current `i` and `last`. -/
def partition (text : α -> CString) (left right : Int) :
    Nat -> List α -> Int -> Int -> Except Fault (List α × Int)
  | 0, _, _, _ => Except.error Fault.outOfFuel
  | fuel + 1, v, i, last =>
      if i ≤ right then do
        let x <- fetch v i
        let pivot <- fetch v left
        if strcmp (text x).bytes (text pivot).bytes < 0 then do
          let v <- swap v i (last + 1)
          partition text left right fuel v (i + 1) (last + 1)
        else
          partition text left right fuel v (i + 1) last
      else
        Except.ok (v, last)

def Qsort (text : α -> CString) :
    Nat -> List α -> Int -> Int -> Except Fault (List α)
  | 0, _, _, _ => Except.error Fault.outOfFuel
  | fuel + 1, v, left, right =>
      if left ≥ right then
        Except.ok v
      else do
        let v <- swap v left (Int.tdiv (left + right) 2)
        let (v, last) <-
          partition text left right (fuel + 1) v (left + 1) left
        let v <- swap v left last
        let v <- Qsort text fuel v left (last - 1)
        Qsort text fuel v (last + 1) right

/-!
# The exchange
-/

theorem fetch_ok {v : List α} {i : Int} {x : α} (h : load v i = some x) :
    fetch v i = Except.ok x := by
  unfold fetch
  rw [h]

theorem swap_ok {v : List α} {lo hi i j : Int} {x y : α} (hlo : 0 ≤ lo)
    (hhi : hi < v.length) (hloi : lo ≤ i) (hihi : i ≤ hi) (hloj : lo ≤ j)
    (hjhi : j ≤ hi) (hx : load v i = some x) (hy : load v j = some y) :
    exists v', swap v i j = Except.ok v' ∧ Rearranged lo hi v v' ∧
      forall k, load v' k =
        if k = j then some x else if k = i then some y else load v k := by
  rcases exchange (i := i) (j := j) (by lia) (by lia) (by lia) (by lia) hx hy
    with ⟨w, v', hw, hv', hperm, hload⟩
  refine ⟨v', ?_, ⟨hperm, ?_⟩, hload⟩
  · unfold swap assign
    rw [fetch_ok hx, fetch_ok hy]
    simp only [Except.bind, bind, hw, hv']
  · intro k hk
    rw [hload, if_neg (by lia), if_neg (by lia)]

/-!
# The partition loop
-/

/-- Between two iterations: the pivot stands at `left`, smaller elements up to
`last`, and the others from there to `i`. -/
structure Partitioned (text : α -> CString) (left right : Int) (p : α)
    (v : List α) (i last : Int) : Prop where
  pivot : load v left = some p
  left_le : left ≤ last
  lt_i : last < i
  i_le : i ≤ right + 1
  below : Throughout (fun x => strcmp (text x).bytes (text p).bytes < 0)
    (left + 1) last v
  above : Throughout (fun x => ¬ strcmp (text x).bytes (text p).bytes < 0)
    (last + 1) (i - 1) v

theorem Partitioned.start (text : α -> CString) {left right : Int} {p : α}
    {v : List α} (hp : load v left = some p) (hlt : left < right) :
    Partitioned text left right p v (left + 1) left := by
  constructor
  · exact hp
  · exact Int.le_refl left
  · lia
  · lia
  · intro k x hlo hhi
    lia
  · intro k x hlo hhi
    lia

theorem Partitioned.keep {text : α -> CString} {left right : Int} {p x : α}
    {v : List α} {i last : Int} (h : Partitioned text left right p v i last)
    (hi : i ≤ right) (hx : load v i = some x)
    (hge : ¬ strcmp (text x).bytes (text p).bytes < 0) :
    Partitioned text left right p v (i + 1) last := by
  have hlt := h.lt_i
  constructor
  · exact h.pivot
  · exact h.left_le
  · lia
  · lia
  · exact h.below
  · intro k y hlo hhi hk
    by_cases heq : k = i
    · rw [heq, hx] at hk
      cases hk
      exact hge
    · exact h.above k y hlo (by lia) hk

theorem Partitioned.exchange {text : α -> CString} {left right : Int}
    {p x y : α} {v v' : List α} {i last : Int}
    (h : Partitioned text left right p v i last) (hi : i ≤ right)
    (hy : load v (last + 1) = some y)
    (hless : strcmp (text x).bytes (text p).bytes < 0)
    (hload : forall k, load v' k =
      if k = last + 1 then some x else if k = i then some y else load v k) :
    Partitioned text left right p v' (i + 1) (last + 1) := by
  have hlt := h.lt_i
  have hle := h.left_le
  constructor
  · rw [hload, if_neg (by lia), if_neg (by lia)]
    exact h.pivot
  · lia
  · lia
  · lia
  · intro k z hlo hhi hk
    rw [hload] at hk
    by_cases heq : k = last + 1
    · rw [if_pos heq] at hk
      cases hk
      exact hless
    · rw [if_neg heq, if_neg (by lia)] at hk
      exact h.below k z hlo (by lia) hk
  · intro k z hlo hhi hk
    rw [hload, if_neg (by lia)] at hk
    by_cases heq : k = i
    · rw [if_pos heq] at hk
      cases hk
      by_cases hsame : i = last + 1
      · lia
      · exact h.above (last + 1) y (by lia) (by lia) hy
    · rw [if_neg heq] at hk
      exact h.above k z (by lia) (by lia) hk

theorem partition_ok {text : α -> CString} {left right : Int} {p : α}
    {fuel : Nat} {v : List α} {i last : Int} (hleft : 0 ≤ left)
    (hright : right < v.length)
    (h : Partitioned text left right p v i last)
    (hfuel : (right + 1 - i).toNat < fuel) :
    exists v' last',
      partition text left right fuel v i last = Except.ok (v', last') ∧
        Rearranged left right v v' ∧
        Partitioned text left right p v' (right + 1) last' := by
  induction fuel generalizing v i last with
  | zero => lia
  | succ fuel ih =>
      have hlt := h.lt_i
      have hle := h.left_le
      by_cases hi : i ≤ right
      · rcases load_inside (v := v) (i := i) (by lia) (by lia) with ⟨x, hx⟩
        rw [partition, if_pos hi, fetch_ok hx, fetch_ok h.pivot]
        simp only [Except.bind, bind]
        by_cases hless : strcmp (text x).bytes (text p).bytes < 0
        · rcases load_inside (v := v) (i := last + 1) (by lia) (by lia) with
            ⟨y, hy⟩
          rcases swap_ok hleft hright (by lia) hi
              (by lia) (by lia) hx hy with ⟨w, hswap, hre, hload⟩
          rw [if_pos hless, hswap]
          have hw := h.exchange hi hy hless hload
          rcases ih (by rw [hre.length_eq]; exact hright) hw (by lia) with
            ⟨v', last', hrun, hrest, hpart⟩
          exact ⟨v', last', hrun, hre.trans hrest, hpart⟩
        · rw [if_neg hless]
          exact ih hright (h.keep hi hx hless) (by lia)
      · have hend : i = right + 1 := by
          have hbound := h.i_le
          lia
        rw [partition, if_neg hi]
        rw [hend] at h
        exact ⟨v, last, rfl, Rearranged.refl left right v, h⟩

/-!
# The recursion
-/

def lessEq (text : α -> CString) (x y : α) : Prop :=
  strcmp (text x).bytes (text y).bytes ≤ 0

theorem lessEq_refl (text : α -> CString) (x : α) : lessEq text x x := by
  exact Int.le_of_eq (strcmp_self _)

theorem lessEq_trans (text : α -> CString) (x y z : α)
    (hxy : lessEq text x y) (hyz : lessEq text y z) : lessEq text x z :=
  strcmp_trans (text x).nulFree (text y).nulFree hxy hyz

theorem lessEq_of_not_less {text : α -> CString} {x y : α}
    (h : ¬ strcmp (text y).bytes (text x).bytes < 0) : lessEq text x y := by
  unfold lessEq
  rw [strcmp_swap (text y).bytes]
  lia

structure Placed (text : α -> CString) (left right : Int) (p : α)
    (v : List α) (last : Int) : Prop where
  left_le : left ≤ last
  le_right : last ≤ right
  pivot : load v last = some p
  below : Throughout (fun x => lessEq text x p) left (last - 1) v
  above : Throughout (fun x => lessEq text p x) (last + 1) right v

theorem Partitioned.place {text : α -> CString} {left right last : Int}
    {p y : α} {v v' : List α}
    (h : Partitioned text left right p v (right + 1) last)
    (hy : load v last = some y)
    (hload : forall k, load v' k =
      if k = last then some p else if k = left then some y else load v k) :
    Placed text left right p v' last := by
  have hlt := h.lt_i
  constructor
  · exact h.left_le
  · lia
  · rw [hload, if_pos rfl]
  · intro k x hlo hhi hk
    rw [hload, if_neg (by lia)] at hk
    by_cases heq : k = left
    · rw [if_pos heq] at hk
      cases hk
      exact Int.le_of_lt (h.below last y (by lia) (Int.le_refl _) hy)
    · rw [if_neg heq] at hk
      exact Int.le_of_lt (h.below k x (by lia) (by lia) hk)
  · intro k x hlo hhi hk
    have hle := h.left_le
    rw [hload, if_neg (by lia), if_neg (by lia)] at hk
    exact lessEq_of_not_less (h.above k x hlo (by lia) hk)

theorem split_ok (text : α -> CString) {left right : Int} {fuel : Nat}
    {v : List α} (hleft : 0 ≤ left) (hlt : left < right)
    (hright : right < v.length) (hfuel : (right - left).toNat < fuel) :
    exists v₁ v₂ v₃ last p,
      swap v left (Int.tdiv (left + right) 2) = Except.ok v₁ ∧
        partition text left right fuel v₁ (left + 1) left =
          Except.ok (v₂, last) ∧
        swap v₂ left last = Except.ok v₃ ∧ Rearranged left right v v₃ ∧
        Placed text left right p v₃ last := by
  have hmid : Int.tdiv (left + right) 2 = (left + right) / 2 :=
    Int.tdiv_eq_ediv_of_nonneg (by lia)
  rw [hmid]
  rcases load_inside (v := v) (i := left) hleft (by lia) with ⟨x, hx⟩
  rcases load_inside (v := v) (i := (left + right) / 2) (by lia) (by lia) with
    ⟨p, hp⟩
  rcases swap_ok hleft hright (by lia) (by lia)
      (by lia) (by lia) hx hp with ⟨v₁, hswap₁, hre₁, hload₁⟩
  have hpivot : load v₁ left = some p := by
    rw [hload₁]
    split
    · next heq =>
        rw [← heq, hx] at hp
        exact hp
    · rw [if_pos rfl]
  have hfuel' : (right + 1 - (left + 1)).toNat < fuel := by lia
  have hlen₁ : right < v₁.length := by
    rw [hre₁.length_eq]
    exact hright
  rcases partition_ok hleft hlen₁ (Partitioned.start text hpivot hlt)
      hfuel' with ⟨v₂, last, hrun, hre₂, hpart⟩
  have hlen₂ : right < v₂.length := by
    rw [hre₂.length_eq]
    exact hlen₁
  have hle := hpart.left_le
  have hlast := hpart.lt_i
  rcases load_inside (v := v₂) (i := last) (by lia) (by lia) with ⟨y, hy⟩
  rcases swap_ok hleft hlen₂ (by lia) (by lia)
      hle (by lia) hpart.pivot hy with ⟨v₃, hswap₃, hre₃, hload₃⟩
  exact ⟨v₁, v₂, v₃, last, p, hswap₁, hrun, hswap₃,
    (hre₁.trans hre₂).trans hre₃, hpart.place hy hload₃⟩

theorem Qsort_ok {text : α -> CString} {fuel : Nat} {v : List α}
    {left right : Int} (hleft : 0 ≤ left) (hright : right < v.length)
    (hfuel : (right - left).toNat < fuel) :
    exists v', Qsort text fuel v left right = Except.ok v' ∧
      Rearranged left right v v' ∧
      Nondecreasing (lessEq text) left right v' := by
  induction fuel generalizing v left right with
  | zero => lia
  | succ fuel ih =>
      rw [Qsort]
      by_cases hge : left ≥ right
      · rw [if_pos hge]
        exact ⟨v, rfl, Rearranged.refl left right v,
          nondecreasing_of_le (lessEq_refl text) v hge⟩
      · rw [if_neg hge]
        have hlt : left < right := Int.not_le.mp hge
        rcases split_ok text hleft hlt hright hfuel with
          ⟨v₁, v₂, v₃, last, p, hswap₁, hrun, hswap₃, hre, hplaced⟩
        have hlo := hplaced.left_le
        have hhi := hplaced.le_right
        have hlen₃ : last - 1 < v₃.length := by
          rw [hre.length_eq]
          lia
        have hwidth₃ : (last - 1 - left).toNat < fuel := by lia
        rcases ih hleft hlen₃ hwidth₃ with ⟨v₄, hrun₄, hre₄, hsorted₄⟩
        have hlen₄ : right < v₄.length := by
          rw [hre₄.length_eq, hre.length_eq]
          exact hright
        have hwidth₄ : (right - (last + 1)).toNat < fuel := by lia
        rcases ih (by lia) hlen₄ hwidth₄ with ⟨v₅, hrun₅, hre₅, hsorted₅⟩
        refine ⟨v₅, ?_, ?_, ?_⟩
        · rw [hswap₁]
          simp only [Except.bind, bind, hrun, hswap₃, hrun₄]
          exact hrun₅
        · exact (hre.trans (hre₄.widen (by lia) (by lia))).trans
            (hre₅.widen (by lia) (by lia))
        · have hpivot : load v₅ last = some p := by
            rw [hre₅.outside last (by lia), hre₄.outside last (by lia)]
            exact hplaced.pivot
          have hbelow := (hplaced.below.rearranged hleft hre₄).of_outside hre₅
            (by lia)
          have habove := (hplaced.above.of_outside hre₄ (by lia)).rearranged
            (by lia) hre₅
          exact Nondecreasing.join (lessEq_refl text) (lessEq_trans text)
            hpivot (hsorted₄.of_outside hre₅ (by lia)) hsorted₅ hbelow habove

/--
`Qsort` ends with enough fuel for the width of its range.  It leaves every
position outside the range as it was, permutes the pointers inside, and puts
them into nondecreasing order of their strings.
-/
theorem Qsort_sorts (text : α -> CString) (v : List α) (left right : Int)
    (fuel : Nat) (hleft : 0 ≤ left) (hright : right < v.length)
    (hfuel : (right - left).toNat < fuel) :
    exists v', Qsort text fuel v left right = Except.ok v' ∧
      v'.length = v.length ∧
      (forall k, k < left ∨ right < k -> load v' k = load v k) ∧
      (slice v' left right).Perm (slice v left right) ∧
      forall i j x y, left ≤ i -> i ≤ j -> j ≤ right ->
        load v' i = some x -> load v' j = some y ->
        strcmp (text x).bytes (text y).bytes ≤ 0 := by
  rcases Qsort_ok hleft hright hfuel with ⟨v', hrun, hre, hsorted⟩
  exact ⟨v', hrun, hre.length_eq, hre.outside, hre.slice_perm, hsorted⟩

def twoNames : Nat -> CString
  | 0 => CString.ofBytes [98] rfl
  | _ => CString.ofBytes [97, 98] rfl

theorem Qsort_sorts_three :
    exists v', Qsort twoNames 3 [0, 1, 0] 0 2 = Except.ok v' ∧
      v'.length = 3 ∧
      (forall k, k < 0 ∨ 2 < k -> load v' k = load [0, 1, 0] k) ∧
      (slice v' 0 2).Perm (slice [0, 1, 0] 0 2) ∧
      forall i j x y, 0 ≤ i -> i ≤ j -> j ≤ 2 ->
        load v' i = some x -> load v' j = some y ->
        strcmp (twoNames x).bytes (twoNames y).bytes ≤ 0 :=
  Qsort_sorts twoNames [0, 1, 0] 0 2 3 (by decide) (by decide) (by decide)

end Overview
end Apue
