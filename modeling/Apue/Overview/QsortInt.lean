import Apue.Foundation.CInt
import Apue.Overview.Qsort

/-!
# Qsort with indices of type int

The same function, where every expression of type `int` has to be representable
and every index has to lie in the range of the call.
-/

namespace Apue
namespace QsortInt

open Foundation

variable {α : Type}

/-- A value that is not an `int`, an index outside of the range of the call, or what
goes wrong whatever the type of the indices. -/
inductive Fault where
  | overflow (value : Int)
  | outside (i left right : Int)
  | other (fault : Overview.Fault)
  deriving Repr, DecidableEq

def lift {β : Type} (r : Except Overview.Fault β) : Except Fault β :=
  r.mapError Fault.other

def index (left right i : Int) : Except Fault Int :=
  if left ≤ i ∧ i ≤ right then
    Except.ok i
  else
    Except.error (Fault.outside i left right)

def fetch (left right : Int) (v : List α) (i : Int) : Except Fault α := do
  let i <- index left right i
  lift (Overview.fetch v i)

def swap (left right : Int) (v : List α) (i j : Int) : Except Fault (List α) := do
  let i <- index left right i
  let j <- index left right j
  lift (Overview.swap v i j)

/-- The `for` loop of `Qsort`, from the current `i` and `last`. -/
def partition (text : α -> CString) (left right : Int) :
    Nat -> List α -> Int -> Int -> Except Fault (List α × Int)
  | 0, _, _, _ => Except.error (Fault.other Overview.Fault.outOfFuel)
  | fuel + 1, v, i, last =>
      if i ≤ right then do
        let x <- fetch left right v i
        let pivot <- fetch left right v left
        if strcmp (text x).bytes (text pivot).bytes < 0 then do
          let last <- int Fault.overflow (last + 1)
          let v <- swap left right v i last
          let i <- int Fault.overflow (i + 1)
          partition text left right fuel v i last
        else do
          let i <- int Fault.overflow (i + 1)
          partition text left right fuel v i last
      else
        Except.ok (v, last)

def Qsort (text : α -> CString) :
    Nat -> List α -> Int -> Int -> Except Fault (List α)
  | 0, _, _, _ => Except.error (Fault.other Overview.Fault.outOfFuel)
  | fuel + 1, v, left, right =>
      if left ≥ right then
        Except.ok v
      else do
        let sum <- int Fault.overflow (left + right)
        let middle <- int Fault.overflow (Int.tdiv sum 2)
        let v <- swap left right v left middle
        let i <- int Fault.overflow (left + 1)
        let (v, last) <- partition text left right (fuel + 1) v i left
        let v <- swap left right v left last
        let before <- int Fault.overflow (last - 1)
        let v <- Qsort text fuel v left before
        let after <- int Fault.overflow (last + 1)
        Qsort text fuel v after right

/-- Every value is an `int` and every index lies in the range of its call. -/
def Contained (r : Except Fault (List α)) : Prop :=
  exists v, r = Except.ok v

/-!
# The calls that are made
-/

def split (text : α -> CString) (fuel : Nat) (v : List α) (left right : Int) :
    Except Overview.Fault (List α × Int) := do
  let v <- Overview.swap v left (Int.tdiv (left + right) 2)
  let (v, last) <- Overview.partition text left right fuel v (left + 1) left
  let v <- Overview.swap v left last
  return (v, last)

/-- The ranges of a call and of those below it, over indices without bounds. -/
def ranges (text : α -> CString) :
    Nat -> List α -> Int -> Int -> List (Int × Int)
  | 0, _, _, _ => []
  | fuel + 1, v, left, right =>
      if left ≥ right then
        [(left, right)]
      else
        (left, right) ::
          match split text (fuel + 1) v left right with
          | Except.error _ => []
          | Except.ok (v, last) =>
              ranges text fuel v left (last - 1) ++
                match Overview.Qsort text fuel v left (last - 1) with
                | Except.error _ => []
                | Except.ok v => ranges text fuel v (last + 1) right

def Summable (range : Int × Int) : Prop :=
  range.1 < range.2 -> range.1 + range.2 ≤ INT_MAX

/-!
# The steps of a call
-/

theorem index_ok {left right i : Int} (hlo : left ≤ i) (hhi : i ≤ right) :
    index left right i = Except.ok i :=
  if_pos ⟨hlo, hhi⟩

theorem fetch_agrees {left right i : Int} {v : List α} {x : α} (hlo : left ≤ i)
    (hhi : i ≤ right) (h : Overview.fetch v i = Except.ok x) :
    fetch left right v i = Except.ok x := by
  unfold fetch
  rw [index_ok hlo hhi]
  show lift (Overview.fetch v i) = _
  rw [h]
  rfl

theorem swap_agrees {left right i j : Int} {v v' : List α} (hloi : left ≤ i)
    (hhii : i ≤ right) (hloj : left ≤ j) (hhij : j ≤ right)
    (h : Overview.swap v i j = Except.ok v') :
    swap left right v i j = Except.ok v' := by
  unfold swap
  rw [index_ok hloi hhii, index_ok hloj hhij]
  show lift (Overview.swap v i j) = _
  rw [h]
  rfl

/-- Between `last` and `i` the loop stays in the range of the call, and `i` stops
at most one behind it. -/
theorem partition_agrees {text : α -> CString} {left right : Int} {fuel : Nat}
    {v : List α} {i last : Int} {r : List α × Int} (hleft : 0 ≤ left)
    (hright : right < INT_MAX) (hle : left ≤ last) (hlt : last < i)
    (h : Overview.partition text left right fuel v i last = Except.ok r) :
    partition text left right fuel v i last = Except.ok r := by
  induction fuel generalizing v i last with
  | zero => cases h
  | succ fuel ih =>
      unfold Overview.partition at h
      unfold partition
      by_cases hi : i ≤ right
      · rw [if_pos hi] at h ⊢
        rcases bind_eq_ok h with ⟨x, hx, h⟩
        rcases bind_eq_ok h with ⟨pivot, hpivot, h⟩
        have hnext : int Fault.overflow (i + 1) = Except.ok (i + 1) :=
          int_ok _ (IsInt.of_bounds (by lia) (by lia))
        rw [fetch_agrees (by lia) hi hx, fetch_agrees (Int.le_refl left) (by lia) hpivot]
        simp only [Except.bind, bind, hnext]
        by_cases hless : strcmp (text x).bytes (text pivot).bytes < 0
        · rw [if_pos hless] at h ⊢
          rcases bind_eq_ok h with ⟨w, hswap, h⟩
          have hlast : int Fault.overflow (last + 1) = Except.ok (last + 1) :=
            int_ok _ (IsInt.of_bounds (by lia) (by lia))
          rw [hlast]
          dsimp only
          rw [swap_agrees (by lia) hi (by lia) (by lia) hswap]
          exact ih (by lia) (by lia) h
        · rw [if_neg hless] at h ⊢
          exact ih hle (by lia) h
      · rw [if_neg hi] at h ⊢
        cases h
        rfl

theorem middle_mem {left right : Int} (hleft : 0 ≤ left) (hlt : left < right) :
    left ≤ Int.tdiv (left + right) 2 ∧ Int.tdiv (left + right) 2 ≤ right := by
  rw [Int.tdiv_eq_ediv_of_nonneg (by lia)]
  constructor
  · lia
  · lia

theorem Qsort_overflow (text : α -> CString) {left right : Int} (fuel : Nat)
    (v : List α) (hlt : left < right) (hsum : INT_MAX < left + right) :
    Qsort text (fuel + 1) v left right =
      Except.error (Fault.overflow (left + right)) := by
  rw [Qsort, if_neg (Int.not_le.mpr hlt), int_overflow _ hsum]
  rfl

/-- One call with something to sort.  The sum of the ends is the only value that may
be too large. -/
theorem Qsort_level (text : α -> CString) {left right : Int} {fuel : Nat}
    {v : List α} (hleft : 0 ≤ left) (hlt : left < right) (hright : right < v.length)
    (hlen : v.length ≤ INT_MAX) (hfuel : (right - left).toNat < fuel + 1) :
    exists v' last, split text (fuel + 1) v left right = Except.ok (v', last) ∧
      v'.length = v.length ∧ left ≤ last ∧ last ≤ right ∧
      (Overview.Qsort text (fuel + 1) v left right = do
        let w <- Overview.Qsort text fuel v' left (last - 1)
        Overview.Qsort text fuel w (last + 1) right) ∧
      Qsort text (fuel + 1) v left right =
        if left + right ≤ INT_MAX then do
          let w <- Qsort text fuel v' left (last - 1)
          Qsort text fuel w (last + 1) right
        else
          Except.error (Fault.overflow (left + right)) := by
  rcases Overview.split_ok text hleft hlt hright hfuel with
    ⟨v₁, v₂, v₃, last, p, hswap₁, hrun, hswap₃, hre, hplaced⟩
  have hlo := hplaced.left_le
  have hhi := hplaced.le_right
  have hnot : ¬ left ≥ right := Int.not_le.mpr hlt
  refine ⟨v₃, last, ?_, hre.length_eq, hlo, hhi, ?_, ?_⟩
  · unfold split
    rw [hswap₁]
    simp only [Except.bind, bind, hrun, hswap₃]
    rfl
  · rw [Overview.Qsort, if_neg hnot, hswap₁]
    simp only [Except.bind, bind, hrun, hswap₃]
  · by_cases hsum : left + right ≤ INT_MAX
    · rcases middle_mem hleft hlt with ⟨hlomid, hmidhi⟩
      have hswap₁' := swap_agrees (Int.le_refl left) (Int.le_of_lt hlt) hlomid hmidhi
        hswap₁
      have hrun' := partition_agrees hleft (by lia) (Int.le_refl left)
        (Int.lt_succ left) hrun
      have hswap₃' := swap_agrees (Int.le_refl left) (Int.le_of_lt hlt) hlo hhi hswap₃
      rw [Qsort, if_neg hnot, if_pos hsum, int_ok _ (IsInt.of_bounds (by lia) hsum)]
      simp only [Except.bind, bind]
      rw [int_ok _ (IsInt.half (by lia) hsum)]
      dsimp only
      rw [hswap₁', int_ok _ (IsInt.of_bounds (by lia) (by lia))]
      dsimp only
      rw [hrun']
      dsimp only
      rw [hswap₃', int_ok _ (IsInt.of_bounds (by lia) (by lia)),
        int_ok _ (IsInt.of_bounds (by lia) (by lia))]
    · rw [if_neg hsum]
      exact Qsort_overflow text fuel v hlt (Int.not_le.mp hsum)

theorem ranges_level {text : α -> CString} {left right last : Int} {fuel : Nat}
    {v v' w : List α} (hlt : left < right)
    (hsplit : split text (fuel + 1) v left right = Except.ok (v', last))
    (hbefore : Overview.Qsort text fuel v' left (last - 1) = Except.ok w) :
    ranges text (fuel + 1) v left right =
      (left, right) :: (ranges text fuel v' left (last - 1) ++
        ranges text fuel w (last + 1) right) := by
  rw [ranges, if_neg (Int.not_le.mpr hlt), hsplit]
  dsimp only
  rw [hbefore]

/-!
# Whole calls
-/

/-- A call sorts as it does with unbounded indices, or meets a sum that is too
large. -/
theorem Qsort_outcome {text : α -> CString} {fuel : Nat} {v : List α}
    {left right : Int} (hleft : 0 ≤ left) (hright : right < v.length)
    (hlen : v.length ≤ INT_MAX) (hfuel : (right - left).toNat < fuel) :
    exists v', Overview.Qsort text fuel v left right = Except.ok v' ∧
      v'.length = v.length ∧
      (((forall range, range ∈ ranges text fuel v left right -> Summable range) ∧
          Qsort text fuel v left right = Except.ok v') ∨
        ((exists range, range ∈ ranges text fuel v left right ∧ ¬ Summable range) ∧
          exists sum, Qsort text fuel v left right =
            Except.error (Fault.overflow sum))) := by
  induction fuel generalizing v left right with
  | zero => lia
  | succ fuel ih =>
      by_cases hge : left ≥ right
      · refine ⟨v, ?_, rfl, Or.inl ⟨?_, ?_⟩⟩
        · rw [Overview.Qsort, if_pos hge]
        · intro range hrange hlt
          rw [ranges, if_pos hge] at hrange
          rw [List.mem_singleton.mp hrange] at hlt
          exact absurd hge (Int.not_le.mpr hlt)
        · rw [Qsort, if_pos hge]
      · have hlt : left < right := Int.not_le.mp hge
        rcases Qsort_level text hleft hlt hright hlen hfuel with
          ⟨v', last, hsplit, hlen', hlo, hhi, hunbounded, hrun⟩
        rcases @ih v' left (last - 1) hleft (by lia) (by lia) (by lia) with
          ⟨w, hbefore, hlenw, hcasesw⟩
        rcases @ih w (last + 1) right (by lia) (by lia) (by lia) (by lia) with
          ⟨u, hafter, hlenu, hcasesu⟩
        have hranges := ranges_level hlt hsplit hbefore
        rw [hbefore] at hunbounded
        refine ⟨u, hunbounded.trans hafter, by lia, ?_⟩
        rw [hranges]
        by_cases hsum : left + right ≤ INT_MAX
        · rw [if_pos hsum] at hrun
          rcases hcasesw with ⟨hfitw, hrunw⟩ | ⟨⟨range, hmem, hbad⟩, sum, hrunw⟩
          · rw [hrunw] at hrun
            rcases hcasesu with ⟨hfitu, hrunu⟩ | ⟨⟨range, hmem, hbad⟩, sum, hrunu⟩
            · left
              refine ⟨?_, hrun.trans hrunu⟩
              intro range hrange
              rcases List.mem_cons.mp hrange with heq | hrange
              · rw [heq]
                exact fun _ => hsum
              · rcases List.mem_append.mp hrange with hmem | hmem
                · exact hfitw range hmem
                · exact hfitu range hmem
            · right
              refine ⟨⟨range, ?_, hbad⟩, sum, hrun.trans hrunu⟩
              exact List.mem_cons_of_mem _ (List.mem_append_right _ hmem)
          · right
            rw [hrunw] at hrun
            refine ⟨⟨range, ?_, hbad⟩, sum, hrun⟩
            exact List.mem_cons_of_mem _ (List.mem_append_left _ hmem)
        · right
          rw [if_neg hsum] at hrun
          exact ⟨⟨(left, right), List.mem_cons_self, fun h => hsum (h hlt)⟩, _, hrun⟩

theorem contained_iff {text : α -> CString} {fuel : Nat} {v : List α}
    {left right : Int} (hleft : 0 ≤ left) (hright : right < v.length)
    (hlen : v.length ≤ INT_MAX) (hfuel : (right - left).toNat < fuel) :
    Contained (Qsort text fuel v left right) ↔
      forall range, range ∈ ranges text fuel v left right -> Summable range := by
  rcases @Qsort_outcome α text fuel v left right hleft hright hlen hfuel with
    ⟨v', _, _, ⟨hfit, hrun⟩ | ⟨⟨range, hmem, hbad⟩, sum, hrun⟩⟩
  · exact iff_of_true ⟨v', hrun⟩ hfit
  · apply iff_of_false
    · intro h
      rcases h with ⟨u, hu⟩
      rw [hrun] at hu
      cases hu
    · intro h
      exact hbad (h range hmem)

theorem Qsort_agrees {text : α -> CString} {fuel : Nat} {v w : List α}
    {left right : Int} (hleft : 0 ≤ left) (hright : right < v.length)
    (hlen : v.length ≤ INT_MAX) (hfuel : (right - left).toNat < fuel)
    (h : Qsort text fuel v left right = Except.ok w) :
    Overview.Qsort text fuel v left right = Except.ok w := by
  rcases @Qsort_outcome α text fuel v left right hleft hright hlen hfuel with
    ⟨v', hrun', _, ⟨_, hrun⟩ | ⟨_, sum, hrun⟩⟩
  · rw [hrun] at h
    cases h
    exact hrun'
  · rw [hrun] at h
    cases h

/-!
# All arrays
-/

theorem ranges_le {text : α -> CString} {fuel : Nat} {v : List α}
    {left right : Int} (hleft : 0 ≤ left) (hright : right < v.length)
    (hlen : v.length ≤ INT_MAX) (hfuel : (right - left).toNat < fuel)
    {range : Int × Int} (h : range ∈ ranges text fuel v left right) :
    range.2 ≤ right := by
  induction fuel generalizing v left right with
  | zero => lia
  | succ fuel ih =>
      by_cases hge : left ≥ right
      · rw [ranges, if_pos hge] at h
        exact Int.le_of_eq (congrArg Prod.snd (List.mem_singleton.mp h))
      · have hlt : left < right := Int.not_le.mp hge
        rcases Qsort_level text hleft hlt hright hlen hfuel with
          ⟨v', last, hsplit, hlen', hlo, hhi, _, _⟩
        rcases @Qsort_outcome α text fuel v' left (last - 1) hleft (by lia) (by lia)
            (by lia) with ⟨w, hbefore, hlenw, _⟩
        rw [ranges_level hlt hsplit hbefore] at h
        rcases List.mem_cons.mp h with heq | h
        · exact Int.le_of_eq (congrArg Prod.snd heq)
        · rcases List.mem_append.mp h with h | h
          · have hle := @ih v' left (last - 1) hleft (by lia) (by lia) (by lia) h
            lia
          · exact @ih w (last + 1) right (by lia) (by lia) (by lia) (by lia) h

theorem load_replicate {n : Nat} {i : Int} (x : α) (hlo : 0 ≤ i) (hhi : i < n) :
    load (List.replicate n x) i = some x := by
  unfold load
  rw [if_pos hlo, List.getElem?_replicate, if_pos (by lia)]

theorem swap_replicate {n : Nat} {i j : Int} (x : α) (hloi : 0 ≤ i) (hhii : i < n)
    (hloj : 0 ≤ j) (hhij : j < n) :
    Overview.swap (List.replicate n x) i j = Except.ok (List.replicate n x) := by
  have hstore : forall k : Int, 0 ≤ k -> k < n ->
      Overview.assign (List.replicate n x) k x = Except.ok (List.replicate n x) := by
    intro k hlo hhi
    unfold Overview.assign
    rw [store_inside x hlo (by rw [List.length_replicate]; exact hhi),
      List.set_replicate_self]
  unfold Overview.swap
  rw [Overview.fetch_ok (load_replicate x hloi hhii),
    Overview.fetch_ok (load_replicate x hloj hhij)]
  simp only [Except.bind, bind]
  rw [hstore i hloi hhii]
  exact hstore j hloj hhij

theorem partition_replicate (text : α -> CString) (x : α) {n fuel : Nat}
    {left right i last : Int} (hleft : 0 ≤ left) (hlt : left < i) (hright : right < n)
    (hfuel : (right + 1 - i).toNat < fuel) :
    Overview.partition text left right fuel (List.replicate n x) i last =
      Except.ok (List.replicate n x, last) := by
  induction fuel generalizing i with
  | zero => lia
  | succ fuel ih =>
      unfold Overview.partition
      by_cases hi : i ≤ right
      · have hnot : ¬ strcmp (text x).bytes (text x).bytes < 0 := by
          rw [strcmp_self]
          exact Int.lt_irrefl 0
        rw [if_pos hi, Overview.fetch_ok (load_replicate x (by lia) (by lia)),
          Overview.fetch_ok (load_replicate x hleft (by lia))]
        simp only [Except.bind, bind]
        rw [if_neg hnot]
        exact ih (by lia) (by lia)
      · rw [if_neg hi]

theorem split_replicate (text : α -> CString) (x : α) {n fuel : Nat}
    {left right : Int} (hleft : 0 ≤ left) (hlt : left < right) (hright : right < n)
    (hfuel : (right - left).toNat < fuel) :
    split text fuel (List.replicate n x) left right =
      Except.ok (List.replicate n x, left) := by
  rcases middle_mem hleft hlt with ⟨hlomid, hmidhi⟩
  unfold split
  rw [swap_replicate x hleft (by lia) (by lia) (by lia)]
  simp only [Except.bind, bind]
  rw [partition_replicate text x hleft (Int.lt_succ left) hright (by lia)]
  dsimp only
  rw [swap_replicate x hleft (by lia) hleft (by lia)]
  rfl

theorem last_two_mem_ranges (text : α -> CString) (x : α) {n fuel : Nat}
    {left right : Int} (hleft : 0 ≤ left) (hlt : left < right) (hright : right < n)
    (hfuel : (right - left).toNat < fuel) :
    (right - 1, right) ∈ ranges text fuel (List.replicate n x) left right := by
  induction fuel generalizing left with
  | zero => lia
  | succ fuel ih =>
      have hsplit := split_replicate text x hleft hlt hright hfuel
      have hbefore : Overview.Qsort text fuel (List.replicate n x) left (left - 1) =
          Except.ok (List.replicate n x) := by
        cases fuel with
        | zero => lia
        | succ fuel => rw [Overview.Qsort, if_pos (by lia)]
      rw [ranges_level hlt hsplit hbefore]
      by_cases hlast : left = right - 1
      · rw [hlast]
        exact List.mem_cons_self
      · apply List.mem_cons_of_mem
        apply List.mem_append_right
        exact ih (by lia) (by lia) (by lia)

/-- A call is contained when the sum of the ends is an `int` in every call that it
makes, and only then; it is so for all arrays of a length when the right end is at
most 2 ^ 30 or there is nothing to sort, and only then. -/
theorem Qsort_contained_iff (text : α -> CString) (x : α) {n fuel : Nat}
    {left right : Int} (hn : n ≤ INT_MAX) (hleft : 0 ≤ left)
    (hright : right ≤ n - 1) (hfuel : (right - left).toNat < fuel) :
    (forall v : List α, v.length = n ->
      (Contained (Qsort text fuel v left right) ↔
        forall range, range ∈ ranges text fuel v left right -> Summable range)) ∧
      ((forall v : List α, v.length = n -> Contained (Qsort text fuel v left right)) ↔
        right ≤ left ∨ right ≤ 1073741824) := by
  have hiff : forall v : List α, v.length = n ->
      (Contained (Qsort text fuel v left right) ↔
        forall range, range ∈ ranges text fuel v left right -> Summable range) := by
    intro v hv
    exact contained_iff hleft (by lia) (by lia) hfuel
  refine ⟨hiff, ?_, ?_⟩
  · intro hall
    have hsums := (hiff _ List.length_replicate).mp
      (hall (List.replicate n x) List.length_replicate)
    rcases Int.lt_or_le left right with hlt | hge
    · right
      have hless : right - 1 < right := by lia
      have hsum := hsums _ (last_two_mem_ranges text x hleft hlt (by lia) hfuel) hless
      change right - 1 + right ≤ 2147483647 at hsum
      lia
    · exact Or.inl hge
  · intro h v hv
    rcases h with hge | hsmall
    · cases fuel with
      | zero => lia
      | succ fuel =>
          refine ⟨v, ?_⟩
          rw [Qsort, if_pos hge]
    · apply (hiff v hv).mpr
      intro range hrange hlt
      have hle := ranges_le hleft (by lia) (by lia) hfuel hrange
      show range.1 + range.2 ≤ 2147483647
      lia

theorem Qsort_contained_three :
    (forall v : List Nat, v.length = 3 ->
      (Contained (Qsort Overview.twoNames 3 v 0 2) ↔
        forall range, range ∈ ranges Overview.twoNames 3 v 0 2 -> Summable range)) ∧
      ((forall v : List Nat, v.length = 3 ->
          Contained (Qsort Overview.twoNames 3 v 0 2)) ↔
        (2 : Int) ≤ 0 ∨ (2 : Int) ≤ 1073741824) :=
  Qsort_contained_iff Overview.twoNames 0 (by decide) (by decide) (by decide) (by decide)

/-- The last two of 2 ^ 30 + 2 strings. -/
theorem sum_of_ends_overflows :
    ((List.replicate 1073741826 0).length : Int) ≤ INT_MAX ∧
      (1073741825 : Int) ≤ (List.replicate 1073741826 0).length - 1 ∧
      ¬ Contained (Qsort Overview.twoNames 2 (List.replicate 1073741826 0) 1073741824
        1073741825) := by
  rw [List.length_replicate]
  refine ⟨by decide, by decide, ?_⟩
  intro h
  rcases h with ⟨v, hv⟩
  rw [Qsort_overflow Overview.twoNames 1 _ (by decide) (by decide)] at hv
  cases hv

end QsortInt
end Apue
