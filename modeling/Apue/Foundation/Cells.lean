/-!
# Arrays with integer indices

A C array as the list of its cells.  An index is an integer; reading or writing
outside the array fails.
-/

namespace Apue
namespace Foundation

universe u

variable {α : Type u}

def load (v : List α) (i : Int) : Option α :=
  if 0 ≤ i then v[i.toNat]? else none

def store (v : List α) (i : Int) (x : α) : Option (List α) :=
  if 0 ≤ i ∧ i.toNat < v.length then some (v.set i.toNat x) else none

def slice (v : List α) (lo hi : Int) : List α :=
  (v.drop lo.toNat).take ((hi + 1).toNat - lo.toNat)

theorem load_ofNat (v : List α) (n : Nat) : load v (n : Int) = v[n]? := by
  unfold load
  rw [if_pos (Int.natCast_nonneg n)]
  rfl

theorem load_inside {v : List α} {i : Int} (hlo : 0 ≤ i) (hhi : i < v.length) :
    exists x, load v i = some x := by
  have hlt : i.toNat < v.length := by lia
  unfold load
  rw [if_pos hlo]
  exact ⟨v[i.toNat], List.getElem?_eq_getElem hlt⟩

theorem store_inside {v : List α} {i : Int} (x : α) (hlo : 0 ≤ i)
    (hhi : i < v.length) : store v i x = some (v.set i.toNat x) := by
  unfold store
  rw [if_pos ⟨hlo, by lia⟩]

theorem load_set {v : List α} {i : Int} (x : α) (hlo : 0 ≤ i)
    (hhi : i < v.length) (k : Int) :
    load (v.set i.toNat x) k = if k = i then some x else load v k := by
  unfold load
  by_cases hk : 0 ≤ k
  · rw [if_pos hk, if_pos hk, List.getElem?_set]
    by_cases heq : k = i
    · rw [if_pos heq, if_pos (by rw [heq]), if_pos (by lia)]
    · rw [if_neg heq, if_neg (by lia)]
  · rw [if_neg hk, if_neg hk, if_neg (by lia)]

theorem mem_slice {v : List α} {lo hi : Int} {x : α} (hlo : 0 ≤ lo) :
    x ∈ slice v lo hi ↔ exists k, lo ≤ k ∧ k ≤ hi ∧ load v k = some x := by
  unfold slice
  rw [List.mem_iff_getElem?]
  constructor
  · intro h
    rcases h with ⟨n, hn⟩
    rw [List.getElem?_take] at hn
    split at hn
    · next hlt =>
        rw [List.getElem?_drop] at hn
        refine ⟨lo + n, by lia, by lia, ?_⟩
        have hcast : lo + (n : Int) = ((lo.toNat + n : Nat) : Int) := by lia
        rw [hcast, load_ofNat]
        exact hn
    · cases hn
  · intro h
    rcases h with ⟨k, hlok, hkhi, hk⟩
    refine ⟨k.toNat - lo.toNat, ?_⟩
    rw [List.getElem?_take, if_pos (by lia), List.getElem?_drop]
    have hcast : k = ((lo.toNat + (k.toNat - lo.toNat) : Nat) : Int) := by lia
    rw [hcast, load_ofNat] at hk
    exact hk

/-!
# Rearranging a range
-/

/-- The cells of `v'` are those of `v` in another order, and only positions from
`lo` to `hi` are involved. -/
structure Rearranged (lo hi : Int) (v v' : List α) : Prop where
  perm : v'.Perm v
  outside : forall k, k < lo ∨ hi < k -> load v' k = load v k

namespace Rearranged

theorem refl (lo hi : Int) (v : List α) : Rearranged lo hi v v :=
  ⟨List.Perm.refl v, fun _ _ => rfl⟩

theorem trans {lo hi : Int} {a b c : List α} (hab : Rearranged lo hi a b)
    (hbc : Rearranged lo hi b c) : Rearranged lo hi a c :=
  ⟨hbc.perm.trans hab.perm,
    fun k hk => (hbc.outside k hk).trans (hab.outside k hk)⟩

theorem widen {lo hi lo' hi' : Int} {v v' : List α}
    (h : Rearranged lo hi v v') (hlo : lo' ≤ lo) (hhi : hi ≤ hi') :
    Rearranged lo' hi' v v' := by
  refine ⟨h.perm, ?_⟩
  intro k hk
  apply h.outside
  lia

theorem length_eq {lo hi : Int} {v v' : List α} (h : Rearranged lo hi v v') :
    v'.length = v.length :=
  h.perm.length_eq

theorem slice_perm {lo hi : Int} {v v' : List α} (h : Rearranged lo hi v v') :
    (slice v' lo hi).Perm (slice v lo hi) := by
  unfold slice
  apply List.Perm.take_of_getElem?
  · apply List.Perm.drop_of_getElem? h.perm
    intro j hj
    have hout := h.outside j (by lia)
    rw [load_ofNat, load_ofNat] at hout
    exact hout
  · intro j hj
    rw [List.getElem?_drop, List.getElem?_drop]
    have hout := h.outside (lo.toNat + j : Nat) (by lia)
    rw [load_ofNat, load_ofNat] at hout
    exact hout

theorem load_before {lo hi : Int} {v v' : List α} (h : Rearranged lo hi v v')
    (hlo : 0 ≤ lo) {k : Int} {x : α} (hlok : lo ≤ k) (hkhi : k ≤ hi)
    (hk : load v' k = some x) :
    exists j, lo ≤ j ∧ j ≤ hi ∧ load v j = some x := by
  have hmem : x ∈ slice v' lo hi := (mem_slice hlo).mpr ⟨k, hlok, hkhi, hk⟩
  exact (mem_slice hlo).mp ((h.slice_perm.mem_iff).mp hmem)

end Rearranged

theorem exchange {v : List α} {i j : Int} {x y : α} (hi : 0 ≤ i)
    (hilen : i < v.length) (hj : 0 ≤ j) (hjlen : j < v.length)
    (hx : load v i = some x) (hy : load v j = some y) :
    exists w v', store v i y = some w ∧ store w j x = some v' ∧
      v'.Perm v ∧
      forall k, load v' k =
        if k = j then some x else if k = i then some y else load v k := by
  have hwlen : j < (v.set i.toNat y).length := by
    rw [List.length_set]
    exact hjlen
  refine ⟨v.set i.toNat y, (v.set i.toNat y).set j.toNat x,
    store_inside y hi hilen, store_inside x hj hwlen, ?_, ?_⟩
  · have hiNat : i.toNat < v.length := by lia
    have hjNat : j.toNat < v.length := by lia
    unfold load at hx hy
    rw [if_pos hi, List.getElem?_eq_getElem hiNat] at hx
    rw [if_pos hj, List.getElem?_eq_getElem hjNat] at hy
    cases hx
    cases hy
    exact List.set_set_perm hiNat hjNat
  · intro k
    rw [load_set x hj hwlen, load_set y hi hilen]

/-!
# Sorted ranges
-/

def Throughout (p : α -> Prop) (lo hi : Int) (v : List α) : Prop :=
  forall k x, lo ≤ k -> k ≤ hi -> load v k = some x -> p x

def Nondecreasing (le : α -> α -> Prop) (lo hi : Int) (v : List α) : Prop :=
  forall i j x y, lo ≤ i -> i ≤ j -> j ≤ hi ->
    load v i = some x -> load v j = some y -> le x y

theorem Throughout.rearranged {p : α -> Prop} {lo hi : Int} {v v' : List α}
    (h : Throughout p lo hi v) (hlo : 0 ≤ lo)
    (hre : Rearranged lo hi v v') : Throughout p lo hi v' := by
  intro k x hlok hkhi hk
  rcases hre.load_before hlo hlok hkhi hk with ⟨j, hloj, hjhi, hj⟩
  exact h j x hloj hjhi hj

theorem Throughout.of_outside {p : α -> Prop} {lo hi lo' hi' : Int}
    {v v' : List α} (h : Throughout p lo' hi' v)
    (hre : Rearranged lo hi v v') (hout : hi' < lo ∨ hi < lo') :
    Throughout p lo' hi' v' := by
  intro k x hlok hkhi hk
  rw [hre.outside k (by lia)] at hk
  exact h k x hlok hkhi hk

theorem Nondecreasing.of_outside {le : α -> α -> Prop} {lo hi lo' hi' : Int}
    {v v' : List α} (h : Nondecreasing le lo' hi' v)
    (hre : Rearranged lo hi v v') (hout : hi' < lo ∨ hi < lo') :
    Nondecreasing le lo' hi' v' := by
  intro i j x y hloi hij hjhi hi' hj'
  rw [hre.outside i (by lia)] at hi'
  rw [hre.outside j (by lia)] at hj'
  exact h i j x y hloi hij hjhi hi' hj'

theorem nondecreasing_of_le {le : α -> α -> Prop} (hrefl : forall x, le x x)
    {lo hi : Int} (v : List α) (h : hi ≤ lo) : Nondecreasing le lo hi v := by
  intro i j x y hloi hij hjhi hx hy
  have heq : i = j := by lia
  rw [heq, hy] at hx
  cases hx
  exact hrefl _

theorem Nondecreasing.join {le : α -> α -> Prop} (hrefl : forall x, le x x)
    (htrans : forall x y z, le x y -> le y z -> le x z) {lo m hi : Int}
    {v : List α} {p : α} (hm : load v m = some p)
    (hleft : Nondecreasing le lo (m - 1) v)
    (hright : Nondecreasing le (m + 1) hi v)
    (hbelow : Throughout (fun x => le x p) lo (m - 1) v)
    (habove : Throughout (fun x => le p x) (m + 1) hi v) :
    Nondecreasing le lo hi v := by
  intro i j x y hloi hij hjhi hx hy
  have hxp : i ≤ m -> le x p := by
    intro him
    by_cases heq : i = m
    · rw [heq, hm] at hx
      cases hx
      exact hrefl p
    · exact hbelow i x hloi (by lia) hx
  have hpy : m ≤ j -> le p y := by
    intro hmj
    by_cases heq : j = m
    · rw [heq, hm] at hy
      cases hy
      exact hrefl p
    · exact habove j y (by lia) hjhi hy
  by_cases hjm : j < m
  · exact hleft i j x y hloi hij (by lia) hx hy
  · by_cases him : m < i
    · exact hright i j x y (by lia) hij hjhi hx hy
    · exact htrans x p y (hxp (by lia)) (hpy (by lia))

theorem Nondecreasing.pairwise {le : α -> α -> Prop} {v : List α}
    (h : Nondecreasing le 0 ((v.length : Int) - 1) v) : v.Pairwise le := by
  rw [List.pairwise_iff_getElem]
  intro i j hi hj hij
  apply h (i : Int) (j : Int)
  · exact Int.natCast_nonneg i
  · lia
  · lia
  · rw [load_ofNat]
    exact List.getElem?_eq_getElem hi
  · rw [load_ofNat]
    exact List.getElem?_eq_getElem hj

end Foundation
end Apue
