/-!
# Descriptor tables

A process's descriptor table maps small integers to open file descriptions.
The table is kept as a list whose positions are the descriptors, so it is
finite by construction and the kernel's lowest free descriptor is computed by
scanning it.  All later reasoning goes through `get`.
-/

namespace Apue
namespace Kernel

abbrev Fd := Nat

structure FdTable (file : Type) where
  slots : List (Option file)
  deriving Repr, DecidableEq

namespace FdTable

variable {file : Type}

def get (t : FdTable file) (d : Fd) : Option file :=
  (t.slots[d]?).join

def IsOpen (t : FdTable file) (d : Fd) : Prop :=
  t.get d ≠ none

def assign : List (Option file) -> Fd -> Option file -> List (Option file)
  | [], 0, x => [x]
  | [], d + 1, x => none :: assign [] d x
  | _ :: rest, 0, x => x :: rest
  | y :: rest, d + 1, x => y :: assign rest d x

def set (t : FdTable file) (d : Fd) (x : Option file) : FdTable file :=
  { slots := assign t.slots d x }

/-- The kernel hands out the lowest descriptor that is not open. -/
def lowestFrom : List (Option file) -> Fd
  | [] => 0
  | none :: _ => 0
  | some _ :: rest => lowestFrom rest + 1

def lowestFree (t : FdTable file) : Fd :=
  lowestFrom t.slots

/-!
# Reading an updated table
-/

theorem assign_getElem? (xs : List (Option file)) (d e : Fd)
    (x : Option file) :
    ((assign xs d x)[e]?).join = if e = d then x else (xs[e]?).join := by
  induction xs generalizing d e with
  | nil =>
      induction d generalizing e with
      | zero =>
          cases e with
          | zero => simp [assign]
          | succ e => simp [assign]
      | succ d ih =>
          cases e with
          | zero => simp [assign]
          | succ e => simpa [assign] using ih e
  | cons y rest ih =>
      cases d with
      | zero =>
          cases e with
          | zero => simp [assign]
          | succ e => simp [assign]
      | succ d =>
          cases e with
          | zero => simp [assign]
          | succ e => simpa [assign] using ih d e

theorem get_set (t : FdTable file) (d e : Fd) (x : Option file) :
    (t.set d x).get e = if e = d then x else t.get e :=
  assign_getElem? t.slots d e x

@[simp] theorem get_set_self (t : FdTable file) (d : Fd) (x : Option file) :
    (t.set d x).get d = x := by
  rw [get_set, if_pos rfl]

theorem get_set_of_ne (t : FdTable file) {d e : Fd} (x : Option file)
    (h : e ≠ d) : (t.set d x).get e = t.get e := by
  rw [get_set, if_neg h]

/-!
# The lowest free descriptor
-/

theorem lowestFrom_free (xs : List (Option file)) :
    (xs[lowestFrom xs]?).join = none := by
  induction xs with
  | nil => rfl
  | cons y rest ih =>
      cases y with
      | none => rfl
      | some f => simpa [lowestFrom] using ih

theorem lowestFrom_minimal (xs : List (Option file)) {d : Fd}
    (h : d < lowestFrom xs) : (xs[d]?).join ≠ none := by
  induction xs generalizing d with
  | nil =>
      cases h
  | cons y rest ih =>
      cases y with
      | none =>
          cases h
      | some f =>
          cases d with
          | zero => simp
          | succ d =>
              have hd : d < lowestFrom rest := by
                simp only [lowestFrom] at h
                lia
              simpa using ih hd

theorem get_lowestFree (t : FdTable file) : t.get t.lowestFree = none :=
  lowestFrom_free t.slots

theorem isOpen_of_lt_lowestFree (t : FdTable file) {d : Fd}
    (h : d < t.lowestFree) : t.IsOpen d :=
  lowestFrom_minimal t.slots h

theorem lowestFree_le_of_get_eq_none (t : FdTable file) {d : Fd}
    (h : t.get d = none) : t.lowestFree ≤ d := by
  apply Nat.le_of_not_lt
  intro hlt
  exact isOpen_of_lt_lowestFree t hlt h

theorem ne_lowestFree_of_isOpen {t : FdTable file} {d : Fd}
    (h : t.IsOpen d) : d ≠ t.lowestFree := by
  intro hd
  rw [hd] at h
  exact h (get_lowestFree t)

theorem lowestFree_congr {t t' : FdTable file} (h : forall d, t'.get d = t.get d) :
    t'.lowestFree = t.lowestFree := by
  apply Nat.le_antisymm
  · exact lowestFree_le_of_get_eq_none t' ((h _).trans t.get_lowestFree)
  · exact lowestFree_le_of_get_eq_none t ((h _).symm.trans t'.get_lowestFree)

/-!
# The same files under other names
-/

def map {file' : Type} (f : file -> file') (t : FdTable file) : FdTable file' :=
  { slots := t.slots.map (Option.map f) }

theorem get_map {file' : Type} (f : file -> file') (t : FdTable file) (d : Fd) :
    (t.map f).get d = (t.get d).map f := by
  unfold map get
  rw [List.getElem?_map]
  cases t.slots[d]? with
  | none => rfl
  | some slot => rfl

/-!
# Free descriptors below a bound
-/

def freeBelow (t : FdTable file) : Nat -> Nat
  | 0 => 0
  | n + 1 => freeBelow t n + if (t.get n).isNone then 1 else 0

theorem freeBelow_le (t : FdTable file) (n : Nat) : t.freeBelow n ≤ n := by
  induction n with
  | zero => exact Nat.le_refl 0
  | succ n ih =>
      unfold freeBelow
      split
      · exact Nat.succ_le_succ ih
      · exact Nat.le_succ_of_le ih

theorem freeBelow_congr {t t' : FdTable file} {n : Nat}
    (h : forall d, d < n -> t'.get d = t.get d) :
    t'.freeBelow n = t.freeBelow n := by
  induction n with
  | zero => rfl
  | succ n ih =>
      have hrest := ih (fun d hd => h d (Nat.lt_succ_of_lt hd))
      unfold freeBelow
      rw [hrest, h n (Nat.lt_succ_self n)]

theorem freeBelow_eq_zero {t : FdTable file} {n : Nat}
    (h : forall d, d < n -> t.IsOpen d) : t.freeBelow n = 0 := by
  induction n with
  | zero => rfl
  | succ n ih =>
      have hopen := Option.ne_none_iff_isSome.mp (h n (Nat.lt_succ_self n))
      unfold freeBelow
      rw [ih (fun d hd => h d (Nat.lt_succ_of_lt hd)), ← Option.not_isSome, hopen]
      rfl

theorem freeBelow_pos {t : FdTable file} {d n : Nat} (hd : t.get d = none)
    (h : d < n) : 1 ≤ t.freeBelow n := by
  induction n with
  | zero => cases h
  | succ n ih =>
      unfold freeBelow
      rcases Nat.lt_succ_iff_lt_or_eq.mp h with hlt | heq
      · exact Nat.le_trans (ih hlt) (Nat.le_add_right _ _)
      · rw [← heq, hd]
        exact Nat.succ_pos _

theorem lowestFree_lt_iff (t : FdTable file) (n : Nat) :
    t.lowestFree < n ↔ 1 ≤ t.freeBelow n := by
  constructor
  · exact freeBelow_pos t.get_lowestFree
  · intro h
    apply Nat.lt_of_not_le
    intro hle
    rw [freeBelow_eq_zero
      (fun d hd => t.isOpen_of_lt_lowestFree (Nat.lt_of_lt_of_le hd hle))] at h
    cases h

theorem freeBelow_set {t : FdTable file} {d n : Nat} (f : file)
    (hd : t.get d = none) (h : d < n) :
    (t.set d (some f)).freeBelow n + 1 = t.freeBelow n := by
  induction n with
  | zero => cases h
  | succ n ih =>
      unfold freeBelow
      rcases Nat.lt_succ_iff_lt_or_eq.mp h with hlt | heq
      · have hne : n ≠ d := by lia
        rw [get_set_of_ne t _ hne, ← ih hlt]
        lia
      · have hbelow : (t.set d (some f)).freeBelow n = t.freeBelow n :=
          freeBelow_congr (fun e he => get_set_of_ne t _ (by lia))
        rw [hbelow, ← heq, get_set_self, hd]
        rfl

/-!
# System calls on descriptors
-/

def install (t : FdTable file) (f : file) : Fd × FdTable file :=
  (t.lowestFree, t.set t.lowestFree (some f))

def close (t : FdTable file) (d : Fd) : FdTable file :=
  t.set d none

/-- `dup2` on an open descriptor; a descriptor duplicated onto itself is left
alone. -/
def dup2 (t : FdTable file) (old new : Fd) : FdTable file :=
  if old = new then t else t.set new (t.get old)

/-- `pipe` installs the read end first and the write end second. -/
def pipe (t : FdTable file) (readEnd writeEnd : file) :
    (Fd × Fd) × FdTable file :=
  let first := t.install readEnd
  let second := first.2.install writeEnd
  ((first.1, second.1), second.2)

theorem get_close (t : FdTable file) (d e : Fd) :
    (t.close d).get e = if e = d then none else t.get e :=
  get_set t d e none

theorem get_dup2 (t : FdTable file) {old new : Fd} (e : Fd) :
    (t.dup2 old new).get e = if e = new then t.get old else t.get e := by
  unfold dup2
  by_cases h : old = new
  · rw [if_pos h]
    by_cases he : e = new
    · rw [if_pos he, he, h]
    · rw [if_neg he]
  · rw [if_neg h, get_set]

theorem pipe_fst_lt_iff (t : FdTable file) (readEnd writeEnd : file) (n : Nat) :
    (t.pipe readEnd writeEnd).1.1 < n ↔ 1 ≤ t.freeBelow n :=
  t.lowestFree_lt_iff n

theorem pipe_snd_lt_iff (t : FdTable file) (readEnd writeEnd : file) (n : Nat) :
    (t.pipe readEnd writeEnd).1.2 < n ↔ 2 ≤ t.freeBelow n := by
  change (t.set t.lowestFree (some readEnd)).lowestFree < n ↔ _
  rw [lowestFree_lt_iff]
  rcases Nat.lt_or_ge t.lowestFree n with hlt | hge
  · rw [← freeBelow_set readEnd t.get_lowestFree hlt]
    exact Nat.succ_le_succ_iff.symm
  · have hsame : (t.set t.lowestFree (some readEnd)).freeBelow n = t.freeBelow n :=
      freeBelow_congr (fun d hd => get_set_of_ne t _ (by lia))
    have hzero : t.freeBelow n = 0 :=
      freeBelow_eq_zero
        (fun d hd => t.isOpen_of_lt_lowestFree (Nat.lt_of_lt_of_le hd hge))
    rw [hsame, hzero]
    lia

/-- What a pipe does to the table: two distinct descriptors that were free
carry its ends, and everything else is unchanged. -/
theorem pipe_spec (t : FdTable file) (readEnd writeEnd : file)
    {r w : Fd} {t' : FdTable file}
    (h : t.pipe readEnd writeEnd = ((r, w), t')) :
    t.get r = none ∧ t.get w = none ∧ r < w ∧
      t'.get r = some readEnd ∧ t'.get w = some writeEnd ∧
      forall e, e ≠ r -> e ≠ w -> t'.get e = t.get e := by
  unfold pipe install at h
  simp only [Prod.mk.injEq] at h
  rcases h with ⟨⟨hr, hw⟩, ht⟩
  rw [hr] at hw ht
  have hfree : t.get r = none := by
    rw [← hr]
    exact get_lowestFree t
  have hfree2 : (t.set r (some readEnd)).get w = none := by
    rw [← hw]
    exact get_lowestFree _
  have hne : w ≠ r := by
    intro heq
    rw [heq, get_set_self] at hfree2
    cases hfree2
  have hwfree : t.get w = none := by
    rwa [get_set_of_ne t _ hne] at hfree2
  have hle : t.lowestFree ≤ w := lowestFree_le_of_get_eq_none t hwfree
  rw [hr] at hle
  rw [hw] at ht
  refine ⟨hfree, hwfree, by lia, ?_, ?_, ?_⟩
  · rw [← ht, get_set_of_ne _ _ (Ne.symm hne), get_set_self]
  · rw [← ht, get_set_self]
  · intro e her hew
    rw [← ht, get_set_of_ne _ _ hew, get_set_of_ne _ _ her]

end FdTable
end Kernel
end Apue
