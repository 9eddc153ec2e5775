import Mathlib.Data.List.GetD
import Apue.Kernel.Descriptors

/-!
# dup2_l

`dup2_l` closes `newfd` and calls `dup` until it is handed `newfd`; the
descriptors that it gets on the way are closed again.  Which of its calls of
`dup` fail is a parameter.
-/

namespace Apue
namespace Dup2

open Kernel

variable {file : Type}

/-- `lseek(fd, 0, SEEK_CUR)` fails with `EBADF`. -/
def badf (t : FdTable file) (fd : Int) : Bool :=
  fd < 0 || (t.get fd.toNat).isNone

/-- `dup(oldfd)`, which fails with `EBADF` or for a reason of the kernel's. -/
def dup (t : FdTable file) (fails : Bool) (oldfd : Fd) :
    Option (Fd × FdTable file) :=
  if fails then none
  else (t.get oldfd).map t.install

inductive Exit (file : Type) where
  | failed (fd : List Fd) (t : FdTable file)
  | found (fd : List Fd) (t : FdTable file)
  | exhausted (fd : List Fd) (t : FdTable file)
  deriving Repr, DecidableEq

/-- The `for` loop with `n` turns left; `i` is the length of `fd`. -/
def dupLoop (fails : Nat -> Bool) (oldfd newfd : Fd) :
    Nat -> List Fd -> FdTable file -> Exit file
  | 0, fd, t => Exit.exhausted fd t
  | n + 1, fd, t =>
      match dup t (fails fd.length) oldfd with
      | none => Exit.failed fd t
      | some (d, t') =>
          if d = newfd then Exit.found fd t'
          else dupLoop fails oldfd newfd n (fd ++ [d]) t'

/-- `while (--i >= low) close(fd[i])` -/
def closeDown (low : Nat) (fd : List Fd) : Nat -> FdTable file -> FdTable file
  | 0, t => t
  | i + 1, t =>
      if low ≤ i then closeDown low fd i (t.close (fd.getD i 0)) else t

def dup2_l (t : FdTable file) (fails : Nat -> Bool) (oldfd newfd : Int) :
    Int × FdTable file :=
  if 256 ≤ newfd ∨ newfd < 0 then (-1, t)
  else if badf t oldfd then (-1, t)
  else if oldfd = newfd then (newfd, t)
  else
    match dupLoop fails oldfd.toNat newfd.toNat 256 [] (t.close newfd.toNat) with
    -- here the loop is `while (--i > 0)`
    | Exit.failed fd t => (-1, closeDown 1 fd fd.length t)
    | Exit.exhausted _ t => (-1, t)
    | Exit.found fd t => (newfd, closeDown 0 fd fd.length t)

/-!
# Closing the temporary duplicates
-/

theorem get_closeDown (low : Nat) (fd : List Fd) (t : FdTable file) (e : Fd)
    {n : Nat} (hn : n ≤ fd.length) :
    (closeDown low fd n t).get e =
      if e ∈ (fd.take n).drop low then none else t.get e := by
  induction n generalizing t with
  | zero =>
      rw [List.take_zero, List.drop_nil, if_neg List.not_mem_nil]
      rfl
  | succ i ih =>
      have htake : fd.take (i + 1) = fd.take i ++ [fd[i]] :=
        List.take_succ_eq_append_getElem hn
      have hlen : (fd.take i).length = i := List.length_take_of_le (by lia)
      unfold closeDown
      split
      · next hlow =>
          have hget : fd.getD i 0 = fd[i] := List.getD_eq_getElem fd 0 hn
          rw [ih _ (by lia), htake, List.drop_append_of_le_length (by lia), hget,
            FdTable.get_close]
          by_cases hmem : e ∈ (fd.take i).drop low
          · rw [if_pos hmem, if_pos (List.mem_append_left _ hmem)]
          · rw [if_neg hmem]
            simp only [List.mem_append, List.mem_singleton, hmem, false_or]
      · next hlow =>
          rw [List.drop_of_length_le, if_neg List.not_mem_nil]
          rw [List.length_take_of_le hn]
          lia

/-!
# The loop

So far the table is the one before the loop with duplicates of `oldfd` at
descriptors below `newfd` that were free.
-/

structure Filled (t : FdTable file) (f : file) (newfd : Fd) (fd : List Fd)
    (t' : FdTable file) : Prop where
  get : forall e, t'.get e = if e ∈ fd then some f else t.get e
  free : forall e, e ∈ fd -> t.get e = none ∧ e < newfd
  nodup : fd.Nodup

namespace Filled

variable {t t' : FdTable file} {f : file} {newfd : Fd} {fd : List Fd}

theorem start (t : FdTable file) (f : file) (newfd : Fd) : Filled t f newfd [] t where
  get := fun _ => (if_neg List.not_mem_nil).symm
  free := fun _ he => nomatch he
  nodup := List.nodup_nil

theorem newfd_free (h : Filled t f newfd fd t') (hnew : t.get newfd = none) :
    t'.get newfd = none := by
  rw [h.get, if_neg, hnew]
  intro hmem
  exact Nat.lt_irrefl _ (h.free newfd hmem).right

theorem install (h : Filled t f newfd fd t') (hlt : t'.lowestFree < newfd) :
    Filled t f newfd (fd ++ [t'.lowestFree]) (t'.set t'.lowestFree (some f)) := by
  have hfree := t'.get_lowestFree
  have hmem : t'.lowestFree ∉ fd := by
    intro hmem
    rw [h.get, if_pos hmem] at hfree
    cases hfree
  constructor
  · intro e
    rw [FdTable.get_set, h.get]
    simp only [List.mem_append, List.mem_singleton]
    split
    · next he => rw [if_pos (Or.inr he)]
    · next he => simp only [he, or_false]
  · intro e he
    rcases List.mem_append.mp he with he | he
    · exact h.free e he
    · rw [List.mem_singleton.mp he]
      refine ⟨?_, hlt⟩
      rw [h.get, if_neg hmem] at hfree
      exact hfree
  · rw [List.nodup_append]
    refine ⟨h.nodup, List.pairwise_singleton _ _, fun d hd e he heq => ?_⟩
    rw [heq, List.mem_singleton.mp he] at hd
    exact hmem hd

end Filled

/-- The ways to leave the loop when the calls of `dup` are those from `lo` on and
there are holes for calls up to `hi`: it never runs out of turns. -/
inductive LoopEnd (fails : Nat -> Bool) (t : FdTable file) (f : file) (newfd : Fd)
    (lo hi : Nat) : Exit file -> Prop where
  | found {fd : List Fd} {u : FdTable file} :
      Filled t f newfd fd u ->
      (forall i, lo ≤ i -> i ≤ hi -> fails i = false) ->
      LoopEnd fails t f newfd lo hi (Exit.found fd (u.set newfd (some f)))
  | failed {fd : List Fd} {u : FdTable file} :
      Filled t f newfd fd u -> fd.length ≤ hi -> fails fd.length = true ->
      (forall i, lo ≤ i -> i < fd.length -> fails i = false) ->
      LoopEnd fails t f newfd lo hi (Exit.failed fd u)

variable {fails : Nat -> Bool} {t t' : FdTable file} {f : file}

theorem LoopEnd.earlier {newfd : Fd} {lo hi : Nat} {x : Exit file}
    (h : LoopEnd fails t f newfd (lo + 1) hi x) (hlo : fails lo = false) :
    LoopEnd fails t f newfd lo hi x := by
  have hext : forall i, lo ≤ i -> (lo + 1 ≤ i -> fails i = false) ->
      fails i = false := by
    intro i hi hrest
    rcases Nat.eq_or_lt_of_le hi with heq | hlt
    · rw [← heq]
      exact hlo
    · exact hrest hlt
  cases h with
  | found hfill hall =>
      exact found hfill (fun i hi hle => hext i hi (fun hlt => hall i hlt hle))
  | failed hfill hle hfail hall =>
      exact failed hfill hle hfail (fun i hi hlt => hext i hi (fun h => hall i h hlt))

theorem dupLoop_end {oldfd newfd : Fd} (hold : t.get oldfd = some f)
    (hnew : t.get newfd = none) {n : Nat} {fd : List Fd}
    (hfill : Filled t f newfd fd t') (hn : t'.freeBelow newfd < n) :
    LoopEnd fails t f newfd fd.length (fd.length + t'.freeBelow newfd)
      (dupLoop fails oldfd newfd n fd t') := by
  induction n generalizing fd t' with
  | zero => cases hn
  | succ n ih =>
      have hopen : t'.get oldfd = some f := by
        rw [hfill.get]
        split
        · rfl
        · exact hold
      unfold dupLoop dup
      rw [hopen]
      cases hfail : fails fd.length with
      | true =>
          exact LoopEnd.failed hfill (Nat.le_add_right _ _) hfail
            (fun i hi hlt => absurd hlt (Nat.not_lt_of_le hi))
      | false =>
          simp only [Bool.false_eq_true, if_false, Option.map_some, FdTable.install]
          have hle := t'.lowestFree_le_of_get_eq_none (hfill.newfd_free hnew)
          split
          · next heq =>
              have hzero : t'.freeBelow newfd = 0 := by
                rw [← heq]
                exact FdTable.freeBelow_eq_zero
                  (fun d hd => t'.isOpen_of_lt_lowestFree hd)
              rw [heq]
              refine LoopEnd.found hfill (fun i hi hle => ?_)
              have hlast : i = fd.length := by lia
              rw [hlast]
              exact hfail
          · next hne =>
              have hlt : t'.lowestFree < newfd := Nat.lt_of_le_of_ne hle hne
              have hless := FdTable.freeBelow_set f t'.get_lowestFree hlt
              have hend := ih (hfill.install hlt) (by lia)
              have hhi : fd.length + 1 +
                  (t'.set t'.lowestFree (some f)).freeBelow newfd =
                  fd.length + t'.freeBelow newfd := by lia
              rw [List.length_append, List.length_singleton, hhi] at hend
              exact hend.earlier hfail

/-!
# The table after the call
-/

theorem get_found {newfd : Fd} {fd : List Fd} {u : FdTable file}
    (h : Filled (t.close newfd) f newfd fd u) (e : Fd) :
    (closeDown 0 fd fd.length (u.set newfd (some f))).get e =
      if e = newfd then some f else t.get e := by
  rw [get_closeDown _ _ _ _ (Nat.le_refl _), List.take_length, List.drop_zero,
    FdTable.get_set]
  split
  · next hmem =>
      rcases h.free e hmem with ⟨hfree, hlt⟩
      have hne : e ≠ newfd := Nat.ne_of_lt hlt
      rw [FdTable.get_close, if_neg hne] at hfree
      rw [if_neg hne, hfree]
  · next hmem =>
      split
      · rfl
      · next hne =>
          rw [h.get, if_neg hmem, FdTable.get_close, if_neg hne]

theorem restored_iff {newfd : Fd} {fd : List Fd} {u : FdTable file}
    (h : Filled (t.close newfd) f newfd fd u) :
    (forall e, (closeDown 1 fd fd.length u).get e = t.get e) ↔
      fd = [] ∧ t.get newfd = none := by
  have hget : forall e, (closeDown 1 fd fd.length u).get e =
      if e ∈ fd.drop 1 then none else u.get e := by
    intro e
    rw [get_closeDown _ _ _ _ (Nat.le_refl _), List.take_length]
  cases fd with
  | nil =>
      have hu : forall e, u.get e = if e = newfd then none else t.get e := by
        intro e
        rw [h.get, if_neg List.not_mem_nil, FdTable.get_close]
      constructor
      · intro hall
        refine ⟨rfl, ?_⟩
        rw [← hall newfd, hget, List.drop_nil, if_neg List.not_mem_nil, hu,
          if_pos rfl]
      · rintro ⟨-, hnew⟩ e
        rw [hget, List.drop_nil, if_neg List.not_mem_nil, hu]
        split
        · next he => rw [he, hnew]
        · rfl
  | cons d rest =>
      rcases h.free d List.mem_cons_self with ⟨hfree, hlt⟩
      rw [FdTable.get_close, if_neg (Nat.ne_of_lt hlt)] at hfree
      constructor
      · intro hall
        -- `fd[0]` is not among the descriptors that are closed
        have hkept := hall d
        rw [hget, List.drop_succ_cons, List.drop_zero,
          if_neg (List.nodup_cons.mp h.nodup).left, h.get,
          if_pos List.mem_cons_self, hfree] at hkept
        cases hkept
      · rintro ⟨hnil, -⟩
        cases hnil

theorem badf_of_get {fd : Fd} (h : t.get fd = some f) : badf t fd = false := by
  unfold badf
  rw [Int.toNat_natCast, h]
  simp

theorem of_not_badf {fd : Int} (h : badf t fd = false) :
    exists (d : Fd) (f : file), fd = d ∧ t.get d = some f := by
  unfold badf at h
  rw [Bool.or_eq_false_iff, decide_eq_false_iff_not] at h
  rcases Int.eq_ofNat_of_zero_le (Int.not_lt.mp h.left) with ⟨d, hd⟩
  have hsome : (t.get fd.toNat).isSome = true := by
    rw [← Option.not_isNone, h.right]
    rfl
  rcases Option.isSome_iff_exists.mp hsome with ⟨f, hf⟩
  rw [hd, Int.toNat_natCast] at hf
  exact ⟨d, f, hd, hf⟩

theorem dup2_l_checked {oldfd newfd : Fd} (hlt : newfd < 256)
    (hold : t.get oldfd = some f) (hne : oldfd ≠ newfd) :
    dup2_l t fails oldfd newfd =
      match dupLoop fails oldfd newfd 256 [] (t.close newfd) with
      | Exit.failed fd t => (-1, closeDown 1 fd fd.length t)
      | Exit.exhausted _ t => (-1, t)
      | Exit.found fd t => ((newfd : Int), closeDown 0 fd fd.length t) := by
  unfold dup2_l
  rw [if_neg (by lia), badf_of_get hold, if_neg (by simp), if_neg (by lia),
    Int.toNat_natCast, Int.toNat_natCast]

theorem dupLoop_checked (fails : Nat -> Bool) {oldfd newfd : Fd} (hlt : newfd < 256)
    (hold : t.get oldfd = some f) (hne : oldfd ≠ newfd) :
    LoopEnd fails (t.close newfd) f newfd 0 (t.freeBelow newfd)
      (dupLoop fails oldfd newfd 256 [] (t.close newfd)) := by
  have hbelow : (t.close newfd).freeBelow newfd = t.freeBelow newfd :=
    FdTable.freeBelow_congr
      (fun d hd => by rw [FdTable.get_close, if_neg (Nat.ne_of_lt hd)])
  have hopen : (t.close newfd).get oldfd = some f := by
    rw [FdTable.get_close, if_neg hne, hold]
  have hfree : (t.close newfd).get newfd = none := by
    rw [FdTable.get_close, if_pos rfl]
  have hle := (t.close newfd).freeBelow_le newfd
  have hend : LoopEnd fails (t.close newfd) f newfd _ _
      (dupLoop fails oldfd newfd 256 [] (t.close newfd)) :=
    dupLoop_end hopen hfree (Filled.start _ _ _) (by lia)
  rw [List.length_nil, Nat.zero_add, hbelow] at hend
  exact hend

/-!
# The two results
-/

/-- When `dup` never fails, `dup2_l` is `dup2`, and the loop never runs out of
turns. -/
theorem dup2_l_refines (t : FdTable file) {oldfd newfd : Fd}
    (hopen : t.IsOpen oldfd) (hnew : newfd ≤ 255) :
    (dup2_l t (fun _ => false) oldfd newfd).1 = newfd ∧
      (forall e, (dup2_l t (fun _ => false) oldfd newfd).2.get e =
        (t.dup2 oldfd newfd).get e) ∧
      (dup2_l t (fun _ => false) oldfd newfd).2.get newfd = t.get oldfd ∧
      (forall e, e ≠ newfd ->
        (dup2_l t (fun _ => false) oldfd newfd).2.get e = t.get e) ∧
      (oldfd = newfd -> (dup2_l t (fun _ => false) oldfd newfd).2 = t) ∧
      (oldfd ≠ newfd -> forall fd u,
        dupLoop (fun _ => false) oldfd newfd 256 [] (t.close newfd) ≠
          Exit.exhausted fd u) := by
  rcases Option.ne_none_iff_exists'.mp hopen with ⟨f, hold⟩
  have hlt : newfd < 256 := by lia
  rcases eq_or_ne oldfd newfd with heq | hne
  · have hsame : dup2_l t (fun _ => false) oldfd newfd = ((newfd : Int), t) := by
      unfold dup2_l
      rw [if_neg (by lia), badf_of_get hold, if_neg (by simp), if_pos (by lia)]
    rw [hsame, heq]
    refine ⟨rfl, fun e => ?_, rfl, fun _ _ => rfl, fun _ => rfl, fun h => ?_⟩
    · unfold FdTable.dup2
      rw [if_pos rfl]
    · exact absurd rfl h
  · have hend := dupLoop_checked (fun _ => false) hlt hold hne
    rw [dup2_l_checked hlt hold hne]
    generalize dupLoop (fun _ => false) oldfd newfd 256 [] (t.close newfd) = x at hend
    cases hend with
    | failed _ _ hfail _ => cases hfail
    | found hfill _ =>
        have hget := get_found hfill
        refine ⟨rfl, fun e => ?_, ?_, fun e he => ?_, fun h => absurd h hne, ?_⟩
        · rw [FdTable.get_dup2, hold]
          exact hget e
        · rw [hold]
          exact (hget newfd).trans (if_pos rfl)
        · exact (hget e).trans (if_neg he)
        · intro _ fd u heq
          cases heq

/-- Descriptors 1 and 3 are free and 5 is open. -/
theorem dup2_l_refines_holes :
    let t : FdTable Nat := { slots := [some 10, none, some 12, none, some 14, some 15] }
    (dup2_l t (fun _ => false) 0 5).1 = 5 ∧
      (forall e, (dup2_l t (fun _ => false) 0 5).2.get e = (t.dup2 0 5).get e) := by
  intro t
  have hopen : t.IsOpen 0 := Option.some_ne_none 10
  have h := dup2_l_refines t hopen (by decide : 5 ≤ 255)
  exact ⟨h.left, h.right.left⟩

/-- What the table must be like for a failing call to leave it as it was: the
call is refused before it does anything, or every `dup` that is needed succeeds,
or `newfd` was not open and already the first `dup` fails. -/
def Restores (t : FdTable file) (fails : Nat -> Bool) (oldfd newfd : Int) : Prop :=
  256 ≤ newfd ∨ newfd < 0 ∨ badf t oldfd = true ∨ oldfd = newfd ∨
    (forall i, i ≤ t.freeBelow newfd.toNat -> fails i = false) ∨
    (t.get newfd.toNat = none ∧ fails 0 = true)

/-- A checked call restores the table after a failure only under the last two
conditions. -/
theorem checked_restores {oldfd newfd : Fd} (hlt : newfd < 256)
    (hold : t.get oldfd = some f) (hne : oldfd ≠ newfd) :
    ((dup2_l t fails oldfd newfd).1 = -1 ->
        forall d, (dup2_l t fails oldfd newfd).2.get d = t.get d) ↔
      (forall i, i ≤ t.freeBelow newfd -> fails i = false) ∨
        (t.get newfd = none ∧ fails 0 = true) := by
  have hend := dupLoop_checked fails hlt hold hne
  rw [dup2_l_checked hlt hold hne]
  generalize dupLoop fails oldfd newfd 256 [] (t.close newfd) = x at hend
  cases hend with
  | found _ hall =>
      refine iff_of_true (fun hret => ?_) (Or.inl fun i hi => hall i (Nat.zero_le i) hi)
      dsimp only at hret
      lia
  | @failed fd u hfill hle hfail hall =>
      dsimp only
      rw [restored_iff hfill]
      constructor
      · intro hrestored
        rcases hrestored rfl with ⟨hnil, hnew⟩
        rw [hnil] at hfail
        exact Or.inr ⟨hnew, hfail⟩
      · rintro (hsucc | ⟨hnew, hfirst⟩)
        · rw [hsucc _ hle] at hfail
          cases hfail
        · refine fun _ => ⟨?_, hnew⟩
          cases fd with
          | nil => rfl
          | cons d rest =>
              rw [hall 0 (Nat.le_refl 0) (Nat.succ_pos _)] at hfirst
              cases hfirst

theorem restored_of_refused {oldfd newfd r : Int}
    (h : dup2_l t fails oldfd newfd = (r, t)) (hres : Restores t fails oldfd newfd) :
    ((dup2_l t fails oldfd newfd).1 = -1 ->
        forall d, (dup2_l t fails oldfd newfd).2.get d = t.get d) ↔
      Restores t fails oldfd newfd := by
  rw [h]
  exact iff_of_true (fun _ _ => rfl) hres

/-- Exactly when a call that returns `-1` leaves the table as it was. -/
theorem restored_iff_restores (t : FdTable file) (fails : Nat -> Bool)
    (oldfd newfd : Int) :
    ((dup2_l t fails oldfd newfd).1 = -1 ->
        forall d, (dup2_l t fails oldfd newfd).2.get d = t.get d) ↔
      Restores t fails oldfd newfd := by
  by_cases hrange : 256 ≤ newfd ∨ newfd < 0
  · apply restored_of_refused (r := -1)
    · unfold dup2_l
      rw [if_pos hrange]
    · rcases hrange with h | h
      · exact Or.inl h
      · exact Or.inr (Or.inl h)
  cases hbad : badf t oldfd with
  | true =>
      apply restored_of_refused (r := -1)
      · unfold dup2_l
        rw [if_neg hrange, hbad, if_pos rfl]
      · exact Or.inr (Or.inr (Or.inl hbad))
  | false =>
      rcases eq_or_ne oldfd newfd with heq | hne
      · apply restored_of_refused (r := newfd)
        · unfold dup2_l
          rw [if_neg hrange, hbad, if_neg (by simp), if_pos heq]
        · exact Or.inr (Or.inr (Or.inr (Or.inl heq)))
      · rw [not_or] at hrange
        rcases of_not_badf hbad with ⟨o, f, ho, hold⟩
        rcases Int.eq_ofNat_of_zero_le (Int.not_lt.mp hrange.right) with ⟨n, hn⟩
        subst ho hn
        rw [checked_restores (by lia) hold (by lia)]
        unfold Restores
        rw [hbad, Int.toNat_natCast]
        constructor
        · intro h
          exact Or.inr (Or.inr (Or.inr (Or.inr h)))
        · rintro (h | h | h | h | h)
          · exact absurd h hrange.left
          · exact absurd h hrange.right
          · cases h
          · exact absurd h hne
          · exact h

/-- `dup(0)` gives 1 and fails the second time: `newfd` is closed and 1 is not. -/
theorem failure_leaves_duplicate :
    let t : FdTable Nat := { slots := [some 10, none, some 20] }
    let result := dup2_l t (fun i => i = 1) 0 2
    result.1 = -1 ∧ t.get 1 = none ∧ result.2.get 1 = some 10 ∧
      t.get 2 = some 20 ∧ result.2.get 2 = none := by
  decide

end Dup2
end Apue
