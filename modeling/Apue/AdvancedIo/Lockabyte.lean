import Apue.AdvancedIo.LockTable
import Apue.Foundation.Interleave
import Apue.Foundation.Transition
import Apue.Foundation.WaitFor
import Mathlib

/-!
# Processes that lock bytes one after another

Each process calls `lockabyte` for the bytes of its list and returns; one whose
lock fails exits at once.  `F_SETLKW` waits as long as a lock of another process
is in the way, unless the kernel finds that the process would then wait for itself
through others, which is the error `EDEADLK`.  It follows only so many waits (12 in
Linux), so among more processes than that a circle may go unnoticed.  The program
has two processes on one descriptor, with the lists 0, 1 and 1, 0.
-/

namespace Apue
namespace Lockabyte

open Foundation Filelock

/-- The bytes that a process has still to lock; while it waits, the byte that it
waits for and its region. -/
inductive Pc where
  | running (todo : List Int)
  | waiting (offset : Int) (r : Region) (todo : List Int)
  | failed
  | exited (status : Nat)
  deriving Repr, DecidableEq

structure State where
  locks : List Lock
  pc : Pid -> Pc
  out : List (Pid × Int)

/-- A process calls `writew_lock`, gets the lock that it waited for, or exits.  A
call may also fail for a reason of its own. -/
inductive Label where
  | lockabyte (p : Pid)
  | wake (p : Pid)
  | error (p : Pid)
  | exit (p : Pid)
  deriving Repr, DecidableEq

def Label.isError : Label -> Bool
  | Label.error _ => true
  | _ => false

/-- The open file behind the descriptor, the processes with their lists, and how
many waits the kernel follows. -/
structure Setting where
  file : OpenFile
  procs : List Pid
  script : Pid -> List Int
  followed : Nat

/-- The kernel finds every circle. -/
def Setting.Few (c : Setting) : Prop :=
  c.procs.length ≤ c.followed

def goto (s : State) (p : Pid) (pc : Pc) : State :=
  { s with pc := Function.update s.pc p pc }

/-- The lock is set, and `lockabyte` prints its line. -/
def grant (s : State) (p : Pid) (offset : Int) (r : Region) (todo : List Int) :
    State :=
  goto
    { s with
      locks := addLock s.locks (lockOf p LockType.F_WRLCK r)
      out := s.out ++ [(p, offset)] }
    p (Pc.running todo)

def waitsFor (s : State) (p q : Pid) : Bool :=
  match s.pc p with
  | Pc.waiting _ r _ =>
      s.locks.any (fun l => l.pid = q.1 && l.conflicts p.1 LockType.F_WRLCK r)
  | _ => false

/-- `writew_lock(fd, offset, SEEK_SET, 1)` in `lockabyte`. -/
def lockabyte (c : Setting) (s : State) (p : Pid) : Option State :=
  match s.pc p with
  | Pc.running (offset :: todo) =>
      match regionOf c.file offset 0 1 with
      | none => some (goto s p Pc.failed)
      | some r =>
          if c.file.allows LockType.F_WRLCK then
            if Free s.locks p.1 LockType.F_WRLCK r then
              some (grant s p offset r todo)
            else
              if leads (waitsFor (goto s p (Pc.waiting offset r todo))) c.procs
                  c.followed p p then
                some (goto s p Pc.failed)
              else
                some (goto s p (Pc.waiting offset r todo))
          else
            some (goto s p Pc.failed)
  | _ => none

def wake (s : State) (p : Pid) : Option State :=
  match s.pc p with
  | Pc.waiting offset r todo =>
      if Free s.locks p.1 LockType.F_WRLCK r then
        some (grant s p offset r todo)
      else
        none
  | _ => none

def error (s : State) (p : Pid) : Option State :=
  match s.pc p with
  | Pc.running (_ :: _) => some (goto s p Pc.failed)
  | Pc.waiting _ _ _ => some (goto s p Pc.failed)
  | _ => none

def finish (s : State) (p : Pid) (status : Nat) : State :=
  goto { s with locks := release s.locks p.1 } p (Pc.exited status)

def exit (s : State) (p : Pid) : Option State :=
  match s.pc p with
  | Pc.running [] => some (finish s p 0)
  | Pc.failed => some (finish s p 1)
  | _ => none

def step (c : Setting) (s : State) : Label -> Option State
  | Label.lockabyte p => lockabyte c s p
  | Label.wake p => wake s p
  | Label.error p => error s p
  | Label.exit p => exit s p

def start (c : Setting) : State where
  locks := []
  pc := fun p => if p ∈ c.procs then Pc.running (c.script p) else Pc.exited 0
  out := []

def machine (c : Setting) : Machine State Label where
  init s := s = start c
  step := step c

/-!
# What a step changes
-/

def Pc.weight : Pc -> Nat
  | Pc.running todo => 2 * todo.length + 2
  | Pc.waiting _ _ todo => 2 * todo.length + 3
  | Pc.failed => 1
  | Pc.exited _ => 0

def Pc.Gone (pc : Pc) : Prop :=
  exists status, pc = Pc.exited status

def Pc.left : Pc -> Option (List Int)
  | Pc.running todo => some todo
  | Pc.waiting offset _ todo => some (offset :: todo)
  | Pc.exited 0 => some []
  | _ => none

def Waits (s : State) (p q : Pid) : Prop :=
  waitsFor s p q = true

/-- A step of `p` concerns its locks, its lines and its point in the program, and it
does not leave `p` waiting for itself. -/
structure Changes (c : Setting) (p : Pid) (s t : State) : Prop where
  other : forall q, q ≠ p -> t.pc q = s.pc q
  keep : forall l, l ∈ t.locks -> l.pid ≠ p.1 -> l ∈ s.locks
  exclusive : Exclusive s.locks -> Exclusive t.locks
  circle : c.Few -> ¬ Relation.TransGen (Waits t) p p
  gone : (t.pc p).Gone -> forall l, l ∈ t.locks -> l.pid ≠ p.1
  less : (t.pc p).weight < (s.pc p).weight
  out_other : forall q, q ≠ p -> partOf q t.out = partOf q s.out
  out_same : forall rest, (t.pc p).left = some rest ->
    exists todo, (s.pc p).left = some todo ∧
      partOf p s.out ++ todo = partOf p t.out ++ rest

section

variable {c : Setting} {s t : State} {p q : Pid} {l : Label}

theorem waits_iff :
    Waits s p q ↔
      exists offset r todo l, s.pc p = Pc.waiting offset r todo ∧ l ∈ s.locks ∧
        l.pid = q.1 ∧ l.conflicts p.1 LockType.F_WRLCK r = true := by
  unfold Waits waitsFor
  constructor
  · intro h
    split at h
    · next offset r todo hpc =>
        rcases List.any_eq_true.mp h with ⟨l, hl, hboth⟩
        rw [Bool.and_eq_true, decide_eq_true_iff] at hboth
        exact ⟨offset, r, todo, l, hpc, hl, hboth⟩
    · cases h
  · rintro ⟨offset, r, todo, l, hpc, hl, hpid, hconflicts⟩
    rw [hpc]
    apply List.any_eq_true.mpr
    refine ⟨l, hl, ?_⟩
    rw [Bool.and_eq_true, decide_eq_true_iff]
    exact ⟨hpid, hconflicts⟩

theorem Waits.ne (h : Waits s p q) : q ≠ p := by
  rcases waits_iff.mp h with ⟨_, _, _, l, _, _, hpid, hconflicts⟩
  have hne := (conflicts_iff.mp hconflicts).1
  rw [hpid] at hne
  exact fun heq => hne (congrArg Subtype.val heq)

theorem not_waits_of (h : forall offset r todo, s.pc p ≠ Pc.waiting offset r todo) :
    ¬ Waits s p q := by
  intro hwaits
  rcases waits_iff.mp hwaits with ⟨offset, r, todo, _, hpc, _⟩
  exact h offset r todo hpc

@[simp] theorem goto_same (s : State) (p : Pid) (pc : Pc) :
    (goto s p pc).pc p = pc := by
  simp [goto]

theorem goto_other {pc : Pc} (h : q ≠ p) : (goto s p pc).pc q = s.pc q := by
  simp [goto, h]

@[simp] theorem goto_locks (s : State) (p : Pid) (pc : Pc) :
    (goto s p pc).locks = s.locks := rfl

theorem Changes.of_goto {pc : Pc}
    (hcircle : c.Few -> ¬ Relation.TransGen (Waits (goto s p pc)) p p) (hgone : ¬ pc.Gone)
    (hless : pc.weight < (s.pc p).weight)
    (hleft : forall rest, pc.left = some rest -> (s.pc p).left = some rest) :
    Changes c p s (goto s p pc) where
  other _ hq := goto_other hq
  keep _ hl _ := hl
  exclusive h := h
  circle := hcircle
  gone h := by
    rw [goto_same] at h
    exact absurd h hgone
  less := by
    rw [goto_same]
    exact hless
  out_other _ _ := rfl
  out_same rest h := by
    rw [goto_same] at h
    exact ⟨rest, hleft rest h, rfl⟩

theorem not_gone_running (todo : List Int) : ¬ (Pc.running todo).Gone := by
  rintro ⟨status, h⟩
  cases h

theorem not_circle_of {pc : Pc} (hp : t.pc p = pc)
    (h : forall offset r todo, pc ≠ Pc.waiting offset r todo) :
    ¬ Relation.TransGen (Waits t) p p := by
  apply not_transGen_of_free
  intro q
  apply not_waits_of
  rw [hp]
  exact h

theorem Changes.of_failed (hless : 1 < (s.pc p).weight) :
    Changes c p s (goto s p Pc.failed) := by
  apply Changes.of_goto
  · exact fun _ => not_circle_of (goto_same s p Pc.failed) (fun _ _ _ h => by cases h)
  · rintro ⟨status, h⟩
    cases h
  · exact hless
  · intro rest h
    cases h

theorem Changes.of_grant {offset : Int} {r : Region} {todo : List Int}
    (hfree : Free s.locks p.1 LockType.F_WRLCK r)
    (hless : 2 * todo.length + 2 < (s.pc p).weight)
    (hleft : (s.pc p).left = some (offset :: todo)) :
    Changes c p s (grant s p offset r todo) where
  other _ hq := goto_other hq
  keep _ hl hne := mem_addLock_other hl hne
  exclusive h := Exclusive.addLock (l := lockOf p LockType.F_WRLCK r) h hfree
  circle _ :=
    not_circle_of (goto_same _ p (Pc.running todo)) (fun _ _ _ h => by cases h)
  gone h := by
    have hpc : (grant s p offset r todo).pc p = Pc.running todo := goto_same _ p _
    rw [hpc] at h
    exact absurd h (not_gone_running todo)
  less := by
    have hpc : (grant s p offset r todo).pc p = Pc.running todo := goto_same _ p _
    rw [hpc]
    exact hless
  out_other q hq := by
    show partOf q (s.out ++ [(p, offset)]) = partOf q s.out
    rw [partOf_append, partOf_cons, if_neg (fun h => hq h.symm)]
    exact List.append_nil _
  out_same rest h := by
    have hpc : (grant s p offset r todo).pc p = Pc.running todo := goto_same _ p _
    rw [hpc] at h
    cases h
    refine ⟨offset :: todo, hleft, ?_⟩
    show _ = partOf p (s.out ++ [(p, offset)]) ++ todo
    rw [partOf_append, partOf_cons, if_pos rfl, List.append_assoc]
    rfl

theorem Changes.of_finish {status : Nat} (hless : 0 < (s.pc p).weight)
    (hleft : status = 0 -> (s.pc p).left = some []) :
    Changes c p s (finish s p status) where
  other _ hq := goto_other hq
  keep _ hl _ := (mem_release.mp hl).1
  exclusive h := Exclusive.release h
  circle _ :=
    not_circle_of (goto_same _ p (Pc.exited status)) (fun _ _ _ h => by cases h)
  gone _ _ hl := (mem_release.mp hl).2
  less := by
    have hpc : (finish s p status).pc p = Pc.exited status := goto_same _ p _
    rw [hpc]
    exact hless
  out_other _ _ := rfl
  out_same rest h := by
    have hpc : (finish s p status).pc p = Pc.exited status := goto_same _ p _
    rw [hpc] at h
    cases status with
    | zero =>
        cases h
        exact ⟨[], hleft rfl, rfl⟩
    | succ n => cases h

theorem Waits.mem (hgone : forall q, q ∉ c.procs -> (s.pc q).Gone)
    (h : Waits s p q) : p ∈ c.procs := by
  apply Classical.not_not.mp
  intro hp
  rcases hgone p hp with ⟨status, hpc⟩
  rcases waits_iff.mp h with ⟨_, _, _, _, hwaiting, _⟩
  rw [hpc] at hwaiting
  cases hwaiting

/-- The search of the kernel finds every circle, as only the processes of the
setting wait. -/
theorem leads_iff_circle (hgone : forall q, q ∉ c.procs -> (s.pc q).Gone)
    (hfew : c.Few) :
    leads (waitsFor s) c.procs c.followed p p = true ↔
      Relation.TransGen (Waits s) p p := by
  apply leads_iff _ hfew
  intro q r hqr
  exact Waits.mem hgone hqr

theorem lockabyte_changes (hgone : forall q, q ∉ c.procs -> (s.pc q).Gone)
    (h : lockabyte c s p = some t) : Changes c p s t := by
  unfold lockabyte at h
  split at h
  · next offset todo hpc =>
      have hweight : (s.pc p).weight = 2 * todo.length + 4 := by
        rw [hpc]
        rfl
      split at h
      · cases h
        exact Changes.of_failed (by lia)
      · next r _ =>
          split at h
          · split at h
            · next hfree =>
                cases h
                exact Changes.of_grant hfree (by lia) (by rw [hpc]; rfl)
            · split at h
              · cases h
                exact Changes.of_failed (by lia)
              · next hleads =>
                  cases h
                  have hmem : p ∈ c.procs := by
                    apply Classical.not_not.mp
                    intro hp
                    rcases hgone p hp with ⟨status, hexited⟩
                    rw [hpc] at hexited
                    cases hexited
                  apply Changes.of_goto
                  · intro hfew
                    rw [← leads_iff_circle _ hfew]
                    · exact hleads
                    · intro q hq
                      have hne : q ≠ p := fun heq => hq (heq ▸ hmem)
                      rw [goto_other hne]
                      exact hgone q hq
                  · rintro ⟨status, hexited⟩
                    cases hexited
                  · show 2 * todo.length + 3 < _
                    lia
                  · intro rest hrest
                    rw [hpc]
                    exact hrest
          · cases h
            exact Changes.of_failed (by lia)
  · cases h

theorem wake_changes (h : wake s p = some t) : Changes c p s t := by
  unfold wake at h
  split at h
  · next offset r todo hpc =>
      split at h
      · next hfree =>
          cases h
          apply Changes.of_grant hfree
          · rw [hpc]
            exact Nat.lt_succ_self _
          · rw [hpc]
            rfl
      · cases h
  · cases h

theorem error_changes (h : error s p = some t) : Changes c p s t := by
  unfold error at h
  split at h
  · next offset todo hpc =>
      cases h
      apply Changes.of_failed
      rw [hpc]
      show 1 < 2 * (offset :: todo).length + 2
      lia
  · next offset r todo hpc =>
      cases h
      apply Changes.of_failed
      rw [hpc]
      show 1 < 2 * todo.length + 3
      lia
  · cases h

theorem exit_changes (h : exit s p = some t) : Changes c p s t := by
  unfold exit at h
  split at h
  · next hpc =>
      cases h
      apply Changes.of_finish
      · rw [hpc]
        exact Nat.succ_pos _
      · intro _
        rw [hpc]
        rfl
  · next hpc =>
      cases h
      apply Changes.of_finish
      · rw [hpc]
        exact Nat.succ_pos _
      · intro hzero
        cases hzero
  · cases h

theorem step_changes (hgone : forall q, q ∉ c.procs -> (s.pc q).Gone)
    (h : step c s l = some t) : exists p, Changes c p s t := by
  cases l with
  | lockabyte p => exact ⟨p, lockabyte_changes hgone h⟩
  | wake p => exact ⟨p, wake_changes h⟩
  | error p => exact ⟨p, error_changes h⟩
  | exit p => exact ⟨p, exit_changes h⟩

/-!
# The invariant
-/

structure Inv (c : Setting) (s : State) : Prop where
  exclusive : Exclusive s.locks
  owner : forall l, l ∈ s.locks -> exists p : Pid, l.pid = p.1 ∧ ¬ (s.pc p).Gone
  circle : c.Few -> NoCircle (Waits s)
  gone : forall p, p ∉ c.procs -> (s.pc p).Gone

theorem Waits.before (h : Changes c p s t) {x y : Pid} (hx : x ≠ p) (hy : y ≠ p)
    (hwaits : Waits t x y) : Waits s x y := by
  rcases waits_iff.mp hwaits with ⟨offset, r, todo, l, hpc, hl, hpid, hconflicts⟩
  rw [h.other x hx] at hpc
  have hne : l.pid ≠ p.1 := by
    rw [hpid]
    exact fun heq => hy (Subtype.ext heq)
  exact waits_iff.mpr ⟨offset, r, todo, l, hpc, h.keep l hl hne, hpid, hconflicts⟩

theorem Changes.not_gone (h : Changes c p s t) : ¬ (s.pc p).Gone := by
  rintro ⟨status, hpc⟩
  have hless := h.less
  rw [hpc] at hless
  exact Nat.not_lt_zero _ hless

theorem Inv.change (hs : Inv c s) (h : Changes c p s t) : Inv c t where
  exclusive := h.exclusive hs.exclusive
  owner l hl := by
    by_cases hpid : l.pid = p.1
    · exact ⟨p, hpid, fun hgone => h.gone hgone l hl hpid⟩
    · rcases hs.owner l (h.keep l hl hpid) with ⟨q, hq, hrun⟩
      have hne : q ≠ p := by
        intro heq
        rw [heq] at hq
        exact hpid hq
      refine ⟨q, hq, ?_⟩
      rw [h.other q hne]
      exact hrun
  circle hfew :=
    (hs.circle hfew).change (fun _ _ hx hy => Waits.before h hx hy) (h.circle hfew)
  gone q hq := by
    have hne : q ≠ p := fun heq => h.not_gone (heq ▸ hs.gone q hq)
    rw [h.other q hne]
    exact hs.gone q hq

theorem start_pc_of_mem (h : p ∈ c.procs) :
    (start c).pc p = Pc.running (c.script p) :=
  if_pos h

theorem start_pc_of_not_mem (h : p ∉ c.procs) : (start c).pc p = Pc.exited 0 :=
  if_neg h

theorem start_inv (c : Setting) : Inv c (start c) where
  exclusive := Exclusive.nil
  owner l hl := by cases hl
  circle _ p := by
    apply not_transGen_of_free
    intro q hwaits
    rcases waits_iff.mp hwaits with ⟨_, _, _, _, _, hl, _⟩
    cases hl
  gone p hp := ⟨0, start_pc_of_not_mem hp⟩

theorem Inv.after (hs : Inv c s) (h : step c s l = some t) : Inv c t := by
  rcases step_changes hs.gone h with ⟨p, hchanges⟩
  exact hs.change hchanges

theorem inv_of_reachable (h : (machine c).Reachable s) : Inv c s := by
  apply Machine.invariant _ _ h
  · intro s hs
    rw [hs]
    exact start_inv c
  · intro s l t hs hst
    exact hs.after hst

/-!
# No run is stuck
-/

theorem free_of_not_waits (hs : Inv c s) {offset : Int} {r : Region}
    {todo : List Int} (hpc : s.pc p = Pc.waiting offset r todo)
    (hno : forall q, ¬ Waits s p q) : Free s.locks p.1 LockType.F_WRLCK r := by
  apply Classical.byContradiction
  intro hnot
  rcases Option.ne_none_iff_exists'.mp hnot with ⟨l, hl⟩
  have hmem := List.mem_of_find?_eq_some hl
  have hconflicts := List.find?_some hl
  rcases hs.owner l hmem with ⟨q, hpid, _⟩
  exact hno q (waits_iff.mpr ⟨offset, r, todo, l, hpc, hmem, hpid, hconflicts⟩)

/-- As long as a process has not exited, some process can go on without an
error. -/
theorem Inv.goes_on (hs : Inv c s) (hfew : c.Few) (hp : ¬ (s.pc p).Gone) :
    exists l t, step c s l = some t ∧ l.isError = false := by
  rcases (hs.circle hfew).exists_free (fun _ _ hxy => Waits.mem hs.gone hxy) p with
    ⟨q, hpq, hfree⟩
  have hq : ¬ (s.pc q).Gone := by
    rcases Relation.ReflTransGen.cases_tail hpq with heq | ⟨x, _, hxq⟩
    · rw [heq]
      exact hp
    · rcases waits_iff.mp hxq with ⟨_, _, _, l, _, hl, hpid, _⟩
      rcases hs.owner l hl with ⟨y, hy, hrun⟩
      have heq : y = q := Subtype.ext (hy.symm.trans hpid)
      rw [← heq]
      exact hrun
  cases hpc : s.pc q with
  | running todo =>
      cases todo with
      | nil =>
          refine ⟨Label.exit q, finish s q 0, ?_, rfl⟩
          show exit s q = _
          unfold exit
          rw [hpc]
      | cons offset todo =>
          refine ⟨Label.lockabyte q, ?_⟩
          show exists t, lockabyte c s q = some t ∧ _
          unfold lockabyte
          rw [hpc]
          dsimp only
          split
          · exact ⟨_, rfl, rfl⟩
          · split
            · split
              · exact ⟨_, rfl, rfl⟩
              · split
                · exact ⟨_, rfl, rfl⟩
                · exact ⟨_, rfl, rfl⟩
            · exact ⟨_, rfl, rfl⟩
  | waiting offset r todo =>
      refine ⟨Label.wake q, grant s q offset r todo, ?_, rfl⟩
      show wake s q = _
      unfold wake
      rw [hpc]
      exact if_pos (free_of_not_waits hs hpc hfree)
  | failed =>
      refine ⟨Label.exit q, finish s q 1, ?_, rfl⟩
      show exit s q = _
      unfold exit
      rw [hpc]
  | exited status => exact absurd ⟨status, hpc⟩ hq

def weight (c : Setting) (s : State) : Nat :=
  (c.procs.map (fun p => (s.pc p).weight)).sum

theorem Changes.weight_lt (hs : Inv c s) (h : Changes c p s t) :
    weight c t < weight c s := by
  have hmem : p ∈ c.procs := by
    apply Classical.not_not.mp
    intro hp
    exact h.not_gone (hs.gone p hp)
  have hle : forall q, (t.pc q).weight ≤ (s.pc q).weight := by
    intro q
    by_cases hq : q = p
    · rw [hq]
      exact Nat.le_of_lt h.less
    · rw [h.other q hq]
  exact List.sum_lt_sum (fun q => (t.pc q).weight) (fun q => (s.pc q).weight)
    (fun q _ => hle q) ⟨p, hmem, h.less⟩

theorem Inv.step_weight_lt (hs : Inv c s) (h : step c s l = some t) :
    Inv c t ∧ weight c t < weight c s := by
  rcases step_changes hs.gone h with ⟨p, hchanges⟩
  exact ⟨hs.change hchanges, hchanges.weight_lt hs⟩

theorem weight_start (c : Setting) :
    weight c (start c) =
      (c.procs.map (fun p => 2 * (c.script p).length + 2)).sum := by
  unfold weight
  congr 1
  apply List.map_congr_left
  intro p hp
  rw [start_pc_of_mem hp]
  rfl

theorem locks_nil_of_gone (hs : Inv c s) (hgone : forall p, (s.pc p).Gone) :
    s.locks = [] := by
  apply List.eq_nil_iff_forall_not_mem.mpr
  intro l hl
  rcases hs.owner l hl with ⟨p, _, hrun⟩
  exact hrun (hgone p)

end

def parent : Pid := ⟨100, by decide⟩

def child : Pid := ⟨101, by decide⟩

/-- The file after `creat` and the `write` of two bytes. -/
def main : Setting where
  file := { readable := false, writable := true, offset := 2, size := 2 }
  procs := [parent, child]
  script := fun p => if p = child then [0, 1] else [1, 0]
  followed := 12

def crossed : List Label :=
  [Label.lockabyte child, Label.lockabyte parent, Label.lockabyte child,
    Label.lockabyte parent, Label.exit parent, Label.wake child,
    Label.exit child]

theorem main_few : main.Few :=
  Nat.le_add_left 2 10

def NoError (_ : State) (l : Label) : Prop :=
  l.isError = false

instance (s : State) (l : Label) : Decidable (NoError s l) :=
  inferInstanceAs (Decidable (_ = _))

/-- The file may be written, and all offsets are those of bytes. -/
structure Setting.Sound (c : Setting) : Prop where
  writable : c.file.writable = true
  offset : forall p, p ∈ c.procs -> forall o, o ∈ c.script p ->
    0 ≤ o ∧ o ≤ OFFSET_MAX

/-- What a process has locked and what it has still to lock is its list. -/
def Accounted (c : Setting) (s : State) : Prop :=
  forall p, p ∈ c.procs -> forall rest, (s.pc p).left = some rest ->
    partOf p s.out ++ rest = c.script p

def Survives (c : Setting) (s : State) : Prop :=
  exists p, p ∈ c.procs ∧ (s.pc p).left ≠ none

section

variable {c : Setting} {s t : State} {p q : Pid} {l : Label}

theorem regionOf_byte {f : OpenFile} {o : Int} (hlo : 0 ≤ o) (hhi : o ≤ OFFSET_MAX) :
    regionOf f o 0 1 = some { start := o, last := o } := by
  have hbase : base f (short 0) = some 0 := rfl
  have hlast : 0 + o + 1 - 1 = o := by lia
  unfold regionOf region flock
  dsimp only
  rw [hbase]
  dsimp only
  rw [if_neg (by lia), if_pos (by decide), hlast, if_neg (by lia), Int.zero_add]

theorem Accounted.start (c : Setting) : Accounted c (start c) := by
  intro p hp rest hrest
  rw [start_pc_of_mem hp] at hrest
  cases hrest
  rfl

theorem Accounted.change (h : Accounted c s) (hchanges : Changes c p s t) :
    Accounted c t := by
  intro q hq rest hrest
  by_cases hqp : q = p
  · rw [hqp] at hq hrest ⊢
    rcases hchanges.out_same rest hrest with ⟨todo, htodo, heq⟩
    rw [← heq]
    exact h p hq todo htodo
  · rw [hchanges.other q hqp] at hrest
    rw [hchanges.out_other q hqp]
    exact h q hq rest hrest

theorem Survives.of_left (hs : Inv c s) (h : (s.pc p).left ≠ none)
    (hrun : ¬ (s.pc p).Gone) : Survives c s := by
  refine ⟨p, ?_, h⟩
  apply Classical.not_not.mp
  intro hp
  exact hrun (hs.gone p hp)

theorem Survives.of_waits (ht : Inv c t) {r : Pid} {u : State} (h : Waits u p r)
    (hpc : u.pc p = t.pc p) : Survives c t := by
  rcases waits_iff.mp h with ⟨offset, region, todo, _, hwaiting, _⟩
  rw [hpc] at hwaiting
  apply Survives.of_left (p := p) ht
  · rw [hwaiting]
    exact fun h => by cases h
  · rw [hwaiting]
    rintro ⟨status, h⟩
    cases h

theorem Survives.of_same (h : Survives c s) (hchanges : Changes c p s t)
    (hp : (s.pc p).left ≠ none -> (t.pc p).left ≠ none) : Survives c t := by
  rcases h with ⟨q, hq, hleft⟩
  refine ⟨q, hq, ?_⟩
  by_cases hqp : q = p
  · rw [hqp] at hleft ⊢
    exact hp hleft
  · rw [hchanges.other q hqp]
    exact hleft

theorem grant_left {offset : Int} {r : Region} {todo : List Int} :
    ((grant s p offset r todo).pc p).left ≠ none := by
  have hpc : (grant s p offset r todo).pc p = Pc.running todo := goto_same _ p _
  rw [hpc]
  exact fun h => by cases h

theorem lockabyte_survives (hsound : c.Sound) (hs : Inv c s) (hacc : Accounted c s)
    (hsurvives : Survives c s) (h : lockabyte c s p = some t) : Survives c t := by
  have hchanges := lockabyte_changes hs.gone h
  have ht := hs.change hchanges
  unfold lockabyte at h
  split at h
  · next offset todo hpc =>
      have hmem : p ∈ c.procs := by
        apply Classical.not_not.mp
        intro hp
        exact hchanges.not_gone (hs.gone p hp)
      have hoffset : offset ∈ c.script p := by
        rw [← hacc p hmem (offset :: todo) (by rw [hpc]; rfl)]
        exact List.mem_append_right _ List.mem_cons_self
      rcases hsound.offset p hmem offset hoffset with ⟨hlo, hhi⟩
      rw [regionOf_byte hlo hhi] at h
      have hallows : c.file.allows LockType.F_WRLCK = true := hsound.writable
      rw [hallows] at h
      dsimp only at h
      rw [if_pos rfl] at h
      split at h
      · cases h
        exact hsurvives.of_same hchanges (fun _ => grant_left)
      · split at h
        · next hleads =>
            cases h
            rcases Relation.TransGen.head'_iff.mp (transGen_of_leads hleads) with
              ⟨r, hpr, hrp⟩
            have hne : r ≠ p := Waits.ne hpr
            rcases Relation.ReflTransGen.cases_head hrp with heq | ⟨x, hrx, _⟩
            · exact absurd heq hne
            · apply Survives.of_waits ht hrx
              rw [goto_other hne, goto_other hne]
        · cases h
          apply hsurvives.of_same hchanges
          intro _
          rw [goto_same]
          exact fun h => by cases h
  · cases h

theorem wake_survives (hsurvives : Survives c s) (h : wake s p = some t) :
    Survives c t := by
  have hchanges : Changes c p s t := wake_changes h
  unfold wake at h
  split at h
  · split at h
    · cases h
      exact hsurvives.of_same hchanges (fun _ => grant_left)
    · cases h
  · cases h

theorem exit_survives (hsurvives : Survives c s) (h : exit s p = some t) :
    Survives c t := by
  have hchanges : Changes c p s t := exit_changes h
  unfold exit at h
  split at h
  · cases h
    apply hsurvives.of_same hchanges
    intro _
    show ((goto _ p (Pc.exited 0)).pc p).left ≠ none
    rw [goto_same]
    exact fun h => by cases h
  · next hpc =>
      cases h
      apply hsurvives.of_same hchanges
      intro hleft
      rw [hpc] at hleft
      exact absurd rfl hleft
  · cases h

theorem step_survives (hsound : c.Sound) (hs : Inv c s) (hacc : Accounted c s)
    (hsurvives : Survives c s) (hC : NoError s l) (h : step c s l = some t) :
    Survives c t := by
  cases l with
  | lockabyte p => exact lockabyte_survives hsound hs hacc hsurvives h
  | wake p => exact wake_survives hsurvives h
  | error p => cases hC
  | exit p => exact exit_survives hsurvives h

theorem survives_of_reachable (hsound : c.Sound) (hne : c.procs ≠ [])
    (h : (machine c).ReachableUnder NoError s) :
    Inv c s ∧ Accounted c s ∧ Survives c s := by
  apply Machine.invariant_under (I := fun s => Inv c s ∧ Accounted c s ∧ Survives c s)
    _ _ h
  · intro s hs
    rw [hs]
    refine ⟨start_inv c, Accounted.start c, ?_⟩
    rcases List.exists_mem_of_ne_nil c.procs hne with ⟨p, hp⟩
    refine ⟨p, hp, ?_⟩
    rw [start_pc_of_mem hp]
    exact fun h => by cases h
  · rintro s l t ⟨hs, hacc, hsurvives⟩ hC hst
    rcases step_changes hs.gone hst with ⟨p, hchanges⟩
    exact ⟨hs.change hchanges, hacc.change hchanges,
      step_survives hsound hs hacc hsurvives hC hst⟩

end

theorem main_sound : main.Sound where
  writable := rfl
  offset p _ o ho := by
    have hmem : o = 0 ∨ o = 1 := by
      have hscript : o ∈ (if p = child then [0, 1] else [1, 0]) := ho
      split at hscript
      · simpa using hscript
      · simpa [or_comm] using hscript
    rcases hmem with heq | heq
    · rw [heq]
      decide
    · rw [heq]
      decide

end Lockabyte
end Apue
