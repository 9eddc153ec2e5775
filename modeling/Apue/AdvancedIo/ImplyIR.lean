import Apue.AdvancedIo.LockTable
import Apue.Foundation.Transition

/-!
# Implied inheritance and release of locks

The parent takes a read lock on the whole file and forks; the child, which does
not inherit the lock, waits for a write lock on the same descriptor.  The parent
opens the file once more and closes only this second descriptor, which takes away
the lock that it set through the first one.  Other processes may lock and unlock
the file in between.
-/

namespace Apue
namespace ImplyIR

open Foundation Filelock

inductive ParentPc where
  | readLock
  | fork
  | openAgain
  | close
  | print
  | exited (status : Nat)
  deriving Repr, DecidableEq

/-- The next call of the child; `print` says whether `writew_lock` got the lock,
which the program does not look at. -/
inductive ChildPc where
  | none
  | writewLock
  | print (locked : Bool)
  | exited
  deriving Repr, DecidableEq

structure State where
  locks : List Lock
  parent : ParentPc
  child : ChildPc
  deriving DecidableEq

/-- `ok` is the outcome of `fork`, of the second `open`, or of an `fcntl` that
nothing is in the way of. -/
inductive Label where
  | parent (ok : Bool)
  | child (ok : Bool)
  | other (p : Pid) (f : OpenFile) (type : Option LockType) (start whence len : Int)
  | otherExit (p : Pid)
  deriving DecidableEq

structure Setting where
  parent : Pid
  child : Pid
  tempfile : OpenFile
  apart : child ≠ parent
  mode : tempfile.readable = true ∧ tempfile.writable = true

/-- `read_lock(fd1, 0, SEEK_SET, 0)` -/
def read_lock (c : Setting) (locks : List Lock) : Int × List Lock :=
  setLock locks c.parent c.tempfile (some LockType.F_RDLCK) 0 0 0

def exit (s : State) (c : Setting) (status : Nat) : State :=
  { s with locks := release s.locks c.parent.1, parent := ParentPc.exited status }

def parent (c : Setting) (s : State) (ok : Bool) : Option State :=
  match s.parent with
  | ParentPc.readLock =>
      if ok ∧ (read_lock c s.locks).1 = 0 then
        some { s with locks := (read_lock c s.locks).2, parent := ParentPc.fork }
      else
        some (exit s c 1)
  | ParentPc.fork =>
      if ok then
        some { s with parent := ParentPc.openAgain, child := ChildPc.writewLock }
      else
        some (exit s c 1)
  | ParentPc.openAgain =>
      if ok then
        some { s with parent := ParentPc.close }
      else
        some (exit s c 1)
  | ParentPc.close =>
      -- `close(fd2)`: whatever the process has locked through any descriptor
      some { s with locks := release s.locks c.parent.1, parent := ParentPc.print }
  | ParentPc.print => some (exit s c 0)
  | ParentPc.exited _ => none

/-- `writew_lock(fd1, 0, SEEK_SET, 0)` waits, and may fail. -/
def child (c : Setting) (s : State) (ok : Bool) : Option State :=
  match s.child with
  | ChildPc.writewLock =>
      if ok then
        match setLock s.locks c.child c.tempfile (some LockType.F_WRLCK) 0 0 0 with
        | (0, locks) => some { s with locks := locks, child := ChildPc.print true }
        | _ => none
      else
        some { s with child := ChildPc.print false }
  | ChildPc.print _ =>
      some { s with locks := release s.locks c.child.1, child := ChildPc.exited }
  | _ => none

def other (c : Setting) (s : State) (p : Pid) (f : OpenFile) (type : Option LockType)
    (start whence len : Int) : Option State :=
  if p = c.parent ∨ p = c.child then
    none
  else
    some { s with locks := (setLock s.locks p f type start whence len).2 }

def otherExit (c : Setting) (s : State) (p : Pid) : Option State :=
  if p = c.parent ∨ p = c.child then
    none
  else
    some { s with locks := release s.locks p.1 }

def step (c : Setting) (s : State) : Label -> Option State
  | Label.parent ok => parent c s ok
  | Label.child ok => child c s ok
  | Label.other p f type start whence len => other c s p f type start whence len
  | Label.otherExit p => otherExit c s p

def start (c : Setting) (s : State) : Prop :=
  s.parent = ParentPc.readLock ∧ s.child = ChildPc.none ∧
    Exclusive s.locks ∧ Proper s.locks ∧
    forall l, l ∈ s.locks -> l.pid ≠ c.parent.1 ∧ l.pid ≠ c.child.1

def machine (c : Setting) : Machine State Label where
  init := start c
  step := step c

/-!
# Who holds what
-/

/-- The parent is between `read_lock` and the `close` of the second descriptor. -/
def ParentPc.locked : ParentPc -> Bool
  | ParentPc.fork => true
  | ParentPc.openAgain => true
  | ParentPc.close => true
  | _ => false

def ChildPc.locked : ChildPc -> Bool
  | ChildPc.print locked => locked
  | _ => false

/-- There is no child before `fork`. -/
def ParentPc.alone : ParentPc -> Bool
  | ParentPc.readLock => true
  | ParentPc.fork => true
  | _ => false

structure Inv (c : Setting) (s : State) : Prop where
  exclusive : Exclusive s.locks
  proper : Proper s.locks
  parent : forall b t, Holds s.locks c.parent.1 b t ↔
    s.parent.locked = true ∧ whole.Covers b ∧ t = LockType.F_RDLCK
  child : forall b t, Holds s.locks c.child.1 b t ↔
    s.child.locked = true ∧ whole.Covers b ∧ t = LockType.F_WRLCK
  alone : s.parent.alone = true -> s.child = ChildPc.none

section

variable {c : Setting} {s t : State}

theorem Setting.child_ne (c : Setting) : c.child.1 ≠ c.parent.1 :=
  fun heq => c.apart (Subtype.ext heq)

theorem not_holds_of_pid {locks : List Lock} {p : Nat} {b : Int} {u : LockType}
    (h : forall l, l ∈ locks -> l.pid ≠ p) : ¬ Holds locks p b u := by
  rintro ⟨l, hl, hpid, _⟩
  exact h l hl hpid

theorem start_inv (h : start c s) : Inv c s := by
  rcases h with ⟨hparent, hchild, hexclusive, hproper, hpids⟩
  refine ⟨hexclusive, hproper, ?_, ?_, fun _ => hchild⟩
  · intro b u
    rw [hparent]
    apply iff_of_false
    · exact not_holds_of_pid (fun l hl => (hpids l hl).1)
    · rintro ⟨hfalse, _⟩
      cases hfalse
  · intro b u
    rw [hchild]
    apply iff_of_false
    · exact not_holds_of_pid (fun l hl => (hpids l hl).2)
    · rintro ⟨hfalse, _⟩
      cases hfalse

theorem Inv.goto_parent {pc : ParentPc} (h : Inv c s)
    (hlocked : pc.locked = s.parent.locked) (halone : pc.alone = false) :
    Inv c { s with parent := pc } where
  exclusive := h.exclusive
  proper := h.proper
  parent b u := by
    show Holds s.locks _ _ _ ↔ pc.locked = true ∧ _
    rw [hlocked]
    exact h.parent b u
  child := h.child
  alone htrue := by
    rw [show pc.alone = true from htrue] at halone
    cases halone

theorem Inv.release_parent {pc : ParentPc} (h : Inv c s) (hlocked : pc.locked = false)
    (halone : pc.alone = false) :
    Inv c { s with locks := release s.locks c.parent.1, parent := pc } where
  exclusive := h.exclusive.release
  proper := h.proper.release
  parent b u := by
    rw [holds_release]
    apply iff_of_false
    · rintro ⟨_, hne⟩
      exact hne rfl
    · rintro ⟨htrue, _⟩
      rw [show pc.locked = true from htrue] at hlocked
      cases hlocked
  child b u := by
    rw [holds_release, and_iff_left c.child_ne]
    exact h.child b u
  alone htrue := by
    rw [show pc.alone = true from htrue] at halone
    cases halone

theorem Inv.read_lock (h : Inv c s) (hpc : s.parent = ParentPc.readLock)
    (hret : (read_lock c s.locks).1 = 0) :
    Inv c { s with locks := (read_lock c s.locks).2, parent := ParentPc.fork } where
  exclusive := h.exclusive.setLock
  proper := h.proper.setLock
  parent b u := by
    have hbefore : forall b u, ¬ Holds s.locks c.parent.1 b u := by
      intro b u
      rw [h.parent b u, hpc]
      rintro ⟨hfalse, _⟩
      cases hfalse
    show Holds (ImplyIR.read_lock c s.locks).2 _ _ _ ↔ true = true ∧ _
    unfold ImplyIR.read_lock at hret ⊢
    rw [holds_setLock_self (regionOf_whole _) hbefore hret, eq_self_iff_true, true_and]
  child b u := by
    show Holds (ImplyIR.read_lock c s.locks).2 _ _ _ ↔ _
    unfold ImplyIR.read_lock
    rw [holds_setLock_other c.child_ne]
    exact h.child b u
  alone _ := h.alone (by rw [hpc]; rfl)

theorem Inv.parent_step {ok : Bool} (h : Inv c s) (hstep : ImplyIR.parent c s ok = some t) :
    Inv c t := by
  unfold ImplyIR.parent at hstep
  split at hstep
  · next hpc =>
      split at hstep
      · next hret =>
          cases hstep
          exact h.read_lock hpc hret.2
      · cases hstep
        exact h.release_parent rfl rfl
  · next hpc =>
      split at hstep
      · cases hstep
        have hnone : s.child = ChildPc.none := h.alone (by rw [hpc]; rfl)
        have hnew : Inv c { s with parent := ParentPc.openAgain } :=
          h.goto_parent (by rw [hpc]; rfl) rfl
        refine ⟨hnew.exclusive, hnew.proper, hnew.parent, ?_, nofun⟩
        intro b u
        rw [h.child b u, hnone]
        rfl
      · cases hstep
        exact h.release_parent rfl rfl
  · next hpc =>
      split at hstep
      · cases hstep
        exact h.goto_parent (by rw [hpc]; rfl) rfl
      · cases hstep
        exact h.release_parent rfl rfl
  · cases hstep
    exact h.release_parent rfl rfl
  · cases hstep
    exact h.release_parent rfl rfl
  · cases hstep

theorem Inv.of_child {pc : ChildPc} {locks : List Lock} (h : Inv c s)
    (halone : s.parent.alone = false) (hexclusive : Exclusive locks)
    (hproper : Proper locks)
    (hparent : forall b u, Holds locks c.parent.1 b u ↔ Holds s.locks c.parent.1 b u)
    (hchild : forall b u, Holds locks c.child.1 b u ↔
      pc.locked = true ∧ whole.Covers b ∧ u = LockType.F_WRLCK) :
    Inv c { s with locks := locks, child := pc } where
  exclusive := hexclusive
  proper := hproper
  parent b u := (hparent b u).trans (h.parent b u)
  child := hchild
  alone htrue := by
    rw [show s.parent.alone = true from htrue] at halone
    cases halone

theorem Inv.child_step {ok : Bool} (h : Inv c s) (hstep : ImplyIR.child c s ok = some t) :
    Inv c t := by
  have halone : s.child ≠ ChildPc.none -> s.parent.alone = false := by
    intro hchild
    exact Bool.eq_false_iff.mpr (fun htrue => hchild (h.alone htrue))
  unfold ImplyIR.child at hstep
  split at hstep
  · next hpc =>
      have hbefore : forall b u, ¬ Holds s.locks c.child.1 b u := by
        intro b u
        rw [h.child b u, hpc]
        rintro ⟨hfalse, _⟩
        cases hfalse
      split at hstep
      · split at hstep
        · next locks heq =>
            cases hstep
            have hlocks : locks =
                (setLock s.locks c.child c.tempfile (some LockType.F_WRLCK) 0 0 0).2 := by
              rw [heq]
            apply h.of_child (halone (by rw [hpc]; nofun))
            · rw [hlocks]
              exact h.exclusive.setLock
            · rw [hlocks]
              exact h.proper.setLock
            · intro b u
              rw [hlocks]
              exact holds_setLock_other c.child_ne.symm
            · intro b u
              have hret : (setLock s.locks c.child c.tempfile (some LockType.F_WRLCK) 0 0 0).1 =
                  0 := by
                rw [heq]
              rw [hlocks, holds_setLock_self (regionOf_whole _) hbefore hret]
              show _ ↔ true = true ∧ _
              rw [eq_self_iff_true, true_and]
        · cases hstep
      · cases hstep
        apply h.of_child (halone (by rw [hpc]; nofun)) h.exclusive h.proper
        · exact fun b u => Iff.rfl
        · intro b u
          apply iff_of_false (hbefore b u)
          rintro ⟨hfalse, _⟩
          cases hfalse
  · next hpc =>
      cases hstep
      apply h.of_child (halone (by rw [hpc]; nofun)) h.exclusive.release h.proper.release
      · intro b u
        rw [holds_release, and_iff_left c.child_ne.symm]
      · intro b u
        rw [holds_release]
        apply iff_of_false
        · exact fun hold => hold.2 rfl
        · rintro ⟨hfalse, _⟩
          cases hfalse
  · cases hstep

theorem Inv.of_other {locks : List Lock} (h : Inv c s) (hexclusive : Exclusive locks)
    (hproper : Proper locks)
    (hsame : forall q, q = c.parent ∨ q = c.child -> forall b u,
      Holds locks q.1 b u ↔ Holds s.locks q.1 b u) :
    Inv c { s with locks := locks } where
  exclusive := hexclusive
  proper := hproper
  parent b u := (hsame c.parent (Or.inl rfl) b u).trans (h.parent b u)
  child b u := (hsame c.child (Or.inr rfl) b u).trans (h.child b u)
  alone := h.alone

theorem Inv.after {l : Label} (h : Inv c s) (hstep : step c s l = some t) : Inv c t := by
  cases l with
  | parent ok => exact h.parent_step hstep
  | child ok => exact h.child_step hstep
  | other p f type start whence len =>
      have hother : ImplyIR.other c s p f type start whence len = some t := hstep
      unfold ImplyIR.other at hother
      split at hother
      · cases hother
      · next hp =>
          cases hother
          apply h.of_other h.exclusive.setLock h.proper.setLock
          intro q hq b u
          apply holds_setLock_other
          intro heq
          rw [show q = p from Subtype.ext heq] at hq
          exact hp hq
  | otherExit p =>
      have hother : ImplyIR.otherExit c s p = some t := hstep
      unfold ImplyIR.otherExit at hother
      split at hother
      · cases hother
      · next hp =>
          cases hother
          apply h.of_other h.exclusive.release h.proper.release
          intro q hq b u
          rw [holds_release]
          apply and_iff_left
          intro heq
          rw [show q = p from Subtype.ext heq] at hq
          exact hp hq

theorem reachable_inv (h : (machine c).Reachable s) : Inv c s :=
  Machine.invariant (I := Inv c) (fun _ hs => start_inv hs)
    (fun _ _ _ hu hst => hu.after hst) h

/-!
# The lock of the child
-/

theorem Inv.apart (h : Inv c s) (hchild : s.child.locked = true) {q : Nat} {b : Int}
    {u : LockType} (hne : q ≠ c.child.1) (hb : whole.Covers b) :
    ¬ Holds s.locks q b u := by
  intro hold
  have hmine := (h.child b LockType.F_WRLCK).mpr ⟨hchild, hb, rfl⟩
  have hread := (h.exclusive q c.child.1 b u LockType.F_WRLCK hold hmine hne).2
  cases hread

theorem Inv.parent_unlocked (h : Inv c s) (hchild : s.child.locked = true) :
    s.parent.locked = false := by
  apply Bool.eq_false_iff.mpr
  intro hparent
  have hb : whole.Covers 0 := by
    unfold Region.Covers whole OFFSET_MAX
    lia
  exact h.apart hchild c.child_ne.symm hb
    ((h.parent 0 LockType.F_RDLCK).mpr ⟨hparent, hb, rfl⟩)

theorem Inv.child_eq_none_iff (h : Inv c s) (hchild : s.child = ChildPc.writewLock) :
    ImplyIR.child c s true = none ↔
      exists q b u, q ≠ c.child.1 ∧ whole.Covers b ∧ Holds s.locks q b u := by
  have hfree := @free_writing_iff s.locks c.child.1 whole (by decide) h.proper
  unfold ImplyIR.child
  rw [hchild]
  dsimp only
  rw [if_pos rfl]
  rcases setLock_cases s.locks c.child c.tempfile (some LockType.F_WRLCK) 0 0 0 with
    heq | ⟨r, hnone, _⟩ | ⟨r, v, hv, hr, hfreeIn, heq⟩
  · rw [heq]
    apply iff_of_true rfl
    apply Classical.not_not.mp
    intro hno
    have hall : Free s.locks c.child.1 LockType.F_WRLCK whole := by
      apply hfree.mpr
      intro q b u hne hb hold
      exact hno ⟨q, b, u, hne, hb, hold⟩
    unfold setLock at heq
    rw [regionOf_whole] at heq
    dsimp only at heq
    rw [if_pos ⟨c.mode.2, hall⟩] at heq
    cases heq
  · cases hnone
  · cases hv
    cases hr
    rw [heq]
    apply iff_of_false nofun
    rintro ⟨q, b, u, hne, hb, hold⟩
    exact hfree.mp hfreeIn q b u hne hb hold

end

/-- The parent holds its read lock from `read_lock` to the `close` of the second
descriptor, though the first one stays open; the child has its lock only after
that, and then nobody else has a lock on the file. -/
theorem implied_release {c : Setting} {s : State} (h : (machine c).Reachable s) :
    (forall b u, Holds s.locks c.parent.1 b u ↔
      s.parent.locked = true ∧ whole.Covers b ∧ u = LockType.F_RDLCK) ∧
    (s.child.locked = true -> s.parent.locked = false ∧
      forall q b u, q ≠ c.child.1 -> whole.Covers b -> ¬ Holds s.locks q b u) := by
  have hinv := reachable_inv h
  refine ⟨hinv.parent, ?_⟩
  intro hchild
  refine ⟨hinv.parent_unlocked hchild, ?_⟩
  intro q b u hne hb
  exact hinv.apart hchild hne hb

def main : Setting where
  parent := ⟨400, by decide⟩
  child := ⟨401, by decide⟩
  tempfile := { readable := true, writable := true, offset := 0, size := 0 }
  apart := by decide
  mode := ⟨rfl, rfl⟩

def begin (locks : List Lock) : State where
  locks := locks
  parent := ParentPc.readLock
  child := ChildPc.none

theorem begin_reachable {locks : List Lock} (hexclusive : Exclusive locks)
    (hproper : Proper locks)
    (hpids : forall l, l ∈ locks -> l.pid ≠ main.parent.1 ∧ l.pid ≠ main.child.1) :
    (machine main).Reachable (begin locks) :=
  Machine.ReachableUnder.init ⟨rfl, rfl, hexclusive, hproper, hpids⟩

def schedule : List Label :=
  [Label.parent true, Label.parent true, Label.parent true, Label.parent true,
    Label.child true]

theorem implied_release_main :
    exists s, (machine main).run (begin []) schedule = some s ∧
      s.parent = ParentPc.print ∧ ¬ Holds s.locks 400 0 LockType.F_RDLCK := by
  refine ⟨_, rfl, rfl, ?_⟩
  have hbegin : (machine main).Reachable (begin []) :=
    begin_reachable Exclusive.nil (fun _ hl => nomatch hl) (fun _ hl => nomatch hl)
  have hreachable := Machine.reachable_of_run hbegin
    (show (machine main).run (begin []) schedule = some _ from rfl)
  exact ((implied_release hreachable).2 rfl).2 400 0 _ (by decide) (by decide)

/-- The two processes are stuck when they are over, or when the child waits for a
lock of a third process; it never waits for its parent for good. -/
theorem stuck_iff {c : Setting} {s : State} (h : (machine c).Reachable s) :
    (step c s (Label.parent true) = none ∧ step c s (Label.child true) = none) ↔
      (exists status, s.parent = ParentPc.exited status) ∧
        (s.child = ChildPc.none ∨ s.child = ChildPc.exited ∨
          (s.child = ChildPc.writewLock ∧
            exists q b u, q ≠ c.parent.1 ∧ q ≠ c.child.1 ∧ whole.Covers b ∧
              Holds s.locks q b u)) := by
  have hinv := reachable_inv h
  constructor
  · rintro ⟨hparent, hchild⟩
    have hexited : exists status, s.parent = ParentPc.exited status := by
      have hnone : parent c s true = none := hparent
      unfold parent at hnone
      cases hpc : s.parent with
      | exited status => exact ⟨status, rfl⟩
      | readLock =>
          rw [hpc] at hnone
          dsimp only at hnone
          split at hnone <;> cases hnone
      | _ =>
          rw [hpc] at hnone
          cases hnone
    refine ⟨hexited, ?_⟩
    rcases hexited with ⟨status, hexited⟩
    have hnone : child c s true = none := hchild
    cases hpc : s.child with
    | none => exact Or.inl rfl
    | exited => exact Or.inr (Or.inl rfl)
    | print locked =>
        unfold child at hnone
        rw [hpc] at hnone
        cases hnone
    | writewLock =>
        rcases (hinv.child_eq_none_iff hpc).mp hnone with ⟨q, b, u, hne, hb, hold⟩
        refine Or.inr (Or.inr ⟨rfl, q, b, u, ?_, hne, hb, hold⟩)
        intro heq
        rw [heq, hinv.parent b u, hexited] at hold
        cases hold.1
  · rintro ⟨⟨status, hexited⟩, hchild⟩
    constructor
    · show parent c s true = none
      unfold parent
      rw [hexited]
    · show child c s true = none
      rcases hchild with hpc | hpc | ⟨hpc, q, b, u, _, hne, hb, hold⟩
      · unfold child
        rw [hpc]
      · unfold child
        rw [hpc]
      · exact (hinv.child_eq_none_iff hpc).mpr ⟨q, b, u, hne, hb, hold⟩

/-- A read lock of a third process does not disturb the parent, and keeps the child
waiting. -/
def third : Lock := lockOf ⟨402, by decide⟩ LockType.F_RDLCK whole

def readers : List Label :=
  [Label.parent true, Label.parent true, Label.parent true, Label.parent true,
    Label.parent true]

theorem stuck_iff_third :
    exists s, (machine main).run (begin [third]) readers = some s ∧
      step main s (Label.child true) = none := by
  refine ⟨_, rfl, ?_⟩
  have hexclusive : Exclusive [third] := by
    intro p q b u v hp hq hne
    rcases hp with ⟨l, hl, hpid, _⟩
    rcases hq with ⟨m, hm, hqid, _⟩
    rw [List.mem_singleton.mp hl] at hpid
    rw [List.mem_singleton.mp hm] at hqid
    exact absurd (hpid.symm.trans hqid) hne
  have hproper : Proper [third] := by
    intro l hl
    rw [List.mem_singleton.mp hl]
    decide
  have hpids : forall l, l ∈ [third] -> l.pid ≠ main.parent.1 ∧ l.pid ≠ main.child.1 := by
    intro l hl
    rw [List.mem_singleton.mp hl]
    decide
  have hreachable := Machine.reachable_of_run (begin_reachable hexclusive hproper hpids)
    (show (machine main).run (begin [third]) readers = some _ from rfl)
  apply ((stuck_iff hreachable).mpr _).2
  refine ⟨⟨0, rfl⟩, Or.inr (Or.inr ⟨rfl, 402, 0, LockType.F_RDLCK, by decide, by decide,
    by decide, ?_⟩)⟩
  exact ⟨third, List.mem_singleton.mpr rfl, rfl, by decide, rfl⟩

end ImplyIR
end Apue
