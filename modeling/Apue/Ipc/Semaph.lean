import Apue.Foundation.Transition
import Mathlib.Logic.Function.Basic

/-!
# One semaphore for several programs

Each instance of the program opens the semaphore set with a fixed key or creates
it, sets its only semaphore to 1, and forks.  Both processes then take the
semaphore and give it back, and the parent removes the set in the end.  A set
that was removed is gone for those who still know its number, and the key then
leads to a new set.  The kernel keeps an adjustment for each process that uses
`SEM_UNDO` and adds it to the semaphore when the process exits; `SETVAL` clears
the adjustments.
-/

namespace Apue
namespace Semaph

open Foundation

abbrev Pid := Nat
abbrev SemId := Nat

def SEMVMX : Nat := 32767

structure SemSet where
  semid : SemId
  val : Nat
  adj : Pid -> Int

/-- The next system call of a process, with the number of the set that it uses;
the parent also knows its child.  `inside` is between the two `semop`s, and so
is `failing`, where the second one has failed and the process is about to exit.
A process number that nobody has is `absent`. -/
inductive Pc where
  | absent
  | semget
  | setval (semid : SemId)
  | fork (semid : SemId)
  | down (semid : SemId) (child : Option Pid)
  | inside (semid : SemId) (child : Option Pid)
  | failing (semid : SemId)
  | waiting (semid : SemId) (child : Pid)
  | removing (semid : SemId)
  | exiting
  deriving Repr, DecidableEq

structure State where
  set : Option SemSet
  next : SemId
  pc : Pid -> Pc

/-- A process takes its next step; `ok` tells whether the system call does what
it is called for, `child` is what `fork` returns.  A process may exit, or be
killed, anywhere. -/
inductive Label where
  | spawn (pid : Pid)
  | semget (pid : Pid) (ok : Bool)
  | setval (pid : Pid) (ok : Bool)
  | fork (pid : Pid) (child : Option Pid)
  | down (pid : Pid) (ok : Bool)
  | up (pid : Pid) (ok : Bool)
  | waitpid (pid : Pid) (ok : Bool)
  | rmid (pid : Pid) (ok : Bool)
  | exit (pid : Pid)
  deriving Repr, DecidableEq

def goto (s : State) (pid : Pid) (pc : Pc) : State :=
  { s with pc := Function.update s.pc pid pc }

def lookup (s : State) (semid : SemId) : Option SemSet :=
  match s.set with
  | none => none
  | some set => if set.semid = semid then some set else none

def spawn (s : State) (pid : Pid) : Option State :=
  match s.pc pid with
  | Pc.absent => some (goto s pid Pc.semget)
  | _ => none

/-- `semget(key, 1, IPC_CREAT | 0666)`; a new semaphore is 0. -/
def semget (s : State) (pid : Pid) (ok : Bool) : Option State :=
  match s.pc pid with
  | Pc.semget =>
      if ok then
        match s.set with
        | some set => some (goto s pid (Pc.setval set.semid))
        | none =>
            some (goto
              { s with
                set := some { semid := s.next, val := 0, adj := fun _ => 0 }
                next := s.next + 1 }
              pid (Pc.setval s.next))
      else
        some (goto s pid Pc.exiting)
  | _ => none

/-- `semctl(semid, 0, SETVAL, 1)`. -/
def setval (s : State) (pid : Pid) (ok : Bool) : Option State :=
  match s.pc pid with
  | Pc.setval semid =>
      match lookup s semid, ok with
      | some set, true =>
          some (goto
            { s with set := some { set with val := 1, adj := fun _ => 0 } }
            pid (Pc.fork semid))
      | _, _ => some (goto s pid Pc.exiting)
  | _ => none

def fork (s : State) (pid : Pid) (child : Option Pid) : Option State :=
  match s.pc pid, child with
  | Pc.fork _, none => some (goto s pid Pc.exiting)
  | Pc.fork semid, some child =>
      if s.pc child = Pc.absent then
        some (goto (goto s child (Pc.down semid none)) pid
          (Pc.down semid (some child)))
      else
        none
  | _, _ => none

/-- `semop` with -1 waits while the semaphore is 0. -/
def down (s : State) (pid : Pid) (ok : Bool) : Option State :=
  match s.pc pid with
  | Pc.down semid child =>
      match lookup s semid, ok with
      | some set, true =>
          if 0 < set.val then
            some (goto
              { s with
                set := some
                  { set with
                    val := set.val - 1
                    adj := Function.update set.adj pid (set.adj pid + 1) } }
              pid (Pc.inside semid child))
          else
            none
      | _, _ => some (goto s pid Pc.exiting)
  | _ => none

def afterUp (semid : SemId) : Option Pid -> Pc
  | none => Pc.exiting
  | some child => Pc.waiting semid child

/-- `semop` with 1. -/
def up (s : State) (pid : Pid) (ok : Bool) : Option State :=
  match s.pc pid with
  | Pc.inside semid child =>
      match lookup s semid, ok with
      | some set, true =>
          if set.val < SEMVMX then
            some (goto
              { s with
                set := some
                  { set with
                    val := set.val + 1
                    adj := Function.update set.adj pid (set.adj pid - 1) } }
              pid (afterUp semid child))
          else
            some (goto s pid (Pc.failing semid))
      | _, _ => some (goto s pid (Pc.failing semid))
  | _ => none

def waitpid (s : State) (pid : Pid) (ok : Bool) : Option State :=
  match s.pc pid with
  | Pc.waiting semid child =>
      if ok then
        if s.pc child = Pc.absent then
          some (goto s pid (Pc.removing semid))
        else
          none
      else
        some (goto s pid Pc.exiting)
  | _ => none

/-- `semctl(semid, 0, IPC_RMID)`. -/
def rmid (s : State) (pid : Pid) (ok : Bool) : Option State :=
  match s.pc pid with
  | Pc.removing semid =>
      match lookup s semid, ok with
      | some _, true => some (goto { s with set := none } pid Pc.exiting)
      | _, _ => some (goto s pid Pc.exiting)
  | _ => none

/-- The adjustment of a process that exits, within the range of a semaphore. -/
def undo (set : SemSet) (pid : Pid) : SemSet :=
  { set with
    val := (max 0 (min (set.val + set.adj pid) SEMVMX)).toNat
    adj := Function.update set.adj pid 0 }

def exit (s : State) (pid : Pid) : Option State :=
  match s.pc pid with
  | Pc.absent => none
  | _ =>
      some (goto { s with set := s.set.map (fun set => undo set pid) } pid
        Pc.absent)

def step (s : State) : Label -> Option State
  | Label.spawn pid => spawn s pid
  | Label.semget pid ok => semget s pid ok
  | Label.setval pid ok => setval s pid ok
  | Label.fork pid child => fork s pid child
  | Label.down pid ok => down s pid ok
  | Label.up pid ok => up s pid ok
  | Label.waitpid pid ok => waitpid s pid ok
  | Label.rmid pid ok => rmid s pid ok
  | Label.exit pid => exit s pid

/-- At first no process runs; a set may be left over, with any value. -/
structure Start (s : State) : Prop where
  pc : forall pid, s.pc pid = Pc.absent
  set : forall set, s.set = some set ->
    set.semid < s.next ∧ forall pid, set.adj pid = 0

def machine : Machine State Label where
  init := Start
  step := step

def Pc.insideOf : Pc -> Option SemId
  | Pc.inside semid _ => some semid
  | Pc.failing semid => some semid
  | _ => none

/-- Which sets count as the same semaphore: a set only itself, or all the sets
that the key has ever led to. -/
structure Sameness where
  same : SemId -> SemId -> Prop
  refl : forall a, same a a
  symm : forall a b, same a b -> same b a

def bySet : Sameness where
  same a b := a = b
  refl _ := rfl
  symm _ _ h := h.symm

def byKey : Sameness where
  same _ _ := True
  refl _ := trivial
  symm _ _ _ := trivial

section Sameness

variable (r : Sameness)

/-- At most one process is between its two `semop`s. -/
def Exclusive (s : State) : Prop :=
  forall p q i j, (s.pc p).insideOf = some i -> (s.pc q).insideOf = some j ->
    r.same i j -> p = q

/-- The step does not set a semaphore while a process is between its two
`semop`s on it. -/
def NoReset (s : State) (l : Label) : Prop :=
  forall pid set, l = Label.setval pid true ->
    s.pc pid = Pc.setval set.semid -> s.set = some set ->
    forall q i, (s.pc q).insideOf = some i -> ¬ r.same i set.semid

end Sameness

/-!
# The invariant
-/

/-- The set that a process has set to 1, itself or before it was forked, as long
as it may still use it. -/
def Pc.readyOn : Pc -> Option SemId
  | Pc.fork semid => some semid
  | Pc.down semid _ => some semid
  | Pc.inside semid _ => some semid
  | Pc.failing semid => some semid
  | _ => none

theorem Pc.ready_of_inside {pc : Pc} {i : SemId} (h : pc.insideOf = some i) :
    pc.readyOn = some i := by
  cases pc with
  | inside semid child => exact h
  | failing semid => exact h
  | _ => cases h

theorem Pc.outside_of_not_ready {pc : Pc} (h : pc.readyOn = none) :
    pc.insideOf = none := by
  cases hin : pc.insideOf with
  | none => rfl
  | some i =>
      rw [Pc.ready_of_inside hin] at h
      cases h

/-- The value is 1 or 0, and 0 while a process is between its two `semop`s. -/
structure Level (r : Sameness) (s : State) (set : SemSet) : Prop where
  le_one : set.val ≤ 1
  taken : forall q i, (s.pc q).insideOf = some i -> r.same i set.semid ->
    set.val = 0

/-- What holds of the set behind the key; the value is only known once some
process has set it. -/
structure SetInv (r : Sameness) (s : State) (set : SemSet) : Prop where
  level : forall p, (s.pc p).readyOn = some set.semid -> Level r s set
  adj : forall p, set.adj p =
    if (s.pc p).insideOf = some set.semid then 1 else 0
  old : set.semid < s.next

structure Inv (r : Sameness) (s : State) : Prop where
  exclusive : Exclusive r s
  set : forall set, s.set = some set -> SetInv r s set
  old : forall p i, (s.pc p).readyOn = some i -> i < s.next

theorem goto_same (s : State) (pid : Pid) (pc : Pc) :
    (goto s pid pc).pc pid = pc := by
  simp [goto]

theorem goto_other {s : State} {pid q : Pid} (pc : Pc) (h : q ≠ pid) :
    (goto s pid pc).pc q = s.pc q := by
  simp [goto, h]

/-- A process of which something is known after a step is the one that took the
step, or it was so before. -/
theorem goto_cases {s : State} {pid q : Pid} {pc : Pc}
    {f : Pc -> Option SemId} {i : SemId}
    (h : f ((goto s pid pc).pc q) = some i) :
    (q = pid ∧ f pc = some i) ∨ (q ≠ pid ∧ f (s.pc q) = some i) := by
  by_cases hq : q = pid
  · rw [hq, goto_same] at h
    exact Or.inl ⟨hq, h⟩
  · rw [goto_other pc hq] at h
    exact Or.inr ⟨hq, h⟩

theorem lookup_some {s : State} {semid : SemId} {set : SemSet}
    (h : lookup s semid = some set) : s.set = some set ∧ set.semid = semid := by
  unfold lookup at h
  split at h
  · cases h
  · next set' hset =>
      split at h
      · next heq =>
          cases h
          exact ⟨hset, heq⟩
      · cases h

section Steps

variable {r : Sameness} {s : State} {pid : Pid}

/-- When one process moves without entering or leaving, and others could already
use the set that it can use now, nothing changes. -/
theorem Inv.move (h : Inv r s) {pc : Pc}
    (hinside : pc.insideOf = (s.pc pid).insideOf)
    (hready : forall i, pc.readyOn = some i ->
      exists q, (s.pc q).readyOn = some i) :
    Inv r (goto s pid pc) := by
  have hsame : forall q,
      ((goto s pid pc).pc q).insideOf = (s.pc q).insideOf := by
    intro q
    by_cases hq : q = pid
    · rw [hq, goto_same, hinside]
    · rw [goto_other pc hq]
  have hsome : forall q i, ((goto s pid pc).pc q).readyOn = some i ->
      exists q, (s.pc q).readyOn = some i := by
    intro q i hq
    rcases goto_cases hq with ⟨_, hnew⟩ | ⟨_, hold⟩
    · exact hready i hnew
    · exact ⟨q, hold⟩
  constructor
  · intro p q i j hp hq
    rw [hsame] at hp hq
    exact h.exclusive p q i j hp hq
  · intro set hset
    have hinv := h.set set hset
    constructor
    · intro p hp
      rcases hsome p set.semid hp with ⟨q, hq⟩
      refine ⟨(hinv.level q hq).le_one, ?_⟩
      intro q' i hin
      rw [hsame] at hin
      exact (hinv.level q hq).taken q' i hin
    · intro p
      rw [hsame]
      exact hinv.adj p
    · exact hinv.old
  · intro p i hp
    rcases hsome p i hp with ⟨q, hq⟩
    exact h.old q i hq

theorem Inv.leave (h : Inv r s) {pc : Pc} (hpc : pc.readyOn = none)
    (hother : forall set, s.set = some set ->
      (s.pc pid).insideOf ≠ some set.semid) :
    Inv r (goto s pid pc) := by
  have hout := Pc.outside_of_not_ready hpc
  have hinside : forall q i, ((goto s pid pc).pc q).insideOf = some i ->
      (s.pc q).insideOf = some i := by
    intro q i hq
    rcases goto_cases hq with ⟨_, hnew⟩ | ⟨_, hold⟩
    · rw [hout] at hnew
      cases hnew
    · exact hold
  have hready : forall q i, ((goto s pid pc).pc q).readyOn = some i ->
      (s.pc q).readyOn = some i := by
    intro q i hq
    rcases goto_cases hq with ⟨_, hnew⟩ | ⟨_, hold⟩
    · rw [hpc] at hnew
      cases hnew
    · exact hold
  constructor
  · intro p q i j hp hq
    exact h.exclusive p q i j (hinside p i hp) (hinside q j hq)
  · intro set hset
    have hinv := h.set set hset
    constructor
    · intro p hp
      have hlevel := hinv.level p (hready p _ hp)
      exact ⟨hlevel.le_one, fun q i hq => hlevel.taken q i (hinside q i hq)⟩
    · intro p
      by_cases hp : p = pid
      · rw [hp, goto_same, hout, hinv.adj pid, if_neg (hother set hset)]
        rfl
      · rw [goto_other pc hp]
        exact hinv.adj p
    · exact hinv.old
  · intro p i hp
    exact h.old p i (hready p i hp)

theorem Inv.rest (h : Inv r s) {pc : Pc}
    (hinside : (s.pc pid).insideOf = none) (hpc : pc.readyOn = none) :
    Inv r (goto s pid pc) := by
  apply h.leave hpc
  intro set _
  rw [hinside]
  exact (Option.some_ne_none _).symm

theorem Inv.spawn {t : State} (h : Inv r s) (ht : spawn s pid = some t) :
    Inv r t := by
  unfold Semaph.spawn at ht
  split at ht
  · next hpc =>
      cases ht
      exact h.rest (by rw [hpc]; rfl) rfl
  · cases ht

theorem Inv.create (h : Inv r s) :
    Inv r
      { s with
        set := some { semid := s.next, val := 0, adj := fun _ => 0 }
        next := s.next + 1 } := by
  have hnew : forall p, (s.pc p).readyOn ≠ some s.next := by
    intro p hp
    exact absurd (h.old p s.next hp) (Nat.lt_irrefl _)
  constructor
  · exact h.exclusive
  · intro set hset
    cases hset
    constructor
    · intro p hp
      exact absurd hp (hnew p)
    · intro p
      rw [if_neg]
      intro hin
      exact hnew p (Pc.ready_of_inside hin)
    · exact Nat.lt_succ_self _
  · intro p i hp
    exact Nat.lt_succ_of_lt (h.old p i hp)

theorem Inv.semget {t : State} {ok : Bool} (h : Inv r s)
    (ht : semget s pid ok = some t) : Inv r t := by
  unfold Semaph.semget at ht
  split at ht
  · next hpc =>
      have hinside : (s.pc pid).insideOf = none := by rw [hpc]; rfl
      cases ok with
      | false =>
          cases ht
          exact h.rest hinside rfl
      | true =>
          cases hset : s.set with
          | none =>
              rw [hset] at ht
              cases ht
              exact h.create.rest hinside rfl
          | some set =>
              rw [hset] at ht
              cases ht
              exact h.rest hinside rfl
  · cases ht

theorem Inv.reset (h : Inv r s) {set : SemSet} (hset : s.set = some set)
    (hfree : forall q i, (s.pc q).insideOf = some i -> ¬ r.same i set.semid)
    (hpc : (s.pc pid).insideOf = none) :
    Inv r
      (goto { s with set := some { set with val := 1, adj := fun _ => 0 } } pid
        (Pc.fork set.semid)) := by
  have hinside : forall q,
      ((goto { s with set := some { set with val := 1, adj := fun _ => 0 } } pid
        (Pc.fork set.semid)).pc q).insideOf = (s.pc q).insideOf := by
    intro q
    by_cases hq : q = pid
    · rw [hq, goto_same, hpc]
      rfl
    · rw [goto_other _ hq]
  constructor
  · intro p q i j hp hq
    rw [hinside] at hp hq
    exact h.exclusive p q i j hp hq
  · intro set' hset'
    cases hset'
    constructor
    · intro p _
      refine ⟨Nat.le_refl 1, ?_⟩
      intro q i hin hsame
      rw [hinside] at hin
      exact absurd hsame (hfree q i hin)
    · intro p
      rw [hinside, if_neg]
      intro hin
      exact hfree p set.semid hin (r.refl set.semid)
    · exact (h.set set hset).old
  · intro p i hp
    rcases goto_cases hp with ⟨_, hnew⟩ | ⟨_, hold⟩
    · cases hnew
      exact (h.set set hset).old
    · exact h.old p i hold

theorem Inv.setval {t : State} {ok : Bool} (h : Inv r s)
    (hC : NoReset r s (Label.setval pid ok)) (ht : setval s pid ok = some t) :
    Inv r t := by
  unfold Semaph.setval at ht
  split at ht
  · next semid hpc =>
      have hinside : (s.pc pid).insideOf = none := by rw [hpc]; rfl
      split at ht
      · next set hlookup =>
          cases ht
          rcases lookup_some hlookup with ⟨hset, heq⟩
          rw [← heq] at hpc ⊢
          exact h.reset hset (hC pid set rfl hpc hset) hinside
      · cases ht
        exact h.rest hinside rfl
  · cases ht

theorem Inv.fork {t : State} {child : Option Pid} (h : Inv r s)
    (ht : fork s pid child = some t) : Inv r t := by
  unfold Semaph.fork at ht
  split at ht
  · next semid hpc =>
      cases ht
      exact h.rest (by rw [hpc]; rfl) rfl
  · next semid child hpc =>
      split at ht
      · next habsent =>
          cases ht
          have hne : pid ≠ child := by
            intro heq
            rw [heq, habsent] at hpc
            cases hpc
          have hchild : Inv r (goto s child (Pc.down semid none)) := by
            apply h.move
            · rw [habsent]
              rfl
            · intro i hi
              exact ⟨pid, by rw [hpc]; exact hi⟩
          apply hchild.move
          · rw [goto_other _ hne, hpc]
            rfl
          · intro i hi
            exact ⟨pid, by rw [goto_other _ hne, hpc]; exact hi⟩
      · cases ht
  · cases ht

theorem Inv.enter (h : Inv r s) {set : SemSet} {child : Option Pid}
    (hset : s.set = some set) (hpc : s.pc pid = Pc.down set.semid child)
    (hpos : 0 < set.val) :
    Inv r
      (goto
        { s with
          set := some
            { set with
              val := set.val - 1
              adj := Function.update set.adj pid (set.adj pid + 1) } }
        pid (Pc.inside set.semid child)) := by
  have hinv := h.set set hset
  have hready : (s.pc pid).readyOn = some set.semid := by rw [hpc]; rfl
  have hlevel := hinv.level pid hready
  have hfree : forall q i, (s.pc q).insideOf = some i ->
      ¬ r.same i set.semid := by
    intro q i hin hsame
    rw [hlevel.taken q i hin hsame] at hpos
    exact absurd hpos (Nat.lt_irrefl 0)
  have hone := hlevel.le_one
  constructor
  · intro p q i j hp hq hsame
    rcases goto_cases hp with ⟨hp, hi⟩ | ⟨_, hi⟩
    · rcases goto_cases hq with ⟨hq, _⟩ | ⟨_, hj⟩
      · rw [hp, hq]
      · cases hi
        exact absurd (r.symm _ _ hsame) (hfree q j hj)
    · rcases goto_cases hq with ⟨_, hj⟩ | ⟨_, hj⟩
      · cases hj
        exact absurd hsame (hfree p i hi)
      · exact h.exclusive p q i j hi hj hsame
  · intro set' hset'
    cases hset'
    constructor
    · intro p _
      refine ⟨by change set.val - 1 ≤ 1; lia, ?_⟩
      intro _ _ _ _
      change set.val - 1 = 0
      lia
    · intro p
      change Function.update set.adj pid (set.adj pid + 1) p = _
      by_cases hp : p = pid
      · have hnone : (s.pc pid).insideOf ≠ some set.semid := by
          rw [hpc]
          exact Option.some_ne_none _ ∘ Eq.symm
        rw [hp, Function.update_self, goto_same, hinv.adj pid, if_neg hnone]
        exact (if_pos rfl).symm
      · rw [Function.update_of_ne hp, goto_other _ hp]
        exact hinv.adj p
    · exact hinv.old
  · intro p i hp
    rcases goto_cases hp with ⟨_, hnew⟩ | ⟨_, hold⟩
    · cases hnew
      exact hinv.old
    · exact h.old p i hold

theorem Inv.down {t : State} {ok : Bool} (h : Inv r s)
    (ht : down s pid ok = some t) : Inv r t := by
  unfold Semaph.down at ht
  split at ht
  · next semid child hpc =>
      split at ht
      · next set hlookup =>
          rcases lookup_some hlookup with ⟨hset, heq⟩
          split at ht
          · next hpos =>
              cases ht
              rw [← heq] at hpc ⊢
              exact h.enter hset hpc hpos
          · cases ht
      · cases ht
        exact h.rest (by rw [hpc]; rfl) rfl
  · cases ht

theorem Inv.release (h : Inv r s) {set after : SemSet} {pc : Pc}
    (hset : s.set = some set)
    (hinside : (s.pc pid).insideOf = some set.semid)
    (hsemid : after.semid = set.semid) (hval : after.val = set.val + 1)
    (hadj : after.adj = Function.update set.adj pid 0)
    (hpc : pc.readyOn = none) :
    Inv r (goto { s with set := some after } pid pc) := by
  have hinv := h.set set hset
  have hlevel := hinv.level pid (Pc.ready_of_inside hinside)
  have hzero := hlevel.taken pid set.semid hinside (r.refl _)
  have halone : forall q i, q ≠ pid -> (s.pc q).insideOf = some i ->
      ¬ r.same i set.semid := by
    intro q i hq hin hsame
    exact hq (h.exclusive q pid i set.semid hin hinside hsame)
  have hout := Pc.outside_of_not_ready hpc
  have hothers : forall q i,
      ((goto { s with set := some after } pid pc).pc q).insideOf = some i ->
      q ≠ pid ∧ (s.pc q).insideOf = some i := by
    intro q i hq
    rcases goto_cases hq with ⟨_, hnew⟩ | hold
    · rw [hout] at hnew
      cases hnew
    · exact hold
  constructor
  · intro p q i j hp hq
    exact h.exclusive p q i j (hothers p i hp).2 (hothers q j hq).2
  · intro set' hset'
    cases hset'
    constructor
    · intro p _
      have hone : after.val = 1 := by
        rw [hval, hzero]
      refine ⟨Nat.le_of_eq hone, ?_⟩
      intro q i hin hsame
      rcases hothers q i hin with ⟨hq, hold⟩
      rw [hsemid] at hsame
      exact absurd hsame (halone q i hq hold)
    · intro p
      rw [hadj, hsemid]
      by_cases hp : p = pid
      · rw [hp, Function.update_self, goto_same, hout]
        exact (if_neg (Option.some_ne_none _).symm).symm
      · rw [Function.update_of_ne hp, goto_other pc hp]
        exact hinv.adj p
    · rw [hsemid]
      exact hinv.old
  · intro p i hp
    rcases goto_cases hp with ⟨_, hnew⟩ | ⟨_, hold⟩
    · rw [hpc] at hnew
      cases hnew
    · exact h.old p i hold

theorem Inv.up {t : State} {ok : Bool} (h : Inv r s)
    (ht : up s pid ok = some t) : Inv r t := by
  unfold Semaph.up at ht
  split at ht
  · next semid child hpc =>
      have hfailing : Inv r (goto s pid (Pc.failing semid)) := by
        apply h.move
        · rw [hpc]
          rfl
        · intro i hi
          exact ⟨pid, by rw [hpc]; exact hi⟩
      split at ht
      · next set hlookup =>
          rcases lookup_some hlookup with ⟨hset, heq⟩
          split at ht
          · cases ht
            have hinside : (s.pc pid).insideOf = some set.semid := by
              rw [hpc, heq]
              rfl
            apply h.release hset hinside
            · rfl
            · rfl
            · change Function.update set.adj pid (set.adj pid - 1) = _
              rw [(h.set set hset).adj pid, if_pos hinside]
              rfl
            · cases child with
              | none => rfl
              | some child => rfl
          · cases ht
            exact hfailing
      · cases ht
        exact hfailing
  · cases ht

theorem Inv.waitpid {t : State} {ok : Bool} (h : Inv r s)
    (ht : waitpid s pid ok = some t) : Inv r t := by
  unfold Semaph.waitpid at ht
  split at ht
  · next semid child hpc =>
      have hinside : (s.pc pid).insideOf = none := by rw [hpc]; rfl
      split at ht
      · split at ht
        · cases ht
          exact h.rest hinside rfl
        · cases ht
      · cases ht
        exact h.rest hinside rfl
  · cases ht

theorem Inv.remove (h : Inv r s) : Inv r { s with set := none } := by
  refine ⟨h.exclusive, ?_, h.old⟩
  intro set hset
  cases hset

theorem Inv.rmid {t : State} {ok : Bool} (h : Inv r s)
    (ht : rmid s pid ok = some t) : Inv r t := by
  unfold Semaph.rmid at ht
  split at ht
  · next semid hpc =>
      have hinside : (s.pc pid).insideOf = none := by rw [hpc]; rfl
      split at ht
      · cases ht
        exact h.remove.rest hinside rfl
      · cases ht
        exact h.rest hinside rfl
  · cases ht

theorem Inv.undo_other (h : Inv r s) {set : SemSet} (hset : s.set = some set)
    (hother : (s.pc pid).insideOf ≠ some set.semid) :
    Inv r { s with set := some (undo set pid) } := by
  have hinv := h.set set hset
  have hadj := hinv.adj pid
  rw [if_neg hother] at hadj
  have hval : (undo set pid).val ≤ set.val := by
    change (max 0 (min (set.val + set.adj pid) SEMVMX)).toNat ≤ set.val
    rw [hadj]
    lia
  have hsame : (undo set pid).adj = set.adj := by
    change Function.update set.adj pid 0 = set.adj
    rw [← hadj]
    exact Function.update_eq_self pid set.adj
  refine ⟨h.exclusive, ?_, h.old⟩
  intro set' hset'
  cases hset'
  refine ⟨?_, ?_, hinv.old⟩
  · intro p hp
    have hlevel := hinv.level p hp
    refine ⟨Nat.le_trans hval hlevel.le_one, ?_⟩
    intro q i hin hi
    have hzero := hlevel.taken q i hin hi
    lia
  · intro p
    rw [hsame]
    exact hinv.adj p

theorem Inv.undo_inside (h : Inv r s) {set : SemSet} (hset : s.set = some set)
    (hinside : (s.pc pid).insideOf = some set.semid) :
    Inv r (goto { s with set := some (undo set pid) } pid Pc.absent) := by
  have hinv := h.set set hset
  have hadj := hinv.adj pid
  rw [if_pos hinside] at hadj
  have hzero := (hinv.level pid (Pc.ready_of_inside hinside)).taken pid
    set.semid hinside (r.refl _)
  apply h.release hset hinside
  · rfl
  · change (max 0 (min (set.val + set.adj pid) SEMVMX)).toNat = set.val + 1
    rw [hadj, hzero]
    rfl
  · rfl
  · rfl

theorem Inv.exit {t : State} (h : Inv r s) (ht : exit s pid = some t) :
    Inv r t := by
  unfold Semaph.exit at ht
  split at ht
  · cases ht
  · cases ht
    cases hset : s.set with
    | none =>
        change Inv r (goto { s with set := none } pid Pc.absent)
        apply h.remove.leave rfl
        intro set hnone
        cases hnone
    | some set =>
        change Inv r (goto { s with set := some (undo set pid) } pid Pc.absent)
        by_cases hinside : (s.pc pid).insideOf = some set.semid
        · exact h.undo_inside hset hinside
        · apply (h.undo_other hset hinside).leave rfl
          intro set' hset'
          cases hset'
          exact hinside

theorem Inv.step {t : State} {l : Label} (h : Inv r s) (hC : NoReset r s l)
    (ht : step s l = some t) : Inv r t := by
  cases l with
  | spawn pid => exact h.spawn ht
  | semget pid ok => exact h.semget ht
  | setval pid ok => exact h.setval hC ht
  | fork pid child => exact h.fork ht
  | down pid ok => exact h.down ht
  | up pid ok => exact h.up ht
  | waitpid pid ok => exact h.waitpid ht
  | rmid pid ok => exact h.rmid ht
  | exit pid => exact h.exit ht

end Steps

theorem Start.inv {s : State} (h : Start s) (r : Sameness) : Inv r s := by
  have hinside : forall p i, (s.pc p).insideOf ≠ some i := by
    intro p i
    rw [h.pc p]
    exact (Option.some_ne_none i).symm
  have hready : forall p i, (s.pc p).readyOn ≠ some i := by
    intro p i
    rw [h.pc p]
    exact (Option.some_ne_none i).symm
  constructor
  · intro p q i j hp
    exact absurd hp (hinside p i)
  · intro set hset
    refine ⟨?_, ?_, (h.set set hset).1⟩
    · intro p hp
      exact absurd hp (hready p set.semid)
    · intro p
      rw [if_neg (hinside p set.semid)]
      exact (h.set set hset).2 p
  · intro p i hp
    exact absurd hp (hready p i)

theorem exclusive_of_noReset (r : Sameness) {s : State}
    (hs : machine.ReachableUnder (NoReset r) s) : Exclusive r s := by
  have hinv : Inv r s := by
    apply Machine.invariant_under _ _ hs
    · intro s hinit
      exact hinit.inv r
    · intro s l t hI hC ht
      exact hI.step hC ht
  exact hinv.exclusive

/--
As long as no instance sets the semaphore while a process is between its two
`semop`s on it, at most one process is between its two `semop`s on a set; and as
long as none does so while a process is between its two `semop`s on any set that
the key has led to, at most one process is between them altogether.
-/
theorem one_inside (s : State) :
    (machine.ReachableUnder (NoReset bySet) s ->
      forall p q semid, (s.pc p).insideOf = some semid ->
        (s.pc q).insideOf = some semid -> p = q) ∧
    (machine.ReachableUnder (NoReset byKey) s ->
      forall p q i j, (s.pc p).insideOf = some i ->
        (s.pc q).insideOf = some j -> p = q) := by
  constructor
  · intro hs p q semid hp hq
    exact exclusive_of_noReset bySet hs p q semid semid hp hq rfl
  · intro hs p q i j hp hq
    exact exclusive_of_noReset byKey hs p q i j hp hq trivial

def nothing : State where
  set := none
  next := 0
  pc := fun _ => Pc.absent

theorem nothing_start : Start nothing := by
  constructor
  · intro _
    rfl
  · intro set hset
    cases hset

def takes (pid child : Pid) : List Label :=
  [Label.spawn pid, Label.semget pid true, Label.setval pid true,
    Label.fork pid (some child), Label.down pid true]

theorem noReset_other (r : Sameness) {s : State} {l : Label}
    (hl : forall pid, l ≠ Label.setval pid true) : NoReset r s l := by
  intro pid set heq
  exact absurd heq (hl pid)

theorem takes_meets (r : Sameness) :
    machine.RunMeets (NoReset r) nothing (takes 1 2) := by
  refine And.intro ?_ (And.intro ?_ (And.intro ?_ (And.intro ?_
    (And.intro ?_ trivial))))
  · exact noReset_other r (fun _ => Label.noConfusion)
  · exact noReset_other r (fun _ => Label.noConfusion)
  · intro pid set _ _ _ q i hin
    change (Function.update (Function.update nothing.pc 1 Pc.semget) 1
      (Pc.setval 0) q).insideOf = some i at hin
    by_cases hq : q = 1
    · rw [hq, Function.update_self] at hin
      cases hin
    · rw [Function.update_of_ne hq, Function.update_of_ne hq] at hin
      cases hin
  · exact noReset_other r (fun _ => Label.noConfusion)
  · exact noReset_other r (fun _ => Label.noConfusion)

theorem one_inside_taken :
    exists s : State, (s.pc 1).insideOf = some 0 ∧
      (forall p q semid, (s.pc p).insideOf = some semid ->
        (s.pc q).insideOf = some semid -> p = q) ∧
      (forall p q i j, (s.pc p).insideOf = some i ->
        (s.pc q).insideOf = some j -> p = q) := by
  have hrun : (machine.run nothing (takes 1 2)).map
      (fun s => (s.pc 1).insideOf) = some (some 0) := by
    rfl
  rcases Option.map_eq_some_iff.mp hrun with ⟨s, hs, hinside⟩
  have hbySet := Machine.reachableUnder_of_run
    (Machine.ReachableUnder.init nothing_start) (takes_meets bySet) hs
  have hbyKey := Machine.reachableUnder_of_run
    (Machine.ReachableUnder.init nothing_start) (takes_meets byKey) hs
  exact ⟨s, hinside, (one_inside s).1 hbySet, (one_inside s).2 hbyKey⟩

/-- A second instance sets the semaphore back to 1 while a process of the first
one has it, and takes it as well. -/
theorem two_inside :
    ¬ forall s, machine.Reachable s ->
      forall p q semid, (s.pc p).insideOf = some semid ->
        (s.pc q).insideOf = some semid -> p = q := by
  intro h
  have hrun : (machine.run nothing (takes 1 2 ++ takes 3 4)).map
      (fun s => ((s.pc 1).insideOf, (s.pc 3).insideOf)) =
        some (some 0, some 0) := by
    rfl
  rcases Machine.exists_reachable_of_run nothing_start hrun with
    ⟨s, hreach, heq⟩
  rcases Prod.mk.inj heq with ⟨hfirst, hsecond⟩
  exact absurd (h s hreach 1 3 0 hfirst hsecond) (by decide)

end Semaph
end Apue
