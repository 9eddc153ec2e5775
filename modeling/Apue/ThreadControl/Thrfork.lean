import Apue.Foundation.Mutex
import Apue.Foundation.Transition
import Mathlib.Logic.Function.Basic

/-!
# Fork handlers for two locks

`fork` copies the process with its locks, but only with the thread that called
it.  The handlers see to it that this thread has both locks at that moment, and
release them in both processes.  The other threads take `lock1`, `lock2` or
first `lock1` and then `lock2`; any of them may call `fork` while it has neither.
Nobody is kept in `fork` for good: whoever has a lock can get so far as to release it.
-/

namespace Apue
namespace Thrfork

open Foundation

abbrev Tid := Nat

inductive Lock where
  | lock1
  | lock2
  deriving Repr, DecidableEq

/-- Where a thread is.  `run` is its own code, with the locks that it has; in
`lock1` and `lock2` it is in `pthread_mutex_lock`.  The others are in `fork`: in
the two calls of `prepare`, in the system call, before the two calls of `parent`
or `child`, and about to return in either process.  A thread that a process does
not have is `absent` there. -/
inductive Pc where
  | absent
  | run (has1 has2 : Bool)
  | lock1
  | lock2 (has1 : Bool)
  | prepare1
  | prepare2
  | forking
  | parent1
  | parent2
  | parentReturn
  | child1
  | child2
  | childReturn
  deriving Repr, DecidableEq

structure Process where
  owner : Lock -> Option Tid
  pc : Tid -> Pc

structure State where
  procs : List Process

inductive Action where
  | spawn (thread : Tid)
  | exit
  | lock (l : Lock)
  | acquire
  | unlock (l : Lock)
  | fork
  | prepare
  | sysfork (ok : Bool)
  | parent
  | child
  deriving Repr, DecidableEq

structure Label where
  proc : Nat
  thread : Tid
  action : Action
  deriving Repr, DecidableEq

def goto (p : Process) (t : Tid) (pc : Pc) : Process :=
  { p with pc := Function.update p.pc t pc }

def pthread_mutex_lock (p : Process) (l : Lock) (t : Tid) : Option Process :=
  if p.owner l = none then
    some { p with owner := Function.update p.owner l (some t) }
  else
    none

def pthread_mutex_unlock (p : Process) (l : Lock) : Process :=
  { p with owner := Function.update p.owner l none }

def prepare (p : Process) (t : Tid) : Option Process :=
  match p.pc t with
  | Pc.prepare1 =>
      (pthread_mutex_lock p Lock.lock1 t).map (fun p => goto p t Pc.prepare2)
  | Pc.prepare2 =>
      (pthread_mutex_lock p Lock.lock2 t).map (fun p => goto p t Pc.forking)
  | _ => none

/-- The handler, and the return of `fork` in the parent. -/
def parent (p : Process) (t : Tid) : Option Process :=
  match p.pc t with
  | Pc.parent1 =>
      some (goto (pthread_mutex_unlock p Lock.lock1) t Pc.parent2)
  | Pc.parent2 =>
      some (goto (pthread_mutex_unlock p Lock.lock2) t Pc.parentReturn)
  | Pc.parentReturn => some (goto p t (Pc.run false false))
  | _ => none

/-- The handler, and the return of `fork` in the child. -/
def child (p : Process) (t : Tid) : Option Process :=
  match p.pc t with
  | Pc.child1 => some (goto (pthread_mutex_unlock p Lock.lock1) t Pc.child2)
  | Pc.child2 =>
      some (goto (pthread_mutex_unlock p Lock.lock2) t Pc.childReturn)
  | Pc.childReturn => some (goto p t (Pc.run false false))
  | _ => none

def forkChild (p : Process) (t : Tid) : Process where
  owner := p.owner
  pc := Function.update (fun _ => Pc.absent) t Pc.child1

def spawn (p : Process) (t thread : Tid) : Option Process :=
  match p.pc t, p.pc thread with
  | Pc.run _ _, Pc.absent => some (goto p thread (Pc.run false false))
  | _, _ => none

/-- Calling `pthread_mutex_lock`; who has `lock2` does not ask for `lock1`. -/
def lock (p : Process) (t : Tid) (l : Lock) : Option Process :=
  match l, p.pc t with
  | Lock.lock1, Pc.run false false => some (goto p t Pc.lock1)
  | Lock.lock2, Pc.run has1 false => some (goto p t (Pc.lock2 has1))
  | _, _ => none

def acquire (p : Process) (t : Tid) : Option Process :=
  match p.pc t with
  | Pc.lock1 =>
      (pthread_mutex_lock p Lock.lock1 t).map
        (fun p => goto p t (Pc.run true false))
  | Pc.lock2 has1 =>
      (pthread_mutex_lock p Lock.lock2 t).map
        (fun p => goto p t (Pc.run has1 true))
  | _ => none

def unlock (p : Process) (t : Tid) (l : Lock) : Option Process :=
  match l, p.pc t with
  | Lock.lock1, Pc.run true has2 =>
      some (goto (pthread_mutex_unlock p Lock.lock1) t (Pc.run false has2))
  | Lock.lock2, Pc.run has1 true =>
      some (goto (pthread_mutex_unlock p Lock.lock2) t (Pc.run has1 false))
  | _, _ => none

def exit (p : Process) (t : Tid) : Option Process :=
  match p.pc t with
  | Pc.run false false => some (goto p t Pc.absent)
  | _ => none

/-- Calling `fork` starts with the handler `prepare`. -/
def fork (p : Process) (t : Tid) : Option Process :=
  match p.pc t with
  | Pc.run false false => some (goto p t Pc.prepare1)
  | _ => none

/-- The system call, from the parent's side; when it fails the handler of the
parent runs as well. -/
def sysfork (p : Process) (t : Tid) : Option Process :=
  match p.pc t with
  | Pc.forking => some (goto p t Pc.parent1)
  | _ => none

def act (p : Process) (t : Tid) : Action -> Option Process
  | Action.spawn thread => spawn p t thread
  | Action.exit => exit p t
  | Action.lock l => lock p t l
  | Action.acquire => acquire p t
  | Action.unlock l => unlock p t l
  | Action.fork => fork p t
  | Action.prepare => prepare p t
  | Action.sysfork _ => sysfork p t
  | Action.parent => parent p t
  | Action.child => child p t

def created (p : Process) (t : Tid) : Action -> List Process
  | Action.sysfork true => [forkChild p t]
  | _ => []

def step (s : State) (l : Label) : Option State :=
  match s.procs[l.proc]? with
  | none => none
  | some p =>
      match act p l.thread l.action with
      | none => none
      | some after =>
          some
            { procs := s.procs.set l.proc after ++
                created p l.thread l.action }

/-- One process with any threads, and both locks free. -/
structure Start (p : Process) : Prop where
  owner : forall l, p.owner l = none
  pc : forall t, p.pc t = Pc.absent ∨ p.pc t = Pc.run false false

def machine : Machine State Label where
  init s := exists p, s.procs = [p] ∧ Start p
  step := step

def Pc.waits : Pc -> Option Lock
  | Pc.lock1 => some Lock.lock1
  | Pc.lock2 _ => some Lock.lock2
  | Pc.prepare1 => some Lock.lock1
  | Pc.prepare2 => some Lock.lock2
  | _ => none

/-- Threads each of which waits for one of them, or for a thread that does not
exist. -/
structure Deadlock (p : Process) (S : Tid -> Prop) : Prop where
  nonempty : exists t, S t
  stuck : forall t, S t -> exists l u, (p.pc t).waits = some l ∧
    p.owner l = some u ∧ (S u ∨ p.pc u = Pc.absent)

/-- What the handlers are for. -/
structure ForkSafe (p : Process) : Prop where
  forking : forall t, p.pc t = Pc.forking ->
    forall l u, p.owner l = some u -> u = t
  childReturn : forall t, p.pc t = Pc.childReturn -> forall l, p.owner l = none
  parentReturn : forall t, p.pc t = Pc.parentReturn ->
    forall l, p.owner l ≠ some t
  deadlock : forall S, ¬ Deadlock p S

/-!
# The invariant
-/

def Pc.holds : Pc -> Lock -> Bool
  | Pc.run has1 _, Lock.lock1 => has1
  | Pc.run _ has2, Lock.lock2 => has2
  | Pc.lock2 has1, Lock.lock1 => has1
  | Pc.prepare2, Lock.lock1 => true
  | Pc.forking, _ => true
  | Pc.parent1, _ => true
  | Pc.parent2, Lock.lock2 => true
  | Pc.child1, _ => true
  | Pc.child2, Lock.lock2 => true
  | _, _ => false

def Pc.inChild : Pc -> Bool
  | Pc.child1 => true
  | Pc.child2 => true
  | Pc.childReturn => true
  | _ => false

structure Inv (p : Process) : Prop where
  owned : forall l, OwnedBy (p.owner l) (fun t => (p.pc t).holds l = true)
  alone : forall t, (p.pc t).inChild = true ->
    forall u, u ≠ t -> p.pc u = Pc.absent

def Lock.rank : Lock -> Nat
  | Lock.lock1 => 0
  | Lock.lock2 => 1

theorem rank_lt (l : Lock) : l.rank < 2 := by
  cases l with
  | lock1 => exact Nat.zero_lt_succ 1
  | lock2 => exact Nat.lt_succ_self 1

theorem Pc.ordered {pc : Pc} {l m : Lock} (hwaits : pc.waits = some l)
    (hholds : pc.holds m = true) : m.rank < l.rank := by
  cases pc with
  | lock2 has1 =>
      cases hwaits
      cases m with
      | lock1 => exact Nat.zero_lt_succ 0
      | lock2 => cases hholds
  | prepare2 =>
      cases hwaits
      cases m with
      | lock1 => exact Nat.zero_lt_succ 0
      | lock2 => cases hholds
  | lock1 => cases hholds
  | prepare1 => cases hholds
  | _ => cases hwaits

theorem Inv.holds {p : Process} (h : Inv p) {l : Lock} {t : Tid}
    (howner : p.owner l = some t) : (p.pc t).holds l = true :=
  (h.owned l t).mpr howner

theorem Inv.not_deadlock {p : Process} (h : Inv p) (S : Tid -> Prop) :
    ¬ Deadlock p S := by
  intro hdead
  have hcircular : Circular (fun t l => (p.pc t).waits = some l)
      (fun t l => (p.pc t).holds l = true) S := by
    refine ⟨hdead.nonempty, ?_⟩
    intro t ht
    rcases hdead.stuck t ht with ⟨l, u, hwaits, howner, hu⟩
    have hholds := h.holds howner
    rcases hu with hu | habsent
    · exact ⟨l, u, hwaits, hholds, hu⟩
    · rw [habsent] at hholds
      cases hholds
  refine not_circular rank_lt ?_ hcircular
  intro t l m
  exact Pc.ordered

theorem Inv.forkSafe {p : Process} (h : Inv p) : ForkSafe p := by
  constructor
  · intro t hpc l u howner
    have hboth : (p.pc t).holds l = true := by
      rw [hpc]
      rfl
    exact (h.owned l).unique (h.holds howner) hboth
  · intro t hpc l
    cases howner : p.owner l with
    | none => rfl
    | some u =>
        have hholds := h.holds howner
        by_cases hu : u = t
        · rw [hu, hpc] at hholds
          cases hholds
        · rw [h.alone t (by rw [hpc]; rfl) u hu] at hholds
          cases hholds
  · intro t hpc l howner
    have hholds := h.holds howner
    rw [hpc] at hholds
    cases hholds
  · exact h.not_deadlock

/-!
# What a thread may do
-/

theorem forall_lock {P : Lock -> Prop} (h1 : P Lock.lock1) (h2 : P Lock.lock2) :
    forall l, P l := by
  intro l
  cases l with
  | lock1 => exact h1
  | lock2 => exact h2

theorem goto_same (p : Process) (t : Tid) (pc : Pc) :
    (goto p t pc).pc t = pc := by
  simp [goto]

theorem goto_other {p : Process} {t u : Tid} (pc : Pc) (h : u ≠ t) :
    (goto p t pc).pc u = p.pc u := by
  simp [goto, h]

section Steps

variable {p : Process} {t : Tid} {old pc : Pc}

theorem Inv.alone_goto (h : Inv p) {owner : Lock -> Option Tid}
    (hold : p.pc t = old) (hlive : old ≠ Pc.absent)
    (hchild : pc.inChild = true -> old.inChild = true) :
    forall u, ((goto { p with owner := owner } t pc).pc u).inChild = true ->
      forall v, v ≠ u ->
        (goto { p with owner := owner } t pc).pc v = Pc.absent := by
  intro u hu v hv
  by_cases hut : u = t
  · rw [hut, goto_same] at hu
    rw [hut] at hv
    rw [goto_other pc hv]
    exact h.alone t (by rw [hold]; exact hchild hu) v hv
  · rw [goto_other pc hut] at hu
    have habsent := h.alone u hu t (Ne.symm hut)
    rw [hold] at habsent
    exact absurd habsent hlive

theorem Inv.keeps (h : Inv p) {owner : Lock -> Option Tid} {l : Lock}
    (hold : p.pc t = old) (howner : owner l = p.owner l)
    (hpc : pc.holds l = old.holds l) :
    OwnedBy ((goto { p with owner := owner } t pc).owner l)
      (fun u => ((goto { p with owner := owner } t pc).pc u).holds l = true) := by
  change OwnedBy (owner l) _
  rw [howner]
  apply (h.owned l).keep (t := t)
  · intro u hu
    rw [goto_other pc hu]
  · rw [goto_same, hold, hpc]

theorem Inv.move (h : Inv p) (hold : p.pc t = old) (hlive : old ≠ Pc.absent)
    (hchild : pc.inChild = true -> old.inChild = true)
    (hpc : forall l, pc.holds l = old.holds l) : Inv (goto p t pc) :=
  ⟨fun l => h.keeps hold rfl (hpc l), h.alone_goto hold hlive hchild⟩

theorem Inv.take (h : Inv p) {l : Lock} {q : Process}
    (hq : pthread_mutex_lock p l t = some q) (hold : p.pc t = old)
    (hlive : old ≠ Pc.absent)
    (hchild : pc.inChild = true -> old.inChild = true)
    (hpc : pc.holds l = true)
    (hother : forall m, m ≠ l -> pc.holds m = old.holds m) :
    Inv (goto q t pc) := by
  unfold pthread_mutex_lock at hq
  split at hq
  · next hfree =>
      cases hq
      refine ⟨?_, h.alone_goto hold hlive hchild⟩
      intro m
      by_cases hm : m = l
      · rw [hm]
        change OwnedBy (Function.update p.owner l (some t) l) _
        rw [Function.update_self]
        have howned := h.owned l
        rw [hfree] at howned
        apply howned.acquire
        · intro u hu
          rw [goto_other pc hu]
        · rw [goto_same]
          exact hpc
      · exact h.keeps hold (Function.update_of_ne hm _ _) (hother m hm)
  · cases hq

theorem Inv.give (h : Inv p) {l : Lock} (hold : p.pc t = old)
    (hheld : old.holds l = true) (hlive : old ≠ Pc.absent)
    (hchild : pc.inChild = true -> old.inChild = true)
    (hpc : pc.holds l = false)
    (hother : forall m, m ≠ l -> pc.holds m = old.holds m) :
    Inv (goto (pthread_mutex_unlock p l) t pc) := by
  refine ⟨?_, h.alone_goto hold hlive hchild⟩
  intro m
  by_cases hm : m = l
  · rw [hm]
    change OwnedBy (Function.update p.owner l none l) _
    rw [Function.update_self]
    apply (h.owned l).release (t := t)
    · rw [hold]
      exact hheld
    · intro u hu
      rw [pthread_mutex_unlock, goto_other pc hu]
    · rw [goto_same, hpc]
      exact Bool.noConfusion
  · exact h.keeps hold (Function.update_of_ne hm _ _) (hother m hm)

theorem only_lock1 {P : Lock -> Prop} (h : P Lock.lock2) :
    forall l, l ≠ Lock.lock1 -> P l :=
  forall_lock (fun hne => absurd rfl hne) (fun _ => h)

theorem only_lock2 {P : Lock -> Prop} (h : P Lock.lock1) :
    forall l, l ≠ Lock.lock2 -> P l :=
  forall_lock (fun _ => h) (fun hne => absurd rfl hne)

theorem Inv.prepare {q : Process} (h : Inv p)
    (hq : Thrfork.prepare p t = some q) : Inv q := by
  unfold Thrfork.prepare at hq
  split at hq
  · next hpc =>
      rcases Option.map_eq_some_iff.mp hq with ⟨r, hlock, heq⟩
      rw [← heq]
      exact h.take hlock hpc Pc.noConfusion Bool.noConfusion rfl
        (only_lock1 rfl)
  · next hpc =>
      rcases Option.map_eq_some_iff.mp hq with ⟨r, hlock, heq⟩
      rw [← heq]
      exact h.take hlock hpc Pc.noConfusion Bool.noConfusion rfl
        (only_lock2 rfl)
  · cases hq

theorem Inv.parent {q : Process} (h : Inv p)
    (hq : Thrfork.parent p t = some q) : Inv q := by
  unfold Thrfork.parent at hq
  split at hq
  · next hpc =>
      cases hq
      exact h.give hpc rfl Pc.noConfusion Bool.noConfusion rfl (only_lock1 rfl)
  · next hpc =>
      cases hq
      exact h.give hpc rfl Pc.noConfusion Bool.noConfusion rfl (only_lock2 rfl)
  · next hpc =>
      cases hq
      exact h.move hpc Pc.noConfusion Bool.noConfusion (forall_lock rfl rfl)
  · cases hq

theorem Inv.child {q : Process} (h : Inv p) (hq : Thrfork.child p t = some q) :
    Inv q := by
  unfold Thrfork.child at hq
  split at hq
  · next hpc =>
      cases hq
      exact h.give hpc rfl Pc.noConfusion id rfl (only_lock1 rfl)
  · next hpc =>
      cases hq
      exact h.give hpc rfl Pc.noConfusion id rfl (only_lock2 rfl)
  · next hpc =>
      cases hq
      exact h.move hpc Pc.noConfusion Bool.noConfusion (forall_lock rfl rfl)
  · cases hq

theorem Inv.forkChild (h : Inv p) (hpc : p.pc t = Pc.forking) :
    Inv (forkChild p t) := by
  have hsame : (Thrfork.forkChild p t).pc t = Pc.child1 := by
    simp [Thrfork.forkChild]
  have hother : forall u, u ≠ t ->
      (Thrfork.forkChild p t).pc u = Pc.absent := by
    intro u hu
    simp [Thrfork.forkChild, hu]
  have hheld : forall l, p.owner l = some t := by
    intro l
    apply (h.owned l t).mp
    rw [hpc]
    rfl
  constructor
  · intro l u
    change ((Thrfork.forkChild p t).pc u).holds l = true ↔ p.owner l = some u
    rw [hheld l]
    by_cases hu : u = t
    · rw [hu, hsame]
      exact ⟨fun _ => rfl, fun _ => rfl⟩
    · rw [hother u hu]
      constructor
      · intro hholds
        cases hholds
      · intro hsome
        cases hsome
        exact absurd rfl hu
  · intro u hu v hv
    by_cases hut : u = t
    · rw [hut] at hv
      exact hother v hv
    · rw [hother u hut] at hu
      cases hu

theorem Inv.spawn {thread : Tid} {q : Process} (h : Inv p)
    (hq : Thrfork.spawn p t thread = some q) : Inv q := by
  unfold Thrfork.spawn at hq
  split at hq
  · next has1 has2 hrun habsent =>
      cases hq
      constructor
      · intro l
        apply h.keeps habsent rfl
        cases l with
        | lock1 => rfl
        | lock2 => rfl
      · intro u hu
        by_cases hut : u = thread
        · rw [hut, goto_same] at hu
          cases hu
        · rw [goto_other _ hut] at hu
          by_cases htu : t = u
          · rw [← htu, hrun] at hu
            cases hu
          · have hnone := h.alone u hu t htu
            rw [hrun] at hnone
            cases hnone
  · cases hq

theorem Inv.lock {l : Lock} {q : Process} (h : Inv p)
    (hq : Thrfork.lock p t l = some q) : Inv q := by
  unfold Thrfork.lock at hq
  split at hq
  · next hpc =>
      cases hq
      exact h.move hpc Pc.noConfusion Bool.noConfusion (forall_lock rfl rfl)
  · next has1 hpc =>
      cases hq
      exact h.move hpc Pc.noConfusion Bool.noConfusion (forall_lock rfl rfl)
  · cases hq

theorem Inv.acquire {q : Process} (h : Inv p)
    (hq : Thrfork.acquire p t = some q) : Inv q := by
  unfold Thrfork.acquire at hq
  split at hq
  · next hpc =>
      rcases Option.map_eq_some_iff.mp hq with ⟨r, hlock, heq⟩
      rw [← heq]
      exact h.take hlock hpc Pc.noConfusion Bool.noConfusion rfl
        (only_lock1 rfl)
  · next has1 hpc =>
      rcases Option.map_eq_some_iff.mp hq with ⟨r, hlock, heq⟩
      rw [← heq]
      exact h.take hlock hpc Pc.noConfusion Bool.noConfusion rfl
        (only_lock2 rfl)
  · cases hq

theorem Inv.unlock {l : Lock} {q : Process} (h : Inv p)
    (hq : Thrfork.unlock p t l = some q) : Inv q := by
  unfold Thrfork.unlock at hq
  split at hq
  · next has2 hpc =>
      cases hq
      exact h.give hpc rfl Pc.noConfusion Bool.noConfusion rfl (only_lock1 rfl)
  · next has1 hpc =>
      cases hq
      exact h.give hpc rfl Pc.noConfusion Bool.noConfusion rfl (only_lock2 rfl)
  · cases hq

theorem Inv.exit {q : Process} (h : Inv p) (hq : Thrfork.exit p t = some q) :
    Inv q := by
  unfold Thrfork.exit at hq
  split at hq
  · next hpc =>
      cases hq
      exact h.move hpc Pc.noConfusion Bool.noConfusion (forall_lock rfl rfl)
  · cases hq

theorem Inv.fork {q : Process} (h : Inv p) (hq : Thrfork.fork p t = some q) :
    Inv q := by
  unfold Thrfork.fork at hq
  split at hq
  · next hpc =>
      cases hq
      exact h.move hpc Pc.noConfusion Bool.noConfusion (forall_lock rfl rfl)
  · cases hq

theorem Inv.sysfork {q : Process} (h : Inv p)
    (hq : Thrfork.sysfork p t = some q) :
    Inv q ∧ Inv (Thrfork.forkChild p t) := by
  unfold Thrfork.sysfork at hq
  split at hq
  · next hpc =>
      cases hq
      exact ⟨h.move hpc Pc.noConfusion Bool.noConfusion (forall_lock rfl rfl),
        h.forkChild hpc⟩
  · cases hq

theorem Inv.act {a : Action} {q : Process} (h : Inv p)
    (hq : Thrfork.act p t a = some q) : Inv q := by
  cases a with
  | spawn thread => exact h.spawn hq
  | exit => exact h.exit hq
  | lock l => exact h.lock hq
  | acquire => exact h.acquire hq
  | unlock l => exact h.unlock hq
  | fork => exact h.fork hq
  | prepare => exact h.prepare hq
  | sysfork ok => exact (h.sysfork hq).1
  | parent => exact h.parent hq
  | child => exact h.child hq

theorem Inv.created {a : Action} {q r : Process} (h : Inv p)
    (hq : Thrfork.act p t a = some q) (hr : r ∈ Thrfork.created p t a) :
    Inv r := by
  unfold Thrfork.created at hr
  split at hr
  · rw [List.mem_singleton.mp hr]
    exact (h.sysfork hq).2
  · cases hr

end Steps

/-!
# Every process of every reachable state
-/

theorem Start.inv {p : Process} (h : Start p) : Inv p := by
  have hholds : forall t l, (p.pc t).holds l = false := by
    intro t l
    rcases h.pc t with hpc | hpc
    · rw [hpc]
      rfl
    · rw [hpc]
      cases l with
      | lock1 => rfl
      | lock2 => rfl
  constructor
  · intro l t
    change (p.pc t).holds l = true ↔ p.owner l = some t
    rw [hholds, h.owner]
    exact ⟨Bool.noConfusion, fun hnone => by cases hnone⟩
  · intro t ht
    rcases h.pc t with hpc | hpc
    · rw [hpc] at ht
      cases ht
    · rw [hpc] at ht
      cases ht

theorem inv_step {s s' : State} {l : Label}
    (h : forall p, p ∈ s.procs -> Inv p) (hs : step s l = some s') :
    forall p, p ∈ s'.procs -> Inv p := by
  unfold step at hs
  cases hproc : s.procs[l.proc]? with
  | none =>
      rw [hproc] at hs
      cases hs
  | some p =>
      have hp := h p (List.mem_of_getElem? hproc)
      rw [hproc] at hs
      cases hact : act p l.thread l.action with
      | none =>
          simp [hact] at hs
      | some after =>
          simp only [hact, Option.some.injEq] at hs
          rw [← hs]
          intro q hq
          rcases List.mem_append.mp hq with hold | hnew
          · rcases List.mem_or_eq_of_mem_set hold with hold | heq
            · exact h q hold
            · rw [heq]
              exact hp.act hact
          · exact hp.created hact hnew

theorem inv_of_reachable {s : State} (hs : machine.Reachable s) :
    forall p, p ∈ s.procs -> Inv p := by
  apply Machine.invariant (I := fun s => forall p, p ∈ s.procs -> Inv p) _ _ hs
  · intro s hinit p hp
    rcases hinit with ⟨first, hprocs, hstart⟩
    rw [hprocs] at hp
    rw [List.mem_singleton.mp hp]
    exact hstart.inv
  · intro s l t hI ht
    exact inv_step hI ht

/-!
# The return of fork

The threads of one process can free the locks, first `lock2`, whose owner waits for
nothing, and then `lock1`.
-/

/-- The threads of one process, apart from the processes that they create. -/
def process : Machine Process (Tid × Action) where
  init := Start
  step p l := act p l.1 l.2

/-- The lock can become free without a step of the threads that are at the places
in `K`. -/
def Clears (K : Pc -> Prop) (l : Lock) (p : Process) : Prop :=
  process.CanReach
    (fun q => Inv q ∧ q.owner l = none ∧ forall v, K (p.pc v) -> q.pc v = p.pc v) p

section Clears

variable {K : Pc -> Prop} {l : Lock} {p : Process} {u : Tid} {a : Action} {pc : Pc}

theorem Clears.here (h : Inv p) (hfree : p.owner l = none) : Clears K l p :=
  Machine.CanReach.here ⟨h, hfree, fun _ _ => rfl⟩

theorem Clears.of_act (hK : ¬ K (p.pc u)) {owner : Lock -> Option Tid}
    (hact : act p u a = some (goto { p with owner := owner } u pc))
    (h : Clears K l (goto { p with owner := owner } u pc)) : Clears K l p := by
  have hframe : forall v, K (p.pc v) ->
      (goto { p with owner := owner } u pc).pc v = p.pc v := by
    intro v hv
    apply goto_other
    intro heq
    rw [heq] at hv
    exact hK hv
  apply Machine.CanReach.of_step (u, a) hact
  apply Machine.CanReach.trans h
  rintro q ⟨hq, hfree, hsame⟩
  refine Machine.CanReach.here ⟨hq, hfree, fun v hv => ?_⟩
  rw [hsame v (by rw [hframe v hv]; exact hv), hframe v hv]

theorem Clears.of_release (h : Inv p) (hK : ¬ K (p.pc u))
    (hact : act p u a = some (goto (pthread_mutex_unlock p l) u pc)) :
    Clears K l p :=
  Clears.of_act hK hact (Clears.here (h.act hact) (Function.update_self _ _ _))

theorem clears_of_owner (h : Inv p)
    (howner : forall u, (p.pc u).holds l = true -> Clears K l p) : Clears K l p := by
  cases hfree : p.owner l with
  | none => exact Clears.here h hfree
  | some u => exact howner u (h.holds hfree)

theorem Clears.andThen {K' : Pc -> Prop} {m : Lock} (h : Clears K l p)
    (hK : forall pc, K' pc -> K pc)
    (hnext : forall q, Inv q -> q.owner l = none ->
      (forall v, K (p.pc v) -> q.pc v = p.pc v) -> Clears K' m q) : Clears K' m p := by
  apply Machine.CanReach.trans h
  rintro q ⟨hq, hfree, hsame⟩
  apply Machine.CanReach.trans (hnext q hq hfree hsame)
  rintro r ⟨hr, hfree', hsame'⟩
  refine Machine.CanReach.here ⟨hr, hfree', fun v hv => ?_⟩
  have hv' := hsame v (hK _ hv)
  rw [hsame' v (by rw [hv']; exact hv), hv']

end Clears

/-- The place of a thread without `lock2`. -/
def Without2 (pc : Pc) : Prop :=
  pc.holds Lock.lock2 = false

section Acts

variable {q : Process} {u : Tid}

theorem act_parent1 (hpc : q.pc u = Pc.parent1) :
    act q u Action.parent =
      some (goto (pthread_mutex_unlock q Lock.lock1) u Pc.parent2) := by
  simp only [act, parent, hpc]

theorem act_parent2 (hpc : q.pc u = Pc.parent2) :
    act q u Action.parent =
      some (goto (pthread_mutex_unlock q Lock.lock2) u Pc.parentReturn) := by
  simp only [act, parent, hpc]

theorem act_child1 (hpc : q.pc u = Pc.child1) :
    act q u Action.child =
      some (goto (pthread_mutex_unlock q Lock.lock1) u Pc.child2) := by
  simp only [act, child, hpc]

theorem act_child2 (hpc : q.pc u = Pc.child2) :
    act q u Action.child =
      some (goto (pthread_mutex_unlock q Lock.lock2) u Pc.childReturn) := by
  simp only [act, child, hpc]

theorem act_sysfork (ok : Bool) (hpc : q.pc u = Pc.forking) :
    act q u (Action.sysfork ok) = some (goto q u Pc.parent1) := by
  simp only [act, sysfork, hpc]

theorem act_prepare2 (hpc : q.pc u = Pc.prepare2) (hfree : q.owner Lock.lock2 = none) :
    act q u Action.prepare =
      some (goto { q with owner := Function.update q.owner Lock.lock2 (some u) } u
        Pc.forking) := by
  simp only [act, prepare, hpc, pthread_mutex_lock, hfree, if_true, Option.map_some]

end Acts

theorem not_without2 {pc : Pc} (h : pc.holds Lock.lock2 = true) : ¬ Without2 pc := by
  unfold Without2
  rw [h]
  exact Bool.noConfusion

theorem clears_lock2 {p : Process} (h : Inv p) : Clears Without2 Lock.lock2 p := by
  have hparent2 : forall {q : Process} {u : Tid}, Inv q -> q.pc u = Pc.parent2 ->
      Clears Without2 Lock.lock2 q := by
    intro q u hq hpc
    have hact := act_parent2 hpc
    exact Clears.of_release hq (not_without2 (by rw [hpc]; rfl)) hact
  have hparent1 : forall {q : Process} {u : Tid}, Inv q -> q.pc u = Pc.parent1 ->
      Clears Without2 Lock.lock2 q := by
    intro q u hq hpc
    have hact := act_parent1 hpc
    exact Clears.of_act (not_without2 (by rw [hpc]; rfl)) hact
      (hparent2 (hq.act hact) (goto_same _ u _))
  have hchild2 : forall {q : Process} {u : Tid}, Inv q -> q.pc u = Pc.child2 ->
      Clears Without2 Lock.lock2 q := by
    intro q u hq hpc
    have hact := act_child2 hpc
    exact Clears.of_release hq (not_without2 (by rw [hpc]; rfl)) hact
  apply clears_of_owner h
  intro u hholds
  have hheld := not_without2 hholds
  cases hpc : p.pc u with
  | run has1 has2 =>
      rw [hpc] at hholds
      cases hholds
      have hact : act p u (Action.unlock Lock.lock2) =
          some (goto (pthread_mutex_unlock p Lock.lock2) u (Pc.run has1 false)) := by
        simp only [act, unlock, hpc]
      exact Clears.of_release h hheld hact
  | forking =>
      have hact := act_sysfork false hpc
      exact Clears.of_act hheld hact (hparent1 (h.act hact) (goto_same _ u _))
  | parent1 => exact hparent1 h hpc
  | parent2 => exact hparent2 h hpc
  | child1 =>
      have hact := act_child1 hpc
      exact Clears.of_act hheld hact (hchild2 (h.act hact) (goto_same _ u _))
  | child2 => exact hchild2 h hpc
  | lock2 _ | absent | lock1 | prepare1 | prepare2 | parentReturn | childReturn =>
      rw [hpc] at hholds
      cases hholds

def Lockless (pc : Pc) : Prop :=
  forall l, pc.holds l = false

theorem not_lockless {pc : Pc} {l : Lock} (h : pc.holds l = true) : ¬ Lockless pc := by
  intro hnone
  rw [hnone l] at h
  cases h

theorem clears_lock1 {p : Process} (h : Inv p) : Clears Lockless Lock.lock1 p := by
  have hparent1 : forall {q : Process} {u : Tid}, Inv q -> q.pc u = Pc.parent1 ->
      Clears Lockless Lock.lock1 q := by
    intro q u hq hpc
    have hact := act_parent1 hpc
    exact Clears.of_release hq (not_lockless (l := Lock.lock1) (by rw [hpc]; rfl)) hact
  have hforking : forall {q : Process} {u : Tid}, Inv q -> q.pc u = Pc.forking ->
      Clears Lockless Lock.lock1 q := by
    intro q u hq hpc
    have hact := act_sysfork false hpc
    exact Clears.of_act (not_lockless (l := Lock.lock1) (by rw [hpc]; rfl)) hact
      (hparent1 (hq.act hact) (goto_same _ u _))
  have hrun : forall {q : Process} {u : Tid} {has2 : Bool}, Inv q ->
      q.pc u = Pc.run true has2 -> Clears Lockless Lock.lock1 q := by
    intro q u has2 hq hpc
    have hact : act q u (Action.unlock Lock.lock1) =
        some (goto (pthread_mutex_unlock q Lock.lock1) u (Pc.run false has2)) := by
      simp only [act, unlock, hpc]
    exact Clears.of_release hq (not_lockless (l := Lock.lock1) (by rw [hpc]; rfl)) hact
  have hlockless : forall pc, Lockless pc -> Without2 pc := fun _ hnone => hnone Lock.lock2
  apply clears_of_owner h
  intro u hholds
  have hheld := not_lockless hholds
  cases hpc : p.pc u with
  | run has1 has2 =>
      rw [hpc] at hholds
      cases hholds
      exact hrun h hpc
  | lock2 has1 =>
      rw [hpc] at hholds
      cases hholds
      -- its wait for `lock2` comes to an end first
      apply (clears_lock2 h).andThen hlockless
      intro q hq hfree hsame
      have hq2 : q.pc u = Pc.lock2 true := by
        rw [hsame u (by rw [hpc]; rfl), hpc]
      have hact : act q u Action.acquire =
          some (goto { q with owner := Function.update q.owner Lock.lock2 (some u) } u
            (Pc.run true true)) := by
        simp only [act, acquire, hq2, pthread_mutex_lock, hfree, if_true, Option.map_some]
      exact Clears.of_act (not_lockless (l := Lock.lock1) (by rw [hq2]; rfl)) hact
        (hrun (hq.act hact) (goto_same _ u _))
  | prepare2 =>
      apply (clears_lock2 h).andThen hlockless
      intro q hq hfree hsame
      have hq2 : q.pc u = Pc.prepare2 := by
        rw [hsame u (by rw [hpc]; rfl), hpc]
      have hact := act_prepare2 hq2 hfree
      exact Clears.of_act (not_lockless (l := Lock.lock1) (by rw [hq2]; rfl)) hact
        (hforking (hq.act hact) (goto_same _ u _))
  | forking => exact hforking h hpc
  | parent1 => exact hparent1 h hpc
  | child1 =>
      have hact := act_child1 hpc
      exact Clears.of_release h hheld hact
  | absent | lock1 | prepare1 | parent2 | parentReturn | child2 | childReturn =>
      rw [hpc] at hholds
      cases hholds

/-- Where the call of `fork` that a thread is in returns. -/
def Pc.returnsAt : Pc -> Option Pc
  | Pc.prepare1 => some Pc.parentReturn
  | Pc.prepare2 => some Pc.parentReturn
  | Pc.forking => some Pc.parentReturn
  | Pc.parent1 => some Pc.parentReturn
  | Pc.parent2 => some Pc.parentReturn
  | Pc.child1 => some Pc.childReturn
  | Pc.child2 => some Pc.childReturn
  | _ => none

/-- The call has returned, and its thread has neither lock. -/
def Returned (t : Tid) (pc : Pc) (p : Process) : Prop :=
  p.pc t = pc ∧ forall l, p.owner l ≠ some t

theorem Returned.of_inv {p : Process} (h : Inv p) {t : Tid} {pc : Pc}
    (hpc : p.pc t = pc) (hnone : Lockless pc) : Returned t pc p := by
  refine ⟨hpc, ?_⟩
  intro l howner
  have hholds := h.holds howner
  rw [hpc, hnone l] at hholds
  cases hholds

theorem returns {p : Process} (h : Inv p) {t : Tid} {pc : Pc}
    (hreturns : (p.pc t).returnsAt = some pc) :
    process.CanReach (Returned t pc) p := by
  have hparent2 : forall {q : Process}, Inv q -> q.pc t = Pc.parent2 ->
      process.CanReach (Returned t Pc.parentReturn) q := by
    intro q hq hpc
    have hact := act_parent2 hpc
    exact Machine.CanReach.of_step (t, Action.parent) hact (Machine.CanReach.here
      (Returned.of_inv (hq.act hact) (goto_same _ t _) (forall_lock rfl rfl)))
  have hparent1 : forall {q : Process}, Inv q -> q.pc t = Pc.parent1 ->
      process.CanReach (Returned t Pc.parentReturn) q := by
    intro q hq hpc
    have hact := act_parent1 hpc
    exact Machine.CanReach.of_step (t, Action.parent) hact
      (hparent2 (hq.act hact) (goto_same _ t _))
  have hforking : forall {q : Process}, Inv q -> q.pc t = Pc.forking ->
      process.CanReach (Returned t Pc.parentReturn) q := by
    intro q hq hpc
    have hact := act_sysfork true hpc
    exact Machine.CanReach.of_step (t, Action.sysfork true) hact
      (hparent1 (hq.act hact) (goto_same _ t _))
  have hprepare2 : forall {q : Process}, Inv q -> q.pc t = Pc.prepare2 ->
      process.CanReach (Returned t Pc.parentReturn) q := by
    intro q hq hpc
    apply (clears_lock2 hq).trans
    rintro r ⟨hr, hfree, hsame⟩
    have hr2 : r.pc t = Pc.prepare2 := by
      rw [hsame t (by rw [hpc]; rfl), hpc]
    have hact := act_prepare2 hr2 hfree
    exact Machine.CanReach.of_step (t, Action.prepare) hact
      (hforking (hr.act hact) (goto_same _ t _))
  have hchild2 : forall {q : Process}, Inv q -> q.pc t = Pc.child2 ->
      process.CanReach (Returned t Pc.childReturn) q := by
    intro q hq hpc
    have hact := act_child2 hpc
    exact Machine.CanReach.of_step (t, Action.child) hact (Machine.CanReach.here
      (Returned.of_inv (hq.act hact) (goto_same _ t _) (forall_lock rfl rfl)))
  cases hpc : p.pc t with
  | prepare1 =>
      rw [hpc] at hreturns
      cases hreturns
      apply (clears_lock1 h).trans
      rintro q ⟨hq, hfree, hsame⟩
      have hq1 : q.pc t = Pc.prepare1 := by
        rw [hsame t (by rw [hpc]; exact forall_lock rfl rfl), hpc]
      have hact : act q t Action.prepare =
          some (goto { q with owner := Function.update q.owner Lock.lock1 (some t) } t
            Pc.prepare2) := by
        simp only [act, prepare, hq1, pthread_mutex_lock, hfree, if_true, Option.map_some]
      exact Machine.CanReach.of_step (t, Action.prepare) hact
        (hprepare2 (hq.act hact) (goto_same _ t _))
  | prepare2 =>
      rw [hpc] at hreturns
      cases hreturns
      exact hprepare2 h hpc
  | forking =>
      rw [hpc] at hreturns
      cases hreturns
      exact hforking h hpc
  | parent1 =>
      rw [hpc] at hreturns
      cases hreturns
      exact hparent1 h hpc
  | parent2 =>
      rw [hpc] at hreturns
      cases hreturns
      exact hparent2 h hpc
  | child1 =>
      rw [hpc] at hreturns
      cases hreturns
      have hact := act_child1 hpc
      exact Machine.CanReach.of_step (t, Action.child) hact
        (hchild2 (h.act hact) (goto_same _ t _))
  | child2 =>
      rw [hpc] at hreturns
      cases hreturns
      exact hchild2 h hpc
  | run _ _ | lock2 _ | absent | lock1 | parentReturn | childReturn =>
      rw [hpc] at hreturns
      cases hreturns

theorem canReach_of_process {P : Process -> Prop} {s : State} {i : Nat} {p : Process}
    (hp : s.procs[i]? = some p) (h : process.CanReach P p) :
    machine.CanReach (fun s' => exists q, s'.procs[i]? = some q ∧ P q) s := by
  rcases h with ⟨ls, q, hrun, hq⟩
  induction ls generalizing s p with
  | nil =>
      rw [Machine.run_nil] at hrun
      cases hrun
      exact Machine.CanReach.here ⟨_, hp, hq⟩
  | cons l rest ih =>
      rw [Machine.run_cons] at hrun
      cases hact : act p l.1 l.2 with
      | none =>
          simp only [process, hact] at hrun
          cases hrun
      | some after =>
          simp only [process, hact] at hrun
          have hstep : machine.step s ⟨i, l.1, l.2⟩ =
              some { procs := s.procs.set i after ++ created p l.1 l.2 } := by
            simp only [machine, step, hp, hact]
          apply Machine.CanReach.of_step _ hstep
          apply ih _ hrun
          have hlt : i < s.procs.length := (List.getElem?_eq_some_iff.mp hp).1
          rw [List.getElem?_append_left (by rw [List.length_set]; exact hlt),
            List.getElem?_set_self hlt]

/--
In every process of every reachable state: whoever is about to fork has both
locks, the child returns from `fork` with both free and the parent without
having either, and no threads wait for each other.  Whoever is in `fork` can return
from it, and then without either lock.
-/
theorem fork_handlers_safe {s : State} (hs : machine.Reachable s) :
    (forall p, p ∈ s.procs -> ForkSafe p) ∧
      forall (i : Nat) (p : Process) (t : Tid) (pc : Pc),
        s.procs[i]? = some p -> (p.pc t).returnsAt = some pc ->
          machine.CanReach
            (fun s' => exists q, s'.procs[i]? = some q ∧ Returned t pc q) s := by
  have hinv := inv_of_reachable hs
  constructor
  · intro p hp
    exact (hinv p hp).forkSafe
  · intro i p t pc hp hreturns
    exact canReach_of_process hp (returns (hinv p (List.mem_of_getElem? hp)) hreturns)

def twoThreads : Process where
  owner := fun _ => none
  pc := fun t => if t < 2 then Pc.run false false else Pc.absent

theorem twoThreads_init : machine.init { procs := [twoThreads] } := by
  refine ⟨twoThreads, rfl, fun _ => rfl, ?_⟩
  intro t
  by_cases ht : t < 2
  · exact Or.inr (if_pos ht)
  · exact Or.inl (if_neg ht)

/-- Thread 0 calls `fork` while thread 1 has `lock1`. -/
def callsFork : List Label :=
  [⟨0, 1, Action.lock Lock.lock1⟩, ⟨0, 1, Action.acquire⟩, ⟨0, 0, Action.fork⟩]

def oneFork : List Label :=
  callsFork ++
    [⟨0, 1, Action.unlock Lock.lock1⟩, ⟨0, 0, Action.prepare⟩,
      ⟨0, 0, Action.prepare⟩, ⟨0, 0, Action.sysfork true⟩,
      ⟨0, 0, Action.parent⟩, ⟨0, 0, Action.parent⟩,
      ⟨1, 0, Action.child⟩, ⟨1, 0, Action.child⟩]

theorem oneFork_safe :
    (exists s, machine.Reachable s ∧
      s.procs.map (fun p => (p.pc 0, p.pc 1)) =
        [(Pc.parentReturn, Pc.run false false), (Pc.childReturn, Pc.absent)] ∧
      forall p, p ∈ s.procs -> ForkSafe p) ∧
      exists s, machine.Reachable s ∧
        s.procs.map (fun p => (p.pc 0, p.pc 1)) = [(Pc.prepare1, Pc.run true false)] ∧
        machine.CanReach
          (fun s' => exists q, s'.procs[0]? = some q ∧ Returned 0 Pc.parentReturn q) s := by
  constructor
  · have hrun : (machine.run { procs := [twoThreads] } oneFork).map
        (fun s => s.procs.map (fun p => (p.pc 0, p.pc 1))) =
          some [(Pc.parentReturn, Pc.run false false),
            (Pc.childReturn, Pc.absent)] := by
      rfl
    rcases Machine.exists_reachable_of_run twoThreads_init hrun with ⟨s, hreach, hprocs⟩
    exact ⟨s, hreach, hprocs, (fork_handlers_safe hreach).1⟩
  · have hrun : (machine.run { procs := [twoThreads] } callsFork).map
        (fun s => s.procs.map (fun p => (p.pc 0, p.pc 1))) =
          some [(Pc.prepare1, Pc.run true false)] := by
      rfl
    rcases Machine.exists_reachable_of_run twoThreads_init hrun with ⟨s, hreach, hprocs⟩
    refine ⟨s, hreach, hprocs, ?_⟩
    rcases List.map_eq_singleton_iff.mp hprocs with ⟨p, hp, hpcs⟩
    have hpc : p.pc 0 = Pc.prepare1 := congrArg Prod.fst hpcs
    apply (fork_handlers_safe hreach).2 0 p 0 Pc.parentReturn
    · rw [hp]
      rfl
    · rw [hpc]
      rfl

end Thrfork
end Apue
