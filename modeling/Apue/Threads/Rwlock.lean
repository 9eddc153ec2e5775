import Apue.Foundation.Rwlock
import Apue.Foundation.Transition

/-!
# Two threads and a reader-writer lock

`thr_rtn1` takes the lock for reading, gives it back, and at last tries to take it
for reading once more; when it gets it, it exits with it.  `thr_rtn2` waits for
the write lock.  `main` waits for both threads and then releases the lock, which
it has never taken.
-/

namespace Apue
namespace Rwlocks

open Foundation

inductive Thread where
  | thr1
  | thr2
  | main
  deriving Repr, DecidableEq

inductive Thr1Pc where
  | before
  | rdlock
  | trywrlock
  | unlock
  | tryrdlock
  | exited (got : Bool)
  deriving Repr, DecidableEq

inductive Thr2Pc where
  | before
  | rdlock
  | unlockRead
  | wrlock
  | unlockWrite
  | exited
  deriving Repr, DecidableEq

/-- The next call of `main`.  What a call of `pthread_rwlock_unlock` does without
the lock is undefined, and nothing is said of what comes after it. -/
inductive MainPc where
  | init
  | create1
  | create2
  | join1
  | join2
  | unlock
  | destroy
  | returned
  | undefined
  deriving Repr, DecidableEq

structure State where
  lock : Rwlock Thread
  thr1 : Thr1Pc
  thr2 : Thr2Pc
  main : MainPc
  deriving Repr, DecidableEq

/-- The threads take their steps in any order; `ok` is the outcome of a call of
`pthread_rwlock_init`, `pthread_create` or `pthread_rwlock_tryrdlock`. -/
inductive Label where
  | init (ok : Bool)
  | create1 (ok : Bool)
  | create2 (ok : Bool)
  | thr1
  | tryrdlock (ok : Bool)
  | thr2
  | main
  deriving Repr, DecidableEq

/-- `pthread_rwlock_trywrlock` does not wait. -/
def thr_rtn1 (s : State) : Option State :=
  match s.thr1 with
  | Thr1Pc.rdlock =>
      (s.lock.rdlock Thread.thr1).map
        (fun l => { s with lock := l, thr1 := Thr1Pc.trywrlock })
  | Thr1Pc.trywrlock =>
      match s.lock.wrlock Thread.thr1 with
      | some l => some { s with lock := l, thr1 := Thr1Pc.unlock }
      | none => some { s with thr1 := Thr1Pc.unlock }
  | Thr1Pc.unlock =>
      (s.lock.unlock Thread.thr1).map
        (fun l => { s with lock := l, thr1 := Thr1Pc.tryrdlock })
  | _ => none

def tryrdlock (s : State) (ok : Bool) : Option State :=
  match s.thr1, ok with
  | Thr1Pc.tryrdlock, true =>
      (s.lock.rdlock Thread.thr1).map
        (fun l => { s with lock := l, thr1 := Thr1Pc.exited true })
  | Thr1Pc.tryrdlock, false =>
      if s.lock.writer ≠ none ∨ s.thr2 = Thr2Pc.wrlock then
        some { s with thr1 := Thr1Pc.exited false }
      else
        none
  | _, _ => none

def thr_rtn2 (s : State) : Option State :=
  match s.thr2 with
  | Thr2Pc.rdlock =>
      (s.lock.rdlock Thread.thr2).map
        (fun l => { s with lock := l, thr2 := Thr2Pc.unlockRead })
  | Thr2Pc.unlockRead =>
      (s.lock.unlock Thread.thr2).map
        (fun l => { s with lock := l, thr2 := Thr2Pc.wrlock })
  | Thr2Pc.wrlock =>
      (s.lock.wrlock Thread.thr2).map
        (fun l => { s with lock := l, thr2 := Thr2Pc.unlockWrite })
  | Thr2Pc.unlockWrite =>
      (s.lock.unlock Thread.thr2).map
        (fun l => { s with lock := l, thr2 := Thr2Pc.exited })
  | _ => none

/-- When the lock cannot be initialised `main` returns, which ends the process. -/
def init (s : State) (ok : Bool) : Option State :=
  match s.main with
  | MainPc.init =>
      if ok then
        some { s with lock := Rwlock.unlocked, main := MainPc.create1 }
      else
        some { s with main := MainPc.returned }
  | _ => none

def create1 (s : State) (ok : Bool) : Option State :=
  match s.main with
  | MainPc.create1 =>
      if ok then
        some { s with thr1 := Thr1Pc.rdlock, main := MainPc.create2 }
      else
        some { s with main := MainPc.returned }
  | _ => none

def create2 (s : State) (ok : Bool) : Option State :=
  match s.main with
  | MainPc.create2 =>
      if ok then
        some { s with thr2 := Thr2Pc.rdlock, main := MainPc.join1 }
      else
        some { s with main := MainPc.returned }
  | _ => none

def mainStep (s : State) : Option State :=
  match s.main with
  | MainPc.join1 =>
      match s.thr1 with
      | Thr1Pc.exited _ => some { s with main := MainPc.join2 }
      | _ => none
  | MainPc.join2 =>
      match s.thr2 with
      | Thr2Pc.exited => some { s with main := MainPc.unlock }
      | _ => none
  | MainPc.unlock =>
      match s.lock.unlock Thread.main with
      | some l => some { s with lock := l, main := MainPc.destroy }
      | none => some { s with main := MainPc.undefined }
  | MainPc.destroy => some { s with main := MainPc.returned }
  | _ => none

def Over (s : State) : Prop :=
  s.main = MainPc.returned ∨ s.main = MainPc.undefined

instance (s : State) : Decidable (Over s) :=
  inferInstanceAs (Decidable (_ ∨ _))

def step (s : State) (l : Label) : Option State :=
  if Over s then
    none
  else
    match l with
    | Label.init ok => init s ok
    | Label.create1 ok => create1 s ok
    | Label.create2 ok => create2 s ok
    | Label.thr1 => thr_rtn1 s
    | Label.tryrdlock ok => tryrdlock s ok
    | Label.thr2 => thr_rtn2 s
    | Label.main => mainStep s

def start : State where
  lock := Rwlock.unlocked
  thr1 := Thr1Pc.before
  thr2 := Thr2Pc.before
  main := MainPc.init

def machine : Machine State Label where
  init s := s = start
  step := step

/-!
# The invariant
-/

def Thr1Pc.reads : Thr1Pc -> Bool
  | Thr1Pc.trywrlock => true
  | Thr1Pc.unlock => true
  | Thr1Pc.exited got => got
  | _ => false

def Thr1Pc.over : Thr1Pc -> Bool
  | Thr1Pc.exited _ => true
  | _ => false

def Thr2Pc.wrote : Thr2Pc -> Bool
  | Thr2Pc.unlockWrite => true
  | Thr2Pc.exited => true
  | _ => false

def Reads (s : State) : Thread -> Prop
  | Thread.thr1 => s.thr1.reads = true
  | Thread.thr2 => s.thr2 = Thr2Pc.unlockRead
  | Thread.main => False

def Writes (s : State) : Thread -> Prop
  | Thread.thr2 => s.thr2 = Thr2Pc.unlockWrite
  | _ => False

/-- How far the threads are at each point of `main`, which only returns when the lock
cannot be initialised or a thread not created. -/
def Joined (s : State) : Prop :=
  match s.main with
  | MainPc.init => s.thr1 = Thr1Pc.before ∧ s.thr2 = Thr2Pc.before ∧
      s.lock = Rwlock.unlocked
  | MainPc.create1 => s.thr1 = Thr1Pc.before ∧ s.thr2 = Thr2Pc.before
  | MainPc.create2 => s.thr1 ≠ Thr1Pc.before ∧ s.thr2 = Thr2Pc.before
  | MainPc.join1 => s.thr1 ≠ Thr1Pc.before ∧ s.thr2 ≠ Thr2Pc.before
  | MainPc.join2 => s.thr1.over = true ∧ s.thr2 ≠ Thr2Pc.before
  | MainPc.destroy => False
  | MainPc.returned => s.thr2 = Thr2Pc.before
  | _ => s.thr1.over = true ∧ s.thr2 = Thr2Pc.exited

structure Inv (s : State) : Prop where
  held : Rwlock.Held s.lock (Reads s) (Writes s)
  joined : Joined s

theorem start_inv : Inv start where
  held := by
    apply Rwlock.held_unlocked.of_iff
    · intro u
      cases u with
      | thr1 => simp [Reads, start, Thr1Pc.reads]
      | thr2 => simp [Reads, start]
      | main => exact Iff.rfl
    · intro u
      cases u with
      | thr2 => simp [Writes, start]
      | _ => exact Iff.rfl
  joined := ⟨rfl, rfl, rfl⟩

section

variable {s t : State}

theorem not_writes (h : s.thr2 ≠ Thr2Pc.unlockWrite) (u : Thread) : ¬ Writes s u := by
  cases u with
  | thr2 => exact h
  | _ => exact fun hfalse => hfalse

theorem Inv.of_same (h : Inv s) (hlock : t.lock = s.lock)
    (h1 : t.thr1.reads = s.thr1.reads) (h2 : t.thr2 = s.thr2)
    (hjoined : Joined t) : Inv t where
  held := by
    rw [hlock]
    apply h.held.of_iff
    · intro u
      cases u with
      | thr1 => simp only [Reads, h1]
      | thr2 => simp only [Reads, h2]
      | main => exact Iff.rfl
    · intro u
      cases u with
      | thr2 => simp only [Writes, h2]
      | _ => exact Iff.rfl
  joined := hjoined

theorem Joined.thr1 (h : Joined s) (hpc : s.thr1 ≠ Thr1Pc.before)
    (hover : s.thr1.over = false) (hpc' : t.thr1 ≠ Thr1Pc.before)
    (h2 : t.thr2 = s.thr2) (hmain : t.main = s.main) : Joined t := by
  unfold Joined at h ⊢
  rw [hmain, h2]
  cases hm : s.main with
  | init =>
      rw [hm] at h
      exact absurd h.1 hpc
  | create1 =>
      rw [hm] at h
      exact absurd h.1 hpc
  | create2 =>
      rw [hm] at h
      exact ⟨hpc', h.2⟩
  | join1 =>
      rw [hm] at h
      exact ⟨hpc', h.2⟩
  | destroy =>
      rw [hm] at h
      exact h
  | returned =>
      rw [hm] at h
      exact h
  | _ =>
      rw [hm] at h
      rw [hover] at h
      cases h.1

theorem Joined.thr2 (h : Joined s) (hpc : s.thr2 ≠ Thr2Pc.before)
    (hover : s.thr2 ≠ Thr2Pc.exited) (hpc' : t.thr2 ≠ Thr2Pc.before)
    (h1 : t.thr1 = s.thr1) (hmain : t.main = s.main) : Joined t := by
  unfold Joined at h ⊢
  rw [hmain, h1]
  cases hm : s.main with
  | init =>
      rw [hm] at h
      exact absurd h.2.1 hpc
  | create1 =>
      rw [hm] at h
      exact absurd h.2 hpc
  | create2 =>
      rw [hm] at h
      exact absurd h.2 hpc
  | join1 =>
      rw [hm] at h
      exact ⟨h.1, hpc'⟩
  | join2 =>
      rw [hm] at h
      exact ⟨h.1, hpc'⟩
  | destroy =>
      rw [hm] at h
      exact h
  | returned =>
      rw [hm] at h
      exact absurd h hpc
  | _ =>
      rw [hm] at h
      exact absurd h.2 hover

theorem Inv.not_wrlock {u : Thread} {l : Rwlock Thread} (h : Inv s)
    (hreads : s.thr1.reads = true) (hl : s.lock.wrlock u = some l) : False :=
  (h.held.wrlock_isSome_iff.mp ⟨l, hl⟩ Thread.thr1).1 hreads

theorem Inv.thr1 (h : Inv s) (hstep : thr_rtn1 s = some t) : Inv t := by
  have hjoined := h.joined
  unfold thr_rtn1 at hstep
  split at hstep
  · next hpc =>
      rcases Option.map_eq_some_iff.mp hstep with ⟨l, hl, heq⟩
      cases heq
      refine ⟨?_, ?_⟩
      · apply h.held.rdlock hl
        · simp [Reads, hpc, Thr1Pc.reads]
        · intro u
          cases u with
          | _ => simp [Reads, Thr1Pc.reads]
        · intro u
          cases u with
          | _ => exact Iff.rfl
      · exact hjoined.thr1 (by rw [hpc]; nofun) (by rw [hpc]; rfl) nofun rfl rfl
  · next hpc =>
      have hnone : s.lock.wrlock Thread.thr1 = none := by
        apply Option.eq_none_iff_forall_ne_some.mpr
        intro l hl
        exact h.not_wrlock (by rw [hpc]; rfl) hl
      rw [hnone] at hstep
      cases hstep
      apply h.of_same
      · rfl
      · rw [hpc]
        rfl
      · rfl
      · exact hjoined.thr1 (by rw [hpc]; nofun) (by rw [hpc]; rfl) nofun rfl rfl
  · next hpc =>
      rcases Option.map_eq_some_iff.mp hstep with ⟨l, hl, heq⟩
      cases heq
      refine ⟨?_, ?_⟩
      · apply h.held.unlock_reader hl
        · simp [Reads, hpc, Thr1Pc.reads]
        · intro u
          cases u with
          | _ => simp [Reads, Thr1Pc.reads]
        · intro u
          cases u with
          | _ => exact Iff.rfl
      · exact hjoined.thr1 (by rw [hpc]; nofun) (by rw [hpc]; rfl) nofun rfl rfl
  · cases hstep

theorem Inv.tryrdlock {ok : Bool} (h : Inv s) (hstep : tryrdlock s ok = some t) : Inv t := by
  have hjoined := h.joined
  unfold Rwlocks.tryrdlock at hstep
  split at hstep
  · next hpc =>
      rcases Option.map_eq_some_iff.mp hstep with ⟨l, hl, heq⟩
      cases heq
      refine ⟨?_, ?_⟩
      · apply h.held.rdlock hl
        · simp [Reads, hpc, Thr1Pc.reads]
        · intro u
          cases u with
          | _ => simp [Reads, Thr1Pc.reads]
        · intro u
          cases u with
          | _ => exact Iff.rfl
      · exact hjoined.thr1 (by rw [hpc]; nofun) (by rw [hpc]; rfl) nofun rfl rfl
  · next hpc =>
      split at hstep
      · cases hstep
        apply h.of_same
        · rfl
        · rw [hpc]
          rfl
        · rfl
        · exact hjoined.thr1 (by rw [hpc]; nofun) (by rw [hpc]; rfl) nofun rfl rfl
      · cases hstep
  · cases hstep

theorem Inv.thr2 (h : Inv s) (hstep : thr_rtn2 s = some t) : Inv t := by
  have hjoined := h.joined
  unfold thr_rtn2 at hstep
  split at hstep
  · next hpc =>
      rcases Option.map_eq_some_iff.mp hstep with ⟨l, hl, heq⟩
      cases heq
      refine ⟨?_, ?_⟩
      · apply h.held.rdlock hl
        · simp [Reads, hpc]
        · intro u
          cases u with
          | _ => simp [Reads]
        · intro u
          cases u with
          | _ => simp [Writes, hpc]
      · exact hjoined.thr2 (by rw [hpc]; nofun) (by rw [hpc]; nofun) nofun rfl rfl
  · next hpc =>
      rcases Option.map_eq_some_iff.mp hstep with ⟨l, hl, heq⟩
      cases heq
      refine ⟨?_, ?_⟩
      · apply h.held.unlock_reader hl
        · exact hpc
        · intro u
          cases u with
          | _ => simp [Reads]
        · intro u
          cases u with
          | _ => simp [Writes, hpc]
      · exact hjoined.thr2 (by rw [hpc]; nofun) (by rw [hpc]; nofun) nofun rfl rfl
  · next hpc =>
      rcases Option.map_eq_some_iff.mp hstep with ⟨l, hl, heq⟩
      cases heq
      refine ⟨?_, ?_⟩
      · apply h.held.wrlock hl
        · intro u
          cases u with
          | _ => simp [Reads, hpc]
        · intro u
          cases u with
          | _ => simp [Writes]
      · exact hjoined.thr2 (by rw [hpc]; nofun) (by rw [hpc]; nofun) nofun rfl rfl
  · next hpc =>
      rcases Option.map_eq_some_iff.mp hstep with ⟨l, hl, heq⟩
      cases heq
      refine ⟨?_, ?_⟩
      · apply h.held.unlock_writer hl
        · exact hpc
        · intro u
          cases u with
          | _ => simp [Reads, hpc]
        · exact not_writes nofun
      · exact hjoined.thr2 (by rw [hpc]; nofun) (by rw [hpc]; nofun) nofun rfl rfl
  · cases hstep

theorem init_moves {ok : Bool} (h : Inv s) (hstep : init s ok = some t) :
    s.main = MainPc.init ∧ s.thr1 = Thr1Pc.before ∧ s.thr2 = Thr2Pc.before ∧
      (t = { s with main := MainPc.create1 } ∨
        t = { s with main := MainPc.returned }) := by
  unfold init at hstep
  split at hstep
  · next hmain =>
      have hjoined := h.joined
      unfold Joined at hjoined
      rw [hmain] at hjoined
      refine ⟨hmain, hjoined.1, hjoined.2.1, ?_⟩
      split at hstep
      · cases hstep
        rw [← hjoined.2.2]
        exact Or.inl rfl
      · cases hstep
        exact Or.inr rfl
  · cases hstep

theorem Inv.init {ok : Bool} (h : Inv s) (hstep : init s ok = some t) : Inv t := by
  rcases init_moves h hstep with ⟨_, h1, h2, heq | heq⟩
  · rw [heq]
    exact h.of_same rfl rfl rfl ⟨h1, h2⟩
  · rw [heq]
    exact h.of_same rfl rfl rfl h2

theorem Inv.create1 {ok : Bool} (h : Inv s) (hstep : create1 s ok = some t) :
    Inv t := by
  unfold Rwlocks.create1 at hstep
  split at hstep
  · next hmain =>
      have hjoined := h.joined
      unfold Joined at hjoined
      rw [hmain] at hjoined
      rcases hjoined with ⟨h1, h2⟩
      split at hstep
      · cases hstep
        apply h.of_same
        · rfl
        · rw [h1]
          rfl
        · rfl
        · exact ⟨nofun, h2⟩
      · cases hstep
        apply h.of_same
        · rfl
        · rfl
        · rfl
        · exact h2
  · cases hstep

theorem Inv.create2 {ok : Bool} (h : Inv s) (hstep : create2 s ok = some t) :
    Inv t := by
  unfold Rwlocks.create2 at hstep
  split at hstep
  · next hmain =>
      have hjoined := h.joined
      unfold Joined at hjoined
      rw [hmain] at hjoined
      rcases hjoined with ⟨h1, h2⟩
      split at hstep
      · cases hstep
        refine ⟨?_, h1, nofun⟩
        apply h.held.of_iff
        · intro u
          cases u with
          | thr1 => exact Iff.rfl
          | thr2 => simp [Reads, h2]
          | main => exact Iff.rfl
        · intro u
          cases u with
          | thr2 => simp [Writes, h2]
          | _ => exact Iff.rfl
      · cases hstep
        apply h.of_same
        · rfl
        · rfl
        · rfl
        · exact h2
  · cases hstep

/-- `main` holds the lock at no point, so its `pthread_rwlock_unlock` is
undefined. -/
theorem Inv.unlock_main (h : Inv s) : s.lock.unlock Thread.main = none := by
  apply Option.eq_none_iff_forall_ne_some.mpr
  intro l hl
  rcases h.held.unlock_isSome_iff.mp ⟨l, hl⟩ with hreads | hwrites
  · exact hreads
  · exact hwrites

theorem Inv.main (h : Inv s) (hstep : mainStep s = some t) : Inv t := by
  unfold mainStep at hstep
  split at hstep
  · next hmain =>
      have hjoined := h.joined
      unfold Joined at hjoined
      rw [hmain] at hjoined
      split at hstep
      · next got h1 =>
          cases hstep
          apply h.of_same
          · rfl
          · rfl
          · rfl
          · exact ⟨by rw [h1]; rfl, hjoined.2⟩
      · cases hstep
  · next hmain =>
      have hjoined := h.joined
      unfold Joined at hjoined
      rw [hmain] at hjoined
      split at hstep
      · next h2 =>
          cases hstep
          apply h.of_same
          · rfl
          · rfl
          · rfl
          · exact ⟨hjoined.1, h2⟩
      · cases hstep
  · next hmain =>
      have hjoined := h.joined
      unfold Joined at hjoined
      rw [hmain] at hjoined
      rw [h.unlock_main] at hstep
      cases hstep
      apply h.of_same
      · rfl
      · rfl
      · rfl
      · exact hjoined
  · next hmain =>
      have hjoined := h.joined
      unfold Joined at hjoined
      rw [hmain] at hjoined
      exact absurd hjoined id
  · cases hstep

theorem Inv.after {l : Label} (h : Inv s) (hstep : step s l = some t) : Inv t := by
  unfold step at hstep
  split at hstep
  · cases hstep
  · cases l with
    | init ok => exact h.init hstep
    | create1 ok => exact h.create1 hstep
    | create2 ok => exact h.create2 hstep
    | thr1 => exact h.thr1 hstep
    | tryrdlock ok => exact h.tryrdlock hstep
    | thr2 => exact h.thr2 hstep
    | main => exact h.main hstep

theorem reachable_inv (h : machine.Reachable s) : Inv s :=
  Machine.invariant (fun _ hs => hs ▸ start_inv) (fun _ _ _ hs hst => hs.after hst) h

end

/-!
# How the program ends

Every run is short.  It hangs when the first thread exits with the read lock
before the second one has got the write lock; in every other state the calls of
`pthread_join` can still come back.
-/

/-- The read lock is never released. -/
def Doomed (s : State) : Prop :=
  s.thr1 = Thr1Pc.exited true ∧ s.thr2.wrote = false

def Thr1Pc.weight : Thr1Pc -> Nat
  | Thr1Pc.before => 5
  | Thr1Pc.rdlock => 4
  | Thr1Pc.trywrlock => 3
  | Thr1Pc.unlock => 2
  | Thr1Pc.tryrdlock => 1
  | Thr1Pc.exited _ => 0

def Thr2Pc.weight : Thr2Pc -> Nat
  | Thr2Pc.before => 5
  | Thr2Pc.rdlock => 4
  | Thr2Pc.unlockRead => 3
  | Thr2Pc.wrlock => 2
  | Thr2Pc.unlockWrite => 1
  | Thr2Pc.exited => 0

def MainPc.weight : MainPc -> Nat
  | MainPc.init => 7
  | MainPc.create1 => 6
  | MainPc.create2 => 5
  | MainPc.join1 => 4
  | MainPc.join2 => 3
  | MainPc.unlock => 2
  | MainPc.destroy => 1
  | MainPc.returned => 0
  | MainPc.undefined => 0

def weight (s : State) : Nat :=
  s.thr1.weight + s.thr2.weight + s.main.weight

section

variable {s t : State}

theorem thr_rtn1_moves (h : thr_rtn1 s = some t) :
    exists l pc, t = { s with lock := l, thr1 := pc } ∧
      pc.weight < s.thr1.weight ∧ pc.over = false := by
  unfold thr_rtn1 at h
  split at h
  · next hpc =>
      rcases Option.map_eq_some_iff.mp h with ⟨l, _, heq⟩
      exact ⟨l, Thr1Pc.trywrlock, heq.symm, by rw [hpc]; decide, rfl⟩
  · next hpc =>
      split at h
      · next l _ =>
          cases h
          exact ⟨l, Thr1Pc.unlock, rfl, by rw [hpc]; decide, rfl⟩
      · cases h
        exact ⟨s.lock, Thr1Pc.unlock, rfl, by rw [hpc]; decide, rfl⟩
  · next hpc =>
      rcases Option.map_eq_some_iff.mp h with ⟨l, _, heq⟩
      exact ⟨l, Thr1Pc.tryrdlock, heq.symm, by rw [hpc]; decide, rfl⟩
  · cases h

theorem tryrdlock_moves {ok : Bool} (h : tryrdlock s ok = some t) :
    exists l, t = { s with lock := l, thr1 := Thr1Pc.exited ok } ∧
      s.thr1 = Thr1Pc.tryrdlock := by
  unfold tryrdlock at h
  split at h
  · next hpc =>
      rcases Option.map_eq_some_iff.mp h with ⟨l, _, heq⟩
      exact ⟨l, heq.symm, hpc⟩
  · next hpc =>
      split at h
      · cases h
        exact ⟨s.lock, rfl, hpc⟩
      · cases h
  · cases h

/-- The second thread goes on, and has written only after it has got the write
lock. -/
theorem thr_rtn2_moves (h : thr_rtn2 s = some t) :
    exists l pc, t = { s with lock := l, thr2 := pc } ∧
      pc.weight < s.thr2.weight ∧
      (pc.wrote = true -> s.thr2.wrote = true ∨
        s.lock.wrlock Thread.thr2 = some l) := by
  unfold thr_rtn2 at h
  split at h
  · next hpc =>
      rcases Option.map_eq_some_iff.mp h with ⟨l, _, heq⟩
      exact ⟨l, Thr2Pc.unlockRead, heq.symm, by rw [hpc]; decide, nofun⟩
  · next hpc =>
      rcases Option.map_eq_some_iff.mp h with ⟨l, _, heq⟩
      exact ⟨l, Thr2Pc.wrlock, heq.symm, by rw [hpc]; decide, nofun⟩
  · next hpc =>
      rcases Option.map_eq_some_iff.mp h with ⟨l, hl, heq⟩
      exact ⟨l, Thr2Pc.unlockWrite, heq.symm, by rw [hpc]; decide,
        fun _ => Or.inr hl⟩
  · next hpc =>
      rcases Option.map_eq_some_iff.mp h with ⟨l, _, heq⟩
      exact ⟨l, Thr2Pc.exited, heq.symm, by rw [hpc]; decide,
        fun _ => Or.inl (by rw [hpc]; rfl)⟩
  · cases h

theorem create1_moves {ok : Bool} (h : Inv s) (hstep : create1 s ok = some t) :
    s.main = MainPc.create1 ∧ s.thr1 = Thr1Pc.before ∧
      (t = { s with thr1 := Thr1Pc.rdlock, main := MainPc.create2 } ∨
        t = { s with main := MainPc.returned }) := by
  unfold create1 at hstep
  split at hstep
  · next hmain =>
      have hjoined := h.joined
      unfold Joined at hjoined
      rw [hmain] at hjoined
      refine ⟨hmain, hjoined.1, ?_⟩
      split at hstep
      · cases hstep
        exact Or.inl rfl
      · cases hstep
        exact Or.inr rfl
  · cases hstep

theorem create2_moves {ok : Bool} (h : Inv s) (hstep : create2 s ok = some t) :
    s.main = MainPc.create2 ∧ s.thr2 = Thr2Pc.before ∧
      (t = { s with thr2 := Thr2Pc.rdlock, main := MainPc.join1 } ∨
        t = { s with main := MainPc.returned }) := by
  unfold create2 at hstep
  split at hstep
  · next hmain =>
      have hjoined := h.joined
      unfold Joined at hjoined
      rw [hmain] at hjoined
      refine ⟨hmain, hjoined.2, ?_⟩
      split at hstep
      · cases hstep
        exact Or.inl rfl
      · cases hstep
        exact Or.inr rfl
  · cases hstep

theorem mainStep_moves (h : Inv s) (hstep : mainStep s = some t) :
    exists pc, t = { s with main := pc } ∧ pc.weight < s.main.weight := by
  unfold mainStep at hstep
  split at hstep
  · next hmain =>
      split at hstep
      · cases hstep
        exact ⟨MainPc.join2, rfl, by rw [hmain]; decide⟩
      · cases hstep
  · next hmain =>
      split at hstep
      · cases hstep
        exact ⟨MainPc.unlock, rfl, by rw [hmain]; decide⟩
      · cases hstep
  · next hmain =>
      rw [h.unlock_main] at hstep
      cases hstep
      exact ⟨MainPc.undefined, rfl, by rw [hmain]; decide⟩
  · next hmain =>
      have hjoined := h.joined
      unfold Joined at hjoined
      rw [hmain] at hjoined
      exact absurd hjoined id
  · cases hstep

theorem step_eq_none (hover : Over s) (l : Label) : step s l = none := by
  unfold step
  exact if_pos hover

theorem not_over_of_step {l : Label} (h : step s l = some t) : ¬ Over s := by
  intro hover
  rw [step_eq_none hover] at h
  cases h

theorem weight_lt {l : Label} (h : Inv s) (hstep : step s l = some t) :
    weight t < weight s := by
  unfold step at hstep
  rw [if_neg (not_over_of_step hstep)] at hstep
  unfold weight
  cases l with
  | init ok =>
      rcases init_moves h hstep with ⟨hmain, _, _, heq | heq⟩
      · cases heq
        rw [hmain]
        show _ + 6 < _ + 7
        lia
      · cases heq
        rw [hmain]
        show _ + 0 < _ + 7
        lia
  | create1 ok =>
      rcases create1_moves h hstep with ⟨hmain, h1, heq | heq⟩
      · cases heq
        rw [hmain, h1]
        show 4 + _ + 5 < 5 + _ + 6
        lia
      · cases heq
        rw [hmain]
        show _ + 0 < _ + 6
        lia
  | create2 ok =>
      rcases create2_moves h hstep with ⟨hmain, h2, heq | heq⟩
      · cases heq
        rw [hmain, h2]
        show _ + 4 + 4 < _ + 5 + 5
        lia
      · cases heq
        rw [hmain]
        show _ + 0 < _ + 5
        lia
  | thr1 =>
      rcases thr_rtn1_moves hstep with ⟨l, pc, heq, hlt, _⟩
      cases heq
      show pc.weight + _ + _ < _
      lia
  | tryrdlock ok =>
      rcases tryrdlock_moves hstep with ⟨l, heq, hpc⟩
      cases heq
      rw [hpc]
      show 0 + _ + _ < 1 + _ + _
      lia
  | thr2 =>
      rcases thr_rtn2_moves hstep with ⟨l, pc, heq, hlt, _⟩
      cases heq
      show _ + pc.weight + _ < _
      lia
  | main =>
      rcases mainStep_moves h hstep with ⟨pc, heq, hlt⟩
      cases heq
      show _ + _ + pc.weight < _
      lia

theorem Doomed.after {l : Label} (h : Inv s) (hdoomed : Doomed s)
    (hstep : step s l = some t) : Doomed t := by
  rcases hdoomed with ⟨h1, h2⟩
  unfold step at hstep
  rw [if_neg (not_over_of_step hstep)] at hstep
  cases l with
  | init ok =>
      rcases init_moves h hstep with ⟨_, hbefore, _⟩
      rw [h1] at hbefore
      cases hbefore
  | create1 ok =>
      rcases create1_moves h hstep with ⟨_, hbefore, _⟩
      rw [h1] at hbefore
      cases hbefore
  | create2 ok =>
      rcases create2_moves h hstep with ⟨_, _, heq | heq⟩
      · cases heq
        exact ⟨h1, rfl⟩
      · cases heq
        exact ⟨h1, h2⟩
  | thr1 =>
      rcases thr_rtn1_moves hstep with ⟨_, _, _, hlt, _⟩
      rw [h1] at hlt
      exact absurd hlt (Nat.not_lt_zero _)
  | tryrdlock ok =>
      rcases tryrdlock_moves hstep with ⟨_, _, hpc⟩
      rw [h1] at hpc
      cases hpc
  | thr2 =>
      rcases thr_rtn2_moves hstep with ⟨l, pc, heq, _, hwrote⟩
      cases heq
      refine ⟨h1, ?_⟩
      apply Bool.eq_false_iff.mpr
      intro htrue
      rcases hwrote htrue with hwrote | hl
      · rw [h2] at hwrote
        cases hwrote
      · exact h.not_wrlock (by rw [h1]; rfl) hl
  | main =>
      rcases mainStep_moves h hstep with ⟨pc, heq, _⟩
      cases heq
      exact ⟨h1, h2⟩

theorem Doomed.main_ne (h : Inv s) (hdoomed : Doomed s) :
    s.main ≠ MainPc.unlock ∧ s.main ≠ MainPc.undefined := by
  rcases hdoomed with ⟨_, h2⟩
  have hjoined := h.joined
  unfold Joined at hjoined
  constructor
  · intro hmain
    rw [hmain] at hjoined
    rw [hjoined.2] at h2
    cases h2
  · intro hmain
    rw [hmain] at hjoined
    rw [hjoined.2] at h2
    cases h2

theorem Inv.rdlock_some (h : Inv s) (h2 : s.thr2 ≠ Thr2Pc.unlockWrite) (u : Thread) :
    exists l, s.lock.rdlock u = some l :=
  h.held.rdlock_isSome_iff.mpr (not_writes h2)

theorem Inv.thr1_some (h : Inv s) (h1 : s.thr1 ≠ Thr1Pc.before)
    (htry : s.thr1 ≠ Thr1Pc.tryrdlock) (hover : s.thr1.over = false)
    (h2 : s.thr2 ≠ Thr2Pc.unlockWrite) : exists t, thr_rtn1 s = some t := by
  unfold thr_rtn1
  cases hpc : s.thr1 with
  | before => exact absurd hpc h1
  | rdlock =>
      rcases h.rdlock_some h2 Thread.thr1 with ⟨l, hl⟩
      exact ⟨_, by rw [hl]; rfl⟩
  | trywrlock =>
      cases hl : s.lock.wrlock Thread.thr1 with
      | none => exact ⟨_, rfl⟩
      | some l => exact ⟨_, rfl⟩
  | unlock =>
      have hreads : Reads s Thread.thr1 := by
        show s.thr1.reads = true
        rw [hpc]
        rfl
      rcases h.held.unlock_isSome_iff.mpr (Or.inl hreads) with ⟨l, hl⟩
      exact ⟨_, by rw [hl]; rfl⟩
  | tryrdlock => exact absurd hpc htry
  | exited got =>
      rw [hpc] at hover
      cases hover

theorem Inv.thr2_some (h : Inv s) (h2 : s.thr2 ≠ Thr2Pc.before)
    (hexited : s.thr2 ≠ Thr2Pc.exited)
    (hwrlock : s.thr2 = Thr2Pc.wrlock -> s.thr1.reads = false) :
    exists t, thr_rtn2 s = some t := by
  unfold thr_rtn2
  cases hpc : s.thr2 with
  | before => exact absurd hpc h2
  | rdlock =>
      rcases h.rdlock_some (by rw [hpc]; nofun) Thread.thr2 with ⟨l, hl⟩
      exact ⟨_, by rw [hl]; rfl⟩
  | unlockRead =>
      have hsome := (h.held.unlock_isSome_iff (t := Thread.thr2)).mpr (Or.inl hpc)
      rcases hsome with ⟨l, hl⟩
      exact ⟨_, by rw [hl]; rfl⟩
  | wrlock =>
      have hsome := (h.held.wrlock_isSome_iff (t := Thread.thr2)).mpr (by
        intro u
        refine ⟨?_, not_writes (by rw [hpc]; nofun) u⟩
        cases u with
        | thr1 =>
            show ¬ s.thr1.reads = true
            rw [hwrlock hpc]
            nofun
        | thr2 =>
            show ¬ s.thr2 = Thr2Pc.unlockRead
            rw [hpc]
            nofun
        | main => exact id)
      rcases hsome with ⟨l, hl⟩
      exact ⟨_, by rw [hl]; rfl⟩
  | unlockWrite =>
      have hsome := (h.held.unlock_isSome_iff (t := Thread.thr2)).mpr (Or.inr hpc)
      rcases hsome with ⟨l, hl⟩
      exact ⟨_, by rw [hl]; rfl⟩
  | exited => exact absurd hpc hexited

theorem not_over_of (hreturned : t.main ≠ MainPc.returned)
    (hundefined : t.main ≠ MainPc.undefined) : ¬ Over t :=
  fun h => h.elim hreturned hundefined

theorem wrote_of_weight_lt {pc pc' : Thr2Pc} (hlt : pc.weight < pc'.weight)
    (hwrote : pc'.wrote = true) : pc.wrote = true := by
  cases pc' with
  | unlockWrite =>
      cases pc with
      | exited => rfl
      | _ => exact absurd hlt (by decide)
  | exited => exact absurd hlt (Nat.not_lt_zero _)
  | _ => cases hwrote

theorem thr1_progress (hover : ¬ Over s) (hthr : exists t, thr_rtn1 s = some t) :
    exists l t, step s l = some t ∧ ¬ Over t ∧ ¬ Doomed t := by
  rcases hthr with ⟨t, ht⟩
  refine ⟨Label.thr1, t, ?_, ?_⟩
  · unfold step
    rw [if_neg hover]
    exact ht
  · rcases thr_rtn1_moves ht with ⟨l, pc, heq, _, hpc⟩
    cases heq
    refine ⟨hover, ?_⟩
    rintro ⟨h1, _⟩
    rw [show pc = Thr1Pc.exited true from h1] at hpc
    cases hpc

theorem thr2_progress (hover : ¬ Over s) (hdoomed : ¬ Doomed s)
    (hthr : exists t, thr_rtn2 s = some t) :
    exists l t, step s l = some t ∧ ¬ Over t ∧ ¬ Doomed t := by
  rcases hthr with ⟨t, ht⟩
  refine ⟨Label.thr2, t, ?_, ?_⟩
  · unfold step
    rw [if_neg hover]
    exact ht
  · rcases thr_rtn2_moves ht with ⟨l, pc, heq, hlt, _⟩
    cases heq
    refine ⟨hover, ?_⟩
    rintro ⟨h1, h2⟩
    apply hdoomed
    refine ⟨h1, ?_⟩
    apply Bool.eq_false_iff.mpr
    intro hwrote
    rw [wrote_of_weight_lt hlt hwrote] at h2
    cases h2

/-- While `main` waits for the threads, a thread can go on or both are over, but
for the read lock that is never released. -/
theorem threads_progress (h : Inv s) (hover : ¬ Over s) (hdoomed : ¬ Doomed s)
    (h1 : s.thr1 ≠ Thr1Pc.before) (h2 : s.thr2 ≠ Thr2Pc.before) :
    (s.thr1.over = true ∧ s.thr2 = Thr2Pc.exited) ∨
      exists l t, step s l = some t ∧ ¬ Over t ∧ ¬ Doomed t := by
  by_cases hexited : s.thr2 = Thr2Pc.exited
  · by_cases hthr1 : s.thr1.over = true
    · exact Or.inl ⟨hthr1, hexited⟩
    · by_cases htry : s.thr1 = Thr1Pc.tryrdlock
      · -- the second thread has written, and the read lock may stay taken
        rcases h.rdlock_some (by rw [hexited]; nofun) Thread.thr1 with ⟨l, hl⟩
        refine Or.inr ⟨Label.tryrdlock true,
          { s with lock := l, thr1 := Thr1Pc.exited true }, ?_, hover, ?_⟩
        · unfold step tryrdlock
          rw [if_neg hover, htry, hl]
          rfl
        · rintro ⟨_, hwrote⟩
          rw [show s.thr2.wrote = true by rw [hexited]; rfl] at hwrote
          cases hwrote
      · right
        apply thr1_progress hover
        exact h.thr1_some h1 htry (Bool.eq_false_iff.mpr hthr1) (by rw [hexited]; nofun)
  · right
    by_cases hwaits : s.thr2 = Thr2Pc.wrlock ∧ s.thr1.reads = true
    · rcases hwaits with ⟨hwrlock, hreads⟩
      apply thr1_progress hover
      apply h.thr1_some h1
      · intro htry
        rw [htry] at hreads
        cases hreads
      · cases hpc : s.thr1 with
        | exited got =>
            rw [hpc] at hreads
            have hgot : got = true := hreads
            rw [hgot] at hpc
            exact absurd ⟨hpc, by rw [hwrlock]; rfl⟩ hdoomed
        | _ => rfl
      · rw [hwrlock]
        nofun
    · apply thr2_progress hover hdoomed
      apply h.thr2_some h2 hexited
      intro hwrlock
      exact Bool.eq_false_iff.mpr (fun hreads => hwaits ⟨hwrlock, hreads⟩)

theorem progress (h : Inv s) (hover : ¬ Over s) (hdoomed : ¬ Doomed s)
    (hunlock : s.main ≠ MainPc.unlock) :
    exists l t, step s l = some t ∧ ¬ Over t ∧ ¬ Doomed t := by
  have hjoined := h.joined
  unfold Joined at hjoined
  cases hmain : s.main with
  | init =>
      refine ⟨Label.init true, { s with lock := Rwlock.unlocked, main := MainPc.create1 },
        ?_, not_over_of nofun nofun, hdoomed⟩
      unfold step init
      rw [if_neg hover, hmain]
      rfl
  | create1 =>
      refine ⟨Label.create1 true,
        { s with thr1 := Thr1Pc.rdlock, main := MainPc.create2 }, ?_,
        not_over_of nofun nofun, nofun⟩
      unfold step create1
      rw [if_neg hover, hmain]
      rfl
  | create2 =>
      rw [hmain] at hjoined
      refine ⟨Label.create2 true,
        { s with thr2 := Thr2Pc.rdlock, main := MainPc.join1 }, ?_,
        not_over_of nofun nofun, ?_⟩
      · unfold step create2
        rw [if_neg hover, hmain]
        rfl
      · rintro ⟨h1, _⟩
        exact hdoomed ⟨h1, by rw [hjoined.2]; rfl⟩
  | join1 =>
      rw [hmain] at hjoined
      rcases threads_progress h hover hdoomed hjoined.1 hjoined.2 with ⟨h1, h2⟩ | hstep
      · refine ⟨Label.main, { s with main := MainPc.join2 }, ?_,
          not_over_of nofun nofun, hdoomed⟩
        unfold step mainStep
        rw [if_neg hover, hmain]
        cases hpc : s.thr1 with
        | exited got => rfl
        | _ =>
            rw [hpc] at h1
            cases h1
      · exact hstep
  | join2 =>
      rw [hmain] at hjoined
      have h1 : s.thr1 ≠ Thr1Pc.before := by
        intro hpc
        rw [hpc] at hjoined
        cases hjoined.1
      rcases threads_progress h hover hdoomed h1 hjoined.2 with ⟨_, h2⟩ | hstep
      · refine ⟨Label.main, { s with main := MainPc.unlock }, ?_,
          not_over_of nofun nofun, hdoomed⟩
        unfold step mainStep
        rw [if_neg hover, hmain, h2]
      · exact hstep
  | unlock => exact absurd hmain hunlock
  | destroy =>
      rw [hmain] at hjoined
      exact absurd hjoined id
  | returned => exact absurd (Or.inl hmain) hover
  | undefined => exact absurd (Or.inr hmain) hover

end

/-- The wait for the first thread is over, and the second one waits for good. -/
def Hangs (s : State) : Prop :=
  s.main = MainPc.join2 ∧ s.thr1 = Thr1Pc.exited true ∧ s.thr2 = Thr2Pc.wrlock

theorem Hangs.step_eq_none {s : State} (h : Inv s) (hhangs : Hangs s) (l : Label) :
    step s l = none := by
  rcases hhangs with ⟨hmain, h1, h2⟩
  unfold step
  split
  · rfl
  · cases l with
    | init ok =>
        show init s ok = none
        unfold init
        rw [hmain]
    | create1 ok =>
        show create1 s ok = none
        unfold create1
        rw [hmain]
    | create2 ok =>
        show create2 s ok = none
        unfold create2
        rw [hmain]
    | thr1 =>
        show thr_rtn1 s = none
        unfold thr_rtn1
        rw [h1]
    | tryrdlock ok =>
        show tryrdlock s ok = none
        unfold tryrdlock
        rw [h1]
    | thr2 =>
        show thr_rtn2 s = none
        unfold thr_rtn2
        rw [h2]
        apply Option.map_eq_none_iff.mpr
        apply Option.eq_none_iff_forall_ne_some.mpr
        intro l hl
        exact h.not_wrlock (by rw [h1]; rfl) hl
    | main =>
        show mainStep s = none
        unfold mainStep
        rw [hmain, h2]

theorem halted_cases {s : State} (h : Inv s) (hover : ¬ Over s)
    (hhalted : machine.Halted s) : Hangs s := by
  have hnot : forall l t, step s l ≠ some t := by
    intro l t hst
    rw [show step s l = none from hhalted l] at hst
    cases hst
  have hunlock : s.main ≠ MainPc.unlock := by
    intro hmain
    apply hnot Label.main { s with main := MainPc.undefined }
    unfold step mainStep
    rw [if_neg hover, hmain, h.unlock_main]
  by_cases hdoomed : Doomed s
  · rcases hdoomed with ⟨h1, hwrote⟩
    have hjoined := h.joined
    unfold Joined at hjoined
    cases hmain : s.main with
    | init =>
        rw [hmain, h1] at hjoined
        cases hjoined.1
    | create1 =>
        rw [hmain, h1] at hjoined
        cases hjoined.1
    | create2 =>
        apply absurd _ (hnot (Label.create2 false) { s with main := MainPc.returned })
        unfold step create2
        rw [if_neg hover, hmain]
        rfl
    | join1 =>
        apply absurd _ (hnot Label.main { s with main := MainPc.join2 })
        unfold step mainStep
        rw [if_neg hover, hmain, h1]
    | join2 =>
        rw [hmain] at hjoined
        refine ⟨hmain, h1, ?_⟩
        apply Classical.not_not.mp
        intro hwrlock
        rcases h.thr2_some hjoined.2 (fun hexited => by rw [hexited] at hwrote; cases hwrote)
          (fun heq => absurd heq hwrlock) with ⟨t, ht⟩
        apply hnot Label.thr2 t
        unfold step
        rw [if_neg hover]
        exact ht
    | unlock => exact absurd hmain hunlock
    | destroy =>
        rw [hmain] at hjoined
        exact absurd hjoined id
    | returned => exact absurd (Or.inl hmain) hover
    | undefined => exact absurd (Or.inr hmain) hover
  · rcases progress h hover hdoomed hunlock with ⟨l, t, hst, _⟩
    exact absurd hst (hnot l t)

/-- From every state of a run `main` may still come to its `pthread_rwlock_unlock`,
except when the first thread has exited with the read lock before the second one
has got the write lock. -/
theorem unlock_iff {s : State} (h : machine.Reachable s) (hover : ¬ Over s) :
    machine.CanReach (fun t => t.main = MainPc.unlock) s ↔ ¬ Doomed s := by
  constructor
  · rintro ⟨ls, t, hrun, hmain⟩ hdoomed
    have hall : Inv t ∧ Doomed t := by
      apply Machine.invariant_of_run (M := machine) (I := fun u => Inv u ∧ Doomed u)
        (C := fun _ => True) _ ⟨reachable_inv h, hdoomed⟩ (fun _ _ => trivial) hrun
      intro u l v hu _ hst
      exact ⟨hu.1.after hst, hu.2.after hu.1 hst⟩
    exact (hall.2.main_ne hall.1).1 hmain
  · intro hdoomed
    apply Machine.CanReach.of_measure (I := fun u => Inv u ∧ ¬ Over u ∧ ¬ Doomed u) weight
    · rintro u ⟨hu, hnot, hfine⟩ hunlock
      rcases progress hu hnot hfine hunlock with ⟨l, t, hst, hpast⟩
      exact ⟨l, t, hst, ⟨hu.after hst, hpast⟩, weight_lt hu hst⟩
    · exact ⟨reachable_inv h, hover, hdoomed⟩

def early : List Label :=
  [Label.init true, Label.create1 true, Label.create2 true, Label.thr1, Label.thr1,
    Label.thr1, Label.tryrdlock true]

theorem unlock_iff_early :
    exists s, machine.run start early = some s ∧
      ¬ machine.CanReach (fun t => t.main = MainPc.unlock) s := by
  have hrun : machine.run start early =
      some ⟨⟨[Thread.thr1], none⟩, Thr1Pc.exited true, Thr2Pc.rdlock, MainPc.join1⟩ := rfl
  refine ⟨_, hrun, ?_⟩
  intro hreach
  have hreachable := Machine.reachable_of_run (Machine.ReachableUnder.init rfl) hrun
  exact (unlock_iff hreachable (by decide)).mp hreach ⟨rfl, rfl⟩

/-- A run has at most seventeen steps.  At its end `main` has returned because the
lock could not be initialised or a thread not created, or it has released a lock that
it does not hold, or it waits for a second thread that waits for the write lock. -/
theorem run_ends {s : State} {ls : List Label} (hrun : machine.run start ls = some s) :
    ls.length ≤ 17 ∧
      (machine.Halted s ↔
        (s.main = MainPc.returned ∧ s.thr2 = Thr2Pc.before) ∨
        s.main = MainPc.undefined ∨
        Hangs s) := by
  have hinv : Inv s := reachable_inv
    (Machine.reachable_of_run (Machine.ReachableUnder.init rfl) hrun)
  constructor
  · have hstep : forall u l v, Inv u -> machine.step u l = some v ->
        Inv v ∧ weight v < weight u :=
      fun _ _ _ hu hst => ⟨hu.after hst, weight_lt hu hst⟩
    have hle := Machine.run_length_le hstep start_inv hrun
    exact Nat.le_trans (Nat.le_add_right _ _) hle
  · constructor
    · intro hhalted
      by_cases hover : Over s
      · rcases hover with hmain | hmain
        · have hjoined := hinv.joined
          unfold Joined at hjoined
          rw [hmain] at hjoined
          exact Or.inl ⟨hmain, hjoined⟩
        · exact Or.inr (Or.inl hmain)
      · exact Or.inr (Or.inr (halted_cases hinv hover hhalted))
    · rintro (⟨hmain, _⟩ | hmain | hhangs) l
      · exact step_eq_none (Or.inl hmain) l
      · exact step_eq_none (Or.inr hmain) l
      · exact Hangs.step_eq_none hinv hhangs l

/-- The second thread waits for the write lock when the first one takes the read
lock for good. -/
def waiting : List Label :=
  [Label.init true, Label.create1 true, Label.create2 true, Label.thr1, Label.thr2,
    Label.thr1, Label.thr1, Label.thr2, Label.tryrdlock true, Label.main]

theorem run_ends_waiting :
    exists s, machine.run start waiting = some s ∧ machine.Halted s := by
  have hrun : machine.run start waiting =
      some ⟨⟨[Thread.thr1], none⟩, Thr1Pc.exited true, Thr2Pc.wrlock, MainPc.join2⟩ := rfl
  exact ⟨_, hrun, (run_ends hrun).2.mpr (Or.inr (Or.inr ⟨rfl, rfl, rfl⟩))⟩

end Rwlocks
end Apue
