import Apue.Foundation.Mutex
import Apue.Foundation.Transition
import Mathlib.Data.List.Basic

/-!
# Two waiters and two signals

`thr_rtn2` and `main` wait until `state` is set; `main` also wakes up when its
time is over, and waits again.  `thr_rtn1` sets `state` without the mutex, and
takes it only for each of its two signals.
-/

namespace Apue
namespace Cond

open Foundation

inductive Waiter where
  | thr2
  | main
  deriving Repr, DecidableEq

inductive Thread where
  | thr1
  | waiter (w : Waiter)
  deriving Repr, DecidableEq

inductive Thr1Pc where
  | before
  | setState
  | lock (i : Nat)
  | signal (i : Nat)
  | unlock (i : Nat)
  | exited
  deriving Repr, DecidableEq

/-- Where a waiter is: before its first lock, at the test of the loop, about to
call the wait function, blocked on `cond`, woken and about to take the mutex
again, and out of the loop.  `main` creates the threads `before`. -/
inductive LoopPc where
  | before
  | lock
  | test
  | wait
  | waiting
  | woken
  | unlock
  | after
  deriving Repr, DecidableEq

structure State where
  state : Nat
  mutex : Option Thread
  thr1 : Thr1Pc
  loop : Waiter -> LoopPc
  ended : Bool

/-- Besides the steps of the threads: a wakeup for no reason, the end of the time
that `main` waits, and the outcome of the two calls of `pthread_create`.  A
signal wakes the threads that it names. -/
inductive Label where
  | create1 (ok : Bool)
  | create2 (ok : Bool)
  | thr1
  | signal (woken : List Waiter)
  | waiter (w : Waiter)
  | spurious (w : Waiter)
  | timeout
  | join
  deriving Repr, DecidableEq

def goto (s : State) (w : Waiter) (pc : LoopPc) : State :=
  { s with loop := fun v => if v = w then pc else s.loop v }

/-- The threads that are blocked on `cond`. -/
def waiting (s : State) : List Waiter :=
  [Waiter.thr2, Waiter.main].filter (fun w => s.loop w = LoopPc.waiting)

def pthread_mutex_lock (s : State) (t : Thread) : Option State :=
  if s.mutex = none then some { s with mutex := some t } else none

def pthread_mutex_unlock (s : State) : State :=
  { s with mutex := none }

/-- Wakes some of the threads that are blocked, and at least one of them if there
is any. -/
def pthread_cond_signal (s : State) (woken : List Waiter) : Option State :=
  if (forall w, w ∈ woken -> w ∈ waiting s) ∧ (waiting s = [] ∨ woken ≠ []) then
    some
      { s with loop := fun w => if w ∈ woken then LoopPc.woken else s.loop w }
  else
    none

def pthread_cond_wait (s : State) (w : Waiter) : State :=
  goto (pthread_mutex_unlock s) w LoopPc.waiting

/-- `thr_rtn1` apart from its signals. -/
def thr_rtn1 (s : State) : Option State :=
  match s.thr1 with
  | Thr1Pc.setState => some { s with state := 1, thr1 := Thr1Pc.lock 0 }
  | Thr1Pc.lock i =>
      (pthread_mutex_lock s Thread.thr1).map
        (fun s => { s with thr1 := Thr1Pc.signal i })
  | Thr1Pc.unlock i =>
      some
        { pthread_mutex_unlock s with
          thr1 := if i + 1 < 2 then Thr1Pc.lock (i + 1) else Thr1Pc.exited }
  | _ => none

def signal (s : State) (woken : List Waiter) : Option State :=
  match s.thr1 with
  | Thr1Pc.signal i =>
      (pthread_cond_signal s woken).map
        (fun s => { s with thr1 := Thr1Pc.unlock i })
  | _ => none

/-- The loop, which is the same in `thr_rtn2` and in `main`. -/
def waitLoop (s : State) (w : Waiter) : Option State :=
  match s.loop w with
  | LoopPc.lock =>
      (pthread_mutex_lock s (Thread.waiter w)).map
        (fun s => goto s w LoopPc.test)
  | LoopPc.test =>
      some (goto s w (if s.state = 0 then LoopPc.wait else LoopPc.unlock))
  | LoopPc.wait => some (pthread_cond_wait s w)
  | LoopPc.woken =>
      (pthread_mutex_lock s (Thread.waiter w)).map
        (fun s => goto s w LoopPc.test)
  | LoopPc.unlock => some (goto (pthread_mutex_unlock s) w LoopPc.after)
  | _ => none

/-- The wait function of `w` returns without a signal. -/
def wake (s : State) (w : Waiter) : Option State :=
  if s.loop w = LoopPc.waiting then some (goto s w LoopPc.woken) else none

/-- When it fails `main` returns, which ends the process. -/
def create1 (s : State) (ok : Bool) : Option State :=
  match s.thr1 with
  | Thr1Pc.before =>
      if ok then
        some { s with thr1 := Thr1Pc.setState }
      else
        some { s with ended := true }
  | _ => none

def create2 (s : State) (ok : Bool) : Option State :=
  match s.thr1, s.loop Waiter.thr2, s.loop Waiter.main with
  | Thr1Pc.before, _, _ => none
  | _, LoopPc.before, LoopPc.before =>
      if ok then
        some (goto (goto s Waiter.thr2 LoopPc.lock) Waiter.main LoopPc.lock)
      else
        some { s with ended := true }
  | _, _, _ => none

/-- The end of `main`, after it has waited for the second thread. -/
def join (s : State) : Option State :=
  match s.loop Waiter.main, s.loop Waiter.thr2 with
  | LoopPc.after, LoopPc.after => some { s with ended := true }
  | _, _ => none

def step (s : State) (l : Label) : Option State :=
  if s.ended then
    none
  else
    match l with
    | Label.create1 ok => create1 s ok
    | Label.create2 ok => create2 s ok
    | Label.thr1 => thr_rtn1 s
    | Label.signal woken => signal s woken
    | Label.waiter w => waitLoop s w
    | Label.spurious w => wake s w
    | Label.timeout => wake s Waiter.main
    | Label.join => join s

def start : State where
  state := 0
  mutex := none
  thr1 := Thr1Pc.before
  loop := fun _ => LoopPc.before
  ended := false

def machine : Machine State Label where
  init s := s = start
  step := step

def LoopPc.left : LoopPc -> Bool
  | LoopPc.unlock => true
  | LoopPc.after => true
  | _ => false

def Thr1Pc.signalled : Thr1Pc -> Bool
  | Thr1Pc.unlock i => i == 1
  | Thr1Pc.exited => true
  | _ => false

/-!
# The invariant
-/

def Thr1Pc.holds : Thr1Pc -> Bool
  | Thr1Pc.signal _ => true
  | Thr1Pc.unlock _ => true
  | _ => false

def LoopPc.holds : LoopPc -> Bool
  | LoopPc.test => true
  | LoopPc.wait => true
  | LoopPc.unlock => true
  | _ => false

def LoopPc.awake : LoopPc -> Bool
  | LoopPc.wait => false
  | LoopPc.waiting => false
  | _ => true

def Holds (s : State) : Thread -> Prop
  | Thread.thr1 => s.thr1.holds = true
  | Thread.waiter w => (s.loop w).holds = true

/-- After `n` signals at most `2 - n` threads are still blocked, and no other
thread is going to be. -/
structure Signalled (s : State) (n : Nat) : Prop where
  awake : forall w, s.loop w ≠ LoopPc.wait
  asleep : (waiting s).length + n ≤ 2

/-- Each point of `thr_rtn1`.  A waiter that has seen 0 in `state` has the mutex
until it is blocked, so none is left on the way when the first lock succeeds. -/
def Progress (s : State) : Prop :=
  match s.thr1 with
  | Thr1Pc.before => s.state = 0
  | Thr1Pc.setState => s.state = 0
  | Thr1Pc.lock i => s.state = 1 ∧ i < 2 ∧ (i ≠ 0 -> Signalled s i)
  | Thr1Pc.signal i => s.state = 1 ∧ i < 2 ∧ Signalled s i
  | Thr1Pc.unlock i => s.state = 1 ∧ i < 2 ∧ Signalled s (i + 1)
  | Thr1Pc.exited => s.state = 1 ∧ Signalled s 2

structure Inv (s : State) : Prop where
  owned : OwnedBy s.mutex (Holds s)
  left : forall w, (s.loop w).left = true -> s.state ≠ 0
  progress : Progress s

theorem start_inv : Inv start := by
  refine ⟨?_, ?_, rfl⟩
  · intro t
    cases t with
    | thr1 => simp [Holds, start, Thr1Pc.holds]
    | waiter w => simp [Holds, start, LoopPc.holds]
  · intro w hleft
    cases hleft

/-!
# Steps of the waiters
-/

section Waiters

variable {s t : State} {w : Waiter} {old pc : LoopPc} {mutex : Option Thread}

theorem goto_same (s : State) (w : Waiter) (pc : LoopPc) :
    (goto s w pc).loop w = pc := by
  simp [goto]

theorem goto_other (s : State) {v : Waiter} (pc : LoopPc) (h : v ≠ w) :
    (goto s w pc).loop v = s.loop v := by
  simp [goto, h]

theorem holds_same (s : State) (w : Waiter) (pc : LoopPc) :
    Holds (goto s w pc) (Thread.waiter w) ↔ pc.holds = true := by
  simp [Holds, goto_same]

theorem holds_other (s : State) (pc : LoopPc) (u : Thread)
    (h : u ≠ Thread.waiter w) : Holds (goto s w pc) u ↔ Holds s u := by
  cases u with
  | thr1 => rfl
  | waiter v =>
      have hv : v ≠ w := by
        intro heq
        exact h (congrArg Thread.waiter heq)
      simp [Holds, goto_other s pc hv]

theorem length_waiting_le
    (h : forall v, t.loop v = LoopPc.waiting -> s.loop v = LoopPc.waiting) :
    (waiting t).length ≤ (waiting s).length := by
  apply List.Sublist.length_le
  apply List.monotone_filter_right
  intro v hv
  simp only [decide_eq_true_eq] at hv ⊢
  exact h v hv

theorem Signalled.move {n : Nat} (h : Signalled s n) (hpc : pc.awake = true) :
    Signalled (goto { s with mutex := mutex } w pc) n := by
  constructor
  · intro v
    by_cases hv : v = w
    · rw [hv, goto_same]
      intro heq
      rw [heq] at hpc
      cases hpc
    · rw [goto_other _ pc hv]
      exact h.awake v
  · have hle : (waiting (goto { s with mutex := mutex } w pc)).length ≤
        (waiting s).length := by
      apply length_waiting_le
      intro v hv
      by_cases hvw : v = w
      · rw [hvw, goto_same] at hv
        rw [hv] at hpc
        cases hpc
      · rw [goto_other _ pc hvw] at hv
        exact hv
    exact Nat.le_trans (Nat.add_le_add_right hle n) h.asleep

theorem Progress.keep (h : Progress s) (hthr1 : t.thr1 = s.thr1)
    (hstate : t.state = s.state)
    (hkeep : forall n, s.state = 1 -> Signalled s n -> Signalled t n) :
    Progress t := by
  unfold Progress at h ⊢
  rw [hthr1, hstate]
  cases hpc : s.thr1 with
  | before =>
      rw [hpc] at h
      exact h
  | setState =>
      rw [hpc] at h
      exact h
  | lock i =>
      rw [hpc] at h
      exact ⟨h.1, h.2.1, fun hi => hkeep i h.1 (h.2.2 hi)⟩
  | signal i =>
      rw [hpc] at h
      exact ⟨h.1, h.2.1, hkeep i h.1 h.2.2⟩
  | unlock i =>
      rw [hpc] at h
      exact ⟨h.1, h.2.1, hkeep (i + 1) h.1 h.2.2⟩
  | exited =>
      rw [hpc] at h
      exact ⟨h.1, hkeep 2 h.1 h.2⟩

theorem Inv.goto (h : Inv s)
    (howned : OwnedBy mutex (Holds (goto s w pc)))
    (hleft : pc.left = true -> s.state ≠ 0)
    (hkeep : forall n, s.state = 1 -> Signalled s n -> pc.awake = true) :
    Inv (Cond.goto { s with mutex := mutex } w pc) := by
  refine ⟨howned, ?_, ?_⟩
  · intro v hv
    by_cases hvw : v = w
    · rw [hvw, goto_same] at hv
      exact hleft hv
    · rw [goto_other _ pc hvw] at hv
      exact h.left v hv
  · apply h.progress.keep
    · rfl
    · rfl
    · intro n hstate hn
      exact hn.move (hkeep n hstate hn)

theorem Inv.keep_mutex (h : Inv s) (hold : s.loop w = old)
    (hholds : pc.holds = old.holds) :
    OwnedBy s.mutex (Holds (Cond.goto s w pc)) := by
  apply h.owned.keep (t := Thread.waiter w) (holds_other s pc)
  simp [Holds, goto_same, hold, hholds]

theorem Inv.release (h : Inv s) (hold : s.loop w = old)
    (hheld : old.holds = true) (hfree : pc.holds = false) :
    OwnedBy none (Holds (Cond.goto s w pc)) := by
  apply h.owned.release (t := Thread.waiter w) _ (holds_other s pc)
  · simp [holds_same, hfree]
  · simp [Holds, hold, hheld]

theorem Inv.acquire (h : Inv s)
    (ht : (pthread_mutex_lock s (Thread.waiter w)).map
      (fun s => Cond.goto s w LoopPc.test) = some t) : Inv t := by
  unfold pthread_mutex_lock at ht
  split at ht
  · next hfree =>
      cases ht
      have howned := h.owned
      rw [hfree] at howned
      apply h.goto
      · apply howned.acquire (holds_other s LoopPc.test)
        simp [holds_same, LoopPc.holds]
      · exact Bool.noConfusion
      · exact fun _ _ _ => rfl
  · cases ht

theorem Inv.waitLoop (h : Inv s) (ht : Cond.waitLoop s w = some t) : Inv t := by
  unfold Cond.waitLoop at ht
  split at ht
  · exact h.acquire ht
  · next hpc =>
      cases ht
      by_cases hzero : s.state = 0
      · rw [if_pos hzero]
        refine h.goto (h.keep_mutex hpc ?_) Bool.noConfusion ?_
        · rfl
        · intro n hone _
          rw [hzero] at hone
          cases hone
      · rw [if_neg hzero]
        refine h.goto (h.keep_mutex hpc ?_) (fun _ => hzero) ?_
        · rfl
        · exact fun _ _ _ => rfl
  · next hpc =>
      cases ht
      apply h.goto (h.release hpc rfl rfl) Bool.noConfusion
      intro n _ hn
      exact absurd hpc (hn.awake w)
  · exact h.acquire ht
  · next hpc =>
      cases ht
      apply h.goto (h.release hpc rfl rfl)
      · intro _
        apply h.left w
        rw [hpc]
        rfl
      · exact fun _ _ _ => rfl
  · cases ht

theorem Inv.wake (h : Inv s) (ht : Cond.wake s w = some t) : Inv t := by
  unfold Cond.wake at ht
  split at ht
  · next hpc =>
      cases ht
      refine h.goto (h.keep_mutex hpc ?_) Bool.noConfusion ?_
      · rfl
      · exact fun _ _ _ => rfl
  · cases ht

end Waiters

/-!
# Steps of `thr_rtn1`
-/

section Thr1

variable {s t : State}

theorem holds_waiter {pc : Thr1Pc} {state : Nat} {mutex : Option Thread}
    (u : Thread) (h : u ≠ Thread.thr1) :
    Holds { s with state := state, mutex := mutex, thr1 := pc } u ↔
      Holds s u := by
  cases u with
  | thr1 => exact absurd rfl h
  | waiter w => rfl

theorem Inv.awake_of_free (h : Inv s) (hfree : s.mutex = none) (w : Waiter) :
    s.loop w ≠ LoopPc.wait := by
  intro hpc
  have hholds : Holds s (Thread.waiter w) := by
    simp [Holds, hpc, LoopPc.holds]
  have howner := (h.owned _).mp hholds
  rw [hfree] at howner
  cases howner

theorem length_waiting_le_two (s : State) : (waiting s).length ≤ 2 :=
  List.length_filter_le _ _

theorem Inv.thr_rtn1 (h : Inv s) (ht : Cond.thr_rtn1 s = some t) : Inv t := by
  have hprogress := h.progress
  unfold Cond.thr_rtn1 at ht
  split at ht
  · next hpc =>
      cases ht
      refine ⟨?_, fun w _ => Nat.one_ne_zero, ?_⟩
      · apply h.owned.keep (t := Thread.thr1) holds_waiter
        simp [Holds, hpc, Thr1Pc.holds]
      · exact ⟨rfl, Nat.zero_lt_two, fun hne => absurd rfl hne⟩
  · next i hpc =>
      unfold pthread_mutex_lock at ht
      split at ht
      · next hfree =>
          cases ht
          simp only [Progress, hpc] at hprogress
          have howned := h.owned
          rw [hfree] at howned
          refine ⟨?_, h.left, ?_⟩
          · exact howned.acquire holds_waiter rfl
          · refine ⟨hprogress.1, hprogress.2.1, h.awake_of_free hfree, ?_⟩
            show (waiting s).length + i ≤ 2
            cases i with
            | zero => exact length_waiting_le_two s
            | succ i => exact (hprogress.2.2 (Nat.succ_ne_zero i)).asleep
      · cases ht
  · next i hpc =>
      cases ht
      simp only [Progress, hpc] at hprogress
      rcases hprogress with ⟨hstate, hi, hn⟩
      refine ⟨?_, h.left, ?_⟩
      · apply h.owned.release (t := Thread.thr1) _ holds_waiter
        · by_cases hnext : i + 1 < 2
          · simp [Holds, hnext, Thr1Pc.holds]
          · simp [Holds, hnext, Thr1Pc.holds]
        · simp [Holds, hpc, Thr1Pc.holds]
      · by_cases hnext : i + 1 < 2
        · simp only [Progress, hnext, if_true]
          exact ⟨hstate, trivial, fun _ => ⟨hn.awake, hn.asleep⟩⟩
        · simp only [Progress, hnext, if_false]
          have hlast : i + 1 = 2 := by lia
          rw [hlast] at hn
          exact ⟨hstate, hn.awake, hn.asleep⟩
  · cases ht

theorem waiting_signal (s : State) (woken : List Waiter) :
    waiting
        { s with
          loop := fun w => if w ∈ woken then LoopPc.woken else s.loop w } =
      (waiting s).filter (fun w => w ∉ woken) := by
  unfold waiting
  rw [List.filter_filter]
  apply List.filter_congr
  intro w _
  by_cases hw : w ∈ woken
  · simp [hw]
  · simp [hw]

theorem Signalled.signal {n : Nat} {woken : List Waiter} (h : Signalled s n)
    (hn : n < 2) (ht : pthread_cond_signal s woken = some t) :
    Signalled t (n + 1) := by
  unfold pthread_cond_signal at ht
  split at ht
  · next hwoken =>
      cases ht
      constructor
      · intro w
        by_cases hw : w ∈ woken
        · simp [hw]
        · simp [hw, h.awake w]
      · rw [waiting_signal]
        rcases hwoken with ⟨hwaiting, hnone | hsome⟩
        · rw [hnone, List.filter_nil, List.length_nil]
          lia
        · rcases List.exists_mem_of_ne_nil woken hsome with ⟨w, hw⟩
          have hlt : ((waiting s).filter (fun w => w ∉ woken)).length <
              (waiting s).length := by
            apply List.length_filter_lt_length_iff_exists.mpr
            exact ⟨w, hwaiting w hw, by simp [hw]⟩
          have hle := h.asleep
          lia
  · cases ht

theorem pthread_cond_signal_frame {woken : List Waiter}
    (ht : pthread_cond_signal s woken = some t) :
    t.state = s.state ∧ t.mutex = s.mutex ∧
      forall w, t.loop w = s.loop w ∨
        (s.loop w = LoopPc.waiting ∧ t.loop w = LoopPc.woken) := by
  unfold pthread_cond_signal at ht
  split at ht
  · next hwoken =>
      cases ht
      refine ⟨rfl, rfl, ?_⟩
      intro w
      by_cases hw : w ∈ woken
      · have hmem := List.mem_filter.mp (hwoken.left w hw)
        simp only [decide_eq_true_eq] at hmem
        exact Or.inr ⟨hmem.right, if_pos hw⟩
      · exact Or.inl (if_neg hw)
  · cases ht

theorem Inv.signal {woken : List Waiter} (h : Inv s)
    (ht : Cond.signal s woken = some t) : Inv t := by
  have hprogress := h.progress
  unfold Cond.signal at ht
  split at ht
  · next i hpc =>
      rcases Option.map_eq_some_iff.mp ht with ⟨r, hsignal, heq⟩
      rw [← heq]
      simp only [Progress, hpc] at hprogress
      rcases hprogress with ⟨hstate, hi, hn⟩
      rcases pthread_cond_signal_frame hsignal with ⟨hrstate, hmutex, hloop⟩
      have hnext := hn.signal hi hsignal
      refine ⟨?_, ?_, ?_⟩
      · show OwnedBy r.mutex _
        rw [hmutex]
        apply h.owned.keep (t := Thread.thr1)
        · intro u hu
          cases u with
          | thr1 => exact absurd rfl hu
          | waiter w =>
              rcases hloop w with hsame | ⟨hold, hnew⟩
              · simp [Holds, hsame]
              · simp [Holds, hold, hnew, LoopPc.holds]
        · simp [Holds, hpc, Thr1Pc.holds]
      · intro w _
        show r.state ≠ 0
        rw [hrstate, hstate]
        exact Nat.one_ne_zero
      · exact ⟨hrstate.trans hstate, hi, hnext.awake, hnext.asleep⟩
  · cases ht

end Thr1

/-!
# Creating and ending
-/

section Main

variable {s t : State}

theorem Inv.end (h : Inv s) : Inv { s with ended := true } := by
  refine ⟨h.owned, h.left, ?_⟩
  apply h.progress.keep
  · rfl
  · rfl
  · intro n _ hn
    exact ⟨hn.awake, hn.asleep⟩

theorem Inv.create1 {ok : Bool} (h : Inv s) (ht : Cond.create1 s ok = some t) :
    Inv t := by
  have hprogress := h.progress
  unfold Cond.create1 at ht
  split at ht
  · next hpc =>
      split at ht
      · cases ht
        simp only [Progress, hpc] at hprogress
        refine ⟨?_, h.left, hprogress⟩
        apply h.owned.keep (t := Thread.thr1) holds_waiter
        simp [Holds, hpc, Thr1Pc.holds]
      · cases ht
        exact h.end
  · cases ht

theorem Inv.enter {w : Waiter} (h : Inv s) (hpc : s.loop w = LoopPc.before) :
    Inv (Cond.goto s w LoopPc.lock) := by
  refine h.goto (h.keep_mutex hpc ?_) Bool.noConfusion ?_
  · rfl
  · exact fun _ _ _ => rfl

theorem Inv.create2 {ok : Bool} (h : Inv s) (ht : Cond.create2 s ok = some t) :
    Inv t := by
  unfold Cond.create2 at ht
  split at ht
  · cases ht
  · next hthr2 hmain _ =>
      split at ht
      · cases ht
        apply (h.enter hthr2).enter
        rw [goto_other s LoopPc.lock Waiter.noConfusion]
        exact hmain
      · cases ht
        exact h.end
  · cases ht

theorem Inv.join (h : Inv s) (ht : Cond.join s = some t) : Inv t := by
  unfold Cond.join at ht
  split at ht
  · cases ht
    exact h.end
  · cases ht

end Main

theorem inv_step {s t : State} {l : Label} (h : Inv s)
    (ht : step s l = some t) : Inv t := by
  unfold step at ht
  split at ht
  · cases ht
  · cases l with
    | create1 ok => exact h.create1 ht
    | create2 ok => exact h.create2 ht
    | thr1 => exact h.thr_rtn1 ht
    | signal woken => exact h.signal ht
    | waiter w => exact h.waitLoop ht
    | spurious w => exact h.wake ht
    | timeout => exact h.wake ht
    | join => exact h.join ht

theorem inv_of_reachable {s : State} (hs : machine.Reachable s) : Inv s := by
  apply Machine.invariant _ _ hs
  · intro s hinit
    rw [hinit]
    exact start_inv
  · intro s l t
    exact inv_step

/-!
# No lost wakeup
-/

theorem Inv.not_waiting {s : State} (h : Inv s)
    (hdone : s.thr1.signalled = true) (w : Waiter) :
    s.loop w ≠ LoopPc.waiting := by
  have hnobody : Signalled s 2 := by
    have hprogress := h.progress
    cases hpc : s.thr1 with
    | unlock i =>
        rw [hpc] at hdone
        simp only [Progress, hpc] at hprogress
        have hi : i = 1 := eq_of_beq hdone
        rw [hi] at hprogress
        exact hprogress.2.2
    | exited =>
        simp only [Progress, hpc] at hprogress
        exact hprogress.2
    | _ =>
        rw [hpc] at hdone
        cases hdone
  have hnil : waiting s = [] := by
    apply List.eq_nil_of_length_eq_zero
    have hle := hnobody.asleep
    lia
  intro hw
  have hmem : w ∈ waiting s := by
    unfold waiting
    cases w with
    | thr2 => simp [hw]
    | main => simp [hw]
  rw [hnil] at hmem
  cases hmem

section Others

variable {s t : State}

theorem create2_thr1 {ok : Bool} (ht : create2 s ok = some t) :
    t.thr1 = s.thr1 := by
  unfold create2 at ht
  split at ht
  · cases ht
  · split at ht
    · cases ht
      rfl
    · cases ht
      rfl
  · cases ht

theorem waitLoop_thr1 {w : Waiter} (ht : waitLoop s w = some t) :
    t.thr1 = s.thr1 := by
  unfold waitLoop pthread_mutex_lock at ht
  split at ht
  · split at ht
    · cases ht
      rfl
    · cases ht
  · cases ht
    rfl
  · cases ht
    rfl
  · split at ht
    · cases ht
      rfl
    · cases ht
  · cases ht
    rfl
  · cases ht

theorem wake_thr1 {w : Waiter} (ht : wake s w = some t) : t.thr1 = s.thr1 := by
  unfold wake at ht
  split at ht
  · cases ht
    rfl
  · cases ht

theorem join_thr1 (ht : join s = some t) : t.thr1 = s.thr1 := by
  unfold join at ht
  split at ht
  · cases ht
    rfl
  · cases ht

end Others

theorem signalled_thr_rtn1 {s t : State} (h : s.thr1.signalled = true)
    (ht : thr_rtn1 s = some t) : t.thr1.signalled = true := by
  unfold thr_rtn1 at ht
  split at ht
  · next hpc =>
      rw [hpc] at h
      cases h
  · next hpc =>
      rw [hpc] at h
      cases h
  · next i hpc =>
      cases ht
      rw [hpc] at h
      have hi : i = 1 := eq_of_beq h
      rw [hi]
      rfl
  · cases ht

theorem signalled_step {s t : State} {l : Label}
    (h : s.thr1.signalled = true) (ht : step s l = some t) :
    t.thr1.signalled = true := by
  unfold step at ht
  split at ht
  · cases ht
  · cases l with
    | create1 ok =>
        change create1 s ok = some t at ht
        unfold create1 at ht
        split at ht
        · next hpc =>
            rw [hpc] at h
            cases h
        · cases ht
    | create2 ok =>
        rw [create2_thr1 ht]
        exact h
    | thr1 => exact signalled_thr_rtn1 h ht
    | signal woken =>
        change signal s woken = some t at ht
        unfold signal at ht
        split at ht
        · next hpc =>
            rw [hpc] at h
            cases h
        · cases ht
    | waiter w =>
        rw [waitLoop_thr1 ht]
        exact h
    | spurious w =>
        rw [wake_thr1 ht]
        exact h
    | timeout =>
        rw [wake_thr1 ht]
        exact h
    | join =>
        rw [join_thr1 ht]
        exact h

/--
In every reachable state a waiter that has left its loop has seen `state` set,
and from the second signal on, in whatever way the run goes on, no thread is
blocked on `cond`.
-/
theorem no_lost_wakeup {s : State} (hs : machine.Reachable s) :
    (forall w, (s.loop w).left = true -> s.state ≠ 0) ∧
      (s.thr1.signalled = true ->
        forall ls t, machine.run s ls = some t ->
          forall w, t.loop w ≠ LoopPc.waiting) := by
  refine ⟨(inv_of_reachable hs).left, ?_⟩
  intro hdone ls t hrun
  have ht := inv_of_reachable (Machine.reachable_of_run hs hrun)
  have hstill : t.thr1.signalled = true :=
    Machine.invariant_of_run (I := fun s => s.thr1.signalled = true)
      (C := fun _ => True) (fun _ _ _ hI _ => signalled_step hI) hdone
      (fun _ _ => trivial) hrun
  exact ht.not_waiting hstill

/-- Both wait, `main` for the second time; the first signal wakes `main`. -/
def bothWoken : List Label :=
  [Label.create1 true, Label.create2 true,
    Label.waiter Waiter.main, Label.waiter Waiter.main,
    Label.waiter Waiter.main, Label.timeout,
    Label.waiter Waiter.thr2, Label.waiter Waiter.thr2,
    Label.waiter Waiter.thr2,
    Label.waiter Waiter.main, Label.waiter Waiter.main, Label.thr1,
    Label.waiter Waiter.main,
    Label.thr1, Label.signal [Waiter.main], Label.thr1,
    Label.thr1, Label.signal [Waiter.thr2], Label.thr1,
    Label.waiter Waiter.main, Label.waiter Waiter.main]

theorem bothWoken_left :
    exists s, machine.Reachable s ∧ s.loop Waiter.main = LoopPc.unlock ∧
      s.state ≠ 0 ∧ s.thr1.signalled = true ∧
      forall w, s.loop w ≠ LoopPc.waiting := by
  have hrun : (machine.run start bothWoken).map
      (fun s => (s.loop Waiter.main, s.thr1)) =
        some (LoopPc.unlock, Thr1Pc.exited) := by
    rfl
  rcases Machine.exists_reachable_of_run rfl hrun with ⟨s, hreach, hpcs⟩
  have hmain : s.loop Waiter.main = LoopPc.unlock := congrArg Prod.fst hpcs
  have hdone : s.thr1.signalled = true := by
    rw [show s.thr1 = Thr1Pc.exited from congrArg Prod.snd hpcs]
    rfl
  rcases no_lost_wakeup hreach with ⟨hleft, hwoken⟩
  refine ⟨s, hreach, hmain, hleft Waiter.main ?_, hdone, ?_⟩
  · rw [hmain]
    rfl
  · exact hwoken hdone [] s rfl

end Cond
end Apue
