import Apue.Foundation.Mutex
import Apue.Foundation.Signals
import Apue.Foundation.Transition

/-!
# A thread that accepts the signals

`main` blocks `SIGINT` and `SIGQUIT`, starts `thr_rtn`, which waits for them with
`sigwait`, and sleeps on `cond` until `quitflag` is set.  Signals arrive at any
time; one that no thread blocks ends the process.  What is printed is left out.
-/

namespace Apue
namespace Thrsig

open Foundation

inductive Signo where
  | SIGINT
  | SIGQUIT
  deriving Repr, DecidableEq

inductive Thread where
  | main
  | thr
  deriving Repr, DecidableEq

/-- The next thing that `main` does.  In `waiting` it is blocked on `cond`, in
`woken` it is about to take the mutex again.  It returns early in `failed`. -/
inductive MainPc where
  | sigmask
  | create
  | failed (status : Nat)
  | lock
  | test
  | wait
  | waiting
  | woken
  | unlock
  | clear
  | setmask
  | returned (status : Nat)
  deriving Repr, DecidableEq

/-- The next thing that `thr_rtn` does. -/
inductive ThrPc where
  | absent
  | sigwait
  | switch (signo : Signo)
  | lock
  | setFlag
  | unlock
  | signal
  | returned
  deriving Repr, DecidableEq

structure State where
  signals : Signals Signo
  mask : SigSet Signo
  oldmask : SigSet Signo
  quitflag : Nat
  mutex : Option Thread
  main : MainPc
  thr : ThrPc
  ended : Bool

/-- A signal arrives, or is delivered to `main`, for which it is not blocked; a
step of `main` (`ok` is the outcome of a call that may fail); `sigwait` returns a
signal or fails; another step of `thr_rtn`; a wakeup for no reason. -/
inductive Label where
  | arrive (signo : Signo)
  | deliver (signo : Signo)
  | main (ok : Bool)
  | sigwait (r : Option Signo)
  | thr
  | spurious
  deriving Repr, DecidableEq

def pthread_mutex_lock (s : State) (t : Thread) : Option State :=
  if s.mutex = none then some { s with mutex := some t } else none

def pthread_mutex_unlock (s : State) : State :=
  { s with mutex := none }

def pthread_cond_wait (s : State) : State :=
  { pthread_mutex_unlock s with main := MainPc.waiting }

/-- Wakes `main` if it is blocked; nobody else ever is. -/
def pthread_cond_signal (s : State) : State :=
  { s with main := if s.main = MainPc.waiting then MainPc.woken else s.main }

def main (s : State) (ok : Bool) : Option State :=
  match s.main with
  | MainPc.sigmask =>
      if ok then
        some
          { s with
            mask := fun _ => true
            oldmask := s.mask
            main := MainPc.create }
      else
        some { s with main := MainPc.failed 1 }
  | MainPc.create =>
      if ok then
        some { s with main := MainPc.lock, thr := ThrPc.sigwait }
      else
        some { s with main := MainPc.failed 2 }
  | MainPc.failed _ => some { s with ended := true }
  | MainPc.lock =>
      (pthread_mutex_lock s Thread.main).map
        (fun s => { s with main := MainPc.test })
  | MainPc.test =>
      some
        { s with
          main := if s.quitflag = 0 then MainPc.wait else MainPc.unlock }
  | MainPc.wait => some (pthread_cond_wait s)
  | MainPc.waiting => none
  | MainPc.woken =>
      (pthread_mutex_lock s Thread.main).map
        (fun s => { s with main := MainPc.test })
  | MainPc.unlock => some { pthread_mutex_unlock s with main := MainPc.clear }
  | MainPc.clear => some { s with quitflag := 0, main := MainPc.setmask }
  | MainPc.setmask =>
      if ok then
        some { s with mask := s.oldmask, main := MainPc.returned 0 }
      else
        some { s with main := MainPc.returned 1 }
  | MainPc.returned _ => some { s with ended := true }

/-- `sigwait` returns a pending signal; when it fails the thread calls `exit`. -/
def sigwait (s : State) (r : Option Signo) : Option State :=
  match s.thr with
  | ThrPc.sigwait =>
      match r with
      | none => some { s with ended := true }
      | some signo =>
          if s.signals.pending signo then
            some
              { s with
                signals := s.signals.take signo
                thr := ThrPc.switch signo }
          else
            none
  | _ => none

def thr_rtn (s : State) : Option State :=
  match s.thr with
  | ThrPc.switch Signo.SIGINT => some { s with thr := ThrPc.sigwait }
  | ThrPc.switch Signo.SIGQUIT => some { s with thr := ThrPc.lock }
  | ThrPc.lock =>
      (pthread_mutex_lock s Thread.thr).map
        (fun s => { s with thr := ThrPc.setFlag })
  | ThrPc.setFlag => some { s with quitflag := 1, thr := ThrPc.unlock }
  | ThrPc.unlock => some { pthread_mutex_unlock s with thr := ThrPc.signal }
  | ThrPc.signal => some { pthread_cond_signal s with thr := ThrPc.returned }
  | _ => none

def deliver (s : State) (signo : Signo) : Option State :=
  if s.signals.pending signo ∧ s.mask signo = false then
    some { s with ended := true }
  else
    none

def step (s : State) (l : Label) : Option State :=
  if s.ended then
    none
  else
    match l with
    | Label.arrive signo => some { s with signals := s.signals.arrive signo }
    | Label.deliver signo => deliver s signo
    | Label.main ok => main s ok
    | Label.sigwait r => sigwait s r
    | Label.thr => thr_rtn s
    | Label.spurious =>
        if s.main = MainPc.waiting then
          some { s with main := MainPc.woken }
        else
          none

structure Initial (s : State) : Prop where
  untaken : forall g, s.signals.taken g = 0
  quitflag : s.quitflag = 0
  mutex : s.mutex = none
  main : s.main = MainPc.sigmask
  thr : s.thr = ThrPc.absent
  running : s.ended = false

def machine : Machine State Label where
  init := Initial
  step := step

def MainPc.left : MainPc -> Bool
  | MainPc.unlock => true
  | MainPc.clear => true
  | MainPc.setmask => true
  | MainPc.returned _ => true
  | _ => false

/-!
# The invariant
-/

def MainPc.holds : MainPc -> Bool
  | MainPc.test => true
  | MainPc.wait => true
  | MainPc.unlock => true
  | _ => false

def MainPc.cleared : MainPc -> Bool
  | MainPc.setmask => true
  | MainPc.returned _ => true
  | _ => false

def MainPc.early : MainPc -> Bool
  | MainPc.sigmask => true
  | MainPc.create => true
  | _ => false

def MainPc.awake : MainPc -> Bool
  | MainPc.wait => false
  | MainPc.waiting => false
  | pc => !pc.left

def ThrPc.holds : ThrPc -> Bool
  | ThrPc.setFlag => true
  | ThrPc.unlock => true
  | _ => false

def ThrPc.quitting : ThrPc -> Bool
  | ThrPc.absent => false
  | ThrPc.sigwait => false
  | ThrPc.switch Signo.SIGINT => false
  | _ => true

def ThrPc.raised : ThrPc -> Bool
  | ThrPc.unlock => true
  | ThrPc.signal => true
  | ThrPc.returned => true
  | _ => false

def Holds (s : State) : Thread -> Prop
  | Thread.main => s.main.holds = true
  | Thread.thr => s.thr.holds = true

/-- Once the flag is raised, `main` is not on its way to sleep with what it has
seen before; and when `thr_rtn` is done, `main` is not asleep. -/
structure Inv (s : State) : Prop where
  owned : OwnedBy s.mutex (Holds s)
  flag : s.quitflag ≠ 0 -> s.thr.raised = true
  left : s.main.left = true -> s.thr.raised = true
  accepted : s.thr.quitting = true -> 0 < s.signals.taken Signo.SIGQUIT
  raised : s.thr.raised = true -> s.quitflag ≠ 0 ∨ s.main.cleared = true
  awake : s.thr.raised = true -> s.main ≠ MainPc.wait
  done : s.thr = ThrPc.returned -> s.main ≠ MainPc.waiting
  early : s.main.early = true -> s.thr = ThrPc.absent

theorem initial_inv {s : State} (h : Initial s) : Inv s := by
  constructor
  · intro t
    rw [h.mutex]
    cases t with
    | main => simp [Holds, h.main, MainPc.holds]
    | thr => simp [Holds, h.thr, ThrPc.holds]
  · intro hflag
    exact absurd h.quitflag hflag
  · intro hleft
    rw [h.main] at hleft
    cases hleft
  · intro hquit
    rw [h.thr] at hquit
    cases hquit
  · intro hraised
    rw [h.thr] at hraised
    cases hraised
  · intro _ hmain
    rw [h.main] at hmain
    cases hmain
  · intro _ hmain
    rw [h.main] at hmain
    cases hmain
  · exact fun _ => h.thr

section Steps

variable {s t : State}

/-- The invariant does not depend on the masks, nor on whether the process is
over, nor on signals that arrive. -/
theorem Inv.congr (hI : Inv s) (hmain : t.main = s.main) (hthr : t.thr = s.thr)
    (hmutex : t.mutex = s.mutex) (hflag : t.quitflag = s.quitflag)
    (htaken : forall g, t.signals.taken g = s.signals.taken g) : Inv t := by
  constructor
  · have hholds : forall u, Holds t u ↔ Holds s u := by
      intro u
      cases u with
      | main => simp only [Holds, hmain]
      | thr => simp only [Holds, hthr]
    rw [hmutex]
    intro u
    rw [hholds u]
    exact hI.owned u
  · rw [hflag, hthr]
    exact hI.flag
  · rw [hmain, hthr]
    exact hI.left
  · rw [hthr, htaken]
    exact hI.accepted
  · rw [hthr, hflag, hmain]
    exact hI.raised
  · rw [hthr, hmain]
    exact hI.awake
  · rw [hthr, hmain]
    exact hI.done
  · rw [hthr, hmain]
    exact hI.early

/-!
# Steps of main
-/

theorem Inv.main_step (hI : Inv s) (howned : OwnedBy t.mutex (Holds t))
    (hthr : t.thr = s.thr) (hflag : t.quitflag = s.quitflag)
    (hsignals : t.signals = s.signals)
    (hleft : t.main.left = true -> s.thr.raised = true)
    (hcleared : s.main.cleared = true -> t.main.cleared = true)
    (hwait : s.thr.raised = true -> t.main ≠ MainPc.wait)
    (hdone : s.thr = ThrPc.returned -> t.main ≠ MainPc.waiting)
    (hearly : t.main.early = true -> s.main.early = true) : Inv t := by
  constructor
  · exact howned
  · rw [hflag, hthr]
    exact hI.flag
  · rw [hthr]
    exact hleft
  · rw [hthr, hsignals]
    exact hI.accepted
  · rw [hthr, hflag]
    intro hraised
    rcases hI.raised hraised with hset | hclear
    · exact Or.inl hset
    · exact Or.inr (hcleared hclear)
  · rw [hthr]
    exact hwait
  · rw [hthr]
    exact hdone
  · rw [hthr]
    exact fun h => hI.early (hearly h)

theorem holds_thr_iff (hthr : t.thr = s.thr) (u : Thread) (hu : u ≠ Thread.main) :
    Holds t u ↔ Holds s u := by
  cases u with
  | main => exact absurd rfl hu
  | thr => simp only [Holds, hthr]

theorem owned_main_keep (hI : Inv s) (hmutex : t.mutex = s.mutex)
    (hthr : t.thr = s.thr) (hholds : t.main.holds = s.main.holds) :
    OwnedBy t.mutex (Holds t) := by
  rw [hmutex]
  exact hI.owned.keep (holds_thr_iff hthr) (by simp only [Holds, hholds])

theorem owned_main_lock (hI : Inv s) (hfree : s.mutex = none)
    (hthr : t.thr = s.thr) (hholds : t.main.holds = true) :
    OwnedBy (some Thread.main) (Holds t) := by
  have howned := hI.owned
  rw [hfree] at howned
  exact howned.acquire (holds_thr_iff hthr) hholds

theorem owned_main_unlock (hI : Inv s) (hheld : s.main.holds = true)
    (hthr : t.thr = s.thr) (hholds : t.main.holds = false) :
    OwnedBy none (Holds t) :=
  hI.owned.release (t := Thread.main) hheld (holds_thr_iff hthr)
    (by simp only [Holds, hholds, Bool.false_eq_true, not_false_eq_true])

theorem MainPc.ne_of_awake {pc : MainPc} (h : pc.awake = true) :
    pc.left = false ∧ pc ≠ MainPc.wait ∧ pc ≠ MainPc.waiting := by
  cases pc with
  | wait => cases h
  | waiting => cases h
  | unlock => cases h
  | clear => cases h
  | setmask => cases h
  | returned status => cases h
  | _ => simp [MainPc.left]

theorem MainPc.ne_of_left {pc : MainPc} (h : pc.left = true) :
    pc ≠ MainPc.wait ∧ pc ≠ MainPc.waiting ∧ pc.early = false := by
  cases pc with
  | wait => cases h
  | waiting => cases h
  | sigmask => cases h
  | create => cases h
  | _ => simp [MainPc.early]

theorem Inv.main_awake (hI : Inv s) (howned : OwnedBy t.mutex (Holds t))
    (hthr : t.thr = s.thr) (hflag : t.quitflag = s.quitflag)
    (hsignals : t.signals = s.signals) (hawake : t.main.awake = true)
    (hcleared : s.main.cleared = false)
    (hearly : t.main.early = true -> s.main.early = true) : Inv t := by
  rcases MainPc.ne_of_awake hawake with ⟨hleft, hwait, hwaiting⟩
  refine hI.main_step howned hthr hflag hsignals ?_ ?_ (fun _ => hwait)
    (fun _ => hwaiting) hearly
  · rw [hleft]
    intro h
    cases h
  · rw [hcleared]
    intro h
    cases h

theorem Inv.main_left (hI : Inv s) (howned : OwnedBy t.mutex (Holds t))
    (hthr : t.thr = s.thr) (hflag : t.quitflag = s.quitflag)
    (hsignals : t.signals = s.signals) (hleft : t.main.left = true)
    (hraised : s.thr.raised = true)
    (hcleared : s.main.cleared = true -> t.main.cleared = true) : Inv t := by
  rcases MainPc.ne_of_left hleft with ⟨hwait, hwaiting, hearly⟩
  refine hI.main_step howned hthr hflag hsignals (fun _ => hraised) hcleared
    (fun _ => hwait) (fun _ => hwaiting) ?_
  rw [hearly]
  intro h
  cases h

theorem inv_main_lock (hI : Inv s) (hcleared : s.main.cleared = false)
    (h : (pthread_mutex_lock s Thread.main).map
      (fun s => { s with main := MainPc.test }) = some t) : Inv t := by
  unfold pthread_mutex_lock at h
  split at h
  · next hfree =>
      cases h
      refine hI.main_awake (owned_main_lock hI hfree rfl rfl) rfl rfl rfl rfl hcleared ?_
      intro h
      cases h
  · cases h

/-- The test.  A flag that is not set has not been raised, as `main` has not
reset it yet. -/
theorem inv_main_test (hI : Inv s) (hpc : s.main = MainPc.test) :
    Inv { s with main := if s.quitflag = 0 then MainPc.wait else MainPc.unlock } := by
  have hcleared : s.main.cleared = false := by
    rw [hpc]
    rfl
  split
  · next hzero =>
      have hnot : s.thr.raised ≠ true := by
        intro hraised
        rcases hI.raised hraised with hset | hclear
        · exact hset hzero
        · rw [hcleared] at hclear
          cases hclear
      refine hI.main_step (owned_main_keep hI rfl rfl ?_) rfl rfl rfl ?_ ?_ ?_ ?_ ?_
      · rw [hpc]
        rfl
      · intro h
        cases h
      · rw [hcleared]
        intro h
        cases h
      · intro h
        exact absurd h hnot
      · intro _ h
        cases h
      · intro h
        cases h
  · next hset =>
      refine hI.main_left (owned_main_keep hI rfl rfl ?_) rfl rfl rfl rfl (hI.flag hset) ?_
      · rw [hpc]
        rfl
      · rw [hcleared]
        intro h
        cases h

theorem inv_main_wait (hI : Inv s) (hpc : s.main = MainPc.wait) :
    Inv (pthread_cond_wait s) := by
  have hheld : s.main.holds = true := by
    rw [hpc]
    rfl
  have hnot : s.thr.raised ≠ true := fun hraised => hI.awake hraised hpc
  refine hI.main_step (owned_main_unlock hI hheld rfl rfl) rfl rfl rfl ?_ ?_ ?_ ?_ ?_
  · intro h
    cases h
  · rw [hpc]
    intro h
    cases h
  · intro _ h
    cases h
  · intro hdone
    rw [hdone] at hnot
    exact absurd rfl hnot
  · intro h
    cases h

theorem inv_main_clear (hI : Inv s) (hpc : s.main = MainPc.clear) :
    Inv { s with quitflag := 0, main := MainPc.setmask } := by
  have hleft : s.main.left = true := by
    rw [hpc]
    rfl
  have hraised := hI.left hleft
  constructor
  · exact owned_main_keep hI rfl rfl (by rw [hpc]; rfl)
  · intro h
    exact absurd rfl h
  · intro _
    exact hraised
  · exact hI.accepted
  · intro _
    exact Or.inr rfl
  · intro _ h
    cases h
  · intro _ h
    cases h
  · intro h
    cases h

theorem inv_main_create (hI : Inv s) (hpc : s.main = MainPc.create) :
    Inv { s with main := MainPc.lock, thr := ThrPc.sigwait } := by
  have habsent : s.thr = ThrPc.absent := by
    apply hI.early
    rw [hpc]
    rfl
  constructor
  · have howned := hI.owned
    intro u
    rw [← howned u]
    cases u with
    | main => simp [Holds, hpc, MainPc.holds]
    | thr => simp [Holds, habsent, ThrPc.holds]
  · intro hset
    have hraised := hI.flag hset
    rw [habsent] at hraised
    cases hraised
  · intro h
    cases h
  · intro h
    cases h
  · intro h
    cases h
  · intro h
    cases h
  · intro h
    cases h
  · intro h
    cases h

theorem inv_main (hI : Inv s) {ok : Bool} (h : main s ok = some t) : Inv t := by
  unfold main at h
  cases hpc : s.main with
  | sigmask =>
      rw [hpc] at h
      cases ok with
      | true =>
          cases h
          exact hI.main_awake (owned_main_keep hI rfl rfl (by rw [hpc]; rfl)) rfl rfl rfl
            rfl (by rw [hpc]; rfl) (fun _ => by rw [hpc]; rfl)
      | false =>
          cases h
          exact hI.main_awake (owned_main_keep hI rfl rfl (by rw [hpc]; rfl)) rfl rfl rfl
            rfl (by rw [hpc]; rfl) (fun _ => by rw [hpc]; rfl)
  | create =>
      rw [hpc] at h
      cases ok with
      | true =>
          cases h
          exact inv_main_create hI hpc
      | false =>
          cases h
          exact hI.main_awake (owned_main_keep hI rfl rfl (by rw [hpc]; rfl)) rfl rfl rfl
            rfl (by rw [hpc]; rfl) (fun _ => by rw [hpc]; rfl)
  | failed status =>
      rw [hpc] at h
      cases h
      exact hI.congr hpc.symm rfl rfl rfl (fun _ => rfl)
  | lock =>
      rw [hpc] at h
      exact inv_main_lock hI (by rw [hpc]; rfl) h
  | test =>
      rw [hpc] at h
      cases h
      exact inv_main_test hI hpc
  | wait =>
      rw [hpc] at h
      cases h
      exact inv_main_wait hI hpc
  | waiting =>
      rw [hpc] at h
      cases h
  | woken =>
      rw [hpc] at h
      exact inv_main_lock hI (by rw [hpc]; rfl) h
  | unlock =>
      rw [hpc] at h
      cases h
      have hraised := hI.left (by rw [hpc]; rfl)
      exact hI.main_left (owned_main_unlock hI (by rw [hpc]; rfl) rfl rfl) rfl rfl rfl
        rfl hraised (by rw [hpc]; intro h; cases h)
  | clear =>
      rw [hpc] at h
      cases h
      exact inv_main_clear hI hpc
  | setmask =>
      rw [hpc] at h
      have hraised := hI.left (by rw [hpc]; rfl)
      cases ok with
      | true =>
          cases h
          exact hI.main_left (owned_main_keep hI rfl rfl (by rw [hpc]; rfl)) rfl rfl rfl
            rfl hraised (fun _ => rfl)
      | false =>
          cases h
          exact hI.main_left (owned_main_keep hI rfl rfl (by rw [hpc]; rfl)) rfl rfl rfl
            rfl hraised (fun _ => rfl)
  | returned status =>
      rw [hpc] at h
      cases h
      exact hI.congr hpc.symm rfl rfl rfl (fun _ => rfl)

/-!
# Steps of thr_rtn
-/

theorem holds_main_iff (hmain : t.main.holds = s.main.holds) (u : Thread)
    (hu : u ≠ Thread.thr) : Holds t u ↔ Holds s u := by
  cases u with
  | main => simp only [Holds, hmain]
  | thr => exact absurd rfl hu

theorem owned_thr_keep (hI : Inv s) (hmutex : t.mutex = s.mutex)
    (hmain : t.main.holds = s.main.holds) (hholds : t.thr.holds = s.thr.holds) :
    OwnedBy t.mutex (Holds t) := by
  rw [hmutex]
  exact hI.owned.keep (holds_main_iff hmain) (by simp only [Holds, hholds])

theorem early_of_started (hI : Inv s) (hstarted : s.thr ≠ ThrPc.absent) :
    s.main.early ≠ true :=
  fun hearly => hstarted (hI.early hearly)

/-- What is left to show about a step of `thr_rtn` that neither sets the flag nor
gives the signal. -/
theorem Inv.thr_step (hI : Inv s) (howned : OwnedBy t.mutex (Holds t))
    (hmain : t.main = s.main) (hflag : t.quitflag = s.quitflag)
    (hraised : t.thr.raised = s.thr.raised)
    (haccepted : t.thr.quitting = true -> 0 < t.signals.taken Signo.SIGQUIT)
    (hdone : t.thr ≠ ThrPc.returned) (hstarted : s.thr ≠ ThrPc.absent) : Inv t := by
  constructor
  · exact howned
  · rw [hflag, hraised]
    exact hI.flag
  · rw [hmain, hraised]
    exact hI.left
  · exact haccepted
  · rw [hraised, hflag, hmain]
    exact hI.raised
  · rw [hraised, hmain]
    exact hI.awake
  · exact fun h => absurd h hdone
  · rw [hmain]
    exact fun h => absurd h (early_of_started hI hstarted)

theorem Inv.thr_quitting (hI : Inv s) (hquit : s.thr.quitting = true)
    (howned : OwnedBy t.mutex (Holds t)) (hmain : t.main = s.main)
    (hflag : t.quitflag = s.quitflag) (hsignals : t.signals = s.signals)
    (hraised : t.thr.raised = s.thr.raised) (hdone : t.thr ≠ ThrPc.returned) :
    Inv t := by
  have htaken := hI.accepted hquit
  refine hI.thr_step howned hmain hflag hraised ?_ hdone ?_
  · rw [hsignals]
    exact fun _ => htaken
  · intro habsent
    rw [habsent] at hquit
    cases hquit

theorem inv_sigwait (hI : Inv s) {r : Option Signo} (h : sigwait s r = some t) :
    Inv t := by
  unfold sigwait at h
  split at h
  · next hpc =>
      cases r with
      | none =>
          cases h
          exact hI.congr rfl rfl rfl rfl (fun _ => rfl)
      | some signo =>
          dsimp only at h
          split at h
          · next hpending =>
              cases h
              refine hI.thr_step (owned_thr_keep hI rfl rfl ?_) rfl rfl ?_ ?_ ?_ ?_
              · rw [hpc]
                rfl
              · rw [hpc]
                rfl
              · intro hquit
                cases signo with
                | SIGINT => cases hquit
                | SIGQUIT => exact Signals.taken_take_pos hpending
              · intro hdone
                cases hdone
              · rw [hpc]
                intro habsent
                cases habsent
          · cases h
  · cases h

/-- `thr_rtn` sets the flag while it has the mutex, so `main` is not between its
test and the wait. -/
theorem inv_setFlag (hI : Inv s) (hpc : s.thr = ThrPc.setFlag) :
    Inv { s with quitflag := 1, thr := ThrPc.unlock } := by
  have hheld : Holds s Thread.thr := by
    change s.thr.holds = true
    rw [hpc]
    rfl
  have hearly := early_of_started hI (by rw [hpc]; intro h; cases h)
  constructor
  · exact owned_thr_keep hI rfl rfl (by rw [hpc]; rfl)
  · exact fun _ => rfl
  · exact fun _ => rfl
  · intro _
    apply hI.accepted
    rw [hpc]
    rfl
  · exact fun _ => Or.inl Nat.one_ne_zero
  · intro _ hwait
    have hmain : Holds s Thread.main := by
      change s.main.holds = true
      change s.main = MainPc.wait at hwait
      rw [hwait]
      rfl
    have heq := hI.owned.unique hmain hheld
    cases heq
  · intro h
    cases h
  · exact fun h => absurd h hearly

theorem inv_signal (hI : Inv s) (hpc : s.thr = ThrPc.signal) :
    Inv { pthread_cond_signal s with thr := ThrPc.returned } := by
  have hraised : s.thr.raised = true := by
    rw [hpc]
    rfl
  have haccepted : 0 < s.signals.taken Signo.SIGQUIT := by
    apply hI.accepted
    rw [hpc]
    rfl
  have hearly := early_of_started hI (by rw [hpc]; intro h; cases h)
  unfold pthread_cond_signal
  split
  · next hwaiting =>
      constructor
      · exact owned_thr_keep hI rfl (by rw [hwaiting]; rfl) (by rw [hpc]; rfl)
      · exact fun _ => rfl
      · exact fun _ => rfl
      · exact fun _ => haccepted
      · intro _
        rcases hI.raised hraised with hset | hclear
        · exact Or.inl hset
        · rw [hwaiting] at hclear
          cases hclear
      · intro _ h
        cases h
      · intro _ h
        cases h
      · intro h
        cases h
  · next hnot =>
      constructor
      · exact owned_thr_keep hI rfl rfl (by rw [hpc]; rfl)
      · exact fun _ => rfl
      · exact fun _ => rfl
      · exact fun _ => haccepted
      · exact fun _ => hI.raised hraised
      · exact fun _ => hI.awake hraised
      · exact fun _ => hnot
      · exact fun h => absurd h hearly

theorem inv_thr_lock (hI : Inv s) (hpc : s.thr = ThrPc.lock)
    (h : (pthread_mutex_lock s Thread.thr).map
      (fun s => { s with thr := ThrPc.setFlag }) = some t) : Inv t := by
  unfold pthread_mutex_lock at h
  split at h
  · next hfree =>
      cases h
      have howned := hI.owned
      rw [hfree] at howned
      refine hI.thr_quitting ?_
        (howned.acquire (t := Thread.thr) (holds_main_iff rfl) rfl) rfl rfl rfl ?_ ?_
      · rw [hpc]
        rfl
      · rw [hpc]
        rfl
      · intro h
        cases h
  · cases h

theorem inv_thr_unlock (hI : Inv s) (hpc : s.thr = ThrPc.unlock) :
    Inv { pthread_mutex_unlock s with thr := ThrPc.signal } := by
  have hheld : Holds s Thread.thr := by
    change s.thr.holds = true
    rw [hpc]
    rfl
  refine hI.thr_quitting ?_ (hI.owned.release hheld (holds_main_iff rfl) ?_)
    rfl rfl rfl ?_ ?_
  · rw [hpc]
    rfl
  · intro h
    cases h
  · rw [hpc]
    rfl
  · intro h
    cases h

theorem inv_thr_rtn (hI : Inv s) (h : thr_rtn s = some t) : Inv t := by
  unfold thr_rtn at h
  cases hpc : s.thr with
  | absent =>
      rw [hpc] at h
      cases h
  | sigwait =>
      rw [hpc] at h
      cases h
  | switch signo =>
      rw [hpc] at h
      cases signo with
      | SIGINT =>
          cases h
          refine hI.thr_step (owned_thr_keep hI rfl rfl (by rw [hpc]; rfl)) rfl rfl
            (by rw [hpc]; rfl) ?_ ?_ (by rw [hpc]; intro h; cases h)
          · intro h
            cases h
          · intro h
            cases h
      | SIGQUIT =>
          cases h
          refine hI.thr_quitting (by rw [hpc]; rfl)
            (owned_thr_keep hI rfl rfl (by rw [hpc]; rfl)) rfl rfl rfl
            (by rw [hpc]; rfl) ?_
          intro h
          cases h
  | lock =>
      rw [hpc] at h
      exact inv_thr_lock hI hpc h
  | setFlag =>
      rw [hpc] at h
      cases h
      exact inv_setFlag hI hpc
  | unlock =>
      rw [hpc] at h
      cases h
      exact inv_thr_unlock hI hpc
  | signal =>
      rw [hpc] at h
      cases h
      exact inv_signal hI hpc
  | returned =>
      rw [hpc] at h
      cases h

theorem inv_spurious (hI : Inv s) (hpc : s.main = MainPc.waiting) :
    Inv { s with main := MainPc.woken } := by
  refine hI.main_awake (owned_main_keep hI rfl rfl (by rw [hpc]; rfl)) rfl rfl rfl
    rfl (by rw [hpc]; rfl) ?_
  intro h
  cases h

theorem inv_step {l : Label} (hI : Inv s) (h : step s l = some t) : Inv t := by
  unfold step at h
  split at h
  · cases h
  · cases l with
    | arrive signo =>
        cases h
        exact hI.congr rfl rfl rfl rfl (s.signals.taken_arrive signo)
    | deliver signo =>
        dsimp only [deliver] at h
        split at h
        · cases h
          exact hI.congr rfl rfl rfl rfl (fun _ => rfl)
        · cases h
    | main ok => exact inv_main hI h
    | sigwait r => exact inv_sigwait hI h
    | thr => exact inv_thr_rtn hI h
    | spurious =>
        dsimp only at h
        split at h
        · next hpc =>
            cases h
            exact inv_spurious hI hpc
        · cases h

end Steps

theorem inv_reachable {s : State} (hs : machine.Reachable s) : Inv s :=
  Machine.invariant (I := Inv) (fun _ h => initial_inv h)
    (fun _ _ _ hI h => inv_step hI h) hs

/-!
# The loop of main
-/

/-- `main` leaves its loop after a `SIGQUIT` was accepted and not when none has
arrived, and it is not left asleep when `thr_rtn` is done. -/
theorem released_by_SIGQUIT {s : State} (hs : machine.Reachable s) :
    (s.main.left = true -> 0 < s.signals.taken Signo.SIGQUIT) ∧
      (s.signals.arrived Signo.SIGQUIT = 0 -> s.main.left = false) ∧
      ¬ (s.thr = ThrPc.returned ∧ s.quitflag ≠ 0 ∧
        s.main = MainPc.waiting) := by
  have hI := inv_reachable hs
  have hleft : s.main.left = true -> 0 < s.signals.taken Signo.SIGQUIT := by
    intro hleft
    have hraised := hI.left hleft
    apply hI.accepted
    cases hpc : s.thr with
    | unlock => rfl
    | signal => rfl
    | returned => rfl
    | _ =>
        rw [hpc] at hraised
        cases hraised
  refine ⟨hleft, fun hnone => ?_, fun h => hI.done h.left h.right.right⟩
  cases hcase : s.main.left with
  | false => rfl
  | true =>
      have hle := s.signals.taken_le Signo.SIGQUIT
      have hpos := hleft hcase
      lia

def fresh : State where
  signals := { arrived := fun _ => 0, taken := fun _ => 0, taken_le := fun _ => Nat.le_refl 0 }
  mask := fun _ => false
  oldmask := fun _ => false
  quitflag := 0
  mutex := none
  main := MainPc.sigmask
  thr := ThrPc.absent
  ended := false

/-- `main` sleeps, wakes up for no reason and sleeps again, a `SIGINT` comes and
then a `SIGQUIT`. -/
def wakened : List Label :=
  [Label.main true, Label.main true, Label.main true, Label.main true,
    Label.main true, Label.spurious, Label.arrive Signo.SIGINT,
    Label.sigwait (some Signo.SIGINT), Label.main true, Label.thr,
    Label.main true, Label.main true, Label.arrive Signo.SIGQUIT,
    Label.sigwait (some Signo.SIGQUIT), Label.thr, Label.thr, Label.thr,
    Label.thr, Label.thr, Label.main true, Label.main true]

theorem released_by_SIGQUIT_wakened :
    exists s, machine.Reachable s ∧ s.main = MainPc.unlock ∧
      0 < s.signals.taken Signo.SIGQUIT := by
  have hinit : Initial fresh := ⟨fun _ => rfl, rfl, rfl, rfl, rfl, rfl⟩
  have hrun : (machine.run fresh wakened).map State.main = some MainPc.unlock := rfl
  rcases Machine.exists_reachable_of_run hinit hrun with ⟨s, hs, hmain⟩
  refine ⟨s, hs, hmain, (released_by_SIGQUIT hs).left ?_⟩
  rw [hmain]
  rfl

end Thrsig
end Apue
