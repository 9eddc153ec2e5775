import Apue.Foundation.Signals
import Apue.Foundation.Transition

/-!
# A critical region

`main` blocks `SIGINT`, raises it, prints its mask in the critical region, and lets the
signal in with `sigsuspend`, which blocks `SIGUSR1` instead.  Any signals may arrive at
any time, before the program starts as well.  `SIGINT` has a handler; `SIGUSR1` has none
and ends the process.  A line is one step: no signal is delivered while `pr_mask` prints.
-/

namespace Apue
namespace Critical

open Foundation

inductive Signo where
  | SIGINT
  | SIGUSR1
  deriving Repr, DecidableEq

/-- The texts that `pr_mask` prints in front. -/
inductive Text where
  | programStart
  | inSigInt
  | inCriticalRegion
  | afterSuspend
  | programExit
  deriving Repr, DecidableEq

structure Line where
  str : Text
  SIGINT : Bool
  SIGUSR1 : Bool
  deriving Repr, DecidableEq

/-- The next thing that `main` does.  In `suspended` it is asleep in `sigsuspend`, which
in `resuming` is about to put the mask back.  It returns 1 where a call fails. -/
inductive MainPc where
  | programStart
  | sigaction
  | block
  | raise
  | inCriticalRegion
  | suspend
  | suspended (oldmask : SigSet Signo)
  | resuming (oldmask : SigSet Signo)
  | afterSuspend
  | restore
  | programExit
  | returned
  | failedSigaction
  | failedBlock
  | failedRestore

structure Frame where
  printed : Bool
  mask : SigSet Signo

structure State where
  main : MainPc
  frames : List Frame
  mask : SigSet Signo
  oldmask : SigSet Signo
  installed : Bool
  signals : Signals Signo
  lines : List Line
  ended : Bool

/-- A signal arrives or is delivered; a step of what runs, where `ok` is the outcome of a
call that may fail. -/
inductive Label where
  | arrive (signo : Signo)
  | deliver (signo : Signo)
  | run (ok : Bool)
  deriving Repr, DecidableEq

def add (set : SigSet Signo) (signo : Signo) : SigSet Signo :=
  Function.update set signo true

def waitmask : SigSet Signo :=
  add (fun _ => false) Signo.SIGUSR1

def lineOf (str : Text) (mask : SigSet Signo) : Line where
  str := str
  SIGINT := mask Signo.SIGINT
  SIGUSR1 := mask Signo.SIGUSR1

def pr_mask (s : State) (str : Text) : State :=
  { s with lines := s.lines ++ [lineOf str s.mask] }

/-- `raise` is called while its signal is blocked, and so only makes it pending. -/
def main (s : State) (ok : Bool) : Option State :=
  match s.main with
  | MainPc.programStart =>
      some { pr_mask s Text.programStart with main := MainPc.sigaction }
  | MainPc.sigaction =>
      if ok then
        some { s with installed := true, main := MainPc.block }
      else
        some { s with main := MainPc.failedSigaction }
  | MainPc.block =>
      if ok then
        some
          { s with
            mask := add s.mask Signo.SIGINT
            oldmask := s.mask
            main := MainPc.raise }
      else
        some { s with main := MainPc.failedBlock }
  | MainPc.raise =>
      some
        { s with signals := s.signals.arrive Signo.SIGINT, main := MainPc.inCriticalRegion }
  | MainPc.inCriticalRegion =>
      some { pr_mask s Text.inCriticalRegion with main := MainPc.suspend }
  | MainPc.suspend => some { s with mask := waitmask, main := MainPc.suspended s.mask }
  | MainPc.suspended _ => none
  | MainPc.resuming oldmask =>
      some { s with mask := oldmask, main := MainPc.afterSuspend }
  | MainPc.afterSuspend => some { pr_mask s Text.afterSuspend with main := MainPc.restore }
  | MainPc.restore =>
      if ok then
        some { s with mask := s.oldmask, main := MainPc.programExit }
      else
        some { s with main := MainPc.failedRestore }
  | MainPc.programExit => some { pr_mask s Text.programExit with main := MainPc.returned }
  | _ => some { s with ended := true }

/-- A handler that returns to `sigsuspend` makes it return. -/
def MainPc.wake : MainPc -> MainPc
  | MainPc.suspended oldmask => MainPc.resuming oldmask
  | pc => pc

def sig_int (s : State) (frame : Frame) (rest : List Frame) : State :=
  if frame.printed then
    { s with
      frames := rest
      mask := frame.mask
      main := if rest.isEmpty then s.main.wake else s.main }
  else
    { pr_mask s Text.inSigInt with frames := { frame with printed := true } :: rest }

def deliver (s : State) (signo : Signo) : Option State :=
  if s.signals.pending signo ∧ s.mask signo = false then
    if signo = Signo.SIGINT ∧ s.installed = true then
      some
        { s with
          signals := s.signals.take signo
          frames := { printed := false, mask := s.mask } :: s.frames
          mask := add s.mask signo }
    else
      some { s with ended := true }
  else
    none

def step (s : State) (l : Label) : Option State :=
  if s.ended then
    none
  else
    match l with
    | Label.arrive signo => some { s with signals := s.signals.arrive signo }
    | Label.deliver signo => deliver s signo
    | Label.run ok =>
        match s.frames with
        | [] => main s ok
        | frame :: rest => some (sig_int s frame rest)

/-- The program starts with the mask `m` and any signals pending. -/
structure Initial (m : SigSet Signo) (s : State) : Prop where
  main : s.main = MainPc.programStart
  frames : s.frames = []
  mask : s.mask = m
  installed : s.installed = false
  lines : s.lines = []
  running : s.ended = false

def machine (m : SigSet Signo) : Machine State Label where
  init := Initial m
  step := step

/-!
# The lines
-/

def handled (mask : SigSet Signo) (k : Nat) : List Line :=
  List.replicate k (lineOf Text.inSigInt (add mask Signo.SIGINT))

theorem handled_succ (mask : SigSet Signo) (k : Nat) :
    handled mask (k + 1) = handled mask k ++ [lineOf Text.inSigInt (add mask Signo.SIGINT)] :=
  List.replicate_succ'

def first (m : SigSet Signo) (k : Nat) : List Line :=
  lineOf Text.programStart m :: handled m k

/-- Up to the end of `sigsuspend`. -/
def second (m : SigSet Signo) (k k' : Nat) : List Line :=
  first m k ++ [lineOf Text.inCriticalRegion (add m Signo.SIGINT)] ++ handled waitmask k'

/-- Up to the last line of `main`. -/
def third (m : SigSet Signo) (k k' k'' : Nat) : List Line :=
  second m k k' ++ [lineOf Text.afterSuspend (add m Signo.SIGINT)] ++ handled m k''

/-- All lines, with `k2` handlers in `sigsuspend` and others before and after. -/
def session (m : SigSet Signo) (k1 k2 k3 k4 : Nat) : List Line :=
  third m k1 k2 k3 ++ [lineOf Text.programExit m] ++ handled m k4

/-- What has been printed when `main` is at this point. -/
def LinesAt (m : SigSet Signo) : MainPc -> List Line -> Prop
  | MainPc.programStart, xs => xs = []
  | MainPc.sigaction, xs => xs = first m 0
  | MainPc.failedSigaction, xs => xs = first m 0
  | MainPc.block, xs => exists k, xs = first m k
  | MainPc.failedBlock, xs => exists k, xs = first m k
  | MainPc.raise, xs => exists k, xs = first m k
  | MainPc.inCriticalRegion, xs => exists k, xs = first m k
  | MainPc.suspend, xs => exists k, xs = second m k 0
  | MainPc.suspended _, xs => exists k1 k2, xs = second m k1 k2
  | MainPc.resuming _, xs => exists k1 k2, xs = second m k1 (k2 + 1)
  | MainPc.afterSuspend, xs => exists k1 k2, xs = second m k1 (k2 + 1)
  | MainPc.restore, xs => exists k1 k2, xs = third m k1 (k2 + 1) 0
  | MainPc.failedRestore, xs => exists k1 k2, xs = third m k1 (k2 + 1) 0
  | MainPc.programExit, xs => exists k1 k2 k3, xs = third m k1 (k2 + 1) k3
  | MainPc.returned, xs => exists k1 k2 k3 k4, xs = session m k1 (k2 + 1) k3 k4

/-- The mask of `main` while no handler runs. -/
def MainPc.mask (m : SigSet Signo) : MainPc -> SigSet Signo
  | MainPc.raise => add m Signo.SIGINT
  | MainPc.inCriticalRegion => add m Signo.SIGINT
  | MainPc.suspend => add m Signo.SIGINT
  | MainPc.suspended _ => waitmask
  | MainPc.resuming _ => waitmask
  | MainPc.afterSuspend => add m Signo.SIGINT
  | MainPc.restore => add m Signo.SIGINT
  | MainPc.failedRestore => add m Signo.SIGINT
  | _ => m

def MainPc.exposed : MainPc -> Bool
  | MainPc.block => true
  | MainPc.failedBlock => true
  | MainPc.suspended _ => true
  | MainPc.resuming _ => true
  | MainPc.programExit => true
  | MainPc.returned => true
  | _ => false

def MainPc.catches : MainPc -> Bool
  | MainPc.programStart => false
  | MainPc.sigaction => false
  | MainPc.failedSigaction => false
  | _ => true

/-- The mask that `sigsuspend` is to put back. -/
def MainPc.saved : MainPc -> Option (SigSet Signo)
  | MainPc.suspended oldmask => some oldmask
  | MainPc.resuming oldmask => some oldmask
  | _ => none

/-- Between the two calls of `sigprocmask`. -/
def MainPc.inside : MainPc -> Bool
  | MainPc.raise => true
  | MainPc.inCriticalRegion => true
  | MainPc.suspend => true
  | MainPc.suspended _ => true
  | MainPc.resuming _ => true
  | MainPc.afterSuspend => true
  | MainPc.restore => true
  | _ => false

def MainPc.raised : MainPc -> Bool
  | MainPc.inCriticalRegion => true
  | MainPc.suspend => true
  | MainPc.suspended _ => true
  | _ => false

theorem add_self (set : SigSet Signo) (signo : Signo) : add set signo signo = true := by
  unfold add
  rw [Function.update_self]

theorem mask_of_not_exposed {pc : MainPc} (m : SigSet Signo) (hcatches : pc.catches = true)
    (hexposed : pc.exposed = false) : pc.mask m Signo.SIGINT = true := by
  cases pc with
  | raise => exact add_self m Signo.SIGINT
  | inCriticalRegion => exact add_self m Signo.SIGINT
  | suspend => exact add_self m Signo.SIGINT
  | afterSuspend => exact add_self m Signo.SIGINT
  | restore => exact add_self m Signo.SIGINT
  | failedRestore => exact add_self m Signo.SIGINT
  | programStart => cases hcatches
  | sigaction => cases hcatches
  | failedSigaction => cases hcatches
  | _ => cases hexposed

theorem LinesAt.handler {m : SigSet Signo} {pc : MainPc} {xs : List Line}
    (h : LinesAt m pc xs) (hexposed : pc.exposed = true) :
    LinesAt m pc (xs ++ [lineOf Text.inSigInt (add (pc.mask m) Signo.SIGINT)]) := by
  cases pc with
  | block =>
      rcases h with ⟨k, heq⟩
      refine ⟨k + 1, ?_⟩
      rw [heq, first, first, handled_succ]
      rfl
  | failedBlock =>
      rcases h with ⟨k, heq⟩
      refine ⟨k + 1, ?_⟩
      rw [heq, first, first, handled_succ]
      rfl
  | suspended oldmask =>
      rcases h with ⟨k1, k2, heq⟩
      refine ⟨k1, k2 + 1, ?_⟩
      rw [heq, second, second, handled_succ, List.append_assoc _ (handled waitmask k2)]
      rfl
  | resuming oldmask =>
      rcases h with ⟨k1, k2, heq⟩
      refine ⟨k1, k2 + 1, ?_⟩
      rw [heq, second, second, handled_succ waitmask (k2 + 1),
        List.append_assoc _ (handled waitmask (k2 + 1))]
      rfl
  | programExit =>
      rcases h with ⟨k1, k2, k3, heq⟩
      refine ⟨k1, k2, k3 + 1, ?_⟩
      rw [heq, third, third, handled_succ m k3, List.append_assoc _ (handled m k3)]
      rfl
  | returned =>
      rcases h with ⟨k1, k2, k3, k4, heq⟩
      refine ⟨k1, k2, k3, k4 + 1, ?_⟩
      rw [heq, session, session, handled_succ m k4, List.append_assoc _ (handled m k4)]
      rfl
  | _ => cases hexposed

/-!
# The invariant
-/

structure Inv (m : SigSet Signo) (s : State) : Prop where
  alone : s.frames = [] -> s.mask = s.main.mask m
  handler : forall f rest, s.frames = f :: rest ->
    rest = [] ∧ f.mask = s.main.mask m ∧ s.mask = add (s.main.mask m) Signo.SIGINT ∧
      s.main.exposed = true
  installed : s.installed = s.main.catches
  oldmask : s.main.inside = true -> s.oldmask = m
  saved : forall set, s.main.saved = some set -> set = add m Signo.SIGINT
  pending : s.main.raised = true -> s.frames = [] -> s.signals.pending Signo.SIGINT = true
  lines : LinesAt m s.main s.lines
  printed : forall f set, f ∈ s.frames -> f.printed = true -> s.main = MainPc.suspended set ->
    exists k1 k2, s.lines = second m k1 (k2 + 1)
  ended : s.ended = true -> s.main.saved = none

section

variable {m : SigSet Signo} {s t : State}

theorem initial_inv (h : Initial m s) : Inv m s where
  alone _ := by
    rw [h.mask, h.main]
    rfl
  handler f rest hframes := by
    rw [h.frames] at hframes
    cases hframes
  installed := by
    rw [h.installed, h.main]
    rfl
  oldmask hinside := by
    rw [h.main] at hinside
    cases hinside
  saved set hset := by
    rw [h.main] at hset
    cases hset
  pending hraised := by
    rw [h.main] at hraised
    cases hraised
  lines := by
    rw [h.main]
    exact h.lines
  printed f set hf := by
    rw [h.frames] at hf
    cases hf
  ended hended := by
    rw [h.running] at hended
    cases hended

theorem pending_arrive (signals : Signals Signo) (signo g : Signo)
    (h : signals.pending g = true) : (signals.arrive signo).pending g = true := by
  rw [Signals.pending_iff] at h ⊢
  show signals.taken g < Function.update signals.arrived signo _ g
  rcases eq_or_ne g signo with heq | hne
  · rw [heq] at h ⊢
    rw [Function.update_self]
    exact Nat.lt_succ_of_lt h
  · rw [Function.update_of_ne hne]
    exact h

theorem pending_arrive_self (signals : Signals Signo) (signo : Signo) :
    (signals.arrive signo).pending signo = true := by
  rw [Signals.pending_iff]
  show signals.taken signo < Function.update signals.arrived signo _ signo
  rw [Function.update_self]
  exact Nat.lt_succ_of_le (signals.taken_le signo)

theorem Inv.arrive (h : Inv m s) (signo : Signo) :
    Inv m { s with signals := s.signals.arrive signo } :=
  { h with
    pending := fun hraised hframes =>
      pending_arrive s.signals signo Signo.SIGINT (h.pending hraised hframes) }

theorem inv_goto {pc : MainPc} {mask oldmask : SigSet Signo} {installed : Bool}
    {signals : Signals Signo} {lines : List Line} (hframes : s.frames = [])
    (hrunning : s.ended = false) (hmask : mask = pc.mask m) (hinstalled : installed = pc.catches)
    (holdmask : pc.inside = true -> oldmask = m)
    (hsaved : forall set, pc.saved = some set -> set = add m Signo.SIGINT)
    (hpending : pc.raised = true -> signals.pending Signo.SIGINT = true)
    (hlines : LinesAt m pc lines) :
    Inv m { s with main := pc, mask, oldmask, installed, signals, lines } where
  alone _ := hmask
  handler f rest heq := by
    have hnil : s.frames = f :: rest := heq
    rw [hframes] at hnil
    cases hnil
  installed := hinstalled
  oldmask := holdmask
  saved := hsaved
  pending hraised _ := hpending hraised
  lines := hlines
  printed f set hf := by
    have hmem : f ∈ s.frames := hf
    rw [hframes] at hmem
    cases hmem
  ended hended := by
    have htrue : s.ended = true := hended
    rw [hrunning] at htrue
    cases htrue

theorem Inv.programStart (h : Inv m s) (hframes : s.frames = []) (hrunning : s.ended = false)
    (hpc : s.main = MainPc.programStart) :
    Inv m { pr_mask s Text.programStart with main := MainPc.sigaction } := by
  have hmask := h.alone hframes
  have hinstalled := h.installed
  have hlines := h.lines
  rw [hpc] at hmask hinstalled hlines
  refine inv_goto hframes hrunning hmask hinstalled nofun nofun nofun ?_
  show s.lines ++ [lineOf Text.programStart s.mask] = _
  rw [show s.lines = [] from hlines, show s.mask = m from hmask]
  rfl

theorem Inv.sigaction (h : Inv m s) (hframes : s.frames = []) (hrunning : s.ended = false)
    (hpc : s.main = MainPc.sigaction) :
    Inv m { s with installed := true, main := MainPc.block } ∧
      Inv m { s with main := MainPc.failedSigaction } := by
  have hmask := h.alone hframes
  have hinstalled := h.installed
  have hlines := h.lines
  rw [hpc] at hmask hinstalled hlines
  exact ⟨inv_goto hframes hrunning hmask rfl nofun nofun nofun ⟨0, hlines⟩,
    inv_goto hframes hrunning hmask hinstalled nofun nofun nofun hlines⟩

theorem Inv.block (h : Inv m s) (hframes : s.frames = []) (hrunning : s.ended = false)
    (hpc : s.main = MainPc.block) :
    Inv m { s with mask := add s.mask Signo.SIGINT, oldmask := s.mask, main := MainPc.raise } ∧
      Inv m { s with main := MainPc.failedBlock } := by
  have hmask := h.alone hframes
  have hinstalled := h.installed
  have hlines := h.lines
  rw [hpc] at hmask hinstalled hlines
  refine ⟨inv_goto hframes hrunning ?_ hinstalled (fun _ => hmask) nofun nofun hlines,
    inv_goto hframes hrunning hmask hinstalled nofun nofun nofun hlines⟩
  rw [show s.mask = m from hmask]
  rfl

theorem Inv.raise (h : Inv m s) (hframes : s.frames = []) (hrunning : s.ended = false)
    (hpc : s.main = MainPc.raise) :
    Inv m { s with
      signals := s.signals.arrive Signo.SIGINT, main := MainPc.inCriticalRegion } := by
  have hmask := h.alone hframes
  have hinstalled := h.installed
  have holdmask := h.oldmask
  have hlines := h.lines
  rw [hpc] at hmask hinstalled holdmask hlines
  exact inv_goto hframes hrunning hmask hinstalled holdmask nofun
    (fun _ => pending_arrive_self s.signals Signo.SIGINT) hlines

theorem Inv.inCriticalRegion (h : Inv m s) (hframes : s.frames = [])
    (hrunning : s.ended = false) (hpc : s.main = MainPc.inCriticalRegion) :
    Inv m { pr_mask s Text.inCriticalRegion with main := MainPc.suspend } := by
  have hmask := h.alone hframes
  have hinstalled := h.installed
  have holdmask := h.oldmask
  have hpending := fun hraised => h.pending hraised hframes
  have hlines := h.lines
  rw [hpc] at hmask hinstalled holdmask hpending hlines
  rcases hlines with ⟨k, heq⟩
  refine inv_goto hframes hrunning hmask hinstalled holdmask nofun hpending ⟨k, ?_⟩
  show s.lines ++ [lineOf Text.inCriticalRegion s.mask] = _
  rw [heq, show s.mask = add m Signo.SIGINT from hmask]
  exact (List.append_nil _).symm

theorem Inv.suspend (h : Inv m s) (hframes : s.frames = []) (hrunning : s.ended = false)
    (hpc : s.main = MainPc.suspend) :
    Inv m { s with mask := waitmask, main := MainPc.suspended s.mask } := by
  have hmask := h.alone hframes
  have hinstalled := h.installed
  have holdmask := h.oldmask
  have hpending := fun hraised => h.pending hraised hframes
  have hlines := h.lines
  rw [hpc] at hmask hinstalled holdmask hpending hlines
  rcases hlines with ⟨k, heq⟩
  refine inv_goto hframes hrunning rfl hinstalled holdmask ?_ hpending ⟨k, 0, heq⟩
  intro set hset
  cases hset
  exact hmask

theorem Inv.resuming {set : SigSet Signo} (h : Inv m s) (hframes : s.frames = [])
    (hrunning : s.ended = false) (hpc : s.main = MainPc.resuming set) :
    Inv m { s with mask := set, main := MainPc.afterSuspend } := by
  have hset : set = add m Signo.SIGINT := h.saved set (by rw [hpc]; rfl)
  have hinstalled := h.installed
  have holdmask := h.oldmask
  have hlines := h.lines
  rw [hpc] at hinstalled holdmask hlines
  exact inv_goto hframes hrunning hset hinstalled holdmask nofun nofun hlines

theorem Inv.afterSuspend (h : Inv m s) (hframes : s.frames = []) (hrunning : s.ended = false)
    (hpc : s.main = MainPc.afterSuspend) :
    Inv m { pr_mask s Text.afterSuspend with main := MainPc.restore } := by
  have hmask := h.alone hframes
  have hinstalled := h.installed
  have holdmask := h.oldmask
  have hlines := h.lines
  rw [hpc] at hmask hinstalled holdmask hlines
  rcases hlines with ⟨k1, k2, heq⟩
  refine inv_goto hframes hrunning hmask hinstalled holdmask nofun nofun ⟨k1, k2, ?_⟩
  show s.lines ++ [lineOf Text.afterSuspend s.mask] = _
  rw [heq, show s.mask = add m Signo.SIGINT from hmask]
  exact (List.append_nil _).symm

theorem Inv.restore (h : Inv m s) (hframes : s.frames = []) (hrunning : s.ended = false)
    (hpc : s.main = MainPc.restore) :
    Inv m { s with mask := s.oldmask, main := MainPc.programExit } ∧
      Inv m { s with main := MainPc.failedRestore } := by
  have hmask := h.alone hframes
  have hinstalled := h.installed
  have holdmask := h.oldmask
  have hlines := h.lines
  rw [hpc] at hmask hinstalled holdmask hlines
  rcases hlines with ⟨k1, k2, heq⟩
  exact ⟨inv_goto hframes hrunning (holdmask rfl) hinstalled nofun nofun nofun ⟨k1, k2, 0, heq⟩,
    inv_goto hframes hrunning hmask hinstalled nofun nofun nofun ⟨k1, k2, heq⟩⟩

theorem Inv.programExit (h : Inv m s) (hframes : s.frames = []) (hrunning : s.ended = false)
    (hpc : s.main = MainPc.programExit) :
    Inv m { pr_mask s Text.programExit with main := MainPc.returned } := by
  have hmask := h.alone hframes
  have hinstalled := h.installed
  have hlines := h.lines
  rw [hpc] at hmask hinstalled hlines
  rcases hlines with ⟨k1, k2, k3, heq⟩
  refine inv_goto hframes hrunning hmask hinstalled nofun nofun nofun ⟨k1, k2, k3, 0, ?_⟩
  show s.lines ++ [lineOf Text.programExit s.mask] = _
  rw [heq, show s.mask = m from hmask]
  exact (List.append_nil _).symm

theorem Inv.exit (h : Inv m s) (hsaved : s.main.saved = none) :
    Inv m { s with ended := true } :=
  { h with ended := fun _ => hsaved }

theorem Inv.main {ok : Bool} (h : Inv m s) (hframes : s.frames = []) (hrunning : s.ended = false)
    (hstep : main s ok = some t) : Inv m t := by
  unfold Critical.main at hstep
  split at hstep
  · next hpc =>
      cases hstep
      exact h.programStart hframes hrunning hpc
  · next hpc =>
      split at hstep
      · cases hstep
        exact (h.sigaction hframes hrunning hpc).left
      · cases hstep
        exact (h.sigaction hframes hrunning hpc).right
  · next hpc =>
      split at hstep
      · cases hstep
        exact (h.block hframes hrunning hpc).left
      · cases hstep
        exact (h.block hframes hrunning hpc).right
  · next hpc =>
      cases hstep
      exact h.raise hframes hrunning hpc
  · next hpc =>
      cases hstep
      exact h.inCriticalRegion hframes hrunning hpc
  · next hpc =>
      cases hstep
      exact h.suspend hframes hrunning hpc
  · cases hstep
  · next set hpc =>
      cases hstep
      exact h.resuming hframes hrunning hpc
  · next hpc =>
      cases hstep
      exact h.afterSuspend hframes hrunning hpc
  · next hpc =>
      split at hstep
      · cases hstep
        exact (h.restore hframes hrunning hpc).left
      · cases hstep
        exact (h.restore hframes hrunning hpc).right
  · next hpc =>
      cases hstep
      exact h.programExit hframes hrunning hpc
  · -- only the points at which `main` has returned are left
    cases hstep
    apply h.exit
    cases hpc : s.main with
    | suspended set =>
        exact (‹forall set, s.main = MainPc.suspended set -> False› set hpc).elim
    | resuming set =>
        exact (‹forall set, s.main = MainPc.resuming set -> False› set hpc).elim
    | _ => rfl

theorem LinesAt.wake {pc : MainPc} {xs : List Line} (h : LinesAt m pc xs)
    (hprinted : forall set, pc = MainPc.suspended set -> exists k1 k2, xs = second m k1 (k2 + 1)) :
    LinesAt m pc.wake xs := by
  cases pc with
  | suspended set => exact hprinted set rfl
  | _ => exact h

theorem mask_wake (pc : MainPc) : pc.wake.mask m = pc.mask m := by
  cases pc with
  | _ => rfl

theorem Inv.sig_int {frame : Frame} {rest : List Frame} (h : Inv m s)
    (hframes : s.frames = frame :: rest) (hrunning : s.ended = false) :
    Inv m (sig_int s frame rest) := by
  rcases h.handler frame rest hframes with ⟨hrest, hmask, hself, hexposed⟩
  cases hrest
  have hnever : forall {P : Prop}, s.ended = true -> P := by
    intro P htrue
    rw [hrunning] at htrue
    cases htrue
  unfold Critical.sig_int
  cases hprinted : frame.printed with
  | false =>
      rw [if_neg (by decide)]
      have hlines := h.lines.handler hexposed
      rw [← hself] at hlines
      refine ⟨nofun, ?_, h.installed, h.oldmask, h.saved, fun _ => nofun, hlines, ?_,
        fun htrue => hnever htrue⟩
      · intro f rest heq
        cases heq
        exact ⟨rfl, hmask, hself, hexposed⟩
      · intro f set _ _ hset
        have hat : LinesAt m s.main s.lines := h.lines
        rw [show s.main = MainPc.suspended set from hset] at hat
        rcases hat with ⟨k1, k2, heq⟩
        refine ⟨k1, k2, ?_⟩
        show s.lines ++ [lineOf Text.inSigInt s.mask] = _
        rw [heq, hself, show s.main = MainPc.suspended set from hset, second, second,
          handled_succ, ← List.append_assoc]
        rfl
  | true =>
      rw [if_pos rfl]
      show Inv m { s with frames := [], mask := frame.mask, main := s.main.wake }
      refine ⟨?_, nofun, ?_, ?_, ?_, ?_, ?_, nofun, fun htrue => hnever htrue⟩
      · intro _
        show frame.mask = s.main.wake.mask m
        rw [hmask, mask_wake]
      · show s.installed = s.main.wake.catches
        rw [h.installed]
        cases s.main with
        | _ => rfl
      · intro hinside
        apply h.oldmask
        revert hinside
        show s.main.wake.inside = true -> s.main.inside = true
        cases s.main with
        | _ => exact id
      · intro set hset
        apply h.saved
        rw [← show s.main.wake.saved = some set from hset]
        cases s.main with
        | _ => rfl
      · intro hraised
        exfalso
        revert hraised hexposed
        show s.main.exposed = true -> s.main.wake.raised = true -> False
        cases s.main with
        | suspended set => nofun
        | inCriticalRegion => nofun
        | suspend => nofun
        | _ => exact fun _ => nofun
      · exact h.lines.wake (fun set hset =>
          h.printed frame set (by rw [hframes]; exact List.mem_cons_self) hprinted hset)

/-- `SIGINT` is taken by the handler where it may be, or ends the program before it is
installed; in `sigsuspend` nothing ends it. -/
theorem Inv.deliver {signo : Signo} (h : Inv m s) (hstep : deliver s signo = some t) :
    Inv m t := by
  unfold Critical.deliver at hstep
  split at hstep
  · next hdue =>
      have hnil : signo = Signo.SIGINT -> s.frames = [] := by
        intro heq
        cases hframes : s.frames with
        | nil => rfl
        | cons f rest =>
            have hmask := (h.handler f rest hframes).2.2.1
            have hopen := hdue.2
            rw [heq, hmask, add_self] at hopen
            cases hopen
      split at hstep
      · next hcaught =>
          rcases hcaught with ⟨hint, hinstalled⟩
          cases hint
          cases hstep
          have hframes := hnil rfl
          have hmask := h.alone hframes
          have hexposed : s.main.exposed = true := by
            cases hexposed : s.main.exposed with
            | true => rfl
            | false =>
                have hcatches := h.installed
                rw [hinstalled] at hcatches
                have hblocked := mask_of_not_exposed m hcatches.symm hexposed
                rw [← hmask, hdue.2] at hblocked
                cases hblocked
          refine ⟨nofun, ?_, h.installed, h.oldmask, h.saved, fun _ => nofun, h.lines, ?_,
            h.ended⟩
          · intro f rest heq
            cases heq
            show s.frames = [] ∧ s.mask = _ ∧ add s.mask Signo.SIGINT = _ ∧ _
            rw [hmask]
            exact ⟨hframes, rfl, rfl, hexposed⟩
          · intro f set hf hprinted
            have hmem : f ∈ { printed := false, mask := s.mask } :: s.frames := hf
            rw [hframes] at hmem
            rw [List.mem_singleton.mp hmem] at hprinted
            cases hprinted
      · next hdefault =>
          cases hstep
          refine { h with ended := ?_ }
          intro _
          show s.main.saved = none
          cases hsaved : s.main.saved with
          | none => rfl
          | some set =>
              exfalso
              have hcatches : s.main.catches = true := by
                revert hsaved
                cases s.main with
                | suspended set => exact fun _ => rfl
                | resuming set => exact fun _ => rfl
                | _ => nofun
              have hwait : s.main.mask m = waitmask := by
                revert hsaved
                cases s.main with
                | suspended set => exact fun _ => rfl
                | resuming set => exact fun _ => rfl
                | _ => nofun
              cases signo with
              | SIGINT => exact hdefault ⟨rfl, by rw [h.installed, hcatches]⟩
              | SIGUSR1 =>
                  have hopen := hdue.2
                  cases hframes : s.frames with
                  | nil =>
                      rw [h.alone hframes, hwait] at hopen
                      cases hopen
                  | cons f rest =>
                      rw [(h.handler f rest hframes).2.2.1, hwait] at hopen
                      cases hopen
  · cases hstep

theorem Inv.after {l : Label} (h : Inv m s) (hstep : step s l = some t) : Inv m t := by
  unfold step at hstep
  split at hstep
  · cases hstep
  · next hended =>
      have hrunning : s.ended = false := by
        cases hend : s.ended with
        | false => rfl
        | true => exact absurd hend hended
      cases l with
      | arrive signo =>
          cases hstep
          exact h.arrive signo
      | deliver signo => exact h.deliver hstep
      | run ok =>
          dsimp only at hstep
          cases hframes : s.frames with
          | nil =>
              rw [hframes] at hstep
              exact h.main hframes hrunning hstep
          | cons frame rest =>
              rw [hframes] at hstep
              cases hstep
              exact h.sig_int hframes hrunning

theorem reachable_inv (h : (machine m).Reachable s) : Inv m s :=
  Machine.invariant (M := machine m) (I := Inv m) (fun _ hs => initial_inv hs)
    (fun _ _ _ hs hstep => hs.after hstep) h

/-!
# Until the program ends
-/

def Label.own : Label -> Bool
  | Label.arrive _ => false
  | _ => true

def MainPc.left : MainPc -> Nat
  | MainPc.programStart => 17
  | MainPc.sigaction => 16
  | MainPc.block => 15
  | MainPc.raise => 14
  | MainPc.inCriticalRegion => 10
  | MainPc.suspend => 9
  | MainPc.suspended _ => 8
  | MainPc.resuming _ => 7
  | MainPc.afterSuspend => 6
  | MainPc.restore => 5
  | MainPc.programExit => 4
  | _ => 2

def Frame.left (f : Frame) : Nat :=
  if f.printed then 1 else 2

def framesLeft : List Frame -> Nat
  | [] => 0
  | f :: rest => f.left + framesLeft rest

def left (s : State) : Nat :=
  if s.ended then 0
  else
    s.main.left + framesLeft s.frames +
      if s.signals.pending Signo.SIGINT then 3 else 0

theorem left_of_running (h : s.ended = false) :
    left s = s.main.left + framesLeft s.frames +
      if s.signals.pending Signo.SIGINT then 3 else 0 := by
  unfold left
  rw [h, if_neg (by decide)]

theorem left_lt (hrunning : s.ended = false) (htrunning : t.ended = false)
    (h : (t.main.left + framesLeft t.frames +
        if t.signals.pending Signo.SIGINT then 3 else 0) <
      s.main.left + framesLeft s.frames +
        if s.signals.pending Signo.SIGINT then 3 else 0) : left t < left s := by
  rw [left_of_running hrunning, left_of_running htrunning]
  exact h

theorem main_left_pos (pc : MainPc) : 2 ≤ pc.left := by
  cases pc with
  | _ => exact Nat.le_of_ble_eq_true rfl

theorem left_ended (hrunning : s.ended = false) : left { s with ended := true } < left s := by
  have hpos := main_left_pos s.main
  rw [left_of_running hrunning]
  show 0 < _
  lia

theorem left_goto {pc : MainPc} (hframes : s.frames = []) (hrunning : s.ended = false)
    (hpc : t.main = pc) (hlt : pc.left < s.main.left) (htframes : t.frames = s.frames)
    (hsignals : t.signals = s.signals) (hended : t.ended = s.ended) : left t < left s := by
  rw [left_of_running hrunning, left_of_running (hended.trans hrunning), hpc, htframes,
    hsignals, hframes]
  lia

theorem left_main {ok : Bool} (hframes : s.frames = []) (hrunning : s.ended = false)
    (hstep : main s ok = some t) : left t < left s := by
  unfold Critical.main at hstep
  have hmoved : forall {u : State} (pc : MainPc), u.main = pc -> pc.left < s.main.left ->
      u.frames = s.frames -> u.signals = s.signals -> u.ended = s.ended -> left u < left s :=
    fun pc hpc hlt => left_goto hframes hrunning hpc hlt
  cases hpc : s.main with
  | programStart =>
      rw [hpc] at hstep hmoved
      cases hstep
      exact hmoved MainPc.sigaction rfl (by decide) rfl rfl rfl
  | sigaction =>
      rw [hpc] at hstep hmoved
      cases ok with
      | true =>
          cases hstep
          exact hmoved MainPc.block rfl (by decide) rfl rfl rfl
      | false =>
          cases hstep
          exact hmoved MainPc.failedSigaction rfl (by decide) rfl rfl rfl
  | block =>
      rw [hpc] at hstep hmoved
      cases ok with
      | true =>
          cases hstep
          exact hmoved MainPc.raise rfl (by decide) rfl rfl rfl
      | false =>
          cases hstep
          exact hmoved MainPc.failedBlock rfl (by decide) rfl rfl rfl
  | raise =>
      rw [hpc] at hstep
      cases hstep
      apply left_lt hrunning
      · exact hrunning
      show 10 + framesLeft s.frames + _ < _
      rw [hpc, if_pos (pending_arrive_self s.signals Signo.SIGINT), hframes]
      show 10 + 0 + 3 < 14 + 0 + _
      lia
  | inCriticalRegion =>
      rw [hpc] at hstep hmoved
      cases hstep
      exact hmoved MainPc.suspend rfl (by decide) rfl rfl rfl
  | suspend =>
      rw [hpc] at hstep hmoved
      cases hstep
      exact hmoved (MainPc.suspended s.mask) rfl (Nat.lt_succ_self 8) rfl rfl rfl
  | suspended set =>
      rw [hpc] at hstep
      cases hstep
  | resuming set =>
      rw [hpc] at hstep hmoved
      cases hstep
      exact hmoved MainPc.afterSuspend rfl (Nat.lt_succ_self 6) rfl rfl rfl
  | afterSuspend =>
      rw [hpc] at hstep hmoved
      cases hstep
      exact hmoved MainPc.restore rfl (by decide) rfl rfl rfl
  | restore =>
      rw [hpc] at hstep hmoved
      cases ok with
      | true =>
          cases hstep
          exact hmoved MainPc.programExit rfl (by decide) rfl rfl rfl
      | false =>
          cases hstep
          exact hmoved MainPc.failedRestore rfl (by decide) rfl rfl rfl
  | programExit =>
      rw [hpc] at hstep hmoved
      cases hstep
      exact hmoved MainPc.returned rfl (by decide) rfl rfl rfl
  | returned =>
      rw [hpc] at hstep
      cases hstep
      rw [← hpc]
      exact left_ended hrunning
  | failedSigaction =>
      rw [hpc] at hstep
      cases hstep
      rw [← hpc]
      exact left_ended hrunning
  | failedBlock =>
      rw [hpc] at hstep
      cases hstep
      rw [← hpc]
      exact left_ended hrunning
  | failedRestore =>
      rw [hpc] at hstep
      cases hstep
      rw [← hpc]
      exact left_ended hrunning

theorem left_wake (pc : MainPc) : pc.wake.left ≤ pc.left := by
  cases pc with
  | suspended set => exact Nat.le_succ 7
  | _ => exact Nat.le_refl _

theorem left_sig_int {frame : Frame} {rest : List Frame} (hframes : s.frames = frame :: rest)
    (hrunning : s.ended = false) : left (sig_int s frame rest) < left s := by
  unfold Critical.sig_int
  cases hprinted : frame.printed with
  | false =>
      have hframe : frame.left = 2 := by
        unfold Frame.left
        rw [hprinted]
        rfl
      rw [if_neg (by decide)]
      apply left_lt hrunning
      · exact hrunning
      show s.main.left + (1 + framesLeft rest) + _ < _
      rw [hframes, framesLeft, hframe]
      apply Nat.add_lt_add_right
      lia
  | true =>
      have hframe : frame.left = 1 := by
        unfold Frame.left
        rw [hprinted]
        rfl
      rw [if_pos rfl]
      apply left_lt hrunning
      · exact hrunning
      rw [hframes, framesLeft, hframe]
      have hmain : (if rest.isEmpty then s.main.wake else s.main).left ≤ s.main.left := by
        split
        · exact left_wake s.main
        · exact Nat.le_refl _
      show (if rest.isEmpty then s.main.wake else s.main).left + framesLeft rest + _ < _
      apply Nat.add_lt_add_right
      lia

theorem left_deliver {signo : Signo} (hrunning : s.ended = false)
    (hstep : deliver s signo = some t) : left t < left s := by
  unfold Critical.deliver at hstep
  split at hstep
  · next hdue =>
      split at hstep
      · next hcaught =>
          cases hstep
          rcases hcaught with ⟨hint, _⟩
          cases hint
          have htaken : (s.signals.take Signo.SIGINT).pending Signo.SIGINT = false := by
            apply Bool.eq_false_iff.mpr
            intro hpending
            rw [Signals.pending_iff, Signals.taken_take_self] at hpending
            exact Nat.lt_irrefl _ hpending
          apply left_lt hrunning
          · exact hrunning
          rw [if_pos hdue.1]
          show s.main.left + (2 + framesLeft s.frames) +
            (if (s.signals.take Signo.SIGINT).pending Signo.SIGINT then 3 else 0) < _
          rw [htaken, if_neg (by decide)]
          lia
      · cases hstep
        exact left_ended hrunning
  · cases hstep

theorem left_own {l : Label} (hown : l.own = true) (hstep : step s l = some t) :
    left t < left s := by
  unfold step at hstep
  split at hstep
  · cases hstep
  · next hended =>
      have hrunning : s.ended = false := Bool.eq_false_iff.mpr hended
      cases l with
      | arrive signo => cases hown
      | deliver signo => exact left_deliver hrunning hstep
      | run ok =>
          dsimp only at hstep
          cases hframes : s.frames with
          | nil =>
              rw [hframes] at hstep
              exact left_main hframes hrunning hstep
          | cons frame rest =>
              rw [hframes] at hstep
              cases hstep
              exact left_sig_int hframes hrunning

theorem initial_left (h : Initial m s) : left s ≤ 20 := by
  rw [left_of_running h.running, h.main, h.frames]
  show 17 + 0 + _ ≤ 20
  split <;> decide

/-- Until the program has ended it goes on without another signal, in `sigsuspend` with
the one that it has raised. -/
theorem Inv.goes (h : Inv m s) (hrunning : s.ended = false) :
    exists l t, l.own = true ∧ step s l = some t := by
  have hend : ¬ s.ended = true := Bool.eq_false_iff.mp hrunning
  cases hframes : s.frames with
  | cons frame rest =>
      refine ⟨Label.run true, Critical.sig_int s frame rest, rfl, ?_⟩
      unfold step
      rw [if_neg hend]
      dsimp only
      rw [hframes]
  | nil =>
      have hmain : (exists t, Critical.main s true = some t) ->
          exists l t, l.own = true ∧ step s l = some t := by
        rintro ⟨t, ht⟩
        refine ⟨Label.run true, t, rfl, ?_⟩
        unfold step
        rw [if_neg hend]
        dsimp only
        rw [hframes]
        exact ht
      cases hpc : s.main with
      | suspended set =>
          have hpending := h.pending (by rw [hpc]; rfl) hframes
          have hmask : s.mask Signo.SIGINT = false := by
            rw [h.alone hframes, hpc]
            rfl
          have hinstalled : s.installed = true := by
            rw [h.installed, hpc]
            rfl
          have hdeliver : exists t, Critical.deliver s Signo.SIGINT = some t := by
            unfold Critical.deliver
            rw [if_pos ⟨hpending, hmask⟩, if_pos ⟨rfl, hinstalled⟩]
            exact ⟨_, rfl⟩
          rcases hdeliver with ⟨t, ht⟩
          refine ⟨Label.deliver Signo.SIGINT, t, rfl, ?_⟩
          unfold step
          rw [if_neg hend]
          exact ht
      | _ =>
          apply hmain
          unfold Critical.main
          rw [hpc]
          exact ⟨_, rfl⟩

theorem first_prefix_second (m : SigSet Signo) (k k' : Nat) : first m k <+: second m k k' := by
  unfold second
  rw [List.append_assoc]
  exact List.prefix_append _ _

theorem second_prefix_third (m : SigSet Signo) (k k' k'' : Nat) :
    second m k k' <+: third m k k' k'' := by
  unfold third
  rw [List.append_assoc]
  exact List.prefix_append _ _

theorem third_prefix_session (m : SigSet Signo) (k1 k2 k3 k4 : Nat) :
    third m k1 k2 k3 <+: session m k1 k2 k3 k4 := by
  unfold session
  rw [List.append_assoc]
  exact List.prefix_append _ _

theorem handled_prefix_succ (mask : SigSet Signo) (k : Nat) :
    handled mask k <+: handled mask (k + 1) := by
  rw [handled_succ]
  exact List.prefix_append _ _

theorem second_prefix_succ (m : SigSet Signo) (k k' : Nat) :
    second m k k' <+: second m k (k' + 1) :=
  (List.prefix_append_right_inj _).mpr (handled_prefix_succ waitmask k')

theorem second_prefix_session (m : SigSet Signo) (k1 k2 k3 k4 : Nat) :
    second m k1 k2 <+: session m k1 k2 k3 k4 :=
  (second_prefix_third m k1 k2 k3).trans (third_prefix_session m k1 k2 k3 k4)

theorem LinesAt.prefix_session {m : SigSet Signo} {pc : MainPc} {xs : List Line}
    (h : LinesAt m pc xs) : exists k1 k2 k3 k4, 0 < k2 ∧ xs <+: session m k1 k2 k3 k4 := by
  have hfirst : forall k, xs = first m k ->
      exists k1 k2 k3 k4, 0 < k2 ∧ xs <+: session m k1 k2 k3 k4 := by
    intro k heq
    refine ⟨k, 1, 0, 0, Nat.one_pos, ?_⟩
    rw [heq]
    exact (first_prefix_second m k 1).trans (second_prefix_session m k 1 0 0)
  have hsecond : forall k k', xs = second m k k' ->
      exists k1 k2 k3 k4, 0 < k2 ∧ xs <+: session m k1 k2 k3 k4 := by
    intro k k' heq
    refine ⟨k, k' + 1, 0, 0, Nat.succ_pos k', ?_⟩
    rw [heq]
    exact (second_prefix_succ m k k').trans (second_prefix_session m k (k' + 1) 0 0)
  have hthird : forall k k' k'', xs = third m k (k' + 1) k'' ->
      exists k1 k2 k3 k4, 0 < k2 ∧ xs <+: session m k1 k2 k3 k4 := by
    intro k k' k'' heq
    refine ⟨k, k' + 1, k'', 0, Nat.succ_pos k', ?_⟩
    rw [heq]
    exact third_prefix_session m k (k' + 1) k'' 0
  cases pc with
  | programStart =>
      have hnil : xs = [] := h
      rw [hnil]
      exact ⟨0, 1, 0, 0, Nat.one_pos, List.nil_prefix⟩
  | sigaction => exact hfirst 0 h
  | failedSigaction => exact hfirst 0 h
  | block =>
      rcases h with ⟨k, heq⟩
      exact hfirst k heq
  | failedBlock =>
      rcases h with ⟨k, heq⟩
      exact hfirst k heq
  | raise =>
      rcases h with ⟨k, heq⟩
      exact hfirst k heq
  | inCriticalRegion =>
      rcases h with ⟨k, heq⟩
      exact hfirst k heq
  | suspend =>
      rcases h with ⟨k, heq⟩
      exact hsecond k 0 heq
  | suspended oldmask =>
      rcases h with ⟨k1, k2, heq⟩
      exact hsecond k1 k2 heq
  | resuming oldmask =>
      rcases h with ⟨k1, k2, heq⟩
      exact hsecond k1 (k2 + 1) heq
  | afterSuspend =>
      rcases h with ⟨k1, k2, heq⟩
      exact hsecond k1 (k2 + 1) heq
  | restore =>
      rcases h with ⟨k1, k2, heq⟩
      exact hthird k1 k2 0 heq
  | failedRestore =>
      rcases h with ⟨k1, k2, heq⟩
      exact hthird k1 k2 0 heq
  | programExit =>
      rcases h with ⟨k1, k2, k3, heq⟩
      exact hthird k1 k2 k3 heq
  | returned =>
      rcases h with ⟨k1, k2, k3, k4, heq⟩
      subst heq
      exact ⟨k1, k2 + 1, k3, k4, Nat.succ_pos k2, List.prefix_rfl⟩

theorem left_other {l : Label} (hother : l.own = false) (hstep : step s l = some t) :
    left t ≤ left s + 3 := by
  unfold step at hstep
  split at hstep
  · cases hstep
  · next hended =>
      have hrunning : s.ended = false := Bool.eq_false_iff.mpr hended
      cases l with
      | arrive signo =>
          cases hstep
          rw [left_of_running hrunning, left_of_running]
          · show s.main.left + framesLeft s.frames + _ ≤ _
            split <;> lia
          · exact hrunning
      | deliver signo => cases hother
      | run ok => cases hother

end

/-- Another process sends `SIGINT` before it is blocked. -/
def early : List Label :=
  [Label.run true, Label.run true, Label.arrive Signo.SIGINT, Label.deliver Signo.SIGINT,
    Label.run true, Label.run true, Label.run true, Label.run true, Label.run true,
    Label.run true]

def fresh : State where
  main := MainPc.programStart
  frames := []
  mask _ := false
  oldmask _ := false
  installed := false
  signals := { arrived := fun _ => 0, taken := fun _ => 0, taken_le := fun _ => Nat.le_refl _ }
  lines := []
  ended := false

theorem fresh_initial : Initial (fun _ => false) fresh :=
  ⟨rfl, rfl, rfl, rfl, rfl, rfl⟩

theorem fresh_reachable {ls : List Label} {t : State}
    (hrun : (machine (fun _ => false)).run fresh ls = some t) :
    (machine (fun _ => false)).Reachable t :=
  Machine.reachable_of_run (Machine.ReachableUnder.init fresh_initial) hrun

/-- At any moment of any run the lines are the beginning of a session, and all of it when
`main` has returned; the handler runs outside the critical region only; and the process
is not killed while it waits in `sigsuspend` or before it has its mask back. -/
theorem lines_in_order {m : SigSet Signo} {s : State} (h : (machine m).Reachable s) :
    (exists k1 k2 k3 k4, 0 < k2 ∧ s.lines <+: session m k1 k2 k3 k4) ∧
      (s.main = MainPc.returned ->
        exists k1 k2 k3 k4, 0 < k2 ∧ s.lines = session m k1 k2 k3 k4) ∧
      (s.frames ≠ [] -> s.main.exposed = true) ∧
      (s.ended = true -> s.main.saved = none) := by
  have hinv := reachable_inv h
  refine ⟨hinv.lines.prefix_session, ?_, ?_, hinv.ended⟩
  · intro hreturned
    have hlines := hinv.lines
    rw [hreturned] at hlines
    rcases hlines with ⟨k1, k2, k3, k4, heq⟩
    exact ⟨k1, k2 + 1, k3, k4, Nat.succ_pos k2, heq⟩
  · intro hframes
    rcases List.exists_cons_of_ne_nil hframes with ⟨f, rest, hcons⟩
    exact (hinv.handler f rest hcons).2.2.2

theorem lines_in_order_early :
    exists s, (machine (fun _ => false)).run fresh early = some s ∧
      exists k1 k2 k3 k4, 0 < k2 ∧ s.lines <+: session (fun _ => false) k1 k2 k3 k4 :=
  ⟨_, rfl, (lines_in_order (fresh_reachable
    (show (machine (fun _ => false)).run fresh early = some _ from rfl))).1⟩

/-- In any run the program makes a bounded number of steps for every signal that arrives,
and where it cannot go on it has ended: `sigsuspend` does not wait for ever. -/
theorem suspend_returns {m : SigSet Signo} {s t : State} {ls : List Label}
    (hstart : Initial m s) (hrun : (machine m).run s ls = some t) :
    (ls.filter Label.own).length ≤ 20 + 3 * (ls.filter (fun l => !l.own)).length ∧
      ((forall l, l.own = true -> step t l = none) -> t.ended = true) := by
  have hinv := reachable_inv (Machine.reachable_of_run (Machine.ReachableUnder.init hstart) hrun)
  constructor
  · have hle := Machine.own_length_le_add (M := machine m) (I := Inv m) (c := 3)
      (fun _ _ _ hs hst => hs.after hst) (fun _ _ _ _ hown hst => left_own hown hst)
      (fun _ _ _ _ hother hst => left_other hother hst) (initial_inv hstart) hrun
    have hleft := initial_left hstart
    lia
  · intro hquiet
    cases hended : t.ended with
    | true => rfl
    | false =>
        rcases hinv.goes hended with ⟨l, u, hown, hstep⟩
        rw [hquiet l hown] at hstep
        cases hstep

theorem suspend_returns_early :
    exists s, (machine (fun _ => false)).run fresh early = some s ∧
      (early.filter Label.own).length ≤ 20 + 3 * (early.filter (fun l => !l.own)).length :=
  ⟨_, rfl, (suspend_returns fresh_initial
    (show (machine (fun _ => false)).run fresh early = some _ from rfl)).1⟩

end Critical
end Apue
