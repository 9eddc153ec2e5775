import Apue.Foundation.Signals
import Apue.Foundation.Transition

/-!
# Waiting for a handler to set a flag

`main` catches `SIGINT` and `SIGQUIT` with one handler, blocks `SIGQUIT`, and
waits with `sigsuspend` until the handler has set `quitflag`.  A handler runs with
its own signal blocked, on top of what it interrupted, and when it returns the
mask is as it was before.  `sigsuspend` changes the mask and goes to sleep in one
step, and puts the mask back after a handler has returned; before it has done so
more signals may be delivered.  What is printed is left out.
-/

namespace Apue
namespace Waitsig

open Foundation

inductive Signo where
  | SIGINT
  | SIGQUIT
  deriving Repr, DecidableEq

/-- The next thing that `main` does.  In `suspended` it is asleep in `sigsuspend`,
which in `resuming` is about to put the mask back.  It returns early in
`failed`. -/
inductive MainPc where
  | sigaction (signo : Signo)
  | block
  | failed (status : Nat)
  | test
  | suspend
  | suspended (oldmask : SigSet Signo)
  | resuming (oldmask : SigSet Signo)
  | clear
  | restore
  | returned (status : Nat)

inductive HandlerPc where
  | entered
  | returning
  deriving Repr, DecidableEq

structure Frame where
  signo : Signo
  pc : HandlerPc
  mask : SigSet Signo

/-- `main`, the handlers on top of it (the innermost first), the signal mask and
the one that `sigprocmask` saved, the signals whose handler is installed, the
flag, and whether the process is over. -/
structure State where
  main : MainPc
  frames : List Frame
  mask : SigSet Signo
  oldmask : SigSet Signo
  installed : SigSet Signo
  signals : Signals Signo
  quitflag : Nat
  ended : Bool

/-- A signal arrives or is delivered; a step of what runs, where `ok` is the
outcome of a call that may fail. -/
inductive Label where
  | arrive (signo : Signo)
  | deliver (signo : Signo)
  | run (ok : Bool)
  deriving Repr, DecidableEq

def add (set : SigSet Signo) (signo : Signo) : SigSet Signo :=
  Function.update set signo true

def zeromask : SigSet Signo :=
  fun _ => false

def main (s : State) (ok : Bool) : Option State :=
  match s.main with
  | MainPc.sigaction signo =>
      if ok then
        some
          { s with
            installed := add s.installed signo
            main :=
              match signo with
              | Signo.SIGQUIT => MainPc.sigaction Signo.SIGINT
              | Signo.SIGINT => MainPc.block }
      else
        some { s with main := MainPc.failed 1 }
  | MainPc.block =>
      if ok then
        some
          { s with
            mask := add s.mask Signo.SIGQUIT
            oldmask := s.mask
            main := MainPc.test }
      else
        some { s with main := MainPc.failed 1 }
  | MainPc.failed _ => some { s with ended := true }
  | MainPc.test =>
      some
        { s with
          main := if s.quitflag = 0 then MainPc.suspend else MainPc.clear }
  | MainPc.suspend =>
      some { s with mask := zeromask, main := MainPc.suspended s.mask }
  | MainPc.suspended _ => none
  | MainPc.resuming oldmask =>
      some { s with mask := oldmask, main := MainPc.test }
  | MainPc.clear => some { s with quitflag := 0, main := MainPc.restore }
  | MainPc.restore =>
      if ok then
        some { s with mask := s.oldmask, main := MainPc.returned 0 }
      else
        some { s with main := MainPc.returned 1 }
  | MainPc.returned _ => some { s with ended := true }

def MainPc.wake : MainPc -> MainPc
  | MainPc.suspended oldmask => MainPc.resuming oldmask
  | pc => pc

def sig_handler (s : State) (frame : Frame) (rest : List Frame) : State :=
  match frame.pc with
  | HandlerPc.entered =>
      let frames := { frame with pc := HandlerPc.returning } :: rest
      match frame.signo with
      | Signo.SIGINT => { s with frames }
      | Signo.SIGQUIT => { s with frames, quitflag := 1 }
  | HandlerPc.returning =>
      { s with
        frames := rest
        mask := frame.mask
        main := if rest.isEmpty then s.main.wake else s.main }

def deliver (s : State) (signo : Signo) : Option State :=
  if s.signals.pending signo ∧ s.mask signo = false then
    if s.installed signo then
      some
        { s with
          signals := s.signals.take signo
          frames :=
            { signo, pc := HandlerPc.entered, mask := s.mask } :: s.frames
          mask := add s.mask signo }
    else
      some { s with ended := true }
  else
    none

def step (s : State) (l : Label) : Option State :=
  if s.ended then
    none
  else
    match l with
    | Label.arrive signo => some { s with signals := s.signals.arrive signo }
    | Label.deliver signo => deliver s signo
    | Label.run ok =>
        match s.frames with
        | [] => main s ok
        | frame :: rest => some (sig_handler s frame rest)

structure Initial (s : State) : Prop where
  main : s.main = MainPc.sigaction Signo.SIGQUIT
  frames : s.frames = []
  untaken : forall g, s.signals.taken g = 0
  quitflag : s.quitflag = 0
  running : s.ended = false

def machine : Machine State Label where
  init := Initial
  step := step

def MainPc.left : MainPc -> Bool
  | MainPc.clear => true
  | MainPc.restore => true
  | MainPc.returned _ => true
  | _ => false

theorem add_self (set : SigSet Signo) (signo : Signo) :
    add set signo signo = true := by
  unfold add
  rw [Function.update_self]

theorem add_of_mem {set : SigSet Signo} {g : Signo} (signo : Signo)
    (h : set g = true) : add set signo g = true := by
  unfold add
  rcases eq_or_ne g signo with heq | hne
  · rw [heq, Function.update_self]
  · rw [Function.update_of_ne hne]
    exact h

/-!
# The invariant
-/

def MainPc.guarded : MainPc -> Bool
  | MainPc.test => true
  | MainPc.suspend => true
  | MainPc.clear => true
  | MainPc.restore => true
  | MainPc.returned status => status != 0
  | _ => false

/-- The mask that `sigsuspend` is to put back. -/
def MainPc.saved : MainPc -> Option (SigSet Signo)
  | MainPc.suspended oldmask => some oldmask
  | MainPc.resuming oldmask => some oldmask
  | _ => none

/-- `main` has reset the flag. -/
def MainPc.cleared : MainPc -> Bool
  | MainPc.restore => true
  | MainPc.returned _ => true
  | _ => false

def Frame.Setting (f : Frame) : Prop :=
  f.signo = Signo.SIGQUIT ∧ f.pc = HandlerPc.entered

structure Inv (s : State) : Prop where
  blocked : s.main.guarded = true -> s.mask Signo.SIGQUIT = true
  nested : s.main.guarded = true ->
    forall f, f ∈ s.frames -> f.mask Signo.SIGQUIT = true ∧ f.signo = Signo.SIGINT
  saved : forall m, s.main.saved = some m -> m Signo.SIGQUIT = true
  unset : s.main = MainPc.suspend -> s.quitflag = 0
  asleep : forall m, s.main = MainPc.suspended m -> s.frames = [] ->
    s.quitflag = 0 ∧ s.mask = zeromask
  flag : s.quitflag ≠ 0 -> 0 < s.signals.taken Signo.SIGQUIT
  handler : forall f, f ∈ s.frames -> f.signo = Signo.SIGQUIT ->
    0 < s.signals.taken Signo.SIGQUIT
  left : s.main.left = true -> 0 < s.signals.taken Signo.SIGQUIT
  delivered : 0 < s.signals.taken Signo.SIGQUIT ->
    (exists f, f ∈ s.frames ∧ f.Setting) ∨ s.quitflag ≠ 0 ∨ s.main.cleared = true

theorem initial_inv {s : State} (h : Initial s) : Inv s := by
  constructor
  · intro hguarded
    rw [h.main] at hguarded
    cases hguarded
  · intro hguarded
    rw [h.main] at hguarded
    cases hguarded
  · intro m hm
    rw [h.main] at hm
    cases hm
  · intro hmain
    exact h.quitflag
  · intro m hmain
    rw [h.main] at hmain
    cases hmain
  · exact fun hflag => absurd h.quitflag hflag
  · intro f hf
    rw [h.frames] at hf
    cases hf
  · intro hleft
    rw [h.main] at hleft
    cases hleft
  · intro htaken
    rw [h.untaken] at htaken
    cases htaken

section Steps

variable {s t : State}

/-- The invariant does not depend on what is installed, nor on whether the process
is over, nor on signals that arrive. -/
theorem Inv.congr (hI : Inv s) (hmain : t.main = s.main)
    (hframes : t.frames = s.frames) (hmask : t.mask = s.mask)
    (hflag : t.quitflag = s.quitflag)
    (htaken : forall g, t.signals.taken g = s.signals.taken g) : Inv t := by
  constructor
  · rw [hmain, hmask]
    exact hI.blocked
  · rw [hmain, hframes]
    exact hI.nested
  · rw [hmain]
    exact hI.saved
  · rw [hmain, hflag]
    exact hI.unset
  · rw [hmain, hframes, hflag, hmask]
    exact hI.asleep
  · rw [hflag, htaken]
    exact hI.flag
  · rw [hframes, htaken]
    exact hI.handler
  · rw [hmain, htaken]
    exact hI.left
  · rw [htaken, hframes, hflag, hmain]
    exact hI.delivered

/-!
# Steps of main

Where no handler runs, a `SIGQUIT` that was delivered has set the flag.
-/

theorem flag_of_taken (hI : Inv s) (hframes : s.frames = [])
    (h : 0 < s.signals.taken Signo.SIGQUIT) :
    s.quitflag ≠ 0 ∨ s.main.cleared = true := by
  rcases hI.delivered h with ⟨f, hf, _⟩ | hset
  · rw [hframes] at hf
    cases hf
  · exact hset

theorem Inv.main_step (hI : Inv s) (hframes : s.frames = [])
    (htframes : t.frames = []) (hsignals : t.signals = s.signals)
    (hflag : t.quitflag = s.quitflag)
    (hblocked : t.main.guarded = true -> t.mask Signo.SIGQUIT = true)
    (hsaved : forall m, t.main.saved = some m -> m Signo.SIGQUIT = true)
    (hunset : t.main = MainPc.suspend -> s.quitflag = 0)
    (hasleep : forall m, t.main = MainPc.suspended m ->
      s.quitflag = 0 ∧ t.mask = zeromask)
    (hleft : t.main.left = true -> 0 < s.signals.taken Signo.SIGQUIT)
    (hcleared : s.main.cleared = true -> t.main.cleared = true) : Inv t := by
  constructor
  · exact hblocked
  · intro _ f hf
    rw [htframes] at hf
    cases hf
  · exact hsaved
  · rw [hflag]
    exact hunset
  · rw [hflag]
    exact fun m hm _ => hasleep m hm
  · rw [hflag, hsignals]
    exact hI.flag
  · intro f hf
    rw [htframes] at hf
    cases hf
  · rw [hsignals]
    exact hleft
  · rw [hsignals, hflag]
    intro htaken
    rcases flag_of_taken hI hframes htaken with hset | hclear
    · exact Or.inr (Or.inl hset)
    · exact Or.inr (Or.inr (hcleared hclear))

def MainPc.quiet : MainPc -> Bool
  | MainPc.sigaction _ => true
  | MainPc.block => true
  | MainPc.failed _ => true
  | _ => false

theorem MainPc.of_quiet {pc : MainPc} (h : pc.quiet = true) :
    pc.guarded = false ∧ pc.saved = none ∧ pc.left = false := by
  cases pc with
  | sigaction signo => exact ⟨rfl, rfl, rfl⟩
  | block => exact ⟨rfl, rfl, rfl⟩
  | failed status => exact ⟨rfl, rfl, rfl⟩
  | _ => cases h

theorem Inv.main_quiet (hI : Inv s) (hframes : s.frames = [])
    (htframes : t.frames = []) (hsignals : t.signals = s.signals)
    (hflag : t.quitflag = s.quitflag) (hcleared : s.main.cleared = false)
    (hquiet : t.main.quiet = true) : Inv t := by
  rcases MainPc.of_quiet hquiet with ⟨hguarded, hsaved, hleft⟩
  refine hI.main_step hframes htframes hsignals hflag ?_ ?_ ?_ ?_ ?_ ?_
  · rw [hguarded]
    intro h
    cases h
  · rw [hsaved]
    intro m h
    cases h
  · intro hmain
    rw [hmain] at hguarded
    cases hguarded
  · intro m hmain
    rw [hmain] at hsaved
    cases hsaved
  · rw [hleft]
    intro h
    cases h
  · rw [hcleared]
    intro h
    cases h

theorem Inv.to_test (hI : Inv s) (hframes : s.frames = [])
    (htframes : t.frames = []) (hsignals : t.signals = s.signals)
    (hflag : t.quitflag = s.quitflag) (hcleared : s.main.cleared = false)
    (hpc : t.main = MainPc.test) (hblocked : t.mask Signo.SIGQUIT = true) :
    Inv t := by
  refine hI.main_step hframes htframes hsignals hflag (fun _ => hblocked) ?_ ?_ ?_ ?_ ?_
  · rw [hpc]
    intro m h
    cases h
  · rw [hpc]
    intro h
    cases h
  · rw [hpc]
    intro m h
    cases h
  · rw [hpc]
    intro h
    cases h
  · rw [hcleared]
    intro h
    cases h

/-- The test.  A `SIGQUIT` that was delivered has set the flag, and no other can
be delivered between the test and `sigsuspend`. -/
theorem inv_main_test (hI : Inv s) (hframes : s.frames = [])
    (hpc : s.main = MainPc.test) :
    Inv
      { s with
        main := if s.quitflag = 0 then MainPc.suspend else MainPc.clear } := by
  have hblocked : s.mask Signo.SIGQUIT = true := by
    apply hI.blocked
    rw [hpc]
    rfl
  split
  · next hzero =>
      refine hI.main_step hframes hframes rfl rfl (fun _ => hblocked) ?_
        (fun _ => hzero) ?_ ?_ ?_
      · intro m h
        cases h
      · intro m h
        cases h
      · intro h
        cases h
      · rw [hpc]
        intro h
        cases h
  · next hset =>
      refine hI.main_step hframes hframes rfl rfl (fun _ => hblocked) ?_ ?_ ?_
        (fun _ => hI.flag hset) ?_
      · intro m h
        cases h
      · intro h
        cases h
      · intro m h
        cases h
      · rw [hpc]
        intro h
        cases h

theorem inv_main_suspend (hI : Inv s) (hframes : s.frames = [])
    (hpc : s.main = MainPc.suspend) :
    Inv { s with mask := zeromask, main := MainPc.suspended s.mask } := by
  have hblocked : s.mask Signo.SIGQUIT = true := by
    apply hI.blocked
    rw [hpc]
    rfl
  refine hI.main_step hframes hframes rfl rfl ?_ ?_ ?_ ?_ ?_ ?_
  · intro h
    cases h
  · intro m h
    cases h
    exact hblocked
  · intro h
    cases h
  · intro _ _
    exact ⟨hI.unset hpc, rfl⟩
  · intro h
    cases h
  · rw [hpc]
    intro h
    cases h

theorem inv_main_clear (hI : Inv s) (hframes : s.frames = [])
    (hpc : s.main = MainPc.clear) :
    Inv { s with quitflag := 0, main := MainPc.restore } := by
  constructor
  · intro _
    apply hI.blocked
    rw [hpc]
    rfl
  · intro _ f hf
    change f ∈ s.frames at hf
    rw [hframes] at hf
    cases hf
  · intro m h
    cases h
  · intro h
    cases h
  · intro m h
    cases h
  · intro h
    exact absurd rfl h
  · exact hI.handler
  · intro _
    apply hI.left
    rw [hpc]
    rfl
  · intro _
    exact Or.inr (Or.inr rfl)

theorem inv_main_restore (hI : Inv s) (hframes : s.frames = [])
    (hpc : s.main = MainPc.restore) {status : Nat} {mask : SigSet Signo}
    (hblocked : status ≠ 0 -> mask = s.mask) :
    Inv { s with mask, main := MainPc.returned status } := by
  refine hI.main_step hframes hframes rfl rfl ?_ ?_ ?_ ?_ ?_ (fun _ => rfl)
  · intro hguarded
    change mask Signo.SIGQUIT = true
    rw [hblocked (bne_iff_ne.mp hguarded)]
    apply hI.blocked
    rw [hpc]
    rfl
  · intro m h
    cases h
  · intro h
    cases h
  · intro m h
    cases h
  · intro _
    apply hI.left
    rw [hpc]
    rfl

theorem inv_main (hI : Inv s) (hframes : s.frames = []) {ok : Bool}
    (h : main s ok = some t) : Inv t := by
  unfold main at h
  cases hpc : s.main with
  | sigaction signo =>
      rw [hpc] at h
      have hcleared : s.main.cleared = false := by
        rw [hpc]
        rfl
      cases ok with
      | true =>
          cases h
          refine hI.main_quiet hframes hframes rfl rfl hcleared ?_
          cases signo with
          | SIGINT => rfl
          | SIGQUIT => rfl
      | false =>
          cases h
          exact hI.main_quiet hframes hframes rfl rfl hcleared rfl
  | block =>
      rw [hpc] at h
      cases ok with
      | true =>
          cases h
          -- here `SIGQUIT` is blocked before the flag is tested for the first time
          exact hI.to_test hframes hframes rfl rfl (by rw [hpc]; rfl) rfl
            (add_self s.mask Signo.SIGQUIT)
      | false =>
          cases h
          exact hI.main_quiet hframes hframes rfl rfl (by rw [hpc]; rfl) rfl
  | failed status =>
      rw [hpc] at h
      cases h
      exact hI.congr hpc.symm rfl rfl rfl (fun _ => rfl)
  | test =>
      rw [hpc] at h
      cases h
      exact inv_main_test hI hframes hpc
  | suspend =>
      rw [hpc] at h
      cases h
      exact inv_main_suspend hI hframes hpc
  | suspended m =>
      rw [hpc] at h
      cases h
  | resuming m =>
      rw [hpc] at h
      cases h
      have hsaved := hI.saved m (by rw [hpc]; rfl)
      exact hI.to_test hframes hframes rfl rfl (by rw [hpc]; rfl) rfl hsaved
  | clear =>
      rw [hpc] at h
      cases h
      exact inv_main_clear hI hframes hpc
  | restore =>
      rw [hpc] at h
      cases ok with
      | true =>
          cases h
          exact inv_main_restore hI hframes hpc (fun h => absurd rfl h)
      | false =>
          cases h
          exact inv_main_restore hI hframes hpc (fun _ => rfl)
  | returned status =>
      rw [hpc] at h
      cases h
      exact hI.congr hpc.symm rfl rfl rfl (fun _ => rfl)

/-!
# Steps of the handlers
-/

@[simp] theorem MainPc.wake_guarded (pc : MainPc) : pc.wake.guarded = pc.guarded := by
  cases pc with
  | _ => rfl

@[simp] theorem MainPc.wake_saved (pc : MainPc) : pc.wake.saved = pc.saved := by
  cases pc with
  | _ => rfl

@[simp] theorem MainPc.wake_left (pc : MainPc) : pc.wake.left = pc.left := by
  cases pc with
  | _ => rfl

@[simp] theorem MainPc.wake_cleared (pc : MainPc) : pc.wake.cleared = pc.cleared := by
  cases pc with
  | _ => rfl

theorem MainPc.wake_eq_suspend {pc : MainPc} (h : pc.wake = MainPc.suspend) :
    pc = MainPc.suspend := by
  cases pc with
  | suspended m => cases h
  | _ => exact h

theorem MainPc.wake_ne_suspended (pc : MainPc) (m : SigSet Signo) :
    pc.wake ≠ MainPc.suspended m := by
  intro h
  cases pc with
  | _ => cases h

variable {frame : Frame} {rest : List Frame}

theorem mem_frame (hframes : s.frames = frame :: rest) : frame ∈ s.frames := by
  rw [hframes]
  exact List.mem_cons_self

theorem mem_rest (hframes : s.frames = frame :: rest) {f : Frame} (hf : f ∈ rest) :
    f ∈ s.frames := by
  rw [hframes]
  exact List.mem_cons_of_mem frame hf

theorem delivered_rest (hI : Inv s) (hframes : s.frames = frame :: rest)
    (hnot : ¬ frame.Setting) (htaken : 0 < s.signals.taken Signo.SIGQUIT) :
    (exists f, f ∈ rest ∧ f.Setting) ∨ s.quitflag ≠ 0 ∨ s.main.cleared = true := by
  rcases hI.delivered htaken with ⟨f, hf, hset⟩ | hset
  · rw [hframes] at hf
    rcases List.mem_cons.mp hf with heq | hf
    · rw [heq] at hset
      exact absurd hset hnot
    · exact Or.inl ⟨f, hf, hset⟩
  · exact Or.inr hset

theorem inv_entered_SIGINT (hI : Inv s) (hframes : s.frames = frame :: rest)
    (hsigno : frame.signo = Signo.SIGINT) :
    Inv { s with frames := { frame with pc := HandlerPc.returning } :: rest } := by
  have hmem := mem_frame hframes
  have hnot : ¬ frame.Setting := by
    intro hset
    rw [Frame.Setting, hsigno] at hset
    cases hset.left
  constructor
  · exact hI.blocked
  · intro hguarded f hf
    rcases List.mem_cons.mp hf with heq | hf
    · rw [heq]
      exact hI.nested hguarded frame hmem
    · exact hI.nested hguarded f (mem_rest hframes hf)
  · exact hI.saved
  · exact hI.unset
  · intro m _ h
    cases h
  · exact hI.flag
  · intro f hf
    rcases List.mem_cons.mp hf with heq | hf
    · rw [heq]
      exact hI.handler frame hmem
    · exact hI.handler f (mem_rest hframes hf)
  · exact hI.left
  · intro htaken
    rcases delivered_rest hI hframes hnot htaken with ⟨f, hf, hset⟩ | hset
    · exact Or.inl ⟨f, List.mem_cons_of_mem _ hf, hset⟩
    · exact Or.inr hset

/-- A handler of `SIGQUIT` sets the flag; it never runs on top of a `main` that has
`SIGQUIT` blocked. -/
theorem inv_entered_SIGQUIT (hI : Inv s) (hframes : s.frames = frame :: rest)
    (hsigno : frame.signo = Signo.SIGQUIT) :
    Inv
      { s with
        frames := { frame with pc := HandlerPc.returning } :: rest
        quitflag := 1 } := by
  have hmem := mem_frame hframes
  have htaken := hI.handler frame hmem hsigno
  have hnot : s.main.guarded ≠ true := by
    intro hguarded
    have hint := (hI.nested hguarded frame hmem).right
    rw [hsigno] at hint
    cases hint
  constructor
  · exact fun hguarded => absurd hguarded hnot
  · exact fun hguarded => absurd hguarded hnot
  · exact hI.saved
  · intro hsuspend
    change s.main = MainPc.suspend at hsuspend
    rw [hsuspend] at hnot
    exact absurd rfl hnot
  · intro m _ h
    cases h
  · exact fun _ => htaken
  · exact fun _ _ _ => htaken
  · exact hI.left
  · exact fun _ => Or.inr (Or.inl Nat.one_ne_zero)

/-- What is left to show about a handler that returns, `pc` being where `main` is
then. -/
theorem Inv.return_step (hI : Inv s) (hframes : s.frames = frame :: rest)
    (hpc : frame.pc = HandlerPc.returning) {pc : MainPc}
    (hguarded : pc.guarded = s.main.guarded) (hsaved : pc.saved = s.main.saved)
    (hleft : pc.left = s.main.left) (hcleared : pc.cleared = s.main.cleared)
    (hsuspend : pc = MainPc.suspend -> s.main = MainPc.suspend)
    (hasleep : forall m, pc = MainPc.suspended m -> rest ≠ []) :
    Inv { s with frames := rest, mask := frame.mask, main := pc } := by
  have hnot : ¬ frame.Setting := by
    intro hset
    rw [Frame.Setting, hpc] at hset
    cases hset.right
  constructor
  · intro h
    rw [hguarded] at h
    exact (hI.nested h frame (mem_frame hframes)).left
  · intro h f hf
    rw [hguarded] at h
    exact hI.nested h f (mem_rest hframes hf)
  · rw [hsaved]
    exact hI.saved
  · exact fun h => hI.unset (hsuspend h)
  · exact fun m hm hnil => absurd hnil (hasleep m hm)
  · exact hI.flag
  · exact fun f hf => hI.handler f (mem_rest hframes hf)
  · rw [hleft]
    exact hI.left
  · rw [hcleared]
    exact delivered_rest hI hframes hnot

theorem inv_returning (hI : Inv s) (hframes : s.frames = frame :: rest)
    (hpc : frame.pc = HandlerPc.returning) :
    Inv
      { s with
        frames := rest
        mask := frame.mask
        main := if rest.isEmpty then s.main.wake else s.main } := by
  cases rest with
  | nil =>
      exact hI.return_step hframes hpc s.main.wake_guarded s.main.wake_saved
        s.main.wake_left s.main.wake_cleared MainPc.wake_eq_suspend
        (fun m h => absurd h (s.main.wake_ne_suspended m))
  | cons f fs =>
      exact hI.return_step hframes hpc rfl rfl rfl rfl id
        (fun _ _ => List.cons_ne_nil f fs)

theorem inv_handler (hI : Inv s) (hframes : s.frames = frame :: rest) :
    Inv (sig_handler s frame rest) := by
  unfold sig_handler
  cases hpc : frame.pc with
  | entered =>
      cases hsigno : frame.signo with
      | SIGINT =>
          have hinv := inv_entered_SIGINT hI hframes hsigno
          rw [hsigno] at hinv
          exact hinv
      | SIGQUIT =>
          have hinv := inv_entered_SIGQUIT hI hframes hsigno
          rw [hsigno] at hinv
          exact hinv
  | returning => exact inv_returning hI hframes hpc

/-!
# Delivery
-/

theorem inv_caught (hI : Inv s) {signo : Signo}
    (hpending : s.signals.pending signo = true) (hmask : s.mask signo = false) :
    Inv
      { s with
        signals := s.signals.take signo
        frames := { signo, pc := HandlerPc.entered, mask := s.mask } :: s.frames
        mask := add s.mask signo } := by
  have htaken : 0 < s.signals.taken Signo.SIGQUIT ->
      0 < (s.signals.take signo).taken Signo.SIGQUIT :=
    fun h => Nat.lt_of_lt_of_le h (s.signals.taken_le_take signo Signo.SIGQUIT)
  constructor
  · exact fun hguarded => add_of_mem signo (hI.blocked hguarded)
  · intro hguarded f hf
    rcases List.mem_cons.mp hf with heq | hf
    · rw [heq]
      refine ⟨hI.blocked hguarded, ?_⟩
      cases signo with
      | SIGINT => rfl
      | SIGQUIT =>
          rw [hI.blocked hguarded] at hmask
          cases hmask
    · exact hI.nested hguarded f hf
  · exact hI.saved
  · exact hI.unset
  · intro m _ h
    cases h
  · exact fun hflag => htaken (hI.flag hflag)
  · intro f hf hsigno
    rcases List.mem_cons.mp hf with heq | hf
    · rw [heq] at hsigno
      change signo = Signo.SIGQUIT at hsigno
      rw [hsigno] at hpending ⊢
      exact Signals.taken_take_pos hpending
    · exact htaken (hI.handler f hf hsigno)
  · exact fun hleft => htaken (hI.left hleft)
  · intro hpos
    cases signo with
    | SIGINT =>
        have hne : Signo.SIGQUIT ≠ Signo.SIGINT := by
          intro h
          cases h
        change 0 < (s.signals.take Signo.SIGINT).taken Signo.SIGQUIT at hpos
        rw [s.signals.taken_take_of_ne hne] at hpos
        rcases hI.delivered hpos with ⟨f, hf, hset⟩ | hset
        · exact Or.inl ⟨f, List.mem_cons_of_mem _ hf, hset⟩
        · exact Or.inr hset
    | SIGQUIT => exact Or.inl ⟨_, List.mem_cons_self, rfl, rfl⟩

theorem inv_deliver (hI : Inv s) {signo : Signo}
    (h : deliver s signo = some t) : Inv t := by
  unfold deliver at h
  split at h
  · next hready =>
      split at h
      · cases h
        exact inv_caught hI hready.left hready.right
      · cases h
        exact hI.congr rfl rfl rfl rfl (fun _ => rfl)
  · cases h

theorem inv_step {l : Label} (hI : Inv s) (h : step s l = some t) : Inv t := by
  unfold step at h
  split at h
  · cases h
  · cases l with
    | arrive signo =>
        cases h
        exact hI.congr rfl rfl rfl rfl (s.signals.taken_arrive signo)
    | deliver signo => exact inv_deliver hI h
    | run ok =>
        cases hframes : s.frames with
        | nil =>
            rw [hframes] at h
            exact inv_main hI hframes h
        | cons frame rest =>
            rw [hframes] at h
            cases h
            exact inv_handler hI hframes

theorem inv_reachable (hs : machine.Reachable s) : Inv s :=
  Machine.invariant (I := Inv) (fun _ h => initial_inv h) (fun _ _ _ => inv_step) hs

/-!
# The wait
-/

/-- While the flag is not set, a `SIGQUIT` that has arrived is pending or its
handler is about to set the flag. -/
theorem pending_or_setting (hI : Inv s) (hcleared : s.main.cleared = false)
    (hflag : s.quitflag = 0) {k : Nat} (hk : k < s.signals.arrived Signo.SIGQUIT) :
    s.signals.pending Signo.SIGQUIT = true ∨
      k < s.signals.taken Signo.SIGQUIT ∧ exists f, f ∈ s.frames ∧ f.Setting := by
  rcases s.signals.taken_or_pending hk with htaken | hpending
  · rcases hI.delivered (Nat.zero_lt_of_lt htaken) with hset | hset | hclear
    · exact Or.inr ⟨htaken, hset⟩
    · exact absurd hflag hset
    · rw [hcleared] at hclear
      cases hclear
  · exact Or.inl hpending

/-- `main` leaves its loop only after a `SIGQUIT` was delivered.  While it is
suspended and the flag is not set, every `SIGQUIT` that has arrived is pending or
its handler is about to set the flag; when no handler runs none was delivered, and
none is blocked.  From the end of the loop until the mask is restored, `SIGQUIT`
is blocked. -/
theorem woken_by_SIGQUIT (hs : machine.Reachable s) :
    (s.main.left = true -> 0 < s.signals.taken Signo.SIGQUIT) ∧
      (forall m k, s.main = MainPc.suspended m -> s.quitflag = 0 ->
        k < s.signals.arrived Signo.SIGQUIT ->
        s.signals.pending Signo.SIGQUIT = true ∨
          k < s.signals.taken Signo.SIGQUIT ∧ exists f, f ∈ s.frames ∧ f.Setting) ∧
      (forall m, s.main = MainPc.suspended m -> s.frames = [] ->
        s.quitflag = 0 ∧ s.signals.taken Signo.SIGQUIT = 0 ∧
          s.mask Signo.SIGQUIT = false) ∧
      (s.main = MainPc.clear ∨ s.main = MainPc.restore ∨
        s.main = MainPc.returned 1 -> s.mask Signo.SIGQUIT = true) := by
  have hI := inv_reachable hs
  refine ⟨hI.left, ?_, ?_, ?_⟩
  · intro m k hmain hflag hk
    exact pending_or_setting hI (by rw [hmain]; rfl) hflag hk
  · intro m hmain hframes
    rcases hI.asleep m hmain hframes with ⟨hflag, hmask⟩
    refine ⟨hflag, ?_, by rw [hmask]; rfl⟩
    apply Nat.eq_zero_of_not_pos
    intro hpos
    rcases flag_of_taken hI hframes hpos with hset | hclear
    · exact hset hflag
    · rw [hmain] at hclear
      cases hclear
  · intro hmain
    apply hI.blocked
    rcases hmain with hmain | hmain | hmain
    · rw [hmain]
      rfl
    · rw [hmain]
      rfl
    · rw [hmain]
      rfl

end Steps

def fresh : State where
  main := MainPc.sigaction Signo.SIGQUIT
  frames := []
  mask := zeromask
  oldmask := zeromask
  installed := zeromask
  signals := { arrived := fun _ => 0, taken := fun _ => 0, taken_le := fun _ => Nat.le_refl 0 }
  quitflag := 0
  ended := false

/-- A `SIGINT` wakes `main` up, which goes to sleep again; a `SIGQUIT` that comes
after the test, when it is blocked, is delivered in `sigsuspend`. -/
def interrupted : List Label :=
  [Label.run true, Label.run true, Label.run true, Label.run true,
    Label.run true, Label.arrive Signo.SIGINT, Label.deliver Signo.SIGINT,
    Label.run true, Label.run true, Label.run true, Label.run true,
    Label.arrive Signo.SIGQUIT, Label.run true, Label.deliver Signo.SIGQUIT,
    Label.run true, Label.run true, Label.run true, Label.run true]

theorem woken_by_SIGQUIT_interrupted :
    exists s, machine.Reachable s ∧ s.main.left = true ∧
      0 < s.signals.taken Signo.SIGQUIT := by
  have hinit : Initial fresh := ⟨rfl, rfl, fun _ => rfl, rfl, rfl⟩
  have hrun : (machine.run fresh interrupted).map (fun s => s.main.left) = some true := rfl
  rcases Machine.exists_reachable_of_run hinit hrun with ⟨s, hs, hleft⟩
  exact ⟨s, hs, hleft, (woken_by_SIGQUIT hs).left hleft⟩

end Waitsig
end Apue
