import Apue.Foundation.Transition

/-!
# Jumping out of signal handlers

The handlers of `SIGUSR1` and `SIGUSR2` leave by `siglongjmp` and `longjmp`, each
behind a flag.  A handler runs with its own signal blocked, on top of what it
interrupted, and when it returns the mask is as it was before.  `siglongjmp`
puts back the mask that `sigsetjmp` saved; `longjmp` leaves the mask alone.  The
signals may arrive at any time, the alarm that the handlers set being one of
many reasons for a `SIGALRM`.  What is printed is left out.
-/

namespace Apue
namespace Sigsetjmp

open Foundation

inductive Signo where
  | usr1
  | usr2
  | alrm
  deriving Repr, DecidableEq

structure SigSet where
  usr1 : Bool
  usr2 : Bool
  alrm : Bool
  deriving Repr, DecidableEq

def SigSet.empty : SigSet where
  usr1 := false
  usr2 := false
  alrm := false

def SigSet.contains (set : SigSet) : Signo -> Bool
  | Signo.usr1 => set.usr1
  | Signo.usr2 => set.usr2
  | Signo.alrm => set.alrm

def SigSet.insert (set : SigSet) : Signo -> SigSet
  | Signo.usr1 => { set with usr1 := true }
  | Signo.usr2 => { set with usr2 := true }
  | Signo.alrm => { set with alrm := true }

/-- The next thing that `main` does: a `sigaction`, a `pr_mask`, the first or the
second return of `sigsetjmp` and `setjmp`, an assignment to a flag, `pause`.  In
`exiting` it is inside `exit`, in `returned` its frame is gone and exit
processing runs. -/
inductive MainPc where
  | sigaction (signo : Signo)
  | starting
  | sigsetjmp
  | sigjumped
  | setCanjump
  | setjmp
  | jumped
  | setCanjump2
  | pausing
  | returning
  | exiting
  | returned
  deriving Repr, DecidableEq

/-- The next thing that a handler does: test its flag, `pr_mask`, wait, `pr_mask`
again, clear the flag, jump; or return; or it is inside `exit`. -/
inductive HandlerPc where
  | entered
  | starting
  | spinning
  | finishing
  | clearing
  | jumping
  | returning
  | exiting
  deriving Repr, DecidableEq

structure Frame where
  signo : Signo
  pc : HandlerPc
  mask : SigSet
  deriving Repr, DecidableEq

/-- `main`, the handlers on top of it (the innermost first), the signal mask, the
signals whose handler is installed, the flags, what is in the jump buffers, and
whether the process is over. -/
structure State where
  main : MainPc
  frames : List Frame
  mask : SigSet
  installed : SigSet
  canjump : Bool
  canjump2 : Bool
  sigenv : Option SigSet
  env : Bool
  ended : Bool
  deriving Repr, DecidableEq

/-- A step of what runs (`ok` is the outcome of a `sigaction` or of the
`sigprocmask` in `pr_mask`), and the delivery of a signal. -/
inductive Label where
  | run (ok : Bool)
  | deliver (signo : Signo)
  deriving Repr, DecidableEq

def main (s : State) (ok : Bool) : Option State :=
  match s.main with
  | MainPc.sigaction signo =>
      if ok then
        some
          { s with
            installed := s.installed.insert signo
            main :=
              match signo with
              | Signo.usr1 => MainPc.sigaction Signo.usr2
              | Signo.usr2 => MainPc.sigaction Signo.alrm
              | Signo.alrm => MainPc.starting }
      else
        some { s with main := MainPc.returned }
  | MainPc.starting =>
      some { s with main := if ok then MainPc.sigsetjmp else MainPc.exiting }
  | MainPc.sigsetjmp =>
      some { s with sigenv := some s.mask, main := MainPc.setCanjump }
  | MainPc.sigjumped =>
      some { s with main := if ok then MainPc.setCanjump else MainPc.exiting }
  | MainPc.setCanjump => some { s with canjump := true, main := MainPc.setjmp }
  | MainPc.setjmp => some { s with env := true, main := MainPc.setCanjump2 }
  | MainPc.jumped =>
      some { s with main := if ok then MainPc.returning else MainPc.exiting }
  | MainPc.setCanjump2 =>
      some { s with canjump2 := true, main := MainPc.pausing }
  | MainPc.pausing => none
  | MainPc.returning => some { s with main := MainPc.returned }
  | MainPc.exiting => some { s with ended := true }
  | MainPc.returned => some { s with ended := true }

/-- `siglongjmp(sigenv, 1)`.  With a buffer that was never filled or a frame that
is gone the behavior is undefined, and the model ends here. -/
def siglongjmp (s : State) : Option State :=
  match s.sigenv with
  | none => none
  | some mask =>
      if s.main = MainPc.returned then
        none
      else
        some { s with main := MainPc.sigjumped, frames := [], mask := mask }

/-- `longjmp(env, 1)`, likewise. -/
def longjmp (s : State) : Option State :=
  if s.env = true ∧ s.main ≠ MainPc.returned then
    some { s with main := MainPc.jumped, frames := [] }
  else
    none

def goto (s : State) (frame : Frame) (rest : List Frame) (pc : HandlerPc) :
    State :=
  { s with frames := { frame with pc := pc } :: rest }

/-- A handler that tests the flag, reports, waits, reports, clears the flag and
jumps. -/
def sigJump (flag : Bool) (cleared : State) (jump : Option State) (s : State)
    (frame : Frame) (rest : List Frame) (ok : Bool) : Option State :=
  match frame.pc with
  | HandlerPc.entered =>
      some (goto s frame rest
        (if flag then HandlerPc.starting else HandlerPc.returning))
  | HandlerPc.starting =>
      some (goto s frame rest
        (if ok then HandlerPc.spinning else HandlerPc.exiting))
  | HandlerPc.spinning => some (goto s frame rest HandlerPc.finishing)
  | HandlerPc.finishing =>
      some (goto s frame rest
        (if ok then HandlerPc.clearing else HandlerPc.exiting))
  | HandlerPc.clearing => some (goto cleared frame rest HandlerPc.jumping)
  | HandlerPc.jumping => jump
  | HandlerPc.returning => some { s with frames := rest, mask := frame.mask }
  | HandlerPc.exiting => some { s with ended := true }

def sig_usr1 (s : State) (frame : Frame) (rest : List Frame) (ok : Bool) :
    Option State :=
  sigJump s.canjump { s with canjump := false } (siglongjmp s) s frame rest ok

def sig_usr2 (s : State) (frame : Frame) (rest : List Frame) (ok : Bool) :
    Option State :=
  sigJump s.canjump2 { s with canjump2 := false } (longjmp s) s frame rest ok

def sig_alarm (s : State) (frame : Frame) (rest : List Frame) (ok : Bool) :
    Option State :=
  match frame.pc with
  | HandlerPc.entered =>
      some (goto s frame rest
        (if ok then HandlerPc.returning else HandlerPc.exiting))
  | HandlerPc.returning => some { s with frames := rest, mask := frame.mask }
  | HandlerPc.exiting => some { s with ended := true }
  | _ => none

def handler : Signo -> State -> Frame -> List Frame -> Bool -> Option State
  | Signo.usr1 => sig_usr1
  | Signo.usr2 => sig_usr2
  | Signo.alrm => sig_alarm

def deliver (s : State) (signo : Signo) : Option State :=
  if s.mask.contains signo then
    none
  else if s.installed.contains signo then
    some
      { s with
        frames :=
          { signo := signo, pc := HandlerPc.entered, mask := s.mask } ::
            s.frames
        mask := s.mask.insert signo }
  else
    some { s with ended := true }

def step (s : State) (l : Label) : Option State :=
  if s.ended then
    none
  else
    match l with
    | Label.run ok =>
        match s.frames with
        | [] => main s ok
        | frame :: rest => handler frame.signo s frame rest ok
    | Label.deliver signo => deliver s signo

/-- The program starts with any signal mask. -/
def start (mask : SigSet) : State where
  main := MainPc.sigaction Signo.usr1
  frames := []
  mask := mask
  installed := SigSet.empty
  canjump := false
  canjump2 := false
  sigenv := none
  env := false
  ended := false

def machine : Machine State Label where
  init s := exists mask, s = start mask
  step := step

/-- The buffer of the jump that is about to be made has been filled, and the
frame that it leads to is active. -/
structure JumpDefined (s : State) : Prop where
  siglongjmp : forall frame rest, s.frames = frame :: rest ->
    frame.signo = Signo.usr1 -> frame.pc = HandlerPc.jumping ->
    s.sigenv ≠ none ∧ s.main ≠ MainPc.returned
  longjmp : forall frame rest, s.frames = frame :: rest ->
    frame.signo = Signo.usr2 -> frame.pc = HandlerPc.jumping ->
    s.env = true ∧ s.main ≠ MainPc.returned

/-- The step does not deliver `SIGUSR1` after `main` has returned with `canjump`
still set. -/
def NotTooLate (s : State) (l : Label) : Prop :=
  ¬ (l = Label.deliver Signo.usr1 ∧ s.main = MainPc.returned ∧ s.canjump = true)

instance (s : State) (l : Label) : Decidable (NotTooLate s l) :=
  inferInstanceAs (Decidable (¬ _))

/-!
# The invariant
-/

def HandlerPc.committed : HandlerPc -> Bool
  | HandlerPc.starting => true
  | HandlerPc.spinning => true
  | HandlerPc.finishing => true
  | HandlerPc.clearing => true
  | HandlerPc.jumping => true
  | _ => false

/-- `main` installs the handlers, or is on its way out after a `longjmp`, or
out. -/
def MainPc.outside : MainPc -> Bool
  | MainPc.sigaction _ => true
  | MainPc.jumped => true
  | MainPc.returning => true
  | MainPc.returned => true
  | _ => false

structure Usr1Kept (s : State) (frame : Frame) : Prop where
  committed : frame.pc.committed = true ->
    s.sigenv ≠ none ∧ s.main ≠ MainPc.returned
  entered : frame.pc = HandlerPc.entered -> s.main = MainPc.returned ->
    s.canjump = false

structure Usr2Kept (s : State) (frame : Frame) : Prop where
  committed : frame.pc.committed = true ->
    s.env = true ∧ s.main ≠ MainPc.returned
  jumping : frame.pc = HandlerPc.jumping -> s.canjump2 = false

def Kept (s : State) (frame : Frame) : Prop :=
  match frame.signo with
  | Signo.usr1 => Usr1Kept s frame
  | Signo.usr2 => Usr2Kept s frame
  | Signo.alrm => True

/-- `main` is past `sigsetjmp` and about to allow the jump. -/
def MainPc.saved : MainPc -> Bool
  | MainPc.sigjumped => true
  | MainPc.setCanjump => true
  | _ => false

structure Flags (s : State) : Prop where
  canjump : s.canjump = true -> s.sigenv ≠ none
  canjump2 : s.canjump2 = true -> s.env = true
  outside : s.main.outside = true -> s.canjump2 = false
  saved : s.main.saved = true -> s.sigenv ≠ none
  set : s.main = MainPc.setCanjump2 -> s.env = true

structure Guarded (s : State) : Prop extends Flags s where
  frames : forall frame, frame ∈ s.frames -> Kept s frame

section Innermost

variable {s : State} {frame : Frame} {rest : List Frame}

theorem Guarded.kept (h : Guarded s) (hframes : s.frames = frame :: rest) :
    Kept s frame := by
  apply h.frames
  rw [hframes]
  exact List.mem_cons_self

theorem Guarded.usr1Kept (h : Guarded s) (hframes : s.frames = frame :: rest)
    (hsigno : frame.signo = Signo.usr1) : Usr1Kept s frame := by
  have hkept := h.kept hframes
  unfold Kept at hkept
  rw [hsigno] at hkept
  exact hkept

theorem Guarded.usr2Kept (h : Guarded s) (hframes : s.frames = frame :: rest)
    (hsigno : frame.signo = Signo.usr2) : Usr2Kept s frame := by
  have hkept := h.kept hframes
  unfold Kept at hkept
  rw [hsigno] at hkept
  exact hkept

end Innermost

theorem Guarded.jumpDefined {s : State} (h : Guarded s) : JumpDefined s := by
  constructor
  · intro frame rest hframes hsigno hpc
    exact (h.usr1Kept hframes hsigno).committed (by rw [hpc]; rfl)
  · intro frame rest hframes hsigno hpc
    exact (h.usr2Kept hframes hsigno).committed (by rw [hpc]; rfl)

/-- A handler that waits below another one only depends on where `main` is, on
the buffers, and on the flags not being set. -/
structure Frames (s t : State) : Prop where
  main : t.main = s.main
  sigenv : t.sigenv = s.sigenv
  env : t.env = s.env
  canjump : t.canjump = true -> s.canjump = true
  canjump2 : t.canjump2 = true -> s.canjump2 = true

theorem Kept.mono {s t : State} {frame : Frame} (h : Kept s frame)
    (hst : Frames s t) : Kept t frame := by
  unfold Kept at h ⊢
  cases hsigno : frame.signo with
  | usr1 =>
      rw [hsigno] at h
      constructor
      · intro hpc
        rw [hst.sigenv, hst.main]
        exact h.committed hpc
      · intro hpc hmain
        rw [hst.main] at hmain
        have hfalse := h.entered hpc hmain
        cases hflag : t.canjump with
        | false => rfl
        | true =>
            rw [hst.canjump hflag] at hfalse
            cases hfalse
  | usr2 =>
      rw [hsigno] at h
      constructor
      · intro hpc
        rw [hst.env, hst.main]
        exact h.committed hpc
      · intro hpc
        have hfalse := h.jumping hpc
        cases hflag : t.canjump2 with
        | false => rfl
        | true =>
            rw [hst.canjump2 hflag] at hfalse
            cases hfalse
  | alrm => trivial

theorem Guarded.of_frames {s t : State} (h : Guarded s) (hst : Frames s t)
    (hframes : forall frame, frame ∈ t.frames ->
      frame ∈ s.frames ∨ Kept t frame) : Guarded t := by
  refine ⟨⟨?_, ?_, ?_, ?_, ?_⟩, ?_⟩
  · intro hflag
    rw [hst.sigenv]
    exact h.canjump (hst.canjump hflag)
  · intro hflag
    rw [hst.env]
    exact h.canjump2 (hst.canjump2 hflag)
  · intro houtside
    rw [hst.main] at houtside
    have hfalse := h.outside houtside
    cases hflag : t.canjump2 with
    | false => rfl
    | true =>
        rw [hst.canjump2 hflag] at hfalse
        cases hfalse
  · intro hsaved
    rw [hst.main] at hsaved
    rw [hst.sigenv]
    exact h.saved hsaved
  · intro hset
    rw [hst.main] at hset
    rw [hst.env]
    exact h.set hset
  · intro frame hmem
    rcases hframes frame hmem with hold | hnew
    · exact (h.frames frame hold).mono hst
    · exact hnew

/-!
# The steps of the handlers
-/

theorem Guarded.goto {s cleared : State} {frame : Frame} {rest : List Frame}
    {pc : HandlerPc} (h : Guarded s) (hframes : s.frames = frame :: rest)
    (hcleared : Frames s cleared)
    (hkept : Kept (goto cleared frame rest pc) { frame with pc := pc }) :
    Guarded (goto cleared frame rest pc) := by
  apply h.of_frames (t := Sigsetjmp.goto cleared frame rest pc)
  · exact ⟨hcleared.main, hcleared.sigenv, hcleared.env, hcleared.canjump,
      hcleared.canjump2⟩
  · intro other hmem
    rcases List.mem_cons.mp hmem with heq | hrest
    · rw [heq]
      exact Or.inr hkept
    · left
      rw [hframes]
      exact List.mem_cons_of_mem frame hrest

theorem Guarded.handlerReturn {s : State} {frame : Frame} {rest : List Frame}
    (h : Guarded s) (hframes : s.frames = frame :: rest) :
    Guarded { s with frames := rest, mask := frame.mask } := by
  have hsame : Frames s { s with frames := rest, mask := frame.mask } :=
    ⟨rfl, rfl, rfl, id, id⟩
  apply h.of_frames hsame
  intro other hmem
  left
  rw [hframes]
  exact List.mem_cons_of_mem frame hmem

theorem Guarded.exit {s : State} (h : Guarded s) :
    Guarded { s with ended := true } :=
  h.of_frames ⟨rfl, rfl, rfl, id, id⟩ (fun _ hmem => Or.inl hmem)

/-- What a handler owes: the test lets it commit itself, a later step keeps what
it is committed to, and so does clearing the flag; then comes the jump. -/
theorem Guarded.sigJump {flag : Bool} {cleared s t : State}
    {jump : Option State} {frame : Frame} {rest : List Frame} {ok : Bool}
    (h : Guarded s) (hframes : s.frames = frame :: rest)
    (hcleared : Frames s cleared)
    (htest : frame.pc = HandlerPc.entered -> flag = true ->
      Kept s { frame with pc := HandlerPc.starting })
    (hmove : forall pc, pc ≠ HandlerPc.entered -> pc ≠ HandlerPc.jumping ->
      (pc.committed = true -> frame.pc.committed = true) ->
      Kept s { frame with pc := pc })
    (hclear : frame.pc = HandlerPc.clearing ->
      Kept cleared { frame with pc := HandlerPc.jumping })
    (hjump : frame.pc = HandlerPc.jumping -> jump = some t -> Guarded t)
    (ht : sigJump flag cleared jump s frame rest ok = some t) : Guarded t := by
  have hself : Frames s s := ⟨rfl, rfl, rfl, id, id⟩
  have hgoto : forall pc, Kept s { frame with pc := pc } ->
      Guarded (Sigsetjmp.goto s frame rest pc) := by
    intro pc hkept
    exact h.goto hframes hself (hkept.mono ⟨rfl, rfl, rfl, id, id⟩)
  unfold Sigsetjmp.sigJump at ht
  cases hpc : frame.pc with
  | entered =>
      rw [hpc] at ht
      cases ht
      cases hflag : flag with
      | true => exact hgoto _ (htest hpc hflag)
      | false =>
          apply hgoto
          exact hmove _ HandlerPc.noConfusion HandlerPc.noConfusion
            Bool.noConfusion
  | starting =>
      rw [hpc] at ht
      cases ht
      apply hgoto
      cases ok with
      | true =>
          exact hmove _ HandlerPc.noConfusion HandlerPc.noConfusion
            (fun _ => by rw [hpc]; rfl)
      | false =>
          exact hmove _ HandlerPc.noConfusion HandlerPc.noConfusion
            Bool.noConfusion
  | spinning =>
      rw [hpc] at ht
      cases ht
      apply hgoto
      exact hmove _ HandlerPc.noConfusion HandlerPc.noConfusion
        (fun _ => by rw [hpc]; rfl)
  | finishing =>
      rw [hpc] at ht
      cases ht
      apply hgoto
      cases ok with
      | true =>
          exact hmove _ HandlerPc.noConfusion HandlerPc.noConfusion
            (fun _ => by rw [hpc]; rfl)
      | false =>
          exact hmove _ HandlerPc.noConfusion HandlerPc.noConfusion
            Bool.noConfusion
  | clearing =>
      rw [hpc] at ht
      cases ht
      exact h.goto hframes hcleared ((hclear hpc).mono ⟨rfl, rfl, rfl, id, id⟩)
  | jumping =>
      rw [hpc] at ht
      exact hjump hpc ht
  | returning =>
      rw [hpc] at ht
      cases ht
      exact h.handlerReturn hframes
  | exiting =>
      rw [hpc] at ht
      cases ht
      exact h.exit

theorem Guarded.of_flags {s : State} (hframes : s.frames = []) (h : Flags s) :
    Guarded s := by
  refine ⟨h, ?_⟩
  intro frame hmem
  rw [hframes] at hmem
  cases hmem

theorem Guarded.siglongjmp {s t : State} (h : Guarded s)
    (ht : siglongjmp s = some t) : Guarded t := by
  unfold Sigsetjmp.siglongjmp at ht
  cases hsigenv : s.sigenv with
  | none =>
      rw [hsigenv] at ht
      cases ht
  | some mask =>
      rw [hsigenv] at ht
      change (if s.main = MainPc.returned then none else some _) = some t at ht
      split at ht
      · cases ht
      · cases ht
        apply Guarded.of_flags rfl
        exact ⟨fun _ => Option.some_ne_none mask, h.canjump2, Bool.noConfusion,
          fun _ => Option.some_ne_none mask, MainPc.noConfusion⟩

theorem Guarded.longjmp {s t : State} (h : Guarded s)
    (hflag : s.canjump2 = false) (ht : longjmp s = some t) : Guarded t := by
  unfold Sigsetjmp.longjmp at ht
  split at ht
  · cases ht
    apply Guarded.of_flags rfl
    exact ⟨h.canjump, h.canjump2, fun _ => hflag, Bool.noConfusion,
      MainPc.noConfusion⟩
  · cases ht

theorem kept_of_usr1 {s : State} {frame : Frame} (hsigno : frame.signo = Signo.usr1)
    (h : Usr1Kept s frame) : Kept s frame := by
  unfold Kept
  rw [hsigno]
  exact h

theorem kept_of_usr2 {s : State} {frame : Frame} (hsigno : frame.signo = Signo.usr2)
    (h : Usr2Kept s frame) : Kept s frame := by
  unfold Kept
  rw [hsigno]
  exact h

theorem Guarded.sig_usr1 {s t : State} {frame : Frame} {rest : List Frame}
    {ok : Bool} (h : Guarded s) (hframes : s.frames = frame :: rest)
    (hsigno : frame.signo = Signo.usr1)
    (ht : sig_usr1 s frame rest ok = some t) : Guarded t := by
  have hkept := h.usr1Kept hframes hsigno
  apply h.sigJump hframes _ _ _ _ _ ht
  · exact ⟨rfl, rfl, rfl, Bool.noConfusion, id⟩
  · intro hentered hflag
    apply kept_of_usr1
    · exact hsigno
    · constructor
      · intro _
        refine ⟨h.canjump hflag, ?_⟩
        intro hmain
        rw [hkept.entered hentered hmain] at hflag
        cases hflag
      · exact HandlerPc.noConfusion
  · intro pc hentered _ hcommitted
    apply kept_of_usr1
    · exact hsigno
    · exact ⟨fun hpc => hkept.committed (hcommitted hpc),
        fun hpc => absurd hpc hentered⟩
  · intro hclearing
    apply kept_of_usr1
    · exact hsigno
    · constructor
      · intro _
        exact hkept.committed (by rw [hclearing]; rfl)
      · exact HandlerPc.noConfusion
  · intro _ hjump
    exact h.siglongjmp hjump

theorem Guarded.sig_usr2 {s t : State} {frame : Frame} {rest : List Frame}
    {ok : Bool} (h : Guarded s) (hframes : s.frames = frame :: rest)
    (hsigno : frame.signo = Signo.usr2)
    (ht : sig_usr2 s frame rest ok = some t) : Guarded t := by
  have hkept := h.usr2Kept hframes hsigno
  apply h.sigJump hframes _ _ _ _ _ ht
  · exact ⟨rfl, rfl, rfl, id, Bool.noConfusion⟩
  · intro _ hflag
    apply kept_of_usr2
    · exact hsigno
    · constructor
      · intro _
        refine ⟨h.canjump2 hflag, ?_⟩
        intro hmain
        have hfalse := h.outside (by rw [hmain]; rfl)
        rw [hflag] at hfalse
        cases hfalse
      · exact HandlerPc.noConfusion
  · intro pc _ hjumping hcommitted
    apply kept_of_usr2
    · exact hsigno
    · exact ⟨fun hpc => hkept.committed (hcommitted hpc),
        fun hpc => absurd hpc hjumping⟩
  · intro hclearing
    apply kept_of_usr2
    · exact hsigno
    · constructor
      · intro _
        exact hkept.committed (by rw [hclearing]; rfl)
      · intro _
        rfl
  · intro hjumping hjump
    exact h.longjmp (hkept.jumping hjumping) hjump

theorem Guarded.sig_alarm {s t : State} {frame : Frame} {rest : List Frame}
    {ok : Bool} (h : Guarded s) (hframes : s.frames = frame :: rest)
    (hsigno : frame.signo = Signo.alrm)
    (ht : sig_alarm s frame rest ok = some t) : Guarded t := by
  unfold Sigsetjmp.sig_alarm at ht
  split at ht
  · cases ht
    apply h.goto hframes ⟨rfl, rfl, rfl, id, id⟩
    unfold Kept
    rw [hsigno]
    trivial
  · cases ht
    exact h.handlerReturn hframes
  · cases ht
    exact h.exit
  · cases ht

theorem Guarded.handler {s t : State} {frame : Frame} {rest : List Frame}
    {ok : Bool} (h : Guarded s) (hframes : s.frames = frame :: rest)
    (ht : handler frame.signo s frame rest ok = some t) : Guarded t := by
  cases hsigno : frame.signo with
  | usr1 =>
      rw [hsigno] at ht
      exact h.sig_usr1 hframes hsigno ht
  | usr2 =>
      rw [hsigno] at ht
      exact h.sig_usr2 hframes hsigno ht
  | alrm =>
      rw [hsigno] at ht
      exact h.sig_alarm hframes hsigno ht

/-!
# The steps of main, and deliveries
-/

def MainPc.filled : MainPc -> Bool
  | MainPc.sigjumped => true
  | MainPc.setCanjump => true
  | MainPc.setCanjump2 => true
  | _ => false

theorem Flags.move {s : State} (h : Flags s) {pc : MainPc} {installed : SigSet}
    (houtside : pc.outside = true -> s.canjump2 = false)
    (hpc : pc.filled = false) :
    Flags { s with main := pc, installed := installed } := by
  refine ⟨h.canjump, h.canjump2, houtside, ?_, ?_⟩
  · intro hsaved
    change pc.saved = true at hsaved
    cases pc with
    | sigjumped => cases hpc
    | setCanjump => cases hpc
    | _ => cases hsaved
  · intro hset
    change pc = MainPc.setCanjump2 at hset
    rw [hset] at hpc
    cases hpc

theorem Flags.main {s t : State} {ok : Bool} (h : Flags s)
    (ht : main s ok = some t) : Flags t := by
  unfold Sigsetjmp.main at ht
  cases hmain : s.main with
  | sigaction signo =>
      have hfalse := h.outside (by rw [hmain]; rfl)
      rw [hmain] at ht
      cases ok with
      | true =>
          cases ht
          cases signo with
          | usr1 => exact h.move (fun _ => hfalse) rfl
          | usr2 => exact h.move (fun _ => hfalse) rfl
          | alrm => exact h.move Bool.noConfusion rfl
      | false =>
          cases ht
          exact h.move (fun _ => hfalse) rfl
  | starting =>
      rw [hmain] at ht
      cases ok with
      | true =>
          cases ht
          exact h.move Bool.noConfusion rfl
      | false =>
          cases ht
          exact h.move Bool.noConfusion rfl
  | sigsetjmp =>
      rw [hmain] at ht
      cases ht
      exact ⟨fun _ => Option.some_ne_none s.mask, h.canjump2, Bool.noConfusion,
        fun _ => Option.some_ne_none s.mask, MainPc.noConfusion⟩
  | sigjumped =>
      have hsaved := h.saved (by rw [hmain]; rfl)
      rw [hmain] at ht
      cases ok with
      | true =>
          cases ht
          exact ⟨h.canjump, h.canjump2, Bool.noConfusion, fun _ => hsaved,
            MainPc.noConfusion⟩
      | false =>
          cases ht
          exact h.move Bool.noConfusion rfl
  | setCanjump =>
      have hsaved := h.saved (by rw [hmain]; rfl)
      rw [hmain] at ht
      cases ht
      exact ⟨fun _ => hsaved, h.canjump2, Bool.noConfusion, Bool.noConfusion,
        MainPc.noConfusion⟩
  | setjmp =>
      rw [hmain] at ht
      cases ht
      exact ⟨h.canjump, fun _ => rfl, Bool.noConfusion, Bool.noConfusion,
        fun _ => rfl⟩
  | jumped =>
      have hfalse := h.outside (by rw [hmain]; rfl)
      rw [hmain] at ht
      cases ok with
      | true =>
          cases ht
          exact h.move (fun _ => hfalse) rfl
      | false =>
          cases ht
          exact h.move Bool.noConfusion rfl
  | setCanjump2 =>
      have hset := h.set hmain
      rw [hmain] at ht
      cases ht
      exact ⟨h.canjump, fun _ => hset, Bool.noConfusion, Bool.noConfusion,
        MainPc.noConfusion⟩
  | pausing =>
      rw [hmain] at ht
      cases ht
  | returning =>
      have hfalse := h.outside (by rw [hmain]; rfl)
      rw [hmain] at ht
      cases ht
      exact h.move (fun _ => hfalse) rfl
  | exiting =>
      rw [hmain] at ht
      cases ht
      exact ⟨h.canjump, h.canjump2, Bool.noConfusion, Bool.noConfusion,
        MainPc.noConfusion⟩
  | returned =>
      have hfalse := h.outside (by rw [hmain]; rfl)
      rw [hmain] at ht
      cases ht
      exact ⟨h.canjump, h.canjump2, fun _ => hfalse, Bool.noConfusion,
        MainPc.noConfusion⟩

theorem main_frames {s t : State} {ok : Bool} (ht : main s ok = some t) :
    t.frames = s.frames := by
  unfold main at ht
  split at ht
  · split at ht
    · cases ht
      rfl
    · cases ht
      rfl
  all_goals
    cases ht
  all_goals
    rfl

theorem Guarded.deliver {s t : State} {signo : Signo} (h : Guarded s)
    (htime : NotTooLate s (Label.deliver signo))
    (ht : deliver s signo = some t) : Guarded t := by
  unfold Sigsetjmp.deliver at ht
  split at ht
  · cases ht
  · split at ht
    · cases ht
      apply h.of_frames
      · exact ⟨rfl, rfl, rfl, id, id⟩
      · intro frame hmem
        rcases List.mem_cons.mp hmem with heq | hold
        · right
          rw [heq]
          cases signo with
          | usr1 =>
              refine ⟨Bool.noConfusion, ?_⟩
              intro _ hmain
              cases hflag : s.canjump with
              | false => rfl
              | true => exact absurd ⟨rfl, hmain, hflag⟩ htime
          | usr2 => exact ⟨Bool.noConfusion, HandlerPc.noConfusion⟩
          | alrm => trivial
        · exact Or.inl hold
    · cases ht
      exact h.exit

/-!
# Every run
-/

theorem guarded_start (mask : SigSet) : Guarded (start mask) :=
  Guarded.of_flags rfl
    ⟨Bool.noConfusion, Bool.noConfusion, fun _ => rfl, Bool.noConfusion,
      MainPc.noConfusion⟩

theorem Guarded.step {s t : State} {l : Label} (h : Guarded s)
    (htime : NotTooLate s l) (ht : step s l = some t) : Guarded t := by
  unfold Sigsetjmp.step at ht
  split at ht
  · cases ht
  · cases l with
    | run ok =>
        cases hframes : s.frames with
        | nil =>
            rw [hframes] at ht
            have hnone := (main_frames ht).trans hframes
            exact Guarded.of_flags hnone (h.toFlags.main ht)
        | cons frame rest =>
            rw [hframes] at ht
            exact h.handler hframes ht
    | deliver signo => exact h.deliver htime ht

/--
As long as `SIGUSR1` is not delivered after `main` has returned with `canjump`
still set, each `siglongjmp` and each `longjmp` goes to a buffer that has been
filled and to a frame that is active.
-/
theorem jumps_defined {s : State} (hs : machine.ReachableUnder NotTooLate s) :
    JumpDefined s := by
  apply Guarded.jumpDefined
  apply Machine.invariant_under _ _ hs
  · intro s hinit
    rcases hinit with ⟨mask, heq⟩
    rw [heq]
    exact guarded_start mask
  · intro s l t hI htime ht
    exact hI.step htime ht

def untilPause : List Label :=
  List.replicate 8 (Label.run true)

def untilJump (signo : Signo) : List Label :=
  Label.deliver signo :: List.replicate 5 (Label.run true)

theorem siglongjmp_reached :
    exists s, machine.ReachableUnder NotTooLate s ∧
      s.frames.map (fun frame => (frame.signo, frame.pc)) =
        [(Signo.usr1, HandlerPc.jumping)] ∧
      JumpDefined s := by
  have hinit : machine.ReachableUnder NotTooLate (start SigSet.empty) :=
    Machine.ReachableUnder.init ⟨SigSet.empty, rfl⟩
  have hmeets : machine.RunMeets NotTooLate (start SigSet.empty)
      (untilPause ++ untilJump Signo.usr1) := by
    decide
  have hrun : (machine.run (start SigSet.empty)
      (untilPause ++ untilJump Signo.usr1)).map
        (fun s => s.frames.map (fun frame => (frame.signo, frame.pc))) =
      some [(Signo.usr1, HandlerPc.jumping)] := by
    rfl
  rcases Option.map_eq_some_iff.mp hrun with ⟨s, hs, hframes⟩
  have hreach := Machine.reachableUnder_of_run hinit hmeets hs
  exact ⟨s, hreach, hframes, jumps_defined hreach⟩

/-!
# A signal after main has returned

`sig_usr2` leads `main` out of the program with `canjump` still set.  A `SIGUSR1`
that comes while exit processing runs then jumps into the frame that is gone.
-/

def tooLate : List Label :=
  untilPause ++ untilJump Signo.usr2 ++ List.replicate 3 (Label.run true) ++
    untilJump Signo.usr1

theorem siglongjmp_after_return :
    ¬ forall s, machine.Reachable s -> JumpDefined s := by
  intro h
  have hrun : (machine.run (start SigSet.empty) tooLate).map
      (fun s => (s.main, s.frames.map (fun frame => (frame.signo, frame.pc)))) =
        some (MainPc.returned, [(Signo.usr1, HandlerPc.jumping)]) := by
    rfl
  have hinit : machine.init (start SigSet.empty) := ⟨SigSet.empty, rfl⟩
  rcases Machine.exists_reachable_of_run hinit hrun with ⟨s, hs, heq⟩
  rcases Prod.mk.inj heq with ⟨hmain, hframes⟩
  rcases List.map_eq_singleton_iff.mp hframes with ⟨frame, hone, hframe⟩
  rcases Prod.mk.inj hframe with ⟨hsigno, hpc⟩
  exact ((h s hs).siglongjmp frame [] hone hsigno hpc).2 hmain

end Sigsetjmp
end Apue
