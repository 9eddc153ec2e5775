import Apue.Foundation.Transition
import Apue.Kernel.Descriptors

/-!
# popen_l and pclose_l

The two functions keep a static array `childpid`, indexed by descriptor, with
the pid of the child behind each stream.  Every system call is answered by the
environment: the answers are arguments, so that all outcomes are covered.
-/

namespace Apue
namespace Popen

open Kernel

abbrev Pid := Int

inductive OpenFile where
  | pipeRead (pipe : Nat)
  | pipeWrite (pipe : Nat)
  | other (n : Nat)
  deriving Repr, DecidableEq

inductive Mode where
  | r
  | w
  deriving Repr, DecidableEq

/-- Only `"r"` and `"w"` are allowed. -/
def mode? : List Char -> Option Mode
  | ['r'] => some Mode.r
  | ['w'] => some Mode.w
  | _ => none

def STDIN_FILENO : Fd := 0
def STDOUT_FILENO : Fd := 1
def OPEN_MAX_GUESS : Nat := 256

/-- The sizes of `childpid` and of its entries where pointers have 64 bits. -/
def SIZEOF_CHILDPID : Nat := 8
def SIZEOF_PID_T : Nat := 4

structure FILE where
  fileno : Fd
  deriving Repr, DecidableEq

/-- A stream without a descriptor, such as one in memory, has the number -1. -/
def fileno : Option FILE -> Int
  | none => -1
  | some fp => fp.fileno

/-- A forked child that has not been reaped, with the descriptor table it has
when it reaches `execl`. -/
structure Child where
  id : Nat
  pid : Pid
  fds : FdTable OpenFile
  deriving Repr, DecidableEq

/--
The calling process and what the kernel keeps about it.  The first four fields
are the static variables of the source and the descriptor table; the others are
the children that are live or unreaped, counters that name forks and pipes, and
the children that calls of `pclose_l` have gone to wait for.
-/
structure World where
  openmax : Nat
  maxfd : Nat
  childpid : Option (List Pid)
  fds : FdTable OpenFile
  children : List Child
  forks : Nat
  pipes : Nat
  awaited : List (Option Nat)
  deriving Repr, DecidableEq

/-- Ways in which a call does not come back to its caller.  An index is out of bounds
where it is outside the allocated block. -/
inductive Stop where
  | exited
  | outOfBounds (index : Int)
  | blocked
  deriving Repr, DecidableEq

/-!
# The table of child pids
-/

inductive SysconfAnswer where
  | limit (n : Nat)
  | indefinite
  | error
  deriving Repr, DecidableEq

def open_max (openmax : Nat) (answer : SysconfAnswer) : Option Nat :=
  if openmax = 0 then
    match answer with
    | SysconfAnswer.limit n => some n
    | SysconfAnswer.indefinite => some OPEN_MAX_GUESS
    | SysconfAnswer.error => none
  else
    some openmax

/-- The entry that `childpid[d]` holds; before the array exists there is
nothing recorded. -/
def World.entry (w : World) (d : Fd) : Pid :=
  match w.childpid with
  | none => 0
  | some table => table.getD d 0

/-- The assignment `childpid[d] = pid`. -/
def World.store (w : World) (d : Fd) (pid : Pid) : Except Stop World :=
  match w.childpid with
  | none => Except.error (Stop.outOfBounds d)
  | some table =>
      if d < table.length then
        Except.ok { w with childpid := some (table.set d pid) }
      else
        Except.error (Stop.outOfBounds d)

/-!
# The child's side of popen_l
-/

def wireChild (mode : Mode) (pfd : Fd × Fd) (t : FdTable OpenFile) :
    FdTable OpenFile :=
  match mode with
  | Mode.r =>
      let t := t.close pfd.1
      if pfd.2 ≠ STDOUT_FILENO then
        (t.dup2 pfd.2 STDOUT_FILENO).close pfd.2
      else
        t
  | Mode.w =>
      let t := t.close pfd.2
      if pfd.1 ≠ STDIN_FILENO then
        (t.dup2 pfd.1 STDIN_FILENO).close pfd.1
      else
        t

/-- The loop that closes every descriptor with a positive entry. -/
def closeRecorded (w : World) (t : FdTable OpenFile) : FdTable OpenFile :=
  (List.range w.maxfd).foldl
    (fun t i => if 0 < w.entry i then t.close i else t) t

def childAtExec (w : World) (mode : Mode) (pfd : Fd × Fd) :
    FdTable OpenFile :=
  closeRecorded w (wireChild mode pfd w.fds)

/-!
# popen_l
-/

structure PopenAnswers where
  sysconf : SysconfAnswer
  calloc : Bool
  pipe : Bool
  fork : Option Pid
  fdopen : Bool
  deriving Repr, DecidableEq

inductive PopenFailure where
  | EINVAL
  | calloc
  | pipe
  | fork
  | fdopen
  deriving Repr, DecidableEq

/-- How many entries `calloc(maxfd, sizeof(childpid))` has room for: the size in the
call is that of the pointer. -/
def room (maxfd : Nat) : Nat :=
  maxfd * SIZEOF_CHILDPID / SIZEOF_PID_T

/-- The block guarded by `childpid == NULL`; the answer tells whether the
array exists afterwards. -/
def firstTime (ans : PopenAnswers) (w : World) : Except Stop (Bool × World) :=
  match w.childpid with
  | some _ => Except.ok (true, w)
  | none =>
      match open_max w.openmax ans.sysconf with
      | none => Except.error Stop.exited
      | some n =>
          let w := { w with openmax := n, maxfd := n }
          if ans.calloc then
            Except.ok (true, { w with childpid := some (List.replicate (room n) 0) })
          else
            Except.ok (false, w)

/-- From the call to the point where `fork` is called: the mode and the pipe's
two descriptors, or the reason for returning `NULL`. -/
def untilFork (type : List Char) (ans : PopenAnswers) (w : World) :
    Except Stop (Except PopenFailure (Mode × (Fd × Fd)) × World) :=
  match mode? type with
  | none => Except.ok (Except.error PopenFailure.EINVAL, w)
  | some mode =>
      match firstTime ans w with
      | Except.error stop => Except.error stop
      | Except.ok (false, w) => Except.ok (Except.error PopenFailure.calloc, w)
      | Except.ok (true, w) =>
          if ans.pipe then
            let piped :=
              w.fds.pipe (OpenFile.pipeRead w.pipes) (OpenFile.pipeWrite w.pipes)
            Except.ok (Except.ok (mode, piped.1),
              { w with fds := piped.2, pipes := w.pipes + 1 })
          else
            Except.ok (Except.error PopenFailure.pipe, w)

def World.forkChild (w : World) (pid : Pid) (mode : Mode) (pfd : Fd × Fd) :
    World :=
  let child : Child :=
    { id := w.forks, pid := pid, fds := childAtExec w mode pfd }
  { w with children := w.children ++ [child], forks := w.forks + 1 }

def parentEnds (mode : Mode) (pfd : Fd × Fd) : Fd × Fd :=
  match mode with
  | Mode.r => (pfd.1, pfd.2)
  | Mode.w => (pfd.2, pfd.1)

def parentContinues (mode : Mode) (pfd : Fd × Fd) (pid : Pid) (fdopen : Bool)
    (w : World) : Except Stop (Except PopenFailure FILE × World) :=
  let ends := parentEnds mode pfd
  let w := { w with fds := w.fds.close ends.2 }
  if fdopen then
    match w.store ends.1 pid with
    | Except.error stop => Except.error stop
    | Except.ok w => Except.ok (Except.ok { fileno := ends.1 }, w)
  else
    Except.ok (Except.error PopenFailure.fdopen, w)

def popen_l (type : List Char) (ans : PopenAnswers) (w : World) :
    Except Stop (Except PopenFailure FILE × World) :=
  match untilFork type ans w with
  | Except.error stop => Except.error stop
  | Except.ok (Except.error why, w) => Except.ok (Except.error why, w)
  | Except.ok (Except.ok (mode, pfd), w) =>
      match ans.fork with
      | none => Except.ok (Except.error PopenFailure.fork, w)
      | some pid =>
          parentContinues mode pfd pid ans.fdopen (w.forkChild pid mode pfd)

/-!
# pclose_l
-/

/-- `fclose` gives the descriptor back when it succeeds; when it returns `EOF`
the descriptor may or may not have been closed. -/
inductive FcloseAnswer where
  | ok
  | eof (closed : Bool)
  deriving Repr, DecidableEq

inductive WaitAnswer where
  | eintr
  | failed (childGone : Bool)
  | status (stat : Int)
  deriving Repr, DecidableEq

structure PcloseAnswers where
  fclose : FcloseAnswer
  waitpid : List WaitAnswer
  deriving Repr, DecidableEq

/-- What `pclose_l` gives back: the four ways of returning `-1`, or the
termination status. -/
inductive PcloseResult where
  | neverCalled
  | notPopen
  | fcloseFailed
  | waitFailed
  | status (stat : Int)
  deriving Repr, DecidableEq

def World.fclose (w : World) (fp : FILE) : FcloseAnswer -> World
  | FcloseAnswer.ok => { w with fds := w.fds.close fp.fileno }
  | FcloseAnswer.eof true => { w with fds := w.fds.close fp.fileno }
  | FcloseAnswer.eof false => w

def World.childOf (w : World) (pid : Pid) : Option Nat :=
  (w.children.find? (fun c => c.pid = pid)).map Child.id

def World.reap (w : World) (pid : Pid) : World :=
  { w with children := w.children.filter (fun c => c.pid ≠ pid) }

/-- The loop around `waitpid`, driven by the answers it gets; a child that is
never reported leaves the caller blocked. -/
def waitLoop (pid : Pid) (w : World) :
    List WaitAnswer -> Except Stop (PcloseResult × World)
  | [] => Except.error Stop.blocked
  | WaitAnswer.eintr :: rest => waitLoop pid w rest
  | WaitAnswer.failed childGone :: _ =>
      Except.ok
        (PcloseResult.waitFailed, if childGone then w.reap pid else w)
  | WaitAnswer.status stat :: _ =>
      Except.ok (PcloseResult.status stat, w.reap pid)

def pcloseFrom (table : List Pid) (fp : FILE) (ans : PcloseAnswers) (w : World) :
    Except Stop (PcloseResult × World) :=
  match table[fp.fileno]? with
  | none => Except.error (Stop.outOfBounds fp.fileno)
  | some pid =>
      if pid = 0 then
        Except.ok (PcloseResult.notPopen, w)
      else
        let w := { w with childpid := some (table.set fp.fileno 0) }
        let w := w.fclose fp ans.fclose
        match ans.fclose with
        | FcloseAnswer.eof _ => Except.ok (PcloseResult.fcloseFailed, w)
        | FcloseAnswer.ok =>
            waitLoop pid
              { w with awaited := w.awaited ++ [w.childOf pid] } ans.waitpid

def pclose_l (fp : Option FILE) (ans : PcloseAnswers) (w : World) :
    Except Stop (PcloseResult × World) :=
  match w.childpid, fp with
  | none, _ => Except.ok (PcloseResult.neverCalled, w)
  | some _, none => Except.error (Stop.outOfBounds (fileno none))
  | some table, some fp => pcloseFrom table fp ans w

/-!
# Runs of calls

The caller remembers the streams that `popen_l` returned to it and that it has
not yet handed to `pclose_l`, each with the child that very call forked.  It may
also open and close descriptors of its own.
-/

structure Stream where
  fp : FILE
  child : Nat
  pid : Pid
  deriving Repr, DecidableEq

structure State where
  world : World
  live : List Stream
  deriving Repr, DecidableEq

inductive Call where
  | popen (type : List Char) (ans : PopenAnswers)
  | pclose (fp : Option FILE) (ans : PcloseAnswers)
  | openOther (n : Nat)
  | closeOther (d : Fd)
  deriving Repr, DecidableEq

/-- The stream the caller remembers when a call of `popen_l` returns one. -/
def Stream.opened (fp : FILE) (ans : PopenAnswers) (w : World) : Stream :=
  { fp := fp, child := w.forks, pid := ans.fork.getD 0 }

def step (s : State) : Call -> Option State
  | Call.popen type ans =>
      match popen_l type ans s.world with
      | Except.error _ => none
      | Except.ok (Except.error _, w) => some { s with world := w }
      | Except.ok (Except.ok fp, w) =>
          some { world := w, live := s.live ++ [Stream.opened fp ans s.world] }
  | Call.pclose fp ans =>
      match pclose_l fp ans s.world with
      | Except.error _ => none
      | Except.ok (_, w) =>
          some { world := w, live := s.live.filter (fun st => some st.fp ≠ fp) }
  | Call.openOther n =>
      some { s with
        world := { s.world with
          fds := (s.world.fds.install (OpenFile.other n)).2 } }
  | Call.closeOther d =>
      some { s with world := { s.world with fds := s.world.fds.close d } }

/--
A process that has not yet called `popen_l`: any descriptor table, no array,
no children of its own making.
-/
def Initial (s : State) : Prop :=
  s.live = [] ∧ s.world.openmax = 0 ∧ s.world.maxfd = 0 ∧
    s.world.childpid = none ∧ s.world.children = [] ∧
    s.world.forks = 0 ∧ s.world.awaited = []

def machine : Foundation.Machine State Call where
  init := Initial
  step := step

/--
What the kernel and the caller promise about a call: the pid of a new child is
positive and differs from the pid of every live or unreaped child, and the
caller closes the streams of `popen_l` only with `pclose_l`.
-/
def Promised (s : State) : Call -> Prop
  | Call.popen _ ans =>
      match ans.fork with
      | none => True
      | some pid => 0 < pid ∧ forall c, c ∈ s.world.children -> c.pid ≠ pid
  | Call.pclose _ _ => True
  | Call.openOther _ => True
  | Call.closeOther d => forall st, st ∈ s.live -> st.fp.fileno ≠ d

instance (s : State) : DecidablePred (Promised s)
  | Call.popen _ ans =>
      match h : ans.fork with
      | none => isTrue (by simp only [Promised, h])
      | some pid =>
          decidable_of_iff
            (0 < pid ∧ forall c, c ∈ s.world.children -> c.pid ≠ pid)
            (by simp only [Promised, h])
  | Call.pclose _ _ => inferInstanceAs (Decidable True)
  | Call.openOther _ => inferInstanceAs (Decidable True)
  | Call.closeOther d =>
      inferInstanceAs
        (Decidable (forall st, st ∈ s.live -> st.fp.fileno ≠ d))

theorem promised_fork {s : State} {type : List Char} {ans : PopenAnswers}
    {pid : Pid} (hP : Promised s (Call.popen type ans))
    (hfork : ans.fork = some pid) :
    0 < pid ∧ forall c, c ∈ s.world.children -> c.pid ≠ pid := by
  simp only [Promised, hfork] at hP
  exact hP

end Popen
end Apue
