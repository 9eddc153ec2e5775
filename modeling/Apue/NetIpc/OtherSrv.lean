import Apue.Foundation.Transition
import Apue.Kernel.Descriptors
import Mathlib.Logic.Function.Basic

/-!
# The uptime service without a pipe

`serve` forks a child for a connection, and the child puts the connection in the
place of its standard output before it turns into the uptime command.  The log
is left out; a new connection may come at any descriptor from 3 on that is free.
-/

namespace Apue
namespace OtherSrv

open Foundation Kernel

abbrev Pid := Nat

def STDIN_FILENO : Fd := 0
def STDOUT_FILENO : Fd := 1
def STDERR_FILENO : Fd := 2

inductive File where
  | devnull
  | listening
  | socket (conn : Nat)
  deriving Repr, DecidableEq

/-- The next thing that a process does in `serve`, with the descriptor of its
connection; the parent has a `close` of its own and then waits for its child.
After a successful `execl` the process is `uptime`. -/
inductive Pc where
  | absent
  | accept
  | fork (connfd : Fd)
  | dupOut (connfd : Fd)
  | dupErr (connfd : Fd)
  | close (connfd : Fd)
  | execl (connfd : Fd)
  | uptime
  | closeParent (connfd : Fd) (pid : Pid)
  | waitpid (pid : Pid)
  deriving Repr, DecidableEq

/-- A process, whether some `serve` has forked it, and the connection that it
last accepted or was forked for. -/
structure Proc where
  pc : Pc
  fds : FdTable File
  child : Bool
  conn : Nat
  deriving Repr, DecidableEq

def gone : Proc where
  pc := Pc.absent
  fds := { slots := [] }
  child := false
  conn := 0

structure State where
  procs : Pid -> Proc
  conns : Nat

/-- A process takes its next step: the descriptor that `accept` returns and the
process that `fork` returns, unless they fail, and whether another system call
succeeds. -/
inductive Label where
  | accept (pid : Pid) (connfd : Option Fd)
  | fork (pid : Pid) (child : Option Pid)
  | dupOut (pid : Pid) (ok : Bool)
  | dupErr (pid : Pid) (ok : Bool)
  | close (pid : Pid)
  | execl (pid : Pid) (ok : Bool)
  | closeParent (pid : Pid)
  | waitpid (pid : Pid) (ok : Bool)
  | exit (pid : Pid)
  deriving Repr, DecidableEq

def put (s : State) (pid : Pid) (p : Proc) : State :=
  { s with procs := Function.update s.procs pid p }

def accept (s : State) (pid : Pid) (connfd : Option Fd) : Option State :=
  match (s.procs pid).pc, connfd with
  | Pc.accept, none => some (put s pid gone)
  | Pc.accept, some connfd =>
      if 3 ≤ connfd ∧ (s.procs pid).fds.get connfd = none then
        some (put { s with conns := s.conns + 1 } pid
          { s.procs pid with
            pc := Pc.fork connfd
            fds := (s.procs pid).fds.set connfd (some (File.socket s.conns))
            conn := s.conns })
      else
        none
  | _, _ => none

def fork (s : State) (pid : Pid) (child : Option Pid) : Option State :=
  match (s.procs pid).pc, child with
  | Pc.fork _, none => some (put s pid gone)
  | Pc.fork connfd, some child =>
      if (s.procs child).pc = Pc.absent then
        some (put
          (put s child
            { s.procs pid with pc := Pc.dupOut connfd, child := true })
          pid { s.procs pid with pc := Pc.closeParent connfd child })
      else
        none
  | _, _ => none

def dup2 (fds : FdTable File) (old new : Fd) (ok : Bool) :
    Int × FdTable File :=
  if ok then (new, fds.dup2 old new) else (-1, fds)

def notEqual (a b : Fd) : Nat :=
  if a ≠ b then 1 else 0

/-- The first operand of the condition:
`dup2(connfd, STDOUT_FILENO) != STDOUT_FILENO`. -/
def dupOut (s : State) (pid : Pid) (ok : Bool) : Option State :=
  match (s.procs pid).pc with
  | Pc.dupOut connfd =>
      let (ret, fds) := dup2 (s.procs pid).fds connfd STDOUT_FILENO ok
      if ret ≠ STDOUT_FILENO then
        some (put s pid gone)
      else
        some (put s pid { s.procs pid with pc := Pc.dupErr connfd, fds := fds })
  | _ => none

/-- The second operand: `dup2(connfd, STDERR_FILENO != STDERR_FILENO)`. -/
def dupErr (s : State) (pid : Pid) (ok : Bool) : Option State :=
  match (s.procs pid).pc with
  | Pc.dupErr connfd =>
      let (ret, fds) := dup2 (s.procs pid).fds connfd
        (notEqual STDERR_FILENO STDERR_FILENO) ok
      if ret ≠ 0 then
        some (put s pid gone)
      else
        some (put s pid { s.procs pid with pc := Pc.close connfd, fds := fds })
  | _ => none

def close (s : State) (pid : Pid) : Option State :=
  match (s.procs pid).pc with
  | Pc.close connfd =>
      some (put s pid
        { s.procs pid with
          pc := Pc.execl connfd
          fds := (s.procs pid).fds.close connfd })
  | _ => none

/-- After a failed `execl` the loop goes on. -/
def execl (s : State) (pid : Pid) (ok : Bool) : Option State :=
  match (s.procs pid).pc with
  | Pc.execl _ =>
      some (put s pid
        { s.procs pid with pc := if ok then Pc.uptime else Pc.accept })
  | _ => none

def closeParent (s : State) (pid : Pid) : Option State :=
  match (s.procs pid).pc with
  | Pc.closeParent connfd child =>
      some (put s pid
        { s.procs pid with
          pc := Pc.waitpid child
          fds := (s.procs pid).fds.close connfd })
  | _ => none

/-- Once the child is gone the parent exits; it does so as well when `waitpid`
fails. -/
def waitpid (s : State) (pid : Pid) (ok : Bool) : Option State :=
  match (s.procs pid).pc with
  | Pc.waitpid child =>
      if ok = true ∧ (s.procs child).pc ≠ Pc.absent then
        none
      else
        some (put s pid gone)
  | _ => none

def exit (s : State) (pid : Pid) : Option State :=
  match (s.procs pid).pc with
  | Pc.uptime => some (put s pid gone)
  | _ => none

def step (s : State) : Label -> Option State
  | Label.accept pid connfd => accept s pid connfd
  | Label.fork pid child => fork s pid child
  | Label.dupOut pid ok => dupOut s pid ok
  | Label.dupErr pid ok => dupErr s pid ok
  | Label.close pid => close s pid
  | Label.execl pid ok => execl s pid ok
  | Label.closeParent pid => closeParent s pid
  | Label.waitpid pid ok => waitpid s pid ok
  | Label.exit pid => exit s pid

structure DaemonFds where
  fds : FdTable File
  stdin : fds.get STDIN_FILENO = some File.devnull
  stdout : fds.get STDOUT_FILENO = some File.devnull
  stderr : fds.get STDERR_FILENO = some File.devnull

def start (server : Pid) (d : DaemonFds) : State where
  procs := Function.update (fun _ => gone) server
    { pc := Pc.accept, fds := d.fds, child := false, conn := 0 }
  conns := 0

def machine (server : Pid) (d : DaemonFds) : Machine State Label where
  init s := s = start server d
  step := step

/-- Whoever is about to become `uptime` has its own connection as standard
output and standard error, `/dev/null` as standard input, and the connection
nowhere else. -/
def Wired (s : State) : Prop :=
  forall pid connfd, (s.procs pid).pc = Pc.execl connfd ->
    (s.procs pid).fds.get STDOUT_FILENO =
        some (File.socket (s.procs pid).conn) ∧
      (s.procs pid).fds.get STDERR_FILENO =
        some (File.socket (s.procs pid).conn) ∧
      (s.procs pid).fds.get STDIN_FILENO = some File.devnull ∧
      (s.procs pid).fds.get connfd = none

def OnlyServerAccepts (s : State) : Prop :=
  forall pid, (s.procs pid).child = true -> (s.procs pid).pc ≠ Pc.accept

def NoExecl (s : State) : Prop :=
  forall pid connfd, (s.procs pid).pc ≠ Pc.execl connfd

/-!
# What a process can become in one step
-/

inductive Becomes (p : Proc) : Proc -> Prop where
  | gone : Becomes p gone
  | accept (connfd : Fd) (conn : Nat) (hpc : p.pc = Pc.accept)
      (hconnfd : 3 ≤ connfd) :
      Becomes p
        { p with
          pc := Pc.fork connfd
          fds := p.fds.set connfd (some (File.socket conn))
          conn := conn }
  | child (connfd : Fd) (hpc : p.pc = Pc.fork connfd) :
      Becomes p { p with pc := Pc.dupOut connfd, child := true }
  | parent (connfd : Fd) (pid : Pid) (hpc : p.pc = Pc.fork connfd) :
      Becomes p { p with pc := Pc.closeParent connfd pid }
  | dupOut (connfd : Fd) (hpc : p.pc = Pc.dupOut connfd) :
      Becomes p
        { p with
          pc := Pc.dupErr connfd
          fds := p.fds.dup2 connfd STDOUT_FILENO }
  | dupErr (connfd : Fd) (hpc : p.pc = Pc.dupErr connfd) :
      Becomes p
        { p with
          pc := Pc.close connfd
          fds := p.fds.dup2 connfd STDIN_FILENO }
  | close (connfd : Fd) (hpc : p.pc = Pc.close connfd) :
      Becomes p { p with pc := Pc.execl connfd, fds := p.fds.close connfd }
  | execl (connfd : Fd) (ok : Bool) (hpc : p.pc = Pc.execl connfd) :
      Becomes p { p with pc := if ok then Pc.uptime else Pc.accept }
  | closeParent (connfd : Fd) (pid : Pid)
      (hpc : p.pc = Pc.closeParent connfd pid) :
      Becomes p { p with pc := Pc.waitpid pid, fds := p.fds.close connfd }

def FromBefore (s t : State) : Prop :=
  forall q, t.procs q = s.procs q ∨ exists pid, Becomes (s.procs pid) (t.procs q)

theorem put_same (s : State) (pid : Pid) (p : Proc) :
    (put s pid p).procs pid = p := by
  simp [put]

theorem put_other {s : State} {pid q : Pid} (p : Proc) (h : q ≠ pid) :
    (put s pid p).procs q = s.procs q := by
  simp [put, h]

theorem fromBefore_same {s t : State} (h : t.procs = s.procs) :
    FromBefore s t := by
  intro q
  rw [h]
  exact Or.inl rfl

theorem FromBefore.put {s t : State} {pid r : Pid} {p : Proc}
    (ht : FromBefore s t) (h : Becomes (s.procs r) p) :
    FromBefore s (put t pid p) := by
  intro q
  by_cases hq : q = pid
  · rw [hq, put_same]
    exact Or.inr ⟨r, h⟩
  · rw [put_other p hq]
    exact ht q

theorem fromBefore_put {s : State} {pid : Pid} {p : Proc}
    (h : Becomes (s.procs pid) p) : FromBefore s (put s pid p) :=
  (fromBefore_same rfl).put h

theorem fromBefore_accept {s t : State} {pid : Pid} {connfd : Option Fd}
    (ht : accept s pid connfd = some t) : FromBefore s t := by
  unfold accept at ht
  split at ht
  · cases ht
    exact fromBefore_put Becomes.gone
  · next connfd hpc =>
      split at ht
      · next hfree =>
          cases ht
          exact (fromBefore_same rfl).put
            (Becomes.accept connfd s.conns hpc hfree.1)
      · cases ht
  · cases ht

theorem fromBefore_fork {s t : State} {pid : Pid} {child : Option Pid}
    (ht : fork s pid child = some t) : FromBefore s t := by
  unfold fork at ht
  split at ht
  · cases ht
    exact fromBefore_put Becomes.gone
  · next connfd child hpc =>
      split at ht
      · cases ht
        have hchild : FromBefore s
            (put s child
              { s.procs pid with pc := Pc.dupOut connfd, child := true }) :=
          (fromBefore_same rfl).put (Becomes.child connfd hpc)
        exact hchild.put (Becomes.parent connfd child hpc)
      · cases ht
  · cases ht

theorem fromBefore_dupOut {s t : State} {pid : Pid} {ok : Bool}
    (ht : dupOut s pid ok = some t) : FromBefore s t := by
  unfold dupOut at ht
  split at ht
  · next connfd hpc =>
      cases ok with
      | true =>
          cases ht
          exact fromBefore_put (Becomes.dupOut connfd hpc)
      | false =>
          cases ht
          exact fromBefore_put Becomes.gone
  · cases ht

theorem fromBefore_dupErr {s t : State} {pid : Pid} {ok : Bool}
    (ht : dupErr s pid ok = some t) : FromBefore s t := by
  unfold dupErr at ht
  split at ht
  · next connfd hpc =>
      cases ok with
      | true =>
          cases ht
          exact fromBefore_put (Becomes.dupErr connfd hpc)
      | false =>
          cases ht
          exact fromBefore_put Becomes.gone
  · cases ht

theorem fromBefore_step {s t : State} {l : Label} (ht : step s l = some t) :
    FromBefore s t := by
  cases l with
  | accept pid connfd => exact fromBefore_accept ht
  | fork pid child => exact fromBefore_fork ht
  | dupOut pid ok => exact fromBefore_dupOut ht
  | dupErr pid ok => exact fromBefore_dupErr ht
  | close pid =>
      change close s pid = some t at ht
      unfold close at ht
      split at ht
      · next connfd hpc =>
          cases ht
          exact fromBefore_put (Becomes.close connfd hpc)
      · cases ht
  | execl pid ok =>
      change execl s pid ok = some t at ht
      unfold execl at ht
      split at ht
      · next connfd hpc =>
          cases ht
          exact fromBefore_put (Becomes.execl connfd ok hpc)
      · cases ht
  | closeParent pid =>
      change closeParent s pid = some t at ht
      unfold closeParent at ht
      split at ht
      · next connfd child hpc =>
          cases ht
          exact fromBefore_put (Becomes.closeParent connfd child hpc)
      · cases ht
  | waitpid pid ok =>
      change waitpid s pid ok = some t at ht
      unfold waitpid at ht
      split at ht
      · split at ht
        · cases ht
        · cases ht
          exact fromBefore_put Becomes.gone
      · cases ht
  | exit pid =>
      change exit s pid = some t at ht
      unfold exit at ht
      split at ht
      · cases ht
        exact fromBefore_put Becomes.gone
      · cases ht

theorem all_procs {server : Pid} {d : DaemonFds} {C : State -> Prop}
    {I : Proc -> Prop} {s : State}
    (hserver : I { pc := Pc.accept, fds := d.fds, child := false, conn := 0 })
    (hgone : I gone)
    (hstep : forall s p, C s -> (exists pid, s.procs pid = p) -> I p ->
      forall p', Becomes p p' -> I p')
    (hs : (machine server d).ReachableUnder (fun s _ => C s) s) :
    forall pid, I (s.procs pid) := by
  apply Machine.invariant_under _ _ hs (I := fun s => forall pid, I (s.procs pid))
  · intro s hinit pid
    rw [hinit]
    change I (Function.update (fun _ => gone) server _ pid)
    by_cases hpid : pid = server
    · rw [hpid, Function.update_self]
      exact hserver
    · rw [Function.update_of_ne hpid]
      exact hgone
  · intro s l t hI hC ht q
    rcases fromBefore_step ht q with hold | ⟨pid, hnew⟩
    · rw [hold]
      exact hI q
    · exact hstep s _ hC ⟨pid, rfl⟩ (hI pid) _ hnew

/-!
# Standard error stays on /dev/null
-/

def Pc.connfd : Pc -> Option Fd
  | Pc.fork connfd => some connfd
  | Pc.dupOut connfd => some connfd
  | Pc.dupErr connfd => some connfd
  | Pc.close connfd => some connfd
  | Pc.closeParent connfd _ => some connfd
  | _ => none

structure ErrNull (p : Proc) : Prop where
  stderr : p.pc ≠ Pc.absent -> p.fds.get STDERR_FILENO = some File.devnull
  connfd : forall d, p.pc.connfd = some d -> 3 ≤ d

theorem errNull_gone : ErrNull gone :=
  ⟨fun h => absurd rfl h, fun _ h => absurd h (Option.some_ne_none _).symm⟩

theorem stderr_set {fds : FdTable File} {d : Fd} (x : Option File)
    (hd : 3 ≤ d) (h : fds.get STDERR_FILENO = some File.devnull) :
    (fds.set d x).get STDERR_FILENO = some File.devnull := by
  have hne : STDERR_FILENO ≠ d := Nat.ne_of_lt hd
  rw [FdTable.get_set_of_ne _ _ hne]
  exact h

theorem stderr_dup2 {fds : FdTable File} {d e : Fd}
    (he : STDERR_FILENO ≠ e)
    (h : fds.get STDERR_FILENO = some File.devnull) :
    (fds.dup2 d e).get STDERR_FILENO = some File.devnull := by
  rw [FdTable.get_dup2, if_neg he]
  exact h

theorem ErrNull.becomes {p p' : Proc} (h : ErrNull p) (hp : Becomes p p') :
    ErrNull p' := by
  have hlive : forall pc, p.pc = pc -> pc ≠ Pc.absent ->
      p.fds.get STDERR_FILENO = some File.devnull := by
    intro pc hpc hne
    exact h.stderr (by rw [hpc]; exact hne)
  have hconn : forall pc d, p.pc = pc -> pc.connfd = some d -> 3 ≤ d := by
    intro pc d hpc hd
    exact h.connfd d (by rw [hpc]; exact hd)
  cases hp with
  | gone => exact errNull_gone
  | accept connfd conn hpc hconnfd =>
      refine ⟨fun _ => stderr_set _ hconnfd (hlive _ hpc Pc.noConfusion), ?_⟩
      intro d hd
      cases hd
      exact hconnfd
  | child connfd hpc =>
      refine ⟨fun _ => hlive _ hpc Pc.noConfusion, ?_⟩
      intro d hd
      cases hd
      exact hconn _ connfd hpc rfl
  | parent connfd pid hpc =>
      refine ⟨fun _ => hlive _ hpc Pc.noConfusion, ?_⟩
      intro d hd
      cases hd
      exact hconn _ connfd hpc rfl
  | dupOut connfd hpc =>
      refine ⟨fun _ => stderr_dup2 (by decide) (hlive _ hpc Pc.noConfusion), ?_⟩
      intro d hd
      cases hd
      exact hconn _ connfd hpc rfl
  | dupErr connfd hpc =>
      refine ⟨fun _ => stderr_dup2 (by decide) (hlive _ hpc Pc.noConfusion), ?_⟩
      intro d hd
      cases hd
      exact hconn _ connfd hpc rfl
  | close connfd hpc =>
      have hconnfd := hconn _ connfd hpc rfl
      refine ⟨fun _ => stderr_set _ hconnfd (hlive _ hpc Pc.noConfusion), ?_⟩
      intro d hd
      cases hd
  | execl connfd ok hpc =>
      refine ⟨fun _ => hlive _ hpc Pc.noConfusion, ?_⟩
      intro d hd
      cases ok with
      | true => cases hd
      | false => cases hd
  | closeParent connfd pid hpc =>
      have hconnfd := hconn _ connfd hpc rfl
      refine ⟨fun _ => stderr_set _ hconnfd (hlive _ hpc Pc.noConfusion), ?_⟩
      intro d hd
      cases hd

theorem errNull_of_reachable {server : Pid} {d : DaemonFds} {s : State}
    (hs : (machine server d).Reachable s) : forall pid, ErrNull (s.procs pid) := by
  apply all_procs (C := fun _ => True) _ errNull_gone _ hs
  · exact ⟨fun _ => d.stderr, fun _ h => absurd h (Option.some_ne_none _).symm⟩
  · intro _ p _ _ hI p' hp
    exact hI.becomes hp

theorem noExecl_of_wired {server : Pid} {d : DaemonFds} {s : State}
    (hs : (machine server d).Reachable s) (h : Wired s) : NoExecl s := by
  intro pid connfd hpc
  have hnull := (errNull_of_reachable hs pid).stderr
    (by rw [hpc]; exact Pc.noConfusion)
  have hsocket := (h pid connfd hpc).2.1
  rw [hnull] at hsocket
  cases hsocket

/-!
# Without execl no child comes back to the loop
-/

def Pc.ofChild : Pc -> Bool
  | Pc.absent => true
  | Pc.dupOut _ => true
  | Pc.dupErr _ => true
  | Pc.close _ => true
  | Pc.execl _ => true
  | _ => false

def StaysChild (p : Proc) : Prop :=
  p.child = true -> p.pc.ofChild = true

theorem StaysChild.becomes {p p' : Proc} (h : StaysChild p)
    (hno : forall connfd, p.pc ≠ Pc.execl connfd) (hp : Becomes p p') :
    StaysChild p' := by
  have hparent : forall pc, p.pc = pc -> pc.ofChild = false ->
      p.child ≠ true := by
    intro pc hpc hfalse hchild
    have htrue := h hchild
    rw [hpc, hfalse] at htrue
    cases htrue
  cases hp with
  | gone =>
      intro hchild
      cases hchild
  | accept connfd conn hpc hconnfd =>
      intro hchild
      exact absurd hchild (hparent _ hpc rfl)
  | child connfd hpc =>
      intro _
      rfl
  | parent connfd pid hpc =>
      intro hchild
      exact absurd hchild (hparent _ hpc rfl)
  | dupOut connfd hpc =>
      intro _
      rfl
  | dupErr connfd hpc =>
      intro _
      rfl
  | close connfd hpc =>
      intro _
      rfl
  | execl connfd ok hpc => exact absurd hpc (hno connfd)
  | closeParent connfd pid hpc =>
      intro hchild
      exact absurd hchild (hparent _ hpc rfl)

theorem onlyServer_of_noExecl {server : Pid} {d : DaemonFds} {s : State}
    (hs : (machine server d).ReachableUnder (fun s _ => NoExecl s) s) :
    OnlyServerAccepts s := by
  intro pid hchild haccept
  have hstays : StaysChild (s.procs pid) := by
    apply all_procs (C := NoExecl) _ _ _ hs
    · intro h
      cases h
    · intro h
      cases h
    · intro s p hno hsome hI p' hp
      rcases hsome with ⟨pid, heq⟩
      apply hI.becomes _ hp
      intro connfd
      rw [← heq]
      exact hno pid connfd
  have htrue := hstays hchild
  rw [haccept] at htrue
  cases htrue

/--
In all the states of a run the children are wired up at `execl` and only the
server accepts, if and only if no child comes to `execl` in the run.
-/
theorem serve_correct_iff (server : Pid) (d : DaemonFds) (ls : List Label) :
    (forall t, (machine server d).Visits (start server d) ls t ->
        Wired t ∧ OnlyServerAccepts t) ↔
      forall t, (machine server d).Visits (start server d) ls t -> NoExecl t := by
  constructor
  · intro h t ht
    have hreach := Machine.reachable_of_visits
      (Machine.ReachableUnder.init
        (rfl : (machine server d).init (start server d))) ht
    exact noExecl_of_wired hreach (h t ht).1
  · intro h t ht
    constructor
    · intro pid connfd hpc
      exact absurd hpc (h t ht pid connfd)
    · exact onlyServer_of_noExecl
        (Machine.reachableUnder_of_visits
          (Machine.ReachableUnder.init
            (rfl : (machine server d).init (start server d))) h ht)

def daemonFds : DaemonFds where
  fds :=
    { slots := [some File.devnull, some File.devnull, some File.devnull,
        some File.listening] }
  stdin := rfl
  stdout := rfl
  stderr := rfl

def oneConnection : List Label :=
  [Label.accept 1 (some 4), Label.fork 1 (some 2), Label.dupOut 2 true,
    Label.dupErr 2 true, Label.close 2]

/-- The first child comes to `execl` with its standard error on `/dev/null`. -/
theorem uptime_stderr_null :
    ¬ forall ls t, (machine 1 daemonFds).Visits (start 1 daemonFds) ls t ->
      Wired t ∧ OnlyServerAccepts t := by
  intro h
  have hrun : ((machine 1 daemonFds).run (start 1 daemonFds) oneConnection).map
      (fun s => ((s.procs 2).pc, (s.procs 2).fds.get STDERR_FILENO)) =
        some (Pc.execl 4, some File.devnull) := by
    rfl
  rcases Option.map_eq_some_iff.mp hrun with ⟨s, hs, heq⟩
  rcases Prod.mk.inj heq with ⟨hpc, hnull⟩
  have hwired := (h oneConnection s (Machine.visits_of_run hs)).1 2 4 hpc
  have hsocket := hwired.2.1
  rw [hnull] at hsocket
  cases hsocket

end OtherSrv
end Apue
