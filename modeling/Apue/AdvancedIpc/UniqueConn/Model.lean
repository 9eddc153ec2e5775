import Apue.Foundation.Decimal
import Apue.Foundation.Snoc
import Apue.Foundation.Transition
import Apue.Kernel.Files

/-!
# cli_conn and srv_accept

Every system call of a client or of the server is one step, and the steps of
all of them interleave.  A process may call `cli_conn`, and it may also make
system calls of its own on the same names.  Every connection that `srv_accept`
takes from the queue goes through the checks of one call of `srv_accept`.
-/

namespace Apue
namespace UniqueConn

open Foundation Kernel

def S_IRWXU : Nat := 448
def S_IRWXG : Nat := 56
def S_IRWXO : Nat := 7

def CLI_PERM : Nat := S_IRWXU

/-- `"/var/tmp/"`. -/
def CLI_PATH : Path :=
  [47, 118, 97, 114, 47, 116, 109, 112, 47]

/-- `sprintf(un.sun_path, "%s%05d", CLI_PATH, getpid())`. -/
def cliPath (pid : Pid) : Path :=
  CLI_PATH ++ zeroPadded 5 pid

theorem cliPath_injective {a b : Pid} (h : cliPath a = cliPath b) : a = b :=
  zeroPadded_injective (List.append_cancel_left h)

theorem place_cliPath (dirs : Dirs) (pid : Pid) :
    place dirs (cliPath pid) = dirs CLI_PATH ++ zeroPadded 5 pid :=
  @place_slash dirs [47, 118, 97, 114, 47, 116, 109, 112] _
    (fun _ hb => zeroPadded_ne_slash hb)

theorem place_cliPath_injective {dirs : Dirs} {a b : Pid}
    (h : place dirs (cliPath a) = place dirs (cliPath b)) : a = b := by
  rw [place_cliPath, place_cliPath] at h
  exact zeroPadded_injective (List.append_cancel_left h)

theorem place_cliPath_ne_nil (dirs : Dirs) (pid : Pid) :
    place dirs (cliPath pid) ≠ [] := by
  rw [place_cliPath]
  intro h
  exact zeroPadded_ne_nil 5 pid (List.append_eq_nil_iff.mp h).2

/-- The full name of a path for a process whose working directory is `dir`. -/
def nameIn (dir p : Path) : Path :=
  if p = [] ∨ p.head? = some 47 then p else dir ++ p

theorem nameIn_cliPath (dir : Path) (pid : Pid) :
    nameIn dir (cliPath pid) = cliPath pid :=
  if_pos (Or.inr rfl)

/-- A socket that a process has bound to a path and not yet connected. -/
structure Sock where
  fd : Nat
  pid : Pid
  path : Path
  born : Int
  deriving Repr, DecidableEq

/-- Where a process is in `cli_conn`; outside it, what the last call returned. -/
inductive CliPc where
  | idle (ret : Option Int)
  | made (fd : Nat)
  | clean (fd : Nat)
  | bound (k : Sock)
  | ready (k : Sock)
  deriving Repr, DecidableEq

/-- How far `srv_accept` is with a connection. -/
inductive Phase where
  | queued
  | accepted (fd : Nat)
  | statted (fd : Nat) (statbuf : Inode)
  | passed (fd : Nat) (stored : Option Uid)
  | finished (ret : Int) (stored : Option Uid)
  deriving Repr, DecidableEq

/-- An established connection: who made it, the path its socket is bound to
(empty when it is not bound to one) and when it was bound. -/
structure Conn where
  pid : Pid
  path : Path
  born : Int
  phase : Phase
  deriving Repr, DecidableEq

/-- Every process has a working directory, and the server stays in its own. -/
structure State where
  now : Int
  dirs : Dirs
  names : Names
  cwd : Pid -> Path
  srvCwd : Path
  sockets : List Sock
  cli : Pid -> CliPc
  conns : List Conn

/-- System calls that a process makes on its own.  Files are given by their full
names, but the path of `bind` is the one that the process passes.  `relink` is
whatever makes the names in a directory lead elsewhere: a link in its place, or
another directory.  A process may connect a socket that another one has bound and
passed on to it. -/
inductive Action where
  | chdir (dir : Path)
  | relink (dir target : Path)
  | create (p : Path) (perm : Nat)
  | remove (p : Path)
  | chmod (p : Path) (perm : Nat)
  | symlink (p target : Path)
  | bind (fd : Nat) (p : Path) (perm : Nat)
  | connect (k : Sock)
  | connectUnbound
  | close (k : Sock)
  deriving Repr, DecidableEq

/-- How a system call of `cli_conn` ends.  A number is given where the kernel
chooses one: the descriptor of `socket`, the permission bits of `bind`. -/
inductive Outcome where
  | done (n : Nat)
  | failed
  deriving Repr, DecidableEq

inductive Label where
  | tick
  | sys (pid : Pid) (a : Action)
  | cli (pid : Pid) (o : Outcome)
  | accept (i : Nat) (fd : Nat)
  | stat (i : Nat)
  | check (i : Nat) (uidptr : Bool)
  | unlink (i : Nat)
  deriving Repr, DecidableEq

def newFile (s : State) (uid : Uid) (type : FileType) (perm : Nat) : Inode where
  type := type
  perm := perm
  uid := uid
  ctime := s.now
  mtime := s.now
  atime := s.now

/-- The place that a path leads to from the working directory `dir`. -/
def State.placeIn (s : State) (dir p : Path) : Path :=
  place s.dirs (nameIn dir p)

theorem State.placeIn_cliPath (s : State) (dir : Path) (pid : Pid) :
    s.placeIn dir (cliPath pid) = place s.dirs (cliPath pid) :=
  congrArg (place s.dirs) (nameIn_cliPath dir pid)

theorem State.placeIn_nil (s : State) (dir : Path) : s.placeIn dir [] = [] := by
  unfold State.placeIn nameIn
  rw [if_pos (Or.inl rfl), place_nil]

/-- `bind` makes a socket file where the path leads to for the process. -/
def bindTo (s : State) (uid : Pid -> Uid) (k : Sock) (perm : Nat) :
    Option State :=
  match s.names.add (s.placeIn (s.cwd k.pid) k.path)
      (Entry.file (newFile s (uid k.pid) FileType.S_IFSOCK perm)) with
  | none => none
  | some names => some { s with names := names, sockets := s.sockets ++ [k] }

/-- `connect` puts the connection behind those that wait already. -/
def connectFrom (s : State) (pid : Pid) (k : Sock) : Option State :=
  if k ∈ s.sockets then
    some
      { s with
        sockets := s.sockets.erase k
        conns := s.conns ++
          [{ pid := pid, path := k.path, born := k.born,
             phase := Phase.queued }] }
  else
    none

def withNames (s : State) (names : Option Names) : Option State :=
  match names with
  | none => none
  | some names => some { s with names := names }

def sysStep (uid : Pid -> Uid) (s : State) (pid : Pid) :
    Action -> Option State
  | Action.chdir dir =>
      some { s with cwd := fun q => if q = pid then dir else s.cwd q }
  | Action.relink dir target =>
      some { s with dirs := s.dirs.relink dir target }
  | Action.create p perm =>
      withNames s (s.names.add (place s.dirs p)
        (Entry.file (newFile s (uid pid) FileType.S_IFREG perm)))
  | Action.remove p =>
      withNames s (s.names.unlink (uid pid) (place s.dirs p))
  | Action.chmod p perm =>
      withNames s
        (s.names.chmod s.dirs (uid pid) s.now (place s.dirs p) perm)
  | Action.symlink p target =>
      withNames s
        (s.names.add (place s.dirs p) (Entry.link (uid pid) target))
  | Action.bind fd p perm =>
      bindTo s uid { fd := fd, pid := pid, path := p, born := s.now } perm
  | Action.connect k => connectFrom s pid k
  | Action.connectUnbound =>
      some
        { s with
          conns := s.conns ++
            [{ pid := pid, path := [], born := s.now,
               phase := Phase.queued }] }
  | Action.close k =>
      if k.pid = pid then some { s with sockets := s.sockets.erase k } else none

def setCli (s : State) (pid : Pid) (pc : CliPc) : State :=
  { s with cli := fun q => if q = pid then pc else s.cli q }

def andThen (s : Option State) (pid : Pid) (pc : CliPc) : Option State :=
  match s with
  | none => none
  | some s => some (setCli s pid pc)

/-- The next system call of `cli_conn`; `unlink` may fail without effect. -/
def cliStep (uid : Pid -> Uid) (s : State) (pid : Pid) (o : Outcome) :
    Option State :=
  match s.cli pid, o with
  | CliPc.idle _, Outcome.done fd => some (setCli s pid (CliPc.made fd))
  | CliPc.idle _, Outcome.failed =>
      some (setCli s pid (CliPc.idle (some (-1))))
  | CliPc.made fd, Outcome.done _ =>
      match s.names.unlink (uid pid) (place s.dirs (cliPath pid)) with
      | none => some (setCli s pid (CliPc.clean fd))
      | some names =>
          some (setCli { s with names := names } pid (CliPc.clean fd))
  | CliPc.made fd, Outcome.failed => some (setCli s pid (CliPc.clean fd))
  | CliPc.clean fd, Outcome.done perm =>
      let k : Sock :=
        { fd := fd, pid := pid, path := cliPath pid, born := s.now }
      andThen (bindTo s uid k perm) pid (CliPc.bound k)
  | CliPc.clean _, Outcome.failed =>
      some (setCli s pid (CliPc.idle (some (-2))))
  | CliPc.bound k, Outcome.done _ =>
      andThen
        (withNames s (s.names.chmod s.dirs (uid pid) s.now
          (place s.dirs (cliPath pid)) CLI_PERM))
        pid (CliPc.ready k)
  | CliPc.bound k, Outcome.failed =>
      some (setCli { s with sockets := s.sockets.erase k } pid
        (CliPc.idle (some (-3))))
  | CliPc.ready k, Outcome.done _ =>
      andThen (connectFrom s k.pid k) pid (CliPc.idle (some k.fd))
  | CliPc.ready k, Outcome.failed =>
      some (setCli { s with sockets := s.sockets.erase k } pid
        (CliPc.idle (some (-4))))

def STALE : Int := 30

/-- The checks of `srv_accept` on what `stat` reported: the error that it
returns, if any. -/
def statError (now : Int) (statbuf : Inode) : Option Int :=
  if statbuf.type ≠ FileType.S_IFSOCK then
    some (-3)
  else if statbuf.perm &&& (S_IRWXG ||| S_IRWXO) ≠ 0 ∨
      statbuf.perm &&& S_IRWXU ≠ S_IRWXU then
    some (-4)
  else if statbuf.ctime < now - STALE ∨ statbuf.mtime < now - STALE ∨
      statbuf.atime < now - STALE then
    some (-5)
  else
    none

def setPhase (s : State) (i : Nat) (c : Conn) (phase : Phase) : State :=
  { s with conns := s.conns.set i { c with phase := phase } }

/-- Connections are accepted in the order in which they were made. -/
def firstQueued (s : State) : Nat :=
  s.conns.findIdx (fun c => c.phase = Phase.queued)

def srvAccept (s : State) (i fd : Nat) (c : Conn) : Option State :=
  if i = firstQueued s ∧ c.phase = Phase.queued then
    some (setPhase s i c (Phase.accepted fd))
  else
    none

/-- The server looks up the path of its peer in its own directory. -/
def srvStat (s : State) (i : Nat) (c : Conn) : Option State :=
  match c.phase with
  | Phase.accepted fd =>
      match s.names.stat s.dirs (s.placeIn s.srvCwd c.path) with
      | none => some (setPhase s i c (Phase.finished (-2) none))
      | some statbuf => some (setPhase s i c (Phase.statted fd statbuf))
  | _ => none

def srvCheck (s : State) (i : Nat) (uidptr : Bool) (c : Conn) : Option State :=
  match c.phase with
  | Phase.statted fd statbuf =>
      match statError s.now statbuf with
      | some errval => some (setPhase s i c (Phase.finished errval none))
      | none =>
          some (setPhase s i c
            (Phase.passed fd (if uidptr then some statbuf.uid else none)))
  | _ => none

/-- A failing `unlink` is only reported. -/
def srvUnlink (srvUid : Uid) (s : State) (i : Nat) (c : Conn) : Option State :=
  match c.phase with
  | Phase.passed fd stored =>
      match s.names.unlink srvUid (s.placeIn s.srvCwd c.path) with
      | none => some (setPhase s i c (Phase.finished fd stored))
      | some names =>
          some (setPhase { s with names := names } i c
            (Phase.finished fd stored))
  | _ => none

def atConn (s : State) (i : Nat) (next : Conn -> Option State) : Option State :=
  match s.conns[i]? with
  | none => none
  | some c => next c

def step (uid : Pid -> Uid) (srvUid : Uid) (s : State) :
    Label -> Option State
  | Label.tick => some { s with now := s.now + 1 }
  | Label.sys pid a => sysStep uid s pid a
  | Label.cli pid o => cliStep uid s pid o
  | Label.accept i fd => atConn s i (srvAccept s i fd)
  | Label.stat i => atConn s i (srvStat s i)
  | Label.check i uidptr => atConn s i (srvCheck s i uidptr)
  | Label.unlink i => atConn s i (srvUnlink srvUid s i)

/-- At first no socket exists and no process is in `cli_conn`. -/
def machine (uid : Pid -> Uid) (srvUid : Uid) : Machine State Label where
  init s := s.sockets = [] ∧ s.conns = [] ∧ forall pid, s.cli pid = CliPc.idle none
  step := step uid srvUid

/-!
# What the steps do
-/

theorem atConn_cases {s t : State} {i : Nat} {next : Conn -> Option State}
    (h : atConn s i next = some t) :
    exists c, s.conns[i]? = some c ∧ next c = some t := by
  unfold atConn at h
  split at h
  · cases h
  · next c hc => exact ⟨c, hc, h⟩

theorem bindTo_cases {s t : State} {uid : Pid -> Uid} {k : Sock} {perm : Nat}
    (h : bindTo s uid k perm = some t) :
    s.names (s.placeIn (s.cwd k.pid) k.path) = none ∧
      t = { s with
        names := s.names.put (s.placeIn (s.cwd k.pid) k.path)
          (some (Entry.file
            (newFile s (uid k.pid) FileType.S_IFSOCK perm)))
        sockets := s.sockets ++ [k] } := by
  unfold bindTo at h
  split at h
  · cases h
  · next names hadd =>
      rcases Names.add_cases hadd with ⟨_, hfree, hnames⟩
      cases h
      rw [hnames]
      exact ⟨hfree, rfl⟩

theorem connectFrom_cases {s t : State} {pid : Pid} {k : Sock}
    (h : connectFrom s pid k = some t) :
    k ∈ s.sockets ∧
      t = { s with
        sockets := s.sockets.erase k
        conns := s.conns ++
          [{ pid := pid, path := k.path, born := k.born,
             phase := Phase.queued }] } := by
  unfold connectFrom at h
  split at h
  · next hk =>
      cases h
      exact ⟨hk, rfl⟩
  · cases h

theorem withNames_cases {s t : State} {names : Option Names}
    (h : withNames s names = some t) :
    exists n, names = some n ∧ t = { s with names := n } := by
  unfold withNames at h
  split at h
  · cases h
  · next n =>
      cases h
      exact ⟨n, rfl, rfl⟩

theorem andThen_cases {s : Option State} {t : State} {pid : Pid} {pc : CliPc}
    (h : andThen s pid pc = some t) :
    exists u, s = some u ∧ t = setCli u pid pc := by
  unfold andThen at h
  split at h
  · cases h
  · next u =>
      cases h
      exact ⟨u, rfl, rfl⟩

theorem mem_setPhase {s : State} {i : Nat} {c d : Conn} {phase : Phase}
    (h : d ∈ (setPhase s i c phase).conns) :
    d = { c with phase := phase } ∨ d ∈ s.conns := by
  rcases List.mem_or_eq_of_mem_set h with hmem | heq
  · right
    exact hmem
  · left
    exact heq

end UniqueConn
end Apue
