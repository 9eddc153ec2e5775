import Apue.AdvancedIo.LockTable
import Apue.Foundation.Transition
import Mathlib.Logic.Function.Basic

/-!
# Locking a file against one's child

Each run of the program truncates the file, writes six bytes to it and sets a write
lock on all of it, without waiting for one.  Its child tries to get a read lock and
then reads from the file anyway.  Any number of runs may go on with the same file at
the same time.
-/

namespace Apue
namespace Mandlock

open Foundation Filelock

/-- "abcdef" -/
def data : List UInt8 :=
  [97, 98, 99, 100, 101, 102]

/-- What a child says: that it has got the lock, that it was refused, that it could
not read, or how many bytes it has read and which. -/
inductive Line where
  | succeeded
  | refused
  | failed
  | bytes (xs : List UInt8)
  deriving Repr, DecidableEq

/-- The next call of a process: from `open` to `waitpid` in a parent, from `set_fl` to
`read` in its child, with what the child has said. -/
inductive Pc where
  | open_
  | write
  | fchmod
  | writeLock
  | fork
  | waitpid (pid : Pid)
  | setFl
  | readLock
  | lseek
  | read
  | exited (status : Nat) (said : List Line)
  deriving Repr, DecidableEq

structure State where
  locks : List Lock
  file : List UInt8
  procs : Pid -> Option Pc

/-- `ok` is the outcome of a call that nothing is in the way of, `n` the number of
bytes that `write` has written. -/
inductive Label where
  | spawn (p : Pid)
  | call (p : Pid) (ok : Bool)
  | write (p : Pid) (n : Nat)
  | fork (p : Pid) (pid : Option Pid)
  deriving DecidableEq

def goto (s : State) (p : Pid) (pc : Pc) : State :=
  { s with procs := Function.update s.procs p (some pc) }

/-- The end of a process takes its locks away. -/
def exit (s : State) (p : Pid) (status : Nat) (said : List Line) : State :=
  goto { s with locks := release s.locks p.1 } p (Pc.exited status said)

/-- The file as `open` with `O_RDWR` has it. -/
def opened (s : State) (offset : Int) : OpenFile where
  readable := true
  writable := true
  offset := offset
  size := s.file.length

/-- `write_lock(fd, 0, SEEK_SET, 0)` -/
def write_lock (s : State) (p : Pid) : Int × List Lock :=
  setLock s.locks p (opened s 6) (some LockType.F_WRLCK) 0 0 0

/-- `read_lock(fd, 0, SEEK_SET, 0)` -/
def read_lock (s : State) (p : Pid) : Int × List Lock :=
  setLock s.locks p (opened s 6) (some LockType.F_RDLCK) 0 0 0

/-- `fcntl(fd, F_GETFL, 0)` and `fcntl(fd, F_SETFL, val)`, of which one may fail. -/
def set_fl (s : State) (p : Pid) (ok : Bool) : State :=
  if ok then goto s p Pc.readLock else exit s p 1 []

def spawn (s : State) (p : Pid) : Option State :=
  match s.procs p with
  | none => some (goto s p Pc.open_)
  | some _ => none

def call (s : State) (p : Pid) (ok : Bool) : Option State :=
  match s.procs p with
  | some Pc.open_ =>
      -- `O_TRUNC`
      if ok then some (goto { s with file := [] } p Pc.write) else some (exit s p 1 [])
  | some Pc.fchmod => if ok then some (goto s p Pc.writeLock) else some (exit s p 1 [])
  | some Pc.writeLock =>
      if ok ∧ (write_lock s p).1 = 0 then
        some (goto { s with locks := (write_lock s p).2 } p Pc.fork)
      else
        some (exit s p 1 [])
  | some (Pc.waitpid c) =>
      match s.procs c with
      | some (Pc.exited _ _) => some (exit s p (if ok then 0 else 1) [])
      | _ => none
  | some Pc.setFl => some (set_fl s p ok)
  | some Pc.readLock =>
      if ok ∧ (read_lock s p).1 = 0 then
        some (exit { s with locks := (read_lock s p).2 } p 1 [Line.succeeded])
      else
        some (goto s p Pc.lseek)
  | some Pc.lseek => if ok then some (goto s p Pc.read) else some (exit s p 1 [Line.refused])
  | some Pc.read =>
      if ok then
        some (exit s p 0 [Line.refused, Line.bytes (s.file.take 2)])
      else
        some (exit s p 1 [Line.refused, Line.failed])
  | _ => none

/-- `write(fd, "abcdef", 6)` at the beginning of the file. -/
def write (s : State) (p : Pid) (n : Nat) : Option State :=
  match s.procs p with
  | some Pc.write =>
      if n ≤ 6 then
        let s := { s with file := data.take n ++ s.file.drop n }
        if n = 6 then some (goto s p Pc.fchmod) else some (exit s p 1 [])
      else
        none
  | _ => none

def fork (s : State) (p : Pid) (pid : Option Pid) : Option State :=
  match s.procs p, pid with
  | some Pc.fork, some c =>
      match s.procs c with
      | none => some (goto (goto s p (Pc.waitpid c)) c Pc.setFl)
      | some _ => none
  | some Pc.fork, none => some (exit s p 1 [])
  | _, _ => none

def step (s : State) : Label -> Option State
  | Label.spawn p => spawn s p
  | Label.call p ok => call s p ok
  | Label.write p n => write s p n
  | Label.fork p pid => fork s p pid

def start (s : State) : Prop :=
  s.locks = [] ∧ forall p, s.procs p = none

def machine : Machine State Label where
  init := start
  step := step

/-!
# The invariant
-/

/-- The lock is held from `write_lock` to the end. -/
def Pc.locked : Pc -> Bool
  | Pc.fork => true
  | Pc.waitpid _ => true
  | _ => false

def Pc.child : Pc -> Bool
  | Pc.setFl => true
  | Pc.readLock => true
  | Pc.lseek => true
  | Pc.read => true
  | _ => false

def Pc.begun : Pc -> Bool
  | Pc.open_ => false
  | Pc.exited _ _ => false
  | _ => true

def Pc.said : Pc -> List Line
  | Pc.exited _ said => said
  | _ => []

def Locked (s : State) (p : Pid) : Prop :=
  exists pc, s.procs p = some pc ∧ pc.locked = true

def LineOk : Line -> Prop
  | Line.succeeded => False
  | Line.refused => True
  | Line.failed => True
  | Line.bytes xs => xs <+: data.take 2

structure Inv (s : State) : Prop where
  exclusive : Exclusive s.locks
  proper : Proper s.locks
  holds : forall p b t, Holds s.locks p b t ->
    exists q : Pid, q.1 = p ∧ Locked s q ∧ whole.Covers b ∧ t = LockType.F_WRLCK
  locked : forall q, Locked s q -> forall b, whole.Covers b ->
    Holds s.locks q.1 b LockType.F_WRLCK
  parent : forall c pc, s.procs c = some pc -> pc.child = true ->
    exists p, p ≠ c ∧ s.procs p = some (Pc.waitpid c)
  content : forall p pc, s.procs p = some pc -> pc.begun = true -> s.file <+: data
  said : forall p pc, s.procs p = some pc -> forall line, line ∈ pc.said -> LineOk line

section

variable {s t : State} {p q : Pid} {pc pc' : Pc}

theorem goto_same : (goto s p pc).procs p = some pc := by
  unfold goto
  exact Function.update_self p _ s.procs

theorem goto_other (hne : q ≠ p) : (goto s p pc).procs q = s.procs q := by
  unfold goto
  exact Function.update_of_ne hne _ s.procs

theorem locked_goto :
    Locked (goto s p pc) q ↔ (q = p ∧ pc.locked = true) ∨ (q ≠ p ∧ Locked s q) := by
  unfold Locked
  by_cases hq : q = p
  · rw [hq, goto_same]
    constructor
    · rintro ⟨pc', hpc, hlocked⟩
      cases hpc
      exact Or.inl ⟨rfl, hlocked⟩
    · rintro (⟨_, hlocked⟩ | ⟨hne, _⟩)
      · exact ⟨pc, rfl, hlocked⟩
      · exact absurd rfl hne
  · rw [goto_other hq]
    constructor
    · exact fun hlocked => Or.inr ⟨hq, hlocked⟩
    · rintro (⟨heq, _⟩ | ⟨_, hlocked⟩)
      · exact absurd heq hq
      · exact hlocked

theorem locked_iff (hp : s.procs p = some pc) : Locked s p ↔ pc.locked = true := by
  constructor
  · rintro ⟨pc', hpc, hlocked⟩
    rw [hp] at hpc
    cases hpc
    exact hlocked
  · exact fun hlocked => ⟨pc, hp, hlocked⟩

theorem not_locked_of_none (hp : s.procs p = none) : ¬ Locked s p := by
  rintro ⟨pc, hpc, _⟩
  rw [hp] at hpc
  cases hpc

theorem not_holds_of_not_locked {b : Int} {u : LockType} (h : Inv s) (hp : ¬ Locked s p) :
    ¬ Holds s.locks p.1 b u := by
  intro hold
  rcases h.holds p.1 b u hold with ⟨q, hq, hlocked, _⟩
  rw [Subtype.ext hq] at hlocked
  exact hp hlocked

theorem start_inv (h : start s) : Inv s := by
  rcases h with ⟨hlocks, hnone⟩
  refine ⟨?_, ?_, ?_, ?_, ?_, ?_, ?_⟩
  · rw [hlocks]
    exact Exclusive.nil
  · rw [hlocks]
    nofun
  · intro p b u hold
    rw [hlocks] at hold
    exact (holds_nil.mp hold).elim
  · intro q hq
    exact absurd hq (not_locked_of_none (hnone q))
  · intro c pc hc
    rw [hnone c] at hc
    cases hc
  · intro q pc hq
    rw [hnone q] at hq
    cases hq
  · intro q pc hq
    rw [hnone q] at hq
    cases hq

structure Points (s : State) : Prop where
  parent : forall c pc, s.procs c = some pc -> pc.child = true ->
    exists p, p ≠ c ∧ s.procs p = some (Pc.waitpid c)
  content : forall p pc, s.procs p = some pc -> pc.begun = true -> s.file <+: data
  said : forall p pc, s.procs p = some pc -> forall line, line ∈ pc.said -> LineOk line

theorem Inv.points (h : Inv s) : Points s :=
  ⟨h.parent, h.content, h.said⟩

/-- A process goes on; as a child it has a parent that waits, and it stops waiting for
a child only when this has ended. -/
theorem Points.goto (h : Points s) (p : Pid) (pc' : Pc)
    (hchild : pc'.child = true -> exists q, q ≠ p ∧ s.procs q = some (Pc.waitpid p))
    (hwait : forall c pcc, s.procs p = some (Pc.waitpid c) -> s.procs c = some pcc ->
      pcc.child = false)
    (hbegun : pc'.begun = true -> s.file <+: data)
    (hsaid : forall line, line ∈ pc'.said -> LineOk line) : Points (goto s p pc') := by
  refine ⟨?_, ?_, ?_⟩
  · intro c pcc hc hrunning
    by_cases hcp : c = p
    · rw [hcp, goto_same] at hc
      cases hc
      rcases hchild hrunning with ⟨q, hq, hparent⟩
      rw [hcp]
      exact ⟨q, hq, (goto_other hq).trans hparent⟩
    · rw [goto_other hcp] at hc
      rcases h.parent c pcc hc hrunning with ⟨q, hq, hparent⟩
      have hqp : q ≠ p := by
        intro heq
        rw [heq] at hparent
        rw [hwait c pcc hparent hc] at hrunning
        cases hrunning
      exact ⟨q, hq, (goto_other hqp).trans hparent⟩
  · intro q pcq hq hrunning
    by_cases hqp : q = p
    · rw [hqp, goto_same] at hq
      cases hq
      exact hbegun hrunning
    · rw [goto_other hqp] at hq
      exact h.content q pcq hq hrunning
  · intro q pcq hq line hline
    by_cases hqp : q = p
    · rw [hqp, goto_same] at hq
      cases hq
      exact hsaid line hline
    · rw [goto_other hqp] at hq
      exact h.said q pcq hq line hline

theorem Inv.goto (h : Inv s) (hlocked : pc'.locked = true ↔ Locked s p)
    (hpoints : Points (goto s p pc')) : Inv (goto s p pc') := by
  have hsame : forall q, Locked (Mandlock.goto s p pc') q ↔ Locked s q := by
    intro q
    by_cases hq : q = p
    · rw [hq, locked_iff goto_same, hlocked]
    · rw [locked_goto]
      constructor
      · rintro (⟨heq, _⟩ | ⟨_, hlocked⟩)
        · exact absurd heq hq
        · exact hlocked
      · exact fun hlocked => Or.inr ⟨hq, hlocked⟩
  refine ⟨h.exclusive, h.proper, ?_, ?_, hpoints.parent, hpoints.content, hpoints.said⟩
  · intro r b u hold
    rcases h.holds r b u hold with ⟨q, hq, hlocked, hrest⟩
    exact ⟨q, hq, (hsame q).mpr hlocked, hrest⟩
  · intro q hq
    exact h.locked q ((hsame q).mp hq)

theorem Inv.exit {status : Nat} {said : List Line} (h : Inv s)
    (hwait : forall c pcc, s.procs p = some (Pc.waitpid c) -> s.procs c = some pcc ->
      pcc.child = false)
    (hsaid : forall line, line ∈ said -> LineOk line) : Inv (exit s p status said) := by
  have hpoints := h.points.goto p (Pc.exited status said) nofun hwait nofun hsaid
  refine ⟨h.exclusive.release, h.proper.release, ?_, ?_, hpoints.parent, hpoints.content,
    hpoints.said⟩
  · intro r b u hold
    rcases holds_release.mp hold with ⟨hold, hne⟩
    rcases h.holds r b u hold with ⟨q, hq, hlocked, hrest⟩
    refine ⟨q, hq, locked_goto.mpr (Or.inr ⟨?_, hlocked⟩), hrest⟩
    intro heq
    rw [heq] at hq
    exact hne hq.symm
  · intro q hq b hb
    rcases locked_goto.mp hq with ⟨_, hfalse⟩ | ⟨hne, hlocked⟩
    · cases hfalse
    · apply holds_release.mpr
      exact ⟨h.locked q hlocked b hb, fun heq => hne (Subtype.ext heq)⟩

theorem no_wait (hp : s.procs p = some pc) (hpc : forall c, pc ≠ Pc.waitpid c) :
    forall c pcc, s.procs p = some (Pc.waitpid c) -> s.procs c = some pcc ->
      pcc.child = false := by
  intro c pcc hc
  rw [hp] at hc
  cases hc
  exact absurd rfl (hpc c)

theorem Inv.move (h : Inv s) (hp : s.procs p = some pc) (hpc : forall c, pc ≠ Pc.waitpid c)
    (hlocked : pc'.locked = pc.locked) (hchild : pc'.child = true -> pc.child = true)
    (hbegun : pc'.begun = true -> s.file <+: data) (hsaid : pc'.said = []) :
    Inv (Mandlock.goto s p pc') := by
  apply h.goto
  · rw [locked_iff hp, hlocked]
  · apply h.points.goto p pc' _ (no_wait hp hpc) hbegun
    · intro line hline
      rw [hsaid] at hline
      cases hline
    · intro hrunning
      exact h.parent p pc hp (hchild hrunning)

theorem Inv.file {file : List UInt8} (h : Inv s) (hfile : file <+: data) :
    Inv { s with file := file } where
  exclusive := h.exclusive
  proper := h.proper
  holds := h.holds
  locked := h.locked
  parent := h.parent
  content := fun _ _ _ _ => hfile
  said := h.said

theorem Inv.spawn (h : Inv s) (hstep : spawn s p = some t) : Inv t := by
  unfold Mandlock.spawn at hstep
  split at hstep
  · next hnone =>
      cases hstep
      apply h.goto
      · exact iff_of_false nofun (not_locked_of_none hnone)
      · apply h.points.goto p Pc.open_ nofun _ nofun nofun
        intro c pcc hc
        rw [hnone] at hc
        cases hc
  · cases hstep

theorem Inv.refused (h : Inv s) (hp : s.procs p = some pc) (hchild : pc.child = true) :
    (read_lock s p).1 ≠ 0 := by
  rcases h.parent p pc hp hchild with ⟨q, hne, hq⟩
  have hb : whole.Covers 0 := by decide
  have hold := h.locked q ⟨_, hq, rfl⟩ 0 hb
  intro hret
  unfold read_lock at hret
  rcases setLock_cases s.locks p (opened s 6) (some LockType.F_RDLCK) 0 0 0 with
    heq | ⟨r, hnone, _⟩ | ⟨r, u, _, hr, hfree, _⟩
  · rw [heq] at hret
    cases hret
  · cases hnone
  · rw [regionOf_whole] at hr
    cases hr
    cases (hfree.of_holds (fun heq => hne (Subtype.ext heq)) hb hold).1

theorem Inv.write_lock (h : Inv s) (hp : s.procs p = some Pc.writeLock)
    (hret : (write_lock s p).1 = 0) :
    Inv (Mandlock.goto { s with locks := (write_lock s p).2 } p Pc.fork) := by
  have hnot : ¬ Locked s p := by
    rw [locked_iff hp]
    decide
  have hpoints := h.points.goto p Pc.fork nofun (no_wait hp nofun)
    (fun _ => h.content p _ hp rfl) nofun
  have hother : forall q : Pid, q ≠ p -> forall b u,
      Holds (Mandlock.write_lock s p).2 q.1 b u ↔ Holds s.locks q.1 b u := by
    intro q hq b u
    exact holds_setLock_other (fun heq => hq (Subtype.ext heq))
  have hself : forall b u,
      Holds (Mandlock.write_lock s p).2 p.1 b u ↔ whole.Covers b ∧ u = LockType.F_WRLCK := by
    intro b u
    exact holds_setLock_self (regionOf_whole _)
      (fun b u => not_holds_of_not_locked h hnot) hret
  refine ⟨h.exclusive.setLock, h.proper.setLock, ?_, ?_, hpoints.parent, hpoints.content,
    hpoints.said⟩
  · intro r b u hold
    by_cases hr : r = p.1
    · rw [hr] at hold
      rcases (hself b u).mp hold with ⟨hb, hu⟩
      exact ⟨p, hr.symm, ⟨Pc.fork, goto_same, rfl⟩, hb, hu⟩
    · have hbefore : Holds s.locks r b u := (holds_setLock_other hr).mp hold
      rcases h.holds r b u hbefore with ⟨q, hq, hlocked, hrest⟩
      have hqp : q ≠ p := fun heq => hr (by rw [← hq, heq])
      exact ⟨q, hq, locked_goto.mpr (Or.inr ⟨hqp, hlocked⟩), hrest⟩
  · intro q hq b hb
    rcases locked_goto.mp hq with ⟨heq, _⟩ | ⟨hne, hlocked⟩
    · rw [heq]
      exact (hself b _).mpr ⟨hb, rfl⟩
    · exact (hother q hne b _).mpr (h.locked q hlocked b hb)

theorem Inv.call {ok : Bool} (h : Inv s) (hstep : call s p ok = some t) : Inv t := by
  unfold Mandlock.call at hstep
  split at hstep
  · next hp =>
      split at hstep
      · cases hstep
        have hempty : Inv { s with file := [] } := h.file List.nil_prefix
        exact hempty.move hp nofun rfl nofun (fun _ => List.nil_prefix) rfl
      · cases hstep
        exact h.exit (no_wait hp nofun) nofun
  · next hp =>
      split at hstep
      · cases hstep
        exact h.move hp nofun rfl nofun (fun _ => h.content p _ hp rfl) rfl
      · cases hstep
        exact h.exit (no_wait hp nofun) nofun
  · next hp =>
      split at hstep
      · next hret =>
          cases hstep
          exact h.write_lock hp hret.2
      · cases hstep
        exact h.exit (no_wait hp nofun) nofun
  · next c hp =>
      split at hstep
      · next status said hc =>
          cases hstep
          apply h.exit
          · intro d pcd hd hpcd
            rw [hp] at hd
            cases hd
            rw [hc] at hpcd
            cases hpcd
            rfl
          · nofun
      · cases hstep
  · next hp =>
      cases hstep
      unfold set_fl
      split
      · exact h.move hp nofun rfl (fun _ => rfl) (fun _ => h.content p _ hp rfl) rfl
      · exact h.exit (no_wait hp nofun) nofun
  · next hp =>
      split at hstep
      · next hret => exact absurd hret.2 (h.refused hp rfl)
      · cases hstep
        exact h.move hp nofun rfl (fun _ => rfl) (fun _ => h.content p _ hp rfl) rfl
  · next hp =>
      split at hstep
      · cases hstep
        exact h.move hp nofun rfl (fun _ => rfl) (fun _ => h.content p _ hp rfl) rfl
      · cases hstep
        apply h.exit (no_wait hp nofun)
        intro line hline
        rw [List.mem_singleton.mp hline]
        trivial
  · next hp =>
      split at hstep
      · cases hstep
        apply h.exit (no_wait hp nofun)
        intro line hline
        rcases List.mem_cons.mp hline with heq | hline
        · rw [heq]
          trivial
        · rw [List.mem_singleton.mp hline]
          exact List.prefix_take_iff.mpr
            ⟨(List.take_prefix 2 s.file).trans (h.content p _ hp rfl), List.length_take_le 2 _⟩
      · cases hstep
        apply h.exit (no_wait hp nofun)
        intro line hline
        rcases List.mem_cons.mp hline with heq | hline
        · rw [heq]
          trivial
        · rw [List.mem_singleton.mp hline]
          trivial
  · cases hstep

theorem splice_prefix {file : List UInt8} (h : file <+: data) (n : Nat) :
    data.take n ++ file.drop n <+: data := by
  rcases h with ⟨rest, hrest⟩
  rw [← hrest]
  by_cases hn : n ≤ file.length
  · rw [List.take_append_of_le_length hn, List.take_append_drop]
    exact List.prefix_append _ _
  · rw [List.drop_eq_nil_of_le (Nat.le_of_not_le hn), List.append_nil]
    exact List.take_prefix n _

theorem Inv.write {n : Nat} (h : Inv s) (hstep : write s p n = some t) : Inv t := by
  unfold Mandlock.write at hstep
  split at hstep
  · next hp =>
      have hfile := splice_prefix (h.content p _ hp rfl) n
      have hwritten : Inv { s with file := data.take n ++ s.file.drop n } := h.file hfile
      split at hstep
      · dsimp only at hstep
        split at hstep
        · cases hstep
          exact hwritten.move hp nofun rfl nofun (fun _ => hfile) rfl
        · cases hstep
          exact hwritten.exit (no_wait hp nofun) nofun
      · cases hstep
  · cases hstep

theorem Inv.fork {pid : Option Pid} (h : Inv s) (hstep : fork s p pid = some t) : Inv t := by
  unfold Mandlock.fork at hstep
  split at hstep
  · next c hp =>
      split at hstep
      · next hc =>
          cases hstep
          have hcontent := h.content p _ hp rfl
          have hcp : c ≠ p := by
            intro heq
            rw [heq, hp] at hc
            cases hc
          have hparent : Inv (Mandlock.goto s p (Pc.waitpid c)) :=
            h.move hp nofun rfl nofun (fun _ => hcontent) rfl
          have hnone : (Mandlock.goto s p (Pc.waitpid c)).procs c = none :=
            (goto_other hcp).trans hc
          apply hparent.goto
          · exact iff_of_false nofun (not_locked_of_none hnone)
          · apply hparent.points.goto c Pc.setFl _ _ (fun _ => hcontent) nofun
            · exact fun _ => ⟨p, hcp.symm, goto_same⟩
            · intro d pcd hd
              rw [hnone] at hd
              cases hd
      · cases hstep
  · next hp =>
      cases hstep
      exact h.exit (no_wait hp nofun) nofun
  · cases hstep

theorem Inv.after {l : Label} (h : Inv s) (hstep : step s l = some t) : Inv t := by
  cases l with
  | spawn p => exact h.spawn hstep
  | call p ok => exact h.call hstep
  | write p n => exact h.write hstep
  | fork p pid => exact h.fork hstep

theorem reachable_inv (h : machine.Reachable s) : Inv s :=
  Machine.invariant (I := Inv) (fun _ hs => start_inv hs)
    (fun _ _ _ hs hst => hs.after hst) h

end

/-!
# One run at a time
-/

def first : Pid := ⟨721, by decide⟩
def child : Pid := ⟨722, by decide⟩
def second : Pid := ⟨723, by decide⟩

def idle : State where
  locks := []
  file := [120]
  procs := fun _ => none

theorem idle_start : start idle :=
  ⟨rfl, fun _ => rfl⟩

/-- A second run truncates the file before the child of the first one has read from
it, and is refused the lock. -/
def twoRuns : List Label :=
  [Label.spawn first, Label.call first true, Label.write first 6, Label.call first true,
    Label.call first true, Label.fork first (some child), Label.call child true,
    Label.call child true, Label.spawn second, Label.call second true,
    Label.call child true, Label.call child true, Label.write second 6,
    Label.call second true, Label.call second true]

theorem idle_reachable {ls : List Label} {t : State}
    (hrun : machine.run idle ls = some t) : machine.Reachable t :=
  Machine.reachable_of_run (Machine.ReachableUnder.init idle_start) hrun

end Mandlock
end Apue
