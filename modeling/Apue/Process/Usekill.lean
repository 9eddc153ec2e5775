import Apue.Foundation.Transition
import Apue.Kernel.Processes
import Apue.Process.PrExit

/-!
# Signals to a child

A parent sends `SIGUSR1` to its child twice and waits for it.  The child installs a
handler and then pauses once; before that the signal ends it.  A signal is delivered
some time after it was sent, and two of them may become one.  All other processes
fork, exit and wait meanwhile, and send the two no signals.  The `SIGINT` that the
parent sends to itself at its end, and the `ps` that it runs, are left out.
-/

namespace Apue
namespace Usekill

open Foundation Processes
open PrExit (encode Ending)

inductive ParentPc where
  | fork
  | killUsr1 (pid : Pid)
  | killNull (pid : Pid)
  | killAgain (pid : Pid)
  | waitpid (pid : Pid)
  | killGone (pid : Pid)
  | exit
  | exited
  deriving Repr, DecidableEq

inductive ChildPc where
  | none
  | signal (pid : Pid)
  | pause (pid : Pid)
  | waiting (pid : Pid)
  | exit (pid : Pid) (status : Nat)
  | ended (pid : Pid)
  deriving Repr, DecidableEq

/-- Whether `SIGUSR1` is pending for the child, and the values of `i` that the parent
has printed. -/
structure State where
  table : Table
  parent : ParentPc
  child : ChildPc
  pending : Bool
  printed : List Int

inductive Label where
  | fork (pid : Option Pid)
  | killUsr1
  | killNull
  | killAgain
  | waitpid
  | killGone
  | exit
  | childSignal (ok : Bool)
  | childPause
  | childDeliver
  | childExit
  | other (a : Act)
  deriving Repr, DecidableEq

def SIGUSR1 : Nat := 10

def ChildPc.pid : ChildPc -> Option Pid
  | ChildPc.signal c => some c
  | ChildPc.pause c => some c
  | ChildPc.waiting c => some c
  | ChildPc.exit c _ => some c
  | _ => Option.none

def fork (p : Pid) (s : State) (pid : Option Pid) : Option State :=
  match s.parent, pid with
  | ParentPc.fork, some c =>
      (Processes.fork s.table p c).map
        (fun t => { s with table := t, parent := ParentPc.killUsr1 c, child := ChildPc.signal c })
  | ParentPc.fork, none =>
      (exit s.table p 1).map (fun t => { s with table := t, parent := ParentPc.exited })
  | _, _ => none

def killed (s : State) (c : Pid) : Int :=
  if kill s.table c then 0 else -1

/-- `kill(pid, SIGUSR1)`; a zombie takes no notice. -/
def send (s : State) (c : Pid) : State :=
  { s with pending := s.pending || s.child.pid = some c }

def killUsr1 (p : Pid) (s : State) : Option State :=
  match s.parent with
  | ParentPc.killUsr1 c =>
      if killed s c < 0 then
        (exit s.table p 1).map (fun t => { s with table := t, parent := ParentPc.exited })
      else
        some { send s c with parent := ParentPc.killNull c }
  | _ => none

def killNull (s : State) : Option State :=
  match s.parent with
  | ParentPc.killNull c =>
      some { s with parent := ParentPc.killAgain c, printed := s.printed ++ [killed s c] }
  | _ => none

def killAgain (s : State) : Option State :=
  match s.parent with
  | ParentPc.killAgain c =>
      some { send s c with parent := ParentPc.waitpid c, printed := s.printed ++ [killed s c] }
  | _ => none

def waitpid (p : Pid) (s : State) : Option State :=
  match s.parent with
  | ParentPc.waitpid c =>
      (Processes.waitpid s.table p c).bind
        (fun r =>
          match r.1 with
          | some _ => some { s with table := r.2, parent := ParentPc.killGone c }
          | none =>
              (exit r.2 p 1).map (fun t => { s with table := t, parent := ParentPc.exited }))
  | _ => none

def killGone (s : State) : Option State :=
  match s.parent with
  | ParentPc.killGone c =>
      some { s with parent := ParentPc.exit, printed := s.printed ++ [killed s c] }
  | _ => none

def parentExit (p : Pid) (s : State) : Option State :=
  match s.parent with
  | ParentPc.exit =>
      (exit s.table p 0).map (fun t => { s with table := t, parent := ParentPc.exited })
  | _ => none

def childSignal (s : State) (ok : Bool) : Option State :=
  match s.child with
  | ChildPc.signal c =>
      some { s with child := if ok then ChildPc.pause c else ChildPc.exit c 1 }
  | _ => none

def childPause (s : State) : Option State :=
  match s.child with
  | ChildPc.pause c => some { s with child := ChildPc.waiting c }
  | _ => none

def finish (s : State) (c : Pid) (status : Nat) : Option State :=
  (exit s.table c status).map (fun t => { s with table := t, child := ChildPc.ended c })

/-- Without a handler the signal ends the child; after `sig_usr1` a `pause` returns. -/
def childDeliver (s : State) : Option State :=
  if s.pending then
    let s := { s with pending := false }
    match s.child with
    | ChildPc.signal c =>
        finish s c (encode (Ending.signaled SIGUSR1 (by decide) (by decide) false))
    | ChildPc.pause _ => some s
    | ChildPc.waiting c => some { s with child := ChildPc.exit c 0 }
    | ChildPc.exit _ _ => some s
    | _ => none
  else
    none

def childExit (s : State) : Option State :=
  match s.child with
  | ChildPc.exit c status => finish s c (encode (Ending.exited status))
  | _ => none

def other (p : Pid) (s : State) (a : Act) : Option State :=
  if (s.parent ≠ ParentPc.exited ∧ a.by_ = p) ∨ s.child.pid = some a.by_ then
    none
  else
    (act s.table a).map (fun t => { s with table := t })

def step (p : Pid) (s : State) : Label -> Option State
  | Label.fork pid => fork p s pid
  | Label.killUsr1 => killUsr1 p s
  | Label.killNull => killNull s
  | Label.killAgain => killAgain s
  | Label.waitpid => waitpid p s
  | Label.killGone => killGone s
  | Label.exit => parentExit p s
  | Label.childSignal ok => childSignal s ok
  | Label.childPause => childPause s
  | Label.childDeliver => childDeliver s
  | Label.childExit => childExit s
  | Label.other a => other p s a

def start (p : Pid) (s : State) : Prop :=
  p ≠ init ∧ Running s.table init ∧ Running s.table p ∧ s.parent = ParentPc.fork ∧
    s.child = ChildPc.none ∧ s.pending = false ∧ s.printed = []

def machine (p : Pid) : Machine State Label where
  init := start p
  step := step p

/-!
# The invariant
-/

def ParentPc.target : ParentPc -> Option Pid
  | ParentPc.killUsr1 c => some c
  | ParentPc.killNull c => some c
  | ParentPc.killAgain c => some c
  | ParentPc.waitpid c => some c
  | _ => Option.none

def ParentPc.sent : ParentPc -> Bool
  | ParentPc.killNull _ => true
  | ParentPc.killAgain _ => true
  | ParentPc.waitpid _ => true
  | _ => false

def Printed (xs : List Int) : ParentPc -> Prop
  | ParentPc.fork => xs = []
  | ParentPc.killUsr1 _ => xs = []
  | ParentPc.killNull _ => xs = []
  | ParentPc.killAgain _ => xs = [0]
  | ParentPc.waitpid _ => xs = [0, 0]
  | ParentPc.killGone _ => xs = [0, 0]
  | ParentPc.exit => exists i, xs = [0, 0, i]
  | ParentPc.exited => xs = [] ∨ exists i, xs = [0, 0, i]

structure Inv (p : Pid) (s : State) : Prop where
  apart : p ≠ Processes.init
  init : Running s.table Processes.init
  running : s.parent ≠ ParentPc.exited -> Running s.table p
  before : s.child = ChildPc.none -> s.parent = ParentPc.fork ∨ s.parent = ParentPc.exited
  alive : forall c, s.child.pid = some c ->
    s.parent.target = some c ∧ c ≠ p ∧ c ≠ Processes.init ∧
      s.table c = some { parent := p, life := Life.running }
  ended : forall c, s.child = ChildPc.ended c -> s.parent ≠ ParentPc.fork ∧
    forall d, s.parent.target = some d -> d = c ∧ c ≠ p ∧
      exists status, s.table c = some { parent := p, life := Life.zombie status }
  sent : forall c, s.child = ChildPc.signal c -> s.parent.sent = true -> s.pending = true
  printed : Printed s.printed s.parent
  gone : forall c, s.parent = ParentPc.killGone c -> ¬ Child s.table p c

section

variable {p : Pid} {s t : State}

theorem start_inv (h : start p s) : Inv p s := by
  rcases h with ⟨hapart, hinit, hrunning, hparent, hchild, _, hprinted⟩
  refine ⟨hapart, hinit, fun _ => hrunning, fun _ => Or.inl hparent, ?_, ?_, ?_, ?_, ?_⟩
  · intro c hc
    rw [hchild] at hc
    cases hc
  · intro c hc
    rw [hchild] at hc
    cases hc
  · intro c hc
    rw [hchild] at hc
    cases hc
  · rw [hparent]
    exact hprinted
  · intro c hc
    rw [hparent] at hc
    cases hc

theorem Inv.of_act {a : Act} {u : Table} (h : Inv p s) (hact : act s.table a = some u)
    (hp : s.parent ≠ ParentPc.exited -> a.by_ ≠ p)
    (hc : s.child.pid ≠ some a.by_) : Inv p { s with table := u } := by
  have htarget : forall c, s.parent.target = some c -> a.by_ ≠ p := by
    intro c htarget
    apply hp
    intro heq
    rw [heq] at htarget
    cases htarget
  refine ⟨h.apart, act_init hact h.init, fun hne => act_running hact (h.running hne) (hp hne),
    h.before, ?_, ?_, h.sent, h.printed, ?_⟩
  · intro c hpid
    rcases h.alive c hpid with ⟨hparent, hcp, hci, hentry⟩
    refine ⟨hparent, hcp, hci, act_entry hact hentry ?_ (htarget c hparent)⟩
    exact fun heq => hc (by rw [heq]; exact hpid)
  · intro c hended
    rcases h.ended c hended with ⟨hfork, hzombie⟩
    refine ⟨hfork, ?_⟩
    intro d hd
    rcases hzombie d hd with ⟨hdc, hcp, status, hentry⟩
    refine ⟨hdc, hcp, status, act_entry hact hentry ?_ (htarget d hd)⟩
    intro heq
    have hrunning := act_by_running hact
    rw [heq] at hrunning
    unfold Running at hrunning
    rw [hentry] at hrunning
    cases hrunning
  · intro c hgone hchild
    have hself : a.by_ ≠ p := hp (by rw [hgone]; nofun)
    exact h.gone c hgone (act_child hact hself h.apart hchild)

theorem Inv.other {a : Act} (h : Inv p s) (hstep : other p s a = some t) : Inv p t := by
  unfold Usekill.other at hstep
  split at hstep
  · cases hstep
  · next hmine =>
      rcases Option.map_eq_some_iff.mp hstep with ⟨u, hact, heq⟩
      cases heq
      exact h.of_act hact (fun hne heq => hmine (Or.inl ⟨hne, heq⟩))
        (fun heq => hmine (Or.inr heq))

theorem Inv.target_cases {c : Pid} (h : Inv p s) (htarget : s.parent.target = some c) :
    s.child.pid = some c ∨ (s.child = ChildPc.ended c ∧
      exists status, s.table c = some { parent := p, life := Life.zombie status }) := by
  cases hpid : s.child.pid with
  | some d =>
      have hd := (h.alive d hpid).1
      rw [htarget] at hd
      cases hd
      exact Or.inl rfl
  | none =>
      right
      cases hchild : s.child with
      | none =>
          rcases h.before hchild with hfork | hexited
          · rw [hfork] at htarget
            cases htarget
          · rw [hexited] at htarget
            cases htarget
      | ended d =>
          rcases (h.ended d hchild).2 c htarget with ⟨hcd, _, hzombie⟩
          rw [hcd]
          exact ⟨rfl, hzombie⟩
      | _ =>
          rw [hchild] at hpid
          cases hpid

theorem Inv.killed_eq {c : Pid} (h : Inv p s) (htarget : s.parent.target = some c) :
    killed s c = 0 := by
  have hentry : kill s.table c = true := by
    unfold kill
    rcases h.target_cases htarget with hpid | ⟨_, status, hzombie⟩
    · rw [(h.alive c hpid).2.2.2]
      rfl
    · rw [hzombie]
      rfl
  unfold killed
  rw [if_pos hentry]

theorem Inv.goto_parent {c : Pid} {pc : ParentPc} {b : Bool} {xs : List Int} (h : Inv p s)
    (hold : s.parent.target = some c) (hnew : pc.target = some c)
    (hsent : forall d, s.child = ChildPc.signal d -> pc.sent = true -> b = true)
    (hprinted : Printed xs pc) :
    Inv p { s with parent := pc, pending := b, printed := xs } := by
  have hne : forall q, q.target = Option.none -> s.parent ≠ q := by
    intro q hq heq
    rw [heq, hq] at hold
    cases hold
  refine ⟨h.apart, h.init, fun _ => h.running (hne _ rfl), ?_, ?_, ?_, hsent, hprinted, ?_⟩
  · intro hchild
    rcases h.before hchild with hfork | hexited
    · exact absurd hfork (hne _ rfl)
    · exact absurd hexited (hne _ rfl)
  · intro d hd
    rcases h.alive d hd with ⟨htarget, hrest⟩
    rw [hold] at htarget
    exact ⟨hnew.trans htarget, hrest⟩
  · intro d hd
    rcases h.ended d hd with ⟨_, hzombie⟩
    refine ⟨?_, ?_⟩
    · intro hfork
      rw [show pc = ParentPc.fork from hfork] at hnew
      cases hnew
    · intro e he
      apply hzombie e
      rw [hold, ← hnew]
      exact he
  · intro d hgone
    rw [show pc = ParentPc.killGone d from hgone] at hnew
    cases hnew

theorem Inv.fork {pid : Option Pid} (h : Inv p s) (hstep : fork p s pid = some t) :
    Inv p t := by
  have hnone : s.parent = ParentPc.fork -> s.child = ChildPc.none := by
    intro hparent
    cases hchild : s.child with
    | none => rfl
    | ended c => exact absurd hparent (h.ended c hchild).1
    | _ =>
        have htarget := (h.alive _ (by rw [hchild]; rfl)).1
        rw [hparent] at htarget
        cases htarget
  unfold Usekill.fork at hstep
  split at hstep
  · next c hparent =>
      rcases Option.map_eq_some_iff.mp hstep with ⟨u, hfork, heq⟩
      cases heq
      rcases fork_eq_some hfork with ⟨hrunning, hfree, hu⟩
      have hact : act s.table (Act.fork p c) = some u := hfork
      have hprinted := h.printed
      rw [hparent] at hprinted
      refine ⟨h.apart, act_init hact h.init, fun _ => act_keeps_running hact hrunning nofun,
        nofun, ?_, nofun, nofun, hprinted, nofun⟩
      intro d hd
      cases hd
      refine ⟨rfl, ne_of_free hrunning hfree, ne_of_free h.init hfree, ?_⟩
      show u c = _
      rw [hu, Function.update_self]
  · next hparent =>
      rcases Option.map_eq_some_iff.mp hstep with ⟨u, hexit, heq⟩
      cases heq
      have hact : act s.table (Act.exit p 1) = some u := hexit
      have hprinted := h.printed
      rw [hparent] at hprinted
      refine ⟨h.apart, act_init hact h.init, fun hne => absurd rfl hne,
        fun _ => Or.inr rfl, ?_, ?_, nofun, Or.inl hprinted, nofun⟩
      · intro d hd
        change s.child.pid = some d at hd
        rw [hnone hparent] at hd
        cases hd
      · intro d hd
        change s.child = _ at hd
        rw [hnone hparent] at hd
        cases hd
  · cases hstep

theorem send_pending {c : Pid} (h : s.child.pid = some c) : (send s c).pending = true := by
  show (s.pending || decide (s.child.pid = some c)) = true
  rw [decide_eq_true h, Bool.or_true]

theorem Inv.send_pending {c d : Pid} (h : Inv p s) (htarget : s.parent.target = some c)
    (hd : s.child = ChildPc.signal d) : (send s c).pending = true := by
  apply Usekill.send_pending
  rcases h.target_cases htarget with hpid | ⟨hfalse, _⟩
  · exact hpid
  · rw [hd] at hfalse
    cases hfalse

theorem Inv.killUsr1 (h : Inv p s) (hstep : killUsr1 p s = some t) : Inv p t := by
  unfold Usekill.killUsr1 at hstep
  split at hstep
  · next c hparent =>
      have htarget : s.parent.target = some c := by
        rw [hparent]
        rfl
      rw [h.killed_eq htarget, if_neg (by decide)] at hstep
      cases hstep
      have hprinted := h.printed
      rw [hparent] at hprinted
      exact h.goto_parent htarget rfl (fun _ hd _ => h.send_pending htarget hd) hprinted
  · cases hstep

theorem Inv.killNull (h : Inv p s) (hstep : killNull s = some t) : Inv p t := by
  unfold Usekill.killNull at hstep
  split at hstep
  · next c hparent =>
      have htarget : s.parent.target = some c := by
        rw [hparent]
        rfl
      have hprinted := h.printed
      rw [hparent] at hprinted
      rw [h.killed_eq htarget, show s.printed = [] from hprinted] at hstep
      cases hstep
      exact h.goto_parent htarget rfl
        (fun d hd _ => h.sent d hd (by rw [hparent]; rfl)) rfl
  · cases hstep

theorem Inv.killAgain (h : Inv p s) (hstep : killAgain s = some t) : Inv p t := by
  unfold Usekill.killAgain at hstep
  split at hstep
  · next c hparent =>
      have htarget : s.parent.target = some c := by
        rw [hparent]
        rfl
      have hprinted := h.printed
      rw [hparent] at hprinted
      rw [h.killed_eq htarget, show s.printed = [0] from hprinted] at hstep
      cases hstep
      exact h.goto_parent htarget rfl (fun _ hd _ => h.send_pending htarget hd) rfl
  · cases hstep

theorem Inv.waitpid (h : Inv p s) (hstep : waitpid p s = some t) : Inv p t := by
  unfold Usekill.waitpid at hstep
  split at hstep
  · next c hparent =>
      have htarget : s.parent.target = some c := by
        rw [hparent]
        rfl
      have hprinted := h.printed
      rw [hparent] at hprinted
      rcases Option.bind_eq_some_iff.mp hstep with ⟨⟨r, u⟩, hwait, heq⟩
      rcases h.target_cases htarget with hpid | ⟨hended, status, hzombie⟩
      · rw [waitpid_running (h.alive c hpid).2.2.2] at hwait
        cases hwait
      · have hrunning : Running s.table p := h.running (by rw [hparent]; nofun)
        have hact : act s.table (Act.waitpid p c) = some u := by
          show wait s.table p c = some u
          unfold wait
          rw [if_pos hrunning, hwait]
          rfl
        rw [waitpid_zombie hzombie] at hwait
        cases hwait
        cases heq
        refine ⟨h.apart, act_init hact h.init, fun _ => act_keeps_running hact hrunning nofun,
          ?_, ?_, ?_, nofun, hprinted, ?_⟩
        · intro hnone
          change s.child = _ at hnone
          rw [hended] at hnone
          cases hnone
        · intro d hd
          change s.child.pid = some d at hd
          rw [hended] at hd
          cases hd
        · intro d _
          exact ⟨nofun, nofun⟩
        · intro d hd hchild
          cases hd
          rcases child_iff.mp hchild with ⟨life, hentry⟩
          change Function.update s.table c none c = _ at hentry
          rw [Function.update_self] at hentry
          cases hentry
  · cases hstep

theorem Inv.goto_end {u : Table} {pc : ParentPc} {xs : List Int} (h : Inv p s)
    (hold : s.parent.target = none) (hfork : s.parent ≠ ParentPc.fork)
    (hexited : s.parent ≠ ParentPc.exited)
    (hinit : Running u Processes.init) (hrunning : pc ≠ ParentPc.exited -> Running u p)
    (hnew : pc = ParentPc.exit ∨ pc = ParentPc.exited) (hprinted : Printed xs pc) :
    Inv p { s with table := u, parent := pc, printed := xs } := by
  have hpc : pc ≠ ParentPc.fork ∧ pc.target = none ∧ pc.sent = false ∧
      forall c, pc ≠ ParentPc.killGone c := by
    rcases hnew with heq | heq <;> rw [heq] <;> exact ⟨nofun, rfl, rfl, nofun⟩
  have hnone : forall c, s.child.pid ≠ some c := by
    intro c hc
    have htarget := (h.alive c hc).1
    rw [hold] at htarget
    cases htarget
  refine ⟨h.apart, hinit, hrunning, ?_, fun c hc => absurd hc (hnone c), ?_, ?_, hprinted,
    fun c hc => absurd hc (hpc.2.2.2 c)⟩
  · intro hchild
    rcases h.before hchild with heq | heq
    · exact absurd heq hfork
    · exact absurd heq hexited
  · intro c _
    refine ⟨hpc.1, ?_⟩
    intro d hd
    rw [show pc.target = some d from hd] at hpc
    cases hpc.2.1
  · intro c hc
    exact absurd (show s.child.pid = some c by rw [show s.child = _ from hc]; rfl) (hnone c)

theorem Inv.killGone (h : Inv p s) (hstep : killGone s = some t) : Inv p t := by
  unfold Usekill.killGone at hstep
  split at hstep
  · next c hparent =>
      cases hstep
      have hprinted := h.printed
      rw [hparent] at hprinted
      rw [show s.printed = [0, 0] from hprinted]
      exact h.goto_end (by rw [hparent]; rfl) (by rw [hparent]; nofun) (by rw [hparent]; nofun)
        h.init (fun _ => h.running (by rw [hparent]; nofun)) (Or.inl rfl) ⟨_, rfl⟩
  · cases hstep

theorem Inv.parentExit (h : Inv p s) (hstep : parentExit p s = some t) : Inv p t := by
  unfold Usekill.parentExit at hstep
  split at hstep
  · next hparent =>
      rcases Option.map_eq_some_iff.mp hstep with ⟨u, hexit, heq⟩
      cases heq
      have hact : act s.table (Act.exit p 0) = some u := hexit
      have hprinted := h.printed
      rw [hparent] at hprinted
      exact h.goto_end (by rw [hparent]; rfl) (by rw [hparent]; nofun) (by rw [hparent]; nofun)
        (act_init hact h.init) (fun hne => absurd rfl hne) (Or.inr rfl) (Or.inr hprinted)
  · cases hstep

theorem Inv.goto_child {c : Pid} {b : Bool} (h : Inv p s) (pc : ChildPc)
    (hold : s.child.pid = some c) (hnew : pc.pid = some c)
    (hpc : forall d, pc ≠ ChildPc.signal d) : Inv p { s with child := pc, pending := b } := by
  refine ⟨h.apart, h.init, h.running, ?_, ?_, ?_, fun d hd => absurd hd (hpc d), h.printed,
    h.gone⟩
  · intro hnone
    rw [show pc = ChildPc.none from hnone] at hnew
    cases hnew
  · intro d hd
    rw [show pc.pid = some d from hd] at hnew
    cases hnew
    exact h.alive c hold
  · intro d hd
    rw [show pc = ChildPc.ended d from hd] at hnew
    cases hnew

theorem Inv.finish {c : Pid} {status : Nat} {b : Bool} (h : Inv p s)
    (hc : s.child.pid = some c) (hstep : finish { s with pending := b } c status = some t) :
    Inv p t := by
  unfold Usekill.finish at hstep
  rcases Option.map_eq_some_iff.mp hstep with ⟨u, hexit, heq⟩
  cases heq
  rcases h.alive c hc with ⟨htarget, hcp, hci, hentry⟩
  have hact : act s.table (Act.exit c status) = some u := hexit
  have hne : forall q, q.target = Option.none -> s.parent ≠ q := by
    intro q hq heq
    rw [heq, hq] at htarget
    cases htarget
  refine ⟨h.apart, act_init hact h.init, fun hexited => act_running hact (h.running hexited) hcp,
    nofun, nofun, ?_, nofun, h.printed, ?_⟩
  · intro d hd
    cases hd
    refine ⟨hne _ rfl, ?_⟩
    intro e he
    rw [show s.parent.target = some e from he] at htarget
    cases htarget
    exact ⟨rfl, hcp, status, exit_same hexit hentry⟩
  · intro d hd
    exact absurd hd (hne _ rfl)

theorem Inv.childSignal {ok : Bool} (h : Inv p s) (hstep : childSignal s ok = some t) :
    Inv p t := by
  unfold Usekill.childSignal at hstep
  split at hstep
  · next c hchild =>
      cases hstep
      have hold : s.child.pid = some c := by
        rw [hchild]
        rfl
      cases ok with
      | true => exact h.goto_child (ChildPc.pause c) hold rfl nofun
      | false => exact h.goto_child (ChildPc.exit c 1) hold rfl nofun
  · cases hstep

theorem Inv.childPause (h : Inv p s) (hstep : childPause s = some t) : Inv p t := by
  unfold Usekill.childPause at hstep
  split at hstep
  · next c hchild =>
      cases hstep
      exact h.goto_child (ChildPc.waiting c) (by rw [hchild]; rfl) rfl nofun
  · cases hstep

theorem Inv.childDeliver (h : Inv p s) (hstep : childDeliver s = some t) : Inv p t := by
  unfold Usekill.childDeliver at hstep
  split at hstep
  · next hpending =>
      dsimp only at hstep
      cases hchild : s.child with
      | none =>
          rw [hchild] at hstep
          cases hstep
      | ended c =>
          rw [hchild] at hstep
          cases hstep
      | signal c =>
          rw [hchild] at hstep
          exact h.finish (by rw [hchild]; rfl) hstep
      | pause c =>
          rw [hchild] at hstep
          cases hstep
          exact h.goto_child (ChildPc.pause c) (by rw [hchild]; rfl) rfl nofun
      | waiting c =>
          rw [hchild] at hstep
          cases hstep
          exact h.goto_child (ChildPc.exit c 0) (by rw [hchild]; rfl) rfl nofun
      | exit c status =>
          rw [hchild] at hstep
          cases hstep
          exact h.goto_child (ChildPc.exit c status) (by rw [hchild]; rfl) rfl nofun
  · cases hstep

theorem Inv.childExit (h : Inv p s) (hstep : childExit s = some t) : Inv p t := by
  unfold Usekill.childExit at hstep
  split at hstep
  · next c status hchild =>
      exact h.finish (b := s.pending) (by rw [hchild]; rfl) hstep
  · cases hstep

theorem Inv.after {l : Label} (h : Inv p s) (hstep : step p s l = some t) : Inv p t := by
  cases l with
  | fork pid => exact h.fork hstep
  | killUsr1 => exact h.killUsr1 hstep
  | killNull => exact h.killNull hstep
  | killAgain => exact h.killAgain hstep
  | waitpid => exact h.waitpid hstep
  | killGone => exact h.killGone hstep
  | exit => exact h.parentExit hstep
  | childSignal ok => exact h.childSignal hstep
  | childPause => exact h.childPause hstep
  | childDeliver => exact h.childDeliver hstep
  | childExit => exact h.childExit hstep
  | other a => exact h.other hstep

theorem reachable_inv (h : (machine p).Reachable s) : Inv p s :=
  Machine.invariant (I := Inv p) (fun _ hs => start_inv hs)
    (fun _ _ _ hs hst => hs.after hst) h

/-!
# The lost signal
-/

/-- The parent waits for a child that no signal wakes any more. -/
def Lost (s : State) : Prop :=
  exists c, s.parent = ParentPc.waitpid c ∧ s.pending = false ∧
    (s.child = ChildPc.pause c ∨ s.child = ChildPc.waiting c)

theorem Lost.after {l : Label} (h : Lost s) (hinv : Inv p s) (hstep : step p s l = some t) :
    Lost t := by
  rcases h with ⟨c, hparent, hpending, hchild⟩
  have hpid : s.child.pid = some c := by
    rcases hchild with heq | heq <;> rw [heq] <;> rfl
  cases l with
  | other a =>
      have hother : Usekill.other p s a = some t := hstep
      unfold Usekill.other at hother
      split at hother
      · cases hother
      · rcases Option.map_eq_some_iff.mp hother with ⟨u, _, heq⟩
        cases heq
        exact ⟨c, hparent, hpending, hchild⟩
  | waitpid =>
      have hwait : Usekill.waitpid p s = some t := hstep
      unfold Usekill.waitpid at hwait
      rw [hparent] at hwait
      dsimp only at hwait
      rw [waitpid_running (hinv.alive c hpid).2.2.2] at hwait
      cases hwait
  | childPause =>
      have hpause : Usekill.childPause s = some t := hstep
      unfold Usekill.childPause at hpause
      rcases hchild with heq | heq
      · rw [heq] at hpause
        cases hpause
        exact ⟨c, hparent, hpending, Or.inr rfl⟩
      · rw [heq] at hpause
        cases hpause
  | childDeliver =>
      have hdeliver : Usekill.childDeliver s = some t := hstep
      unfold Usekill.childDeliver at hdeliver
      rw [hpending, if_neg (by decide)] at hdeliver
      cases hdeliver
  | childSignal ok =>
      have hsignal : Usekill.childSignal s ok = some t := hstep
      unfold Usekill.childSignal at hsignal
      rcases hchild with heq | heq <;> rw [heq] at hsignal <;> cases hsignal
  | childExit =>
      have hexit : Usekill.childExit s = some t := hstep
      unfold Usekill.childExit at hexit
      rcases hchild with heq | heq <;> rw [heq] at hexit <;> cases hexit
  | fork pid =>
      have hfork : Usekill.fork p s pid = some t := hstep
      unfold Usekill.fork at hfork
      rw [hparent] at hfork
      cases hfork
  | killUsr1 =>
      have hkill : Usekill.killUsr1 p s = some t := hstep
      unfold Usekill.killUsr1 at hkill
      rw [hparent] at hkill
      cases hkill
  | killNull =>
      have hkill : Usekill.killNull s = some t := hstep
      unfold Usekill.killNull at hkill
      rw [hparent] at hkill
      cases hkill
  | killAgain =>
      have hkill : Usekill.killAgain s = some t := hstep
      unfold Usekill.killAgain at hkill
      rw [hparent] at hkill
      cases hkill
  | killGone =>
      have hkill : Usekill.killGone s = some t := hstep
      unfold Usekill.killGone at hkill
      rw [hparent] at hkill
      cases hkill
  | exit =>
      have hexit : Usekill.parentExit p s = some t := hstep
      unfold Usekill.parentExit at hexit
      rw [hparent] at hexit
      cases hexit

theorem Lost.parent_eq (h : Lost s) : exists c, s.parent = ParentPc.waitpid c := by
  rcases h with ⟨c, hparent, _⟩
  exact ⟨c, hparent⟩

theorem not_lost_of_parent (h : forall c, s.parent ≠ ParentPc.waitpid c) : ¬ Lost s := by
  intro hlost
  rcases hlost.parent_eq with ⟨c, hparent⟩
  exact h c hparent

theorem not_lost_of_pending (h : s.pending = true) : ¬ Lost s := by
  rintro ⟨c, _, hpending, _⟩
  rw [h] at hpending
  cases hpending

theorem not_lost_of_child (h : forall c, s.child ≠ ChildPc.pause c ∧ s.child ≠ ChildPc.waiting c) :
    ¬ Lost s := by
  rintro ⟨c, _, _, hpause | hwaiting⟩
  · exact (h c).1 hpause
  · exact (h c).2 hwaiting

end

/-!
# The end of the program
-/

def Label.own : Label -> Bool
  | Label.other _ => false
  | _ => true

def ParentPc.weight : ParentPc -> Nat
  | ParentPc.fork => 12
  | ParentPc.killUsr1 _ => 6
  | ParentPc.killNull _ => 5
  | ParentPc.killAgain _ => 4
  | ParentPc.waitpid _ => 3
  | ParentPc.killGone _ => 2
  | ParentPc.exit => 1
  | ParentPc.exited => 0

def ChildPc.weight : ChildPc -> Nat
  | ChildPc.none => 0
  | ChildPc.signal _ => 4
  | ChildPc.pause _ => 3
  | ChildPc.waiting _ => 2
  | ChildPc.exit _ _ => 1
  | ChildPc.ended _ => 0

def weight (s : State) : Nat :=
  2 * (s.parent.weight + s.child.weight) + if s.pending then 1 else 0

section

variable {p : Pid} {s t : State}

theorem weight_pending (parent : ParentPc) (child : ChildPc) (b : Bool) (table : Table)
    (printed : List Int) :
    2 * (parent.weight + child.weight) ≤ weight { table, parent, child, pending := b, printed } ∧
      weight { table, parent, child, pending := b, printed } ≤
        2 * (parent.weight + child.weight) + 1 := by
  unfold weight
  cases b with
  | true => exact ⟨Nat.le_add_right _ _, Nat.le_refl _⟩
  | false => exact ⟨Nat.le_refl _, Nat.le_add_right _ _⟩

/-- A step that takes the parent or the child on lowers the weight, whatever becomes
of the signal. -/
theorem weight_lt (h : t.parent.weight + t.child.weight < s.parent.weight + s.child.weight) :
    weight t < weight s := by
  have ht := (weight_pending t.parent t.child t.pending t.table t.printed).2
  have hs := (weight_pending s.parent s.child s.pending s.table s.printed).1
  change weight t ≤ _ at ht
  change _ ≤ weight s at hs
  lia

theorem fork_lt {pid : Option Pid} (hfork : fork p s pid = some t) :
    weight t < weight s := by
  unfold fork at hfork
  split at hfork
  · next c hparent =>
      rcases Option.map_eq_some_iff.mp hfork with ⟨u, _, heq⟩
      cases heq
      apply weight_lt
      rw [hparent]
      show 6 + 4 < 12 + _
      lia
  · next hparent =>
      rcases Option.map_eq_some_iff.mp hfork with ⟨u, _, heq⟩
      cases heq
      apply weight_lt
      rw [hparent]
      show 0 + _ < 12 + _
      lia
  · cases hfork

theorem killUsr1_lt (hkill : killUsr1 p s = some t) :
    weight t < weight s := by
  unfold killUsr1 at hkill
  split at hkill
  · next c hparent =>
      split at hkill
      · rcases Option.map_eq_some_iff.mp hkill with ⟨u, _, heq⟩
        cases heq
        apply weight_lt
        rw [hparent]
        show 0 + _ < 6 + _
        lia
      · cases hkill
        apply weight_lt
        rw [hparent]
        show 5 + _ < 6 + _
        exact Nat.add_lt_add_right (by decide) _
  · cases hkill

theorem killNull_lt (hkill : killNull s = some t) :
    weight t < weight s := by
  unfold killNull at hkill
  split at hkill
  · next c hparent =>
      cases hkill
      apply weight_lt
      rw [hparent]
      show 4 + _ < 5 + _
      exact Nat.add_lt_add_right (by decide) _
  · cases hkill

theorem killAgain_lt (hkill : killAgain s = some t) :
    weight t < weight s := by
  unfold killAgain at hkill
  split at hkill
  · next c hparent =>
      cases hkill
      apply weight_lt
      rw [hparent]
      show 3 + _ < 4 + _
      exact Nat.add_lt_add_right (by decide) _
  · cases hkill

theorem waitpid_lt (hwait : waitpid p s = some t) :
    weight t < weight s := by
  unfold waitpid at hwait
  split at hwait
  · next c hparent =>
      rcases Option.bind_eq_some_iff.mp hwait with ⟨⟨r, u⟩, _, heq⟩
      apply weight_lt
      rw [hparent]
      cases r with
      | some status =>
          cases heq
          show 2 + _ < 3 + _
          exact Nat.add_lt_add_right (by decide) _
      | none =>
          rcases Option.map_eq_some_iff.mp heq with ⟨v, _, heq⟩
          cases heq
          show 0 + _ < 3 + _
          exact Nat.add_lt_add_right (by decide) _
  · cases hwait

theorem killGone_lt (hkill : killGone s = some t) :
    weight t < weight s := by
  unfold killGone at hkill
  split at hkill
  · next c hparent =>
      cases hkill
      apply weight_lt
      rw [hparent]
      show 1 + _ < 2 + _
      exact Nat.add_lt_add_right (by decide) _
  · cases hkill

theorem parentExit_lt (hexit : parentExit p s = some t) :
    weight t < weight s := by
  unfold parentExit at hexit
  split at hexit
  · next hparent =>
      rcases Option.map_eq_some_iff.mp hexit with ⟨u, _, heq⟩
      cases heq
      apply weight_lt
      rw [hparent]
      show 0 + _ < 1 + _
      exact Nat.add_lt_add_right (by decide) _
  · cases hexit

theorem childSignal_lt {ok : Bool} (hsignal : childSignal s ok = some t) :
    weight t < weight s := by
  unfold childSignal at hsignal
  split at hsignal
  · next c hchild =>
      cases hsignal
      apply weight_lt
      rw [hchild]
      cases ok with
      | true =>
          show _ + 3 < _ + 4
          exact Nat.add_lt_add_left (by decide) _
      | false =>
          show _ + 1 < _ + 4
          exact Nat.add_lt_add_left (by decide) _
  · cases hsignal

theorem childPause_lt (hpause : childPause s = some t) :
    weight t < weight s := by
  unfold childPause at hpause
  split at hpause
  · next c hchild =>
      cases hpause
      apply weight_lt
      rw [hchild]
      show _ + 2 < _ + 3
      exact Nat.add_lt_add_left (by decide) _
  · cases hpause

theorem childExit_lt (hexit : childExit s = some t) :
    weight t < weight s := by
  unfold childExit at hexit
  split at hexit
  · next c status hchild =>
      rcases Option.map_eq_some_iff.mp hexit with ⟨u, _, heq⟩
      cases heq
      apply weight_lt
      rw [hchild]
      show _ + 0 < _ + 1
      exact Nat.add_lt_add_left (by decide) _
  · cases hexit

theorem childDeliver_lt (hdeliver : childDeliver s = some t) :
    weight t < weight s := by
  unfold childDeliver at hdeliver
  split at hdeliver
  · next hpending =>
      have hless : forall child : ChildPc, child.weight ≤ s.child.weight ->
          weight { s with child, pending := false } < weight s := by
        intro child hle
        unfold weight
        rw [if_neg (show ¬ false = true by decide), if_pos hpending]
        show 2 * (s.parent.weight + child.weight) + 0 < _
        lia
      dsimp only at hdeliver
      cases hchild : s.child with
      | none =>
          rw [hchild] at hdeliver
          cases hdeliver
      | ended c =>
          rw [hchild] at hdeliver
          cases hdeliver
      | signal c =>
          rw [hchild] at hdeliver
          rcases Option.map_eq_some_iff.mp hdeliver with ⟨u, _, heq⟩
          cases heq
          exact hless (ChildPc.ended c) (Nat.zero_le _)
      | pause c =>
          rw [hchild] at hdeliver
          cases hdeliver
          exact hless (ChildPc.pause c) (Nat.le_of_eq (congrArg ChildPc.weight hchild.symm))
      | waiting c =>
          rw [hchild] at hdeliver
          cases hdeliver
          exact hless (ChildPc.exit c 0) (by rw [hchild]; exact Nat.le_succ 1)
      | exit c status =>
          rw [hchild] at hdeliver
          cases hdeliver
          exact hless (ChildPc.exit c status)
            (Nat.le_of_eq (congrArg ChildPc.weight hchild.symm))
  · cases hdeliver

theorem own_lt {l : Label} (hown : l.own = true) (hstep : step p s l = some t) :
    weight t < weight s := by
  cases l with
  | other a => cases hown
  | fork pid => exact fork_lt hstep
  | killUsr1 => exact killUsr1_lt hstep
  | killNull => exact killNull_lt hstep
  | killAgain => exact killAgain_lt hstep
  | waitpid => exact waitpid_lt hstep
  | killGone => exact killGone_lt hstep
  | exit => exact parentExit_lt hstep
  | childSignal ok => exact childSignal_lt hstep
  | childPause => exact childPause_lt hstep
  | childExit => exact childExit_lt hstep
  | childDeliver => exact childDeliver_lt hstep

theorem other_weight {l : Label} (hown : l.own = false) (hstep : step p s l = some t) :
    weight t ≤ weight s := by
  cases l with
  | other a =>
      have hother : other p s a = some t := hstep
      unfold other at hother
      split at hother
      · cases hother
      · rcases Option.map_eq_some_iff.mp hother with ⟨u, _, heq⟩
        cases heq
        exact Nat.le_refl _
  | _ => cases hown

def Goes (p : Pid) (s : State) : Prop :=
  exists l t, l.own = true ∧ step p s l = some t ∧ ¬ Lost t

theorem Inv.child_goes {c : Pid} (h : Inv p s) (hlost : ¬ Lost s) (hc : s.child.pid = some c)
    (hwaiting : s.child = ChildPc.waiting c -> s.pending = true) : Goes p s := by
  rcases h.alive c hc with ⟨htarget, hcp, hci, hentry⟩
  cases hchild : s.child with
  | none =>
      rw [hchild] at hc
      cases hc
  | ended d =>
      rw [hchild] at hc
      cases hc
  | signal d =>
      refine ⟨Label.childSignal true, { s with child := ChildPc.pause d }, rfl, ?_, ?_⟩
      · show Usekill.childSignal s true = _
        unfold Usekill.childSignal
        rw [hchild]
        rfl
      · rintro ⟨e, hparent, hpending, _⟩
        have htrue := h.sent d hchild (by rw [show s.parent = _ from hparent]; rfl)
        rw [show s.pending = false from hpending] at htrue
        cases htrue
  | pause d =>
      refine ⟨Label.childPause, { s with child := ChildPc.waiting d }, rfl, ?_, ?_⟩
      · show Usekill.childPause s = _
        unfold Usekill.childPause
        rw [hchild]
      · rintro ⟨e, hparent, hpending, hfalse | heq⟩
        · cases hfalse
        · cases heq
          exact hlost ⟨d, hparent, hpending, Or.inl hchild⟩
  | waiting d =>
      rw [hchild] at hc hwaiting
      cases hc
      refine ⟨Label.childDeliver, { s with child := ChildPc.exit c 0, pending := false }, rfl,
        ?_, not_lost_of_child (fun _ => ⟨nofun, nofun⟩)⟩
      show Usekill.childDeliver s = _
      unfold Usekill.childDeliver
      rw [if_pos (hwaiting rfl)]
      dsimp only
      rw [hchild]
  | exit d status =>
      rw [hchild] at hc
      cases hc
      rcases exit_isSome (encode (Ending.exited status)) (running_of_entry hentry) hci with
        ⟨u, hu⟩
      refine ⟨Label.childExit, { s with table := u, child := ChildPc.ended c }, rfl, ?_,
        not_lost_of_child (fun _ => ⟨nofun, nofun⟩)⟩
      show Usekill.childExit s = _
      unfold Usekill.childExit Usekill.finish
      rw [hchild]
      dsimp only
      rw [hu]
      rfl

/-- The parent goes on when its child is over, or waits and another signal will
come. -/
theorem Inv.parent_goes (h : Inv p s) (hne : s.parent ≠ ParentPc.exited)
    (hover : forall c, s.parent = ParentPc.waitpid c -> s.child.pid = none)
    (hsend : forall c, s.parent = ParentPc.killAgain c ->
      s.child.pid = some c ∨ s.child.pid = none) : Goes p s := by
  have hrunning := h.running hne
  cases hparent : s.parent with
  | exited => exact absurd hparent hne
  | fork =>
      rcases exit_isSome 1 hrunning h.apart with ⟨u, hu⟩
      refine ⟨Label.fork none, { s with table := u, parent := ParentPc.exited }, rfl, ?_,
        not_lost_of_parent nofun⟩
      show Usekill.fork p s none = _
      unfold Usekill.fork
      rw [hparent]
      dsimp only
      rw [hu]
      rfl
  | killUsr1 c =>
      refine ⟨Label.killUsr1, { send s c with parent := ParentPc.killNull c }, rfl, ?_,
        not_lost_of_parent nofun⟩
      show Usekill.killUsr1 p s = _
      unfold Usekill.killUsr1
      rw [hparent]
      dsimp only
      rw [h.killed_eq (by rw [hparent]; rfl), if_neg (by decide)]
  | killNull c =>
      refine ⟨Label.killNull,
        { s with parent := ParentPc.killAgain c, printed := s.printed ++ [killed s c] }, rfl, ?_,
        not_lost_of_parent nofun⟩
      show Usekill.killNull s = _
      unfold Usekill.killNull
      rw [hparent]
  | killAgain c =>
      refine ⟨Label.killAgain,
        { send s c with parent := ParentPc.waitpid c, printed := s.printed ++ [killed s c] },
        rfl, ?_, ?_⟩
      · show Usekill.killAgain s = _
        unfold Usekill.killAgain
        rw [hparent]
      · rcases hsend c hparent with hpid | hnone
        · exact not_lost_of_pending (Usekill.send_pending hpid)
        · apply not_lost_of_child
          intro d
          constructor
          · intro hchild
            rw [show s.child = ChildPc.pause d from hchild] at hnone
            cases hnone
          · intro hchild
            rw [show s.child = ChildPc.waiting d from hchild] at hnone
            cases hnone
  | waitpid c =>
      have htarget : s.parent.target = some c := by
        rw [hparent]
        rfl
      rcases h.target_cases htarget with hpid | ⟨_, status, hzombie⟩
      · rw [hover c hparent] at hpid
        cases hpid
      · refine ⟨Label.waitpid,
          { s with table := Function.update s.table c none, parent := ParentPc.killGone c },
          rfl, ?_, not_lost_of_parent nofun⟩
        show Usekill.waitpid p s = _
        unfold Usekill.waitpid
        rw [hparent]
        dsimp only
        rw [waitpid_zombie hzombie]
        rfl
  | killGone c =>
      refine ⟨Label.killGone,
        { s with parent := ParentPc.exit, printed := s.printed ++ [killed s c] }, rfl, ?_,
        not_lost_of_parent nofun⟩
      show Usekill.killGone s = _
      unfold Usekill.killGone
      rw [hparent]
  | exit =>
      rcases exit_isSome 0 hrunning h.apart with ⟨u, hu⟩
      refine ⟨Label.exit, { s with table := u, parent := ParentPc.exited }, rfl, ?_,
        not_lost_of_parent nofun⟩
      show Usekill.parentExit p s = _
      unfold Usekill.parentExit
      rw [hparent]
      dsimp only
      rw [hu]
      rfl

theorem Inv.goes (h : Inv p s) (hlost : ¬ Lost s) (hne : s.parent ≠ ParentPc.exited) :
    Goes p s := by
  cases hpid : s.child.pid with
  | none =>
      exact h.parent_goes hne (fun _ _ => hpid) (fun _ _ => Or.inr hpid)
  | some c =>
      have htarget := (h.alive c hpid).1
      by_cases hstays : s.child = ChildPc.waiting c ∧ s.pending = false
      · apply h.parent_goes hne
        · intro d hparent
          rw [hparent] at htarget
          cases htarget
          exact absurd ⟨c, hparent, hstays.2, Or.inr hstays.1⟩ hlost
        · intro d hparent
          rw [hparent] at htarget
          cases htarget
          exact Or.inl hpid
      · apply h.child_goes hlost hpid
        intro hwaiting
        cases hpending : s.pending with
        | true => rfl
        | false => exact absurd ⟨hwaiting, hpending⟩ hstays

end

def shell : State where
  table := fun q =>
    if q = 1 then
      some { parent := 0, life := Life.running }
    else if q = 300 then
      some { parent := 1, life := Life.running }
    else
      none
  parent := ParentPc.fork
  child := ChildPc.none
  pending := false
  printed := []

theorem shell_start : start 300 shell :=
  ⟨by decide, rfl, rfl, rfl, rfl, rfl, rfl⟩

theorem shell_reachable {ls : List Label} {t : State}
    (hrun : (machine 300).run shell ls = some t) : (machine 300).Reachable t :=
  Machine.reachable_of_run (Machine.ReachableUnder.init shell_start) hrun

/-- The first signal ends the child, and its number goes to another process at
once. -/
def reused : List Label :=
  [Label.fork (some 301), Label.killUsr1, Label.childDeliver, Label.killNull,
    Label.killAgain, Label.waitpid, Label.other (Act.fork 1 301), Label.killGone]

def early : List Label :=
  [Label.fork (some 301), Label.childSignal true, Label.killUsr1, Label.killNull,
    Label.killAgain, Label.childDeliver, Label.childPause]

/-- Until it has waited for its child, `kill` returns 0 for the parent, whether the
child runs or is a zombie; then the child is gone, and another result than -1 is about a
process that is not its child. -/
theorem kill_zombie {p : Pid} {s : State} (h : (machine p).Reachable s) :
    (exists i, s.printed <+: [0, 0, i]) ∧
      (forall c, s.parent.target = some c -> killed s c = 0) ∧
      forall c, s.parent = ParentPc.killGone c -> ¬ Child s.table p c := by
  have hinv := reachable_inv h
  refine ⟨?_, fun c hc => hinv.killed_eq hc, hinv.gone⟩
  have hprinted := hinv.printed
  have hnil : exists i : Int, [] <+: [0, 0, i] := ⟨0, List.nil_prefix⟩
  have htwo : exists i : Int, [0, 0] <+: [0, 0, i] := ⟨0, [0], rfl⟩
  have hall : (exists i, s.printed = [0, 0, i]) -> exists i, s.printed <+: [0, 0, i] := by
    rintro ⟨i, hi⟩
    exact ⟨i, [], by rw [hi]; rfl⟩
  cases hparent : s.parent with
  | fork =>
      rw [hparent] at hprinted
      rw [show s.printed = [] from hprinted]
      exact hnil
  | killUsr1 c =>
      rw [hparent] at hprinted
      rw [show s.printed = [] from hprinted]
      exact hnil
  | killNull c =>
      rw [hparent] at hprinted
      rw [show s.printed = [] from hprinted]
      exact hnil
  | killAgain c =>
      rw [hparent] at hprinted
      rw [show s.printed = [0] from hprinted]
      exact ⟨0, [0, 0], rfl⟩
  | waitpid c =>
      rw [hparent] at hprinted
      rw [show s.printed = [0, 0] from hprinted]
      exact htwo
  | killGone c =>
      rw [hparent] at hprinted
      rw [show s.printed = [0, 0] from hprinted]
      exact htwo
  | exit =>
      rw [hparent] at hprinted
      exact hall hprinted
  | exited =>
      rw [hparent] at hprinted
      rcases hprinted with heq | hprinted
      · rw [heq]
        exact hnil
      · exact hall hprinted

theorem kill_zombie_reused :
    exists s, (machine 300).run shell reused = some s ∧ s.printed = [0, 0, 0] ∧
      ¬ Child s.table 300 301 := by
  refine ⟨_, rfl, rfl, ?_⟩
  have hgone := (kill_zombie (shell_reachable
    (show (machine 300).run shell (reused.take 7) = some _ from rfl))).2.2 301 rfl
  exact hgone

/-- The parent can still come to its end unless it waits and the child, which has its
handler and has not come out of `pause`, has no signal to come. -/
theorem returns_iff {p : Pid} {s : State} (h : (machine p).Reachable s) :
    (machine p).CanReach (fun t => t.parent = ParentPc.exited) s ↔ ¬ Lost s := by
  have hinv := reachable_inv h
  constructor
  · rintro ⟨ls, t, hrun, hexited⟩ hlost
    have hboth := Machine.invariant_of_run (M := machine p)
      (I := fun u => Inv p u ∧ Lost u) (C := fun _ => True)
      (fun _ _ _ hu _ hst => ⟨hu.1.after hst, hu.2.after hu.1 hst⟩) ⟨hinv, hlost⟩
      (fun _ _ => trivial) hrun
    rcases hboth.2.parent_eq with ⟨c, hparent⟩
    rw [hexited] at hparent
    cases hparent
  · intro hlost
    refine Machine.CanReach.of_measure (I := fun u => Inv p u ∧ ¬ Lost u) weight ?_ ⟨hinv, hlost⟩
    intro u hu hne
    rcases hu.1.goes hu.2 hne with ⟨l, t, hown, hstep, ht⟩
    exact ⟨l, t, hstep, ⟨hu.1.after hstep, ht⟩, own_lt hown hstep⟩

theorem returns_iff_early :
    exists s, (machine 300).run shell early = some s ∧
      ¬ (machine 300).CanReach (fun t => t.parent = ParentPc.exited) s := by
  refine ⟨_, rfl, ?_⟩
  have hreachable := shell_reachable
    (show (machine 300).run shell early = some _ from rfl)
  intro hcan
  exact (returns_iff hreachable).mp hcan ⟨301, rfl, rfl, Or.inr rfl⟩

/-- The two processes make at most 24 calls and deliveries, and when they can go on no
more the parent has ended or the signal is lost. -/
theorem program_returns {p : Pid} {s t : State} {ls : List Label} (hstart : start p s)
    (hrun : (machine p).run s ls = some t) :
    (ls.filter Label.own).length ≤ 24 ∧
      ((forall l, l.own = true -> step p t l = none) ->
        t.parent = ParentPc.exited ∧ t.child.pid = none ∨ Lost t) := by
  have hinv := reachable_inv (Machine.reachable_of_run (Machine.ReachableUnder.init hstart) hrun)
  constructor
  · have hweight : weight s = 24 := by
      rcases hstart with ⟨_, _, _, hparent, hchild, hpending, _⟩
      unfold weight
      rw [hparent, hchild, hpending]
      rfl
    have hle := Machine.own_length_le (M := machine p) (I := Inv p)
      (fun _ _ _ hs hst => hs.after hst) (fun _ _ _ _ hown hst => own_lt hown hst)
      (fun _ _ _ _ hown hst => other_weight hown hst) (start_inv hstart) hrun
    lia
  · intro hquiet
    by_cases hlost : Lost t
    · exact Or.inr hlost
    · left
      have hexited : t.parent = ParentPc.exited := by
        by_cases hexited : t.parent = ParentPc.exited
        · exact hexited
        · rcases hinv.goes hlost hexited with ⟨l, u, hown, hstep, _⟩
          rw [hquiet l hown] at hstep
          cases hstep
      refine ⟨hexited, ?_⟩
      cases hpid : t.child.pid with
      | none => rfl
      | some c =>
          have htarget := (hinv.alive c hpid).1
          rw [hexited] at htarget
          cases htarget

theorem program_returns_reused :
    exists s, (machine 300).run shell reused = some s ∧ (reused.filter Label.own).length ≤ 24 :=
  ⟨_, rfl, (program_returns shell_start
    (show (machine 300).run shell reused = some _ from rfl)).1⟩

end Usekill
end Apue
