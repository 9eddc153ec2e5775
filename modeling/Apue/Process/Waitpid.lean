import Apue.Foundation.Transition
import Apue.Kernel.Processes

/-!
# Forking twice

The program forks a first child, which forks a second one and exits at once, and
waits for the first child only.  The second child prints its parent's number some
time later.  All other processes of the system may fork, exit and wait at any
time, and may get numbers that are free again; none of them kills one of the three.
-/

namespace Apue
namespace Waitpid

open Foundation Processes

/-- The next call of the original process; `print` says whether `waitpid` returned
the first child. -/
inductive ParentPc where
  | fork
  | waitpid (pid : Pid)
  | print (ok : Bool)
  | exited
  deriving Repr, DecidableEq

inductive FirstPc where
  | none
  | fork (pid : Pid)
  | exit (pid : Pid) (status : Nat)
  | exited (pid : Pid)
  deriving Repr, DecidableEq

inductive SecondPc where
  | none
  | sleep (pid : Pid)
  | exit (pid : Pid) (ppid : Option Pid)
  | exited (ppid : Option Pid)
  deriving Repr, DecidableEq

structure State where
  table : Table
  parent : ParentPc
  first : FirstPc
  second : SecondPc

inductive Label where
  | parentFork (pid : Option Pid)
  | parentWaitpid
  | parentExit
  | firstFork (pid : Option Pid)
  | firstExit
  | secondPrint
  | secondExit
  | other (a : Act)
  deriving Repr, DecidableEq

def parentFork (p : Pid) (s : State) (pid : Option Pid) : Option State :=
  match s.parent, pid with
  | ParentPc.fork, some c =>
      (fork s.table p c).map
        (fun t => { s with table := t, parent := ParentPc.waitpid c, first := FirstPc.fork c })
  | ParentPc.fork, none =>
      (exit s.table p 1).map (fun t => { s with table := t, parent := ParentPc.exited })
  | _, _ => none

def parentWaitpid (p : Pid) (s : State) : Option State :=
  match s.parent with
  | ParentPc.waitpid c =>
      (waitpid s.table p c).map
        (fun r => { s with table := r.2, parent := ParentPc.print r.1.isSome })
  | _ => none

def parentExit (p : Pid) (s : State) : Option State :=
  match s.parent with
  | ParentPc.print _ =>
      (exit s.table p 0).map (fun t => { s with table := t, parent := ParentPc.exited })
  | _ => none

def firstFork (s : State) (pid : Option Pid) : Option State :=
  match s.first, pid with
  | FirstPc.fork f, some c =>
      (fork s.table f c).map
        (fun t => { s with table := t, first := FirstPc.exit f 0, second := SecondPc.sleep c })
  | FirstPc.fork f, none => some { s with first := FirstPc.exit f 1 }
  | _, _ => none

def firstExit (s : State) : Option State :=
  match s.first with
  | FirstPc.exit f status =>
      (exit s.table f status).map
        (fun t => { s with table := t, first := FirstPc.exited f })
  | _ => none

def secondPrint (s : State) : Option State :=
  match s.second with
  | SecondPc.sleep g => some { s with second := SecondPc.exit g (getppid s.table g) }
  | _ => none

def secondExit (s : State) : Option State :=
  match s.second with
  | SecondPc.exit g ppid =>
      (exit s.table g 0).map
        (fun t => { s with table := t, second := SecondPc.exited ppid })
  | _ => none

def FirstPc.pid : FirstPc -> Option Pid
  | FirstPc.fork f => some f
  | FirstPc.exit f _ => some f
  | _ => Option.none

def SecondPc.pid : SecondPc -> Option Pid
  | SecondPc.sleep g => some g
  | SecondPc.exit g _ => some g
  | _ => Option.none

def Mine (p : Pid) (s : State) (q : Pid) : Prop :=
  (s.parent ≠ ParentPc.exited ∧ q = p) ∨ s.first.pid = some q ∨ s.second.pid = some q

instance (p : Pid) (s : State) (q : Pid) : Decidable (Mine p s q) :=
  inferInstanceAs (Decidable (_ ∨ _ ∨ _))

def other (p : Pid) (s : State) (a : Act) : Option State :=
  if Mine p s a.by_ then
    none
  else
    (act s.table a).map (fun t => { s with table := t })

def step (p : Pid) (s : State) : Label -> Option State
  | Label.parentFork pid => parentFork p s pid
  | Label.parentWaitpid => parentWaitpid p s
  | Label.parentExit => parentExit p s
  | Label.firstFork pid => firstFork s pid
  | Label.firstExit => firstExit s
  | Label.secondPrint => secondPrint s
  | Label.secondExit => secondExit s
  | Label.other a => other p s a

def start (p : Pid) (s : State) : Prop :=
  p ≠ init ∧ Running s.table init ∧ Running s.table p ∧
    (forall q, ¬ Child s.table p q) ∧
    s.parent = ParentPc.fork ∧ s.first = FirstPc.none ∧ s.second = SecondPc.none

def machine (p : Pid) : Machine State Label where
  init := start p
  step := step p

/-!
# The invariant
-/

def FirstPc.heir : FirstPc -> Pid
  | FirstPc.exit f _ => f
  | _ => Processes.init

def SecondPc.printed : SecondPc -> Option (Option Pid)
  | SecondPc.exit _ ppid => some ppid
  | SecondPc.exited ppid => some ppid
  | _ => Option.none

def FirstPc.Prints (ppid : Option Pid) : FirstPc -> Prop
  | FirstPc.exit f _ => ppid = some f
  | FirstPc.exited f => ppid = some f ∨ ppid = some Processes.init
  | _ => False

def FirstPc.alone : FirstPc -> Bool
  | FirstPc.none => true
  | FirstPc.fork _ => true
  | _ => false

structure Inv (p : Pid) (s : State) : Prop where
  apart : p ≠ Processes.init
  init : Running s.table Processes.init
  running : s.parent ≠ ParentPc.exited -> Running s.table p
  children : s.parent ≠ ParentPc.exited ->
    forall q, Child s.table p q -> s.parent = ParentPc.waitpid q
  returned : s.parent ≠ ParentPc.print false
  before : s.first = FirstPc.none -> s.parent = ParentPc.fork ∨ s.parent = ParentPc.exited
  alone : s.first.alone = true -> s.second = SecondPc.none
  first : forall f, s.first.pid = some f ->
    s.parent = ParentPc.waitpid f ∧ f ≠ p ∧ f ≠ Processes.init ∧
      s.table f = some { parent := p, life := Life.running }
  gone : forall f, s.first = FirstPc.exited f ->
    s.parent ≠ ParentPc.fork ∧ forall q, s.parent = ParentPc.waitpid q ->
      q = f ∧ f ≠ p ∧
        exists status, s.table f = some { parent := p, life := Life.zombie status }
  second : forall g, s.second.pid = some g ->
    g ≠ p ∧ g ≠ Processes.init ∧
      s.table g = some { parent := s.first.heir, life := Life.running }
  printed : forall ppid, s.second.printed = some ppid -> s.first.Prints ppid

section

variable {p : Pid} {s t : State}

theorem start_inv (h : start p s) : Inv p s := by
  rcases h with ⟨hapart, hinit, hrunning, hnone, hparent, hfirst, hsecond⟩
  refine ⟨hapart, hinit, fun _ => hrunning, ?_, ?_, fun _ => Or.inl hparent,
    fun _ => hsecond, ?_, ?_, ?_, ?_⟩
  · intro _ q hq
    exact absurd hq (hnone q)
  · rw [hparent]
    nofun
  · intro f hf
    rw [hfirst] at hf
    cases hf
  · intro f hf
    rw [hfirst] at hf
    cases hf
  · intro g hg
    rw [hsecond] at hg
    cases hg
  · intro ppid hppid
    rw [hsecond] at hppid
    cases hppid

theorem Inv.parent_act {a : Act} {u : Table} (h : Inv p s) (hact : act s.table a = some u)
    (hp : s.parent ≠ ParentPc.exited -> a.by_ ≠ p) :
    Running u Processes.init ∧ (s.parent ≠ ParentPc.exited -> Running u p) ∧
      (s.parent ≠ ParentPc.exited ->
        forall q, Child u p q -> s.parent = ParentPc.waitpid q) := by
  refine ⟨act_init hact h.init, ?_, ?_⟩
  · exact fun hne => act_running hact (h.running hne) (hp hne)
  · intro hne q hq
    exact h.children hne q (act_child hact (hp hne) h.apart hq)

theorem Inv.first_act {a : Act} {u : Table} (h : Inv p s) (hact : act s.table a = some u)
    (hp : s.parent ≠ ParentPc.exited -> a.by_ ≠ p) {f : Pid} (hf : s.first.pid = some f)
    (hself : a.by_ ≠ f) : u f = some { parent := p, life := Life.running } := by
  rcases h.first f hf with ⟨hparent, _, _, hentry⟩
  exact act_entry hact hentry hself (hp (by rw [hparent]; nofun))

theorem Inv.gone_act {a : Act} {u : Table} (h : Inv p s) (hact : act s.table a = some u)
    (hp : s.parent ≠ ParentPc.exited -> a.by_ ≠ p) {f : Pid}
    (hf : s.first = FirstPc.exited f) :
    s.parent ≠ ParentPc.fork ∧ forall q, s.parent = ParentPc.waitpid q ->
      q = f ∧ f ≠ p ∧
        exists status, u f = some { parent := p, life := Life.zombie status } := by
  rcases h.gone f hf with ⟨hfork, hgone⟩
  refine ⟨hfork, ?_⟩
  intro q hq
  rcases hgone q hq with ⟨hqf, hfp, status, hentry⟩
  refine ⟨hqf, hfp, status, act_entry hact hentry ?_ (hp (by rw [hq]; nofun))⟩
  intro heq
  have hrunning := act_by_running hact
  rw [heq] at hrunning
  unfold Running at hrunning
  rw [hentry] at hrunning
  cases hrunning

theorem Inv.second_act {a : Act} {u : Table} (h : Inv p s) (hact : act s.table a = some u)
    {g : Pid} (hg : s.second.pid = some g) (hself : a.by_ ≠ g)
    (hfirst : s.first.pid ≠ some a.by_) :
    u g = some { parent := s.first.heir, life := Life.running } := by
  rcases h.second g hg with ⟨_, _, hentry⟩
  cases hpc : s.first with
  | exit f status =>
      rw [hpc] at hentry hfirst
      exact act_entry hact hentry hself (fun heq => hfirst (by rw [heq]; rfl))
  | _ =>
      rw [hpc] at hentry
      exact act_orphan hact hentry hself

theorem Inv.other {a : Act} (h : Inv p s) (hstep : other p s a = some t) : Inv p t := by
  unfold Waitpid.other at hstep
  split at hstep
  · cases hstep
  · next hmine =>
      rcases Option.map_eq_some_iff.mp hstep with ⟨u, hact, heq⟩
      cases heq
      have hp : s.parent ≠ ParentPc.exited -> a.by_ ≠ p :=
        fun hne heq => hmine (Or.inl ⟨hne, heq⟩)
      have hfirst : s.first.pid ≠ some a.by_ := fun heq => hmine (Or.inr (Or.inl heq))
      rcases h.parent_act hact hp with ⟨hinit, hrunning, hchildren⟩
      refine ⟨h.apart, hinit, hrunning, hchildren, h.returned, h.before, h.alone, ?_,
        fun f hf => h.gone_act hact hp hf, ?_, h.printed⟩
      · intro f hf
        rcases h.first f hf with ⟨hparent, hfp, hfi, _⟩
        refine ⟨hparent, hfp, hfi, h.first_act hact hp hf ?_⟩
        exact fun heq => hfirst (by rw [heq]; exact hf)
      · intro g hg
        rcases h.second g hg with ⟨hgp, hgi, _⟩
        refine ⟨hgp, hgi, h.second_act hact hg ?_ hfirst⟩
        exact fun heq => hmine (Or.inr (Or.inr (by rw [heq]; exact hg)))

theorem Inv.first_of_waitpid {c : Pid} (h : Inv p s)
    (hparent : s.parent = ParentPc.waitpid c) :
    s.first.pid = some c ∨ s.first = FirstPc.exited c := by
  cases hpc : s.first with
  | none =>
      rcases h.before hpc with hfork | hexited
      · rw [hparent] at hfork
        cases hfork
      · rw [hparent] at hexited
        cases hexited
  | exited f =>
      rcases (h.gone f hpc).2 c hparent with ⟨hcf, _⟩
      exact Or.inr (by rw [hcf])
  | fork f =>
      rcases h.first f (by rw [hpc]; rfl) with ⟨hf, _⟩
      rw [hparent] at hf
      cases hf
      exact Or.inl rfl
  | exit f status =>
      rcases h.first f (by rw [hpc]; rfl) with ⟨hf, _⟩
      rw [hparent] at hf
      cases hf
      exact Or.inl rfl

theorem Inv.first_of_fork (h : Inv p s) (hparent : s.parent = ParentPc.fork) :
    s.first = FirstPc.none := by
  cases hpc : s.first with
  | none => rfl
  | exited f => exact absurd hparent (h.gone f hpc).1
  | fork f =>
      rcases h.first f (by rw [hpc]; rfl) with ⟨hf, _⟩
      rw [hparent] at hf
      cases hf
  | exit f status =>
      rcases h.first f (by rw [hpc]; rfl) with ⟨hf, _⟩
      rw [hparent] at hf
      cases hf

theorem Inv.parentFork {pid : Option Pid} (h : Inv p s)
    (hstep : parentFork p s pid = some t) : Inv p t := by
  unfold Waitpid.parentFork at hstep
  split at hstep
  · next c hparent =>
      rcases Option.map_eq_some_iff.mp hstep with ⟨u, hfork, heq⟩
      cases heq
      rcases fork_eq_some hfork with ⟨hrunning, hfree, hu⟩
      have hact : act s.table (Act.fork p c) = some u := hfork
      have hfirst := h.first_of_fork hparent
      have hsecond := h.alone (by rw [hfirst]; rfl)
      have hcp : c ≠ p := ne_of_free hrunning hfree
      have hci : c ≠ Processes.init := ne_of_free h.init hfree
      refine ⟨h.apart, act_init hact h.init, ?_, ?_, nofun, nofun, fun _ => hsecond, ?_,
        nofun, ?_, ?_⟩
      · exact fun _ => act_keeps_running hact hrunning nofun
      · intro _ q hq
        by_cases hqc : q = c
        · show ParentPc.waitpid c = ParentPc.waitpid q
          rw [hqc]
        · rcases child_iff.mp hq with ⟨life, hentry⟩
          change u q = _ at hentry
          rw [hu, Function.update_of_ne hqc] at hentry
          have hchild := h.children (by rw [hparent]; nofun) q (child_iff.mpr ⟨life, hentry⟩)
          rw [hparent] at hchild
          cases hchild
      · intro f hf
        cases hf
        refine ⟨rfl, hcp, hci, ?_⟩
        show u c = _
        rw [hu, Function.update_self]
      · intro g hg
        change s.second.pid = some g at hg
        rw [hsecond] at hg
        cases hg
      · intro ppid hppid
        change s.second.printed = some ppid at hppid
        rw [hsecond] at hppid
        cases hppid
  · next hparent =>
      rcases Option.map_eq_some_iff.mp hstep with ⟨u, hexit, heq⟩
      cases heq
      have hact : act s.table (Act.exit p 1) = some u := hexit
      have hfirst := h.first_of_fork hparent
      have hsecond := h.alone (by rw [hfirst]; rfl)
      refine ⟨h.apart, act_init hact h.init, fun hne => absurd rfl hne,
        fun hne => absurd rfl hne, nofun, fun _ => Or.inr rfl, fun _ => hsecond, ?_, ?_, ?_,
        h.printed⟩
      · intro f hf
        change s.first.pid = some f at hf
        rw [hfirst] at hf
        cases hf
      · intro f hf
        change s.first = _ at hf
        rw [hfirst] at hf
        cases hf
      · intro g hg
        change s.second.pid = some g at hg
        rw [hsecond] at hg
        cases hg
  · cases hstep

theorem Inv.waitpid_eq {c : Pid} {r : Option Nat} {u : Table} (h : Inv p s)
    (hparent : s.parent = ParentPc.waitpid c) (hwait : waitpid s.table p c = some (r, u)) :
    s.first = FirstPc.exited c ∧ c ≠ p ∧ r.isSome = true ∧
      u = Function.update s.table c none := by
  rcases h.first_of_waitpid hparent with hpid | hexited
  · rcases h.first c hpid with ⟨_, _, _, hentry⟩
    rw [waitpid_running hentry] at hwait
    cases hwait
  · rcases (h.gone c hexited).2 c hparent with ⟨_, hcp, status, hentry⟩
    rw [waitpid_zombie hentry] at hwait
    cases hwait
    exact ⟨hexited, hcp, rfl, rfl⟩

theorem Inv.parentWaitpid (h : Inv p s) (hstep : parentWaitpid p s = some t) : Inv p t := by
  unfold Waitpid.parentWaitpid at hstep
  split at hstep
  · next c hparent =>
      rcases Option.map_eq_some_iff.mp hstep with ⟨⟨r, u⟩, hwait, heq⟩
      cases heq
      rcases h.waitpid_eq hparent hwait with ⟨hfirst, hcp, hr, hu⟩
      have hrunning := h.running (by rw [hparent]; nofun)
      have hact : act s.table (Act.waitpid p c) = some u := by
        show wait s.table p c = some u
        unfold wait
        rw [if_pos hrunning, hwait]
        rfl
      refine ⟨h.apart, act_init hact h.init, ?_, ?_, ?_, ?_, h.alone, ?_, ?_, ?_, h.printed⟩
      · exact fun _ => act_keeps_running hact hrunning nofun
      · intro _ q hq
        rcases child_iff.mp hq with ⟨life, hentry⟩
        change u q = _ at hentry
        rw [hu] at hentry
        by_cases hqc : q = c
        · rw [hqc, Function.update_self] at hentry
          cases hentry
        · rw [Function.update_of_ne hqc] at hentry
          have hchild := h.children (by rw [hparent]; nofun) q (child_iff.mpr ⟨life, hentry⟩)
          rw [hparent] at hchild
          cases hchild
          exact absurd rfl hqc
      · show ParentPc.print r.isSome ≠ _
        rw [hr]
        nofun
      · intro hnone
        change s.first = _ at hnone
        rw [hfirst] at hnone
        cases hnone
      · intro f hf
        change s.first.pid = some f at hf
        rw [hfirst] at hf
        cases hf
      · exact fun f hf => ⟨nofun, nofun⟩
      · intro g hg
        rcases h.second g hg with ⟨hgp, hgi, _⟩
        refine ⟨hgp, hgi, h.second_act hact hg hgp.symm ?_⟩
        rw [hfirst]
        nofun
  · cases hstep

theorem Inv.parentExit (h : Inv p s) (hstep : parentExit p s = some t) : Inv p t := by
  unfold Waitpid.parentExit at hstep
  split at hstep
  · next ok hparent =>
      rcases Option.map_eq_some_iff.mp hstep with ⟨u, hexit, heq⟩
      cases heq
      have hact : act s.table (Act.exit p 0) = some u := hexit
      have hpid : forall f, s.first.pid ≠ some f := by
        intro f hf
        rcases h.first f hf with ⟨hwaitpid, _⟩
        rw [hparent] at hwaitpid
        cases hwaitpid
      refine ⟨h.apart, act_init hact h.init, fun hne => absurd rfl hne,
        fun hne => absurd rfl hne, nofun, fun _ => Or.inr rfl, h.alone, ?_, ?_, ?_, h.printed⟩
      · exact fun f hf => absurd hf (hpid f)
      · exact fun f hf => ⟨nofun, nofun⟩
      · intro g hg
        rcases h.second g hg with ⟨hgp, hgi, _⟩
        exact ⟨hgp, hgi, h.second_act hact hg hgp.symm (hpid p)⟩
  · cases hstep

theorem Inv.firstFork {pid : Option Pid} (h : Inv p s)
    (hstep : firstFork s pid = some t) : Inv p t := by
  unfold Waitpid.firstFork at hstep
  split at hstep
  · next f c hfirst =>
      rcases Option.map_eq_some_iff.mp hstep with ⟨u, hfork, heq⟩
      cases heq
      rcases fork_eq_some hfork with ⟨hrunning, hfree, hu⟩
      rcases h.first f (by rw [hfirst]; rfl) with ⟨hparent, hfp, hfi, hentry⟩
      have hact : act s.table (Act.fork f c) = some u := hfork
      have hcf : c ≠ f := ne_of_free hrunning hfree
      have hcp : c ≠ p := ne_of_free (h.running (by rw [hparent]; nofun)) hfree
      have hci : c ≠ Processes.init := ne_of_free h.init hfree
      rcases h.parent_act hact (fun _ => hfp) with ⟨hinit, hp, hchildren⟩
      refine ⟨h.apart, hinit, hp, hchildren, h.returned, nofun, nofun, ?_, nofun, ?_, nofun⟩
      · intro q hq
        cases hq
        refine ⟨hparent, hfp, hfi, ?_⟩
        show u f = _
        rw [hu, Function.update_of_ne hcf.symm, hentry]
      · intro g hg
        cases hg
        refine ⟨hcp, hci, ?_⟩
        show u c = _
        rw [hu, Function.update_self]
        rfl
  · next f hfirst =>
      cases hstep
      have hsecond := h.alone (by rw [hfirst]; rfl)
      refine ⟨h.apart, h.init, h.running, h.children, h.returned, nofun, nofun, ?_, nofun,
        ?_, ?_⟩
      · intro q hq
        cases hq
        exact h.first f (by rw [hfirst]; rfl)
      · intro g hg
        change s.second.pid = some g at hg
        rw [hsecond] at hg
        cases hg
      · intro ppid hppid
        change s.second.printed = some ppid at hppid
        rw [hsecond] at hppid
        cases hppid
  · cases hstep

theorem Inv.firstExit (h : Inv p s) (hstep : firstExit s = some t) : Inv p t := by
  unfold Waitpid.firstExit at hstep
  split at hstep
  · next f status hfirst =>
      rcases Option.map_eq_some_iff.mp hstep with ⟨u, hexit, heq⟩
      cases heq
      rcases h.first f (by rw [hfirst]; rfl) with ⟨hparent, hfp, hfi, hentry⟩
      have hact : act s.table (Act.exit f status) = some u := hexit
      rcases h.parent_act hact (fun _ => hfp) with ⟨hinit, hp, hchildren⟩
      refine ⟨h.apart, hinit, hp, hchildren, h.returned, nofun, nofun, nofun, ?_, ?_, ?_⟩
      · intro q hq
        cases hq
        refine ⟨by rw [hparent]; nofun, ?_⟩
        intro q hq
        change s.parent = _ at hq
        rw [hparent] at hq
        cases hq
        exact ⟨rfl, hfp, status, exit_same hexit hentry⟩
      · intro g hg
        rcases h.second g hg with ⟨hgp, hgi, hgentry⟩
        refine ⟨hgp, hgi, ?_⟩
        have hgf : g ≠ f := by
          intro heq
          rw [heq, hentry, hfirst] at hgentry
          cases hgentry
          exact hfp rfl
        show u g = _
        rw [exit_other hexit hgf, hgentry, hfirst]
        show some (adopt f _) = _
        unfold adopt
        rw [if_pos (show (FirstPc.exit f status).heir = f from rfl)]
        rfl
      · intro ppid hppid
        have hprints := h.printed ppid hppid
        rw [hfirst] at hprints
        exact Or.inl hprints
  · cases hstep

theorem Inv.secondPrint (h : Inv p s) (hstep : secondPrint s = some t) : Inv p t := by
  unfold Waitpid.secondPrint at hstep
  split at hstep
  · next g hsecond =>
      cases hstep
      have hg : s.second.pid = some g := by
        rw [hsecond]
        rfl
      rcases h.second g hg with ⟨hgp, hgi, hentry⟩
      have halone : s.first.alone = false := by
        apply Bool.eq_false_iff.mpr
        intro htrue
        rw [h.alone htrue] at hsecond
        cases hsecond
      refine ⟨h.apart, h.init, h.running, h.children, h.returned, h.before, ?_, h.first,
        h.gone, ?_, ?_⟩
      · intro htrue
        rw [show s.first.alone = true from htrue] at halone
        cases halone
      · intro q hq
        cases hq
        exact ⟨hgp, hgi, hentry⟩
      · intro ppid hppid
        cases hppid
        have hppid : getppid s.table g = some s.first.heir := by
          unfold getppid
          rw [hentry]
          rfl
        rw [hppid]
        show s.first.Prints _
        cases hfirst : s.first with
        | exit f status => exact rfl
        | exited f => exact Or.inr rfl
        | none =>
            rw [hfirst] at halone
            cases halone
        | fork f =>
            rw [hfirst] at halone
            cases halone
  · cases hstep

theorem Inv.secondExit (h : Inv p s) (hstep : secondExit s = some t) : Inv p t := by
  unfold Waitpid.secondExit at hstep
  split at hstep
  · next g ppid hsecond =>
      rcases Option.map_eq_some_iff.mp hstep with ⟨u, hexit, heq⟩
      cases heq
      have hg : s.second.pid = some g := by
        rw [hsecond]
        rfl
      rcases h.second g hg with ⟨hgp, hgi, hentry⟩
      have hact : act s.table (Act.exit g 0) = some u := hexit
      have halone : s.first.alone = false := by
        apply Bool.eq_false_iff.mpr
        intro htrue
        rw [h.alone htrue] at hsecond
        cases hsecond
      rcases h.parent_act hact (fun _ => hgp) with ⟨hinit, hp, hchildren⟩
      refine ⟨h.apart, hinit, hp, hchildren, h.returned, h.before, ?_, ?_,
        fun f hf => h.gone_act hact (fun _ => hgp) hf, nofun, ?_⟩
      · intro htrue
        rw [show s.first.alone = true from htrue] at halone
        cases halone
      · intro f hf
        rcases h.first f hf with ⟨hparent, hfp, hfi, hfentry⟩
        refine ⟨hparent, hfp, hfi, h.first_act hact (fun _ => hgp) hf ?_⟩
        intro heq
        have hgf : g = f := heq
        cases hfirst : s.first with
        | fork f' =>
            rw [hfirst] at halone
            cases halone
        | exit f' status =>
            rw [hfirst] at hf hentry
            cases hf
            rw [hgf, hfentry] at hentry
            cases hentry
            exact hfp rfl
        | _ =>
            rw [hfirst] at hf
            cases hf
      · intro v hv
        cases hv
        exact h.printed ppid (by rw [hsecond]; rfl)
  · cases hstep

theorem Inv.after {l : Label} (h : Inv p s) (hstep : step p s l = some t) : Inv p t := by
  cases l with
  | parentFork pid => exact h.parentFork hstep
  | parentWaitpid => exact h.parentWaitpid hstep
  | parentExit => exact h.parentExit hstep
  | firstFork pid => exact h.firstFork hstep
  | firstExit => exact h.firstExit hstep
  | secondPrint => exact h.secondPrint hstep
  | secondExit => exact h.secondExit hstep
  | other a => exact h.other hstep

theorem reachable_inv (h : (machine p).Reachable s) : Inv p s :=
  Machine.invariant (I := Inv p) (fun _ hs => start_inv hs)
    (fun _ _ _ hs hst => hs.after hst) h

end

def shell : State where
  table := fun q =>
    if q = 1 then
      some { parent := 0, life := Life.running }
    else if q = 50 then
      some { parent := 1, life := Life.running }
    else if q = 100 then
      some { parent := 50, life := Life.running }
    else
      none
  parent := ParentPc.fork
  first := FirstPc.none
  second := SecondPc.none

theorem shell_start : start 100 shell := by
  refine ⟨by decide, rfl, rfl, ?_, rfl, rfl, rfl⟩
  intro q hq
  rcases child_iff.mp hq with ⟨life, hentry⟩
  unfold shell at hentry
  dsimp only at hentry
  split at hentry
  · cases hentry
  · split at hentry
    · cases hentry
    · split at hentry
      · cases hentry
      · cases hentry

theorem shell_reachable {ls : List Label} {t : State}
    (hrun : (machine 100).run shell ls = some t) : (machine 100).Reachable t :=
  Machine.reachable_of_run (Machine.ReachableUnder.init shell_start) hrun

def early : List Label :=
  [Label.parentFork (some 101), Label.firstFork (some 102), Label.secondPrint]

/-- The second child prints after that, and the shell starts something else in
between. -/
def late : List Label :=
  [Label.parentFork (some 101), Label.firstFork (some 102), Label.firstExit,
    Label.other (Act.fork 50 103), Label.parentWaitpid, Label.secondPrint]

/-- The parent of the second child is the first one until that exits, and then
`init`; this is also what it prints, as of some moment before. -/
theorem second_parent {p : Pid} {s : State} (h : (machine p).Reachable s) :
    (forall g, s.second.pid = some g -> getppid s.table g = some s.first.heir) ∧
      forall ppid, s.second.printed = some ppid -> s.first.Prints ppid := by
  constructor
  · intro g hg
    rcases (reachable_inv h).second g hg with ⟨_, _, hentry⟩
    unfold getppid
    rw [hentry]
    rfl
  · exact (reachable_inv h).printed

theorem second_parent_early :
    exists s, (machine 100).run shell early = some s ∧
      s.second.printed = some (some 101) := by
  refine ⟨_, rfl, ?_⟩
  have hreachable := shell_reachable
    (show (machine 100).run shell early = some _ from rfl)
  have hprints := (second_parent hreachable).2 _ rfl
  exact congrArg some hprints

/-!
# The end of the program
-/

def Label.own : Label -> Bool
  | Label.other _ => false
  | _ => true

def ParentPc.weight : ParentPc -> Nat
  | ParentPc.fork => 8
  | ParentPc.waitpid _ => 2
  | ParentPc.print _ => 1
  | ParentPc.exited => 0

def FirstPc.weight : FirstPc -> Nat
  | FirstPc.none => 0
  | FirstPc.fork _ => 5
  | FirstPc.exit _ _ => 1
  | FirstPc.exited _ => 0

def SecondPc.weight : SecondPc -> Nat
  | SecondPc.none => 0
  | SecondPc.sleep _ => 2
  | SecondPc.exit _ _ => 1
  | SecondPc.exited _ => 0

def weight (s : State) : Nat :=
  s.parent.weight + s.first.weight + s.second.weight

section

variable {p : Pid} {s t : State}

theorem parentFork_lt {pid : Option Pid} (h : Inv p s) (hfork : parentFork p s pid = some t) :
    weight t < weight s := by
  unfold weight
  unfold parentFork at hfork
  split at hfork
  · next c hparent =>
      rcases Option.map_eq_some_iff.mp hfork with ⟨u, _, heq⟩
      cases heq
      rw [hparent, h.first_of_fork hparent]
      show 2 + 5 + _ < 8 + 0 + _
      lia
  · next hparent =>
      rcases Option.map_eq_some_iff.mp hfork with ⟨u, _, heq⟩
      cases heq
      rw [hparent]
      show 0 + _ + _ < 8 + _ + _
      lia
  · cases hfork

theorem parentWaitpid_lt (hwait : parentWaitpid p s = some t) :
    weight t < weight s := by
  unfold weight
  unfold parentWaitpid at hwait
  split at hwait
  · next c hparent =>
      rcases Option.map_eq_some_iff.mp hwait with ⟨r, _, heq⟩
      cases heq
      rw [hparent]
      show 1 + _ + _ < 2 + _ + _
      lia
  · cases hwait

theorem parentExit_lt (hexit : parentExit p s = some t) :
    weight t < weight s := by
  unfold weight
  unfold parentExit at hexit
  split at hexit
  · next ok hparent =>
      rcases Option.map_eq_some_iff.mp hexit with ⟨u, _, heq⟩
      cases heq
      rw [hparent]
      show 0 + _ + _ < 1 + _ + _
      lia
  · cases hexit

theorem firstFork_lt {pid : Option Pid} (h : Inv p s) (hfork : firstFork s pid = some t) :
    weight t < weight s := by
  unfold weight
  unfold firstFork at hfork
  split at hfork
  · next f c hfirst =>
      rcases Option.map_eq_some_iff.mp hfork with ⟨u, _, heq⟩
      cases heq
      rw [h.alone (by rw [hfirst]; rfl), hfirst]
      show _ + 1 + 2 < _ + 5 + 0
      lia
  · next f hfirst =>
      cases hfork
      rw [hfirst]
      show _ + 1 + _ < _ + 5 + _
      lia
  · cases hfork

theorem firstExit_lt (hexit : firstExit s = some t) :
    weight t < weight s := by
  unfold weight
  unfold firstExit at hexit
  split at hexit
  · next f status hfirst =>
      rcases Option.map_eq_some_iff.mp hexit with ⟨u, _, heq⟩
      cases heq
      rw [hfirst]
      show _ + 0 + _ < _ + 1 + _
      lia
  · cases hexit

theorem secondPrint_lt (hprint : secondPrint s = some t) :
    weight t < weight s := by
  unfold weight
  unfold secondPrint at hprint
  split at hprint
  · next g hsecond =>
      cases hprint
      rw [hsecond]
      show _ + _ + 1 < _ + _ + 2
      lia
  · cases hprint

theorem secondExit_lt (hexit : secondExit s = some t) :
    weight t < weight s := by
  unfold weight
  unfold secondExit at hexit
  split at hexit
  · next g ppid hsecond =>
      rcases Option.map_eq_some_iff.mp hexit with ⟨u, _, heq⟩
      cases heq
      rw [hsecond]
      show _ + _ + 0 < _ + _ + 1
      lia
  · cases hexit

theorem own_lt {l : Label} (h : Inv p s) (hown : l.own = true) (hstep : step p s l = some t) :
    weight t < weight s := by
  cases l with
  | other a => cases hown
  | parentFork pid => exact parentFork_lt h hstep
  | parentWaitpid => exact parentWaitpid_lt hstep
  | parentExit => exact parentExit_lt hstep
  | firstFork pid => exact firstFork_lt h hstep
  | firstExit => exact firstExit_lt hstep
  | secondPrint => exact secondPrint_lt hstep
  | secondExit => exact secondExit_lt hstep

theorem other_weight {l : Label} (hown : l.own = false) (hstep : step p s l = some t) :
    weight t ≤ weight s := by
  cases l with
  | other a =>
      have hother : other p s a = some t := hstep
      unfold other at hother
      split at hother
      · cases hother
      · rcases Option.map_eq_some_iff.mp hother with ⟨u, _, heq⟩
        cases heq
        exact Nat.le_refl _
  | _ => cases hown

def Over (s : State) : Prop :=
  s.parent = ParentPc.exited ∧ s.first.pid = none ∧ s.second.pid = none

theorem over_of_quiet (h : Inv p s)
    (hquiet : forall l, l.own = true -> step p s l = none) : Over s := by
  have hsecond : s.second.pid = none := by
    cases hpc : s.second with
    | sleep g =>
        have hnone : secondPrint s = none := hquiet Label.secondPrint rfl
        unfold secondPrint at hnone
        rw [hpc] at hnone
        cases hnone
    | exit g ppid =>
        have hnone : secondExit s = none := hquiet Label.secondExit rfl
        rcases h.second g (by rw [hpc]; rfl) with ⟨_, hgi, hentry⟩
        rcases exit_isSome 0 (running_of_entry hentry) hgi with ⟨v, hv⟩
        unfold secondExit at hnone
        rw [hpc] at hnone
        dsimp only at hnone
        rw [hv] at hnone
        cases hnone
    | _ => rfl
  have hfirst : s.first.pid = none := by
    cases hpc : s.first with
    | fork f =>
        have hnone : firstFork s none = none := hquiet (Label.firstFork none) rfl
        unfold firstFork at hnone
        rw [hpc] at hnone
        cases hnone
    | exit f status =>
        have hnone : firstExit s = none := hquiet Label.firstExit rfl
        rcases h.first f (by rw [hpc]; rfl) with ⟨_, _, hfi, hentry⟩
        rcases exit_isSome status (running_of_entry hentry) hfi with ⟨v, hv⟩
        unfold firstExit at hnone
        rw [hpc] at hnone
        dsimp only at hnone
        rw [hv] at hnone
        cases hnone
    | _ => rfl
  refine ⟨?_, hfirst, hsecond⟩
  cases hpc : s.parent with
  | exited => rfl
  | fork =>
      have hnone : parentFork p s none = none := hquiet (Label.parentFork none) rfl
      rcases exit_isSome 1 (h.running (by rw [hpc]; nofun)) h.apart with ⟨v, hv⟩
      unfold parentFork at hnone
      rw [hpc] at hnone
      dsimp only at hnone
      rw [hv] at hnone
      cases hnone
  | waitpid c =>
      have hnone : parentWaitpid p s = none := hquiet Label.parentWaitpid rfl
      rcases h.first_of_waitpid hpc with hpid | hexited
      · rw [hfirst] at hpid
        cases hpid
      · rcases (h.gone c hexited).2 c hpc with ⟨_, _, status, hentry⟩
        unfold parentWaitpid at hnone
        rw [hpc] at hnone
        dsimp only at hnone
        rw [waitpid_zombie hentry] at hnone
        cases hnone
  | print ok =>
      have hnone : parentExit p s = none := hquiet Label.parentExit rfl
      rcases exit_isSome 0 (h.running (by rw [hpc]; nofun)) h.apart with ⟨v, hv⟩
      unfold parentExit at hnone
      rw [hpc] at hnone
      dsimp only at hnone
      rw [hv] at hnone
      cases hnone

end

/-- In any run the three processes make at most eight calls, and when none of them
can go on they have exited. -/
theorem program_ends {p : Pid} {s t : State} {ls : List Label} (hstart : start p s)
    (hrun : (machine p).run s ls = some t) :
    (ls.filter Label.own).length ≤ 8 ∧
      ((forall l, l.own = true -> step p t l = none) -> Over t) := by
  have hinv := reachable_inv (Machine.reachable_of_run (Machine.ReachableUnder.init hstart) hrun)
  constructor
  · have hweight : weight s = 8 := by
      rcases hstart with ⟨_, _, _, _, hparent, hfirst, hsecond⟩
      unfold weight
      rw [hparent, hfirst, hsecond]
      rfl
    have hle := Machine.own_length_le (M := machine p) (I := Inv p)
      (fun _ _ _ hs hst => hs.after hst) (fun _ _ _ hs hown hst => own_lt hs hown hst)
      (fun _ _ _ _ hown hst => other_weight hown hst) (start_inv hstart) hrun
    lia
  · exact over_of_quiet hinv

theorem program_ends_late :
    exists s, (machine 100).run shell late = some s ∧ (late.filter Label.own).length ≤ 8 :=
  ⟨_, rfl, (program_ends shell_start
    (show (machine 100).run shell late = some _ from rfl)).1⟩

end Waitpid
end Apue
