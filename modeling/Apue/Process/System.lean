import Apue.Foundation.Transition
import Apue.Kernel.Processes
import Apue.Process.PrExit

/-!
# System

`System` forks a child, which turns into a shell for the command, and waits for
exactly this child.  Signals may interrupt the wait any number of times.  The caller
may have other children, and all other processes of the system go on meanwhile.
When the caller ignores `SIGCHLD`, or has it with `SA_NOCLDWAIT`, its children leave
no status behind.  Its signal handlers do not wait for children, and nobody kills the
child before it has become the shell or failed to.
-/

namespace Apue
namespace System

open Foundation Processes PrExit

structure Setting where
  caller : Pid
  cmdstring : Option String
  ignored : Bool
  apart : caller ≠ Processes.init

inductive CallerPc where
  | begin
  | fork
  | waitpid (pid : Pid)
  | returned (status : Int)
  deriving Repr, DecidableEq

structure Image where
  path : String
  argv : List String
  deriving Repr, DecidableEq

/-- The child with its number; in the end its status, and the program that it had
become. -/
inductive ChildPc where
  | none
  | execl (pid : Pid)
  | exit127 (pid : Pid)
  | program (pid : Pid) (image : Image)
  | ended (pid : Pid) (status : Nat) (image : Option Image)
  deriving Repr, DecidableEq

structure State where
  table : Table
  caller : CallerPc
  child : ChildPc

/-- A `fork` returns a new number, or fails; `interrupt` is the error `EINTR`. -/
inductive Label where
  | test
  | fork (pid : Option Pid)
  | execl (ok : Bool)
  | exit127
  | program (a : Act)
  | interrupt
  | waitpid
  | other (a : Act)
  deriving Repr, DecidableEq

/-- `cmdstring == NULL` -/
def test (k : Setting) (s : State) : Option State :=
  match s.caller, k.cmdstring with
  | CallerPc.begin, none => some { s with caller := CallerPc.returned 1 }
  | CallerPc.begin, some _ => some { s with caller := CallerPc.fork }
  | _, _ => none

def fork (k : Setting) (s : State) (pid : Option Pid) : Option State :=
  match s.caller, pid with
  | CallerPc.fork, some c =>
      (Processes.fork s.table k.caller c).map
        (fun t => { table := t, caller := CallerPc.waitpid c, child := ChildPc.execl c })
  | CallerPc.fork, none => some { s with caller := CallerPc.returned (-1) }
  | _, _ => none

/-- `execl("/bin/sh", "sh", "-c", cmdstring, (char *)0)` -/
def execl (k : Setting) (s : State) (ok : Bool) : Option State :=
  match s.child with
  | ChildPc.execl c =>
      if ok then
        some
          { s with
            child := ChildPc.program c
              { path := "/bin/sh", argv := ["sh", "-c", k.cmdstring.getD ""] } }
      else
        some { s with child := ChildPc.exit127 c }
  | _ => none

/-- The end of a process; there is no zombie when its parent is the caller and ignores
`SIGCHLD`. -/
def exitOf (k : Setting) (t : Table) (p : Pid) (status : Nat) : Option Table :=
  (exit t p status).map
    (fun u => if k.ignored ∧ Child t k.caller p then Function.update u p none else u)

def actOf (k : Setting) (t : Table) : Act -> Option Table
  | Act.exit p status => exitOf k t p status
  | a => act t a

def finish (k : Setting) (s : State) (c : Pid) (status : Nat) (image : Option Image) :
    Option State :=
  (exitOf k s.table c status).map
    (fun t => { s with table := t, child := ChildPc.ended c status image })

/-- `_exit(127)` -/
def exit127 (k : Setting) (s : State) : Option State :=
  match s.child with
  | ChildPc.exit127 c => finish k s c (encode (Ending.exited 127)) none
  | _ => none

/-- The shell does what it likes, and ends with any status. -/
def program (k : Setting) (s : State) (a : Act) : Option State :=
  match s.child with
  | ChildPc.program c image =>
      if a.by_ = c then
        match a with
        | Act.exit _ status => finish k s c status (some image)
        | _ => (actOf k s.table a).map (fun t => { s with table := t })
      else
        none
  | _ => none

/-- The loop goes round when the wait is interrupted. -/
def interrupt (s : State) : Option State :=
  match s.caller with
  | CallerPc.waitpid _ => some s
  | _ => none

def waitpid (k : Setting) (s : State) : Option State :=
  match s.caller with
  | CallerPc.waitpid c =>
      (Processes.waitpid s.table k.caller c).map
        (fun r =>
          { s with
            table := r.2
            caller := CallerPc.returned
              (match r.1 with
              | some status => status
              | none => -1) })
  | _ => none

def ChildPc.pid : ChildPc -> Option Pid
  | ChildPc.execl c => some c
  | ChildPc.exit127 c => some c
  | ChildPc.program c _ => some c
  | _ => Option.none

def other (k : Setting) (s : State) (a : Act) : Option State :=
  if a.by_ = k.caller ∨ s.child.pid = some a.by_ then
    none
  else
    (actOf k s.table a).map (fun t => { s with table := t })

def step (k : Setting) (s : State) : Label -> Option State
  | Label.test => test k s
  | Label.fork pid => fork k s pid
  | Label.execl ok => execl k s ok
  | Label.exit127 => exit127 k s
  | Label.program a => program k s a
  | Label.interrupt => interrupt s
  | Label.waitpid => waitpid k s
  | Label.other a => other k s a

def start (k : Setting) (s : State) : Prop :=
  Running s.table Processes.init ∧ Running s.table k.caller ∧
    s.caller = CallerPc.begin ∧ s.child = ChildPc.none

def machine (k : Setting) : Machine State Label where
  init := start k
  step := step k

/-!
# The invariant
-/

def Shell (k : Setting) (image : Image) : Prop :=
  exists cmd, k.cmdstring = some cmd ∧
    image = { path := "/bin/sh", argv := ["sh", "-c", cmd] }

def ImageOk (k : Setting) (status : Nat) : Option Image -> Prop
  | some image => Shell k image
  | none => status = encode (Ending.exited 127)

def ChildOk (k : Setting) (s : State) : Prop :=
  match s.child with
  | ChildPc.none =>
      s.caller = CallerPc.begin ∨ (s.caller = CallerPc.fork ∧ k.cmdstring ≠ none) ∨
        (s.caller = CallerPc.returned 1 ∧ k.cmdstring = none) ∨
        (s.caller = CallerPc.returned (-1) ∧ k.cmdstring ≠ none)
  | ChildPc.ended c status image =>
      k.cmdstring ≠ none ∧ ImageOk k status image ∧
        ((s.caller = CallerPc.waitpid c ∧
            if k.ignored then ¬ Child s.table k.caller c
            else s.table c = some { parent := k.caller, life := Life.zombie status }) ∨
          (s.caller = CallerPc.returned (if k.ignored then -1 else (status : Int)) ∧
            ¬ Child s.table k.caller c))
  | _ => True

structure Inv (k : Setting) (s : State) : Prop where
  init : Running s.table Processes.init
  running : Running s.table k.caller
  child : ChildOk k s
  alive : forall c, s.child.pid = some c ->
    s.caller = CallerPc.waitpid c ∧ c ≠ k.caller ∧ c ≠ Processes.init ∧
      k.cmdstring ≠ none ∧
      s.table c = some { parent := k.caller, life := Life.running }
  image : forall c image, s.child = ChildPc.program c image -> Shell k image

section

variable {k : Setting} {s t : State}

def Swept (k : Setting) (a : Act) (w u : Table) : Prop :=
  u = w ∨ (k.ignored = true ∧ (exists status, a = Act.exit a.by_ status) ∧
    u = Function.update w a.by_ none)

section

variable {v u w : Table} {a : Act} {q : Pid}

theorem actOf_cases (h : actOf k v a = some u) : exists w, act v a = some w ∧ Swept k a w u := by
  cases a with
  | exit p status =>
      rcases Option.map_eq_some_iff.mp h with ⟨w, hexit, heq⟩
      refine ⟨w, hexit, ?_⟩
      split at heq
      · next hignored => exact Or.inr ⟨hignored.1, ⟨status, rfl⟩, heq.symm⟩
      · exact Or.inl heq.symm
  | fork p c => exact ⟨u, h, Or.inl rfl⟩
  | waitpid p c => exact ⟨u, h, Or.inl rfl⟩

theorem Swept.of_ne (h : Swept k a w u) (hself : a.by_ ≠ q) : u q = w q := by
  rcases h with heq | ⟨_, _, heq⟩
  · rw [heq]
  · rw [heq, Function.update_of_ne hself.symm]

theorem Swept.child {p : Pid} (h : Swept k a w u) (hchild : Child u p q) : Child w p q := by
  rcases h with heq | ⟨_, _, heq⟩
  · rw [← heq]
    exact hchild
  · rw [heq] at hchild
    unfold Child getppid at hchild ⊢
    by_cases hq : q = a.by_
    · rw [hq] at hchild
      rw [Function.update_self] at hchild
      cases hchild
    · rw [Function.update_of_ne hq] at hchild
      exact hchild

theorem actOf_running (h : actOf k v a = some u) (hrunning : Running v q)
    (hself : a.by_ ≠ q) : Running u q := by
  rcases actOf_cases h with ⟨w, hact, hswept⟩
  have hw := act_running hact hrunning hself
  unfold Running at hw ⊢
  rw [hswept.of_ne hself]
  exact hw

theorem actOf_by_running (h : actOf k v a = some u) : Running v a.by_ := by
  rcases actOf_cases h with ⟨w, hact, _⟩
  exact act_by_running hact

theorem actOf_init (h : actOf k v a = some u) (hrunning : Running v Processes.init) :
    Running u Processes.init := by
  rcases actOf_cases h with ⟨w, hact, heq | ⟨_, ⟨status, hexit⟩, heq⟩⟩
  · rw [heq]
    exact act_init hact hrunning
  · have hne : a.by_ ≠ Processes.init := by
      rw [hexit] at hact
      exact (exit_eq_some hact).2.1
    exact actOf_running h hrunning hne

theorem actOf_entry {e : Entry} (h : actOf k v a = some u) (he : v q = some e)
    (hself : a.by_ ≠ q) (hparent : a.by_ ≠ e.parent) : u q = some e := by
  rcases actOf_cases h with ⟨w, hact, hswept⟩
  rw [hswept.of_ne hself]
  exact act_entry hact he hself hparent

theorem actOf_child (h : actOf k v a = some u) (hself : a.by_ ≠ k.caller)
    (hchild : Child u k.caller q) : Child v k.caller q := by
  rcases actOf_cases h with ⟨w, hact, hswept⟩
  exact act_child hact hself k.apart (hswept.child hchild)

theorem actOf_child_stays (h : actOf k v a = some u) (hignored : k.ignored = false)
    (hself : a.by_ ≠ k.caller) (hchild : Child v k.caller q) : Child u k.caller q := by
  rcases actOf_cases h with ⟨w, hact, heq | ⟨htrue, _⟩⟩
  · rw [heq]
    exact act_child_stays hact hself hchild
  · rw [hignored] at htrue
    cases htrue

end

theorem start_inv (h : start k s) : Inv k s := by
  rcases h with ⟨hinit, hrunning, hcaller, hchild⟩
  refine ⟨hinit, hrunning, ?_, ?_, ?_⟩
  · unfold ChildOk
    rw [hchild]
    exact Or.inl hcaller
  · intro c hc
    rw [hchild] at hc
    cases hc
  · intro c image hc
    rw [hchild] at hc
    cases hc

theorem Inv.other {a : Act} (h : Inv k s) (hstep : other k s a = some t) : Inv k t := by
  unfold System.other at hstep
  split at hstep
  · cases hstep
  · next hmine =>
      rcases Option.map_eq_some_iff.mp hstep with ⟨u, hact, heq⟩
      cases heq
      have hcaller : a.by_ ≠ k.caller := fun heq => hmine (Or.inl heq)
      have hno : forall c, ¬ Child s.table k.caller c -> ¬ Child u k.caller c :=
        fun c hnot hchild => hnot (actOf_child hact hcaller hchild)
      refine ⟨actOf_init hact h.init, actOf_running hact h.running hcaller, ?_, ?_, h.image⟩
      · have hchild := h.child
        unfold ChildOk at hchild ⊢
        cases hpc : s.child with
        | none =>
            rw [hpc] at hchild
            exact hchild
        | ended c status image =>
            rw [hpc] at hchild
            rcases hchild with ⟨hcmd, himage, ⟨hwait, htable⟩ | ⟨hret, hnot⟩⟩
            · refine ⟨hcmd, himage, Or.inl ⟨hwait, ?_⟩⟩
              split at htable
              · next hignored =>
                  rw [if_pos hignored]
                  exact hno c htable
              · next hignored =>
                  rw [if_neg hignored]
                  refine actOf_entry hact htable ?_ hcaller
                  intro heq
                  have hrunning := actOf_by_running hact
                  rw [heq] at hrunning
                  unfold Running at hrunning
                  rw [htable] at hrunning
                  cases hrunning
            · exact ⟨hcmd, himage, Or.inr ⟨hret, hno c hnot⟩⟩
        | _ => trivial
      · intro c hc
        rcases h.alive c hc with ⟨hwait, hcc, hci, hcmd, hentry⟩
        refine ⟨hwait, hcc, hci, hcmd, actOf_entry hact hentry ?_ hcaller⟩
        exact fun heq => hmine (Or.inr (by rw [heq]; exact hc))

theorem Inv.child_none (h : Inv k s) (hcaller : forall c, s.caller ≠ CallerPc.waitpid c)
    (hreturned : forall v, s.caller ≠ CallerPc.returned v) : s.child = ChildPc.none := by
  have hchild := h.child
  unfold ChildOk at hchild
  have halive : forall c, s.child.pid ≠ some c :=
    fun c hc => hcaller c (h.alive c hc).1
  cases hpc : s.child with
  | none => rfl
  | ended c status image =>
      rw [hpc] at hchild
      rcases hchild with ⟨_, _, ⟨hwait, _⟩ | ⟨hret, _⟩⟩
      · exact absurd hwait (hcaller c)
      · exact absurd hret (hreturned _)
  | execl c => exact absurd (by rw [hpc]; rfl) (halive c)
  | exit127 c => exact absurd (by rw [hpc]; rfl) (halive c)
  | program c image => exact absurd (by rw [hpc]; rfl) (halive c)

theorem Inv.of_none {pc : CallerPc} (h : Inv k s) (hchild : s.child = ChildPc.none)
    (hok : ChildOk k { s with caller := pc }) : Inv k { s with caller := pc } where
  init := h.init
  running := h.running
  child := hok
  alive c hc := by
    change s.child.pid = some c at hc
    rw [hchild] at hc
    cases hc
  image := h.image

theorem Inv.test (h : Inv k s) (hstep : test k s = some t) : Inv k t := by
  unfold System.test at hstep
  split at hstep
  · next hcaller hcmd =>
      cases hstep
      have hchild := h.child_none (by rw [hcaller]; nofun) (by rw [hcaller]; nofun)
      apply h.of_none hchild
      unfold ChildOk
      dsimp only
      rw [hchild]
      exact Or.inr (Or.inr (Or.inl ⟨rfl, hcmd⟩))
  · next cmd hcaller hcmd =>
      cases hstep
      have hchild := h.child_none (by rw [hcaller]; nofun) (by rw [hcaller]; nofun)
      apply h.of_none hchild
      unfold ChildOk
      dsimp only
      rw [hchild]
      exact Or.inr (Or.inl ⟨rfl, by rw [hcmd]; nofun⟩)
  · cases hstep

theorem Inv.cmd_of_fork (h : Inv k s) (hcaller : s.caller = CallerPc.fork)
    (hchild : s.child = ChildPc.none) : k.cmdstring ≠ none := by
  have hok := h.child
  unfold ChildOk at hok
  rw [hchild, hcaller] at hok
  rcases hok with hfalse | ⟨_, hcmd⟩ | ⟨hfalse, _⟩ | ⟨hfalse, _⟩
  · cases hfalse
  · exact hcmd
  · cases hfalse
  · cases hfalse

theorem Inv.fork {pid : Option Pid} (h : Inv k s) (hstep : fork k s pid = some t) :
    Inv k t := by
  unfold System.fork at hstep
  split at hstep
  · next c hcaller =>
      rcases Option.map_eq_some_iff.mp hstep with ⟨u, hfork, heq⟩
      cases heq
      rcases fork_eq_some hfork with ⟨hrunning, hfree, hu⟩
      have hchild := h.child_none (by rw [hcaller]; nofun) (by rw [hcaller]; nofun)
      have hact : act s.table (Act.fork k.caller c) = some u := hfork
      refine ⟨act_init hact h.init, act_keeps_running hact hrunning nofun, trivial, ?_, nofun⟩
      intro d hd
      cases hd
      refine ⟨rfl, ne_of_free hrunning hfree, ne_of_free h.init hfree,
        h.cmd_of_fork hcaller hchild, ?_⟩
      show u c = _
      rw [hu, Function.update_self]
  · next hcaller =>
      cases hstep
      have hchild := h.child_none (by rw [hcaller]; nofun) (by rw [hcaller]; nofun)
      apply h.of_none hchild
      unfold ChildOk
      dsimp only
      rw [hchild]
      exact Or.inr (Or.inr (Or.inr ⟨rfl, h.cmd_of_fork hcaller hchild⟩))
  · cases hstep

theorem Inv.execl {ok : Bool} (h : Inv k s) (hstep : execl k s ok = some t) : Inv k t := by
  unfold System.execl at hstep
  split at hstep
  · next c hchild =>
      have halive := h.alive c (by rw [hchild]; rfl)
      split at hstep
      · cases hstep
        refine ⟨h.init, h.running, trivial, ?_, ?_⟩
        · intro d hd
          cases hd
          exact halive
        · intro d image hd
          cases hd
          rcases halive with ⟨_, _, _, hcmd, _⟩
          rcases Option.ne_none_iff_exists'.mp hcmd with ⟨cmd, hcmd⟩
          exact ⟨cmd, hcmd, by rw [hcmd]; rfl⟩
      · cases hstep
        refine ⟨h.init, h.running, trivial, ?_, nofun⟩
        intro d hd
        cases hd
        exact halive
  · cases hstep

theorem Inv.finish {c : Pid} {status : Nat} {image : Option Image} (h : Inv k s)
    (hc : s.child.pid = some c) (himage : ImageOk k status image)
    (hstep : finish k s c status image = some t) : Inv k t := by
  unfold System.finish at hstep
  rcases Option.map_eq_some_iff.mp hstep with ⟨u, hexit, heq⟩
  cases heq
  rcases h.alive c hc with ⟨hwait, hcc, hci, hcmd, hentry⟩
  have hact : actOf k s.table (Act.exit c status) = some u := hexit
  refine ⟨actOf_init hact h.init, actOf_running hact h.running hcc,
    ⟨hcmd, himage, Or.inl ⟨hwait, ?_⟩⟩, nofun, nofun⟩
  unfold exitOf at hexit
  rcases Option.map_eq_some_iff.mp hexit with ⟨w, hexit, heq⟩
  have hzombie := exit_same hexit hentry
  split at heq
  · next hignored =>
      rw [if_pos hignored.1, ← heq]
      show ¬ Child (Function.update w c none) k.caller c
      unfold Child getppid
      rw [Function.update_self]
      nofun
  · next hnot =>
      have hignored : ¬ k.ignored = true :=
        fun htrue => hnot ⟨htrue, child_iff.mpr ⟨_, hentry⟩⟩
      rw [if_neg hignored, ← heq]
      exact hzombie

theorem Inv.exit127 (h : Inv k s) (hstep : exit127 k s = some t) : Inv k t := by
  unfold System.exit127 at hstep
  split at hstep
  · next c hchild =>
      have himage : ImageOk k (encode (Ending.exited 127)) none := rfl
      exact h.finish (by rw [hchild]; rfl) himage hstep
  · cases hstep

theorem Inv.program {a : Act} (h : Inv k s) (hstep : program k s a = some t) : Inv k t := by
  unfold System.program at hstep
  split at hstep
  · next c image hchild =>
      have hc : s.child.pid = some c := by
        rw [hchild]
        rfl
      rcases h.alive c hc with ⟨hwait, hcc, hci, hcmd, hentry⟩
      have hstays : forall u, (forall p status, a ≠ Act.exit p status) -> a.by_ = c ->
          act s.table a = some u -> Inv k { s with table := u } := by
        intro u hno hby hact
        refine ⟨act_init hact h.init, act_running hact h.running (by rw [hby]; exact hcc), ?_,
          ?_, h.image⟩
        · show ChildOk k { s with table := u }
          unfold ChildOk
          dsimp only
          rw [hchild]
          trivial
        · intro d hd
          change s.child.pid = some d at hd
          rw [hc] at hd
          cases hd
          exact ⟨hwait, hcc, hci, hcmd, act_entry_running hact hentry hno⟩
      split at hstep
      · next hby =>
          cases a with
          | exit p status =>
              have himage : ImageOk k status (some image) := h.image c image hchild
              exact h.finish hc himage hstep
          | fork p d =>
              rcases Option.map_eq_some_iff.mp hstep with ⟨u, hact, heq⟩
              cases heq
              exact hstays u nofun hby hact
          | waitpid p d =>
              rcases Option.map_eq_some_iff.mp hstep with ⟨u, hact, heq⟩
              cases heq
              exact hstays u nofun hby hact
      · cases hstep
  · cases hstep

theorem Inv.interrupt (h : Inv k s) (hstep : interrupt s = some t) : Inv k t := by
  unfold System.interrupt at hstep
  split at hstep
  · cases hstep
    exact h
  · cases hstep

theorem Inv.ended_of_waits {c : Pid} (h : Inv k s) (hcaller : s.caller = CallerPc.waitpid c)
    (hpid : s.child.pid = none) :
    exists status image, s.child = ChildPc.ended c status image ∧ k.cmdstring ≠ none ∧
      ImageOk k status image ∧
      if k.ignored then ¬ Child s.table k.caller c
      else s.table c = some { parent := k.caller, life := Life.zombie status } := by
  have hok := h.child
  unfold ChildOk at hok
  cases hpc : s.child with
  | none =>
      rw [hpc, hcaller] at hok
      rcases hok with hfalse | ⟨hfalse, _⟩ | ⟨hfalse, _⟩ | ⟨hfalse, _⟩ <;> cases hfalse
  | ended d status image =>
      rw [hpc, hcaller] at hok
      rcases hok with ⟨hcmd, himage, ⟨hwaits, htable⟩ | ⟨hret, _⟩⟩
      · cases hwaits
        exact ⟨status, image, rfl, hcmd, himage, htable⟩
      · cases hret
  | _ =>
      rw [hpc] at hpid
      cases hpid

theorem Inv.pid_of_waitpid {c : Pid} {r : Option Nat × Table} (h : Inv k s)
    (hcaller : s.caller = CallerPc.waitpid c)
    (hwait : Processes.waitpid s.table k.caller c = some r) : s.child.pid = none := by
  cases hpid : s.child.pid with
  | none => rfl
  | some d =>
      rcases h.alive d hpid with ⟨hwaits, _, _, _, hentry⟩
      rw [hcaller] at hwaits
      cases hwaits
      rw [waitpid_running hentry] at hwait
      cases hwait

theorem Inv.waitpid (h : Inv k s) (hstep : waitpid k s = some t) : Inv k t := by
  unfold System.waitpid at hstep
  split at hstep
  · next c hcaller =>
      rcases Option.map_eq_some_iff.mp hstep with ⟨⟨r, u⟩, hwait, heq⟩
      cases heq
      have hpid := h.pid_of_waitpid hcaller hwait
      rcases h.ended_of_waits hcaller hpid with ⟨status, image, hchild, hcmd, himage, htable⟩
      have hact : act s.table (Act.waitpid k.caller c) = some u := by
        show Processes.wait s.table k.caller c = some u
        unfold Processes.wait
        rw [if_pos h.running, hwait]
        rfl
      refine ⟨act_init hact h.init, act_keeps_running hact h.running nofun, ?_, ?_, h.image⟩
      · unfold ChildOk
        dsimp only
        rw [hchild]
        refine ⟨hcmd, himage, Or.inr ?_⟩
        split at htable
        · next hignored =>
            rw [if_pos hignored]
            rw [waitpid_other htable] at hwait
            cases hwait
            exact ⟨rfl, htable⟩
        · next hignored =>
            rw [if_neg hignored]
            rw [waitpid_zombie htable] at hwait
            cases hwait
            refine ⟨rfl, ?_⟩
            intro hstill
            rcases child_iff.mp hstill with ⟨life, hnone⟩
            rw [Function.update_self] at hnone
            cases hnone
      · intro d hd
        rw [show s.child.pid = some d from hd] at hpid
        cases hpid
  · cases hstep

theorem Inv.after {l : Label} (h : Inv k s) (hstep : step k s l = some t) : Inv k t := by
  cases l with
  | test => exact h.test hstep
  | fork pid => exact h.fork hstep
  | execl ok => exact h.execl hstep
  | exit127 => exact h.exit127 hstep
  | program a => exact h.program hstep
  | interrupt => exact h.interrupt hstep
  | waitpid => exact h.waitpid hstep
  | other a => exact h.other hstep

theorem reachable_inv (h : (machine k).Reachable s) : Inv k s :=
  Machine.invariant (I := Inv k) (fun _ hs => start_inv hs)
    (fun _ _ _ hs hst => hs.after hst) h

/-!
# The children of the caller
-/

structure Kept (k : Setting) (old : Pid -> Prop) (table : Table) (pc : CallerPc) : Prop where
  children : forall q, Child table k.caller q ↔ old q ∨ pc = CallerPc.waitpid q
  fresh : forall q, pc = CallerPc.waitpid q -> ¬ old q

variable {old : Pid -> Prop}

theorem Kept.of_pc {table : Table} {pc pc' : CallerPc} (h : Kept k old table pc)
    (hpc : forall q, pc ≠ CallerPc.waitpid q) (hpc' : forall q, pc' ≠ CallerPc.waitpid q) :
    Kept k old table pc' := by
  constructor
  · intro q
    rw [h.children q]
    constructor
    · rintro (hold | hwait)
      · exact Or.inl hold
      · exact absurd hwait (hpc q)
    · rintro (hold | hwait)
      · exact Or.inl hold
      · exact absurd hwait (hpc' q)
  · intro q hwait
    exact absurd hwait (hpc' q)

theorem Kept.of_actOf {u v : Table} {pc : CallerPc} {a : Act} (h : Kept k old v pc)
    (hignored : k.ignored = false) (hact : actOf k v a = some u) (hself : a.by_ ≠ k.caller) :
    Kept k old u pc := by
  refine ⟨?_, h.fresh⟩
  intro q
  rw [← h.children q]
  exact ⟨actOf_child hact hself, actOf_child_stays hact hignored hself⟩

theorem Kept.fork {pid : Option Pid} (h : Kept k old s.table s.caller)
    (hstep : fork k s pid = some t) : Kept k old t.table t.caller := by
  unfold System.fork at hstep
  split at hstep
  · next c hcaller =>
      rcases Option.map_eq_some_iff.mp hstep with ⟨u, hfork, heq⟩
      cases heq
      rcases fork_eq_some hfork with ⟨_, hfree, hu⟩
      rw [hcaller] at h
      have hold : forall q, Child s.table k.caller q ↔ old q := by
        intro q
        rw [h.children q]
        constructor
        · rintro (hold | hwait)
          · exact hold
          · cases hwait
        · exact Or.inl
      have hfresh : ¬ old c := by
        intro hc
        rcases child_iff.mp ((hold c).mpr hc) with ⟨life, hentry⟩
        rw [hfree] at hentry
        cases hentry
      constructor
      · intro q
        show Child u k.caller q ↔ old q ∨ CallerPc.waitpid c = CallerPc.waitpid q
        rw [hu, ← hold q]
        unfold Child getppid
        by_cases hq : q = c
        · rw [hq, Function.update_self]
          exact ⟨fun _ => Or.inr rfl, fun _ => rfl⟩
        · rw [Function.update_of_ne hq]
          constructor
          · exact Or.inl
          · rintro (hchild | hwait)
            · exact hchild
            · cases hwait
              exact absurd rfl hq
      · intro q hwait
        cases hwait
        exact hfresh
  · next hcaller =>
      cases hstep
      apply h.of_pc
      · rw [hcaller]
        nofun
      · nofun
  · cases hstep

theorem Kept.waitpid (h : Kept k old s.table s.caller) (hinv : Inv k s)
    (hignored : k.ignored = false) (hstep : waitpid k s = some t) :
    Kept k old t.table t.caller := by
  unfold System.waitpid at hstep
  split at hstep
  · next c hcaller =>
      rcases Option.map_eq_some_iff.mp hstep with ⟨⟨r, u⟩, hwait, heq⟩
      cases heq
      rcases hinv.ended_of_waits hcaller (hinv.pid_of_waitpid hcaller hwait) with
        ⟨status, image, _, _, _, htable⟩
      have hzombie : s.table c = some { parent := k.caller, life := Life.zombie status } := by
        rw [if_neg (by rw [hignored]; nofun)] at htable
        exact htable
      rw [waitpid_zombie hzombie] at hwait
      cases hwait
      constructor
      · intro q
        by_cases hq : q = c
        · constructor
          · intro hchild
            unfold Child getppid at hchild
            dsimp only at hchild
            rw [hq] at hchild
            rw [Function.update_self] at hchild
            cases hchild
          · rintro (hold | hfalse)
            · rw [hq] at hold
              exact absurd hold (h.fresh c hcaller)
            · cases hfalse
        · have hiff := h.children q
          rw [hcaller] at hiff
          unfold Child getppid at hiff ⊢
          dsimp only
          rw [Function.update_of_ne hq, hiff]
          constructor
          · rintro (hold | hwait)
            · exact Or.inl hold
            · cases hwait
              exact absurd rfl hq
          · rintro (hold | hfalse)
            · exact Or.inl hold
            · cases hfalse
      · nofun
  · cases hstep

theorem Kept.program {a : Act} (h : Kept k old s.table s.caller) (hinv : Inv k s)
    (hignored : k.ignored = false) (hstep : program k s a = some t) :
    Kept k old t.table t.caller := by
  unfold System.program at hstep
  split at hstep
  · next c image hchild =>
      have hcc := (hinv.alive c (by rw [hchild]; rfl)).2.1
      split at hstep
      · next hby =>
          have hself : a.by_ ≠ k.caller := by
            rw [hby]
            exact hcc
          cases a with
          | exit p status =>
              rcases Option.map_eq_some_iff.mp hstep with ⟨u, hexit, heq⟩
              cases heq
              exact h.of_actOf hignored
                (show actOf k s.table (Act.exit c status) = some u from hexit) hcc
          | fork p d =>
              rcases Option.map_eq_some_iff.mp hstep with ⟨u, hact, heq⟩
              cases heq
              exact h.of_actOf hignored hact hself
          | waitpid p d =>
              rcases Option.map_eq_some_iff.mp hstep with ⟨u, hact, heq⟩
              cases heq
              exact h.of_actOf hignored hact hself
      · cases hstep
  · cases hstep

theorem Kept.after {l : Label} (h : Kept k old s.table s.caller) (hinv : Inv k s)
    (hignored : k.ignored = false) (hstep : step k s l = some t) :
    Kept k old t.table t.caller := by
  cases l with
  | test =>
      have htest : test k s = some t := hstep
      unfold test at htest
      split at htest
      · next hcaller _ =>
          cases htest
          exact h.of_pc (by rw [hcaller]; nofun) nofun
      · next hcaller _ =>
          cases htest
          exact h.of_pc (by rw [hcaller]; nofun) nofun
      · cases htest
  | fork pid => exact h.fork hstep
  | execl ok =>
      have hexecl : execl k s ok = some t := hstep
      unfold execl at hexecl
      split at hexecl
      · split at hexecl
        · cases hexecl
          exact h
        · cases hexecl
          exact h
      · cases hexecl
  | exit127 =>
      have hexit : exit127 k s = some t := hstep
      unfold exit127 at hexit
      split at hexit
      · next c hchild =>
          have hcc := (hinv.alive c (by rw [hchild]; rfl)).2.1
          rcases Option.map_eq_some_iff.mp hexit with ⟨u, hact, heq⟩
          cases heq
          exact h.of_actOf hignored
            (show actOf k s.table (Act.exit c (encode (Ending.exited 127))) = some u from hact) hcc
      · cases hexit
  | program a => exact h.program hinv hignored hstep
  | interrupt =>
      have hinterrupt : interrupt s = some t := hstep
      unfold interrupt at hinterrupt
      split at hinterrupt
      · cases hinterrupt
        exact h
      · cases hinterrupt
  | waitpid => exact h.waitpid hinv hignored hstep
  | other a =>
      have hother : System.other k s a = some t := hstep
      unfold System.other at hother
      split at hother
      · cases hother
      · next hmine =>
          rcases Option.map_eq_some_iff.mp hother with ⟨u, hact, heq⟩
          cases heq
          exact h.of_actOf hignored hact (fun heq => hmine (Or.inl heq))

theorem run_kept {ls : List Label} (h : Kept k old s.table s.caller) (hinv : Inv k s)
    (hignored : k.ignored = false) (hrun : (machine k).run s ls = some t) :
    Kept k old t.table t.caller := by
  have hboth := Machine.invariant_of_run (M := machine k)
    (I := fun u => Inv k u ∧ Kept k old u.table u.caller) (C := fun _ => True)
    (fun _ _ _ hu _ hst => ⟨hu.1.after hst, hu.2.after hu.1 hignored hst⟩) ⟨hinv, h⟩
    (fun _ _ => trivial) hrun
  exact hboth.2

end

/-!
# What System returns
-/

def Childless (k : Setting) (v : Int) : Prop :=
  (k.cmdstring = none ∧ v = 1) ∨ (k.cmdstring ≠ none ∧ v = -1)

def busy : State where
  table := fun q =>
    if q = 1 then
      some { parent := 0, life := Life.running }
    else if q = 200 then
      some { parent := 1, life := Life.running }
    else if q = 201 then
      some { parent := 200, life := Life.zombie 256 }
    else
      none
  caller := CallerPc.begin
  child := ChildPc.none

def date : Setting where
  caller := 200
  cmdstring := some "date"
  ignored := false
  apart := by decide

theorem busy_start : start date busy :=
  ⟨rfl, rfl, rfl, rfl⟩

def runDate : List Label :=
  [Label.test, Label.fork (some 202), Label.interrupt, Label.execl true,
    Label.program (Act.fork 202 203), Label.other (Act.exit 203 0),
    Label.program (Act.waitpid 202 203), Label.program (Act.exit 202 0), Label.waitpid]

/-- Without a child the value is 1 for a null command, else -1.  Otherwise the child
has ended and is no zombie any more; it was the shell for the command or has exited
with 127, and the value is its status unless the caller ignores `SIGCHLD`. -/
theorem system_result {k : Setting} {s : State} {v : Int} (h : (machine k).Reachable s)
    (hreturned : s.caller = CallerPc.returned v) :
    (s.child = ChildPc.none ∧ Childless k v) ∨
      exists c status image, s.child = ChildPc.ended c status image ∧
        ImageOk k status image ∧ ¬ Child s.table k.caller c ∧
        v = if k.ignored then -1 else (status : Int) := by
  have hinv := reachable_inv h
  have hok := hinv.child
  unfold ChildOk at hok
  have halive : forall c, s.child.pid ≠ some c := by
    intro c hc
    have hwait := (hinv.alive c hc).1
    rw [hreturned] at hwait
    cases hwait
  cases hpc : s.child with
  | none =>
      rw [hpc, hreturned] at hok
      refine Or.inl ⟨rfl, ?_⟩
      rcases hok with hfalse | ⟨hfalse, _⟩ | ⟨hv, hcmd⟩ | ⟨hv, hcmd⟩
      · cases hfalse
      · cases hfalse
      · cases hv
        exact Or.inl ⟨hcmd, rfl⟩
      · cases hv
        exact Or.inr ⟨hcmd, rfl⟩
  | ended c status image =>
      rw [hpc, hreturned] at hok
      rcases hok with ⟨_, himage, ⟨hfalse, _⟩ | ⟨hv, hgone⟩⟩
      · cases hfalse
      · cases hv
        exact Or.inr ⟨c, status, image, rfl, himage, hgone, rfl⟩
  | execl c => exact absurd (by rw [hpc]; rfl) (halive c)
  | exit127 c => exact absurd (by rw [hpc]; rfl) (halive c)
  | program c image => exact absurd (by rw [hpc]; rfl) (halive c)

theorem system_result_date :
    exists s, (machine date).run busy runDate = some s ∧
      s.caller = CallerPc.returned 0 ∧ ¬ Child s.table 200 202 := by
  refine ⟨_, rfl, rfl, ?_⟩
  have hreachable := Machine.reachable_of_run (Machine.ReachableUnder.init busy_start)
    (show (machine date).run busy runDate = some _ from rfl)
  rcases system_result hreachable rfl with
    ⟨hfalse, _⟩ | ⟨c, status, image, hchild, _, hgone, _⟩
  · cases hfalse
  · cases hchild
    exact hgone

/-- The wait blocks while the child runs, and only then, whatever signals come. -/
theorem waitpid_blocks_iff {k : Setting} {s : State} {c : Pid} (h : (machine k).Reachable s)
    (hcaller : s.caller = CallerPc.waitpid c) :
    step k s Label.waitpid = none ↔ s.child.pid = some c := by
  have hinv := reachable_inv h
  have hstep : step k s Label.waitpid = (Processes.waitpid s.table k.caller c).map
      (fun r =>
        { s with
          table := r.2
          caller := CallerPc.returned
            (match r.1 with
            | some status => status
            | none => -1) }) := by
    show waitpid k s = _
    unfold waitpid
    rw [hcaller]
  rw [hstep, Option.map_eq_none_iff]
  constructor
  · intro hnone
    cases hpc : s.child.pid with
    | none =>
        exfalso
        rcases hinv.ended_of_waits hcaller hpc with ⟨status, image, _, _, _, htable⟩
        split at htable
        · rw [waitpid_other htable] at hnone
          cases hnone
        · rw [waitpid_zombie htable] at hnone
          cases hnone
    | some d =>
        have hwait := (hinv.alive d hpc).1
        rw [hcaller] at hwait
        cases hwait
        rfl
  · intro hpid
    exact waitpid_running (hinv.alive c hpid).2.2.2.2

theorem waitpid_blocks_iff_date :
    exists s, (machine date).run busy (runDate.take 4) = some s ∧
      step date s Label.waitpid = none := by
  refine ⟨_, rfl, ?_⟩
  have hreachable := Machine.reachable_of_run (Machine.ReachableUnder.init busy_start)
    (show (machine date).run busy (runDate.take 4) = some _ from rfl)
  exact (waitpid_blocks_iff hreachable rfl).mpr rfl

end System
end Apue
