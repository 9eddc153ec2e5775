import Apue.FileIo.Dup2
import Apue.Foundation.CInt

/-!
# daemonize

What the daemon does with its descriptors: it closes those below a limit and expects
`open` and `dup` to hand out 0, 1 and 2.  What the system calls before that answer
is a parameter.
-/

namespace Apue
namespace Daemonize

open Kernel

variable {file : Type}

/-- What a descriptor of the daemon stands for: a file that the caller had open, or
`/dev/null`. -/
inductive Description (file : Type) where
  | inherited (f : file)
  | devNull
  deriving Repr, DecidableEq

/-- The value of `rlim_max`. -/
inductive Limit where
  | RLIM_INFINITY
  | finite (n : Nat)
  deriving Repr, DecidableEq

inductive Fork where
  | error
  | parent
  | child
  deriving Repr, DecidableEq

/-- The answers of the system calls that a process gets: whether they fail, and in
which process `fork` returns. -/
structure Answers where
  getrlimit : Option Limit
  fork : Fork
  sigactionFails : Bool
  forkAgain : Fork
  chdirFails : Bool
  openFails : Bool
  dupFails : Bool
  dupAgainFails : Bool
  deriving Repr, DecidableEq

inductive Message where
  | cantGetFileLimit
  | forkError
  | cantCatchSIGHUP
  | forkAgainError
  | chdirError
  | unexpectedFileDescriptors (fd0 fd1 fd2 : Int)
  deriving Repr, DecidableEq

/-- How a process leaves the function: by `exit`, past the check of its descriptors,
or nowhere when the loop's counter overflows. -/
inductive Outcome (file : Type) where
  | exit (status : Nat) (message : Option Message)
  | overflow
  | passed (t : FdTable (Description file))
  deriving Repr, DecidableEq

def error (m : Message) : Outcome file :=
  Outcome.exit 1 (some m)

/-- The table that both calls of `fork` hand on. -/
def inherit (t : FdTable file) : FdTable (Description file) where
  slots := t.slots.map (Option.map Description.inherited)

/-- `for (; i < lim.rlim_max; ++i) close(i)` with `n` turns left. -/
def closeLoop : Fd -> Nat -> FdTable (Description file) -> FdTable (Description file)
  | _, 0, t => t
  | i, n + 1, t => closeLoop (i + 1) n (t.close i)

/-- `open("/dev/null", O_RDWR)` -/
def openNull (fails : Bool) (t : FdTable (Description file)) :
    Int × FdTable (Description file) :=
  if fails then (-1, t)
  else
    let (fd, t) := t.install Description.devNull
    (fd, t)

/-- `dup(0)` -/
def dupZero (fails : Bool) (t : FdTable (Description file)) :
    Int × FdTable (Description file) :=
  match Dup2.dup t fails 0 with
  | none => (-1, t)
  | some (fd, t) => (fd, t)

def bound : Limit -> Nat
  | Limit.RLIM_INFINITY => 1024
  | Limit.finite n => n

def attach (sys : Answers) (rlim_max : Limit) (t : FdTable (Description file)) :
    Outcome file :=
  if Foundation.INT_MAX < bound rlim_max then Outcome.overflow
  else
    let t := closeLoop 0 (bound rlim_max) t
    let (fd0, t) := openNull sys.openFails t
    let (fd1, t) := dupZero sys.dupFails t
    let (fd2, t) := dupZero sys.dupAgainFails t
    if fd0 ≠ 0 ∨ fd1 ≠ 1 ∨ fd2 ≠ 2 then
      error (Message.unexpectedFileDescriptors fd0 fd1 fd2)
    else Outcome.passed t

def daemonize (sys : Answers) (t : FdTable file) : Outcome file :=
  match sys.getrlimit with
  | none => error Message.cantGetFileLimit
  | some rlim_max =>
      match sys.fork with
      | Fork.error => error Message.forkError
      | Fork.parent => Outcome.exit 0 none
      | Fork.child =>
          if sys.sigactionFails then error Message.cantCatchSIGHUP
          else
            match sys.forkAgain with
            | Fork.error => error Message.forkAgainError
            | Fork.parent => Outcome.exit 0 none
            | Fork.child =>
                if sys.chdirFails then error Message.chdirError
                else attach sys rlim_max (inherit t)

/-!
# The table
-/

theorem get_inherit (t : FdTable file) (d : Fd) :
    (inherit t).get d = (t.get d).map Description.inherited := by
  unfold inherit FdTable.get
  rw [List.getElem?_map]
  cases t.slots[d]? with
  | none => rfl
  | some slot => rfl

theorem get_closeLoop (i n : Nat) (t : FdTable (Description file)) (d : Fd) :
    (closeLoop i n t).get d = if i ≤ d ∧ d < i + n then none else t.get d := by
  induction n generalizing i t with
  | zero =>
      rw [if_neg (by lia)]
      rfl
  | succ n ih =>
      rw [closeLoop, ih, FdTable.get_close]
      by_cases heq : d = i
      · simp [heq]
      · have hiff : (i + 1 ≤ d ∧ d < i + 1 + n) ↔ (i ≤ d ∧ d < i + (n + 1)) := by lia
        simp only [hiff, heq, if_false]

/-- `/dev/null` is put where nothing was open. -/
structure Opened (t : FdTable (Description file)) (d : Fd)
    (t' : FdTable (Description file)) : Prop where
  free : t.get d = none
  get : forall e, t'.get e = if e = d then some Description.devNull else t.get e

theorem opened_install (t : FdTable (Description file)) :
    Opened t t.lowestFree (t.set t.lowestFree (some Description.devNull)) where
  free := t.get_lowestFree
  get := fun e => t.get_set _ e _

theorem openNull_opened {fails : Bool} {t t' : FdTable (Description file)} {d : Fd}
    (h : openNull fails t = ((d : Int), t')) : Opened t d t' := by
  unfold openNull at h
  cases fails with
  | true =>
      injection h with hd _
      lia
  | false =>
      injection h with hd ht
      rw [← ht, ← Int.ofNat.inj hd]
      exact opened_install t

theorem dupZero_opened {fails : Bool} {t t' : FdTable (Description file)} {d : Fd}
    (hzero : t.get 0 = some Description.devNull)
    (h : dupZero fails t = ((d : Int), t')) : Opened t d t' := by
  unfold dupZero Dup2.dup at h
  cases fails with
  | true =>
      injection h with hd _
      lia
  | false =>
      rw [hzero] at h
      injection h with hd ht
      rw [← ht, ← Int.ofNat.inj hd]
      exact opened_install t

theorem Opened.three {t t₀ t₁ t₂ : FdTable (Description file)} (h₀ : Opened t 0 t₀)
    (h₁ : Opened t₀ 1 t₁) (h₂ : Opened t₁ 2 t₂) (e : Fd) :
    (e < 3 -> t.get e = none) ∧
      t₂.get e = if e < 3 then some Description.devNull else t.get e := by
  have hfree₁ : t.get 1 = none := by
    rw [← h₁.free, h₀.get, if_neg (by lia)]
  have hfree₂ : t.get 2 = none := by
    rw [← h₂.free, h₁.get, if_neg (by lia), h₀.get, if_neg (by lia)]
  rw [h₂.get, h₁.get, h₀.get]
  constructor
  · intro he
    have hcases : e = 0 ∨ e = 1 ∨ e = 2 := by lia
    rcases hcases with heq | heq | heq
    · rw [heq]
      exact h₀.free
    · rw [heq]
      exact hfree₁
    · rw [heq]
      exact hfree₂
  · by_cases he : e < 3
    · rw [if_pos he]
      split
      · rfl
      · split
        · rfl
        · rw [if_pos (by lia)]
    · rw [if_neg he, if_neg (by lia), if_neg (by lia), if_neg (by lia)]

/-- Past the check, `/dev/null` is open at three descriptors that the loop has left
free. -/
theorem attach_passed {sys : Answers} {rlim_max : Limit}
    {t t' : FdTable (Description file)}
    (h : attach sys rlim_max t = Outcome.passed t') (e : Fd) :
    (e < 3 -> (closeLoop 0 (bound rlim_max) t).get e = none) ∧
      t'.get e =
        if e < 3 then some Description.devNull
        else (closeLoop 0 (bound rlim_max) t).get e := by
  unfold attach at h
  split at h
  · cases h
  · generalize closeLoop 0 (bound rlim_max) t = u at h ⊢
    rcases hopen : openNull sys.openFails u with ⟨fd0, t₀⟩
    rcases hdup : dupZero sys.dupFails t₀ with ⟨fd1, t₁⟩
    rcases hagain : dupZero sys.dupAgainFails t₁ with ⟨fd2, t₂⟩
    simp only [hopen, hdup, hagain] at h
    split at h
    · cases h
    · next hfds =>
        cases h
        have hfd0 : fd0 = ((0 : Nat) : Int) := by lia
        have hfd1 : fd1 = ((1 : Nat) : Int) := by lia
        have hfd2 : fd2 = ((2 : Nat) : Int) := by lia
        rw [hfd0] at hopen
        rw [hfd1] at hdup
        rw [hfd2] at hagain
        have h₀ := openNull_opened hopen
        have hzero₀ : t₀.get 0 = some Description.devNull := by
          rw [h₀.get, if_pos rfl]
        have h₁ := dupZero_opened hzero₀ hdup
        have hzero₁ : t₁.get 0 = some Description.devNull := by
          rw [h₁.get, if_neg (by lia), hzero₀]
        exact h₀.three h₁ (dupZero_opened hzero₁ hagain) e

theorem daemonize_passed {sys : Answers} {t : FdTable file}
    {t' : FdTable (Description file)} {rlim_max : Limit}
    (hlimit : sys.getrlimit = some rlim_max)
    (h : daemonize sys t = Outcome.passed t') :
    attach sys rlim_max (inherit t) = Outcome.passed t' := by
  unfold daemonize at h
  rw [hlimit] at h
  dsimp only at h
  split at h
  · cases h
  · cases h
  · split at h
    · cases h
    · split at h
      · cases h
      · cases h
      · split at h
        · cases h
        · exact h

theorem getrlimit_of_passed {sys : Answers} {t : FdTable file}
    {t' : FdTable (Description file)} (h : daemonize sys t = Outcome.passed t') :
    exists rlim_max, sys.getrlimit = some rlim_max := by
  cases hlimit : sys.getrlimit with
  | none =>
      unfold daemonize at h
      rw [hlimit] at h
      cases h
  | some rlim_max => exact ⟨rlim_max, rfl⟩

/-!
# What the daemon has open
-/

/-- Descriptors 0, 1 and 2 are open on `/dev/null`, and nothing is left of what the
caller had open. -/
structure Detached (t : FdTable (Description file)) : Prop where
  stdin : t.get 0 = some Description.devNull
  stdout : t.get 1 = some Description.devNull
  stderr : t.get 2 = some Description.devNull
  closed : forall d f, t.get d ≠ some (Description.inherited f)

theorem get_closed (t : FdTable file) (n : Nat) (d : Fd) :
    (closeLoop 0 n (inherit t)).get d =
      if d < n then none else (t.get d).map Description.inherited := by
  rw [get_closeLoop, get_inherit]
  simp

/-- The daemon has let go of the caller's files exactly when none of them was open
at or above the limit. -/
theorem detached_iff {sys : Answers} {t : FdTable file}
    {t' : FdTable (Description file)} {rlim_max : Limit}
    (hlimit : sys.getrlimit = some rlim_max)
    (h : daemonize sys t = Outcome.passed t') :
    Detached t' ↔ forall d, t.IsOpen d -> d < bound rlim_max := by
  have hpassed := attach_passed (daemonize_passed hlimit h)
  simp only [get_closed] at hpassed
  constructor
  · intro hdetached d hopen
    apply Nat.lt_of_not_le
    intro hle
    rcases Option.ne_none_iff_exists'.mp hopen with ⟨f, hf⟩
    have hbig : ¬ d < bound rlim_max := Nat.not_lt.mpr hle
    rcases hpassed d with ⟨hfree, hget⟩
    rw [if_neg hbig, hf] at hfree hget
    by_cases he : d < 3
    · cases hfree he
    · rw [if_neg he] at hget
      exact hdetached.closed d f hget
  · intro hbelow
    constructor
    · exact (hpassed 0).2
    · exact (hpassed 1).2
    · exact (hpassed 2).2
    · intro d f hf
      rw [(hpassed d).2] at hf
      split at hf
      · cases hf
      · split at hf
        · cases hf
        · next hlarge =>
            apply hlarge
            apply hbelow
            intro hnone
            rw [hnone] at hf
            cases hf

def surviving (rlim_max : Limit) : Answers where
  getrlimit := some rlim_max
  fork := Fork.child
  sigactionFails := false
  forkAgain := Fork.child
  chdirFails := false
  openFails := false
  dupFails := false
  dupAgainFails := false

def devNull : Option (Description Nat) :=
  some Description.devNull

theorem detached_iff_terminal :
    Detached
        { slots := [devNull, devNull, devNull, none, none, none, none, none] } ↔
      forall d, ({ slots := [some 7, some 7, some 7] } : FdTable Nat).IsOpen d ->
        d < bound (Limit.finite 8) :=
  @detached_iff Nat (surviving (Limit.finite 8)) _ _ _ rfl rfl

/-- The hard limit was lowered to 4 while descriptor 5 was open: the loop does not
come to it. -/
theorem open_above_limit :
    let t : FdTable Nat := { slots := [some 7, some 7, some 7, none, none, some 8] }
    let t' : FdTable (Description Nat) :=
      { slots := [devNull, devNull, devNull, none, none,
          some (Description.inherited 8)] }
    daemonize (surviving (Limit.finite 4)) t = Outcome.passed t' ∧
      t'.get 5 = some (Description.inherited 8) ∧ ¬ Detached t' :=
  ⟨rfl, rfl, fun h => h.closed 5 8 rfl⟩

end Daemonize
end Apue
