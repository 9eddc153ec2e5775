/-!
# Wait statuses

The status that `wait` stores is one word: the low seven bits tell how the process
ended or stopped, the next byte holds an exit status or the signal that stopped it.
`pr_exit` takes it apart with the macros of `<sys/wait.h>`.
-/

namespace Apue
namespace PrExit

/-- What a parent may hear of a child; a signal that ends a process has a number
below 127. -/
inductive Ending where
  | exited (code : Nat)
  | signaled (sig : Nat) (pos : 0 < sig) (small : sig < 127) (core : Bool)
  | stopped (sig : Nat) (pos : 0 < sig) (small : sig < 256)
  | continued

/-- The word for it; of an exit status only the low eight bits are kept. -/
def encode : Ending -> Nat
  | Ending.exited code => code % 256 * 256
  | Ending.signaled sig _ _ core => sig + if core then 128 else 0
  | Ending.stopped sig _ _ => sig * 256 + 127
  | Ending.continued => 65535

def WTERMSIG (status : Nat) : Nat :=
  status % 128

def WEXITSTATUS (status : Nat) : Nat :=
  status / 256 % 256

def WSTOPSIG (status : Nat) : Nat :=
  WEXITSTATUS status

def WIFEXITED (status : Nat) : Bool :=
  WTERMSIG status = 0

def WIFSIGNALED (status : Nat) : Bool :=
  0 < WTERMSIG status && WTERMSIG status < 127

def WCOREDUMP (status : Nat) : Bool :=
  status / 128 % 2 = 1

def WIFSTOPPED (status : Nat) : Bool :=
  status % 256 = 127

/-- The texts around the numbers; the three programs with a `pr_exit` differ in
them. -/
structure Texts where
  normal : String
  abnormal : String
  core : String
  stopped : String

/-- The body of `pr_exit`; of a process that was continued it prints nothing. -/
def pr_exit_with (x : Texts) (status : Nat) : String :=
  if WIFEXITED status then
    x.normal ++ toString (WEXITSTATUS status) ++ "\n"
  else if WIFSIGNALED status then
    x.abnormal ++ toString (WTERMSIG status) ++
      (if WCOREDUMP status then x.core else "") ++ "\n"
  else if WIFSTOPPED status then
    x.stopped ++ toString (WSTOPSIG status) ++ "\n"
  else
    ""

def useSystem : Texts where
  normal := "normal termination, exit status = "
  abnormal := "abnormal termination, signal number = "
  core := "(core file generated)"
  stopped := "child stopped, signal number =  "

def wait : Texts where
  normal := "normal termination, exit status = "
  abnormal := "abnormal termination, signal number = "
  core := " (core file generated)"
  stopped := "child stopped, signal number = "

def proctime : Texts where
  normal := "normal termination, exit statusn = "
  abnormal := "abnormal termination, signal number = "
  core := "(core file geneated)"
  stopped := "child stopped, signal number = "

/-- `pr_exit` of the program with `System`, of `wait.c` and of `proctime.c`. -/
def pr_exit : Nat -> String :=
  pr_exit_with useSystem

def pr_exit_wait : Nat -> String :=
  pr_exit_with wait

def pr_exit_proctime : Nat -> String :=
  pr_exit_with proctime

def line (x : Texts) : Ending -> String
  | Ending.exited code => x.normal ++ toString (code % 256) ++ "\n"
  | Ending.signaled sig _ _ core =>
      x.abnormal ++ toString sig ++ (if core then x.core else "") ++ "\n"
  | Ending.stopped sig _ _ => x.stopped ++ toString sig ++ "\n"
  | Ending.continued => ""

theorem termsig_signaled (sig : Nat) (core : Bool) (hsmall : sig < 127) :
    WTERMSIG (sig + if core then 128 else 0) = sig := by
  unfold WTERMSIG
  cases core with
  | true =>
      show (sig + 128) % 128 = sig
      lia
  | false =>
      show (sig + 0) % 128 = sig
      lia

theorem coredump_signaled (sig : Nat) (core : Bool) (hsmall : sig < 127) :
    WCOREDUMP (sig + if core then 128 else 0) = core := by
  unfold WCOREDUMP
  cases core with
  | true =>
      show decide ((sig + 128) / 128 % 2 = 1) = true
      exact decide_eq_true (by lia)
  | false =>
      show decide ((sig + 0) / 128 % 2 = 1) = false
      exact decide_eq_false (by lia)

theorem pr_exit_exited (x : Texts) (code : Nat) :
    pr_exit_with x (encode (Ending.exited code)) = line x (Ending.exited code) := by
  have hterm : WTERMSIG (code % 256 * 256) = 0 := by
    unfold WTERMSIG
    lia
  have hexit : WEXITSTATUS (code % 256 * 256) = code % 256 := by
    unfold WEXITSTATUS
    lia
  have hif : WIFEXITED (code % 256 * 256) = true := decide_eq_true hterm
  show pr_exit_with x (code % 256 * 256) = _
  unfold pr_exit_with
  rw [if_pos hif, hexit]
  rfl

theorem pr_exit_signaled (x : Texts) (sig : Nat) (hpos : 0 < sig) (hsmall : sig < 127)
    (core : Bool) :
    pr_exit_with x (encode (Ending.signaled sig hpos hsmall core)) =
      line x (Ending.signaled sig hpos hsmall core) := by
  have hterm := termsig_signaled sig core hsmall
  have hcore := coredump_signaled sig core hsmall
  show pr_exit_with x (sig + if core then 128 else 0) = _
  generalize (sig + if core then 128 else 0) = status at hterm hcore
  have hexited : ¬ WIFEXITED status = true := by
    unfold WIFEXITED
    rw [hterm, decide_eq_true_iff]
    lia
  have hsignaled : WIFSIGNALED status = true := by
    unfold WIFSIGNALED
    rw [hterm]
    simp [hpos, hsmall]
  unfold pr_exit_with
  rw [if_neg hexited, if_pos hsignaled, hterm, hcore]
  rfl

theorem pr_exit_stopped (x : Texts) (sig : Nat) (hpos : 0 < sig) (hsmall : sig < 256) :
    pr_exit_with x (encode (Ending.stopped sig hpos hsmall)) =
      line x (Ending.stopped sig hpos hsmall) := by
  have hterm : WTERMSIG (sig * 256 + 127) = 127 := by
    unfold WTERMSIG
    lia
  have hexited : ¬ WIFEXITED (sig * 256 + 127) = true := by
    unfold WIFEXITED
    rw [hterm]
    decide
  have hsignaled : ¬ WIFSIGNALED (sig * 256 + 127) = true := by
    unfold WIFSIGNALED
    rw [hterm]
    decide
  have hstopped : WIFSTOPPED (sig * 256 + 127) = true :=
    decide_eq_true (by lia)
  have hsig : WSTOPSIG (sig * 256 + 127) = sig := by
    unfold WSTOPSIG WEXITSTATUS
    lia
  show pr_exit_with x (sig * 256 + 127) = _
  unfold pr_exit_with
  rw [if_neg hexited, if_neg hsignaled, if_pos hstopped, hsig]
  rfl

theorem pr_exit_with_encode (x : Texts) (e : Ending) :
    pr_exit_with x (encode e) = line x e := by
  cases e with
  | exited code => exact pr_exit_exited x code
  | signaled sig hpos hsmall core => exact pr_exit_signaled x sig hpos hsmall core
  | stopped sig hpos hsmall => exact pr_exit_stopped x sig hpos hsmall
  | continued => rfl

/-- What `pr_exit` prints of a status is how the process ended. -/
theorem pr_exit_encode (e : Ending) :
    pr_exit (encode e) = line useSystem e ∧ pr_exit_wait (encode e) = line wait e ∧
      pr_exit_proctime (encode e) = line proctime e :=
  ⟨pr_exit_with_encode useSystem e, pr_exit_with_encode wait e,
    pr_exit_with_encode proctime e⟩

end PrExit
end Apue
