import Apue.Foundation.Block
import Apue.Foundation.Fgets
import Apue.Foundation.Signals

/-!
# A password from the terminal

`getpass_l` turns echoing off and blocks two signals while it reads a line into
a buffer of `MAX_PASS_LEN + 1` bytes.  The bytes that are available on the
terminal, less those that `TCSAFLUSH` throws away, are part of the state, and
every `getc` leaves a record of the signal mask and the terminal setting under
which it was made.
-/

namespace Apue
namespace Canon

open Foundation

abbrev Signo := Nat

def SIGINT : Signo := 2
def SIGTSTP : Signo := 20

/-- `tcflag_t` -/
abbrev Flags := BitVec 32

def ECHO : Flags := 8
def ECHOE : Flags := 16
def ECHOK : Flags := 32
def ECHONL : Flags := 64

structure Termios where
  c_iflag : Flags
  c_oflag : Flags
  c_cflag : Flags
  c_lflag : Flags
  c_line : Byte
  c_cc : List Byte

def MAX_PASS_LEN : Nat := 8

/-- The static buffer and the signal mask of the process, the terminal setting,
the bytes that can be read from the terminal, what was written to it, and the
mask and the setting at each `getc`. -/
structure State where
  buf : Block (MAX_PASS_LEN + 1)
  mask : SigSet Signo
  term : Termios
  input : List Byte
  output : List Byte
  reads : List (SigSet Signo × Termios)

/-- `sigprocmask(SIG_BLOCK, ...)` -/
def sigBlock (mask set : SigSet Signo) : SigSet Signo :=
  fun g => mask g || set g

/-- The set with `SIGINT` and `SIGTSTP`. -/
def sig : SigSet Signo :=
  fun g => g = SIGINT || g = SIGTSTP

/-- `c_lflag &= ~(ECHO | ECHOE | ECHOK | ECHONL)` -/
def noEcho (term : Termios) : Termios :=
  { term with c_lflag := term.c_lflag &&& ~~~(ECHO ||| ECHOE ||| ECHOK ||| ECHONL) }

/-- A `getc` after which `input` is left on the terminal. -/
def getc (s : State) (input : List Byte) : State :=
  { s with input, reads := s.reads ++ [(s.mask, s.term)] }

/-- The loop around `getc`, by recursion on what can be read; it ends with the
position of `ptr`, or with the index of a store outside of `buf`. -/
def reading (s : State) (ptr : Nat) : List Byte -> Except Nat (State × Nat)
  | [] => Except.ok (getc s [], ptr)
  | c :: rest =>
      if c = newline then
        Except.ok (getc s rest, ptr)
      else if ptr < MAX_PASS_LEN then
        match s.buf.store ptr c with
        | Except.error i => Except.error i
        | Except.ok buf => reading { getc s rest with buf } (ptr + 1) rest
      else
        reading (getc s rest) ptr rest

/-- The buffer that is returned, or a null pointer when the terminal cannot be
opened. -/
def getpass_l (opens : Bool) (prompt : CString) (s : State) :
    Except Nat (Option Buffer × State) :=
  if opens then
    let osig := s.mask
    let oldterm := s.term
    let s :=
      { s with
        mask := sigBlock s.mask sig
        term := noEcho oldterm
        output := s.output ++ prompt.bytes }
    match reading s 0 s.input with
    | Except.error i => Except.error i
    | Except.ok (s, ptr) =>
        match s.buf.store ptr 0 with
        | Except.error i => Except.error i
        | Except.ok buf =>
            Except.ok
              (some buf.bytes,
                { s with
                  buf
                  output := s.output ++ [newline]
                  term := oldterm
                  mask := osig })
  else
    Except.ok (none, s)

/-- A call, and what is typed on the terminal between the last call and this
one. -/
structure Call where
  typed : List Byte
  opens : Bool
  prompt : CString

def type (s : State) (typed : List Byte) : State :=
  { s with input := s.input ++ typed }

def getpasses : List Call -> State -> Except Nat (List (Option Buffer) × State)
  | [], s => Except.ok ([], s)
  | c :: rest, s =>
      match getpass_l c.opens c.prompt (type s c.typed) with
      | Except.error i => Except.error i
      | Except.ok (ret, s) =>
          match getpasses rest s with
          | Except.error i => Except.error i
          | Except.ok (rets, s) => Except.ok (ret :: rets, s)

/-!
# What a call is for
-/

def line (input : List Byte) : List Byte :=
  input.takeWhile (fun c => c ≠ newline)

def afterLine (input : List Byte) : List Byte :=
  (input.dropWhile (fun c => c ≠ newline)).tail

/-- Echoing is off and the two signals are blocked. -/
def Hidden (r : SigSet Signo × Termios) : Prop :=
  r.2.c_lflag &&& (ECHO ||| ECHOE ||| ECHOK ||| ECHONL) = 0 ∧
    r.1 SIGINT = true ∧ r.1 SIGTSTP = true

/-- A call that opens the terminal reads one line unseen and returns the first
bytes of it; it leaves the process and the terminal as they were. -/
structure Served (s : State) (ret : Option Buffer) (t : State) : Prop where
  consumed : t.input = afterLine s.input
  returned : exists b, ret = some b ∧ t.buf.bytes = b ∧
    b.take (min (line s.input).length MAX_PASS_LEN + 1) =
      (line s.input).take MAX_PASS_LEN ++ [0]
  hidden : exists rs, t.reads = s.reads ++ rs ∧ rs ≠ [] ∧
    forall r, r ∈ rs -> Hidden r
  term : t.term = s.term
  mask : t.mask = s.mask

/-- Each of a sequence of calls does what it is for; one that cannot open the
terminal returns a null pointer and does nothing else. -/
def AllServed : List Call -> State -> List (Option Buffer) -> State -> Prop
  | [], s, rets, t => rets = [] ∧ t = s
  | c :: rest, s, rets, t =>
      exists ret rets' u, rets = ret :: rets' ∧ AllServed rest u rets' t ∧
        if c.opens then
          Served (type s c.typed) ret u
        else
          ret = none ∧ u = type s c.typed

/-!
# The loop
-/

theorem line_of_newline (rest : List Byte) : line (newline :: rest) = [] := by
  simp [line]

theorem line_cons {c : Byte} (rest : List Byte) (hc : c ≠ newline) :
    line (c :: rest) = c :: line rest := by
  simp [line, hc]

theorem afterLine_of_newline (rest : List Byte) :
    afterLine (newline :: rest) = rest := by
  simp [afterLine]

theorem afterLine_cons {c : Byte} (rest : List Byte) (hc : c ≠ newline) :
    afterLine (c :: rest) = afterLine rest := by
  simp [afterLine, hc]

/-- How the loop ends that starts with `ptr` at some position. -/
structure Read (s : State) (ptr : Nat) (input : List Byte) (t : State)
    (ptr' : Nat) : Prop where
  stored : t.buf.bytes.take ptr' =
    (s.buf.bytes.take ptr ++ line input).take MAX_PASS_LEN
  length : ptr' = min (ptr + (line input).length) MAX_PASS_LEN
  consumed : t.input = afterLine input
  reads : t.reads = s.reads ++
    List.replicate ((line input).length + 1) (s.mask, s.term)

theorem read_getc {s : State} {ptr : Nat} (hptr : ptr ≤ MAX_PASS_LEN)
    {input rest : List Byte} (hline : line input = [])
    (hrest : afterLine input = rest) :
    Read s ptr input (getc s rest) ptr := by
  have hlen : (s.buf.bytes.take ptr).length ≤ MAX_PASS_LEN := by
    rw [List.length_take]
    lia
  refine ⟨?_, ?_, hrest.symm, ?_⟩
  · rw [hline, List.append_nil, List.take_of_length_le hlen]
    rfl
  · rw [hline, List.length_nil]
    lia
  · rw [hline]
    rfl

theorem reads_cons (s : State) {c : Byte} (rest : List Byte) (hc : c ≠ newline) :
    (getc s rest).reads ++ List.replicate ((line rest).length + 1) (s.mask, s.term) =
      s.reads ++ List.replicate ((line (c :: rest)).length + 1) (s.mask, s.term) := by
  rw [line_cons rest hc, List.length_cons, List.replicate_succ]
  show s.reads ++ [(s.mask, s.term)] ++ _ = _
  rw [List.append_assoc]
  rfl

theorem Read.kept {s t : State} {ptr ptr' : Nat} {c : Byte} {rest : List Byte}
    (hptr : ptr < MAX_PASS_LEN) (hc : c ≠ newline) {buf : Block (MAX_PASS_LEN + 1)}
    (hbuf : buf.bytes = s.buf.bytes.set ptr c)
    (h : Read { getc s rest with buf } (ptr + 1) rest t ptr') :
    Read s ptr (c :: rest) t ptr' := by
  have hin : ptr < s.buf.bytes.length := by
    rw [s.buf.length_eq]
    exact Nat.lt_succ_of_lt hptr
  refine ⟨?_, ?_, ?_, ?_⟩
  · rw [h.stored]
    show (buf.bytes.take (ptr + 1) ++ line rest).take MAX_PASS_LEN = _
    rw [hbuf, take_set_succ hin, line_cons rest hc, List.append_assoc]
    rfl
  · rw [h.length, line_cons rest hc, List.length_cons]
    lia
  · rw [h.consumed, afterLine_cons rest hc]
  · rw [h.reads]
    exact reads_cons s rest hc

theorem Read.skipped {s t : State} {ptr' : Nat} {c : Byte} {rest : List Byte}
    (hc : c ≠ newline) (h : Read (getc s rest) MAX_PASS_LEN rest t ptr') :
    Read s MAX_PASS_LEN (c :: rest) t ptr' := by
  have hfull : MAX_PASS_LEN ≤ (s.buf.bytes.take MAX_PASS_LEN).length := by
    rw [List.length_take, s.buf.length_eq]
    exact Nat.le_min.mpr ⟨Nat.le_refl _, Nat.le_succ _⟩
  refine ⟨?_, ?_, ?_, ?_⟩
  · rw [h.stored]
    show (s.buf.bytes.take MAX_PASS_LEN ++ line rest).take MAX_PASS_LEN = _
    rw [List.take_append_of_le_length hfull, List.take_append_of_le_length hfull]
  · rw [h.length, line_cons rest hc, List.length_cons]
    lia
  · rw [h.consumed, afterLine_cons rest hc]
  · rw [h.reads]
    exact reads_cons s rest hc

theorem reading_ok (input : List Byte) (s : State) (ptr : Nat)
    (hptr : ptr ≤ MAX_PASS_LEN) :
    exists t ptr', reading s ptr input = Except.ok (t, ptr') ∧
      Read s ptr input t ptr' := by
  induction input generalizing s ptr with
  | nil => exact ⟨_, _, rfl, read_getc hptr rfl rfl⟩
  | cons c rest ih =>
      unfold reading
      by_cases hc : c = newline
      · rw [if_pos hc, hc]
        exact ⟨_, _, rfl,
          read_getc hptr (line_of_newline rest) (afterLine_of_newline rest)⟩
      · rw [if_neg hc]
        rcases Nat.lt_or_eq_of_le hptr with hlt | heq
        · have hin : ptr < MAX_PASS_LEN + 1 := Nat.lt_succ_of_lt hlt
          rw [if_pos hlt]
          unfold Block.store
          rw [if_pos hin]
          dsimp only
          rcases ih _ (ptr + 1) hlt with ⟨t, ptr', hrun, hread⟩
          exact ⟨t, ptr', hrun, hread.kept hlt hc rfl⟩
        · rw [if_neg (by rw [heq]; exact Nat.lt_irrefl _)]
          rcases ih (getc s rest) ptr hptr with ⟨t, ptr', hrun, hread⟩
          rw [heq] at hread ⊢
          rw [heq] at hrun
          exact ⟨t, ptr', hrun, hread.skipped hc⟩

/-!
# Calls
-/

theorem hidden_noEcho (mask : SigSet Signo) (term : Termios) :
    Hidden (sigBlock mask sig, noEcho term) := by
  refine ⟨?_, ?_, ?_⟩
  · show term.c_lflag &&& ~~~(ECHO ||| ECHOE ||| ECHOK ||| ECHONL) &&&
      (ECHO ||| ECHOE ||| ECHOK ||| ECHONL) = 0
    rw [BitVec.and_assoc, BitVec.not_and_self]
    exact BitVec.and_zero
  · show (mask SIGINT || sig SIGINT) = true
    simp [sig]
  · show (mask SIGTSTP || sig SIGTSTP) = true
    simp [sig]

theorem getpass_l_served (prompt : CString) (s : State) :
    exists ret t, getpass_l true prompt s = Except.ok (ret, t) ∧
      Served s ret t := by
  unfold getpass_l
  rw [if_pos rfl]
  dsimp only
  rcases reading_ok s.input
      { s with
        mask := sigBlock s.mask sig
        term := noEcho s.term
        output := s.output ++ prompt.bytes } 0 (Nat.zero_le _) with
    ⟨t, ptr, hrun, hread⟩
  rw [hrun]
  dsimp only
  have hptr : ptr = min (line s.input).length MAX_PASS_LEN := by
    rw [hread.length, Nat.zero_add]
  have hin : ptr < MAX_PASS_LEN + 1 := by lia
  unfold Block.store
  rw [if_pos hin]
  refine ⟨_, _, rfl, hread.consumed, ⟨_, rfl, rfl, ?_⟩, ?_, rfl, rfl⟩
  · rw [← hptr, take_set_succ (by rw [t.buf.length_eq]; exact hin), hread.stored]
    rfl
  · refine ⟨_, hread.reads, List.cons_ne_nil _ _, ?_⟩
    intro r hr
    rw [(List.mem_replicate.mp hr).2]
    exact hidden_noEcho s.mask s.term

/-- Any sequence of calls reads one line a call without echo, stores nothing
outside of the buffer, and leaves the terminal setting and the signal mask as
they were. -/
theorem getpasses_restore (calls : List Call) (s : State) :
    exists rets t, getpasses calls s = Except.ok (rets, t) ∧
      AllServed calls s rets t ∧ t.term = s.term ∧ t.mask = s.mask := by
  induction calls generalizing s with
  | nil => exact ⟨[], s, rfl, ⟨rfl, rfl⟩, rfl, rfl⟩
  | cons c rest ih =>
      unfold getpasses
      cases hopens : c.opens with
      | true =>
          rcases getpass_l_served c.prompt (type s c.typed) with
            ⟨ret, u, hcall, hserved⟩
          rcases ih u with ⟨rets, t, hrun, hall, hterm, hmask⟩
          rw [hcall]
          dsimp only
          rw [hrun]
          refine ⟨ret :: rets, t, rfl, ⟨ret, rets, u, rfl, hall, ?_⟩, ?_, ?_⟩
          · rw [if_pos hopens]
            exact hserved
          · rw [hterm]
            exact hserved.term
          · rw [hmask]
            exact hserved.mask
      | false =>
          rcases ih (type s c.typed) with ⟨rets, t, hrun, hall, hterm, hmask⟩
          show exists rets t, (match getpasses rest (type s c.typed) with
            | Except.error i => Except.error i
            | Except.ok (rets, s) => Except.ok (none :: rets, s)) = _ ∧ _
          rw [hrun]
          refine ⟨none :: rets, t, rfl, ⟨none, rets, _, rfl, hall, ?_⟩, hterm, hmask⟩
          rw [hopens, if_neg Bool.false_ne_true]
          exact ⟨rfl, rfl⟩

end Canon
end Apue
