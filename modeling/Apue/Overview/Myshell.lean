import Apue.Foundation.Block
import Apue.Foundation.Fgets
import Apue.Foundation.Transition

/-!
# myshell

A line of standard input is the name of a program that a child runs while the
shell waits for it.  The shell reads ahead: the buffer of its stream holds bytes
that `fgets` has not returned yet.  The offset of standard input is shared with
the children and with whoever else has it open.
-/

namespace Apue
namespace Myshell

open Foundation

def MAXLINE : Nat := 4096

/-- What the shell and its children do and what they print, prompts and error
messages; those of `err_sys` are the last. -/
inductive Event where
  | prompt
  | fgets
  | fork (pid : Nat)
  | forkError
  | execlp (pid : Nat) (name : List Byte)
  | couldntExecute (pid : Nat) (name : List Byte)
  | waitpid (pid : Nat)
  | waitError (pid : Nat)
  | signalError
  | interrupt
  deriving Repr, DecidableEq

/-- Standard input.  `first` is its offset when the shell starts, `position` the
one behind the last bytes that the shell has read, and `ahead` are the bytes that
it has read and `fgets` has not returned. -/
structure Stdin where
  file : List Byte
  seekable : Bool
  first : Nat
  offset : Nat
  position : Nat
  ahead : List Byte
  eof : Bool
  deriving Repr, DecidableEq

namespace Stdin

def input (f : Stdin) : List Byte :=
  f.file.drop f.first

/-- `fgets` returns without another `read`. -/
def ready (f : Stdin) : Bool :=
  newline ∈ f.ahead || MAXLINE - 1 ≤ f.ahead.length || f.eof

/-- One `read` of the stream, which delivers `n` bytes, none only at the end. -/
def read (f : Stdin) (n : Nat) : Option Stdin :=
  if n ≤ (f.file.drop f.offset).length ∧ (n = 0 -> f.file.drop f.offset = []) then
    some
      { f with
        offset := f.offset + n
        position := f.offset + n
        ahead := f.ahead ++ (f.file.drop f.offset).take n
        eof := n = 0 }
  else
    none

/-- What `exit` does with the stream in a child: the bytes ahead are given back,
by a seek from where the shared offset is. -/
def exit (f : Stdin) : Stdin :=
  if f.seekable = true ∧ f.ahead.length ≤ f.offset then
    { f with offset := f.offset - f.ahead.length }
  else
    f

/-- Another process reads standard input or moves its offset. -/
def move (f : Stdin) (offset : Nat) : Option Stdin :=
  if f.seekable = true ∨ f.offset ≤ offset then
    some { f with offset }
  else
    none

end Stdin

inductive Phase where
  | installing
  | reading
  | forking
  | waiting (pid : Nat)
  | exited (status : Nat)
  /-- An index outside of `buf` has been evaluated. -/
  | outside (index : Nat)
  deriving Repr, DecidableEq

structure Child where
  pid : Nat
  name : List Byte
  deriving Repr, DecidableEq

structure State where
  stdin : Stdin
  /-- The program is `signals`, which has a handler for `SIGINT`. -/
  handler : Bool
  buf : Block MAXLINE
  child : Option Child
  phase : Phase
  log : List Event
  deriving DecidableEq

/-- The answers of the calls, and what happens to a child and to standard input
from outside. -/
inductive Label where
  | signal (ok : Bool)
  | read (answer : Option Nat)
  | fgets
  | fork (pid : Option Nat)
  | execlp (found : Bool)
  | killed
  | waitpid (ok : Bool)
  | others (offset : Nat)
  | interrupt
  deriving Repr, DecidableEq

/-- `n - 1` for an `n` of type `size_t`, in 64 bits -/
def minusOne (n : Nat) : Nat :=
  (n + 18446744073709551615) % 18446744073709551616

/-- `buf[strlen(buf) - 1]`; outside of `buf` it fails with the index. -/
def lastChar (buf : Block MAXLINE) : Except Nat Byte :=
  match buf.bytes[minusOne (str buf.bytes).length]? with
  | none => Except.error (minusOne (str buf.bytes).length)
  | some c => Except.ok c

def chop (buf : Block MAXLINE) : Except Nat (Block MAXLINE) :=
  match lastChar buf with
  | Except.error i => Except.error i
  | Except.ok c =>
      if c = newline then
        buf.store (minusOne (str buf.bytes).length) 0
      else
        Except.ok buf

/-- `signals` ends when the handler is not installed. -/
def signal (s : State) (ok : Bool) : Option State :=
  if s.phase = Phase.installing then
    if ok then
      some { s with phase := Phase.reading, log := s.log ++ [Event.prompt] }
    else
      some { s with phase := Phase.exited 1, log := s.log ++ [Event.signalError] }
  else
    none

/-- After a failing `read` the result of `fgets` is NULL. -/
def read (s : State) (answer : Option Nat) : Option State :=
  if s.phase = Phase.reading ∧ s.stdin.ready = false then
    match answer with
    | none => some { s with phase := Phase.exited 0 }
    | some n => (s.stdin.read n).map (fun stdin => { s with stdin })
  else
    none

def body (s : State) (text : List Byte) : State :=
  match s.buf.fill (text ++ [0]) with
  | Except.error i => { s with phase := Phase.outside i }
  | Except.ok buf =>
      match chop buf with
      | Except.error i => { s with phase := Phase.outside i }
      | Except.ok buf =>
          { s with buf, phase := Phase.forking, log := s.log ++ [Event.fgets] }

def getLine (s : State) : Option State :=
  if s.phase = Phase.reading ∧ s.stdin.ready = true then
    match Foundation.fgets MAXLINE s.stdin.ahead with
    | none => some { s with phase := Phase.exited 0 }
    | some (text, ahead) =>
        some (body { s with stdin := { s.stdin with ahead } } text)
  else
    none

def fork (s : State) (pid : Option Nat) : Option State :=
  if s.phase = Phase.forking then
    match pid with
    | none =>
        some { s with phase := Phase.exited 1, log := s.log ++ [Event.forkError] }
    | some pid =>
        some
          { s with
            child := some { pid, name := str s.buf.bytes }
            phase := Phase.waiting pid
            log := s.log ++ [Event.fork pid] }
  else
    none

/-- The child; when `execlp` returns, it prints its message and exits with status
127. -/
def execlp (s : State) (found : Bool) : Option State :=
  match s.child with
  | none => none
  | some c =>
      if found then
        some { s with child := none, log := s.log ++ [Event.execlp c.pid c.name] }
      else
        some
          { s with
            stdin := s.stdin.exit
            child := none
            log := s.log ++
              [Event.execlp c.pid c.name, Event.couldntExecute c.pid c.name] }

/-- A signal ends the child before it calls `execlp`. -/
def killed (s : State) : Option State :=
  match s.child with
  | none => none
  | some _ => some { s with child := none }

/-- The call returns the child when the child has come to its end; it can fail
before that. -/
def waitpid (s : State) (ok : Bool) : Option State :=
  match s.phase with
  | Phase.waiting pid =>
      if ok then
        if s.child = none then
          some
            { s with
              phase := Phase.reading
              log := s.log ++ [Event.waitpid pid, Event.prompt] }
        else
          none
      else
        some { s with phase := Phase.exited 1, log := s.log ++ [Event.waitError pid] }
  | _ => none

/-- The handler prints; the calls that it interrupts are started again. -/
def sig_int (s : State) : Option State :=
  if s.handler = true then
    match s.phase with
    | Phase.installing => none
    | Phase.exited _ => none
    | Phase.outside _ => none
    | _ => some { s with log := s.log ++ [Event.interrupt] }
  else
    none

def step (s : State) : Label -> Option State
  | Label.signal ok => signal s ok
  | Label.read answer => read s answer
  | Label.fgets => getLine s
  | Label.fork pid => fork s pid
  | Label.execlp found => execlp s found
  | Label.killed => killed s
  | Label.waitpid ok => waitpid s ok
  | Label.others offset => (s.stdin.move offset).map (fun stdin => { s with stdin })
  | Label.interrupt => sig_int s

def Stdin.opened (file : List Byte) (seekable : Bool) (first : Nat) : Stdin where
  file := file
  seekable := seekable
  first := first
  offset := first
  position := first
  ahead := []
  eof := false

def myshell (stdin : Stdin) (buf : Block MAXLINE) : State where
  stdin := stdin
  handler := false
  buf := buf
  child := none
  phase := Phase.reading
  log := [Event.prompt]

def signals (stdin : Stdin) (buf : Block MAXLINE) : State where
  stdin := stdin
  handler := true
  buf := buf
  child := none
  phase := Phase.installing
  log := []

def machine : Machine State Label where
  init s := exists file seekable first buf,
    s = myshell (Stdin.opened file seekable first) buf ∨
      s = signals (Stdin.opened file seekable first) buf
  step := step

/-!
# What the shell is for
-/

/-- No zero byte in the lines, and each of them fits into `buf`. -/
def Plain (input : List Byte) : Prop :=
  forall l, l ∈ lines input -> l.length < MAXLINE - 1 ∧ forall b, b ∈ l -> b ≠ 0

/-- A line is returned, a child is created and given its name, and waited for. -/
def session (turn : List Byte × Nat) : List Event :=
  [Event.fgets, Event.fork turn.2, Event.execlp turn.2 turn.1, Event.waitpid turn.2]

def Event.isCall : Event -> Bool
  | Event.fgets => true
  | Event.fork _ => true
  | Event.execlp _ _ => true
  | Event.waitpid _ => true
  | _ => false

def calls (log : List Event) : List Event :=
  log.filter Event.isCall

/-- No index outside of `buf` has been evaluated. -/
def Inside (s : State) : Prop :=
  forall i, s.phase ≠ Phase.outside i

/-- One child for each of the first lines of the input, and one for each of all the
lines when the shell ends with status 0. -/
def OneChildALine (input : List Byte) (s : State) : Prop :=
  exists pids : List Nat,
    calls s.log <+: ((lines input).zip pids).flatMap session ∧
      (s.phase = Phase.exited 0 -> pids.length = (lines input).length ∧
        calls s.log = ((lines input).zip pids).flatMap session)

def FrontNonzero (s : State) (l : Label) : Bool :=
  match l with
  | Label.fgets =>
      match Foundation.fgets MAXLINE s.stdin.ahead with
      | none => true
      | some (text, _) => text.head? ≠ some 0
  | _ => true

/-- A `read` goes on where the last one of the shell has ended, and does not fail;
no child is killed before its `execlp`. -/
def Undisturbed (s : State) (l : Label) : Bool :=
  match l with
  | Label.read none => false
  | Label.read (some _) => s.stdin.offset = s.stdin.position
  | Label.killed => false
  | _ => true

/-!
# The end of a line
-/

theorem minusOne_succ {n : Nat} (h : n < MAXLINE) : minusOne (n + 1) = n := by
  unfold MAXLINE at h
  unfold minusOne
  lia

def chomp (s : List Byte) : List Byte :=
  if s.getLast? = some newline then s.dropLast else s

theorem lastChar_ok {buf : Block MAXLINE} {s rest : List Byte} {c : Byte}
    (hbuf : buf.bytes = s ++ [c] ++ rest) (hstr : str buf.bytes = s ++ [c]) :
    minusOne (str buf.bytes).length = s.length ∧ lastChar buf = Except.ok c := by
  have hlen := congrArg List.length hbuf
  rw [buf.length_eq] at hlen
  simp only [List.length_append, List.length_singleton] at hlen
  have hindex : minusOne (str buf.bytes).length = s.length := by
    rw [hstr, List.length_append, List.length_singleton]
    exact minusOne_succ (by lia)
  refine ⟨hindex, ?_⟩
  unfold lastChar
  rw [hindex, hbuf, List.append_assoc, List.getElem?_append_right (Nat.le_refl _),
    Nat.sub_self]
  rfl

theorem chop_ok {buf : Block MAXLINE} {text rest : List Byte}
    (hbuf : buf.bytes = text ++ 0 :: rest) (hne : str text ≠ []) :
    exists buf', chop buf = Except.ok buf' ∧ str buf'.bytes = chomp (str text) := by
  have hstr : str buf.bytes = str text := by
    rw [hbuf]
    exact str_append_nul text rest
  have hsplit : buf.bytes =
      str text ++ (text.dropWhile (fun x => x ≠ 0) ++ 0 :: rest) := by
    unfold str
    rw [← List.append_assoc, List.takeWhile_append_dropWhile]
    exact hbuf
  have hnul : forall x, x ∈ str text -> x ≠ 0 := by
    intro x hx
    simpa using List.mem_takeWhile_imp hx
  rcases List.eq_nil_or_concat (str text) with hnil | ⟨s, c, hs⟩
  · exact absurd hnil hne
  · rw [List.concat_eq_append] at hs
    rw [hs] at hsplit hstr hnul ⊢
    rcases lastChar_ok hsplit hstr with ⟨hindex, hlast⟩
    unfold chop chomp
    rw [hlast, hindex]
    dsimp only
    rw [List.getLast?_concat, List.dropLast_concat]
    by_cases hc : c = newline
    · have hin : s.length < MAXLINE := by
        have hlen := congrArg List.length hsplit
        rw [buf.length_eq] at hlen
        simp only [List.length_append, List.length_singleton] at hlen
        lia
      unfold Block.store
      rw [if_pos hc, if_pos (congrArg some hc), if_pos hin]
      refine ⟨_, rfl, ?_⟩
      show str (buf.bytes.set s.length 0) = s
      rw [hsplit, List.append_assoc, List.set_append_right s.length 0 (Nat.le_refl _),
        Nat.sub_self]
      exact takeWhile_eq_self (fun x hx => hnul x (List.mem_append_left [c] hx)) _
    · have hsome : some c ≠ some newline := fun heq => hc (Option.some.inj heq)
      rw [if_neg hc, if_neg hsome]
      exact ⟨buf, rfl, hstr⟩

theorem chop_error {buf : Block MAXLINE} (h : str buf.bytes = []) :
    chop buf = Except.error 18446744073709551615 := by
  have hnone : buf.bytes[minusOne 0]? = none := by
    rw [List.getElem?_eq_none_iff, buf.length_eq]
    decide
  unfold chop lastChar
  rw [h, List.length_nil, hnone]
  rfl

theorem chomp_piece {piece l : List Byte} (h : PieceOf piece l)
    (hnul : forall b, b ∈ l -> b ≠ 0) (hline : newline ∉ l) :
    chomp (str piece) = l := by
  rcases h with heq | ⟨heq, _⟩
  · have hall : forall b, b ∈ l ++ [newline] -> b ≠ 0 := by
      intro b hb
      rcases List.mem_append.mp hb with hb | hb
      · exact hnul b hb
      · rw [List.mem_singleton.mp hb]
        decide
    rw [heq, str_of_nulFree hall]
    unfold chomp
    rw [List.getLast?_concat, if_pos rfl, List.dropLast_concat]
  · rw [heq, str_of_nulFree hnul]
    unfold chomp
    rw [if_neg (fun hlast => hline (List.mem_of_getLast? hlast))]

theorem front_of_piece {piece l : List Byte} (h : PieceOf piece l)
    (hnul : forall b, b ∈ l -> b ≠ 0) : piece.head? ≠ some 0 := by
  cases l with
  | nil =>
      rcases h with heq | ⟨_, hne⟩
      · rw [heq]
        decide
      · exact absurd rfl hne
  | cons c rest =>
      have hc := hnul c List.mem_cons_self
      rcases h with heq | ⟨heq, _⟩
      · rw [heq]
        exact fun hzero => hc (Option.some.inj hzero)
      · rw [heq]
        exact fun hzero => hc (Option.some.inj hzero)

theorem str_ne_nil_iff {s : List Byte} (h : s ≠ []) :
    str s ≠ [] ↔ s.head? ≠ some 0 := by
  cases s with
  | nil => exact absurd rfl h
  | cons c rest => simp [str, List.takeWhile_cons]

theorem body_ok (s : State) {text : List Byte} (hfits : text.length < MAXLINE)
    (hfront : str text ≠ []) :
    exists buf, body s text =
        { s with buf, phase := Phase.forking, log := s.log ++ [Event.fgets] } ∧
      str buf.bytes = chomp (str text) := by
  have hle : (text ++ [0]).length ≤ MAXLINE := by
    rw [List.length_append]
    exact hfits
  rcases s.buf.fill_bytes hle with ⟨filled, hfill, hbytes⟩
  rw [List.append_assoc] at hbytes
  rcases chop_ok hbytes hfront with ⟨buf, hchop, hstr⟩
  refine ⟨buf, ?_, hstr⟩
  unfold body
  rw [hfill]
  dsimp only
  rw [hchop]

theorem body_nul (s : State) {text : List Byte} (hfits : text.length < MAXLINE)
    (hnil : str text = []) :
    body s text = { s with phase := Phase.outside 18446744073709551615 } := by
  have hle : (text ++ [0]).length ≤ MAXLINE := by
    rw [List.length_append]
    exact hfits
  rcases s.buf.fill_bytes hle with ⟨filled, hfill, hbytes⟩
  have hstr : str filled.bytes = [] := by
    rw [hbytes, List.append_assoc]
    exact (str_append_nul text _).trans hnil
  unfold body
  rw [hfill]
  dsimp only
  rw [chop_error hstr]

theorem body_inside_iff (s : State) {text : List Byte} (hne : text ≠ [])
    (hfits : text.length < MAXLINE) :
    Inside (body s text) ↔ text.head? ≠ some 0 := by
  rw [← str_ne_nil_iff hne]
  constructor
  · intro h hnil
    rw [body_nul s hfits hnil] at h
    exact h _ rfl
  · intro h i
    rcases body_ok s hfits h with ⟨buf, hbody, _⟩
    rw [hbody]
    exact Phase.noConfusion

/-!
# Where the index is evaluated
-/

section Steps

variable {s t : State} {l : Label}

theorem getLine_inside_iff (h : getLine s = some t) :
    Inside t ↔ FrontNonzero s Label.fgets = true := by
  unfold getLine at h
  unfold FrontNonzero
  split at h
  · cases hget : Foundation.fgets MAXLINE s.stdin.ahead with
    | none =>
        rw [hget] at h
        cases h
        exact iff_of_true (fun i => Phase.noConfusion) rfl
    | some piece =>
        rcases piece with ⟨text, ahead⟩
        rw [hget] at h
        cases h
        rcases fgets_some (by decide) hget with ⟨_, hne, hfits⟩
        rw [body_inside_iff _ hne hfits]
        exact (decide_eq_true_iff).symm
  · cases h

theorem inside_step_other (hs : Inside s) (hl : l ≠ Label.fgets)
    (h : step s l = some t) : Inside t := by
  have hsame : t.phase = s.phase -> Inside t := by
    intro heq i
    rw [heq]
    exact hs i
  cases l with
  | fgets => exact absurd rfl hl
  | signal ok =>
      change signal s ok = some t at h
      unfold signal at h
      split at h
      · split at h
        · cases h
          exact fun i => Phase.noConfusion
        · cases h
          exact fun i => Phase.noConfusion
      · cases h
  | read answer =>
      change read s answer = some t at h
      unfold read at h
      split at h
      · cases answer with
        | none =>
            cases h
            exact fun i => Phase.noConfusion
        | some n =>
            rcases Option.map_eq_some_iff.mp h with ⟨stdin, _, heq⟩
            exact hsame (by rw [← heq])
      · cases h
  | fork pid =>
      change fork s pid = some t at h
      unfold fork at h
      split at h
      · cases pid with
        | none =>
            cases h
            exact fun i => Phase.noConfusion
        | some pid =>
            cases h
            exact fun i => Phase.noConfusion
      · cases h
  | execlp found =>
      change execlp s found = some t at h
      unfold execlp at h
      split at h
      · cases h
      · split at h
        · cases h
          exact hsame rfl
        · cases h
          exact hsame rfl
  | killed =>
      change killed s = some t at h
      unfold killed at h
      split at h
      · cases h
      · cases h
        exact hsame rfl
  | waitpid ok =>
      change waitpid s ok = some t at h
      unfold waitpid at h
      split at h
      · split at h
        · split at h
          · cases h
            exact fun i => Phase.noConfusion
          · cases h
        · cases h
          exact fun i => Phase.noConfusion
      · cases h
  | others offset =>
      rcases Option.map_eq_some_iff.mp h with ⟨stdin, _, heq⟩
      exact hsame (by rw [← heq])
  | interrupt =>
      change sig_int s = some t at h
      unfold sig_int at h
      split at h
      · split at h
        · cases h
        · cases h
        · cases h
        · cases h
          exact hsame rfl
      · cases h

theorem inside_step_iff (hs : Inside s) (h : step s l = some t) :
    Inside t ↔ FrontNonzero s l = true := by
  by_cases hl : l = Label.fgets
  · rw [hl] at h ⊢
    exact getLine_inside_iff h
  · apply iff_of_true (inside_step_other hs hl h)
    cases l with
    | fgets => exact absurd rfl hl
    | _ => rfl

end Steps

/-!
# Line by line
-/

/-- What has not been returned to the shell of what it was given. -/
def Stdin.unread (f : Stdin) : List Byte :=
  f.ahead ++ f.file.drop f.position

inductive Stage where
  | between
  | got (name : List Byte)
  | forked (turn : List Byte × Nat)
  | ran (turn : List Byte × Nat)

namespace Stage

def calls : Stage -> List Event
  | between => []
  | got _ => [Event.fgets]
  | forked turn => [Event.fgets, Event.fork turn.2]
  | ran turn => [Event.fgets, Event.fork turn.2, Event.execlp turn.2 turn.1]

def turn : Stage -> List (List Byte × Nat)
  | between => []
  | got name => [(name, 0)]
  | forked turn => [turn]
  | ran turn => [turn]

theorem calls_isPrefix (stage : Stage) : stage.calls <+: stage.turn.flatMap session := by
  cases stage with
  | between => exact List.nil_prefix
  | got name => exact ⟨_, rfl⟩
  | forked turn => exact ⟨_, rfl⟩
  | ran turn => exact ⟨_, rfl⟩

def Fits (s : State) : Stage -> Prop
  | between => s.child = none ∧
      (s.phase = Phase.installing ∨ s.phase = Phase.reading ∨
        s.phase = Phase.exited 1 ∨
        s.phase = Phase.exited 0 ∧ lines s.stdin.unread = [])
  | got name => s.child = none ∧
      (s.phase = Phase.forking ∧ str s.buf.bytes = name ∨ s.phase = Phase.exited 1)
  | forked turn => s.child = some { pid := turn.2, name := turn.1 } ∧
      (s.phase = Phase.waiting turn.2 ∨ s.phase = Phase.exited 1)
  | ran turn => s.child = none ∧
      (s.phase = Phase.waiting turn.2 ∨ s.phase = Phase.exited 1)

end Stage

structure Fed (input : List Byte) (s : State) (past : List (List Byte × Nat))
    (stage : Stage) : Prop where
  same : s.stdin.input = input
  made : calls s.log = past.flatMap session ++ stage.calls
  split : lines input =
    past.map Prod.fst ++ stage.turn.map Prod.fst ++ lines s.stdin.unread
  eof : s.stdin.eof = true -> s.stdin.file.drop s.stdin.position = []
  fits : stage.Fits s

theorem calls_append (log more : List Event) :
    calls (log ++ more) = calls log ++ calls more :=
  List.filter_append log more

theorem calls_waited (pid : Nat) :
    calls [Event.waitpid pid, Event.prompt] = [Event.waitpid pid] := rfl

theorem Fed.oneChildALine {input : List Byte} {s : State}
    {past : List (List Byte × Nat)} {stage : Stage} (h : Fed input s past stage) :
    OneChildALine input s := by
  have hzip : (lines input).zip
      (past.map Prod.snd ++ stage.turn.map Prod.snd) = past ++ stage.turn := by
    rw [h.split, ← List.map_append, ← List.map_append,
      ← List.append_nil (List.map Prod.snd _), List.zip_append (by simp),
      List.zip_nil_right, List.append_nil]
    exact (List.zip_of_prod rfl rfl).symm
  refine ⟨past.map Prod.snd ++ stage.turn.map Prod.snd, ?_, ?_⟩
  · rw [hzip, h.made, List.flatMap_append]
    exact List.prefix_append_right_inj _ |>.mpr stage.calls_isPrefix
  · intro hphase
    have hbetween : stage = Stage.between ∧ lines s.stdin.unread = [] := by
      have hfits := h.fits
      cases stage with
      | between =>
          simp only [Stage.Fits, hphase] at hfits
          simpa using hfits.2
      | got name => simp [Stage.Fits, hphase] at hfits
      | forked turn => simp [Stage.Fits, hphase] at hfits
      | ran turn => simp [Stage.Fits, hphase] at hfits
    rcases hbetween with ⟨hstage, hnil⟩
    rw [hzip, h.made, h.split, hstage, hnil]
    simp [Stage.calls, Stage.turn]

section Run

variable {input : List Byte} {s t : State} {l : Label}
  {past : List (List Byte × Nat)} {stage : Stage}

theorem Fed.keep (h : Fed input s past stage)
    (hcalls : calls t.log = calls s.log)
    (hinput : t.stdin.input = s.stdin.input)
    (hunread : lines t.stdin.unread = lines s.stdin.unread)
    (heof : t.stdin.eof = true -> t.stdin.file.drop t.stdin.position = [])
    (hfits : stage.Fits t) : Fed input t past stage := by
  refine ⟨hinput.trans h.same, ?_, ?_, heof, hfits⟩
  · rw [hcalls, h.made]
  · rw [h.split, hunread]

theorem Fed.signal {ok : Bool} (h : Fed input s past stage)
    (hstep : Myshell.signal s ok = some t) : Fed input t past stage := by
  unfold Myshell.signal at hstep
  split at hstep
  · next hphase =>
      have hstage : s.child = none ∧ stage = Stage.between := by
        have hfits := h.fits
        cases stage with
        | between => exact ⟨hfits.1, rfl⟩
        | got name => simp [Stage.Fits, hphase] at hfits
        | forked turn => simp [Stage.Fits, hphase] at hfits
        | ran turn => simp [Stage.Fits, hphase] at hfits
      rcases hstage with ⟨hchild, hstage⟩
      rw [hstage] at h ⊢
      split at hstep
      · cases hstep
        exact h.keep (by rw [calls_append]; exact List.append_nil _) rfl rfl h.eof
          ⟨hchild, Or.inr (Or.inl rfl)⟩
      · cases hstep
        exact h.keep (by rw [calls_append]; exact List.append_nil _) rfl rfl h.eof
          ⟨hchild, Or.inr (Or.inr (Or.inl rfl))⟩
  · cases hstep

theorem Fed.reading (h : Fed input s past stage) (hphase : s.phase = Phase.reading) :
    s.child = none ∧ stage = Stage.between := by
  have hfits := h.fits
  cases stage with
  | between => exact ⟨hfits.1, rfl⟩
  | got name => simp [Stage.Fits, hphase] at hfits
  | forked turn => simp [Stage.Fits, hphase] at hfits
  | ran turn => simp [Stage.Fits, hphase] at hfits

theorem Stdin.read_unread {f f' : Stdin} {n : Nat} (hsame : f.offset = f.position)
    (h : f.read n = some f') : f'.unread = f.unread ∧ f'.input = f.input ∧
      (f'.eof = true -> f'.file.drop f'.position = []) := by
  unfold Stdin.read at h
  split at h
  · next hn =>
      cases h
      refine ⟨?_, rfl, ?_⟩
      · unfold Stdin.unread
        rw [List.append_assoc, ← List.drop_drop, List.take_append_drop, hsame]
      · intro heof
        have hzero : n = 0 := of_decide_eq_true heof
        have hend := hn.2 hzero
        simpa [hzero] using hend
  · cases h

theorem Fed.read {answer : Option Nat} (h : Fed input s past stage)
    (hC : Undisturbed s (Label.read answer) = true)
    (hstep : Myshell.read s answer = some t) : Fed input t past stage := by
  unfold Myshell.read at hstep
  split at hstep
  · next hphase =>
      rcases h.reading hphase.1 with ⟨hchild, hstage⟩
      cases answer with
      | none => cases hC
      | some n =>
          rcases Option.map_eq_some_iff.mp hstep with ⟨stdin, hread, heq⟩
          rcases Stdin.read_unread (of_decide_eq_true hC) hread with
            ⟨hunread, hinput, heof⟩
          rw [hstage] at h ⊢
          rw [← heq]
          exact h.keep rfl hinput (by rw [hunread]) heof
            ⟨hchild, Or.inr (Or.inl hphase.1)⟩
  · cases hstep

/-- With a piece ready, `fgets` returns the piece that it would take from all that
is unread. -/
theorem fgets_unread (h : Fed input s past stage) (hready : s.stdin.ready = true) :
    Foundation.fgets MAXLINE s.stdin.unread =
      (Foundation.fgets MAXLINE s.stdin.ahead).map
        (fun piece => (piece.1, piece.2 ++ s.stdin.file.drop s.stdin.position)) := by
  unfold Stdin.ready at hready
  rw [Bool.or_eq_true, Bool.or_eq_true] at hready
  unfold Stdin.unread
  rcases hready with hfull | heof
  · have hfull' : newline ∈ s.stdin.ahead ∨ MAXLINE - 1 ≤ s.stdin.ahead.length := by
      rcases hfull with hline | hlong
      · exact Or.inl (of_decide_eq_true hline)
      · exact Or.inr (of_decide_eq_true hlong)
    rcases fgets_append_of (by decide) hfull' with ⟨line, rest, hget, hmore⟩
    rw [hget, hmore]
    rfl
  · rw [h.eof heof, List.append_nil]
    cases Foundation.fgets MAXLINE s.stdin.ahead with
    | none => rfl
    | some piece => simp

theorem Fed.getLine (h : Fed input s past stage) (hplain : Plain input)
    (hstep : Myshell.getLine s = some t) :
    exists stage', Fed input t past stage' := by
  unfold Myshell.getLine at hstep
  split at hstep
  · next hphase =>
      rcases h.reading hphase.1 with ⟨hchild, hstage⟩
      rw [hstage] at h
      have hunread := fgets_unread h hphase.2
      have hlines := h.split
      rw [Stage.turn, List.map_nil, List.append_nil] at hlines
      cases hget : Foundation.fgets MAXLINE s.stdin.ahead with
      | none =>
          rw [hget] at hstep hunread
          cases hstep
          have hnil : s.stdin.unread = [] := fgets_eq_none.mp hunread
          refine ⟨Stage.between, h.keep rfl rfl rfl h.eof ⟨hchild, ?_⟩⟩
          exact Or.inr (Or.inr (Or.inr ⟨rfl, by rw [hnil]; rfl⟩))
      | some piece =>
          rcases piece with ⟨text, ahead⟩
          rw [hget] at hstep hunread
          cases hstep
          rcases fgets_some (by decide) hget with ⟨_, hne, hfits⟩
          cases hls : lines s.stdin.unread with
          | nil =>
              rw [lines_eq_nil hls] at hunread
              cases hunread
          | cons l ls =>
              have hmem : l ∈ lines input := by
                rw [hlines, hls]
                exact List.mem_append_right _ List.mem_cons_self
              rcases fgets_line hls (hplain l hmem).1 with
                ⟨piece, rest, hget', hpiece, hrest⟩
              rw [hget'] at hunread
              cases hunread
              have hchomp : chomp (str text) = l :=
                chomp_piece hpiece (hplain l hmem).2 (newline_not_mem_lines hmem)
              have hfront : str text ≠ [] := by
                rw [str_ne_nil_iff hne]
                intro hzero
                exact front_of_piece hpiece (hplain l hmem).2 hzero
              rcases body_ok { s with stdin := { s.stdin with ahead } } hfits hfront with
                ⟨buf, hbody, hstr⟩
              refine ⟨Stage.got l, ?_⟩
              rw [hbody]
              refine ⟨h.same, ?_, ?_, h.eof, hchild, Or.inl ⟨rfl, hstr.trans hchomp⟩⟩
              · change calls (s.log ++ [Event.fgets]) = _
                rw [calls_append, h.made, List.append_assoc]
                rfl
              · rw [hlines, hls, ← hrest]
                simp [Stage.turn, Stdin.unread]
  · cases hstep

theorem Fed.fork {pid : Option Nat} (h : Fed input s past stage)
    (hstep : Myshell.fork s pid = some t) : exists stage', Fed input t past stage' := by
  unfold Myshell.fork at hstep
  split at hstep
  · next hphase =>
      have hfits := h.fits
      cases stage with
      | between => simp [Stage.Fits, hphase] at hfits
      | forked turn => simp [Stage.Fits, hphase] at hfits
      | ran turn => simp [Stage.Fits, hphase] at hfits
      | got name =>
          have hname : str s.buf.bytes = name := by
            rcases hfits.2 with hbuf | hexit
            · exact hbuf.2
            · rw [hphase] at hexit
              cases hexit
          cases pid with
          | none =>
              cases hstep
              exact ⟨Stage.got name,
                h.keep (by rw [calls_append]; exact List.append_nil _) rfl rfl h.eof
                  ⟨hfits.1, Or.inr rfl⟩⟩
          | some pid =>
              cases hstep
              refine ⟨Stage.forked (name, pid), h.same, ?_, h.split, h.eof, ?_, Or.inl rfl⟩
              · rw [calls_append, h.made, List.append_assoc]
                rfl
              · rw [hname]
  · cases hstep

theorem Stdin.exit_same (f : Stdin) : f.exit.unread = f.unread ∧
    f.exit.input = f.input ∧ f.exit.eof = f.eof ∧
    f.exit.file.drop f.exit.position = f.file.drop f.position := by
  unfold Stdin.exit
  split
  · exact ⟨rfl, rfl, rfl, rfl⟩
  · exact ⟨rfl, rfl, rfl, rfl⟩

theorem Fed.execlp {found : Bool} (h : Fed input s past stage)
    (hstep : Myshell.execlp s found = some t) : exists stage', Fed input t past stage' := by
  unfold Myshell.execlp at hstep
  split at hstep
  · cases hstep
  · next c hchild =>
      have hfits := h.fits
      cases stage with
      | between => exact absurd (hchild.symm.trans hfits.1) (Option.some_ne_none c)
      | got name => exact absurd (hchild.symm.trans hfits.1) (Option.some_ne_none c)
      | ran turn => exact absurd (hchild.symm.trans hfits.1) (Option.some_ne_none c)
      | forked turn =>
          cases hchild.symm.trans hfits.1
          refine ⟨Stage.ran turn, ?_⟩
          split at hstep
          · cases hstep
            refine ⟨h.same, ?_, h.split, h.eof, rfl, hfits.2⟩
            rw [calls_append, h.made, List.append_assoc]
            rfl
          · cases hstep
            rcases s.stdin.exit_same with ⟨hunread, hinput, heof, hrest⟩
            refine ⟨hinput.trans h.same, ?_, ?_, ?_, rfl, hfits.2⟩
            · rw [calls_append, h.made, List.append_assoc]
              rfl
            · rw [hunread]
              exact h.split
            · rw [heof, hrest]
              exact h.eof

theorem Fed.waitpid {ok : Bool} (h : Fed input s past stage)
    (hstep : Myshell.waitpid s ok = some t) :
    exists past' stage', Fed input t past' stage' := by
  unfold Myshell.waitpid at hstep
  split at hstep
  · next pid hphase =>
      have hfits := h.fits
      split at hstep
      · split at hstep
        · next hchild =>
            cases hstep
            cases stage with
            | between => simp [Stage.Fits, hphase] at hfits
            | got name => simp [Stage.Fits, hphase] at hfits
            | forked turn =>
                exact absurd (hfits.1.symm.trans hchild) (Option.some_ne_none _)
            | ran turn =>
                have hpid : pid = turn.2 := by
                  rcases hfits.2 with hwaiting | hexit
                  · exact Phase.waiting.inj (hphase.symm.trans hwaiting)
                  · rw [hphase] at hexit
                    cases hexit
                refine ⟨past ++ [turn], Stage.between, h.same, ?_, ?_, h.eof, hchild,
                  Or.inr (Or.inl rfl)⟩
                · rw [calls_append, h.made, hpid]
                  simp [Stage.calls, session, calls_waited]
                · rw [h.split]
                  simp [Stage.turn]
        · cases hstep
      · cases hstep
        refine ⟨past, stage, h.keep (by rw [calls_append]; exact List.append_nil _)
          rfl rfl h.eof ?_⟩
        cases stage with
        | between => simp [Stage.Fits, hphase] at hfits
        | got name => simp [Stage.Fits, hphase] at hfits
        | forked turn => exact ⟨hfits.1, Or.inr rfl⟩
        | ran turn => exact ⟨hfits.1, Or.inr rfl⟩
  · cases hstep

theorem Fed.step (h : Fed input s past stage) (hplain : Plain input)
    (hC : Undisturbed s l = true) (hstep : Myshell.step s l = some t) :
    exists past' stage', Fed input t past' stage' := by
  cases l with
  | signal ok => exact ⟨past, stage, h.signal hstep⟩
  | read answer => exact ⟨past, stage, h.read hC hstep⟩
  | fgets => exact ⟨past, h.getLine hplain hstep⟩
  | fork pid => exact ⟨past, h.fork hstep⟩
  | execlp found => exact ⟨past, h.execlp hstep⟩
  | killed => cases hC
  | waitpid ok => exact h.waitpid hstep
  | others offset =>
      rcases Option.map_eq_some_iff.mp hstep with ⟨stdin, hmove, heq⟩
      unfold Stdin.move at hmove
      split at hmove
      · cases hmove
        rw [← heq]
        exact ⟨past, stage, h.keep rfl rfl rfl h.eof h.fits⟩
      · cases hmove
  | interrupt =>
      change sig_int s = some t at hstep
      unfold sig_int at hstep
      split at hstep
      · split at hstep
        · cases hstep
        · cases hstep
        · cases hstep
        · cases hstep
          exact ⟨past, stage,
            h.keep (by rw [calls_append]; exact List.append_nil _) rfl rfl h.eof h.fits⟩
      · cases hstep

end Run

theorem fed_start {s : State} (hs : machine.init s) : Fed s.stdin.input s [] Stage.between := by
  rcases hs with ⟨file, seekable, first, buf, hs | hs⟩
  · rw [hs]
    exact ⟨rfl, rfl, rfl, Bool.noConfusion, rfl, Or.inr (Or.inl rfl)⟩
  · rw [hs]
    exact ⟨rfl, rfl, rfl, Bool.noConfusion, rfl, Or.inl rfl⟩

theorem inside_start {s : State} (hs : machine.init s) : Inside s := by
  rcases hs with ⟨file, seekable, first, buf, hs | hs⟩
  · rw [hs]
    exact fun i => Phase.noConfusion
  · rw [hs]
    exact fun i => Phase.noConfusion

/-- Along a run the shells stay inside of `buf` when no text that `fgets` returns
begins with a zero byte, and only then; plain input that is read undisturbed is
run line by line. -/
theorem shells_run {s t : State} {ls : List Label} (hs : machine.init s)
    (hrun : machine.run s ls = some t) :
    ((forall u, machine.Visits s ls u -> Inside u) ↔
        machine.RunMeets (fun u l => FrontNonzero u l = true) s ls) ∧
      (Plain s.stdin.input ->
        machine.RunMeets (fun u l => Undisturbed u l = true) s ls ->
          forall u, machine.Visits s ls u -> OneChildALine s.stdin.input u) := by
  constructor
  · exact Machine.visits_iff_runMeets (I := fun _ => True) (fun _ _ _ _ _ => trivial)
      (fun _ _ _ _ hin hstep => inside_step_iff hin hstep) trivial (inside_start hs) hrun
  · intro hplain hmeets u hu
    have hfed : exists past stage, Fed s.stdin.input u past stage := by
      apply Machine.visits_invariant (I := fun v => exists past stage,
        Fed s.stdin.input v past stage) _ ⟨[], Stage.between, fed_start hs⟩ hmeets hu
      rintro v l w ⟨past, stage, hv⟩ hC hstep
      exact hv.step hplain hC hstep
    rcases hfed with ⟨past, stage, hu⟩
    exact hu.oneChildALine

def twoLines : State :=
  myshell (Stdin.opened [120, newline, 121, newline] true 0) (Block.zeros MAXLINE)

theorem twoLines_init : machine.init twoLines :=
  ⟨_, true, 0, _, Or.inl rfl⟩

theorem twoLines_plain : Plain twoLines.stdin.input := by
  have hlines : lines twoLines.stdin.input = [[120], [121]] := rfl
  intro l hl
  rw [hlines] at hl
  rcases List.mem_cons.mp hl with heq | hl
  · rw [heq]
    exact ⟨by decide, fun b hb => by rw [List.mem_singleton.mp hb]; decide⟩
  · rw [List.mem_singleton.mp hl]
    exact ⟨by decide, fun b hb => by rw [List.mem_singleton.mp hb]; decide⟩

/-- The `read` that delivers all of it, and the first child, for which `execlp`
fails. -/
def firstLine : List Label :=
  [Label.read (some 4), Label.fgets, Label.fork (some 2), Label.execlp false,
    Label.waitpid true]

def secondLine (pid : Nat) : List Label :=
  [Label.fgets, Label.fork (some pid), Label.execlp true, Label.waitpid true]

def names (log : List Event) : List (List Byte) :=
  log.filterMap
    (fun e =>
      match e with
      | Event.execlp _ name => some name
      | _ => none)

/-- For a line that consists of a zero byte the largest index there is is evaluated.
When the first child gives the second line back, that line is run twice. -/
theorem claim_fails :
    (machine.run (myshell (Stdin.opened [0, newline] true 0) (Block.zeros MAXLINE))
        [Label.read (some 2), Label.fgets]).map (fun s => s.phase) =
          some (Phase.outside 18446744073709551615) ∧
      Plain twoLines.stdin.input ∧
      (machine.run twoLines
        (firstLine ++ secondLine 3 ++ Label.read (some 2) :: secondLine 4)).map
          (fun s => names s.log) = some [[120], [121], [121]] := by
  refine ⟨?_, twoLines_plain, rfl⟩
  show some (body _ [0, newline]).phase = _
  rw [body_nul _ (by decide) rfl]

theorem twoLines_run :
    exists t, machine.run twoLines (firstLine ++ secondLine 3) = some t ∧
      names t.log = [[120], [121]] ∧ Inside t ∧
      OneChildALine [120, newline, 121, newline] t := by
  have hrun : (machine.run twoLines (firstLine ++ secondLine 3)).map
      (fun s => names s.log) = some [[120], [121]] := rfl
  rcases Option.map_eq_some_iff.mp hrun with ⟨t, ht, hnames⟩
  have hvisits := Machine.visits_of_run ht
  have hboth := shells_run twoLines_init ht
  refine ⟨t, ht, hnames, ?_, ?_⟩
  · exact hboth.1.mpr (by decide) t hvisits
  · exact hboth.2 twoLines_plain (by decide) t hvisits

end Myshell
end Apue
