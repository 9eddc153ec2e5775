import Apue.Foundation.Fgets
import Apue.Foundation.Snoc
import Apue.Foundation.Transition

/-!
# The uptime service over datagrams

The client sends one byte and waits for one datagram.  The server takes the
request, runs the uptime command, sends its output piece by piece as `fgets`
delivers it, and exits.  Datagrams are neither lost nor reordered.  The client
does not look at the result of its `write`.
-/

namespace Apue
namespace Connless

open Foundation

def BUFLEN : Nat := 128

/-- `serve`: in `recvfrom`, before `popen`, before `fgets`, before `sendto` with
the piece in `buf`, and after `exit`. -/
inductive ServePc where
  | waiting
  | asked
  | reading
  | sending (buf : List Byte)
  | exited
  deriving Repr, DecidableEq

/-- `print_uptime`: before its first `getsockname`, before `sendto`, before the
second `getsockname`, in `recvfrom`, before `write` with what was received,
after the `write`, and after a `return` on an error or the alarm. -/
inductive PrintPc where
  | starting
  | asking
  | asked
  | receiving
  | writing (buf : List Byte)
  | finished
  | failed
  deriving Repr, DecidableEq

structure Sockname where
  sin_family : Nat
  sin_addr : Nat
  sin_port : Nat
  deriving Repr, DecidableEq

inductive Notice where
  | sockname (name : Sockname)
  | afterSendto
  | separator
  deriving Repr, DecidableEq

/-- The two loops, the request on its way, what is left of the command's output,
the datagrams on their way back, and what the client has printed about its
socket and written of the answer. -/
structure State where
  serve : ServePc
  requests : List (List Byte)
  output : List Byte
  answers : List (List Byte)
  print : PrintPc
  notices : List Notice
  stdout : List Byte
  deriving Repr, DecidableEq

/-- A step of the server; what a `getsockname` of the client returned; the
outcome of its `sendto`; its `recvfrom`; how many bytes its `write` takes, none when
it fails; the alarm. -/
inductive Label where
  | serve
  | getsockname (name : Option Sockname)
  | sendto (ok : Bool)
  | recvfrom
  | write (n : Nat)
  | alarm
  deriving Repr, DecidableEq

def serve (s : State) : Option State :=
  match s.serve with
  | ServePc.waiting =>
      match s.requests with
      | [] => none
      | _ :: rest => some { s with serve := ServePc.asked, requests := rest }
  | ServePc.asked => some { s with serve := ServePc.reading }
  | ServePc.reading =>
      match fgets BUFLEN s.output with
      | none => some { s with serve := ServePc.exited }
      | some (buf, rest) =>
          some { s with serve := ServePc.sending buf, output := rest }
  | ServePc.sending buf =>
      some { s with serve := ServePc.reading, answers := s.answers ++ [str buf] }
  | ServePc.exited => none

def getsockname (s : State) (name : Option Sockname) : Option State :=
  match s.print, name with
  | PrintPc.starting, some name =>
      some
        { s with
          print := PrintPc.asking
          notices := s.notices ++ [Notice.sockname name] }
  | PrintPc.asked, some name =>
      some
        { s with
          print := PrintPc.receiving
          notices := s.notices ++
            [Notice.afterSendto, Notice.sockname name, Notice.separator] }
  | PrintPc.starting, none => some { s with print := PrintPc.failed }
  | PrintPc.asked, none => some { s with print := PrintPc.failed }
  | _, _ => none

def sendto (s : State) (ok : Bool) : Option State :=
  match s.print with
  | PrintPc.asking =>
      if ok then
        some { s with print := PrintPc.asked, requests := s.requests ++ [[0]] }
      else
        some { s with print := PrintPc.failed }
  | _ => none

/-- The first datagram, cut to the size of the buffer. -/
def recvfrom (s : State) : Option State :=
  match s.print, s.answers with
  | PrintPc.receiving, datagram :: rest =>
      some
        { s with
          print := PrintPc.writing (datagram.take BUFLEN)
          answers := rest }
  | _, _ => none

def write (s : State) (n : Nat) : Option State :=
  match s.print with
  | PrintPc.writing buf =>
      some
        { s with
          print := PrintPc.finished
          stdout := s.stdout ++ buf.take n }
  | _ => none

/-- The alarm interrupts `recvfrom`. -/
def alarm (s : State) : Option State :=
  match s.print with
  | PrintPc.receiving => some { s with print := PrintPc.failed }
  | _ => none

def step (s : State) : Label -> Option State
  | Label.serve => serve s
  | Label.getsockname name => getsockname s name
  | Label.sendto ok => sendto s ok
  | Label.recvfrom => recvfrom s
  | Label.write n => write s n
  | Label.alarm => alarm s

def start (text : CString) : State where
  serve := ServePc.waiting
  requests := []
  output := text.bytes
  answers := []
  print := PrintPc.starting
  notices := []
  stdout := []

def machine (text : CString) : Machine State Label where
  init s := s = start text
  step := step

/-- A `write` takes all the bytes it is given. -/
def TakesAll (s : State) : Label -> Prop
  | Label.write n => forall buf, s.print = PrintPc.writing buf -> buf.length ≤ n
  | _ => True

/-!
# A text that is one piece
-/

/-- The text has room in the buffer and no newline before its end. -/
def OnePiece (text : CString) : Prop :=
  text.length < BUFLEN ∧ newline ∉ text.bytes.dropLast

theorem two_le_BUFLEN : 2 ≤ BUFLEN :=
  Nat.le_add_left 2 126

theorem fgets_onePiece {text : CString} (h : OnePiece text)
    {buf rest : List Byte} (hline : fgets BUFLEN text.bytes = some (buf, rest)) :
    buf = text.bytes ∧ rest = [] := by
  rcases fgets_some two_le_BUFLEN hline with ⟨happend, _, _⟩
  have hrest : rest = [] :=
    (fgets_last_iff hline).mpr ⟨Nat.le_sub_one_of_lt h.1, h.2⟩
  rw [hrest, List.append_nil] at happend
  exact ⟨happend, hrest⟩

/-- Everything that is read, sent, received and written is the whole text. -/
structure Whole (text : CString) (s : State) : Prop where
  output : s.output = text.bytes ∨ s.output = []
  sending : forall buf, s.serve = ServePc.sending buf -> buf = text.bytes
  answers : forall datagram, datagram ∈ s.answers -> datagram = text.bytes
  writing : forall buf, s.print = PrintPc.writing buf -> buf = text.bytes
  before : s.print ≠ PrintPc.finished -> s.stdout = []
  finished : s.print = PrintPc.finished -> s.stdout = text.bytes

theorem whole_start (text : CString) : Whole text (start text) := by
  constructor
  · exact Or.inl rfl
  · intro buf h
    cases h
  · intro datagram h
    cases h
  · intro buf h
    cases h
  · intro _
    rfl
  · intro h
    cases h

theorem Whole.serving {text : CString} {s : State} (h : Whole text s) {pc : ServePc}
    {requests answers : List (List Byte)} {output : List Byte}
    (hsending : forall buf, pc = ServePc.sending buf -> buf = text.bytes)
    (houtput : output = text.bytes ∨ output = [])
    (hanswers : forall datagram, datagram ∈ answers -> datagram = text.bytes) :
    Whole text
      { s with serve := pc, requests := requests, output := output,
               answers := answers } :=
  ⟨houtput, hsending, hanswers, h.writing, h.before, h.finished⟩

theorem Whole.reads {text : CString} {s : State} (h : Whole text s)
    (hone : OnePiece text) {buf rest : List Byte}
    (hline : fgets BUFLEN s.output = some (buf, rest)) :
    buf = text.bytes ∧ rest = [] := by
  rcases h.output with hall | hnil
  · rw [hall] at hline
    exact fgets_onePiece hone hline
  · rw [hnil] at hline
    cases hline

theorem Whole.idle {text : CString} {s : State} (h : Whole text s) {pc : ServePc}
    {requests : List (List Byte)} (hpc : forall buf, pc ≠ ServePc.sending buf) :
    Whole text { s with serve := pc, requests := requests } :=
  h.serving (fun buf heq => absurd heq (hpc buf)) h.output h.answers

theorem Whole.serve {text : CString} {s t : State} (h : Whole text s)
    (hone : OnePiece text) (ht : serve s = some t) : Whole text t := by
  unfold Connless.serve at ht
  cases hserve : s.serve with
  | waiting =>
      rw [hserve] at ht
      cases hreq : s.requests with
      | nil =>
          rw [hreq] at ht
          cases ht
      | cons request rest =>
          rw [hreq] at ht
          cases ht
          exact h.idle (fun _ => ServePc.noConfusion)
  | asked =>
      rw [hserve] at ht
      cases ht
      exact h.idle (fun _ => ServePc.noConfusion)
  | reading =>
      rw [hserve] at ht
      cases hline : fgets BUFLEN s.output with
      | none =>
          rw [hline] at ht
          cases ht
          exact h.idle (fun _ => ServePc.noConfusion)
      | some piece =>
          rcases piece with ⟨buf, rest⟩
          rw [hline] at ht
          cases ht
          rcases h.reads hone hline with ⟨hbuf, hrest⟩
          apply h.serving
          · intro buf' heq
            cases heq
            exact hbuf
          · exact Or.inr hrest
          · exact h.answers
  | sending buf =>
      rw [hserve] at ht
      cases ht
      have hstr : str buf = text.bytes := by
        rw [h.sending buf hserve]
        exact str_of_nulFree text.nulFree
      apply h.serving
      · intro buf' heq
        cases heq
      · exact h.output
      · intro datagram hmem
        rcases mem_snoc hmem with hold | hnew
        · exact h.answers datagram hold
        · rw [hnew]
          exact hstr
  | exited =>
      rw [hserve] at ht
      cases ht

def PrintPc.received : PrintPc -> Bool
  | PrintPc.writing _ => true
  | PrintPc.finished => true
  | _ => false

theorem Whole.unwritten {text : CString} {s : State} (h : Whole text s)
    {old pc : PrintPc} {requests : List (List Byte)} {notices : List Notice}
    (hprint : s.print = old) (hold : old.received = false)
    (hpc : pc.received = false) :
    Whole text
      { s with print := pc, requests := requests, notices := notices } := by
  refine ⟨h.output, h.sending, h.answers, ?_, ?_, ?_⟩
  · intro buf heq
    change pc = PrintPc.writing buf at heq
    rw [heq] at hpc
    cases hpc
  · intro _
    apply h.before
    rw [hprint]
    intro heq
    rw [heq] at hold
    cases hold
  · intro heq
    change pc = PrintPc.finished at heq
    rw [heq] at hpc
    cases hpc

theorem Whole.getsockname {text : CString} {s t : State}
    {name : Option Sockname} (h : Whole text s)
    (ht : getsockname s name = some t) : Whole text t := by
  unfold Connless.getsockname at ht
  split at ht
  · next hprint =>
      cases ht
      exact h.unwritten hprint rfl rfl
  · next hprint =>
      cases ht
      exact h.unwritten hprint rfl rfl
  · next hprint =>
      cases ht
      exact h.unwritten hprint rfl rfl
  · next hprint =>
      cases ht
      exact h.unwritten hprint rfl rfl
  · cases ht

theorem Whole.sendto {text : CString} {s t : State} {ok : Bool}
    (h : Whole text s) (ht : sendto s ok = some t) : Whole text t := by
  unfold Connless.sendto at ht
  split at ht
  · next hprint =>
      cases ok with
      | true =>
          cases ht
          exact h.unwritten hprint rfl rfl
      | false =>
          cases ht
          exact h.unwritten hprint rfl rfl
  · cases ht

theorem Whole.recvfrom {text : CString} {s t : State} (h : Whole text s)
    (hone : OnePiece text) (ht : recvfrom s = some t) : Whole text t := by
  unfold Connless.recvfrom at ht
  split at ht
  · next datagram rest hprint hanswers =>
      cases ht
      have hwhole := h.answers datagram (by rw [hanswers]; exact List.mem_cons_self)
      refine ⟨h.output, h.sending, ?_, ?_, ?_, ?_⟩
      · intro d hd
        apply h.answers
        rw [hanswers]
        exact List.mem_cons_of_mem datagram hd
      · intro buf heq
        cases heq
        rw [hwhole]
        exact List.take_of_length_le (Nat.le_of_lt hone.1)
      · intro _
        apply h.before
        rw [hprint]
        exact PrintPc.noConfusion
      · intro heq
        cases heq
  · cases ht

theorem Whole.write {text : CString} {s t : State} {n : Nat} (h : Whole text s)
    (hall : TakesAll s (Label.write n)) (ht : write s n = some t) :
    Whole text t := by
  unfold Connless.write at ht
  split at ht
  · next buf hprint =>
      cases ht
      have hnone : s.stdout = [] := by
        apply h.before
        rw [hprint]
        exact PrintPc.noConfusion
      refine ⟨h.output, h.sending, h.answers, ?_, ?_, ?_⟩
      · intro buf' heq
        cases heq
      · intro hne
        exact absurd rfl hne
      · intro _
        change s.stdout ++ buf.take n = text.bytes
        rw [hnone, List.nil_append, List.take_of_length_le (hall buf hprint)]
        exact h.writing buf hprint
  · cases ht

theorem Whole.alarm {text : CString} {s t : State} (h : Whole text s)
    (ht : alarm s = some t) : Whole text t := by
  unfold Connless.alarm at ht
  split at ht
  · next hprint =>
      cases ht
      exact h.unwritten hprint rfl rfl
  · cases ht

theorem whole_of_reachable {text : CString} (hone : OnePiece text) {s : State}
    (hs : (machine text).ReachableUnder TakesAll s) : Whole text s := by
  apply Machine.invariant_under _ _ hs
  · intro s hinit
    rw [hinit]
    exact whole_start text
  · intro s l t hI hl ht
    cases l with
    | serve => exact hI.serve hone ht
    | getsockname name => exact hI.getsockname ht
    | sendto ok => exact hI.sendto ht
    | recvfrom => exact hI.recvfrom hone ht
    | write n => exact hI.write hl ht
    | alarm => exact hI.alarm ht

/-!
# A text of several pieces

The client is content with the first datagram.
-/

def localName : Sockname where
  sin_family := 2
  sin_addr := 0
  sin_port := 40000

def firstAnswer : List Label :=
  [Label.getsockname (some localName), Label.sendto true,
    Label.getsockname (some localName), Label.serve, Label.serve, Label.serve,
    Label.serve, Label.recvfrom, Label.write BUFLEN]

theorem finished_with_first {text : CString} {buf rest : List Byte}
    (hline : fgets BUFLEN text.bytes = some (buf, rest)) :
    exists s, (machine text).run (start text) firstAnswer = some s ∧
      (machine text).RunMeets TakesAll (start text) firstAnswer ∧
      s.print = PrintPc.finished ∧ s.stdout = buf := by
  rcases fgets_some two_le_BUFLEN hline with ⟨happend, _, hlt⟩
  have hstr : str buf = buf := by
    apply str_of_nulFree
    intro b hb
    apply text.nulFree
    rw [← happend]
    exact List.mem_append_left rest hb
  have htake : buf.take BUFLEN = buf :=
    List.take_of_length_le (Nat.le_of_lt hlt)
  refine ⟨{ serve := ServePc.reading, requests := [], output := rest,
            answers := [], print := PrintPc.finished,
            notices := [Notice.sockname localName, Notice.afterSendto,
              Notice.sockname localName, Notice.separator],
            stdout := buf }, ?_, ?_, rfl, rfl⟩
  · simp [firstAnswer, Machine.run, machine, step, start, getsockname, sendto,
      serve, recvfrom, write, hline, hstr, htake]
  · simp [firstAnswer, Machine.RunMeets, machine, step, start, getsockname, sendto,
      serve, recvfrom, write, hline, hstr, htake, TakesAll, Nat.le_of_lt hlt]

theorem onePiece_of_first {text : CString} {buf rest : List Byte}
    (hline : fgets BUFLEN text.bytes = some (buf, rest))
    (hall : buf = text.bytes) : OnePiece text := by
  rcases fgets_some two_le_BUFLEN hline with ⟨happend, _, _⟩
  have hrest : rest = [] := by
    rw [hall] at happend
    exact List.append_right_eq_self.mp happend
  rcases (fgets_last_iff hline).mp hrest with ⟨hle, hnewline⟩
  exact ⟨Nat.lt_of_le_of_lt hle (by decide), hnewline⟩

/--
Every client whose `write` takes all it is given has then written exactly the
text, if and only if the text has fewer than 128 bytes and no newline before its end.
-/
theorem print_uptime_text_iff (text : CString) :
    (forall s, (machine text).ReachableUnder TakesAll s ->
        s.print = PrintPc.finished -> s.stdout = text.bytes) ↔
      text.length < BUFLEN ∧ newline ∉ text.bytes.dropLast := by
  constructor
  · intro h
    cases hline : fgets BUFLEN text.bytes with
    | none =>
        have hnil := fgets_eq_none.mp hline
        unfold CString.length
        rw [hnil]
        exact ⟨by decide, List.not_mem_nil⟩
    | some piece =>
        rcases piece with ⟨buf, rest⟩
        rcases finished_with_first hline with
          ⟨s, hrun, hmeets, hfinished, hstdout⟩
        have hs := Machine.reachableUnder_of_run
          (Machine.ReachableUnder.init (rfl : (machine text).init (start text)))
          hmeets hrun
        exact onePiece_of_first hline
          (hstdout.symm.trans (h s hs hfinished))
  · intro hone s hs hfinished
    exact (whole_of_reachable hone hs).finished hfinished

def twoLines : CString :=
  CString.ofBytes [97, 10, 98, 10] rfl

/-- The client has written the first line and is done; the second line stays
behind. -/
theorem second_line_lost :
    ¬ forall s, (machine twoLines).Reachable s ->
      s.print = PrintPc.finished -> s.stdout = twoLines.bytes := by
  intro h
  have hrun : ((machine twoLines).run (start twoLines) firstAnswer).map
      (fun s => (s.print, s.stdout)) =
        some (PrintPc.finished, [97, 10]) := by
    rfl
  rcases Machine.exists_reachable_of_run rfl hrun with ⟨s, hreach, heq⟩
  rcases Prod.mk.inj heq with ⟨hfinished, hstdout⟩
  have hall := h s hreach hfinished
  rw [hstdout] at hall
  exact absurd hall (by decide)

end Connless
end Apue
