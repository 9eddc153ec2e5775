import Apue.Foundation.Fgets
import Apue.Foundation.Transition

/-!
# The uptime service over a stream

The server has accepted a connection and started the uptime command; it reads
the command's output with `fgets` and sends each piece.  The client receives
whatever the network gives it, up to the size of its buffer, and writes it out.
Both ends and the network run at their own pace.  A `send` takes all the bytes
it is given; a `write` to standard output may take fewer, which the client does not
notice.
-/

namespace Apue
namespace SendRecv

open Foundation

def BUFLEN : Nat := 128

/-- The loop of `serve`: before `fgets`, before `send` with the piece in `buf`,
before `close`, and after it. -/
inductive ServePc where
  | reading
  | sending (buf : List Byte)
  | closing
  | closed
  deriving Repr, DecidableEq

/-- The loop of `print_uptime`: before `recv`, before `write` with the bytes
received, and after the loop. -/
inductive PrintPc where
  | receiving
  | writing (buf : List Byte)
  | stopped
  deriving Repr, DecidableEq

/-- What is left of the command's output, the bytes on their way, and what the
client has written to standard output. -/
structure State where
  serve : ServePc
  output : List Byte
  wire : List Byte
  print : PrintPc
  stdout : List Byte
  deriving Repr, DecidableEq

/-- A step of the server, and a step of the client, whose `recv` returns `n` or
whose `write` takes `n` bytes, none when it fails. -/
inductive Label where
  | serve
  | print (n : Nat)
  deriving Repr, DecidableEq

def serve (s : State) : Option State :=
  match s.serve with
  | ServePc.reading =>
      match fgets BUFLEN s.output with
      | none => some { s with serve := ServePc.closing }
      | some (buf, rest) =>
          some { s with serve := ServePc.sending buf, output := rest }
  | ServePc.sending buf =>
      some { s with serve := ServePc.reading, wire := s.wire ++ str buf }
  | ServePc.closing => some { s with serve := ServePc.closed }
  | ServePc.closed => none

/-- `recv` returns at least one byte unless the connection is closed and
nothing is on its way. -/
def recv (s : State) (n : Nat) : Option State :=
  if n = 0 then
    if s.wire = [] ∧ s.serve = ServePc.closed then
      some { s with print := PrintPc.stopped }
    else
      none
  else if n ≤ BUFLEN ∧ n ≤ s.wire.length then
    some
      { s with
        print := PrintPc.writing (s.wire.take n)
        wire := s.wire.drop n }
  else
    none

def print_uptime (s : State) (n : Nat) : Option State :=
  match s.print with
  | PrintPc.receiving => recv s n
  | PrintPc.writing buf =>
      some
        { s with
          print := PrintPc.receiving
          stdout := s.stdout ++ buf.take n }
  | PrintPc.stopped => none

def step (s : State) : Label -> Option State
  | Label.serve => serve s
  | Label.print n => print_uptime s n

def start (text : CString) : State where
  serve := ServePc.reading
  output := text.bytes
  wire := []
  print := PrintPc.receiving
  stdout := []

def machine (text : CString) : Machine State Label where
  init s := s = start text
  step := step

/-!
# The bytes in order
-/

def ServePc.held : ServePc -> List Byte
  | ServePc.sending buf => buf
  | _ => []

def PrintPc.held : PrintPc -> List Byte
  | PrintPc.writing buf => buf
  | _ => []

/-- Every byte of the text has been given to `write` or is somewhere between the
command and that, and they are in order. -/
structure InOrder (text : CString) (given : List Byte) (s : State) : Prop where
  bytes : given ++ (s.print.held ++ (s.wire ++ (s.serve.held ++ s.output))) =
    text.bytes
  sending : forall buf, s.serve = ServePc.sending buf -> buf ≠ []
  writing : forall buf, s.print = PrintPc.writing buf -> buf ≠ []
  closing : s.serve = ServePc.closing ∨ s.serve = ServePc.closed ->
    s.output = []
  stopped : s.print = PrintPc.stopped ->
    s.serve = ServePc.closed ∧ s.wire = []

/-- Counts the stages that the bytes and the two loops still have to go
through. -/
def toGo (s : State) : Nat :=
  4 * s.output.length + 3 * s.serve.held.length + 2 * s.wire.length +
    s.print.held.length +
    (match s.serve with
    | ServePc.reading => 2
    | ServePc.sending _ => 2
    | ServePc.closing => 1
    | ServePc.closed => 0) +
    (match s.print with
    | PrintPc.stopped => 0
    | _ => 1)

theorem inOrder_start (text : CString) : InOrder text [] (start text) := by
  constructor
  · rfl
  · intro buf h
    cases h
  · intro buf h
    cases h
  · intro h
    rcases h with h | h
    · cases h
    · cases h
  · intro h
    cases h

theorem InOrder.str_eq {text : CString} {given : List Byte} {s : State}
    {buf : List Byte} (h : InOrder text given s) (hserve : s.serve = ServePc.sending buf) :
    str buf = buf := by
  apply str_of_nulFree
  intro b hb
  apply text.nulFree
  rw [← h.bytes, hserve]
  apply List.mem_append_right
  apply List.mem_append_right
  apply List.mem_append_right
  exact List.mem_append_left _ hb

theorem InOrder.serving {text : CString} {given : List Byte} {s : State}
    (h : InOrder text given s) {pc : ServePc} {wire output : List Byte}
    (hopen : s.serve ≠ ServePc.closed)
    (hbytes : wire ++ (pc.held ++ output) =
      s.wire ++ (s.serve.held ++ s.output))
    (hsending : forall buf, pc = ServePc.sending buf -> buf ≠ [])
    (hclosing : pc = ServePc.closing ∨ pc = ServePc.closed -> output = []) :
    InOrder text given { s with serve := pc, wire := wire, output := output } := by
  refine ⟨?_, hsending, h.writing, hclosing, ?_⟩
  · rw [← h.bytes, ← hbytes]
  · intro hstop
    exact absurd (h.stopped hstop).1 hopen

theorem serve_cases {s t : State} (ht : serve s = some t) :
    (s.serve = ServePc.reading ∧ s.output = [] ∧
        t = { s with serve := ServePc.closing }) ∨
      (exists buf rest, s.serve = ServePc.reading ∧ buf ++ rest = s.output ∧
        buf ≠ [] ∧ t = { s with serve := ServePc.sending buf, output := rest }) ∨
      (exists buf, s.serve = ServePc.sending buf ∧
        t = { s with serve := ServePc.reading, wire := s.wire ++ str buf }) ∨
      (s.serve = ServePc.closing ∧ t = { s with serve := ServePc.closed }) := by
  unfold SendRecv.serve at ht
  cases hserve : s.serve with
  | reading =>
      rw [hserve] at ht
      cases hline : fgets BUFLEN s.output with
      | none =>
          rw [hline] at ht
          cases ht
          exact Or.inl ⟨rfl, fgets_eq_none.mp hline, rfl⟩
      | some piece =>
          rcases piece with ⟨buf, rest⟩
          rw [hline] at ht
          cases ht
          rcases fgets_some (by decide) hline with ⟨happend, hne, _⟩
          exact Or.inr (Or.inl ⟨buf, rest, rfl, happend, hne, rfl⟩)
  | sending buf =>
      rw [hserve] at ht
      cases ht
      exact Or.inr (Or.inr (Or.inl ⟨buf, rfl, rfl⟩))
  | closing =>
      rw [hserve] at ht
      cases ht
      exact Or.inr (Or.inr (Or.inr ⟨rfl, rfl⟩))
  | closed =>
      rw [hserve] at ht
      cases ht

theorem InOrder.serve_order {text : CString} {given : List Byte} {s t : State}
    (h : InOrder text given s) (ht : serve s = some t) :
    InOrder text given t := by
  have hopen : s.serve ≠ ServePc.closed := by
    intro hclosed
    rw [SendRecv.serve, hclosed] at ht
    cases ht
  rcases serve_cases ht with ⟨hserve, hnil, rfl⟩ |
      ⟨buf, rest, hserve, happend, hne, rfl⟩ | ⟨buf, hserve, rfl⟩ | ⟨hserve, rfl⟩
  · apply h.serving hopen
    · rw [hserve]
      rfl
    · intro buf' heq
      cases heq
    · exact fun _ => hnil
  · apply h.serving hopen
    · rw [hserve, ← happend]
      rfl
    · intro buf' heq
      cases heq
      exact hne
    · intro hclose
      rcases hclose with heq | heq
      · cases heq
      · cases heq
  · rw [h.str_eq hserve]
    apply h.serving hopen
    · rw [hserve, List.append_assoc]
      rfl
    · intro buf' heq
      cases heq
    · intro hclose
      rcases hclose with heq | heq
      · cases heq
      · cases heq
  · apply h.serving hopen
    · rw [hserve]
      rfl
    · intro buf' heq
      cases heq
    · exact fun _ => h.closing (Or.inl hserve)

theorem InOrder.serve_toGo {text : CString} {given : List Byte} {s t : State}
    (h : InOrder text given s) (ht : serve s = some t) : toGo t < toGo s := by
  rcases serve_cases ht with ⟨hserve, hnil, rfl⟩ |
      ⟨buf, rest, hserve, happend, hne, rfl⟩ | ⟨buf, hserve, rfl⟩ | ⟨hserve, rfl⟩
  · unfold toGo
    rw [hserve]
    simp only [ServePc.held]
    lia
  · have hlen := congrArg List.length happend
    rw [List.length_append] at hlen
    have hpos := List.length_pos_iff.mpr hne
    unfold toGo
    rw [hserve]
    simp only [ServePc.held, List.length_nil]
    lia
  · have hpos := List.length_pos_iff.mpr (h.sending buf hserve)
    rw [h.str_eq hserve]
    unfold toGo
    rw [hserve]
    simp only [ServePc.held, List.length_append, List.length_nil]
    lia
  · unfold toGo
    rw [hserve]
    simp only [ServePc.held]
    lia

theorem InOrder.recv {text : CString} {given : List Byte} {s t : State} {n : Nat}
    (h : InOrder text given s) (hprint : s.print = PrintPc.receiving)
    (ht : recv s n = some t) :
    InOrder text given t ∧ t.stdout = s.stdout ∧ toGo t < toGo s := by
  have hbytes := h.bytes
  rw [hprint] at hbytes
  unfold SendRecv.recv at ht
  split at ht
  · split at ht
    · next hend =>
        cases ht
        refine ⟨?_, rfl, ?_⟩
        · refine ⟨hbytes, h.sending, ?_, h.closing, ?_⟩
          · intro buf heq
            cases heq
          · intro _
            exact ⟨hend.2, hend.1⟩
        · unfold toGo
          rw [hprint]
          simp only [PrintPc.held]
          lia
    · cases ht
  · next hn =>
      split at ht
      · next hroom =>
          cases ht
          have htake : (s.wire.take n).length = n := by
            rw [List.length_take]
            lia
          refine ⟨?_, rfl, ?_⟩
          · refine ⟨?_, h.sending, ?_, h.closing, ?_⟩
            · rw [← hbytes]
              simp only [PrintPc.held, List.nil_append]
              rw [← List.append_assoc (s.wire.take n), List.take_append_drop]
            · intro buf heq
              cases heq
              intro hnil
              rw [hnil] at htake
              exact hn htake.symm
            · intro heq
              cases heq
          · unfold toGo
            rw [hprint]
            simp only [PrintPc.held, htake, List.length_drop, List.length_nil]
            lia
      · cases ht

/-- A `write` takes all the bytes it is given. -/
def TakesAll (s : State) : Label -> Prop
  | Label.print n => forall buf, s.print = PrintPc.writing buf -> buf.length ≤ n
  | Label.serve => True

theorem InOrder.print_uptime {text : CString} {given : List Byte} {s t : State}
    {n : Nat} (h : InOrder text given s) (ht : print_uptime s n = some t) :
    exists given', InOrder text given' t ∧ toGo t < toGo s ∧
      (TakesAll s (Label.print n) -> given = s.stdout -> given' = t.stdout) := by
  have hbytes := h.bytes
  unfold SendRecv.print_uptime at ht
  cases hprint : s.print with
  | receiving =>
      rw [hprint] at ht
      rcases h.recv hprint ht with ⟨hnext, hstdout, hlt⟩
      exact ⟨given, hnext, hlt, fun _ hsame => hsame.trans hstdout.symm⟩
  | writing buf =>
      rw [hprint] at ht hbytes
      cases ht
      have hpos := List.length_pos_iff.mpr (h.writing buf hprint)
      refine ⟨given ++ buf, ?_, ?_, ?_⟩
      · refine ⟨?_, h.sending, ?_, h.closing, ?_⟩
        · rw [← hbytes]
          simp only [PrintPc.held, List.nil_append, List.append_assoc]
        · intro buf' heq
          cases heq
        · intro heq
          cases heq
      · unfold toGo
        rw [hprint]
        simp only [PrintPc.held, List.length_nil]
        lia
      · intro hall hsame
        rw [hsame, List.take_of_length_le (hall buf hprint)]
  | stopped =>
      rw [hprint] at ht
      cases ht

theorem serve_stdout {s t : State} (ht : serve s = some t) :
    t.stdout = s.stdout := by
  rcases serve_cases ht with ⟨_, _, rfl⟩ | ⟨_, _, _, _, _, rfl⟩ | ⟨_, _, rfl⟩ |
    ⟨_, rfl⟩
  · rfl
  · rfl
  · rfl
  · rfl

theorem InOrder.step {text : CString} {given : List Byte} {s t : State} {l : Label}
    (h : InOrder text given s) (ht : step s l = some t) :
    exists given', InOrder text given' t ∧ toGo t < toGo s ∧
      (TakesAll s l -> given = s.stdout -> given' = t.stdout) := by
  cases l with
  | serve =>
      exact ⟨given, h.serve_order ht, h.serve_toGo ht,
        fun _ hsame => hsame.trans (serve_stdout ht).symm⟩
  | print n => exact h.print_uptime ht

theorem inOrder_of_reachable {text : CString} {s : State}
    (hs : (machine text).ReachableUnder TakesAll s) : InOrder text s.stdout s := by
  apply Machine.invariant_under _ _ hs
  · intro s hinit
    rw [hinit]
    exact inOrder_start text
  · intro s l t hI hl ht
    rcases hI.step ht with ⟨given', hnext, _, hsame⟩
    rw [hsame hl rfl] at hnext
    exact hnext

/-!
# The client stops with the whole text
-/

theorem InOrder.given_eq {text : CString} {given : List Byte} {s : State}
    (h : InOrder text given s) (hstop : s.print = PrintPc.stopped) :
    given = text.bytes := by
  rcases h.stopped hstop with ⟨hclosed, hwire⟩
  have hbytes := h.bytes
  rw [hstop, hwire, hclosed, h.closing (Or.inr hclosed)] at hbytes
  simpa [PrintPc.held, ServePc.held] using hbytes

theorem closed_of_serve_eq_none {s : State} (h : serve s = none) :
    s.serve = ServePc.closed := by
  unfold SendRecv.serve at h
  cases hpc : s.serve with
  | closed => rfl
  | reading =>
      rw [hpc] at h
      cases hline : fgets BUFLEN s.output with
      | none =>
          rw [hline] at h
          cases h
      | some piece =>
          rw [hline] at h
          cases h
  | sending buf =>
      rw [hpc] at h
      cases h
  | closing =>
      rw [hpc] at h
      cases h

theorem stopped_of_halted {text : CString} {s : State}
    (hhalt : (machine text).Halted s) : s.print = PrintPc.stopped := by
  have hclosed : s.serve = ServePc.closed :=
    closed_of_serve_eq_none (hhalt Label.serve)
  have hprint := fun n => hhalt (Label.print n)
  change forall n, print_uptime s n = none at hprint
  unfold SendRecv.print_uptime at hprint
  cases hpc : s.print with
  | stopped => rfl
  | writing buf =>
      have hnone := hprint 0
      rw [hpc] at hnone
      cases hnone
  | receiving =>
      simp only [hpc] at hprint
      -- with bytes on the wire one of them can be received, else the end
      cases hwire : s.wire with
      | nil =>
          have hnone := hprint 0
          unfold SendRecv.recv at hnone
          rw [if_pos rfl, if_pos ⟨hwire, hclosed⟩] at hnone
          cases hnone
      | cons b rest =>
          have hnone := hprint 1
          unfold SendRecv.recv at hnone
          rw [if_neg (by decide), if_pos ⟨by decide, by rw [hwire]; simp⟩]
            at hnone
          cases hnone

/--
The client has written exactly the text when it stops, if every `write` took all it
was given; every run comes to an end, and at its end the client has stopped.
-/
theorem print_uptime_text (text : CString) :
    (forall s, (machine text).ReachableUnder TakesAll s ->
        s.print = PrintPc.stopped -> s.stdout = text.bytes) ∧
      (forall s, (machine text).Reachable s -> (machine text).Halted s ->
        s.print = PrintPc.stopped) ∧
      exists bound, forall s ls t, (machine text).init s ->
        (machine text).run s ls = some t -> ls.length ≤ bound := by
  refine ⟨?_, ?_, toGo (start text), ?_⟩
  · intro s hs hstop
    exact (inOrder_of_reachable hs).given_eq hstop
  · intro s _ hhalt
    exact stopped_of_halted hhalt
  · intro s ls t hinit hrun
    rw [hinit] at hrun
    have hle := Machine.run_length_le
      (I := fun s => exists given, InOrder text given s)
      (fun _ _ _ ⟨_, hI⟩ ht =>
        let ⟨given', hnext, hlt, _⟩ := hI.step ht
        ⟨⟨given', hnext⟩, hlt⟩)
      ⟨[], inOrder_start text⟩ hrun
    lia

def oneByte : CString :=
  CString.ofBytes [117] rfl

/-- Standard output takes nothing; the client stops all the same. -/
theorem answer_not_written :
    ¬ forall s, (machine oneByte).Reachable s -> s.print = PrintPc.stopped ->
      s.stdout = oneByte.bytes := by
  intro h
  have hrun : ((machine oneByte).run (start oneByte)
      [Label.serve, Label.serve, Label.serve, Label.serve, Label.print 1,
        Label.print 0, Label.print 0]).map
      (fun s => (s.print, s.stdout)) = some (PrintPc.stopped, []) := by
    rfl
  rcases Machine.exists_reachable_of_run rfl hrun with ⟨s, hreach, heq⟩
  rcases Prod.mk.inj heq with ⟨hstopped, hstdout⟩
  have hall := h s hreach hstopped
  rw [hstdout] at hall
  exact absurd hall (by decide)

end SendRecv
end Apue
