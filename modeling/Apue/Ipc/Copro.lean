import Apue.Foundation.Transition
import Apue.Ipc.Add2

/-!
# A parent and its coprocess

The parent sends each piece that `fgets` gets from its standard input through
one pipe to `add2` and reads the answer from a second pipe.  A pipe keeps bytes,
not messages, and a read takes what is there.  A read of an empty pipe waits
until there is something to read or nobody left to write; a write to a pipe that
nobody reads ends the parent through its handler and `add2` by default.
Diagnostics are left out.
-/

namespace Apue
namespace Copro

open Foundation Add2

def LINE : Nat := 1024

/-- The loop of the parent: before `fgets`, before `write`, in `read`, before
`fputs`, and after `exit`. -/
inductive ParentPc where
  | fgets
  | write (line : List Byte)
  | read
  | fputs (line : List Byte)
  | exited
  deriving Repr, DecidableEq

/-- The child before `execl`, and then the loop of `add2`: in `read`, before
`write`, and after `exit`. -/
inductive ChildPc where
  | starting
  | read
  | write (line : List Byte)
  | exited
  deriving Repr, DecidableEq

/-- The two processes and the bytes in the two pipes; besides, the pieces that
`fgets` delivered, what each read of `add2` returned and what each read of the
parent returned. -/
structure State where
  stdin : List Byte
  parent : ParentPc
  request : List Byte
  child : ChildPc
  response : List Byte
  stdout : List Byte
  chunks : List (List Byte)
  reads : List (List Byte)
  responses : List (List Byte)
  deriving Repr, DecidableEq

inductive Label where
  | fgets
  | write
  | read
  | fputs (ok : Bool)
  | execl (ok : Bool)
  | add2Read
  | add2Write
  deriving Repr, DecidableEq

/-- At the end of the input the parent exits. -/
def fgets (s : State) : Option State :=
  match s.parent with
  | ParentPc.fgets =>
      match Foundation.fgets LINE s.stdin with
      | none => some { s with parent := ParentPc.exited }
      | some (line, rest) =>
          some
            { s with
              stdin := rest
              parent := ParentPc.write line
              chunks := s.chunks ++ [line] }
  | _ => none

/-- `write(fd1[1], line, strlen(line))`; of nothing it always succeeds. -/
def write (s : State) : Option State :=
  match s.parent with
  | ParentPc.write line =>
      if str line ≠ [] ∧ s.child = ChildPc.exited then
        some { s with parent := ParentPc.exited }
      else
        some
          { s with parent := ParentPc.read, request := s.request ++ str line }
  | _ => none

def read (s : State) : Option State :=
  match s.parent with
  | ParentPc.read =>
      if s.response ≠ [] then
        some
          { s with
            parent := ParentPc.fputs (s.response.take LINE)
            response := s.response.drop LINE
            responses := s.responses ++ [s.response.take LINE] }
      else if s.child = ChildPc.exited then
        some { s with parent := ParentPc.exited }
      else
        none
  | _ => none

def fputs (s : State) (ok : Bool) : Option State :=
  match s.parent with
  | ParentPc.fputs line =>
      if ok then
        some { s with parent := ParentPc.fgets, stdout := s.stdout ++ str line }
      else
        some { s with parent := ParentPc.exited }
  | _ => none

def execl (s : State) (ok : Bool) : Option State :=
  match s.child with
  | ChildPc.starting =>
      some { s with child := if ok then ChildPc.read else ChildPc.exited }
  | _ => none

def add2Read (s : State) : Option State :=
  match s.child with
  | ChildPc.read =>
      if s.request ≠ [] then
        some
          { s with
            child := ChildPc.write (s.request.take LINE)
            request := s.request.drop LINE
            reads := s.reads ++ [s.request.take LINE] }
      else if s.parent = ParentPc.exited then
        some { s with child := ChildPc.exited }
      else
        none
  | _ => none

def add2Write (s : State) : Option State :=
  match s.child with
  | ChildPc.write line =>
      if s.parent = ParentPc.exited then
        some { s with child := ChildPc.exited }
      else
        some
          { s with
            child := ChildPc.read
            response := s.response ++ answer line }
  | _ => none

def step (s : State) : Label -> Option State
  | Label.fgets => fgets s
  | Label.write => write s
  | Label.read => read s
  | Label.fputs ok => fputs s ok
  | Label.execl ok => execl s ok
  | Label.add2Read => add2Read s
  | Label.add2Write => add2Write s

def start (input : List Byte) : State where
  stdin := input
  parent := ParentPc.fgets
  request := []
  child := ChildPc.starting
  response := []
  stdout := []
  chunks := []
  reads := []
  responses := []

def machine (input : List Byte) : Machine State Label where
  init s := s = start input
  step := step

/-- Each read of `add2` is the text of one piece, in order, and each read of the
parent is the answer to one read of `add2`, in order. -/
structure Lockstep (s : State) : Prop where
  reads : s.reads = (s.chunks.take s.reads.length).map str
  responses : s.responses = (s.reads.take s.responses.length).map answer

structure Deadlock (s : State) : Prop where
  parent : s.parent = ParentPc.read
  child : s.child = ChildPc.read
  request : s.request = []
  response : s.response = []

/-!
# What each piece looks like to the coprocess
-/

theorem str_eq_nil_iff {line : List Byte} (hne : line ≠ []) :
    str line = [] ↔ line.head? = some 0 := by
  cases line with
  | nil => exact absurd rfl hne
  | cons x rest =>
      unfold str
      rw [List.takeWhile_cons, List.head?_cons]
      by_cases hx : x = 0
      · simp [hx]
      · simp [hx]

theorem str_length_le (line : List Byte) : (str line).length ≤ line.length :=
  (List.takeWhile_prefix _).length_le

theorem two_le_LINE : 2 ≤ LINE :=
  Nat.le_add_left 2 1022

theorem take_str_of_fgets {input line rest : List Byte}
    (h : Foundation.fgets LINE input = some (line, rest)) :
    (str line).length ≤ LINE := by
  rcases fgets_some two_le_LINE h with ⟨_, _, hlt⟩
  exact Nat.le_trans (str_length_le line) (Nat.le_of_lt hlt)

theorem answer_fits (line : List Byte) : (answer line).length ≤ LINE :=
  Nat.le_trans (answer_length_le line) (by decide)

/-!
# The rounds

One round is one piece: the parent has nothing to send, has a piece to send, has
sent it, `add2` has read it, and `add2` has answered it.
-/

def Waiting (c : ChildPc) : Prop :=
  c = ChildPc.starting ∨ c = ChildPc.read ∨ c = ChildPc.exited

structure Histories (s : State) (done told : List (List Byte)) : Prop where
  reads : s.reads = done.map str
  responses : s.responses = told.map (fun line => answer (str line))

inductive Phase (s : State) : ParentPc -> Prop where
  | idle (hchild : Waiting s.child) (hrequest : s.request = [])
      (hresponse : s.response = []) (hdone : Histories s s.chunks s.chunks) :
      Phase s ParentPc.fgets
  | printing (line : List Byte) (hchild : Waiting s.child)
      (hrequest : s.request = []) (hresponse : s.response = [])
      (hdone : Histories s s.chunks s.chunks) : Phase s (ParentPc.fputs line)
  | asking (before : List (List Byte)) (line : List Byte)
      (hchild : Waiting s.child) (hrequest : s.request = [])
      (hresponse : s.response = []) (hchunks : s.chunks = before ++ [line])
      (hne : str line ≠ []) (hfits : (str line).length ≤ LINE)
      (hdone : Histories s before before) : Phase s (ParentPc.write line)
  | sent (before : List (List Byte)) (line : List Byte)
      (hchild : Waiting s.child) (hrequest : s.request = str line)
      (hresponse : s.response = []) (hchunks : s.chunks = before ++ [line])
      (hne : str line ≠ []) (hfits : (str line).length ≤ LINE)
      (hdone : Histories s before before) : Phase s ParentPc.read
  | served (before : List (List Byte)) (line : List Byte)
      (hchild : s.child = ChildPc.write (str line)) (hrequest : s.request = [])
      (hresponse : s.response = []) (hchunks : s.chunks = before ++ [line])
      (hdone : Histories s (before ++ [line]) before) : Phase s ParentPc.read
  | answered (before : List (List Byte)) (line : List Byte)
      (hchild : s.child = ChildPc.read) (hrequest : s.request = [])
      (hresponse : s.response = answer (str line))
      (hchunks : s.chunks = before ++ [line])
      (hdone : Histories s (before ++ [line]) before) : Phase s ParentPc.read
  | finished (done rest : List (List Byte)) (hchild : Waiting s.child)
      (hrequest : s.child = ChildPc.exited ∨ s.request = [])
      (hchunks : s.chunks = done ++ rest) (hdone : Histories s done done) :
      Phase s ParentPc.exited

def InPhase (s : State) : Prop :=
  Phase s s.parent

theorem Histories.lockstep {s : State} {done told rest later : List (List Byte)}
    (h : Histories s done told) (hdone : done = told ++ later)
    (hchunks : s.chunks = done ++ rest) : Lockstep s := by
  constructor
  · rw [h.reads, List.length_map, hchunks, List.take_left]
  · have htold : (told.map str).length = told.length := List.length_map str
    rw [h.responses, h.reads, List.length_map, hdone, List.map_append, ← htold,
      List.take_left, List.map_map]
    rfl

theorem Phase.lockstep {s : State} {pc : ParentPc} (h : Phase s pc) :
    Lockstep s := by
  cases h with
  | idle hchild hrequest hresponse hdone =>
      exact hdone.lockstep (List.append_nil _).symm (List.append_nil _).symm
  | printing line hchild hrequest hresponse hdone =>
      exact hdone.lockstep (List.append_nil _).symm (List.append_nil _).symm
  | asking before line hchild hrequest hresponse hchunks hne hfits hdone =>
      exact hdone.lockstep (List.append_nil _).symm hchunks
  | sent before line hchild hrequest hresponse hchunks hne hfits hdone =>
      exact hdone.lockstep (List.append_nil _).symm hchunks
  | served before line hchild hrequest hresponse hchunks hdone =>
      exact hdone.lockstep rfl (hchunks.trans (List.append_nil _).symm)
  | answered before line hchild hrequest hresponse hchunks hdone =>
      exact hdone.lockstep rfl (hchunks.trans (List.append_nil _).symm)
  | finished done rest hchild hrequest hchunks hdone =>
      exact hdone.lockstep (List.append_nil _).symm hchunks

theorem InPhase.not_deadlock {s : State} (h : InPhase s) : ¬ Deadlock s := by
  intro hdead
  unfold InPhase at h
  rw [hdead.parent] at h
  cases h with
  | sent before line hchild hrequest hresponse hchunks hne hfits hdone =>
      rw [hdead.request] at hrequest
      exact hne hrequest.symm
  | served before line hchild hrequest hresponse hchunks hdone =>
      rw [hdead.child] at hchild
      cases hchild
  | answered before line hchild hrequest hresponse hchunks hdone =>
      rw [hdead.response] at hresponse
      exact answer_ne_nil (str line) hresponse.symm

/-!
# The steps of the parent
-/

theorem InPhase.fgets {s t : State} (h : InPhase s)
    (hnul : forall line rest, Foundation.fgets LINE s.stdin = some (line, rest) ->
      str line ≠ [])
    (ht : fgets s = some t) : InPhase t := by
  unfold Copro.fgets at ht
  split at ht
  · next hparent =>
      unfold InPhase at h
      rw [hparent] at h
      cases h with
      | idle hchild hrequest hresponse hdone =>
          cases hline : Foundation.fgets LINE s.stdin with
          | none =>
              rw [hline] at ht
              cases ht
              exact Phase.finished s.chunks [] hchild (Or.inr hrequest)
                (List.append_nil _).symm ⟨hdone.reads, hdone.responses⟩
          | some piece =>
              rcases piece with ⟨line, rest⟩
              rw [hline] at ht
              cases ht
              exact Phase.asking s.chunks line hchild hrequest hresponse rfl
                (hnul line rest hline) (take_str_of_fgets hline)
                ⟨hdone.reads, hdone.responses⟩
  · cases ht

theorem InPhase.write {s t : State} (h : InPhase s) (ht : write s = some t) :
    InPhase t := by
  unfold Copro.write at ht
  split at ht
  · next line hparent =>
      unfold InPhase at h
      rw [hparent] at h
      cases h with
      | asking before line hchild hrequest hresponse hchunks hne hfits hdone =>
          split at ht
          · next hgone =>
              cases ht
              exact Phase.finished before [line] hchild (Or.inl hgone.2) hchunks
                ⟨hdone.reads, hdone.responses⟩
          · cases ht
            refine Phase.sent before line hchild ?_ hresponse hchunks hne hfits
              ⟨hdone.reads, hdone.responses⟩
            change s.request ++ str line = str line
            rw [hrequest, List.nil_append]
  · cases ht

theorem InPhase.read {s t : State} (h : InPhase s) (ht : read s = some t) :
    InPhase t := by
  unfold Copro.read at ht
  split at ht
  · next hparent =>
      unfold InPhase at h
      rw [hparent] at h
      cases h with
      | sent before line hchild hrequest hresponse hchunks hne hfits hdone =>
          rw [if_neg (not_not_intro hresponse)] at ht
          split at ht
          · next hgone =>
              cases ht
              exact Phase.finished before [line] hchild (Or.inl hgone) hchunks
                ⟨hdone.reads, hdone.responses⟩
          · cases ht
      | served before line hchild hrequest hresponse hchunks hdone =>
          rw [if_neg (not_not_intro hresponse), hchild] at ht
          cases ht
      | answered before line hchild hrequest hresponse hchunks hdone =>
          rw [hresponse, if_pos (answer_ne_nil _),
            List.take_of_length_le (answer_fits _),
            List.drop_of_length_le (answer_fits _)] at ht
          cases ht
          refine Phase.printing _ (Or.inr (Or.inl hchild)) hrequest rfl ⟨?_, ?_⟩
          · change s.reads = s.chunks.map str
            rw [hdone.reads, hchunks]
          · change s.responses ++ [answer (str line)] =
              s.chunks.map (fun line => answer (str line))
            rw [hdone.responses, hchunks, List.map_append]
            rfl
  · cases ht

theorem InPhase.fputs {s t : State} {ok : Bool} (h : InPhase s)
    (ht : fputs s ok = some t) : InPhase t := by
  unfold Copro.fputs at ht
  split at ht
  · next line hparent =>
      unfold InPhase at h
      rw [hparent] at h
      cases h with
      | printing line hchild hrequest hresponse hdone =>
          cases ok with
          | true =>
              cases ht
              exact Phase.idle hchild hrequest hresponse
                ⟨hdone.reads, hdone.responses⟩
          | false =>
              cases ht
              exact Phase.finished s.chunks [] hchild (Or.inr hrequest)
                (List.append_nil _).symm ⟨hdone.reads, hdone.responses⟩
  · cases ht

/-!
# The steps of the child
-/

theorem not_waiting_write {line : List Byte} :
    ¬ Waiting (ChildPc.write line) := by
  intro h
  rcases h with h | h | h
  · cases h
  · cases h
  · cases h

theorem InPhase.execl {s t : State} {ok : Bool} (h : InPhase s)
    (ht : execl s ok = some t) : InPhase t := by
  unfold Copro.execl at ht
  split at ht
  · next hstarting =>
      cases ht
      have hnext : Waiting (if ok then ChildPc.read else ChildPc.exited) := by
        cases ok with
        | true => exact Or.inr (Or.inl rfl)
        | false => exact Or.inr (Or.inr rfl)
      unfold InPhase at h ⊢
      change Phase _ s.parent
      generalize s.parent = pc at h ⊢
      cases h with
      | idle hchild hrequest hresponse hdone =>
          exact Phase.idle hnext hrequest hresponse
            ⟨hdone.reads, hdone.responses⟩
      | printing line hchild hrequest hresponse hdone =>
          exact Phase.printing line hnext hrequest hresponse
            ⟨hdone.reads, hdone.responses⟩
      | asking before line hchild hrequest hresponse hchunks hne hfits hdone =>
          exact Phase.asking before line hnext hrequest hresponse hchunks hne
            hfits ⟨hdone.reads, hdone.responses⟩
      | sent before line hchild hrequest hresponse hchunks hne hfits hdone =>
          exact Phase.sent before line hnext hrequest hresponse hchunks hne
            hfits ⟨hdone.reads, hdone.responses⟩
      | served before line hchild =>
          rw [hstarting] at hchild
          cases hchild
      | answered before line hchild =>
          rw [hstarting] at hchild
          cases hchild
      | finished done rest hchild hrequest hchunks hdone =>
          rcases hrequest with hgone | hrequest
          · rw [hstarting] at hgone
            cases hgone
          · exact Phase.finished done rest hnext (Or.inr hrequest) hchunks
              ⟨hdone.reads, hdone.responses⟩
  · cases ht

theorem InPhase.sent_of_request {s : State} (h : InPhase s)
    (hchild : s.child = ChildPc.read) (hrequest : s.request ≠ []) :
    s.parent = ParentPc.read ∧ s.response = [] ∧
      exists before line, s.request = str line ∧
        s.chunks = before ++ [line] ∧ (str line).length ≤ LINE ∧
        Histories s before before := by
  unfold InPhase at h
  cases hparent : s.parent with
  | fgets =>
      rw [hparent] at h
      cases h with
      | idle _ hnone => exact absurd hnone hrequest
  | fputs line =>
      rw [hparent] at h
      cases h with
      | printing _ _ hnone => exact absurd hnone hrequest
  | write line =>
      rw [hparent] at h
      cases h with
      | asking _ _ _ hnone => exact absurd hnone hrequest
  | read =>
      rw [hparent] at h
      cases h with
      | sent before line _ hsent hresponse hchunks _ hfits hdone =>
          exact ⟨rfl, hresponse, before, line, hsent, hchunks, hfits, hdone⟩
      | served _ _ _ hnone => exact absurd hnone hrequest
      | answered _ _ _ hnone => exact absurd hnone hrequest
  | exited =>
      rw [hparent] at h
      cases h with
      | finished done rest _ hover =>
          rcases hover with hgone | hnone
          · rw [hchild] at hgone
            cases hgone
          · exact absurd hnone hrequest

theorem InPhase.add2Read {s t : State} (h : InPhase s)
    (ht : add2Read s = some t) : InPhase t := by
  unfold Copro.add2Read at ht
  split at ht
  · next hread =>
      split at ht
      · next hrequest =>
          rcases h.sent_of_request hread hrequest with
            ⟨hparent, hresponse, before, line, hsent, hchunks, hfits, hdone⟩
          rw [hsent, List.take_of_length_le hfits,
            List.drop_of_length_le hfits] at ht
          cases ht
          unfold InPhase
          change Phase _ s.parent
          rw [hparent]
          refine Phase.served before line rfl rfl hresponse hchunks
            ⟨?_, hdone.responses⟩
          change s.reads ++ [str line] = (before ++ [line]).map str
          rw [hdone.reads, List.map_append]
          rfl
      · split at ht
        · next hparent =>
            cases ht
            unfold InPhase at h ⊢
            change Phase _ s.parent
            rw [hparent] at h ⊢
            cases h with
            | finished done rest hchild hover hchunks hdone =>
                exact Phase.finished done rest (Or.inr (Or.inr rfl)) (Or.inl rfl)
                  hchunks ⟨hdone.reads, hdone.responses⟩
        · cases ht
  · cases ht

theorem InPhase.add2Write {s t : State} (h : InPhase s)
    (ht : add2Write s = some t) : InPhase t := by
  unfold Copro.add2Write at ht
  split at ht
  · next line hwrite =>
      unfold InPhase at h
      cases hparent : s.parent with
      | fgets =>
          rw [hparent] at h
          cases h with
          | idle hchild =>
              rw [hwrite] at hchild
              exact absurd hchild not_waiting_write
      | fputs line' =>
          rw [hparent] at h
          cases h with
          | printing _ hchild =>
              rw [hwrite] at hchild
              exact absurd hchild not_waiting_write
      | write line' =>
          rw [hparent] at h
          cases h with
          | asking _ _ hchild =>
              rw [hwrite] at hchild
              exact absurd hchild not_waiting_write
      | exited =>
          rw [hparent] at h
          cases h with
          | finished _ _ hchild =>
              rw [hwrite] at hchild
              exact absurd hchild not_waiting_write
      | read =>
          rw [hparent] at h ht
          rw [if_neg ParentPc.noConfusion] at ht
          cases ht
          cases h with
          | sent _ _ hchild =>
              rw [hwrite] at hchild
              exact absurd hchild not_waiting_write
          | answered _ _ hchild =>
              rw [hwrite] at hchild
              cases hchild
          | served before line' hchild hrequest hresponse hchunks hdone =>
              rw [hwrite] at hchild
              cases hchild
              unfold InPhase
              refine Phase.answered before line' rfl hrequest ?_ hchunks
                ⟨hdone.reads, hdone.responses⟩
              change s.response ++ answer (str line') = answer (str line')
              rw [hresponse, List.nil_append]
  · cases ht

/-!
# Every reachable state
-/

structure Sync (input : List Byte) (s : State) : Prop where
  history : chunks LINE input = s.chunks ++ chunks LINE s.stdin
  phase : InPhase s

theorem history_fgets {input : List Byte} {s t : State}
    (h : chunks LINE input = s.chunks ++ chunks LINE s.stdin)
    (ht : fgets s = some t) :
    chunks LINE input = t.chunks ++ chunks LINE t.stdin := by
  unfold fgets at ht
  split at ht
  · cases hline : Foundation.fgets LINE s.stdin with
    | none =>
        rw [hline] at ht
        cases ht
        exact h
    | some piece =>
        rcases piece with ⟨line, rest⟩
        rw [hline] at ht
        cases ht
        change _ = (s.chunks ++ [line]) ++ chunks LINE rest
        rw [h, chunks_of_fgets two_le_LINE hline, List.append_assoc]
        rfl
  · cases ht

theorem history_kept {s t : State} {l : Label} (hl : l ≠ Label.fgets)
    (ht : step s l = some t) : t.chunks = s.chunks ∧ t.stdin = s.stdin := by
  cases l with
  | fgets => exact absurd rfl hl
  | write =>
      change write s = some t at ht
      unfold write at ht
      grind
  | read =>
      change read s = some t at ht
      unfold read at ht
      grind
  | fputs ok =>
      change fputs s ok = some t at ht
      unfold fputs at ht
      grind
  | execl ok =>
      change execl s ok = some t at ht
      unfold execl at ht
      grind
  | add2Read =>
      change add2Read s = some t at ht
      unfold add2Read at ht
      grind
  | add2Write =>
      change add2Write s = some t at ht
      unfold add2Write at ht
      grind

/-- No piece begins with a zero byte. -/
def NoEmptyText (input : List Byte) : Prop :=
  forall line, line ∈ chunks LINE input -> line.head? ≠ some 0

theorem Sync.nonempty {input : List Byte} {s : State} (h : Sync input s)
    (hinput : NoEmptyText input) {line rest : List Byte}
    (hline : Foundation.fgets LINE s.stdin = some (line, rest)) :
    str line ≠ [] := by
  rcases fgets_some two_le_LINE hline with ⟨_, hne, _⟩
  intro hnil
  apply hinput line
  · rw [h.history, chunks_of_fgets two_le_LINE hline]
    exact List.mem_append_right _ List.mem_cons_self
  · exact (str_eq_nil_iff hne).mp hnil

theorem Sync.step {input : List Byte} {s t : State} {l : Label}
    (h : Sync input s) (hinput : NoEmptyText input)
    (ht : step s l = some t) : Sync input t := by
  constructor
  · by_cases hl : l = Label.fgets
    · rw [hl] at ht
      exact history_fgets h.history ht
    · rcases history_kept hl ht with ⟨hchunks, hstdin⟩
      rw [hchunks, hstdin]
      exact h.history
  · cases l with
    | fgets =>
        exact h.phase.fgets (fun line rest hline => h.nonempty hinput hline) ht
    | write => exact h.phase.write ht
    | read => exact h.phase.read ht
    | fputs ok => exact h.phase.fputs ht
    | execl ok => exact h.phase.execl ht
    | add2Read => exact h.phase.add2Read ht
    | add2Write => exact h.phase.add2Write ht

theorem sync_start (input : List Byte) : Sync input (start input) :=
  ⟨rfl, Phase.idle (Or.inl rfl) rfl rfl ⟨rfl, rfl⟩⟩

theorem sync_of_reachable {input : List Byte} (hinput : NoEmptyText input)
    {s : State} (hs : (machine input).Reachable s) : Sync input s := by
  apply Machine.invariant _ _ hs
  · intro s hinit
    rw [hinit]
    exact sync_start input
  · intro s l t hI ht
    exact hI.step hinput ht

/-!
# A piece that begins with a zero byte

The parent takes it for the empty string, sends nothing, and waits for an
answer.
-/

structure Between (s : State) : Prop where
  parent : s.parent = ParentPc.fgets
  child : s.child = ChildPc.read
  request : s.request = []
  response : s.response = []

def round : List Label :=
  [Label.fgets, Label.write, Label.add2Read, Label.add2Write, Label.read,
    Label.fputs true]

theorem run_round {s : State} (h : Between s) {line rest : List Byte}
    (hline : Foundation.fgets LINE s.stdin = some (line, rest))
    (hne : str line ≠ []) (input : List Byte) :
    exists t, (machine input).run s round = some t ∧ Between t ∧
      t.stdin = rest := by
  rcases s with ⟨stdin, parent, request, child, response, stdout, pieces, reads,
    responses⟩
  rcases h with ⟨hparent, hchild, hrequest, hresponse⟩
  cases hparent
  cases hchild
  cases hrequest
  cases hresponse
  have hfits := take_str_of_fgets hline
  change Foundation.fgets LINE stdin = some (line, rest) at hline
  have hanswer := answer_ne_nil (str line)
  refine ⟨{ stdin := rest, parent := ParentPc.fgets, request := [],
            child := ChildPc.read, response := [],
            stdout := stdout ++ str (answer (str line)),
            chunks := pieces ++ [line], reads := reads ++ [str line],
            responses := responses ++ [answer (str line)] },
    ?_, ⟨rfl, rfl, rfl, rfl⟩, rfl⟩
  simp [round, Machine.run, machine, step, fgets, write, add2Read, add2Write,
    read, fputs, hline, hne, hanswer, List.take_of_length_le hfits,
    List.drop_of_length_le hfits, List.take_of_length_le (answer_fits _),
    List.drop_of_length_le (answer_fits _)]

theorem run_to_deadlock {s : State} (h : Between s) {line rest : List Byte}
    (hline : Foundation.fgets LINE s.stdin = some (line, rest))
    (hnil : str line = []) (input : List Byte) :
    exists t, (machine input).run s [Label.fgets, Label.write] = some t ∧
      Deadlock t := by
  rcases s with ⟨stdin, parent, request, child, response, stdout, pieces, reads,
    responses⟩
  rcases h with ⟨hparent, hchild, hrequest, hresponse⟩
  cases hparent
  cases hchild
  cases hrequest
  cases hresponse
  change Foundation.fgets LINE stdin = some (line, rest) at hline
  refine ⟨{ stdin := rest, parent := ParentPc.read, request := [],
            child := ChildPc.read, response := [], stdout := stdout,
            chunks := pieces ++ [line], reads := reads,
            responses := responses }, ?_, ⟨rfl, rfl, rfl, rfl⟩⟩
  simp [Machine.run, machine, step, fgets, write, hline, hnil]

theorem deadlock_reached {input : List Byte} {s : State} (h : Between s)
    (hs : (machine input).Reachable s) {line : List Byte}
    (hmem : line ∈ chunks LINE s.stdin) (hnul : line.head? = some 0) :
    exists t, (machine input).Reachable t ∧ Deadlock t := by
  generalize hn : s.stdin.length = n
  induction n using Nat.strongRecOn generalizing s with
  | ind n ih =>
      cases hline : Foundation.fgets LINE s.stdin with
      | none =>
          rw [fgets_eq_none.mp hline] at hmem
          cases hmem
      | some piece =>
          rcases piece with ⟨first, rest⟩
          rcases fgets_some two_le_LINE hline with ⟨happend, hne, _⟩
          by_cases hnil : str first = []
          · rcases run_to_deadlock h hline hnil input with ⟨t, hrun, hdead⟩
            exact ⟨t, Machine.reachable_of_run hs hrun, hdead⟩
          · rcases run_round h hline hnil input with
              ⟨t, hrun, hbetween, hstdin⟩
            rw [chunks_of_fgets two_le_LINE hline] at hmem
            have hrest : line ∈ chunks LINE t.stdin := by
              rw [hstdin]
              rcases List.mem_cons.mp hmem with heq | hrest
              · rw [heq] at hnul
                exact absurd ((str_eq_nil_iff hne).mpr hnul) hnil
              · exact hrest
            have hlen := congrArg List.length happend
            rw [List.length_append] at hlen
            have hpos := List.length_pos_iff.mpr hne
            apply ih rest.length (by lia) hbetween
              (Machine.reachable_of_run hs hrun) hrest
            rw [hstdin]

theorem reachable_between (input : List Byte) :
    exists s, (machine input).Reachable s ∧ Between s ∧ s.stdin = input := by
  have hstart : (machine input).Reachable (start input) :=
    Machine.ReachableUnder.init rfl
  exact ⟨_, hstart.step trivial (l := Label.execl true) rfl,
    ⟨rfl, rfl, rfl, rfl⟩, rfl⟩

/--
The two processes work in lockstep and never wait for each other, if and only if
no piece that `fgets` delivers begins with a zero byte.
-/
theorem lockstep_iff (input : List Byte) :
    (forall s, (machine input).Reachable s -> Lockstep s ∧ ¬ Deadlock s) ↔
      forall line, line ∈ chunks LINE input -> line.head? ≠ some 0 := by
  constructor
  · intro h line hmem hnul
    rcases reachable_between input with ⟨s, hs, hbetween, hstdin⟩
    rw [← hstdin] at hmem
    rcases deadlock_reached hbetween hs hmem hnul with ⟨t, ht, hdead⟩
    exact (h t ht).2 hdead
  · intro hinput s hs
    have hsync := sync_of_reachable hinput hs
    exact ⟨hsync.phase.lockstep, hsync.phase.not_deadlock⟩

def nulLine : List Byte :=
  [0, newline]

theorem nulLine_deadlock :
    ¬ forall s, (machine nulLine).Reachable s -> Lockstep s ∧ ¬ Deadlock s := by
  intro h
  have hrun : (machine nulLine).run (start nulLine)
      [Label.execl true, Label.fgets, Label.write] =
        some
          { start nulLine with
            stdin := []
            parent := ParentPc.read
            child := ChildPc.read
            chunks := [nulLine] } := by
    rfl
  have hreach := Machine.reachable_of_run
    (Machine.ReachableUnder.init
      (rfl : (machine nulLine).init (start nulLine))) hrun
  exact (h _ hreach).2 ⟨rfl, rfl, rfl, rfl⟩

end Copro
end Apue
