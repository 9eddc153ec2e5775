import Apue.Foundation.Block
import Apue.Foundation.Transition

/-!
# Nonblocking writes

`main` turns on `O_NONBLOCK` for its standard output, writes what it has read in
a polling loop, and turns the flag off again.  How the calls of `fcntl` end and
how many bytes each `write` takes are carried by the labels.
-/

namespace Apue
namespace Nonblock

open Foundation

abbrev Flags := BitVec 32

def O_NONBLOCK : Flags := 2048

/-- `sizeof(buf)` -/
def SIZE : Nat := 500000

/-- What `read` puts into `buf`. -/
structure Input where
  bytes : List Byte
  fits : bytes.length ≤ SIZE

/-- `buf` after the `read`; it is static, so the rest of it is zero. -/
def Input.stored (input : Input) : Block SIZE where
  bytes := input.bytes ++ List.replicate (SIZE - input.bytes.length) 0
  length_eq := by
    rw [List.length_append, List.length_replicate]
    exact Nat.add_sub_of_le input.fits

inductive Message where
  | read (n : Int)
  | nwrite (nwrite : Int) (errno : Nat)
  | setGetError (errno : Nat)
  | setSetError (errno : Nat)
  | clsGetError (errno : Nat)
  | clsSetError (errno : Nat)
  deriving Repr, DecidableEq

/-!
# The flags
-/

/-- The error of the `F_GETFL` and of the `F_SETFL`, if there is one. -/
structure Fcntl where
  getfl : Option Nat
  setfl : Option Nat
  deriving Repr, DecidableEq

/-- The flags after `F_SETFL`; only those in `settable` are taken over. -/
def setfl (settable cur val : Flags) : Flags :=
  (cur &&& ~~~settable) ||| (val &&& settable)

def set_fl (settable cur flags : Flags) (r : Fcntl) : Except Message Flags :=
  match r.getfl, r.setfl with
  | some errno, _ => Except.error (Message.setGetError errno)
  | none, some errno => Except.error (Message.setSetError errno)
  | none, none => Except.ok (setfl settable cur (cur ||| flags))

def cls_fl (settable cur flags : Flags) (r : Fcntl) : Except Message Flags :=
  match r.getfl, r.setfl with
  | some errno, _ => Except.error (Message.clsGetError errno)
  | none, some errno => Except.error (Message.clsSetError errno)
  | none, none => Except.ok (setfl settable cur (cur &&& ~~~flags))

/-!
# main
-/

/-- The call of `set_fl`, the `write` in the loop and the call of `cls_fl` are
ahead, or the program has ended in one of these functions or at the `return`. -/
inductive Pc where
  | setFl
  | write
  | clsFl
  | exitSetFl
  | exitClsFl
  | returned
  deriving Repr, DecidableEq

/-- The variables, the flags of standard output, the bytes that it has accepted,
and the messages of the program. -/
structure State where
  pc : Pc
  buf : Block SIZE
  ptr : Nat
  ntowrite : Int
  flags : Flags
  accepted : List Byte
  messages : List Message

inductive Label where
  | fcntl (r : Fcntl)
  | write (answer : WriteAnswer)
  deriving Repr, DecidableEq

/-- The value of `read`, which fails when there is no input. -/
def readValue : Option Input -> Int
  | none => -1
  | some input => input.bytes.length

/-- After the `read`. -/
def start (input : Option Input) (flags : Flags) : State where
  pc := Pc.setFl
  buf := match input with
    | none => Block.zeros SIZE
    | some input => input.stored
  ptr := 0
  ntowrite := readValue input
  flags := flags
  accepted := []
  messages := [Message.read (readValue input)]

/-- `while (ntowrite > 0)` -/
def test (s : State) : State :=
  { s with pc := if 0 < s.ntowrite then Pc.write else Pc.clsFl }

/-- The bytes that `write(STDOUT_FILENO, ptr, ntowrite)` offers. -/
def offered (s : State) : List Byte :=
  (s.buf.bytes.drop s.ptr).take s.ntowrite.toNat

def nwrite (answer : WriteAnswer) : Int :=
  answer.value

/-- `errno` is 0 before the call. -/
def errno : WriteAnswer -> Nat
  | WriteAnswer.wrote _ => 0
  | WriteAnswer.failed errno => errno

/-- A `write` takes no more than it is offered. -/
def Allowed (s : State) : WriteAnswer -> Prop
  | WriteAnswer.wrote n => n ≤ s.ntowrite
  | WriteAnswer.failed _ => True

instance (s : State) (answer : WriteAnswer) : Decidable (Allowed s answer) :=
  match answer with
  | WriteAnswer.wrote n => inferInstanceAs (Decidable (n ≤ s.ntowrite))
  | WriteAnswer.failed _ => inferInstanceAs (Decidable True)

def iteration (s : State) (answer : WriteAnswer) : State :=
  let s :=
    { s with
      accepted := s.accepted ++ answer.taken (offered s)
      messages := s.messages ++ [Message.nwrite (nwrite answer) (errno answer)] }
  if 0 < nwrite answer then
    test
      { s with
        ptr := s.ptr + (nwrite answer).toNat
        ntowrite := s.ntowrite - nwrite answer }
  else
    test s

def step (settable : Flags) (s : State) : Label -> Option State
  | Label.fcntl r =>
      match s.pc with
      | Pc.setFl =>
          match set_fl settable s.flags O_NONBLOCK r with
          | Except.error m =>
              some { s with pc := Pc.exitSetFl, messages := s.messages ++ [m] }
          | Except.ok flags => some (test { s with flags })
      | Pc.clsFl =>
          match cls_fl settable s.flags O_NONBLOCK r with
          | Except.error m =>
              some { s with pc := Pc.exitClsFl, messages := s.messages ++ [m] }
          | Except.ok flags => some { s with pc := Pc.returned, flags }
      | _ => none
  | Label.write answer =>
      if s.pc = Pc.write ∧ Allowed s answer then
        some (iteration s answer)
      else
        none

def machine (settable : Flags) (input : Option Input) (flags : Flags) :
    Machine State Label where
  init s := s = start input flags
  step := step settable

def Ended (s : State) : Prop :=
  s.pc = Pc.clsFl ∨ s.pc = Pc.exitClsFl ∨ s.pc = Pc.returned

/-!
# Flags other than O_NONBLOCK
-/

theorem setfl_or (settable cur flags : Flags) :
    setfl settable cur (cur ||| flags) &&& ~~~flags = cur &&& ~~~flags := by
  unfold setfl
  ext i hi
  simp only [BitVec.getElem_and, BitVec.getElem_or, BitVec.getElem_not]
  cases cur[i] <;> cases flags[i] <;> cases settable[i] <;> rfl

theorem setfl_and_not (settable cur flags : Flags) :
    setfl settable cur (cur &&& ~~~flags) &&& ~~~flags = cur &&& ~~~flags := by
  unfold setfl
  ext i hi
  simp only [BitVec.getElem_and, BitVec.getElem_or, BitVec.getElem_not]
  cases cur[i] <;> cases flags[i] <;> cases settable[i] <;> rfl

theorem set_fl_ok {settable cur flags val : Flags} {r : Fcntl}
    (h : set_fl settable cur flags r = Except.ok val) :
    val &&& ~~~flags = cur &&& ~~~flags := by
  rcases r with ⟨_ | e, _ | e'⟩
  · cases h
    exact setfl_or settable cur flags
  · cases h
  · cases h
  · cases h

theorem cls_fl_ok {settable cur flags val : Flags} {r : Fcntl}
    (h : cls_fl settable cur flags r = Except.ok val) :
    val &&& ~~~flags = cur &&& ~~~flags := by
  rcases r with ⟨_ | e, _ | e'⟩
  · cases h
    exact setfl_and_not settable cur flags
  · cases h
  · cases h
  · cases h

/-!
# One iteration
-/

def data : Option Input -> List Byte
  | none => []
  | some input => input.bytes

/-- Between two iterations: what was accepted is the input up to `ptr`, and
`ntowrite` counts the rest. -/
structure Inv (input : Option Input) (flags : Flags) (s : State) : Prop where
  buf : s.buf = (start input flags).buf
  accepted : s.accepted = (data input).take s.ptr
  count : s.ptr + s.ntowrite = readValue input
  writing : s.pc = Pc.write -> 0 < s.ntowrite
  ended : Ended s -> s.ntowrite ≤ 0
  others : s.flags &&& ~~~O_NONBLOCK = flags &&& ~~~O_NONBLOCK

theorem inv_start (input : Option Input) (flags : Flags) :
    Inv input flags (start input flags) where
  buf := rfl
  accepted := rfl
  count := Int.zero_add _
  writing := fun h => nomatch h
  ended := by
    intro h
    rcases h with h | h | h <;> cases h
  others := rfl

theorem inv_test {input : Option Input} {flags : Flags} {s : State}
    (hbuf : s.buf = (start input flags).buf)
    (haccepted : s.accepted = (data input).take s.ptr)
    (hcount : s.ptr + s.ntowrite = readValue input)
    (hothers : s.flags &&& ~~~O_NONBLOCK = flags &&& ~~~O_NONBLOCK) :
    Inv input flags (test s) := by
  refine ⟨hbuf, haccepted, hcount, ?_, ?_, hothers⟩
  · intro hpc
    show 0 < s.ntowrite
    apply Classical.byContradiction
    intro hneg
    unfold test at hpc
    rw [if_neg hneg] at hpc
    cases hpc
  · intro hend
    show s.ntowrite ≤ 0
    apply Int.not_lt.mp
    intro hpos
    unfold test Ended at hend
    rw [if_pos hpos] at hend
    rcases hend with h | h | h <;> cases h

theorem offered_eq {input : Option Input} {flags : Flags} {s : State}
    (h : Inv input flags s) (hpos : 0 < s.ntowrite) :
    offered s = (data input).drop s.ptr := by
  have hcount := h.count
  cases input with
  | none =>
      change s.ptr + s.ntowrite = -1 at hcount
      lia
  | some input =>
      change s.ptr + s.ntowrite = (input.bytes.length : Int) at hcount
      have hrest : s.ntowrite.toNat = (input.bytes.drop s.ptr).length := by
        rw [List.length_drop]
        lia
      unfold offered
      rw [h.buf]
      show (List.drop s.ptr (input.bytes ++ _)).take _ = input.bytes.drop s.ptr
      rw [List.drop_append_of_le_length (by lia), hrest]
      exact List.take_left

theorem inv_iteration {input : Option Input} {flags : Flags} {s : State}
    {answer : WriteAnswer} (h : Inv input flags s) (hpc : s.pc = Pc.write) :
    Inv input flags (iteration s answer) := by
  have hoffered := offered_eq h (h.writing hpc)
  have hcount := h.count
  unfold iteration
  rw [hoffered]
  cases answer with
  | wrote n =>
      have haccepted : s.accepted ++ ((data input).drop s.ptr).take n =
          (data input).take (s.ptr + n) := by
        rw [h.accepted, List.take_add]
      by_cases hn : 0 < (n : Int)
      · show Inv input flags (if 0 < (n : Int) then _ else _)
        rw [if_pos hn]
        refine inv_test h.buf haccepted ?_ h.others
        show ((s.ptr + n : Nat) : Int) + (s.ntowrite - n) = readValue input
        lia
      · have hzero : n = 0 := by lia
        rw [hzero] at haccepted
        show Inv input flags (if 0 < (n : Int) then _ else _)
        rw [if_neg hn, hzero]
        exact inv_test h.buf haccepted hcount h.others
  | failed e =>
      show Inv input flags (if 0 < (-1 : Int) then _ else _)
      rw [if_neg (by lia)]
      refine inv_test h.buf ?_ hcount h.others
      show s.accepted ++ [] = _
      rw [List.append_nil]
      exact h.accepted

/-!
# Whole runs
-/

theorem inv_step {settable : Flags} {input : Option Input} {flags : Flags}
    {s t : State} {l : Label} (h : Inv input flags s)
    (ht : step settable s l = some t) : Inv input flags t := by
  unfold step at ht
  cases l with
  | fcntl r =>
      cases hpc : s.pc with
      | setFl =>
          simp only [hpc] at ht
          cases hset : set_fl settable s.flags O_NONBLOCK r with
          | error m =>
              simp only [hset] at ht
              cases ht
              refine ⟨h.buf, h.accepted, h.count, (fun h => nomatch h), ?_, h.others⟩
              intro hend
              rcases hend with h | h | h <;> cases h
          | ok val =>
              simp only [hset] at ht
              cases ht
              exact inv_test h.buf h.accepted h.count
                ((set_fl_ok hset).trans h.others)
      | clsFl =>
          have hdone := h.ended (Or.inl hpc)
          simp only [hpc] at ht
          cases hcls : cls_fl settable s.flags O_NONBLOCK r with
          | error m =>
              simp only [hcls] at ht
              cases ht
              exact ⟨h.buf, h.accepted, h.count, (fun h => nomatch h),
                fun _ => hdone, h.others⟩
          | ok val =>
              simp only [hcls] at ht
              cases ht
              exact ⟨h.buf, h.accepted, h.count, (fun h => nomatch h),
                fun _ => hdone, (cls_fl_ok hcls).trans h.others⟩
      | write => simp [hpc] at ht
      | exitSetFl => simp [hpc] at ht
      | exitClsFl => simp [hpc] at ht
      | returned => simp [hpc] at ht
  | write answer =>
      dsimp only at ht
      split at ht
      · next hok =>
          cases ht
          exact inv_iteration h hok.1
      · cases ht

theorem inv_reachable {settable : Flags} {input : Option Input} {flags : Flags}
    {s : State} (h : (machine settable input flags).Reachable s) :
    Inv input flags s := by
  apply Machine.invariant _ _ h
  · intro s hs
    cases hs
    exact inv_start input flags
  · intro s l t hs ht
    exact inv_step hs ht

theorem nothing_written {settable flags : Flags} {s : State}
    (h : (machine settable none flags).Reachable s) : s.accepted = [] := by
  rw [(inv_reachable h).accepted]
  exact List.take_nil

/-- After any number of iterations standard output has accepted the input up to
`ptr` and `ntowrite` bytes are left, at the end of the loop it has accepted all
of the input, and no flag but `O_NONBLOCK` has changed. -/
theorem writes_input_in_order (settable flags : Flags) (input : Input) :
    forall s, (machine settable (some input) flags).Reachable s ->
      s.accepted = input.bytes.take s.ptr ∧
      s.ptr + s.ntowrite = input.bytes.length ∧
      (Ended s -> s.accepted = input.bytes) ∧
      s.flags &&& ~~~O_NONBLOCK = flags &&& ~~~O_NONBLOCK := by
  intro s hs
  have h := inv_reachable hs
  have hcount : s.ptr + s.ntowrite = (input.bytes.length : Int) := h.count
  refine ⟨h.accepted, hcount, ?_, h.others⟩
  intro hend
  have hdone := h.ended hend
  have hall : input.bytes.length ≤ s.ptr := by lia
  rw [h.accepted]
  exact List.take_of_length_le hall

/-- "abc" with `EAGAIN`, two bytes, no byte and one byte. -/
def abc : Input where
  bytes := [97, 98, 99]
  fits := by decide

def polling : List Label :=
  [Label.fcntl { getfl := none, setfl := none },
    Label.write (WriteAnswer.failed 11),
    Label.write (WriteAnswer.wrote 2),
    Label.write (WriteAnswer.wrote 0),
    Label.write (WriteAnswer.wrote 1),
    Label.fcntl { getfl := none, setfl := none }]

theorem writes_abc_in_order :
    exists s, (machine O_NONBLOCK (some abc) 1).Reachable s ∧
      s.pc = Pc.returned ∧ s.accepted = [97, 98, 99] := by
  have hrun : ((machine O_NONBLOCK (some abc) 1).run (start (some abc) 1)
      polling).map State.pc = some Pc.returned := rfl
  rcases Machine.exists_reachable_of_run rfl hrun with ⟨s, hs, hpc⟩
  have h := writes_input_in_order O_NONBLOCK 1 abc s hs
  exact ⟨s, hs, hpc, h.2.2.1 (Or.inr (Or.inr hpc))⟩

end Nonblock
end Apue
