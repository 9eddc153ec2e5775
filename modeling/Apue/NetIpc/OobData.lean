import Apue.Foundation.CString

/-!
# The receive loop of the urgent data server

`recv_data` copies what comes over a connection to standard output.  The handler
of `SIGURG` is installed without `SA_RESTART`, so `recv` and `write` may fail with
`EINTR`; `errno` keeps the value that the last failing call gave it.
-/

namespace Apue
namespace OobData

open Foundation

abbrev Errno := Nat

def EINTR : Errno := 4

/-- What `recv` stored in `buf`; no bytes at all is an orderly shutdown. -/
structure Chunk where
  bytes : List Byte
  fits : bytes.length ≤ 1024
  deriving Repr, DecidableEq

inductive WriteResult where
  | wrote (n : Nat)
  | failed (e : Errno)
  deriving Repr, DecidableEq

/-- The result of one `recv`, and of the `write` if the loop gets to it.  After a
failure the `write` is asked for `(size_t) -1` bytes, which no kernel takes, and
fails with `e'`. -/
inductive Turn where
  | received (c : Chunk) (w : WriteResult)
  | failed (e e' : Errno)
  deriving Repr, DecidableEq

/-- What is on standard output, and the results still to come if the loop has
been left. -/
structure Outcome where
  stdout : List Byte
  left : Option (List Turn)
  deriving Repr, DecidableEq

/-- `while ((n = recv(..)) > 0 || errno == EINTR) write(.., n);` -/
def recvLoop (errno : Errno) (stdout : List Byte) : List Turn -> Outcome
  | [] => { stdout, left := none }
  | Turn.received c w :: rest =>
      if 0 < c.bytes.length ∨ errno = EINTR then
        match w with
        | WriteResult.wrote n => recvLoop errno (stdout ++ c.bytes.take n) rest
        | WriteResult.failed e => recvLoop e stdout rest
      else { stdout, left := some rest }
  | Turn.failed e e' :: rest =>
      if e = EINTR then recvLoop e' stdout rest
      else { stdout, left := some rest }

inductive Result where
  | acceptError (e : Errno)
  | fcntlError (e : Errno)
  | looping (stdout : List Byte)
  | closed (stdout : List Byte) (left : List Turn)
  deriving Repr, DecidableEq

def recv_data (errno : Errno) (accept fcntl : Except Errno Unit)
    (turns : List Turn) : Result :=
  match accept with
  | Except.error e => Result.acceptError e
  | Except.ok _ =>
      match fcntl with
      | Except.error e => Result.fcntlError e
      | Except.ok _ =>
          match recvLoop errno [] turns with
          | { stdout, left := none } => Result.looping stdout
          | { stdout, left := some rest } => Result.closed stdout rest

/-!
# What the loop is for

It should end with the first `recv` that reports the end of the connection or a
failure other than an interruption.
-/

namespace Turn

def last : Turn -> Bool
  | received c _ => c.bytes = []
  | failed e _ => e ≠ EINTR

def bytes : Turn -> List Byte
  | received c _ => c.bytes
  | failed _ _ => []

def failures : Turn -> List Errno
  | received _ (WriteResult.wrote _) => []
  | received _ (WriteResult.failed e) => [e]
  | failed e e' => [e, e']

/-- The bytes received are all written. -/
def Complete : Turn -> Prop
  | received c (WriteResult.wrote n) => c.bytes.length ≤ n
  | received _ (WriteResult.failed _) => False
  | failed _ _ => True

def Shutdown : Turn -> Prop
  | received c _ => c.bytes = []
  | failed _ _ => False

end Turn

def before : List Turn -> List Turn :=
  List.takeWhile (fun t => !t.last)

def fromLast : List Turn -> List Turn :=
  List.dropWhile (fun t => !t.last)

def afterLast (turns : List Turn) : Option (List Turn) :=
  match fromLast turns with
  | [] => none
  | _ :: rest => some rest

def received (turns : List Turn) : List Byte :=
  turns.flatMap Turn.bytes

/-- The loop is left after that turn and never otherwise, and what was received
is on standard output. -/
def Proper (errno : Errno) (turns : List Turn) : Prop :=
  recv_data errno (Except.ok ()) (Except.ok ()) turns =
    match afterLast turns with
    | none => Result.looping (received (before turns))
    | some rest => Result.closed (received (before turns)) rest

/-- All that was received before was written, and when an orderly shutdown is
to end the loop, `errno` is not `EINTR` from the last call that failed. -/
structure Undisturbed (errno : Errno) (turns : List Turn) : Prop where
  complete : forall t, t ∈ before turns -> t.Complete
  noticed : forall t rest, fromLast turns = t :: rest -> t.Shutdown ->
    ((before turns).flatMap Turn.failures).getLast?.getD errno ≠ EINTR

/-!
# One turn
-/

theorem before_cons {t : Turn} {rest : List Turn} (h : t.last = false) :
    before (t :: rest) = t :: before rest := by
  unfold before
  rw [List.takeWhile_cons, h]
  rfl

theorem fromLast_cons {t : Turn} {rest : List Turn} (h : t.last = false) :
    fromLast (t :: rest) = fromLast rest := by
  unfold fromLast
  rw [List.dropWhile_cons, h]
  rfl

theorem before_last {t : Turn} {rest : List Turn} (h : t.last = true) :
    before (t :: rest) = [] := by
  unfold before
  rw [List.takeWhile_cons, h]
  rfl

theorem fromLast_last {t : Turn} {rest : List Turn} (h : t.last = true) :
    fromLast (t :: rest) = t :: rest := by
  unfold fromLast
  rw [List.dropWhile_cons, h]
  rfl

theorem received_cons (t : Turn) (rest : List Turn) :
    received (t :: rest) = t.bytes ++ received rest :=
  List.flatMap_cons

theorem getLast?_failures (errno : Errno) (t : Turn) (ts : List Turn) :
    ((t :: ts).flatMap Turn.failures).getLast?.getD errno =
      (ts.flatMap Turn.failures).getLast?.getD
        (t.failures.getLast?.getD errno) := by
  rw [List.flatMap_cons, List.getLast?_append]
  cases (ts.flatMap Turn.failures).getLast? with
  | none => rfl
  | some e => rfl

theorem undisturbed_cons {errno : Errno} {t : Turn} {rest : List Turn}
    (h : t.last = false) :
    Undisturbed errno (t :: rest) ↔
      t.Complete ∧ Undisturbed (t.failures.getLast?.getD errno) rest := by
  constructor
  · intro hu
    refine ⟨hu.complete t ?_, fun u hu' => hu.complete u ?_, fun u rest' hfrom hs => ?_⟩
    · rw [before_cons h]
      exact List.mem_cons_self
    · rw [before_cons h]
      exact List.mem_cons_of_mem t hu'
    · rw [← fromLast_cons h] at hfrom
      have hne := hu.noticed u rest' hfrom hs
      rw [before_cons h, getLast?_failures] at hne
      exact hne
  · rintro ⟨hc, hu⟩
    constructor
    · intro u hu'
      rw [before_cons h] at hu'
      rcases List.mem_cons.mp hu' with heq | hmem
      · rw [heq]
        exact hc
      · exact hu.complete u hmem
    · intro u rest' hfrom hs
      rw [fromLast_cons h] at hfrom
      rw [before_cons h, getLast?_failures]
      exact hu.noticed u rest' hfrom hs

theorem undisturbed_last {errno : Errno} {t : Turn} {rest : List Turn}
    (h : t.last = true) :
    Undisturbed errno (t :: rest) ↔ (t.Shutdown -> errno ≠ EINTR) := by
  constructor
  · intro hu hs
    have hne := hu.noticed t rest (fromLast_last h) hs
    rw [before_last h] at hne
    exact hne
  · intro hne
    constructor
    · intro u hu
      rw [before_last h] at hu
      cases hu
    · intro u rest' hfrom hs
      rw [fromLast_last h] at hfrom
      cases hfrom
      rw [before_last h]
      exact hne hs

def Turn.written : Turn -> List Byte
  | Turn.received c (WriteResult.wrote n) => c.bytes.take n
  | Turn.received _ (WriteResult.failed _) => []
  | Turn.failed _ _ => []

theorem recvLoop_received (errno : Errno) (out : List Byte) (c : Chunk)
    (w : WriteResult) (rest : List Turn) :
    recvLoop errno out (Turn.received c w :: rest) =
      if 0 < c.bytes.length ∨ errno = EINTR then
        match w with
        | WriteResult.wrote n => recvLoop errno (out ++ c.bytes.take n) rest
        | WriteResult.failed e => recvLoop e out rest
      else { stdout := out, left := some rest } := rfl

theorem recvLoop_failed (errno : Errno) (out : List Byte) (e e' : Errno)
    (rest : List Turn) :
    recvLoop errno out (Turn.failed e e' :: rest) =
      if e = EINTR then recvLoop e' out rest
      else { stdout := out, left := some rest } := rfl

theorem recvLoop_cons {errno : Errno} {out : List Byte} {t : Turn}
    {rest : List Turn} (h : t.last = false) :
    recvLoop errno out (t :: rest) =
      recvLoop (t.failures.getLast?.getD errno) (out ++ t.written) rest := by
  cases t with
  | received c w =>
      have hne : c.bytes ≠ [] := of_decide_eq_false h
      have hpos : 0 < c.bytes.length := List.length_pos_iff.mpr hne
      rw [recvLoop_received, if_pos (Or.inl hpos)]
      cases w with
      | wrote n => rfl
      | failed e =>
          change recvLoop e out rest = recvLoop e (out ++ []) rest
          rw [List.append_nil]
  | failed e e' =>
      have he : e = EINTR := Decidable.not_not.mp (of_decide_eq_false h)
      rw [recvLoop_failed, if_pos he]
      change recvLoop e' out rest = recvLoop e' (out ++ []) rest
      rw [List.append_nil]

theorem recvLoop_last {errno : Errno} {out : List Byte} {t : Turn}
    {rest : List Turn} (h : t.last = true) (hne : t.Shutdown -> errno ≠ EINTR) :
    recvLoop errno out (t :: rest) = { stdout := out, left := some rest } := by
  cases t with
  | received c w =>
      have hnil : c.bytes = [] := of_decide_eq_true h
      rw [recvLoop_received, hnil]
      exact if_neg (fun hor => hor.elim (Nat.lt_irrefl 0) (hne hnil))
  | failed e e' =>
      exact if_neg (of_decide_eq_true h)

theorem recvLoop_missed {errno : Errno} {t : Turn} (out : List Byte)
    (rest : List Turn) (hs : t.Shutdown) (he : errno = EINTR) :
    exists errno', recvLoop errno out (t :: rest) = recvLoop errno' out rest := by
  cases t with
  | received c w =>
      have hnil : c.bytes = [] := hs
      rw [recvLoop_received, hnil, if_pos (Or.inr he)]
      cases w with
      | wrote n =>
          refine ⟨errno, ?_⟩
          dsimp only
          rw [List.take_nil, List.append_nil]
      | failed e => exact ⟨e, rfl⟩
  | failed e e' => exact hs.elim

theorem written_length_le (t : Turn) : t.written.length ≤ t.bytes.length := by
  cases t with
  | received c w =>
      cases w with
      | wrote n => exact List.length_take_le' n c.bytes
      | failed e => exact Nat.zero_le _
  | failed e e' => exact Nat.le_refl 0

theorem complete_iff {t : Turn} (h : t.last = false) :
    t.Complete ↔ t.written.length = t.bytes.length := by
  cases t with
  | received c w =>
      have hne : c.bytes ≠ [] := of_decide_eq_false h
      have hpos : 0 < c.bytes.length := List.length_pos_iff.mpr hne
      cases w with
      | wrote n =>
          change c.bytes.length ≤ n ↔ (c.bytes.take n).length = c.bytes.length
          rw [List.length_take]
          lia
      | failed e =>
          change False ↔ 0 = c.bytes.length
          lia
  | failed e e' => exact iff_of_true trivial rfl

theorem written_of_complete {t : Turn} (h : t.Complete) : t.written = t.bytes := by
  cases t with
  | received c w =>
      cases w with
      | wrote n => exact List.take_of_length_le h
      | failed e => exact h.elim
  | failed e e' => rfl

/-!
# The whole loop
-/

theorem left_length {errno : Errno} {out : List Byte} {turns r : List Turn}
    (h : (recvLoop errno out turns).left = some r) : r.length < turns.length := by
  induction turns generalizing errno out with
  | nil => cases h
  | cons t rest ih =>
      cases hlast : t.last with
      | false =>
          rw [recvLoop_cons hlast] at h
          exact Nat.lt_succ_of_lt (ih h)
      | true =>
          by_cases hmiss : t.Shutdown ∧ errno = EINTR
          · rcases recvLoop_missed out rest hmiss.left hmiss.right with ⟨errno', heq⟩
            rw [heq] at h
            exact Nat.lt_succ_of_lt (ih h)
          · rw [recvLoop_last hlast (fun hs he => hmiss ⟨hs, he⟩)] at h
            cases h
            exact Nat.lt_succ_self _

theorem stdout_length {errno : Errno} {out : List Byte} {turns : List Turn}
    (h : (recvLoop errno out turns).left = afterLast turns) :
    (recvLoop errno out turns).stdout.length ≤
      out.length + (received (before turns)).length := by
  induction turns generalizing errno out with
  | nil => exact Nat.le_add_right _ _
  | cons t rest ih =>
      cases hlast : t.last with
      | false =>
          unfold afterLast at h
          rw [recvLoop_cons hlast, fromLast_cons hlast] at h
          have hle := ih h
          have ht := written_length_le t
          rw [List.length_append] at hle
          rw [recvLoop_cons hlast, before_cons hlast, received_cons,
            List.length_append]
          lia
      | true =>
          by_cases hmiss : t.Shutdown ∧ errno = EINTR
          · rcases recvLoop_missed out rest hmiss.left hmiss.right with ⟨errno', heq⟩
            unfold afterLast at h
            rw [heq, fromLast_last hlast] at h
            exact absurd (left_length h) (Nat.lt_irrefl _)
          · rw [recvLoop_last hlast (fun hs he => hmiss ⟨hs, he⟩)]
            exact Nat.le_add_right _ _

theorem recvLoop_iff {errno : Errno} {out : List Byte} {turns : List Turn} :
    (recvLoop errno out turns).stdout = out ++ received (before turns) ∧
        (recvLoop errno out turns).left = afterLast turns ↔
      Undisturbed errno turns := by
  induction turns generalizing errno out with
  | nil =>
      refine iff_of_true ⟨(List.append_nil out).symm, rfl⟩ ⟨?_, ?_⟩
      · intro t ht
        cases ht
      · intro t rest hfrom
        cases hfrom
  | cons t rest ih =>
      cases hlast : t.last with
      | false =>
          have hafter : afterLast (t :: rest) = afterLast rest := by
            unfold afterLast
            rw [fromLast_cons hlast]
          rw [undisturbed_cons hlast, recvLoop_cons hlast, hafter,
            before_cons hlast, received_cons]
          constructor
          · rintro ⟨hout, hleft⟩
            -- a byte that is missing now is not made up for later
            have hle := stdout_length hleft
            have hlen := congrArg List.length hout
            have ht := written_length_le t
            simp only [List.length_append] at hle hlen
            have hc := (complete_iff hlast).mpr (by lia)
            refine ⟨hc, ih.mp ⟨?_, hleft⟩⟩
            rw [hout, written_of_complete hc, List.append_assoc]
          · rintro ⟨hc, hu⟩
            rcases ih.mpr hu with ⟨hout, hleft⟩
            refine ⟨?_, hleft⟩
            rw [hout, written_of_complete hc, List.append_assoc]
      | true =>
          rw [undisturbed_last hlast, before_last hlast]
          unfold afterLast
          rw [fromLast_last hlast]
          constructor
          · rintro ⟨-, hleft⟩ hs he
            rcases recvLoop_missed out rest hs he with ⟨errno', heq⟩
            rw [heq] at hleft
            exact Nat.lt_irrefl _ (left_length hleft)
          · intro hne
            rw [recvLoop_last hlast hne]
            exact ⟨(List.append_nil out).symm, rfl⟩

/-- The loop does what it is for exactly when it is undisturbed. -/
theorem proper_iff_undisturbed (errno : Errno) (turns : List Turn) :
    Proper errno turns ↔ Undisturbed errno turns := by
  have hiff := @recvLoop_iff errno [] turns
  rw [← hiff]
  unfold Proper recv_data
  rcases recvLoop errno [] turns with ⟨stdout, left⟩
  dsimp only
  rw [List.nil_append]
  cases afterLast turns with
  | none =>
      cases left with
      | none =>
          constructor
          · intro h
            cases h
            exact ⟨rfl, rfl⟩
          · rintro ⟨h, -⟩
            rw [h]
      | some rest =>
          refine iff_of_false (fun h => nomatch h) (fun h => nomatch h.right)
  | some after =>
      cases left with
      | none =>
          refine iff_of_false (fun h => nomatch h) (fun h => nomatch h.right)
      | some rest =>
          constructor
          · intro h
            cases h
            exact ⟨rfl, rfl⟩
          · rintro ⟨h, hrest⟩
            cases hrest
            rw [h]

/-- `write` is interrupted before it has written anything, and then the other
side closes the connection: the byte is lost and the loop goes on.  It also goes
on when `errno` is `EINTR` from before the connection. -/
theorem shutdown_missed :
    let c : Chunk := { bytes := [97], fits := by decide }
    let shutdown : Chunk := { bytes := [], fits := by decide }
    let turns := [Turn.received c (WriteResult.failed EINTR),
      Turn.received shutdown (WriteResult.wrote 0)]
    recv_data 0 (Except.ok ()) (Except.ok ()) turns = Result.looping [] ∧
      ¬ Proper 0 turns ∧
      ¬ Proper EINTR [Turn.received shutdown (WriteResult.wrote 0)] := by
  refine ⟨rfl, fun h => ?_, fun h => ?_⟩
  · cases h
  · cases h

end OobData
end Apue
