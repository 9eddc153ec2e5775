import Apue.Foundation.Block
import Apue.Foundation.Decimal
import Apue.Foundation.Snoc
import Apue.Foundation.Transition

/-!
# A message queue

`msgsnd.c` puts messages of the types 1 to 7 on a queue and `msgrcv.c` takes one
of each from it, from type 7 down.  The queue outlives both programs and is open
to other processes.  What the two programs access outside of their
`struct message` is recorded.
-/

namespace Apue
namespace Msgqueue

open Foundation

/-- `sizeof(msg.msgdata)` -/
def SIZE : Nat := 1024

/-- `sizeof(msg)` -/
def SIZEOF_MSG : Nat := 8 + SIZE

structure Message where
  type : Int
  msgdata : Block SIZE
  deriving DecidableEq

structure Queued where
  type : Int
  text : List Byte
  deriving Repr, DecidableEq

/-- An access outside of a `struct message`, with its index in `msgdata`. -/
inductive Access where
  | sprintf (i : Nat)
  | msgsnd (i : Nat)
  | msgrcv (i : Nat)
  deriving Repr, DecidableEq

/-- A message that the receiver took when it asked for a type, and what it then
found in its structure. -/
structure Delivery where
  wanted : Int
  taken : Queued
  got : Message
  deriving DecidableEq

inductive SenderPc where
  | top (i : Nat)
  | msgsnd (i : Nat)
  | exited (status : Nat)
  deriving Repr, DecidableEq

/-- After a store outside of `msg` nothing more is known of the receiver. -/
inductive ReceiverPc where
  | top (i : Nat)
  | msgrcv (i : Nat)
  | exited (status : Nat)
  | overrun
  deriving Repr, DecidableEq

/-- The queue and everything that has been put on it, the two programs with their
messages, the accesses outside of these, and what the receiver got. -/
structure State where
  queue : List Queued
  put : List Queued
  sender : SenderPc
  sent : Message
  receiver : ReceiverPc
  received : Message
  outside : List Access
  deliveries : List Delivery

/-- How a call of `msgsnd` ends: the message is on the queue, or the call fails
after the kernel has copied it or before. -/
inductive SendAnswer where
  | queued
  | dropped
  | refused
  deriving Repr, DecidableEq

/-- A step of one of the programs (`behind` is what stands behind the structure of
the sender), and a message that another process puts on the queue or takes from
it. -/
inductive Label where
  | prepare
  | msgsnd (answer : SendAnswer) (behind : Block 8)
  | next
  | msgrcv
  | msgrcvFails
  | put (m : Queued)
  | take (k : Nat)

/-!
# msgsnd.c
-/

def putThe (i : Nat) : List Byte :=
  [112, 117, 116, 32, 116, 104, 101, 32] ++ decimal i ++
    [116, 104, 32, 109, 101, 115, 115, 97, 103, 101, 0]

def prepare (s : State) : Option State :=
  match s.sender with
  | SenderPc.top i =>
      if i < 8 then
        match s.sent.msgdata.fill (putThe i) with
        | Except.error j =>
            some
              { s with
                outside := s.outside ++ [Access.sprintf j]
                sender := SenderPc.exited 1 }
        | Except.ok msgdata =>
            some
              { s with
                sent := { type := i, msgdata }
                sender := SenderPc.msgsnd i }
      else
        some { s with sender := SenderPc.exited 0 }
  | _ => none

/-- What the kernel reads from behind the end of a structure when it copies
`nbytes` bytes of text. -/
def readBehind (nbytes : Nat) : List Access :=
  if SIZE < nbytes then [Access.msgsnd SIZE] else []

/-- `msgsnd(msqid, &msg, sizeof(msg), 0)` -/
def msgsnd (s : State) (answer : SendAnswer) (behind : Block 8) :
    Option State :=
  match s.sender with
  | SenderPc.msgsnd i =>
      let text := (s.sent.msgdata.bytes ++ behind.bytes).take SIZEOF_MSG
      match answer with
      | SendAnswer.queued =>
          some
            { s with
              queue := s.queue ++ [{ type := s.sent.type, text }]
              put := s.put ++ [{ type := s.sent.type, text }]
              outside := s.outside ++ readBehind SIZEOF_MSG
              sender := SenderPc.top (i + 1) }
      | SendAnswer.dropped =>
          some
            { s with
              outside := s.outside ++ readBehind SIZEOF_MSG
              sender := SenderPc.exited 1 }
      | SendAnswer.refused => some { s with sender := SenderPc.exited 1 }
  | _ => none

/-!
# msgrcv.c
-/

def next (s : State) : Option State :=
  match s.receiver with
  | ReceiverPc.top i =>
      some
        { s with
          receiver :=
            if 0 < i then ReceiverPc.msgrcv i else ReceiverPc.exited 0 }
  | _ => none

def first (queue : List Queued) (i : Nat) : Option Queued :=
  queue.find? (fun m => m.type = i)

/-- `msgrcv(msqid, &msg, sizeof(msg), i, 0)`; without a message of the type it
waits, and one that is longer than the size stays on the queue. -/
def msgrcv (s : State) : Option State :=
  match s.receiver with
  | ReceiverPc.msgrcv i =>
      match first s.queue i with
      | none => none
      | some m =>
          if SIZEOF_MSG < m.text.length then
            some { s with receiver := ReceiverPc.exited 1 }
          else
            let queue := s.queue.eraseP (fun m => m.type = (i : Int))
            match s.received.msgdata.fill m.text with
            | Except.error j =>
                some
                  { s with
                    queue
                    outside := s.outside ++ [Access.msgrcv j]
                    receiver := ReceiverPc.overrun }
            | Except.ok msgdata =>
                some
                  { s with
                    queue
                    received := { type := m.type, msgdata }
                    deliveries := s.deliveries ++
                      [{ wanted := i, taken := m, got := { type := m.type, msgdata } }]
                    receiver := ReceiverPc.top (i - 1) }
  | _ => none

def msgrcvFails (s : State) : Option State :=
  match s.receiver with
  | ReceiverPc.msgrcv _ => some { s with receiver := ReceiverPc.exited 1 }
  | _ => none

def step (s : State) : Label -> Option State
  | Label.prepare => prepare s
  | Label.msgsnd answer behind => msgsnd s answer behind
  | Label.next => next s
  | Label.msgrcv => msgrcv s
  | Label.msgrcvFails => msgrcvFails s
  | Label.put m => some { s with queue := s.queue ++ [m], put := s.put ++ [m] }
  | Label.take k => some { s with queue := s.queue.eraseIdx k }

/-- Both programs at the beginning of their loops, with whatever the queue holds
and their structures contain. -/
def start (queue : List Queued) (sent received : Message) : State where
  queue := queue
  put := queue
  sender := SenderPc.top 1
  sent := sent
  receiver := ReceiverPc.top 7
  received := received
  outside := []
  deliveries := []

def machine (queue : List Queued) (sent received : Message) :
    Machine State Label where
  init s := s = start queue sent received
  step := step

/-!
# What the queue is for
-/

/-- The receiver got what it asked for as it was put on the queue. -/
structure Delivery.Right (d : Delivery) : Prop where
  wanted : d.taken.type = d.wanted
  type : d.got.type = d.taken.type
  text : d.got.msgdata.bytes.take d.taken.text.length = d.taken.text

structure Safe (s : State) : Prop where
  inside : s.outside = []
  right : forall d, d ∈ s.deliveries -> d.Right ∧ d.taken ∈ s.put

/-- The step is not a call of `msgsnd` that copies the message, and does not take
a message that is longer than `msgdata`. -/
def Fits (s : State) : Label -> Prop
  | Label.msgsnd answer _ => answer = SendAnswer.refused
  | Label.msgrcv =>
      forall i m, s.receiver = ReceiverPc.msgrcv i -> first s.queue i = some m ->
        m.text.length ≤ SIZE ∨ SIZEOF_MSG < m.text.length
  | _ => True

/-!
# What one step changes
-/

theorem putThe_fits {i : Nat} (h : i < 8) : (putThe i).length ≤ SIZE := by
  have hall : forall i : Fin 8, (putThe i).length ≤ SIZE := by decide
  exact hall ⟨i, h⟩

theorem prepare_cases {s t : State} (ht : prepare s = some t) :
    exists sent pc, t = { s with sent, sender := pc } := by
  unfold prepare at ht
  split at ht
  · split at ht
    · next hi =>
        rcases s.sent.msgdata.fill_ok (putThe_fits hi) with ⟨b, hfill, _⟩
        rw [hfill] at ht
        cases ht
        exact ⟨_, _, rfl⟩
    · cases ht
      exact ⟨s.sent, _, rfl⟩
  · cases ht

theorem next_cases {s t : State} (ht : next s = some t) :
    exists pc, t = { s with receiver := pc } := by
  unfold next at ht
  split at ht
  · cases ht
    exact ⟨_, rfl⟩
  · cases ht

theorem msgrcvFails_cases {s t : State} (ht : msgrcvFails s = some t) :
    exists pc, t = { s with receiver := pc } := by
  unfold msgrcvFails at ht
  split at ht
  · cases ht
    exact ⟨_, rfl⟩
  · cases ht

theorem msgrcv_cases {s t : State} (ht : msgrcv s = some t) :
    exists i m, s.receiver = ReceiverPc.msgrcv i ∧ first s.queue i = some m ∧
      ((SIZEOF_MSG < m.text.length ∧ t = { s with receiver := ReceiverPc.exited 1 }) ∨
        (m.text.length ≤ SIZEOF_MSG ∧ SIZE < m.text.length ∧
          t.outside = s.outside ++ [Access.msgrcv SIZE] ∧
          t.queue = s.queue.eraseP (fun m => m.type = (i : Int)) ∧ t.put = s.put ∧
          t.deliveries = s.deliveries) ∨
        (m.text.length ≤ SIZE ∧ t.outside = s.outside ∧
          t.queue = s.queue.eraseP (fun m => m.type = (i : Int)) ∧ t.put = s.put ∧
          exists msgdata : Block SIZE,
            msgdata.bytes.take m.text.length = m.text ∧
            t.deliveries = s.deliveries ++
              [{ wanted := i, taken := m, got := { type := m.type, msgdata } }])) := by
  unfold msgrcv at ht
  split at ht
  · next i hpc =>
      split at ht
      · cases ht
      · next m hm =>
          refine ⟨i, m, hpc, hm, ?_⟩
          split at ht
          · next hbig =>
              cases ht
              exact Or.inl ⟨hbig, rfl⟩
          · next hle =>
              right
              rcases Nat.lt_or_ge SIZE m.text.length with hlong | hfits
              · left
                rw [Block.fill_error s.received.msgdata hlong] at ht
                cases ht
                exact ⟨Nat.le_of_not_lt hle, hlong, rfl, rfl, rfl, rfl⟩
              · right
                rcases s.received.msgdata.fill_ok hfits with ⟨b, hfill, htake⟩
                rw [hfill] at ht
                cases ht
                exact ⟨hfits, rfl, rfl, rfl, b, htake, rfl⟩
  · cases ht

/-!
# What is on the queue
-/

structure Inv (s : State) : Prop where
  queue : forall m, m ∈ s.queue -> m ∈ s.put
  right : forall d, d ∈ s.deliveries -> d.Right ∧ d.taken ∈ s.put

theorem inv_start (queue : List Queued) (sent received : Message) :
    Inv (start queue sent received) where
  queue := fun _ hm => hm
  right := fun _ hd => nomatch hd

theorem Inv.prepare {s t : State} (h : Inv s) (ht : prepare s = some t) :
    Inv t := by
  rcases prepare_cases ht with ⟨sent, pc, heq⟩
  rw [heq]
  exact ⟨h.queue, h.right⟩

theorem Inv.put {s : State} (h : Inv s) (m : Queued) :
    (forall m', m' ∈ s.queue ++ [m] -> m' ∈ s.put ++ [m]) ∧
      forall d, d ∈ s.deliveries -> d.Right ∧ d.taken ∈ s.put ++ [m] := by
  constructor
  · intro m' hm'
    rcases mem_snoc hm' with hm' | heq
    · exact List.mem_append_left [m] (h.queue m' hm')
    · rw [heq]
      exact List.mem_append_right s.put List.mem_cons_self
  · intro d hd
    rcases h.right d hd with ⟨hright, hput⟩
    exact ⟨hright, List.mem_append_left [m] hput⟩

theorem Inv.msgsnd {s t : State} {answer : SendAnswer} {behind : Block 8}
    (h : Inv s) (ht : msgsnd s answer behind = some t) : Inv t := by
  unfold Msgqueue.msgsnd at ht
  split at ht
  · cases answer with
    | queued =>
        cases ht
        rcases h.put _ with ⟨hqueue, hright⟩
        exact ⟨hqueue, hright⟩
    | dropped =>
        cases ht
        exact ⟨h.queue, h.right⟩
    | refused =>
        cases ht
        exact ⟨h.queue, h.right⟩
  · cases ht

theorem first_type {queue : List Queued} {i : Nat} {m : Queued}
    (h : first queue i = some m) : m.type = i ∧ m ∈ queue := by
  have htype := List.find?_some h
  exact ⟨of_decide_eq_true htype, List.mem_of_find?_eq_some h⟩

theorem Inv.msgrcv {s t : State} (h : Inv s) (ht : msgrcv s = some t) :
    Inv t := by
  rcases msgrcv_cases ht with ⟨i, m, _, hm, hcases⟩
  have herase : forall m', m' ∈ s.queue.eraseP (fun m => m.type = (i : Int)) ->
      m' ∈ s.put :=
    fun m' hm' => h.queue m' (List.mem_of_mem_eraseP hm')
  rcases hcases with ⟨_, heq⟩ | ⟨_, _, _, hqueue, hput, hdeliveries⟩ |
    ⟨_, _, hqueue, hput, msgdata, htext, hdeliveries⟩
  · rw [heq]
    exact ⟨h.queue, h.right⟩
  · constructor
    · rw [hqueue, hput]
      exact herase
    · rw [hdeliveries, hput]
      exact h.right
  · rcases first_type hm with ⟨htype, hmem⟩
    constructor
    · rw [hqueue, hput]
      exact herase
    · rw [hdeliveries, hput]
      intro d hd
      rcases mem_snoc hd with hd | heq
      · exact h.right d hd
      · rw [heq]
        exact ⟨⟨htype, rfl, htext⟩, h.queue m hmem⟩

theorem Inv.step {s t : State} {l : Label} (h : Inv s) (ht : step s l = some t) :
    Inv t := by
  cases l with
  | prepare => exact h.prepare ht
  | msgsnd answer behind => exact h.msgsnd ht
  | next =>
      rcases next_cases ht with ⟨pc, heq⟩
      rw [heq]
      exact ⟨h.queue, h.right⟩
  | msgrcv => exact h.msgrcv ht
  | msgrcvFails =>
      rcases msgrcvFails_cases ht with ⟨pc, heq⟩
      rw [heq]
      exact ⟨h.queue, h.right⟩
  | put m =>
      cases ht
      exact ⟨(h.put m).1, (h.put m).2⟩
  | take k =>
      cases ht
      exact ⟨fun m hm => h.queue m (List.mem_of_mem_eraseIdx hm), h.right⟩

/-!
# Accesses outside of the structures
-/

theorem readBehind_eq : readBehind SIZEOF_MSG = [Access.msgsnd SIZE] := rfl

theorem msgsnd_outside {s t : State} {answer : SendAnswer} {behind : Block 8}
    (ht : msgsnd s answer behind = some t) :
    t.outside = s.outside ++
      if answer = SendAnswer.refused then [] else [Access.msgsnd SIZE] := by
  unfold msgsnd at ht
  rw [readBehind_eq] at ht
  split at ht
  · cases answer with
    | queued =>
        cases ht
        rfl
    | dropped =>
        cases ht
        rfl
    | refused =>
        cases ht
        exact (List.append_nil _).symm
  · cases ht

theorem msgrcv_outside_iff {s t : State} (hs : s.outside = [])
    (ht : msgrcv s = some t) : t.outside = [] ↔ Fits s Label.msgrcv := by
  rcases msgrcv_cases ht with ⟨i, m, hpc, hm, hcases⟩
  have hfits : Fits s Label.msgrcv ↔
      (m.text.length ≤ SIZE ∨ SIZEOF_MSG < m.text.length) := by
    constructor
    · intro h
      exact h i m hpc hm
    · intro h j m' hpc' hm'
      rw [hpc] at hpc'
      cases hpc'
      rw [hm] at hm'
      cases hm'
      exact h
  rw [hfits]
  rcases hcases with ⟨hbig, heq⟩ | ⟨hle, hlong, hout, _⟩ | ⟨hshort, hout, _⟩
  · rw [heq]
    exact iff_of_true hs (Or.inr hbig)
  · rw [hout, hs]
    apply iff_of_false
    · exact List.cons_ne_nil _ _
    · lia
  · rw [hout, hs]
    exact iff_of_true rfl (Or.inl hshort)

theorem outside_iff {s t : State} {l : Label} (hs : s.outside = [])
    (ht : step s l = some t) : t.outside = [] ↔ Fits s l := by
  cases l with
  | prepare =>
      rcases prepare_cases ht with ⟨sent, pc, heq⟩
      rw [heq]
      exact iff_of_true hs trivial
  | msgsnd answer behind =>
      rw [msgsnd_outside ht, hs, List.nil_append]
      show _ ↔ answer = SendAnswer.refused
      by_cases hrefused : answer = SendAnswer.refused
      · rw [if_pos hrefused]
        exact iff_of_true rfl hrefused
      · rw [if_neg hrefused]
        exact iff_of_false (List.cons_ne_nil _ _) hrefused
  | next =>
      rcases next_cases ht with ⟨pc, heq⟩
      rw [heq]
      exact iff_of_true hs trivial
  | msgrcv => exact msgrcv_outside_iff hs ht
  | msgrcvFails =>
      rcases msgrcvFails_cases ht with ⟨pc, heq⟩
      rw [heq]
      exact iff_of_true hs trivial
  | put m =>
      cases ht
      exact iff_of_true hs trivial
  | take k =>
      cases ht
      exact iff_of_true hs trivial

theorem step_safe_iff {s t : State} {l : Label} (hI : Inv s) (hs : Safe s)
    (ht : step s l = some t) : Safe t ↔ Fits s l := by
  rw [← outside_iff hs.inside ht]
  constructor
  · intro h
    exact h.inside
  · intro h
    exact ⟨h, (hI.step ht).right⟩

/-!
# Whole runs
-/

/-- A run stays inside of the structures and delivers what was put on the queue
when none of its steps copies a message out of `msgsnd.c` or takes one that is
longer than `msgdata`, and only then. -/
theorem runs_safe_iff (queue : List Queued) (sent received : Message)
    (ls : List Label) (t : State)
    (hrun : (machine queue sent received).run (start queue sent received) ls =
      some t) :
    (forall u, (machine queue sent received).Visits (start queue sent received)
      ls u -> Safe u) ↔
      (machine queue sent received).RunMeets Fits (start queue sent received) ls := by
  have hsafe : Safe (start queue sent received) := ⟨rfl, fun _ hd => nomatch hd⟩
  exact Machine.visits_iff_runMeets (I := Inv) (fun s l t hI ht => hI.step ht)
    (fun s l t hI hs ht => step_safe_iff hI hs ht) (inv_start queue sent received) hsafe
    hrun

def blank : Message where
  type := 0
  msgdata := Block.zeros SIZE

def greeting : List Label :=
  [Label.put { type := 7, text := [104, 105] }, Label.next, Label.msgrcv]

theorem greeting_safe :
    exists t, (machine [] blank blank).run (start [] blank blank) greeting = some t ∧
      Safe t := by
  have hsome : ((machine [] blank blank).run (start [] blank blank) greeting).isSome =
      true := rfl
  rcases Option.isSome_iff_exists.mp hsome with ⟨t, hrun⟩
  have hmeets : (machine [] blank blank).RunMeets Fits (start [] blank blank)
      greeting := by
    refine ⟨trivial, trivial, ?_, trivial⟩
    intro i m hpc hm
    cases hpc
    cases hm
    exact Or.inl (by decide)
  have hsafe := (runs_safe_iff [] blank blank greeting t hrun).mpr hmeets
  exact ⟨t, hrun, hsafe t (Machine.visits_of_run hrun)⟩

/-- The first message of `msgsnd.c`, which is copied with what stands behind it. -/
theorem first_message_outside :
    exists t, (machine [] blank blank).Reachable t ∧
      t.outside = [Access.msgsnd SIZE] := by
  have hrun : ((machine [] blank blank).run (start [] blank blank)
      [Label.prepare, Label.msgsnd SendAnswer.queued (Block.zeros 8)]).map
        State.outside = some [Access.msgsnd SIZE] := rfl
  exact Machine.exists_reachable_of_run rfl hrun

end Msgqueue
end Apue
