import Apue.Foundation.CString
import Apue.Kernel.Descriptors

/-!
# send_fd and recv_fd

Both functions keep one static control buffer.  The kernel writes into the
receiver's buffer only when the message carries a descriptor and the receiver has a
number left for it; otherwise it says so in the length it reports, which `recv_fd`
prints and does not look at.
-/

namespace Apue
namespace Passing

open Foundation Kernel

/-- `CMSG_LEN(sizeof(int))`. -/
def CONTROLLEN : Nat := 20

def SOL_SOCKET : Nat := 1
def SCM_RIGHTS : Nat := 1

/-- The control buffer: the header, and the number that `CMSG_DATA` shows. -/
structure Cmsghdr where
  cmsg_len : Nat
  cmsg_level : Nat
  cmsg_type : Nat
  data : Int
  deriving Repr, DecidableEq

structure Message (file : Type) where
  bytes : List Byte
  rights : Option file
  deriving Repr, DecidableEq

variable {file : Type}

/-!
# The sender
-/

/-- The kernel takes the descriptor of a rights message from the sender's table;
it refuses one that is not open. -/
def sendmsg (t : FdTable file) (bytes : List Byte) (control : Cmsghdr) :
    Option (Message file) :=
  if control.cmsg_level = SOL_SOCKET ∧ control.cmsg_type = SCM_RIGHTS ∧
      control.cmsg_len = CONTROLLEN then
    match t.get control.data.toNat with
    | none => none
    | some f => some { bytes := bytes, rights := some f }
  else
    some { bytes := bytes, rights := none }

/-- What `send_fd` returns, and the message when it was sent. -/
def send_fd (t : FdTable file) (fd fd_to_send : Fd) :
    Int × Option (Message file) :=
  let control : Cmsghdr :=
    { cmsg_len := CONTROLLEN, cmsg_level := SOL_SOCKET,
      cmsg_type := SCM_RIGHTS, data := fd_to_send }
  match sendmsg t [UInt8.ofNat fd, UInt8.ofNat fd_to_send] control with
  | none => (-1, none)
  | some m => if m.bytes.length ≠ 2 then (-1, some m) else (0, some m)

/-!
# The receiver
-/

/-- What the call of `recvmsg` meets, a message with the limit on descriptors at that
time; an empty message is the end. -/
inductive Incoming (file : Type) where
  | error
  | message (m : Message file) (rlim : Nat)
  deriving Repr, DecidableEq

/-- The lines that `recv_fd` prints. -/
inductive Line where
  | mallocError
  | recvmsgError
  | connectionClosed
  | controllenDiffers
  deriving Repr, DecidableEq

structure Received (file : Type) where
  ret : Int
  cmptr : Option Cmsghdr
  table : FdTable file
  lines : List Line
  deriving Repr, DecidableEq

/-- The control buffer, the reported length and the table after a message.  A
descriptor that cannot be installed is dropped. -/
def deliver (t : FdTable file) (rlim : Nat) (control : Cmsghdr)
    (m : Message file) : Cmsghdr × Nat × FdTable file :=
  match m.rights with
  | none => (control, 0, t)
  | some f =>
      if (t.install f).1 < rlim then
        ({ cmsg_len := CONTROLLEN, cmsg_level := SOL_SOCKET,
           cmsg_type := SCM_RIGHTS, data := (t.install f).1 },
          CONTROLLEN, (t.install f).2)
      else
        (control, 0, t)

/-- `malloc` is what an allocation of the buffer would give now: memory with
some contents, or nothing. -/
def recv_fd (malloc cmptr : Option Cmsghdr) (t : FdTable file)
    (incoming : Incoming file) : Received file :=
  let cmptr := match cmptr with
    | none => malloc
    | some control => some control
  match cmptr with
  | none => { ret := -1, cmptr := none, table := t, lines := [Line.mallocError] }
  | some control =>
      match incoming with
      | Incoming.error =>
          { ret := -1, cmptr := some control, table := t,
            lines := [Line.recvmsgError] }
      | Incoming.message m rlim =>
          if m.bytes.length = 0 then
            { ret := -1, cmptr := some control, table := t,
              lines := [Line.connectionClosed] }
          else
            let (control, controllen, t) := deliver t rlim control m
            { ret := control.data, cmptr := some control, table := t,
              lines := if controllen ≠ CONTROLLEN then
                [Line.controllenDiffers] else [] }

/-- The calls of one receiving process: the table and the limit that each of them
finds, and the message that arrives. -/
structure Call (file : Type) where
  table : FdTable file
  rlim : Nat
  message : Message file
  deriving Repr, DecidableEq

def recvAll (malloc : Option Cmsghdr) :
    Option Cmsghdr -> List (Call file) -> List (Received file)
  | _, [] => []
  | cmptr, c :: rest =>
      let r := recv_fd malloc cmptr c.table (Incoming.message c.message c.rlim)
      r :: recvAll malloc r.cmptr rest

/-!
# What a call should return
-/

/-- A message that carries a descriptor gives a new one for the same open file
description; any other message gives -1 and leaves the table alone. -/
def Correct (c : Call file) (r : Received file) : Prop :=
  match c.message.rights with
  | none => r.ret = -1 ∧ r.table = c.table
  | some f =>
      exists d : Fd, r.ret = d ∧ c.table.get d = none ∧ r.table.get d = some f

def AllCorrect : List (Call file) -> List (Received file) -> Prop
  | [], [] => True
  | c :: calls, r :: results => Correct c r ∧ AllCorrect calls results
  | _, _ => False

/-- A message comes from `send_fd`, or it is data without anything else. -/
def Arrives (m : Message file) : Prop :=
  (exists t fd fd_to_send ret, send_fd t fd fd_to_send = (ret, some m)) ∨
    (m.bytes ≠ [] ∧ m.rights = none)

theorem send_fd_message {t : FdTable file} {fd fd_to_send : Fd} {ret : Int}
    {m : Message file} (h : send_fd t fd fd_to_send = (ret, some m)) :
    ret = 0 ∧ m.bytes.length = 2 ∧
      exists f, t.get fd_to_send = some f ∧ m.rights = some f := by
  unfold send_fd sendmsg at h
  simp only [and_self, if_true, Int.toNat_natCast] at h
  cases hget : t.get fd_to_send with
  | none =>
      simp only [hget] at h
      cases h
  | some f =>
      simp only [hget] at h
      cases h
      exact ⟨rfl, rfl, f, rfl, rfl⟩

theorem Arrives.bytes {m : Message file} (h : Arrives m) :
    m.bytes.length ≠ 0 := by
  rcases h with ⟨t, fd, fd_to_send, ret, hsend⟩ | ⟨hne, _⟩
  · rw [(send_fd_message hsend).2.1]
    decide
  · intro hzero
    exact hne (List.length_eq_zero_iff.mp hzero)

/-!
# What a call returns
-/

def buffer (junk : Cmsghdr) (cmptr : Option Cmsghdr) : Cmsghdr :=
  cmptr.getD junk

theorem recv_fd_message (junk : Cmsghdr) (cmptr : Option Cmsghdr)
    (t : FdTable file) (rlim : Nat) {m : Message file} (hm : m.bytes.length ≠ 0) :
    (recv_fd (some junk) cmptr t (Incoming.message m rlim)).ret =
        (deliver t rlim (buffer junk cmptr) m).1.data ∧
      (recv_fd (some junk) cmptr t (Incoming.message m rlim)).cmptr =
        some (deliver t rlim (buffer junk cmptr) m).1 ∧
      (recv_fd (some junk) cmptr t (Incoming.message m rlim)).table =
        (deliver t rlim (buffer junk cmptr) m).2.2 := by
  unfold recv_fd buffer
  cases cmptr with
  | none =>
      simp only [hm, if_false, Option.getD_none, and_self]
  | some control =>
      simp only [hm, if_false, Option.getD_some, and_self]

theorem deliver_none (t : FdTable file) (rlim : Nat) (control : Cmsghdr)
    {m : Message file} (h : m.rights = none) :
    deliver t rlim control m = (control, 0, t) := by
  unfold deliver
  rw [h]

theorem deliver_full {t : FdTable file} {rlim : Nat} (control : Cmsghdr)
    {m : Message file} (h : rlim ≤ t.lowestFree) :
    deliver t rlim control m = (control, 0, t) := by
  unfold deliver
  cases m.rights with
  | none => rfl
  | some f => exact if_neg (Nat.not_lt_of_le h)

theorem deliver_some {t : FdTable file} {rlim : Nat} (control : Cmsghdr)
    {m : Message file} {f : file} (h : m.rights = some f)
    (hroom : t.lowestFree < rlim) :
    (deliver t rlim control m).1.data = (t.lowestFree : Int) ∧
      (deliver t rlim control m).2.2 = t.set t.lowestFree (some f) := by
  have hinstall : (t.install f).1 < rlim := hroom
  unfold deliver
  simp only [h, if_pos hinstall]
  exact ⟨rfl, rfl⟩

def Call.Installs (c : Call file) : Prop :=
  c.message.rights ≠ none ∧ c.table.lowestFree < c.rlim

/-- What `recv_fd` returns for the message of a call. -/
def Call.recv (junk : Cmsghdr) (cmptr : Option Cmsghdr) (c : Call file) :
    Received file :=
  recv_fd (some junk) cmptr c.table (Incoming.message c.message c.rlim)

theorem correct_of_installs (junk : Cmsghdr) (cmptr : Option Cmsghdr)
    {c : Call file} (hbytes : c.message.bytes.length ≠ 0) (h : c.Installs) :
    Correct c (c.recv junk cmptr) := by
  rcases recv_fd_message junk cmptr c.table c.rlim hbytes with ⟨hret, _, htable⟩
  cases hrights : c.message.rights with
  | none => exact absurd hrights h.1
  | some f =>
      rcases deliver_some (buffer junk cmptr) hrights h.2 with ⟨hdata, hset⟩
      unfold Correct
      rw [hrights]
      refine ⟨c.table.lowestFree, hret.trans hdata, c.table.get_lowestFree, ?_⟩
      exact (congrArg (fun t => t.get c.table.lowestFree) (htable.trans hset)).trans
        (c.table.get_set_self _ _)

/-- A call that returns what it should has installed a descriptor, unless the buffer
shows -1 by chance. -/
theorem installs_of_correct {junk : Cmsghdr} {cmptr : Option Cmsghdr} {c : Call file}
    (hdata : (buffer junk cmptr).data ≠ -1) (hbytes : c.message.bytes.length ≠ 0)
    (h : Correct c (c.recv junk cmptr)) : c.Installs := by
  rcases recv_fd_message junk cmptr c.table c.rlim hbytes with ⟨hret, _, htable⟩
  unfold Correct at h
  cases hrights : c.message.rights with
  | none =>
      rw [hrights] at h
      rw [deliver_none _ _ _ hrights] at hret
      exact absurd (hret.symm.trans h.1) hdata
  | some f =>
      rw [hrights] at h
      refine ⟨by rw [hrights]; exact Option.some_ne_none f, ?_⟩
      rcases Nat.lt_or_ge c.table.lowestFree c.rlim with hlt | hge
      · exact hlt
      · rcases h with ⟨d, _, hfree, hopen⟩
        rw [deliver_full _ hge] at htable
        have hsame : (c.recv junk cmptr).table = c.table := htable
        rw [hsame, hfree] at hopen
        cases hopen

/-!
# The whole sequence
-/

theorem allCorrect_of_installs (junk : Cmsghdr) (cmptr : Option Cmsghdr)
    {calls : List (Call file)}
    (harrive : forall c, c ∈ calls -> Arrives c.message)
    (h : forall c, c ∈ calls -> c.Installs) :
    AllCorrect calls (recvAll (some junk) cmptr calls) := by
  induction calls generalizing cmptr with
  | nil => trivial
  | cons c rest ih =>
      constructor
      · exact correct_of_installs junk cmptr
          (harrive c List.mem_cons_self).bytes (h c List.mem_cons_self)
      · exact ih _ (fun d hd => harrive d (List.mem_cons_of_mem c hd))
          (fun d hd => h d (List.mem_cons_of_mem c hd))

/-- A buffer that does not show -1 by chance gives every call away that installs
nothing. -/
theorem installs_of_allCorrect {junk : Cmsghdr} {cmptr : Option Cmsghdr}
    {calls : List (Call file)} (hdata : (buffer junk cmptr).data ≠ -1)
    (harrive : forall c, c ∈ calls -> Arrives c.message)
    (h : AllCorrect calls (recvAll (some junk) cmptr calls)) :
    forall c, c ∈ calls -> c.Installs := by
  induction calls generalizing cmptr with
  | nil =>
      intro c hc
      cases hc
  | cons c rest ih =>
      rcases h with ⟨hcorrect, hrest⟩
      have hbytes := (harrive c List.mem_cons_self).bytes
      have hinstalls := installs_of_correct hdata hbytes hcorrect
      rcases recv_fd_message junk cmptr c.table c.rlim hbytes with ⟨_, hcmptr, _⟩
      rcases Option.ne_none_iff_exists'.mp hinstalls.1 with ⟨f, hrights⟩
      have hnext : (buffer junk (c.recv junk cmptr).cmptr).data ≠ -1 := by
        change (buffer junk (recv_fd (some junk) cmptr c.table
          (Incoming.message c.message c.rlim)).cmptr).data ≠ -1
        rw [hcmptr]
        change (deliver c.table c.rlim (buffer junk cmptr) c.message).1.data ≠ -1
        rw [(deliver_some _ hrights hinstalls.2).1]
        lia
      have htail := ih hnext
        (fun d hd => harrive d (List.mem_cons_of_mem c hd)) hrest
      intro d hd
      rcases List.mem_cons.mp hd with heq | hmem
      · rw [heq]
        exact hinstalls
      · exact htail d hmem

/--
Every call returns what it should, whatever the freshly allocated buffer held,
exactly when every message carries a descriptor and finds a number for it.
-/
theorem recvAll_correct_iff (calls : List (Call file))
    (harrive : forall c, c ∈ calls -> Arrives c.message) :
    (forall junk, AllCorrect calls (recvAll (some junk) none calls)) ↔
      forall c, c ∈ calls -> c.Installs := by
  constructor
  · intro h
    let junk : Cmsghdr :=
      { cmsg_len := 0, cmsg_level := 0, cmsg_type := 0, data := 0 }
    have hdata : (buffer junk none).data ≠ -1 := by
      decide
    exact installs_of_allCorrect hdata harrive (h junk)
  · intro h junk
    exact allCorrect_of_installs junk none harrive h

def standard : FdTable Nat where
  slots := [some 0, some 1, some 2]

/-- What `send_fd` makes of the sender's descriptor 2. -/
def passed : Message Nat where
  bytes := [1, 2]
  rights := some 2

theorem passed_arrives : Arrives passed :=
  Or.inl ⟨standard, 1, 2, 0, by decide⟩

def oneCall : List (Call Nat) :=
  [{ table := standard, rlim := 8, message := passed }]

theorem recvAll_correct_iff_one :
    (forall junk, AllCorrect oneCall (recvAll (some junk) none oneCall)) ↔
      forall c, c ∈ oneCall -> c.Installs :=
  recvAll_correct_iff oneCall
    (by
      intro c hc
      rw [List.mem_singleton.mp hc]
      exact passed_arrives)

def plain : Message Nat where
  bytes := [0]
  rights := none

theorem plain_arrives : Arrives plain :=
  Or.inr ⟨by decide, rfl⟩

def staleCalls : List (Call Nat) :=
  oneCall ++ [{ table := standard.set 3 (some 2), rlim := 8, message := plain }]

/-- After a message that carries a descriptor, a message without one returns
the number of the earlier descriptor. -/
theorem stale_descriptor_returned :
    Arrives passed ∧ Arrives plain ∧
      forall junk,
        (recvAll (some junk) none staleCalls).map Received.ret = [3, 3] ∧
          ¬ AllCorrect staleCalls (recvAll (some junk) none staleCalls) := by
  refine ⟨passed_arrives, plain_arrives, ?_⟩
  intro junk
  constructor
  · rfl
  · intro h
    have hret : (3 : Int) = -1 := h.2.1.1
    exact absurd hret (by decide)

end Passing
end Apue
