import Apue.Kernel.Descriptors

/-!
# Connecting to one of several addresses

`main` goes through the addresses of the server and calls `connect_retry` for
each of them until a connection stands.  How `socket` and each attempt to connect
end is part of an address.
-/

namespace Apue
namespace ConnectRetry

open Kernel

def EBADF : Nat := 9

def MAXTIMES : Nat := 8

structure Address where
  socketErr : Option Nat
  connectErr : Nat -> Option Nat

inductive File where
  | inherited
  | socket (i : Nat)
  deriving Repr, DecidableEq

inductive Event where
  | socket (i : Nat) (ret : Int)
  | connect (i : Nat) (sockfd : Int) (ok : Bool)
  | sleep (nsecs : Nat)
  | print_uptime (sockfd : Int)
  deriving Repr, DecidableEq

/-!
# connect_retry
-/

/-- The error of an attempt; without a socket it is `EBADF`. -/
def connect (a : Address) (sockfd : Int) (attempt : Nat) : Option Nat :=
  if sockfd < 0 then some EBADF else a.connectErr attempt

structure Tried where
  ret : Int
  errno : Nat
  log : List Event
  deriving Repr, DecidableEq

/-- `if (nsecs <= MAXTIMES / 2) sleep(nsecs);` -/
def pauseFor (nsecs : Nat) : List Event :=
  if nsecs ≤ MAXTIMES / 2 then [Event.sleep nsecs] else []

def retryFrom (a : Address) (i : Nat) (sockfd : Int) (k errno : Nat) : Tried :=
  if 1 <<< k ≤ MAXTIMES then
    match connect a sockfd k with
    | none => { ret := 0, errno, log := [Event.connect i sockfd true] }
    | some errno =>
        let rest := retryFrom a i sockfd (k + 1) errno
        { rest with
          log := Event.connect i sockfd false :: pauseFor (1 <<< k) ++ rest.log }
  else
    { ret := -1, errno, log := [] }
termination_by MAXTIMES - k
decreasing_by
  have hlt : k < 2 ^ k := Nat.lt_two_pow_self
  have hle : 2 ^ k ≤ MAXTIMES := by
    rw [← Nat.one_shiftLeft]
    assumption
  lia

def connect_retry (a : Address) (i : Nat) (sockfd : Int) (errno : Nat) : Tried :=
  retryFrom a i sockfd 0 errno

/-!
# main
-/

/-- The exit status and the error of the message, the descriptors, what was done,
and the address that the program talks to together with its socket. -/
structure Result where
  status : Nat
  message : Option Nat
  fds : FdTable File
  log : List Event
  talk : Option (Nat × Fd)
  deriving Repr, DecidableEq

def openSocket (a : Address) (i err : Nat) (fds : FdTable File) :
    Int × Nat × FdTable File :=
  match a.socketErr with
  | some errno => (-1, errno, fds)
  | none =>
      let (fd, fds) := fds.install (File.socket i)
      (fd, err, fds)

/-- The loop over the addresses, which are counted by `i`; the last `recv` of
`print_uptime` may fail. -/
def tryAll (recvFails : Bool) :
    Nat -> Nat -> FdTable File -> List Address -> Result
  | _, err, fds, [] =>
      { status := 1, message := some err, fds, log := [], talk := none }
  | i, err, fds, a :: rest =>
      let (sockfd, err, fds) := openSocket a i err fds
      let tried := connect_retry a i sockfd err
      if tried.ret < 0 then
        let result := tryAll recvFails (i + 1) tried.errno fds rest
        { result with log := Event.socket i sockfd :: tried.log ++ result.log }
      else
        { status := if recvFails then 1 else 0
          message := none
          fds
          log := Event.socket i sockfd :: tried.log ++ [Event.print_uptime sockfd]
          talk := some (i, sockfd.toNat) }

def main (recvFails : Bool) (fds : FdTable File) (ailist : List Address) :
    Result :=
  tryAll recvFails 0 0 fds ailist

/-!
# What is asked of the client
-/

/-- A socket can be created, and one of the attempts succeeds. -/
def Address.works (a : Address) : Bool :=
  a.socketErr.isNone && (List.range 4).any (fun k => (a.connectErr k).isNone)

/-- The client talks to the first address that works, no socket but that for this
address is left open, and nothing is connected without a socket. -/
structure Right (fds : FdTable File) (ailist : List Address) (r : Result) :
    Prop where
  first : r.talk.map Prod.fst = ailist.findIdx? Address.works
  talk : forall i fd, r.talk = some (i, fd) -> r.fds.get fd = some (File.socket i)
  closed : forall fd, r.fds.get fd = fds.get fd ∨ exists i, r.talk = some (i, fd)
  sockets : forall i sockfd ok, Event.connect i sockfd ok ∈ r.log -> 0 ≤ sockfd

/-!
# The attempts
-/

theorem shift_le_iff (k : Nat) : 1 <<< k ≤ MAXTIMES ↔ k < 4 := by
  rw [Nat.one_shiftLeft]
  show 2 ^ k ≤ 2 ^ 3 ↔ k < 4
  rw [Nat.pow_le_pow_iff_right (by decide)]
  exact Nat.lt_succ_iff.symm

theorem retryFrom_of_connect {a : Address} {sockfd : Int} {k : Nat} (hk : k < 4)
    (h : connect a sockfd k = none) (i errno : Nat) :
    retryFrom a i sockfd k errno =
      { ret := 0, errno, log := [Event.connect i sockfd true] } := by
  rw [retryFrom, if_pos ((shift_le_iff k).mpr hk), h]

theorem retryFrom_of_error {a : Address} {sockfd : Int} {k errno' : Nat}
    (hk : k < 4) (h : connect a sockfd k = some errno') (i errno : Nat) :
    retryFrom a i sockfd k errno =
      { retryFrom a i sockfd (k + 1) errno' with
        log := Event.connect i sockfd false :: pauseFor (1 <<< k) ++
          (retryFrom a i sockfd (k + 1) errno').log } := by
  rw [retryFrom, if_pos ((shift_le_iff k).mpr hk), h]

theorem retryFrom_end (a : Address) (i : Nat) (sockfd : Int) (errno : Nat) :
    retryFrom a i sockfd 4 errno = { ret := -1, errno, log := [] } := by
  rw [retryFrom, if_neg (by rw [shift_le_iff]; decide)]

theorem retryFrom_ret (a : Address) (i : Nat) (sockfd : Int) {k m : Nat}
    (hkm : k + m = 4) (errno : Nat) :
    (retryFrom a i sockfd k errno).ret =
      if (List.range' k m).any (fun j => (connect a sockfd j).isNone) then 0
      else -1 := by
  induction m generalizing k errno with
  | zero =>
      have hk : k = 4 := hkm
      rw [hk, retryFrom_end]
      rfl
  | succ m ih =>
      have hk : k < 4 := by lia
      rw [List.range'_succ, List.any_cons]
      cases hconnect : connect a sockfd k with
      | none =>
          rw [retryFrom_of_connect hk hconnect]
          rfl
      | some errno' =>
          rw [retryFrom_of_error hk hconnect]
          show (retryFrom a i sockfd (k + 1) errno').ret = _
          rw [ih (by lia), Option.isNone_some, Bool.false_or]

theorem retryFrom_sockfd (a : Address) (i : Nat) (sockfd : Int) {k m : Nat}
    (hkm : k + m = 4) (errno : Nat) {i' : Nat} {sockfd' : Int} {ok : Bool}
    (h : Event.connect i' sockfd' ok ∈ (retryFrom a i sockfd k errno).log) :
    sockfd' = sockfd := by
  induction m generalizing k errno with
  | zero =>
      have hk : k = 4 := hkm
      rw [hk, retryFrom_end] at h
      cases h
  | succ m ih =>
      have hk : k < 4 := by lia
      cases hconnect : connect a sockfd k with
      | none =>
          rw [retryFrom_of_connect hk hconnect] at h
          cases List.mem_singleton.mp h
          rfl
      | some errno' =>
          rw [retryFrom_of_error hk hconnect] at h
          rcases List.mem_append.mp h with h | h
          · rcases List.mem_cons.mp h with heq | h
            · cases heq
              rfl
            · unfold pauseFor at h
              split at h
              · cases List.mem_singleton.mp h
              · cases h
          · exact ih (by lia) errno' h

theorem connect_retry_ret {a : Address} {i : Nat} {sockfd : Int} {errno : Nat}
    (h : 0 ≤ sockfd) :
    (connect_retry a i sockfd errno).ret < 0 ↔
      (List.range 4).any (fun k => (a.connectErr k).isNone) = false := by
  have hconnect : forall k, connect a sockfd k = a.connectErr k :=
    fun k => if_neg (Int.not_lt.mpr h)
  unfold connect_retry
  rw [@retryFrom_ret a i sockfd 0 4 rfl, ← List.range_eq_range']
  simp only [hconnect]
  cases (List.range 4).any (fun k => (a.connectErr k).isNone) with
  | true => simp
  | false => simp

theorem connect_retry_of_noSocket (a : Address) (i errno : Nat) :
    (connect_retry a i (-1) errno).ret < 0 ∧
      Event.connect i (-1) false ∈ (connect_retry a i (-1) errno).log := by
  have hconnect : forall k, connect a (-1) k = some EBADF := fun _ => rfl
  unfold connect_retry
  constructor
  · rw [@retryFrom_ret a i (-1) 0 4 rfl]
    simp [hconnect]
  · rw [retryFrom_of_error (by decide) (hconnect 0)]
    exact List.mem_cons_self

/-!
# One address
-/

theorem tryAll_cons_of_works {a : Address} (h : a.works = true) (recvFails : Bool)
    (i err : Nat) (fds : FdTable File) (rest : List Address) :
    tryAll recvFails i err fds (a :: rest) =
      { status := if recvFails then 1 else 0
        message := none
        fds := (fds.install (File.socket i)).2
        log := Event.socket i fds.lowestFree ::
          (connect_retry a i fds.lowestFree err).log ++
            [Event.print_uptime fds.lowestFree]
        talk := some (i, fds.lowestFree) } := by
  rcases Bool.and_eq_true_iff.mp h with ⟨hsocket, hconnects⟩
  have hret : ¬ (connect_retry a i fds.lowestFree err).ret < 0 := by
    rw [connect_retry_ret (Int.natCast_nonneg _), hconnects]
    exact Bool.noConfusion
  rw [tryAll]
  unfold openSocket
  rw [Option.isNone_iff_eq_none.mp hsocket]
  dsimp only [FdTable.install]
  rw [if_neg hret]
  rfl

theorem tryAll_cons_of_fails {a : Address} (h : a.works = false) (recvFails : Bool)
    (i err : Nat) (fds : FdTable File) (rest : List Address) :
    exists err' fds' log,
      (fds' = fds ∧ Event.connect i (-1) false ∈ log ∨
        fds' = fds.set fds.lowestFree (some (File.socket i))) ∧
      tryAll recvFails i err fds (a :: rest) =
        { tryAll recvFails (i + 1) err' fds' rest with
          log := log ++ (tryAll recvFails (i + 1) err' fds' rest).log } := by
  rw [tryAll]
  unfold openSocket
  cases hsocket : a.socketErr with
  | some errno =>
      rcases connect_retry_of_noSocket a i errno with ⟨hret, hmem⟩
      dsimp only
      rw [if_pos hret]
      exact ⟨_, fds, _, Or.inl ⟨rfl, List.mem_cons_of_mem _ hmem⟩, rfl⟩
  | none =>
      have hconnects : (List.range 4).any (fun k => (a.connectErr k).isNone) = false := by
        unfold Address.works at h
        rw [hsocket] at h
        exact h
      have hret : (connect_retry a i fds.lowestFree err).ret < 0 :=
        (connect_retry_ret (Int.natCast_nonneg _)).mpr hconnects
      dsimp only [FdTable.install]
      rw [if_pos hret]
      exact ⟨_, _, _, Or.inr rfl, rfl⟩

theorem talk_eq (recvFails : Bool) (i err : Nat) (fds : FdTable File)
    (ailist : List Address) :
    (tryAll recvFails i err fds ailist).talk.map Prod.fst =
      (ailist.findIdx? Address.works).map (· + i) := by
  induction ailist generalizing i err fds with
  | nil => rfl
  | cons a rest ih =>
      rw [List.findIdx?_cons]
      cases hworks : a.works with
      | true =>
          rw [tryAll_cons_of_works hworks]
          simp
      | false =>
          rcases tryAll_cons_of_fails hworks recvFails i err fds rest with
            ⟨err', fds', log, _, heq⟩
          rw [heq, if_neg Bool.false_ne_true, Option.map_map]
          show (tryAll recvFails (i + 1) err' fds' rest).talk.map Prod.fst = _
          rw [ih]
          congr 1
          funext j
          show j + (i + 1) = j + 1 + i
          lia

theorem open_stays (recvFails : Bool) {fd : Fd} (i err : Nat) (fds : FdTable File)
    (ailist : List Address) (h : fds.IsOpen fd) :
    (tryAll recvFails i err fds ailist).fds.get fd = fds.get fd ∧
      forall j, (tryAll recvFails i err fds ailist).talk ≠ some (j, fd) := by
  induction ailist generalizing i err fds with
  | nil => exact ⟨rfl, fun j hj => nomatch hj⟩
  | cons a rest ih =>
      have hne := FdTable.ne_lowestFree_of_isOpen h
      cases hworks : a.works with
      | true =>
          rw [tryAll_cons_of_works hworks]
          refine ⟨FdTable.get_set_of_ne fds _ hne, ?_⟩
          intro j hj
          cases hj
          exact hne rfl
      | false =>
          rcases tryAll_cons_of_fails hworks recvFails i err fds rest with
            ⟨err', fds', log, hfds, heq⟩
          have hget : fds'.get fd = fds.get fd := by
            rcases hfds with ⟨hfds, _⟩ | hfds
            · rw [hfds]
            · rw [hfds]
              exact FdTable.get_set_of_ne fds _ hne
          have hopen : fds'.IsOpen fd := by
            unfold FdTable.IsOpen
            rw [hget]
            exact h
          rcases ih (i + 1) err' fds' hopen with ⟨hstays, htalk⟩
          rw [heq]
          exact ⟨hstays.trans hget, htalk⟩

/-!
# All addresses
-/

theorem right_nil (recvFails : Bool) (fds : FdTable File) :
    Right fds [] (main recvFails fds []) where
  first := rfl
  talk := fun _ _ h => nomatch h
  closed := fun _ => Or.inl rfl
  sockets := fun _ _ _ h => nomatch h

theorem right_of_works {a : Address} (h : a.works = true) (recvFails : Bool)
    (fds : FdTable File) (rest : List Address) :
    Right fds (a :: rest) (main recvFails fds (a :: rest)) := by
  have hfirst := talk_eq recvFails 0 0 fds (a :: rest)
  unfold main
  rw [tryAll_cons_of_works h] at hfirst ⊢
  refine ⟨?_, ?_, ?_, ?_⟩
  · rw [hfirst, List.findIdx?_cons, h]
    rfl
  · intro i fd htalk
    cases htalk
    exact FdTable.get_set_self fds _ _
  · intro fd
    rcases Nat.decEq fd fds.lowestFree with hne | heq
    · exact Or.inl (FdTable.get_set_of_ne fds _ hne)
    · rw [heq]
      exact Or.inr ⟨0, rfl⟩
  · intro i sockfd ok hmem
    rcases List.mem_append.mp hmem with hmem | hmem
    · rcases List.mem_cons.mp hmem with heq | hmem
      · cases heq
      · rw [@retryFrom_sockfd a 0 fds.lowestFree 0 4 rfl 0 i sockfd ok hmem]
        exact Int.natCast_nonneg _
    · cases List.mem_singleton.mp hmem

theorem not_right_of_fails {a : Address} (h : a.works = false) (recvFails : Bool)
    (fds : FdTable File) (rest : List Address) :
    ¬ Right fds (a :: rest) (main recvFails fds (a :: rest)) := by
  intro hright
  rcases tryAll_cons_of_fails h recvFails 0 0 fds rest with
    ⟨err', fds', log, hfds, heq⟩
  unfold main at hright
  rw [heq] at hright
  rcases hfds with ⟨_, hmem⟩ | hfds
  · have hpos := hright.sockets 0 (-1) false (List.mem_append_left _ hmem)
    lia
  · -- the socket of this address is open to the end
    have hget : fds'.get fds.lowestFree = some (File.socket 0) := by
      rw [hfds]
      exact FdTable.get_set_self fds _ _
    have hopen : fds'.IsOpen fds.lowestFree := by
      unfold FdTable.IsOpen
      rw [hget]
      exact Option.some_ne_none _
    rcases open_stays recvFails (0 + 1) err' fds' rest hopen with ⟨hstays, htalk⟩
    rcases hright.closed fds.lowestFree with hclosed | ⟨i, hi⟩
    · change (tryAll recvFails (0 + 1) err' fds' rest).fds.get fds.lowestFree = _
        at hclosed
      rw [hstays, hget, FdTable.get_lowestFree] at hclosed
      cases hclosed
    · exact htalk i hi

/-- The client does what is asked of it when there is no address or the first one
works, and only then. -/
theorem right_iff (recvFails : Bool) (fds : FdTable File) (ailist : List Address) :
    Right fds ailist (main recvFails fds ailist) ↔
      forall a, ailist.head? = some a -> a.works = true := by
  cases ailist with
  | nil =>
      apply iff_of_true (right_nil recvFails fds)
      intro a ha
      cases ha
  | cons a rest =>
      cases hworks : a.works with
      | true =>
          apply iff_of_true (right_of_works hworks recvFails fds rest)
          intro b hb
          cases hb
          exact hworks
      | false =>
          apply iff_of_false (not_right_of_fails hworks recvFails fds rest)
          intro h
          rw [h a rfl] at hworks
          cases hworks

def refused : Address where
  socketErr := none
  connectErr := fun _ => some 111

def unsupported : Address where
  socketErr := some 97
  connectErr := fun _ => none

def reachable : Address where
  socketErr := none
  connectErr := fun _ => none

/-- A socket is left open, and one that does not exist is to be connected. -/
theorem second_address_not_right :
    ¬ Right { slots := [] } [refused, reachable]
        (main false { slots := [] } [refused, reachable]) ∧
      ¬ Right { slots := [] } [unsupported, reachable]
        (main false { slots := [] } [unsupported, reachable]) :=
  ⟨not_right_of_fails rfl _ _ _, not_right_of_fails rfl _ _ _⟩

end ConnectRetry
end Apue
