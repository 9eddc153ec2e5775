import Apue.Daemon.Daemonize

/-!
# Starting a server

`main` of a server goes through the addresses of its own host until `initserver` has a
socket for one of them, and serves there.  How the calls for an address end is part of
the address.
-/

namespace Apue
namespace Initserver

open Kernel
open Daemonize (Description)

variable {file : Type}

inductive SockType where
  | SOCK_STREAM
  | SOCK_SEQPACKET
  | SOCK_DGRAM
  deriving Repr, DecidableEq

structure Address where
  socketErr : Option Nat
  bindErr : Option Nat
  listenErr : Option Nat
  perrorErr : Option Nat
  closeErr : Option Nat
  deriving Repr, DecidableEq

inductive File (file : Type) where
  | before (f : file)
  | socket (i : Nat) (bound listening : Bool)
  deriving Repr, DecidableEq

/-!
# initserver
-/

structure Made (file : Type) where
  ret : Int
  errno : Nat
  fds : FdTable (File file)

/-- What comes behind the label.  `errno` is set after `close` or, where `late` is false,
before it, so that the error of `close` stays. -/
def errend (late : Bool) (a : Address) (sockfd : Fd) (err : Nat) (fds : FdTable (File file)) :
    Made file where
  ret := -1
  errno := if late then err else a.closeErr.getD err
  fds := fds.close sockfd

def initserver (late : Bool) (type : SockType) (a : Address) (i errno : Nat)
    (fds : FdTable (File file)) : Made file :=
  match a.socketErr with
  | some err => { ret := -1, errno := a.perrorErr.getD err, fds }
  | none =>
      let (sockfd, fds) := fds.install (File.socket i false false)
      match a.bindErr with
      | some err => errend late a sockfd err fds
      | none =>
          let fds := fds.set sockfd (some (File.socket i true false))
          if type = SockType.SOCK_STREAM ∨ type = SockType.SOCK_SEQPACKET then
            match a.listenErr with
            | some err => errend late a sockfd err fds
            | none =>
                { ret := sockfd
                  errno
                  fds := fds.set sockfd (some (File.socket i true true)) }
          else { ret := sockfd, errno, fds }

/-!
# main
-/

structure Tried (file : Type) where
  found : Option (Nat × Fd)
  errno : Nat
  fds : FdTable (File file)

def tryAll (late : Bool) (type : SockType) :
    Nat -> Nat -> FdTable (File file) -> List Address -> Tried file
  | _, errno, fds, [] => { found := none, errno, fds }
  | i, errno, fds, a :: rest =>
      let made := initserver late type a i errno fds
      if 0 ≤ made.ret then
        { found := some (i, made.ret.toNat), errno := made.errno, fds := made.fds }
      else
        tryAll late type (i + 1) made.errno made.fds rest

/-- How the calls of `main` end; `getaddrinfo` returns a value, and the list where that
is 0. -/
structure Answers where
  mallocFails : Bool
  gethostnameFails : Bool
  daemonize : Daemonize.Answers
  getaddrinfo : Int
  ailist : List Address
  deriving Repr, DecidableEq

/-- Where `main` ends, or calls `serve`.  It is undefined what happens when it uses a list
that it has not got. -/
inductive Outcome (file : Type) where
  | exit (status : Nat)
  | overflow
  | undefined
  | serve (i : Nat) (sockfd : Fd) (fds : FdTable (File file))

/-- From `getaddrinfo` on; `failed` is the test of its value. -/
def start (failed : Int -> Bool) (type : SockType) (sys : Answers) (fds : FdTable file) :
    Outcome file :=
  if failed sys.getaddrinfo then
    Outcome.exit 1
  else if sys.getaddrinfo ≠ 0 then
    Outcome.undefined
  else
    let tried := tryAll true type 0 0 (fds.map File.before) sys.ailist
    match tried.found with
    | some (i, sockfd) => Outcome.serve i sockfd tried.fds
    | none => Outcome.exit 1

def main (failed : Int -> Bool) (type : SockType) (sys : Answers) (fds : FdTable file) :
    Outcome (Description file) :=
  if sys.mallocFails ∨ sys.gethostnameFails then
    Outcome.exit 1
  else
    match Daemonize.daemonize sys.daemonize fds with
    | Daemonize.Outcome.exit status _ => Outcome.exit status
    | Daemonize.Outcome.overflow => Outcome.overflow
    | Daemonize.Outcome.passed fds => start failed type sys fds

/-- The stream server that reads from a pipe; it takes only negative values for errors. -/
def sendrecv : Answers -> FdTable file -> Outcome (Description file) :=
  main (fun err => err < 0) SockType.SOCK_STREAM

def othersrv : Answers -> FdTable file -> Outcome (Description file) :=
  main (fun err => err ≠ 0) SockType.SOCK_STREAM

def connless : Answers -> FdTable file -> Outcome (Description file) :=
  main (fun err => err ≠ 0) SockType.SOCK_DGRAM

/-- `main` of the server for urgent data, which stays in the foreground and calls
`recv_data` for `serve`; and the error that its last message shows. -/
def oobsrv (sys : Answers) (sigactionFails : Bool) (errno : Nat) (fds : FdTable file) :
    Outcome file × Option Nat :=
  if sys.mallocFails ∨ sys.gethostnameFails ∨ sys.getaddrinfo ≠ 0 ∨ sigactionFails then
    (Outcome.exit 1, none)
  else
    let tried := tryAll false SockType.SOCK_STREAM 0 errno (fds.map File.before) sys.ailist
    match tried.found with
    | some (i, sockfd) => (Outcome.serve i sockfd tried.fds, none)
    | none => (Outcome.exit 1, some tried.errno)

/-!
# One address
-/

def SockType.listens : SockType -> Bool
  | SockType.SOCK_DGRAM => false
  | _ => true

theorem listens_iff (type : SockType) :
    type = SockType.SOCK_STREAM ∨ type = SockType.SOCK_SEQPACKET ↔ type.listens = true := by
  cases type with
  | _ => decide

def Address.works (type : SockType) (a : Address) : Bool :=
  a.socketErr.isNone && a.bindErr.isNone && (!type.listens || a.listenErr.isNone)

structure Listening (type : SockType) (i : Nat) (fds : FdTable (File file)) (sockfd : Fd)
    (fds' : FdTable (File file)) : Prop where
  free : sockfd = fds.lowestFree
  get : forall e, fds'.get e =
    if e = sockfd then some (File.socket i true type.listens) else fds.get e

section

variable (late : Bool) {type : SockType} {a : Address} (fds : FdTable (File file))

theorem initserver_of_works (h : a.works type = true) (i errno : Nat) :
    exists fds', Listening type i fds fds.lowestFree fds' ∧
      initserver late type a i errno fds = { ret := fds.lowestFree, errno, fds := fds' } := by
  rcases Bool.and_eq_true_iff.mp h with ⟨hmade, hlisten⟩
  rcases Bool.and_eq_true_iff.mp hmade with ⟨hsocket, hbind⟩
  unfold initserver
  rw [Option.isNone_iff_eq_none.mp hsocket, Option.isNone_iff_eq_none.mp hbind]
  dsimp only [FdTable.install]
  cases hlistens : type.listens with
  | false =>
      rw [if_neg (by rw [listens_iff, hlistens]; decide)]
      refine ⟨_, ⟨rfl, ?_⟩, rfl⟩
      intro e
      rw [FdTable.get_set, FdTable.get_set, hlistens]
      split <;> rfl
  | true =>
      rw [hlistens] at hlisten
      rw [if_pos ((listens_iff type).mpr hlistens), Option.isNone_iff_eq_none.mp hlisten]
      refine ⟨_, ⟨rfl, ?_⟩, rfl⟩
      intro e
      rw [FdTable.get_set, FdTable.get_set, FdTable.get_set, hlistens]
      split <;> rfl

def Address.error (a : Address) : Nat :=
  match a.socketErr, a.bindErr, a.listenErr with
  | some err, _, _ => err
  | none, some err, _ => err
  | none, none, some err => err
  | none, none, none => 0

/-- The error that is left in `errno`: that of `perror`, or of a `close` which comes last,
takes the place of the first one. -/
def Address.left (late : Bool) (a : Address) : Nat :=
  if a.socketErr.isSome then a.perrorErr.getD a.error
  else if late then a.error
  else a.closeErr.getD a.error

theorem initserver_of_fails (h : a.works type = false) (i errno : Nat) :
    exists fds', (forall e, fds'.get e = fds.get e) ∧
      initserver late type a i errno fds = { ret := -1, errno := a.left late, fds := fds' } := by
  have hclosed : forall (t : FdTable (File file)) (e : Fd),
      (forall e, e ≠ fds.lowestFree -> t.get e = fds.get e) ->
        (t.close fds.lowestFree).get e = fds.get e := by
    intro t e ht
    rw [FdTable.get_close]
    split
    · next heq => rw [heq, fds.get_lowestFree]
    · next hne => exact ht e hne
  unfold initserver Address.left Address.error
  cases hsocket : a.socketErr with
  | some err => exact ⟨fds, fun _ => rfl, rfl⟩
  | none =>
      dsimp only [FdTable.install]
      cases hbind : a.bindErr with
      | some err =>
          refine ⟨_, fun e => hclosed _ e ?_, rfl⟩
          exact fun e hne => FdTable.get_set_of_ne _ _ hne
      | none =>
          have hfails : (!type.listens || a.listenErr.isNone) = false := by
            unfold Address.works at h
            rw [hsocket, hbind] at h
            exact h
          rcases Bool.or_eq_false_iff.mp hfails with ⟨hlistens, hlisten⟩
          have htype : type.listens = true := by
            rw [← Bool.not_not type.listens, hlistens]
            rfl
          rw [if_pos ((listens_iff type).mpr htype)]
          cases hlistenErr : a.listenErr with
          | none =>
              rw [hlistenErr] at hlisten
              cases hlisten
          | some err =>
              refine ⟨_, fun e => hclosed _ e ?_, rfl⟩
              intro e hne
              rw [FdTable.get_set_of_ne _ _ hne, FdTable.get_set_of_ne _ _ hne]

/-!
# All addresses
-/

theorem tryAll_cons_of_works (h : a.works type = true) (i errno : Nat) (rest : List Address) :
    exists fds', Listening type i fds fds.lowestFree fds' ∧
      tryAll late type i errno fds (a :: rest) =
        { found := some (i, fds.lowestFree), errno, fds := fds' } := by
  rcases initserver_of_works late fds h i errno with ⟨fds', hfds, hmade⟩
  refine ⟨fds', hfds, ?_⟩
  rw [tryAll, hmade]
  dsimp only
  rw [if_pos (Int.natCast_nonneg _), Int.toNat_natCast]

theorem tryAll_cons_of_fails (h : a.works type = false) (i errno : Nat) (rest : List Address) :
    exists fds', (forall e, fds'.get e = fds.get e) ∧
      tryAll late type i errno fds (a :: rest) =
        tryAll late type (i + 1) (a.left late) fds' rest := by
  rcases initserver_of_fails late fds h i errno with ⟨fds', hfds, hmade⟩
  refine ⟨fds', hfds, ?_⟩
  rw [tryAll, hmade]
  dsimp only
  rw [if_neg (by decide)]

end

theorem tryAll_found (late : Bool) (type : SockType) (i errno : Nat)
    (fds : FdTable (File file)) (ailist : List Address) :
    (tryAll late type i errno fds ailist).found =
      (ailist.findIdx? (Address.works type)).map (fun j => (j + i, fds.lowestFree)) := by
  induction ailist generalizing i errno fds with
  | nil => rfl
  | cons a rest ih =>
      rw [List.findIdx?_cons]
      cases hworks : a.works type with
      | true =>
          rcases tryAll_cons_of_works late fds hworks i errno rest with ⟨fds', _, heq⟩
          rw [heq, if_pos rfl, Option.map_some, Nat.zero_add]
      | false =>
          rcases tryAll_cons_of_fails late fds hworks i errno rest with ⟨fds', hfds, heq⟩
          rw [heq, ih, if_neg Bool.false_ne_true, FdTable.lowestFree_congr hfds, Option.map_map]
          congr 1
          funext j
          show (j + (i + 1), fds.lowestFree) = (j + 1 + i, fds.lowestFree)
          rw [Nat.add_assoc, Nat.add_comm i 1]

theorem tryAll_listening (late : Bool) (type : SockType) (i errno : Nat)
    (fds : FdTable (File file)) (ailist : List Address) {j : Nat} {sockfd : Fd}
    (h : (tryAll late type i errno fds ailist).found = some (j, sockfd)) :
    Listening type j fds sockfd (tryAll late type i errno fds ailist).fds := by
  induction ailist generalizing i errno fds with
  | nil => cases h
  | cons a rest ih =>
      cases hworks : a.works type with
      | true =>
          rcases tryAll_cons_of_works late fds hworks i errno rest with ⟨fds', hfds, heq⟩
          rw [heq] at h ⊢
          cases h
          exact hfds
      | false =>
          rcases tryAll_cons_of_fails late fds hworks i errno rest with ⟨fds', hfds, heq⟩
          rw [heq] at h ⊢
          rcases ih _ _ fds' h with ⟨hfree, hget⟩
          refine ⟨hfree.trans (FdTable.lowestFree_congr hfds), ?_⟩
          intro e
          rw [hget, hfds]

theorem tryAll_errno (late : Bool) (type : SockType) (i errno : Nat)
    (fds : FdTable (File file)) (ailist : List Address)
    (h : (tryAll late type i errno fds ailist).found = none) :
    (tryAll late type i errno fds ailist).errno =
      (ailist.getLast?.map (Address.left late)).getD errno := by
  induction ailist generalizing i errno fds with
  | nil => rfl
  | cons a rest ih =>
      cases hworks : a.works type with
      | true =>
          rcases tryAll_cons_of_works late fds hworks i errno rest with ⟨fds', _, heq⟩
          rw [heq] at h
          cases h
      | false =>
          rcases tryAll_cons_of_fails late fds hworks i errno rest with ⟨fds', _, heq⟩
          rw [heq] at h ⊢
          rw [ih _ _ fds' h, List.getLast?_cons]
          cases rest.getLast? with
          | none => rfl
          | some last => rfl

theorem found_eq_none_iff (late : Bool) (type : SockType) (i errno : Nat)
    (fds : FdTable (File file)) (ailist : List Address) :
    (tryAll late type i errno fds ailist).found = none ↔
      forall a, a ∈ ailist -> a.works type = false := by
  rw [tryAll_found, Option.map_eq_none_iff, List.findIdx?_eq_none_iff]

/-- The message of the foreground server shows the error for the last address, or that of a
`close` or `perror` that has failed after it. -/
theorem oobsrv_message {sys : Answers} {sigactionFails : Bool} {errno err : Nat}
    {fds : FdTable file} (h : (oobsrv sys sigactionFails errno fds).2 = some err) :
    (forall a, a ∈ sys.ailist -> a.works SockType.SOCK_STREAM = false) ∧
      err = (sys.ailist.getLast?.map (Address.left false)).getD errno := by
  unfold oobsrv at h
  split at h
  · cases h
  · dsimp only at h
    split at h
    · cases h
    · next hfound =>
        cases h
        exact ⟨(found_eq_none_iff _ _ _ _ _ _).mp hfound, tryAll_errno _ _ _ _ _ _ hfound⟩

/-!
# What a server has open
-/

/-- The server has a socket for the first address that works, `/dev/null` at the first three
descriptors, and else only what the caller had open from `n` on. -/
structure Serving (type : SockType) (n : Nat) (fds : FdTable file) (ailist : List Address)
    (i : Nat) (sockfd : Fd) (t : FdTable (File (Description file))) : Prop where
  first : ailist.findIdx? (Address.works type) = some i
  socket : t.get sockfd = some (File.socket i true type.listens)
  null : forall e, e < 3 -> t.get e = some (File.before Description.devNull)
  lowest : forall e, e < sockfd -> t.IsOpen e
  others : forall e, 3 ≤ e -> e ≠ sockfd ->
    t.get e = if e < n then none else (fds.get e).map (fun f =>
      File.before (Description.inherited f))

section

variable {failed : Int -> Bool} {type : SockType} {sys : Answers} {fds : FdTable file}
  {i : Nat} {sockfd : Fd}

theorem start_serve {t : FdTable (File file)}
    (h : start failed type sys fds = Outcome.serve i sockfd t) :
    sys.ailist.findIdx? (Address.works type) = some i ∧
      Listening type i (fds.map File.before) sockfd t := by
  unfold start at h
  split at h
  · cases h
  · split at h
    · cases h
    · dsimp only at h
      split at h
      · next j sockfd' hfound =>
          cases h
          refine ⟨?_, tryAll_listening true type 0 0 _ sys.ailist hfound⟩
          rw [tryAll_found] at hfound
          rcases Option.map_eq_some_iff.mp hfound with ⟨k, hk, heq⟩
          cases heq
          exact hk
      · cases h

/-- What the daemon has open when it calls `serve` is what `daemonize` leaves, and the
socket. -/
theorem main_serve {t : FdTable (File (Description file))}
    (h : main failed type sys fds = Outcome.serve i sockfd t) :
    exists u, Daemonize.daemonize sys.daemonize fds = Daemonize.Outcome.passed u ∧
      start failed type sys u = Outcome.serve i sockfd t := by
  unfold main at h
  split at h
  · cases h
  · split at h
    · cases h
    · cases h
    · next u hu => exact ⟨u, hu, h⟩

theorem serving {t : FdTable (File (Description file))} {rlim_max : Daemonize.Limit}
    (hlimit : sys.daemonize.getrlimit = some rlim_max)
    (h : main failed type sys fds = Outcome.serve i sockfd t) :
    Serving type (Daemonize.bound rlim_max) fds sys.ailist i sockfd t := by
  rcases main_serve h with ⟨u, hpassed, hstart⟩
  rcases start_serve hstart with ⟨hfirst, hfree, hget⟩
  have hu := Daemonize.attach_passed (Daemonize.daemonize_passed hlimit hpassed)
  have hsockfd : 3 ≤ sockfd := by
    apply Nat.le_of_not_lt
    intro hlt
    have hnone : (u.map File.before).get sockfd = none := by
      rw [hfree]
      exact FdTable.get_lowestFree _
    rw [FdTable.get_map, (hu sockfd).2, if_pos hlt] at hnone
    cases hnone
  refine ⟨hfirst, ?_, ?_, ?_, ?_⟩
  · rw [hget, if_pos rfl]
  · intro e he
    rw [hget, if_neg (Nat.ne_of_lt (Nat.lt_of_lt_of_le he hsockfd)), FdTable.get_map,
      (hu e).2, if_pos he]
    rfl
  · intro e he
    have hopen : (u.map File.before).IsOpen e := FdTable.isOpen_of_lt_lowestFree _ (hfree ▸ he)
    unfold FdTable.IsOpen
    rw [hget, if_neg (Nat.ne_of_lt he)]
    exact hopen
  · intro e he hne
    rw [hget, if_neg hne, FdTable.get_map, (hu e).2, if_neg (Nat.not_lt.mpr he),
      Daemonize.get_closed]
    split
    · rfl
    · rw [Option.map_map]
      rfl

theorem Serving.alone {n : Nat} {ailist : List Address}
    {t : FdTable (File (Description file))} (h : Serving type n fds ailist i sockfd t)
    (hbelow : forall d, fds.IsOpen d -> d < n) :
    sockfd = 3 ∧ forall e, t.IsOpen e ↔ e ≤ 3 := by
  have hnone : forall e, 3 ≤ e -> e ≠ sockfd -> t.get e = none := by
    intro e he hne
    rw [h.others e he hne]
    split
    · rfl
    · next hge =>
        cases hget : fds.get e with
        | none => rfl
        | some f => exact absurd (hbelow e (by rw [FdTable.IsOpen, hget]; nofun)) hge
  have hsockfd : sockfd = 3 := by
    apply Nat.le_antisymm
    · apply Nat.le_of_not_lt
      intro hlt
      exact h.lowest 3 hlt (hnone 3 (Nat.le_refl 3) (Nat.ne_of_lt hlt))
    · apply Nat.le_of_not_lt
      intro hlt
      have hsocket := h.socket
      rw [h.null sockfd hlt] at hsocket
      cases hsocket
  refine ⟨hsockfd, ?_⟩
  intro e
  constructor
  · intro hopen
    apply Nat.le_of_not_lt
    intro hlt
    exact hopen (hnone e (Nat.le_of_lt hlt) (by rw [hsockfd]; exact Nat.ne_of_gt hlt))
  · intro hle
    rcases Nat.lt_or_eq_of_le hle with hlt | heq
    · exact h.lowest e (by rw [hsockfd]; exact hlt)
    · unfold FdTable.IsOpen
      rw [heq, ← hsockfd, h.socket]
      nofun

def Ready (sys : Answers) (fds : FdTable file) : Prop :=
  sys.mallocFails = false ∧ sys.gethostnameFails = false ∧
    exists u, Daemonize.daemonize sys.daemonize fds = Daemonize.Outcome.passed u

theorem main_of_ready (h : Ready sys fds) (failed : Int -> Bool) (type : SockType) :
    exists u, main failed type sys fds = start failed type sys u := by
  rcases h with ⟨hmalloc, hgethostname, u, hu⟩
  refine ⟨u, ?_⟩
  unfold main
  rw [hmalloc, hgethostname, if_neg (by decide), hu]

theorem main_of_not_ready (h : ¬ Ready sys fds) (failed : Int -> Bool) (type : SockType) :
    main failed type sys fds = Outcome.overflow ∨
      exists status, main failed type sys fds = Outcome.exit status := by
  unfold main
  split
  · exact Or.inr ⟨1, rfl⟩
  · next hanswers =>
      split
      · next status message hexit => exact Or.inr ⟨status, rfl⟩
      · exact Or.inl rfl
      · next u hu =>
          apply absurd _ h
          rcases not_or.mp hanswers with ⟨hmalloc, hgethostname⟩
          exact ⟨Bool.eq_false_iff.mpr hmalloc, Bool.eq_false_iff.mpr hgethostname, u, hu⟩

theorem start_of_works {t : FdTable file} (hzero : failed 0 = false)
    (hvalue : sys.getaddrinfo = 0) (hworks : exists a, a ∈ sys.ailist ∧ a.works type = true) :
    exists i sockfd t', start failed type sys t = Outcome.serve i sockfd t' := by
  unfold start
  rw [hvalue, hzero, if_neg Bool.false_ne_true, if_neg (by decide)]
  dsimp only
  split
  · next i sockfd _ => exact ⟨i, sockfd, _, rfl⟩
  · next hfound =>
      rcases hworks with ⟨a, ha, hwork⟩
      rw [(found_eq_none_iff _ _ _ _ _ _).mp hfound a ha] at hwork
      cases hwork

theorem answers_of_serve {t : FdTable file} {t' : FdTable (File file)}
    (h : start failed type sys t = Outcome.serve i sockfd t') :
    sys.getaddrinfo = 0 ∧ exists a, a ∈ sys.ailist ∧ a.works type = true := by
  rcases start_serve h with ⟨hfirst, _⟩
  constructor
  · unfold start at h
    split at h
    · cases h
    · split at h
      · cases h
      · next hvalue => exact Decidable.not_not.mp hvalue
  · rcases List.findIdx?_eq_some_iff_getElem.mp hfirst with ⟨hlt, hworks, _⟩
    exact ⟨sys.ailist[i], List.getElem_mem hlt, hworks⟩

theorem start_undefined_iff {t : FdTable file} :
    start failed type sys t = Outcome.undefined ↔
      failed sys.getaddrinfo = false ∧ sys.getaddrinfo ≠ 0 := by
  unfold start
  split
  · next hfailed => simp [hfailed]
  · next hfailed =>
      have hpassed : failed sys.getaddrinfo = false := Bool.eq_false_iff.mpr hfailed
      split
      · next hvalue => exact iff_of_true rfl ⟨hpassed, hvalue⟩
      · next hvalue =>
          apply iff_of_false
          · dsimp only
            split <;> nofun
          · rintro ⟨_, hne⟩
            exact hvalue hne

/-- A server serves exactly when it gets to an address that works, at the first such one,
with no socket left from the others; it uses a list that it has not got exactly when
`passes`. -/
structure ServesFirst (type : SockType) (passes : Prop) (sys : Answers) (fds : FdTable file)
    (outcome : Outcome (Description file)) : Prop where
  serves : (exists i sockfd t, outcome = Outcome.serve i sockfd t) ↔
    Ready sys fds ∧ sys.getaddrinfo = 0 ∧ exists a, a ∈ sys.ailist ∧ a.works type = true
  serving : forall i sockfd t, outcome = Outcome.serve i sockfd t ->
    exists rlim_max, sys.daemonize.getrlimit = some rlim_max ∧
      Serving type (Daemonize.bound rlim_max) fds sys.ailist i sockfd t ∧
      ((forall d, fds.IsOpen d -> d < Daemonize.bound rlim_max) ->
        sockfd = 3 ∧ forall e, t.IsOpen e ↔ e ≤ 3)
  undefined : outcome = Outcome.undefined ↔ Ready sys fds ∧ passes

theorem main_serves_iff (hzero : failed 0 = false) :
    (exists i sockfd t, main failed type sys fds = Outcome.serve i sockfd t) ↔
      Ready sys fds ∧ sys.getaddrinfo = 0 ∧
        exists a, a ∈ sys.ailist ∧ a.works type = true := by
  constructor
  · rintro ⟨i, sockfd, t, h⟩
    rcases main_serve h with ⟨u, hpassed, hstart⟩
    refine ⟨?_, answers_of_serve hstart⟩
    apply Classical.byContradiction
    intro hready
    rcases main_of_not_ready hready failed type with hend | ⟨status, hend⟩
    · rw [hend] at h
      cases h
    · rw [hend] at h
      cases h
  · rintro ⟨hready, hvalue, hworks⟩
    rcases main_of_ready hready failed type with ⟨u, hu⟩
    rw [hu]
    exact start_of_works hzero hvalue hworks

theorem main_undefined_iff :
    main failed type sys fds = Outcome.undefined ↔
      Ready sys fds ∧ failed sys.getaddrinfo = false ∧ sys.getaddrinfo ≠ 0 := by
  constructor
  · intro h
    by_cases hready : Ready sys fds
    · rcases main_of_ready hready failed type with ⟨u, hu⟩
      rw [hu] at h
      exact ⟨hready, start_undefined_iff.mp h⟩
    · rcases main_of_not_ready hready failed type with hend | ⟨status, hend⟩
      · rw [hend] at h
        cases h
      · rw [hend] at h
        cases h
  · rintro ⟨hready, hpassed⟩
    rcases main_of_ready hready failed type with ⟨u, hu⟩
    rw [hu]
    exact start_undefined_iff.mpr hpassed

theorem main_servesFirst {passes : Prop} (hzero : failed 0 = false)
    (hpasses : failed sys.getaddrinfo = false ∧ sys.getaddrinfo ≠ 0 ↔ passes) :
    ServesFirst type passes sys fds (main failed type sys fds) where
  serves := main_serves_iff hzero
  serving i sockfd t h := by
    rcases main_serve h with ⟨u, hpassed, _⟩
    rcases Daemonize.getrlimit_of_passed hpassed with ⟨rlim_max, hlimit⟩
    have hserving := Initserver.serving hlimit h
    exact ⟨rlim_max, hlimit, hserving, hserving.alone⟩
  undefined := by rw [main_undefined_iff, hpasses]

theorem not_passes (err : Int) : decide (err ≠ 0) = false ∧ err ≠ 0 ↔ False := by
  rw [decide_eq_false_iff_not]
  exact ⟨fun h => h.1 h.2, False.elim⟩

/-- Any server of this form, and the three that there are: one of them lets the positive
values of `getaddrinfo` pass. -/
theorem serves_first (sys : Answers) (fds : FdTable file) :
    (forall (failed : Int -> Bool) (type : SockType), failed 0 = false ->
      ServesFirst type (failed sys.getaddrinfo = false ∧ sys.getaddrinfo ≠ 0) sys fds
        (main failed type sys fds)) ∧
      ServesFirst SockType.SOCK_STREAM (0 < sys.getaddrinfo) sys fds (sendrecv sys fds) ∧
      ServesFirst SockType.SOCK_STREAM False sys fds (othersrv sys fds) ∧
      ServesFirst SockType.SOCK_DGRAM False sys fds (connless sys fds) := by
  refine ⟨fun failed type hzero => main_servesFirst hzero Iff.rfl, ?_, ?_, ?_⟩
  · apply main_servesFirst (by decide)
    rw [decide_eq_false_iff_not]
    lia
  · exact main_servesFirst (by decide) (not_passes sys.getaddrinfo)
  · exact main_servesFirst (by decide) (not_passes sys.getaddrinfo)

end

def taken : Address where
  socketErr := none
  bindErr := some 98
  listenErr := none
  perrorErr := none
  closeErr := none

def unused : Address where
  socketErr := none
  bindErr := none
  listenErr := none
  perrorErr := none
  closeErr := none

def booting : Answers where
  mallocFails := false
  gethostnameFails := false
  daemonize := Daemonize.surviving (Daemonize.Limit.finite 8)
  getaddrinfo := 0
  ailist := [taken, unused]

def terminal : FdTable Nat where
  slots := [some 7, some 7, some 7]

theorem serves_first_unused :
    exists t, othersrv booting terminal = Outcome.serve 1 3 t ∧
      Serving SockType.SOCK_STREAM 8 terminal [taken, unused] 1 3 t := by
  have hserve : exists t, othersrv booting terminal = Outcome.serve 1 3 t := ⟨_, rfl⟩
  rcases hserve with ⟨t, ht⟩
  rcases ((serves_first booting terminal).1 (fun err => err ≠ 0) SockType.SOCK_STREAM
    (by decide)).serving 1 3 t ht with ⟨rlim_max, hlimit, hserving, _⟩
  cases hlimit
  exact ⟨t, ht, hserving⟩

end Initserver
end Apue
