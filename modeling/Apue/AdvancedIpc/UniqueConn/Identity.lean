import Apue.AdvancedIpc.UniqueConn.Model

/-!
# Whose uid srv_accept stores

The uid is read from the file that the peer's path leads to when `stat` is
called, not from the file that the peer bound.  It is the peer's uid as long as
the path means the same in the peer's directory and in the server's, and nobody,
between `bind` and `stat`, puts a symbolic link or a file of another user at the
path of a socket that has not been examined, or makes a directory on that path
lead elsewhere, and only processes of the user who bound the socket connect it.
-/

namespace Apue
namespace UniqueConn

open Foundation Kernel

/-- The server has not yet called `stat` on the connection's path. -/
def Phase.unexamined : Phase -> Bool
  | Phase.queued => true
  | Phase.accepted _ => true
  | _ => false

/-- The place at which a step makes a name, and the user whose file stands there
then, if it is a file. -/
def newName (uid : Pid -> Uid) (s : State) :
    Label -> Option (Path × Option Uid)
  | Label.sys pid (Action.create p _) => some (place s.dirs p, some (uid pid))
  | Label.sys pid (Action.bind _ p _) =>
      some (s.placeIn (s.cwd pid) p, some (uid pid))
  | Label.sys _ (Action.symlink p _) => some (place s.dirs p, none)
  | Label.cli pid (Outcome.done _) =>
      match s.cli pid with
      | CliPc.clean _ => some (place s.dirs (cliPath pid), some (uid pid))
      | _ => none
  | _ => none

/-- A name at which a socket is bound that has not been examined is given
neither to a link nor to a file of another user. -/
def unclaimed (uid : Pid -> Uid) (s : State) (l : Label) : Bool :=
  match newName uid s l with
  | none => true
  | some (p, owner) =>
      s.sockets.all (fun k =>
          s.placeIn s.srvCwd k.path ≠ p || owner = some (uid k.pid)) &&
        s.conns.all (fun c => s.placeIn s.srvCwd c.path ≠ p ||
          !c.phase.unexamined || owner = some (uid c.pid))

/-- A path that is bound leads to the same place from the server's directory, and
goes on to lead there until it has been examined. -/
def samePlace (s : State) : Label -> Bool
  | Label.sys pid (Action.bind _ p _) =>
      s.placeIn s.srvCwd p = s.placeIn (s.cwd pid) p
  | Label.sys _ (Action.relink dir target) =>
      let t : State := { s with dirs := s.dirs.relink dir target }
      s.sockets.all (fun k =>
          t.placeIn s.srvCwd k.path = s.placeIn s.srvCwd k.path) &&
        s.conns.all (fun c => !c.phase.unexamined ||
          t.placeIn s.srvCwd c.path = s.placeIn s.srvCwd c.path)
  | _ => true

def sameUser (uid : Pid -> Uid) : Label -> Bool
  | Label.sys pid (Action.connect k) => uid k.pid = uid pid
  | _ => true

def Undisturbed (uid : Pid -> Uid) (s : State) (l : Label) : Prop :=
  unclaimed uid s l = true ∧ samePlace s l = true ∧ sameUser uid l = true

instance (uid : Pid -> Uid) (s : State) : DecidablePred (Undisturbed uid s) :=
  fun _ => inferInstanceAs (Decidable (_ ∧ _ ∧ _))

/-!
# Names that lead to a user's own file
-/

def Mine (names : Names) (p : Path) (u : Uid) : Prop :=
  p = [] ∨ forall e, names p = some e -> exists i, e = Entry.file i ∧ i.uid = u

theorem Mine.stat {names : Names} {dirs : Dirs} {p : Path} {u : Uid} {i : Inode}
    (h : Mine names p u) (hstat : names.stat dirs p = some i) : i.uid = u := by
  unfold Names.stat Names.resolve at hstat
  rcases h with hnil | hfile
  · rw [if_pos hnil] at hstat
    cases hstat
  · split at hstat
    · cases hstat
    · unfold Names.follow at hstat
      split at hstat
      · cases hstat
      · next j hj =>
          cases hstat
          rcases hfile _ hj with ⟨k, heq, huid⟩
          cases heq
          exact huid
      · next v target hlink =>
          rcases hfile _ hlink with ⟨k, heq, _⟩
          cases heq

theorem Mine.put {names : Names} {p q : Path} {u : Uid} {e : Option Entry}
    (h : Mine names p u)
    (hown : q = p -> forall e', e = some e' ->
      exists i, e' = Entry.file i ∧ i.uid = u) :
    Mine (names.put q e) p u := by
  rcases h with hnil | hfile
  · left
    exact hnil
  · right
    intro e' he
    by_cases heq : p = q
    · rw [heq, Names.put_same] at he
      exact hown heq.symm e' he
    · rw [Names.put_other _ heq] at he
      exact hfile e' he

theorem Mine.remove {names : Names} {p : Path} {u : Uid}
    (h : Mine names p u) (q : Path) : Mine (names.put q none) p u := by
  apply h.put
  intro _ e he
  cases he

theorem Mine.add {names : Names} {p q : Path} {u : Uid} {e : Entry}
    (h : Mine names p u)
    (hown : q = p -> exists i, e = Entry.file i ∧ i.uid = u) :
    Mine (names.put q (some e)) p u := by
  apply h.put
  intro heq e' he
  cases he
  exact hown heq

theorem Mine.chmod {names names' : Names} {dirs : Dirs} {p q : Path} {u v : Uid}
    {now : Int} {perm : Nat} (h : Mine names p u)
    (hchmod : names.chmod dirs v now q perm = some names') :
    Mine names' p u := by
  rcases Names.chmod_cases hchmod with ⟨place, i, hresolve, _, hnames⟩
  have hplace := Names.resolve_place hresolve
  rw [hnames]
  rcases h with hnil | hfile
  · left
    exact hnil
  · apply Mine.put (Or.inr hfile)
    intro heq e he
    cases he
    rcases hfile _ (heq ▸ hplace) with ⟨j, hj, huid⟩
    cases hj
    exact ⟨_, rfl, huid⟩

theorem Mine.unlink {names names' : Names} {p q : Path} {u v : Uid}
    (h : Mine names p u) (hunlink : names.unlink v q = some names') :
    Mine names' p u := by
  rcases Names.unlink_cases hunlink with ⟨e, _, _, hnames⟩
  rw [hnames]
  exact h.remove q

/-!
# The invariant
-/

def Honest (uid : Pid -> Uid) (s : State) (c : Conn) : Prop :=
  match c.phase with
  | Phase.queued => Mine s.names (s.placeIn s.srvCwd c.path) (uid c.pid)
  | Phase.accepted _ => Mine s.names (s.placeIn s.srvCwd c.path) (uid c.pid)
  | Phase.statted _ statbuf => statbuf.uid = uid c.pid
  | Phase.passed _ stored => forall u, stored = some u -> u = uid c.pid
  | Phase.finished _ stored => forall u, stored = some u -> u = uid c.pid

structure Honesty (uid : Pid -> Uid) (s : State) : Prop where
  sockets : forall k, k ∈ s.sockets ->
    Mine s.names (s.placeIn s.srvCwd k.path) (uid k.pid)
  conns : forall c, c ∈ s.conns -> Honest uid s c

theorem Honest.mine {uid : Pid -> Uid} {s : State} {c : Conn}
    (h : Honest uid s c) (hphase : c.phase.unexamined = true) :
    Mine s.names (s.placeIn s.srvCwd c.path) (uid c.pid) := by
  unfold Honest at h
  cases hc : c.phase with
  | queued =>
      rw [hc] at h
      exact h
  | accepted fd =>
      rw [hc] at h
      exact h
  | statted fd statbuf =>
      rw [hc] at hphase
      cases hphase
  | passed fd stored =>
      rw [hc] at hphase
      cases hphase
  | finished ret stored =>
      rw [hc] at hphase
      cases hphase

theorem Honest.moved {uid : Pid -> Uid} {s t : State} {c : Conn}
    (h : Honest uid s c)
    (hmine : c.phase.unexamined = true ->
      Mine t.names (t.placeIn t.srvCwd c.path) (uid c.pid)) :
    Honest uid t c := by
  unfold Honest at h ⊢
  cases hc : c.phase with
  | queued => exact hmine (by rw [hc]; rfl)
  | accepted fd => exact hmine (by rw [hc]; rfl)
  | statted fd statbuf =>
      rw [hc] at h
      exact h
  | passed fd stored =>
      rw [hc] at h
      exact h
  | finished ret stored =>
      rw [hc] at h
      exact h

theorem Honesty.withNames {uid : Pid -> Uid} {s : State} {names' : Names}
    (h : Honesty uid s)
    (hkeep : forall p u, Mine s.names p u ->
      ((exists k, k ∈ s.sockets ∧ s.placeIn s.srvCwd k.path = p ∧ uid k.pid = u) ∨
        exists c, c ∈ s.conns ∧ s.placeIn s.srvCwd c.path = p ∧ uid c.pid = u ∧
          c.phase.unexamined = true) ->
      Mine names' p u) :
    Honesty uid { s with names := names' } := by
  constructor
  · intro k hk
    exact hkeep _ (uid k.pid) (h.sockets k hk)
      (Or.inl ⟨k, hk, rfl, rfl⟩)
  · intro c hc
    apply (h.conns c hc).moved
    intro hphase
    exact hkeep _ (uid c.pid) ((h.conns c hc).mine hphase)
      (Or.inr ⟨c, hc, rfl, rfl, hphase⟩)

theorem Honesty.withNames_of_keep {uid : Pid -> Uid} {s : State}
    {names' : Names} (h : Honesty uid s)
    (hkeep : forall p u, Mine s.names p u -> Mine names' p u) :
    Honesty uid { s with names := names' } :=
  h.withNames (fun p u hmine _ => hkeep p u hmine)

theorem Honesty.withNewName {uid : Pid -> Uid} {s : State} {l : Label}
    {p : Path} {owner : Option Uid} {e : Entry} (h : Honesty uid s)
    (hl : unclaimed uid s l = true) (hnew : newName uid s l = some (p, owner))
    (he : forall u, owner = some u -> exists i, e = Entry.file i ∧ i.uid = u) :
    Honesty uid { s with names := s.names.put p (some e) } := by
  unfold unclaimed at hl
  rw [hnew] at hl
  simp only [Bool.and_eq_true, List.all_eq_true] at hl
  apply h.withNames
  intro q u hmine hwatched
  apply hmine.add
  intro hq
  rcases hwatched with ⟨k, hk, hpath, huid⟩ | ⟨c, hc, hpath, huid, hphase⟩
  · have hown := hl.1 k hk
    rw [hpath, hq, huid] at hown
    exact he u (by simpa using hown)
  · have hown := hl.2 c hc
    rw [hpath, hq, huid, hphase] at hown
    exact he u (by simpa using hown)

theorem Honesty.setCli {uid : Pid -> Uid} {s : State} (h : Honesty uid s)
    (pid : Pid) (pc : CliPc) : Honesty uid (setCli s pid pc) :=
  ⟨h.sockets, h.conns⟩

theorem Honesty.closeSocket {uid : Pid -> Uid} {s : State} (h : Honesty uid s)
    (k : Sock) : Honesty uid { s with sockets := s.sockets.erase k } :=
  ⟨fun k' hk => h.sockets k' (List.mem_of_mem_erase hk), h.conns⟩

theorem Honesty.setPhase {uid : Pid -> Uid} {s : State} {c : Conn}
    {phase : Phase} (h : Honesty uid s) (i : Nat)
    (hc : Honest uid s { c with phase := phase }) :
    Honesty uid (setPhase s i c phase) := by
  constructor
  · exact h.sockets
  · intro d hd
    rcases mem_setPhase hd with heq | hmem
    · rw [heq]
      exact hc
    · exact h.conns d hmem

theorem Honesty.bindTo {uid : Pid -> Uid} {s t : State} {l : Label} {k : Sock}
    {perm : Nat} (h : Honesty uid s) (hl : unclaimed uid s l = true)
    (hplace : s.placeIn s.srvCwd k.path = s.placeIn (s.cwd k.pid) k.path)
    (hnew : newName uid s l =
      some (s.placeIn (s.cwd k.pid) k.path, some (uid k.pid)))
    (ht : bindTo s uid k perm = some t) : Honesty uid t := by
  rcases bindTo_cases ht with ⟨_, heq⟩
  have hnames := h.withNewName (e := Entry.file
      (newFile s (uid k.pid) FileType.S_IFSOCK perm)) hl hnew
    (by
      intro u hu
      cases hu
      exact ⟨_, rfl, rfl⟩)
  rw [heq]
  constructor
  · intro k' hk'
    rcases mem_snoc hk' with hmem | hlast
    · exact hnames.sockets k' hmem
    · rw [hlast]
      right
      intro e he
      change s.names.put (s.placeIn (s.cwd k.pid) k.path) _
        (s.placeIn s.srvCwd k.path) = some e at he
      rw [hplace, Names.put_same] at he
      cases he
      exact ⟨_, rfl, rfl⟩
  · exact hnames.conns

theorem Honesty.relink {uid : Pid -> Uid} {s : State} {pid : Pid}
    {dir target : Path} (h : Honesty uid s)
    (hsame : samePlace s (Label.sys pid (Action.relink dir target)) = true) :
    Honesty uid { s with dirs := s.dirs.relink dir target } := by
  unfold samePlace at hsame
  simp only [Bool.and_eq_true, List.all_eq_true] at hsame
  constructor
  · intro k hk
    rw [of_decide_eq_true (hsame.1 k hk)]
    exact h.sockets k hk
  · intro c hc
    apply (h.conns c hc).moved
    intro hphase
    have hplace := hsame.2 c hc
    rw [hphase] at hplace
    rw [of_decide_eq_true hplace]
    exact (h.conns c hc).mine hphase

theorem Honesty.connectFrom {uid : Pid -> Uid} {s t : State} {pid : Pid}
    {k : Sock} (h : Honesty uid s) (huser : uid k.pid = uid pid)
    (ht : connectFrom s pid k = some t) : Honesty uid t := by
  rcases connectFrom_cases ht with ⟨hk, heq⟩
  rw [heq]
  constructor
  · exact (h.closeSocket k).sockets
  · intro c hc
    rcases mem_snoc hc with hmem | hlast
    · exact h.conns c hmem
    · have hmine := h.sockets k hk
      rw [huser] at hmine
      rw [hlast]
      exact hmine

/-!
# Every step keeps the invariant
-/

theorem Honesty.sysStep {uid : Pid -> Uid} {s t : State} {pid : Pid}
    {a : Action} (h : Honesty uid s)
    (hl : Undisturbed uid s (Label.sys pid a))
    (ht : sysStep uid s pid a = some t) : Honesty uid t := by
  cases a with
  | chdir dir =>
      cases ht
      exact ⟨h.sockets, h.conns⟩
  | relink dir target =>
      cases ht
      exact h.relink hl.2.1
  | create p perm =>
      rcases withNames_cases ht with ⟨names, hadd, heq⟩
      rcases Names.add_cases hadd with ⟨_, _, hnames⟩
      rw [heq, hnames]
      apply h.withNewName hl.1 rfl
      intro u hu
      cases hu
      exact ⟨_, rfl, rfl⟩
  | remove p =>
      rcases withNames_cases ht with ⟨names, hunlink, heq⟩
      rw [heq]
      exact h.withNames_of_keep (fun q u hmine => hmine.unlink hunlink)
  | chmod p perm =>
      rcases withNames_cases ht with ⟨names, hchmod, heq⟩
      rw [heq]
      exact h.withNames_of_keep (fun q u hmine => hmine.chmod hchmod)
  | symlink p target =>
      rcases withNames_cases ht with ⟨names, hadd, heq⟩
      rcases Names.add_cases hadd with ⟨_, _, hnames⟩
      rw [heq, hnames]
      apply h.withNewName hl.1 rfl
      intro u hu
      cases hu
  | bind fd p perm =>
      have hplace : s.placeIn s.srvCwd p = s.placeIn (s.cwd pid) p :=
        of_decide_eq_true hl.2.1
      exact h.bindTo hl.1 hplace rfl ht
  | connect k => exact h.connectFrom (of_decide_eq_true hl.2.2) ht
  | connectUnbound =>
      cases ht
      constructor
      · exact h.sockets
      · intro c hc
        rcases mem_snoc hc with hmem | hlast
        · exact h.conns c hmem
        · rw [hlast]
          left
          exact s.placeIn_nil s.srvCwd
  | close k =>
      change (if k.pid = pid then
        some { s with sockets := s.sockets.erase k } else none) = some t at ht
      split at ht
      · cases ht
        exact h.closeSocket k
      · cases ht

theorem Honesty.cliStep {uid : Pid -> Uid} {s t : State} {pid : Pid}
    {o : Outcome} (h : Honesty uid s)
    (hl : unclaimed uid s (Label.cli pid o) = true)
    (ht : cliStep uid s pid o = some t) : Honesty uid t := by
  unfold UniqueConn.cliStep at ht
  split at ht
  · cases ht
    exact h.setCli pid _
  · cases ht
    exact h.setCli pid _
  · split at ht
    · cases ht
      exact h.setCli pid _
    · next names hunlink =>
        cases ht
        exact (h.withNames_of_keep
          (fun q u hmine => hmine.unlink hunlink)).setCli pid _
  · cases ht
    exact h.setCli pid _
  · next fd perm hpc =>
      rcases andThen_cases ht with ⟨u, hbind, heq⟩
      rw [heq]
      have hnew : newName uid s (Label.cli pid (Outcome.done perm)) =
          some (s.placeIn (s.cwd pid) (cliPath pid), some (uid pid)) := by
        unfold newName
        simp only [hpc, State.placeIn_cliPath]
      have hplace : s.placeIn s.srvCwd (cliPath pid) =
          s.placeIn (s.cwd pid) (cliPath pid) := by
        rw [State.placeIn_cliPath, State.placeIn_cliPath]
      exact (h.bindTo hl hplace hnew hbind).setCli pid _
  · cases ht
    exact h.setCli pid _
  · rcases andThen_cases ht with ⟨u, hchmod, heq⟩
    rcases withNames_cases hchmod with ⟨names, hnames, hu⟩
    rw [heq, hu]
    exact (h.withNames_of_keep
      (fun q u hmine => hmine.chmod hnames)).setCli pid _
  · cases ht
    exact (h.closeSocket _).setCli pid _
  · rcases andThen_cases ht with ⟨u, hconnect, heq⟩
    rw [heq]
    exact (h.connectFrom rfl hconnect).setCli pid _
  · cases ht
    exact (h.closeSocket _).setCli pid _

theorem Honesty.srvAccept {uid : Pid -> Uid} {s t : State} {i fd : Nat}
    {c : Conn} (h : Honesty uid s) (hc : c ∈ s.conns)
    (ht : srvAccept s i fd c = some t) : Honesty uid t := by
  unfold UniqueConn.srvAccept at ht
  split at ht
  · next hfirst =>
      cases ht
      apply h.setPhase
      exact (h.conns c hc).mine (by rw [hfirst.2]; rfl)
  · cases ht

theorem Honesty.srvStat {uid : Pid -> Uid} {s t : State} {i : Nat} {c : Conn}
    (h : Honesty uid s) (hc : c ∈ s.conns)
    (ht : srvStat s i c = some t) : Honesty uid t := by
  unfold UniqueConn.srvStat at ht
  split at ht
  · next fd hphase =>
      have hmine := (h.conns c hc).mine (by rw [hphase]; rfl)
      split at ht
      · cases ht
        apply h.setPhase
        intro u hu
        cases hu
      · next statbuf hstat =>
          cases ht
          apply h.setPhase
          exact hmine.stat hstat
  · cases ht

theorem Honesty.srvCheck {uid : Pid -> Uid} {s t : State} {i : Nat}
    {uidptr : Bool} {c : Conn} (h : Honesty uid s) (hc : c ∈ s.conns)
    (ht : srvCheck s i uidptr c = some t) : Honesty uid t := by
  unfold UniqueConn.srvCheck at ht
  split at ht
  · next fd statbuf hphase =>
      have huid := h.conns c hc
      unfold Honest at huid
      rw [hphase] at huid
      split at ht
      · cases ht
        apply h.setPhase
        intro u hu
        cases hu
      · cases ht
        apply h.setPhase
        intro u hu
        cases uidptr with
        | true =>
            cases hu
            exact huid
        | false => cases hu
  · cases ht

theorem Honesty.srvUnlink {uid : Pid -> Uid} {srvUid : Uid} {s t : State}
    {i : Nat} {c : Conn} (h : Honesty uid s) (hc : c ∈ s.conns)
    (ht : srvUnlink srvUid s i c = some t) : Honesty uid t := by
  unfold UniqueConn.srvUnlink at ht
  split at ht
  · next fd stored hphase =>
      have huid := h.conns c hc
      unfold Honest at huid
      rw [hphase] at huid
      split at ht
      · cases ht
        exact h.setPhase i huid
      · next names hunlink =>
          cases ht
          have hnames := h.withNames_of_keep
            (fun q u hmine => hmine.unlink hunlink)
          exact hnames.setPhase i huid
  · cases ht

theorem Honesty.step {uid : Pid -> Uid} {srvUid : Uid} {s t : State}
    {l : Label} (h : Honesty uid s) (hl : Undisturbed uid s l)
    (ht : step uid srvUid s l = some t) : Honesty uid t := by
  cases l with
  | tick =>
      cases ht
      exact ⟨h.sockets, h.conns⟩
  | sys pid a => exact h.sysStep hl ht
  | cli pid o => exact h.cliStep hl.1 ht
  | accept i fd =>
      rcases atConn_cases ht with ⟨c, hc, hnext⟩
      exact h.srvAccept (List.mem_of_getElem? hc) hnext
  | stat i =>
      rcases atConn_cases ht with ⟨c, hc, hnext⟩
      exact h.srvStat (List.mem_of_getElem? hc) hnext
  | check i uidptr =>
      rcases atConn_cases ht with ⟨c, hc, hnext⟩
      exact h.srvCheck (List.mem_of_getElem? hc) hnext
  | unlink i =>
      rcases atConn_cases ht with ⟨c, hc, hnext⟩
      exact h.srvUnlink (List.mem_of_getElem? hc) hnext

theorem honesty_of_reachable {uid : Pid -> Uid} {srvUid : Uid} {s : State}
    (hs : (machine uid srvUid).ReachableUnder (Undisturbed uid) s) : Honesty uid s := by
  apply Machine.invariant_under _ _ hs
  · intro s hinit
    rcases hinit with ⟨hsockets, hconns, _⟩
    constructor
    · intro k hk
      rw [hsockets] at hk
      cases hk
    · intro c hc
      rw [hconns] at hc
      cases hc
  · intro s l t hI hl ht
    exact hI.step hl ht

def emptyState : State where
  now := 0
  dirs := id
  names := fun _ => none
  cwd := fun _ => [47]
  srvCwd := [47]
  sockets := []
  cli := fun _ => CliPc.idle none
  conns := []

theorem emptyState_init (uid : Pid -> Uid) (srvUid : Uid) :
    (machine uid srvUid).init emptyState :=
  ⟨rfl, rfl, fun _ => rfl⟩

def ownUser : Pid -> Uid :=
  fun pid => pid

/-- The five system calls of `cli_conn`. -/
def connectOnce (pid : Pid) : List Label :=
  [Label.cli pid (Outcome.done 3), Label.cli pid (Outcome.done 0),
    Label.cli pid (Outcome.done 493), Label.cli pid (Outcome.done 0),
    Label.cli pid (Outcome.done 0)]

def serveFirst : List Label :=
  [Label.accept 0 7, Label.stat 0, Label.check 0 true, Label.unlink 0]

/-- Process 1 connects with `cli_conn`, and the server accepts it. -/
def plainRun : List Label :=
  connectOnce 1 ++ serveFirst

/-- Process 1 gets as far as `chmod` in `cli_conn`.  Process 2 connects from a
socket of its own and then puts a link to the first one's socket in its place. -/
def impostorRun : List Label :=
  let k : Sock := { fd := 3, pid := 2, path := cliPath 2, born := 0 }
  (connectOnce 1).take 4 ++
    [Label.sys 2 (Action.bind 3 (cliPath 2) 448),
      Label.sys 2 (Action.connect k),
      Label.sys 2 (Action.remove (cliPath 2)),
      Label.sys 2 (Action.symlink (cliPath 2) (cliPath 1))] ++
    serveFirst

def connsAfter (labels : List Label) : List Conn :=
  match (machine ownUser 0).run emptyState labels with
  | none => []
  | some s => s.conns

theorem connsAfter_reachable {labels : List Label} {c : Conn}
    (hc : c ∈ connsAfter labels) :
    exists s, (machine ownUser 0).run emptyState labels = some s ∧
      c ∈ s.conns := by
  unfold connsAfter at hc
  split at hc
  · cases hc
  · next s hs => exact ⟨s, hs, hc⟩

def servedAsUserOne (pid : Pid) : Conn where
  pid := pid
  path := cliPath pid
  born := 0
  phase := Phase.finished 7 (some 1)

end UniqueConn
end Apue
