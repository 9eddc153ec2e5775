import Apue.Foundation.Strcmp
import Apue.Pseudo.BsdOpen
import Apue.Pseudo.PtymOpen

/-!
# Opening BSD pseudo terminals

`ptym_open` opens the first master that it finds, hands its slave over to the user
and works the slave's name out of the master's.  A process may call it any number of
times; a master that it holds is in use for the later calls.
-/

namespace Apue
namespace BsdPtym

open Foundation Kernel BsdOpen

/-- "/dev/pty/" -/
def devpty : CString :=
  CString.ofBytes [47, 100, 101, 118, 47, 112, 116, 121, 47] rfl

/-- "/dev/ptyXX" -/
def ptyXX : CString :=
  CString.ofBytes [47, 100, 101, 118, 47, 112, 116, 121, 88, 88] rfl

/-- The size of the buffer in `ptsname_l`. -/
def PTS_NAME : Nat := 16

/-- What the masters are, the descriptors of the process with the names of what they
were opened for, the buffer of `ptsname_l`, and what `chown` and `chmod` have been
applied to. -/
structure State where
  dev : List Byte -> Status
  fds : FdTable (List Byte)
  pts_name : { b : Buffer // b.length = PTS_NAME }
  chowns : List (List Byte × Nat × Int)
  chmods : List (List Byte × Nat)

/-- The user, the group `tty` if there is one, and which system calls succeed, in
their order. -/
structure Outcomes where
  uid : Nat
  tty : Option Nat
  grantName : Bool
  chown : Bool
  chmod : Bool
  name : Bool
  deriving Repr, DecidableEq

/-- The search; a master that it opens is in use then. -/
def openpt (s : State) : Int × State :=
  let r := posix_openpt_l s.dev s.fds
  if r.ret < 0 then
    (-1, s)
  else
    (r.ret,
      { s with
        fds := r.fds
        dev := fun name =>
          if r.fds.get r.ret.toNat = some name then Status.busy else s.dev name })

def ttyname (s : State) (fd : Fd) (ok : Bool) : Option (List Byte) :=
  if ok then s.fds.get fd else none

/-- `strncpy(pts_name, ptm_name, sizeof(pts_name))` and the terminator. -/
def copyMaster (ptm_name : List Byte) : Buffer :=
  (strncpy ptm_name PTS_NAME).set (PTS_NAME - 1) 0

theorem copyMaster_length (ptm_name : List Byte) : (copyMaster ptm_name).length = PTS_NAME := by
  unfold copyMaster strncpy
  rw [List.length_set, List.length_append, List.length_take, List.length_replicate]
  lia

/-- 's' behind "/dev/pty/", else 't' for "/dev/tty". -/
def slaveOf (b : Buffer) : Buffer :=
  if strncmp (str b) devpty.bytes 9 = 0 then b.set 9 115 else b.set 5 116

theorem slaveOf_length (b : Buffer) : (slaveOf b).length = b.length := by
  unfold slaveOf
  split
  · exact List.length_set
  · exact List.length_set

def ptsname_l (s : State) (fd : Fd) (ok : Bool) : Option State :=
  (ttyname s fd ok).map
    (fun ptm_name =>
      { s with
        pts_name :=
          ⟨slaveOf (copyMaster ptm_name), by rw [slaveOf_length, copyMaster_length]⟩ })

/-- `S_IRUSR | S_IWUSR | S_IWGRP` -/
def slaveMode : Nat := 0o620

/-- `chown` of a null pointer fails. -/
def grantpt_l (s : State) (fd : Fd) (o : Outcomes) : Int × State :=
  match ptsname_l s fd o.grantName with
  | none => (-1, s)
  | some s =>
      let gid : Int :=
        match o.tty with
        | some gr_gid => gr_gid
        | none => -1
      if o.chown then
        let s := { s with chowns := s.chowns ++ [(str s.pts_name.val, o.uid, gid)] }
        if o.chmod then
          (0, { s with chmods := s.chmods ++ [(str s.pts_name.val, slaveMode)] })
        else
          (-1, s)
      else
        (-1, s)

def unlockpt_l (_fd : Fd) : Int := 0

def close (s : State) (fd : Fd) : State :=
  { s with
    fds := s.fds.close fd
    dev := fun name => if s.fds.get fd = some name then Status.free else s.dev name }

def ptym_open (s : State) (pts_namesz : Nat) (o : Outcomes) :
    Except Nat (Int × Buffer × State) :=
  match PtymOpen.copyName ptyXX.bytes pts_namesz with
  | Except.error i => Except.error i
  | Except.ok pts_name =>
      let (fd, s) := openpt s
      if fd < 0 then
        Except.ok (-1, pts_name, s)
      else
        let (granted, s) := grantpt_l s fd.toNat o
        if granted < 0 then
          Except.ok (-2, pts_name, close s fd.toNat)
        else if unlockpt_l fd.toNat < 0 then
          Except.ok (-3, pts_name, close s fd.toNat)
        else
          match ptsname_l s fd.toNat o.name with
          | none => Except.ok (-4, pts_name, close s fd.toNat)
          | some s =>
              match PtymOpen.copyName (str s.pts_name.val) pts_namesz with
              | Except.error i => Except.error i
              | Except.ok pts_name => Except.ok (fd, pts_name, s)

def opens (s : State) : List (Nat × Outcomes) -> Except Nat (List (Int × Buffer) × State)
  | [] => Except.ok ([], s)
  | (pts_namesz, o) :: calls =>
      match ptym_open s pts_namesz o with
      | Except.error i => Except.error i
      | Except.ok (fd, pts_name, s) =>
          match opens s calls with
          | Except.error i => Except.error i
          | Except.ok (results, s) => Except.ok ((fd, pts_name) :: results, s)

/-!
# The name of the slave
-/

/-- "/dev/ttyXY" with both characters. -/
def slaveName (c1 c2 : Byte) : List Byte :=
  [47, 100, 101, 118, 47, 116, 116, 121, c1, c2]

theorem masterName_eq (c1 c2 : Byte) :
    masterName c1 c2 = [47, 100, 101, 118, 47, 112, 116, 121, c1, c2] := rfl

theorem slaveName_injective {c1 c2 d1 d2 : Byte} (h : slaveName c1 c2 = slaveName d1 d2) :
    c1 = d1 ∧ c2 = d2 := by
  unfold slaveName at h
  simpa using h

structure Tried (c1 c2 : Byte) : Prop where
  letter : c1 ∈ pToZ ++ capitals
  digit : c2 ∈ digits

theorem Tried.ne_slash {c1 c2 : Byte} (h : Tried c1 c2) : c1 ≠ 47 := by
  have hall : (pToZ ++ capitals).all (fun c => c ≠ 47) = true := rfl
  simpa using List.all_eq_true.mp hall c1 h.letter

theorem Tried.ne_nul {c1 c2 : Byte} (h : Tried c1 c2) : c1 ≠ 0 ∧ c2 ≠ 0 := by
  have hletters : (pToZ ++ capitals).all (fun c => c ≠ 0) = true := rfl
  have hdigits : digits.all (fun c => c ≠ 0) = true := rfl
  constructor
  · simpa using List.all_eq_true.mp hletters c1 h.letter
  · simpa using List.all_eq_true.mp hdigits c2 h.digit

def slaveString {c1 c2 : Byte} (h : Tried c1 c2) : CString where
  bytes := slaveName c1 c2
  nulFree := by
    intro b hb
    unfold slaveName at hb
    rcases h.ne_nul with ⟨h1, h2⟩
    simp only [List.mem_cons, List.not_mem_nil, or_false] at hb
    rcases hb with hb | hb | hb | hb | hb | hb | hb | hb | hb | hb <;> rw [hb]
    all_goals first | exact h1 | exact h2 | decide

theorem mem_names_tried {name : List Byte} (h : name ∈ names (pToZ ++ capitals)) :
    exists c1 c2, Tried c1 c2 ∧ name = masterName c1 c2 := by
  rcases List.mem_flatMap.mp h with ⟨c1, hc1, hname⟩
  rcases List.mem_map.mp hname with ⟨c2, hc2, heq⟩
  exact ⟨c1, c2, ⟨hc1, hc2⟩, heq.symm⟩

theorem search_opened_free {dev : List Byte -> Status} {xs : List (List Byte)}
    {name : List Byte} (h : search dev xs = Found.opened name) : dev name = Status.free := by
  induction xs with
  | nil => cases h
  | cons x xs ih =>
      unfold search at h
      cases hx : dev x with
      | free =>
          rw [hx] at h
          cases h
          exact hx
      | absent =>
          rw [hx] at h
          cases h
      | busy =>
          rw [hx] at h
          exact ih h

theorem slaveOf_masterName {c1 c2 : Byte} (h : Tried c1 c2) :
    slaveOf (copyMaster (masterName c1 c2)) =
      slaveName c1 c2 ++ List.replicate 6 0 := by
  have hcopy : copyMaster (masterName c1 c2) = masterName c1 c2 ++ List.replicate 6 0 := rfl
  have hstr : str (masterName c1 c2 ++ List.replicate 6 0) = masterName c1 c2 := by
    rcases h.ne_nul with ⟨h1, h2⟩
    rw [masterName_eq]
    simp [str, h1, h2, List.replicate_succ]
  have hcmp : strncmp (masterName c1 c2) devpty.bytes 9 ≠ 0 := by
    show (if c1 = 47 then (0 : Int) else (c1.toNat : Int) - (47 : Byte).toNat) ≠ 0
    rw [if_neg h.ne_slash]
    have hne := toNat_ne h.ne_slash
    lia
  unfold slaveOf
  rw [hcopy, hstr, if_neg hcmp]
  rfl

/-!
# One call
-/

/-- `t` is `s` with a new master open. -/
structure Holding (s t : State) (c1 c2 : Byte) : Prop where
  fds : t.fds = s.fds.set s.fds.lowestFree (some (masterName c1 c2))
  dev : forall name, t.dev name = if name = masterName c1 c2 then Status.busy else s.dev name
  free : s.dev (masterName c1 c2) = Status.free
  tried : Tried c1 c2

/-- A call that fails leaves no descriptor open and no master in use. -/
structure Refused (s t : State) : Prop where
  fds : forall d, t.fds.get d = s.fds.get d
  dev : t.dev = s.dev
  chmods : s.chmods <+: t.chmods

section

variable {s t : State} {c1 c2 : Byte}

theorem Holding.get (h : Holding s t c1 c2) :
    t.fds.get s.fds.lowestFree = some (masterName c1 c2) := by
  rw [h.fds, FdTable.get_set_self]

theorem Holding.get_of_ne (h : Holding s t c1 c2) {d : Fd} (hne : d ≠ s.fds.lowestFree) :
    t.fds.get d = s.fds.get d := by
  rw [h.fds, FdTable.get_set_of_ne _ _ hne]

theorem Holding.close (h : Holding s t c1 c2) (hchmods : s.chmods <+: t.chmods) :
    Refused s (close t s.fds.lowestFree) := by
  refine ⟨?_, ?_, hchmods⟩
  · intro d
    show (t.fds.close s.fds.lowestFree).get d = s.fds.get d
    rw [FdTable.get_close]
    split
    · next heq =>
        rw [heq]
        exact (FdTable.get_lowestFree s.fds).symm
    · next hne => exact h.get_of_ne hne
  · funext name
    show (if t.fds.get s.fds.lowestFree = some name then Status.free else t.dev name) = _
    rw [h.get, h.dev]
    by_cases hname : name = masterName c1 c2
    · rw [hname, if_pos rfl, h.free]
    · rw [if_neg (fun heq => hname (Option.some.inj heq).symm), if_neg hname]

theorem Holding.congr {u : State} (h : Holding s t c1 c2) (hfds : u.fds = t.fds)
    (hdev : u.dev = t.dev) : Holding s u c1 c2 where
  fds := hfds.trans h.fds
  dev name := by
    rw [hdev]
    exact h.dev name
  free := h.free
  tried := h.tried

theorem openpt_cases (s : State) :
    openpt s = (-1, s) ∨
      exists t c1 c2, openpt s = ((s.fds.lowestFree : Int), t) ∧ Holding s t c1 c2 ∧
        t.chmods = s.chmods := by
  unfold openpt
  rw [posix_openpt_l_eq, ← names_append]
  cases hsearch : search s.dev (names (pToZ ++ capitals)) with
  | failed errno => exact Or.inl rfl
  | opened name =>
      right
      rcases mem_names_tried (search_opened_mem hsearch) with ⟨c1, c2, htried, hname⟩
      have hpos : ¬ (s.fds.lowestFree : Int) < 0 := by
        lia
      dsimp only
      rw [if_neg hpos]
      refine ⟨_, c1, c2, rfl, ⟨?_, ?_, ?_, htried⟩, rfl⟩
      · show s.fds.set _ (some name) = _
        rw [hname]
      · intro other
        show (if (s.fds.set s.fds.lowestFree (some name)).get s.fds.lowestFree = some other then _
          else _) = _
        rw [FdTable.get_set_self, hname]
        by_cases hother : other = masterName c1 c2
        · rw [hother, if_pos rfl, if_pos rfl]
        · rw [if_neg (fun heq => hother (Option.some.inj heq).symm), if_neg hother]
      · rw [← hname]
        exact search_opened_free hsearch

theorem Holding.ptsname_l (h : Holding s t c1 c2) :
    exists u, ptsname_l t s.fds.lowestFree true = some u ∧ Holding s u c1 c2 ∧
      u.chmods = t.chmods ∧ str u.pts_name.val = slaveName c1 c2 := by
  unfold BsdPtym.ptsname_l ttyname
  rw [if_pos rfl, h.get]
  refine ⟨_, rfl, h.congr rfl rfl, rfl, ?_⟩
  show str (slaveOf (copyMaster (masterName c1 c2))) = _
  rw [slaveOf_masterName h.tried]
  exact takeWhile_eq_self (slaveString h.tried).nulFree _

theorem Holding.ptsname_l_fails (_h : Holding s t c1 c2) :
    BsdPtym.ptsname_l t s.fds.lowestFree false = none := rfl

/-- The three calls of `grantpt_l` succeed. -/
def Outcomes.grants (o : Outcomes) : Bool :=
  o.grantName && o.chown && o.chmod

theorem Holding.grantpt_l (h : Holding s t c1 c2) (o : Outcomes) :
    exists u, grantpt_l t s.fds.lowestFree o = (if o.grants then 0 else -1, u) ∧
      Holding s u c1 c2 ∧ t.chmods <+: u.chmods ∧
      (o.grants = true -> u.chmods = t.chmods ++ [(slaveName c1 c2, slaveMode)]) := by
  unfold BsdPtym.grantpt_l Outcomes.grants
  cases hname : o.grantName with
  | false =>
      rw [h.ptsname_l_fails]
      exact ⟨t, rfl, h, List.prefix_rfl, nofun⟩
  | true =>
      rcases h.ptsname_l with ⟨u, hu, hhold, hchmods, hstr⟩
      have hsame : t.chmods <+: u.chmods := hchmods ▸ List.prefix_rfl
      rw [hu]
      cases hchown : o.chown with
      | false => exact ⟨u, rfl, hhold, hsame, nofun⟩
      | true =>
          cases hchmod : o.chmod with
          | false => exact ⟨_, rfl, hhold.congr rfl rfl, hsame, nofun⟩
          | true =>
              refine ⟨_, rfl, hhold.congr rfl rfl, hsame.trans (List.prefix_append _ _), ?_⟩
              intro _
              show u.chmods ++ [(str u.pts_name.val, slaveMode)] = _
              rw [hchmods, hstr]

end

/-- The call has given a master, with the name of its slave as far as it fits. -/
structure Granted (s t : State) (pts_namesz : Nat) (pts_name : Buffer) (c1 c2 : Byte) :
    Prop where
  holding : Holding s t c1 c2
  spells : Spells pts_name ((slaveString holding.tried).take (pts_namesz - 1))
  chmods : t.chmods = s.chmods ++ [(slaveName c1 c2, slaveMode)]

theorem ptym_open_cases (s : State) {pts_namesz : Nat} (hsize : 0 < pts_namesz)
    (o : Outcomes) :
    exists fd pts_name t, ptym_open s pts_namesz o = Except.ok (fd, pts_name, t) ∧
      ((fd < 0 ∧ Refused s t) ∨
        (fd = s.fds.lowestFree ∧ exists c1 c2, Granted s t pts_namesz pts_name c1 c2)) := by
  rcases PtymOpen.copyName_ok ptyXX hsize with ⟨first, hfirst, _⟩
  unfold ptym_open
  rw [hfirst]
  dsimp only
  rcases openpt_cases s with hopen | ⟨s1, c1, c2, hopen, h1, hchmods1⟩
  · rw [hopen]
    exact ⟨-1, first, s, rfl, Or.inl ⟨by decide, ⟨fun _ => rfl, rfl, List.prefix_rfl⟩⟩⟩
  · rw [hopen]
    have hpos : ¬ (s.fds.lowestFree : Int) < 0 := by
      lia
    dsimp only
    rw [if_neg hpos]
    rcases h1.grantpt_l o with ⟨s2, hgrant, h2, hmore, hchmods2⟩
    rw [hchmods1] at hmore
    rw [Int.toNat_natCast, hgrant]
    dsimp only
    cases hgrants : o.grants with
    | false => exact ⟨-2, first, _, rfl, Or.inl ⟨by decide, h2.close hmore⟩⟩
    | true =>
        have hunlock : ¬ unlockpt_l s.fds.lowestFree < 0 := Int.lt_irrefl 0
        rw [if_neg (by decide), if_neg hunlock]
        cases hname : o.name with
        | false =>
            rw [h2.ptsname_l_fails]
            exact ⟨-4, first, _, rfl, Or.inl ⟨by decide, h2.close hmore⟩⟩
        | true =>
            rcases h2.ptsname_l with ⟨s3, hs3, h3, hchmods3, hstr⟩
            rcases PtymOpen.copyName_ok (slaveString h3.tried) hsize with
              ⟨last, hlast, hspells⟩
            rw [hs3]
            dsimp only
            rw [hstr]
            change PtymOpen.copyName (slaveName c1 c2) pts_namesz = _ at hlast
            rw [hlast]
            refine ⟨_, last, s3, rfl, Or.inr ⟨rfl, c1, c2, h3, hspells, ?_⟩⟩
            rw [hchmods3, hchmods2 hgrants, hchmods1]

/-!
# Call after call
-/

/-- What a result was before the calls: its descriptor was not open, and the master of
its slave was free. -/
def New (s : State) (r : Int × Buffer) : Prop :=
  s.fds.get r.1.toNat = none ∧
    exists c1 c2, s.dev (masterName c1 c2) = Status.free ∧ str r.2 = slaveName c1 c2

/-- The descriptor is the master of the slave with the whole name, and the slave is
ready for its user. -/
def Own (t : State) (r : Int × Buffer) : Prop :=
  exists c1 c2, t.fds.get r.1.toNat = some (masterName c1 c2) ∧
    str r.2 = slaveName c1 c2 ∧ (slaveName c1 c2, slaveMode) ∈ t.chmods

structure Later (s t : State) : Prop where
  fds : forall d, s.fds.IsOpen d -> t.fds.get d = s.fds.get d
  chmods : s.chmods <+: t.chmods

section

variable {s t u : State}

theorem Later.trans (h : Later s t) (h' : Later t u) : Later s u := by
  constructor
  · intro d hd
    have hopen : t.fds.IsOpen d := by
      unfold FdTable.IsOpen
      rw [h.fds d hd]
      exact hd
    rw [h'.fds d hopen, h.fds d hd]
  · exact h.chmods.trans h'.chmods

theorem Own.later {r : Int × Buffer} (h : Own s r) (hlater : Later s t) : Own t r := by
  rcases h with ⟨c1, c2, hget, hstr, hmem⟩
  refine ⟨c1, c2, ?_, hstr, hlater.chmods.subset hmem⟩
  rw [hlater.fds _ (by unfold FdTable.IsOpen; rw [hget]; nofun), hget]

theorem Refused.later (h : Refused s t) : Later s t where
  fds := fun d _ => h.fds d
  chmods := h.chmods

theorem Refused.new {r : Int × Buffer} (h : Refused s t) (hnew : New t r) : New s r := by
  rcases hnew with ⟨hget, c1, c2, hfree, hstr⟩
  rw [h.fds] at hget
  rw [h.dev] at hfree
  exact ⟨hget, c1, c2, hfree, hstr⟩

variable {pts_namesz : Nat} {pts_name : Buffer} {c1 c2 : Byte}

theorem Granted.later (h : Granted s t pts_namesz pts_name c1 c2) : Later s t := by
  constructor
  · intro d hd
    exact h.holding.get_of_ne (FdTable.ne_lowestFree_of_isOpen hd)
  · rw [h.chmods]
    exact List.prefix_append _ _

theorem Granted.new {r : Int × Buffer} (h : Granted s t pts_namesz pts_name c1 c2)
    (hnew : New t r) : New s r := by
  rcases hnew with ⟨hget, d1, d2, hfree, hstr⟩
  refine ⟨?_, d1, d2, ?_, hstr⟩
  · by_cases hd : r.1.toNat = s.fds.lowestFree
    · rw [hd]
      exact FdTable.get_lowestFree s.fds
    · rw [← h.holding.get_of_ne hd]
      exact hget
  · rw [h.holding.dev] at hfree
    split at hfree
    · cases hfree
    · exact hfree

theorem Granted.str_eq (h : Granted s t pts_namesz pts_name c1 c2) (hsize : 11 ≤ pts_namesz) :
    str pts_name = slaveName c1 c2 := by
  have hlength : (slaveString h.holding.tried).length ≤ pts_namesz - 1 := by
    show 10 ≤ _
    lia
  have hspells := h.spells
  rw [CString.take_of_length_le hlength] at hspells
  exact hspells.str_eq

theorem Granted.own (h : Granted s t pts_namesz pts_name c1 c2) (hsize : 11 ≤ pts_namesz) :
    Own t ((s.fds.lowestFree : Int), pts_name) := by
  refine ⟨c1, c2, h.holding.get, h.str_eq hsize, ?_⟩
  rw [h.chmods]
  exact List.mem_append_right _ List.mem_cons_self

theorem Granted.isNew (h : Granted s t pts_namesz pts_name c1 c2) (hsize : 11 ≤ pts_namesz) :
    New s ((s.fds.lowestFree : Int), pts_name) :=
  ⟨FdTable.get_lowestFree s.fds, c1, c2, h.holding.free, h.str_eq hsize⟩

theorem Granted.apart {r : Int × Buffer} (h : Granted s t pts_namesz pts_name c1 c2)
    (hsize : 11 ≤ pts_namesz) (hr : New t r) :
    (s.fds.lowestFree : Int) ≠ r.1 ∧ str pts_name ≠ str r.2 := by
  rcases hr with ⟨hget, d1, d2, hfree, hstr⟩
  constructor
  · intro heq
    rw [← heq, Int.toNat_natCast, h.holding.get] at hget
    cases hget
  · intro heq
    rw [h.str_eq hsize, hstr] at heq
    rcases slaveName_injective heq with ⟨heq1, heq2⟩
    rw [← heq1, ← heq2, h.holding.dev, if_pos rfl] at hfree
    cases hfree

end

/-- The masters are behind different descriptors, and the slaves have different
names. -/
def Apart (a b : Int × Buffer) : Prop :=
  0 ≤ a.1 -> 0 ≤ b.1 -> a.1 ≠ b.1 ∧ str a.2 ≠ str b.2

/-- The master of the slave that a call has named. -/
def Gives (results : List (Int × Buffer)) (name : List Byte) : Prop :=
  exists r, r ∈ results ∧ 0 ≤ r.1 ∧
    exists c1 c2, name = masterName c1 c2 ∧ str r.2 = slaveName c1 c2

/-- What a row of calls gives, with buffers that are large enough for the names.
Besides what was open and in use before, only the descriptors and masters of calls
that succeeded are. -/
structure Served (s t : State) (results : List (Int × Buffer)) : Prop where
  later : Later s t
  opened : forall d, t.fds.IsOpen d ->
    s.fds.IsOpen d ∨ exists r, r ∈ results ∧ r.1 = (d : Int)
  masters : forall name, t.dev name = s.dev name ∨
    (t.dev name = Status.busy ∧ Gives results name)
  new : forall r, r ∈ results -> 0 ≤ r.1 -> New s r
  own : forall r, r ∈ results -> 0 ≤ r.1 -> Own t r
  apart : results.Pairwise Apart

theorem Gives.cons {results : List (Int × Buffer)} {name : List Byte} (r : Int × Buffer)
    (h : Gives results name) : Gives (r :: results) name := by
  rcases h with ⟨r', hr', hgives⟩
  exact ⟨r', List.mem_cons_of_mem r hr', hgives⟩

theorem Served.refused {s u t : State} {fd : Int} {pts_name : Buffer}
    {results : List (Int × Buffer)} (h : Served u t results) (hrefused : Refused s u)
    (hneg : fd < 0) : Served s t ((fd, pts_name) :: results) where
  later := hrefused.later.trans h.later
  opened d hd := by
    rcases h.opened d hd with hopen | ⟨r, hr, heq⟩
    · left
      unfold FdTable.IsOpen at hopen ⊢
      rw [← hrefused.fds d]
      exact hopen
    · exact Or.inr ⟨r, List.mem_cons_of_mem _ hr, heq⟩
  masters name := by
    rw [← hrefused.dev]
    rcases h.masters name with hsame | ⟨hbusy, hgives⟩
    · exact Or.inl hsame
    · exact Or.inr ⟨hbusy, hgives.cons _⟩
  new r hr hpos := by
    rcases List.mem_cons.mp hr with heq | hr
    · rw [heq] at hpos
      exact absurd hpos (Int.not_le.mpr hneg)
    · exact hrefused.new (h.new r hr hpos)
  own r hr hpos := by
    rcases List.mem_cons.mp hr with heq | hr
    · rw [heq] at hpos
      exact absurd hpos (Int.not_le.mpr hneg)
    · exact h.own r hr hpos
  apart := by
    refine List.pairwise_cons.mpr ⟨?_, h.apart⟩
    intro r _ hpos
    exact absurd hpos (Int.not_le.mpr hneg)

theorem Served.granted {s u t : State} {pts_namesz : Nat} {pts_name : Buffer} {c1 c2 : Byte}
    {results : List (Int × Buffer)} (h : Served u t results)
    (hgranted : Granted s u pts_namesz pts_name c1 c2) (hsize : 11 ≤ pts_namesz) :
    Served s t (((s.fds.lowestFree : Int), pts_name) :: results) where
  later := hgranted.later.trans h.later
  opened d hd := by
    rcases h.opened d hd with hopen | ⟨r, hr, heq⟩
    · by_cases hlowest : d = s.fds.lowestFree
      · exact Or.inr ⟨_, List.mem_cons_self, by rw [hlowest]⟩
      · left
        unfold FdTable.IsOpen at hopen ⊢
        rw [← hgranted.holding.get_of_ne hlowest]
        exact hopen
    · exact Or.inr ⟨r, List.mem_cons_of_mem _ hr, heq⟩
  masters name := by
    rcases h.masters name with hsame | ⟨hbusy, hgives⟩
    · rw [hsame, hgranted.holding.dev]
      by_cases hname : name = masterName c1 c2
      · rw [if_pos hname]
        exact Or.inr ⟨rfl, _, List.mem_cons_self, Int.natCast_nonneg _, c1, c2, hname,
          hgranted.str_eq hsize⟩
      · rw [if_neg hname]
        exact Or.inl rfl
    · exact Or.inr ⟨hbusy, hgives.cons _⟩
  new r hr hpos := by
    rcases List.mem_cons.mp hr with heq | hr
    · rw [heq]
      exact hgranted.isNew hsize
    · exact hgranted.new (h.new r hr hpos)
  own r hr hpos := by
    rcases List.mem_cons.mp hr with heq | hr
    · rw [heq]
      exact (hgranted.own hsize).later h.later
    · exact h.own r hr hpos
  apart := by
    refine List.pairwise_cons.mpr ⟨?_, h.apart⟩
    intro r hr _ hpos
    exact hgranted.apart hsize (h.new r hr hpos)

/-- However many calls a process makes, and whichever of them fail: a call that
succeeds gives a master and the name of its own slave, which the user may write to
then; different calls give different terminals, no call touches a descriptor that was
open before, and a call that fails leaves no descriptor and no master open. -/
theorem opens_served (s : State) (calls : List (Nat × Outcomes))
    (hsize : forall call, call ∈ calls -> 11 ≤ call.1) :
    exists results t, opens s calls = Except.ok (results, t) ∧ Served s t results := by
  induction calls generalizing s with
  | nil =>
      refine ⟨[], s, rfl, ⟨fun _ _ => rfl, List.prefix_rfl⟩, fun _ hd => Or.inl hd,
        fun _ => Or.inl rfl, ?_, ?_, List.Pairwise.nil⟩
      · nofun
      · nofun
  | cons call calls ih =>
      rcases call with ⟨pts_namesz, o⟩
      have hfirst : 11 ≤ pts_namesz := hsize _ List.mem_cons_self
      rcases ptym_open_cases s (show 0 < pts_namesz by lia) o with
        ⟨fd, pts_name, u, hopen, hcases⟩
      rcases ih u (fun other hother => hsize other (List.mem_cons_of_mem _ hother)) with
        ⟨results, t, hopens, hserved⟩
      unfold opens
      rw [hopen]
      dsimp only
      rw [hopens]
      refine ⟨_, t, rfl, ?_⟩
      rcases hcases with ⟨hneg, hrefused⟩ | ⟨heq, c1, c2, hgranted⟩
      · exact hserved.refused hrefused hneg
      · rw [heq]
        exact hserved.granted hgranted hfirst

def desk : State where
  dev := fun name => if name = masterName 112 48 then Status.busy else Status.free
  fds := { slots := [some [], some [], some []] }
  pts_name := ⟨List.replicate 16 0, rfl⟩
  chowns := []
  chmods := []

def root : Outcomes where
  uid := 0
  tty := some 5
  grantName := true
  chown := true
  chmod := true
  name := true

def threeCalls : List (Nat × Outcomes) :=
  [(20, root), (20, { root with chown := false }), (11, root)]

def returned (s : State) (calls : List (Nat × Outcomes)) : Option (List Int) :=
  match opens s calls with
  | Except.ok (results, _) => some (results.map Prod.fst)
  | Except.error _ => none

theorem opens_served_three :
    exists results t, opens desk threeCalls = Except.ok (results, t) ∧
      results.map Prod.fst = [3, -2, 4] ∧ Served desk t results := by
  have hreturned : returned desk threeCalls = some [3, -2, 4] := by
    decide +kernel
  rcases opens_served desk threeCalls (by decide) with ⟨results, t, hopens, hserved⟩
  refine ⟨results, t, hopens, ?_, hserved⟩
  unfold returned at hreturned
  rw [hopens] at hreturned
  exact Option.some.inj hreturned

end BsdPtym
end Apue
