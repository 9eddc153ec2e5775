import Apue.Foundation.Decimal
import Apue.Kernel.Descriptors

/-!
# Opening a pseudo terminal

Opening `/dev/ptmx` creates a pair: a master behind the new descriptor and a
slave with a number of its own, which stands under `/dev/pts` as long as the
master is open.  `ptym_open` works the slave's name out of that number and hands
it to its caller, through a buffer of its own and the caller's.
-/

namespace Apue
namespace PtymOpen

open Foundation Kernel

def ptmx : CString :=
  CString.ofBytes [47, 100, 101, 118, 47, 112, 116, 109, 120] rfl

def devpts : CString :=
  CString.ofBytes [47, 100, 101, 118, 47, 112, 116, 115, 47] rfl

def decimalString (n : Nat) : CString where
  bytes := decimal n
  nulFree := fun _ hb => decimal_nulFree n hb

/-- `/dev/pts/N`. -/
def slaveName (minor : Nat) : CString :=
  devpts.append (decimalString minor)

inductive File where
  | master (minor : Nat)
  | slave (minor : Nat)
  | other
  deriving Repr, DecidableEq

/-- The size of the buffer in `ptsname_l`. -/
def PTS_NAME : Nat := 16

/-- The descriptors, the numbers of the terminals whose master is open in some
process, those that are locked, what `chmod` has been applied to, and the
buffer of `ptsname_l`. -/
structure State where
  fds : FdTable File
  live : List Nat
  locked : List Nat
  chmods : List (List Byte × Nat)
  pts_name : { b : Buffer // b.length = PTS_NAME }
  deriving DecidableEq

/-- The number that the kernel gave to the new pair, unless `open` failed, and
whether each of the other system calls succeeds, in their order. -/
structure Outcomes where
  ptmx : Option Nat
  grantName : Bool
  chmod : Bool
  unlock : Bool
  name : Bool
  deriving Repr, DecidableEq

def posix_openpt_l (s : State) (ptmx : Option Nat) : Int × State :=
  match ptmx with
  | none => (-1, s)
  | some minor =>
      let (fd, fds) := s.fds.install (File.master minor)
      (fd,
        { s with
          fds := fds
          live := minor :: s.live
          locked := minor :: s.locked })

/-- `ioctl(fd, TIOCGPTN, ...)`; only a master has a number to tell. -/
def minorOf (s : State) (fd : Fd) (ok : Bool) : Option Nat :=
  match s.fds.get fd with
  | some (File.master minor) => if ok then some minor else none
  | _ => none

def ptsname_l (s : State) (fd : Fd) (ok : Bool) : Option State :=
  match minorOf s fd ok with
  | none => none
  | some minor =>
      some
        { s with
          pts_name :=
            ⟨snprintf s.pts_name.val (slaveName minor).bytes, by
              rw [snprintf_length _ (by rw [s.pts_name.property]; decide),
                s.pts_name.property]⟩ }

/-- `S_IRUSR | S_IWUSR | S_IWGRP`. -/
def slaveMode : Nat := 0o620

/-- `chmod` of a null pointer fails. -/
def grantpt_l (s : State) (fd : Fd) (nameOk chmodOk : Bool) : Int × State :=
  match ptsname_l s fd nameOk with
  | none => (-1, s)
  | some s =>
      if chmodOk then
        (0, { s with chmods := s.chmods ++ [(str s.pts_name.val, slaveMode)] })
      else
        (-1, s)

/-- `ioctl(fd, TIOCSPTLCK, ...)` with 0. -/
def unlockpt_l (s : State) (fd : Fd) (ok : Bool) : Int × State :=
  match s.fds.get fd with
  | some (File.master minor) =>
      if ok then
        (0, { s with locked := s.locked.filter (fun n => n ≠ minor) })
      else
        (-1, s)
  | _ => (-1, s)

/-- With its master the slave goes. -/
def close (s : State) (fd : Fd) : State :=
  match s.fds.get fd with
  | some (File.master minor) =>
      { s with
        fds := s.fds.close fd
        live := s.live.erase minor
        locked := s.locked.erase minor }
  | _ => { s with fds := s.fds.close fd }

/-- `strncpy(pts_name, s, pts_namesz); pts_name[pts_namesz - 1] = '\0'`. -/
def copyName (s : List Byte) (pts_namesz : Nat) : Except Nat Buffer :=
  poke (strncpy s pts_namesz) (pts_namesz - 1) 0

def ptym_open (s : State) (pts_namesz : Nat) (o : Outcomes) :
    Except Nat (Int × Buffer × State) :=
  match copyName ptmx.bytes pts_namesz with
  | Except.error i => Except.error i
  | Except.ok pts_name =>
      let (fd, s) := posix_openpt_l s o.ptmx
      if fd < 0 then
        Except.ok (-1, pts_name, s)
      else
        let (granted, s) := grantpt_l s fd.toNat o.grantName o.chmod
        if granted < 0 then
          Except.ok (-2, pts_name, close s fd.toNat)
        else
          let (unlocked, s) := unlockpt_l s fd.toNat o.unlock
          if unlocked < 0 then
            Except.ok (-3, pts_name, close s fd.toNat)
          else
            match ptsname_l s fd.toNat o.name with
            | none => Except.ok (-4, pts_name, close s fd.toNat)
            | some s =>
                match copyName (str s.pts_name.val) pts_namesz with
                | Except.error i => Except.error i
                | Except.ok pts_name => Except.ok (fd, pts_name, s)

def slaveOf (path : List Byte) : Option Nat :=
  let minor := readDecimal (path.drop devpts.length)
  if path = (slaveName minor).bytes then some minor else none

/-- `open` finds a slave whose master is open and which is not locked; `ok` tells
whether it lets the caller in. -/
def ptys_open (s : State) (pts_name : Buffer) (ok : Bool) : Int × State :=
  match slaveOf (str pts_name) with
  | none => (-1, s)
  | some minor =>
      if minor ∈ s.live ∧ minor ∉ s.locked ∧ ok then
        let (fd, fds) := s.fds.install (File.slave minor)
        (fd, { s with fds := fds })
      else
        (-1, s)

/-- With a nonnegative result the caller has the master behind it and the whole
name of its slave, and opens that slave by the name; with a negative one the
master is closed and its terminal gone. -/
structure OwnSlave (s : State) (fd : Int) (pts_name : Buffer) (t : State) :
    Prop where
  opened : 0 ≤ fd -> exists minor,
    t.fds.get fd.toNat = some (File.master minor) ∧
    Spells pts_name (slaveName minor) ∧
    exists fds u, ptys_open t pts_name true = (Int.ofNat fds, u) ∧
      u.fds.get fds = some (File.slave minor)
  failed : fd < 0 ->
    (forall d, t.fds.get d = s.fds.get d) ∧ t.live = s.live

/-!
# Names
-/

theorem slaveOf_slaveName (minor : Nat) :
    slaveOf (slaveName minor).bytes = some minor := by
  have hdrop : (slaveName minor).bytes.drop devpts.length = decimal minor :=
    List.drop_left
  unfold slaveOf
  rw [hdrop, readDecimal_decimal]
  exact if_pos rfl

def copiedName (minor pts_namesz : Nat) : CString :=
  ((slaveName minor).take (PTS_NAME - 1)).take (pts_namesz - 1)

theorem copiedName_eq_iff (minor : Nat) {pts_namesz : Nat}
    (hsize : 0 < pts_namesz) :
    copiedName minor pts_namesz = slaveName minor ↔
      (slaveName minor).length < PTS_NAME ∧
        (slaveName minor).length < pts_namesz := by
  have hlength : (copiedName minor pts_namesz).length =
      min (pts_namesz - 1) (min (PTS_NAME - 1) (slaveName minor).length) := by
    change (((slaveName minor).bytes.take _).take _).length = _
    rw [List.length_take, List.length_take]
    rfl
  have hbuffer : PTS_NAME = 16 := rfl
  constructor
  · intro heq
    rw [heq] at hlength
    lia
  · intro hfit
    unfold copiedName
    rw [CString.take_of_length_le (s := slaveName minor) (by lia),
      CString.take_of_length_le (by lia)]

theorem copyName_ok (s : CString) {pts_namesz : Nat} (hsize : 0 < pts_namesz) :
    exists b, copyName s.bytes pts_namesz = Except.ok b ∧
      Spells b (s.take (pts_namesz - 1)) := by
  rcases spells_strncpy s hsize with ⟨hpoke, _, hspells⟩
  exact ⟨_, hpoke, hspells⟩

/-!
# The steps of ptym_open
-/

/-- `t` is `s` with the new master open. -/
structure Holding (s t : State) (minor : Nat) : Prop where
  fds : t.fds = s.fds.set s.fds.lowestFree (some (File.master minor))
  live : t.live = minor :: s.live

theorem Holding.get {s t : State} {minor : Nat} (h : Holding s t minor) :
    t.fds.get s.fds.lowestFree = some (File.master minor) := by
  rw [h.fds, FdTable.get_set_self]

theorem Holding.close {s t : State} {minor : Nat} (h : Holding s t minor) :
    (forall d, (close t s.fds.lowestFree).fds.get d = s.fds.get d) ∧
      (close t s.fds.lowestFree).live = s.live := by
  unfold PtymOpen.close
  rw [h.get]
  constructor
  · intro d
    change (t.fds.close s.fds.lowestFree).get d = s.fds.get d
    rw [FdTable.get_close]
    split
    · next heq =>
        rw [heq]
        exact (FdTable.get_lowestFree s.fds).symm
    · next hne =>
        rw [h.fds, FdTable.get_set_of_ne _ _ hne]
  · change t.live.erase minor = s.live
    rw [h.live, List.erase_cons_head]

theorem Holding.ptsname_l {s t : State} {minor : Nat} (h : Holding s t minor) :
    exists u, ptsname_l t s.fds.lowestFree true = some u ∧ Holding s u minor ∧
      u.locked = t.locked ∧
      str u.pts_name.val = ((slaveName minor).take (PTS_NAME - 1)).bytes := by
  unfold PtymOpen.ptsname_l minorOf
  rw [h.get]
  refine ⟨_, rfl, ⟨h.fds, h.live⟩, rfl, ?_⟩
  have hspells := spells_snprintf t.pts_name.val (slaveName minor)
  rw [t.pts_name.property] at hspells
  exact hspells.str_eq

theorem Holding.ptsname_l_fails {s t : State} {minor : Nat}
    (h : Holding s t minor) :
    PtymOpen.ptsname_l t s.fds.lowestFree false = none := by
  unfold PtymOpen.ptsname_l minorOf
  rw [h.get]
  rfl

theorem Holding.grantpt_l {s t : State} {minor : Nat} (h : Holding s t minor)
    (nameOk chmodOk : Bool) :
    exists u, grantpt_l t s.fds.lowestFree nameOk chmodOk =
        (if nameOk && chmodOk then 0 else -1, u) ∧
      Holding s u minor := by
  unfold PtymOpen.grantpt_l
  cases nameOk with
  | false =>
      rw [h.ptsname_l_fails]
      exact ⟨t, rfl, h⟩
  | true =>
      rcases h.ptsname_l with ⟨u, hname, hu, _, _⟩
      rw [hname]
      cases chmodOk with
      | false => exact ⟨u, rfl, hu⟩
      | true => exact ⟨_, rfl, ⟨hu.fds, hu.live⟩⟩

theorem Holding.unlockpt_l {s t : State} {minor : Nat} (h : Holding s t minor)
    (ok : Bool) :
    exists u, unlockpt_l t s.fds.lowestFree ok = (if ok then 0 else -1, u) ∧
      Holding s u minor ∧ (ok = true -> minor ∉ u.locked) := by
  unfold PtymOpen.unlockpt_l
  rw [h.get]
  cases ok with
  | false => exact ⟨t, rfl, h, Bool.noConfusion⟩
  | true =>
      refine ⟨_, rfl, ⟨h.fds, h.live⟩, ?_⟩
      intro _ hmem
      simpa using (List.mem_filter.mp hmem).2

structure Outcomes.Succeed (o : Outcomes) (minor : Nat) : Prop where
  ptmx : o.ptmx = some minor
  grantName : o.grantName = true
  chmod : o.chmod = true
  unlock : o.unlock = true
  name : o.name = true

theorem posix_openpt_l_ok (s : State) (minor : Nat) :
    exists t, posix_openpt_l s (some minor) =
        ((s.fds.lowestFree : Int), t) ∧
      Holding s t minor :=
  ⟨_, rfl, ⟨rfl, rfl⟩⟩

/-- What `ptym_open` gives when everything succeeds: the name has been cut off
twice. -/
theorem ptym_open_succeeds (s : State) {pts_namesz minor : Nat} {o : Outcomes}
    (hsize : 0 < pts_namesz) (ho : o.Succeed minor) :
    exists pts_name t, ptym_open s pts_namesz o =
        Except.ok ((s.fds.lowestFree : Int), pts_name, t) ∧
      Holding s t minor ∧ minor ∉ t.locked ∧
      Spells pts_name (copiedName minor pts_namesz) := by
  rcases copyName_ok ptmx hsize with ⟨first, hfirst, _⟩
  rcases posix_openpt_l_ok s minor with ⟨s1, hopen, h1⟩
  rcases h1.grantpt_l true true with ⟨s2, hgrant, h2⟩
  rcases h2.unlockpt_l true with ⟨s3, hunlock, h3, hunlocked⟩
  rcases h3.ptsname_l with ⟨s4, hname, h4, hlocked, hstr⟩
  rcases copyName_ok ((slaveName minor).take (PTS_NAME - 1)) hsize with
    ⟨pts_name, hcopy, hspells⟩
  refine ⟨pts_name, s4, ?_, h4, ?_, hspells⟩
  · unfold ptym_open
    rw [hfirst, ho.ptmx, ho.grantName, ho.chmod, ho.unlock, ho.name]
    simp [hopen, hgrant, hunlock, hname, hstr, hcopy]
  · rw [hlocked]
    exact hunlocked rfl

theorem ptym_open_fails (s : State) {pts_namesz : Nat} {o : Outcomes}
    (hsize : 0 < pts_namesz) (ho : forall minor, ¬ o.Succeed minor) :
    exists fd pts_name t, ptym_open s pts_namesz o =
        Except.ok (fd, pts_name, t) ∧
      fd < 0 ∧ (forall d, t.fds.get d = s.fds.get d) ∧ t.live = s.live := by
  rcases copyName_ok ptmx hsize with ⟨first, hfirst, _⟩
  rcases o with ⟨ptmx, grantName, chmod, unlock, name⟩
  unfold ptym_open
  rw [hfirst]
  cases ptmx with
  | none => exact ⟨-1, first, s, rfl, by simp, fun _ => rfl, rfl⟩
  | some minor =>
      rcases posix_openpt_l_ok s minor with ⟨s1, hopen, h1⟩
      rcases h1.grantpt_l grantName chmod with ⟨s2, hgrant, h2⟩
      rcases h2.unlockpt_l unlock with ⟨s3, hunlock, h3, _⟩
      cases hg : grantName && chmod with
      | false =>
          rw [hg] at hgrant
          exact ⟨-2, first, close s2 s.fds.lowestFree, by simp [hopen, hgrant],
            by simp, h2.close⟩
      | true =>
          rw [hg] at hgrant
          cases unlock with
          | false =>
              exact ⟨-3, first, close s3 s.fds.lowestFree,
                by simp [hopen, hgrant, hunlock], by simp,
                h3.close⟩
          | true =>
              cases name with
              | false =>
                  have hname := h3.ptsname_l_fails
                  exact ⟨-4, first, close s3 s.fds.lowestFree,
                    by simp [hopen, hgrant, hunlock, hname],
                    by simp, h3.close⟩
              | true =>
                  rw [Bool.and_eq_true] at hg
                  exact absurd ⟨rfl, hg.1, hg.2, rfl, rfl⟩ (ho minor)

/-!
# When the name is whole
-/

theorem ptys_open_own {s t : State} {minor : Nat} {pts_name : Buffer}
    (h : Holding s t minor) (hunlocked : minor ∉ t.locked)
    (hname : Spells pts_name (slaveName minor)) :
    exists fds u, ptys_open t pts_name true = (Int.ofNat fds, u) ∧
      u.fds.get fds = some (File.slave minor) := by
  have hlive : minor ∈ t.live := by
    rw [h.live]
    exact List.mem_cons_self
  unfold ptys_open
  rw [hname.str_eq, slaveOf_slaveName]
  change exists fds u, (if minor ∈ t.live ∧ minor ∉ t.locked ∧ true = true then
    _ else _) = (Int.ofNat fds, u) ∧ _
  rw [if_pos ⟨hlive, hunlocked, rfl⟩]
  exact ⟨_, _, rfl, FdTable.get_set_self _ _ _⟩

/--
`ptym_open` gives its caller the slave of the master it returns, and closes the
master when it fails, if and only if some system call fails or the slave's name
has room both in the 16 bytes of `ptsname_l` and in the caller's buffer.
-/
theorem ptym_open_iff (s : State) (pts_namesz : Nat) (o : Outcomes)
    (hsize : 1 ≤ pts_namesz) :
    (exists fd pts_name t,
        ptym_open s pts_namesz o = Except.ok (fd, pts_name, t) ∧
          OwnSlave s fd pts_name t) ↔
      forall minor, o.Succeed minor ->
        (slaveName minor).length < PTS_NAME ∧
          (slaveName minor).length < pts_namesz := by
  constructor
  · rintro ⟨fd, pts_name, t, hrun, hown⟩ minor ho
    rcases ptym_open_succeeds s hsize ho with
      ⟨pts_name', t', hrun', hholding, _, hspells⟩
    rw [hrun'] at hrun
    cases hrun
    rcases hown.opened (Int.natCast_nonneg _) with ⟨minor', hget, hname, _⟩
    rw [Int.toNat_natCast, hholding.get] at hget
    cases hget
    exact (copiedName_eq_iff minor hsize).mp (hspells.unique hname)
  · intro hfits
    by_cases ho : exists minor, o.Succeed minor
    · rcases ho with ⟨minor, ho⟩
      rcases ptym_open_succeeds s hsize ho with
        ⟨pts_name, t, hrun, hholding, hunlocked, hspells⟩
      rw [(copiedName_eq_iff minor hsize).mpr (hfits minor ho)] at hspells
      refine ⟨_, pts_name, t, hrun, ?_, ?_⟩
      · intro _
        exact ⟨minor, hholding.get, hspells,
          ptys_open_own hholding hunlocked hspells⟩
      · intro hneg
        exact absurd hneg (Int.not_lt.mpr (Int.natCast_nonneg _))
    · rcases ptym_open_fails s hsize (fun minor h => ho ⟨minor, h⟩) with
        ⟨fd, pts_name, t, hrun, hneg, hclosed⟩
      refine ⟨fd, pts_name, t, hrun, ?_, ?_⟩
      · intro hpos
        exact absurd hneg (Int.not_lt.mpr hpos)
      · intro _
        exact hclosed

def tenLive : State where
  fds := { slots := [some File.other, some File.other, some File.other] }
  live := [10]
  locked := []
  chmods := []
  pts_name := ⟨List.replicate PTS_NAME 0, rfl⟩

def opensHundred : Outcomes where
  ptmx := some 100
  grantName := true
  chmod := true
  unlock := true
  name := true

theorem hundred_fits :
    1 ≤ 20 ∧
      exists fd pts_name t,
        ptym_open tenLive 20 opensHundred = Except.ok (fd, pts_name, t) ∧
          OwnSlave tenLive fd pts_name t := by
  refine ⟨by decide, (ptym_open_iff tenLive 20 opensHundred (by decide)).mpr ?_⟩
  intro minor ho
  cases ho.ptmx
  exact ⟨by decide, by decide⟩

/-- A buffer of 12 bytes turns terminal 100 into terminal 10: the caller opens
somebody else's slave. -/
theorem hundred_becomes_ten :
    ¬ exists fd pts_name t,
      ptym_open tenLive 12 opensHundred = Except.ok (fd, pts_name, t) ∧
        OwnSlave tenLive fd pts_name t := by
  rintro ⟨fd, pts_name, t, hrun, hown⟩
  have hresult : (ptym_open tenLive 12 opensHundred).map
      (fun r => (r.1, str r.2.1, r.2.2.fds.get 3)) =
        Except.ok (3, (slaveName 10).bytes, some (File.master 100)) := by
    rfl
  rw [hrun] at hresult
  have hparts := Except.ok.inj hresult
  rcases Prod.mk.inj hparts with ⟨hfd, hrest⟩
  rcases Prod.mk.inj hrest with ⟨hstr, hmaster⟩
  change fd = 3 at hfd
  rcases hown.opened (by rw [hfd]; decide) with ⟨minor, hget, hname, _⟩
  rw [hfd] at hget
  have hsame := hget.symm.trans hmaster
  cases hsame
  have hwrong := hname.str_eq.symm.trans hstr
  exact absurd hwrong (by decide)

end PtymOpen
end Apue
