import Apue.AdvancedIpc.UniqueConn.Model
import Apue.Foundation.Block
import Apue.Foundation.Fgets

/-!
# The address of the peer

`srv_accept` stores a terminator behind the path that `accept` has put into
`un.sun_path`.  The length that `accept` gives back is that of the address in the
kernel, which counts the terminator of a path and may exceed the structure; what
is stored is cut off at the end of it.
-/

namespace Apue
namespace UniqueConn
namespace SunPath

open Foundation Kernel

/-- `sizeof(un.sun_path)` -/
def SIZE : Nat := 108

/-- `offsetof(struct sockaddr_un, sun_path)` -/
def OFFSET : Nat := 2

structure BoundPath where
  path : CString
  nonempty : path.bytes ≠ []
  fits : path.length ≤ SIZE

structure AbstractName where
  bytes : List Byte
  fits : bytes.length + 1 ≤ SIZE

inductive Peer where
  | unbound
  | abstractName (name : AbstractName)
  | pathname (p : BoundPath)

namespace Peer

/-- The bytes of `sun_path` that belong to the address in the kernel. -/
def sunPath : Peer -> List Byte
  | unbound => []
  | abstractName name => 0 :: name.bytes
  | pathname p => p.path.bytes ++ [0]

def addrlen (p : Peer) : Nat :=
  OFFSET + p.sunPath.length

def bound : Peer -> Path
  | unbound => []
  | abstractName _ => []
  | pathname p => p.path.bytes

def Room : Peer -> Prop
  | unbound => True
  | abstractName name => name.bytes.length + 1 < SIZE
  | pathname p => p.path.length + 1 < SIZE

end Peer

/-- `addrlen -= OFFSET` in `socklen_t`, which has 32 bits -/
def minusOffset (addrlen : Nat) : Nat :=
  (addrlen + (4294967296 - OFFSET)) % 4294967296

/-- `un.sun_path` after `accept`, from what was in it before. -/
def accepted (sun_path : Block SIZE) (p : Peer) : Except Nat (Block SIZE) :=
  sun_path.fill (p.sunPath.take SIZE)

/-- `un.sun_path[addrlen] = '\0'` -/
def terminate (sun_path : Block SIZE) (p : Peer) : Except Nat (Block SIZE) :=
  match accepted sun_path p with
  | Except.error i => Except.error i
  | Except.ok sun_path => sun_path.store (minusOffset p.addrlen) 0

inductive Call where
  | stat (p : Path)
  | unlink (p : Path)
  deriving Repr, DecidableEq

def Call.path : Call -> Path
  | Call.stat p => p
  | Call.unlink p => p

/-- What `srv_accept` returns, the calls that it made with the path, and the uid
that it stored. -/
structure Result where
  ret : Int
  calls : List Call
  uid : Option Uid
  deriving Repr, DecidableEq

/-- From `stat` on. -/
def check (stat : Path -> Option Inode) (now : Int) (uidptr : Bool) (connfd : Nat)
    (path : Path) : Result :=
  match stat path with
  | none => { ret := -2, calls := [Call.stat path], uid := none }
  | some statbuf =>
      match statError now statbuf with
      | some errval => { ret := errval, calls := [Call.stat path], uid := none }
      | none =>
          { ret := connfd
            calls := [Call.stat path, Call.unlink path]
            uid := if uidptr then some statbuf.uid else none }

/-- `srv_accept` when `accept` returns `connfd`; a store outside of `sun_path`
fails with its index. -/
def srv_accept (stat : Path -> Option Inode) (now : Int) (uidptr : Bool)
    (connfd : Nat) (sun_path : Block SIZE) (p : Peer) : Except Nat Result :=
  match terminate sun_path p with
  | Except.error i => Except.error i
  | Except.ok sun_path =>
      Except.ok (check stat now uidptr connfd (str sun_path.bytes))

/-- The terminator is stored inside of `sun_path`, and `stat` and `unlink` get the
path that the peer bound. -/
def Asks (p : Peer) (r : Except Nat Result) : Prop :=
  exists res, r = Except.ok res ∧ res.calls.head? = some (Call.stat p.bound) ∧
    forall c, c ∈ res.calls -> c.path = p.bound

/-!
# The terminator
-/

theorem sunPath_length_le (p : Peer) : p.sunPath.length ≤ SIZE + 1 := by
  cases p with
  | unbound => exact Nat.zero_le _
  | abstractName name => exact Nat.le_succ_of_le name.fits
  | pathname p =>
      show (p.path.bytes ++ [0]).length ≤ SIZE + 1
      rw [List.length_append]
      exact Nat.succ_le_succ p.fits

theorem minusOffset_addrlen (p : Peer) :
    minusOffset p.addrlen = p.sunPath.length := by
  have hle := sunPath_length_le p
  unfold minusOffset Peer.addrlen
  unfold SIZE at hle
  unfold OFFSET
  lia

theorem room_iff (p : Peer) : p.Room ↔ p.sunPath.length < SIZE := by
  cases p with
  | unbound => exact iff_of_true trivial (by decide)
  | abstractName name => exact Iff.rfl
  | pathname p =>
      show p.path.length + 1 < SIZE ↔ (p.path.bytes ++ [0]).length < SIZE
      rw [List.length_append]
      exact Iff.rfl

theorem str_sunPath (p : Peer) : str p.sunPath = p.bound := by
  cases p with
  | unbound => rfl
  | abstractName name => rfl
  | pathname p => exact takeWhile_eq_self p.path.nulFree []

theorem terminate_ok (sun_path : Block SIZE) {p : Peer} (h : p.Room) :
    exists b, terminate sun_path p = Except.ok b ∧ str b.bytes = p.bound := by
  have hlt := (room_iff p).mp h
  rcases sun_path.terminate_ok hlt with ⟨b, b', hfill, hstore, hstr⟩
  refine ⟨b', ?_, hstr.trans (str_sunPath p)⟩
  unfold terminate accepted
  rw [List.take_of_length_le (Nat.le_of_lt hlt), hfill, minusOffset_addrlen]
  exact hstore

theorem terminate_outside (sun_path : Block SIZE) {p : Peer} (h : ¬ p.Room) :
    terminate sun_path p = Except.error p.sunPath.length := by
  have hge : SIZE ≤ p.sunPath.length :=
    Nat.le_of_not_lt (fun hlt => h ((room_iff p).mpr hlt))
  rcases sun_path.fill_ok (List.length_take_le SIZE p.sunPath) with ⟨b, hfill, _⟩
  unfold terminate accepted
  rw [hfill, minusOffset_addrlen]
  exact b.store_error 0 hge

/-!
# srv_accept
-/

theorem check_calls (stat : Path -> Option Inode) (now : Int) (uidptr : Bool)
    (connfd : Nat) (path : Path) :
    (check stat now uidptr connfd path).calls.head? = some (Call.stat path) ∧
      forall c, c ∈ (check stat now uidptr connfd path).calls -> c.path = path := by
  unfold check
  cases stat path with
  | none => simp [Call.path]
  | some statbuf =>
      cases hstat : statError now statbuf with
      | none => simp [hstat, Call.path]
      | some errval => simp [hstat, Call.path]

theorem srv_accept_outside (stat : Path -> Option Inode) (now : Int)
    (uidptr : Bool) (connfd : Nat) (sun_path : Block SIZE) {p : Peer}
    (h : ¬ p.Room) :
    srv_accept stat now uidptr connfd sun_path p =
      Except.error p.sunPath.length := by
  unfold srv_accept
  rw [terminate_outside sun_path h]

/-- `srv_accept` stays inside of `sun_path` and asks for the path of the peer
when the address leaves room for one more byte, and only then. -/
theorem srv_accept_iff (stat : Path -> Option Inode) (now : Int) (uidptr : Bool)
    (connfd : Nat) (sun_path : Block SIZE) (p : Peer) :
    Asks p (srv_accept stat now uidptr connfd sun_path p) ↔ p.Room := by
  constructor
  · intro h
    apply Classical.not_not.mp
    intro hfull
    rcases h with ⟨res, hres, _⟩
    rw [srv_accept_outside stat now uidptr connfd sun_path hfull] at hres
    cases hres
  · intro h
    rcases terminate_ok sun_path h with ⟨b, hb, hstr⟩
    have hcalls := check_calls stat now uidptr connfd p.bound
    refine ⟨_, ?_, hcalls⟩
    unfold srv_accept
    rw [hb]
    dsimp only
    rw [hstr]

/-- A path of `n` letters. -/
def letters (n : Nat) (hpos : n ≠ 0) (hfits : n ≤ SIZE) : BoundPath where
  path := CString.replicate n 97 letter_ne_nul
  nonempty := by
    intro hnil
    have hlen := congrArg List.length hnil
    change (List.replicate n (97 : Byte)).length = 0 at hlen
    rw [List.length_replicate] at hlen
    exact hpos hlen
  fits := by
    rw [CString.replicate_length]
    exact hfits

/-- A path that fills `sun_path` but for its terminator. -/
theorem long_path_outside :
    srv_accept (fun _ => none) 0 true 4 (Block.zeros SIZE)
      (Peer.pathname (letters 107 (by decide) (by decide))) = Except.error 108 := by
  apply srv_accept_outside
  show ¬ (CString.replicate 107 97 letter_ne_nul).length + 1 < SIZE
  rw [CString.replicate_length]
  decide

end SunPath
end UniqueConn
end Apue
