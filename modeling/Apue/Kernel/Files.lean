import Mathlib.Data.List.DropRight
import Apue.Foundation.CString

/-!
# Names, files and symbolic links

A path leads to a place: its directory, after all links to directories on the
way, and its last part in it.  The namespace maps a place to what stands there: a
file or a symbolic link.  A file carries what `stat` reports about it.  A user
may remove or change only what is his own, as in a directory with the sticky bit;
user 0 may do both everywhere.
-/

namespace Apue
namespace Kernel

open Foundation

abbrev Uid := Nat
abbrev Pid := Nat
abbrev Path := List Byte

/-- The file types that `st_mode & S_IFMT` distinguishes. -/
inductive FileType where
  | S_IFREG
  | S_IFDIR
  | S_IFBLK
  | S_IFCHR
  | S_IFIFO
  | S_IFLNK
  | S_IFSOCK
  deriving Repr, DecidableEq

structure Inode where
  type : FileType
  perm : Nat
  uid : Uid
  ctime : Int
  mtime : Int
  atime : Int
  deriving Repr, DecidableEq

inductive Entry where
  | file (inode : Inode)
  | link (uid : Uid) (target : Path)
  deriving Repr, DecidableEq

def Entry.owner : Entry -> Uid
  | Entry.file i => i.uid
  | Entry.link uid _ => uid

def mayChange (uid owner : Uid) : Bool :=
  uid = 0 || uid = owner

/-- Where the names of directories lead.  They end in a slash. -/
abbrev Dirs := Path -> Path

/-- The directory `dir`, with all that is below it, is now what `target` was. -/
def Dirs.relink (dirs : Dirs) (dir target : Path) : Dirs :=
  fun d => if dir <+: d then dirs (target ++ d.drop dir.length) else dirs d

def dirPart (p : Path) : Path :=
  p.rdropWhile (fun b => b ≠ 47)

def lastPart (p : Path) : Path :=
  p.rtakeWhile (fun b => b ≠ 47)

/-- The place that a path leads to.  The empty path leads nowhere. -/
def place (dirs : Dirs) (p : Path) : Path :=
  if p = [] then [] else dirs (dirPart p) ++ lastPart p

theorem dirPart_slash {dir p : Path} (h : forall b, b ∈ p -> b ≠ 47) :
    dirPart (dir ++ [47] ++ p) = dir ++ [47] := by
  unfold dirPart
  induction p using List.reverseRecOn with
  | nil =>
      rw [List.append_nil]
      exact List.rdropWhile_concat_neg _ _ _ (by decide)
  | append_singleton p b ih =>
      have hb : b ≠ 47 := h b (List.mem_append_right p List.mem_cons_self)
      rw [← List.append_assoc]
      exact (List.rdropWhile_concat_pos _ _ b (decide_eq_true hb)).trans
        (ih (fun c hc => h c (List.mem_append_left [b] hc)))

theorem lastPart_slash {dir p : Path} (h : forall b, b ∈ p -> b ≠ 47) :
    lastPart (dir ++ [47] ++ p) = p := by
  have hsplit : dirPart (dir ++ [47] ++ p) ++ lastPart (dir ++ [47] ++ p) =
      dir ++ [47] ++ p :=
    List.rdropWhile_append_rtakeWhile
  rw [dirPart_slash h] at hsplit
  exact List.append_cancel_left hsplit

theorem place_nil (dirs : Dirs) : place dirs [] = [] :=
  if_pos rfl

theorem place_slash (dirs : Dirs) {dir p : Path}
    (h : forall b, b ∈ p -> b ≠ 47) :
    place dirs (dir ++ [47] ++ p) = dirs (dir ++ [47]) ++ p := by
  unfold place
  rw [if_neg (by simp), dirPart_slash h, lastPart_slash h]

/-- What stands at each place. -/
abbrev Names := Path -> Option Entry

namespace Names

def put (names : Names) (p : Path) (e : Option Entry) : Names :=
  fun q => if q = p then e else names q

theorem put_same (names : Names) (p : Path) (e : Option Entry) :
    names.put p e p = e :=
  if_pos rfl

theorem put_other {names : Names} {p q : Path} (e : Option Entry)
    (h : q ≠ p) : names.put p e q = names q :=
  if_neg h

/-- How many links are followed before `ELOOP`. -/
def SYMLOOP_MAX : Nat := 40

def follow (names : Names) (dirs : Dirs) : Nat -> Path -> Option (Path × Inode)
  | 0, _ => none
  | n + 1, p =>
      match names p with
      | none => none
      | some (Entry.file i) => some (p, i)
      | some (Entry.link _ target) => follow names dirs n (place dirs target)

/-- The file that is reached from a place. -/
def resolve (names : Names) (dirs : Dirs) (p : Path) : Option (Path × Inode) :=
  if p = [] then none else follow names dirs (SYMLOOP_MAX + 1) p

def stat (names : Names) (dirs : Dirs) (p : Path) : Option Inode :=
  (resolve names dirs p).map Prod.snd

theorem resolve_file {names : Names} {p : Path} {i : Inode} (dirs : Dirs)
    (hp : p ≠ []) (h : names p = some (Entry.file i)) :
    names.resolve dirs p = some (p, i) := by
  unfold resolve follow
  rw [if_neg hp, h]

theorem follow_place {names : Names} {dirs : Dirs} {n : Nat} {p q : Path}
    {i : Inode} (h : names.follow dirs n p = some (q, i)) :
    names q = some (Entry.file i) := by
  induction n generalizing p with
  | zero => cases h
  | succ n ih =>
      unfold follow at h
      split at h
      · cases h
      · next hp =>
          cases h
          exact hp
      · exact ih h

theorem resolve_place {names : Names} {dirs : Dirs} {p q : Path} {i : Inode}
    (h : names.resolve dirs p = some (q, i)) :
    names q = some (Entry.file i) := by
  unfold resolve at h
  split at h
  · cases h
  · exact follow_place h

def add (names : Names) (p : Path) (e : Entry) : Option Names :=
  if p ≠ [] ∧ names p = none then some (names.put p (some e)) else none

/-- `unlink` does not follow links. -/
def unlink (names : Names) (uid : Uid) (p : Path) : Option Names :=
  match names p with
  | none => none
  | some e => if mayChange uid e.owner then some (names.put p none) else none

/-- `chmod` changes the file that is reached. -/
def chmod (names : Names) (dirs : Dirs) (uid : Uid) (now : Int) (p : Path)
    (perm : Nat) : Option Names :=
  match names.resolve dirs p with
  | none => none
  | some (q, i) =>
      if mayChange uid i.uid then
        some (names.put q
          (some (Entry.file { i with perm := perm, ctime := now })))
      else
        none

theorem add_cases {names names' : Names} {p : Path} {e : Entry}
    (h : names.add p e = some names') :
    p ≠ [] ∧ names p = none ∧ names' = names.put p (some e) := by
  unfold add at h
  split at h
  · next hfree =>
      cases h
      exact ⟨hfree.1, hfree.2, rfl⟩
  · cases h

theorem unlink_cases {names names' : Names} {uid : Uid} {p : Path}
    (h : names.unlink uid p = some names') :
    exists e, names p = some e ∧ mayChange uid e.owner = true ∧
      names' = names.put p none := by
  unfold unlink at h
  split at h
  · cases h
  · next e hp =>
      split at h
      · next hmay =>
          cases h
          exact ⟨e, hp, hmay, rfl⟩
      · cases h

theorem chmod_cases {names names' : Names} {dirs : Dirs} {uid : Uid} {now : Int}
    {p : Path} {perm : Nat} (h : names.chmod dirs uid now p perm = some names') :
    exists q i, names.resolve dirs p = some (q, i) ∧ mayChange uid i.uid = true ∧
      names' = names.put q
        (some (Entry.file { i with perm := perm, ctime := now })) := by
  unfold chmod at h
  split at h
  · cases h
  · next q i hq =>
      split at h
      · next hmay =>
          cases h
          exact ⟨q, i, hq, hmay, rfl⟩
      · cases h

end Names

end Kernel
end Apue
