import Apue.Foundation.Callback
import Apue.Foundation.CString
import Apue.Kernel.Files

/-!
# myftw and dopath

The traversal keeps the full pathname of the current file in one buffer that
every level of the recursion edits in place.  The kernel answers `lstat` and
`opendir` by the path that the buffer spells at that moment.
-/

namespace Apue
namespace Ftw

open Foundation Kernel

def slash : Byte := 47
def dot : Byte := 46

structure Stat where
  st_mode : FileType
  deriving Repr, DecidableEq

def Stat.isDir (st : Stat) : Bool :=
  st.st_mode = FileType.S_IFDIR

inductive Typeflag where
  | FTW_F
  | FTW_D
  | FTW_DNR
  | FTW_NS
  deriving Repr, DecidableEq

/-- One call of the caller's function; when `lstat` failed there is nothing
meaningful in the status buffer. -/
structure Call where
  path : List Byte
  stat : Option Stat
  type : Typeflag
  deriving Repr, DecidableEq

abbrev Myfunc := Callback Call

structure FileSystem where
  lstat : List Byte -> Option Stat
  opendir : List Byte -> Option (List CString)
  closedir : Nat -> Bool

/-- What `err_ret` prints. -/
inductive Message where
  | cantCloseDirectory (path : List Byte)
  deriving Repr, DecidableEq

/-- The traversal's state: the buffer, the calls made so far, the directory
streams opened so far (numbered from 0), those closed, and the messages. -/
structure Walk where
  fullpath : Buffer
  calls : List Call
  opened : Nat
  closed : List Nat
  messages : List Message
  deriving Repr, DecidableEq

inductive Fault where
  | overflow (index : Nat)
  | outOfFuel
  | exited
  deriving Repr, DecidableEq

/-!
# path_alloc
-/

def SUSV3 : Int := 201112
def PATH_MAX_GUESS : Nat := 1024

inductive PathconfAnswer where
  | limit (n : Nat)
  | indeterminate
  | error
  deriving Repr, DecidableEq

/-- What the system tells `path_alloc`: the constant of the header when it is
defined, the version of the standard, and the answer of `pathconf`. -/
structure PathConfig where
  PATH_MAX : Option Nat
  posix_version : Int
  pathconf : PathconfAnswer
  deriving Repr, DecidableEq

def pathmax (cfg : PathConfig) : Option Nat :=
  match cfg.PATH_MAX with
  | some n => some n
  | none =>
      match cfg.pathconf with
      | PathconfAnswer.limit n => some (n + 1)
      | PathconfAnswer.indeterminate => some PATH_MAX_GUESS
      | PathconfAnswer.error => none

def path_alloc (cfg : PathConfig) : Option Nat :=
  match pathmax cfg with
  | none => none
  | some n => if cfg.posix_version < SUSV3 then some (n + 1) else some n

/-!
# dopath
-/

def Walk.path (w : Walk) : List Byte :=
  str w.fullpath

/-- `func(fullpath, &statbuf, type)`: the answer, with the call recorded. -/
def Walk.report (w : Walk) (func : Myfunc) (stat : Option Stat)
    (type : Typeflag) : Int × Walk :=
  let call : Call := { path := w.path, stat := stat, type := type }
  (func w.calls call, { w with calls := w.calls ++ [call] })

def Walk.edit (w : Walk) (stored : Except Nat Buffer)
    (next : Walk -> Except Fault (Int × Walk)) : Except Fault (Int × Walk) :=
  match stored with
  | Except.error i => Except.error (Fault.overflow i)
  | Except.ok b => next { w with fullpath := b }

def Walk.closedir (w : Walk) (k : FileSystem) (dp : Nat) : Walk :=
  let w := { w with closed := w.closed ++ [dp] }
  if k.closedir dp then
    w
  else
    { w with messages := w.messages ++ [Message.cantCloseDirectory w.path] }

def isDots (name : CString) : Bool :=
  name.bytes = [dot] || name.bytes = [dot, dot]

/-- The `while` loop over `readdir`; `ptr` is the position behind the slash and
`walk` the recursive call. -/
def readLoop (walk : Walk -> Except Fault (Int × Walk)) (ptr : Nat) :
    List CString -> Int -> Walk -> Except Fault (Int × Walk)
  | [], ret, w => Except.ok (ret, w)
  | name :: rest, ret, w =>
      if isDots name then
        readLoop walk ptr rest ret w
      else
        w.edit (strcpy w.fullpath ptr name.bytes) fun w =>
          match walk w with
          | Except.error fault => Except.error fault
          | Except.ok (ret, w) =>
              if ret ≠ 0 then
                Except.ok (ret, w)
              else
                readLoop walk ptr rest ret w

def dopath (k : FileSystem) (func : Myfunc) :
    Nat -> Walk -> Except Fault (Int × Walk)
  | 0, _ => Except.error Fault.outOfFuel
  | fuel + 1, w =>
      match k.lstat w.path with
      | none => Except.ok (w.report func none Typeflag.FTW_NS)
      | some st =>
          if st.isDir = false then
            Except.ok (w.report func (some st) Typeflag.FTW_F)
          else
            let (ret, w) := w.report func (some st) Typeflag.FTW_D
            if ret ≠ 0 then
              Except.ok (ret, w)
            else
              let len := w.path.length
              w.edit (poke w.fullpath len slash) fun w =>
                w.edit (poke w.fullpath (len + 1) 0) fun w =>
                  match k.opendir w.path with
                  | none =>
                      Except.ok (w.report func (some st) Typeflag.FTW_DNR)
                  | some listing =>
                      let dp := w.opened
                      let w := { w with opened := w.opened + 1 }
                      match readLoop (dopath k func fuel) (len + 1) listing
                          ret w with
                      | Except.error fault => Except.error fault
                      | Except.ok (ret, w) =>
                          w.edit (poke w.fullpath len 0) fun w =>
                            Except.ok (ret, w.closedir k dp)

/-- `myftw` copies the pathname into the buffer, cut off to what fits. -/
def myftw (cfg : PathConfig) (k : FileSystem) (func : Myfunc) (fuel : Nat)
    (pathname : CString) : Except Fault (Int × Walk) :=
  match path_alloc cfg with
  | none => Except.error Fault.exited
  | some len =>
      let w : Walk :=
        { fullpath := strncpy pathname.bytes len, calls := [], opened := 0,
          closed := [], messages := [] }
      w.edit (poke w.fullpath (len - 1) 0) (dopath k func fuel)

end Ftw
end Apue
