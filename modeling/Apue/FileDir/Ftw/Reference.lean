import Apue.FileDir.Ftw.Model

/-!
# The reference traversal

A finite file tree, as `lstat`, `opendir` and `readdir` show it, and the
preorder sequence of reports a walk of it should make.  Failures are part of the
tree, so every pattern of failures is covered.
-/

namespace Apue
namespace Ftw

open Foundation

/-- A file as the system calls show it: `lstat` fails on it, it is not a
directory, it is a directory that cannot be opened, or it is a directory with
the listing that `readdir` returns and a file for each name. -/
inductive Node where
  | noStat
  | file (st : Stat)
  | unreadable (st : Stat)
  | dir (st : Stat) (listing : List CString) (sub : CString -> Node)

/-- The names other than `.` and `..`. -/
def entries (listing : List CString) : List CString :=
  listing.filter (fun name => isDots name = false)

def slashString : CString :=
  CString.ofBytes [slash] rfl

/-- The path of the directory as it is opened: with a slash behind it. -/
def within (p : CString) : CString :=
  p.append slashString

def child (p name : CString) : CString :=
  (within p).append name

theorem within_length (p : CString) : (within p).length = p.length + 1 :=
  CString.append_length p slashString

theorem child_length (p name : CString) :
    (child p name).length = p.length + 1 + name.length := by
  unfold child
  rw [CString.append_length, within_length]

def trace (p : CString) : Node -> List Call
  | Node.noStat =>
      [{ path := p.bytes, stat := none, type := Typeflag.FTW_NS }]
  | Node.file st =>
      [{ path := p.bytes, stat := some st, type := Typeflag.FTW_F }]
  | Node.unreadable st =>
      [{ path := p.bytes, stat := some st, type := Typeflag.FTW_D },
       { path := (within p).bytes, stat := some st, type := Typeflag.FTW_DNR }]
  | Node.dir st listing sub =>
      { path := p.bytes, stat := some st, type := Typeflag.FTW_D } ::
        (entries listing).flatMap (fun name => trace (child p name) (sub name))

def height : Node -> Nat
  | Node.noStat => 0
  | Node.file _ => 0
  | Node.unreadable _ => 0
  | Node.dir _ listing sub =>
      ((entries listing).map (fun name => height (sub name) + 1)).foldr max 0

theorem le_foldr_max {xs : List Nat} {x : Nat} (h : x ∈ xs) :
    x ≤ xs.foldr max 0 := by
  induction xs with
  | nil =>
      cases h
  | cons y ys ih =>
      rcases List.mem_cons.mp h with heq | hmem
      · rw [heq]
        exact Nat.le_max_left _ _
      · exact Nat.le_trans (ih hmem) (Nat.le_max_right _ _)

theorem height_sub_lt (st : Stat) {listing : List CString}
    (sub : CString -> Node) {name : CString} (h : name ∈ entries listing) :
    height (sub name) < height (Node.dir st listing sub) :=
  le_foldr_max (List.mem_map.mpr ⟨name, h, rfl⟩)

/-- The kernel shows this file at the path `p`. -/
def Describes (k : FileSystem) (p : CString) : Node -> Prop
  | Node.noStat => k.lstat p.bytes = none
  | Node.file st => k.lstat p.bytes = some st ∧ st.isDir = false
  | Node.unreadable st =>
      k.lstat p.bytes = some st ∧ st.isDir = true ∧
        k.opendir (within p).bytes = none
  | Node.dir st listing sub =>
      k.lstat p.bytes = some st ∧ st.isDir = true ∧
        k.opendir (within p).bytes = some listing ∧
        forall name, name ∈ entries listing ->
          Describes k (child p name) (sub name)

/-- Every path of the walk, with its terminator, fits `size` bytes. -/
def Fits (size : Nat) (p : CString) : Node -> Prop
  | Node.noStat => p.length < size
  | Node.file _ => p.length < size
  | Node.unreadable _ => (within p).length < size
  | Node.dir _ listing sub =>
      (within p).length < size ∧
        forall name, name ∈ entries listing ->
          Fits size (child p name) (sub name)

theorem Fits.length_lt {size : Nat} {p : CString} {t : Node}
    (h : Fits size p t) : p.length < size := by
  have hwithin := within_length p
  cases t with
  | noStat => exact h
  | file st => exact h
  | unreadable st =>
      change (within p).length < size at h
      lia
  | dir st listing sub =>
      have hlt := h.1
      lia

end Ftw
end Apue
