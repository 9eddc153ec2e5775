import Apue.Overview.Qsort

/-!
# sortls

`main` stores the names of a directory until there are no more or the array is full,
sorts them and prints them.  Whether it warns is decided by the number it stored.
-/

namespace Apue
namespace Sortls

open Foundation Overview

def MAXFILE : Nat := 1000

inductive Message where
  | usage
  | cantOpen (dir : CString)
  | tooManyFiles
  deriving DecidableEq

structure Result where
  stdout : List CString
  stderr : List Message
  status : Nat
  deriving DecidableEq

/-- The loop over `readdir`; `files` are the cells of the array that are assigned.
The name that is read when all are is dropped. -/
def readLoop : List CString -> List CString -> List CString
  | [], files => files
  | d_name :: rest, files =>
      if files.length < MAXFILE then readLoop rest (files ++ [d_name]) else files

/-- The pointers that are sorted are taken for the names themselves. -/
def main (opendir : CString -> Option (List CString)) :
    List CString -> Except Fault Result
  | [_, dir] =>
      match opendir dir with
      | none =>
          Except.ok { stdout := [], stderr := [Message.cantOpen dir], status := 1 }
      | some names =>
          let files := readLoop names []
          let nfiles := files.length
          let stderr := if nfiles ≥ MAXFILE then [Message.tooManyFiles] else []
          match Qsort (fun name => name) MAXFILE files 0 ((nfiles : Int) - 1) with
          | Except.error fault => Except.error fault
          | Except.ok files =>
              Except.ok { stdout := files.take nfiles, stderr := stderr, status := 0 }
  | _ => Except.ok { stdout := [], stderr := [Message.usage], status := 1 }

/-!
# What is printed
-/

theorem readLoop_eq (names files : List CString) :
    readLoop names files = files ++ names.take (MAXFILE - files.length) := by
  induction names generalizing files with
  | nil => simp [readLoop]
  | cons d_name rest ih =>
      rw [readLoop]
      by_cases hlt : files.length < MAXFILE
      · have hroom : MAXFILE - files.length = MAXFILE - (files.length + 1) + 1 := by lia
        rw [if_pos hlt, ih, hroom, List.take_succ_cons, List.length_append]
        simp
      · have hroom : MAXFILE - files.length = 0 := by lia
        rw [if_neg hlt, hroom, List.take_zero, List.append_nil]

def Ordered (names : List CString) : Prop :=
  names.Pairwise (fun s t => strcmp s.bytes t.bytes ≤ 0)

/-- Of a directory that can be opened, the first names are printed in order, and the
warning comes when there are as many as the array has cells. -/
theorem main_prints {opendir : CString -> Option (List CString)}
    {dir : CString} {names : List CString} (arg : CString)
    (h : opendir dir = some names) :
    exists files, files.Perm (names.take MAXFILE) ∧ Ordered files ∧
      main opendir [arg, dir] =
        Except.ok
          { stdout := files
            stderr := if MAXFILE ≤ names.length then [Message.tooManyFiles] else []
            status := 0 } := by
  have hloop : readLoop names [] = names.take MAXFILE := readLoop_eq names []
  have hnfiles : (names.take MAXFILE).length = min MAXFILE names.length :=
    List.length_take
  have hfuel : ((((names.take MAXFILE).length : Nat) : Int) - 1 - 0).toNat < MAXFILE := by
    unfold MAXFILE at hnfiles ⊢
    lia
  rcases @Qsort_ok CString (fun name => name) MAXFILE (names.take MAXFILE) 0 _
      (Int.le_refl 0) (Int.sub_one_lt_of_le (Int.le_refl _)) hfuel with
    ⟨files, hsort, hre, hsorted⟩
  have hlen := hre.length_eq
  refine ⟨files, hre.perm, ?_, ?_⟩
  · rw [← hlen] at hsorted
    exact hsorted.pairwise
  · have hfull : (names.take MAXFILE).length ≥ MAXFILE ↔ MAXFILE ≤ names.length := by
      lia
    rw [main, h]
    dsimp only
    rw [hloop, hsort, ← hlen]
    dsimp only
    rw [List.take_length, hlen]
    simp only [hfull]

/-- What a user expects of the listing of a directory. -/
def Lists (names : List CString) (r : Result) : Prop :=
  r.stdout.Perm (names.take MAXFILE) ∧ Ordered r.stdout ∧
    (Message.tooManyFiles ∈ r.stderr ↔ MAXFILE < names.length)

/-- The warning is right about all directories but those that just fill the array. -/
theorem lists_iff {opendir : CString -> Option (List CString)} {dir : CString}
    {names : List CString} (arg : CString) (h : opendir dir = some names) :
    (exists r, main opendir [arg, dir] = Except.ok r ∧ Lists names r) ↔
      names.length ≠ MAXFILE := by
  rcases main_prints arg h with ⟨files, hperm, hsorted, hrun⟩
  rw [hrun]
  constructor
  · rintro ⟨r, hr, _, _, hwarn⟩ heq
    cases hr
    rw [heq, if_pos (Nat.le_refl _)] at hwarn
    exact Nat.lt_irrefl _ (hwarn.mp List.mem_cons_self)
  · intro hne
    refine ⟨_, rfl, hperm, hsorted, ?_⟩
    dsimp only
    split
    · next hle =>
        exact iff_of_true List.mem_cons_self (Nat.lt_of_le_of_ne hle hne.symm)
    · next hlt =>
        exact iff_of_false List.not_mem_nil (fun hgt => hlt (Nat.le_of_lt hgt))

def dotName : CString :=
  CString.ofBytes [46] rfl

def dotDotName : CString :=
  CString.ofBytes [46, 46] rfl

theorem lists_iff_empty :
    (exists r, main (fun _ => some [dotDotName, dotName]) [dotName, dotName] =
        Except.ok r ∧ Lists [dotDotName, dotName] r) ↔
      [dotDotName, dotName].length ≠ MAXFILE :=
  lists_iff dotName rfl

/-- A name of ten letters that spells a number below 1024 in binary, with `a` and `b`
as the digits. -/
def numbered (n : Nat) : CString where
  bytes := (List.range 10).map (fun k => if n.testBit k then 98 else 97)
  nulFree := by
    intro b hb
    rcases List.mem_map.mp hb with ⟨k, _, hk⟩
    rw [← hk]
    split <;> decide

def fullListing : List CString :=
  dotName :: dotDotName :: (List.range 998).map numbered

/-- Every name of this directory is printed, and the warning as well. -/
theorem full_listing_warned :
    fullListing.length = MAXFILE ∧
      exists r, main (fun _ => some fullListing) [dotName, dotName] = Except.ok r ∧
        r.stdout.Perm fullListing ∧ Message.tooManyFiles ∈ r.stderr ∧
        ¬ Lists fullListing r := by
  have hlen : fullListing.length = MAXFILE := by
    simp [fullListing, MAXFILE]
  let opendir (_ : CString) : Option (List CString) := some fullListing
  have hopendir : opendir dotName = some fullListing := rfl
  rcases main_prints dotName hopendir with ⟨files, hperm, _, hrun⟩
  rw [List.take_of_length_le (Nat.le_of_eq hlen)] at hperm
  rw [hlen, if_pos (Nat.le_refl _)] at hrun
  refine ⟨hlen, _, hrun, hperm, List.mem_cons_self, ?_⟩
  rintro ⟨_, _, hwarn⟩
  rw [hlen] at hwarn
  exact Nat.lt_irrefl _ (hwarn.mp List.mem_cons_self)

end Sortls
end Apue
