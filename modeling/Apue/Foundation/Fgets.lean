import Mathlib.Data.List.TakeWhile
import Apue.Foundation.CString

/-!
# Lines of a stream

`fgets` takes bytes up to and including the first newline, but never more than
fit into its buffer together with a terminator, so a long line comes in several
pieces.  A zero byte is a byte like any other to `fgets`; what the caller then
sees of the piece as a string ends before it.
-/

namespace Apue
namespace Foundation

def newline : Byte := 10

/-- At most `n` bytes, up to and including the first newline, and what is left
of the stream. -/
def takeLine : Nat -> List Byte -> List Byte × List Byte
  | 0, input => ([], input)
  | _ + 1, [] => ([], [])
  | n + 1, x :: rest =>
      if x = newline then
        ([x], rest)
      else
        (x :: (takeLine n rest).1, (takeLine n rest).2)

/-- `fgets` into a buffer of `size` bytes: the bytes that it stores before the
terminator and what is left of the stream; nothing at the end of the stream. -/
def fgets (size : Nat) : List Byte -> Option (List Byte × List Byte)
  | [] => none
  | x :: rest => some (takeLine (size - 1) (x :: rest))

theorem takeLine_append (n : Nat) (input : List Byte) :
    (takeLine n input).1 ++ (takeLine n input).2 = input := by
  induction n generalizing input with
  | zero => rfl
  | succ n ih =>
      cases input with
      | nil => rfl
      | cons x rest =>
          unfold takeLine
          split
          · rfl
          · rw [List.cons_append, ih rest]

theorem takeLine_length (n : Nat) (input : List Byte) :
    (takeLine n input).1.length ≤ n := by
  induction n generalizing input with
  | zero => exact Nat.le_refl 0
  | succ n ih =>
      cases input with
      | nil => exact Nat.zero_le _
      | cons x rest =>
          unfold takeLine
          split
          · exact Nat.succ_le_succ (Nat.zero_le n)
          · exact Nat.succ_le_succ (ih rest)

theorem takeLine_ne_nil (n : Nat) (x : Byte) (rest : List Byte) :
    (takeLine (n + 1) (x :: rest)).1 ≠ [] := by
  unfold takeLine
  split
  · exact List.cons_ne_nil _ _
  · exact List.cons_ne_nil _ _

/-- The whole stream is one piece when it fits and has no newline before its
end. -/
theorem takeLine_whole_iff (n : Nat) (input : List Byte) :
    (takeLine n input).2 = [] ↔
      input.length ≤ n ∧ newline ∉ input.dropLast := by
  induction n generalizing input with
  | zero =>
      change input = [] ↔ _
      constructor
      · intro h
        rw [h]
        exact ⟨Nat.le_refl 0, List.not_mem_nil⟩
      · intro h
        exact List.length_eq_zero_iff.mp (Nat.le_zero.mp h.1)
  | succ n ih =>
      cases input with
      | nil =>
          constructor
          · intro _
            exact ⟨Nat.zero_le _, List.not_mem_nil⟩
          · intro _
            rfl
      | cons x rest =>
          unfold takeLine
          cases rest with
          | nil =>
              constructor
              · intro _
                exact ⟨Nat.succ_le_succ (Nat.zero_le n), List.not_mem_nil⟩
              · intro _
                split
                · rfl
                · exact (ih []).mpr ⟨Nat.zero_le n, List.not_mem_nil⟩
          | cons y rest =>
              rw [List.dropLast_cons_cons, List.mem_cons, not_or,
                List.length_cons, Nat.succ_le_succ_iff]
              split
              · next hx =>
                  constructor
                  · intro h
                    cases h
                  · intro h
                    exact absurd hx.symm h.2.1
              · next hx =>
                  rw [ih (y :: rest)]
                  constructor
                  · intro h
                    exact ⟨h.1, fun heq => hx heq.symm, h.2⟩
                  · intro h
                    exact ⟨h.1, h.2.2⟩

theorem fgets_eq_none {size : Nat} {input : List Byte} :
    fgets size input = none ↔ input = [] := by
  cases input with
  | nil => exact ⟨fun _ => rfl, fun _ => rfl⟩
  | cons x rest =>
      constructor
      · intro h
        cases h
      · intro h
        cases h

/-- A piece is not empty, fits with its terminator, and is taken from the
front of the stream. -/
theorem fgets_some {size : Nat} {input line rest : List Byte}
    (hsize : 2 ≤ size) (h : fgets size input = some (line, rest)) :
    line ++ rest = input ∧ line ≠ [] ∧ line.length < size := by
  cases input with
  | nil => cases h
  | cons x tail =>
      have htake : takeLine (size - 1) (x :: tail) = (line, rest) :=
        Option.some.inj h
      have happend := takeLine_append (size - 1) (x :: tail)
      have hlength := takeLine_length (size - 1) (x :: tail)
      have hne := takeLine_ne_nil (size - 2) x tail
      rw [show size - 2 + 1 = size - 1 by lia] at hne
      rw [htake] at happend hlength hne
      exact ⟨happend, hne, by lia⟩

/-- A piece is the last one when all of the input fits and has no newline before
its end. -/
theorem fgets_last_iff {size : Nat} {input line rest : List Byte}
    (h : fgets size input = some (line, rest)) :
    rest = [] ↔ input.length ≤ size - 1 ∧ newline ∉ input.dropLast := by
  cases input with
  | nil => cases h
  | cons x tail =>
      have htake : takeLine (size - 1) (x :: tail) = (line, rest) :=
        Option.some.inj h
      have hiff := takeLine_whole_iff (size - 1) (x :: tail)
      rw [htake] at hiff
      exact hiff

theorem str_of_nulFree {line : List Byte} (h : forall b, b ∈ line -> b ≠ 0) :
    str line = line := by
  unfold str
  induction line with
  | nil => rfl
  | cons x rest ih =>
      have hx : x ≠ 0 := h x List.mem_cons_self
      rw [List.takeWhile_cons_of_pos (by simpa using hx),
        ih (fun b hb => h b (List.mem_cons_of_mem x hb))]

theorem str_eq_self_iff (s : List Byte) :
    str s = s ↔ forall b, b ∈ s -> b ≠ 0 := by
  unfold str
  rw [List.takeWhile_eq_self_iff]
  simp only [decide_eq_true_eq]

theorem str_length_le (s : List Byte) : (str s).length ≤ s.length :=
  (List.takeWhile_prefix _).length_le

theorem flatMap_str_length_le (ss : List (List Byte)) :
    (ss.flatMap str).length ≤ ss.flatten.length := by
  induction ss with
  | nil => exact Nat.le_refl 0
  | cons s rest ih =>
      rw [List.flatMap_cons, List.flatten_cons, List.length_append,
        List.length_append]
      exact Nat.add_le_add (str_length_le s) ih

/-- What texts show as strings is all of them exactly when there is no zero byte
in them. -/
theorem flatMap_str_eq_iff (ss : List (List Byte)) :
    ss.flatMap str = ss.flatten ↔ forall b, b ∈ ss.flatten -> b ≠ 0 := by
  induction ss with
  | nil => exact iff_of_true rfl (fun b hb => nomatch hb)
  | cons s rest ih =>
      rw [List.flatMap_cons, List.flatten_cons]
      constructor
      · intro h
        -- a byte that is missing in `s` is not made up for by the rest
        have hlen := congrArg List.length h
        have hs := str_length_le s
        have hrest := flatMap_str_length_le rest
        rw [List.length_append, List.length_append] at hlen
        rcases List.append_inj h (by lia) with ⟨hstr, hss⟩
        intro b hb
        rcases List.mem_append.mp hb with hb | hb
        · exact (str_eq_self_iff s).mp hstr b hb
        · exact ih.mp hss b hb
      · intro h
        rw [(str_eq_self_iff s).mpr (fun b hb => h b (List.mem_append_left _ hb)),
          ih.mpr (fun b hb => h b (List.mem_append_right _ hb))]

/-!
# The loop over all pieces
-/

def pieces (size : Nat) : Nat -> List Byte -> List (List Byte)
  | 0, _ => []
  | n + 1, input =>
      match fgets size input with
      | none => []
      | some (line, rest) => line :: pieces size n rest

def chunks (size : Nat) (input : List Byte) : List (List Byte) :=
  pieces size input.length input

theorem pieces_enough {size : Nat} (hsize : 2 ≤ size) {n m : Nat}
    {input : List Byte} (hn : input.length ≤ n) (hm : input.length ≤ m) :
    pieces size n input = pieces size m input := by
  induction n generalizing m input with
  | zero =>
      have hnil := List.length_eq_zero_iff.mp (Nat.le_zero.mp hn)
      rw [hnil]
      cases m with
      | zero => rfl
      | succ m => rfl
  | succ n ih =>
      cases m with
      | zero =>
          have hnil := List.length_eq_zero_iff.mp (Nat.le_zero.mp hm)
          rw [hnil]
          rfl
      | succ m =>
          unfold pieces
          cases h : fgets size input with
          | none => rfl
          | some piece =>
              rcases piece with ⟨line, rest⟩
              rcases fgets_some hsize h with ⟨happend, hne, _⟩
              have hpos := List.length_pos_iff.mpr hne
              have hlen := congrArg List.length happend
              rw [List.length_append] at hlen
              change line :: pieces size n rest = line :: pieces size m rest
              have hle : rest.length ≤ n := by lia
              have hle' : rest.length ≤ m := by lia
              rw [ih hle hle']

theorem chunks_of_fgets {size : Nat} (hsize : 2 ≤ size)
    {input line rest : List Byte}
    (h : fgets size input = some (line, rest)) :
    chunks size input = line :: chunks size rest := by
  rcases fgets_some hsize h with ⟨happend, hne, _⟩
  have hpos := List.length_pos_iff.mpr hne
  have hlen := congrArg List.length happend
  rw [List.length_append] at hlen
  unfold chunks
  rw [pieces_enough hsize (Nat.le_refl _) (Nat.le_succ input.length)]
  rw [pieces, h]
  change line :: pieces size input.length rest = _
  rw [pieces_enough hsize (n := input.length) (m := rest.length) (by lia)
    (Nat.le_refl _)]

theorem pieces_flatten {size : Nat} (hsize : 2 ≤ size) {n : Nat}
    {input : List Byte} (hn : input.length ≤ n) :
    (pieces size n input).flatten = input := by
  induction n generalizing input with
  | zero => exact (List.length_eq_zero_iff.mp (Nat.le_zero.mp hn)).symm
  | succ n ih =>
      unfold pieces
      cases h : fgets size input with
      | none => exact (fgets_eq_none.mp h).symm
      | some piece =>
          rcases piece with ⟨line, rest⟩
          rcases fgets_some hsize h with ⟨happend, hne, _⟩
          have hpos := List.length_pos_iff.mpr hne
          have hlen := congrArg List.length happend
          rw [List.length_append] at hlen
          change line ++ (pieces size n rest).flatten = input
          rw [ih (by lia), happend]

theorem chunks_flatten {size : Nat} (hsize : 2 ≤ size) (input : List Byte) :
    (chunks size input).flatten = input :=
  pieces_flatten hsize (Nat.le_refl _)

/-!
# Lines that fit
-/

/-- The lines of a text without their newlines; the last one need not have a
newline. -/
def lines : List Byte -> List (List Byte)
  | [] => []
  | c :: rest =>
      if c = newline then
        [] :: lines rest
      else
        match lines rest with
        | [] => [[c]]
        | l :: ls => (c :: l) :: ls

theorem lines_of_newline (rest : List Byte) :
    lines (newline :: rest) = [] :: lines rest := by
  simp [lines]

theorem lines_eq_nil {input : List Byte} (h : lines input = []) : input = [] := by
  cases input with
  | nil => rfl
  | cons c rest =>
      unfold lines at h
      split at h
      · cases h
      · split at h
        · cases h
        · cases h

theorem lines_cons {c : Byte} {rest l : List Byte} {ls : List (List Byte)}
    (hc : c ≠ newline) (h : lines (c :: rest) = l :: ls) :
    (rest = [] ∧ l = [c] ∧ ls = []) ∨
      exists l', lines rest = l' :: ls ∧ l = c :: l' := by
  unfold lines at h
  rw [if_neg hc] at h
  cases hrest : lines rest with
  | nil =>
      rw [hrest] at h
      cases h
      exact Or.inl ⟨lines_eq_nil hrest, rfl, rfl⟩
  | cons l' ls' =>
      rw [hrest] at h
      cases h
      exact Or.inr ⟨l', rfl, rfl⟩

theorem newline_not_mem_lines {input l : List Byte} (h : l ∈ lines input) :
    newline ∉ l := by
  induction input generalizing l with
  | nil => cases h
  | cons c rest ih =>
      by_cases hc : c = newline
      · rw [hc, lines_of_newline] at h
        rcases List.mem_cons.mp h with heq | hrest
        · rw [heq]
          exact List.not_mem_nil
        · exact ih hrest
      · cases hall : lines (c :: rest) with
        | nil =>
            rw [hall] at h
            cases h
        | cons first ls =>
            rw [hall] at h
            rcases lines_cons hc hall with ⟨_, hfirst, hls⟩ | ⟨l', hrest, hfirst⟩
            · rw [hfirst, hls] at h
              rw [List.mem_singleton.mp h]
              simpa using fun heq => hc heq.symm
            · rcases List.mem_cons.mp h with heq | hmem
              · rw [heq, hfirst, List.mem_cons, not_or]
                refine ⟨fun heq => hc heq.symm, ih ?_⟩
                rw [hrest]
                exact List.mem_cons_self
              · apply ih
                rw [hrest]
                exact List.mem_cons_of_mem l' hmem

theorem takeLine_line {n : Nat} {input l : List Byte} {ls : List (List Byte)}
    (h : lines input = l :: ls) (hlen : l.length < n) :
    (exists rest, takeLine n input = (l ++ [newline], rest) ∧ lines rest = ls) ∨
      (takeLine n input = (l, []) ∧ l ≠ [] ∧ ls = []) := by
  induction n generalizing input l with
  | zero => exact absurd hlen (Nat.not_lt_zero _)
  | succ n ih =>
      cases input with
      | nil => cases h
      | cons c rest =>
          unfold takeLine
          by_cases hc : c = newline
          · rw [hc, lines_of_newline] at h
            cases h
            rw [if_pos hc, hc]
            exact Or.inl ⟨rest, rfl, rfl⟩
          · rw [if_neg hc]
            rcases lines_cons hc h with ⟨hrest, hl, hls⟩ | ⟨l', hrest, hl⟩
            · rw [hrest, hl, hls]
              right
              cases n with
              | zero => exact ⟨rfl, List.cons_ne_nil c [], rfl⟩
              | succ n => exact ⟨rfl, List.cons_ne_nil c [], rfl⟩
            · rw [hl] at hlen ⊢
              rcases ih hrest (Nat.lt_of_succ_lt_succ hlen) with
                ⟨rest', htake, hlines⟩ | ⟨htake, _, hls⟩
              · rw [htake]
                exact Or.inl ⟨rest', rfl, hlines⟩
              · rw [htake]
                exact Or.inr ⟨rfl, List.cons_ne_nil c l', hls⟩

def PieceOf (piece l : List Byte) : Prop :=
  piece = l ++ [newline] ∨ (piece = l ∧ l ≠ [])

theorem fgets_line {size : Nat} {input l : List Byte} {ls : List (List Byte)}
    (h : lines input = l :: ls) (hlen : l.length < size - 1) :
    exists piece rest, fgets size input = some (piece, rest) ∧
      PieceOf piece l ∧ lines rest = ls := by
  cases input with
  | nil => cases h
  | cons c tail =>
      rcases takeLine_line h hlen with ⟨rest, htake, hlines⟩ | ⟨htake, hne, hls⟩
      · exact ⟨_, rest, congrArg some htake, Or.inl rfl, hlines⟩
      · exact ⟨_, [], congrArg some htake, Or.inr ⟨rfl, hne⟩, hls.symm⟩

/-!
# A stream that arrives bit by bit

`fgets` can answer before the end of the stream as soon as it has a newline or
enough bytes; what comes later does not change the answer.
-/

theorem takeLine_cons_of_ne {n : Nat} {x : Byte} {rest : List Byte} (hx : x ≠ newline) :
    takeLine (n + 1) (x :: rest) = (x :: (takeLine n rest).1, (takeLine n rest).2) :=
  if_neg hx

theorem takeLine_append_of {n : Nat} {input : List Byte}
    (h : newline ∈ input ∨ n ≤ input.length) (more : List Byte) :
    takeLine n (input ++ more) = ((takeLine n input).1, (takeLine n input).2 ++ more) := by
  induction n generalizing input with
  | zero => rfl
  | succ n ih =>
      cases input with
      | nil =>
          rcases h with hmem | hle
          · cases hmem
          · exact absurd hle (Nat.not_succ_le_zero n)
      | cons x rest =>
          rw [List.cons_append]
          by_cases hx : x = newline
          · unfold takeLine
            rw [if_pos hx, if_pos hx]
          · rw [takeLine_cons_of_ne hx, takeLine_cons_of_ne hx]
            have hrest : newline ∈ rest ∨ n ≤ rest.length := by
              rcases h with hmem | hle
              · rcases List.mem_cons.mp hmem with heq | hmem
                · exact absurd heq.symm hx
                · exact Or.inl hmem
              · exact Or.inr (Nat.le_of_succ_le_succ hle)
            rw [ih hrest]

theorem fgets_append_of {size : Nat} (hsize : 2 ≤ size) {input : List Byte}
    (h : newline ∈ input ∨ size - 1 ≤ input.length) :
    exists line rest, fgets size input = some (line, rest) ∧
      forall more, fgets size (input ++ more) = some (line, rest ++ more) := by
  cases input with
  | nil =>
      rcases h with hmem | hle
      · cases hmem
      · have hlt : 0 < size - 1 := by lia
        exact absurd hle (Nat.not_le_of_lt hlt)
  | cons x tail =>
      refine ⟨_, _, rfl, ?_⟩
      intro more
      exact congrArg some (takeLine_append_of h more)

/-- What has been taken does not depend on what is left, unless all of it was
taken. -/
theorem takeLine_of_left {n : Nat} {input line rest : List Byte}
    (h : takeLine n input = (line, rest)) (hrest : rest ≠ []) (more : List Byte) :
    takeLine n (line ++ more) = (line, more) := by
  induction n generalizing input line with
  | zero =>
      cases h
      rfl
  | succ n ih =>
      cases input with
      | nil =>
          cases h
          exact absurd rfl hrest
      | cons x tail =>
          unfold takeLine at h
          by_cases hx : x = newline
          · rw [if_pos hx] at h
            cases h
            show takeLine (n + 1) (x :: more) = _
            unfold takeLine
            rw [if_pos hx]
          · rw [if_neg hx] at h
            cases h
            show takeLine (n + 1) (x :: ((takeLine n tail).1 ++ more)) = _
            rw [takeLine_cons_of_ne hx, ih rfl]

theorem chunks_flatten_front {size : Nat} (hsize : 2 ≤ size) {input : List Byte}
    {ls ms : List (List Byte)} (h : chunks size input = ls ++ ms) :
    chunks size ls.flatten = ls := by
  induction ls generalizing input with
  | nil => rfl
  | cons l ls ih =>
      cases hget : fgets size input with
      | none =>
          rw [fgets_eq_none.mp hget] at h
          cases h
      | some piece =>
          rcases piece with ⟨line, rest⟩
          rw [chunks_of_fgets hsize hget] at h
          rcases List.cons.inj h with ⟨hline, hrest⟩
          have hls := ih hrest
          rcases fgets_some hsize hget with ⟨happend, hne, _⟩
          rw [hline] at hget happend hne
          cases input with
          | nil => cases hget
          | cons x tail =>
              have htake : takeLine (size - 1) (x :: tail) = (l, rest) :=
                Option.some.inj hget
              have hagain : takeLine (size - 1) (l ++ ls.flatten) = (l, ls.flatten) := by
                by_cases hnil : rest = []
                · -- `l` is all of the input, so nothing comes behind it
                  rw [hnil] at hrest happend htake
                  have hls' : ls = [] := (List.append_eq_nil_iff.mp hrest.symm).1
                  rw [hls', List.flatten_nil, List.append_nil]
                  rw [List.append_nil] at happend
                  rw [happend]
                  rw [happend] at htake
                  exact htake
                · exact takeLine_of_left htake hnil ls.flatten
              cases l with
              | nil => exact absurd rfl hne
              | cons y l =>
                  have hfirst : fgets size ((y :: l) :: ls).flatten =
                      some (y :: l, ls.flatten) := congrArg some hagain
                  rw [chunks_of_fgets hsize hfirst, hls]

end Foundation
end Apue
