import Apue.Foundation.Interleave
import Apue.Foundation.Transition
import Mathlib.Logic.Function.Basic

/-!
# Buffered output to one file

A writer puts its elements into a buffer, which is written out when it is due, and at
the end in any case.  Several writers have buffers of their own and one file, which is
always written at its end.  What they write are portions, and the outputs there can be
are the interleavings of the portions.
-/

namespace Apue
namespace Foundation

universe u v

structure Writer (α : Type u) where
  todo : List α
  buf : List α
  deriving Repr, DecidableEq

structure Writers (ι : Type v) (α : Type u) where
  out : List α
  writers : ι -> Option (Writer α)

section

variable {α : Type u} {ι : Type v} (flushes : List α -> Bool)

/-- One element is put into the stream, or the writer ends; what is written out, and
what becomes of the writer. -/
def Writer.put (w : Writer α) : List α × Option (Writer α) :=
  match w.todo with
  | [] => (w.buf, none)
  | x :: rest =>
      if flushes (w.buf ++ [x]) then
        (w.buf ++ [x], some { todo := rest, buf := [] })
      else
        ([], some { todo := rest, buf := w.buf ++ [x] })

/-- What is written at one time. -/
def portions : List α -> List α -> List (List α)
  | [], [] => []
  | x :: buf, [] => [x :: buf]
  | buf, x :: rest =>
      if flushes (buf ++ [x]) then (buf ++ [x]) :: portions [] rest else portions (buf ++ [x]) rest

def portionsOf : Option (Writer α) -> List (List α)
  | none => []
  | some w => portions flushes w.buf w.todo

theorem portions_cons (buf : List α) (x : α) (rest : List α) :
    portions flushes buf (x :: rest) =
      if flushes (buf ++ [x]) then (buf ++ [x]) :: portions flushes [] rest
      else portions flushes (buf ++ [x]) rest := by
  cases buf with
  | _ => rfl

theorem portions_flatten (buf todo : List α) :
    (portions flushes buf todo).flatten = buf ++ todo := by
  induction todo generalizing buf with
  | nil =>
      cases buf with
      | nil => rfl
      | cons x rest => rfl
  | cons x rest ih =>
      rw [portions_cons]
      split
      · rw [List.flatten_cons, ih, List.append_assoc]
        rfl
      · rw [ih, List.append_assoc]
        rfl

theorem portions_append {buf xs : List α} (rest : List α)
    (h : forall p, p ≠ [] -> p <+: xs -> flushes (buf ++ p) = false) :
    portions flushes buf (xs ++ rest) = portions flushes (buf ++ xs) rest := by
  induction xs generalizing buf with
  | nil => rw [List.nil_append, List.append_nil]
  | cons x xs ih =>
      have hfirst := h [x] (List.cons_ne_nil x []) ⟨xs, rfl⟩
      rw [List.cons_append, portions_cons, hfirst, if_neg (by decide), ih]
      · rw [List.append_assoc]
        rfl
      · intro p hp hfront
        rw [List.append_assoc]
        exact h (x :: p) (List.cons_ne_nil x p) (List.prefix_cons_inj x |>.mpr hfront)

theorem portions_of_always {todo : List α} (h : forall b, flushes b = true) :
    portions flushes [] todo = todo.map (fun x => [x]) := by
  induction todo with
  | nil => rfl
  | cons x rest ih =>
      rw [portions_cons, h, if_pos rfl, ih]
      rfl

def putAll : List α -> List α -> List α × List α
  | buf, [] => ([], buf)
  | buf, x :: rest =>
      if flushes (buf ++ [x]) then
        (buf ++ [x] ++ (putAll [] rest).1, (putAll [] rest).2)
      else
        putAll (buf ++ [x]) rest

theorem putAll_append {buf xs : List α} (rest : List α)
    (h : forall p, p ≠ [] -> p <+: xs -> flushes (buf ++ p) = false) :
    putAll flushes buf (xs ++ rest) = putAll flushes (buf ++ xs) rest := by
  induction xs generalizing buf with
  | nil => rw [List.nil_append, List.append_nil]
  | cons x xs ih =>
      have hfirst := h [x] (List.cons_ne_nil x []) ⟨xs, rfl⟩
      rw [List.cons_append, putAll, hfirst, if_neg (by decide), ih]
      · rw [List.append_assoc]
        rfl
      · intro p hp hfront
        rw [List.append_assoc]
        exact h (x :: p) (List.cons_ne_nil x p) (List.prefix_cons_inj x |>.mpr hfront)

theorem put_cons (x : α) (rest buf : List α) :
    exists written left,
      Writer.put flushes { todo := x :: rest, buf } =
          (written, some { todo := rest, buf := left }) ∧
        written ++ (putAll flushes left rest).1 = (putAll flushes buf (x :: rest)).1 ∧
        (putAll flushes left rest).2 = (putAll flushes buf (x :: rest)).2 := by
  unfold Writer.put
  dsimp only
  rw [putAll]
  split
  · exact ⟨buf ++ [x], [], rfl, rfl, rfl⟩
  · exact ⟨[], buf ++ [x], rfl, rfl, rfl⟩

theorem put_portions (w : Writer α) :
    ((w.put flushes).1 = [] ∧
        portionsOf flushes (w.put flushes).2 = portionsOf flushes (some w)) ∨
      (w.put flushes).1 :: portionsOf flushes (w.put flushes).2 = portionsOf flushes (some w) := by
  rcases w with ⟨todo, buf⟩
  cases todo with
  | nil =>
      cases buf with
      | nil => exact Or.inl ⟨rfl, rfl⟩
      | cons x rest => exact Or.inr rfl
  | cons x rest =>
      unfold Writer.put portionsOf
      dsimp only
      rw [portions_cons]
      split
      · exact Or.inr rfl
      · exact Or.inl ⟨rfl, rfl⟩

end

/-!
# Line buffers and full buffers
-/

section

variable {α : Type u} {size : Nat}

def fullyBuffered (size : Nat) (b : List α) : Bool :=
  size ≤ b.length

theorem fullyBuffered_within {buf xs p : List α} (hlength : (buf ++ xs).length < size)
    (hfront : p <+: xs) : fullyBuffered size (buf ++ p) = false := by
  have hle := hfront.length_le
  unfold fullyBuffered
  rw [List.length_append] at hlength ⊢
  exact decide_eq_false (by lia)

theorem portions_full {buf xs : List α} (hlength : (buf ++ xs).length < size)
    (hne : buf ++ xs ≠ []) : portions (fullyBuffered size) buf xs = [buf ++ xs] := by
  have happend := portions_append (fullyBuffered size) []
    (fun p _ hfront => fullyBuffered_within hlength (p := p) hfront)
  rw [List.append_nil] at happend
  rw [happend]
  cases hall : buf ++ xs with
  | nil => exact absurd hall hne
  | cons x rest => rfl

theorem putAll_full {buf xs : List α} (hlength : (buf ++ xs).length < size) :
    putAll (fullyBuffered size) buf xs = ([], buf ++ xs) := by
  have happend := putAll_append (fullyBuffered size) []
    (fun p _ hfront => fullyBuffered_within hlength (p := p) hfront)
  rw [List.append_nil] at happend
  rw [happend]
  rfl

variable [DecidableEq α] {newline : α}

/-- The stream of a terminal: the buffer is due with each newline. -/
def lineBuffered (newline : α) (size : Nat) (b : List α) : Bool :=
  b.getLast? = some newline || size ≤ b.length

theorem lineBuffered_within {buf xs p : List α} (hxs : newline ∉ xs)
    (hlength : (buf ++ xs).length < size) (hp : p ≠ []) (hfront : p <+: xs) :
    lineBuffered newline size (buf ++ p) = false := by
  have hle := hfront.length_le
  unfold lineBuffered
  rw [List.length_append] at hlength ⊢
  rw [decide_eq_false (show ¬ size ≤ buf.length + p.length by lia), Bool.or_false,
    decide_eq_false_iff_not, List.getLast?_append, List.getLast?_eq_some_getLast hp,
    Option.some_or]
  intro hlast
  rw [← Option.some.inj hlast] at hxs
  exact hxs (hfront.subset (List.getLast_mem hp))

theorem lineBuffered_newline (b : List α) : lineBuffered newline size (b ++ [newline]) = true := by
  unfold lineBuffered
  rw [List.getLast?_concat, decide_eq_true rfl, Bool.true_or]

theorem portions_line {buf xs : List α} (hxs : newline ∉ xs)
    (hlength : (buf ++ xs).length < size) :
    portions (lineBuffered newline size) buf (xs ++ [newline]) = [buf ++ xs ++ [newline]] := by
  rw [portions_append _ [newline] (fun p hp hfront => lineBuffered_within hxs hlength hp hfront),
    portions_cons, lineBuffered_newline, if_pos rfl]
  rfl

theorem putAll_line {buf xs : List α} (hxs : newline ∉ xs)
    (hlength : (buf ++ xs).length < size) :
    putAll (lineBuffered newline size) buf (xs ++ [newline]) = (buf ++ xs ++ [newline], []) := by
  rw [putAll_append _ [newline] (fun p hp hfront => lineBuffered_within hxs hlength hp hfront),
    putAll, lineBuffered_newline, if_pos rfl]
  show (buf ++ xs ++ [newline] ++ [], []) = _
  rw [List.append_nil]

end

/-!
# Several writers
-/

section

variable {α : Type u} {ι : Type v} [DecidableEq ι] (flushes : List α -> Bool)

def Writers.step (s : Writers ι α) (i : ι) : Option (Writers ι α) :=
  match s.writers i with
  | none => none
  | some w =>
      some { out := s.out ++ (w.put flushes).1,
             writers := Function.update s.writers i (w.put flushes).2 }

theorem Writers.step_of_some {s : Writers ι α} {i : ι} {w : Writer α}
    (h : s.writers i = some w) :
    s.step flushes i =
      some { out := s.out ++ (w.put flushes).1,
             writers := Function.update s.writers i (w.put flushes).2 } := by
  unfold Writers.step
  rw [h]

def Writers.machine (s : Writers ι α) : Machine (Writers ι α) ι where
  init t := t = s
  step := Writers.step flushes

def Writers.Ended (s : Writers ι α) : Prop :=
  forall i, s.writers i = none

structure Wrote (s t : Writers ι α) (whole : List (ι × List α)) : Prop where
  out : t.out = s.out ++ (whole.map Prod.snd).flatten
  parts : forall i,
    portionsOf flushes (s.writers i) = partOf i whole ++ portionsOf flushes (t.writers i)

variable {flushes} {s t : Writers ι α}

theorem Wrote.start (s : Writers ι α) : Wrote flushes s s [] where
  out := (List.append_nil _).symm
  parts _ := rfl

theorem Wrote.trans {r : Writers ι α} {xs ys : List (ι × List α)} (h : Wrote flushes r s xs)
    (h' : Wrote flushes s t ys) : Wrote flushes r t (xs ++ ys) where
  out := by
    rw [h'.out, h.out, List.map_append, List.flatten_append, List.append_assoc]
  parts i := by
    rw [h.parts, h'.parts, partOf_append, List.append_assoc]

theorem wrote_of_step {i : ι} (hstep : s.step flushes i = some t) :
    exists whole, Wrote flushes s t whole := by
  unfold Writers.step at hstep
  cases hw : s.writers i with
  | none =>
      rw [hw] at hstep
      cases hstep
  | some w =>
      rw [hw] at hstep
      cases hstep
      rcases put_portions flushes w with ⟨hnil, heq⟩ | heq
      · refine ⟨[], ?_, ?_⟩
        · rw [hnil]
          rfl
        · intro j
          show _ = _ ++ portionsOf flushes (Function.update s.writers i (w.put flushes).2 j)
          by_cases hj : j = i
          · rw [hj, hw, Function.update_self, heq]
            rfl
          · rw [Function.update_of_ne hj]
            rfl
      · refine ⟨[(i, (w.put flushes).1)], ?_, ?_⟩
        · exact congrArg (fun xs => s.out ++ xs) (List.append_nil _).symm
        · intro j
          show _ = _ ++ portionsOf flushes (Function.update s.writers i (w.put flushes).2 j)
          by_cases hj : j = i
          · rw [hj, hw, Function.update_self, ← heq, partOf_cons, if_pos rfl]
            rfl
          · rw [Function.update_of_ne hj, partOf_cons, if_neg (fun h => hj h.symm)]
            rfl

theorem wrote_of_run {r : Writers ι α} {is : List ι}
    (hrun : (Writers.machine flushes r).run s is = some t) :
    exists whole, Wrote flushes s t whole := by
  induction is generalizing s with
  | nil =>
      rw [Machine.run_nil] at hrun
      cases hrun
      exact ⟨[], Wrote.start _⟩
  | cons i rest ih =>
      rw [Machine.run_cons] at hrun
      cases hstep : (Writers.machine flushes r).step s i with
      | none =>
          rw [hstep] at hrun
          cases hrun
      | some next =>
          rw [hstep] at hrun
          rcases wrote_of_step (show s.step flushes i = some next from hstep) with ⟨xs, hxs⟩
          rcases ih hrun with ⟨ys, hys⟩
          exact ⟨xs ++ ys, hxs.trans hys⟩

theorem run_portion {r : Writers ι α} {i : ι} {w : Writer α} {portion : List α}
    {later : List (List α)} (hw : s.writers i = some w)
    (hportions : portionsOf flushes (some w) = portion :: later) :
    exists is t o, (Writers.machine flushes r).run s is = some t ∧ t.out = s.out ++ portion ∧
      t.writers = Function.update s.writers i o ∧ portionsOf flushes o = later := by
  rcases w with ⟨todo, buf⟩
  induction todo generalizing s buf with
  | nil =>
      cases buf with
      | nil => cases hportions
      | cons x rest =>
          cases hportions
          have hstep : s.step flushes i =
              some { out := s.out ++ (x :: rest),
                     writers := Function.update s.writers i none } := by
            unfold Writers.step
            rw [hw]
            rfl
          exact ⟨[i], _, none, Machine.run_of_step hstep _, rfl, rfl, rfl⟩
  | cons x rest ih =>
      have hcons : portions flushes buf (x :: rest) = portion :: later := hportions
      rw [portions_cons] at hcons
      cases hdue : flushes (buf ++ [x]) with
      | true =>
          rw [hdue, if_pos rfl] at hcons
          cases hcons
          have hstep : s.step flushes i =
              some { out := s.out ++ (buf ++ [x]),
                     writers := Function.update s.writers i
                       (some { todo := rest, buf := [] }) } := by
            unfold Writers.step Writer.put
            rw [hw]
            dsimp only
            rw [hdue]
            rfl
          exact ⟨[i], _, _, Machine.run_of_step hstep _, rfl, rfl, rfl⟩
      | false =>
          rw [hdue, if_neg (by decide)] at hcons
          have hstep : s.step flushes i =
              some { out := s.out ++ [],
                     writers := Function.update s.writers i
                       (some { todo := rest, buf := buf ++ [x] }) } := by
            unfold Writers.step Writer.put
            rw [hw]
            dsimp only
            rw [hdue]
            rfl
          rcases ih (s := { out := s.out ++ [],
                            writers := Function.update s.writers i
                              (some { todo := rest, buf := buf ++ [x] }) })
              (buf ++ [x]) (Function.update_self i _ s.writers) hcons with
            ⟨is, t, o, hrun, hout, hwriters, ho⟩
          refine ⟨i :: is, t, o, ?_, ?_, ?_, ho⟩
          · exact (Machine.run_of_step hstep is).trans hrun
          · rw [hout, List.append_nil]
          · rw [hwriters, Function.update_idem]

theorem run_end {r : Writers ι α} {i : ι} {w : Writer α} (hw : s.writers i = some w)
    (hportions : portionsOf flushes (some w) = []) :
    (Writers.machine flushes r).run s [i] =
      some { s with writers := Function.update s.writers i none } := by
  rcases w with ⟨todo, buf⟩
  have hnil : buf ++ todo = [] := by
    rw [← portions_flatten flushes buf todo, show portions flushes buf todo = [] from hportions]
    rfl
  rcases List.append_eq_nil_iff.mp hnil with ⟨hbuf, htodo⟩
  have hstep : s.step flushes i =
      some { s with writers := Function.update s.writers i none } := by
    unfold Writers.step
    rw [hw, hbuf, htodo]
    show some (Writers.mk (s.out ++ []) (Function.update s.writers i none)) = _
    rw [List.append_nil]
  exact Machine.run_of_step hstep _

theorem run_ended {r : Writers ι α} (owners : List ι)
    (hportions : forall i, portionsOf flushes (s.writers i) = []) :
    exists is t, (Writers.machine flushes r).run s is = some t ∧ t.out = s.out ∧
      (forall i, i ∈ owners -> t.writers i = none) ∧
      forall i, s.writers i = none -> t.writers i = none := by
  induction owners generalizing s with
  | nil => exact ⟨[], s, rfl, rfl, nofun, fun _ hi => hi⟩
  | cons j owners ih =>
      cases hw : s.writers j with
      | none =>
          rcases ih hportions with ⟨is, t, hrun, hout, hall, hnone⟩
          refine ⟨is, t, hrun, hout, ?_, hnone⟩
          intro i hi
          rcases List.mem_cons.mp hi with heq | hi
          · rw [heq]
            exact hnone j hw
          · exact hall i hi
      | some w =>
          have hend := run_end (r := r) hw (by rw [← hw]; exact hportions j)
          have hnext : forall i,
              portionsOf flushes (Function.update s.writers j none i) = [] := by
            intro i
            by_cases hi : i = j
            · rw [hi, Function.update_self]
              rfl
            · rw [Function.update_of_ne hi]
              exact hportions i
          rcases ih (s := { s with writers := Function.update s.writers j none }) hnext with
            ⟨is, t, hrun, hout, hall, hnone⟩
          have hself : t.writers j = none := hnone j (Function.update_self j none s.writers)
          refine ⟨[j] ++ is, t, (Machine.run_append hend is).trans hrun, hout, ?_, ?_⟩
          · intro i hi
            rcases List.mem_cons.mp hi with heq | hi
            · rw [heq]
              exact hself
            · exact hall i hi
          · intro i hi
            by_cases hij : i = j
            · rw [hij]
              exact hself
            · exact hnone i (by
                show Function.update s.writers j none i = none
                rw [Function.update_of_ne hij]
                exact hi)

theorem run_interleaved {r : Writers ι α} {owners : List ι} (howners : forall i, i ∈ owners)
    {whole : List (ι × List α)}
    (h : Interleaves (fun i => portionsOf flushes (s.writers i)) whole) :
    exists is t, (Writers.machine flushes r).run s is = some t ∧ t.Ended ∧
      t.out = s.out ++ (whole.map Prod.snd).flatten := by
  induction whole generalizing s with
  | nil =>
      rcases run_ended (r := r) owners (fun i => (h i).symm) with ⟨is, t, hrun, hout, hall, _⟩
      refine ⟨is, t, hrun, fun i => hall i (howners i), ?_⟩
      rw [hout]
      exact (List.append_nil _).symm
  | cons x whole ih =>
      rcases x with ⟨i, portion⟩
      have hi : portion :: partOf i whole = portionsOf flushes (s.writers i) := by
        have hfirst := h i
        rw [partOf_cons, if_pos rfl] at hfirst
        exact hfirst
      cases hw : s.writers i with
      | none =>
          rw [hw] at hi
          cases hi
      | some w =>
          rw [hw] at hi
          rcases run_portion (r := r) hw hi.symm with ⟨is, t, o, hrun, hout, hwriters, ho⟩
          have hnext : Interleaves (fun j => portionsOf flushes (t.writers j)) whole := by
            intro j
            show partOf j whole = portionsOf flushes (t.writers j)
            rw [hwriters]
            by_cases hj : j = i
            · rw [hj, Function.update_self, ho]
            · have hrest := h j
              rw [partOf_cons, if_neg (fun heq => hj heq.symm)] at hrest
              rw [Function.update_of_ne hj]
              exact hrest
          rcases ih hnext with ⟨is', t', hrun', hended, hout'⟩
          refine ⟨is ++ is', t', (Machine.run_append hrun is').trans hrun', hended, ?_⟩
          rw [hout', hout, List.append_assoc]
          rfl

theorem Wrote.interleaves {whole : List (ι × List α)} (h : Wrote flushes s t whole)
    (hended : t.Ended) : Interleaves (fun i => portionsOf flushes (s.writers i)) whole := by
  intro i
  show partOf i whole = portionsOf flushes (s.writers i)
  have hparts := h.parts i
  rw [hended i] at hparts
  rw [hparts]
  exact (List.append_nil _).symm

/-- What can be in the file when all writers have ended: the interleavings of their
portions. -/
theorem outputs_iff {owners : List ι} (howners : forall i, i ∈ owners) (s : Writers ι α)
    (xs : List α) :
    (exists is t, (Writers.machine flushes s).run s is = some t ∧ t.Ended ∧ t.out = xs) ↔
      exists whole, Interleaves (fun i => portionsOf flushes (s.writers i)) whole ∧
        xs = s.out ++ (whole.map Prod.snd).flatten := by
  constructor
  · rintro ⟨is, t, hrun, hended, hout⟩
    rcases wrote_of_run hrun with ⟨whole, hwrote⟩
    exact ⟨whole, hwrote.interleaves hended, by rw [← hout, hwrote.out]⟩
  · rintro ⟨whole, hwhole, hxs⟩
    rcases run_interleaved (r := s) howners hwhole with ⟨is, t, hrun, hended, hout⟩
    exact ⟨is, t, hrun, hended, by rw [hout, hxs]⟩

end

end Foundation
end Apue
