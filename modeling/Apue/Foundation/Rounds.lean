/-!
# Loops that may fault or be left

A loop takes its inputs one after another.  A round may fault, which leaves no
result at all, leave the loop with a result, or hand a state on to the next
round.  Whether a round leaves the loop is told by its input, so the inputs that
are taken are known without running the loop.
-/

namespace Apue
namespace Foundation

universe u v w x

inductive Round (fault : Type u) (state : Type v) (result : Type w) where
  | fault (e : fault)
  | leave (r : result)
  | next (s : state)
  deriving Repr, DecidableEq

section Rounds

variable {fault : Type u} {state : Type v} {result : Type w} {input : Type x}

def rounds (body : state -> input -> Round fault state result)
    (finish : state -> result) : state -> List input -> Except fault result
  | s, [] => Except.ok (finish s)
  | s, i :: rest =>
      match body s i with
      | Round.fault e => Except.error e
      | Round.leave r => Except.ok r
      | Round.next s => rounds body finish s rest

/-- The inputs up to the first one that leaves the loop. -/
def taken (leaves : input -> Bool) : List input -> List input
  | [] => []
  | i :: rest => if leaves i then [i] else i :: taken leaves rest

theorem rounds_cons (body : state -> input -> Round fault state result)
    (finish : state -> result) (s : state) (i : input) (rest : List input) :
    rounds body finish s (i :: rest) =
      match body s i with
      | Round.fault e => Except.error e
      | Round.leave r => Except.ok r
      | Round.next s => rounds body finish s rest := rfl

theorem rounds_cons_of_fault {body : state -> input -> Round fault state result}
    {finish : state -> result} {s : state} {i : input} {e : fault}
    (h : body s i = Round.fault e) (rest : List input) :
    rounds body finish s (i :: rest) = Except.error e := by
  rw [rounds_cons, h]

theorem rounds_cons_of_leave {body : state -> input -> Round fault state result}
    {finish : state -> result} {s : state} {i : input} {r : result}
    (h : body s i = Round.leave r) (rest : List input) :
    rounds body finish s (i :: rest) = Except.ok r := by
  rw [rounds_cons, h]

theorem rounds_cons_of_next {body : state -> input -> Round fault state result}
    {finish : state -> result} {s s' : state} {i : input}
    (h : body s i = Round.next s') (rest : List input) :
    rounds body finish s (i :: rest) = rounds body finish s' rest := by
  rw [rounds_cons, h]

theorem taken_cons_of_leaves {leaves : input -> Bool} {i : input}
    (rest : List input) (h : leaves i = true) :
    taken leaves (i :: rest) = [i] := by
  rw [taken, h, if_pos rfl]

theorem taken_cons_of_stays {leaves : input -> Bool} {i : input}
    (rest : List input) (h : leaves i = false) :
    taken leaves (i :: rest) = i :: taken leaves rest := by
  rw [taken, h, if_neg Bool.false_ne_true]

theorem taken_eq_of_stays {leaves : input -> Bool} {inputs : List input}
    (h : forall i, i ∈ taken leaves inputs -> leaves i = false) :
    taken leaves inputs = inputs := by
  induction inputs with
  | nil => rfl
  | cons i rest ih =>
      cases hleaves : leaves i with
      | true =>
          rw [taken_cons_of_leaves rest hleaves] at h
          rw [h i List.mem_cons_self] at hleaves
          cases hleaves
      | false =>
          rw [taken_cons_of_stays rest hleaves] at h ⊢
          rw [ih (fun j hj => h j (List.mem_cons_of_mem i hj))]

theorem taken_eq_self (inputs : List input) :
    taken (fun _ => false) inputs = inputs :=
  taken_eq_of_stays (fun _ _ => rfl)

/-- What each round does: one with a bad input faults, and the others keep the
invariant `I` of the inputs taken so far until the loop ends with `P`. -/
structure Law (body : state -> input -> Round fault state result)
    (finish : state -> result) (Good : input -> Prop) (leaves : input -> Bool)
    (I : List input -> state -> Prop) (P : List input -> result -> Prop) :
    Prop where
  bad : forall {past s i}, I past s -> ¬ Good i -> exists e, body s i = Round.fault e
  leave : forall {past s i}, I past s -> Good i -> leaves i = true ->
    exists r, body s i = Round.leave r ∧ P (past ++ [i]) r
  next : forall {past s i}, I past s -> Good i -> leaves i = false ->
    exists s', body s i = Round.next s' ∧ I (past ++ [i]) s'
  finish : forall {past s}, I past s -> P past (finish s)

namespace Law

variable {body : state -> input -> Round fault state result}
  {finish : state -> result} {Good : input -> Prop} {leaves : input -> Bool}
  {I : List input -> state -> Prop} {P : List input -> result -> Prop}

theorem ok_from (h : Law body finish Good leaves I P) {past inputs : List input}
    {s : state} (hs : I past s)
    (hgood : forall i, i ∈ taken leaves inputs -> Good i) :
    exists r, rounds body finish s inputs = Except.ok r ∧
      P (past ++ taken leaves inputs) r := by
  induction inputs generalizing past s with
  | nil =>
      refine ⟨finish s, rfl, ?_⟩
      change P (past ++ []) (finish s)
      rw [List.append_nil]
      exact h.finish hs
  | cons i rest ih =>
      cases hleaves : leaves i with
      | true =>
          rw [taken_cons_of_leaves rest hleaves] at hgood ⊢
          rcases h.leave hs (hgood i List.mem_cons_self) hleaves with ⟨r, hbody, hr⟩
          exact ⟨r, rounds_cons_of_leave hbody rest, hr⟩
      | false =>
          rw [taken_cons_of_stays rest hleaves] at hgood ⊢
          rcases h.next hs (hgood i List.mem_cons_self) hleaves with ⟨s', hbody, hs'⟩
          rcases ih hs' (fun j hj => hgood j (List.mem_cons_of_mem i hj)) with
            ⟨r, hrun, hr⟩
          refine ⟨r, ?_, ?_⟩
          · rw [rounds_cons_of_next hbody]
            exact hrun
          · rw [List.append_cons]
            exact hr

theorem of_good (h : Law body finish Good leaves I P) {inputs : List input}
    {s : state} (hs : I [] s)
    (hgood : forall i, i ∈ taken leaves inputs -> Good i) :
    exists r, rounds body finish s inputs = Except.ok r ∧
      P (taken leaves inputs) r :=
  h.ok_from hs hgood

theorem good_of_ok (h : Law body finish Good leaves I P)
    {past inputs : List input} {s : state} {r : result} (hs : I past s)
    (hrun : rounds body finish s inputs = Except.ok r) :
    forall i, i ∈ taken leaves inputs -> Good i := by
  induction inputs generalizing past s with
  | nil =>
      intro i hi
      cases hi
  | cons i rest ih =>
      have hi : Good i := by
        apply Classical.not_not.mp
        intro hbad
        rcases h.bad hs hbad with ⟨e, hbody⟩
        rw [rounds_cons_of_fault hbody] at hrun
        cases hrun
      cases hleaves : leaves i with
      | true =>
          rw [taken_cons_of_leaves rest hleaves]
          intro j hj
          rw [List.mem_singleton.mp hj]
          exact hi
      | false =>
          rw [taken_cons_of_stays rest hleaves]
          rcases h.next hs hi hleaves with ⟨s', hbody, hs'⟩
          rw [rounds_cons_of_next hbody] at hrun
          intro j hj
          rcases List.mem_cons.mp hj with heq | hj
          · rw [heq]
            exact hi
          · exact ih hs' hrun j hj

theorem of_ok (h : Law body finish Good leaves I P) {inputs : List input}
    {s : state} {r : result} (hs : I [] s)
    (hrun : rounds body finish s inputs = Except.ok r) :
    (forall i, i ∈ taken leaves inputs -> Good i) ∧ P (taken leaves inputs) r := by
  have hgood := h.good_of_ok hs hrun
  rcases h.of_good hs hgood with ⟨r', hrun', hr'⟩
  rw [hrun] at hrun'
  cases hrun'
  exact ⟨hgood, hr'⟩

end Law

end Rounds

end Foundation
end Apue
