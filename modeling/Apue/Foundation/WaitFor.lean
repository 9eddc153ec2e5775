import Mathlib.Data.Set.Finite.Basic
import Mathlib.Logic.Relation
import Mathlib.Order.WellFounded

/-!
# Who waits for whom

A relation says which member of a group waits for which other one.  As long as
nobody waits for himself through others, somebody whom the others wait for waits
for nobody.  When one member at a time changes what he waits for and who waits
for him, only circles through that member have to be looked for.
-/

namespace Apue
namespace Foundation

universe u

variable {α : Type u}

/-- `p` waits for `q`, at once or through members of a list; no more than `n` waits
are followed. -/
def leads (waits : α -> α -> Bool) (nodes : List α) : Nat -> α -> α -> Bool
  | 0, _, _ => false
  | n + 1, p, q =>
      waits p q || nodes.any (fun r => waits p r && leads waits nodes n r q)

/-- Nobody waits for himself. -/
def NoCircle (waits : α -> α -> Prop) : Prop :=
  forall p, ¬ Relation.TransGen waits p p

/-!
# Looking for a circle
-/

section Leads

variable {waits : α -> α -> Bool} {nodes : List α}

theorem leads_succ_iff {n : Nat} {p q : α} :
    leads waits nodes (n + 1) p q = true ↔
      waits p q = true ∨
        exists r, r ∈ nodes ∧ waits p r = true ∧ leads waits nodes n r q = true := by
  rw [leads, Bool.or_eq_true, List.any_eq_true]
  simp only [Bool.and_eq_true]

theorem transGen_of_leads {n : Nat} {p q : α} (h : leads waits nodes n p q = true) :
    Relation.TransGen (fun x y => waits x y = true) p q := by
  induction n generalizing p with
  | zero => cases h
  | succ n ih =>
      rcases leads_succ_iff.mp h with hpq | ⟨r, _, hpr, hrq⟩
      · exact Relation.TransGen.single hpq
      · exact Relation.TransGen.head hpr (ih hrq)

theorem transGen_leave {R : α -> α -> Prop} {p q : α} (h : Relation.TransGen R p q) :
    exists r, R p r ∧
      (r = q ∨ Relation.TransGen (fun x y => R x y ∧ x ≠ p) r q) := by
  have hway : forall x, Relation.TransGen R x q ->
      Relation.TransGen (fun x y => R x y ∧ x ≠ p) x q ∨
        exists r, R p r ∧
          (r = q ∨ Relation.TransGen (fun x y => R x y ∧ x ≠ p) r q) := by
    intro x hx
    induction hx using Relation.TransGen.head_induction_on with
    | @single x hxq =>
        by_cases hxp : x = p
        · rw [hxp] at hxq
          exact Or.inr ⟨q, hxq, Or.inl rfl⟩
        · exact Or.inl (Relation.TransGen.single ⟨hxq, hxp⟩)
    | @head x y hxy _ ih =>
        rcases ih with hyq | hfound
        · by_cases hxp : x = p
          · rw [hxp] at hxy
            exact Or.inr ⟨y, hxy, Or.inr hyq⟩
          · exact Or.inl (Relation.TransGen.head ⟨hxy, hxp⟩ hyq)
        · exact Or.inr hfound
  rcases hway p h with hpq | hfound
  · rcases Relation.TransGen.head'_iff.mp hpq with ⟨r, hpr, _⟩
    exact absurd rfl hpr.2
  · exact hfound

theorem leads_of_transGen {n : Nat} {R : α -> α -> Prop} {members : List α}
    (hR : forall x y, R x y -> waits x y = true ∧ x ∈ members)
    (hsub : forall x, x ∈ members -> x ∈ nodes) (hlen : members.length ≤ n) {p q : α}
    (h : Relation.TransGen R p q) : leads waits nodes n p q = true := by
  classical
  induction n generalizing R members p with
  | zero =>
      rcases Relation.TransGen.head'_iff.mp h with ⟨r, hpr, _⟩
      have hmem := (hR p r hpr).2
      rw [List.length_eq_zero_iff.mp (Nat.le_zero.mp hlen)] at hmem
      cases hmem
  | succ n ih =>
      rw [leads_succ_iff]
      rcases transGen_leave h with ⟨r, hpr, heq | hrq⟩
      · rw [heq] at hpr
        exact Or.inl (hR p q hpr).1
      · right
        rcases Relation.TransGen.head'_iff.mp hrq with ⟨r', hrr', _⟩
        have hless : (members.filter (fun x => x ≠ p)).length < members.length := by
          rw [List.length_filter_lt_length_iff_exists]
          exact ⟨p, (hR p r hpr).2, by simp⟩
        have hmembers : forall x y, R x y ∧ x ≠ p ->
            waits x y = true ∧ x ∈ members.filter (fun x => x ≠ p) := by
          rintro x y ⟨hxy, hx⟩
          exact ⟨(hR x y hxy).1, List.mem_filter.mpr ⟨(hR x y hxy).2, by simpa using hx⟩⟩
        have hinside : forall x, x ∈ members.filter (fun x => x ≠ p) -> x ∈ nodes :=
          fun x hx => hsub x (List.mem_filter.mp hx).1
        exact ⟨r, hsub r (hR r r' hrr'.1).2, (hR p r hpr).1, ih hmembers hinside (by lia) hrq⟩

/-- The search finds every way when the list has all members that wait, and not more
of them than waits are followed. -/
theorem leads_iff {n : Nat} (hall : forall p q, waits p q = true -> p ∈ nodes)
    (hlen : nodes.length ≤ n) {p q : α} :
    leads waits nodes n p q = true ↔
      Relation.TransGen (fun x y => waits x y = true) p q := by
  constructor
  · exact transGen_of_leads
  · exact leads_of_transGen (fun x y hxy => ⟨hxy, hall x y hxy⟩) (fun _ hx => hx) hlen

end Leads

/-!
# Changes at one member
-/

section Point

variable {before after : α -> α -> Prop} {p : α}

theorem transGen_cases
    (hother : forall x y, x ≠ p -> y ≠ p -> after x y -> before x y) {x y : α}
    (h : Relation.TransGen after x y) :
    Relation.TransGen before x y ∨
      (Relation.ReflTransGen after x p ∧ Relation.ReflTransGen after p y) := by
  induction h with
  | @single y hxy =>
      by_cases hx : x = p
      · rw [hx] at hxy ⊢
        exact Or.inr ⟨Relation.ReflTransGen.refl, Relation.ReflTransGen.single hxy⟩
      · by_cases hy : y = p
        · rw [hy] at hxy ⊢
          exact Or.inr ⟨Relation.ReflTransGen.single hxy, Relation.ReflTransGen.refl⟩
        · exact Or.inl (Relation.TransGen.single (hother x y hx hy hxy))
  | @tail y z hxy hyz ih =>
      rcases ih with hbefore | ⟨hxp, hpy⟩
      · by_cases hy : y = p
        · rw [hy] at hxy hyz
          exact Or.inr ⟨hxy.to_reflTransGen, Relation.ReflTransGen.single hyz⟩
        · by_cases hz : z = p
          · rw [hz] at hyz ⊢
            exact Or.inr ⟨hxy.to_reflTransGen.tail hyz, Relation.ReflTransGen.refl⟩
          · exact Or.inl (hbefore.tail (hother y z hy hz hyz))
      · exact Or.inr ⟨hxp, hpy.tail hyz⟩

theorem NoCircle.change (h : NoCircle before)
    (hother : forall x y, x ≠ p -> y ≠ p -> after x y -> before x y)
    (hp : ¬ Relation.TransGen after p p) : NoCircle after := by
  intro x hx
  rcases transGen_cases hother hx with hbefore | ⟨hxp, hpx⟩
  · exact h x hbefore
  · rcases Relation.reflTransGen_iff_eq_or_transGen.mp hxp with heq | htrans
    · rw [heq] at hp
      exact hp hx
    · exact hp (Relation.TransGen.trans_right hpx htrans)

theorem not_transGen_of_free (hfree : forall q, ¬ after p q) (q : α) :
    ¬ Relation.TransGen after p q := by
  intro h
  rcases Relation.TransGen.head'_iff.mp h with ⟨r, hpr, _⟩
  exact hfree r hpr

end Point

/-!
# Somebody does not wait
-/

theorem NoCircle.exists_free {waits : α -> α -> Prop} (h : NoCircle waits)
    {nodes : List α} (hall : forall p q, waits p q -> p ∈ nodes) (p : α) :
    exists q, Relation.ReflTransGen waits p q ∧ forall r, ¬ waits q r := by
  apply Classical.byContradiction
  intro hno
  have hnext : forall q, Relation.ReflTransGen waits p q -> exists r, waits q r := by
    intro q hq
    apply Classical.byContradiction
    intro hnone
    exact hno ⟨q, hq, fun r hr => hnone ⟨r, hr⟩⟩
  let node := { q : α // q ∈ nodes }
  let after : node -> node -> Prop := fun x y => Relation.TransGen waits y.1 x.1
  have hfinite : Finite node := (List.finite_toSet nodes).to_subtype
  have htrans : IsTrans node after := ⟨fun _ _ _ hxy hyz => hyz.trans hxy⟩
  have hirrefl : Std.Irrefl after := ⟨fun x hx => h x.1 hx⟩
  have hwf : WellFounded after := Finite.wellFounded_of_trans_of_irrefl after
  have hmem : forall q, Relation.ReflTransGen waits p q -> q ∈ nodes := by
    intro q hq
    rcases hnext q hq with ⟨r, hr⟩
    exact hall q r hr
  let reached : Set node := fun q => Relation.ReflTransGen waits p q.1
  have hnonempty : reached.Nonempty :=
    ⟨⟨p, hmem p Relation.ReflTransGen.refl⟩, Relation.ReflTransGen.refl⟩
  rcases hwf.has_min reached hnonempty with ⟨q, hq, hmin⟩
  rcases hnext q.1 hq with ⟨r, hqr⟩
  have hr : Relation.ReflTransGen waits p r := Relation.ReflTransGen.tail hq hqr
  exact hmin ⟨r, hmem r hr⟩ hr (Relation.TransGen.single hqr)

end Foundation
end Apue
