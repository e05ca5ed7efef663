import Abacus.Proofs.Parts
import Abacus.Proofs.Readable

/-!
# Other leaves

An expression with other expressions in the place of its numbers and of the names that stand for
values.

## Main definitions

* `Abacus.Expr.onLeaves` — an expression with other leaves.

## Main results

* `Abacus.Expr.Readable.onLeaves` — readable leaves make a readable expression.
* `Abacus.Expr.onLeaves_onLeaves` — leaves that are put back make the expression that it was.
-/

namespace Abacus.Expr

mutual

/-- The expression with other ones in the place of its numbers and of the names that stand for
values. -/
def onLeaves (f : Float → Expr) (g : String → Expr) : Expr → Expr
  | number value => f value
  | var name => g name
  | binary op left right => binary op (left.onLeaves f g) (right.onLeaves f g)
  | lambda params body => lambda params (body.onLeaves f g)
  | call name args => call name (onLeavesAll f g args)
  | invoke function args => invoke (function.onLeaves f g) (onLeavesAll f g args)

/-- Expressions with other ones in the place of their leaves. -/
def onLeavesAll (f : Float → Expr) (g : String → Expr) : List Expr → List Expr
  | [] => []
  | e :: es => e.onLeaves f g :: onLeavesAll f g es

end

variable {f f' : Float → Expr} {g g' : String → Expr} {e : Expr} {es : List Expr}

/-- The leaves of a list of expressions are changed in each of them. -/
lemma onLeavesAll_eq_map (f : Float → Expr) (g : String → Expr) (es : List Expr) :
    onLeavesAll f g es = es.map (onLeaves f g) := by
  induction es with
  | nil => rfl
  | cons e es ih => rw [onLeavesAll, List.map_cons, ih]

/-- What holds of each expression with its new leaves holds of a list of them. -/
lemma forall_onLeavesAll {P : Expr → Prop} (h : ∀ e ∈ es, P (e.onLeaves f g)) :
    ∀ e ∈ onLeavesAll f g es, P e := by
  rw [onLeavesAll_eq_map]
  exact List.forall_mem_map.mpr h

/-! ## Readable leaves -/

/-- Readable leaves make a readable expression. -/
lemma Readable.onLeaves (he : Readable e) (hf : ∀ x ∈ e.literals, Readable (f x))
    (hg : ∀ name, isName name.toList = true → Readable (g name)) : Readable (e.onLeaves f g) := by
  induction he with
  | number => exact hf _ (List.mem_singleton_self _)
  | var hname => exact hg _ hname
  | binary _ _ iha ihb =>
    rw [literals, List.forall_mem_append] at hf
    exact .binary (iha hf.1) (ihb hf.2)
  | lambda hps _ ih => exact .lambda hps (ih hf)
  | call hname _ ih =>
    exact .call hname (forall_onLeavesAll fun e he => ih e he (forall_literalsAll hf he))
  | invoke _ _ ihf ih =>
    rw [literals, List.forall_mem_append] at hf
    have hes := forall_onLeavesAll fun e he => ih e he (forall_literalsAll hf.2 he)
    exact .invoke (ihf hf.1) hes

/-- What holds of the numbers of all leaves holds of the numbers of the expression. -/
lemma forall_literals_onLeaves {P : Float → Prop} (he : Readable e)
    (hf : ∀ x ∈ e.literals, ∀ y ∈ (f x).literals, P y) (hg : ∀ name, ∀ y ∈ (g name).literals, P y) :
    ∀ y ∈ (e.onLeaves f g).literals, P y := by
  have hargs : ∀ {es : List Expr}, (∀ e ∈ es, ∀ y ∈ (e.onLeaves f g).literals, P y) →
      ∀ y ∈ literalsAll (onLeavesAll f g es), P y := by
    intro es hes y hy
    obtain ⟨e, he, hy⟩ := mem_literalsAll.mp hy
    exact forall_onLeavesAll (P := fun e => ∀ y ∈ e.literals, P y) hes e he y hy
  induction he with
  | number => exact hf _ (List.mem_singleton_self _)
  | var => exact hg _
  | binary _ _ iha ihb =>
    rw [literals, List.forall_mem_append] at hf
    exact List.forall_mem_append.mpr ⟨iha hf.1, ihb hf.2⟩
  | lambda _ _ ih => exact ih hf
  | call _ _ ih => exact hargs fun e he => ih e he (forall_literalsAll hf he)
  | invoke _ _ ihf ih =>
    rw [literals, List.forall_mem_append] at hf
    exact List.forall_mem_append.mpr
      ⟨ihf hf.1, hargs fun e he => ih e he (forall_literalsAll hf.2 he)⟩

/-! ## Leaves that are put back -/

/-- Expressions whose leaves are put back in each of them are the list that they were. -/
lemma onLeavesAll_onLeavesAll (h : ∀ e ∈ es, (e.onLeaves f g).onLeaves f' g' = e) :
    onLeavesAll f' g' (onLeavesAll f g es) = es := by
  rw [onLeavesAll_eq_map, onLeavesAll_eq_map, List.map_map]
  exact (List.map_congr_left h).trans (List.map_id es)

/-- Leaves that are put back make the expression that it was. -/
theorem onLeaves_onLeaves (he : Readable e) (hf : ∀ x ∈ e.literals, (f x).onLeaves f' g' = number x)
    (hg : ∀ name ∈ e.names, (g name).onLeaves f' g' = var name) :
    (e.onLeaves f g).onLeaves f' g' = e := by
  have hchild : ∀ {e x : Expr}, (∀ name ∈ e.names, (g name).onLeaves f' g' = var name) →
      x ∈ e.children → ∀ name ∈ x.names, (g name).onLeaves f' g' = var name :=
    fun h hx name hname => h name (mem_names_of_child hx hname)
  induction he with
  | number => exact hf _ (List.mem_singleton_self _)
  | var => exact hg _ (mem_names_of_reference rfl)
  | binary _ _ iha ihb =>
    rw [literals, List.forall_mem_append] at hf
    rw [onLeaves, onLeaves, iha hf.1 (hchild hg (by simp [children])),
      ihb hf.2 (hchild hg (by simp [children]))]
  | lambda _ _ ih => rw [onLeaves, onLeaves, ih hf (hchild hg (by simp [children]))]
  | call _ _ ih =>
    rw [onLeaves, onLeaves, onLeavesAll_onLeavesAll fun e he =>
      ih e he (forall_literalsAll hf he) (hchild hg he)]
  | @invoke ps body es _ _ ihf ih =>
    rw [literals, List.forall_mem_append] at hf
    have hfunction := ihf hf.1 (hchild hg (by simp [children]))
    have hes := onLeavesAll_onLeavesAll fun e he =>
      ih e he (forall_literalsAll hf.2 he) (hchild hg (List.mem_cons_of_mem (lambda ps body) he))
    exact congrArg₂ invoke hfunction hes

end Abacus.Expr
