import Abacus.Expr
import Mathlib.Tactic.Lemma

/-!
# The parts of an expression

An expression, its operands, its arguments and the bodies of its lambdas, down to the leaves, and
the names that occur in them.

## Main definitions

* `Abacus.Expr.parts` — an expression and everything that it is made of.
* `Abacus.Expr.names` — the names that an expression mentions.

## Main results

* `Abacus.Expr.induction_on_children` — what children hand on to the whole holds of all expressions.
* `Abacus.Expr.mem_parts_of_child` — the parts of a child are parts of the whole.
* `Abacus.Expr.mem_names_of_child` — the whole mentions what a child mentions.
-/

namespace Abacus.Expr

variable {e x y : Expr} {es : List Expr} {name : String}

/-! ## Children -/

/-- No expression is higher than the highest of a list that it is in. -/
lemma height_le_heights (h : x ∈ es) : x.height ≤ heights es := by
  induction es with
  | nil => cases h
  | cons e es ih =>
    rw [heights]
    rcases List.mem_cons.mp h with rfl | h
    · exact Nat.le_max_left _ _
    · exact Nat.le_trans (ih h) (Nat.le_max_right _ _)

/-- What holds of an expression as soon as it holds of its children holds of every expression. -/
theorem induction_on_children {motive : Expr → Prop} (e : Expr)
    (step : ∀ e, (∀ x ∈ e.children, motive x) → motive e) : motive e := by
  induction hheight : e.height using Nat.strongRecOn generalizing e with
  | ind n ih =>
    subst hheight
    refine step e fun x hx => ih x.height ?_ x rfl
    exact Nat.lt_of_le_of_lt (height_le_heights hx) e.heights_children_lt

/-! ## Parts -/

mutual

/-- An expression and everything that it is made of, each part before its own parts. -/
def parts : Expr → List Expr
  | number value => [number value]
  | var name => [var name]
  | binary op left right => binary op left right :: (left.parts ++ right.parts)
  | lambda params body => lambda params body :: body.parts
  | call name args => call name args :: partsAll args
  | invoke function args => invoke function args :: (function.parts ++ partsAll args)

/-- The parts of expressions, one expression after another. -/
def partsAll : List Expr → List Expr
  | [] => []
  | e :: es => e.parts ++ partsAll es

end

/-- The parts of an expression are the expression itself and the parts of its children. -/
lemma parts_eq (e : Expr) : e.parts = e :: partsAll e.children := by
  cases e <;> simp [parts, partsAll, children]

/-- The parts of a list are put together from those of its pieces. -/
lemma partsAll_append (es es' : List Expr) :
    partsAll (es ++ es') = partsAll es ++ partsAll es' := by
  induction es with
  | nil => rfl
  | cons e es ih => rw [List.cons_append, partsAll, partsAll, ih, List.append_assoc]

/-- A part of a list of expressions is a part of one of them. -/
lemma mem_partsAll : x ∈ partsAll es ↔ ∃ e ∈ es, x ∈ e.parts := by
  induction es with
  | nil => simp [partsAll]
  | cons e es ih => simp [partsAll, ih]

/-- Every expression is a part of itself. -/
lemma self_mem_parts (e : Expr) : e ∈ e.parts := by
  rw [parts_eq]
  exact List.mem_cons_self

/-- The parts of a child are parts of the whole. -/
lemma mem_parts_of_child (hx : x ∈ e.children) (hy : y ∈ x.parts) : y ∈ e.parts := by
  rw [parts_eq]
  exact List.mem_cons_of_mem e (mem_partsAll.mpr ⟨x, hx, hy⟩)

/-! ## Names -/

/-- The name that the outermost part of an expression refers to. -/
def reference? : Expr → Option String
  | var name => some name
  | call name _ => some name
  | _ => none

/-- The names that an expression mentions, those in the bodies of its lambdas included. Parameters
count where they are used. -/
def names (e : Expr) : List String := e.parts.filterMap reference?

/-- An expression mentions the name that it refers to. -/
lemma mem_names_of_reference (h : e.reference? = some name) : name ∈ e.names :=
  List.mem_filterMap.mpr ⟨e, e.self_mem_parts, h⟩

/-- The whole mentions what a child mentions. -/
lemma mem_names_of_child (hx : x ∈ e.children) (hname : name ∈ x.names) : name ∈ e.names := by
  obtain ⟨y, hy, hreference⟩ := List.mem_filterMap.mp hname
  exact List.mem_filterMap.mpr ⟨y, mem_parts_of_child hx hy, hreference⟩

end Abacus.Expr
