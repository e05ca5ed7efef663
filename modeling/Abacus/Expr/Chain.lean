import Abacus.Expr

/-!
# Chains of operators

The tree of a chain `e₀ op₁ e₁ op₂ e₂ …` of operands with operators between them. The tighter
operators are grouped first, and operators of one precedence to the left, powers included.

## Main definitions

* `Abacus.Expr.group` — groups the operators of one precedence in a chain.
* `Abacus.Expr.assemble` — the tree of a chain.

## Main results

* `Abacus.Expr.precedence_of_mem_group` — what is left of a chain has no operator of the precedence
  that was grouped, and no other one than before.
-/

namespace Abacus.Expr

/-- Groups each run of operators of one precedence in a chain to the left. What is left is a chain
of the other operators, whose operands are the trees of the runs: grouping the products of
`1 + 2 * 3 * 4` leaves `1 + e`, where `e` is the tree of `(2 * 3) * 4`. -/
def group (precedence : Nat) (first : Expr) :
    List (Operator × Expr) → Expr × List (Operator × Expr)
  | [] => (first, [])
  | (op, e) :: rest =>
    if op.precedence = precedence then
      group precedence (binary op first e) rest
    else
      let (next, others) := group precedence e rest
      (first, (op, next) :: others)

/-- The tree of a chain of operators. The tighter ones are grouped first: powers, then products,
then sums. Behind the last step no operator is left, so the first operand is the whole tree. -/
def assemble (first : Expr) (rest : List (Operator × Expr)) : Expr :=
  let (first, rest) := group 3 first rest
  let (first, rest) := group 2 first rest
  (group 1 first rest).1

/-! ## What is left of a chain -/

/-- The operators that are left after grouping are those of the chain that have another
precedence, in their order. -/
theorem operators_group (p : Nat) (first : Expr) (rest : List (Operator × Expr)) :
    (group p first rest).2.map Prod.fst =
      (rest.map Prod.fst).filter fun op => op.precedence ≠ p := by
  induction rest generalizing first with
  | nil => rfl
  | cons link rest ih =>
    obtain ⟨op, e⟩ := link
    by_cases h : op.precedence = p
    · simp [group, h, ih]
    · simp [group, h, ih]

/-- What is left of a chain has no operator of the precedence that was grouped, and no other one
than before. -/
theorem precedence_of_mem_group {p : Nat} {first : Expr} {rest : List (Operator × Expr)}
    {op : Operator} (h : op ∈ (group p first rest).2.map Prod.fst) :
    op.precedence ≠ p ∧ op ∈ rest.map Prod.fst := by
  rw [operators_group, List.mem_filter] at h
  exact ⟨by simpa using h.2, h.1⟩

/-- Once all three precedences are grouped nothing is left of a chain. -/
theorem group_all (first : Expr) (rest : List (Operator × Expr)) :
    (group 1 (group 2 (group 3 first rest).1 (group 3 first rest).2).1
      (group 2 (group 3 first rest).1 (group 3 first rest).2).2).2 = [] := by
  rw [← List.map_eq_nil_iff (f := Prod.fst)]
  simp only [operators_group, List.filter_eq_nil_iff, List.mem_filter]
  rintro op ⟨⟨-, h₃⟩, h₂⟩
  cases op <;> simp_all [Operator.precedence]

end Abacus.Expr
