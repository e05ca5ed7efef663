import Abacus.Proofs.Grammar.Parsing
import Abacus.Proofs.Number.Numeral

/-!
# The trees that texts have

Whatever is read from a text has names that can be names and numbers that can be literals, and
what it calls in place is a lambda.

## Main definitions

* `Abacus.Expr.Readable` — the trees that texts have.
* `Abacus.Expr.literals` — the numbers in an expression.

## Main results

* `Abacus.Grammar.Reads.readable`, `Abacus.Expr.readable_of_parse` — what is read is such a tree.
-/

namespace Abacus

namespace Expr

/-! ## Readable trees -/

/-- The trees that texts have: all names can be names, all numbers can be literals, and what is
called in place is a lambda. -/
inductive Readable : Expr → Prop where
  | number {x : Float} (hx : Number.IsLiteral x) : Readable (.number x)
  | var {name : String} (hname : isName name.toList = true) : Readable (.var name)
  | binary {op : Operator} {a b : Expr} (ha : Readable a) (hb : Readable b) :
      Readable (.binary op a b)
  | lambda {ps : List String} {body : Expr} (hps : ∀ p ∈ ps, isName p.toList = true)
      (hbody : Readable body) : Readable (.lambda ps body)
  | call {name : String} {es : List Expr} (hname : isName name.toList = true)
      (hes : ∀ e ∈ es, Readable e) : Readable (.call name es)
  | invoke {ps : List String} {body : Expr} {es : List Expr} (hf : Readable (.lambda ps body))
      (hes : ∀ e ∈ es, Readable e) : Readable (.invoke (.lambda ps body) es)

/-- What a readable expression is made of is readable. -/
lemma Readable.child {e x : Expr} (h : e.Readable) (hx : x ∈ e.children) : x.Readable := by
  cases h with
  | number hx => cases hx
  | var hname => cases hx
  | binary ha hb =>
    rcases List.mem_cons.mp hx with rfl | hx
    · exact ha
    · rw [List.mem_singleton.mp hx]
      exact hb
  | lambda hps hbody =>
    rw [List.mem_singleton.mp hx]
    exact hbody
  | call hname hes => exact hes x hx
  | invoke hf hes =>
    rcases List.mem_cons.mp hx with rfl | hx
    · exact hf
    · exact hes x hx

mutual

/-- The numbers in an expression, from left to right. -/
def literals : Expr → List Float
  | number value => [value]
  | var _ => []
  | binary _ left right => left.literals ++ right.literals
  | lambda _ body => body.literals
  | call _ args => literalsAll args
  | invoke function args => function.literals ++ literalsAll args

/-- The numbers in a list of expressions. -/
def literalsAll : List Expr → List Float
  | [] => []
  | e :: es => e.literals ++ literalsAll es

end

variable {e first : Expr} {es : List Expr} {links : List (Operator × Expr)} {x : Float}

/-- A number of a list of expressions is in one of them. -/
lemma mem_literalsAll : x ∈ literalsAll es ↔ ∃ e ∈ es, x ∈ e.literals := by
  induction es with
  | nil => simp [literalsAll]
  | cons e es ih => simp [literalsAll, ih]

/-- What holds of the numbers of a list of expressions holds of those of each of them. -/
lemma forall_literalsAll {p : Float → Prop} (h : ∀ x ∈ literalsAll es, p x) (he : e ∈ es) :
    ∀ x ∈ e.literals, p x :=
  fun x hx => h x (mem_literalsAll.mpr ⟨e, he, hx⟩)

/-- The numbers of a readable tree are literals. -/
lemma Readable.isLiteral (h : Readable e) (hx : x ∈ e.literals) : Number.IsLiteral x := by
  induction h with
  | number hy =>
    rw [List.mem_singleton.mp hx]
    exact hy
  | var => cases hx
  | binary _ _ iha ihb =>
    rw [literals, List.mem_append] at hx
    exact hx.elim iha ihb
  | lambda _ _ ih => exact ih hx
  | call _ _ ih =>
    obtain ⟨e, he, hx⟩ := mem_literalsAll.mp hx
    exact ih e he hx
  | invoke _ _ ihf ih =>
    rw [literals, List.mem_append] at hx
    rcases hx with hx | hx
    · exact ihf hx
    · obtain ⟨e, he, hx⟩ := mem_literalsAll.mp hx
      exact ih e he hx

/-! ## Chains -/

/-- Grouping readable operands gives readable operands. -/
lemma Readable.group (p : Nat) (hfirst : Readable first) (hlinks : ∀ l ∈ links, Readable l.2) :
    Readable (group p first links).1 ∧ ∀ l ∈ (group p first links).2, Readable l.2 := by
  induction links generalizing first with
  | nil => exact ⟨hfirst, by simp [Expr.group]⟩
  | cons l links ih =>
    obtain ⟨op, e⟩ := l
    rw [List.forall_mem_cons] at hlinks
    by_cases hop : op.precedence = p
    · simp only [Expr.group, hop, if_true]
      exact ih (.binary hfirst hlinks.1) hlinks.2
    · simp only [Expr.group, hop, if_false]
      obtain ⟨hnext, hothers⟩ := ih hlinks.1 hlinks.2
      exact ⟨hfirst, List.forall_mem_cons.mpr ⟨hnext, hothers⟩⟩

/-- The tree of a chain of readable operands is readable. -/
lemma Readable.assemble (hfirst : Readable first) (hlinks : ∀ l ∈ links, Readable l.2) :
    Readable (first.assemble links) := by
  obtain ⟨h₃, hl₃⟩ := hfirst.group 3 hlinks
  obtain ⟨h₂, hl₂⟩ := h₃.group 2 hl₃
  exact (h₂.group 1 hl₂).1

end Expr

namespace Grammar

open Abacus.Expr (Readable)

variable {part : Part} {ls rest : List Lexeme}

/-! ## What is read -/

/-- The trees of a part are readable. What is read as a lambda is one. -/
def Part.Readable : Part → Prop
  | .expression e => e.Readable
  | .chain _ first links => first.Readable ∧ ∀ l ∈ links, l.2.Readable
  | .operand e => e.Readable
  | .lambda f => f.Readable ∧ ∃ ps body, f = .lambda ps body
  | .args es => ∀ e ∈ es, e.Readable

/-- Parameters among the lexemes of a text can be names. -/
lemma isName_of_written {ps : List String} (h : ∀ l ∈ parameters ps, l.Written) :
    ∀ p ∈ ps, isName p.toList = true := by
  fun_induction parameters ps with
  | case1 => simp
  | case2 p => simpa [Lexeme.Written] using h
  | case3 p ps _ ih =>
    simp only [List.forall_mem_cons] at h
    exact List.forall_mem_cons.mpr ⟨h.1, ih h.2.2⟩

/-- What is read from the lexemes of a text is readable.

**Proof sketch.** Induction on the part. Names and numerals come from lexemes, and the rest of the
lexemes is one of the text, too. -/
theorem Reads.readable (h : Reads part ls rest) (hls : ∀ l ∈ ls, l.Written) :
    part.Readable ∧ ∀ l ∈ rest, l.Written := by
  induction h with
  | expression _ ih =>
    obtain ⟨⟨hfirst, hlinks⟩, hrest⟩ := ih hls
    exact ⟨hfirst.assemble hlinks, hrest⟩
  | last _ ih =>
    obtain ⟨he, hrest⟩ := ih hls
    exact ⟨⟨he, by simp⟩, hrest⟩
  | lastLambda _ ih =>
    obtain ⟨⟨hf, -⟩, hrest⟩ := ih hls
    exact ⟨⟨hf, by simp⟩, hrest⟩
  | link _ _ ihe ih =>
    obtain ⟨he, hmid⟩ := ihe hls
    obtain ⟨⟨hnext, hlinks⟩, hrest⟩ := ih (List.forall_mem_cons.mp hmid).2
    exact ⟨⟨he, List.forall_mem_cons.mpr ⟨hnext, hlinks⟩⟩, hrest⟩
  | number hvalue =>
    exact ⟨.number (Number.isLiteral_of_literal? hvalue), (List.forall_mem_cons.mp hls).2⟩
  | name =>
    rw [List.forall_mem_cons] at hls
    exact ⟨.var hls.1, hls.2⟩
  | call _ ih =>
    rw [List.forall_mem_cons, List.forall_mem_cons] at hls
    obtain ⟨hes, hrest⟩ := ih hls.2.2
    exact ⟨.call hls.1 hes, (List.forall_mem_cons.mp hrest).2⟩
  | enclosed _ ih =>
    obtain ⟨⟨hf, -⟩, hrest⟩ := ih (List.forall_mem_cons.mp hls).2
    exact ⟨hf, (List.forall_mem_cons.mp hrest).2⟩
  | invoke _ _ ihf ihes =>
    obtain ⟨⟨hf, ps, body, rfl⟩, hmid⟩ := ihf (List.forall_mem_cons.mp hls).2
    rw [List.forall_mem_cons, List.forall_mem_cons] at hmid
    obtain ⟨hes, hrest⟩ := ihes hmid.2.2
    exact ⟨.invoke hf hes, (List.forall_mem_cons.mp hrest).2⟩
  | group _ _ ih =>
    obtain ⟨he, hrest⟩ := ih (List.forall_mem_cons.mp hls).2
    exact ⟨he, (List.forall_mem_cons.mp hrest).2⟩
  | @lambda ps body _ _ _ ih =>
    simp only [List.forall_mem_cons, List.forall_mem_append] at hls
    obtain ⟨hbody, hrest⟩ := ih hls.2.2.2.2.2
    exact ⟨⟨.lambda (isName_of_written hls.2.2.1) hbody, ps, body, rfl⟩, hrest⟩
  | noArgs => exact ⟨by simp [Part.Readable], hls⟩
  | lastArg _ ih =>
    obtain ⟨he, hrest⟩ := ih hls
    exact ⟨List.forall_mem_singleton.mpr he, hrest⟩
  | nextArg _ _ ihe ihes =>
    obtain ⟨he, hmid⟩ := ihe hls
    obtain ⟨hes, hrest⟩ := ihes (List.forall_mem_cons.mp hmid).2
    exact ⟨List.forall_mem_cons.mpr ⟨he, hes⟩, hrest⟩

end Grammar

/-- A text that is an expression has a readable tree. -/
theorem Expr.readable_of_parse {limits : Limits} {text : String} {e : Expr}
    (h : parse limits text = .ok e) : e.Readable := by
  obtain ⟨ls, hls, hreads⟩ := reads_of_parse h
  exact (hreads.readable (lexemes?_eq_some_iff.mp hls).written).1

end Abacus
