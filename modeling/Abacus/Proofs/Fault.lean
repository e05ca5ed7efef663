import Abacus.Fault
import Mathlib.Tactic.Lemma

/-!
# Kinds of faults

What sort of error a fault is, apart from its words and from the texts that it refers to, and
which faults a line can have that is no statement.

## Main definitions

* `Abacus.Fault.Kind`, `Abacus.Fault.kind` — the kinds of faults.
* `Abacus.Fault.OfReading` — the faults of lines that are no statements.
* `Abacus.Fault.SameKind` — results that are the same but for the words of their faults.
-/

namespace Abacus.Fault

variable {fault : Fault}

/-- The kinds of faults. -/
inductive Kind where
  /-- A character that starts no lexeme. -/
  | lexical
  /-- A text that is no statement or no expression. -/
  | malformed
  | invalidName
  | duplicateParameter
  | undefinedVariable
  | undefinedFunction
  /-- A function where a number is needed, or a number where a function is. -/
  | typeMismatch
  | divisionByZero
  | wrongArity
  /-- An evaluation or an expression that nests too deeply. -/
  | depth
  | unreadable
  /-- A fault of the program. -/
  | internal
deriving DecidableEq, Repr

/-- The kind of a fault. -/
def kind : Fault → Kind
  | badCharacter .. => .lexical
  | badSyntax .. | missingEquals _ | malformedDefinition _ => .malformed
  | invalidName .. => .invalidName
  | duplicateParameter .. => .duplicateParameter
  | undefinedVariable _ => .undefinedVariable
  | undefinedFunction _ => .undefinedFunction
  | functionOperand .. | notAFunction _ => .typeMismatch
  | divisionByZero .. => .divisionByZero
  | wrongArity .. => .wrongArity
  | tooDeep _ | tooNested => .depth
  | unreadable _ => .unreadable
  | impossiblePath | incomparableLimit => .internal

/-- The faults of lines that are no statements. -/
inductive OfReading : Fault → Prop where
  | badCharacter (text : String) (position : Nat) (character : Char) :
      OfReading (.badCharacter text position character)
  | badSyntax (problem : SyntaxProblem) (found : Option Token) (text : String) :
      OfReading (.badSyntax problem found text)
  | tooNested : OfReading .tooNested
  | missingEquals (statement : String) : OfReading (.missingEquals statement)
  | malformedDefinition (statement : String) : OfReading (.malformedDefinition statement)
  | invalidName (role : NameRole) (name statement : String) :
      OfReading (.invalidName role name statement)
  | duplicateParameter (name statement : String) : OfReading (.duplicateParameter name statement)

/-- A line that is no statement has no fault of the program. -/
lemma OfReading.isInternal (h : fault.OfReading) : fault.report.isInternal = false := by
  cases h with
  | badSyntax problem found text => cases found <;> rfl
  | invalidName role name statement =>
    rw [report]
    split <;> rfl
  | _ => rfl

/-- No types mismatch in a line that is no statement. -/
lemma OfReading.kind_ne_typeMismatch (h : fault.OfReading) : fault.kind ≠ .typeMismatch := by
  cases h <;> simp [kind]

/-! ## Results that differ in the words of their faults -/

variable {α β : Type}

/-- Results that are the same value, or faults of the same kind. -/
inductive SameKind : Except Fault α → Except Fault α → Prop where
  | ok (a : α) : SameKind (.ok a) (.ok a)
  | error {fault fault' : Fault} (h : fault.kind = fault'.kind) :
      SameKind (.error fault) (.error fault')

/-- Two steps of each kind, one after another. -/
lemma SameKind.bind {x x' : Except Fault α} {f f' : α → Except Fault β} (h : SameKind x x')
    (hf : ∀ a, SameKind (f a) (f' a)) : SameKind (x >>= f) (x' >>= f') := by
  cases h with
  | ok a => exact hf a
  | error h => exact .error h

/-- A change of the value. -/
lemma SameKind.map {x x' : Except Fault α} (h : SameKind x x') (f : α → β) :
    SameKind (x.map f) (x'.map f) := by
  cases h with
  | ok a => exact .ok (f a)
  | error h => exact .error h

end Abacus.Fault
