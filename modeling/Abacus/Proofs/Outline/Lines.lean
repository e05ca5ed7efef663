import Abacus.Expr.Render
import Abacus.Proofs.Places
import Abacus.Proofs.Spelling

/-!
# The lines of an outline

An outline falls apart into lines: one for an expression without parts, and otherwise a line that
opens a bracket, the lines of the parts, and a line that closes the bracket. A comma is cut off
behind the last part only, so what is left of the commas ends the last line of each part that has
a later sibling.

## Main definitions

* `Abacus.Expr.outlineLines` — the lines of the outline of an expression.

## Main results

* `Abacus.Expr.outlineAt_eq_intercalate` — an outline is its lines with line breaks between them.
* `Abacus.Expr.splitOn_outlineAt` — the outline of an expression on one line is split into its
  lines.
-/

namespace Abacus.Expr

variable {e : Expr} {es : List Expr} {level : Nat} {later : Bool}

/-! ## Lines -/

/-- The comma behind what has a later sibling. -/
def comma (later : Bool) : List Char := if later then [','] else []

/-- The line of an expression: it ends there, or opens a bracket. -/
def openingLine (level : Nat) (later : Bool) (e : Expr) : List Char :=
  heading level e ++ if e.children.isEmpty then ')' :: comma later else ", nodes=[".toList

/-- The line that closes a bracket. -/
def closingLine (level : Nat) (later : Bool) : List Char :=
  indentation level ++ "])".toList ++ comma later

/-- The lines of an expression whose parts have the lines `inner`. -/
def block (level : Nat) (later : Bool) (e : Expr) (inner : List (List Char)) : List (List Char) :=
  openingLine level later e :: if e.children.isEmpty then [] else inner ++ [closingLine level later]

mutual

/-- The lines of the outline of an expression at an indentation. -/
def outlineLines (level : Nat) (later : Bool) : Expr → List (List Char)
  | number value => block level later (number value) []
  | var name => block level later (var name) []
  | binary op left right =>
    block level later (binary op left right)
      (left.outlineLines (level + 1) true ++ right.outlineLines (level + 1) false)
  | lambda params body =>
    block level later (lambda params body) (body.outlineLines (level + 1) false)
  | call name args => block level later (call name args) (linesAll (level + 1) args)
  | invoke function args =>
    block level later (invoke function args)
      (function.outlineLines (level + 1) (!args.isEmpty) ++ linesAll (level + 1) args)

/-- The lines of the outlines of neighbours. All but the last one have a later sibling. -/
def linesAll (level : Nat) : List Expr → List (List Char)
  | [] => []
  | e :: es => e.outlineLines level (!es.isEmpty) ++ linesAll level es

end

/-- The lines of an expression are around those of its children. -/
lemma outlineLines_eq (level : Nat) (later : Bool) (e : Expr) :
    e.outlineLines level later = block level later e (linesAll (level + 1) e.children) := by
  cases e <;> simp [outlineLines, linesAll, children]

/-! ## Line breaks -/

/-- Line breaks between lines are line breaks before all of them but one. -/
lemma cons_intercalate {lines : List (List Char)} (h : lines ≠ []) :
    '\n' :: ['\n'].intercalate lines = lines.flatMap ('\n' :: ·) := by
  induction lines with
  | nil => exact absurd rfl h
  | cons line lines ih =>
    cases lines with
    | nil => simp [List.intercalate]
    | cons next lines =>
      rw [List.flatMap_cons, ← ih (List.cons_ne_nil next lines)]
      simp [List.intercalate]

/-- Lines are what is between line breaks. -/
lemma splitOn_intercalate {lines : List (List Char)} (hne : lines ≠ [])
    (h : ∀ line ∈ lines, '\n' ∉ line) : Text.splitOn '\n' (['\n'].intercalate lines) = lines := by
  induction lines with
  | nil => exact absurd rfl hne
  | cons line lines ih =>
    rw [List.forall_mem_cons] at h
    cases lines with
    | nil =>
      rw [List.intercalate_singleton, Text.splitOn_of_notMem h.1]
    | cons next lines =>
      rw [List.intercalate_cons_cons, List.append_assoc, List.singleton_append,
        Text.splitOn_append h.1, ih (List.cons_ne_nil next lines) h.2]

/-- The lines of listed expressions, with a comma behind the last one, are the listed outlines. -/
lemma flatMap_linesAll (h : ∀ x ∈ es, ∀ later, (x.outlineLines level later).flatMap ('\n' :: ·) =
      '\n' :: (x.outlineAt level ++ comma later)) (hes : es ≠ []) :
    (linesAll level es).flatMap ('\n' :: ·) ++ [','] = outlineAll level es := by
  induction es with
  | nil => exact absurd rfl hes
  | cons x es ih =>
    rw [List.forall_mem_cons] at h
    rw [linesAll, outlineAll, List.flatMap_append, h.1]
    cases es with
    | nil => simp [linesAll, outlineAll, listed, comma]
    | cons y es =>
      rw [List.append_assoc, ih h.2 (List.cons_ne_nil y es)]
      simp [listed, comma]

/-- The lines of an expression are its outline, with a comma behind it if there is a later sibling.

**Proof sketch.** Induction on the tree. The listed outlines of the children end with a comma,
which is the one that is cut off. -/
lemma flatMap_outlineLines (e : Expr) :
    ∀ level later, (e.outlineLines level later).flatMap ('\n' :: ·) =
    '\n' :: (e.outlineAt level ++ comma later) := by
  induction e using induction_on_children with
  | step e ih =>
    intro level later
    rw [outlineLines_eq, outlineAt_eq]
    unfold block entry openingLine
    split
    · simp
    · rename_i hes
      rw [List.isEmpty_iff] at hes
      have hinner := flatMap_linesAll (fun x hx => ih x hx (level + 1)) hes
      rw [← hinner, ← List.append_assoc, List.dropLast_concat]
      simp [closingLine]

/-- Every expression has a line. -/
lemma outlineLines_ne_nil (level : Nat) (later : Bool) (e : Expr) :
    e.outlineLines level later ≠ [] := by
  rw [outlineLines_eq]
  exact List.cons_ne_nil _ _

/-- **An outline is its lines with line breaks between them.** -/
theorem outlineAt_eq_intercalate (level : Nat) (e : Expr) :
    e.outlineAt level = ['\n'].intercalate (e.outlineLines level false) := by
  have hlines := cons_intercalate (e.outlineLines_ne_nil level false)
  rw [flatMap_outlineLines, comma, if_neg (by simp), List.append_nil, List.cons_inj_right] at hlines
  exact hlines.symm

/-! ## Texts on one line -/

/-- No lexeme has line breaks. -/
lemma newline_notMem_lexeme {l : Lexeme} (h : l.Written) : '\n' ∉ l.chars :=
  fun hmem => absurd (h.isBlank_of_mem _ hmem) (by decide)

/-- No name has line breaks. -/
lemma newline_notMem_name {name : String} (h : isName name.toList = true) : '\n' ∉ name.toList :=
  newline_notMem_lexeme (l := .identifier name) h

/-- No literal is shown with line breaks. -/
lemma newline_notMem_numeral {x : Float} (hx : Number.IsLiteral x) : '\n' ∉ Number.numeral x := by
  rcases hx.numeral_cases with ⟨-, h⟩ | ⟨-, h⟩ | ⟨m, n, op, hm, hn, h⟩
  · rw [h]
    decide
  · exact fun hmem => absurd (h.all _ hmem) (by decide)
  · have hop : '\n' ≠ op.symbol := by cases op <;> decide
    rw [h, List.mem_append, List.mem_cons, List.mem_cons]
    rintro (hmem | hmem | hmem | hmem)
    · exact newline_notMem_lexeme hm hmem
    · exact absurd hmem (by decide)
    · exact hop hmem
    · exact newline_notMem_lexeme hn hmem

/-- Parentheses are no line breaks. -/
lemma newline_notMem_encloseIf {cs : List Char} (needed : Bool) (h : '\n' ∉ cs) :
    '\n' ∉ encloseIf needed cs := by
  cases needed with
  | false => exact h
  | true => simpa [encloseIf] using h

/-- Parameters are on one line. -/
lemma newline_notMem_renderParams {ps : List String} (h : ∀ p ∈ ps, isName p.toList = true) :
    '\n' ∉ renderParams ps := by
  fun_induction renderParams ps with
  | case1 => exact List.not_mem_nil
  | case2 p => exact newline_notMem_name (h p List.mem_cons_self)
  | case3 p ps hps ih =>
    rw [List.forall_mem_cons] at h
    simpa using ⟨newline_notMem_name h.1, ih h.2⟩

/-- Arguments are on one line if each of them is. -/
lemma newline_notMem_renderAll (h : ∀ x ∈ es, '\n' ∉ x.render) : '\n' ∉ renderAll es := by
  induction es with
  | nil => exact List.not_mem_nil
  | cons x es ih =>
    rw [List.forall_mem_cons] at h
    cases es with
    | nil => exact h.1
    | cons y es => simpa [renderAll] using ⟨h.1, ih h.2⟩

/-- **The expressions that texts have are printed on one line.**

**Proof sketch.** Induction along what makes an expression readable. A line break is in no name, in
no numeral and in none of the marks between them. -/
theorem Readable.newline_notMem_render (h : e.Readable) : '\n' ∉ e.render := by
  induction h with
  | number hx => exact newline_notMem_numeral hx
  | var hname => exact newline_notMem_name hname
  | @binary op a b _ _ iha ihb =>
    have ha := newline_notMem_encloseIf (a.needsParens op.precedence false) iha
    have hb := newline_notMem_encloseIf (b.needsParens op.precedence true) ihb
    have hop : '\n' ≠ op.symbol := by cases op <;> decide
    simpa [render] using ⟨ha, hop, hb⟩
  | lambda hps _ ih => simpa [render] using ⟨newline_notMem_renderParams hps, ih⟩
  | call hname _ ih => simpa [render] using ⟨newline_notMem_name hname, newline_notMem_renderAll ih⟩
  | invoke _ _ ihf ih =>
    rw [render]
    simpa using ⟨ihf, newline_notMem_renderAll ih⟩

/-- The text of a part is on one line if that of the whole is. -/
lemma newline_notMem_render_of_part {x : Expr} (h : '\n' ∉ e.render) (hx : x ∈ e.parts) :
    '\n' ∉ x.render := by
  obtain ⟨before, behind, hplaced⟩ := exists_placedIn hx
  rw [hplaced.render_eq, List.mem_append, List.mem_append] at h
  exact fun hmem => h (.inr (.inl hmem))

/-- Blanks at the start of a line are no line breaks. -/
lemma newline_notMem_indentation (level : Nat) : '\n' ∉ indentation level :=
  fun h => absurd (List.eq_of_mem_replicate h) (by decide)

/-- The line of an expression has no line breaks if its text has none. -/
lemma newline_notMem_openingLine (h : '\n' ∉ e.render) (level : Nat) (later : Bool) :
    '\n' ∉ openingLine level later e := by
  have hkind : '\n' ∉ e.kind.toList := by cases e <;> rw [kind] <;> decide
  have hindentation := newline_notMem_indentation level
  have hend : '\n' ∉ if e.children.isEmpty then ')' :: comma later else ", nodes=[".toList := by
    cases e.children.isEmpty <;> cases later <;> decide
  unfold openingLine heading
  simp only [List.mem_append, not_or]
  exact ⟨⟨⟨⟨⟨hindentation, hkind⟩, by decide⟩, h⟩, by decide⟩, hend⟩

/-- The line that closes a bracket has no line breaks. -/
lemma newline_notMem_closingLine (level : Nat) (later : Bool) : '\n' ∉ closingLine level later := by
  have hend : '\n' ∉ "])".toList ∧ '\n' ∉ comma later := by cases later <;> decide
  unfold closingLine
  simp only [List.mem_append, not_or]
  exact ⟨⟨newline_notMem_indentation level, hend.1⟩, hend.2⟩

/-- What is a line of neighbours is a line of one of them. -/
lemma mem_linesAll {line : List Char} (h : line ∈ linesAll level es) :
    ∃ x ∈ es, ∃ later, line ∈ x.outlineLines level later := by
  induction es with
  | nil => cases h
  | cons x es ih =>
    rw [linesAll, List.mem_append] at h
    rcases h with h | h
    · exact ⟨x, List.mem_cons_self, _, h⟩
    · obtain ⟨y, hy, later, hline⟩ := ih h
      exact ⟨y, List.mem_cons_of_mem x hy, later, hline⟩

/-- The lines of an expression on one line have no line breaks. -/
lemma newline_notMem_outlineLines (e : Expr) : '\n' ∉ e.render →
    ∀ level later, ∀ line ∈ e.outlineLines level later, '\n' ∉ line := by
  induction e using induction_on_children with
  | step e ih =>
    intro hrender level later line hline
    rw [outlineLines_eq, block, List.mem_cons] at hline
    rcases hline with rfl | hline
    · exact newline_notMem_openingLine hrender level later
    · split at hline
      · cases hline
      · rw [List.mem_append, List.mem_singleton] at hline
        rcases hline with hline | rfl
        · obtain ⟨x, hx, later', hline⟩ := mem_linesAll hline
          have hpart := mem_parts_of_child hx x.self_mem_parts
          exact ih x hx (newline_notMem_render_of_part hrender hpart) _ _ line hline
        · exact newline_notMem_closingLine level later

/-- **The outline of an expression on one line is split into its lines.** -/
theorem splitOn_outlineAt (h : '\n' ∉ e.render) (level : Nat) :
    Text.splitOn '\n' (e.outlineAt level) = e.outlineLines level false := by
  rw [outlineAt_eq_intercalate, splitOn_intercalate (e.outlineLines_ne_nil level false)]
  exact e.newline_notMem_outlineLines h level false

end Abacus.Expr
