import Abacus.Proofs.Outline.Lines

/-!
# The layout of an outline

Every expression has a first and a last line in an outline, which are counted from the tree alone.
The lines that are read at these places are the ones that open and close the expression. What is
proved about the lines is kept when the outlines of neighbours are put one behind the other, and
when an expression is put around the outlines of its children.

## Main definitions

* `Abacus.Expr.Span` — the first and the last line of an expression, and what is around it.
* `Abacus.Expr.spans` — the spans of an expression and its parts, each before those of its own
  parts.
* `Abacus.Expr.Layout` — that lines are laid out as spans say.

## Main results

* `Abacus.Expr.Layout.append`, `Abacus.Expr.Layout.around` — how layouts are put together.
* `Abacus.Expr.outline_layout` — the lines of an outline are laid out as the spans of the tree.
-/

namespace Abacus.Expr

variable {e : Expr} {es es' : List Expr} {k depth first level : Nat} {later : Bool}
  {lines lines' : List (List Char)}

/-! ## Reading a line -/

/-- Whether a line opens an expression. All lines do but those that close a bracket. -/
def opensNode (line : List Char) : Bool := (line.dropWhile (· == ' ')).head? != some ']'

/-- Whether a line opens a bracket. -/
def opensBracket (line : List Char) : Bool := line.getLast? == some '['

/-- How many blanks a line begins with. -/
def blanks (line : List Char) : Nat := (line.takeWhile (· == ' ')).length

/-- Reads lines with the blanks before all open brackets on a stack. A bracket is closed with as
many blanks as the last open one. -/
def closeBrackets (stack : List Nat) : List (List Char) → Option (List Nat)
  | [] => some stack
  | line :: lines =>
    if opensBracket line then closeBrackets (blanks line :: stack) lines
    else if opensNode line then closeBrackets stack lines
    else
      match stack with
      | [] => none
      | top :: stack => if top = blanks line then closeBrackets stack lines else none

/-- An open bracket is put on the stack. -/
lemma closeBrackets_of_opensBracket {line : List Char} (h : opensBracket line = true)
    (stack : List Nat) (lines : List (List Char)) :
    closeBrackets stack (line :: lines) = closeBrackets (blanks line :: stack) lines := by
  cases stack <;> simp [closeBrackets, h]

/-- A line without a bracket is passed over. -/
lemma closeBrackets_of_opensNode {line : List Char} (h : opensBracket line = false)
    (hnode : opensNode line = true) (stack : List Nat) (lines : List (List Char)) :
    closeBrackets stack (line :: lines) = closeBrackets stack lines := by
  cases stack <;> simp [closeBrackets, h, hnode]

/-- The last open bracket is closed with as many blanks. -/
lemma closeBrackets_of_closes {line : List Char} (h : opensBracket line = false)
    (hnode : opensNode line = false) (stack : List Nat) (lines : List (List Char)) :
    closeBrackets (blanks line :: stack) (line :: lines) = closeBrackets stack lines := by
  simp [closeBrackets, h, hnode]

/-- Behind the blanks at its start a line is read from its first other character. -/
lemma blanks_indentation {c : Char} (hc : c ≠ ' ') (level : Nat) (cs : List Char) :
    blanks (indentation level ++ c :: cs) = 4 * level ∧
      (indentation level ++ c :: cs).dropWhile (· == ' ') = c :: cs := by
  have hblank : ∀ a ∈ indentation level, (a == ' ') = true := by
    intro a ha
    rw [List.eq_of_mem_replicate ha]
    rfl
  have hc' : (c == ' ') = false := beq_eq_false_iff_ne.mpr hc
  unfold blanks
  rw [List.takeWhile_append_of_pos hblank, List.dropWhile_append_of_pos hblank, List.takeWhile_cons,
    hc', List.dropWhile_cons, hc']
  simp [indentation]

/-- The line of an expression begins with the kind of the expression. -/
lemma exists_openingLine (level : Nat) (later : Bool) (e : Expr) :
    ∃ c cs, openingLine level later e = indentation level ++ c :: cs ∧ c ≠ ' ' ∧ c ≠ ']' := by
  obtain ⟨c, cs, hkind, hblank, hbracket⟩ :
    ∃ c cs, e.kind.toList = c :: cs ∧ c ≠ ' ' ∧ c ≠ ']' := by
    cases e <;> rw [kind] <;> exact ⟨_, _, rfl, by decide, by decide⟩
  unfold openingLine heading
  rw [hkind]
  simp only [List.append_assoc, List.cons_append]
  exact ⟨c, _, rfl, hblank, hbracket⟩

/-- The line of an expression opens it. -/
lemma opensNode_openingLine (level : Nat) (later : Bool) (e : Expr) :
    opensNode (openingLine level later e) = true := by
  obtain ⟨c, cs, hline, hblank, hbracket⟩ := exists_openingLine level later e
  unfold opensNode
  rw [hline, (blanks_indentation hblank level cs).2, List.head?_cons, bne_iff_ne, ne_eq,
    Option.some_inj]
  exact hbracket

/-- The line of an expression begins with the blanks of its level. -/
lemma blanks_openingLine (level : Nat) (later : Bool) (e : Expr) :
    blanks (openingLine level later e) = 4 * level := by
  obtain ⟨c, cs, hline, hblank, -⟩ := exists_openingLine level later e
  rw [hline, (blanks_indentation hblank level cs).1]

/-- The line that closes a bracket begins with the bracket, behind the blanks of its level. -/
lemma closingLine_eq (level : Nat) (later : Bool) :
    closingLine level later = indentation level ++ ']' :: ')' :: comma later := by
  unfold closingLine
  rw [List.append_assoc]
  rfl

/-- The line that closes a bracket opens nothing. -/
lemma opensNode_closingLine (level : Nat) (later : Bool) :
    opensNode (closingLine level later) = false := by
  unfold opensNode
  rw [closingLine_eq, (blanks_indentation (by decide) level _).2]
  rfl

/-- The line that closes a bracket begins with the blanks of its level. -/
lemma blanks_closingLine (level : Nat) (later : Bool) :
    blanks (closingLine level later) = 4 * level := by
  rw [closingLine_eq, (blanks_indentation (by decide) level _).1]

/-- What the line of an expression ends with. -/
lemma getLast?_openingLine (level : Nat) (later : Bool) (e : Expr) :
    (openingLine level later e).getLast? =
      some (if e.children.isEmpty then if later then ',' else ')' else '[') := by
  unfold openingLine
  rw [List.getLast?_append]
  cases e.children.isEmpty <;> cases later <;> rfl

/-- The line of an expression opens a bracket if there are children. -/
lemma opensBracket_openingLine (level : Nat) (later : Bool) (e : Expr) :
    opensBracket (openingLine level later e) = !e.children.isEmpty := by
  unfold opensBracket
  rw [getLast?_openingLine]
  cases e.children.isEmpty <;> cases later <;> rfl

/-- What the line that closes a bracket ends with. -/
lemma getLast?_closingLine (level : Nat) (later : Bool) :
    (closingLine level later).getLast? = some (if later then ',' else ')') := by
  rw [closingLine_eq, List.getLast?_append]
  cases later <;> rfl

/-- The line that closes a bracket opens no other one. -/
lemma opensBracket_closingLine (level : Nat) (later : Bool) :
    opensBracket (closingLine level later) = false := by
  unfold opensBracket
  rw [getLast?_closingLine]
  cases later <;> rfl

/-! ## Spans -/

/-- Where an expression stands in an outline. -/
structure Span where
  /-- The expression. -/
  node : Expr
  /-- How many expressions are around it. -/
  depth : Nat
  /-- Whether the expression around it has another child behind it. -/
  later : Bool
  /-- The number of its first line. -/
  first : Nat
  /-- The number of its last line. -/
  last : Nat

/-- The lines of an expression: one for each part, and another one for each part that has
children. -/
def lineCount (e : Expr) : Nat := e.parts.length + e.parts.countP (fun x => !x.children.isEmpty)

/-- The span of an expression from a line on. -/
def spanAt (depth first : Nat) (later : Bool) (e : Expr) : Span :=
  ⟨e, depth, later, first, first + (e.lineCount - 1)⟩

/-- The expression of a span. -/
@[simp]
lemma spanAt_node (depth first : Nat) (later : Bool) (e : Expr) :
    (spanAt depth first later e).node = e := rfl

/-- The depth of a span. -/
@[simp]
lemma spanAt_depth (depth first : Nat) (later : Bool) (e : Expr) :
    (spanAt depth first later e).depth = depth := rfl

/-- Whether a span has a later sibling. -/
@[simp]
lemma spanAt_later (depth first : Nat) (later : Bool) (e : Expr) :
    (spanAt depth first later e).later = later := rfl

/-- The first line of a span. -/
@[simp]
lemma spanAt_first (depth first : Nat) (later : Bool) (e : Expr) :
    (spanAt depth first later e).first = first := rfl

mutual

/-- The spans of an expression and its parts from a line on, each before those of its own parts. -/
def spans (depth first : Nat) (later : Bool) : Expr → List Span
  | number value => [spanAt depth first later (number value)]
  | var name => [spanAt depth first later (var name)]
  | binary op left right =>
    spanAt depth first later (binary op left right) ::
      (left.spans (depth + 1) (first + 1) true ++
        right.spans (depth + 1) (first + 1 + left.lineCount) false)
  | lambda params body =>
    spanAt depth first later (lambda params body) :: body.spans (depth + 1) (first + 1) false
  | call name args =>
    spanAt depth first later (call name args) :: spansAll (depth + 1) (first + 1) args
  | invoke function args =>
    spanAt depth first later (invoke function args) ::
      (function.spans (depth + 1) (first + 1) (!args.isEmpty) ++
        spansAll (depth + 1) (first + 1 + function.lineCount) args)

/-- The spans of neighbours, one behind the other. All but the last one have a later sibling. -/
def spansAll (depth first : Nat) : List Expr → List Span
  | [] => []
  | e :: es => e.spans depth first (!es.isEmpty) ++ spansAll depth (first + e.lineCount) es

end

/-- The spans of the children are behind that of the expression. -/
lemma spans_eq (depth first : Nat) (later : Bool) (e : Expr) : e.spans depth first later =
    spanAt depth first later e :: spansAll (depth + 1) (first + 1) e.children := by
  cases e <;> simp [spans, spansAll, children]

/-- The lines of neighbours are counted together. -/
lemma sum_lineCount (es : List Expr) : (es.map lineCount).sum =
    (partsAll es).length + (partsAll es).countP (fun x => !x.children.isEmpty) := by
  induction es with
  | nil => rfl
  | cons e es ih =>
    rw [List.map_cons, List.sum_cons, ih, partsAll, List.length_append, List.countP_append,
      lineCount]
    omega

/-- Around the lines of its children an expression has one line, or two if there are any. -/
lemma lineCount_eq (e : Expr) :
    e.lineCount = (e.children.map lineCount).sum + if e.children.isEmpty then 1 else 2 := by
  rw [lineCount, parts_eq, List.length_cons, List.countP_cons, sum_lineCount]
  cases e.children.isEmpty <;> simp <;> omega

/-! ## Layouts -/

namespace Span

/-- The line that opens the expression of a span, in an outline that starts at level `k`. -/
def opening (k : Nat) (s : Span) : List Char := openingLine (k + s.depth) s.later s.node

/-- The line that closes the bracket of a span, in an outline that starts at level `k`. -/
def closing (k : Nat) (s : Span) : List Char := closingLine (k + s.depth) s.later

end Span

variable {spans spans' : List Span}

/-- That the lines from number `first` on are laid out as the spans of the expressions `es` say. -/
structure Layout (k depth first : Nat) (es : List Expr) (lines : List (List Char))
    (spans : List Span) : Prop where
  /-- The spans are those of all parts, each before its own parts. -/
  nodes : spans.map Span.node = partsAll es
  /-- There is a line for each part, and another one for each part that has children. -/
  count : lines.length = (es.map lineCount).sum
  /-- The spans are inside of the lines. -/
  inside : ∀ s ∈ spans, depth ≤ s.depth ∧ first ≤ s.first ∧ s.first ≤ s.last ∧
    s.last < first + lines.length
  /-- The lines that open an expression are the first lines of the spans, in their order. -/
  opening : (lines.zipIdx first).filter (fun line => opensNode line.1) =
    spans.map fun s => (s.opening k, s.first)
  /-- What has children closes its bracket on its last line, which is another one. -/
  closing : ∀ s ∈ spans, s.node.children ≠ [] →
    s.first < s.last ∧ (s.closing k, s.last) ∈ lines.zipIdx first
  /-- The spans that begin inside of a span are those of its parts, and they end inside of it. -/
  nested : ∀ s rest, s :: rest <:+ spans → ∃ inner behind, rest = inner ++ behind ∧
    s.node.parts = s.node :: inner.map Span.node ∧
    (∀ t ∈ inner, s.depth < t.depth ∧ s.first < t.first ∧ t.last < s.last) ∧
      ∀ t ∈ behind, s.last < t.first
  /-- All brackets that are opened are closed. -/
  brackets : ∀ stack more, closeBrackets stack (lines ++ more) = closeBrackets stack more
  /-- The lines with a comma are the last lines of what has a later sibling. -/
  commas : ∀ line i, (line, i) ∈ lines.zipIdx first →
    (line.getLast? = some ',' ↔ ∃ s ∈ spans, s.later = true ∧ s.last = i)

namespace Layout

/-- Nothing is laid out on no lines. -/
lemma nil : Layout k depth first [] [] [] where
  nodes := rfl
  count := rfl
  inside _ hs := absurd hs List.not_mem_nil
  opening := rfl
  closing _ hs := absurd hs List.not_mem_nil
  nested s rest h := absurd (List.suffix_nil.mp h) (List.cons_ne_nil s rest)
  brackets _ _ := rfl
  commas _ _ h := absurd h List.not_mem_nil

/-- What ends a list of two pieces is inside of the second one, or goes on with all of it. -/
lemma suffix_append_cases {α : Type} {a : α} {rest xs ys : List α} (h : a :: rest <:+ xs ++ ys) :
    a :: rest <:+ ys ∨ ∃ rest', rest = rest' ++ ys ∧ a :: rest' <:+ xs := by
  obtain ⟨front, hfront⟩ := h
  rcases List.append_eq_append_iff.mp hfront with ⟨zs, hxs, hrest⟩ | ⟨zs, hfront, hys⟩
  · cases zs with
    | nil => exact .inl ⟨[], hrest⟩
    | cons z zs =>
      rw [List.cons_append, List.cons.injEq] at hrest
      obtain ⟨rfl, rfl⟩ := hrest
      exact .inr ⟨zs, rfl, front, hxs.symm⟩
  · exact .inl ⟨zs, hys.symm⟩

/-- Outlines of neighbours are laid out one behind the other. -/
theorem append (h : Layout k depth first es lines spans)
    (h' : Layout k depth (first + lines.length) es' lines' spans') :
    Layout k depth first (es ++ es') (lines ++ lines') (spans ++ spans') where
  nodes := by rw [List.map_append, h.nodes, h'.nodes, partsAll_append]
  count := by rw [List.length_append, h.count, h'.count, List.map_append, List.sum_append]
  inside s hs := by
    rw [List.length_append]
    rcases List.mem_append.mp hs with hs | hs
    · have := h.inside s hs
      omega
    · have := h'.inside s hs
      omega
  opening := by
    rw [List.zipIdx_append, List.filter_append, h.opening, h'.opening, List.map_append]
  closing s hs hchildren := by
    rw [List.zipIdx_append, List.mem_append]
    rcases List.mem_append.mp hs with hs | hs
    · exact (h.closing s hs hchildren).imp_right .inl
    · exact (h'.closing s hs hchildren).imp_right .inr
  nested s rest hsuffix := by
    rcases suffix_append_cases hsuffix with htail | ⟨rest', rfl, htail⟩
    · exact h'.nested s rest htail
    · obtain ⟨inner, behind, rfl, hparts, hinner, hbehind⟩ := h.nested s rest' htail
      refine ⟨inner, behind ++ spans', List.append_assoc .., hparts, hinner, fun t ht => ?_⟩
      rcases List.mem_append.mp ht with ht | ht
      · exact hbehind t ht
      · have hs := h.inside s (htail.subset List.mem_cons_self)
        have ht := h'.inside t ht
        omega
  brackets stack more := by rw [List.append_assoc, h.brackets, h'.brackets]
  commas line i hline := by
    rw [List.zipIdx_append, List.mem_append] at hline
    simp only [List.mem_append]
    rcases hline with hline | hline
    · rw [h.commas line i hline]
      have hlt := List.snd_lt_add_of_mem_zipIdx hline
      constructor
      · rintro ⟨s, hs, hcomma⟩
        exact ⟨s, .inl hs, hcomma⟩
      · rintro ⟨s, hs | hs, hlater, hlast⟩
        · exact ⟨s, hs, hlater, hlast⟩
        · have := h'.inside s hs
          omega
    · rw [h'.commas line i hline]
      have hle := List.le_snd_of_mem_zipIdx hline
      constructor
      · rintro ⟨s, hs, hcomma⟩
        exact ⟨s, .inr hs, hcomma⟩
      · rintro ⟨s, hs | hs, hlater, hlast⟩
        · have := h.inside s hs
          omega
        · exact ⟨s, hs, hlater, hlast⟩

/-- An expression without parts is laid out on its own line. -/
theorem leaf (hes : e.children = []) : Layout k depth first [e] [openingLine (k + depth) later e]
    [spanAt depth first later e] := by
  have hempty : e.children.isEmpty = true := List.isEmpty_iff.mpr hes
  have hparts : e.parts = [e] := by rw [parts_eq, hes, partsAll]
  have hcount : e.lineCount = 1 := by rw [lineCount_eq, hes]; rfl
  have hlast : (spanAt depth first later e).last = first := by rw [spanAt, hcount]; rfl
  have hchar := getLast?_openingLine (k + depth) later e
  rw [if_pos hempty] at hchar
  constructor
  case nodes => rw [partsAll, partsAll, hparts]; rfl
  case count => rw [List.map_singleton, List.sum_singleton, hcount]; rfl
  case inside =>
    intro s hs
    rw [List.mem_singleton] at hs
    subst hs
    rw [hlast]
    exact ⟨le_rfl, le_rfl, le_rfl, Nat.lt_succ_self first⟩
  case opening =>
    rw [List.zipIdx_singleton, List.filter_cons, if_pos (opensNode_openingLine ..)]
    rfl
  case closing =>
    intro s hs hchildren
    rw [List.mem_singleton] at hs
    subst hs
    exact absurd hes hchildren
  case nested =>
    intro s rest hsuffix
    rw [List.suffix_cons_iff, List.suffix_nil] at hsuffix
    rcases hsuffix with heq | heq
    · rw [List.cons.injEq] at heq
      obtain ⟨rfl, rfl⟩ := heq
      exact ⟨[], [], rfl, hparts, by simp, by simp⟩
    · exact absurd heq (List.cons_ne_nil s rest)
  case brackets =>
    intro stack more
    apply closeBrackets_of_opensNode
    · rw [opensBracket_openingLine, hempty]
      rfl
    · exact opensNode_openingLine ..
  case commas =>
    intro line i hline
    rw [List.zipIdx_singleton, List.mem_singleton, Prod.mk.injEq] at hline
    obtain ⟨rfl, rfl⟩ := hline
    simp only [List.mem_singleton, exists_eq_left]
    rw [hchar, hlast]
    cases later <;> simp [spanAt]

section Around

variable (h : Layout k (depth + 1) (first + 1) e.children lines spans) (hes : e.children ≠ [])

include h hes

/-- Around the lines of its children an expression has two lines. -/
lemma lineCount_around : e.lineCount = lines.length + 2 := by
  rw [lineCount_eq, h.count, List.isEmpty_eq_false_iff.mpr hes]
  rfl

/-- An expression with children ends on the line behind theirs. -/
lemma last_around : (spanAt depth first later e).last = first + (lines.length + 1) := by
  rw [spanAt, h.lineCount_around hes]
  rfl

/-- Of the two lines around those of the children only the last one can have a comma. -/
lemma commas_around {line : List Char} {i : Nat}
    (hline : (line, i) ∈ (openingLine (k + depth) later e ::
      (lines ++ [closingLine (k + depth) later])).zipIdx first) :
    line.getLast? = some ',' ↔
      ∃ s ∈ spanAt depth first later e :: spans, s.later = true ∧ s.last = i := by
  have hopening := getLast?_openingLine (k + depth) later e
  have hclosing := getLast?_closingLine (k + depth) later
  rw [List.isEmpty_eq_false_iff.mpr hes, if_neg (by decide)] at hopening
  rw [List.zipIdx_cons, List.zipIdx_append, List.zipIdx_singleton, List.mem_cons, List.mem_append,
    List.mem_singleton, Prod.mk.injEq, Prod.mk.injEq] at hline
  simp only [List.mem_cons, exists_eq_or_imp, spanAt_later]
  rw [h.last_around hes]
  rcases hline with ⟨rfl, rfl⟩ | hline | ⟨rfl, rfl⟩
  · -- A bracket is opened on the first line, and no span ends there.
    rw [hopening]
    refine ⟨fun hchar => absurd hchar (by decide), ?_⟩
    rintro (⟨-, hfirst⟩ | ⟨s, hs, -, hfirst⟩)
    · omega
    · have := h.inside s hs
      omega
  · -- The lines between are those of the children.
    have hlt := List.snd_lt_add_of_mem_zipIdx hline
    rw [h.commas line i hline]
    dsimp only at hlt
    exact ⟨.inr, fun hspan => hspan.resolve_left (by omega)⟩
  · -- On the last line the span itself ends.
    rw [hclosing]
    have hother : ∀ s ∈ spans, s.last ≠ first + 1 + lines.length := fun s hs => by
      have := h.inside s hs
      omega
    cases later with
    | false => simpa using fun s hs _ => hother s hs
    | true => simpa using .inl (by omega)

/-- An expression with parts is laid out around the outlines of its children. -/
theorem around :
    Layout k depth first [e]
      (openingLine (k + depth) later e :: (lines ++ [closingLine (k + depth) later]))
      (spanAt depth first later e :: spans) := by
  have hlast : (spanAt depth first later e).last = first + (lines.length + 1) :=
    h.last_around hes
  constructor
  case nodes =>
    rw [List.map_cons, h.nodes, partsAll, partsAll, List.append_nil, parts_eq]
    rfl
  case count =>
    rw [List.map_singleton, List.sum_singleton, h.lineCount_around hes]
    simp
  case inside =>
    intro s hs
    rw [List.length_cons, List.length_append, List.length_singleton]
    rcases List.mem_cons.mp hs with rfl | hs
    · rw [hlast]
      exact ⟨le_rfl, le_rfl, by rw [spanAt_first]; omega, by omega⟩
    · have := h.inside s hs
      omega
  -- the closing line opens no node, so only the first line is new among those that do
  case opening =>
    rw [List.zipIdx_cons, List.filter_cons, if_pos (opensNode_openingLine ..), List.zipIdx_append,
      List.filter_append, h.opening, List.zipIdx_singleton, List.filter_cons,
      if_neg (by rw [opensNode_closingLine]; decide), List.filter_nil, List.append_nil]
    rfl
  case closing =>
    intro s hs hchildren
    rw [List.zipIdx_cons, List.zipIdx_append, List.zipIdx_singleton]
    rcases List.mem_cons.mp hs with rfl | hs
    · refine ⟨by rw [hlast, spanAt_first]; omega, ?_⟩
      rw [hlast, show first + (lines.length + 1) = first + 1 + lines.length by omega]
      exact List.mem_cons_of_mem _ (List.mem_append_right _ List.mem_cons_self)
    · obtain ⟨hlt, hmem⟩ := h.closing s hs hchildren
      exact ⟨hlt, List.mem_cons_of_mem _ (List.mem_append_left _ hmem)⟩
  case nested =>
    intro s rest hsuffix
    rw [List.suffix_cons_iff] at hsuffix
    -- the span is that of the expression, with all the others behind it, or one of a child's
    rcases hsuffix with heq | hsuffix
    · rw [List.cons.injEq] at heq
      obtain ⟨rfl, rfl⟩ := heq
      have hparts : e.parts = e :: rest.map Span.node := by rw [h.nodes, parts_eq]
      refine ⟨rest, [], (List.append_nil rest).symm, hparts, fun t ht => ?_, by simp⟩
      have := h.inside t ht
      rw [hlast, spanAt_first, spanAt_depth]
      omega
    · exact h.nested s rest hsuffix
  case brackets =>
    intro stack more
    have hclose := closeBrackets_of_closes (opensBracket_closingLine (k + depth) later)
      (opensNode_closingLine (k + depth) later) stack more
    have hopens : opensBracket (openingLine (k + depth) later e) = true := by
      rw [opensBracket_openingLine, List.isEmpty_eq_false_iff.mpr hes]
      rfl
    rw [List.cons_append, closeBrackets_of_opensBracket hopens, List.append_assoc, h.brackets,
      List.singleton_append, blanks_openingLine, ← blanks_closingLine (k + depth) later, hclose]
  case commas => exact fun line i hline => h.commas_around hes hline

end Around

end Layout

/-! ## The outline of a tree -/

/-- Neighbours are laid out one behind the other if each of them is laid out. -/
lemma layout_linesAll (h : ∀ x ∈ es, ∀ depth first later,
      Layout k depth first [x] (x.outlineLines (k + depth) later) (x.spans depth first later)) :
    ∀ first, Layout k depth first es (linesAll (k + depth) es) (spansAll depth first es) := by
  induction es with
  | nil => exact fun first => .nil
  | cons x es ih =>
    rw [List.forall_mem_cons] at h
    intro first
    have hx := h.1 depth first (!es.isEmpty)
    have hcount := hx.count
    rw [List.map_singleton, List.sum_singleton] at hcount
    rw [linesAll, spansAll, ← hcount]
    exact hx.append (ih h.2 _)

/-- The lines of an expression are laid out as its spans. -/
theorem layout_outlineLines (k : Nat) (e : Expr) : ∀ depth first later,
    Layout k depth first [e] (e.outlineLines (k + depth) later) (e.spans depth first later) := by
  induction e using induction_on_children with
  | step e ih =>
    intro depth first later
    rw [outlineLines_eq, spans_eq, block]
    by_cases hes : e.children = []
    · rw [if_pos (List.isEmpty_iff.mpr hes), hes, spansAll]
      exact .leaf hes
    · rw [if_neg (by rwa [List.isEmpty_iff])]
      exact .around (layout_linesAll ih (first + 1)) hes

/-- **The layout of an outline.** Let an expression be written at level `k`, and number its lines
from zero.

The text is its lines with line breaks between them, and is split into these lines if the
expression itself is on one line. The spans are those of the expression and its parts, each before
its own parts. The lines that open an expression are the first lines of the spans, one after the
other. What has children closes its bracket on its last line, behind all spans of its parts and in
front of all others. All brackets are nested. A line ends with a comma if something with a later
sibling ends there. There are as many lines as parts, and another one for each part that has
children.

**Proof sketch.** All statements are parts of one invariant between lines and spans (`Layout`). It
holds of the single line of an expression without parts (`Layout.leaf`), it is kept when the lines
of neighbours are put one behind the other (`Layout.append`), and when two lines are put around the
lines of the children (`Layout.around`). So it holds by induction on the tree
(`layout_outlineLines`), and the text is made of these lines as every comma that is cut off is the
one behind the last child (`outlineAt_eq_intercalate`). -/
theorem outline_layout (k : Nat) (e : Expr) :
    let lines := e.outlineLines k false
    let spans := e.spans 0 0 false
    e.outlineAt k = ['\n'].intercalate lines ∧
    ('\n' ∉ e.render → Text.splitOn '\n' (e.outlineAt k) = lines) ∧
    spans.map Span.node = e.parts ∧
    lines.zipIdx.filter (fun line => opensNode line.1) =
      spans.map (fun s => (s.opening k, s.first)) ∧
    (∀ s ∈ spans, s.node.children ≠ [] → s.first < s.last ∧ lines[s.last]? = some (s.closing k)) ∧
    (∀ s rest, s :: rest <:+ spans → ∃ inner behind, rest = inner ++ behind ∧
      s.node.parts = s.node :: inner.map Span.node ∧
      (∀ t ∈ inner, s.depth < t.depth ∧ s.first < t.first ∧ t.last < s.last) ∧
      ∀ t ∈ behind, s.last < t.first) ∧
    closeBrackets [] lines = some [] ∧
    (∀ line i, lines[i]? = some line →
      (line.getLast? = some ',' ↔ ∃ s ∈ spans, s.later = true ∧ s.last = i)) ∧
    lines.length = e.parts.length + e.parts.countP (fun x => !x.children.isEmpty) := by
  have h := layout_outlineLines k e 0 0 false
  have hnodes := h.nodes
  have hcount := h.count
  have hbrackets := h.brackets [] []
  rw [partsAll, partsAll, List.append_nil] at hnodes
  rw [List.map_singleton, List.sum_singleton] at hcount
  rw [List.append_nil] at hbrackets
  refine ⟨e.outlineAt_eq_intercalate k, fun hline => splitOn_outlineAt hline k, hnodes, h.opening,
    fun s hs hchildren => ?_, h.nested, hbrackets, fun line i hline => ?_, hcount⟩
  · rw [← List.mk_mem_zipIdx_iff_getElem?]
    exact h.closing s hs hchildren
  · rw [← List.mk_mem_zipIdx_iff_getElem?] at hline
    exact h.commas line i hline

/-- The outline of a product with a call in it: six lines for four expressions, two of them with
parts. -/
theorem outline_layout_product :
    let e := binary .mul (call "f" [var "x"]) (number 2)
    '\n' ∉ e.render ∧ Text.splitOn '\n' (e.outlineAt 0) =
      ["BinaryOp(expr='f(x) * 2', nodes=[".toList,
       "    Call(expr='f(x)', nodes=[".toList,
       "        VariableRef(expr='x')".toList,
       "    ]),".toList,
       "    NumberLiteral(expr='2')".toList,
       "])".toList] := by
  intro e
  have hline : '\n' ∉ e.render := by decide +kernel
  refine ⟨hline, ((outline_layout 0 e).2.1 hline).trans ?_⟩
  decide +kernel

end Abacus.Expr
