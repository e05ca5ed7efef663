import Abacus.Proofs.Parts
import Abacus.Proofs.Printing

/-!
# Where the parts of an expression stand in its text

Every part of an expression has a place in the text of the expression: the text of the part, and
what stands in front of it and behind it. A place is found by going from the root down to the
part, one slot after another. What stands around a place is read as the same lexemes, whatever is
put there.

## Main definitions

* `Abacus.Expr.Slot` — the places right below the root of an expression, with what stands beside
  them.
* `Abacus.Expr.PlacedIn` — the places of the parts of an expression.
* `Abacus.Opens`, `Abacus.Closes` — texts in front of a place and behind it, with their lexemes.

## Main results

* `Abacus.Expr.PlacedIn.render_eq` — the text of a part stands at its place.
* `Abacus.Expr.exists_placedIn` — every part has a place.
* `Abacus.Expr.Slot.opens`, `Abacus.Expr.Slot.closes` — what stands around a slot is read as its
  lexemes.
-/

namespace Abacus

open Grammar

/-! ## Around a place -/

/-- A parenthesis, if it is needed. -/
def parenIf {α : Type} (needed : Bool) (paren : α) : List α := if needed then [paren] else []

/-- A text in front of a place is read as the given lexemes, whatever stands at the place. -/
def Opens (front : List Char) (fs : List Lexeme) : Prop :=
  ∀ cs ls, Spells cs ls → Spells (front ++ cs) (fs ++ ls)

/-- A text behind a place is read as the given lexemes, whatever stands at the place. -/
structure Closes (back : List Char) (ls : List Lexeme) : Prop where
  bounded : Bounded back
  spells : Spells back ls

section Around

variable {cs cs' : List Char} {ls ls' fs bs : List Lexeme}

/-- Nothing is read as no lexemes. -/
lemma opens_nil : Opens [] [] := fun _ _ h => h

/-- Nothing is read as no lexemes. -/
lemma closes_nil : Closes [] [] := ⟨bounded_nil, .nil⟩

/-- Texts in front of a place, one behind the other. -/
lemma Opens.append (h : Opens cs ls) (h' : Opens cs' ls') : Opens (cs ++ cs') (ls ++ ls') := by
  intro ds ms hds
  rw [List.append_assoc, List.append_assoc]
  exact h _ _ (h' ds ms hds)

/-- Texts behind a place, one behind the other. -/
lemma Closes.append (h : Closes cs ls) (h' : Closes cs' ls') : Closes (cs ++ cs') (ls ++ ls') :=
  ⟨h.bounded.append h'.bounded, h.spells.append h'.bounded h'.spells⟩

/-- What stands at a place is read with what stands around it. -/
lemma Opens.spells {front back : List Char} (hfront : Opens front fs) (hback : Closes back bs)
    (h : Spells cs ls) : Spells (front ++ (cs ++ back)) (fs ++ (ls ++ bs)) :=
  hfront _ _ (h.append hback.bounded hback.spells)

/-- A parenthesis may stand in front of a place. -/
lemma opens_parenIf (needed : Bool) : Opens (parenIf needed '(') (parenIf needed .openParen) := by
  cases needed with
  | false => exact opens_nil
  | true => exact fun _ _ h => Expr.spells_openParen h

/-- A parenthesis may stand behind a place. -/
lemma closes_parenIf (needed : Bool) :
    Closes (parenIf needed ')') (parenIf needed .closeParen) := by
  cases needed with
  | false => exact closes_nil
  | true => exact ⟨bounded_cons.mpr (by decide), Expr.spells_closeParen .nil⟩

/-- An operator may stand in front of any text. -/
lemma opens_operator (op : Operator) : Opens [' ', op.symbol, ' '] [.operator op] := by
  intro cs ls hcs
  have hblank : Text.isBlank ' ' = true := by decide
  exact ((hcs.blank hblank).cons (l := .operator op) trivial fun _ => trivial).blank hblank

/-- A text in front of a boundary may stand in front of a place. -/
lemma opens_of_spells {c : Char} (h : Spells cs ls)
    (hc : isNumeralChar c = false ∧ isNameChar c = false)
    (h' : Opens (c :: cs') ls') : Opens (cs ++ c :: cs') (ls ++ ls') := by
  intro ds ms hds
  rw [List.append_assoc, List.append_assoc]
  exact h.append (bounded_cons.mpr hc) (h' ds ms hds)

end Around

namespace Expr

variable {e x y : Expr} {es es' : List Expr} {before behind : List Char}

/-! ## Slots -/

/-- The places right below the root of an expression, with what stands beside them. -/
inductive Slot where
  | left (op : Operator) (right : Expr)
  | right (op : Operator) (left : Expr)
  | body (params : List String)
  /-- An argument of a call by name, with those before it and behind it. -/
  | argument (name : String) (es es' : List Expr)
  | function (args : List Expr)
  /-- An argument of a call in place, with those before it and behind it. -/
  | passed (function : Expr) (es es' : List Expr)

namespace Slot

/-- The expression that has an expression in a slot. -/
def fill : Slot → Expr → Expr
  | left op b, x => binary op x b
  | right op a, x => binary op a x
  | body ps, x => lambda ps x
  | argument name es es', x => call name (es ++ x :: es')
  | function es, x => invoke x es
  | passed f es es', x => invoke f (es ++ x :: es')

/-- Whether an expression stands in parentheses in a slot because it would not be read back there
otherwise. -/
def encloses : Slot → Expr → Bool
  | left op _, x => x.needsParens op.precedence false
  | right op _, x => x.needsParens op.precedence true
  | _, _ => false

/-- The text of arguments in front of another one. -/
def frontArgs (es : List Expr) : List Char := es.flatMap fun e => e.render ++ [',', ' ']

/-- The text of arguments behind another one. -/
def backArgs (es : List Expr) : List Char := es.flatMap fun e => [',', ' '] ++ e.render

/-- The text in front of a slot. -/
def front : Slot → List Char
  | left _ _ => []
  | right op a => encloseIf (a.needsParens op.precedence false) a.render ++ [' ', op.symbol, ' ']
  | body ps => "fn(".toList ++ renderParams ps ++ ") => ".toList
  | argument name es _ => name.toList ++ '(' :: frontArgs es
  | function _ => ['(']
  | passed f es _ => '(' :: (f.render ++ ")(".toList ++ frontArgs es)

/-- The text behind a slot. -/
def back : Slot → List Char
  | left op b => [' ', op.symbol, ' '] ++ encloseIf (b.needsParens op.precedence true) b.render
  | right _ _ => []
  | body _ => []
  | argument _ _ es' => backArgs es' ++ [')']
  | function es => ")(".toList ++ renderAll es ++ [')']
  | passed _ _ es' => backArgs es' ++ [')']

/-- The lexemes of arguments in front of another one. -/
def frontArgLexemes (es : List Expr) : List Lexeme := es.flatMap fun e => e.lexemes ++ [.comma]

/-- The lexemes of arguments behind another one. -/
def backArgLexemes (es : List Expr) : List Lexeme := es.flatMap fun e => [.comma] ++ e.lexemes

/-- The lexemes in front of a slot. -/
def frontLexemes : Slot → List Lexeme
  | left _ _ => []
  | right op a => lexemesIf (a.needsParens op.precedence false) a.lexemes ++ [.operator op]
  | body ps => .keyword .fnWord :: .openParen :: (parameters ps ++ [.closeParen, .arrow])
  | argument name es _ => .identifier name :: .openParen :: frontArgLexemes es
  | function _ => [.openParen]
  | passed f es _ => .openParen :: (f.lexemes ++ .closeParen :: .openParen :: frontArgLexemes es)

/-- The lexemes behind a slot. -/
def backLexemes : Slot → List Lexeme
  | left op b => .operator op :: lexemesIf (b.needsParens op.precedence true) b.lexemes
  | right _ _ => []
  | body _ => []
  | argument _ _ es' => backArgLexemes es' ++ [.closeParen]
  | function es => .closeParen :: .openParen :: (lexemesAll es ++ [.closeParen])
  | passed _ _ es' => backArgLexemes es' ++ [.closeParen]

/-- What is in a slot is a child of the whole. -/
lemma mem_children_fill (s : Slot) (x : Expr) : x ∈ (s.fill x).children := by
  cases s with
  | left | body | function => exact List.mem_cons_self
  | right => exact List.mem_cons_of_mem _ (List.mem_singleton_self x)
  | argument name es es' => exact List.mem_append_right es List.mem_cons_self
  | passed f es es' => exact List.mem_cons_of_mem f (List.mem_append_right es List.mem_cons_self)

/-- Every child is in a slot. -/
lemma exists_fill_of_mem_children (h : x ∈ e.children) : ∃ s : Slot, s.fill x = e := by
  cases e with
  | number | var => cases h
  | binary op a b =>
    rcases List.mem_cons.mp h with rfl | h
    · exact ⟨.left op b, rfl⟩
    · rw [List.mem_singleton.mp h]
      exact ⟨.right op a, rfl⟩
  | lambda ps body =>
    rw [List.mem_singleton.mp h]
    exact ⟨.body ps, rfl⟩
  | call name args =>
    obtain ⟨es, es', rfl⟩ := List.append_of_mem h
    exact ⟨.argument name es es', rfl⟩
  | invoke f args =>
    rcases List.mem_cons.mp h with rfl | h
    · exact ⟨.function args, rfl⟩
    · obtain ⟨es, es', rfl⟩ := List.append_of_mem h
      exact ⟨.passed f es es', rfl⟩

/-! ## Lists with separators -/

section Separated

variable {α : Type} {whole : List Expr → List α} {one : Expr → List α} {separator : List α}

/-- A list that is written with separators, cut at one of its expressions. -/
lemma separated_append (hone : ∀ e, whole [e] = one e)
    (hmore : ∀ e e' es, whole (e :: e' :: es) = one e ++ (separator ++ whole (e' :: es)))
    (es : List Expr) (x : Expr) (es' : List Expr) : whole (es ++ x :: es') =
      (es.flatMap fun e => one e ++ separator) ++
        (one x ++ es'.flatMap fun e => separator ++ one e) := by
  induction es with
  | nil =>
    rw [List.nil_append, List.flatMap_nil, List.nil_append]
    induction es' generalizing x with
    | nil => rw [hone, List.flatMap_nil, List.append_nil]
    | cons e' es' ih => rw [hmore, ih, List.flatMap_cons, List.append_assoc]
  | cons e es ih =>
    have hcons : whole (e :: (es ++ x :: es')) =
        one e ++ (separator ++ whole (es ++ x :: es')) := by
      cases es with
      | nil => exact hmore e x es'
      | cons e' es => exact hmore e e' (es ++ x :: es')
    rw [List.cons_append, hcons, ih, List.flatMap_cons]
    simp only [List.append_assoc]

end Separated

/-- The text of arguments, cut at one of them. -/
lemma renderAll_append (es : List Expr) (x : Expr) (es' : List Expr) :
    renderAll (es ++ x :: es') = frontArgs es ++ (x.render ++ backArgs es') :=
  separated_append (fun _ => rfl) (fun _ _ _ => rfl) es x es'

/-- The lexemes of arguments, cut at one of them. -/
lemma lexemesAll_append (es : List Expr) (x : Expr) (es' : List Expr) :
    lexemesAll (es ++ x :: es') = frontArgLexemes es ++ (x.lexemes ++ backArgLexemes es') :=
  separated_append (fun _ => rfl) (fun _ _ _ => rfl) es x es'

/-! ## The text around a slot -/

/-- What is in a slot stands between the texts around it. -/
lemma render_fill (s : Slot) (x : Expr) :
    (s.fill x).render = s.front ++ encloseIf (s.encloses x) x.render ++ s.back := by
  cases s with
  | argument name es es' =>
    rw [fill, render, renderAll_append]
    simp [front, back, encloses, encloseIf]
  | passed f es es' =>
    rw [fill, render, renderAll_append]
    simp [front, back, encloses, encloseIf]
  | left | right => simp [fill, front, back, encloses, render]
  | body | function => simp [fill, front, back, encloses, encloseIf, render]

/-! ## The lexemes around a slot -/

/-- Arguments in front of a place are read as their lexemes. -/
lemma opens_frontArgs (h : ∀ e ∈ es, Readable e) : Opens (frontArgs es) (frontArgLexemes es) := by
  induction es with
  | nil => exact opens_nil
  | cons e es ih =>
    rw [List.forall_mem_cons] at h
    have hfirst : Opens (e.render ++ [',', ' ']) (e.lexemes ++ [.comma]) := by
      intro cs ls hcs
      simpa using spells_comma (spells_render h.1) hcs
    exact hfirst.append (ih h.2)

/-- Arguments behind a place, and the parenthesis that closes them, are read as their lexemes. -/
lemma closes_backArgs (h : ∀ e ∈ es, Readable e) :
    Closes (backArgs es ++ [')']) (backArgLexemes es ++ [.closeParen]) := by
  have hend : Closes [')'] [.closeParen] := closes_parenIf true
  refine Closes.append ?_ hend
  induction es with
  | nil => exact closes_nil
  | cons e es ih =>
    rw [List.forall_mem_cons] at h
    have hfirst : Closes ([',', ' '] ++ e.render) ([.comma] ++ e.lexemes) :=
      ⟨bounded_cons.mpr (by decide), by simpa using spells_comma .nil (spells_render h.1)⟩
    exact hfirst.append (ih h.2)

/-- The text in front of a slot is read as its lexemes. -/
lemma opens (s : Slot) (h : Readable (s.fill x)) : Opens s.front s.frontLexemes := by
  have hopen : Opens ['('] [.openParen] := opens_parenIf true
  have hclose : Opens [')'] [.closeParen] := fun _ _ h => spells_closeParen h
  cases s with
  | left op b => exact opens_nil
  | right op a =>
    cases h with
    | binary ha _ =>
      exact opens_of_spells (spells_encloseIf _ (spells_render ha)) (by decide) (opens_operator op)
  | body ps =>
    cases h with
    | lambda hps _ =>
      have hword : Spells "fn".toList [.keyword .fnWord] :=
        Spells.lexeme (l := .keyword .fnWord) trivial (by simp)
      have harrow : Opens " => ".toList [.arrow] := by
        intro cs ls hcs
        have hblank : Text.isBlank ' ' = true := by decide
        exact ((hcs.blank hblank).cons (l := .arrow) trivial fun _ => trivial).blank hblank
      have hparams := opens_of_spells (spells_renderParams hps) (by decide) (hclose.append harrow)
      have hfront := opens_of_spells hword (by decide) (hopen.append hparams)
      simpa [front, frontLexemes] using hfront
  | argument name es es' =>
    cases h with
    | call hname hes =>
      have hargs := opens_frontArgs fun e he => hes e (List.mem_append_left _ he)
      exact opens_of_spells (spells_name hname) (by decide) (hopen.append hargs)
  | function es => exact hopen
  | passed f es es' =>
    cases h with
    | invoke hf hes =>
      have hargs := opens_frontArgs fun e he => hes e (List.mem_append_left _ he)
      have hbehind := opens_of_spells (spells_render hf) (by decide)
          (hclose.append (hopen.append hargs))
      simpa [front, frontLexemes] using hopen.append hbehind

/-- The text behind a slot is read as its lexemes. -/
lemma closes (s : Slot) (h : Readable (s.fill x)) : Closes s.back s.backLexemes := by
  cases s with
  | left op b =>
    cases h with
    | binary _ hb =>
      exact ⟨bounded_cons.mpr (by decide),
        opens_operator op _ _ (spells_encloseIf _ (spells_render hb))⟩
  | right op a => exact closes_nil
  | body ps => exact closes_nil
  | argument name es es' =>
    cases h with
    | call _ hes =>
      exact closes_backArgs fun e he => hes e (List.mem_append_right _ (List.mem_cons_of_mem x he))
  | function es =>
    cases h with
    | invoke _ hes =>
      have hargs := spells_append_closeParen (spells_renderAll fun e he => spells_render (hes e he))
      refine ⟨bounded_cons.mpr (by decide), ?_⟩
      have hback := spells_closeParen (spells_openParen hargs)
      simpa [back, backLexemes] using hback
  | passed f es es' =>
    cases h with
    | invoke _ hes =>
      exact closes_backArgs fun e he => hes e (List.mem_append_right _ (List.mem_cons_of_mem x he))

end Slot

/-! ## Places -/

/-- `PlacedIn e x before behind` states that a part `x` of the expression `e` has a place in the
text of `e`, with the text `before` in front of it and the text `behind` behind it. The
parentheses that the part stands in as an operand belong to these. -/
inductive PlacedIn (e : Expr) : Expr → List Char → List Char → Prop where
  | whole : PlacedIn e e [] []
  | inside {s : Slot} {x : Expr} {before behind : List Char}
      (h : PlacedIn e (s.fill x) before behind) :
      PlacedIn e x (before ++ (s.front ++ parenIf (s.encloses x) '('))
        (parenIf (s.encloses x) ')' ++ s.back ++ behind)

/-- Parentheses around a text are one in front of it and one behind it. -/
lemma encloseIf_eq (needed : Bool) (cs : List Char) :
    encloseIf needed cs = parenIf needed '(' ++ (cs ++ parenIf needed ')') := by
  cases needed with
  | false => exact (List.append_nil cs).symm
  | true => rfl

/-- Parentheses around lexemes are one in front of them and one behind them. -/
lemma lexemesIf_eq (needed : Bool) (ls : List Lexeme) :
    lexemesIf needed ls = parenIf needed .openParen ++ (ls ++ parenIf needed .closeParen) := by
  cases needed with
  | false => exact (List.append_nil ls).symm
  | true => rfl

/-- **The text of a part stands at its place.** -/
theorem PlacedIn.render_eq (h : PlacedIn e x before behind) :
    e.render = before ++ (x.render ++ behind) := by
  induction h with
  | whole => exact (List.append_nil _).symm
  | @inside s x before behind _ ih =>
    rw [ih, s.render_fill, encloseIf_eq]
    simp only [List.append_assoc]

/-- What has a place in a part has one in the whole. -/
lemma PlacedIn.trans {before' behind' : List Char} (h : PlacedIn e x before behind)
    (h' : PlacedIn x y before' behind') : PlacedIn e y (before ++ before') (behind' ++ behind) := by
  induction h' with
  | whole => simpa using h
  | inside _ ih => simpa only [List.append_assoc] using ih.inside

/-- **Every part has a place.**

**Proof sketch.** Strong induction on the height of the whole. A part is the whole itself or a part
of a child, the child fills a slot of the whole, and its own part has a place in it. -/
theorem exists_placedIn (h : x ∈ e.parts) : ∃ before behind, PlacedIn e x before behind := by
  induction hheight : e.height using Nat.strongRecOn generalizing e with
  | ind n ih =>
    subst hheight
    rw [parts_eq, List.mem_cons, mem_partsAll] at h
    rcases h with rfl | ⟨y, hy, hx⟩
    · exact ⟨[], [], .whole⟩
    · have hlt : y.height < e.height :=
        Nat.lt_of_le_of_lt (height_le_heights hy) e.heights_children_lt
      obtain ⟨s, rfl⟩ := Slot.exists_fill_of_mem_children hy
      obtain ⟨before, behind, hplaced⟩ := ih y.height hlt hx rfl
      exact ⟨_, _, PlacedIn.whole.inside.trans hplaced⟩

/-- The numbers of a child are numbers of the whole. -/
lemma mem_literals_of_child {v : Float} (hx : x ∈ e.children) (hv : v ∈ x.literals) :
    v ∈ e.literals := by
  cases e with
  | number | var => cases hx
  | binary op a b =>
    rw [literals, List.mem_append]
    rcases List.mem_cons.mp hx with rfl | hx
    · exact .inl hv
    · rw [List.mem_singleton.mp hx] at hv
      exact .inr hv
  | lambda ps body =>
    rw [List.mem_singleton.mp hx] at hv
    exact hv
  | call name args => exact mem_literalsAll.mpr ⟨x, hx, hv⟩
  | invoke f args =>
    rw [literals, List.mem_append]
    rcases List.mem_cons.mp hx with rfl | hx
    · exact .inl hv
    · exact .inr (mem_literalsAll.mpr ⟨x, hx, hv⟩)

end Expr

end Abacus
