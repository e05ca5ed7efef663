import Abacus.Proofs.Scope
import Abacus.Proofs.Session
import Abacus.Shell

/-!
# Warnings about hidden functions

A name can be held by a named function and by a variable that is a function. Calls by the name
then run the named function, and the other one is hidden from them. A statement that binds or
defines a name gives a warning if the name is held twice after it, and no other statement gives
one. So of every name that is held twice, the last statement about it has given a warning.

## Main definitions

* `Abacus.World.Clashing` — names that are held by a named function and by a function value.
* `Abacus.World.printed` — what is printed while a line is entered.
* `Abacus.World.lastDeclaration?` — what the last line that binds or defines a name leads to.

## Main results

* `Abacus.Turn.warning_isSome_iff` — when a statement gives a warning.
* `Abacus.World.sameAt_or_last` — what a name is held by after lines is settled by the last of
  them that is about it.
* `Abacus.World.warnings_exact` — which statements give a warning, and what it tells.
* `Abacus.Shell.output_submit` — the warning comes before what the shell answers.
-/

namespace Abacus

variable {w w' : World} {form : Statement.Form} {reply : Reply} {name line : String}
  {lines : List String} {outcome : Outcome}

/-! ## Names that are held twice -/

/-- The name that a statement binds or defines. -/
def Statement.Form.declared? : Statement.Form → Option String
  | binding name _ => some name
  | definition name _ _ => some name
  | expression _ => none

namespace World

/-- Names that are held by a named function and by a variable that is a function. -/
def Clashing (w : World) (name : String) : Prop :=
  (∃ d, w.functions.get? name = some d) ∧ ∃ c, w.bindings.get? name = some (.function c)

/-- Worlds in which a name is held by the same named function and by the same variable. -/
structure SameAt (name : String) (w w' : World) : Prop where
  functions : w'.functions.get? name = w.functions.get? name
  bindings : w'.bindings.get? name = w.bindings.get? name

/-- A name that is held alike clashes in both worlds or in neither. -/
lemma SameAt.clashing_iff (h : SameAt name w w') : w'.Clashing name ↔ w.Clashing name := by
  rw [Clashing, Clashing, h.functions, h.bindings]

end World

/-- Whether a value that a name may have is a function. -/
lemma Value.any_isFunction_iff {value : Option Value} :
    value.any isFunction = true ↔ ∃ c, value = some (.function c) := by
  cases value with
  | none => simp
  | some value => cases value <;> simp [isFunction]

/-! ## What statements tell -/

/-- A binding gives a warning exactly if its name is held twice after it. -/
lemma World.bind_warning_isSome_iff (w : World) (name : String) (value : Value) :
    (w.bind name value).warning.isSome = true ↔ (w.bind name value).world.Clashing name := by
  have hfunction : value.isFunction = true ↔ ∃ c, some value = some (.function c) := by
    rw [← Value.any_isFunction_iff, Option.any_some]
  have htest : (w.bind name value).warning.isSome = true ↔
      (value.isFunction && w.functions.contains name) = true := by
    rw [bind, bindingWarning?, Option.isSome_ite]
  rw [htest, Clashing, bindings_bind, Table.get?_set_self, ← hfunction, Bool.and_eq_true, and_comm,
    Table.contains, Option.isSome_iff_exists]
  rfl

/-- A definition gives a warning exactly if its name is held twice after it. -/
lemma World.define_warning_isSome_iff (w : World) (name : String) (params : List String)
    (body : Expr) :
    (w.define name params body).warning.isSome = true ↔
      (w.define name params body).world.Clashing name := by
  have htest : (w.define name params body).warning.isSome = true ↔
      (w.bindings.get? name).any Value.isFunction = true := by
    rw [define, definitionWarning?, Option.isSome_ite]
  rw [htest, Clashing, functions_define, Table.get?_set_self, Value.any_isFunction_iff]
  simp only [Option.some.injEq, exists_eq', true_and]
  rfl

/-- A statement that binds or defines a name gives a warning exactly if the name is held twice after
it. -/
lemma Turn.warning_isSome_iff (h : Turn w form (.ok reply) w')
    (hname : form.declared? = some name) :
    reply.warning.isSome = true ↔ w'.Clashing name := by
  cases h with
  | binding hvalue =>
    cases hname
    exact w.bind_warning_isSome_iff _ _
  | definition hheight =>
    cases hname
    exact w.define_warning_isSome_iff _ _ _
  | expression hvalue => cases hname

/-- The warning of a statement that binds or defines a name is about that name. -/
lemma Turn.warning_eq {r : Report} (h : Turn w form (.ok reply) w')
    (hname : form.declared? = some name) (hr : reply.warning = some r) :
    r = closureShadowed name ∨ r = functionShadows name := by
  cases h with
  | binding hvalue =>
    cases hname
    simp only [World.bind, World.bindingWarning?, Option.ite_none_right_eq_some,
      Option.some.injEq] at hr
    exact .inl hr.2.symm
  | definition hheight =>
    cases hname
    simp only [World.define, World.definitionWarning?, Option.ite_none_right_eq_some,
      Option.some.injEq] at hr
    exact .inr hr.2.symm
  | expression hvalue => cases hname

/-- A name that is held twice after a statement about it was warned about by that statement. -/
lemma Turn.exists_warning (h : Turn w form (.ok reply) w') (hname : form.declared? = some name)
    (hclash : w'.Clashing name) :
    ∃ r, reply.warning = some r ∧ (r = closureShadowed name ∨ r = functionShadows name) := by
  obtain ⟨r, hr⟩ := Option.isSome_iff_exists.mp ((h.warning_isSome_iff hname).mpr hclash)
  exact ⟨r, hr, h.warning_eq hname hr⟩

/-- A statement that binds or defines no name gives no warning. -/
lemma Turn.warning_eq_none (h : Turn w form (.ok reply) w') (hname : form.declared? = none) :
    reply.warning = none := by
  cases h with
  | binding hvalue => cases hname
  | definition hheight => cases hname
  | expression hvalue => rfl

/-- The warnings that were given after an answered statement are those from before, and its own. -/
lemma Turn.warnings (h : Turn w form (.ok reply) w') :
    w'.warnings = w.warnings ++ reply.warning.toList := by
  cases h with
  | binding hvalue => rfl
  | definition hheight => rfl
  | expression hvalue => exact (List.append_nil _).symm

/-- A statement changes nothing at a name that it does not bind or define. -/
lemma Turn.sameAt {result : Except Fault Reply} (h : Turn w form result w')
    (hname : form.declared? ≠ some name) : World.SameAt name w w' := by
  cases h with
  | refused fault => exact ⟨rfl, rfl⟩
  | @binding bound term value hvalue =>
    have hne : bound ≠ name := fun heq => hname (congrArg some heq)
    refine ⟨rfl, ?_⟩
    rw [World.bindings_bind, Table.get?_set, if_neg hne]
  | @definition defined params body hheight =>
    have hne : defined ≠ name := fun heq => hname (congrArg some heq)
    refine ⟨?_, rfl⟩
    rw [World.functions_define, Table.get?_set, if_neg hne]
  | expression hvalue => exact ⟨rfl, rfl⟩

namespace World

/-! ## What is printed -/

/-- What is printed while a line is entered: the warnings that the world has after it and had not
before. -/
def printed (w : World) (console : Console) (line : String) : String :=
  console.warningsText (w.newWarnings (w.after line))

/-- A world has no warnings that it has not. -/
@[simp]
lemma newWarnings_self (w : World) : w.newWarnings w = [] := by
  rw [newWarnings, List.drop_length]

/-- The text of a warning is not empty. -/
lemma warningText_ne_empty (console : Console) (r : Report) : console.warningText r ≠ "" := by
  intro h
  have hlength := congrArg String.length h
  simp only [Console.warningText, String.length_append] at hlength
  have hend : ("\n" : String).length = 1 := rfl
  have hempty : ("" : String).length = 0 := rfl
  omega

/-- Nothing is printed for a line that is refused, as the run of it gave no warning. -/
lemma printed_of_refused {fault : Fault} (console : Console) (h : w.enter line = .error fault) :
    w.printed console line = "" := by
  rw [printed, after_of_enter_eq_error h, newWarnings_self]
  rfl

/-- The warning of an answered line is printed, and nothing else. -/
lemma printed_of_enter (console : Console) (h : w.enter line = .ok outcome) :
    w.printed console line = (outcome.warning.map console.warningText).getD "" := by
  obtain ⟨hworld, statement, -, hturn⟩ := exists_turn_of_enter h
  rw [printed, ← hworld, newWarnings, hturn.warnings, List.drop_left, Console.warningsText]
  cases outcome.warning with
  | none => rfl
  | some r => simp

/-- Something is printed for an answered line if it gives a warning. -/
lemma printed_ne_empty_iff (console : Console) (h : w.enter line = .ok outcome) :
    w.printed console line ≠ "" ↔ outcome.warning.isSome = true := by
  rw [printed_of_enter console h]
  cases outcome.warning with
  | none => simp
  | some r => simp [warningText_ne_empty]

/-! ## The last statement about a name -/

/-- What a line leads to, if it is answered and binds or defines a name. -/
def declaration? (w : World) (name line : String) : Option Outcome :=
  match Statement.ofLine w.limits line, w.enter line with
  | .ok statement, .ok outcome =>
    if statement.form.declared? = some name then some outcome else none
  | _, _ => none

/-- What the last line that is answered and binds or defines a name leads to. -/
def lastDeclaration? (w : World) (name : String) : List String → Option Outcome
  | [] => none
  | line :: lines => ((w.after line).lastDeclaration? name lines).or (w.declaration? name line)

/-- A line that is answered and binds or defines a name, by its statement. -/
lemma exists_turn_of_declaration? (h : w.declaration? name line = some outcome) :
    outcome.world = w.after line ∧ ∃ form : Statement.Form, form.declared? = some name ∧
      Turn w form (.ok outcome.toReply) outcome.world := by
  rw [declaration?] at h
  split at h
  · rename_i statement outcome' hstatement henter
    rw [Option.ite_none_right_eq_some, Option.some.injEq] at h
    obtain ⟨hname, rfl⟩ := h
    obtain ⟨hworld, statement', hstatement', hturn⟩ := exists_turn_of_enter henter
    cases hstatement.symm.trans hstatement'
    exact ⟨hworld, statement.form, hname, hturn⟩
  · cases h

/-- Any other line changes nothing at the name. -/
lemma sameAt_of_declaration?_eq_none (h : w.declaration? name line = none) :
    SameAt name w (w.after line) := by
  cases henter : w.enter line with
  | error fault =>
    rw [after_of_enter_eq_error henter]
    exact ⟨rfl, rfl⟩
  | ok outcome =>
    obtain ⟨hworld, statement, hstatement, hturn⟩ := exists_turn_of_enter henter
    simp only [declaration?, hstatement, henter, ite_eq_right_iff, reduceCtorEq, imp_false] at h
    rw [← hworld]
    exact hturn.sameAt h

/-- **What a name is held by after lines** is settled by the last of them that is about it: what
this line leads to holds it alike, and so does the world before the lines if there is no such
line.

**Proof sketch.** Induction along the lines. If one of the later ones is about the name, it is the
last. Else they have changed nothing at the name, and the first line has done so only if it is
about it. -/
theorem sameAt_or_last (w : World) (name : String) (lines : List String) :
    match w.lastDeclaration? name lines with
    | none => SameAt name w (w.enterAll lines)
    | some outcome => SameAt name outcome.world (w.enterAll lines) ∧
      ∃ (w' : World) (form : Statement.Form), form.declared? = some name ∧
        Turn w' form (.ok outcome.toReply) outcome.world := by
  induction lines generalizing w with
  | nil => exact ⟨rfl, rfl⟩
  | cons line lines ih =>
    have hrest := ih (w.after line)
    have hcons : w.enterAll (line :: lines) = (w.after line).enterAll lines := rfl
    rw [hcons, lastDeclaration?]
    cases hlast : (w.after line).lastDeclaration? name lines with
    | some outcome =>
      rw [hlast] at hrest
      exact hrest
    | none =>
      rw [hlast] at hrest
      rw [Option.none_or]
      cases hfirst : w.declaration? name line with
      | none =>
        have hsame := sameAt_of_declaration?_eq_none hfirst
        exact ⟨hrest.functions.trans hsame.functions, hrest.bindings.trans hsame.bindings⟩
      | some outcome =>
        obtain ⟨hworld, form, hname, hturn⟩ := exists_turn_of_declaration? hfirst
        refine ⟨?_, w, form, hname, hturn⟩
        rw [hworld]
        exact hrest

/-! ## Calls of names that are held twice -/

/-- A name that is held by a named function calls it, whatever the frame binds the name to. -/
lemma callee_of_function {d : Definition} (h : w.functions.get? name = some d)
    (frame : Table Value) : w.callee frame name = .ok (.definition d) := by
  rw [callee_eq, h]

/-- A call of a name that is held by a named function runs it, whatever the frame binds the name
to. -/
lemma valueWithin_call_of_function {d : Definition} (h : w.functions.get? name = some d)
    (levels : Nat) (frame : Table Value) (args : List Expr) :
    (Expr.call name args).valueWithin w (levels + 1) frame =
      Expr.callWith (Expr.valueWithin w levels) (.definition d) (some name) frame args := by
  rw [Expr.valueWithin, Expr.visit, callee_of_function h]
  rfl

/-- **The warnings about hidden functions are complete and exact.** Let any lines be entered into
the new world, and then one more. If it is refused or an expression, no warning is printed. If it
binds or defines a name, a warning is printed if and only if the name is then held both by a named
function and by a variable that is a function, and it is about that name.

So in the world after any lines, each name that is held twice was warned about by the last line
that was answered and bound or defined it, and each other name that is bound or defined was not.
Every call of a name that is held twice runs the named function, from any frame and at any level
of an evaluation.

**Proof sketch.** The test that a statement makes of the one table before it writes to the other
one is the test of both tables after that (`Turn.warning_isSome_iff`). What a name is held by was
settled by the last line that is about it (`sameAt_or_last`), and in the new world it is held by
nothing. -/
theorem warnings_exact (maxDepth : DepthLimit) (limits : Limits) (lines : List String) :
    let w := (new maxDepth limits).enterAll lines
    (∀ line console,
      (∀ fault, w.enter line = .error fault → w.printed console line = "") ∧
      ∀ outcome, w.enter line = .ok outcome →
        ∃ statement, Statement.ofLine limits line = .ok statement ∧
          match statement.form.declared? with
          | none => w.printed console line = ""
          | some name => (w.printed console line ≠ "" ↔ outcome.world.Clashing name) ∧
            (outcome.world.Clashing name → ∃ r, w.printed console line = console.warningText r ∧
              (r = closureShadowed name ∨ r = functionShadows name))) ∧
    (∀ name, w.functions.contains name = true ∨ w.bindings.contains name = true →
      ∃ outcome, (new maxDepth limits).lastDeclaration? name lines = some outcome ∧
        (w.Clashing name → ∃ r, outcome.warning = some r ∧
          (r = closureShadowed name ∨ r = functionShadows name)) ∧
        (¬ w.Clashing name → outcome.warning = none)) ∧
    ∀ name, w.Clashing name → ∃ d, w.functions.get? name = some d ∧
      ∀ frame, w.callee frame name = .ok (.definition d) ∧
        ∀ levels args, (Expr.call name args).valueWithin w (levels + 1) frame =
          Expr.callWith (Expr.valueWithin w levels) (.definition d) (some name) frame args := by
  intro w
  have hlimits : w.limits = limits := (settled_enterAll maxDepth limits lines).2
  refine ⟨fun line console => ⟨fun fault hfault => ?_, fun outcome houtcome => ?_⟩,
    fun name hheld => ?_, fun name hclash => ?_⟩
  · exact printed_of_refused console hfault
  · obtain ⟨-, statement, hstatement, hturn⟩ := exists_turn_of_enter houtcome
    rw [hlimits] at hstatement
    refine ⟨statement, hstatement, ?_⟩
    have hprinted := printed_ne_empty_iff console houtcome
    cases hname : statement.form.declared? with
    | none =>
      show w.printed console line = ""
      rw [hturn.warning_eq_none hname] at hprinted
      exact not_not.mp fun hne => by cases hprinted.mp hne
    | some name =>
      refine ⟨hprinted.trans (hturn.warning_isSome_iff hname), fun hclash => ?_⟩
      obtain ⟨r, hr, habout⟩ := hturn.exists_warning hname hclash
      refine ⟨r, ?_, habout⟩
      rw [printed_of_enter console houtcome, hr]
      rfl
  · have hlast := sameAt_or_last (new maxDepth limits) name lines
    cases hdeclared : (new maxDepth limits).lastDeclaration? name lines with
    | none =>
      -- without such a line the name is held by nothing, as in the new world
      rw [hdeclared] at hlast
      rw [Table.contains, Table.contains, hlast.functions, hlast.bindings] at hheld
      rcases hheld with h | h <;> cases h
    | some outcome =>
      rw [hdeclared] at hlast
      obtain ⟨hsame, w', form, hname, hturn⟩ := hlast
      refine ⟨outcome, rfl, fun hclash => ?_, fun hclash => ?_⟩
      · exact hturn.exists_warning hname (hsame.clashing_iff.mp hclash)
      · refine Option.not_isSome_iff_eq_none.mp fun hsome => hclash ?_
        exact hsame.clashing_iff.mpr ((hturn.warning_isSome_iff hname).mp hsome)
  · obtain ⟨⟨d, hd⟩, -⟩ := hclash
    exact ⟨d, hd, fun frame => ⟨callee_of_function hd frame,
      fun levels args => valueWithin_call_of_function hd levels frame args⟩⟩

/-- A function and a number have one name, of which a line is refused, the function is defined
again, and the number becomes a function. -/
theorem warnings_exact_shadowed :
    let w := (new (.levels 300) .standard).enterAll ["def f(x) = x", "let f = 3"]
    let console := Console.new .plain false
    let line := "let f = fn(y) => y"
    (∃ fault, w.enter "let f = z" = .error fault) ∧ w.printed console "let f = z" = "" ∧
      w.printed console "def f(x) = x + 1" = "" ∧
      w.printed console line =
        "warning: closure 'f' is shadowed in calls by the named function of the same name\n" ∧
      (w.after line).Clashing "f" ∧
      ∃ d, ∀ frame, (w.after line).callee frame "f" = .ok (.definition d) := by
  intro w console line
  obtain ⟨hprinted, -, -⟩ := warnings_exact (.levels 300) .standard ["def f(x) = x", "let f = 3"]
  obtain ⟨-, -, hcalls⟩ :=
    warnings_exact (.levels 300) .standard ["def f(x) = x", "let f = 3", line]
  obtain ⟨fault, hfault⟩ :=
    Result.exists_of_isOk_eq_false (x := w.enter "let f = z") (by decide +kernel)
  obtain ⟨outcome, houtcome⟩ := Result.exists_of_isOk (x := w.enter line) (by decide +kernel)
  have hline : w.printed console line =
      "warning: closure 'f' is shadowed in calls by the named function of the same name\n" := by
        decide +kernel
  obtain ⟨statement, hstatement, hdeclared⟩ := (hprinted line console).2 outcome houtcome
  have hname : (Statement.ofLine .standard line).toOption.bind (·.form.declared?) = some "f" := by
    decide +kernel
  rw [hstatement] at hname
  have hname : statement.form.declared? = some "f" := hname
  rw [hname] at hdeclared
  have hworld : outcome.world = w.after line := (exists_turn_of_enter houtcome).1
  have hclash : (w.after line).Clashing "f" := by
    rw [← hworld]
    refine hdeclared.1.mp ?_
    show w.printed console line ≠ ""
    rw [hline]
    decide
  obtain ⟨d, -, hd⟩ := hcalls "f" hclash
  exact ⟨⟨fault, hfault⟩, (hprinted _ console).1 fault hfault, by decide +kernel, hline, hclash, d,
    fun frame => (hd frame).1⟩

end World

/-! ## The shell -/

/-- The shell prints the warning of a statement in front of its answer, and of a statement that is
refused the error only. -/
theorem Shell.output_submit (s : Shell) (statement : String) :
    let console := s.console.enterLine inputPath statement s.lineNumber
    (s.submit statement).output = s.world.printed console statement ++
      match s.world.enter statement with
      | .ok outcome => outcome.answer.display ++ "\n"
      | .error fault => console.errorText fault.report := by
  intro console
  rw [submit, World.printed, World.enter, World.after]
  obtain ⟨fault | reply, after⟩ := (Run.ofLine statement).on s.world
  · rfl
  · exact String.append_assoc

end Abacus
