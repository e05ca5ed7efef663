import Abacus.Proofs.Readable
import Abacus.Proofs.Session.Faults
import Abacus.Proofs.Session.Kept

/-!
# The worlds of sessions are well-formed

Whatever lines are entered, the names that are bound are names, every function has distinct names
as its parameters or keeps numbers under names, and its body is an expression as texts have them.
So what a body calls in place is a lambda, and a number is never called: where types do not match,
a function is an operand of an operator.

## Main definitions

* `Abacus.Closure.WellFormed`, `Abacus.Definition.WellFormed` — the functions of sessions.
* `Abacus.Table.WellFormed`, `Abacus.World.WellFormed` — the frames and the worlds of sessions.
* `Abacus.Fault.OperandsMismatch` — faults that are no mismatch of types, but that of an operand.

## Main results

* `Abacus.Expr.valueWithin_wellFormed` — what an evaluation in such a world leads to.
* `Abacus.World.wellFormed_enterAll` — the worlds of sessions, and the faults of their lines.
-/

namespace Abacus

open Grammar
open Result (Satisfies)

variable {w w' : World} {frame : Table Value} {e : Expr} {c : Closure} {d : Definition} {v : Value}
  {callee : Callee} {values : List Value} {name line : String} {levels : Nat} {fault : Fault}
  {form : Statement.Form}

/-! ## Functions, frames and worlds -/

/-- Function values of sessions: the parameters and what is kept have names, and the body is an
expression as texts have them. What is kept are numbers by its type. -/
structure Closure.WellFormed (c : Closure) : Prop where
  params : ∀ p ∈ c.params, isName p.toList = true
  kept : ∀ name ∈ c.env.names, isName name.toList = true
  nodup : c.env.names.Nodup
  body : c.body.Readable

/-- Named functions of sessions: the parameters are distinct names, the body is an expression as
texts have them, and its text is the one that it is stored with. -/
structure Definition.WellFormed (d : Definition) : Prop where
  params : ∀ p ∈ d.params, isName p.toList = true
  nodup : d.params.Nodup
  body : d.body.Readable
  source : d.source = d.body.source

/-- Numbers, and function values of sessions. -/
inductive Value.WellFormed : Value → Prop where
  | number (x : Float) : WellFormed (.number x)
  | function {c : Closure} (h : c.WellFormed) : WellFormed (.function c)

/-- Tables in which names are bound, each of them once, to values of sessions. -/
structure Table.WellFormed (t : Table Value) : Prop where
  names : ∀ name ∈ t.names, isName name.toList = true
  nodup : t.names.Nodup
  values : ∀ {name v}, t.get? name = some v → v.WellFormed

/-- Worlds in which names are bound, each of them once, to values and to named functions of
sessions. -/
structure World.WellFormed (w : World) : Prop where
  bindings : w.bindings.WellFormed
  functionNames : ∀ name ∈ w.functions.names, isName name.toList = true
  functionNodup : w.functions.names.Nodup
  functions : ∀ {name d}, w.functions.get? name = some d → d.WellFormed

/-- Faults that are no mismatch of types, or the one of an operator with a function as an
operand. -/
def Fault.OperandsMismatch (fault : Fault) : Prop :=
  fault.kind = .typeMismatch → ∃ op params, fault = .functionOperand op (Expr.showFunction params)

namespace Table

/-- The table without names is well-formed. -/
lemma wellFormed_empty : (empty : Table Value).WellFormed where
  names := by simp [empty, Table.names]
  nodup := List.nodup_nil
  values := fun h => by cases h

/-- A name that is bound becomes one of the names. -/
lemma forall_names_set {α : Type} {t : Table α} (hnodup : t.names.Nodup)
    (hnames : ∀ n ∈ t.names, isName n.toList = true) (hname : isName name.toList = true) (a : α) :
    ∀ n ∈ (t.set name a).names, isName n.toList = true := by
  rcases (written_set hnodup name a).names_eq with h | ⟨-, h⟩
  · rw [h]
    exact hnames
  · rw [h, List.forall_mem_append]
    exact ⟨hnames, List.forall_mem_singleton.mpr hname⟩

/-- A table stays well-formed if a name is bound to a value of sessions. -/
lemma WellFormed.set {t : Table Value} (h : t.WellFormed) (hname : isName name.toList = true)
    (hv : v.WellFormed) : (t.set name v).WellFormed where
  names := forall_names_set h.nodup h.names hname v
  nodup := nodup_names_set h.nodup name v
  values := by
    intro other v' hother
    rw [get?_set] at hother
    split at hother
    · rw [← Option.some.inj hother]
      exact hv
    · exact h.values hother

/-- A table stays well-formed if names are bound to values of sessions, one after another. -/
lemma WellFormed.setAll {t : Table Value} {params : List String} (h : t.WellFormed)
    (hparams : ∀ p ∈ params, isName p.toList = true) (hvalues : ∀ v ∈ values, v.WellFormed) :
    (t.setAll (params.zip values)).WellFormed := by
  induction params generalizing t values with
  | nil => exact h
  | cons p params ih =>
    cases values with
    | nil => exact h
    | cons v values =>
      rw [List.forall_mem_cons] at hparams hvalues
      exact ih (h.set hparams.1 hvalues.1) hparams.2 hvalues.2

end Table

/-! ## Looking up, keeping and calling -/

namespace Callee

/-- Functions of sessions. -/
def WellFormed : Callee → Prop
  | definition d => d.WellFormed
  | closure c => c.WellFormed

/-- The body of a function of sessions is an expression as texts have them. -/
lemma WellFormed.body_readable (h : callee.WellFormed) : callee.body.Readable := by
  cases callee with
  | definition d => exact Definition.WellFormed.body h
  | closure c => exact Closure.WellFormed.body h

/-- The body of a function of sessions is evaluated in a well-formed frame. -/
lemma WellFormed.frame_wellFormed (h : callee.WellFormed) (hvalues : ∀ v ∈ values, v.WellFormed) :
    (callee.frame values).WellFormed := by
  cases callee with
  | definition d =>
    rw [frame_definition]
    exact Table.wellFormed_empty.setAll (Definition.WellFormed.params h) hvalues
  | closure c =>
    obtain ⟨hparams, hkept, hnodup, -⟩ : c.WellFormed := h
    rw [frame_closure]
    refine Table.WellFormed.setAll ⟨?_, ?_, ?_⟩ hparams hvalues
    · rw [Table.names_map]
      exact hkept
    · rw [Table.names_map]
      exact hnodup
    · intro name v hv
      rw [Table.get?_map] at hv
      obtain ⟨x, -, rfl⟩ := Option.map_eq_some_iff.mp hv
      exact .number x

end Callee

namespace World

/-- What a name stands for is a value of sessions. -/
lemma WellFormed.visible_wellFormed (hw : w.WellFormed) (hframe : frame.WellFormed)
    (h : w.visible frame name = some v) : v.WellFormed := by
  rw [World.visible, Option.or_eq_some_iff] at h
  rcases h with h | ⟨-, h⟩
  · exact hframe.values h
  · exact hw.bindings.values h

/-- What a name is looked up as is a value of sessions. -/
lemma WellFormed.lookup_wellFormed (hw : w.WellFormed) (hframe : frame.WellFormed) (name : String) :
    Satisfies Value.WellFormed Fault.OperandsMismatch (w.lookup frame name) := by
  rw [lookup_eq]
  cases hname : w.visible frame name with
  | none => exact .error fun hkind => by cases hkind
  | some v => exact .ok (hw.visible_wellFormed hframe hname)

/-- What a call by name runs is a function of sessions. -/
lemma WellFormed.callee_wellFormed (hw : w.WellFormed) (hframe : frame.WellFormed) (name : String) :
    Satisfies Callee.WellFormed Fault.OperandsMismatch (w.callee frame name) := by
  have hundefined : (Fault.undefinedFunction name).OperandsMismatch := fun hkind => by cases hkind
  rw [callee_eq]
  cases hfunction : w.functions.get? name with
  | some d => exact .ok (hw.functions hfunction)
  | none =>
    cases hname : w.visible frame name with
    | none => exact .error hundefined
    | some v =>
      cases hw.visible_wellFormed hframe hname with
      | number x => exact .error hundefined
      | function hc => exact .ok hc

/-- A lambda of a text makes a function value of sessions. -/
lemma WellFormed.snapshot_wellFormed {params : List String} {body : Expr} (hw : w.WellFormed)
    (hframe : frame.WellFormed) (hparams : ∀ p ∈ params, isName p.toList = true)
    (hbody : body.Readable) : Closure.WellFormed ⟨params, body, w.snapshot frame⟩ where
  params := hparams
  kept := by
    intro name hname
    by_contra hno
    have hlocal := Table.get?_eq_none_iff.mpr fun h => hno (hframe.names name h)
    have hglobal := Table.get?_eq_none_iff.mpr fun h => hno (hw.bindings.names name h)
    have hnone := get?_snapshot hframe.nodup hw.bindings.nodup name
    rw [hlocal, hglobal] at hnone
    exact Table.get?_eq_none_iff.mp hnone hname
  nodup := nodup_names_snapshot hframe.nodup hw.bindings.nodup
  body := hbody

end World

/-! ## Evaluations -/

/-- An operator makes a number of values, or a function is one of its operands. -/
lemma Operator.combine_wellFormed (op : Operator) (a b : Value) :
    Satisfies Value.WellFormed Fault.OperandsMismatch (op.combine a b) := by
  cases a with
  | function c => exact .error fun _ => ⟨op, c.params, rfl⟩
  | number x =>
    cases b with
    | function c => exact .error fun _ => ⟨op, c.params, rfl⟩
    | number y =>
      simp only [combine]
      cases op.result? x y with
      | some z => exact .ok (.number z)
      | none => exact .error fun hkind => by cases hkind

namespace Expr

variable {inner : Table Value → Expr → Except Fault Value} {args : List Expr}

/-- A call of a function of sessions leads to a value of sessions if what is evaluated for it
does. -/
lemma callWith_wellFormed {shown : Option String} (hcallee : callee.WellFormed)
    (hinner : ∀ {e frame}, e.Readable → frame.WellFormed →
      Satisfies Value.WellFormed Fault.OperandsMismatch (inner frame e))
    (hargs : ∀ e ∈ args, e.Readable) (hframe : frame.WellFormed) :
    Satisfies Value.WellFormed Fault.OperandsMismatch (callWith inner callee shown frame args) := by
  unfold callWith
  split
  · apply (evaluateAll_satisfies fun e he => hinner (hargs e he) hframe).bind
    intro values hvalues
    exact hinner hcallee.body_readable (hcallee.frame_wellFormed hvalues)
  · exact .error fun hkind => by cases hkind

/-- **Evaluations of texts lead to values of sessions**, and where types do not match, a function
is an operand.

**Proof sketch.** Induction on the levels. A call by name runs a function of sessions, and what is
called in place is a lambda, which stands for such a function and never for a number. -/
theorem valueWithin_wellFormed (hw : w.WellFormed) (he : e.Readable) (hframe : frame.WellFormed) :
    Satisfies Value.WellFormed Fault.OperandsMismatch (e.valueWithin w levels frame) := by
  induction levels generalizing e frame with
  | zero =>
    rw [valueWithin, World.depthFault]
    split <;> exact .error fun hkind => by cases hkind
  | succ levels ih =>
    rw [valueWithin]
    cases he with
    | number hx => exact .ok (.number _)
    | var hname =>
      rw [visit, Result.ofExcept_eq]
      exact hw.lookup_wellFormed hframe _
    | @binary op a b ha hb =>
      apply (ih ha hframe).bind
      intro u hu
      apply (ih hb hframe).bind
      intro v hv
      rw [Result.ofExcept_eq]
      exact op.combine_wellFormed u v
    | lambda hparams hbody => exact .ok (.function (hw.snapshot_wellFormed hframe hparams hbody))
    | @call name args hname hargs =>
      rw [visit, Result.ofExcept_eq]
      apply (hw.callee_wellFormed hframe name).bind
      intro callee hcallee
      exact callWith_wellFormed hcallee ih hargs hframe
    | @invoke params body args hfunction hargs =>
      have hlambda := ih hfunction hframe
      rw [visit]
      cases hvalue : (lambda params body).valueWithin w levels frame with
      | error fault =>
        rw [hvalue] at hlambda
        cases hlambda with
        | error h => exact .error h
      | ok v =>
        -- a lambda stands for a function, so the branch of a number is not taken
        cases eq_of_valueWithin_lambda hvalue
        rw [hvalue] at hlambda
        cases hlambda with
        | ok h =>
          cases h with
          | function hc =>
            have hcallee : (Callee.closure _).WellFormed := hc
            exact callWith_wellFormed hcallee ih hargs hframe

end Expr

/-- What the value of an expression of a text is in a world of sessions. -/
lemma World.WellFormed.run_wellFormed (hw : w.WellFormed) (he : e.Readable) :
    Satisfies Value.WellFormed Fault.OperandsMismatch (w.run .empty e) := by
  rw [World.run_eq]
  exact Expr.valueWithin_wellFormed hw he Table.wellFormed_empty

/-! ## Statements -/

namespace Statement

/-- Statements of texts: what is bound has a name, parameters are distinct names, and the
expression is one as texts have them. -/
inductive Form.WellFormed : Form → Prop where
  | binding {name : String} {term : Expr} (hname : isName name.toList = true)
      (hterm : term.Readable) :
      WellFormed (.binding name term)
  | definition {name : String} {params : List String} {term : Expr}
      (hname : isName name.toList = true) (hparams : ∀ p ∈ params, isName p.toList = true)
      (hnodup : params.Nodup) (hterm : term.Readable) : WellFormed (.definition name params term)
  | expression {term : Expr} (hterm : term.Readable) : WellFormed (.expression term)

/-- The expression of a statement is one as texts have them. -/
lemma Form.WellFormed.term_readable (h : form.WellFormed) : form.term.Readable := by
  cases h <;> assumption

/-- Lexemes of a text that form an expression form one as texts have them. -/
lemma readable_of_ofLexemes {nesting : Nat} {ls : List Lexeme}
    (h : Expr.ofLexemes nesting ls = .ok e) (hls : ∀ l ∈ ls, l.Written) : e.Readable :=
  ((Expr.reads_of_ofLexemes h).readable hls).1

/-- What lexemes of a text say is a statement of texts. -/
lemma Denotes.wellFormed {nesting : Nat} {ls : List Lexeme} (h : Denotes nesting ls form)
    (hls : ∀ l ∈ ls, l.Written) : form.WellFormed := by
  cases h with
  | binding hterm =>
    simp only [List.forall_mem_cons] at hls
    exact .binding hls.2.1 (readable_of_ofLexemes hterm hls.2.2.2)
  | definition hnodup hterm =>
    simp only [List.forall_mem_cons, List.forall_mem_append] at hls
    obtain ⟨-, hname, -, hparams, -, -, hls⟩ := hls
    exact .definition hname (isName_of_written hparams) hnodup (readable_of_ofLexemes hterm hls)
  | expression hterm => exact .expression (readable_of_ofLexemes hterm hls)

/-- What a line says is a statement of texts. -/
lemma wellFormed_of_ofLine {limits : Limits} {statement : Statement}
    (h : ofLine limits line = .ok statement) : statement.form.WellFormed := by
  obtain ⟨tokens, htokens, hdenotes⟩ := exists_ofLine_iff_denotes.mp ⟨statement, h, rfl⟩
  exact hdenotes.wellFormed (lexemes?_eq_some_iff.mp (Expr.lexemes?_of_tokensOf htokens)).written

end Statement

/-- A statement of texts leads from a well-formed world to one. -/
lemma Turn.wellFormed {result : Except Fault Reply} (h : Turn w form result w')
    (hform : form.WellFormed) (hw : w.WellFormed) : w'.WellFormed := by
  cases h with
  | refused fault => exact hw
  | expression hvalue => exact hw
  | @binding name term value hvalue =>
    cases hform with
    | binding hname hterm =>
      have hrun := hw.run_wellFormed hterm
      rw [hvalue] at hrun
      cases hrun with
      | ok hv => exact ⟨hw.bindings.set hname hv, hw.functionNames, hw.functionNodup, hw.functions⟩
  | @definition name params body hheight =>
    cases hform with
    | definition hname hparams hnodup hbody =>
      refine ⟨hw.bindings, Table.forall_names_set hw.functionNodup hw.functionNames hname _,
        Table.nodup_names_set hw.functionNodup _ _, ?_⟩
      intro other d hd
      have hget := Table.get?_set w.functions name other ⟨params, body, body.source⟩
      rw [show (w.define name params body).world.functions.get? other = _ from hget] at hd
      split at hd
      · cases hd
        exact ⟨hparams, hnodup, hbody, rfl⟩
      · exact hw.functions hd

/-! ## Sessions -/

namespace World

/-- The world without names is well-formed. -/
lemma wellFormed_new (maxDepth : DepthLimit) (limits : Limits) :
    (new maxDepth limits).WellFormed where
  bindings := Table.wellFormed_empty
  functionNames := by simp [new, Table.empty, Table.names]
  functionNodup := List.nodup_nil
  functions := fun h => by cases h

/-- A line leads from a well-formed world to one. -/
lemma WellFormed.after (hw : w.WellFormed) (line : String) : (w.after line).WellFormed := by
  rw [World.after]
  rcases turn_ofLine w line with ⟨fault, h⟩ | ⟨statement, hstatement, h⟩
  · rw [h]
    exact hw
  · exact h.wellFormed (Statement.wellFormed_of_ofLine hstatement) hw

/-- Lines lead from a well-formed world to one. -/
lemma WellFormed.enterAll (hw : w.WellFormed) (lines : List String) :
    (w.enterAll lines).WellFormed :=
  List.foldlRecOn lines World.after hw fun _ h line _ => h.after line

/-- Where types do not match in a line, a function is an operand. -/
lemma WellFormed.fault_of_enter (hw : w.WellFormed) (h : w.enter line = .error fault) :
    fault.OperandsMismatch := by
  intro hkind
  rcases World.fault_of_enter h with hreading | ⟨statement, hstatement, hrun | rfl⟩
  · exact absurd hkind hreading.kind_ne_typeMismatch
  · have hvalue := hw.run_wellFormed (Statement.wellFormed_of_ofLine hstatement).term_readable
    rw [hrun] at hvalue
    cases hvalue with
    | error h => exact h hkind
  · cases hkind

/-- **The worlds of sessions are well-formed**, whatever lines are entered: every name that is
bound is a name and bound once, every named function has distinct names as parameters and is
stored with the text of its body, every function value has names as parameters and keeps numbers
under names, and all bodies are expressions as texts have them, in which only lambdas are called
in place, all names are names and all literals are numbers that are not negative or infinity. So
no line of a session calls a number: where types do not match, an operator has a function as an
operand.

**Proof sketch.** What a line says is a statement of texts (`Statement.wellFormed_of_ofLine`), so
its evaluation leads to a value of sessions (`Expr.valueWithin_wellFormed`) and what is bound
afterwards is well-formed again (`Turn.wellFormed`). The rest is induction along the lines. -/
theorem wellFormed_enterAll (maxDepth : DepthLimit) (limits : Limits) (lines : List String) :
    let w := (new maxDepth limits).enterAll lines
    w.WellFormed ∧ ∀ line fault, w.enter line = .error fault →
      (∀ x, fault ≠ .notAFunction x) ∧
      (fault.kind = .typeMismatch →
        ∃ op params, fault = .functionOperand op (Expr.showFunction params)) := by
  intro w
  have hw : w.WellFormed := (wellFormed_new maxDepth limits).enterAll lines
  refine ⟨hw, fun line fault h => ?_⟩
  have hmismatch := hw.fault_of_enter h
  refine ⟨?_, hmismatch⟩
  rintro x rfl
  obtain ⟨op, params, hfault⟩ := hmismatch rfl
  cases hfault

/-- A function value is made by a function and bound, and a line that multiplies it is refused. -/
theorem wellFormed_enterAll_operand :
    let w := (World.new (.levels 300) .standard).enterAll
      ["let k = 2", "def f(x, y) = fn(z) => x + k", "let g = f(k, 3)"]
    w.WellFormed ∧ w.bindings.names = ["k", "g"] ∧ ∃ fault, w.enter "2 * g" = .error fault ∧
      fault.kind = .typeMismatch ∧
        ∃ op params, fault = .functionOperand op (Expr.showFunction params) := by
  intro w
  obtain ⟨hw, hfaults⟩ := wellFormed_enterAll (.levels 300) .standard
    ["let k = 2", "def f(x, y) = fn(z) => x + k", "let g = f(k, 3)"]
  have hkind : (match w.enter "2 * g" with
      | .error fault => fault.kind == .typeMismatch
      | .ok _ => false) = true := by decide +kernel
  refine ⟨hw, by decide +kernel, ?_⟩
  cases hfault : w.enter "2 * g" with
  | ok outcome =>
    rw [hfault] at hkind
    cases hkind
  | error fault =>
    rw [hfault] at hkind
    have hmismatch : fault.kind = .typeMismatch := eq_of_beq hkind
    exact ⟨fault, rfl, hmismatch, (hfaults _ fault hfault).2 hmismatch⟩

end World

end Abacus
