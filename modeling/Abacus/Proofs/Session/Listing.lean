import Abacus.Proofs.RoundTrip
import Abacus.Proofs.Session.WellFormed
import Abacus.Proofs.Table.Lookup

/-!
# Listings are programs

The named functions of a session are listed as definitions without the word that opens them. With
that word in front of each of them, the listing is a program: its lines are answered in a session
without names, and define the same functions again.

## Main definitions

* `Abacus.Definition.line` — the line that defines a function as it is listed.
* `Abacus.Definition.Fits` — functions whose listings the machine is able to read and to store.

## Main results

* `Abacus.World.after_line` — what the line of a listed function leads to.
* `Abacus.World.enterAll_lines` — what the lines of a table of functions lead to.
* `Abacus.World.listing_loads` — the listing of a session defines the functions of the session.
-/

namespace Abacus

open Grammar

variable {w w' : World} {limits : Limits} {name : String} {d : Definition}
  {entries : List (String × Definition)}

/-! ## The line of a function -/

namespace Definition

/-- The line that defines a function as it is listed. -/
def line (name : String) (d : Definition) : String := "def " ++ d.listing name

/-- Functions that the machine can load: the texts of their bodies do not nest too deeply, and the
bodies are not too high. -/
structure Fits (d : Definition) (limits : Limits) : Prop where
  nested : Expr.parse limits d.source ≠ .error .tooNested
  height : d.body.height ≤ limits.height

/-- Functions whose bodies have no numbers but those that are shown by digits and points. -/
def HasDigits (d : Definition) : Prop :=
  ∀ x ∈ d.body.literals, ∀ c ∈ Number.numeral x, isNumeralChar c = true

/-- Functions of sessions under their names, whose lines can be loaded. -/
structure Loadable (d : Definition) (limits : Limits) (name : String) : Prop where
  name : isName name.toList = true
  wellFormed : d.WellFormed
  fits : d.Fits limits
  digits : d.HasDigits

/-- The line of a function has the lexemes of a definition, and at its end those of the body. -/
lemma lexemes?_line (hname : isName name.toList = true) (hd : d.WellFormed) :
    lexemes? (d.line name).toList = some (.keyword .defWord :: .identifier name :: .openParen ::
      (parameters d.params ++ .closeParen :: .equals :: d.body.lexemes)) := by
  have hblank : Text.isBlank ' ' = true := by decide
  have hbody : Spells (' ' :: d.body.render) d.body.lexemes :=
    (Expr.spells_render hd.body).blank hblank
  have hequals := (hbody.cons (l := .equals) trivial
    fun rest => show Lexeme.equals.EndsBefore (' ' :: (d.body.render ++ rest)) from
      Statement.endsBefore_equals_iff.mpr (by simp)).blank hblank
  have hparams := (Expr.spells_renderParams hd.params).append (bounded_cons.mpr (by decide))
    (Expr.spells_closeParen hequals)
  have hleft := (Expr.spells_name hname).append (bounded_cons.mpr (by decide))
    (Expr.spells_openParen hparams)
  have hword : Spells "def".toList [.keyword .defWord] :=
    Spells.lexeme (l := .keyword .defWord) trivial (by simp)
  have hline := hword.append (bounded_cons.mpr (by decide)) (hleft.blank hblank)
  have htext : (d.line name).toList =
      "def".toList ++ ' ' :: (name.toList ++ '(' :: (Expr.renderParams d.params ++
        ')' :: ' ' :: (Lexeme.equals.chars ++ ' ' :: d.body.render))) := by
    simp [line, listing, hd.source, Expr.source, Lexeme.chars]
  rw [htext]
  exact hline.lexemes?_eq

/-- The body of a function is read back from its text. -/
lemma Loadable.parse_eq (h : d.Loadable limits name) : Expr.parse limits d.source = .ok d.body := by
  have hbody := h.wellFormed.body
  have hplain : ∀ x ∈ d.body.literals, 'e' ∉ Number.numeral x :=
    fun x hx hexponent => absurd (h.digits x hx 'e' hexponent) (by decide)
  have hnamed : d.body.named = d.body :=
    Expr.named_eq_self hbody fun x hx => Expr.finite_of_digits (hbody.isLiteral hx) (h.digits x hx)
  have hparse := Expr.parse_source_of_plain hbody hplain limits
  rw [hnamed, ← h.wellFormed.source] at hparse
  exact hparse.resolve_left h.fits.nested

/-- The line of a function is read as the definition of that function. -/
lemma Loadable.ofLine_line (h : d.Loadable limits name) :
    ∃ statement, Statement.ofLine limits (d.line name) = .ok statement ∧
      statement.form = .definition name d.params d.body := by
  obtain ⟨ls, hls, hterm⟩ := Expr.parse_eq_ok_iff.mp h.parse_eq
  have hbody : lexemes? d.source.toList = some d.body.lexemes := by
    rw [h.wellFormed.source, Expr.source, String.toList_ofList]
    exact (Expr.spells_render h.wellFormed.body).lexemes?_eq
  cases hls.symm.trans hbody
  obtain ⟨tokens, htokens, hlexemes⟩ :=
    Expr.tokensOf_of_lexemes? (lexemes?_line h.name h.wellFormed)
  refine Statement.exists_ofLine_iff_denotes.mpr ⟨tokens, htokens, ?_⟩
  rw [hlexemes]
  exact .definition h.wellFormed.nodup hterm

end Definition

/-! ## What sessions store -/

/-- Statements store no function whose body is too high. -/
lemma Turn.height_le {form : Statement.Form} {result : Except Fault Reply}
    (h : Turn w form result w')
    (hw : ∀ {name d}, w.functions.get? name = some d → d.body.height ≤ w.limits.height) :
    ∀ {name d}, w'.functions.get? name = some d → d.body.height ≤ w'.limits.height := by
  cases h with
  | refused fault => exact hw
  | binding hvalue => exact hw
  | expression hvalue => exact hw
  | @definition name params body hheight =>
    intro other d hd
    have hget := Table.get?_set w.functions name other ⟨params, body, body.source⟩
    rw [show (w.define name params body).world.functions.get? other = _ from hget] at hd
    split at hd
    · cases hd
      exact hheight
    · exact hw hd

namespace World

/-- Sessions store no function whose body is too high. -/
lemma height_le_of_stored (maxDepth : DepthLimit) (limits : Limits) (lines : List String)
    (h : ((new maxDepth limits).enterAll lines).functions.get? name = some d) :
    d.body.height ≤ limits.height := by
  suffices hall : ∀ {name d}, ((new maxDepth limits).enterAll lines).functions.get? name = some d →
      d.body.height ≤ ((new maxDepth limits).enterAll lines).limits.height by
    rw [(settled_enterAll maxDepth limits lines).2] at hall
    exact hall h
  refine List.foldlRecOn lines World.after
    (motive := fun w => ∀ {name d}, w.functions.get? name = some d →
      d.body.height ≤ w.limits.height)
    (fun h => by cases h) fun w hw line _ => ?_
  rw [World.after]
  rcases turn_ofLine w line with ⟨fault, hrun⟩ | ⟨statement, -, hturn⟩
  · rw [hrun]
    exact hw
  · exact hturn.height_le hw

/-! ## Loading a listing -/

/-- Where there are no variables, the line of a function is answered without a warning, and
defines that function. -/
lemma after_line (h : d.Loadable w.limits name) (hbindings : w.bindings = .empty) :
    (∃ outcome, w.enter (d.line name) = .ok outcome) ∧
      w.after (d.line name) = { w with functions := w.functions.set name d } := by
  have hdefine : (w.define name d.params d.body).world =
      { w with functions := w.functions.set name ⟨d.params, d.body, d.body.source⟩ } := by
    rw [define, definitionWarning?, hbindings]
    exact warn_none _
  obtain ⟨statement, hstatement, hform⟩ := h.ofLine_line
  have hd : (⟨d.params, d.body, d.body.source⟩ : Definition) = d := by
    rw [← h.wellFormed.source]
  have hrun : (Run.ofLine (d.line name)).on w =
      (.ok (w.define name d.params d.body).toReply,
        { w with functions := w.functions.set name d }) := by
    rw [Run.ofLine, Run.on_get, Run.on_bind, hstatement]
    change statement.form.execute.on w = _
    rw [hform, Statement.Form.execute, Run.on_get, if_pos h.fits.height]
    rw [← hd, ← hdefine]
    rfl
  constructor
  · rw [enter, hrun]
    exact ⟨_, rfl⟩
  · rw [after, hrun]

/-- Where there are no variables, the lines of functions with different names that are new put the
functions behind those that there are. -/
lemma enterAll_lines (hloadable : ∀ e ∈ entries, e.2.Loadable w.limits e.1)
    (hbindings : w.bindings = .empty)
    (hnodup : (w.functions.names ++ entries.map (·.1)).Nodup) :
    w.enterAll (entries.map fun e => e.2.line e.1) =
      { w with functions := ⟨w.functions.entries ++ entries⟩ } := by
  induction entries generalizing w with
  | nil =>
    rw [List.append_nil]
    rfl
  | cons entry entries ih =>
    rw [List.forall_mem_cons] at hloadable
    have hnew : entry.1 ∉ w.functions.names :=
      fun hmem => (List.nodup_append.mp hnodup).2.2 _ hmem _ List.mem_cons_self rfl
    have hset : w.functions.set entry.1 entry.2 = ⟨w.functions.entries ++ [entry]⟩ :=
      congrArg Table.mk (Table.setEntry_of_notMem hnew)
    have hafter := (after_line hloadable.1 hbindings).2
    rw [hset] at hafter
    have hlater := ih (w := { w with functions := ⟨w.functions.entries ++ [entry]⟩ }) hloadable.2
      hbindings (by simpa [Table.names] using hnodup)
    simp only [List.append_assoc, List.cons_append, List.nil_append] at hlater
    rw [List.map_cons, enterAll, List.foldl_cons, ← enterAll, hafter, hlater]

/-- **The listing of a session is a program.** Let any lines be entered into a world without
names, and list the functions that are defined then, each on a line of its own behind the word
that opens definitions. If all numbers in their bodies are shown by digits and points, and the
machine can load them, then in a world without names every line of the listing is answered after
the lines before it, and all of them together lead to the same table of functions, with the same
names in the same order, the same parameters, the same bodies and the same texts, and to no
variables. No function of a session is too high for the machine that stored it, and no text nests
too deeply whose tree is less high than the limit.

**Proof sketch.** The functions of a session are well-formed (`WellFormed.enterAll`), so the line
of each is read as the definition of it (`Definition.Loadable.ofLine_line`). No name is defined
twice, so each line puts its function behind those of the lines before (`enterAll_lines`). -/
theorem listing_loads (maxDepth maxDepth' : DepthLimit) (limits limits' : Limits)
    (lines : List String) :
    let functions := ((new maxDepth limits).enterAll lines).functions
    let listing := functions.entries.map fun e => e.2.line e.1
    ((∀ e ∈ functions.entries, e.2.HasDigits ∧ e.2.Fits limits') →
      (∀ before line behind, listing = before ++ line :: behind →
        ∃ outcome, ((new maxDepth' limits').enterAll before).enter line = .ok outcome) ∧
      (new maxDepth' limits').enterAll listing =
        { new maxDepth' limits' with functions := functions }) ∧
    ∀ e ∈ functions.entries, e.2.body.height ≤ limits.height ∧
      (e.2.body.height < limits'.nesting → Expr.parse limits' e.2.source ≠ .error .tooNested) := by
  intro functions listing
  have hw : ((new maxDepth limits).enterAll lines).WellFormed :=
    (wellFormed_new maxDepth limits).enterAll lines
  have hget : ∀ e ∈ functions.entries, functions.get? e.1 = some e.2 :=
    fun e he => Table.get?_of_mem_entries hw.functionNodup he
  have hstored : ∀ e ∈ functions.entries, e.2.WellFormed := fun e he => hw.functions (hget e he)
  refine ⟨fun h => ?_, fun e he => ⟨height_le_of_stored maxDepth limits lines (hget e he), ?_⟩⟩
  · have hloadable : ∀ e ∈ functions.entries, e.2.Loadable limits' e.1 := fun e he =>
      ⟨hw.functionNames _ (List.mem_map_of_mem he), hstored e he, (h e he).2, (h e he).1⟩
    have hnodup : functions.names.Nodup := hw.functionNodup
    refine ⟨fun before line behind hsplit => ?_, ?_⟩
    · obtain ⟨earlier, others, hentries, rfl, hothers⟩ := List.map_eq_append_iff.mp hsplit
      obtain ⟨entry, later, rfl, rfl, -⟩ := List.map_eq_cons_iff.mp hothers
      rw [hentries] at hloadable
      rw [Table.names, hentries, List.map_append, List.nodup_append] at hnodup
      rw [enterAll_lines (w := new maxDepth' limits')
        (fun e he => hloadable e (List.mem_append_left _ he)) rfl hnodup.1]
      exact (after_line (hloadable entry (List.mem_append_right _ List.mem_cons_self)) rfl).1
    · exact enterAll_lines hloadable rfl hnodup
  · intro hlt
    rw [(hstored e he).source]
    exact Expr.parse_source_ne_tooNested (hstored e he).body hlt

/-- Two functions are listed, of which the first was defined again, with a lambda that is called
in place. -/
theorem listing_loads_redefined :
    let lines := ["def area(r) = 3.25 * r ^ 2", "let k = 7", "def sum(a, b) = a + area(b, k)",
      "def area(w, h) = (fn(a) => a * (h - 0.5))(w)"]
    let functions := ((new (.levels 300) .standard).enterAll lines).functions
    let listing := functions.entries.map fun e => e.2.line e.1
    listing = ["def area(w, h) = (fn(a) => a * (h - 0.5))(w)", "def sum(a, b) = a + area(b, k)"] ∧
      (∀ before line behind, listing = before ++ line :: behind →
        ∃ outcome, ((new (.levels 1) .standard).enterAll before).enter line = .ok outcome) ∧
      (new (.levels 1) .standard).enterAll listing =
        { new (.levels 1) .standard with functions := functions } := by
  intro lines functions listing
  obtain ⟨hloads, hfits⟩ := listing_loads (.levels 300) (.levels 1) .standard .standard lines
  have hdigits : ∀ e ∈ functions.entries, ∀ x ∈ e.2.body.literals,
      (Number.numeral x).all isNumeralChar = true := by decide +kernel
  have hlow : ∀ e ∈ functions.entries, e.2.body.height < Limits.standard.nesting := by
    decide +kernel
  exact ⟨by decide +kernel, hloads fun e he =>
    ⟨fun x hx => List.all_eq_true.mp (hdigits e he x hx), (hfits e he).2 (hlow e he),
      (hfits e he).1⟩⟩

end World

end Abacus
