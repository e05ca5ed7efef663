import Abacus.Proofs.Shell.Script
import Abacus.Proofs.Statement.Balance

/-!
# Commands and statements

Commands are recognized by the characters of a line, and statements by its lexemes. No line that
holds a statement is a command, unless the statement is nothing but the word of a command: behind
a name an expression can only go on with an operator or a parenthesis, and no argument of a
command starts with one of these.

## Main results

* `Abacus.Shell.request?_of_ofLine` — no statement is recognized as a command, whatever comment
  follows it.
* `Abacus.Shell.step_of_ofLine` — the statement that stands on one line is submitted.
* `Abacus.Shell.commands_swallow_no_statement` — both, for whole lines.
-/

namespace Abacus

open Grammar Text

/-! ## What follows a name -/

/-- Behind a name, an expression goes on with an operator or an opening parenthesis. -/
lemma Grammar.Reads.behind_name {e : Expr} {name : String} {l : Lexeme} {ls : List Lexeme}
    (h : Reads (.expression e) (.identifier name :: l :: ls) []) :
    (∃ op, l = .operator op) ∨ l = .openParen := by
  cases h with
  | expression h =>
    cases h with
    | last he =>
      cases he with
      | call => exact .inr rfl
    | lastLambda hf =>
      obtain ⟨_, h⟩ := hf.head_lambda
      cases h
    | link he =>
      cases he with
      | name => exact .inl ⟨_, rfl⟩
      | call => exact .inr rfl

/-- A statement that starts with a name and goes on is an expression. -/
lemma Statement.Denotes.behind_name {nesting : Nat} {form : Statement.Form} {name : String}
    {l : Lexeme}
    {ls : List Lexeme} (h : Statement.Denotes nesting (.identifier name :: l :: ls) form) :
    (∃ op, l = .operator op) ∨ l = .openParen := by
  cases h with
  | expression hterm => exact (Expr.reads_of_ofLexemes hterm).behind_name

/-- No statement has no lexemes. -/
lemma Statement.Denotes.ne_nil {nesting : Nat} {form : Statement.Form} :
    ¬ Statement.Denotes nesting [] form := by
  rintro (_ | _ | hterm)
  cases nesting <;> cases hterm

/-! ## Lines in front of comments -/

/-- What is cut off a text starts with the mark, if anything is. -/
lemma Text.exists_behind (mark cs : List Char) :
    ∃ behind, cs = before mark cs ++ behind ∧ (behind = [] ∨ mark <+: behind) := by
  induction cs with
  | nil => exact ⟨[], by rw [before_nil]; rfl, .inl rfl⟩
  | cons c cs ih =>
    by_cases h : mark <+: c :: cs
    · exact ⟨c :: cs, by rw [before_eq_nil h]; rfl, .inr h⟩
    · obtain ⟨behind, hcs, hbehind⟩ := ih
      refine ⟨behind, ?_, hbehind⟩
      rw [before_cons h, List.cons_append, ← hcs]

/-- A line without blanks around it is what is left of it without its comment, and a text that
starts with a blank or a semicolon. -/
lemma Script.exists_tail (line : List Char) :
    ∃ tail, strip line = strip (uncommented line) ++ tail ∧
    ∀ c ∈ tail.head?, isBlank c = true ∨ c = ';' := by
  obtain ⟨behind, hline, hbehind⟩ := exists_behind commentMark (strip line)
  obtain ⟨bs, hbs, hcut⟩ := exists_stripRight (uncommented (strip line))
  have hfront : strip (uncommented line) = stripRight (uncommented (strip line)) := by
    have hhead : ∀ c ∈ (uncommented (strip line)).head?, isBlank c = false := by
      intro c hc
      obtain ⟨rest, hrest⟩ := List.head?_eq_some_iff.mp hc
      rw [uncommented] at hrest
      rw [hrest, List.cons_append] at hline
      exact isBlank_of_strip hline
    have hleft : stripLeft ([] ++ uncommented (strip line)) = uncommented (strip line) :=
      stripLeft_append blank_nil hhead
    rw [← strip_uncommented_strip]
    exact congrArg stripRight hleft
  refine ⟨bs ++ behind, ?_, fun c hc => ?_⟩
  · rw [hfront, ← List.append_assoc, ← hcut]
    exact hline
  · cases bs with
    | cons b bs =>
      obtain rfl : b = c := Option.some.inj hc
      exact .inl (hbs b List.mem_cons_self)
    | nil =>
      rcases hbehind with rfl | ⟨rest, rfl⟩
      · cases hc
      · cases hc
        exact .inr rfl

namespace Shell

variable {limits : Limits} {cs tail rest : List Char} {l : Lexeme} {line : String}
  {command : Command}
  {statement : Statement}

/-! ## Words of commands -/

/-- A word is a command if it is the word of that command. -/
lemma word_of_ofWord? {word : String} (h : Command.ofWord? word = some command) :
    command.word = word := by
  have hfound := List.find?_some h
  simpa using hfound

/-- The word of a command starts with a character that starts names. -/
lemma Command.exists_cons (c : Command) :
    ∃ d ds, c.word.toList = d :: ds ∧ isNameStart d = true := by
  cases c <;> exact ⟨_, _, rfl, by decide⟩

/-- Where a text starts with the word of a command, that word is its first lexeme.

**Proof sketch.** A word is taken as long as names go on. A numeral starts with a digit and a
reserved word is none of the words of commands, and what starts with another character has no word
in front. -/
lemma eq_identifier_of_ofWord? (hwritten : l.Written) (hends : l.EndsBefore rest)
    (h : Command.ofWord? (String.ofList ((l.chars ++ rest).takeWhile isNameChar)) = some command) :
    l = .identifier command.word ∧ (l.chars ++ rest).dropWhile isNameChar = rest := by
  have hword := word_of_ofWord? h
  have hstart : ∀ c cs, l.chars = c :: cs → isNameStart c = true := by
    intro c cs hchars
    obtain ⟨d, ds, hds, hd⟩ := command.exists_cons
    rw [hword, String.toList_ofList, hchars, List.cons_append, List.takeWhile_cons] at hds
    split at hds
    · cases hds
      exact hd
    · cases hds
  cases l with
  | identifier name =>
    have hrest : ∀ c cs, rest = c :: cs → isNameChar c = false := by
      rintro c cs rfl
      exact hends
    have hall : name.toList.all isNameChar = true :=
      List.all_eq_true.mpr (isNameChar_of_isName hwritten)
    obtain ⟨htake, hdrop⟩ := takeWhile_append_of_all hall hrest
    rw [Lexeme.chars, htake, String.ofList_toList] at hword
    rw [hword]
    exact ⟨rfl, hdrop⟩
  | keyword k =>
    have hrest : ∀ c cs, rest = c :: cs → isNameChar c = false := by
      rintro c cs rfl
      exact hends
    have hall : k.text.toList.all isNameChar = true := by cases k <;> decide
    rw [Lexeme.chars, (takeWhile_append_of_all hall hrest).1, String.ofList_toList] at h
    cases k <;> cases h
  | number numeral =>
    obtain ⟨c, cs, hcs, hdigit, -⟩ := hwritten
    rw [isDigit_of_isNameStart (hstart c cs hcs)] at hdigit
    cases hdigit
  | operator op => cases op <;> exact absurd (hstart _ _ rfl) (by decide)
  | openParen | closeParen | comma | equals | arrow => exact absurd (hstart _ _ rfl) (by decide)

/-- No lexeme is rewritten where commands are read. -/
lemma eq_of_commandLine? (hwritten : l.Written) {line' : List Char}
    (h : commandLine? (l.chars ++ rest) = some line') : line' = l.chars ++ rest := by
  have hnext := nextLexeme?_eq_some_iff.mpr ⟨rfl, hwritten, l.endsBefore_nil⟩
  obtain ⟨c, cs, hchars, -⟩ := hwritten.exists_cons
  rw [hchars, List.cons_append] at hnext h ⊢
  unfold commandLine? at h
  split at h
  · cases h
  · rename_i hline
    cases hline
    cases hnext
  · cases h
  · cases h
    rfl

/-- A comment or a blank can follow every lexeme. -/
lemma endsBefore_append (hends : l.EndsBefore rest)
    (htail : ∀ c ∈ tail.head?, isBlank c = true ∨ c = ';') : l.EndsBefore (rest ++ tail) := by
  cases rest with
  | cons c cs => cases l <;> exact hends
  | nil =>
    cases tail with
    | nil => exact hends
    | cons c cs =>
      rcases htail c rfl with hc | rfl
      · exact l.endsBefore_blank hc
      · cases l <;> simp [Lexeme.EndsBefore] <;> decide

/-- An argument that starts as the rest of an expression would is no argument. -/
lemma admits_eq_false (hl : (∃ op, l = .operator op) ∨ l = .openParen) {bs : List Char}
    (hbs : Blank bs)
    (command : Command) : admits command (strip (bs ++ (l.chars ++ rest))) = false := by
  obtain ⟨c, hchars, hblank, hc⟩ :
      ∃ c, l.chars = [c] ∧ isBlank c = false ∧ continuesExpression c = true := by
    rcases hl with ⟨op, rfl⟩ | rfl
    · cases op <;> exact ⟨_, rfl, by decide, by decide⟩
    · exact ⟨_, rfl, by decide, by decide⟩
  have hsolid : nonBlanks (bs ++ (l.chars ++ rest)) = c :: nonBlanks rest := by
    rw [nonBlanks_append, nonBlanks_eq_nil_iff.mpr hbs, hchars, nonBlanks_append, nonBlanks,
      List.filter_cons, hblank]
    rfl
  obtain ⟨xs, hxs⟩ := exists_strip_eq_cons hsolid
  rw [hxs, admits, hc, Bool.not_true, Bool.and_false]

/-- **No statement is recognized as a command**, whatever comment or blanks follow it, unless it
is the word of a command.

**Proof sketch.** The word that the shell takes for a command is the first lexeme of the statement,
which has to be a name (`eq_identifier_of_ofWord?`). If the name is all of the statement, it is the
word of the command. Else an operator, a bracket or an equals sign follows the name, and no command
admits an argument that starts with one (`admits_eq_false`). -/
theorem request?_of_ofLine (h : Statement.ofLine limits (String.ofList cs) = .ok statement)
    (hcs : strip cs = cs) (hbare : ∀ c : Command, String.ofList cs ≠ c.word)
    (htail : ∀ c ∈ tail.head?, isBlank c = true ∨ c = ';') : request? (cs ++ tail) = none := by
  obtain ⟨tokens, htokens, hdenotes⟩ := Statement.exists_ofLine_iff_denotes.mp ⟨statement, h, rfl⟩
  have hlexemes := Expr.lexemes?_of_tokensOf htokens
  rw [String.toList_ofList, lexemes?_eq_some_iff] at hlexemes
  generalize tokens.map (·.lexeme) = ls at hdenotes hlexemes
  cases ls with
  | nil => exact absurd hdenotes Statement.Denotes.ne_nil
  | cons l ls =>
    obtain ⟨bs, rest, rfl, hbs, hwritten, hends, hrest⟩ := spelling_cons_iff.mp hlexemes
    obtain ⟨c, cs, hchars, hc⟩ := hwritten.exists_cons
    -- nothing stands in front of the first lexeme, since it would be blank
    obtain rfl : bs = [] := by
      cases bs with
      | nil => rfl
      | cons b bs =>
        have hb := hbs b List.mem_cons_self
        rw [isBlank_of_strip hcs] at hb
        cases hb
    rw [List.nil_append] at hcs hbare ⊢
    cases hrequest : request? (l.chars ++ rest ++ tail) with
    | none => rfl
    | some r =>
      exfalso
      simp only [request?, Option.bind_eq_bind, Option.bind_eq_some_iff,
        List.append_assoc] at hrequest
      obtain ⟨line', hline, command, hcommand, hadmits⟩ := hrequest
      obtain rfl := eq_of_commandLine? hwritten hline
      obtain ⟨rfl, hdrop⟩ :=
        eq_identifier_of_ofWord? hwritten (endsBefore_append hends htail) hcommand
      rw [hdrop] at hadmits
      -- a name alone would be the word of the command, and else the argument starts with a mark
      cases ls with
      | nil =>
        have hblank := strip_append blank_nil (spelling_nil_iff.mp hrest) hwritten.isBlank_of_mem
        rw [List.nil_append, hcs] at hblank
        refine hbare command ?_
        rw [hblank, Lexeme.chars, String.ofList_toList]
      | cons l ls =>
        obtain ⟨bs, rest, rfl, hbs, -⟩ := spelling_cons_iff.mp hrest
        have hno : admits command (strip (bs ++ (l.chars ++ (rest ++ tail)))) = false :=
          admits_eq_false hdenotes.behind_name hbs command
        rw [List.append_assoc, List.append_assoc, hno] at hadmits
        cases hadmits

/-! ## Lines -/

/-- A statement has a character that is not blank. -/
lemma ne_nil_of_ofLine (h : Statement.ofLine limits (String.ofList cs) = .ok statement) :
    cs ≠ [] := by
  rintro rfl
  obtain ⟨tokens, htokens, hdenotes⟩ := Statement.exists_ofLine_iff_denotes.mp ⟨statement, h, rfl⟩
  have hlexemes := Expr.lexemes?_of_tokensOf htokens
  have hempty : lexemes? (String.ofList []).toList = some [] :=
    lexemes?_eq_some_iff.mpr (spelling_nil_iff.mpr blank_nil)
  rw [← Option.some.inj (hempty.symm.trans hlexemes)] at hdenotes
  exact Statement.Denotes.ne_nil hdenotes

/-- No blank line is a command. -/
lemma strip_ne_nil_of_requestOf? {pending : List Char} {r : Request}
    (h : requestOf? pending line.toList = some r) : strip line.toList ≠ [] := by
  intro hempty
  rw [requestOf?, hempty] at h
  split at h <;> cases h

/-- A command is carried out. -/
lemma step_of_requestOf?_eq_some {s : Shell} {r : Request}
    (h : requestOf? s.pending line.toList = some r) : s.step line = s.run r := by
  have hline := strip_ne_nil_of_requestOf? h
  simp only [step, requestOf?_strip, h, List.isEmpty_iff, if_neg hline]

/-- A line is taken as a part of a statement if it is neither blank nor a command. -/
lemma step_of_requestOf?_eq_none {s : Shell} (hrequest : requestOf? s.pending line.toList = none)
    (hline : strip line.toList ≠ []) : s.step line = s.takeLine (strip line.toList) := by
  simp only [step, requestOf?_strip, hrequest, List.isEmpty_iff, if_neg hline]

/-- A line is blank, or a command, or taken as a part of a statement. -/
lemma step_cases (s : Shell) (line : String) :
    (strip line.toList = [] ∧ s.step line = .goesOn s "") ∨
    (∃ r, requestOf? s.pending line.toList = some r ∧ s.step line = s.run r) ∨
    strip line.toList ≠ [] ∧ requestOf? s.pending line.toList = none ∧
      s.step line = s.takeLine (strip line.toList) := by
  by_cases hline : strip line.toList = []
  · have hblank : (strip line.toList).isEmpty = true := List.isEmpty_iff.mpr hline
    exact .inl ⟨hline, if_pos hblank⟩
  · cases hrequest : requestOf? s.pending line.toList with
    | some r => exact .inr (.inl ⟨r, rfl, step_of_requestOf?_eq_some hrequest⟩)
    | none => exact .inr (.inr ⟨hline, rfl, step_of_requestOf?_eq_none hrequest hline⟩)

/-- The statement that stands on one line is submitted, if the line is no command. -/
lemma step_of_ofLine {s : Shell} (hpending : s.pending = [])
    (hrequest : requestOf? [] line.toList = none)
    (h : Statement.ofLine limits (String.ofList (strip (Script.uncommented line.toList))) =
      .ok statement) :
    s.step line = s.ready.submit (String.ofList (strip (Script.uncommented line.toList))) := by
  have htext := ne_nil_of_ofLine h
  have hmark : ¬ Script.commentMark <:+: [] := by decide
  have hsolid := nonBlanks_content hmark line
  have hstrip : strip (Script.content ([] ++ ' ' :: strip line.toList)) =
      strip (Script.uncommented line.toList) := by
    have hfront : strip ([' '] ++ Script.uncommented (strip line.toList) ++ []) =
        strip (Script.uncommented (strip line.toList)) := strip_blanks blank_space blank_nil
    rw [List.append_nil, Script.strip_uncommented_strip] at hfront
    rw [Script.content_append hmark, strip_stripRight]
    exact hfront
  have hline : ¬ (strip line.toList).isEmpty = true := by
    intro hempty
    rw [← Script.strip_uncommented_strip, List.isEmpty_iff.mp hempty] at htext
    exact htext rfl
  have hpart := part?_eq hrequest
  rw [if_neg hline] at hpart
  have hcompleted : completed? s.pending line =
      some (String.ofList (strip (Script.uncommented line.toList))) := by
    rw [hpending]
    refine completed?_eq_some_iff.mpr ⟨_, hpart, ?_, ?_, by rw [hstrip]⟩
    · have hclosed := Statement.isOpen_of_ofLine h
      rw [← hclosed, String.toList_ofList]
      refine Script.isOpen_eq_of_nonBlanks ?_
      rw [← nonBlanks_strip, hstrip]
    · rw [hstrip, List.isEmpty_eq_false_iff]
      exact htext
  exact step_of_completed hcompleted

/-- **Commands swallow no statement.** As long as a statement is pending, no line is a command,
and every line that is not blank is taken as a part of the statement. If nothing is pending, and
what is left of a line without its comment and without the blanks around it is a statement that
can be read, and more than the mere word of a command, then the line is no command either. The
shell takes the line and submits the statement, so that it is evaluated.

**Proof sketch.** Let a line be recognized as a command. Then its word is the first lexeme of the
statement, which is a name (`eq_identifier_of_ofWord?`). If the statement goes on, it does so with
an operator or an opening parenthesis (`Statement.Denotes.behind_name`), and no argument starts
with one. Otherwise it is the mere word, whatever comment stands behind it (`Script.exists_tail`).
The statement is complete, since its parentheses are balanced (`Statement.isOpen_of_ofLine`). -/
theorem commands_swallow_no_statement (limits : Limits) (line : String) :
    let text := String.ofList (strip (Script.uncommented line.toList))
    (∀ s : Shell, s.pending ≠ [] → requestOf? s.pending line.toList = none ∧
      (strip line.toList ≠ [] → s.step line = s.takeLine (strip line.toList))) ∧
    ∀ statement, Statement.ofLine limits text = .ok statement → (∀ c : Command, text ≠ c.word) →
      requestOf? [] line.toList = none ∧
      ∀ s : Shell, s.pending = [] →
        s.step line = s.takeLine (strip line.toList) ∧ s.step line = s.ready.submit text := by
  intro text
  refine ⟨fun s hpending => ?_, fun statement h hbare => ?_⟩
  · have hrequest : requestOf? s.pending line.toList = none := by
      rw [requestOf?, List.isEmpty_eq_false_iff.mpr hpending]
      rfl
    exact ⟨hrequest, step_of_requestOf?_eq_none hrequest⟩
  · have hrequest : requestOf? [] line.toList = none := by
      obtain ⟨tail, hline, htail⟩ := Script.exists_tail line.toList
      show request? (strip line.toList) = none
      rw [hline]
      exact request?_of_ofLine h (strip_strip _) hbare htail
    refine ⟨hrequest, fun s hpending => ⟨?_, step_of_ofLine hpending hrequest h⟩⟩
    refine step_of_requestOf?_eq_none (hpending ▸ hrequest) fun hempty => ne_nil_of_ofLine h ?_
    rw [← Script.strip_uncommented_strip, hempty]
    rfl

/-- A line that calls a function with the name of a command, typed in where nothing is pending and
where a statement is. -/
theorem commands_swallow_no_statement_tree :
    let line := "  tree (2) ^ 3 ;; tree"
    let s := start .plain (World.new (.levels 300) .standard)
    let s' := s.after ["let x = (1"]
    (requestOf? s'.pending line.toList = none ∧ s'.step line = s'.takeLine (strip line.toList)) ∧
    requestOf? [] line.toList = none ∧ s.step line = s.ready.submit "tree (2) ^ 3" := by
  intro line s s'
  have htext : String.ofList (strip (Script.uncommented line.toList)) = "tree (2) ^ 3" := by
    decide +kernel
  have hread : (Statement.ofLine .standard "tree (2) ^ 3").toOption.isSome = true := by
    decide +kernel
  have hpending : s'.pending ≠ [] := by decide +kernel
  obtain ⟨hgoesOn, hstarts⟩ := commands_swallow_no_statement .standard line
  obtain ⟨hnone, hstep⟩ := hgoesOn s' hpending
  cases h : Statement.ofLine .standard "tree (2) ^ 3" with
  | error fault =>
    rw [h] at hread
    cases hread
  | ok statement =>
    rw [htext] at hstarts
    obtain ⟨hrequest, hsubmit⟩ := hstarts statement h (fun c => by cases c <;> decide)
    exact ⟨⟨hnone, hstep (by decide +kernel)⟩, hrequest, (hsubmit s rfl).2⟩

end Shell

end Abacus
