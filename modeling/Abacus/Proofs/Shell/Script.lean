import Abacus.Proofs.Script
import Abacus.Proofs.Shell
import Abacus.Proofs.Statement.Respaced

/-!
# Scripts at the shell

The lines of a file can be typed into a shell instead. A shell joins the lines of a statement in
its own way: it leaves blank lines out and cuts comments from what it has so far. This module
proves that it completes the same statements, blanks between the lines apart, and that they are
answered in the same way up to the first one that is refused.

## Main definitions

* `Abacus.Shell.Pending` — how what is pending in a shell corresponds to what is pending in a file.
* `Abacus.Shell.SameStatements` — statements whose texts differ in their blanks only.
* `Abacus.Shell.Mirrors` — statements that are answered as those of a script are.
* `Abacus.Shell.Matches` — a shell that has answered the statements that a script has.

## Main results

* `Abacus.Shell.sameStatements_completed` — the statements that lines complete are those of the
  file.
* `Abacus.Shell.exists_mirrors` — how such statements are answered.
* `Abacus.Shell.agrees_with_script` — a shell and a script agree.
-/

namespace Abacus.Shell

open Text
open Script (Entry commentMark content gather isOpen isSkipped join resume statements uncommented)

variable {s : Shell} {w : World} {p : List Char} {pending : Option Entry} {line statement : String}
  {lines before later sts : List String} {e : Entry} {es : List Entry}

/-! ## Texts that are pending -/

/-- `Pending p pending` states that what is pending in a shell corresponds to what is pending in a
file: nothing, or texts that differ in their blanks only. The one in the shell has no comment in
it. -/
inductive Pending : List Char → Option Entry → Prop where
  | none : Pending [] none
  | some {p : List Char} {e : Entry} (hopen : isOpen p = true) (hmark : ¬ commentMark <:+: p)
      (h : Respaced (strip p) (strip e.text)) : Pending p (some e)

/-- The text of what is pending in a file. -/
def pendingText (pending : Option Entry) : List Char := (pending.map Entry.text).getD []

/-- What is pending has no comment in it, and differs in its blanks only. -/
lemma Pending.respaced (h : Pending p pending) :
    ¬ commentMark <:+: p ∧ Respaced (strip p) (strip (pendingText pending)) := by
  cases h with
  | none => exact ⟨by decide, .nil⟩
  | some _ hmark h => exact ⟨hmark, h⟩

/-! ## One line -/

/-- What a shell and a file make of a line differs in its blanks only. -/
lemma Pending.join (h : Pending p pending) (line : String) :
    Respaced (strip (content (p ++ ' ' :: strip line.toList)))
      (strip (join (pendingText pending) line.toList)) := by
  obtain ⟨hmark, htext⟩ := h.respaced
  rw [Script.content_append hmark, strip_stripRight, Script.join_eq]
  refine htext.strip_join ?_
  rw [Script.strip_uncommented_strip, strip_strip]
  exact .refl _

/-- What a shell makes of a line has the characters of both. -/
lemma nonBlanks_content (hmark : ¬ commentMark <:+: p) (line : String) :
    nonBlanks (content (p ++ ' ' :: strip line.toList)) =
      nonBlanks p ++ nonBlanks (uncommented line.toList) := by
  rw [Script.content_append hmark, ← nonBlanks_strip, strip_stripRight, nonBlanks_strip,
    nonBlanks_append, nonBlanks_space, ← nonBlanks_strip (uncommented _),
    Script.strip_uncommented_strip, nonBlanks_strip]

/-- The blanks around a line make no difference to whether it is a command. -/
@[simp]
lemma requestOf?_strip (p cs : List Char) : requestOf? p (strip cs) = requestOf? p cs := by
  rw [requestOf?, requestOf?, strip_strip]

/-- A line that is neither blank nor a command is a part of a statement. -/
lemma part?_eq (hrequest : requestOf? p line.toList = none) :
    part? p line = if (strip line.toList).isEmpty then none
      else some (content (p ++ ' ' :: strip line.toList)) := by
  rw [part?, requestOf?_strip, hrequest]
  simp

/-- Nothing but a blank line has been put behind what is pending. -/
lemma strip_content_nil (hmark : ¬ commentMark <:+: p) :
    strip (content (p ++ ' ' :: [])) = strip p := by
  have h : strip ([] ++ p ++ [' ']) = strip p := strip_blanks blank_nil blank_space
  rw [Script.content_append hmark, strip_stripRight, uncommented, before_nil]
  exact h

/-! ## Lines -/

/-- Nothing is recognized as a command among lines, whatever is pending when they are typed in. -/
def NoCommands (p : List Char) (lines : List String) : Prop :=
  ∀ i (h : i < lines.length), requestOf? (pendingAfterAll p (lines.take i)) lines[i].toList = none

/-- The first line is no command, and nothing behind it. -/
lemma NoCommands.of_cons (h : NoCommands p (line :: lines)) :
    requestOf? p line.toList = none ∧ NoCommands (pendingAfter p line) lines :=
  ⟨h 0 (Nat.zero_lt_succ _), fun i hi => h (i + 1) (Nat.succ_lt_succ hi)⟩

/-- Statements at the shell and statements of a file whose texts differ in their blanks only. -/
def SameStatements (sts : List String) (es : List Entry) : Prop :=
  List.Forall₂ (fun st e => Respaced st.toList e.text) sts es

/-- A line that is a part of a statement leaves it pending or completes it, in the shell and in
the file. -/
lemma sameStatements_resume {text : List Char} {n : Int} (hpart : part? p line = some text)
    (htext : nonBlanks text ≠ []) (hmark : ¬ commentMark <:+: text)
    (h : Respaced (strip text) (strip e.text))
    (hlines : ∀ {pending}, Pending (pendingAfter p line) pending →
      SameStatements (completed (pendingAfter p line) lines)
        ((gather pending n (lines.map String.toList)).map Entry.tidy)) :
    SameStatements (completed p (line :: lines))
      ((resume e n (lines.map String.toList)).map Entry.tidy) := by
  have hopen : isOpen text = isOpen e.text := by
    apply Script.isOpen_eq_of_nonBlanks
    rw [← nonBlanks_strip text, h.nonBlanks_eq, nonBlanks_strip]
  rw [completed, completed?, hpart, resume, ← hopen]
  rw [pendingAfter, hpart] at hlines ⊢
  by_cases hcase : isOpen text = true
  · simp only [hcase, if_true, Bool.true_or, Option.toList_none, List.nil_append] at hlines ⊢
    exact hlines (.some hcase hmark h)
  · have hblank : ¬ (strip text).isEmpty = true := by
      rw [List.isEmpty_iff, strip_eq_nil_iff, ← nonBlanks_eq_nil_iff]
      exact htext
    simp only [hcase, hblank, Bool.false_or] at hlines ⊢
    refine .cons ?_ (hlines .none)
    rw [String.toList_ofList]
    exact h

/-- Where nothing is pending, a line that is skipped in a file completes nothing and leaves nothing
pending. -/
lemma passes_of_isSkipped (hrequest : requestOf? [] line.toList = none)
    (hskip : isSkipped line.toList = true) :
    completed? [] line = none ∧ pendingAfter [] line = [] := by
  have htext : nonBlanks (content ([] ++ ' ' :: strip line.toList)) = [] := by
    rw [nonBlanks_content (by decide), Script.isSkipped_eq_true_iff.mp hskip]
    rfl
  have hpart := part?_eq hrequest
  generalize content ([] ++ ' ' :: strip line.toList) = text at hpart htext
  have hclosed : isOpen text = false := Script.isOpen_eq_of_nonBlanks (b := []) htext
  have hblank : strip text = [] := strip_eq_nil_iff.mpr (nonBlanks_eq_nil_iff.mp htext)
  rw [completed?, pendingAfter, hpart]
  by_cases hline : (strip line.toList).isEmpty = true
  · rw [if_pos hline]
    exact ⟨rfl, rfl⟩
  · rw [if_neg hline]
    simp [hclosed, hblank]

/-- **The statements that lines complete are those of the file**, but for their blanks.

**Proof sketch.** Induction on the lines, as long as what is pending corresponds. A line that is
no part of a statement in the shell adds nothing but a space in the file. Every other line is put
behind what is pending in both, and what comes of it is open in both or in neither, since blanks
do not matter for that. -/
theorem sameStatements_completed (hpending : Pending p pending) (hcommands : NoCommands p lines)
    (hend : pendingAfterAll p lines = []) (n : Int) :
    SameStatements (completed p lines)
      ((gather pending n (lines.map String.toList)).map Entry.tidy) := by
  induction lines generalizing p pending n with
  | nil =>
    cases hpending with
    | none => exact .nil
    | some hopen _ _ =>
      rw [show p = [] from hend] at hopen
      cases hopen
  | cons line lines ih =>
    obtain ⟨hrequest, hcommands⟩ := hcommands.of_cons
    have hlines : ∀ {pending}, Pending (pendingAfter p line) pending →
        SameStatements (completed (pendingAfter p line) lines)
          ((gather pending (n + 1) (lines.map String.toList)).map Entry.tidy) :=
      fun h => ih h hcommands hend (n + 1)
    have hpart := part?_eq hrequest
    have hmark := hpending.respaced.1
    have hjoin := hpending.join line
    have hnext := nonBlanks_content hmark line
    have hclean := Script.not_infix_content (p ++ ' ' :: strip line.toList)
    cases hpending with
    | none =>
      by_cases hskip : isSkipped line.toList = true
      · obtain ⟨hcompleted, hpass⟩ := passes_of_isSkipped hrequest hskip
        rw [List.map_cons, gather, if_pos hskip, completed, hcompleted]
        rw [hpass] at hlines ⊢
        exact hlines .none
      · have hsolid := mt Script.isSkipped_eq_true_iff.mpr hskip
        have hblank : ¬ (strip line.toList).isEmpty = true := fun hblank => hskip (by
          rw [isSkipped, hblank]
          rfl)
        rw [if_neg hblank] at hpart
        rw [List.map_cons, Script.gather_none_cons hskip]
        refine sameStatements_resume hpart ?_ hclean hjoin hlines
        rw [hnext]
        exact hsolid
    | @some p e hopen _ h =>
      rw [List.map_cons, Script.gather_some_cons]
      by_cases hblank : (strip line.toList).isEmpty = true
      · -- The shell ignores the line, and the file joins nothing but a space.
        rw [if_pos hblank] at hpart
        rw [List.isEmpty_iff.mp hblank, strip_content_nil hmark] at hjoin
        have hpass : pendingAfter p line = p := by
          rw [pendingAfter, hpart]
        have hstill : isOpen (join e.text line.toList) = true := by
          rw [← hopen]
          apply Script.isOpen_eq_of_nonBlanks
          rw [← nonBlanks_strip, ← nonBlanks_strip p]
          exact hjoin.nonBlanks_eq.symm
        rw [resume, if_pos hstill, completed, completed?, hpart]
        rw [hpass] at hlines ⊢
        exact hlines (.some hopen hmark hjoin)
      · rw [if_neg hblank] at hpart
        refine sameStatements_resume hpart ?_ hclean hjoin hlines
        rw [hnext]
        exact fun hnil => Script.nonBlanks_ne_nil_of_isOpen hopen (List.append_eq_nil_iff.mp hnil).1

/-! ## Statements that are answered -/

/-- A statement at the shell and one of a script that were answered: their texts differ in their
blanks only, they have the same lexemes, and the answers are shown in the same way. -/
structure SameAnswer (shown : String × String) (answered : Script.Answered) : Prop where
  text : Respaced shown.1.toList answered.entry.text
  lexemes : ∃ ls, lexemes? shown.1.toList = some ls ∧ lexemes? answered.entry.text = some ls
  display : shown.2 = answered.answer.display

/-- A line that is answered has lexemes. -/
lemma exists_lexemes_of_enter {outcome : Outcome} (h : w.enter line = .ok outcome) :
    ∃ ls, lexemes? line.toList = some ls := by
  rw [World.enter, Result.map_eq_ok_iff] at h
  obtain ⟨reply, hreply, -⟩ := h
  rcases turn_ofLine w line with ⟨fault, hrun⟩ | ⟨statement, hstatement, -⟩
  · rw [hrun] at hreply
    cases hreply
  · obtain ⟨tokens, htokens, -⟩ :=
      Statement.exists_ofLine_iff_denotes.mp ⟨statement, hstatement, rfl⟩
    exact ⟨_, Expr.lexemes?_of_tokensOf htokens⟩

/-- What one statement leads to at the shell and in a script. Either it is answered in both, or it
is refused for faults of the same kind. -/
lemma enter_respaced (h : Respaced statement.toList e.text) (w : World) :
    (∃ outcome, w.enter statement = .ok outcome ∧
      (Run.ofLine (String.ofList e.text)).on w = (.ok outcome.toReply, w.after statement) ∧
      SameAnswer (statement, outcome.answer.display) ⟨e, outcome.answer, outcome.warning⟩) ∨
    ∃ fault fault', (Run.ofLine (String.ofList e.text)).on w = (.error fault, w) ∧
      w.enter statement = .error fault' ∧ fault'.kind = fault.kind := by
  have htext : Respaced (strip statement.toList) (strip (String.ofList e.text).toList) := by
    rw [String.toList_ofList]
    exact h.strip
  obtain ⟨hkind, hworld⟩ := Run.ofLine_sameKind htext w
  generalize (Run.ofLine (String.ofList e.text)).on w = after at hkind hworld ⊢
  obtain ⟨result, w'⟩ := after
  obtain rfl : w.after statement = w' := hworld
  cases henter : w.enter statement with
  | ok outcome =>
    obtain ⟨ls, hls⟩ := exists_lexemes_of_enter henter
    rw [World.enter, Result.map_eq_ok_iff] at henter
    obtain ⟨reply, hreply, rfl⟩ := henter
    rw [hreply] at hkind
    cases hkind with
    | ok reply => exact .inl ⟨_, rfl, rfl, h, ⟨ls, hls, h.lexemes?_eq ▸ hls⟩, rfl⟩
  | error fault' =>
    have hafter := World.after_of_enter_eq_error henter
    rw [World.enter, Result.map_eq_error_iff] at henter
    rw [henter] at hkind
    cases hkind with
    | @error _ fault hkind => exact .inr ⟨fault, fault', by rw [hafter], rfl, hkind⟩

/-- `Mirrors w front back es r` states that the statements `front` are answered in the world `w`
as the script with the statements `es` and the result `r` says. Of the statements `back` there are
none, or the first one is refused as the one of the script is. -/
structure Mirrors (w : World) (front back : List String) (es : List Entry) (r : Script.Result) :
    Prop where
  answered : (w.transcript front).map Prod.fst = front
  answers : List.Forall₂ SameAnswer (w.transcript front) r.answered
  world : w.enterAll front = r.world
  complete : r.refused = none → back = [] ∧ r.answered.map (·.entry) = es
  refused : ∀ e fault, r.refused = some (e, fault) →
    (∃ others, es = r.answered.map (·.entry) ++ e :: others) ∧
      ∃ statement others fault', back = statement :: others ∧ Respaced statement.toList e.text ∧
        (w.enterAll front).enter statement = .error fault' ∧ fault'.kind = fault.kind

/-- A statement that is answered in front of others. -/
lemma Mirrors.cons {front back : List String} {r : Script.Result} {outcome : Outcome}
    {a : Script.Answered}
    (h : Mirrors (w.after statement) front back es r) (henter : w.enter statement = .ok outcome)
    (hanswer : SameAnswer (statement, outcome.answer.display) a) :
    Mirrors w (statement :: front) back (a.entry :: es) { r with answered := a :: r.answered } := by
  have htranscript : w.transcript (statement :: front) =
      (statement, outcome.answer.display) :: (w.after statement).transcript front := by
    rw [World.transcript, World.answered?, henter]
    rfl
  constructor
  · rw [htranscript, List.map_cons, h.answered]
  · rw [htranscript]
    exact .cons hanswer h.answers
  · exact h.world
  · intro hrefused
    obtain ⟨hback, hentries⟩ := h.complete hrefused
    exact ⟨hback, congrArg (a.entry :: ·) hentries⟩
  · intro e fault hrefused
    obtain ⟨⟨others, hentries⟩, hrest⟩ := h.refused e fault hrefused
    exact ⟨⟨others, congrArg (a.entry :: ·) hentries⟩, hrest⟩

/-- A statement that is refused. -/
lemma mirrors_of_refused {fault fault' : Fault} (h : Respaced statement.toList e.text)
    (henter : w.enter statement = .error fault') (hkind : fault'.kind = fault.kind) :
    Mirrors w [] (statement :: sts) (e :: es) ⟨[], some (e, fault), w⟩ where
  answered := rfl
  answers := .nil
  world := rfl
  complete := fun hrefused => by cases hrefused
  refused := by
    intro e' fault'' hrefused
    cases hrefused
    exact ⟨⟨es, rfl⟩, statement, sts, fault', rfl, h, henter, hkind⟩

/-- Statements lead to the same at the shell and in a script, up to the first one that is refused.

**Proof sketch.** Induction along the statements, as long as they are answered
(`enter_respaced`). -/
theorem exists_mirrors (h : SameStatements sts es) (w : World) :
    ∃ front back, sts = front ++ back ∧ Mirrors w front back es (Script.run w es) := by
  induction h generalizing w with
  | nil =>
    refine ⟨[], [], rfl, rfl, .nil, rfl, fun _ => ⟨rfl, rfl⟩, fun e fault hrefused => ?_⟩
    cases hrefused
  | @cons statement e sts es hfirst _ ih =>
    rcases enter_respaced hfirst w with
      ⟨outcome, henter, hrun, hanswer⟩ | ⟨fault, fault', hrun, henter, hkind⟩
    · obtain ⟨front, back, rfl, hmirrors⟩ := ih (w.after statement)
      rw [Script.run, hrun]
      exact ⟨statement :: front, back, rfl, hmirrors.cons henter hanswer⟩
    · rw [Script.run, hrun]
      exact ⟨[], statement :: sts, rfl, mirrors_of_refused hfirst henter hkind⟩

/-! ## Whole files -/

/-- A statement that lines complete is completed by one of them. -/
lemma exists_of_completed {front back : List String}
    (h : completed p lines = front ++ statement :: back) :
    ∃ before line later, lines = before ++ line :: later ∧ completed p before = front ∧
      completed? (pendingAfterAll p before) line = some statement := by
  induction lines generalizing p front with
  | nil => simp [completed] at h
  | cons first lines ih =>
    rw [completed] at h
    cases hfirst : completed? p first with
    | none =>
      rw [hfirst] at h
      obtain ⟨before, line, later, rfl, hbefore, hline⟩ := ih h
      refine ⟨first :: before, line, later, rfl, ?_, hline⟩
      rw [completed, hfirst, hbefore]
      rfl
    | some statement' =>
      rw [hfirst] at h
      cases front with
      | nil =>
        obtain ⟨rfl, -⟩ := List.cons.inj h
        exact ⟨[], first, lines, rfl, rfl, hfirst⟩
      | cons statement'' front =>
        obtain ⟨rfl, hrest⟩ := List.cons.inj h
        obtain ⟨before, line, later, rfl, hbefore, hline⟩ := ih hrest
        refine ⟨first :: before, line, later, rfl, ?_, hline⟩
        rw [completed, hfirst, hbefore]
        rfl

/-- The statements that lines complete are those of a file in which each of the lines ends with a
line feed. -/
lemma sameStatements_of_lines (hlines : ∀ line ∈ lines, '\n' ∉ line.toList ∧ '\r' ∉ line.toList)
    (hcommands : NoCommands [] lines) (hend : pendingAfterAll [] lines = []) :
    SameStatements (completed [] lines)
      (statements (lines.flatMap fun line => line.toList ++ ['\n'])) := by
  have hfile : Text.lines (lines.flatMap fun line => line.toList ++ ['\n']) =
      lines.map String.toList := by
    have hall : ∀ line ∈ lines.map String.toList, '\n' ∉ line ∧ '\r' ∉ line := by
      simpa using hlines
    have h := lines_flatMap hall
    rwa [List.flatMap_map] at h
  rw [Script.statements_eq, hfile]
  exact sameStatements_completed .none hcommands hend 1

/-- A shell that has answered the statements that a script has, and is in the same world. -/
structure Matches (s : Shell) (r : Script.Result) : Prop where
  answers : List.Forall₂ SameAnswer s.history r.answered
  world : s.world = r.world

/-- The shell as it submits the statement that a line completes. -/
def ready (s : Shell) : Shell :=
  { s with pending := [], prompt := .primary, lineNumber := s.lineNumber + 1 }

/-- **A shell and a script agree on the same lines.** Let the lines be typed into a shell, and let
them be the lines of a file that is run as a script in the same world. None of them may be
recognized as a command, and nothing may be pending after the last. If every statement is
answered, then the shell completes as many statements as the file has. Its history lists all of
them, their texts differ from those of the file in their blanks only, so they have the same
lexemes, the answers are shown in the same way, and the worlds at the end are the same. If a
statement is refused, then all this holds of the lines up to one that completes a statement. This
statement differs from the refused one in its blanks only, and it is refused for a fault of the
same kind.

**Proof sketch.** The shell completes the statements of the file, but for their blanks
(`sameStatements_completed`). Such statements are the same statement, or are refused for faults of
the same kind (`Statement.readForm_sameKind`). So they lead from one world to the next in the same
way, as long as they are answered (`exists_mirrors`), and the world and the history of the shell
are those of the statements that it completes (`runsTo_after`). -/
theorem agrees_with_script (style : Style) (w : World) (lines : List String)
    (hlines : ∀ line ∈ lines, '\n' ∉ line.toList ∧ '\r' ∉ line.toList)
    (hcommands : ∀ i (h : i < lines.length),
      requestOf? ((start style w).after (lines.take i)).pending lines[i].toList = none)
    (hpending : ((start style w).after lines).pending = []) :
    let entries := statements (lines.flatMap fun line => line.toList ++ ['\n'])
    let r := Script.run w entries
    (r.refused = none →
      let s := (start style w).after lines
      s.Matches r ∧ s.history.map Prod.fst = completed [] lines ∧
        r.answered.map (·.entry) = entries) ∧
    (∀ e fault, r.refused = some (e, fault) →
      ∃ before line later, lines = before ++ line :: later ∧
        let s := (start style w).after before
        s.Matches r ∧ s.history.map Prod.fst = completed [] before ∧
        (∃ others, entries = r.answered.map (·.entry) ++ e :: others) ∧
        ∃ statement fault', s.step line = s.ready.submit statement ∧
          Respaced statement.toList e.text ∧ lexemes? statement.toList = lexemes? e.text ∧
          s.world.enter statement = .error fault' ∧ fault'.kind = fault.kind) := by
  intro entries r
  have hafter : ∀ lines, (start style w).RunsTo lines ((start style w).after lines) :=
    (start style w).runsTo_after
  -- the hypotheses are about sessions, the lemmas below about the text that is pending in them
  have hnone : NoCommands [] lines := fun i hi => (hafter (lines.take i)).pending ▸ hcommands i hi
  have hend : pendingAfterAll [] lines = [] := (hafter lines).pending.symm.trans hpending
  have hsame := sameStatements_of_lines hlines hnone hend
  obtain ⟨front, back, hcompleted, hmirrors⟩ := exists_mirrors hsame w
  have hworld : w.enterAll front = r.world := hmirrors.world
  -- `front` are the statements that are answered, in the shell as in the file
  have hmatches : ∀ lines, completed [] lines = front →
      ((start style w).after lines).Matches r ∧
        ((start style w).after lines).history.map Prod.fst = completed [] lines := by
    intro lines hfront
    have hhistory : ((start style w).after lines).history = w.transcript front := by
      rw [← hfront]
      exact (hafter lines).history
    refine ⟨⟨?_, ?_⟩, ?_⟩
    · rw [hhistory]
      exact hmirrors.answers
    · rw [← hworld, ← hfront]
      exact (hafter lines).world
    · rw [hhistory, hmirrors.answered, hfront]
  refine ⟨fun h => ?_, fun e fault h => ?_⟩
  · obtain ⟨rfl, hentries⟩ := hmirrors.complete h
    rw [List.append_nil] at hcompleted
    obtain ⟨hmatch, hhistory⟩ := hmatches lines hcompleted
    exact ⟨hmatch, hhistory, hentries⟩
  · obtain ⟨hentries, statement, others, fault', rfl, hrespaced, henter, hkind⟩ :=
      hmirrors.refused e fault h
    obtain ⟨before, line, later, rfl, hbefore, hline⟩ := exists_of_completed hcompleted
    obtain ⟨hmatch, hhistory⟩ := hmatches before hbefore
    have hstep : completed? ((start style w).after before).pending line = some statement := by
      rw [(hafter before).pending]
      exact hline
    refine ⟨before, line, later, rfl, hmatch, hhistory, hentries, statement, fault',
      step_of_completed hstep, hrespaced, hrespaced.lexemes?_eq, ?_, hkind⟩
    rw [hmatch.world, ← hworld]
    exact henter

/-- A function value that is bound over several lines, with a comment and a blank line in between,
is shown by the statement after it, and then a function is called that is not there. -/
theorem agrees_with_script_refused :
    let lines := ["let f = fn(a) => (1 + ;; one", "", "  ;; nothing", " a )", "f", "g(1)", "f"]
    let w := World.new (.levels 300) .standard
    ∃ before line later, lines = before ++ line :: later ∧
      let s := (start .plain w).after before
      s.history.map Prod.fst = completed [] before ∧
      ∃ statement fault, s.step line = s.ready.submit statement ∧
        s.world.enter statement = .error fault ∧ fault.kind = .undefinedFunction := by
  intro lines w
  have hcommands : ∀ i (h : i < lines.length),
      requestOf? (pendingAfterAll [] (lines.take i)) lines[i].toList = none := by
    decide +kernel
  have hend : pendingAfterAll [] lines = [] := by
    decide +kernel
  have hkind :
      ((Script.run w (statements (lines.flatMap fun line => line.toList ++ ['\n']))).refused.map
      fun refused => refused.2.kind) = some .undefinedFunction := by
    decide +kernel
  obtain ⟨⟨e, fault⟩, hrefused, hfault⟩ := Option.map_eq_some_iff.mp hkind
  obtain ⟨-, hagree⟩ := agrees_with_script .plain w lines (by decide +kernel)
    (fun i hi => ((start .plain w).runsTo_after (lines.take i)).pending ▸ hcommands i hi)
    (((start .plain w).runsTo_after lines).pending.trans hend)
  obtain ⟨before, line, later, hlines, -, hhistory, -, statement, fault', hstep, -, -,
    henter, hsame⟩ :=
    hagree e fault hrefused
  exact ⟨before, line, later, hlines, hhistory, statement, fault', hstep, henter,
    hsame.trans hfault⟩

end Abacus.Shell
