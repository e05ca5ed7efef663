import Abacus.Program
import Abacus.Proofs.Script
import Abacus.Proofs.Session.Shadowing

/-!
# Runs of files

The program answers the statements of a file in order, up to the first one that is refused, and
shows an answer for each of them with at most a warning in front of it. Then it shows the fault,
if there was one, and fails. Only a file that has the name of the shell's input does not make it
fail.

## Main definitions

* `Abacus.Script.Performs` — what the statements of a file lead to, one after another.
* `Abacus.Program.answerText`, `Abacus.Program.refusalText` — what is shown of a statement of a
  file.

## Main results

* `Abacus.Script.performs_iff` — a script performs its statements.
* `Abacus.Program.run_file` — what a run of a file shows, and with which status it ends.
-/

namespace Abacus

/-! ## Warnings -/

/-- The only warnings are those of a function value that cannot be called by its name. -/
lemma World.warning_of_enter {w : World} {line : String} {outcome : Outcome} {r : Report}
    (h : w.enter line = .ok outcome) (hr : outcome.warning = some r) :
    ∃ name, r = closureShadowed name ∨ r = functionShadows name := by
  obtain ⟨-, statement, -, hturn⟩ := exists_turn_of_enter h
  cases hname : statement.form.declared? with
  | none =>
    rw [hturn.warning_eq_none hname] at hr
    cases hr
  | some name => exact ⟨name, hturn.warning_eq hname hr⟩

namespace Script

/-! ## The statements of a file -/

/-- `Performs w es answered refused` states what statements lead to in a world, one after another:
those that are answered, and the first one that is refused, if there is one. -/
inductive Performs : World → List Entry → List Answered → Option (Entry × Fault) → Prop where
  | done {w : World} : Performs w [] [] none
  | refused {w : World} {e : Entry} {es : List Entry} {fault : Fault}
      (h : w.enter (String.ofList e.text) = .error fault) :
      Performs w (e :: es) [] (some (e, fault))
  | answered {w : World} {e : Entry} {es : List Entry} {outcome : Outcome}
      {answered : List Answered}
      {refused : Option (Entry × Fault)} (h : w.enter (String.ofList e.text) = .ok outcome)
      (hrest : Performs outcome.world es answered refused) :
      Performs w (e :: es) (⟨e, outcome.answer, outcome.warning⟩ :: answered) refused

variable {w : World} {es : List Entry} {answered : List Answered} {refused : Option (Entry × Fault)}

/-- A run of statements, by what the first of them leads to. -/
lemma run_cons (w : World) (e : Entry) (es : List Entry) : run w (e :: es) =
    match w.enter (String.ofList e.text) with
    | .error fault => ⟨[], some (e, fault), w⟩
    | .ok outcome =>
      let rest := run outcome.world es
      { rest with answered := ⟨e, outcome.answer, outcome.warning⟩ :: rest.answered } := by
  have hkeep : ∀ fault, w.enter (String.ofList e.text) = .error fault →
      w.after (String.ofList e.text) = w := fun _ => World.after_of_enter_eq_error
  rw [run]
  simp only [World.enter, World.after] at hkeep ⊢
  generalize (Run.ofLine (String.ofList e.text)).on w = after at hkeep ⊢
  obtain ⟨fault | reply, w'⟩ := after
  · obtain rfl : w' = w := hkeep fault rfl
    rfl
  · rfl

/-- What a script leads to is what its statements do.

**Proof sketch.** Induction along the statements, by what the first of them leads to
(`run_cons`). -/
theorem performs_iff : Performs w es answered refused ↔
    (run w es).answered = answered ∧ (run w es).refused = refused := by
  constructor
  · intro h
    induction h with
    | done => exact ⟨rfl, rfl⟩
    | refused h =>
      rw [run_cons, h]
      exact ⟨rfl, rfl⟩
    | answered h _ ih =>
      obtain ⟨rfl, rfl⟩ := ih
      rw [run_cons, h]
      exact ⟨rfl, rfl⟩
  · rintro ⟨rfl, rfl⟩
    induction es generalizing w with
    | nil => exact .done
    | cons e es ih =>
      rw [run_cons]
      cases h : w.enter (String.ofList e.text) with
      | error fault => exact .refused h
      | ok outcome => exact .answered h ih

/-- The statements are those that are answered, the one that is refused, and those behind it. -/
lemma Performs.exists_others (h : Performs w es answered refused) :
    ∃ others, es = answered.map (·.entry) ++ (refused.map (·.1)).toList ++ others := by
  induction h with
  | done => exact ⟨[], rfl⟩
  | @refused w e es fault h => exact ⟨es, rfl⟩
  | answered _ _ ih =>
    obtain ⟨others, rfl⟩ := ih
    exact ⟨others, rfl⟩

/-- All warnings are those of a function value that cannot be called by its name. -/
lemma Performs.warning (h : Performs w es answered refused) :
    ∀ a ∈ answered, ∀ r, a.warning = some r →
      ∃ name, r = closureShadowed name ∨ r = functionShadows name := by
  induction h with
  | done => exact fun a ha => absurd ha List.not_mem_nil
  | refused => exact fun a ha => absurd ha List.not_mem_nil
  | answered h _ ih => exact List.forall_mem_cons.mpr ⟨fun r => World.warning_of_enter h, ih⟩

end Script

namespace Program

open Script (Answered Entry Performs)

/-! ## What is shown -/

/-- What is shown of a statement of a file that is answered: a warning with the place of the
statement, if it gives one, and the answer. -/
def answerText (style : Style) (path : String) (a : Answered) : String :=
  (a.warning.map fun r =>
    style.emphasize .bold (path ++ ":" ++ toString a.entry.line ++ ": ") ++
      (Console.new style true).warningText r).getD "" ++
    a.answer.display ++ "\n"

/-- What is shown of a statement of a file that is refused: its place and its text, and the
error. -/
def refusalText (style : Style) (path : String) : Entry × Fault → String
  | (e, fault) =>
    "Traceback:\n" ++ Console.placeText (path, ⟨String.ofList e.text, e.line⟩) ++
      (Console.new style true).errorText fault.report

variable {style : Style} {path text : String}

/-- A new console reads no file. -/
lemma activePlaces_new (style : Style) (isFatal : Bool) :
    (Console.new style isFatal).activePlaces = [] := rfl

/-- A console that reads one file, at a statement of it. -/
lemma activePlaces_enterLine (style : Style) (isFatal : Bool) (path : String) (htext : text ≠ "")
    (n : Int) : (((Console.new style isFatal).openFile path).enterLine path text n).activePlaces =
      [(path, ⟨text, n⟩)] := by
  have hplaces :
      (((Console.new style isFatal).openFile path).enterLine path text n).places.entries =
      [(path, some ⟨text, n⟩)] := by
    simp [Console.enterLine, Console.openFile, Console.new, Table.set, Table.setEntry, Table.empty]
  rw [Console.activePlaces, hplaces]
  simp [htext]

/-- An answer is shown with the place of its statement in front of its warning. -/
lemma answeredText_eq (style : Style) (isFatal : Bool) (path : String) {a : Answered}
    (ha : a.entry.text ≠ []) :
    answeredText ((Console.new style isFatal).openFile path) path a = answerText style path a := by
  have hplaces := activePlaces_enterLine style isFatal path (n := a.entry.line)
    fun h => ha (String.ofList_eq_empty_iff.mp h)
  rw [answeredText, answerText]
  cases a.warning with
  | none => rfl
  | some r =>
    simp only [Option.map_some, Option.getD_some, Console.warningText, hplaces,
      activePlaces_new, String.empty_append, String.append_assoc]
    rfl

/-- An error is shown behind the place of its statement. -/
lemma errorText_eq (style : Style) (isFatal : Bool) (path : String) {e : Entry} (he : e.text ≠ [])
    (fault : Fault) :
    (((Console.new style isFatal).openFile path).enterLine path (String.ofList e.text)
      e.line).errorText
      fault.report = refusalText style path (e, fault) := by
  have hplaces := activePlaces_enterLine style isFatal path (n := e.line)
    fun h => he (String.ofList_eq_empty_iff.mp h)
  simp only [refusalText, Console.errorText, Console.tracebackText, hplaces, activePlaces_new,
    List.isEmpty_cons, List.isEmpty_nil, Bool.false_eq_true, if_false, if_true, List.map_singleton,
    String.join_cons, String.join_nil, String.append_empty, String.empty_append,
    String.append_assoc]
  rfl

/-! ## Runs -/

/-- The status with which a file ends for a fault: failure, but not for a file that has the name
of the shell's input, as long as the fault is one of the file. -/
def failureStatus (path : String) (fault : Fault) : Nat :=
  if path = Shell.inputPath ∧ fault.report.isInternal = false then 0 else 1

/-- The status does not depend on the lines that were looked at. -/
lemma failure_eq (style : Style) (path : String) (fault : Fault) (places : Table (Option Place)) :
    failure ⟨style, path != Shell.inputPath, places⟩ fault = failureStatus path fault := by
  rw [failure, failureStatus]
  by_cases hpath : path = Shell.inputPath <;> cases fault.report.isInternal <;> simp [hpath]

/-- A file that cannot be read. -/
lemma runFile_of_none (style : Style) (world : World) (path : String) {content : Option String}
    (h : isPath path = false ∨ content = none) :
    runFile style world path content =
      ⟨(Console.new style true).errorText (openFault path).report,
        failureStatus path (openFault path)⟩ := by
  have hnone : (content.filter fun _ => isPath path) = none := by
    rcases h with h | rfl
    · simp [h]
    · rfl
  have hplaces :
      ((Console.new style (path != Shell.inputPath)).openFile path).activePlaces = [] := by
    simp [Console.activePlaces, Console.openFile, Console.new, Table.set, Table.setEntry,
      Table.empty]
  simp only [runFile, hnone, Console.errorText, Console.tracebackText, hplaces, activePlaces_new]
  exact congrArg _ (failure_eq style path (openFault path) _)

/-- The run of a file that can be read shows what its statements lead to. -/
lemma runFile_of_performs {world : World} {answered : List Answered}
    {refused : Option (Entry × Fault)} (hpath : isPath path = true)
    (h : Performs world (Script.statements text.toList) answered refused) :
    runFile style world path (some text) =
      ⟨String.join (answered.map (answerText style path)) ++
        (refused.map (refusalText style path)).getD "",
        (refused.map fun r => failureStatus path r.2).getD 0⟩ := by
  obtain ⟨others, hentries⟩ := h.exists_others
  obtain ⟨hanswered, hrefused⟩ := Script.performs_iff.mp h
  have hne : ∀ e ∈ Script.statements text.toList, e.text ≠ [] := fun e =>
    (Script.grouped_statements text.toList).text_ne_nil
  have hshown : ∀ isFatal,
      answered.map (answeredText ((Console.new style isFatal).openFile path) path) =
      answered.map (answerText style path) := by
    refine fun isFatal => List.map_congr_left fun a ha => answeredText_eq style _ path
      (hne a.entry ?_)
    rw [hentries, List.append_assoc]
    exact List.mem_append_left _ (List.mem_map_of_mem ha)
  simp only [runFile, Option.filter_some, hpath, if_true, hanswered, hrefused, hshown]
  cases refused with
  | none => simp
  | some r =>
    obtain ⟨e, fault⟩ := r
    have he : e ∈ Script.statements text.toList := by simp [hentries]
    simp only [errorText_eq style _ path (hne e he)]
    exact congrArg _ (failure_eq style path fault _)

/-- **Runs of files.** Let the arguments of the program ask for a file to be run, with any limit
to the depth of evaluations. If the file cannot be read, then the program shows that and nothing
else. If it can, then the program shows the answers of its statements in order, up to the first
one that is refused, and then the error of that one, with its place. In front of an answer there
is at most a warning that a function value cannot be called by its name. The program ends without
failure if no statement was refused. If one was, or if the file could not be read, then it fails,
unless the file has the name of the shell's input: then it fails only for a fault of the program
itself.

Files are given by their texts. That the bytes of a file can be decoded is assumed here:
`files path` is the decoded content, and it is missing exactly if the file cannot be opened. Bytes
that are no text in UTF-8 have an outcome of their own outside of a run (`Abacus.decode`).

**Proof sketch.** What a script leads to is what its statements do (`Script.performs_iff`). No
statement is empty, so the console always has a place to show (`activePlaces_enterLine`). -/
theorem run_file (style : Style) (limits : Limits) (files : String → Option String) (input : String)
    {arguments : List String} {path : String} {maxDepth : DepthLimit}
    (hread : CommandLine.read arguments = .run ⟨some path, maxDepth⟩) :
    let ending := run style limits files arguments input
    (isPath path = false ∨ files path = none →
      ending.output = (Console.new style true).errorText (openFault path).report ∧
      ending.status = failureStatus path (openFault path)) ∧
    ∀ text, isPath path = true → files path = some text → ∃ answered refused,
      Performs (World.new maxDepth limits) (Script.statements text.toList) answered refused ∧
      (∀ a ∈ answered, ∀ r, a.warning = some r →
        ∃ name, r = closureShadowed name ∨ r = functionShadows name) ∧
      ending.output = String.join (answered.map (answerText style path)) ++
        (refused.map (refusalText style path)).getD "" ∧
      (refused = none → ending.status = 0) ∧
      ∀ e fault, refused = some (e, fault) → ending.status = failureStatus path fault := by
  intro ending
  have hending : ending = runFile style (World.new maxDepth limits) path (files path) := by
    simp only [ending, run, hread]
  refine ⟨fun hnone => ?_, fun text hpath htext => ?_⟩
  · rw [hending, runFile_of_none style _ path hnone]
    exact ⟨rfl, rfl⟩
  · obtain ⟨answered, refused, hperforms⟩ : ∃ answered refused,
        Performs (World.new maxDepth limits) (Script.statements text.toList) answered refused :=
      ⟨_, _, Script.performs_iff.mpr ⟨rfl, rfl⟩⟩
    rw [htext, runFile_of_performs hpath hperforms] at hending
    refine ⟨answered, refused, hperforms, hperforms.warning, ?_, ?_, ?_⟩
    · rw [hending]
    · rintro rfl
      rw [hending]
      rfl
    · rintro e fault rfl
      rw [hending]
      rfl

/-- A file whose third statement is refused makes the program fail. -/
theorem run_file_refused :
    let content := "let f = fn(x) => x\ndef f(x) = x + 1 ;; hides the other one\nf(1) / 0\n3"
    let files := fun path => if path = "a.calc" then some content else none
    let arguments := ["--max-depth", "50", "a.calc"]
    CommandLine.read arguments = .run ⟨some "a.calc", .levels 50⟩ ∧
      ∃ answered r,
        Performs (World.new (.levels 50) .standard) (Script.statements content.toList) answered
        (some r) ∧
        answered.length = 2 ∧
        run .plain .standard files arguments "" =
          ⟨String.join (answered.map (answerText .plain "a.calc")) ++
            refusalText .plain "a.calc" r, 1⟩ := by
  intro content files arguments
  have hread : CommandLine.read arguments = .run ⟨some "a.calc", .levels 50⟩ := by decide +kernel
  obtain ⟨-, hfile⟩ := run_file .plain .standard files "" hread
  obtain ⟨answered, refused, hperforms, -, houtput, -, hstatus⟩ := hfile content (by decide) rfl
  have hlooked : answered.length = 2 ∧ refused.isSome := by
    obtain ⟨rfl, rfl⟩ := Script.performs_iff.mp hperforms
    decide +kernel
  obtain ⟨⟨e, fault⟩, rfl⟩ := Option.isSome_iff_exists.mp hlooked.2
  have hfails : failureStatus "a.calc" fault = 1 := if_neg fun h => absurd h.1 (by decide)
  refine ⟨hread, answered, (e, fault), hperforms, hlooked.1, ?_⟩
  rw [← hfails, ← hstatus e fault rfl]
  exact congrArg (Ending.mk · _) houtput

/-- A file that has the name of the shell's input does not make the program fail, though one of
its statements is refused. -/
theorem run_file_named_as_input :
    let content := "1\n1/0\n2\n"
    let files := fun path => if path = "<in>" then some content else none
    CommandLine.read ["<in>"] = .run ⟨some "<in>", CommandLine.defaultDepth⟩ ∧
      (Script.run (World.new CommandLine.defaultDepth .standard)
        (Script.statements content.toList)).refused.isSome = true ∧
      run .plain .standard files ["<in>"] "" =
        ⟨"1\nTraceback:\n  File '<in>', line 2:\n    1/0\nerror: division by zero in '1 / 0'\n",
          0⟩ := by
  decide +kernel

end Program

end Abacus
