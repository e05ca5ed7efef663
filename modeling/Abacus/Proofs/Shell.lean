import Abacus.Proofs.Session
import Abacus.Shell

/-!
# The history of a shell

Which statements the lines typed into a shell complete depends on the lines only, and the world of
the shell is the one of the session of these statements. Its history lists those of them that were
answered. A statement that is refused leaves no trace, so entering the history again leads to the
same answers and to the same world.

## Main definitions

* `Abacus.Shell.completed?`, `Abacus.Shell.pendingAfter` — the statement that a line completes,
  and what is pending after it.
* `Abacus.Shell.completed` — the statements that lines complete.
* `Abacus.World.transcript` — the lines of a session that are answered, with how the answers are
  shown.

## Main results

* `Abacus.Shell.stepsTo_step`, `Abacus.Shell.runsTo_after` — what one line does to a shell, and
  what lines do.
* `Abacus.World.enterAll_transcript` — the lines that are answered lead to the same world.
* `Abacus.Shell.history_replays` — the history can be entered again.
-/

namespace Abacus

/-! ## The lines that are answered -/

namespace World

variable {w : World} {line shown : String} {lines : List String}
    {earlier later : List (String × String)}

/-- The line with how its answer is shown, if it is answered. -/
def answered? (w : World) (line : String) : Option (String × String) :=
  (w.enter line).toOption.map fun outcome => (line, outcome.answer.display)

/-- The lines of a session that are answered, with how the answers are shown. -/
def transcript (w : World) : List String → List (String × String)
  | [] => []
  | line :: lines => (w.answered? line).toList ++ (w.after line).transcript lines

/-- What an answered line leads to. -/
lemma answered?_eq_some_iff {answered : String × String} : w.answered? line = some answered ↔
    ∃ outcome, w.enter line = .ok outcome ∧ (line, outcome.answer.display) = answered := by
  rw [answered?]
  cases w.enter line <;> simp [Except.toOption]

/-- A line that is not answered leads to the same world. -/
lemma after_of_answered?_eq_none (h : w.answered? line = none) : w.after line = w := by
  rw [answered?] at h
  cases henter : w.enter line with
  | ok outcome => simp [henter, Except.toOption] at h
  | error fault => exact after_of_enter_eq_error henter

/-- The world after lines is the one after the last of them. -/
lemma enterAll_append (w : World) (lines lines' : List String) :
    w.enterAll (lines ++ lines') = (w.enterAll lines).enterAll lines' :=
  List.foldl_append

/-- The lines that are answered are first those at the beginning and then the others. -/
lemma transcript_append (w : World) (lines lines' : List String) :
    w.transcript (lines ++ lines') =
      w.transcript lines ++ (w.enterAll lines).transcript lines' := by
  induction lines generalizing w with
  | nil => rfl
  | cons line lines ih =>
    rw [List.cons_append, transcript, transcript, ih, List.append_assoc]
    rfl

/-- A line that is not answered can be left out, and one that is answered comes first. -/
lemma transcript_cons_cases (w : World) (line : String) (lines : List String) :
    (w.after line = w ∧ w.transcript (line :: lines) = w.transcript lines) ∨
      ∃ outcome, w.enter line = .ok outcome ∧ w.transcript (line :: lines) =
        (line, outcome.answer.display) :: (w.after line).transcript lines := by
  rw [transcript]
  cases h : w.answered? line with
  | none =>
    have hafter := after_of_answered?_eq_none h
    left
    rw [hafter]
    exact ⟨rfl, rfl⟩
  | some answered =>
    obtain ⟨outcome, henter, rfl⟩ := answered?_eq_some_iff.mp h
    exact .inr ⟨outcome, henter, rfl⟩

/-- **The lines that are answered lead to the same world**, without those that are refused.

**Proof sketch.** Induction along the lines. A line that is refused changes nothing, and one that is
answered comes first in what is left (`transcript_cons_cases`). -/
theorem enterAll_transcript (w : World) (lines : List String) :
    w.enterAll ((w.transcript lines).map Prod.fst) = w.enterAll lines := by
  induction lines generalizing w with
  | nil => rfl
  | cons line lines ih =>
    have hcons : w.enterAll (line :: lines) = (w.after line).enterAll lines := rfl
    rw [hcons]
    rcases w.transcript_cons_cases line lines with ⟨hafter, h⟩ | ⟨outcome, -, h⟩
    · rw [h, hafter, ih]
    · rw [h]
      exact ih (w.after line)

/-- A line that is answered is answered in the same way after those before it. -/
lemma exists_enter_of_transcript (h : w.transcript lines = earlier ++ (line, shown) :: later) :
    ∃ outcome, (w.enterAll (earlier.map Prod.fst)).enter line = .ok outcome ∧
      outcome.answer.display = shown := by
  induction lines generalizing w earlier with
  | nil => simp [transcript] at h
  | cons first lines ih =>
    rcases w.transcript_cons_cases first lines with ⟨-, hfirst⟩ | ⟨outcome, henter, hfirst⟩
    · exact ih (hfirst.symm.trans h)
    · rw [hfirst] at h
      cases earlier with
      | nil =>
        simp only [List.nil_append, List.cons.injEq, Prod.mk.injEq] at h
        obtain ⟨⟨rfl, rfl⟩, -⟩ := h
        exact ⟨outcome, henter, rfl⟩
      | cons answered earlier =>
        obtain ⟨rfl, hothers⟩ := List.cons.inj h
        obtain ⟨outcome', hlater⟩ := ih hothers
        exact ⟨outcome', hlater⟩

end World

namespace Shell

open Text

variable {s : Shell} {pending : List Char} {line statement : String} {lines : List String}

/-! ## What lines complete -/

/-- The text of the statement that a line is a part of, as far as it has been typed in. Blank
lines and commands are no part of one. -/
def part? (pending : List Char) (line : String) : Option (List Char) :=
  let cs := strip line.toList
  if cs.isEmpty || (requestOf? pending cs).isSome then none
  else some (Script.content (pending ++ ' ' :: cs))

/-- The statement that a line completes. -/
def completed? (pending : List Char) (line : String) : Option String :=
  match part? pending line with
  | none => none
  | some text =>
    if Script.isOpen text || (strip text).isEmpty then none else some (String.ofList (strip text))

/-- What is pending after a line. -/
def pendingAfter (pending : List Char) (line : String) : List Char :=
  match part? pending line with
  | none => pending
  | some text => if Script.isOpen text then text else []

/-- The statements that lines complete. -/
def completed (pending : List Char) : List String → List String
  | [] => []
  | line :: lines => (completed? pending line).toList ++ completed (pendingAfter pending line) lines

/-! ## One line -/

/-- What a line does to the world, to the history and to what is pending. -/
structure StepsTo (s : Shell) (line : String) (s' : Shell) : Prop where
  pending : s'.pending = pendingAfter s.pending line
  world : s'.world = s.world.enterAll (completed? s.pending line).toList
  history : s'.history = s.history ++ s.world.transcript (completed? s.pending line).toList

/-- A command has an effect on the console only. -/
lemma run_keeps (s : Shell) (r : Request) : (s.run r).shell.pending = s.pending ∧
    (s.run r).shell.world = s.world ∧ (s.run r).shell.history = s.history := by
  obtain ⟨command, argument, line⟩ := r
  cases command with
  | tree =>
    show (s.showTree argument).shell.pending = s.pending ∧
      (s.showTree argument).shell.world = s.world ∧
      (s.showTree argument).shell.history = s.history
    rw [showTree]
    split <;> exact ⟨rfl, rfl, rfl⟩
  | _ => exact ⟨rfl, rfl, rfl⟩

/-- A statement that is complete is entered into the world, and recorded if it is answered. -/
lemma submit_records (s : Shell) (statement : String) :
    (s.submit statement).shell.pending = s.pending ∧
    (s.submit statement).shell.world = s.world.after statement ∧
    (s.submit statement).shell.history = s.history ++ (s.world.answered? statement).toList := by
  unfold submit World.after World.answered? World.enter
  rcases (Run.ofLine statement).on s.world with ⟨fault | reply, world⟩
  · exact ⟨rfl, rfl, (List.append_nil _).symm⟩
  · exact ⟨rfl, rfl, rfl⟩

/-- A line that is no part of a statement has no effect but on the console. -/
lemma step_of_part?_eq_none (h : part? s.pending line = none) :
    (s.step line).shell.pending = s.pending ∧ (s.step line).shell.world = s.world ∧
      (s.step line).shell.history = s.history := by
  simp only [part?, ite_eq_left_iff, Bool.or_eq_true, reduceCtorEq, imp_false, not_not] at h
  rw [step]
  split
  · exact ⟨rfl, rfl, rfl⟩
  · rename_i hline
    obtain ⟨r, hr⟩ := Option.isSome_iff_exists.mp (h.resolve_left hline)
    rw [hr]
    exact s.run_keeps r

/-- The response to a line that is a part of a statement. -/
lemma step_of_part?_eq_some {text : List Char} (h : part? s.pending line = some text) :
    s.step line =
      if Script.isOpen text then
        .goesOn { s with pending := text, prompt := .secondary, lineNumber := s.lineNumber + 1 } ""
      else
        let s := { s with pending := [], prompt := .primary, lineNumber := s.lineNumber + 1 }
        if (strip text).isEmpty then .goesOn s "" else s.submit (String.ofList (strip text)) := by
  simp only [part?, Option.ite_none_left_eq_some, Bool.or_eq_true, not_or, Bool.not_eq_true,
    Option.isSome_eq_false_iff, Option.isNone_iff_eq_none, Option.some.injEq] at h
  obtain ⟨⟨hline, hrequest⟩, rfl⟩ := h
  simp only [step, hline, hrequest, takeLine, Bool.false_eq_true, if_false]

/-- A text is complete if it is neither open nor blank. -/
lemma completed?_eq_some_iff : completed? pending line = some statement ↔
    ∃ text, part? pending line = some text ∧ Script.isOpen text = false ∧
      (strip text).isEmpty = false ∧ String.ofList (strip text) = statement := by
  rw [completed?]
  cases part? pending line <;> simp [and_assoc]

/-- Nothing is pending after a statement that is complete. -/
lemma pendingAfter_of_completed (h : completed? pending line = some statement) :
    pendingAfter pending line = [] := by
  obtain ⟨text, hpart, hclosed, -⟩ := completed?_eq_some_iff.mp h
  rw [pendingAfter, hpart]
  exact if_neg (by simp [hclosed])

/-- A line that completes a statement submits it. -/
lemma step_of_completed (h : completed? s.pending line = some statement) :
    s.step line =
      submit { s with pending := [], prompt := .primary, lineNumber := s.lineNumber + 1 }
        statement := by
  obtain ⟨text, hpart, hclosed, hblank, rfl⟩ := completed?_eq_some_iff.mp h
  rw [step_of_part?_eq_some hpart, if_neg (by simp [hclosed])]
  exact if_neg (by simp [hblank])

/-- A line that completes no statement leaves the world and the history as they are. -/
lemma step_keeps (h : completed? s.pending line = none) :
    (s.step line).shell.pending = pendingAfter s.pending line ∧
      (s.step line).shell.world = s.world ∧
      (s.step line).shell.history = s.history := by
  rw [pendingAfter]
  cases hpart : part? s.pending line with
  | none => exact step_of_part?_eq_none hpart
  | some text =>
    rw [step_of_part?_eq_some hpart]
    simp only [completed?, hpart, ite_eq_left_iff, reduceCtorEq, imp_false, not_not] at h
    by_cases hopen : Script.isOpen text = true
    · simp only [if_pos hopen]
      exact ⟨rfl, rfl, rfl⟩
    · rw [Bool.or_eq_true, or_iff_right hopen] at h
      simp only [if_neg hopen, if_pos h]
      exact ⟨rfl, rfl, rfl⟩

/-- **What a line does to a shell.**

**Proof sketch.** A line that completes no statement touches the console only, and what is pending
(`step_keeps`). Any other one submits what it completes (`step_of_completed`), and that is recorded
if it is answered (`submit_records`). -/
theorem stepsTo_step (s : Shell) (line : String) : s.StepsTo line (s.step line).shell := by
  cases h : completed? s.pending line with
  | none =>
    obtain ⟨hpending, hworld, hhistory⟩ := step_keeps h
    constructor
    · exact hpending
    · rw [h]
      exact hworld
    · rw [h]
      exact hhistory.trans (List.append_nil _).symm
  | some statement =>
    obtain ⟨hpending, hworld, hhistory⟩ := submit_records
      { s with pending := [], prompt := .primary, lineNumber := s.lineNumber + 1 } statement
    rw [← step_of_completed h] at hpending hworld hhistory
    constructor
    · rw [pendingAfter_of_completed h]
      exact hpending
    · rw [h]
      exact hworld
    · rw [h]
      exact hhistory.trans (congrArg (s.history ++ ·) (List.append_nil _).symm)

/-! ## Lines -/

/-- What is pending after lines. -/
def pendingAfterAll (pending : List Char) (lines : List String) : List Char :=
  lines.foldl pendingAfter pending

/-- What lines do to the world, to the history and to what is pending. -/
structure RunsTo (s : Shell) (lines : List String) (s' : Shell) : Prop where
  pending : s'.pending = pendingAfterAll s.pending lines
  world : s'.world = s.world.enterAll (completed s.pending lines)
  history : s'.history = s.history ++ s.world.transcript (completed s.pending lines)

/-- **What lines do to a shell.**

**Proof sketch.** Induction along the lines, with what each of them does (`stepsTo_step`). -/
theorem runsTo_after (s : Shell) (lines : List String) : s.RunsTo lines (s.after lines) := by
  induction lines generalizing s with
  | nil => exact ⟨rfl, rfl, (List.append_nil _).symm⟩
  | cons line lines ih =>
    obtain ⟨hpending, hworld, hhistory⟩ := s.stepsTo_step line
    obtain ⟨hpending', hworld', hhistory'⟩ := ih (s.step line).shell
    constructor
    · exact hpending'.trans (congrArg (pendingAfterAll · lines) hpending)
    · rw [completed, World.enterAll_append, ← hworld, ← hpending]
      exact hworld'
    · rw [completed, World.transcript_append, ← hworld, ← hpending, ← List.append_assoc, ← hhistory]
      exact hhistory'

/-- **The history of a shell can be entered again.** Let any lines be typed into a shell on the
new world: statements, some of which are refused, parts of statements, comments and commands.
Entering the lines of its history into the new world leads to the world of the shell, with the
same variables and the same functions in the same order. On the way each line is answered, and its
answer is shown as the history says.

**Proof sketch.** The world of the shell is the one of the session of the statements that the
lines complete, and the history lists those that were answered (`runsTo_after`). The others change
nothing, so without them the session is the same (`World.enterAll_transcript`). -/
theorem history_replays (style : Style) (maxDepth : DepthLimit) (limits : Limits)
    (lines : List String) :
    let w := World.new maxDepth limits
    let s := (start style w).after lines
    w.enterAll (s.history.map Prod.fst) = s.world ∧
    ∀ earlier line shown later, s.history = earlier ++ (line, shown) :: later →
      ∃ outcome, (w.enterAll (earlier.map Prod.fst)).enter line = .ok outcome ∧
        outcome.answer.display = shown := by
  intro w s
  obtain ⟨-, hworld, hhistory⟩ := (start style w).runsTo_after lines
  have hstart : s.history = w.transcript (completed [] lines) := hhistory
  refine ⟨?_, fun earlier line shown later h => ?_⟩
  · rw [hstart, World.enterAll_transcript]
    exact hworld.symm
  · rw [hstart] at h
    exact World.exists_enter_of_transcript h

/-- The history of a binding over two lines, a name that is bound nowhere, a command, a function
value and a call of it. -/
theorem history_replays_refused :
    let lines := ["let x = (1 ;; one", "+ 2)", "y", "vars", "let f = fn(a) => a", "f(x) / 2"]
    let earlier := [("let x = (1 + 2)", "x = 3"), ("let f = fn(a) => a", "f = <function(a)>")]
    let w := World.new (.levels 300) .standard
    let s := (start .plain w).after lines
    s.history = earlier ++ [("f(x) / 2", "1.5")] ∧ w.enterAll (s.history.map Prod.fst) = s.world ∧
      ∃ outcome, (w.enterAll (earlier.map Prod.fst)).enter "f(x) / 2" = .ok outcome ∧
        outcome.answer.display = "1.5" := by
  intro lines earlier w s
  have hhistory : s.history = earlier ++ [("f(x) / 2", "1.5")] := by decide +kernel
  obtain ⟨hworld, hline⟩ := history_replays .plain (.levels 300) .standard lines
  exact ⟨hhistory, hworld, hline earlier _ _ [] hhistory⟩

end Shell

end Abacus
