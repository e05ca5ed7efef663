import Abacus.Proofs.Session.Faults
import Abacus.Proofs.Shell.Commands

/-!
# The state of a shell

What holds of a shell between two lines, whatever lines were typed in: the prompt tells whether a
statement is pending, what is pending has open parentheses, and the console is at no line of a
file. A command leaves the shell as it is, and every other line is counted. No line ends the
shell, except the commands that ask for it.

## Main definitions

* `Abacus.Shell.Sound` — what holds of a shell between two lines.
* `Abacus.Shell.Advance` — the shells that a line can lead to.
* `Abacus.Shell.tally` — how many lines have a property at the time when they are typed in.

## Main results

* `Abacus.Shell.Sound.advance` — which shell a line leads to.
* `Abacus.Shell.stops_step_iff` — which lines end a shell.
* `Abacus.Shell.escaped_step` — which faults of the program end a shell.
* `Abacus.Shell.feed_endOfInput` — the end of the input leaves a statement open.
* `Abacus.Shell.sound_after` — what holds after all lines.
-/

namespace Abacus.Shell

open Text

variable {s : Shell} {line : String} {lines : List String} {cs : List Char} {r : Request}

/-! ## Shells between two lines -/

/-- Texts with which a statement can be pending: they have open parentheses, no comment and no
blank at their end. -/
structure Resumable (p : List Char) : Prop where
  isOpen : p.count ')' < p.count '('
  mark : ¬ Script.commentMark <:+: p
  last : ∀ c ∈ p.getLast?, isBlank c = false

/-- What holds of a shell between two lines. The input is the only file, and it is at no line.
Errors do not end the program. -/
structure Sound (s : Shell) : Prop where
  prompt : s.prompt = .secondary ↔ s.pending ≠ []
  pending : s.pending ≠ [] → Resumable s.pending
  places : s.console.places.entries = [(inputPath, none)]
  isFatal : s.console.isFatal = false

/-- A fresh shell is sound. -/
lemma sound_start (style : Style) (w : World) : (start style w).Sound where
  prompt := by simp [start]
  pending := fun h => absurd rfl h
  places := rfl
  isFatal := rfl

/-- The console of a sound shell is a fresh one. -/
lemma Sound.console_eq (h : s.Sound) :
    s.console = (Console.new s.console.style false).openFile inputPath := by
  obtain ⟨-, -, hplaces, hfatal⟩ := h
  generalize s.console = console at hplaces hfatal ⊢
  obtain ⟨style, isFatal, ⟨entries⟩⟩ := console
  cases hplaces
  cases hfatal
  rfl

/-- A shell is sound again after a line that completes a statement, whatever the statement does. -/
lemma Sound.ready (h : s.Sound) (w : World) (history : List (String × String)) :
    { s.ready with world := w, history := history }.Sound where
  prompt := by simp [Shell.ready]
  pending := fun hpending => absurd rfl hpending
  places := h.places
  isFatal := h.isFatal

/-! ## One line -/

/-- Whether a line is handled as a part of a statement: it is neither blank nor a command. -/
def takes (s : Shell) (line : String) : Bool :=
  !(strip line.toList).isEmpty && (requestOf? s.pending line.toList).isNone

/-- Whether a line completes a statement that is answered. -/
def answers (s : Shell) (line : String) : Bool :=
  (completed? s.pending line).any fun statement => (s.world.enter statement).isOk

/-- `Advance s line s'` states that the shell `s'` is one to which the line can lead. -/
inductive Advance (s : Shell) (line : String) : Shell → Prop where
  /-- The line is blank or a command. -/
  | rests (htakes : s.takes line = false) : Advance s line s
  /-- The line leaves parentheses open. -/
  | opens {text : List Char} (htakes : s.takes line = true)
      (hpart : part? s.pending line = some text)
      (hopen : Script.isOpen text = true) :
      Advance s line
        { s with pending := text, prompt := .secondary, lineNumber := s.lineNumber + 1 }
  /-- The line leaves no parentheses open. -/
  | closes (htakes : s.takes line = true) (w : World) (history : List (String × String)) :
      Advance s line { s.ready with world := w, history := history }

/-- A line is handled as a part of a statement if it makes a text of one. -/
lemma takes_eq (s : Shell) (line : String) : s.takes line = (part? s.pending line).isSome := by
  rw [takes, part?, requestOf?_strip]
  cases (strip line.toList).isEmpty <;> cases requestOf? s.pending line.toList <;> rfl

/-- A command leaves a sound shell as it is, also one that shows an error. -/
lemma Sound.shell_run (h : s.Sound) (r : Request) : (s.run r).shell = s := by
  have hsettle : { s with console := s.console.settle } = s := by
    have hconsole : s.console.settle = s.console := by
      rw [h.console_eq]
      rfl
    rw [hconsole]
  obtain ⟨command, argument, line⟩ := r
  cases command with
  | tree =>
    show (s.showTree argument).shell = s
    rw [showTree]
    split
    · rfl
    · exact hsettle
  | _ => rfl

/-- A statement changes nothing of a sound shell but the world and the history. -/
lemma Sound.exists_submit (h : s.Sound) (statement : String) : ∃ w history,
    (s.submit statement).shell = { s with world := w, history := history } := by
  -- the line is entered into the console for what is shown, and both ways out of a statement
  -- leave it again
  have hconsole := h.console_eq
  rw [submit]
  rcases (Run.ofLine statement).on s.world with ⟨fault | reply, w⟩
  · refine ⟨w, s.history, ?_⟩
    have hsettle : (s.console.enterLine inputPath statement s.lineNumber).settle = s.console := by
      rw [hconsole]
      rfl
    simp only [hsettle]
  · refine ⟨w, s.history ++ [(statement, reply.answer.display)], ?_⟩
    have hleave : (s.console.enterLine inputPath statement s.lineNumber).leaveLine inputPath =
        s.console := by
      rw [hconsole]
      rfl
    simp only [Response.goesOn, hleave]

/-- **The shell that a line leads to.**

**Proof sketch.** A line is blank, a command or a part of a statement (`step_cases`). The first two
leave a sound shell as it is. A part leaves parentheses open, or it completes a statement, which may
be empty or is submitted (`exists_submit`). -/
theorem Sound.advance (h : s.Sound) (line : String) : s.Advance line (s.step line).shell := by
  cases hpart : part? s.pending line with
  | none =>
    have htakes : s.takes line = false := by
      rw [takes_eq, hpart]
      rfl
    have hsame : (s.step line).shell = s := by
      rcases s.step_cases line with ⟨-, hstep⟩ | ⟨r, -, hstep⟩ | ⟨hline, hrequest, -⟩
      · rw [hstep]
        rfl
      · rw [hstep]
        exact h.shell_run r
      · rw [part?_eq hrequest, if_neg (mt List.isEmpty_iff.mp hline)] at hpart
        cases hpart
    rw [hsame]
    exact .rests htakes
  | some text =>
    have htakes : s.takes line = true := by
      rw [takes_eq, hpart]
      rfl
    rw [step_of_part?_eq_some hpart]
    by_cases hopen : Script.isOpen text = true
    · rw [if_pos hopen]
      exact .opens htakes hpart hopen
    · rw [if_neg hopen]
      show s.Advance line (if (strip text).isEmpty then Response.goesOn s.ready ""
        else s.ready.submit (String.ofList (strip text))).shell
      split
      · exact .closes htakes s.world s.history
      · have hready : s.ready.Sound := h.ready s.world s.history
        obtain ⟨w, history, hsubmit⟩ := hready.exists_submit (String.ofList (strip text))
        rw [hsubmit]
        exact .closes htakes w history

/-- A line leads from a sound shell to one. -/
lemma Sound.step (h : s.Sound) (line : String) : (s.step line).shell.Sound := by
  have hadvance := h.advance line
  generalize (s.step line).shell = s' at hadvance ⊢
  cases hadvance with
  | rests => exact h
  | closes _ w history => exact h.ready w history
  | @opens text _ hpart hopen =>
    have hsolid : text ≠ [] := by
      rintro rfl
      cases hopen
    obtain ⟨-, rfl⟩ : _ ∧ Script.content (s.pending ++ ' ' :: strip line.toList) = text := by
      simpa [part?] using hpart
    constructor
    · exact iff_of_true rfl hsolid
    · intro _
      refine ⟨of_decide_eq_true hopen, Script.not_infix_content _, fun c hc => ?_⟩
      exact isBlank_of_getLast?_stripRight hc
    · exact h.places
    · exact h.isFatal

/-- Exactly the lines that are handled as parts of statements are counted. -/
lemma Sound.lineNumber_step (h : s.Sound) (line : String) :
    (s.step line).shell.lineNumber = s.lineNumber + (s.takes line).toNat := by
  have hadvance := h.advance line
  generalize (s.step line).shell = s' at hadvance ⊢
  cases hadvance with
  | rests htakes => rw [htakes]; rfl
  | opens htakes | closes htakes => rw [htakes]; rfl

/-- Exactly the statements that are answered are recorded. -/
lemma length_history_step (s : Shell) (line : String) :
    (s.step line).shell.history.length = s.history.length + (s.answers line).toNat := by
  rw [(s.stepsTo_step line).history, List.length_append, answers]
  cases completed? s.pending line with
  | none => rfl
  | some statement =>
    simp only [Option.toList_some, World.transcript, World.answered?, Option.any_some]
    cases s.world.enter statement <;> rfl

/-! ## Lines that end a shell -/

/-- A request for a command without arguments is the word of the command. -/
lemma eq_word_of_request? (h : request? cs = some r) (hcs : strip cs = cs)
    (hbare : r.command.takesArgument = false) : String.ofList cs = r.command.word := by
  simp only [request?, Option.bind_eq_bind, Option.bind_eq_some_iff] at h
  obtain ⟨line, hline, command, hcommand, hadmits⟩ := h
  split at hadmits
  · rename_i hargument
    cases hadmits
    have hsame : line = cs := by
      unfold commandLine? at hline
      split at hline
      · cases hline
      · rename_i rest
        -- a question mark asks for help, which can have an argument
        cases hline
        cases hcommand
        cases hbare
      · cases hline
      · cases hline
        rfl
    subst hsame
    have hblank : Blank (line.dropWhile isNameChar) := by
      rw [← strip_eq_nil_iff]
      cases hrest : strip (line.dropWhile isNameChar) with
      | nil => rfl
      | cons c rest =>
        rw [hrest, admits, hbare] at hargument
        cases hargument
    have hsolid : ∀ c ∈ line.takeWhile isNameChar, isBlank c = false := fun c hc =>
      isBlank_of_goesOn (.inl (List.all_eq_true.mp List.all_takeWhile c hc))
    have hword := strip_append blank_nil hblank hsolid
    rw [List.nil_append, List.takeWhile_append_dropWhile, hcs] at hword
    rw [word_of_ofWord? hcommand, ← hword]
  · cases hadmits

/-- The word of a command is a request for it. -/
lemma request?_word (c : Command) : request? c.word.toList = some ⟨c, [], c.word.toList⟩ := by
  cases c <;> decide

/-- The commands that end a shell. -/
lemma stops_run_iff (s : Shell) (r : Request) :
    (s.run r).stops = true ↔ r.command = .exit ∨ r.command = .endOfInput := by
  obtain ⟨command, argument, line⟩ := r
  cases command with
  | tree =>
    refine iff_of_false ?_ (by simp)
    show ¬ (s.showTree argument).stops = true
    rw [showTree]
    split <;> exact Bool.false_ne_true
  | exit | endOfInput => exact iff_of_true rfl (by simp)
  | _ => exact iff_of_false Bool.false_ne_true (by simp)

/-- What becomes of a line that is taken as a part of a statement: the shell goes on without a
word, or submits the statement to the same world. -/
lemma takeLine_cases (s : Shell) (cs : List Char) : (∃ s', s.takeLine cs = .goesOn s' "") ∨
    ∃ (s' : Shell) (statement : String), s'.world = s.world ∧
      s.takeLine cs = s'.submit statement := by
  rw [takeLine]
  split
  · exact .inl ⟨_, rfl⟩
  · dsimp only
    split
    · exact .inl ⟨_, rfl⟩
    · exact .inr ⟨s.ready, _, rfl, rfl⟩

/-- A line that is taken as a part of a statement does not ask to end the shell. -/
lemma stops_takeLine (s : Shell) (cs : List Char) : (s.takeLine cs).stops = false := by
  rcases s.takeLine_cases cs with ⟨s', h⟩ | ⟨s', statement, -, h⟩
  · rw [h]
    rfl
  · rw [h, submit]
    rcases (Run.ofLine statement).on s'.world with ⟨fault | reply, w⟩ <;> rfl

/-- **Which lines end a shell.** Nothing is pending, and the line is the word of one of two
commands.

**Proof sketch.** Statements never ask to end the shell (`stops_takeLine`), and of the commands only
these two do (`stops_run_iff`). They admit no argument, so the line is the word alone, and a word
alone is a request for its command while nothing is pending (`request?_word`). -/
theorem stops_step_iff (s : Shell) (line : String) : (s.step line).stops = true ↔ s.pending = [] ∧
    (String.ofList (strip line.toList) = "exit" ∨ String.ofList (strip line.toList) = "EOF") := by
  constructor
  · intro h
    rcases s.step_cases line with ⟨-, hstep⟩ | ⟨r, hrequest, hstep⟩ | ⟨-, -, hstep⟩
    · rw [hstep] at h
      cases h
    · rw [hstep, stops_run_iff] at h
      rw [requestOf?, Option.ite_none_right_eq_some, List.isEmpty_iff] at hrequest
      have hbare : r.command.takesArgument = false := by
        rcases h with h | h <;> rw [h] <;> rfl
      have hword := eq_word_of_request? hrequest.2 (strip_strip _) hbare
      refine ⟨hrequest.1, ?_⟩
      rcases h with h | h
      · exact .inl (by rw [hword, h]; rfl)
      · exact .inr (by rw [hword, h]; rfl)
    · rw [hstep, stops_takeLine] at h
      cases h
  · rintro ⟨hpending, hword⟩
    obtain ⟨c, hc, hword⟩ : ∃ c : Command, (c = .exit ∨ c = .endOfInput) ∧
        String.ofList (strip line.toList) = c.word := by
      rcases hword with hword | hword
      · exact ⟨.exit, .inl rfl, hword⟩
      · exact ⟨.endOfInput, .inr rfl, hword⟩
    rw [← String.toList_inj, String.toList_ofList] at hword
    have hrequest : requestOf? s.pending line.toList = some ⟨c, [], c.word.toList⟩ := by
      rw [requestOf?, hpending, hword]
      exact request?_word c
    rw [step_of_requestOf?_eq_some hrequest, stops_run_iff]
    exact hc

/-- No command has a fault of the program. -/
lemma escaped_run (s : Shell) (r : Request) : (s.run r).escaped = none := by
  obtain ⟨command, argument, line⟩ := r
  cases command with
  | tree =>
    show (s.showTree argument).escaped = none
    rw [showTree]
    split <;> rfl
  | _ => rfl

/-- A statement has no fault of the program, except under a limit that is no number. -/
lemma escaped_submit (s : Shell) (statement : String) : (s.submit statement).escaped = none ∨
    s.world.maxDepth = .blank ∧ (s.submit statement).escaped = some .incomparableLimit := by
  rw [submit]
  cases hrun : (Run.ofLine statement).on s.world with
  | mk result w =>
    cases result with
    | ok reply => exact .inl rfl
    | error fault =>
      cases hinternal : fault.report.isInternal with
      | false => exact .inl (by simp [hinternal])
      | true =>
        have henter : s.world.enter statement = .error fault := by
          rw [World.enter, hrun]
          rfl
        obtain ⟨hlimit, rfl⟩ := World.eq_of_isInternal henter hinternal
        exact .inr ⟨hlimit, rfl⟩

/-- **Which faults of the program end a shell.** There is none, as long as the limit of the user
is a number.

**Proof sketch.** Blank lines and commands have no fault of the program. A statement has one only if
its evaluation does, and the only such fault is that of a limit that no depth can be compared with
(`escaped_submit`). -/
theorem escaped_step (s : Shell) (line : String) : (s.step line).escaped = none ∨
    s.world.maxDepth = .blank ∧ (s.step line).escaped = some .incomparableLimit := by
  rcases s.step_cases line with ⟨-, hstep⟩ | ⟨r, -, hstep⟩ | ⟨-, -, hstep⟩
  · rw [hstep]
    exact .inl rfl
  · rw [hstep]
    exact .inl (s.escaped_run r)
  · rw [hstep]
    rcases s.takeLine_cases (strip line.toList) with ⟨s', h⟩ | ⟨s', statement, hworld, h⟩
    · rw [h]
      exact .inl rfl
    · rw [h, ← hworld]
      exact s'.escaped_submit statement

/-! ## The end of the input -/

/-- While a statement is pending, the end of the input is read as a part of it. -/
lemma Sound.step_endOfInput (h : s.Sound) (hpending : s.pending ≠ []) :
    s.step Command.endOfInput.word = .goesOn
      { s with
        pending := s.pending ++ ' ' :: Command.endOfInput.word.toList
        prompt := .secondary
        lineNumber := s.lineNumber + 1 } "" := by
  have hresumable := h.pending hpending
  have hrequest : requestOf? s.pending Command.endOfInput.word.toList = none :=
    if_neg (by simpa using hpending)
  have hcontent : Script.content (s.pending ++ ' ' :: Command.endOfInput.word.toList) =
      s.pending ++ ' ' :: Command.endOfInput.word.toList := by
    -- there is no blank at the end, as the word ends with a letter
    rw [Script.content_append hresumable.mark, stripRight, List.reverse_append]
    show (Command.endOfInput.word.toList.reverse ++ ' ' :: s.pending.reverse).reverse = _
    rw [List.reverse_append, List.reverse_reverse, List.reverse_cons, List.reverse_reverse,
      List.append_assoc, List.singleton_append]
  have hopen : Script.isOpen (s.pending ++ ' ' :: Command.endOfInput.word.toList) = true := by
    rw [Script.isOpen, decide_eq_true_iff, List.count_append, List.count_append]
    exact Nat.add_lt_add_of_lt_of_le hresumable.isOpen (by decide)
  have hpart : part? s.pending Command.endOfInput.word =
      some (s.pending ++ ' ' :: Command.endOfInput.word.toList) := by
    rw [part?_eq hrequest, ← hcontent]
    rfl
  rw [step_of_part?_eq_some hpart, if_pos hopen]

/-- **The end of the input does not end a statement that is open.** However often it is read while a
statement is pending, the shell shows nothing and goes on, and the statement stays pending.

**Proof sketch.** The word for the end of the input closes no parenthesis, so it leaves the
statement open (`Sound.step_endOfInput`), in a shell that is sound again. -/
theorem feed_endOfInput (hs : s.Sound) (hpending : s.pending ≠ []) (n : ℕ) :
    ∀ response ∈ s.feed (List.replicate n Command.endOfInput.word),
      response.output = "" ∧ response.stops = false ∧ response.escaped = none ∧
        response.shell.pending ≠ [] := by
  induction n generalizing s with
  | zero => exact fun response h => absurd h List.not_mem_nil
  | succ n ih =>
    have hstep := hs.step_endOfInput hpending
    have hnext : (s.step Command.endOfInput.word).shell.pending ≠ [] := by
      rw [hstep]
      exact List.append_ne_nil_of_right_ne_nil _ (List.cons_ne_nil _ _)
    rw [List.replicate_succ, feed, List.forall_mem_cons]
    refine ⟨?_, ih (hs.step _) hnext⟩
    rw [hstep] at hnext ⊢
    exact ⟨rfl, rfl, rfl, hnext⟩

/-! ## Lines -/

/-- How many of the lines have a property in the shell into which they are typed. -/
def tally (p : Shell → String → Bool) (s : Shell) : List String → Nat
  | [] => 0
  | line :: lines => (p s line).toNat + (s.step line).shell.tally p lines

/-- A number that each line raises by one, if it has a property, counts the lines that have it. -/
lemma tally_after {f : Shell → Nat} {p : Shell → String → Bool}
    (hstep : ∀ {s : Shell}, s.Sound → ∀ line, f (s.step line).shell = f s + (p s line).toNat)
    (hs : s.Sound) (lines : List String) : f (s.after lines) = f s + s.tally p lines := by
  induction lines generalizing s with
  | nil => rfl
  | cons line lines ih =>
    rw [tally, ← Nat.add_assoc, ← hstep hs line]
    exact ih (hs.step line)

/-- Lines lead from a sound shell to one. -/
lemma Sound.after (hs : s.Sound) (lines : List String) : (s.after lines).Sound := by
  induction lines generalizing s with
  | nil => exact hs
  | cons line lines ih => exact ih (hs.step line)

/-- **What holds of a shell after all lines**, whatever lines were typed into a fresh one. The
prompt tells whether a statement is pending. What is pending has more opening than closing
parentheses, no comment and no blank at its end. The console is at no line of a file. The line
number counts the lines that were neither blank nor commands, and the history has one entry for
each statement that was answered.

Whatever line comes next, if it is a command, the shell stays as it is: the prompt, what is
pending, the line number, the history and the tables of the world do not change, even if the
command shows an error. The line asks to end the shell if and only if nothing is pending and it is
the word of one of the two commands for that. No fault of the program ends the shell. Only where a
limit is no number at all, that a depth could be compared with, does its fault.

**Proof sketch.** One line leads from a sound shell to a sound one (`Sound.step`), since there are
three ways in which it can go on (`Sound.advance`). Each of them counts the line or not. The
faults of lines are those of reading and those of evaluations (`World.fault_of_enter`). -/
theorem sound_after (style : Style) (maxDepth : DepthLimit) (limits : Limits)
    (lines : List String) :
    let fresh := start style (World.new maxDepth limits)
    let s := fresh.after lines
    s.Sound ∧ s.lineNumber = fresh.tally takes lines ∧
      s.history.length = fresh.tally answers lines ∧
    ∀ line, let response := s.step line
      (∀ r, requestOf? s.pending line.toList = some r → response.shell = s) ∧
      (response.stops = true ↔ s.pending = [] ∧
        (String.ofList (strip line.toList) = "exit" ∨ String.ofList (strip line.toList) = "EOF")) ∧
      (response.escaped = none ∨
        maxDepth = .blank ∧ response.escaped = some .incomparableLimit) := by
  intro fresh s
  have hfresh : fresh.Sound := sound_start style (World.new maxDepth limits)
  have hs : s.Sound := hfresh.after lines
  -- the limit is that of the fresh world, since no line changes it
  have hlimit : s.world.maxDepth = maxDepth := by
    rw [(fresh.runsTo_after lines).world, World.maxDepth_enterAll]
    rfl
  have hlines : s.lineNumber = fresh.lineNumber + fresh.tally takes lines :=
    tally_after Sound.lineNumber_step hfresh lines
  have hhistory : s.history.length = fresh.history.length + fresh.tally answers lines :=
    tally_after (f := fun s => s.history.length) (fun _ line => length_history_step _ line)
      hfresh lines
  refine ⟨hs, hlines.trans (Nat.zero_add _), hhistory.trans (Nat.zero_add _),
    fun line => ⟨fun r hr => ?_, s.stops_step_iff line, ?_⟩⟩
  · have htakes : s.takes line = false := by
      rw [takes, hr]
      simp
    have hadvance := hs.advance line
    generalize (s.step line).shell = s' at hadvance ⊢
    cases hadvance with
    | rests => rfl
    | opens h | closes h =>
      rw [htakes] at h
      cases h
  · rw [← hlimit]
    exact s.escaped_step line

/-- A binding over two lines with a comment, a command that shows an error, a name that is bound
nowhere, and a statement that is still pending when the shell is asked to end. -/
theorem sound_after_pending :
    let lines := ["let x = (1 ;; one", "  ", "+ 2)", "tree 1 +", "y", "(x"]
    let fresh := start .plain (World.new (.levels 300) .standard)
    let s := fresh.after lines
    s.Sound ∧ s.prompt = .secondary ∧ s.lineNumber = 4 ∧ s.history.length = 1 ∧
    (s.step " exit ").stops = false ∧ (s.step ")").escaped = none ∧
    (fresh.step "tree 1 +").shell = fresh ∧ (fresh.step " exit ").stops = true := by
  intro lines fresh s
  obtain ⟨hs, hnumber, hlength, hline⟩ := sound_after .plain (.levels 300) .standard lines
  obtain ⟨-, -, -, hfresh⟩ := sound_after .plain (.levels 300) .standard []
  have hpending : s.pending ≠ [] := by decide +kernel
  have hgoesOn : ¬ (s.step " exit ").stops = true := fun h => hpending ((hline _).2.1.mp h).1
  obtain ⟨r, hr⟩ : ∃ r, requestOf? fresh.pending "tree 1 +".toList = some r :=
    Option.isSome_iff_exists.mp (by decide +kernel)
  refine ⟨hs, hs.prompt.mpr hpending, hnumber.trans (by decide +kernel),
    hlength.trans (by decide +kernel), Bool.eq_false_iff.mpr hgoesOn, ?_, (hfresh _).1 r hr,
    (hfresh _).2.1.mpr ⟨rfl, .inl (by decide +kernel)⟩⟩
  rcases (hline ")").2.2 with hnone | ⟨hblank, -⟩
  · exact hnone
  · cases hblank

end Abacus.Shell
