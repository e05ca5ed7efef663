import Abacus.Proofs.Session.Faults
import Abacus.Proofs.Text.Occurrences
import Abacus.Proofs.Tokens.Layout

/-!
# The spans of faults

Every fault of a line points at a part of the text that it is about: at a character, at a token,
at a name, or at all of the text. A fault that is worth showing points at something, and the marks
that are shown below the text stand under exactly the characters that it points at.

## Main definitions

* `Abacus.Report.PointsAt` — the part of its text that a report points at.
* `Abacus.Report.Placed` — reports that point at a part of their text.

## Main results

* `Abacus.Report.PointsAt.marking_eq` — the marks stand under what a report points at.
* `Abacus.Expr.parse_placed`, `Abacus.Statement.ofLine_placed` — the faults of texts that cannot
  be read.
* `Abacus.World.fault_of_enter_placed` — the faults of lines.
-/

namespace Abacus

open Result (Satisfies)

variable {r : Report} {before span behind : List Char} {fault : Fault} {limits : Limits}
  {text name subject line : String}

namespace Report

/-! ## What a report points at -/

/-- The part of its text that a report points at, between what stands before it and behind it. -/
structure PointsAt (r : Report) (before span behind : List Char) : Prop where
  subject : r.subject.toList = before ++ span ++ behind
  start : r.start = before.length
  stop : r.stop = before.length + span.length

/-- Reports that point at a part of their text, which is not empty if it is worth showing. -/
def Placed (r : Report) : Prop :=
  ∃ before span behind, r.PointsAt before span behind ∧ (r.isLocated = true → span ≠ [])

/-- A report about a whole text points at all of it. -/
lemma placed_about (message : Message) (subject : String) : (about message subject).Placed := by
  refine ⟨[], subject.toList, [], ⟨?_, rfl, ?_⟩, fun h => absurd h Bool.false_ne_true⟩
  · rw [List.nil_append, List.append_nil]
    rfl
  · show (subject.length : Int) = ([] : List Char).length + subject.toList.length
    rw [String.length_toList, List.length_nil, Int.natCast_zero, Int.zero_add]

/-- The report about a fault of the program points at nothing. -/
lemma placed_internal (kind words : String) : (internal kind words).Placed :=
  ⟨[], [], [], ⟨rfl, rfl, rfl⟩, fun h => absurd h Bool.false_ne_true⟩

/-- A report about a span points at the characters that stand there. -/
lemma placed_within {message : Message} {subject : String} {start stop : Int} (hspan : span ≠ [])
    (hsubject : subject.toList = before ++ span ++ behind) (hstart : start = before.length)
    (hstop : stop = before.length + span.length) : (within message subject start stop).Placed :=
  ⟨before, span, behind, ⟨hsubject, hstart, hstop⟩, fun _ => hspan⟩

namespace PointsAt

/-- The characters that a report points at are the slice of its text between its ends. -/
lemma slice_eq (h : r.PointsAt before span behind) :
    Text.slice r.start r.stop r.subject.toList = span := by
  rw [h.start, h.stop, h.subject]
  exact Text.slice_append before span behind

/-- What a report points at lies within its text. -/
lemma bounds (h : r.PointsAt before span behind) :
    0 ≤ r.start ∧ r.start + span.length = r.stop ∧ r.stop ≤ r.subject.length := by
  have hlength := congrArg List.length h.subject
  rw [String.length_toList, List.length_append, List.length_append] at hlength
  rw [h.start, h.stop, hlength]
  omega

/-- **The marks stand under what a report points at**: the text is shown as it is behind two
blanks, and on the next line there are as many blanks as stand before what the report points at,
two more, and as many marks as it has characters, a caret first.

**Proof sketch.** The marks are counted from the two places that the report has. These are the
numbers of characters before and up to the end of what it points at (`PointsAt`), so the slices
between them are the three parts of the text. -/
theorem marking_eq (h : r.PointsAt before span behind) (hspan : span ≠ []) (emphasis : Emphasis) :
    r.marking .plain emphasis = "  " ++ r.subject ++ "\n" ++
      String.ofList (List.replicate (before.length + 2) ' ') ++ "^" ++
        String.ofList (List.replicate (span.length - 1) '~') := by
  have hlength : 0 < span.length := List.length_pos_iff.mpr hspan
  have hstop : max r.stop (r.start + 1) = r.stop := by
    rw [h.start, h.stop]
    omega
  have hupTo : Text.upTo r.start r.subject.toList = before := by
    rw [h.start, h.subject, Text.upTo_natCast, List.append_assoc, List.take_left]
  have honward : Text.onward r.stop r.subject.toList = behind := by
    have hcast : r.stop = ((before ++ span).length : Nat) := by
      rw [h.stop, List.length_append, Int.natCast_add]
    rw [hcast, h.subject, Text.onward_natCast, List.drop_left]
  have htail : (r.stop - r.start - 1).toNat = span.length - 1 := by
    rw [h.start, h.stop]
    omega
  have hblanks : r.start.toNat = before.length := by
    rw [h.start, Int.toNat_natCast]
  rw [marking, hstop, hupTo, h.slice_eq, honward, htail, hblanks, ← String.toList_inj]
  simp only [Style.emphasize_plain, String.toList_append, String.toList_ofList, h.subject,
    List.append_assoc, Nat.add_comm before.length 2, List.replicate_add]
  rfl

end PointsAt

end Report

/-! ## Faults of reading -/

/-- A character that starts no lexeme stands in its text, and a token with which an expression
cannot go on does so too. -/
lemma Expr.parse_placed (limits : Limits) (text : String) :
    Satisfies (fun _ => True) (fun fault => fault.report.Placed) (Expr.parse limits text) := by
  cases hparse : Expr.parse limits text with
  | ok e => exact .ok trivial
  | error fault =>
    refine .error ?_
    rw [parse, Result.bind_eq_error_iff] at hparse
    rcases hparse with htokens | ⟨tokens, htokens, hparse⟩
    · rw [tokensOf, scan, Result.mapError_eq_error_iff] at htokens
      obtain ⟨position, hscan, rfl⟩ := htokens
      obtain ⟨before, c, behind, -, htext, rfl, -⟩ := scanFrom_eq_error_iff.mp hscan
      have htext' : text.toList = before ++ [c] ++ behind := by
        rw [htext, List.append_assoc]
        rfl
      rw [Nat.zero_add]
      exact Report.placed_within (List.cons_ne_nil c []) htext' rfl rfl
    · rw [ofTokens, Result.mapError_eq_error_iff] at hparse
      obtain ⟨stuck, -, rfl⟩ := hparse
      cases stuck with
      | tooNested => exact Report.placed_about _ _
      | on problem rest =>
        rw [Stuck.fault]
        cases ht : tokens[tokens.length - rest.length]? with
        | none => exact Report.placed_about _ _
        | some t =>
          rw [tokensOf, scan, Result.mapError_eq_ok_iff, scanFrom_eq_ok_iff] at htokens
          obtain ⟨before, behind, htext, hposition, hwritten, -⟩ :=
            htokens.exists_place (List.mem_of_getElem? ht)
          rw [Nat.zero_add] at hposition
          refine Report.placed_within (List.ne_nil_of_length_pos hwritten.length_pos) htext ?_ ?_
          · rw [hposition]
          · rw [Token.stop, hposition, Int.natCast_add]

/-- A name that is a part of its statement is found there. -/
lemma Fault.placed_invalidName (role : NameRole) (h : name.toList <:+: subject.toList) :
    (Fault.invalidName role name subject).report.Placed := by
  rw [Fault.report, locate?]
  by_cases hempty : name.isEmpty = true
  · -- the empty name is not searched for
    rw [if_pos hempty]
    obtain rfl : name = "" := String.isEmpty_iff.mp hempty
    exact ⟨[], [], subject.toList, ⟨rfl, rfl, rfl⟩, fun h => absurd h Bool.false_ne_true⟩
  · obtain ⟨i, hi⟩ := Text.exists_find?_of_infix h
    obtain ⟨before, behind, hsubject, rfl⟩ := Text.exists_of_find? hi
    rw [if_neg hempty, hi]
    refine Report.placed_within (fun hnil => hempty ?_) hsubject rfl ?_
    · rw [String.isEmpty_iff]
      exact String.toList_eq_nil_iff.mp hnil
    · rw [String.length_toList]

namespace Statement

/-- A name that is not let through is a part of its statement, if the text that it was cut from
is. -/
lemma admitName_placed (role : NameRole) {piece : List Char} (h : piece <:+: subject.toList) :
    Satisfies (fun _ => True) (fun fault => fault.report.Placed)
      (admitName role (String.ofList (Text.strip piece)) subject) := by
  rw [admitName]
  split
  · exact .ok trivial
  · refine .error (Fault.placed_invalidName role ?_)
    rw [String.toList_ofList]
    exact (Text.strip_isInfix piece).trans h

/-- Parameters that are not let through are parts of their statement. -/
lemma admitParams_placed {pieces : List (List Char)}
    (h : ∀ piece ∈ pieces, piece <:+: subject.toList) (seen : List String) :
    Satisfies (fun _ => True) (fun fault => fault.report.Placed)
      (admitParams subject seen pieces) := by
  induction pieces generalizing seen with
  | nil => exact .ok trivial
  | cons piece pieces ih =>
    rw [List.forall_mem_cons] at h
    rw [admitParams]
    refine (admitName_placed .aParameter h.1).bind fun {name} _ => ?_
    split
    · exact .error (Report.placed_about _ _)
    · exact ih h.2 _

/-- What a text without blanks around it says, if the text is a part of the statement. -/
lemma readForm_placed {cs : List Char} (h : cs <:+: subject.toList) (opening : Opening) :
    Satisfies (fun _ => True) (fun fault => fault.report.Placed)
      (readForm limits opening cs subject) := by
  cases opening with
  | expression =>
    exact (Expr.parse_placed limits _).map fun _ => trivial
  | binding =>
    rw [readForm, readBinding]
    split
    · exact .error (Report.placed_about _ _)
    · rename_i left right hparts
      have hleft : left <:+: subject.toList := by
        have hdrop : cs.drop 3 <:+: subject.toList := (List.drop_suffix 3 cs).isInfix.trans h
        rw [(eq_of_splitBinding hparts).1] at hdrop
        exact (List.prefix_append _ _).isInfix.trans hdrop
      refine (admitName_placed .aVariable hleft).bind fun _ => ?_
      exact (Expr.parse_placed limits _).bind fun _ => .ok trivial
  | definition =>
    rw [readForm, readDefinition]
    split
    · exact .error (Report.placed_about _ _)
    · rename_i left inside right hparts
      obtain ⟨bs, -, -, -, -, rfl⟩ := splitDefinition_eq_some_iff.mp hparts
      have hleft : left <:+: subject.toList :=
        List.IsInfix.trans ⟨"def".toList, _, List.append_assoc _ _ _⟩ h
      have hinside : inside <:+: subject.toList :=
        List.IsInfix.trans ⟨"def".toList ++ (left ++ ['(']), ')' :: (bs ++ '=' :: right), by simp⟩ h
      have hpieces : ∀ piece ∈ paramPieces inside, piece <:+: subject.toList := by
        intro piece hpiece
        rw [paramPieces] at hpiece
        split at hpiece
        · cases hpiece
        · exact (Text.isInfix_of_mem_splitOn hpiece).trans hinside
      refine (admitName_placed .aFunction hleft).bind fun _ => ?_
      refine (admitParams_placed hpieces []).bind fun _ => ?_
      exact (Expr.parse_placed limits _).bind fun _ => .ok trivial

/-- **The fault of a line that is no statement points at a part of its text.** -/
theorem ofLine_placed (limits : Limits) (line : String) :
    Satisfies (fun _ => True) (fun fault => fault.report.Placed) (ofLine limits line) := by
  rw [ofLine, read]
  exact (readForm_placed (Text.strip_isInfix line.toList) _).bind fun _ => .ok trivial

end Statement

/-! ## Faults of lines -/

/-- The fault of an evaluation is about a whole text, or it is a fault of the program. -/
lemma Fault.OfEvaluation.placed {limit : DepthLimit} (h : fault.OfEvaluation limit) :
    fault.report.Placed := by
  cases h with
  | incomparableLimit => exact Report.placed_internal _ _
  | _ => exact Report.placed_about _ _

namespace World

variable {w : World}

/-- A line that is refused has a fault that points at a part of its text. -/
lemma placed_of_enter (h : w.enter line = .error fault) : fault.report.Placed := by
  rw [enter, Result.map_eq_error_iff, Run.ofLine, Run.on_get, Run.on_bind] at h
  have hline := Statement.ofLine_placed w.limits line
  cases hstatement : Statement.ofLine w.limits line with
  | error fault' =>
    rw [hstatement] at h hline
    cases h
    cases hline with
    | error hplaced => exact hplaced
  | ok statement =>
    rw [hstatement] at h
    rcases fault_of_execute h with hrun | rfl
    · have hfaults := statement.form.term.valueWithin_faults w w.levels .empty
      rw [← run_eq, hrun] at hfaults
      cases hfaults with
      | error hevaluation => exact hevaluation.placed
    · exact Report.placed_about _ _

/-- **The fault of a line has a span, and its marks line up with the text.** Let a line be refused
in a world, which can be that of any session. The span of the report lies within the text that it
is about. If the report is worth showing, the span is not empty, and what is shown without colours
is the text as it is behind two blanks, and below it a caret with a tail, which stand under
exactly the characters of the span.

**Proof sketch.** A fault of reading is about a character or a token of the text that was read
(`Expr.parse_placed`), about a name that was cut out of the line and so is found in it
(`Fault.placed_invalidName`), or about a whole text, and so are all faults of evaluations
(`Fault.OfEvaluation.placed`). -/
theorem fault_of_enter_placed (h : w.enter line = .error fault) :
    let r := fault.report
    0 ≤ r.start ∧ r.start ≤ r.stop ∧ r.stop ≤ r.subject.length ∧
      (r.isLocated = true → r.start < r.stop ∧
        (∃ before behind, r.subject.toList =
            before ++ Text.slice r.start r.stop r.subject.toList ++ behind ∧
          before.length = r.start ∧
          (Text.slice r.start r.stop r.subject.toList).length = r.stop - r.start) ∧
        ∀ emphasis, r.marking .plain emphasis = "  " ++ r.subject ++ "\n" ++
          String.ofList (List.replicate (r.start.toNat + 2) ' ') ++ "^" ++
            String.ofList (List.replicate (r.stop - r.start - 1).toNat '~')) := by
  intro r
  obtain ⟨before, span, behind, hpoints, hspan⟩ := placed_of_enter h
  obtain ⟨hstart, hstop, hend⟩ :
      0 ≤ r.start ∧ r.start + span.length = r.stop ∧ r.stop ≤ r.subject.length := hpoints.bounds
  refine ⟨hstart, by omega, hend, fun hlocated => ?_⟩
  have hlength : 0 < span.length := List.length_pos_iff.mpr (hspan hlocated)
  refine ⟨by omega, ⟨before, behind, ?_, hpoints.start.symm, ?_⟩, fun emphasis => ?_⟩
  · rw [hpoints.slice_eq]
    exact hpoints.subject
  · rw [hpoints.slice_eq]
    omega
  · have hblanks : r.start.toNat = before.length := by
      rw [hpoints.start, Int.toNat_natCast]
    have htail : (r.stop - r.start - 1).toNat = span.length - 1 := by omega
    rw [hpoints.marking_eq (hspan hlocated), hblanks, htail]

/-- A definition with a parameter that cannot be a name is marked at the parameter. -/
theorem fault_of_enter_placed_parameter :
    let w := (new (.levels 300) .standard).enterAll ["let b = 5"]
    let r := (Fault.invalidName .aParameter "2b" "def f(a, 2b) = a + b").report
    w.enter "def f(a, 2b) = a + b" = .error (.invalidName .aParameter "2b" "def f(a, 2b) = a + b") ∧
      r.isLocated = true ∧ r.start < r.stop ∧
        r.marking .plain .error = "  def f(a, 2b) = a + b\n           ^~" := by
  intro w r
  have h : w.enter "def f(a, 2b) = a + b" =
      .error (.invalidName .aParameter "2b" "def f(a, 2b) = a + b") := rfl
  obtain ⟨-, -, -, hmarks⟩ := fault_of_enter_placed h
  have hlocated : r.isLocated = true := by decide +kernel
  obtain ⟨hlt, -, hmarking⟩ := hmarks hlocated
  refine ⟨h, hlocated, hlt, (hmarking .error).trans ?_⟩
  decide +kernel

end World

end Abacus
