import Abacus.Proofs.Text.Marks
import Abacus.Script

/-!
# The statements of a file

A file is read line by line, and every line is skipped, begins a statement or goes on with the one
before it. This module proves that the statements stand one behind the other on the lines of the
file, so that nothing but blanks and comments is lost, and that reading the file line by line
always has a statement to go on with.

## Main definitions

* `Abacus.Script.uncommented`, `Abacus.Script.gathered` — a line without its comment, and the text
  of lines that hold one statement.
* `Abacus.Script.Block` — the lines that hold one statement.
* `Abacus.Script.Grouped` — how statements stand on the lines of a file.
* `Abacus.Script.Loading`, `Abacus.Script.load?` — a file that is read line by line.

## Main results

* `Abacus.Script.grouped_statements` — the statements of a file stand on its lines.
* `Abacus.Script.load?_eq_some` — reading line by line leads to these statements.
* `Abacus.Script.statements_lossless` — nothing is lost, and where each statement stands.
-/

namespace Abacus.Script

open Text

variable {n : Int} {line : List Char} {lines block front : List (List Char)} {e : Entry}
  {entries earlier later : List Entry}

/-! ## Lines without comments -/

/-- A line without its comment. -/
def uncommented (line : List Char) : List Char := before commentMark line

/-- The text of lines that hold one statement: what is left of each without its comment and
without blanks around it, with a space in front. -/
def gathered (lines : List (List Char)) : List Char :=
  lines.flatMap fun line => ' ' :: strip (uncommented line)

/-- No character of the mark of comments is blank. -/
lemma isBlank_of_mem_commentMark : ∀ c ∈ commentMark, isBlank c = false :=
  List.forall_mem_cons.mpr ⟨by decide, List.forall_mem_singleton.mpr (by decide)⟩

/-- What is left of a line without its comment does not depend on the blanks around the line. -/
lemma strip_uncommented_strip (line : List Char) :
    strip (uncommented (strip line)) = strip (uncommented line) := by
  obtain ⟨bs, bs', hbs, hbs', hline⟩ := exists_strip line
  obtain ⟨bs'', hbs'', hcut⟩ :=
    exists_before_append_blanks isBlank_of_mem_commentMark hbs' (strip line)
  have h : uncommented line = bs ++ uncommented (strip line) ++ bs'' := by
    rw [uncommented, uncommented, List.append_assoc, ← hcut,
      ← before_blanks (by decide) isBlank_of_mem_commentMark hbs, ← List.append_assoc, ← hline]
  rw [h, strip_blanks hbs hbs'']

/-- A line that is skipped has nothing but blanks in front of its comment. -/
lemma isSkipped_eq_true_iff : isSkipped line = true ↔ nonBlanks (uncommented line) = [] := by
  rw [← nonBlanks_strip, ← strip_uncommented_strip, nonBlanks_strip, isSkipped, Bool.or_eq_true,
    List.isEmpty_iff, List.isPrefixOf_iff_prefix]
  cases hstrip : strip line with
  | nil => exact iff_of_true (.inl rfl) (by rw [uncommented, before_nil]; rfl)
  | cons c cs =>
    have hc : isBlank c = false := isBlank_of_strip hstrip
    rw [or_iff_right (List.cons_ne_nil c cs), uncommented]
    by_cases hmark : commentMark <+: c :: cs
    · exact iff_of_true hmark (by rw [before_eq_nil hmark]; rfl)
    · rw [before_cons hmark]
      exact iff_of_false hmark (by simp [nonBlanks, hc])

/-- Behind a text without a comment and a space, a line loses its own comment. -/
lemma content_append {cs : List Char} (hcs : ¬ commentMark <:+: cs) (line : List Char) :
    content (cs ++ ' ' :: line) = stripRight (cs ++ ' ' :: uncommented line) := by
  rw [content, before_append hcs (by decide)]
  rfl

/-- There is no comment in what is left of a line. -/
lemma not_infix_content (line : List Char) : ¬ commentMark <:+: content line := by
  intro h
  obtain ⟨bs, -, hline⟩ := exists_stripRight (before commentMark line)
  have hinfix : content line <:+: before commentMark line := ⟨[], bs, hline.symm⟩
  exact not_infix_before (by decide) line (h.trans hinfix)

/-! ## Open texts -/

/-- Whether a text is open depends on its characters that are not blank. -/
lemma isOpen_eq_of_nonBlanks {a b : List Char} (h : nonBlanks a = nonBlanks b) :
    isOpen a = isOpen b := by
  have hcount : ∀ c, isBlank c = false → ∀ cs : List Char, cs.count c = (nonBlanks cs).count c := by
    intro c hc cs
    rw [nonBlanks, List.count_filter (by simpa using hc)]
  rw [isOpen, isOpen, hcount ')' (by decide) a, hcount '(' (by decide) a, h,
    ← hcount ')' (by decide) b, ← hcount '(' (by decide) b]

/-- A text that is open is not blank. -/
lemma nonBlanks_ne_nil_of_isOpen {a : List Char} (h : isOpen a = true) : nonBlanks a ≠ [] := by
  intro hnil
  have hempty : isOpen a = isOpen [] := isOpen_eq_of_nonBlanks hnil
  rw [h] at hempty
  cases hempty

/-! ## The text of lines -/

/-- A line is joined to a text without its comment and without the blanks around it. -/
lemma join_eq (previous line : List Char) :
    join previous line = previous ++ ' ' :: strip (uncommented line) := by
  rw [join, content, strip_stripRight]
  rfl

/-- A line is joined to the text of the lines before it. -/
lemma join_gathered (front : List (List Char)) (line : List Char) :
    join (gathered front) line = gathered (front ++ [line]) := by
  rw [join_eq, gathered, gathered, List.flatMap_append]
  simp

/-- The text of lines has the characters that stand in front of their comments. -/
lemma nonBlanks_gathered (lines : List (List Char)) :
    nonBlanks (gathered lines) = nonBlanks (lines.flatMap uncommented) := by
  induction lines with
  | nil => rfl
  | cons line lines ih =>
    rw [gathered, List.flatMap_cons, ← gathered, nonBlanks_append, nonBlanks_space, nonBlanks_strip,
      ih, List.flatMap_cons, nonBlanks_append]

/-! ## Blocks of lines -/

/-- The lines that hold one statement: it begins on the first of them, and is open behind each one
but the last. -/
structure Block (block : List (List Char)) : Prop where
  starts : ∃ line rest, block = line :: rest ∧ nonBlanks (uncommented line) ≠ []
  opens : ∀ front back, block = front ++ back → front ≠ [] → back ≠ [] →
    isOpen (gathered front) = true

/-- A line that is not skipped begins a statement. -/
lemma Block.single (h : nonBlanks (uncommented line) ≠ []) : Block [line] where
  starts := ⟨line, [], rfl, h⟩
  opens := by
    intro front back hblock hfront hback
    cases front with
    | nil => exact absurd rfl hfront
    | cons l front =>
      obtain ⟨-, hnil⟩ := List.cons.inj hblock
      exact absurd (List.append_eq_nil_iff.mp hnil.symm).2 hback

/-- A statement that is open goes on over the next line. -/
lemma Block.concat (h : Block front) (hopen : isOpen (gathered front) = true) (line : List Char) :
    Block (front ++ [line]) where
  starts := by
    obtain ⟨first, rest, rfl, hfirst⟩ := h.starts
    exact ⟨first, rest ++ [line], rfl, hfirst⟩
  opens := by
    intro front' back hblock hfront hback
    rcases List.eq_nil_or_concat back with rfl | ⟨back, last, rfl⟩
    · exact absurd rfl hback
    · rw [List.concat_eq_append, ← List.append_assoc] at hblock
      obtain ⟨rfl, -⟩ := List.append_inj' hblock rfl
      cases back with
      | nil =>
        rw [List.append_nil] at hopen
        exact hopen
      | cons l back => exact h.opens front' (l :: back) rfl hfront (List.cons_ne_nil l back)

/-- The text of a statement starts with the first character of its first line. -/
lemma Block.exists_first (h : Block block) : ∃ line rest c cs cs', block = line :: rest ∧
    nonBlanks (uncommented line) = c :: cs ∧ strip (gathered block) = c :: cs' := by
  obtain ⟨line, rest, rfl, hline⟩ := h.starts
  obtain ⟨c, cs, hc⟩ := List.exists_cons_of_ne_nil hline
  have hall : nonBlanks (gathered (line :: rest)) =
      c :: (cs ++ nonBlanks (rest.flatMap uncommented)) := by
    rw [nonBlanks_gathered, List.flatMap_cons, nonBlanks_append, hc]
    rfl
  obtain ⟨cs', hcs'⟩ := exists_strip_eq_cons hall
  exact ⟨line, rest, c, cs, cs', rfl, hc, hcs'⟩

/-! ## Statements on the lines of a file -/

/-- A statement without the blanks around it. -/
def Entry.tidy (e : Entry) : Entry := ⟨strip e.text, e.line⟩

/-- `Grouped n lines entries` states that the statements `entries` stand on `lines`, of which the
first one has the number `n`: lines in between are skipped, and a statement that is still open
ends with the last line. -/
inductive Grouped : Int → List (List Char) → List Entry → Prop where
  | done {n : Int} : Grouped n [] []
  | skip {n : Int} {line : List Char} {lines : List (List Char)} {entries : List Entry}
      (hline : nonBlanks (uncommented line) = []) (h : Grouped (n + 1) lines entries) :
      Grouped n (line :: lines) entries
  | statement {n : Int} {block lines : List (List Char)} {entries : List Entry}
      (hblock : Block block)
      (hclosed : isOpen (gathered block) = false ∨ lines = [])
      (h : Grouped (n + block.length) lines entries) :
      Grouped n (block ++ lines) (⟨strip (gathered block), n⟩ :: entries)

/-- What is gathered from lines once the line above them has been joined to a statement. -/
def resume (e : Entry) (n : Int) (lines : List (List Char)) : List Entry :=
  if isOpen e.text then gather (some e) n lines else e :: gather none n lines

/-- A line that is not skipped begins a statement. -/
lemma gather_none_cons (h : ¬ isSkipped line = true) (n : Int) (lines : List (List Char)) :
    gather none n (line :: lines) = resume ⟨join [] line, n⟩ (n + 1) lines := by
  rw [gather, if_neg h]
  rfl

/-- A line goes on with the pending statement. -/
lemma gather_some_cons (e : Entry) (n : Int) (line : List Char) (lines : List (List Char)) :
    gather (some e) n (line :: lines) = resume ⟨join e.text line, e.line⟩ (n + 1) lines := by
  rw [gather]
  rfl

/-- What is gathered stands on the lines, and if a statement is pending, on those that it is
pending from as well.

**Proof sketch.** Induction on the lines, for both at once. A line that is joined to a pending
statement leaves it pending or completes it, and nothing is pending then. -/
lemma grouped_gather (lines : List (List Char)) :
    (∀ n, Grouped n lines ((gather none n lines).map Entry.tidy)) ∧
      ∀ n front, Block front → isOpen (gathered front) = true →
        Grouped n (front ++ lines)
          ((gather (some ⟨gathered front, n⟩) (n + front.length) lines).map Entry.tidy) := by
  induction lines with
  | nil => exact ⟨fun n => .done, fun n front hfront _ => .statement hfront (.inr rfl) .done⟩
  | cons line lines ih =>
    obtain ⟨hnone, hsome⟩ := ih
    have hresume : ∀ n front, Block (front ++ [line]) → Grouped n (front ++ line :: lines)
        ((resume ⟨join (gathered front) line, n⟩ (n + front.length + 1) lines).map Entry.tidy) := by
      intro n front hblock
      have hlines : front ++ line :: lines = (front ++ [line]) ++ lines := by simp
      have hlength : n + front.length + 1 = n + (front ++ [line]).length := by
        rw [List.length_append, List.length_singleton]
        omega
      rw [join_gathered, hlines, hlength, resume]
      split
      · rename_i hopen
        exact hsome n _ hblock hopen
      · rename_i hclosed
        exact .statement hblock (.inl (Bool.eq_false_iff.mpr hclosed)) (hnone _)
    refine ⟨fun n => ?_, fun n front hfront hopen => ?_⟩
    · by_cases hskip : isSkipped line = true
      · rw [gather, if_pos hskip]
        exact .skip (isSkipped_eq_true_iff.mp hskip) (hnone _)
      · rw [gather_none_cons hskip]
        have h := hresume n [] (Block.single (mt isSkipped_eq_true_iff.mpr hskip))
        simpa [gathered] using h
    · rw [gather_some_cons]
      exact hresume n front (hfront.concat hopen line)

namespace Grouped

/-- No statement is empty. -/
lemma text_ne_nil (h : Grouped n lines entries) (he : e ∈ entries) : e.text ≠ [] := by
  induction h with
  | done => cases he
  | skip _ _ ih => exact ih he
  | statement hblock _ _ ih =>
    rcases List.mem_cons.mp he with rfl | he
    · obtain ⟨-, -, c, -, cs, -, -, htext⟩ := hblock.exists_first
      simp [htext]
    · exact ih he

/-- No statement has blanks around it. -/
lemma strip_text (h : Grouped n lines entries) (he : e ∈ entries) : strip e.text = e.text := by
  induction h with
  | done => cases he
  | skip _ _ ih => exact ih he
  | statement _ _ _ ih =>
    rcases List.mem_cons.mp he with rfl | he
    · exact strip_strip _
    · exact ih he

/-- The statements have the characters that stand in front of comments, in order. -/
lemma nonBlanks_eq (h : Grouped n lines entries) :
    nonBlanks (entries.flatMap Entry.text) = nonBlanks (lines.flatMap uncommented) := by
  induction h with
  | done => rfl
  | skip hline _ ih => rw [List.flatMap_cons, nonBlanks_append, hline, List.nil_append, ih]
  | statement _ _ _ ih =>
    rw [List.flatMap_cons, List.flatMap_append, nonBlanks_append, nonBlanks_append, nonBlanks_strip,
      nonBlanks_gathered, ih]

/-- No statement stands above the first line. -/
lemma le_line (h : Grouped n lines entries) (he : e ∈ entries) : n ≤ e.line := by
  induction h with
  | done => cases he
  | skip _ _ ih =>
    have := ih he
    omega
  | statement _ _ _ ih =>
    rcases List.mem_cons.mp he with rfl | he
    · exact Int.le_refl _
    · have := ih he
      omega

/-- Every statement stands below the ones before it. -/
lemma pairwise_line (h : Grouped n lines entries) :
    entries.Pairwise fun e e' => e.line < e'.line := by
  induction h with
  | done => exact List.Pairwise.nil
  | skip _ _ ih => exact ih
  | statement hblock _ h ih =>
    refine List.pairwise_cons.mpr ⟨fun e he => ?_, ih⟩
    obtain ⟨line, rest, rfl, -⟩ := hblock.starts
    have hle := h.le_line he
    rw [List.length_cons] at hle
    exact Int.lt_of_lt_of_le (Int.lt_add_of_pos_right _ (by omega)) hle

/-- Without lines there are no statements. -/
lemma eq_nil (h : Grouped n [] entries) : entries = [] := by
  generalize hlines : [] = lines at h
  cases h with
  | done => rfl
  | skip => cases hlines
  | statement hblock =>
    obtain ⟨line, rest, rfl, -⟩ := hblock.starts
    cases hlines

/-- A statement stands on a block of lines, those before it above and those after it below. -/
lemma exists_block (h : Grouped n lines entries) (hentries : entries = earlier ++ e :: later) :
    ∃ above block below, lines = above ++ block ++ below ∧ Grouped n above earlier ∧ Block block ∧
      e = ⟨strip (gathered block), n + above.length⟩ ∧
      (isOpen (gathered block) = false ∨ later = [] ∧ below = []) := by
  induction h generalizing earlier with
  | done => simp at hentries
  | @skip n line lines entries hline _ ih =>
    obtain ⟨above, block, below, rfl, habove, hblock, rfl, hclosed⟩ := ih hentries
    refine ⟨line :: above, block, below, rfl, .skip hline habove, hblock, ?_, hclosed⟩
    rw [List.length_cons, Entry.mk.injEq]
    exact ⟨rfl, by omega⟩
  | @statement n block' lines entries hblock' hclosed' h ih =>
    cases earlier with
    | nil =>
      obtain ⟨rfl, rfl⟩ := List.cons.inj hentries
      refine ⟨[], block', lines, rfl, .done, hblock', by simp, hclosed'.imp_right ?_⟩
      rintro rfl
      exact ⟨h.eq_nil, rfl⟩
    | cons e' earlier =>
      obtain ⟨rfl, rfl⟩ := List.cons.inj hentries
      obtain ⟨above, block, below, rfl, habove, hblock, rfl, hclosed⟩ := ih rfl
      refine ⟨block' ++ above, block, below, by simp, ?_, hblock, ?_, hclosed⟩
      · refine .statement hblock' (hclosed'.imp_right fun hnil => ?_) habove
        simp only [List.append_eq_nil_iff] at hnil
        exact hnil.1.1
      · rw [List.length_append, Entry.mk.injEq]
        exact ⟨rfl, by omega⟩

end Grouped

/-- The statements of a file are what is gathered from its lines, without the blanks around them. -/
lemma statements_eq (file : List Char) :
    statements file = (gather none 1 (Text.lines file)).map Entry.tidy := by
  refine List.filter_eq_self.mpr fun e he => ?_
  simpa using ((grouped_gather (Text.lines file)).1 1).text_ne_nil he

/-- The statements of a file stand on its lines. -/
theorem grouped_statements (file : List Char) : Grouped 1 (Text.lines file) (statements file) := by
  rw [statements_eq]
  exact (grouped_gather (Text.lines file)).1 1

/-! ## Reading line by line -/

/-- A file that is being read: the statements so far, and whether the next line goes on with the
last of them. -/
structure Loading where
  entries : List Entry
  continues : Bool

namespace Loading

/-- No line has been read. -/
def start : Loading := ⟨[], false⟩

/-- Goes on with the last statement, if there is one. -/
def goOn? (loading : Loading) (line : List Char) : Option Loading :=
  if loading.entries.isEmpty then none
  else
    let (text, entries) := takeLine line true (some loading.entries)
    entries.map fun entries => ⟨entries, isOpen text⟩

/-- Reads a line. If it begins a statement, it goes on with an empty one. -/
def take? (loading : Loading) (n : Int) (line : List Char) : Option Loading :=
  if loading.continues then loading.goOn? line
  else if isSkipped line then some loading
  else goOn? ⟨loading.entries ++ [⟨[], n⟩], true⟩ line

end Loading

/-- Reads lines, the first of which has the given number. -/
def load? (loading : Loading) : Int → List (List Char) → Option Loading
  | _, [] => some loading
  | n, line :: lines => do
    let loading ← loading.take? n line
    load? loading (n + 1) lines

/-- A line is joined to the last statement. -/
lemma joinLast_concat (line : List Char) (entries : List Entry) (e : Entry) :
    joinLast line (entries ++ [e]) = entries ++ [⟨join e.text line, e.line⟩] := by
  induction entries with
  | nil => rfl
  | cons e' entries ih =>
    cases entries with
    | nil => rfl
    | cons e'' entries => exact congrArg (e' :: ·) ih

/-- Where there is a statement, reading goes on with it. -/
lemma Loading.goOn?_concat (entries : List Entry) (e : Entry) (continues : Bool)
    (line : List Char) :
    goOn? ⟨entries ++ [e], continues⟩ line =
      some ⟨entries ++ [⟨join e.text line, e.line⟩], isOpen (join e.text line)⟩ := by
  rw [goOn?, if_neg (by simp)]
  simp [takeLine, joinLast_concat]

/-- Reading lines never goes on without a statement, and leads to what is gathered from them. -/
lemma load?_eq_some (entries : List Entry) (pending : Option Entry) (n : Int)
    (lines : List (List Char)) : ∃ continues,
      load? ⟨entries ++ pending.toList, pending.isSome⟩ n lines =
        some ⟨entries ++ gather pending n lines, continues⟩ := by
  induction lines generalizing entries pending n with
  | nil =>
    refine ⟨pending.isSome, ?_⟩
    cases pending <;> rfl
  | cons line lines ih =>
    -- the line is taken into the statement `e`, which goes on or is closed by it
    have hgoOn : ∀ (e : Entry) (continues : Bool), ∃ continues',
        ((Loading.goOn? ⟨entries ++ [e], continues⟩ line).bind fun loading =>
          load? loading (n + 1) lines) =
        some ⟨entries ++ resume ⟨join e.text line, e.line⟩ (n + 1) lines, continues'⟩ := by
      intro e continues
      rw [Loading.goOn?_concat, Option.bind_some, resume]
      split
      · rename_i hopen
        rw [hopen]
        exact ih entries (some _) (n + 1)
      · rename_i hclosed
        rw [Bool.eq_false_iff.mpr hclosed]
        obtain ⟨continues', h⟩ := ih (entries ++ [⟨join e.text line, e.line⟩]) none (n + 1)
        refine ⟨continues', ?_⟩
        simpa using h
    cases pending with
    | some e =>
      rw [gather_some_cons]
      exact hgoOn e true
    | none =>
      by_cases hskip : isSkipped line = true
      · obtain ⟨continues, h⟩ := ih entries none (n + 1)
        refine ⟨continues, ?_⟩
        simpa [load?, Loading.take?, gather, hskip] using h
      · rw [gather_none_cons hskip]
        obtain ⟨continues, h⟩ := hgoOn ⟨[], n⟩ true
        refine ⟨continues, ?_⟩
        simpa [load?, Loading.take?, hskip] using h

/-! ## Whole files -/

/-- **Reading a file loses, repeats and reorders nothing.** The statements have exactly the
characters that stand in front of the comments of its lines, in order, blanks apart. No statement
is empty or has blanks around it, and each one stands on a line below that of the one before. It
stands on a block of lines: its text is what is gathered from them, its number is that of the
first one, and it starts with the first character there that is not blank. What comes before it
stands on the lines above. Behind each line of the block but the last it has more parentheses
opened than closed, and behind the last it has not, unless both the statements and the lines end
there. Reading line by line leads to the same statements, and never goes on with a statement where
there is none.

**Proof sketch.** The statements are grouped on the lines of the file (`grouped_gather`), and the
rest is induction on how they are. Reading line by line keeps the pending statement as the last of
its list (`load?_eq_some`), so a line that goes on finds it there. -/
theorem statements_lossless (file : List Char) :
    let lines := Text.lines file
    let entries := statements file
    nonBlanks (entries.flatMap Entry.text) = nonBlanks (lines.flatMap uncommented) ∧
    (∀ e ∈ entries, e.text ≠ [] ∧ strip e.text = e.text) ∧
    entries.Pairwise (fun e e' => e.line < e'.line) ∧
    (∀ earlier e later, entries = earlier ++ e :: later →
      ∃ above first rest below, lines = above ++ (first :: rest) ++ below ∧
        nonBlanks (earlier.flatMap Entry.text) = nonBlanks (above.flatMap uncommented) ∧
        e.line = (above.length : Int) + 1 ∧
        e.text = strip (gathered (first :: rest)) ∧
        (∃ c cs cs', nonBlanks (uncommented first) = c :: cs ∧ e.text = c :: cs') ∧
        (∀ front back, first :: rest = front ++ back → front ≠ [] → back ≠ [] →
          isOpen (gathered front) = true) ∧
        (isOpen (gathered (first :: rest)) = false ∨ later = [] ∧ below = [])) ∧
    ∃ loading, load? .start 1 lines = some loading ∧ loading.entries.map Entry.tidy = entries := by
  intro lines entries
  have h : Grouped 1 lines entries := grouped_statements file
  refine ⟨h.nonBlanks_eq, fun e he => ⟨h.text_ne_nil he, h.strip_text he⟩, h.pairwise_line, ?_, ?_⟩
  · intro earlier e later hentries
    obtain ⟨above, block, below, hlines, habove, hblock, rfl, hclosed⟩ := h.exists_block hentries
    obtain ⟨first, rest, c, cs, cs', rfl, hfirst, htext⟩ := hblock.exists_first
    exact ⟨above, first, rest, below, hlines, habove.nonBlanks_eq, Int.add_comm _ _, rfl,
      ⟨c, cs, cs', hfirst, htext⟩, hblock.opens, hclosed⟩
  · obtain ⟨continues, hload⟩ := load?_eq_some [] none 1 lines
    exact ⟨_, hload, (statements_eq file).symm⟩

/-- Inside a statement, blank lines and comments leave a space each. -/
example : statements "f(1, ;; one\n\n ;; none\n2)\n;; end\nx".toList =
    [⟨"f(1,   2)".toList, 1⟩, ⟨"x".toList, 6⟩] := by
  decide +kernel

end Abacus.Script
