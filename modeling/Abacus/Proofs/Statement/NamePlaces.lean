import Abacus.Proofs.Fault
import Abacus.Proofs.Session.Spans
import Mathlib.Data.List.Sublists

/-!
# Where an invalid name stands in its line

A name is cut out of a line between the marks around it: behind the word that opens the line,
behind a parenthesis or behind a comma. Its report finds it again by a search, which takes the
first place where the same characters stand. So the report points at the name itself exactly if
the name does not occur in front of its own place. A name without blanks inside that is given to a
variable or a function occurs there only if it is the word that opens the line. For a parameter
also the name of the function and the parameters in front of it are searched.

## Main definitions

* `Abacus.Statement.Padded` — a name with blanks around it.
* `Abacus.Statement.Slot` — where the name of a variable, a function or a parameter stands in a
  line.

## Main results

* `Abacus.Statement.exists_slot` — an invalid name is the one in its slot.
* `Abacus.Statement.infix_front_iff` — when a name without blanks occurs in front of its place.
* `Abacus.Statement.points_at_first_occurrence` — what the report of an invalid name points at.
-/

namespace Abacus.Statement

open Text (Blank strip isBlank isWord)

variable {limits : Limits} {role : NameRole} {line name subject : String} {c : Char}
  {cs bs field before span behind left inside right rest others : List Char}
  {fields pieces : List (List Char)}

/-! ## Slots -/

/-- A name with nothing but blanks around it. -/
structure Padded (field before span behind : List Char) : Prop where
  eq : field = before ++ span ++ behind
  before : Blank before
  behind : Blank behind
  strip : Text.strip field = span

/-- Where the name of a variable, a function or a parameter stands in a line: what stands in front
of the name, the name itself, and what stands behind it. A parameter is the first one that cannot
be a name. -/
inductive Slot : NameRole → List Char → List Char → List Char → Prop where
  /-- Between the word that opens a binding and the equals sign that splits it. -/
  | ofBinding {bs left right before span behind : List Char} (hbs : Blank bs)
      (hword : ∀ c ∈ (left ++ '=' :: right).head?, isWord c = false)
      (hsplit : splitBinding (left ++ '=' :: right) = some (left, right))
      (hfield : Padded left before span behind) :
      Slot .aVariable (bs ++ "let".toList ++ before) span (behind ++ '=' :: right)
  /-- Between the word that opens a definition and the first parenthesis. -/
  | ofDefinition {bs left rest before span behind : List Char} (hbs : Blank bs)
      (hword : ∀ c ∈ (left ++ '(' :: rest).head?, isWord c = false) (hleft : '(' ∉ left)
      (hfield : Padded left before span behind) :
      Slot .aFunction (bs ++ "def".toList ++ before) span (behind ++ '(' :: rest)
  /-- Between the commas of a list of parameters, which ends with the next closing parenthesis. -/
  | ofParameter {bs left field others rest before span behind : List Char}
      {fields : List (List Char)}
      (hbs : Blank bs) (hleft : '(' ∉ left)
      (hfields : ∀ f ∈ fields, ',' ∉ f ∧ ')' ∉ f ∧ isName (strip f) = true)
      (hcomma : ',' ∉ field) (hothers : ∀ c ∈ others.head?, c = ',')
      (hclose : ')' ∉ field ++ others)
      (hfield : Padded field before span behind) :
      Slot .aParameter
        (bs ++ "def".toList ++ left ++ '(' :: (fields.flatMap (fun f => f ++ [',']) ++ before)) span
        (behind ++ others ++ ')' :: rest)

/-- What is left of a text without blanks has blanks around it. -/
lemma exists_padded (field : List Char) :
    ∃ before behind, Padded field before (strip field) behind := by
  obtain ⟨before, behind, hbefore, hbehind, hfield⟩ := Text.exists_strip field
  exact ⟨before, behind, hfield, hbefore, hbehind, rfl⟩

/-! ## The places that parts are cut from -/

/-- An equals sign that is found in a text is found in every longer one, if no arrow is
completed. -/
lemma equalsSign?_append_right {i : Nat} (h : equalsSign? cs = some i) (hbs : bs.head? ≠ some '>') :
    equalsSign? (cs ++ bs) = some i := by
  fun_induction equalsSign? cs generalizing i with
  | case1 => cases h
  | case2 cs ih =>
    obtain ⟨j, hj, rfl⟩ := Option.map_eq_some_iff.mp h
    rw [List.cons_append, List.cons_append, equalsSign?, ih hj]
    rfl
  | case3 cs hne =>
    cases h
    refine equalsSign?_equals fun hhead => ?_
    cases cs with
    | nil => exact hbs hhead
    | cons c cs =>
      cases hhead
      exact hne cs rfl
  | case4 c cs _ hc ih =>
    obtain ⟨j, hj, rfl⟩ := Option.map_eq_some_iff.mp h
    rw [List.cons_append, equalsSign?_cons hc, ih hj]
    rfl

/-- A binding is split at the same place if blanks follow it. -/
lemma splitBinding_blanks (h : splitBinding cs = some (left, right)) (hbs : Blank bs) :
    splitBinding (cs ++ bs) = some (left, right ++ bs) := by
  have hhead : bs.head? ≠ some '>' := by
    intro hhead
    exact absurd (hbs '>' (List.mem_of_mem_head? hhead)) (by decide)
  obtain ⟨rfl, -⟩ := eq_of_splitBinding h
  obtain ⟨i, hi, hparts⟩ := Option.map_eq_some_iff.mp h
  obtain ⟨htake, -⟩ := Prod.mk.inj hparts
  have hlength : i = left.length := by
    have hle : i ≤ (left ++ '=' :: right).length := by
      obtain ⟨left', right', hcs, rfl, -⟩ := exists_of_equalsSign? hi
      rw [hcs, List.length_append]
      omega
    have hlength := congrArg List.length htake
    rw [List.length_take, Nat.min_eq_left hle] at hlength
    exact hlength
  rw [splitBinding, equalsSign?_append_right hi hhead, Option.map_some, hlength, List.append_assoc,
    List.take_left, List.cons_append, List.drop_append]
  simp

/-- The pieces in front of a piece have commas behind them. -/
lemma exists_of_splitOn_comma (h : Text.splitOn ',' inside = fields ++ field :: pieces) :
    ∃ others, inside = fields.flatMap (fun f => f ++ [',']) ++ field ++ others ∧
      (∀ f ∈ fields, ',' ∉ f) ∧ ',' ∉ field ∧ ∀ c ∈ others.head?, c = ',' := by
  induction fields generalizing inside with
  | nil =>
    obtain ⟨hfield, ⟨-, rfl⟩ | ⟨b, rfl, -⟩⟩ := Text.exists_of_splitOn h
    · exact ⟨[], by simp, by simp, hfield, by simp⟩
    · exact ⟨',' :: b, by simp, by simp, hfield, by simp⟩
  | cons f fields ih =>
    obtain ⟨hf, ⟨hnil, -⟩ | ⟨b, rfl, hb⟩⟩ := Text.exists_of_splitOn h
    · exact absurd hnil (by simp)
    · obtain ⟨others, rfl, hfields, hfield, hothers⟩ := ih hb
      exact ⟨others, by simp, List.forall_mem_cons.mpr ⟨hf, hfields⟩, hfield, hothers⟩

/-- The parameter that is refused is the first one that cannot be a name. -/
lemma exists_of_admitParams {seen : List String}
    (h : admitParams line seen pieces = .error (.invalidName role name subject)) :
    ∃ fields field rest, pieces = fields ++ field :: rest ∧
      (∀ f ∈ fields, isName (strip f) = true) ∧
      role = .aParameter ∧ subject = line ∧ name = String.ofList (strip field) ∧
      isName (strip field) = false := by
  induction pieces generalizing seen with
  | nil => cases h
  | cons piece pieces ih =>
    rw [admitParams, admitName, String.toList_ofList] at h
    split at h
    · rename_i hpiece
      change (if String.ofList (strip piece) ∈ seen then _ else _) = _ at h
      split at h
      · cases h
      · obtain ⟨fields, field, rest, rfl, hfields, hrest⟩ := ih h
        exact ⟨piece :: fields, field, rest, rfl, List.forall_mem_cons.mpr ⟨hpiece, hfields⟩, hrest⟩
    · rename_i hpiece
      cases h
      exact ⟨[], piece, pieces, rfl, by simp, rfl, rfl, rfl, Bool.eq_false_iff.mpr hpiece⟩

/-- A term that cannot be read is no invalid name. -/
lemma readTerm_ne_invalidName : readTerm limits cs ≠ .error (.invalidName role name subject) := by
  intro h
  rw [readTerm, Expr.parse, Result.bind_eq_error_iff] at h
  rcases h with h | ⟨tokens, -, h⟩
  · rw [tokensOf, Result.mapError_eq_error_iff] at h
    obtain ⟨position, -, hfault⟩ := h
    cases hfault
  · rw [Expr.ofTokens, Result.mapError_eq_error_iff] at h
    obtain ⟨stuck, -, hfault⟩ := h
    cases stuck <;> cases hfault

/-- A name that is refused is no name. -/
lemma of_admitName {role' : NameRole} {text : String}
    (h : admitName role' text line = .error (.invalidName role name subject)) :
    role = role' ∧ name = text ∧ subject = line ∧ isName text.toList = false := by
  rw [admitName] at h
  split at h
  · cases h
  · rename_i hname
    cases h
    exact ⟨rfl, rfl, rfl, Bool.eq_false_iff.mpr hname⟩

/-- How a text opens that is read as a binding or a definition. -/
lemma opensWith_of_opening : (opening cs = .binding → opensWith "let".toList cs = true) ∧
    (opening cs = .definition → opensWith "def".toList cs = true) := by
  unfold opening
  constructor
  · intro h
    split at h
    · assumption
    · split at h <;> cases h
  · intro h
    split at h
    · cases h
    · split at h
      · assumption
      · cases h

/-- The name of a binding that is refused stands in its slot. -/
lemma exists_slot_of_readBinding (hbs : Blank bs) (hbehind : Blank behind)
    (hword : ∀ c ∈ rest.head?, isWord c = false)
    (h : readBinding limits ("let".toList ++ rest) line = .error (.invalidName role name subject)) :
    subject = line ∧ isName name.toList = false ∧ ∃ front back,
      bs ++ ("let".toList ++ rest) ++ behind = front ++ name.toList ++ back ∧
        Slot role front name.toList back := by
  have hdrop : ("let".toList ++ rest).drop 3 = rest := rfl
  rw [readBinding, hdrop] at h
  split at h
  · cases h
  · rename_i left right hparts
    rw [Result.bind_eq_error_iff] at h
    rcases h with h | ⟨name', -, h⟩
    · obtain ⟨rfl, rfl, rfl, hname⟩ := of_admitName h
      rw [String.toList_ofList] at hname ⊢
      obtain ⟨before, back, hfield⟩ := exists_padded left
      have hsplit := splitBinding_blanks hparts hbehind
      obtain ⟨rfl, -⟩ := eq_of_splitBinding hparts
      rw [List.append_assoc, List.cons_append] at hsplit
      refine ⟨rfl, hname, bs ++ "let".toList ++ before, back ++ '=' :: (right ++ behind), ?_, ?_⟩
      · conv_lhs => rw [hfield.eq]
        simp
      · refine .ofBinding hbs ?_ hsplit hfield
        -- The character behind the word is the same with more blanks at the end.
        intro c hc
        refine hword c ?_
        cases left <;> exact hc
    · rw [Result.bind_eq_error_iff] at h
      rcases h with h | ⟨term, -, h⟩
      · exact absurd h readTerm_ne_invalidName
      · exact absurd h Result.pure_ne_error

/-- The name of a definition that is refused, or of one of its parameters, stands in its slot. -/
lemma exists_slot_of_readDefinition (hbs : Blank bs)
    (hword : ∀ c ∈ rest.head?, isWord c = false)
    (h : readDefinition limits ("def".toList ++ rest) line =
      .error (.invalidName role name subject)) :
    subject = line ∧ isName name.toList = false ∧ ∃ front back,
      bs ++ ("def".toList ++ rest) ++ behind = front ++ name.toList ++ back ∧
        Slot role front name.toList back := by
  rw [readDefinition] at h
  split at h
  · cases h
  · rename_i left inside right hparts
    obtain ⟨gap, -, hleft, hinside, -, hrest⟩ := splitDefinition_eq_some_iff.mp hparts
    obtain rfl := List.append_cancel_left hrest
    simp only [Result.bind_eq_error_iff, Result.pure_ne_error, and_false, exists_false,
      or_false] at h
    -- refused is the name, one of the parameters, or the right side, which has no invalid names
    rcases h with h | ⟨name', -, h | ⟨params, -, h⟩⟩
    · obtain ⟨rfl, rfl, rfl, hname⟩ := of_admitName h
      rw [String.toList_ofList] at hname ⊢
      obtain ⟨before, back, hfield⟩ := exists_padded left
      refine ⟨rfl, hname, bs ++ "def".toList ++ before,
        back ++ '(' :: (inside ++ ')' :: (gap ++ '=' :: right) ++ behind), ?_, ?_⟩
      · conv_lhs => rw [hfield.eq]
        simp
      · refine .ofDefinition hbs ?_ hleft hfield
        intro c hc
        refine hword c ?_
        cases left <;> exact hc
    · obtain ⟨fields, field, pieces, hpieces, hnames, rfl, rfl, rfl, hname⟩ :=
        exists_of_admitParams h
      rw [String.toList_ofList]
      -- a parameter was refused, so there are pieces, and they are those between the commas
      have hsplit : Text.splitOn ',' inside = fields ++ field :: pieces := by
        rw [paramPieces] at hpieces
        split at hpieces
        · exact absurd hpieces (by simp)
        · exact hpieces
      obtain ⟨others, rfl, hfields, hcomma, hothers⟩ := exists_of_splitOn_comma hsplit
      obtain ⟨before, back, hfield⟩ := exists_padded field
      rw [List.append_assoc, List.mem_append, not_or] at hinside
      refine ⟨rfl, hname, bs ++ "def".toList ++ left ++
          '(' :: (fields.flatMap (fun f => f ++ [',']) ++ before),
        back ++ others ++ ')' :: (gap ++ '=' :: right ++ behind), ?_, ?_⟩
      · conv_lhs => rw [hfield.eq]
        simp
      · refine .ofParameter hbs hleft
          (fun f hf => ⟨hfields f hf, fun hmem => ?_, hnames f hf⟩) hcomma hothers
          hinside.2 hfield
        exact hinside.1 (List.mem_flatMap.mpr ⟨f, hf, List.mem_append_left _ hmem⟩)
    · exact absurd h readTerm_ne_invalidName

/-- An invalid name is the one that stands in its slot. -/
theorem exists_slot (h : ofLine limits line = .error (.invalidName role name subject)) :
    subject = line ∧ isName name.toList = false ∧ ∃ before behind,
      line.toList = before ++ name.toList ++ behind ∧ Slot role before name.toList behind := by
  obtain ⟨bs, bs', hbs, hbs', hline⟩ := Text.exists_strip line.toList
  unfold ofLine read at h
  rw [Result.bind_eq_error_iff] at h
  rcases h with h | ⟨form, -, h⟩
  · rw [hline]
    generalize strip line.toList = cs at h ⊢
    cases hopening : opening cs with
    | binding =>
      rw [hopening] at h
      obtain ⟨rest, rfl, hword⟩ := opensWith_eq_true_iff.mp (opensWith_of_opening.1 hopening)
      exact exists_slot_of_readBinding hbs hbs' hword h
    | definition =>
      rw [hopening] at h
      obtain ⟨rest, rfl, hword⟩ := opensWith_eq_true_iff.mp (opensWith_of_opening.2 hopening)
      exact exists_slot_of_readDefinition hbs hword h
    | expression =>
      rw [hopening, readForm, Result.map_eq_error_iff] at h
      exact absurd h readTerm_ne_invalidName
  · exact absurd h Result.pure_ne_error

/-! ## Names in front of their places -/

section Front

variable {word : List Char}

/-- A text is a part of what stands on one side of a character that it does not have. -/
lemma infix_of_infix_cons (hspan : span ≠ []) (hc : c ∉ span) (h : span <:+: cs ++ c :: rest) :
    span <:+: cs ∨ span <:+: rest := by
  have hstart : ∀ ds : List Char, ds ≠ [] → (∀ d ∈ ds, d ∈ span) → ¬ ds <+: c :: rest := by
    intro ds hds hsub hprefix
    obtain ⟨d, ds, rfl⟩ := List.exists_cons_of_ne_nil hds
    obtain ⟨rfl, -⟩ := List.cons_prefix_cons.mp hprefix
    exact hc (hsub d List.mem_cons_self)
  rcases List.infix_append_iff_ne_nil.mp h with h | h | ⟨as, ds, -, hds, rfl, -, hprefix⟩
  · exact .inl h
  · exact .inr ((List.infix_cons_iff.mp h).resolve_left (hstart span hspan fun _ hd => hd))
  · exact absurd hprefix (hstart ds hds fun d hd => List.mem_append_right as hd)

/-- A text without blanks is a part of what stands behind blanks. -/
lemma infix_of_blanks_append (hspan : span ≠ []) (hplain : ∀ c ∈ span, isBlank c = false)
    (hbs : Blank bs) (h : span <:+: bs ++ rest) : span <:+: rest := by
  induction bs with
  | nil => exact h
  | cons b bs ih =>
    have hb : b ∉ span := by
      intro hmem
      have hblank := hbs b List.mem_cons_self
      rw [hplain b hmem] at hblank
      cases hblank
    have h : span <:+: [] ++ b :: (bs ++ rest) := h
    rcases infix_of_infix_cons hspan hb h with hnil | hbehind
    · exact absurd (List.infix_nil.mp hnil) hspan
    · exact ih (fun c hc => hbs c (List.mem_cons_of_mem b hc)) hbehind

/-- The parts of a word that opens a line are names, all but the word itself. -/
lemma eq_of_infix_word (hword : word = "let".toList ∨ word = "def".toList) (h : span <:+: word)
    (hspan : span ≠ []) (hname : isName span = false) : span = word := by
  have hparts : ∀ w ∈ ["let".toList, "def".toList],
      ∀ x ∈ w.sublists, x = [] ∨ x = w ∨ isName x = true := by
    decide +kernel
  have hmem : word ∈ ["let".toList, "def".toList] := by
    rcases hword with rfl | rfl <;> simp
  rcases hparts word hmem span (List.mem_sublists.mpr h.sublist) with h | h | h
  · exact absurd h hspan
  · exact h
  · rw [hname] at h
    cases h

/-- The characters of a word that opens a line are word characters. -/
lemma isWord_of_mem_word (hword : word = "let".toList ∨ word = "def".toList) (hc : c ∈ word) :
    isWord c = true := by
  have hletters : "letdef".toList.all Char.isAlphanum = true := by decide
  rw [List.all_eq_true] at hletters
  refine Text.isWord_of_isAlphanum (hletters c ?_)
  rcases hword with rfl | rfl
  · exact List.mem_append_left "def".toList hc
  · exact List.mem_append_right "let".toList hc

/-- A name without blanks that stands behind the word that opens a line, and is refused, occurs in
front of its place exactly if it is that word.

**Proof sketch.** The name cannot reach over the blanks in front of the word or behind it, and it
is too long for what is left of itself. If there are no blanks behind the word, the name does not
start with a word character, so that it cannot start inside of the word either. -/
lemma infix_front_iff (hword : word = "let".toList ∨ word = "def".toList) (hbs : Blank bs)
    (hbefore : Blank before) (hnext : ∀ c ∈ (before ++ span).head?, isWord c = false)
    (hspan : span ≠ []) (hplain : ∀ c ∈ span, isBlank c = false) (hname : isName span = false) :
    span <:+: (bs ++ word ++ before ++ span).dropLast ↔ span = word := by
  rw [List.dropLast_append_of_ne_nil hspan, List.append_assoc, List.append_assoc]
  constructor
  · intro h
    have h := infix_of_blanks_append hspan hplain hbs h
    cases before with
    | nil =>
      obtain ⟨c, cs, rfl⟩ := List.exists_cons_of_ne_nil hspan
      have hc : c ∉ word := by
        intro hmem
        have hfalse : isWord c = false := hnext c rfl
        rw [isWord_of_mem_word hword hmem] at hfalse
        cases hfalse
      rcases List.infix_append_iff_ne_nil.mp h with h | h | ⟨as, ds, has, -, heq, hsuffix, -⟩
      · exact absurd (h.mem List.mem_cons_self) hc
      · exact absurd h (Text.not_infix_dropLast hspan)
      · obtain ⟨a, as, rfl⟩ := List.exists_cons_of_ne_nil has
        obtain ⟨rfl, -⟩ := List.cons.inj heq
        exact absurd (hsuffix.mem List.mem_cons_self) hc
    | cons b before =>
      have hb : b ∉ span := by
        intro hmem
        have hblank := hbefore b List.mem_cons_self
        rw [hplain b hmem] at hblank
        cases hblank
      rcases infix_of_infix_cons hspan hb h with h | h
      · exact eq_of_infix_word hword h hspan hname
      · have h := infix_of_blanks_append hspan hplain
          (fun c hc => hbefore c (List.mem_cons_of_mem b hc)) h
        exact absurd h (Text.not_infix_dropLast hspan)
  · rintro rfl
    exact ⟨bs, before ++ span.dropLast, by simp⟩

end Front

/-! ## Reports of invalid names -/

/-- A name without blanks in the slot of a variable or a function occurs in front of the slot
exactly if it is the word that opens the line. -/
lemma Slot.infix_iff (h : Slot role before span behind) (hspan : span ≠ [])
    (hplain : ∀ c ∈ span, isBlank c = false) (hname : isName span = false) :
    (role = .aVariable → (span <:+: (before ++ span).dropLast ↔ span = "let".toList)) ∧
      (role = .aFunction → (span <:+: (before ++ span).dropLast ↔ span = "def".toList)) := by
  have hhead : ∀ {left front back mark : List Char}, Padded left front span back →
      (∀ c ∈ (left ++ mark).head?, isWord c = false) →
        ∀ c ∈ (front ++ span).head?, isWord c = false := by
    intro left front back mark hfield hword c hc
    refine hword c ?_
    rw [hfield.eq, List.append_assoc, List.head?_append, hc]
    rfl
  cases h with
  | ofBinding hbs hword hsplit hfield =>
    refine ⟨fun _ => ?_, fun hrole => (by cases hrole)⟩
    exact infix_front_iff (.inl rfl) hbs hfield.before (hhead hfield hword) hspan hplain hname
  | ofDefinition hbs hword hleft hfield =>
    refine ⟨fun hrole => (by cases hrole), fun _ => ?_⟩
    exact infix_front_iff (.inr rfl) hbs hfield.before (hhead hfield hword) hspan hplain hname
  | ofParameter => exact ⟨fun hrole => (by cases hrole), fun hrole => (by cases hrole)⟩

/-- The report of an invalid name that stands in its line points at the name where it is found
first. -/
lemma report_invalidName (role : NameRole) (hname : name ≠ "")
    (hline : line.toList = before ++ name.toList ++ behind) :
    let r := (Fault.invalidName role name line).report
    r.subject = line ∧ r.isLocated = true ∧
      (∃ before behind, r.PointsAt before name.toList behind) ∧
      r.start ≤ before.length ∧
      (r.start = before.length ↔ ¬ name.toList <:+: (before ++ name.toList).dropLast) := by
  intro r
  have hspan : name.toList ≠ [] := fun h => hname (String.toList_eq_nil_iff.mp h)
  obtain ⟨i, hi, hfind⟩ := Text.exists_find?_le hline
  have hiff := Text.find?_eq_iff hspan hline
  rw [hfind, Option.some.injEq] at hiff
  have hlocate : Fault.locate? name line = some i := by
    rw [Fault.locate?, if_neg (by simpa [String.isEmpty_iff] using hname), hfind]
  obtain ⟨message, hreport⟩ : ∃ message, r = .within message line i (i + name.length) := by
    rw [show r = (Fault.invalidName role name line).report from rfl, Fault.report, hlocate]
    exact ⟨_, rfl⟩
  obtain ⟨front, back, hfront, rfl⟩ := Text.exists_of_find? hfind
  rw [hreport]
  refine ⟨rfl, rfl, ⟨front, back, hfront, rfl, ?_⟩, ?_, ?_⟩
  · show (front.length : Int) + name.length = front.length + name.toList.length
    rw [String.length_toList]
  · show (front.length : Int) ≤ before.length
    exact Int.ofNat_le.mpr hi
  · show (front.length : Int) = before.length ↔ _
    rw [Int.natCast_inj, hiff]

/-- **The report of an invalid name points at the first place where the characters of the name
stand in the line.** Let a line be refused because of a name that is not empty. The name stands in
its slot: between the word that opens the line and the equals sign that splits it, or the first
parenthesis, or inside of its own field of the parameters. What the report points at is the name
as well, and it does not stand behind the slot. It is the name in the slot exactly if the name
does not occur in the line before. A name without blanks inside that is given to a variable or to
a function occurs there only if it is the word that opens the line.

**Proof sketch.** A line is refused because of a name only after the name was cut out of its slot
(`exists_slot`). The report then looks for the characters of the name from the start of the line
(`report_invalidName`), so it cannot find them behind the slot, and it finds them before it exactly
if they occur there. For a variable or a function nothing but the opening word and blanks stands
before the slot, and a name without blanks occurs in that only if it is a part of the word, of which
every proper part would be a name that is allowed (`Slot.infix_iff`). -/
theorem points_at_first_occurrence
    (h : ofLine limits line = .error (.invalidName role name subject)) (hname : name ≠ "") :
    let r := (Fault.invalidName role name subject).report
    (∃ before behind, line.toList = before ++ name.toList ++ behind ∧
        Slot role before name.toList behind) ∧
      r.subject = line ∧ r.isLocated = true ∧
        (∃ before behind, r.PointsAt before name.toList behind) ∧
      ∀ before behind, line.toList = before ++ name.toList ++ behind →
        Slot role before name.toList behind →
          r.start ≤ before.length ∧
          (r.start = before.length ↔ ¬ name.toList <:+: (before ++ name.toList).dropLast) ∧
          ((∀ c ∈ name.toList, isBlank c = false) →
            (role = .aVariable → (r.start = before.length ↔ name ≠ "let")) ∧
              (role = .aFunction → (r.start = before.length ↔ name ≠ "def"))) := by
  intro r
  obtain ⟨rfl, hnoname, before, behind, hline, hslot⟩ := exists_slot h
  have hspan : name.toList ≠ [] := fun h => hname (String.toList_eq_nil_iff.mp h)
  obtain ⟨hsubject, hlocated, hpoints, -⟩ := report_invalidName role hname hline
  refine ⟨⟨before, behind, hline, hslot⟩, hsubject, hlocated, hpoints,
    fun before behind hline hslot => ?_⟩
  obtain ⟨-, -, -, hle, hiff⟩ := report_invalidName role hname hline
  refine ⟨hle, hiff, fun hplain => ?_⟩
  obtain ⟨hlet, hdef⟩ := hslot.infix_iff hspan hplain hnoname
  refine ⟨fun hrole => ?_, fun hrole => ?_⟩
  · rw [hiff, hlet hrole, String.toList_inj]
  · rw [hiff, hdef hrole, String.toList_inj]

/-- A parameter that cannot be a name, behind a function that has the same character in its name. -/
theorem points_at_first_occurrence_parameter :
    let r := (Fault.invalidName .aParameter "2" "def f2(a, 2) = a").report
    ofLine .standard "def f2(a, 2) = a" = .error (.invalidName .aParameter "2" "def f2(a, 2) = a") ∧
      "2" ≠ "" ∧ Slot .aParameter "def f2(a, ".toList "2".toList ") = a".toList ∧
      r.start = 5 ∧ r.start ≤ 10 ∧ (r.start = 10 ↔ ¬ "2".toList <:+: "def f2(a, ".toList) := by
  intro r
  have h : ofLine .standard "def f2(a, 2) = a" =
      .error (.invalidName .aParameter "2" "def f2(a, 2) = a") := rfl
  have hslot : Slot .aParameter "def f2(a, ".toList "2".toList ") = a".toList :=
    @Slot.ofParameter [] " f2".toList " 2".toList [] " = a".toList [' '] ['2'] [] [['a']]
      Text.blank_nil (by decide) (by decide) (by decide) (by simp) (by decide)
      ⟨rfl, Text.blank_space, Text.blank_nil, rfl⟩
  obtain ⟨-, -, -, -, hplace⟩ := points_at_first_occurrence h (by decide)
  obtain ⟨hle, hiff, -⟩ := hplace _ _ rfl hslot
  exact ⟨h, by decide, hslot, by decide +kernel, hle, hiff⟩

/-- The report of an invalid name can miss the name: in a binding of the word that opens it the
word itself is pointed at. -/
theorem points_beside_slot :
    let r := (Fault.invalidName .aVariable "let" "let let = 5").report
    ofLine .standard "let let = 5" = .error (.invalidName .aVariable "let" "let let = 5") ∧
      "let let = 5".toList = "let ".toList ++ "let".toList ++ " = 5".toList ∧
      Slot .aVariable "let ".toList "let".toList " = 5".toList ∧
      r.isLocated = true ∧ r.start = 0 ∧ r.stop = 3 ∧ r.start ≠ "let ".length := by
  intro r
  have hword : ∀ c ∈ (" let ".toList ++ '=' :: " 5".toList).head?, isWord c = false := by
    intro c hc
    cases hc
    exact isWord_of_isBlank (by decide)
  refine ⟨rfl, rfl, ?_, by decide +kernel, by decide +kernel, by decide +kernel, by decide +kernel⟩
  exact @Slot.ofBinding [] " let ".toList " 5".toList [' '] "let".toList [' ']
    Text.blank_nil hword rfl
    ⟨rfl, Text.blank_space, Text.blank_space, rfl⟩

end Abacus.Statement
