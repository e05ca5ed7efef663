import Abacus.Table
import Mathlib.Data.List.Nodup

/-!
# Where a table changes

Binding a name changes a table at that name only: a new name comes last, and a name that is bound
already keeps its place among the others.

## Main definitions

* `Abacus.Table.Written` — how two tables of which one is the other with a name bound are related.

## Main results

* `Abacus.Table.written_set` — what binding a name changes.
* `Abacus.Table.nodup_names_set` — no name is bound twice.
-/

namespace Abacus.Table

variable {α : Type} {t t' : Table α} {name : String} {value former : α}
  {entries before behind : List (String × α)}

/-- `Written name value t t'` states that the table `t'` is the table `t` with the name bound to the
value: it is the last one if it was not bound, and else only its own value has changed. -/
def Written (name : String) (value : α) (t t' : Table α) : Prop :=
  (name ∉ t.names ∧ t'.entries = t.entries ++ [(name, value)]) ∨
    ∃ before former behind, t.entries = before ++ (name, former) :: behind ∧
      name ∉ before.map (·.1) ∧ name ∉ behind.map (·.1) ∧
      t'.entries = before ++ (name, value) :: behind

/-! ## Entries -/

/-- A new name comes last. -/
lemma setEntry_of_notMem (h : name ∉ entries.map (·.1)) :
    setEntry name value entries = entries ++ [(name, value)] := by
  induction entries with
  | nil => rfl
  | cons entry entries ih =>
    rw [List.map_cons, List.mem_cons, not_or] at h
    rw [setEntry, if_neg (Ne.symm h.1), ih h.2, List.cons_append]

/-- A name that is bound already keeps its place. -/
lemma setEntry_append (h : name ∉ before.map (·.1)) :
    setEntry name value (before ++ (name, former) :: behind) =
      before ++ (name, value) :: behind := by
  induction before with
  | nil => exact if_pos rfl
  | cons entry before ih =>
    rw [List.map_cons, List.mem_cons, not_or] at h
    rw [List.cons_append, setEntry, if_neg (Ne.symm h.1), ih h.2, List.cons_append]

/-- A name that is bound has a first place. -/
lemma exists_entry (h : name ∈ entries.map (·.1)) : ∃ before former behind,
    entries = before ++ (name, former) :: behind ∧ name ∉ before.map (·.1) := by
  induction entries with
  | nil => cases h
  | cons entry entries ih =>
    by_cases hentry : entry.1 = name
    · exact ⟨[], entry.2, entries, by rw [← hentry]; rfl, by simp⟩
    · rw [List.map_cons, List.mem_cons] at h
      obtain ⟨before, former, behind, rfl, hbefore⟩ := ih (h.resolve_left (Ne.symm hentry))
      refine ⟨entry :: before, former, behind, rfl, ?_⟩
      rw [List.map_cons, List.mem_cons, not_or]
      exact ⟨Ne.symm hentry, hbefore⟩

/-! ## Tables -/

/-- Binding a name changes a table without repeated names at that name only. -/
theorem written_set (h : t.names.Nodup) (name : String) (value : α) :
    Written name value t (t.set name value) := by
  by_cases hname : name ∈ t.names
  · right
    obtain ⟨before, former, behind, hentries, hbefore⟩ := exists_entry hname
    refine ⟨before, former, behind, hentries, hbefore, fun hmem => ?_, ?_⟩
    · rw [names, hentries, List.map_append, List.map_cons, List.nodup_append] at h
      exact (List.nodup_cons.mp h.2.1).1 hmem
    · rw [set, hentries, setEntry_append hbefore]
  · left
    exact ⟨hname, setEntry_of_notMem hname⟩

/-- The names of a table in which a name was bound. -/
lemma Written.names_eq (h : Written name value t t') :
    t'.names = t.names ∨ name ∉ t.names ∧ t'.names = t.names ++ [name] := by
  rcases h with ⟨hname, hentries⟩ | ⟨before, former, behind, ht, -, -, ht'⟩
  · right
    refine ⟨hname, ?_⟩
    rw [names, hentries, List.map_append]
    rfl
  · left
    rw [names, names, ht, ht', List.map_append, List.map_append]
    rfl

/-- No name is bound twice after a name is bound. -/
theorem nodup_names_set (h : t.names.Nodup) (name : String) (value : α) :
    (t.set name value).names.Nodup := by
  rcases (written_set h name value).names_eq with hnames | ⟨hname, hnames⟩
  · rw [hnames]
    exact h
  · rw [hnames, ← List.concat_eq_append]
    exact h.concat hname

end Abacus.Table
