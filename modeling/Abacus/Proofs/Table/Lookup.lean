import Abacus.Proofs.Table
import Mathlib.Data.List.Forall2

/-!
# Looking up in tables made from others

What a name is bound to in a table whose values were changed or left out, or in which several
names were bound, and that none of this binds a name twice.

## Main results

* `Abacus.Table.get?_map`, `Abacus.Table.get?_filterMap` — tables with other values.
* `Abacus.Table.get?_setAll_zip`, `Abacus.Table.get?_setAll_of_notMem` — tables in which names
  were bound one after another.
* `Abacus.Table.nodup_names_setAll` — no name is bound twice by that.
-/

namespace Abacus.Table

variable {α β : Type} {t : Table α} {t' : Table β} {name : String} {ps : List String}

/-! ## Other values -/

/-- A name that is bound to nothing is not among the names. -/
lemma get?_eq_none_iff : t.get? name = none ↔ name ∉ t.names := by
  obtain ⟨entries⟩ := t
  simp only [get?, names]
  induction entries with
  | nil => simp only [List.map_nil, getEntry?, List.not_mem_nil, not_false_iff]
  | cons entry entries ih =>
    by_cases h : entry.1 = name
    · simp [h, getEntry?]
    · simp [h, getEntry?, ih, Ne.symm h]

/-- What a name is bound to is an entry of the table. -/
lemma mem_entries_of_get? {value : α} (h : t.get? name = some value) :
    (name, value) ∈ t.entries := by
  obtain ⟨entries⟩ := t
  simp only [get?] at h
  induction entries with
  | nil => cases h
  | cons entry entries ih =>
    by_cases hentry : entry.1 = name
    · rw [ getEntry?, if_pos hentry, Option.some.injEq] at h
      subst hentry h
      exact List.mem_cons_self
    · rw [ getEntry?, if_neg hentry] at h
      exact List.mem_cons_of_mem entry (ih h)

/-- An entry of a table without repeated names is what its name is bound to. -/
lemma get?_of_mem_entries {entry : String × α} (h : t.names.Nodup) (hentry : entry ∈ t.entries) :
    t.get? entry.1 = some entry.2 := by
  obtain ⟨entries⟩ := t
  simp only [get?, names] at h hentry ⊢
  induction entries with
  | nil => cases hentry
  | cons first entries ih =>
    rw [List.map_cons, List.nodup_cons] at h
    rcases List.mem_cons.mp hentry with rfl | hmem
    · exact if_pos rfl
    · have hne : first.1 ≠ entry.1 := fun heq => h.1 (heq ▸ List.mem_map_of_mem hmem)
      rw [ getEntry?, if_neg hne, ih h.2 hmem]

/-- Of two tables, one behind the other, the first one in which a name is bound counts. -/
lemma get?_append (t u : Table α) (name : String) :
    get? ⟨t.entries ++ u.entries⟩ name = (t.get? name).or (u.get? name) := by
  obtain ⟨entries⟩ := t
  simp only [get?]
  induction entries with
  | nil => rfl
  | cons entry entries ih =>
    by_cases h : entry.1 = name
    · simp [h, getEntry?]
    · simp [h, getEntry?, ih]

/-- Entries that are left out by their names. -/
lemma get?_filter (p : String → Bool) (t : Table α) (name : String) :
    get? ⟨t.entries.filter fun e => p e.1⟩ name = if p name then t.get? name else none := by
  obtain ⟨entries⟩ := t
  simp only [get?]
  induction entries with
  | nil => simp only [List.filter_nil, getEntry?, ite_self]
  | cons entry entries ih =>
    by_cases h : entry.1 = name
    · by_cases hp : p name <;> simp [h, getEntry?, hp, ih]
    · by_cases hp : p entry.1 <;> simp [h, getEntry?, hp, ih]

/-- Changed values are those of the same names. -/
lemma get?_map (f : α → β) (t : Table α) (name : String) :
    (t.map f).get? name = (t.get? name).map f := by
  obtain ⟨entries⟩ := t
  simp only [get?, map]
  induction entries with
  | nil => rfl
  | cons entry entries ih =>
    by_cases h : entry.1 = name
    · simp [h, getEntry?]
    · simp [h, getEntry?, ih]

/-- A table in which no name is bound twice shows what is kept of each of its values. -/
lemma get?_filterMap (h : t.names.Nodup) (f : α → Option β) (name : String) :
    (t.filterMap f).get? name = (t.get? name).bind f := by
  obtain ⟨entries⟩ := t
  simp only [get?, filterMap]
  induction entries with
  | nil => rfl
  | cons entry entries ih =>
    rw [names, List.map_cons, List.nodup_cons] at h
    have hrest := ih h.2
    by_cases hname : entry.1 = name
    · -- an entry that is left out hides no other entry of its name, as there is none
      subst hname
      have hnone : getEntry? entry.1 entries = none := get?_eq_none_iff.mpr h.1
      rw [hnone] at hrest
      cases hf : f entry.2 <;> simp [hf, getEntry?, hrest]
    · cases hf : f entry.2 <;> simp [hf, getEntry?, hname, hrest]

/-- Changing the values keeps the names. -/
lemma names_map (f : α → β) (t : Table α) : (t.map f).names = t.names := by
  simp [names, map]

/-- Leaving out entries binds no name twice. -/
lemma nodup_names_filterMap (h : t.names.Nodup) (f : α → Option β) :
    (t.filterMap f).names.Nodup := by
  obtain ⟨entries⟩ := t
  refine List.Nodup.sublist ?_ h
  simp only [names, filterMap]
  induction entries with
  | nil => simp
  | cons entry entries ih =>
    rw [names, List.map_cons, List.nodup_cons] at h
    cases hf : f entry.2 with
    | none => simpa [hf] using (ih h.2).cons entry.1
    | some b => simpa [hf] using ih h.2

/-! ## Names that are bound one after another -/

/-- Names bound one after another to related values are related if they were before. -/
lemma get?_setAll_zip {r : α → β → Prop} {R : Option α → Option β → Prop} {vs : List α}
    {vs' : List β} (hsome : ∀ {a b}, r a b → R (some a) (some b)) (hvs : List.Forall₂ r vs vs')
    (h : R (t.get? name) (t'.get? name)) :
    R ((t.setAll (ps.zip vs)).get? name) ((t'.setAll (ps.zip vs')).get? name) := by
  induction hvs generalizing t t' ps with
  | nil => simpa [setAll] using h
  | @cons v v' vs vs' hv hvs ih =>
    cases ps with
    | nil => simpa [setAll] using h
    | cons p ps =>
      show R (((t.set p v).setAll (ps.zip vs)).get? name)
        (((t'.set p v').setAll (ps.zip vs')).get? name)
      apply ih
      rw [get?_set, get?_set]
      split
      · exact hsome hv
      · exact h

/-- A name that is not among those that are bound keeps its value. -/
lemma get?_setAll_of_notMem (h : name ∉ ps) (vs : List α) :
    (t.setAll (ps.zip vs)).get? name = t.get? name := by
  induction ps generalizing t vs with
  | nil => rfl
  | cons p ps ih =>
    rw [List.mem_cons, not_or] at h
    cases vs with
    | nil => rfl
    | cons v vs =>
      show ((t.set p v).setAll (ps.zip vs)).get? name = t.get? name
      rw [ih h.2, get?_set, if_neg (Ne.symm h.1)]

/-- No name is bound twice after names are bound one after another. -/
lemma nodup_names_setAll (h : t.names.Nodup) (bindings : List (String × α)) :
    (t.setAll bindings).names.Nodup := by
  induction bindings generalizing t with
  | nil => exact h
  | cons b bindings ih => exact ih (nodup_names_set h b.1 b.2)

end Abacus.Table
