/-!
# Tables

Names with what they are bound to, in the order in which they were first bound. Binding a name again
keeps its place.

## Main definitions

* `Abacus.Table` — tables, with `Table.get?`, `Table.set` and `Table.setAll`.
* `Abacus.Table.filterMap` — the table of those entries that a function keeps.
-/

namespace Abacus

/-- A table of names, as a list of entries. Tables that are built with `Table.set` never have two
entries with one name, but the type admits them, and the first one counts. -/
structure Table (α : Type) where
  /-- The names with their values, the oldest one first. -/
  entries : List (String × α)

namespace Table

variable {α β : Type}

/-- The table without names. -/
def empty : Table α := ⟨[]⟩

/-- A table without names, where any table will do. -/
instance : Inhabited (Table α) := ⟨empty⟩

/-- The value of the first entry with a name, if there is one. -/
def getEntry? (name : String) : List (String × α) → Option α
  | [] => none
  | entry :: entries => if entry.1 = name then some entry.2 else getEntry? name entries

/-- What a name is bound to, if it is bound. -/
def get? (t : Table α) (name : String) : Option α := getEntry? name t.entries

/-- Whether a name is bound. -/
def contains (t : Table α) (name : String) : Bool := (t.get? name).isSome

/-- The names, in the order of the table, which is the order in which they are listed to a user. -/
def names (t : Table α) : List String := t.entries.map (·.1)

/-- Puts an entry in the place of the one with the same name, or else at the end. The entries
around it stay where they are. -/
def setEntry (name : String) (value : α) : List (String × α) → List (String × α)
  | [] => [(name, value)]
  | entry :: entries =>
    if entry.1 = name then (name, value) :: entries else entry :: setEntry name value entries

/-- Binds a name. If it is bound already, the new value takes the place of the old one. -/
def set (t : Table α) (name : String) (value : α) : Table α := ⟨setEntry name value t.entries⟩

/-- Binds names one after another. Of two bindings of one name the later one counts. -/
def setAll (t : Table α) (bindings : List (String × α)) : Table α :=
  bindings.foldl (fun t b => t.set b.1 b.2) t

/-- The same names, in the same order, with their values changed. -/
def map (f : α → β) (t : Table α) : Table β := ⟨t.entries.map fun e => (e.1, f e.2)⟩

/-- The names whose values are kept, with what they are kept as. The others are left out, and the
order stays. -/
def filterMap (f : α → Option β) (t : Table α) : Table β :=
  ⟨t.entries.filterMap fun e => (f e.2).map (e.1, ·)⟩

/-! ## Looking up what was bound -/

/-- After a name is bound, it has its new value and all others have their old ones. -/
theorem get?_set (t : Table α) (name other : String) (value : α) :
    (t.set name value).get? other = if name = other then some value else t.get? other := by
  obtain ⟨entries⟩ := t
  simp only [get?, set]
  induction entries with
  | nil => rfl
  | cons entry entries ih =>
    by_cases h : entry.1 = name
    · by_cases h' : name = other <;> simp [setEntry, getEntry?, h, h']
    · by_cases h' : entry.1 = other
      · subst h'
        simp [setEntry, getEntry?, h, Ne.symm h]
      · simp [setEntry, getEntry?, h, h', ih]

/-- A name that was just bound has the value that it was bound to. -/
@[simp]
theorem get?_set_self (t : Table α) (name : String) (value : α) :
    (t.set name value).get? name = some value := by
  simp [get?_set]

end Table

end Abacus
