namespace ShellCore

/-!
# Finite tables

A table binds keys to values. It is read by key only, so two tables that answer
every lookup alike are the same table to every user; the order of the entries
carries no meaning. Binding a key again replaces what it was bound to.
-/

/-- Bindings from keys to values, at most one of which answers a lookup. -/
structure Table (κ : Type) (ν : Type) where
  entries : List (κ × ν)
  deriving Repr

namespace Table

variable {κ ν : Type} [DecidableEq κ]

/-- The table that binds nothing. -/
def empty : Table κ ν where
  entries := []

instance : Inhabited (Table κ ν) where
  default := ⟨[]⟩

/-- The value bound to a key. -/
def get?
    (table : Table κ ν)
    (key : κ) :
    Option ν :=
  (table.entries.find? fun entry => entry.1 = key).map (·.2)

/-- Whether a key is bound. -/
def contains
    (table : Table κ ν)
    (key : κ) :
    Bool :=
  (table.get? key).isSome

/-- Remove the binding of a key. -/
def erase
    (table : Table κ ν)
    (key : κ) :
    Table κ ν where
  entries := table.entries.filter fun entry => entry.1 ≠ key

/-- Bind a key, replacing its earlier binding. -/
def insert
    (table : Table κ ν)
    (key : κ)
    (value : ν) :
    Table κ ν where
  entries := (key, value) :: (table.erase key).entries

/-- Bind a key to a value, or leave it unbound. -/
def set
    (table : Table κ ν)
    (key : κ) :
    Option ν →
    Table κ ν
  | some value => table.insert key value
  | none => table.erase key

/-- Bind the listed pairs in order; a later pair replaces an earlier one. -/
def ofList
    (entries : List (κ × ν)) :
    Table κ ν :=
  entries.foldl (fun table entry => table.insert entry.1 entry.2) empty

@[simp] theorem get?_empty
    (key : κ) :
    (empty : Table κ ν).get? key = none :=
  rfl

@[simp] theorem get?_erase_self
    (table : Table κ ν)
    (key : κ) :
    (table.erase key).get? key = none := by
  simp [get?, erase]

theorem get?_erase_of_ne
    (table : Table κ ν)
    {key other : κ}
    (distinct : other ≠ key) :
    (table.erase key).get? other = table.get? other := by
  have condition :
      (fun entry : κ × ν =>
        decide (decide (entry.1 ≠ key) = true ∧ decide (entry.1 = other) = true)) =
        fun entry => decide (entry.1 = other) := by
    funext entry
    by_cases found : entry.1 = other
    · simp [found, distinct]
    · simp [found]
  simp only [get?, erase, List.find?_filter, condition]

@[simp] theorem get?_insert_self
    (table : Table κ ν)
    (key : κ)
    (value : ν) :
    (table.insert key value).get? key = some value := by
  simp [get?, insert]

theorem get?_insert_of_ne
    (table : Table κ ν)
    {key other : κ}
    (value : ν)
    (distinct : other ≠ key) :
    (table.insert key value).get? other = table.get? other := by
  rw [← table.get?_erase_of_ne distinct]
  simp [get?, insert, Ne.symm distinct]

/-- What a table answers after one key has been set. -/
theorem get?_set
    (table : Table κ ν)
    (key other : κ)
    (value : Option ν) :
    (table.set key value).get? other =
      if other = key then value else table.get? other := by
  by_cases same : other = key
  · subst same
    cases value <;> simp [set]
  · cases value <;>
      simp [set, same, get?_erase_of_ne, get?_insert_of_ne]

/-- Two tables that no lookup tells apart. -/
def Agrees
    (left right : Table κ ν) :
    Prop :=
  ∀ key, left.get? key = right.get? key

theorem Agrees.refl
    (table : Table κ ν) :
    Agrees table table :=
  fun _ => rfl

theorem Agrees.trans
    {left middle right : Table κ ν}
    (first : Agrees left middle)
    (second : Agrees middle right) :
    Agrees left right :=
  fun key => (first key).trans (second key)

/-- Setting one key alike keeps two tables alike. -/
theorem Agrees.set
    {left right : Table κ ν}
    (agree : Agrees left right)
    (key : κ)
    (value : Option ν) :
    Agrees (left.set key value) (right.set key value) := by
  intro other
  rw [get?_set, get?_set, agree other]

/-- Putting back the old binding of a key undoes any change made to it. -/
theorem agrees_set_get?
    (table : Table κ ν)
    (key : κ)
    (value : Option ν) :
    Agrees ((table.set key value).set key (table.get? key)) table := by
  intro other
  by_cases same : other = key
  · subst same
    simp [get?_set]
  · simp [get?_set, same]

end Table

end ShellCore
