/-!
# Tables that remember insertion order

A table is a list of keys with values.  Writing to a key that is present changes its value in place;
a new key goes to the end.  Documents, settings and declarations are all tables of this kind, and
their order is part of what is printed.
-/

namespace Scaffold.Table

variable {α β : Type} [DecidableEq α]

/-- The value of the first entry with a key. -/
def find? (key : α) : List (α × β) → Option β
  | [] => none
  | (k, v) :: rest => if k = key then some v else find? key rest

/-- Sets the value of a key: in place when the key is present, else at the end. -/
def put (key : α) (value : β) : List (α × β) → List (α × β)
  | [] => [(key, value)]
  | (k, v) :: rest => if k = key then (k, value) :: rest else (k, v) :: put key value rest

/-- Sets the value of a key unless it is present. -/
def putNew (key : α) (value : β) (table : List (α × β)) : List (α × β) :=
  match find? key table with
  | some _ => table
  | none => table ++ [(key, value)]

/-- Removes every entry with a key. -/
def erase (key : α) (table : List (α × β)) : List (α × β) := table.filter fun e => e.1 ≠ key

/-- Writes all entries of a second table over a first one, in order. -/
def overlay (table written : List (α × β)) : List (α × β) :=
  written.foldl (fun t e => put e.1 e.2 t) table

/-- A table of entries in which a repeated key keeps its first place and its last value. -/
def ofEntries (entries : List (α × β)) : List (α × β) := overlay [] entries

/-- The keys in order. -/
def keys (table : List (α × β)) : List α := table.map Prod.fst

@[simp] theorem find?_nil (key : α) : find? key ([] : List (α × β)) = none := rfl

/-- After a write, a key holds the value written and every other key what it held before. -/
theorem find?_put (key other : α) (value : β) (table : List (α × β)) :
    find? other (put key value table) = if key = other then some value else find? other table := by
  induction table with
  | nil => simp [put, find?]
  | cons e rest ih =>
    obtain ⟨k, v⟩ := e
    simp only [put]
    split
    · subst k; simp only [find?]; split <;> simp_all
    · simp only [find?, ih]; split <;> split <;> simp_all

theorem find?_append (key : α) (t u : List (α × β)) :
    find? key (t ++ u) = (find? key t).or (find? key u) := by
  induction t with
  | nil => simp [find?]
  | cons e rest ih => obtain ⟨k, v⟩ := e; simp only [List.cons_append, find?]; split <;> simp [ih]

/-- The keys after a write: the same ones, or one more at the end. -/
theorem keys_put (key : α) (value : β) (table : List (α × β)) :
    keys (put key value table) = if key ∈ keys table then keys table else keys table ++ [key] := by
  induction table with
  | nil => simp [put, keys]
  | cons e rest ih =>
    obtain ⟨k, v⟩ := e
    simp only [put]
    split
    · subst k; simp [keys]
    · rename_i h
      simp only [keys, List.map_cons, List.mem_cons] at ih ⊢
      have h' : ¬ key = k := fun hk => h hk.symm
      split <;> simp_all

end Scaffold.Table
