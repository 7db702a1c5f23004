namespace Workflow

/-- A table from names to values, kept in increasing order of its names. -/
abbrev Assoc (α : Type) := List (String × α)

namespace Assoc

variable {α β : Type}

def get? : Assoc α → String → Option α
  | [], _ => none
  | (k, v) :: rest, name => if k = name then some v else get? rest name

def contains (t : Assoc α) (name : String) : Bool := (t.get? name).isSome

/-- Put `value` under `name`, in place of what was there. -/
def insert : Assoc α → String → α → Assoc α
  | [], name, value => [(name, value)]
  | (k, v) :: rest, name, value =>
    if k = name then (name, value) :: rest
    else if name < k then (name, value) :: (k, v) :: rest
    else (k, v) :: insert rest name value

/-- Put `value` under `name` unless the name is taken. -/
def insertNew (t : Assoc α) (name : String) (value : α) : Assoc α :=
  if t.contains name then t else t.insert name value

def erase (t : Assoc α) (name : String) : Assoc α := t.filter (fun e => e.1 ≠ name)

def keys (t : Assoc α) : List String := t.map Prod.fst

def values (t : Assoc α) : List α := t.map Prod.snd

def mapValues (f : α → β) (t : Assoc α) : Assoc β := t.map (fun e => (e.1, f e.2))

/-- The table of a list of entries in any order; of equal names the last counts. -/
def ofList (entries : List (String × α)) : Assoc α :=
  entries.foldl (fun t e => t.insert e.1 e.2) []

@[simp] theorem get?_nil (name : String) : get? ([] : Assoc α) name = none := rfl

theorem get?_insert_self (t : Assoc α) (name : String) (value : α) :
    (t.insert name value).get? name = some value := by
  induction t with
  | nil => simp [insert, get?]
  | cons e rest ih =>
    unfold insert
    split
    · simp [get?]
    · split
      · simp [get?]
      · simp [get?, *]

theorem get?_insert_of_ne (t : Assoc α) {name other : String} (value : α) (h : name ≠ other) :
    (t.insert name value).get? other = t.get? other := by
  induction t with
  | nil => simp [insert, get?, h]
  | cons e rest ih =>
    unfold insert
    split
    · next hk => simp [get?, h, hk]
    · split
      · simp [get?, h]
      · simp [get?, ih]

end Assoc

end Workflow
