/-!
# Dictionaries

A dictionary is a list of keys with values, in ascending order of keys. Keys are compared by code
point, which for UTF-8 is the order of the encoded bytes. `Ascending` states the order; every
function here keeps it.
-/

namespace FlatQuery

/-- Keys with values, kept in ascending order of keys. -/
abbrev Dict (β : Type) := List (String × β)

namespace Dict

variable {β γ : Type}

/-- Each key comes strictly before the keys after it, so no key occurs twice. -/
def Ascending (d : Dict β) : Prop :=
  d.Pairwise fun a b => a.1 < b.1

/-- The value under `key`. -/
def find? (d : Dict β) (key : String) : Option β :=
  (List.find? (fun entry => entry.1 == key) d).map Prod.snd

def contains (d : Dict β) (key : String) : Bool :=
  (find? d key).isSome

def keys (d : Dict β) : List String :=
  d.map Prod.fst

/-- Puts `value` under `key`, in place of a value that was there. -/
def insert : Dict β → String → β → Dict β
  | [], key, value => [(key, value)]
  | (k, v) :: d, key, value =>
    if key = k then (key, value) :: d
    else if key < k then (key, value) :: (k, v) :: d
    else (k, v) :: insert d key value

/-- The entries of `new` are put into `d` one after the other, so the last of equal keys stays. -/
def insertAll (d : Dict β) (new : List (String × β)) : Dict β :=
  new.foldl (fun acc entry => insert acc entry.1 entry.2) d

/-- The dictionary of any list of entries; of equal keys the last one stays. -/
def ofList (entries : List (String × β)) : Dict β :=
  insertAll [] entries

def mapValues (f : String → β → γ) (d : Dict β) : Dict γ :=
  d.map fun entry => (entry.1, f entry.1 entry.2)

@[simp] theorem find?_nil (key : String) : find? ([] : Dict β) key = none := rfl

theorem find?_cons (k : String) (v : β) (d : Dict β) (key : String) :
    find? ((k, v) :: d) key = if k = key then some v else find? d key := by
  by_cases h : k = key <;> simp [find?, h]

@[simp] theorem find?_insert_self (d : Dict β) (key : String) (value : β) :
    find? (insert d key value) key = some value := by
  induction d with
  | nil => simp [insert, find?_cons]
  | cons entry d ih =>
    obtain ⟨k, v⟩ := entry
    unfold insert
    split
    · simp [find?_cons]
    · split
      · simp [find?_cons]
      · rename_i h _
        simp [find?_cons, Ne.symm h, ih]

theorem find?_insert_of_ne (d : Dict β) {key other : String} (value : β) (h : other ≠ key) :
    find? (insert d key value) other = find? d other := by
  induction d with
  | nil => simp [insert, find?_cons, Ne.symm h]
  | cons entry d ih =>
    obtain ⟨k, v⟩ := entry
    unfold insert
    split
    · rename_i hk
      subst hk
      simp [find?_cons, Ne.symm h]
    · split <;> simp [find?_cons, Ne.symm h, ih]

end Dict

end FlatQuery
