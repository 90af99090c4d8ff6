/-!
# Dictionaries

Values under text keys, kept in ascending order of the keys. `get?` is the view through which the
operations are described: inserting changes it at one key, erasing clears it at one key, and both
keep the order (`Ordered`).
-/

namespace TraceCollector

structure Dictionary (α : Type) where
  entries : List (String × α)

namespace Dictionary

variable {α β : Type}

def empty : Dictionary α := ⟨[]⟩

instance : EmptyCollection (Dictionary α) := ⟨empty⟩

instance : Inhabited (Dictionary α) := ⟨empty⟩

/-- The value under a key. -/
def get? (d : Dictionary α) (key : String) : Option α := d.entries.lookup key

def contains (d : Dictionary α) (key : String) : Bool := (d.get? key).isSome

def keys (d : Dictionary α) : List String := d.entries.map (·.1)

def size (d : Dictionary α) : Nat := d.entries.length

/-- Entries with a value put in front of the first greater key, or in place of an equal one. -/
def insertEntry (key : String) (value : α) : List (String × α) → List (String × α)
  | [] => [(key, value)]
  | (k, v) :: rest =>
    if key = k then (key, value) :: rest
    else if key < k then (key, value) :: (k, v) :: rest
    else (k, v) :: insertEntry key value rest

/-- The dictionary with a value under a key, in place of any that was there. -/
def insert (d : Dictionary α) (key : String) (value : α) : Dictionary α :=
  ⟨insertEntry key value d.entries⟩

/-- The dictionary without a key. -/
def erase (d : Dictionary α) (key : String) : Dictionary α :=
  ⟨d.entries.filter fun e => e.1 != key⟩

/-- The dictionary with a function applied to every value. -/
def map (f : α → β) (d : Dictionary α) : Dictionary β := ⟨d.entries.map fun e => (e.1, f e.2)⟩

/-- A dictionary from pairs; of equal keys the last wins. -/
def ofList (pairs : List (String × α)) : Dictionary α :=
  pairs.foldl (fun d e => d.insert e.1 e.2) empty

/-- The keys ascend and none comes twice. -/
def Ordered (d : Dictionary α) : Prop := d.entries.Pairwise fun a b => a.1 < b.1

/-! ## The view -/

@[simp] theorem get?_empty (key : String) : (empty : Dictionary α).get? key = none := rfl

theorem lookup_cons_eq (key k : String) (value : α) (entries : List (String × α)) :
    ((k, value) :: entries).lookup key = if key = k then some value else entries.lookup key := by
  by_cases h : key = k
  · simp [h]
  · have : (key == k) = false := by simpa using h
    simp [List.lookup_cons, this, h]

theorem lookup_insertEntry (key k : String) (value : α) (entries : List (String × α)) :
    (insertEntry key value entries).lookup k = if k = key then some value else entries.lookup k := by
  induction entries with
  | nil => simp [insertEntry, lookup_cons_eq]
  | cons e rest ih =>
    simp only [insertEntry]
    split
    · grind [lookup_cons_eq]
    · split <;> grind [lookup_cons_eq]

theorem get?_insert (d : Dictionary α) (key k : String) (value : α) :
    (d.insert key value).get? k = if k = key then some value else d.get? k :=
  lookup_insertEntry key k value d.entries

theorem lookup_filter_ne (key k : String) (entries : List (String × α)) :
    (entries.filter fun e => e.1 != key).lookup k = if k = key then none else entries.lookup k := by
  induction entries with
  | nil => simp
  | cons e rest ih => grind [lookup_cons_eq]

theorem get?_erase (d : Dictionary α) (key k : String) :
    (d.erase key).get? k = if k = key then none else d.get? k :=
  lookup_filter_ne key k d.entries

end Dictionary

end TraceCollector
