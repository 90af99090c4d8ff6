import TraceCollector.Json.Skip

/-!
# Readers, lists and objects

A `Reader` takes at least one byte for each value, so the loops over the elements of a list and
over the members of an object end: the bytes that are left get fewer with every round.
-/

namespace TraceCollector.Json

/-- A way to read values, each from one byte at least. -/
structure Reader (α : Type) where
  run : List UInt8 → Step α
  shrinks : ∀ {s r : List UInt8} {a : α}, run s = .ok (a, r) → r.length < s.length

/-- What comes next between brackets. -/
inductive Next where
  /-- An element, or what follows the quotation mark of a key. -/
  | entry (s : List UInt8)
  /-- The bracket was closed. -/
  | closed (r : List UInt8)

/-- Looks for the next element of a list; `first` before any element was read. -/
def nextItem (first : Bool) (s : List UInt8) : Except Stop Next :=
  match skipBlanks s with
  | [] => .error (stopAt .endInList [])
  | 93 :: r => .ok (.closed r)
  | 44 :: r =>
    if first then .ok (.entry (44 :: r))
    else
      match skipBlanks r with
      | [] => .error (stopAt .endInValue [])
      | 93 :: r => .error (stopAt .trailingComma (93 :: r))
      | r => .ok (.entry r)
  | r => if first then .ok (.entry r) else .error (stopAt .expectedListEnd r)

/-- Looks for the next key of an object; `first` before any key was read. -/
def nextKey (first : Bool) (s : List UInt8) : Except Stop Next :=
  match skipBlanks s with
  | [] => .error (stopAt .endInObject [])
  | 125 :: r => .ok (.closed r)
  | 44 :: r =>
    if first then .error (stopAt .keyNotString (44 :: r))
    else
      match skipBlanks r with
      | [] => .error (stopAt .endInValue [])
      | 34 :: r => .ok (.entry r)
      | 125 :: r => .error (stopAt .trailingComma (125 :: r))
      | r => .error (stopAt .keyNotString r)
  | 34 :: r => if first then .ok (.entry r) else .error (stopAt .expectedObjectEnd (34 :: r))
  | r => .error (stopAt (if first then .keyNotString else .expectedObjectEnd) r)

theorem length_of_nextItem {first : Bool} {s : List UInt8} :
    (∀ {t}, nextItem first s = .ok (.entry t) → t.length ≤ s.length) ∧
      ∀ {r}, nextItem first s = .ok (.closed r) → r.length < s.length := by
  have := length_skipBlanks_le s
  fun_cases nextItem first s
  all_goals grind [length_skipBlanks_le, nextItem]

theorem length_of_nextKey {first : Bool} {s : List UInt8} :
    (∀ {t}, nextKey first s = .ok (.entry t) → t.length < s.length) ∧
      ∀ {r}, nextKey first s = .ok (.closed r) → r.length < s.length := by
  have := length_skipBlanks_le s
  fun_cases nextKey first s
  all_goals grind [length_skipBlanks_le, nextKey]

/-- The elements up to the closing bracket of a list. -/
def items {α : Type} (item : Reader α) (first : Bool) (s : List UInt8) : Step (List α) :=
  match _ : nextItem first s with
  | .error stop => .error stop
  | .ok (.closed r) => .ok ([], r)
  | .ok (.entry t) =>
    match _ : item.run t with
    | .error stop => .error stop
    | .ok (a, r) =>
      match items item false r with
      | .error stop => .error stop
      | .ok (as, r) => .ok (a :: as, r)
termination_by s.length
decreasing_by
  have := length_of_nextItem.1 ‹nextItem first s = _›
  have := item.shrinks ‹item.run t = _›
  omega

/-- What a member of an object is read as: nothing when only its grammar counts. -/
abbrev MemberReader := Reader (Option Value)

/-- The stop for a member that is refused. Its place is behind the blanks that follow the key, and
behind the closing bracket if that comes next. -/
def refuseMember (what : Mismatch) (s : List UInt8) : Stop :=
  match skipBlanks s with
  | 125 :: r => stopBefore (.mismatch what) r
  | r => stopBefore (.mismatch what) r

/-- The members up to the closing bracket of an object. `plan` is asked for each key, with what has
been read before it. -/
def members (plan : Dictionary Value → String → Except Mismatch MemberReader) (first : Bool)
    (read : Dictionary Value) (s : List UInt8) : Step (Dictionary Value) :=
  match _ : nextKey first s with
  | .error stop => .error stop
  | .ok (.closed r) => .ok (read, r)
  | .ok (.entry t) =>
    match _ : string t with
    | .error stop => .error stop
    | .ok (key, t) =>
      match plan read key with
      | .error what => .error (refuseMember what t)
      | .ok value =>
        match _ : colon t with
        | .error stop => .error stop
        | .ok t =>
          match _ : value.run t with
          | .error stop => .error stop
          | .ok (none, r) => members plan false read r
          | .ok (some v, r) => members plan false (read.insert key v) r
termination_by s.length
decreasing_by
  all_goals
    have := length_of_nextKey.1 ‹nextKey first s = _›
    have := length_lt_of_string ‹string _ = _›
    have := length_lt_of_colon ‹colon _ = _›
    have := value.shrinks ‹value.run _ = _›
    omega

theorem length_lt_of_items {α : Type} {item : Reader α} {first : Bool} {s r : List UInt8}
    {as : List α} (h : items item first s = .ok (as, r)) : r.length < s.length := by
  fun_induction items item first s generalizing as r
  · cases h
  · cases h; exact length_of_nextItem.2 ‹_›
  · cases h
  · cases h
  · next h₁ _ _ h₂ _ _ h₃ ih =>
    cases h
    have := length_of_nextItem.1 h₁
    have := item.shrinks h₂
    have := ih h₃
    omega

theorem length_lt_of_members {plan : Dictionary Value → String → Except Mismatch MemberReader}
    {first : Bool} {read all : Dictionary Value} {s r : List UInt8}
    (h : members plan first read s = .ok (all, r)) : r.length < s.length := by
  fun_induction members plan first read s
  · cases h
  · cases h; exact length_of_nextKey.2 ‹_›
  · cases h
  · cases h
  · cases h
  · cases h
  all_goals
    rename_i ih
    have := length_of_nextKey.1 ‹nextKey _ _ = _›
    have := length_lt_of_string ‹string _ = _›
    have := length_lt_of_colon ‹colon _ = _›
    have := Reader.shrinks _ ‹Reader.run _ _ = _›
    have := ih h
    omega

end TraceCollector.Json
