import TraceCollector.Json.Decode
import TraceCollector.Json.Reader

/-!
# Reading by shape

A `Shape` says which values a reader accepts. What a record does not name is passed over, and a
record may also be written as the list of its fields. `Shape.read` gives the value that was read;
of a record this is the object of the named fields that were present.

Brackets may be nested to a depth of 127 (`depthLimit`).
-/

namespace TraceCollector.Json

/-- A field of a record; one that is not required may be absent. -/
structure Field (σ : Type) where
  name : String
  shape : σ
  required : Bool

inductive Shape where
  /-- Any value. -/
  | any
  | scalar (form : ScalarForm)
  /-- A scalar or null. -/
  | optional (form : ScalarForm)
  | list (item : Shape)
  /-- An object of any values. -/
  | dictionary
  /-- One of the names: a string, or an object of the name and null. -/
  | choice (variants : List String)
  | record (name : String) (fields : List (Field Shape))

/-! ## Values without parts -/

/-- A value that is neither a list nor an object. -/
def scalar : List UInt8 → Step Value
  | [] => .error (stopAt .endInValue [])
  | 110 :: s => readAs (fun _ => .null) (readUnit (word [117, 108, 108] s))
  | 116 :: s => readAs (fun _ => .bool true) (readUnit (word [114, 117, 101] s))
  | 102 :: s => readAs (fun _ => .bool false) (readUnit (word [97, 108, 115, 101] s))
  | 34 :: s => readAs .string (string s)
  | 45 :: s => readAs .number (number true s)
  | b :: s =>
    if (digit? b).isSome then readAs .number (number false (b :: s))
    else .error (stopAt .expectedValue (b :: s))

/-- The stop for a value that is not of the wanted form: behind it, but before a bracket. -/
def refuse (expected : Expected) : List UInt8 → Stop
  | 91 :: s => stopBefore (.mismatch (.unexpected .sequence expected)) (91 :: s)
  | 123 :: s => stopBefore (.mismatch (.unexpected .dictionary expected)) (123 :: s)
  | s =>
    match scalar s with
    | .ok (v, r) => stopBefore (.mismatch (v.unexpected expected)) r
    | .error stop => stop

/-- A value of a scalar form. -/
def scalarOf (form : ScalarForm) (s : List UInt8) : Step Value :=
  match s with
  | 91 :: _ | 123 :: _ => .error (refuse (.scalar form) s)
  | _ =>
    match scalar s with
    | .error stop => .error stop
    | .ok (v, r) =>
      match form.admit v with
      | .ok () => .ok (v, r)
      | .error what => .error (stopBefore (.mismatch what) r)

theorem length_lt_of_scalar {s r : List UInt8} {v : Value} (h : scalar s = .ok (v, r)) :
    r.length < s.length := by
  unfold scalar at h
  split at h
  · cases h
  · obtain ⟨_, h, _⟩ := readAs_eq_ok.1 h
    exact Nat.lt_succ_of_le (length_le_of_word (readUnit_eq_ok.1 h))
  · obtain ⟨_, h, _⟩ := readAs_eq_ok.1 h
    exact Nat.lt_succ_of_le (length_le_of_word (readUnit_eq_ok.1 h))
  · obtain ⟨_, h, _⟩ := readAs_eq_ok.1 h
    exact Nat.lt_succ_of_le (length_le_of_word (readUnit_eq_ok.1 h))
  · obtain ⟨_, h, _⟩ := readAs_eq_ok.1 h
    exact Nat.lt_succ_of_lt (length_lt_of_string h)
  · obtain ⟨_, h, _⟩ := readAs_eq_ok.1 h
    exact Nat.lt_succ_of_lt (length_lt_of_number h)
  · split at h
    · obtain ⟨_, h, _⟩ := readAs_eq_ok.1 h
      exact length_lt_of_number h
    · cases h

theorem length_lt_of_scalarOf {form : ScalarForm} {s r : List UInt8} {v : Value}
    (h : scalarOf form s = .ok (v, r)) : r.length < s.length := by
  fun_cases scalarOf form s
  all_goals grind [→ length_lt_of_scalar, scalarOf]

/-! ## Names and records -/

/-- A name of a choice behind its quotation mark. -/
def variant (variants : List String) (s : List UInt8) : Step String :=
  match string s with
  | .error stop => .error stop
  | .ok (name, r) =>
    if name ∈ variants then .ok (name, r)
    else .error (stopBefore (.mismatch (.unknownVariant name variants)) r)

/-- A choice written as an object, behind the opening bracket. -/
def variantObject (variants : List String) (s : List UInt8) : Step String :=
  match skipBlanks s with
  | [] => .error (stopAt .endInObject [])
  | 125 :: s => .error (stopAt .expectedValue (125 :: s))
  | 34 :: s =>
    match variant variants s with
    | .error stop => .error stop
    | .ok (name, s) =>
      match colon s with
      | .error stop => .error stop
      | .ok s =>
        match scalarOf .nothing (skipBlanks s) with
        | .error stop => .error stop
        | .ok (_, s) =>
          match skipBlanks s with
          | 125 :: r => .ok (name, r)
          | [] => .error (stopBefore .endInObject [])
          | r => .error (stopBefore .expectedValue r)
  | s => .error (stopAt .keyNotString s)

/-- The end of a list that may hold no more elements. -/
def closeList (s : List UInt8) : Except Stop (List UInt8) :=
  match skipBlanks s with
  | [] => .error (stopAt .endInList [])
  | 93 :: r => .ok r
  | 44 :: r =>
    match skipBlanks r with
    | 93 :: r => .error (stopAt .trailingComma (93 :: r))
    | r => .error (stopAt .trailingCharacters r)
  | r => .error (stopAt .trailingCharacters r)

/-- The first required field, with its place among the fields counted from `index`. -/
def firstRequired? {σ : Type} (index : Nat) : List (Field σ) → Option (Nat × String)
  | [] => none
  | field :: fields =>
    if field.required then some (index, field.name) else firstRequired? (index + 1) fields

/-- The fields of a record written as a list, from the one at `index` on. -/
def positionalFields {σ : Type} (reader : σ → Reader Value) (record : String) (size index : Nat)
    (read : Dictionary Value) : List (Field σ) → List UInt8 → Step (Dictionary Value)
  | [], s => readAs (fun _ => read) (readUnit (closeList s))
  | field :: fields, s =>
    match nextItem (index = 0) s with
    | .error stop => .error stop
    | .ok (.closed r) =>
      match firstRequired? index (field :: fields) with
      | some (missing, _) =>
        .error (stopBefore (.mismatch (.tooShort missing record size)) r)
      | none => .ok (read, r)
    | .ok (.entry t) =>
      match (reader field.shape).run t with
      | .error stop => .error stop
      | .ok (v, r) =>
        positionalFields reader record size (index + 1) (read.insert field.name v) fields r

/-- Passes over a value. -/
def passOver : MemberReader where
  run s := readAs (fun _ => none) (readUnit (skipValue s))
  shrinks h := by
    obtain ⟨_, h, _⟩ := readAs_eq_ok.1 h
    exact length_lt_of_skipValue (readUnit_eq_ok.1 h)

/-- A reader whose values are kept. -/
def keep (reader : Reader Value) : MemberReader where
  run s := readAs some (reader.run s)
  shrinks h := by
    obtain ⟨_, h, _⟩ := readAs_eq_ok.1 h
    exact reader.shrinks h

/-- Named fields are read once, all others passed over. -/
def fieldPlan {σ : Type} (reader : σ → Reader Value) (fields : List (Field σ))
    (read : Dictionary Value) (key : String) : Except Mismatch MemberReader :=
  match fields.find? (·.name == key) with
  | none => .ok passOver
  | some field =>
    if read.contains key then .error (.duplicateField key) else .ok (keep (reader field.shape))

/-- The fields of a record written as an object. -/
def namedFields {σ : Type} (reader : σ → Reader Value) (fields : List (Field σ))
    (s : List UInt8) : Step (Dictionary Value) :=
  match members (fieldPlan reader fields) true ∅ s with
  | .error stop => .error stop
  | .ok (read, r) =>
    match firstRequired? 0 (fields.filter fun f => !read.contains f.name) with
    | some (_, name) => .error (stopBefore (.mismatch (.missingField name)) r)
    | none => .ok (read, r)

/-! ## Shapes -/

/-- The content behind an opening bracket, with the reader for what is nested in it. -/
def nested {α : Type} (inner : Option (Shape → Reader Value)) (s : List UInt8)
    (content : (Shape → Reader Value) → Step α) : Step α :=
  match inner with
  | none => .error (stopAt .nestedTooDeep s)
  | some reader => content reader

/-- A value of a shape at the next byte; without `inner` no bracket may be opened any more. -/
def readNext (inner : Option (Shape → Reader Value)) (shape : Shape) (s : List UInt8) :
    Step Value :=
  match shape, s with
  | .any, 91 :: t => nested inner s fun reader =>
      readAs .array (items (reader .any) true t)
  | .any, 123 :: t => nested inner s fun reader =>
      readAs .object (members (fun _ _ => .ok (keep (reader .any))) true ∅ t)
  | .any, _ => scalar s
  | .scalar form, _ => scalarOf form s
  | .optional _, 110 :: _ => scalar s
  | .optional form, _ => scalarOf form s
  | .list item, 91 :: t => nested inner s fun reader =>
      readAs .array (items (reader item) true t)
  | .list _, _ => .error (refuse .sequence s)
  | .dictionary, 123 :: t => nested inner s fun reader =>
      readAs .object (members (fun _ _ => .ok (keep (reader .any))) true ∅ t)
  | .dictionary, _ => .error (refuse .dictionary s)
  | .choice variants, 34 :: t => readAs .string (variant variants t)
  | .choice variants, 123 :: t => nested inner s fun _ =>
      readAs .string (variantObject variants t)
  | .choice _, [] => .error (stopAt .endInValue [])
  | .choice _, _ => .error (stopAt .expectedValue s)
  | .record name fields, 91 :: t => nested inner s fun reader =>
      readAs .object (positionalFields reader name fields.length 0 ∅ fields t)
  | .record _ fields, 123 :: t => nested inner s fun reader =>
      readAs .object (namedFields reader fields t)
  | .record name _, _ => .error (refuse (.record name) s)

theorem length_lt_of_variant {variants : List String} {s r : List UInt8} {name : String}
    (h : variant variants s = .ok (name, r)) : r.length < s.length := by
  fun_cases variant variants s
  all_goals grind [→ length_lt_of_string, variant]

theorem length_lt_of_variantObject {variants : List String} {s r : List UInt8} {name : String}
    (h : variantObject variants s = .ok (name, r)) : r.length < s.length := by
  have := length_skipBlanks_le s
  fun_cases variantObject variants s
  all_goals grind [→ length_lt_of_variant, → length_lt_of_colon, → length_lt_of_scalarOf,
    length_skipBlanks_le, variantObject]

theorem length_lt_of_closeList {s r : List UInt8} (h : closeList s = .ok r) :
    r.length < s.length := by
  have := length_skipBlanks_le s
  fun_cases closeList s
  all_goals grind [closeList]

theorem length_lt_of_positionalFields {σ : Type} {reader : σ → Reader Value} {record : String}
    {size index : Nat} {read all : Dictionary Value} {fields : List (Field σ)} {s r : List UInt8}
    (h : positionalFields reader record size index read fields s = .ok (all, r)) :
    r.length < s.length := by
  fun_induction positionalFields reader record size index read fields s
  · obtain ⟨_, h, _⟩ := readAs_eq_ok.1 h
    exact length_lt_of_closeList (readUnit_eq_ok.1 h)
  · cases h
  · cases h
  · cases h; exact length_of_nextItem.2 ‹_›
  · cases h
  · rename_i h₁ _ _ h₂ ih
    have := length_of_nextItem.1 h₁
    have := Reader.shrinks _ h₂
    have := ih h
    omega

theorem length_lt_of_namedFields {σ : Type} {reader : σ → Reader Value} {all : Dictionary Value}
    {fields : List (Field σ)} {s r : List UInt8}
    (h : namedFields reader fields s = .ok (all, r)) : r.length < s.length := by
  unfold namedFields at h
  split at h
  · cases h
  · split at h
    · cases h
    · cases h; exact length_lt_of_members ‹_›

theorem eq_ok_of_nested {α : Type} {inner : Option (Shape → Reader Value)} {s : List UInt8}
    {content : (Shape → Reader Value) → Step α} {a : α × List UInt8}
    (h : nested inner s content = .ok a) : ∃ reader, content reader = .ok a := by
  cases inner with
  | none => cases h
  | some reader => exact ⟨reader, h⟩

theorem length_lt_of_readNext {inner : Option (Shape → Reader Value)} {shape : Shape}
    {s r : List UInt8} {v : Value} (h : readNext inner shape s = .ok (v, r)) :
    r.length < s.length := by
  unfold readNext at h
  split at h
  all_goals
    first
    | exact length_lt_of_scalar h
    | exact length_lt_of_scalarOf h
    | obtain ⟨_, h, _⟩ := readAs_eq_ok.1 h
      exact Nat.lt_succ_of_lt (length_lt_of_variant h)
    | obtain ⟨reader, h⟩ := eq_ok_of_nested h
      obtain ⟨_, h, _⟩ := readAs_eq_ok.1 h
      refine Nat.lt_succ_of_lt ?_
      first
      | exact length_lt_of_items h
      | exact length_lt_of_members h
      | exact length_lt_of_variantObject h
      | exact length_lt_of_positionalFields h
      | exact length_lt_of_namedFields h
    | cases h

/-- The reader for a shape, with blanks in front. -/
def readerWith (inner : Option (Shape → Reader Value)) (shape : Shape) : Reader Value where
  run s := readNext inner shape (skipBlanks s)
  shrinks {s} _ _ h := Nat.lt_of_lt_of_le (length_lt_of_readNext h) (length_skipBlanks_le s)

/-- The reader for a shape in which `depth` brackets may be nested. -/
def reader : (depth : Nat) → Shape → Reader Value
  | 0, shape => readerWith none shape
  | depth + 1, shape => readerWith (some (reader depth)) shape

abbrev depthLimit : Nat := 127

/-- The value of a shape that a text holds, with nothing but blanks around it. -/
def Shape.read (shape : Shape) (text : List UInt8) : Except Fault Value :=
  match (reader depthLimit shape).run text with
  | .error stop => .error (stop.inText text)
  | .ok (v, r) =>
    match skipBlanks r with
    | [] => .ok v
    | r => .error ((stopAt .trailingCharacters r).inText text)

/-- The UTF-8 bytes of a text. -/
def utf8 (text : String) : List UInt8 := text.toUTF8.data.toList

/-- The value that a text holds. -/
def read (text : List UInt8) : Except Fault Value := Shape.any.read text

end TraceCollector.Json
