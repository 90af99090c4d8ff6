import TraceCollector.Json.Fault

/-!
# Blanks, words and strings

The steps of reading that need no look ahead. Each takes the bytes that are left and gives what it
read with the bytes after it, or the reason why it stopped.
-/

namespace TraceCollector.Json

/-- What a step gives: a value and the bytes after it. -/
abbrev Step (α : Type) := Except Stop (α × List UInt8)

/-- The step with a function applied to what it read. -/
def readAs {α β : Type} (f : α → β) : Step α → Step β
  | .ok (a, r) => .ok (f a, r)
  | .error stop => .error stop

theorem readAs_eq_ok {α β : Type} {f : α → β} {step : Step α} {b : β} {r : List UInt8} :
    readAs f step = .ok (b, r) ↔ ∃ a, step = .ok (a, r) ∧ f a = b := by
  rcases step with stop | ⟨a, r'⟩
  · simp [readAs]
  · simp only [readAs, Except.ok.injEq, Prod.mk.injEq]
    constructor
    · rintro ⟨rfl, rfl⟩; exact ⟨a, ⟨rfl, rfl⟩, rfl⟩
    · rintro ⟨_, ⟨rfl, rfl⟩, rfl⟩; exact ⟨rfl, rfl⟩

/-- The step that reads nothing but where to go on. -/
def readUnit : Except Stop (List UInt8) → Step Unit
  | .ok r => .ok ((), r)
  | .error stop => .error stop

theorem readUnit_eq_ok {step : Except Stop (List UInt8)} {u : Unit} {r : List UInt8} :
    readUnit step = .ok (u, r) ↔ step = .ok r := by
  cases step <;> simp [readUnit]

/-- A stop at the next byte, which is looked at but not taken. -/
def stopAt (cause : Cause) (s : List UInt8) : Stop := ⟨cause, s.length - 1⟩

/-- A stop before the next byte. -/
def stopBefore (cause : Cause) (s : List UInt8) : Stop := ⟨cause, s.length⟩

/-- Space, line feed, tab and carriage return. -/
def isSpace (b : UInt8) : Bool := b = 32 || b = 10 || b = 9 || b = 13

def skipBlanks (s : List UInt8) : List UInt8 := s.dropWhile isSpace

theorem length_skipBlanks_le (s : List UInt8) : (skipBlanks s).length ≤ s.length :=
  (List.dropWhile_sublist isSpace).length_le

/-- Reads the rest of a word. -/
def word : (expected : List UInt8) → List UInt8 → Except Stop (List UInt8)
  | [], s => .ok s
  | _ :: _, [] => .error (stopAt .endInValue [])
  | e :: es, b :: s => if b = e then word es s else .error (stopBefore .expectedWord s)

theorem length_le_of_word {expected s r : List UInt8} (h : word expected s = .ok r) :
    r.length ≤ s.length := by
  fun_induction word expected s with
  | case1 s => cases h; exact Nat.le_refl _
  | case2 => cases h
  | case3 e es s ih => exact Nat.le_succ_of_le (ih h)
  | case4 => cases h

/-! ## Strings -/

/-- The byte that a letter behind a backslash stands for. -/
def escapedByte? : UInt8 → Option UInt8
  | 34 => some 34
  | 92 => some 92
  | 47 => some 47
  | 98 => some 8
  | 102 => some 12
  | 110 => some 10
  | 114 => some 13
  | 116 => some 9
  | _ => none

def hexDigit? (b : UInt8) : Option Nat := Text.digitValue? 16 (Char.ofNat b.toNat)

/-- The value of four hexadecimal digits. -/
def hexQuad? (a b c d : UInt8) : Option Nat := do
  let a ← hexDigit? a
  let b ← hexDigit? b
  let c ← hexDigit? c
  let d ← hexDigit? d
  return ((a * 16 + b) * 16 + c) * 16 + d

/-- The bytes that a 16-bit unit adds to a string, and the unit itself when it is the first of a
pair; `high` is the first of a pair that has just been read. -/
def surrogateStep (high : Option Nat) (unit : Nat) : Except Cause (List UInt8 × Option Nat) :=
  let isHigh : Bool := 0xD800 ≤ unit && unit ≤ 0xDBFF
  let isLow : Bool := 0xDC00 ≤ unit && unit ≤ 0xDFFF
  match high with
  | some h =>
    if isLow then
      let code := 0x10000 + (h - 0xD800) * 0x400 + (unit - 0xDC00)
      .ok (String.utf8EncodeChar (Char.ofNat code), none)
    else .error .loneSurrogate
  | none =>
    if isLow then .error .loneSurrogate
    else if isHigh then .ok ([], some unit)
    else .ok (String.utf8EncodeChar (Char.ofNat unit), none)

/-- The bytes of a string up to its closing quotation mark. -/
def stringBytes (high : Option Nat) : List UInt8 → Step (List UInt8)
  | 92 :: 117 :: a :: b :: c :: d :: s =>
    match hexQuad? a b c d with
    | none => .error (stopBefore .invalidEscape s)
    | some unit =>
      match surrogateStep high unit with
      | .error cause => .error (stopBefore cause s)
      | .ok (bytes, high) => readAs (bytes ++ ·) (stringBytes high s)
  | 92 :: 117 :: _ => .error (stopAt .endInString [])
  | 92 :: letter :: s =>
    if high.isSome then .error (stopBefore .unfinishedSurrogate s)
    else
      match escapedByte? letter with
      | none => .error (stopBefore .invalidEscape s)
      | some byte => readAs (byte :: ·) (stringBytes none s)
  | [92] => .error (stopAt .endInString [])
  | [] => .error (stopAt .endInString [])
  | b :: s =>
    if high.isSome then .error (stopBefore .unfinishedSurrogate s)
    else if b = 34 then .ok ([], s)
    else if b < 32 then .error (stopBefore .controlCharacter s)
    else readAs (b :: ·) (stringBytes none s)

theorem length_lt_of_stringBytes {high : Option Nat} {s bytes r : List UInt8}
    (h : stringBytes high s = .ok (bytes, r)) : r.length < s.length := by
  fun_induction stringBytes high s generalizing bytes r with
  | case3 _ _ _ _ _ _ _ _ _ _ _ ih | case7 _ _ _ _ _ _ _ _ ih | case13 _ _ _ _ _ _ _ _ _ _ ih =>
    obtain ⟨_, h', _⟩ := readAs_eq_ok.1 h
    have := ih h'
    simp only [List.length_cons]
    omega
  | _ => grind

/-- A string up to its closing quotation mark. -/
def string (s : List UInt8) : Step String :=
  match stringBytes none s with
  | .error stop => .error stop
  | .ok (bytes, r) =>
    match String.fromUTF8? ⟨bytes.toArray⟩ with
    | some t => .ok (t, r)
    | none => .error (stopBefore .invalidUtf8 r)

theorem length_lt_of_string {s r : List UInt8} {t : String} (h : string s = .ok (t, r)) :
    r.length < s.length := by
  unfold string at h
  split at h
  · cases h
  · next h' =>
    split at h
    · cases h; exact length_lt_of_stringBytes h'
    · cases h

end TraceCollector.Json
