import TraceCollector.Json.Numeral

/-!
# Passing over a value

A value that nobody asks for is only checked for its grammar: its numbers may have any size, the
units of its strings need not pair up, and it may be nested to any depth.
-/

namespace TraceCollector.Json

/-- Passes over a string up to its closing quotation mark. -/
def skipString : List UInt8 → Except Stop (List UInt8)
  | 92 :: 117 :: a :: b :: c :: d :: s =>
    if (hexQuad? a b c d).isSome then skipString s else .error (stopBefore .invalidEscape s)
  | 92 :: 117 :: _ => .error (stopAt .endInString [])
  | 92 :: letter :: s =>
    if (escapedByte? letter).isSome then skipString s else .error (stopBefore .invalidEscape s)
  | [92] => .error (stopAt .endInString [])
  | [] => .error (stopAt .endInString [])
  | b :: s =>
    if b = 34 then .ok s
    else if b < 32 then .error (stopBefore .controlCharacter (b :: s))
    else skipString s

/-- Passes over an exponent after its mark. -/
def skipExponent (s : List UInt8) : Except Stop (List UInt8) :=
  let s := match s with
    | 43 :: r => r
    | 45 :: r => r
    | r => r
  match s with
  | [] => .error (stopBefore .invalidNumber [])
  | b :: r => if (digit? b).isSome then .ok (digits r).2 else .error (stopBefore .invalidNumber r)

/-- Passes over what follows the digits before the point. -/
def skipFraction : List UInt8 → Except Stop (List UInt8)
  | [] => .ok []
  | b :: s =>
    if b = 46 then
      match digits s with
      | ([], r) => .error (stopAt .invalidNumber r)
      | (_, []) => .ok []
      | (_, e :: r) => if isExponentMark e then skipExponent r else .ok (e :: r)
    else if isExponentMark b then skipExponent s
    else .ok (b :: s)

/-- Passes over a number after its sign. -/
def skipNumber : List UInt8 → Except Stop (List UInt8)
  | [] => .error (stopBefore .invalidNumber [])
  | b :: s =>
    match digit? b with
    | none => .error (stopBefore .invalidNumber s)
    | some 0 =>
      match digits s with
      | ([], _) => skipFraction s
      | _ => .error (stopAt .invalidNumber s)
    | some _ => skipFraction (digits s).2

/-- Passes over a value that is neither a list nor an object. -/
def skipScalar : List UInt8 → Except Stop (List UInt8)
  | [] => .error (stopAt .endInValue [])
  | 110 :: s => word [117, 108, 108] s
  | 116 :: s => word [114, 117, 101] s
  | 102 :: s => word [97, 108, 115, 101] s
  | 45 :: s => skipNumber s
  | 34 :: s => skipString s
  | b :: s =>
    if (digit? b).isSome then skipNumber (b :: s) else .error (stopAt .expectedValue (b :: s))

/-- The colon between a key and its value. -/
def colon (s : List UInt8) : Except Stop (List UInt8) :=
  match skipBlanks s with
  | [] => .error (stopAt .endInObject [])
  | 58 :: r => .ok r
  | r => .error (stopAt .expectedColon r)

/-! ## What is left -/

theorem length_lt_of_skipString {s r : List UInt8} (h : skipString s = .ok r) :
    r.length < s.length := by
  fun_induction skipString s with
  | case1 _ _ _ _ _ _ ih | case4 _ _ _ _ _ ih | case10 _ _ _ _ _ _ _ _ ih =>
    have := ih h
    simp only [List.length_cons]
    omega
  | _ => grind

theorem length_lt_of_skipExponent {s r : List UInt8} (h : skipExponent s = .ok r) :
    r.length < s.length := by
  unfold skipExponent at h
  grind [length_digits_le]

theorem length_le_of_skipFraction {s r : List UInt8} (h : skipFraction s = .ok r) :
    r.length ≤ s.length := by
  fun_cases skipFraction s
  all_goals grind [length_digits_le, → length_lt_of_skipExponent, skipFraction]

theorem length_lt_of_skipNumber {s r : List UInt8} (h : skipNumber s = .ok r) :
    r.length < s.length := by
  fun_cases skipNumber s
  all_goals grind [length_digits_le, → length_le_of_skipFraction, skipNumber]

theorem length_lt_of_skipScalar {s r : List UInt8} (h : skipScalar s = .ok r) :
    r.length < s.length := by
  fun_cases skipScalar s
  all_goals grind [→ length_le_of_word, → length_lt_of_skipNumber, → length_lt_of_skipString,
    skipScalar]

theorem length_lt_of_colon {s r : List UInt8} (h : colon s = .ok r) : r.length < s.length := by
  have := length_skipBlanks_le s
  fun_cases colon s
  all_goals grind [colon]

/-! ## Nested values -/

inductive Bracket where
  | list
  | object

/-- What is passed over next, inside which open brackets. -/
inductive Awaiting where
  | value (outer : List Bracket)
  /-- The content after an opening bracket. -/
  | content (inner : Bracket) (outer : List Bracket)
  /-- What comes after a value. -/
  | next (outer : List Bracket)

/-- Within its bytes a step first looks at the content and then at the value it begins with. -/
def Awaiting.stage : Awaiting → Nat
  | content _ _ => 1
  | _ => 0

/-- Passes over a key and its colon. -/
def skipKey (s : List UInt8) : Except Stop (List UInt8) :=
  match skipBlanks s with
  | [] => .error (stopAt .endInObject [])
  | 34 :: r =>
    match skipString r with
    | .error stop => .error stop
    | .ok r => colon r
  | r => .error (stopAt .keyNotString r)

theorem length_lt_of_skipKey {s r : List UInt8} (h : skipKey s = .ok r) : r.length < s.length := by
  have := length_skipBlanks_le s
  fun_cases skipKey s
  all_goals grind [→ length_lt_of_skipString, → length_lt_of_colon, skipKey]

/-- Passes over what is awaited and all that follows it in the open brackets. -/
def skipFrom (state : Awaiting) (s : List UInt8) : Except Stop (List UInt8) :=
  match state with
  | .value outer =>
    match _ : skipBlanks s with
    | 91 :: r => skipFrom (.content .list outer) r
    | 123 :: r => skipFrom (.content .object outer) r
    | t =>
      match _ : skipScalar t with
      | .error stop => .error stop
      | .ok r => skipFrom (.next outer) r
  | .content .list outer =>
    match _ : skipBlanks s with
    | [] => .error (stopAt .endInList [])
    | 93 :: r => skipFrom (.next outer) r
    | t => skipFrom (.value (.list :: outer)) t
  | .content .object outer =>
    match _ : skipBlanks s with
    | [] => .error (stopAt .endInObject [])
    | 125 :: r => skipFrom (.next outer) r
    | t =>
      match _ : skipKey t with
      | .error stop => .error stop
      | .ok r => skipFrom (.value (.object :: outer)) r
  | .next [] => .ok s
  | .next (.list :: outer) =>
    match _ : skipBlanks s with
    | [] => .error (stopAt .endInList [])
    | 44 :: r => skipFrom (.value (.list :: outer)) r
    | 93 :: r => skipFrom (.next outer) r
    | t => .error (stopAt .expectedListEnd t)
  | .next (.object :: outer) =>
    match _ : skipBlanks s with
    | [] => .error (stopAt .endInObject [])
    | 44 :: r =>
      match _ : skipKey r with
      | .error stop => .error stop
      | .ok r => skipFrom (.value (.object :: outer)) r
    | 125 :: r => skipFrom (.next outer) r
    | t => .error (stopAt .expectedObjectEnd t)
termination_by (s.length, state.stage)
decreasing_by
  all_goals
    have := length_skipBlanks_le s
    simp only [Prod.lex_def, Awaiting.stage]
    grind [→ length_lt_of_skipScalar, → length_lt_of_skipKey]

/-- Passes over a value. -/
def skipValue (s : List UInt8) : Except Stop (List UInt8) := skipFrom (.value []) s

theorem length_of_skipFrom {state : Awaiting} {s r : List UInt8} (h : skipFrom state s = .ok r) :
    r.length ≤ s.length ∧ (∀ outer, state = .value outer → r.length < s.length) := by
  have := length_skipBlanks_le s
  fun_induction skipFrom state s
  all_goals grind [→ length_lt_of_skipScalar, → length_lt_of_skipKey, length_skipBlanks_le]

theorem length_lt_of_skipValue {s r : List UInt8} (h : skipValue s = .ok r) :
    r.length < s.length :=
  (length_of_skipFrom h).2 [] rfl

end TraceCollector.Json
