import TraceCollector.Proofs.Json.Strings
import TraceCollector.Proofs.Numerals

/-!
# Integers that are written

An integer in a compact text is read as that integer, if it fits 64 bits.

1. The digits of a number are gathered into that number (`foldl_addInteger_digitsIn`), and none of
   them but a lone one is a zero in front (`exists_digitsIn`).
2. They are read up to a byte that ends a value (`Ends`), and no fraction or exponent follows there
   (`number_decimalChars`).
3. So an integer is read with its sign (`scalar_integerChars`).
-/

namespace TraceCollector

/-! ## Digits -/

namespace Text

/-- The digits of a number: the first is zero only if the number is. -/
theorem exists_digitsIn (n : Nat) :
    ∃ d ds, digitsIn 10 n = d :: ds ∧ (∀ e ∈ d :: ds, e < 10) ∧ (d = 0 → n = 0 ∧ ds = []) := by
  induction n using Nat.strongRecOn with
  | ind n ih =>
    by_cases hn : n < 10
    · refine ⟨n, [], digitsIn_of_lt hn, by simpa using hn, fun h => ⟨h, rfl⟩⟩
    · obtain ⟨d, ds, heq, hlt, hzero⟩ := ih (n / 10) (by omega)
      refine ⟨d, ds ++ [n % 10], ?_, ?_, fun h => ?_⟩
      · rw [digitsIn_of_le (by norm_num) (Nat.not_lt.mp hn), heq]
        rfl
      · rw [← List.cons_append]
        intro e he
        rcases List.mem_append.mp he with he | he
        · exact hlt e he
        · rw [List.mem_singleton] at he
          omega
      · have := (hzero h).1
        omega

end Text

namespace Json

/-- Digits that are gathered one after the other make up their number. -/
theorem foldl_addInteger_digitsIn {n : Nat} (h : n < coefficientBound) :
    (Text.digitsIn 10 n).foldl Gathered.addInteger ⟨0, 0⟩ = ⟨n, 0⟩ := by
  induction n using Nat.strongRecOn with
  | ind n ih =>
    by_cases hn : n < 10
    · rw [Text.digitsIn_of_lt hn, List.foldl_cons, List.foldl_nil, Gathered.addInteger, if_pos]
      · simp
      · exact ⟨rfl, by simpa using h⟩
    · have hsum : n / 10 * 10 + n % 10 = n := by omega
      rw [Text.digitsIn_of_le (by norm_num) (Nat.not_lt.mp hn), List.foldl_append, ih (n / 10) (by omega)
        (by omega), List.foldl_cons, List.foldl_nil, Gathered.addInteger, if_pos]
      · rw [hsum]
      · rw [hsum]
        exact ⟨rfl, h⟩

/-- The byte of a digit. -/
def digitByte (d : Nat) : UInt8 := UInt8.ofNat (48 + d)

theorem digit?_digitByte {d : Nat} (h : d < 10) : digit? (digitByte d) = some d := by
  have hall : ∀ d < 10, digit? (digitByte d) = some d := by decide
  exact hall d h

theorem bytesOf_map_digitChar {ds : List Nat} (h : ∀ d ∈ ds, d < 10) :
    bytesOf (ds.map Text.digitChar) = ds.map digitByte := by
  have hall : ∀ d < 10, String.utf8EncodeChar (Text.digitChar d) = [digitByte d] := by decide
  induction ds with
  | nil => rfl
  | cons d rest ih =>
    obtain ⟨hd, hrest⟩ := List.forall_mem_cons.mp h
    rw [List.map_cons, bytesOf_cons, hall d hd, ih hrest]
    rfl

/-- What follows a value of a compact text: nothing, a comma or a closing bracket. -/
def Ends (s : List UInt8) : Prop := ∀ b ∈ s.head?, b = 44 ∨ b = 93 ∨ b = 125

theorem digits_map {ds : List Nat} (h : ∀ d ∈ ds, d < 10) {s : List UInt8} (hs : Ends s) :
    digits (ds.map digitByte ++ s) = (ds, s) := by
  induction ds with
  | nil =>
    cases s with
    | nil => rfl
    | cons b rest =>
      have hb : digit? b = none := by
        rcases hs b rfl with rfl | rfl | rfl <;> rfl
      rw [List.map_nil, List.nil_append, digits, hb]
  | cons d rest ih =>
    obtain ⟨hd, hrest⟩ := List.forall_mem_cons.mp h
    rw [List.map_cons, List.cons_append, digits, digit?_digitByte hd, ih hrest]

/-! ## Integers -/

theorem bytesOf_decimalChars (n : Nat) :
    ∃ b rest, bytesOf (Text.decimalChars n) = b :: rest ∧ ∃ d, digit? b = some d := by
  obtain ⟨d, ds, heq, hlt, -⟩ := Text.exists_digitsIn n
  refine ⟨digitByte d, ds.map digitByte, ?_, d, digit?_digitByte (hlt d List.mem_cons_self)⟩
  unfold Text.decimalChars
  rw [heq, bytesOf_map_digitChar hlt, List.map_cons]

theorem afterInteger_of_ends (negative : Bool) (g : Gathered) {s : List UInt8} (hs : Ends s) :
    afterInteger negative g s = finishInteger negative g s := by
  cases s with
  | nil => rfl
  | cons b rest => rcases hs b rfl with rfl | rfl | rfl <;> rfl

theorem number_decimalChars (negative : Bool) {n : Nat} (hn : n < coefficientBound)
    {s : List UInt8} (hs : Ends s) :
    number negative (bytesOf (Text.decimalChars n) ++ s) = finishInteger negative ⟨n, 0⟩ s := by
  have hfold := foldl_addInteger_digitsIn hn
  obtain ⟨d, ds, heq, hlt, hzero⟩ := Text.exists_digitsIn n
  rw [heq] at hfold
  obtain ⟨hd, hds⟩ := List.forall_mem_cons.mp hlt
  unfold Text.decimalChars
  rw [heq, bytesOf_map_digitChar hlt, List.map_cons, List.cons_append, number,
    digit?_digitByte hd, digits_map hds hs]
  split
  · next hnone => cases hnone
  · next hsome =>
    cases hsome
    obtain ⟨rfl, rfl⟩ := hzero rfl
    exact afterInteger_of_ends negative _ hs
  · next hsome =>
    cases hsome
    rw [hfold]
    exact afterInteger_of_ends negative _ hs

theorem scalar_of_digit {b : UInt8} {d : Nat} (h : digit? b = some d) (s : List UInt8) :
    scalar (b :: s) = readAs .number (number false (b :: s)) := by
  have hother : ∀ c ∈ ([110, 116, 102, 34, 45] : List UInt8), digit? c = none := by decide +kernel
  have hne : ∀ c ∈ ([110, 116, 102, 34, 45] : List UInt8), b ≠ c := by
    intro c hc hbc
    rw [hbc, hother c hc] at h
    cases h
  rw [scalar]
  · rw [h]
    rfl
  all_goals
    intro hbc
    exact absurd hbc (hne _ (by decide))

theorem number_decimalChars_eq_ok {negative : Bool} {n : Nat} {m : Int}
    (hn : n < coefficientBound) (hm : Gathered.integer? ⟨n, 0⟩ negative = some m)
    {s : List UInt8} (hs : Ends s) :
    number negative (bytesOf (Text.decimalChars n) ++ s) = .ok (.integer m, s) := by
  rw [number_decimalChars negative hn hs, finishInteger, hm]

/-- The integers of 64 bits, with a sign or without. -/
def IsInteger64 (n : Int) : Prop := -9223372036854775808 ≤ n ∧ n < 18446744073709551616

/-- What is written for an integer of 64 bits is read as the integer. -/
theorem scalar_integerChars {n : Int} (hn : IsInteger64 n) {s : List UInt8} (hs : Ends s) :
    scalar (bytesOf (Text.integerChars n) ++ s) = .ok (.number (.integer n), s) := by
  obtain ⟨hlow, hhigh⟩ := hn
  cases n with
  | ofNat n =>
    have hbound : n < coefficientBound := by
      rw [Int.ofNat_eq_natCast] at hhigh
      exact Int.ofNat_lt.mp hhigh
    have hnumber : number false (bytesOf (Text.decimalChars n) ++ s) = .ok (.integer n, s) :=
      number_decimalChars_eq_ok hbound rfl hs
    obtain ⟨b, rest, hbytes, d, hd⟩ := bytesOf_decimalChars n
    rw [Text.integerChars, hbytes, List.cons_append, scalar_of_digit hd, ← List.cons_append,
      ← hbytes, hnumber]
    rfl
  | negSucc n =>
    have hinteger : Gathered.integer? ⟨n + 1, 0⟩ true = some (Int.negSucc n) := by
      have hfits : 0 < n + 1 ∧ n + 1 ≤ 9223372036854775808 := by omega
      unfold Gathered.integer?
      rw [if_neg (by simp), if_neg (by simp), if_pos hfits]
      rfl
    have hbound : n + 1 < coefficientBound := by
      unfold coefficientBound
      omega
    have hnumber := number_decimalChars_eq_ok hbound hinteger hs
    rw [Text.integerChars, bytesOf_cons]
    show readAs Value.number (number true (bytesOf (Text.decimalChars (n + 1)) ++ s)) = _
    rw [hnumber]
    rfl

end Json

end TraceCollector
