import TraceCollector.Proofs.EpochAccuracy
import TraceCollector.Proofs.Numerals
import TraceCollector.Proofs.WholeSeconds
import TraceCollector.Service.Parameters

/-!
# Times in parameters

A whole number of seconds can be given as a parameter in several ways: as an integer, as a number
from which the fraction is dropped, or as a text of decimal digits (`Encodes`).

1. Dropping the fraction of a number leaves the integer next to it towards zero
   (`truncate_eq_iff`). So the seconds that are read from a value are those that it encodes
   (`wholeSeconds?_eq_some_iff`).
2. All encodings of a second stand for the same instant (`timeOf_of_encodes`). A value that encodes
   no second of the calendar stands for none (`timeOf_eq_error_iff`).
3. In words of 64 bits the values stand for the same instants (`bind_wordSeconds?`): what does not
   fit in a word is refused or comes out at its ends, far outside the calendar.
-/

namespace TraceCollector

/-! ## Dropping a fraction -/

/-- The integer is what is left of the value without its fraction. -/
def TruncatesTo (q : ℚ) (n : ℤ) : Prop :=
  (0 ≤ n ∧ n ≤ q ∧ q < n + 1) ∨ (n ≤ 0 ∧ n - 1 < q ∧ q ≤ n)

theorem floor_eq {q : ℚ} {n : ℤ} (hlow : n ≤ q) (hhigh : q < n + 1) : q.floor = n := by
  have hlt : q.floor < n + 1 := Rat.floor_lt_iff.mpr (by exact_mod_cast hhigh)
  have hle : n ≤ q.floor := Rat.le_floor_iff.mpr hlow
  omega

theorem truncate_eq {q : ℚ} {n : ℤ} (h : TruncatesTo q n) : truncate q = n := by
  unfold truncate
  rcases h with ⟨hn, hlow, hhigh⟩ | ⟨hn, hlow, hhigh⟩
  · have hq : (0 : ℚ) ≤ q := le_trans (by exact_mod_cast hn) hlow
    rw [if_neg (not_lt.mpr hq), floor_eq hlow hhigh]
  · have hnonpos : q ≤ 0 := le_trans hhigh (by exact_mod_cast hn)
    split
    · rw [Rat.ceil_eq_neg_floor_neg, floor_eq (n := -n), neg_neg]
      · push_cast
        linarith
      · push_cast
        linarith
    · next hq =>
      obtain rfl : q = 0 := le_antisymm hnonpos (not_lt.mp hq)
      exact floor_eq (by exact_mod_cast hn) (by linarith)

theorem truncatesTo_truncate (q : ℚ) : TruncatesTo q (truncate q) := by
  unfold truncate
  split_ifs with hq
  · have hceil : q.ceil < q + 1 := Rat.ceil_lt
    exact Or.inr ⟨Rat.ceil_le_iff.mpr (by exact_mod_cast hq.le), by linarith, Rat.le_ceil⟩
  · have hfloor := Rat.lt_floor_add_one q
    push_cast at hfloor
    exact Or.inl ⟨Rat.le_floor_iff.mpr (by exact_mod_cast not_lt.mp hq), Rat.floor_le q, hfloor⟩

theorem truncate_eq_iff {q : ℚ} {n : ℤ} : truncate q = n ↔ TruncatesTo q n := by
  constructor
  · rintro rfl
    exact truncatesTo_truncate q
  · exact truncate_eq

namespace Service

/-! ## Encodings -/

/-- The value of a parameter encodes a whole number of seconds. -/
inductive Encodes : Json.Value → ℤ → Prop where
  | integer (n : ℤ) : Encodes (.number (.integer n)) n
  | float {x : Binary64} {n : ℤ} (hfinite : x.isFinite = true) (h : TruncatesTo x.toRat n) :
    Encodes (.number (.float x)) n
  | text {before cs after : List Char} {n : ℤ} (h : Text.Writes cs n)
    (hbefore : ∀ c ∈ before, Text.isBlank c = true)
    (hafter : ∀ c ∈ after, Text.isBlank c = true) :
    Encodes (.string (.ofList (before ++ cs ++ after))) n

theorem wholeSeconds?_of_encodes {v : Json.Value} {n : ℤ} (h : Encodes v n) :
    wholeSeconds? v = some n := by
  cases h with
  | integer => rfl
  | float hfinite h =>
    unfold wholeSeconds?
    dsimp only
    rw [if_pos hfinite, truncate_eq h]
  | text h hbefore hafter =>
    unfold wholeSeconds?
    dsimp only
    rw [String.toList_ofList]
    exact Text.signed?_trim_eq_some_iff.mpr ⟨_, _, _, hbefore, hafter, rfl, h⟩

/-- The seconds that are read from a value are those that it encodes. -/
theorem wholeSeconds?_eq_some_iff {v : Json.Value} {n : ℤ} :
    wholeSeconds? v = some n ↔ Encodes v n := by
  constructor
  · intro h
    unfold wholeSeconds? at h
    split at h
    · cases h
      exact .integer n
    · next x =>
      split_ifs at h with hfinite
      cases h
      exact .float hfinite (truncatesTo_truncate x.toRat)
    · next s =>
      obtain ⟨before, cs, after, hbefore, hafter, hs, hwrites⟩ :=
        Text.signed?_trim_eq_some_iff.mp h
      rw [← String.ofList_toList (s := s), hs]
      exact .text hwrites hbefore hafter
    · cases h
  · exact wholeSeconds?_of_encodes

/-- All encodings of a second of the calendar stand for the same instant. -/
theorem timeOf_of_encodes {v : Json.Value} {n : ℤ} (h : Encodes v n)
    (hn : Instant.firstSecond ≤ n ∧ n ≤ Instant.lastSecond) : timeOf v = .ok (.ofParts n 0) := by
  unfold timeOf
  rw [wholeSeconds?_of_encodes h, Option.bind_some, Instant.ofSeconds?_eq, if_pos hn]

theorem bind_wholeSeconds?_eq_some_iff {v : Json.Value} {t : Instant} :
    (wholeSeconds? v).bind Instant.ofSeconds? = some t ↔
      ∃ n, Encodes v n ∧ (Instant.firstSecond ≤ n ∧ n ≤ Instant.lastSecond) ∧
        t = .ofParts n 0 := by
  simp only [Option.bind_eq_some_iff, wholeSeconds?_eq_some_iff, Instant.ofSeconds?_eq,
    Option.ite_none_right_eq_some, Option.some.injEq, eq_comm (a := t)]

theorem timeOf_eq_ok_iff {v : Json.Value} {t : Instant} :
    timeOf v = .ok t ↔ ∃ n, Encodes v n ∧
      (Instant.firstSecond ≤ n ∧ n ≤ Instant.lastSecond) ∧ t = .ofParts n 0 := by
  rw [← bind_wholeSeconds?_eq_some_iff]
  unfold timeOf
  cases (wholeSeconds? v).bind Instant.ofSeconds? <;> simp

theorem eq_notATime_of_timeOf {v : Json.Value} {f : Failure} (h : timeOf v = .error f) :
    f = .notATime := by
  unfold timeOf at h
  split at h <;> cases h
  rfl

/-- A value that encodes no second of the calendar stands for no instant. -/
theorem timeOf_eq_error_iff {v : Json.Value} {f : Failure} :
    timeOf v = .error f ↔ f = .notATime ∧
      ∀ n, Encodes v n → ¬ (Instant.firstSecond ≤ n ∧ n ≤ Instant.lastSecond) := by
  constructor
  · intro h
    refine ⟨eq_notATime_of_timeOf h, fun n hencodes hn => ?_⟩
    rw [timeOf_of_encodes hencodes hn] at h
    cases h
  · rintro ⟨rfl, hnone⟩
    cases htime : timeOf v with
    | error f => rw [eq_notATime_of_timeOf htime]
    | ok t =>
      obtain ⟨n, hencodes, hn, -⟩ := timeOf_eq_ok_iff.mp htime
      exact absurd hn (hnone n hencodes)

/-! ## In machine words -/

/-- The word of 64 bits that an integer is, if it is one. -/
def word? (n : ℤ) : Option Int64 :=
  if -9223372036854775808 ≤ n ∧ n ≤ 9223372036854775807 then some (.ofInt n) else none

/-- The word nearest to what is left of a finite number without its fraction. -/
def wordOfNumber? (x : Binary64) : Option Int64 :=
  if x.isFinite then some (Instant.nearestInt64 (truncate x.toRat)) else none

/-- The whole seconds of a value in a word. An integer that is no word is taken for the number
nearest to it, numbers are cast to the nearest words, and digits that denote no word are refused. -/
def wordSeconds? : Json.Value → Option Int64
  | .number (.integer n) => (word? n).or (wordOfNumber? (.ofInt n))
  | .number (.float x) => wordOfNumber? x
  | .string s => (Text.signed? 10 (Text.trim s.toList)).bind word?
  | _ => none

/-- The instant of a second in a word. -/
def ofWord? (w : Int64) : Option Instant := Instant.ofSeconds? w.toInt

theorem ofSeconds?_of_not_word {n : ℤ}
    (h : ¬ (-9223372036854775808 ≤ n ∧ n ≤ 9223372036854775807)) :
    Instant.ofSeconds? n = none := by
  rw [Instant.ofSeconds?_eq, if_neg]
  exact mt Instant.word_of_inCalendar (by omega)

/-- The ends of the words are not in the calendar, so no cast to them brings a second into it. -/
theorem ofWord?_nearestInt64 (n : ℤ) :
    ofWord? (Instant.nearestInt64 n) = Instant.ofSeconds? n := by
  unfold ofWord?
  by_cases hword : -9223372036854775808 ≤ n ∧ n ≤ 9223372036854775807
  · rw [Instant.toInt_nearestInt64 hword.1 hword.2]
  · have hend : (Instant.nearestInt64 n).toInt = -9223372036854775808 ∨
        (Instant.nearestInt64 n).toInt = 9223372036854775807 := by
      unfold Instant.nearestInt64
      rw [Int64.toInt_ofInt_of_le (by omega) (by omega)]
      omega
    rw [ofSeconds?_of_not_word hword, Instant.ofSeconds?_eq]
    rcases hend with hend | hend <;> rw [hend] <;> exact if_neg (by decide)

theorem bind_word? (n : ℤ) : (word? n).bind ofWord? = Instant.ofSeconds? n := by
  unfold word?
  split_ifs with hword
  · unfold ofWord?
    rw [Option.bind_some, Int64.toInt_ofInt_of_le (by omega) (by omega)]
  · rw [Option.bind_none, ofSeconds?_of_not_word hword]

theorem bind_wordOfNumber? (x : Binary64) :
    (wordOfNumber? x).bind ofWord? =
      if x.isFinite then Instant.ofSeconds? (truncate x.toRat) else none := by
  unfold wordOfNumber?
  split_ifs
  · rw [Option.bind_some, ofWord?_nearestInt64]
  · rfl

/-- The number nearest to an integer is in the calendar exactly if the integer is. -/
theorem bind_wordOfNumber?_ofInt (n : ℤ) :
    (wordOfNumber? (.ofInt n)).bind ofWord? = Instant.ofSeconds? n := by
  rw [bind_wordOfNumber?]
  split_ifs with hfinite
  · obtain ⟨k, hk, -⟩ := Binary64.exists_toRat_ofInt hfinite
    have htruncate : truncate (Binary64.ofInt n).toRat = k := by
      rw [hk, truncate, Rat.floor_intCast, Rat.ceil_intCast, ite_self]
    rw [htruncate, ← Instant.ofEpochSeconds?_of_whole hfinite hk, Instant.ofEpochSeconds?_ofInt]
  · rw [← Instant.ofEpochSeconds?_ofInt, Instant.ofEpochSeconds?, if_neg hfinite]

/-- In words the values stand for the same instants. -/
theorem bind_wordSeconds? (v : Json.Value) :
    (wordSeconds? v).bind ofWord? = (wholeSeconds? v).bind Instant.ofSeconds? := by
  cases v with
  | number p =>
    cases p with
    | integer n =>
      unfold wordSeconds? wholeSeconds?
      dsimp only
      rw [Option.bind_some]
      cases hword : word? n with
      | none => rw [Option.none_or, bind_wordOfNumber?_ofInt]
      | some w => rw [Option.some_or, ← hword, bind_word?]
    | float x =>
      unfold wordSeconds? wholeSeconds?
      dsimp only
      rw [bind_wordOfNumber?]
      split_ifs <;> rfl
  | string s =>
    unfold wordSeconds? wholeSeconds?
    dsimp only
    rw [Option.bind_assoc]
    simp only [bind_word?]
  | _ => rfl

/-! ## Decoding -/

/-- A value stands for the instant of a second exactly if the second is in the calendar and the
value encodes it: as the integer, as a number of which it is what is left without the fraction, or
as a text of its decimal digits with a sign or without, zeros in front and blanks around. Every
other value is refused as a wrong parameter, and one value stands for one instant at most, the same
as all other encodings of the second. The same conversion in words of 64 bits, with casts that end
at the ends of the words, gives the same instants. -/
theorem timeOf_exact (v : Json.Value) :
    (∀ n, timeOf v = .ok (.ofParts n 0) ↔
      (Instant.firstSecond ≤ n ∧ n ≤ Instant.lastSecond) ∧ Encodes v n) ∧
    (∀ t, timeOf v = .ok t → ∃ n, t = .ofParts n 0) ∧
    (∀ f, timeOf v = .error f ↔
      f = ⟨.invalidParameter, "start_time and end_time are not integers"⟩ ∧
        ∀ n, Encodes v n → ¬ (Instant.firstSecond ≤ n ∧ n ≤ Instant.lastSecond)) ∧
    (∀ u n, Encodes v n → Encodes u n → timeOf u = timeOf v) ∧
    (wordSeconds? v).bind ofWord? = (wholeSeconds? v).bind Instant.ofSeconds? := by
  refine ⟨fun n => ?_, fun t ht => ?_, fun f => timeOf_eq_error_iff, fun u n hv hu => ?_,
    bind_wordSeconds? v⟩
  · rw [timeOf_eq_ok_iff]
    constructor
    · rintro ⟨m, hencodes, hm, hparts⟩
      rw [Instant.ofParts_inj.mp hparts]
      exact ⟨hm, hencodes⟩
    · rintro ⟨hn, hencodes⟩
      exact ⟨n, hencodes, hn, rfl⟩
  · obtain ⟨n, -, -, hn⟩ := timeOf_eq_ok_iff.mp ht
    exact ⟨n, hn⟩
  · unfold timeOf
    rw [wholeSeconds?_of_encodes hv, wholeSeconds?_of_encodes hu]

/-- The first second of the calendar as an integer, as a number with a fraction and as a text
between blanks; the second before it, and one behind the ends of the words. -/
theorem timeOf_exact_firstSecond :
    let first := Json.Value.integer Instant.firstSecond
    let number := Json.Value.number (.float (.ofRat (-8334601228800 - 1 / 2)))
    let text := Json.Value.string "\u3000-08334601228800\t"
    Encodes first Instant.firstSecond ∧ Encodes number Instant.firstSecond ∧
      Encodes text Instant.firstSecond ∧
      timeOf first = .ok (.ofParts Instant.firstSecond 0) ∧ timeOf number = timeOf first ∧
      timeOf text = timeOf first ∧
      timeOf (.integer (Instant.firstSecond - 1)) = .error .notATime ∧
      timeOf (.string "9223372036854775808") = .error .notATime := by
  intro first number text
  have hfirst : Encodes first Instant.firstSecond := .integer _
  have hnumber : Encodes number Instant.firstSecond :=
    .float (by decide +kernel) (truncate_eq_iff.mp (by decide +kernel))
  have htext : Encodes text Instant.firstSecond :=
    wholeSeconds?_eq_some_iff.mp (by decide +kernel)
  obtain ⟨hok, -, -, hsame, -⟩ := timeOf_exact first
  refine ⟨hfirst, hnumber, htext, (hok _).mpr ⟨by decide, hfirst⟩, hsame _ _ hfirst hnumber,
    hsame _ _ hfirst htext, ?_, ?_⟩
  · refine ((timeOf_exact _).2.2.1 _).mpr ⟨rfl, fun n hn => ?_⟩
    cases hn
    decide
  · refine ((timeOf_exact _).2.2.1 _).mpr ⟨rfl, fun n hn => ?_⟩
    have hvalue : wholeSeconds? (.string "9223372036854775808") = some 9223372036854775808 := by
      decide +kernel
    rw [← wholeSeconds?_eq_some_iff, hvalue] at hn
    cases hn
    decide

end Service

end TraceCollector
