import TraceCollector.Proofs.Numerals
import TraceCollector.Proofs.TextParts
import TraceCollector.Proofs.WholeSeconds
import TraceCollector.TraceId

/-!
# Decoded trace ids

1. Every text has one way of being a part without dashes and, unless it ends there, a second one
   behind a dash and what follows that (`TraceId.Parts`). These are the two parts that are decoded
   (`TraceId.versionPart_of_parts`, `TraceId.epochPart?_of_parts`).
2. The version is a decimal numeral of 32 bits (`TraceId.version_eq_ok_iff`), the start of the
   request a hexadecimal one of a second of the calendar (`TraceId.requestStart_eq_ok_iff`); one
   plus sign may stand in front of each. The lack of a second part is told from a wrong one.
3. The numerals of a number have no dash in them, so an id that is made of two of them, with any
   text behind, gives the numbers back.
-/

namespace TraceCollector.TraceId

/-! ## Parts -/

/-- The text is its first part, or that and, behind a dash, a second one, which ends with the text
or in front of another dash. -/
inductive Parts : List Char → List Char → Option (List Char) → Prop where
  | undashed {version : List Char} (hversion : '-' ∉ version) : Parts version version none
  | dashed {version epoch rest : List Char} (hversion : '-' ∉ version) (hepoch : '-' ∉ epoch)
    (hrest : rest = [] ∨ ∃ more, rest = '-' :: more) :
    Parts (version ++ '-' :: (epoch ++ rest)) version (some epoch)

/-- Every text is a part without dashes and what follows it. -/
theorem exists_undashed (cs : List Char) :
    ∃ part rest, cs = part ++ rest ∧ '-' ∉ part ∧ (rest = [] ∨ ∃ more, rest = '-' :: more) := by
  obtain ⟨part, rest, hcs, hpart, hrest⟩ := Text.exists_firstPart (· == '-') cs
  refine ⟨part, rest, hcs, fun hmem => ?_, ?_⟩
  · have hdash := hpart '-' hmem
    simp at hdash
  · cases rest with
    | nil => exact Or.inl rfl
    | cons c more =>
      have hc : c = '-' := by simpa using hrest c rfl
      exact Or.inr ⟨more, by rw [hc]⟩

theorem exists_parts (cs : List Char) : ∃ version epoch?, Parts cs version epoch? := by
  obtain ⟨version, rest, rfl, hversion, rfl | ⟨more, rfl⟩⟩ := exists_undashed cs
  · rw [List.append_nil]
    exact ⟨version, none, .undashed hversion⟩
  · obtain ⟨epoch, rest, rfl, hepoch, hrest⟩ := exists_undashed more
    exact ⟨version, some epoch, .dashed hversion hepoch hrest⟩

section Parts

variable {cs version : List Char} {epoch? : Option (List Char)}

theorem takeWhile_dropWhile_of_not_mem {part : List Char} (hpart : '-' ∉ part) {rest : List Char}
    (hrest : rest = [] ∨ ∃ more, rest = '-' :: more) :
    (part ++ rest).takeWhile (· != '-') = part ∧ (part ++ rest).dropWhile (· != '-') = rest := by
  refine Text.takeWhile_append (fun c hc => ?_) ?_
  · rw [bne_iff_ne]
    rintro rfl
    exact hpart hc
  · rcases hrest with rfl | ⟨more, rfl⟩ <;> simp

theorem versionPart_of_parts (h : Parts cs version epoch?) : versionPart cs = version := by
  cases h with
  | undashed hversion =>
    have hspan := takeWhile_dropWhile_of_not_mem hversion (Or.inl rfl)
    rw [List.append_nil] at hspan
    exact hspan.1
  | dashed hversion hepoch hrest =>
    exact (takeWhile_dropWhile_of_not_mem hversion (Or.inr ⟨_, rfl⟩)).1

theorem epochPart?_of_parts (h : Parts cs version epoch?) : epochPart? cs = epoch? := by
  unfold epochPart?
  cases h with
  | undashed hversion =>
    have hspan := takeWhile_dropWhile_of_not_mem hversion (Or.inl rfl)
    rw [List.append_nil] at hspan
    rw [hspan.2]
  | dashed hversion hepoch hrest =>
    rw [(takeWhile_dropWhile_of_not_mem hversion (Or.inr ⟨_, rfl⟩)).2]
    exact congrArg some (takeWhile_dropWhile_of_not_mem hepoch hrest).1

theorem mem_dash_iff_of_parts (h : Parts cs version epoch?) : '-' ∉ cs ↔ epoch? = none := by
  cases h with
  | undashed hversion => exact iff_of_true hversion rfl
  | dashed => simp

end Parts

/-! ## Decoding the parts -/

/-- The part says a version. -/
def SaysVersion (part : List Char) (v : Nat) : Prop := Text.IsUnsigned 10 part v ∧ v ≤ versionLimit

/-- The part says a second of the calendar, counted from the epoch. -/
def SaysSecond (part : List Char) (e : Nat) : Prop :=
  Text.IsUnsigned 16 part e ∧ (e : ℤ) ≤ Instant.lastSecond

section Decoding

variable {id : String} {part : List Char} {epoch? : Option (List Char)}

theorem version_eq_ok_iff (h : Parts id.toList part epoch?) {v : Nat} :
    version id = .ok v ↔ SaysVersion part v := by
  unfold version SaysVersion
  rw [versionPart_of_parts h, ← Text.unsigned?_eq_some_iff (by norm_num)]
  cases Text.unsigned? 10 part with
  | none => simp
  | some n =>
    dsimp only
    rw [Option.some.injEq]
    split_ifs with hn
    · constructor
      · intro heq
        cases heq
        exact ⟨rfl, hn⟩
      · rintro ⟨rfl, -⟩
        rfl
    · constructor
      · intro heq
        cases heq
      · rintro ⟨rfl, hv⟩
        exact absurd hv hn

theorem version_cases (id : String) :
    (∃ v, version id = .ok v) ∨ version id = .error .badVersion := by
  unfold version
  split
  · split_ifs
    · exact Or.inl ⟨_, rfl⟩
    · exact Or.inr rfl
  · exact Or.inr rfl

theorem version_eq_error_iff (h : Parts id.toList part epoch?) :
    version id = .error .badVersion ↔ ¬ ∃ v, SaysVersion part v := by
  simp only [← version_eq_ok_iff h]
  rcases version_cases id with ⟨v, hv⟩ | hv
  · simp [hv]
  · simp [hv]

theorem second_eq_some_iff {t : Instant} :
    ((Text.unsigned? 16 part).bind fun n => Instant.ofSeconds? n) = some t ↔
      ∃ e : Nat, SaysSecond part e ∧ t = .ofParts e 0 := by
  rw [Option.bind_eq_some_iff]
  constructor
  · rintro ⟨n, hn, ht⟩
    rw [Instant.ofSeconds?_eq] at ht
    split_ifs at ht with hcalendar
    cases ht
    exact ⟨n, ⟨(Text.unsigned?_eq_some_iff (by norm_num)).mp hn, hcalendar.2⟩, rfl⟩
  · rintro ⟨e, ⟨hpart, hlast⟩, rfl⟩
    refine ⟨e, (Text.unsigned?_eq_some_iff (by norm_num)).mpr hpart, ?_⟩
    have hfirst : Instant.firstSecond ≤ (e : ℤ) := by
      unfold Instant.firstSecond
      omega
    rw [Instant.ofSeconds?_eq, if_pos ⟨hfirst, hlast⟩]

theorem requestStart_eq_ok_iff (h : Parts id.toList part epoch?) {t : Instant} :
    requestStart id = .ok t ↔
      ∃ epoch, epoch? = some epoch ∧ ∃ e : Nat, SaysSecond epoch e ∧ t = .ofParts e 0 := by
  unfold requestStart
  rw [epochPart?_of_parts h]
  cases epoch? with
  | none => simp
  | some epoch =>
    simp only [Option.some.injEq, exists_eq_left', ← second_eq_some_iff]
    split
    · next heq => rw [heq, Option.some.injEq, Except.ok.injEq]
    · next heq => simp [heq]

theorem requestStart_eq_missing_iff (h : Parts id.toList part epoch?) :
    requestStart id = .error .missingEpoch ↔ '-' ∉ id.toList := by
  rw [mem_dash_iff_of_parts h]
  unfold requestStart
  rw [epochPart?_of_parts h]
  cases epoch? with
  | none => simp
  | some epoch =>
    dsimp only
    split <;> simp

theorem requestStart_eq_bad_iff (h : Parts id.toList part epoch?) :
    requestStart id = .error .badEpoch ↔
      ∃ epoch, epoch? = some epoch ∧ ¬ ∃ e, SaysSecond epoch e := by
  have hsecond : ∀ epoch, (∃ e, SaysSecond epoch e) ↔
      ∃ t, ((Text.unsigned? 16 epoch).bind fun n => Instant.ofSeconds? n) = some t := by
    intro epoch
    simp only [second_eq_some_iff]
    constructor
    · rintro ⟨e, he⟩
      exact ⟨_, e, he, rfl⟩
    · rintro ⟨_, e, he, rfl⟩
      exact ⟨e, he⟩
  unfold requestStart
  rw [epochPart?_of_parts h]
  cases epoch? with
  | none => simp
  | some epoch =>
    simp only [Option.some.injEq, exists_eq_left', hsecond]
    split
    · next heq => simp [heq]
    · next heq => simp [heq]

end Decoding

/-- An id that is made of a version, a second in hexadecimal digits and any text gives back both,
whichever letters and however many zeros they are written with. Of every other id, the parts around
the first two dashes decide what is decoded and what is wrong: the first part is a decimal numeral
of 32 bits or no version; without a dash there is no time of the request, and otherwise the second
part is a hexadecimal numeral of a second of the calendar or no time. So the time is never before
the epoch, and what else is in the id does not matter. -/
theorem decoding_exact :
    (∀ (v e : Nat) (version epoch rest : List Char), v ≤ versionLimit →
      (e : ℤ) ≤ Instant.lastSecond → Text.IsNumeral 10 version v → Text.IsNumeral 16 epoch e →
      TraceId.version (.ofList (version ++ '-' :: (epoch ++ '-' :: rest))) = .ok v ∧
      requestStart (.ofList (version ++ '-' :: (epoch ++ '-' :: rest))) = .ok (.ofParts e 0)) ∧
    (∀ n zeros : Nat, Text.IsNumeral 10 (Text.decimalChars n) n ∧
      Text.IsNumeral 16 (List.replicate zeros '0' ++ Text.hexChars n) n ∧
      Text.IsNumeral 16 (List.replicate zeros '0' ++ (Text.hexChars n).map Char.toUpper) n) ∧
    (∀ id : String, ∃ part epoch?, Parts id.toList part epoch? ∧
      (∀ v, version id = .ok v ↔ SaysVersion part v) ∧
      (version id = .error .badVersion ↔ ¬ ∃ v, SaysVersion part v) ∧
      (requestStart id = .error .missingEpoch ↔ '-' ∉ id.toList) ∧
      (∀ t, requestStart id = .ok t ↔
        ∃ epoch, epoch? = some epoch ∧ ∃ e : Nat, SaysSecond epoch e ∧ t = .ofParts e 0) ∧
      (requestStart id = .error .badEpoch ↔
        ∃ epoch, epoch? = some epoch ∧ ¬ ∃ e, SaysSecond epoch e) ∧
      ∀ t, requestStart id = .ok t → 0 ≤ t.nanoseconds) ∧
    ∀ (id id' : String) (part part' : List Char) (epoch? epoch?' : Option (List Char)),
      Parts id.toList part epoch? → Parts id'.toList part' epoch?' →
      (part = part' → version id = version id') ∧
      (epoch? = epoch?' → requestStart id = requestStart id') := by
  refine ⟨fun v e version epoch rest hv he hversion hepoch => ?_, fun n zeros => ⟨?_, ?_, ?_⟩,
    fun id => ?_, fun id id' part part' epoch? epoch?' h h' => ⟨?_, ?_⟩⟩
  · have hparts : Parts (String.ofList (version ++ '-' :: (epoch ++ '-' :: rest))).toList version
        (some epoch) := by
      rw [String.toList_ofList]
      exact .dashed (fun h => (hversion.ne_sign (by norm_num) _ h).1 rfl)
        (fun h => (hepoch.ne_sign (by norm_num) _ h).1 rfl) (Or.inr ⟨rest, rfl⟩)
    exact ⟨(version_eq_ok_iff hparts).mpr ⟨Or.inl hversion, hv⟩,
      (requestStart_eq_ok_iff hparts).mpr ⟨epoch, rfl, e, ⟨Or.inl hepoch, he⟩, rfl⟩⟩
  · exact Text.isNumeral_digitsIn (by norm_num) n
  · exact (Text.isNumeral_digitsIn (by norm_num) n).zeros (by norm_num) zeros
  · exact ((Text.isNumeral_digitsIn (by norm_num) n).toUpper (by norm_num)).zeros (by norm_num) zeros
  · obtain ⟨part, epoch?, hparts⟩ := exists_parts id.toList
    refine ⟨part, epoch?, hparts, fun v => version_eq_ok_iff hparts, version_eq_error_iff hparts,
      requestStart_eq_missing_iff hparts, fun t => requestStart_eq_ok_iff hparts,
      requestStart_eq_bad_iff hparts, fun t ht => ?_⟩
    obtain ⟨epoch, -, e, -, rfl⟩ := (requestStart_eq_ok_iff hparts).mp ht
    unfold Instant.ofParts Instant.nanosecondsPerSecond
    dsimp only
    omega
  · rintro rfl
    unfold version
    rw [versionPart_of_parts h, versionPart_of_parts h']
  · rintro rfl
    unfold requestStart
    rw [epochPart?_of_parts h, epochPart?_of_parts h']

/-- A version with a zero in front, a second in letters of both cases, and more dashes. -/
theorem decoding_exact_mixedCase :
    let id := String.ofList ("07".toList ++ '-' :: ("0aF".toList ++ '-' :: "x-y".toList))
    id = "07-0aF-x-y" ∧ Text.IsNumeral 10 "07".toList 7 ∧ Text.IsNumeral 16 "0aF".toList 175 ∧
      version id = .ok 7 ∧ requestStart id = .ok (.ofParts 175 0) := by
  intro id
  have hversion : Text.IsNumeral 10 "07".toList 7 :=
    (Text.digits?_eq_some_iff (by norm_num)).mp (by decide +kernel)
  have hepoch : Text.IsNumeral 16 "0aF".toList 175 :=
    (Text.digits?_eq_some_iff (by norm_num)).mp (by decide +kernel)
  obtain ⟨hv, he⟩ := decoding_exact.1 7 175 "07".toList "0aF".toList "x-y".toList (by decide)
    (by decide) hversion hepoch
  exact ⟨by decide +kernel, hversion, hepoch, hv, he⟩

end TraceCollector.TraceId
