import Mathlib.Data.List.Forall2
import Mathlib.Data.Nat.Digits.Defs
import TraceCollector.Proofs.Blanks
import TraceCollector.Text.Numeral

/-!
# Reading numerals

What the reading of a text of digits gives.

1. Digits are read from the most significant on, so the reading of some digits goes on from the
   value of those before (`extendDigits?_eq_some_iff`). It succeeds on the numerals of the base and
   gives their value (`digits?_eq_some_iff`); one plus sign may stand in front
   (`unsigned?_eq_some_iff`).
2. The digits that are written for a number are a numeral of it, with zeros in front or in capital
   letters as well (`isNumeral_digitsIn`, `IsNumeral.zeros`, `IsNumeral.toUpper`).
3. A decimal integer may have a sign and zeros in front (`Writes`). Its forms, and no other texts,
   are read as the integer (`signed?_eq_some_iff`), also between blanks
   (`signed?_trim_eq_some_iff`).
-/

namespace TraceCollector.Text

/-! ## Digits -/

/-- The character is a digit of the base, and this its value; a letter may be of either case. -/
def IsDigit (base : Nat) (c : Char) (d : Nat) : Prop :=
  d < base ∧ (c = digitChar d ∨ c = (digitChar d).toUpper)

theorem toNat_le_toNat {a b : Char} (h : a ≤ b) : a.toNat ≤ b.toNat :=
  UInt32.le_iff_toNat_le.mp (Char.le_def.mp h)

theorem ofNat_add_sub {c : Char} {n k : Nat} (h : n + (c.toNat - k) = c.toNat) :
    c = Char.ofNat (n + (c.toNat - k)) := by
  rw [h, Char.ofNat_toNat]

/-- A base of sixteen or less has no other digits than those of `digitChar`. -/
theorem digitValue?_eq_some_iff {base : Nat} (hbase : base ≤ 16) {c : Char} {d : Nat} :
    digitValue? base c = some d ↔ IsDigit base c d := by
  constructor
  · intro h
    have hcapital : ∀ d < 16, 10 ≤ d → (digitChar d).toUpper = Char.ofNat (55 + d) := by decide
    unfold digitValue? at h
    dsimp only at h
    rw [Option.filter_eq_some_iff, decide_eq_true_eq] at h
    obtain ⟨hvalue, hd⟩ := h
    refine ⟨hd, ?_⟩
    split_ifs at hvalue with hten hsmall hgreat
    · have hlow : 48 ≤ c.toNat := toNat_le_toNat hten.1
      have hhigh : c.toNat ≤ 57 := toNat_le_toNat hten.2
      cases hvalue
      left
      rw [digitChar, if_pos (by omega)]
      exact ofNat_add_sub (by omega)
    · have hlow : 97 ≤ c.toNat := toNat_le_toNat hsmall.1
      cases hvalue
      left
      rw [digitChar, if_neg (by omega)]
      exact ofNat_add_sub (by omega)
    · have hlow : 65 ≤ c.toNat := toNat_le_toNat hgreat.1
      cases hvalue
      right
      rw [hcapital _ (by omega) (by omega)]
      exact ofNat_add_sub (by omega)
  · have hall : ∀ base ≤ 16, ∀ d < base, digitValue? base (digitChar d) = some d ∧
        digitValue? base (digitChar d).toUpper = some d := by decide
    rintro ⟨hd, rfl | rfl⟩
    · exact (hall base hbase d hd).1
    · exact (hall base hbase d hd).2

/-- The reading of digits goes on from the value of those before. -/
theorem extendDigits?_eq_some_iff {base : Nat} (hbase : base ≤ 16) {cs : List Char} {n m : Nat} :
    extendDigits? base n cs = some m ↔
      ∃ ds, List.Forall₂ (IsDigit base) cs ds ∧ m = ds.foldl (fun n d => base * n + d) n := by
  induction cs generalizing n with
  | nil => simp [extendDigits?, eq_comm]
  | cons c rest ih =>
    rw [extendDigits?, Option.bind_eq_some_iff]
    constructor
    · rintro ⟨d, hd, hrest⟩
      obtain ⟨ds, hds, rfl⟩ := ih.mp hrest
      exact ⟨d :: ds, .cons ((digitValue?_eq_some_iff hbase).mp hd) hds, rfl⟩
    · rintro ⟨_, _ | ⟨hd, hds⟩, rfl⟩
      exact ⟨_, (digitValue?_eq_some_iff hbase).mpr hd, ih.mpr ⟨_, hds, rfl⟩⟩

theorem foldl_eq_ofDigits (base : Nat) (ds : List Nat) :
    ds.foldl (fun n d => base * n + d) 0 = Nat.ofDigits base ds.reverse := by
  rw [Nat.ofDigits_eq_foldr, List.foldr_reverse]
  exact congrArg (List.foldl · 0 ds) (funext₂ fun n d => Nat.add_comm _ _)

/-- The characters are one or more digits of the base, the most significant first, and this is
their value. -/
def IsNumeral (base : Nat) (cs : List Char) (n : Nat) : Prop :=
  ∃ ds, ds ≠ [] ∧ List.Forall₂ (IsDigit base) cs ds ∧ n = Nat.ofDigits base ds.reverse

theorem digits?_eq_some_iff {base : Nat} (hbase : base ≤ 16) {cs : List Char} {n : Nat} :
    digits? base cs = some n ↔ IsNumeral base cs n := by
  cases cs with
  | nil =>
    constructor
    · intro h
      cases h
    · rintro ⟨_, hne, _ | _, -⟩
      exact absurd rfl hne
  | cons c rest =>
    rw [digits?, extendDigits?_eq_some_iff hbase]
    constructor
    · rintro ⟨ds, hds, rfl⟩
      refine ⟨ds, ?_, hds, foldl_eq_ofDigits base ds⟩
      rintro rfl
      cases hds
    · rintro ⟨ds, -, hds, rfl⟩
      exact ⟨ds, hds, (foldl_eq_ofDigits base ds).symm⟩

theorem isNumeral_map {base : Nat} {ds : List Nat} (hne : ds ≠ []) (h : ∀ d ∈ ds, d < base) :
    IsNumeral base (ds.map digitChar) (Nat.ofDigits base ds.reverse) := by
  refine ⟨ds, hne, ?_, rfl⟩
  rw [List.forall₂_map_left_iff, List.forall₂_same]
  exact fun d hd => ⟨h d hd, Or.inl rfl⟩

theorem digits?_map {base : Nat} (hbase : base ≤ 16) {ds : List Nat} (hne : ds ≠ [])
    (h : ∀ d ∈ ds, d < base) :
    digits? base (ds.map digitChar) = some (Nat.ofDigits base ds.reverse) :=
  (digits?_eq_some_iff hbase).mpr (isNumeral_map hne h)

/-! ## A plus sign -/

/-- A numeral, perhaps after a plus sign. -/
def IsUnsigned (base : Nat) (cs : List Char) (n : Nat) : Prop :=
  IsNumeral base cs n ∨ ∃ rest, cs = '+' :: rest ∧ IsNumeral base rest n

theorem IsDigit.ne_sign {base : Nat} (hbase : base ≤ 16) {c : Char} {d : Nat}
    (h : IsDigit base c d) : c ≠ '-' ∧ c ≠ '+' := by
  have hall : ∀ d < 16, (digitChar d ≠ '-' ∧ digitChar d ≠ '+') ∧
      (digitChar d).toUpper ≠ '-' ∧ (digitChar d).toUpper ≠ '+' := by decide
  obtain ⟨hd, rfl | rfl⟩ := h
  · exact (hall d (lt_of_lt_of_le hd hbase)).1
  · exact (hall d (lt_of_lt_of_le hd hbase)).2

theorem IsNumeral.ne_sign {base : Nat} (hbase : base ≤ 16) {cs : List Char} {n : Nat}
    (h : IsNumeral base cs n) : ∀ c ∈ cs, c ≠ '-' ∧ c ≠ '+' := by
  obtain ⟨ds, -, hds, -⟩ := h
  induction hds with
  | nil => simp
  | cons hd _ ih => exact List.forall_mem_cons.mpr ⟨hd.ne_sign hbase, ih⟩

theorem unsigned?_eq_some_iff {base : Nat} (hbase : base ≤ 16) {cs : List Char} {n : Nat} :
    unsigned? base cs = some n ↔ IsUnsigned base cs n := by
  unfold unsigned? IsUnsigned
  split
  · next rest =>
    rw [digits?_eq_some_iff hbase]
    constructor
    · exact fun h => Or.inr ⟨rest, rfl, h⟩
    · rintro (h | ⟨_, heq, h⟩)
      · exact absurd rfl (h.ne_sign hbase '+' List.mem_cons_self).2
      · cases heq
        exact h
  · next hplus =>
    rw [digits?_eq_some_iff hbase]
    constructor
    · exact Or.inl
    · rintro (h | ⟨rest, rfl, -⟩)
      · exact h
      · exact absurd rfl (hplus rest)

/-! ## Written numerals -/

theorem digitsIn_of_lt {base n : Nat} (h : n < base) : digitsIn base n = [n] := by
  rw [digitsIn, if_pos (Or.inl h)]

theorem digitsIn_of_le {base n : Nat} (hbase : 1 < base) (h : base ≤ n) :
    digitsIn base n = digitsIn base (n / base) ++ [n % base] := by
  rw [digitsIn, if_neg (by omega)]

theorem lt_of_mem_digitsIn {base : Nat} (hbase : 1 < base) (n : Nat) :
    ∀ d ∈ digitsIn base n, d < base := by
  induction n using Nat.strongRecOn with
  | ind n ih =>
    rcases lt_or_ge n base with hn | hn
    · rw [digitsIn_of_lt hn]
      simpa using hn
    · rw [digitsIn_of_le hbase hn]
      intro d hd
      rcases List.mem_append.mp hd with hd | hd
      · exact ih _ (Nat.div_lt_self (by omega) hbase) d hd
      · rw [List.mem_singleton.mp hd]
        exact Nat.mod_lt n (by omega)

theorem ofDigits_digitsIn {base : Nat} (hbase : 1 < base) (n : Nat) :
    Nat.ofDigits base (digitsIn base n).reverse = n := by
  induction n using Nat.strongRecOn with
  | ind n ih =>
    rcases lt_or_ge n base with hn | hn
    · rw [digitsIn_of_lt hn, List.reverse_singleton, Nat.ofDigits_singleton]
    · rw [digitsIn_of_le hbase hn, List.reverse_concat, Nat.ofDigits_cons,
        ih _ (Nat.div_lt_self (by omega) hbase)]
      exact Nat.mod_add_div n base

theorem digitsIn_ne_nil {base : Nat} (hbase : 1 < base) (n : Nat) : digitsIn base n ≠ [] := by
  rcases lt_or_ge n base with hn | hn
  · rw [digitsIn_of_lt hn]
    exact List.cons_ne_nil _ _
  · rw [digitsIn_of_le hbase hn]
    exact List.append_ne_nil_of_right_ne_nil _ (List.cons_ne_nil _ _)

/-- The digits of a number are a numeral of it. -/
theorem isNumeral_digitsIn {base : Nat} (hbase : 1 < base) (n : Nat) :
    IsNumeral base ((digitsIn base n).map digitChar) n := by
  have h := isNumeral_map (digitsIn_ne_nil hbase n) (lt_of_mem_digitsIn hbase n)
  rwa [ofDigits_digitsIn hbase] at h

section IsNumeral

variable {base n : Nat} {cs : List Char}

theorem IsNumeral.zeros (h : IsNumeral base cs n) (hbase : 0 < base) (k : Nat) :
    IsNumeral base (List.replicate k '0' ++ cs) n := by
  induction k with
  | zero => exact h
  | succ k ih =>
    obtain ⟨ds, -, hds, rfl⟩ := ih
    refine ⟨0 :: ds, List.cons_ne_nil _ _, .cons ⟨hbase, Or.inl (by decide)⟩ hds, ?_⟩
    rw [List.reverse_cons, Nat.ofDigits_append]
    simp

theorem IsNumeral.toUpper (h : IsNumeral base cs n) (hbase : base ≤ 16) :
    IsNumeral base (cs.map Char.toUpper) n := by
  have htwice : ∀ d < 16, (digitChar d).toUpper.toUpper = (digitChar d).toUpper := by decide
  obtain ⟨ds, hne, hds, rfl⟩ := h
  refine ⟨ds, hne, ?_, rfl⟩
  rw [List.forall₂_map_left_iff]
  refine hds.imp fun c d hc => ?_
  obtain ⟨hd, rfl | rfl⟩ := hc
  · exact ⟨hd, Or.inr rfl⟩
  · exact ⟨hd, Or.inr (htwice d (lt_of_lt_of_le hd hbase))⟩

end IsNumeral

/-! ## Integers -/

/-- The characters write the integer in decimal: one or more digits, zeros in front allowed, and
perhaps a sign. -/
inductive Writes : List Char → ℤ → Prop where
  | plain {ds : List Nat} (hne : ds ≠ []) (h : ∀ d ∈ ds, d < 10) :
    Writes (ds.map digitChar) (Nat.ofDigits 10 ds.reverse : ℕ)
  | plus {ds : List Nat} (hne : ds ≠ []) (h : ∀ d ∈ ds, d < 10) :
    Writes ('+' :: ds.map digitChar) (Nat.ofDigits 10 ds.reverse : ℕ)
  | minus {ds : List Nat} (hne : ds ≠ []) (h : ∀ d ∈ ds, d < 10) :
    Writes ('-' :: ds.map digitChar) (-(Nat.ofDigits 10 ds.reverse : ℕ))

theorem signed?_of_writes {cs : List Char} {n : ℤ} (h : Writes cs n) :
    signed? 10 cs = some n := by
  cases h with
  | @plain ds hne h =>
    have hdigits := digits?_map (by norm_num) hne h
    cases ds with
    | nil => exact absurd rfl hne
    | cons d rest =>
      obtain ⟨hminus, hplus⟩ := (isNumeral_map hne h).ne_sign (by norm_num) _ List.mem_cons_self
      rw [List.map_cons] at hdigits ⊢
      unfold signed?
      split
      · next hcs => exact absurd (List.cons.inj hcs).1 hminus
      · unfold unsigned?
        split
        · next hcs => exact absurd (List.cons.inj hcs).1 hplus
        · rw [hdigits]
          rfl
  | plus hne h => exact congrArg (·.map Int.ofNat) (digits?_map (by norm_num) hne h)
  | minus hne h =>
    change Option.map _ (digits? 10 _ >>= _) = _
    rw [digits?_map (by norm_num) hne h]
    rfl

/-- No decimal digit is a letter, so none has a second form. -/
theorem IsDigit.eq_digitChar {c : Char} {d : Nat} (h : IsDigit 10 c d) : c = digitChar d := by
  have hcapital : ∀ d < 10, (digitChar d).toUpper = digitChar d := by decide
  obtain ⟨hd, rfl | rfl⟩ := h
  · rfl
  · exact hcapital d hd

theorem isNumeral_ten_iff {cs : List Char} {n : Nat} :
    IsNumeral 10 cs n ↔ ∃ ds, ds ≠ [] ∧ (∀ d ∈ ds, d < 10) ∧ cs = ds.map digitChar ∧
      n = Nat.ofDigits 10 ds.reverse := by
  constructor
  · rintro ⟨ds, hne, hds, rfl⟩
    have hchars : (∀ d ∈ ds, d < 10) ∧ cs = ds.map digitChar := by
      clear hne
      induction hds with
      | nil => exact ⟨List.forall_mem_nil _, rfl⟩
      | cons hd _ ih =>
        rw [List.map_cons, ← hd.eq_digitChar, ← ih.2]
        exact ⟨List.forall_mem_cons.mpr ⟨hd.1, ih.1⟩, rfl⟩
    exact ⟨ds, hne, hchars.1, hchars.2, rfl⟩
  · rintro ⟨ds, hne, hds, rfl, rfl⟩
    exact isNumeral_map hne hds

/-- An integer is read from the forms in which it is written, and from no other text. -/
theorem signed?_eq_some_iff {cs : List Char} {n : ℤ} : signed? 10 cs = some n ↔ Writes cs n := by
  constructor
  · intro h
    unfold signed? at h
    split at h
    · next rest =>
      obtain ⟨_, hvalue, rfl⟩ := Option.map_eq_some_iff.mp h
      obtain ⟨m, hm, hcast⟩ := Option.bind_eq_some_iff.mp hvalue
      cases hcast
      obtain ⟨ds, hne, hds, rfl, rfl⟩ :=
        isNumeral_ten_iff.mp ((digits?_eq_some_iff (by norm_num)).mp hm)
      exact .minus hne hds
    · obtain ⟨m, hm, rfl⟩ := Option.map_eq_some_iff.mp h
      rcases (unsigned?_eq_some_iff (by norm_num)).mp hm with hplain | ⟨rest, rfl, hplus⟩
      · obtain ⟨ds, hne, hds, rfl, rfl⟩ := isNumeral_ten_iff.mp hplain
        exact .plain hne hds
      · obtain ⟨ds, hne, hds, rfl, rfl⟩ := isNumeral_ten_iff.mp hplus
        exact .plus hne hds
  · exact signed?_of_writes

theorem isBlank_of_writes {cs : List Char} {n : ℤ} (h : Writes cs n) :
    ∀ c ∈ cs, isBlank c = false := by
  have hdigit : ∀ d < 10, isBlank (digitChar d) = false := by decide
  have hdigits : ∀ {ds : List Nat}, (∀ d ∈ ds, d < 10) → ∀ c ∈ ds.map digitChar,
      isBlank c = false := by
    intro ds hds c hc
    obtain ⟨d, hd, rfl⟩ := List.mem_map.mp hc
    exact hdigit d (hds d hd)
  cases h with
  | plain hne h => exact hdigits h
  | plus hne h => exact List.forall_mem_cons.mpr ⟨by decide, hdigits h⟩
  | minus hne h => exact List.forall_mem_cons.mpr ⟨by decide, hdigits h⟩

/-- An integer in decimal is read through the blanks around it. -/
theorem signed?_trim_eq_some_iff {cs : List Char} {n : ℤ} :
    signed? 10 (trim cs) = some n ↔ ∃ before ds after, (∀ c ∈ before, isBlank c = true) ∧
      (∀ c ∈ after, isBlank c = true) ∧ cs = before ++ ds ++ after ∧ Writes ds n := by
  rw [signed?_eq_some_iff]
  constructor
  · intro h
    obtain ⟨before, after, hbefore, hafter, hcs⟩ := exists_blanks_append_trim cs
    exact ⟨before, trim cs, after, hbefore, hafter, hcs, h⟩
  · rintro ⟨before, ds, after, hbefore, hafter, rfl, h⟩
    rwa [trim_of_trimmed hbefore hafter (trimmed_of_forall (isBlank_of_writes h))]

end TraceCollector.Text
