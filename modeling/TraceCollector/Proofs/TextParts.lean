import Mathlib.Data.List.Infix
import TraceCollector.Text.Split

/-!
# Parts of a text, by what stands around them

1. A text is taken from its start while a test holds, and the test fails of what comes first in the
   rest (`takeWhile_append`, `exists_span`). Cutting takes the part in front of the first end and
   goes on behind it (`splitWhere_append`), so the parts of a text are told by what stands around
   them (`getElem?_splitWhere_zero`, `getElem?_splitWhere_succ`). They hold all characters but the
   ends (`forall_mem_splitWhere_iff`). Where the ends are one character, this is the splitting of
   lists (`splitWhere_eq_splitOn`).
2. A phrase whose first character does not occur in it again cannot overlap with itself. What
   follows its first occurrence is then what follows it behind a text in which it does not occur
   (`afterFirst?_eq_some_iff`).
-/

namespace TraceCollector.Text

/-! ## The first part -/

section FirstPart

variable {p : Char → Bool} {cs part after : List Char}

theorem takeWhile_append (hpart : ∀ c ∈ part, p c = true) (hafter : ∀ c ∈ after.head?, p c = false) :
    (part ++ after).takeWhile p = part ∧ (part ++ after).dropWhile p = after := by
  rw [List.takeWhile_append_of_pos hpart, List.dropWhile_append_of_pos hpart]
  cases after with
  | nil => simp
  | cons c rest =>
    have hc := hafter c rfl
    simp [hc]

/-- Every text is what is taken from it and what is left. -/
theorem exists_span (p : Char → Bool) (cs : List Char) :
    ∃ part after, cs = part ++ after ∧ (∀ c ∈ part, p c = true) ∧ ∀ c ∈ after.head?, p c = false := by
  refine ⟨cs.takeWhile p, cs.dropWhile p, List.takeWhile_append_dropWhile.symm,
    fun c hc => List.all_eq_true.mp List.all_takeWhile c hc, fun c hc => ?_⟩
  have h := List.head?_dropWhile_not p cs
  rw [Option.mem_def.mp hc] at h
  simpa using h

end FirstPart

/-! ## Cutting -/

section Cut

variable {isEnd : Char → Bool} {cs part after : List Char}

/-- Cutting goes on behind the first end. -/
theorem splitWhere_eq (isEnd : Char → Bool) (cs : List Char) :
    splitWhere isEnd cs = cs.takeWhile (fun c => !isEnd c) ::
      (cs.dropWhile fun c => !isEnd c).tail?.elim [] (splitWhere isEnd) := by
  induction cs with
  | nil => rfl
  | cons c rest ih =>
    rw [splitWhere]
    cases hc : isEnd c with
    | true => simp [hc]
    | false =>
      rw [ih]
      simp [hc]

theorem splitWhere_append (h : ∀ c ∈ part, isEnd c = false)
    (hafter : ∀ c ∈ after.head?, isEnd c = true) :
    splitWhere isEnd (part ++ after) = part :: after.tail?.elim [] (splitWhere isEnd) := by
  have hspan : (part ++ after).takeWhile (fun c => !isEnd c) = part ∧
      (part ++ after).dropWhile (fun c => !isEnd c) = after :=
    takeWhile_append (fun c hc => by simp [h c hc]) fun c hc => by simp [hafter c hc]
  rw [splitWhere_eq, hspan.1, hspan.2]

/-- Every text is its first part and what follows it: nothing, or an end and more. -/
theorem exists_firstPart (isEnd : Char → Bool) (cs : List Char) :
    ∃ part after, cs = part ++ after ∧ (∀ c ∈ part, isEnd c = false) ∧
      ∀ c ∈ after.head?, isEnd c = true := by
  obtain ⟨part, after, rfl, hpart, hafter⟩ := exists_span (fun c => !isEnd c) cs
  exact ⟨part, after, rfl, fun c hc => by simpa using hpart c hc,
    fun c hc => by simpa using hafter c hc⟩

theorem getElem?_splitWhere_zero :
    (splitWhere isEnd cs)[0]? = some part ↔
      ∃ after, cs = part ++ after ∧ (∀ c ∈ part, isEnd c = false) ∧
        ∀ c ∈ after.head?, isEnd c = true := by
  constructor
  · intro h
    obtain ⟨first, after, rfl, hfirst, hafter⟩ := exists_firstPart isEnd cs
    rw [splitWhere_append hfirst hafter, List.getElem?_cons_zero, Option.some.injEq] at h
    subst h
    exact ⟨after, rfl, hfirst, hafter⟩
  · rintro ⟨after, rfl, hpart, hafter⟩
    rw [splitWhere_append hpart hafter, List.getElem?_cons_zero]

/-- Every other part is one of what follows the first end. -/
theorem getElem?_splitWhere_succ {i : ℕ} :
    (splitWhere isEnd cs)[i + 1]? = some part ↔
      ∃ first c rest, cs = first ++ c :: rest ∧ (∀ x ∈ first, isEnd x = false) ∧
        isEnd c = true ∧ (splitWhere isEnd rest)[i]? = some part := by
  constructor
  · intro h
    obtain ⟨first, after, rfl, hfirst, hafter⟩ := exists_firstPart isEnd cs
    rw [splitWhere_append hfirst hafter, List.getElem?_cons_succ] at h
    cases after with
    | nil => simp at h
    | cons c rest => exact ⟨first, c, rest, rfl, hfirst, hafter c rfl, h⟩
  · rintro ⟨first, c, rest, rfl, hfirst, hc, h⟩
    rw [splitWhere_append hfirst fun x hx => by rwa [← Option.some.inj hx],
      List.getElem?_cons_succ]
    exact h

/-- The parts hold every character that is no end. -/
theorem forall_mem_splitWhere_iff {P : Char → Prop} :
    (∀ part ∈ splitWhere isEnd cs, ∀ c ∈ part, P c) ↔ ∀ c ∈ cs, isEnd c = true ∨ P c := by
  induction cs with
  | nil => simp [splitWhere]
  | cons c rest ih =>
    rw [List.forall_mem_cons, ← ih, splitWhere]
    split_ifs with hc
    · simp [hc]
    · cases splitWhere isEnd rest with
      | nil => simp [hc]
      | cons part parts => simp [hc, and_assoc]

/-- Cutting at every occurrence of one character is splitting on it. -/
theorem splitWhere_eq_splitOn (a : Char) (cs : List Char) :
    splitWhere (· == a) cs = cs.splitOn a := by
  rw [List.splitOn_eq_splitOnP]
  induction cs with
  | nil => rfl
  | cons c rest ih =>
    rw [List.splitOnP_cons_eq_if_modifyHead, splitWhere, ih]
    split_ifs
    · rfl
    · obtain ⟨part, parts, hparts⟩ :=
        List.exists_cons_of_ne_nil (List.splitOnP_ne_nil (· == a) rest)
      rw [hparts, List.modifyHead_cons]

end Cut

/-! ## Phrases -/

section Phrase

variable {a : Char} {tail text rest : List Char}

/-- A phrase that began in a text and reached into the same phrase behind it would have its first
character in its tail. -/
theorem isPrefix_of_isPrefix_append {before : List Char} (ha : a ∉ tail) (hne : before ≠ [])
    (h : a :: tail <+: before ++ (a :: tail ++ rest)) : a :: tail <+: before := by
  rcases List.prefix_or_prefix_of_prefix h (List.prefix_append before _) with hprefix | hprefix
  · exact hprefix
  obtain ⟨overlap, hoverlap⟩ := hprefix
  cases before with
  | nil => exact absurd rfl hne
  | cons b later =>
    cases overlap with
    | nil =>
      rw [List.append_nil] at hoverlap
      rw [hoverlap]
    | cons c overlap =>
      rw [← hoverlap, List.prefix_append_right_inj, hoverlap, List.cons_append,
        List.cons_prefix_cons] at h
      obtain ⟨rfl, -⟩ := h
      rw [List.cons_append] at hoverlap
      have htail := (List.cons.inj hoverlap).2
      exact absurd (htail ▸ List.mem_append_right later List.mem_cons_self) ha

/-- What follows a phrase that cannot overlap with itself follows its first occurrence. -/
theorem afterFirst?_eq_some_iff (ha : a ∉ tail) :
    afterFirst? (a :: tail) text = some rest ↔
      ∃ before, text = before ++ (a :: tail ++ rest) ∧ ¬ a :: tail <:+: before := by
  constructor
  · intro h
    induction text with
    | nil => simp [afterFirst?] at h
    | cons c text ih =>
      rw [afterFirst?] at h
      split_ifs at h with hprefix
      · obtain ⟨after, hafter⟩ := List.isPrefixOf_iff_prefix.mp hprefix
        rw [← hafter, List.drop_left, Option.some.injEq] at h
        refine ⟨[], ?_, by simp⟩
        rw [← hafter, h, List.nil_append]
      · obtain ⟨before, rfl, hbefore⟩ := ih h
        refine ⟨c :: before, rfl, ?_⟩
        rw [List.infix_cons_iff, not_or]
        refine ⟨fun hnot => hprefix (List.isPrefixOf_iff_prefix.mpr ?_), hbefore⟩
        exact hnot.trans (List.prefix_append (c :: before) _)
  · rintro ⟨before, rfl, hbefore⟩
    induction before with
    | nil =>
      have hprefix : a :: tail <+: a :: (tail ++ rest) := List.prefix_append (a :: tail) rest
      rw [List.nil_append, List.cons_append, afterFirst?,
        if_pos (List.isPrefixOf_iff_prefix.mpr hprefix), ← List.cons_append, List.drop_left]
    | cons c before ih =>
      rw [List.infix_cons_iff, not_or] at hbefore
      have hnot : ¬ a :: tail <+: c :: before ++ (a :: tail ++ rest) := fun h =>
        hbefore.1 (isPrefix_of_isPrefix_append ha (List.cons_ne_nil _ _) h)
      rw [List.cons_append] at hnot ⊢
      rw [afterFirst?, if_neg (fun h => hnot (List.isPrefixOf_iff_prefix.mp h))]
      exact ih hbefore.2

end Phrase

end TraceCollector.Text
