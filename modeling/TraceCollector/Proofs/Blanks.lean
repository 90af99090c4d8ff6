import Mathlib.Data.List.Infix
import TraceCollector.Text.Blank

/-!
# Blanks around a text

1. Trimming cuts blanks off a text (`exists_blanks_append_trim`), and what is left has none at its
   ends (`trimmed_trim`).
2. A text without blanks at its ends is what is left of it between any blanks (`trim_of_trimmed`).
   Nothing is left exactly of blanks alone (`trim_eq_nil_iff`).
-/

namespace TraceCollector.Text

/-- There is no blank at the ends of the text. -/
structure Trimmed (cs : List Char) : Prop where
  start : ∀ c ∈ cs.head?, isBlank c = false
  stop : ∀ c ∈ cs.getLast?, isBlank c = false

section Blanks

variable {before cs after : List Char}

theorem Trimmed.reverse (h : Trimmed cs) : Trimmed cs.reverse :=
  ⟨by simpa using h.stop, by simpa using h.start⟩

theorem trimmed_of_forall (h : ∀ c ∈ cs, isBlank c = false) : Trimmed cs :=
  ⟨fun c hc => h c (List.mem_of_mem_head? hc), fun c hc => h c (List.mem_of_mem_getLast? hc)⟩

/-! ## Between blanks -/

theorem trimStart_append (h : ∀ c ∈ before, isBlank c = true) (cs : List Char) :
    trimStart (before ++ cs) = trimStart cs :=
  List.dropWhile_append_of_pos h

theorem trimStart_of_head (h : ∀ c ∈ cs.head?, isBlank c = false) : trimStart cs = cs := by
  cases cs with
  | nil => rfl
  | cons c rest =>
    have hc := h c rfl
    exact List.dropWhile_cons_of_neg (by rw [hc]; exact Bool.false_ne_true)

/-- Blanks around a text that has none at its ends are cut off. -/
theorem trim_of_trimmed (hbefore : ∀ c ∈ before, isBlank c = true)
    (hafter : ∀ c ∈ after, isBlank c = true) (h : Trimmed cs) :
    trim (before ++ cs ++ after) = cs := by
  unfold trim
  rw [List.append_assoc, trimStart_append hbefore]
  cases cs with
  | nil =>
    rw [List.nil_append, ← List.append_nil after, trimStart_append hafter]
    rfl
  | cons c rest =>
    have hstart : trimStart (c :: rest ++ after) = c :: rest ++ after := trimStart_of_head h.start
    rw [hstart, List.reverse_append,
      trimStart_append fun d hd => hafter d (List.mem_reverse.mp hd),
      trimStart_of_head h.reverse.start, List.reverse_reverse]

/-! ## What is left -/

theorem trimStart_head (cs : List Char) : ∀ c ∈ (trimStart cs).head?, isBlank c = false := by
  intro c hc
  have h := List.head?_dropWhile_not isBlank cs
  unfold trimStart at hc
  rw [Option.mem_def.mp hc] at h
  simpa using h

theorem trim_prefix (cs : List Char) : trim cs <+: trimStart cs := by
  have h : trimStart (trimStart cs).reverse <:+ (trimStart cs).reverse := List.dropWhile_suffix _
  unfold trim
  rwa [← List.reverse_suffix, List.reverse_reverse]

theorem trimmed_trim (cs : List Char) : Trimmed (trim cs) := by
  constructor
  · intro c hc
    obtain ⟨rest, hrest⟩ := trim_prefix cs
    refine trimStart_head cs c ?_
    rw [← hrest, List.head?_append, Option.mem_def.mp hc]
    rfl
  · unfold trim
    rw [List.getLast?_reverse]
    exact trimStart_head _

/-- What is cut off a text at its two ends are blanks. -/
theorem exists_blanks_append_trim (cs : List Char) :
    ∃ before after, (∀ c ∈ before, isBlank c = true) ∧ (∀ c ∈ after, isBlank c = true) ∧
      cs = before ++ trim cs ++ after := by
  have hsplit : ∀ ds : List Char, ds.takeWhile isBlank ++ trimStart ds = ds :=
    fun ds => List.takeWhile_append_dropWhile
  refine ⟨cs.takeWhile isBlank, ((trimStart cs).reverse.takeWhile isBlank).reverse,
    fun c hc => List.all_eq_true.mp List.all_takeWhile c hc, fun c hc => ?_, ?_⟩
  · exact List.all_eq_true.mp List.all_takeWhile c (List.mem_reverse.mp hc)
  · unfold trim
    rw [List.append_assoc, ← List.reverse_append, hsplit, List.reverse_reverse, hsplit]

/-- Nothing is left of blanks alone. -/
theorem trim_eq_nil_iff : trim cs = [] ↔ ∀ c ∈ cs, isBlank c = true := by
  constructor
  · intro h
    obtain ⟨before, after, hbefore, hafter, hcs⟩ := exists_blanks_append_trim cs
    rw [h, List.append_nil] at hcs
    rw [hcs]
    exact List.forall_mem_append.mpr ⟨hbefore, hafter⟩
  · intro h
    have hblank := trim_of_trimmed h (List.forall_mem_nil _) (trimmed_of_forall (List.forall_mem_nil _))
    rwa [List.append_nil, List.append_nil] at hblank

end Blanks

end TraceCollector.Text
