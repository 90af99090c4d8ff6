import TraceCollector.Json.Shape
import TraceCollector.Proofs.DictionaryOrder

/-!
# Objects that are read

The members of an object are inserted one after the other as they are read. So an object that is
read from a text has its keys in order, and none of them twice, however they are written.
-/

namespace TraceCollector.Json

theorem ordered_of_members {plan : Dictionary Value → String → Except Mismatch MemberReader}
    {first : Bool} {read all : Dictionary Value} {s r : List UInt8}
    (h : members plan first read s = .ok (all, r)) (hread : read.Ordered) : all.Ordered := by
  fun_induction members plan first read s
  case case2 =>
    cases h
    exact hread
  case case7 ih => exact ih h hread
  case case8 ih => exact ih h (Dictionary.ordered_insert hread _ _)
  all_goals cases h

/-- A value without brackets is no object. -/
theorem ne_object_of_scalar {s r : List UInt8} {fields : Dictionary Value} :
    scalar s ≠ .ok (.object fields, r) := by
  intro h
  unfold scalar at h
  split at h
  case h_1 => cases h
  case h_7 =>
    split at h
    · obtain ⟨_, -, hvalue⟩ := readAs_eq_ok.mp h
      cases hvalue
    · cases h
  all_goals
    obtain ⟨_, -, hvalue⟩ := readAs_eq_ok.mp h
    cases hvalue

theorem ordered_of_readNext {inner : Option (Shape → Reader Value)} {s r : List UInt8}
    {fields : Dictionary Value} (h : readNext inner .any s = .ok (.object fields, r)) :
    fields.Ordered := by
  unfold readNext at h
  split at h
  case h_1 =>
    obtain ⟨reader, h⟩ := eq_ok_of_nested h
    obtain ⟨_, -, hvalue⟩ := readAs_eq_ok.mp h
    cases hvalue
  case h_2 =>
    obtain ⟨reader, h⟩ := eq_ok_of_nested h
    obtain ⟨_, hmembers, hvalue⟩ := readAs_eq_ok.mp h
    cases hvalue
    exact ordered_of_members hmembers Dictionary.ordered_empty
  case h_3 => exact absurd h ne_object_of_scalar
  all_goals cases ‹Shape.any = _›

/-- The keys of an object that a text holds ascend. -/
theorem ordered_of_read {text : List UInt8} {fields : Dictionary Value}
    (h : read text = .ok (.object fields)) : fields.Ordered := by
  unfold read Shape.read at h
  split at h
  · cases h
  · next v r hrun =>
    split at h
    · cases h
      exact ordered_of_readNext hrun
    · cases h

end TraceCollector.Json
