import TraceCollector.Json.Shape
import TraceCollector.Proofs.DictionaryOrder

/-!
# Values of a shape

Which values a shape admits is said without reference to texts (`Conforms`). What a reader reads is
one of them (`conforms_of_read`), by induction on the brackets that may be nested: the readers of
lists, objects and records keep nothing but what the reader of their parts gives.
-/

namespace TraceCollector.Json

/-- The field of a name. -/
def fieldNamed? (fields : List (Field Shape)) (key : String) : Option (Field Shape) :=
  fields.find? (·.name == key)

/-- The value is one of the shape. A record may leave out what is not required, but has no members
that it does not name. -/
inductive Conforms : Shape → Value → Prop where
  | any (v : Value) : Conforms .any v
  | scalar {form : ScalarForm} {v : Value} (h : form.admit v = .ok ()) : Conforms (.scalar form) v
  | absent (form : ScalarForm) : Conforms (.optional form) .null
  | optional {form : ScalarForm} {v : Value} (h : form.admit v = .ok ()) :
    Conforms (.optional form) v
  | list {item : Shape} {items : List Value} (h : ∀ v ∈ items, Conforms item v) :
    Conforms (.list item) (.array items)
  | dictionary (members : Dictionary Value) : Conforms .dictionary (.object members)
  | choice {variants : List String} {name : String} (h : name ∈ variants) :
    Conforms (.choice variants) (.string name)
  | record {name : String} {fields : List (Field Shape)} {members : Dictionary Value}
    (hnamed : ∀ key, members.contains key = true → (fieldNamed? fields key).isSome = true)
    (hvalues : ∀ key v field, members.get? key = some v → fieldNamed? fields key = some field →
      Conforms field.shape v)
    (hrequired : ∀ field ∈ fields, field.required = true → members.contains field.name = true) :
    Conforms (.record name fields) (.object members)

/-- A record is an object with values of the shapes that its fields have. -/
theorem Conforms.exists_members {name : String} {fields : List (Field Shape)} {v : Value}
    (h : Conforms (.record name fields) v) :
    ∃ members, v = .object members ∧ ∀ key w field, members.get? key = some w →
      fieldNamed? fields key = some field → Conforms field.shape w := by
  cases h with
  | record _ hvalues => exact ⟨_, rfl, hvalues⟩

/-- No record of the shape names a field twice. -/
inductive Shape.Distinct : Shape → Prop where
  | any : Distinct .any
  | scalar (form : ScalarForm) : Distinct (.scalar form)
  | optional (form : ScalarForm) : Distinct (.optional form)
  | list {item : Shape} (h : item.Distinct) : Distinct (.list item)
  | dictionary : Distinct .dictionary
  | choice (variants : List String) : Distinct (.choice variants)
  | record {name : String} {fields : List (Field Shape)} (hnames : (fields.map (·.name)).Nodup)
    (h : ∀ field ∈ fields, field.shape.Distinct) : Distinct (.record name fields)

/-! ## Values without parts -/

theorem admit_of_scalarOf {form : ScalarForm} {s r : List UInt8} {v : Value}
    (h : scalarOf form s = .ok (v, r)) : form.admit v = .ok () := by
  unfold scalarOf at h
  split at h
  · cases h
  · cases h
  · split at h
    · cases h
    · split at h
      · next hform => cases h; exact hform
      · cases h

theorem mem_of_variant {variants : List String} {s r : List UInt8} {name : String}
    (h : variant variants s = .ok (name, r)) : name ∈ variants := by
  unfold variant at h
  split at h
  · cases h
  · split at h
    · next hmem => cases h; exact hmem
    · cases h

theorem mem_of_variantObject {variants : List String} {s r : List UInt8} {name : String}
    (h : variantObject variants s = .ok (name, r)) : name ∈ variants := by
  fun_cases variantObject variants s
  all_goals grind [→ mem_of_variant, variantObject]

/-! ## Lists and objects -/

/-- What a list holds has been read by the reader of its items. -/
theorem exists_run_of_mem_items {α : Type} {item : Reader α} {first : Bool} {s r : List UInt8}
    {as : List α} (h : items item first s = .ok (as, r)) :
    ∀ a ∈ as, ∃ t u, item.run t = .ok (a, u) := by
  fun_induction items item first s generalizing as r
  case case2 =>
    cases h
    intro a ha
    cases ha
  case case5 hrun _ _ hrest ih =>
    cases h
    exact List.forall_mem_cons.mpr ⟨⟨_, _, hrun⟩, ih hrest⟩
  all_goals cases h

/-- What an object holds was there before, or has been read as was planned for its key. -/
theorem exists_run_of_members {plan : Dictionary Value → String → Except Mismatch MemberReader}
    {first : Bool} {read all : Dictionary Value} {s r : List UInt8}
    (h : members plan first read s = .ok (all, r)) {key : String} {v : Value}
    (hget : all.get? key = some v) :
    read.get? key = some v ∨ ∃ before reader t u,
      plan before key = .ok reader ∧ reader.run t = .ok (some v, u) := by
  fun_induction members plan first read s
  case case2 =>
    cases h
    exact Or.inl hget
  case case7 ih => exact ih h
  case case8 other _ _ reader hplan _ _ w _ hrun ih =>
    rcases ih h with hinsert | hlater
    · rw [Dictionary.get?_insert] at hinsert
      split_ifs at hinsert with hkey
      · cases hinsert
        subst hkey
        exact Or.inr ⟨_, _, _, _, hplan, hrun⟩
      · exact Or.inl hinsert
    · exact Or.inr hlater
  all_goals cases h

/-! ## Records -/

theorem firstRequired?_eq_none_iff {σ : Type} {fields : List (Field σ)} {index : Nat} :
    firstRequired? index fields = none ↔ ∀ field ∈ fields, field.required = false := by
  induction fields generalizing index with
  | nil => exact iff_of_true rfl fun _ h => by cases h
  | cons field rest ih =>
    rw [firstRequired?, List.forall_mem_cons, ← @ih (index + 1)]
    cases field.required <;> simp

/-- Nothing that is required is missing. -/
theorem firstRequired?_missing_eq_none_iff {fields : List (Field Shape)}
    {members : Dictionary Value} :
    firstRequired? 0 (fields.filter fun field => !members.contains field.name) = none ↔
      ∀ field ∈ fields, field.required = true → members.contains field.name = true := by
  rw [firstRequired?_eq_none_iff]
  simp only [List.mem_filter, Bool.not_eq_true']
  constructor
  · intro h field hfield hrequired
    by_contra hnot
    have hfalse := h field ⟨hfield, Bool.eq_false_iff.mpr hnot⟩
    exact Bool.false_ne_true (hfalse.symm.trans hrequired)
  · rintro h field ⟨hfield, hmissing⟩
    exact Bool.eq_false_iff.mpr fun hrequired =>
      Bool.false_ne_true (hmissing.symm.trans (h field hfield hrequired))

/-- What is planned for a key of a record reads values of the field of that name. -/
theorem exists_run_of_fieldPlan {reader : Shape → Reader Value} {fields : List (Field Shape)}
    {read : Dictionary Value} {key : String} {member : MemberReader} {t u : List UInt8} {v : Value}
    (hplan : fieldPlan reader fields read key = .ok member)
    (hrun : member.run t = .ok (some v, u)) :
    ∃ field, fieldNamed? fields key = some field ∧ (reader field.shape).run t = .ok (v, u) := by
  unfold fieldPlan at hplan
  split at hplan
  · cases hplan
    obtain ⟨_, -, hnone⟩ := readAs_eq_ok.mp hrun
    cases hnone
  · next field hfield =>
    split at hplan
    · cases hplan
    · cases hplan
      obtain ⟨w, hw, hsome⟩ := readAs_eq_ok.mp hrun
      cases hsome
      exact ⟨field, hfield, hw⟩

section Records

variable {reader : Shape → Reader Value} {fields : List (Field Shape)}

/-- The members that have been read so far are fields of the record, with values of their shapes. -/
structure Admitted (fields : List (Field Shape)) (members : Dictionary Value) : Prop where
  named : ∀ key, members.contains key = true → (fieldNamed? fields key).isSome = true
  values : ∀ key v field, members.get? key = some v → fieldNamed? fields key = some field →
    Conforms field.shape v

theorem admitted_empty : Admitted fields ∅ where
  named key h := by cases h
  values key v field h := by cases h

theorem Admitted.insert {members : Dictionary Value} (h : Admitted fields members) {key : String}
    {field : Field Shape} {v : Value} (hfield : fieldNamed? fields key = some field)
    (hv : Conforms field.shape v) : Admitted fields (members.insert key v) where
  named k hk := by
    unfold Dictionary.contains at hk
    rw [Dictionary.get?_insert] at hk
    split_ifs at hk with hkey
    · rw [hkey, hfield]
      rfl
    · exact h.named k hk
  values k w field' hk hfield' := by
    rw [Dictionary.get?_insert] at hk
    split_ifs at hk with hkey
    · cases hk
      rw [hkey, hfield] at hfield'
      cases hfield'
      exact hv
    · exact h.values k w field' hk hfield'

/-- The reader gives nothing but values of the shapes. -/
def Sound (reader : Shape → Reader Value) : Prop :=
  ∀ {shape : Shape} {s r : List UInt8} {v : Value}, shape.Distinct →
    (reader shape).run s = .ok (v, r) → Conforms shape v

theorem admitted_of_members (hsound : Sound reader)
    (hshapes : ∀ field ∈ fields, field.shape.Distinct) {s r : List UInt8}
    {read : Dictionary Value} (h : members (fieldPlan reader fields) true ∅ s = .ok (read, r)) :
    Admitted fields read := by
  have hread : ∀ {key v}, read.get? key = some v →
      ∃ field, fieldNamed? fields key = some field ∧ Conforms field.shape v := by
    intro key v hget
    rcases exists_run_of_members h hget with hnone | ⟨_, _, _, _, hplan, hrun⟩
    · cases hnone
    · obtain ⟨field, hfield, hrun⟩ := exists_run_of_fieldPlan hplan hrun
      exact ⟨field, hfield, hsound (hshapes field (List.mem_of_find?_eq_some hfield)) hrun⟩
  constructor
  · intro key hkey
    obtain ⟨v, hv⟩ := Option.isSome_iff_exists.mp hkey
    obtain ⟨field, hfield, -⟩ := hread hv
    exact Option.isSome_iff_exists.mpr ⟨field, hfield⟩
  · intro key v field hget hfield
    obtain ⟨field', hfield', hv⟩ := hread hget
    cases hfield.symm.trans hfield'
    exact hv

theorem conforms_of_namedFields (hsound : Sound reader)
    (hshapes : ∀ field ∈ fields, field.shape.Distinct) (name : String) {s r : List UInt8}
    {members : Dictionary Value} (h : namedFields reader fields s = .ok (members, r)) :
    Conforms (.record name fields) (.object members) := by
  unfold namedFields at h
  split at h
  · cases h
  · next hmembers =>
    split at h
    · cases h
    · next hmissing =>
      cases h
      have hadmitted := admitted_of_members hsound hshapes hmembers
      exact .record hadmitted.named hadmitted.values
        (firstRequired?_missing_eq_none_iff.mp hmissing)

theorem fieldNamed?_of_mem (hnames : (fields.map (·.name)).Nodup) {field : Field Shape}
    (h : field ∈ fields) : fieldNamed? fields field.name = some field := by
  have hsome : (fieldNamed? fields field.name).isSome = true :=
    List.find?_isSome.mpr ⟨field, h, beq_self_eq_true _⟩
  obtain ⟨found, hfound⟩ := Option.isSome_iff_exists.mp hsome
  have hname := List.find?_some hfound
  rw [hfound, List.inj_on_of_nodup_map hnames (List.mem_of_find?_eq_some hfound) h
    (beq_iff_eq.mp hname)]

/-- A record that is written as a list has the values of its first fields. -/
theorem conforms_of_positionalFields (hsound : Sound reader)
    (hshapes : ∀ field ∈ fields, field.shape.Distinct) (hnames : (fields.map (·.name)).Nodup)
    {record : String} (name : String) {size index : Nat} {before rest : List (Field Shape)}
    (hfields : fields = before ++ rest) {read members : Dictionary Value}
    (hread : Admitted fields read)
    (hbefore : ∀ field ∈ before, read.contains field.name = true) {s r : List UInt8}
    (h : positionalFields reader record size index read rest s = .ok (members, r)) :
    Conforms (.record name fields) (.object members) := by
  -- The fields that have been read stand before those that are left, and each of them was found.
  induction rest generalizing index before read s with
  | nil =>
    obtain ⟨_, -, rfl⟩ := readAs_eq_ok.mp h
    refine .record hread.named hread.values fun field hfield _ => hbefore field ?_
    rwa [hfields, List.append_nil] at hfield
  | cons field rest ih =>
    unfold positionalFields at h
    split at h
    · cases h
    · split at h
      · cases h
      · next hmissing =>
        cases h
        refine .record hread.named hread.values fun field' hfield' hrequired => ?_
        rw [hfields] at hfield'
        rcases List.mem_append.mp hfield' with hmem | hmem
        · exact hbefore field' hmem
        · have hfalse := firstRequired?_eq_none_iff.mp hmissing field' hmem
          exact absurd (hfalse.symm.trans hrequired) Bool.false_ne_true
    · split at h
      · cases h
      · next v _ hrun =>
        have hmem : field ∈ fields := by rw [hfields]; simp
        have hfield := fieldNamed?_of_mem hnames hmem
        have hsplit : fields = (before ++ [field]) ++ rest := by rw [hfields]; simp
        refine ih hsplit (hread.insert hfield (hsound (hshapes field hmem) hrun))
          (fun field' hfield' => ?_) h
        rw [Dictionary.contains_insert]
        rcases List.mem_append.mp hfield' with hmem' | hmem'
        · exact Or.inr (hbefore field' hmem')
        · exact Or.inl (congrArg Field.name (List.mem_singleton.mp hmem'))

end Records

/-! ## Readers -/

theorem exists_sound_of_nested {inner : Option (Shape → Reader Value)}
    (hinner : ∀ reader, inner = some reader → Sound reader) {α : Type} {s r : List UInt8}
    {content : (Shape → Reader Value) → Step α} {make : α → Value} {v : Value}
    (h : nested inner s (fun reader => readAs make (content reader)) = .ok (v, r)) :
    ∃ reader a, Sound reader ∧ content reader = .ok (a, r) ∧ make a = v := by
  cases inner with
  | none => cases h
  | some reader =>
    obtain ⟨a, hcontent, hv⟩ := readAs_eq_ok.mp h
    exact ⟨reader, a, hinner reader rfl, hcontent, hv⟩

theorem conforms_of_readNext {inner : Option (Shape → Reader Value)}
    (hinner : ∀ reader, inner = some reader → Sound reader) {shape : Shape}
    (hshape : shape.Distinct) {s r : List UInt8} {v : Value}
    (h : readNext inner shape s = .ok (v, r)) : Conforms shape v := by
  cases hshape with
  | any => exact .any v
  | scalar form => exact .scalar (admit_of_scalarOf h)
  | optional form =>
    unfold readNext at h
    split at h
    all_goals cases ‹Shape.optional form = _›
    · obtain ⟨_, -, rfl⟩ := readAs_eq_ok.mp h
      exact .absent form
    · exact .optional (admit_of_scalarOf h)
  | list hitem =>
    unfold readNext at h
    split at h
    all_goals cases ‹Shape.list _ = _›
    · obtain ⟨reader, elements, hsound, hitems, rfl⟩ := exists_sound_of_nested hinner h
      refine .list fun w hw => ?_
      obtain ⟨t, u, hrun⟩ := exists_run_of_mem_items hitems w hw
      exact hsound hitem hrun
    · cases h
  | dictionary =>
    unfold readNext at h
    split at h
    all_goals cases ‹Shape.dictionary = _›
    · obtain ⟨reader, members, -, -, rfl⟩ := exists_sound_of_nested hinner h
      exact .dictionary members
    · cases h
  | choice variants =>
    unfold readNext at h
    split at h
    all_goals cases ‹Shape.choice variants = _›
    · obtain ⟨name, hname, rfl⟩ := readAs_eq_ok.mp h
      exact .choice (mem_of_variant hname)
    · obtain ⟨_, name, -, hname, rfl⟩ := exists_sound_of_nested hinner h
      exact .choice (mem_of_variantObject hname)
    · cases h
    · cases h
  | @record name fields hnames hfields =>
    unfold readNext at h
    split at h
    all_goals cases ‹Shape.record name fields = _›
    · obtain ⟨reader, members, hsound, hpositional, rfl⟩ := exists_sound_of_nested hinner h
      exact conforms_of_positionalFields hsound hfields hnames name (List.nil_append _).symm
        admitted_empty (fun _ hmem => by cases hmem) hpositional
    · obtain ⟨reader, members, hsound, hnamed, rfl⟩ := exists_sound_of_nested hinner h
      exact conforms_of_namedFields hsound hfields name hnamed
    · cases h

theorem sound_reader (d : Nat) : Sound (reader d) := by
  induction d with
  | zero =>
    intro shape s r v hshape h
    exact conforms_of_readNext (fun _ hnone => by cases hnone) hshape h
  | succ d ih =>
    intro shape s r v hshape h
    exact conforms_of_readNext (fun reader hsome => by cases hsome; exact ih) hshape h

/-- The value that a text holds is one of the shape. -/
theorem conforms_of_read {shape : Shape} (hshape : shape.Distinct) {text : List UInt8} {v : Value}
    (h : shape.read text = .ok v) : Conforms shape v := by
  unfold Shape.read at h
  split at h
  · cases h
  · next hrun =>
    split at h
    · cases h
      exact sound_reader depthLimit hshape hrun
    · cases h

end TraceCollector.Json
