import TraceCollector.Configuration.Environment
import TraceCollector.Proofs.Numerals
import TraceCollector.Proofs.WireForms

/-!
# Layers of a configuration

The fields of a configuration come from variables, from a file, or are defaults. What a variable or
a file says is a layer: values for some of the fields (`Layer`).

1. The variables are a layer over the configuration that they are applied to, unless the one for the
   completion rule names none (`withOverrides_of_names`, `withOverrides_of_not_names`). So applying
   them twice is applying them once (`withOverrides_twice`).
2. A text that the shape of configurations admits is a layer, and only one
   (`exists_heldBy_of_conforms`, `IsWritten.unique`). It lies over the defaults, since what the
   shape admits can be decoded (`ofFile_text`).
-/

namespace TraceCollector.Configuration

/-! ## Layers -/

/-- Values for some of the fields. -/
structure Layer where
  bindAddress? : Option String
  defaultRegion? : Option String
  regions? : Option (List String)
  completion? : Option CompletionRule

namespace Layer

def empty : Layer := ⟨none, none, none, none⟩

/-- The configuration with the values of the layer, where it has any. -/
def above (l : Layer) (c : Configuration) : Configuration where
  bindAddress := l.bindAddress?.getD c.bindAddress
  defaultRegion := l.defaultRegion?.getD c.defaultRegion
  regions := l.regions?.getD c.regions
  completion := l.completion?.getD c.completion

/-- The values of the variables that are set. -/
def ofVariables (env : Environment) : Layer where
  bindAddress? := env bindAddressVariable
  defaultRegion? := env defaultRegionVariable
  regions? := (env regionsVariable).map regionList
  completion? := (env completionVariable).bind completionNamed?

/-- The members of an object that are fields of a configuration are the values of the layer. -/
structure HeldBy (l : Layer) (members : Dictionary Json.Value) : Prop where
  bindAddress : members.get? "bind_addr" = l.bindAddress?.map .string
  defaultRegion : members.get? "default_region" = l.defaultRegion?.map .string
  regions : members.get? "regions" = l.regions?.map fun names => .array (names.map .string)
  completion : members.get? "completion" = l.completion?.map fun rule => .string rule.name

theorem above_above (l : Layer) (c : Configuration) : l.above (l.above c) = l.above c := by
  have hfield : ∀ {α : Type} (value? : Option α) (a : α),
      value?.getD (value?.getD a) = value?.getD a := by
    intro α value? a
    cases value? <;> rfl
  simp only [above, hfield]

end Layer

/-! ## Variables -/

/-- The name is the one of the rule, with blanks around it. -/
def Names (name : String) (rule : CompletionRule) : Prop :=
  ∃ before after, (∀ c ∈ before, Text.isBlank c = true) ∧ (∀ c ∈ after, Text.isBlank c = true) ∧
    name.toList = before ++ rule.name.toList ++ after

theorem completionNamed?_eq_some_iff {name : String} {rule : CompletionRule} :
    completionNamed? name = some rule ↔ Names name rule := by
  have hnames : rule.name.toList.all (!Text.isBlank ·) = true ∧
      CompletionRule.ofName? rule.name = some rule := by
    cases rule <;> decide
  unfold completionNamed?
  constructor
  · intro h
    obtain ⟨before, after, hbefore, hafter, hname⟩ := Text.exists_blanks_append_trim name.toList
    refine ⟨before, after, hbefore, hafter, ?_⟩
    have htrim := List.find?_some h
    rw [beq_iff_eq] at htrim
    rw [htrim, String.toList_ofList]
    exact hname
  · rintro ⟨before, after, hbefore, hafter, hname⟩
    obtain ⟨hall, hrule⟩ := hnames
    have hblank : ∀ c ∈ rule.name.toList, Text.isBlank c = false := fun c hc =>
      (Bool.not_eq_true' _).mp (List.all_eq_true.mp hall c hc)
    rw [hname, Text.trim_of_trimmed hbefore hafter (Text.trimmed_of_forall hblank),
      String.ofList_toList, hrule]

section Variables

variable {env : Environment} {c : Configuration}

/-- The variables are the layer over the configuration, if the one for the completion rule names a
rule. -/
theorem withOverrides_of_names
    (h : ∀ name, env completionVariable = some name → ∃ rule, Names name rule) :
    c.withOverrides env = .ok ((Layer.ofVariables env).above c) := by
  unfold withOverrides Layer.above Layer.ofVariables
  cases hname : env completionVariable with
  | none => rfl
  | some name =>
    obtain ⟨rule, hrule⟩ := h name hname
    rw [← completionNamed?_eq_some_iff] at hrule
    simp only [hrule, Option.bind_some]
    rfl

theorem withOverrides_of_not_names {name : String} (hname : env completionVariable = some name)
    (h : ∀ rule, ¬ Names name rule) :
    c.withOverrides env = .error (.unknownCompletion name) := by
  have hnone : completionNamed? name = none := by
    cases hrule : completionNamed? name with
    | none => rfl
    | some rule => exact absurd (completionNamed?_eq_some_iff.mp hrule) (h rule)
  unfold withOverrides
  simp only [hname, hnone]

/-- Applying the variables once more changes nothing. -/
theorem withOverrides_twice (env : Environment) (c : Configuration) :
    (c.withOverrides env >>= fun c => c.withOverrides env) = c.withOverrides env := by
  by_cases h : ∀ name, env completionVariable = some name → ∃ rule, Names name rule
  · rw [withOverrides_of_names h]
    show withOverrides env _ = _
    rw [withOverrides_of_names h, Layer.above_above]
  · simp only [not_forall, not_exists] at h
    obtain ⟨name, hname, hnot⟩ := h
    rw [withOverrides_of_not_names hname hnot]
    rfl

end Variables

/-! ## Files -/

section Files

open Json

/-- A field with a default, of which a layer has the value. -/
theorem fieldOr_of_map {α : Type} {members : Dictionary Value} {key : String} {value? : Option α}
    {make : α → Value} (hget : members.get? key = value?.map make)
    {decode : Value → Except Mismatch α} (hdecode : ∀ a, decode (make a) = .ok a) (fallback : α) :
    fieldOr fallback members key decode = .ok (value?.getD fallback) := by
  unfold fieldOr
  rw [hget]
  cases value? with
  | none => rfl
  | some a => exact hdecode a

theorem decode_of_heldBy {l : Layer} {members : Dictionary Value} (h : l.HeldBy members) :
    codec.decode (.object members) = .ok (l.above standard) := by
  have htext : ∀ s, Value.asText (.string s) = .ok s := fun _ => rfl
  have htexts : ∀ names, Codec.texts.decode (.array (names.map .string)) = .ok names := fun names =>
    (Codec.carries_texts (d := 0) names).decode_encode
  have hrule : ∀ rule, CompletionRule.codec.decode (.string rule.name) = .ok rule := fun rule =>
    (rule.carries_codec (d := 0)).decode_encode
  simp only [codec, Value.asRecord, bind, Except.bind, fieldOr_of_map h.bindAddress htext,
    fieldOr_of_map h.defaultRegion htext, fieldOr_of_map h.regions htexts,
    fieldOr_of_map h.completion hrule]
  rfl

theorem distinct_shape : codec.shape.Distinct := by
  refine .record (by decide) ?_
  simp only [List.forall_mem_cons]
  exact ⟨.scalar _, .scalar _, .list (.scalar _), .choice _, by simp⟩

theorem eq_string_of_conforms {v : Value} (h : Conforms (.scalar .text) v) :
    ∃ s, v = .string s := by
  cases h with
  | scalar hform =>
    cases v with
    | string s => exact ⟨s, rfl⟩
    | _ => cases hform

theorem eq_array_of_conforms {v : Value} (h : Conforms Codec.texts.shape v) :
    ∃ names : List String, v = .array (names.map .string) := by
  cases h with
  | @list _ items hitems =>
    induction items with
    | nil => exact ⟨[], rfl⟩
    | cons first rest ih =>
      obtain ⟨hfirst, hrest⟩ := List.forall_mem_cons.mp hitems
      obtain ⟨s, rfl⟩ := eq_string_of_conforms hfirst
      obtain ⟨names, hnames⟩ := ih hrest
      cases hnames
      exact ⟨s :: names, rfl⟩

theorem eq_name_of_conforms {v : Value} (h : Conforms CompletionRule.codec.shape v) :
    ∃ rule : CompletionRule, v = .string rule.name := by
  cases h with
  | choice hname =>
    obtain ⟨rule, -, rfl⟩ := List.mem_map.mp hname
    exact ⟨rule, rfl⟩

theorem exists_get?_eq_map {α : Type} {make : α → Value} {members : Dictionary Value}
    {key : String} (h : ∀ v, members.get? key = some v → ∃ a, v = make a) :
    ∃ value?, members.get? key = Option.map make value? := by
  cases hget : members.get? key with
  | none => exact ⟨none, rfl⟩
  | some v =>
    obtain ⟨a, rfl⟩ := h v hget
    exact ⟨some a, rfl⟩

/-- What the shape of configurations admits is a layer. -/
theorem exists_heldBy_of_conforms {v : Value} (h : Conforms codec.shape v) :
    ∃ members l, v = .object members ∧ Layer.HeldBy l members := by
  obtain ⟨members, rfl, hvalues⟩ := h.exists_members
  obtain ⟨bindAddress?, hbindAddress⟩ := exists_get?_eq_map fun v hv =>
    eq_string_of_conforms (hvalues "bind_addr" v _ hv rfl)
  obtain ⟨defaultRegion?, hdefaultRegion⟩ := exists_get?_eq_map fun v hv =>
    eq_string_of_conforms (hvalues "default_region" v _ hv rfl)
  obtain ⟨regions?, hregions⟩ := exists_get?_eq_map fun v hv =>
    eq_array_of_conforms (hvalues "regions" v _ hv rfl)
  obtain ⟨completion?, hcompletion⟩ := exists_get?_eq_map fun v hv =>
    eq_name_of_conforms (hvalues "completion" v _ hv rfl)
  exact ⟨members, ⟨bindAddress?, defaultRegion?, regions?, completion?⟩, rfl, hbindAddress,
    hdefaultRegion, hregions, hcompletion⟩

theorem validateUTF8_iff {content : List UInt8} :
    ByteArray.validateUTF8 ⟨content.toArray⟩ = true ↔ ∃ text, content = utf8 text := by
  rw [ByteArray.validateUTF8_eq_true_iff]
  constructor
  · intro h
    exact ⟨.ofByteArray _ h, rfl⟩
  · rintro ⟨text, rfl⟩
    exact text.isValidUTF8

/-- The content is the text of a configuration, and the layer is what it says of the fields. -/
def IsWritten (l : Layer) (content : List UInt8) : Prop :=
  ∃ members, codec.shape.read content = .ok (.object members) ∧ l.HeldBy members

/-- A text is one of a configuration, or there is a fault in it. -/
theorem ofFile_text (text : String) :
    (∃ l, IsWritten l (utf8 text) ∧ ofFile (some (utf8 text)) = .ok (l.above standard)) ∨
    ∃ fault, codec.shape.read (utf8 text) = .error fault ∧
      ofFile (some (utf8 text)) = .error (.unparsable fault) := by
  have hfile : ofFile (some (utf8 text)) = ofText (utf8 text) :=
    if_pos (validateUTF8_iff.mpr ⟨text, rfl⟩)
  rw [hfile]
  unfold ofText Codec.read
  cases hread : codec.shape.read (utf8 text) with
  | error fault => exact Or.inr ⟨fault, rfl, rfl⟩
  | ok v =>
    obtain ⟨members, l, rfl, hl⟩ :=
      exists_heldBy_of_conforms (conforms_of_read distinct_shape hread)
    refine Or.inl ⟨l, ⟨members, hread, hl⟩, ?_⟩
    dsimp only
    rw [decode_of_heldBy hl]

theorem IsWritten.unique {l l' : Layer} {content : List UInt8} (h : IsWritten l content)
    (h' : IsWritten l' content) : l = l' := by
  obtain ⟨members, hread, hl⟩ := h
  obtain ⟨members', hread', hl'⟩ := h'
  cases hread.symm.trans hread'
  have htext : Function.Injective Value.string := fun _ _ h => Value.string.inj h
  have htexts : Function.Injective fun names : List String =>
      Value.array (names.map .string) := fun _ _ h =>
    List.map_injective_iff.mpr htext (Value.array.inj h)
  have hrule : Function.Injective fun rule : CompletionRule => Value.string rule.name := by
    intro rule rule' h
    have hname : rule.name = rule'.name := Value.string.inj h
    cases rule <;> cases rule' <;> first | rfl | exact absurd hname (by decide)
  have hbindAddress := Option.map_injective htext (hl.bindAddress.symm.trans hl'.bindAddress)
  have hdefaultRegion := Option.map_injective htext (hl.defaultRegion.symm.trans hl'.defaultRegion)
  have hregions := Option.map_injective htexts (hl.regions.symm.trans hl'.regions)
  have hcompletion := Option.map_injective hrule (hl.completion.symm.trans hl'.completion)
  cases l
  cases l'
  simp_all

end Files

end TraceCollector.Configuration
