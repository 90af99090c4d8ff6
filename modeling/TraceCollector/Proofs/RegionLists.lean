import TraceCollector.Proofs.Blanks
import TraceCollector.Proofs.ConfigurationLayers
import TraceCollector.Proofs.TextParts

/-!
# Lists of regions

What the variable for the regions can say, and what is read from it.

1. An item is a name between blanks, or blanks alone (`Items`). The names are read from such items
   (`namesIn_of_items`), and all texts without a comma are such items (`items_namesIn`). So a list
   of the names that are read from it, and of no others, is what a text is (`lists_iff`).
2. Names that can be listed are listed by joining them (`lists_intercalate`), so nothing is lost by
   joining what has been read. Nothing is read exactly from commas and blanks
   (`regionList_eq_nil_iff`).
3. The variable sets the regions to what is read from it, unless the one for the completion rule is
   turned down (`regions_listed`).
-/

namespace TraceCollector.Configuration

/-! ## Items -/

/-- A name that can stand in a list: it is not empty, and has no comma in it and no blank at its
ends. -/
structure Listable (name : String) : Prop where
  nonempty : name ≠ ""
  comma : ',' ∉ name.toList
  trimmed : Text.Trimmed name.toList

/-- The items hold the names, each between blanks, and apart from them only blanks. -/
inductive Items : List (List Char) → List String → Prop where
  | nil : Items [] []
  | blank {item : List Char} {items : List (List Char)} {names : List String}
    (h : ∀ c ∈ item, Text.isBlank c = true) (hrest : Items items names) :
    Items (item :: items) names
  | name {before after : List Char} {name : String} {items : List (List Char)}
    {names : List String} (h : Listable name) (hbefore : ∀ c ∈ before, Text.isBlank c = true)
    (hafter : ∀ c ∈ after, Text.isBlank c = true) (hrest : Items items names) :
    Items ((before ++ name.toList ++ after) :: items) (name :: names)

/-- The text lists the names, in their order and each as often as it is there, with commas between
the items. -/
def Lists (text : String) (names : List String) : Prop :=
  ∃ items, Items items names ∧ text.toList = [','].intercalate items

/-- The names that are read from items. -/
def namesIn (items : List (List Char)) : List String :=
  ((items.map Text.trim).filter (· != [])).map String.ofList

theorem regionList_eq (text : String) : regionList text = namesIn (text.toList.splitOn ',') := by
  rw [← Text.splitWhere_eq_splitOn]
  rfl

theorem comma_not_mem_of_mem_splitOn (text : String) :
    ∀ item ∈ text.toList.splitOn ',', ',' ∉ item := by
  have hends : ∀ item ∈ text.toList.splitOn ',', ∀ c ∈ item, (c == ',') = false := by
    rw [← Text.splitWhere_eq_splitOn]
    exact Text.forall_mem_splitWhere_iff.mpr fun c _ => (c == ',').eq_false_or_eq_true
  exact fun item hitem hmem => absurd (hends item hitem ',' hmem) (by decide)

section Items

variable {item : List Char} {items : List (List Char)} {names : List String}

theorem namesIn_cons_of_blank (h : Text.trim item = []) : namesIn (item :: items) = namesIn items := by
  unfold namesIn
  rw [List.map_cons, h, List.filter_cons_of_neg (by simp)]

theorem namesIn_cons_of_name (h : Text.trim item ≠ []) :
    namesIn (item :: items) = String.ofList (Text.trim item) :: namesIn items := by
  unfold namesIn
  rw [List.map_cons, List.filter_cons_of_pos (by simpa using h), List.map_cons]

theorem namesIn_of_items (h : Items items names) : namesIn items = names := by
  induction h with
  | nil => rfl
  | blank h _ ih => rw [namesIn_cons_of_blank (Text.trim_eq_nil_iff.mpr h), ih]
  | @name _ _ name _ _ h hbefore hafter _ ih =>
    have htrim := Text.trim_of_trimmed hbefore hafter h.trimmed
    have hne : name.toList ≠ [] := fun hnil => h.nonempty (String.toList_eq_nil_iff.mp hnil)
    rw [namesIn_cons_of_name (by rwa [htrim]), htrim, String.ofList_toList, ih]

theorem comma_not_mem_of_items (h : Items items names) : ∀ item ∈ items, ',' ∉ item := by
  have hcomma : ∀ cs : List Char, (∀ c ∈ cs, Text.isBlank c = true) → ',' ∉ cs :=
    fun cs hcs hmem => absurd (hcs ',' hmem) (by decide)
  induction h with
  | nil => exact List.forall_mem_nil _
  | blank h _ ih => exact List.forall_mem_cons.mpr ⟨hcomma _ h, ih⟩
  | name h hbefore hafter _ ih =>
    refine List.forall_mem_cons.mpr ⟨?_, ih⟩
    simp only [List.mem_append, not_or]
    exact ⟨⟨hcomma _ hbefore, h.comma⟩, hcomma _ hafter⟩

/-- A text without a comma is an item: of nothing, or of what is left of it without its blanks. -/
theorem items_namesIn (h : ∀ item ∈ items, ',' ∉ item) : Items items (namesIn items) := by
  induction items with
  | nil => exact .nil
  | cons item rest ih =>
    obtain ⟨hcomma, hrest⟩ := List.forall_mem_cons.mp h
    by_cases hblank : Text.trim item = []
    · rw [namesIn_cons_of_blank hblank]
      exact .blank (Text.trim_eq_nil_iff.mp hblank) (ih hrest)
    · obtain ⟨before, after, hbefore, hafter, hitem⟩ := Text.exists_blanks_append_trim item
      have hname : Listable (String.ofList (Text.trim item)) := by
        refine ⟨by simpa using hblank, ?_, by simpa using Text.trimmed_trim item⟩
        rw [String.toList_ofList]
        intro hmem
        rw [hitem] at hcomma
        exact hcomma (List.mem_append_left _ (List.mem_append_right _ hmem))
      rw [namesIn_cons_of_name hblank]
      have hitems := Items.name hname hbefore hafter (ih hrest)
      rwa [String.toList_ofList, ← hitem] at hitems

theorem listable_of_items (h : Items items names) : ∀ name ∈ names, Listable name := by
  induction h with
  | nil => exact List.forall_mem_nil _
  | blank _ _ ih => exact ih
  | name h _ _ _ ih => exact List.forall_mem_cons.mpr ⟨h, ih⟩

/-- Names that can be listed are items by themselves. -/
theorem items_of_listable (h : ∀ name ∈ names, Listable name) :
    Items (names.map String.toList) names := by
  induction names with
  | nil => exact .nil
  | cons name rest ih =>
    obtain ⟨hname, hrest⟩ := List.forall_mem_cons.mp h
    have hitems := Items.name hname (List.forall_mem_nil _) (List.forall_mem_nil _) (ih hrest)
    rwa [List.nil_append, List.append_nil] at hitems

end Items

/-! ## Lists -/

section Lists

variable {text : String} {names : List String}

/-- A text lists the names that are read from it, and no others. -/
theorem lists_iff : Lists text names ↔ regionList text = names := by
  rw [regionList_eq]
  constructor
  · rintro ⟨items, hitems, htext⟩
    rw [htext]
    cases items with
    | nil =>
      cases hitems
      rfl
    | cons item rest =>
      rw [List.splitOn_intercalate ',' (comma_not_mem_of_items hitems) (List.cons_ne_nil _ _)]
      exact namesIn_of_items hitems
  · rintro rfl
    exact ⟨_, items_namesIn (comma_not_mem_of_mem_splitOn text),
      (List.intercalate_splitOn ',').symm⟩

theorem listable_of_lists (h : Lists text names) : ∀ name ∈ names, Listable name :=
  let ⟨_, hitems, _⟩ := h
  listable_of_items hitems

theorem lists_intercalate (h : ∀ name ∈ names, Listable name) :
    Lists (",".intercalate names) names :=
  ⟨_, items_of_listable h, String.toList_intercalate⟩

/-- No name is read exactly from commas and blanks. -/
theorem regionList_eq_nil_iff :
    regionList text = [] ↔ ∀ c ∈ text.toList, c = ',' ∨ Text.isBlank c = true := by
  calc
    regionList text = [] ↔ ∀ item ∈ text.toList.splitOn ',', Text.trim item = [] := by
      rw [regionList_eq, namesIn, List.map_eq_nil_iff, List.filter_eq_nil_iff]
      simp
    _ ↔ ∀ item ∈ Text.splitWhere (· == ',') text.toList, ∀ c ∈ item, Text.isBlank c = true := by
      simp only [Text.trim_eq_nil_iff, Text.splitWhere_eq_splitOn]
    _ ↔ ∀ c ∈ text.toList, c = ',' ∨ Text.isBlank c = true := by
      simp only [Text.forall_mem_splitWhere_iff, beq_iff_eq]

end Lists

/-! ## Variables -/

section Variables

variable {env : Environment} {c c' : Configuration} {text : String}

theorem names_of_withOverrides (h : c.withOverrides env = .ok c') :
    ∀ name, env completionVariable = some name → ∃ rule, Names name rule := by
  intro name hname
  by_contra hnot
  rw [withOverrides_of_not_names hname (not_exists.mp hnot)] at h
  cases h

theorem exists_withOverrides_iff :
    (∃ c', c.withOverrides env = .ok c') ↔
      ∀ name, env completionVariable = some name → ∃ rule, Names name rule :=
  ⟨fun ⟨_, h⟩ => names_of_withOverrides h, fun h => ⟨_, withOverrides_of_names h⟩⟩

theorem regions_of_withOverrides (htext : env regionsVariable = some text)
    (h : c.withOverrides env = .ok c') : c'.regions = regionList text := by
  rw [withOverrides_of_names (names_of_withOverrides h)] at h
  cases h
  show ((env regionsVariable).map regionList).getD c.regions = _
  rw [htext]
  rfl

theorem validate_eq_noRegions_iff : c.validate = .error .noRegions ↔ c.regions = [] := by
  unfold validate
  split_ifs with hnil hmem <;> simp [hnil]

/-- The variable for the regions, unless the one for the completion rule is turned down, sets the
regions to the names that it lists. These can be listed, so they are read again from what they make
when they are joined, whatever else the variables say. There are none exactly if the variable holds
nothing but commas and blanks, and then the configuration is not valid. -/
theorem regions_listed (htext : env regionsVariable = some text) (c : Configuration) :
    ((∃ c', c.withOverrides env = .ok c') ↔
      ∀ name, env completionVariable = some name → ∃ rule, Names name rule) ∧
    ∀ c', c.withOverrides env = .ok c' →
      (∀ names, Lists text names ↔ c'.regions = names) ∧
      (∀ name ∈ c'.regions, Listable name) ∧
      (∀ (env' : Environment) (d d' : Configuration),
        env' regionsVariable = some (",".intercalate c'.regions) →
        d.withOverrides env' = .ok d' → d'.regions = c'.regions) ∧
      (c'.regions = [] ↔ ∀ ch ∈ text.toList, ch = ',' ∨ Text.isBlank ch = true) ∧
      (c'.validate = .error .noRegions ↔
        ∀ ch ∈ text.toList, ch = ',' ∨ Text.isBlank ch = true) := by
  refine ⟨exists_withOverrides_iff, fun c' h => ?_⟩
  rw [validate_eq_noRegions_iff, regions_of_withOverrides htext h]
  have hlistable := listable_of_lists (lists_iff.mpr (Eq.refl (regionList text)))
  refine ⟨fun names => lists_iff, hlistable, fun env' d d' htext' h' => ?_,
    regionList_eq_nil_iff, regionList_eq_nil_iff⟩
  rw [regions_of_withOverrides htext' h']
  exact lists_iff.mp (lists_intercalate hlistable)

end Variables

/-- The environment in which only the variable for the regions is set. -/
def regionsOnly (text : String) : Environment := fun name =>
  if name = regionsVariable then some text else none

theorem exists_withOverrides_regionsOnly (c : Configuration) (text : String) :
    ∃ c', c.withOverrides (regionsOnly text) = .ok c' :=
  exists_withOverrides_iff.mpr fun name hname => by cases hname

/-- A name is listed twice, between blanks of several kinds, and there are items of nothing; then
there are only such items. -/
theorem regions_listed_twice :
    let text := " us-west-2,\u3000eu-west-1 ,, us-west-2\t,"
    let names := ["us-west-2", "eu-west-1", "us-west-2"]
    Lists text names ∧
      (∃ c', standard.withOverrides (regionsOnly text) = .ok c' ∧ c'.regions = names) ∧
      (∃ c', standard.withOverrides (regionsOnly (",".intercalate names)) = .ok c' ∧
        c'.regions = names) ∧
      ∃ c', standard.withOverrides (regionsOnly " ,\u2003,,\n") = .ok c' ∧
        c'.validate = .error .noRegions := by
  intro text names
  have hlists : Lists text names := lists_iff.mpr (by decide +kernel)
  obtain ⟨c', hc'⟩ := exists_withOverrides_regionsOnly standard text
  obtain ⟨d, hd⟩ := exists_withOverrides_regionsOnly standard (",".intercalate names)
  obtain ⟨e, he⟩ := exists_withOverrides_regionsOnly standard " ,\u2003,,\n"
  obtain ⟨hregions, -, hagain, -⟩ := (regions_listed (if_pos rfl) standard).2 c' hc'
  have hnames : c'.regions = names := (hregions names).mp hlists
  refine ⟨hlists, ⟨c', hc', hnames⟩, ⟨d, hd, ?_⟩, e, he, ?_⟩
  · rw [← hnames]
    refine hagain _ standard d ?_ hd
    rw [hnames]
    rfl
  · obtain ⟨-, -, -, -, hinvalid⟩ := (regions_listed (if_pos rfl) standard).2 e he
    exact hinvalid.mpr (regionList_eq_nil_iff.mp (by decide +kernel))

end TraceCollector.Configuration
