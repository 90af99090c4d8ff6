import Mathlib.Data.Finset.Card
import Mathlib.Data.String.Basic
import TraceCollector.Dictionary

/-!
# Dictionaries in order

A dictionary that is built by insertion keeps its keys ascending, so no key comes twice and the
size counts the keys that have a value. In this order the view tells everything: dictionaries that
hold the same under every key are equal (`ext_of_ordered`).
-/

namespace TraceCollector.Dictionary

variable {α β : Type}

theorem mem_keys_iff (d : Dictionary α) (key : String) :
    key ∈ d.keys ↔ (d.get? key).isSome := by
  obtain ⟨entries⟩ := d
  unfold keys get?
  induction entries with
  | nil => simp
  | cons e rest ih =>
    obtain ⟨k, v⟩ := e
    rw [List.map_cons, List.mem_cons, ih, lookup_cons_eq]
    by_cases h : key = k
    · rw [if_pos h]
      exact iff_of_true (Or.inl h) rfl
    · rw [if_neg h]
      exact or_iff_right h

theorem contains_insert {d : Dictionary α} {key k : String} {value : α} :
    (d.insert key value).contains k = true ↔ k = key ∨ d.contains k = true := by
  unfold contains
  rw [get?_insert]
  by_cases h : k = key
  · rw [if_pos h]
    exact iff_of_true rfl (Or.inl h)
  · rw [if_neg h]
    exact (or_iff_right h).symm

/-! ## Ascending keys -/

@[simp] theorem ordered_empty : (empty : Dictionary α).Ordered := List.Pairwise.nil

/-- Inserting adds no key but the one inserted. -/
theorem mem_insertEntry {key : String} {value : α} {entries : List (String × α)}
    {e : String × α} (h : e ∈ insertEntry key value entries) : e.1 = key ∨ e ∈ entries := by
  induction entries with
  | nil =>
    rw [insertEntry, List.mem_singleton] at h
    exact Or.inl (congrArg Prod.fst h)
  | cons first rest ih =>
    rw [insertEntry] at h
    split_ifs at h
    · rcases List.mem_cons.mp h with h | h
      · exact Or.inl (congrArg Prod.fst h)
      · exact Or.inr (List.mem_cons_of_mem _ h)
    · rcases List.mem_cons.mp h with h | h
      · exact Or.inl (congrArg Prod.fst h)
      · exact Or.inr h
    · rcases List.mem_cons.mp h with h | h
      · exact Or.inr (h ▸ List.mem_cons_self)
      · exact (ih h).imp id (List.mem_cons_of_mem _)

theorem ordered_insert {d : Dictionary α} (h : d.Ordered) (key : String) (value : α) :
    (d.insert key value).Ordered := by
  obtain ⟨entries⟩ := d
  change entries.Pairwise _ at h
  change (insertEntry key value entries).Pairwise _
  induction entries with
  | nil => exact List.pairwise_singleton _ _
  | cons e rest ih =>
    obtain ⟨hhead, hrest⟩ := List.pairwise_cons.mp h
    rw [insertEntry]
    split_ifs with heq hlt
    · subst heq
      exact List.pairwise_cons.mpr ⟨hhead, hrest⟩
    · refine List.pairwise_cons.mpr ⟨fun b hb => ?_, h⟩
      rcases List.mem_cons.mp hb with rfl | hb
      · exact hlt
      · exact hlt.trans (hhead b hb)
    · refine List.pairwise_cons.mpr ⟨fun b hb => ?_, ih hrest⟩
      rcases mem_insertEntry hb with hb | hb
      · rw [hb]
        exact lt_of_le_of_ne (not_lt.mp hlt) (Ne.symm heq)
      · exact hhead b hb

theorem ordered_ofList (pairs : List (String × α)) : (ofList pairs).Ordered := by
  unfold ofList
  induction pairs using List.reverseRecOn with
  | nil => exact ordered_empty
  | append_singleton pairs e ih =>
    rw [List.foldl_append]
    exact ordered_insert ih e.1 e.2

theorem pairwise_keys {d : Dictionary α} (h : d.Ordered) : d.keys.Pairwise (· < ·) :=
  List.pairwise_map.mpr h

theorem nodup_keys {d : Dictionary α} (h : d.Ordered) : d.keys.Nodup :=
  List.pairwise_map.mpr (h.imp fun hab => ne_of_lt hab)

/-- A key has one entry or none, as it has a value or not. -/
theorem filter_entries {d : Dictionary α} (h : d.Ordered) (key : String) :
    d.entries.filter (·.1 = key) = ((d.get? key).map (key, ·)).toList := by
  obtain ⟨entries⟩ := d
  change entries.Pairwise _ at h
  change entries.filter (·.1 = key) = ((entries.lookup key).map (key, ·)).toList
  induction entries with
  | nil => rfl
  | cons e rest ih =>
    obtain ⟨k, v⟩ := e
    obtain ⟨hhead, hrest⟩ := List.pairwise_cons.mp h
    rw [lookup_cons_eq]
    by_cases hk : key = k
    · subst hk
      have hnone : rest.filter (·.1 = key) = [] := by
        rw [List.filter_eq_nil_iff]
        intro e he heq
        exact ne_of_lt (hhead e he) (of_decide_eq_true heq).symm
      rw [if_pos rfl, List.filter_cons, if_pos (decide_eq_true rfl), hnone]
      rfl
    · rw [if_neg hk, List.filter_cons, if_neg (by simpa using Ne.symm hk), ih hrest]

/-- Inserting makes a difference to the inserted key only. -/
theorem erase_insert (d : Dictionary α) (key : String) (value : α) :
    (d.insert key value).erase key = d.erase key := by
  obtain ⟨entries⟩ := d
  change Dictionary.mk ((insertEntry key value entries).filter (·.1 != key)) =
    ⟨entries.filter (·.1 != key)⟩
  induction entries with
  | nil => simp [insertEntry]
  | cons e rest ih =>
    rw [insertEntry]
    split_ifs with heq hlt
    · simp [← heq]
    · simp
    · rw [List.filter_cons, List.filter_cons, mk.inj ih]

/-- A dictionary in order is what it holds under a key, and the rest. -/
theorem perm_entries {d : Dictionary α} (h : d.Ordered) (key : String) :
    d.entries.Perm (((d.get? key).map (key, ·)).toList ++ (d.erase key).entries) := by
  have hsplit := List.filter_append_perm (fun e : String × α => decide (e.1 = key)) d.entries
  have hrest : (fun e : String × α => !decide (e.1 = key)) = fun e => e.1 != key := by
    funext e
    rfl
  rw [filter_entries h, hrest] at hsplit
  exact hsplit.symm

/-- The size of a dictionary in order is the number of keys that have a value. -/
theorem size_eq_card {d : Dictionary α} (h : d.Ordered) {keys : Finset String}
    (hkeys : ∀ key, key ∈ keys ↔ (d.get? key).isSome) : d.size = keys.card := by
  have heq : d.keys.toFinset = keys := by
    ext key
    rw [List.mem_toFinset, mem_keys_iff, hkeys]
  rw [← heq, List.toFinset_card_of_nodup (nodup_keys h)]
  exact (List.length_map _).symm

/-- Greater keys that are inserted leave the first entry in its place. -/
theorem exists_foldl_insert {key : String} {value : α} {pairs : List (String × α)}
    (h : ∀ e ∈ pairs, key < e.1) (entries : List (String × α)) :
    ∃ rest, pairs.foldl (fun (d : Dictionary α) e => d.insert e.1 e.2) ⟨(key, value) :: entries⟩ =
      ⟨(key, value) :: rest⟩ := by
  induction pairs generalizing entries with
  | nil => exact ⟨entries, rfl⟩
  | cons e pairs ih =>
    have hkey : key < e.1 := h e List.mem_cons_self
    have hinsert : Dictionary.insert ⟨(key, value) :: entries⟩ e.1 e.2 =
        ⟨(key, value) :: insertEntry e.1 e.2 entries⟩ := by
      unfold insert
      rw [insertEntry, if_neg (ne_of_gt hkey), if_neg (not_lt_of_gt hkey)]
    rw [List.foldl_cons, hinsert]
    exact ih (fun e' he' => h e' (List.mem_cons_of_mem _ he')) _

/-- A dictionary from pairs begins with the first of them if its key is the least. -/
theorem exists_ofList_cons {key : String} (value : α) {pairs : List (String × α)}
    (h : ∀ e ∈ pairs, key < e.1) :
    ∃ rest, ofList ((key, value) :: pairs) = ⟨(key, value) :: rest⟩ :=
  exists_foldl_insert h []

/-! ## The view tells everything -/

theorem mem_entries_iff {d : Dictionary α} (h : d.Ordered) {key : String} {value : α} :
    (key, value) ∈ d.entries ↔ d.get? key = some value := by
  have hown : (key, value) ∈ d.entries ↔ (key, value) ∈ d.entries.filter (·.1 = key) := by
    rw [List.mem_filter]
    exact (and_iff_left (decide_eq_true rfl)).symm
  rw [hown, filter_entries h, Option.mem_toList, Option.map_eq_some_iff]
  constructor
  · rintro ⟨v, hv, heq⟩
    cases heq
    exact hv
  · intro hvalue
    exact ⟨value, hvalue, rfl⟩

/-- Dictionaries in order that have values under the same keys list them alike. -/
theorem keys_eq_of_ordered {a : Dictionary α} {b : Dictionary β} (ha : a.Ordered) (hb : b.Ordered)
    (h : ∀ key, key ∈ a.keys ↔ key ∈ b.keys) : a.keys = b.keys :=
  ((List.perm_ext_iff_of_nodup (nodup_keys ha) (nodup_keys hb)).mpr h).eq_of_pairwise
    (fun _ _ _ _ hlt hgt => absurd hgt (lt_asymm hlt)) (pairwise_keys ha) (pairwise_keys hb)

/-- Dictionaries in order that hold the same under every key are equal. -/
theorem ext_of_ordered {a b : Dictionary α} (ha : a.Ordered) (hb : b.Ordered)
    (h : ∀ key, a.get? key = b.get? key) : a = b := by
  have hnodup : ∀ {d : Dictionary α}, d.Ordered → d.entries.Nodup := fun hd =>
    hd.imp fun hlt heq => ne_of_lt hlt (congrArg Prod.fst heq)
  have hperm : a.entries.Perm b.entries := by
    rw [List.perm_ext_iff_of_nodup (hnodup ha) (hnodup hb)]
    rintro ⟨key, value⟩
    rw [mem_entries_iff ha, mem_entries_iff hb, h key]
  have hentries : a.entries = b.entries :=
    hperm.eq_of_pairwise (fun _ _ _ _ hlt hgt => absurd hgt (lt_asymm hlt)) ha hb
  cases a
  cases b
  cases hentries
  rfl

/-- A dictionary from pairs of different keys holds these pairs. -/
theorem get?_ofList_eq_some_iff {pairs : List (String × α)} (h : (pairs.map Prod.fst).Nodup)
    {key : String} {value : α} :
    (ofList pairs).get? key = some value ↔ (key, value) ∈ pairs := by
  unfold ofList
  induction pairs using List.reverseRecOn with
  | nil => simp
  | append_singleton pairs e ih =>
    rw [List.map_append, List.nodup_append] at h
    obtain ⟨hpairs, -, hdisjoint⟩ := h
    rw [List.foldl_append]
    show (insert _ e.1 e.2).get? key = some value ↔ _
    rw [get?_insert, List.mem_append, List.mem_singleton]
    by_cases hkey : key = e.1
    · have hnot : (key, value) ∉ pairs := fun hmem =>
        hdisjoint key (List.mem_map_of_mem hmem) e.1 (by simp) hkey
      rw [if_pos hkey, or_iff_right hnot, Option.some.injEq, Prod.ext_iff]
      exact ⟨fun hvalue => ⟨hkey, hvalue.symm⟩, fun heq => heq.2.symm⟩
    · rw [if_neg hkey, ih hpairs, or_iff_left]
      exact fun heq => hkey (congrArg Prod.fst heq)

theorem lookup_eq_some_iff {pairs : List (String × α)} (h : (pairs.map Prod.fst).Nodup)
    {key : String} {value : α} : pairs.lookup key = some value ↔ (key, value) ∈ pairs := by
  induction pairs with
  | nil => simp
  | cons e rest ih =>
    obtain ⟨k, v⟩ := e
    obtain ⟨hk, hrest⟩ := List.nodup_cons.mp h
    rw [lookup_cons_eq, List.mem_cons, Prod.mk.injEq]
    by_cases hkey : key = k
    · have hnot : (key, value) ∉ rest := by
        intro hmem
        rw [← hkey] at hk
        exact hk (List.mem_map.mpr ⟨_, hmem, rfl⟩)
      rw [if_pos hkey, or_iff_left hnot, and_iff_right hkey, Option.some.injEq, eq_comm]
    · rw [if_neg hkey, ih hrest, or_iff_right fun heq => hkey heq.1]

theorem get?_ofList {pairs : List (String × α)} (h : (pairs.map Prod.fst).Nodup) (key : String) :
    (ofList pairs).get? key = pairs.lookup key := by
  ext value
  rw [get?_ofList_eq_some_iff h, lookup_eq_some_iff h]

theorem mem_entries_ofList {pairs : List (String × α)} (h : (pairs.map Prod.fst).Nodup)
    {e : String × α} : e ∈ (ofList pairs).entries ↔ e ∈ pairs := by
  rw [← get?_ofList_eq_some_iff h]
  exact mem_entries_iff (ordered_ofList pairs)

/-- A dictionary in order is made of its own entries. -/
theorem ofList_entries {d : Dictionary α} (h : d.Ordered) : ofList d.entries = d := by
  refine ext_of_ordered (ordered_ofList _) h fun key => ?_
  ext value
  rw [get?_ofList_eq_some_iff (nodup_keys h), mem_entries_iff h]

/-! ## Erasing and filtering -/

theorem get?_foldl_erase (keys : List String) (d : Dictionary α) (key : String) :
    (keys.foldl erase d).get? key = if key ∈ keys then none else d.get? key := by
  induction keys generalizing d with
  | nil => rfl
  | cons k rest ih =>
    rw [List.foldl_cons, ih, get?_erase]
    by_cases hrest : key ∈ rest
    · rw [if_pos hrest, if_pos (List.mem_cons_of_mem _ hrest)]
    · simp only [if_neg hrest, List.mem_cons, or_iff_left hrest]

theorem ordered_foldl_erase (keys : List String) {d : Dictionary α} (h : d.Ordered) :
    (keys.foldl erase d).Ordered := by
  induction keys generalizing d with
  | nil => exact h
  | cons k rest ih => exact ih (List.Pairwise.filter _ h)

/-- The entries that a function keeps, with the values that it gives them. -/
def filterMap (f : String → α → Option β) (d : Dictionary α) : Dictionary β :=
  ⟨d.entries.filterMap fun e => (f e.1 e.2).map (e.1, ·)⟩

theorem ordered_filterMap {d : Dictionary α} (h : d.Ordered) (f : String → α → Option β) :
    (d.filterMap f).Ordered := by
  refine List.Pairwise.filterMap _ (fun a b hab => ?_) h
  intro a' ha' b' hb'
  obtain ⟨_, -, rfl⟩ := Option.map_eq_some_iff.mp ha'
  obtain ⟨_, -, rfl⟩ := Option.map_eq_some_iff.mp hb'
  exact hab

theorem get?_filterMap {d : Dictionary α} (h : d.Ordered) (f : String → α → Option β)
    (key : String) : (d.filterMap f).get? key = (d.get? key).bind (f key) := by
  ext value
  rw [← mem_entries_iff (ordered_filterMap h f), Option.bind_eq_some_iff]
  simp only [filterMap, List.mem_filterMap, Option.map_eq_some_iff, Prod.mk.injEq]
  constructor
  · rintro ⟨⟨k, v⟩, hmem, w, hw, rfl, rfl⟩
    exact ⟨v, (mem_entries_iff h).mp hmem, hw⟩
  · rintro ⟨v, hv, hw⟩
    exact ⟨(key, v), (mem_entries_iff h).mpr hv, value, hw, rfl, rfl⟩

end TraceCollector.Dictionary
