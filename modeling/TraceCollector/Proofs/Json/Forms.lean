import TraceCollector.Json.Codec
import TraceCollector.Proofs.Json.RoundTrip

/-!
# Kinds of data that survive their text

A kind of data survives its text if its form can be written, is of the shape that is read, and
stands for what it was made from (`Codec.Carries`, `Codec.Carries.read_write`). This is shown part
by part: for names and texts, for lists of what survives, and for records of such fields.
-/

namespace TraceCollector.Json

namespace Codec

variable {α : Type} {d : Nat}

/-- The form of the value is a value of at most so many nested brackets and of the codec's shape,
and stands for what it was made from. -/
structure Carries (codec : Codec α) (d : Nat) (a : α) : Prop where
  writable : Writable d (codec.encode a)
  conforms : Conforms codec.shape (codec.encode a)
  decode_encode : codec.decode (codec.encode a) = .ok a

/-- Reading what was written for a value gives the value. -/
theorem Carries.read_write {codec : Codec α} {a : α} (h : codec.Carries depthLimit a) :
    codec.read (utf8 (codec.write a)) = .ok a := by
  rw [read, write, read_text h.writable h.conforms]
  dsimp only
  rw [h.decode_encode]

/-! ## Names and lists -/

theorem carries_choice {variants : List α} {name : α → String} {a : α} (ha : a ∈ variants)
    (hname : ∀ b ∈ variants, name b = name a → b = a) :
    (choice variants name).Carries d a where
  writable := .plain (.string _)
  conforms := .choice (List.mem_map_of_mem ha)
  decode_encode := by
    have hfind : variants.find? (name · == name a) = some a := by
      have hsome : (variants.find? (name · == name a)).isSome = true :=
        List.find?_isSome.mpr ⟨a, ha, beq_self_eq_true _⟩
      obtain ⟨b, hb⟩ := Option.isSome_iff_exists.mp hsome
      have heq := List.find?_some hb
      rw [hb, hname b (List.mem_of_find?_eq_some hb) (beq_iff_eq.mp heq)]
    simp only [choice, Value.asText, bind, Except.bind, hfind]
    rfl

theorem mapM_map_of_forall {β : Type} {f : α → β} {g : β → Except Mismatch α} {as : List α}
    (h : ∀ a ∈ as, g (f a) = .ok a) : (as.map f).mapM g = .ok as := by
  induction as with
  | nil => rfl
  | cons a rest ih =>
    obtain ⟨ha, hrest⟩ := List.forall_mem_cons.mp h
    rw [List.map_cons, List.mapM_cons, ha, ih hrest]
    rfl

theorem carries_texts (items : List String) : texts.Carries (d + 1) items where
  writable := .array fun v hv => by
    obtain ⟨s, -, rfl⟩ := List.mem_map.mp hv
    exact .plain (.string s)
  conforms := .list fun v hv => by
    obtain ⟨s, -, rfl⟩ := List.mem_map.mp hv
    exact .scalar rfl
  decode_encode := mapM_map_of_forall fun _ _ => rfl

theorem carries_list {item : Codec α} {as : List α} (h : ∀ a ∈ as, item.Carries d a) :
    (list item).Carries (d + 1) as where
  writable := .array fun v hv => by
    obtain ⟨a, ha, rfl⟩ := List.mem_map.mp hv
    exact (h a ha).writable
  conforms := .list fun v hv => by
    obtain ⟨a, ha, rfl⟩ := List.mem_map.mp hv
    exact (h a ha).conforms
  decode_encode := mapM_map_of_forall fun a ha => (h a ha).decode_encode

end Codec

/-! ## Records -/

section Records

variable {d : Nat} {fields : List (Field Shape)} {pairs : List (String × Value)}

/-- A member that the fields name, and whose value can be written. -/
def Suits (d : Nat) (fields : List (Field Shape)) (e : String × Value) : Prop :=
  Writable d e.2 ∧ ∃ field, fieldNamed? fields e.1 = some field ∧ Conforms field.shape e.2

theorem writable_ofMembers (hkeys : (pairs.map Prod.fst).Nodup)
    (h : ∀ e ∈ pairs, Suits d fields e) : Writable (d + 1) (.ofMembers pairs) :=
  .object (Dictionary.ordered_ofList pairs) fun e he =>
    (h e ((Dictionary.mem_entries_ofList hkeys).mp he)).1

theorem conforms_ofMembers {name : String} (hkeys : (pairs.map Prod.fst).Nodup)
    (h : ∀ e ∈ pairs, Suits d fields e)
    (hrequired : ∀ field ∈ fields, field.required = true → field.name ∈ pairs.map Prod.fst) :
    Conforms (.record name fields) (.ofMembers pairs) := by
  have hmem : ∀ {key v}, (Dictionary.ofList pairs).get? key = some v → (key, v) ∈ pairs :=
    (Dictionary.get?_ofList_eq_some_iff hkeys).mp
  refine .record (fun key hkey => ?_) (fun key v field hget hfield => ?_)
    fun field hfield hreq => ?_
  · obtain ⟨v, hv⟩ := Option.isSome_iff_exists.mp hkey
    obtain ⟨-, field, hfield, -⟩ := h _ (hmem hv)
    exact Option.isSome_iff_exists.mpr ⟨field, hfield⟩
  · obtain ⟨-, field', hfield', hconforms⟩ := h _ (hmem hget)
    cases hfield.symm.trans hfield'
    exact hconforms
  · obtain ⟨⟨key, v⟩, he, hkey⟩ := List.mem_map.mp (hrequired field hfield hreq)
    refine Option.isSome_iff_exists.mpr ⟨v, (Dictionary.get?_ofList_eq_some_iff hkeys).mpr ?_⟩
    rw [← hkey]
    exact he

theorem suits_text {key name : String} {required : Bool}
    (h : fieldNamed? fields key = some ⟨name, .scalar .text, required⟩) (s : String) :
    Suits d fields (key, .string s) :=
  ⟨.plain (.string s), _, h, .scalar rfl⟩

theorem Codec.Carries.suits {α : Type} {codec : Codec α} {a : α} (h : codec.Carries d a)
    {key name : String} {required : Bool}
    (hfield : fieldNamed? fields key = some ⟨name, codec.shape, required⟩) :
    Suits d fields (key, codec.encode a) :=
  ⟨h.writable, _, hfield, h.conforms⟩

/-- A record survives if its members do, all that are required are there, and the value can be made
from what is found under the keys. -/
theorem Codec.carries_record {α : Type} {codec : Codec α} {a : α} {name : String}
    (hshape : codec.shape = .record name fields) (hencode : codec.encode a = .ofMembers pairs)
    (hkeys : (pairs.map Prod.fst).Nodup) (h : ∀ e ∈ pairs, Suits d fields e)
    (hrequired : ∀ field ∈ fields, field.required = true → field.name ∈ pairs.map Prod.fst)
    (hdecode : ∀ members : Dictionary Value, (∀ key, members.get? key = pairs.lookup key) →
      codec.decode (.object members) = .ok a) : codec.Carries (d + 1) a where
  writable := hencode ▸ writable_ofMembers hkeys h
  conforms := by
    rw [hshape, hencode]
    exact conforms_ofMembers hkeys h hrequired
  decode_encode := hencode ▸ hdecode _ (Dictionary.get?_ofList hkeys)

end Records

end TraceCollector.Json
