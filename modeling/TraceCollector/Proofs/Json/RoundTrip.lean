import TraceCollector.Proofs.Json.Conformance
import TraceCollector.Proofs.Json.Integers

/-!
# Values that are written

A value without binary64 numbers, whose integers fit 64 bits and whose objects are in order, is read
from its compact text as the value itself, under every shape that it conforms to.

1. A value without parts is told by its first byte, which is no blank, comma or bracket
   (`exists_cons_of_plain`), and is read up to a byte that ends it (`readNext_chars`).
2. Lists and objects are read part by part: what follows a part is a comma or the closing bracket
   (`items_later`, `members_later`).
3. So values are read by induction on their brackets (`reads_of_conforms`), and a text has a value
   around which nothing is left (`read_text`).
-/

namespace TraceCollector.Json

/-! ## Values without parts -/

/-- The values without parts that are no binary64 numbers. -/
inductive Plain : Value → Prop where
  | null : Plain .null
  | bool (b : Bool) : Plain (.bool b)
  | integer {n : Int} (h : IsInteger64 n) : Plain (.number (.integer n))
  | string (s : String) : Plain (.string s)

/-- The blanks, the comma and the brackets. -/
def separators : List UInt8 := [32, 10, 9, 13, 44, 93, 91, 123]

/-- What is written for a value without parts begins with no blank, comma or bracket. -/
theorem exists_cons_of_plain {v : Value} (h : Plain v) :
    ∃ b rest, bytesOf v.chars = b :: rest ∧ b ∉ separators := by
  cases h with
  | null => exact ⟨110, [117, 108, 108], by decide, by decide⟩
  | bool b =>
    cases b
    · exact ⟨102, [97, 108, 115, 101], by decide, by decide⟩
    · exact ⟨116, [114, 117, 101], by decide, by decide⟩
  | @integer n h =>
    cases n with
    | ofNat n =>
      obtain ⟨b, rest, hbytes, d, hd⟩ := bytesOf_decimalChars n
      have hother : ∀ c ∈ separators, digit? c = none := by decide +kernel
      refine ⟨b, rest, by rw [Value.chars]; exact hbytes, fun hmem => ?_⟩
      rw [hother b hmem] at hd
      cases hd
    | negSucc n =>
      refine ⟨45, bytesOf (Text.decimalChars (n + 1)), ?_, by decide⟩
      rw [Value.chars]
      exact bytesOf_cons '-' _
  | string s =>
    refine ⟨34, stringTail s, ?_, by decide⟩
    rw [Value.chars, bytesOf_stringChars]

theorem scalar_chars {v : Value} (h : Plain v) {s : List UInt8} (hs : Ends s) :
    scalar (bytesOf v.chars ++ s) = .ok (v, s) := by
  cases h with
  | null => rfl
  | bool b => cases b <;> rfl
  | integer h =>
    rw [Value.chars]
    exact scalar_integerChars h hs
  | string t =>
    rw [Value.chars, bytesOf_stringChars, List.cons_append]
    show readAs Value.string (string (stringTail t ++ s)) = _
    rw [string_stringTail]
    rfl

/-- Bytes that begin with no bracket. -/
theorem cons_ne_of_separators {b c : UInt8} (hb : b ∉ separators) (hc : c ∈ separators)
    {rest t : List UInt8} : b :: rest ≠ c :: t :=
  fun h => hb ((List.cons.inj h).1 ▸ hc)

theorem scalarOf_chars {form : ScalarForm} {v : Value} (h : Plain v)
    (hform : form.admit v = .ok ()) {s : List UInt8} (hs : Ends s) :
    scalarOf form (bytesOf v.chars ++ s) = .ok (v, s) := by
  obtain ⟨b, rest, hbytes, hb⟩ := exists_cons_of_plain h
  rw [scalarOf, scalar_chars h hs]
  · simp only [hform]
  all_goals
    rw [hbytes, List.cons_append]
    exact fun _ => cons_ne_of_separators hb (by decide)

/-- A value without parts is read under each shape that it conforms to. -/
theorem readNext_chars (inner : Option (Shape → Reader Value)) {shape : Shape} {v : Value}
    (h : Plain v) (hshape : Conforms shape v) {s : List UInt8} (hs : Ends s) :
    readNext inner shape (bytesOf v.chars ++ s) = .ok (v, s) := by
  cases hshape with
  | any =>
    obtain ⟨b, rest, hbytes, hb⟩ := exists_cons_of_plain h
    rw [readNext, scalar_chars h hs]
    all_goals
      rw [hbytes, List.cons_append]
      exact fun _ => cons_ne_of_separators hb (by decide)
  | scalar hform => exact scalarOf_chars h hform hs
  | absent form => rfl
  | @optional form _ hform =>
    -- A reader that allows null looks for its first letter before it reads anything else.
    by_cases hnull : ∃ t, bytesOf v.chars ++ s = 110 :: t
    · obtain ⟨t, ht⟩ := hnull
      rw [← scalar_chars h hs, ht]
      rfl
    · rw [readNext, scalarOf_chars h hform hs]
      exact fun t ht => hnull ⟨t, ht⟩
  | @choice variants name hname =>
    rw [Value.chars, bytesOf_stringChars, List.cons_append]
    show readAs Value.string (variant variants (stringTail name ++ s)) = _
    rw [variant, string_stringTail]
    dsimp only
    rw [if_pos hname]
    rfl
  | list => cases h
  | dictionary => cases h
  | record => cases h

/-! ## Lists -/

/-- The bytes are read as the value, up to one that ends it. -/
def Reads {α : Type} (reader : Reader α) (a : α) (bytes : List UInt8) : Prop :=
  ∀ s, Ends s → reader.run (bytes ++ s) = .ok (a, s)

/-- How the text of a value begins: not with a blank, a comma or a bracket that closes a list. -/
def Opens (bytes : List UInt8) : Prop :=
  ∃ b rest, bytes = b :: rest ∧ isSpace b = false ∧ b ≠ 44 ∧ b ≠ 93

theorem skipBlanks_of_opens {bytes : List UInt8} (h : Opens bytes) (s : List UInt8) :
    skipBlanks (bytes ++ s) = bytes ++ s := by
  obtain ⟨b, rest, rfl, hspace, -⟩ := h
  exact List.dropWhile_cons_of_neg (by rw [hspace]; exact Bool.false_ne_true)

/-- What stands for the further parts of a list or an object, each behind its comma. -/
def later {α : Type} (bytes : α → List UInt8) (parts : List α) : List UInt8 :=
  parts.flatMap fun a => 44 :: bytes a

theorem later_cons {α : Type} (bytes : α → List UInt8) (a : α) (rest : List α) (s : List UInt8) :
    later bytes (a :: rest) ++ s = 44 :: (bytes a ++ (later bytes rest ++ s)) := by
  unfold later
  rw [List.flatMap_cons, List.append_assoc, List.cons_append]

theorem ends_later {α : Type} (bytes : α → List UInt8) (parts : List α) {b : UInt8}
    (hb : b = 93 ∨ b = 125) (s : List UInt8) : Ends (later bytes parts ++ b :: s) := by
  intro c hc
  cases parts with
  | nil =>
    cases hc
    exact Or.inr hb
  | cons a rest =>
    cases hc
    exact Or.inl rfl

theorem nextItem_of_opens {bytes : List UInt8} (h : Opens bytes) (s : List UInt8) :
    nextItem true (bytes ++ s) = .ok (.entry (bytes ++ s)) ∧
      nextItem false (44 :: (bytes ++ s)) = .ok (.entry (bytes ++ s)) := by
  have hskip := skipBlanks_of_opens h s
  have hskipComma : skipBlanks (44 :: (bytes ++ s)) = 44 :: (bytes ++ s) := rfl
  obtain ⟨b, rest, rfl, -, hcomma, hclose⟩ := h
  rw [List.cons_append] at hskip hskipComma ⊢
  constructor
  · rw [nextItem, hskip]
    split <;> simp_all
  · rw [nextItem, hskipComma]
    simp only [hskip]
    split <;> simp_all

section Items

variable {item : Reader Value}

theorem items_of_closed {first : Bool} {s r : List UInt8}
    (h : nextItem first s = .ok (.closed r)) : items item first s = .ok ([], r) := by
  rw [items]
  split
  · next hstop => cases h.symm.trans hstop
  · next hclosed => cases h.symm.trans hclosed; rfl
  · next hentry => cases h.symm.trans hentry

theorem items_of_entry {first : Bool} {s t r : List UInt8} {v : Value}
    (h : nextItem first s = .ok (.entry t)) (hrun : item.run t = .ok (v, r)) :
    items item first s = readAs (v :: ·) (items item false r) := by
  rw [items]
  split
  · next hstop => cases h.symm.trans hstop
  · next hclosed => cases h.symm.trans hclosed
  · next hentry =>
    cases h.symm.trans hentry
    split
    · next hstop => cases hrun.symm.trans hstop
    · next hread =>
      cases hrun.symm.trans hread
      cases items item false r <;> rfl

/-- Values with commas between them are read one after the other. -/
theorem items_later {vs : List Value}
    (h : ∀ v ∈ vs, Opens (bytesOf v.chars) ∧ Reads item v (bytesOf v.chars)) (s : List UInt8) :
    items item false (later (bytesOf ·.chars) vs ++ 93 :: s) = .ok (vs, s) := by
  induction vs with
  | nil => exact items_of_closed rfl
  | cons v rest ih =>
    obtain ⟨⟨hopens, hreads⟩, hrest⟩ := List.forall_mem_cons.mp h
    have hrun := hreads _ (ends_later (bytesOf ·.chars) rest (Or.inl rfl) s)
    rw [later_cons, items_of_entry (nextItem_of_opens hopens _).2 hrun, ih hrest]
    rfl

theorem bytesOf_itemsChars (v : Value) (rest : List Value) :
    bytesOf (itemsChars (v :: rest)) = bytesOf v.chars ++ later (bytesOf ·.chars) rest := by
  induction rest generalizing v with
  | nil => simp [itemsChars, later]
  | cons w rest ih =>
    rw [itemsChars, bytesOf_append, bytesOf_cons, ih]
    · rfl
    · exact fun h => List.cons_ne_nil _ _ h

theorem items_itemsChars {vs : List Value}
    (h : ∀ v ∈ vs, Opens (bytesOf v.chars) ∧ Reads item v (bytesOf v.chars)) (s : List UInt8) :
    items item true (bytesOf (itemsChars vs) ++ 93 :: s) = .ok (vs, s) := by
  cases vs with
  | nil => exact items_of_closed rfl
  | cons v rest =>
    obtain ⟨⟨hopens, hreads⟩, hrest⟩ := List.forall_mem_cons.mp h
    have hrun := hreads _ (ends_later (bytesOf ·.chars) rest (Or.inl rfl) s)
    rw [bytesOf_itemsChars, List.append_assoc,
      items_of_entry (nextItem_of_opens hopens _).1 hrun, items_later hrest]
    rfl

end Items

/-! ## Objects -/

/-- The bytes of a member. -/
def memberBytes (e : String × Value) : List UInt8 :=
  34 :: (stringTail e.1 ++ 58 :: bytesOf e.2.chars)

theorem memberBytes_append (e : String × Value) (s : List UInt8) :
    memberBytes e ++ s = 34 :: (stringTail e.1 ++ 58 :: (bytesOf e.2.chars ++ s)) := by
  unfold memberBytes
  rw [List.cons_append, List.append_assoc, List.cons_append]

theorem bytesOf_membersChars (e : String × Value) (rest : List (String × Value)) :
    bytesOf (membersChars (e :: rest)) = memberBytes e ++ later memberBytes rest := by
  induction rest generalizing e with
  | nil =>
    obtain ⟨key, v⟩ := e
    rw [membersChars, bytesOf_append, bytesOf_stringChars, bytesOf_cons, later,
      List.flatMap_nil, List.append_nil]
    rfl
  | cons next rest ih =>
    obtain ⟨key, v⟩ := e
    rw [membersChars, bytesOf_append, bytesOf_append, bytesOf_stringChars, bytesOf_cons,
      bytesOf_cons, ih]
    · simp [memberBytes, later]
      rfl
    · exact fun h => List.cons_ne_nil _ _ h

section Members

variable {plan : Dictionary Value → String → Except Mismatch MemberReader}

theorem members_of_closed {first : Bool} {read : Dictionary Value} {s r : List UInt8}
    (h : nextKey first s = .ok (.closed r)) : members plan first read s = .ok (read, r) := by
  rw [members]
  split
  · next hstop => cases h.symm.trans hstop
  · next hclosed => cases h.symm.trans hclosed; rfl
  · next hentry => cases h.symm.trans hentry

theorem members_of_entry {first : Bool} {read : Dictionary Value} {e : String × Value}
    {reader : MemberReader} {s r : List UInt8}
    (h : nextKey first s = .ok (.entry (stringTail e.1 ++ 58 :: (bytesOf e.2.chars ++ r))))
    (hplan : plan read e.1 = .ok reader)
    (hrun : reader.run (bytesOf e.2.chars ++ r) = .ok (some e.2, r)) :
    members plan first read s = members plan false (read.insert e.1 e.2) r := by
  have hstring := string_stringTail e.1 (58 :: (bytesOf e.2.chars ++ r))
  rw [members]
  split
  · next hstop => cases h.symm.trans hstop
  · next hclosed => cases h.symm.trans hclosed
  · next hentry =>
    cases h.symm.trans hentry
    split
    · next hstop => cases hstring.symm.trans hstop
    · next hkey =>
      cases hstring.symm.trans hkey
      have hcolon : colon (58 :: (bytesOf e.2.chars ++ r)) = .ok (bytesOf e.2.chars ++ r) := rfl
      rw [hplan]
      dsimp only
      split
      · next hstop => cases hcolon.symm.trans hstop
      · next hvalue =>
        cases hcolon.symm.trans hvalue
        split
        · next hstop => cases hrun.symm.trans hstop
        · next hskipped => cases hrun.symm.trans hskipped
        · next hread => cases hrun.symm.trans hread; rfl

/-- The plan reads a member that it was not asked for before. -/
def Plans (plan : Dictionary Value → String → Except Mismatch MemberReader)
    (e : String × Value) : Prop :=
  ∀ read : Dictionary Value, read.contains e.1 = false →
    ∃ reader, plan read e.1 = .ok reader ∧ Reads reader (some e.2) (bytesOf e.2.chars)

theorem contains_insert_of_ne {d : Dictionary Value} {key k : String} (v : Value) (hne : k ≠ key)
    (h : d.contains k = false) : (d.insert key v).contains k = false := by
  rw [← Bool.not_eq_true, Dictionary.contains_insert, not_or, Bool.not_eq_true]
  exact ⟨hne, h⟩

/-- Members of different keys with commas between them are read one after the other. -/
theorem members_later {es : List (String × Value)} (hplans : ∀ e ∈ es, Plans plan e)
    (hkeys : (es.map Prod.fst).Nodup) {read : Dictionary Value}
    (hread : ∀ e ∈ es, read.contains e.1 = false) (s : List UInt8) :
    members plan false read (later memberBytes es ++ 125 :: s) =
      .ok (es.foldl (fun d e => d.insert e.1 e.2) read, s) := by
  induction es generalizing read with
  | nil => exact members_of_closed rfl
  | cons e rest ih =>
    obtain ⟨hplan, hplans⟩ := List.forall_mem_cons.mp hplans
    obtain ⟨hnew, hnews⟩ := List.forall_mem_cons.mp hread
    obtain ⟨hkey, hkeys⟩ := List.nodup_cons.mp hkeys
    obtain ⟨reader, hreader, hrun⟩ := hplan read hnew
    have hends := ends_later memberBytes rest (Or.inr rfl) s
    rw [later_cons, memberBytes_append, members_of_entry rfl hreader (hrun _ hends),
      ih hplans hkeys]
    · rfl
    · intro e' he'
      refine contains_insert_of_ne e.2 (fun heq => hkey ?_) (hnews e' he')
      exact heq ▸ List.mem_map_of_mem he'

theorem members_membersChars {es : List (String × Value)} (hplans : ∀ e ∈ es, Plans plan e)
    (hkeys : (es.map Prod.fst).Nodup) (s : List UInt8) :
    members plan true ∅ (bytesOf (membersChars es) ++ 125 :: s) =
      .ok (Dictionary.ofList es, s) := by
  cases es with
  | nil => exact members_of_closed rfl
  | cons e rest =>
    have hnone : ∀ e' ∈ e :: rest, (∅ : Dictionary Value).contains e'.1 = false := fun _ _ => rfl
    obtain ⟨reader, hreader, hrun⟩ := hplans e List.mem_cons_self ∅ rfl
    have hread := hrun _ (ends_later memberBytes rest (Or.inr rfl) s)
    -- With a comma in front of the first member the rest would be read in the same way.
    have hlater := members_later hplans hkeys hnone s
    rw [later_cons, memberBytes_append, members_of_entry rfl hreader hread] at hlater
    rw [bytesOf_membersChars, List.append_assoc, memberBytes_append,
      members_of_entry rfl hreader hread]
    exact hlater

end Members

/-! ## Records -/

theorem reads_keep {reader : Reader Value} {v : Value} {bytes : List UInt8}
    (h : Reads reader v bytes) : Reads (keep reader) (some v) bytes := by
  intro s hs
  show readAs some (reader.run (bytes ++ s)) = _
  rw [h s hs]
  rfl

theorem namedFields_membersChars {reader : Shape → Reader Value} {fields : List (Field Shape)}
    {members : Dictionary Value} (hordered : members.Ordered)
    (hplans : ∀ e ∈ members.entries, Plans (fieldPlan reader fields) e)
    (hrequired : ∀ field ∈ fields, field.required = true → members.contains field.name = true)
    (s : List UInt8) :
    namedFields reader fields (bytesOf (membersChars members.entries) ++ 125 :: s) =
      .ok (members, s) := by
  rw [namedFields, members_membersChars hplans (Dictionary.nodup_keys hordered),
    Dictionary.ofList_entries hordered]
  dsimp only
  rw [firstRequired?_missing_eq_none_iff.mpr hrequired]

/-! ## Values -/

/-- Values of lists and objects to a depth, without binary64 numbers. -/
inductive Writable : Nat → Value → Prop where
  | plain {d : Nat} {v : Value} (h : Plain v) : Writable d v
  | array {d : Nat} {items : List Value} (h : ∀ v ∈ items, Writable d v) :
    Writable (d + 1) (.array items)
  | object {d : Nat} {members : Dictionary Value} (hordered : members.Ordered)
    (h : ∀ e ∈ members.entries, Writable d e.2) : Writable (d + 1) (.object members)

theorem bytesOf_array (items : List Value) (s : List UInt8) :
    bytesOf (Value.array items).chars ++ s = 91 :: (bytesOf (itemsChars items) ++ 93 :: s) := by
  rw [Value.chars, List.cons_append, bytesOf_cons, bytesOf_append, List.append_assoc,
    List.append_assoc]
  rfl

theorem bytesOf_object (members : Dictionary Value) (s : List UInt8) :
    bytesOf (Value.object members).chars ++ s =
      123 :: (bytesOf (membersChars members.entries) ++ 125 :: s) := by
  rw [Value.chars, List.cons_append, bytesOf_cons, bytesOf_append, List.append_assoc,
    List.append_assoc]
  rfl

theorem opens_of_writable {d : Nat} {v : Value} (h : Writable d v) : Opens (bytesOf v.chars) := by
  cases h with
  | plain h =>
    obtain ⟨b, rest, hbytes, hb⟩ := exists_cons_of_plain h
    simp only [separators, List.mem_cons, not_or] at hb
    exact ⟨b, rest, hbytes, by simp [isSpace, hb], by simp [hb], by simp [hb]⟩
  | @array _ items _ =>
    have hbytes := bytesOf_array items []
    rw [List.append_nil] at hbytes
    exact ⟨91, _, hbytes, rfl, by decide, by decide⟩
  | @object _ members _ _ =>
    have hbytes := bytesOf_object members []
    rw [List.append_nil] at hbytes
    exact ⟨123, _, hbytes, rfl, by decide, by decide⟩

/-- A reader looks at the first byte of a value. -/
theorem exists_run_reader (d : Nat) (shape : Shape) : ∃ inner, ∀ s,
    (reader d shape).run s = readNext inner shape (skipBlanks s) := by
  cases d with
  | zero => exact ⟨none, fun _ => rfl⟩
  | succ d => exact ⟨some (reader d), fun _ => rfl⟩

section Brackets

variable {d : Nat} {shape : Shape}

/-- A scalar form admits neither lists nor objects. -/
theorem admit_ne_ok (form : ScalarForm) :
    (∀ elements, form.admit (.array elements) ≠ .ok ()) ∧
      ∀ members, form.admit (.object members) ≠ .ok () := by
  constructor
  all_goals
    intro _ h
    cases form <;> cases h

theorem reads_array {elements : List Value}
    (h : ∀ v ∈ elements, ∀ item, Conforms item v →
      Opens (bytesOf v.chars) ∧ Reads (reader d item) v (bytesOf v.chars))
    (hshape : Conforms shape (.array elements)) :
    Reads (reader (d + 1) shape) (.array elements) (bytesOf (Value.array elements).chars) := by
  intro s _
  rw [bytesOf_array]
  have helements : ∀ item, (∀ v ∈ elements, Conforms item v) →
      readAs Value.array (items (reader d item) true (bytesOf (itemsChars elements) ++ 93 :: s)) =
        .ok (.array elements, s) := by
    intro item hitem
    rw [items_itemsChars fun v hv => h v hv item (hitem v hv)]
    rfl
  cases hshape with
  | any => exact helements .any fun v _ => .any v
  | @scalar form _ hform => exact absurd hform ((admit_ne_ok form).1 _)
  | @optional form _ hform => exact absurd hform ((admit_ne_ok form).1 _)
  | list hitem => exact helements _ hitem

theorem reads_object {members : Dictionary Value} (hordered : members.Ordered)
    (h : ∀ e ∈ members.entries, ∀ shape, Conforms shape e.2 →
      Reads (reader d shape) e.2 (bytesOf e.2.chars))
    (hshape : Conforms shape (.object members)) :
    Reads (reader (d + 1) shape) (.object members) (bytesOf (Value.object members).chars) := by
  intro s _
  rw [bytesOf_object]
  have hmembers : readAs Value.object (Json.members (fun _ _ => .ok (keep (reader d .any))) true ∅
      (bytesOf (membersChars members.entries) ++ 125 :: s)) = .ok (.object members, s) := by
    have hplans : ∀ e ∈ members.entries, Plans (fun _ _ => .ok (keep (reader d .any))) e :=
      fun e he _ _ => ⟨_, rfl, reads_keep (h e he .any (.any e.2))⟩
    rw [members_membersChars hplans (Dictionary.nodup_keys hordered),
      Dictionary.ofList_entries hordered]
    rfl
  cases hshape with
  | any => exact hmembers
  | dictionary => exact hmembers
  | @scalar form _ hform => exact absurd hform ((admit_ne_ok form).2 _)
  | @optional form _ hform => exact absurd hform ((admit_ne_ok form).2 _)
  | @record name fields _ hnamed hvalues hrequired =>
    have hplans : ∀ e ∈ members.entries, Plans (fieldPlan (reader d) fields) e := by
      intro e he read hread
      have hget : members.get? e.1 = some e.2 := (Dictionary.mem_entries_iff hordered).mp he
      have hsome := hnamed e.1 (by rw [Dictionary.contains, hget]; rfl)
      obtain ⟨field, hfield⟩ := Option.isSome_iff_exists.mp hsome
      refine ⟨keep (reader d field.shape), ?_, reads_keep (h e he _ (hvalues _ _ _ hget hfield))⟩
      unfold fieldNamed? at hfield
      rw [fieldPlan, hfield]
      dsimp only
      rw [hread, if_neg Bool.false_ne_true]
    show readAs Value.object (namedFields (reader d) fields _) = _
    rw [namedFields_membersChars hordered hplans hrequired]
    rfl

end Brackets

/-- What is written for a value is read as the value under each shape that it conforms to. -/
theorem reads_of_conforms {d : Nat} {shape : Shape} {v : Value} (h : Writable d v)
    (hshape : Conforms shape v) : Reads (reader d shape) v (bytesOf v.chars) := by
  -- On the brackets of the value, whose parts have the shapes that the shape of the whole gives.
  induction h generalizing shape with
  | @plain d v h =>
    intro s hs
    obtain ⟨inner, hinner⟩ := exists_run_reader d shape
    rw [hinner, skipBlanks_of_opens (opens_of_writable (.plain h (d := d)))]
    exact readNext_chars inner h hshape hs
  | array h ih =>
    exact reads_array (fun v hv item hitem => ⟨opens_of_writable (h v hv), ih v hv hitem⟩) hshape
  | object hordered h ih => exact reads_object hordered (fun e he shape => ih e he) hshape

/-- Reading the text of a value gives the value. -/
theorem read_text {shape : Shape} {v : Value} (h : Writable depthLimit v)
    (hshape : Conforms shape v) : shape.read (utf8 v.text) = .ok v := by
  have hrun := reads_of_conforms h hshape [] (fun b hb => by cases hb)
  rw [List.append_nil] at hrun
  rw [Shape.read, Value.text, utf8_ofList, hrun]
  rfl

end TraceCollector.Json
