import TraceCollector.Segment.Document

/-!
# The rules of segment documents

Which documents are turned down, and for which rule.

1. `Rule.order` lists the rules in the order in which they count; `Breaks` says of each rule by
   itself when an object breaks it, and with which rejection. Whether a field is there counts before
   what any field holds, and that before whether the times lie in the calendar.
2. Every step of the reading decides rules of its own (`Decides`): it fails with the rejection for
   the first that is broken, and succeeds if all are kept. Steps in sequence decide their rules in
   sequence (`Decides.bind`).
3. So an object is turned down for the first rule that it breaks, and accepted if it breaks none
   (`ofFields_decides`). A text that is no object is turned down before any rule is looked at.
-/

namespace TraceCollector.Segment

/-! ## Rules -/

/-- What a field may hold. -/
inductive Form where
  | text
  | seconds
  | optionalSeconds

/-- Seconds are numbers; only where they are optional null stands for their absence. -/
def Form.Admits : Form → Json.Value → Prop
  | text, .string _ | seconds, .number _ | optionalSeconds, .number _ | optionalSeconds, .null =>
    True
  | _, _ => False

namespace Form

variable {v : Json.Value}

theorem not_admits_text (h : ∀ s, v ≠ .string s) : ¬ text.Admits v := by
  cases v with
  | string s => exact absurd rfl (h s)
  | _ => exact not_false

theorem not_admits_seconds (h : ∀ n, v ≠ .number n) : ¬ seconds.Admits v := by
  cases v with
  | number n => exact absurd rfl (h n)
  | _ => exact not_false

theorem not_admits_optionalSeconds (hnull : v ≠ .null) (h : ∀ n, v ≠ .number n) :
    ¬ optionalSeconds.Admits v := by
  cases v with
  | null => exact absurd rfl hnull
  | number n => exact absurd rfl (h n)
  | _ => exact not_false

end Form

/-- What the object of a document is held to. -/
inductive Rule where
  /-- There is an id. -/
  | identified
  /-- The id is a text. -/
  | textualId
  /-- The field is there; null is a value too. -/
  | present (field : Field)
  /-- There is an end or a mark of work in progress. -/
  | ended
  /-- There is an end, or the mark is not the text "false". -/
  | endedIfOver
  /-- What the field holds, if it is there, is of the form. -/
  | fits (field : Field) (form : Form)
  /-- If the field holds a number, it is a time of the calendar. -/
  | inCalendar (field : Field)

namespace Rule

/-- The rules in the order in which they count. -/
def order : List Rule :=
  [identified, textualId, present .name, present .traceId, present .startTime, ended, endedIfOver,
    fits .name .text, fits .traceId .text, fits .startTime .seconds,
    fits .endTime .optionalSeconds, inCalendar .startTime, inCalendar .endTime]

/-- What a breach of the rule comes down to. -/
def code : Rule → Rejection.Code
  | identified | present _ | ended | endedIfOver => .missingParam
  | textualId | fits _ _ => .jsonFormatError
  | inCalendar _ => .internalFailure

end Rule

/-- The number of seconds that a field holds. -/
def secondsOf? (fields : Dictionary Json.Value) (field : Field) : Option Binary64 :=
  match field? fields field with
  | some (.number n) => some n.toBinary64
  | _ => none

/-- The object breaks a rule, which is told with a rejection. All rules but those of the id itself
are about objects with an id, which the rejection names. -/
inductive Breaks (fields : Dictionary Json.Value) : Rule → Rejection → Prop where
  | unidentified (h : field? fields .id = none) : Breaks fields .identified (.missing .id none)
  | idNotText {v : Json.Value} (h : field? fields .id = some v) (hv : ¬ Form.text.Admits v) :
    Breaks fields .textualId (.invalid .id none)
  | absent {id : String} {field : Field} (hid : field? fields .id = some (.string id))
    (h : field? fields field = none) : Breaks fields (.present field) (.missing field (some id))
  | neverEnding {id : String} (hid : field? fields .id = some (.string id))
    (hend : field? fields .endTime = none) (hmark : field? fields .inProgress = none) :
    Breaks fields .ended (.neverEnding id)
  | overWithoutEnd {id : String} (hid : field? fields .id = some (.string id))
    (hend : field? fields .endTime = none)
    (hmark : field? fields .inProgress = some (.string "false")) :
    Breaks fields .endedIfOver (.missing .endTime (some id))
  | misfit {id : String} {field : Field} {form : Form} {v : Json.Value}
    (hid : field? fields .id = some (.string id)) (h : field? fields field = some v)
    (hv : ¬ form.Admits v) : Breaks fields (.fits field form) (.invalid field (some id))
  | outOfCalendar {id : String} {field : Field} {secs : Binary64}
    (hid : field? fields .id = some (.string id)) (h : secondsOf? fields field = some secs)
    (hsecs : Instant.ofEpochSeconds? secs = none) :
    Breaks fields (.inCalendar field) (.outOfRange field secs id)

/-- The object does not break the rule. -/
def Keeps (fields : Dictionary Json.Value) (rule : Rule) : Prop := ∀ r, ¬ Breaks fields rule r

section Rules

variable {fields : Dictionary Json.Value} {rule : Rule} {r r' : Rejection} {field : Field}
  {v : Json.Value}

namespace Breaks

theorem unique (h : Breaks fields rule r) (h' : Breaks fields rule r') : r = r' := by
  cases h <;> cases h' <;> simp_all

theorem code_eq (h : Breaks fields rule r) : r.code = rule.code := by
  cases h <;> rfl

theorem id?_eq_some_iff (h : Breaks fields rule r) (id : String) :
    r.id? = some id ↔ field? fields .id = some (.string id) := by
  cases h with
  | unidentified h => simp [Rejection.id?, h]
  | idNotText h hv =>
    refine iff_of_false (by simp [Rejection.id?]) fun hid => hv ?_
    rw [h] at hid
    cases hid
    trivial
  | absent hid | neverEnding hid | overWithoutEnd hid | misfit hid | outOfCalendar hid =>
    rw [hid]
    simp [Rejection.id?]

end Breaks

namespace Keeps

theorem identified (h : field? fields .id = some v) : Keeps fields .identified := by
  intro r hbreaks
  cases hbreaks with
  | unidentified hnone => rw [h] at hnone; cases hnone

theorem textualId (h : field? fields .id = some v) (hv : Form.text.Admits v) :
    Keeps fields .textualId := by
  intro r hbreaks
  cases hbreaks with
  | idNotText hid hnot =>
    rw [h] at hid
    cases hid
    exact hnot hv

theorem present (h : field? fields field = some v) : Keeps fields (.present field) := by
  intro r hbreaks
  cases hbreaks with
  | absent hid hnone => rw [h] at hnone; cases hnone

theorem of_endTime (h : field? fields .endTime = some v) :
    ∀ rule ∈ [Rule.ended, .endedIfOver], Keeps fields rule := by
  intro rule hrule r hbreaks
  cases hbreaks with
  | neverEnding hid hend hmark => rw [h] at hend; cases hend
  | overWithoutEnd hid hend hmark => rw [h] at hend; cases hend
  | _ => simp at hrule

theorem ended_of_inProgress (h : field? fields .inProgress = some v) : Keeps fields .ended := by
  intro r hbreaks
  cases hbreaks with
  | neverEnding hid hend hmark => rw [h] at hmark; cases hmark

theorem endedIfOver_of_inProgress (h : field? fields .inProgress = some v)
    (hv : v ≠ .string "false") : Keeps fields .endedIfOver := by
  intro r hbreaks
  cases hbreaks with
  | overWithoutEnd hid hend hmark =>
    rw [h] at hmark
    exact hv (Option.some.inj hmark)

theorem fits_of_none {form : Form} (h : field? fields field = none) :
    Keeps fields (.fits field form) := by
  intro r hbreaks
  cases hbreaks with
  | misfit hid hv hnot => rw [h] at hv; cases hv

theorem fits_of_admits {form : Form} (h : field? fields field = some v) (hv : form.Admits v) :
    Keeps fields (.fits field form) := by
  intro r hbreaks
  cases hbreaks with
  | misfit hid hv' hnot =>
    rw [h] at hv'
    cases hv'
    exact hnot hv

theorem inCalendar_of_none (h : secondsOf? fields field = none) :
    Keeps fields (.inCalendar field) := by
  intro r hbreaks
  cases hbreaks with
  | outOfCalendar hid hsecs hnone => rw [h] at hsecs; cases hsecs

theorem inCalendar_of_some {secs : Binary64} {t : Timestamp}
    (h : secondsOf? fields field = some secs) (ht : Timestamp.ofSeconds? secs = some t) :
    Keeps fields (.inCalendar field) := by
  intro r hbreaks
  cases hbreaks with
  | outOfCalendar hid hsecs hnone =>
    rw [h] at hsecs
    cases hsecs
    rw [Timestamp.ofSeconds?_eq_none_iff.mpr hnone] at ht
    cases ht

end Keeps

/-! ## The first broken rule -/

/-- The rejection is the one for the first of the rules that the object breaks. -/
def FirstBroken (fields : Dictionary Json.Value) (rules : List Rule) (r : Rejection) : Prop :=
  ∃ before rule after, rules = before ++ rule :: after ∧
    (∀ earlier ∈ before, Keeps fields earlier) ∧ Breaks fields rule r

namespace FirstBroken

variable {rules rest : List Rule}

theorem single (h : Breaks fields rule r) : FirstBroken fields [rule] r :=
  ⟨[], rule, [], rfl, by simp, h⟩

theorem append (h : FirstBroken fields rules r) (rest : List Rule) :
    FirstBroken fields (rules ++ rest) r := by
  obtain ⟨before, rule, after, rfl, hbefore, hrule⟩ := h
  exact ⟨before, rule, after ++ rest, by simp, hbefore, hrule⟩

theorem after (h : FirstBroken fields rest r) (rules : List Rule)
    (hkept : ∀ rule ∈ rules, Keeps fields rule) : FirstBroken fields (rules ++ rest) r := by
  obtain ⟨before, rule, after, rfl, hbefore, hrule⟩ := h
  refine ⟨rules ++ before, rule, after, by simp, fun earlier hearlier => ?_, hrule⟩
  exact (List.mem_append.mp hearlier).elim (hkept earlier) (hbefore earlier)

theorem not_forall_keeps (h : FirstBroken fields rules r) :
    ¬ ∀ rule ∈ rules, Keeps fields rule := by
  obtain ⟨before, rule, after, rfl, -, hrule⟩ := h
  exact fun hkept => hkept rule (by simp) r hrule

theorem cons_iff : FirstBroken fields (rule :: rules) r ↔
    Breaks fields rule r ∨ Keeps fields rule ∧ FirstBroken fields rules r := by
  constructor
  · rintro ⟨before, broken, after, hrules, hbefore, hbroken⟩
    cases before with
    | nil =>
      cases hrules
      exact Or.inl hbroken
    | cons first before =>
      cases hrules
      exact Or.inr ⟨hbefore _ List.mem_cons_self, before, broken, after, rfl,
        fun earlier hearlier => hbefore earlier (List.mem_cons_of_mem _ hearlier), hbroken⟩
  · rintro (h | ⟨hkept, h⟩)
    · exact (single h).append rules
    · exact h.after [rule] (List.forall_mem_singleton.mpr hkept)

theorem unique (h : FirstBroken fields rules r) (h' : FirstBroken fields rules r') : r = r' := by
  induction rules with
  | nil =>
    obtain ⟨before, rule, after, hrules, -⟩ := h
    exact absurd hrules.symm (by simp)
  | cons rule rules ih =>
    rcases cons_iff.mp h with h | ⟨hkept, h⟩
    · rcases cons_iff.mp h' with h' | ⟨hkept, -⟩
      · exact h.unique h'
      · exact absurd h (hkept r)
    · rcases cons_iff.mp h' with h' | ⟨-, h'⟩
      · exact absurd h' (hkept r')
      · exact ih h h'

end FirstBroken

/-! ## Steps that decide rules -/

/-- A step fails with the rejection for the first of some rules that is broken, and succeeds if all
are kept. -/
def Decides (fields : Dictionary Json.Value) (rules : List Rule) {α : Type} :
    Except Rejection α → Prop
  | .error r => FirstBroken fields rules r
  | .ok _ => ∀ rule ∈ rules, Keeps fields rule

namespace Decides

variable {α β : Type} {rules rest : List Rule} {x : Except Rejection α}

theorem of_keeps {a : α} (h : Keeps fields rule) : Decides fields [rule] (.ok a) :=
  List.forall_mem_singleton.mpr h

theorem of_breaks (h : Breaks fields rule r) :
    Decides fields [rule] (.error r : Except Rejection α) :=
  FirstBroken.single h

theorem after (h : Decides fields rest x) (rules : List Rule)
    (hkept : ∀ rule ∈ rules, Keeps fields rule) : Decides fields (rules ++ rest) x := by
  cases x with
  | error r => exact FirstBroken.after h rules hkept
  | ok a => exact fun rule hrule => (List.mem_append.mp hrule).elim (hkept rule) (h rule)

theorem bind {f : α → Except Rejection β} (h : Decides fields rules x)
    (hf : ∀ a, x = .ok a → Decides fields rest (f a)) :
    Decides fields (rules ++ rest) (x >>= f) := by
  cases x with
  | error r => exact FirstBroken.append h rest
  | ok a => exact (hf a rfl).after rules h

theorem map (h : Decides fields rules x) (f : α → β) :
    Decides fields rules (x >>= fun a => pure (f a)) := by
  cases x with
  | error r => exact h
  | ok a => exact h

theorem error_iff (h : Decides fields rules x) : x = .error r ↔ FirstBroken fields rules r := by
  cases x with
  | error r' =>
    rw [Except.error.injEq]
    exact ⟨fun heq => heq ▸ h, fun hfirst => FirstBroken.unique h hfirst⟩
  | ok a => exact iff_of_false (by simp) fun hfirst => hfirst.not_forall_keeps h

theorem ok_iff (h : Decides fields rules x) :
    (∃ a, x = .ok a) ↔ ∀ rule ∈ rules, Keeps fields rule := by
  cases x with
  | error r => exact iff_of_false (by simp) (FirstBroken.not_forall_keeps h)
  | ok a => exact iff_of_true ⟨a, rfl⟩ h

end Decides

/-! ## The steps of the reading -/

section Steps

variable {α : Type} {id : String} {rest : List Rule} {x : Except Rejection α}

/-- Required fields are looked for one after the other, and reading goes on if all are there. -/
theorem firstMissing?_decides (hid : field? fields .id = some (.string id))
    (required : List Field)
    (hx : (∀ field ∈ required, field? fields field ≠ none) → Decides fields rest x) :
    Decides fields (required.map .present ++ rest)
      (match firstMissing? fields required with
        | some field => .error (.missing field (some id))
        | none => x) := by
  cases hmissing : firstMissing? fields required with
  | some field =>
    obtain ⟨hnone, before, after, rfl, hbefore⟩ := List.find?_eq_some_iff_append.mp hmissing
    refine FirstBroken.append ⟨before.map .present, .present field, after.map .present, by simp,
      fun earlier hearlier => ?_, .absent hid (Option.isNone_iff_eq_none.mp hnone)⟩ rest
    obtain ⟨there, hthere, rfl⟩ := List.mem_map.mp hearlier
    obtain ⟨v, hv⟩ := Option.isSome_iff_exists.mp (by simpa using hbefore there hthere)
    exact Keeps.present hv
  | none =>
    have hthere : ∀ field ∈ required, field? fields field ≠ none := by
      intro field hfield hnone
      have hnot := List.find?_eq_none.mp hmissing field hfield
      rw [hnone] at hnot
      exact hnot rfl
    refine (hx hthere).after _ fun rule hrule => ?_
    obtain ⟨field, hfield, rfl⟩ := List.mem_map.mp hrule
    obtain ⟨v, hv⟩ := Option.ne_none_iff_exists'.mp (hthere field hfield)
    exact Keeps.present hv

theorem endDefect?_decides (hid : field? fields .id = some (.string id))
    (hx : Decides fields rest x) :
    Decides fields ([.ended, .endedIfOver] ++ rest)
      (match endDefect? fields id with
        | some rejection => .error rejection
        | none => x) := by
  unfold endDefect?
  cases hend : field? fields .endTime with
  | some v => exact hx.after _ (Keeps.of_endTime hend)
  | none =>
    cases hmark : field? fields .inProgress with
    | none => exact (FirstBroken.single (.neverEnding hid hend hmark)).append _
    | some v =>
      have hended := Keeps.ended_of_inProgress hmark
      by_cases hv : v = .string "false"
      · subst hv
        exact ((FirstBroken.single (.overWithoutEnd hid hend hmark)).after [.ended]
          (List.forall_mem_singleton.mpr hended)).append rest
      · have hover := Keeps.endedIfOver_of_inProgress hmark hv
        simp only
        exact hx.after _ (List.forall_mem_cons.mpr ⟨hended, List.forall_mem_singleton.mpr hover⟩)

theorem textField_decides (hid : field? fields .id = some (.string id))
    (hthere : field? fields field ≠ none) :
    Decides fields [.fits field .text] (textField fields id field) := by
  unfold textField
  split
  · next s h => exact .of_keeps (.fits_of_admits h trivial)
  · next v hnot h => exact .of_breaks (.misfit hid h (Form.not_admits_text hnot))
  · next h => exact absurd h hthere

theorem secondsField_decides (hid : field? fields .id = some (.string id))
    (hthere : field? fields field ≠ none) :
    Decides fields [.fits field .seconds] (secondsField fields id field) := by
  unfold secondsField
  split
  · next n h => exact .of_keeps (.fits_of_admits h trivial)
  · next v hnot h => exact .of_breaks (.misfit hid h (Form.not_admits_seconds hnot))
  · next h => exact absurd h hthere

theorem optionalSecondsField_decides (hid : field? fields .id = some (.string id)) :
    Decides fields [.fits field .optionalSeconds] (optionalSecondsField fields id field) := by
  unfold optionalSecondsField
  split
  · next h => exact .of_keeps (.fits_of_none h)
  · next h => exact .of_keeps (.fits_of_admits h trivial)
  · next n h => exact .of_keeps (.fits_of_admits h trivial)
  · next v hnull hnot h =>
    exact .of_breaks (.misfit hid h (Form.not_admits_optionalSeconds hnull hnot))

theorem secondsOf?_of_secondsField {secs : Binary64}
    (h : secondsField fields id field = .ok secs) : secondsOf? fields field = some secs := by
  unfold secondsField at h
  unfold secondsOf?
  split at h <;> simp_all

theorem secondsOf?_of_optionalSecondsField {secs? : Option Binary64}
    (h : optionalSecondsField fields id field = .ok secs?) : secondsOf? fields field = secs? := by
  unfold optionalSecondsField at h
  unfold secondsOf?
  split at h <;> simp_all

theorem ofParts_decides (hid : field? fields .id = some (.string id)) (traceId name : String)
    {start : Binary64} {stop? : Option Binary64}
    (hstart : secondsOf? fields .startTime = some start)
    (hstop : secondsOf? fields .endTime = stop?) :
    Decides fields [.inCalendar .startTime, .inCalendar .endTime]
      (ofParts id traceId name start stop?) := by
  unfold ofParts
  split
  · next hnone =>
    have hbreaks := Breaks.outOfCalendar hid hstart (Timestamp.ofSeconds?_eq_none_iff.mp hnone)
    exact (FirstBroken.single hbreaks).append [.inCalendar .endTime]
  · next t ht =>
    have hstarts := Keeps.inCalendar_of_some hstart ht
    refine Decides.after ?_ [.inCalendar .startTime] (List.forall_mem_singleton.mpr hstarts)
    split
    · exact .of_keeps (.inCalendar_of_none hstop)
    · split
      · next hnone =>
        exact .of_breaks (.outOfCalendar hid hstop (Timestamp.ofSeconds?_eq_none_iff.mp hnone))
      · next t ht => exact .of_keeps (.inCalendar_of_some hstop ht)

theorem ofNamedFields_decides (hid : field? fields .id = some (.string id)) :
    Decides fields (Rule.order.drop 2) (ofNamedFields id fields) := by
  unfold ofNamedFields
  -- every step takes its rules from the front of those that are left
  refine firstMissing?_decides hid [.name, .traceId, .startTime] fun hthere => ?_
  refine endDefect?_decides hid ?_
  refine (textField_decides hid (hthere .name (by simp))).bind fun name _ => ?_
  refine (textField_decides hid (hthere .traceId (by simp))).bind fun traceId _ => ?_
  refine (secondsField_decides hid (hthere .startTime (by simp))).bind fun start hstart => ?_
  refine (optionalSecondsField_decides hid).bind fun stop? hstop => ?_
  exact (ofParts_decides hid traceId name (secondsOf?_of_secondsField hstart)
    (secondsOf?_of_optionalSecondsField hstop)).map _

end Steps

theorem ofFields_decides (fields : Dictionary Json.Value) :
    Decides fields Rule.order (ofFields fields) := by
  unfold ofFields
  split
  · next id hid =>
    refine (ofNamedFields_decides hid).after (Rule.order.take 2) ?_
    exact List.forall_mem_cons.mpr
      ⟨Keeps.identified hid, List.forall_mem_singleton.mpr (Keeps.textualId hid trivial)⟩
  · next v hnot hid =>
    have hbreaks := Breaks.idNotText hid (Form.not_admits_text hnot)
    exact ((FirstBroken.single hbreaks).after [.identified]
      (List.forall_mem_singleton.mpr (Keeps.identified hid))).append (Rule.order.drop 2)
  · next hid => exact (FirstBroken.single (.unidentified hid)).append (Rule.order.drop 1)

end Rules

/-! ## Documents -/

/-- A rejection for a broken rule has the code of that rule, and names the segment exactly if its id
could be read as a text. -/
theorem FirstBroken.told {fields : Dictionary Json.Value} {rules : List Rule} {r : Rejection}
    (h : FirstBroken fields rules r) :
    (∃ rule ∈ rules, Breaks fields rule r ∧ r.code = rule.code) ∧
      ∀ id, r.id? = some id ↔ field? fields .id = some (.string id) := by
  obtain ⟨before, rule, after, rfl, -, hrule⟩ := h
  exact ⟨⟨rule, by simp, hrule, hrule.code_eq⟩, hrule.id?_eq_some_iff⟩

/-- A text that is no object is turned down without an id. An object is turned down exactly for the
first rule that it breaks, with the code of that rule and the id if that is a text, and is accepted
exactly if it breaks none. -/
theorem ofDocument_first_broken (text : String) :
    (∀ fault, Json.read (Json.utf8 text) = .error fault →
      ofDocument text = .error (.unreadable fault) ∧
        (Rejection.unreadable fault).code = .jsonFormatError ∧
        (Rejection.unreadable fault).id? = none) ∧
    (∀ v, Json.read (Json.utf8 text) = .ok v → (∀ fields, v ≠ .object fields) →
      ofDocument text = .error .notObject ∧
        Rejection.notObject.code = .jsonFormatError ∧ Rejection.notObject.id? = none) ∧
    ∀ fields, Json.read (Json.utf8 text) = .ok (.object fields) →
      (∀ r, ofDocument text = .error r ↔ FirstBroken fields Rule.order r) ∧
      ((∃ s, ofDocument text = .ok s) ↔ ∀ rule ∈ Rule.order, Keeps fields rule) ∧
      ∀ r, ofDocument text = .error r →
        (∃ rule ∈ Rule.order, Breaks fields rule r ∧ r.code = rule.code) ∧
        ∀ id, r.id? = some id ↔ field? fields .id = some (.string id) := by
  unfold ofDocument
  refine ⟨fun fault hread => ?_, fun v hread hv => ?_, fun fields hread => ?_⟩
  · rw [hread]
    exact ⟨rfl, rfl, rfl⟩
  · rw [hread]
    cases v with
    | object fields => exact absurd rfl (hv fields)
    | _ => exact ⟨rfl, rfl, rfl⟩
  · rw [hread]
    have hdecides := ofFields_decides fields
    exact ⟨fun r => hdecides.error_iff, hdecides.ok_iff,
      fun r hr => (hdecides.error_iff.mp hr).told⟩

/-- The name is no text and the work has no end, but that there is no trace id counts before. -/
def untracedDocument : String := "\x7b\"id\":\"a\",\"name\":null,\"in_progress\":\"false\"\x7d"

theorem ofDocument_untracedDocument :
    ofDocument untracedDocument = .error (.missing .traceId (some "a")) := by
  have hread : Json.read (Json.utf8 untracedDocument) = .ok (.object (.ofList
      [("id", .string "a"), ("name", .null), ("in_progress", .string "false")])) := by
    with_unfolding_all rfl
  refine (((ofDocument_first_broken untracedDocument).2.2 _ hread).1 _).mpr
    ⟨[.identified, .textualId, .present .name], .present .traceId, _, rfl, ?_, .absent rfl rfl⟩
  exact List.forall_mem_cons.mpr ⟨Keeps.identified rfl, List.forall_mem_cons.mpr
    ⟨Keeps.textualId rfl trivial, List.forall_mem_singleton.mpr (Keeps.present rfl)⟩⟩

end TraceCollector.Segment
