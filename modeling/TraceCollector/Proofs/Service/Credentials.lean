import TraceCollector.Proofs.TextParts
import TraceCollector.Service.Credential

/-!
# The region that a signature names

1. A credential is cut at its slashes and ends at a comma, at a space or with the text. So its third
   part is the last of three texts without these characters, with slashes between them, and one of
   the characters or nothing behind (`getElem?_credential_two`).
2. It is the first credential that counts, since the word that introduces it cannot overlap with
   itself (`credentialRegion?_eq_some_iff`).
3. The signature is the first header of its name, if that is text (`header?_eq_some_iff`,
   `headerText?_eq_some_iff`). So a request has a region exactly if it is signed for one
   (`Request.region?_eq_some_iff`).
-/

namespace TraceCollector.Service

/-! ## Credentials -/

/-- A part of a credential: nothing in it ends a part or the credential. -/
def Component (part : List Char) : Prop := ∀ c ∈ part, c ≠ '/' ∧ c ≠ ',' ∧ c ≠ ' '

instance (part : List Char) : Decidable (Component part) :=
  decidable_of_iff (part.all fun c => c ≠ '/' ∧ c ≠ ',' ∧ c ≠ ' ') <| by
    unfold Component
    simp only [List.all_eq_true, decide_eq_true_iff]

/-- What may stand behind a part: nothing, or first what ends a part or the credential. -/
def EndsComponent (after : List Char) : Prop := ∀ c ∈ after.head?, c = '/' ∨ c = ',' ∨ c = ' '

/-- The text starts with three parts of a credential, of which the third is the region. -/
def StartsScope (text region : List Char) : Prop :=
  ∃ key date after, text = key ++ '/' :: (date ++ '/' :: (region ++ after)) ∧
    Component key ∧ Component date ∧ Component region ∧ EndsComponent after

section Scope

variable {text region part : List Char}

theorem inCredential_iff {c : Char} : (c != ',' && c != ' ') = true ↔ c ≠ ',' ∧ c ≠ ' ' := by
  rw [Bool.and_eq_true, bne_iff_ne, bne_iff_ne]

theorem component_iff : Component part ↔
    (∀ c ∈ part, (c == '/') = false) ∧ ∀ c ∈ part, (c != ',' && c != ' ') = true := by
  unfold Component
  simp only [beq_eq_false_iff_ne, inCredential_iff, ← forall₂_and]

/-- What follows a part up to the end of the credential starts with a slash, if it is not empty. -/
theorem endsComponent_append_iff {inside outside : List Char}
    (hinside : ∀ c ∈ inside, (c != ',' && c != ' ') = true)
    (houtside : ∀ c ∈ outside.head?, (c != ',' && c != ' ') = false) :
    EndsComponent (inside ++ outside) ↔ ∀ c ∈ inside.head?, (c == '/') = true := by
  unfold EndsComponent
  cases inside with
  | nil =>
    have hend : ∀ c ∈ outside.head?, c = '/' ∨ c = ',' ∨ c = ' ' := by
      intro c hc
      by_contra hnot
      rw [not_or, not_or] at hnot
      have hin := inCredential_iff.mpr hnot.2
      rw [houtside c hc] at hin
      cases hin
    exact iff_of_true hend (by simp)
  | cons d inside =>
    have hd := inCredential_iff.mp (hinside d List.mem_cons_self)
    simp [hd]

/-- The third part of the credential that the text starts with. -/
theorem getElem?_credential_two :
    (Text.splitWhere (· == '/') (text.takeWhile fun c => c != ',' && c != ' '))[2]? = some region ↔
      StartsScope text region := by
  constructor
  · intro h
    obtain ⟨credential, outside, rfl, hcredential, houtside⟩ :=
      Text.exists_span (fun c => c != ',' && c != ' ') text
    rw [(Text.takeWhile_append hcredential houtside).1] at h
    obtain ⟨key, c, rest, rfl, hkey, hc, h⟩ := Text.getElem?_splitWhere_succ.mp h
    obtain ⟨date, c', rest', rfl, hdate, hc', h⟩ := Text.getElem?_splitWhere_succ.mp h
    obtain ⟨inside, rfl, hregion, hinside⟩ := Text.getElem?_splitWhere_zero.mp h
    rw [eq_of_beq hc, eq_of_beq hc'] at hcredential ⊢
    simp only [List.forall_mem_append, List.forall_mem_cons] at hcredential
    obtain ⟨hkey', -, hdate', -, hregion', hinside'⟩ := hcredential
    refine ⟨key, date, inside ++ outside, by simp, component_iff.mpr ⟨hkey, hkey'⟩,
      component_iff.mpr ⟨hdate, hdate'⟩, component_iff.mpr ⟨hregion, hregion'⟩, ?_⟩
    exact (endsComponent_append_iff hinside' houtside).mpr hinside
  · rintro ⟨key, date, after, rfl, hkey, hdate, hregion, hafter⟩
    rw [component_iff] at hkey hdate hregion
    -- The credential ends in what follows the region, or with the text.
    obtain ⟨inside, outside, rfl, hinside, houtside⟩ :=
      Text.exists_span (fun c => c != ',' && c != ' ') after
    have hcredential : ∀ c ∈ key ++ '/' :: (date ++ '/' :: (region ++ inside)),
        (c != ',' && c != ' ') = true := by
      simp only [List.forall_mem_append, List.forall_mem_cons]
      exact ⟨hkey.2, rfl, hdate.2, rfl, hregion.2, hinside⟩
    have htext : key ++ '/' :: (date ++ '/' :: (region ++ (inside ++ outside))) =
        key ++ '/' :: (date ++ '/' :: (region ++ inside)) ++ outside := by
      simp
    rw [htext, (Text.takeWhile_append hcredential houtside).1]
    refine Text.getElem?_splitWhere_succ.mpr ⟨key, '/', _, rfl, hkey.1, rfl, ?_⟩
    refine Text.getElem?_splitWhere_succ.mpr ⟨date, '/', _, rfl, hdate.1, rfl, ?_⟩
    exact Text.getElem?_splitWhere_zero.mpr ⟨inside, rfl, hregion.1,
      (endsComponent_append_iff hinside houtside).mp hafter⟩

end Scope

/-! ## Signatures -/

/-- The first credential of the text is one for a region. -/
def NamesRegion (text region : List Char) : Prop :=
  ∃ before scope, text = before ++ ("Credential=".toList ++ scope) ∧
    ¬ "Credential=".toList <:+: before ∧ StartsScope scope region ∧ region ≠ []

theorem afterFirst?_credential_iff {text scope : List Char} :
    Text.afterFirst? "Credential=".toList text = some scope ↔
      ∃ before, text = before ++ ("Credential=".toList ++ scope) ∧
        ¬ "Credential=".toList <:+: before := by
  have honce : 'C' ∉ "redential=".toList := by decide
  exact Text.afterFirst?_eq_some_iff honce

theorem credentialRegion?_eq_some_iff {text region : List Char} :
    credentialRegion? text = some region ↔ NamesRegion text region := by
  unfold credentialRegion? NamesRegion
  simp only [Option.bind_eq_bind, Option.bind_eq_some_iff, afterFirst?_credential_iff,
    getElem?_credential_two]
  constructor
  · rintro ⟨scope, ⟨before, htext, hbefore⟩, found, hscope, h⟩
    split_ifs at h with hempty
    cases h
    exact ⟨before, scope, htext, hbefore, hscope, hempty⟩
  · rintro ⟨before, scope, htext, hbefore, hscope, hempty⟩
    exact ⟨scope, ⟨before, htext, hbefore⟩, region, hscope, if_neg hempty⟩

theorem NamesRegion.unique {text region region' : List Char} (h : NamesRegion text region)
    (h' : NamesRegion text region') : region = region' := by
  rw [← credentialRegion?_eq_some_iff] at h h'
  exact Option.some.inj (h.symm.trans h')

/-- The start of a signature of the fourth version, up to the region of its credential. -/
def signature (key date region : List Char) : List Char :=
  "AWS4-HMAC-SHA256 Credential=".toList ++ (key ++ '/' :: (date ++ '/' :: region))

theorem credentialRegion?_signature {key date region : List Char} (hkey : Component key)
    (hdate : Component date) (hregion : Component region) (rest : List Char) :
    credentialRegion? (signature key date region ++ '/' :: rest) =
      if region = [] then none else some region := by
  have htext : signature key date region ++ '/' :: rest = "AWS4-HMAC-SHA256 ".toList ++
      ("Credential=".toList ++ (key ++ '/' :: (date ++ '/' :: (region ++ '/' :: rest)))) := by
    unfold signature
    simp
  have hscope := getElem?_credential_two.mpr
    ⟨key, date, '/' :: rest, rfl, hkey, hdate, hregion, fun c hc => Or.inl (Option.some.inj hc).symm⟩
  have hbefore : ¬ "Credential=".toList <:+: "AWS4-HMAC-SHA256 ".toList := by decide
  unfold credentialRegion?
  rw [htext, afterFirst?_credential_iff.mpr ⟨_, rfl, hbefore⟩]
  simp [hscope]

/-! ## Headers -/

/-- The bytes are tabs and printing characters of ASCII, and the text is what they are read as. -/
def Spells (value : List UInt8) (text : List Char) : Prop :=
  (∀ b ∈ value, b = 9 ∨ 32 ≤ b ∧ b ≤ 126) ∧ text = value.map fun b => Char.ofNat b.toNat

theorem headerText?_eq_some_iff {value : List UInt8} {text : List Char} :
    headerText? value = some text ↔ Spells value text := by
  unfold headerText? Spells
  have hall : (value.all fun b => b = 9 || (32 ≤ b && b ≤ 126)) = true ↔
      ∀ b ∈ value, b = 9 ∨ 32 ≤ b ∧ b ≤ 126 := by
    simp
  split_ifs with h
  · rw [Option.some.injEq, eq_comm, and_iff_right (hall.mp h)]
  · exact iff_of_false (by simp) fun hspells => h (hall.mpr hspells.1)

namespace Request

/-- The value is that of the first header of the name. -/
def HeaderIs (r : Request) (name : String) (value : List UInt8) : Prop :=
  ∃ before header after, r.headers = before ++ (header, value) :: after ∧
    header.toLower = name ∧ ∀ h ∈ before, h.1.toLower ≠ name

theorem header?_eq_some_iff {r : Request} {name : String} {value : List UInt8} :
    r.header? name = some value ↔ r.HeaderIs name value := by
  unfold header? HeaderIs
  rw [Option.map_eq_some_iff]
  constructor
  · rintro ⟨⟨header, value⟩, hfind, rfl⟩
    obtain ⟨hname, before, after, hheaders, hbefore⟩ := List.find?_eq_some_iff_append.mp hfind
    exact ⟨before, header, after, hheaders, eq_of_beq hname, fun h hh => by simpa using hbefore h hh⟩
  · rintro ⟨before, header, after, hheaders, hname, hbefore⟩
    exact ⟨(header, value), List.find?_eq_some_iff_append.mpr
      ⟨beq_iff_eq.mpr hname, before, after, hheaders, fun h hh => by simpa using hbefore h hh⟩, rfl⟩

/-- The first signature of the request is a text that names the region. -/
def SignedFor (r : Request) (region : List Char) : Prop :=
  ∃ value text, r.HeaderIs "authorization" value ∧ Spells value text ∧ NamesRegion text region

theorem region?_eq_some_iff {r : Request} {region : String} :
    r.region? = some region ↔ r.SignedFor region.toList := by
  unfold region? SignedFor
  simp only [Option.bind_eq_bind, Option.bind_eq_some_iff, Option.pure_def, Option.some.injEq,
    header?_eq_some_iff, headerText?_eq_some_iff, credentialRegion?_eq_some_iff]
  constructor
  · rintro ⟨value, hvalue, text, htext, region, hregion, rfl⟩
    rw [String.toList_ofList]
    exact ⟨value, text, hvalue, htext, hregion⟩
  · rintro ⟨value, text, hvalue, htext, hregion⟩
    exact ⟨value, hvalue, text, htext, region.toList, hregion, String.ofList_toList⟩

theorem region?_eq_map {r : Request} {value : List UInt8} {text : List Char}
    (hvalue : r.HeaderIs "authorization" value) (htext : Spells value text) :
    r.region? = (credentialRegion? text).map .ofList := by
  unfold region?
  rw [header?_eq_some_iff.mpr hvalue, Option.bind_eq_bind, Option.bind_some,
    headerText?_eq_some_iff.mpr htext, Option.bind_eq_bind, Option.bind_some, Option.map_eq_bind]
  rfl

theorem region?_eq_none_iff {r : Request} : r.region? = none ↔ ¬ ∃ region, r.SignedFor region := by
  rw [Option.eq_none_iff_forall_ne_some, not_exists]
  constructor
  · intro h region hsigned
    refine h (.ofList region) (region?_eq_some_iff.mpr ?_)
    rwa [String.toList_ofList]
  · intro h region hregion
    exact h region.toList (region?_eq_some_iff.mp hregion)

/-- A request has a region exactly if its first signature is a text that names it: if, behind the
first `Credential=` of the text, there are three parts with slashes between them, without a slash, a
comma or a space inside, one of these or the end behind, and the third, which is the region, not
empty. A text names one region at most. So a signature made of a key, a date and a region gives back
the region, whatever follows; a request that is signed for no region has none. -/
theorem signedRegion_exact :
    (∀ (r : Request) (region : String), r.region? = some region ↔ r.SignedFor region.toList) ∧
    (∀ r : Request, r.region? = none ↔ ¬ ∃ region, r.SignedFor region) ∧
    (∀ text region region' : List Char, NamesRegion text region → NamesRegion text region' →
      region = region') ∧
    ∀ (r : Request) (value : List UInt8) (key date region service rest : List Char),
      Component key → Component date → Component region →
      r.HeaderIs "authorization" value →
      Spells value (signature key date region ++ '/' :: (service ++ rest)) →
      r.region? = if region = [] then none else some (.ofList region) := by
  refine ⟨fun r region => region?_eq_some_iff, fun r => region?_eq_none_iff,
    fun text region region' h h' => h.unique h', ?_⟩
  intro r value key date region service rest hkey hdate hregion hvalue htext
  rw [region?_eq_map hvalue htext, credentialRegion?_signature hkey hdate hregion (service ++ rest)]
  split_ifs <;> rfl

/-- The first of two signatures counts, and in it the first of two credentials. -/
theorem signedRegion_exact_twice :
    let text := "AWS4-HMAC-SHA256 Credential=AKID/20150830/eu-west-1/xray/aws4_request, " ++
      "Credential=AKID/20150830/us-east-1/xray"
    let value := text.toList.map fun c => UInt8.ofNat c.toNat
    let r : Request := ⟨"POST", "/Traces", [("Host", [120]), ("Authorization", value),
      ("authorization", [66])], []⟩
    r.HeaderIs "authorization" value ∧ Spells value text.toList ∧
      r.region? = some "eu-west-1" := by
  intro text value r
  have hvalue : r.HeaderIs "authorization" value :=
    ⟨[("Host", [120])], "Authorization", [("authorization", [66])], rfl, by decide +kernel,
      by decide +kernel⟩
  have htext : Spells value text.toList := headerText?_eq_some_iff.mp (by decide +kernel)
  have hparts : text.toList = signature "AKID".toList "20150830".toList "eu-west-1".toList ++
      '/' :: ("xray".toList ++
        "/aws4_request, Credential=AKID/20150830/us-east-1/xray".toList) := by
    decide +kernel
  have hregion := signedRegion_exact.2.2.2 r value "AKID".toList "20150830".toList
    "eu-west-1".toList _ _ (by decide) (by decide) (by decide) hvalue (hparts ▸ htext)
  rw [if_neg (by decide), String.ofList_toList] at hregion
  exact ⟨hvalue, htext, hregion⟩

end Request

end TraceCollector.Service
