import TraceCollector.Proofs.ConfigurationLayers

/-!
# Checks of a configuration

An environment has a configuration if five checks are met: the file that it names can be read, holds
the text of a configuration, the completion rule is known, there are regions, and the default region
is one of them.

1. The first two are made before the variables are looked at (`base_cases`), so a fault in the file
   stays whatever they are (`base_of_unparsable`).
2. If all are met, the variables lie over the file and the defaults; otherwise the first that fails
   tells the defect (`ofEnvironment_cases`).
-/

namespace TraceCollector.Configuration

/-! ## Checks -/

/-- What is checked on the way to a configuration. -/
inductive Check where
  /-- There is a file where one is named, and it holds a text. -/
  | readable
  /-- The text is one of a configuration. -/
  | parsable
  /-- The variable for the completion rule names a rule. -/
  | knownRule
  | someRegions
  /-- The default region is one of the regions. -/
  | listedDefault

namespace Check

/-- In this order. -/
def order : List Check := [readable, parsable, knownRule, someRegions, listedDefault]

end Check

/-- The kinds of defects that are told apart at the start. -/
inductive Defect.Kind where
  | io
  | parse
  | invalid
deriving DecidableEq

def Defect.kind : Defect → Kind
  | fileNotFound | fileNotText => .io
  | unparsable _ => .parse
  | unknownCompletion _ | noRegions | defaultRegionUnlisted _ => .invalid

def Check.kind : Check → Defect.Kind
  | readable => .io
  | parsable => .parse
  | knownRule | someRegions | listedDefault => .invalid

section Environments

variable (env : Environment) (files : String → Option (List UInt8))

/-- The layer of the file that the environment names; without one there is nothing in it. -/
inductive FileLayer : Layer → Prop where
  | unset (h : env fileVariable = none) : FileLayer .empty
  | file {path text : String} {l : Layer} (hpath : env fileVariable = some path)
    (hfile : files path = some (Json.utf8 text)) (hl : IsWritten l (Json.utf8 text)) :
    FileLayer l

/-- The variables over the file over the defaults. -/
def layered (l : Layer) : Configuration := (Layer.ofVariables env).above (l.above standard)

/-- The check is met. -/
def Meets : Check → Prop
  | .readable => ∀ path, env fileVariable = some path →
      ∃ text, files path = some (Json.utf8 text)
  | .parsable => ∀ path text, env fileVariable = some path →
      files path = some (Json.utf8 text) → ∃ v, codec.shape.read (Json.utf8 text) = .ok v
  | .knownRule => ∀ name, env completionVariable = some name → ∃ rule, Names name rule
  | .someRegions => ∀ l, FileLayer env files l → (layered env l).regions ≠ []
  | .listedDefault => ∀ l, FileLayer env files l →
      (layered env l).defaultRegion ∈ (layered env l).regions

/-- The check fails, which is told with a defect. -/
inductive Fails : Check → Defect → Prop where
  | missing {path : String} (hpath : env fileVariable = some path) (h : files path = none) :
    Fails .readable .fileNotFound
  | notText {path : String} {content : List UInt8} (hpath : env fileVariable = some path)
    (hfile : files path = some content) (h : ∀ text, content ≠ Json.utf8 text) :
    Fails .readable .fileNotText
  | faulty {path text : String} {fault : Json.Fault} (hpath : env fileVariable = some path)
    (hfile : files path = some (Json.utf8 text))
    (h : codec.shape.read (Json.utf8 text) = .error fault) : Fails .parsable (.unparsable fault)
  | unknown {name : String} (hname : env completionVariable = some name)
    (h : ∀ rule, ¬ Names name rule) : Fails .knownRule (.unknownCompletion name)
  | noRegions {l : Layer} (hl : FileLayer env files l) (h : (layered env l).regions = []) :
    Fails .someRegions .noRegions
  | unlisted {l : Layer} (hl : FileLayer env files l)
    (h : (layered env l).defaultRegion ∉ (layered env l).regions) :
    Fails .listedDefault (.defaultRegionUnlisted (layered env l).defaultRegion)

variable {env files}

theorem Fails.not_meets {check : Check} {defect : Defect} (h : Fails env files check defect) :
    ¬ Meets env files check ∧ defect.kind = check.kind := by
  cases h with
  | @missing path hpath h =>
    refine ⟨fun hmeets => ?_, rfl⟩
    obtain ⟨text, hfile⟩ := hmeets path hpath
    cases h.symm.trans hfile
  | @notText path content hpath hfile h =>
    refine ⟨fun hmeets => ?_, rfl⟩
    obtain ⟨text, hfile'⟩ := hmeets path hpath
    cases hfile.symm.trans hfile'
    exact h text rfl
  | faulty hpath hfile h =>
    refine ⟨fun hmeets => ?_, rfl⟩
    obtain ⟨v, hv⟩ := hmeets _ _ hpath hfile
    cases h.symm.trans hv
  | unknown hname h =>
    refine ⟨fun hmeets => ?_, rfl⟩
    obtain ⟨rule, hrule⟩ := hmeets _ hname
    exact h rule hrule
  | noRegions hl h => exact ⟨fun hmeets => hmeets _ hl h, rfl⟩
  | unlisted hl h => exact ⟨fun hmeets => h (hmeets _ hl), rfl⟩

theorem FileLayer.unique {l l' : Layer} (h : FileLayer env files l) (h' : FileLayer env files l') :
    l = l' := by
  cases h with
  | unset h =>
    cases h' with
    | unset => rfl
    | file hpath => cases h.symm.trans hpath
  | file hpath hfile hl =>
    cases h' with
    | unset h' => cases hpath.symm.trans h'
    | file hpath' hfile' hl' =>
      cases hpath.symm.trans hpath'
      rw [Option.some.inj (hfile.symm.trans hfile')] at hl
      exact hl.unique hl'

/-- The configuration before the variables are looked at. -/
def base (env : Environment) (files : String → Option (List UInt8)) :
    Except Defect Configuration :=
  match env fileVariable with
  | some path => ofFile (files path)
  | none => .ok standard

theorem ofEnvironment_eq (env : Environment) (files : String → Option (List UInt8)) :
    ofEnvironment env files =
      (base env files >>= fun c => c.withOverrides env) >>= fun c =>
        c.validate >>= fun _ => .ok c := by
  unfold ofEnvironment base
  cases env fileVariable with
  | none => rfl
  | some path =>
    dsimp only
    cases ofFile (files path) <;> rfl

/-- The first two checks decide what there is before the variables are looked at. -/
theorem base_cases (env : Environment) (files : String → Option (List UInt8)) :
    (∃ defect, Fails env files .readable defect ∧ base env files = .error defect) ∨
    (Meets env files .readable ∧ ∃ fault, Fails env files .parsable (.unparsable fault) ∧
      base env files = .error (.unparsable fault)) ∨
    (Meets env files .readable ∧ Meets env files .parsable ∧
      ∃ l, FileLayer env files l ∧ base env files = .ok (l.above standard)) := by
  unfold base
  cases hpath : env fileVariable with
  | none =>
    refine Or.inr (Or.inr ⟨fun path h => ?_, fun path text h => ?_, .empty, .unset hpath, rfl⟩)
    · cases hpath.symm.trans h
    · cases hpath.symm.trans h
  | some path =>
    dsimp only
    cases hfile : files path with
    | none => exact Or.inl ⟨_, .missing hpath hfile, rfl⟩
    | some content =>
      by_cases htext : ∃ text, content = Json.utf8 text
      · obtain ⟨text, rfl⟩ := htext
        have hreadable : Meets env files .readable := by
          intro path' hpath'
          cases hpath.symm.trans hpath'
          exact ⟨text, hfile⟩
        rcases ofFile_text text with ⟨l, hl, hofFile⟩ | ⟨fault, hfault, hofFile⟩
        · refine Or.inr (Or.inr ⟨hreadable, fun path' text' hpath' hfile' => ?_, l,
            .file hpath hfile hl, hofFile⟩)
          cases hpath.symm.trans hpath'
          rw [← Option.some.inj (hfile.symm.trans hfile')]
          obtain ⟨members, hread, -⟩ := hl
          exact ⟨_, hread⟩
        · exact Or.inr (Or.inl ⟨hreadable, fault, .faulty hpath hfile hfault, hofFile⟩)
      · rw [not_exists] at htext
        refine Or.inl ⟨_, .notText hpath hfile htext, ?_⟩
        have hnot : ¬ ByteArray.validateUTF8 ⟨content.toArray⟩ = true := fun h => by
          obtain ⟨text, htext'⟩ := validateUTF8_iff.mp h
          exact htext text htext'
        exact if_neg hnot

/-- The defect is told by the first of the checks that fails. -/
def FirstFails (env : Environment) (files : String → Option (List UInt8)) (defect : Defect) :
    Prop :=
  ∃ before check after, Check.order = before ++ check :: after ∧
    (∀ earlier ∈ before, Meets env files earlier) ∧ Fails env files check defect

theorem ofEnvironment_of_base_error {defect : Defect} (h : base env files = .error defect) :
    ofEnvironment env files = .error defect := by
  rw [ofEnvironment_eq, h]
  rfl

theorem ofEnvironment_of_base {l : Layer} (h : base env files = .ok (l.above standard))
    (hrule : Meets env files .knownRule) :
    ofEnvironment env files =
      (layered env l).validate >>= fun _ => .ok (layered env l) := by
  rw [ofEnvironment_eq, h]
  show ((l.above standard).withOverrides env >>= _) = _
  rw [withOverrides_of_names hrule]
  rfl

/-- Either all checks are met and the variables lie over the file and the defaults, or the first
check that fails tells the defect. -/
theorem ofEnvironment_cases (env : Environment) (files : String → Option (List UInt8)) :
    (∃ l, FileLayer env files l ∧ (∀ check, Meets env files check) ∧
      ofEnvironment env files = .ok (layered env l)) ∨
    ∃ defect, FirstFails env files defect ∧ ofEnvironment env files = .error defect := by
  rcases base_cases env files with ⟨defect, hfails, hbase⟩ | ⟨hreadable, fault, hfails, hbase⟩ |
    ⟨hreadable, hparsable, l, hl, hbase⟩
  · exact Or.inr ⟨defect, ⟨[], .readable, _, rfl, by simp, hfails⟩,
      ofEnvironment_of_base_error hbase⟩
  · exact Or.inr ⟨_, ⟨[.readable], .parsable, _, rfl, by simpa using hreadable, hfails⟩,
      ofEnvironment_of_base_error hbase⟩
  by_cases hrule : Meets env files .knownRule
  · rw [ofEnvironment_of_base hbase hrule, validate]
    by_cases hregions : (layered env l).regions = []
    · refine Or.inr ⟨_, ⟨[.readable, .parsable, .knownRule], .someRegions, _, rfl, ?_,
        .noRegions hl hregions⟩, ?_⟩
      · simpa using ⟨hreadable, hparsable, hrule⟩
      · rw [if_pos hregions]
        rfl
    have hsome : Meets env files .someRegions := fun l' hl' => by rwa [hl'.unique hl]
    rw [if_neg hregions]
    by_cases hdefault : (layered env l).defaultRegion ∈ (layered env l).regions
    · have hlisted : Meets env files .listedDefault := fun l' hl' => by rwa [hl'.unique hl]
      refine Or.inl ⟨l, hl, fun check => ?_, ?_⟩
      · cases check <;> assumption
      · rw [if_pos hdefault]
        rfl
    · refine Or.inr ⟨_, ⟨[.readable, .parsable, .knownRule, .someRegions], .listedDefault, _, rfl,
        ?_, .unlisted hl hdefault⟩, ?_⟩
      · simpa using ⟨hreadable, hparsable, hrule, hsome⟩
      · rw [if_neg hdefault]
        rfl
  · have hunknown := hrule
    unfold Meets at hunknown
    simp only [not_forall, not_exists] at hunknown
    obtain ⟨name, hname, hnot⟩ := hunknown
    refine Or.inr ⟨_, ⟨[.readable, .parsable], .knownRule, _, rfl, ?_, .unknown hname hnot⟩, ?_⟩
    · simpa using ⟨hreadable, hparsable⟩
    · rw [ofEnvironment_eq, hbase]
      show ((l.above standard).withOverrides env >>= _) = _
      rw [withOverrides_of_not_names hname hnot]
      rfl

/-- A fault in the file is found whatever the other variables are. -/
theorem base_of_unparsable {fault : Json.Fault}
    (h : ofEnvironment env files = .error (.unparsable fault)) :
    base env files = .error (.unparsable fault) := by
  rcases base_cases env files with ⟨defect, hfails, hbase⟩ | ⟨-, fault', -, hbase⟩ |
    ⟨-, hparsable, -⟩
  · cases (ofEnvironment_of_base_error hbase).symm.trans h
    cases hfails
  · cases (ofEnvironment_of_base_error hbase).symm.trans h
    exact hbase
  · -- The defect tells the check that failed, which is one of the two on the file.
    rcases ofEnvironment_cases env files with ⟨l, -, -, hok⟩ | ⟨defect, hfirst, herror⟩
    · cases hok.symm.trans h
    · cases herror.symm.trans h
      obtain ⟨-, check, -, -, -, hfails⟩ := hfirst
      have hcheck : check = .parsable := by
        cases hfails
        rfl
      rw [hcheck] at hfails
      exact absurd hparsable hfails.not_meets.1

end Environments

/-! ## Configurations of an environment -/

/-- There is a configuration if and only if all checks are met, and then each of its fields is the
one of the variable, or else the one of the file, or else the default. Otherwise the first check
that fails tells the defect and its kind. A fault in the file stays whatever the other variables
are, and applying the variables twice is applying them once. -/
theorem ofEnvironment_layered (env : Environment) (files : String → Option (List UInt8)) :
    ((∃ c, ofEnvironment env files = .ok c) ↔ ∀ check, Meets env files check) ∧
    (∀ c, ofEnvironment env files = .ok c → ∃ l, FileLayer env files l ∧
      c.bindAddress = (env bindAddressVariable).getD
        (l.bindAddress?.getD standard.bindAddress) ∧
      c.defaultRegion = (env defaultRegionVariable).getD
        (l.defaultRegion?.getD standard.defaultRegion) ∧
      c.regions = ((env regionsVariable).map regionList).getD
        (l.regions?.getD standard.regions) ∧
      (∀ name, env completionVariable = some name → Names name c.completion) ∧
      (env completionVariable = none →
        c.completion = l.completion?.getD standard.completion)) ∧
    (∀ defect, ofEnvironment env files = .error defect →
      ∃ before check after, Check.order = before ++ check :: after ∧
        (∀ earlier ∈ before, Meets env files earlier) ∧ ¬ Meets env files check ∧
        Fails env files check defect ∧ defect.kind = check.kind) ∧
    (∀ (env' : Environment) fault, env' fileVariable = env fileVariable →
      ofEnvironment env files = .error (.unparsable fault) →
      ofEnvironment env' files = .error (.unparsable fault)) ∧
    ∀ c : Configuration,
      (c.withOverrides env >>= fun c => c.withOverrides env) = c.withOverrides env := by
  refine ⟨?_, fun c hc => ?_, fun defect hdefect => ?_, fun env' fault hfile hfault => ?_,
    withOverrides_twice env⟩
  · rcases ofEnvironment_cases env files with ⟨l, -, hmeets, hok⟩ | ⟨defect, hfirst, herror⟩
    · exact iff_of_true ⟨_, hok⟩ hmeets
    · obtain ⟨-, check, -, -, -, hfails⟩ := hfirst
      refine iff_of_false ?_ fun hmeets => hfails.not_meets.1 (hmeets check)
      rintro ⟨c, hc⟩
      cases herror.symm.trans hc
  · rcases ofEnvironment_cases env files with ⟨l, hl, hmeets, hok⟩ | ⟨defect, -, herror⟩
    · cases hok.symm.trans hc
      refine ⟨l, hl, rfl, rfl, rfl, fun name hname => ?_, fun hnone => ?_⟩
      · obtain ⟨rule, hrule⟩ := hmeets .knownRule name hname
        have hcompletion : (layered env l).completion = rule := by
          unfold layered Layer.above Layer.ofVariables
          rw [hname, Option.bind_some, completionNamed?_eq_some_iff.mpr hrule]
          rfl
        rwa [hcompletion]
      · unfold layered Layer.above Layer.ofVariables
        rw [hnone]
        rfl
    · cases herror.symm.trans hc
  · rcases ofEnvironment_cases env files with ⟨l, -, -, hok⟩ | ⟨found, hfirst, herror⟩
    · cases hok.symm.trans hdefect
    · cases herror.symm.trans hdefect
      obtain ⟨before, check, after, horder, hbefore, hfails⟩ := hfirst
      exact ⟨before, check, after, horder, hbefore, hfails.not_meets.1, hfails,
        hfails.not_meets.2⟩
  · have hbase := base_of_unparsable hfault
    refine ofEnvironment_of_base_error ?_
    unfold base at hbase ⊢
    rw [hfile]
    exact hbase

/-- Some variables of an environment. -/
def partialEnvironment : Environment := fun name =>
  [(fileVariable, "service.json"), (regionsVariable, " b , ,c"),
    (completionVariable, " all_segments\n")].lookup name

/-- A default region, and regions of which the variable takes the place. -/
def partialFile : String :=
  "\x7b\"default_region\":\"b\",\"regions\":[\"a\"]\x7d"

/-- The default region of the file is one of the regions of the variable. A file that breaks off is
not rescued, neither by these variables nor by others. -/
theorem ofEnvironment_layered_partialFile :
    let files (text path : String) : Option (List UInt8) :=
      if path = "service.json" then some (Json.utf8 text) else none
    ofEnvironment partialEnvironment (files partialFile) =
        .ok ⟨"0.0.0.0:8000", "b", ["b", "c"], .allSegments⟩ ∧
      (∀ check, Meets partialEnvironment (files partialFile) check) ∧
      Names " all_segments\n" .allSegments ∧
      ∃ fault, ofEnvironment partialEnvironment (files "\x7b") = .error (.unparsable fault) ∧
        ofEnvironment (fun _ => some "service.json") (files "\x7b") =
          .error (.unparsable fault) := by
  intro files
  have hok : ofEnvironment partialEnvironment (files partialFile) =
      .ok ⟨"0.0.0.0:8000", "b", ["b", "c"], .allSegments⟩ := by
    have hsome : (ofEnvironment partialEnvironment (files partialFile)).toOption =
        some ⟨"0.0.0.0:8000", "b", ["b", "c"], .allSegments⟩ := by decide +kernel
    cases hcases : ofEnvironment partialEnvironment (files partialFile) with
    | error => rw [hcases] at hsome; cases hsome
    | ok c => rw [hcases] at hsome; cases hsome; rfl
  obtain ⟨hmeets, hfields, -⟩ := ofEnvironment_layered partialEnvironment (files partialFile)
  obtain ⟨l, -, -, -, -, hname, -⟩ := hfields _ hok
  refine ⟨hok, hmeets.mp ⟨_, hok⟩, hname _ rfl, ?_⟩
  rcases ofFile_text "\x7b" with ⟨l, ⟨members, hread, -⟩, -⟩ | ⟨fault, -, hfile⟩
  · have hnot : (codec.shape.read (Json.utf8 "\x7b")).toBool = false := by decide +kernel
    rw [hread] at hnot
    cases hnot
  · have hbroken : ofEnvironment partialEnvironment (files "\x7b") =
        .error (.unparsable fault) := ofEnvironment_of_base_error hfile
    obtain ⟨-, -, -, hrescue, -⟩ := ofEnvironment_layered partialEnvironment (files "\x7b")
    exact ⟨fault, hbroken, hrescue _ fault rfl hbroken⟩

end TraceCollector.Configuration
