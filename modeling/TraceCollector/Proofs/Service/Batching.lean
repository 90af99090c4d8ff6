import TraceCollector.Proofs.Service.Batches

/-!
# Splitting into batches

How entries are split into batches makes no difference, but for the order of the records.

1. The records of a batch are those of its entries, the ones for entries that are no documents in
   front. So the records of all batches of a run are those of all its entries, in an order that the
   splitting decides (`perm_flatMap_unprocessedOf`), and in the order of the entries if all are
   documents (`flatMap_unprocessedOf`).
2. A run of batches leaves in its region what one batch of all entries leaves
   (`State.sameAt_after_of_postsBatches`).
3. States with the same regions answer alike from there on (`State.exchanges_congr`).
-/

namespace TraceCollector.Service

/-! ## Records -/

/-- A sound document leaves no record. -/
theorem unprocessedOf_cons_of_segment {entry : Json.Value} {s : Segment}
    (h : segmentOf? entry = some s) (rest : List Json.Value) :
    recordOf? entry = none ∧ unprocessedOf (entry :: rest) = unprocessedOf rest := by
  rcases entry_cases entry with ⟨hdocument, -, hnone⟩ | ⟨-, hnone, -⟩ | ⟨-, hnone, -⟩
  · unfold recordOf? unprocessedOf
    rw [hdocument, if_pos rfl, List.countP_cons, hdocument, List.filterMap_cons_none hnone]
    exact ⟨hnone, rfl⟩
  · rw [h] at hnone
    cases hnone
  · rw [h] at hnone
    cases hnone

/-- The records of a batch are those of its entries. -/
theorem perm_unprocessedOf (entries : List Json.Value) :
    (unprocessedOf entries).Perm (entries.filterMap recordOf?) := by
  induction entries with
  | nil => exact List.Perm.refl _
  | cons entry rest ih =>
    cases hsegment : segmentOf? entry with
    | some s =>
      obtain ⟨hnone, hrest⟩ := unprocessedOf_cons_of_segment hsegment rest
      rw [hrest, List.filterMap_cons_none hnone]
      exact ih
    | none =>
      obtain ⟨-, left, record, right, hrecord, hwith, hwithout⟩ :=
        exists_split_unprocessed hsegment [] rest
      rw [List.nil_append] at hwith hwithout
      rw [hwith, List.filterMap_cons_some hrecord]
      rw [hwithout] at ih
      exact List.perm_middle.trans (ih.cons record)

/-- A batch of documents has its records in the order of the entries. -/
theorem unprocessedOf_of_documents {entries : List Json.Value}
    (h : ∀ entry ∈ entries, isDocument entry = true) :
    unprocessedOf entries = entries.filterMap recordOf? := by
  have hnone : entries.countP (fun e => !isDocument e) = 0 := by
    rw [List.countP_eq_zero]
    intro entry hentry
    rw [h entry hentry]
    exact Bool.false_ne_true
  unfold unprocessedOf
  rw [hnone, List.replicate_zero, List.nil_append]
  refine List.filterMap_congr fun entry hentry => ?_
  unfold recordOf?
  rw [if_pos (h entry hentry)]

theorem perm_flatMap_unprocessedOf (batches : List (List Json.Value)) :
    (batches.flatMap unprocessedOf).Perm (batches.flatten.filterMap recordOf?) := by
  rw [List.filterMap_flatten]
  exact List.Perm.flatMap_left batches fun entries _ => perm_unprocessedOf entries

theorem flatMap_unprocessedOf {batches : List (List Json.Value)}
    (h : ∀ entry ∈ batches.flatten, isDocument entry = true) :
    batches.flatMap unprocessedOf = batches.flatten.filterMap recordOf? := by
  rw [List.filterMap_flatten, ← List.flatMap_def]
  refine List.flatMap_congr fun entries hentries => ?_
  refine unprocessedOf_of_documents fun entry hentry => ?_
  exact h entry (List.mem_flatten_of_mem hentries hentry)

/-! ## Runs of batches -/

namespace State

/-- The run posts the batches to the region of a name, one with each request. -/
def PostsBatches (s : State) (name : String) (run : List (Request × Int))
    (batches : List (List Json.Value)) : Prop :=
  List.Forall₂ (fun e entries => s.goesTo name e.1 = true ∧ e.1.PostsBatch entries) run batches

/-- The response tells that the batch was taken in, and lists the records of its entries. -/
def Accounts (e : Request × Response) (entries : List Json.Value) : Prop :=
  e.2.status = 200 ∧ e.2.body = (unprocessedBody (unprocessedOf entries)).text

section Runs

variable {s : State} {name : String} {region : Region} {run : List (Request × Int)}
  {batches : List (List Json.Value)}

theorem PostsBatches.handle (h : s.PostsBatches name run batches) (r : Request) (now : Int) :
    (s.handle r now).2.PostsBatches name run batches := by
  unfold PostsBatches goesTo at h ⊢
  simp only [regionName_handle]
  exact h

/-- A region that is put in twice is the one put in last. -/
theorem sameAt_setRegion (first last : Region) (other : String) :
    SameAt other ((s.setRegion name first).setRegion name last) (s.setRegion name last) := by
  refine ⟨?_, rfl⟩
  show ((s.regions.insert name first).insert name last).get? other =
    (s.regions.insert name last).get? other
  simp only [Dictionary.get?_insert]
  by_cases hother : other = name
  · rw [if_pos hother, if_pos hother]
  · rw [if_neg hother, if_neg hother, if_neg hother]

/-- Putting in a region that is there changes nothing. -/
theorem sameAt_setRegion_self (h : s.regions.get? name = some region) (other : String) :
    SameAt other s (s.setRegion name region) := by
  refine ⟨?_, rfl⟩
  show s.regions.get? other = (s.regions.insert name region).get? other
  rw [Dictionary.get?_insert]
  by_cases hother : other = name
  · rw [if_pos hother, hother, h]
  · rw [if_neg hother]

/-- Batches that are posted to a region leave there what one batch of all their entries leaves, and
each is answered with its records. -/
theorem sameAt_after_of_postsBatches (hregion : s.regions.get? name = some region)
    (h : s.PostsBatches name run batches) :
    (∀ other, SameAt other (s.after run) (s.setRegion name
      { region with traces := region.traces.putAll (segmentsOf batches.flatten) })) ∧
    List.Forall₂ Accounts (s.exchanges run) batches := by
  induction run generalizing s region batches with
  | nil =>
    cases h
    exact ⟨sameAt_setRegion_self hregion, List.Forall₂.nil⟩
  | cons e rest ih =>
    obtain ⟨r, now⟩ := e
    cases h with
    | @cons _ entries _ batches hfirst hrest =>
    obtain ⟨hname, hbatch⟩ := hfirst
    have hname : s.regionName r = name := goesTo_iff.mp hname
    have hfound : s.region r = .ok region := by
      refine region_of_get? ?_
      rw [hname]
      exact hregion
    obtain ⟨hstatus, hbody, hstate⟩ := handle_of_postsBatch hbatch hfound now
    rw [hname] at hstate
    have hnext := (changesAt_setRegion
      { region with traces := region.traces.putAll (segmentsOf entries) } hregion).after
    have hrest := PostsBatches.handle hrest r now
    rw [hstate] at hrest
    obtain ⟨hsame, hanswers⟩ := ih hnext hrest
    rw [after_cons, exchanges, hstate, List.flatten_cons, segmentsOf_append,
      TraceStore.putAll_append]
    exact ⟨fun other => (hsame other).trans (sameAt_setRegion _ _ other),
      List.Forall₂.cons ⟨hstatus, hbody⟩ hanswers⟩

end Runs

/-- States with the same regions answer every run alike. -/
theorem exchanges_congr {s t : State} (h : ∀ name, SameAt name s t) (run : List (Request × Int)) :
    s.exchanges run = t.exchanges run := by
  induction run generalizing s t with
  | nil => rfl
  | cons e rest ih =>
    obtain ⟨r, now⟩ := e
    obtain ⟨hresponse, hsame⟩ := handle_congr (h (s.regionName r)) (fun _ => rfl) now
    have hnext : ∀ name, SameAt name (s.handle r now).2 (t.handle r now).2 := by
      intro name
      by_cases hname : s.regionName r = name
      · rw [← hname]
        exact hsame
      · have hother : t.regionName r ≠ name := by
          rw [← (h name).regionName_eq]
          exact hname
        exact (sameAt_handle now fun _ => hname).trans
          ((h name).trans (sameAt_handle now fun _ => hother).symm)
    rw [exchanges, exchanges, hresponse, ih hnext]

/-- Two runs that post the same entries to a region, split into batches at any points, leave the
same traces there, the ones of all segments put in one after the other, and are followed by the same
responses to all later requests. Every batch is answered with its records. Those of the two runs are
the same up to their order, and also in their order if all entries are documents. -/
theorem batching_irrelevant {s : State} {name : String} {region : Region}
    (hregion : s.regions.get? name = some region) {run run' : List (Request × Int)}
    {batches batches' : List (List Json.Value)} (hrun : s.PostsBatches name run batches)
    (hrun' : s.PostsBatches name run' batches') (hentries : batches.flatten = batches'.flatten) :
    (∃ region', (s.after run).regions.get? name = some region' ∧
      (s.after run').regions.get? name = some region' ∧
      region'.traces = (segmentsOf batches.flatten).foldl TraceStore.put region.traces) ∧
    (∀ later later' : List (Request × Int), later.map Prod.fst = later'.map Prod.fst →
      List.Forall₂ ExchangesAgree ((s.after run).exchanges later)
        ((s.after run').exchanges later')) ∧
    List.Forall₂ Accounts (s.exchanges run) batches ∧
    List.Forall₂ Accounts (s.exchanges run') batches' ∧
    (batches.flatMap unprocessedOf).Perm (batches'.flatMap unprocessedOf) ∧
    ((∀ entry ∈ batches.flatten, isDocument entry = true) →
      batches.flatMap unprocessedOf = batches'.flatMap unprocessedOf) := by
  obtain ⟨hafter, hanswers⟩ := sameAt_after_of_postsBatches hregion hrun
  obtain ⟨hafter', hanswers'⟩ := sameAt_after_of_postsBatches hregion hrun'
  rw [← hentries] at hafter'
  have hsame : ∀ other, SameAt other (s.after run) (s.after run') := fun other =>
    (hafter other).trans (hafter' other).symm
  refine ⟨?_, fun later later' htimes => ?_, hanswers, hanswers', ?_, fun hdocuments => ?_⟩
  · have hlast := (changesAt_setRegion { region with
      traces := region.traces.putAll (segmentsOf batches.flatten) } hregion).after
    exact ⟨_, (hafter name).region.trans hlast, (hafter' name).region.trans hlast, rfl⟩
  · rw [exchanges_congr hsame]
    exact (exchanges_of_times (s.after run') htimes).1
  · refine (perm_flatMap_unprocessedOf batches).trans ?_
    rw [hentries]
    exact (perm_flatMap_unprocessedOf batches').symm
  · rw [flatMap_unprocessedOf hdocuments, hentries, flatMap_unprocessedOf]
    rwa [← hentries]

/-- A batch of entries as they are written. -/
def writtenBatch (entries : String) : Request :=
  signedRequest "eu-west-1" "/TraceSegments" <|
    "\x7b\"TraceSegmentDocuments\":[" ++ entries ++ "]\x7d"

/-- A text that breaks off and a number, in one batch and in two with an empty one between them: the
records change places. -/
theorem batching_irrelevant_twoEntries :
    let s := State.ofConfiguration .standard
    let entries : List Json.Value := [.string "\x7boops", .integer 7]
    let run := [(writtenBatch "\"\x7boops\",7", 0)]
    let run' := [(writtenBatch "\"\x7boops\"", 0), (writtenBatch "", 0), (writtenBatch "7", 0)]
    let record : RejectionRecord :=
      ⟨none, .jsonFormatError, "Bad JSON data: key must be a string at line 1 column 2"⟩
    s.PostsBatches "eu-west-1" run [entries] ∧
      s.PostsBatches "eu-west-1" run' [entries.take 1, [], entries.drop 1] ∧
      [entries].flatMap unprocessedOf = [strangerRecord, record] ∧
      [entries.take 1, [], entries.drop 1].flatMap unprocessedOf = [record, strangerRecord] ∧
      ([entries].flatMap unprocessedOf).Perm
        ([entries.take 1, [], entries.drop 1].flatMap unprocessedOf) ∧
      ∃ region, (s.after run).regions.get? "eu-west-1" = some region ∧
        (s.after run').regions.get? "eu-west-1" = some region := by
  intro s entries run run' record
  have hregion : s.regions.get? "eu-west-1" = some (.empty .lastSegment "eu-west-1") :=
    (get?_ofRegions _ _ _ _).trans (if_pos (by decide))
  have hrun : s.PostsBatches "eu-west-1" run [entries] :=
    .cons ⟨by decide +kernel, rfl, by decide +kernel, by with_unfolding_all rfl⟩ .nil
  have hrun' : s.PostsBatches "eu-west-1" run' [entries.take 1, [], entries.drop 1] :=
    .cons ⟨by decide +kernel, rfl, by decide +kernel, by with_unfolding_all rfl⟩ <|
      .cons ⟨by decide +kernel, rfl, by decide +kernel, by with_unfolding_all rfl⟩ <|
        .cons ⟨by decide +kernel, rfl, by decide +kernel, by with_unfolding_all rfl⟩ .nil
  obtain ⟨⟨region', hget, hget', -⟩, -, -, -, hperm, -⟩ :=
    batching_irrelevant hregion hrun hrun' rfl
  exact ⟨hrun, hrun', by decide +kernel, by decide +kernel, hperm, region', hget, hget'⟩

end State

end TraceCollector.Service
