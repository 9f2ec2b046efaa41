import ContainerScanner.Scanner.Parser

/-!
# The entries of a report

The two nested loops of `parse_report`, with every `continue` in them, are one loop over the
entries they do not skip. Such an entry has an id and a package name, and the loop goes through
all of them unless the severity of one has no `strip`.

## Main definitions

* `Entry`, `resultEntries`, `Entry.finding` — what the loops read, and what they make of it
* `Entry.Readable` — a severity that does not raise

## Main results

* `foldlM_resultStep` — two loops are one
* `foldlM_entryStep_of_readable`, `foldlM_entryStep_of_not_readable` — when it returns, and what
* `parseDocument_dict_eq_ok_iff` — which objects are accepted
-/

namespace ContainerScanner

open Foundation

/-- An object of `Vulnerabilities` with an id and a package name, under the type of its result. -/
structure Entry where
  packageType : String
  members : List (String × Json)
  cveId : CveId
  packageName : String

namespace Entry

/-- What stands under `Severity`. -/
def severity (e : Entry) : Json := Json.get e.members "Severity"

/-- A severity that `parse_severity` does not trip over. -/
def Readable (e : Entry) : Prop := e.severity.truthy = true → ∃ s, e.severity = .str s

/-- The finding of an entry, `UNKNOWN` where its severity cannot be read. -/
def finding (e : Entry) : ParsedFinding where
  cveId := e.cveId
  packageName := e.packageName
  packageVersion := (clean (Json.get e.members "InstalledVersion")).getD "unknown"
  packageType := e.packageType
  severity := (parseSeverity e.severity).toOption.getD .unknown
  fixedVersion := clean (Json.get e.members "FixedVersion")
  title := clean (Json.get e.members "Title")
  description := clean (Json.get e.members "Description")
  publishedAt := parseDatetime (Json.get e.members "PublishedDate")
  lastModifiedAt := parseDatetime (Json.get e.members "LastModifiedDate")

end Entry

/-- The entry of an object with an id and a package name. -/
def entryOf? (packageType : String) : Json → Option Entry
  | .dict members =>
    match clean (Json.get members "VulnerabilityID"), clean (Json.get members "PkgName") with
    | some cveId, some packageName => some ⟨packageType, members, cveId, packageName⟩
    | _, _ => none
  | _ => none

theorem entryOf_dict {packageType cveId packageName : String} {members : List (String × Json)}
    (hid : clean (Json.get members "VulnerabilityID") = some cveId)
    (hname : clean (Json.get members "PkgName") = some packageName) :
    entryOf? packageType (.dict members) = some ⟨packageType, members, cveId, packageName⟩ := by
  rw [entryOf?, hid, hname]

/-- The entries of one result. -/
def resultEntries : Json → List Entry
  | .dict result =>
    match (Json.get result "Vulnerabilities").orElse (.list []) with
    | .list vulnerabilities =>
      vulnerabilities.filterMap (entryOf? ((clean (Json.get result "Type")).getD "unknown"))
    | _ => []
  | _ => []

/-- The entries of a list of results, in the order of the loops. -/
def entriesOf (results : List Json) : List Entry := results.flatMap resultEntries

/-- The body of the one loop. -/
def entryStep (deduped : Deduped) (e : Entry) : Except PyError Deduped :=
  (parseSeverity e.severity).map fun _ => mergeFinding deduped e.finding

/-! ### One loop -/

theorem parseVulnerability_eq (packageType : String) (vulnerability : Json) :
    parseVulnerability packageType vulnerability =
      match entryOf? packageType vulnerability with
      | none => .ok none
      | some e => (parseSeverity e.severity).map fun _ => some e.finding := by
  cases vulnerability with
  | dict members =>
    rw [parseVulnerability, entryOf?]
    cases clean (Json.get members "VulnerabilityID") with
    | none => rfl
    | some cveId =>
      cases clean (Json.get members "PkgName") with
      | none => rfl
      | some packageName =>
        simp only [Entry.severity, Entry.finding]
        cases parseSeverity (Json.get members "Severity") with
        | error e => rfl
        | ok severity => rfl
  | _ => rfl

theorem vulnerabilityStep_eq (packageType : String) (deduped : Deduped) (vulnerability : Json) :
    vulnerabilityStep packageType deduped vulnerability =
      match entryOf? packageType vulnerability with
      | none => .ok deduped
      | some e => entryStep deduped e := by
  rw [vulnerabilityStep, parseVulnerability_eq]
  cases entryOf? packageType vulnerability with
  | none => rfl
  | some e =>
    simp only [entryStep]
    cases parseSeverity e.severity with
    | error err => rfl
    | ok severity => rfl

theorem foldlM_vulnerabilityStep (packageType : String) (vulnerabilities : List Json)
    (deduped : Deduped) :
    vulnerabilities.foldlM (vulnerabilityStep packageType) deduped =
      (vulnerabilities.filterMap (entryOf? packageType)).foldlM entryStep deduped := by
  induction vulnerabilities generalizing deduped with
  | nil => rfl
  | cons vulnerability vulnerabilities ih =>
    rw [List.foldlM_cons, vulnerabilityStep_eq]
    cases hentry : entryOf? packageType vulnerability with
    | none =>
      rw [List.filterMap_cons_none hentry]
      exact ih deduped
    | some e =>
      rw [List.filterMap_cons_some hentry, List.foldlM_cons]
      simp only [ih]

theorem resultStep_eq (deduped : Deduped) (result : Json) :
    resultStep deduped result = (resultEntries result).foldlM entryStep deduped := by
  cases result with
  | dict members =>
    rw [resultStep, resultEntries]
    cases (Json.get members "Vulnerabilities").orElse (.list []) with
    | list vulnerabilities => exact foldlM_vulnerabilityStep _ vulnerabilities deduped
    | _ => rfl
  | _ => rfl

/-- **The two loops are one loop over the entries.** -/
theorem foldlM_resultStep (results : List Json) (deduped : Deduped) :
    results.foldlM resultStep deduped = (entriesOf results).foldlM entryStep deduped := by
  induction results generalizing deduped with
  | nil => rfl
  | cons result results ih =>
    rw [List.foldlM_cons, entriesOf, List.flatMap_cons, List.foldlM_append, resultStep_eq]
    simp only [ih]
    rfl

/-! ### When it returns -/

theorem parseSeverity_eq_ok_iff {raw : Json} :
    (∃ severity, parseSeverity raw = .ok severity) ↔ (raw.truthy = true → ∃ s, raw = .str s) := by
  unfold parseSeverity
  split
  · next htruthy =>
    split
    · next s =>
      exact ⟨fun _ _ => ⟨s, rfl⟩, fun _ => ⟨_, rfl⟩⟩
    · next hnot =>
      constructor
      · rintro ⟨severity, h⟩
        cases h
      · intro h
        obtain ⟨s, hs⟩ := h htruthy
        exact absurd hs (hnot s)
  · next htruthy => exact ⟨fun _ h => absurd h htruthy, fun _ => ⟨_, rfl⟩⟩

theorem parseSeverity_error {raw : Json} {e : PyError} (h : parseSeverity raw = .error e) :
    ∃ message, e = .attributeError message := by
  unfold parseSeverity at h
  split at h
  · split at h
    · cases h
    · cases h
      exact ⟨_, rfl⟩
  · cases h

theorem entryStep_of_readable {e : Entry} (h : e.Readable) (deduped : Deduped) :
    entryStep deduped e = .ok (mergeFinding deduped e.finding) := by
  obtain ⟨severity, hseverity⟩ := parseSeverity_eq_ok_iff.mpr h
  rw [entryStep, hseverity]
  rfl

theorem entryStep_of_not_readable {e : Entry} (h : ¬ e.Readable) (deduped : Deduped) :
    ∃ message, entryStep deduped e = .error (.attributeError message) := by
  cases hseverity : parseSeverity e.severity with
  | ok severity => exact absurd (parseSeverity_eq_ok_iff.mp ⟨severity, hseverity⟩) h
  | error err =>
    obtain ⟨message, rfl⟩ := parseSeverity_error hseverity
    exact ⟨message, by rw [entryStep, hseverity]; rfl⟩

/-- The loop over entries that can all be read. -/
theorem foldlM_entryStep_of_readable {entries : List Entry} (h : ∀ e ∈ entries, e.Readable)
    (deduped : Deduped) :
    entries.foldlM entryStep deduped =
      .ok ((entries.map Entry.finding).foldl mergeFinding deduped) := by
  induction entries generalizing deduped with
  | nil => rfl
  | cons e entries ih =>
    rw [List.foldlM_cons, entryStep_of_readable (h e List.mem_cons_self)]
    exact ih (fun e' he' => h e' (List.mem_cons_of_mem e he')) _

/-- One entry that cannot be read is enough. -/
theorem foldlM_entryStep_of_not_readable {entries : List Entry}
    (h : ¬ ∀ e ∈ entries, e.Readable) (deduped : Deduped) :
    ∃ message, entries.foldlM entryStep deduped = .error (.attributeError message) := by
  induction entries generalizing deduped with
  | nil => exact absurd (by simp) h
  | cons e entries ih =>
    rw [List.foldlM_cons]
    by_cases he : e.Readable
    · rw [entryStep_of_readable he]
      refine ih (fun hall => h fun e' he' => ?_) _
      rcases List.mem_cons.mp he' with rfl | he'
      · exact he
      · exact hall e' he'
    · obtain ⟨message, hmessage⟩ := entryStep_of_not_readable he deduped
      exact ⟨message, by rw [hmessage]; rfl⟩

/-! ### A whole document -/

/-- What is made of an object whose results are a list. -/
def reportOf (document : List (String × Json)) (results : List Json) : ParsedReport where
  digest := extractDigest (dictOrEmpty (Json.get document "Metadata"))
  artifactName := clean (Json.get document "ArtifactName")
  findings := (((entriesOf results).map Entry.finding).foldl mergeFinding Dict.empty).values

variable {document : List (String × Json)} {results : List Json}

theorem parseDocument_of_readable
    (hresults : (Json.get document "Results").orElse (.list []) = .list results)
    (h : ∀ e ∈ entriesOf results, e.Readable) :
    parseDocument (.dict document) = .ok (reportOf document results) := by
  rw [parseDocument, hresults]
  simp only [foldlM_resultStep, foldlM_entryStep_of_readable h]
  rfl

theorem parseDocument_of_not_readable
    (hresults : (Json.get document "Results").orElse (.list []) = .list results)
    (h : ¬ ∀ e ∈ entriesOf results, e.Readable) :
    ∃ message, parseDocument (.dict document) = .error (.attributeError message) := by
  obtain ⟨message, hmessage⟩ := foldlM_entryStep_of_not_readable h Dict.empty
  refine ⟨message, ?_⟩
  rw [parseDocument, hresults]
  simp only [foldlM_resultStep, hmessage]
  rfl

theorem parseDocument_of_not_list
    (hresults : ∀ results, (Json.get document "Results").orElse (.list []) ≠ .list results) :
    parseDocument (.dict document) = .error (.trivyReportError "Trivy Results is not a list") := by
  rw [parseDocument]
  split
  · next results h => exact absurd h (hresults results)
  · rfl

/-- **Which objects are accepted, and as what.** -/
theorem parseDocument_dict_eq_ok_iff {report : ParsedReport} :
    parseDocument (.dict document) = .ok report ↔
      ∃ results, (Json.get document "Results").orElse (.list []) = .list results ∧
        (∀ e ∈ entriesOf results, e.Readable) ∧ report = reportOf document results := by
  constructor
  · intro h
    by_cases hlist : ∃ results, (Json.get document "Results").orElse (.list []) = .list results
    · obtain ⟨results, hresults⟩ := hlist
      refine ⟨results, hresults, ?_⟩
      by_cases hreadable : ∀ e ∈ entriesOf results, e.Readable
      · rw [parseDocument_of_readable hresults hreadable] at h
        exact ⟨hreadable, (Except.ok.inj h).symm⟩
      · obtain ⟨message, hmessage⟩ := parseDocument_of_not_readable hresults hreadable
        rw [hmessage] at h
        cases h
    · rw [parseDocument_of_not_list (not_exists.mp hlist)] at h
      cases h
  · rintro ⟨results, hresults, hreadable, rfl⟩
    exact parseDocument_of_readable hresults hreadable

end ContainerScanner
