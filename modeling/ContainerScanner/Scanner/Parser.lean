import ContainerScanner.Domain.Models
import ContainerScanner.Foundation.PyValue

/-!
# Trivy JSON to domain objects

`app/scanner/parser.py`, function by function. `json.loads` is a parameter of `parseReport`: a
decoder that answers with a document or with the text of its `JSONDecodeError`. Everything after
it, the two nested loops with their `continue`s included, is `parseDocument`.

## Main definitions

* `parseDocument`, `parseReport` — one `trivy image --format json` document
* `AcceptedReport` — a report that `parse_report` returned

## Main results

* `parseDocument_nodup` — the findings of a report have distinct keys
* `AcceptedReport.keys_nodup`, `AcceptedReport.eq_of_key_eq` — the same, of an accepted report
-/

namespace ContainerScanner

open Foundation

/-- The exceptions that can leave this module. -/
inductive PyError where
  | trivyReportError (message : String)
  | attributeError (message : String)
  deriving DecidableEq, Repr

/-- A vulnerability of one package, as Trivy reported it. -/
structure ParsedFinding where
  cveId : CveId
  packageName : String
  packageVersion : String
  packageType : String
  severity : Severity
  fixedVersion : Option String
  title : Option String
  description : Option String
  publishedAt : Option Timestamp
  lastModifiedAt : Option Timestamp
  deriving DecidableEq, Repr

namespace ParsedFinding

/-- The package the finding is about. -/
def packageKey (f : ParsedFinding) : PackageKey :=
  ⟨f.packageName, f.packageVersion, f.packageType⟩

/-- Matches the `uq_finding_img_cve_pkg` uniqueness grain. -/
def key (f : ParsedFinding) : CveId × PackageKey := (f.cveId, f.packageKey)

end ParsedFinding

/-- What one document says. -/
structure ParsedReport where
  digest : Option String
  artifactName : Option String
  findings : List ParsedFinding
  deriving DecidableEq, Repr

namespace ParsedReport

/-- The CVEs a report names. -/
def cveIds (r : ParsedReport) : List CveId := r.findings.map ParsedFinding.cveId

theorem mem_cveIds {r : ParsedReport} {c : CveId} :
    c ∈ r.cveIds ↔ ∃ f ∈ r.findings, f.cveId = c := List.mem_map

end ParsedReport

/-! ### Fields -/

/-- Map a Trivy severity string onto the enum. A value that is neither empty nor a string has no
`strip`. -/
def parseSeverity (raw : Json) : Except PyError Severity :=
  if raw.truthy then
    match raw with
    | .str s => .ok ((Severity.ofValue? (PyStr.upper (PyStr.strip s))).getD .unknown)
    | _ => .error (.attributeError ("'" ++ raw.typeName ++ "' object has no attribute 'strip'"))
  else .ok .unknown

/-- RFC 3339, with the zero time for "unknown". -/
def parseDatetime : Json → Option Timestamp
  | .str s =>
    if s = "" then none
    else
      match IsoDatetime.parse (PyStr.replaceChar s 'Z' "+00:00".toList) with
      | none => none
      | some parsed => if parsed.inYearOne then none else some parsed.toInstant
  | _ => none

/-- The first `RepoDigests` entry with an `@`. -/
def repoDigest : List Json → Option String
  | [] => none
  | .str entry :: rest =>
    if '@' ∈ entry.toList then some (PyStr.afterFirst entry '@') else repoDigest rest
  | _ :: rest => repoDigest rest

/-- Prefer the repo digest; `ImageID` is only a fallback. -/
def extractDigest (metadata : List (String × Json)) : Option String :=
  let repoDigests :=
    match (Json.get metadata "RepoDigests").orElse (.list []) with
    | .list entries => repoDigest entries
    | _ => none
  match repoDigests with
  | some digest => some digest
  | none =>
    match Json.get metadata "ImageID" with
    | .str imageId => if imageId = "" then none else some imageId
    | _ => none

/-- A stripped string, `None` when it is blank or not a string. -/
def clean : Json → Option String
  | .str s => if PyStr.strip s = "" then none else some (PyStr.strip s)
  | _ => none

/-! ### The loops -/

/-- The findings so far, by key, in order of first sight. -/
abbrev Deduped : Type := Dict (CveId × PackageKey) ParsedFinding

/-- One entry of `Vulnerabilities`; `none` where the loop says `continue`. -/
def parseVulnerability (packageType : String) : Json → Except PyError (Option ParsedFinding)
  | .dict vulnerability =>
    match clean (Json.get vulnerability "VulnerabilityID"),
      clean (Json.get vulnerability "PkgName") with
    | some cveId, some packageName => do
      let severity ← parseSeverity (Json.get vulnerability "Severity")
      return some {
        cveId
        packageName
        packageVersion := (clean (Json.get vulnerability "InstalledVersion")).getD "unknown"
        packageType
        severity
        fixedVersion := clean (Json.get vulnerability "FixedVersion")
        title := clean (Json.get vulnerability "Title")
        description := clean (Json.get vulnerability "Description")
        publishedAt := parseDatetime (Json.get vulnerability "PublishedDate")
        lastModifiedAt := parseDatetime (Json.get vulnerability "LastModifiedDate") }
    -- without both there is no key for the finding
    | _, _ => .ok none
  | _ => .ok none

/-- Keep the highest severity of a key; the first of equals wins. -/
def mergeFinding (deduped : Deduped) (finding : ParsedFinding) : Deduped :=
  match deduped.get? finding.key with
  | none => deduped.set finding.key finding
  | some existing =>
    if existing.severity.rank < finding.severity.rank then deduped.set finding.key finding
    else deduped

/-- The body of the inner loop. -/
def vulnerabilityStep (packageType : String) (deduped : Deduped) (vulnerability : Json) :
    Except PyError Deduped := do
  match ← parseVulnerability packageType vulnerability with
  | none => return deduped
  | some finding => return mergeFinding deduped finding

/-- The body of the outer loop. -/
def resultStep (deduped : Deduped) : Json → Except PyError Deduped
  | .dict result =>
    match (Json.get result "Vulnerabilities").orElse (.list []) with
    | .list vulnerabilities =>
      vulnerabilities.foldlM
        (vulnerabilityStep ((clean (Json.get result "Type")).getD "unknown")) deduped
    | _ => .ok deduped
  | _ => .ok deduped

/-- `value if isinstance(value, dict) else {}`. -/
def dictOrEmpty : Json → List (String × Json)
  | .dict members => members
  | _ => []

/-- `parse_report` once the text is decoded. -/
def parseDocument : Json → Except PyError ParsedReport
  | .dict document =>
    match (Json.get document "Results").orElse (.list []) with
    | .list results => do
      let deduped ← results.foldlM resultStep Dict.empty
      return {
        digest := extractDigest (dictOrEmpty (Json.get document "Metadata"))
        artifactName := clean (Json.get document "ArtifactName")
        findings := deduped.values }
    | _ => .error (.trivyReportError "Trivy Results is not a list")
  | _ => .error (.trivyReportError "Trivy output is not a JSON object")

/-- Parse one document, with `loads` for `json.loads`. -/
def parseReport (loads : String → Except String Json) (raw : String) :
    Except PyError ParsedReport :=
  if PyStr.strip raw = "" then .error (.trivyReportError "Trivy produced no output")
  else
    match loads raw with
    | .error exc => .error (.trivyReportError ("Trivy output is not valid JSON: " ++ exc))
    | .ok document => parseDocument document

/-! ### Distinct keys -/

/-- Every finding is stored under its own key. -/
def Deduped.Keyed (deduped : Deduped) : Prop :=
  ∀ e ∈ deduped.entries, e.2.key = e.1

theorem keyed_set {deduped : Deduped} (h : deduped.Keyed) (finding : ParsedFinding) :
    Deduped.Keyed (deduped.set finding.key finding) := by
  rintro ⟨k, f⟩ he
  have hget := Dict.get?_eq_some_iff.mpr he
  rw [Dict.get?_set] at hget
  split at hget
  · next hk =>
    rw [← Option.some.inj hget]
    exact hk.symm
  · exact h _ (Dict.get?_eq_some_iff.mp hget)

theorem keyed_mergeFinding {deduped : Deduped} (h : deduped.Keyed) (finding : ParsedFinding) :
    Deduped.Keyed (mergeFinding deduped finding) := by
  rw [mergeFinding]
  split
  · exact keyed_set h finding
  · split
    · exact keyed_set h finding
    · exact h

theorem keyed_vulnerabilityStep {packageType : String} {deduped deduped' : Deduped}
    {vulnerability : Json} (h : deduped.Keyed)
    (hstep : vulnerabilityStep packageType deduped vulnerability = .ok deduped') :
    deduped'.Keyed := by
  rw [vulnerabilityStep] at hstep
  cases hv : parseVulnerability packageType vulnerability with
  | error e => rw [hv] at hstep; cases hstep
  | ok found =>
    rw [hv] at hstep
    cases found with
    | none => cases hstep; exact h
    | some finding => cases hstep; exact keyed_mergeFinding h finding

/-- A property that each round of a fallible loop keeps holds of what the loop returns. -/
theorem foldlM_ok_induction {ε σ α : Type} {step : σ → α → Except ε σ} {P : σ → Prop}
    (hstep : ∀ s a s', P s → step s a = .ok s' → P s') {l : List α} {s s' : σ} (hs : P s)
    (h : l.foldlM step s = .ok s') : P s' := by
  induction l generalizing s with
  | nil => cases h; exact hs
  | cons a l ih =>
    rw [List.foldlM_cons] at h
    cases ha : step s a with
    | error e => rw [ha] at h; cases h
    | ok t =>
      rw [ha] at h
      exact ih (hstep s a t hs ha) h

theorem keyed_resultStep {deduped deduped' : Deduped} {result : Json} (h : deduped.Keyed)
    (hstep : resultStep deduped result = .ok deduped') : deduped'.Keyed := by
  unfold resultStep at hstep
  split at hstep
  · split at hstep
    · exact foldlM_ok_induction (fun _ _ _ hs hr => keyed_vulnerabilityStep hs hr) h hstep
    · cases hstep; exact h
  · cases hstep; exact h

theorem map_key_values {deduped : Deduped} (h : deduped.Keyed) :
    deduped.values.map ParsedFinding.key = deduped.keys := by
  rw [Dict.values, Dict.keys, List.map_map]
  exact List.map_congr_left fun e he => h e he

/-- **The findings of a report have distinct keys.** -/
theorem parseDocument_nodup {document : Json} {report : ParsedReport}
    (h : parseDocument document = .ok report) :
    (report.findings.map ParsedFinding.key).Nodup := by
  unfold parseDocument at h
  split at h
  · split at h
    · next results _ =>
      cases hloop : results.foldlM resultStep (Dict.empty : Deduped) with
      | error e => rw [hloop] at h; cases h
      | ok deduped =>
        rw [hloop] at h
        cases h
        have hkeyed : deduped.Keyed :=
          foldlM_ok_induction (fun _ _ _ hs hr => keyed_resultStep hs hr)
            (by intro e he; simp at he) hloop
        show (deduped.values.map ParsedFinding.key).Nodup
        rw [map_key_values hkeyed]
        exact deduped.nodup_keys
    · cases h
  · cases h

/-! ### Accepted reports -/

/-- A report that `parse_report` returned for some text. -/
structure AcceptedReport where
  /-- The report. -/
  report : ParsedReport
  /-- Some text was parsed into it. -/
  accepted : ∃ loads raw, parseReport loads raw = .ok report

namespace AcceptedReport

/-- The report of a decoded document. -/
def ofDocument (document : Json) (report : ParsedReport)
    (h : parseDocument document = .ok report) : AcceptedReport :=
  ⟨report, fun _ => .ok document, "document", by
    have hraw : ¬ PyStr.strip "document" = "" := by decide
    rw [parseReport, if_neg hraw]
    exact h⟩

theorem keys_nodup (r : AcceptedReport) : (r.report.findings.map ParsedFinding.key).Nodup := by
  obtain ⟨loads, raw, h⟩ := r.accepted
  unfold parseReport at h
  split at h
  · cases h
  · split at h
    · cases h
    · exact parseDocument_nodup h

/-- Two findings of a report with the same key are the same finding. -/
theorem eq_of_key_eq (r : AcceptedReport) {f g : ParsedFinding} (hf : f ∈ r.report.findings)
    (hg : g ∈ r.report.findings) (h : f.key = g.key) : f = g :=
  List.inj_on_of_nodup_map r.keys_nodup hf hg h

end AcceptedReport

/-! ### Documents of one layer -/

/-- A vulnerability of a Debian package: its id, the package and the severity. -/
def debianEntry (e : String × String × String) : Json :=
  .dict [("VulnerabilityID", .str e.1), ("PkgName", .str e.2.1),
    ("InstalledVersion", .str "1.1.1"), ("Severity", .str e.2.2)]

/-- What Trivy writes for an image with one Debian layer. -/
def debianDocument (entries : List (String × String × String)) : Json :=
  .dict [("Results", .list [.dict [("Type", .str "debian"),
    ("Vulnerabilities", .list (entries.map debianEntry))]])]

theorem parseSeverity_str (s : String) : ∃ severity, parseSeverity (.str s) = .ok severity := by
  rw [parseSeverity]
  split
  · exact ⟨_, rfl⟩
  · exact ⟨_, rfl⟩

/-- A loop whose every round succeeds succeeds. -/
theorem exists_foldlM_ok {ε σ α : Type} {step : σ → α → Except ε σ} {l : List α}
    (hstep : ∀ s, ∀ a ∈ l, ∃ s', step s a = .ok s') (s : σ) : ∃ s', l.foldlM step s = .ok s' := by
  induction l generalizing s with
  | nil => exact ⟨s, rfl⟩
  | cons a l ih =>
    obtain ⟨t, ht⟩ := hstep s a List.mem_cons_self
    obtain ⟨s', hs'⟩ := ih (fun s a ha => hstep s a (List.mem_cons_of_mem _ ha)) t
    refine ⟨s', ?_⟩
    rw [List.foldlM_cons, ht]
    exact hs'

theorem exists_vulnerabilityStep_debianEntry (packageType : String) (deduped : Deduped)
    (e : String × String × String) :
    ∃ deduped', vulnerabilityStep packageType deduped (debianEntry e) = .ok deduped' := by
  obtain ⟨severity, hseverity⟩ := parseSeverity_str e.2.2
  have hget : Json.get [("VulnerabilityID", .str e.1), ("PkgName", .str e.2.1),
      ("InstalledVersion", .str "1.1.1"), ("Severity", .str e.2.2)] "Severity" = .str e.2.2 := by
    rfl
  rw [vulnerabilityStep, debianEntry, parseVulnerability]
  split
  · rw [hget, hseverity]
    exact ⟨_, rfl⟩
  · exact ⟨_, rfl⟩

/-- Such a document is accepted, whatever it lists. -/
theorem exists_parseDocument_debianDocument (entries : List (String × String × String)) :
    ∃ report, parseDocument (debianDocument entries) = .ok report := by
  have hvulnerabilities : (Json.list (entries.map debianEntry)).orElse (.list [])
      = .list (entries.map debianEntry) := by
    cases entries <;> rfl
  have hresult : ∃ deduped, resultStep Dict.empty (.dict [("Type", .str "debian"),
      ("Vulnerabilities", .list (entries.map debianEntry))]) = .ok deduped := by
    have hget : Json.get [("Type", .str "debian"),
        ("Vulnerabilities", .list (entries.map debianEntry))] "Vulnerabilities"
        = .list (entries.map debianEntry) := rfl
    rw [resultStep, hget, hvulnerabilities]
    refine exists_foldlM_ok (fun s a ha => ?_) _
    obtain ⟨e, -, rfl⟩ := List.mem_map.mp ha
    exact exists_vulnerabilityStep_debianEntry _ s e
  obtain ⟨deduped, hdeduped⟩ := hresult
  have hget : (Json.get [("Results", Json.list [.dict [("Type", .str "debian"),
      ("Vulnerabilities", .list (entries.map debianEntry))]])] "Results").orElse (.list [])
      = .list [.dict [("Type", .str "debian"),
          ("Vulnerabilities", .list (entries.map debianEntry))]] := rfl
  rw [debianDocument, parseDocument, hget]
  simp only [List.foldlM_cons, hdeduped]
  exact ⟨_, rfl⟩

/-- The accepted report of such a document. -/
def AcceptedReport.debian (entries : List (String × String × String)) : AcceptedReport :=
  match h : parseDocument (debianDocument entries) with
  | .ok report => .ofDocument (debianDocument entries) report h
  | .error _ => False.elim (by
      obtain ⟨report, hreport⟩ := exists_parseDocument_debianDocument entries
      rw [hreport] at h
      cases h)

theorem AcceptedReport.parseDocument_debian (entries : List (String × String × String)) :
    parseDocument (debianDocument entries) = .ok (AcceptedReport.debian entries).report := by
  rw [AcceptedReport.debian]
  split
  · next report h => exact h
  · next error h =>
    obtain ⟨report, hreport⟩ := exists_parseDocument_debianDocument entries
    rw [hreport] at h
    cases h

/-- What Trivy writes about where an image came from. -/
def repoMetadata (digest : String) : List (String × Json) :=
  [("RepoDigests", .list [.str ("debian@" ++ digest)])]

theorem extractDigest_repoMetadata (digest : String) :
    extractDigest (repoMetadata digest) = some digest := by
  have hmem : '@' ∈ ("debian@" ++ digest).toList := by
    rw [String.toList_append]
    exact List.mem_append_left _ (by decide)
  have hafter : PyStr.afterFirst ("debian@" ++ digest) '@' = digest := by
    rw [PyStr.afterFirst, String.toList_append]
    exact String.ofList_toList
  show (match repoDigest [.str ("debian@" ++ digest)] with
    | some found => some found
    | none => _) = some digest
  rw [repoDigest, if_pos hmem, hafter]

theorem get_cons_of_ne {key other : String} (h : other ≠ key) (value : Json)
    (members : List (String × Json)) :
    Json.get ((key, value) :: members) other = Json.get members other := by
  have hne : (other == key) = false := beq_false_of_ne h
  rw [Json.get, List.lookup_cons, hne]
  rfl

/-- Where the image came from decides the digest and nothing else. -/
theorem parseDocument_metadata {members metadata : List (String × Json)} {report : ParsedReport}
    (h : parseDocument (.dict members) = .ok report) :
    parseDocument (.dict (("Metadata", .dict metadata) :: members)) =
      .ok { report with digest := extractDigest metadata } := by
  have hresults : Json.get (("Metadata", .dict metadata) :: members) "Results" =
      Json.get members "Results" := get_cons_of_ne (by decide) _ _
  have hname : Json.get (("Metadata", .dict metadata) :: members) "ArtifactName" =
      Json.get members "ArtifactName" := get_cons_of_ne (by decide) _ _
  have hmetadata : Json.get (("Metadata", .dict metadata) :: members) "Metadata" =
      .dict metadata := rfl
  rw [parseDocument, hresults, hname, hmetadata]
  rw [parseDocument] at h
  split at h
  · next results _ =>
    cases hloop : results.foldlM resultStep (Dict.empty : Deduped) with
    | error e =>
      rw [hloop] at h
      cases h
    | ok deduped =>
      rw [hloop] at h
      cases h
      rfl
  · cases h

/-- The accepted report of such an image with its digest. -/
def AcceptedReport.debianImage (digest : String) (entries : List (String × String × String)) :
    AcceptedReport :=
  .ofDocument
    (.dict (("Metadata", .dict (repoMetadata digest)) ::
      [("Results", .list [.dict [("Type", .str "debian"),
        ("Vulnerabilities", .list (entries.map debianEntry))]])]))
    { (AcceptedReport.debian entries).report with digest := some digest } (by
      rw [← extractDigest_repoMetadata digest]
      exact parseDocument_metadata (AcceptedReport.parseDocument_debian entries))

end ContainerScanner
