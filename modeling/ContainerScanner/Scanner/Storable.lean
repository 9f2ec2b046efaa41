import ContainerScanner.Scanner.CveGuard
import ContainerScanner.Scanner.Statements
import ContainerScanner.Scanner.Worker

/-!
# What the schema can store

PostgreSQL refuses a text that is longer than its column or contains `U+0000`, and the parser asks
for neither. Which documents can be stored is therefore a condition on the texts that are written
from them: every id, name, version and type; and of the other fields only those that deduplication
and `_upsert_cves` let through.

## Main definitions

* `SqlType.Admits`, `Parameter.Storable` — what the database accepts
* `ReportFits`, `DocumentFits` — the texts of a report, and of a document

## Main results

* `reportStorable_iff` — the parameters of a success, by the report
* `documentStorable_iff` — the same, by the document
-/

namespace ContainerScanner

open Foundation

/-- PostgreSQL's text has no `U+0000`. -/
def NulFree (s : String) : Prop := Char.ofNat 0 ∉ s.toList

instance (s : String) : Decidable (NulFree s) := inferInstanceAs (Decidable (¬ _))

/-- The texts a column takes, of those without surrogates, which a `String` does not have. -/
def SqlType.Admits : SqlType → String → Prop
  | .varchar n, s => s.length ≤ n ∧ NulFree s
  | .text, s => NulFree s
  | .other, _ => True

instance (type : SqlType) (s : String) : Decidable (type.Admits s) :=
  match type with
  | .varchar _ => inferInstanceAs (Decidable (_ ∧ _))
  | .text => inferInstanceAs (Decidable (NulFree s))
  | .other => isTrue trivial

/-- The column takes what is bound for it. -/
def Parameter.Storable (p : Parameter) : Prop := ∀ s ∈ p.value, p.column.type.Admits s

/-- The columns whose text comes out of a report. -/
def reportColumns : List (String × String) :=
  [("scan_run", "digest"), ("package", "name"), ("package", "version"), ("package", "type"),
    ("cve", "id"), ("cve", "title"), ("cve", "description"), ("finding", "cve_id"),
    ("finding", "fixed_version")]

def Parameter.FromReport (p : Parameter) : Prop :=
  (p.column.table, p.column.name) ∈ reportColumns

/-- The statement can store whatever it takes out of the report. -/
def Statement.Storable (s : Statement) : Prop := ∀ p ∈ s, p.FromReport → p.Storable

namespace Persist

/-! ### One statement -/

theorem storable_nil : Statement.Storable [] := fun p hp => by cases hp

theorem storable_cons {p : Parameter} {s : Statement} :
    Statement.Storable (p :: s) ↔ (p.FromReport → p.Storable) ∧ s.Storable := by
  rw [Statement.Storable, List.forall_mem_cons]
  exact Iff.rfl

theorem storable_append {s t : Statement} :
    Statement.Storable (s ++ t) ↔ s.Storable ∧ t.Storable := by
  simp only [Statement.Storable, List.forall_mem_append]

theorem storable_flatMap {α : Type} {f : α → Statement} {l : List α} :
    Statement.Storable (l.flatMap f) ↔ ∀ a ∈ l, (f a).Storable := by
  simp only [Statement.Storable, List.mem_flatMap]
  constructor
  · intro h a ha p hp
    exact h p ⟨a, ha, hp⟩
  · rintro h p ⟨a, ha, hp⟩
    exact h a ha p hp

/-- A parameter that is no text. -/
theorem storable_of_none {p : Parameter} (h : p.value = none) : p.Storable := by
  intro s hs
  rw [h] at hs
  cases hs

theorem storable_bindOther (table : String) (names : List String) :
    Statement.Storable (names.map (bindOther table)) := by
  intro p hp _
  obtain ⟨name, -, rfl⟩ := List.mem_map.mp hp
  exact storable_of_none rfl

theorem storable_updateImage (loaded new : Image) : (updateImage loaded new).Storable := by
  have hite : ∀ (p : Prop) [Decidable p] (name : String),
      Statement.Storable (if p then [] else [bindOther "image" name]) := by
    intro p _ name
    split
    · exact storable_nil
    · exact storable_bindOther "image" [name]
  rw [updateImage]
  simp only [storable_append]
  exact ⟨⟨⟨⟨hite _ _, hite _ _⟩, hite _ _⟩, hite _ _⟩, storable_bindOther "image" ["id"]⟩

theorem storable_insertRun (run : ScanRun) :
    (insertRunStatement run).Storable ↔ ∀ d ∈ run.digest, (SqlType.varchar 128).Admits d := by
  simp [insertRunStatement, bindRow, runColumns, columns, storable_cons, storable_nil,
    Parameter.FromReport, reportColumns, Parameter.Storable]

theorem storable_bindPackages {keys : List PackageKey} :
    (bindPackages keys).Storable ↔ ∀ k ∈ keys, (SqlType.varchar 255).Admits k.name ∧
      (SqlType.varchar 255).Admits k.version ∧ (SqlType.varchar 64).Admits k.type := by
  rw [bindPackages, storable_flatMap]
  simp [bindRow, packageColumns, columns, storable_cons, storable_nil, Parameter.FromReport,
    reportColumns, Parameter.Storable]

theorem storable_insertCves {rows : List (CveId × CveValues)} :
    (insertCves rows).Storable ↔ ∀ row ∈ rows, (SqlType.varchar 64).Admits row.1 ∧
      (∀ t ∈ row.2.title, SqlType.text.Admits t) ∧
        ∀ t ∈ row.2.description, SqlType.text.Admits t := by
  rw [insertCves, storable_flatMap]
  simp [bindRow, cveColumns, columns, storable_cons, storable_nil, Parameter.FromReport,
    reportColumns, Parameter.Storable]

theorem storable_insertFindings {rows : List (FindingKey × Finding)} :
    (insertFindings rows).Storable ↔ ∀ row ∈ rows, (SqlType.varchar 64).Admits row.1.cveId ∧
      ∀ v ∈ row.2.fixedVersion, (SqlType.varchar 255).Admits v := by
  rw [insertFindings, storable_flatMap]
  simp [bindRow, findingColumns, columns, storable_cons, storable_nil, Parameter.FromReport,
    reportColumns, Parameter.Storable]

/-! ### All statements -/

/-- The texts of a report that a success writes. -/
structure ReportFits (report : ParsedReport) (digest : Option String) : Prop where
  digest : ∀ d ∈ digest, (SqlType.varchar 128).Admits d
  cveId : ∀ f ∈ report.findings, (SqlType.varchar 64).Admits f.cveId
  package : ∀ f ∈ report.findings, (SqlType.varchar 255).Admits f.packageName ∧
    (SqlType.varchar 255).Admits f.packageVersion ∧ (SqlType.varchar 64).Admits f.packageType
  fixedVersion : ∀ f ∈ report.findings, ∀ v ∈ f.fixedVersion, (SqlType.varchar 255).Admits v
  title : ∀ c ∈ report.cveIds, ∀ t ∈ (offered report c).title, SqlType.text.Admits t
  description : ∀ c ∈ report.cveIds, ∀ t ∈ (offered report c).description, SqlType.text.Admits t

variable {db : Db} {i : ImageId} {image : Image} {job : Option JobId} {report : ParsedReport}
  {metadata : RunMetadata}

theorem forall_mem_unlessEmpty {α : Type} {l : List α} {s t : Statement} :
    (∀ u ∈ unlessEmpty l [s, t], u.Storable) ↔ (l ≠ [] → s.Storable ∧ t.Storable) := by
  simp only [mem_unlessEmpty, List.mem_cons, List.not_mem_nil, or_false]
  constructor
  · intro h hl
    exact ⟨h s ⟨hl, Or.inl rfl⟩, h t ⟨hl, Or.inr rfl⟩⟩
  · rintro h u ⟨hl, rfl | rfl⟩
    · exact (h hl).1
    · exact (h hl).2

theorem forall_mem_unlessEmpty_singleton {α : Type} {l : List α} {s : Statement} :
    (∀ u ∈ unlessEmpty l [s], u.Storable) ↔ (l ≠ [] → s.Storable) := by
  simp only [mem_unlessEmpty, List.mem_singleton]
  constructor
  · intro h hl
    exact h s ⟨hl, rfl⟩
  · rintro h u ⟨hl, rfl⟩
    exact h hl

theorem storable_packages_iff :
    (packageKeys report ≠ [] → (bindPackages (packageKeys report)).Storable) ↔
      ∀ f ∈ report.findings, (SqlType.varchar 255).Admits f.packageName ∧
        (SqlType.varchar 255).Admits f.packageVersion ∧
          (SqlType.varchar 64).Admits f.packageType := by
  rw [storable_bindPackages]
  constructor
  · intro h f hf
    have hmem := packageKey_mem hf
    exact h (List.ne_nil_of_mem hmem) f.packageKey hmem
  · intro h _ k hk
    obtain ⟨f, hf, rfl⟩ := mem_packageKeys.mp hk
    exact h f hf

theorem storable_cves_iff :
    ((cveRows report.findings).entries ≠ [] →
      (insertCves (cveRows report.findings).entries).Storable) ↔
      ∀ c ∈ report.cveIds, (SqlType.varchar 64).Admits c ∧
        (∀ t ∈ (offered report c).title, SqlType.text.Admits t) ∧
          ∀ t ∈ (offered report c).description, SqlType.text.Admits t := by
  rw [storable_insertCves]
  constructor
  · intro h c hc
    have hget : (cveRows report.findings).get? c = some (offered report c) := by
      rw [get?_cveRows, if_pos hc]
    have hmem := Dict.get?_eq_some_iff.mp hget
    exact h (List.ne_nil_of_mem hmem) _ hmem
  · rintro h - ⟨c, values⟩ hrow
    have hget := Dict.get?_eq_some_iff.mpr hrow
    rw [get?_cveRows] at hget
    split at hget
    · next hc =>
      rw [← Option.some.inj hget]
      exact h c hc
    · cases hget

theorem storable_findings_iff :
    (writtenRows db i report ≠ [] → (insertFindings (writtenRows db i report)).Storable) ↔
      ∀ f ∈ report.findings, (SqlType.varchar 64).Admits f.cveId ∧
        ∀ v ∈ f.fixedVersion, (SqlType.varchar 255).Admits v := by
  rw [storable_insertFindings]
  constructor
  · intro h f hf
    obtain ⟨p, hp⟩ := Surrogate.exists_get?_internAll db.package (packageKey_mem hf)
    have hmem : ((⟨i, f.cveId, p⟩ : FindingKey), newFinding db.scanRun.next f) ∈
        writtenRows db i report := mem_writtenRows.mpr ⟨f, hf, p, hp, rfl, rfl⟩
    exact h (List.ne_nil_of_mem hmem) _ hmem
  · rintro h - ⟨key, row⟩ hrow
    obtain ⟨f, hf, p, -, rfl, rfl⟩ := mem_writtenRows.mp hrow
    exact h f hf

/-- **What a success binds can be stored exactly when the texts of its report fit.** -/
theorem reportStorable_iff :
    (∀ s ∈ successStatements db i image job report metadata, s.Storable) ↔
      ReportFits report metadata.digest := by
  have hrun : (newRun i job .success metadata none).digest = metadata.digest := rfl
  simp only [successStatements, List.forall_mem_append, forall_mem_unlessEmpty,
    forall_mem_unlessEmpty_singleton, List.forall_mem_cons, and_self, storable_packages_iff,
    storable_cves_iff, storable_findings_iff, storable_insertRun, hrun]
  constructor
  · rintro ⟨⟨⟨⟨⟨⟨-, hdigest, -⟩, hpackages⟩, hcves⟩, hfindings⟩, -⟩, -⟩
    exact ⟨hdigest, fun f hf => (hfindings f hf).1, hpackages, fun f hf => (hfindings f hf).2,
      fun c hc => (hcves c hc).2.1, fun c hc => (hcves c hc).2.2⟩
  · intro h
    refine ⟨⟨⟨⟨⟨⟨?_, h.digest, by simp⟩, h.package⟩, fun c hc => ?_⟩, fun f hf => ?_⟩, ?_⟩, ?_⟩
    · intro s hs
      obtain ⟨_, -, rfl⟩ := List.mem_map.mp hs
      exact storable_bindOther "finding" ["image_id", "last_seen_run_id"]
    · obtain ⟨f, hf, rfl⟩ := ParsedReport.mem_cveIds.mp hc
      exact ⟨h.cveId f hf, h.title _ hc, h.description _ hc⟩
    · exact ⟨h.cveId f hf, h.fixedVersion f hf⟩
    · exact ⟨storable_bindOther "scan_run" _, storable_updateImage _ _, by simp⟩
    · intro _
      exact storable_cons.mpr ⟨fun _ => storable_of_none rfl, storable_nil⟩

/-! ### By the document -/

/-- The finding is the one kept for its key. -/
def Kept (entries : List ParsedFinding) (f : ParsedFinding) : Prop :=
  KeepBest.IsFirstBest ParsedFinding.key ParsedFinding.rank entries f

/-- Where the key of a finding is first seen. -/
def seenAt (entries : List ParsedFinding) (f : ParsedFinding) : ℕ :=
  KeepBest.seenAt ParsedFinding.key entries f.key

/-- The text is the one of its CVE: that of a finding kept, with nothing there in those of the same
CVE seen before it. -/
def Offers (entries : List ParsedFinding) (field : ParsedFinding → Option String) (t : String) :
    Prop :=
  ∃ f, Kept entries f ∧ field f = some t ∧
    ∀ g, Kept entries g → g.cveId = f.cveId → seenAt entries g < seenAt entries f → field g = none

/-- The texts of a document that a success writes, with the digest that was resolved. -/
structure DocumentFits (document : List (String × Json)) (entries : List ParsedFinding)
    (resolved : String) : Prop where
  digest : (SqlType.varchar 128).Admits
    (((extractDigest (dictOrEmpty (Json.get document "Metadata"))).filter fun d => d ≠ "").getD
      resolved)
  cveId : ∀ f ∈ entries, (SqlType.varchar 64).Admits f.cveId
  package : ∀ f ∈ entries, (SqlType.varchar 255).Admits f.packageName ∧
    (SqlType.varchar 255).Admits f.packageVersion ∧ (SqlType.varchar 64).Admits f.packageType
  fixedVersion : ∀ f, Kept entries f → ∀ v ∈ f.fixedVersion, (SqlType.varchar 255).Admits v
  title : ∀ t, Offers entries ParsedFinding.title t → NulFree t
  description : ∀ t, Offers entries ParsedFinding.description t → NulFree t

section Document

variable {document : List (String × Json)} {results : List Json}

theorem kept_iff_mem (document : List (String × Json)) {f : ParsedFinding} :
    Kept ((entriesOf results).map Entry.finding) f ↔ f ∈ (reportOf document results).findings := by
  rw [findings_reportOf, KeepBest.mem_values_keepAll]
  exact Iff.rfl

/-- The text `_upsert_cves` finds first is the one that is seen first. -/
theorem offers_iff (document : List (String × Json)) {field : ParsedFinding → Option String}
    {t : String} :
    Offers ((entriesOf results).map Entry.finding) field t ↔
      ∃ c ∈ (reportOf document results).cveIds,
        (findingsOf (reportOf document results).findings c).findSome? field = some t := by
  have hordered : ∀ c, (findingsOf (reportOf document results).findings c).Pairwise fun f g =>
      seenAt ((entriesOf results).map Entry.finding) f <
        seenAt ((entriesOf results).map Entry.finding) g := by
    intro c
    have hvalues : (KeepBest.keepAll ParsedFinding.key ParsedFinding.rank
        ((entriesOf results).map Entry.finding)).values.Pairwise fun f g =>
          seenAt ((entriesOf results).map Entry.finding) f <
            seenAt ((entriesOf results).map Entry.finding) g :=
      KeepBest.pairwise_values_keepAll _
    rw [findings_reportOf]
    exact hvalues.filter _
  have hmem : ∀ {c f}, f ∈ findingsOf (reportOf document results).findings c ↔
      Kept ((entriesOf results).map Entry.finding) f ∧ f.cveId = c := by
    intro c f
    rw [findingsOf, List.mem_filter, kept_iff_mem document, decide_eq_true_eq]
  simp only [findSome?_eq_some_iff_of_pairwise (hordered _), hmem, ParsedReport.mem_cveIds]
  constructor
  · rintro ⟨f, hf, ht, hfirst⟩
    refine ⟨f.cveId, ⟨f, (kept_iff_mem document).mp hf, rfl⟩, f, ⟨hf, rfl⟩, ht, ?_⟩
    rintro g ⟨hg, hcve⟩
    exact hfirst g hg hcve
  · rintro ⟨c, -, f, ⟨hf, rfl⟩, ht, hfirst⟩
    exact ⟨f, hf, ht, fun g hg hcve => hfirst g ⟨hg, hcve⟩⟩

theorem scannedDigest_eq (report : ParsedReport) (resolved : String) :
    Worker.scannedDigest report resolved =
      (report.digest.filter fun d => d ≠ "").getD resolved := by
  rw [Worker.scannedDigest]
  cases report.digest with
  | none => rfl
  | some d =>
    by_cases hd : d = ""
    · subst hd
      rfl
    · rw [Option.filter_some, if_pos (decide_eq_true hd)]
      exact if_neg hd

/-- The texts of a report fit exactly when those of its document do. -/
theorem reportFits_iff {resolved : String} :
    ReportFits (reportOf document results)
        (some (Worker.scannedDigest (reportOf document results) resolved)) ↔
      DocumentFits document ((entriesOf results).map Entry.finding) resolved := by
  have hdedup := deduplicated_reportOf document results
  -- the key of every entry is the key of a finding, and the other way about
  have hfinding : ∀ f ∈ (entriesOf results).map Entry.finding,
      ∃ g ∈ (reportOf document results).findings, g.key = f.key := by
    intro f hf
    exact List.mem_map.mp ((hdedup.keys f.key).mpr (List.mem_map_of_mem hf))
  have hentry : ∀ g ∈ (reportOf document results).findings,
      g ∈ (entriesOf results).map Entry.finding := by
    intro g hg
    exact ((kept_iff_mem document).mpr hg).mem
  constructor
  · intro h
    refine ⟨?_, fun f hf => ?_, fun f hf => ?_, fun f hf => ?_, fun t ht => ?_, fun t ht => ?_⟩
    · have hdigest := h.digest _ rfl
      rw [scannedDigest_eq] at hdigest
      exact hdigest
    · obtain ⟨g, hg, hkey⟩ := hfinding f hf
      have hcve : g.cveId = f.cveId := congrArg Prod.fst hkey
      exact hcve ▸ h.cveId g hg
    · obtain ⟨g, hg, hkey⟩ := hfinding f hf
      have hpackage : g.packageKey = f.packageKey := congrArg Prod.snd hkey
      obtain ⟨hname, hversion, htype⟩ := PackageKey.mk.inj hpackage
      rw [← hname, ← hversion, ← htype]
      exact h.package g hg
    · exact h.fixedVersion f ((kept_iff_mem document).mp hf)
    · obtain ⟨c, hc, hoffered⟩ := (offers_iff document).mp ht
      exact h.title c hc t hoffered
    · obtain ⟨c, hc, hoffered⟩ := (offers_iff document).mp ht
      exact h.description c hc t hoffered
  · intro h
    refine ⟨?_, fun f hf => h.cveId f (hentry f hf), fun f hf => h.package f (hentry f hf),
      fun f hf => h.fixedVersion f ((kept_iff_mem document).mpr hf),
      fun c hc t ht => ?_, fun c hc t ht => ?_⟩
    · rintro d hd
      obtain rfl := Option.some.inj hd
      rw [scannedDigest_eq]
      exact h.digest
    · exact h.title t ((offers_iff document).mpr ⟨c, hc, ht⟩)
    · exact h.description t ((offers_iff document).mpr ⟨c, hc, ht⟩)

/-- **What a success writes of an accepted text can be stored exactly when the texts of its document
fit.** -/
theorem documentStorable_iff {loads : String → Except String Json} {raw resolved : String}
    (hloads : loads raw = .ok (.dict document)) (h : parseReport loads raw = .ok report)
    (hdigest : metadata.digest = some (Worker.scannedDigest report resolved)) :
    (∀ s ∈ successStatements db i image job report metadata, s.Storable) ↔
      DocumentFits document ((entriesOf (resultsOf document)).map Entry.finding) resolved := by
  obtain ⟨results, hresults, -, rfl⟩ :=
    parseDocument_dict_eq_ok_iff.mp (parseDocument_of_parseReport hloads h)
  have hresultsOf : resultsOf document = results := by
    rw [resultsOf, hresults]
  rw [reportStorable_iff, hdigest, hresultsOf]
  exact reportFits_iff

end Document

/-- The members of a document of one Debian layer. -/
def debianMembers (entries : List (String × String × String)) : List (String × Json) :=
  [("Results", .list [.dict [("Type", .str "debian"),
    ("Vulnerabilities", .list (entries.map debianEntry))]])]

theorem documentStorable_disputed :
    (∀ s ∈ successStatements (Db.seeded 0 briefImages) 1 (Image.registered 0 ("nginx", "1.19"))
        none (AcceptedReport.debian disputed).report ⟨some "sha256:a", none, none, none, 0, 0⟩,
      s.Storable) ↔
      DocumentFits (debianMembers disputed)
        ((entriesOf (resultsOf (debianMembers disputed))).map Entry.finding) "sha256:a" := by
  have hdigest : some "sha256:a" =
      some (Worker.scannedDigest (AcceptedReport.debian disputed).report "sha256:a") := by
    obtain ⟨results, -, -, hreport⟩ :=
      parseDocument_dict_eq_ok_iff.mp (AcceptedReport.parseDocument_debian disputed)
    rw [hreport]
    rfl
  exact @documentStorable_iff _ _ _ _ _ _ _ (fun _ => .ok (debianDocument disputed)) "document" _
    rfl ((if_neg (by decide)).trans (AcceptedReport.parseDocument_debian disputed)) hdigest

/-- A package name of 256 characters is accepted and cannot be stored. -/
theorem not_storable_unary :
    ¬ ∀ s ∈ successStatements (Db.seeded 0 briefImages) 1 (Image.registered 0 ("nginx", "1.19"))
        none (AcceptedReport.debian [("CVE-2021-3711", unary 255, "HIGH")]).report
        ⟨some "sha256:a", none, none, none, 0, 0⟩, s.Storable := by
  intro h
  have hfits := reportStorable_iff.mp h
  have hdedup := deduplicated_debian [("CVE-2021-3711", unary 255, "HIGH")]
  have hentries : (([("CVE-2021-3711", unary 255, "HIGH")].filterMap fun e =>
      entryOf? "debian" (debianEntry e)).map Entry.finding) = [unaryFinding 255] := by
    rw [List.map_filterMap]
    exact List.filterMap_cons_some (entryOf_unary 255)
  rw [hentries] at hdedup
  obtain ⟨f, hf, hkey⟩ := List.mem_map.mp ((hdedup.keys (unaryFinding 255).key).mpr (by simp))
  have hname : f.packageName = unary 255 :=
    congrArg (fun key : CveId × PackageKey => key.2.name) hkey
  have hlength := (hfits.package f hf).1.1
  rw [hname, length_unary] at hlength
  omega

end Persist

end ContainerScanner
