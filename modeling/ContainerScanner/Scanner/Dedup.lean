import ContainerScanner.Foundation.KeepBest
import ContainerScanner.Scanner.Acceptance

/-!
# What deduplication keeps

The findings of a report are, key by key, the first of the entries with the highest severity. The
order in which Trivy lists its results and their vulnerabilities decides which of equals that is,
and the order of the findings; it decides neither which keys there are nor how severe each is.

## Main definitions

* `Deduplicated` — what a list of findings has to do with the entries it comes from
* `ReorderedResult`, `Reordered` — results with their vulnerabilities, and the results themselves,
  in another order

## Main results

* `deduplicated_reportOf` — what the loop keeps
* `parseReport_deduplicates` — of every accepted text, and of any other order of its results
-/

namespace ContainerScanner

open Foundation

/-- How severe a finding is. -/
def ParsedFinding.rank (f : ParsedFinding) : ℕ := f.severity.rank

theorem mergeFinding_eq_keep :
    mergeFinding = KeepBest.keep ParsedFinding.key ParsedFinding.rank := by
  funext deduped finding
  rw [mergeFinding, KeepBest.keep]
  cases deduped.get? finding.key with
  | none => rfl
  | some existing =>
    show (if existing.rank < finding.rank then _ else _) =
      if existing.rank < finding.rank then _ else _
    congr

theorem findings_reportOf (document : List (String × Json)) (results : List Json) :
    (reportOf document results).findings =
      (KeepBest.keepAll ParsedFinding.key ParsedFinding.rank
        ((entriesOf results).map Entry.finding)).values := by
  rw [reportOf, mergeFinding_eq_keep]
  rfl

/-- One finding for each key of the entries: the first of those with the highest severity. -/
structure Deduplicated (entries findings : List ParsedFinding) : Prop where
  nodup : (findings.map ParsedFinding.key).Nodup
  keys : ∀ k, k ∈ findings.map ParsedFinding.key ↔ k ∈ entries.map ParsedFinding.key
  /-- The entry stands behind lower ones of its key and before none that is higher. -/
  first : ∀ f ∈ findings, ∃ before after, entries = before ++ f :: after ∧
    (∀ g ∈ before, g.key = f.key → g.severity.rank < f.severity.rank) ∧
      ∀ g ∈ after, g.key = f.key → g.severity.rank ≤ f.severity.rank

theorem deduplicated_reportOf (document : List (String × Json)) (results : List Json) :
    Deduplicated ((entriesOf results).map Entry.finding) (reportOf document results).findings where
  nodup := by
    rw [findings_reportOf, KeepBest.map_key_values_keepAll]
    exact Dict.nodup_keys _
  keys := by
    intro k
    rw [findings_reportOf, KeepBest.map_key_values_keepAll, KeepBest.mem_keys_keepAll]
  first := by
    intro f hf
    rw [findings_reportOf] at hf
    exact KeepBest.mem_values_keepAll.mp hf

/-- Entries of distinct keys are all kept. -/
theorem Deduplicated.length_eq {entries findings : List ParsedFinding}
    (h : Deduplicated entries findings) (hnodup : (entries.map ParsedFinding.key).Nodup) :
    findings.length = entries.length := by
  have hperm : (findings.map ParsedFinding.key).Perm (entries.map ParsedFinding.key) :=
    (List.perm_ext_iff_of_nodup h.nodup hnodup).mpr h.keys
  have hlength := hperm.length_eq
  rwa [List.length_map, List.length_map] at hlength

/-! ### Another order -/

/-- A result with its vulnerabilities in another order. -/
inductive ReorderedResult : Json → Json → Prop
  | same (result : Json) : ReorderedResult result result
  | vulnerabilities {result result' : List (String × Json)} {listed listed' : List Json} :
    Json.get result "Vulnerabilities" = .list listed →
    Json.get result' "Vulnerabilities" = .list listed' → listed.Perm listed' →
    Json.get result' "Type" = Json.get result "Type" →
    ReorderedResult (.dict result) (.dict result')

/-- Results in another order, each with its vulnerabilities in another order. -/
def Reordered (results results' : List Json) : Prop :=
  ∃ between, List.Forall₂ ReorderedResult results between ∧ between.Perm results'

theorem resultEntries_dict {result : List (String × Json)} {listed : List Json}
    (h : Json.get result "Vulnerabilities" = .list listed) :
    resultEntries (.dict result) =
      listed.filterMap (entryOf? ((clean (Json.get result "Type")).getD "unknown")) := by
  rw [resultEntries, h, orElse_list]

theorem ReorderedResult.perm {result result' : Json} (h : ReorderedResult result result') :
    (resultEntries result).Perm (resultEntries result') := by
  cases h with
  | same => exact List.Perm.refl _
  | vulnerabilities h h' hperm htype =>
    rw [resultEntries_dict h, resultEntries_dict h', htype]
    exact hperm.filterMap _

theorem Reordered.perm {results results' : List Json} (h : Reordered results results') :
    (entriesOf results).Perm (entriesOf results') := by
  obtain ⟨between, hresults, hperm⟩ := h
  refine List.Perm.trans ?_ (hperm.flatMap_right resultEntries)
  clear hperm
  induction hresults with
  | nil => exact List.Perm.refl _
  | cons hresult _ ih => exact hresult.perm.append ih

/-- The results of an object. -/
def resultsOf (document : List (String × Json)) : List Json :=
  match (Json.get document "Results").orElse (.list []) with
  | .list results => results
  | _ => []

theorem orElse_eq_resultsOf {document : List (String × Json)}
    (h : Acceptable (.dict document)) :
    (Json.get document "Results").orElse (.list []) = .list (resultsOf document) := by
  rw [resultsOf]
  rcases h with hnull | ⟨results, hresults⟩
  · rw [hnull]
    rfl
  · rw [hresults, orElse_list]

/-- The same keys, each as severe in one as in the other. -/
structure SameSeverities (report report' : ParsedReport) : Prop where
  keys : ∀ k, k ∈ report.findings.map ParsedFinding.key ↔
    k ∈ report'.findings.map ParsedFinding.key
  severity : ∀ f ∈ report.findings, ∀ g ∈ report'.findings, f.key = g.key →
    f.severity = g.severity

variable {entries entries' : List ParsedFinding}

theorem Deduplicated.sameSeverities {report report' : ParsedReport}
    (h : Deduplicated entries report.findings) (h' : Deduplicated entries' report'.findings)
    (hperm : entries.Perm entries') : SameSeverities report report' where
  keys := by
    intro k
    rw [h.keys, h'.keys]
    exact (hperm.map ParsedFinding.key).mem_iff
  severity := by
    intro f hf g hg hkey
    have hfirst : KeepBest.IsFirstBest ParsedFinding.key ParsedFinding.rank entries f :=
      h.first f hf
    exact Severity.rank_injective (hfirst.rank_eq_of_perm (h'.first g hg) hperm hkey)

theorem parseDocument_of_parseReport {loads : String → Except String Json} {raw : String}
    {document : Json} {report : ParsedReport} (hloads : loads raw = .ok document)
    (h : parseReport loads raw = .ok report) : parseDocument document = .ok report := by
  rw [parseReport] at h
  split at h
  · cases h
  · rw [hloads] at h
    exact h

/-- **The findings of an accepted text are its entries, deduplicated; in another order it is
accepted as well, with the same keys, as severe as before.** -/
theorem parseReport_deduplicates {loads : String → Except String Json} {raw : String}
    {document : List (String × Json)} {report : ParsedReport}
    (hloads : loads raw = .ok (.dict document)) (h : parseReport loads raw = .ok report) :
    Deduplicated ((entriesOf (resultsOf document)).map Entry.finding) report.findings ∧
      ∀ document', Acceptable (.dict document') →
        Reordered (resultsOf document) (resultsOf document') →
        ∃ report', parseDocument (.dict document') = .ok report' ∧
          SameSeverities report report' := by
  obtain ⟨results, hresults, hreadable, rfl⟩ :=
    parseDocument_dict_eq_ok_iff.mp (parseDocument_of_parseReport hloads h)
  have hresultsOf : resultsOf document = results := by
    rw [resultsOf, hresults]
  rw [hresultsOf]
  have hdedup := deduplicated_reportOf document results
  refine ⟨hdedup, fun document' hacceptable hreordered => ?_⟩
  have hperm := hreordered.perm
  refine ⟨reportOf document' (resultsOf document'),
    parseDocument_of_readable (orElse_eq_resultsOf hacceptable) fun e he => ?_, ?_⟩
  · exact hreadable e (hperm.mem_iff.mpr he)
  · exact hdedup.sameSeverities (deduplicated_reportOf document' _) (hperm.map Entry.finding)

/-- The findings of a document of one Debian layer. -/
theorem deduplicated_debian (entries : List (String × String × String)) :
    Deduplicated ((entries.filterMap fun e => entryOf? "debian" (debianEntry e)).map Entry.finding)
      (AcceptedReport.debian entries).report.findings := by
  obtain ⟨results, hresults, -, hreport⟩ :=
    parseDocument_dict_eq_ok_iff.mp (AcceptedReport.parseDocument_debian entries)
  have hdedup := deduplicated_reportOf [("Results", Json.list [.dict [("Type", .str "debian"),
    ("Vulnerabilities", .list (entries.map debianEntry))]])] results
  have hlist : (Json.get [("Results", Json.list [.dict [("Type", .str "debian"),
      ("Vulnerabilities", .list (entries.map debianEntry))]])] "Results").orElse (.list [])
      = .list [.dict [("Type", .str "debian"),
          ("Vulnerabilities", .list (entries.map debianEntry))]] := rfl
  obtain rfl := Json.list.inj (hlist.symm.trans hresults)
  have hlisted : Json.get [("Type", Json.str "debian"),
      ("Vulnerabilities", .list (entries.map debianEntry))] "Vulnerabilities" =
        .list (entries.map debianEntry) := rfl
  have hentries : entriesOf [.dict [("Type", .str "debian"),
      ("Vulnerabilities", .list (entries.map debianEntry))]] =
      entries.filterMap fun e => entryOf? "debian" (debianEntry e) := by
    rw [entriesOf, List.flatMap_cons, List.flatMap_nil, List.append_nil,
      resultEntries_dict hlisted, List.filterMap_map]
    rfl
  rw [hreport, ← hentries]
  exact hdedup

/-- One vulnerability under two targets, which disagree about it. -/
def disputed : List (String × String × String) :=
  [("CVE-2022-0001", "libssl", "LOW"), ("CVE-2022-0001", "libssl", "HIGH")]

theorem parseReport_deduplicates_disputed :
    Deduplicated ((disputed.filterMap fun e => entryOf? "debian" (debianEntry e)).map Entry.finding)
      (AcceptedReport.debian disputed).report.findings := by
  have h := @parseReport_deduplicates (fun _ => .ok (debianDocument disputed)) "document" _ _ rfl
    ((if_neg (by decide)).trans (AcceptedReport.parseDocument_debian disputed))
  exact h.1

end ContainerScanner
