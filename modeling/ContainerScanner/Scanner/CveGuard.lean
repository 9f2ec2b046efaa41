import ContainerScanner.Scanner.Effects
import ContainerScanner.Domain.Seed

/-!
# The guard of the CVE upsert

`_upsert_cves` writes `COALESCE(excluded.field, cve.field)` into each descriptive column, under a
`WHERE` that lets the statement through only when the scan fills in a column that was null. The
guard is there to save writes. It saves too many: where nothing is null, a value that the report
has revised is not written either.

## Main definitions

* `offered` — what a report says about a CVE, read off its findings
* `overwriteCves` — the statement without its `WHERE`
* `GuardHarmless`, `NoRevision` — the promise, and when it is kept

## Main results

* `get?_cveRows` — the rows of the upsert are what the report offers
* `guardHarmless_iff` — the guard is harmless iff the report revises no row that is complete
-/

namespace ContainerScanner

open Foundation

namespace Persist

variable {db : Db} {report : ParsedReport} {c : CveId} {v : CveValues} {cve : Cve}

/-! ### What a report offers -/

/-- What the report says about one CVE. -/
def findingsOf (findings : List ParsedFinding) (c : CveId) : List ParsedFinding :=
  findings.filter fun f => decide (f.cveId = c)

/-- The first non-null value of each descriptive field. -/
def offered (report : ParsedReport) (c : CveId) : CveValues where
  title := (findingsOf report.findings c).findSome? ParsedFinding.title
  description := (findingsOf report.findings c).findSome? ParsedFinding.description
  publishedAt := (findingsOf report.findings c).findSome? ParsedFinding.publishedAt
  lastModifiedAt := (findingsOf report.findings c).findSome? ParsedFinding.lastModifiedAt

/-- `COALESCE`, column by column. -/
def CveValues.coalesce (excluded current : CveValues) : CveValues where
  title := excluded.title.or current.title
  description := excluded.description.or current.description
  publishedAt := excluded.publishedAt.or current.publishedAt
  lastModifiedAt := excluded.lastModifiedAt.or current.lastModifiedAt

def CveValues.null : CveValues := ⟨none, none, none, none⟩

theorem findSome?_cons_or {α β : Type} (g : α → Option β) (a : α) (l : List α) :
    (a :: l).findSome? g = (g a).or (l.findSome? g) := by
  rw [List.findSome?_cons]
  cases g a <;> rfl

theorem foldl_fill (fs : List ParsedFinding) (v : CveValues) :
    fs.foldl CveValues.fill v = v.coalesce
      ⟨fs.findSome? ParsedFinding.title, fs.findSome? ParsedFinding.description,
        fs.findSome? ParsedFinding.publishedAt, fs.findSome? ParsedFinding.lastModifiedAt⟩ := by
  induction fs generalizing v with
  | nil => simp [CveValues.coalesce]
  | cons f fs ih =>
    rw [List.foldl_cons, ih]
    simp only [CveValues.coalesce, CveValues.fill, Option.or_assoc, findSome?_cons_or]

/-- Reading the rows of the upsert while they are collected. -/
theorem get?_foldl_rows (findings : List ParsedFinding) (d : Dict CveId CveValues) (c : CveId) :
    (findings.foldl
        (fun byId finding =>
          byId.set finding.cveId
            (((byId.get? finding.cveId).getD ⟨none, none, none, none⟩).fill finding)) d).get? c
      = if findingsOf findings c = [] then d.get? c
        else some ((findingsOf findings c).foldl CveValues.fill
          ((d.get? c).getD CveValues.null)) := by
  induction findings generalizing d with
  | nil => rfl
  | cons f findings ih =>
    rw [List.foldl_cons, ih, Dict.get?_set]
    by_cases hc : c = f.cveId
    · subst hc
      have hcons : findingsOf (f :: findings) f.cveId = f :: findingsOf findings f.cveId := by
        simp [findingsOf]
      rw [hcons, if_pos rfl, if_neg (List.cons_ne_nil _ _), List.foldl_cons, Option.getD_some]
      split
      · next hnil =>
        rw [hnil]
        rfl
      · rfl
    · have hskip : findingsOf (f :: findings) c = findingsOf findings c := by
        simp [findingsOf, Ne.symm hc]
      rw [hskip, if_neg hc]

theorem findingsOf_eq_nil_iff : findingsOf report.findings c = [] ↔ c ∉ report.cveIds := by
  rw [findingsOf, List.filter_eq_nil_iff, ParsedReport.mem_cveIds]
  simp

/-- **The upsert offers what the report says**, for the CVEs of the report. -/
theorem get?_cveRows : (cveRows report.findings).get? c
    = if c ∈ report.cveIds then some (offered report c) else none := by
  rw [cveRows, get?_foldl_rows]
  by_cases hc : c ∈ report.cveIds
  · rw [if_neg (fun h => findingsOf_eq_nil_iff.mp h hc), if_pos hc, Dict.get?_empty,
      Option.getD_none, foldl_fill]
    simp only [CveValues.null, CveValues.coalesce, Option.none_or]
    rfl
  · rw [if_pos (findingsOf_eq_nil_iff.mpr hc), if_neg hc, Dict.get?_empty]

/-! ### With and without the guard -/

/-- One row of the same upsert without its `WHERE`. -/
def overwriteCve (excluded : CveValues) : Option Cve → Cve
  | none => upsertCve excluded none
  | some cve =>
    { cve with
      title := excluded.title.or cve.title
      description := excluded.description.or cve.description
      publishedAt := excluded.publishedAt.or cve.publishedAt
      lastModifiedAt := excluded.lastModifiedAt.or cve.lastModifiedAt }

/-- The statement without its `WHERE`. -/
def overwriteCves (db : Db) (report : ParsedReport) : Db :=
  { db with cve := db.cve.upsertAll overwriteCve (cveRows report.findings).entries }

/-- Reading after either statement. -/
theorem get?_upsertRows (f : CveValues → Option Cve → Cve) (db : Db) (report : ParsedReport)
    (c : CveId) : (db.cve.upsertAll f (cveRows report.findings).entries).get? c
      = if c ∈ report.cveIds then some (f (offered report c) (db.cve.get? c))
        else db.cve.get? c := by
  have hlookup : (cveRows report.findings).entries.lookup c
      = if c ∈ report.cveIds then some (offered report c) else none := get?_cveRows
  rw [Dict.get?_upsertAll f (cveRows report.findings).nodup, hlookup]
  by_cases hc : c ∈ report.cveIds <;> simp [hc]

/-- The report says nothing about the row but what it says already. -/
structure CveValues.Repeats (v : CveValues) (cve : Cve) : Prop where
  title : ∀ x, v.title = some x → cve.title = some x
  description : ∀ x, v.description = some x → cve.description = some x
  publishedAt : ∀ x, v.publishedAt = some x → cve.publishedAt = some x
  lastModifiedAt : ∀ x, v.lastModifiedAt = some x → cve.lastModifiedAt = some x

theorem or_eq_right_iff {α : Type} {a b : Option α} :
    a.or b = b ↔ ∀ x, a = some x → b = some x := by
  cases a with
  | none => simp
  | some x => simp [eq_comm]

/-- The guarded row is the unguarded one when the guard lets it through, or nothing would change. -/
theorem upsertCve_eq_overwriteCve_iff :
    upsertCve v (some cve) = overwriteCve v (some cve) ↔ v.fills cve = true ∨ v.Repeats cve := by
  have hsame : cve = overwriteCve v (some cve) ↔ v.Repeats cve := by
    constructor
    · intro h
      have hcve : overwriteCve v (some cve) = cve := h.symm
      exact ⟨or_eq_right_iff.mp (congrArg Cve.title hcve),
        or_eq_right_iff.mp (congrArg Cve.description hcve),
        or_eq_right_iff.mp (congrArg Cve.publishedAt hcve),
        or_eq_right_iff.mp (congrArg Cve.lastModifiedAt hcve)⟩
    · intro h
      simp only [overwriteCve, or_eq_right_iff.mpr h.title, or_eq_right_iff.mpr h.description,
        or_eq_right_iff.mpr h.publishedAt, or_eq_right_iff.mpr h.lastModifiedAt]
  by_cases hfills : v.fills cve = true
  · simp [upsertCve, overwriteCve, hfills]
  · rw [upsertCve, if_neg hfills, hsame]
    simp [hfills]

theorem described_overwriteCve (v : CveValues) (cve : Option Cve) :
    described (overwriteCve v cve) = v.coalesce ((cve.map described).getD CveValues.null) := by
  cases cve with
  | none => simp [overwriteCve, upsertCve, described, CveValues.coalesce, CveValues.null]
  | some cve => rfl

/-! ### The promise -/

/-- The guard changes nothing but how much is written. -/
structure GuardHarmless (db : Db) (report : ParsedReport) : Prop where
  /-- Every row is as the statement without the guard leaves it. -/
  unguarded : ∀ c, (upsertCves db report).cve.get? c = (overwriteCves db report).cve.get? c
  /-- Each field is the first non-null value of the report, and the stored one without any. -/
  fields : ∀ c ∈ report.cveIds, ∀ cve, (upsertCves db report).cve.get? c = some cve →
    described cve = (offered report c).coalesce
      (((db.cve.get? c).map described).getD CveValues.null)
  /-- Other rows are left alone. -/
  untouched : ∀ c, c ∉ report.cveIds → (upsertCves db report).cve.get? c = db.cve.get? c

/-- The report revises no row that it fills in nothing of. -/
def NoRevision (db : Db) (report : ParsedReport) : Prop :=
  ∀ c ∈ report.cveIds, ∀ cve ∈ db.cve.get? c,
    (offered report c).fills cve = true ∨ (offered report c).Repeats cve

/-- **The guard is harmless iff the report revises no row it fills in nothing of.** -/
theorem guardHarmless_iff (db : Db) (report : ParsedReport) :
    GuardHarmless db report ↔ NoRevision db report := by
  constructor
  · intro h c hc cve hcve
    have hsame := h.unguarded c
    rw [upsertCves, overwriteCves, get?_upsertRows, get?_upsertRows, if_pos hc, if_pos hc,
      Option.mem_def.mp hcve] at hsame
    exact upsertCve_eq_overwriteCve_iff.mp (Option.some.inj hsame)
  · intro h
    have hsame : ∀ c, (upsertCves db report).cve.get? c = (overwriteCves db report).cve.get? c := by
      intro c
      rw [upsertCves, overwriteCves, get?_upsertRows, get?_upsertRows]
      by_cases hc : c ∈ report.cveIds
      · rw [if_pos hc, if_pos hc]
        cases hcve : db.cve.get? c with
        | none => rfl
        | some cve => rw [upsertCve_eq_overwriteCve_iff.mpr (h c hc cve hcve)]
      · rw [if_neg hc, if_neg hc]
    refine ⟨hsame, fun c hc cve hcve => ?_, fun c hc => ?_⟩
    · rw [hsame, overwriteCves, get?_upsertRows, if_pos hc] at hcve
      rw [← Option.some.inj hcve, described_overwriteCve]
    · rw [upsertCves, get?_upsertRows, if_neg hc]

/-- A row with nothing to fill in, and a report with another title. -/
theorem not_guardHarmless_revisedTitle :
    ¬ ∀ (db : Db) (report : ParsedReport), GuardHarmless db report := by
  intro hall
  have hrow := (hall
    { Db.seeded 0 briefImages with
      cve := Dict.empty.set "CVE-1" ⟨some "old title", some "detail", .high, 3, 1,
        some second, some second⟩ }
    ⟨some "sha256:a", some "nginx:1.19", [⟨"CVE-1", "openssl", "1.1.1", "debian", .high, none,
      some "new title", some "detail", some second, some (2 * second)⟩]⟩).unguarded "CVE-1"
  exact absurd hrow (by decide)

end Persist

end ContainerScanner
