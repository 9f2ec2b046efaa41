import ContainerScanner.Scanner.Entries

/-!
# What `parse_report` accepts

The documents it means to accept are the objects whose `Results` are absent, null or a list. Two
things come between: `or []` takes every falsy value for an empty list, and `parse_severity` asks
for the `strip` of whatever is truthy.

## Main definitions

* `JsonDecoder` — `json.loads`
* `Acceptable`, `Regular` — what should be accepted, and what the parser does justice to

## Main results

* `acceptsExactly_iff` — on which texts the parser accepts what it should, and raises
  `TrivyReportError` otherwise
-/

namespace ContainerScanner

open Foundation

/-- `json.loads`, which answers with a document or with the text of its `JSONDecodeError`. -/
structure JsonDecoder where
  loads : String → Except String Json
  /-- A blank text is malformed. -/
  blank : ∀ raw, PyStr.strip raw = "" → ∃ exc, loads raw = .error exc

/-- An object whose `Results` are absent, null or a list. -/
def Acceptable : Json → Prop
  | .dict document =>
    Json.get document "Results" = .null ∨ ∃ results, Json.get document "Results" = .list results
  | _ => False

/-- The parser accepts a text that decodes to such an object, and raises `TrivyReportError` for any
other. -/
structure AcceptsExactly (decoder : JsonDecoder) (raw : String) : Prop where
  accepts : ∀ document, decoder.loads raw = .ok document → Acceptable document →
    ∃ report, parseReport decoder.loads raw = .ok report
  rejects : (¬ ∃ document, decoder.loads raw = .ok document ∧ Acceptable document) →
    ∃ message, parseReport decoder.loads raw = .error (.trivyReportError message)

/-- Not a falsy value besides null and the empty list, and no severity without a `strip`. -/
def RegularResults : Json → Prop
  | .null => True
  | .list results => ∀ e ∈ entriesOf results, e.Readable
  | results => results.truthy = true

/-- A document that is no object, or one with regular `Results`. -/
def Regular : Json → Prop
  | .dict document => RegularResults (Json.get document "Results")
  | _ => True

theorem parseReport_of_loads {decoder : JsonDecoder} {raw : String} {document : Json}
    (h : decoder.loads raw = .ok document) :
    parseReport decoder.loads raw = parseDocument document := by
  have hraw : ¬ PyStr.strip raw = "" := by
    intro hblank
    obtain ⟨exc, hexc⟩ := decoder.blank raw hblank
    rw [hexc] at h
    cases h
  rw [parseReport, if_neg hraw, h]

theorem parseReport_of_malformed {decoder : JsonDecoder} {raw exc : String}
    (h : decoder.loads raw = .error exc) :
    ∃ message, parseReport decoder.loads raw = .error (.trivyReportError message) := by
  rw [parseReport]
  split
  · exact ⟨_, rfl⟩
  · rw [h]
    exact ⟨_, rfl⟩

theorem orElse_of_truthy {value default : Json} (h : value.truthy = true) :
    value.orElse default = value := if_pos h

theorem orElse_of_falsy {value default : Json} (h : value.truthy = false) :
    value.orElse default = default := if_neg (by simp [h])

/-- A list stays a list, the empty one included. -/
theorem orElse_list (results : List Json) :
    (Json.list results).orElse (.list []) = .list results := by
  cases results <;> rfl

/-- On a regular document the parser says which it is. -/
theorem parseDocument_of_regular {document : Json} (h : Regular document) :
    (Acceptable document → ∃ report, parseDocument document = .ok report) ∧
      (¬ Acceptable document →
        ∃ message, parseDocument document = .error (.trivyReportError message)) := by
  cases document with
  | dict members =>
    have hregular : RegularResults (Json.get members "Results") := h
    by_cases hlist : ∃ results, (Json.get members "Results").orElse (.list []) = .list results
    · obtain ⟨results, hresults⟩ := hlist
      have hshape : Json.get members "Results" = .null ∨
          Json.get members "Results" = .list results := by
        cases hvalue : Json.get members "Results" with
        | null => exact Or.inl rfl
        | list results' =>
          rw [hvalue, orElse_list] at hresults
          exact Or.inr hresults
        | _ =>
          rw [hvalue] at hregular hresults
          rw [orElse_of_truthy hregular] at hresults
          cases hresults
      have hreadable : ∀ e ∈ entriesOf results, e.Readable := by
        rcases hshape with hvalue | hvalue
        · rw [hvalue] at hresults
          obtain rfl := Json.list.inj hresults
          simp [entriesOf]
        · rw [hvalue] at hregular
          exact hregular
      constructor
      · intro _
        exact ⟨_, parseDocument_of_readable hresults hreadable⟩
      · intro hnot
        exact absurd (hshape.imp_right fun hvalue => ⟨results, hvalue⟩) hnot
    · constructor
      · rintro (hvalue | ⟨results, hvalue⟩)
        · exact absurd ⟨[], by rw [hvalue]; rfl⟩ hlist
        · exact absurd ⟨results, by rw [hvalue, orElse_list]⟩ hlist
      · intro _
        exact ⟨_, parseDocument_of_not_list (not_exists.mp hlist)⟩
  | _ =>
    constructor
    · intro hacceptable
      exact hacceptable.elim
    · intro _
      exact ⟨_, rfl⟩

/-- A document that is not regular is accepted or rejected wrongly. -/
theorem regular_of_parseDocument {document : Json}
    (haccepts : Acceptable document → ∃ report, parseDocument document = .ok report)
    (hrejects : ¬ Acceptable document → ∀ report, parseDocument document ≠ .ok report) :
    Regular document := by
  cases document with
  | dict members =>
    show RegularResults (Json.get members "Results")
    cases hvalue : Json.get members "Results" with
    | null => trivial
    | list results =>
      obtain ⟨report, hreport⟩ := haccepts (Or.inr ⟨results, hvalue⟩)
      obtain ⟨results', hresults', hreadable, -⟩ := parseDocument_dict_eq_ok_iff.mp hreport
      rw [hvalue, orElse_list] at hresults'
      obtain rfl := Json.list.inj hresults'
      exact hreadable
    | _ =>
      refine Bool.of_not_eq_false fun hfalsy => ?_
      have hnot : ¬ Acceptable (.dict members) := by
        rintro (hnull | ⟨results, hlist⟩)
        · rw [hvalue] at hnull
          cases hnull
        · rw [hvalue] at hlist
          cases hlist
      -- a falsy value reads as the empty list
      have hempty : (Json.get members "Results").orElse (.list []) = .list [] := by
        rw [hvalue]
        exact orElse_of_falsy hfalsy
      exact hrejects hnot _ (parseDocument_of_readable hempty (by simp [entriesOf]))
  | _ => trivial

/-- **`parse_report` accepts exactly what it should on the texts whose document is regular, and on
no other.** -/
theorem acceptsExactly_iff (decoder : JsonDecoder) (raw : String) :
    AcceptsExactly decoder raw ↔ ∀ document, decoder.loads raw = .ok document →
      Regular document := by
  constructor
  · intro h document hloads
    refine regular_of_parseDocument (fun hacceptable => ?_) fun hnot report hreport => ?_
    · obtain ⟨report, hreport⟩ := h.accepts document hloads hacceptable
      rw [parseReport_of_loads hloads] at hreport
      exact ⟨report, hreport⟩
    · obtain ⟨message, hmessage⟩ := h.rejects (by
        rintro ⟨document', hloads', hacceptable⟩
        obtain rfl := Except.ok.inj (hloads.symm.trans hloads')
        exact hnot hacceptable)
      rw [parseReport_of_loads hloads, hreport] at hmessage
      cases hmessage
  · intro h
    cases hloads : decoder.loads raw with
    | error exc =>
      refine ⟨fun document hdocument _ => ?_, fun _ => parseReport_of_malformed hloads⟩
      rw [hloads] at hdocument
      cases hdocument
    | ok document =>
      obtain ⟨haccepts, hrejects⟩ := parseDocument_of_regular (h document hloads)
      refine ⟨fun document' hdocument hacceptable => ?_, fun hnot => ?_⟩
      · obtain rfl := Except.ok.inj (hloads.symm.trans hdocument)
        rw [parseReport_of_loads hloads]
        exact haccepts hacceptable
      · rw [parseReport_of_loads hloads]
        exact hrejects fun hacceptable => hnot ⟨document, hloads, hacceptable⟩

/-! ### Two that are not -/

/-- A decoder as far as one text goes. -/
def JsonDecoder.only (text : String) (document : Json) (h : PyStr.strip text ≠ "") :
    JsonDecoder where
  loads := fun raw => if raw = text then .ok document else .error "Expecting value"
  blank := by
    intro raw hraw
    refine ⟨"Expecting value", if_neg ?_⟩
    rintro rfl
    exact h hraw

@[simp] theorem JsonDecoder.loads_only (text : String) (document : Json)
    (h : PyStr.strip text ≠ "") : (JsonDecoder.only text document h).loads text = .ok document :=
  if_pos rfl

/-- `Results` that are neither null nor a list. -/
def falseResults : String := "\x7b\"Results\": false\x7d"

def falseResultsDecoder : JsonDecoder :=
  .only falseResults (.dict [("Results", .bool false)]) (by decide)

/-- A severity that is a number. -/
def numericSeverity : String :=
  "\x7b\"Results\": [\x7b\"Vulnerabilities\": [\x7b\"VulnerabilityID\": \"CVE-2024-1\", " ++
    "\"PkgName\": \"zlib\", \"Severity\": 7\x7d]\x7d]\x7d"

def numericSeverityDecoder : JsonDecoder :=
  .only numericSeverity
    (.dict [("Results", .list [.dict [("Vulnerabilities", .list [.dict
      [("VulnerabilityID", .str "CVE-2024-1"), ("PkgName", .str "zlib"),
        ("Severity", .int 7)]])]])])
    (by decide)

/-- The first is accepted as a clean image, and the second raises an `AttributeError`. -/
theorem not_acceptsExactly :
    ¬ AcceptsExactly falseResultsDecoder falseResults ∧
      ¬ AcceptsExactly numericSeverityDecoder numericSeverity := by
  constructor
  · intro h
    have hloads : falseResultsDecoder.loads falseResults = .ok (.dict [("Results", .bool false)]) :=
      JsonDecoder.loads_only _ _ _
    have hnot : ¬ Acceptable (.dict [("Results", .bool false)]) := by
      rintro (hnull | ⟨results, hlist⟩)
      · cases hnull
      · cases hlist
    obtain ⟨message, hmessage⟩ := h.rejects (by
      rintro ⟨document, hdocument, hacceptable⟩
      obtain rfl := Except.ok.inj (hloads.symm.trans hdocument)
      exact hnot hacceptable)
    rw [parseReport_of_loads hloads] at hmessage
    cases hmessage
  · intro h
    have hloads : numericSeverityDecoder.loads numericSeverity = .ok _ :=
      JsonDecoder.loads_only _ _ _
    obtain ⟨report, hreport⟩ := h.accepts _ hloads (Or.inr ⟨_, rfl⟩)
    rw [parseReport_of_loads hloads] at hreport
    cases hreport

end ContainerScanner
