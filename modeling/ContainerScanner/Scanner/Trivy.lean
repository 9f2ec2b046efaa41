import ContainerScanner.Foundation.Substring
import ContainerScanner.Scanner.RunOnce

/-!
# What a failed Trivy says

`_run` of `app/scanner/trivy.py` with `is_rate_limit_error` of `app/scanner/parser.py`. Trivy exits
1 for every failure, so throttling is read off its prose: a marker in the lowered text. The text is
stripped and cut to 2000 characters first, for the message, and what is searched is what is left.

## Main definitions

* `isRateLimitError`
* `Process`, `run` — how a process ends, and what is made of it

## Main results

* `classifiesErrors_iff` — when throttling is told from failure
-/

namespace ContainerScanner

open Foundation

namespace Trivy

/-- `_RATE_LIMIT_MARKERS`. Deliberately no bare `429`. -/
def rateLimitMarkers : List String :=
  ["toomanyrequests", "too many requests", "pull rate limit", "rate limit exceeded"]

/-- Did a failed invocation fail because the registry throttled us? -/
def isRateLimitError (message : String) : Bool :=
  rateLimitMarkers.any fun marker => PyStr.isIn marker (PyStr.lower message)

/-- How `subprocess.run` ends. -/
inductive Process where
  /-- A `FileNotFoundError`. -/
  | notFound
  /-- A `TimeoutExpired`. -/
  | timedOut
  | completed (returncode : ℤ) (stdout stderr : String)

/-- `completed.stderr or completed.stdout or ""`. -/
def errorText (stdout stderr : String) : String := if stderr = "" then stdout else stderr

/-- How much of it a message keeps. -/
def detail (stdout stderr : String) : String :=
  PyStr.truncate 2000 (PyStr.strip (errorText stdout stderr))

def run (binary : String) (timeout : ℕ) : Process → Except RunOnce.Raised String
  | .notFound => .error (.trivyError ("trivy binary not found: " ++ binary))
  | .timedOut => .error (.trivyTimeout ("trivy timed out after " ++ toString timeout ++ "s"))
  | .completed returncode stdout stderr =>
    if returncode = 0 then .ok stdout
    else
      let message := "trivy exited " ++ toString returncode ++ ": " ++ detail stdout stderr
      if isRateLimitError (detail stdout stderr) then .error (.trivyRateLimited message)
      else .error (.trivyError message)

variable {binary stdout stderr : String} {timeout : ℕ} {returncode : ℤ}

theorem isRateLimitError_iff {message : String} :
    isRateLimitError message = true ↔
      ∃ marker ∈ rateLimitMarkers, PyStr.isIn marker (PyStr.lower message) = true :=
  List.any_eq_true

/-- Some marker ends with one of the first `n` characters. -/
def MarkerBy (n : ℕ) (text : String) : Prop :=
  ∃ marker ∈ rateLimitMarkers, PyStr.EndsBy n marker text

theorem marker_ne_nil : ∀ marker ∈ rateLimitMarkers, marker.toList ≠ [] := by decide

theorem marker_getLast? : ∀ marker ∈ rateLimitMarkers, marker.toList.getLast? ≠ some 'i' := by
  decide

/-- What is searched is the start of the stripped text. -/
theorem isRateLimitError_detail :
    isRateLimitError (detail stdout stderr) = true ↔
      MarkerBy 2000 (PyStr.strip (errorText stdout stderr)) := by
  rw [isRateLimitError_iff, MarkerBy]
  refine exists_congr fun marker => and_congr_right fun hmarker => ?_
  exact PyStr.isIn_lower_truncate (marker_ne_nil marker hmarker) (marker_getLast? marker hmarker)

/-- Cutting a text adds no marker to it. -/
theorem isRateLimitError_of_detail (h : isRateLimitError (detail stdout stderr) = true) :
    isRateLimitError (errorText stdout stderr) = true := by
  obtain ⟨marker, hmarker, hin⟩ := isRateLimitError_iff.mp h
  refine isRateLimitError_iff.mpr ⟨marker, hmarker, PyStr.isIn_lower_of_infix ?_ hin⟩
  have hstart : (detail stdout stderr).toList <:+:
      (PyStr.strip (errorText stdout stderr)).toList := by
    rw [detail, PyStr.toList_truncate]
    exact (List.take_prefix _ _).isInfix
  exact hstart.trans (PyStr.toList_strip_infix _)

/-- A failed process is throttled when its complete error text says so, and an ordinary failure
otherwise. -/
structure ClassifiesErrors (binary : String) (timeout : ℕ) (returncode : ℤ)
    (stdout stderr : String) : Prop where
  throttled : isRateLimitError (errorText stdout stderr) = true ↔
    ∃ message, run binary timeout (.completed returncode stdout stderr) =
      .error (.trivyRateLimited message)
  failed : isRateLimitError (errorText stdout stderr) = false →
    ∃ message, run binary timeout (.completed returncode stdout stderr) =
      .error (.trivyError message)

/-- What `run` raises for a process that failed. -/
theorem run_completed (binary : String) (timeout : ℕ) (stdout stderr : String)
    (hcode : returncode ≠ 0) :
    ∃ message, run binary timeout (.completed returncode stdout stderr) =
      if isRateLimitError (detail stdout stderr) then .error (.trivyRateLimited message)
      else .error (.trivyError message) := by
  refine ⟨"trivy exited " ++ toString returncode ++ ": " ++ detail stdout stderr, ?_⟩
  rw [run, if_neg hcode]

/-- **Throttling is told from failure exactly when a text with a marker has one that ends within
its first 2000 characters**, counted from the first that is not blank. -/
theorem classifiesErrors_iff (hcode : returncode ≠ 0) :
    ClassifiesErrors binary timeout returncode stdout stderr ↔
      (isRateLimitError (errorText stdout stderr) = true →
        MarkerBy 2000 (PyStr.strip (errorText stdout stderr))) := by
  obtain ⟨message, hrun⟩ := run_completed binary timeout stdout stderr hcode
  rw [← isRateLimitError_detail]
  constructor
  · intro h hmarker
    obtain ⟨message', hraised⟩ := h.throttled.mp hmarker
    rw [hrun] at hraised
    by_contra hdetail
    rw [if_neg hdetail] at hraised
    cases hraised
  · intro h
    refine ⟨⟨fun hmarker => ⟨message, ?_⟩, ?_⟩, fun hnone => ⟨message, ?_⟩⟩
    · rw [hrun, if_pos (h hmarker)]
    · rintro ⟨message', hraised⟩
      refine isRateLimitError_of_detail ?_
      rw [hrun] at hraised
      by_contra hdetail
      rw [if_neg hdetail] at hraised
      cases hraised
    · have hdetail : ¬ isRateLimitError (detail stdout stderr) = true := by
        intro hdetail
        rw [isRateLimitError_of_detail hdetail] at hnone
        cases hnone
      rw [hrun, if_neg hdetail]

theorem classifiesErrors_toomanyrequests :
    ClassifiesErrors "trivy" 900 1 "" "toomanyrequests: slow down" ↔
      (isRateLimitError (errorText "" "toomanyrequests: slow down") = true →
        MarkerBy 2000 (PyStr.strip (errorText "" "toomanyrequests: slow down"))) :=
  classifiesErrors_iff (by decide)

/-! ### A long text -/

/-- So much other output, with the fatal line last. -/
def longText (n : ℕ) : String :=
  String.ofList (List.replicate (n + 1) 'x' ++ "toomanyrequests".toList)

theorem toList_longText (n : ℕ) :
    (longText n).toList = List.replicate (n + 1) 'x' ++ "toomanyrequests".toList :=
  String.toList_ofList

theorem strip_longText (n : ℕ) : PyStr.strip (longText n) = longText n := by
  have hfront : (List.replicate (n + 1) 'x' ++ "toomanyrequests".toList).dropWhile
      PyStr.isSpace = List.replicate (n + 1) 'x' ++ "toomanyrequests".toList := by
    rw [List.replicate_succ, List.cons_append, List.dropWhile_cons_of_neg (by decide)]
  have hback : (List.replicate (n + 1) 'x' ++ "toomanyrequests".toList).reverse =
      's' :: ("tseuqerynamoot".toList ++ (List.replicate (n + 1) 'x').reverse) := by
    rw [List.reverse_append]
    rfl
  rw [PyStr.strip, toList_longText, PyStr.stripChars, hfront, hback,
    List.dropWhile_cons_of_neg (by decide), ← hback, List.reverse_reverse]
  rfl

/-- The fatal line is there. -/
theorem isRateLimitError_longText (n : ℕ) : isRateLimitError (longText n) = true := by
  have hmarker : "toomanyrequests".toList.flatMap PyStr.lowerChar = "toomanyrequests".toList := by
    decide
  refine isRateLimitError_iff.mpr ⟨"toomanyrequests", by decide, PyStr.isIn_iff.mpr ?_⟩
  refine ⟨(List.replicate (n + 1) 'x').flatMap PyStr.lowerChar, [], ?_⟩
  rw [PyStr.toList_lower, toList_longText, List.flatMap_append, hmarker, List.append_nil]

/-- What precedes it says nothing. -/
theorem isRateLimitError_replicate (n : ℕ) :
    isRateLimitError (String.ofList (List.replicate n 'x')) = false := by
  have hother : ∀ marker ∈ rateLimitMarkers, marker.toList.any (· != 'x') = true := by decide
  rw [Bool.eq_false_iff]
  intro h
  obtain ⟨marker, hmarker, hin⟩ := isRateLimitError_iff.mp h
  obtain ⟨c, hc, hne⟩ := List.any_eq_true.mp (hother marker hmarker)
  rw [PyStr.isIn_iff, PyStr.toList_lower, String.toList_ofList] at hin
  obtain ⟨x, hx, hcx⟩ := List.mem_flatMap.mp (hin.subset hc)
  rw [List.eq_of_mem_replicate hx] at hcx
  exact bne_iff_ne.mp hne (List.mem_singleton.mp hcx)

/-- Behind 2000 other characters the marker is cut off, and the failure burns a retry. -/
theorem not_classifiesErrors_longText : ¬ ClassifiesErrors "trivy" 900 1 "" (longText 1999) := by
  have htext : errorText "" (longText 1999) = longText 1999 := by
    refine if_neg fun hempty => ?_
    have hmarker := isRateLimitError_longText 1999
    rw [hempty] at hmarker
    exact absurd hmarker (by decide)
  have hdetail : detail "" (longText 1999) = String.ofList (List.replicate 2000 'x') := by
    rw [detail, htext, strip_longText, PyStr.truncate, toList_longText,
      List.take_left' List.length_replicate]
  intro h
  obtain ⟨message, hraised⟩ := h.throttled.mp (by rw [htext]; exact isRateLimitError_longText 1999)
  have hcode : ¬ (1 : ℤ) = 0 := by decide
  rw [run, if_neg hcode, hdetail, isRateLimitError_replicate] at hraised
  cases hraised

end Trivy

end ContainerScanner
