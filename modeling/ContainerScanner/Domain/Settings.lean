import Mathlib.Data.Int.Notation

/-!
# Runtime configuration

`app/config.py`: the settings that some modelled function reads. The model validator
`_lease_outlives_a_scan` is a field, so a `Settings` is one that Pydantic accepted.
-/

namespace ContainerScanner

/-- The settings a process runs with. The validator apart, nothing keeps a number positive. -/
structure Settings where
  defaultScanIntervalSeconds : ℤ := 900
  /-- Ceiling for the backoff of an image whose scans keep failing. -/
  maxFailureBackoffSeconds : ℤ := 86400
  /-- How long a claim is good for. -/
  leaseSeconds : ℤ := 1200
  maxAttempts : ℤ := 5
  backoffBaseSeconds : ℤ := 30
  backoffMaxSeconds : ℤ := 3600
  trivyTimeoutSeconds : ℤ := 900
  /-- Set when a Trivy server owns the database. -/
  trivyServerUrl : Option String := none
  pageSizeDefault : ℤ := 100
  pageSizeMax : ℤ := 1000
  /-- A slow scan must not lose its lease. -/
  leaseOutlivesAScan : trivyTimeoutSeconds < leaseSeconds := by decide

end ContainerScanner
