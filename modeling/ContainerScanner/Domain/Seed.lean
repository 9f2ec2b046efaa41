import ContainerScanner.Domain.Models
import Mathlib.Data.List.Enum

/-!
# Seeding

`app/db/seed.py`: the images a fresh database is given, numbered from one. No run is behind any of
them, so what the recorders build on it is built from nothing.

## Main results

* `unscanned_seeded` — a seeded database is one nothing was scanned into
-/

namespace ContainerScanner

open Foundation

/-- `BRIEF_IMAGES`. -/
def briefImages : List (String × String) :=
  [("nginx", "1.19"), ("postgres", "12"), ("redis", "6.0"), ("node", "14-alpine"),
    ("python", "3.8-slim"), ("alpine", "3.12"), ("ubuntu", "20.04"), ("mysql", "8.0"),
    ("mongo", "4.4"), ("httpd", "2.4")]

/-- The row of a reference, every other column at its default. -/
def Image.registered (createdAt : Timestamp) (reference : String × String) : Image where
  name := reference.1
  tag := reference.2
  scanIntervalSeconds := none
  enabled := true
  currentScanRunId := none
  consecutiveFailures := 0
  lastScanAt := none
  lastScanStatus := none
  createdAt := createdAt

/-- A fresh database after `INSERT INTO image` of a list of references. -/
def Db.seeded (createdAt : Timestamp) (references : List (String × String)) : Db where
  image :=
    { entries := references.zipIdx.map fun e => (e.2 + 1, Image.registered createdAt e.1)
      nodup := by
        have hkeys : (references.zipIdx.map fun e => (e.2 + 1, Image.registered createdAt e.1)).map
            Prod.fst = (references.zipIdx.map Prod.snd).map Nat.succ := by
          rw [List.map_map, List.map_map]
          rfl
        rw [hkeys, List.zipIdx_map_snd]
        exact (List.nodup_range').map Nat.succ_injective }
  scanJob := Serial.empty
  scanRun := Serial.empty
  package := Surrogate.empty
  cve := Dict.empty
  finding := Dict.empty

/-- A seeded database is one nothing was scanned into. -/
theorem unscanned_seeded (createdAt : Timestamp) (references : List (String × String)) :
    (Db.seeded createdAt references).Unscanned where
  pointer := by
    intro i image hi
    obtain ⟨e, -, he⟩ := List.mem_map.mp (Dict.get?_eq_some_iff.mp hi)
    rw [← (Prod.mk.inj he).2]
    rfl
  scanRun := fun _ => rfl
  package := rfl
  cve := rfl
  finding := rfl

end ContainerScanner
