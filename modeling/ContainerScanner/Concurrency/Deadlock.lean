import ContainerScanner.Concurrency.Progress
import ContainerScanner.Domain.Seed
import Mathlib.Data.Finset.Max

/-!
# Deadlocks between two successes

A success locks the packages it inserts in sorted order, then the CVEs of its report in the order
of the report, then those that vanished from its image in any order; its findings and its image are
its own. Two successes for different images therefore meet on new packages and on CVEs. The
smallest package they share, or the first CVE they share when it is the first in both reports, is a
gate: who does not hold it holds nothing the other may wait for.

## Main definitions

* `Txn.Locked` — which packages and CVEs a transaction holds, phase by phase
* `Orderly` — the condition on the two reports and the database they are written to

## Main results

* `shared_of_holds_of_wants` — where two transactions meet
* `not_deadlocked_of_continues` — why orderly transactions never wait for each other
* `not_deadlocked_run` — no run of two orderly transactions comes to a deadlock
-/

namespace ContainerScanner

open Foundation Persist

namespace Concurrency

variable {db db' : Db} {x x' y : Txn} {s s' : State} {t u : TxnId} {blocked : Row → Bool}
  {c : CveId}

/-! ### What a transaction may lock -/

/-- Every CVE it may lock. -/
def Txn.locks (db : Db) (x : Txn) : List CveId :=
  affectedCves db x.imageId x.image x.report.report

/-- The packages it inserts. -/
def Txn.NewPackage (db : Db) (x : Txn) (key : PackageKey) : Prop :=
  key ∈ packageKeys x.report.report ∧ db.package.get? key = none

instance (db : Db) (x : Txn) (key : PackageKey) : Decidable (x.NewPackage db key) :=
  inferInstanceAs (Decidable (_ ∧ _))

/-- The CVEs of its report, in the order of the upsert. -/
def Txn.reported (x : Txn) : List CveId := (cveRows x.report.report.findings).keys

/-- The first CVE of its report that the other may lock as well. -/
def Txn.firstShared (db : Db) (x y : Txn) : Option CveId :=
  x.reported.find? fun c => decide (c ∈ y.locks db)

/-- It has inserted the packages of its report that were not known. -/
def Txn.AllPackages (db : Db) (x : Txn) : Prop :=
  ∀ key, key ∈ x.package.keys ↔ x.NewPackage db key

/-- Which packages and CVEs a transaction has locked, where `db` is what was committed before it
began. -/
def Txn.Locked (db : Db) (x : Txn) : Prop :=
  match x.phase with
  | .opened => x.package.keys = [] ∧ x.cve.keys = []
  | .inserting => x.affected = x.locks db ∧ x.package.keys = [] ∧ x.cve.keys = []
  | .packages rest => x.affected = x.locks db ∧ x.cve.keys = [] ∧
      ∃ done, packageKeys x.report.report = done ++ rest ∧
        ∀ key, key ∈ x.package.keys ↔ key ∈ done ∧ db.package.get? key = none
  | .cves rest => x.affected = x.locks db ∧ x.AllPackages db ∧
      ∃ done, x.reported = done ++ rest.map Prod.fst ∧ ∀ c, c ∈ x.cve.keys ↔ c ∈ done
  | _ => x.affected = x.locks db ∧ x.AllPackages db

/-- What a transaction reads to choose its locks is as it was. -/
structure SameReads (db db' : Db) : Prop where
  finding : db'.finding = db.finding
  package : ∀ key, db'.package.get? key = db.package.get? key

/-- The transaction is `x` some steps later, and no other has committed meanwhile. -/
structure Txn.Continues (db : Db) (x x' : Txn) : Prop where
  imageId : x'.imageId = x.imageId
  image : x'.image = x.image
  report : x'.report = x.report
  own : x'.Own
  reached : x'.Reached
  locked : x'.Locked db

theorem currentCveIds_congr (h : db'.finding = db.finding) (i : ImageId) (image : Image) :
    currentCveIds db' i image = currentCveIds db i image := by
  simp only [currentCveIds, h]

theorem Txn.Locked.advance {db₀ : Db} (hx : x.Locked db₀) (hreached : x.Reached)
    (hdb : SameReads db₀ db) (h : x.Advances blocked db db' x') : x'.Locked db₀ := by
  cases h with
  | capture hphase =>
    rw [Txn.Locked, hphase] at hx
    rw [Txn.Reached, hphase] at hreached
    refine ⟨?_, hx.1, hx.2⟩
    have hview : (x.view db).finding = db₀.finding := by
      rw [Txn.view, hreached.1]
      exact hdb.finding
    show affectedCves (x.view db) _ _ _ = affectedCves db₀ _ _ _
    rw [affectedCves, affectedCves, currentCveIds_congr hview]
  | insertRun hphase =>
    rw [Txn.Locked, hphase] at hx
    obtain ⟨haffected, hpackage, hcve⟩ := hx
    refine ⟨haffected, hcve, [], rfl, fun key => ?_⟩
    show key ∈ x.package.keys ↔ _
    rw [hpackage]
    simp
  | @knownPackage key rest hphase hknown =>
    rw [Txn.Locked, hphase] at hx
    obtain ⟨haffected, hcve, done, hdone, hpackage⟩ := hx
    refine ⟨haffected, hcve, done ++ [key], by rw [hdone, List.append_assoc]; rfl, fun key' => ?_⟩
    rw [hdb.package] at hknown
    show key' ∈ x.package.keys ↔ _
    rw [hpackage, List.mem_append, List.mem_singleton]
    refine ⟨fun h => ⟨Or.inl h.1, h.2⟩, ?_⟩
    rintro ⟨hmem | rfl, hnone⟩
    · exact ⟨hmem, hnone⟩
    · rw [hnone] at hknown
      cases hknown
  | @newPackage key rest hphase _ hnew =>
    rw [Txn.Locked, hphase] at hx
    obtain ⟨haffected, hcve, done, hdone, hpackage⟩ := hx
    refine ⟨haffected, hcve, done ++ [key], by rw [hdone, List.append_assoc]; rfl, fun key' => ?_⟩
    rw [hdb.package] at hnew
    show key' ∈ (x.package.set key db.package.next).keys ↔ _
    rw [Dict.mem_keys_set, hpackage, List.mem_append, List.mem_singleton]
    constructor
    · rintro (rfl | h)
      · exact ⟨Or.inr rfl, hnew⟩
      · exact ⟨Or.inl h.1, h.2⟩
    · rintro ⟨hmem | rfl, hnone⟩
      · exact Or.inr ⟨hmem, hnone⟩
      · exact Or.inl rfl
  | selectPackages hphase =>
    rw [Txn.Locked, hphase] at hx
    obtain ⟨haffected, hcve, done, hdone, hpackage⟩ := hx
    rw [List.append_nil] at hdone
    refine ⟨haffected, fun key => ?_, [], rfl, fun c => ?_⟩
    · show key ∈ x.package.keys ↔ key ∈ packageKeys x.report.report ∧ _
      rw [hpackage, hdone]
    · show c ∈ x.cve.keys ↔ _
      rw [hcve]
  | @upsertCve cveId values rest hphase _ =>
    rw [Txn.Locked, hphase] at hx
    obtain ⟨haffected, hpackage, done, hdone, hcve⟩ := hx
    refine ⟨haffected, hpackage, done ++ [cveId], ?_, fun c => ?_⟩
    · show x.reported = _
      rw [hdone, List.append_assoc]
      rfl
    · rw [Dict.mem_keys_set, hcve, List.mem_append, List.mem_singleton, or_comm]
  | cvesDone hphase =>
    rw [Txn.Locked, hphase] at hx
    exact ⟨hx.1, hx.2.1⟩
  | _ hphase =>
    rw [Txn.Locked, hphase] at hx
    exact hx

theorem Txn.Locked.recompute {db₀ : Db} (hx : x.Locked db₀)
    (h : x.recompute blocked db c = some x') : x'.Locked db₀ := by
  obtain ⟨sub, rest, row, hphase, -, -, -, rfl⟩ := Txn.of_recompute h
  rw [Txn.Locked, hphase] at hx
  exact hx

theorem Txn.continues_start (db : Db) (i : ImageId) (image : Image) (job : Option JobId)
    (report : AcceptedReport) (m : RunMetadata) :
    (Txn.start i image job report m).Continues db (Txn.start i image job report m) :=
  ⟨rfl, rfl, rfl, Txn.own_start i image job report m, ⟨rfl, rfl, rfl⟩, rfl, rfl⟩

theorem Txn.Advances.inputs (h : x.Advances blocked db db' x') :
    x'.imageId = x.imageId ∧ x'.image = x.image ∧ x'.report = x.report := by
  cases h <;> exact ⟨rfl, rfl, rfl⟩

theorem Txn.Advances.sameReads (h : x.Advances blocked db db' x') : SameReads db db' := by
  cases h <;> exact ⟨rfl, fun _ => rfl⟩

theorem SameReads.trans {db'' : Db} (h : SameReads db db') (h' : SameReads db' db'') :
    SameReads db db'' :=
  ⟨h'.finding.trans h.finding, fun key => (h'.package key).trans (h.package key)⟩

theorem Txn.Continues.advance {db₀ : Db} (hx : y.Continues db₀ x) (hdb : SameReads db₀ db)
    (h : x.Advances blocked db db' x') : y.Continues db₀ x' := by
  obtain ⟨himageId, himage, hreport⟩ := h.inputs
  exact ⟨himageId.trans hx.imageId, himage.trans hx.image, hreport.trans hx.report,
    hx.own.advance hx.reached h, hx.reached.advance h, hx.locked.advance hx.reached hdb h⟩

theorem Txn.Continues.recompute {db₀ : Db} (hx : y.Continues db₀ x)
    (h : x.recompute blocked db c = some x') : y.Continues db₀ x' := by
  have hown := hx.own.recompute hx.reached h
  have hreached := hx.reached.recompute h
  have hlocked := hx.locked.recompute h
  obtain ⟨sub, rest, row, -, -, -, -, rfl⟩ := Txn.of_recompute h
  exact ⟨hx.imageId, hx.image, hx.report, hown, hreached, hlocked⟩

/-! ### Held and wanted -/

/-- At any time the packages held are the new ones among the first of the report. -/
theorem Txn.Locked.packages (hx : x.Locked db) :
    ∃ done rest, packageKeys x.report.report = done ++ rest ∧
      ∀ key, key ∈ x.package.keys ↔ key ∈ done ∧ db.package.get? key = none := by
  have hall (h : x.AllPackages db) : ∃ done rest, packageKeys x.report.report = done ++ rest ∧
      ∀ key, key ∈ x.package.keys ↔ key ∈ done ∧ db.package.get? key = none :=
    ⟨_, [], (List.append_nil _).symm, h⟩
  unfold Txn.Locked at hx
  split at hx
  · exact ⟨[], _, rfl, by simp [hx.1]⟩
  · exact ⟨[], _, rfl, by simp [hx.2.1]⟩
  · next rest hphase =>
    obtain ⟨-, -, done, hdone, hpackage⟩ := hx
    exact ⟨done, rest, hdone, hpackage⟩
  · exact hall hx.2.1
  · exact hall hx.2

/-- A transaction that holds a CVE has taken all its packages; the CVEs it holds are the first of
its report, unless it has taken all of these. -/
theorem Txn.Locked.cves (hx : x.Locked db) (hreached : x.Reached) (hc : x.holds (.cve c)) :
    x.affected = x.locks db ∧ x.AllPackages db ∧
      (x.Upserted ∨ ∃ done rest, x.reported = done ++ rest ∧ ∀ c, c ∈ x.cve.keys ↔ c ∈ done) := by
  have hkey : c ∈ x.cve.keys := hc
  unfold Txn.Locked at hx
  unfold Txn.Reached at hreached
  cases hphase : x.phase with
  | opened =>
    simp only [hphase] at hx
    rw [hx.2] at hkey
    cases hkey
  | inserting =>
    simp only [hphase] at hx
    rw [hx.2.2] at hkey
    cases hkey
  | packages rest =>
    simp only [hphase] at hx
    rw [hx.2.1] at hkey
    cases hkey
  | cves rest =>
    simp only [hphase] at hx
    obtain ⟨haffected, hpackage, done, hdone, hcve⟩ := hx
    exact ⟨haffected, hpackage, Or.inr ⟨done, _, hdone, hcve⟩⟩
  | findings rest =>
    simp only [hphase] at hx hreached
    exact ⟨hx.1, hx.2, Or.inl hreached.1⟩
  | pointing =>
    simp only [hphase] at hx hreached
    exact ⟨hx.1, hx.2, Or.inl hreached⟩
  | recomputing =>
    simp only [hphase] at hx hreached
    exact ⟨hx.1, hx.2, Or.inl hreached.1⟩
  | targets sub rest =>
    simp only [hphase] at hx hreached
    exact ⟨hx.1, hx.2, Or.inl hreached.1⟩

namespace Txn.Continues

variable {key key' : PackageKey}

theorem newPackage_iff (hx : y.Continues db x) : x.NewPackage db key ↔ y.NewPackage db key := by
  rw [Txn.NewPackage, Txn.NewPackage, hx.report]

theorem locks_eq (hx : y.Continues db x) : x.locks db = y.locks db := by
  rw [Txn.locks, Txn.locks, hx.imageId, hx.image, hx.report]

theorem reported_eq (hx : y.Continues db x) : x.reported = y.reported := by
  rw [Txn.reported, Txn.reported, hx.report]

theorem newPackage (hx : y.Continues db x) (hkey : x.holds (.package key)) :
    y.NewPackage db key := by
  obtain ⟨done, rest, hdone, hpackage⟩ := hx.locked.packages
  obtain ⟨hmem, hnone⟩ := (hpackage key).mp hkey
  rw [← hx.newPackage_iff, Txn.NewPackage, hdone]
  exact ⟨List.mem_append_left _ hmem, hnone⟩

/-- Packages are locked in order. -/
theorem package_of_le (hx : y.Continues db x) (hkey : x.holds (.package key))
    (hnew : y.NewPackage db key') (hle : key' ≤ key) : x.holds (.package key') := by
  obtain ⟨done, rest, hdone, hpackage⟩ := hx.locked.packages
  have hmem : key ∈ done := ((hpackage key).mp hkey).1
  refine (hpackage key').mpr ⟨?_, hnew.2⟩
  have hsorted : (done ++ rest).Pairwise (· ≤ ·) := by
    rw [← hdone]
    exact List.pairwise_insertionSort _ _
  have hkeys : key' ∈ done ++ rest := by
    rw [← hdone, hx.report]
    exact hnew.1
  rcases List.mem_append.mp hkeys with hleft | hright
  · exact hleft
  · -- what is still to come is not smaller
    have hge : key ≤ key' := (List.pairwise_append.mp hsorted).2.2 key hmem key' hright
    rw [le_antisymm hle hge]
    exact hmem

/-- All packages are locked before the first CVE. -/
theorem package_of_cve (hx : y.Continues db x) (hc : x.holds (.cve c))
    (hnew : y.NewPackage db key) : x.holds (.package key) :=
  ((hx.locked.cves hx.reached hc).2.1 key).mpr (hx.newPackage_iff.mpr hnew)

theorem cve_mem_locks (hx : y.Continues db x) (hc : x.holds (.cve c)) : c ∈ y.locks db := by
  rw [← hx.locks_eq, ← (hx.locked.cves hx.reached hc).1]
  exact hx.own.cve c hc

/-- The first CVE of the report with a property is locked before any other CVE that has it. -/
theorem cve_of_find (hx : y.Continues db x) (hc : x.holds (.cve c)) {p : CveId → Bool}
    {first : CveId} (hfirst : y.reported.find? p = some first) (hp : p c = true) :
    x.holds (.cve first) := by
  rw [← hx.reported_eq] at hfirst
  rcases (hx.locked.cves hx.reached hc).2.2 with hupserted | ⟨done, rest, hdone, hcve⟩
  · exact hupserted first (mem_keys_cveRows.mp (List.mem_of_find?_eq_some hfirst))
  · refine (hcve first).mpr ?_
    have hmem : c ∈ done := (hcve c).mp hc
    rw [hdone, List.find?_append] at hfirst
    have hsome : (done.find? p).isSome := List.find?_isSome.mpr ⟨c, hmem, hp⟩
    obtain ⟨d, hd⟩ := Option.isSome_iff_exists.mp hsome
    rw [hd, Option.some_or] at hfirst
    rw [← Option.some.inj hfirst]
    exact List.mem_of_find?_eq_some hd

theorem wants_package (hx : y.Continues db x) (hwants : x.wants (.package key)) :
    key ∈ packageKeys y.report.report := by
  have hlocked := hx.locked
  unfold Txn.wants at hwants
  split at hwants
  case h_1 key' rest hphase =>
    rw [Txn.Locked, hphase] at hlocked
    obtain ⟨-, -, done, hdone, -⟩ := hlocked
    rw [← hx.report, hdone, Row.package.inj hwants]
    exact List.mem_append_right _ List.mem_cons_self
  case h_5 sub rest hphase =>
    obtain ⟨c, -, h⟩ := hwants
    cases h
  all_goals cases hwants

theorem wants_cve (hx : y.Continues db x) (hwants : x.wants (.cve c)) : c ∈ y.locks db := by
  have hlocked := hx.locked
  have hreached := hx.reached
  rw [← hx.locks_eq]
  unfold Txn.wants at hwants
  split at hwants
  case h_2 cveId values rest hphase =>
    rw [Txn.Locked, hphase] at hlocked
    rw [Txn.Reached, hphase] at hreached
    rw [← hlocked.1, Row.cve.inj hwants]
    exact hreached.1 _ (hreached.2.2.2 _ List.mem_cons_self)
  case h_5 sub rest hphase =>
    rw [Txn.Locked, hphase] at hlocked
    rw [Txn.Reached, hphase] at hreached
    obtain ⟨c', hc', heq⟩ := hwants
    rw [← hlocked.1, Row.cve.inj heq]
    exact hreached.2.2 c' hc'
  all_goals cases hwants

theorem wants_finding (hx : y.Continues db x) {key : FindingKey}
    (hwants : x.wants (.finding key)) : key.imageId = y.imageId := by
  have hreached := hx.reached
  unfold Txn.wants at hwants
  split at hwants
  case h_3 key' f rest hphase =>
    rw [Txn.Reached, hphase] at hreached
    rw [← hx.imageId, Row.finding.inj hwants]
    exact (hreached.2 _ List.mem_cons_self).1
  case h_5 sub rest hphase =>
    obtain ⟨c, -, h⟩ := hwants
    cases h
  all_goals cases hwants

theorem wants_image (hx : y.Continues db x) {i : ImageId} (hwants : x.wants (.image i)) :
    i = y.imageId := by
  unfold Txn.wants at hwants
  split at hwants
  case h_4 hphase =>
    rw [← hx.imageId]
    exact Row.image.inj hwants
  case h_5 sub rest hphase =>
    obtain ⟨c, -, h⟩ := hwants
    cases h
  all_goals cases hwants

theorem holds_finding (hx : y.Continues db x) {key : FindingKey} (hkey : x.holds (.finding key)) :
    key.imageId = y.imageId := by
  obtain ⟨f, hf⟩ := Dict.mem_keys_iff.mp hkey
  exact (hx.own.finding key f hf).1.trans hx.imageId

theorem holds_image (hx : y.Continues db x) {i : ImageId} (hi : x.holds (.image i)) :
    i = y.imageId := by
  obtain ⟨row, hrow⟩ := Dict.mem_keys_iff.mp hi
  exact (hx.own.image i row hrow).1.trans hx.imageId

end Txn.Continues

/-! ### The rows two transactions meet on -/

/-- A row that one transaction may hold while the other waits for it. -/
def Shared (db : Db) (x y : Txn) : Row → Prop
  | .package key => x.NewPackage db key ∧ y.NewPackage db key
  | .cve c => c ∈ x.locks db ∧ c ∈ y.locks db
  | _ => False

theorem shared_of_holds_of_wants {x₀ y₀ : Txn} {row : Row} (hx : x₀.Continues db x)
    (hy : y₀.Continues db y) (hne : x₀.imageId ≠ y₀.imageId) (hholds : x.holds row)
    (hwants : y.wants row) : Shared db x₀ y₀ row := by
  cases row with
  | package key =>
    have hnew := hx.newPackage hholds
    exact ⟨hnew, hy.wants_package hwants, hnew.2⟩
  | cve c => exact ⟨hx.cve_mem_locks hholds, hy.wants_cve hwants⟩
  | finding key => exact hne ((hx.holds_finding hholds).symm.trans (hy.wants_finding hwants))
  | image i => exact hne ((hx.holds_image hholds).symm.trans (hy.wants_image hwants))

/-- A package both insert: the one that sorts first is a gate. -/
theorem exists_gate_of_newPackage {x₀ y₀ : Txn} {key : PackageKey} (hx : x₀.NewPackage db key)
    (hy : y₀.NewPackage db key) :
    ∃ gate, x₀.NewPackage db gate ∧ y₀.NewPackage db gate ∧
      ∀ key, x₀.NewPackage db key → y₀.NewPackage db key → gate ≤ key := by
  have hne : ((packageKeys x₀.report.report).toFinset.filter fun key =>
      x₀.NewPackage db key ∧ y₀.NewPackage db key).Nonempty :=
    ⟨key, by rw [Finset.mem_filter, List.mem_toFinset]; exact ⟨hx.1, hx, hy⟩⟩
  obtain ⟨gate, hgate, hmin⟩ := Finset.exists_min_image _ id hne
  rw [Finset.mem_filter] at hgate
  refine ⟨gate, hgate.2.1, hgate.2.2, fun key hkey hkey' => ?_⟩
  exact hmin key (Finset.mem_filter.mpr ⟨List.mem_toFinset.mpr hkey.1, hkey, hkey'⟩)

/-- Whoever holds a row they share has inserted the gate. -/
theorem holds_gate_of_shared {x₀ y₀ : Txn} {gate : PackageKey} (hx : x₀.Continues db x)
    (hgate : x₀.NewPackage db gate)
    (hmin : ∀ key, x₀.NewPackage db key → y₀.NewPackage db key → gate ≤ key) {row : Row}
    (hholds : x.holds row) (hshared : Shared db x₀ y₀ row) : x.holds (.package gate) := by
  cases row with
  | package key => exact hx.package_of_le hholds hgate (hmin key hshared.1 hshared.2)
  | cve c => exact hx.package_of_cve hholds hgate
  | _ => exact hshared.elim

/-! ### Two transactions -/

/-- Two transactions about to begin cannot deadlock: they both insert some package, or there is at
most one CVE that both may lock, or the first of these in the one report is the first in the
other. -/
def Orderly (db : Db) (x y : Txn) : Prop :=
  (∃ key ∈ packageKeys x.report.report, x.NewPackage db key ∧ y.NewPackage db key) ∨
  (∀ c ∈ x.locks db, ∀ c' ∈ x.locks db, c ∈ y.locks db → c' ∈ y.locks db → c = c') ∨
  ∃ c ∈ x.locks db, x.firstShared db y = some c ∧ y.firstShared db x = some c

instance (db : Db) (x y : Txn) : Decidable (Orderly db x y) :=
  inferInstanceAs (Decidable (_ ∨ _ ∨ _))

section Pair

variable {x₀ y₀ : Txn}

theorem shared_of_wait (hne : x₀.imageId ≠ y₀.imageId) (hx : s.txns.get? t = some x)
    (hy : s.txns.get? u = some y) (hcx : x₀.Continues db x) (hcy : y₀.Continues db y) {row : Row}
    (hholds : s.holds t row) (hwants : s.wants u row) : x.holds row ∧ Shared db x₀ y₀ row := by
  obtain ⟨x', hx', hholds⟩ := hholds
  obtain ⟨y', hy', hwants⟩ := hwants
  rw [hx, Option.some.injEq] at hx'
  rw [hy, Option.some.injEq] at hy'
  subst hx' hy'
  exact ⟨hholds, shared_of_holds_of_wants hcx hcy hne hholds hwants⟩

/-- Whoever holds a CVE they share has upserted the first of them in its report. -/
theorem holds_first_of_shared {first : CveId} (hcx : x₀.Continues db x)
    (hfirst : x₀.firstShared db y₀ = some first) (hholds : x.holds (.cve c))
    (hc : c ∈ y₀.locks db) : x.holds (.cve first) :=
  hcx.cve_of_find hholds hfirst (decide_eq_true hc)

/-- **No deadlock** between transactions that came from an orderly pair. -/
theorem not_deadlocked_of_continues (hne : x₀.imageId ≠ y₀.imageId)
    (horderly : Orderly db x₀ y₀) (hex : Locks.Exclusive s.holds) (hx : s.txns.get? t = some x)
    (hy : s.txns.get? u = some y) (hcx : x₀.Continues db x) (hcy : y₀.Continues db y) :
    ¬ Locks.Deadlocked s.holds s.wants t u := by
  have hmeet : ∀ row, s.holds t row → s.wants u row → x.holds row ∧ Shared db x₀ y₀ row :=
    fun _ => shared_of_wait hne hx hy hcx hcy
  have hmeet' : ∀ row, s.holds u row → s.wants t row → y.holds row ∧ Shared db y₀ x₀ row :=
    fun _ => shared_of_wait hne.symm hy hx hcy hcx
  by_cases hpackage : ∃ key, x₀.NewPackage db key ∧ y₀.NewPackage db key
  · obtain ⟨key, hkey, hkey'⟩ := hpackage
    obtain ⟨gate, hgate, hgate', hmin⟩ := exists_gate_of_newPackage hkey hkey'
    refine Locks.not_deadlocked_of_gate hex (.package gate) (fun row hholds hwants => ?_)
      fun row hholds hwants => ?_
    · obtain ⟨hown, hshared⟩ := hmeet row hholds hwants
      exact ⟨x, hx, holds_gate_of_shared hcx hgate hmin hown hshared⟩
    · obtain ⟨hown, hshared⟩ := hmeet' row hholds hwants
      exact ⟨y, hy, holds_gate_of_shared hcy hgate' (fun k h h' => hmin k h' h) hown hshared⟩
  -- otherwise they meet on CVEs only
  rcases horderly with ⟨key, -, hkey, hkey'⟩ | hone | ⟨first, -, hfirst, hfirst'⟩
  · exact absurd ⟨key, hkey, hkey'⟩ hpackage
  · refine Locks.not_deadlocked_of_subsingleton hex (S := {row | Shared db x₀ y₀ row}) ?_
      (fun row hholds hwants => (hmeet row hholds hwants).2) fun row hholds hwants => ?_
    · rintro row hrow row' hrow'
      cases row with
      | package key => exact absurd ⟨key, hrow⟩ hpackage
      | cve c =>
        cases row' with
        | package key => exact absurd ⟨key, hrow'⟩ hpackage
        | cve c' => rw [hone c hrow.1 c' hrow'.1 hrow.2 hrow'.2]
        | _ => exact hrow'.elim
      | _ => exact hrow.elim
    · have hshared := (hmeet' row hholds hwants).2
      cases row with
      | package key => exact absurd ⟨key, hshared.2, hshared.1⟩ hpackage
      | cve c => exact ⟨hshared.2, hshared.1⟩
      | _ => exact hshared.elim
  · refine Locks.not_deadlocked_of_gate hex (.cve first) (fun row hholds hwants => ?_)
      fun row hholds hwants => ?_
    · obtain ⟨hown, hshared⟩ := hmeet row hholds hwants
      cases row with
      | package key => exact absurd ⟨key, hshared⟩ hpackage
      | cve c => exact ⟨x, hx, holds_first_of_shared hcx hfirst hown hshared.2⟩
      | _ => exact hshared.elim
    · obtain ⟨hown, hshared⟩ := hmeet' row hholds hwants
      cases row with
      | package key => exact absurd ⟨key, hshared.2, hshared.1⟩ hpackage
      | cve c => exact ⟨y, hy, holds_first_of_shared hcy hfirst' hown hshared.2⟩
      | _ => exact hshared.elim

/-! ### Runs -/

/-- Two transactions, and no third. -/
def State.pair (db : Db) (t u : TxnId) (x y : Txn) : State :=
  ⟨db, (Dict.empty.set t x).set u y⟩

/-- No transaction begins. -/
def NoStart (_ : State) : Event → Prop
  | .start .. => False
  | _ => True

instance (s : State) (e : Event) : Decidable (NoStart s e) :=
  match e with
  | .start .. => inferInstanceAs (Decidable False)
  | .next _ => inferInstanceAs (Decidable True)
  | .recompute _ _ => inferInstanceAs (Decidable True)
  | .commit _ => inferInstanceAs (Decidable True)
  | .abort _ => inferInstanceAs (Decidable True)

/-- The pair, as long as both are open. -/
structure Pending (db : Db) (t u : TxnId) (x₀ y₀ : Txn) (s : State) : Prop where
  exclusive : Locks.Exclusive s.holds
  only : ∀ v z, s.txns.get? v = some z → v = t ∨ v = u
  both : ∀ x y, s.txns.get? t = some x → s.txns.get? u = some y →
    SameReads db s.db ∧ x₀.Continues db x ∧ y₀.Continues db y

theorem Pending.set (hs : Pending db t u x₀ y₀ s) (htu : t ≠ u) {v : TxnId} {z z' : Txn}
    (hz : s.txns.get? v = some z) (hreads : SameReads s.db db')
    (hstep : ∀ z₀, SameReads db s.db → Txn.Continues db z₀ z → Txn.Continues db z₀ z')
    (hex : Locks.Exclusive (State.holds ⟨db', s.txns.set v z'⟩)) :
    Pending db t u x₀ y₀ ⟨db', s.txns.set v z'⟩ where
  exclusive := hex
  only := by
    intro w z'' hw
    rw [Dict.get?_set] at hw
    split at hw
    · next hwv =>
      rw [hwv]
      exact hs.only v z hz
    · exact hs.only w z'' hw
  both := by
    intro x y hx hy
    rcases hs.only v z hz with rfl | rfl
    · rw [Dict.get?_set_of_ne _ htu.symm] at hy
      rw [Dict.get?_set_self] at hx
      obtain ⟨hdb, hcx, hcy⟩ := hs.both z y hz hy
      rw [← Option.some.inj hx]
      exact ⟨hdb.trans hreads, hstep x₀ hdb hcx, hcy⟩
    · rw [Dict.get?_set_of_ne _ htu] at hx
      rw [Dict.get?_set_self] at hy
      obtain ⟨hdb, hcx, hcy⟩ := hs.both x z hx hz
      rw [← Option.some.inj hy]
      exact ⟨hdb.trans hreads, hcx, hstep y₀ hdb hcy⟩

/-- Once one of the two is gone there is nothing left to show. -/
theorem Pending.erase (hs : Pending db t u x₀ y₀ s) {v : TxnId} {z : Txn}
    (hz : s.txns.get? v = some z) (db' : Db) : Pending db t u x₀ y₀ ⟨db', s.txns.erase v⟩ where
  exclusive := State.exclusive_erase hs.exclusive db' v
  only := by
    intro w z' hw
    rw [Dict.get?_erase] at hw
    split at hw
    · cases hw
    · exact hs.only w z' hw
  both := by
    intro x y hx hy
    rw [Dict.get?_erase] at hx hy
    rcases hs.only v z hz with rfl | rfl
    · rw [if_pos rfl] at hx
      cases hx
    · rw [if_pos rfl] at hy
      cases hy

theorem pending_step (htu : t ≠ u) (hs : Pending db t u x₀ y₀ s) {e : Event} (he : NoStart s e)
    (h : step s e = some s') : Pending db t u x₀ y₀ s' := by
  have hex := exclusive_step hs.exclusive h
  cases e with
  | start => exact he.elim
  | next v =>
    obtain ⟨z, db', z', hz, hadv, rfl⟩ := step_next h
    exact hs.set htu hz hadv.sameReads (fun _ hdb hcz => hcz.advance hdb hadv) hex
  | recompute v c =>
    obtain ⟨z, z', hz, hrec, rfl⟩ := step_recompute h
    exact hs.set htu hz ⟨rfl, fun _ => rfl⟩ (fun _ _ hcz => hcz.recompute hrec) hex
  | commit v =>
    obtain ⟨z, sub, hz, -, rfl⟩ := step_commit h
    exact hs.erase hz _
  | abort v =>
    obtain ⟨z, hz, rfl⟩ := step_abort h
    exact hs.erase hz _

theorem get?_pair (db : Db) (t u : TxnId) (x y : Txn) (v : TxnId) :
    (State.pair db t u x y).txns.get? v
      = if v = u then some y else if v = t then some x else none := by
  rw [State.pair, Dict.get?_set, Dict.get?_set, Dict.get?_empty]

theorem pending_pair (htu : t ≠ u) (hx : x₀.Continues db x₀) (hy : y₀.Continues db y₀)
    (hfree : ∀ row, ¬ x₀.holds row) (hfree' : ∀ row, ¬ y₀.holds row) :
    Pending db t u x₀ y₀ (State.pair db t u x₀ y₀) where
  exclusive := by
    rintro v w row ⟨z, hz, hrow⟩
    rw [get?_pair] at hz
    split at hz
    · rw [← Option.some.inj hz] at hrow
      exact absurd hrow (hfree' row)
    · split at hz
      · rw [← Option.some.inj hz] at hrow
        exact absurd hrow (hfree row)
      · cases hz
  only := by
    intro v z hz
    rw [get?_pair] at hz
    split at hz
    · next hv => exact Or.inr hv
    · split at hz
      · next hv => exact Or.inl hv
      · cases hz
  both := by
    intro x y hx' hy'
    rw [get?_pair, if_neg htu, if_pos rfl] at hx'
    rw [get?_pair, if_pos rfl] at hy'
    rw [← Option.some.inj hx', ← Option.some.inj hy']
    exact ⟨⟨rfl, fun _ => rfl⟩, hx, hy⟩

end Pair

/-- **Two successes that begin orderly never deadlock**, in whatever order their rows are taken. -/
theorem not_deadlocked_run (htu : t ≠ u) {i j : ImageId} (hij : i ≠ j) {image image' : Image}
    {job job' : Option JobId} {report report' : AcceptedReport} {m m' : RunMetadata}
    (horderly : Orderly db (Txn.start i image job report m)
      (Txn.start j image' job' report' m'))
    (h : Reaches step NoStart (State.pair db t u (Txn.start i image job report m)
      (Txn.start j image' job' report' m')) s) :
    ¬ Locks.Deadlocked s.holds s.wants t u := by
  have hs := h.invariant (I := Pending db t u (Txn.start i image job report m)
      (Txn.start j image' job' report' m'))
    (fun _ _ _ hs he hstep => pending_step htu hs he hstep)
    (pending_pair htu (Txn.continues_start db i image job report m)
      (Txn.continues_start db j image' job' report' m') Txn.not_holds_start Txn.not_holds_start)
  intro hdead
  obtain ⟨-, ⟨row, ⟨x, hx, -⟩, ⟨y, hy, -⟩⟩, -⟩ := id hdead
  obtain ⟨-, hcx, hcy⟩ := hs.both x y hx hy
  exact not_deadlocked_of_continues hij horderly hs.exclusive hx hy hcx hcy hdead

/-! ### Two reports, two orders -/

def scanMetadata : RunMetadata := ⟨none, none, none, none, 0, second⟩

/-- The transaction that writes a report for a registered image. -/
def firstScan (i : ImageId) (reference : String × String)
    (entries : List (String × String × String)) : Txn :=
  Txn.start i (Image.registered 0 reference) none (AcceptedReport.debian entries) scanMetadata

/-- Both reports start with the CVE they share first. -/
theorem not_deadlocked_run_sameOrder :
    ∃ s, execute (restrict step NoStart) (State.pair (Db.seeded 0 briefImages) 1 2
        (firstScan 1 ("nginx", "1.19")
          [("CVE-A", "openssl", "HIGH"), ("CVE-B", "openssl", "HIGH")])
        (firstScan 2 ("postgres", "12") [("CVE-A", "zlib", "HIGH"), ("CVE-B", "zlib", "HIGH")]))
        (List.replicate 6 (.next 1) ++ List.replicate 4 (.next 2)) = some s ∧
      (s.wants 2 (.cve "CVE-A") ∧ s.holds 1 (.cve "CVE-A")) ∧
      ¬ Locks.Deadlocked s.holds s.wants 1 2 := by
  have hrun : ((execute (restrict step NoStart) (State.pair (Db.seeded 0 briefImages) 1 2
      (firstScan 1 ("nginx", "1.19")
        [("CVE-A", "openssl", "HIGH"), ("CVE-B", "openssl", "HIGH")])
      (firstScan 2 ("postgres", "12") [("CVE-A", "zlib", "HIGH"), ("CVE-B", "zlib", "HIGH")]))
      (List.replicate 6 (.next 1) ++ List.replicate 4 (.next 2))).any fun s =>
        decide (s.wants 2 (.cve "CVE-A") ∧ s.holds 1 (.cve "CVE-A"))) = true := by decide
  obtain ⟨s, hs, hwaits⟩ := (Option.any_eq_true _ _).mp hrun
  exact ⟨s, hs, of_decide_eq_true hwaits,
    not_deadlocked_run (by decide) (by decide) (by decide) (reaches_of_execute hs)⟩

/-- Each transaction has upserted the CVE that the other comes to next. -/
theorem deadlocked_run_otherOrder :
    ¬ ∀ (db : Db) (t u : TxnId) (i j : ImageId) (image image' : Image) (job job' : Option JobId)
      (report report' : AcceptedReport) (m m' : RunMetadata) (s : State), t ≠ u → i ≠ j →
      Reaches step NoStart (State.pair db t u (Txn.start i image job report m)
        (Txn.start j image' job' report' m')) s →
      ¬ Locks.Deadlocked s.holds s.wants t u := by
  intro hall
  have hrun : ((execute (restrict step NoStart) (State.pair (Db.seeded 0 briefImages) 1 2
      (firstScan 1 ("nginx", "1.19")
        [("CVE-A", "openssl", "HIGH"), ("CVE-B", "openssl", "HIGH")])
      (firstScan 2 ("postgres", "12") [("CVE-B", "zlib", "HIGH"), ("CVE-A", "zlib", "HIGH")]))
      (List.replicate 5 (.next 1) ++ List.replicate 5 (.next 2))).any fun s =>
        decide ((s.wants 1 (.cve "CVE-B") ∧ s.holds 2 (.cve "CVE-B")) ∧
          s.wants 2 (.cve "CVE-A") ∧ s.holds 1 (.cve "CVE-A"))) = true := by decide
  obtain ⟨s, hs, hwaits⟩ := (Option.any_eq_true _ _).mp hrun
  obtain ⟨hfirst, hsecond⟩ := of_decide_eq_true hwaits
  exact hall _ 1 2 1 2 _ _ none none _ _ scanMetadata scanMetadata s (by decide) (by decide)
    (reaches_of_execute hs) ⟨by decide, ⟨_, hfirst⟩, _, hsecond⟩

end Concurrency

end ContainerScanner
