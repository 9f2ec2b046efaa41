import Mathlib.Tactic.Common

/-!
# Database sessions

A program on a session of a database. A statement sees what the open transaction has written, a
commit stores it, and a rollback discards it with whatever the session's objects have become. What
uses no database opens no transaction.

Any statement may raise, and what it has done by then is of no account: a transaction is open, and
only a rollback gets out of it. `Ensures` says what holds of the session when a program returns, and
what holds when it raises.

## Main definitions

* `Session`, `Fault`, `Work` — a session, a statement that raises, a program
* `consult`, `statement`, `perform`, `commit`, `rollback` — what a program is made of
* `At` — where a session stands
* `Ensures` — what a program ensures, returning or raising
* `Clean`, `Began`, `Undoable` — how far a session is from the stored state

## Main results

* `ensures_read`, `ensures_write`, `ensures_commit_clean`, `ensures_commit` — each construct leaves
  the stored state within reach of a rollback
* `Undoable.rollback` — the rollback gets there
* `At.statement_bind`, `At.commit_bind` — a program that returned, run step by step
-/

namespace Foundation

variable {δ ο ε α β : Type}

/-- A statement that raises, and what it leaves of the open transaction. -/
structure Fault (δ ο ε : Type) where
  raised : ε
  working : δ
  objects : ο

structure Session (δ ο ε : Type) where
  /-- What was committed last. -/
  stored : δ
  /-- What the next statement sees. -/
  working : δ
  /-- Is a transaction open? -/
  inTransaction : Bool
  /-- The objects of the identity map, as they are now. -/
  objects : ο
  /-- What the coming statements run into, none past the end. -/
  faults : List (Option (Fault δ ο ε))

/-- A program on a session. An exception leaves the session as it is. -/
abbrev Work (δ ο ε α : Type) : Type := EStateM ε (Session δ ο ε) α

/-- What the next statement runs into. -/
def Session.fault? (s : Session δ ο ε) : Option (Fault δ ο ε) := s.faults.head?.join

/-- The session in which a statement has raised. -/
def Session.broken (s : Session δ ο ε) (fault : Fault δ ο ε) : Session δ ο ε where
  stored := s.stored
  working := fault.working
  inTransaction := true
  objects := fault.objects
  faults := s.faults.tail

/-- What a rollback does: `restore stored working` is the stored state again, as far as a rollback
undoes anything, and `refresh` reads the objects again. -/
structure Recovery (δ ο : Type) where
  restore : δ → δ → δ
  refresh : δ → ο → ο
  /-- The objects are as they are stored. -/
  Fresh : δ → ο → Prop
  restore_self : ∀ db, restore db db = db
  fresh_restore : ∀ {db o} (w), Fresh db o → Fresh (restore db w) o
  fresh_refresh : ∀ {db o} (o'), Fresh db o → Fresh db (refresh db o')

/-! ### What a program is made of -/

/-- What uses no database: a subprocess, a file, the network. -/
def consult (r : Except ε α) : Work δ ο ε α := fun s =>
  match r with
  | .ok a => .ok a s
  | .error e => .error e s

/-- A statement that does not raise. -/
def perform (f : δ → ο → α × δ × ο) : Work δ ο ε α := fun s =>
  let r := f s.working s.objects
  .ok r.1 { s with working := r.2.1, inTransaction := true, objects := r.2.2 }

def statement (f : δ → ο → α × δ × ο) : Work δ ο ε α := fun s =>
  match s.fault? with
  | some fault => .error fault.raised (s.broken fault)
  | none => perform f { s with faults := s.faults.tail }

/-- A commit that does not raise. -/
def commitNow : Work δ ο ε Unit := fun s =>
  .ok () { s with stored := s.working, inTransaction := false }

/-- A commit that raises has committed nothing. -/
def commit : Work δ ο ε Unit := fun s =>
  match s.fault? with
  | some fault => .error fault.raised (s.broken fault)
  | none => commitNow { s with faults := s.faults.tail }

/-- With no transaction open there is nothing to roll back, and no object is expired. -/
def rollback (recovery : Recovery δ ο) : Work δ ο ε Unit := fun s =>
  if s.inTransaction then
    let restored := recovery.restore s.stored s.working
    .ok () { s with
      stored := restored
      working := restored
      inTransaction := false
      objects := recovery.refresh restored s.objects }
  else .ok () s

/-- The exception a program ended in. -/
def raised? : EStateM.Result ε (Session δ ο ε) α → Option ε
  | .ok _ _ => none
  | .error e _ => some e

/-- What is stored when a program has ended, either way. -/
def storedAfter : EStateM.Result ε (Session δ ο ε) α → δ
  | .ok _ s => s.stored
  | .error _ s => s.stored

theorem of_raised?_eq_some {r : EStateM.Result ε (Session δ ο ε) α} {e : ε}
    (h : raised? r = some e) : ∃ s, r = .error e s := by
  cases r with
  | ok a s => cases h
  | error e' s => exact ⟨s, by rw [Option.some.inj h]⟩

section Equations

variable {σ : Type} {t t' : σ} {s : Session δ ο ε}

theorem bind_of_ok {x : EStateM ε σ α} {f : α → EStateM ε σ β} {a : α} (h : x t = .ok a t') :
    (x >>= f) t = f a t' := by
  show EStateM.bind x f t = _
  rw [EStateM.bind, h]

theorem bind_of_error {x : EStateM ε σ α} {f : α → EStateM ε σ β} {e : ε} (h : x t = .error e t') :
    (x >>= f) t = .error e t' := by
  show EStateM.bind x f t = _
  rw [EStateM.bind, h]

/-- A handler starts from the state in which the exception was raised. -/
theorem tryCatch_of_error {x : EStateM ε σ α} {e : ε} (h : x t = .error e t')
    (handle : ε → EStateM ε σ α) : tryCatch x handle t = handle e t' := by
  show EStateM.tryCatch x handle t = _
  rw [EStateM.tryCatch, h]
  rfl

theorem tryCatch_bind_of_error {x : EStateM ε σ α} {e : ε} (h : x t = .error e t')
    (handle : ε → EStateM ε σ α) (g : α → EStateM ε σ β) :
    (tryCatch x handle >>= g) t = (handle e >>= g) t' := by
  show EStateM.bind _ _ _ = EStateM.bind _ _ _
  rw [EStateM.bind, EStateM.bind, tryCatch_of_error h]

theorem tryCatch_of_ok {x : EStateM ε σ α} {a : α} (h : x t = .ok a t')
    (handle : ε → EStateM ε σ α) : tryCatch x handle t = .ok a t' := by
  show EStateM.tryCatch x handle t = _
  rw [EStateM.tryCatch, h]

theorem perform_bind (f : δ → ο → α × δ × ο) (g : α → Work δ ο ε β) :
    (perform f >>= g) s = g (f s.working s.objects).1
      { s with
        working := (f s.working s.objects).2.1
        inTransaction := true
        objects := (f s.working s.objects).2.2 } := rfl

theorem commitNow_bind (g : Unit → Work δ ο ε β) :
    (commitNow >>= g) s = g () { s with stored := s.working, inTransaction := false } := rfl

end Equations

/-! ### Programs that return -/

/-- Where a session stands, whatever the coming statements will run into. -/
structure At (stored working : δ) (objects : ο) (s : Session δ ο ε) : Prop where
  stored : s.stored = stored
  working : s.working = working
  objects : s.objects = objects

section Returning

variable {s s' : Session δ ο ε} {stored working : δ} {objects : ο} {b : β}

theorem of_bind_eq_ok {x : Work δ ο ε α} {g : α → Work δ ο ε β} (h : (x >>= g) s = .ok b s') :
    ∃ a t, x s = .ok a t ∧ g a t = .ok b s' := by
  cases hx : x s with
  | ok a t =>
    rw [bind_of_ok hx] at h
    exact ⟨a, t, rfl, h⟩
  | error e t =>
    rw [bind_of_error hx] at h
    cases h

theorem of_consult_bind_eq_ok {r : Except ε α} {g : α → Work δ ο ε β}
    (h : (consult r >>= g) s = .ok b s') : ∃ a, r = .ok a ∧ g a s = .ok b s' := by
  cases r with
  | ok a => exact ⟨a, rfl, h⟩
  | error e => cases h

/-- A statement that has returned did what it does. -/
theorem At.statement (hs : At stored working objects s) {f : δ → ο → α × δ × ο} {a : α}
    (h : Foundation.statement f s = .ok a s') :
    a = (f working objects).1 ∧ At stored (f working objects).2.1 (f working objects).2.2 s' := by
  obtain ⟨rfl, rfl, rfl⟩ := hs
  rw [Foundation.statement] at h
  split at h
  · cases h
  · cases h
    exact ⟨rfl, rfl, rfl, rfl⟩

theorem At.statement_bind (hs : At stored working objects s) {f : δ → ο → α × δ × ο}
    {g : α → Work δ ο ε β} (h : (Foundation.statement f >>= g) s = .ok b s') :
    ∃ t, At stored (f working objects).2.1 (f working objects).2.2 t ∧
      g (f working objects).1 t = .ok b s' := by
  obtain ⟨a, t, hstatement, h⟩ := of_bind_eq_ok h
  obtain ⟨rfl, ht⟩ := hs.statement hstatement
  exact ⟨t, ht, h⟩

theorem At.commit (hs : At stored working objects s) {a : Unit}
    (h : Foundation.commit s = .ok a s') : At working working objects s' := by
  obtain ⟨rfl, rfl, rfl⟩ := hs
  rw [Foundation.commit] at h
  split at h
  · cases h
  · cases h
    exact ⟨rfl, rfl, rfl⟩

theorem At.commit_bind (hs : At stored working objects s) {g : Unit → Work δ ο ε β}
    (h : (Foundation.commit >>= g) s = .ok b s') :
    ∃ t, At working working objects t ∧ g () t = .ok b s' := by
  obtain ⟨a, t, hcommit, h⟩ := of_bind_eq_ok h
  exact ⟨t, hs.commit hcommit, h⟩

end Returning

/-! ### What a program ensures -/

/-- From a session with `pre` the program returns with `post` or raises with `raised`. -/
def Ensures (pre : Session δ ο ε → Prop) (x : Work δ ο ε α) (post : α → Session δ ο ε → Prop)
    (raised : Session δ ο ε → Prop) : Prop :=
  ∀ s, pre s →
    match x s with
    | .ok a s' => post a s'
    | .error _ s' => raised s'

variable {pre pre' raised : Session δ ο ε → Prop} {post : α → Session δ ο ε → Prop}
  {x : Work δ ο ε α}

theorem Ensures.mono (h : Ensures pre x post raised) (hpre : ∀ s, pre' s → pre s) :
    Ensures pre' x post raised :=
  fun s hs => h s (hpre s hs)

theorem Ensures.of_error (h : Ensures pre x post raised) {s s' : Session δ ο ε} {e : ε}
    (hs : pre s) (hx : x s = .error e s') : raised s' := by
  simpa only [hx] using h s hs

theorem Ensures.bind {f : α → Work δ ο ε β} {after : β → Session δ ο ε → Prop}
    (hx : Ensures pre x post raised) (hf : ∀ a, Ensures (post a) (f a) after raised) :
    Ensures pre (x >>= f) after raised := by
  intro s hs
  have hs' := hx s hs
  show match EStateM.bind x f s with
    | .ok b s' => after b s'
    | .error _ s' => raised s'
  rw [EStateM.bind]
  cases hres : x s with
  | ok a s' =>
    simp only [hres] at hs' ⊢
    exact hf a s' hs'
  | error e s' =>
    simp only [hres] at hs'
    exact hs'

/-- What uses no database changes nothing. -/
theorem ensures_consult {r : Except ε α} (h : ∀ s, pre s → raised s) :
    Ensures pre (consult r) (fun _ => pre) raised := by
  intro s hs
  cases r with
  | ok a => exact hs
  | error e => exact h s hs

theorem ensures_statement {f : δ → ο → α × δ × ο}
    (hraises : ∀ s fault, pre s → raised (s.broken fault))
    (hreturns : ∀ s, pre s → post (f s.working s.objects).1
      { s with
        working := (f s.working s.objects).2.1
        inTransaction := true
        objects := (f s.working s.objects).2.2
        faults := s.faults.tail }) :
    Ensures pre (statement f) post raised := by
  intro s hs
  rw [statement]
  split
  · next hres =>
    split at hres
    · cases hres
    · cases hres
      exact hreturns s hs
  · next hres =>
    split at hres
    · next fault _ =>
      cases hres
      exact hraises s fault hs
    · cases hres

theorem ensures_commit_of {post : Unit → Session δ ο ε → Prop}
    (hraises : ∀ s fault, pre s → raised (s.broken fault))
    (hreturns : ∀ s, pre s → post ()
      { s with stored := s.working, inTransaction := false, faults := s.faults.tail }) :
    Ensures pre commit post raised := by
  intro s hs
  rw [commit]
  split
  · next hres =>
    split at hres
    · cases hres
    · cases hres
      exact hreturns s hs
  · next hres =>
    split at hres
    · next fault _ =>
      cases hres
      exact hraises s fault hs
    · cases hres

/-! ### Within reach of a rollback -/

/-- Nothing was written, and the objects are as they are stored. -/
structure Clean (recovery : Recovery δ ο) (db : δ) (s : Session δ ο ε) : Prop where
  stored : s.stored = db
  working : s.working = db
  fresh : recovery.Fresh db s.objects

/-- A transaction is open. -/
structure Began (db : δ) (s : Session δ ο ε) : Prop where
  stored : s.stored = db
  inTransaction : s.inTransaction = true

/-- A rollback gets back to the stored state. -/
def Undoable (recovery : Recovery δ ο) (db : δ) (s : Session δ ο ε) : Prop :=
  Clean recovery db s ∨ Began db s

variable {recovery : Recovery δ ο} {db : δ}

theorem Undoable.stored {s : Session δ ο ε} (h : Undoable recovery db s) : s.stored = db := by
  obtain hclean | hbegan := h
  · exact hclean.stored
  · exact hbegan.stored

theorem undoable_broken {s : Session δ ο ε} (fault : Fault δ ο ε) (h : Undoable recovery db s) :
    Undoable recovery db (s.broken fault) :=
  Or.inr ⟨h.stored, rfl⟩

/-- A statement that only reads. -/
theorem ensures_read {f : δ → ο → α × δ × ο}
    (hf : ∀ o, recovery.Fresh db o → (f db o).2.1 = db ∧ recovery.Fresh db (f db o).2.2) :
    Ensures (ε := ε) (Clean recovery db) (statement f) (fun _ => Clean recovery db)
      (Undoable recovery db) := by
  refine ensures_statement (fun s fault hs => undoable_broken fault (Or.inl hs)) fun s hs => ?_
  obtain ⟨hworking, hfresh⟩ := hf s.objects hs.fresh
  rw [hs.working]
  exact ⟨hs.stored, hworking, hfresh⟩

/-- Any statement, once it is no longer known that nothing was written. -/
theorem ensures_write (f : δ → ο → α × δ × ο) :
    Ensures (ε := ε) (Undoable recovery db) (statement f) (fun _ => Undoable recovery db)
      (Undoable recovery db) :=
  ensures_statement (fun _ fault hs => undoable_broken fault hs) fun _ hs =>
    Or.inr ⟨hs.stored, rfl⟩

/-- The end of a transaction that has only read. -/
theorem ensures_commit_clean :
    Ensures (ε := ε) (Clean recovery db) commit (fun _ => Clean recovery db)
      (Undoable recovery db) := by
  refine ensures_commit_of (fun s fault hs => undoable_broken fault (Or.inl hs)) fun s hs => ?_
  exact ⟨hs.working, hs.working, hs.fresh⟩

theorem ensures_commit :
    Ensures (ε := ε) (Undoable recovery db) commit (fun _ _ => True) (Undoable recovery db) :=
  ensures_commit_of (fun _ fault hs => undoable_broken fault hs) fun _ _ => trivial

/-- **The rollback rule.** -/
theorem Undoable.rollback {s : Session δ ο ε} (h : Undoable recovery db s) {o : ο}
    (ho : recovery.Fresh db o) :
    ∃ w s', Foundation.rollback recovery s = .ok () s' ∧
      Clean recovery (recovery.restore db w) s' := by
  by_cases hopen : s.inTransaction = true
  · refine ⟨s.working, _, if_pos hopen, ?_, ?_, ?_⟩
    · rw [h.stored]
    · rw [h.stored]
    · rw [h.stored]
      exact recovery.fresh_refresh s.objects (recovery.fresh_restore s.working ho)
  · obtain hclean | hbegan := h
    · refine ⟨db, s, if_neg hopen, ?_⟩
      rw [recovery.restore_self]
      exact hclean
    · exact absurd hbegan.inTransaction hopen

end Foundation
