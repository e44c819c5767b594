import Geofastmap.Bulk.Hold
import Geofastmap.Bulk.Orphans

/-!
# Geofastmap.Bulk.Mutex

The mutex of a collection, over all interleavings of workers, watchdog and reclaim passes, cancels
and job updates.

A release reads the lock and deletes it in two commands, and every terminal job update releases the
lock of its job, whether or not a worker still imports for it. So imports exclude each other in the
runs where no release of a job's lock overlaps an import or another release for that job, and no
lock expires under either (`MutexCondition`).

* `MutexInv` : who stands for a lock holds it, and who is about to delete it stands alone.
* `mutex_exclusive` : the runs that meet the condition.
-/

namespace Geofastmap
namespace Bulk

open Db Interleave

/-- The interleavings in which the mutex works: when a release reads the lock of its job, no other
program imports or releases for it; when a worker finds the lock to be its job's already, no
program is about to delete it; and a lock expires only when no program stands for it. -/
def MutexCondition : Condition Label Sys Hold := fun l s φ φs =>
  match l with
  | .mutex .get c j => s.holder c = some j → ∀ ψ ∈ φs, ψ.lock ≠ some (c, j)
  | .mutex .own c j => s.holder c = some j → ∀ ψ ∈ φs, ψ ≠ .releasing c j
  | .mutex .expire c _ => ∀ ψ ∈ φ :: φs, ψ.lock.map Prod.fst ≠ some c
  | _ => True

inductive MutexTask where
  | work (payload : BulkJobPayload)
  | watchdog (failStaleRunning : Option Bool)
  | reclaimAll
  | reclaim (c : CollectionId)
  | cancel (j : JobId)
  | update (j : JobId) (u : JobUpdate)
  | expire (c : CollectionId) (j : JobId)
  /-- A step of another service, of the clock or of the database. -/
  | elsewhere (g : Sys → Sys) (hg : ∀ s, (g s).mutex = s.mutex)

def MutexTask.entry (H : Digest) (cfg : Settings) (files : Files) : MutexTask → Work Unit
  | .work payload => processBulkJob H cfg files payload
  | .watchdog fail => runBulkWatchdogPass cfg fail
  | .reclaimAll => reclaimAllStaleBulkMutexes cfg
  | .reclaim c => reclaimStaleCollectionBulkMutex cfg c
  | .cancel j => cancelJob cfg j
  | .update j u => updateJob cfg j u
  | .expire c j => Prog.write (.mutex .expire c j) fun s => s.freeMutex c
  | .elsewhere g _ => Prog.write .redis g

theorem restores_entry (H : Digest) (cfg : Settings) (files : Files) (a : MutexTask) :
    Restores holdState .idle (a.entry H cfg files) := by
  cases a with
  | work payload => exact typed_processBulkJob payload
  | watchdog fail => exact restores_watchdog fail
  | reclaimAll => exact restores_reclaimAll
  | reclaim c => exact restores_reclaim
  | cancel j => exact restores_cancelJob
  | update j u => exact restores_updateJob u
  | expire c j => exact Prog.Typed.write (fun _ => rfl) (fun _ => rfl) fun _ => rfl
  | elsewhere g hg => exact restores_write (by simp) hg

/-! ## The invariant -/

/-- Who stands for a lock holds it. -/
def Hold.Held (s : Sys) (φ : Hold) : Prop := ∀ c j, φ.lock = some (c, j) → s.holder c = some j

def Hold.isReleasing : Hold → Bool
  | .releasing _ _ => true
  | _ => false

/-- Who is about to delete a lock stands for it alone. -/
def Hold.Apart (φ ψ : Hold) : Prop :=
  φ.isReleasing = true ∨ ψ.isReleasing = true → φ.lock ≠ ψ.lock

def MutexInv (s : Sys) (φs : List Hold) : Prop :=
  (∀ φ ∈ φs, φ.Held s) ∧ φs.Pairwise Hold.Apart

theorem Hold.Apart.symm {φ ψ : Hold} (h : φ.Apart ψ) : ψ.Apart φ :=
  fun hr he => h hr.symm he.symm

theorem Hold.held_idle (s : Sys) : Hold.idle.Held s := fun _ _ h => by cases h

theorem Hold.apart_idle (ψ : Hold) : Hold.idle.Apart ψ := by
  intro hr he
  cases ψ <;> simp_all [Hold.isReleasing, Hold.lock]

theorem Hold.Held.congr {s t : Sys} (h : t.mutex = s.mutex) {φ : Hold} (hφ : φ.Held s) :
    φ.Held t := by
  intro c j hl
  simpa [Sys.holder, h] using hφ c j hl

theorem holder_freeMutex (s : Sys) (c d : CollectionId) :
    (s.freeMutex c).holder d = if d = c then none else s.holder d :=
  lookup_filter s.mutex d c

theorem holder_takeMutex {s : Sys} {c : CollectionId} (j : JobId) (h : (s.holder c).isNone = true)
    (d : CollectionId) : (s.takeMutex c j).holder d = if d = c then some j else s.holder d := by
  have ht : (s.takeMutex c j).mutex = (c, j) :: s.mutex := by simp [Sys.takeMutex, h]
  rw [Sys.holder, ht, List.lookup_cons]
  by_cases hd : d = c
  · simp [hd]
  · have : (d == c) = false := by simpa using hd
    simp [this, hd, Sys.holder]

/-- An own state for another collection does not see the lock go. -/
theorem Hold.Held.free {s : Sys} {φ : Hold} (hφ : φ.Held s) {c : CollectionId}
    (hc : φ.lock.map Prod.fst ≠ some c) : φ.Held (s.freeMutex c) := by
  intro d j hl
  rw [holder_freeMutex]
  have hd : d ≠ c := by
    rintro rfl
    exact hc (by simp [hl])
  simpa [hd] using hφ d j hl

theorem Hold.Held.take {s : Sys} {φ : Hold} (hφ : φ.Held s) (c : CollectionId) (j : JobId) :
    φ.Held (s.takeMutex c j) := by
  by_cases hfree : (s.holder c).isNone = true
  · intro d i hl
    rw [holder_takeMutex j hfree]
    have hd : d ≠ c := by
      rintro rfl
      simp [hφ d i hl] at hfree
    simpa [hd] using hφ d i hl
  · simpa [Sys.takeMutex, hfree] using hφ

/-- The others keep what they have, and the program that moves gets a state that fits. -/
theorem MutexInv.move {s t : Sys} {φ ψ : Hold} {φs : List Hold} (h : MutexInv s (φ :: φs))
    (hothers : ∀ χ ∈ φs, χ.Held s → χ.Held t) (hψ : ψ.Held t) (hap : ∀ χ ∈ φs, ψ.Apart χ) :
    MutexInv t (ψ :: φs) := by
  obtain ⟨hheld, hpair⟩ := h
  refine ⟨fun χ hχ => ?_, List.pairwise_cons.mpr ⟨hap, (List.pairwise_cons.mp hpair).2⟩⟩
  rcases List.mem_cons.mp hχ with rfl | hχ
  · exact hψ
  · exact hothers χ hχ (hheld χ (by simp [hχ]))

theorem MutexInv.toIdle {s t : Sys} {φ : Hold} {φs : List Hold} (h : MutexInv s (φ :: φs))
    (hothers : ∀ χ ∈ φs, χ.Held s → χ.Held t) : MutexInv t (.idle :: φs) :=
  h.move hothers (Hold.held_idle t) fun χ _ => Hold.apart_idle χ

/-- While a program is about to delete a lock, the others stand for other collections. -/
theorem MutexInv.others_of_releasing {s : Sys} {c : CollectionId} {j : JobId} {φs : List Hold}
    (h : MutexInv s (.releasing c j :: φs)) {χ : Hold} (hχ : χ ∈ φs) :
    χ.lock.map Prod.fst ≠ some c := by
  intro hc
  obtain ⟨⟨d, i⟩, hl, rfl⟩ := Option.map_eq_some_iff.mp hc
  have hj : s.holder d = some j := h.1 (.releasing d j) (by simp) d j rfl
  have hi : s.holder d = some i := h.1 χ (by simp [hχ]) d i hl
  have hij : j = i := Option.some.inj (hj.symm.trans hi)
  have hap := (List.pairwise_cons.mp h.2).1 χ hχ
  exact hap (.inl rfl) (by rw [hl, ← hij]; rfl)

theorem MutexInv.free {s : Sys} {c : CollectionId} {j : JobId} {φs : List Hold}
    (h : MutexInv s (.releasing c j :: φs)) : MutexInv (s.freeMutex c) (.idle :: φs) :=
  h.toIdle fun _ hχ hh => hh.free (h.others_of_releasing hχ)

theorem MutexInv.expire {s : Sys} {c : CollectionId} {φ : Hold} {φs : List Hold}
    (h : MutexInv s (φ :: φs)) (hc : ∀ ψ ∈ φ :: φs, ψ.lock.map Prod.fst ≠ some c) :
    MutexInv (s.freeMutex c) (φ :: φs) := by
  refine h.move (fun χ hχ hh => hh.free (hc χ (by simp [hχ]))) ?_ (List.pairwise_cons.mp h.2).1
  exact (h.1 φ (by simp)).free (hc φ (by simp))

theorem MutexInv.leave {s t : Sys} (ht : t.mutex = s.mutex) {φs : List Hold}
    (h : MutexInv s φs) : MutexInv t φs :=
  ⟨fun φ hφ => (h.1 φ hφ).congr ht, h.2⟩

theorem mutexInv_step {l : Label} {g : Sys → Sys} {s : Sys} {φ : Hold} {φs : List Hold}
    (h : MutexInv s (φ :: φs)) (hl : holdState.allows φ l g) (hm : MutexCondition l s φ φs) :
    MutexInv (g s) (holdState.after l s φ :: φs) := by
  cases l with
  | mutex op c j =>
    cases op with
    | take =>
      obtain ⟨rfl, hg⟩ := hl
      rw [hg]
      by_cases hfree : (s.holder c).isNone = true
      · simp only [holdState, hfree, if_true]
        refine h.move (fun χ _ hh => hh.take c j) ?_ fun χ hχ hr he => ?_
        · rintro d i ⟨⟩
          rw [holder_takeMutex j hfree]
          simp
        · have hheld := h.1 χ (by simp [hχ]) c j he.symm
          simp [hheld] at hfree
      · simp only [holdState, Sys.takeMutex, hfree]
        exact h
    | own =>
      obtain ⟨rfl, hg⟩ := hl
      rw [hg]
      by_cases hown : s.holder c = some j
      · simp only [holdState, hown, if_true]
        refine h.move (fun _ _ hh => hh) ?_ fun χ hχ hr he => ?_
        · rintro d i ⟨⟩
          exact hown
        · have hne := hm hown χ hχ
          cases χ with
          | releasing d i => cases he; exact hne rfl
          | idle => cases he
          | importing d i => simp [Hold.isReleasing] at hr
      · simpa [holdState, hown] using h
    | get =>
      obtain ⟨rfl, hg⟩ := hl
      rw [hg]
      by_cases hown : s.holder c = some j
      · simp only [holdState, hown, if_true]
        refine h.move (fun _ _ hh => hh) ?_ fun χ hχ _ he => hm hown χ hχ he.symm
        rintro d i ⟨⟩
        exact hown
      · simpa [holdState, hown] using h
    | finish =>
      rw [hl]
      exact h.toIdle fun _ _ hh => hh
    | del =>
      obtain ⟨rfl, hg⟩ := hl
      rw [hg]
      exact h.free
    | expire =>
      rw [hl]
      exact h.expire hm
  | _ => exact h.leave (hl s)

theorem mutexInv_late {l : Label} {g : Sys → Sys} {s : Sys} {φ : Hold} {φs : List Hold}
    (h : MutexInv s (φ :: φs)) (hl : holdState.allows φ l g) (hm : MutexCondition l s φ φs) :
    MutexInv (g s) (holdState.failed l φ :: φs) := by
  cases l with
  | mutex op c j =>
    cases op with
    | take =>
      obtain ⟨rfl, hg⟩ := hl
      rw [hg]
      exact h.toIdle fun χ _ hh => hh.take c j
    | own =>
      obtain ⟨rfl, hg⟩ := hl
      rw [hg]
      exact h
    | get =>
      obtain ⟨rfl, hg⟩ := hl
      rw [hg]
      exact h
    | finish =>
      rw [hl]
      exact h.toIdle fun _ _ hh => hh
    | del =>
      obtain ⟨rfl, hg⟩ := hl
      rw [hg]
      exact h.free
    | expire =>
      rw [hl]
      exact h.expire hm
  | _ => exact h.leave (hl s)

theorem mutexInv_fault {l : Label} {s : Sys} {φ : Hold} {φs : List Hold}
    (h : MutexInv s (φ :: φs)) : MutexInv s (holdState.failed l φ :: φs) := by
  cases l with
  | mutex op c j =>
    cases op with
    | expire => exact h
    | _ => exact h.toIdle fun _ _ hh => hh
  | _ => exact h

theorem mutex_invariant : Invariant holdState (fun (_ : MutexTask) _ => Hold.idle) MutexCondition
    (fun _ _ _ => True) MutexInv where
  perm s φs φs' hp h := by
    refine ⟨fun φ hφ => h.1 φ (hp.mem_iff.mpr hφ), ?_⟩
    exact (hp.pairwise_iff fun hap => hap.symm).mp h.2
  step l g s φ φs h hl hm := mutexInv_step h hl hm
  late l g s φ φs h hl _ hm := mutexInv_late h hl hm
  fault l g s φ φs h _ _ := mutexInv_fault h
  spawn a s φs h _ := by
    refine ⟨fun φ hφ => ?_, List.pairwise_cons.mpr ⟨fun ψ _ => Hold.apart_idle ψ, h.2⟩⟩
    rcases List.mem_cons.mp hφ with rfl | hφ
    · exact Hold.held_idle s
    · exact h.1 φ hφ
  crash s φ φs h := ⟨fun ψ hψ => h.1 ψ (by simp [hψ]), (List.pairwise_cons.mp h.2).2⟩

/-- At most one job imports into a collection, and whoever deletes a lock next deletes that of its
own job. -/
def Exclusive (c : Threads Label Sys Exn Hold) : Prop :=
  (∀ d i j, Hold.importing d i ∈ c.own → Hold.importing d j ∈ c.own → i = j) ∧
    ∀ n d j φ, c.label n = some (.mutex .del d j, φ) → c.st.holder d = some j

theorem exclusive_of_good {c : Threads Label Sys Exn Hold} (h : c.Good holdState MutexInv) :
    Exclusive c := by
  refine ⟨fun d i j hi hj => ?_, fun n d j φ hn => ?_⟩
  · have h1 := h.inv.1 _ hi d i rfl
    have h2 := h.inv.1 _ hj d j rfl
    exact Option.some.inj (h1.symm.trans h2)
  · simp only [Threads.label] at hn
    split at hn
    · rename_i l g k e ψ hp
      cases hn
      obtain ⟨⟨rfl, _⟩, _⟩ := h.pool _ (List.mem_of_getElem? hp)
      have hmem : Hold.releasing d j ∈ c.own :=
        List.mem_map.mpr ⟨_, List.mem_of_getElem? hp, rfl⟩
      exact h.inv.1 _ hmem d j rfl
    · cases hn

/-- Any number of the services, started at any time, from any state of the locks. -/
theorem mutex_exclusive (H : Digest) (cfg : Settings) (files : Files) (s : Sys)
    (cs : List (Choice MutexTask Exn))
    (h : MeetsAll holdState (MutexTask.entry H cfg files) (fun _ _ => Hold.idle) MutexCondition
      (fun _ _ _ => True) ⟨s, []⟩ cs) :
    Exclusive ((Threads.mk s []).exec holdState (MutexTask.entry H cfg files)
      (fun _ _ => Hold.idle) cs) := by
  refine exclusive_of_good (exec_inv mutex_invariant (fun a s φs _ => ?_) cs ?_ h)
  · exact Prog.Typed.mono (fun _ _ _ => trivial) _ _ (restores_entry H cfg files a)
  · exact ⟨⟨by simp [Threads.own], by simp [Threads.own]⟩, by simp⟩

instance : ∀ l s φ φs, Decidable (MutexCondition l s φ φs)
  | .mutex .get c j, s, _, φs =>
    inferInstanceAs (Decidable (s.holder c = some j → ∀ ψ ∈ φs, ψ.lock ≠ some (c, j)))
  | .mutex .own c j, s, _, φs =>
    inferInstanceAs (Decidable (s.holder c = some j → ∀ ψ ∈ φs, ψ ≠ .releasing c j))
  | .mutex .expire c _, _, φ, φs =>
    inferInstanceAs (Decidable (∀ ψ ∈ φ :: φs, ψ.lock.map Prod.fst ≠ some c))
  | .mutex .take _ _, _, _, _ | .mutex .finish _ _, _, _, _ | .mutex .del _ _, _, _, _
  | .redis, _, _, _ | .db, _, _, _ | .promote _ _, _, _, _ | .dropStaging _, _, _, _
  | .swap _ _, _, _, _ | .append _, _, _, _ | .markPending _, _, _, _ | .markState _, _, _, _
  | .pushFinalize _, _, _, _ | .recover _ _, _, _, _ | .seeJob _, _, _, _ | .seeJobs, _, _, _
  | .setStatus _ _, _, _, _ | .storage, _, _, _ | .load _ _, _, _, _ | .commit _, _, _, _
  | .deleteBatch, _, _, _ | .clearTags _, _, _, _ => isTrue trivial

instance (l : Label) : Decidable (holdState.raises l) :=
  inferInstanceAs (Decidable (l.ghost = false))

/-! ## Runs -/

def secondImporter : JobId where
  text := "7c2f4d1e-0a9b-4c3d-8e5f-6a7b8c9d0e1f".toList
  chars := chars_of_all (by decide)
  short := by decide
  first := ⟨'7', rfl, rfl⟩
  last := ⟨'f', rfl, rfl⟩

def uploadOf (j : JobId) : BulkJobPayload :=
  ⟨j, "a".toList, j.text ++ ".geojson".toList, .plain .append, 1000, none, false, .single⟩

/-- Two jobs of one collection, registered and pending. -/
def twoUploads : Sys :=
  { Sys.idle Catalog.initial with
    jobs := [importer, secondImporter].map fun j =>
      ⟨j, "a".toList, .pending, [], 0, 0, 0, 0, none, none, none⟩
    registered := [importer, secondImporter]
    uploads := [(uploadOf importer).storageKey, (uploadOf secondImporter).storageKey] }

/-- Every upload is a file without records. -/
def emptyFiles : Files := ⟨id, fun _ => .file (.single ⟨[], none⟩), fun _ => .ok []⟩

/-- A worker starts the first job; after `between`, another worker, program `i`, takes up the
second. -/
def twoWorkers (between : List (Choice MutexTask Exn)) (i : Nat) : List (Choice MutexTask Exn) :=
  .spawn (.work (uploadOf importer)) :: List.replicate 4 (.step 0) ++ between ++
    [.spawn (.work (uploadOf secondImporter)), .step i]

/-- A cancel of the first job releases its lock while its worker imports, and the second job
starts. -/
theorem cancel_admits_second_import :
    ¬ Exclusive ((Threads.mk twoUploads []).exec holdState
      (MutexTask.entry plainDigest Settings.default emptyFiles) (fun _ _ => Hold.idle)
      (twoWorkers (.spawn (.cancel importer) :: List.replicate 6 (.step 1)) 2)) := by
  intro h
  have := h.1 "a".toList importer secondImporter (by decide +kernel) (by decide +kernel)
  exact absurd this (by decide +kernel)

/-- Without the cancel the second worker finds the lock taken. -/
theorem second_worker_waits :
    Exclusive ((Threads.mk twoUploads []).exec holdState
      (MutexTask.entry plainDigest Settings.default emptyFiles) (fun _ _ => Hold.idle)
      (twoWorkers [] 1)) :=
  mutex_exclusive plainDigest Settings.default emptyFiles twoUploads (twoWorkers [] 1)
    (by decide +kernel)

end Bulk
end Geofastmap
