import Mathlib.Data.List.Nodup
import Mathlib.Data.List.Perm.Basic
import Mathlib.Order.Lattice

/-!
# Geofastmap.Interleave.Futures

A loop that submits tasks to an executor and keeps a bounded set of futures. Before it submits, it
polls the set until there is room; when all tasks are submitted, it takes the remaining futures as
they complete. Results go to a sink in the order in which they are taken.

A `Schedule` says at which poll a future is first seen done and in which order a set is walked.
`run_perm`: under every schedule the sink receives the result of each task exactly once.
-/

namespace Geofastmap
namespace Interleave
namespace Futures

structure Future (α : Type) where
  no : Nat
  task : α

structure Schedule (α : Type) where
  /-- The poll at which the future with this number is first seen done. -/
  finish : Nat → Nat
  /-- The order in which the set is walked at a poll. -/
  order : Nat → List (Future α) → List (Future α)
  order_perm : ∀ clock l, (order clock l).Perm l

structure State (α β : Type) where
  clock : Nat
  submitted : Nat
  pending : List (Future α)
  /-- The non-empty results, one list for each call of the sink. -/
  inserted : List (List β)
  itemsOut : Nat

variable {α β : Type} (work : α → List β) (sched : Schedule α)

/-- `f.result()`, and the sink when it is not empty. -/
def receive (s : State α β) (f : Future α) : State α β :=
  let chunk := work f.task
  if chunk.isEmpty then s
  else { s with inserted := s.inserted ++ [chunk], itemsOut := s.itemsOut + chunk.length }

/-- `pending.discard(f)`, then the result. -/
def harvest (s : State α β) (f : Future α) : State α β :=
  receive work { s with pending := s.pending.filter fun g => g.no ≠ f.no } f

/-- The futures seen done at this poll. -/
def doneNow (s : State α β) : List (Future α) :=
  (sched.order s.clock s.pending).filter fun f => sched.finish f.no ≤ s.clock

def poll (s : State α β) : State α β :=
  { (doneNow sched s).foldl (harvest work) s with clock := s.clock + 1 }

/-- `max(max_workers * 2, 4)`. -/
def maxPending (maxWorkers : Nat) : Nat := max (maxWorkers * 2) 4

/-! ## The set of futures shrinks -/

theorem receive_pending (s : State α β) (f : Future α) : (receive work s f).pending = s.pending := by
  by_cases hnil : work f.task = [] <;> simp [receive, hnil]

theorem harvest_pending (s : State α β) (f : Future α) :
    (harvest work s f).pending = s.pending.filter fun g => g.no ≠ f.no :=
  receive_pending work _ f

theorem foldl_harvest_pending (done : List (Future α)) (s : State α β) :
    (done.foldl (harvest work) s).pending =
      s.pending.filter fun g => ∀ f ∈ done, g.no ≠ f.no := by
  induction done generalizing s with
  | nil => simp
  | cons f done ih =>
    rw [List.foldl_cons, ih, harvest_pending, List.filter_filter]
    apply List.filter_congr
    intro g _
    simp only [List.forall_mem_cons, Bool.decide_and]
    exact Bool.and_comm _ _

/-- What a poll leaves has yet to finish. -/
theorem mem_poll_pending {s : State α β} {g : Future α} (h : g ∈ (poll work sched s).pending) :
    g ∈ s.pending ∧ s.clock < sched.finish g.no := by
  change g ∈ ((doneNow sched s).foldl (harvest work) s).pending at h
  rw [foldl_harvest_pending] at h
  obtain ⟨hin, hnot⟩ := List.mem_filter.mp h
  refine ⟨hin, ?_⟩
  by_contra hdone
  have hmem : g ∈ doneNow sched s := by
    apply List.mem_filter.mpr
    exact ⟨(sched.order_perm _ _).mem_iff.mpr hin, by simpa using hdone⟩
  exact of_decide_eq_true hnot g hmem rfl

theorem poll_pending_length (s : State α β) :
    (poll work sched s).pending.length ≤ s.pending.length := by
  change ((doneNow sched s).foldl (harvest work) s).pending.length ≤ _
  rw [foldl_harvest_pending]
  exact List.length_filter_le _ _

/-- The poll at which the last of the futures finishes. -/
def latest (l : List (Future α)) : Nat := l.foldr (fun f n => max (sched.finish f.no) n) 0

theorem le_latest {l : List (Future α)} {f : Future α} (h : f ∈ l) :
    sched.finish f.no ≤ latest sched l := by
  induction l with
  | nil => simp at h
  | cons g l ih =>
    rcases List.mem_cons.mp h with rfl | h
    · exact le_max_left _ _
    · exact (ih h).trans (le_max_right _ _)

theorem latest_le {l : List (Future α)} {n : Nat} (h : ∀ f ∈ l, sched.finish f.no ≤ n) :
    latest sched l ≤ n := by
  induction l with
  | nil => simp [latest]
  | cons g l ih =>
    rw [List.forall_mem_cons] at h
    exact max_le h.1 (ih h.2)

theorem poll_decreases (s : State α β) (h : s.pending ≠ []) :
    latest sched (poll work sched s).pending + 1 - (poll work sched s).clock +
        (poll work sched s).pending.length <
      latest sched s.pending + 1 - s.clock + s.pending.length := by
  have hclock : (poll work sched s).clock = s.clock + 1 := rfl
  have hlen := poll_pending_length work sched s
  have hle : latest sched (poll work sched s).pending ≤ latest sched s.pending :=
    latest_le sched fun f hf => le_latest sched (mem_poll_pending work sched hf).1
  rw [hclock]
  rcases hp : (poll work sched s).pending with _ | ⟨g, rest⟩
  · have hpos : 0 < s.pending.length := List.length_pos_iff.mpr h
    simp only [latest, List.foldr_nil, List.length_nil]
    omega
  · -- a future is left, so the last one finishes after this poll
    have hg : g ∈ (poll work sched s).pending := by simp [hp]
    have hafter := (mem_poll_pending work sched hg).2
    have hlatest := le_latest sched (mem_poll_pending work sched hg).1
    rw [hp] at hle hlen
    omega

/-! ## The loop -/

/-- `while len(pending) >= max_pending`. -/
def makeRoom (maxWorkers : Nat) (s : State α β) : State α β :=
  if _h : s.pending.length ≥ maxPending maxWorkers then makeRoom maxWorkers (poll work sched s)
  else s
termination_by latest sched s.pending + 1 - s.clock + s.pending.length
decreasing_by
  apply poll_decreases
  intro hnil
  simp [hnil, maxPending] at _h

/-- `executor.submit(work, task)`, kept in the set. -/
def submit (s : State α β) (task : α) : State α β :=
  { s with submitted := s.submitted + 1, pending := s.pending ++ [⟨s.submitted, task⟩] }

def feed (maxWorkers : Nat) : List α → State α β → State α β
  | [], s => s
  | task :: tasks, s => feed maxWorkers tasks (submit (makeRoom work sched maxWorkers s) task)

/-- `for fut in as_completed(pending)`. -/
def drain (s : State α β) : State α β := (sched.order s.clock s.pending).foldl (receive work) s

def start : State α β := ⟨0, 0, [], [], 0⟩

def run (maxWorkers : Nat) (tasks : List α) : State α β :=
  drain work sched (feed work sched maxWorkers tasks start)

/-! ## The invariant -/

/-- What the sink has received and what the futures hold are together the results of `tasks`. -/
structure Accounts (tasks : List α) (s : State α β) : Prop where
  perm : (s.inserted.flatten ++ s.pending.flatMap fun f => work f.task).Perm (tasks.flatMap work)
  count : s.itemsOut = s.inserted.flatten.length
  nodup : (s.pending.map Future.no).Nodup
  numbers : ∀ f ∈ s.pending, f.no < s.submitted

variable {work} {tasks : List α} {s : State α β}

theorem receive_inserted (s : State α β) (f : Future α) :
    (receive work s f).inserted.flatten = s.inserted.flatten ++ work f.task := by
  unfold receive
  by_cases hnil : work f.task = []
  · simp [hnil]
  · simp [hnil]

theorem receive_itemsOut (s : State α β) (f : Future α) :
    (receive work s f).itemsOut = s.itemsOut + (work f.task).length := by
  unfold receive
  by_cases hnil : work f.task = []
  · simp [hnil]
  · simp [hnil]

theorem receive_submitted (s : State α β) (f : Future α) :
    (receive work s f).submitted = s.submitted := by
  by_cases hnil : work f.task = [] <;> simp [receive, hnil]

/-- A future is the only one with its number. -/
theorem perm_cons_filter {l : List (Future α)} {f : Future α} (hn : (l.map Future.no).Nodup)
    (hf : f ∈ l) : l.Perm (f :: l.filter fun g => g.no ≠ f.no) := by
  induction l with
  | nil => simp at hf
  | cons g l ih =>
    rw [List.map_cons, List.nodup_cons] at hn
    rcases List.mem_cons.mp hf with rfl | hf
    · have hkeep : l.filter (fun g => decide (g.no ≠ f.no)) = l := by
        rw [List.filter_eq_self]
        intro g hg
        simp only [decide_eq_true_eq]
        intro he
        exact hn.1 (he ▸ List.mem_map_of_mem hg)
      rw [List.filter_cons_of_neg (by simp), hkeep]
    · have hne : g.no ≠ f.no := by
        intro he
        exact hn.1 (he ▸ List.mem_map_of_mem hf)
      rw [List.filter_cons_of_pos (by simpa using hne)]
      exact ((ih hn.2 hf).cons g).trans (List.Perm.swap _ _ _)

theorem Accounts.harvest (h : Accounts work tasks s) {f : Future α} (hf : f ∈ s.pending) :
    Accounts work tasks (harvest work s f) := by
  constructor
  · have hsplit := (perm_cons_filter h.nodup hf).flatMap_right fun g => work g.task
    rw [harvest_pending, Futures.harvest, receive_inserted, List.append_assoc]
    exact ((hsplit.symm.append_left s.inserted.flatten)).trans h.perm
  · rw [Futures.harvest, receive_itemsOut, receive_inserted, List.length_append]
    exact congrArg (· + (work f.task).length) h.count
  · rw [harvest_pending]
    exact h.nodup.sublist (List.filter_sublist.map _)
  · rw [harvest_pending, Futures.harvest, receive_submitted]
    intro g hg
    exact h.numbers g (List.mem_filter.mp hg).1

theorem Accounts.foldl_harvest (h : Accounts work tasks s) {done : List (Future α)}
    (hdone : ∀ f ∈ done, f ∈ s.pending) (hn : (done.map Future.no).Nodup) :
    Accounts work tasks (done.foldl (Futures.harvest work) s) := by
  induction done generalizing s with
  | nil => exact h
  | cons f done ih =>
    rw [List.map_cons, List.nodup_cons] at hn
    rw [List.forall_mem_cons] at hdone
    apply ih (h.harvest hdone.1) _ hn.2
    intro g hg
    have hne : g.no ≠ f.no := by
      intro he
      exact hn.1 (he ▸ List.mem_map_of_mem hg)
    rw [harvest_pending]
    exact List.mem_filter.mpr ⟨hdone.2 g hg, by simpa using hne⟩

theorem Accounts.poll (h : Accounts work tasks s) : Accounts work tasks (poll work sched s) := by
  have horder := sched.order_perm s.clock s.pending
  have hfold : Accounts work tasks ((doneNow sched s).foldl (Futures.harvest work) s) := by
    apply h.foldl_harvest
    · intro f hf
      exact horder.mem_iff.mp (List.mem_filter.mp hf).1
    · have hall := (horder.map Future.no).nodup_iff.mpr h.nodup
      exact hall.sublist (List.filter_sublist.map _)
  exact ⟨hfold.perm, hfold.count, hfold.nodup, hfold.numbers⟩

theorem Accounts.makeRoom (maxWorkers : Nat) (h : Accounts work tasks s) :
    Accounts work tasks (makeRoom work sched maxWorkers s) := by
  fun_induction Futures.makeRoom work sched maxWorkers s with
  | case1 s _ ih => exact ih (h.poll sched)
  | case2 s _ => exact h

theorem Accounts.submit (h : Accounts work tasks s) (task : α) :
    Accounts work (tasks ++ [task]) (submit s task) := by
  constructor
  · simp only [Futures.submit, List.flatMap_append, ← List.append_assoc]
    simpa using h.perm.append_right (work task)
  · exact h.count
  · simp only [Futures.submit, List.map_append, List.map_singleton]
    rw [List.nodup_append_comm, List.singleton_append, List.nodup_cons]
    constructor
    · intro hin
      obtain ⟨f, hf, he⟩ := List.mem_map.mp hin
      exact absurd he (h.numbers f hf).ne
    · exact h.nodup
  · intro f hf
    rcases List.mem_append.mp hf with hf | hf
    · exact (h.numbers f hf).trans (Nat.lt_succ_self _)
    · rw [List.mem_singleton.mp hf]
      exact Nat.lt_succ_self _

theorem Accounts.feed (maxWorkers : Nat) (h : Accounts work tasks s) (more : List α) :
    Accounts work (tasks ++ more) (feed work sched maxWorkers more s) := by
  induction more generalizing tasks s with
  | nil =>
    rw [List.append_nil]
    exact h
  | cons task more ih =>
    have hstep := ih ((h.makeRoom sched maxWorkers).submit task)
    rw [List.append_assoc] at hstep
    exact hstep

/-! ## The run -/

theorem foldl_receive (fs : List (Future α)) (s : State α β) :
    (fs.foldl (receive work) s).inserted.flatten =
        s.inserted.flatten ++ (fs.flatMap fun f => work f.task) ∧
      (fs.foldl (receive work) s).itemsOut =
        s.itemsOut + (fs.flatMap fun f => work f.task).length := by
  induction fs generalizing s with
  | nil => simp
  | cons f fs ih =>
    obtain ⟨hin, hcount⟩ := ih (receive work s f)
    rw [List.foldl_cons, hin, hcount, receive_inserted, receive_itemsOut, List.flatMap_cons,
      List.length_append]
    exact ⟨List.append_assoc _ _ _, Nat.add_assoc _ _ _⟩

variable (work) in
theorem run_perm (maxWorkers : Nat) (tasks : List α) :
    (run work sched maxWorkers tasks).inserted.flatten.Perm (tasks.flatMap work) ∧
      (run work sched maxWorkers tasks).itemsOut = (tasks.flatMap work).length := by
  have hstart : Accounts work ([] : List α) (start : State α β) := by
    constructor <;> simp [start]
  have hfeed := hstart.feed sched maxWorkers tasks
  rw [List.nil_append] at hfeed
  unfold run drain
  generalize feed work sched maxWorkers tasks start = s at hfeed
  obtain ⟨hin, hcount⟩ := foldl_receive (sched.order s.clock s.pending) s
  have hrest := (sched.order_perm s.clock s.pending).flatMap_right fun f => work f.task
  have hperm := (hrest.append_left s.inserted.flatten).trans hfeed.perm
  rw [hin, hcount, hfeed.count, ← List.length_append]
  exact ⟨hperm, hperm.length_eq⟩

end Futures
end Interleave
end Geofastmap
