import Geofastmap.Mosaic.Dispatch

/-!
# Geofastmap.Mosaic.Subtasks

The distributed planner over all its rounds: the coordinator of one job, the queue of subtasks, the
workers and the lists of results, and the steps they make in any order. Workers may be slow or die,
keys expire, waits of the coordinator time out, and the coordinator may be started again for the
same job.

A subtask whose key exists is not enqueued again, and results are counted. `results_matched` says
when the count is right: when a key is found, the result of its subtask is still to come.
-/

namespace Geofastmap
namespace Mosaic
namespace Subtask

/-- `_task_id` is a hash of the job, the round, and the box and datetime slice of a shard. -/
abbrev Key := Nat × Bbox × Text

/-- A plan, and the boxes of each round for the results that are merged. Those of round 0 are the
seeds, those of a later round cover what is left; without boxes the rounds end. The answers of the
plan are those of the workers. -/
structure Job extends Plan where
  boxes : Nat → List (Nat × Result) → List Bbox

/-- Where the coordinator is in a round: in the loop that dispatches the shards, before the
children that are left to enqueue, while it waits for so many of their results, or at the end. -/
inductive Phase where
  | dispatch
  | enqueueExtras (rest : List Shard)
  | awaitExtras (left : Nat)
  | merge
  | completed
  | failed

/-- The variables of the coordinator, with what it has enqueued in the round. -/
structure Coordinator where
  phase : Phase
  round : Nat
  bboxes : BboxMap
  rows : List Shard
  rest : List Shard
  inFlight : Nat
  extras : List Shard
  sent : List Shard
  results : List Result
  merged : List (Nat × Result)

/-- Redis and the workers, as far as they concern the job: the task keys, the queue with the oldest
subtask first, the subtasks that workers have taken, the list of results of each round with the
newest first, and the subtasks with which a worker died since the coordinator was started. -/
structure State where
  keys : List Key
  queue : List Key
  working : List Key
  results : Nat → List Result
  lost : List Key
  coordinator : Coordinator

variable (j : Job)

/-! ## The coordinator -/

/-- `shard_rows` of a round. -/
def roundRows (round : Nat) (merged : List (Nat × Result)) : List Shard :=
  let m := seedMap (j.boxes round merged)
  shardRows j.toPlan m.length m

def startRound (round : Nat) (merged : List (Nat × Result)) : Coordinator where
  phase := if j.boxes round merged = [] then .completed else .dispatch
  round := round
  bboxes := seedMap (j.boxes round merged)
  rows := roundRows j round merged
  rest := roundRows j round merged
  inFlight := 0
  extras := []
  sent := []
  results := []
  merged := merged

/-- What the coordinator does next. -/
inductive Move where
  | enqueue (x : Shard)
  | wait
  | leave
  | merge
  | stop

namespace Coordinator

variable (c : Coordinator)

def move : Move :=
  match c.phase with
  | .dispatch =>
    if c.results.length < c.rows.length then
      match c.rest with
      | x :: _ => if c.inFlight < j.settings.shardWave then .enqueue x else .wait
      | [] => if c.inFlight = 0 then .leave else .wait
    else .leave
  | .enqueueExtras (x :: _) => .enqueue x
  | .enqueueExtras [] => .leave
  | .awaitExtras (_ + 1) => .wait
  | .awaitExtras 0 => .leave
  | .merge => .merge
  | .completed => .stop
  | .failed => .stop

/-- After `enqueue_mosaic_plan_subtask`. -/
def sendShard (x : Shard) : Coordinator :=
  match c.phase with
  | .enqueueExtras rest => { c with phase := .enqueueExtras rest.tail, sent := c.sent ++ [x] }
  | _ => { c with rest := c.rest.tail, inFlight := c.inFlight + 1, sent := c.sent ++ [x] }

/-- After a wait with a result. -/
def receive (r : Result) : Coordinator :=
  match c.phase with
  | .awaitExtras left => { c with phase := .awaitExtras (left - 1), results := c.results ++ [r] }
  | _ => { c with inFlight := c.inFlight - 1, results := c.results ++ [r] }

/-- The children of round 0. -/
def children : List Shard :=
  if c.round = 0 then (addedBboxes j.toPlan c.bboxes c.rows c.results).flatMap (bboxShards j.toPlan)
  else []

/-- The end of a loop, or of a wait without a result. -/
def leave : Coordinator :=
  match c.phase with
  | .dispatch =>
    if c.results.length < c.rows.length ∧ j.failOnPartial then { c with phase := .failed }
    else if c.children j = [] then { c with phase := .merge }
    else { c with phase := .enqueueExtras (c.children j), extras := c.children j }
  | .enqueueExtras _ => { c with phase := .awaitExtras c.extras.length }
  | .awaitExtras _ => { c with phase := .merge }
  | _ => c

/-- The results of the round, merged with the earlier ones. -/
def mergedNext : List (Nat × Result) := c.merged ++ c.results.map fun r => (c.round, r)

end Coordinator

/-! ## Steps -/

/-- `enqueue_mosaic_plan_subtask`. The coordinator may also be stopped between the two writes; this
leaves what a worker leaves that takes the subtask at once and dies. -/
def enqueueKey (s : State) (t : Key) : State :=
  if t ∈ s.keys then s else { s with keys := t :: s.keys, queue := s.queue ++ [t] }

inductive Event where
  | coordinator
  | timeout
  | restart
  | take
  | finish (t : Key) (o : Outcome)
  | die (t : Key)
  | expire (t : Key)

/-- A step, if it is possible. `brpop` gives the newest result. -/
def step (s : State) : Event → Option State
  | .coordinator =>
    let c := s.coordinator
    match c.move j with
    | .enqueue x => some { enqueueKey s (c.round, x.task) with coordinator := c.sendShard x }
    | .wait =>
      match s.results c.round with
      | [] => none
      | r :: rs => some { s with
          results := fun n => if n = c.round then rs else s.results n
          coordinator := c.receive r }
    | .leave => some { s with coordinator := c.leave j }
    | .merge => some { s with coordinator := startRound j (c.round + 1) c.mergedNext }
    | .stop => none
  | .timeout =>
    match s.coordinator.move j, s.results s.coordinator.round with
    | .wait, [] => some { s with coordinator := s.coordinator.leave j }
    | _, _ => none
  | .restart => some { s with lost := [], coordinator := startRound j 0 [] }
  | .take =>
    match s.queue with
    | [] => none
    | t :: queue => some { s with queue, working := t :: s.working }
  | .finish t o =>
    if t ∈ s.working then some { s with
      working := s.working.erase t
      results := fun n => if n = t.1 then ⟨t.2, o⟩ :: s.results n else s.results n }
    else none
  | .die t =>
    if t ∈ s.working then some { s with working := s.working.erase t, lost := t :: s.lost }
    else none
  | .expire t => some { s with keys := s.keys.filter fun k => k ≠ t }

/-- Redis has nothing of the job when its coordinator is started for the first time. -/
def start : State := ⟨[], [], [], fun _ => [], [], startRound j 0 []⟩

def run (s : State) (es : List Event) : Option State := es.foldlM (step j) s

/-! ## What is claimed -/

/-- The messages of a subtask that can still become a result, and its results. -/
def onWay (s : State) (t : Key) : Nat :=
  s.queue.count t + s.working.count t + ((s.results t.1).map Result.task).count t.2

/-- The results of a subtask of the round that the coordinator has, and those it can still get. -/
def accounted (s : State) (t : Bbox × Text) : Nat :=
  (s.coordinator.results.map Result.task).count t + onWay s (s.coordinator.round, t)

/-- The results of the round that the coordinator can still get. -/
def expected (s : State) : List (Bbox × Text) :=
  let r := s.coordinator.round
  ((s.queue ++ s.working).filter fun t => t.1 = r).map Prod.snd ++ (s.results r).map Result.task

/-- How many results of what it has enqueued the coordinator waits for. -/
def Coordinator.awaited (c : Coordinator) : Nat :=
  match c.phase with
  | .dispatch => c.inFlight
  | .awaitExtras left => left
  | _ => 0

structure Matched (s : State) : Prop where
  /-- No result of a subtask is merged twice. -/
  once : (s.coordinator.mergedNext.map fun m => (m.1, m.2.task)).Nodup
  /-- Every enqueued shard has contributed to a round that is merged. -/
  complete : s.coordinator.phase = .merge →
    ∀ x ∈ s.coordinator.sent, ∃ r ∈ s.coordinator.results, r.task = x.task
  /-- Of each enqueued shard the coordinator has the result, or it is still to come, unless a
  worker died with it. -/
  notInVain : ∀ x ∈ s.coordinator.sent, 0 < accounted s x.task ∨
    (s.coordinator.round, x.task) ∈ s.lost
  /-- It does not wait for more results than can come, and those of the workers that died. -/
  enough : s.coordinator.awaited ≤ (expected s).length +
    (s.lost.filter fun t => t.1 = s.coordinator.round).length

/-! ## When it holds -/

/-- Of the round that begins, no subtask has two messages, and only its own have one. -/
def Fresh (s : State) (round : Nat) (merged : List (Nat × Result)) : Prop :=
  ∀ t, onWay s (round, t) ≤ 1 ∧
    (0 < onWay s (round, t) → t ∈ (roundRows j round merged).map Shard.task)

/-- The condition on a step. -/
def Meets (s : State) : Event → Prop
  | .coordinator =>
    match s.coordinator.move j with
    | .enqueue x => (s.coordinator.round, x.task) ∈ s.keys ↔ accounted s x.task = 1
    | .merge => Fresh j s (s.coordinator.round + 1) s.coordinator.mergedNext
    | _ => True
  | .timeout => s.coordinator.phase = .dispatch ∧ j.failOnPartial = true
  | .restart => Fresh j s 0 []
  | _ => True

/-- A step in a run without a second start. -/
def Ordinary (s : State) : Event → Prop
  | .timeout => s.coordinator.phase = .dispatch ∧ j.failOnPartial = true
  | .restart => False
  | _ => True

/-- Every step of a run meets a condition on the state before it. -/
def Along (P : State → Event → Prop) : State → List Event → Prop
  | _, [] => True
  | s, e :: es => P s e ∧ ∀ s', step j s e = some s' → Along P s' es

/-! ## Different shards have different subtasks -/

theorem allShards_tasks {p : Plan} (hslices : p.datetimeSlices.Nodup) {m : BboxMap}
    (h : (m.map Prod.fst).Nodup) : ((allShards p m).map Shard.task).Nodup := by
  induction m with
  | nil => simp [allShards]
  | cons kb m ih =>
    obtain ⟨hnew, hm⟩ := List.nodup_cons.mp h
    have hfirst : ((bboxShards p kb).map Shard.task).Nodup := by
      unfold bboxShards
      rw [List.map_map]
      exact hslices.map fun dt dt' heq => (Prod.mk.inj heq).2
    have hcons : allShards p (kb :: m) = bboxShards p kb ++ allShards p m := rfl
    rw [hcons, List.map_append, List.nodup_append]
    refine ⟨hfirst, ih hm, ?_⟩
    rintro t ht t' ht' rfl
    obtain ⟨x, hx, rfl⟩ := List.mem_map.mp ht
    obtain ⟨dt, -, rfl⟩ := List.mem_map.mp hx
    obtain ⟨y, hy, heq⟩ := List.mem_map.mp ht'
    obtain ⟨kb', hkb', dt', -, rfl⟩ := (mem_allShards p).mp hy
    have hkey : kb'.1 = kb.1 := (Prod.mk.inj heq).1
    exact hnew (hkey ▸ List.mem_map_of_mem hkb')

theorem addedBboxes_keys (p : Plan) {m : BboxMap} (h : (m.map Prod.fst).Nodup) (rows : List Shard)
    (results : List Result) : ((m ++ addedBboxes p m rows results).map Prod.fst).Nodup := by
  unfold addedBboxes
  split
  · obtain ⟨hkeys, added, hadded⟩ := foldl_addChild_spec p (childBboxes p m rows results) h
    rw [← hadded, List.drop_left, hadded]
    exact hkeys
  · simpa using h

namespace Coordinator

/-- The boxes of the round, and its shards. -/
structure Planned (c : Coordinator) : Prop where
  bboxes : (c.bboxes.map Prod.fst).Nodup
  rows : c.rows = shardRows j.toPlan c.bboxes.length c.bboxes
  tasks : ((c.rows ++ c.extras).map Shard.task).Nodup

variable {j}

theorem rows_children_tasks {c : Coordinator} (hslices : j.datetimeSlices.Nodup)
    (hbboxes : (c.bboxes.map Prod.fst).Nodup)
    (hrows : c.rows = shardRows j.toPlan c.bboxes.length c.bboxes) :
    ((c.rows ++ c.children j).map Shard.task).Nodup := by
  have hall := allShards_tasks hslices
    (addedBboxes_keys j.toPlan hbboxes c.rows c.results)
  unfold allShards at hall
  rw [List.flatMap_append] at hall
  have hchildren : (c.children j).Sublist
      ((addedBboxes j.toPlan c.bboxes c.rows c.results).flatMap (bboxShards j.toPlan)) := by
    unfold children
    split
    · exact List.Sublist.refl _
    · exact List.nil_sublist _
  have hsub : c.rows.Sublist (c.bboxes.flatMap (bboxShards j.toPlan)) := by
    rw [hrows]
    by_cases hfit : c.bboxes.length ≤ j.settings.bboxBudget
    · rw [shardRows_of_le j.toPlan hfit]
      exact List.Sublist.refl _
    · rw [shardRows_of_lt j.toPlan (by omega)]
      exact List.nil_sublist _
  exact hall.sublist ((hsub.append hchildren).map Shard.task)

theorem planned_startRound (hslices : j.datetimeSlices.Nodup) (round : Nat)
    (merged : List (Nat × Result)) : Planned j (startRound j round merged) := by
  have hbboxes := seedMap_keys (j.boxes round merged)
  have htasks := rows_children_tasks (c := startRound j round merged) hslices hbboxes rfl
  rw [List.map_append] at htasks
  exact ⟨hbboxes, rfl, by simpa [startRound] using htasks.of_append_left⟩

/-- What is enqueued, and how many results there are of it. -/
def Counted (c : Coordinator) : Prop :=
  match c.phase with
  | .dispatch => c.sent ++ c.rest = c.rows ∧ c.extras = [] ∧
      c.inFlight + c.results.length = c.sent.length
  | .enqueueExtras rest => c.sent ++ rest = c.rows ++ c.extras ∧ c.results.length = c.rows.length
  | .awaitExtras left => c.sent = c.rows ++ c.extras ∧ left + c.results.length = c.sent.length
  | .merge => c.sent = c.rows ++ c.extras ∧ c.results.length = c.sent.length
  | .completed => c.sent = [] ∧ c.results = []
  | .failed => c.sent ⊆ c.rows ++ c.extras

theorem Counted.subset {c : Coordinator} (h : Counted c) : c.sent ⊆ c.rows ++ c.extras := by
  unfold Counted at h
  split at h
  · rw [← h.1, List.append_assoc]
    exact List.subset_append_left _ _
  · rw [← h.1]
    exact List.subset_append_left _ _
  · exact h.1 ▸ List.Subset.refl _
  · exact h.1 ▸ List.Subset.refl _
  · simp [h.1]
  · exact h

end Coordinator

/-! ## The invariant -/

/-- Each subtask of the round has one message or result at most, only the shards of the round have
one, and those that are enqueued have one unless a worker died with it. -/
structure Inv (s : State) : Prop where
  planned : s.coordinator.Planned j
  counted : s.coordinator.Counted
  merged : (s.coordinator.merged.map fun m => (m.1, m.2.task)).Nodup
  earlier : ∀ m ∈ s.coordinator.merged, m.1 < s.coordinator.round
  once : s.coordinator.phase ≠ .completed → ∀ t, accounted s t ≤ 1
  own : s.coordinator.phase ≠ .completed → ∀ t, 0 < accounted s t →
    t ∈ (s.coordinator.rows ++ s.coordinator.extras).map Shard.task
  sent : ∀ x ∈ s.coordinator.sent, 0 < accounted s x.task ∨
    (s.coordinator.round, x.task) ∈ s.lost

variable {j}

theorem Inv.startRound {s : State} (hslices : j.datetimeSlices.Nodup) {round : Nat}
    {merged : List (Nat × Result)} (hfresh : Fresh j s round merged)
    (hnodup : (merged.map fun m => (m.1, m.2.task)).Nodup) (hearlier : ∀ m ∈ merged, m.1 < round)
    (hs : s.coordinator = Subtask.startRound j round merged) : Inv j s := by
  have haccounted (t : Bbox × Text) : accounted s t = onWay s (round, t) := by
    simp [accounted, hs, Subtask.startRound]
  refine ⟨?_, ?_, ?_, ?_, ?_, ?_, ?_⟩
  · rw [hs]
    exact Coordinator.planned_startRound hslices round merged
  · rw [hs]
    by_cases hboxes : j.boxes round merged = []
    · simp [Coordinator.Counted, Subtask.startRound, hboxes]
    · simp [Coordinator.Counted, Subtask.startRound, hboxes]
  · rw [hs]
    exact hnodup
  · rw [hs]
    exact hearlier
  · intro _ t
    rw [haccounted]
    exact (hfresh t).1
  · intro _ t ht
    rw [haccounted] at ht
    rw [hs]
    simpa [Subtask.startRound] using (hfresh t).2 ht
  · intro x hx
    rw [hs] at hx
    cases hx

/-- What the workers do, and the expiry of keys: messages move, and those that are gone are
lost. -/
structure Quiet (s s' : State) : Prop where
  coordinator : s'.coordinator = s.coordinator
  keys : s'.keys ⊆ s.keys
  fewer : ∀ t, onWay s' t ≤ onWay s t
  lost : s.lost ⊆ s'.lost
  kept : ∀ t, onWay s t ≤ onWay s' t ∨ t ∈ s'.lost

theorem count_erase_add {ts : List Key} {t : Key} (ht : t ∈ ts) (t' : Key) :
    (ts.erase t).count t' + [t].count t' = ts.count t' := by
  have hperm := (List.perm_cons_erase ht).count_eq t'
  rw [List.count_cons] at hperm
  rw [hperm, List.count_singleton]

/-- The results of a round after one more. -/
theorem count_results (results : Nat → List Result) (t t' : Key) (o : Outcome) :
    (((if t'.1 = t.1 then ⟨t.2, o⟩ :: results t'.1 else results t'.1).map Result.task).count t'.2) =
      ((results t'.1).map Result.task).count t'.2 + [t].count t' := by
  by_cases hround : t'.1 = t.1
  · have hsame : (t == t') = (t.2 == t'.2) := by
      rw [Bool.eq_iff_iff, beq_iff_eq, beq_iff_eq, Prod.ext_iff]
      simp [hround]
    rw [if_pos hround, List.map_cons, List.count_cons, List.count_singleton, hsame]
  · have hne : (t == t') = false := by
      rw [beq_eq_false_iff_ne]
      rintro rfl
      exact hround rfl
    rw [if_neg hround, List.count_singleton, hne]
    simp

theorem quiet_take {s s' : State} (hstep : step j s .take = some s') : Quiet s s' := by
  simp only [step] at hstep
  split at hstep
  · cases hstep
  next t queue hqueue =>
    cases hstep
    have hsame (t' : Key) : onWay { s with queue, working := t :: s.working } t' = onWay s t' := by
      simp only [onWay, hqueue, List.count_cons]
      omega
    exact ⟨rfl, List.Subset.refl _, fun t' => Nat.le_of_eq (hsame t'), List.Subset.refl _,
      fun t' => Or.inl (Nat.le_of_eq (hsame t').symm)⟩

theorem quiet_finish {s s' : State} {t : Key} {o : Outcome}
    (hstep : step j s (.finish t o) = some s') : Quiet s s' := by
  simp only [step] at hstep
  split at hstep
  next ht =>
    cases hstep
    have hsame (t' : Key) : onWay { s with
        working := s.working.erase t
        results := fun n => if n = t.1 then ⟨t.2, o⟩ :: s.results n else s.results n } t' =
        onWay s t' := by
      have hresults := count_results s.results t t' o
      have hworking := count_erase_add ht t'
      simp only [onWay]
      omega
    exact ⟨rfl, List.Subset.refl _, fun t' => Nat.le_of_eq (hsame t'), List.Subset.refl _,
      fun t' => Or.inl (Nat.le_of_eq (hsame t').symm)⟩
  · cases hstep

theorem quiet_die {s s' : State} {t : Key} (hstep : step j s (.die t) = some s') : Quiet s s' := by
  simp only [step] at hstep
  split at hstep
  next ht =>
    cases hstep
    have hless (t' : Key) : onWay { s with
        working := s.working.erase t, lost := t :: s.lost } t' + [t].count t' = onWay s t' := by
      have hworking := count_erase_add ht t'
      simp only [onWay]
      omega
    refine ⟨rfl, List.Subset.refl _, fun t' => ?_, List.subset_cons_self _ _, fun t' => ?_⟩
    · have hle := hless t'
      omega
    · by_cases heq : t' = t
      · exact Or.inr (heq ▸ List.mem_cons_self)
      · have hle := hless t'
        rw [List.count_eq_zero.mpr (by simpa using heq)] at hle
        exact Or.inl (by omega)
  · cases hstep

theorem quiet_expire (s : State) (t : Key) :
    Quiet s { s with keys := s.keys.filter fun k => k ≠ t } :=
  ⟨rfl, fun _ hk => List.mem_of_mem_filter hk, fun _ => Nat.le_refl _, List.Subset.refl _,
    fun _ => Or.inl (Nat.le_refl _)⟩

theorem Inv.quiet {s s' : State} (h : Inv j s) (hq : Quiet s s') : Inv j s' := by
  have hc := hq.coordinator
  have haccounted (t : Bbox × Text) : accounted s' t ≤ accounted s t := by
    unfold accounted
    rw [hc]
    exact Nat.add_le_add_left (hq.fewer _) _
  refine ⟨hc ▸ h.planned, hc ▸ h.counted, hc ▸ h.merged, hc ▸ h.earlier, ?_, ?_, ?_⟩
  · intro hphase t
    rw [hc] at hphase
    have honce := h.once hphase t
    have hle := haccounted t
    omega
  · intro hphase t ht
    rw [hc] at hphase ⊢
    exact h.own hphase t (Nat.lt_of_lt_of_le ht (haccounted t))
  · intro x hx
    rw [hc] at hx ⊢
    rcases h.sent x hx with hpos | hin
    · rcases hq.kept (s.coordinator.round, x.task) with hsame | hdied
      · left
        unfold accounted at hpos ⊢
        rw [hc]
        omega
      · exact Or.inr hdied
    · exact Or.inr (hq.lost hin)

/-! ## Steps of the coordinator -/

theorem Coordinator.sendShard_rows (c : Coordinator) (x : Shard) :
    (c.sendShard x).rows = c.rows ∧ (c.sendShard x).extras = c.extras ∧
      (c.sendShard x).bboxes = c.bboxes ∧ (c.sendShard x).round = c.round ∧
      (c.sendShard x).merged = c.merged ∧ (c.sendShard x).results = c.results ∧
      (c.sendShard x).sent = c.sent ++ [x] := by
  unfold Coordinator.sendShard
  split <;> exact ⟨rfl, rfl, rfl, rfl, rfl, rfl, rfl⟩

theorem Coordinator.receive_rows (c : Coordinator) (r : Result) :
    (c.receive r).rows = c.rows ∧ (c.receive r).extras = c.extras ∧
      (c.receive r).bboxes = c.bboxes ∧ (c.receive r).round = c.round ∧
      (c.receive r).merged = c.merged ∧ (c.receive r).results = c.results ++ [r] ∧
      (c.receive r).sent = c.sent := by
  unfold Coordinator.receive
  split <;> exact ⟨rfl, rfl, rfl, rfl, rfl, rfl, rfl⟩

/-- What holds of the coordinator before each of its moves. -/
theorem Coordinator.move_spec (c : Coordinator) :
    match c.move j with
    | .enqueue x => (c.phase = .dispatch ∧ ∃ rest, c.rest = x :: rest) ∨
        ∃ rest, c.phase = .enqueueExtras (x :: rest)
    | .wait => (c.phase = .dispatch ∧ c.results.length < c.rows.length ∧ 0 < c.inFlight) ∨
        ∃ left, c.phase = .awaitExtras (left + 1)
    | .leave => (c.phase = .dispatch ∧
          (c.rows.length ≤ c.results.length ∨ c.rest = [] ∧ c.inFlight = 0)) ∨
        c.phase = .enqueueExtras [] ∨ c.phase = .awaitExtras 0
    | .merge => c.phase = .merge
    | .stop => c.phase = .completed ∨ c.phase = .failed := by
  have hwave := j.settings.shardWave_pos
  cases hphase : c.phase with
  | dispatch =>
    by_cases hless : c.results.length < c.rows.length
    · cases hrest : c.rest with
      | nil =>
        by_cases hnone : c.inFlight = 0
        · simp [move, hphase, hless, hrest, hnone]
        · simp [move, hphase, hless, hrest, hnone]
          omega
      | cons x rest =>
        by_cases hroom : c.inFlight < j.settings.shardWave
        · simp [move, hphase, hless, hrest, hroom]
        · simp [move, hphase, hless, hrest, hroom]
          omega
    · simp [move, hphase, hless]
      omega
  | enqueueExtras rest =>
    cases rest with
    | nil => simp [move, hphase]
    | cons x rest => simp [move, hphase]
  | awaitExtras left =>
    cases left with
    | zero => simp [move, hphase]
    | succ left => simp [move, hphase]
  | merge => simp [move, hphase]
  | completed => simp [move, hphase]
  | failed => simp [move, hphase]

theorem enqueueKey_lost (s : State) (t : Key) : (enqueueKey s t).lost = s.lost := by
  unfold enqueueKey
  split <;> rfl

theorem onWay_enqueueKey (s : State) (t t' : Key) :
    onWay (enqueueKey s t) t' = onWay s t' + if t ∈ s.keys then 0 else [t].count t' := by
  unfold enqueueKey
  split
  · rfl
  · simp only [onWay, List.count_append]
    omega

theorem count_pair (r : Nat) (t t' : Bbox × Text) : [(r, t)].count (r, t') = [t].count t' := by
  simp [List.count_singleton]

/-- An enqueued shard is accounted for when its key was found. -/
theorem Inv.enqueue {s : State} (h : Inv j s) {x : Shard}
    (hmove : s.coordinator.move j = .enqueue x)
    (hmeets : (s.coordinator.round, x.task) ∈ s.keys ↔ accounted s x.task = 1) :
    Inv j { enqueueKey s (s.coordinator.round, x.task) with
      coordinator := s.coordinator.sendShard x } := by
  obtain ⟨hrows, hextras, hbboxes, hround, hmerged, hresults, hsent⟩ :=
    s.coordinator.sendShard_rows x
  have hspec := s.coordinator.move_spec (j := j)
  rw [hmove] at hspec
  have hphase : s.coordinator.phase ≠ .completed := by
    rcases hspec with ⟨hphase, -⟩ | ⟨rest, hphase⟩
    · simp [hphase]
    · simp [hphase]
  have haccounted (t : Bbox × Text) :
      accounted { enqueueKey s (s.coordinator.round, x.task) with
        coordinator := s.coordinator.sendShard x } t = accounted s t +
          if (s.coordinator.round, x.task) ∈ s.keys then 0 else [x.task].count t := by
    have honWay := onWay_enqueueKey s (s.coordinator.round, x.task) (s.coordinator.round, t)
    rw [count_pair] at honWay
    unfold accounted
    rw [hresults, hround, Nat.add_assoc, ← honWay]
    rfl
  have hcounted : (s.coordinator.sendShard x).Counted := by
    have hcounted := h.counted
    rcases hspec with ⟨hphase, rest, hrest⟩ | ⟨rest, hphase⟩
    · simp only [Coordinator.Counted, hphase, hrest] at hcounted
      obtain ⟨hall, hnone, hnum⟩ := hcounted
      simp only [Coordinator.Counted, Coordinator.sendShard, hphase, hrest, List.tail_cons,
        List.append_assoc, List.singleton_append, List.length_append, List.length_singleton]
      exact ⟨hall, hnone, by omega⟩
    · simp only [Coordinator.Counted, hphase] at hcounted
      simpa [Coordinator.Counted, Coordinator.sendShard, hphase] using hcounted
  have hx : x.task ∈ (s.coordinator.rows ++ s.coordinator.extras).map Shard.task := by
    have hmem := hcounted.subset (a := x) (by simp [hsent])
    rw [hrows, hextras] at hmem
    exact List.mem_map_of_mem hmem
  refine ⟨⟨?_, ?_, ?_⟩, hcounted, ?_, ?_, ?_, ?_, ?_⟩
  · exact hbboxes ▸ h.planned.bboxes
  · exact hrows ▸ hbboxes ▸ h.planned.rows
  · exact hrows ▸ hextras ▸ h.planned.tasks
  · exact hmerged ▸ h.merged
  · exact hmerged ▸ hround ▸ h.earlier
  · intro _ t
    rw [haccounted]
    have honce := h.once hphase t
    split
    · exact honce
    next hkey =>
      by_cases ht : t = x.task
      · subst ht
        have hne : accounted s x.task ≠ 1 := fun heq => hkey (hmeets.mpr heq)
        simp only [List.count_singleton_self]
        omega
      · rw [List.count_eq_zero.mpr (by simpa using ht)]
        exact honce
  · intro _ t ht
    rw [haccounted] at ht
    show t ∈ ((s.coordinator.sendShard x).rows ++ (s.coordinator.sendShard x).extras).map _
    rw [hrows, hextras]
    by_cases heq : t = x.task
    · exact heq ▸ hx
    · have hzero : [x.task].count t = 0 := List.count_eq_zero.mpr (by simpa using heq)
      refine h.own hphase t ?_
      rw [hzero] at ht
      simpa using ht
  · intro y hy
    show _ ∨ ((s.coordinator.sendShard x).round, y.task) ∈ (enqueueKey s _).lost
    rw [haccounted, hround, enqueueKey_lost]
    rcases List.mem_append.mp (hsent ▸ hy) with hold | hnew
    · rcases h.sent y hold with hpos | hlost
      · exact Or.inl (by omega)
      · exact Or.inr hlost
    · left
      rw [List.mem_singleton.mp hnew]
      split
      next hkey =>
        rw [hmeets.mp hkey]
        omega
      · simp only [List.count_singleton_self]
        omega

/-- A step within the round that enqueues nothing and loses no result. -/
theorem Inv.keep {s s' : State} (h : Inv j s) (hphase : s.coordinator.phase ≠ .completed)
    (hplanned : s'.coordinator.Planned j) (hcounted : s'.coordinator.Counted)
    (hsub : s.coordinator.rows ++ s.coordinator.extras ⊆
      s'.coordinator.rows ++ s'.coordinator.extras)
    (hround : s'.coordinator.round = s.coordinator.round)
    (hmerged : s'.coordinator.merged = s.coordinator.merged)
    (hsent : s'.coordinator.sent = s.coordinator.sent) (hlost : s'.lost = s.lost)
    (haccounted : ∀ t, accounted s' t = accounted s t) : Inv j s' := by
  refine ⟨hplanned, hcounted, hmerged ▸ h.merged, hmerged ▸ hround ▸ h.earlier, ?_, ?_, ?_⟩
  · intro _ t
    rw [haccounted]
    exact h.once hphase t
  · intro _ t ht
    rw [haccounted] at ht
    exact List.map_subset _ hsub (h.own hphase t ht)
  · intro x hx
    rw [haccounted, hround, hlost]
    exact h.sent x (hsent ▸ hx)

/-- A result that arrives was on its way. -/
theorem Inv.receive {s : State} (h : Inv j s) {r : Result} {rs : List Result}
    (hmove : s.coordinator.move j = .wait) (hlist : s.results s.coordinator.round = r :: rs) :
    Inv j { s with
      results := fun n => if n = s.coordinator.round then rs else s.results n
      coordinator := s.coordinator.receive r } := by
  obtain ⟨hrows, hextras, hbboxes, hround, hmerged, hresults, hsent⟩ :=
    s.coordinator.receive_rows r
  have hspec := s.coordinator.move_spec (j := j)
  rw [hmove] at hspec
  have hphase : s.coordinator.phase ≠ .completed := by
    rcases hspec with ⟨hphase, -⟩ | ⟨left, hphase⟩
    · simp [hphase]
    · simp [hphase]
  have haccounted (t : Bbox × Text) :
      accounted { s with
        results := fun n => if n = s.coordinator.round then rs else s.results n
        coordinator := s.coordinator.receive r } t = accounted s t := by
    simp only [accounted, onWay, hresults, hround, hlist, List.map_append, List.map_cons,
      List.map_nil, List.count_append, List.count_cons, List.count_nil, if_true]
    omega
  have hcounted : (s.coordinator.receive r).Counted := by
    have hcounted := h.counted
    rcases hspec with ⟨hphase, -, hpos⟩ | ⟨left, hphase⟩
    · simp only [Coordinator.Counted, hphase] at hcounted
      obtain ⟨hall, hnone, hnum⟩ := hcounted
      simp only [Coordinator.Counted, Coordinator.receive, hphase, List.length_append,
        List.length_singleton]
      exact ⟨hall, hnone, by omega⟩
    · simp only [Coordinator.Counted, hphase] at hcounted
      simp only [Coordinator.Counted, Coordinator.receive, hphase, List.length_append,
        List.length_singleton]
      exact ⟨hcounted.1, by omega⟩
  have hplanned : (s.coordinator.receive r).Planned j :=
    ⟨hbboxes ▸ h.planned.bboxes, hrows ▸ hbboxes ▸ h.planned.rows,
      hrows ▸ hextras ▸ h.planned.tasks⟩
  exact h.keep hphase hplanned hcounted (hrows ▸ hextras ▸ List.Subset.refl _) hround hmerged
    hsent rfl haccounted

theorem Coordinator.leave_rows (c : Coordinator) :
    (c.leave j).rows = c.rows ∧ (c.leave j).bboxes = c.bboxes ∧ (c.leave j).round = c.round ∧
      (c.leave j).merged = c.merged ∧ (c.leave j).results = c.results ∧
      (c.leave j).sent = c.sent ∧
      ((c.leave j).extras = c.extras ∨
        c.phase = .dispatch ∧ (c.leave j).extras = c.children j) := by
  unfold Coordinator.leave
  split
  next hphase =>
    split
    · exact ⟨rfl, rfl, rfl, rfl, rfl, rfl, Or.inl rfl⟩
    · split
      · exact ⟨rfl, rfl, rfl, rfl, rfl, rfl, Or.inl rfl⟩
      · exact ⟨rfl, rfl, rfl, rfl, rfl, rfl, Or.inr ⟨hphase, rfl⟩⟩
  all_goals exact ⟨rfl, rfl, rfl, rfl, rfl, rfl, Or.inl rfl⟩

/-- A loop ends with all its results, or the round is reported. -/
theorem Coordinator.leave_counted {c : Coordinator} (h : c.Counted)
    (hmove : c.move j = .leave ∨
      c.move j = .wait ∧ c.phase = .dispatch ∧ j.failOnPartial = true) :
    (c.leave j).Counted := by
  have hspec := c.move_spec (j := j)
  rcases hmove with hmove | ⟨hmove, hphase, hfail⟩
  · rw [hmove] at hspec
    rcases hspec with ⟨hphase, hend⟩ | hphase | hphase
    · simp only [Counted, hphase] at h
      obtain ⟨hall, hnone, hnum⟩ := h
      have hlen := congrArg List.length hall
      rw [List.length_append] at hlen
      have hdone : c.results.length = c.rows.length ∧ c.rest.length = 0 := by
        rcases hend with hend | ⟨hrest, hzero⟩
        · omega
        · have hrest := congrArg List.length hrest
          rw [List.length_nil] at hrest
          omega
      have hsent : c.sent = c.rows := by
        rw [List.length_eq_zero_iff.mp hdone.2, List.append_nil] at hall
        exact hall
      have hfull : ¬ (c.results.length < c.rows.length ∧ j.failOnPartial = true) := by
        omega
      simp only [leave, hphase, if_neg hfull]
      split
      · simp only [Counted, hnone, List.append_nil]
        exact ⟨hsent, by omega⟩
      · simp only [Counted, hsent, true_and]
        exact hdone.1
    · simp only [Counted, hphase, List.append_nil] at h
      simp only [leave, hphase, Counted, h.1, List.length_append, true_and]
      omega
    · simp only [Counted, hphase] at h
      simp only [leave, hphase, Counted]
      exact ⟨h.1, by omega⟩
  · rw [hmove] at hspec
    rcases hspec with ⟨-, hless, -⟩ | ⟨left, hawait⟩
    · have hsub := h.subset
      simp only [leave, hphase, if_pos (And.intro hless hfail), Counted]
      exact hsub
    · rw [hphase] at hawait
      cases hawait

theorem Inv.leave {s : State} (hslices : j.datetimeSlices.Nodup) (h : Inv j s)
    (hmove : s.coordinator.move j = .leave ∨
      s.coordinator.move j = .wait ∧ s.coordinator.phase = .dispatch ∧ j.failOnPartial = true) :
    Inv j { s with coordinator := s.coordinator.leave j } := by
  obtain ⟨hrows, hbboxes, hround, hmerged, hresults, hsent, hextras⟩ :=
    s.coordinator.leave_rows (j := j)
  have hphase : s.coordinator.phase ≠ .completed := by
    intro hphase
    rcases hmove with hmove | ⟨-, hdispatch, -⟩
    · simp [Coordinator.move, hphase] at hmove
    · rw [hphase] at hdispatch
      cases hdispatch
  have haccounted (t : Bbox × Text) :
      accounted { s with coordinator := s.coordinator.leave j } t = accounted s t := by
    simp only [accounted, onWay, hresults, hround]
  have hsub : s.coordinator.rows ++ s.coordinator.extras ⊆
      (s.coordinator.leave j).rows ++ (s.coordinator.leave j).extras := by
    rw [hrows]
    rcases hextras with hsame | ⟨hdispatch, hchildren⟩
    · rw [hsame]
      exact List.Subset.refl _
    · have hcounted := h.counted
      simp only [Coordinator.Counted, hdispatch] at hcounted
      rw [hcounted.2.1, List.append_nil]
      exact List.subset_append_left _ _
  have htasks : (((s.coordinator.leave j).rows ++ (s.coordinator.leave j).extras).map
      Shard.task).Nodup := by
    rw [hrows]
    rcases hextras with hsame | ⟨-, hchildren⟩
    · rw [hsame]
      exact h.planned.tasks
    · rw [hchildren]
      exact Coordinator.rows_children_tasks hslices h.planned.bboxes h.planned.rows
  have hplanned : (s.coordinator.leave j).Planned j :=
    ⟨hbboxes ▸ h.planned.bboxes, hrows ▸ hbboxes ▸ h.planned.rows, htasks⟩
  exact h.keep hphase hplanned (Coordinator.leave_counted h.counted hmove) hsub hround hmerged
    hsent rfl haccounted

/-! ## What follows from the invariant -/

theorem Inv.results_nodup {s : State} (h : Inv j s) :
    (s.coordinator.results.map Result.task).Nodup := by
  have hcounted := h.counted
  by_cases hphase : s.coordinator.phase = .completed
  · simp only [Coordinator.Counted, hphase] at hcounted
    simp [hcounted.2]
  · rw [List.nodup_iff_count_le_one]
    intro t
    exact Nat.le_trans (Nat.le_add_right _ _) (h.once hphase t)

theorem Inv.mergedNext_nodup {s : State} (h : Inv j s) :
    (s.coordinator.mergedNext.map fun m => (m.1, m.2.task)).Nodup := by
  unfold Coordinator.mergedNext
  rw [List.map_append, List.map_map, List.nodup_append]
  refine ⟨h.merged, ?_, ?_⟩
  · have hpairs := h.results_nodup.map (f := fun t => (s.coordinator.round, t))
      fun t t' heq => (Prod.mk.inj heq).2
    rw [List.map_map] at hpairs
    exact hpairs
  · rintro k hk k' hk' rfl
    obtain ⟨m, hm, rfl⟩ := List.mem_map.mp hk
    obtain ⟨r, -, heq⟩ := List.mem_map.mp hk'
    have hless := h.earlier m hm
    have hround : s.coordinator.round = m.1 := (Prod.mk.inj heq).1
    omega

/-- The results of a round that is merged are those of all its shards. -/
theorem Inv.complete {s : State} (h : Inv j s) (hphase : s.coordinator.phase = .merge) :
    ∀ x ∈ s.coordinator.sent, ∃ r ∈ s.coordinator.results, r.task = x.task := by
  have hcounted := h.counted
  simp only [Coordinator.Counted, hphase] at hcounted
  obtain ⟨hsent, hlength⟩ := hcounted
  have hsub : s.coordinator.results.map Result.task ⊆ s.coordinator.sent.map Shard.task := by
    intro t ht
    rw [hsent]
    have hpos := List.count_pos_iff.mpr ht
    refine h.own (by simp [hphase]) t ?_
    unfold accounted
    omega
  have hperm : (s.coordinator.results.map Result.task).Perm (s.coordinator.sent.map Shard.task) :=
    (List.subperm_of_subset h.results_nodup hsub).perm_of_length_le (by simp [hlength])
  intro x hx
  exact List.mem_map.mp (hperm.mem_iff.mpr (List.mem_map_of_mem hx))

theorem mem_expected {s : State} {t : Bbox × Text} (h : 0 < onWay s (s.coordinator.round, t)) :
    t ∈ expected s := by
  unfold onWay at h
  unfold expected
  simp only [List.mem_append, List.mem_map, List.mem_filter, decide_eq_true_eq]
  by_cases hqueue : (s.coordinator.round, t) ∈ s.queue
  · exact Or.inl ⟨_, ⟨Or.inl hqueue, rfl⟩, rfl⟩
  · by_cases hworking : (s.coordinator.round, t) ∈ s.working
    · exact Or.inl ⟨_, ⟨Or.inr hworking, rfl⟩, rfl⟩
    · simp only [List.count_eq_zero.mpr hqueue, List.count_eq_zero.mpr hworking,
        Nat.zero_add] at h
      exact Or.inr (List.mem_map.mp (List.count_pos_iff.mp h))

/-- Different shards have different messages. -/
theorem Inv.sent_le {s : State} (h : Inv j s)
    (hsub : s.coordinator.sent.Sublist (s.coordinator.rows ++ s.coordinator.extras)) :
    s.coordinator.sent.length ≤ s.coordinator.results.length + ((expected s).length +
      (s.lost.filter fun t => t.1 = s.coordinator.round).length) := by
  have hnodup : (s.coordinator.sent.map Shard.task).Nodup :=
    h.planned.tasks.sublist (hsub.map Shard.task)
  have hall : s.coordinator.sent.map Shard.task ⊆ s.coordinator.results.map Result.task ++
      (expected s ++ (s.lost.filter fun t => t.1 = s.coordinator.round).map Prod.snd) := by
    intro t ht
    obtain ⟨x, hx, rfl⟩ := List.mem_map.mp ht
    rw [List.mem_append, List.mem_append]
    rcases h.sent x hx with hpos | hlost
    · by_cases hresult : x.task ∈ s.coordinator.results.map Result.task
      · exact Or.inl hresult
      · unfold accounted at hpos
        rw [List.count_eq_zero.mpr hresult, Nat.zero_add] at hpos
        exact Or.inr (Or.inl (mem_expected hpos))
    · exact Or.inr (Or.inr (List.mem_map.mpr ⟨_, List.mem_filter.mpr ⟨hlost, by simp⟩, rfl⟩))
  have hle := (List.subperm_of_subset hnodup hall).length_le
  simpa using hle

theorem Inv.enough {s : State} (h : Inv j s) : s.coordinator.awaited ≤ (expected s).length +
    (s.lost.filter fun t => t.1 = s.coordinator.round).length := by
  have hcounted := h.counted
  unfold Coordinator.awaited
  split
  next hphase =>
    simp only [Coordinator.Counted, hphase] at hcounted
    have hsub : s.coordinator.sent.Sublist (s.coordinator.rows ++ s.coordinator.extras) := by
      rw [← hcounted.1, List.append_assoc]
      exact List.sublist_append_left _ _
    have hle := h.sent_le hsub
    omega
  next left hphase =>
    simp only [Coordinator.Counted, hphase] at hcounted
    have hle := h.sent_le (hcounted.1 ▸ List.Sublist.refl _)
    omega
  · exact Nat.zero_le _

theorem Inv.matched {s : State} (h : Inv j s) : Matched s :=
  ⟨h.mergedNext_nodup, h.complete, h.sent, h.enough⟩

/-! ## Runs -/

theorem Inv.step {s s' : State} (hslices : j.datetimeSlices.Nodup) (h : Inv j s) {e : Event}
    (hmeets : Meets j s e) (hstep : Subtask.step j s e = some s') : Inv j s' := by
  cases e with
  | coordinator =>
    simp only [Subtask.step] at hstep
    simp only [Meets] at hmeets
    cases hmove : s.coordinator.move j with
    | enqueue x =>
      simp only [hmove] at hstep hmeets
      cases hstep
      exact h.enqueue hmove hmeets
    | wait =>
      simp only [hmove] at hstep
      split at hstep
      · cases hstep
      next r rs hlist =>
        cases hstep
        exact h.receive hmove hlist
    | leave =>
      simp only [hmove] at hstep
      cases hstep
      exact h.leave hslices (Or.inl hmove)
    | merge =>
      simp only [hmove] at hstep hmeets
      cases hstep
      refine Inv.startRound hslices (s := { s with coordinator := _ }) hmeets h.mergedNext_nodup
        ?_ rfl
      intro m hm
      rcases List.mem_append.mp hm with hm | hm
      · exact Nat.lt_succ_of_lt (h.earlier m hm)
      · obtain ⟨r, -, rfl⟩ := List.mem_map.mp hm
        exact Nat.lt_succ_self _
    | stop =>
      simp only [hmove] at hstep
      cases hstep
  | timeout =>
    simp only [Subtask.step] at hstep
    split at hstep
    next hmove hnone =>
      cases hstep
      exact h.leave hslices (Or.inr ⟨hmove, hmeets⟩)
    · cases hstep
  | restart =>
    cases hstep
    exact Inv.startRound hslices (s := { s with lost := [], coordinator := _ }) hmeets (by simp)
      (by simp) rfl
  | take => exact h.quiet (quiet_take hstep)
  | finish t o => exact h.quiet (quiet_finish hstep)
  | die t => exact h.quiet (quiet_die hstep)
  | expire t =>
    cases hstep
    exact h.quiet (quiet_expire s t)

theorem Inv.run {s s' : State} (hslices : j.datetimeSlices.Nodup) (h : Inv j s) {es : List Event}
    (hmeets : Along j (Meets j) s es) (hrun : Subtask.run j s es = some s') : Inv j s' := by
  induction es generalizing s with
  | nil =>
    cases hrun
    exact h
  | cons e es ih =>
    obtain ⟨hfirst, hrest⟩ := hmeets
    simp only [Subtask.run, List.foldlM_cons, Option.bind_eq_bind, Option.bind_eq_some_iff] at hrun
    obtain ⟨s₁, hstep, hrun⟩ := hrun
    exact ih (h.step hslices hfirst hstep) (hrest s₁ hstep) hrun

theorem Inv.start (hslices : j.datetimeSlices.Nodup) : Inv j (Subtask.start j) :=
  Inv.startRound hslices (fun t => by simp [onWay, Subtask.start]) (by simp) (by simp) rfl

theorem results_matched (hslices : j.datetimeSlices.Nodup) {es : List Event} {s : State}
    (hmeets : Along j (Meets j) (start j) es) (hrun : run j (start j) es = some s) : Matched s :=
  ((Inv.start hslices).run hslices hmeets hrun).matched

/-! ## Runs without a second start -/

/-- Only the shards that are enqueued have a key or a message. -/
structure First (s : State) : Prop where
  keys : ∀ t ∈ s.keys, t.1 < s.coordinator.round ∨
    t.1 = s.coordinator.round ∧ t.2 ∈ s.coordinator.sent.map Shard.task
  messages : ∀ t, 0 < onWay s t → t.1 < s.coordinator.round ∨
    t.1 = s.coordinator.round ∧ t.2 ∈ s.coordinator.sent.map Shard.task
  results : ∀ r ∈ s.coordinator.results, r.task ∈ s.coordinator.sent.map Shard.task

theorem First.accounted {s : State} (h : First s) {t : Bbox × Text} (ht : 0 < accounted s t) :
    t ∈ s.coordinator.sent.map Shard.task := by
  by_cases hresult : t ∈ s.coordinator.results.map Result.task
  · obtain ⟨r, hr, rfl⟩ := List.mem_map.mp hresult
    exact h.results r hr
  · unfold Subtask.accounted at ht
    rw [List.count_eq_zero.mpr hresult, Nat.zero_add] at ht
    rcases h.messages _ ht with hless | ⟨-, hmem⟩
    · exact absurd hless (Nat.lt_irrefl _)
    · exact hmem

/-- The next shard is not enqueued yet. -/
theorem Inv.next_not_sent {s : State} (h : Inv j s) {x : Shard}
    (hmove : s.coordinator.move j = .enqueue x) :
    x.task ∉ s.coordinator.sent.map Shard.task := by
  have hspec := s.coordinator.move_spec (j := j)
  rw [hmove] at hspec
  have hcounted := h.counted
  have htasks := h.planned.tasks
  obtain ⟨rest, hsplit⟩ : ∃ rest, (s.coordinator.sent ++ x :: rest).Sublist
      (s.coordinator.rows ++ s.coordinator.extras) := by
    rcases hspec with ⟨hphase, rest, hrest⟩ | ⟨rest, hphase⟩
    · simp only [Coordinator.Counted, hphase, hrest] at hcounted
      exact ⟨rest, hcounted.1 ▸ List.sublist_append_left _ _⟩
    · simp only [Coordinator.Counted, hphase] at hcounted
      exact ⟨rest, hcounted.1 ▸ List.Sublist.refl _⟩
  have hnodup := htasks.sublist (hsplit.map Shard.task)
  rw [List.map_append, List.map_cons, List.nodup_append] at hnodup
  intro hmem
  exact hnodup.2.2 _ hmem _ List.mem_cons_self rfl

theorem First.meets {s : State} (hinv : Inv j s) (h : First s) {e : Event}
    (he : Ordinary j s e) : Meets j s e := by
  cases e with
  | coordinator =>
    simp only [Meets]
    cases hmove : s.coordinator.move j with
    | enqueue x =>
      have hnew := hinv.next_not_sent hmove
      constructor
      · intro hkey
        rcases h.keys _ hkey with hless | ⟨-, hmem⟩
        · exact absurd hless (Nat.lt_irrefl _)
        · exact absurd hmem hnew
      · intro hone
        exact absurd (h.accounted (by omega)) hnew
    | merge =>
      intro t
      have hzero : onWay s (s.coordinator.round + 1, t) = 0 := by
        by_contra hne
        rcases h.messages _ (Nat.pos_of_ne_zero hne) with hless | ⟨hsame, -⟩
        · exact absurd hless (by simp)
        · exact absurd hsame (by simp)
      rw [hzero]
      exact ⟨Nat.zero_le _, fun hpos => absurd hpos (Nat.lt_irrefl _)⟩
    | wait => trivial
    | leave => trivial
    | stop => trivial
  | timeout => exact he
  | restart => exact he.elim
  | take => trivial
  | finish t o => trivial
  | die t => trivial
  | expire t => trivial

theorem First.quiet {s s' : State} (h : First s) (hq : Quiet s s') : First s' := by
  have hc := hq.coordinator
  refine ⟨?_, ?_, hc ▸ h.results⟩
  · intro t ht
    exact hc ▸ h.keys t (hq.keys ht)
  · intro t ht
    exact hc ▸ h.messages t (Nat.lt_of_lt_of_le ht (hq.fewer t))

/-- The messages and keys of the round are those of the shards that are enqueued, also after a
step of the coordinator that enqueues nothing. -/
theorem First.of_coordinator {s s' : State} (h : First s) (hkeys : s'.keys = s.keys)
    (hmessages : ∀ t, onWay s' t ≤ onWay s t)
    (hround : s'.coordinator.round = s.coordinator.round)
    (hsent : s'.coordinator.sent = s.coordinator.sent)
    (hresults : ∀ r ∈ s'.coordinator.results, r ∈ s.coordinator.results ∨
      0 < onWay s (s.coordinator.round, r.task)) : First s' := by
  refine ⟨?_, ?_, ?_⟩
  · rw [hkeys, hround, hsent]
    exact h.keys
  · intro t ht
    rw [hround, hsent]
    exact h.messages t (Nat.lt_of_lt_of_le ht (hmessages t))
  · intro r hr
    rw [hsent]
    rcases hresults r hr with hold | hnew
    · exact h.results r hold
    · rcases h.messages _ hnew with hless | ⟨-, hmem⟩
      · exact absurd hless (Nat.lt_irrefl _)
      · exact hmem

theorem First.enqueue {s : State} (h : First s) (x : Shard) :
    First { enqueueKey s (s.coordinator.round, x.task) with
      coordinator := s.coordinator.sendShard x } := by
  obtain ⟨-, -, -, hround, -, hresults, hsent⟩ := s.coordinator.sendShard_rows x
  have hmore {t : Key} (ht : t.1 < s.coordinator.round ∨
      t.1 = s.coordinator.round ∧ t.2 ∈ s.coordinator.sent.map Shard.task) :
      t.1 < s.coordinator.round ∨
        t.1 = s.coordinator.round ∧ t.2 ∈ (s.coordinator.sent ++ [x]).map Shard.task := by
    rcases ht with hless | ⟨hsame, hmem⟩
    · exact Or.inl hless
    · rw [List.map_append]
      exact Or.inr ⟨hsame, List.mem_append_left _ hmem⟩
  have hnew : (s.coordinator.round, x.task).1 < s.coordinator.round ∨
      (s.coordinator.round, x.task).1 = s.coordinator.round ∧
        (s.coordinator.round, x.task).2 ∈ (s.coordinator.sent ++ [x]).map Shard.task := by
    right
    simp
  refine ⟨?_, ?_, ?_⟩
  · intro t ht
    simp only [hround, hsent]
    have hcases : t = (s.coordinator.round, x.task) ∨ t ∈ s.keys := by
      unfold enqueueKey at ht
      split at ht
      · exact Or.inr ht
      · exact List.mem_cons.mp ht
    rcases hcases with rfl | hold
    · exact hnew
    · exact hmore (h.keys t hold)
  · intro t ht
    simp only [hround, hsent]
    have honWay := onWay_enqueueKey s (s.coordinator.round, x.task) t
    by_cases heq : t = (s.coordinator.round, x.task)
    · exact heq ▸ hnew
    · rw [List.count_eq_zero.mpr (by simpa using heq)] at honWay
      refine hmore (h.messages t ?_)
      have hsame : onWay (enqueueKey s (s.coordinator.round, x.task)) t = onWay s t := by
        simpa using honWay
      rw [← hsame]
      exact ht
  · intro r hr
    rw [hresults] at hr
    rw [hsent, List.map_append]
    exact List.mem_append_left _ (h.results r hr)

theorem First.step {s s' : State} (h : First s) {e : Event} (he : Ordinary j s e)
    (hstep : Subtask.step j s e = some s') : First s' := by
  cases e with
  | coordinator =>
    simp only [Subtask.step] at hstep
    cases hmove : s.coordinator.move j with
    | enqueue x =>
      simp only [hmove] at hstep
      cases hstep
      exact h.enqueue x
    | wait =>
      simp only [hmove] at hstep
      split at hstep
      · cases hstep
      next r rs hlist =>
        cases hstep
        obtain ⟨-, -, -, hround, -, hresults, hsent⟩ := s.coordinator.receive_rows r
        refine h.of_coordinator rfl ?_ hround hsent ?_
        · intro t
          by_cases ht : t.1 = s.coordinator.round
          · simp only [onWay, ht, hlist, List.map_cons, List.count_cons, if_true]
            omega
          · simp [onWay, ht]
        · intro r' hr'
          rw [hresults] at hr'
          rcases List.mem_append.mp hr' with hold | hnew
          · exact Or.inl hold
          · rw [List.mem_singleton.mp hnew]
            right
            simp only [onWay, hlist, List.map_cons, List.count_cons_self]
            omega
    | leave =>
      simp only [hmove] at hstep
      cases hstep
      obtain ⟨-, -, hround, -, hresults, hsent, -⟩ := s.coordinator.leave_rows (j := j)
      exact h.of_coordinator rfl (fun _ => Nat.le_refl _) hround hsent
        fun r hr => Or.inl (hresults ▸ hr)
    | merge =>
      simp only [hmove] at hstep
      cases hstep
      refine ⟨?_, ?_, by simp [startRound]⟩
      · intro t ht
        left
        rcases h.keys t ht with hless | ⟨hsame, -⟩
        · exact Nat.lt_succ_of_lt hless
        · exact hsame ▸ Nat.lt_succ_self _
      · intro t ht
        left
        rcases h.messages t ht with hless | ⟨hsame, -⟩
        · exact Nat.lt_succ_of_lt hless
        · exact hsame ▸ Nat.lt_succ_self _
    | stop =>
      simp only [hmove] at hstep
      cases hstep
  | timeout =>
    simp only [Subtask.step] at hstep
    split at hstep
    · cases hstep
      obtain ⟨-, -, hround, -, hresults, hsent, -⟩ := s.coordinator.leave_rows (j := j)
      exact h.of_coordinator rfl (fun _ => Nat.le_refl _) hround hsent
        fun r hr => Or.inl (hresults ▸ hr)
    · cases hstep
  | restart => exact he.elim
  | take => exact h.quiet (quiet_take hstep)
  | finish t o => exact h.quiet (quiet_finish hstep)
  | die t => exact h.quiet (quiet_die hstep)
  | expire t =>
    cases hstep
    exact h.quiet (quiet_expire s t)

/-- A coordinator that is started once, in a Redis without the job, never finds a key. -/
theorem Along.of_ordinary (hslices : j.datetimeSlices.Nodup) {s : State} (hinv : Inv j s)
    (hfirst : First s) {es : List Event} (h : Along j (Ordinary j) s es) :
    Along j (Meets j) s es := by
  induction es generalizing s with
  | nil => trivial
  | cons e es ih =>
    obtain ⟨he, hrest⟩ := h
    have hmeets := hfirst.meets hinv he
    refine ⟨hmeets, fun s' hstep => ?_⟩
    exact ih (hinv.step hslices hmeets hstep) (hfirst.step he hstep) (hrest s' hstep)

theorem first_start : First (start j) := ⟨by simp [start], by simp [start, onWay], by
  simp [start, startRound]⟩

/-! ## One box -/

/-- A plan with one box and one datetime slice. -/
def oneBox : Job where
  toPlan := { smallPlan with failOnPartial := true }
  boxes round _ := if round = 0 then [⟨0, 0, 1, 1⟩] else []

def oneKey : Key := (0, ⟨0, 0, 1, 1⟩, "2024".toList)

/-- The subtask is enqueued, a worker takes it, and its result is collected. -/
def collected : List Event :=
  [.coordinator, .take, .finish oneKey ⟨false, 100⟩, .coordinator]

/-- The collected result is merged. -/
theorem results_matched_oneBox : ∃ s,
    run oneBox (start oneBox) (collected ++ [.coordinator, .coordinator]) = some s ∧ Matched s := by
  have hslices : oneBox.datetimeSlices.Nodup := by decide
  obtain ⟨s, hrun⟩ := Option.isSome_iff_exists.mp (show
    (run oneBox (start oneBox) (collected ++ [.coordinator, .coordinator])).isSome = true by
      decide +kernel)
  refine ⟨s, hrun, results_matched hslices ?_ hrun⟩
  refine Along.of_ordinary hslices (Inv.start hslices) first_start ?_
  simp [collected, Along, Ordinary]

/-- A coordinator that is started again after that finds the key and waits in vain. -/
theorem restart_waits_in_vain : ¬ ∀ (j : Job) (es : List Event) (s : State),
    run j (start j) es = some s → Matched s := by
  intro h
  have hview : (run oneBox (start oneBox) (collected ++ [.restart, .coordinator])).map
      (fun s => (s.coordinator.awaited, (expected s).length, s.lost.length)) = some (1, 0, 0) := by
    decide +kernel
  obtain ⟨s, hrun, hs⟩ := Option.map_eq_some_iff.mp hview
  have henough := (h oneBox _ s hrun).enough
  simp only [Prod.mk.injEq] at hs
  have hlost := List.length_filter_le (fun t => t.1 = s.coordinator.round) s.lost
  omega

end Subtask
end Mosaic
end Geofastmap
