import Mathlib.Data.List.Nodup
import Geofastmap.Mosaic.Seeds

/-!
# Geofastmap.Mosaic.Dispatch

Round 0 of the distributed planner. Each seed and datetime slice makes a shard; the shards are
enqueued as slots become free, and children of boxes that failed are enqueued after them.

The loop that makes the shards compares the budget with the number of seeds, which it does not
change: above the budget there is no shard at all. `searched_iff` says when the seeds within the
budget are searched.
-/

namespace Geofastmap
namespace Mosaic

/-- `_bbox_key`: the rounded coordinates. -/
def bboxKey (bb : Bbox) : Bbox := bb.round 8

/-- `bbox_key_to_bbox`, in order of insertion. -/
abbrev BboxMap := List (Bbox × Bbox)

def addBbox (m : BboxMap) (bb : Bbox) : BboxMap :=
  if bboxKey bb ∈ m.map Prod.fst then m else m ++ [(bboxKey bb, bb)]

def seedMap (seeds : List Bbox) : BboxMap := seeds.foldl addBbox []

/-- What a subtask asks for, with the key of its box. -/
structure Shard where
  bboxKey : Bbox
  bbox : Bbox
  datetimeSlice : Text
  fetchLimit : Int
deriving DecidableEq

/-- The task id is a hash of the job, the round and this pair. -/
def Shard.task (x : Shard) : Bbox × Text := (x.bboxKey, x.datetimeSlice)

/-- The result of a subtask. -/
structure Result where
  task : Bbox × Text
  outcome : Outcome

/-- The arguments of a plan, and the answers of the workers: the result for which each wait of the
dispatch loop ends, if it does not time out. -/
structure Plan where
  settings : Settings
  datetimeSlices : List Text
  fetchLimit : Int
  failOnPartial : Bool
  got : Nat → Option Result

variable (p : Plan)

/-- `_effective_fetch_limit_for_bbox`. -/
def effectiveFetchLimitForBbox (bb : Bbox) : Int :=
  let (w, h) := bboxSizeDegrees bb
  if max w h ≥ max 2 (p.settings.minBboxDeg * 2) then
    min p.fetchLimit (max 1 p.settings.largeBboxLimit)
  else p.fetchLimit

/-- The shards of one box. -/
def bboxShards (kb : Bbox × Bbox) : List Shard :=
  p.datetimeSlices.map fun dt => ⟨kb.1, kb.2, dt, effectiveFetchLimitForBbox p kb.2⟩

/-- `while bbox_queue and len(bbox_key_to_bbox) <= bbox_budget`. -/
def shardRows (mapSize : Nat) : BboxMap → List Shard
  | [] => []
  | kb :: queue =>
    if mapSize ≤ p.settings.bboxBudget then bboxShards p kb ++ shardRows mapSize queue else []

/-- `enqueue_mosaic_plan_subtask`: a task that exists is not pushed again. -/
def enqueue (pushed : List Shard) (x : Shard) : List Shard :=
  if x.task ∈ pushed.map Shard.task then pushed else pushed ++ [x]

/-- `while in_flight < shard_wave and next_idx < children_total`. -/
def fill (wave : Nat) : Nat → List Shard → List Shard → Nat × List Shard × List Shard
  | inFlight, [], pushed => (inFlight, [], pushed)
  | inFlight, x :: rest, pushed =>
    if inFlight < wave then fill wave (inFlight + 1) rest (enqueue pushed x)
    else (inFlight, x :: rest, pushed)

/-- `while done_count < children_total`, with `left` results to wait for. -/
def dispatchFrom (wave : Nat) (got : Nat → Option Result) :
    Nat → Nat → Nat → List Shard → List Shard → List Result → List Shard × List Result
  | 0, _, _, _, pushed, results => (pushed, results)
  | left + 1, done, inFlight, rest, pushed, results =>
    match fill wave inFlight rest pushed with
    | (0, _, pushed) => (pushed, results)
    | (inFlight + 1, rest, pushed) =>
      match got done with
      | none => (pushed, results)
      | some r => dispatchFrom wave got left (done + 1) inFlight rest pushed (results ++ [r])

/-! ## Children -/

/-- The boxes of which there are results, in order of the first one. -/
def statKeys (rows : List Shard) (results : List Result) : List Bbox :=
  results.foldl (fun ks r =>
    if r.task ∈ rows.map Shard.task ∧ r.task.1 ∉ ks then ks ++ [r.task.1] else ks) []

/-- The results of one box, added up. -/
def statOf (rows : List Shard) (results : List Result) (k : Bbox) : Outcome :=
  let own := results.filter fun r => r.task ∈ rows.map Shard.task ∧ r.task.1 = k
  ⟨own.any fun r => r.outcome.hadErrors, (own.map fun r => r.outcome.features).sum⟩

/-- The children of the boxes that failed or found almost nothing. -/
def childBboxes (m : BboxMap) (rows : List Shard) (results : List Result) : List Bbox :=
  (statKeys rows results).flatMap fun k =>
    match m.find? fun kb => kb.1 = k with
    | none => []
    | some (_, bb) =>
      (childrenOf p.settings p.settings.splitDepth bb 0 (statOf rows results k)).map Prod.fst

/-- No child is added once the map has reached the budget. -/
def addChild (m : BboxMap) (bb : Bbox) : BboxMap :=
  if m.length ≥ p.settings.bboxBudget then m else addBbox m bb

/-- The boxes that the expansion adds to the map. -/
def addedBboxes (m : BboxMap) (rows : List Shard) (results : List Result) : BboxMap :=
  if 0 < p.settings.splitDepth ∧ m.length < p.settings.bboxBudget then
    ((childBboxes p m rows results).foldl (addChild p) m).drop m.length
  else []

/-- Round 0 of `plan_mosaic_with_void_fill_distributed`: the subtasks that it enqueues. -/
def enqueuedInRound0 (seeds : List Bbox) : List Shard :=
  let m := seedMap seeds
  let rows := shardRows p m.length m
  let (pushed, results) := dispatchFrom p.settings.shardWave p.got rows.length 0 0 rows [] []
  if p.failOnPartial ∧ results.length < rows.length then pushed
  else ((addedBboxes p m rows results).flatMap (bboxShards p)).foldl enqueue pushed

/-- Every seed within the budget is searched in every datetime slice. -/
def Searched (seeds : List Bbox) : Prop :=
  ∀ kb ∈ (seedMap seeds).take p.settings.bboxBudget, ∀ dt ∈ p.datetimeSlices,
    ∃ x ∈ enqueuedInRound0 p seeds, x.bboxKey = kb.1 ∧ x.bbox = kb.2 ∧ x.datetimeSlice = dt

/-! ## The map -/

theorem addBbox_keys {m : BboxMap} (h : (m.map Prod.fst).Nodup) (bb : Bbox) :
    ((addBbox m bb).map Prod.fst).Nodup := by
  unfold addBbox
  split
  · exact h
  next hnew =>
    rw [List.map_append, List.map_singleton, List.nodup_append_comm, List.singleton_append,
      List.nodup_cons]
    exact ⟨hnew, h⟩

theorem addBbox_prefix (m : BboxMap) (bb : Bbox) : m <+: addBbox m bb := by
  unfold addBbox
  split
  · exact List.prefix_refl m
  · exact List.prefix_append _ _

theorem addChild_spec {m : BboxMap} (h : (m.map Prod.fst).Nodup) (bb : Bbox) :
    ((addChild p m bb).map Prod.fst).Nodup ∧ m <+: addChild p m bb := by
  unfold addChild
  split
  · exact ⟨h, List.prefix_refl m⟩
  · exact ⟨addBbox_keys h bb, addBbox_prefix m bb⟩

theorem foldl_addChild_spec (bbs : List Bbox) {m : BboxMap} (h : (m.map Prod.fst).Nodup) :
    ((bbs.foldl (addChild p) m).map Prod.fst).Nodup ∧ m <+: bbs.foldl (addChild p) m := by
  induction bbs generalizing m with
  | nil => exact ⟨h, List.prefix_refl m⟩
  | cons bb bbs ih =>
    obtain ⟨hkeys, hpre⟩ := addChild_spec p h bb
    obtain ⟨hkeys', hpre'⟩ := ih hkeys
    exact ⟨hkeys', hpre.trans hpre'⟩

theorem seedMap_keys (seeds : List Bbox) : ((seedMap seeds).map Prod.fst).Nodup := by
  unfold seedMap
  have hstart : (([] : BboxMap).map Prod.fst).Nodup := by simp
  generalize ([] : BboxMap) = m at hstart
  induction seeds generalizing m with
  | nil => exact hstart
  | cons bb seeds ih => exact ih _ (addBbox_keys hstart bb)

/-- A child never takes the key of a seed. -/
theorem addedBboxes_fresh {m : BboxMap} (h : (m.map Prod.fst).Nodup) (rows : List Shard)
    (results : List Result) {kb : Bbox × Bbox} (hkb : kb ∈ addedBboxes p m rows results) :
    kb.1 ∉ m.map Prod.fst := by
  unfold addedBboxes at hkb
  split at hkb
  · obtain ⟨hkeys, added, hadded⟩ := foldl_addChild_spec p (childBboxes p m rows results) h
    rw [← hadded, List.drop_left] at hkb
    rw [← hadded, List.map_append] at hkeys
    intro hin
    exact List.disjoint_of_nodup_append hkeys hin (List.mem_map_of_mem hkb)
  · simp at hkb

/-! ## The dispatch -/

theorem fill_eq (wave inFlight : Nat) (rest pushed : List Shard) :
    fill wave inFlight rest pushed =
      (inFlight + min (wave - inFlight) rest.length, rest.drop (wave - inFlight),
        (rest.take (wave - inFlight)).foldl enqueue pushed) := by
  induction rest generalizing inFlight pushed with
  | nil => simp [fill]
  | cons x rest ih =>
    unfold fill
    split
    next hroom =>
      obtain ⟨n, hn⟩ : ∃ n, wave - inFlight = n + 1 := ⟨wave - inFlight - 1, by omega⟩
      have hn' : wave - (inFlight + 1) = n := by omega
      rw [ih, hn, hn']
      simp only [List.length_cons, List.drop_succ_cons, List.take_succ_cons, List.foldl_cons]
      rw [Nat.add_min_add_right, Nat.add_assoc, Nat.add_comm 1]
    next hfull =>
      have hzero : wave - inFlight = 0 := by omega
      simp [hzero]

/-- How many of the next waits end with a result before one times out. -/
def answered (got : Nat → Option Result) : Nat → Nat → Nat
  | _, 0 => 0
  | done, left + 1 => if (got done).isSome then answered got (done + 1) left + 1 else 0

/-- One slot becomes free with each result. -/
theorem dispatchFrom_eq {wave : Nat} (hwave : 0 < wave) (got : Nat → Option Result)
    (left done inFlight : Nat) (rest pushed : List Shard) (results : List Result)
    (hleft : left = inFlight + rest.length) (hroom : inFlight ≤ wave) :
    (dispatchFrom wave got left done inFlight rest pushed results).1 =
      (rest.take (wave + answered got done left - inFlight)).foldl enqueue pushed := by
  induction left generalizing done inFlight rest pushed results with
  | zero =>
    have hnil : rest = [] := List.length_eq_zero_iff.mp (by omega)
    simp [dispatchFrom, hnil]
  | succ left ih =>
    unfold dispatchFrom answered
    rw [fill_eq]
    obtain ⟨n, hn⟩ : ∃ n, inFlight + min (wave - inFlight) rest.length = n + 1 :=
      ⟨inFlight + min (wave - inFlight) rest.length - 1, by omega⟩
    rw [hn]
    cases hgot : got done with
    | none => simp
    | some r =>
      simp only [Option.isSome_some, if_true]
      rw [ih _ _ _ _ _ (by simp only [List.length_drop]; omega) (by omega), ← List.foldl_append]
      congr 1
      by_cases hlong : wave - inFlight ≤ rest.length
      · have hadd : wave + (answered got (done + 1) left + 1) - inFlight =
            wave - inFlight + (wave + answered got (done + 1) left - n) := by omega
        rw [hadd, List.take_add]
      · rw [List.drop_eq_nil_of_le (by omega), List.take_nil, List.append_nil,
          List.take_of_length_le (by omega), List.take_of_length_le (by omega)]

/-! ## What is enqueued -/

theorem mem_tasks_enqueue (pushed : List Shard) (x : Shard) (t : Bbox × Text) :
    t ∈ (enqueue pushed x).map Shard.task ↔ t ∈ pushed.map Shard.task ∨ t = x.task := by
  unfold enqueue
  split
  next hin =>
    constructor
    · exact Or.inl
    · rintro (h | rfl)
      · exact h
      · exact hin
  next => simp

theorem mem_tasks_foldl (xs pushed : List Shard) (t : Bbox × Text) :
    t ∈ (xs.foldl enqueue pushed).map Shard.task ↔
      t ∈ pushed.map Shard.task ∨ t ∈ xs.map Shard.task := by
  induction xs generalizing pushed with
  | nil => simp
  | cons x xs ih =>
    rw [List.foldl_cons, ih, mem_tasks_enqueue, List.map_cons, List.mem_cons, or_assoc]

theorem mem_of_mem_foldl {xs pushed : List Shard} {x : Shard} (h : x ∈ xs.foldl enqueue pushed) :
    x ∈ pushed ∨ x ∈ xs := by
  induction xs generalizing pushed with
  | nil => exact Or.inl h
  | cons y xs ih =>
    rcases ih h with h | h
    · unfold enqueue at h
      split at h
      · exact Or.inl h
      · rcases List.mem_append.mp h with h | h
        · exact Or.inl h
        · exact Or.inr (List.mem_cons.mpr (Or.inl (List.mem_singleton.mp h)))
    · exact Or.inr (List.mem_cons_of_mem _ h)

/-- The shards of all boxes of a map. -/
def allShards (m : BboxMap) : List Shard := m.flatMap (bboxShards p)

theorem shardRows_of_le {n : Nat} (h : n ≤ p.settings.bboxBudget) (m : BboxMap) :
    shardRows p n m = allShards p m := by
  induction m with
  | nil => rfl
  | cons kb m ih =>
    rw [shardRows, if_pos h, ih]
    rfl

/-- Above the budget the loop makes no shard. -/
theorem shardRows_of_lt {n : Nat} (h : p.settings.bboxBudget < n) (m : BboxMap) :
    shardRows p n m = [] := by
  cases m with
  | nil => rfl
  | cons kb m =>
    rw [shardRows, if_neg (by omega)]

theorem mem_allShards {m : BboxMap} {x : Shard} :
    x ∈ allShards p m ↔ ∃ kb ∈ m, ∃ dt ∈ p.datetimeSlices,
      x = ⟨kb.1, kb.2, dt, effectiveFetchLimitForBbox p kb.2⟩ := by
  simp only [allShards, bboxShards, List.mem_flatMap, List.mem_map, eq_comm]

/-- How many shards the dispatch loop reaches. -/
def reached (m : BboxMap) : Nat :=
  p.settings.shardWave + answered p.got 0 (allShards p m).length

/-- What the dispatch loop enqueues. -/
def dispatched (m : BboxMap) : List Shard :=
  ((allShards p m).take (reached p m)).foldl enqueue []

/-- Round 0 is the dispatch loop, and shards of boxes that are no seeds. -/
theorem enqueuedInRound0_eq {seeds : List Bbox}
    (h : (seedMap seeds).length ≤ p.settings.bboxBudget) :
    ∃ extra : List Shard, (∀ x ∈ extra, x.bboxKey ∉ (seedMap seeds).map Prod.fst) ∧
      enqueuedInRound0 p seeds = extra.foldl enqueue (dispatched p (seedMap seeds)) := by
  have hpushed := dispatchFrom_eq p.settings.shardWave_pos p.got
    (allShards p (seedMap seeds)).length 0 0 (allShards p (seedMap seeds)) [] [] (by omega) (by omega)
  simp only [enqueuedInRound0, shardRows_of_le p h]
  rcases hd : dispatchFrom p.settings.shardWave p.got (allShards p (seedMap seeds)).length 0 0
    (allShards p (seedMap seeds)) [] [] with ⟨pushed, results⟩
  rw [hd] at hpushed
  have hpushed : pushed = dispatched p (seedMap seeds) := hpushed
  split
  · exact ⟨[], by simp, hpushed⟩
  · rw [hpushed]
    refine ⟨_, ?_, rfl⟩
    intro x hx
    obtain ⟨kb, hkb, hx⟩ := List.mem_flatMap.mp hx
    obtain ⟨dt, -, rfl⟩ := List.mem_map.mp hx
    exact addedBboxes_fresh p (seedMap_keys seeds) _ _ hkb

theorem enqueuedInRound0_nil {seeds : List Bbox}
    (h : p.settings.bboxBudget < (seedMap seeds).length) : enqueuedInRound0 p seeds = [] := by
  unfold enqueuedInRound0
  have hroom : ¬ (seedMap seeds).length < p.settings.bboxBudget := by omega
  simp [shardRows_of_lt p h, dispatchFrom, addedBboxes, hroom]

/-- Of the seeds, round 0 enqueues the shards that the dispatch loop reaches. -/
theorem enqueued_seed_iff {seeds : List Bbox}
    (h : (seedMap seeds).length ≤ p.settings.bboxBudget) {kb : Bbox × Bbox}
    (hkb : kb ∈ seedMap seeds) (dt : Text) :
    (∃ x ∈ enqueuedInRound0 p seeds, x.bboxKey = kb.1 ∧ x.bbox = kb.2 ∧ x.datetimeSlice = dt) ↔
      (kb.1, dt) ∈ ((allShards p (seedMap seeds)).take (reached p (seedMap seeds))).map
        Shard.task := by
  obtain ⟨extra, hfresh, heq⟩ := enqueuedInRound0_eq p h
  have hseed : ∀ x ∈ extra, x.bboxKey ≠ kb.1 := by
    intro x hx he
    exact hfresh x hx (he ▸ List.mem_map_of_mem hkb)
  have htask : (kb.1, dt) ∈ (enqueuedInRound0 p seeds).map Shard.task ↔
      (kb.1, dt) ∈ ((allShards p (seedMap seeds)).take (reached p (seedMap seeds))).map
        Shard.task := by
    rw [heq, mem_tasks_foldl, dispatched, mem_tasks_foldl]
    constructor
    · rintro ((hnil | hin) | hextra)
      · simp at hnil
      · exact hin
      · obtain ⟨x, hx, ht⟩ := List.mem_map.mp hextra
        exact absurd (congrArg Prod.fst ht) (hseed x hx)
    · intro hin
      exact Or.inl (Or.inr hin)
  rw [← htask]
  constructor
  · rintro ⟨x, hx, hk, -, hdt⟩
    exact List.mem_map.mpr ⟨x, hx, Prod.ext hk hdt⟩
  · intro hin
    obtain ⟨x, hx, ht⟩ := List.mem_map.mp hin
    have hk : x.bboxKey = kb.1 := congrArg Prod.fst ht
    have hall : x ∈ allShards p (seedMap seeds) := by
      rw [heq] at hx
      rcases mem_of_mem_foldl hx with hx | hx
      · rcases mem_of_mem_foldl hx with hx | hx
        · simp at hx
        · exact List.mem_of_mem_take hx
      · exact absurd hk (hseed x hx)
    obtain ⟨kb', hkb', dt', -, rfl⟩ := (mem_allShards p).mp hall
    have hsame : kb' = kb := List.inj_on_of_nodup_map (seedMap_keys seeds) hkb' hkb hk
    exact ⟨_, hx, hk, congrArg Prod.snd hsame, congrArg Prod.snd ht⟩

/-- Above the budget, no seed is searched. -/
theorem not_searched {seeds : List Bbox} (h : p.settings.bboxBudget < (seedMap seeds).length)
    (hslices : p.datetimeSlices ≠ []) : ¬ Searched p seeds := by
  intro hall
  obtain ⟨dt, hdt⟩ := List.exists_mem_of_ne_nil _ hslices
  have hpos := p.settings.bboxBudget_pos
  have hne : (seedMap seeds).take p.settings.bboxBudget ≠ [] := by
    intro hnil
    have hlen := congrArg List.length hnil
    simp only [List.length_take, List.length_nil] at hlen
    omega
  obtain ⟨kb, hkb⟩ := List.exists_mem_of_ne_nil _ hne
  obtain ⟨x, hx, -⟩ := hall kb hkb dt hdt
  rw [enqueuedInRound0_nil p h] at hx
  simp at hx

theorem searched_iff (seeds : List Bbox) :
    Searched p seeds ↔
      p.datetimeSlices = [] ∨
        ((seedMap seeds).length ≤ p.settings.bboxBudget ∧
          ∀ x ∈ (allShards p (seedMap seeds)).drop (reached p (seedMap seeds)),
            ∃ y ∈ (allShards p (seedMap seeds)).take (reached p (seedMap seeds)),
              y.task = x.task) := by
  by_cases hfit : (seedMap seeds).length ≤ p.settings.bboxBudget
  · have htake : (seedMap seeds).take p.settings.bboxBudget = seedMap seeds :=
      List.take_of_length_le hfit
    unfold Searched
    rw [htake]
    constructor
    · intro hall
      right
      refine ⟨hfit, ?_⟩
      intro x hx
      obtain ⟨kb, hkb, dt, hdt, rfl⟩ := (mem_allShards p).mp (List.mem_of_mem_drop hx)
      obtain ⟨y, hy, ht⟩ := List.mem_map.mp
        ((enqueued_seed_iff p hfit hkb dt).mp (hall kb hkb dt hdt))
      exact ⟨y, hy, ht⟩
    · rintro (hnone | ⟨-, hlate⟩) kb hkb dt hdt
      · simp [hnone] at hdt
      · rw [enqueued_seed_iff p hfit hkb dt]
        have hin : (⟨kb.1, kb.2, dt, effectiveFetchLimitForBbox p kb.2⟩ : Shard) ∈
            allShards p (seedMap seeds) := (mem_allShards p).mpr ⟨kb, hkb, dt, hdt, rfl⟩
        rw [← List.take_append_drop (reached p (seedMap seeds)) (allShards p _)] at hin
        rcases List.mem_append.mp hin with hin | hin
        · exact List.mem_map_of_mem (f := Shard.task) hin
        · obtain ⟨y, hy, ht⟩ := hlate _ hin
          exact List.mem_map.mpr ⟨y, hy, ht⟩
  · constructor
    · intro hall
      left
      by_contra hslices
      exact not_searched p (by omega) hslices hall
    · rintro (hnone | ⟨hfit', -⟩) kb hkb dt hdt
      · simp [hnone] at hdt
      · exact absurd hfit' hfit

/-! ## A small budget -/

/-- A budget of three boxes and workers that answer at once. -/
def smallPlan : Plan where
  settings := ⟨1, 4, 3, 2, 1 / 2, 250, 6, 0⟩
  datetimeSlices := ["2024".toList]
  fetchLimit := 200
  failOnPartial := false
  got _ := some ⟨(⟨0, 0, 0, 0⟩, []), ⟨false, 100⟩⟩

/-- An area of ten by ten degrees. -/
def tenDegrees : List Bbox := splitInitialSearchBboxes smallPlan.settings ⟨0, 0, 10, 10⟩

/-- The area has four seeds. Nothing is enqueued for it; the local planner starts with two. -/
theorem tenDegrees_not_searched :
    ¬ Searched smallPlan tenDegrees ∧ enqueuedInRound0 smallPlan tenDegrees = [] ∧
      tenDegrees.take 2 <+:
        fetchBboxesAdaptive smallPlan.settings (fun _ _ => ⟨false, 100⟩) true tenDegrees := by
  have hlt : smallPlan.settings.bboxBudget < (seedMap tenDegrees).length := by decide +kernel
  refine ⟨not_searched smallPlan hlt (by decide), enqueuedInRound0_nil smallPlan hlt, ?_⟩
  have hseeds : dedupeBboxes tenDegrees = tenDegrees := by decide +kernel
  have hlocal := fetchBboxesAdaptive_prefix smallPlan.settings (fun _ _ => ⟨false, 100⟩) true
    tenDegrees
  rw [hseeds] at hlocal
  exact hlocal

end Mosaic
end Geofastmap
