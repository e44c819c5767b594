import Mathlib.Data.List.Perm.Basic
import Geofastmap.Interleave.Refine
import Geofastmap.Jobs.Store

/-!
# Geofastmap.Jobs.Agree

The two job stores side by side.

* `stores_agree` : on every sequence of calls they give the same answers, up to `JobInfo.view`, for
  every job that has not expired in Redis.
* `job_lists_agree` : so do their listings of a collection, as long as its jobs fit.
-/

namespace Geofastmap
namespace Jobs

open Calendar Import Interleave

def Op.newId : Op → Option Text
  | .create i .. => some i
  | _ => none

/-- What every call gives: numbers that can be written, and at least one field to an update. -/
def Op.Valid : Op → Prop
  | .create _ _ owner _ _ => ∀ n ∈ owner, Style.Printable n
  | .update _ u _ => u.Valid
  | .get _ | .expire _ => True

def Reply.view (r : Reply) : Option View × Option (Text × Text) := (r.job.map JobInfo.view, r.released)

/-- `keep` are the jobs that never expire. -/
structure Sim (keep : Text → Prop) (m : Memory) (s : Server) : Prop where
  jobs : ∀ i, (∃ job h, m.get i = some job ∧ s.hashes i = some h ∧ Encodes h job) ∨
    (s.hashes i = none ∧ (keep i → m.get i = none))
  lists : ∀ c, s.lists c =
    (((m.filter (·.collectionId == c)).map JobInfo.jobId).reverse).take 50

theorem sim_empty (keep : Text → Prop) : Sim keep [] .empty :=
  ⟨fun _ => Or.inr ⟨rfl, fun _ => rfl⟩, fun _ => rfl⟩

section
variable {keep : Text → Prop} {m : Memory} {s : Server} {i : Text}

theorem get_append (hnew : i ∉ m.map JobInfo.jobId) (job : JobInfo) (hjob : job.jobId = i)
    (j : Text) : Memory.get (m ++ [job]) j = if j = i then some job else m.get j := by
  have hnone : m.get i = none := by
    refine List.find?_eq_none.mpr fun x hx he => hnew ?_
    exact List.mem_map.mpr ⟨x, hx, by simpa using he⟩
  unfold Memory.get at hnone ⊢
  rw [List.find?_append]
  by_cases hj : j = i
  · subst hj
    simp [hnone, hjob]
  · rw [if_neg hj]
    have hne : (job.jobId == j) = false := by
      rw [hjob]
      simpa using Ne.symm hj
    simp [hne]

theorem apply_jobId (u : JobUpdate) (now : DateTime) (job : JobInfo) :
    (u.apply now job).jobId = job.jobId := rfl

theorem get_update (u : JobUpdate) (now : DateTime) (j : Text) :
    Memory.get (m.map fun job => if job.jobId == i then u.apply now job else job) j =
      if j = i then (m.get i).map (u.apply now) else m.get j := by
  unfold Memory.get
  induction m with
  | nil => simp
  | cons job m ih =>
    rw [List.map_cons, List.find?_cons, List.find?_cons, List.find?_cons, ih]
    by_cases hi : job.jobId = i
    · have hi' : (job.jobId == i) = true := by simpa using hi
      by_cases hj : j = i
      · subst hj
        simp [hi', apply_jobId]
      · have hj' : (job.jobId == j) = false := by
          rw [hi]
          simpa using Ne.symm hj
        simp [hi', apply_jobId, hj', hj]
    · have hi' : (job.jobId == i) = false := by simpa using hi
      by_cases hj : j = i
      · subst hj
        simp [hi']
      · simp only [hi', Bool.false_eq_true, if_false, if_neg hj]

/-- An update leaves the ids and the collections alone. -/
theorem ids_update (u : JobUpdate) (now : DateTime) (c : Text) :
    ((m.map fun job => if job.jobId == i then u.apply now job else job).filter
      (·.collectionId == c)).map JobInfo.jobId =
      (m.filter (·.collectionId == c)).map JobInfo.jobId := by
  rw [List.filter_map, List.map_map]
  have hid : ∀ job : JobInfo,
      (if job.jobId == i then u.apply now job else job).jobId = job.jobId := by
    intro job
    split <;> rfl
  have hcollection : ∀ job : JobInfo,
      (if job.jobId == i then u.apply now job else job).collectionId = job.collectionId := by
    intro job
    split <;> rfl
  simp only [Function.comp_def, hid, hcollection]

/-- What one call returns from Redis: what memory returns, or nothing for a job that has expired. -/
def Agrees (keep : Text → Prop) (op : Op) (r : Reply) (r' : Except Raised Reply) : Prop :=
  ∃ reply, r' = .ok reply ∧ (reply.view = r.view ∨ (reply.view = (none, none) ∧ ¬ keep op.jobId))

theorem get_agrees (h : Sim keep m s) :
    ∃ job, s.get i = .ok job ∧
      (job.map JobInfo.view = (m.get i).map JobInfo.view ∨ (job = none ∧ ¬ keep i)) := by
  unfold Server.get
  rcases h.jobs i with ⟨job, hash, hm, hs, he⟩ | ⟨hs, hm⟩
  · obtain ⟨job', hread, hview⟩ := he.read
    simp only [hs, hread, Except.map, hm]
    exact ⟨some job', rfl, Or.inl (congrArg some hview)⟩
  · simp only [hs]
    refine ⟨none, rfl, ?_⟩
    by_cases hkeep : keep i
    · exact Or.inl (by rw [hm hkeep])
    · exact Or.inr ⟨rfl, hkeep⟩

theorem take_cons_take (x : Text) (l : List Text) (n : Nat) :
    (x :: l.take n).take n = (x :: l).take n := by
  cases n with
  | zero => rfl
  | succ n => simp [List.take_take]

theorem sim_create (h : Sim keep m s) {c : Text} {owner : Option Int} {label : Option Text}
    {now : DateTime} (howner : ∀ n ∈ owner, Style.Printable n) (hnew : i ∉ m.map JobInfo.jobId) :
    Agrees keep (.create i c owner label now) (m.step (.create i c owner label now)).1
        (s.step (.create i c owner label now)).1 ∧
      Sim keep (m.step (.create i c owner label now)).2
        (s.step (.create i c owner label now)).2 := by
  obtain ⟨mapping, hmapping, he⟩ := created_encodes i c label now howner
  simp only [Server.step, hmapping]
  refine ⟨⟨_, rfl, Or.inl rfl⟩, fun j => ?_, fun c' => ?_⟩
  · change (∃ job hash, Memory.get (m ++ [_]) j = some job ∧ _) ∨ (_ ∧ (_ → Memory.get (m ++ [_]) j = none))
    rw [get_append hnew _ rfl]
    by_cases hj : j = i
    · refine Or.inl ⟨_, mapping, if_pos hj, ?_, he⟩
      simp [Server.push, Server.setHash, hj]
    · simp only [if_neg hj, Server.push, Server.setHash]
      exact h.jobs j
  · simp only [Server.push, Server.setHash, Memory.step, List.filter_append]
    by_cases hc : c' = c
    · subst hc
      rw [if_pos rfl, h.lists, take_cons_take]
      simp [JobInfo.created]
    · have hne : (c == c') = false := by simpa using Ne.symm hc
      rw [if_neg hc, h.lists]
      simp [JobInfo.created, hne]

theorem sim_update (h : Sim keep m s) {u : JobUpdate} (hu : u.Valid) (now : DateTime) :
    Agrees keep (.update i u now) (m.step (.update i u now)).1 (s.step (.update i u now)).1 ∧
      Sim keep (m.step (.update i u now)).2 (s.step (.update i u now)).2 := by
  rcases h.jobs i with ⟨job, hash, hm, hs, he⟩ | ⟨hs, hm⟩
  · obtain ⟨mapping, hmapping, he'⟩ := update_encodes he hu now
    obtain ⟨job', hread, hview⟩ := he'.read
    have hget : (s.setHash i (some (hash.set mapping))).get i = .ok (some job') := by
      simp [Server.get, Server.setHash, hread, Except.map]
    simp only [Server.step, Memory.step, hs, hm, hmapping, hget, Except.map]
    refine ⟨⟨_, rfl, Or.inl ?_⟩, fun j => ?_, fun c => ?_⟩
    · simp [Reply.view, hview, he.collectionId]
    · rw [get_update, hm]
      by_cases hj : j = i
      · exact Or.inl ⟨_, hash.set mapping, if_pos hj, by simp [Server.setHash, hj], he'⟩
      · simp only [if_neg hj, Server.setHash]
        exact h.jobs j
    · rw [ids_update]
      exact h.lists c
  · simp only [Server.step, hs]
    cases hget : m.get i with
    | none =>
      simp only [Memory.step, hget]
      exact ⟨⟨_, rfl, Or.inl rfl⟩, h⟩
    | some job =>
      have hkeep : ¬ keep i := fun hk => by
        rw [hm hk] at hget
        cases hget
      simp only [Memory.step, hget]
      refine ⟨⟨_, rfl, Or.inr ⟨rfl, hkeep⟩⟩, fun j => ?_, fun c => ?_⟩
      · rw [get_update]
        by_cases hj : j = i
        · subst hj
          exact Or.inr ⟨hs, fun hk => absurd hk hkeep⟩
        · simp only [if_neg hj]
          exact h.jobs j
      · rw [ids_update]
        exact h.lists c

theorem sim_expire (h : Sim keep m s) (hkeep : ¬ keep i) :
    Sim keep m (s.setHash i none) := by
  refine ⟨fun j => ?_, h.lists⟩
  by_cases hj : j = i
  · subst hj
    exact Or.inr ⟨by simp [Server.setHash], fun hk => absurd hk hkeep⟩
  · simp only [Server.setHash, if_neg hj]
    exact h.jobs j

/-- One call, to both stores. -/
theorem sim_step (h : Sim keep m s) {op : Op} (hvalid : op.Valid)
    (hnew : ∀ i ∈ op.newId, i ∉ m.map JobInfo.jobId) (hexpire : ∀ i, op = .expire i → ¬ keep i) :
    Agrees keep op (m.step op).1 (s.step op).1 ∧ Sim keep (m.step op).2 (s.step op).2 := by
  cases op with
  | create i c owner label now => exact sim_create h hvalid (hnew i rfl)
  | get i =>
    obtain ⟨job, hget, hview⟩ := get_agrees (i := i) h
    simp only [Server.step, Memory.step, hget, Except.map]
    refine ⟨⟨_, rfl, ?_⟩, h⟩
    rcases hview with hview | ⟨rfl, hkeep⟩
    · exact Or.inl (Prod.ext hview rfl)
    · exact Or.inr ⟨rfl, hkeep⟩
  | update i u now => exact sim_update h hvalid now
  | expire i => exact ⟨⟨_, rfl, Or.inl rfl⟩, sim_expire h (hexpire i rfl)⟩

/-- The ids that a call adds. -/
theorem ids_step (m : Memory) (op : Op) :
    (m.step op).2.map JobInfo.jobId = m.map JobInfo.jobId ++ op.newId.toList := by
  cases op with
  | create i c owner label now => simp [Memory.step, Op.newId, JobInfo.created]
  | get i => simp [Memory.step, Op.newId]
  | update i u now =>
    simp only [Memory.step, Op.newId, Option.toList_none, List.append_nil]
    cases m.get i with
    | none => rfl
    | some job =>
      rw [List.map_map]
      refine List.map_congr_left fun job _ => ?_
      simp only [Function.comp_apply]
      split <;> rfl
  | expire i => simp [Memory.step, Op.newId]

/-- The rule for all runs. -/
theorem sim_run {ops : List Op} (h : Sim keep m s) (hvalid : ∀ op ∈ ops, op.Valid)
    (hids : (m.map JobInfo.jobId ++ ops.filterMap Op.newId).Nodup)
    (hexpire : ∀ i, Op.expire i ∈ ops → ¬ keep i) :
    List.Forall₂ (fun op r => Agrees keep op r.1 r.2) ops
        ((results Memory.step m ops).zip (results Server.step s ops)) ∧
      Sim keep (after Memory.step m ops) (after Server.step s ops) := by
  induction ops generalizing m s with
  | nil => exact ⟨.nil, h⟩
  | cons op ops ih =>
    have hnew : ∀ i ∈ op.newId, i ∉ m.map JobInfo.jobId := by
      intro i hi hmem
      have hdisjoint := List.disjoint_of_nodup_append hids
      refine hdisjoint hmem (List.mem_filterMap.mpr ⟨op, List.mem_cons_self, hi⟩)
    obtain ⟨hagrees, hsim⟩ := sim_step h (hvalid op List.mem_cons_self) hnew
      fun i hi => hexpire i (hi ▸ List.mem_cons_self)
    have hids' : ((m.step op).2.map JobInfo.jobId ++ ops.filterMap Op.newId).Nodup := by
      rw [ids_step, List.append_assoc]
      refine (congrArg List.Nodup ?_).mp hids
      cases hop : op.newId <;> simp [hop]
    obtain ⟨hrest, hfinal⟩ := ih hsim (fun op' hop' => hvalid op' (List.mem_cons_of_mem op hop')) hids'
      fun i hi => hexpire i (List.mem_cons_of_mem op hi)
    exact ⟨.cons hagrees hrest, hfinal⟩

/-- Whatever is called, in whatever order: for each job that does not expire, the two stores answer
every call with the same record and release the same mutex; for a job that expires, Redis answers
the same or nothing. No call raises. -/
theorem stores_agree (ops : List Op) (hvalid : ∀ op ∈ ops, op.Valid)
    (hids : (ops.filterMap Op.newId).Nodup) :
    List.Forall₂ (fun op r => Agrees (fun i => Op.expire i ∉ ops) op r.1 r.2) ops
      ((results Memory.step [] ops).zip (results Server.step .empty ops)) :=
  (sim_run (sim_empty _) hvalid hids fun _ hi hkeep => hkeep hi).1

/-! ## Listings -/

theorem ids_run (m : Memory) (ops : List Op) :
    (after Memory.step m ops).map JobInfo.jobId =
      m.map JobInfo.jobId ++ ops.filterMap Op.newId := by
  induction ops generalizing m with
  | nil => simp
  | cons op ops ih =>
    rw [after_cons, ih, ids_step, List.append_assoc]
    cases hop : op.newId <;> simp [hop]

theorem get_of_mem (hids : (m.map JobInfo.jobId).Nodup) {job : JobInfo} (hjob : job ∈ m) :
    m.get job.jobId = some job := by
  unfold Memory.get
  induction m with
  | nil => cases hjob
  | cons x m ih =>
    rw [List.map_cons, List.nodup_cons] at hids
    rw [List.find?_cons]
    rcases List.mem_cons.mp hjob with rfl | hjob
    · simp
    · have hne : (x.jobId == job.jobId) = false := by
        have hx : x.jobId ≠ job.jobId := fun he => hids.1 (he ▸ List.mem_map_of_mem hjob)
        simpa using hx
      simp only [hne]
      exact ih hids.2 hjob

theorem mapM_get (h : Sim keep m s) (hids : (m.map JobInfo.jobId).Nodup) {jobs : List JobInfo}
    (hjobs : ∀ job ∈ jobs, job ∈ m ∧ keep job.jobId) :
    ∃ out : List JobInfo, (jobs.map JobInfo.jobId).mapM s.get = .ok (out.map some) ∧
      out.map JobInfo.view = jobs.map JobInfo.view := by
  induction jobs with
  | nil => exact ⟨[], rfl, rfl⟩
  | cons job jobs ih =>
    obtain ⟨hmem, hkeep⟩ := hjobs job List.mem_cons_self
    obtain ⟨out, hout, hviews⟩ := ih fun j hj => hjobs j (List.mem_cons_of_mem job hj)
    obtain ⟨found, hget, hview⟩ := get_agrees (i := job.jobId) h
    rw [get_of_mem hids hmem, Option.map_some] at hview
    rcases hview with hview | ⟨-, hnot⟩
    · cases found with
      | none => cases hview
      | some job' =>
        refine ⟨job' :: out, ?_, ?_⟩
        · rw [List.map_cons, List.mapM_cons, hget, hout]
          rfl
        · rw [List.map_cons, List.map_cons, hviews, Option.some.inj hview]
    · exact absurd hkeep hnot

theorem sortByUpdate_perm (jobs : List JobInfo) : (sortByUpdate jobs).Perm jobs :=
  List.mergeSort_perm _ _

/-- The last update first. -/
def Newest (jobs : List JobInfo) : Prop :=
  jobs.Pairwise fun a b => b.updatedAt.time.key ≤ a.updatedAt.time.key

theorem sortByUpdate_newest (jobs : List JobInfo) : Newest (sortByUpdate jobs) := by
  have h := @List.pairwise_mergeSort JobInfo
    (fun a b => decide (b.updatedAt.time.key ≤ a.updatedAt.time.key))
    (fun a b c hab hbc => by simp only [decide_eq_true_eq] at *; omega)
    (fun a b => by simp only [Bool.or_eq_true, decide_eq_true_eq]; omega) jobs
  exact h.imp fun hab => of_decide_eq_true hab

theorem ofOwner_sublist (owner : Option Int) (limit : Nat) (raw : List JobInfo) :
    (ofOwner owner limit raw).Sublist raw := by
  cases owner with
  | none => exact List.take_sublist _ _
  | some n => exact (List.take_sublist _ _).trans List.filter_sublist

theorem Memory.newest_listJobs (m : Memory) (c : Text) (limit : Nat) (owner : Option Int) :
    Newest (m.listJobs c limit owner) :=
  (sortByUpdate_newest _).sublist ((ofOwner_sublist owner limit _).trans (List.take_sublist _ _))

/-- Where everything fits, the views of a listing depend on the views of the jobs. -/
theorem ofOwner_perm {owner : Option Int} {limit : Nat} {xs ys : List JobInfo}
    (h : (xs.map JobInfo.view).Perm (ys.map JobInfo.view)) (hfit : xs.length ≤ limit) :
    ((ofOwner owner limit xs).map JobInfo.view).Perm ((ofOwner owner limit ys).map JobInfo.view) := by
  have hlen : ys.length ≤ limit := by
    have he := h.length_eq
    rw [List.length_map, List.length_map] at he
    omega
  cases owner with
  | none =>
    simp only [ofOwner]
    rw [List.take_of_length_le hfit, List.take_of_length_le hlen]
    exact h
  | some n =>
    simp only [ofOwner]
    rw [List.take_of_length_le ((List.length_filter_le _ _).trans hfit),
      List.take_of_length_le ((List.length_filter_le _ _).trans hlen)]
    have hview : ∀ zs : List JobInfo, (zs.filter (·.ownerId == some n)).map JobInfo.view =
        (zs.map JobInfo.view).filter (·.ownerId == some n) := by
      intro zs
      rw [List.filter_map]
      rfl
    rw [hview, hview]
    exact h.filter _

theorem list_agrees (h : Sim keep m s) (hids : (m.map JobInfo.jobId).Nodup) {c : Text}
    {limit : Nat} (owner : Option Int)
    (hfit : (m.filter (·.collectionId == c)).length ≤ min limit 50)
    (hkeep : ∀ job ∈ m, job.collectionId = c → keep job.jobId) :
    ∃ jobs, s.listJobs c limit owner = .ok jobs ∧ Newest jobs ∧
      (jobs.map JobInfo.view).Perm ((m.listJobs c limit owner).map JobInfo.view) := by
  have hraw : limit ≤ rawLimit limit owner := by
    unfold rawLimit
    split <;> omega
  have hlist : (s.lists c).take (rawLimit limit owner) =
      ((m.filter (·.collectionId == c)).reverse).map JobInfo.jobId := by
    rw [h.lists, List.map_reverse, List.take_of_length_le, List.take_of_length_le]
    · simp only [List.length_reverse, List.length_map]
      omega
    · simp only [List.length_take, List.length_reverse, List.length_map]
      omega
  have hjobs : ∀ job ∈ (m.filter (·.collectionId == c)).reverse, job ∈ m ∧ keep job.jobId := by
    intro job hjob
    obtain ⟨hmem, hc⟩ := List.mem_filter.mp (List.mem_reverse.mp hjob)
    exact ⟨hmem, hkeep job hmem (by simpa using hc)⟩
  obtain ⟨out, hout, hviews⟩ := mapM_get h hids hjobs
  have hlen : out.length ≤ limit := by
    have he := congrArg List.length hviews
    simp only [List.length_map, List.length_reverse] at he
    omega
  have hsorted : (sortByUpdate out).length ≤ limit := by
    rwa [(sortByUpdate_perm out).length_eq]
  refine ⟨ofOwner owner limit (sortByUpdate out), ?_, ?_, ?_⟩
  · simp only [Server.listJobs, Server.listForCollection, hlist, hout, bind, Except.bind, pure,
      Except.pure, Except.map]
    have hall : (out.map some).filterMap id = out := by simp [List.filterMap_map]
    rw [hall, List.take_of_length_le (hsorted.trans hraw)]
  · exact (sortByUpdate_newest out).sublist (ofOwner_sublist owner limit _)
  · unfold Memory.listJobs Memory.listForCollection
    rw [List.take_of_length_le]
    · refine ofOwner_perm ?_ hsorted
      refine ((sortByUpdate_perm out).map _).trans ?_
      rw [hviews]
      exact ((List.reverse_perm _).trans (sortByUpdate_perm _).symm).map _
    · rw [(sortByUpdate_perm _).length_eq]
      omega

/-- After any calls, the two stores list the same records for a collection none of whose jobs has
expired, both with the last update first, provided that there are at most fifty and the limit covers them. -/
theorem job_lists_agree (ops : List Op) (hvalid : ∀ op ∈ ops, op.Valid)
    (hids : (ops.filterMap Op.newId).Nodup) {c : Text} {limit : Nat} (owner : Option Int)
    (hfit : ((after Memory.step [] ops).filter (·.collectionId == c)).length ≤ min limit 50)
    (hkeep : ∀ job ∈ after Memory.step [] ops, job.collectionId = c → Op.expire job.jobId ∉ ops) :
    ∃ jobs, (after Server.step .empty ops).listJobs c limit owner = .ok jobs ∧ Newest jobs ∧
      Newest ((after Memory.step [] ops).listJobs c limit owner) ∧
      (jobs.map JobInfo.view).Perm
        (((after Memory.step [] ops).listJobs c limit owner).map JobInfo.view) := by
  have hsim := (sim_run (sim_empty fun i => Op.expire i ∉ ops) hvalid hids
    fun _ hi hkeep => hkeep hi).2
  have hnodup : ((after Memory.step [] ops).map JobInfo.jobId).Nodup := by
    rw [ids_run]
    exact hids
  obtain ⟨jobs, hjobs, hnewest, hperm⟩ := list_agrees hsim hnodup owner hfit hkeep
  exact ⟨jobs, hjobs, hnewest, Memory.newest_listJobs _ c limit owner, hperm⟩

end

def noon : DateTime := ⟨⟨2024, 1, 2, by decide⟩, 12, 0, 0, 0, by decide, by decide, by decide, by decide⟩

/-- Two jobs of one collection, one of which fails and expires. -/
def twoJobs : List Op :=
  [.create ['a'] ['c'] (some 7) none noon, .create ['b'] ['c'] none (some ['x']) noon,
    .update ['a'] { status := some "Failed".toList, itemsFailed := some 3 } noon, .get ['a'],
    .expire ['a'], .get ['a'], .update ['b'] { message := some [] } noon]

theorem twoJobs_valid : ∀ op ∈ twoJobs, op.Valid := by
  intro op hop
  simp only [twoJobs, List.mem_cons, List.not_mem_nil, or_false] at hop
  rcases hop with rfl | rfl | rfl | rfl | rfl | rfl | rfl
  · exact fun n hn => Option.some.inj hn ▸ by decide
  · exact nofun
  · exact ⟨rfl, nofun, nofun, fun n hn => Option.some.inj hn ▸ by decide⟩
  · trivial
  · trivial
  · trivial
  · exact ⟨rfl, nofun, nofun, nofun⟩

theorem stores_agree_twoJobs :
    List.Forall₂ (fun op r => Agrees (fun i => Op.expire i ∉ twoJobs) op r.1 r.2) twoJobs
      ((results Memory.step [] twoJobs).zip (results Server.step .empty twoJobs)) :=
  stores_agree twoJobs twoJobs_valid (by decide)

theorem job_lists_agree_twoJobs :
    ∃ jobs, (after Server.step .empty (twoJobs.take 4)).listJobs ['c'] 20 (some 7) = .ok jobs ∧
      Newest jobs ∧ Newest ((after Memory.step [] (twoJobs.take 4)).listJobs ['c'] 20 (some 7)) ∧
      (jobs.map JobInfo.view).Perm
        (((after Memory.step [] (twoJobs.take 4)).listJobs ['c'] 20 (some 7)).map JobInfo.view) :=
  job_lists_agree (twoJobs.take 4) (fun op hop => twoJobs_valid op (List.mem_of_mem_take hop))
    (by decide) (some 7) (by decide) fun job _ _ => by simp [twoJobs]

end Jobs
end Geofastmap
