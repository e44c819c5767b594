import Mathlib.Data.List.Dedup
import Mathlib.Order.Bounds.Basic
import Mathlib.Order.BoundedOrder.Lattice

/-!
# Geofastmap.Paging.Groups

Values of a join semilattice, aggregated by key.

- `aggregate` is `GROUP BY` with the join as its aggregate.
- `upsert` joins new aggregates into known ones and adds those whose key is new.
- `Aggregates acc xs` says that `acc` has one entry for each key of `xs`, with the join of its
  values. `Aggregates.upsert` is the step of a loop that aggregates a list batch by batch.
-/

namespace Geofastmap
namespace Paging

variable {κ S : Type} [DecidableEq κ] [SemilatticeSup S] [OrderBot S]
variable {acc new xs ys : List (κ × S)}

/-- The join of the values of one key. -/
def total (xs : List (κ × S)) (k : κ) : S :=
  (xs.filter fun x => x.1 = k).foldr (fun x u => x.2 ⊔ u) ⊥

theorem total_eq_bot {k : κ} (h : k ∉ xs.map Prod.fst) : total xs k = ⊥ := by
  have hnil : xs.filter (fun x => decide (x.1 = k)) = [] := by
    rw [List.filter_eq_nil_iff]
    intro x hx he
    apply h
    rw [← of_decide_eq_true he]
    exact List.mem_map_of_mem hx
  rw [total, hnil]
  rfl

theorem total_cons (x : κ × S) (xs : List (κ × S)) (k : κ) :
    total (x :: xs) k = if x.1 = k then x.2 ⊔ total xs k else total xs k := by
  by_cases hx : x.1 = k <;> simp [total, hx]

theorem total_append (xs ys : List (κ × S)) (k : κ) :
    total (xs ++ ys) k = total xs k ⊔ total ys k := by
  induction xs with
  | nil => simp [total]
  | cons x xs ih =>
    rw [List.cons_append, total_cons, total_cons, ih]
    split
    · rw [sup_assoc]
    · rfl

theorem total_perm (h : xs.Perm ys) (k : κ) : total xs k = total ys k :=
  (h.filter _).foldr_eq' (fun a _ b _ u => sup_left_comm b.2 a.2 u) ⊥

/-- The total is the least upper bound of the values of the key. -/
theorem isLUB_total (xs : List (κ × S)) (k : κ) : IsLUB {s | (k, s) ∈ xs} (total xs k) := by
  induction xs with
  | nil =>
    constructor
    · rintro s ⟨⟩
    · exact fun _ _ => bot_le
  | cons x xs ih =>
    rw [total_cons]
    split
    next hx =>
      have hset : {s | (k, s) ∈ x :: xs} = insert x.2 {s | (k, s) ∈ xs} := by
        ext s
        simp only [Set.mem_ofPred_eq, List.mem_cons, Set.mem_insert_iff, Prod.ext_iff, hx,
          true_and]
      rw [hset]
      exact ih.insert x.2
    next hx =>
      have hset : {s | (k, s) ∈ x :: xs} = {s | (k, s) ∈ xs} := by
        ext s
        simp only [Set.mem_ofPred_eq, List.mem_cons, Prod.ext_iff, Ne.symm hx, false_and, false_or]
      rw [hset]
      exact ih

/-- `SELECT key, union(value) ... GROUP BY key`. -/
def aggregate (xs : List (κ × S)) : List (κ × S) :=
  (xs.map Prod.fst).dedup.map fun k => (k, total xs k)

/-- `UPDATE acc SET value = union(acc.value, new.value) FROM new WHERE acc.key = new.key`. -/
def update (acc new : List (κ × S)) : List (κ × S) :=
  acc.map fun t =>
    match new.find? fun b => b.1 = t.1 with
    | some b => (t.1, t.2 ⊔ b.2)
    | none => t

/-- The keys that `update` returns. -/
def updatedKeys (acc new : List (κ × S)) : List κ :=
  (acc.filter fun t => (new.find? fun b => b.1 = t.1).isSome).map Prod.fst

/-- The update, and the insertion of the new rows whose key it does not return. -/
def upsert (acc new : List (κ × S)) : List (κ × S) :=
  update acc new ++ new.filter fun b => b.1 ∉ updatedKeys acc new

/-- `acc` has one entry for each key of `xs`, with the join of its values. -/
structure Aggregates (acc xs : List (κ × S)) : Prop where
  nodup : (acc.map Prod.fst).Nodup
  mem_iff : ∀ k s, (k, s) ∈ acc ↔ k ∈ xs.map Prod.fst ∧ s = total xs k

namespace Aggregates

theorem nil : Aggregates ([] : List (κ × S)) [] := ⟨by simp, by simp⟩

theorem keys_iff (h : Aggregates acc xs) (k : κ) : k ∈ acc.map Prod.fst ↔ k ∈ xs.map Prod.fst := by
  constructor
  · intro hk
    obtain ⟨⟨k', s⟩, ht, rfl⟩ := List.mem_map.mp hk
    exact ((h.mem_iff k' s).mp ht).1
  · intro hk
    exact List.mem_map_of_mem (f := Prod.fst) ((h.mem_iff k (total xs k)).mpr ⟨hk, rfl⟩)

theorem perm (h : Aggregates acc xs) (hp : xs.Perm ys) : Aggregates acc ys := by
  constructor
  · exact h.nodup
  · intro k s
    rw [h.mem_iff, total_perm hp, (hp.map Prod.fst).mem_iff]

theorem of_aggregate (xs : List (κ × S)) : Aggregates (aggregate xs) xs := by
  constructor
  · simp [aggregate, Function.comp_def, List.nodup_dedup]
  · intro k s
    simp only [aggregate, List.mem_map, List.mem_dedup, Prod.mk.injEq]
    constructor
    · rintro ⟨k', hk', rfl, rfl⟩
      exact ⟨hk', rfl⟩
    · rintro ⟨hk, rfl⟩
      exact ⟨k, hk, rfl, rfl⟩

/-- The row of a key among the new ones holds the join of its values. -/
theorem find?_eq (h : Aggregates new ys) (k : κ) :
    (new.find? fun b => b.1 = k) =
      if k ∈ ys.map Prod.fst then some (k, total ys k) else none := by
  split
  next hk =>
    have hin := (h.mem_iff k _).mpr ⟨hk, rfl⟩
    obtain ⟨b, hb⟩ : ∃ b, (new.find? fun b => decide (b.1 = k)) = some b :=
      Option.isSome_iff_exists.mp (List.find?_isSome.mpr ⟨_, hin, by simp⟩)
    have hbk : b.1 = k := by simpa using List.find?_some hb
    have hbmem := (h.mem_iff b.1 b.2).mp (List.mem_of_find?_eq_some hb)
    rw [hb, ← hbk]
    exact congrArg some (Prod.ext rfl hbmem.2)
  next hk =>
    rw [List.find?_eq_none]
    intro b hb he
    apply hk
    rw [← of_decide_eq_true he, ← h.keys_iff]
    exact List.mem_map_of_mem hb

theorem update_eq (h : Aggregates acc xs) (h' : Aggregates new ys) :
    update acc new = acc.map fun t => (t.1, total (xs ++ ys) t.1) := by
  apply List.map_congr_left
  intro t ht
  have hval : t.2 = total xs t.1 := ((h.mem_iff t.1 t.2).mp ht).2
  rw [h'.find?_eq, total_append]
  split
  next b hb =>
    split at hb
    · cases hb
      rw [hval]
    · cases hb
  next hb =>
    split at hb
    · cases hb
    · next hk => rw [total_eq_bot hk, sup_bot_eq, ← hval]

theorem mem_updatedKeys (h : Aggregates acc xs) (h' : Aggregates new ys) (k : κ) :
    k ∈ updatedKeys acc new ↔ k ∈ xs.map Prod.fst ∧ k ∈ ys.map Prod.fst := by
  rw [← h.keys_iff, ← h'.keys_iff]
  simp only [updatedKeys, List.mem_map, List.mem_filter, List.find?_isSome, decide_eq_true_eq]
  constructor
  · rintro ⟨t, ⟨ht, b, hb, he⟩, rfl⟩
    exact ⟨⟨t, ht, rfl⟩, b, hb, he⟩
  · rintro ⟨⟨t, ht, rfl⟩, b, hb, he⟩
    exact ⟨t, ⟨ht, b, hb, he⟩, rfl⟩

theorem upsert (h : Aggregates acc xs) (h' : Aggregates new ys) :
    Aggregates (Paging.upsert acc new) (xs ++ ys) := by
  unfold Paging.upsert
  rw [h.update_eq h']
  constructor
  · -- an inserted key is one that no updated row has
    rw [List.map_append, List.map_map]
    apply List.Nodup.append
    · exact h.nodup
    · exact h'.nodup.sublist (List.filter_sublist.map _)
    · intro k hk hk'
      obtain ⟨b, hb, rfl⟩ := List.mem_map.mp hk'
      obtain ⟨hb, hnot⟩ := List.mem_filter.mp hb
      have hx : b.1 ∈ xs.map Prod.fst := (h.keys_iff b.1).mp (by simpa using hk)
      have hy : b.1 ∈ ys.map Prod.fst := (h'.keys_iff b.1).mp (List.mem_map_of_mem hb)
      simp only [decide_eq_true_eq] at hnot
      exact hnot ((h.mem_updatedKeys h' b.1).mpr ⟨hx, hy⟩)
  · intro k s
    have hold : (k, s) ∈ acc.map (fun t => (t.1, total (xs ++ ys) t.1)) ↔
        k ∈ xs.map Prod.fst ∧ s = total (xs ++ ys) k := by
      rw [← h.keys_iff]
      simp only [List.mem_map, Prod.mk.injEq]
      constructor
      · rintro ⟨t, ht, rfl, rfl⟩
        exact ⟨⟨t, ht, rfl⟩, rfl⟩
      · rintro ⟨⟨t, ht, rfl⟩, rfl⟩
        exact ⟨t, ht, rfl, rfl⟩
    rw [List.mem_append, hold, List.mem_filter, h'.mem_iff, List.map_append, List.mem_append]
    simp only [decide_eq_true_eq, h.mem_updatedKeys h' k, total_append]
    by_cases hx : k ∈ xs.map Prod.fst
    · grind
    · simp only [total_eq_bot hx, bot_sup_eq]
      grind

end Aggregates

end Paging
end Geofastmap
