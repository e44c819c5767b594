import Mathlib.Logic.Function.Basic
import Geofastmap.Bulk.State

/-!
# Geofastmap.Bulk.Activity

The in-flight counters of `bulk_collection_activity.py`, with Redis as the queue. An operation
increments a counter, works, and decrements it; each of the two is a body of Redis commands that
`run_redis_retry` runs again when a command raises. A command that raises may have taken effect.

The counter of a key equals the number of operations that hold it (`Counted`), in every run in
which no body is run again after its `INCR` or `DECR` took effect, no `INCR` falls between a `DECR`
that reached zero and the `DEL` that follows it, and no counter expires while an operation on it is
under way: an `INCR` makes it live for two days more, and nothing else does.
-/

namespace Geofastmap
namespace Bulk

open Db

/-- The two counters of a collection. -/
inductive Counter where
  | inflight
  | destructive
deriving DecidableEq

def Counter.key (k : Counter) (c : CollectionId) : Text :=
  match k with
  | .inflight => "geofastmap:bulk_collection_inflight:".toList ++ c
  | .destructive => "geofastmap:bulk_collection_destructive:".toList ++ c

/-- `_DEFAULT_INFLIGHT_TTL_SECONDS`. -/
def inflightTtlSeconds : Nat := 86400 * 2

/-- A counter in Redis, and the seconds it has left where it has been given a time to live. -/
structure CounterEntry where
  value : Int
  ttl : Option Nat
deriving DecidableEq

/-- The counters in Redis. -/
abbrev Counters := Text → Option CounterEntry

namespace Counters

/-- A counter that does not exist is 0 for `INCR` and `DECR`. -/
def value (r : Counters) (key : Text) : Int := ((r key).map CounterEntry.value).getD 0

/-- `INCRBY`, which leaves the time to live. -/
def add (r : Counters) (key : Text) (n : Int) : Counters :=
  Function.update r key (some ⟨r.value key + n, (r key).bind CounterEntry.ttl⟩)

/-- `INCR`. -/
def incr (r : Counters) (key : Text) : Counters := r.add key 1

/-- `DECR`. -/
def decr (r : Counters) (key : Text) : Counters := r.add key (-1)

/-- `EXPIRE`. -/
def expire (r : Counters) (key : Text) : Counters :=
  Function.update r key ((r key).map fun e => { e with ttl := some inflightTtlSeconds })

/-- `DEL`. -/
def del (r : Counters) (key : Text) : Counters := Function.update r key none

/-- The key is not one that expires in the next seconds. -/
def outlives (r : Counters) (seconds : Nat) (key : Text) : Bool :=
  (r key).all fun e => e.ttl.all (seconds ≤ ·)

/-- Time passes. -/
def tick (r : Counters) (seconds : Nat) : Counters := fun key =>
  if r.outlives seconds key then
    (r key).map fun e => { e with ttl := e.ttl.map (· - seconds) }
  else none

/-- `bool(v) and int(v) > 0`. -/
def positive (r : Counters) (key : Text) : Bool :=
  match r key with
  | some e => decide (0 < e.value)
  | none => false

end Counters

/-- `collection_has_bulk_activity`, `collection_has_destructive_bulk_activity`. -/
def collectionHasActivity (k : Counter) (c : CollectionId) (r : Counters) : Bool :=
  r.positive (k.key c)

/-- Where an operation stands. The number counts the attempts that are left to the retried body. -/
inductive Phase where
  /-- `incr`: before `INCR`. -/
  | incr (left : Nat)
  /-- `incr`: before `EXPIRE`. -/
  | expire (left : Nat)
  | working
  /-- `decr`: before `DECR`. -/
  | decr (left : Nat)
  /-- `decr`: before `DEL`. -/
  | del (left : Nat)
  | finished
  /-- `incr` raised, so the work was not begun. -/
  | refused
  /-- `decr` raised. -/
  | stuck
  /-- `decr` raised, and the counter has expired since. -/
  | forgotten
deriving DecidableEq

structure Operation where
  counter : Counter
  collectionId : CollectionId
  phase : Phase
deriving DecidableEq

def Operation.key (op : Operation) : Text := op.counter.key op.collectionId

/-- How a command ends. -/
inductive Outcome where
  | done
  /-- It raises and has no effect. -/
  | before
  /-- It takes effect and raises. -/
  | after
deriving DecidableEq

structure Activity where
  counters : Counters
  ops : List Operation

/-- The next attempt of a retried body, or what follows when there is none. -/
def again (first : Nat → Phase) (ended : Phase) : Nat → Phase
  | 0 => ended
  | n + 1 => first n

/-- The next command of an operation, and where it stands after it. -/
def Operation.command (op : Operation) (r : Counters) (o : Outcome) : Counters × Phase :=
  match op.phase, o with
  | .incr left, .done => (r.incr op.key, .expire left)
  | .incr left, .before => (r, again .incr .refused left)
  | .incr left, .after => (r.incr op.key, again .incr .refused left)
  | .expire _, .done => (r.expire op.key, .working)
  | .expire left, .before => (r, again .incr .refused left)
  | .expire left, .after => (r.expire op.key, again .incr .refused left)
  | .decr left, .done =>
    let r := r.decr op.key
    (r, if r.value op.key ≤ 0 then .del left else .finished)
  | .decr left, .before => (r, again .decr .stuck left)
  | .decr left, .after => (r.decr op.key, again .decr .stuck left)
  | .del _, .done => (r.del op.key, .finished)
  | .del left, .before => (r, again .decr .stuck left)
  | .del left, .after => (r.del op.key, again .decr .stuck left)
  | phase, _ => (r, phase)

/-- A counter that expires takes along what a `decr` that raised has left in it. -/
def Operation.tick (op : Operation) (r : Counters) (seconds : Nat) : Operation :=
  if r.outlives seconds op.key = false ∧ op.phase = .stuck then { op with phase := .forgotten } else op

inductive Move where
  /-- An operation begins, at its first attempt of `incr`. -/
  | start (k : Counter) (c : CollectionId)
  /-- Operation `i` issues its next command. -/
  | command (i : Nat) (o : Outcome)
  /-- Operation `i` ends its work and calls `decr`. -/
  | leave (i : Nat)
  | tick (seconds : Nat)
deriving DecidableEq

/-- `attempts` is the limit of `run_redis_retry`. -/
def Activity.move (attempts : Nat) (a : Activity) : Move → Activity
  | .start k c => { a with ops := a.ops ++ [⟨k, c, .incr (attempts - 1)⟩] }
  | .command i o =>
    match a.ops[i]? with
    | some op =>
      let (r, phase) := op.command a.counters o
      ⟨r, a.ops.set i { op with phase := phase }⟩
    | none => a
  | .leave i =>
    match a.ops[i]? with
    | some op =>
      if op.phase = .working then
        { a with ops := a.ops.set i { op with phase := .decr (attempts - 1) } }
      else a
    | none => a
  | .tick seconds => ⟨a.counters.tick seconds, a.ops.map (·.tick a.counters seconds)⟩

def Activity.run (attempts : Nat) (a : Activity) (ms : List Move) : Activity :=
  ms.foldl (Activity.move attempts) a

/-- The operation has incremented its counter and not decremented it. -/
def Phase.holds : Phase → Bool
  | .expire _ | .working | .decr _ | .stuck => true
  | _ => false

def Phase.deleting : Phase → Bool
  | .del _ => true
  | _ => false

/-- The operation is over. -/
def Phase.ended : Phase → Bool
  | .finished | .refused | .forgotten => true
  | _ => false

def Activity.holders (a : Activity) (key : Text) : Nat :=
  a.ops.countP fun op => op.key == key && op.phase.holds

/-- No body is run again after its `INCR` or `DECR` took effect, and no `INCR` falls between the
`DECR` and the `DEL` of another operation on its key. -/
def Activity.OrderlyAt (a : Activity) (key : Text) (o : Outcome) : Phase → Prop
  | .incr _ => o ≠ .after ∧ (o = .done → ∀ q ∈ a.ops, q.key = key → q.phase.deleting = false)
  | .expire _ => o = .done
  | .decr _ => o ≠ .after
  | .del _ => o = .done
  | _ => True

/-- A step of an orderly run. In the time that passes no counter expires that an operation holds,
unless its `decr` has raised. -/
def Activity.Orderly (a : Activity) : Move → Prop
  | .command i o => ∀ op ∈ a.ops[i]?, a.OrderlyAt op.key o op.phase
  | .tick seconds => ∀ op ∈ a.ops, a.counters.outlives seconds op.key = false →
      op.phase.holds = true → op.phase = .stuck
  | _ => True

def Activity.OrderlyRun (attempts : Nat) : Activity → List Move → Prop
  | _, [] => True
  | a, m :: ms => a.Orderly m ∧ OrderlyRun attempts (a.move attempts m) ms

/-- A counter is the number of its holders, and an operation about to delete it is after the last
of them. -/
structure Activity.Counted (a : Activity) : Prop where
  value : ∀ key, a.counters.value key = a.holders key
  deleting : ∀ op ∈ a.ops, op.phase.deleting = true → a.holders op.key = 0

/-! ## One move -/

/-- 1 for an operation that holds the key, else 0. -/
def Operation.share (op : Operation) (key : Text) : Nat :=
  if op.key = key ∧ op.phase.holds = true then 1 else 0

theorem holders_set {a : Activity} {i : Nat} {op : Operation} (h : a.ops[i]? = some op)
    (r : Counters) (p : Phase) (key : Text) :
    Activity.holders ⟨r, a.ops.set i { op with phase := p }⟩ key + op.share key =
      a.holders key + Operation.share { op with phase := p } key := by
  obtain ⟨hi, hop⟩ := List.getElem?_eq_some_iff.mp h
  have hle : op.share key ≤ a.holders key := by
    unfold Operation.share
    split
    · rename_i hs
      refine List.countP_pos_iff.mpr ⟨op, List.mem_of_getElem? h, ?_⟩
      simp [hs.1, hs.2]
    · exact Nat.zero_le _
  have hc := List.countP_set (p := fun q : Operation => q.key == key && q.phase.holds)
    (a := { op with phase := p }) hi
  simp only [hop, Bool.and_eq_true, beq_iff_eq] at hc
  simp only [Activity.holders, Operation.share] at hle ⊢
  rw [hc]
  omega

theorem value_update (r : Counters) (key k : Text) (e : Option CounterEntry) :
    Counters.value (Function.update r key e) k =
      if k = key then (e.map CounterEntry.value).getD 0 else r.value k := by
  unfold Counters.value
  by_cases h : k = key
  · subst h; simp
  · simp [h]

theorem value_add (r : Counters) (key k : Text) (n : Int) :
    (r.add key n).value k = r.value k + if k = key then n else 0 := by
  rw [Counters.add, value_update]
  split
  · rename_i h
    rw [h]
    rfl
  · simp

@[simp] theorem value_expire (r : Counters) (key k : Text) : (r.expire key).value k = r.value k := by
  rw [Counters.expire, value_update]
  split
  · rename_i h
    rw [h, Option.map_map]
    rfl
  · rfl

theorem value_del (r : Counters) (key k : Text) :
    (r.del key).value k = if k = key then 0 else r.value k := value_update r key k none

theorem value_tick (r : Counters) (seconds : Nat) (key : Text) :
    (r.tick seconds).value key = if r.outlives seconds key then r.value key else 0 := by
  simp only [Counters.value, Counters.tick]
  split
  · rw [Option.map_map]
    rfl
  · rfl

/-- After a command, the counter has changed by as much as the share of its operation. -/
theorem counted_set {a : Activity} (ha : a.Counted) {i : Nat} {op : Operation}
    (h : a.ops[i]? = some op) {r : Counters} {p : Phase}
    (hr : ∀ key, r.value key + op.share key =
      a.counters.value key + Operation.share { op with phase := p } key)
    (hp : p.deleting = true → a.counters.value op.key ≤ op.share op.key)
    (hd : p.holds = true → op.phase.holds = false →
      ∀ q ∈ a.ops, q.key = op.key → q.phase.deleting = false) :
    Activity.Counted ⟨r, a.ops.set i { op with phase := p }⟩ := by
  have hset := holders_set h r p
  refine ⟨fun key => ?_, fun q hq hdel => ?_⟩
  · have h1 := hr key
    have h2 := hset key
    have h3 := ha.value key
    change r.value key = _
    omega
  · rcases List.mem_or_eq_of_mem_set hq with hq | rfl
    · -- another operation is about to delete: nobody holds its key, and this one does not begin to
      have h0 := ha.deleting q hq hdel
      have h2 := hset q.key
      by_cases hkey : op.key = q.key
      · by_cases hph : p.holds = true
        · by_cases hold : op.phase.holds = true
          · have : op.share q.key = 1 := by simp [Operation.share, hkey, hold]
            have : Operation.share { op with phase := p } q.key ≤ 1 := by
              unfold Operation.share; split <;> omega
            omega
          · have := hd hph (by simpa using hold) q hq hkey.symm
            rw [this] at hdel; cases hdel
        · have : Operation.share { op with phase := p } q.key = 0 := by
            simp [Operation.share, hph]
          omega
      · have : Operation.share { op with phase := p } q.key = 0 := by
          have hk : Operation.key { op with phase := p } = op.key := rfl
          simp [Operation.share, hk, hkey]
        omega
    · have h2 := hset op.key
      have h3 := ha.value op.key
      have h4 := hp hdel
      have : Operation.share { op with phase := p } op.key = 0 := by
        cases p with
        | del left => simp [Operation.share, Phase.holds]
        | _ => cases hdel
      change Activity.holders _ op.key = 0
      omega

theorem again_holds {first : Nat → Phase} {ended : Phase} {b : Bool}
    (h1 : ∀ n, (first n).holds = b) (h2 : ended.holds = b) (n : Nat) :
    (again first ended n).holds = b := by
  cases n with
  | zero => exact h2
  | succ n => exact h1 n

theorem again_deleting {first : Nat → Phase} {ended : Phase}
    (h1 : ∀ n, (first n).deleting = false) (h2 : ended.deleting = false) (n : Nat) :
    (again first ended n).deleting = false := by
  cases n with
  | zero => exact h2
  | succ n => exact h1 n

/-- A phase that holds as the old one does leaves the share. -/
theorem share_eq {op : Operation} {p : Phase} (h : p.holds = op.phase.holds) (key : Text) :
    Operation.share { op with phase := p } key = op.share key := by
  have hk : Operation.key { op with phase := p } = op.key := rfl
  simp only [Operation.share, hk, h]

theorem share_of_holds {op : Operation} (h : op.phase.holds = true) (key : Text) :
    op.share key = if key = op.key then 1 else 0 := by
  unfold Operation.share
  by_cases hk : op.key = key
  · simp [hk, h]
  · have : ¬key = op.key := fun he => hk he.symm
    simp [hk, this]

theorem share_of_not_holds {op : Operation} (h : op.phase.holds = false) (key : Text) :
    op.share key = 0 := by
  simp [Operation.share, h]

/-- A command that neither counts nor changes whether its operation holds the key. -/
theorem counted_idle {a : Activity} (ha : a.Counted) {i : Nat} {op : Operation}
    (h : a.ops[i]? = some op) {r : Counters} (hr : ∀ key, r.value key = a.counters.value key)
    {p : Phase} (hh : p.holds = op.phase.holds) (hd : p.deleting = false) :
    Activity.Counted ⟨r, a.ops.set i { op with phase := p }⟩ := by
  refine counted_set ha h (fun key => ?_) (fun hp => ?_) fun hp ho => ?_
  · rw [share_eq hh, hr]
  · rw [hd] at hp; cases hp
  · rw [hh, ho] at hp; cases hp

theorem counted_command {a : Activity} (ha : a.Counted) {i : Nat} {op : Operation}
    (h : a.ops[i]? = some op) {o : Outcome} (ho : a.Orderly (.command i o)) :
    Activity.Counted ⟨(op.command a.counters o).1,
      a.ops.set i { op with phase := (op.command a.counters o).2 }⟩ := by
  have ho := ho op h
  unfold Operation.command
  cases hph : op.phase with
  | incr left =>
    rw [hph] at ho
    cases o with
    | done =>
      refine counted_set ha h (fun key => ?_) (fun hp => by cases hp) fun _ _ => ho.2 rfl
      rw [share_of_not_holds (by rw [hph]; rfl),
        @share_of_holds { op with phase := .expire left } rfl]
      simp only [Counters.incr, value_add]
      change _ = _ + ((if key = op.key then 1 else 0 : Nat) : Int)
      split <;> simp
    | before =>
      refine counted_idle ha h (fun _ => rfl) ?_ (@again_deleting .incr .refused (fun _ => rfl) rfl left)
      rw [hph]; exact @again_holds .incr .refused false (fun _ => rfl) rfl left
    | after => exact absurd rfl ho.1
  | expire left =>
    rw [hph] at ho
    subst ho
    exact counted_idle ha h (value_expire a.counters op.key) (by rw [hph]; rfl) rfl
  | working =>
    cases o <;> exact counted_idle ha h (fun _ => rfl) (by rw [hph]) rfl
  | decr left =>
    rw [hph] at ho
    have hshare := @share_of_holds op (by rw [hph]; rfl)
    cases o with
    | done =>
      have hnone : ∀ p : Phase, p.holds = false → ∀ key,
          (a.counters.decr op.key).value key + op.share key =
            a.counters.value key + Operation.share { op with phase := p } key := by
        intro p hp key
        rw [@share_of_not_holds { op with phase := p } hp, hshare, Counters.decr, value_add]
        split
        · push_cast
          omega
        · simp
      dsimp only
      split
      · rename_i hle
        refine counted_set ha h (hnone _ rfl) (fun _ => ?_) fun hp => by cases hp
        rw [Counters.decr, value_add, if_pos rfl] at hle
        rw [hshare, if_pos rfl]
        omega
      · exact counted_set ha h (hnone _ rfl) (fun hp => by cases hp) fun hp => by cases hp
    | before =>
      refine counted_idle ha h (fun _ => rfl) ?_ (@again_deleting .decr .stuck (fun _ => rfl) rfl left)
      rw [hph]; exact @again_holds .decr .stuck true (fun _ => rfl) rfl left
    | after => exact absurd rfl ho
  | del left =>
    rw [hph] at ho
    subst ho
    refine counted_set ha h (fun key => ?_) (fun hp => by cases hp) fun hp => by cases hp
    rw [@share_of_not_holds op (by rw [hph]; rfl),
      @share_of_not_holds { op with phase := .finished } rfl, value_del]
    split
    · rename_i hk
      have h0 := ha.deleting op (List.mem_of_getElem? h) (by rw [hph]; rfl)
      have hv := ha.value op.key
      rw [hk]
      omega
    · rfl
  | finished =>
    cases o <;> exact counted_idle ha h (fun _ => rfl) (by rw [hph]) rfl
  | refused =>
    cases o <;> exact counted_idle ha h (fun _ => rfl) (by rw [hph]) rfl
  | stuck | forgotten =>
    cases o <;> exact counted_idle ha h (fun _ => rfl) (by rw [hph]) rfl

theorem Operation.tick_key (op : Operation) (r : Counters) (seconds : Nat) :
    (op.tick r seconds).key = op.key := by
  unfold Operation.tick
  split <;> rfl

theorem Operation.tick_deleting {op : Operation} {r : Counters} {seconds : Nat}
    (h : (op.tick r seconds).phase.deleting = true) : op.phase.deleting = true := by
  unfold Operation.tick at h
  split at h
  · cases h
  · exact h

/-- A counter that expires is held by nobody afterwards. -/
theorem holders_tick {a : Activity} {seconds : Nat} (h : a.Orderly (.tick seconds)) (key : Text) :
    Activity.holders ⟨a.counters.tick seconds, a.ops.map (·.tick a.counters seconds)⟩ key =
      if a.counters.outlives seconds key then a.holders key else 0 := by
  rw [Activity.holders, List.countP_map]
  cases hlives : a.counters.outlives seconds key with
  | true =>
    rw [if_pos rfl]
    refine List.countP_congr fun op _ => ?_
    by_cases hkey : op.key = key
    · have hsame : op.tick a.counters seconds = op := by simp [Operation.tick, hkey, hlives]
      simp [hsame]
    · simp [Operation.tick_key, hkey]
  | false =>
    refine List.countP_eq_zero.mpr fun op hop hcount => ?_
    simp only [Function.comp_apply, Operation.tick_key, Bool.and_eq_true, beq_iff_eq] at hcount
    obtain ⟨rfl, hholds⟩ := hcount
    by_cases hold : op.phase.holds = true
    · have hstuck := h op hop hlives hold
      simp [Operation.tick, hlives, hstuck, Phase.holds] at hholds
    · refine hold ?_
      unfold Operation.tick at hholds
      split at hholds
      · cases hholds
      · exact hholds

theorem counted_tick {attempts : Nat} {a : Activity} (ha : a.Counted) {seconds : Nat}
    (h : a.Orderly (.tick seconds)) : (a.move attempts (.tick seconds)).Counted := by
  have hholders := holders_tick h
  refine ⟨fun key => ?_, fun op hop hdel => ?_⟩
  · rw [Activity.move, hholders, value_tick]
    split
    · exact ha.value key
    · rfl
  · obtain ⟨op', hop', rfl⟩ := List.mem_map.mp hop
    have hnone := ha.deleting op' hop' (Operation.tick_deleting hdel)
    rw [Activity.move, hholders, Operation.tick_key, hnone]
    exact ite_self 0

theorem counted_move {attempts : Nat} {a : Activity} (ha : a.Counted) {m : Move}
    (hm : a.Orderly m) : (a.move attempts m).Counted := by
  cases m with
  | start k c =>
    have hnew : ∀ key, Activity.holders
        { a with ops := a.ops ++ [⟨k, c, .incr (attempts - 1)⟩] } key = a.holders key := by
      intro key
      simp [Activity.holders, Phase.holds]
    refine ⟨fun key => (ha.value key).trans (by rw [Activity.move, hnew]), fun op hop hd => ?_⟩
    rcases List.mem_append.mp hop with hop | hop
    · rw [Activity.move, hnew]; exact ha.deleting op hop hd
    · rw [List.mem_singleton.mp hop] at hd; cases hd
  | command i o =>
    simp only [Activity.move]
    split
    · rename_i op h; exact counted_command ha h hm
    · exact ha
  | leave i =>
    simp only [Activity.move]
    split
    · rename_i op h
      split
      · rename_i hw
        exact counted_idle ha h (fun _ => rfl) (by rw [hw]; rfl) rfl
      · exact ha
    · exact ha
  | tick seconds => exact counted_tick ha hm

theorem counted_run {attempts : Nat} {ms : List Move} : ∀ {a : Activity}, a.Counted →
    a.OrderlyRun attempts ms → (a.run attempts ms).Counted := by
  induction ms with
  | nil => intro a ha _; exact ha
  | cons m ms ih => intro a ha hm; exact ih (counted_move ha hm.1) hm.2

/-! ## What a reader is told -/

theorem append_ne_of_getElem {p q x y : Text} (i : Nat) (hp : i < p.length) (hq : i < q.length)
    (h : p[i]? ≠ q[i]?) : p ++ x ≠ q ++ y := by
  intro he
  have hi := congrArg (·[i]?) he
  simp only [List.getElem?_append_left hp, List.getElem?_append_left hq] at hi
  exact h hi

theorem counter_key_inj {k k' : Counter} {c c' : CollectionId} (h : k.key c = k'.key c') :
    k = k' ∧ c = c' := by
  have hne : ∀ a b : CollectionId, Counter.inflight.key a ≠ Counter.destructive.key b := fun a b =>
    append_ne_of_getElem 27 (by decide) (by decide) (by decide)
  cases k with
  | inflight =>
    cases k' with
    | inflight => exact ⟨rfl, List.append_cancel_left h⟩
    | destructive => exact absurd h (hne c c')
  | destructive =>
    cases k' with
    | inflight => exact absurd h.symm (hne c' c)
    | destructive => exact ⟨rfl, List.append_cancel_left h⟩

/-- What is claimed of the reader in a state: an operation at work is seen, and none is when all
are over. -/
def Activity.Reported (a : Activity) : Prop :=
  ∀ k c,
    ((∃ op ∈ a.ops, op.counter = k ∧ op.collectionId = c ∧ op.phase = .working) →
      collectionHasActivity k c a.counters = true) ∧
    ((∀ op ∈ a.ops, op.counter = k → op.collectionId = c → op.phase.ended = true) →
      collectionHasActivity k c a.counters = false)

theorem positive_iff {a : Activity} (ha : a.Counted) (key : Text) :
    a.counters.positive key = true ↔ 0 < a.holders key := by
  have hv := ha.value key
  unfold Counters.positive
  unfold Counters.value at hv
  cases hc : a.counters key with
  | none =>
    rw [hc, Option.map_none, Option.getD_none] at hv
    simp only [Bool.false_eq_true, false_iff]
    omega
  | some e =>
    rw [hc, Option.map_some, Option.getD_some] at hv
    simp only [decide_eq_true_eq]
    omega

theorem Activity.Counted.reported {a : Activity} (ha : a.Counted) : a.Reported := by
  intro k c
  refine ⟨?_, fun hall => ?_⟩
  · rintro ⟨op, hop, rfl, rfl, hw⟩
    refine (positive_iff ha op.key).mpr (List.countP_pos_iff.mpr ⟨op, hop, ?_⟩)
    simp [hw, Phase.holds]
  · have hzero : a.holders (k.key c) = 0 := by
      refine List.countP_eq_zero.mpr fun op hop hh => ?_
      simp only [Bool.and_eq_true, beq_iff_eq] at hh
      obtain ⟨rfl, rfl⟩ := counter_key_inj hh.1
      have hover := hall op hop rfl rfl
      have hholds := hh.2
      cases hp : op.phase with
      | finished => rw [hp] at hholds; cases hholds
      | refused => rw [hp] at hholds; cases hholds
      | forgotten => rw [hp] at hholds; cases hholds
      | _ => rw [hp] at hover; cases hover
    rw [← Bool.not_eq_true]
    intro hpos
    have := (positive_iff ha (k.key c)).mp hpos
    omega

def Activity.idle : Activity := ⟨fun _ => none, []⟩

theorem counted_idle_start : Activity.idle.Counted :=
  ⟨fun _ => rfl, fun _ h => by cases h⟩

/-- In every orderly run the reader is told right in every state. -/
theorem activity_reported (attempts : Nat) (ms : List Move)
    (h : Activity.idle.OrderlyRun attempts ms) : (Activity.idle.run attempts ms).Reported :=
  (counted_run counted_idle_start h).reported

instance (a : Activity) (key : Text) (o : Outcome) : ∀ p, Decidable (a.OrderlyAt key o p)
  | .incr _ => inferInstanceAs (Decidable
      (o ≠ .after ∧ (o = .done → ∀ q ∈ a.ops, q.key = key → q.phase.deleting = false)))
  | .expire _ => inferInstanceAs (Decidable (o = .done))
  | .decr _ => inferInstanceAs (Decidable (o ≠ .after))
  | .del _ => inferInstanceAs (Decidable (o = .done))
  | .working | .finished | .refused | .stuck | .forgotten => isTrue trivial

instance (a : Activity) : ∀ m, Decidable (a.Orderly m)
  | .command i o => inferInstanceAs (Decidable (∀ op ∈ a.ops[i]?, a.OrderlyAt op.key o op.phase))
  | .tick seconds => inferInstanceAs (Decidable (∀ op ∈ a.ops,
      a.counters.outlives seconds op.key = false → op.phase.holds = true → op.phase = .stuck))
  | .start _ _ | .leave _ => isTrue trivial

instance (attempts : Nat) : ∀ (ms : List Move) (a : Activity), Decidable (a.OrderlyRun attempts ms)
  | [], _ => isTrue trivial
  | m :: ms, a =>
    have := instDecidableOrderlyRun attempts ms (a.move attempts m)
    inferInstanceAs (Decidable (a.Orderly m ∧ (a.move attempts m).OrderlyRun attempts ms))

/-- Two imports of one collection overlap, and the second one meets a lost connection. It goes on for
a day after the first one. -/
theorem overlapping_imports_reported :
    (Activity.idle.run 5 [.start .inflight "a".toList, .command 0 .done, .command 0 .done,
      .start .inflight "a".toList, .command 1 .before, .command 1 .done, .command 1 .done, .leave 0,
      .command 0 .done, .tick 86400]).Reported :=
  activity_reported 5 _ (by decide)

/-- A second import begins between the `DECR` and the `DEL` of the first one. -/
def lateDelete : List Move :=
  [.start .inflight "a".toList, .command 0 .done, .command 0 .done, .leave 0, .command 0 .done,
    .start .inflight "a".toList, .command 1 .done, .command 1 .done, .command 0 .done]

/-- The delete removes the count of the second import, which is at work unseen. -/
theorem late_delete_hides_import : ¬(Activity.idle.run 5 lateDelete).Reported := by
  intro h
  have hseen := (h .inflight "a".toList).1
    ⟨⟨.inflight, "a".toList, .working⟩, by decide, rfl, rfl, rfl⟩
  revert hseen
  decide

end Bulk
end Geofastmap
