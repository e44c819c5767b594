import Mathlib.Data.Finset.Card
import Mathlib.Data.Fintype.Card
import Mathlib.Logic.Relation

/-!
# Geofastmap.Graph.Search

Searches of a finite graph with a stack, from the vertices that a test allows.

* `flood` : a vertex is marked when it is taken from the stack, which may hold it several times.
* `explore` : a vertex is marked when it is put on the stack, so the stack holds it once.
* `scan` : one `explore` for each vertex of a list that is not marked yet; the largest set is kept.

`mem_flood`, `explore_spec` and `scan_spec` say what the searches return in terms of `Reaches`, and
`IsComponent` are the connected components of an undirected graph.
-/

namespace Geofastmap
namespace Graph

variable {V : Type} (ok : V → Bool) (next : V → List V)

/-- A step to a vertex that is allowed. -/
def Step (a b : V) : Prop := b ∈ next a ∧ ok b = true

/-- A path of allowed vertices, from a vertex that may not be allowed itself. -/
def Reaches : V → V → Prop := Relation.ReflTransGen (Step ok next)

variable {ok next}

theorem Reaches.allowed {a b : V} (h : Reaches ok next a b) (ha : ok a = true) : ok b = true := by
  cases h with
  | refl => exact ha
  | tail _ hstep => exact hstep.2

/-- Paths in an undirected graph go both ways. -/
theorem Reaches.symm (hsymm : ∀ a b, b ∈ next a → a ∈ next b) {a b : V} (ha : ok a = true)
    (h : Reaches ok next a b) : Reaches ok next b a := by
  induction h with
  | refl => exact Relation.ReflTransGen.refl
  | tail hpath hstep ih =>
    exact Relation.ReflTransGen.head ⟨hsymm _ _ hstep.1, Reaches.allowed hpath ha⟩ ih

/-- A step from a marked vertex leads to a marked one or to the stack. -/
def Closed (ok : V → Bool) (next : V → List V) (visited : Finset V) (stack : List V) : Prop :=
  ∀ v ∈ visited, ∀ u, Step ok next v u → u ∈ visited ∨ u ∈ stack

/-- A path from a marked vertex stays among these or passes the stack. -/
theorem Reaches.escape {visited : Finset V} {stack : List V}
    (hclosed : Closed ok next visited stack) {a b : V} (h : Reaches ok next a b)
    (ha : a ∈ visited) : b ∈ visited ∨ ∃ s ∈ stack, ok s = true ∧ Reaches ok next s b := by
  induction h with
  | refl => exact Or.inl ha
  | tail _ hstep ih =>
    rcases ih with hb | ⟨s, hs, hok, hpath⟩
    · rcases hclosed _ hb _ hstep with hc | hc
      · exact Or.inl hc
      · exact Or.inr ⟨_, hc, hstep.2, Relation.ReflTransGen.refl⟩
    · exact Or.inr ⟨s, hs, hok, hpath.tail hstep⟩

theorem Closed.skip {visited : Finset V} {v : V} {stack : List V}
    (h : Closed ok next visited (v :: stack)) (hskip : v ∈ visited ∨ ok v = false) :
    Closed ok next visited stack := by
  intro w hw u hstep
  rcases h w hw u hstep with hu | hu
  · exact Or.inl hu
  · rcases List.mem_cons.mp hu with rfl | hu
    · rcases hskip with hv | hno
      · exact Or.inl hv
      · rw [hstep.2] at hno
        cases hno
    · exact Or.inr hu

theorem Closed.take [DecidableEq V] {visited : Finset V} {v : V} {stack stack' : List V}
    (h : Closed ok next visited (v :: stack))
    (hnext : ∀ u, Step ok next v u → u ∈ insert v visited ∨ u ∈ stack')
    (hold : ∀ u ∈ stack, u ∈ stack') : Closed ok next (insert v visited) stack' := by
  intro w hw u hstep
  rcases Finset.mem_insert.mp hw with rfl | hw
  · exact hnext u hstep
  · rcases h w hw u hstep with hu | hu
    · exact Or.inl (Finset.mem_insert_of_mem hu)
    · rcases List.mem_cons.mp hu with rfl | hu
      · exact Or.inl (Finset.mem_insert_self _ _)
      · exact Or.inr (hold u hu)

variable [DecidableEq V] [Fintype V]

theorem card_compl_insert {visited : Finset V} {v : V} (h : v ∉ visited) :
    (insert v visited)ᶜ.card + 1 = visitedᶜ.card := by
  have hcard := Finset.card_insert_of_notMem h
  have hle := Finset.card_le_univ (insert v visited)
  rw [Finset.card_compl, Finset.card_compl]
  omega

/-! ## Marked when taken -/

def flood {V : Type} [DecidableEq V] [Fintype V] (ok : V → Bool) (next : V → List V)
    (visited : Finset V) : List V → Finset V
  | [] => visited
  | v :: stack =>
    if v ∈ visited ∨ ok v = false then flood ok next visited stack
    else
      flood ok next (insert v visited)
        (((next v).filter fun u => ok u && decide (u ∉ insert v visited)).reverse ++ stack)
termination_by stack => (visitedᶜ.card, stack.length)
decreasing_by
  · exact Prod.Lex.right _ (Nat.lt_succ_self _)
  · rename_i htake
    have := card_compl_insert (not_or.mp htake).1
    exact Prod.Lex.left _ _ (by omega)

/-- What is marked in the end: what was, and what the stack reaches. -/
theorem mem_flood {visited : Finset V} {stack : List V}
    (hclosed : Closed ok next visited stack) (x : V) :
    x ∈ flood ok next visited stack ↔
      x ∈ visited ∨ ∃ s ∈ stack, ok s = true ∧ Reaches ok next s x := by
  fun_induction flood ok next visited stack with
  | case1 visited => simp
  | case2 visited v stack hskip ih =>
    have hclosed' := hclosed.skip hskip
    rw [ih hclosed']
    constructor
    · rintro (hx | ⟨s, hs, hok, hpath⟩)
      · exact Or.inl hx
      · exact Or.inr ⟨s, List.mem_cons_of_mem _ hs, hok, hpath⟩
    · rintro (hx | ⟨s, hs, hok, hpath⟩)
      · exact Or.inl hx
      · rcases List.mem_cons.mp hs with rfl | hs
        · -- a vertex that is skipped and allowed is marked
          rcases hskip with hv | hno
          · exact hpath.escape hclosed' hv
          · rw [hok] at hno
            cases hno
        · exact Or.inr ⟨s, hs, hok, hpath⟩
  | case3 visited v stack htake ih =>
    obtain ⟨hnew, hok⟩ := not_or.mp htake
    have hok : ok v = true := by simpa using hok
    have hfresh : ∀ u, u ∈ ((next v).filter fun u =>
        ok u && decide (u ∉ insert v visited)).reverse ++ stack ↔
          (Step ok next v u ∧ u ∉ insert v visited) ∨ u ∈ stack := by
      intro u
      rw [List.mem_append, List.mem_reverse, List.mem_filter, Bool.and_eq_true, decide_eq_true_eq,
        Step, and_assoc]
    have hclosed' : Closed ok next (insert v visited) (((next v).filter fun u =>
        ok u && decide (u ∉ insert v visited)).reverse ++ stack) := by
      refine hclosed.take (fun u hstep => ?_) fun u hu => (hfresh u).mpr (Or.inr hu)
      by_cases hu : u ∈ insert v visited
      · exact Or.inl hu
      · exact Or.inr ((hfresh u).mpr (Or.inl ⟨hstep, hu⟩))
    rw [ih hclosed']
    constructor
    · rintro (hx | ⟨s, hs, hsok, hpath⟩)
      · rcases Finset.mem_insert.mp hx with rfl | hx
        · exact Or.inr ⟨x, List.mem_cons_self, hok, Relation.ReflTransGen.refl⟩
        · exact Or.inl hx
      · rcases (hfresh s).mp hs with ⟨hstep, -⟩ | hs
        · exact Or.inr ⟨v, List.mem_cons_self, hok, Relation.ReflTransGen.head hstep hpath⟩
        · exact Or.inr ⟨s, List.mem_cons_of_mem _ hs, hsok, hpath⟩
    · rintro (hx | ⟨s, hs, hsok, hpath⟩)
      · exact Or.inl (Finset.mem_insert_of_mem hx)
      · rcases List.mem_cons.mp hs with rfl | hs
        · exact hpath.escape hclosed' (Finset.mem_insert_self _ _)
        · exact Or.inr ⟨s, (hfresh s).mpr (Or.inr hs), hsok, hpath⟩

/-! ## Marked when put on the stack -/

/-- Vertices that are allowed and not marked are marked and put on the stack. -/
def pushAll (ok : V → Bool) : List V → Finset V × List V → Finset V × List V
  | [], s => s
  | u :: us, s =>
    pushAll ok us (if ok u && decide (u ∉ s.1) then (insert u s.1, u :: s.2) else s)

variable (ok) in
omit [Fintype V] in
theorem pushAll_spec (us : List V) (visited : Finset V) (stack : List V) :
    ∃ fresh, pushAll ok us (visited, stack) = (visited ∪ fresh.toFinset, fresh ++ stack) ∧
      fresh.Nodup ∧ ∀ u, u ∈ fresh ↔ u ∈ us ∧ ok u = true ∧ u ∉ visited := by
  induction us generalizing visited stack with
  | nil => exact ⟨[], by simp [pushAll], List.nodup_nil, by simp⟩
  | cons u us ih =>
    rw [pushAll]
    split
    · rename_i hnew
      rw [Bool.and_eq_true, decide_eq_true_eq] at hnew
      obtain ⟨hok, hnew⟩ := hnew
      obtain ⟨fresh, hpush, hnodup, hfresh⟩ := ih (insert u visited) (u :: stack)
      refine ⟨fresh ++ [u], ?_, ?_, fun w => ?_⟩
      · rw [hpush, List.append_assoc, List.singleton_append]
        congr 1
        ext w
        simp only [Finset.mem_union, Finset.mem_insert, List.mem_toFinset, List.mem_append,
          List.mem_singleton]
        tauto
      · rw [List.nodup_append]
        refine ⟨hnodup, List.nodup_singleton u, fun a ha b hb hab => ?_⟩
        rw [List.mem_singleton.mp hb] at hab
        exact ((hfresh a).mp ha).2.2 (hab ▸ Finset.mem_insert_self _ _)
      · rw [List.mem_append, List.mem_singleton, hfresh, List.mem_cons, Finset.mem_insert]
        constructor
        · rintro (⟨hus, hw, hout⟩ | rfl)
          · exact ⟨Or.inr hus, hw, fun hin => hout (Or.inr hin)⟩
          · exact ⟨Or.inl rfl, hok, hnew⟩
        · rintro ⟨hus, hw, hout⟩
          by_cases heq : w = u
          · exact Or.inr heq
          · exact Or.inl ⟨hus.resolve_left heq, hw, not_or.mpr ⟨heq, hout⟩⟩
    · rename_i hold
      obtain ⟨fresh, hpush, hnodup, hfresh⟩ := ih visited stack
      refine ⟨fresh, hpush, hnodup, fun w => ?_⟩
      rw [hfresh, List.mem_cons]
      constructor
      · rintro ⟨hus, hw⟩
        exact ⟨Or.inr hus, hw⟩
      · rintro ⟨rfl | hus, hw⟩
        · exact absurd hw (by simpa using hold)
        · exact ⟨hus, hw⟩

variable (ok) in
/-- Each mark is one vertex more on the stack. -/
theorem pushAll_card (us : List V) (visited : Finset V) (stack : List V) :
    (pushAll ok us (visited, stack)).1ᶜ.card + (pushAll ok us (visited, stack)).2.length =
      visitedᶜ.card + stack.length := by
  obtain ⟨fresh, hpush, hnodup, hfresh⟩ := pushAll_spec ok us visited stack
  have hdisjoint : Disjoint visited fresh.toFinset := by
    rw [Finset.disjoint_right]
    intro u hu
    exact ((hfresh u).mp (List.mem_toFinset.mp hu)).2.2
  have hle := Finset.card_le_univ (visited ∪ fresh.toFinset)
  rw [hpush, List.length_append, Finset.card_compl, Finset.card_compl]
  rw [Finset.card_union_of_disjoint hdisjoint, List.toFinset_card_of_nodup hnodup] at hle ⊢
  omega

/-- What a search returns: the marked vertices, those that it has taken from the stack, and their
number. -/
structure Blob (V : Type) where
  visited : Finset V
  comp : Finset V
  count : Nat

def explore {V : Type} [DecidableEq V] [Fintype V] (ok : V → Bool) (next : V → List V)
    (visited comp : Finset V) (n : Nat) : List V → Blob V
  | [] => ⟨visited, comp, n⟩
  | v :: stack =>
    let pushed := pushAll ok (next v) (visited, stack)
    explore ok next pushed.1 (insert v comp) (n + 1) pushed.2
termination_by stack => visitedᶜ.card + stack.length
decreasing_by
  have := pushAll_card ok (next v) visited stack
  rw [List.length_cons]
  omega

/-- A search from `start` on its way, where `marked` was marked before. -/
structure Exploring (ok : V → Bool) (next : V → List V) (marked : Finset V) (start : V)
    (visited comp : Finset V) (n : Nat) (stack : List V) : Prop where
  marks : ∀ u, u ∈ visited ↔ u ∈ marked ∨ u ∈ comp ∨ u ∈ stack
  unmarked : ∀ u, u ∈ comp ∨ u ∈ stack → u ∉ marked
  fresh : ∀ u ∈ stack, u ∉ comp
  nodup : stack.Nodup
  count : n = comp.card
  begun : start ∈ comp ∨ start ∈ stack
  reaches : ∀ u, u ∈ comp ∨ u ∈ stack → Reaches ok next start u
  closed : ∀ v ∈ comp, ∀ u, Step ok next v u → u ∈ visited

section
variable {marked : Finset V} {start : V}

omit [Fintype V] in
theorem Exploring.step {visited comp : Finset V} {n : Nat} {v : V} {stack : List V}
    (h : Exploring ok next marked start visited comp n (v :: stack)) :
    Exploring ok next marked start (pushAll ok (next v) (visited, stack)).1 (insert v comp) (n + 1)
      (pushAll ok (next v) (visited, stack)).2 := by
  obtain ⟨fresh, hpush, hnodup, hfresh⟩ := pushAll_spec ok (next v) visited stack
  rw [hpush]
  dsimp only
  have hv : v ∉ comp := h.fresh v List.mem_cons_self
  have hold : ∀ u, u ∈ comp ∨ u ∈ v :: stack → u ∈ visited := fun u hu =>
    (h.marks u).mpr (Or.inr hu)
  have hstack := List.nodup_cons.mp h.nodup
  -- what is in hand was so before, or is next to `v`
  have hcases : ∀ u, u ∈ insert v comp ∨ u ∈ fresh ++ stack →
      (u ∈ comp ∨ u ∈ v :: stack) ∨ u ∈ fresh := by
    intro u hu
    rw [Finset.mem_insert, List.mem_append] at hu
    rw [List.mem_cons]
    tauto
  constructor
  · intro u
    rw [Finset.mem_union, List.mem_toFinset, h.marks, List.mem_cons, Finset.mem_insert,
      List.mem_append]
    tauto
  · intro u hu
    rcases hcases u hu with hu | hu
    · exact h.unmarked u hu
    · exact fun hmarked => ((hfresh u).mp hu).2.2 ((h.marks u).mpr (Or.inl hmarked))
  · intro u hu
    rw [Finset.mem_insert, not_or]
    rcases List.mem_append.mp hu with hu | hu
    · have hnew := ((hfresh u).mp hu).2.2
      exact ⟨fun heq => hnew (hold u (Or.inr (heq ▸ List.mem_cons_self))),
        fun hin => hnew (hold u (Or.inl hin))⟩
    · exact ⟨fun heq => hstack.1 (heq ▸ hu), h.fresh u (List.mem_cons_of_mem v hu)⟩
  · rw [List.nodup_append]
    refine ⟨hnodup, hstack.2, fun a ha b hb hab => ?_⟩
    exact ((hfresh a).mp ha).2.2 (hold a (Or.inr (List.mem_cons_of_mem v (hab ▸ hb))))
  · rw [Finset.card_insert_of_notMem hv, h.count]
  · have hbegun := h.begun
    rw [Finset.mem_insert, List.mem_append]
    rw [List.mem_cons] at hbegun
    tauto
  · intro u hu
    rcases hcases u hu with hu | hu
    · exact h.reaches u hu
    · obtain ⟨hmem, hok, -⟩ := (hfresh u).mp hu
      exact (h.reaches v (Or.inr List.mem_cons_self)).tail ⟨hmem, hok⟩
  · intro w hw u hstep
    rw [Finset.mem_union, List.mem_toFinset, hfresh]
    rcases Finset.mem_insert.mp hw with rfl | hw
    · by_cases hu : u ∈ visited
      · exact Or.inl hu
      · exact Or.inr ⟨hstep.1, hstep.2, hu⟩
    · exact Or.inl (h.closed w hw u hstep)

/-- The search takes what `start` reaches, where nothing else leads to marked vertices. -/
theorem explore_spec (hstart : ok start = true)
    (hsep : ∀ a, ok a = true → a ∉ marked → ∀ b, Step ok next a b → b ∉ marked)
    {visited comp : Finset V} {n : Nat} {stack : List V}
    (h : Exploring ok next marked start visited comp n stack) :
    ∃ c : Finset V, explore ok next visited comp n stack = ⟨marked ∪ c, c, c.card⟩ ∧
      ∀ u, u ∈ c ↔ Reaches ok next start u := by
  fun_induction explore ok next visited comp n stack with
  | case1 visited comp n =>
    refine ⟨comp, ?_, fun u => ⟨fun hu => h.reaches u (Or.inl hu), fun hpath => ?_⟩⟩
    · have hvisited : visited = marked ∪ comp := by
        ext u
        rw [h.marks, Finset.mem_union]
        simp
      rw [hvisited, h.count]
    · induction hpath with
      | refl => exact h.begun.resolve_right List.not_mem_nil
      | tail _ hstep ih =>
        rcases (h.marks _).mp (h.closed _ ih _ hstep) with hmarked | hcomp | hstack
        · have hok := (h.reaches _ (Or.inl ih)).allowed hstart
          exact absurd hmarked (hsep _ hok (h.unmarked _ (Or.inl ih)) _ hstep)
        · exact hcomp
        · cases hstack
  | case2 visited comp n v stack pushed ih => exact ih h.step

end

/-! ## Connected components -/

/-- A set of allowed vertices that are connected to each other and to no other one. -/
structure IsComponent (ok : V → Bool) (next : V → List V) (c : Finset V) : Prop where
  nonempty : c.Nonempty
  allowed : ∀ v ∈ c, ok v = true
  connected : ∀ u ∈ c, ∀ v ∈ c, Relation.ReflTransGen (fun a b => b ∈ next a ∧ b ∈ c) u v
  maximal : ∀ u ∈ c, ∀ v ∈ next u, ok v = true → v ∈ c

section
variable {c : Finset V} {v : V}

omit [DecidableEq V] [Fintype V] in
theorem IsComponent.mem_iff (h : IsComponent ok next c) (hv : v ∈ c) (u : V) :
    u ∈ c ↔ Reaches ok next v u := by
  constructor
  · intro hu
    have hstep : ∀ a b, b ∈ next a ∧ b ∈ c → Step ok next a b :=
      fun a b hab => ⟨hab.1, h.allowed b hab.2⟩
    exact Relation.ReflTransGen.mono hstep _ _ (h.connected v hv u hu)
  · intro hpath
    induction hpath with
    | refl => exact hv
    | tail _ hstep ih => exact h.maximal _ ih _ hstep.1 hstep.2

omit [DecidableEq V] [Fintype V] in
/-- In an undirected graph, what an allowed vertex reaches is its component. -/
theorem isComponent_of_reaches (hsymm : ∀ a b, b ∈ next a → a ∈ next b) (hv : ok v = true)
    (hc : ∀ u, u ∈ c ↔ Reaches ok next v u) : IsComponent ok next c := by
  have hinside : ∀ {a b}, a ∈ c → Reaches ok next a b →
      Relation.ReflTransGen (fun a b => b ∈ next a ∧ b ∈ c) a b := by
    intro a b ha hpath
    induction hpath with
    | refl => exact Relation.ReflTransGen.refl
    | tail hpath hstep ih =>
      exact ih.tail ⟨hstep.1, (hc _).mpr ((((hc a).mp ha).trans hpath).tail hstep)⟩
  constructor
  · exact ⟨v, (hc v).mpr Relation.ReflTransGen.refl⟩
  · exact fun u hu => ((hc u).mp hu).allowed hv
  · intro u hu w hw
    exact hinside hu ((((hc u).mp hu).symm hsymm hv).trans ((hc w).mp hw))
  · exact fun u hu w hw hok => (hc w).mpr (((hc u).mp hu).tail ⟨hw, hok⟩)

end

/-! ## All components -/

structure Scan (V : Type) where
  visited : Finset V
  best : Option (Finset V)
  bestN : Nat

def scanVertex (ok : V → Bool) (next : V → List V) (s : Scan V) (v : V) : Scan V :=
  if ok v = false ∨ v ∈ s.visited then s
  else
    let blob := explore ok next (insert v s.visited) ∅ 0 [v]
    if s.bestN < blob.count then ⟨blob.visited, some blob.comp, blob.count⟩
    else ⟨blob.visited, s.best, s.bestN⟩

def scan (ok : V → Bool) (next : V → List V) (vs : List V) : Scan V :=
  vs.foldl (scanVertex ok next) ⟨∅, none, 0⟩

/-- The vertices of `seen` have been looked at: their components are marked, and the largest one is
kept. -/
structure Scanned (ok : V → Bool) (next : V → List V) (seen : V → Prop) (s : Scan V) : Prop where
  visited : ∀ u, u ∈ s.visited ↔ ∃ v, seen v ∧ ok v = true ∧ Reaches ok next v u
  best : ∀ c ∈ s.best, IsComponent ok next c ∧ s.bestN = c.card
  none : s.best = none → s.bestN = 0
  largest : ∀ v, seen v → ∀ c, IsComponent ok next c → v ∈ c → c.card ≤ s.bestN

omit [DecidableEq V] [Fintype V] in
/-- A vertex that is not allowed, or marked, has no component of its own. -/
theorem Scanned.skip (hsymm : ∀ a b, b ∈ next a → a ∈ next b) {seen : V → Prop} {s : Scan V}
    (h : Scanned ok next seen s) {v : V} (hskip : ok v = false ∨ v ∈ s.visited) :
    Scanned ok next (fun u => seen u ∨ u = v) s := by
  have hv : ok v = true → ∃ w, seen w ∧ ok w = true ∧ Reaches ok next w v := by
    intro hok
    rcases hskip with hno | hmem
    · rw [hok] at hno
      cases hno
    · exact (h.visited v).mp hmem
  refine ⟨fun u => ?_, h.best, h.none, ?_⟩
  · rw [h.visited]
    constructor
    · rintro ⟨w, hw, hok, hpath⟩
      exact ⟨w, Or.inl hw, hok, hpath⟩
    · rintro ⟨w, hw | rfl, hok, hpath⟩
      · exact ⟨w, hw, hok, hpath⟩
      · obtain ⟨w', hw', hok', hpath'⟩ := hv hok
        exact ⟨w', hw', hok', hpath'.trans hpath⟩
  · rintro u (hu | rfl) c hc hmem
    · exact h.largest u hu c hc hmem
    · obtain ⟨w, hw, hok, hpath⟩ := hv (hc.allowed u hmem)
      exact h.largest w hw c hc ((hc.mem_iff hmem w).mpr (hpath.symm hsymm hok))

/-- The search from a vertex takes what it reaches: nothing else there is marked yet. -/
theorem Scanned.explore (hsymm : ∀ a b, b ∈ next a → a ∈ next b) {seen : V → Prop} {s : Scan V}
    (h : Scanned ok next seen s) {v : V} (hok : ok v = true) (hnew : v ∉ s.visited) :
    ∃ c : Finset V,
      Graph.explore ok next (insert v s.visited) ∅ 0 [v] = ⟨s.visited ∪ c, c, c.card⟩ ∧
        ∀ u, u ∈ c ↔ Reaches ok next v u := by
  have hsep : ∀ a, ok a = true → a ∉ s.visited → ∀ b, Step ok next a b → b ∉ s.visited := by
    intro a haok ha b hstep hb
    obtain ⟨w, hw, hwok, hpath⟩ := (h.visited b).mp hb
    exact ha ((h.visited a).mpr ⟨w, hw, hwok, hpath.tail ⟨hsymm a b hstep.1, haok⟩⟩)
  have hbegin : Exploring ok next s.visited v (insert v s.visited) ∅ 0 [v] := by
    have honly : ∀ {u}, u ∈ (∅ : Finset V) ∨ u ∈ [v] → u = v := fun hu => by simpa using hu
    refine ⟨fun u => ?_, fun u hu => ?_, by simp, List.nodup_singleton v, rfl, by simp,
      fun u hu => ?_, by simp⟩
    · simp [or_comm]
    · rwa [honly hu]
    · rw [honly hu]
      exact Relation.ReflTransGen.refl
  exact explore_spec hok hsep hbegin

theorem Scanned.vertex (hsymm : ∀ a b, b ∈ next a → a ∈ next b) {seen : V → Prop} {s : Scan V}
    (h : Scanned ok next seen s) (v : V) :
    Scanned ok next (fun u => seen u ∨ u = v) (scanVertex ok next s v) := by
  unfold scanVertex
  split
  · rename_i hskip
    exact h.skip hsymm hskip
  · rename_i hnew
    obtain ⟨hok, hnew⟩ := not_or.mp hnew
    have hok : ok v = true := by simpa using hok
    obtain ⟨c, hexplore, hc⟩ := h.explore hsymm hok hnew
    have hcomp : IsComponent ok next c := isComponent_of_reaches hsymm hok hc
    have hvisited : ∀ u, u ∈ s.visited ∪ c ↔
        ∃ w, (seen w ∨ w = v) ∧ ok w = true ∧ Reaches ok next w u := by
      intro u
      rw [Finset.mem_union, h.visited, hc]
      constructor
      · rintro (⟨w, hw, hwok, hpath⟩ | hpath)
        · exact ⟨w, Or.inl hw, hwok, hpath⟩
        · exact ⟨v, Or.inr rfl, hok, hpath⟩
      · rintro ⟨w, hw | rfl, hwok, hpath⟩
        · exact Or.inl ⟨w, hw, hwok, hpath⟩
        · exact Or.inr hpath
    have hunique : ∀ c', IsComponent ok next c' → v ∈ c' → c' = c := by
      intro c' hc' hmem
      ext u
      rw [hc'.mem_iff hmem, hc]
    rw [hexplore]
    dsimp only
    split
    · rename_i hlarger
      refine ⟨hvisited, ?_, by simp, ?_⟩
      · rintro c' ⟨⟩
        exact ⟨hcomp, rfl⟩
      · rintro u (hu | rfl) c' hc' hmem
        · exact (h.largest u hu c' hc' hmem).trans (Nat.le_of_lt hlarger)
        · rw [hunique c' hc' hmem]
    · rename_i hsmaller
      refine ⟨hvisited, h.best, h.none, ?_⟩
      rintro u (hu | rfl) c' hc' hmem
      · exact h.largest u hu c' hc' hmem
      · rw [hunique c' hc' hmem]
        exact Nat.not_lt.mp hsmaller

theorem scanned_foldl (hsymm : ∀ a b, b ∈ next a → a ∈ next b) (vs : List V) {seen : V → Prop}
    {s : Scan V} (h : Scanned ok next seen s) :
    Scanned ok next (fun u => seen u ∨ u ∈ vs) (vs.foldl (scanVertex ok next) s) := by
  induction vs generalizing seen s with
  | nil => simpa using h
  | cons v vs ih =>
    have hrest := ih (h.vertex hsymm v)
    simpa only [List.foldl_cons, List.mem_cons, or_assoc] using hrest

/-- In an undirected graph the scan of all vertices keeps the largest component. -/
theorem scan_spec (hsymm : ∀ a b, b ∈ next a → a ∈ next b) {vs : List V} (hall : ∀ v, v ∈ vs)
    (hsome : ∃ v, ok v = true) :
    ∃ c, (scan ok next vs).best = some c ∧ IsComponent ok next c ∧
      ∀ c', IsComponent ok next c' → c'.card ≤ c.card := by
  have hbegin : Scanned ok next (fun _ => False) (⟨∅, none, 0⟩ : Scan V) :=
    ⟨by simp, by simp, fun _ => rfl, fun _ h => h.elim⟩
  have h := scanned_foldl hsymm vs hbegin
  rw [← scan] at h
  have hlargest : ∀ c, IsComponent ok next c → c.card ≤ (scan ok next vs).bestN := by
    intro c hc
    obtain ⟨v, hv⟩ := hc.nonempty
    exact h.largest v (Or.inr (hall v)) c hc hv
  cases hbest : (scan ok next vs).best with
  | none =>
    -- the component of an allowed vertex is not empty
    obtain ⟨v, hv⟩ := hsome
    classical
    obtain ⟨c, hc⟩ : ∃ c : Finset V, ∀ u, u ∈ c ↔ Reaches ok next v u :=
      ⟨Finset.univ.filter (Reaches ok next v), by simp⟩
    have hcomp := isComponent_of_reaches hsymm hv hc
    have hle := hlargest c hcomp
    rw [h.none hbest] at hle
    have hpos := hcomp.nonempty.card_pos
    omega
  | some c =>
    obtain ⟨hcomp, hcard⟩ := h.best c hbest
    exact ⟨c, rfl, hcomp, fun c' hc' => hcard ▸ hlargest c' hc'⟩

end Graph
end Geofastmap
