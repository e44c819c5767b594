import Mathlib.Data.Finset.Lattice.Fold
import Mathlib.Data.Finset.Max
import Mathlib.Data.Finset.SDiff
import Mathlib.Order.BooleanAlgebra.Basic
import Mathlib.Order.Lattice.Nat
import Geofastmap.Db.Table
import Geofastmap.Process.Batches

/-!
# Geofastmap.Process.Erase

`_process_erase_batch`: a batch of features minus the features of another collection that meet
them. Geometries are the elements of a generalized Boolean algebra: `⊥` is the empty geometry,
`⊔` the union and `\` the difference.

The indices that the spatial index returns are an array, and the code asks whether the array is
true. `erase_exact_iff` says for which batches the answer is the intended one.
-/

namespace Geofastmap
namespace Process

open Db Import

structure Bounds (K : Type) where
  minx : K
  miny : K
  maxx : K
  maxy : K

def Bounds.Within {K : Type} [LE K] (a box : Bounds K) : Prop :=
  box.minx ≤ a.minx ∧ box.miny ≤ a.miny ∧ a.maxx ≤ box.maxx ∧ a.maxy ≤ box.maxy

def Bounds.widen {K : Type} [LinearOrder K] (box g : Bounds K) : Bounds K :=
  ⟨min box.minx g.minx, min box.miny g.miny, max box.maxx g.maxx, max box.maxy g.maxy⟩

/-- Shapely, NumPy and PostGIS as far as the erase process uses them. -/
structure Geo (G K : Type) [GeneralizedBooleanAlgebra G] [LinearOrder K] where
  /-- `wkb.loads`. -/
  loads : Text → G
  bounds : G → Bounds K
  isValid : G → Bool
  /-- `geom.buffer(0)`; `none` raises. -/
  bufferZero : G → Option G
  /-- The envelopes of two geometries meet. -/
  meets : G → G → Bool
  meets_of_inf_ne : ∀ a b, a ⊓ b ≠ ⊥ → meets b a = true
  /-- `STRtree(tree).query(a)`: the indices of the geometries whose envelopes meet that of `a`. -/
  query : List G → G → List Nat
  query_perm : ∀ tree a, (query tree a).Perm
    ((List.range tree.length).filter fun i => tree[i]?.any (meets · a))
  /-- `ST_Intersects(b, ST_MakeEnvelope(...))`. -/
  touches : G → Bounds K → Bool
  touches_of_inf_ne : ∀ a b box, a ⊓ b ≠ ⊥ → (bounds a).Within box → touches b box = true
  /-- Whether an empty array is false; it raises otherwise. -/
  emptyArrayIsFalse : Bool

variable {G K : Type} [GeneralizedBooleanAlgebra G] [DecidableEq G] [LinearOrder K] (geo : Geo G K)

/-- The non-empty features of a batch. -/
def listA (batch : List BatchRow) : List (Text × G × Props) :=
  batch.filterMap fun (fid, wkb, props) =>
    match wkb with
    | none => none
    | some w => if geo.loads w = ⊥ then none else some (fid, geo.loads w, props)

/-- The smallest bounds around the features; `a` is the first. -/
def batchBounds (a : G) (rest : List G) : Bounds K :=
  rest.foldl (fun box g => box.widen (geo.bounds g)) (geo.bounds a)

/-- The geometries of a collection. -/
def geometriesOf (rows : List Row) : List G := (rows.filterMap Row.geometry).map geo.loads

/-- The geometries of B that the statement returns, without the empty ones. -/
def listB (rows : List Row) (box : Bounds K) : List G :=
  ((geometriesOf geo rows).filter (geo.touches · box)).filter fun b => b ≠ ⊥

/-- `unary_union`. -/
def unaryUnion (gs : List G) : G := gs.foldr (· ⊔ ·) ⊥

inductive EraseError where
  | ambiguousTruthValue
deriving DecidableEq, Repr

/-- The truth value of an integer array. -/
def arrayTruth (indices : List Nat) : Except EraseError Bool :=
  match indices with
  | [] => if geo.emptyArrayIsFalse then .ok false else .error .ambiguousTruthValue
  | [i] => .ok (i != 0)
  | _ :: _ :: _ => .error .ambiguousTruthValue

/-- `{**props_a, "_id_a": fid_a}`. -/
def withIdA (props : Props) (fid : Text) : Props :=
  props.filter (·.1 != "_id_a".toList) ++ [("_id_a".toList, .str fid)]

/-- The difference of one feature; `none` skips it. -/
def eraseDiff (bs : List G) (a : G) : Except EraseError (Option G) :=
  if bs.isEmpty then .ok (some a)
  else
    match arrayTruth geo (geo.query bs a) with
    | .error e => .error e
    | .ok false => .ok (some a)
    | .ok true =>
      let diff := a \ unaryUnion ((geo.query bs a).filterMap fun i => bs[i]?)
      .ok (if diff = ⊥ then none else some diff)

/-- An invalid result is repaired; a repair that raises skips it. -/
def repaired (g : G) : Option G := if geo.isValid g then some g else geo.bufferZero g

/-- The row of each feature of the list, if it has one. -/
def eraseEach (bs : List G) : List (Text × G × Props) → Except EraseError (List (Option (G × Props)))
  | [] => .ok []
  | (fid, a, props) :: rest =>
    match eraseDiff geo bs a with
    | .error e => .error e
    | .ok diff =>
      match eraseEach bs rest with
      | .error e => .error e
      | .ok rows => .ok ((diff.bind (repaired geo)).map (·, withIdA props fid) :: rows)

/-- The geometries of B against which the batch is compared. -/
def candidates (rowsB : List Row) (batch : List BatchRow) : List G :=
  match listA geo batch with
  | [] => []
  | (_, a, _) :: rest => listB geo rowsB (batchBounds geo a (rest.map fun x => x.2.1))

/-- `_process_erase_batch`. -/
def processEraseBatch (batch : List BatchRow) (rowsB : List Row) :
    Except EraseError (List (G × Props)) :=
  (eraseEach geo (candidates geo rowsB batch) (listA geo batch)).map List.reduceOption

/-! ## What erase is for -/

/-- The feature minus the union of the geometries of B that intersect it. -/
def erased (rowsB : List Row) (a : G) : G :=
  a \ unaryUnion ((geometriesOf geo rowsB).filter fun b => a ⊓ b ≠ ⊥)

/-- A geometry, unless nothing of it is left. -/
def leftover (g : G) : Option G := if g = ⊥ then none else some g

/-- One row with the erased geometry, none when nothing is left. -/
def expectedRow (rowsB : List Row) (x : Text × G × Props) : Option (G × Props) :=
  (leftover (erased geo rowsB x.2.1)).map (·, withIdA x.2.2 x.1)

/-- The batch returns, for each non-empty feature in order, the row it should. -/
def EraseExact (batch : List BatchRow) (rowsB : List Row) : Prop :=
  eraseEach geo (candidates geo rowsB batch) (listA geo batch) =
      .ok ((listA geo batch).map (expectedRow geo rowsB)) ∧
    processEraseBatch geo batch rowsB = .ok ((listA geo batch).filterMap (expectedRow geo rowsB))

/-- The positions of the geometries whose envelopes meet that of `a`. -/
def neighbours (bs : List G) (a : G) : List Nat :=
  (List.range bs.length).filter fun i => bs[i]?.any (geo.meets · a)

/-- What a feature and its neighbours must look like. -/
def Handled (bs : List G) (a : G) : Prop :=
  match neighbours geo bs a with
  | [] => (bs = [] ∨ geo.emptyArrayIsFalse) ∧ repaired geo a = some a
  -- the only neighbour is the first of the list: the feature is kept whole
  | [0] => repaired geo a = leftover (a \ unaryUnion bs)
  | [_ + 1] => (leftover (a \ unaryUnion bs)).bind (repaired geo) = leftover (a \ unaryUnion bs)
  | _ :: _ :: _ => False

/-! ## Differences -/

section Algebra

omit [DecidableEq G]

theorem sdiff_unaryUnion_filter (a : G) (p : G → Bool) (gs : List G)
    (hp : ∀ b ∈ gs, a ⊓ b ≠ ⊥ → p b = true) :
    a \ unaryUnion (gs.filter p) = a \ unaryUnion gs := by
  induction gs with
  | nil => rfl
  | cons b gs ih =>
    have hcons : ∀ hs : List G, a \ unaryUnion (b :: hs) = a \ b ⊓ a \ unaryUnion hs :=
      fun hs => sdiff_sup
    have ih := ih fun c hc => hp c (List.mem_cons_of_mem _ hc)
    cases hb : p b with
    | true => rw [List.filter_cons_of_pos hb, hcons, hcons, ih]
    | false =>
      have hdisj : a ⊓ b = ⊥ := by
        by_contra h
        simp [hp b List.mem_cons_self h] at hb
      have hself : a \ b = a := (disjoint_iff.mpr hdisj).sdiff_eq_left
      rw [List.filter_cons_of_neg (by simp [hb]), ih, hcons, hself]
      exact (inf_eq_right.mpr sdiff_le).symm

theorem unaryUnion_perm {gs gs' : List G} (h : gs.Perm gs') : unaryUnion gs = unaryUnion gs' :=
  h.foldr_eq' (fun a _ b _ c => sup_left_comm b a c) ⊥

end Algebra

/-! ## The candidates -/

section Candidates

omit [DecidableEq G]

theorem within_widen {a box : Bounds K} (g : Bounds K) (h : a.Within box) :
    a.Within (box.widen g) := by
  obtain ⟨h1, h2, h3, h4⟩ := h
  exact ⟨(min_le_left _ _).trans h1, (min_le_left _ _).trans h2, h3.trans (le_max_left _ _),
    h4.trans (le_max_left _ _)⟩

theorem within_foldl (rest : List G) (box : Bounds K) :
    (∀ a : Bounds K, a.Within box →
      a.Within (rest.foldl (fun box g => box.widen (geo.bounds g)) box)) ∧
    ∀ g ∈ rest, (geo.bounds g).Within
      (rest.foldl (fun box g => box.widen (geo.bounds g)) box) := by
  induction rest generalizing box with
  | nil => simp
  | cons g rest ih =>
    rw [List.foldl_cons]
    obtain ⟨hkeep, hrest⟩ := ih (box.widen (geo.bounds g))
    constructor
    · intro a ha
      exact hkeep a (within_widen _ ha)
    · intro g' hg'
      rcases List.mem_cons.mp hg' with rfl | hg'
      · apply hkeep
        exact ⟨min_le_right _ _, min_le_right _ _, le_max_right _ _, le_max_right _ _⟩
      · exact hrest g' hg'

theorem within_batchBounds (a : G) (rest : List G) :
    ∀ g ∈ a :: rest, (geo.bounds g).Within (batchBounds geo a rest) := by
  intro g hg
  rcases List.mem_cons.mp hg with rfl | hg
  · apply (within_foldl geo rest _).1
    exact ⟨le_rfl, le_rfl, le_rfl, le_rfl⟩
  · exact (within_foldl geo rest _).2 g hg

end Candidates

/-- The bounds of the batch leave out no geometry that matters to one of its features. -/
theorem sdiff_candidates (batch : List BatchRow) (rowsB : List Row) {x : Text × G × Props}
    (hx : x ∈ listA geo batch) :
    x.2.1 \ unaryUnion (candidates geo rowsB batch) = erased geo rowsB x.2.1 := by
  unfold candidates erased
  rw [sdiff_unaryUnion_filter x.2.1 (fun b => x.2.1 ⊓ b ≠ ⊥) _ (by simp)]
  split
  next hnil => simp [hnil] at hx
  next fid a props rest hcons =>
    have hin : x.2.1 ∈ a :: rest.map fun y => y.2.1 := by
      rw [hcons] at hx
      rcases List.mem_cons.mp hx with rfl | hx
      · exact List.mem_cons_self
      · exact List.mem_cons_of_mem _ (List.mem_map_of_mem hx)
    unfold listB
    rw [sdiff_unaryUnion_filter, sdiff_unaryUnion_filter]
    · intro b _ hb
      exact geo.touches_of_inf_ne _ _ _ hb (within_batchBounds geo a _ _ hin)
    · intro b _ hb
      have hne : b ≠ ⊥ := by
        rintro rfl
        exact hb (inf_bot_eq _)
      simpa using hne

/-! ## The index -/

omit [DecidableEq G] in
theorem filterMap_neighbours (bs : List G) (a : G) :
    (neighbours geo bs a).filterMap (fun i => bs[i]?) = bs.filter (geo.meets · a) := by
  unfold neighbours
  induction bs using List.reverseRecOn with
  | nil => rfl
  | append_singleton bs b ih =>
    have hold : ∀ i ∈ List.range bs.length, (bs ++ [b])[i]? = bs[i]? := by
      intro i hi
      exact List.getElem?_append_left (List.mem_range.mp hi)
    rw [List.length_append, List.length_singleton, List.range_succ, List.filter_append,
      List.filterMap_append, List.filter_append]
    congr 1
    · rw [← ih, List.filter_congr fun i hi => by rw [hold i hi]]
      exact List.filterMap_congr fun i hi => hold i (List.mem_filter.mp hi).1
    · cases hb : geo.meets b a <;> simp [hb]

omit [DecidableEq G] in
/-- The geometries at the indices that the tree returns are enough. -/
theorem sdiff_query (bs : List G) (a : G) :
    a \ unaryUnion ((geo.query bs a).filterMap fun i => bs[i]?) = a \ unaryUnion bs := by
  have hperm := (geo.query_perm bs a).filterMap fun i => bs[i]?
  rw [unaryUnion_perm hperm]
  change a \ unaryUnion ((neighbours geo bs a).filterMap fun i => bs[i]?) = _
  rw [filterMap_neighbours]
  exact sdiff_unaryUnion_filter a _ bs fun b _ hb => geo.meets_of_inf_ne a b hb

/-! ## One feature -/

theorem eraseDiff_nil (a : G) : eraseDiff geo [] a = .ok (some a) := rfl

/-- What the code makes of one feature, by its neighbours. -/
theorem eraseDiff_cases (bs : List G) (a : G) (hbs : bs ≠ []) :
    eraseDiff geo bs a =
      match neighbours geo bs a with
      | [] => if geo.emptyArrayIsFalse then .ok (some a) else .error .ambiguousTruthValue
      | [0] => .ok (some a)
      | [_ + 1] => .ok (leftover (a \ unaryUnion bs))
      | _ :: _ :: _ => .error .ambiguousTruthValue := by
  have hperm : (geo.query bs a).Perm (neighbours geo bs a) := geo.query_perm bs a
  have hne : bs.isEmpty = false := by simpa using hbs
  have hdiff := sdiff_query geo bs a
  rcases hn : neighbours geo bs a with _ | ⟨i, _ | ⟨j, rest⟩⟩
  · rw [hn] at hperm
    cases he : geo.emptyArrayIsFalse <;> simp [eraseDiff, hne, hperm.eq_nil, arrayTruth, he]
  · rw [hn] at hperm
    rw [List.perm_singleton.mp hperm] at hdiff
    cases i with
    | zero => simp [eraseDiff, hne, List.perm_singleton.mp hperm, arrayTruth]
    | succ i =>
      simp only [eraseDiff, hne, List.perm_singleton.mp hperm, arrayTruth, hdiff]
      rfl
  · rw [hn] at hperm
    have hlen : (geo.query bs a).length = rest.length + 2 := hperm.length_eq
    rcases hq : geo.query bs a with _ | ⟨k, _ | ⟨l, more⟩⟩
    · simp [hq] at hlen
    · simp [hq] at hlen
    · simp [eraseDiff, hne, hq, arrayTruth]

/-- The row of a feature is the right one exactly when the feature is handled. -/
theorem row_iff_handled (bs : List G) {a : G} (ha : a ≠ ⊥) :
    (eraseDiff geo bs a).map (Option.bind · (repaired geo)) =
      .ok (leftover (a \ unaryUnion bs)) ↔ Handled geo bs a := by
  by_cases hbs : bs = []
  · subst hbs
    have hleft : leftover (a \ unaryUnion []) = some a := by simp [leftover, unaryUnion, ha]
    simp [eraseDiff_nil, hleft, Handled, neighbours, Except.map]
  rw [eraseDiff_cases geo bs a hbs]
  unfold Handled
  split
  next hn =>
    -- no envelope meets that of the feature, so it loses nothing
    have hleft : leftover (a \ unaryUnion bs) = some a := by
      rw [← sdiff_unaryUnion_filter a (geo.meets · a) bs fun b _ hb =>
        geo.meets_of_inf_ne a b hb, ← filterMap_neighbours, hn]
      simp [leftover, unaryUnion, ha]
    cases he : geo.emptyArrayIsFalse <;> simp [hleft, hbs, Except.map]
  next hn => simp [Except.map]
  next i hn => simp [Except.map]
  next hn => simp [Except.map]

/-! ## The batch -/

theorem listA_ne_bot (batch : List BatchRow) {x : Text × G × Props} (hx : x ∈ listA geo batch) :
    x.2.1 ≠ ⊥ := by
  obtain ⟨⟨fid, wkb, props⟩, -, hx⟩ := List.mem_filterMap.mp hx
  cases wkb with
  | none => simp at hx
  | some w =>
    by_cases hw : geo.loads w = ⊥
    · simp [hw] at hx
    · simp only [hw, if_false, Option.some.injEq] at hx
      rw [← hx]
      exact hw

theorem eraseEach_eq_ok (bs : List G) (f : Text × G × Props → Option G)
    (xs : List (Text × G × Props)) :
    eraseEach geo bs xs = .ok (xs.map fun x => (f x).map (·, withIdA x.2.2 x.1)) ↔
      ∀ x ∈ xs, (eraseDiff geo bs x.2.1).map (Option.bind · (repaired geo)) = .ok (f x) := by
  induction xs with
  | nil => simp [eraseEach]
  | cons x xs ih =>
    obtain ⟨fid, a, props⟩ := x
    have hinj : Function.Injective fun g : G => (g, withIdA props fid) := by
      intro g g' h
      exact congrArg Prod.fst h
    rw [List.forall_mem_cons, ← ih, List.map_cons, eraseEach]
    cases hdiff : eraseDiff geo bs a with
    | error e => simp [Except.map]
    | ok diff =>
      cases hrest : eraseEach geo bs xs with
      | error e => simp
      | ok rows =>
        simp only [Except.ok.injEq, List.cons.injEq, Except.map,
          (Option.map_injective hinj).eq_iff]

theorem eraseEach_iff_handled (batch : List BatchRow) (rowsB : List Row) :
    eraseEach geo (candidates geo rowsB batch) (listA geo batch) =
        .ok ((listA geo batch).map (expectedRow geo rowsB)) ↔
      ∀ x ∈ listA geo batch, Handled geo (candidates geo rowsB batch) x.2.1 := by
  unfold expectedRow
  rw [eraseEach_eq_ok geo _ fun x => leftover (erased geo rowsB x.2.1)]
  apply forall₂_congr
  intro x hx
  rw [← sdiff_candidates geo batch rowsB hx]
  exact row_iff_handled geo _ (listA_ne_bot geo batch hx)

theorem erase_exact_iff (batch : List BatchRow) (rowsB : List Row) :
    EraseExact geo batch rowsB ↔
      ∀ x ∈ listA geo batch, Handled geo (candidates geo rowsB batch) x.2.1 := by
  constructor
  · intro h
    exact (eraseEach_iff_handled geo batch rowsB).mp h.1
  · intro h
    have hrows := (eraseEach_iff_handled geo batch rowsB).mpr h
    constructor
    · exact hrows
    · rw [processEraseBatch, hrows]
      simp [Except.map, List.reduceOption, List.filterMap_map]

/-! ## Two small collections -/

/-- The cells of a line. -/
def lineBounds (g : Finset Nat) : Bounds Nat := ⟨g.min.untopD 0, 0, g.sup id, 0⟩

theorem mem_lineBounds {g : Finset Nat} {c : Nat} (hc : c ∈ g) :
    (lineBounds g).minx ≤ c ∧ c ≤ (lineBounds g).maxx := by
  constructor
  · have hle : g.min ≤ (c : WithTop Nat) := Finset.min_le hc
    exact WithTop.untopD_le hle
  · exact Finset.le_sup (f := id) hc

def lineMeets (b a : Finset Nat) : Bool :=
  decide (b ≠ ∅ ∧ a ≠ ∅ ∧ (lineBounds b).minx ≤ (lineBounds a).maxx ∧
    (lineBounds a).minx ≤ (lineBounds b).maxx)

def lineTouches (b : Finset Nat) (box : Bounds Nat) : Bool :=
  decide (∃ c ∈ b, box.minx ≤ c ∧ c ≤ box.maxx)

/-- Geometries that are sets of cells, each written as a character. -/
def line : Geo (Finset Nat) Nat where
  loads w := (w.map Char.toNat).toFinset
  bounds := lineBounds
  isValid _ := true
  bufferZero := some
  meets := lineMeets
  meets_of_inf_ne := by
    intro a b h
    obtain ⟨c, hc⟩ := Finset.nonempty_iff_ne_empty.mpr h
    obtain ⟨hca, hcb⟩ := Finset.mem_inter.mp hc
    have ha := mem_lineBounds hca
    have hb := mem_lineBounds hcb
    simp only [lineMeets, decide_eq_true_eq]
    exact ⟨Finset.ne_empty_of_mem hcb, Finset.ne_empty_of_mem hca, by omega, by omega⟩
  query tree a := (List.range tree.length).filter fun i => tree[i]?.any (lineMeets · a)
  query_perm _ _ := List.Perm.refl _
  touches := lineTouches
  touches_of_inf_ne := by
    intro a b box h hin
    obtain ⟨c, hc⟩ := Finset.nonempty_iff_ne_empty.mpr h
    obtain ⟨hca, hcb⟩ := Finset.mem_inter.mp hc
    have ha := mem_lineBounds hca
    obtain ⟨hminx, -, hmaxx, -⟩ := hin
    simp only [lineTouches, decide_eq_true_eq]
    exact ⟨c, hcb, by omega, by omega⟩
  emptyArrayIsFalse := true

def cells (id w : String) : Row :=
  ⟨id.toList, "B".toList, 0, some w.toList, [], none, 0, 0⟩

/-- The only feature of B covers half of the only feature of A, and A is kept whole. With two
features of B around it, the batch raises. -/
theorem erase_first_neighbour :
    ¬ EraseExact line [("a".toList, some "ab".toList, [])] [cells "b1" "b"] ∧
      processEraseBatch line [("a".toList, some "abc".toList, [])] [cells "b1" "b", cells "b2" "c"] =
        .error .ambiguousTruthValue := by
  constructor
  · intro h
    have hall := (eraseEach_iff_handled line _ _).mp h.1
    have hin : ("a".toList, line.loads "ab".toList, []) ∈
        listA line [("a".toList, some "ab".toList, [])] := List.mem_singleton.mpr rfl
    have hhandled := hall _ hin
    have hcand : candidates line [cells "b1" "b"] [("a".toList, some "ab".toList, [])] =
        [line.loads "b".toList] := by decide
    have hfirst : neighbours line [line.loads "b".toList] (line.loads "ab".toList) = [0] := by
      decide
    rw [hcand] at hhandled
    simp only [Handled, hfirst] at hhandled
    revert hhandled
    decide
  · rfl

end Process
end Geofastmap
