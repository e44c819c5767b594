import Mathlib.Data.List.Sort
import Geofastmap.Style.Normal

/-!
# Geofastmap.Style.Stored

Colours, classes, bands and asset as a normalised style has them, which are read back unchanged.

* `StoredStyle`   : colours and classes as `parse_classification_inputs` returns them.
* `parse_stored`  : they are what it makes of them again.
-/

namespace Geofastmap
namespace Style

open Db.Catalog (bind_eq_ok)

variable {py : Python}

/-! ## Colours of classes -/

/-- Classes whose values are in the colormap with the same colours. -/
structure NormalStyle (colormap : Colormap) (classes : List ClassEntry) : Prop where
  colors : NormalColormap colormap
  entries : ∀ entry ∈ classes, NormalEntry entry
  fit : ∀ entry ∈ classes, colormap.lookup entry.value = some entry.color

theorem styleErrors_merge (classes : List ClassEntry) (colormap : Colormap) :
    StyleErrors (mergeClasses classes colormap) := by
  induction classes generalizing colormap with
  | nil => exact styleErrors_ok _
  | cons entry classes ih =>
    unfold mergeClasses
    split
    · rw [(ih _).bind_iff]
      exact fun merged _ => styleErrors_ok _
    · split
      · exact styleErrors_style _
      · rw [(ih _).bind_iff]
        exact fun merged _ => styleErrors_ok _

theorem lookup_append_of_some {colormap more : Colormap} {key color : Text}
    (h : colormap.lookup key = some color) : (colormap ++ more).lookup key = some color := by
  rw [List.lookup_append, h]
  rfl

theorem lookup_append_new {colormap : Colormap} {key color : Text}
    (h : colormap.lookup key = none) : (colormap ++ [(key, color)]).lookup key = some color := by
  rw [List.lookup_append, h]
  simp

theorem lookup_of_mem {colormap : Colormap} (h : (colormap.map Prod.fst).Nodup)
    {c : Text × Text} (hc : c ∈ colormap) : colormap.lookup c.1 = some c.2 := by
  obtain ⟨before, after, rfl⟩ := List.append_of_mem hc
  refine List.lookup_eq_some_iff.mpr ⟨before, after, rfl, fun p hp => ?_⟩
  rw [List.map_append, List.map_cons] at h
  rw [bne_iff_ne]
  intro heq
  exact List.disjoint_of_nodup_append h (heq ▸ List.mem_map_of_mem hp) List.mem_cons_self

/-- The colormap only grows, and every class takes its colour from it. -/
theorem mergeClasses_normal {classes classes' : List ClassEntry} {colormap colormap' : Colormap}
    (h : mergeClasses classes colormap = .ok (colormap', classes'))
    (hcolormap : NormalColormap colormap) (hclasses : ∀ entry ∈ classes, NormalEntry entry) :
    NormalStyle colormap' classes' ∧
      ∀ key color, colormap.lookup key = some color → colormap'.lookup key = some color := by
  induction classes generalizing colormap colormap' classes' with
  | nil =>
    cases h
    exact ⟨⟨hcolormap, hclasses, fun entry hentry => absurd hentry List.not_mem_nil⟩,
      fun key color hlook => hlook⟩
  | cons entry classes ih =>
    have hentry := hclasses entry List.mem_cons_self
    have hrest := fun e he => hclasses e (List.mem_cons_of_mem _ he)
    have hcons : ∀ {colormap' classes'} {e : ClassEntry}, NormalStyle colormap' classes' →
        NormalEntry e → colormap'.lookup e.value = some e.color →
        NormalStyle colormap' (e :: classes') := fun hstyle he hfit =>
      ⟨hstyle.colors, List.forall_mem_cons.mpr ⟨he, hstyle.entries⟩,
        List.forall_mem_cons.mpr ⟨hfit, hstyle.fit⟩⟩
    unfold mergeClasses at h
    split at h
    · rename_i hnew
      obtain ⟨⟨colormap₁, classes₁⟩, hmerge, h⟩ := bind_eq_ok.mp h
      cases h
      obtain ⟨hstyle, hkeep⟩ :=
        ih hmerge (hcolormap.append hentry.value hentry.color hnew) hrest
      exact ⟨hcons hstyle hentry (hkeep _ _ (lookup_append_new hnew)),
        fun key color hlook => hkeep key color (lookup_append_of_some hlook)⟩
    · rename_i color hcolor
      split at h
      · cases h
      · obtain ⟨⟨colormap₁, classes₁⟩, hmerge, h⟩ := bind_eq_ok.mp h
        cases h
        obtain ⟨hstyle, hkeep⟩ := ih hmerge hcolormap hrest
        refine ⟨hcons hstyle ⟨hentry.value, hentry.name, ?_⟩ (hkeep _ _ hcolor), hkeep⟩
        exact (hcolormap.lookup hcolor).2

/-- Classes that have their colours from the colormap are left as they are. -/
theorem mergeClasses_eq {classes : List ClassEntry} {colormap : Colormap}
    (h : ∀ entry ∈ classes, colormap.lookup entry.value = some entry.color) :
    mergeClasses classes colormap = .ok (colormap, classes) := by
  induction classes with
  | nil => rfl
  | cons entry classes ih =>
    rw [mergeClasses, h entry List.mem_cons_self]
    dsimp only
    rw [if_neg (fun hne => hne rfl), ih fun e he => h e (List.mem_cons_of_mem _ he)]
    rfl

/-! ## The order of the classes -/

/-- No integer beyond the range of floats. -/
def Sortable (py : Python) (v : Text) : Prop :=
  '.' ∉ v → ∀ n, intOf v = some n → py.ofInt n ≠ none

/-- The key of a value that has one. -/
def keyOf (py : Python) (v : Text) : SortKey :=
  match sortKey py v with
  | .ok key => key
  | .error _ => textKey v

theorem styleErrors_sortKey {v : Text} : StyleErrors (sortKey py v) ↔ Sortable py v := by
  unfold sortKey
  split
  · rename_i hpoint
    refine iff_of_true ?_ fun hno => absurd hpoint hno
    split
    · exact styleErrors_ok _
    · exact styleErrors_ok _
  · rename_i hpoint
    split
    · rename_i n hn
      split
      · rename_i x hx
        refine iff_of_true (styleErrors_ok _) fun _ m hm => ?_
        rw [hn] at hm
        cases hm
        rw [hx]
        exact Option.some_ne_none x
      · rename_i hx
        exact iff_of_false (not_styleErrors _) fun hs => hs hpoint n hn hx
    · rename_i hn
      refine iff_of_true (styleErrors_ok _) fun _ m hm => ?_
      rw [hn] at hm
      cases hm

theorem sortKey_eq {v : Text} (h : Sortable py v) : sortKey py v = .ok (keyOf py v) := by
  have hraise := styleErrors_sortKey.mpr h
  unfold keyOf
  cases hkey : sortKey py v with
  | ok key => rfl
  | error e =>
    cases e with
    | other e => exact absurd hkey (hraise e)
    | style message =>
      unfold sortKey at hkey
      split at hkey
      · split at hkey <;> cases hkey
      · split at hkey
        · split at hkey <;> cases hkey
        · cases hkey

theorem keyOf_text (v : Text) : (ofLex (ofLex (keyOf py v)).2).2 = v := by
  unfold keyOf sortKey
  split
  · rename_i key hkey
    split at hkey
    · split at hkey <;> cases hkey <;> rfl
    · split at hkey
      · split at hkey <;> cases hkey
        rfl
      · cases hkey
        rfl
  · rfl

theorem keyOf_injective : Function.Injective (keyOf py) := by
  intro v w h
  rw [← @keyOf_text py v, h, keyOf_text]

/-- The classes in the order of their keys. -/
def inKeyOrder (py : Python) (classes : List ClassEntry) : List ClassEntry :=
  classes.insertionSort fun a b => keyOf py a.value ≤ keyOf py b.value

theorem mapM_sortKey {classes : List ClassEntry} (h : ∀ e ∈ classes, Sortable py e.value) :
    (classes.mapM fun entry => do
      let key ← sortKey py entry.value
      return (key, entry)) = .ok (classes.map fun e => (keyOf py e.value, e)) := by
  induction classes with
  | nil => rfl
  | cons entry classes ih =>
    rw [List.mapM_cons, sortKey_eq (h entry List.mem_cons_self),
      ih fun e he => h e (List.mem_cons_of_mem _ he)]
    rfl

theorem sortClasses_eq {classes : List ClassEntry} (h : ∀ e ∈ classes, Sortable py e.value) :
    sortClasses py classes = .ok (inKeyOrder py classes) := by
  rw [sortClasses, mapM_sortKey h]
  change Except.ok _ = Except.ok _
  refine congrArg Except.ok ?_
  rw [inKeyOrder, ← List.map_insertionSort
    (fun a b : ClassEntry => keyOf py a.value ≤ keyOf py b.value)
    (fun a b : SortKey × ClassEntry => a.1 ≤ b.1)
    (fun e => (keyOf py e.value, e)) classes fun a _ b _ => Iff.rfl, List.map_map]
  exact List.map_id _

theorem styleErrors_sort {classes : List ClassEntry} :
    StyleErrors (sortClasses py classes) ↔ ∀ e ∈ classes, Sortable py e.value := by
  constructor
  · intro h
    have hkeys := (styleErrors_bind.mp h).1
    clear h
    induction classes with
    | nil => exact fun e he => absurd he List.not_mem_nil
    | cons entry classes ih =>
      rw [List.mapM_cons, styleErrors_bind, styleErrors_bind] at hkeys
      obtain ⟨⟨hkey, -⟩, hrest⟩ := hkeys
      have hentry := styleErrors_sortKey.mp hkey
      refine List.forall_mem_cons.mpr ⟨hentry, ih ?_⟩
      exact (styleErrors_bind.mp (hrest _ (bind_eq_ok.mpr ⟨_, sortKey_eq hentry, rfl⟩))).1
  · intro h
    rw [sortClasses_eq h]
    exact styleErrors_ok _

theorem inKeyOrder_perm (classes : List ClassEntry) : (inKeyOrder py classes).Perm classes :=
  List.perm_insertionSort _ classes

theorem inKeyOrder_pairwise (classes : List ClassEntry) :
    (inKeyOrder py classes).Pairwise fun a b => keyOf py a.value ≤ keyOf py b.value := by
  have : Std.Total fun a b : ClassEntry => keyOf py a.value ≤ keyOf py b.value :=
    ⟨fun a b => le_total _ _⟩
  have : IsTrans ClassEntry fun a b => keyOf py a.value ≤ keyOf py b.value :=
    ⟨fun a b c => le_trans⟩
  exact List.pairwise_insertionSort _ classes

/-! ## Colours and classes together -/

/-- The texts of JSON are read or refused, and so are the values of the classes. -/
def InputsGood (colormapRaw classesRaw : Value py.Finite) : Prop :=
  LoadsGood colormapRaw ∧
    ∀ json colormap, parseJsonInput py colormapRaw "colormap" = .ok json →
      parseColormapDict py json = .ok colormap →
      LoadsGood classesRaw ∧
        ∀ json, parseJsonInput py classesRaw "classes" = .ok json → ClassesGood json

theorem styleErrors_collect {colormapRaw classesRaw : Value py.Finite} :
    StyleErrors (collectInputs py colormapRaw classesRaw) ↔ InputsGood colormapRaw classesRaw := by
  rw [collectInputs, styleErrors_bind, styleErrors_json, InputsGood]
  refine and_congr_right fun _ => ?_
  rw [forall_congr' fun json => imp_congr_right fun _ => (styleErrors_colormap json).bind_iff]
  constructor
  · intro h json colormap hjson hcolormap
    have hclasses := styleErrors_bind.mp (h json hjson colormap hcolormap)
    exact ⟨styleErrors_json.mp hclasses.1, fun json hjson =>
      styleErrors_classes.mp (styleErrors_bind.mp (hclasses.2 json hjson)).1⟩
  · intro h json hjson colormap hcolormap
    obtain ⟨hloads, hclasses⟩ := h json colormap hjson hcolormap
    rw [(styleErrors_json.mpr hloads).bind_iff]
    intro json hjson
    rw [(styleErrors_classes.mpr (hclasses json hjson)).bind_iff]
    intro classes _
    split
    · exact styleErrors_refuse _
    · rw [(styleErrors_merge _ _).bind_iff]
      intro merged _
      dsimp only
      split
      · exact styleErrors_refuse _
      · exact styleErrors_ok _

theorem collectInputs_normal {colormapRaw classesRaw : Value py.Finite} {colormap : Colormap}
    {classes : List ClassEntry}
    (h : collectInputs py colormapRaw classesRaw = .ok (colormap, classes)) :
    NormalStyle colormap classes ∧ colormap ≠ [] ∧
      colormap.length ≤ maxClassificationEntries := by
  obtain ⟨json, -, h⟩ := bind_eq_ok.mp h
  obtain ⟨colormap₀, hcolormap, h⟩ := bind_eq_ok.mp h
  obtain ⟨json', -, h⟩ := bind_eq_ok.mp h
  obtain ⟨classes₀, hclasses, h⟩ := bind_eq_ok.mp h
  split at h
  · cases h
  · rename_i hsome
    obtain ⟨⟨colormap₁, classes₁⟩, hmerge, h⟩ := bind_eq_ok.mp h
    dsimp only at h
    split at h
    · cases h
    · rename_i hfew
      cases h
      obtain ⟨hstyle, hkeep⟩ := mergeClasses_normal hmerge (parseColormapDict_normal hcolormap)
        (parseClassesList_normal hclasses)
      refine ⟨hstyle, ?_, Nat.le_of_not_lt hfew⟩
      rintro rfl
      -- without colours there was neither a colour nor a class
      refine hsome ?_
      have hcolors : colormap₀ = [] := by
        cases colormap₀ with
        | nil => rfl
        | cons c rest =>
          have hc := hkeep c.1 c.2 List.lookup_cons_self
          cases hc
      rw [hcolors] at hmerge ⊢
      cases classes₀ with
      | nil => rfl
      | cons entry rest =>
        rw [mergeClasses] at hmerge
        obtain ⟨⟨colormap₂, classes₂⟩, hrest, hmerge⟩ := bind_eq_ok.mp hmerge
        cases hmerge
        have hfit := hstyle.fit entry List.mem_cons_self
        cases hfit

/-- Colours and classes as `parse_classification_inputs` returns them. -/
structure StoredStyle (py : Python) (colormap : Colormap) (classes : List ClassEntry) : Prop
    extends NormalStyle colormap classes where
  colors_ne : colormap ≠ []
  few : colormap.length ≤ maxClassificationEntries
  classes_ne : classes ≠ []
  sortable : ∀ entry ∈ classes, Sortable py entry.value
  sorted : classes.Pairwise fun a b => keyOf py a.value ≤ keyOf py b.value

theorem normal_classesOr {colormap : Colormap} {classes : List ClassEntry}
    (h : NormalStyle colormap classes) : NormalStyle colormap (classesOr colormap classes) := by
  unfold classesOr
  split
  · refine ⟨h.colors, fun entry hentry => ?_, fun entry hentry => ?_⟩
    · obtain ⟨c, hc, rfl⟩ := List.mem_map.mp hentry
      obtain ⟨hkey, hcolor⟩ := h.colors.normal c hc
      exact ⟨hkey, hkey, hcolor⟩
    · obtain ⟨c, hc, rfl⟩ := List.mem_map.mp hentry
      exact lookup_of_mem h.colors.nodup hc
  · exact h

theorem classesOr_ne_nil {colormap : Colormap} {classes : List ClassEntry}
    (h : colormap ≠ []) : classesOr colormap classes ≠ [] := by
  unfold classesOr
  split
  · exact fun hmap => h (List.map_eq_nil_iff.mp hmap)
  · rename_i hclasses
    exact fun hnil => hclasses (List.isEmpty_iff.mpr hnil)

theorem stored_of_collect {colormapRaw classesRaw : Value py.Finite} {colormap : Colormap}
    {classes : List ClassEntry}
    (h : collectInputs py colormapRaw classesRaw = .ok (colormap, classes))
    (hsortable : ∀ entry ∈ classesOr colormap classes, Sortable py entry.value) :
    StoredStyle py colormap (inKeyOrder py (classesOr colormap classes)) := by
  obtain ⟨hstyle, hne, hfew⟩ := collectInputs_normal h
  have hnormal := normal_classesOr hstyle
  have hmem : ∀ {entry}, entry ∈ inKeyOrder py (classesOr colormap classes) →
      entry ∈ classesOr colormap classes := fun hentry => (inKeyOrder_perm _).mem_iff.mp hentry
  refine ⟨⟨hnormal.colors, fun e he => hnormal.entries e (hmem he),
    fun e he => hnormal.fit e (hmem he)⟩, hne, hfew, fun hnil => ?_,
    fun e he => hsortable e (hmem he), inKeyOrder_pairwise _⟩
  have hperm := @inKeyOrder_perm py (classesOr colormap classes)
  rw [hnil] at hperm
  exact classesOr_ne_nil hne (List.nil_perm.mp hperm)

theorem parse_stored {colormap : Colormap} {classes : List ClassEntry}
    (h : StoredStyle py colormap classes) :
    parseClassificationInputs py (colormapValue py colormap) (classesValue py classes) =
      .ok (colormap, classes) := by
  have hclasses : ¬ classes.isEmpty = true := fun he => h.classes_ne (List.isEmpty_iff.mp he)
  have hcollect : collectInputs py (colormapValue py colormap) (classesValue py classes) =
      .ok (colormap, classes) := by
    refine bind_eq_ok.mpr ⟨_, rfl, bind_eq_ok.mpr ⟨_, parseColormapDict_eq h.colors, ?_⟩⟩
    refine bind_eq_ok.mpr ⟨_, rfl, bind_eq_ok.mpr ⟨_, parseClassesList_eq h.entries, ?_⟩⟩
    rw [if_neg fun he => hclasses (Bool.and_eq_true_iff.mp he).2]
    refine bind_eq_ok.mpr ⟨_, mergeClasses_eq h.fit, ?_⟩
    dsimp only
    rw [if_neg (Nat.not_lt_of_le h.few)]
    rfl
  refine bind_eq_ok.mpr ⟨_, hcollect, ?_⟩
  have hor : classesOr colormap classes = classes := if_neg hclasses
  dsimp only
  rw [hor, sortClasses_eq h.sortable, inKeyOrder, h.sorted.insertionSort_eq]
  rfl

/-! ## Bands and asset -/

/-- A value of which `str` makes a text. -/
def TextGood : Value py.Finite → Prop
  | .int n => Printable n
  | .arr items => ∀ e, py.containerStr (.arr items) ≠ .error e
  | .obj members => ∀ e, py.containerStr (.obj members) ≠ .error e
  | _ => True

theorem styleErrors_mapError {x : Except Import.Raised Text} :
    StyleErrors (x.mapError .other) ↔ ∀ e, x ≠ .error e := by
  cases x with
  | ok s => exact iff_of_true (styleErrors_ok _) fun e he => by cases he
  | error e => exact iff_of_false (not_styleErrors e) fun h => h e rfl

theorem styleErrors_strOf {raw : Value py.Finite} :
    StyleErrors (strOf py raw) ↔ TextGood raw := by
  cases raw with
  | int n => exact styleErrors_printInt
  | arr items => exact styleErrors_mapError
  | obj members => exact styleErrors_mapError
  | float x => cases x <;> exact iff_of_true (styleErrors_ok _) trivial
  | null => exact iff_of_true (styleErrors_ok _) trivial
  | bool b => exact iff_of_true (styleErrors_ok _) trivial
  | str s => exact iff_of_true (styleErrors_ok _) trivial

/-- Bands of which `str` makes texts. -/
def BandsGood : Value py.Finite → Prop
  | .arr items => ∀ item ∈ items, TextGood item
  | raw => TextGood raw

theorem strOf_eq {raw : Value py.Finite} (h : TextGood raw) : ∃ s, strOf py raw = .ok s := by
  have hcontainer : ∀ {x : Except Import.Raised Text}, (∀ e, x ≠ .error e) →
      ∃ s, x.mapError Exn.other = .ok s := by
    intro x hx
    cases x with
    | ok s => exact ⟨s, rfl⟩
    | error e => exact absurd rfl (hx e)
  cases raw with
  | int n => exact ⟨_, printInt_eq_ok.mpr ⟨h, rfl⟩⟩
  | arr items => exact hcontainer h
  | obj members => exact hcontainer h
  | float x => cases x <;> exact ⟨_, rfl⟩
  | null => exact ⟨_, rfl⟩
  | bool b => exact ⟨_, rfl⟩
  | str s => exact ⟨_, rfl⟩

theorem bandTexts_cons {item : Value py.Finite} (h : item ≠ .null)
    (items : List (Value py.Finite)) :
    bandTexts py (item :: items) = do
      let s ← strOf py item
      let rest ← bandTexts py items
      return if (strip s).isEmpty then rest else s :: rest := by
  cases item with
  | null => exact absurd rfl h
  | _ => rfl

theorem styleErrors_bandTexts {items : List (Value py.Finite)} :
    StyleErrors (bandTexts py items) ↔ ∀ item ∈ items, TextGood item := by
  induction items with
  | nil => exact iff_of_true (styleErrors_ok _) fun item hitem => absurd hitem List.not_mem_nil
  | cons item items ih =>
    rw [List.forall_mem_cons, ← ih]
    by_cases hnull : item = .null
    · rw [hnull]
      exact (and_iff_right trivial).symm
    · rw [bandTexts_cons hnull, styleErrors_bind, styleErrors_strOf]
      refine and_congr_right fun hgood => ?_
      obtain ⟨s, hs⟩ := strOf_eq hgood
      constructor
      · intro h
        exact (styleErrors_bind.mp (h s hs)).1
      · intro h t _
        rw [h.bind_iff]
        exact fun rest _ => styleErrors_ok _

theorem bandTexts_ok {items : List (Value py.Finite)} (h : ∀ item ∈ items, TextGood item) :
    ∃ bands, bandTexts py items = .ok bands := by
  induction items with
  | nil => exact ⟨[], rfl⟩
  | cons item items ih =>
    obtain ⟨hitem, hitems⟩ := List.forall_mem_cons.mp h
    obtain ⟨rest, hrest⟩ := ih hitems
    by_cases hnull : item = .null
    · rw [hnull]
      exact ⟨rest, hrest⟩
    · obtain ⟨s, hs⟩ := strOf_eq hitem
      rw [bandTexts_cons hnull]
      exact ⟨_, bind_eq_ok.mpr ⟨s, hs, bind_eq_ok.mpr ⟨rest, hrest, rfl⟩⟩⟩

/-- Bands are missing, a list or one text. -/
theorem bidxList_cases (raw : Value py.Finite) :
    raw = .null ∨ (∃ items, raw = .arr items) ∨
      ((BandsGood raw ↔ TextGood raw) ∧ bidxList py raw = do
        let s ← strOf py raw
        return orFirstBand (if (strip s).isEmpty then [] else [strip s])) := by
  cases raw with
  | null => exact .inl rfl
  | arr items => exact .inr (.inl ⟨items, rfl⟩)
  | _ => exact .inr (.inr ⟨Iff.rfl, rfl⟩)

/-- An asset is missing or a text. -/
theorem assetText_cases (raw : Value py.Finite) :
    raw = .null ∨ assetText py raw = do
      let s ← strOf py raw
      return if (strip s).isEmpty then none else some (strip s) := by
  cases raw with
  | null => exact .inl rfl
  | _ => exact .inr rfl

theorem styleErrors_bindText {α : Type} {raw : Value py.Finite} {f : Text → α} :
    StyleErrors (strOf py raw >>= fun s => pure (f s)) ↔ TextGood raw := by
  rw [styleErrors_bind, styleErrors_strOf]
  exact and_iff_left fun s _ => styleErrors_ok _

theorem styleErrors_bidx {raw : Value py.Finite} :
    StyleErrors (bidxList py raw) ↔ BandsGood raw := by
  obtain rfl | ⟨items, rfl⟩ | ⟨hgood, hraw⟩ := bidxList_cases raw
  · exact iff_of_true (styleErrors_ok _) trivial
  · change StyleErrors (bandTexts py items >>= _) ↔ _
    rw [styleErrors_bind, styleErrors_bandTexts]
    exact and_iff_left fun bands _ => styleErrors_ok _
  · rw [hgood, hraw, styleErrors_bindText]

theorem styleErrors_asset {raw : Value py.Finite} :
    StyleErrors (assetText py raw) ↔ TextGood raw := by
  obtain rfl | hraw := assetText_cases raw
  · exact iff_of_true (styleErrors_ok _) trivial
  · rw [hraw, styleErrors_bindText]

theorem bidxList_ok {raw : Value py.Finite} (h : BandsGood raw) :
    ∃ bands, bidxList py raw = .ok bands := by
  obtain rfl | ⟨items, rfl⟩ | ⟨hgood, hraw⟩ := bidxList_cases raw
  · exact ⟨_, rfl⟩
  · obtain ⟨bands, hbands⟩ := bandTexts_ok h
    exact ⟨_, bind_eq_ok.mpr ⟨bands, hbands, rfl⟩⟩
  · obtain ⟨s, hs⟩ := strOf_eq (hgood.mp h)
    exact ⟨_, hraw.trans (bind_eq_ok.mpr ⟨s, hs, rfl⟩)⟩

theorem assetText_ok {raw : Value py.Finite} (h : TextGood raw) :
    ∃ asset, assetText py raw = .ok asset := by
  obtain rfl | hraw := assetText_cases raw
  · exact ⟨_, rfl⟩
  · obtain ⟨s, hs⟩ := strOf_eq h
    exact ⟨_, hraw.trans (bind_eq_ok.mpr ⟨s, hs, rfl⟩)⟩

/-- Bands that are not blank, at least one. -/
structure StoredBands (bands : List Text) : Prop where
  not_blank : ∀ s ∈ bands, ¬ (strip s).isEmpty = true
  ne_nil : bands ≠ []

theorem stored_orFirstBand {bands : List Text}
    (h : ∀ s ∈ bands, ¬ (strip s).isEmpty = true) : StoredBands (orFirstBand bands) := by
  unfold orFirstBand
  split
  · exact ⟨by decide, List.cons_ne_nil _ _⟩
  · rename_i hne
    exact ⟨h, fun hnil => hne (List.isEmpty_iff.mpr hnil)⟩

theorem bandTexts_not_blank {items : List (Value py.Finite)} {bands : List Text}
    (h : bandTexts py items = .ok bands) : ∀ s ∈ bands, ¬ (strip s).isEmpty = true := by
  induction items generalizing bands with
  | nil =>
    cases h
    exact fun s hs => absurd hs List.not_mem_nil
  | cons item items ih =>
    by_cases hnull : item = .null
    · rw [hnull] at h
      exact ih h
    · rw [bandTexts_cons hnull] at h
      obtain ⟨s, -, h⟩ := bind_eq_ok.mp h
      obtain ⟨rest, hrest, h⟩ := bind_eq_ok.mp h
      cases h
      split
      · exact ih hrest
      · rename_i hs
        exact List.forall_mem_cons.mpr ⟨hs, ih hrest⟩

theorem bidxList_stored {raw : Value py.Finite} {bands : List Text}
    (h : bidxList py raw = .ok bands) : StoredBands bands := by
  obtain rfl | ⟨items, rfl⟩ | ⟨-, hraw⟩ := bidxList_cases raw
  · cases h
    exact ⟨by decide, List.cons_ne_nil _ _⟩
  · obtain ⟨texts, htexts, h⟩ := bind_eq_ok.mp h
    cases h
    exact stored_orFirstBand (bandTexts_not_blank htexts)
  · rw [hraw] at h
    obtain ⟨s, -, h⟩ := bind_eq_ok.mp h
    cases h
    refine stored_orFirstBand fun t ht => ?_
    split at ht
    · exact absurd ht List.not_mem_nil
    · rename_i hs
      rw [List.mem_singleton.mp ht]
      exact (trimmed_strip hs).not_isEmpty

theorem bandTexts_eq {bands : List Text}
    (h : ∀ s ∈ bands, ¬ (strip s).isEmpty = true) :
    bandTexts py (bands.map .str) = .ok bands := by
  induction bands with
  | nil => rfl
  | cons s bands ih =>
    obtain ⟨hs, hrest⟩ := List.forall_mem_cons.mp h
    refine bind_eq_ok.mpr ⟨s, rfl, bind_eq_ok.mpr ⟨bands, ih hrest, ?_⟩⟩
    rw [if_neg hs]
    rfl

theorem bidxList_eq {bands : List Text} (h : StoredBands bands) :
    bidxList py (.arr (bands.map .str)) = .ok bands := by
  refine bind_eq_ok.mpr ⟨bands, bandTexts_eq h.not_blank, ?_⟩
  rw [orFirstBand, if_neg fun he => h.ne_nil (List.isEmpty_iff.mp he)]
  rfl

theorem assetText_again {raw : Value py.Finite} {asset : Option Text}
    (h : assetText py raw = .ok asset) :
    assetText py (asset.elim .null .str) = .ok asset := by
  obtain rfl | hraw := assetText_cases raw
  · cases h
    rfl
  · rw [hraw] at h
    obtain ⟨s, -, h⟩ := bind_eq_ok.mp h
    cases h
    split
    · rfl
    · rename_i hs
      refine bind_eq_ok.mpr ⟨strip s, rfl, ?_⟩
      rw [strip_strip, if_neg hs]
      rfl

end Style
end Geofastmap
