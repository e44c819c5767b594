import Geofastmap.Style.Stored

/-!
# Geofastmap.Style.Projection

A style that was normalised is left as it is by another normalisation, and when that holds.

* `StyleGood`     : what the specification must be for it.
* `projects_iff`  : the specifications that are refused with a `RasterStyleSpecError`, or brought
  into a form that is kept and in which the classes stand in the order of their numbers.
-/

namespace Geofastmap
namespace Style

open Db.Catalog (bind_eq_ok)

variable {py : Python}

/-! ## What is asked of a style -/

/-- Two values that are numbers, the smaller one first. -/
def InOrder (py : Python) (a b : ClassEntry) : Prop :=
  ∀ x ∈ numberOf py.toFloats a.value, ∀ y ∈ numberOf py.toFloats b.value, x ≤ y

/-- The values of the classes are keys of the colormap with the colours of the classes, and the
classes are sorted by number. -/
def ClassesFit (py : Python) (spec : Members py.Finite) : Prop :=
  styleType py spec = .ok "classification".toList →
    ∃ colormap classes, get spec "colormap" = colormapValue py colormap ∧
      get spec "classes" = classesValue py classes ∧
      (∀ entry ∈ classes, colormap.lookup entry.value = some entry.color) ∧
      classes.Pairwise (InOrder py)

/-- A specification is refused with a `RasterStyleSpecError`, or its normal form is kept. -/
structure Projects (py : Python) (spec : Members py.Finite) : Prop where
  raises : StyleErrors (normalizeRasterStyleSpec py spec)
  again : ∀ spec', normalizeRasterStyleSpec py spec = .ok spec' →
    normalizeRasterStyleSpec py spec' = .ok spec'
  fit : ∀ spec', normalizeRasterStyleSpec py spec = .ok spec' → ClassesFit py spec'

/-- The type of a style is a text, or missing. -/
def TypeGood (spec : Members py.Finite) : Prop :=
  truthy py (get spec "style_type") = true → ∃ s, get spec "style_type" = .str s

/-- Where the keys order two classes, the numbers do not order them the other way round. -/
def KeysAgree (py : Python) (classes : List ClassEntry) : Prop :=
  ∀ a ∈ classes, ∀ b ∈ classes, keyOf py a.value ≤ keyOf py b.value → InOrder py a b

/-- The inputs are read, the values are sorted and the other members become texts. -/
def ClassificationGood (spec : Members py.Finite) : Prop :=
  InputsGood (get spec "colormap") (get spec "classes") ∧
    ∀ colormap classes,
      collectInputs py (get spec "colormap") (get spec "classes") = .ok (colormap, classes) →
      (∀ entry ∈ classesOr colormap classes, Sortable py entry.value) ∧
      BandsGood (get spec "bidx") ∧ TextGood (get spec "asset") ∧
      ((∃ nodata, parseNodataValue py (get spec "nodata") = .ok nodata) →
        NodataGood (get spec "nodata") ∧ KeysAgree py (classesOr colormap classes))

/-- When the normalisation of a specification is a projection. -/
def StyleGood (spec : Members py.Finite) : Prop :=
  spec ≠ [] → TypeGood spec ∧
    (styleType py spec = .ok "continuous".toList → NodataGood (get spec "nodata")) ∧
    (styleType py spec = .ok "classification".toList →
      (!isNull py (get spec "colormap") || !isNull py (get spec "classes")) = true →
      ClassificationGood spec)

theorem projects_of_refused {spec : Members py.Finite} {message : Text}
    (h : normalizeRasterStyleSpec py spec = .error (.style message)) : Projects py spec := by
  have hok : ∀ spec', normalizeRasterStyleSpec py spec ≠ .ok spec' := by
    intro spec' hspec
    rw [h] at hspec
    cases hspec
  refine ⟨?_, fun spec' hspec => absurd hspec (hok spec'),
    fun spec' hspec => absurd hspec (hok spec')⟩
  rw [h]
  exact styleErrors_style _

theorem styleErrors_styleType {spec : Members py.Finite} :
    StyleErrors (styleType py spec) ↔ TypeGood spec := by
  unfold TypeGood styleType
  dsimp only
  cases htruthy : truthy py (get spec "style_type") with
  | false =>
    rw [if_neg (by decide)]
    exact iff_of_true (styleErrors_ok _) fun h => absurd h (by decide)
  | true =>
    rw [if_pos rfl]
    split
    · rename_i s hs
      exact iff_of_true (styleErrors_ok _) fun _ => ⟨s, hs⟩
    · rename_i hno
      refine iff_of_false (not_styleErrors _) fun h => ?_
      obtain ⟨s, hs⟩ := h rfl
      exact hno s hs

/-- The no data of a style is read last; when it is accepted, the style is read back as far as its
no data is. -/
theorem projects_of_nodata {spec : Members py.Finite} {fits : Prop}
    {out : Option (Value py.Finite) → Members py.Finite}
    (hnormal : normalizeRasterStyleSpec py spec =
      parseNodataValue py (get spec "nodata") >>= fun nodata => pure (out nodata))
    (hread : ∀ nodata, parseNodataValue py (get spec "nodata") = .ok nodata →
      ∃ out' : Option (Value py.Finite) → Members py.Finite, out' nodata = out nodata ∧
        normalizeRasterStyleSpec py (out nodata) =
          parseNodataValue py (nodata.getD .null) >>= fun nodata' => pure (out' nodata'))
    (hfit : ∀ nodata, ClassesFit py (out nodata) ↔ fits) :
    Projects py spec ↔ ((∃ nodata, parseNodataValue py (get spec "nodata") = .ok nodata) →
      NodataGood (get spec "nodata") ∧ fits) := by
  have hraises : StyleErrors (normalizeRasterStyleSpec py spec) := by
    rw [hnormal, (styleErrors_nodata _).bind_iff]
    exact fun nodata _ => styleErrors_ok _
  cases hnodata : parseNodataValue py (get spec "nodata") with
  | error e =>
    have hrefused : normalizeRasterStyleSpec py spec = .error e := by
      rw [hnormal, hnodata]
      rfl
    cases e with
    | style message =>
      refine iff_of_true (projects_of_refused hrefused) ?_
      rintro ⟨nodata, h⟩
      cases h
    | other e => exact absurd hrefused (hraises e)
  | ok nodata =>
    have hok : normalizeRasterStyleSpec py spec = .ok (out nodata) := by
      rw [hnormal, hnodata]
      rfl
    obtain ⟨out', hout, hread⟩ := hread nodata hnodata
    rw [imp_iff_right ⟨nodata, rfl⟩]
    obtain ⟨hgood, hagain⟩ | ⟨hbad, e, hagain⟩ := nodata_again hnodata
    · rw [and_iff_right hgood, ← hfit nodata]
      constructor
      · intro h
        exact h.fit _ hok
      · intro h
        refine ⟨hraises, fun spec' hspec => ?_, fun spec' hspec => ?_⟩
        · rw [hok] at hspec
          cases hspec
          rw [hread, hagain, ← hout]
          rfl
        · rw [hok] at hspec
          cases hspec
          exact h
    · refine iff_of_false (fun h => ?_) fun h => hbad h.1
      have hkeep := h.again _ hok
      rw [hread, hagain] at hkeep
      cases hkeep

/-! ## Continuous styles -/

theorem setNodata_some (v : Value py.Finite) (spec : Members py.Finite) :
    setNodata py (some v) spec =
      spec.map fun p => if p.1 = "nodata".toList then (p.1, v) else p := rfl

theorem setNodata_none (spec : Members py.Finite) :
    setNodata py none spec = spec.filter (·.1 != "nodata".toList) := rfl

theorem get_cons {F : Type} (p : Text × Value F) (spec : Members F) (key : String) :
    get (p :: spec) key = if p.1 = key.toList then p.2 else get spec key := by
  unfold get
  by_cases hp : p.1 = key.toList
  · rw [if_pos hp, ← hp, List.lookup_cons_self]
    rfl
  · rw [if_neg hp, List.lookup_cons, beq_eq_false_iff_ne.mpr (Ne.symm hp)]

theorem get_setNodata_of_ne {nodata : Option (Value py.Finite)} {spec : Members py.Finite}
    {key : String} (h : key.toList ≠ "nodata".toList) :
    get (setNodata py nodata spec) key = get spec key := by
  cases nodata with
  | none =>
    rw [setNodata_none]
    induction spec with
    | nil => rfl
    | cons p spec ih =>
      by_cases hp : p.1 = "nodata".toList
      · rw [List.filter_cons_of_neg (by simpa using hp), ih, get_cons,
          if_neg fun hkey => h (hkey.symm.trans hp)]
      · rw [List.filter_cons_of_pos (by simpa using hp), get_cons, get_cons, ih]
  | some v =>
    rw [setNodata_some]
    induction spec with
    | nil => rfl
    | cons p spec ih =>
      rw [List.map_cons, get_cons, get_cons, ih]
      by_cases hp : p.1 = "nodata".toList
      · have hkey : p.1 ≠ key.toList := fun hkey => h (hkey.symm.trans hp)
        rw [if_pos hp, if_neg hkey, if_neg hkey]
      · rw [if_neg hp]

theorem get_setNodata {nodata : Option (Value py.Finite)} {spec : Members py.Finite}
    (h : nodata ≠ none → get spec "nodata" ≠ .null) :
    get (setNodata py nodata spec) "nodata" = nodata.getD .null := by
  cases nodata with
  | none =>
    rw [setNodata_none]
    clear h
    induction spec with
    | nil => rfl
    | cons p spec ih =>
      by_cases hp : p.1 = "nodata".toList
      · rw [List.filter_cons_of_neg (by simpa using hp), ih]
      · rw [List.filter_cons_of_pos (by simpa using hp), get_cons, if_neg hp, ih]
  | some v =>
    rw [setNodata_some]
    have hsome := h (Option.some_ne_none v)
    clear h
    induction spec with
    | nil => exact absurd rfl hsome
    | cons p spec ih =>
      rw [get_cons] at hsome
      rw [List.map_cons]
      by_cases hp : p.1 = "nodata".toList
      · rw [if_pos hp, get_cons, if_pos hp]
        rfl
      · rw [if_neg hp] at hsome
        rw [if_neg hp, get_cons, if_neg hp]
        exact ih hsome

theorem setNodata_setNodata (nodata : Option (Value py.Finite)) (spec : Members py.Finite) :
    setNodata py nodata (setNodata py nodata spec) = setNodata py nodata spec := by
  cases nodata with
  | none =>
    rw [setNodata_none, setNodata_none, List.filter_filter]
    exact List.filter_congr fun p _ => Bool.and_self _
  | some v =>
    rw [setNodata_some, setNodata_some, List.map_map]
    refine List.map_congr_left fun p _ => ?_
    by_cases hp : p.1 = "nodata".toList
    · simp only [Function.comp_apply, if_pos hp]
    · simp only [Function.comp_apply, if_neg hp]

theorem styleType_setNodata (nodata : Option (Value py.Finite)) (spec : Members py.Finite) :
    styleType py (setNodata py nodata spec) = styleType py spec := by
  unfold styleType
  rw [get_setNodata_of_ne (by decide)]

theorem normalize_continuous {spec : Members py.Finite} (hne : spec ≠ [])
    (htype : styleType py spec = .ok "continuous".toList) :
    normalizeRasterStyleSpec py spec = do
      let nodata ← parseNodataValue py (get spec "nodata")
      return setNodata py nodata spec := by
  rw [normalizeRasterStyleSpec, if_neg fun h => hne (List.isEmpty_iff.mp h), htype]
  rfl

theorem projects_continuous {spec : Members py.Finite} (hne : spec ≠ [])
    (htype : styleType py spec = .ok "continuous".toList) :
    Projects py spec ↔ NodataGood (get spec "nodata") := by
  have hfit : ∀ nodata, ClassesFit py (setNodata py nodata spec) := by
    intro nodata hclass
    rw [styleType_setNodata, htype] at hclass
    exact absurd (Except.ok.inj hclass) (by decide)
  rw [projects_of_nodata (normalize_continuous hne htype) (fun nodata hnodata => ?_)
    fun nodata => iff_true_intro (hfit nodata), and_true]
  · constructor
    · intro h
      cases hnodata : parseNodataValue py (get spec "nodata") with
      | error e => exact nodataGood_of_error hnodata
      | ok nodata => exact h ⟨nodata, hnodata⟩
    · exact fun h _ => h
  · have hget : get (setNodata py nodata spec) "nodata" = nodata.getD .null := by
      refine get_setNodata fun hsome hnull => hsome ?_
      rw [hnull] at hnodata
      exact (Except.ok.inj hnodata).symm
    refine ⟨fun nodata' => setNodata py nodata' (setNodata py nodata spec),
      setNodata_setNodata _ _, ?_⟩
    by_cases hempty : setNodata py nodata spec = []
    · have hnone : nodata = none := by
        cases nodata with
        | none => rfl
        | some v => exact absurd (List.map_eq_nil_iff.mp hempty) hne
      rw [hempty, hnone]
      rfl
    · have htype' : styleType py (setNodata py nodata spec) = .ok "continuous".toList := by
        rw [styleType_setNodata, htype]
      rw [normalize_continuous hempty htype', hget]

/-! ## Classification styles -/

theorem build_stored {base : Members py.Finite} {colormap : Colormap} {classes : List ClassEntry}
    (h : StoredStyle py colormap classes) :
    buildClassificationStyleSpec py base (colormapValue py colormap) (classesValue py classes) = do
      let bidx ← bidxList py (get base "bidx")
      let asset ← assetText py (get base "asset")
      let nodata ← parseNodataValue py (get base "nodata")
      return styleMembers py colormap classes bidx asset nodata := by
  rw [buildClassificationStyleSpec, parse_stored h]
  rfl

theorem normalize_classification {spec : Members py.Finite} {colormap : Colormap}
    {classes : List ClassEntry} (hne : spec ≠ [])
    (htype : styleType py spec = .ok "classification".toList)
    (hinputs : (!isNull py (get spec "colormap") || !isNull py (get spec "classes")) = true)
    (hparse : parseClassificationInputs py (get spec "colormap") (get spec "classes") =
      .ok (colormap, classes)) (hstored : StoredStyle py colormap classes) :
    normalizeRasterStyleSpec py spec = do
      let bidx ← bidxList py (get spec "bidx")
      let asset ← assetText py (get spec "asset")
      let nodata ← parseNodataValue py (get spec "nodata")
      return styleMembers py colormap classes bidx asset nodata := by
  rw [normalizeRasterStyleSpec, if_neg fun h => hne (List.isEmpty_iff.mp h), htype]
  dsimp only [bind, Except.bind]
  rw [if_neg (by decide), if_neg (by decide), if_pos hinputs, hparse]
  exact build_stored hstored

theorem get_nodata (colormap : Colormap) (classes : List ClassEntry) (bidx : List Text)
    (asset : Option Text) (nodata : Option (Value py.Finite)) :
    get (styleMembers py colormap classes bidx asset nodata) "nodata" = nodata.getD .null := by
  cases asset <;> cases nodata <;> rfl

theorem get_asset (colormap : Colormap) (classes : List ClassEntry) (bidx : List Text)
    (asset : Option Text) (nodata : Option (Value py.Finite)) :
    get (styleMembers py colormap classes bidx asset nodata) "asset" = asset.elim .null .str := by
  cases asset <;> cases nodata <;> rfl

/-- A stored style is read back as far as its no data is. -/
theorem normalize_styleMembers {colormap : Colormap} {classes : List ClassEntry} {bidx : List Text}
    {asset : Option Text} {nodata : Option (Value py.Finite)}
    (hstored : StoredStyle py colormap classes) (hbidx : StoredBands bidx)
    (hasset : assetText py (asset.elim .null .str) = .ok asset) :
    normalizeRasterStyleSpec py (styleMembers py colormap classes bidx asset nodata) = do
      let nodata' ← parseNodataValue py (nodata.getD .null)
      return styleMembers py colormap classes bidx asset nodata' := by
  have hnormal : normalizeRasterStyleSpec py
      (styleMembers py colormap classes bidx asset nodata) = _ :=
    normalize_classification (List.cons_ne_nil _ _) rfl rfl (parse_stored hstored) hstored
  rw [hnormal, get_nodata, get_asset, hasset]
  change (bidxList py (.arr (bidx.map .str)) >>= _) = _
  rw [bidxList_eq hbidx]
  rfl

theorem inOrder_of_value_eq {a b : ClassEntry} (h : a.value = b.value) : InOrder py a b := by
  intro x hx y hy
  rw [← h, Option.mem_def.mp hx] at hy
  exact le_of_eq (Option.some.inj hy)

/-- The sorted classes are in the order of their numbers if the keys agree with it. -/
theorem pairwise_inOrder {classes : List ClassEntry} :
    (inKeyOrder py classes).Pairwise (InOrder py) ↔ KeysAgree py classes := by
  have hmem : ∀ {e}, e ∈ inKeyOrder py classes ↔ e ∈ classes := (inKeyOrder_perm classes).mem_iff
  constructor
  · intro h a ha b hb hkey
    obtain ⟨i, hi, rfl⟩ := List.getElem_of_mem (hmem.mpr ha)
    obtain ⟨j, hj, rfl⟩ := List.getElem_of_mem (hmem.mpr hb)
    rcases lt_trichotomy i j with hij | rfl | hji
    · exact List.pairwise_iff_getElem.mp h i j hi hj hij
    · exact inOrder_of_value_eq rfl
    · -- keys that are equal are of one value
      have hback := List.pairwise_iff_getElem.mp (inKeyOrder_pairwise classes) j i hj hi hji
      exact inOrder_of_value_eq (keyOf_injective (le_antisymm hkey hback))
  · intro h
    refine (inKeyOrder_pairwise classes).imp_of_mem fun ha hb hkey => ?_
    exact h _ (hmem.mp ha) _ (hmem.mp hb) hkey

theorem classesValue_injective : Function.Injective (classesValue py) := by
  intro classes classes' h
  have hentry : Function.Injective (classValue py) := by
    rintro ⟨v, n, c⟩ ⟨v', n', c'⟩ heq
    simp only [classValue, Value.obj.injEq, List.cons.injEq, Prod.mk.injEq, Value.str.injEq,
      true_and, and_true] at heq
    obtain ⟨rfl, rfl, rfl⟩ := heq
    rfl
  exact List.map_injective_iff.mpr hentry (Value.arr.inj h)

theorem classesFit_styleMembers {colormap : Colormap} {classes : List ClassEntry}
    {bidx : List Text} {asset : Option Text} {nodata : Option (Value py.Finite)}
    (h : ∀ entry ∈ classes, colormap.lookup entry.value = some entry.color) :
    ClassesFit py (styleMembers py colormap classes bidx asset nodata) ↔
      classes.Pairwise (InOrder py) := by
  constructor
  · intro hfit
    obtain ⟨colormap', classes', -, hclasses, -, hsorted⟩ := hfit rfl
    rw [classesValue_injective hclasses]
    exact hsorted
  · intro hsorted _
    exact ⟨colormap, classes, rfl, rfl, h, hsorted⟩

theorem normalize_collect {spec : Members py.Finite} (hne : spec ≠ [])
    (htype : styleType py spec = .ok "classification".toList)
    (hinputs : (!isNull py (get spec "colormap") || !isNull py (get spec "classes")) = true) :
    normalizeRasterStyleSpec py spec =
      parseClassificationInputs py (get spec "colormap") (get spec "classes") >>= fun parsed =>
        buildClassificationStyleSpec py
          [("asset".toList, get spec "asset"), ("bidx".toList, get spec "bidx"),
            ("nodata".toList, get spec "nodata")]
          (colormapValue py parsed.1) (classesValue py parsed.2) := by
  rw [normalizeRasterStyleSpec, if_neg fun h => hne (List.isEmpty_iff.mp h), htype]
  dsimp only [bind, Except.bind]
  rw [if_neg (by decide), if_neg (by decide), if_pos hinputs]

/-- A classification style that is accepted becomes one that is stored. -/
theorem accepted_classification {spec spec' : Members py.Finite}
    (h : normalizeRasterStyleSpec py spec = .ok spec')
    (htype : styleType py spec = .ok "classification".toList) :
    ∃ colormap classes bidx asset nodata, StoredStyle py colormap classes ∧
      spec' = styleMembers py colormap classes bidx asset nodata := by
  have hne : spec ≠ [] := by
    rintro rfl
    exact absurd (Except.ok.inj htype) (by decide)
  by_cases hinputs : (!isNull py (get spec "colormap") || !isNull py (get spec "classes")) = true
  · rw [normalize_collect hne htype hinputs] at h
    obtain ⟨⟨colormap, classes⟩, hparse, h⟩ := bind_eq_ok.mp h
    obtain ⟨⟨colormap₁, classes₁⟩, hcollect, hparse⟩ := bind_eq_ok.mp hparse
    obtain ⟨sorted, hsort, hparse⟩ := bind_eq_ok.mp hparse
    cases hparse
    have hsortable := styleErrors_sort.mp (hsort ▸ styleErrors_ok _)
    rw [sortClasses_eq hsortable] at hsort
    cases hsort
    have hstored := stored_of_collect hcollect hsortable
    rw [build_stored hstored] at h
    obtain ⟨bidx, -, h⟩ := bind_eq_ok.mp h
    obtain ⟨asset, -, h⟩ := bind_eq_ok.mp h
    obtain ⟨nodata, -, h⟩ := bind_eq_ok.mp h
    cases h
    exact ⟨colormap, _, bidx, asset, nodata, hstored, rfl⟩
  · rw [normalizeRasterStyleSpec, if_neg fun h => hne (List.isEmpty_iff.mp h), htype] at h
    dsimp only [bind, Except.bind] at h
    rw [if_neg (by decide), if_neg (by decide), if_neg hinputs] at h
    cases h

/-- Colours and classes were read: the rest of the style decides. -/
theorem projects_members {spec : Members py.Finite} {colormap : Colormap}
    {classes : List ClassEntry} (hstored : StoredStyle py colormap (inKeyOrder py classes))
    (hnormal : normalizeRasterStyleSpec py spec = do
      let bidx ← bidxList py (get spec "bidx")
      let asset ← assetText py (get spec "asset")
      let nodata ← parseNodataValue py (get spec "nodata")
      return styleMembers py colormap (inKeyOrder py classes) bidx asset nodata) :
    Projects py spec ↔ BandsGood (get spec "bidx") ∧ TextGood (get spec "asset") ∧
      ((∃ nodata, parseNodataValue py (get spec "nodata") = .ok nodata) →
        NodataGood (get spec "nodata") ∧ KeysAgree py classes) := by
  by_cases hbidx : BandsGood (get spec "bidx")
  case neg =>
    refine iff_of_false (fun h => hbidx ?_) fun h => hbidx h.1
    have hraises := h.raises
    rw [hnormal] at hraises
    exact styleErrors_bidx.mp (styleErrors_bind.mp hraises).1
  obtain ⟨bidx, hb⟩ := bidxList_ok hbidx
  have hnormal : normalizeRasterStyleSpec py spec = do
      let asset ← assetText py (get spec "asset")
      let nodata ← parseNodataValue py (get spec "nodata")
      return styleMembers py colormap (inKeyOrder py classes) bidx asset nodata := by
    rw [hnormal, hb]
    rfl
  by_cases hasset : TextGood (get spec "asset")
  case neg =>
    refine iff_of_false (fun h => hasset ?_) fun h => hasset h.2.1
    have hraises := h.raises
    rw [hnormal] at hraises
    exact styleErrors_asset.mp (styleErrors_bind.mp hraises).1
  obtain ⟨asset, ha⟩ := assetText_ok hasset
  rw [and_iff_right hbidx, and_iff_right hasset]
  have hnormal : normalizeRasterStyleSpec py spec = do
      let nodata ← parseNodataValue py (get spec "nodata")
      return styleMembers py colormap (inKeyOrder py classes) bidx asset nodata := by
    rw [hnormal, ha]
    rfl
  refine projects_of_nodata hnormal (fun nodata _ => ?_) fun nodata =>
    (classesFit_styleMembers hstored.fit).trans pairwise_inOrder
  exact ⟨_, rfl, normalize_styleMembers hstored (bidxList_stored hb) (assetText_again ha)⟩

theorem projects_classification {spec : Members py.Finite} (hne : spec ≠ [])
    (htype : styleType py spec = .ok "classification".toList)
    (hinputs : (!isNull py (get spec "colormap") || !isNull py (get spec "classes")) = true) :
    Projects py spec ↔ ClassificationGood spec := by
  have hnormal := normalize_collect hne htype hinputs
  unfold ClassificationGood
  rw [← styleErrors_collect]
  cases hcollect : collectInputs py (get spec "colormap") (get spec "classes") with
  | error e =>
    have hrefused : normalizeRasterStyleSpec py spec = .error e := by
      rw [hnormal, parseClassificationInputs, hcollect]
      rfl
    cases e with
    | style message =>
      exact iff_of_true (projects_of_refused hrefused)
        ⟨styleErrors_style _, fun _ _ h => by cases h⟩
    | other e =>
      exact iff_of_false (fun h => h.raises e hrefused) fun h => not_styleErrors e h.1
  | ok collected =>
    obtain ⟨colormap, classes⟩ := collected
    have hsorted : parseClassificationInputs py (get spec "colormap") (get spec "classes") =
        sortClasses py (classesOr colormap classes) >>= fun sorted => pure (colormap, sorted) := by
      rw [parseClassificationInputs, hcollect]
      rfl
    have hconj : ∀ {p : Colormap → List ClassEntry → Prop},
        (StyleErrors (.ok (colormap, classes) : Except Exn (Colormap × List ClassEntry)) ∧
          ∀ colormap' classes', (.ok (colormap, classes) : Except Exn _) =
            .ok (colormap', classes') → p colormap' classes') ↔ p colormap classes := by
      intro p
      constructor
      · intro h
        exact h.2 _ _ rfl
      · intro h
        refine ⟨styleErrors_ok _, fun colormap' classes' heq => ?_⟩
        cases heq
        exact h
    rw [hconj]
    by_cases hsortable : ∀ entry ∈ classesOr colormap classes, Sortable py entry.value
    · have hstored := stored_of_collect hcollect hsortable
      rw [and_iff_right hsortable]
      refine projects_members hstored (normalize_classification hne htype hinputs ?_ hstored)
      rw [hsorted, sortClasses_eq hsortable]
      rfl
    · refine iff_of_false (fun h => hsortable ?_) fun h => hsortable h.1
      have hraises := h.raises
      rw [hnormal, hsorted] at hraises
      exact styleErrors_sort.mp (styleErrors_bind.mp (styleErrors_bind.mp hraises).1).1

theorem projects_iff (spec : Members py.Finite) : Projects py spec ↔ StyleGood spec := by
  by_cases hne : spec = []
  · rw [hne]
    refine iff_of_true ⟨styleErrors_ok _, fun spec' h => ?_, fun spec' h => ?_⟩ fun h => absurd rfl h
    · cases h
      rfl
    · cases h
      intro htype
      exact absurd (Except.ok.inj htype) (by decide)
  · unfold StyleGood
    rw [imp_iff_right hne, ← styleErrors_styleType]
    have hempty : ¬ List.isEmpty spec = true := fun h => hne (List.isEmpty_iff.mp h)
    cases htype : styleType py spec with
    | error e =>
      have hrefused : normalizeRasterStyleSpec py spec = .error e := by
        rw [normalizeRasterStyleSpec, if_neg hempty, htype]
        rfl
      cases e with
      | style message =>
        exact iff_of_true (projects_of_refused hrefused)
          ⟨styleErrors_style _, (fun h => by cases h), (fun h => by cases h)⟩
      | other e => exact iff_of_false (fun h => h.raises e hrefused) fun h => not_styleErrors e h.1
    | ok t =>
      rw [and_iff_right (styleErrors_ok _), Except.ok.injEq, Except.ok.injEq]
      by_cases hcont : t = "continuous".toList
      · rw [hcont] at htype
        rw [projects_continuous hne htype, imp_iff_right hcont, and_iff_left]
        intro hclass
        exact absurd (hcont.symm.trans hclass) (by decide)
      · by_cases hclass : t = "classification".toList
        · by_cases hinputs : (!isNull py (get spec "colormap") ||
              !isNull py (get spec "classes")) = true
          · rw [hclass] at htype
            rw [projects_classification hne htype hinputs]
            exact ⟨fun h => ⟨fun hc => absurd hc hcont, fun _ _ => h⟩, fun h => h.2 hclass hinputs⟩
          · have hrefused : normalizeRasterStyleSpec py spec =
                refuse "Classification style_spec requires colormap and/or classes" := by
              rw [normalizeRasterStyleSpec, if_neg hempty, htype]
              dsimp only [bind, Except.bind]
              rw [if_neg fun h => h.2 hclass, if_neg fun h => h hclass, if_neg hinputs]
            exact iff_of_true (projects_of_refused hrefused)
              ⟨fun hc => absurd hc hcont, fun _ hin => absurd hin hinputs⟩
        · have hrefused : normalizeRasterStyleSpec py spec =
              .error (.style ("Unknown style_type: ".toList ++ py.repr (.str t))) := by
            rw [normalizeRasterStyleSpec, if_neg hempty, htype]
            dsimp only [bind, Except.bind]
            rw [if_pos ⟨hcont, hclass⟩]
          exact iff_of_true (projects_of_refused hrefused)
            ⟨fun hc => absurd hc hcont, fun hc => absurd hc hclass⟩

/-- Python with whole floats, which reads no text of JSON. -/
def wholePython : Python where
  toFloats := wholeFloats
  loads _ := .error (.decode "Expecting value: line 1 column 1 (char 0)".toList)
  containerStr _ := .ok "[]".toList
  repr _ := "''".toList

/-- `{"style_type": 5}` raises an `AttributeError`. -/
theorem number_type_raises : ¬ ∀ (py : Python) (spec : Members py.Finite), Projects py spec := by
  intro h
  have hraises := (h wholePython [("style_type".toList, .int 5)]).raises
  exact hraises ("AttributeError".toList, "'int' object has no attribute 'strip'".toList) rfl

end Style
end Geofastmap
