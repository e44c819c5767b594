import Geofastmap.Style.Projection

/-!
# Geofastmap.Style.Lookup

`_lookup_classification` (`titiler_point.py`): the class of a sampled pixel, by the text that Python
prints for the value.

* `lookup_styleMembers` : what a stored style shows for a pixel.
* `lookup_agrees_iff`   : every pixel is shown a class of its number where every number of the style
  is written once as Python prints it.
-/

namespace Geofastmap
namespace Style

open Db.Catalog (bind_eq_ok)

/-- The name and the colour that are shown for a pixel. -/
structure ClassHit (F : Type) where
  name : Text
  color : Value F
  value : Text

section
variable (py : Python)

/-- `str(int(x)) if isinstance(x, float) and x == int(x) else str(x)`. -/
def lookupKey : Value py.Finite → Except Exn Text
  | .float (.finite x) =>
    if (py.value x).den = 1 then printInt (py.value x).num else .ok (py.str x)
  | .float (.inf _) =>
    .error (.other ("OverflowError".toList, "cannot convert float infinity to integer".toList))
  | .float .nan =>
    .error (.other ("ValueError".toList, "cannot convert float NaN to integer".toList))
  | raw => strOf py raw

/-- The key of a class. -/
def classKey : Value py.Finite → Except Exn Text
  | .null => .ok []
  | cv => lookupKey py cv

/-- A colour with the mark in front. -/
def withHash (color : Text) : Text :=
  if !color.isEmpty && color.head? != some '#' then '#' :: color else color

def hashed : Value py.Finite → Value py.Finite
  | .str s => .str (withHash s)
  | color => color

/-- `x or y`. -/
def orValue (x y : Value py.Finite) : Value py.Finite := if truthy py x then x else y

/-- The first class with the key. -/
def findClass (key : Text) :
    List (Value py.Finite) → Except Exn (Option (ClassHit py.Finite))
  | [] => .ok none
  | .obj c :: classes => do
    let cvKey ← classKey py (get c "value")
    if cvKey = key then
      let name ← strOf py (orValue py (get c "name") (get c "value"))
      return some ⟨name, hashed py (orValue py (get c "color") (.str [])), key⟩
    else findClass key classes
  | _ :: classes => findClass key classes

/-- The elements of a list, if it is one. -/
def elements : Value py.Finite → List (Value py.Finite)
  | .arr items => items
  | _ => []

def members : Value py.Finite → Members py.Finite
  | .obj ms => ms
  | _ => []

/-- `_lookup_classification`. -/
def lookupClassification (styleSpec : Members py.Finite) (rawValue : Value py.Finite) :
    Except Exn (Option (ClassHit py.Finite)) := do
  if isNull py rawValue then return none
  else
    let key ← lookupKey py rawValue
    match ← findClass py key (elements py (get styleSpec "classes")) with
    | some hit => return some hit
    | none =>
      match (members py (get styleSpec "colormap")).lookup key with
      | some raw =>
        let color ← strOf py raw
        return some ⟨key, .str (withHash color), key⟩
      | none => return none

end

variable {py : Python}

/-! ## Pixels -/

/-- A sampled number; `json.loads` reads no integer that is too long for `str`. -/
inductive Pixel (py : Python) where
  | int (n : Int) (h : Printable n)
  | float (x : py.Finite)

namespace Pixel

def raw : Pixel py → Value py.Finite
  | int n _ => .int n
  | float x => .float (.finite x)

def number : Pixel py → ℚ
  | int n _ => n
  | float x => py.value x

/-- The text by which a pixel is looked up. -/
def key : Pixel py → Text
  | int n _ => Sql.intText n
  | float x => if (py.value x).den = 1 then Sql.intText (py.value x).num else py.str x

theorem raw_isNull (p : Pixel py) : isNull py p.raw = false := by
  cases p <;> rfl

theorem lookupKey_raw (p : Pixel py) : lookupKey py p.raw = .ok p.key := by
  cases p with
  | int n h => exact printInt_eq_ok.mpr ⟨h, rfl⟩
  | float x =>
    change (if _ then _ else _) = Except.ok (if _ then _ else _)
    split
    · exact printInt_eq_ok.mpr ⟨py.printable x ‹_›, rfl⟩
    · rfl

theorem numberOf_key (p : Pixel py) : numberOf py.toFloats p.key = some p.number := by
  cases p with
  | int n h => exact numberOf_intText _ h
  | float x =>
    change numberOf py.toFloats (if _ then _ else _) = some (py.value x)
    split
    · rename_i hden
      rw [numberOf_intText _ (py.printable x hden), Rat.coe_int_num_of_den_eq_one hden]
    · exact numberOf_str _ x

end Pixel

/-- The number of a text as Python prints it. -/
def spelled (py : Python) (v : Text) : Option Text :=
  match intOf v with
  | some n => strInt n
  | none =>
    match py.parse v with
    | some (.finite x) =>
      if (py.value x).den = 1 then strInt (py.value x).num else some (py.str x)
    | _ => none

theorem den_of_eq_int {q : ℚ} {n : Int} (h : q = n) : q.den = 1 ∧ q.num = n := by
  rw [h]
  exact ⟨Rat.den_intCast n, Rat.num_intCast n⟩

/-- All pixels of one number are looked up by the text that Python prints for it. -/
theorem spelled_of_number {v : Text} {p : Pixel py}
    (h : numberOf py.toFloats v = some p.number) : spelled py v = some p.key := by
  unfold numberOf at h
  unfold spelled
  cases hint : intOf v with
  | some n =>
    rw [hint] at h
    have hn : (n : ℚ) = p.number := Option.some.inj h
    cases p with
    | int m hm =>
      have heq : n = m := Rat.intCast_inj.mp hn
      rw [heq]
      exact if_pos hm
    | float x =>
      obtain ⟨hden, hnum⟩ := den_of_eq_int (Eq.symm hn : py.value x = n)
      have hprint : Printable n := hnum ▸ py.printable x hden
      change strInt n = some (if _ then _ else _)
      rw [if_pos hden, hnum]
      exact if_pos hprint
  | none =>
    rw [hint] at h
    dsimp only at h ⊢
    split at h
    · rename_i y hy
      have hval : py.value y = p.number := Option.some.inj h
      rw [hy]
      dsimp only
      cases p with
      | int m hm =>
        obtain ⟨hden, hnum⟩ := den_of_eq_int (hval : py.value y = m)
        rw [if_pos hden, hnum]
        exact if_pos hm
      | float x =>
        have hxy : py.value y = py.value x := hval
        change _ = some (if _ then _ else _)
        rw [hxy]
        split
        · rename_i hden
          exact if_pos (py.printable x hden)
        · rename_i hden
          exact congrArg some (py.str_eq y x (hxy ▸ hden) hxy)
    · cases h

theorem exists_pixel {v s : Text} (h : spelled py v = some s) :
    ∃ p : Pixel py, numberOf py.toFloats v = some p.number ∧ p.key = s := by
  unfold spelled at h
  unfold numberOf
  cases hint : intOf v with
  | some n =>
    rw [hint] at h
    obtain ⟨hprint, hs⟩ := strInt_eq_some.mp h
    exact ⟨.int n hprint, rfl, hs⟩
  | none =>
    rw [hint] at h
    dsimp only at h ⊢
    split at h
    · rename_i x hx
      rw [hx]
      refine ⟨.float x, rfl, ?_⟩
      change (if _ then _ else _) = s
      split at h
      · rename_i hden
        rw [if_pos hden]
        exact (strInt_eq_some.mp h).2
      · rename_i hden
        rw [if_neg hden]
        exact Option.some.inj h
    · cases h

/-- A value that was written as a number is the text that Python prints for it. -/
theorem spelled_key {raw : Value py.Finite} {v : Text} (hraw : ∀ s, raw ≠ .str s)
    (h : normalizePixelValueKey py raw = .ok v) : spelled py v = some v := by
  have hpixel : ∀ p : Pixel py, p.key = v → spelled py v = some v := by
    rintro p rfl
    exact spelled_of_number p.numberOf_key
  cases raw with
  | int n =>
    obtain ⟨hprint, hv⟩ := printInt_eq_ok.mp h
    exact hpixel (.int n hprint) hv
  | float x =>
    cases x with
    | finite x =>
      refine hpixel (.float x) ?_
      change (if _ then _ else _) = v
      change (if _ then _ else _) = Except.ok v at h
      split at h
      · rename_i hden
        rw [if_pos hden]
        exact (printInt_eq_ok.mp h).2
      · rename_i hden
        rw [if_neg hden]
        exact Except.ok.inj h
    | inf negative => cases h
    | nan => cases h
  | str s => exact absurd rfl (hraw s)
  | null => cases h
  | bool b => cases h
  | arr items => cases h
  | obj ms => cases h

/-! ## What is shown -/

/-- The classes of a style and the entries of its colormap, which are named by their values. -/
def entries (colormap : Colormap) (classes : List ClassEntry) : List ClassEntry :=
  classes ++ colormap.map fun c => ⟨c.1, c.1, c.2⟩

def hitOf (F : Type) (key : Text) (entry : ClassEntry) : ClassHit F :=
  ⟨entry.name, .str entry.color, key⟩

theorem withHash_hex {color : Text} (h : Hex color) : withHash color = color := by
  obtain ⟨ds, rfl, -, -⟩ := h
  rfl

theorem orValue_str {s : Text} (h : s ≠ []) (other : Value py.Finite) :
    orValue py (.str s) other = .str s := by
  have htruthy : truthy py (.str s) = true := by
    cases s with
    | nil => exact absurd rfl h
    | cons ch s => rfl
  exact if_pos htruthy

theorem findClass_classes {classes : List ClassEntry} (h : ∀ entry ∈ classes, NormalEntry entry)
    (key : Text) :
    findClass py key (classes.map (classValue py)) =
      .ok ((classes.find? fun entry => entry.value = key).map (hitOf py.Finite key)) := by
  induction classes with
  | nil => rfl
  | cons entry classes ih =>
    obtain ⟨hentry, hrest⟩ := List.forall_mem_cons.mp h
    rw [List.map_cons]
    change (if entry.value = key then _ else findClass py key (classes.map (classValue py))) = _
    by_cases hkey : entry.value = key
    · rw [if_pos hkey, List.find?_cons_of_pos (by simpa using hkey)]
      change (strOf py (orValue py (.str entry.name) (.str entry.value)) >>= fun name =>
        pure (some (ClassHit.mk name
          (hashed py (orValue py (.str entry.color) (.str []))) key))) = _
      have hne : entry.color ≠ [] := by
        obtain ⟨ds, hds, -⟩ := hentry.color
        rw [hds]
        exact List.cons_ne_nil _ _
      rw [orValue_str hentry.name.1, orValue_str hne, hashed, withHash_hex hentry.color]
      rfl
    · rw [if_neg hkey, List.find?_cons_of_neg (by simpa using hkey)]
      exact ih hrest

/-- What a stored style shows for a key: a class, or else an entry of the colormap. -/
def shown (py : Python) (colormap : Colormap) (classes : List ClassEntry) (key : Text) :
    Option (ClassHit py.Finite) :=
  match classes.find? fun entry => entry.value = key with
  | some entry => some (hitOf py.Finite key entry)
  | none => (colormap.lookup key).map fun color => hitOf py.Finite key ⟨key, key, color⟩

theorem lookup_colormapValue (colormap : Colormap) (key : Text) :
    (members py (colormapValue py colormap)).lookup key = (colormap.lookup key).map .str := by
  change (colormap.map fun c => (c.1, Value.str c.2)).lookup key = _
  induction colormap with
  | nil => rfl
  | cons c colormap ih =>
    rw [List.map_cons, List.lookup_cons, List.lookup_cons, ih]
    split <;> rfl

theorem lookup_styleMembers {colormap : Colormap} {classes : List ClassEntry} {bidx : List Text}
    {asset : Option Text} {nodata : Option (Value py.Finite)} (h : NormalStyle colormap classes)
    (p : Pixel py) :
    lookupClassification py (styleMembers py colormap classes bidx asset nodata) p.raw =
      .ok (shown py colormap classes p.key) := by
  unfold lookupClassification shown
  rw [p.raw_isNull, if_neg (by decide), p.lookupKey_raw]
  change (findClass py p.key (classes.map (classValue py)) >>= _) = _
  rw [findClass_classes h.entries]
  dsimp only [bind, Except.bind]
  cases hfind : classes.find? fun entry => entry.value = p.key with
  | some entry => rfl
  | none =>
    dsimp only [Option.map_none]
    change (match (members py (colormapValue py colormap)).lookup p.key with
      | some raw => strOf py raw >>= fun color =>
        pure (some (ClassHit.mk p.key (.str (withHash color)) p.key))
      | none => pure none) = _
    rw [lookup_colormapValue]
    cases hlook : colormap.lookup p.key with
    | none => rfl
    | some color =>
      change Except.ok (some (ClassHit.mk p.key (.str (withHash color)) p.key)) = _
      rw [withHash_hex (h.colors.lookup hlook).2]
      rfl

theorem entry_mem_colormap {colormap : Colormap} {classes : List ClassEntry}
    (h : NormalStyle colormap classes) {entry : ClassEntry}
    (hentry : entry ∈ entries colormap classes) : entry.value ∈ colormap.map Prod.fst := by
  rcases List.mem_append.mp hentry with hentry | hentry
  · exact List.mem_map_of_mem (mem_of_lookup (h.fit entry hentry))
  · obtain ⟨c, hc, rfl⟩ := List.mem_map.mp hentry
    exact List.mem_map_of_mem hc

theorem shown_eq_some {colormap : Colormap} {classes : List ClassEntry} {key : Text}
    {hit : ClassHit py.Finite} (h : shown py colormap classes key = some hit) :
    ∃ entry ∈ entries colormap classes, entry.value = key ∧ hit = hitOf py.Finite key entry := by
  unfold shown at h
  split at h
  · rename_i entry hfind
    cases h
    have hvalue := List.find?_some hfind
    exact ⟨entry, List.mem_append_left _ (List.mem_of_find?_eq_some hfind),
      of_decide_eq_true hvalue, rfl⟩
  · obtain ⟨color, hcolor, rfl⟩ := Option.map_eq_some_iff.mp h
    exact ⟨⟨key, key, color⟩, List.mem_append_right _ (List.mem_map_of_mem (mem_of_lookup hcolor)),
      rfl, rfl⟩

/-- Nothing is shown for a key that is no key of the colormap. -/
theorem shown_eq_none {colormap : Colormap} {classes : List ClassEntry}
    (h : NormalStyle colormap classes) {key : Text} :
    shown py colormap classes key = none ↔ key ∉ colormap.map Prod.fst := by
  constructor
  · intro hnone
    unfold shown at hnone
    split at hnone
    · cases hnone
    · exact lookup_eq_none.mp (Option.map_eq_none_iff.mp hnone)
  · intro hkey
    cases hshown : shown py colormap classes key with
    | none => rfl
    | some hit =>
      obtain ⟨entry, hentry, rfl, -⟩ := shown_eq_some hshown
      exact absurd (entry_mem_colormap h hentry) hkey

/-! ## Pixels and numbers -/

/-- A pixel of the number of an entry is shown the name and the colour of one of that number, and
any other pixel nothing. -/
structure Agrees (py : Python) (entries : List ClassEntry) (number : ℚ)
    (looked : Except Exn (Option (ClassHit py.Finite))) : Prop where
  shows : (∃ entry ∈ entries, numberOf py.toFloats entry.value = some number) →
    ∃ entry ∈ entries, numberOf py.toFloats entry.value = some number ∧
      ∃ hit, looked = .ok (some hit) ∧ hit.name = entry.name ∧ hit.color = .str entry.color
  nothing : (∀ entry ∈ entries, numberOf py.toFloats entry.value ≠ some number) →
    looked = .ok none

/-- Every pixel is shown a class of its number. -/
def LookupAgrees (py : Python) (styleSpec : Members py.Finite) : Prop :=
  ∃ colormap classes, get styleSpec "colormap" = colormapValue py colormap ∧
    get styleSpec "classes" = classesValue py classes ∧
    ∀ p : Pixel py, Agrees py (entries colormap classes) p.number
      (lookupClassification py styleSpec p.raw)

/-- Every number of the colormap has a key as Python prints it. -/
def SpelledOut (py : Python) (styleSpec : Members py.Finite) : Prop :=
  ∃ colormap, get styleSpec "colormap" = colormapValue py colormap ∧
    ∀ c ∈ colormap, ∀ s ∈ spelled py c.1, s ∈ colormap.map Prod.fst

/-- A style of which all values were written as numbers. -/
theorem spelledOut_of_numbers {styleSpec : Members py.Finite} {colormap : Colormap}
    (hget : get styleSpec "colormap" = colormapValue py colormap)
    (h : ∀ c ∈ colormap, ∃ raw, (∀ s, raw ≠ .str s) ∧ normalizePixelValueKey py raw = .ok c.1) :
    SpelledOut py styleSpec := by
  refine ⟨colormap, hget, fun c hc s hs => ?_⟩
  obtain ⟨raw, hraw, hkey⟩ := h c hc
  rw [spelled_key hraw hkey, Option.mem_some_iff] at hs
  rw [← hs]
  exact List.mem_map_of_mem hc

theorem colormapValue_injective : Function.Injective (colormapValue py) := by
  intro colormap colormap' h
  have hpair : Function.Injective
      fun c : Text × Text => (c.1, (Value.str c.2 : Value py.Finite)) := by
    rintro ⟨key, color⟩ ⟨key', color'⟩ heq
    simp only [Prod.mk.injEq, Value.str.injEq] at heq
    exact Prod.ext heq.1 heq.2
  exact List.map_injective_iff.mpr hpair (Value.obj.inj h)

theorem agrees_of_spelled {colormap : Colormap} {classes : List ClassEntry}
    (h : NormalStyle colormap classes)
    (hspelled : ∀ c ∈ colormap, ∀ s ∈ spelled py c.1, s ∈ colormap.map Prod.fst) (p : Pixel py) :
    Agrees py (entries colormap classes) p.number (.ok (shown py colormap classes p.key)) := by
  refine ⟨?_, fun hno => ?_⟩
  · rintro ⟨entry, hentry, hnumber⟩
    obtain ⟨c, hc, hvalue⟩ := List.mem_map.mp (entry_mem_colormap h hentry)
    rw [← hvalue] at hnumber
    have hkey := hspelled c hc p.key (spelled_of_number hnumber)
    cases hshown : shown py colormap classes p.key with
    | none => exact absurd hkey ((shown_eq_none h).mp hshown)
    | some hit =>
      obtain ⟨found, hfound, hfkey, rfl⟩ := shown_eq_some hshown
      exact ⟨found, hfound, hfkey ▸ p.numberOf_key, _, rfl, rfl, rfl⟩
  · refine congrArg Except.ok ((shown_eq_none h).mpr fun hkey => ?_)
    obtain ⟨c, hc, hvalue⟩ := List.mem_map.mp hkey
    refine hno ⟨c.1, c.1, c.2⟩ (List.mem_append_right _ (List.mem_map_of_mem hc)) ?_
    rw [← p.numberOf_key, ← hvalue]

theorem lookup_agrees_iff {spec spec' : Members py.Finite}
    (h : normalizeRasterStyleSpec py spec = .ok spec')
    (htype : styleType py spec = .ok "classification".toList) :
    LookupAgrees py spec' ↔ SpelledOut py spec' := by
  obtain ⟨colormap, classes, bidx, asset, nodata, hstored, rfl⟩ := accepted_classification h htype
  have hstyle := hstored.toNormalStyle
  constructor
  · rintro ⟨colormap', classes', hcolormap, hclasses, hagrees⟩
    cases @colormapValue_injective py _ _ hcolormap
    cases @classesValue_injective py _ _ hclasses
    refine ⟨colormap, rfl, fun c hc s hs => ?_⟩
    obtain ⟨p, hnumber, rfl⟩ := exists_pixel hs
    have hp := hagrees p
    rw [lookup_styleMembers hstyle] at hp
    obtain ⟨entry, -, -, hit, hhit, -⟩ := hp.shows ⟨⟨c.1, c.1, c.2⟩,
      List.mem_append_right _ (List.mem_map_of_mem hc), hnumber⟩
    by_contra hkey
    rw [(shown_eq_none hstyle).mpr hkey] at hhit
    cases hhit
  · rintro ⟨colormap', hcolormap, hspelled⟩
    cases @colormapValue_injective py _ _ hcolormap
    refine ⟨colormap, classes, rfl, rfl, fun p => ?_⟩
    rw [lookup_styleMembers hstyle]
    exact agrees_of_spelled hstyle hspelled p

def waterStyle (value : Value wholePython.Finite) : Members wholePython.Finite :=
  [("style_type".toList, .str "classification".toList),
    ("classes".toList, .arr [.obj [("value".toList, value), ("name".toList, .str "Water".toList),
      ("color".toList, .str "#00f".toList)]])]

def storedWater (value : Text) : Members wholePython.Finite :=
  styleMembers wholePython [(value, "#0000FF".toList)]
    [⟨value, "Water".toList, "#0000FF".toList⟩] ["1".toList] none none

theorem lookup_agrees_water : LookupAgrees wholePython (storedWater "1".toList) := by
  have hok : normalizeRasterStyleSpec wholePython (waterStyle (.int 1)) =
      .ok (storedWater "1".toList) := by rfl
  exact (lookup_agrees_iff hok (by rfl)).mpr ⟨[("1".toList, "#0000FF".toList)], rfl, by decide⟩

/-- The pixel `1` is not shown the class of the text `1.0`. -/
theorem point_text_not_shown :
    ¬ ∀ (py : Python) (spec spec' : Members py.Finite),
      normalizeRasterStyleSpec py spec = .ok spec' →
      styleType py spec = .ok "classification".toList → LookupAgrees py spec' := by
  intro h
  obtain ⟨colormap, classes, hcolormap, hclasses, hagrees⟩ :=
    h wholePython (waterStyle (.str "1.0".toList)) (storedWater "1.0".toList) (by rfl) (by rfl)
  cases @colormapValue_injective wholePython _ _ hcolormap
  cases @classesValue_injective wholePython _ _ hclasses
  obtain ⟨entry, -, -, hit, hhit, -⟩ := (hagrees (.int 1 (by decide))).shows
    ⟨⟨"1.0".toList, "Water".toList, "#0000FF".toList⟩, List.mem_cons_self, by rfl⟩
  have hnone : lookupClassification wholePython (storedWater "1.0".toList) (.int 1) = .ok none := by
    rfl
  rw [Pixel.raw, hnone] at hhit
  cases hhit

end Style
end Geofastmap
