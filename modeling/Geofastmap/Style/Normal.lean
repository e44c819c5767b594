import Geofastmap.Db.Statement
import Geofastmap.Style.Spec

/-!
# Geofastmap.Style.Normal

What the parsers of a style raise, what they accept, and that they read back what they return.

* `StyleErrors`           : nothing but a `RasterStyleSpecError` is raised.
* `NormalColormap`        : the values are stripped and distinct, the colours in capitals.
* `parseColormapDict_eq`, `parseClassesList_eq` : normal colours and classes are read back.
-/

namespace Geofastmap
namespace Style

open Db.Catalog (bind_eq_ok)

variable {py : Python}

/-! ## Errors -/

/-- Nothing but a `RasterStyleSpecError` is raised. -/
def StyleErrors {α : Type} (r : Except Exn α) : Prop := ∀ e, r ≠ .error (.other e)

theorem styleErrors_ok {α : Type} (a : α) : StyleErrors (.ok a) := by
  intro e h
  cases h

theorem styleErrors_style {α : Type} (message : Text) :
    StyleErrors (.error (.style message) : Except Exn α) := by
  intro e h
  cases h

theorem styleErrors_refuse {α : Type} (message : String) :
    StyleErrors (refuse message : Except Exn α) := styleErrors_style _

theorem styleErrors_classError {α : Type} (label : Text) (rest : String) :
    StyleErrors (classError label rest : Except Exn α) := styleErrors_style _

theorem not_styleErrors {α : Type} (e : Import.Raised) :
    ¬ StyleErrors (.error (.other e) : Except Exn α) := fun h => h e rfl

theorem styleErrors_bind {α β : Type} {x : Except Exn α} {f : α → Except Exn β} :
    StyleErrors (x >>= f) ↔ StyleErrors x ∧ ∀ a, x = .ok a → StyleErrors (f a) := by
  cases x with
  | error e =>
    cases e with
    | style message =>
      exact iff_of_true (styleErrors_style _) ⟨styleErrors_style _, fun a h => by cases h⟩
    | other e => exact iff_of_false (not_styleErrors e) fun h => not_styleErrors e h.1
  | ok a =>
    constructor
    · intro h
      refine ⟨styleErrors_ok a, fun b hb => ?_⟩
      cases hb
      exact h
    · intro h
      exact h.2 a rfl

/-- A step that is always accepted or refused leaves what follows it. -/
theorem StyleErrors.bind_iff {α β : Type} {x : Except Exn α} {f : α → Except Exn β}
    (hx : StyleErrors x) :
    StyleErrors (x >>= f) ↔ ∀ a, x = .ok a → StyleErrors (f a) := by
  rw [styleErrors_bind, and_iff_right hx]

/-! ## Values of pixels -/

/-- A text that is not empty, without white space at its ends. -/
def Trimmed (s : Text) : Prop := s ≠ [] ∧ strip s = s

theorem trimmed_strip {s : Text} (h : ¬ (strip s).isEmpty = true) :
    Trimmed (strip s) := by
  refine ⟨fun hs => h ?_, strip_strip s⟩
  rw [hs]
  rfl

theorem Trimmed.not_isEmpty {s : Text} (h : Trimmed s) : ¬ (strip s).isEmpty = true := by
  rw [h.2, List.isEmpty_iff]
  exact h.1

theorem trimmed_intText (n : Int) : Trimmed (Sql.intText n) := ⟨intText_ne_nil n, strip_intText n⟩

theorem trimmed_str (x : py.Finite) : Trimmed (py.str x) := ⟨py.str_ne_nil x, py.str_strip x⟩

theorem printInt_eq_ok {n : Int} {s : Text} : printInt n = .ok s ↔ Printable n ∧ Sql.intText n = s := by
  unfold printInt
  rw [← strInt_eq_some]
  split
  · rename_i t ht
    rw [ht, Except.ok.injEq, Option.some.injEq]
  · rename_i hn
    rw [hn]
    exact iff_of_false (by intro h; cases h) (by intro h; cases h)

theorem styleErrors_printInt {n : Int} : StyleErrors (printInt n) ↔ Printable n := by
  constructor
  · intro h
    by_contra hn
    have hstr : strInt n = none := if_neg hn
    rw [printInt, hstr] at h
    exact not_styleErrors _ h
  · intro h
    rw [printInt_eq_ok.mpr ⟨h, rfl⟩]
    exact styleErrors_ok _

/-- A number of which `str` makes a text. -/
def KeyGood (raw : Value py.Finite) : Prop := ∀ n, raw = .int n → Printable n

theorem styleErrors_key {raw : Value py.Finite} :
    StyleErrors (normalizePixelValueKey py raw) ↔ KeyGood raw := by
  have hother : ∀ {raw : Value py.Finite}, (∀ n, raw ≠ .int n) → KeyGood raw :=
    fun h n hn => absurd hn (h n)
  cases raw with
  | int n =>
    refine styleErrors_printInt.trans ⟨fun h m hm => ?_, fun h => h n rfl⟩
    cases hm
    exact h
  | float x =>
    refine iff_of_true ?_ (hother fun n hn => by cases hn)
    cases x with
    | finite x =>
      change StyleErrors (if _ then _ else _)
      split
      · exact styleErrors_printInt.mpr (py.printable x ‹_›)
      · exact styleErrors_ok _
    | inf negative => exact styleErrors_refuse _
    | nan => exact styleErrors_refuse _
  | str s =>
    refine iff_of_true ?_ (hother fun n hn => by cases hn)
    change StyleErrors (if _ then _ else _)
    split
    · exact styleErrors_refuse _
    · exact styleErrors_ok _
  | null => exact iff_of_true (styleErrors_style _) (hother fun n hn => by cases hn)
  | bool b => exact iff_of_true (styleErrors_refuse _) (hother fun n hn => by cases hn)
  | arr items => exact iff_of_true (styleErrors_style _) (hother fun n hn => by cases hn)
  | obj members => exact iff_of_true (styleErrors_style _) (hother fun n hn => by cases hn)

theorem styleErrors_textKey (s : Text) : StyleErrors (normalizePixelValueKey py (.str s)) :=
  styleErrors_key.mpr fun n hn => by cases hn

theorem key_trimmed {raw : Value py.Finite} {v : Text}
    (h : normalizePixelValueKey py raw = .ok v) : Trimmed v := by
  cases raw with
  | int n =>
    obtain ⟨-, rfl⟩ := printInt_eq_ok.mp h
    exact trimmed_intText n
  | float x =>
    cases x with
    | finite x =>
      change (if _ then _ else _) = _ at h
      split at h
      · obtain ⟨-, rfl⟩ := printInt_eq_ok.mp h
        exact trimmed_intText _
      · cases h
        exact trimmed_str x
    | inf negative => cases h
    | nan => cases h
  | str s =>
    change (if _ then _ else _) = _ at h
    split at h
    · cases h
    · cases h
      exact trimmed_strip ‹_›
  | null => cases h
  | bool b => cases h
  | arr items => cases h
  | obj members => cases h

theorem key_of_trimmed {v : Text} (h : Trimmed v) : normalizePixelValueKey py (.str v) = .ok v := by
  change (if _ then _ else _) = _
  rw [if_neg h.not_isEmpty, h.2]

/-! ## Colours -/

/-- A colour as it is stored. -/
def Hex (c : Text) : Prop :=
  ∃ ds : Text, c = '#' :: ds ∧ ds.length = 6 ∧ ∀ ch ∈ ds, isHexDigit ch = true ∧ ch.toUpper = ch

theorem hexDigit_upper {ch : Char} (h : isHexDigit ch = true) :
    (isHexDigit ch.toUpper = true ∧ ch.toUpper.toUpper = ch.toUpper) ∧
      isSpace ch = false := by
  have hascii : ∀ n < 128, isHexDigit (Char.ofNat n) = true →
      (isHexDigit (Char.ofNat n).toUpper = true ∧
        (Char.ofNat n).toUpper.toUpper = (Char.ofNat n).toUpper) ∧
      isSpace (Char.ofNat n) = false := by decide
  have hsmall : ch.toNat < 128 := by
    simp only [isHexDigit, Char.isDigit, Bool.or_eq_true, Bool.and_eq_true, decide_eq_true_eq,
      ge_iff_le, UInt32.le_iff_toNat_le, Char.le_def] at h
    change ch.val.toNat < 128
    change ((48 ≤ ch.val.toNat ∧ ch.val.toNat ≤ 57) ∨ 65 ≤ ch.val.toNat ∧ ch.val.toNat ≤ 70) ∨
      97 ≤ ch.val.toNat ∧ ch.val.toNat ≤ 102 at h
    omega
  have hup := hascii ch.toNat hsmall
  rw [Char.ofNat_toNat] at hup
  exact hup h

theorem length_doubled (ds : Text) : (ds.flatMap fun ch => [ch, ch]).length = 2 * ds.length := by
  induction ds with
  | nil => rfl
  | cons ch ds ih =>
    rw [List.flatMap_cons, List.length_append, ih]
    simp only [List.length_cons, List.length_nil]
    omega

theorem isHexColor_eq {s : Text} (h : isHexColor s = true) :
    ∃ ds : Text, s = '#' :: ds ∧ (ds.length = 3 ∨ ds.length = 6) ∧
      ∀ ch ∈ ds, isHexDigit ch = true := by
  unfold isHexColor at h
  split at h
  · rename_i ds
    rw [Bool.and_eq_true, Bool.or_eq_true, beq_iff_eq, beq_iff_eq, List.all_eq_true] at h
    exact ⟨ds, rfl, h.1, h.2⟩
  · cases h

theorem hex_of_color {raw : Value py.Finite} {c : Text}
    (h : normalizeHexColor py raw = .ok c) : Hex c := by
  cases raw with
  | str s =>
    change (if (!isHexColor (strip s)) = true then _ else if _ then _ else _) = _ at h
    split at h
    · cases h
    · rename_i hhex
      obtain ⟨ds, hs, hlen, hds⟩ := isHexColor_eq (by simpa using hhex)
      rw [hs] at h
      simp only [List.length_cons, List.tail_cons] at h
      split at h
      · -- each of three digits is written twice
        cases h
        refine ⟨_, rfl, ?_, fun ch hch => ?_⟩
        · rw [length_doubled, List.length_map]
          omega
        · obtain ⟨d, hd, hch⟩ := List.mem_flatMap.mp hch
          obtain ⟨e, he, rfl⟩ := List.mem_map.mp hd
          have heq : ch = e.toUpper := by simpa using hch
          rw [heq]
          exact (hexDigit_upper (hds e he)).1
      · cases h
        refine ⟨_, rfl, ?_, fun ch hch => ?_⟩
        · rw [List.length_map]
          omega
        · obtain ⟨e, he, rfl⟩ := List.mem_map.mp hch
          exact (hexDigit_upper (hds e he)).1
  | _ => cases h

theorem Hex.strip {c : Text} (h : Hex c) : strip c = c := by
  obtain ⟨ds, rfl, -, hds⟩ := h
  refine strip_of_all fun ch hch => ?_
  rcases List.mem_cons.mp hch with rfl | hch
  · decide
  · exact (hexDigit_upper (hds ch hch).1).2

theorem color_of_hex {c : Text} (h : Hex c) : normalizeHexColor py (.str c) = .ok c := by
  have hstrip := h.strip
  obtain ⟨ds, rfl, hlen, hds⟩ := h
  have hhex : isHexColor ('#' :: ds) = true := by
    rw [isHexColor, Bool.and_eq_true, Bool.or_eq_true, beq_iff_eq, beq_iff_eq, List.all_eq_true]
    exact ⟨.inr hlen, fun ch hch => (hds ch hch).1⟩
  have hupper : ds.map Char.toUpper = ds := by
    rw [List.map_congr_left fun ch hch => (hds ch hch).2]
    exact List.map_id ds
  change (if (!isHexColor (strip ('#' :: ds))) = true then _ else if _ then _ else _) = _
  rw [hstrip, hhex, if_neg (by decide), if_neg (by simp [hlen]), List.tail_cons, hupper]

theorem styleErrors_color (raw : Value py.Finite) : StyleErrors (normalizeHexColor py raw) := by
  cases raw with
  | str s =>
    change StyleErrors (if _ then _ else if _ then _ else _)
    split
    · exact styleErrors_style _
    · split
      · exact styleErrors_ok _
      · exact styleErrors_ok _
  | _ => exact styleErrors_refuse _

/-! ## No data -/

theorem styleErrors_nodata (raw : Value py.Finite) : StyleErrors (parseNodataValue py raw) := by
  cases raw with
  | str s =>
    dsimp only [parseNodataValue]
    split
    · exact styleErrors_ok _
    · split
      · split <;> exact styleErrors_ok _
      · split <;> exact styleErrors_ok _
  | float x =>
    cases x with
    | finite x => exact styleErrors_ok _
    | inf negative => exact styleErrors_refuse _
    | nan => exact styleErrors_refuse _
  | bool b => exact styleErrors_refuse _
  | null => exact styleErrors_ok _
  | int n => exact styleErrors_ok _
  | arr items => exact styleErrors_style _
  | obj members => exact styleErrors_style _

def FloatText (s : Text) : Prop := '.' ∈ s ∨ 'e' ∈ Sql.lower s

theorem nodata_str_cases {s : Text} {nodata : Option (Value py.Finite)}
    (h : parseNodataValue py (.str s) = .ok nodata) :
    (strip s = [] ∧ nodata = none) ∨
    (∃ x, FloatText (strip s) ∧ py.parse (strip s) = some x ∧
      nodata = some (.float x)) ∨
    (∃ n, ¬ FloatText (strip s) ∧ nodata = some (.int n)) ∨
    ((FloatText (strip s) → py.parse (strip s) = none) ∧
      nodata = some (.str (strip s))) := by
  dsimp only [parseNodataValue] at h
  split at h
  · rename_i hempty
    cases h
    exact .inl ⟨List.isEmpty_iff.mp hempty, rfl⟩
  · split at h
    · rename_i hpoint
      split at h
      · rename_i x hx
        cases h
        exact .inr (.inl ⟨x, hpoint, hx, rfl⟩)
      · rename_i hx
        cases h
        exact .inr (.inr (.inr ⟨fun _ => hx, rfl⟩))
    · rename_i hpoint
      split at h
      · rename_i n hn
        cases h
        exact .inr (.inr (.inl ⟨n, hpoint, rfl⟩))
      · cases h
        exact .inr (.inr (.inr ⟨fun hs => absurd hs hpoint, rfl⟩))

/-- No text of a float beyond the range of floats. -/
def NodataGood (raw : Value py.Finite) : Prop :=
  ∀ s, raw = .str s → FloatText (strip s) →
    ∀ negative, py.parse (strip s) ≠ some (.inf negative)

theorem forall_str {s : Text} {p : Text → Prop} :
    (∀ t, (.str s : Value py.Finite) = .str t → p t) ↔ p s := by
  constructor
  · intro h
    exact h s rfl
  · intro h t ht
    cases ht
    exact h

/-- What was read is read back, or is an infinity and refused. -/
theorem nodata_again {raw : Value py.Finite} {nodata : Option (Value py.Finite)}
    (h : parseNodataValue py raw = .ok nodata) :
    (NodataGood raw ∧ parseNodataValue py (nodata.getD .null) = .ok nodata) ∨
    (¬ NodataGood raw ∧ ∃ e, parseNodataValue py (nodata.getD .null) = .error e) := by
  have hother : ∀ {raw : Value py.Finite}, (∀ s, raw ≠ .str s) → NodataGood raw :=
    fun hraw s hs => absurd hs (hraw s)
  cases raw with
  | str s =>
    rw [NodataGood, forall_str]
    obtain ⟨hempty, rfl⟩ | ⟨x, hpoint, hx, rfl⟩ | ⟨n, hpoint, rfl⟩ | ⟨hnone, rfl⟩ :=
      nodata_str_cases h
    · rw [hempty]
      exact .inl ⟨fun hpoint => absurd hpoint (by unfold FloatText; decide), rfl⟩
    · cases x with
      | finite x =>
        refine .inl ⟨fun _ negative heq => ?_, rfl⟩
        rw [hx] at heq
        cases heq
      | inf negative => exact .inr ⟨fun hs => hs hpoint negative hx, _, rfl⟩
      | nan => exact absurd hpoint (not_or.mpr (py.parse_nan _ hx))
    · exact .inl ⟨fun hs => absurd hs hpoint, rfl⟩
    · refine .inl ⟨fun hs negative heq => ?_, ?_⟩
      · rw [hnone hs] at heq
        cases heq
      · rw [← h]
        dsimp only [parseNodataValue, Option.getD_some]
        rw [strip_strip]
  | float x =>
    cases x with
    | finite x =>
      cases h
      exact .inl ⟨hother (fun s hs => by cases hs), rfl⟩
    | inf negative => cases h
    | nan => cases h
  | null =>
    cases h
    exact .inl ⟨hother (fun s hs => by cases hs), rfl⟩
  | int n =>
    cases h
    exact .inl ⟨hother (fun s hs => by cases hs), rfl⟩
  | bool b => cases h
  | arr items => cases h
  | obj members => cases h

theorem nodataGood_of_error {raw : Value py.Finite} {e : Exn}
    (h : parseNodataValue py raw = .error e) : NodataGood raw := by
  rintro s rfl
  dsimp only [parseNodataValue] at h
  split at h
  · cases h
  · split at h
    · split at h <;> cases h
    · split at h <;> cases h

/-! ## JSON texts -/

/-- Whatever a text is, its reading fails with a decoding error only. -/
def LoadsGood (raw : Value py.Finite) : Prop :=
  ∀ s, raw = .str s → strip s ≠ [] → ∀ e, py.loads (strip s) ≠ .error (.other e)

theorem styleErrors_json {raw : Value py.Finite} {fieldName : String} :
    StyleErrors (parseJsonInput py raw fieldName) ↔ LoadsGood raw := by
  have hother : ∀ {raw : Value py.Finite}, (∀ s, raw ≠ .str s) → LoadsGood raw :=
    fun hraw s hs => absurd hs (hraw s)
  cases raw with
  | str s =>
    rw [LoadsGood, forall_str]
    dsimp only [parseJsonInput]
    split
    · rename_i hempty
      exact iff_of_true (styleErrors_ok _) fun hne => absurd (List.isEmpty_iff.mp hempty) hne
    · rename_i hempty
      rw [List.isEmpty_iff] at hempty
      split
      · rename_i v hv
        refine iff_of_true (styleErrors_ok _) fun _ e heq => ?_
        rw [hv] at heq
        cases heq
      · rename_i e he
        refine iff_of_true (styleErrors_style _) fun _ e' heq => ?_
        rw [he] at heq
        cases heq
      · rename_i e he
        exact iff_of_false (not_styleErrors e) fun hs => hs hempty e he
  | null => exact iff_of_true (styleErrors_ok _) (hother fun s hs => by cases hs)
  | bool b => exact iff_of_true (styleErrors_ok _) (hother fun s hs => by cases hs)
  | int n => exact iff_of_true (styleErrors_ok _) (hother fun s hs => by cases hs)
  | float x => exact iff_of_true (styleErrors_ok _) (hother fun s hs => by cases hs)
  | arr items => exact iff_of_true (styleErrors_ok _) (hother fun s hs => by cases hs)
  | obj members => exact iff_of_true (styleErrors_ok _) (hother fun s hs => by cases hs)

/-! ## The colormap -/

/-- A colormap as it is stored. -/
structure NormalColormap (colormap : Colormap) : Prop where
  normal : ∀ c ∈ colormap, Trimmed c.1 ∧ Hex c.2
  nodup : (colormap.map Prod.fst).Nodup

theorem lookup_eq_none {colormap : Colormap} {key : Text} :
    colormap.lookup key = none ↔ key ∉ colormap.map Prod.fst := by
  rw [List.lookup_eq_none_iff]
  constructor
  · intro h hmem
    obtain ⟨c, hc, rfl⟩ := List.mem_map.mp hmem
    exact absurd (h c hc) (by simp)
  · intro h c hc
    rw [bne_iff_ne]
    rintro rfl
    exact h (List.mem_map_of_mem hc)

theorem mem_of_lookup {colormap : Colormap} {key color : Text}
    (h : colormap.lookup key = some color) : (key, color) ∈ colormap := by
  obtain ⟨before, after, rfl, -⟩ := List.lookup_eq_some_iff.mp h
  exact List.mem_append_right _ List.mem_cons_self

theorem NormalColormap.append {colormap : Colormap} {key color : Text}
    (h : NormalColormap colormap) (hkey : Trimmed key) (hcolor : Hex color)
    (hnew : colormap.lookup key = none) : NormalColormap (colormap ++ [(key, color)]) := by
  refine ⟨fun c hc => ?_, ?_⟩
  · rcases List.mem_append.mp hc with hc | hc
    · exact h.normal c hc
    · rw [List.mem_singleton.mp hc]
      exact ⟨hkey, hcolor⟩
  · rw [List.map_append, List.map_singleton]
    exact h.nodup.append (List.nodup_singleton _)
      (List.disjoint_singleton.mpr (lookup_eq_none.mp hnew))

theorem normalColormap_nil : NormalColormap [] := ⟨fun _ hc => absurd hc List.not_mem_nil, .nil⟩

theorem NormalColormap.lookup {colormap : Colormap} (h : NormalColormap colormap) {key color : Text}
    (hlook : colormap.lookup key = some color) : Trimmed key ∧ Hex color :=
  h.normal (key, color) (mem_of_lookup hlook)

theorem styleErrors_entries (members : Members py.Finite) (out : Colormap) :
    StyleErrors (parseColormapEntries py members out) := by
  induction members generalizing out with
  | nil => exact styleErrors_ok _
  | cons m members ih =>
    rw [parseColormapEntries, (styleErrors_textKey _).bind_iff]
    intro key _
    split
    · exact styleErrors_style _
    · rw [(styleErrors_color _).bind_iff]
      exact fun color _ => ih _

theorem styleErrors_colormap (raw : Value py.Finite) : StyleErrors (parseColormapDict py raw) := by
  cases raw with
  | null => exact styleErrors_ok _
  | obj members => exact styleErrors_entries members []
  | _ => exact styleErrors_refuse _

theorem parseColormapEntries_normal {members : Members py.Finite} {out colormap : Colormap}
    (h : parseColormapEntries py members out = .ok colormap) (hout : NormalColormap out) :
    NormalColormap colormap := by
  induction members generalizing out with
  | nil =>
    cases h
    exact hout
  | cons m members ih =>
    rw [parseColormapEntries] at h
    obtain ⟨key, hkey, h⟩ := bind_eq_ok.mp h
    split at h
    · cases h
    · rename_i hnew
      obtain ⟨color, hcolor, h⟩ := bind_eq_ok.mp h
      exact ih h (hout.append (key_trimmed hkey) (hex_of_color hcolor)
        (Option.not_isSome_iff_eq_none.mp hnew))

theorem parseColormapDict_normal {raw : Value py.Finite} {colormap : Colormap}
    (h : parseColormapDict py raw = .ok colormap) : NormalColormap colormap := by
  cases raw with
  | null =>
    cases h
    exact normalColormap_nil
  | obj members => exact parseColormapEntries_normal h normalColormap_nil
  | _ => cases h

theorem parseColormapEntries_eq {out rest : Colormap} (h : NormalColormap (out ++ rest)) :
    parseColormapEntries py (rest.map fun c => (c.1, .str c.2)) out = .ok (out ++ rest) := by
  induction rest generalizing out with
  | nil =>
    rw [List.append_nil]
    rfl
  | cons c rest ih =>
    obtain ⟨hkey, hcolor⟩ := h.normal c (List.mem_append_right _ List.mem_cons_self)
    have hnew : out.lookup c.1 = none := by
      have hnodup := h.nodup
      rw [List.map_append, List.map_cons] at hnodup
      exact lookup_eq_none.mpr fun hmem =>
        List.disjoint_of_nodup_append hnodup hmem List.mem_cons_self
    rw [List.append_cons] at h ⊢
    rw [List.map_cons, parseColormapEntries, key_of_trimmed hkey]
    change (if _ then _ else _) = _
    rw [hnew, if_neg (by decide), color_of_hex hcolor]
    exact ih h

theorem parseColormapDict_eq {colormap : Colormap} (h : NormalColormap colormap) :
    parseColormapDict py (colormapValue py colormap) = .ok colormap := by
  have hnil : NormalColormap ([] ++ colormap) := h
  exact parseColormapEntries_eq hnil

/-! ## The classes -/

/-- A class as it is stored. -/
structure NormalEntry (entry : ClassEntry) : Prop where
  value : Trimmed entry.value
  name : Trimmed entry.name
  color : Hex entry.color

theorem styleErrors_body (label value : Text) (item : Members py.Finite) :
    StyleErrors (parseClassBody py label value item) := by
  have hname : StyleErrors (className py label item) := by
    unfold className
    split
    · split
      · exact styleErrors_classError _ _
      · exact styleErrors_ok _
    · exact styleErrors_classError _ _
  have hcolor : StyleErrors (classColor py label item) := by
    unfold classColor
    split
    · exact styleErrors_classError _ _
    · exact styleErrors_color _
  rw [parseClassBody, hname.bind_iff]
  intro name _
  rw [hcolor.bind_iff]
  exact fun color _ => styleErrors_ok _

theorem parseClassBody_normal {label value : Text} {item : Members py.Finite} {entry : ClassEntry}
    (h : parseClassBody py label value item = .ok entry) (hvalue : Trimmed value) :
    NormalEntry entry ∧ entry.value = value := by
  obtain ⟨name, hname, h⟩ := bind_eq_ok.mp h
  obtain ⟨color, hcolor, h⟩ := bind_eq_ok.mp h
  cases h
  refine ⟨⟨hvalue, ?_, ?_⟩, rfl⟩
  · unfold className at hname
    split at hname
    · split at hname
      · cases hname
      · cases hname
        exact trimmed_strip ‹_›
    · cases hname
  · unfold classColor at hcolor
    split at hcolor
    · cases hcolor
    · exact hex_of_color hcolor

theorem parseClassBody_eq {label : Text} {entry : ClassEntry} {item : Members py.Finite}
    (h : NormalEntry entry) (hname : get item "name" = .str entry.name)
    (hcolor : get item "color" = .str entry.color) :
    parseClassBody py label entry.value item = .ok entry := by
  have hn : className py label item = .ok entry.name := by
    rw [className, hname]
    change (if _ then _ else _) = _
    rw [if_neg h.name.not_isEmpty, h.name.2]
  have hc : classColor py label item = .ok entry.color := by
    rw [classColor, hcolor]
    exact color_of_hex h.color
  rw [parseClassBody, hn]
  change (classColor py label item >>= _) = _
  rw [hc]
  rfl

/-- An element of which `str` makes a text of the value. -/
def ItemGood (item : Value py.Finite) : Prop :=
  ∀ members raw, item = .obj members → members.lookup "value".toList = some raw → KeyGood raw

theorem styleErrors_item {i : Nat} {item : Value py.Finite} :
    StyleErrors (parseClassItem py i item) ↔ ItemGood item := by
  cases item with
  | obj members =>
    dsimp only [parseClassItem]
    cases hraw : members.lookup "value".toList with
    | none =>
      refine iff_of_true (styleErrors_classError _ _) fun ms raw hms hr => ?_
      cases hms
      rw [hraw] at hr
      cases hr
    | some raw =>
      dsimp only
      rw [styleErrors_bind, styleErrors_key, and_iff_left fun v _ => styleErrors_body _ v members]
      constructor
      · intro hgood ms r hms hr
        cases hms
        rw [hraw] at hr
        cases hr
        exact hgood
      · intro h
        exact h members raw rfl hraw
  | _ => exact iff_of_true (styleErrors_classError _ _) fun ms raw hms => by cases hms

theorem parseClassItem_normal {i : Nat} {item : Value py.Finite} {entry : ClassEntry}
    (h : parseClassItem py i item = .ok entry) : NormalEntry entry := by
  cases item with
  | obj members =>
    dsimp only [parseClassItem] at h
    split at h
    · cases h
    · obtain ⟨value, hvalue, h⟩ := bind_eq_ok.mp h
      exact (parseClassBody_normal h (key_trimmed hvalue)).1
  | _ => cases h

theorem parseClassItem_eq {i : Nat} {entry : ClassEntry} (h : NormalEntry entry) :
    parseClassItem py i (classValue py entry) = .ok entry := by
  change (normalizePixelValueKey py (.str entry.value) >>= _) = _
  rw [key_of_trimmed h.value]
  exact parseClassBody_eq h rfl rfl

/-- Every element is good, or stands after one that is refused. -/
def ItemsGood : Nat → List (Value py.Finite) → Prop
  | _, [] => True
  | i, item :: items =>
    ItemGood item ∧ ((∃ entry, parseClassItem py i item = .ok entry) → ItemsGood (i + 1) items)

theorem styleErrors_items {i : Nat} {items : List (Value py.Finite)} :
    StyleErrors ((items.zipIdx i).mapM fun item => parseClassItem py item.2 item.1) ↔
      ItemsGood i items := by
  induction items generalizing i with
  | nil => exact iff_of_true (styleErrors_ok _) trivial
  | cons item items ih =>
    rw [List.zipIdx_cons, List.mapM_cons, styleErrors_bind, styleErrors_item, ItemsGood]
    refine and_congr_right fun _ => ?_
    rw [← ih]
    constructor
    · rintro h ⟨entry, hentry⟩
      exact (styleErrors_bind.mp (h entry hentry)).1
    · intro h entry hentry
      rw [(h ⟨entry, hentry⟩).bind_iff]
      exact fun entries _ => styleErrors_ok _

/-- Elements of a list of classes of which `str` makes texts. -/
def ClassesGood (raw : Value py.Finite) : Prop := ∀ items, raw = .arr items → ItemsGood 0 items

theorem styleErrors_member (member : Text × Value py.Finite) :
    StyleErrors (parseClassMember py member) := by
  rw [parseClassMember, (styleErrors_textKey _).bind_iff]
  intro value _
  split
  · exact styleErrors_body _ _ _
  · exact styleErrors_classError _ _

theorem styleErrors_classes {raw : Value py.Finite} :
    StyleErrors (parseClassesList py raw) ↔ ClassesGood raw := by
  cases raw with
  | arr items =>
    refine styleErrors_items.trans ⟨fun h items' heq => ?_, fun h => h items rfl⟩
    cases heq
    exact h
  | obj members =>
    refine iff_of_true ?_ fun items heq => by cases heq
    change StyleErrors (members.mapM (parseClassMember py))
    induction members with
    | nil => exact styleErrors_ok _
    | cons m members ih =>
      rw [List.mapM_cons, (styleErrors_member m).bind_iff]
      intro entry _
      rw [ih.bind_iff]
      exact fun entries _ => styleErrors_ok _
  | null => exact iff_of_true (styleErrors_ok _) fun items heq => by cases heq
  | _ => exact iff_of_true (styleErrors_refuse _) fun items heq => by cases heq

theorem mapM_forall {α β : Type} {f : α → Except Exn β} {p : β → Prop} {l : List α} {bs : List β}
    (h : l.mapM f = .ok bs) (hp : ∀ a b, f a = .ok b → p b) : ∀ b ∈ bs, p b := by
  induction l generalizing bs with
  | nil =>
    cases h
    exact fun b hb => absurd hb List.not_mem_nil
  | cons a l ih =>
    rw [List.mapM_cons] at h
    obtain ⟨b, hb, h⟩ := bind_eq_ok.mp h
    obtain ⟨rest, hrest, h⟩ := bind_eq_ok.mp h
    cases h
    intro c hc
    rcases List.mem_cons.mp hc with rfl | hc
    · exact hp a c hb
    · exact ih hrest c hc

theorem parseClassesList_normal {raw : Value py.Finite} {classes : List ClassEntry}
    (h : parseClassesList py raw = .ok classes) : ∀ entry ∈ classes, NormalEntry entry := by
  cases raw with
  | null =>
    cases h
    exact fun entry hentry => absurd hentry List.not_mem_nil
  | arr items => exact mapM_forall h fun item entry => parseClassItem_normal
  | obj members =>
    refine mapM_forall h fun member entry hentry => ?_
    obtain ⟨value, hvalue, hentry⟩ := bind_eq_ok.mp hentry
    split at hentry
    · exact (parseClassBody_normal hentry (key_trimmed hvalue)).1
    · cases hentry
  | _ => cases h

theorem parseClassesList_eq {classes : List ClassEntry}
    (h : ∀ entry ∈ classes, NormalEntry entry) :
    parseClassesList py (classesValue py classes) = .ok classes := by
  change ((classes.map (classValue py)).zipIdx 0).mapM _ = _
  generalize (0 : Nat) = i
  induction classes generalizing i with
  | nil => rfl
  | cons entry classes ih =>
    rw [List.map_cons, List.zipIdx_cons, List.mapM_cons]
    refine bind_eq_ok.mpr ⟨entry, parseClassItem_eq (h entry List.mem_cons_self), ?_⟩
    exact bind_eq_ok.mpr ⟨classes, ih (fun e he => h e (List.mem_cons_of_mem _ he)) _, rfl⟩

end Style
end Geofastmap
