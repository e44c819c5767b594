import Mathlib.Data.Set.Finite.Basic
import Mathlib.Logic.Function.Basic
import Mathlib.Logic.Relation
import Geofastmap.Db.Table

/-!
# Geofastmap.Process.Permissions

Who sees and who edits a collection, and whose rows a user gets to read. The items of a composite
are those of its members, `PUT /collections/{id}` stores members without a look at them, and any
user who has logged in makes collections. `canRead_iff` says what is left of `can_see_collection`.
-/

namespace Geofastmap
namespace Process

open Db

inductive Visibility where
  | «private» | logged | «public»
deriving DecidableEq, Repr

inductive CollectionType where
  | vector | raster | composite
deriving DecidableEq, Repr

/-- A row of `collections`, without its texts. -/
structure Attrs where
  ownerId : Option Nat
  visibility : Visibility
  viewerCanEdit : Bool
  collectionType : CollectionType
  compositeMembers : List Text
deriving DecidableEq, Repr

/-- The collections that exist. -/
abbrev Collections := CollectionId → Option Attrs

structure User where
  id : Nat
  username : Text
  isAdmin : Bool
deriving DecidableEq, Repr

inductive Role where
  | viewer | editor
deriving DecidableEq, Repr

/-- The shares of collections, by collection and username. -/
abbrev Shares := CollectionId → Text → Option Role

namespace Shares

variable (shares : Shares) (c : CollectionId) (a : Attrs) (u : User)

/-- `get_share_role`. -/
def role : Option Role := if u.username.isEmpty then none else shares c u.username

/-- `can_see_collection`, for a user who has logged in. -/
def canSeeCollection : Bool :=
  if u.isAdmin then true
  else if a.visibility = .public then true
  else if a.visibility = .public ∨ a.visibility = .logged then true
  else if a.ownerId = some u.id then true
  else (shares.role c u).isSome

/-- `can_edit_collection`, for a user who has logged in. -/
def canEditCollection : Bool :=
  if u.isAdmin then true
  else if a.ownerId = some u.id then true
  else if shares.role c u = some .editor then true
  else a.viewerCanEdit && shares.canSeeCollection c a u

variable {shares c a u}

theorem canSee_of_owner (h : a.ownerId = some u.id) : shares.canSeeCollection c a u = true := by
  unfold canSeeCollection
  split_ifs <;> rfl

theorem canEdit_of_owner (h : a.ownerId = some u.id) : shares.canEditCollection c a u = true := by
  unfold canEditCollection
  split_ifs <;> rfl

/-- Whoever may edit a collection sees it. -/
theorem canSee_of_canEdit (h : shares.canEditCollection c a u = true) :
    shares.canSeeCollection c a u = true := by
  unfold canEditCollection at h
  split_ifs at h with hadmin howner hrole
  · simp [canSeeCollection, hadmin]
  · exact canSee_of_owner howner
  · unfold canSeeCollection
    split_ifs <;> simp [hrole]
  · exact (Bool.and_eq_true_iff.mp h).2

end Shares

/-! ## Requests on collections -/

/-- `_composite_members_json`. -/
def compositeMembersJson (members : List Text) : List Text :=
  (members.filter fun c => !c.isEmpty).map strip

/-- `composite_member_ids`. -/
def Attrs.compositeMemberIds (a : Attrs) : List CollectionId :=
  ((a.compositeMembers.filter fun c => !c.isEmpty).map strip).filter fun c => !c.isEmpty

/-- `validate_composite_members`. -/
def validateCompositeMembers (cs : Collections) (compositeId : CollectionId)
    (members : List Text) : Bool :=
  !members.isEmpty && decide members.Nodup && members.all fun c =>
    c != compositeId && (cs c).any fun a => a.collectionType == .vector

def collectionIdReserved : Text := "edit".toList

/-- What the requests set of the attributes. -/
inductive CollectionRequest where
  | create (id : CollectionId) (type : CollectionType) (members : List Text)
  | replace (id : CollectionId) (type : CollectionType) (members : List Text)
  | patch (id : CollectionId) (visibility : Option Visibility) (viewerCanEdit : Option Bool)
      (type : Option CollectionType) (members : Option (List Text))

def CollectionRequest.id : CollectionRequest → CollectionId
  | .create id _ _ => id
  | .replace id _ _ => id
  | .patch id _ _ _ _ => id

/-- Members are kept for a composite only. -/
def Attrs.setMembers (a : Attrs) (type : CollectionType) (members : List Text) : Attrs :=
  { a with collectionType := type, compositeMembers := if type = .composite then members else [] }

section

variable (shares : Shares) (u : User)

/-- The row that a request stores, `none` when it is refused. Only the members of a new composite,
and those of a collection that was a composite before a `PATCH`, are validated. -/
def CollectionRequest.stored (cs : Collections) : CollectionRequest → Option Attrs
  | .create id type members =>
    if id = collectionIdReserved ∨ (cs id).isSome then none
    else if type = .composite ∧ members ≠ [] ∧ !validateCompositeMembers cs id members then none
    else some (Attrs.setMembers ⟨some u.id, .private, false, .vector, []⟩ type
      (compositeMembersJson members))
  | .replace id type members =>
    (cs id).bind fun a =>
      if shares.canEditCollection id a u then
        some (a.setMembers type (compositeMembersJson members))
      else none
  | .patch id visibility viewerCanEdit type members =>
    (cs id).bind fun a =>
      if !shares.canEditCollection id a u then none
      else if a.collectionType = .composite ∧
          members.any fun ms => !validateCompositeMembers cs id ms then none
      else
        some (Attrs.setMembers
          { a with
            visibility := visibility.getD a.visibility
            viewerCanEdit := viewerCanEdit.getD a.viewerCanEdit }
          (type.getD a.collectionType)
          ((members.map compositeMembersJson).getD a.compositeMembers))

/-- One request on the collections. -/
def Changes (cs cs' : Collections) : Prop :=
  ∃ request a, CollectionRequest.stored shares u cs request = some a ∧
    cs' = Function.update cs request.id (some a)

/-- The collections whose rows the item routes of `c` answer with: its own, which `get_item` reads
also of a composite, and those of its members. -/
def shown (cs : Collections) (c : CollectionId) : List CollectionId :=
  match cs c with
  | none => []
  | some a =>
    if shares.canSeeCollection c a u then
      c :: if a.collectionType = .composite then a.compositeMemberIds else []
    else []

/-- The user is shown the rows of `c`, now or after some requests. -/
def CanRead (cs : Collections) (c : CollectionId) : Prop :=
  ∃ cs', Relation.ReflTransGen (Changes shares u) cs cs' ∧ ∃ d, c ∈ shown shares u cs' d

end

section

variable {shares : Shares} {u : User} {cs cs' : Collections} {c : CollectionId}

theorem strip_of_mem_memberIds {a : Attrs} (h : c ∈ a.compositeMemberIds) : strip c = c := by
  obtain ⟨raw, -, rfl⟩ := List.mem_map.mp (List.mem_of_mem_filter h)
  exact strip_strip raw

/-- A request that is accepted makes a collection, or changes one that its user may edit. -/
theorem stored_cases {request : CollectionRequest} {a : Attrs}
    (h : CollectionRequest.stored shares u cs request = some a) :
    cs request.id = none ∨
      ∃ b, cs request.id = some b ∧ shares.canEditCollection request.id b u = true := by
  cases request with
  | create id type members =>
    left
    simp only [CollectionRequest.stored] at h
    split at h
    · cases h
    next hfree => simpa [CollectionRequest.id] using (not_or.mp hfree).2
  | replace id type members =>
    right
    obtain ⟨b, hb, h⟩ := Option.bind_eq_some_iff.mp h
    split at h
    next hedit => exact ⟨b, hb, hedit⟩
    · cases h
  | patch id visibility viewerCanEdit type members =>
    right
    obtain ⟨b, hb, h⟩ := Option.bind_eq_some_iff.mp h
    split at h
    · cases h
    next hedit => exact ⟨b, hb, by simpa [CollectionRequest.id] using hedit⟩

/-- The collection exists and its items are not shown to the user. -/
def Hidden (shares : Shares) (u : User) (cs : Collections) (c : CollectionId) : Prop :=
  ∃ a, cs c = some a ∧ shares.canSeeCollection c a u = false

/-- A collection stays hidden, whatever the user asks for. -/
theorem hidden_changes (h : Changes shares u cs cs') (hc : Hidden shares u cs c) :
    Hidden shares u cs' c := by
  obtain ⟨request, a, hstored, rfl⟩ := h
  obtain ⟨b, hb, hsee⟩ := hc
  have hne : c ≠ request.id := by
    rintro rfl
    rcases stored_cases hstored with hnone | ⟨b', hb', hedit⟩
    · rw [hnone] at hb
      cases hb
    · rw [hb] at hb'
      cases hb'
      rw [Shares.canSee_of_canEdit hedit] at hsee
      cases hsee
  exact ⟨b, by rw [Function.update_of_ne hne, hb], hsee⟩

theorem hidden_run (h : Relation.ReflTransGen (Changes shares u) cs cs')
    (hc : Hidden shares u cs c) : Hidden shares u cs' c := by
  induction h with
  | refl => exact hc
  | tail _ hstep ih => exact hidden_changes hstep ih

theorem not_shown_of_hidden (hc : Hidden shares u cs c) (hstrip : strip c ≠ c)
    (d : CollectionId) : c ∉ shown shares u cs d := by
  intro h
  unfold shown at h
  split at h
  · cases h
  next a ha =>
    split at h
    next hsee =>
      rcases List.mem_cons.mp h with rfl | h
      · obtain ⟨b, hb, hnot⟩ := hc
        rw [ha] at hb
        cases hb
        rw [hsee] at hnot
        cases hnot
      · split at h
        · exact hstrip (strip_of_mem_memberIds h)
        · cases h
    · cases h

/-- A composite of the user's own shows any collection: it is made empty, and gets its member by a
`PUT`. -/
theorem canRead_of_stripped (hfinite : {d | cs d ≠ none}.Finite) (hstrip : strip c = c)
    (hne : c ≠ []) : CanRead shares u cs c := by
  obtain ⟨d, hd⟩ := (hfinite.union (Set.finite_singleton collectionIdReserved)).exists_notMem
  obtain ⟨hfree, hreserved⟩ := not_or.mp hd
  have hnone : cs d = none := by simpa using hfree
  let mine : Attrs := ⟨some u.id, .private, false, .composite, []⟩
  let made := Function.update cs d (some mine)
  let full : Attrs := { mine with compositeMembers := [c] }
  have hmake : Changes shares u cs made := by
    refine ⟨.create d .composite [], mine, ?_, rfl⟩
    have hid : d ≠ collectionIdReserved := hreserved
    simp [CollectionRequest.stored, hnone, hid, Attrs.setMembers, compositeMembersJson, mine]
  have hput : Changes shares u made (Function.update made d (some full)) := by
    refine ⟨.replace d .composite [c], full, ?_, rfl⟩
    have hedit : shares.canEditCollection d mine u = true := Shares.canEdit_of_owner rfl
    simp [CollectionRequest.stored, made, hedit, Attrs.setMembers, compositeMembersJson, hne,
      hstrip, full, mine]
  refine ⟨_, .tail (.single hmake) hput, d, ?_⟩
  have hsee : shares.canSeeCollection d full u = true := Shares.canSee_of_owner rfl
  simp [shown, hsee, full, mine, Attrs.compositeMemberIds, hne, hstrip]

/-- The rows of a collection can be read by whoever sees it, and else by everyone, unless there is
white space at an end of its id. -/
theorem canRead_iff (hfinite : {d | cs d ≠ none}.Finite) {a : Attrs} (ha : cs c = some a)
    (hne : c ≠ []) :
    CanRead shares u cs c ↔ shares.canSeeCollection c a u = true ∨ strip c = c := by
  constructor
  · rintro ⟨cs', hrun, d, hshown⟩
    by_contra hno
    obtain ⟨hsee, hstrip⟩ := not_or.mp hno
    have hhidden : Hidden shares u cs c := ⟨a, ha, by simpa using hsee⟩
    exact not_shown_of_hidden (hidden_run hrun hhidden) hstrip d hshown
  · rintro (hsee | hstrip)
    · exact ⟨cs, .refl, c, by simp [shown, ha, hsee]⟩
    · exact canRead_of_stripped hfinite hstrip hne

end

end Process
end Geofastmap
