import Geofastmap.Share.Grants

/-!
# Geofastmap.Share.Listing

Who sees and who edits a resource: the checks of `core/permissions.py`, and the `WHERE` clauses with
which `list_collections`, `list_maps` and `list_views_visible_to_user` restrict what they list.

The clauses ask only whether there is a share; the checks read its role and could raise. After every
sequence of calls that share and unshare they say the same (`listings_agree`).
-/

namespace Geofastmap
namespace Share

open Import Interleave
open Process (Role User Visibility)

/-- The columns of a collection, a map or a raster view that permissions look at. -/
structure Resource where
  id : Text
  ownerId : Option Nat
  visibility : Visibility
  viewerCanEdit : Bool

/-! ## The checks -/

section
variable (shares : List ResourceShare)

/-- `role in (ROLE_VIEWER, ROLE_EDITOR)`. -/
def isRole (role : Option Text) : Bool := role == some roleViewer || role == some roleEditor

/-- `can_see_collection`. -/
def canSeeCollection (r : Resource) (user : Option User) : Except Raised Bool :=
  match user with
  | none => .ok (decide (r.visibility = .public))
  | some u =>
    if u.isAdmin then .ok true
    else if r.visibility = .public then .ok true
    else if r.visibility = .public ∨ r.visibility = .logged then .ok true
    else if r.ownerId = some u.id then .ok true
    else do return isRole (← getShareRole shares .collection r.id u.username)

/-- `can_see_map` and `can_see_raster_view`, for the type of the resource. -/
def canSee (ty : ResourceType) (r : Resource) (user : Option User) : Except Raised Bool :=
  if user.any User.isAdmin then .ok true
  else if r.visibility = .public then .ok true
  else
    match user with
    | none => .ok false
    | some u =>
      if r.visibility = .logged then .ok true
      else if r.ownerId = some u.id then .ok true
      else do return isRole (← getShareRole shares ty r.id u.username)

def canSeeMap : Resource → Option User → Except Raised Bool := canSee shares .map

def canSeeRasterView : Resource → Option User → Except Raised Bool := canSee shares .rasterView

/-- `can_edit_collection`. -/
def canEditCollection (r : Resource) (user : Option User) : Except Raised Bool :=
  match user with
  | none => .ok false
  | some u =>
    if u.isAdmin then .ok true
    else if r.ownerId = some u.id then .ok true
    else do
      let role ← getShareRole shares .collection r.id u.username
      if role = some roleEditor then return true
      else if r.viewerCanEdit then canSeeCollection shares r user
      else return false

/-- `can_edit_map`, which reads the visibility and `viewer_can_edit` of the map. -/
def canEditMap (r : Resource) (user : Option User) : Except Raised Bool :=
  match user with
  | none => .ok false
  | some u =>
    if u.isAdmin then .ok true
    else if r.ownerId = some u.id then .ok true
    else do
      let role ← getShareRole shares .map r.id u.username
      if role = some roleEditor then return true
      else if r.viewerCanEdit then canSeeMap shares r user
      else return false

/-- `can_edit_raster_view`. -/
def canEditRasterView (r : Resource) (user : Option User) : Except Raised Bool :=
  match user with
  | none => .ok false
  | some u =>
    if u.isAdmin then .ok true
    else if r.ownerId = some u.id then .ok true
    else do
      let role ← getShareRole shares .rasterView r.id u.username
      return decide (role = some roleEditor)

/-! ## The lists -/

/-- The clause for the rows that a user is shown; an administrator is shown all. -/
def visible (ty : ResourceType) (user : Option User) (r : Resource) : Bool :=
  match user with
  | none => decide (r.visibility = .public)
  | some u =>
    u.isAdmin || decide (r.visibility = .public ∨ r.visibility = .logged) ||
      decide (r.ownerId = some u.id) || !(select shares ty r.id u.username).isEmpty

/-- What a list is asked for besides: its filters, which do not look at the user, the order, and
the page. -/
structure Request where
  keeps : Resource → Bool
  arrange : List Resource → List Resource
  limit : Option Nat
  offset : Nat

/-- The page and the count of the rows that are left. -/
def Request.page (q : Request) (rows : List Resource) : List Resource × Nat :=
  let rest := (q.arrange rows).drop q.offset
  (match q.limit with
    | none => rest
    | some limit => rest.take limit, rows.length)

/-- `list_collections`. -/
def listCollections (onlyPublic : Bool) (user : Option User) (q : Request)
    (collections : List Resource) : List Resource × Nat :=
  q.page (collections.filter fun r =>
    q.keeps r &&
      if onlyPublic then decide (r.visibility = .public) else visible shares .collection user r)

/-- `list_maps`, which has no count. -/
def listMaps (user : Option User) (q : Request) (maps : List Resource) : List Resource :=
  (q.page (maps.filter fun r => q.keeps r && visible shares .map user r)).1

/-- `list_views_visible_to_user`. -/
def listViews (mineOnly : Bool) (user : Option User) (q : Request) (views : List Resource) :
    List Resource × Nat :=
  q.page (views.filter fun r =>
    q.keeps r &&
      match mineOnly, user with
      | true, some u => decide (r.ownerId = some u.id)
      | _, _ => visible shares .rasterView user r)

/-- The lists hold what the checks let a user see, and who may edit may see. No check raises. -/
structure Agree : Prop where
  collections : ∀ user, ∃ see : Resource → Bool,
    (∀ r, canSeeCollection shares r user = .ok (see r)) ∧
      (∀ r, ∃ edit, canEditCollection shares r user = .ok edit ∧ (edit = true → see r = true)) ∧
      ∀ onlyPublic q rows, listCollections shares onlyPublic user q rows =
        q.page (rows.filter fun r =>
          q.keeps r && see r && (!onlyPublic || decide (r.visibility = .public)))
  maps : ∀ user, ∃ see : Resource → Bool,
    (∀ r, canSeeMap shares r user = .ok (see r)) ∧
      (∀ r, ∃ edit, canEditMap shares r user = .ok edit ∧ (edit = true → see r = true)) ∧
      ∀ q rows, listMaps shares user q rows =
        (q.page (rows.filter fun r => q.keeps r && see r)).1
  views : ∀ user, ∃ see : Resource → Bool,
    (∀ r, canSeeRasterView shares r user = .ok (see r)) ∧
      (∀ r, ∃ edit, canEditRasterView shares r user = .ok edit ∧ (edit = true → see r = true)) ∧
      ∀ mineOnly q rows, listViews shares mineOnly user q rows =
        q.page (rows.filter fun r =>
          q.keeps r && see r &&
            (!mineOnly || user.all fun u => decide (r.ownerId = some u.id)))

end

/-! ## They agree -/

section
variable {shares : List ResourceShare} (h : Granted shares)
include h

/-- A share is a role, and a role is a share. -/
theorem getShareRole_isRole (ty : ResourceType) (rid username : Text) :
    ∃ role, getShareRole shares ty rid username = .ok role ∧
      isRole role = !(select shares ty rid username).isEmpty ∧
      (role = some roleEditor → isRole role = true) := by
  refine ⟨_, getShareRole_grants h ty rid username, ?_, ?_⟩
  · unfold grants
    cases select shares ty rid username with
    | nil => rfl
    | cons s rest => cases hrole : roleOf s.role <;> simp [hrole, isRole, roleText]
  · intro hrole
    rw [hrole]
    simp [isRole]

theorem canSee_visible (ty : ResourceType) (r : Resource) (user : Option User) :
    canSee shares ty r user = .ok (visible shares ty user r) := by
  unfold canSee visible
  cases user with
  | none => by_cases hpublic : r.visibility = .public <;> simp [hpublic]
  | some u =>
    obtain ⟨role, hrole, his, -⟩ := getShareRole_isRole h ty r.id u.username
    simp only [hrole, Option.any_some]
    cases u.isAdmin with
    | true => simp
    | false =>
      by_cases hpublic : r.visibility = .public
      · simp [hpublic]
      · by_cases hlogged : r.visibility = .logged
        · simp [hlogged]
        · by_cases howner : r.ownerId = some u.id
          · simp [hpublic, hlogged, howner]
          · simp only [hpublic, hlogged, howner, Bool.false_eq_true, if_false, or_self,
              decide_false, Bool.false_or, ← his]
            rfl

theorem canSeeCollection_visible (r : Resource) (user : Option User) :
    canSeeCollection shares r user = .ok (visible shares .collection user r) := by
  rw [← canSee_visible h]
  unfold canSeeCollection canSee
  cases user with
  | none => by_cases hpublic : r.visibility = .public <;> simp [hpublic]
  | some u =>
    simp only [Option.any_some]
    by_cases hpublic : r.visibility = .public
    · simp [hpublic]
    · simp [hpublic]

omit h in
/-- What owner and administrator need no share for. -/
theorem visible_of_owner {ty : ResourceType} {r : Resource} {u : User}
    (hu : u.isAdmin = true ∨ r.ownerId = some u.id) : visible shares ty (some u) r = true := by
  unfold visible
  rcases hu with hu | hu
  · simp [hu]
  · simp [hu]

omit h in
theorem visible_of_public {ty : ResourceType} {r : Resource} {user : Option User}
    (hr : r.visibility = .public) : visible shares ty user r = true := by
  unfold visible
  cases user with
  | none => simp [hr]
  | some u => simp [hr]

theorem visible_of_editor {ty : ResourceType} {r : Resource} {u : User}
    (hrole : getShareRole shares ty r.id u.username = .ok (some roleEditor)) :
    visible shares ty (some u) r = true := by
  obtain ⟨role, hok, his, heditor⟩ := getShareRole_isRole h ty r.id u.username
  rw [hrole] at hok
  cases hok
  simp only [visible, ← his, heditor rfl, Bool.or_true]

/-- The table is the map of shares under which jobs are isolated. -/
theorem shares_of_grants (r : Resource) (u : User) (type : Process.CollectionType)
    (members : List Text) :
    Process.Shares.canSeeCollection (grants shares .collection) r.id
      ⟨r.ownerId, r.visibility, r.viewerCanEdit, type, members⟩ u =
        visible shares .collection (some u) r := by
  obtain ⟨role, hrole, his, -⟩ := getShareRole_isRole h .collection r.id u.username
  have hgrants : (grants shares .collection r.id u.username).isSome =
      !(select shares .collection r.id u.username).isEmpty := by
    unfold grants
    cases select shares .collection r.id u.username <;> rfl
  unfold Process.Shares.canSeeCollection Process.Shares.role visible
  by_cases hname : u.username = []
  · rw [getShareRole, if_pos hname] at hrole
    cases hrole
    simp only [hname, List.isEmpty_nil, if_true, Option.isSome_none]
    rw [hname] at his
    rw [← his]
    cases u.isAdmin <;> by_cases hp : r.visibility = .public <;>
      by_cases hl : r.visibility = .logged <;> by_cases ho : r.ownerId = some u.id <;>
      simp [hp, hl, ho, isRole]
  · have hempty : u.username.isEmpty = false := by simpa using hname
    simp only [hempty, Bool.false_eq_true, if_false, hgrants]
    cases u.isAdmin <;> by_cases hp : r.visibility = .public <;>
      by_cases hl : r.visibility = .logged <;> by_cases ho : r.ownerId = some u.id <;>
      simp [hp, hl, ho]

/-- Whoever may edit a collection or a map sees it. -/
theorem edit_visible {ty : ResourceType} {r : Resource} {user : Option User}
    {edit : Except Raised Bool}
    (hedit : edit = match user with
      | none => .ok false
      | some u =>
        if u.isAdmin then .ok true
        else if r.ownerId = some u.id then .ok true
        else do
          let role ← getShareRole shares ty r.id u.username
          if role = some roleEditor then return true
          else if r.viewerCanEdit then Except.ok (visible shares ty user r)
          else return false) :
    ∃ b, edit = .ok b ∧ (b = true → visible shares ty user r = true) := by
  cases user with
  | none => exact ⟨false, hedit, by simp⟩
  | some u =>
    dsimp only at hedit
    split at hedit
    · rename_i hadmin
      exact ⟨true, hedit, fun _ => visible_of_owner (Or.inl hadmin)⟩
    · split at hedit
      · rename_i howner
        exact ⟨true, hedit, fun _ => visible_of_owner (Or.inr howner)⟩
      · obtain ⟨role, hrole, -⟩ := getShareRole_isRole h ty r.id u.username
        rw [hrole] at hedit
        by_cases heditor : role = some roleEditor
        · subst heditor
          exact ⟨true, hedit, fun _ => visible_of_editor h hrole⟩
        · cases hcan : r.viewerCanEdit with
          | true =>
            refine ⟨visible shares ty (some u) r, ?_, id⟩
            rw [hedit]
            simp [bind, Except.bind, heditor, hcan]
          | false =>
            refine ⟨false, ?_, by simp⟩
            rw [hedit]
            simp [bind, Except.bind, heditor, hcan, pure, Except.pure]

theorem Granted.agree : Agree shares where
  collections user := by
    refine ⟨visible shares .collection user, fun r => canSeeCollection_visible h r user,
      fun r => edit_visible h ?_, fun onlyPublic q rows => ?_⟩
    · unfold canEditCollection
      rw [canSeeCollection_visible h]
    · unfold listCollections
      congr 1
      refine List.filter_congr fun r _ => ?_
      cases onlyPublic with
      | false => simp
      | true =>
        by_cases hpublic : r.visibility = .public
        · simp [hpublic, visible_of_public hpublic]
        · simp [hpublic]
  maps user := by
    refine ⟨visible shares .map user, fun r => canSee_visible h .map r user,
      fun r => edit_visible h ?_, fun q rows => rfl⟩
    unfold canEditMap canSeeMap
    rw [canSee_visible h]
  views user := by
    refine ⟨visible shares .rasterView user, fun r => canSee_visible h .rasterView r user,
      fun r => ?_, fun mineOnly q rows => ?_⟩
    · unfold canEditRasterView
      cases user with
      | none => exact ⟨false, rfl, by simp⟩
      | some u =>
        dsimp only
        split
        · rename_i hadmin
          exact ⟨true, rfl, fun _ => visible_of_owner (Or.inl hadmin)⟩
        · split
          · rename_i howner
            exact ⟨true, rfl, fun _ => visible_of_owner (Or.inr howner)⟩
          · obtain ⟨role, hrole, -⟩ := getShareRole_isRole h .rasterView r.id u.username
            rw [hrole]
            refine ⟨decide (role = some roleEditor), rfl, fun heditor => ?_⟩
            rw [of_decide_eq_true heditor] at hrole
            exact visible_of_editor h hrole
    · unfold listViews
      congr 1
      refine List.filter_congr fun r _ => ?_
      cases mineOnly with
      | false => simp
      | true =>
        cases user with
        | none => simp
        | some u =>
          by_cases howner : r.ownerId = some u.id
          · simp [howner, visible_of_owner (Or.inr howner)]
          · simp [howner]

end

/-- After every sequence of calls that add, remove and read shares, the lists of collections, maps
and raster views hold what the checks let a user see, whatever else they are asked for. -/
theorem listings_agree {users : List User} (hunique : (users.map User.username).Nodup)
    (ops : List Op) : Agree (after (step users) [] ops) :=
  Granted.agree (granted_after hunique ops)

theorem listings_agree_alice : Agree (after (step [alice]) [] aliceOps) :=
  listings_agree (by simp) aliceOps

end Share
end Geofastmap
