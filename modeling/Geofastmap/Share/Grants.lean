import Geofastmap.Import.Json
import Geofastmap.Interleave.Refine
import Geofastmap.Items.Rows
import Geofastmap.Process.Permissions

/-!
# Geofastmap.Share.Grants

The shares of resources: `crud/resource_share.py` and `get_share_role` of `core/permissions.py`.

`Granted` is the invariant of the table: one share for each resource and username, a role that is
`viewer` or `editor`, and no share without a username. With it the table is a map from resources and
usernames to roles, and every sequence of calls reads and writes that map (`shares_trace`).
-/

namespace Geofastmap
namespace Share

open Import Interleave
open Process (Role User)

inductive ResourceType where
  | collection | map | style | rasterView
deriving DecidableEq, Repr

structure ResourceShare where
  resourceType : ResourceType
  resourceId : Text
  username : Text
  role : Text
deriving DecidableEq, Repr

def roleViewer : Text := "viewer".toList

def roleEditor : Text := "editor".toList

/-- `sqlalchemy.exc.MultipleResultsFound`. -/
def multipleResultsFound : Raised :=
  ("MultipleResultsFound".toList, "Multiple rows were found when one or none was required".toList)

/-- `scalar_one_or_none`. -/
def scalarOneOrNone {α : Type} : List α → Except Raised (Option α)
  | [] => .ok none
  | [a] => .ok (some a)
  | _ :: _ :: _ => .error multipleResultsFound

def ResourceShare.is (ty : ResourceType) (rid username : Text) (s : ResourceShare) : Bool :=
  decide (s.resourceType = ty) && decide (s.resourceId = rid) && decide (s.username = username)

/-- The shares of a resource with a user. -/
def select (shares : List ResourceShare) (ty : ResourceType) (rid username : Text) :
    List ResourceShare := shares.filter (ResourceShare.is ty rid username)

/-- `get_user_by_username`. -/
def getUserByUsername (users : List User) (username : Text) : Except Raised (Option User) :=
  if strip username = [] then .ok none
  else scalarOneOrNone (users.filter fun u => decide (u.username = strip username))

/-- `get_share_role`. -/
def getShareRole (shares : List ResourceShare) (ty : ResourceType) (rid username : Text) :
    Except Raised (Option Text) :=
  if username = [] then .ok none
  else do
    let row ← scalarOneOrNone (select shares ty rid username)
    match row with
    | none => return none
    | some s => return if s.role = [] then none else some s.role

/-- `role if role in (ROLE_VIEWER, ROLE_EDITOR) else ROLE_VIEWER`. -/
def knownRole (role : Text) : Text :=
  if role = roleViewer ∨ role = roleEditor then role else roleViewer

/-- `add_share`. -/
def addShare (users : List User) (shares : List ResourceShare) (ty : ResourceType)
    (rid username role : Text) : Except Raised (Option ResourceShare × List ResourceShare) := do
  let user ← getUserByUsername users (strip username)
  match user with
  | none => return (none, shares)
  | some user =>
    let row ← scalarOneOrNone (select shares ty rid user.username)
    let share : ResourceShare := ⟨ty, rid, user.username, knownRole role⟩
    match row with
    | some _ =>
      return (some share, shares.map fun s => if s.is ty rid user.username then share else s)
    | none => return (some share, shares ++ [share])

/-- `remove_share`. -/
def removeShare (shares : List ResourceShare) (ty : ResourceType) (rid username : Text) :
    Except Raised (Bool × List ResourceShare) := do
  let row ← scalarOneOrNone (select shares ty rid (strip username))
  match row with
  | none => return (false, shares)
  | some _ => return (true, shares.filter fun s => !s.is ty rid (strip username))

inductive Op where
  | add (ty : ResourceType) (rid username role : Text)
  | remove (ty : ResourceType) (rid username : Text)
  | role (ty : ResourceType) (rid username : Text)

inductive Outcome where
  | raised (e : Raised)
  /-- The username and the role of a share that was set, if there is such a user. -/
  | added (share : Option (Text × Text))
  | removed (found : Bool)
  | role (role : Option Text)
deriving DecidableEq

/-- One call. A call that raises leaves the table as it was. -/
def step (users : List User) (shares : List ResourceShare) : Op → Outcome × List ResourceShare
  | .add ty rid username role =>
    match addShare users shares ty rid username role with
    | .error e => (.raised e, shares)
    | .ok (share, shares') => (.added (share.map fun s => (s.username, s.role)), shares')
  | .remove ty rid username =>
    match removeShare shares ty rid username with
    | .error e => (.raised e, shares)
    | .ok (found, shares') => (.removed found, shares')
  | .role ty rid username =>
    match getShareRole shares ty rid username with
    | .error e => (.raised e, shares)
    | .ok role => (.role role, shares)

/-! ## The map of grants -/

/-- Who has which role for a resource. -/
abbrev Grants := ResourceType → Text → Text → Option Role

def Grants.set (g : Grants) (ty : ResourceType) (rid username : Text) (role : Option Role) :
    Grants := fun ty' rid' username' =>
  if ty' = ty ∧ rid' = rid ∧ username' = username then role else g ty' rid' username'

def roleText : Role → Text
  | .viewer => roleViewer
  | .editor => roleEditor

/-- A text that is not a role is that of a viewer. -/
def roleOf (role : Text) : Role := if role = roleEditor then .editor else .viewer

/-- What a call does to the map. -/
inductive Meaning (users : List User) (g : Grants) : Op → Outcome → Grants → Prop where
  | added {ty : ResourceType} {rid username role : Text} {u : User} (hu : u ∈ users)
      (hname : u.username = strip (strip username)) (hne : u.username ≠ []) :
      Meaning users g (.add ty rid username role)
        (.added (some (u.username, roleText (roleOf role))))
        (g.set ty rid u.username (some (roleOf role)))
  | unknown {ty : ResourceType} {rid username role : Text}
      (h : ∀ u ∈ users, u.username ≠ [] → u.username ≠ strip (strip username)) :
      Meaning users g (.add ty rid username role) (.added none) g
  | removed {ty : ResourceType} {rid username : Text} :
      Meaning users g (.remove ty rid username)
        (.removed (g ty rid (strip username)).isSome)
        (g.set ty rid (strip username) none)
  | role {ty : ResourceType} {rid username : Text} :
      Meaning users g (.role ty rid username) (.role ((g ty rid username).map roleText)) g

structure Granted (shares : List ResourceShare) : Prop where
  unique : ∀ ty rid username, (select shares ty rid username).length ≤ 1
  role : ∀ s ∈ shares, s.role = roleViewer ∨ s.role = roleEditor
  named : ∀ s ∈ shares, s.username ≠ []

/-- The table as a map. -/
def grants (shares : List ResourceShare) : Grants := fun ty rid username =>
  (select shares ty rid username).head?.map fun s => roleOf s.role

theorem roleText_roleOf {role : Text} (h : role = roleViewer ∨ role = roleEditor) :
    roleText (roleOf role) = role := by
  rcases h with rfl | rfl
  · rfl
  · rfl

theorem roleText_knownRole (role : Text) : roleText (roleOf role) = knownRole role := by
  unfold roleOf knownRole
  by_cases he : role = roleEditor
  · simp [he, roleText]
  · by_cases hv : role = roleViewer
    · subst hv
      rfl
    · simp [he, hv, roleText]

theorem roleOf_knownRole (role : Text) : roleOf (knownRole role) = roleOf role := by
  rw [← roleText_knownRole]
  cases roleOf role with
  | viewer => rfl
  | editor => rfl

theorem knownRole_known (role : Text) :
    knownRole role = roleViewer ∨ knownRole role = roleEditor := by
  unfold knownRole
  split
  · assumption
  · exact Or.inl rfl

section
variable {shares : List ResourceShare} {ty ty' : ResourceType} {rid rid' username username' : Text}

theorem is_iff {s : ResourceShare} : s.is ty rid username = true ↔
    s.resourceType = ty ∧ s.resourceId = rid ∧ s.username = username := by
  simp [ResourceShare.is, and_assoc]

/-- There is one share or none. -/
theorem Granted.select_cases (h : Granted shares) (ty : ResourceType) (rid username : Text) :
    select shares ty rid username = [] ∨ ∃ s ∈ shares, s.is ty rid username = true ∧
      select shares ty rid username = [s] := by
  have hlen := h.unique ty rid username
  cases hs : select shares ty rid username with
  | nil => exact Or.inl rfl
  | cons s rest =>
    cases rest with
    | nil =>
      have hmem : s ∈ select shares ty rid username := hs ▸ List.mem_cons_self
      obtain ⟨hmem, his⟩ := List.mem_filter.mp hmem
      exact Or.inr ⟨s, hmem, his, rfl⟩
    | cons s' rest =>
      rw [hs] at hlen
      simp at hlen

theorem select_append (more : List ResourceShare) :
    select (shares ++ more) ty rid username =
      select shares ty rid username ++ select more ty rid username := List.filter_append ..

/-- A share of another resource or user is not selected. -/
theorem select_other {s : ResourceShare} (hs : s.is ty rid username = true)
    (hne : ¬ (ty' = ty ∧ rid' = rid ∧ username' = username)) :
    s.is ty' rid' username' = false := by
  rw [Bool.eq_false_iff]
  intro h
  obtain ⟨h1, h2, h3⟩ := is_iff.mp hs
  obtain ⟨h1', h2', h3'⟩ := is_iff.mp h
  exact hne ⟨h1'.symm.trans h1, h2'.symm.trans h2, h3'.symm.trans h3⟩

theorem select_self {s : ResourceShare} (hs : s.is ty rid username = true) :
    select [s] ty rid username = [s] := by
  simp [select, hs]

/-- The table with one share in place of those of its resource and user. -/
theorem select_replace {share : ResourceShare} (hshare : share.is ty rid username = true) :
    select (shares.map fun s => if s.is ty rid username then share else s) ty' rid' username' =
      if ty' = ty ∧ rid' = rid ∧ username' = username then
        (select shares ty rid username).map fun _ => share
      else select shares ty' rid' username' := by
  induction shares with
  | nil => simp [select]
  | cons s rest ih =>
    unfold select at ih ⊢
    rw [List.map_cons, List.filter_cons, ih, List.filter_cons, List.filter_cons]
    by_cases hsame : ty' = ty ∧ rid' = rid ∧ username' = username
    · obtain ⟨rfl, rfl, rfl⟩ := hsame
      cases hs : s.is ty' rid' username' with
      | true => simp [hshare]
      | false => simp [hs]
    · cases hs : s.is ty rid username with
      | true => simp [hsame, select_other hshare hsame, select_other hs hsame]
      | false => simp [hsame]

theorem select_remove :
    select (shares.filter fun s => !s.is ty rid username) ty' rid' username' =
      if ty' = ty ∧ rid' = rid ∧ username' = username then []
      else select shares ty' rid' username' := by
  unfold select
  rw [List.filter_filter]
  by_cases hsame : ty' = ty ∧ rid' = rid ∧ username' = username
  · obtain ⟨rfl, rfl, rfl⟩ := hsame
    rw [if_pos ⟨rfl, rfl, rfl⟩]
    simp
  · rw [if_neg hsame]
    refine List.filter_congr fun s _ => ?_
    cases hs : s.is ty' rid' username' with
    | false => rfl
    | true => rw [select_other hs fun h => hsame ⟨h.1.symm, h.2.1.symm, h.2.2.symm⟩]; rfl

/-! ## What each call does -/

theorem grants_replace {s share : ResourceShare} (hshare : share.is ty rid username = true)
    (hs : select shares ty rid username = [s]) :
    grants (shares.map fun s => if s.is ty rid username then share else s) =
      (grants shares).set ty rid username (some (roleOf share.role)) := by
  funext ty' rid' username'
  rw [grants, Grants.set, select_replace hshare]
  split
  · simp [hs]
  · rfl

theorem grants_append {share : ResourceShare} (hshare : share.is ty rid username = true)
    (hs : select shares ty rid username = []) :
    grants (shares ++ [share]) =
      (grants shares).set ty rid username (some (roleOf share.role)) := by
  funext ty' rid' username'
  rw [grants, Grants.set, select_append]
  split
  · rename_i hsame
    obtain ⟨rfl, rfl, rfl⟩ := hsame
    rw [hs, select_self hshare]
    rfl
  · rename_i hsame
    simp [select, select_other hshare hsame, grants]

theorem grants_remove :
    grants (shares.filter fun s => !s.is ty rid username) =
      (grants shares).set ty rid username none := by
  funext ty' rid' username'
  rw [grants, Grants.set, select_remove]
  split
  · rfl
  · rfl

theorem set_none (h : grants shares ty rid username = none) :
    (grants shares).set ty rid username none = grants shares := by
  funext ty' rid' username'
  unfold Grants.set
  split
  · rename_i hsame
    rw [hsame.1, hsame.2.1, hsame.2.2, h]
  · rfl

theorem Granted.replace (h : Granted shares) {share : ResourceShare}
    (hshare : share.is ty rid username = true) (hname : username ≠ [])
    (hrole : share.role = roleViewer ∨ share.role = roleEditor) :
    Granted (shares.map fun s => if s.is ty rid username then share else s) where
  unique ty' rid' username' := by
    rw [select_replace hshare]
    split
    · rw [List.length_map]
      exact h.unique ty rid username
    · exact h.unique ty' rid' username'
  role s hs := by
    obtain ⟨s₀, hs₀, rfl⟩ := List.mem_map.mp hs
    split
    · exact hrole
    · exact h.role s₀ hs₀
  named s hs := by
    obtain ⟨s₀, hs₀, rfl⟩ := List.mem_map.mp hs
    split
    · rw [(is_iff.mp hshare).2.2]
      exact hname
    · exact h.named s₀ hs₀

theorem Granted.append (h : Granted shares) {share : ResourceShare}
    (hshare : share.is ty rid username = true) (hname : username ≠ [])
    (hrole : share.role = roleViewer ∨ share.role = roleEditor)
    (hs : select shares ty rid username = []) : Granted (shares ++ [share]) where
  unique ty' rid' username' := by
    rw [select_append]
    by_cases hsame : ty' = ty ∧ rid' = rid ∧ username' = username
    · obtain ⟨rfl, rfl, rfl⟩ := hsame
      rw [hs, select_self hshare]
      simp
    · have hother : select [share] ty' rid' username' = [] := by
        simp [select, select_other hshare hsame]
      rw [hother, List.append_nil]
      exact h.unique ty' rid' username'
  role s hmem := by
    rcases List.mem_append.mp hmem with hmem | hmem
    · exact h.role s hmem
    · rw [List.mem_singleton.mp hmem]
      exact hrole
  named s hmem := by
    rcases List.mem_append.mp hmem with hmem | hmem
    · exact h.named s hmem
    · rw [List.mem_singleton.mp hmem, (is_iff.mp hshare).2.2]
      exact hname

theorem Granted.remove (h : Granted shares) :
    Granted (shares.filter fun s => !s.is ty rid username) where
  unique ty' rid' username' := by
    rw [select_remove]
    split
    · simp
    · exact h.unique ty' rid' username'
  role s hs := h.role s (List.mem_filter.mp hs).1
  named s hs := h.named s (List.mem_filter.mp hs).1

/-- A role that is read is the one in the map. -/
theorem getShareRole_grants (h : Granted shares) (ty : ResourceType) (rid username : Text) :
    getShareRole shares ty rid username = .ok ((grants shares ty rid username).map roleText) := by
  unfold getShareRole grants
  rcases h.select_cases ty rid username with hs | ⟨s, hmem, his, hs⟩
  · rw [hs]
    split
    · rfl
    · rfl
  · have hname : username ≠ [] := by
      rw [← (is_iff.mp his).2.2]
      exact h.named s hmem
    have hrole : s.role ≠ [] := by
      rcases h.role s hmem with hr | hr
      · rw [hr]
        decide
      · rw [hr]
        decide
    rw [if_neg hname, hs]
    simp only [scalarOneOrNone, List.head?_cons, Option.map_some,
      roleText_roleOf (h.role s hmem)]
    change Except.ok (if s.role = [] then none else some s.role) = _
    rw [if_neg hrole]

end

/-! ## Users -/

section
variable {users : List User}

/-- A username is that of one user or of none. -/
theorem getUserByUsername_cases (hunique : (users.map User.username).Nodup) (username : Text) :
    (getUserByUsername users username = .ok none ∧
      ∀ u ∈ users, u.username ≠ [] → u.username ≠ strip username) ∨
    ∃ u ∈ users, u.username = strip username ∧ u.username ≠ [] ∧
      getUserByUsername users username = .ok (some u) := by
  unfold getUserByUsername
  by_cases hblank : strip username = []
  · refine Or.inl ⟨if_pos hblank, fun u _ hne => ?_⟩
    rw [hblank]
    exact hne
  · rw [if_neg hblank]
    cases hf : users.filter fun u => decide (u.username = strip username) with
    | nil =>
      refine Or.inl ⟨rfl, fun u hu _ heq => ?_⟩
      have hmem : u ∈ users.filter fun u => decide (u.username = strip username) :=
        List.mem_filter.mpr ⟨hu, by simpa using heq⟩
      rw [hf] at hmem
      cases hmem
    | cons u rest =>
      have hall : ∀ v ∈ u :: rest, v ∈ users ∧ v.username = strip username := by
        intro v hv
        rw [← hf] at hv
        simpa using List.mem_filter.mp hv
      obtain ⟨hu, hname⟩ := hall u List.mem_cons_self
      cases rest with
      | nil => exact Or.inr ⟨u, hu, hname, hname ▸ hblank, rfl⟩
      | cons v rest =>
        -- two users with one name
        have hnodup : ((u :: v :: rest).map User.username).Nodup :=
          hf ▸ hunique.sublist (List.filter_sublist.map _)
        obtain ⟨-, hname'⟩ := hall v (by simp)
        simp [hname, hname'] at hnodup

variable (hunique : (users.map User.username).Nodup)
include hunique

theorem shares_refine :
    Refines (step users) (Meaning users) (fun _ _ => True)
      (fun shares g => Granted shares ∧ grants shares = g) id where
  step := by
    rintro shares g op ⟨h, rfl⟩ -
    cases op with
    | add ty rid username role =>
      rcases getUserByUsername_cases hunique (strip username) with
        ⟨hnone, hall⟩ | ⟨u, hu, hname, hne, hsome⟩
      · have hadd : addShare users shares ty rid username role = .ok (none, shares) := by
          simp only [addShare, hnone]
          rfl
        simp only [step, hadd]
        exact ⟨_, .unknown hall, h, rfl⟩
      · let share : ResourceShare := ⟨ty, rid, u.username, knownRole role⟩
        have hshare : share.is ty rid u.username = true := is_iff.mpr ⟨rfl, rfl, rfl⟩
        have hmeaning : Meaning users (grants shares) (.add ty rid username role)
            (.added (some (u.username, knownRole role)))
            ((grants shares).set ty rid u.username (some (roleOf share.role))) := by
          rw [roleOf_knownRole, ← roleText_knownRole]
          exact .added hu hname hne
        rcases h.select_cases ty rid u.username with hs | ⟨s, -, -, hs⟩
        · have hadd : addShare users shares ty rid username role =
              .ok (some share, shares ++ [share]) := by
            simp only [addShare, hsome]
            change (scalarOneOrNone (select shares ty rid u.username) >>= _) = _
            rw [hs]
            rfl
          simp only [step, hadd]
          exact ⟨_, hmeaning, h.append hshare hne (knownRole_known role) hs,
            grants_append hshare hs⟩
        · have hadd : addShare users shares ty rid username role = .ok (some share,
              shares.map fun s => if s.is ty rid u.username then share else s) := by
            simp only [addShare, hsome]
            change (scalarOneOrNone (select shares ty rid u.username) >>= _) = _
            rw [hs]
            rfl
          simp only [step, hadd]
          exact ⟨_, hmeaning, h.replace hshare hne (knownRole_known role),
            grants_replace hshare hs⟩
    | remove ty rid username =>
      have hmeaning : Meaning users (grants shares) (.remove ty rid username) (.removed
          (grants shares ty rid (strip username)).isSome)
          ((grants shares).set ty rid (strip username) none) := .removed
      rcases h.select_cases ty rid (strip username) with hs | ⟨s, -, -, hs⟩
      · have hremove : removeShare shares ty rid username = .ok (false, shares) := by
          simp only [removeShare, hs]
          rfl
        have hnone : grants shares ty rid (strip username) = none := by
          simp [grants, hs]
        rw [hnone] at hmeaning
        simp only [step, hremove]
        exact ⟨_, hmeaning, h, (set_none hnone).symm⟩
      · have hremove : removeShare shares ty rid username =
            .ok (true, shares.filter fun s => !s.is ty rid (strip username)) := by
          simp only [removeShare, hs]
          rfl
        have hsome : (grants shares ty rid (strip username)).isSome = true := by
          simp [grants, hs]
        rw [hsome] at hmeaning
        simp only [step, hremove]
        exact ⟨_, hmeaning, h.remove, grants_remove⟩
    | role ty rid username =>
      simp only [step, getShareRole_grants h]
      exact ⟨_, .role, h, rfl⟩

/-- Every sequence of calls reads and writes the map of grants: the last role that was set for a
user holds until it is removed, a text that is no role makes a viewer, and no call raises. -/
theorem shares_trace {shares : List ResourceShare} (h : Granted shares) (ops : List Op) :
    Trace (Meaning users) (grants shares) (ops.zip (results (step users) shares ops))
        (grants (after (step users) shares ops)) ∧ Granted (after (step users) shares ops) := by
  obtain ⟨g, htrace, hgranted, rfl⟩ := (shares_refine hunique).trace ⟨h, rfl⟩
    (allowed_of_forall (fun _ _ => trivial) shares ops)
  rw [List.map_id] at htrace
  exact ⟨htrace, hgranted⟩

omit hunique in
theorem granted_nil : Granted [] := ⟨by simp [select], by simp, by simp⟩

theorem granted_after (ops : List Op) : Granted (after (step users) [] ops) := by
  obtain ⟨_, -, hgranted, -⟩ := (shares_refine hunique).trace ⟨granted_nil, rfl⟩
    (allowed_of_forall (fun _ _ => trivial) [] ops)
  exact hgranted

end

def alice : User := ⟨1, "alice".toList, false⟩

/-- A user is given a role that there is not, which is then read. -/
def aliceOps : List Op :=
  [.add .collection "roads".toList " alice".toList "owner".toList,
    .role .collection "roads".toList "alice".toList]

theorem shares_trace_alice :
    Trace (Meaning [alice]) (grants []) (aliceOps.zip (results (step [alice]) [] aliceOps))
        (grants (after (step [alice]) [] aliceOps)) ∧
      Granted (after (step [alice]) [] aliceOps) :=
  shares_trace (by simp) granted_nil aliceOps

end Share
end Geofastmap
