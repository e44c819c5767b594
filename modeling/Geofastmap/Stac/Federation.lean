import Geofastmap.Import.Json
import Geofastmap.Stac.Keyed
import Geofastmap.Upload.Complete

/-!
# Geofastmap.Stac.Federation

Item search in several catalogs. Each catalog is asked with `POST /search`, the links to further
pages are followed, and the answers are merged into one item collection.

A server that answers the search with HTTP 400 is asked once more without the cloud filter.
* `postSearch_mem` says on which pages of the search that was sent its features were,
* `mergeItemCollections_mem` which of the features the merge keeps.
-/

namespace Geofastmap
namespace Stac

open Import

abbrev Dict := List (Text × Json)

/-- A STAC item. `none` stands for properties that are no mapping. -/
structure Item where
  id : Option Text
  collection : Option Text
  properties : Option Dict
  members : Dict

/-- `x or ""` of a member that is a text, if it is there. -/
def textOf : Json → Text
  | .str s => s
  | _ => []

/-- `props.get(key)` of the properties of an item. -/
def Item.property (f : Item) (key : String) : Json := Json.get (f.properties.getD []) key.toList

/-! ## Merging -/

/-- `feat.get("collection") or props.get("collection") or ""`. -/
def Item.collectionId (f : Item) : Text :=
  match f.collection with
  | some (ch :: coll) => ch :: coll
  | _ => textOf (f.property "collection")

/-- The catalog from which a merged item came. -/
def Item.sourceCatalog (f : Item) : Text := textOf (f.property "geofast:sourceCatalog")

/-- Catalog, collection and item id. -/
def Item.name (f : Item) : Text × Text × Text := (f.sourceCatalog, f.collectionId, f.id.getD [])

/-- The item as it is merged from a catalog. -/
def Item.stamp (catId : Text) (f : Item) : Item :=
  let props := f.properties.getD []
  let props := match f.collection with
    | some (ch :: coll) =>
      if "collection".toList ∈ props.map Prod.fst then props
      else setKey props "collection".toList (.str (ch :: coll))
    | _ => props
  { f with properties := some (setKey props "geofast:sourceCatalog".toList (.str catId)) }

/-- The key of `_merge_item_collections`, which leaves the collection out. -/
def mergeKey (name : Text × Text × Text) : Text := name.1 ++ ':' :: name.2.2

/-- The features of the parts with the labels of their catalogs, merged but not deduplicated. An
empty part and a feature that is no mapping are left out. -/
def stamped (parts : List (Option (List (Option Item)))) (catalogLabels : List Text) : List Item :=
  parts.zipIdx.flatMap fun (part, i) =>
    let catId := catalogLabels.getD i "unknown".toList
    ((part.getD []).filterMap id).map (Item.stamp catId)

/-- The features of `_merge_item_collections`. -/
def mergeItemCollections (parts : List (Option (List (Option Item)))) (catalogLabels : List Text) :
    List Item :=
  Keyed.keepFirst (fun f => mergeKey f.name) [] (stamped parts catalogLabels)

theorem property_stamp (catId : Text) (f : Item) {key : String}
    (hcatalog : key.toList ≠ "geofast:sourceCatalog".toList)
    (hcollection : key.toList ≠ "collection".toList) :
    (f.stamp catId).property key = f.property key := by
  unfold Item.property Item.stamp
  simp only [Option.getD_some]
  rw [Json.get_setKey, if_neg hcatalog]
  split
  · split
    · rfl
    · rw [Json.get_setKey, if_neg hcollection]
  · rfl

theorem mem_stamped {parts : List (Option (List (Option Item)))} {catalogLabels : List Text}
    {f : Item} : f ∈ stamped parts catalogLabels ↔
      ∃ (i : Nat) (part : List (Option Item)) (g : Item), parts[i]? = some (some part) ∧ some g ∈ part ∧
        f = g.stamp (catalogLabels.getD i "unknown".toList) := by
  unfold stamped
  simp only [List.mem_flatMap, Prod.exists, List.mem_zipIdx_iff_getElem?, List.mem_map,
    List.mem_filterMap, id]
  constructor
  · rintro ⟨part, i, hpart, g, ⟨_, hg, rfl⟩, rfl⟩
    cases part with
    | none => cases hg
    | some part => exact ⟨i, part, g, hpart, hg, rfl⟩
  · rintro ⟨i, part, g, hpart, hg, rfl⟩
    exact ⟨some part, i, hpart, g, ⟨some g, hg, rfl⟩, rfl⟩

theorem mem_mergeItemCollections {parts : List (Option (List (Option Item)))}
    {catalogLabels : List Text} {f : Item} : f ∈ mergeItemCollections parts catalogLabels ↔
      (stamped parts catalogLabels).find? (fun g => mergeKey g.name = mergeKey f.name) = some f := by
  rw [mergeItemCollections, Keyed.mem_keepFirst]
  simp

/-! ## Requests -/

/-- The body of a search, with the limit of the cloud cover in its query. -/
structure Body where
  limit : Int
  bbox : List Rat
  collections : Option (List Text)
  datetime : Text
  cloudCoverMax : Option Rat

structure Link where
  rel : Text
  href : Text
  method : Text
  body : Option Dict

/-- An item collection as a server answers it. -/
structure Page where
  features : List (Option Item)
  links : List Link

inductive Call where
  | search (body : Body)
  | follow (href : Text) (method : Text) (body : Option Dict)

/-- What comes back for one HTTP request; `notJson` has a status that is a success. -/
inductive Answer where
  | page (p : Page)
  | notJson (detail : Text)
  | status (code : Nat) (detail : Text)
  | requestError (detail : Text)

/-- A server answers the requests of a search one after the other. -/
abbrev Server := Nat → Call → Answer

structure Settings where
  httpMaxRetries : Int
  httpMaxPages : Int
  maxCatalogs : Nat

def Settings.maxAttempts (s : Settings) : Nat := (1 + max 0 s.httpMaxRetries).toNat

def Settings.pageMax (s : Settings) : Nat := (max 1 s.httpMaxPages).toNat

structure Failure where
  detail : Text
  code : Nat

/-- `_RETRYABLE_HTTP_STATUS`. -/
def retryable (code : Nat) : Bool := [502, 503, 504, 429].contains code

variable (server : Server)

/-- `_request_json_with_retries`, with the attempts left; `n` requests were made before. -/
def requestJson (call : Call) : Nat → Nat → Except Failure Page × Nat
  | 0, n => (.error ⟨"exhausted retries".toList, 0⟩, n)
  | left + 1, n =>
    match server n call with
    | .page p => (.ok p, n + 1)
    | .notJson detail =>
      (.error ⟨"Invalid JSON in response (".toList ++ detail ++ [')'], 200⟩, n + 1)
    | .status code detail =>
      if retryable code ∧ 0 < left then requestJson call left (n + 1)
      else (.error ⟨detail, code⟩, n + 1)
    | .requestError detail =>
      if 0 < left then requestJson call left (n + 1) else (.error ⟨detail, 0⟩, n + 1)

/-- `_extract_next_link`. -/
def extractNextLink (p : Page) : Option Call :=
  (p.links.find? fun l =>
    Sql.lower l.rel == "next".toList && !(strip l.href).isEmpty).map fun l =>
      let method := (if l.method.isEmpty then "GET".toList else l.method).map Char.toUpper
      .follow (strip l.href)
        (if method = "GET".toList ∨ method = "POST".toList then method else "GET".toList) l.body

/-- The features of the pages that follow `cur`. -/
def followLinks (s : Settings) : Nat → Page → Nat → List (Option Item)
  | 0, _, _ => []
  | left + 1, cur, n =>
    match extractNextLink cur with
    | none => []
    | some call =>
      match requestJson server call s.maxAttempts n with
      | (.ok p, n) => p.features ++ followLinks s left p n
      | (.error _, _) => []

structure Catalog where
  id : Text
  defaultCollections : List Text

/-- The body that is sent: a search without collections has those of the catalog. -/
def reqBody (catalog : Catalog) (body : Body) : Body :=
  if catalog.defaultCollections ≠ [] ∧ body.collections = none then
    { body with collections := some catalog.defaultCollections } else body

/-- `_post_search_with_retries`. -/
def postSearch (s : Settings) (catalog : Catalog) (body : Body) :
    Except Text (List (Option Item)) :=
  let reqBody := reqBody catalog body
  match requestJson server (.search reqBody) s.maxAttempts 0 with
  | (.ok p, n) => .ok (p.features ++ followLinks server s (s.pageMax - 1) p n)
  | (.error e, n) =>
    let failed : Except Text (List (Option Item)) :=
      .error (if e.detail.isEmpty then "exhausted retries".toList else e.detail)
    -- the query extension may be unknown to the server
    if e.code = 400 ∧ reqBody.cloudCoverMax ≠ none then
      match (requestJson server (.search { reqBody with cloudCoverMax := none }) s.maxAttempts n).1 with
      | .ok p => .ok p.features
      | .error e' => if e'.detail.isEmpty then failed else .error e'.detail
    else failed

/-- `federated_search`: the merged features, and the catalogs that failed. -/
def federatedSearch (s : Settings) (servers : Catalog → Server) (catalogs : List Catalog)
    (body : Body) : List Item × List (Text × Text) :=
  let results := catalogs.map fun c => (c, postSearch (servers c) s c body)
  (mergeItemCollections (results.map fun r => r.2.toOption) (catalogs.map Catalog.id),
    results.filterMap fun r => match r.2 with
      | .ok _ => none
      | .error detail => some (r.1.id, detail))

/-- `execute_stac_search_for_catalogs`. `earlier` are the servers at the earlier search for the same
body whose result is in the cache; results with errors are not cached. -/
def executeStacSearch (s : Settings) (earlier : Option (Catalog → Server))
    (servers : Catalog → Server) (catalogs : List Catalog) (body : Body) :
    Except Text (List Item × List (Text × Text)) :=
  if s.maxCatalogs < catalogs.length then .error "Too many catalogs in search".toList
  else
    let hit := (earlier.map fun servers => federatedSearch s servers catalogs body).filter
      fun r => r.2.isEmpty
    .ok (hit.getD (federatedSearch s servers catalogs body))

/-! ## Where features come from -/

/-- The answers after which a request is sent again. -/
def Answer.Retried : Answer → Prop
  | .status code _ => retryable code = true
  | .requestError _ => True
  | .page _ => False
  | .notJson _ => False

/-- A request that is first sent after `n` others is sent once more after `m` of them. -/
structure SentAgain (s : Settings) (call : Call) (n m : Nat) : Prop where
  later : n ≤ m
  attempts : m < n + s.maxAttempts
  retried : ∀ k, n ≤ k → k < m → (server k call).Retried

/-- The attempts of a request end with the answer after `m` others. -/
structure EndsAt (call : Call) (left n : Nat) (result : Except Failure Page × Nat) (m : Nat) :
    Prop where
  count : result.2 = m + 1
  later : n ≤ m
  attempts : m < n + left
  retried : ∀ k, n ≤ k → k < m → (server k call).Retried
  page : ∀ p, result.1 = .ok p → server m call = .page p
  badRequest : ∀ e, result.1 = .error e → e.code = 400 →
    ∃ detail, server m call = .status 400 detail

/-- The request is sent once more. -/
theorem EndsAt.again {call : Call} {left n m : Nat} {result : Except Failure Page × Nat}
    (h : EndsAt server call left (n + 1) result m) (hretried : (server n call).Retried) :
    EndsAt server call (left + 1) n result m where
  count := h.count
  later := Nat.le_of_succ_le h.later
  attempts := by
    have := h.attempts
    omega
  retried k hk hlt := by
    by_cases hkn : k = n
    · exact hkn ▸ hretried
    · exact h.retried k (by omega) hlt
  page := h.page
  badRequest := h.badRequest

theorem requestJson_spec (call : Call) {left : Nat} (hleft : 0 < left) (n : Nat) :
    ∃ m, EndsAt server call left n (requestJson server call left n) m := by
  induction left generalizing n with
  | zero => exact absurd hleft (lt_irrefl 0)
  | succ left ih =>
    -- the answer is the last one
    have hlast (result : Except Failure Page)
        (hok : ∀ p, result = .ok p → server n call = .page p)
        (herror : ∀ e, result = .error e → e.code = 400 →
          ∃ detail, server n call = .status 400 detail) :
        ∃ m, EndsAt server call (left + 1) n (result, n + 1) m :=
      ⟨n, rfl, le_rfl, by omega, fun k hk hlt => absurd hk (by omega), hok, herror⟩
    rw [requestJson]
    cases hanswer : server n call with
    | page p => exact hlast _ (fun p' hp => by cases hp; exact hanswer) (fun e he => by cases he)
    | notJson detail =>
      exact hlast _ (fun p' hp => by cases hp) (fun e he hcode => by cases he; cases hcode)
    | status code detail =>
      simp only
      split
      · rename_i hretry
        obtain ⟨m, hm⟩ := ih hretry.2 (n + 1)
        exact ⟨m, hm.again server (by rw [hanswer]; exact hretry.1)⟩
      · exact hlast _ (fun p' hp => by cases hp)
          (fun e he hcode => by cases he; exact ⟨detail, by rw [hanswer, ← hcode]⟩)
    | requestError detail =>
      simp only
      split
      · rename_i hpos
        obtain ⟨m, hm⟩ := ih hpos (n + 1)
        exact ⟨m, hm.again server (by rw [hanswer]; trivial)⟩
      · exact hlast _ (fun p' hp => by cases hp) (fun e he hcode => by cases he; cases hcode)

theorem maxAttempts_pos (s : Settings) : 0 < s.maxAttempts := by
  unfold Settings.maxAttempts
  omega

theorem requestJson_ok {s : Settings} {call : Call} {n n' : Nat} {p : Page}
    (h : requestJson server call s.maxAttempts n = (.ok p, n')) :
    ∃ m, n' = m + 1 ∧ SentAgain server s call n m ∧ server m call = .page p := by
  obtain ⟨m, hends⟩ := requestJson_spec server call (maxAttempts_pos s) n
  rw [h] at hends
  exact ⟨m, hends.count, ⟨hends.later, hends.attempts, hends.retried⟩, hends.page p rfl⟩

theorem requestJson_code {s : Settings} {call : Call} {n n' : Nat} {e : Failure}
    (hcode : e.code = 400) (h : requestJson server call s.maxAttempts n = (.error e, n')) :
    ∃ m detail, n' = m + 1 ∧ SentAgain server s call n m ∧ server m call = .status 400 detail := by
  obtain ⟨m, hends⟩ := requestJson_spec server call (maxAttempts_pos s) n
  rw [h] at hends
  obtain ⟨detail, hstatus⟩ := hends.badRequest e rfl hcode
  exact ⟨m, detail, hends.count, ⟨hends.later, hends.attempts, hends.retried⟩, hstatus⟩

/-- The pages of a search with a body: the answer to it, and the answers to the links of a page. `n`
requests are sent until the page is there. -/
inductive PageOf (s : Settings) (body : Body) : Page → Nat → Prop
  | first {m : Nat} {p : Page} (hsent : SentAgain server s (.search body) 0 m)
      (hpage : server m (.search body) = .page p) : PageOf s body p (m + 1)
  | linked {cur p : Page} {n m : Nat} {call : Call} (hcur : PageOf s body cur n)
      (hlink : extractNextLink cur = some call) (hsent : SentAgain server s call n m)
      (hpage : server m call = .page p) : PageOf s body p (m + 1)

theorem mem_followLinks {s : Settings} {left n : Nat} {cur : Page} {body : Body}
    (hcur : PageOf server s body cur n) {f : Option Item} (h : f ∈ followLinks server s left cur n) :
    ∃ p n', PageOf server s body p n' ∧ f ∈ p.features := by
  induction left generalizing cur n with
  | zero => simp [followLinks] at h
  | succ left ih =>
    rw [followLinks] at h
    cases hnext : extractNextLink cur with
    | none => simp [hnext] at h
    | some call =>
      simp only [hnext] at h
      cases hpage : requestJson server call s.maxAttempts n with
      | mk result n' =>
        cases result with
        | error e => simp [hpage] at h
        | ok p =>
          simp only [hpage, List.mem_append] at h
          obtain ⟨m, rfl, hsent, hm⟩ := requestJson_ok server hpage
          have hp : PageOf server s body p (m + 1) := .linked hcur hnext hsent hm
          rcases h with h | h
          · exact ⟨p, m + 1, hp, h⟩
          · exact ih hp h

/-- The search is answered with HTTP 400, and is then sent without the limit, for which the server
gives the feature. -/
def GivenWithout (s : Settings) (body : Body) (f : Option Item) : Prop :=
  ∃ m detail, SentAgain server s (.search body) 0 m ∧
    server m (.search body) = .status 400 detail ∧
    ∃ m' p, SentAgain server s (.search { body with cloudCoverMax := none }) (m + 1) m' ∧
      server m' (.search { body with cloudCoverMax := none }) = .page p ∧ f ∈ p.features

/-- Each feature of a search was on a page of the search with the limit, or the server answered that
search with HTTP 400. -/
theorem postSearch_mem {s : Settings} {c : Catalog} {body : Body} {fs : List (Option Item)}
    (h : postSearch server s c body = .ok fs) {f : Option Item} (hf : f ∈ fs) :
    (∃ p n, PageOf server s (reqBody c body) p n ∧ f ∈ p.features) ∨
      GivenWithout server s (reqBody c body) f := by
  unfold postSearch at h
  simp only at h
  cases hsearch : requestJson server (.search (reqBody c body)) s.maxAttempts 0 with
  | mk result n =>
    rw [hsearch] at h
    cases result with
    | ok p =>
      left
      cases h
      obtain ⟨m, rfl, hsent, hm⟩ := requestJson_ok server hsearch
      have hfirst : PageOf server s (reqBody c body) p (m + 1) := .first hsent hm
      rcases List.mem_append.mp hf with hf | hf
      · exact ⟨p, m + 1, hfirst, hf⟩
      · exact mem_followLinks server hfirst hf
    | error e =>
      right
      simp only at h
      split at h
      · rename_i hretry
        obtain ⟨m, detail, rfl, hsent, hm⟩ := requestJson_code server hretry.1 hsearch
        cases hagain : requestJson server (.search { reqBody c body with cloudCoverMax := none })
            s.maxAttempts (m + 1) with
        | mk result' n' =>
          rw [hagain] at h
          cases result' with
          | error e' =>
            simp only at h
            split at h <;> cases h
          | ok p =>
            cases h
            obtain ⟨m', -, hsent', hm'⟩ := requestJson_ok server hagain
            exact ⟨m, detail, hsent, hm, m', p, hsent', hm', hf⟩
      · cases h

/-- Each feature of a federated search is a feature of the search of a catalog. -/
theorem federatedSearch_mem {s : Settings} {servers : Catalog → Server} {catalogs : List Catalog}
    {body : Body} {f : Item} (hf : f ∈ (federatedSearch s servers catalogs body).1) :
    ∃ c ∈ catalogs, ∃ fs g, postSearch (servers c) s c body = .ok fs ∧ some g ∈ fs ∧
      f = g.stamp c.id := by
  simp only [federatedSearch, List.map_map] at hf
  have hstamped := (Keyed.keepFirst_keeps _ _).subset f hf
  obtain ⟨i, part, g, hpart, hg, rfl⟩ := mem_stamped.mp hstamped
  rw [List.getElem?_map] at hpart
  cases hc : catalogs[i]? with
  | none => simp [hc] at hpart
  | some c =>
    rw [hc] at hpart
    simp only [Option.map_some, Function.comp_apply, Option.some.injEq] at hpart
    cases hsearch : postSearch (servers c) s c body with
    | error detail => simp [hsearch, Except.toOption] at hpart
    | ok fs =>
      rw [hsearch] at hpart
      cases hpart
      refine ⟨c, List.mem_of_getElem? hc, part, g, hsearch, hg, ?_⟩
      simp [List.getD_eq_getElem?_getD, hc]

end Stac
end Geofastmap
